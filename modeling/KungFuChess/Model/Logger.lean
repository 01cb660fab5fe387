import Mathlib.Data.Char
import Mathlib.Data.List.Lex
import KungFuChess.Lib.OrdMap
import KungFuChess.Model.Snapshot

/-!
# Structured log

`app/observability/structured_logger.cpp`: a call to `log` writes one line, an object with the time, the service, the
event and the fields of the call. The time, broken down, and the correlation id of the thread are given.
-/

namespace KungFuChess

inductive LogLevel
  | info
  | warn
  | error
deriving Repr, DecidableEq

/-- The parts of a `std::tm`, with the year in full. -/
structure UtcTime where
  year : Nat
  month : Nat
  day : Nat
  hour : Nat
  minute : Nat
  second : Nat
deriving Repr, DecidableEq

structure StructuredLogger where
  service : Text := []
  serverId : Text := []
deriving DecidableEq

def escapeJson (value : Text) : Text :=
  value.foldl (fun escaped c =>
    if c = '\\' then escaped ++ ['\\', '\\']
    else if c = '"' then escaped ++ ['\\', '"']
    else escaped ++ [c]) []

def levelName : LogLevel → Text
  | .info => "info".toList
  | .warn => "warn".toList
  | .error => "error".toList

def twoDigits (n : Nat) : Text := List.replicate (2 - (decimal n).length) '0' ++ decimal n

/-- `%Y-%m-%dT%H:%M:%SZ`. -/
def utcTimestamp (now : UtcTime) : Text :=
  decimal now.year ++ ['-'] ++ twoDigits now.month ++ ['-'] ++ twoDigits now.day ++ ['T'] ++ twoDigits now.hour ++ [':'] ++
    twoDigits now.minute ++ [':'] ++ twoDigits now.second ++ ['Z']

namespace StructuredLogger

def configure (service serverId : Text) : StructuredLogger := { service, serverId }

/-- What a call writes to the standard output. -/
def log (logger : StructuredLogger) (now : UtcTime) (correlationId : Text) (level : LogLevel) (event : Text)
    (fields : OrdMap Text Text) : Text :=
  let stream : Text := ['{']
  let stream := stream ++ "\"timestamp\":\"".toList ++ utcTimestamp now ++ ['"']
  let stream := stream ++ ",\"service\":\"".toList ++ escapeJson logger.service ++ ['"']
  let stream := stream ++ ",\"server_id\":\"".toList ++ escapeJson logger.serverId ++ ['"']
  let stream := stream ++ ",\"level\":\"".toList ++ levelName level ++ ['"']
  let stream := stream ++ ",\"event\":\"".toList ++ escapeJson event ++ ['"']
  let stream :=
    if correlationId.isEmpty then stream
    else stream ++ ",\"correlation_id\":\"".toList ++ escapeJson correlationId ++ ['"']
  let stream := fields.entries.foldl (fun stream (key, value) =>
    stream ++ ",\"".toList ++ escapeJson key ++ "\":\"".toList ++ escapeJson value ++ ['"']) stream
  let stream := stream ++ ['}']
  stream ++ ['\n']

end StructuredLogger

end KungFuChess
