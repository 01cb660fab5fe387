import Mathlib.Algebra.Group.Nat.Defs

/-!
# Bytes of a connection

Below the messages of a connection: `try_read` of `server/client_connection.cpp` and `try_receive_snapshot` of
`network/websocket_client.cpp`. The library fetches bytes from the socket of the system into a buffer of its own, which
the program cannot look into. The program infers how many bytes are there from the sizes that the socket reports and
from the length of the messages it is given.
-/

namespace KungFuChess

namespace Transport

abbrev Byte := UInt8

/-! ### Frames -/

inductive Opcode where
  | text
  | ping
  | pong
deriving DecidableEq, Repr

def Opcode.code : Opcode → Byte
  | .text => 0x1
  | .ping => 0x9
  | .pong => 0xA

/-- A frame that is a message of its own. -/
structure WireFrame where
  opcode : Opcode
  maskKey : Option (Vector Byte 4)
  payload : List Byte
deriving DecidableEq

/-- The low `count` bytes of a number, the high ones first. -/
def bigEndian (count n : Nat) : List Byte := (List.range count).reverse.map fun i => UInt8.ofNat (n / 256 ^ i)

namespace WireFrame

variable (frame : WireFrame)

def maskBit : Byte := if frame.maskKey.isSome then 0x80 else 0

/-- The length of the payload: in seven bits, or in the two or eight bytes that follow. -/
def lengthBytes : List Byte :=
  let size := frame.payload.length
  if size ≤ 125 then [frame.maskBit ||| UInt8.ofNat size]
  else if size ≤ 65535 then (frame.maskBit ||| 126) :: bigEndian 2 size
  else (frame.maskBit ||| 127) :: bigEndian 8 size

/-- The frame as it is sent. -/
def bytes : List Byte :=
  (0x80 ||| frame.opcode.code) :: frame.lengthBytes ++
    match frame.maskKey with
    | none => frame.payload
    | some key => key.toList ++ frame.payload.mapIdx fun i byte => byte ^^^ key.toList.getD (i % 4) 0

def isControl : Bool := frame.opcode != .text

end WireFrame

/-! ### The two ends -/

/-- The program that reads: the server reads masked frames, the client unmasked ones. -/
inductive Endpoint where
  | server
  | client
deriving DecidableEq, Repr

def maskedFrameSize (payloadSize : Nat) : Nat :=
  let headerSize := 2 + 4
  let headerSize :=
    if payloadSize > 65535 then headerSize + 8
    else if payloadSize > 125 then headerSize + 2
    else headerSize
  headerSize + payloadSize

def unmaskedFrameSize (payloadSize : Nat) : Nat :=
  let headerSize := 2
  let headerSize :=
    if payloadSize > 65535 then headerSize + 8
    else if payloadSize > 125 then headerSize + 2
    else headerSize
  headerSize + payloadSize

namespace Endpoint

def frameSize : Endpoint → Nat → Nat
  | .server => maskedFrameSize
  | .client => unmaskedFrameSize

def masks : Endpoint → Bool
  | .server => true
  | .client => false

end Endpoint

/-- `open_` or `connected_`, and `buffered_bytes_`. -/
structure Connection where
  isOpen : Bool := true
  bufferedBytes : Nat := 0
deriving DecidableEq, Repr

/-- What a look at the next byte of an idle socket finds. -/
inductive Peek where
  | wouldBlock
  | data
  -- the peer has gone, or the socket does not let itself be looked at
  | failed
deriving DecidableEq, Repr

/-- How the `read` of the library ends. -/
inductive ReadOutcome where
  | message (payload : List Byte)
  | wouldBlock
  -- closed by the peer, or failed
  | ended
deriving DecidableEq

/-- `update_buffered_bytes`. The socket may not report the size of what remains. -/
def updateBufferedBytes (bufferedBytes availableBeforeRead : Nat) (remaining : Option Nat) (consumedBytes : Nat) : Nat :=
  let movedIntoBeast :=
    match remaining with
    | some availableAfterRead =>
        if availableBeforeRead > availableAfterRead then availableBeforeRead - availableAfterRead else 0
    | none => 0
  let reachable := bufferedBytes + movedIntoBeast
  if reachable > consumedBytes then reachable - consumedBytes else 0

namespace Connection

variable (endpoint : Endpoint) (connection : Connection)

/-- The part of a read attempt that calls the library, once something is thought to be there. What the client throws on
an error is not shown. -/
def read (availableBytes : Nat) (outcome : ReadOutcome) (remaining : Option Nat) : Option (List Byte) × Connection :=
  match outcome with
  | .wouldBlock => (none, connection)
  | .ended => (none, { connection with bufferedBytes := 0, isOpen := false })
  | .message payload =>
      (some payload, { connection with
        bufferedBytes := updateBufferedBytes connection.bufferedBytes availableBytes remaining
          (endpoint.frameSize payload.length) })

/-- `try_read` and `try_receive_snapshot`. The socket may not report a size. When nothing seems to be there, the client
reads what it sees in the socket by then, and the server leaves it for the next time. -/
def tryRead (available : Option Nat) (peek : Peek) (outcome : ReadOutcome) (remaining : Option Nat) :
    Option (List Byte) × Connection :=
  if !connection.isOpen then (none, connection)
  else match available with
    | none => (none, { connection with bufferedBytes := 0, isOpen := false })
    | some availableBytes =>
        if availableBytes = 0 ∧ connection.bufferedBytes = 0 then
          match endpoint, peek with
          | _, .wouldBlock => (none, connection)
          | _, .failed => (none, { connection with isOpen := false })
          | .server, .data => (none, connection)
          | .client, .data => connection.read endpoint availableBytes outcome remaining
        else connection.read endpoint availableBytes outcome remaining

end Connection

/-! ### The way of the bytes -/

/-- The bytes that have arrived, in the socket and in the buffer of the library, and what the program knows. -/
structure Wire where
  kernel : List Byte := []
  beast : List Byte := []
  connection : Connection := {}
deriving DecidableEq

/-- A read that gives a message: what arrives between the two readings of the size of the socket, how many bytes are
fetched from it, and which frames are taken. -/
structure SuccessfulRead where
  arrivals : List Byte
  moved : Nat
  controls : List WireFrame
  message : WireFrame
  remainingFails : Bool
deriving DecidableEq

inductive WireEvent where
  | arrive (bytes : List Byte)
  | read (event : SuccessfulRead)
deriving DecidableEq

namespace SuccessfulRead

variable (event : SuccessfulRead)

def frames : List WireFrame := event.controls ++ [event.message]

def consumed : List Byte := event.frames.flatMap WireFrame.bytes

end SuccessfulRead

namespace Wire

variable (endpoint : Endpoint) (wire : Wire)

def step : WireEvent → Wire
  | .arrive bytes => { wire with kernel := wire.kernel ++ bytes }
  | .read event =>
      let socket := wire.kernel ++ event.arrivals
      let kernel := socket.drop event.moved
      let beast := (wire.beast ++ socket.take event.moved).drop event.consumed.length
      let remaining := if event.remainingFails then none else some kernel.length
      let connection := (wire.connection.tryRead endpoint (some wire.kernel.length) .data
        (.message event.message.payload) remaining).2
      { kernel, beast, connection }

/-- The read can happen: the attempt comes to it, and the frames are at the front of what is in the buffer by then. -/
structure Reads (event : SuccessfulRead) : Prop where
  isOpen : wire.connection.isOpen = true
  ready : 0 < wire.kernel.length ∨ 0 < wire.connection.bufferedBytes ∨ endpoint = .client ∧ event.arrivals ≠ []
  moved : event.moved ≤ (wire.kernel ++ event.arrivals).length
  frames : event.consumed <+: wire.beast ++ (wire.kernel ++ event.arrivals).take event.moved
  masked : ∀ frame ∈ event.frames, frame.maskKey.isSome = endpoint.masks
  controls : ∀ frame ∈ event.controls, frame.isControl = true
  message : event.message.isControl = false

end Wire

end Transport

end KungFuChess
