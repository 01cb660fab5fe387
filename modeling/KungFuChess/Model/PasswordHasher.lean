import KungFuChess.Model.Redis
import KungFuChess.Model.Repository

/-!
# Password hashes

`server/password_hasher.cpp`: SHA-256 in a context that takes the message in pieces, HMAC and PBKDF2 over it, and
the text of a stored hash, `pbkdf2_sha256$iterations$salt$digest`. The random salt is given by the caller.
-/

namespace KungFuChess

/-! ### SHA-256 -/

structure Sha256Context where
  state : Vector UInt32 8 := Vector.replicate 8 0
  bitCount : UInt64 := 0
  buffer : Vector UInt8 64 := Vector.replicate 64 0
  bufferSize : Nat := 0

def kSha256Constants : Array UInt32 :=
  #[0x428a2f98, 0x71374491, 0xb5c0fbcf, 0xe9b5dba5, 0x3956c25b, 0x59f111f1, 0x923f82a4,
    0xab1c5ed5, 0xd807aa98, 0x12835b01, 0x243185be, 0x550c7dc3, 0x72be5d74, 0x80deb1fe,
    0x9bdc06a7, 0xc19bf174, 0xe49b69c1, 0xefbe4786, 0x0fc19dc6, 0x240ca1cc, 0x2de92c6f,
    0x4a7484aa, 0x5cb0a9dc, 0x76f988da, 0x983e5152, 0xa831c66d, 0xb00327c8, 0xbf597fc7,
    0xc6e00bf3, 0xd5a79147, 0x06ca6351, 0x14292967, 0x27b70a85, 0x2e1b2138, 0x4d2c6dfc,
    0x53380d13, 0x650a7354, 0x766a0abb, 0x81c2c92e, 0x92722c85, 0xa2bfe8a1, 0xa81a664b,
    0xc24b8b70, 0xc76c51a3, 0xd192e819, 0xd6990624, 0xf40e3585, 0x106aa070, 0x19a4c116,
    0x1e376c08, 0x2748774c, 0x34b0bcb5, 0x391c0cb3, 0x4ed8aa4a, 0x5b9cca4f, 0x682e6ff3,
    0x748f82ee, 0x78a5636f, 0x84c87814, 0x8cc70208, 0x90befffa, 0xa4506ceb, 0xbef9a3f7,
    0xc67178f2]

def rotr (value bits : UInt32) : UInt32 := (value >>> bits) ||| (value <<< (32 - bits))

/-- The first loop of `sha256_transform`. -/
def loadWords (block : Vector UInt8 64) (words : Array UInt32) : Array UInt32 :=
  (List.range 16).foldl (fun words i => words.set! i
    ((block[i * 4]!.toUInt32 <<< 24) ||| (block[i * 4 + 1]!.toUInt32 <<< 16) ||| (block[i * 4 + 2]!.toUInt32 <<< 8)
      ||| block[i * 4 + 3]!.toUInt32)) words

/-- One round of the second loop. -/
def extendWord (words : Array UInt32) (i : Nat) : Array UInt32 :=
  let s0 := rotr words[i - 15]! 7 ^^^ rotr words[i - 15]! 18 ^^^ (words[i - 15]! >>> 3)
  let s1 := rotr words[i - 2]! 17 ^^^ rotr words[i - 2]! 19 ^^^ (words[i - 2]! >>> 10)
  words.set! i (words[i - 16]! + s0 + words[i - 7]! + s1)

def extendWords (words : Array UInt32) : Array UInt32 := (List.range' 16 48).foldl extendWord words

/-- The local variables of the third loop. -/
structure Sha256Variables where
  a : UInt32
  b : UInt32
  c : UInt32
  d : UInt32
  e : UInt32
  f : UInt32
  g : UInt32
  h : UInt32

def sha256Round (words : Array UInt32) (v : Sha256Variables) (i : Nat) : Sha256Variables :=
  let s1 := rotr v.e 6 ^^^ rotr v.e 11 ^^^ rotr v.e 25
  let ch := (v.e &&& v.f) ^^^ ((~~~v.e) &&& v.g)
  let temp1 := v.h + s1 + ch + kSha256Constants[i]! + words[i]!
  let s0 := rotr v.a 2 ^^^ rotr v.a 13 ^^^ rotr v.a 22
  let maj := (v.a &&& v.b) ^^^ (v.a &&& v.c) ^^^ (v.b &&& v.c)
  let temp2 := s0 + maj
  ⟨temp1 + temp2, v.a, v.b, v.c, v.d + temp1, v.e, v.f, v.g⟩

/-- The third loop, from the words of the state. -/
def sha256Rounds (words : Array UInt32) (state : Vector UInt32 8) : Sha256Variables :=
  (List.range 64).foldl (sha256Round words)
    ⟨state[0], state[1], state[2], state[3], state[4], state[5], state[6], state[7]⟩

def sha256Transform (context : Sha256Context) (block : Vector UInt8 64) : Sha256Context :=
  let words := extendWords (loadWords block (Array.replicate 64 0))
  let state := context.state
  let v := sha256Rounds words state
  { context with
    state := #v[state[0] + v.a, state[1] + v.b, state[2] + v.c, state[3] + v.d, state[4] + v.e, state[5] + v.f,
      state[6] + v.g, state[7] + v.h] }

def sha256Init (context : Sha256Context) : Sha256Context :=
  { context with
    state := #v[0x6a09e667, 0xbb67ae85, 0x3c6ef372, 0xa54ff53a, 0x510e527f, 0x9b05688c, 0x1f83d9ab, 0x5be0cd19]
    bitCount := 0
    bufferSize := 0 }

/-- `context.buffer[context.buffer_size++] = byte`. -/
def Sha256Context.put (context : Sha256Context) (byte : UInt8) : Sha256Context :=
  { context with buffer := context.buffer.set! context.bufferSize byte, bufferSize := context.bufferSize + 1 }

/-- A `while` loop that puts zeros up to a size. -/
def Sha256Context.fillTo (context : Sha256Context) (size : Nat) : Sha256Context :=
  (List.replicate (size - context.bufferSize) 0).foldl put context

def sha256Update (context : Sha256Context) (data : List UInt8) : Sha256Context :=
  data.foldl (fun context byte =>
    let context := context.put byte
    if context.bufferSize = 64 then
      let context := sha256Transform context context.buffer
      { context with bitCount := context.bitCount + 512, bufferSize := 0 }
    else context) context

/-- Where the length does not fit into the block any more, the block is completed without it. -/
def Sha256Context.makeRoom (context : Sha256Context) : Sha256Context :=
  if context.bufferSize > 56 then
    let context := context.fillTo 64
    { sha256Transform context context.buffer with bufferSize := 0 }
  else context

def sha256Final (context : Sha256Context) : List UInt8 :=
  let context := { context with bitCount := context.bitCount + UInt64.ofNat (context.bufferSize * 8) }
  let context := context.put 0x80
  let context := context.makeRoom
  let context := context.fillTo 56
  let context := [7, 6, 5, 4, 3, 2, 1, 0].foldl (fun context i =>
    context.put ((context.bitCount >>> UInt64.ofNat (i * 8)) &&& 0xff).toUInt8) context
  let context := sha256Transform context context.buffer
  context.state.toList.flatMap fun (word : UInt32) =>
    [((word >>> 24) &&& 0xff).toUInt8, ((word >>> 16) &&& 0xff).toUInt8, ((word >>> 8) &&& 0xff).toUInt8,
      (word &&& 0xff).toUInt8]

def sha256 (data : List UInt8) : List UInt8 := sha256Final (sha256Update (sha256Init {}) data)

/-! ### HMAC and PBKDF2 -/

/-- Bytes copied over those of an array, from an offset on. -/
def copyTo (array : List UInt8) (offset : Nat) (bytes : List UInt8) : List UInt8 :=
  array.take offset ++ bytes ++ array.drop (offset + bytes.length)

def hmacSha256 (key data : List UInt8) : List UInt8 :=
  let keyBlock := copyTo (List.replicate 64 0) 0 (if key.length > 64 then sha256 key else key)
  let innerPad := keyBlock.map (· ^^^ 0x36)
  let outerPad := keyBlock.map (· ^^^ 0x5c)
  let innerDigest := sha256Final (sha256Update (sha256Update (sha256Init {}) innerPad) data)
  sha256Final (sha256Update (sha256Update (sha256Init {}) outerPad) innerDigest)

/-- The inner loop of `pbkdf2_sha256`, `iter` from 1 on: `u` and the result of the block. -/
def pbkdf2Rounds (password : List UInt8) : Nat → List UInt8 → List UInt8 → List UInt8
  | 0, _, blockResult => blockResult
  | rounds + 1, u, blockResult =>
      let u := hmacSha256 password u
      pbkdf2Rounds password rounds u (List.zipWith (· ^^^ ·) blockResult u)

def pbkdf2Block (password salt : List UInt8) (iterations : Int) (block : Nat) : List UInt8 :=
  let blockIndex : List UInt8 :=
    [UInt8.ofNat ((block >>> 24) &&& 0xff), UInt8.ofNat ((block >>> 16) &&& 0xff), UInt8.ofNat ((block >>> 8) &&& 0xff),
      UInt8.ofNat (block &&& 0xff)]
  let u := hmacSha256 password (salt ++ blockIndex)
  pbkdf2Rounds password (iterations - 1).toNat u u

/-- The outer loop, `rounds` more of them: the derived bytes and how many of them have been written. -/
def pbkdf2Blocks (password salt : List UInt8) (iterations : Int) (dkLen : Nat) :
    (rounds block offset : Nat) → List UInt8 → List UInt8
  | 0, _, _, derived => derived
  | rounds + 1, block, offset, derived =>
      let copyLen := min 32 (dkLen - offset)
      let blockResult := pbkdf2Block password salt iterations block
      pbkdf2Blocks password salt iterations dkLen rounds (block + 1) (offset + copyLen)
        (copyTo derived offset (blockResult.take copyLen))

/-- The number of blocks, an `int`: `static_cast<int>((dk_len + 31) / 32)`. -/
def blockCount (dkLen : Nat) : Int := (((dkLen + 31) % 2 ^ 64 / 32 : Nat) : Int).bmod (2 ^ 32)

def pbkdf2Sha256 (password salt : List UInt8) (iterations : Int) (dkLen : Nat) : List UInt8 :=
  pbkdf2Blocks password salt iterations dkLen (blockCount dkLen).toNat 1 0 (List.replicate dkLen 0)

/-! ### Text -/

/-- The bytes of a string. -/
def bytesOf (text : Text) : List UInt8 := text.map fun ch => UInt8.ofNat ch.toNat

/-- Two digits for each byte. -/
def toHex (data : List UInt8) : Text :=
  data.flatMap fun byte =>
    let digits := Nat.toDigits 16 byte.toNat
    List.replicate (2 - digits.length) '0' ++ digits

def isHexDigit (ch : Char) : Bool := ch.isDigit || ('a' ≤ ch && ch ≤ 'f') || ('A' ≤ ch && ch ≤ 'F')

def hexValue (ch : Char) : Nat :=
  if ch.isDigit then ch.toNat - '0'.toNat
  else if 'a' ≤ ch then ch.toNat - 'a'.toNat + 10
  else ch.toNat - 'A'.toNat + 10

/-- `std::stoi(text, nullptr, 16)`: white space, a sign and a prefix may come before the digits, and anything after
them. -/
def stoiHex (text : Text) : Option Int :=
  let text := text.dropWhile isSpace
  let (negative, text) := match text with
    | '-' :: rest => (true, rest)
    | '+' :: rest => (false, rest)
    | _ => (false, text)
  let text := match text with
    | '0' :: x :: digit :: rest => if (x = 'x' ∨ x = 'X') ∧ isHexDigit digit then digit :: rest else text
    | _ => text
  let digits := text.takeWhile isHexDigit
  if digits.isEmpty then none
  else
    let value : Int := (digits.foldl (fun value ch => value * 16 + hexValue ch) 0 : Nat)
    let value := if negative then -value else value
    if -2 ^ 31 ≤ value ∧ value < 2 ^ 31 then some value else none

/-- The loop of `from_hex`, two characters at a time. -/
def fromHexPairs : Text → Option (List UInt8)
  | high :: low :: rest => do
      let value ← stoiHex [high, low]
      let bytes ← fromHexPairs rest
      some (UInt8.ofNat (value % 256).toNat :: bytes)
  | _ => some []

def fromHex (hex : Text) : Option (List UInt8) := if hex.length % 2 ≠ 0 then none else fromHexPairs hex

/-- All the characters are compared, whatever the first of them are. A character is a byte, and so is the exclusive or
of two. -/
def constantTimeEquals (left right : Text) : Bool :=
  if left.length ≠ right.length then false
  else (List.zipWith (fun a b => a.toNat ^^^ b.toNat) left right).foldl (· ||| ·) 0 == 0

/-! ### Stored hashes -/

def kHashBytes : Nat := 32

def kDefaultIterations : Int := 10000

def hashPassword (salt : Vector UInt8 16) (password : Text) (iterations : Int) : Text :=
  let derived := pbkdf2Sha256 (bytesOf password) salt.toList iterations kHashBytes
  "pbkdf2_sha256$".toList ++ signedDecimal iterations ++ ['$'] ++ toHex salt.toList ++ ['$'] ++ toHex derived

/-- `find`: where the character comes next, from a position on. -/
def findFrom (text : Text) (ch : Char) (pos : Nat) : Option Nat :=
  ((text.drop pos).idxOf? ch).map (· + pos)

/-- The position after one that was found; `npos + 1` is 0. -/
def afterFound (pos : Option Nat) : Nat := (pos.map (· + 1)).getD 0

def verifyPassword (password storedHash : Text) : Bool :=
  let first := findFrom storedHash '$' 0
  let second := findFrom storedHash '$' (afterFound first)
  let third := findFrom storedHash '$' (afterFound second)
  match first, second, third with
  | some first, some second, some third =>
      if storedHash.take first ≠ "pbkdf2_sha256".toList then false
      else
        match stoi ((storedHash.drop (first + 1)).take (second - first - 1)) with
        | none => false
        | some iterations =>
            match fromHex ((storedHash.drop (second + 1)).take (third - second - 1)) with
            | none => false
            | some salt =>
                match fromHex (storedHash.drop (third + 1)) with
                | none => false
                | some expectedHash =>
                    let derived := pbkdf2Sha256 (bytesOf password) salt iterations expectedHash.length
                    constantTimeEquals (toHex derived) (storedHash.drop (third + 1))
  | _, _, _ => false

/-- The password functions of the server, whose salts are drawn by a random device. -/
def pbkdf2Hasher (randomSalt : Int → Vector UInt8 16) : PasswordHasher where
  hashPassword id password := hashPassword (randomSalt id) password kDefaultIterations
  verifyPassword := verifyPassword

end KungFuChess
