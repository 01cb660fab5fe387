import Mathlib.Data.Nat.NthRoot.Defs
import KungFuChess.Lib.Hashing

/-!
# SHA-256

The hash function of FIPS 180-4, for messages that are bytes. The standard numbers bits and words from the left;
a block is sixteen words, each of four bytes.
-/

namespace Sha256

open Hashing

abbrev Word := BitVec 32

/-! ### Constants -/

/-- The first sixty-four prime numbers. -/
def primes : List Nat := (List.range 312).filter fun p => 2 ≤ p && (List.range p).all fun d => d < 2 || p % d != 0

example : primes.length = 64 := by decide +kernel

/-- The first thirty-two bits of the fractional part of a root. -/
def rootBits (k n : Nat) : Word := BitVec.ofNat 32 (Nat.nthRoot k (n * 2 ^ (32 * k)))

/-- The constant of a round, from a cube root. -/
def roundConstant (t : Nat) : Word := rootBits 3 (primes.getD t 0)

@[ext]
structure Vars where
  a : Word
  b : Word
  c : Word
  d : Word
  e : Word
  f : Word
  g : Word
  h : Word
deriving DecidableEq

def ofWords (word : Nat → Word) : Vars := ⟨word 0, word 1, word 2, word 3, word 4, word 5, word 6, word 7⟩

def Vars.words (v : Vars) : List Word := [v.a, v.b, v.c, v.d, v.e, v.f, v.g, v.h]

/-- The initial hash value, from the square roots. -/
def initial : Vars := ofWords fun i => rootBits 2 (primes.getD i 0)

/-! ### Functions -/

def ch (x y z : Word) : Word := (x &&& y) ^^^ (~~~x &&& z)

def maj (x y z : Word) : Word := (x &&& y) ^^^ (x &&& z) ^^^ (y &&& z)

def bigSigma0 (x : Word) : Word := x.rotateRight 2 ^^^ x.rotateRight 13 ^^^ x.rotateRight 22

def bigSigma1 (x : Word) : Word := x.rotateRight 6 ^^^ x.rotateRight 11 ^^^ x.rotateRight 25

def smallSigma0 (x : Word) : Word := x.rotateRight 7 ^^^ x.rotateRight 18 ^^^ x >>> 3

def smallSigma1 (x : Word) : Word := x.rotateRight 17 ^^^ x.rotateRight 19 ^^^ x >>> 10

/-! ### Compression -/

/-- Four bytes, side by side. -/
def wordAt (block : List UInt8) (t : Nat) : Word :=
  (block.getD (4 * t) 0).toBitVec ++ (block.getD (4 * t + 1) 0).toBitVec ++ (block.getD (4 * t + 2) 0).toBitVec ++
    (block.getD (4 * t + 3) 0).toBitVec

def schedule (block : List UInt8) (t : Nat) : Word :=
  if t < 16 then wordAt block t
  else smallSigma1 (schedule block (t - 2)) + schedule block (t - 7) + smallSigma0 (schedule block (t - 15)) +
    schedule block (t - 16)

def round (block : List UInt8) (v : Vars) (t : Nat) : Vars :=
  let t1 := v.h + bigSigma1 v.e + ch v.e v.f v.g + roundConstant t + schedule block t
  let t2 := bigSigma0 v.a + maj v.a v.b v.c
  ⟨t1 + t2, v.a, v.b, v.c, v.d + t1, v.e, v.f, v.g⟩

def compress (hash : Vars) (block : List UInt8) : Vars :=
  let v := (List.range 64).foldl (round block) hash
  ⟨v.a + hash.a, v.b + hash.b, v.c + hash.c, v.d + hash.d, v.e + hash.e, v.f + hash.f, v.g + hash.g, v.h + hash.h⟩

/-! ### The digest -/

/-- A one bit, the fewest zero bits, and the length in bits as a word of 64 bits, so that whole blocks result. -/
def padding (length : Nat) : List UInt8 :=
  0x80 :: (List.replicate ((119 - length % 64) % 64) 0 ++ bigEndian 8 (BitVec.ofNat 64 (8 * length)))

/-- For a message of fewer than `2 ^ 64` bits. -/
def hash (message : List UInt8) : List UInt8 :=
  let padded := message ++ padding message.length
  (foldBlocks 64 compress (padded.length / 64) initial padded).words.flatMap (bigEndian 4)

@[simp] theorem length_hash (message : List UInt8) : (hash message).length = 32 := by
  simp [hash, Vars.words, length_bigEndian]

end Sha256
