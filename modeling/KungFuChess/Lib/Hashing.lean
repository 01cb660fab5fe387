import Mathlib.Data.List.Induction
import Mathlib.Tactic.Ring

/-!
# Hashing by blocks

A hash function of the usual kind folds a compression function over the blocks of a padded message. `push` takes
the message element by element instead and keeps what is short of a block. Over any hash function, `hmac` is the
keyed hash of RFC 2104, and over any pseudorandom function `pbkdf2` is the key derivation of RFC 8018.
-/

namespace Hashing

section Blocks

variable {α σ : Type*} (size : Nat) (compress : σ → List α → σ)

/-- The state after the first `count` blocks of a text. -/
def foldBlocks : Nat → σ → List α → σ
  | 0, s, _ => s
  | count + 1, s, text => foldBlocks count (compress s (text.take size)) (text.drop size)

/-- A state together with the elements short of a block, after one element more. -/
def push (s : σ × List α) (x : α) : σ × List α :=
  if s.2.length + 1 = size then (compress s.1 (s.2 ++ [x]), []) else (s.1, s.2 ++ [x])

variable {size compress} {s : σ} {text more rest : List α} {count : Nat}

theorem foldBlocks_append (h : count * size ≤ text.length) :
    foldBlocks size compress count s (text ++ more) = foldBlocks size compress count s text := by
  induction count generalizing s text with
  | zero => rfl
  | succ count ih =>
      rw [Nat.succ_mul] at h
      rw [foldBlocks, foldBlocks, List.take_append_of_le_length (by omega), List.drop_append_of_le_length (by omega), ih]
      rw [List.length_drop]
      omega

theorem foldBlocks_succ :
    foldBlocks size compress (count + 1) s text =
      compress (foldBlocks size compress count s text) ((text.drop (count * size)).take size) := by
  induction count generalizing s text with
  | zero => simp [foldBlocks]
  | succ count ih =>
      rw [foldBlocks, ih, foldBlocks, List.drop_drop, Nat.succ_mul, Nat.add_comm size]

/-- What is short of a block is kept. -/
theorem foldl_push_short (h : rest.length + more.length < size) :
    more.foldl (push size compress) (s, rest) = (s, rest ++ more) := by
  induction more generalizing rest with
  | nil => rw [List.foldl_nil, List.append_nil]
  | cons x more ih =>
      rw [List.length_cons] at h
      have hshort : (rest ++ [x]).length + more.length < size := by
        rw [List.length_append, List.length_singleton]
        omega
      rw [List.foldl_cons, push, if_neg (show ¬rest.length + 1 = size by omega), ih hshort, List.append_assoc,
        List.singleton_append]

/-- A block that is completed is compressed. -/
theorem foldl_push_block (h : rest.length + more.length = size) (hmore : more ≠ []) :
    more.foldl (push size compress) (s, rest) = (compress s (rest ++ more), []) := by
  obtain ⟨first, x, rfl⟩ : ∃ first x, more = first ++ [x] := 
    ⟨_, _, (List.dropLast_concat_getLast hmore).symm⟩
  rw [List.length_append, List.length_singleton] at h
  have hfull : (rest ++ first).length + 1 = size := by
    rw [List.length_append]
    omega
  have hshort : rest.length + first.length < size := by omega
  rw [List.foldl_append, foldl_push_short hshort, List.foldl_cons, List.foldl_nil, push, if_pos hfull,
    List.append_assoc]

/-- Element by element or block by block. -/
theorem foldl_push (hsize : 0 < size) (text : List α) :
    text.foldl (push size compress) (s, []) =
      (foldBlocks size compress (text.length / size) s text, text.drop (text.length / size * size)) := by
  induction text using List.reverseRecOn with
  | nil => simp [foldBlocks]
  | append_singleton text x ih =>
      have hdivision := Nat.div_add_mod' text.length size
      have hmod := Nat.mod_lt text.length hsize
      have hrest : (text.drop (text.length / size * size)).length = text.length % size := by
        rw [List.length_drop]
        omega
      have hle : text.length / size * size ≤ text.length := Nat.div_mul_le_self _ _
      rw [List.foldl_append, ih, List.foldl_cons, List.foldl_nil, push]
      dsimp only
      rw [hrest, List.length_append, List.length_singleton]
      by_cases hfull : text.length % size + 1 = size
      · have hnext : (text.length + 1) / size = text.length / size + 1 := by
          rw [show text.length + 1 = size * (text.length / size + 1) by rw [Nat.mul_succ, Nat.mul_comm size]; omega,
            Nat.mul_div_cancel_left _ hsize]
        have hblock : (text.drop (text.length / size * size) ++ [x]).length ≤ size := by
          rw [List.length_append, hrest, List.length_singleton, hfull]
        have hnone : (text ++ [x]).drop ((text.length / size + 1) * size) = [] := by
          rw [List.drop_eq_nil_iff, List.length_append, List.length_singleton, Nat.succ_mul]
          omega
        rw [if_pos hfull, hnext, foldBlocks_succ, foldBlocks_append hle, List.drop_append_of_le_length hle,
          List.take_of_length_le hblock, hnone]
      · have hsame : (text.length + 1) / size = text.length / size := by
          rw [Nat.div_eq_iff hsize]
          omega
        rw [if_neg hfull, hsame, foldBlocks_append hle, List.drop_append_of_le_length hle]

end Blocks

/-! ### Bytes -/

/-- The low bytes of a bit vector, the highest of them first. -/
def bigEndian {width : Nat} (count : Nat) (bits : BitVec width) : List UInt8 :=
  (List.range count).reverse.map fun i => ⟨bits.extractLsb' (8 * i) 8⟩

theorem length_bigEndian {width : Nat} (count : Nat) (bits : BitVec width) : (bigEndian count bits).length = count := by
  simp [bigEndian]

def xorBytes (left right : List UInt8) : List UInt8 := List.zipWith (· ^^^ ·) left right

/-! ### Keyed hashing -/

section Keyed

variable (hash : List UInt8 → List UInt8) (blockSize : Nat)

/-- The key as a block: hashed if it is too long, and filled up with zeros. -/
def blockKey (key : List UInt8) : List UInt8 :=
  let short := if key.length > blockSize then hash key else key
  short ++ List.replicate (blockSize - short.length) 0

/-- RFC 2104. -/
def hmac (key text : List UInt8) : List UInt8 :=
  let ipad := List.replicate blockSize 0x36
  let opad := List.replicate blockSize 0x5c
  let key := blockKey hash blockSize key
  hash (xorBytes key opad ++ hash (xorBytes key ipad ++ text))

variable (prf : List UInt8 → List UInt8 → List UInt8) (hashLength : Nat) (password salt : List UInt8)

/-- The values that RFC 8018 numbers from 1: the function is applied to the salt and the number of the block, and
then to its own value. -/
def iterated (index : Nat) : Nat → List UInt8
  | 0 => prf password (salt ++ bigEndian 4 (BitVec.ofNat 32 index))
  | j + 1 => prf password (iterated index j)

/-- The exclusive or of the first `count` values. -/
def derivedBlock (count index : Nat) : List UInt8 :=
  (List.range (count - 1)).foldl (fun acc j => xorBytes acc (iterated prf password salt index (j + 1)))
    (iterated prf password salt index 0)

/-- RFC 8018. -/
def pbkdf2 (count length : Nat) : List UInt8 :=
  ((List.range ((length + hashLength - 1) / hashLength)).flatMap fun i =>
    derivedBlock prf password salt count (i + 1)).take length

end Keyed

end Hashing
