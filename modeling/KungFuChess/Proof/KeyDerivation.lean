import KungFuChess.Proof.Sha256

/-!
# Keys

HMAC and PBKDF2 over the hash function are those of their standards. The number of blocks is cast to `int`, so a
derived key is the standard's as long as that number fits; what would come after the last block stays zero.
-/

namespace KungFuChess

open Hashing

/-! ### Pieces of a message -/

/-- The context of a message that comes in pieces. -/
theorem absorbed_pieces (context : Sha256Context) (pieces : List (List UInt8)) :
    (pieces.foldl sha256Update (sha256Init context)).Absorbed pieces.flatten := by
  suffices hpieces : ∀ (pieces : List (List UInt8)) (context : Sha256Context) (message : List UInt8),
      context.Absorbed message → (pieces.foldl sha256Update context).Absorbed (message ++ pieces.flatten) by
    have h := hpieces pieces _ _ (absorbed_sha256Init context)
    rwa [List.nil_append] at h
  intro pieces
  induction pieces with
  | nil =>
      intro context message h
      rw [List.flatten_nil, List.append_nil]
      exact h
  | cons piece pieces ih =>
      intro context message h
      rw [List.flatten_cons, ← List.append_assoc]
      exact ih _ _ (h.update piece)

/-! ### HMAC -/

theorem copyTo_zeros {bytes : List UInt8} (count : Nat) :
    copyTo (List.replicate count 0) 0 bytes = bytes ++ List.replicate (count - bytes.length) 0 := by
  rw [copyTo, List.take_zero, List.nil_append, Nat.zero_add, List.drop_replicate]

theorem xorBytes_replicate (bytes : List UInt8) (pad : UInt8) :
    xorBytes bytes (List.replicate bytes.length pad) = bytes.map (· ^^^ pad) := by
  induction bytes with
  | nil => rfl
  | cons byte bytes ih =>
      rw [List.length_cons, List.replicate_succ, List.map_cons, ← ih]
      rfl

theorem length_blockKey (key : List UInt8) : (blockKey Sha256.hash 64 key).length = 64 := by
  unfold blockKey
  dsimp only
  rw [List.length_append, List.length_replicate]
  split
  · rw [Sha256.length_hash]
  · omega

theorem hmacSha256_eq (key data : List UInt8) : hmacSha256 key data = hmac Sha256.hash 64 key data := by
  have hpieces : ∀ first second : List UInt8,
      sha256Final (sha256Update (sha256Update (sha256Init {}) first) second) = Sha256.hash (first ++ second) := by
    intro first second
    have h := sha256Final_eq (absorbed_pieces {} [first, second])
    rwa [List.flatten_cons, List.flatten_singleton] at h
  have hkey : copyTo (List.replicate 64 0) 0 (if key.length > 64 then sha256 key else key) =
      blockKey Sha256.hash 64 key := by
    rw [copyTo_zeros, sha256_eq]
    rfl
  unfold hmacSha256 hmac
  dsimp only
  rw [hkey, hpieces, hpieces, ← xorBytes_replicate, ← xorBytes_replicate, length_blockKey]

/-! ### PBKDF2 -/

/-- The pseudorandom function of the standard. -/
def prf (password text : List UInt8) : List UInt8 := hmac Sha256.hash 64 password text

theorem blockIndex_eq (block : Nat) :
    ([UInt8.ofNat ((block >>> 24) &&& 0xff), UInt8.ofNat ((block >>> 16) &&& 0xff),
      UInt8.ofNat ((block >>> 8) &&& 0xff), UInt8.ofNat (block &&& 0xff)] : List UInt8) =
      bigEndian 4 (BitVec.ofNat 32 block) := by
  have hbyte : ∀ n ≤ 24, UInt8.ofNat ((block >>> n) &&& 0xff) = ⟨(BitVec.ofNat 32 block).extractLsb' n 8⟩ := by
    intro n hn
    apply UInt8.toNat_inj.mp
    change ((block >>> n) &&& 255) % 2 ^ 8 = ((BitVec.ofNat 32 block).extractLsb' n 8).toNat
    rw [BitVec.extractLsb'_toNat, BitVec.toNat_ofNat]
    apply Nat.eq_of_testBit_eq
    intro j
    have hmask : Nat.testBit 255 j = decide (j < 8) := Nat.testBit_two_pow_sub_one 8 j
    simp only [Nat.testBit_mod_two_pow, Nat.testBit_and, Nat.testBit_shiftRight, hmask]
    by_cases hj : j < 8
    · have hplace : n + j < 32 := by omega
      simp [hj, hplace]
    · simp [hj]
  have hlast : block &&& 0xff = (block >>> 0) &&& 0xff := by rw [Nat.shiftRight_zero]
  rw [hlast, hbyte 24 le_rfl, hbyte 16 (by decide), hbyte 8 (by decide), hbyte 0 (by decide)]
  rfl

section Blocks

variable (password salt : List UInt8) (iterations : Int)

theorem pbkdf2Rounds_eq (block rounds : Nat) :
    ∀ (j : Nat) (result : List UInt8),
      pbkdf2Rounds password rounds (iterated prf password salt block j) result =
        (List.range rounds).foldl (fun acc i => xorBytes acc (iterated prf password salt block (j + i + 1))) result := by
  induction rounds with
  | zero => exact fun _ _ => rfl
  | succ rounds ih =>
      intro j result
      have hnext : hmacSha256 password (iterated prf password salt block j) = iterated prf password salt block (j + 1) :=
        hmacSha256_eq _ _
      rw [pbkdf2Rounds, hnext, ih, List.range_succ_eq_map, List.foldl_cons, List.foldl_map, Nat.add_zero]
      simp only [Nat.succ_eq_add_one, Nat.add_assoc, Nat.add_comm 1]
      rfl

theorem pbkdf2Block_eq (block : Nat) :
    pbkdf2Block password salt iterations block =
      derivedBlock prf password salt (max iterations 1).toNat block := by
  unfold pbkdf2Block
  dsimp only
  have hfirst : hmacSha256 password (salt ++ bigEndian 4 (BitVec.ofNat 32 block)) = iterated prf password salt block 0 :=
    hmacSha256_eq _ _
  have hcount : (iterations - 1).toNat = (max iterations 1).toNat - 1 := by omega
  rw [blockIndex_eq, hfirst, pbkdf2Rounds_eq, hcount]
  simp only [Nat.zero_add]
  rfl

theorem length_derivedBlock (count block : Nat) : (derivedBlock prf password salt count block).length = 32 := by
  have hvalue : ∀ j, (iterated prf password salt block j).length = 32 := by
    intro j
    cases j with
    | zero => exact Sha256.length_hash _
    | succ j => exact Sha256.length_hash _
  unfold derivedBlock
  suffices hfold : ∀ (js : List Nat) (acc : List UInt8), acc.length = 32 →
      (js.foldl (fun acc j => xorBytes acc (iterated prf password salt block (j + 1))) acc).length = 32 from
    hfold _ _ (hvalue 0)
  intro js
  induction js with
  | nil => exact fun _ h => h
  | cons j js ih =>
      intro acc h
      rw [List.foldl_cons]
      apply ih
      rw [xorBytes, List.length_zipWith, h, hvalue]
      rfl

theorem length_derivedBlocks (count blocks : Nat) :
    ((List.range blocks).flatMap fun i => derivedBlock prf password salt count (i + 1)).length = 32 * blocks := by
  rw [List.length_flatMap]
  simp only [length_derivedBlock, List.map_const', List.length_range, List.sum_replicate_nat]
  exact Nat.mul_comm blocks 32

/-- The bytes written so far, and zeros after them. -/
theorem pbkdf2Blocks_eq (dkLen rounds : Nat) :
    ∀ (block : Nat) (written : List UInt8), written.length ≤ dkLen →
      pbkdf2Blocks password salt iterations dkLen rounds block written.length
          (written ++ List.replicate (dkLen - written.length) 0) =
        (written ++ (List.range rounds).flatMap fun i =>
          derivedBlock prf password salt (max iterations 1).toNat (block + i)).take dkLen ++
          List.replicate (dkLen - (written.length + 32 * rounds)) 0 := by
  induction rounds with
  | zero =>
      intro block written hle
      rw [pbkdf2Blocks, List.range_zero, List.flatMap_nil, List.append_nil, List.take_of_length_le hle, Nat.mul_zero,
        Nat.add_zero]
  | succ rounds ih =>
      intro block written hle
      have hblock := length_derivedBlock password salt (max iterations 1).toNat block
      have htake : (List.take (min 32 (dkLen - written.length))
          (derivedBlock prf password salt (max iterations 1).toNat block)).length = min 32 (dkLen - written.length) := by
        rw [List.length_take, hblock]
        omega
      have hcopy : ∀ bytes : List UInt8,
          copyTo (written ++ List.replicate (dkLen - written.length) 0) written.length bytes =
            (written ++ bytes) ++ List.replicate (dkLen - (written ++ bytes).length) 0 := by
        intro bytes
        rw [copyTo, List.take_left, List.drop_append, List.drop_eq_nil_of_le (Nat.le_add_right _ _), List.nil_append,
          Nat.add_sub_cancel_left, List.drop_replicate, List.length_append, Nat.sub_sub]
      have hwritten : (written ++ List.take (min 32 (dkLen - written.length))
          (derivedBlock prf password salt (max iterations 1).toNat block)).length =
          written.length + min 32 (dkLen - written.length) := by
        rw [List.length_append, htake]
      have hshift : ∀ i, block + 1 + i = block + (i + 1) := fun i => by omega
      rw [pbkdf2Blocks, pbkdf2Block_eq, hcopy, ← hwritten, ih _ _ (by omega), hwritten, List.range_succ_eq_map,
        List.flatMap_cons, List.flatMap_map]
      simp only [hshift, Nat.succ_eq_add_one, Nat.add_zero]
      generalize (List.range rounds).flatMap _ = rest
      congr 1
      · by_cases hfull : 32 ≤ dkLen - written.length
        · rw [min_eq_left hfull, List.take_of_length_le hblock.le, List.append_assoc]
        · have hall : (written ++ List.take (dkLen - written.length)
              (derivedBlock prf password salt (max iterations 1).toNat block)).length = dkLen := by
            rw [List.length_append, List.length_take, hblock]
            omega
          rw [min_eq_right (by omega), List.take_append_of_le_length hall.ge, List.take_of_length_le hall.le,
            List.take_append, List.take_of_length_le hle, List.take_append_of_le_length (by omega)]
      · congr 1
        omega

theorem blockCount_of_lt {dkLen : Nat} (h : dkLen < 2 ^ 31) : (blockCount dkLen).toNat = (dkLen + 32 - 1) / 32 := by
  have hsum : (dkLen + 31) % 2 ^ 64 = dkLen + 31 := Nat.mod_eq_of_lt (by omega)
  have hblocks : (((dkLen + 31) / 32 : Nat) : Int) * 2 < (2 ^ 32 : Nat) := by omega
  unfold blockCount
  rw [hsum, Int.bmod_eq_of_le_mul_two (by omega) hblocks, Int.toNat_natCast, Nat.add_sub_assoc (by decide)]

theorem pbkdf2Blocks_all (dkLen blocks : Nat) :
    pbkdf2Blocks password salt iterations dkLen blocks 1 0 (List.replicate dkLen 0) =
      ((List.range blocks).flatMap fun i =>
        derivedBlock prf password salt (max iterations 1).toNat (i + 1)).take dkLen ++
        List.replicate (dkLen - 32 * blocks) 0 := by
  have h := pbkdf2Blocks_eq password salt iterations dkLen blocks 1 [] (Nat.zero_le _)
  simp only [List.nil_append, List.length_nil, Nat.sub_zero, Nat.zero_add, Nat.add_comm 1] at h
  exact h

/-- The derived key of any length. -/
theorem pbkdf2Sha256_eq_append (dkLen : Nat) :
    pbkdf2Sha256 password salt iterations dkLen =
      ((List.range (blockCount dkLen).toNat).flatMap fun i =>
        derivedBlock prf password salt (max iterations 1).toNat (i + 1)).take dkLen ++
        List.replicate (dkLen - 32 * (blockCount dkLen).toNat) 0 :=
  pbkdf2Blocks_all password salt iterations dkLen _

theorem pbkdf2Sha256_eq {dkLen : Nat} (h : dkLen < 2 ^ 31) :
    pbkdf2Sha256 password salt iterations dkLen = pbkdf2 prf 32 password salt (max iterations 1).toNat dkLen := by
  have hcovered : dkLen - 32 * (blockCount dkLen).toNat = 0 := by
    rw [blockCount_of_lt h]
    omega
  rw [pbkdf2Sha256_eq_append, hcovered, List.replicate_zero, List.append_nil, blockCount_of_lt h]
  rfl

/-- A key of any length as it is derived: the number of blocks is what `int` makes of it, and zeros follow them. -/
def keyOfLength (count length : Nat) : List UInt8 :=
  let derived := 32 * (blockCount length).toNat
  (pbkdf2 prf 32 password salt count derived).take length ++ List.replicate (length - derived) 0

theorem pbkdf2Sha256_eq_keyOfLength (dkLen : Nat) :
    pbkdf2Sha256 password salt iterations dkLen = keyOfLength password salt (max iterations 1).toNat dkLen := by
  have hblocks : ∀ n : Nat, (32 * n + 32 - 1) / 32 = n := fun n => by omega
  unfold keyOfLength pbkdf2
  dsimp only
  rw [pbkdf2Sha256_eq_append, hblocks, List.take_of_length_le (length_derivedBlocks password salt _ _).le]

theorem length_pbkdf2Sha256 (dkLen : Nat) : (pbkdf2Sha256 password salt iterations dkLen).length = dkLen := by
  rw [pbkdf2Sha256_eq_append, List.length_append, List.length_take, List.length_replicate, length_derivedBlocks]
  omega

end Blocks

/-! ### The standards -/

theorem hashing_follows_the_standards :
    (∀ message, sha256 message = Sha256.hash message) ∧
    (∀ context (pieces : List (List UInt8)),
      sha256Final (pieces.foldl sha256Update (sha256Init context)) = sha256 pieces.flatten) ∧
    (∀ key data, hmacSha256 key data = hmac Sha256.hash 64 key data) ∧
    ∀ password salt iterations dkLen, 1 ≤ iterations → dkLen < 2 ^ 31 →
      pbkdf2Sha256 password salt iterations dkLen =
        pbkdf2 (hmac Sha256.hash 64) 32 password salt iterations.toNat dkLen := by
  refine ⟨sha256_eq, ?_, hmacSha256_eq, ?_⟩
  · intro context pieces
    rw [sha256Final_eq (absorbed_pieces context pieces), sha256_eq]
  · intro password salt iterations dkLen hiterations hlength
    rw [pbkdf2Sha256_eq password salt iterations hlength, max_eq_left hiterations]
    rfl

/-- Two blocks, the second of them cut. -/
theorem hashing_follows_the_standards_two_blocks :
    pbkdf2Sha256 [112, 119] [115] 3 40 = pbkdf2 (hmac Sha256.hash 64) 32 [112, 119] [115] 3 40 :=
  hashing_follows_the_standards.2.2.2 [112, 119] [115] 3 40 (by decide) (by decide)

end KungFuChess
