import Mathlib.Tactic.IntervalCases
import KungFuChess.Lib.Sha256
import KungFuChess.Model.PasswordHasher

/-!
# The hash function and its standard

The context is an eight-word state and the bytes short of a block. Every byte it takes is pushed onto them, those of
the padding too, so the digest is that of the standard, however the message was divided.
-/

namespace KungFuChess

open Hashing

/-! ### Words -/

/-- A distance to shift by, which the processor takes modulo the width. -/
theorem shift_mod {bits : UInt32} {n : Nat} (hbits : bits.toNat = n) (hlt : n < 32) :
    (bits.toBitVec % 32).toNat = n := by
  rw [BitVec.toNat_umod, UInt32.toNat_toBitVec, hbits]
  exact Nat.mod_eq_of_lt hlt

theorem shr_toBitVec (value : UInt32) {bits : UInt32} {n : Nat} (hbits : bits.toNat = n) (hlt : n < 32) :
    (value >>> bits).toBitVec = value.toBitVec >>> n := by
  rw [UInt32.toBitVec_shiftRight, BitVec.ushiftRight_eq', shift_mod hbits hlt]

/-- The right rotation, in a shift to either side. -/
theorem rotr_toBitVec (value : UInt32) {bits : UInt32} {n : Nat} (hbits : bits.toNat = n) (hpos : 0 < n) (hlt : n < 32) :
    (rotr value bits).toBitVec = value.toBitVec.rotateRight n := by
  have hother : (32 - bits).toNat = 32 - n := by
    rw [UInt32.toNat_sub_of_le _ _ (UInt32.le_iff_toNat_le.mpr (by rw [hbits]; exact hlt.le)), hbits]
    rfl
  rw [rotr, UInt32.toBitVec_or, shr_toBitVec value hbits hlt, UInt32.toBitVec_shiftLeft, BitVec.shiftLeft_eq',
    shift_mod hother (Nat.sub_lt (by decide) hpos), BitVec.rotateRight_def, Nat.mod_eq_of_lt hlt]

theorem roundConstant_eq : ∀ t < 64, kSha256Constants[t]!.toBitVec = Sha256.roundConstant t := by decide +kernel

/-- Four bytes, shifted to their places. -/
theorem word_toBitVec (b0 b1 b2 b3 : UInt8) :
    ((b0.toUInt32 <<< 24) ||| (b1.toUInt32 <<< 16) ||| (b2.toUInt32 <<< 8) ||| b3.toUInt32).toBitVec =
      b0.toBitVec ++ b1.toBitVec ++ b2.toBitVec ++ b3.toBitVec := by
  have hfit : ∀ (b : UInt8) (n : Nat), n ≤ 24 → b.toNat <<< n % 2 ^ 32 = b.toNat <<< n := by
    intro b n hn
    apply Nat.mod_eq_of_lt
    rw [Nat.shiftLeft_eq]
    calc b.toNat * 2 ^ n < 2 ^ 8 * 2 ^ 24 :=
          Nat.mul_lt_mul_of_lt_of_le b.toNat_lt (Nat.pow_le_pow_right (by decide) hn) (Nat.two_pow_pos _)
      _ = 2 ^ 32 := by decide
  have h0 := hfit b0 24 (by omega)
  have h1 := hfit b1 16 (by omega)
  have h2 := hfit b2 8 (by omega)
  apply BitVec.eq_of_toNat_eq
  simp only [BitVec.toNat_append, UInt32.toBitVec_or, UInt32.toBitVec_shiftLeft, BitVec.toNat_or]
  simp only [Nat.reducePow] at h0 h1 h2
  simp [h0, h1, h2, Nat.shiftLeft_or_distrib, ← Nat.shiftLeft_add]

/-! ### The schedule -/

section Schedule

/-- A store into an array, seen at any index. -/
theorem getElem!_set! {words : Array UInt32} {i : Nat} (hi : i < words.size) (value : UInt32) (t : Nat) :
    (words.set! i value)[t]! = if t = i then value else words[t]! := by
  by_cases h : t = i
  · subst h
    rw [if_pos rfl, Array.getElem!_set!_self _ _ _ hi]
  · rw [if_neg h, Array.getElem!_set!_ne _ _ _ _ (Ne.symm h)]

theorem loadWords_spec (block : Vector UInt8 64) (words : Array UInt32) (hsize : words.size = 64) :
    (loadWords block words).size = 64 ∧
      ∀ t < 16, (loadWords block words)[t]!.toBitVec = Sha256.schedule block.toList t := by
  unfold loadWords
  suffices hloop : ∀ n ≤ 16, ∀ f : Nat → UInt32,
      ((List.range n).foldl (fun words i => words.set! i (f i)) words).size = 64 ∧
        ∀ t < n, ((List.range n).foldl (fun words i => words.set! i (f i)) words)[t]! = f t by
    obtain ⟨hsize, hwords⟩ := hloop 16 le_rfl _
    refine ⟨hsize, fun t ht => ?_⟩
    have hbyte : ∀ i, block[i]! = block.toList.getD i 0 := by
      intro i
      by_cases hi : i < 64
      · have hlength : i < block.toList.length := by rwa [Vector.length_toList]
        rw [getElem!_pos block i hi, ← List.getElem_eq_getD (h := hlength), Vector.getElem_toList]
      · rw [getElem!_neg block i hi, List.getD_eq_getElem?_getD, List.getElem?_eq_none (by simpa using hi)]
        rfl
    rw [hwords t ht, Sha256.schedule, if_pos ht, Sha256.wordAt, ← word_toBitVec, hbyte, hbyte, hbyte, hbyte,
      Nat.mul_comm t 4]
  intro n hn f
  induction n with
  | zero => exact ⟨hsize, fun t ht => absurd ht (Nat.not_lt_zero t)⟩
  | succ n ih =>
      obtain ⟨ihsize, ihwords⟩ := ih (by omega)
      rw [List.range_succ, List.foldl_append, List.foldl_cons, List.foldl_nil]
      refine ⟨by rw [Array.size_set!, ihsize], fun t ht => ?_⟩
      rw [getElem!_set! (by omega)]
      split
      · rename_i heq
        rw [heq]
      · exact ihwords t (by omega)

theorem extendWords_spec (block : List UInt8) (words : Array UInt32) (hsize : words.size = 64)
    (hwords : ∀ t < 16, words[t]!.toBitVec = Sha256.schedule block t) :
    ∀ t < 64, (extendWords words)[t]!.toBitVec = Sha256.schedule block t := by
  unfold extendWords
  suffices hloop : ∀ n ≤ 48, ((List.range' 16 n).foldl extendWord words).size = 64 ∧
      ∀ t < 16 + n, ((List.range' 16 n).foldl extendWord words)[t]!.toBitVec = Sha256.schedule block t from
    (hloop 48 le_rfl).2
  intro n hn
  induction n with
  | zero => exact ⟨hsize, hwords⟩
  | succ n ih =>
      obtain ⟨ihsize, ihwords⟩ := ih (by omega)
      rw [List.range'_concat, List.foldl_append, List.foldl_cons, List.foldl_nil, Nat.one_mul, extendWord]
      refine ⟨by rw [Array.size_set!, ihsize], fun t ht => ?_⟩
      rw [getElem!_set! (by omega)]
      split
      · rename_i heq
        subst heq
        rw [Sha256.schedule, if_neg (by omega), ← ihwords _ (by omega), ← ihwords _ (by omega), ← ihwords _ (by omega),
          ← ihwords _ (by omega), Sha256.smallSigma0, Sha256.smallSigma1]
        simp only [UInt32.toBitVec_add, UInt32.toBitVec_xor]
        rw [rotr_toBitVec _ (n := 7) rfl (by decide) (by decide), rotr_toBitVec _ (n := 18) rfl (by decide) (by decide),
          shr_toBitVec _ (n := 3) rfl (by decide), rotr_toBitVec _ (n := 17) rfl (by decide) (by decide),
          rotr_toBitVec _ (n := 19) rfl (by decide) (by decide), shr_toBitVec _ (n := 10) rfl (by decide)]
        ac_rfl
      · exact ihwords t (by omega)

end Schedule

/-! ### The compression function -/

/-- The words of the code as bit vectors. -/
def Sha256Variables.bits (v : Sha256Variables) : Sha256.Vars :=
  ⟨v.a.toBitVec, v.b.toBitVec, v.c.toBitVec, v.d.toBitVec, v.e.toBitVec, v.f.toBitVec, v.g.toBitVec, v.h.toBitVec⟩

theorem bits_sha256Round {block : List UInt8} {words : Array UInt32} {t : Nat} (ht : t < 64)
    (hword : words[t]!.toBitVec = Sha256.schedule block t) (v : Sha256Variables) :
    (sha256Round words v t).bits = Sha256.round block v.bits t := by
  have hsigma0 : ∀ x : UInt32, (rotr x 2 ^^^ rotr x 13 ^^^ rotr x 22).toBitVec = Sha256.bigSigma0 x.toBitVec := by
    intro x
    rw [UInt32.toBitVec_xor, UInt32.toBitVec_xor, rotr_toBitVec x (n := 2) rfl (by decide) (by decide),
      rotr_toBitVec x (n := 13) rfl (by decide) (by decide), rotr_toBitVec x (n := 22) rfl (by decide) (by decide)]
    rfl
  have hsigma1 : ∀ x : UInt32, (rotr x 6 ^^^ rotr x 11 ^^^ rotr x 25).toBitVec = Sha256.bigSigma1 x.toBitVec := by
    intro x
    rw [UInt32.toBitVec_xor, UInt32.toBitVec_xor, rotr_toBitVec x (n := 6) rfl (by decide) (by decide),
      rotr_toBitVec x (n := 11) rfl (by decide) (by decide), rotr_toBitVec x (n := 25) rfl (by decide) (by decide)]
    rfl
  simp only [sha256Round, Sha256.round, Sha256Variables.bits, UInt32.toBitVec_add, hsigma0, hsigma1, hword,
    roundConstant_eq t ht]
  rfl

/-- The eight words of the state. -/
def stateBits (state : Vector UInt32 8) : Sha256.Vars := Sha256.ofWords fun i => state[i]!.toBitVec

theorem bits_sha256Rounds {block : List UInt8} {words : Array UInt32}
    (hwords : ∀ t < 64, words[t]!.toBitVec = Sha256.schedule block t) (state : Vector UInt32 8) :
    (sha256Rounds words state).bits = (List.range 64).foldl (Sha256.round block) (stateBits state) := by
  suffices hrounds : ∀ (rounds : List Nat) (v : Sha256Variables), (∀ t ∈ rounds, t < 64) →
      (rounds.foldl (sha256Round words) v).bits = rounds.foldl (Sha256.round block) v.bits from
    hrounds (List.range 64) _ fun t ht => List.mem_range.mp ht
  intro rounds
  induction rounds with
  | nil => exact fun v _ => rfl
  | cons t rounds ih =>
      intro v hrounds
      have ht := hrounds t List.mem_cons_self
      rw [List.foldl_cons, List.foldl_cons, ih _ fun t ht => hrounds t (List.mem_cons_of_mem _ ht),
        bits_sha256Round ht (hwords t ht)]

theorem stateBits_sha256Transform (context : Sha256Context) (block : Vector UInt8 64) :
    stateBits (sha256Transform context block).state = Sha256.compress (stateBits context.state) block.toList := by
  have hword : ∀ x y : UInt32, (x + y).toBitVec = y.toBitVec + x.toBitVec := fun x y => BitVec.add_comm _ _
  obtain ⟨hsize, hloaded⟩ := loadWords_spec block (Array.replicate 64 0) Array.size_replicate
  have hlast := bits_sha256Rounds (extendWords_spec block.toList _ hsize hloaded) context.state
  unfold Sha256.compress
  rw [← hlast]
  apply Sha256.Vars.ext
  · exact hword _ _
  · exact hword _ _
  · exact hword _ _
  · exact hword _ _
  · exact hword _ _
  · exact hword _ _
  · exact hword _ _
  · exact hword _ _

/-! ### The buffer -/

/-- The bytes that have been put into the buffer. -/
structure Sha256Context.Holds (context : Sha256Context) (rest : List UInt8) : Prop where
  size : context.bufferSize = rest.length
  bytes : context.buffer.toList.take rest.length = rest

section Buffer

variable {context : Sha256Context} {rest message : List UInt8}

theorem Sha256Context.Holds.put (h : context.Holds rest) (hroom : rest.length < 64) (byte : UInt8) :
    (context.put byte).Holds (rest ++ [byte]) where
  size := by
    rw [List.length_append, ← h.size]
    rfl
  bytes := by
    have hsize := h.size
    have hlength : context.buffer.toList.length = 64 := Vector.length_toList
    have hset : (context.put byte).buffer.toList = context.buffer.toList.set rest.length byte := by
      rw [← hsize]
      exact Vector.toList_setIfInBounds
    have hput : rest.length < (context.buffer.toList.set rest.length byte).length := by
      rw [List.length_set, hlength]
      exact hroom
    rw [hset, List.length_append, List.length_singleton, List.take_succ_eq_append_getElem hput, List.getElem_set_self,
      List.take_set_of_le le_rfl, h.bytes]

/-- Several bytes, one after the other; nothing else of the context changes. -/
theorem Sha256Context.Holds.foldl_put (h : context.Holds rest) (bytes : List UInt8)
    (hroom : rest.length + bytes.length ≤ 64) :
    (bytes.foldl Sha256Context.put context).Holds (rest ++ bytes) ∧
      (bytes.foldl Sha256Context.put context).state = context.state ∧
      (bytes.foldl Sha256Context.put context).bitCount = context.bitCount := by
  induction bytes generalizing context rest with
  | nil =>
      rw [List.append_nil]
      exact ⟨h, rfl, rfl⟩
  | cons byte bytes ih =>
      rw [List.length_cons] at hroom
      have hnext : (rest ++ [byte]).length + bytes.length ≤ 64 := by
        rw [List.length_append, List.length_singleton]
        omega
      obtain ⟨hholds, hstate, hbits⟩ := ih (h.put (by omega) byte) hnext
      rw [List.append_assoc, List.singleton_append] at hholds
      exact ⟨hholds, hstate, hbits⟩

/-- A full buffer is a block. -/
theorem Sha256Context.Holds.toList_buffer (h : context.Holds rest) (hfull : rest.length = 64) :
    context.buffer.toList = rest := by
  have hbytes := h.bytes
  rwa [hfull, List.take_of_length_le (Vector.length_toList.le)] at hbytes

theorem Sha256Context.holds_nil (hsize : context.bufferSize = 0) : context.Holds [] := ⟨hsize, rfl⟩

end Buffer

/-! ### The context -/

/-- What is known of a message after its bytes have been pushed. -/
def pushed (message : List UInt8) : Sha256.Vars × List UInt8 :=
  message.foldl (push 64 Sha256.compress) (Sha256.initial, [])

/-- The context has taken a message. -/
structure Sha256Context.Absorbed (context : Sha256Context) (message : List UInt8) : Prop where
  state : stateBits context.state = (pushed message).1
  holds : context.Holds (pushed message).2
  room : (pushed message).2.length < 64
  bits : context.bitCount + UInt64.ofNat (context.bufferSize * 8) = UInt64.ofNat (8 * message.length)

section Context

variable {context : Sha256Context} {message : List UInt8}

theorem absorbed_sha256Init (context : Sha256Context) : (sha256Init context).Absorbed [] where
  state := by
    have hinitial : stateBits #v[0x6a09e667, 0xbb67ae85, 0x3c6ef372, 0xa54ff53a, 0x510e527f, 0x9b05688c, 0x1f83d9ab,
      0x5be0cd19] = Sha256.initial := by decide +kernel
    exact hinitial
  holds := Sha256Context.holds_nil rfl
  room := by decide
  bits := rfl

/-- One byte of `sha256_update`. -/
theorem Sha256Context.Absorbed.push (h : context.Absorbed message) (byte : UInt8) :
    (sha256Update context [byte]).Absorbed (message ++ [byte]) := by
  obtain ⟨hstate, hholds, hroom, hbits⟩ := h
  have hpushed : pushed (message ++ [byte]) = Hashing.push 64 Sha256.compress (pushed message) byte := by
    simp [pushed]
  have hput := hholds.put hroom byte
  have hlength : UInt64.ofNat (8 * (message ++ [byte]).length) = UInt64.ofNat (8 * message.length) + 8 := by
    rw [List.length_append, List.length_singleton, Nat.mul_add, UInt64.ofNat_add]
    rfl
  rw [sha256Update, List.foldl_cons, List.foldl_nil]
  dsimp only
  have hsize : (context.put byte).bufferSize = (pushed message).2.length + 1 := by
    rw [hput.size, List.length_append, List.length_singleton]
  by_cases hfull : (pushed message).2.length + 1 = 64
  · rw [if_pos (hsize.trans hfull)]
    rw [Hashing.push, if_pos hfull] at hpushed
    have hblock := hput.toList_buffer (by rw [List.length_append, List.length_singleton, hfull])
    refine ⟨?_, ?_, ?_, ?_⟩
    · rw [hpushed, stateBits_sha256Transform, hblock, ← hstate]
      rfl
    · rw [hpushed]
      exact Sha256Context.holds_nil rfl
    · rw [hpushed]
      exact Nat.zero_lt_succ 63
    · have hcount : context.bitCount + 512 = context.bitCount + UInt64.ofNat (context.bufferSize * 8) + 8 := by
        rw [hholds.size, show (pushed message).2.length = 63 by omega, UInt64.add_assoc]
        rfl
      rw [hlength, ← hbits, ← hcount]
      exact UInt64.add_zero _
  · rw [if_neg (hsize.trans_ne hfull)]
    rw [Hashing.push, if_neg hfull] at hpushed
    refine ⟨?_, ?_, ?_, ?_⟩
    · rw [hpushed, ← hstate]
      rfl
    · rw [hpushed]
      exact hput
    · rw [hpushed, List.length_append, List.length_singleton]
      omega
    · rw [hlength, ← hbits, hsize, hholds.size, Nat.succ_mul, UInt64.ofNat_add, ← UInt64.add_assoc]
      rfl

/-- The bytes of a call are taken one by one. -/
theorem sha256Update_append (context : Sha256Context) (data more : List UInt8) :
    sha256Update context (data ++ more) = sha256Update (sha256Update context data) more := List.foldl_append

theorem Sha256Context.Absorbed.update (h : context.Absorbed message) (data : List UInt8) :
    (sha256Update context data).Absorbed (message ++ data) := by
  induction data generalizing context message with
  | nil =>
      rw [List.append_nil]
      exact h
  | cons byte data ih =>
      rw [← List.singleton_append, sha256Update_append, ← List.append_assoc]
      exact ih (h.push byte)

/-! ### The digest -/

theorem Sha256Context.Holds.fillTo {rest : List UInt8} (h : context.Holds rest) {size : Nat} (hle : rest.length ≤ size)
    (hsize : size ≤ 64) :
    (context.fillTo size).Holds (rest ++ List.replicate (size - rest.length) 0) ∧
      (context.fillTo size).state = context.state ∧ (context.fillTo size).bitCount = context.bitCount := by
  unfold Sha256Context.fillTo
  rw [h.size]
  apply h.foldl_put
  rw [List.length_replicate]
  omega

/-- The mask `0xff` keeps a byte as it is. -/
theorem mask_getLsbD {j : Nat} (hj : j < 8) : (255#8).getLsbD j = true := by
  rw [show 255#8 = BitVec.allOnes 8 by decide, BitVec.getLsbD_allOnes, decide_eq_true hj]

theorem countByte_eq (count : UInt64) {i : Nat} (hi : i < 8) :
    ((count >>> UInt64.ofNat (i * 8)) &&& 0xff).toUInt8 = ⟨count.toBitVec.extractLsb' (8 * i) 8⟩ := by
  apply UInt8.toBitVec_inj.mp
  apply BitVec.eq_of_getLsbD_eq
  intro j hj
  have hplace : i * 8 % 64 = 8 * i := by omega
  simp [mask_getLsbD hj, hplace]

theorem wordByte_eq (word : UInt32) {bits : UInt32} {n : Nat} (hbits : bits.toNat = n) (hlt : n < 32) :
    ((word >>> bits) &&& 0xff).toUInt8 = ⟨word.toBitVec.extractLsb' n 8⟩ := by
  apply UInt8.toBitVec_inj.mp
  apply BitVec.eq_of_getLsbD_eq
  intro j hj
  rw [UInt32.toBitVec_toUInt8, UInt32.toBitVec_and, shr_toBitVec word hbits hlt]
  simp [mask_getLsbD hj]

theorem wordBytes_eq (word : UInt32) :
    [((word >>> 24) &&& 0xff).toUInt8, ((word >>> 16) &&& 0xff).toUInt8, ((word >>> 8) &&& 0xff).toUInt8,
      (word &&& 0xff).toUInt8] = bigEndian 4 word.toBitVec := by
  have hlast : word &&& 0xff = (word >>> (0 : UInt32)) &&& 0xff := by simp
  rw [hlast, wordByte_eq word (n := 24) rfl (by decide), wordByte_eq word (n := 16) rfl (by decide),
    wordByte_eq word (n := 8) rfl (by decide), wordByte_eq word (n := 0) rfl (by decide)]
  rfl

/-- The bytes of the count, from the highest on; putting them leaves the count. -/
theorem countBytes_eq (context : Sha256Context) :
    [7, 6, 5, 4, 3, 2, 1, 0].foldl (fun context i =>
        context.put ((context.bitCount >>> UInt64.ofNat (i * 8)) &&& 0xff).toUInt8) context =
      (bigEndian 8 context.bitCount.toBitVec).foldl Sha256Context.put context := by
  have hbytes : bigEndian 8 context.bitCount.toBitVec = [7, 6, 5, 4, 3, 2, 1, 0].map fun i =>
      ((context.bitCount >>> UInt64.ofNat (i * 8)) &&& 0xff).toUInt8 := by
    apply List.map_congr_left
    intro i hi
    exact (countByte_eq _ (by simpa using hi)).symm
  suffices hputs : ∀ (is : List Nat) (count : UInt64) (context : Sha256Context), context.bitCount = count →
      is.foldl (fun context i => context.put ((context.bitCount >>> UInt64.ofNat (i * 8)) &&& 0xff).toUInt8) context =
        (is.map fun i => ((count >>> UInt64.ofNat (i * 8)) &&& 0xff).toUInt8).foldl Sha256Context.put context by
    rw [hbytes, hputs _ _ context rfl]
  intro is count
  induction is with
  | nil => exact fun _ _ => rfl
  | cons i is ih =>
      intro context h
      obtain rfl := h
      exact ih (context.put _) rfl

/-- The last block: zeros up to the place of the count, and the count. -/
theorem lastBlock_eq {rest : List UInt8} (h : context.Holds rest) (hle : rest.length ≤ 56) {last : Sha256Context}
    (hlast : [7, 6, 5, 4, 3, 2, 1, 0].foldl (fun context i =>
        context.put ((context.bitCount >>> UInt64.ofNat (i * 8)) &&& 0xff).toUInt8) (context.fillTo 56) = last) :
    stateBits (sha256Transform last last.buffer).state =
      Sha256.compress (stateBits context.state)
        (rest ++ (List.replicate (56 - rest.length) 0 ++ bigEndian 8 context.bitCount.toBitVec)) := by
  obtain ⟨hfilled, hstate, hbits⟩ := h.fillTo hle (by decide)
  have hlength : (rest ++ List.replicate (56 - rest.length) 0).length = 56 := by
    rw [List.length_append, List.length_replicate]
    omega
  have hcount : (bigEndian 8 context.bitCount.toBitVec).length = 8 := length_bigEndian _ _
  obtain ⟨hput, hstate', -⟩ := hfilled.foldl_put (bigEndian 8 context.bitCount.toBitVec) (by omega)
  rw [countBytes_eq, hbits] at hlast
  subst hlast
  rw [stateBits_sha256Transform, hstate', hstate, hput.toList_buffer, List.append_assoc]
  rw [List.length_append, hlength, hcount]

/-- The state words of a digest, as bytes. -/
theorem digestBytes_eq (state : Vector UInt32 8) :
    (state.toList.flatMap fun (word : UInt32) =>
      [((word >>> 24) &&& 0xff).toUInt8, ((word >>> 16) &&& 0xff).toUInt8, ((word >>> 8) &&& 0xff).toUInt8,
        (word &&& 0xff).toUInt8]) = (stateBits state).words.flatMap (bigEndian 4) := by
  have hwords : (stateBits state).words = state.toList.map UInt32.toBitVec := by
    apply List.ext_getElem
    · simp [Sha256.Vars.words]
    · intro i hi hi'
      have hlt : i < 8 := hi
      rw [List.getElem_map, Vector.getElem_toList]
      interval_cases i <;> rfl
  rw [hwords, List.flatMap_map]
  apply List.flatMap_congr
  intro word _
  exact wordBytes_eq word

theorem Sha256Context.Holds.makeRoom_of_short {rest : List UInt8} (h : context.Holds rest) (hle : rest.length ≤ 56) :
    context.makeRoom = context := by
  rw [Sha256Context.makeRoom, if_neg (by rw [h.size]; omega)]

theorem Sha256Context.Holds.makeRoom_of_long {rest : List UInt8} (h : context.Holds rest) (hlong : 56 < rest.length)
    (hle : rest.length ≤ 64) :
    context.makeRoom.Holds [] ∧ context.makeRoom.bitCount = context.bitCount ∧
      stateBits context.makeRoom.state =
        Sha256.compress (stateBits context.state) (rest ++ List.replicate (64 - rest.length) 0) := by
  obtain ⟨hfilled, hstate, hbits⟩ := h.fillTo hle le_rfl
  have hfull : (rest ++ List.replicate (64 - rest.length) 0).length = 64 := by
    rw [List.length_append, List.length_replicate]
    omega
  rw [Sha256Context.makeRoom, if_pos (by rw [h.size]; exact hlong)]
  refine ⟨Sha256Context.holds_nil rfl, hbits, ?_⟩
  dsimp only
  rw [stateBits_sha256Transform, hstate, hfilled.toList_buffer hfull]

/-- The padding ends the message: the context takes it like any other bytes. -/
theorem sha256Final_eq (h : context.Absorbed message) : sha256Final context = Sha256.hash message := by
  obtain ⟨hstate, hholds, hroom, hbits⟩ := h
  have hpushed := @foldl_push _ _ 64 Sha256.compress Sha256.initial (by decide)
  have hrest : message.length % 64 = (pushed message).2.length := by
    rw [pushed, hpushed, List.length_drop]
    have hdivision := Nat.div_add_mod' message.length 64
    omega
  have hhash : Sha256.hash message = ((Sha256.padding message.length).foldl (push 64 Sha256.compress)
      (pushed message)).1.words.flatMap (bigEndian 4) := by
    rw [pushed, ← List.foldl_append, hpushed]
    rfl
  -- the context with the whole count, and the mark put
  have hcounted : ({ context with bitCount := UInt64.ofNat (8 * message.length) } : Sha256Context).Holds
      (pushed message).2 := ⟨hholds.size, hholds.bytes⟩
  have hmarked := hcounted.put hroom 0x80
  rw [hhash, sha256Final]
  rw [digestBytes_eq, hbits]
  generalize hmark : Sha256Context.put { context with bitCount := UInt64.ofNat (8 * message.length) } 0x80 = marked
    at hmarked ⊢
  have hmarkedState : stateBits marked.state = (pushed message).1 := by rw [← hmark, ← hstate]; rfl
  have hmarkedBits : marked.bitCount.toBitVec = BitVec.ofNat 64 (8 * message.length) := by rw [← hmark]; rfl
  have hlength : ((pushed message).2 ++ [0x80]).length = (pushed message).2.length + 1 := List.length_append
  have hcount : (bigEndian 8 (BitVec.ofNat 64 (8 * message.length))).length = 8 := length_bigEndian _ _
  rw [Sha256.padding, hrest]
  generalize pushed message = s at hmarked hmarkedState hlength hroom ⊢
  obtain ⟨state, rest⟩ := s
  dsimp only at hmarked hmarkedState hlength hroom ⊢
  congr 2
  by_cases hshort : rest.length + 1 ≤ 56
  · have hzeros : (119 - rest.length) % 64 = 56 - (rest.length + 1) := by omega
    rw [hmarked.makeRoom_of_short (by omega), lastBlock_eq hmarked (by omega) rfl, foldl_push_block, hmarkedState,
      hmarkedBits, hlength, hzeros, List.append_assoc, List.singleton_append]
    · rw [List.length_cons, List.length_append, List.length_replicate, hcount]
      omega
    · exact List.cons_ne_nil _ _
  · obtain ⟨hnone, hroomBits, hroomState⟩ := hmarked.makeRoom_of_long (by omega) (by omega)
    have hpadding : 0x80 :: (List.replicate ((119 - rest.length) % 64) 0 ++
        bigEndian 8 (BitVec.ofNat 64 (8 * message.length))) =
        (0x80 :: List.replicate (64 - (rest.length + 1)) 0) ++
          (List.replicate 56 0 ++ bigEndian 8 (BitVec.ofNat 64 (8 * message.length))) := by
      rw [show (119 - rest.length) % 64 = 64 - (rest.length + 1) + 56 by omega, List.replicate_add, List.append_assoc,
        List.cons_append]
    have hfirst : rest.length + (0x80 :: List.replicate (64 - (rest.length + 1)) (0 : UInt8)).length = 64 := by
      rw [List.length_cons, List.length_replicate]
      omega
    have hsecond : ([] : List UInt8).length + (List.replicate 56 0 ++
        bigEndian 8 (BitVec.ofNat 64 (8 * message.length))).length = 64 := by
      rw [List.length_append, List.length_replicate, hcount]
      rfl
    rw [lastBlock_eq hnone (Nat.zero_le _) rfl, hroomState, hroomBits, hmarkedState, hmarkedBits, hlength, hpadding,
      List.foldl_append, foldl_push_block hfirst (List.cons_ne_nil _ _),
      foldl_push_block hsecond (List.append_ne_nil_of_left_ne_nil (List.cons_ne_nil _ _) _), List.append_assoc,
      List.singleton_append]
    rfl

theorem sha256_eq (message : List UInt8) : sha256 message = Sha256.hash message := by
  have h := (absorbed_sha256Init {}).update message
  rw [List.nil_append] at h
  exact sha256Final_eq h

end Context

end KungFuChess
