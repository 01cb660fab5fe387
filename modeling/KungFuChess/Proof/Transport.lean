import KungFuChess.Lib.Histories
import KungFuChess.Model.Transport

/-!
# The count of buffered bytes

After a message the program counts the bytes that are left in the buffer of the library: those it counted before, with
those that have left the socket meanwhile, without those of the message. It does not see the bytes that arrive during
the read and are fetched at once, nor that ping and pong frames are taken along. As long as each read takes along just
as much as it does not see, the count is right; and it tells whether anything is left as long as the difference is less
than that.
-/

namespace KungFuChess

namespace Transport

open Histories

/-! ### The size of a frame -/

@[simp] theorem length_bigEndian (count n : Nat) : (bigEndian count n).length = count := by simp [bigEndian]

theorem WireFrame.length_lengthBytes (frame : WireFrame) :
    frame.lengthBytes.length =
      if frame.payload.length > 65535 then 9 else if frame.payload.length > 125 then 3 else 1 := by
  unfold WireFrame.lengthBytes
  dsimp only
  split
  · rename_i hshort
    rw [if_neg (by omega), if_neg (by omega)]
    rfl
  · rename_i hlong
    split
    · rename_i hmedium
      rw [if_neg (by omega), if_pos (by omega), List.length_cons, length_bigEndian]
    · rw [if_pos (by omega), List.length_cons, length_bigEndian]

/-- The program knows the size of the frames it reads. -/
theorem WireFrame.length_bytes {endpoint : Endpoint} {frame : WireFrame}
    (hmask : frame.maskKey.isSome = endpoint.masks) : frame.bytes.length = endpoint.frameSize frame.payload.length := by
  have hlength := frame.length_lengthBytes
  cases endpoint with
  | server =>
      obtain ⟨key, hkey⟩ := Option.isSome_iff_exists.mp hmask
      simp only [WireFrame.bytes, hkey, List.length_append, List.length_cons, List.length_mapIdx, Vector.length_toList,
        hlength, Endpoint.frameSize, maskedFrameSize]
      split <;> [skip; split] <;> omega
  | client =>
      have hkey : frame.maskKey = none := Option.not_isSome_iff_eq_none.mp (by rw [hmask]; exact Bool.false_ne_true)
      simp only [WireFrame.bytes, hkey, List.length_append, List.length_cons, hlength, Endpoint.frameSize,
        unmaskedFrameSize]
      split <;> [skip; split] <;> omega

/-! ### The count and the buffer -/

/-- The count is positive if and only if anything is in the buffer, and not larger than that. -/
def CountsBuffered (wire : Wire) : Prop :=
  (0 < wire.connection.bufferedBytes ↔ 0 < wire.beast.length) ∧ wire.connection.bufferedBytes ≤ wire.beast.length

theorem Wire.reads_iff {endpoint : Endpoint} {wire : Wire} {event : SuccessfulRead} :
    wire.Reads endpoint event ↔ wire.connection.isOpen = true ∧
      (0 < wire.kernel.length ∨ 0 < wire.connection.bufferedBytes ∨ endpoint = .client ∧ event.arrivals ≠ []) ∧
      event.moved ≤ (wire.kernel ++ event.arrivals).length ∧
      event.consumed <+: wire.beast ++ (wire.kernel ++ event.arrivals).take event.moved ∧
      (∀ frame ∈ event.frames, frame.maskKey.isSome = endpoint.masks) ∧
      (∀ frame ∈ event.controls, frame.isControl = true) ∧ event.message.isControl = false :=
  ⟨fun ⟨hopen, hready, hmoved, hframes, hmask, hcontrols, hmessage⟩ =>
      ⟨hopen, hready, hmoved, hframes, hmask, hcontrols, hmessage⟩,
    fun ⟨hopen, hready, hmoved, hframes, hmask, hcontrols, hmessage⟩ =>
      ⟨hopen, hready, hmoved, hframes, hmask, hcontrols, hmessage⟩⟩

instance (endpoint : Endpoint) (wire : Wire) (event : SuccessfulRead) : Decidable (wire.Reads endpoint event) :=
  decidable_of_iff _ Wire.reads_iff.symm

def Possible (endpoint : Endpoint) (wire : Wire) : WireEvent → Prop
  | .arrive _ => True
  | .read event => wire.Reads endpoint event

instance (endpoint : Endpoint) (wire : Wire) : DecidablePred (Possible endpoint wire)
  | .arrive _ => isTrue trivial
  | .read event => inferInstanceAs (Decidable (wire.Reads endpoint event))

/-- Fetched bytes that the sizes of the socket do not show. -/
def SuccessfulRead.unseen (event : SuccessfulRead) : Nat :=
  if event.remainingFails then event.moved else min event.moved event.arrivals.length

def SuccessfulRead.controlBytes (event : SuccessfulRead) : Nat := (event.controls.flatMap WireFrame.bytes).length

/-- Bytes in the buffer that the program does not know of before it takes the message off. -/
def Wire.hidden (wire : Wire) (event : SuccessfulRead) : Nat :=
  wire.beast.length - wire.connection.bufferedBytes + event.unseen

/-- What is in the buffer after the read. -/
def Wire.left (wire : Wire) (event : SuccessfulRead) : Nat := wire.beast.length + event.moved - event.consumed.length

/-- The ping and pong frames are not longer than what is hidden, and what is hidden beyond them is less than what is
left, if anything is. -/
def Accounted (wire : Wire) : WireEvent → Prop
  | .arrive _ => True
  | .read event => event.controlBytes ≤ wire.hidden event ∧
      (0 < wire.left event → wire.hidden event < event.controlBytes + wire.left event)

section Reads

variable {endpoint : Endpoint} {wire : Wire} {event : SuccessfulRead} {events : List WireEvent}

theorem updateBufferedBytes_some (buffered before after consumed : Nat) :
    updateBufferedBytes buffered before (some after) consumed = buffered + (before - after) - consumed := by
  unfold updateBufferedBytes
  dsimp only
  split <;> split <;> omega

theorem updateBufferedBytes_none (buffered before consumed : Nat) :
    updateBufferedBytes buffered before none consumed = buffered - consumed := by
  unfold updateBufferedBytes
  dsimp only
  split <;> omega

/-- A successful read counts. -/
theorem Wire.Reads.connection_step (h : wire.Reads endpoint event) :
    (wire.step endpoint (.read event)).connection = { wire.connection with
      bufferedBytes := updateBufferedBytes wire.connection.bufferedBytes wire.kernel.length
        (if event.remainingFails then none else some ((wire.kernel ++ event.arrivals).drop event.moved).length)
        (endpoint.frameSize event.message.payload.length) } := by
  have hready := h.ready
  have hopen : ¬(!wire.connection.isOpen) = true := by
    rw [h.isOpen]
    decide
  show (wire.connection.tryRead _ _ _ _ _).2 = _
  unfold Connection.tryRead
  rw [if_neg hopen]
  dsimp only
  split
  · rename_i hidle
    obtain ⟨hkernel, hbuffered⟩ := hidle
    cases endpoint with
    | server =>
        rw [hkernel, hbuffered] at hready
        rcases hready with hready | hready | ⟨hready, -⟩ <;> cases hready
    | client => rfl
  · rfl

theorem SuccessfulRead.length_consumed (hmask : ∀ frame ∈ event.frames, frame.maskKey.isSome = endpoint.masks) :
    event.consumed.length = event.controlBytes + endpoint.frameSize event.message.payload.length := by
  have hmessage := WireFrame.length_bytes (hmask event.message (List.mem_append_right _ (List.mem_singleton_self _)))
  rw [SuccessfulRead.consumed, SuccessfulRead.frames, List.flatMap_append, List.length_append, List.flatMap_singleton,
    hmessage]
  rfl

theorem Wire.Reads.bufferedBytes_step (h : wire.Reads endpoint event) :
    (wire.step endpoint (.read event)).connection.bufferedBytes =
      wire.connection.bufferedBytes + (event.moved - event.unseen) -
        endpoint.frameSize event.message.payload.length := by
  have hmoved := h.moved
  rw [List.length_append] at hmoved
  rw [h.connection_step]
  unfold SuccessfulRead.unseen
  cases event.remainingFails with
  | true =>
      simp only [if_true, updateBufferedBytes_none]
      omega
  | false =>
      simp only [Bool.false_eq_true, if_false, updateBufferedBytes_some, List.length_drop, List.length_append]
      omega

theorem Wire.Reads.length_beast (h : wire.Reads endpoint event) :
    (wire.step endpoint (.read event)).beast.length = wire.left event ∧
      event.consumed.length ≤ wire.beast.length + event.moved := by
  have hmoved := h.moved
  have hframes := h.frames.length_le
  rw [List.length_append, List.length_take, Nat.min_eq_left hmoved] at hframes
  refine ⟨?_, hframes⟩
  show ((wire.beast ++ (wire.kernel ++ event.arrivals).take event.moved).drop event.consumed.length).length = _
  rw [List.length_drop, List.length_append, List.length_take, Nat.min_eq_left hmoved]
  rfl

/-- What one read needs. -/
theorem countsBuffered_step_iff (hcount : CountsBuffered wire) (wireEvent : WireEvent)
    (hpossible : Possible endpoint wire wireEvent) :
    CountsBuffered (wire.step endpoint wireEvent) ↔ Accounted wire wireEvent := by
  cases wireEvent with
  | arrive bytes => exact ⟨fun _ => trivial, fun _ => hcount⟩
  | read event =>
      obtain ⟨hlength, hle⟩ := hpossible.length_beast
      have hconsumed := SuccessfulRead.length_consumed hpossible.masked
      have hknown := hcount.2
      have hunseen : event.unseen ≤ event.moved := by
        unfold SuccessfulRead.unseen
        split <;> omega
      unfold CountsBuffered Accounted
      rw [hlength, hpossible.bufferedBytes_step]
      unfold Wire.hidden Wire.left
      omega

/-- The count is right throughout a run exactly when each read hides from it as much as it takes along unseen, up to
what is left. -/
theorem buffered_bytes_right_iff (hpossible : EachStep (Wire.step endpoint) (Possible endpoint) {} events) :
    Throughout (Wire.step endpoint) CountsBuffered {} events ↔ EachStep (Wire.step endpoint) Accounted {} events :=
  throughout_iff_of_eachStep hpossible ⟨Iff.rfl, Nat.le_refl 0⟩ fun _ event hreads hcount =>
    countsBuffered_step_iff hcount event hreads

/-- Nothing arrives during the read, nothing is taken along, and the socket reports its size. -/
def Quiet : WireEvent → Prop
  | .arrive _ => True
  | .read event => event.arrivals = [] ∧ event.controls = [] ∧ event.remainingFails = false

/-- If every read is quiet, the count is the size of the buffer. -/
theorem bufferedBytes_eq_of_quiet (hpossible : EachStep (Wire.step endpoint) (Possible endpoint) {} events)
    (hquiet : ∀ event ∈ events, Quiet event) :
    Throughout (Wire.step endpoint) (fun wire => wire.connection.bufferedBytes = wire.beast.length) {} events := by
  refine Throughout.of_step (C := fun wire event => Possible endpoint wire event ∧ Quiet event) rfl ?_
    fun before event hpre => ⟨hpossible before event hpre, hquiet event (hpre.subset (by simp))⟩
  rintro wire (_ | event) ⟨hreads, hnothing⟩ hcount
  · exact hcount
  · obtain ⟨harrivals, hcontrols, hsize⟩ := hnothing
    obtain ⟨hlength, hle⟩ := hreads.length_beast
    have hconsumed := SuccessfulRead.length_consumed hreads.masked
    have hnone : event.controlBytes = 0 := by
      rw [SuccessfulRead.controlBytes, hcontrols]
      rfl
    have hseen : event.unseen = 0 := by
      simp [SuccessfulRead.unseen, harrivals, hsize]
    rw [hlength, hreads.bufferedBytes_step, hcount, Wire.left, hseen, hconsumed, hnone]
    omega

/-- A message of one byte, from the client to the server. -/
def letter : WireFrame := ⟨.text, some (.replicate 4 0), [65]⟩

theorem buffered_bytes_right_iff_letter :
    EachStep (Wire.step .server) (Possible .server) {} [.arrive letter.bytes, .read ⟨[], 7, [], letter, false⟩] ∧
      (Throughout (Wire.step .server) CountsBuffered {} [.arrive letter.bytes, .read ⟨[], 7, [], letter, false⟩] ↔
        EachStep (Wire.step .server) Accounted {} [.arrive letter.bytes, .read ⟨[], 7, [], letter, false⟩]) :=
  ⟨by decide, buffered_bytes_right_iff (by decide)⟩

/-- A second letter arrives while the first is read, and is fetched with it: the program does not know of it. -/
theorem buffered_bytes_too_few :
    ¬∀ events, EachStep (Wire.step .server) (Possible .server) {} events →
      Throughout (Wire.step .server) CountsBuffered {} events := by
  intro hcounts
  have hlast := (hcounts [.arrive letter.bytes, .read ⟨letter.bytes, 14, [], letter, false⟩] (by decide)).last
  have hbuffer : (List.foldl (Wire.step .server) {}
      [.arrive letter.bytes, .read ⟨letter.bytes, 14, [], letter, false⟩]) =
        ⟨[], letter.bytes, ⟨true, 0⟩⟩ := by decide
  rw [hbuffer] at hlast
  exact absurd (hlast.1.mpr (by decide)) (by decide)

/-- A ping before the letter is counted as left, and the next read waits for bytes that do not come. -/
example : List.foldl (Wire.step .server) {}
    [.arrive (⟨.ping, letter.maskKey, []⟩ : WireFrame).bytes, .arrive letter.bytes,
      .read ⟨[], 13, [⟨.ping, letter.maskKey, []⟩], letter, false⟩] = ⟨[], [], ⟨true, 6⟩⟩ := by decide

end Reads

end Transport

end KungFuChess
