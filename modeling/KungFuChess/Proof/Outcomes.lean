import KungFuChess.Proof.RestCells

/-!
# What becomes of the pieces

A tick can be longer or shorter, and what falls due in it is worked off in another order then. The events of one long
tick and those of two short ones that take as long are two runs of events on one board, and all that counts of a run is
what it does to each piece: whether its flight has ended, and with a landing, whether the piece has been taken, and
whether it was an arrival or a jumper that took it. The last is asked for the rest of the piece, which a piece that
comes back leaves alone. So one tick leads to the same state as two exactly if every piece meets the same end in both.
-/

namespace KungFuChess

open Loops BoardModel

/-! ### The outcome of a run of events -/

namespace SettleEvent

def takes (id : Nat) (e : SettleEvent) : Bool := e.victim.any (·.id == id)

/-- The piece is taken by an arrival, or by a jumper as it arrives. -/
def strikes (id : Nat) (e : SettleEvent) : Bool := e.takes id && e.ousted.isNone

@[simp] theorem strikes_landed (id : Nat) (piece : Piece) (cell : Cell) (occupant : Option Piece) :
    (landed piece cell occupant).strikes id = occupant.any (·.id == id) := Bool.and_true _

@[simp] theorem strikes_shotDown (id : Nat) (piece : Piece) (jump : JumpState) :
    (shotDown piece jump).strikes id = (piece.id == id) := Bool.and_true _

@[simp] theorem strikes_putBack (id : Nat) (piece : Piece) (cell : Cell) (occupant : Option Piece) :
    (putBack piece cell occupant).strikes id = false := by
  cases occupant with
  | none => rfl
  | some q => exact Bool.and_false _

end SettleEvent

/-- The event that ends the flight of a piece. -/
def ownEvent (events : List SettleEvent) (id : Nat) : Option SettleEvent := events.find? (·.piece.id == id)

/-- What a run of events does to a piece. -/
structure Outcome where
  ended : Bool
  landed : Bool
  taken : Bool
  struck : Bool
deriving DecidableEq

def outcome (events : List SettleEvent) (id : Nat) : Outcome where
  ended := (ownEvent events id).isSome
  landed := (ownEvent events id).any SettleEvent.isLanding
  taken := events.any (·.takes id)
  struck := events.any (·.strikes id)

section Outcome

variable {events events' : List SettleEvent} {e : SettleEvent} {id : Nat}

theorem takes_iff : e.takes id = true ↔ ∃ v, e.victim = some v ∧ v.id = id := by
  simp only [SettleEvent.takes, Option.any_eq_true, beq_iff_eq]

theorem ownEvent_cons_of_eq (hid : e.piece.id = id) : ownEvent (e :: events) id = some e := by
  rw [ownEvent, List.find?_cons_of_pos (by simpa using hid)]

theorem ownEvent_cons_of_ne (hid : e.piece.id ≠ id) : ownEvent (e :: events) id = ownEvent events id := by
  rw [ownEvent, List.find?_cons_of_neg (by simpa using hid), ownEvent]

theorem ownEvent_append (events events' : List SettleEvent) (id : Nat) :
    ownEvent (events ++ events') id = (ownEvent events id).or (ownEvent events' id) := by
  rw [ownEvent, List.find?_append, ownEvent, ownEvent]

theorem landed_append : (outcome (events ++ events') id).landed = true ↔
    (outcome events id).landed = true ∨ (outcome events id).ended = false ∧ (outcome events' id).landed = true := by
  simp only [outcome, ownEvent_append]
  cases ownEvent events id <;> simp

theorem ended_of_landed (h : (outcome events id).landed = true) : (outcome events id).ended = true := by
  simp only [outcome] at h ⊢
  cases hown : ownEvent events id with
  | none => rw [hown] at h; cases h
  | some e => rfl

theorem taken_iff : (outcome events id).taken = true ↔ ∃ e ∈ events, ∃ v, e.victim = some v ∧ v.id = id := by
  simp only [outcome, List.any_eq_true, takes_iff]

theorem struck_iff : (outcome events id).struck = true ↔
    ∃ e ∈ events, (∃ v, e.victim = some v ∧ v.id = id) ∧ e.ousted = none := by
  simp only [outcome, List.any_eq_true, SettleEvent.strikes, Bool.and_eq_true, takes_iff, Option.isNone_iff_eq_none]

theorem struck_append :
    (outcome (events ++ events') id).struck = ((outcome events id).struck || (outcome events' id).struck) :=
  List.any_append

/-- A piece that is taken but not struck is taken by one that comes back. -/
theorem exists_ousted (htaken : (outcome events id).taken = true) (hstruck : (outcome events id).struck = false) :
    ∃ e ∈ events, ∃ v, e.ousted = some v ∧ v.id = id := by
  obtain ⟨e, he, v, hv, hid⟩ := taken_iff.mp htaken
  cases hback : e.ousted with
  | none =>
      rw [struck_iff.mpr ⟨e, he, ⟨v, hv, hid⟩, hback⟩] at hstruck
      cases hstruck
  | some q =>
      refine ⟨e, he, q, hback, ?_⟩
      cases e with
      | putBack piece cell occupant =>
          cases hback.symm.trans hv
          exact hid
      | landed => cases hback
      | shotDown => cases hback

theorem struck_of_taken (h : (outcome events id).taken = false) : (outcome events id).struck = false := by
  rw [Bool.eq_false_iff, ne_eq, struck_iff]
  intro hstruck
  obtain ⟨e, he, hv, -⟩ := hstruck
  rw [taken_iff.mpr ⟨e, he, hv⟩] at h
  cases h

end Outcome

/-! ### The table after a run -/

section Trace

variable {b b' : BoardModel} {f : Flight} {flights left : List Flight} {e : SettleEvent} {events : List SettleEvent}
  {p p' : Piece} {id : Nat}

theorem Trace.left_subset (h : Trace .standard b flights events b' left) : ∀ g ∈ left, g ∈ flights := by
  induction h with
  | nil hperm => exact fun g hg => hperm.mem_iff.mpr hg
  | cons hperm _ _ ih => exact fun g hg => hperm.mem_iff.mpr (List.mem_cons_of_mem _ (ih g hg))

/-- The flights that have ended are those with an event. -/
theorem Trace.ended_iff (h : Trace .standard b flights events b' left) (hb : Located b flights) (id : Nat) :
    (outcome events id).ended = true ↔ id ∈ flights.map Flight.id ∧ id ∉ left.map Flight.id := by
  induction h with
  | nil hperm =>
      refine iff_of_false (by simp [outcome, ownEvent]) ?_
      rw [(hperm.map Flight.id).mem_iff]
      exact fun h => h.2 h.1
  | @cons b b' f flights left left' e events hperm hfits hrest ih =>
      have hb := hb.perm hperm
      have hpiece := hb.idsInPlace f.id _ hfits.piece_eq
      have hleft : id ∈ left'.map Flight.id → id ∈ left.map Flight.id := by
        intro hmem
        obtain ⟨g, hg, rfl⟩ := List.mem_map.mp hmem
        exact List.mem_map_of_mem (hrest.left_subset g hg)
      rw [(hperm.map Flight.id).mem_iff, List.map_cons, List.mem_cons]
      by_cases hmine : e.piece.id = id
      · have hown : ownEvent (e :: events) id = some e := ownEvent_cons_of_eq hmine
        rw [outcome, hown]
        refine iff_of_true rfl ⟨.inl (hmine.symm.trans hpiece), fun hmem => ?_⟩
        exact (List.nodup_cons.mp hb.idsNodup).1 (hpiece ▸ hmine ▸ hleft hmem)
      · have hown : ownEvent (e :: events) id = ownEvent events id := ownEvent_cons_of_ne hmine
        have hne : id ≠ f.id := fun heq => hmine (hpiece.trans heq.symm)
        have hsame := ih (hfits.located GameRules.standard_keepsPieces hb)
        simp only [outcome] at hsame
        simp only [outcome, hown, hsame, or_iff_right hne]

/-- What an event does with its flight. -/
def SettleEvent.Closes (f : Flight) : SettleEvent → Prop
  | landed _ cell _ => f.target = some cell
  | shotDown _ _ => True
  | putBack _ cell _ => cell = f.origin

theorem Fits.closes (h : Fits b f e) : e.Closes f := by
  cases h with
  | landed _ htarget _ _ => exact htarget
  | shotDown _ _ => trivial
  | putBack _ => rfl

/-- A piece that stays in the air is left alone. -/
theorem Fits.find_flying (h : Fits b f e) (hb : Located b (f :: left)) {g : Flight} (hg : g ∈ left) :
    (e.boardAfter .standard b).findPieceById g.id = b.findPieceById g.id := by
  have hne : g.id ≠ f.id := by
    intro heq
    exact (List.nodup_cons.mp hb.idsNodup).1 (heq ▸ List.mem_map_of_mem hg)
  rw [h.findPieceById_boardAfter GameRules.standard_keepsPieces hb, if_neg hne]
  cases hq : e.occupant with
  | none => rfl
  | some q =>
      obtain ⟨row, col, hpiece⟩ := h.occupant_eq hq
      exact if_neg (hb.ne_of_pieceAt (List.mem_cons_of_mem _ hg) hpiece)

/-- The event of a flight finds the piece as it has taken off. -/
theorem Trace.own_closes (h : Trace .standard b flights events b' left) (hb : Located b flights)
    (hp : b.findPieceById id = some p) (hown : ownEvent events id = some e) :
    e.piece = p ∧ ∃ f ∈ flights, f.id = id ∧ e.Closes f := by
  induction h with
  | nil => cases hown
  | @cons b b' f flights left left' first events hperm hfits hrest ih =>
      have hb := hb.perm hperm
      have hpiece := hb.idsInPlace f.id _ hfits.piece_eq
      by_cases hmine : first.piece.id = id
      · rw [ownEvent_cons_of_eq hmine, Option.some.injEq] at hown
        obtain rfl := hown
        have hfind := hfits.piece_eq
        rw [← hpiece, hmine, hp, Option.some.injEq] at hfind
        exact ⟨hfind.symm, f, hperm.mem_iff.mpr List.mem_cons_self, hpiece.symm.trans hmine, hfits.closes⟩
      · rw [ownEvent_cons_of_ne hmine] at hown
        have hlocated := hfits.located GameRules.standard_keepsPieces hb
        have hended : (outcome events id).ended = true := by rw [outcome, hown]; rfl
        obtain ⟨g, hg, rfl⟩ := List.mem_map.mp ((hrest.ended_iff hlocated id).mp hended).1
        obtain ⟨hsame, g', hg', hid, hcloses⟩ := ih hlocated ((hfits.find_flying hb hg).trans hp) hown
        exact ⟨hsame, g', hperm.mem_iff.mpr (List.mem_cons_of_mem _ hg'), hid, hcloses⟩

/-- The record of a piece after a run: as its own event leaves it, or captured. -/
def recordAfter (rows : Nat) (events : List SettleEvent) (id : Nat) (p : Piece) : Piece :=
  let q := (ownEvent events id).elim p (SettleEvent.pieceAfter .standard rows)
  if (outcome events id).taken then { q with state := .captured } else q

/-- A piece that an event is not about is captured by it or left alone. -/
theorem Fits.find_other (h : Fits b f e) (hb : Located b (f :: left)) (hp : b.findPieceById id = some p)
    (hid : id ≠ f.id) :
    (e.boardAfter .standard b).findPieceById id
      = some (if e.takes id then { p with state := .captured } else p) := by
  have htakes : e.takes id = e.occupant.any (·.id == id) := by
    cases h with
    | landed => rfl
    | @shotDown piece jump hfind hcolor =>
        have hpiece : piece.id = f.id := hb.idsInPlace f.id _ hfind
        exact beq_false_of_ne (fun heq => hid (heq.symm.trans hpiece))
    | putBack => rfl
  rw [h.findPieceById_boardAfter GameRules.standard_keepsPieces hb id, if_neg hid, htakes]
  cases hq : e.occupant with
  | none => exact hp
  | some q =>
      rw [Option.any_some]
      by_cases hvictim : id = q.id
      · have hfind := (h.occupant_idle hb hq).1
        rw [← hvictim, hp, Option.some.injEq] at hfind
        rw [hfind, beq_iff_eq.mpr hvictim.symm]
        exact if_pos hvictim
      · rw [beq_false_of_ne (Ne.symm hvictim)]
        exact (if_neg hvictim).trans hp

theorem ownEvent_eq_none (h : Trace .standard b flights events b' left) (hb : Located b flights)
    (hid : id ∉ flights.map Flight.id) : ownEvent events id = none := by
  rw [← Option.not_isSome_iff_eq_none]
  exact fun hsome => hid ((h.ended_iff hb id).mp hsome).1

theorem taken_cons : (outcome (e :: events) id).taken = (e.takes id || (outcome events id).taken) := rfl

theorem Trace.findPieceById_eq (h : Trace .standard b flights events b' left) (hb : Located b flights)
    (hp : b.findPieceById id = some p) : b'.findPieceById id = some (recordAfter b.rows events id p) := by
  induction h generalizing p with
  | nil => exact hp
  | @cons b b' f flights left left' e events hperm hfits hrest ih =>
      have hb := hb.perm hperm
      have hlocated := hfits.located GameRules.standard_keepsPieces hb
      have hpiece := hb.idsInPlace f.id _ hfits.piece_eq
      have hrows := (hfits.rows_boardAfter .standard).1
      by_cases hmine : id = f.id
      · -- its own event: afterwards the piece is on the ground
        have hfind := hfits.findPieceById_boardAfter GameRules.standard_keepsPieces hb id
        rw [if_pos hmine] at hfind
        have hground : ownEvent events id = none :=
          ownEvent_eq_none hrest hlocated (hmine ▸ (List.nodup_cons.mp hb.idsNodup).1)
        have hcaptured := (hfits.captured_iff hb hp hfind).mpr
        rw [ih hlocated hfind, recordAfter, recordAfter, hground, ownEvent_cons_of_eq (hpiece.trans hmine.symm),
          taken_cons]
        cases htakes : e.takes id with
        | false => rfl
        | true =>
            have hstate := hcaptured (.inr (takes_iff.mp htakes))
            cases (outcome events id).taken with
            | true => rfl
            | false =>
                change some (e.pieceAfter .standard b.rows)
                  = some { e.pieceAfter .standard b.rows with state := .captured }
                rw [← hstate]
      · have hfind := hfits.find_other hb hp hmine
        rw [ih hlocated hfind, recordAfter, recordAfter, taken_cons,
          ownEvent_cons_of_ne (fun heq => hmine (heq.symm.trans hpiece)), hrows]
        cases htakes : e.takes id with
        | false => rfl
        | true =>
            rw [htakes] at hfind
            have hground : ownEvent events id = none := by
              refine ownEvent_eq_none hrest hlocated fun hmem => ?_
              cases (hlocated.moving id _ hfind).mpr hmem
            rw [hground]
            cases (outcome events id).taken <;> rfl

/-- The cell entered with a piece in the air is the one it has left. -/
def AtOrigins (b : BoardModel) (flights : List Flight) : Prop :=
  ∀ f ∈ flights, ∀ p, b.findPieceById f.id = some p → p.cell = positionOf f.origin.1 f.origin.2

/-- A piece at the end of its flight. -/
def arrivedPiece (rows : Nat) (flights : List Flight) (id : Nat) (p : Piece) : Piece :=
  ((flights.find? (·.id == id)).bind Flight.target).elim p fun cell =>
    { GameRules.standard.landing p cell.1 rows with cell := positionOf cell.1 cell.2 }

/-- The record that an outcome leaves. -/
def Outcome.record (o : Outcome) (arrived p : Piece) : Piece :=
  let q := if o.landed then arrived else if o.ended then { p with state := .idle } else p
  if o.taken then { q with state := .captured } else q

theorem find?_flight (hb : Located b flights) (hf : f ∈ flights) : flights.find? (·.id == f.id) = some f := by
  cases hfind : flights.find? (·.id == f.id) with
  | none => exact absurd (beq_self_eq_true f.id) (List.find?_eq_none.mp hfind f hf)
  | some g =>
      have hid := List.find?_some hfind
      rw [List.inj_on_of_nodup_map hb.idsNodup (List.mem_of_find?_eq_some hfind) hf (beq_iff_eq.mp hid)]

/-- The table after a run shows of every piece its outcome, and no more. -/
theorem Trace.find_outcome (h : Trace .standard b flights events b' left) (hb : Located b flights)
    (hat : AtOrigins b flights) (hp : b.findPieceById id = some p) :
    b'.findPieceById id = some ((outcome events id).record (arrivedPiece b.rows flights id p) p) := by
  rw [h.findPieceById_eq hb hp, recordAfter, Outcome.record]
  cases hown : ownEvent events id with
  | none => simp [outcome, hown]
  | some e =>
      obtain ⟨rfl, f, hf, rfl, hcloses⟩ := h.own_closes hb hp hown
      have hended : (outcome events f.id).ended = true := by rw [outcome, hown]; rfl
      have hlanded : (outcome events f.id).landed = e.isLanding := by simp [outcome, hown]
      rw [hended, hlanded, Option.elim_some]
      cases e with
      | landed piece cell occupant =>
          rw [arrivedPiece, find?_flight hb hf, Option.bind_some, show f.target = some cell from hcloses]
          rfl
      | shotDown piece jump =>
          have htaken : (outcome events f.id).taken = true :=
            taken_iff.mpr ⟨_, List.mem_of_find?_eq_some hown, piece, rfl, hb.idsInPlace f.id _ hp⟩
          rw [htaken]
          rfl
      | putBack piece cell occupant =>
          obtain rfl : cell = f.origin := hcloses
          have hcell : piece.cell = positionOf f.origin.1 f.origin.2 := hat f hf _ hp
          rw [SettleEvent.pieceAfter, ← hcell]
          rfl

theorem Trace.taken_iff_state (h : Trace .standard b flights events b' left) (hb : Located b flights)
    (hp : b.findPieceById id = some p) (hp' : b'.findPieceById id = some p') :
    (outcome events id).taken = true ↔ p.state ≠ .captured ∧ p'.state = .captured := by
  rw [h.captured_iff hb hp hp', taken_iff]
  constructor
  · intro htaken
    obtain ⟨e, he, v, hv, rfl⟩ := htaken
    obtain ⟨q, hq, hstate, -⟩ := h.victim_find hb he hv
    obtain rfl : q = p := Option.some.inj (hq.symm.trans hp)
    exact ⟨hstate, .inr ⟨e, he, v, hv, rfl⟩⟩
  · intro hstate
    exact hstate.2.resolve_left hstate.1

theorem Trace.ended_iff_state (h : Trace .standard b flights events b' left) (hb : Located b flights)
    (hp : b.findPieceById id = some p) (hp' : b'.findPieceById id = some p') :
    (outcome events id).ended = true ↔ p.state = .moving ∧ p'.state ≠ .moving := by
  have hb' := h.located GameRules.standard_keepsPieces hb
  rw [h.ended_iff hb, hb.moving id p hp, ne_eq, hb'.moving id p' hp']

theorem Trace.landed_iff_cell (h : Trace .standard b flights events b' left) (hb : Located b flights)
    (hat : AtOrigins b flights) (hapart : ∀ f ∈ flights, f.target ≠ some f.origin) (hp : b.findPieceById id = some p)
    (hp' : b'.findPieceById id = some p') : (outcome events id).landed = true ↔ p'.cell ≠ p.cell := by
  have hrecord := h.find_outcome hb hat hp
  rw [hp', Option.some.injEq] at hrecord
  cases hlanded : (outcome events id).landed with
  | false =>
      have hcell : p'.cell = p.cell := by
        rw [hrecord, Outcome.record, hlanded]
        cases (outcome events id).ended <;> cases (outcome events id).taken <;> rfl
      exact iff_of_false Bool.false_ne_true (fun hne => hne hcell)
  | true =>
      refine iff_of_true rfl ?_
      cases hown : ownEvent events id with
      | none => simp [outcome, hown] at hlanded
      | some e =>
          obtain ⟨-, f, hf, rfl, hcloses⟩ := h.own_closes hb hp hown
          have hlanding : e.isLanding = true := by simpa [outcome, hown] using hlanded
          cases e with
          | shotDown => cases hlanding
          | putBack => cases hlanding
          | landed piece cell occupant =>
              have htarget : f.target = some cell := hcloses
              have hcell : p'.cell = positionOf cell.1 cell.2 := by
                rw [hrecord, Outcome.record, hlanded, arrivedPiece, find?_flight hb hf, Option.bind_some, htarget]
                cases (outcome events f.id).taken <;> rfl
              rw [hcell, hat f hf p hp]
              intro hsame
              obtain ⟨hrow, hcol⟩ := positionOf_inj hsame
              exact hapart f hf (htarget.trans (congrArg some (Prod.ext hrow hcol)))

/-- Two runs leave the same record of a piece exactly if its flight ends in both or in neither, with a landing in both
or in neither, and it is taken in both or in neither. -/
theorem Trace.same_record_iff {b'' : BoardModel} {left' : List Flight} {events' : List SettleEvent}
    (h : Trace .standard b flights events b' left) (h' : Trace .standard b flights events' b'' left')
    (hb : Located b flights) (hat : AtOrigins b flights) (hapart : ∀ f ∈ flights, f.target ≠ some f.origin)
    (hp : b.findPieceById id = some p) :
    b'.findPieceById id = b''.findPieceById id ↔
      (outcome events id).ended = (outcome events' id).ended ∧
        (outcome events id).landed = (outcome events' id).landed ∧
          (outcome events id).taken = (outcome events' id).taken := by
  have hrecord := h.find_outcome hb hat hp
  have hrecord' := h'.find_outcome hb hat hp
  constructor
  · intro hsame
    have hp' := hsame.symm.trans hrecord
    refine ⟨?_, ?_, ?_⟩
    · rw [Bool.eq_iff_iff, h.ended_iff_state hb hp hrecord, h'.ended_iff_state hb hp hp']
    · rw [Bool.eq_iff_iff, h.landed_iff_cell hb hat hapart hp hrecord, h'.landed_iff_cell hb hat hapart hp hp']
    · rw [Bool.eq_iff_iff, h.taken_iff_state hb hp hrecord, h'.taken_iff_state hb hp hp']
  · intro hsame
    obtain ⟨hended, hlanded, htaken⟩ := hsame
    rw [hrecord, hrecord', Outcome.record, Outcome.record, hended, hlanded, htaken]

/-! ### What comes back is not ousted -/

theorem Fits.ousted_pieceAt (h : Fits b f e) {q : Piece} (hq : e.ousted = some q) :
    b.pieceAt f.origin.1 f.origin.2 = some q := by
  cases h with
  | landed => cases hq
  | shotDown => cases hq
  | putBack => exact hq

/-- Nothing comes back to a cell that no flight has left. -/
theorem Trace.not_ousted_of_grounded (h : Trace .standard b flights events b' left) (hb : Located b flights)
    {cell : Cell} (hat : TakenOrAt b id cell) (hid : id ∉ flights.map Flight.id)
    (hcell : cell ∉ flights.map Flight.origin) (he : e ∈ events) {q : Piece} (hq : e.ousted = some q) : q.id ≠ id := by
  induction h with
  | nil => cases he
  | @cons b b' f flights left left' first events hperm hfits hrest ih =>
      have hb := hb.perm hperm
      have hlocated := hfits.located GameRules.standard_keepsPieces hb
      rw [(hperm.map Flight.id).mem_iff, List.map_cons, List.mem_cons, not_or] at hid
      rw [(hperm.map Flight.origin).mem_iff, List.map_cons, List.mem_cons, not_or] at hcell
      have hone : Trace .standard b (f :: left) [first] (first.boardAfter .standard b) left :=
        .cons (.refl _) hfits (.nil (.refl _))
      have hgrounded : id ∉ (f :: left).map Flight.id := by
        rw [List.map_cons, List.mem_cons, not_or]
        exact hid
      rcases List.mem_cons.mp he with rfl | he
      · intro heq
        obtain ⟨p, hp, hwhere⟩ := hat
        have hpieceAt := hfits.ousted_pieceAt hq
        obtain ⟨hidle, hqcell⟩ := hb.idle_of_pieceAt hpieceAt
        have hfindq := (hb.pieceAt_eq_some_iff.mp hpieceAt).2
        rw [heq, hp, Option.some.injEq] at hfindq
        obtain rfl := hfindq
        rcases hwhere with hcaptured | hcellp
        · rw [hcaptured] at hidle
          cases hidle
        · obtain ⟨hrow, hcol⟩ := positionOf_inj (hcellp.symm.trans hqcell)
          exact hcell.1 (Prod.ext hrow hcol)
      · exact ih hlocated (hat.trace hone hb hgrounded) hid.2 hcell.2 he

/-- A flight that does not end in a landing leaves its piece where it has begun, or captured. -/
theorem Fits.takenOrAt (h : Fits b f e) (hb : Located b (f :: left)) (hback : e.isLanding = false) :
    TakenOrAt (e.boardAfter .standard b) f.id f.origin := by
  have hfind := h.findPieceById_boardAfter GameRules.standard_keepsPieces hb f.id
  rw [if_pos rfl] at hfind
  refine ⟨_, hfind, ?_⟩
  cases h with
  | landed => cases hback
  | shotDown => exact .inl rfl
  | putBack => exact .inr rfl

/-- A piece that is taken by one that comes back has landed in the run, or was on the ground before. -/
theorem Trace.landed_of_ousted (h : Trace .standard b flights events b' left) (hb : Located b flights)
    (he : e ∈ events) {q : Piece} (hq : e.ousted = some q) (hended : (outcome events q.id).ended = true) :
    (outcome events q.id).landed = true := by
  induction h with
  | nil => cases he
  | @cons b b' f flights left left' first events hperm hfits hrest ih =>
      have hb := hb.perm hperm
      have hlocated := hfits.located GameRules.standard_keepsPieces hb
      have hpiece := hb.idsInPlace f.id _ hfits.piece_eq
      have hground : ∀ g ∈ f :: left, first.ousted = some q → g.id ≠ q.id := fun g hg hfirst =>
        hb.ne_of_pieceAt hg (hfits.ousted_pieceAt hfirst)
      by_cases hmine : first.piece.id = q.id
      · have hid : f.id = q.id := hpiece.symm.trans hmine
        cases hlanding : first.isLanding with
        | true => simp [outcome, ownEvent_cons_of_eq hmine, hlanding]
        | false =>
            exfalso
            rcases List.mem_cons.mp he with rfl | he
            · exact hground f List.mem_cons_self hq hid
            · have hat := hfits.takenOrAt hb hlanding
              rw [hid] at hat
              have hnotin := (List.nodup_cons.mp hb.idsNodup).1
              rw [hid] at hnotin
              exact hrest.not_ousted_of_grounded hlocated hat hnotin (List.nodup_cons.mp hb.originsNodup).1 he hq rfl
      · have hown : ownEvent (first :: events) q.id = ownEvent events q.id := ownEvent_cons_of_ne hmine
        have hended' : (outcome events q.id).ended = true := by
          simp only [outcome, hown] at hended ⊢
          exact hended
        rcases List.mem_cons.mp he with rfl | he
        · obtain ⟨g, hg, hid⟩ := List.mem_map.mp ((hrest.ended_iff hlocated q.id).mp hended').1
          exact absurd hid (hground g (List.mem_cons_of_mem _ hg) hq)
        · have hlanded := ih hlocated he hended'
          simp only [outcome, hown] at hlanded ⊢
          exact hlanded

end Trace

/-! ### The rests after a run -/

section Rests

variable {b : BoardModel} {flights : List Flight} {e : SettleEvent} {events : List SettleEvent} {move : PendingMove}
  {clockMs : Int} {jumps : List JumpState} {id : Nat} {rest : ActiveRest}

theorem landed_cons_of_eq (hid : e.piece.id = id) : (outcome (e :: events) id).landed = e.isLanding := by
  simp [outcome, ownEvent_cons_of_eq hid]

theorem landed_cons_of_ne (hid : e.piece.id ≠ id) :
    (outcome (e :: events) id).landed = (outcome events id).landed := by
  simp only [outcome, ownEvent_cons_of_ne hid]

theorem struck_cons : (outcome (e :: events) id).struck = (e.strikes id || (outcome events id).struck) := rfl

theorem landed_of_ownEvent_eq_none (h : ownEvent events id = none) : (outcome events id).landed = false := by
  simp [outcome, h]

/-- A due move enters the rest of its piece if it lands, and erases that of the piece it strikes. -/
theorem Fits.find?_restsAfter (h : Fits b move.flight e) (hb : Located b (move.flight :: flights)) (rests : RestMap)
    (id : Nat) : (e.restsAfter .standard move.arrivalTime rests).find? id =
      if e.strikes id then none
      else if e.isLanding = true ∧ e.piece.id = id then some (longRest move) else rests.find? id := by
  cases h with
  | @landed piece cell hfind htarget hin hcolor =>
      obtain rfl : move.endPos = cell := Option.some.inj htarget
      have hpiece : piece.id = move.pieceId := hb.idsInPlace move.pieceId _ hfind
      rw [SettleEvent.restsAfter, scheduleRest, OrdMap.find?_insert, SettleEvent.strikes_landed]
      simp only [SettleEvent.isLanding, SettleEvent.piece, true_and, eq_comm (a := id)]
      cases hq : b.pieceAt move.endPos.1 move.endPos.2 with
      | none => rfl
      | some q =>
          have hother : piece.id ≠ q.id := hpiece ▸ hb.ne_of_pieceAt List.mem_cons_self hq
          rw [Option.elim_some, OrdMap.find?_erase, Option.any_some]
          by_cases hvictim : q.id = id
          · rw [if_neg (fun heq => hother (heq.trans hvictim.symm)), if_pos hvictim.symm,
              if_pos (by simpa using hvictim)]
          · rw [if_neg (Ne.symm hvictim), if_neg (c := (q.id == id) = true) (by simpa using hvictim)]
            rfl
  | @shotDown piece jump hfind hcolor =>
      rw [SettleEvent.restsAfter, OrdMap.find?_erase, SettleEvent.strikes_shotDown]
      simp only [SettleEvent.isLanding, Bool.false_eq_true, false_and, if_false, beq_iff_eq, eq_comm (a := id)]
  | putBack => simp [SettleEvent.restsAfter, SettleEvent.isLanding]

/-- A piece that an event takes is not in the air any more. -/
theorem Fits.grounded_of_takes {f : Flight} (h : Fits b f e) (hb : Located b (f :: flights))
    (htakes : e.takes id = true) : id ∉ flights.map Flight.id := by
  obtain ⟨v, hv, rfl⟩ := takes_iff.mp htakes
  obtain ⟨p', hp', -⟩ := h.exists_find hb (h.victim_find hb hv).1
  have hcaptured := (h.captured_iff hb (h.victim_find hb hv).1 hp').mpr (.inr ⟨v, hv, rfl⟩)
  rw [← (h.located GameRules.standard_keepsPieces hb).moving v.id p' hp', hcaptured]
  decide

/-- What the due moves leave of the rests. -/
theorem find?_foldl_settleMove (moves : List PendingMove) (x : Settling)
    (hb : Located x.board (moves.map PendingMove.flight ++ flights))
    (hends : ∀ move ∈ moves, x.board.InBounds move.endPos.1 move.endPos.2) (id : Nat) (rest : ActiveRest) :
    (moves.foldl (settleMove .standard clockMs jumps) x).rests.find? id = some rest ↔
      (outcome (dueEvents .standard clockMs jumps moves x) id).struck = false ∧
        ((outcome (dueEvents .standard clockMs jumps moves x) id).landed = true ∧
            (∃ move ∈ moves, move.pieceId = id ∧ rest = longRest move) ∨
          (outcome (dueEvents .standard clockMs jumps moves x) id).landed = false ∧ x.rests.find? id = some rest) := by
  induction moves generalizing x with
  | nil => simp [dueEvents, outcome, ownEvent]
  | cons move moves ih =>
      have hfits := dueEvent_fits clockMs jumps hb (hends move List.mem_cons_self)
      obtain ⟨hlocated, hends'⟩ := settleMove_located GameRules.standard_keepsPieces clockMs jumps hb hends
      have htrace := trace_due clockMs jumps GameRules.standard_keepsPieces moves _ hlocated hends'
      have hfind : (settleMove .standard clockMs jumps x move).rests.find? id = _ :=
        hfits.find?_restsAfter hb x.rests id
      have hpiece := hb.idsInPlace move.pieceId _ hfits.piece_eq
      rw [List.foldl_cons, ih _ hlocated hends', hfind, dueEvents, struck_cons]
      generalize hevents : dueEvents .standard clockMs jumps moves _ = events at htrace ⊢
      have hgrounded : id ∉ (moves.map PendingMove.flight ++ flights).map Flight.id →
          (outcome events id).landed = false :=
        fun hid => landed_of_ownEvent_eq_none (ownEvent_eq_none htrace hlocated hid)
      cases hstrikes : (dueEvent clockMs jumps x.board move).strikes id with
      | true =>
          have hlanded := hgrounded (hfits.grounded_of_takes hb (Bool.and_eq_true_iff.mp hstrikes).1)
          simp [hlanded]
      | false =>
          by_cases hmine : (dueEvent clockMs jumps x.board move).piece.id = id
          · have hid : move.pieceId = id := hpiece.symm.trans hmine
            have hnotin : id ∉ (moves.map PendingMove.flight ++ flights).map Flight.id :=
              hid ▸ (List.nodup_cons.mp hb.idsNodup).1
            have hothers : ∀ other ∈ moves, other.pieceId ≠ id := fun other hother heq => hnotin
              (List.mem_map.mpr ⟨other.flight, List.mem_append_left _ (List.mem_map_of_mem hother), heq⟩)
            rw [hgrounded hnotin, landed_cons_of_eq hmine]
            cases hlanding : (dueEvent clockMs jumps x.board move).isLanding with
            | true =>
                have hexists : (∃ other ∈ move :: moves, other.pieceId = id ∧ rest = longRest other) ↔
                    longRest move = rest := by
                  simp only [List.mem_cons, exists_eq_or_imp, hid, true_and, eq_comm (a := rest), or_iff_left_iff_imp]
                  intro hother
                  obtain ⟨other, hother, heq, -⟩ := hother
                  exact absurd heq (hothers other hother)
                rw [hexists]
                simp [hmine]
            | false => simp
          · rw [landed_cons_of_ne hmine]
            have hne : move.pieceId ≠ id := fun heq => hmine (hpiece.trans heq)
            simp [hmine, hne]

theorem outcome_backEvents (ended : List Flight) (b : BoardModel) (id : Nat) :
    (outcome (backEvents ended b) id).landed = false ∧ (outcome (backEvents ended b) id).struck = false := by
  induction ended generalizing b with
  | nil => exact ⟨rfl, rfl⟩
  | cons f ended ih =>
      obtain ⟨hlanded, hstruck⟩ := ih (putBack b f)
      rw [backEvents, struck_cons, SettleEvent.strikes_putBack, hstruck]
      refine ⟨?_, rfl⟩
      by_cases hmine : (b.pieceOf f.id).id = id
      · exact landed_cons_of_eq (e := .putBack (b.pieceOf f.id) f.origin _) hmine
      · exact (landed_cons_of_ne (e := .putBack (b.pieceOf f.id) f.origin _) hmine).trans hlanded

/-- A piece that is in the air after a run has not been taken, and not landed. -/
theorem Trace.outcome_flying {b' : BoardModel} {left : List Flight} (h : Trace .standard b flights events b' left)
    (hb : Located b flights) (hid : id ∈ left.map Flight.id) :
    (outcome events id).ended = false ∧ (outcome events id).landed = false ∧ (outcome events id).taken = false ∧
      (outcome events id).struck = false := by
  have hended : (outcome events id).ended = false := by
    rw [Bool.eq_false_iff, ne_eq, h.ended_iff hb]
    exact fun hends => hends.2 hid
  have htaken : (outcome events id).taken = false := by
    rw [Bool.eq_false_iff, ne_eq, taken_iff]
    intro htaken
    obtain ⟨e, he, v, hv, rfl⟩ := htaken
    obtain ⟨p, hp, hstate, -⟩ := h.victim_find hb he hv
    have hfind := h.findPieceById_eq hb hp
    have hcaptured := (h.captured_iff hb hp hfind).mpr (.inr ⟨e, he, v, hv, rfl⟩)
    have hmoving := ((h.located GameRules.standard_keepsPieces hb).moving v.id _ hfind).mpr hid
    rw [hcaptured] at hmoving
    cases hmoving
  refine ⟨hended, ?_, htaken, struck_of_taken htaken⟩
  rw [Bool.eq_false_iff]
  intro hlanded
  rw [ended_of_landed hlanded] at hended
  cases hended

end Rests

/-! ### The rests after a tick -/

/-- A rest that a piece has `ms` later, after the events: that of its jump, that of its landing or one from before. -/
def LeftRest (s : GameState) (ms : Int) (events : List SettleEvent) (id : Nat) (rest : ActiveRest) : Prop :=
  (∃ jump ∈ s.activeJumps, jump.pieceId = id ∧ jump.arrivalTime ≤ s.clockMs + ms ∧ rest = shortRest jump) ∨
    (outcome events id).landed = true ∧ (∃ move ∈ s.pendingMoves, move.pieceId = id ∧ rest = longRest move) ∨
    s.activeRests.find? id = some rest

section Games

variable {s : GameState} {ms : Int} {id : Nat} {rest : ActiveRest}

def GameState.dueEvents (s : GameState) (ms : Int) : List SettleEvent :=
  KungFuChess.dueEvents .standard (s.clockMs + ms) s.activeJumps (dueMoves (s.advancedArbiter ms))
    (settleStart (s.advancedArbiter ms) s.board s.gameOver)

/-- The events of a tick: those of the due moves, and what comes back then. -/
theorem GameInv.events_eq_append (h : GameInv s) (ms : Int) : s.events ms = s.dueEvents ms
    ++ backEvents (endedFlights .standard (s.advancedArbiter ms) s.board s.gameOver)
      (settleDue .standard (s.advancedArbiter ms) s.board s.gameOver).board := by
  rw [GameState.events, settleEvents, h.rules]
  rfl

theorem outcome_events (h : GameInv s) (ms : Int) (id : Nat) :
    ((outcome (s.events ms) id).landed = true ↔ (outcome (s.dueEvents ms) id).landed = true) ∧
      (outcome (s.events ms) id).struck = (outcome (s.dueEvents ms) id).struck := by
  obtain ⟨hlanded, hstruck⟩ := outcome_backEvents
    (endedFlights .standard (s.advancedArbiter ms) s.board s.gameOver)
    (settleDue .standard (s.advancedArbiter ms) s.board s.gameOver).board id
  constructor
  · rw [h.events_eq_append, landed_append, hlanded]
    simp
  · rw [h.events_eq_append, struck_append, hstruck, Bool.or_false]

theorem GameInv.trace_due (h : GameInv s) (ms : Int) :
    Trace .standard s.board (flightsOf s.pendingMoves s.activeJumps) (s.dueEvents ms)
      (settleDue .standard (s.advancedArbiter ms) s.board s.gameOver).board
      (flightsOf (flyingMoves (s.advancedArbiter ms)) s.activeJumps) :=
  trace_settleDue (s.advancedArbiter ms) GameRules.standard_keepsPieces s.gameOver h.located h.ends

theorem GameInv.jump_eq (h : GameInv s) {jump other : JumpState} (hjump : jump ∈ s.activeJumps)
    (hother : other ∈ s.activeJumps) (hid : other.pieceId = jump.pieceId) : other = jump := by
  have hids := h.located.idsNodup
  rw [flightsOf, List.map_append, List.map_map, List.map_map] at hids
  exact List.inj_on_of_nodup_map (List.nodup_append.mp hids).2.1 hother hjump hid

theorem GameInv.move_eq (h : GameInv s) {move other : PendingMove} (hmove : move ∈ s.pendingMoves)
    (hother : other ∈ s.pendingMoves) (hid : other.pieceId = move.pieceId) : other = move := by
  have hids := h.located.idsNodup
  rw [flightsOf, List.map_append, List.map_map, List.map_map] at hids
  exact List.inj_on_of_nodup_map (List.nodup_append.mp hids).1 hother hmove hid

theorem find?_enteredRests (h : GameInv s) (hr : RestInv s) :
    (enteredRests s ms).find? id = some rest ↔
      (outcome (s.events ms) id).struck = false ∧ LeftRest s ms (s.events ms) id rest := by
  obtain ⟨hlanded, hstruck⟩ := outcome_events h ms id
  have htrace := h.trace_due ms
  rw [hstruck, LeftRest, hlanded]
  by_cases hjump : ∃ jump ∈ endedJumps (s.advancedArbiter ms), jump.pieceId = id
  · obtain ⟨jump, hmem, rfl⟩ := hjump
    obtain ⟨hactive, hover⟩ := mem_endedJumps.mp hmem
    have hflight : jump.flight ∈ flightsOf s.pendingMoves s.activeJumps :=
      List.mem_append_right _ (List.mem_map_of_mem hactive)
    have hflying : jump.pieceId ∈ (flightsOf (flyingMoves (s.advancedArbiter ms)) s.activeJumps).map Flight.id :=
      List.mem_map.mpr ⟨jump.flight, List.mem_append_right _ (List.mem_map_of_mem hactive), rfl⟩
    obtain ⟨-, hnotLanded, -, hnotStruck⟩ := htrace.outcome_flying h.located hflying
    have hentered : (enteredRests s ms).find? jump.pieceId = some (shortRest jump) :=
      find?_foldl_restJumper _ _ (endedJumps_nodup h ms) hmem
    rw [hentered, hnotLanded, hnotStruck]
    constructor
    · intro hrest
      exact ⟨rfl, .inl ⟨jump, hactive, rfl, hover, (Option.some.inj hrest).symm⟩⟩
    · intro hrest
      obtain ⟨-, ⟨other, hother, hid, -, rfl⟩ | ⟨hfalse, -⟩ | hold⟩ := hrest
      · rw [h.jump_eq hactive hother hid]
      · cases hfalse
      · cases (hr.flying jump.flight hflight).symm.trans hold
  · have hdue := @find?_foldl_settleMove _ (s.clockMs + ms) s.activeJumps
      (dueMoves (s.advancedArbiter ms)) (settleStart (s.advancedArbiter ms) s.board s.gameOver)
      (h.located.perm (dueMoves_append_perm (s.advancedArbiter ms)))
      (fun move hmove => h.ends move (List.mem_filter.mp hmove).1) id rest
    rw [enteredRests, find?_foldl_restJumper_of_ne _ _ _ (fun jump hmem heq => hjump ⟨jump, hmem, heq.symm⟩)]
    refine hdue.trans (and_congr_right fun _ => ?_)
    constructor
    · intro hrest
      obtain ⟨hlands, move, hmem, hid, hlong⟩ | ⟨-, hold⟩ := hrest
      · exact .inr (.inl ⟨hlands, move, (List.mem_filter.mp hmem).1, hid, hlong⟩)
      · exact .inr (.inr hold)
    · intro hrest
      have hended : (outcome (s.dueEvents ms) id).landed = true →
          id ∈ (flightsOf s.pendingMoves s.activeJumps).map Flight.id ∧
            id ∉ (flightsOf (flyingMoves (s.advancedArbiter ms)) s.activeJumps).map Flight.id :=
        fun hlands => (htrace.ended_iff h.located id).mp (ended_of_landed hlands)
      obtain ⟨jump, hactive, hid, hover, -⟩ | ⟨hlands, move, hmove, hid, hlong⟩ | hold := hrest
      · exact absurd ⟨jump, mem_endedJumps.mpr ⟨hactive, hover⟩, hid⟩ hjump
      · have hdue : move.arrivalTime ≤ s.clockMs + ms := by
          by_contra hlate
          have hflying := mem_flyingMoves.mpr ⟨hmove, Int.not_le.mp hlate⟩
          exact (hended hlands).2
            (List.mem_map.mpr ⟨move.flight, List.mem_append_left _ (List.mem_map_of_mem hflying), hid⟩)
        exact .inl ⟨hlands, move, mem_dueMoves hmove hdue, hid, hlong⟩
      · refine .inr ⟨?_, hold⟩
        rw [Bool.eq_false_iff]
        intro hlands
        obtain ⟨f, hf, rfl⟩ := List.mem_map.mp (hended hlands).1
        cases (hr.flying f hf).symm.trans hold

theorem find?_activeRests_advance (h : GameInv s) (hr : RestInv s) :
    (s.advance ms).activeRests.find? id = some rest ↔
      (outcome (s.events ms) id).struck = false ∧ LeftRest s ms (s.events ms) id rest ∧
        s.clockMs + ms < rest.endTimeMs := by
  rw [find?_advance h, Option.filter_eq_some_iff, find?_enteredRests h hr, and_assoc]
  simp

end Games

end KungFuChess
