import KungFuChess.Proof.Pieces

/-!
# Captures

Every capture of a game is an event of a settlement, and an event has at most one victim. The code ends
the game when a king is taken by a landing piece or by a jumper, but the restore path captures whatever
stands on the cell without looking: it neither ends the game nor compares colours. Two properties of
whole games fail for that reason alone, and the theorems below say so: each property holds in a game
exactly if that path does no harm in it.
-/

namespace KungFuChess

open Loops BoardModel

namespace SettleEvent

/-- The piece an event captures. -/
def victim : SettleEvent → Option Piece
  | landed _ _ occupant => occupant
  | shotDown piece _ => some piece
  | putBack _ _ occupant => occupant

/-- The id of the piece responsible for the capture. -/
def culprit : SettleEvent → Nat
  | landed piece _ _ => piece.id
  | shotDown _ jump => jump.pieceId
  | putBack piece _ _ => piece.id

/-- The captures for which the code asks the rules whether the game ends. -/
def endsGame (rules : GameRules) (e : SettleEvent) : Bool := e.gameOverAfter rules false

/-- A piece is put back on a cell with a king. -/
def restoresOntoKing : SettleEvent → Bool
  | putBack _ _ occupant => occupant.any kingCaptureEndsGame
  | _ => false

/-- A piece is put back on a cell with a piece of its own colour. -/
def restoresOntoFriend : SettleEvent → Bool
  | putBack piece _ occupant => occupant.any (·.color == piece.color)
  | _ => false

theorem victim_king (e : SettleEvent) :
    e.victim.any kingCaptureEndsGame = (e.endsGame .standard || e.restoresOntoKing) := by
  cases e <;> simp [victim, endsGame, restoresOntoKing, gameOverAfter, GameRules.standard]

end SettleEvent

/-! ### Captures of one event, and of a trace -/

section Event

variable {b b' : BoardModel} {f : Flight} {flights left : List Flight} {e : SettleEvent}
  {events : List SettleEvent} {p p' v : Piece} {id : Nat}

theorem Fits.victim_find (h : Fits b f e) (hb : Located b (f :: left)) (hv : e.victim = some v) :
    b.findPieceById v.id = some v ∧ v.state ≠ .captured := by
  have hmoving := (hb.moving f.id _ h.piece_eq).mpr (by simp)
  have hid := hb.idsInPlace f.id _ h.piece_eq
  cases h with
  | @landed piece cell hfind htarget hin hcolor =>
      obtain ⟨hvfind, hidle⟩ := (Fits.landed hfind htarget hin hcolor).occupant_idle hb hv
      exact ⟨hvfind, by rw [hidle]; decide⟩
  | shotDown hfind hcolor =>
      cases hv
      simp only [SettleEvent.piece] at hid hmoving
      exact ⟨by rw [hid]; exact hfind, by rw [hmoving]; decide⟩
  | putBack hfind =>
      obtain ⟨hvfind, hidle⟩ := (Fits.putBack hfind).occupant_idle hb hv
      exact ⟨hvfind, by rw [hidle]; decide⟩

/-- An event captures its victim and no one else. -/
theorem Fits.captured_iff (h : Fits b f e) (hb : Located b (f :: left))
    (hp : b.findPieceById id = some p) (hp' : (e.boardAfter .standard b).findPieceById id = some p') :
    p'.state = .captured ↔ p.state = .captured ∨ ∃ v, e.victim = some v ∧ v.id = id := by
  have hafter := h.findPieceById_boardAfter GameRules.standard_keepsPieces hb id
  rw [hp'] at hafter
  by_cases hmine : id = f.id
  · rw [if_pos hmine] at hafter
    cases hafter
    have hmoving := (hb.moving id p hp).mpr (by simp [hmine])
    have hother : ∀ v, e.occupant = some v → v.id ≠ id := by
      intro v hv h
      obtain rfl := h
      obtain ⟨hvfind, hidle⟩ := h.occupant_idle hb hv
      rw [hp] at hvfind
      cases hvfind
      rw [hidle] at hmoving
      cases hmoving
    have hspared : (∀ v, e.victim = some v → e.occupant = some v) →
        ¬(p.state = .captured ∨ ∃ v, e.victim = some v ∧ v.id = id) := by
      intro hvictim h
      rcases h with hcaptured | ⟨v, hv, hvid⟩
      · rw [hmoving] at hcaptured
        cases hcaptured
      · exact hother v (hvictim v hv) hvid
    have hid := hb.idsInPlace f.id _ h.piece_eq
    cases h with
    | landed => exact iff_of_false (by exact PieceState.noConfusion) (hspared fun _ hv => hv)
    | shotDown => exact iff_of_true rfl (.inr ⟨_, rfl, hid.trans hmine.symm⟩)
    | putBack => exact iff_of_false (by exact PieceState.noConfusion) (hspared fun _ hv => hv)
  · rw [if_neg hmine] at hafter
    have hvictim : ∀ v, v.id = id → (e.victim = some v ↔ e.occupant = some v) := by
      intro v hvid
      cases h with
      | landed => exact Iff.rfl
      | @shotDown piece jump hfind hcolor =>
          refine iff_of_false ?_ (by simp [SettleEvent.occupant])
          intro h
          obtain ⟨⟩ := h
          exact hmine (hvid.symm.trans (hb.idsInPlace f.id _ hfind))
      | putBack => exact Iff.rfl
    cases hq : e.occupant with
    | none =>
        rw [hq, hp] at hafter
        cases hafter
        rw [or_iff_left]
        intro h
        obtain ⟨v, hv, hvid⟩ := h
        rw [hvictim v hvid, hq] at hv
        cases hv
    | some q =>
        rw [hq] at hafter
        dsimp only at hafter
        split at hafter
        · rename_i hid
          cases hafter
          exact iff_of_true rfl (.inr ⟨q, (hvictim q hid.symm).mpr hq, hid.symm⟩)
        · rename_i hid
          rw [hp] at hafter
          cases hafter
          rw [or_iff_left]
          intro h
          obtain ⟨v, hv, hvid⟩ := h
          rw [hvictim v hvid, hq] at hv
          cases hv
          exact hid hvid.symm

theorem Fits.exists_find_before (h : Fits b f e)
    (hp' : (e.boardAfter .standard b).findPieceById id = some p') : ∃ p, b.findPieceById id = some p := by
  have htrace : Trace .standard b [f] [e] (e.boardAfter .standard b) [] :=
    .cons (.refl _) h (.nil (.refl _))
  refine Option.isSome_iff_exists.mp ?_
  rw [findPieceById_isSome, ← htrace.pieces_length, ← findPieceById_isSome, hp']
  rfl

theorem Fits.exists_find (h : Fits b f e) (hb : Located b (f :: left)) (hp : b.findPieceById id = some p) :
    ∃ p', (e.boardAfter .standard b).findPieceById id = some p' ∧ p'.color = p.color ∧
      (p'.kind = .king ↔ p.kind = .king) := by
  have htrace : Trace .standard b (f :: left) [e] (e.boardAfter .standard b) left :=
    .cons (.refl _) h (.nil (.refl _))
  obtain ⟨p', hp', hfate⟩ := htrace.fate hb hp
  refine ⟨p', hp', hfate.color, ?_⟩
  rcases hfate.kind with hkind | ⟨hpawn, hqueen, -⟩
  · rw [hkind]
  · rw [hpawn, hqueen]
    decide

theorem Trace.captured_iff (h : Trace .standard b flights events b' left) (hb : Located b flights)
    (hp : b.findPieceById id = some p) (hp' : b'.findPieceById id = some p') :
    p'.state = .captured ↔ p.state = .captured ∨ ∃ e ∈ events, ∃ v, e.victim = some v ∧ v.id = id := by
  induction h generalizing p with
  | nil =>
      rw [hp] at hp'
      cases hp'
      simp
  | @cons b b' f flights left left' e events hperm hfits hrest ih =>
      have hb := hb.perm hperm
      obtain ⟨mid, hmid, -⟩ := hfits.exists_find hb hp
      rw [ih (hfits.located GameRules.standard_keepsPieces hb) hmid hp', hfits.captured_iff hb hp hmid,
        or_assoc]
      simp only [List.mem_cons, exists_eq_or_imp]

/-- An event of a trace happens on a board whose pieces are those the trace starts with. -/
theorem Trace.moment (h : Trace .standard b flights events b' left) (hb : Located b flights)
    (he : e ∈ events) :
    ∃ mid f rest, Located mid (f :: rest) ∧ Fits mid f e ∧
      ∀ id q, mid.findPieceById id = some q → ∃ p, b.findPieceById id = some p ∧ q.color = p.color ∧
        (p.state = .captured → q.state = .captured) := by
  induction h with
  | nil => cases he
  | @cons b b' f flights left left' first events hperm hfits hrest ih =>
      have hb := hb.perm hperm
      rcases List.mem_cons.mp he with rfl | he
      · exact ⟨b, f, left, hb, hfits, fun id q hq => ⟨q, hq, rfl, fun hcaptured => hcaptured⟩⟩
      · obtain ⟨mid, g, rest, hmid, hfits', hsame⟩ :=
          ih (hfits.located GameRules.standard_keepsPieces hb) he
        refine ⟨mid, g, rest, hmid, hfits', fun id q hq => ?_⟩
        obtain ⟨p', hp', hcolor, hstate⟩ := hsame id q hq
        obtain ⟨p, hp⟩ := hfits.exists_find_before hp'
        obtain ⟨next, hnext, hcolor', -⟩ := hfits.exists_find hb hp
        rw [hp'] at hnext
        cases hnext
        refine ⟨p, hp, hcolor.trans hcolor', fun hcaptured => hstate ?_⟩
        exact (hfits.captured_iff hb hp hp').mpr (.inl hcaptured)

theorem Trace.victim_find (h : Trace .standard b flights events b' left) (hb : Located b flights)
    (he : e ∈ events) (hv : e.victim = some v) :
    ∃ p, b.findPieceById v.id = some p ∧ p.state ≠ .captured ∧ v.color = p.color := by
  obtain ⟨mid, f, rest, hmid, hfits, hsame⟩ := h.moment hb he
  obtain ⟨hfind, hstate⟩ := hfits.victim_find hmid hv
  obtain ⟨p, hp, hcolor, hcaptured⟩ := hsame v.id v hfind
  exact ⟨p, hp, fun hlost => hstate (hcaptured hlost), hcolor⟩

/-- Some king of the table has been captured. -/
def KingCaptured (b : BoardModel) : Prop :=
  ∃ id p, b.findPieceById id = some p ∧ p.kind = .king ∧ p.state = .captured

theorem Trace.kingCaptured_iff (h : Trace .standard b flights events b' left) (hb : Located b flights) :
    KingCaptured b' ↔ KingCaptured b ∨ ∃ e ∈ events, e.victim.any kingCaptureEndsGame = true := by
  induction h with
  | nil => simp
  | @cons b b' f flights left left' e events hperm hfits hrest ih =>
      have hb := hb.perm hperm
      have hone : KingCaptured (e.boardAfter .standard b)
          ↔ KingCaptured b ∨ e.victim.any kingCaptureEndsGame = true := by
        constructor
        · intro h
          obtain ⟨id, p', hp', hking, hcaptured⟩ := h
          obtain ⟨p, hp⟩ := hfits.exists_find_before hp'
          obtain ⟨mid, hmid, -, hkind⟩ := hfits.exists_find hb hp
          rw [hp'] at hmid
          cases hmid
          rcases (hfits.captured_iff hb hp hp').mp hcaptured with hold | ⟨v, hv, rfl⟩
          · exact .inl ⟨id, p, hp, hkind.mp hking, hold⟩
          · have hvfind := (hfits.victim_find hb hv).1
            rw [hp] at hvfind
            cases hvfind
            exact .inr (by simp [hv, kingCaptureEndsGame, hkind.mp hking])
        · intro h
          rcases h with ⟨id, p, hp, hking, hcaptured⟩ | hvictim
          · obtain ⟨p', hp', -, hkind⟩ := hfits.exists_find hb hp
            exact ⟨id, p', hp', hkind.mpr hking, (hfits.captured_iff hb hp hp').mpr (.inl hcaptured)⟩
          · obtain ⟨v, hv, hking⟩ : ∃ v, e.victim = some v ∧ kingCaptureEndsGame v = true := by
              cases hv : e.victim with
              | none => simp [hv] at hvictim
              | some v => exact ⟨v, rfl, by simpa [hv] using hvictim⟩
            have hvfind := (hfits.victim_find hb hv).1
            obtain ⟨p', hp', -, hkind⟩ := hfits.exists_find hb hvfind
            exact ⟨v.id, p', hp', hkind.mpr (by simpa [kingCaptureEndsGame] using hking),
              (hfits.captured_iff hb hvfind hp').mpr (.inr ⟨v, hv, rfl⟩)⟩
      rw [ih (hfits.located GameRules.standard_keepsPieces hb), hone, or_assoc]
      simp only [List.mem_cons, exists_eq_or_imp]

end Event

/-! ### The game-over flag -/

section GameOver

variable {s s' : GameState} {a : GameAction} {board : BoardModel} {actions : List GameAction}

theorem settleDue_gameOver (rules : GameRules) (clockMs : Int) (jumps : List JumpState)
    (moves : List PendingMove) (s : Settling) :
    (moves.foldl (settleMove rules clockMs jumps) s).gameOver
      = (s.gameOver || (dueEvents rules clockMs jumps moves s).any (SettleEvent.endsGame rules)) := by
  induction moves generalizing s with
  | nil => simp [dueEvents]
  | cons move moves ih =>
      have hstep : (settleMove rules clockMs jumps s move).gameOver
          = (s.gameOver || (dueEvent clockMs jumps s.board move).endsGame rules) := by
        simp only [settleMove, SettleEvent.endsGame]
        cases dueEvent clockMs jumps s.board move <;> simp [SettleEvent.gameOverAfter]
      rw [List.foldl_cons, ih, hstep, dueEvents, List.any_cons, Bool.or_assoc]

theorem backEvents_endsGame (rules : GameRules) (flights : List Flight) (b : BoardModel) :
    (backEvents flights b).any (SettleEvent.endsGame rules) = false := by
  induction flights generalizing b with
  | nil => rfl
  | cons f flights ih => simp [backEvents, SettleEvent.endsGame, SettleEvent.gameOverAfter, ih]

theorem advance_gameOver (s : GameState) (ms : Int) :
    (s.advance ms).gameOver = (s.gameOver || (s.events ms).any (SettleEvent.endsGame s.rules)) := by
  rw [GameState.events, settleEvents, List.any_append, backEvents_endsGame, Bool.or_false]
  exact settleDue_gameOver _ _ _ _ _

theorem GameInv.kingCaptured_advance (h : GameInv s) (ms : Int) :
    KingCaptured (s.advance ms).board ↔ KingCaptured s.board ∨
      (∃ e ∈ s.events ms, e.endsGame .standard = true) ∨ ∃ e ∈ s.events ms, e.restoresOntoKing = true := by
  rw [(h.trace ms).kingCaptured_iff h.located]
  simp only [SettleEvent.victim_king, Bool.or_eq_true, and_or_left, exists_or]

theorem kingCaptured_lift {flights : List Flight} {b : BoardModel} {p : Piece} {row col : Nat}
    (hb : Located b flights) (hp : b.pieceAt row col = some p) :
    KingCaptured (b.lift p row col) ↔ KingCaptured b := by
  have hpfind := (hb.pieceAt_eq_some_iff.mp hp).2
  have hidle := (hb.idle_of_pieceAt hp).1
  have hfind : ∀ id, (b.lift p row col).findPieceById id
      = if id = p.id then some { p with state := .moving } else b.findPieceById id :=
    fun id => findPieceById_setPiece (p := { p with state := .moving }) hpfind id
  constructor
  · intro h
    obtain ⟨id, q, hq, hking, hcaptured⟩ := h
    rw [hfind] at hq
    split at hq
    · cases hq
      cases hcaptured
    · exact ⟨id, q, hq, hking, hcaptured⟩
  · intro h
    obtain ⟨id, q, hq, hking, hcaptured⟩ := h
    refine ⟨id, q, ?_, hking, hcaptured⟩
    rw [hfind, if_neg]
    · exact hq
    · intro h
      obtain rfl := h
      rw [hpfind] at hq
      cases hq
      rw [hidle] at hcaptured
      cases hcaptured

/-- A king that a piece is put back on is counted: the game is over already, or another king falls to a
landing or a jump in the same settlement. -/
def CountsRestoredKings (s : GameState) : GameAction → Prop
  | .advanceClock ms => (∃ e ∈ s.events ms, e.restoresOntoKing = true) →
      s.gameOver = true ∨ ∃ e ∈ s.events ms, e.endsGame .standard = true
  | _ => True

/-- The flag stays exact over a step exactly if the restored kings are counted. -/
theorem GameStep.gameOver_exact (h : GameInv s) (hexact : s.isGameOver = true ↔ KingCaptured s.board)
    (hstep : GameStep s a s') :
    (s'.isGameOver = true ↔ KingCaptured s'.board) ↔ CountsRestoredKings s a := by
  cases hstep with
  | quiet ha selected =>
      refine iff_of_true hexact ?_
      cases a with
      | advanceClock ms => cases ha
      | _ => trivial
  | moveStarted _ hp _ _ _ =>
      exact iff_of_true (hexact.trans (kingCaptured_lift h.located hp).symm) trivial
  | @jumpStarted a p cell selected haction hp hnew =>
      refine iff_of_true (hexact.trans (kingCaptured_lift h.located hp).symm) ?_
      rcases haction with rfl | ⟨rfl, -⟩ <;> trivial
  | settled ms =>
      have hflag : (s.advance ms).isGameOver = true
          ↔ s.isGameOver = true ∨ ∃ e ∈ s.events ms, e.endsGame .standard = true := by
        rw [GameState.isGameOver, advance_gameOver, h.rules, Bool.or_eq_true, List.any_eq_true]
        rfl
      rw [hflag, h.kingCaptured_advance ms, ← hexact, ← or_assoc]
      constructor
      · intro hiff hrestored
        exact hiff.mpr (.inr hrestored)
      · intro hcounts
        refine ⟨.inl, ?_⟩
        intro h
        rcases h with hdone | hrestored
        · exact hdone
        · exact hcounts hrestored

/-- The game-over flag is exact in every state of a game exactly if every step of the game counts the
kings that pieces are put back on. -/
theorem gameOver_exact_iff (hboard : AcceptedBoard board) (actions : List GameAction) :
    (∀ s, Visits board actions s → (s.isGameOver = true ↔ KingCaptured s.board)) ↔
      ∀ s a s', Takes board actions s a s' → CountsRestoredKings s a := by
  constructor
  · intro hexact s a s' htakes
    have hinv := htakes.visits.1.inv hboard
    have hstep := htakes.gameStep hboard
    exact (hstep.gameOver_exact hinv (hexact s htakes.visits.1)).mp (hexact s' htakes.visits.2)
  · intro hcounts s hvisits
    refine hvisits.induction (P := fun s => s.isGameOver = true ↔ KingCaptured s.board) ?_ ?_
    · refine iff_of_false (by simp [GameState.isGameOver, GameState.new]) ?_
      intro h
      obtain ⟨id, p, hp, -, hcaptured⟩ := h
      rw [hboard.idle hp] at hcaptured
      cases hcaptured
    · intro s a s' htakes hexact
      have hinv := htakes.visits.1.inv hboard
      exact ((htakes.gameStep hboard).gameOver_exact hinv hexact).mpr (hcounts s a s' htakes)

/-- A rook that jumps while the king beside it moves onto its cell comes down on the king. -/
theorem gameOver_not_exact :
    ¬∀ s, Reachable s → (s.isGameOver = true ↔ KingCaptured s.board) := by
  intro hexact
  have hrun : (fun s => (s.isGameOver, s.board.findPieceById 2)) <$>
      (GameState.new duelBoard).runActions
        [.jumpAt 0 0, .advanceClock 500, .select 0 1, .moveSelected 0 0, .advanceClock 1500]
      = .ok (false, some ⟨2, .black, .king, ⟨0, 0⟩, .captured⟩) := by decide
  obtain ⟨s, hs, hshown⟩ := map_eq_ok.mp hrun
  obtain ⟨hflag, hking⟩ := Prod.mk.inj hshown
  have hover := (hexact s ⟨duelBoard, duelBoard_accepted, _, hs⟩).mpr ⟨2, _, hking, rfl, rfl⟩
  rw [hflag] at hover
  cases hover

theorem gameOver_exact_iff_duel :
    AcceptedBoard duelBoard ∧
      ((∀ s, Visits duelBoard [.select 0 0, .moveSelected 0 1, .advanceClock 1000] s →
          (s.isGameOver = true ↔ KingCaptured s.board)) ↔
        ∀ s a s', Takes duelBoard [.select 0 0, .moveSelected 0 1, .advanceClock 1000] s a s' →
          CountsRestoredKings s a) :=
  ⟨duelBoard_accepted, gameOver_exact_iff duelBoard_accepted _⟩

end GameOver

/-! ### Captures of one's own pieces -/

/-- The piece `culprit` is responsible for the capture of `id` in a step. -/
def Responsible (s : GameState) (a : GameAction) (id culprit : Nat) : Prop :=
  ∃ ms, a = .advanceClock ms ∧
    ∃ e ∈ s.events ms, e.culprit = culprit ∧ ∃ v, e.victim = some v ∧ v.id = id

/-- Whoever is captured in a step is captured by a piece of the other colour. -/
def CapturesOpponents (s : GameState) (a : GameAction) (s' : GameState) : Prop :=
  ∀ id p p', s.board.findPieceById id = some p → p.state ≠ .captured →
    s'.board.findPieceById id = some p' → p'.state = .captured →
    (∃ culprit, Responsible s a id culprit) ∧
      ∀ culprit, Responsible s a id culprit →
        ∃ q, s.board.findPieceById culprit = some q ∧ q.color ≠ p.color

/-- A piece is put back on a cell that a piece of its own colour has taken meanwhile. -/
def RestoresOntoFriend (s : GameState) : GameAction → Prop
  | .advanceClock ms => ∃ e ∈ s.events ms, e.restoresOntoFriend = true
  | _ => False

section FriendlyFire

variable {s s' : GameState} {a : GameAction} {board : BoardModel} {e : SettleEvent} {v : Piece} {ms : Int}

theorem shotDown_mem_dueEvents {rules : GameRules} {clockMs : Int} {jumps : List JumpState}
    {moves : List PendingMove} {st : Settling} {p : Piece} {jump : JumpState}
    (h : .shotDown p jump ∈ dueEvents rules clockMs jumps moves st) : jump ∈ jumps := by
  induction moves generalizing st with
  | nil => cases h
  | cons move moves ih =>
      rcases List.mem_cons.mp h with heq | h
      · unfold dueEvent at heq
        dsimp only at heq
        split at heq
        · split at heq
          · rename_i found hfound
            cases heq
            exact List.mem_of_find?_eq_some hfound
          · cases heq
        · cases heq
      · exact ih h

theorem shotDown_not_mem_backEvents {flights : List Flight} {b : BoardModel} {p : Piece} {jump : JumpState} :
    .shotDown p jump ∉ backEvents flights b := by
  induction flights generalizing b with
  | nil => exact List.not_mem_nil
  | cons f flights ih =>
      intro h
      rcases List.mem_cons.mp h with heq | h
      · cases heq
      · exact ih h

/-- The piece responsible for a capture, with its colour: of the victim's own colour only if it was put
back. -/
theorem GameInv.culprit_find (h : GameInv s) (he : e ∈ s.events ms) (hv : e.victim = some v) :
    ∃ q, s.board.findPieceById e.culprit = some q ∧
      (q.color = v.color ↔ e.restoresOntoFriend = true) := by
  obtain ⟨mid, f, rest, hmid, hfits, hsame⟩ := (h.trace ms).moment h.located he
  have hid := hmid.idsInPlace f.id _ hfits.piece_eq
  obtain ⟨q, hq, hcolor, -⟩ := hsame f.id e.piece hfits.piece_eq
  cases hfits with
  | @landed piece cell hfind htarget hin hcolor' =>
      rw [← hid] at hq
      refine ⟨q, hq, iff_of_false ?_ (by simp [SettleEvent.restoresOntoFriend])⟩
      intro heq
      exact hcolor' v hv (heq.symm.trans hcolor.symm)
  | @shotDown piece jump hfind hcolor' =>
      have hjump : jump ∈ s.activeJumps := by
        rcases List.mem_append.mp he with he | he
        · exact shotDown_mem_dueEvents he
        · exact absurd he shotDown_not_mem_backEvents
      have hflight : jump.flight ∈ flightsOf s.pendingMoves s.activeJumps :=
        List.mem_append_right _ (List.mem_map_of_mem hjump)
      obtain ⟨jumper, hjumper, hjcolor, -⟩ := h.located.flightPiece jump.flight hflight
      cases hv
      refine ⟨jumper, hjumper, iff_of_false ?_ (by simp [SettleEvent.restoresOntoFriend])⟩
      intro heq
      exact hcolor' (heq.symm.trans hjcolor)
  | @putBack piece hfind =>
      rw [← hid] at hq
      refine ⟨q, hq, ?_⟩
      have hoccupant : mid.pieceAt f.origin.1 f.origin.2 = some v := hv
      simp only [SettleEvent.piece] at hcolor
      simp only [SettleEvent.restoresOntoFriend, hoccupant, Option.any_some, beq_iff_eq, hcolor]
      exact eq_comm

/-- A step that captures no one. -/
theorem capturesOpponents_of_lift {flights : List Flight} {p : Piece} {row col : Nat}
    (hb : Located s.board flights) (hp : s.board.pieceAt row col = some p)
    (hboard : s'.board = s.board.lift p row col) : CapturesOpponents s a s' := by
  have hpfind := (hb.pieceAt_eq_some_iff.mp hp).2
  intro id q q' hq hstate hq' hcaptured
  rw [hboard] at hq'
  have hfind := findPieceById_setPiece (p := { p with state := .moving }) hpfind id
  rw [BoardModel.lift, findPieceById_setCell, hfind] at hq'
  split at hq'
  · cases hq'
    cases hcaptured
  · rw [hq] at hq'
    cases hq'
    exact absurd hcaptured hstate

theorem GameInv.capturesOpponents_advance (h : GameInv s) (ms : Int) :
    CapturesOpponents s (.advanceClock ms) (s.advance ms) ↔ ¬RestoresOntoFriend s (.advanceClock ms) := by
  have htrace := h.trace ms
  constructor
  · intro hopponents h
    obtain ⟨e, he, hfriend⟩ := h
    obtain ⟨v, hv⟩ : ∃ v, e.victim = some v := by
      cases e with
      | landed => cases hfriend
      | shotDown => cases hfriend
      | putBack piece cell occupant =>
          cases occupant with
          | none => cases hfriend
          | some v => exact ⟨v, rfl⟩
    obtain ⟨p, hp, hstate, hcolor⟩ := htrace.victim_find h.located he hv
    obtain ⟨p', hp', -⟩ := htrace.fate h.located hp
    have hcaptured := (htrace.captured_iff h.located hp hp').mpr (.inr ⟨e, he, v, hv, rfl⟩)
    obtain ⟨q, hq, hqcolor⟩ := (hopponents v.id p p' hp hstate hp' hcaptured).2 e.culprit
      ⟨ms, rfl, e, he, rfl, v, hv, rfl⟩
    obtain ⟨q', hq', hiff⟩ := h.culprit_find he hv
    rw [hq] at hq'
    cases hq'
    exact hqcolor ((hiff.mpr hfriend).trans hcolor)
  · intro hnone id p p' hp hstate hp' hcaptured
    constructor
    · rcases (htrace.captured_iff h.located hp hp').mp hcaptured with hold | ⟨e, he, v, hv, hvid⟩
      · exact absurd hold hstate
      · exact ⟨e.culprit, ms, rfl, e, he, rfl, v, hv, hvid⟩
    · intro culprit h
      obtain ⟨ms', ⟨⟩, e, he, rfl, v, hv, rfl⟩ := h
      obtain ⟨q, hq, hiff⟩ := h.culprit_find he hv
      obtain ⟨p₀, hp₀, -, hcolor⟩ := htrace.victim_find h.located he hv
      rw [hp] at hp₀
      cases hp₀
      refine ⟨q, hq, fun heq => hnone ⟨e, he, ?_⟩⟩
      exact hiff.mp (heq.trans hcolor.symm)

theorem GameStep.capturesOpponents (h : GameInv s) (hstep : GameStep s a s') :
    CapturesOpponents s a s' ↔ ¬RestoresOntoFriend s a := by
  cases hstep with
  | quiet ha selected =>
      refine iff_of_true ?_ ?_
      · intro id p p' hp hstate hp' hcaptured
        rw [show s.board.findPieceById id = some p' from hp'] at hp
        cases hp
        exact absurd hcaptured hstate
      · cases a with
        | advanceClock ms => cases ha
        | _ => exact not_false
  | moveStarted _ hp _ _ _ => exact iff_of_true (capturesOpponents_of_lift h.located hp rfl) not_false
  | @jumpStarted a p cell selected haction hp hnew =>
      refine iff_of_true (capturesOpponents_of_lift h.located hp rfl) ?_
      rcases haction with rfl | ⟨rfl, -⟩ <;> exact not_false
  | settled ms => exact h.capturesOpponents_advance ms

/-- No step of a game captures a piece of the capturer's own colour, exactly if no step puts a piece back
on a cell with one. -/
theorem capturesOpponents_iff (hboard : AcceptedBoard board) (actions : List GameAction) :
    (∀ s a s', Takes board actions s a s' → CapturesOpponents s a s') ↔
      ∀ s a s', Takes board actions s a s' → ¬RestoresOntoFriend s a := by
  have hstep : ∀ s a s', Takes board actions s a s' →
      (CapturesOpponents s a s' ↔ ¬RestoresOntoFriend s a) :=
    fun s a s' htakes => (htakes.gameStep hboard).capturesOpponents (htakes.visits.1.inv hboard)
  constructor
  · intro hopponents s a s' htakes
    exact (hstep s a s' htakes).mp (hopponents s a s' htakes)
  · intro hnone s a s' htakes
    exact (hstep s a s' htakes).mpr (hnone s a s' htakes)

theorem capturesOpponents_iff_duel :
    AcceptedBoard duelBoard ∧
      ((∀ s a s', Takes duelBoard [.select 0 0, .moveSelected 0 1, .advanceClock 1000] s a s' →
          CapturesOpponents s a s') ↔
        ∀ s a s', Takes duelBoard [.select 0 0, .moveSelected 0 1, .advanceClock 1000] s a s' →
          ¬RestoresOntoFriend s a) :=
  ⟨duelBoard_accepted, capturesOpponents_iff duelBoard_accepted _⟩

/-- A white rook beside its own king. -/
def guardBoard : BoardModel :=
  ⟨[[some 1, some 2]],
    [⟨1, .white, .rook, ⟨0, 0⟩, .idle⟩, ⟨2, .white, .king, ⟨0, 1⟩, .idle⟩]⟩

/-- The king moves under its own jumping rook, which comes down on it. -/
theorem not_capturesOpponents :
    ¬∀ board, AcceptedBoard board → ∀ actions s a s', Takes board actions s a s' →
      CapturesOpponents s a s' := by
  intro hopponents
  have haccepted : AcceptedBoard guardBoard := ⟨["wR wK".toList], ⟨[], []⟩, by decide⟩
  have hrun : (fun s => s.board.pieces) <$>
      (GameState.new guardBoard).runActions [.jumpAt 0 0, .select 0 1, .moveSelected 0 0]
      = .ok [⟨1, .white, .rook, ⟨0, 0⟩, .moving⟩, ⟨2, .white, .king, ⟨0, 1⟩, .moving⟩] := by decide
  have hend : (fun s => s.board.findPieceById 2) <$> (GameState.new guardBoard).runActions
      ([.jumpAt 0 0, .select 0 1, .moveSelected 0 0] ++ [.advanceClock 1000])
      = .ok (some ⟨2, .white, .king, ⟨0, 0⟩, .captured⟩) := by decide
  obtain ⟨s, hs, hpieces⟩ := map_eq_ok.mp hrun
  obtain ⟨s', hs', hlost⟩ := map_eq_ok.mp hend
  have hstep : s.applyAction (.advanceClock 1000) = .ok s' := by
    rw [GameState.runActions, List.foldlM_append] at hs'
    obtain ⟨mid, hmid, hlast⟩ := bind_eq_ok.mp hs'
    cases hs.symm.trans hmid
    rw [List.foldlM_cons] at hlast
    obtain ⟨last, happly, hdone⟩ := bind_eq_ok.mp hlast
    cases hdone
    exact happly
  have hwhite : ∀ id q, s.board.findPieceById id = some q → q.color = .white := by
    intro id q hq
    have hmem := List.mem_of_getElem? (findPieceById_eq_some.mp hq).2
    rw [hpieces] at hmem
    simp only [List.mem_cons, List.not_mem_nil, or_false] at hmem
    rcases hmem with rfl | rfl <;> rfl
  have hking : s.board.findPieceById 2 = some ⟨2, .white, .king, ⟨0, 1⟩, .moving⟩ :=
    findPieceById_eq_some.mpr ⟨by decide, by rw [hpieces]; rfl⟩
  have htakes : Takes guardBoard
      ([.jumpAt 0 0, .select 0 1, .moveSelected 0 0] ++ .advanceClock 1000 :: []) s (.advanceClock 1000) s' :=
    ⟨_, _, rfl, hs, hstep⟩
  obtain ⟨⟨culprit, hresponsible⟩, hcolor⟩ :=
    hopponents guardBoard haccepted _ s _ s' htakes 2 _ _ hking (by decide) hlost rfl
  obtain ⟨q, hq, hne⟩ := hcolor culprit hresponsible
  exact hne (hwhite culprit q hq)

end FriendlyFire

end KungFuChess
