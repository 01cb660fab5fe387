import Mathlib.Data.List.Perm.Lattice
import Mathlib.Data.List.ProdSigma
import KungFuChess.Model.View
import KungFuChess.Proof.Pieces
import KungFuChess.Proof.Snapshot

/-!
# The view of a game is its pieces

A view is put together from the grid and from the two queues. Between two actions every entry of the queues is still to
come down, so all of them are shown; and since the grid, the queues and the table agree on where the pieces are, the
cells and the entries together are the pieces that are left, each of them once.
-/

namespace KungFuChess

open Loops BoardModel

/-! ### Kinds that have a letter -/

theorem descriptorFromToken_kind {token : Text} {d : PieceDescriptor} (h : descriptorFromToken token = some d) :
    d.kind ≠ .count := by
  obtain ⟨-, c, -, -, hkind⟩ := descriptorFromToken_eq_some h
  obtain ⟨entry, hentry, hsame⟩ := Option.map_eq_some_iff.mp hkind
  have hplayable : ∀ entry ∈ kPieceKindMappings, entry.1 ≠ .count := by decide
  rw [← hsame]
  exact hplayable entry (List.mem_of_find?_eq_some hentry)

/-- Every piece of a game has a kind with a letter of its own. -/
def Playable (b : BoardModel) : Prop := ∀ id p, b.findPieceById id = some p → p.kind ≠ .count

theorem AcceptedBoard.playable {board : BoardModel} (h : AcceptedBoard board) : Playable board := by
  obtain ⟨lines, before, hparse⟩ := h
  have hlaid := (parseBoardRows_laid hparse).1.toLaid
  intro id p hp
  obtain ⟨row, col, hcell⟩ := hlaid.onGrid id p hp
  obtain ⟨token, d, -, hd, hfind⟩ := hlaid.piece_of_cellId hcell
  cases hp.symm.trans hfind
  exact descriptorFromToken_kind hd

theorem PieceStep.playable {s s' : GameState} (hstep : PieceStep s s') (h : Playable s.board) : Playable s'.board := by
  intro id p' hp'
  have hsome : (s.board.findPieceById id).isSome = true := by rw [← hstep.ids, hp', Option.isSome_some]
  obtain ⟨p, hp⟩ := Option.isSome_iff_exists.mp hsome
  by_cases hkind : p'.kind = p.kind
  · exact hkind ▸ h id p hp
  · rw [(hstep.kind id p p' hp hp' hkind).2.1]
    decide

theorem Reachable.playable {s : GameState} (h : Reachable s) : Playable s.board := by
  refine h.induction (P := fun s => Playable s.board) (fun board hboard => hboard.playable) ?_
  intro mid a next hreach hstep hplayable
  obtain ⟨next', hnext, hgame⟩ := applyAction_step hreach.inv a
  cases hnext.symm.trans hstep
  exact (hgame.pieceStep hreach.inv).playable hplayable

/-! ### The cells of a view -/

section Cells

variable {F : Type} (floats : FloatRatio F) {s : GameState} {row col : Nat}

theorem getElem?_product {α β : Type} (xs : List α) (ys : List β) {i j : Nat} {x : α} {y : β} (hx : xs[i]? = some x)
    (hy : ys[j]? = some y) : (xs ×ˢ ys)[i * ys.length + j]? = some (x, y) := by
  obtain ⟨hj, -⟩ := List.getElem?_eq_some_iff.mp hy
  induction xs generalizing i with
  | nil => cases hx
  | cons first xs ih =>
      rw [List.product_cons]
      cases i with
      | zero =>
          cases hx
          rw [Nat.zero_mul, Nat.zero_add, List.getElem?_append_left (by simpa using hj), List.getElem?_map, hy]
          rfl
      | succ i =>
          have hskip : (i + 1) * ys.length + j - ys.length = i * ys.length + j := by
            rw [Nat.succ_mul]
            omega
          rw [List.getElem?_append_right (by rw [List.length_map, Nat.succ_mul]; omega), List.length_map, hskip]
          exact ih hx

/-- The cells of a board, row by row. -/
def gridCells (rows cols : Nat) : List Cell := List.range rows ×ˢ List.range cols

theorem mem_gridCells {rows cols : Nat} {cell : Cell} : cell ∈ gridCells rows cols ↔ cell.1 < rows ∧ cell.2 < cols := by
  rw [gridCells, List.mem_product, List.mem_range, List.mem_range]

@[simp] theorem height_buildBoardView (s : GameState) : (buildBoardView floats s).height = s.rows := rfl

@[simp] theorem width_buildBoardView (s : GameState) : (buildBoardView floats s).width = s.cols := rfl

theorem cells_buildBoardView (s : GameState) :
    (buildBoardView floats s).cells =
      (gridCells s.rows s.cols).map fun cell => cellViewOf (s.tokenAt cell.1 cell.2) := by
  show (List.range s.rows).flatMap (fun row => (List.range s.cols).map fun col => cellViewOf (s.tokenAt row col)) = _
  rw [gridCells, show List.range s.rows ×ˢ List.range s.cols =
    (List.range s.rows).flatMap fun row => (List.range s.cols).map (Prod.mk row) from rfl, List.map_flatMap]
  simp only [List.map_map]
  rfl

theorem boardViewCellAt_build (hrow : row < s.rows) (hcol : col < s.cols) :
    boardViewCellAt (buildBoardView floats s) row col = cellViewOf (s.tokenAt row col) := by
  have hentry : (gridCells s.rows s.cols)[row * s.cols + col]? = some (row, col) := by
    have hproduct := getElem?_product (List.range s.rows) (List.range s.cols) (List.getElem?_range hrow)
      (List.getElem?_range hcol)
    rwa [List.length_range] at hproduct
  have hin : ¬(row ≥ s.rows ∨ col ≥ s.cols) := by omega
  have hcell := congrArg (Option.map fun cell : Cell => cellViewOf (s.tokenAt cell.1 cell.2)) hentry
  rw [← List.getElem?_map, ← cells_buildBoardView floats] at hcell
  rw [boardViewCellAt, height_buildBoardView, width_buildBoardView, if_neg hin, boardViewCellIndex, hcell]
  rfl

/-- A cell shows the piece on it. -/
theorem cellViewOf_tokenAt (hplayable : Playable s.board) (row col : Nat) :
    (cellViewOf (s.tokenAt row col)).piece = (s.board.pieceAt row col).map fun p => ⟨p.kind, p.color⟩ := by
  unfold GameState.tokenAt BoardModel.tokenAt cellViewOf
  cases hp : s.board.pieceAt row col with
  | none =>
      have hempty : descriptorFromToken [kEmptyToken] = none := by decide
      simp only [hempty, Option.map_none]
  | some p =>
      obtain ⟨id, hid⟩ : ∃ id, s.board.findPieceById id = some p := by
        rw [pieceAt] at hp
        split at hp
        · obtain ⟨id, -, hfind⟩ := Option.bind_eq_some_iff.mp hp
          exact ⟨id, hfind⟩
        · cases hp
      simp only [descriptorFromToken_playable p.color (hplayable id p hid), Option.map_some]

/-- Off the board there is nothing to see, and no piece. -/
theorem boardViewPieceAt_build (hplayable : Playable s.board) (row col : Nat) :
    boardViewPieceAt (buildBoardView floats s) row col =
      (s.board.pieceAt row col).map fun p => ⟨p.kind, p.color⟩ := by
  by_cases hin : s.board.InBounds row col
  · rw [boardViewPieceAt, boardViewCellAt_build floats hin.1 hin.2, cellViewOf_tokenAt hplayable]
  · have hout : row ≥ s.rows ∨ col ≥ s.cols := by
      by_contra hboth
      simp only [ge_iff_le, not_or, Nat.not_le] at hboth
      exact hin hboth
    have hnone : s.board.pieceAt row col = none := by
      rw [pieceAt, if_neg (fun hbounds => hin (isInBounds_iff.mp hbounds))]
    rw [boardViewPieceAt, boardViewCellAt, height_buildBoardView, width_buildBoardView, if_pos hout, hnone]
    rfl

end Cells

/-! ### The entries of a view -/

/-- One thing that a view shows. -/
inductive Shown (F : Type) where
  | cell (cell : Cell) (piece : PieceView)
  | move (move : ActiveMoveSnapshot F)
  | jump (jump : ActiveJumpSnapshot F)

section Entries

variable {F : Type} (floats : FloatRatio F) {s : GameState}

/-- The occupied cells of a view, its moves and its jumps. -/
def shown (view : BoardViewModel F) : List (Shown F) :=
  (gridCells view.height view.width).filterMap (fun cell =>
      (boardViewPieceAt view cell.1 cell.2).map (Shown.cell cell))
    ++ view.animations.moves.map .move ++ view.animations.jumps.map .jump

/-- The entry is that of the piece: with what it is now, and where it stands or flies. -/
inductive ShownAs (s : GameState) (p : Piece) : Shown F → Prop where
  | standing {cell : Cell} (hstate : p.state = .idle) (hp : s.board.pieceAt cell.1 cell.2 = some p) :
      ShownAs s p (.cell cell ⟨p.kind, p.color⟩)
  | moving {move : PendingMove} {progress : F} (hstate : p.state = .moving) (hmove : move ∈ s.pendingMoves)
      (hid : move.pieceId = p.id) :
      ShownAs s p (.move ⟨.ofNat p.id, p.kind, p.color, move.startPos.1, move.startPos.2, move.endPos.1,
        move.endPos.2, progress⟩)
  | jumping {jump : JumpState} {progress : F} (hstate : p.state = .moving) (hjump : jump ∈ s.activeJumps)
      (hid : jump.pieceId = p.id) :
      ShownAs s p (.jump ⟨.ofNat p.id, p.kind, p.color, jump.cell.1, jump.cell.2, progress⟩)

def showMove (clockMs : Int) (move : PendingMove) : ActiveMoveSnapshot F :=
  ⟨.ofNat move.pieceId, move.kind, move.color, move.startPos.1, move.startPos.2, move.endPos.1, move.endPos.2,
    computeAnimationProgress floats clockMs move.startTime move.arrivalTime⟩

def showJump (clockMs : Int) (jump : JumpState) : ActiveJumpSnapshot F :=
  ⟨.ofNat jump.pieceId, jump.kind, jump.color, jump.cell.1, jump.cell.2,
    computeAnimationProgress floats clockMs jump.startTime jump.arrivalTime⟩

/-- Between two actions all moves are shown. -/
theorem moves_buildBoardView (h : GameInv s) :
    (buildBoardView floats s).animations.moves = s.pendingMoves.map (showMove floats s.clockMs) := by
  rw [← List.filterMap_eq_map]
  refine List.filterMap_congr fun move hmove => if_neg ?_
  exact Int.not_le.mpr (h.movesFlying move hmove)

theorem jumps_buildBoardView (h : GameInv s) :
    (buildBoardView floats s).animations.jumps = s.activeJumps.map (showJump floats s.clockMs) := by
  rw [← List.filterMap_eq_map]
  refine List.filterMap_congr fun jump hjump => if_neg ?_
  exact Int.not_le.mpr (h.jumpsFlying jump hjump)

/-- Whose the entries of the view are, in the same order. -/
def owners (s : GameState) : List Piece :=
  (gridCells s.rows s.cols).filterMap (fun cell => s.board.pieceAt cell.1 cell.2)
    ++ s.pendingMoves.map (fun move => s.board.pieceOf move.pieceId)
    ++ s.activeJumps.map (fun jump => s.board.pieceOf jump.pieceId)

theorem shownAs_owners (h : GameInv s) (hplayable : Playable s.board) :
    List.Forall₂ (ShownAs s) (owners s) (shown (buildBoardView floats s)) := by
  have hflight : ∀ f ∈ flightsOf s.pendingMoves s.activeJumps, ∃ p, s.board.pieceOf f.id = p ∧
      p.id = f.id ∧ p.color = f.color ∧ p.kind = f.kind ∧ p.state = .moving := by
    intro f hf
    obtain ⟨p, hp, hcolor, hkind⟩ := h.located.flightPiece f hf
    exact ⟨p, pieceOf_eq hp, h.located.idsInPlace _ p hp, hcolor, hkind,
      (h.located.moving _ p hp).mpr (List.mem_map_of_mem hf)⟩
  refine List.rel_append (List.rel_append ?_ ?_) ?_
  · refine List.rel_filterMap (R := (· = ·)) ?_ (List.forall₂_refl _)
    rintro cell _ rfl
    dsimp only
    rw [boardViewPieceAt_build floats hplayable]
    cases hp : s.board.pieceAt cell.1 cell.2 with
    | none => exact .none
    | some p => exact .some (.standing (h.located.idle_of_pieceAt hp).1 hp)
  · rw [moves_buildBoardView floats h, List.map_map]
    refine List.forall₂_map_left_iff.mpr (List.forall₂_map_right_iff.mpr (List.forall₂_same.mpr fun move hmove => ?_))
    obtain ⟨p, hpiece, hid, hcolor, hkind, hstate⟩ :=
      hflight move.flight (List.mem_append_left _ (List.mem_map_of_mem hmove))
    have hentry : showMove floats s.clockMs move = ⟨.ofNat p.id, p.kind, p.color, move.startPos.1, move.startPos.2,
        move.endPos.1, move.endPos.2, computeAnimationProgress floats s.clockMs move.startTime move.arrivalTime⟩ := by
      rw [hid, hkind, hcolor]
      rfl
    show ShownAs s (s.board.pieceOf move.pieceId) (.move (showMove floats s.clockMs move))
    rw [show s.board.pieceOf move.pieceId = p from hpiece, hentry]
    exact .moving hstate hmove hid.symm
  · rw [jumps_buildBoardView floats h, List.map_map]
    refine List.forall₂_map_left_iff.mpr (List.forall₂_map_right_iff.mpr (List.forall₂_same.mpr fun jump hjump => ?_))
    obtain ⟨p, hpiece, hid, hcolor, hkind, hstate⟩ :=
      hflight jump.flight (List.mem_append_right _ (List.mem_map_of_mem hjump))
    have hentry : showJump floats s.clockMs jump = ⟨.ofNat p.id, p.kind, p.color, jump.cell.1, jump.cell.2,
        computeAnimationProgress floats s.clockMs jump.startTime jump.arrivalTime⟩ := by
      rw [hid, hkind, hcolor]
      rfl
    show ShownAs s (s.board.pieceOf jump.pieceId) (.jump (showJump floats s.clockMs jump))
    rw [show s.board.pieceOf jump.pieceId = p from hpiece, hentry]
    exact .jumping hstate hjump hid.symm

/-! ### The pieces that are left -/

def livingPieces (b : BoardModel) : List Piece := b.pieces.filter (·.state ≠ .captured)

theorem mem_pieces_iff {b : BoardModel} (h : b.IdsInPlace) {p : Piece} :
    p ∈ b.pieces ↔ b.findPieceById p.id = some p := by
  constructor
  · intro hmem
    obtain ⟨i, hi⟩ := List.mem_iff_getElem?.mp hmem
    have hfind : b.findPieceById (i + 1) = some p := findPieceById_eq_some.mpr ⟨Nat.succ_ne_zero i, hi⟩
    rwa [h (i + 1) p hfind]
  · intro hfind
    exact List.mem_of_getElem? (findPieceById_eq_some.mp hfind).2

theorem nodup_pieces {b : BoardModel} (h : b.IdsInPlace) : b.pieces.Nodup := by
  refine List.nodup_iff_injective_getElem.mpr fun i j hij => ?_
  have hid : ∀ k : Fin b.pieces.length, b.pieces[k.1].id = k.1 + 1 := fun k =>
    h (k.1 + 1) _ (findPieceById_eq_some.mpr ⟨Nat.succ_ne_zero _, List.getElem?_eq_getElem k.isLt⟩)
  have hsame := congrArg Piece.id hij
  simp only [hid, Nat.add_right_cancel_iff] at hsame
  exact Fin.ext hsame

/-- The owner of an entry of the queues is in the air. -/
theorem mem_owners_flying (h : GameInv s) {p : Piece} :
    p ∈ (flightsOf s.pendingMoves s.activeJumps).map (fun f => s.board.pieceOf f.id) ↔
      p ∈ s.board.pieces ∧ p.state = .moving := by
  rw [mem_pieces_iff h.located.idsInPlace, List.mem_map]
  constructor
  · intro h
    obtain ⟨f, hf, rfl⟩ := h
    obtain ⟨p, hp, -⟩ := h.located.flightPiece f hf
    have hid := h.located.idsInPlace _ p hp
    rw [pieceOf_eq hp]
    exact ⟨by rw [hid, hp], (h.located.moving _ p hp).mpr (List.mem_map_of_mem hf)⟩
  · intro h
    obtain ⟨hp, hstate⟩ := h
    obtain ⟨f, hf, hid⟩ := List.mem_map.mp ((h.located.moving _ p hp).mp hstate)
    exact ⟨f, hf, pieceOf_eq (by rw [hid, hp])⟩

theorem mem_owners_standing (h : GameInv s) {p : Piece} :
    p ∈ (gridCells s.rows s.cols).filterMap (fun cell => s.board.pieceAt cell.1 cell.2) ↔
      p ∈ s.board.pieces ∧ p.state = .idle := by
  rw [mem_pieces_iff h.located.idsInPlace, List.mem_filterMap]
  constructor
  · intro h
    obtain ⟨cell, -, hp⟩ := h
    exact ⟨(h.located.pieceAt_eq_some_iff.mp hp).2, (h.located.idle_of_pieceAt hp).1⟩
  · intro h
    obtain ⟨hp, hstate⟩ := h
    obtain ⟨row, col, hcell⟩ := h.located.idle _ p hp hstate
    exact ⟨(row, col), mem_gridCells.mpr (inBounds_of_cellId h.located.rect hcell),
      h.located.pieceAt_eq_some_iff.mpr ⟨hcell, hp⟩⟩

theorem owners_perm (h : GameInv s) : (owners s).Perm (livingPieces s.board) := by
  have howners : owners s = (gridCells s.rows s.cols).filterMap (fun cell => s.board.pieceAt cell.1 cell.2) ++
      (flightsOf s.pendingMoves s.activeJumps).map (fun f => s.board.pieceOf f.id) := by
    simp only [owners, flightsOf, List.map_append, List.map_map, List.append_assoc]
    rfl
  have hstanding : ((gridCells s.rows s.cols).filterMap fun cell => s.board.pieceAt cell.1 cell.2).Nodup := by
    refine (List.nodup_range.product List.nodup_range).filterMap fun cell cell' p hp hp' => ?_
    obtain ⟨hrow, hcol⟩ := h.located.cell_unique (h.located.pieceAt_eq_some_iff.mp hp).1
      (h.located.pieceAt_eq_some_iff.mp hp').1
    exact Prod.ext hrow hcol
  have hflying : ((flightsOf s.pendingMoves s.activeJumps).map fun f => s.board.pieceOf f.id).Nodup := by
    refine List.Nodup.of_map Piece.id ?_
    have hids : ((flightsOf s.pendingMoves s.activeJumps).map fun f => s.board.pieceOf f.id).map Piece.id =
        (flightsOf s.pendingMoves s.activeJumps).map Flight.id := by
      rw [List.map_map]
      refine List.map_congr_left fun f hf => ?_
      obtain ⟨p, hp, -⟩ := h.located.flightPiece f hf
      rw [Function.comp_apply, pieceOf_eq hp, h.located.idsInPlace _ p hp]
    rw [hids]
    exact h.located.idsNodup
  have hapart : ∀ p ∈ (gridCells s.rows s.cols).filterMap (fun cell => s.board.pieceAt cell.1 cell.2),
      ∀ q ∈ (flightsOf s.pendingMoves s.activeJumps).map (fun f => s.board.pieceOf f.id), p ≠ q := by
    intro p hp q hq h
    obtain rfl := h
    cases ((mem_owners_standing h).mp hp).2.symm.trans ((mem_owners_flying h).mp hq).2
  rw [howners]
  refine (List.perm_ext_iff_of_nodup (List.nodup_append.mpr ⟨hstanding, hflying, hapart⟩)
    ((nodup_pieces h.located.idsInPlace).filter _)).mpr fun p => ?_
  rw [List.mem_append, mem_owners_standing h, mem_owners_flying h, List.mem_filter, ← and_or_left]
  cases p.state <;> simp

/-- The owners of the moves and the jumps of a view are in the air. -/
theorem moving_of_mem_flightsOf (h : GameInv s) {f : Flight} (hf : f ∈ flightsOf s.pendingMoves s.activeJumps)
    (hsmall : s.board.pieces.length < 2 ^ 32) {p : Piece} (hp : p ∈ s.board.pieces)
    (hid : UInt32.ofNat f.id = UInt32.ofNat p.id) : p.state = .moving := by
  have hfind := (mem_pieces_iff h.located.idsInPlace).mp hp
  obtain ⟨q, hq, -⟩ := h.located.flightPiece f hf
  have hfits : ∀ {id : Nat} {r : Piece}, s.board.findPieceById id = some r → id < UInt32.size := by
    intro id r hr
    obtain ⟨hlt, -⟩ := List.getElem?_eq_some_iff.mp (findPieceById_eq_some.mp hr).2
    have hsize : UInt32.size = 2 ^ 32 := rfl
    omega
  have hsame := congrArg UInt32.toNat hid
  rw [UInt32.toNat_ofNat_of_lt' (hfits hq), UInt32.toNat_ofNat_of_lt' (hfits hfind)] at hsame
  exact (h.located.moving _ p hfind).mpr (hsame ▸ List.mem_map_of_mem hf)

theorem countP_cells (hplayable : Playable s.board) :
    (buildBoardView floats s).cells.countP (·.piece.isSome) =
      ((gridCells s.rows s.cols).filterMap fun cell => s.board.pieceAt cell.1 cell.2).length := by
  rw [cells_buildBoardView, List.countP_map, List.length_filterMap_eq_countP]
  refine List.countP_congr fun cell _ => ?_
  rw [Function.comp_apply, cellViewOf_tokenAt hplayable, Option.isSome_map]

end Entries

/-- The entries of a view are those of the living pieces, one each; there is none of a piece that has been taken, where
ids of 32 bits tell the pieces apart; and there are as many as pieces are left. -/
theorem view_shows_each_piece_once {F : Type} (floats : FloatRatio F) {s : GameState} (hreach : Reachable s) :
    (livingPieces s.board).Nodup ∧
      (∃ owners, owners.Perm (livingPieces s.board) ∧
        List.Forall₂ (ShownAs s) owners (shown (buildBoardView floats s))) ∧
      (s.board.pieces.length < 2 ^ 32 → ∀ p ∈ s.board.pieces, p.state = .captured →
        (∀ cell : Cell, s.board.pieceAt cell.1 cell.2 ≠ some p) ∧
          (∀ move ∈ (buildBoardView floats s).animations.moves, move.pieceId ≠ .ofNat p.id) ∧
          ∀ jump ∈ (buildBoardView floats s).animations.jumps, jump.pieceId ≠ .ofNat p.id) ∧
      (buildBoardView floats s).cells.countP (·.piece.isSome) + (buildBoardView floats s).animations.moves.length
          + (buildBoardView floats s).animations.jumps.length =
        (livingPieces s.board).length := by
  have h := hreach.inv
  refine ⟨(nodup_pieces h.located.idsInPlace).filter _, ⟨owners s, owners_perm h, shownAs_owners floats h hreach.playable⟩,
    fun hsmall p hp hcaptured => ⟨fun cell hcell => ?_, fun move hmove hid => ?_, fun jump hjump hid => ?_⟩, ?_⟩
  · cases hcaptured.symm.trans (h.located.idle_of_pieceAt hcell).1
  · rw [moves_buildBoardView floats h] at hmove
    obtain ⟨pending, hpending, rfl⟩ := List.mem_map.mp hmove
    have hflight : pending.flight ∈ flightsOf s.pendingMoves s.activeJumps :=
      List.mem_append_left _ (List.mem_map_of_mem hpending)
    cases hcaptured.symm.trans (moving_of_mem_flightsOf h hflight hsmall hp hid)
  · rw [jumps_buildBoardView floats h] at hjump
    obtain ⟨active, hactive, rfl⟩ := List.mem_map.mp hjump
    have hflight : active.flight ∈ flightsOf s.pendingMoves s.activeJumps :=
      List.mem_append_right _ (List.mem_map_of_mem hactive)
    cases hcaptured.symm.trans (moving_of_mem_flightsOf h hflight hsmall hp hid)
  · have hlength := (owners_perm h).length_eq
    rw [owners, List.length_append, List.length_append, List.length_map, List.length_map] at hlength
    rw [countP_cells floats hreach.playable, moves_buildBoardView floats h, jumps_buildBoardView floats h, List.length_map,
      List.length_map, hlength]

/-- The rook flies, and so does the king. -/
theorem view_shows_each_piece_once_duel :
    ∃ s, (GameState.new duelBoard).runActions [.jumpAt 0 1, .select 0 0, .moveSelected 1 0, .advanceClock 500] = .ok s ∧
      (livingPieces s.board).length = 2 ∧ ∃ owners, owners.Perm (livingPieces s.board) ∧
        List.Forall₂ (ShownAs s) owners (shown (buildBoardView (⟨0, 1, fun _ _ => 0⟩ : FloatRatio Nat) s)) := by
  have hrun : (fun s => (livingPieces s.board).length) <$> (GameState.new duelBoard).runActions
      [.jumpAt 0 1, .select 0 0, .moveSelected 1 0, .advanceClock 500] = .ok 2 := by decide
  obtain ⟨s, hs, hlength⟩ := map_eq_ok.mp hrun
  exact ⟨s, hs, hlength, (view_shows_each_piece_once _ ⟨duelBoard, duelBoard_accepted, _, hs⟩).2.1⟩

end KungFuChess
