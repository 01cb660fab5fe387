import KungFuChess.Proof.Saying
import KungFuChess.Proof.NetworkGui
import KungFuChess.Proof.Stillness

/-!
# What a client shows

From the board of a game to the screen of a client: the view that the server builds of a game by the rules is one that
the text of a snapshot can carry, and the reader gives it back, with each progress as the text has rounded it. So what a
client shows is the board of such a game, if what it hears is what a server says.
-/

namespace KungFuChess

open Machine Loops BoardModel Server

/-! ### The view of a game can be sent -/

section Views

variable {F : Type} (floats : FloatText F) (ratios : FloatRatio F) (round : F → F)

/-- The view with other progress values. -/
def BoardViewModel.rounded (view : BoardViewModel F) : BoardViewModel F :=
  { view with
    animations :=
      { moves := view.animations.moves.map fun move => { move with progress := round move.progress }
        jumps := view.animations.jumps.map fun jump => { jump with progress := round jump.progress }
        rests := view.animations.rests.map fun rest => { rest with progress := round rest.progress } } }

/-- A number that is printed is read back as `round` has it, and then it prints alike. -/
def FloatText.Rounds : Prop :=
  ∀ value, floats.RoundTrips (round value) ∧ floats.print (round value) = floats.print value

variable {floats ratios round}

/-- The text of a snapshot shows no more of the progress than the rounded value. -/
theorem writeSnapshot_rounded (hround : floats.Rounds round) (view : BoardViewModel F) :
    writeSnapshot floats (view.rounded round) = writeSnapshot floats view := by
  have hmoves : (view.rounded round).animations.moves.flatMap (writeMoveSnapshot floats) =
      view.animations.moves.flatMap (writeMoveSnapshot floats) := by
    rw [BoardViewModel.rounded, List.flatMap_map]
    refine List.flatMap_congr fun move _ => ?_
    unfold writeMoveSnapshot
    dsimp only
    rw [(hround move.progress).2]
  have hjumps : (view.rounded round).animations.jumps.flatMap (writeJumpSnapshot floats) =
      view.animations.jumps.flatMap (writeJumpSnapshot floats) := by
    rw [BoardViewModel.rounded, List.flatMap_map]
    refine List.flatMap_congr fun jump _ => ?_
    unfold writeJumpSnapshot
    dsimp only
    rw [(hround jump.progress).2]
  have hrests : (view.rounded round).animations.rests.flatMap (writeRestSnapshot floats) =
      view.animations.rests.flatMap (writeRestSnapshot floats) := by
    rw [BoardViewModel.rounded, List.flatMap_map]
    refine List.flatMap_congr fun rest _ => ?_
    unfold writeRestSnapshot
    dsimp only
    rw [(hround rest.progress).2]
  have hcells : writeCells (view.rounded round) = writeCells view := rfl
  unfold writeSnapshot
  rw [hmoves, hjumps, hrests, hcells]
  unfold BoardViewModel.rounded
  dsimp only

variable {s : GameState} {board : BoardModel}

/-- A board that a vector of cells can hold. -/
structure Storable (board : BoardModel) : Prop where
  rows : 1 ≤ board.rows
  cols : 1 ≤ board.cols
  cells : board.rows * board.cols ≤ kMaxCells

theorem Storable.fits (h : Storable board) {row col : Nat} (hin : board.InBounds row col) :
    row < 2 ^ 63 ∧ col < 2 ^ 63 := by
  have hcells := h.cells
  have hrows : board.rows ≤ board.rows * board.cols := Nat.le_mul_of_pos_right _ h.cols
  have hcols : board.cols ≤ board.rows * board.cols := Nat.le_mul_of_pos_left _ h.rows
  obtain ⟨hrow, hcol⟩ := hin
  unfold kMaxCells at hcells
  omega

theorem length_cells_buildBoardView (s : GameState) :
    (buildBoardView ratios s).cells.length = s.board.rows * s.board.cols := by
  rw [cells_buildBoardView, List.length_map, gridCells, List.length_product, List.length_range, List.length_range]
  rfl

theorem sendable_rounded (hround : floats.Rounds round) (hboard : Storable board) (hon : OnBoard board s)
    (h : GameInv s) (hclock : 0 ≤ s.clockMs ∧ s.clockMs < 2 ^ 63) :
    ((buildBoardView ratios s).rounded round).Sendable floats where
  height := by
    show 1 ≤ s.board.rows
    rw [hon.rows]
    exact hboard.rows
  width := by
    show 1 ≤ s.board.cols
    rw [hon.cols]
    exact hboard.cols
  cells := by
    show (buildBoardView ratios s).cells.length = s.board.rows * s.board.cols
    exact length_cells_buildBoardView s
  storable := by
    show (buildBoardView ratios s).cells.length ≤ kMaxCells
    rw [length_cells_buildBoardView, hon.rows, hon.cols]
    exact hboard.cells
  clock := hclock
  selection := fun row col hselected => hboard.fits (hon.selected (row, col) hselected)
  moves := by
    intro shown hshown
    obtain ⟨move, hmove, rfl⟩ := List.mem_map.mp hshown
    rw [moves_buildBoardView ratios h] at hmove
    obtain ⟨source, hsource, rfl⟩ := List.mem_map.mp hmove
    have hin := hon.inBounds_iff.mp (h.located.originsIn source.flight
      (List.mem_append_left _ (List.mem_map_of_mem hsource)))
    obtain ⟨hfromRow, hfromCol⟩ := hboard.fits hin
    obtain ⟨htoRow, htoCol⟩ := hboard.fits (hon.inBounds_iff.mp (h.ends source hsource))
    exact ⟨hfromRow, hfromCol, htoRow, htoCol, (hround _).1⟩
  jumps := by
    intro shown hshown
    obtain ⟨jump, hjump, rfl⟩ := List.mem_map.mp hshown
    rw [jumps_buildBoardView ratios h] at hjump
    obtain ⟨source, hsource, rfl⟩ := List.mem_map.mp hjump
    have hin := hon.inBounds_iff.mp (h.located.originsIn source.flight
      (List.mem_append_right _ (List.mem_map_of_mem hsource)))
    obtain ⟨hrow, hcol⟩ := hboard.fits hin
    exact ⟨hrow, hcol, (hround _).1⟩
  rests := by
    intro shown hshown
    obtain ⟨rest, hrest, rfl⟩ := List.mem_map.mp hshown
    obtain ⟨⟨id, entry⟩, hentry, hshows⟩ := List.mem_filterMap.mp hrest
    dsimp only at hshows
    split at hshows
    · cases hshows
    · cases hshows
      obtain ⟨hrow, hcol⟩ := hboard.fits (hon.rests id entry (OrdMap.find?_eq_some_iff.mpr hentry))
      exact ⟨hrow, hcol, (hround _).1⟩

theorem playable_rounded (hplayable : Playable s.board) (h : GameInv s) :
    ((buildBoardView ratios s).rounded round).Playable where
  cells := by
    intro cell hcell piece hpiece
    have hmem : cell ∈ (buildBoardView ratios s).cells := hcell
    rw [cells_buildBoardView] at hmem
    obtain ⟨place, -, rfl⟩ := List.mem_map.mp hmem
    rw [cellViewOf_tokenAt hplayable] at hpiece
    obtain ⟨p, hp, rfl⟩ := Option.map_eq_some_iff.mp hpiece
    exact hplayable _ p (h.located.pieceAt_eq_some_iff.mp hp).2
  moves := by
    intro shown hshown
    obtain ⟨move, hmove, rfl⟩ := List.mem_map.mp hshown
    rw [moves_buildBoardView ratios h] at hmove
    obtain ⟨source, hsource, rfl⟩ := List.mem_map.mp hmove
    obtain ⟨p, hp, -, hkind⟩ := h.located.flightPiece source.flight (List.mem_append_left _ (List.mem_map_of_mem hsource))
    show source.flight.kind ≠ _
    rw [← hkind]
    exact hplayable _ p hp
  jumps := by
    intro shown hshown
    obtain ⟨jump, hjump, rfl⟩ := List.mem_map.mp hshown
    rw [jumps_buildBoardView ratios h] at hjump
    obtain ⟨source, hsource, rfl⟩ := List.mem_map.mp hjump
    obtain ⟨p, hp, -, hkind⟩ := h.located.flightPiece source.flight (List.mem_append_right _ (List.mem_map_of_mem hsource))
    show source.flight.kind ≠ _
    rw [← hkind]
    exact hplayable _ p hp

/-- A text with the lines of a view is read as that view, whatever its line breaks are. -/
theorem readSnapshot_lines {view : BoardViewModel F} (hview : view.Sendable floats) (hplayable : view.Playable)
    {text : Text} (hlines : splitLines text = (snapshotLines floats view).map joinTokens) :
    readSnapshot floats text = .ok (some view) := by
  have hshape : splitLines text = "snapshot".toList :: ((headerTokens view ++ [["cells".toList]]).map joinTokens ++
      (((List.range view.height).map (rowTokens view)).map joinTokens ++
        (animationTokens floats view.animations).map joinTokens)) := by
    rw [hlines, snapshotLines]
    simp only [List.map_append, List.append_assoc]
    rfl
  have hread := readHeader_view floats hview (((List.range view.height).map (rowTokens view)).map joinTokens ++
    (animationTokens floats view.animations).map joinTokens)
  have hreserve : reserveCells (cellCount view.header) = .ok () := by
    have hstorable := hview.storable
    rw [hview.cells] at hstorable
    exact if_neg (Nat.not_lt.mpr ((Nat.mod_le _ _).trans hstorable))
  have hrows := readRows_view floats hview hplayable ((animationTokens floats view.animations).map joinTokens)
  have hsome : ((animationTokens floats view.animations).map joinTokens).isEmpty = false := by
    unfold animationTokens
    rfl
  rw [readSnapshot, readUpToCells, hshape]
  dsimp only
  rw [if_neg (fun hne => hne rfl), hread, ok_bind]
  dsimp only
  rw [hreserve, ok_bind, show view.header.width = view.width from rfl, show view.header.height = view.height from rfl,
    hrows]
  dsimp only
  rw [hsome, parseAnimations_view floats hview hplayable, if_neg (by decide), ok_bind]
  rfl

/-- The reader gives back the view of a game, rounded. -/
theorem readSnapshot_buildBoardView (hround : floats.Rounds round) (hboard : AcceptedBoard board)
    (hstorable : Storable board) {actions : List GameAction} (hrun : (GameState.new board).runActions actions = .ok s)
    (hclock : 0 ≤ s.clockMs ∧ s.clockMs < 2 ^ 63) :
    readSnapshot floats (writeSnapshot floats (buildBoardView ratios s)) =
      .ok (some ((buildBoardView ratios s).rounded round)) := by
  have hreach : Reachable s := ⟨board, hboard, actions, hrun⟩
  have hview := @sendable_rounded _ floats ratios round s board hround hstorable (OnBoard.of_run hboard hrun)
    hreach.inv hclock
  refine readSnapshot_lines hview (playable_rounded hreach.playable hreach.inv) ?_
  rw [← writeSnapshot_rounded hround, writeSnapshot_eq floats hview.height,
    splitLines_linesText _ (isWord_snapshotLines floats hview)]

end Views

/-! ### Only snapshots are read as boards -/

section Messages

variable {F : Type} (floats : FloatText F)

/-- The first line begins with what has been read of it. -/
theorem splitLinesFrom_prefix {current : Text} (hsome : current ≠ []) (text : Text) :
    ∃ first lines, splitLinesFrom current text = first :: lines ∧ current <+: first := by
  induction text generalizing current with
  | nil =>
      rw [splitLinesFrom, if_neg (by simpa using hsome)]
      exact ⟨current, [], rfl, List.prefix_rfl⟩
  | cons ch rest ih =>
      rw [splitLinesFrom]
      split
      · exact ih hsome
      split
      · exact ⟨current, _, rfl, List.prefix_rfl⟩
      · obtain ⟨first, lines, hlines, hpre⟩ := @ih (current ++ [ch]) (by simp)
        exact ⟨first, lines, hlines, (List.prefix_append _ _).trans hpre⟩

theorem splitLinesFrom_word {word : Text} (hword : word.all fun ch => ch != '\r' && ch != '\n') (current rest : Text) :
    splitLinesFrom current (word ++ rest) = splitLinesFrom (current ++ word) rest := by
  induction word generalizing current with
  | nil => rw [List.append_nil, List.nil_append]
  | cons ch word ih =>
      simp only [List.all_cons, Bool.and_eq_true, bne_iff_ne] at hword
      obtain ⟨⟨hreturn, hbreak⟩, hword⟩ := hword
      rw [List.cons_append, splitLinesFrom, if_neg hreturn, if_neg hbreak, ih hword, List.append_assoc,
        List.singleton_append]

/-- A text that begins with another word is no snapshot. -/
theorem readSnapshot_other {word : Text} (hsome : word ≠ []) (hword : word.all fun ch => ch != '\r' && ch != '\n')
    (hother : ¬word <+: "snapshot".toList) (rest : Text) : readSnapshot floats (word ++ rest) = .ok none := by
  obtain ⟨first, lines, hlines, hpre⟩ := splitLinesFrom_prefix hsome rest
  have hsplit : splitLines (word ++ rest) = first :: lines := by
    rw [splitLines, splitLinesFrom_word hword, List.nil_append, hlines]
  have hne : first ≠ "snapshot".toList := by
    intro h
    rw [h] at hpre
    exact hother hpre
  rw [readSnapshot, readUpToCells, hsplit]
  dsimp only
  rw [if_pos hne]
  rfl

/-- What is read as a board was sent as one. -/
theorem snapshot_of_read {message : ServerMessage} {view : BoardViewModel F}
    (hread : readSnapshot floats message.text = .ok (some view)) : ∃ text, message = .snapshot text := by
  have hother : ∀ {word : Text}, word ≠ [] → (word.all fun ch => ch != '\r' && ch != '\n') →
      ¬word <+: "snapshot".toList → ∀ rest, message.text = word ++ rest → ∃ text, message = .snapshot text := by
    intro word hsome hword hother rest htext
    rw [htext, readSnapshot_other floats hsome hword hother] at hread
    cases hread
  cases message with
  | snapshot text => exact ⟨text, rfl⟩
  | loginOk rating => exact @hother "login_ok ".toList (by decide) (by decide) (by decide) _ rfl
  | loginFailed reason => exact @hother "login_failed ".toList (by decide) (by decide) (by decide) _ rfl
  | searching => exact @hother "searching".toList (by decide) (by decide) (by decide) [] (List.append_nil _).symm
  | searchFailed => exact @hother "search_failed".toList (by decide) (by decide) (by decide) [] (List.append_nil _).symm
  | searchTimeout => exact @hother "search_timeout".toList (by decide) (by decide) (by decide) [] (List.append_nil _).symm
  | matchFound side => exact @hother "match_found ".toList (by decide) (by decide) (by decide) _ rfl
  | gameStart side => exact @hother "game_start ".toList (by decide) (by decide) (by decide) _ rfl
  | gameRedirect endpoint roomId side =>
      have hassoc : ∀ word : Text, word ++ endpoint ++ [' '] ++ decimal roomId ++ [' '] ++ sideToken side =
          word ++ (endpoint ++ [' '] ++ decimal roomId ++ [' '] ++ sideToken side) := by
        intro word
        simp only [List.append_assoc]
      exact @hother "game_redirect ".toList (by decide) (by decide) (by decide) _ (hassoc _)
  | joinOk side => exact @hother "join_ok ".toList (by decide) (by decide) (by decide) _ rfl
  | joinFailed reason => exact @hother "join_failed ".toList (by decide) (by decide) (by decide) _ rfl
  | gameResult won reason rating =>
      have hassoc : ∀ word outcome : Text, word ++ outcome ++ [' '] ++ finishReasonToken reason ++ [' '] ++
          signedDecimal rating ++ ['\n'] =
          word ++ (outcome ++ [' '] ++ finishReasonToken reason ++ [' '] ++ signedDecimal rating ++ ['\n']) := by
        intro word outcome
        simp only [List.append_assoc]
      exact @hother "game_result ".toList (by decide) (by decide) (by decide) _ (hassoc _ _)

end Messages

/-! ### From the rooms to the screen -/

namespace Server

variable {config : ServerConfig} {w : ServerWorld config}

/-- The matches of the rooms, each as a tick of the run has left it. -/
def Ticked (w : ServerWorld config) (game : Match) : Prop :=
  ∃ before s room elapsed, before ++ [(s, .inr (.tickRoom room.id elapsed))] <+: w.history ∧ room ∈ s.rooms.rooms ∧
    room.game.tick elapsed = .ok game

/-- A server whose snapshots show its games, on a board that a client can hold, with clocks that fit their type. -/
structure Displays {F : Type} (floats : FloatText F) (ratios : FloatRatio F) (w : ServerWorld config) : Prop where
  accepted : AcceptedBoard config.defaultBoard
  storable : Storable config.defaultBoard
  snapshot : ∀ game : Match, config.generateSnapshot game = writeSnapshot floats (buildBoardView ratios game.state)
  clocks : ∀ game, Ticked w game → 0 ≤ game.state.clockMs ∧ game.state.clockMs < 2 ^ 63

section

variable {F : Type} {floats : FloatText F} {ratios : FloatRatio F} {round : F → F} {users : UserRepository}
  {games : GameRepository} {now : Nat} {script : List (List NetEvent)}

/-- A match that a tick has left is one by the rules, on the server's board. -/
theorem Ticked.run (hleads : Leads { state := boot users games now, script } w) (hboard : AcceptedBoard config.defaultBoard)
    {game : Match} (hticked : Ticked w game) :
    ∃ actions, (GameState.new config.defaultBoard).runActions actions = .ok game.state := by
  obtain ⟨before, s, room, elapsed, hpre, hroom, htick⟩ := hticked
  have hplayed := ((replays_throughout hleads hpre).games room hroom).2
  have hrun : (Match.new config.defaultBoard).run (replay room.id before ++ [.tick elapsed]) = .ok game := by
    rw [Match.run, List.foldlM_append]
    refine bind_eq_ok.mpr ⟨room.game, hplayed, ?_⟩
    rw [List.foldlM_cons, show room.game.handle (.tick elapsed) = .ok game from htick]
    rfl
  exact matchRun_runs (m := .new _) (reachable_new hboard) hrun

/-- What a client reads as a board is the view of a match that the server has ticked. -/
theorem Displays.of_read (hdisplays : Displays floats ratios w) (hleads : Leads { state := boot users games now, script } w)
    (hround : floats.Rounds round) {x : PlayerSession} (hx : x ∈ w.state.sessions) {message : ServerMessage}
    (hmessage : message ∈ x.connection.sent) {view : BoardViewModel F}
    (hread : readSnapshot floats message.text = .ok (some view)) :
    ∃ game, Ticked w game ∧ Reachable game.state ∧ view = (buildBoardView ratios game.state).rounded round := by
  obtain ⟨text, rfl⟩ := snapshot_of_read floats hread
  obtain ⟨before, s, op, after, hhistory, hspoken⟩ := (Heard.of_leads hleads x hx).exists_step _ hmessage
  obtain ⟨room, hroom, elapsed, game, rfl, htick, rfl⟩ := hspoken.of_snapshot
  have hticked : Ticked w game := by
    refine ⟨before, s, room, elapsed, ?_, hroom, htick⟩
    rw [hhistory]
    exact ⟨after, List.append_assoc _ [_] after⟩
  obtain ⟨actions, hrun⟩ := hticked.run hleads hdisplays.accepted
  refine ⟨game, hticked, ⟨_, hdisplays.accepted, actions, hrun⟩, ?_⟩
  change readSnapshot floats (config.generateSnapshot game) = _ at hread
  rw [hdisplays.snapshot, readSnapshot_buildBoardView hround hdisplays.accepted hdisplays.storable hrun
    (hdisplays.clocks game hticked)] at hread
  exact (Option.some.inj (Except.ok.inj hread)).symm

end

end Server

/-- A run of a server that displays its games and has sent everything that is heard in the talk. -/
structure Source {F : Type} (floats : FloatText F) (ratios : FloatRatio F) (talk : List Line) where
  config : ServerConfig
  users : UserRepository
  games : GameRepository
  now : Nat
  script : List (List NetEvent)
  world : ServerWorld config
  leads : Leads { state := boot users games now, script } world
  displays : Displays floats ratios world
  heard : ∀ text, .heard text ∈ talk → ∃ x ∈ world.state.sessions, ∃ message ∈ x.connection.sent, message.text = text

theorem Source.of_read {F : Type} {floats : FloatText F} {ratios : FloatRatio F} {round : F → F} {talk : List Line}
    (source : Source floats ratios talk) (hround : floats.Rounds round) {text : Text} (hheard : .heard text ∈ talk)
    {view : BoardViewModel F} (hread : readSnapshot floats text = .ok (some view)) :
    ∃ game, Ticked source.world game ∧ Reachable game.state ∧ view = (buildBoardView ratios game.state).rounded round := by
  obtain ⟨x, hx, message, hmessage, rfl⟩ := source.heard text hheard
  exact source.displays.of_read source.leads hround hx hmessage hread

/-- In the game that a client shows, the board is that of a match on the server of its lobby or on the server that it was
sent to, as a tick has left it: a game by the rules, whole, with the progress of what is in the air as a text with six
decimals has it. -/
theorem client_shows_a_game {F : Type} {config : GuiConfig F} {ratios : FloatRatio F} {round : F → F} {turns : Nat}
    {script : List (List GuiEvent)} {draining : Peer} {view : BoardViewModel F} {gui : NetworkGuiState} {w : GuiWorld}
    (hrun : (runNetworkGui config turns).run { state := {}, script } = .ok (.playing draining view gui, w))
    (hround : config.floats.Rounds round) (lobby : Source config.floats ratios w.state.lobby.talk)
    (game : Source config.floats ratios w.state.game.talk) :
    ∃ shown : Match, (Ticked lobby.world shown ∨ Ticked game.world shown) ∧ Reachable shown.state ∧
      view = (buildBoardView ratios shown.state).rounded round := by
  obtain ⟨text, hheard, hread⟩ := (follows_of_run hrun).1.seen view rfl
  rcases hheard with hheard | hheard
  · obtain ⟨shown, hticked, hshown⟩ := lobby.of_read hround hheard hread
    exact ⟨shown, .inl hticked, hshown⟩
  · obtain ⟨shown, hticked, hshown⟩ := game.of_read hround hheard hread
    exact ⟨shown, .inr hticked, hshown⟩

/-! ### A board with a flying rook -/

/-- A number below a power of ten, printed after a one. -/
theorem decimal_padded (k : Nat) {r : Nat} (hr : r < 10 ^ k) :
    ∃ digits, decimal (10 ^ k + r) = '1' :: digits ∧ digits.length = k ∧ (∀ ch ∈ digits, ch.isDigit = true) ∧
      Nat.ofDigitChars 10 digits 0 = r := by
  induction k generalizing r with
  | zero =>
      obtain rfl := Nat.lt_one_iff.mp hr
      exact ⟨[], by decide, rfl, fun _ h => absurd h List.not_mem_nil, rfl⟩
  | succ k ih =>
      have hten : 10 ^ (k + 1) = 10 * 10 ^ k := Nat.pow_succ'
      obtain ⟨digits, hprint, hlength, hdigits, hvalue⟩ := @ih (r / 10) (by omega)
      have hlast : r % 10 < 10 := Nat.mod_lt r (by decide)
      refine ⟨digits ++ [(r % 10).digitChar], ?_, ?_, ?_, ?_⟩
      · have hsplit : 10 ^ (k + 1) + r = 10 * (10 ^ k + r / 10) + r % 10 := by omega
        rw [hsplit, decimal, ← Nat.toDigits_append_toDigits (by decide) (by positivity) hlast,
          Nat.toDigits_of_lt_base hlast, ← List.cons_append, ← hprint, decimal]
      · rw [List.length_append, hlength, List.length_singleton]
      · intro ch hch
        rcases List.mem_append.mp hch with hold | hnew
        · exact hdigits ch hold
        · apply Nat.isDigit_of_mem_toDigits (b := 10) (n := r % 10) (by decide) (by decide)
          rw [Nat.toDigits_of_lt_base hlast]
          exact hnew
      · rw [Nat.ofDigitChars_append, hvalue, Nat.ofDigitChars_cons_digitChar_of_lt_ten hlast, Nat.ofDigitChars_nil]
        omega

theorem takeWhile_digits {digits rest : Text} (hdigits : ∀ ch ∈ digits, ch.isDigit = true) :
    (digits ++ '.' :: rest).takeWhile Char.isDigit = digits := by
  rw [List.takeWhile_append_of_pos hdigits, List.takeWhile_cons_of_neg (by decide), List.append_nil]

/-- What is printed in millionths is read as it was. -/
theorem millionths_rounds : millionths.Rounds id := by
  intro value
  refine ⟨?_, rfl⟩
  obtain ⟨decimals, hprint, hlength, hdigits, hvalue⟩ := @decimal_padded 6 (value % 1000000) (Nat.mod_lt _ (by decide))
  have htext : millionths.print value = decimal (value / 1000000) ++ '.' :: decimals := by
    show decimal (value / 1000000) ++ '.' :: (decimal (10 ^ 6 + value % 1000000)).tail = _
    rw [hprint, List.tail_cons]
  rw [FloatText.RoundTrips, id_eq, htext]
  refine ⟨⟨List.append_ne_nil_of_right_ne_nil _ (List.cons_ne_nil _ _), fun ch hch => ?_⟩, ?_⟩
  · rcases List.mem_append.mp hch with hwhole | hrest
    · exact isSpace_of_isDigit (isDigit_of_mem_decimal hwhole)
    · rcases List.mem_cons.mp hrest with rfl | hdecimal
      · decide
      · exact isSpace_of_isDigit (hdigits ch hdecimal)
  · have hwhole := @takeWhile_digits (decimal (value / 1000000)) decimals fun _ hch => isDigit_of_mem_decimal hch
    have hend : decimals.takeWhile Char.isDigit = decimals := List.takeWhile_eq_self_iff.mpr hdigits
    simp only [millionths, hwhole, List.drop_left]
    rw [hend, List.take_left' hlength, Nat.ofDigitChars_append, Nat.ofDigitChars_eq_ofDigitChars_zero, hvalue, hlength,
      decimal, Nat.ofDigitChars_ten_toDigits, List.length_append, List.length_cons, hlength, Nat.div_add_mod]

/-- Every tick of a room leaves a clock that fits its type. -/
def clocksFit (history : History) : Bool :=
  history.all fun step => match step.2 with
    | .inr (.tickRoom _ elapsed) => step.1.rooms.rooms.all fun room => match room.game.tick elapsed with
        | .ok game => decide (0 ≤ game.state.clockMs ∧ game.state.clockMs < 2 ^ 63)
        | .error _ => true
    | _ => true

theorem clocks_of_fit {config : ServerConfig} {w : ServerWorld config} (hfit : clocksFit w.history = true) :
    ∀ game, Ticked w game → 0 ≤ game.state.clockMs ∧ game.state.clockMs < 2 ^ 63 := by
  intro game hticked
  obtain ⟨before, s, room, elapsed, hpre, hroom, htick⟩ := hticked
  have hstep := List.all_eq_true.mp hfit _ (hpre.subset (List.mem_append_right _ (List.mem_singleton_self _)))
  have hclock := List.all_eq_true.mp hstep room hroom
  rw [htick] at hclock
  exact of_decide_eq_true hclock

def millionthShares : FloatRatio Nat := ⟨0, 1000000, fun part whole => (part * 1000000 / whole).toNat⟩

def displayConfig : ServerConfig :=
  { sampleConfig with
    endpoint := []
    generateSnapshot := fun game => writeSnapshot millionths (buildBoardView millionthShares game.state) }

/-- Ann's rook is halfway. -/
def untilHalfway : List (List NetEvent) :=
  untilGame ++ [[say 0 "select 0 0"]] ++ quiet 12 ++ [[say 0 "move 0 2"]] ++ quiet 10 ++ [[.pass 500000000]]

def annHears : List Text :=
  ["login_ok 1000".toList, "searching".toList, "game_redirect  1 white".toList, "match_found white".toList,
    "game_start white".toList, ("snapshot\nclock_ms 500\ngame_over false\nheight 2\nwidth 3\ncells\n. . bK\nwK . .\n" ++
      "animations\nmoves\nmove piece_id 1 piece wR from 0 0 to 0 2 progress 0.500000\njumps\nrests\n").toList]

def untilShown : List (List GuiEvent) :=
  [[], [.act { mouse := [.click 400 500] }], [], (annHears.take 1).map (.arrive .lobby), [], [],
    (annHears.drop 1).map (.arrive .lobby)]

theorem client_shows_a_game_halfway :
    ∃ draining view gui w, (runNetworkGui sampleGui 8).run { state := {}, script := untilShown } =
        .ok (.playing draining view gui, w) ∧ view.animations.moves.map (·.progress) = [500000] ∧
      ∃ shown : Match, Reachable shown.state ∧ view = (buildBoardView millionthShares shown.state).rounded id := by
  have hclient : (runNetworkGui sampleGui 8).reaches { state := {}, script := untilShown } (fun phase w =>
      w.state.game.talk.isEmpty && w.state.lobby.talk.all (fun line => match line with
        | .heard text => decide (text ∈ annHears)
        | .said _ => true) && match phase with
        | .playing _ view _ => decide (view.animations.moves.map (·.progress) = [500000])
        | _ => false) = true := by
    decide +kernel
  have hserver : (serve displayConfig (List.replicate 7 .gameServerTick)).reaches
      { state := boot {} {} 0, script := untilHalfway } (fun _ w => clocksFit w.history &&
        decide (∃ x ∈ w.state.sessions, x.connection.sent.map (·.text) = annHears)) = true := by
    decide +kernel
  obtain ⟨phase, w, hrun, hw⟩ := Prog.reaches_eq_true hclient
  obtain ⟨_, sw, hserve, hsw⟩ := Prog.reaches_eq_true hserver
  obtain ⟨hfit, hsent⟩ := Bool.and_eq_true_iff.mp hsw
  obtain ⟨x, hx, htexts⟩ := of_decide_eq_true hsent
  cases phase with
  | playing draining view gui =>
      simp only [Bool.and_eq_true] at hw
      obtain ⟨⟨hgame, hlobby⟩, hmoves⟩ := hw
      have hdisplays : Displays millionths millionthShares sw := by
        refine ⟨kingsBoard_accepted, ⟨by decide, by decide, by decide⟩, ?_, clocks_of_fit hfit⟩
        exact fun _ => rfl
      have hheard : ∀ text, .heard text ∈ w.state.lobby.talk →
          ∃ x ∈ sw.state.sessions, ∃ message ∈ x.connection.sent, message.text = text := by
        intro text htext
        have hmem := of_decide_eq_true (List.all_eq_true.mp hlobby _ htext)
        rw [← htexts] at hmem
        exact ⟨x, hx, List.mem_map.mp hmem⟩
      have hsilent : ∀ text, .heard text ∈ w.state.game.talk →
          ∃ x ∈ sw.state.sessions, ∃ message ∈ x.connection.sent, message.text = text := by
        intro text htext
        rw [List.isEmpty_iff.mp hgame] at htext
        exact absurd htext List.not_mem_nil
      have hleads := Leads.of_run hserve
      obtain ⟨shown, -, hreach, hview⟩ := client_shows_a_game hrun millionths_rounds
        ⟨displayConfig, _, _, _, _, sw, hleads, hdisplays, hheard⟩
        ⟨displayConfig, _, _, _, _, sw, hleads, hdisplays, hsilent⟩
      exact ⟨draining, view, gui, w, hrun, of_decide_eq_true hmoves, shown, hreach, hview⟩
  | login username session => simp at hw
  | handshake username session => simp at hw
  | waiting draining latest => simp at hw
  | ended => simp at hw

end KungFuChess
