import KungFuChess.Proof.Undisturbed
import KungFuChess.Proof.Winner
import KungFuChess.Model.Drivers

/-!
# A finished game

A game does not refuse to be played on when it is over, nor to be told the time: who drives it has to ask. Commands,
clicks and rooms do. A frame of the window does not, and tells the time that has passed, so that moves still in the air
land in a game that is over.
-/

namespace KungFuChess

open Loops

/-- Nothing in the air should have come down by now. -/
def NothingDue (s : GameState) : Prop :=
  (∀ move ∈ s.pendingMoves, s.clockMs < move.arrivalTime) ∧ ∀ jump ∈ s.activeJumps, s.clockMs < jump.arrivalTime

/-- The board with its pieces, the clock and the winner are as they were. -/
structure Frozen (s s' : GameState) : Prop where
  board : s'.board = s.board
  clockMs : s'.clockMs = s.clockMs
  winningColor : s'.winningColor = s.winningColor

/-- A frame without any time to tell; and nothing is due if the input settles the game. -/
def DriverInput.Quiet (s : GameState) : DriverInput → Prop
  | .command text => text = kPrintBoardCommand → NothingDue s
  | .frame _ deltaMs => deltaMs = 0 ∧ NothingDue s
  | _ => True

/-- Whatever part of the inputs has been handled, none has failed and the game is as it was. -/
def Drivers.StaysFrozen (drivers : Drivers) (inputs : List DriverInput) : Prop :=
  ∀ before, before <+: inputs → ∃ drivers', drivers.run before = .ok drivers' ∧ Frozen drivers.state drivers'.state

section Steps

variable {s s' : GameState} {drivers drivers' : Drivers} {input : DriverInput} {inputs : List DriverInput} {ms : Int}

theorem Reachable.nothingDue (h : Reachable s) : NothingDue s := ⟨h.inv.movesFlying, h.inv.jumpsFlying⟩

theorem frozen_retimed (s : GameState) (rests : RestMap) : Frozen s (s.retimed s.clockMs rests) := ⟨rfl, rfl, rfl⟩

theorem settlePendingMoves_eq_addClock (s : GameState) : s.settlePendingMoves = s.addClock 0 := by
  unfold GameState.settlePendingMoves GameState.addClock RealTimeArbiter.updateTime
  rw [Int.add_zero]

/-- Where nothing is due, no time passes unnoticed. -/
theorem NothingDue.addClock_zero (h : NothingDue s) :
    s.addClock 0 = .ok (s.retimed s.clockMs (expireRests s.clockMs s.activeRests)) := by
  have hclock : s.clockMs + 0 = s.clockMs := Int.add_zero _
  have hidle : s.addClock 0 = _ := addClock_of_idle (by rw [hclock]; exact h.1) (by rw [hclock]; exact h.2)
  rwa [hclock] at hidle

/-- Time that passes shows on the clock. -/
theorem clockMs_addClock (h : s.addClock ms = .ok s') : s'.clockMs = s.clockMs + ms := by
  unfold GameState.addClock RealTimeArbiter.updateTime RealTimeArbiter.settlePendingMoves at h
  obtain ⟨⟨arbiter, board, gameOver⟩, hsettled, hs'⟩ := bind_eq_ok.mp h
  obtain ⟨_, -, hsettled⟩ := bind_eq_ok.mp hsettled
  obtain ⟨_, -, hsettled⟩ := bind_eq_ok.mp hsettled
  obtain ⟨_, -, hsettled⟩ := bind_eq_ok.mp hsettled
  cases hsettled
  cases hs'
  rfl

theorem handleClick_over (handler : GameInputHandler) (hover : s.gameOver = true) (x y : Int) :
    handler.handleClick s x y = .ok s := if_pos hover

theorem handleJump_over (handler : GameInputHandler) (hover : s.gameOver = true) (x y : Int) :
    handler.handleJump s x y = .ok s := if_pos hover

theorem handleWait_over (hover : s.gameOver = true) (ms : Int) : GameInputHandler.handleWait s ms = .ok s :=
  if_pos hover

theorem process_over (hover : s.gameOver = true) (elapsed : Int) (active : Bool) (polled : List RoomPlayerInput) :
    Match.process ⟨s⟩ elapsed active polled = .ok ⟨s⟩ := by
  have hmatch : (⟨s⟩ : Match).isGameOver = true := hover
  simp only [Match.process, hmatch, Bool.not_true, Bool.false_eq_true, and_false, if_false, ok_bind, Bool.and_false,
    pure_eq_ok]

/-- When the game is over the only command that does anything prints the board. -/
theorem execute_over (handler : GameInputHandler) (hover : s.gameOver = true) {command : Text}
    (hcommand : command ≠ kPrintBoardCommand) : handler.execute s command = .ok ([], s) := by
  unfold GameInputHandler.execute
  cases extractWord command with
  | none => rfl
  | some word =>
      obtain ⟨verb, stream⟩ := word
      dsimp only
      split
      · cases extractInt 32 stream with
        | none => rfl
        | some first =>
            dsimp only
            cases extractInt 32 first.2 with
            | none => rfl
            | some second => simp only [handleClick_over handler hover, ok_bind, pure_eq_ok]
      split
      · cases extractInt 32 stream with
        | none => rfl
        | some first =>
            dsimp only
            cases extractInt 32 first.2 with
            | none => rfl
            | some second => simp only [handleJump_over handler hover, ok_bind, pure_eq_ok]
      split
      · cases extractInt 64 stream with
        | none => rfl
        | some first => simp only [handleWait_over hover, ok_bind, pure_eq_ok]
      · rw [if_neg fun hprint => hcommand hprint.2]

theorem execute_print (handler : GameInputHandler) (h : NothingDue s) :
    handler.execute s kPrintBoardCommand =
      .ok (writeBoard s.board ++ ['\n'], s.retimed s.clockMs (expireRests s.clockMs s.activeRests)) := by
  have hword : extractWord kPrintBoardCommand = some ("print".toList, " board".toList) := by decide
  unfold GameInputHandler.execute
  rw [hword]
  dsimp only
  rw [if_neg (by decide), if_neg (by decide), if_neg (by decide), if_pos (by decide), GameState.writeBoard,
    settlePendingMoves_eq_addClock, h.addClock_zero]
  rfl

/-- A quiet input to a finished game may drop rests that are over, and does nothing else. -/
theorem handle_over (hover : drivers.state.gameOver = true) (hquiet : input.Quiet drivers.state) :
    ∃ drivers' rests, drivers.handle input = .ok drivers' ∧
      drivers'.state = drivers.state.retimed drivers.state.clockMs rests := by
  have hsame : drivers.state = drivers.state.retimed drivers.state.clockMs drivers.state.activeRests := rfl
  let settled := drivers.state.retimed drivers.state.clockMs (expireRests drivers.state.clockMs drivers.state.activeRests)
  cases input with
  | command text =>
      by_cases hprint : text = kPrintBoardCommand
      · subst hprint
        refine ⟨{ drivers with state := settled }, _, ?_, rfl⟩
        rw [Drivers.handle, execute_print _ (hquiet rfl)]
        rfl
      · refine ⟨drivers, _, ?_, hsame⟩
        rw [Drivers.handle, execute_over _ hover hprint]
        rfl
  | frame rendered deltaMs =>
      obtain ⟨rfl, hdue⟩ := hquiet
      refine ⟨⟨settled, drivers.engine, ⟨⟨rendered⟩⟩⟩, _, ?_, rfl⟩
      rw [Drivers.handle, UiController.frame, hdue.addClock_zero]
      rfl
  | pixelClick x y =>
      refine ⟨drivers, _, ?_, hsame⟩
      rw [Drivers.handle, handleClick_over _ hover]
      rfl
  | pixelJump x y =>
      refine ⟨drivers, _, ?_, hsame⟩
      rw [Drivers.handle, handleJump_over _ hover]
      rfl
  | process elapsed active polled =>
      refine ⟨drivers, _, ?_, hsame⟩
      rw [Drivers.handle, process_over hover]
      rfl

theorem run_over (inputs : List DriverInput) (hover : drivers.state.gameOver = true)
    (hquiet : ∀ input ∈ inputs, input.Quiet drivers.state) :
    ∃ drivers' rests, drivers.run inputs = .ok drivers' ∧
      drivers'.state = drivers.state.retimed drivers.state.clockMs rests := by
  induction inputs generalizing drivers with
  | nil => exact ⟨drivers, drivers.state.activeRests, rfl, rfl⟩
  | cons input inputs ih =>
      obtain ⟨mid, rests, hmid, hstate⟩ := handle_over hover (hquiet input List.mem_cons_self)
      have hrest : ∀ other ∈ inputs, other.Quiet mid.state := by
        intro other hother
        rw [hstate]
        exact hquiet other (List.mem_cons_of_mem _ hother)
      have hmidOver : mid.state.gameOver = true := by
        rw [hstate]
        exact hover
      obtain ⟨last, rests', hlast, hstate'⟩ := ih hmidOver hrest
      refine ⟨last, rests', ?_, by rw [hstate', hstate]; rfl⟩
      rw [Drivers.run, List.foldlM_cons, hmid, ok_bind]
      exact hlast

theorem staysFrozen_of_quiet (hover : drivers.state.gameOver = true)
    (hquiet : ∀ input ∈ inputs, input.Quiet drivers.state) : drivers.StaysFrozen inputs := by
  intro before hpre
  obtain ⟨drivers', rests, hrun, hstate⟩ := run_over before hover fun input hinput => hquiet input (hpre.subset hinput)
  exact ⟨drivers', hrun, hstate ▸ frozen_retimed drivers.state rests⟩

theorem Drivers.run_concat (drivers : Drivers) (inputs : List DriverInput) (input : DriverInput) :
    drivers.run (inputs ++ [input]) = drivers.run inputs >>= fun drivers' => drivers'.handle input := by
  rw [Drivers.run, List.foldlM_append]
  refine congrArg (drivers.run inputs >>= ·) (funext fun drivers' => ?_)
  rw [List.foldlM_cons]
  cases drivers'.handle input <;> rfl

/-- A frame in a frozen game has no time to tell. -/
theorem Drivers.StaysFrozen.frame_zero {rendered : BoardLayout} (h : drivers.StaysFrozen inputs)
    (hframe : .frame rendered ms ∈ inputs) : ms = 0 := by
  obtain ⟨before, after, rfl⟩ := List.append_of_mem hframe
  obtain ⟨mid, hmid, hfrozen⟩ := h before (List.prefix_append _ _)
  obtain ⟨last, hlast, hfrozen'⟩ := h (before ++ [.frame rendered ms]) ⟨after, by simp⟩
  rw [Drivers.run_concat, hmid, ok_bind, Drivers.handle, UiController.frame] at hlast
  obtain ⟨⟨controller, state⟩, hstep, hdone⟩ := bind_eq_ok.mp hlast
  obtain ⟨state', hclock, hpair⟩ := bind_eq_ok.mp hstep
  cases hpair
  cases hdone
  have htime := clockMs_addClock hclock
  have hbefore := hfrozen.clockMs
  have hafter := hfrozen'.clockMs
  dsimp only at hafter
  omega

/-- A finished game stays as it is if the inputs are quiet. Where nothing is due, as in every game that can be reached,
it does so exactly if no frame has any time to tell. -/
theorem finished_game_frozen_iff (drivers : Drivers) (hover : drivers.state.gameOver = true) :
    (∀ inputs, (∀ input ∈ inputs, input.Quiet drivers.state) → drivers.StaysFrozen inputs) ∧
      (NothingDue drivers.state → ∀ inputs,
        drivers.StaysFrozen inputs ↔ ∀ rendered ms, .frame rendered ms ∈ inputs → ms = 0) ∧
      (Reachable drivers.state → NothingDue drivers.state) := by
  refine ⟨fun inputs => staysFrozen_of_quiet hover, fun hdue inputs => ⟨fun h rendered ms => h.frame_zero, ?_⟩,
    fun hreach => hreach.nothingDue⟩
  intro hframes
  refine staysFrozen_of_quiet hover fun input hinput => ?_
  cases input with
  | command text => exact fun _ => hdue
  | frame rendered ms => exact ⟨hframes rendered ms hinput, hdue⟩
  | pixelClick x y => trivial
  | pixelJump x y => trivial
  | process elapsed active polled => trivial

/-- The rook of the duel has taken the king. -/
theorem finished_game_frozen_iff_duel :
    ∃ s, (GameState.new duelBoard).runActions [.select 0 0, .moveSelected 0 1, .advanceClock 1000] = .ok s ∧
      (∀ inputs, (∀ input ∈ inputs, input.Quiet s) → (Drivers.new s {}).StaysFrozen inputs) ∧
        (NothingDue s → ∀ inputs,
          (Drivers.new s {}).StaysFrozen inputs ↔ ∀ rendered ms, .frame rendered ms ∈ inputs → ms = 0) ∧
        (Reachable s → NothingDue s) := by
  have hrun : GameState.gameOver <$>
      (GameState.new duelBoard).runActions [.select 0 0, .moveSelected 0 1, .advanceClock 1000] = .ok true := by decide
  obtain ⟨s, hs, hover⟩ := map_eq_ok.mp hrun
  exact ⟨s, hs, finished_game_frozen_iff (.new s {}) hover⟩

/-- The white king is in the air when the black one falls, and the next frame lets it land: White has won. -/
theorem finished_game_goes_on :
    ¬∀ drivers : Drivers, Reachable drivers.state → drivers.state.gameOver = true →
      ∀ inputs, drivers.StaysFrozen inputs := by
  intro hfrozen
  have hrun : (fun s => (s.gameOver, s.winningColor)) <$>
      (GameState.new kingsBoard).runActions [.select 0 0, .moveSelected 0 2, .advanceClock 500, .select 1 0,
        .moveSelected 1 1, .advanceClock 500] = .ok (true, none) := by decide
  have hlater : GameState.winningColor <$>
      (GameState.new kingsBoard).runActions [.select 0 0, .moveSelected 0 2, .advanceClock 500, .select 1 0,
        .moveSelected 1 1, .advanceClock 500, .advanceClock 500] = .ok (some .white) := by decide
  obtain ⟨s, hs, hshown⟩ := map_eq_ok.mp hrun
  obtain ⟨hover, hnone⟩ := Prod.mk.injEq .. ▸ hshown
  obtain ⟨s', hs', hwon⟩ := map_eq_ok.mp hlater
  have hstep : s.addClock 500 = .ok s' := (runActions_singleton s _).symm.trans (runActions_after hs hs')
  obtain ⟨drivers, hdrivers, hsame⟩ := hfrozen (.new s {}) ⟨kingsBoard, kingsBoard_accepted, _, hs⟩ hover
    [.frame {} 500] [.frame {} 500] (List.prefix_refl _)
  have hframe : (Drivers.new s {}).run [.frame {} 500] = .ok ⟨s', .new s, ⟨⟨{}⟩⟩⟩ := by
    have hclock : (Drivers.new s {}).state.addClock 500 = .ok s' := hstep
    rw [Drivers.run, List.foldlM_cons, Drivers.handle, UiController.frame, hclock]
    rfl
  cases hdrivers.symm.trans hframe
  have hwinner : s'.winningColor = s.winningColor := hsame.winningColor
  rw [hwon, hnone] at hwinner
  cases hwinner

end Steps

end KungFuChess
