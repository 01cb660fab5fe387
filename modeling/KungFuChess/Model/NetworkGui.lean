import KungFuChess.Lib.Programs
import KungFuChess.Model.ClientReaders
import KungFuChess.Model.Layout
import KungFuChess.Model.NetworkInput
import KungFuChess.Model.View

/-!
# The network client

`run_network_gui` of `main_gui.cpp`, with the WebSocket client, the login session and the redirect flow under `network/`
and the login screen of `ui/rendering/ctd26_renderer.cpp`. A client has two connections, one to the lobby and one to the
server of its game.

The loops of the function are cut into turns: a phase says in which loop the client is, and a turn is one round of that
loop, or of the loop in it that drains a connection. Between two operations of a turn messages may arrive, sockets may
fail and the user may act. What is drawn is left out; the window keeps its first size.
-/

namespace KungFuChess

/-- What ends the program with an error. -/
inductive ClientFault where
  | connect
  | invalidEndpoint
  | write
  | read
  | snapshot (fault : SnapshotFault)
deriving DecidableEq, Repr

/-! ### `WebSocketClient` -/

/-- How a write ends. -/
inductive WriteOutcome where
  | written
  -- `is_transient_io_error`
  | transient
  | closed
  | failed
deriving DecidableEq, Repr

/-- What a read finds. -/
inductive ReadOutcome where
  | ready
  | closed
  | failed
deriving DecidableEq, Repr

inductive Line where
  | said (text : Text)
  | heard (text : Text)
deriving DecidableEq, Repr

structure WebSocketClient where
  endpoint : WebSocketEndpoint
  connected : Bool := false
  -- whether a server answers at the endpoint
  dials : Bool := true
  writes : WriteOutcome := .written
  reads : ReadOutcome := .ready
  incoming : List Text := []
  -- what has gone over the connection, or over the last one; no part of the client reads it
  talk : List Line := []
deriving DecidableEq, Repr

namespace WebSocketClient

variable (client : WebSocketClient)

def connect : Except ClientFault WebSocketClient :=
  if client.connected then .ok client
  else if client.dials then
    .ok { client with connected := true, writes := .written, reads := .ready, incoming := [], talk := [] }
  else .error .connect

def disconnect : WebSocketClient := { client with connected := false, incoming := [] }

def connectToGameServer (endpoint : Text) : Except ClientFault WebSocketClient :=
  match parseWebSocketEndpoint endpoint with
  | none => .error .invalidEndpoint
  | some endpoint => { client.disconnect with endpoint }.connect

def trySend (message : Text) : Except ClientFault (Bool × WebSocketClient) :=
  if !client.connected then .ok (false, client)
  else match client.writes with
    | .written => .ok (true, { client with talk := client.talk ++ [.said message] })
    | .transient => .ok (false, client)
    | .closed => .ok (false, { client with connected := false })
    | .failed => .error .write

/-- `try_receive_snapshot`, which is for messages of every kind. -/
def tryReceive : Except ClientFault (Option Text × WebSocketClient) :=
  if !client.connected then .ok (none, client)
  else match client.reads with
    | .closed => .ok (none, { client with connected := false })
    | .failed => .error .read
    | .ready =>
        match client.incoming with
        | [] => .ok (none, client)
        | message :: incoming => .ok (some message, { client with incoming, talk := client.talk ++ [.heard message] })

end WebSocketClient

/-! ### What can happen, and what the client can do -/

inductive Peer where
  | lobby
  | game
deriving DecidableEq, Repr

inductive MouseInput where
  | click (x y : Int)
  | jump (x y : Int)
deriving DecidableEq, Repr

/-- What a frame finds: the mouse events and the key, negative if there is none. -/
structure Poll where
  mouse : List MouseInput := []
  key : Int := -1
deriving DecidableEq, Repr

structure GuiClient where
  lobby : WebSocketClient := { endpoint := ⟨"127.0.0.1".toList, 8765⟩ }
  game : WebSocketClient := { endpoint := ⟨"127.0.0.1".toList, 8765⟩ }
  -- the next frame, once it is due
  frame : Option Poll := none
deriving DecidableEq, Repr

namespace GuiClient

variable (client : GuiClient)

def peer : Peer → WebSocketClient
  | .lobby => client.lobby
  | .game => client.game

def setPeer (peer : Peer) (socket : WebSocketClient) : GuiClient :=
  match peer with
  | .lobby => { client with lobby := socket }
  | .game => { client with game := socket }

end GuiClient

inductive GuiEvent where
  | arrive (peer : Peer) (message : Text)
  | setDials (peer : Peer) (dials : Bool)
  | setWrites (peer : Peer) (writes : WriteOutcome)
  | setReads (peer : Peer) (reads : ReadOutcome)
  -- a frame is due, and this is what the user does in it
  | act (frame : Poll)
deriving DecidableEq, Repr

def GuiClient.occur (client : GuiClient) : GuiEvent → GuiClient
  | .arrive peer message =>
      client.setPeer peer { client.peer peer with incoming := (client.peer peer).incoming ++ [message] }
  | .setDials peer dials => client.setPeer peer { client.peer peer with dials }
  | .setWrites peer writes => client.setPeer peer { client.peer peer with writes }
  | .setReads peer reads => client.setPeer peer { client.peer peer with reads }
  | .act frame => { client with frame := some frame }

inductive GuiOp where
  | connect
  | connectToGameServer (endpoint : Text)
  | disconnect (peer : Peer)
  | trySend (peer : Peer) (message : Text)
  | tryReceive (peer : Peer)
  -- the frame, if it is due; if it is not, the loop sleeps
  | present
  | throw (fault : ClientFault)
deriving DecidableEq, Repr

abbrev GuiOp.Result : GuiOp → Type
  | .trySend _ _ => Bool
  | .tryReceive _ => Option Text
  | .present => Option Poll
  | _ => Unit

def GuiClient.apply (client : GuiClient) : (op : GuiOp) → Except ClientFault (op.Result × GuiClient)
  | .connect => client.lobby.connect.map fun socket => ((), client.setPeer .lobby socket)
  | .connectToGameServer endpoint =>
      (client.game.connectToGameServer endpoint).map fun socket => ((), client.setPeer .game socket)
  | .disconnect peer => .ok ((), client.setPeer peer (client.peer peer).disconnect)
  | .trySend peer message =>
      ((client.peer peer).trySend message).map fun (sent, socket) => (sent, client.setPeer peer socket)
  | .tryReceive peer =>
      (client.peer peer).tryReceive.map fun (message, socket) => (message, client.setPeer peer socket)
  | .present => .ok (client.frame, { client with frame := none })
  | .throw fault => .error fault

abbrev guiMachine : Machine where
  State := GuiClient
  Event := GuiEvent
  Op := GuiOp
  Fault := ClientFault
  Result := GuiOp.Result
  occur := fun event client => client.occur event
  apply := fun op client => client.apply op

abbrev GuiProg := Machine.Prog guiMachine

abbrev GuiWorld := Machine.World guiMachine

namespace GuiProg

def ask (op : GuiOp) : GuiProg op.Result := Machine.Prog.perform (M := guiMachine) op

def isConnected (peer : Peer) : GuiProg Bool :=
  Machine.Prog.read (M := guiMachine) fun client => (client.peer peer).connected

end GuiProg

/-! ### `NetworkLoginSession` -/

inductive NetworkLoginPhase where
  | connected
  | loginSent
  | loginOk
  | playRequested
  | loginFailed
deriving DecidableEq, Repr

structure NetworkLoginSession where
  phase : NetworkLoginPhase := .connected
  failureReason : Text := []
  rating : Int := 0
deriving DecidableEq, Repr

namespace NetworkLoginSession

open GuiProg

variable (session : NetworkLoginSession)

def resolveUsername (pid : Int) (usernameInput : Text) : Text :=
  if usernameInput.isEmpty then "Player".toList ++ signedDecimal pid else usernameInput

/-- The name serves as the password too. -/
def sendLogin (pid : Int) (usernameInput : Text) : GuiProg (Bool × NetworkLoginSession) :=
  if session.phase ≠ .connected then pure (false, session)
  else do
    let loginName := resolveUsername pid usernameInput
    if ← ask (.trySend .lobby (NetworkInputHandler.sendLogin loginName loginName)) then
      return (true, { session with phase := .loginSent })
    else return (false, session)

def handleMessage (message : Text) : NetworkLoginSession :=
  if session.phase ≠ .loginSent then session
  else match readLoginMessage message with
    | none => session
    | some result =>
        match result.status with
        | .ok => { session with rating := result.rating, phase := .loginOk }
        | .failed => { session with failureReason := result.failureReason, phase := .loginFailed }

def trySendPlay : GuiProg (Bool × NetworkLoginSession) :=
  if session.phase ≠ .loginOk then pure (false, session)
  else do
    if ← ask (.trySend .lobby NetworkInputHandler.sendPlay) then
      return (true, { session with phase := .playRequested })
    else return (false, session)

def reset (_ : NetworkLoginSession) : NetworkLoginSession := { phase := .connected, failureReason := [], rating := 0 }

end NetworkLoginSession

/-! ### The login screen -/

structure LoginScreenLayout where
  inputX : Int
  inputY : Int
  inputW : Int
  inputH : Int
  buttonX : Int
  buttonY : Int
  buttonW : Int
  buttonH : Int
deriving DecidableEq, Repr

def computeLoginScreenLayout (windowWidth windowHeight : Int) : LoginScreenLayout :=
  let inputW := max 200 (windowWidth.tdiv 2)
  let inputH := max 28 (windowHeight.tdiv 20)
  let inputX := (windowWidth - inputW).tdiv 2
  let inputY := windowHeight.tdiv 2
  let buttonW := max 100 (windowWidth.tdiv 6)
  let buttonX := (windowWidth - buttonW).tdiv 2
  let buttonY := inputY + inputH + max 20 (windowHeight.tdiv 15)
  ⟨inputX, inputY, inputW, inputH, buttonX, buttonY, buttonW, inputH⟩

def handleLoginKey (key : Int) (username : Text) : Text :=
  if key < 0 then username
  else
    let asciiKey := key.toNat % 256
    if asciiKey = 8 ∨ asciiKey = 127 then username.dropLast
    else if 32 ≤ asciiKey ∧ asciiKey ≤ 126 ∧ username.length < 32 then username ++ [Char.ofNat asciiKey]
    else username

/-- `LoginInputSink::on_pixel_click`. -/
def requestsPlay (layout : LoginScreenLayout) : MouseInput → Bool
  | .click x y =>
      decide (x ≥ layout.buttonX ∧ x < layout.buttonX + layout.buttonW ∧ y ≥ layout.buttonY
        ∧ y < layout.buttonY + layout.buttonH)
  | .jump _ _ => false

def kDefaultBoardRows : Nat := 8

def kDefaultBoardCols : Nat := 8

def networkWindow : UiWindowDimensions := defaultInitialWindowSize kDefaultBoardRows kDefaultBoardCols

/-- `init` of the renderer. -/
def networkLayout : BoardLayout :=
  calculateLayout networkWindow.width networkWindow.height (toInt kDefaultBoardCols) (toInt kDefaultBoardRows)

def kEscapeKey : Int := 27

/-! ### `NetworkGuiInputSink` -/

section Sink

variable {F : Type}

def viewIsInBounds (view : BoardViewModel F) (row col : Nat) : Bool := decide (row < view.height ∧ col < view.width)

def viewIsFriendlyToSelection (view : BoardViewModel F) (row col : Nat) : Bool :=
  match view.selection with
  | none => false
  | some (selectedRow, selectedCol) =>
      if !viewIsSelectablePiece view row col then false
      else match boardViewPieceAt view selectedRow selectedCol, boardViewPieceAt view row col with
        | some selectedPiece, some cellPiece => selectedPiece.color == cellPiece.color
        | _, _ => false

structure NetworkGuiInputSink (F : Type) where
  view : BoardViewModel F
  layout : BoardLayout
  localSide : Option PieceColor

namespace NetworkGuiInputSink

open NetworkInputHandler

variable (sink : NetworkGuiInputSink F)

def pixelToCell (x y : Int) : Option Cell :=
  if sink.view.height = 0 ∨ sink.view.width = 0 then none
  else sink.layout.tryPixelToCell x y sink.view.width sink.view.height

def isActionablePiece (row col : Nat) : Bool :=
  if !viewIsSelectablePiece sink.view row col then false
  else match sink.localSide with
    | none => true
    | some side => (boardViewPieceAt sink.view row col).any fun piece => piece.color == side

def size (n : Nat) : Size := Fin.ofNat (2 ^ 64) n

/-- The messages of a click on a piece of the colour of the selected one. -/
def handleFriendlyClick (selectedRow selectedCol row col : Nat) : List Text :=
  if selectedRow = row ∧ selectedCol = col then
    if sink.isActionablePiece row col then [sendJump (size row) (size col), sendClear] else []
  else if sink.isActionablePiece row col then [sendSelect (size row) (size col)]
  else []

def handleMoveAttempt (row col : Nat) : List Text :=
  match sink.view.selection with
  | none => []
  | some (fromRow, fromCol) =>
      if boardViewIsMoveOrigin sink.view fromRow fromCol || boardViewIsJumpOrigin sink.view fromRow fromCol
          || boardViewIsRestingCell sink.view fromRow fromCol then []
      else [sendMove (size row) (size col)]

/-- The messages that a click sends. -/
def handleClick (x y : Int) : List Text :=
  if sink.view.gameOver then []
  else match sink.pixelToCell x y with
    | none => []
    | some (row, col) =>
        if !viewIsInBounds sink.view row col then []
        else match sink.view.selection with
          | none => if sink.isActionablePiece row col then [sendSelect (size row) (size col)] else []
          | some (selectedRow, selectedCol) =>
              if viewIsFriendlyToSelection sink.view row col then
                sink.handleFriendlyClick selectedRow selectedCol row col
              else sink.handleMoveAttempt row col

def handleJump (x y : Int) : List Text :=
  if sink.view.gameOver then []
  else match sink.pixelToCell x y with
    | none => []
    | some (row, col) =>
        if !viewIsInBounds sink.view row col then []
        else if (boardViewPieceAt sink.view row col).isNone then []
        else if !sink.isActionablePiece row col then []
        else if boardViewIsMoveOrigin sink.view row col || boardViewIsJumpOrigin sink.view row col
            || boardViewIsRestingCell sink.view row col then []
        else [sendJump (size row) (size col), sendClear]

def handle : MouseInput → List Text
  | .click x y => sink.handleClick x y
  | .jump x y => sink.handleJump x y

end NetworkGuiInputSink

end Sink

/-! ### `NetworkGuiState` -/

structure NetworkGuiState where
  matchmaking : MatchmakingState := .idle
  localSide : Option PieceColor := none
  redirect : Option GameRedirectInfo := none
  usingGameConnection : Bool := false
deriving DecidableEq, Repr

def matchmakingLocalSide : MatchmakingState → Option PieceColor
  | .matchedWhite | .gameStartingWhite => some .white
  | .matchedBlack | .gameStartingBlack => some .black
  | .idle | .searching | .playing | .timeout => none

section Messages

variable {F : Type} (floats : FloatText F)

/-- The view that the client has, and what it knows of its game. -/
abbrev GuiView (F : Type) := Option (BoardViewModel F) × NetworkGuiState

def handleNetworkMessage (message : Text) (latest : GuiView F) : Reading (GuiView F) := do
  let (latestView, gui) := latest
  match ← readSnapshot floats message with
  | some view => return (some view, { gui with matchmaking := .playing })
  | none =>
      match readMatchmakingMessage message with
      | some matchmaking =>
          let localSide :=
            match matchmakingLocalSide matchmaking with
            | some side => some side
            | none => gui.localSide
          return (latestView, { gui with matchmaking, localSide })
      | none =>
          match readGameRedirectMessage message with
          | some redirect =>
              let localSide :=
                match gui.localSide with
                | some side => some side
                | none => some redirect.side
              return (latestView, { gui with redirect := some redirect, localSide })
          | none => return (latestView, gui)

end Messages

/-! ### The loops -/

open GuiProg

/-- `NetworkGameRedirectFlow::execute`. -/
def executeRedirect (redirect : GameRedirectInfo) : GuiProg Bool := do
  if ← isConnected .lobby then ask (.disconnect .lobby)
  ask (.connectToGameServer redirect.endpoint)
  if ← isConnected .game then
    ask (.trySend .game (NetworkInputHandler.sendJoinGame (Fin.ofNat (2 ^ 64) redirect.roomId)))
  else return false

def maybeSwitchToGameConnection (gui : NetworkGuiState) : GuiProg Bool :=
  match gui.redirect with
  | none => pure false
  | some redirect => if gui.usingGameConnection then pure false else executeRedirect redirect

/-- In which loop the client is. -/
inductive GuiPhase (F : Type) where
  -- the login screen, until the user asks to play
  | login (username : Text) (session : NetworkLoginSession)
  -- `wait_for_login_handshake`
  | handshake (username : Text) (session : NetworkLoginSession)
  -- until there is a view; the connection is the one that is being drained
  | waiting (draining : Peer) (latest : GuiView F)
  | playing (draining : Peer) (view : BoardViewModel F) (gui : NetworkGuiState)
  -- `run_network_gui` has returned
  | ended

structure GuiConfig (F : Type) where
  floats : FloatText F
  -- `getpid`
  pid : Int

section Turns

variable {F : Type} (config : GuiConfig F)

def closeBoth : GuiProg (GuiPhase F) := do
  ask (.disconnect .lobby)
  ask (.disconnect .game)
  return .ended

/-- The rest of the outer loop of the login, and with it the way back to the login screen. -/
def attemptLogin (username : Text) (session : NetworkLoginSession) : GuiProg (GuiPhase F) := do
  let (sent, session) ← session.sendLogin config.pid username
  if sent then return .handshake username session else return .login username session.reset

/-- `present_login_screen`: whether to go on, and the name. -/
def presentLoginScreen (poll : Poll) (username : Text) : Bool × Text :=
  if poll.key = kEscapeKey then (false, username) else (true, handleLoginKey poll.key username)

def loginTurn (username : Text) (session : NetworkLoginSession) : GuiProg (GuiPhase F) := do
  match ← ask .present with
  | none => return .login username session
  | some poll =>
      let (shouldContinue, username) := presentLoginScreen poll username
      if !shouldContinue then
        ask (.disconnect .lobby)
        return .ended
      else if poll.mouse.any (requestsPlay (computeLoginScreenLayout networkWindow.width networkWindow.height)) then
        attemptLogin config username session
      else return .login username session

/-- What follows a handshake that has not led to a search. -/
def handshakeFailed (username : Text) (session : NetworkLoginSession) : GuiProg (GuiPhase F) := do
  if ← isConnected .lobby then return .login username session.reset else return .ended

/-- After the loop of `wait_for_login_handshake`. -/
def finishHandshake (username : Text) (session : NetworkLoginSession) : GuiProg (GuiPhase F) := do
  if session.phase = .loginFailed then handshakeFailed username session
  else
    let (sent, session) ← session.trySendPlay
    if sent then return .waiting .lobby (none, {}) else handshakeFailed username session

/-- The frame of a round of the handshake, which does not listen to the mouse, and the condition of the loop. -/
def handshakeFrame (username : Text) (session : NetworkLoginSession) : GuiProg (GuiPhase F) := do
  let (shouldContinue, username) :=
    match ← ask .present with
    | none => (true, username)
    | some poll => presentLoginScreen poll username
  if !shouldContinue then
    -- the connection is closed, so the caller returns
    ask (.disconnect .lobby)
    return .ended
  else if session.phase = .loginSent then return .handshake username session
  else finishHandshake username session

def handshakeTurn (username : Text) (session : NetworkLoginSession) : GuiProg (GuiPhase F) := do
  match ← ask (.tryReceive .lobby) with
  | some message => handshakeFrame username (session.handleMessage message)
  | none => handshakeFrame username session

/-- Which connection is drained first. -/
def NetworkGuiState.firstPeer (gui : NetworkGuiState) : Peer := if gui.usingGameConnection then .game else .lobby

/-- One round of `drain_network_messages`; with nothing left, the client may switch, and goes on with the game connection
if that is in use, or presents. -/
def drainTurn (draining : Peer) (latest : GuiView F) (again : Peer → GuiView F → GuiPhase F)
    (present : GuiView F → GuiProg (GuiPhase F)) : GuiProg (GuiPhase F) := do
  match ← ask (.tryReceive draining) with
  | some message =>
      match handleNetworkMessage config.floats message latest with
      | .ok latest => return again draining latest
      | .error fault =>
          ask (.throw (.snapshot fault))
          return .ended
  | none =>
      match draining with
      | .game => present latest
      | .lobby =>
          let (view, gui) := latest
          if ← maybeSwitchToGameConnection gui then return again .game (view, { gui with usingGameConnection := true })
          else if gui.usingGameConnection then return again .game (view, gui)
          else present (view, gui)

def presentWaiting (latest : GuiView F) : GuiProg (GuiPhase F) := do
  let escaped :=
    match ← ask .present with
    | none => false
    | some poll => poll.key = kEscapeKey
  if escaped then closeBoth
  else match latest with
    | (some view, gui) => return .playing gui.firstPeer view gui
    | (none, gui) => return .waiting .lobby (none, gui)

def sendAll (messages : List Text) : GuiProg Unit :=
  messages.forM fun message => do let _ ← ask (.trySend .game message)

/-- The sink has the view, the layout and the side of this round. -/
def presentPlaying (view : BoardViewModel F) (gui : NetworkGuiState) : GuiProg (GuiPhase F) := do
  match ← ask .present with
  | none => return .playing gui.firstPeer view gui
  | some poll =>
      let sink : NetworkGuiInputSink F := ⟨view, networkLayout, gui.localSide⟩
      sendAll (poll.mouse.flatMap sink.handle)
      if poll.key = kEscapeKey then closeBoth else return .playing gui.firstPeer view gui

def guiTurn : GuiPhase F → GuiProg (GuiPhase F)
  | .login username session => loginTurn config username session
  | .handshake username session => handshakeTurn username session
  | .waiting draining latest => drainTurn config draining latest .waiting presentWaiting
  | .playing draining view gui =>
      drainTurn config draining (some view, gui)
        (fun draining latest => .playing draining (latest.1.getD view) latest.2)
        fun latest => presentPlaying (latest.1.getD view) latest.2
  | .ended => pure .ended

def runTurns : Nat → GuiPhase F → GuiProg (GuiPhase F)
  | 0, phase => pure phase
  | turns + 1, phase => do runTurns turns (← guiTurn config phase)

/-- So many turns of `run_network_gui`. -/
def runNetworkGui (turns : Nat) : GuiProg (GuiPhase F) := do
  ask .connect
  runTurns config turns (.login [] {})

end Turns

end KungFuChess
