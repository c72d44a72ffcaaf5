import TokenFeedback.Session.Cancel
import TokenFeedback.Session.Lock
import TokenFeedback.Session.Stage

/-!
# Sessions side by side

Any number of calls on any number of connections, some of them made by callers that cannot wait
themselves and have a task do it. Everything that can happen is an action, and the actions may come
in any order.

* `World`: the calls, and what they share: the locks of the connections, the cancel handles, the
  network and the observer.
* `World.poll`, `World.step`: a call gets its turn. Whether it was cancelled is looked at when a
  turn begins and not again before the turn is over. A turn is over when the session sleeps or
  ends.
* `World.look`: a caller who has a task do the work looks at the task first and at its cancel handle
  second. If it was cancelled, it leaves the task behind.
* `World.act`, `World.run`: one action, and several.
-/

namespace TokenFeedback

/-- What an observer does on a notice. -/
inductive Reaction where
  | quiet
  /-- Cancels a handle. -/
  | cancels (handle : Nat)
  | panics (p : Payload)
  deriving Repr, DecidableEq

/-- A notice, and the call that made it; the observer is not told which. -/
structure Notice where
  call : Nat
  callback : Callback
  deriving DecidableEq

/-- What the calls find when they are made. -/
structure Setting where
  connection : Nat → Connection
  /-- What the dials meet, by the count of the dials before. -/
  network : Nat → Link
  /-- How the observer reports a notice. -/
  report : Callback → List LogEntry
  /-- What the observer does on a notice, behind the earlier ones. -/
  reaction : List Notice → Callback → Reaction

/-- A session of a connection, asked for with a cancel handle or without. -/
structure Call where
  line : Nat
  handle : Option Nat
  stage : Stage
  /-- Is it the session's turn? -/
  awake : Bool
  /-- When its turn has come again, as far as this hangs on the time alone. -/
  wake : Option Nat
  /-- Was it left behind by its caller? -/
  aborted : Bool

/-- A caller who waits for a task. -/
structure Bridge where
  call : Nat
  handle : Nat
  answer : Option (Except SessionError (List Record))

structure World where
  now : Nat
  calls : List Call
  bridges : List Bridge
  locks : Nat → Lock
  handles : Handles
  /-- The dials so far. -/
  dialled : Nat
  notices : List Notice
  log : List LogEntry

namespace World

/-- Nothing has happened. -/
def start : World := ⟨0, [], [], fun _ => .free, .one, 0, [], []⟩

/-- Adds entries to the log. -/
def note (w : World) (log : List LogEntry) : World := { w with log := w.log ++ log }

/-- Puts a call back. -/
def put (w : World) (c : Nat) (call : Call) : World := { w with calls := w.calls.set c call }

/-- Changes the lock of a connection. -/
def withLock (w : World) (line : Nat) (lock : Lock) : World :=
  { w with locks := fun l => if l = line then lock else w.locks l }

/-- Moves a call to a stage. A call that has no use for the lock any more leaves it. -/
def move (w : World) (c : Nat) (call : Call) (next : Stage) : World :=
  let w' := w.put c { call with stage := next, awake := !next.isOver, wake := none }
  if call.stage.usesLock && !next.usesLock then
    w'.withLock call.line ((w'.locks call.line).leave c)
  else w'

/-- Has a call been cancelled? -/
def isCancelled (w : World) (call : Call) : Bool :=
  match call.handle with
  | some h => w.handles.isCancelled h
  | none => false

/-- The entry that opens the report of a session. -/
def opening (s : Setting) (call : Call) : List LogEntry :=
  match call.stage with
  | .fresh =>
    let e := (s.connection call.line).config.environment
    [drainSpan e.host e.portNumber]
  | _ => []

/-- A call gets its turn. -/
def poll (s : Setting) (w : World) (c : Nat) : World :=
  match w.calls[c]? with
  | none => w
  | some call =>
    if call.awake || call.stage.isOver || call.aborted then w
    else if w.isCancelled call then
      ((w.note (opening s call)).move c call (.failing .cancelled)).note [cancelledEntry]
    else (w.note (opening s call)).put c { call with awake := true, wake := none }

/-- Asks for the lock. -/
def enter (w : World) (c : Nat) (call : Call) : World :=
  let lock := (w.locks call.line).ask c
  let w' := w.withLock call.line lock
  if lock.holder? = some c then w'.put c { call with stage := .admitted }
  else w'.put c { call with stage := .queued, awake := false }

/-- Tells the observer; what follows is up to its reaction. -/
def tell (s : Setting) (w : World) (c : Nat) (callback : Callback) : World × Option Payload :=
  let w' := { w with
    notices := w.notices ++ [⟨c, callback⟩]
    log := w.log ++ s.report callback }
  match s.reaction w.notices callback with
  | .quiet => (w', none)
  | .cancels h => ({ w' with handles := w'.handles.cancel h }, none)
  | .panics p => (w', some p)

/-- Counts the dial of a step that dials. -/
def countDial (w : World) (next : Stage) : World :=
  match next with
  | .connecting _ _ => { w with dialled := w.dialled + 1 }
  | _ => w

/-- What comes of a step. -/
def apply (s : Setting) (w : World) (c : Nat) (call : Call) : Stage.Progress → World
  | .moves none log next => (w.move c call next).note log
  | .moves (some callback) log next =>
    match tell s w c callback with
    | (w', none) => ((w'.countDial next).move c call next).note log
    | (w', some p) => w'.move c call (.panicked p)
  | .sleeps wake log stage =>
    (w.put c { call with stage := stage, awake := false, wake := wake }).note log
  | .breaks message log => (w.note log).move c call (.panicked (.text message))

/-- The next step of a call whose turn it is. -/
def step (s : Setting) (w : World) (c : Nat) : World :=
  match w.calls[c]? with
  | none => w
  | some call =>
    if !call.awake then w
    else
      match call.stage with
      | .fresh => w.enter c call
      | .queued =>
        if (w.locks call.line).holder? = some c then w.put c { call with stage := .admitted }
        else w.put c { call with awake := false }
      | stage => w.apply s c call (stage.step (s.connection call.line) w.now (s.network w.dialled))

/-- The owner of a call gives it up between two turns. -/
def drop (w : World) (c : Nat) : World :=
  match w.calls[c]? with
  | none => w
  | some call => if call.awake || call.stage.isOver then w else w.move c call .dropped

/-- A task that was left behind is given up between two turns. -/
def dispose (w : World) (c : Nat) : World :=
  match w.calls[c]? with
  | none => w
  | some call => if call.aborted then w.drop c else w

def panickedEntry (message : String) : LogEntry :=
  .event .error "feedback session task panicked" [("message", .text message)]

def abortedEntry : LogEntry := .event .debug "feedback session task was aborted" []

def waitCancelledEntry : LogEntry := .event .debug "blocking wait cancelled" []

/-- What the caller of a task at this stage is told, if the task is over. -/
def outcome? : Stage → Option (Except SessionError (List Record) × List LogEntry)
  | .done result => some (result, [])
  | .panicked p => some (.error (.panicked p.message), [panickedEntry p.message])
  | .dropped => some (.error .cancelled, [abortedEntry])
  | _ => none

/-- Gives a waiting caller its answer. -/
def answer (w : World) (b : Nat) (bridge : Bridge)
    (result : Except SessionError (List Record)) : World :=
  { w with bridges := w.bridges.set b { bridge with answer := some result } }

/-- Leaves a task behind. -/
def abort (w : World) (c : Nat) : World :=
  match w.calls[c]? with
  | none => w
  | some call => w.put c { call with aborted := true }

/-- A caller who waits for a task has a look: at the task first, and at the cancel handle second. -/
def look (w : World) (b : Nat) : World :=
  match w.bridges[b]? with
  | none => w
  | some bridge =>
    if bridge.answer.isSome then w
    else
      match (w.calls[bridge.call]?).bind fun call => outcome? call.stage with
      | some (result, log) => (w.note log).answer b bridge result
      | none =>
        if w.handles.isCancelled bridge.handle then
          ((w.note [waitCancelledEntry]).abort bridge.call).answer b bridge (.error .cancelled)
        else w

/-- A new call. -/
def begin (w : World) (line : Nat) (handle : Option Nat) : World :=
  { w with calls := w.calls ++ [⟨line, handle, .fresh, false, none, false⟩] }

/-- A new call that a task makes for a caller. -/
def spawn (w : World) (line handle : Nat) : World :=
  let w' := w.begin line (some handle)
  { w' with bridges := w'.bridges ++ [⟨w.calls.length, handle, none⟩] }

/-- Everything that can happen. -/
inductive Action where
  | begin (line : Nat) (handle : Option Nat)
  | spawn (line handle : Nat)
  | poll (call : Nat)
  | step (call : Nat)
  | drop (call : Nat)
  | dispose (call : Nat)
  | look (bridge : Nat)
  | addHandle
  | cancel (handle : Nat)
  | wait (ms : Nat)
  deriving Repr, DecidableEq

/-- One action. An action that is out of place changes nothing. -/
def act (s : Setting) (w : World) : Action → World
  | .begin line handle => w.begin line handle
  | .spawn line handle => w.spawn line handle
  | .poll c => w.poll s c
  | .step c => w.step s c
  | .drop c => w.drop c
  | .dispose c => w.dispose c
  | .look b => w.look b
  | .addHandle => { w with handles := w.handles.add }
  | .cancel h => { w with handles := w.handles.cancel h }
  | .wait ms => { w with now := w.now + ms }

def run (s : Setting) (w : World) (actions : List Action) : World :=
  actions.foldl (act s) w

/-- What a call was told to return. -/
def result? (w : World) (c : Nat) : Option (Except SessionError (List Record)) :=
  match w.calls[c]? with
  | some call =>
    match call.stage with
    | .done result => some result
    | _ => none
  | none => none

end World

end TokenFeedback
