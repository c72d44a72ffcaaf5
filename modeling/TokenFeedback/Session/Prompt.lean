import TokenFeedback.Session.World

/-!
# Prompt schedules

One order in which everything happens that can: nobody waits longer than he has to, and time passes
only when nobody has anything to do.

* `World.next?`: what happens next.
* `World.settle`: what there is when all that can happen has happened.
-/

namespace TokenFeedback.World

/-- Has a waiting caller something to see? -/
def hasNews (w : World) (b : Bridge) : Bool :=
  b.answer.isNone &&
    (w.handles.isCancelled b.handle ||
      match w.calls[b.call]? with
      | some call => call.stage.isOver
      | none => false)

/-- Is there reason to give a call its turn? -/
def isDue (w : World) (c : Nat) (call : Call) : Bool :=
  !call.awake && !call.stage.isOver && !call.aborted &&
    (w.isCancelled call ||
      match call.stage with
      | .fresh => true
      | .queued => (w.locks call.line).holder? == some c
      | _ =>
        match call.wake with
        | some t => t ≤ w.now
        | none => false)

/-- The first action that an element of a list gives rise to. -/
def firstOf {α : Type} (xs : List α) (test : Nat → α → Bool) (action : Nat → Action) :
    Option Action :=
  (xs.zipIdx.find? fun (x, i) => test i x).map fun (_, i) => action i

/-- The times at which somebody's turn comes. -/
def wakeTimes (w : World) : List Nat :=
  w.calls.filterMap fun call =>
    if call.stage.isOver || call.aborted || call.awake then none else call.wake

/-- What happens next: callers look, then the session whose turn it is goes on, then what was left
behind is given up, then somebody gets his turn, and else the time passes. -/
def next? (w : World) : Option Action :=
  firstOf w.bridges (fun _ b => w.hasNews b) .look <|>
  firstOf w.calls (fun _ call => call.awake) .step <|>
  firstOf w.calls (fun _ call => call.aborted && !call.stage.isOver) .dispose <|>
  firstOf w.calls w.isDue .poll <|>
  (w.wakeTimes.min?).map fun t => .wait (t - w.now)

/-- What there is when all that can happen has happened, or after so many actions. -/
def settle (s : Setting) : Nat → World → World
  | 0, w => w
  | bound + 1, w =>
    match w.next? with
    | some action => settle s bound (w.act s action)
    | none => w

end TokenFeedback.World
