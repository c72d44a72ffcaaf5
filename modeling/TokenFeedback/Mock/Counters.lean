/-!
# Connection counters

A server counts the connections that it has accepted, that are open, and that are over, and the most
that were ever open at once. Others may wait until so many are over. Every count, every signal and
every look at a count is a step of its own, and the steps of different parties come in any order.

* `Counters`: the counts, the connections on their way, and those who wait.
* `Counters.Action`: the steps of the one who accepts, of the connections that finish, and of those
  who wait.
* `Counters.act`: one step; a step that is out of place changes nothing.
-/

namespace TokenFeedback

/-- The counts. -/
structure Tally where
  accepted : Nat
  active : Nat
  peak : Nat
  closed : Nat
  deriving Repr, DecidableEq

def Tally.zero : Tally := ⟨0, 0, 0, 0⟩

/-- How far the one who accepts has come with a new connection. -/
inductive Opening where
  | idle
  /-- Counted as accepted. -/
  | accepted
  /-- Counted as open, which made this many. -/
  | counted (active : Nat)
  deriving Repr, DecidableEq

/-- How far a connection is from being over. -/
inductive Finishing where
  | working
  /-- Not counted as open any more. -/
  | left
  /-- Counted as over. -/
  | closed
  /-- Has signalled that it is over. -/
  | over
  deriving Repr, DecidableEq

/-- How far someone who waits has come. -/
inductive Waiting where
  /-- Has still to say that he listens. -/
  | outside
  /-- Listens for signals. -/
  | registered
  /-- Has looked and found too few. -/
  | checked
  /-- Sleeps until there is a signal. -/
  | suspended
  | returned
  deriving Repr, DecidableEq

/-- Someone who waits until so many connections are over. -/
structure Waiter where
  target : Nat
  place : Waiting
  /-- Was there a signal since he began to listen? -/
  signalled : Bool
  deriving Repr, DecidableEq

structure Counters where
  tally : Tally
  opening : Opening
  connections : List Finishing
  waiters : List Waiter
  deriving Repr, DecidableEq

namespace Counters

def start : Counters := ⟨.zero, .idle, [], []⟩

/-- The one who accepts goes on with a new connection. -/
def openStep (s : Counters) : Counters :=
  match s.opening with
  | .idle =>
    { s with opening := .accepted, tally := { s.tally with accepted := s.tally.accepted + 1 } }
  | .accepted =>
    { s with
      opening := .counted (s.tally.active + 1)
      tally := { s.tally with active := s.tally.active + 1 } }
  | .counted active =>
    { s with
      opening := .idle
      tally := { s.tally with peak := max s.tally.peak active }
      connections := s.connections ++ [.working] }

/-- Everyone who listens has a signal. -/
def signal (waiters : List Waiter) : List Waiter :=
  waiters.map fun w =>
    match w.place with
    | .outside => w
    | .returned => w
    | _ => { w with signalled := true }

/-- A connection goes on to its end. -/
def finishStep (s : Counters) (i : Nat) : Counters :=
  match s.connections[i]? with
  | some .working =>
    { s with
      connections := s.connections.set i .left
      tally := { s.tally with active := s.tally.active - 1 } }
  | some .left =>
    { s with
      connections := s.connections.set i .closed
      tally := { s.tally with closed := s.tally.closed + 1 } }
  | some .closed =>
    { s with connections := s.connections.set i .over, waiters := signal s.waiters }
  | _ => s

/-- Someone who waits goes on. A signal that came while he was looking is not lost: it ends his
sleep at once. -/
def waiterStep (closed : Nat) (w : Waiter) : Waiter :=
  match w.place with
  | .outside => { w with place := .registered, signalled := false }
  | .registered => { w with place := if w.target ≤ closed then .returned else .checked }
  | .checked => { w with place := .suspended }
  | .suspended => if w.signalled then { w with place := .outside } else w
  | .returned => w

def waitStep (s : Counters) (i : Nat) : Counters :=
  match s.waiters[i]? with
  | some w => { s with waiters := s.waiters.set i (waiterStep s.tally.closed w) }
  | none => s

/-- Everything that can happen. -/
inductive Action where
  | opens
  | finishes (connection : Nat)
  /-- Someone comes who will wait until so many are over. -/
  | arrives (target : Nat)
  | waits (waiter : Nat)
  deriving Repr, DecidableEq

def act (s : Counters) : Action → Counters
  | .opens => s.openStep
  | .finishes i => s.finishStep i
  | .arrives target => { s with waiters := s.waiters ++ [⟨target, .outside, false⟩] }
  | .waits i => s.waitStep i

def run (s : Counters) (actions : List Action) : Counters := actions.foldl act s

/-- The counts for someone who waits while nothing else happens: he has them if enough connections
are over, and waits for ever if not. -/
def waitClosed (s : Counters) (target : Nat) : Option Tally :=
  if target ≤ s.tally.closed then some s.tally else none

end Counters

end TokenFeedback
