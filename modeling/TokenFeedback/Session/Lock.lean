/-!
# The session lock

Sessions of one connection run one after another. Who asks first goes first, and who leaves hands
over to the next in the queue, who has the lock from then on.

* `Lock.ask`: asks for the lock.
* `Lock.leave`: gives the lock up, or the place in the queue.
-/

namespace TokenFeedback

inductive Lock where
  | free
  | held (holder : Nat) (queue : List Nat)
  deriving Repr, DecidableEq

namespace Lock

def holder? : Lock → Option Nat
  | free => none
  | held h _ => some h

def queue : Lock → List Nat
  | free => []
  | held _ q => q

/-- Takes the lock if it is free, and else the last place of the queue. -/
def ask (c : Nat) : Lock → Lock
  | free => held c []
  | held h q => held h (q ++ [c])

/-- Gives up the lock or the place in the queue. -/
def leave (c : Nat) : Lock → Lock
  | free => free
  | held h q =>
    if h = c then
      match q with
      | [] => free
      | next :: q => held next q
    else held h (q.filter (· ≠ c))

end Lock

end TokenFeedback
