/-!
# Cancel handles

Whoever holds a handle can cancel the calls that were made with it. A copy of a handle stands for
the same calls as the handle. Once cancelled, a handle stays cancelled.

* `Handles`: handles by number, each with the flag that it shares with its copies.
-/

namespace TokenFeedback

/-- Handles, each by the flag that it stands for, and the flags that are raised. -/
structure Handles where
  flagOf : List Nat
  raised : List Nat
  /-- The flags in use are below this one. -/
  nextFlag : Nat
  deriving Repr, DecidableEq

namespace Handles

/-- One handle, not cancelled. -/
def one : Handles := ⟨[0], [], 1⟩

/-- Adds a handle. -/
def add (hs : Handles) : Handles :=
  { hs with flagOf := hs.flagOf ++ [hs.nextFlag], nextFlag := hs.nextFlag + 1 }

/-- Adds a copy of a handle. -/
def copy (hs : Handles) (h : Nat) : Handles :=
  { hs with flagOf := hs.flagOf ++ (hs.flagOf[h]?).toList }

/-- Puts a new handle in the place of one. -/
def replace (hs : Handles) (h : Nat) : Handles :=
  { hs with flagOf := hs.flagOf.set h hs.nextFlag, nextFlag := hs.nextFlag + 1 }

/-- Is the handle cancelled? -/
def isCancelled (hs : Handles) (h : Nat) : Bool :=
  match hs.flagOf[h]? with
  | some flag => hs.raised.contains flag
  | none => false

def cancel (hs : Handles) (h : Nat) : Handles :=
  match hs.flagOf[h]? with
  | some flag => { hs with raised := flag :: hs.raised }
  | none => hs

/-- All handles: which are cancelled? -/
def states (hs : Handles) : List Bool := (List.range hs.flagOf.length).map hs.isCancelled

end Handles

end TokenFeedback
