import TokenFeedback.Bytes
import TokenFeedback.Text.Outline

/-!
# The structures of handshake messages

How the parts of handshake messages are written: numbers of a fixed width, and runs of bytes and
lists of items behind their length.

* `Corruption`: why bytes are no such structure; `Corruption.text` is its name.
* `Wire`: a reader, which takes bytes from the front of its input.
* `Wire.within`: reads a part of known length; what is left of the part is passed over.
-/

namespace TokenFeedback

/-- Why bytes are no structure of the protocol. -/
inductive Corruption where
  /-- The bytes end before this. -/
  | missing (what : String)
  /-- A length goes beyond the bytes. -/
  | tooShort
  | trailing (place : String)
  | emptyList (items : String)
  | duplicateExtension (id : Nat)
  /-- A message that is never sent. -/
  | unsendable (message : String)
  /-- Any other reason, by its name. -/
  | other (name : String)
  deriving Repr, DecidableEq

def Corruption.text : Corruption → String
  | .missing what => Text.wrapped "MissingData" (Text.quoted what)
  | .tooShort => "MessageTooShort"
  | .trailing place => Text.wrapped "TrailingData" (Text.quoted place)
  | .emptyList items => Text.wrapped "IllegalEmptyList" (Text.quoted items)
  | .duplicateExtension id => Text.wrapped "DuplicateExtension" (toString id)
  | .unsendable message => Text.wrapped "UnexpectedMessage" (Text.quoted message)
  | .other name => name

/-- A reader. -/
abbrev Wire (α : Type) := StateT Bytes (Except Corruption) α

namespace Wire

variable {α : Type}

def fail (c : Corruption) : Wire α := fun _ => .error c

/-- The whole input. -/
def rest : Wire Bytes := fun input => .ok (input, [])

/-- The input has to end here. -/
def ending (place : String) : Wire Unit := fun input =>
  if input.isEmpty then .ok ((), input) else .error (.trailing place)

/-- So many bytes, under the name of what they are. -/
def chunk (n : Nat) (name : String) : Wire Bytes := fun input =>
  if holds input n then .ok (input.take n, input.drop n) else .error (.missing name)

/-- A number of the given width, under the name of what it is. -/
def number (width : Nat) (name : String) : Wire Nat := do
  return ofBigEndian (← chunk width name)

/-- A number that is just that. -/
def plain (width : Nat) : Wire Nat := number width ("u" ++ toString (8 * width))

/-- Reads from the next `n` bytes. What the reader leaves of them is passed over. -/
def within (n : Nat) (inner : Wire α) : Wire α := fun input =>
  if holds input n then (inner (input.take n)).map fun (a, _) => (a, input.drop n)
  else .error .tooShort

/-- Bytes behind their length. -/
def run (width : Nat) : Wire Bytes := do within (← plain width) rest

/-- A number that is not zero. -/
def positive (width : Nat) (refusal : Corruption) : Wire Nat := do
  let n ← plain width
  if n = 0 then fail refusal else return n

/-- At least one byte, behind the length. -/
def filledRun (width : Nat) : Wire Bytes := do
  within (← positive width (.other "IllegalEmptyValue")) rest

/-- At most so many items, to the end of the input. -/
def items (item : Wire α) : Nat → Wire (List α)
  | 0 => pure []
  | limit + 1 => do
    if (← get).isEmpty then return []
    let a ← item
    return a :: (← items item limit)

/-- Items to the end of the input. Each of them takes a byte or more. -/
def toEnd (item : Wire α) : Wire (List α) := fun input => items item input.length input

/-- Items behind their length. -/
def list (length : Wire Nat) (item : Wire α) : Wire (List α) := do within (← length) (toEnd item)

/-- One item or more, behind the length. -/
def filledList (width : Nat) (names : String) (item : Wire α) : Wire (List α) :=
  list (positive width (.emptyList names)) item

end Wire

end TokenFeedback
