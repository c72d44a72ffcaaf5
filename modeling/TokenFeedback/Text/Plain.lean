import TokenFeedback.Text.Utf8

/-!
# Plain text

What is left of a text without the control characters and the control sequences of terminals. White
space stays.

A sequence begins with the escape character. Most end with a letter; those that carry a text of
their own end with a terminator. White space inside of a sequence puts an end to hiding: what
follows is shown until the next control character, and there the sequence goes on.

* `Plain.Place`: where in a sequence a reader stands.
* `plain`: a text without what is not shown.
-/

namespace TokenFeedback.Text

namespace Plain

/-- Where in a control sequence a reader stands. -/
inductive Place where
  /-- In no sequence. -/
  | ground
  | escape
  /-- Behind the escape character and a blank or a punctuation mark. -/
  | escapeMiddle
  /-- In a sequence that ends with a letter. -/
  | control
  /-- In a sequence for the device, before its letter: nowhere in particular, among its numbers, or
  behind them. -/
  | deviceHead
  | deviceNumbers
  | deviceMiddle
  /-- In a text that is not shown. -/
  | hiddenText
  /-- In a command for the system around the terminal. -/
  | systemCommand
  deriving DecidableEq, Repr

def escapeByte : UInt8 := 0x1b

/-- Cancelling a sequence. -/
def isCancel (b : UInt8) : Bool := b == 0x18 || b == 0x1a

def isWhite (b : UInt8) : Bool := b == 0x09 || b == 0x0a || b == 0x0c || b == 0x0d

def isMiddle (b : UInt8) : Bool := 0x20 ≤ b && b ≤ 0x2f

def isNumeric (b : UInt8) : Bool := 0x30 ≤ b && b ≤ 0x3f

/-- A mark that may stand only in front of numbers. -/
def isMark (b : UInt8) : Bool := 0x3c ≤ b && b ≤ 0x3f

def isLetter (b : UInt8) : Bool := 0x40 ≤ b && b ≤ 0x7e

/-- The byte that ends a hidden text. -/
def terminator : UInt8 := 0x9c

/-- The byte that ends a command for the system. -/
def bell : UInt8 := 0x07

/-- Where a reader stands behind the escape character and one more byte. -/
def afterEscape (b : UInt8) : Place :=
  if isMiddle b then .escapeMiddle
  else if b = 0x5b then .control
  else if b = 0x5d then .systemCommand
  else if b = 0x50 then .deviceHead
  else if b = 0x58 ∨ b = 0x5e ∨ b = 0x5f then .hiddenText
  else if isNumeric b ∨ isLetter b then .ground
  else .escape

/-- Where a reader stands after one more byte. -/
def Place.next (p : Place) (b : UInt8) : Place :=
  if b = escapeByte then .escape
  else if isCancel b then .ground
  else
    match p with
    | .ground => .ground
    | .escape => afterEscape b
    | .escapeMiddle => if isNumeric b ∨ isLetter b then .ground else .escapeMiddle
    | .control => if isLetter b then .ground else .control
    | .deviceHead =>
      if isMiddle b then .deviceMiddle else if isNumeric b then .deviceNumbers
      else if isLetter b then .hiddenText else .deviceHead
    | .deviceNumbers =>
      if isMiddle b then .deviceMiddle else if isMark b then .hiddenText
      else if isLetter b then .hiddenText else .deviceNumbers
    | .deviceMiddle => if isNumeric b ∨ isLetter b then .hiddenText else .deviceMiddle
    | .hiddenText => if b = terminator then .ground else .hiddenText
    | .systemCommand => if b = bell then .ground else .systemCommand

/-- How many bytes of a character follow its first byte; none for a byte that begins no longer
character. -/
def followers (b : UInt8) : Nat :=
  if 0xc2 ≤ b ∧ b ≤ 0xdf then 1 else if 0xe0 ≤ b ∧ b ≤ 0xef then 2
  else if 0xf0 ≤ b ∧ b ≤ 0xf4 then 3 else 0

/-- Is a byte shown that is read at this place? -/
def Place.shows (p : Place) (b : UInt8) : Bool :=
  match p with
  | .ground => (0x20 ≤ b && b ≤ 0x7e) || isWhite b || followers b != 0
  | .escape | .escapeMiddle | .control => isWhite b
  | _ => false

/-- What is shown of bytes that are read from a place on. Once a byte is shown, those behind it are
read as if they stood in no sequence. -/
def shown (p : Place) (showing : Bool) (input : Bytes) : Bytes :=
  match input with
  | [] => []
  | b :: rest =>
    if (if showing then .ground else p : Place).shows b then
      let n := followers b
      if n = 0 then b :: shown p true rest
      else b :: (rest.take n ++ shown .ground true (rest.drop n))
    else shown (p.next b) false rest
termination_by input.length
decreasing_by
  all_goals simp only [List.length_drop, List.length_cons]; omega

end Plain

/-- A text without what is not shown. -/
def plain (s : String) : String :=
  match ofUtf8 (Plain.shown .ground false (textBytes s)) with
  | .ok t => t
  | .error _ => ""

end TokenFeedback.Text
