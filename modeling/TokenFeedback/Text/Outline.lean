import TokenFeedback.Bytes
import TokenFeedback.Text.Digits
import TokenFeedback.Text.Visible

/-!
# Outlines of values

How values are shown in diagnostics: texts in quotes, and values by the names of their parts.

* `quoted`: a text with a backslash before quotes, and escapes for what cannot be seen.
* `quotedBytes`: bytes in quotes, with escapes for those that are no visible characters.
* `outline`, `openOutline`: a value by its named parts, all of them or only some.
* `listing`, `optional`: several values, and one or none.
-/

namespace TokenFeedback.Text

/-- A number in hexadecimal, without leading zeros. -/
def hexNumber (n : Nat) : String := String.ofList (Nat.toDigits 16 n)

/-- A character as it stands between quotes. -/
def escaped (c : Char) : String :=
  if c = '\x00' then "\\0"
  else if c = '\t' then "\\t"
  else if c = '\n' then "\\n"
  else if c = '\r' then "\\r"
  else if c = '"' then "\\\""
  else if c = '\\' then "\\\\"
  else if isHidden c then "\\u\x7b" ++ hexNumber c.toNat ++ "\x7d"
  else String.singleton c

/-- A text in quotes. -/
def quoted (s : String) : String :=
  "\"" ++ String.join (s.toList.map escaped) ++ "\""

/-- A byte as it stands between quotes. -/
def escapedByte (b : UInt8) : String :=
  if b = 0 then "\\0"
  else if b = 9 then "\\t"
  else if b = 10 then "\\n"
  else if b = 13 then "\\r"
  else if b = 34 then "\\\""
  else if b = 92 then "\\\\"
  else if 32 ≤ b ∧ b < 127 then String.singleton (Char.ofNat b.toNat)
  else "\\x" ++ String.ofList (hexPair b)

/-- Bytes in quotes, behind the mark that they are bytes. -/
def quotedBytes (bytes : Bytes) : String :=
  "b\"" ++ String.join (bytes.map escapedByte) ++ "\""

/-- The parts of a value, each behind its name. -/
def named (parts : List (String × String)) : List String :=
  parts.map fun (name, value) => name ++ ": " ++ value

/-- A value by its type and all of its parts. -/
def outline (type : String) (parts : List (String × String)) : String :=
  type ++ " \x7b " ++ join ", " (named parts) ++ " \x7d"

/-- A value by its type and some of its parts. -/
def openOutline (type : String) (parts : List (String × String)) : String :=
  type ++ " \x7b " ++ join ", " (named parts ++ [".."]) ++ " \x7d"

/-- Values in order. -/
def listing (values : List String) : String := "[" ++ join ", " values ++ "]"

/-- A value in round brackets behind the name of its form. -/
def wrapped (form value : String) : String := form ++ "(" ++ value ++ ")"

/-- A value that may be missing. -/
def optional : Option String → String
  | some value => wrapped "Some" value
  | none => "None"

end TokenFeedback.Text
