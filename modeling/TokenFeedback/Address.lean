import TokenFeedback.Text.Outline
import TokenFeedback.Text.Pieces

/-!
# Internet addresses

Addresses of versions 4 and 6, and their texts.

* `Ipv4.ofText?`: four decimal numbers, none with a leading zero.
* `Ipv6.ofText?`: eight hexadecimal groups, a run of zero groups left out at a double colon; the
  last two groups may be written as an address of version 4.
* `Ipv6.text`: the longest run of zero groups is left out, the first of several.
-/

namespace TokenFeedback

/-- An address of version 4. -/
structure Ipv4 where
  octets : List UInt8
  four : octets.length = 4

/-- An address of version 6, in groups of two bytes. -/
structure Ipv6 where
  groups : List UInt16
  eight : groups.length = 8

namespace Ipv4

/-- A number from 0 to 255, with no leading zero. -/
def octet? (digits : List Char) : Option UInt8 :=
  if digits.length ≤ 3 ∧ (digits.length = 1 ∨ digits.head? ≠ some '0') then
    (Text.number? 10 digits).bind fun n => if n < 256 then some (UInt8.ofNat n) else none
  else none

def ofChars? (s : List Char) : Option Ipv4 :=
  match (Text.pieces '.' s).mapM octet? with
  | some [a, b, c, d] => some ⟨[a, b, c, d], rfl⟩
  | _ => none

def ofText? (s : String) : Option Ipv4 := ofChars? s.toList

def text (a : Ipv4) : String := Text.join "." (a.octets.map fun b => s!"{b}")

def debugText (a : Ipv4) : String :=
  Text.wrapped "V4" (Text.wrapped "Ipv4Addr" (Text.listing (a.octets.map fun b => s!"{b}")))

/-- The address as two groups of an address of version 6. -/
def groups (a : Ipv4) : List UInt16 :=
  match a.octets with
  | [w, x, y, z] => [w.toUInt16 * 256 + x.toUInt16, y.toUInt16 * 256 + z.toUInt16]
  | _ => []

end Ipv4

namespace Ipv6

/-- A group of one to four hexadecimal digits. -/
def group? (digits : List Char) : Option UInt16 :=
  if digits.length ≤ 4 then (Text.number? 16 digits).map UInt16.ofNat else none

/-- The groups that pieces stand for; the last piece may be an address of version 4. -/
def groupsOf : List (List Char) → Option (List UInt16)
  | [] => some []
  | [last] =>
    match Ipv4.ofChars? last with
    | some a => some a.groups
    | none => (group? last).map ([·])
  | piece :: later => do
    let g ← group? piece
    let gs ← groupsOf later
    return g :: gs

/-- The pieces on one side of a double colon; there may be none. -/
def side (s : List Char) : List (List Char) := if s.isEmpty then [] else Text.pieces ':' s

def ofChars? (s : List Char) : Option Ipv6 :=
  match Text.cutAtDouble? ':' s with
  | none =>
    match groupsOf (Text.pieces ':' s) with
    | some gs => if h : gs.length = 8 then some ⟨gs, h⟩ else none
    | none => none
  | some (before, behind) =>
    match (side before).mapM group?, groupsOf (side behind) with
    | some head, some tail =>
      if h : head.length + tail.length < 8 then
        some ⟨head ++ List.replicate (8 - head.length - tail.length) 0 ++ tail, by simp; omega⟩
      else none
    | _, _ => none

def ofText? (s : String) : Option Ipv6 := ofChars? s.toList

/-- The bytes of the address. -/
def octets (a : Ipv6) : List UInt8 := a.groups.flatMap fun g => [(g / 256).toUInt8, g.toUInt8]

/-- The length of the run of zeros that a list begins with. -/
def leadingZeros (gs : List UInt16) : Nat := (gs.takeWhile (· == 0)).length

/-- The longest run of zero groups, as its start and its length, among those that begin at
`start` or later; the first of several. -/
def longestRun (start : Nat) : List UInt16 → Nat × Nat
  | [] => (start, 0)
  | g :: gs =>
    let here := leadingZeros (g :: gs)
    let later := longestRun (start + 1) gs
    if later.2 ≤ here then (start, here) else later

/-- Groups in hexadecimal with colons between them. -/
def groupsText (gs : List UInt16) : String :=
  Text.join ":" (gs.map fun g => Text.hexNumber g.toNat)

/-- The embedded address of version 4, if the address is one of those that embed one. -/
def mapped? (a : Ipv6) : Option Ipv4 :=
  match a.groups with
  | [0, 0, 0, 0, 0, 65535, g, h] =>
    some ⟨[(g / 256).toUInt8, g.toUInt8, (h / 256).toUInt8, h.toUInt8], rfl⟩
  | _ => none

/-- The shortest text. -/
def text (a : Ipv6) : String :=
  match a.mapped? with
  | some v4 => "::ffff:" ++ v4.text
  | none =>
    let (start, length) := longestRun 0 a.groups
    if length > 1 then
      groupsText (a.groups.take start) ++ "::" ++ groupsText (a.groups.drop (start + length))
    else groupsText a.groups

def debugText (a : Ipv6) : String :=
  Text.wrapped "V6" (Text.wrapped "Ipv6Addr" (Text.listing (a.octets.map fun b => s!"{b}")))

end Ipv6

end TokenFeedback
