/-!
# Texts in pieces

Texts as lists of characters, cut at separators.

* `pieces`: what stands between the separators; always one piece more than there are separators.
* `cutAtDouble?`: what stands before and behind the first place where a character stands twice.
* `number?`: the number that digits spell.
-/

namespace TokenFeedback.Text

/-- What stands between the separators of a text. -/
def pieces (separator : Char) : List Char → List (List Char)
  | [] => [[]]
  | c :: rest =>
    if c = separator then [] :: pieces separator rest
    else
      match pieces separator rest with
      | [] => [[c]]
      | piece :: later => (c :: piece) :: later

/-- What stands before and behind the first `c` that another `c` follows. -/
def cutAtDouble? (c : Char) : List Char → Option (List Char × List Char)
  | a :: b :: rest =>
    if a = c ∧ b = c then some ([], rest)
    else (cutAtDouble? c (b :: rest)).map fun (before, behind) => (a :: before, behind)
  | _ => none

/-- The value of a digit in a base of at most sixteen. -/
def digit? (base : Nat) (c : Char) : Option Nat :=
  let value? :=
    if '0' ≤ c ∧ c ≤ '9' then some (c.toNat - 48)
    else if 'a' ≤ c ∧ c ≤ 'f' then some (c.toNat - 87)
    else if 'A' ≤ c ∧ c ≤ 'F' then some (c.toNat - 55)
    else none
  value?.filter (· < base)

/-- The number that digits spell; there has to be one, and nothing but digits. -/
def number? (base : Nat) (digits : List Char) : Option Nat :=
  if digits.isEmpty then none
  else digits.foldlM (fun n c => (digit? base c).map (n * base + ·)) 0

end TokenFeedback.Text
