/-!
# Decimal digits

Numbers as fixed-width or signed decimal text.

* `padded`: at least so many digits, filled up with zeros on the left.
* `fraction`: a fraction of a power of ten, trailing zeros dropped.
-/

namespace TokenFeedback.Text

/-- The decimal digits of `n`, at least `width` of them. -/
def padded (width n : Nat) : String :=
  let digits := (toString n).toList
  String.ofList (List.replicate (width - digits.length) '0' ++ digits)

/-- `n / 10 ^ places` as the digits behind the point: exact, with no trailing zero, and with
no point at all when `n` is zero. -/
def fraction (places n : Nat) : String :=
  if n = 0 then ""
  else
    let digits := (padded places n).toList
    "." ++ String.ofList ((digits.reverse.dropWhile (· == '0')).reverse)

/-- Texts with a separator between neighbours. -/
def join (separator : String) (parts : List String) : String :=
  separator.intercalate parts

end TokenFeedback.Text
