/-!
# Bytes

What travels on the wire, and the two ways this library writes it down.

* `bigEndian`, `ofBigEndian`: a number as a fixed count of bytes, most significant first.
* `hexText`: two lower-case digits a byte.
* `holds`: whether a run has at least so many bytes, without walking the rest of it.
-/

namespace TokenFeedback

/-- A run of bytes. -/
abbrev Bytes := List UInt8

/-- The low `8 * width` bits of `n`, most significant byte first. -/
def bigEndian : Nat → Nat → Bytes
  | 0, _ => []
  | width + 1, n => bigEndian width (n / 256) ++ [UInt8.ofNat n]

/-- The number that a run of bytes spells, most significant byte first. -/
def ofBigEndian (bytes : Bytes) : Nat :=
  bytes.foldl (fun n b => n * 256 + b.toNat) 0

@[simp] theorem length_bigEndian (width n : Nat) : (bigEndian width n).length = width := by
  induction width generalizing n with
  | zero => rfl
  | succ width ih => simp [bigEndian, ih]

/-- Does the run have at least `n` bytes? -/
def holds (bytes : Bytes) (n : Nat) : Bool :=
  n == 0 || !(bytes.drop (n - 1)).isEmpty

theorem holds_iff (bytes : Bytes) (n : Nat) : holds bytes n = true ↔ n ≤ bytes.length := by
  cases n with
  | zero => simp [holds]
  | succ n =>
    rw [holds, Nat.add_sub_cancel, Bool.or_eq_true, Bool.not_eq_true', Nat.succ_le_iff]
    rw [← Bool.not_eq_true, List.isEmpty_iff, List.drop_eq_nil_iff, Nat.not_le]
    exact ⟨fun h => h.resolve_left (by simp), .inr⟩

/-- One hexadecimal digit, lower case. -/
def hexDigit (n : Nat) : Char :=
  if n < 10 then Char.ofNat (48 + n) else Char.ofNat (87 + n)

/-- The two hexadecimal digits of a byte. -/
def hexPair (b : UInt8) : List Char :=
  [hexDigit (b.toNat / 16), hexDigit (b.toNat % 16)]

/-- A run of bytes in hexadecimal. -/
def hexText (bytes : Bytes) : String :=
  String.ofList (bytes.flatMap hexPair)

/-- The bytes of a text. -/
def textBytes (s : String) : Bytes :=
  s.toUTF8.toList

end TokenFeedback
