import TokenFeedback.Bytes

/-!
# Bytes in hexadecimal

A run of bytes is written with two lower-case digits a byte, and is read back from them.

* `ofHex?`: the bytes that a hexadecimal text spells, in either case.
* `length_hexText`, `mem_hexText`: the text has two digits a byte, in lower case.
* `ofHex?_hexText`: **the text of bytes spells these bytes.**
-/

namespace TokenFeedback

/-- The value of a hexadecimal digit. -/
def hexValue? (c : Char) : Option Nat :=
  if '0' ≤ c ∧ c ≤ '9' then some (c.toNat - 48)
  else if 'a' ≤ c ∧ c ≤ 'f' then some (c.toNat - 87)
  else if 'A' ≤ c ∧ c ≤ 'F' then some (c.toNat - 55)
  else none

/-- The bytes that hexadecimal digits spell, two digits a byte. -/
def ofHexDigits? : List Char → Option Bytes
  | [] => some []
  | [_] => none
  | high :: low :: digits =>
    match hexValue? high, hexValue? low with
    | some h, some l => (ofHexDigits? digits).map (UInt8.ofNat (16 * h + l) :: ·)
    | _, _ => none

/-- The bytes that a hexadecimal text spells. -/
def ofHex? (text : String) : Option Bytes := ofHexDigits? text.toList

/-- The digits of lower-case hexadecimal text. -/
def hexDigits : List Char :=
  ['0', '1', '2', '3', '4', '5', '6', '7', '8', '9', 'a', 'b', 'c', 'd', 'e', 'f']

theorem hexDigit_spec : ∀ n < 16, hexDigit n ∈ hexDigits ∧ hexValue? (hexDigit n) = some n := by
  decide

theorem toList_hexText (bytes : Bytes) : (hexText bytes).toList = bytes.flatMap hexPair :=
  String.toList_ofList

/-- Two digits a byte. -/
theorem length_hexText (bytes : Bytes) : (hexText bytes).length = 2 * bytes.length := by
  rw [← String.length_toList, toList_hexText]
  induction bytes with
  | nil => rfl
  | cons b bytes ih =>
    have hpair : (hexPair b).length = 2 := rfl
    rw [List.flatMap_cons, List.length_append, List.length_cons, hpair, ih]
    omega

/-- All digits are in lower case. -/
theorem mem_hexText {bytes : Bytes} {c : Char} (h : c ∈ (hexText bytes).toList) :
    c ∈ hexDigits := by
  rw [toList_hexText] at h
  obtain ⟨b, -, hc⟩ := List.mem_flatMap.1 h
  have hb := b.toNat_lt
  rcases List.mem_cons.1 hc with rfl | hc
  · exact (hexDigit_spec _ (by omega)).1
  · rw [List.mem_singleton.1 hc]
    exact (hexDigit_spec _ (by omega)).1

/-- **The text of bytes spells these bytes.** -/
theorem ofHex?_hexText (bytes : Bytes) : ofHex? (hexText bytes) = some bytes := by
  rw [ofHex?, toList_hexText]
  induction bytes with
  | nil => rfl
  | cons b bytes ih =>
    have hb := b.toNat_lt
    have hhigh := (hexDigit_spec (b.toNat / 16) (by omega)).2
    have hlow := (hexDigit_spec (b.toNat % 16) (by omega)).2
    have hbyte : UInt8.ofNat (16 * (b.toNat / 16) + b.toNat % 16) = b := by
      rw [Nat.div_add_mod, UInt8.ofNat_toNat]
    rw [List.flatMap_cons, hexPair, List.cons_append, List.cons_append, List.nil_append,
      ofHexDigits?, hhigh, hlow, ih]
    simp only [Option.map_some, hbyte]

theorem hexText_inj {a b : Bytes} (h : hexText a = hexText b) : a = b := by
  have hread := congrArg ofHex? h
  rw [ofHex?_hexText, ofHex?_hexText] at hread
  exact Option.some.inj hread

end TokenFeedback
