import TokenFeedback.Bytes

/-!
# Texts as bytes

Which bytes spell a text, and where the first fault lies in those that do not.

* `Utf8Fault`: where the fault starts, and how many bytes belong to it; no count when the bytes end
  too early.
* `Utf8.characters`: the characters of the bytes up to the first fault.
* `ofUtf8`: the text that bytes spell.
-/

namespace TokenFeedback.Text

/-- What is wrong with bytes that spell no text. -/
structure Utf8Fault where
  /-- The bytes in front of it spell a text. -/
  start : Nat
  /-- How many bytes belong to it; none if the last character is cut off. -/
  width : Option Nat
  deriving Repr, DecidableEq

def Utf8Fault.message (f : Utf8Fault) : String :=
  match f.width with
  | some n => s!"invalid utf-8 sequence of {n} bytes from index {f.start}"
  | none => s!"incomplete utf-8 byte sequence from index {f.start}"

namespace Utf8

/-- How many bytes follow a first byte, and which ones may come second; nothing for a byte that
starts no character. The ranges leave out long spellings of short characters, the surrogates, and
all that lies above the last character. -/
def follow? (first : UInt8) : Option (Nat × UInt8 × UInt8) :=
  if first < 0x80 then some (0, 0x80, 0xBF)
  else if first < 0xC2 then none
  else if first < 0xE0 then some (1, 0x80, 0xBF)
  else if first = 0xE0 then some (2, 0xA0, 0xBF)
  else if first = 0xED then some (2, 0x80, 0x9F)
  else if first < 0xF0 then some (2, 0x80, 0xBF)
  else if first = 0xF0 then some (3, 0x90, 0xBF)
  else if first < 0xF4 then some (3, 0x80, 0xBF)
  else if first = 0xF4 then some (3, 0x80, 0x8F)
  else none

/-- The bits that a first byte gives to its character, by the number of bytes behind it. -/
def leading (first : UInt8) : Nat → Nat
  | 0 => first.toNat
  | 1 => first.toNat % 32
  | 2 => first.toNat % 16
  | _ => first.toNat % 8

/-- Reads `missing` more bytes of a character; `read` of its bytes have been read, and `value`
is what they spell. -/
def more (start read : Nat) (value : Nat) :
    (missing : Nat) → (low high : UInt8) → Bytes → Except Utf8Fault (Nat × Bytes)
  | 0, _, _, rest => .ok (value, rest)
  | _ + 1, _, _, [] => .error ⟨start, none⟩
  | missing + 1, low, high, b :: rest =>
    if low ≤ b ∧ b ≤ high then
      more start (read + 1) (value * 64 + b.toNat % 64) missing 0x80 0xBF rest
    else .error ⟨start, some read⟩

/-- The first character of some bytes. -/
def character (start : Nat) (first : UInt8) (rest : Bytes) :
    Except Utf8Fault (Char × Nat × Bytes) :=
  match follow? first with
  | none => .error ⟨start, some 1⟩
  | some (n, low, high) =>
    (more start 1 (leading first n) n low high rest).map fun (value, rest) =>
      (Char.ofNat value, n, rest)

/-- The characters that bytes spell. The fuel is a bound on their number. -/
def characters (start : Nat) : Nat → Bytes → Except Utf8Fault (List Char)
  | _, [] => .ok []
  | 0, _ :: _ => .error ⟨start, none⟩
  | fuel + 1, b :: rest =>
    match character start b rest with
    | .error f => .error f
    | .ok (c, n, rest) => (characters (start + n + 1) fuel rest).map (c :: ·)

end Utf8

/-- The text that bytes spell. -/
def ofUtf8 (bytes : Bytes) : Except Utf8Fault String :=
  (Utf8.characters 0 bytes.length bytes).map String.ofList

end TokenFeedback.Text
