import TokenFeedback.Bytes

/-!
# Base64

Six bits a character. Blanks are skipped, the padding of the last characters may be missing, and
bits that do not fill a byte are dropped.

Characters are taken in blocks of eight. Padding inside a block is noticed only once the block is
over, so which error is reported depends on the blocks.

* `Base64.decode`: the bytes of a text, or what is wrong with it.
* `Base64.encode`: the text of the bytes, padded.
-/

namespace TokenFeedback.Base64

/-- What is wrong with a text. -/
inductive Error where
  | invalidCharacter (b : UInt8)
  | prematurePadding
  | invalidTrailingPadding
  deriving Repr, DecidableEq

def Error.message : Error → String
  | .invalidCharacter b => s!"InvalidCharacter({b})"
  | .prematurePadding => "PrematurePadding"
  | .invalidTrailingPadding => "InvalidTrailingPadding"

/-- A character that counts: six bits, or padding. -/
inductive Symbol where
  | digit (bits : Nat)
  | pad
  deriving Repr, DecidableEq

namespace Symbol

def isPad : Symbol → Bool
  | .pad => true
  | .digit _ => false

/-- The six bits; padding has none set. -/
def bits : Symbol → Nat
  | .digit n => n
  | .pad => 0

end Symbol

/-- Tab, the line ends, vertical tab, form feed and space. -/
def isBlank (b : UInt8) : Bool := (9 ≤ b && b ≤ 13) || b == 32

/-- The character's symbol, if it is one of the alphabet or padding. -/
def symbol? (b : UInt8) : Option Symbol :=
  if 65 ≤ b ∧ b ≤ 90 then some (.digit (b.toNat - 65))
  else if 97 ≤ b ∧ b ≤ 122 then some (.digit (b.toNat - 71))
  else if 48 ≤ b ∧ b ≤ 57 then some (.digit (b.toNat + 4))
  else if b = 43 then some (.digit 62)
  else if b = 47 then some (.digit 63)
  else if b = 61 then some .pad
  else none

/-- The bytes that symbols spell, four symbols to three bytes; a byte takes at least the six bits
of one symbol and two of the next. -/
def join : List Symbol → Bytes
  | a :: b :: c :: d :: rest =>
    let n := ((a.bits * 64 + b.bits) * 64 + c.bits) * 64 + d.bits
    bigEndian 3 n ++ join rest
  | [a, b, c] => bigEndian 2 (((a.bits * 64 + b.bits) * 64 + c.bits) / 4)
  | [a, b] => bigEndian 1 ((a.bits * 64 + b.bits) / 16)
  | _ => []

/-- The last characters, at most four: full, or cut short with or without padding. -/
def lastFour : List Symbol → Except Error Bytes
  | [] => .ok []
  | [.digit a, .digit b, .pad, .pad] => .ok (join [.digit a, .digit b])
  | [.digit a, .digit b, .digit c, .pad] => .ok (join [.digit a, .digit b, .digit c])
  | [.digit a, .digit b, .digit c, .digit d] =>
    .ok (join [.digit a, .digit b, .digit c, .digit d])
  | [.digit a, .digit b, .digit c] => .ok (join [.digit a, .digit b, .digit c])
  | [.digit a, .digit b] => .ok (join [.digit a, .digit b])
  | _ => .error .invalidTrailingPadding

/-- The last block, at most eight characters. -/
def lastBlock (block : List Symbol) : Except Error Bytes :=
  if block.length ≤ 4 then lastFour block
  else if (block.take 4).any Symbol.isPad then .error .prematurePadding
  else do
    let last ← lastFour (block.drop 4)
    return join (block.take 4) ++ last

/-- The rest of a text behind the symbols of a block that is not over. -/
def decodeFrom (block : List Symbol) : Bytes → Except Error Bytes
  | [] => lastBlock block
  | b :: rest =>
    if isBlank b then decodeFrom block rest
    else
      match symbol? b with
      | none => .error (.invalidCharacter b)
      | some s =>
        if block.length < 8 then decodeFrom (block ++ [s]) rest
        else if block.any Symbol.isPad then .error .prematurePadding
        else do
          let later ← decodeFrom [s] rest
          return join block ++ later

/-- The bytes of a text. -/
def decode (text : Bytes) : Except Error Bytes := decodeFrom [] text

/-- The character of six bits. -/
def character (n : Nat) : UInt8 :=
  if n < 26 then UInt8.ofNat (n + 65)
  else if n < 52 then UInt8.ofNat (n + 71)
  else if n < 62 then UInt8.ofNat (n - 4)
  else if n = 62 then 43
  else 47

/-- The text of the bytes: three bytes to four characters, the last ones padded. -/
def encode : Bytes → Bytes
  | a :: b :: c :: rest =>
    let n := ofBigEndian [a, b, c]
    [character (n / 262144), character (n / 4096 % 64), character (n / 64 % 64),
      character (n % 64)] ++ encode rest
  | [a, b] =>
    let n := ofBigEndian [a, b, 0]
    [character (n / 262144), character (n / 4096 % 64), character (n / 64 % 64), 61]
  | [a] => [character (a.toNat / 4), character (a.toNat % 4 * 16), 61, 61]
  | [] => []

end TokenFeedback.Base64
