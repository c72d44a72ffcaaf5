import TokenFeedback.Bytes

/-!
# Distinguished encoding

Values in the distinguished encoding of ASN.1: a tag byte, the length of the content, and the
content. Each value has one encoding only, and that is required when reading.

* `Der.expect?`: the content of the value with this tag that an input begins with.
* `Der.whole?`: the content of an input that is one value and nothing else.
* `Der.write`: the encoding of a value.
-/

namespace TokenFeedback.Der

abbrev Tag := UInt8

def boolean : Tag := 0x01
def integer : Tag := 0x02
def bitString : Tag := 0x03
def octetString : Tag := 0x04
def objectId : Tag := 0x06
def utf8Text : Tag := 0x0c
def utcTime : Tag := 0x17
def sequence : Tag := 0x30
def set : Tag := 0x31
def context0 : Tag := 0xa0
def context1 : Tag := 0xa1
def implicit1 : Tag := 0x81
def context3 : Tag := 0xa3

/-- A length that takes `width` bytes and would not fit in fewer. -/
def longLength? (width : Nat) (input : Bytes) : Option (Nat × Bytes) :=
  let n := ofBigEndian (input.take width)
  let least := if width = 1 then 128 else Nat.pow 256 (width - 1)
  if holds input width ∧ least ≤ n then some (n, input.drop width) else none

/-- The length that an input begins with; up to 127 it is the byte itself. -/
def length? : Bytes → Option (Nat × Bytes)
  | [] => none
  | b :: rest =>
    if b < 128 then some (b.toNat, rest)
    else if 129 ≤ b ∧ b ≤ 132 then longLength? (b.toNat - 128) rest
    else none

/-- Contents are shorter than this. -/
def sizeLimit : Nat := 65535

/-- The content of the value with this tag that the input begins with, and what follows. -/
def expect? (tag : Tag) : Bytes → Option (Bytes × Bytes)
  | [] => none
  | t :: rest =>
    if t = tag then
      match length? rest with
      | some (n, rest) =>
        if n < sizeLimit ∧ holds rest n then some (rest.take n, rest.drop n) else none
      | none => none
    else none

theorem length_of_longLength? {width n : Nat} {input rest : Bytes}
    (h : longLength? width input = some (n, rest)) : rest.length ≤ input.length := by
  unfold longLength? at h
  dsimp only at h
  generalize (if width = 1 then 128 else Nat.pow 256 (width - 1)) = least at h
  split at h
  · simp at h
    simp [← h.2]
  · simp at h

theorem length_of_length? {n : Nat} {input rest : Bytes} (h : length? input = some (n, rest)) :
    rest.length < input.length := by
  cases input with
  | nil => simp [length?] at h
  | cons b more =>
    simp only [length?] at h
    by_cases hs : b < 128
    · simp [hs] at h
      simp [h.2]
    · simp only [hs, if_false] at h
      by_cases hl : 129 ≤ b ∧ b ≤ 132
      · have := length_of_longLength? (by simpa only [hl, and_self, if_true] using h)
        simp
        omega
      · simp [hl] at h

/-- Reading a value takes at least its tag and its length. -/
theorem length_of_expect? {tag : Tag} {input content rest : Bytes}
    (h : expect? tag input = some (content, rest)) : rest.length < input.length := by
  cases input with
  | nil => simp [expect?] at h
  | cons t more =>
    simp only [expect?] at h
    by_cases ht : t = tag
    · simp only [ht, if_true] at h
      cases hn : length? more with
      | none => simp [hn] at h
      | some p =>
        have := @length_of_length? p.1 more p.2 hn
        simp only [hn] at h
        by_cases hf : p.1 < sizeLimit ∧ holds p.2 p.1 = true
        · simp [hf] at h
          simp [← h.2]
          omega
        · simp [hf] at h
    · simp [ht] at h

/-- The content of an input that is one value with this tag. -/
def whole? (tag : Tag) (input : Bytes) : Option Bytes :=
  match expect? tag input with
  | some (content, []) => some content
  | _ => none

/-- The content of the value with this tag, if the input begins with that tag. -/
def optional? (tag : Tag) (input : Bytes) : Option (Option Bytes × Bytes) :=
  if input.head? = some tag then (expect? tag input).map fun (content, rest) => (some content, rest)
  else some (none, input)

/-- The bytes of a bit string that fills them. -/
def fullBits? : Bytes → Option Bytes
  | 0 :: bits => some bits
  | _ => none

/-- A number that is not negative, without needless leading zeros. -/
def natural? : Bytes → Option Nat
  | [] => none
  | [b] => if b < 128 then some b.toNat else none
  | 0 :: b :: rest => if b < 128 then none else some (ofBigEndian (b :: rest))
  | b :: rest => if b < 128 then some (ofBigEndian (b :: rest)) else none

/-- The number that the input begins with. -/
def expectNatural? (input : Bytes) : Option (Nat × Bytes) :=
  match expect? integer input with
  | some (content, rest) => (natural? content).map fun n => (n, rest)
  | none => none

/-- The bytes of a number, without leading zeros. -/
def digits (n : Nat) : Bytes :=
  if n < 256 then [UInt8.ofNat n] else digits (n / 256) ++ [UInt8.ofNat n]
decreasing_by omega

def lengthBytes (n : Nat) : Bytes :=
  if n < 128 then [UInt8.ofNat n]
  else UInt8.ofNat (128 + (digits n).length) :: digits n

/-- The encoding of a value. -/
def write (tag : Tag) (content : Bytes) : Bytes :=
  tag :: lengthBytes content.length ++ content

/-- The encoding of a number that is not negative. -/
def writeNatural (n : Nat) : Bytes :=
  let d := digits n
  write integer (if 128 ≤ d.headD 0 then 0 :: d else d)

/-- The encoding of bytes as a bit string. -/
def writeBits (bits : Bytes) : Bytes := write bitString (0 :: bits)

end TokenFeedback.Der
