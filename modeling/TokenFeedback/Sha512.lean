import TokenFeedback.Bytes

/-!
# The digest of 512 bits

A message is padded and cut into blocks of 128 bytes. Each block is spread to 80 words, and as many
rounds mix them into eight working words; these are added to the words of the digest so far.

* `Sha512.pad`: the message with its padding.
* `Sha512.schedule`: the words of one block.
* `Sha512.compress`: what one block does to the digest.
* `Sha512.digest`: the digest of a message.
-/

namespace TokenFeedback.Sha512

/-- The first 64 bits behind the point of the cube roots of the first 80 primes. -/
def constants : List UInt64 :=
  [0x428a2f98d728ae22, 0x7137449123ef65cd, 0xb5c0fbcfec4d3b2f, 0xe9b5dba58189dbbc,
    0x3956c25bf348b538, 0x59f111f1b605d019, 0x923f82a4af194f9b, 0xab1c5ed5da6d8118,
    0xd807aa98a3030242, 0x12835b0145706fbe, 0x243185be4ee4b28c, 0x550c7dc3d5ffb4e2,
    0x72be5d74f27b896f, 0x80deb1fe3b1696b1, 0x9bdc06a725c71235, 0xc19bf174cf692694,
    0xe49b69c19ef14ad2, 0xefbe4786384f25e3, 0x0fc19dc68b8cd5b5, 0x240ca1cc77ac9c65,
    0x2de92c6f592b0275, 0x4a7484aa6ea6e483, 0x5cb0a9dcbd41fbd4, 0x76f988da831153b5,
    0x983e5152ee66dfab, 0xa831c66d2db43210, 0xb00327c898fb213f, 0xbf597fc7beef0ee4,
    0xc6e00bf33da88fc2, 0xd5a79147930aa725, 0x06ca6351e003826f, 0x142929670a0e6e70,
    0x27b70a8546d22ffc, 0x2e1b21385c26c926, 0x4d2c6dfc5ac42aed, 0x53380d139d95b3df,
    0x650a73548baf63de, 0x766a0abb3c77b2a8, 0x81c2c92e47edaee6, 0x92722c851482353b,
    0xa2bfe8a14cf10364, 0xa81a664bbc423001, 0xc24b8b70d0f89791, 0xc76c51a30654be30,
    0xd192e819d6ef5218, 0xd69906245565a910, 0xf40e35855771202a, 0x106aa07032bbd1b8,
    0x19a4c116b8d2d0c8, 0x1e376c085141ab53, 0x2748774cdf8eeb99, 0x34b0bcb5e19b48a8,
    0x391c0cb3c5c95a63, 0x4ed8aa4ae3418acb, 0x5b9cca4f7763e373, 0x682e6ff3d6b2b8a3,
    0x748f82ee5defb2fc, 0x78a5636f43172f60, 0x84c87814a1f0ab72, 0x8cc702081a6439ec,
    0x90befffa23631e28, 0xa4506cebde82bde9, 0xbef9a3f7b2c67915, 0xc67178f2e372532b,
    0xca273eceea26619c, 0xd186b8c721c0c207, 0xeada7dd6cde0eb1e, 0xf57d4f7fee6ed178,
    0x06f067aa72176fba, 0x0a637dc5a2c898a6, 0x113f9804bef90dae, 0x1b710b35131c471b,
    0x28db77f523047d84, 0x32caab7b40c72493, 0x3c9ebe0a15c9bebc, 0x431d67c49c100d4c,
    0x4cc5d4becb3e42b6, 0x597f299cfc657e2a, 0x5fcb6fab3ad6faec, 0x6c44198c4a475817]

/-- The eight words of a digest, also while a block is mixed in. -/
structure Words where
  a : UInt64
  b : UInt64
  c : UInt64
  d : UInt64
  e : UInt64
  f : UInt64
  g : UInt64
  h : UInt64
  deriving Repr, DecidableEq

namespace Words

/-- The first 64 bits behind the point of the square roots of the first eight primes. -/
def start : Words where
  a := 0x6a09e667f3bcc908
  b := 0xbb67ae8584caa73b
  c := 0x3c6ef372fe94f82b
  d := 0xa54ff53a5f1d36f1
  e := 0x510e527fade682d1
  f := 0x9b05688c2b3e6c1f
  g := 0x1f83d9abfb41bd6b
  h := 0x5be0cd19137e2179

def add (v w : Words) : Words :=
  ⟨v.a + w.a, v.b + w.b, v.c + w.c, v.d + w.d, v.e + w.e, v.f + w.f, v.g + w.g, v.h + w.h⟩

def toList (v : Words) : List UInt64 := [v.a, v.b, v.c, v.d, v.e, v.f, v.g, v.h]

end Words

/-- A word turned to the right by a number of bits from 1 to 63. -/
def turn (x : UInt64) (n : UInt64) : UInt64 := (x >>> n) ||| (x <<< (64 - n))

def spread0 (x : UInt64) : UInt64 := turn x 1 ^^^ turn x 8 ^^^ (x >>> 7)
def spread1 (x : UInt64) : UInt64 := turn x 19 ^^^ turn x 61 ^^^ (x >>> 6)
def mix0 (x : UInt64) : UInt64 := turn x 28 ^^^ turn x 34 ^^^ turn x 39
def mix1 (x : UInt64) : UInt64 := turn x 14 ^^^ turn x 18 ^^^ turn x 41

/-- Each bit of `x` chooses between those of `y` and `z`. -/
def choose (x y z : UInt64) : UInt64 := (x &&& y) ^^^ (~~~x &&& z)

/-- The bits that at least two of the words have. -/
def majority (x y z : UInt64) : UInt64 := (x &&& y) ^^^ (x &&& z) ^^^ (y &&& z)

/-- The words of a block: its own sixteen, and each later one from four before it. -/
def schedule (block : List UInt64) : Array UInt64 :=
  (List.range 64).foldl
    (fun w t => w.push (spread1 (w.getD (t + 14) 0) + w.getD (t + 9) 0 +
      spread0 (w.getD (t + 1) 0) + w.getD t 0))
    block.toArray

/-- One round with its constant and its word. -/
def round (v : Words) (k w : UInt64) : Words :=
  let s := v.h + mix1 v.e + choose v.e v.f v.g + k + w
  let t := mix0 v.a + majority v.a v.b v.c
  ⟨s + t, v.a, v.b, v.c, v.d + s, v.e, v.f, v.g⟩

/-- What one block does to the digest. -/
def compress (digest : Words) (block : List UInt64) : Words :=
  digest.add (((constants.zip (schedule block).toList).foldl fun v (k, w) => round v k w) digest)

def blockSize : Nat := 128

/-- The message with its padding: a mark, as few zeros as needed, and the number of its bits. -/
def pad (message : Bytes) : Bytes :=
  let rest := (message.length + 17) % blockSize
  message ++ 0x80 :: List.replicate ((blockSize - rest) % blockSize) 0 ++
    bigEndian 16 (8 * message.length)

/-- Words of eight bytes each. -/
def words (bytes : Bytes) : List UInt64 :=
  if bytes.isEmpty then []
  else UInt64.ofNat (ofBigEndian (bytes.take 8)) :: words (bytes.drop 8)
termination_by bytes.length
decreasing_by
  rename_i h
  rw [List.length_drop]
  have := List.length_pos_iff.2 (mt List.isEmpty_iff.2 h)
  omega

/-- The blocks of a message, mixed in one after another. -/
def compressAll (digest : Words) (ws : List UInt64) : Words :=
  if ws.isEmpty then digest
  else compressAll (compress digest (ws.take 16)) (ws.drop 16)
termination_by ws.length
decreasing_by
  rename_i h
  rw [List.length_drop]
  have := List.length_pos_iff.2 (mt List.isEmpty_iff.2 h)
  omega

/-- The digest of a message, 64 bytes. -/
def digest (message : Bytes) : Bytes :=
  (compressAll .start (words (pad message))).toList.flatMap fun w => bigEndian 8 w.toNat

end TokenFeedback.Sha512
