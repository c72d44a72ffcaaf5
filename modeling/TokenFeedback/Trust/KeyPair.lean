import TokenFeedback.Curve
import TokenFeedback.Der
import TokenFeedback.Edwards
import TokenFeedback.Trust.Identity

/-!
# Key pairs

Which public key belongs to a private key. A key that cannot sign for a provider has none: only
RSA keys of 256 to 512 bytes, keys on the two elliptic curves, and Edwards keys are usable, and
their numbers have to agree with each other.

* `PrivateKey.publicKey?`: the public key as certificates say it, or that the key is not usable.
-/

namespace TokenFeedback

namespace Rsa

/-- The numbers of an RSA key: `n = p * q`, and the parts of the private exponent `d`. -/
structure Key where
  n : Nat
  e : Nat
  d : Nat
  p : Nat
  q : Nat
  dp : Nat
  dq : Nat
  qInverse : Nat

def bits (n : Nat) : Nat := if n = 0 then 0 else n.log2 + 1

/-- The bytes that a number takes. -/
def width (n : Nat) : Nat := (bits n + 7) / 8

/-- Are the sizes allowed, and do the numbers agree? The modulus takes 256 bytes at least. The two
primes have half as many bits each, and these are a multiple of 512. -/
def Key.isSound (k : Key) : Bool :=
  let half := (bits k.n + 1) / 2
  256 ≤ width k.n && bits k.n ≤ 4096 && k.e % 2 == 1 && 65537 ≤ k.e && k.e < 8589934592 &&
    bits k.p == half && bits k.q == half && half % 512 == 0 && k.p % 2 == 1 && k.q % 2 == 1 &&
    k.p * k.q == k.n && half < bits k.d && k.d < k.n && k.d % 2 == 1 && k.dp < k.p &&
    k.dp % 2 == 1 && k.dq < k.q && k.dq % 2 == 1 && k.qInverse < k.p &&
    k.qInverse * k.q % k.p == 1

/-- The key of version zero in this encoding. -/
def Key.ofDer? (der : Bytes) : Option Key := do
  let content ← Der.whole? Der.sequence der
  let (version, rest) ← Der.expectNatural? content
  let (n, rest) ← Der.expectNatural? rest
  let (e, rest) ← Der.expectNatural? rest
  let (d, rest) ← Der.expectNatural? rest
  let (p, rest) ← Der.expectNatural? rest
  let (q, rest) ← Der.expectNatural? rest
  let (dp, rest) ← Der.expectNatural? rest
  let (dq, rest) ← Der.expectNatural? rest
  let (qInverse, rest) ← Der.expectNatural? rest
  if version = 0 ∧ rest.isEmpty then some ⟨n, e, d, p, q, dp, dq, qInverse⟩ else none

/-- The name of the algorithm, and that it has no parameters. -/
def algorithm : Bytes :=
  Der.write Der.objectId [42, 134, 72, 134, 247, 13, 1, 1, 1] ++ [5, 0]

/-- The public key of an encoded private key. -/
def publicKey? (der : Bytes) : Option Bytes := do
  let k ← Key.ofDer? der
  if k.isSound then
    some (Der.write Der.sequence algorithm ++
      Der.writeBits (Der.write Der.sequence (Der.writeNatural k.n ++ Der.writeNatural k.e)))
  else none

end Rsa

namespace Curve

/-- The name of the curve. -/
def name (c : Curve) : Bytes :=
  Der.write Der.objectId
    (if c.width = 32 then [42, 134, 72, 206, 61, 3, 1, 7] else [43, 129, 4, 0, 34])

/-- The name of the algorithm and of the curve. -/
def algorithm (c : Curve) : Bytes :=
  Der.write Der.objectId [42, 134, 72, 206, 61, 2, 1] ++ c.name

/-- The curve that a key names has to be this one, if it names one. -/
def namesCurve (c : Curve) : Option Bytes → Bool
  | some name => name == c.name
  | none => true

/-- The public key of an encoded private key. The encoding has both, and they have to agree. -/
def publicKey? (c : Curve) (der : Bytes) : Option Bytes := do
  let content ← Der.whole? Der.sequence der
  let (version, rest) ← Der.expectNatural? content
  let (secret, rest) ← Der.expect? Der.octetString rest
  let (name, rest) ← Der.optional? Der.context0 rest
  let point ← (Der.whole? Der.context1 rest).bind (Der.whole? Der.bitString)
  let point ← Der.fullBits? point
  let number := ofBigEndian secret
  if version = 1 ∧ c.namesCurve name ∧ secret.length = c.width ∧ 0 < number ∧ number < c.order ∧
      point = c.publicPoint number then
    some (Der.write Der.sequence c.algorithm ++ Der.writeBits point)
  else none

end Curve

/-- A private key in an envelope that names its algorithm, with the public key if it says it. -/
structure Envelope where
  version : Nat
  algorithm : Bytes
  key : Bytes
  publicKey : Option Bytes

/-- The public key at the end of an envelope: a bit string under a tag of its own, or a whole one
within such a tag. -/
def Envelope.statedKey? (input : Bytes) : Option Bytes :=
  ((Der.whole? Der.context1 input).bind (Der.whole? Der.bitString) <|>
    Der.whole? Der.implicit1 input).bind Der.fullBits?

/-- Attributes are passed over. Version one has the public key beside the private key. -/
def Envelope.ofDer? (der : Bytes) : Option Envelope := do
  let content ← Der.whole? Der.sequence der
  let (version, rest) ← Der.expectNatural? content
  let (algorithm, rest) ← Der.expect? Der.sequence rest
  let (key, rest) ← Der.expect? Der.octetString rest
  let (_, rest) ← Der.optional? Der.context0 rest
  match version with
  | 0 => if rest.isEmpty then some ⟨0, algorithm, key, none⟩ else none
  | 1 =>
    let stated ← Envelope.statedKey? rest
    return ⟨1, algorithm, key, some stated⟩
  | _ => none

namespace Edwards

/-- The name of the algorithm. -/
def algorithm : Bytes := Der.write Der.objectId [43, 101, 112]

/-- The public key of an encoded seed. If it is stated beside the seed, that has to be right. -/
def publicKey? (der : Bytes) (stated : Option Bytes) : Option Bytes := do
  let seed ← Der.whole? Der.octetString der
  if seed.length ≠ 32 then none
  let key := publicKey seed
  if stated.getD key = key then
    some (Der.write Der.sequence algorithm ++ Der.writeBits key)
  else none

end Edwards

/-- The public key of a key in an envelope. -/
def Envelope.publicKey? (e : Envelope) : Option Bytes :=
  if e.algorithm = Edwards.algorithm then Edwards.publicKey? e.key e.publicKey
  else if e.version ≠ 0 then none
  else if e.algorithm = Rsa.algorithm then Rsa.publicKey? e.key
  else
    [Curve.p256, Curve.p384].findSome? fun c =>
      if e.algorithm = c.algorithm then c.publicKey? e.key else none

/-- The public key that belongs to a private key, if the key is usable. -/
def PrivateKey.publicKey? (k : PrivateKey) : Option Bytes :=
  match k.form with
  | .pkcs1 => Rsa.publicKey? k.der
  | .sec1 => [Curve.p256, Curve.p384].findSome? fun c => c.publicKey? k.der
  | .pkcs8 => (Envelope.ofDer? k.der).bind Envelope.publicKey?

end TokenFeedback
