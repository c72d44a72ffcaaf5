import TokenFeedback.Curve
import TokenFeedback.Sha512

/-!
# The Edwards curve

The curve `y ^ 2 - x ^ 2 = 1 + d x ^ 2 y ^ 2` modulo `p`, and the public key of a seed. A point is
kept in extended coordinates: `(x, y, z, t)` stands for the point `(x / z, y / z)`, and
`t = x y / z`.

* `Edwards.add`: the sum of two points; it serves for doubling too.
* `Edwards.multiply`: a multiple of a point.
* `Edwards.secretOfSeed`: the number that a seed stands for.
* `Edwards.publicKey`: the public key of a seed, as it is written in keys.
-/

namespace TokenFeedback.Edwards

def p : Nat := 0x7fffffffffffffffffffffffffffffffffffffffffffffffffffffffffffffed

def d : Int := 0x52036cee2b6ffe738cc740797779e89800700a4d4141d8ab75eb4dca135978a3

/-- A point in extended coordinates. -/
structure Point where
  x : Int
  y : Int
  z : Int
  t : Int
  deriving Repr, DecidableEq

def neutral : Point := ⟨0, 1, 1, 0⟩

def baseX : Int := 0x216936d3cd6e53fec0a4e231fdd6dc5c692cc7609525a7b2c9562d608f25d51a
def baseY : Int := 0x6666666666666666666666666666666666666666666666666666666666666658

def base : Point := ⟨baseX, baseY, 1, baseX * baseY % p⟩

/-- The sum of two points. -/
def add (a b : Point) : Point :=
  let m := (a.y - a.x) * (b.y - b.x) % p
  let n := (a.y + a.x) * (b.y + b.x) % p
  let c := 2 * d * a.t * b.t % p
  let k := 2 * a.z * b.z % p
  let e := n - m
  let f := k - c
  let g := k + c
  let h := n + m
  ⟨e * f % p, g * h % p, f * g % p, e * h % p⟩

/-- The `n`-fold of a point. -/
def multiply (n : Nat) (a : Point) : Point :=
  if n = 0 then neutral
  else
    let half := multiply (n / 2) (add a a)
    if n % 2 = 0 then half else add half a
termination_by n

/-- The number that bytes spell, least significant byte first. -/
def ofLittleEndian (bytes : Bytes) : Nat := ofBigEndian bytes.reverse

def littleEndian (width n : Nat) : Bytes := (bigEndian width n).reverse

/-- A point as 32 bytes: `y`, and in the highest bit whether `x` is odd. -/
def Point.encode (a : Point) : Bytes :=
  let inverse := Curve.power p a.z (p - 2)
  let x := (a.x * inverse % p).toNat
  let y := (a.y * inverse % p).toNat
  littleEndian 32 (y + x % 2 * 0x8000000000000000000000000000000000000000000000000000000000000000)

/-- The lower half of the seed's digest as a number; its highest bit is the one of value
`2 ^ 254`, and it is a multiple of eight. -/
def secretOfSeed (seed : Bytes) : Nat :=
  let top := 0x4000000000000000000000000000000000000000000000000000000000000000
  let n := ofLittleEndian ((Sha512.digest seed).take 32) % top
  top + n / 8 * 8

/-- The public key of a seed. -/
def publicKey (seed : Bytes) : Bytes := (multiply (secretOfSeed seed) base).encode

end TokenFeedback.Edwards
