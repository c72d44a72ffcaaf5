import TokenFeedback.Bytes

/-!
# Elliptic curves

The two curves of prime order on which provider keys lie, and the public point of a private
number. A point is kept in Jacobian coordinates: `(x, y, z)` stands for the point
`(x / z ^ 2, y / z ^ 3)` of the curve `y ^ 2 = x ^ 3 - 3 x + b` modulo `p`, and `z = 0` for the
neutral point.

* `Curve.p256`, `Curve.p384`: the curves.
* `Curve.multiply`: a multiple of a point, by doubling and adding.
* `Curve.publicPoint`: the point of a private number, as it is written in keys.
* `Curve.contains`: is a point on the curve?
-/

namespace TokenFeedback

/-- A curve `y ^ 2 = x ^ 3 - 3 x + b` modulo `p`, with a point whose multiples are the curve. -/
structure Curve where
  p : Nat
  order : Nat
  baseX : Nat
  baseY : Nat
  /-- The bytes of a coordinate. -/
  width : Nat

namespace Curve

def p256 : Curve where
  p := 0xffffffff00000001000000000000000000000000ffffffffffffffffffffffff
  order := 0xffffffff00000000ffffffffffffffffbce6faada7179e84f3b9cac2fc632551
  baseX := 0x6b17d1f2e12c4247f8bce6e563a440f277037d812deb33a0f4a13945d898c296
  baseY := 0x4fe342e2fe1a7f9b8ee7eb4a7c0f9e162bce33576b315ececbb6406837bf51f5
  width := 32

def p384 : Curve where
  p := 0xfffffffffffffffffffffffffffffffffffffffffffffffffffffffffffffffeffffffff0000000000000000ffffffff
  order := 0xffffffffffffffffffffffffffffffffffffffffffffffffc7634d81f4372ddf581a0db248b0a77aecec196accc52973
  baseX := 0xaa87ca22be8b05378eb1c71ef320ad746e1d3b628ba79b9859f741e082542a385502f25dbf55296c3a545e3872760ab7
  baseY := 0x3617de4a96262c6f5d9e98bf9292dc29f8f41dbd289a147ce9da3113b5f0b8c00a60b1ce1d7e819d7a431d7c90ea0e5f
  width := 48

/-- A point in Jacobian coordinates. -/
structure Point where
  x : Int
  y : Int
  z : Int
  deriving Repr, DecidableEq

def neutral : Point := ⟨1, 1, 0⟩

def base (c : Curve) : Point := ⟨c.baseX, c.baseY, 1⟩

def double (c : Curve) (a : Point) : Point :=
  let y2 := a.y * a.y % c.p
  let s := 4 * a.x * y2 % c.p
  let z2 := a.z * a.z % c.p
  let m := 3 * (a.x - z2) * (a.x + z2) % c.p
  let x := (m * m - 2 * s) % c.p
  ⟨x, (m * (s - x) - 8 * y2 * y2) % c.p, 2 * a.y * a.z % c.p⟩

def add (c : Curve) (a b : Point) : Point :=
  if a.z = 0 then b
  else if b.z = 0 then a
  else
    let za := a.z * a.z % c.p
    let zb := b.z * b.z % c.p
    let u := a.x * zb % c.p
    let s := a.y * zb * b.z % c.p
    let h := (b.x * za - u) % c.p
    let r := (b.y * za * a.z - s) % c.p
    if h = 0 then if r = 0 then c.double a else neutral
    else
      let h2 := h * h % c.p
      let h3 := h2 * h % c.p
      let v := u * h2 % c.p
      let x := (r * r - h3 - 2 * v) % c.p
      ⟨x, (r * (v - x) - s * h3) % c.p, h * a.z * b.z % c.p⟩

/-- The `n`-fold of a point. -/
def multiply (c : Curve) (n : Nat) (a : Point) : Point :=
  if n = 0 then neutral
  else
    let half := c.multiply (n / 2) (c.double a)
    if n % 2 = 0 then half else c.add half a
termination_by n

/-- `b ^ n` modulo `p`. -/
def power (p : Nat) (b : Int) (n : Nat) : Int :=
  if n = 0 then 1
  else
    let half := power p (b * b % p) (n / 2)
    if n % 2 = 0 then half else half * b % p
termination_by n

/-- The public point of a private number, uncompressed: a mark and the two coordinates. -/
def publicPoint (c : Curve) (secret : Nat) : Bytes :=
  let a := c.multiply secret c.base
  let inverse := power c.p a.z (c.p - 2)
  let i2 := inverse * inverse % c.p
  let x := a.x * i2 % c.p
  let y := a.y * i2 * inverse % c.p
  4 :: bigEndian c.width x.toNat ++ bigEndian c.width y.toNat

/-- Is the point on the curve? It is if `b` comes out as it does for the base. -/
def contains (c : Curve) (x y : Nat) : Bool :=
  let offset (x y : Int) : Int := (y * y - x * x * x + 3 * x) % c.p
  offset x y == offset c.baseX c.baseY

end Curve

end TokenFeedback
