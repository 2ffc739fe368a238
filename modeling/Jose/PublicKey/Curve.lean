import Jose.Hash.Sha2
import Jose.PublicKey.Modular

/-! The curves P-256 and P-384: `y² = x³ - 3x + b` over a prime field, with a base point
of prime order. Sums are taken in Jacobian coordinates, where `(x, y, z)` is the point
`(x / z², y / z³)`, so that only the last step has to divide. -/
namespace Jose.PublicKey
open Jose.Hash

inductive Curve where
  | p256
  | p384
  deriving DecidableEq, Repr

/-- A point other than the neutral one. -/
structure Point where
  x : Nat
  y : Nat
  deriving DecidableEq, Repr

namespace Curve

def name : Curve → String
  | p256 => "P-256"
  | p384 => "P-384"

/-- The order of the field. -/
def prime : Curve → Nat
  | p256 => 0xffffffff00000001000000000000000000000000ffffffffffffffffffffffff
  | p384 => 0xfffffffffffffffffffffffffffffffffffffffffffffffffffffffffffffffeffffffff0000000000000000ffffffff

def constant : Curve → Nat
  | p256 => 0x5ac635d8aa3a93e7b3ebbd55769886bc651d06b0cc53b0f63bce3c3e27d2604b
  | p384 => 0xb3312fa7e23ee7e4988e056be3f82d19181d9c6efe8141120314088f5013875ac656398d8a2ed19d2a85c8edd3ec2aef

/-- The number of points. -/
def order : Curve → Nat
  | p256 => 0xffffffff00000000ffffffffffffffffbce6faada7179e84f3b9cac2fc632551
  | p384 => 0xffffffffffffffffffffffffffffffffffffffffffffffffc7634d81f4372ddf581a0db248b0a77aecec196accc52973

def base : Curve → Point
  | p256 => ⟨0x6b17d1f2e12c4247f8bce6e563a440f277037d812deb33a0f4a13945d898c296,
      0x4fe342e2fe1a7f9b8ee7eb4a7c0f9e162bce33576b315ececbb6406837bf51f5⟩
  | p384 => ⟨0xaa87ca22be8b05378eb1c71ef320ad746e1d3b628ba79b9859f741e082542a385502f25dbf55296c3a545e3872760ab7,
      0x3617de4a96262c6f5d9e98bf9292dc29f8f41dbd289a147ce9da3113b5f0b8c00a60b1ce1d7e819d7a431d7c90ea0e5f⟩

/-- Bytes of a coordinate and of a scalar. -/
def fieldBytes : Curve → Nat
  | p256 => 32
  | p384 => 48

def hash : Curve → Sha2
  | p256 => .sha256
  | p384 => .sha384

end Curve

/-- The neutral point is where `z` is zero. -/
structure Jacobian where
  x : Int
  y : Int
  z : Int

namespace Jacobian

def neutral : Jacobian := ⟨1, 1, 0⟩

def ofPoint (p : Point) : Jacobian := ⟨p.x, p.y, 1⟩

def double (p : Int) (a : Jacobian) : Jacobian :=
  let zz := a.z * a.z % p
  let yy := a.y * a.y % p
  let xyy := a.x * yy % p
  let slope := 3 * (a.x - zz) * (a.x + zz) % p
  let x := (slope * slope - 8 * xyy) % p
  ⟨x, (slope * (4 * xyy - x) - 8 * yy * yy) % p, 2 * a.y * a.z % p⟩

def add (p : Int) (a b : Jacobian) : Jacobian :=
  if a.z = 0 then b
  else if b.z = 0 then a
  else
    let aa := a.z * a.z % p
    let bb := b.z * b.z % p
    let u := a.x * bb % p
    let s := a.y * b.z * bb % p
    let h := (b.x * aa - u) % p
    let r := (b.y * a.z * aa - s) % p
    if h = 0 then if r = 0 then double p a else neutral
    else
      let hh := h * h % p
      let hhh := h * hh % p
      let x := (r * r - hhh - 2 * u * hh) % p
      ⟨x, (r * (u * hh - x) - s * hhh) % p, a.z * b.z * h % p⟩

def point? (p : Nat) (a : Jacobian) : Option Point :=
  if a.z = 0 then none
  else
    let inverse := inverseMod p a.z.toNat
    some ⟨a.x.toNat * (inverse * inverse) % p, a.y.toNat * (inverse * inverse * inverse) % p⟩

/-- One bit: the sum so far, and the next double. -/
def timesStep (p : Int) (k : Nat) (state : Jacobian × Jacobian) (i : Nat) :
    Jacobian × Jacobian :=
  (if k.testBit i then add p state.1 state.2 else state.1, double p state.2)

def times (p : Int) (k : Nat) (a : Jacobian) : Jacobian :=
  ((List.range (k.log2 + 1)).foldl (timesStep p k) (neutral, a)).1

end Jacobian

namespace Curve

/-- The point with this coordinate and this parity of the other, if there is one. The
field has a prime order of the form `4 k + 3`, so a square root is a power. -/
def lift? (c : Curve) (x : Nat) (odd : Bool) : Option Point :=
  let p := c.prime
  if x < p then
    let square := (x * x * x + (p - 3) * x + c.constant) % p
    let root := powMod p square ((p + 1) / 4)
    if root * root % p = square then
      some ⟨x, if (root % 2 = 1) = odd then root else (p - root) % p⟩
    else none
  else none

def multiple? (c : Curve) (k : Nat) : Option Point :=
  (Jacobian.times c.prime k (.ofPoint c.base)).point? c.prime

/-- The point `j` times the base point plus `k` times the given one. -/
def combination? (c : Curve) (j k : Nat) (p : Point) : Option Point :=
  (Jacobian.add c.prime (Jacobian.times c.prime j (.ofPoint c.base))
    (Jacobian.times c.prime k (.ofPoint p))).point? c.prime

end Curve
end Jose.PublicKey
