/-! Double precision numbers as their bit patterns, with arithmetic that is exact on
ratios of natural numbers and rounds once at the end. A finite number is plus or minus a
ratio; `round` is the only way back, and it goes to the nearest double, a tie to the even
one. -/
namespace Jose.Decimal

structure Binary64 where
  bits : UInt64
  deriving DecidableEq, Repr, Inhabited

namespace Binary64

/-- The leading bit of a significand, which is not stored. -/
def leadingBit : Nat := 0x10000000000000

def isNegative (x : Binary64) : Bool := x.bits.toNat >>> 63 = 1

def exponentField (x : Binary64) : Nat := x.bits.toNat >>> 52 % 2048

def fractionField (x : Binary64) : Nat := x.bits.toNat % leadingBit

def isFinite (x : Binary64) : Bool := x.exponentField ≠ 2047

def isNan (x : Binary64) : Bool := x.exponentField = 2047 && x.fractionField ≠ 0

/-- The magnitude is `significand * 2 ^ (scale - 1074)`. -/
def significand (x : Binary64) : Nat :=
  if x.exponentField = 0 then x.fractionField else leadingBit + x.fractionField

def scale (x : Binary64) : Nat := x.exponentField - 1

def ofFields (negative : Bool) (exponent fraction : Nat) : Binary64 :=
  ⟨UInt64.ofNat
    ((if negative then 0x8000000000000000 else 0) + exponent * leadingBit + fraction)⟩

def infinity (negative : Bool) : Binary64 := ofFields negative 2047 0

def nan : Binary64 := ofFields false 2047 (leadingBit / 2)

def neg (x : Binary64) : Binary64 := ⟨x.bits ^^^ 0x8000000000000000⟩

/-- The numerator and denominator of the magnitude of a finite number. -/
def magnitude (x : Binary64) : Nat × Nat := (x.significand <<< x.scale, 1 <<< 1074)

def isZero (x : Binary64) : Bool := x.significand = 0

/-- The quotient to the nearest natural number, a tie to the even one. -/
def nearestQuotient (num den : Nat) : Nat :=
  let q := num / den
  let r := num % den
  if 2 * r < den then q
  else if 2 * r > den then q + 1
  else if q % 2 = 0 then q else q + 1

/-- The least `s` with `num / den < 2 ^ (s + 53 - 1074)`: the scale at which the quotient
fits a significand. -/
def scaleOf (num den : Nat) : Nat :=
  let quotient := num <<< 1074 / den
  Nat.log2 quotient + 1 - 53

/-- A carry out of the significand moves to the next exponent because the fields are
adjacent. -/
def round (negative : Bool) (num den : Nat) : Binary64 :=
  let s := scaleOf num den
  let m := nearestQuotient (num <<< 1074) (den <<< s)
  let word := if m < leadingBit then m else s * leadingBit + m
  if word < 2047 * leadingBit then ofFields negative 0 word else infinity negative

def ofNat (n : Nat) : Binary64 := round false n 1

def mul (x y : Binary64) : Binary64 :=
  let negative := x.isNegative ^^ y.isNegative
  if x.isNan || y.isNan then nan
  else if !x.isFinite || !y.isFinite then
    if x.isZero || y.isZero then nan else infinity negative
  else round negative (x.magnitude.1 * y.magnitude.1) (x.magnitude.2 * y.magnitude.2)

/-- The quotient of finite numbers, with a divisor other than zero. -/
def div (x y : Binary64) : Binary64 :=
  round (x.isNegative ^^ y.isNegative) (x.magnitude.1 * y.magnitude.2)
    (x.magnitude.2 * y.magnitude.1)

def signed (x : Binary64) (n : Nat) : Int := if x.isNegative then -(n : Int) else n

/-- Toward zero, for a finite number. -/
def truncate (x : Binary64) : Int := x.signed (x.magnitude.1 / x.magnitude.2)

/-- To the nearest integer, a half away from zero, for a finite number. -/
def roundHalfAway (x : Binary64) : Int :=
  x.signed ((2 * x.magnitude.1 + x.magnitude.2) / (2 * x.magnitude.2))

end Binary64
end Jose.Decimal
