import Jose.Decimal.Binary64

/-! The shortest decimal that reads back as a given double, and the nearest of the
shortest. The search goes down the decimal grids from the coarsest; on each grid only the
two neighbours of the number can lie in the interval of reals that round to it, so the
first grid with a hit is the answer. -/
namespace Jose.Decimal

/-- `coefficient * 10 ^ exponent`. -/
structure Digits where
  coefficient : Nat
  exponent : Int
  deriving DecidableEq, Repr

/-- A number and the reals that round to it, in units of a quarter of the smallest
subnormal. -/
structure Interval where
  low : Nat
  value : Nat
  high : Nat
  closed : Bool

namespace Interval

/-- Below a power of two the neighbour is half as far away, except at the smallest
exponent. -/
def ofBinary64 (x : Binary64) : Interval :=
  let unit := 1 <<< x.scale
  let below := if x.significand = Binary64.leadingBit && x.scale > 0 then unit else 2 * unit
  ⟨4 * x.significand * unit - below, 4 * x.significand * unit,
    4 * x.significand * unit + 2 * unit, x.significand % 2 = 0⟩

def unitsPerOne : Nat := 1 <<< 1076

/-- A grid point and the bounds of the interval on a common denominator. -/
def onGrid (e : Int) (n : Nat) : Nat := if e ≥ 0 then n else n * Nat.pow 10 (-e).toNat

def gridStep (e : Int) : Nat := unitsPerOne * Nat.pow 10 e.toNat

def contains (i : Interval) (e : Int) (digits : Nat) : Bool :=
  let p := digits * gridStep e
  let lo := onGrid e i.low
  let hi := onGrid e i.high
  digits > 0 && (if i.closed then lo ≤ p && p ≤ hi else lo < p && p < hi)

/-- Of two hits the nearer one; a tie goes to the even digit. -/
def hit? (i : Interval) (e : Int) : Option Nat :=
  let v := onGrid e i.value
  let step := gridStep e
  let d := v / step
  match i.contains e d, i.contains e (d + 1) with
  | false, false => none
  | true, false => some d
  | false, true => some (d + 1)
  | true, true =>
    let below := v - d * step
    let above := (d + 1) * step - v
    if below < above then some d
    else if above < below then some (d + 1)
    else if d % 2 = 0 then some d else some (d + 1)

def search (i : Interval) (e : Int) : Nat → Digits
  | 0 => ⟨i.value / unitsPerOne, 0⟩
  | fuel + 1 =>
    match i.hit? e with
    | some d => ⟨d, e⟩
    | none => i.search (e - 1) fuel

/-- No less than the exponent of the leading digit: `log10 2` is under 0.30103. -/
def topExponent (i : Interval) : Int := ((Nat.log2 i.value : Int) - 1075) * 30103 / 100000 + 1

end Interval

/-- Seventeen digits always read back, so the search ends within twenty grids. -/
def shortest (x : Binary64) : Digits :=
  let i := Interval.ofBinary64 x
  i.search i.topExponent 20

/-- How a decimal number is laid out: below `scientificFrom` as the power of ten of its
leading digit, and from `positionalFrom` on, it is written positionally. -/
structure Layout where
  positionalFrom : Int
  scientificFrom : Int
  plusSign : Bool

namespace Layout

def exponentText (layout : Layout) (e : Int) : String :=
  "e" ++ (if e < 0 then "-" else if layout.plusSign then "+" else "") ++ toString e.natAbs

def write (layout : Layout) (d : Digits) : String :=
  let ds := Nat.toDigits 10 d.coefficient
  let lead : Int := d.exponent + ds.length - 1
  let text := String.ofList
  if lead < layout.positionalFrom || layout.scientificFrom ≤ lead then
    match ds with
    | [only] => text [only] ++ layout.exponentText lead
    | first :: rest => text (first :: '.' :: rest) ++ layout.exponentText lead
    | [] => ""
  else if lead < 0 then
    "0." ++ text (List.replicate ((-lead).toNat - 1) '0' ++ ds)
  else
    let whole := lead.toNat + 1
    let padded := ds ++ List.replicate (whole - ds.length) '0'
    let fraction := padded.drop whole
    text (padded.take whole) ++ "." ++ (if fraction.isEmpty then "0" else text fraction)

/-- A finite number with its sign; zero has one digit on each side of the point. -/
def writeBinary64 (layout : Layout) (x : Binary64) : String :=
  (if x.isNegative then "-" else "") ++
    (if x.isZero then "0.0" else layout.write (shortest x))

end Layout
end Jose.Decimal
