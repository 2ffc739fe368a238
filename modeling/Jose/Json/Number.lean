import Jose.Json.Fault
import Jose.Json.Value

/-! Reading numbers. The digits are gathered into a word; those that no longer fit it only
raise the exponent, so a long number keeps its size and loses its last digits. A number
without fraction and exponent whose digits all fit is exact. -/
namespace Jose.Json
open Jose.Decimal

/-- A reading step; it mostly gives what was read and the bytes behind it. -/
abbrev Step := Except Stop

def wordMax : Nat := UInt64.size - 1

def digit? (b : UInt8) : Option Nat :=
  if 48 ≤ b.toNat && b.toNat ≤ 57 then some (b.toNat - 48) else none

def startsWithDigit : Bytes → Bool
  | b :: _ => (digit? b).isSome
  | [] => false

/-- Appends digits to `n`, as long as they fit a word; `taken` counts them. -/
def takeDigits (n taken : Nat) : Bytes → Nat × Nat × Bytes
  | [] => (n, taken, [])
  | b :: rest =>
    match digit? b with
    | some d =>
      if n * 10 + d ≤ wordMax then takeDigits (n * 10 + d) (taken + 1) rest
      else (n, taken, b :: rest)
    | none => (n, taken, b :: rest)

def dropDigits (dropped : Nat) : Bytes → Nat × Bytes
  | [] => (dropped, [])
  | b :: rest =>
    if (digit? b).isSome then dropDigits (dropped + 1) rest else (dropped, b :: rest)

/-- Plus or minus `significand * 10 ^ exponent`. -/
structure Scientific where
  negative : Bool
  significand : Nat
  exponent : Int
  deriving DecidableEq, Repr

namespace Scientific

def powerOfTen (n : Nat) : Binary64 := .ofNat (Nat.pow 10 n)

/-- The largest exponent whose power of ten is a double. -/
def maxPower : Nat := 308

/-- The magnitude as a double, which is rounded at each step; `none` when it is too large.
A power of ten that is not a double is divided out in two steps, and beyond the second
nothing is left. -/
def magnitude? (s : Scientific) : Option Binary64 :=
  let f := Binary64.ofNat s.significand
  let e := s.exponent.natAbs
  if e ≤ maxPower then
    if s.exponent < 0 then some (f.div (powerOfTen e))
    else
      let product := f.mul (powerOfTen e)
      if product.isFinite then some product else none
  else if s.significand = 0 then some f
  else if 0 ≤ s.exponent then none
  else if e ≤ 2 * maxPower then
    some ((f.div (powerOfTen maxPower)).div (powerOfTen (e - maxPower)))
  else some (.ofNat 0)

def signed (negative : Bool) (x : Binary64) : Number := .real (if negative then x.neg else x)

def read (s : Scientific) (rest : Bytes) : Step (Number × Bytes) :=
  match s.magnitude? with
  | some x => .ok (signed s.negative x, rest)
  | none => .error (.here .numberOutOfRange rest)

/-- A negative zero, and an integer below the signed words, is a double. -/
def whole (negative : Bool) (n : Nat) : Number :=
  if !negative then .integer n
  else if 0 < n && n ≤ 0x8000000000000000 then .integer (-n)
  else signed true (.ofNat n)

def exponentMax : Nat := 0x7fffffff

/-- The digits of an exponent. One past its range settles the number: it is zero or too
large. -/
def readExponentDigits (s : Scientific) (down : Bool) (e : Nat) :
    Bytes → Step (Number × Bytes)
  | [] => ({ s with exponent := if down then s.exponent - e else s.exponent + e }).read []
  | b :: rest =>
    match digit? b with
    | some d =>
      if e * 10 + d ≤ exponentMax then readExponentDigits s down (e * 10 + d) rest
      else if s.significand ≠ 0 && !down then .error (.here .numberOutOfRange rest)
      else .ok (signed s.negative (.ofNat 0), (dropDigits 0 rest).2)
    | none =>
      ({ s with exponent := if down then s.exponent - e else s.exponent + e }).read (b :: rest)

def readExponentFrom (s : Scientific) (down : Bool) : Bytes → Step (Number × Bytes)
  | [] => .error (.here .endInValue [])
  | b :: rest =>
    match digit? b with
    | some d => s.readExponentDigits down d rest
    | none => .error (.here .invalidNumber rest)

/-- Behind the `e`. -/
def readExponent (s : Scientific) (bs : Bytes) : Step (Number × Bytes) :=
  match bs with
  | b :: rest =>
    match Char.ofUInt8 b with
    | '+' => s.readExponentFrom false rest
    | '-' => s.readExponentFrom true rest
    | _ => s.readExponentFrom false bs
  | [] => s.readExponentFrom false bs

/-- Behind the last digit of the fraction. -/
def readAfterFraction (s : Scientific) (bs : Bytes) : Step (Number × Bytes) :=
  match bs with
  | b :: rest =>
    match Char.ofUInt8 b with
    | 'e' | 'E' => s.readExponent rest
    | _ => s.read bs
  | [] => s.read []

/-- Behind the decimal point. -/
def readFraction (s : Scientific) (bs : Bytes) : Step (Number × Bytes) :=
  if startsWithDigit bs then
    let (n, taken, rest) := takeDigits s.significand 0 bs
    let (_, rest) := dropDigits 0 rest
    readAfterFraction ⟨s.negative, n, s.exponent - taken⟩ rest
  else if bs.isEmpty then .error (.onNext .endInValue bs)
  else .error (.onNext .invalidNumber bs)

end Scientific

/-- Behind the integer digits, of which `dropped` did not fit. -/
def readAfterInteger (negative : Bool) (n dropped : Nat) (bs : Bytes) :
    Step (Number × Bytes) :=
  let s : Scientific := ⟨negative, n, dropped⟩
  let plain : Step (Number × Bytes) :=
    if dropped = 0 then .ok (Scientific.whole negative n, bs) else s.read bs
  match bs with
  | b :: rest =>
    match Char.ofUInt8 b with
    | '.' => s.readFraction rest
    | 'e' | 'E' => s.readExponent rest
    | _ => plain
  | [] => plain

/-- Behind the sign. A zero is the only digit of an integer that it starts. -/
def readNumber (negative : Bool) : Bytes → Step (Number × Bytes)
  | [] => .error (.here .endInValue [])
  | b :: rest =>
    match digit? b with
    | none => .error (.here .invalidNumber rest)
    | some 0 =>
      if startsWithDigit rest then .error (.onNext .invalidNumber rest)
      else readAfterInteger negative 0 0 rest
    | some d =>
      let (n, _, rest) := takeDigits d 1 rest
      let (dropped, rest) := dropDigits 0 rest
      readAfterInteger negative n dropped rest

end Jose.Json
