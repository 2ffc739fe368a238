import Jose.Error
import Jose.Text.Utf8

/-! Base64url without padding, in its canonical form only: the decoder refuses padding,
symbols outside the alphabet, a lone last symbol, and a last symbol with bits that no byte
uses. -/
namespace Jose.Text.Base64Url

def alphabet : Array Char :=
  "ABCDEFGHIJKLMNOPQRSTUVWXYZabcdefghijklmnopqrstuvwxyz0123456789-_".toList.toArray

def symbol (v : Nat) : Char := alphabet.getD v 'A'

def value? (b : UInt8) : Option Nat :=
  if 65 ≤ b && b ≤ 90 then some (b.toNat - 65)
  else if 97 ≤ b && b ≤ 122 then some (b.toNat - 71)
  else if 48 ≤ b && b ≤ 57 then some (b.toNat + 4)
  else if b = 45 then some 62
  else if b = 95 then some 63
  else none

/-- Three bytes give four symbols; one byte left over gives two, and two give three. -/
def encodeSymbols : Bytes → List Char
  | a :: b :: c :: rest =>
    symbol (a.toNat / 4) :: symbol (a.toNat % 4 * 16 + b.toNat / 16) ::
      symbol (b.toNat % 16 * 4 + c.toNat / 64) :: symbol (c.toNat % 64) :: encodeSymbols rest
  | [a, b] =>
    [symbol (a.toNat / 4), symbol (a.toNat % 4 * 16 + b.toNat / 16),
      symbol (b.toNat % 16 * 4)]
  | [a] => [symbol (a.toNat / 4), symbol (a.toNat % 4 * 16)]
  | [] => []

def encode (bytes : Bytes) : String := String.ofList (encodeSymbols bytes)

inductive Fault where
  | symbol (byte : UInt8) (offset : Nat)
  | lastSymbol (byte : UInt8) (offset : Nat)
  | length (count : Nat)
  | padding
  deriving DecidableEq, Repr

def Fault.message : Fault → String
  | .symbol b o => s!"Invalid symbol {b.toNat}, offset {o}."
  | .lastSymbol b o => s!"Invalid last symbol {b.toNat}, offset {o}."
  | .length n => s!"Invalid input length: {n}"
  | .padding => "Invalid padding"

def pad : UInt8 := 61

def valueAt (offset : Nat) (b : UInt8) : Except Fault Nat :=
  match value? b with
  | some v => .ok v
  | none => .error (.symbol b offset)

/-- The symbols before the padding of the last group, which starts at `offset`. Padding
may only follow the second or third symbol and only more padding may follow it. -/
def lastGroup (offset : Nat) (group : Bytes) : Except Fault (List Nat × Bool) := do
  let vs ← (group.takeWhile (· ≠ pad)).zipIdx.mapM fun (b, i) => valueAt (offset + i) b
  match group.drop vs.length with
  | [] => .ok (vs, false)
  | rest =>
    if vs.length < 2 || rest.any (· ≠ pad) then .error (.symbol pad (offset + vs.length))
    else .ok (vs, true)

def decodeLast (offset : Nat) (group : Bytes) : Except Fault Bytes := do
  let (vs, padded) ← lastGroup offset group
  if padded then .error .padding
  else match vs with
    | [] => .ok []
    | [_] => .error (.length (offset + 1))
    | [a, b] =>
      if b % 16 = 0 then .ok [UInt8.ofNat (a * 4 + b / 16)]
      else .error (.lastSymbol (group.getLastD 0) (offset + 1))
    | [a, b, c] =>
      if c % 4 = 0 then
        .ok [UInt8.ofNat (a * 4 + b / 16), UInt8.ofNat (b % 16 * 16 + c / 4)]
      else .error (.lastSymbol (group.getLastD 0) (offset + 2))
    | a :: b :: c :: d :: _ =>
      .ok [UInt8.ofNat (a * 4 + b / 16), UInt8.ofNat (b % 16 * 16 + c / 4),
        UInt8.ofNat (c % 4 * 64 + d)]

/-- Whole groups of four, of which the last stays for `decodeLast`. -/
def decodeFrom (offset : Nat) : Bytes → Except Fault Bytes
  | a :: b :: c :: d :: e :: rest => do
    let va ← valueAt offset a
    let vb ← valueAt (offset + 1) b
    let vc ← valueAt (offset + 2) c
    let vd ← valueAt (offset + 3) d
    let bytes ← decodeFrom (offset + 4) (e :: rest)
    return UInt8.ofNat (va * 4 + vb / 16) :: UInt8.ofNat (vb % 16 * 16 + vc / 4) ::
      UInt8.ofNat (vc % 4 * 64 + vd) :: bytes
  | group => decodeLast offset group

/-- A lone last byte outside the alphabet, such as a line end, is named before any other
fault. -/
def decodeBytes (input : Bytes) : Except Fault Bytes :=
  match input.getLast? with
  | some b =>
    if input.length % 4 = 1 && b ≠ pad && (value? b).isNone then
      .error (.symbol b (input.length - 1))
    else decodeFrom 0 input
  | none => .ok []

def decode (text : String) : Result Bytes :=
  (decodeBytes (Utf8.encode text)).mapError fun f =>
    .format ("Invalid base64url encoding: " ++ f.message)

end Jose.Text.Base64Url
