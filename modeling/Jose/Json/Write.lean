import Jose.Decimal.Shortest
import Jose.Json.Value

/-! The compact text of a JSON value: no blanks, members in the order of their names, only
the quote, the backslash and control characters escaped, and doubles in the fewest digits
that read back. -/
namespace Jose.Json
open Jose.Decimal

def hexDigit (n : Nat) : Char := Nat.digitChar (n % 16)

def escaped (c : Char) : List Char :=
  if c = '"' then ['\\', '"']
  else if c = '\\' then ['\\', '\\']
  else if c = '\x08' then ['\\', 'b']
  else if c = '\t' then ['\\', 't']
  else if c = '\n' then ['\\', 'n']
  else if c = '\x0c' then ['\\', 'f']
  else if c = '\r' then ['\\', 'r']
  else if c.toNat < 0x20 then ['\\', 'u', '0', '0', hexDigit (c.toNat / 16), hexDigit c.toNat]
  else [c]

def writeString (s : String) : List Char := '"' :: s.toList.flatMap escaped ++ ['"']

/-- A double is positional from 0.00001 up to below 10^16. -/
def realLayout : Layout := ⟨-5, 16, true⟩

def writeInteger (i : Int) : List Char :=
  if i < 0 then '-' :: Nat.toDigits 10 i.natAbs else Nat.toDigits 10 i.toNat

def writeReal (x : Binary64) : List Char := (realLayout.writeBinary64 x).toList

def writeNumber : Number → List Char
  | .integer i => writeInteger i
  | .real x => writeReal x

mutual

def writeValue : Value → List Char
  | .null => "null".toList
  | .bool true => "true".toList
  | .bool false => "false".toList
  | .number n => writeNumber n
  | .string s => writeString s
  | .array [] => ['[', ']']
  | .array (v :: vs) => '[' :: writeValue v ++ writeItems vs
  | .object [] => ['\x7b', '\x7d']
  | .object (m :: ms) => '\x7b' :: writeMember m ++ writeMembers ms

/-- The items after the first one, and the end of the array. -/
def writeItems : List Value → List Char
  | [] => [']']
  | v :: vs => ',' :: writeValue v ++ writeItems vs

def writeMember : String × Value → List Char
  | (name, v) => writeString name ++ ':' :: writeValue v

/-- The members after the first one, and the end of the object. -/
def writeMembers : List (String × Value) → List Char
  | [] => ['\x7d']
  | m :: ms => ',' :: writeMember m ++ writeMembers ms

end

def Value.text (v : Value) : String := String.ofList (writeValue v)

def Members.text (ms : Members) : String := (Value.object ms).text

end Jose.Json
