import Jose.Decimal.Binary64
import Jose.Named

/-! JSON values. An integer stays exact in the range of signed and unsigned 64-bit words;
any other number is a double. -/
namespace Jose.Json
open Jose.Decimal

inductive Number where
  | integer (i : Int)
  | real (x : Binary64)
  deriving DecidableEq, Repr

inductive Value where
  | null
  | bool (b : Bool)
  | number (n : Number)
  | string (s : String)
  | array (items : List Value)
  | object (members : List (String × Value))
  deriving Repr, Inhabited

/-- The members of an object. -/
abbrev Members := Named Value

namespace Value

def string? : Value → Option String
  | .string s => some s
  | _ => none

def integer (i : Int) : Value := .number (.integer i)

def strings (items : List String) : Value := .array (items.map .string)

end Value
end Jose.Json
