import Jose.Error

/-! The compact layout: segments joined by periods. An empty segment is ambiguous on the
wire, so only the last one, and the one that the layout names, may be empty. -/
namespace Jose

structure Compact where
  optional : Option Nat
  deriving DecidableEq, Repr

namespace Compact

def strict : Compact := ⟨none⟩

def allowingEmpty (index : Nat) : Compact := ⟨some index⟩

def emptySegment : Error :=
  .format "Compact serialization cannot contain empty middle or beginning parts"

/-- The text before each period and after the last one. -/
def splitChars : List Char → List (List Char)
  | [] => [[]]
  | c :: cs =>
    match splitChars cs with
    | [] => [[c]]
    | part :: parts => if c = '.' then [] :: part :: parts else (c :: part) :: parts

def split (text : String) : List String := (splitChars text.toList).map String.ofList

def join (parts : List String) : String := ".".intercalate parts

/-- A part that is not given leaves its segment empty. -/
def filled (parts : List (Option String)) : List String := parts.map fun part => part.getD ""

/-- Whether an empty segment may stand at `index`, before the last one. -/
def allows (layout : Compact) (index : Nat) : Bool := layout.optional = some index

/-- Joins the parts from number `index` on. A part with another one behind it may not be
empty, unless it is the optional one. -/
def serializeFrom (layout : Compact) : (index : Nat) → List String → Result String
  | _, [] => .ok ""
  | _, [last] => .ok last
  | index, part :: next :: rest =>
    if part.isEmpty && !layout.allows index then .error emptySegment
    else (fun text => part ++ "." ++ text) <$> layout.serializeFrom (index + 1) (next :: rest)

def serialize (layout : Compact) (parts : List String) : Result String :=
  layout.serializeFrom 0 parts

/-- Looks at the segments from number `index` on. An empty one may follow the last period,
or be the optional one; before any period it is no trailing one, even if it is the
last. -/
def checkFrom (layout : Compact) (last : Nat) : (index : Nat) → List String → Result Unit
  | _, [] => .ok ()
  | index, part :: rest =>
    if part.isEmpty && !(index = last && 0 < index) && !layout.allows index then
      .error emptySegment
    else layout.checkFrom last (index + 1) rest

def deserialize (layout : Compact) (text : String) : Result (List String) := do
  let parts := split text
  layout.checkFrom (parts.length - 1) 0 parts
  return parts

end Compact
end Jose
