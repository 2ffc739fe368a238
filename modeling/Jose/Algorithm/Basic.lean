import Jose.Error
import Jose.Named
import Jose.Text.Quoted

/-! What all algorithms have in common, and the registry that finds them by the identifier
in a header parameter. -/
namespace Jose

/-- How the key of an algorithm is agreed on. -/
inductive Persuasion where
  | keyless
  | symmetric
  | asymmetric
  deriving DecidableEq, Repr

namespace Persuasion

def all : List Persuasion := [keyless, symmetric, asymmetric]

def shown : Persuasion → String
  | keyless => "none"
  | symmetric => "symmetric"
  | asymmetric => "asymmetric"

/-- The name in serialized data. -/
def label : Persuasion → String
  | keyless => "None"
  | symmetric => "Symmetric"
  | asymmetric => "Asymmetric"

end Persuasion

class Algorithm (α : Type) where
  id : α → String
  persuasion : α → Persuasion
  /-- The type of its keys, empty when there is none. -/
  keyType : α → String
  isAvailable : α → Bool

structure Registry (α : Type) where
  parameter : String
  entries : Named α

namespace Registry
variable {α : Type}

def empty (parameter : String) : Registry α := ⟨parameter, []⟩

def supported (r : Registry α) : List String := r.entries.names

def contains (r : Registry α) (id : String) : Bool := r.entries.contains id

def find (r : Registry α) (id : String) : Result α :=
  match r.entries.get? id with
  | some a => .ok a
  | none => .error (.unknownAlgorithm (id ++ " is an unknown, unsupported or unavailable " ++
      r.parameter ++ " algorithm (not one of " ++ Text.quotedList r.supported ++ ")."))

/-- An unavailable algorithm is left out. -/
def register [Algorithm α] (r : Registry α) (a : α) : Registry α :=
  if Algorithm.isAvailable a then
    { r with entries := r.entries.insert (Algorithm.id a) a } else r

def ofList [Algorithm α] (parameter : String) (algorithms : List α) : Registry α :=
  algorithms.foldl register (empty parameter)

end Registry
end Jose
