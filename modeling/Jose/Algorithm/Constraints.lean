import Jose.Error

/-! Which algorithms an envelope may use: those on a list, or those not on it. -/
namespace Jose

inductive Constraints where
  | permit (ids : List String)
  | block (ids : List String)
  deriving DecidableEq, Repr

namespace Constraints

def unrestricted : Constraints := .block []

def disallowNone : Constraints := .block ["none"]

def ids : Constraints → List String
  | permit ids | block ids => ids

def isPermit : Constraints → Bool
  | permit _ => true
  | block _ => false

def allows : Constraints → String → Bool
  | permit ids, id => id ∈ ids
  | block ids, id => id ∉ ids

def check (c : Constraints) (id : String) : Result Unit :=
  if c.allows id then .ok ()
  else
    .error (.constraintViolation ("'" ++ id ++
      (if c.isPermit then "' is not a permitted algorithm." else "' is a blocked algorithm.")))

end Constraints
end Jose
