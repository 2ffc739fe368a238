/-! Values under names, in the order of the names and one for each name, which `insert`
keeps. -/
namespace Jose

abbrev Named (α : Type) := List (String × α)

namespace Named
variable {α : Type}

def get? (name : String) : Named α → Option α
  | [] => none
  | (k, v) :: rest => if k = name then some v else get? name rest

def contains (name : String) (entries : Named α) : Bool := (get? name entries).isSome

def insert (name : String) (value : α) : Named α → Named α
  | [] => [(name, value)]
  | (k, v) :: rest =>
    if name < k then (name, value) :: (k, v) :: rest
    else if name = k then (name, value) :: rest
    else (k, v) :: insert name value rest

def erase (name : String) : Named α → Named α
  | [] => []
  | (k, v) :: rest => if k = name then rest else (k, v) :: erase name rest

def names (entries : Named α) : List String := entries.map (·.1)

/-- A later entry replaces an earlier one of the same name. -/
def ofList (pairs : List (String × α)) : Named α :=
  pairs.foldl (fun entries (k, v) => insert k v entries) []

end Named
end Jose
