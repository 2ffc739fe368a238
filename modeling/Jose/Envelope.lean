import Jose.Algorithm.Constraints
import Jose.Headers
import Jose.Key

/-! The state that signed and encrypted envelopes share: header, key and policy. Every
change moves to the next generation, so that a result of an earlier one is seen to be
stale. -/
namespace Jose

structure Envelope where
  headers : Headers
  key : Option Key
  constraints : Constraints
  validatesKeys : Bool
  knownCritical : List String
  generation : UInt64
  deriving Repr

namespace Envelope

def empty (constraints : Constraints) : Envelope := ⟨.empty, none, constraints, true, [], 0⟩

def touch (e : Envelope) : Envelope := { e with generation := e.generation + 1 }

def setHeader (name : String) (value : Json.Value) (e : Envelope) : Envelope :=
  { e with headers := e.headers.set name value }.touch

def setKey (key : Option Key) (e : Envelope) : Envelope := { e with key }.touch

def setConstraints (constraints : Constraints) (e : Envelope) : Envelope :=
  { e with constraints }.touch

def setValidatesKeys (validatesKeys : Bool) (e : Envelope) : Envelope :=
  { e with validatesKeys }.touch

def setKnownCritical (knownCritical : List String) (e : Envelope) : Envelope :=
  { e with knownCritical }.touch

/-- The `alg` parameter, which has to be there and to be a string. -/
def algorithmId (e : Envelope) : Result String :=
  match e.headers.get? "alg" with
  | none => .error (.invalidAlgorithm "Encoded JOSE object is missing the alg header.")
  | some value =>
    match value.string? with
    | some id => .ok id
    | none =>
      .error (.invalidAlgorithm ("The alg header value must be a string (" ++
        value.text ++ ")."))

/-- The first critical name that is not known. -/
def unknownCritical? (e : Envelope) (names : List String) : Option String :=
  names.find? fun name => name ∉ e.knownCritical

def checkCritical (e : Envelope) : Result Unit := do
  match ← e.headers.critical with
  | none => return ()
  | some names =>
    match e.unknownCritical? names with
    | none => return ()
    | some name =>
      .error (.unprocessedCriticalHeader ("Unrecognized header '" ++ name ++
        "' marked as critical."))

/-- Runs the check of a key, unless checks are switched off. -/
def validateKey (e : Envelope) (check : Option Key → Result Unit) : Result Unit :=
  if e.validatesKeys then check e.key else .ok ()

end Envelope
end Jose
