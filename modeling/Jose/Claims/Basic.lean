import Jose.Claims.NumericDate
import Jose.Error
import Jose.Text.Base64Url

/-! The claims of a token. A claim is read as the type that is asked for, and one of
another type is a failure, which is not the same as a claim that is not there. -/
namespace Jose
open Text

structure Claims where
  members : Json.Members
  deriving Repr

namespace Claims

def empty : Claims := ⟨[]⟩

def parse (json : String) : Result Claims :=
  match Json.parseText json with
  | .error f => .error (.json f.message)
  | .ok (.object members) => .ok ⟨members⟩
  | .ok other =>
    .error (.json ("The JWT Claims Set must be a JSON object but was " ++ other.text))

def read (bs : Bytes) : Json.Step (Claims × Bytes) :=
  (fun (members, rest) => (⟨members⟩, rest)) <$> Json.readMembers bs

def json (c : Claims) : String := Json.Members.text c.members

def get? (c : Claims) (name : String) : Option Json.Value := c.members.get? name

def has (c : Claims) (name : String) : Bool := c.members.contains name

def set (name : String) (value : Json.Value) (c : Claims) : Claims :=
  ⟨c.members.insert name value⟩

def unset (name : String) (c : Claims) : Claims := ⟨c.members.erase name⟩

def malformed (name : String) (value : Json.Value) (expected : String) : Error :=
  .malformedClaim ("The value of the '" ++ name ++ "' claim is not the expected type (" ++
    value.text ++ " - expected " ++ expected ++ ")")

def string? (c : Claims) (name : String) : Result (Option String) :=
  match c.get? name with
  | none => .ok none
  | some (.string s) => .ok (some s)
  | some other => .error (malformed name other "a string")

/-- One string is a list of one. -/
def stringList (c : Claims) (name : String) : Result (List String) :=
  match c.get? name with
  | none => .ok []
  | some (.string s) => .ok [s]
  | some (.array items) =>
    items.mapM fun item =>
      match item.string? with
      | some s => .ok s
      | none => .error (malformed name item "an array of strings")
  | some other => .error (malformed name other "a string or array of strings")

/-- A fraction is cut off, and a number out of range counts as the nearest date. -/
def dateOf : Json.Number → NumericDate
  | .integer i => ⟨NumericDate.clamp i⟩
  | .real x => ⟨NumericDate.clamp x.truncate⟩

def date? (c : Claims) (name : String) : Result (Option NumericDate) :=
  match c.get? name with
  | none => .ok none
  | some (.number n) => .ok (some (dateOf n))
  | some other => .error (malformed name other "a numeric date")

def issuer? (c : Claims) : Result (Option String) := c.string? "iss"

def subject? (c : Claims) : Result (Option String) := c.string? "sub"

def tokenId? (c : Claims) : Result (Option String) := c.string? "jti"

def audience (c : Claims) : Result (List String) := c.stringList "aud"

def hasAudience (c : Claims) : Bool := c.has "aud"

def expiration? (c : Claims) : Result (Option NumericDate) := c.date? "exp"

def notBefore? (c : Claims) : Result (Option NumericDate) := c.date? "nbf"

def issuedAt? (c : Claims) : Result (Option NumericDate) := c.date? "iat"

def setString (name value : String) : Claims → Claims := set name (.string value)

def setDate (name : String) (date : NumericDate) : Claims → Claims :=
  set name (.integer date.seconds)

/-- A single audience is written as a string. -/
def setAudience (audience : List String) : Claims → Claims :=
  match audience with
  | [only] => setString "aud" only
  | many => set "aud" (.strings many)

open Decimal in
def setExpirationIn (now : NumericDate) (minutes : Binary64) : Claims → Claims :=
  setDate "exp" (now.afterMinutes minutes)

open Decimal in
def setNotBeforeAgo (now : NumericDate) (minutes : Binary64) : Claims → Claims :=
  setDate "nbf" (now.afterMinutes minutes.neg)

def setIssuedNow (now : NumericDate) : Claims → Claims := setDate "iat" now

/-- Bytes of randomness in a generated identifier. -/
def tokenIdBytes : Nat := 16

def setFreshTokenId (random : Bytes) : Claims → Claims :=
  setString "jti" (Base64Url.encode random)

end Claims
end Jose
