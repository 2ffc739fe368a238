import Jose.Encrypted
import Jose.Signed

/-! An envelope of either kind, told apart by the number of its segments. -/
namespace Jose

inductive Object where
  | signed (s : Signed)
  | encrypted (e : Encrypted)
  deriving Repr

namespace Object

def parse (config : Config) (token : String) : Result Object :=
  match (Compact.split token).length with
  | 3 => signed <$> Signed.parse config token
  | 5 => encrypted <$> Encrypted.parse token
  | count =>
    .error (.format
      ("Invalid JOSE Compact Serialization. Expecting either 3 or 5 parts for JWS or " ++
      s!"JWE respectively but was {count}."))

def headers : Object → Headers
  | signed s => s.envelope.headers
  | encrypted e => e.envelope.headers

def isSigned : Object → Bool
  | signed _ => true
  | encrypted _ => false

def contentType? (o : Object) : Option String := o.headers.string? "cty"

def algorithmId? (o : Object) : Option String := o.headers.string? "alg"

def keyId? (o : Object) : Option String := o.headers.string? "kid"

end Object
end Jose
