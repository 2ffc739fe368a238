import Jose.Claims.DateRules
import Jose.Object

/-! Reading a token: its layers are opened from the outside in, each under the policy,
down to the claims, which are then validated. -/
namespace Jose

structure Consumer where
  config : Config
  verificationKey : Option Key
  decryptionKey : Option Key
  signatureConstraints : Option Constraints
  keyManagementConstraints : Option Constraints
  contentConstraints : Option Constraints
  requiresSignature : Bool
  requiresEncryption : Bool
  skipsVerification : Bool
  validatesVerificationKey : Bool
  validatesDecryptionKey : Bool
  skipsValidators : Bool
  knownCritical : List String
  validators : List Validator

/-- An accepted token, with its layers from the inside out. -/
structure Context where
  token : String
  claims : Claims
  objects : List Object
  deriving Repr

def asciiEqualIgnoringCase (a b : String) : Bool := a.map Char.toLower = b.map Char.toLower

/-- The content type of a layer whose content is a token again. -/
def isNested (contentType : Option String) : Bool :=
  match contentType with
  | some cty =>
    asciiEqualIgnoringCase cty "JWT" || asciiEqualIgnoringCase cty "application/jwt"
  | none => false

namespace Object

def isUnsecured (o : Object) : Bool := o.algorithmId? = some "none"

def isSecured : Object → Bool
  | signed s => !(signed s).isUnsecured
  | encrypted _ => false

def isEncrypted : Object → Bool
  | signed _ => false
  | encrypted _ => true

end Object

namespace Consumer

/-- The constraints on a signed layer: the set ones, or none at all where an unsecured
layer will do, or else those of the configuration. -/
def constraintsFor (c : Consumer) (unsecured : Bool) (default : Constraints) : Constraints :=
  match c.signatureConstraints with
  | some constraints => constraints
  | none => if unsecured && !c.requiresSignature then .unrestricted else default

/-- A signed layer under the policy. An unsecured one is not given a key. -/
def prepareSigned (c : Consumer) (s : Signed) : Signed :=
  let unsecured := (Object.signed s).isUnsecured
  let s :=
    (s.setConstraints (c.constraintsFor unsecured s.envelope.constraints)).setKnownCritical
      c.knownCritical
  if c.skipsVerification then s
  else
    (s.setKey (if unsecured then none else c.verificationKey)).setValidatesKeys
      c.validatesVerificationKey

def openSigned (c : Consumer) (token : String) (s : Signed) : Result (Object × String) := do
  let s := c.prepareSigned s
  if c.skipsVerification then return (.signed s, ← s.unverifiedPayload)
  match s.verify with
  | (.ok true, s) => return (.signed s, ← s.unverifiedPayload)
  | (.ok false, _) => .error (.invalidJwt ["JWS signature is invalid: " ++ token])
  | (.error e, _) => .error e

/-- An encrypted layer under the policy. -/
def prepareEncrypted (c : Consumer) (e : Encrypted) : Encrypted :=
  let e := e.setConstraints (c.keyManagementConstraints.getD e.envelope.constraints)
  let e := e.setContentConstraints (c.contentConstraints.getD e.contentConstraints)
  ((e.setKnownCritical c.knownCritical).setKey c.decryptionKey).setValidatesKeys
    c.validatesDecryptionKey

def openEncrypted (c : Consumer) (e : Encrypted) : Result (Object × String) :=
  match (c.prepareEncrypted e).plaintextText with
  | (.ok text, e) => .ok (.encrypted e, text)
  | (.error error, _) => .error error

/-- One layer, and the text inside it. -/
def openLayer (c : Consumer) (token : String) : Result (Object × String) := do
  match ← Object.parse c.config token with
  | .signed s => c.openSigned token s
  | .encrypted e => c.openEncrypted e

/-- All layers, from the outside in, and the claims. The text inside a layer is shorter
than the layer, so the length of the token is fuel enough. -/
def unwrap (c : Consumer) : (fuel : Nat) → String → Result (List Object × Claims)
  | 0, token => .error (.invalidJwt [token])
  | fuel + 1, token => do
    let (object, content) ← c.openLayer token
    if isNested object.contentType? then
      let (objects, claims) ← c.unwrap fuel content
      return (object :: objects, claims)
    else return ([object], ← Claims.parse content)

def checkProtection (c : Consumer) (token : String) (objects : List Object) : Result Unit :=
  if c.requiresSignature && !objects.any Object.isSecured then
    .error (.invalidJwt [
      "The JWT has no signature but the JWT Consumer is configured to require one: " ++
        token])
  else if c.requiresEncryption && !objects.any Object.isEncrypted then
    .error (.invalidJwt [
      "The JWT has no encryption but the JWT Consumer is configured to require it: " ++
        token])
  else .ok ()

/-- The reason of one validator; claims that it cannot read are a reason too. -/
def reason? (now : NumericDate) (claims : Claims) (v : Validator) : Option String :=
  match v now claims with
  | .ok reason => reason
  | .error e => some e.message

def validate (c : Consumer) (now : NumericDate) (claims : Claims) : Result Unit :=
  if c.skipsValidators then .ok ()
  else
    match c.validators.filterMap (reason? now claims) with
    | [] => .ok ()
    | reasons => .error (.invalidJwt reasons)

def process (c : Consumer) (now : NumericDate) (token : String) : Result Context := do
  let (objects, claims) ← c.unwrap (token.length + 1) token
  c.checkProtection token objects
  c.validate now claims
  return ⟨token, claims, objects.reverse⟩

/-- What a consumer is made from. -/
structure Options where
  config : Config
  verificationKey : Option Key
  decryptionKey : Option Key
  signatureConstraints : Option Constraints
  keyManagementConstraints : Option Constraints
  contentConstraints : Option Constraints
  requiresSignature : Bool
  requiresEncryption : Bool
  skipsVerification : Bool
  relaxesVerificationKey : Bool
  relaxesDecryptionKey : Bool
  skipsValidators : Bool
  skipsDefaultAudience : Bool
  audience : Option AudienceRule
  issuer : Option IssuerRule
  subject : SubjectRule
  tokenId : TokenIdRule
  dates : DateRules
  knownCritical : List String
  custom : List Validator

namespace Options

/-- A signature is required, and a token for some audience is refused. -/
def default : Options where
  config := .secure
  verificationKey := none
  decryptionKey := none
  signatureConstraints := none
  keyManagementConstraints := none
  contentConstraints := none
  requiresSignature := true
  requiresEncryption := false
  skipsVerification := false
  relaxesVerificationKey := false
  relaxesDecryptionKey := false
  skipsValidators := false
  skipsDefaultAudience := false
  audience := none
  issuer := none
  subject := ⟨false, none⟩
  tokenId := ⟨false⟩
  dates := .lenient
  knownCritical := []
  custom := []

def expectIssuer (issuer : String) (o : Options) : Options :=
  { o with issuer := some ⟨some [issuer], true⟩ }

def addValidator (v : Validator) (o : Options) : Options :=
  { o with custom := o.custom ++ [v] }

/-- The rule on audiences: the set one, or the refusal of any audience unless that is
skipped. -/
def audienceRule? (o : Options) : Option AudienceRule :=
  o.audience <|> if o.skipsDefaultAudience then none else some ⟨[], false⟩

def subjectRule? (o : Options) : Option SubjectRule :=
  if o.subject.required || o.subject.expected.isSome then some o.subject else none

def tokenIdRule? (o : Options) : Option TokenIdRule :=
  if o.tokenId.required then some o.tokenId else none

/-- Audience, issuer, dates, subject and identifier, then the validators of the caller. -/
def validators (o : Options) : List Validator :=
  (o.audienceRule?.map fun r _ => r.validate).toList ++
    (o.issuer.map fun r _ => r.validate).toList ++
    [o.dates.validate] ++ (o.subjectRule?.map fun r _ => r.validate).toList ++
    (o.tokenIdRule?.map fun r _ => r.validate).toList ++ o.custom

def consumer (o : Options) : Consumer where
  config := o.config
  verificationKey := o.verificationKey
  decryptionKey := o.decryptionKey
  signatureConstraints := o.signatureConstraints
  keyManagementConstraints := o.keyManagementConstraints
  contentConstraints := o.contentConstraints
  requiresSignature := o.requiresSignature
  requiresEncryption := o.requiresEncryption
  skipsVerification := o.skipsVerification
  validatesVerificationKey := !o.relaxesVerificationKey
  validatesDecryptionKey := !o.relaxesDecryptionKey
  skipsValidators := o.skipsValidators
  knownCritical := o.knownCritical
  validators := o.validators

end Options
end Consumer
end Jose
