import Jose.Claims.Basic
import Jose.Text.Quoted

/-! Checks on claims. A check answers with the reason to refuse the claims, if there is
one, and fails if it cannot read them. It is given the present time. -/
namespace Jose
open Text

abbrev Validator := NumericDate → Claims → Result (Option String)

structure IssuerRule where
  expected : Option (List String)
  required : Bool
  deriving DecidableEq, Repr

def IssuerRule.validate (rule : IssuerRule) (claims : Claims) : Result (Option String) := do
  match ← claims.issuer?, rule.expected with
  | none, none =>
    return if rule.required then some "No Issuer (iss) claim present." else none
  | none, some expected =>
    return if rule.required then
      some ("No Issuer (iss) claim present but was expecting " ++ quotedList expected)
    else none
  | some _, none => return none
  | some issuer, some expected =>
    return if issuer ∈ expected then none
    else some ("Issuer (iss) claim value (" ++ issuer ++
      ") doesn't match expected value of " ++
      ", ".intercalate expected)

structure AudienceRule where
  acceptable : List String
  required : Bool
  deriving DecidableEq, Repr

def AudienceRule.validate (rule : AudienceRule) (claims : Claims) :
    Result (Option String) := do
  if !claims.hasAudience then
    return if rule.required then some "No Audience (aud) claim present." else none
  let audience ← claims.audience
  if audience.any (· ∈ rule.acceptable) then return none
  else if rule.acceptable.isEmpty then
    return some ("Audience (aud) claim " ++ quotedList audience ++
      " present in the JWT but no expected audience value(s) were provided to the JWT Consumer.")
  else
    return some ("Audience (aud) claim " ++ quotedList audience ++
      " doesn't contain an acceptable identifier. Expected one of " ++
        quotedList rule.acceptable ++
      " as an aud value.")

structure SubjectRule where
  required : Bool
  expected : Option String
  deriving DecidableEq, Repr

def SubjectRule.validate (rule : SubjectRule) (claims : Claims) : Result (Option String) := do
  match ← claims.subject?, rule.expected with
  | none, expected =>
    return if rule.required ||
      expected.isSome then some "No Subject (sub) claim is present." else none
  | some _, none => return none
  | some subject, some expected =>
    return if subject = expected then none
    else some ("Subject (sub) claim value (" ++ subject ++
      ") doesn't match expected value of " ++
      expected)

structure TokenIdRule where
  required : Bool
  deriving DecidableEq, Repr

def TokenIdRule.validate (rule : TokenIdRule) (claims : Claims) : Result (Option String) := do
  let id ← claims.tokenId?
  return if id.isNone &&
    rule.required then some "The JWT ID (jti) claim is not present." else none

/-- A list claim must have the item, or else the message is the reason. -/
def mustContain (claim item message : String) : Validator := fun _ claims => do
  return if item ∈ (← claims.stringList claim) then none else some message

end Jose
