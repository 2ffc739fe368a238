import Jose.Claims.Validator

/-! When a token is valid. The rules are asked in order and the first reason counts. The
skew allows for clocks that differ, in favour of the token at both ends. -/
namespace Jose

structure DateRules where
  requireExpiration : Bool
  requireIssuedAt : Bool
  requireNotBefore : Bool
  evaluationTime : Option NumericDate
  skewSeconds : Nat
  /-- How far ahead an expiration may lie; zero for any. -/
  maxFutureMinutes : Nat
  deriving DecidableEq, Repr

/-- The three dates of a token. -/
structure TokenDates where
  expiration : Option NumericDate
  issuedAt : Option NumericDate
  notBefore : Option NumericDate
  deriving DecidableEq, Repr

namespace DateRules

def lenient : DateRules := ⟨false, false, false, none, 0, 0⟩

def skewText (r : DateRules) : String :=
  if 0 < r.skewSeconds then
    s!" (even when providing {r.skewSeconds} seconds of leeway to account for clock skew)."
  else "."

def missing? (r : DateRules) (d : TokenDates) : Option String :=
  if r.requireExpiration && d.expiration.isNone then
    some "No Expiration Time (exp) claim present."
  else if r.requireIssuedAt && d.issuedAt.isNone then some "No Issued At (iat) claim present."
  else if r.requireNotBefore &&
    d.notBefore.isNone then some "No Not Before (nbf) claim present."
  else none

def expired? (r : DateRules) (time exp : NumericDate) : Option String :=
  if (time.add (-r.skewSeconds)).isOnOrAfter exp then
    some ("The JWT is no longer valid - the evaluation time " ++ time.shown ++
      " is on or after the Expiration Time (exp=" ++ exp.shown ++ ") claim value" ++
        r.skewText)
  else none

def expiresBefore? (exp : NumericDate) (what : String) (date : Option NumericDate) :
    Option String := do
  let date ← date
  guard (exp.isBefore date)
  return "The Expiration Time (exp=" ++ exp.shown ++
    ") claim value cannot be before the " ++ what ++
    "=" ++ date.shown ++ ") claim value."

def tooFarAhead? (r : DateRules) (time exp : NumericDate) : Option String :=
  let ahead := (exp.add (-r.skewSeconds)).add (-time.seconds)
  if 0 < r.maxFutureMinutes && (r.maxFutureMinutes : Int) * 60 < ahead.seconds then
    some ("The Expiration Time (exp=" ++ exp.shown ++ ") claim value cannot be more than " ++
      toString r.maxFutureMinutes ++
        " minutes in the future relative to the evaluation time " ++
      time.shown ++ r.skewText)
  else none

def notYetValid? (r : DateRules) (time nbf : NumericDate) : Option String :=
  if (time.add r.skewSeconds).isBefore nbf then
    some ("The JWT is not yet valid as the evaluation time " ++ time.shown ++
      " is before the Not Before (nbf=" ++ nbf.shown ++ ") claim time" ++ r.skewText)
  else none

/-- The reason to refuse a token with these dates at the present time, or at the set
one. -/
def check (r : DateRules) (now : NumericDate) (d : TokenDates) : Option String :=
  let time := r.evaluationTime.getD now
  r.missing? d <|>
    (d.expiration.bind fun exp =>
      r.expired? time exp <|>
        expiresBefore? exp "Issued At (iat" d.issuedAt <|>
        expiresBefore? exp "Not Before (nbf" d.notBefore <|>
        r.tooFarAhead? time exp) <|>
    d.notBefore.bind (r.notYetValid? time)

def validate (r : DateRules) : Validator := fun now claims => do
  return r.check now ⟨← claims.expiration?, ← claims.issuedAt?, ← claims.notBefore?⟩

end DateRules
end Jose
