import Jose.Consumer

/-! The calls that a consumer is built by. A call sets one option, and the last one that
sets it counts; of the validators of the caller all are kept, in the order in which they
come. -/
namespace Jose.Consumer

inductive Call where
  | config (config : Config)
  | verificationKey (key : Key)
  | decryptionKey (key : Key)
  | signatureConstraints (constraints : Constraints)
  | keyManagementConstraints (constraints : Constraints)
  | contentConstraints (constraints : Constraints)
  | allowUnsigned
  | requireEncryption
  | skipVerification
  | relaxVerificationKey
  | relaxDecryptionKey
  | skipValidators
  | skipDefaultAudience
  | expectAudience (acceptable : List String)
  | acceptAudience (required : Bool) (acceptable : List String)
  | expectIssuer (issuer : String)
  | acceptIssuers (required : Bool) (issuers : Option (List String))
  | requireSubject
  | expectSubject (subject : String)
  | requireTokenId
  | requireExpiration
  | requireIssuedAt
  | requireNotBefore
  | allowSkew (seconds : Nat)
  | limitFuture (minutes : Nat)
  | evaluateAt (time : NumericDate)
  | knownCritical (names : List String)
  | addValidator (v : Validator)

namespace Options

def acceptAudience (required : Bool) (acceptable : List String) (o : Options) : Options :=
  { o with audience := some ⟨acceptable, required⟩ }

def mapDates (f : DateRules → DateRules) (o : Options) : Options :=
  { o with dates := f o.dates }

end Options

/-- An audience or an issuer that is expected is also required. -/
def Call.run : Call → Options → Options
  | config c, o => { o with config := c }
  | verificationKey key, o => { o with verificationKey := some key }
  | decryptionKey key, o => { o with decryptionKey := some key }
  | signatureConstraints constraints, o => { o with signatureConstraints := some constraints }
  | keyManagementConstraints constraints,
      o => { o with keyManagementConstraints := some constraints }
  | contentConstraints constraints, o => { o with contentConstraints := some constraints }
  | allowUnsigned, o => { o with requiresSignature := false }
  | requireEncryption, o => { o with requiresEncryption := true }
  | skipVerification, o => { o with skipsVerification := true }
  | relaxVerificationKey, o => { o with relaxesVerificationKey := true }
  | relaxDecryptionKey, o => { o with relaxesDecryptionKey := true }
  | skipValidators, o => { o with skipsValidators := true }
  | skipDefaultAudience, o => { o with skipsDefaultAudience := true }
  | expectAudience acceptable, o => o.acceptAudience true acceptable
  | acceptAudience required acceptable, o => o.acceptAudience required acceptable
  | expectIssuer issuer, o => o.expectIssuer issuer
  | acceptIssuers required issuers, o => { o with issuer := some ⟨issuers, required⟩ }
  | requireSubject, o => { o with subject := { o.subject with required := true } }
  | expectSubject subject,
      o => { o with subject := { o.subject with expected := some subject } }
  | requireTokenId, o => { o with tokenId := ⟨true⟩ }
  | requireExpiration, o => o.mapDates ({ · with requireExpiration := true })
  | requireIssuedAt, o => o.mapDates ({ · with requireIssuedAt := true })
  | requireNotBefore, o => o.mapDates ({ · with requireNotBefore := true })
  | allowSkew seconds, o => o.mapDates ({ · with skewSeconds := seconds })
  | limitFuture minutes, o => o.mapDates ({ · with maxFutureMinutes := minutes })
  | evaluateAt time, o => o.mapDates ({ · with evaluationTime := some time })
  | knownCritical names, o => { o with knownCritical := names }
  | addValidator v, o => o.addValidator v

def Options.ofCalls (calls : List Call) : Options :=
  calls.foldl (fun o call => call.run o) .default

def build (calls : List Call) : Consumer := (Options.ofCalls calls).consumer

end Jose.Consumer
