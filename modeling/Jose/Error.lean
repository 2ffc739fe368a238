/-! The failures that an envelope operation reports. Each kind is a constructor, so a
caller can tell a bad key from a bad signature without reading the text, and
`Error.message` is the one place where the kinds are put into words. -/
namespace Jose

inductive Error where
  | format (detail : String)
  | invalidAlgorithm (detail : String)
  | unknownAlgorithm (detail : String)
  | constraintViolation (detail : String)
  | keyValidation (detail : String)
  | unprocessedCriticalHeader (detail : String)
  | integrity (detail : String)
  | malformedClaim (detail : String)
  | invalidJwt (reasons : List String)
  | json (detail : String)
  | crypto (detail : String)
  deriving DecidableEq, Repr, Inhabited

abbrev Result := Except Error

namespace Error

def message : Error → String
  | .format d => "Invalid format: " ++ d
  | .invalidAlgorithm d => "Invalid algorithm: " ++ d
  | .unknownAlgorithm d => "Unknown algorithm: " ++ d
  | .constraintViolation d => "Algorithm constraint violation: " ++ d
  | .keyValidation d => "Key validation failed: " ++ d
  | .unprocessedCriticalHeader d => "Unprocessed critical header: " ++ d
  | .integrity d => "Integrity check failed: " ++ d
  | .malformedClaim d => "Malformed claim: " ++ d
  | .invalidJwt ds => "Invalid JWT: " ++ " ".intercalate ds
  | .json d => "JSON error: " ++ d
  | .crypto d => "Cryptographic operation failed: " ++ d

/-- The failures to find an algorithm that the header names and the policy allows. -/
def isAlgorithmError : Error → Bool
  | .invalidAlgorithm _ | .unknownAlgorithm _ | .constraintViolation _ => true
  | _ => false

/-- The one answer to protected content that does not authenticate. A wrong tag, bad
padding and a ragged ciphertext all give this value, so that none can be told from
another. -/
def rejectedContent : Error := .integrity "Authentication tag check failed"

end Error
end Jose
