import Jose.Algorithm.Basic
import Jose.Key

/-! The signature algorithms. Each operation first checks that the key is of the right
type; the checks of its strength are apart, so that a caller can relax them. -/
namespace Jose
open Hash PublicKey

inductive SignatureAlgorithm where
  | unsecured
  | hmac (hash : Sha2)
  | rsa (hash : Sha2)
  | ecdsa (curve : Curve)
  deriving DecidableEq, Repr

namespace SignatureAlgorithm

def all : List SignatureAlgorithm :=
  [unsecured, hmac .sha256, hmac .sha384, hmac .sha512, rsa .sha256, rsa .sha384, rsa .sha512,
    ecdsa .p256, ecdsa .p384]

def id : SignatureAlgorithm → String
  | unsecured => "none"
  | hmac .sha256 => "HS256"
  | hmac .sha384 => "HS384"
  | hmac .sha512 => "HS512"
  | rsa .sha256 => "RS256"
  | rsa .sha384 => "RS384"
  | rsa .sha512 => "RS512"
  | ecdsa .p256 => "ES256"
  | ecdsa .p384 => "ES384"

def persuasion : SignatureAlgorithm → Persuasion
  | unsecured => .keyless
  | hmac _ => .symmetric
  | rsa _ | ecdsa _ => .asymmetric

def keyType : SignatureAlgorithm → String
  | unsecured => ""
  | hmac _ => "oct"
  | rsa _ => "RSA"
  | ecdsa _ => "EC"

instance : Algorithm SignatureAlgorithm := ⟨id, persuasion, keyType, fun _ => true⟩

def registry : Registry SignatureAlgorithm := .ofList "alg" all

def requireNoKey : Option Key → Result Unit
  | none => .ok ()
  | some _ => .error (.keyValidation "JWS Plaintext (alg=none) must not use a key.")

/-- Shortest secret of an algorithm: as long as its hash. -/
def minSecretBytes (hash : Sha2) : Nat := hash.digestBytes

def secretOf (id : String) (key : Option Key) : Result Bytes := do
  let key ← Key.required id key
  match key.secret? with
  | some secret => return secret
  | none =>
    .error (.keyValidation (id ++ " requires a symmetric (oct) key but a " ++ key.type ++
      " key was provided"))

def wrongRsaKey (id : String) (key : Key) : Error :=
  .keyValidation (id ++ " requires an RSA key but a " ++ key.type ++ " key was provided")

def rsaSigningKey (id : String) (key : Option Key) : Result Rsa.SigningKey := do
  match ← Key.required id key with
  | .rsaPrivate k => return k
  | .rsaPublic _ => .error (.keyValidation (id ++ " signing requires an RSA private key"))
  | other => .error (wrongRsaKey id other)

def rsaVerifyingKey (id : String) (key : Option Key) : Result Rsa.VerifyingKey := do
  match ← Key.required id key with
  | .rsaPrivate k => return k.verifyingKey
  | .rsaPublic k => return k
  | other => .error (wrongRsaKey id other)

/-- A key on the curve. -/
def ecKey (id : String) (c : Curve) (key : Option Key) : Result Key := do
  let key ← Key.required id key
  match key.curve? with
  | some actual =>
    if actual = c then return key
    else
      .error (.keyValidation (id ++ " requires a key on curve " ++ c.name ++
        " but the key is on " ++ actual.name))
  | none =>
    .error (.keyValidation (id ++ " requires an EC key but a " ++ key.type ++
      " key was provided"))

def ecSigningKey (id : String) (c : Curve) (key : Option Key) : Result Ecdsa.SigningKey := do
  match ← ecKey id c key with
  | .ecPrivate k => return k
  | _ => .error (.keyValidation (id ++ " signing requires an EC private key"))

def ecVerifyingKey (id : String) (c : Curve) (key : Option Key) :
    Result Ecdsa.VerifyingKey := do
  match ← ecKey id c key with
  | .ecPrivate k => return k.verifyingKey
  | .ecPublic k => return k
  | other => .error (.keyValidation (id ++ " cannot verify with a " ++ other.type ++ " key"))

def validateSigningKey (a : SignatureAlgorithm) (key : Option Key) : Result Unit := do
  match a with
  | unsecured => requireNoKey key
  | hmac hash => Key.validateSecret a.id (minSecretBytes hash) (← secretOf a.id key)
  | rsa _ => Key.validateRsaSize a.id (.rsaPrivate (← rsaSigningKey a.id key))
  | ecdsa c => discard (ecSigningKey a.id c key)

def validateVerificationKey (a : SignatureAlgorithm) (key : Option Key) : Result Unit := do
  match a with
  | unsecured => requireNoKey key
  | hmac hash => Key.validateSecret a.id (minSecretBytes hash) (← secretOf a.id key)
  | rsa _ => Key.validateRsaSize a.id (.rsaPublic (← rsaVerifyingKey a.id key))
  | ecdsa c => discard (ecKey a.id c key)

def sign (a : SignatureAlgorithm) (key : Option Key) (input : Bytes) : Result Bytes := do
  match a with
  | unsecured =>
    requireNoKey key
    return []
  | hmac hash => return Hash.hmac hash (← secretOf a.id key) input
  | rsa hash =>
    match Rsa.sign hash (← rsaSigningKey a.id key) input with
    | .ok signature => return signature
    | .error fault =>
      .error (.crypto ("RSA signing failed: signature error: " ++ fault.message))
  | ecdsa c =>
    match Ecdsa.sign? (← ecSigningKey a.id c key) input with
    | some signature => return signature
    | none => .error (.crypto (a.id ++ " signing failed: signature error"))

/-- A signature that does not fit is an answer; a key that does not fit is a failure. -/
def verify (a : SignatureAlgorithm) (key : Option Key) (signature input : Bytes) :
    Result Bool := do
  match a with
  | unsecured =>
    requireNoKey key
    return signature.isEmpty
  | hmac hash => return Hash.hmac hash (← secretOf a.id key) input = signature
  | rsa hash => return Rsa.verify hash (← rsaVerifyingKey a.id key) signature input
  | ecdsa c => return Ecdsa.verify (← ecVerifyingKey a.id c key) signature input

end SignatureAlgorithm
end Jose
