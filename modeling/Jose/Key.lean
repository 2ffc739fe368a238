import Jose.Error
import Jose.PublicKey.Import

/-! Keys, and the checks that every algorithm makes on them. A private key is shown by its
kind and size only, so that no message can give a secret away. -/
namespace Jose
open PublicKey

inductive Key where
  | symmetric (secret : Bytes)
  | rsaPrivate (key : Rsa.SigningKey)
  | rsaPublic (key : Rsa.VerifyingKey)
  | ecPrivate (key : Ecdsa.SigningKey)
  | ecPublic (key : Ecdsa.VerifyingKey)
  deriving DecidableEq, Repr

namespace Key

def ofOption (what : String) (key : Option Key) : Result Key :=
  match key with
  | some k => .ok k
  | none => .error (.keyValidation ("Invalid " ++ what))

def ofRsaPrivateDer (der : Bytes) : Result Key :=
  ofOption "RSA private key" (.rsaPrivate <$> Import.rsaSigningKey? der)

def ofRsaPublicDer (der : Bytes) : Result Key :=
  ofOption "RSA public key" (.rsaPublic <$> Import.rsaVerifyingKey? der)

def ofEcPrivateDer (der : Bytes) : Result Key :=
  ofOption "EC private key" (.ecPrivate <$> Import.ecSigningKey? der)

def ofEcPublicDer (der : Bytes) : Result Key :=
  ofOption "EC public key" (.ecPublic <$> Import.ecVerifyingKey? der)

def ofScalar (c : Curve) (scalar : Bytes) : Result Key :=
  ofOption (c.name ++ " private key bytes") (.ecPrivate <$> Import.scalar? c scalar)

/-- The type in the words of a JSON key. -/
def type : Key → String
  | symmetric _ => "oct"
  | rsaPrivate _ | rsaPublic _ => "RSA"
  | ecPrivate _ | ecPublic _ => "EC"

def isPrivate : Key → Bool
  | rsaPrivate _ | ecPrivate _ => true
  | symmetric _ | rsaPublic _ | ecPublic _ => false

/-- The public half; a public key is its own. -/
def publicKey? : Key → Option Key
  | symmetric _ => none
  | rsaPrivate k => some (rsaPublic k.verifyingKey)
  | ecPrivate k => some (ecPublic k.verifyingKey)
  | rsaPublic k => some (rsaPublic k)
  | ecPublic k => some (ecPublic k)

def secret? : Key → Option Bytes
  | symmetric secret => some secret
  | _ => none

/-- The size of the modulus, in whole bytes. -/
def rsaBits? : Key → Option Nat
  | rsaPrivate k => some (k.verifyingKey.size * 8)
  | rsaPublic k => some (k.size * 8)
  | _ => none

def curve? : Key → Option Curve
  | ecPrivate k => some k.curve
  | ecPublic k => some k.curve
  | _ => none

def shown : Key → String
  | symmetric secret => "Symmetric \x7b len: " ++ toString secret.length ++ ", .. \x7d"
  | rsaPrivate k =>
    "Rsa \x7b private: true, bits: Some(" ++ toString (k.verifyingKey.size * 8) ++ ") \x7d"
  | rsaPublic k => "Rsa \x7b private: false, bits: Some(" ++ toString (k.size * 8) ++ ") \x7d"
  | ecPrivate k => "Ec \x7b private: true, curve: Some(\"" ++ k.curve.name ++ "\") \x7d"
  | ecPublic k => "Ec \x7b private: false, curve: Some(\"" ++ k.curve.name ++ "\") \x7d"

def required (algorithm : String) : Option Key → Result Key
  | some key => .ok key
  | none => .error (.keyValidation ("Key cannot be null for " ++ algorithm))

/-- A secret has at least as many bytes as the hash gives. -/
def validateSecret (algorithm : String) (minBytes : Nat) (secret : Bytes) : Result Unit :=
  if secret.length < minBytes then
    .error (.keyValidation
      (s!"A key of the same size as the hash output (i.e. {minBytes * 8} bits for " ++
      algorithm ++
        ") or larger MUST be used with the HMAC SHA algorithms but this key is only " ++
      s!"{secret.length * 8} bits"))
  else .ok ()

def minRsaBits : Nat := 2048

def validateRsaSize (algorithm : String) (key : Key) : Result Unit :=
  let bits := key.rsaBits?.getD 0
  if bits < minRsaBits then
    .error (.keyValidation
      (s!"An RSA key of size {minRsaBits} bits or larger MUST be used with " ++
      algorithm ++ s!" (this key is only {bits} bits)"))
  else .ok ()

end Key
end Jose
