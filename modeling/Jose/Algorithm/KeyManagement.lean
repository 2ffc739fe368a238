import Jose.Algorithm.ContentEncryption
import Jose.Key

/-! How the key that encrypts the content comes about. The only way is direct: both sides
already share it, and nothing is sent. -/
namespace Jose

inductive KeyManagement where
  | direct
  deriving DecidableEq, Repr

/-- The key that encrypts the content, and what is sent so that the other side finds it. -/
structure ContentKey where
  key : Bytes
  encryptedKey : Bytes
  deriving DecidableEq, Repr

namespace KeyManagement

def all : List KeyManagement := [direct]

def id : KeyManagement → String
  | direct => "dir"

instance : Algorithm KeyManagement := ⟨id, fun _ => .symmetric, fun _ => "oct", fun _ => true⟩

def registry : Registry KeyManagement := .ofList "alg" all

def secretOf (m : KeyManagement) (key : Option Key) : Result Bytes := do
  let key ← Key.required m.id key
  match key.secret? with
  | some secret => return secret
  | none =>
    .error (.keyValidation (m.id ++ " requires a symmetric (oct) key but a " ++ key.type ++
      " key was provided"))

/-- The shared secret, which must be as long as the content encryption needs it. -/
def sharedKey (m : KeyManagement) (key : Option Key) (e : ContentEncryption) :
    Result Bytes := do
  let secret ← m.secretOf key
  if secret.length = e.keyBytes then return secret
  else
    .error (.keyValidation ("Invalid key for JWE " ++ m.id ++
      s!", expected a {e.keyBytes * 8} bit key but a {secret.length * 8} bit key was provided."))

def validateKey (m : KeyManagement) (key : Option Key) (e : ContentEncryption) :
    Result Unit :=
  discard (m.sharedKey key e)

def forEncryption (m : KeyManagement) (key : Option Key) (e : ContentEncryption) :
    Result ContentKey := do
  return ⟨← m.sharedKey key e, []⟩

def forDecryption (m : KeyManagement) (key : Option Key) (encryptedKey : Bytes)
    (e : ContentEncryption) : Result Bytes :=
  if encryptedKey.isEmpty then m.sharedKey key e
  else
    .error (.format (
      "An empty octet sequence is to be used as the JWE Encrypted Key value when utilizing direct " ++
      s!"encryption but this JWE has {encryptedKey.length} octets in the encrypted key part."))

end KeyManagement
end Jose
