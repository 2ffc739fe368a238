import Jose.Algorithm.Basic
import Jose.Cipher.Cbc
import Jose.Hash.Hmac

/-! Authenticated encryption of content: AES in block chaining, then a tag over the
associated data, the vector, the ciphertext and the length of the associated data. The key
is one half for the tag and one half for the cipher. -/
namespace Jose
open Cipher Hash

inductive ContentEncryption where
  | aes128
  | aes192
  | aes256
  deriving DecidableEq, Repr

/-- What one encryption gives. -/
structure Protected where
  ciphertext : Bytes
  iv : Bytes
  tag : Bytes
  deriving DecidableEq, Repr

namespace ContentEncryption

def all : List ContentEncryption := [aes128, aes192, aes256]

def id : ContentEncryption → String
  | aes128 => "A128CBC-HS256"
  | aes192 => "A192CBC-HS384"
  | aes256 => "A256CBC-HS512"

instance : Algorithm ContentEncryption :=
  ⟨id, fun _ => .symmetric, fun _ => "oct", fun _ => true⟩

def registry : Registry ContentEncryption := .ofList "enc" all

def hash : ContentEncryption → Sha2
  | aes128 => .sha256
  | aes192 => .sha384
  | aes256 => .sha512

/-- The length of each half of the key, and of the tag. -/
def halfKeyBytes : ContentEncryption → Nat
  | aes128 => 16
  | aes192 => 24
  | aes256 => 32

def keyBytes (e : ContentEncryption) : Nat := e.halfKeyBytes * 2

def ivBytes (_ : ContentEncryption) : Nat := Cbc.blockBytes

def tagBytes (e : ContentEncryption) : Nat := e.halfKeyBytes

def checkKey (e : ContentEncryption) (key : Bytes) : Result Unit :=
  if key.length = e.keyBytes then .ok ()
  else
    .error (.keyValidation ("Invalid key for " ++ e.id ++
      s!": expected {e.keyBytes} bytes, got {key.length}"))

def checkIv (e : ContentEncryption) (iv : Bytes) : Result Unit :=
  if iv.length = e.ivBytes then .ok ()
  else
    .error (.crypto ("Invalid IV for " ++ e.id ++
      s!": expected {e.ivBytes} bytes, got {iv.length}"))

/-- The length in bits has to fit eight bytes. -/
def tag (e : ContentEncryption) (key aad iv ciphertext : Bytes) : Result Bytes :=
  if aad.length * 8 < UInt64.size then
    let input := aad ++ iv ++ ciphertext ++ Bytes.ofNat 8 (aad.length * 8)
    .ok ((hmac e.hash (key.take e.halfKeyBytes) input).take e.tagBytes)
  else .error (.crypto "Additional authenticated data is too long")

def encrypt (e : ContentEncryption) (plaintext aad key iv : Bytes) : Result Protected := do
  e.checkKey key
  e.checkIv iv
  match Cbc.encrypt (key.drop e.halfKeyBytes) iv plaintext with
  | none => .error (.crypto "Invalid AES key or IV length")
  | some ciphertext => return ⟨ciphertext, iv, ← e.tag key aad iv ciphertext⟩

/-- The tag is compared before any block is deciphered, and everything that can be wrong
with the input gives the one answer. -/
def decrypt (e : ContentEncryption) (content : Protected) (aad key : Bytes) :
    Result Bytes := do
  e.checkKey key
  match e.tag key aad content.iv content.ciphertext with
  | .error _ => .error .rejectedContent
  | .ok expected =>
    if expected = content.tag then
      match Cbc.decrypt (key.drop e.halfKeyBytes) content.iv content.ciphertext with
      | some plaintext => return plaintext
      | none => .error .rejectedContent
    else .error .rejectedContent

end ContentEncryption
end Jose
