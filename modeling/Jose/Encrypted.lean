import Jose.Algorithm.KeyManagement
import Jose.Compact
import Jose.Envelope
import Jose.Text.Charset

/-! Encrypted envelopes in compact form: header, encrypted key, vector, ciphertext and
tag. The header segment is the associated data. A plaintext is kept once it is set or
deciphered. -/
namespace Jose
open Text

structure Encrypted where
  envelope : Envelope
  contentConstraints : Constraints
  plaintext : Option Bytes
  charset : Charset
  encryptedKey : Bytes
  content : Protected
  chosenIv : Option Bytes
  deriving Repr

namespace Encrypted

/-- The encrypted key is empty when the key is shared. -/
def layout : Compact := .allowingEmpty 1

def new : Encrypted :=
  ⟨.empty .unrestricted, .unrestricted, none, .utf8, [], ⟨[], [], []⟩, none⟩

def parse (token : String) : Result Encrypted := do
  match ← layout.deserialize token with
  | [header, encryptedKey, iv, ciphertext, tag] =>
    let headers ← Headers.parse header
    let encryptedKey ← Base64Url.decode encryptedKey
    let iv ← Base64Url.decode iv
    let ciphertext ← Base64Url.decode ciphertext
    let tag ← Base64Url.decode tag
    return { new with
      envelope := { new.envelope with headers }
      encryptedKey
      content := ⟨ciphertext, iv, tag⟩ }
  | parts =>
    .error (.format
      ("A JWE Compact Serialization must have exactly 5 parts separated by period " ++
      s!"('.') characters (wrong part count {parts.length})."))

def setPlaintextBytes (plaintext : Bytes) (e : Encrypted) : Encrypted :=
  { e with plaintext := some plaintext, envelope := e.envelope.touch }

def setPlaintext (text : String) (e : Encrypted) : Result Encrypted := do
  return e.setPlaintextBytes (← e.charset.encode text)

def setCharset (charset : Charset) (e : Encrypted) : Encrypted := { e with charset }

def mapEnvelope (f : Envelope → Envelope) (e : Encrypted) : Encrypted :=
  { e with envelope := f e.envelope }

def setKey (key : Option Key) : Encrypted → Encrypted := mapEnvelope (·.setKey key)

def setConstraints (constraints : Constraints) : Encrypted → Encrypted :=
  mapEnvelope (·.setConstraints constraints)

def setContentConstraints (constraints : Constraints) (e : Encrypted) : Encrypted :=
  { e with contentConstraints := constraints, envelope := e.envelope.touch }

def setValidatesKeys (on : Bool) : Encrypted → Encrypted :=
  mapEnvelope (·.setValidatesKeys on)

def setKnownCritical (names : List String) : Encrypted → Encrypted :=
  mapEnvelope (·.setKnownCritical names)

def setHeader (name : String) (value : Json.Value) : Encrypted → Encrypted :=
  mapEnvelope (·.setHeader name value)

/-- The vector for the next encryption only. -/
def setIv (iv : Bytes) (e : Encrypted) : Encrypted := { e with chosenIv := some iv }

def keyManagement (e : Encrypted) : Result KeyManagement := do
  let id ← e.envelope.algorithmId
  e.envelope.constraints.check id
  KeyManagement.registry.find id

def contentEncryption (e : Encrypted) : Result ContentEncryption :=
  match e.envelope.headers.string? "enc" with
  | none => .error (.invalidAlgorithm "Content encryption header (enc) not set.")
  | some id => do
    e.contentConstraints.check id
    ContentEncryption.registry.find id

def associatedData (e : Encrypted) : Bytes := Utf8.encode e.envelope.headers.encoded

/-- The plaintext of the current content, whatever has been deciphered before. -/
def decipher (e : Encrypted) : Result Bytes := do
  let management ← e.keyManagement
  let encryption ← e.contentEncryption
  e.envelope.validateKey (management.validateKey · encryption)
  e.envelope.checkCritical
  let key ← management.forDecryption e.envelope.key e.encryptedKey encryption
  encryption.decrypt e.content e.associatedData key

def plaintextBytes (e : Encrypted) : Result Bytes × Encrypted :=
  match e.plaintext with
  | some bytes => (.ok bytes, e)
  | none =>
    match e.decipher with
    | .ok bytes => (.ok bytes, { e with plaintext := some bytes })
    | .error error => (.error error, e)

def plaintextText (e : Encrypted) : Result String × Encrypted :=
  match e.plaintextBytes with
  | (.ok bytes, e) => (e.charset.decode bytes, e)
  | (.error error, e) => (.error error, e)

/-- What an encryption needs: the algorithm, the keys and the plaintext. -/
def prepare (e : Encrypted) : Result (ContentEncryption × ContentKey × Bytes) := do
  let management ← e.keyManagement
  let encryption ← e.contentEncryption
  e.envelope.validateKey (management.validateKey · encryption)
  let keys ← management.forEncryption e.envelope.key encryption
  match e.plaintext with
  | some plaintext => return (encryption, keys, plaintext)
  | none => .error (.format "The plaintext payload for the JWE has not been set.")

def segments (e : Encrypted) : List String :=
  [e.envelope.headers.encoded, Base64Url.encode e.encryptedKey, Base64Url.encode e.content.iv,
    Base64Url.encode e.content.ciphertext, Base64Url.encode e.content.tag]

/-- Encrypts under the chosen vector, or else the fresh one. A chosen vector is spent even
if the encryption then fails. -/
def compact (fresh : Bytes) (e : Encrypted) : Result String × Encrypted :=
  match e.prepare with
  | .error error => (.error error, e)
  | .ok (encryption, keys, plaintext) =>
    let iv := e.chosenIv.getD fresh
    let e := { e with chosenIv := none }
    match encryption.encrypt plaintext e.associatedData keys.key iv with
    | .error error => (.error error, e)
    | .ok content =>
      let e := { e with encryptedKey := keys.encryptedKey, content }
      (layout.serialize e.segments, e)

end Encrypted
end Jose
