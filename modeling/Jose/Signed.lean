import Jose.Algorithm.Signature
import Jose.Compact
import Jose.Config
import Jose.Envelope
import Jose.Text.Charset

/-! Signed envelopes in compact form: header, payload and signature. A verdict is kept
together with the generation it was reached in, and is given again as long as that is the
current one. An operation that can fail after a change gives its result together with the
envelope it leaves. -/
namespace Jose
open Text

structure Signed where
  envelope : Envelope
  config : Config
  payload : Bytes
  charset : Charset
  wirePayload : Option String
  signature : Bytes
  verdict : Option (UInt64 × Bool)
  deriving Repr

inductive Verification where
  | unknown
  | valid
  | invalid
  deriving DecidableEq, Repr

namespace Signed

/-- The payload may be empty, as it is when it travels apart from its signature. -/
def layout : Compact := .allowingEmpty 1

def defaultConstraints (config : Config) : Constraints :=
  if config.allowNone then .unrestricted else .disallowNone

def new (config : Config) : Signed :=
  ⟨.empty (defaultConstraints config), config, [], .utf8, none, [], none⟩

def setEncodedPayload (segment : String) (s : Signed) : Result Signed := do
  let payload ← Base64Url.decode segment
  return { s with payload, wirePayload := some segment, envelope := s.envelope.touch }

def parse (config : Config) (token : String) : Result Signed := do
  match ← layout.deserialize token with
  | [header, payload, signature] =>
    let headers ← Headers.parse header
    let empty := new config
    let s ← { empty with
      envelope := { empty.envelope with headers } }.setEncodedPayload payload
    let signature ← Base64Url.decode signature
    return { s with signature, envelope := s.envelope.touch }
  | parts =>
    .error (.format
      ("A JWS Compact Serialization must have exactly 3 parts separated by period " ++
      s!"('.') characters (wrong part count {parts.length})."))

def setPayloadBytes (payload : Bytes) (s : Signed) : Signed :=
  { s with payload, wirePayload := none, envelope := s.envelope.touch }

def setPayload (text : String) (s : Signed) : Result Signed := do
  return s.setPayloadBytes (← s.charset.encode text)

/-- The charset has no part in what is signed, so no verdict becomes stale. -/
def setCharset (charset : Charset) (s : Signed) : Signed := { s with charset }

def encodedPayload (s : Signed) : String :=
  match s.wirePayload with
  | some segment => segment
  | none => Base64Url.encode s.payload

def unverifiedPayload (s : Signed) : Result String := s.charset.decode s.payload

def mapEnvelope (f : Envelope → Envelope) (s : Signed) : Signed :=
  { s with envelope := f s.envelope }

def setKey (key : Option Key) : Signed → Signed := mapEnvelope (·.setKey key)

def setConstraints (constraints : Constraints) : Signed → Signed :=
  mapEnvelope (·.setConstraints constraints)

def setValidatesKeys (on : Bool) : Signed → Signed := mapEnvelope (·.setValidatesKeys on)

def setKnownCritical (names : List String) : Signed → Signed :=
  mapEnvelope (·.setKnownCritical names)

def setHeader (name : String) (value : Json.Value) : Signed → Signed :=
  mapEnvelope (·.setHeader name value)

/-- The algorithm that the header names, whether or not it is allowed. -/
def uncheckedAlgorithm (s : Signed) : Result SignatureAlgorithm := do
  SignatureAlgorithm.registry.find (← s.envelope.algorithmId)

def algorithm (s : Signed) : Result SignatureAlgorithm := do
  let id ← s.envelope.algorithmId
  s.envelope.constraints.check id
  SignatureAlgorithm.registry.find id

def signingInput (s : Signed) : Bytes :=
  Utf8.encode (s.envelope.headers.encoded ++ "." ++ s.encodedPayload)

def sign (s : Signed) : Result Signed := do
  let algorithm ← s.algorithm
  s.envelope.validateKey algorithm.validateSigningKey
  let signature ← algorithm.sign s.envelope.key s.signingInput
  return { s with signature, envelope := s.envelope.touch }

/-- The verdict on the current state, whatever has been decided before. -/
def judge (s : Signed) : Result Bool := do
  let algorithm ← s.algorithm
  s.envelope.validateKey algorithm.validateVerificationKey
  s.envelope.checkCritical
  algorithm.verify s.envelope.key s.signature s.signingInput

/-- The verdict of the current generation, if there is one. -/
def currentVerdict? (s : Signed) : Option Bool :=
  match s.verdict with
  | some (generation, valid) =>
    if generation = s.envelope.generation then some valid else none
  | none => none

def verify (s : Signed) : Result Bool × Signed :=
  match s.currentVerdict? with
  | some valid => (.ok valid, s)
  | none =>
    match s.judge with
    | .ok valid => (.ok valid, { s with verdict := some (s.envelope.generation, valid) })
    | .error e => (.error e, s)

def verification (s : Signed) : Verification :=
  match s.currentVerdict? with
  | some true => .valid
  | some false => .invalid
  | none => .unknown

def payloadBytes (s : Signed) : Result Bytes × Signed :=
  if s.config.skipVerification then (.ok s.payload, s)
  else
    match s.verify with
    | (.ok true, s) => (.ok s.payload, s)
    | (.ok false, s) => (.error (.integrity "JWS signature is invalid."), s)
    | (.error e, s) => (.error e, s)

def payloadText (s : Signed) : Result String × Signed :=
  match s.payloadBytes with
  | (.ok bytes, s) => (s.charset.decode bytes, s)
  | (.error e, s) => (.error e, s)

def encodedSignature (s : Signed) : String := Base64Url.encode s.signature

/-- Signs, and joins the header, the given payload segment and the signature. -/
def serializeWith (payload : Signed → String) (s : Signed) : Result String × Signed :=
  match s.sign with
  | .error e => (.error e, s)
  | .ok s =>
    (layout.serialize [s.envelope.headers.encoded, payload s, s.encodedSignature], s)

def compact : Signed → Result String × Signed := serializeWith encodedPayload

/-- The payload segment is left empty. -/
def detached : Signed → Result String × Signed := serializeWith fun _ => ""

end Signed
end Jose
