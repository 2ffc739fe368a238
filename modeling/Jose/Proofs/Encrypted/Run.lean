import Jose.Proofs.Encrypted
import Jose.Proofs.Headers.Wire

/-! The encrypted envelopes that operations lead to, in any order and whether or not they
succeed. -/
namespace Jose.Encrypted
open Text Result

/-- The operations that may leave another envelope than they were given. The parameters
with a setter of their own are set as any other parameter of the header. -/
inductive Op where
  | setPlaintext (text : String)
  | setPlaintextBytes (plaintext : Bytes)
  | setCharset (charset : Charset)
  | setKey (key : Option Key)
  | setConstraints (constraints : Constraints)
  | setContentConstraints (constraints : Constraints)
  | setValidatesKeys (on : Bool)
  | setKnownCritical (names : List String)
  | setHeader (name : String) (value : Json.Value)
  | setIv (iv : Bytes)
  | plaintextBytes
  | plaintextText
  | compact (fresh : Bytes)
  deriving Repr

namespace Op

/-- The envelope that is left: after a text that the charset does not have, the one that
was there. -/
def run : Op → Encrypted → Encrypted
  | setPlaintext text, e => (e.setPlaintext text).toOption.getD e
  | setPlaintextBytes plaintext, e => e.setPlaintextBytes plaintext
  | setCharset charset, e => e.setCharset charset
  | setKey key, e => e.setKey key
  | setConstraints constraints, e => e.setConstraints constraints
  | setContentConstraints constraints, e => e.setContentConstraints constraints
  | setValidatesKeys on, e => e.setValidatesKeys on
  | setKnownCritical names, e => e.setKnownCritical names
  | setHeader name value, e => e.setHeader name value
  | setIv iv, e => e.setIv iv
  | plaintextBytes, e => e.plaintextBytes.2
  | plaintextText, e => e.plaintextText.2
  | compact fresh, e => (e.compact fresh).2

/-- What is set in the header is a value of JSON. -/
def WellFormed : Op → Prop
  | setHeader _ value => value.WellFormed
  | _ => True

end Op

inductive Reached : Encrypted → Prop where
  | new : Reached new
  | parse {token : String} {e : Encrypted} (h : parse token = .ok e) : Reached e
  | step {e : Encrypted} (op : Op) (hop : op.WellFormed) (h : Reached e) : Reached (op.run e)

theorem envelope_plaintextBytes (e : Encrypted) :
    e.plaintextBytes.2.envelope = e.envelope := by
  rw [plaintextBytes]
  split
  · rfl
  · split <;> rfl

theorem plaintextText_snd (e : Encrypted) : e.plaintextText.2 = e.plaintextBytes.2 := by
  rw [plaintextText]
  rcases e.plaintextBytes with ⟨error | bytes, left⟩ <;> rfl

/-- To encrypt spends the vector and keeps the content, nothing else. -/
theorem envelope_compact (fresh : Bytes) (e : Encrypted) :
    (e.compact fresh).2.envelope = e.envelope := by
  rw [compact]
  split
  · rfl
  · dsimp only
    split <;> rfl

theorem headers_run (op : Op) (e : Encrypted) :
    (op.run e).envelope.headers = e.envelope.headers ∨
      ∃ name value, op = .setHeader name value := by
  cases op with
  | setHeader name value => exact .inr ⟨name, value, rfl⟩
  | setPlaintext text =>
    refine .inl ?_
    rw [Op.run, setPlaintext]
    cases e.charset.encode text <;> rfl
  | plaintextBytes => exact .inl (congrArg Envelope.headers (envelope_plaintextBytes e))
  | plaintextText =>
    rw [Op.run, plaintextText_snd]
    exact .inl (congrArg Envelope.headers (envelope_plaintextBytes e))
  | compact fresh => exact .inl (congrArg Envelope.headers (envelope_compact fresh e))
  | setPlaintextBytes | setCharset | setKey | setConstraints | setContentConstraints
  | setValidatesKeys
  | setKnownCritical | setIv => exact .inl rfl

theorem faithful_of_reached {e : Encrypted} (h : Reached e) :
    e.envelope.headers.Faithful := by
  induction h with
  | new => exact Headers.faithful_empty
  | parse h =>
    obtain ⟨_, _, _, _, _, _, _, _, _, _, hheader, _, _, _, _, rfl⟩ := parse_eq_ok_iff.mp h
    exact Headers.faithful_of_parse hheader
  | @step e op hop _ ih =>
    rcases headers_run op e with hkept | ⟨name, value, rfl⟩
    · rw [hkept]
      exact ih
    · exact ih.set name hop

/-! ## Terms of a receiver -/

/-- The setters of a receiver's key and of its policy. -/
inductive Op.SetsTerms : Op → Prop where
  | setKey (key : Option Key) : SetsTerms (.setKey key)
  | setConstraints (constraints : Constraints) : SetsTerms (.setConstraints constraints)
  | setContentConstraints (constraints : Constraints) : SetsTerms
      (.setContentConstraints constraints)
  | setValidatesKeys (on : Bool) : SetsTerms (.setValidatesKeys on)
  | setKnownCritical (names : List String) : SetsTerms (.setKnownCritical names)

/-- The envelopes that a given one becomes by setting the terms, in any order and any
number of times. -/
inductive OnTerms (p : Encrypted) : Encrypted → Prop where
  | refl : OnTerms p p
  | set {op : Op} {e : Encrypted} (hop : op.SetsTerms) (h : OnTerms p e) :
      OnTerms p (op.run e)

/-- Nothing is changed but the terms. -/
structure Keeps (p e : Encrypted) : Prop where
  headers : e.envelope.headers = p.envelope.headers
  plaintext : e.plaintext = p.plaintext
  encryptedKey : e.encryptedKey = p.encryptedKey
  content : e.content = p.content
  chosenIv : e.chosenIv = p.chosenIv

theorem Keeps.set {p e : Encrypted} (h : Keeps p e) {op : Op} (hop : op.SetsTerms) :
    Keeps p (op.run e) := by
  cases hop with
  | setKey | setConstraints | setContentConstraints | setValidatesKeys | setKnownCritical =>
    exact ⟨h.headers, h.plaintext, h.encryptedKey, h.content, h.chosenIv⟩

theorem OnTerms.keeps {p e : Encrypted} (h : OnTerms p e) : Keeps p e := by
  induction h with
  | refl => exact ⟨rfl, rfl, rfl, rfl, rfl⟩
  | set hop _ ih => exact ih.set hop

/-- All of them at once, with constraints for the encryption of the content besides. -/
def under (t : Terms) (encryption : Constraints) (e : Encrypted) : Encrypted :=
  ((((e.setKey t.key).setConstraints t.constraints).setValidatesKeys
    t.validatesKeys).setKnownCritical t.knownCritical).setContentConstraints encryption

theorem onTerms_under (t : Terms) (encryption : Constraints) (e : Encrypted) :
    OnTerms e (e.under t encryption) :=
  .set (.setContentConstraints encryption) (.set (.setKnownCritical t.knownCritical)
    (.set (.setValidatesKeys t.validatesKeys)
      (.set (.setConstraints t.constraints) (.set (.setKey t.key) .refl))))

structure SameTerms (e e' : Encrypted) : Prop where
  key : e'.envelope.key = e.envelope.key
  constraints : e'.envelope.constraints = e.envelope.constraints
  validatesKeys : e'.envelope.validatesKeys = e.envelope.validatesKeys
  knownCritical : e'.envelope.knownCritical = e.envelope.knownCritical
  contentConstraints : e'.contentConstraints = e.contentConstraints

theorem sameTerms_under (t : Terms) (encryption : Constraints) (e e' : Encrypted) :
    SameTerms (e.under t encryption) (e'.under t encryption) := ⟨rfl, rfl, rfl, rfl, rfl⟩

end Jose.Encrypted
