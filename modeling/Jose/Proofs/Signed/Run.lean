import Jose.Proofs.Signed.Basic

/-! The envelopes that operations lead to, in any order and whether or not they succeed,
each with the number of changes since a verdict was last recorded. -/
namespace Jose.Signed
open Text Result

/-- The operations that may leave another envelope than they were given. The parameters
with a setter of their own are set as any other parameter of the header. -/
inductive Op where
  | setPayload (text : String)
  | setPayloadBytes (payload : Bytes)
  | setEncodedPayload (segment : String)
  | setCharset (charset : Charset)
  | setKey (key : Option Key)
  | setConstraints (constraints : Constraints)
  | setValidatesKeys (on : Bool)
  | setKnownCritical (names : List String)
  | setHeader (name : String) (value : Json.Value)
  | sign
  | verify
  | payloadBytes
  | payloadText
  | compact
  | detached
  deriving Repr

/-- What an operation means for the verdict that is on record. -/
inductive Effect where
  | keeps
  | outdates
  | records
  deriving DecidableEq, Repr

/-- A change that fails is none. -/
def changeEffect : Result Signed → Effect
  | .ok _ => .outdates
  | .error _ => .keeps

/-- A verdict is recorded unless there is a current one, or none can be reached. -/
def verifyEffect (s : Signed) : Effect :=
  match s.currentVerdict?, s.judge with
  | none, .ok _ => .records
  | _, _ => .keeps

namespace Op

/-- The envelope that is left: after a failed change, the one that was there. -/
def run : Op → Signed → Signed
  | setPayload text, s => (s.setPayload text).toOption.getD s
  | setPayloadBytes payload, s => s.setPayloadBytes payload
  | setEncodedPayload segment, s => (s.setEncodedPayload segment).toOption.getD s
  | setCharset charset, s => s.setCharset charset
  | setKey key, s => s.setKey key
  | setConstraints constraints, s => s.setConstraints constraints
  | setValidatesKeys on, s => s.setValidatesKeys on
  | setKnownCritical names, s => s.setKnownCritical names
  | setHeader name value, s => s.setHeader name value
  | sign, s => s.sign.toOption.getD s
  | verify, s => s.verify.2
  | payloadBytes, s => s.payloadBytes.2
  | payloadText, s => s.payloadText.2
  | compact, s => s.compact.2
  | detached, s => s.detached.2

def effect : Op → Signed → Effect
  | setPayload text, s => changeEffect (s.setPayload text)
  | setEncodedPayload segment, s => changeEffect (s.setEncodedPayload segment)
  | setCharset _, _ => .keeps
  | setPayloadBytes _, _ | setKey _, _ | setConstraints _, _ | setValidatesKeys _, _
  | setKnownCritical _, _ | setHeader _ _, _ => .outdates
  | sign, s | compact, s | detached, s => changeEffect s.sign
  | verify, s => s.verifyEffect
  | payloadBytes, s | payloadText, s =>
    if s.config.skipVerification then .keeps else s.verifyEffect

end Op

/-- How many changes ago a verdict was last recorded, if ever. -/
def Effect.age : Effect → Option Nat → Option Nat
  | keeps, age => age
  | outdates, age => age.map (· + 1)
  | records, _ => some 0

inductive Reached : Option Nat → Signed → Prop where
  | new (config : Config) : Reached none (new config)
  | parse {config : Config} {token : String} {s : Signed} (h : parse config token = .ok s) :
    Reached none s
  | step {age : Option Nat} {s : Signed} (op : Op) (h : Reached age s) :
    Reached ((op.effect s).age age) (op.run s)

/-! ## What a step does -/

theorem getD_of_keeps {s : Signed} {r : Result Signed} (h : changeEffect r = .keeps) :
    r.toOption.getD s = s := by
  cases r with
  | ok s' => cases h
  | error e => rfl

theorem exists_ok_of_outdates {r : Result Signed} (h : changeEffect r = .outdates) :
    ∃ s', r = .ok s' := by
  cases r with
  | ok s' => exact ⟨s', rfl⟩
  | error e => cases h

theorem changeEffect_ne_records (r : Result Signed) : changeEffect r ≠ .records := by
  cases r <;> exact Effect.noConfusion

theorem verifyEffect_ne_outdates (s : Signed) : s.verifyEffect ≠ .outdates := by
  rw [verifyEffect]
  split <;> exact Effect.noConfusion

theorem verify_of_keeps {s : Signed} (h : s.verifyEffect = .keeps) : s.verify.2 = s := by
  cases hv : s.currentVerdict? with
  | some valid => rw [verify_of_current hv]
  | none =>
    cases hj : s.judge with
    | error e => rw [verify_of_error hv hj]
    | ok valid =>
      rw [verifyEffect, hv, hj] at h
      cases h

theorem verify_of_records {s : Signed} (h : s.verifyEffect = .records) :
    ∃ valid, s.judge = .ok valid ∧
      s.verify.2 = { s with verdict := some (s.envelope.generation, valid) } := by
  rw [verifyEffect] at h
  split at h
  · next valid hv hj => exact ⟨valid, hj, by rw [verify_of_judge hv hj]⟩
  · cases h

/-- Without an effect on the verdict, only the charset may be another. -/
theorem run_of_keeps {op : Op} {s : Signed} (h : op.effect s = .keeps) :
    op.run s = { s with charset := (op.run s).charset } := by
  have hread : (if s.config.skipVerification then .keeps else s.verifyEffect) = Effect.keeps →
      s.payloadBytes.2 = s := by
    intro h
    rw [payloadBytes_snd]
    split
    · rfl
    · next hskip => exact verify_of_keeps (by rwa [if_neg hskip] at h)
  cases op with
  | setPayload text => rw [Op.run, getD_of_keeps h]
  | setEncodedPayload segment => rw [Op.run, getD_of_keeps h]
  | setCharset charset => rfl
  | sign => rw [Op.run, getD_of_keeps h]
  | compact => rw [Op.run, compact_snd, getD_of_keeps h]
  | detached => rw [Op.run, detached_snd, getD_of_keeps h]
  | verify => rw [Op.run, verify_of_keeps h]
  | payloadBytes => rw [Op.run, hread h]
  | payloadText => rw [Op.run, payloadText_snd, hread h]
  | setPayloadBytes | setKey | setConstraints | setValidatesKeys | setKnownCritical
  | setHeader =>
    cases h

/-- A change moves to the next generation and leaves the record alone. -/
theorem run_of_outdates {op : Op} {s : Signed} (h : op.effect s = .outdates) :
    (op.run s).verdict = s.verdict ∧
      (op.run s).envelope.generation = s.envelope.generation + 1 := by
  have hsign : changeEffect s.sign = .outdates →
    (s.sign.toOption.getD s).verdict = s.verdict ∧
      (s.sign.toOption.getD s).envelope.generation = s.envelope.generation + 1 := by
    intro h
    obtain ⟨s', hs'⟩ := exists_ok_of_outdates h
    obtain ⟨_, signature, _, _, _, rfl⟩ := sign_eq_ok_iff.mp hs'
    rw [hs']
    exact ⟨rfl, rfl⟩
  cases op with
  | setPayload text =>
    obtain ⟨s', hs'⟩ := exists_ok_of_outdates h
    obtain ⟨payload, -, rfl⟩ := setPayload_eq_ok_iff.mp hs'
    rw [Op.run, hs']
    exact ⟨rfl, rfl⟩
  | setEncodedPayload segment =>
    obtain ⟨s', hs'⟩ := exists_ok_of_outdates h
    obtain ⟨payload, -, rfl⟩ := setEncodedPayload_eq_ok_iff.mp hs'
    rw [Op.run, hs']
    exact ⟨rfl, rfl⟩
  | sign => exact hsign h
  | compact =>
    rw [Op.run, compact_snd]
    exact hsign h
  | detached =>
    rw [Op.run, detached_snd]
    exact hsign h
  | verify => exact absurd h (verifyEffect_ne_outdates s)
  | payloadBytes | payloadText =>
    rw [Op.effect] at h
    split at h
    · cases h
    · exact absurd h (verifyEffect_ne_outdates s)
  | setCharset => cases h
  | setPayloadBytes | setKey | setConstraints | setValidatesKeys | setKnownCritical
  | setHeader =>
    exact ⟨rfl, rfl⟩

/-- Only the record is written, and it holds the verdict on the envelope that was there. -/
theorem run_of_records {op : Op} {s : Signed} (h : op.effect s = .records) :
    ∃ valid, s.judge = .ok valid ∧
      op.run s = { s with verdict := some (s.envelope.generation, valid) } := by
  have hread : (if s.config.skipVerification then .keeps else s.verifyEffect) =
    Effect.records →
      s.verifyEffect = .records ∧ s.payloadBytes.2 = s.verify.2 := by
    intro h
    split at h
    · cases h
    · next hskip => exact ⟨h, by rw [payloadBytes_snd, if_neg hskip]⟩
  cases op with
  | verify => exact verify_of_records h
  | payloadBytes =>
    obtain ⟨heffect, hleft⟩ := hread h
    rw [Op.run, hleft]
    exact verify_of_records heffect
  | payloadText =>
    obtain ⟨heffect, hleft⟩ := hread h
    rw [Op.run, payloadText_snd, hleft]
    exact verify_of_records heffect
  | setPayload text => exact absurd h (changeEffect_ne_records _)
  | setEncodedPayload segment => exact absurd h (changeEffect_ne_records _)
  | sign | compact | detached => exact absurd h (changeEffect_ne_records _)
  | setCharset | setPayloadBytes | setKey | setConstraints | setValidatesKeys
  | setKnownCritical
  | setHeader =>
    cases h

end Jose.Signed
