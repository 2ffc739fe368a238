import Jose.Proofs.Signed.Canonical

/-! The operations as they change an envelope in place, one field after another. What they
have written when a step fails stays written; so it matters that every step that can fail
comes before the first one that writes, or cannot fail any more. Each operation is shown
to leave what its function on values leaves: after a failure the same envelope, but for a
verdict that a read has recorded. -/
namespace Jose.Signed
open Text Result Functor

/-- A computation on an envelope that is changed in place. -/
abbrev InPlace (α : Type) := ExceptT Error (StateM Signed) α

namespace InPlace
variable {α β : Type}

/-- The result, and the envelope that is left with it. -/
def outcome (x : InPlace α) (s : Signed) : Result α × Signed := x.run.run s

/-- A step that only looks at the envelope. -/
def attempt (f : Signed → Result α) : InPlace α := do
  MonadExcept.ofExcept (f (← get))

def setPayloadBytes (payload : Bytes) : InPlace Unit := do
  modify ({ · with payload })
  modify ({ · with wirePayload := none })
  modify (mapEnvelope .touch)

def setPayload (text : String) : InPlace Unit := do
  setPayloadBytes (← attempt (·.charset.encode text))

def setEncodedPayload (segment : String) : InPlace Unit := do
  let payload ← attempt fun _ => Base64Url.decode segment
  modify ({ · with payload })
  modify ({ · with wirePayload := some segment })
  modify (mapEnvelope .touch)

def sign : InPlace Unit := do
  let algorithm ← attempt (·.algorithm)
  attempt (·.envelope.validateKey algorithm.validateSigningKey)
  let signature ← attempt fun s => algorithm.sign s.envelope.key s.signingInput
  modify ({ · with signature })
  modify (mapEnvelope .touch)

def verify : InPlace Bool := do
  let s ← get
  match s.currentVerdict? with
  | some valid => return valid
  | none =>
    let valid ← attempt judge
    modify ({ · with verdict := some (s.envelope.generation, valid) })
    return valid

def ensureVerified : InPlace Unit := do
  unless (← get).config.skipVerification do
    unless ← verify do
      throw (.integrity "JWS signature is invalid.")

def payloadBytes : InPlace Bytes := do
  ensureVerified
  return (← get).payload

def payloadText : InPlace String := do
  ensureVerified
  attempt fun s => s.charset.decode s.payload

def serializeWith (payload : Signed → String) : InPlace String := do
  sign
  attempt fun s =>
    layout.serialize [s.envelope.headers.encoded, payload s, s.encodedSignature]

/-! ## What is left -/

theorem outcome_bind (x : InPlace α) (f : α → InPlace β) (s : Signed) :
    outcome (x >>= f) s = match outcome x s with
      | (.ok a, s') => outcome (f a) s'
      | (.error e, s') => (.error e, s') := by
  show ExceptT.bindCont f (outcome x s).1 (outcome x s).2 = _
  rcases outcome x s with ⟨e | a, s'⟩
  · rfl
  · rfl

theorem outcome_discard (x : InPlace α) (s : Signed) :
    outcome (discard x) s = (discard (outcome x s).1, (outcome x s).2) := by
  show outcome (x >>= fun _ => pure ()) s = _
  rw [outcome_bind]
  rcases outcome x s with ⟨e | a, s'⟩
  · rfl
  · rfl

theorem outcome_attempt (f : Signed → Result α) (s : Signed) :
    outcome (attempt f) s = (f s, s) := by
  show outcome (MonadExcept.ofExcept (f s)) s = _
  cases f s with
  | error e => rfl
  | ok a => rfl

/-- A change on values as a change in place: when it fails, the envelope is the one that
was there. -/
def changed (r : Result Signed) (s : Signed) : Result Unit × Signed :=
  (discard r, r.toOption.getD s)

theorem changed_eq_error_iff {r : Result Signed} {s s' : Signed} {e : Error} :
    changed r s = (.error e, s') ↔ r = .error e ∧ s' = s := by
  cases r with
  | error e' =>
    constructor
    · rintro ⟨⟩
      exact ⟨rfl, rfl⟩
    · rintro ⟨⟨⟩, rfl⟩
      rfl
  | ok s' =>
    constructor
    · intro h
      cases h
    · rintro ⟨⟨⟩, -⟩

/-- A step that can fail may come before a change, since it has written nothing yet. -/
theorem outcome_attempt_bind {f : Signed → Result α} {next : α → InPlace Unit}
    {r : α → Result Signed} {s : Signed}
    (h : ∀ a, outcome (next a) s = changed (r a) s) :
    outcome (attempt f >>= next) s = changed (f s >>= r) s := by
  rw [outcome_bind, outcome_attempt]
  cases f s with
  | error e => rfl
  | ok a => exact h a

theorem outcome_setPayload (text : String) (s : Signed) :
    outcome (setPayload text) s = changed (s.setPayload text) s := by
  apply outcome_attempt_bind
  intro payload
  rfl

theorem outcome_setEncodedPayload (segment : String) (s : Signed) :
    outcome (setEncodedPayload segment) s = changed (s.setEncodedPayload segment) s := by
  apply outcome_attempt_bind
  intro payload
  rfl

theorem outcome_sign (s : Signed) : outcome sign s = changed s.sign s := by
  apply outcome_attempt_bind
  intro algorithm
  apply outcome_attempt_bind
  intro _
  apply outcome_attempt_bind
  intro signature
  rfl

theorem outcome_verify (s : Signed) : outcome verify s = s.verify := by
  show outcome (match s.currentVerdict? with | some valid => _ | none => _) s = _
  cases hv : s.currentVerdict? with
  | some valid =>
    rw [verify_of_current hv]
    rfl
  | none =>
    show outcome (attempt judge >>= _) s = _
    rw [outcome_bind, outcome_attempt]
    cases hj : s.judge with
    | error e =>
      rw [verify_of_error hv hj]
    | ok valid =>
      rw [verify_of_judge hv hj]
      rfl

/-- The payload that is released is that of the envelope as it is left. -/
theorem eq_payload_of_payloadBytes {s s' : Signed} {bytes : Bytes}
    (h : s.payloadBytes = (.ok bytes, s')) : bytes = s'.payload := by
  rw [Signed.payloadBytes] at h
  split at h
  · cases h
    rfl
  · split at h
    · cases h
      rfl
    · cases h
    · cases h

theorem outcome_ensureVerified (s : Signed) :
    outcome ensureVerified s = (discard s.payloadBytes.1, s.payloadBytes.2) := by
  show outcome
    (if s.config.skipVerification then pure () else verify >>= fun valid => _) s = _
  rw [Signed.payloadBytes]
  cases hskip : s.config.skipVerification with
  | true => rfl
  | false =>
    rw [if_neg Bool.false_ne_true, if_neg Bool.false_ne_true, outcome_bind, outcome_verify]
    rcases s.verify with ⟨e | valid, s'⟩
    · rfl
    · cases valid with
      | true => rfl
      | false => rfl

theorem outcome_payloadBytes (s : Signed) : outcome payloadBytes s = s.payloadBytes := by
  rw [payloadBytes, outcome_bind, outcome_ensureVerified]
  rcases h : s.payloadBytes with ⟨e | bytes, s'⟩
  · rfl
  · rw [eq_payload_of_payloadBytes h]
    rfl

theorem outcome_payloadText (s : Signed) : outcome payloadText s = s.payloadText := by
  rw [payloadText, outcome_bind, outcome_ensureVerified, Signed.payloadText]
  rcases h : s.payloadBytes with ⟨e | bytes, s'⟩
  · rfl
  · rw [eq_payload_of_payloadBytes h]
    exact outcome_attempt _ s'

theorem outcome_serializeWith (payload : Signed → String) (s : Signed) :
    outcome (serializeWith payload) s = s.serializeWith payload := by
  rw [serializeWith, outcome_bind, outcome_sign, Signed.serializeWith]
  cases s.sign with
  | error e => rfl
  | ok s' => exact outcome_attempt _ s'

end InPlace

open InPlace

/-- An operation as it is carried out in place, with its answer left out. -/
def Op.perform : Op → InPlace Unit
  | setPayload text => InPlace.setPayload text
  | setPayloadBytes payload => InPlace.setPayloadBytes payload
  | setEncodedPayload segment => InPlace.setEncodedPayload segment
  | setCharset charset => modify (Signed.setCharset charset)
  | setKey key => modify (Signed.setKey key)
  | setConstraints constraints => modify (Signed.setConstraints constraints)
  | setValidatesKeys on => modify (Signed.setValidatesKeys on)
  | setKnownCritical names => modify (Signed.setKnownCritical names)
  | setHeader name value => modify (Signed.setHeader name value)
  | sign => InPlace.sign
  | verify => discard InPlace.verify
  | payloadBytes => discard InPlace.payloadBytes
  | payloadText => discard InPlace.payloadText
  | compact => discard (InPlace.serializeWith encodedPayload)
  | detached => discard (InPlace.serializeWith fun _ => "")

/-- What comes of an operation on values, with its answer left out. -/
def Op.result : Op → Signed → Result Unit
  | setPayload text, s => discard (s.setPayload text)
  | setEncodedPayload segment, s => discard (s.setEncodedPayload segment)
  | sign, s => discard s.sign
  | verify, s => discard s.verify.1
  | payloadBytes, s => discard s.payloadBytes.1
  | payloadText, s => discard s.payloadText.1
  | compact, s => discard s.compact.1
  | detached, s => discard s.detached.1
  | setPayloadBytes _, _ | setCharset _, _ | setKey _, _ | setConstraints _, _
  | setValidatesKeys _, _
  | setKnownCritical _, _ | setHeader _ _, _ => .ok ()

/-- Carried out in place, an operation fails as it does on values and leaves what it is
said to leave. -/
theorem outcome_perform (op : Op) (s : Signed) :
    outcome op.perform s = (op.result s, op.run s) := by
  cases op with
  | setPayload text => exact outcome_setPayload text s
  | setEncodedPayload segment => exact outcome_setEncodedPayload segment s
  | sign => exact outcome_sign s
  | verify =>
    rw [Op.perform, outcome_discard, outcome_verify]
    rfl
  | payloadBytes =>
    rw [Op.perform, outcome_discard, outcome_payloadBytes]
    rfl
  | payloadText =>
    rw [Op.perform, outcome_discard, outcome_payloadText]
    rfl
  | compact | detached =>
    rw [Op.perform, outcome_discard, outcome_serializeWith]
    rfl
  | setPayloadBytes | setCharset | setKey | setConstraints | setValidatesKeys
  | setKnownCritical | setHeader => rfl

/-! ## Failures -/

theorem getD_of_error {r : Result Signed} {s : Signed} {e : Error}
    (h : discard r = .error e) : r.toOption.getD s = s := by
  rw [discard_eq_error_iff.mp h]
  rfl

theorem verify_snd_of_error {s : Signed} {e : Error} (h : s.verify.1 = .error e) :
    s.verify.2 = s := by
  cases hv : s.currentVerdict? with
  | some valid => rw [verify_of_current hv]
  | none =>
    rw [verify_fst_of_none hv] at h
    rw [verify_of_error hv h]

/-- The record is only written where there is no verdict yet on the envelope as it is. -/
def Records (s s' : Signed) : Prop :=
  s.verification = .unknown ∧
    ∃ valid, s.recomputed = .ok valid ∧
      s' = { s with verdict := some (s.envelope.generation, valid) }

theorem verify_snd_cases (s : Signed) : s.verify.2 = s ∨ Records s s.verify.2 := by
  cases hv : s.currentVerdict? with
  | some valid =>
    rw [verify_of_current hv]
    exact .inl rfl
  | none =>
    cases hj : s.judge with
    | error e =>
      rw [verify_of_error hv hj]
      exact .inl rfl
    | ok valid =>
      rw [verify_of_judge hv hj]
      exact .inr ⟨by rw [verification, hv], valid, (recomputed_eq_judge s).trans hj, rfl⟩

theorem payloadBytes_snd_cases (s : Signed) :
    s.payloadBytes.2 = s ∨ Records s s.payloadBytes.2 := by
  rw [payloadBytes_snd]
  split
  · exact .inl rfl
  · exact verify_snd_cases s

/-- No envelope has an empty header segment, so the layout never refuses what was
signed. -/
theorem isEmpty_encoded_of_reached {age : Option Nat} {s : Signed} (h : Reached age s) :
    s.envelope.headers.encoded.isEmpty = false := by
  induction h with
  | new config => exact Headers.isEmpty_encoded_of_wire_none rfl
  | parse h => exact Headers.isEmpty_of_parse (headers_of_parse h)
  | @step _ s op _ ih =>
    rcases frame_run op s with hframe | ⟨constraints, rfl⟩ | ⟨name, value, rfl⟩
    · rw [hframe.headers]
      exact ih
    · exact ih
    · exact Headers.isEmpty_encoded_of_wire_none rfl

theorem sign_of_serializeWith_error {payload : Signed → String} {s : Signed} {e : Error}
    (hheader : s.envelope.headers.encoded.isEmpty = false)
    (h : (s.serializeWith payload).1 = .error e) : s.sign = .error e := by
  cases hsign : s.sign with
  | error e' =>
    rw [Signed.serializeWith, hsign] at h
    cases h
    rfl
  | ok s' =>
    have hkept : s'.envelope.headers = s.envelope.headers := by
      have hframe := frame_sign s
      rw [hsign] at hframe
      exact hframe.headers
    rw [← hkept] at hheader
    rw [serializeWith_eq_ok_iff.mpr ⟨s', hsign, hheader, rfl⟩] at h
    cases h

inductive Op.Reads : Op → Prop where
  | payloadBytes : Reads .payloadBytes
  | payloadText : Reads .payloadText

inductive Op.Serializes : Op → Prop where
  | compact : Serializes .compact
  | detached : Serializes .detached

theorem Op.Serializes.sign_of_error {age : Option Nat} {op : Op} {s : Signed} {e : Error}
    (hop : op.Serializes)
    (h : Reached age s) (hfail : op.result s = .error e) : s.sign = .error e := by
  have hheader := isEmpty_encoded_of_reached h
  cases hop with
  | compact => exact sign_of_serializeWith_error hheader (discard_eq_error_iff.mp hfail)
  | detached => exact sign_of_serializeWith_error hheader (discard_eq_error_iff.mp hfail)

theorem run_of_error {age : Option Nat} {op : Op} {s : Signed} {e : Error} (h : Reached age s)
    (hfail : op.result s = .error e) : op.run s = s ∨ op.Reads ∧ Records s (op.run s) := by
  cases op with
  | setPayload text => exact .inl (getD_of_error hfail)
  | setEncodedPayload segment => exact .inl (getD_of_error hfail)
  | sign => exact .inl (getD_of_error hfail)
  | compact =>
    rw [Op.run, compact_snd, Op.Serializes.compact.sign_of_error h hfail]
    exact .inl rfl
  | detached =>
    rw [Op.run, detached_snd, Op.Serializes.detached.sign_of_error h hfail]
    exact .inl rfl
  | verify => exact .inl (verify_snd_of_error (discard_eq_error_iff.mp hfail))
  | payloadBytes => exact (payloadBytes_snd_cases s).imp_right fun hrecords =>
    ⟨.payloadBytes, hrecords⟩
  | payloadText =>
    rw [Op.run, payloadText_snd]
    exact (payloadBytes_snd_cases s).imp_right fun hrecords => ⟨.payloadText, hrecords⟩
  | setPayloadBytes | setCharset | setKey | setConstraints | setValidatesKeys
  | setKnownCritical | setHeader =>
    cases hfail

/-- What only looks at an envelope and can fail. -/
inductive Query where
  | algorithm
  | uncheckedAlgorithm
  | keyType
  | persuasion
  | unverifiedPayload
  deriving Repr

def Query.result : Query → Signed → Result Unit
  | algorithm, s => discard s.algorithm
  | uncheckedAlgorithm, s => discard s.uncheckedAlgorithm
  | keyType, s => discard (SignatureAlgorithm.keyType <$> s.uncheckedAlgorithm)
  | persuasion, s => discard (SignatureAlgorithm.persuasion <$> s.uncheckedAlgorithm)
  | unverifiedPayload, s => discard s.unverifiedPayload

inductive Call where
  | operation (op : Op)
  | inspection (query : Query)
  deriving Repr

namespace Call

def perform : Call → InPlace Unit
  | operation op => op.perform
  | inspection query => attempt query.result

def Reads : Call → Prop
  | operation op => op.Reads
  | inspection _ => False

def Serializes : Call → Prop
  | operation op => op.Serializes
  | inspection _ => False

end Call

/-- A call that fails leaves the whole envelope as it was, the signature and what is known
of it included; only a read may have recorded the verdict on the envelope as it is, where
there was none. A serialization fails only when signing does, which then has changed
nothing, and never after the signature has been replaced. -/
theorem failed_call_changes_nothing {age : Option Nat} {call : Call} {s s' : Signed}
    {e : Error} (h : Reached age s) (hfail : outcome call.perform s = (.error e, s')) :
    (s' = s ∨ call.Reads ∧ Records s s') ∧
      (call.Serializes → outcome InPlace.sign s = (.error e, s)) := by
  cases call with
  | operation op =>
    rw [Call.perform, outcome_perform] at hfail
    obtain ⟨hresult, rfl⟩ := Prod.mk.inj hfail
    refine ⟨run_of_error h hresult, fun hserializes => ?_⟩
    rw [outcome_sign]
    exact changed_eq_error_iff.mpr ⟨hserializes.sign_of_error h hresult, rfl⟩
  | inspection query =>
    rw [Call.perform, outcome_attempt] at hfail
    obtain ⟨-, rfl⟩ := Prod.mk.inj hfail
    exact ⟨.inl rfl, False.elim⟩

/-- An unsecured token whose signature is not empty, where unsecured tokens are allowed:
the read fails, and that the signature is invalid is known from then on. -/
theorem failed_call_changes_nothing_unsecured :
    ∃ p s', parse ⟨true, false⟩ "eyJhbGciOiJub25lIn0.aGk.AA" = .ok p ∧
      outcome (Call.operation .payloadBytes).perform p =
        (.error (.integrity "JWS signature is invalid."), s') ∧
      p.verification = .unknown ∧ s'.verification = .invalid ∧ (s' = p ∨ Records p s') := by
  have hrun : (fun p => (p.payloadBytes.1, p.verification, p.payloadBytes.2.verification)) <$>
      parse ⟨true, false⟩ "eyJhbGciOiJub25lIn0.aGk.AA" =
        .ok (.error (.integrity "JWS signature is invalid."), .unknown, .invalid) := by
          decide +kernel
  obtain ⟨p, hparse, hp⟩ := map_eq_ok_iff.mp hrun
  obtain ⟨hread, hknown⟩ := Prod.mk.inj hp
  obtain ⟨hunknown, hinvalid⟩ := Prod.mk.inj hknown
  have hfail : outcome (Call.operation .payloadBytes).perform p =
      (.error (.integrity "JWS signature is invalid."), p.payloadBytes.2) := by
    rw [Call.perform, outcome_perform, Op.result, hread]
    rfl
  obtain ⟨hleft, -⟩ := failed_call_changes_nothing (.parse hparse) hfail
  exact ⟨p, _, hparse, hfail, hunknown, hinvalid, hleft.imp_right And.right⟩

end Jose.Signed
