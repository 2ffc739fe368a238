import Jose.Proofs.Algorithm.Basic
import Jose.Proofs.Compact.Layout
import Jose.Proofs.Envelope
import Jose.Signed

/-! What each operation on a signed envelope asks for and what it leaves. -/
namespace Jose.Signed
open Text Result

/-- The envelope as it comes from the wire, before anything else is set. -/
def ofParts (config : Config) (headers : Headers) (payload : Bytes) (segment : String)
    (signature : Bytes) : Signed :=
  { new config with
    envelope := { Envelope.empty (defaultConstraints config) with headers, generation := 2 }
    payload, wirePayload := some segment, signature }

theorem layout_lastMayBeEmpty (header payload signature : String) :
    layout.lastMayBeEmpty 0 [header, payload, signature] = !header.isEmpty := by
  simp [Compact.lastMayBeEmpty, Compact.allows, layout, Compact.allowingEmpty]

theorem deserialize_eq_ok_iff {token header payload signature : String} :
    layout.deserialize token = .ok [header, payload, signature] ↔
      Compact.split token = [header, payload, signature] ∧ header.isEmpty = false := by
  rw [Compact.deserialize_eq_ok_iff (by simp), layout_lastMayBeEmpty, Bool.not_eq_true']

theorem setEncodedPayload_eq_ok_iff {segment : String} {s s' : Signed} :
    s.setEncodedPayload segment = .ok s' ↔ ∃ payload, Base64Url.decode segment = .ok payload ∧
      s' = { s with payload, wirePayload := some segment, envelope := s.envelope.touch } := by
  unfold setEncodedPayload
  simp only [bind_eq_ok_iff, pure_eq_ok_iff, eq_comm (a := s')]

theorem setPayload_eq_ok_iff {text : String} {s s' : Signed} :
    s.setPayload text = .ok s' ↔
      ∃ payload, s.charset.encode text = .ok payload ∧ s' = s.setPayloadBytes payload := by
  unfold setPayload
  simp only [bind_eq_ok_iff, pure_eq_ok_iff, eq_comm (a := s')]

theorem parse_eq_ok_iff {config : Config} {token : String} {s : Signed} :
    parse config token = .ok s ↔ ∃ header segment tail headers payload signature,
      Compact.split token = [header, segment, tail] ∧ header.isEmpty = false ∧
        Headers.parse header = .ok headers ∧ Base64Url.decode segment = .ok payload ∧
        Base64Url.decode tail = .ok signature ∧
        s = ofParts config headers payload segment signature := by
  unfold parse
  simp only [bind_eq_ok_iff]
  constructor
  · rintro ⟨parts, hparts, h⟩
    split at h
    · next header segment tail =>
      obtain ⟨hsplit, hheader⟩ := deserialize_eq_ok_iff.mp hparts
      obtain ⟨headers, hheaders, h⟩ := bind_eq_ok_iff.mp h
      obtain ⟨filled, hfilled, h⟩ := bind_eq_ok_iff.mp h
      obtain ⟨signature, hsignature, h⟩ := bind_eq_ok_iff.mp h
      obtain ⟨payload, hpayload, rfl⟩ := setEncodedPayload_eq_ok_iff.mp hfilled
      cases h
      exact ⟨header, segment, tail, headers, payload, signature, hsplit, hheader, hheaders,
        hpayload, hsignature, rfl⟩
    · cases h
  · rintro ⟨header, segment, tail, headers, payload, signature, hsplit, hheader, hheaders,
      hpayload, hsignature, rfl⟩
    refine ⟨_, deserialize_eq_ok_iff.mpr ⟨hsplit, hheader⟩, ?_⟩
    refine bind_eq_ok_iff.mpr ⟨headers, hheaders, ?_⟩
    refine bind_eq_ok_iff.mpr ⟨_,
      setEncodedPayload_eq_ok_iff.mpr ⟨payload, hpayload, rfl⟩, ?_⟩
    exact bind_eq_ok_iff.mpr ⟨signature, hsignature, rfl⟩

theorem sign_eq_ok_iff {s s' : Signed} :
    s.sign = .ok s' ↔ ∃ algorithm signature, s.algorithm = .ok algorithm ∧
      s.envelope.validateKey algorithm.validateSigningKey = .ok () ∧
      algorithm.sign s.envelope.key s.signingInput = .ok signature ∧
      s' = { s with signature, envelope := s.envelope.touch } := by
  unfold sign
  simp only [bind_eq_ok_iff, pure_eq_ok_iff]
  constructor
  · rintro ⟨algorithm, halgorithm, ⟨⟩, hkey, signature, hsignature, rfl⟩
    exact ⟨algorithm, signature, halgorithm, hkey, hsignature, rfl⟩
  · rintro ⟨algorithm, signature, halgorithm, hkey, hsignature, rfl⟩
    exact ⟨algorithm, halgorithm, (), hkey, signature, hsignature, rfl⟩

theorem algorithm_eq_ok_iff {s : Signed} {a : SignatureAlgorithm} :
    s.algorithm = .ok a ↔ s.envelope.headers.string? "alg" = some a.id ∧
      s.envelope.constraints.allows a.id = true := by
  unfold algorithm
  simp only [bind_eq_ok_iff, Envelope.algorithmId_eq_ok_iff, Constraints.check_eq_ok_iff,
    SignatureAlgorithm.find_eq_ok_iff]
  constructor
  · rintro ⟨id, hid, ⟨⟩, hallowed, rfl⟩
    exact ⟨hid, hallowed⟩
  · rintro ⟨hid, hallowed⟩
    exact ⟨a.id, hid, (), hallowed, rfl⟩

theorem judge_eq_ok_iff {s : Signed} {valid : Bool} :
    s.judge = .ok valid ↔ ∃ a, s.algorithm = .ok a ∧
      (s.envelope.validatesKeys = true → a.validateVerificationKey s.envelope.key = .ok ()) ∧
      s.envelope.headers.CriticalKnown s.envelope.knownCritical ∧
      a.verify s.envelope.key s.signature s.signingInput = .ok valid := by
  unfold judge
  simp only [bind_eq_ok_iff, Envelope.checkCritical_eq_ok_iff]
  constructor
  · rintro ⟨a, ha, ⟨⟩, hkey, ⟨⟩, hcritical, hvalid⟩
    exact ⟨a, ha, Envelope.validateKey_eq_ok_iff.mp hkey, hcritical, hvalid⟩
  · rintro ⟨a, ha, hkey, hcritical, hvalid⟩
    exact ⟨a, ha, (), Envelope.validateKey_eq_ok_iff.mpr hkey, (), hcritical, hvalid⟩

/-! ## Verdicts -/

theorem currentVerdict?_eq_some_iff {s : Signed} {valid : Bool} :
    s.currentVerdict? = some valid ↔ s.verdict = some (s.envelope.generation, valid) := by
  rw [currentVerdict?]
  split
  · next generation kept h =>
    rw [h]
    split
    · next heq => simp [heq]
    · next hne => simp [hne]
  · next h => simp [h]

/-- A recorded verdict is repeated as it stands. -/
theorem verify_of_current {s : Signed} {valid : Bool} (h : s.currentVerdict? = some valid) :
    s.verify = (.ok valid, s) := by
  rw [verify, h]

theorem verify_of_judge {s : Signed} {valid : Bool} (hnone : s.currentVerdict? = none)
    (h : s.judge = .ok valid) :
    s.verify = (.ok valid, { s with verdict := some (s.envelope.generation, valid) }) := by
  rw [verify, hnone, h]

theorem verify_of_error {s : Signed} {e : Error} (hnone : s.currentVerdict? = none)
    (h : s.judge = .error e) : s.verify = (.error e, s) := by
  rw [verify, hnone, h]

/-- Of a verdict that is not recorded yet, only the record is new. -/
theorem verify_fst_of_none {s : Signed} (hnone : s.currentVerdict? = none) :
    s.verify.1 = s.judge := by
  cases h : s.judge with
  | ok valid => rw [verify_of_judge hnone h]
  | error e => rw [verify_of_error hnone h]

theorem verify_snd (s : Signed) : s.verify.2 = { s with verdict := s.verify.2.verdict } := by
  cases hv : s.currentVerdict? with
  | some valid => rw [verify_of_current hv]
  | none =>
    cases h : s.judge with
    | ok valid => rw [verify_of_judge hv h]
    | error e => rw [verify_of_error hv h]

theorem verify_verify (s : Signed) : s.verify.2.verify = s.verify := by
  cases hv : s.currentVerdict? with
  | some valid =>
    rw [verify_of_current hv]
    exact verify_of_current hv
  | none =>
    cases h : s.judge with
    | ok valid =>
      rw [verify_of_judge hv h]
      exact verify_of_current (currentVerdict?_eq_some_iff.mpr rfl)
    | error e =>
      rw [verify_of_error hv h]
      exact verify_of_error hv h

/-! ## Reads and tokens -/

theorem payloadBytes_eq_ok_iff {s : Signed} {bytes : Bytes}
    (hread : s.config.skipVerification = false) :
    s.payloadBytes.1 = .ok bytes ↔ s.verify.1 = .ok true ∧ bytes = s.payload := by
  have hpayload : s.verify.2.payload = s.payload := by rw [verify_snd]
  rw [payloadBytes, hread, if_neg Bool.false_ne_true]
  rcases hv : s.verify with ⟨e | valid, left⟩
  · simp
  · rw [hv] at hpayload
    cases valid with
    | false => simp
    | true => simp [← hpayload, eq_comm]

theorem payloadBytes_snd (s : Signed) :
    s.payloadBytes.2 = if s.config.skipVerification then s else s.verify.2 := by
  rw [payloadBytes]
  split
  · rfl
  · rcases s.verify with ⟨e | valid, left⟩
    · rfl
    · cases valid <;> rfl

theorem payloadText_fst (s : Signed) :
    s.payloadText.1 = s.payloadBytes.1 >>= s.charset.decode := by
  have hcharset : s.payloadBytes.2.charset = s.charset := by
    rw [payloadBytes_snd]
    split
    · rfl
    · rw [verify_snd]
  rw [payloadText]
  rcases hb : s.payloadBytes with ⟨e | bytes, left⟩
  · rfl
  · rw [hb] at hcharset
    rw [← hcharset]
    rfl

theorem payloadText_snd (s : Signed) : s.payloadText.2 = s.payloadBytes.2 := by
  rw [payloadText]
  rcases s.payloadBytes with ⟨e | bytes, left⟩ <;> rfl

theorem serializeWith_snd (payload : Signed → String) (s : Signed) :
    (serializeWith payload s).2 = (s.sign.toOption).getD s := by
  rw [serializeWith]
  cases s.sign <;> rfl

theorem compact_snd (s : Signed) : s.compact.2 = s.sign.toOption.getD s :=
  serializeWith_snd _ s

theorem detached_snd (s : Signed) : s.detached.2 = s.sign.toOption.getD s :=
  serializeWith_snd _ s

end Jose.Signed
