import Jose.Proofs.Algorithm.Signature
import Jose.Proofs.Headers.RoundTrip
import Jose.Proofs.Signed.Payload
import Jose.Proofs.Signed.Restricted

/-! A token is read back as the header, the payload and the signature that it was made of.
The sender signs what it makes of the parameters and the payload, the receiver verifies
the segments as they came, so the two texts are compared segment by segment. -/
namespace Jose.Signed
open Text Result

/-! ## Reading what was written -/

/-- The token of an envelope, with the signature that it holds. -/
def token (s : Signed) : String :=
  Compact.join [s.envelope.headers.encoded, s.encodedPayload, s.encodedSignature]

theorem serializeWith_eq_ok_iff {segment : Signed → String} {s : Signed} {text : String} :
    (serializeWith segment s).1 = .ok text ↔ ∃ s', s.sign = .ok s' ∧
      s'.envelope.headers.encoded.isEmpty = false ∧
        text = Compact.join [s'.envelope.headers.encoded, segment s',
          s'.encodedSignature] := by
  rw [serializeWith]
  cases s.sign with
  | error e => simp
  | ok s' => simp [Compact.serialize_eq_ok_iff, layout_lastMayBeEmpty]

theorem compact_eq_ok_iff {s : Signed} {text : String} :
    s.compact.1 = .ok text ↔ ∃ s', s.sign = .ok s' ∧
      s'.envelope.headers.encoded.isEmpty = false ∧ text = s'.token := serializeWith_eq_ok_iff

theorem Canonical.encodings {s : Signed} (h : Canonical s) :
    ∀ part ∈ [s.envelope.headers.encoded, s.encodedPayload, s.encodedSignature],
      ∃ bytes, part = Base64Url.encode bytes := by
  simp only [List.forall_mem_cons]
  exact ⟨h.header.exists_encoded_eq, ⟨_, h.encodedPayload_eq⟩, ⟨_, rfl⟩,
    fun part hpart => absurd hpart List.not_mem_nil⟩

theorem Canonical.split_token {s : Signed} (h : Canonical s) :
    Compact.split s.token =
      [s.envelope.headers.encoded, s.encodedPayload, s.encodedSignature] :=
  Compact.split_join_of_encodings (List.cons_ne_nil _ _) h.encodings

theorem Canonical.ascii_token {s : Signed} (h : Canonical s) :
    ∀ c ∈ s.token.toList, c.toNat < 128 :=
  Compact.ascii_join_of_encodings h.encodings

/-- What a receiver has of an envelope whose token it read. -/
structure Copies (s p : Signed) : Prop where
  headers : s.envelope.headers.Rereads p.envelope.headers
  payload : p.payload = s.payload
  segment : p.encodedPayload = s.encodedPayload
  signature : p.signature = s.signature
  verdict : p.verdict = none

theorem Canonical.exists_copies {s : Signed} (h : Canonical s)
    (hheaders : s.envelope.headers.Faithful)
    (hdepth : s.envelope.headers.value.depth ≤ Json.maxDepth)
    (hheader : s.envelope.headers.encoded.isEmpty = false) (receiver : Config) :
    ∃ p, parse receiver s.token = .ok p ∧ Copies s p := by
  obtain ⟨headers, hrereads⟩ := hheaders.exists_rereads hdepth
  have hpayload : Base64Url.decode s.encodedPayload = .ok s.payload := by
    rw [h.encodedPayload_eq]
    exact Base64Url.decode_encode _
  exact ⟨ofParts receiver headers s.payload s.encodedPayload s.signature,
    parse_eq_ok_iff.mpr ⟨_, _, _, headers, s.payload, s.signature, h.split_token, hheader,
      hrereads.parse, hpayload, Base64Url.decode_encode _, rfl⟩,
    hrereads, rfl, rfl, rfl, rfl⟩

theorem Copies.signingInput {s p : Signed} (h : Copies s p) :
    p.signingInput = s.signingInput := by
  rw [Signed.signingInput, Signed.signingInput, h.headers.encoded, h.segment]

/-! ## Verification by the receiver -/

/-- What the receiver sets: a key, the sender's policy on keys and algorithms, and the
critical names that it knows. -/
def given (s : Signed) (key : Option Key) (known : List String) (p : Signed) : Signed :=
  (((p.setKey key).setConstraints s.envelope.constraints).setValidatesKeys
    s.envelope.validatesKeys).setKnownCritical known

theorem Copies.given {s p : Signed} (h : Copies s p) (key : Option Key)
    (known : List String) : Copies s (s.given key known p) :=
      ⟨h.headers, h.payload, h.segment, h.signature, h.verdict⟩

/-- The signature is one that the header's algorithm gives under the key, which has passed
the checks. -/
structure SignedBy (s : Signed) (a : SignatureAlgorithm) : Prop where
  algorithm : s.algorithm = .ok a
  key : s.envelope.validatesKeys = true → a.validateSigningKey s.envelope.key = .ok ()
  signs : a.Signs s.signingInput s.envelope.key s.signature

theorem exists_signedBy {s s' : Signed} (h : s.sign = .ok s') : ∃ a, SignedBy s' a := by
  obtain ⟨a, signature, halgorithm, hkey, hsign, rfl⟩ := sign_eq_ok_iff.mp h
  exact ⟨a, halgorithm, Envelope.validateKey_eq_ok_iff.mp hkey,
    SignatureAlgorithm.signs_of_sign hsign⟩

/-- What has just been signed is valid, if its critical names are known. -/
theorem SignedBy.judge {s : Signed} {a : SignatureAlgorithm} (h : SignedBy s a)
    (hown : SignatureAlgorithm.AcceptsOwn s.envelope.key s.signingInput)
    (hcritical : s.envelope.headers.CriticalKnown s.envelope.knownCritical) :
    s.judge = .ok true :=
  judge_eq_ok_iff.mpr ⟨a, h.algorithm, fun hchecks =>
    h.signs.validate (h.key hchecks) (.inl rfl), hcritical, h.signs.verify hown (.inl rfl)⟩

/-- The receiver has the sender's key or the public half of it, the sender's policy, and
all critical names. -/
structure Agrees (s r : Signed) : Prop where
  key : Key.Counterpart s.envelope.key r.envelope.key
  constraints : r.envelope.constraints = s.envelope.constraints
  validatesKeys : r.envelope.validatesKeys = s.envelope.validatesKeys
  critical : s.envelope.headers.CriticalKnown r.envelope.knownCritical

theorem SignedBy.verify {s r : Signed} {a : SignatureAlgorithm} (h : SignedBy s a)
    (hr : Copies s r) (hown : SignatureAlgorithm.AcceptsOwn s.envelope.key s.signingInput)
    (hagrees : Agrees s r) : r.verify.1 = .ok true := by
  obtain ⟨hid, hallowed⟩ := algorithm_eq_ok_iff.mp h.algorithm
  have hcurrent : r.currentVerdict? = none := by
    rw [currentVerdict?, hr.verdict]
  rw [verify_fst_of_none hcurrent, judge_eq_ok_iff, hr.signature, hr.signingInput]
  refine ⟨a, algorithm_eq_ok_iff.mpr ⟨(hr.headers.string? "alg").trans hid, ?_⟩,
    fun hchecks => ?_,
    hr.headers.critical _ hagrees.critical, h.signs.verify hown hagrees.key⟩
  · rw [hagrees.constraints]
    exact hallowed
  · rw [hagrees.validatesKeys] at hchecks
    exact h.signs.validate (h.key hchecks) hagrees.key

theorem SignedBy.verify_given {s p : Signed} {a : SignatureAlgorithm} (h : SignedBy s a)
    (hp : Copies s p) (hown : SignatureAlgorithm.AcceptsOwn s.envelope.key s.signingInput)
    {key : Option Key} {known : List String} (hkey : Key.Counterpart s.envelope.key key)
    (hknown : s.envelope.headers.CriticalKnown known) :
    (s.given key known p).verify.1 = .ok true :=
  h.verify (hp.given key known) hown ⟨hkey, rfl, rfl, hknown⟩

theorem payloadBytes_of_verify {s : Signed} (h : s.verify.1 = .ok true) :
    s.payloadBytes.1 = .ok s.payload := by
  cases hskip : s.config.skipVerification with
  | false => exact (payloadBytes_eq_ok_iff hskip).mpr ⟨h, rfl⟩
  | true => rw [payloadBytes, if_pos hskip]

/-- Under any configuration the receiver reads the token of an envelope whose header is
not nested too deep, and has the signature and the payload that were written. Given the
key that signed, or the public half of it, the sender's policy, and a list with all
critical names, it finds the signature valid and releases the payload. -/
theorem token_reads_back {config : Config} {age : Option Nat} {s : Signed} {text : String}
    (h : ReachedBy Op.WellFormed config age s)
    (hdepth : s.envelope.headers.value.depth ≤ Json.maxDepth)
    (hown : SignatureAlgorithm.AcceptsOwn s.envelope.key s.signingInput)
    (htext : s.compact.1 = .ok text) (receiver : Config) :
    ∃ p, parse receiver text = .ok p ∧
      p.signature = s.compact.2.signature ∧ p.payload = s.payload ∧
      (s.envelope.headers.value.Integral →
        p.envelope.headers.parameters = s.envelope.headers.parameters) ∧
      ∀ key known, Key.Counterpart s.envelope.key key →
        s.envelope.headers.CriticalKnown known →
        (s.given key known p).verify.1 = .ok true ∧
        (s.given key known p).payloadBytes.1 = .ok s.payload := by
  obtain ⟨s', hsign, hheader, rfl⟩ := compact_eq_ok_iff.mp htext
  have hleft : s.compact.2 = s' := by
    rw [compact_snd, hsign]
    rfl
  have hcanonical := (canonical_of_reached h.reached).sign hsign
  have hfaithful := faithful_of_reachedBy h
  obtain ⟨a, hsigned⟩ := exists_signedBy hsign
  -- Signing changes nothing that the receiver is asked about, but for the signature.
  obtain ⟨_, signature, _, _, _, rfl⟩ := sign_eq_ok_iff.mp hsign
  obtain ⟨p, hparse, hcopies⟩ := hcanonical.exists_copies hfaithful hdepth hheader receiver
  refine ⟨p, hparse,
    by rw [hleft, hcopies.signature], hcopies.payload, hcopies.headers.parameters,
    fun key known hkey hknown => ?_⟩
  have hverify := hsigned.verify_given hcopies hown hkey hknown
  refine ⟨hverify, ?_⟩
  rw [← hcopies.payload]
  exact payloadBytes_of_verify hverify

/-- An empty payload under a shared secret, with a critical parameter. -/
def authenticated : Signed :=
  (((new .secure).setHeader "alg" (.string "HS256")).setHeader
    "crit" (.strings ["b64"])).setKey (some (.symmetric (List.replicate 32 7)))

theorem reached_authenticated : ReachedBy Op.WellFormed .secure none authenticated := by
  refine .step (.setKey _) trivial (.step (.setHeader "crit" (.strings ["b64"])) ?_
    (.step (.setHeader "alg" (.string "HS256")) (.string "HS256") .new))
  exact .array (List.forall_mem_singleton.mpr (.string "b64"))

theorem token_reads_back_authenticated :
    ReachedBy Op.WellFormed .secure none authenticated ∧
      ∃ text p, authenticated.compact.1 = .ok text ∧ parse .secure text = .ok p ∧
        (authenticated.given authenticated.envelope.key ["b64"] p).payloadBytes.1 =
          .ok [] := by
  have hheader : authenticated.envelope.headers.encoded.isEmpty = false := by decide +kernel
  have halgorithm : authenticated.algorithm = .ok (.hmac .sha256) :=
    algorithm_eq_ok_iff.mpr ⟨by decide, by decide⟩
  have hsign := sign_eq_ok_iff.mpr ⟨.hmac .sha256, _, halgorithm, rfl, rfl, rfl⟩
  have htext := compact_eq_ok_iff.mpr ⟨_, hsign, hheader, rfl⟩
  have hown : SignatureAlgorithm.AcceptsOwn authenticated.envelope.key
      authenticated.signingInput := by
    rintro k signature ⟨⟩
  have hcritical : authenticated.envelope.headers.CriticalKnown ["b64"] :=
    .inr ⟨["b64"], rfl, fun name hname => hname⟩
  obtain ⟨p, hparse, -, -, -, hgiven⟩ :=
    token_reads_back reached_authenticated (by decide) hown htext .secure
  exact ⟨reached_authenticated, _, p, htext, hparse,
    (hgiven _ ["b64"] (.inl rfl) hcritical).2⟩

end Jose.Signed
