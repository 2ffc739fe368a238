import Jose.Proofs.Signed.Canonical

/-! A token whose payload travels apart from it. The signature covers a payload segment
that is never sent, so the receiver makes that segment anew from the payload: the texts
that are signed and verified agree because a payload has one encoding only, however the
sender came by it. -/
namespace Jose.Signed
open Text Result

/-- The token of an envelope with the payload segment left empty. -/
def detachedToken (s : Signed) : String :=
  Compact.join [s.envelope.headers.encoded, "", s.encodedSignature]

theorem detached_eq_ok_iff {s : Signed} {text : String} :
    s.detached.1 = .ok text ↔ ∃ s', s.sign = .ok s' ∧
      s'.envelope.headers.encoded.isEmpty = false ∧ text = s'.detachedToken :=
        serializeWith_eq_ok_iff

theorem Canonical.split_detachedToken {s : Signed} (h : Canonical s) :
    Compact.split s.detachedToken = [s.envelope.headers.encoded, "", s.encodedSignature] := by
  apply Compact.split_join_of_encodings (List.cons_ne_nil _ _)
  simp only [List.forall_mem_cons]
  exact ⟨h.header.exists_encoded_eq, ⟨[], rfl⟩, ⟨_, rfl⟩, fun part hpart =>
    absurd hpart List.not_mem_nil⟩

/-- To sign once more gives the same signature, which covers neither the old one nor the
generation. -/
theorem sign_of_sign {s s' : Signed} (h : s.sign = .ok s') :
    s'.sign = .ok { s' with envelope := s'.envelope.touch } := by
  obtain ⟨a, signature, halgorithm, hkey, hsign, rfl⟩ := sign_eq_ok_iff.mp h
  exact sign_eq_ok_iff.mpr ⟨a, signature, halgorithm, hkey, hsign, rfl⟩

/-- Only of the curves it has to be assumed that they accept their own signatures. -/
theorem SignedBy.acceptsOwn {s : Signed} {a : SignatureAlgorithm} (h : SignedBy s a)
    (hown : ∀ c, s.algorithm = .ok (.ecdsa c) →
      SignatureAlgorithm.AcceptsOwn s.envelope.key s.signingInput) :
    SignatureAlgorithm.AcceptsOwn s.envelope.key s.signingInput := by
  intro k signature hkey
  have hsigns := h.signs
  rw [hkey] at hsigns
  cases hsigns with
  | ecdsa _ => exact hown k.curve h.algorithm k signature hkey

/-! ## The receiver's side -/

/-- The operations by which a receiver completes what it read: it supplies a payload, and
it sets its terms. -/
inductive Op.Completes : Op → Prop where
  | payload (payload : Bytes) : Completes (.setPayloadBytes payload)
  | terms {op : Op} (h : op.SetsTerms) : Completes op

/-- The envelopes that a given one becomes by such operations, in any order and any number
of times. -/
inductive CompletedFrom (p : Signed) : Signed → Prop where
  | refl : CompletedFrom p p
  | step {op : Op} {s : Signed} (hop : op.Completes) (h : CompletedFrom p s) :
      CompletedFrom p (op.run s)

/-- What no receiver supplies is as it was read. -/
structure Retains (p r : Signed) : Prop where
  headers : r.envelope.headers = p.envelope.headers
  signature : r.signature = p.signature
  verdict : r.verdict = p.verdict

variable {p r s : Signed}

theorem Retains.run (h : Retains p s) {op : Op} (hop : op.Completes) :
    Retains p (op.run s) := by
  cases hop with
  | payload payload => exact ⟨h.headers, h.signature, h.verdict⟩
  | terms hop =>
    cases hop with
    | setKey | setConstraints | setValidatesKeys
    | setKnownCritical => exact ⟨h.headers, h.signature, h.verdict⟩

theorem CompletedFrom.retains (h : CompletedFrom p r) : Retains p r := by
  induction h with
  | refl => exact ⟨rfl, rfl, rfl⟩
  | step hop _ ih => exact ih.run hop

theorem CompletedFrom.canonical (h : CompletedFrom p r) (hp : Canonical p) : Canonical r := by
  induction h with
  | refl => exact hp
  | @step op _ _ _ ih => exact ih.step op

/-- With the payload back in place the receiver has everything that the sender signed. -/
theorem CompletedFrom.copies (h : CompletedFrom p r) (hp : Canonical p) (hs : Canonical s)
    (hheaders : s.envelope.headers.Rereads p.envelope.headers)
    (hsignature : p.signature = s.signature)
    (hverdict : p.verdict = none) (hpayload : r.payload = s.payload) : Copies s r := by
  have hretains := h.retains
  constructor
  · rw [hretains.headers]
    exact hheaders
  · exact hpayload
  · rw [(h.canonical hp).encodedPayload_eq, hpayload, hs.encodedPayload_eq]
  · rw [hretains.signature, hsignature]
  · rw [hretains.verdict, hverdict]

theorem Canonical.exists_parse_detachedToken (h : Canonical s)
    (hheaders : s.envelope.headers.Faithful)
    (hdepth : s.envelope.headers.value.depth ≤ Json.maxDepth)
    (hheader : s.envelope.headers.encoded.isEmpty = false) (receiver : Config) :
    ∃ p, parse receiver s.detachedToken = .ok p ∧
      s.envelope.headers.Rereads p.envelope.headers ∧
      p.signature = s.signature := by
  obtain ⟨headers, hrereads⟩ := hheaders.exists_rereads hdepth
  have hempty : Base64Url.decode "" = .ok [] := Base64Url.decode_encode []
  exact ⟨ofParts receiver headers [] "" s.signature,
    parse_eq_ok_iff.mpr ⟨_, _, _, headers, [], s.signature, h.split_detachedToken, hheader,
      hrereads.parse, hempty, Base64Url.decode_encode _, rfl⟩,
    hrereads, rfl⟩

/-- A detached token is the token that is sent otherwise, with the payload segment left
out. Under any configuration the receiver reads it; once the payload, the key that signed
or the public half of it, the sender's policy, and a list with all critical names are set,
in whatever order, it verifies the very bytes that were signed, finds the signature valid
and releases the payload. -/
theorem detached_token_completes {config : Config} {age : Option Nat} {text : String}
    (h : ReachedBy Op.WellFormed config age s)
    (hdepth : s.envelope.headers.value.depth ≤ Json.maxDepth)
    (hown : ∀ c, s.algorithm = .ok (.ecdsa c) →
      SignatureAlgorithm.AcceptsOwn s.envelope.key s.signingInput)
    (htext : s.detached.1 = .ok text) :
    (∃ header tail whole, Compact.split text = [header, "", tail] ∧
      s.compact.1 = .ok whole ∧ s.detached.2.compact.1 = .ok whole ∧
      Compact.split whole = [header, s.encodedPayload, tail]) ∧
    ∀ receiver, ∃ p, parse receiver text = .ok p ∧
      ∀ r, CompletedFrom p r → r.payload = s.payload → Agrees s r →
        r.signingInput = s.signingInput ∧ r.verify.1 = .ok true ∧
          r.payloadBytes.1 = .ok s.payload := by
  obtain ⟨s', hsign, hheader, rfl⟩ := detached_eq_ok_iff.mp htext
  have hleft : s.detached.2 = s' := by
    rw [detached_snd, hsign]
    rfl
  have hcanonical := (canonical_of_reached h.reached).sign hsign
  have hfaithful := faithful_of_reachedBy h
  have hagain := sign_of_sign hsign
  obtain ⟨a, hsigned⟩ := exists_signedBy hsign
  -- Signing changes nothing that the receiver is asked about, but for the signature.
  obtain ⟨_, signature, _, _, _, rfl⟩ := sign_eq_ok_iff.mp hsign
  constructor
  · rw [hleft]
    exact ⟨_, _, _, hcanonical.split_detachedToken,
      compact_eq_ok_iff.mpr ⟨_, hsign, hheader, rfl⟩,
      compact_eq_ok_iff.mpr ⟨_, hagain, hheader, rfl⟩, hcanonical.split_token⟩
  · intro receiver
    obtain ⟨p, hparse, hrereads, hsignature⟩ :=
      hcanonical.exists_parse_detachedToken hfaithful hdepth hheader receiver
    refine ⟨p, hparse, fun r hr hpayload hagrees => ?_⟩
    have hcopies :=
      hr.copies (canonical_of_parse hparse) hcanonical hrereads hsignature
        (verdict_of_parse hparse) hpayload
    have hverify := hsigned.verify hcopies (hsigned.acceptsOwn hown)
      ⟨hagrees.key, hagrees.constraints, hagrees.validatesKeys, hagrees.critical⟩
    refine ⟨hcopies.signingInput, hverify, ?_⟩
    rw [payloadBytes_of_verify hverify, hpayload]

/-- Two bytes given as a segment, under a shared secret and with a critical parameter. -/
def texted : Signed := (Op.setEncodedPayload "aGk").run authenticated

theorem detached_token_completes_texted :
    ReachedBy Op.WellFormed .secure none texted ∧
      ∃ text p, texted.detached.1 = .ok text ∧ parse .secure text = .ok p ∧ p.payload = [] ∧
        (texted.given texted.envelope.key ["b64"] (p.setPayloadBytes [104, 105])).verify.1 =
          .ok true := by
  have hreached : ReachedBy Op.WellFormed .secure none texted := by
    have heffect : Op.effect (.setEncodedPayload "aGk") authenticated = .outdates := by
      decide +kernel
    have hstep := reached_authenticated.step (.setEncodedPayload "aGk") trivial
    rwa [heffect] at hstep
  have hheader : texted.envelope.headers.encoded.isEmpty = false := by decide +kernel
  have halgorithm : texted.algorithm = .ok (.hmac .sha256) :=
    algorithm_eq_ok_iff.mpr ⟨by decide, by decide⟩
  have hsign := sign_eq_ok_iff.mpr ⟨.hmac .sha256, _, halgorithm, rfl, rfl, rfl⟩
  have htext := detached_eq_ok_iff.mpr ⟨_, hsign, hheader, rfl⟩
  have hown : ∀ c, texted.algorithm = .ok (.ecdsa c) →
      SignatureAlgorithm.AcceptsOwn texted.envelope.key texted.signingInput := by
    intro c hc
    rw [halgorithm] at hc
    cases hc
  obtain ⟨⟨header, tail, whole, hsplit, -⟩, hcompletes⟩ :=
    detached_token_completes hreached (by decide) hown htext
  obtain ⟨p, hparse, hgiven⟩ := hcompletes .secure
  have hempty : p.payload = [] := by
    obtain ⟨_, _, _, _, payload, _, hparts, -, -, hdecode, -, rfl⟩ :=
      parse_eq_ok_iff.mp hparse
    rw [hsplit] at hparts
    cases hparts
    cases hdecode
    rfl
  have hcompleted : CompletedFrom p
      (texted.given texted.envelope.key ["b64"] (p.setPayloadBytes [104, 105])) :=
    .step (.terms (.setKnownCritical _)) (.step (.terms (.setValidatesKeys _))
      (.step (.terms (.setConstraints _))
        (.step (.terms (.setKey _)) (.step (.payload _) .refl))))
  have hpayload : [104, 105] = texted.payload := by decide +kernel
  have hcritical : texted.envelope.headers.CriticalKnown ["b64"] :=
    .inr ⟨["b64"], rfl, fun name hname => hname⟩
  exact ⟨hreached, _, p, htext, hparse, hempty,
    (hgiven _ hcompleted hpayload ⟨.inl rfl, rfl, rfl, hcritical⟩).2.1⟩

end Jose.Signed
