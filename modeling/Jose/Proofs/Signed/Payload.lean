import Jose.Proofs.Signed.Verdict

/-! The payload that is read is the one that the signature was verified over. Its bytes,
the segment it came in, the charset and the verdict are changed apart from each other, so
what ties them together is kept as an invariant of every run. -/
namespace Jose.Signed
open Text Result

/-- A header segment from the wire is an encoding, and a payload segment that of the
payload. -/
structure Canonical (s : Signed) : Prop where
  header : s.envelope.headers.WireEncoded
  payload : ∀ segment ∈ s.wirePayload, segment = Base64Url.encode s.payload

theorem canonical_new (config : Config) : Canonical (new config) := by
  constructor
  · intro segment hsegment
    cases hsegment
  · intro segment hsegment
    cases hsegment

theorem canonical_ofParts {config : Config} {header segment : String} {headers : Headers}
    {payload signature : Bytes} (hheader : Headers.parse header = .ok headers)
    (hpayload : Base64Url.decode segment = .ok payload) :
    Canonical (ofParts config headers payload segment signature) := by
  refine ⟨Headers.wireEncoded_parse hheader, ?_⟩
  rintro _ ⟨⟩
  exact Base64Url.decode_eq_ok_iff_eq_encode.mp hpayload

theorem Canonical.setPayloadBytes {s : Signed} (h : Canonical s) (payload : Bytes) :
    Canonical (s.setPayloadBytes payload) := by
  refine ⟨h.header, fun segment hsegment => ?_⟩
  cases hsegment

theorem Canonical.setEncodedPayload {s s' : Signed} {segment : String} (h : Canonical s)
    (hset : s.setEncodedPayload segment = .ok s') : Canonical s' := by
  obtain ⟨payload, hpayload, rfl⟩ := setEncodedPayload_eq_ok_iff.mp hset
  refine ⟨h.header, ?_⟩
  rintro _ ⟨⟩
  exact Base64Url.decode_eq_ok_iff_eq_encode.mp hpayload

theorem Canonical.setHeader {s : Signed} (h : Canonical s) (name : String)
    (value : Json.Value) : Canonical (s.setHeader name value) := by
  refine ⟨fun segment hsegment => ?_, h.payload⟩
  cases hsegment

theorem Canonical.sign {s s' : Signed} (h : Canonical s) (hsign : s.sign = .ok s') :
    Canonical s' := by
  obtain ⟨_, signature, _, _, _, rfl⟩ := sign_eq_ok_iff.mp hsign
  exact ⟨h.header, h.payload⟩

/-- What fails leaves the envelope, so only the results matter. -/
theorem Canonical.getD {s : Signed} {r : Result Signed} (h : Canonical s)
    (hr : ∀ s', r = .ok s' → Canonical s') : Canonical (r.toOption.getD s) := by
  cases r with
  | ok s' => exact hr s' rfl
  | error e => exact h

theorem Canonical.step {s : Signed} (h : Canonical s) (op : Op) : Canonical (op.run s) := by
  have hsign : Canonical (s.sign.toOption.getD s) := h.getD fun s' hs' => h.sign hs'
  have hverify : Canonical s.verify.2 := by
    rw [verify_snd]
    exact ⟨h.header, h.payload⟩
  have hread : Canonical s.payloadBytes.2 := by
    rw [payloadBytes_snd]
    split
    · exact h
    · exact hverify
  cases op with
  | setPayload text =>
    refine h.getD fun s' hs' => ?_
    obtain ⟨payload, -, rfl⟩ := setPayload_eq_ok_iff.mp hs'
    exact h.setPayloadBytes payload
  | setPayloadBytes payload => exact h.setPayloadBytes payload
  | setEncodedPayload segment => exact h.getD fun s' hs' => h.setEncodedPayload hs'
  | setHeader name value => exact h.setHeader name value
  | setCharset | setKey | setConstraints | setValidatesKeys | setKnownCritical =>
    exact ⟨h.header, h.payload⟩
  | sign => exact hsign
  | compact =>
    rw [Op.run, compact_snd]
    exact hsign
  | detached =>
    rw [Op.run, detached_snd]
    exact hsign
  | verify => exact hverify
  | payloadBytes => exact hread
  | payloadText =>
    rw [Op.run, payloadText_snd]
    exact hread

theorem canonical_of_reached {age : Option Nat} {s : Signed} (h : Reached age s) :
    Canonical s := by
  induction h with
  | new config => exact canonical_new config
  | parse h =>
    obtain ⟨_, _, _, _, _, _, _, _, hheader, hpayload, _, rfl⟩ := parse_eq_ok_iff.mp h
    exact canonical_ofParts hheader hpayload
  | step op _ ih => exact ih.step op

theorem Canonical.encodedPayload_eq {s : Signed} (h : Canonical s) :
    s.encodedPayload = Base64Url.encode s.payload := by
  rw [encodedPayload]
  split
  · next segment hsegment => exact h.payload segment hsegment
  · rfl

/-! ## Reading -/

/-- What is signed are two segments, and the second one decodes to the bytes. -/
def Covers (s : Signed) (bytes : Bytes) : Prop :=
  ∃ text header segment, s.signingInput = Utf8.encode text ∧
    Compact.split text = [header, segment] ∧ Base64Url.decode segment = .ok bytes

theorem Canonical.covers {s : Signed} (h : Canonical s) : s.Covers s.payload := by
  obtain ⟨bytes, hheader⟩ := h.header.exists_encoded_eq
  have hpayload := h.encodedPayload_eq
  refine ⟨_, s.envelope.headers.encoded, s.encodedPayload, rfl, ?_, ?_⟩
  · have hjoin : s.envelope.headers.encoded ++ "." ++ s.encodedPayload =
        Compact.join [s.envelope.headers.encoded, s.encodedPayload] := by
      simp [Compact.join]
    rw [hjoin]
    refine Compact.split_join (by simp)
      (List.forall_mem_cons.mpr ⟨?_, List.forall_mem_singleton.mpr ?_⟩)
    · rw [hheader]
      exact Base64Url.period_not_mem_encode bytes
    · rw [hpayload]
      exact Base64Url.period_not_mem_encode s.payload
  · rw [hpayload]
    exact Base64Url.decode_encode s.payload

theorem Covers.eq {s : Signed} {bytes bytes' : Bytes} (h : s.Covers bytes)
    (h' : s.Covers bytes') : bytes = bytes' := by
  obtain ⟨text, header, segment, hinput, hsplit, hdecode⟩ := h
  obtain ⟨text', header', segment', hinput', hsplit', hdecode'⟩ := h'
  obtain rfl := Utf8.encode_injective (hinput.symm.trans hinput')
  obtain ⟨-, hsegment⟩ := List.cons_eq_cons.mp (hsplit.symm.trans hsplit')
  obtain rfl := List.singleton_inj.mp hsegment
  rw [hdecode] at hdecode'
  exact Except.ok.inj hdecode'

/-- The payload segment always encodes the payload. If verification is not skipped, the
bytes that are read, or the bytes of the text that is read, are what the payload segment
under the signature decodes to, and the signature is valid for the envelope as it is. Only
this last part, which may come from the record, needs the counter not to have come
round. -/
theorem read_payload_is_verified {age : Option Nat} {s : Signed} (h : Reached age s) :
    s.encodedPayload = Base64Url.encode s.payload ∧
    (s.config.skipVerification = false →
      (∀ bytes, s.payloadBytes.1 = .ok bytes →
        s.Covers bytes ∧ ((∀ n ∈ age, n < UInt64.size) → s.recomputed = .ok true)) ∧
      (∀ text, s.payloadText.1 = .ok text →
        (∃ bytes, s.Covers bytes ∧ s.charset.decode bytes = .ok text) ∧
          ((∀ n ∈ age, n < UInt64.size) → s.recomputed = .ok true))) := by
  have hcanonical := canonical_of_reached h
  have hbytes : s.config.skipVerification = false → ∀ bytes, s.payloadBytes.1 = .ok bytes →
      s.Covers bytes ∧ ((∀ n ∈ age, n < UInt64.size) → s.recomputed = .ok true) := by
    intro hread bytes hok
    obtain ⟨hverify, rfl⟩ := (payloadBytes_eq_ok_iff hread).mp hok
    refine ⟨hcanonical.covers, fun hage => ?_⟩
    rw [← verify_eq_recomputed (dated_of_reached h) hage, hverify]
  refine ⟨hcanonical.encodedPayload_eq, fun hread => ⟨hbytes hread, fun text hok => ?_⟩⟩
  rw [payloadText_fst] at hok
  obtain ⟨bytes, hbytesOk, hdecode⟩ := bind_eq_ok_iff.mp hok
  obtain ⟨hcovers, hvalid⟩ := hbytes hread bytes hbytesOk
  exact ⟨⟨bytes, hcovers, hdecode⟩, hvalid⟩

theorem read_payload_is_verified_unsecured :
    Reached (some 0) unsecured.verify.2 ∧ unsecured.verify.2.config.skipVerification = false ∧
      unsecured.verify.2.payloadBytes.1 = .ok [104, 105] ∧
      unsecured.verify.2.Covers [104, 105] ∧ unsecured.verify.2.recomputed = .ok true := by
  have hage : ∀ n ∈ some 0, n < UInt64.size := by decide
  have hskip : unsecured.verify.2.config.skipVerification = false := by decide +kernel
  have hbytes : unsecured.verify.2.payloadBytes.1 = .ok [104, 105] := by decide +kernel
  obtain ⟨hcovers, hvalid⟩ :=
    ((read_payload_is_verified reached_unsecured).2 hskip).1 _ hbytes
  exact ⟨reached_unsecured, hskip, hbytes, hcovers, hvalid hage⟩

/-- Once the counter has come round, a payload is released that is not verified: a key has
been set as many times as there are generations, and no unsecured payload may have one. -/
theorem unverified_payload_released :
    ∃ age s, Reached age s ∧
      s = (setKey (some (.symmetric [])))^[UInt64.size] unsecured.verify.2 ∧
      s.config.skipVerification = false ∧ s.payloadBytes.1 = .ok [104, 105] ∧
      s.recomputed ≠ .ok true := by
  obtain ⟨age, h⟩ :=
    reached_setKey_iterate reached_unsecured (some (.symmetric [])) UInt64.size
  refine ⟨age, _, h, rfl, ?_⟩
  rw [setKey_all_generations]
  exact ⟨by decide +kernel, by decide +kernel, by decide +kernel⟩

end Jose.Signed
