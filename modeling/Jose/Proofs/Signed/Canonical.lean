import Jose.Proofs.Signed.RoundTrip

/-! A token is determined by what it is read as. The segments decode canonically, so the
header text, the payload and the signature give back the token. Under a shared key the
signature is determined in turn by the other two: of all tokens with a header and a
payload just one is accepted, and it is the one that signing gives. -/
namespace Jose.Signed
open Text Result

/-- The setters of a receiver's key and of its policy. -/
inductive Op.SetsTerms : Op → Prop where
  | setKey (key : Option Key) : SetsTerms (.setKey key)
  | setConstraints (constraints : Constraints) : SetsTerms (.setConstraints constraints)
  | setValidatesKeys (on : Bool) : SetsTerms (.setValidatesKeys on)
  | setKnownCritical (names : List String) : SetsTerms (.setKnownCritical names)

/-- The envelopes that a given one becomes by setting the terms, in any order and any
number of times. -/
inductive OnTerms (p : Signed) : Signed → Prop where
  | refl : OnTerms p p
  | set {op : Op} {s : Signed} (hop : op.SetsTerms) (h : OnTerms p s) : OnTerms p (op.run s)

/-- Nothing is changed but the terms. -/
structure Keeps (p s : Signed) : Prop where
  headers : s.envelope.headers = p.envelope.headers
  payload : s.payload = p.payload
  segment : s.encodedPayload = p.encodedPayload
  signature : s.signature = p.signature
  verdict : s.verdict = p.verdict

variable {config : Config} {token : String} {p s : Signed}

theorem Keeps.set (h : Keeps p s) {op : Op} (hop : op.SetsTerms) : Keeps p (op.run s) := by
  cases hop with
  | setKey | setConstraints | setValidatesKeys | setKnownCritical =>
    exact ⟨h.headers, h.payload, h.segment, h.signature, h.verdict⟩

theorem OnTerms.keeps (h : OnTerms p s) : Keeps p s := by
  induction h with
  | refl => exact ⟨rfl, rfl, rfl, rfl, rfl⟩
  | set hop _ ih => exact ih.set hop

theorem Keeps.token_eq (h : Keeps p s) : s.token = p.token := by
  rw [Signed.token, h.headers, h.segment, encodedSignature, h.signature, Signed.token,
    encodedSignature]

def withSignature (signature : Bytes) (s : Signed) : Signed := { s with signature }

/-- The same terms can be set for another signature. -/
theorem OnTerms.withSignature (h : OnTerms p s) (signature : Bytes) :
    OnTerms (p.withSignature signature) (s.withSignature signature) := by
  induction h with
  | refl => exact .refl
  | @set op s hop _ ih =>
    have hrun : (op.run s).withSignature signature = op.run (s.withSignature signature) := by
      cases hop with
      | setKey | setConstraints | setValidatesKeys | setKnownCritical => rfl
    rw [hrun]
    exact .set hop ih

/-! ## Segments -/

theorem canonical_of_parse (h : parse config token = .ok p) : Canonical p :=
  canonical_of_reached (.parse h)

theorem verdict_of_parse (h : parse config token = .ok p) : p.verdict = none := by
  obtain ⟨_, _, _, _, _, _, _, _, _, _, _, rfl⟩ := parse_eq_ok_iff.mp h
  rfl

/-- The header is kept as it came, and it can be read again. -/
theorem headers_of_parse (h : parse config token = .ok p) :
    Headers.parse p.envelope.headers.encoded = .ok p.envelope.headers := by
  obtain ⟨header, _, _, headers, _, _, -, -, hheader, -, -, rfl⟩ := parse_eq_ok_iff.mp h
  exact (congrArg Headers.parse (Headers.encoded_of_parse hheader)).trans hheader

theorem token_of_parse (h : parse config token = .ok p) : p.token = token := by
  obtain ⟨header, segment, tail, headers, payload, signature, hsplit, -, hheader, -,
    hsignature, rfl⟩ :=
    parse_eq_ok_iff.mp h
  rw [← Compact.join_split token, hsplit, Base64Url.decode_eq_ok_iff_eq_encode.mp hsignature,
    ← Headers.encoded_of_parse hheader]
  rfl

/-- The same three things are never read from two tokens. -/
theorem token_inj {config' : Config} {token' : String} {p' : Signed}
    (h : parse config token = .ok p) (h' : parse config' token' = .ok p')
    (hheader : p'.envelope.headers.encoded = p.envelope.headers.encoded)
    (hpayload : p'.payload = p.payload) (hsignature : p'.signature = p.signature) :
    token' = token := by
  have hsegment : p'.encodedPayload = p.encodedPayload := by
    rw [(canonical_of_parse h').encodedPayload_eq, hpayload,
      (canonical_of_parse h).encodedPayload_eq]
  rw [← token_of_parse h', ← token_of_parse h, Signed.token, hheader, hsegment,
    encodedSignature, hsignature]
  rfl

/-- Any other signature can be put in. -/
theorem parse_withSignature (h : parse config token = .ok p) (signature : Bytes) :
    parse config (p.withSignature signature).token = .ok (p.withSignature signature) := by
  obtain ⟨hwire, hsegment⟩ := canonical_of_parse h
  have hcanonical : Canonical (p.withSignature signature) := ⟨hwire, hsegment⟩
  obtain ⟨header, segment, _, headers, payload, _, -, -, hheader, hpayload, -, rfl⟩ :=
    parse_eq_ok_iff.mp h
  have hreads := headers_of_parse h
  exact parse_eq_ok_iff.mpr ⟨_, _, _, headers, payload, signature, hcanonical.split_token,
    Headers.isEmpty_of_parse hreads, hreads, hpayload, Base64Url.decode_encode _, rfl⟩

/-! ## Signatures under a shared key -/

/-- Any verdict at all shows that the envelope can be signed, and which signature is the
valid one. -/
theorem exists_own_signature {valid : Bool} (hshared : Key.Shared s.envelope.key)
    (h : s.judge = .ok valid) :
    ∃ own, s.sign = .ok { s with signature := own, envelope := s.envelope.touch } ∧
      (s.withSignature own).judge = .ok true ∧
      ∀ s' : Signed, s'.envelope.headers = s.envelope.headers →
        s'.encodedPayload = s.encodedPayload →
        s'.envelope.key = s.envelope.key → s'.judge = .ok true → s'.signature = own := by
  obtain ⟨a, halgorithm, hkey, hcritical, hverify⟩ := judge_eq_ok_iff.mp h
  obtain ⟨hchecks, own, hsign, hown⟩ :=
    SignatureAlgorithm.exists_sign_of_verify hshared hverify
  refine ⟨own, ?_, ?_, fun s' hheaders hsegment hkey' h' => ?_⟩
  · rw [← hchecks] at hkey
    exact sign_eq_ok_iff.mpr ⟨a, own, halgorithm, Envelope.validateKey_eq_ok_iff.mpr hkey,
      hsign, rfl⟩
  · refine judge_eq_ok_iff.mpr ⟨a, halgorithm, hkey, hcritical, (hown own).trans ?_⟩
    rw [decide_eq_true rfl]
  · obtain ⟨a', halgorithm', -, -, hverify'⟩ := judge_eq_ok_iff.mp h'
    have hinput : s'.signingInput = s.signingInput := by
      rw [signingInput, hheaders, hsegment, signingInput]
    have halg : some a'.id = some a.id := by
      rw [← (algorithm_eq_ok_iff.mp halgorithm').1,
        ← (algorithm_eq_ok_iff.mp halgorithm).1, hheaders]
    rw [SignatureAlgorithm.id_inj (Option.some.inj halg), hkey', hinput, hown] at hverify'
    exact of_decide_eq_true (Except.ok.inj hverify')

theorem compact_of_judge (hshared : Key.Shared s.envelope.key) (h : s.judge = .ok true)
    (hheader : s.envelope.headers.encoded.isEmpty = false) : s.compact.1 = .ok s.token := by
  obtain ⟨own, hsign, -, hunique⟩ := exists_own_signature hshared h
  have hown : s.signature = own := hunique s rfl rfl rfl h
  exact compact_eq_ok_iff.mpr ⟨_, hsign, hheader, by rw [← hown]; rfl⟩

/-! ## Accepted tokens -/

/-- Under the key, and some policy, the token is found to be a valid one for the header
and the payload. -/
def Accepted (key : Option Key) (header : String) (payload : Bytes) (token : String) : Prop :=
  ∃ config p s, parse config token = .ok p ∧ p.envelope.headers.encoded = header ∧
    p.payload = payload ∧
    OnTerms p s ∧ s.envelope.key = key ∧ s.verify.1 = .ok true

theorem OnTerms.verify_fst (h : parse config token = .ok p) (hterms : OnTerms p s) :
    s.verify.1 = s.judge := by
  refine verify_fst_of_none ?_
  rw [currentVerdict?, hterms.keeps.verdict, verdict_of_parse h]

/-- The policies may differ. -/
theorem Accepted.unique {key : Option Key} {header token token' : String} {payload : Bytes}
    (hshared : Key.Shared key) (h : Accepted key header payload token)
    (h' : Accepted key header payload token') : token' = token := by
  obtain ⟨config, p, s, hparse, rfl, rfl, hterms, rfl, hverify⟩ := h
  obtain ⟨config', p', s', hparse', hheader, hpayload, hterms', hkey, hverify'⟩ := h'
  rw [hterms.verify_fst hparse] at hverify
  rw [hterms'.verify_fst hparse'] at hverify'
  have hkeeps := hterms.keeps
  have hkeeps' := hterms'.keeps
  obtain ⟨own, -, -, hunique⟩ := exists_own_signature hshared hverify
  have hheaders : p'.envelope.headers = p.envelope.headers := by
    have hreads := headers_of_parse hparse'
    rw [hheader, headers_of_parse hparse] at hreads
    exact (Except.ok.inj hreads).symm
  have hsegment : p'.encodedPayload = p.encodedPayload := by
    rw [(canonical_of_parse hparse').encodedPayload_eq, hpayload,
      (canonical_of_parse hparse).encodedPayload_eq]
  have hsame := hunique s' (by rw [hkeeps'.headers, hheaders, hkeeps.headers])
    (by rw [hkeeps'.segment, hsegment, hkeeps.segment]) hkey hverify'
  have hown := hunique s rfl rfl rfl hverify
  refine token_inj hparse hparse' hheader hpayload ?_
  rw [← hkeeps'.signature, hsame, ← hown, hkeeps.signature]

/-- Where verification gives a verdict, be it the wrong one, there is a signature to
accept. -/
theorem exists_accepted {valid : Bool} (hshared : Key.Shared s.envelope.key)
    (h : parse config token = .ok p)
    (hterms : OnTerms p s) (hverify : s.verify.1 = .ok valid) :
    ∃ accepted, Accepted s.envelope.key p.envelope.headers.encoded p.payload accepted := by
  rw [hterms.verify_fst h] at hverify
  obtain ⟨own, -, hown, -⟩ := exists_own_signature hshared hverify
  have hparse := parse_withSignature h own
  have hterms' := hterms.withSignature own
  refine ⟨_, config, _, _, hparse, rfl, rfl, hterms', rfl, ?_⟩
  rw [hterms'.verify_fst hparse, hown]

/-- The three segments of a parsed envelope are the token, so no other token is parsed to
the same. If under a shared key it is found valid, then serializing it gives the token
again; and if it is given a verdict at all, then one and only one token with its header
and its payload is accepted under the key. -/
theorem verified_token_is_reproduced (h : parse config token = .ok p) (hterms : OnTerms p s) :
    Compact.join [p.envelope.headers.encoded, p.encodedPayload, p.encodedSignature] = token ∧
    (∀ config' token' p', parse config' token' = .ok p' →
      p'.envelope.headers.encoded = p.envelope.headers.encoded → p'.payload = p.payload →
      p'.signature = p.signature → token' = token) ∧
    (Key.Shared s.envelope.key →
      (s.verify.1 = .ok true → s.verify.2.compact.1 = .ok token) ∧
      ∀ valid, s.verify.1 = .ok valid →
        ∃! accepted,
          Accepted s.envelope.key p.envelope.headers.encoded p.payload accepted) := by
  refine ⟨token_of_parse h, fun config' token' p' h' => token_inj h h', fun hshared =>
    ⟨fun hverify => ?_, fun valid hverify => ?_⟩⟩
  · have hjudge : s.verify.2.judge = .ok true := by
      rw [verify_snd]
      exact (hterms.verify_fst h).symm.trans hverify
    have hkeeps := hterms.keeps
    have hheader : s.envelope.headers.encoded.isEmpty = false := by
      rw [hkeeps.headers]
      exact Headers.isEmpty_of_parse (headers_of_parse h)
    have htoken : s.verify.2.token = token := by
      rw [verify_snd, ← token_of_parse h, ← hkeeps.token_eq]
      rfl
    rw [← htoken]
    refine compact_of_judge ?_ hjudge ?_
    · rw [verify_snd]
      exact hshared
    · rw [verify_snd]
      exact hheader
  · obtain ⟨accepted, haccepted⟩ := exists_accepted hshared h hterms hverify
    exact ⟨accepted, haccepted, fun other hother => haccepted.unique hshared hother⟩

/-- Two bytes, signed under a shared key of sevens. -/
def sealed : String :=
  Compact.join ["eyJhbGciOiJIUzI1NiJ9", "aGk", "6mNThzjVNgW80PNwENS6CX_BbATpf_TmGLbIgpQkdp4"]

theorem verified_token_is_reproduced_sealed :
    ∃ p, parse .secure sealed = .ok p ∧
      (p.setKey (Terms.sharing 7).key).verify.1 = .ok true ∧
      (p.setKey (Terms.sharing 7).key).verify.2.compact.1 = .ok sealed ∧
      ∃! accepted,
        Accepted (Terms.sharing 7).key p.envelope.headers.encoded p.payload accepted := by
  have hverify : (parse .secure sealed >>= fun p =>
    (p.setKey (Terms.sharing 7).key).verify.1) = .ok true := by
    decide +kernel
  obtain ⟨p, hparse, hverify⟩ := bind_eq_ok_iff.mp hverify
  have hterms : OnTerms p (p.setKey (Terms.sharing 7).key) :=
    .set (.setKey (Terms.sharing 7).key) .refl
  obtain ⟨-, -, hshared⟩ := verified_token_is_reproduced hparse hterms
  obtain ⟨hcompact, hunique⟩ := hshared trivial
  exact ⟨p, hparse, hverify, hcompact hverify, hunique true hverify⟩

end Jose.Signed
