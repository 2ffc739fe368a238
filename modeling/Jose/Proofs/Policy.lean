import Jose.Proofs.Encrypted.Kept
import Jose.Proofs.Signed.RoundTrip

/-! Whatever an operation gives, the policy of the envelope as it stands has admitted it:
the algorithms of the header are strings, allowed and registered, and what was verified or
deciphered has no critical name that is not known. A verdict from the record skips the
checks, so for verdicts it takes the history of the envelope. -/
namespace Jose
open Result

/-- The parameter is a string, and the identifier of an allowed and registered
algorithm. -/
def Admits {α : Type} (registry : Registry α) (constraints : Constraints)
    (parameter : Option Json.Value) : Prop :=
  ∃ id, parameter = some (.string id) ∧ constraints.allows id = true ∧
    ∃ a, registry.find id = .ok a

namespace Signed

def AlgorithmAdmitted (s : Signed) : Prop :=
  Admits SignatureAlgorithm.registry s.envelope.constraints (s.envelope.headers.get? "alg")

/-- The algorithm is admitted, and so is every critical name. -/
structure VerificationAdmitted (s : Signed) : Prop where
  algorithm : s.AlgorithmAdmitted
  critical : s.envelope.headers.CriticalKnown s.envelope.knownCritical

theorem admitted_of_algorithm {s : Signed} {a : SignatureAlgorithm}
    (h : s.algorithm = .ok a) : s.AlgorithmAdmitted := by
  obtain ⟨hid, hallowed⟩ := algorithm_eq_ok_iff.mp h
  exact ⟨a.id, Headers.string?_eq_some_iff.mp hid, hallowed, a,
    SignatureAlgorithm.find_eq_ok_iff.mpr rfl⟩

theorem admitted_of_sign {s s' : Signed} (h : s.sign = .ok s') : s.AlgorithmAdmitted := by
  obtain ⟨a, _, halgorithm, _⟩ := sign_eq_ok_iff.mp h
  exact admitted_of_algorithm halgorithm

theorem admitted_of_judge {s : Signed} {valid : Bool} (h : s.judge = .ok valid) :
    s.VerificationAdmitted := by
  obtain ⟨a, halgorithm, -, hcritical, -⟩ := judge_eq_ok_iff.mp h
  exact ⟨admitted_of_algorithm halgorithm, hcritical⟩

/-- Fewer changes since a verdict was last recorded than there are generations. -/
def Recent (age : Option Nat) : Prop := ∀ n ∈ age, n < UInt64.size

theorem exists_sign_of_serializeWith {payload : Signed → String} {s : Signed} {token : String}
    (h : (serializeWith payload s).1 = .ok token) : ∃ s', s.sign = .ok s' := by
  rw [serializeWith] at h
  split at h
  · cases h
  · next s' hsign => exact ⟨s', hsign⟩

theorem judge_of_verify {age : Option Nat} {s : Signed} (h : Reached age s)
    (hage : Recent age)
    {valid : Bool} (hverify : s.verify.1 = .ok valid) : s.judge = .ok valid := by
  rw [verify_eq_recomputed (dated_of_reached h) hage, recomputed_eq_judge] at hverify
  exact hverify

/-- What holds whenever an operation succeeds that signs, or one that verifies. -/
structure Guarded (age : Option Nat) (s : Signed) (signing verifying : Prop) : Prop where
  sign : ∀ s', s.sign = .ok s' → signing
  compact : ∀ token, s.compact.1 = .ok token → signing
  detached : ∀ token, s.detached.1 = .ok token → signing
  recomputed : ∀ valid, s.recomputed = .ok valid → verifying
  verify : Recent age → ∀ valid, s.verify.1 = .ok valid → verifying
  payloadBytes : Recent age → s.config.skipVerification = false →
    ∀ bytes, s.payloadBytes.1 = .ok bytes → verifying
  payloadText : Recent age → s.config.skipVerification = false →
    ∀ text, s.payloadText.1 = .ok text → verifying

/-- It is enough that it holds when signing succeeds, or when a verdict is reached. -/
theorem guarded_of_reached {age : Option Nat} {s : Signed} {signing verifying : Prop}
    (h : Reached age s) (hsign : ∀ s', s.sign = .ok s' → signing)
    (hjudge : ∀ valid, s.judge = .ok valid → verifying) :
    Guarded age s signing verifying := by
  have hserialize : ∀ payload token, (serializeWith payload s).1 = .ok token → signing := by
    intro payload token hok
    obtain ⟨s', hs'⟩ := exists_sign_of_serializeWith hok
    exact hsign s' hs'
  have hverify : Recent age → ∀ valid, s.verify.1 = .ok valid → verifying :=
    fun hage valid hok => hjudge valid (judge_of_verify h hage hok)
  have hbytes : Recent age → s.config.skipVerification = false →
      ∀ bytes, s.payloadBytes.1 = .ok bytes → verifying := by
    intro hage hread bytes hok
    exact hverify hage true ((payloadBytes_eq_ok_iff hread).mp hok).1
  constructor
  · exact hsign
  · exact hserialize _
  · exact hserialize _
  · intro valid hok
    rw [recomputed_eq_judge] at hok
    exact hjudge valid hok
  · exact hverify
  · exact hbytes
  · intro hage hread text hok
    rw [payloadText_fst] at hok
    obtain ⟨bytes, hok, -⟩ := bind_eq_ok_iff.mp hok
    exact hbytes hage hread bytes hok

/-- What the policy has admitted when an operation succeeds. -/
structure PolicyEnforced (age : Option Nat) (s : Signed) : Prop where
  sign : ∀ s', s.sign = .ok s' → s.AlgorithmAdmitted
  compact : ∀ token, s.compact.1 = .ok token → s.AlgorithmAdmitted
  detached : ∀ token, s.detached.1 = .ok token → s.AlgorithmAdmitted
  verify : Recent age → ∀ valid, s.verify.1 = .ok valid → s.VerificationAdmitted
  payloadBytes : Recent age → s.config.skipVerification = false →
    ∀ bytes, s.payloadBytes.1 = .ok bytes → s.VerificationAdmitted
  payloadText : Recent age → s.config.skipVerification = false →
    ∀ text, s.payloadText.1 = .ok text → s.VerificationAdmitted

theorem policyEnforced_of_reached {age : Option Nat} {s : Signed} (h : Reached age s) :
    PolicyEnforced age s := by
  have hguarded := guarded_of_reached h (fun _ => admitted_of_sign) fun _ => admitted_of_judge
  exact ⟨hguarded.sign, hguarded.compact, hguarded.detached, hguarded.verify,
    hguarded.payloadBytes, hguarded.payloadText⟩

/-- Nothing is signed, verified or released. -/
structure Refuses (age : Option Nat) (s : Signed) : Prop where
  sign : ∀ s', s.sign ≠ .ok s'
  compact : ∀ token, s.compact.1 ≠ .ok token
  detached : ∀ token, s.detached.1 ≠ .ok token
  verify : Recent age → ∀ valid, s.verify.1 ≠ .ok valid
  payloadBytes : Recent age → ∀ bytes, s.payloadBytes.1 ≠ .ok bytes
  payloadText : Recent age → ∀ text, s.payloadText.1 ≠ .ok text

/-- The operations that leave the constraints as they are. -/
def Op.KeepsConstraints (op : Op) : Prop := ∀ constraints, op ≠ .setConstraints constraints

theorem refuses_none {age : Option Nat} {s : Signed}
    (h : ReachedBy Op.KeepsConstraints .secure age s)
    (hnone : s.envelope.headers.get? "alg" = some (.string "none")) : s.Refuses age := by
  obtain ⟨hconstraints, hconfig⟩ :=
    constraints_of_reachedBy h fun constraints hkeeps => hkeeps constraints rfl
  have hskip : s.config.skipVerification = false := by
    rw [hconfig]
    rfl
  have hrefused : ¬s.AlgorithmAdmitted := by
    rintro ⟨id, hid, hallowed, -⟩
    rw [hnone] at hid
    cases hid
    rw [hconstraints] at hallowed
    exact absurd hallowed (by decide)
  have henforced := policyEnforced_of_reached h.reached
  constructor
  · exact fun s' hok => hrefused (henforced.sign s' hok)
  · exact fun token hok => hrefused (henforced.compact token hok)
  · exact fun token hok => hrefused (henforced.detached token hok)
  · exact fun hage valid hok => hrefused (henforced.verify hage valid hok).algorithm
  · exact fun hage bytes hok =>
      hrefused (henforced.payloadBytes hage hskip bytes hok).algorithm
  · exact fun hage text hok => hrefused (henforced.payloadText hage hskip text hok).algorithm

end Signed

namespace Encrypted

/-- Each of the two algorithms is admitted by its own constraints. -/
structure AlgorithmsAdmitted (e : Encrypted) : Prop where
  management : Admits KeyManagement.registry e.envelope.constraints
    (e.envelope.headers.get? "alg")
  encryption : Admits ContentEncryption.registry e.contentConstraints
    (e.envelope.headers.get? "enc")

structure DecryptionAdmitted (e : Encrypted) : Prop where
  algorithms : e.AlgorithmsAdmitted
  critical : e.envelope.headers.CriticalKnown e.envelope.knownCritical

theorem algorithmsAdmitted {e : Encrypted} {m : KeyManagement} {x : ContentEncryption}
    (hm : e.keyManagement = .ok m) (hx : e.contentEncryption = .ok x) :
    e.AlgorithmsAdmitted := by
  obtain ⟨hid, hallowed⟩ := keyManagement_eq_ok_iff.mp hm
  obtain ⟨hid', hallowed'⟩ := contentEncryption_eq_ok_iff.mp hx
  exact ⟨⟨m.id, Headers.string?_eq_some_iff.mp hid, hallowed, m,
    KeyManagement.find_eq_ok_iff.mpr rfl⟩,
    ⟨x.id, Headers.string?_eq_some_iff.mp hid', hallowed', x,
      ContentEncryption.find_eq_ok_iff.mpr rfl⟩⟩

theorem admitted_of_prepare {e : Encrypted} {p : ContentEncryption × ContentKey × Bytes}
    (h : e.prepare = .ok p) : e.AlgorithmsAdmitted := by
  obtain ⟨m, hm, h⟩ := bind_eq_ok_iff.mp h
  obtain ⟨x, hx, -⟩ := bind_eq_ok_iff.mp h
  exact algorithmsAdmitted hm hx

theorem admitted_of_compact {e : Encrypted} {fresh : Bytes} {token : String}
    (h : (e.compact fresh).1 = .ok token) : e.AlgorithmsAdmitted := by
  rw [compact] at h
  split at h
  · cases h
  · next hprepare => exact admitted_of_prepare hprepare

theorem admitted_of_decipher {e : Encrypted} {bytes : Bytes} (h : e.decipher = .ok bytes) :
    e.DecryptionAdmitted := by
  obtain ⟨m, x, _, hm, hx, hcritical, _⟩ := decipher_eq_ok_iff.mp h
  exact ⟨algorithmsAdmitted hm hx, hcritical⟩

structure PolicyEnforced (e : Encrypted) : Prop where
  compact : ∀ fresh token, (e.compact fresh).1 = .ok token → e.AlgorithmsAdmitted
  decipher : ∀ bytes, e.decipher = .ok bytes → e.DecryptionAdmitted
  plaintextBytes : e.plaintext = none →
    ∀ bytes, e.plaintextBytes.1 = .ok bytes → e.DecryptionAdmitted
  plaintextText : e.plaintext = none →
    ∀ text, e.plaintextText.1 = .ok text → e.DecryptionAdmitted

theorem policyEnforced (e : Encrypted) : PolicyEnforced e := by
  have hbytes : e.plaintext = none →
      ∀ bytes, e.plaintextBytes.1 = .ok bytes → e.DecryptionAdmitted :=
    fun hnone bytes hok => admitted_of_decipher ((plaintextBytes_eq_ok_iff hnone).mp hok)
  constructor
  · exact fun fresh token => admitted_of_compact
  · exact fun bytes => admitted_of_decipher
  · exact hbytes
  · intro hnone text hok
    rw [plaintextText] at hok
    split at hok
    · next bytes e' hb => exact hbytes hnone bytes (by rw [hb])
    · cases hok

end Encrypted

/-- Every operation of a signed envelope that any run leads to, and of any encrypted
envelope, gives something only if the policy of the moment admits it. So an envelope that
was made without weakening the configuration, and was never given other constraints, gives
nothing under the unsecured algorithm. Only a verdict, which may come from the record,
needs the counter not to have come round. -/
theorem policy_is_enforced :
    (∀ {age : Option Nat} {s : Signed}, Signed.Reached age s → s.PolicyEnforced age) ∧
    (∀ e : Encrypted, e.PolicyEnforced) ∧
    (∀ {age : Option Nat} {s : Signed},
      Signed.ReachedBy Signed.Op.KeepsConstraints .secure age s →
      s.envelope.headers.get? "alg" = some (.string "none") → s.Refuses age) :=
  ⟨Signed.policyEnforced_of_reached, Encrypted.policyEnforced, Signed.refuses_none⟩

theorem policy_is_enforced_unsecured :
    (Signed.Reached (some 0) Signed.unsecured.verify.2 ∧ Signed.Recent (some 0) ∧
      Signed.unsecured.verify.2.verify.1 = .ok true ∧
      Signed.unsecured.verify.2.VerificationAdmitted) ∧
    (Signed.ReachedBy Signed.Op.KeepsConstraints .secure none
        ((Signed.new .secure).setHeader "alg" (.string "none")) ∧
      ∀ token, ((Signed.new .secure).setHeader "alg" (.string "none")).compact.1 ≠
        .ok token) := by
  have hage : Signed.Recent (some 0) := by
    rintro n ⟨⟩
    decide
  have hvalid : Signed.unsecured.verify.2.verify.1 = .ok true := by decide +kernel
  have hsecure : Signed.ReachedBy Signed.Op.KeepsConstraints .secure none
      ((Signed.new .secure).setHeader "alg" (.string "none")) := by
    refine .step (.setHeader "alg" (.string "none")) ?_ .new
    rintro constraints ⟨⟩
  have henforced := policy_is_enforced.1 Signed.reached_unsecured
  have hrefused := policy_is_enforced.2.2 hsecure rfl
  exact ⟨⟨Signed.reached_unsecured, hage, hvalid, henforced.verify hage true hvalid⟩,
    hsecure, hrefused.compact⟩

/-! ## What outlasts the policy -/

namespace Signed

/-- A payload under a shared secret. -/
def secured : Signed :=
  (((new .secure).setHeader "alg" (.string "HS256")).setKey
    (some (.symmetric (List.replicate 32 7)))).setPayloadBytes [104, 105]

theorem reached_secured : ReachedBy Op.KeepsConstraints .secure none secured :=
  .step (.setPayloadBytes _) (fun _ => Op.noConfusion)
    (.step (.setKey _) (fun _ => Op.noConfusion)
      (.step (.setHeader _ _) (fun _ => Op.noConfusion) .new))

/-- Once it is signed and verified, there is a verdict on record. -/
theorem exists_verified_secured :
    ∃ age s, ReachedBy Op.KeepsConstraints .secure age s ∧
      s.verdict = some (s.envelope.generation, true) ∧ s.payload = [104, 105] := by
  have halgorithm : secured.algorithm = .ok (.hmac .sha256) :=
    algorithm_eq_ok_iff.mpr ⟨by decide, by decide⟩
  obtain ⟨s, hsign⟩ : ∃ s, secured.sign = .ok s :=
    ⟨_, sign_eq_ok_iff.mpr ⟨.hmac .sha256, _, halgorithm, rfl, rfl, rfl⟩⟩
  have hreached := reached_secured.step .sign fun _ => Op.noConfusion
  rw [show Op.sign.run secured = s by rw [Op.run, hsign]; rfl] at hreached
  obtain ⟨a, hsigned⟩ := exists_signedBy hsign
  obtain ⟨_, signature, _, _, _, rfl⟩ := sign_eq_ok_iff.mp hsign
  have hown : SignatureAlgorithm.AcceptsOwn secured.envelope.key secured.signingInput := by
    rintro k signature ⟨⟩
  have hverify := verify_of_judge rfl (hsigned.judge hown (.inl rfl))
  have hverified := hreached.step .verify fun _ => Op.noConfusion
  rw [Op.run, hverify] at hverified
  exact ⟨_, _, hverified, rfl, rfl⟩

/-- After as many changes as there are generations, the last of which sets the algorithm,
the verdict passes for one under the unsecured algorithm. -/
theorem exists_unsecured_verified :
    ∃ age s, ReachedBy Op.KeepsConstraints .secure age s ∧
      s.envelope.headers.get? "alg" = some (.string "none") ∧ s.verify.1 = .ok true ∧
      s.payloadBytes.1 = .ok [104, 105] := by
  obtain ⟨age, s, hreached, hverdict, hpayload⟩ := exists_verified_secured
  have hrekeyed : ∃ age', ReachedBy Op.KeepsConstraints .secure age'
      ((setKey none)^[UInt64.size - 1] s) := by
    refine Function.Iterate.rec _ ⟨age, hreached⟩ ?_ _
    rintro s ⟨age', h⟩
    exact ⟨_, h.step (.setKey none) fun _ => Op.noConfusion⟩
  obtain ⟨age', hrekeyed⟩ := hrekeyed
  obtain ⟨s', hs', hheaders, hverdict', hpayload'⟩ : ∃ s' : Signed,
      ((setKey none)^[UInt64.size - 1] s).setHeader "alg" (.string "none") = s' ∧
        s'.envelope.headers = s.envelope.headers.set "alg" (.string "none") ∧
        s'.verdict = some (s'.envelope.generation, true) ∧ s'.payload = [104, 105] :=
    ⟨_, setHeader_setKey_iterate none "alg" (.string "none") s, rfl, hverdict, hpayload⟩
  have hunsecured := hrekeyed.step (.setHeader "alg" (.string "none")) fun _ => Op.noConfusion
  rw [Op.run, hs'] at hunsecured
  have hverify : s'.verify.1 = .ok true :=
    congrArg Prod.fst (verify_of_current (currentVerdict?_eq_some_iff.mpr hverdict'))
  refine ⟨_, s', hunsecured, ?_, hverify, ?_⟩
  · rw [hheaders, Headers.get?, Headers.set, Named.get?_insert, if_pos rfl]
  · rw [← hpayload']
    exact payloadBytes_of_verify hverify

end Signed

namespace Encrypted

/-- A plaintext that has been deciphered is given under constraints that block its
encryption. -/
theorem exists_blocked_read :
    ∃ (e o : Encrypted), Received sealed (some o) e ∧ e.plaintextBytes.1 = .ok [104, 105] ∧
      ¬e.AlgorithmsAdmitted := by
  have hheader : (parse sealed).toOption.map (·.envelope.headers.string? "enc") =
      some (some "A128CBC-HS256") := by decide +kernel
  have hblocked : (Constraints.block ["A128CBC-HS256"]).allows "A128CBC-HS256" =
      false := by decide
  obtain ⟨e, o, hparse, -, hleft, hreceived⟩ := exists_readOnce
  have henc : e.envelope.headers.get? "enc" = some (.string "A128CBC-HS256") := by
    rw [hparse] at hheader
    exact Headers.string?_eq_some_iff.mp (Option.some.inj hheader)
  refine ⟨e.readOnce.under (.sharing 7) (.block ["A128CBC-HS256"]), o,
    hreceived.onTerms (onTerms_under _ _ _), (readOnce_under hleft _ _).1, ?_⟩
  rintro ⟨-, id, hid, hallowed, -⟩
  rw [hleft] at hid
  cases henc.symm.trans hid
  exact Bool.false_ne_true (hblocked.symm.trans hallowed)

end Encrypted

/-- So neither bound can be left out. An envelope that was made without weakening the
configuration, and was never given other constraints, releases a payload under the
unsecured algorithm once the counter has come round; and a plaintext that is kept is read
against the constraints. -/
theorem policy_is_outlasted :
    (∃ age s, Signed.ReachedBy Signed.Op.KeepsConstraints .secure age s ∧
      s.envelope.headers.get? "alg" = some (.string "none") ∧ s.verify.1 = .ok true ∧
      s.payloadBytes.1 = .ok [104, 105]) ∧
    ∃ (e o : Encrypted), Encrypted.Received Encrypted.sealed (some o) e ∧
      e.plaintextBytes.1 = .ok [104, 105] ∧ ¬e.AlgorithmsAdmitted :=
  ⟨Signed.exists_unsecured_verified, Encrypted.exists_blocked_read⟩

end Jose
