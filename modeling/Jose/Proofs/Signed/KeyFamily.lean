import Jose.Proofs.Algorithm.Signature.KeyFamily
import Jose.Proofs.Policy

/-! An envelope uses no key for an algorithm of another family, whether or not keys are
validated: the switch is about the strength of a key, and the algorithm itself refuses one
that it does not take. -/
namespace Jose
open Result

namespace Signed

/-- The algorithm that the header names and the policy allows takes the key. -/
def KeyTaken (s : Signed) : Prop :=
  ∃ a, s.algorithm = .ok a ∧ SignatureAlgorithm.Takes a s.envelope.key

def SigningKeyTaken (s : Signed) : Prop :=
  ∃ a, s.algorithm = .ok a ∧ SignatureAlgorithm.SignsWith a s.envelope.key

theorem keyTaken_of_judge {s : Signed} {valid : Bool} (h : s.judge = .ok valid) :
    s.KeyTaken := by
  obtain ⟨a, halgorithm, -, -, hverify⟩ := judge_eq_ok_iff.mp h
  exact ⟨a, halgorithm, SignatureAlgorithm.takes_of_verify hverify⟩

theorem signingKeyTaken_of_sign {s s' : Signed} (h : s.sign = .ok s') :
    s.SigningKeyTaken := by
  obtain ⟨a, signature, halgorithm, -, hsign, -⟩ := sign_eq_ok_iff.mp h
  exact ⟨a, halgorithm, (SignatureAlgorithm.signs_of_sign hsign).signsWith⟩

theorem not_keyTaken {s : Signed} {a : SignatureAlgorithm} (halgorithm : s.algorithm = .ok a)
    (hother : ¬SignatureAlgorithm.Takes a s.envelope.key) : ¬s.KeyTaken := by
  rintro ⟨a', ha', htakes⟩
  rw [halgorithm] at ha'
  obtain rfl := Except.ok.inj ha'
  exact hother htakes

theorem SigningKeyTaken.keyTaken {s : Signed} (h : s.SigningKeyTaken) : s.KeyTaken := by
  obtain ⟨a, halgorithm, hsigns⟩ := h
  exact ⟨a, halgorithm, hsigns.takes⟩

end Signed

/-- Of every algorithm, whatever the key: a failure to verify is settled by the key, and
is an error of the key; only a key of the family verifies and signs, and what its check
lets pass it takes. So every envelope that any run leads to, whatever it validates, gives
something only if its algorithm takes its key. Only a verdict that may come from the
record needs the counter not to have come round. -/
theorem keys_keep_to_their_family :
    (∀ (a : SignatureAlgorithm) (key : Option Key), SignatureAlgorithm.SettledByKey a key) ∧
    (∀ {age : Option Nat} {s : Signed}, Signed.Reached age s →
      s.Guarded age s.SigningKeyTaken s.KeyTaken) :=
  ⟨SignatureAlgorithm.settledByKey, fun h =>
    Signed.guarded_of_reached h (fun _ => Signed.signingKeyTaken_of_sign) fun _ =>
      Signed.keyTaken_of_judge⟩

namespace Signed

/-- A public key of 2048 bits where a secret belongs, and nothing validated. -/
def confused : Signed :=
  (((new .secure).setHeader "alg" (.string "HS256")).setKey
    (some (.rsaPublic ⟨2 ^ 2047 + 1, 65537⟩))).setValidatesKeys false

end Signed

theorem keys_keep_to_their_family_confused :
    (Signed.Reached none Signed.confused ∧ Signed.confused.algorithm = .ok (.hmac .sha256) ∧
      (∀ token, Signed.confused.compact.1 ≠ .ok token) ∧
        (∀ valid, Signed.confused.verify.1 ≠ .ok valid) ∧
      ∃ detail, ∀ signature input, (SignatureAlgorithm.hmac .sha256).verify
        Signed.confused.envelope.key signature input =
        .error (.keyValidation detail)) ∧
    (SignatureAlgorithm.hmac .sha256).validateVerificationKey (Terms.sharing 7).key = .ok () ∧
      ∀ signature input, ∃ valid,
        (SignatureAlgorithm.hmac .sha256).verify (Terms.sharing 7).key signature input =
          .ok valid := by
  have hreached : Signed.Reached none Signed.confused :=
    .step (.setValidatesKeys false)
      (.step (.setKey _) (.step (.setHeader "alg" (.string "HS256")) (.new .secure)))
  have halgorithm : Signed.confused.algorithm = .ok (.hmac .sha256) :=
    Signed.algorithm_eq_ok_iff.mpr ⟨by decide, by decide⟩
  have hother : ¬SignatureAlgorithm.Takes (.hmac .sha256) Signed.confused.envelope.key := by
    intro h
    cases h
  have hvalidated : (SignatureAlgorithm.hmac .sha256).validateVerificationKey
      (Terms.sharing 7).key = .ok () := rfl
  obtain ⟨hsettled, hguarded⟩ := keys_keep_to_their_family
  have hrefused := Signed.not_keyTaken halgorithm hother
  refine ⟨⟨hreached, halgorithm, fun token htoken => ?_, fun valid hvalid => ?_, ?_⟩,
    hvalidated, (hsettled (.hmac .sha256) (Terms.sharing 7).key).validatedVerification hvalidated⟩
  · exact hrefused ((hguarded hreached).compact token htoken).keyTaken
  · exact hrefused ((hguarded hreached).verify (fun n hn => by cases hn) valid hvalid)
  · rcases (hsettled (.hmac .sha256) Signed.confused.envelope.key).verify
      with ⟨htakes, -⟩ | ⟨-, hfault⟩
    · exact absurd htakes hother
    · exact hfault

end Jose
