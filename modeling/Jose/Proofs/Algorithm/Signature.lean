import Jose.Algorithm.Signature
import Jose.Proofs.PublicKey.Rsa
import Jose.Proofs.Result

/-! What an algorithm signs it accepts, under the key that signed or the public half of
it. Of signatures on the curves this is taken as given. -/
namespace Jose

/-- The key itself, or the public half of an asymmetric one. -/
def Key.Counterpart (key key' : Option Key) : Prop :=
  key' = key ∨ ∃ k k', key = some k ∧ k.publicKey? = some k' ∧ key' = some k'

/-- No key at all, or one that both sides have. -/
def Key.Shared : Option Key → Prop
  | none | some (.symmetric _) => True
  | _ => False

namespace Key
variable {key' : Option Key}

theorem counterpart_none_iff : Counterpart none key' ↔ key' = none := by
  simp [Counterpart]

theorem counterpart_symmetric_iff {secret : Bytes} :
    Counterpart (some (symmetric secret)) key' ↔ key' = some (symmetric secret) := by
  simp [Counterpart, publicKey?]

theorem counterpart_rsaPrivate_iff {k : PublicKey.Rsa.SigningKey} :
    Counterpart (some (rsaPrivate k)) key' ↔
      key' = some (rsaPrivate k) ∨ key' = some (rsaPublic k.verifyingKey) := by
  simp [Counterpart, publicKey?]

theorem counterpart_ecPrivate_iff {k : PublicKey.Ecdsa.SigningKey} :
    Counterpart (some (ecPrivate k)) key' ↔
      key' = some (ecPrivate k) ∨ key' = some (ecPublic k.verifyingKey) := by
  simp [Counterpart, publicKey?]

end Key

namespace SignatureAlgorithm
open Result PublicKey Hash

theorem requireNoKey_eq_ok_iff {key : Option Key} {u : Unit} :
    requireNoKey key = .ok u ↔ key = none := by
  cases key <;> simp [requireNoKey]

theorem secretOf_eq_ok_iff {id : String} {key : Option Key} {secret : Bytes} :
    secretOf id key = .ok secret ↔ key = some (.symmetric secret) := by
  unfold secretOf
  cases key with
  | none => simp [Key.required, bind, Except.bind]
  | some k => cases k <;> simp [Key.required, Key.secret?, bind, Except.bind, pure_eq_ok_iff]

theorem rsaSigningKey_eq_ok_iff {id : String} {key : Option Key} {k : Rsa.SigningKey} :
    rsaSigningKey id key = .ok k ↔ key = some (.rsaPrivate k) := by
  unfold rsaSigningKey
  cases key with
  | none => simp [Key.required, bind, Except.bind]
  | some k => cases k <;> simp [Key.required, bind, Except.bind, pure_eq_ok_iff]

theorem rsaVerifyingKey_eq_ok_iff {id : String} {key : Option Key} {k : Rsa.VerifyingKey} :
    rsaVerifyingKey id key = .ok k ↔
      key = some (.rsaPublic k) ∨ ∃ k', key = some (.rsaPrivate k') ∧
        k'.verifyingKey = k := by
  unfold rsaVerifyingKey
  cases key with
  | none => simp [Key.required, bind, Except.bind]
  | some k => cases k <;> simp [Key.required, bind, Except.bind, pure_eq_ok_iff]

theorem ecKey_eq_ok_iff {id : String} {c : Curve} {key : Option Key} {k : Key} :
    ecKey id c key = .ok k ↔ key = some k ∧ k.curve? = some c := by
  unfold ecKey
  cases key with
  | none => simp [Key.required, bind, Except.bind]
  | some actual =>
    simp only [Key.required, bind, Except.bind, Option.some.injEq]
    split
    · next c' hc' =>
      split
      · next heq =>
        subst heq
        rw [pure_eq_ok_iff]
        constructor
        · rintro rfl
          exact ⟨rfl, hc'⟩
        · rintro ⟨rfl, -⟩
          rfl
      · next hne =>
        simp only [reduceCtorEq, false_iff, not_and]
        rintro rfl hc
        rw [hc'] at hc
        exact hne (Option.some.inj hc)
    · next hnone =>
      simp only [reduceCtorEq, false_iff, not_and]
      rintro rfl hc
      rw [hnone] at hc
      cases hc

theorem ecSigningKey_eq_ok_iff {id : String} {c : Curve} {key : Option Key}
    {k : Ecdsa.SigningKey} :
    ecSigningKey id c key = .ok k ↔ key = some (.ecPrivate k) ∧ k.curve = c := by
  unfold ecSigningKey
  simp only [bind_eq_ok_iff, ecKey_eq_ok_iff]
  constructor
  · rintro ⟨actual, ⟨rfl, hcurve⟩, h⟩
    cases actual <;> simp only [reduceCtorEq, pure_eq_ok_iff] at h
    subst h
    exact ⟨rfl, Option.some.inj hcurve⟩
  · rintro ⟨rfl, rfl⟩
    exact ⟨_, ⟨rfl, rfl⟩, rfl⟩

theorem ecVerifyingKey_eq_ok_iff {id : String} {c : Curve} {key : Option Key}
    {k : Ecdsa.VerifyingKey} :
    ecVerifyingKey id c key = .ok k ↔
      k.curve = c ∧
        (key = some (.ecPublic k) ∨
          ∃ k', key = some (.ecPrivate k') ∧ k'.verifyingKey = k) := by
  unfold ecVerifyingKey
  simp only [bind_eq_ok_iff, ecKey_eq_ok_iff]
  constructor
  · rintro ⟨actual, ⟨rfl, hcurve⟩, h⟩
    cases actual <;> simp only [reduceCtorEq, pure_eq_ok_iff] at h <;> subst h
    · exact ⟨Option.some.inj hcurve, .inr ⟨_, rfl, rfl⟩⟩
    · exact ⟨Option.some.inj hcurve, .inl rfl⟩
  · rintro ⟨rfl, rfl | ⟨k', rfl, rfl⟩⟩
    · exact ⟨_, ⟨rfl, rfl⟩, rfl⟩
    · exact ⟨_, ⟨rfl, rfl⟩, rfl⟩

/-! ## Signatures -/

/-- What each algorithm signs with, and what it gives. -/
inductive Signs (input : Bytes) : SignatureAlgorithm → Option Key → Bytes → Prop where
  | unsecured : Signs input .unsecured none []
  | hmac (hash : Sha2) (secret : Bytes) :
    Signs input (.hmac hash) (some (.symmetric secret)) (Hash.hmac hash secret input)
  | rsa {hash : Sha2} {k : Rsa.SigningKey} {signature : Bytes}
    (h : Rsa.sign hash k input = .ok signature) :
    Signs input (.rsa hash) (some (.rsaPrivate k)) signature
  | ecdsa {k : Ecdsa.SigningKey} {signature : Bytes}
    (h : Ecdsa.sign? k input = some signature) :
    Signs input (.ecdsa k.curve) (some (.ecPrivate k)) signature

theorem signs_of_sign {a : SignatureAlgorithm} {key : Option Key} {input signature : Bytes}
    (h : a.sign key input = .ok signature) : Signs input a key signature := by
  cases a with
  | unsecured =>
    obtain ⟨u, hkey, h⟩ := bind_eq_ok_iff.mp h
    cases requireNoKey_eq_ok_iff.mp hkey
    cases h
    exact .unsecured
  | hmac hash =>
    obtain ⟨secret, hkey, h⟩ := bind_eq_ok_iff.mp h
    cases secretOf_eq_ok_iff.mp hkey
    cases h
    exact .hmac hash secret
  | rsa hash =>
    obtain ⟨k, hkey, hgive⟩ := bind_eq_ok_iff.mp h
    cases rsaSigningKey_eq_ok_iff.mp hkey
    split at hgive
    · next hsign =>
      cases hgive
      exact .rsa hsign
    · cases hgive
  | ecdsa c =>
    obtain ⟨k, hkey, hgive⟩ := bind_eq_ok_iff.mp h
    obtain ⟨rfl, rfl⟩ := ecSigningKey_eq_ok_iff.mp hkey
    split at hgive
    · next hsign =>
      cases hgive
      exact .ecdsa hsign
    · cases hgive

/-- The signatures on the curves that a key gives for the input are accepted. -/
def AcceptsOwn (key : Option Key) (input : Bytes) : Prop :=
  ∀ k signature, key = some (.ecPrivate k) → Ecdsa.sign? k input = some signature →
    Ecdsa.verify k.verifyingKey signature input = true

theorem rsaVerifyingKey_of_counterpart {id : String} {k : Rsa.SigningKey} {key' : Option Key}
    (h : Key.Counterpart (some (.rsaPrivate k)) key') :
    rsaVerifyingKey id key' = .ok k.verifyingKey := by
  rw [rsaVerifyingKey_eq_ok_iff]
  rcases Key.counterpart_rsaPrivate_iff.mp h with rfl | rfl
  · exact .inr ⟨k, rfl, rfl⟩
  · exact .inl rfl

theorem ecVerifyingKey_of_counterpart {id : String} {k : Ecdsa.SigningKey} {key' : Option Key}
    (h : Key.Counterpart (some (.ecPrivate k)) key') :
    ecVerifyingKey id k.curve key' = .ok k.verifyingKey := by
  rw [ecVerifyingKey_eq_ok_iff]
  rcases Key.counterpart_ecPrivate_iff.mp h with rfl | rfl
  · exact ⟨rfl, .inr ⟨k, rfl, rfl⟩⟩
  · exact ⟨rfl, .inl rfl⟩

theorem Signs.verify {input : Bytes} {a : SignatureAlgorithm} {key key' : Option Key}
    {signature : Bytes} (h : Signs input a key signature) (hown : AcceptsOwn key input)
    (hkey : Key.Counterpart key key') : a.verify key' signature input = .ok true := by
  cases h with
  | unsecured =>
    obtain rfl := Key.counterpart_none_iff.mp hkey
    rfl
  | hmac hash secret =>
    obtain rfl := Key.counterpart_symmetric_iff.mp hkey
    exact congrArg Except.ok (decide_eq_true rfl)
  | rsa h =>
    rw [SignatureAlgorithm.verify]
    simp only [rsaVerifyingKey_of_counterpart hkey, bind, Except.bind, Rsa.verify_of_sign h]
    rfl
  | ecdsa h =>
    rw [SignatureAlgorithm.verify]
    simp only [ecVerifyingKey_of_counterpart hkey, bind, Except.bind, hown _ _ rfl h]
    rfl

/-- A key that passed the check for signing passes the one for verification, and so does
its public half: both checks look at the size of the modulus, or at the curve, which the
halves share. -/
theorem Signs.validate {input : Bytes} {a : SignatureAlgorithm} {key key' : Option Key}
    {signature : Bytes} (h : Signs input a key signature)
    (hvalid : a.validateSigningKey key = .ok ())
    (hkey : Key.Counterpart key key') : a.validateVerificationKey key' = .ok () := by
  cases h with
  | unsecured =>
    obtain rfl := Key.counterpart_none_iff.mp hkey
    rfl
  | hmac hash secret =>
    obtain rfl := Key.counterpart_symmetric_iff.mp hkey
    exact hvalid
  | rsa h => rcases Key.counterpart_rsaPrivate_iff.mp hkey with rfl | rfl <;> exact hvalid
  | ecdsa h =>
    rcases Key.counterpart_ecPrivate_iff.mp hkey with rfl | rfl <;>
      exact congrArg discard (ecKey_eq_ok_iff.mpr ⟨rfl, rfl⟩)

/-- Under a shared key to sign asks for no more than to verify, and what signing gives is
the one signature that is accepted. -/
theorem exists_sign_of_verify {a : SignatureAlgorithm} {key : Option Key}
    {signature input : Bytes} {valid : Bool}
    (hshared : Key.Shared key) (h : a.verify key signature input = .ok valid) :
    a.validateSigningKey key = a.validateVerificationKey key ∧
      ∃ own, a.sign key input = .ok own ∧
        ∀ signature', a.verify key signature' input = .ok (decide (signature' = own)) := by
  cases a with
  | unsecured =>
    obtain ⟨u, hkey, -⟩ := bind_eq_ok_iff.mp h
    cases requireNoKey_eq_ok_iff.mp hkey
    refine ⟨rfl, [], rfl, fun signature' => ?_⟩
    cases signature' <;> rfl
  | hmac hash =>
    obtain ⟨secret, hkey, -⟩ := bind_eq_ok_iff.mp h
    cases secretOf_eq_ok_iff.mp hkey
    exact ⟨rfl, _, rfl, fun signature' => congrArg Except.ok (decide_eq_decide.mpr eq_comm)⟩
  | rsa hash =>
    obtain ⟨k, hkey, -⟩ := bind_eq_ok_iff.mp h
    rcases rsaVerifyingKey_eq_ok_iff.mp hkey with rfl | ⟨k', rfl, -⟩
    · exact hshared.elim
    · exact hshared.elim
  | ecdsa c =>
    obtain ⟨k, hkey, -⟩ := bind_eq_ok_iff.mp h
    rcases (ecVerifyingKey_eq_ok_iff.mp hkey).2 with rfl | ⟨k', rfl, -⟩
    · exact hshared.elim
    · exact hshared.elim

end SignatureAlgorithm
end Jose
