import Jose.Proofs.Algorithm.Signature

/-! The key is looked at before the signature. Under a key of another family than the
algorithm's every signature meets the same error, and it is one of the key; under a key of
the family every signature gets an answer. The checks of a key ask for no less than its
use does, and the halves of a key pair verify alike. -/
namespace Jose

/-- Whatever goes wrong is an error of the key. -/
def OnlyKeyFaults {α : Type} (x : Result α) : Prop :=
  ∀ e, x = .error e → ∃ detail, e = .keyValidation detail

namespace OnlyKeyFaults
variable {α β : Type}

theorem ok (a : α) : OnlyKeyFaults (.ok a) := by
  intro e h
  cases h

theorem fault (detail : String) :
    OnlyKeyFaults (.error (.keyValidation detail) : Result α) := by
  rintro _ ⟨⟩
  exact ⟨detail, rfl⟩

theorem bind {x : Result α} {f : α → Result β} (hx : OnlyKeyFaults x)
    (hf : ∀ a, OnlyKeyFaults (f a)) : OnlyKeyFaults (x >>= f) := by
  intro e h
  cases x with
  | error e' => exact hx e (by cases h; rfl)
  | ok a => exact hf a e h

theorem map {x : Result α} (hx : OnlyKeyFaults x) (f : α → β) : OnlyKeyFaults (f <$> x) := by
  intro e h
  exact hx e (Result.map_eq_error_iff.mp h)

end OnlyKeyFaults

namespace SignatureAlgorithm
open Result PublicKey Hash

/-! ## The key of an algorithm -/

theorem required_faults (id : String) (key : Option Key) :
    OnlyKeyFaults (Key.required id key) := by
  cases key with
  | none => exact .fault _
  | some k => exact .ok k

theorem requireNoKey_faults (key : Option Key) : OnlyKeyFaults (requireNoKey key) := by
  cases key with
  | none => exact .ok ()
  | some k => exact .fault _

theorem secretOf_faults (id : String) (key : Option Key) :
    OnlyKeyFaults (secretOf id key) := by
  apply (required_faults id key).bind
  intro k
  split
  · exact .ok _
  · exact .fault _

theorem rsaVerifyingKey_faults (id : String) (key : Option Key) :
    OnlyKeyFaults (rsaVerifyingKey id key) := by
  apply (required_faults id key).bind
  intro k
  cases k with
  | rsaPrivate k => exact .ok _
  | rsaPublic k => exact .ok _
  | symmetric | ecPrivate | ecPublic => exact .fault _

theorem ecKey_faults (id : String) (c : Curve) (key : Option Key) :
    OnlyKeyFaults (ecKey id c key) := by
  apply (required_faults id key).bind
  intro k
  split
  · split
    · exact .ok k
    · exact .fault _
  · exact .fault _

theorem ecVerifyingKey_faults (id : String) (c : Curve) (key : Option Key) :
    OnlyKeyFaults (ecVerifyingKey id c key) := by
  apply (ecKey_faults id c key).bind
  intro k
  cases k with
  | ecPrivate k => exact .ok _
  | ecPublic k => exact .ok _
  | symmetric | rsaPrivate | rsaPublic => exact .fault _

/-- The keys of the family of an algorithm: none at all, a secret, a key with a modulus,
or one on its own curve. -/
inductive Takes : SignatureAlgorithm → Option Key → Prop where
  | unsecured : Takes .unsecured none
  | hmac (hash : Sha2) (secret : Bytes) : Takes (.hmac hash) (some (.symmetric secret))
  | rsaPrivate (hash : Sha2) (k : Rsa.SigningKey) : Takes (.rsa hash) (some (.rsaPrivate k))
  | rsaPublic (hash : Sha2) (k : Rsa.VerifyingKey) : Takes (.rsa hash) (some (.rsaPublic k))
  | ecPrivate (k : Ecdsa.SigningKey) : Takes (.ecdsa k.curve) (some (.ecPrivate k))
  | ecPublic (k : Ecdsa.VerifyingKey) : Takes (.ecdsa k.curve) (some (.ecPublic k))

/-- The keys of the family that can sign. -/
structure SignsWith (a : SignatureAlgorithm) (key : Option Key) : Prop where
  takes : Takes a key
  isPrivate : a.persuasion = .asymmetric → ∃ k ∈ key, k.isPrivate = true

/-! ## Verification -/

/-- What an algorithm makes of a key: a test of a signature on an input. -/
def verifier (a : SignatureAlgorithm) (key : Option Key) : Result (Bytes → Bytes → Bool) :=
  match a with
  | unsecured => (fun _ signature _ => signature.isEmpty) <$> requireNoKey key
  | hmac hash => (fun secret signature input =>
      decide (Hash.hmac hash secret input = signature)) <$> secretOf a.id key
  | rsa hash => Rsa.verify hash <$> rsaVerifyingKey a.id key
  | ecdsa c => Ecdsa.verify <$> ecVerifyingKey a.id c key

theorem verify_eq_map (a : SignatureAlgorithm) (key : Option Key) (signature input : Bytes) :
    a.verify key signature input = (fun test => test signature input) <$> a.verifier key := by
  cases a with
  | unsecured =>
    rw [verify, verifier]
    cases requireNoKey key <;> rfl
  | hmac hash =>
    simp only [verify, verifier]
    cases secretOf (hmac hash).id key <;> rfl
  | rsa hash =>
    simp only [verify, verifier]
    cases rsaVerifyingKey (rsa hash).id key <;> rfl
  | ecdsa c =>
    simp only [verify, verifier]
    cases ecVerifyingKey (ecdsa c).id c key <;> rfl

theorem verifier_faults (a : SignatureAlgorithm) (key : Option Key) :
    OnlyKeyFaults (a.verifier key) := by
  cases a with
  | unsecured => exact (requireNoKey_faults key).map _
  | hmac hash => exact (secretOf_faults _ key).map _
  | rsa hash => exact (rsaVerifyingKey_faults _ key).map _
  | ecdsa c => exact (ecVerifyingKey_faults _ c key).map _

theorem takes_of_verifier {a : SignatureAlgorithm} {key : Option Key}
    {test : Bytes → Bytes → Bool} (h : a.verifier key = .ok test) : Takes a key := by
  cases a with
  | unsecured =>
    obtain ⟨u, hkey, -⟩ := map_eq_ok_iff.mp h
    obtain rfl := requireNoKey_eq_ok_iff.mp hkey
    exact .unsecured
  | hmac hash =>
    obtain ⟨secret, hkey, -⟩ := map_eq_ok_iff.mp h
    obtain rfl := secretOf_eq_ok_iff.mp hkey
    exact .hmac hash secret
  | rsa hash =>
    obtain ⟨k, hkey, -⟩ := map_eq_ok_iff.mp h
    rcases rsaVerifyingKey_eq_ok_iff.mp hkey with rfl | ⟨k', rfl, -⟩
    · exact .rsaPublic hash k
    · exact .rsaPrivate hash k'
  | ecdsa c =>
    obtain ⟨k, hkey, -⟩ := map_eq_ok_iff.mp h
    obtain ⟨rfl, rfl | ⟨k', rfl, rfl⟩⟩ := ecVerifyingKey_eq_ok_iff.mp hkey
    · exact .ecPublic k
    · exact .ecPrivate k'

theorem Takes.exists_verifier {a : SignatureAlgorithm} {key : Option Key} (h : Takes a key) :
    ∃ test, a.verifier key = .ok test := by
  cases h with
  | unsecured => exact ⟨_, rfl⟩
  | hmac | rsaPrivate | rsaPublic => exact ⟨_, rfl⟩
  | ecPrivate k =>
    exact ⟨_, map_eq_ok_iff.mpr ⟨_, ecVerifyingKey_of_counterpart (.inl rfl), rfl⟩⟩
  | ecPublic k =>
    exact ⟨_, map_eq_ok_iff.mpr ⟨k, ecVerifyingKey_eq_ok_iff.mpr ⟨rfl, .inl rfl⟩, rfl⟩⟩

theorem verify_of_verifier {a : SignatureAlgorithm} {key : Option Key}
    {test : Bytes → Bytes → Bool}
    (h : a.verifier key = .ok test) (signature input : Bytes) :
    a.verify key signature input = .ok (test signature input) := by
  rw [verify_eq_map, h]
  rfl

theorem exists_fault_of_not_takes {a : SignatureAlgorithm} {key : Option Key}
    (h : ¬Takes a key) :
    ∃ detail, ∀ signature input, a.verify key signature input =
      .error (.keyValidation detail) := by
  cases hverifier : a.verifier key with
  | ok test => exact absurd (takes_of_verifier hverifier) h
  | error e =>
    obtain ⟨detail, rfl⟩ := verifier_faults a key e hverifier
    refine ⟨detail, fun signature input => ?_⟩
    rw [verify_eq_map, hverifier]
    rfl

theorem takes_of_verify {a : SignatureAlgorithm} {key : Option Key}
    {signature input : Bytes} {valid : Bool}
    (h : a.verify key signature input = .ok valid) : Takes a key := by
  by_contra hother
  obtain ⟨detail, hfault⟩ := exists_fault_of_not_takes hother
  rw [hfault] at h
  cases h

/-- The check asks for a key of the family first, and only then for its strength. -/
theorem exists_verifier_of_validate {a : SignatureAlgorithm} {key : Option Key}
    (h : a.validateVerificationKey key = .ok ()) : ∃ test, a.verifier key = .ok test := by
  cases a with
  | unsecured => exact ⟨_, map_eq_ok_iff.mpr ⟨(), h, rfl⟩⟩
  | hmac hash =>
    obtain ⟨secret, hkey, -⟩ := bind_eq_ok_iff.mp h
    exact ⟨_, map_eq_ok_iff.mpr ⟨secret, hkey, rfl⟩⟩
  | rsa hash =>
    obtain ⟨k, hkey, -⟩ := bind_eq_ok_iff.mp h
    exact ⟨_, map_eq_ok_iff.mpr ⟨k, hkey, rfl⟩⟩
  | ecdsa c =>
    obtain ⟨k, hkey, -⟩ := map_eq_ok_iff.mp h
    obtain ⟨rfl, hcurve⟩ := ecKey_eq_ok_iff.mp hkey
    cases k with
    | ecPrivate k =>
      obtain rfl := Option.some.inj hcurve
      exact (Takes.ecPrivate k).exists_verifier
    | ecPublic k =>
      obtain rfl := Option.some.inj hcurve
      exact (Takes.ecPublic k).exists_verifier
    | symmetric | rsaPrivate | rsaPublic => cases hcurve

/-! ## Signing -/

theorem Signs.signsWith {input : Bytes} {a : SignatureAlgorithm} {key : Option Key}
    {signature : Bytes} (h : Signs input a key signature) : SignsWith a key := by
  cases h with
  | unsecured => exact ⟨.unsecured, fun h => by cases h⟩
  | hmac hash secret => exact ⟨.hmac hash secret, fun h => by cases h⟩
  | rsa h => exact ⟨.rsaPrivate _ _, fun _ => ⟨_, rfl, rfl⟩⟩
  | ecdsa h => exact ⟨.ecPrivate _, fun _ => ⟨_, rfl, rfl⟩⟩

theorem sign_ne_keyValidation {a : SignatureAlgorithm} {key : Option Key}
    (h : a.validateSigningKey key = .ok ())
    (input : Bytes) (detail : String) :
    a.sign key input ≠ .error (.keyValidation detail) := by
  intro hsign
  cases a with
  | unsecured =>
    obtain rfl := requireNoKey_eq_ok_iff.mp h
    cases hsign
  | hmac hash =>
    obtain ⟨secret, hkey, -⟩ := bind_eq_ok_iff.mp h
    obtain rfl := secretOf_eq_ok_iff.mp hkey
    cases hsign
  | rsa hash =>
    obtain ⟨k, hkey, -⟩ := bind_eq_ok_iff.mp h
    simp only [sign, hkey, bind, Except.bind] at hsign
    split at hsign <;> cases hsign
  | ecdsa c =>
    obtain ⟨k, hkey, -⟩ := map_eq_ok_iff.mp h
    simp only [sign, hkey, bind, Except.bind] at hsign
    split at hsign <;> cases hsign

/-! ## Key pairs -/

theorem ecKey_publicHalf (id : String) (c : Curve) (k : Ecdsa.SigningKey) :
    ecKey id c (some (.ecPublic k.verifyingKey)) =
      (fun _ => Key.ecPublic k.verifyingKey) <$> ecKey id c (some (.ecPrivate k)) := by
  show (if k.curve = c then _ else _) = _ <$> (if k.curve = c then _ else _)
  split <;> rfl

/-- The errors name the type of a key and its curve, which the halves share. -/
theorem verifier_publicHalf {k k' : Key} (a : SignatureAlgorithm)
    (hprivate : k.isPrivate = true)
    (h : k.publicKey? = some k') : a.verifier (some k') = a.verifier (some k) ∧
      a.validateVerificationKey (some k') = a.validateVerificationKey (some k) := by
  cases k with
  | symmetric | rsaPublic | ecPublic => cases hprivate
  | rsaPrivate k =>
    cases h
    cases a <;> exact ⟨rfl, rfl⟩
  | ecPrivate k =>
    cases h
    cases a with
    | unsecured | hmac | rsa => exact ⟨rfl, rfl⟩
    | ecdsa c =>
      simp only [verifier, ecVerifyingKey, validateVerificationKey, ecKey_publicHalf]
      cases hkey : ecKey (ecdsa c).id c (some (.ecPrivate k)) with
      | error e => exact ⟨rfl, rfl⟩
      | ok own =>
        obtain ⟨⟨⟩, -⟩ := ecKey_eq_ok_iff.mp hkey
        exact ⟨rfl, rfl⟩

/-- What the key settles of an algorithm, whatever is signed or verified: to verify fails
for every signature and input in the same way, with an error of the key, or for none; to
sign takes a key of the family that can sign; a key that passed its check meets no error
of the key; and a public half does what the private one does. -/
structure SettledByKey (a : SignatureAlgorithm) (key : Option Key) : Prop where
  verify :
    (Takes a key ∧
      ∀ signature input, ∃ valid, a.verify key signature input = .ok valid) ∨
    (¬Takes a key ∧
      ∃ detail, ∀ signature input,
        a.verify key signature input = .error (.keyValidation detail))
  sign : ∀ input signature, a.sign key input = .ok signature → SignsWith a key
  validatedSigning : a.validateSigningKey key = .ok () →
    ∀ input detail, a.sign key input ≠ .error (.keyValidation detail)
  validatedVerification : a.validateVerificationKey key = .ok () →
    ∀ signature input, ∃ valid, a.verify key signature input = .ok valid
  publicHalf : ∀ k ∈ key, k.isPrivate = true → ∃ k', k.publicKey? = some k' ∧
    k'.isPrivate = false ∧
    (∀ signature input, a.verify (some k') signature input = a.verify key signature input) ∧
    a.validateVerificationKey (some k') = a.validateVerificationKey key

theorem exists_publicKey {k : Key} (h : k.isPrivate = true) :
    ∃ k', k.publicKey? = some k' ∧ k'.isPrivate = false := by
  cases k with
  | rsaPrivate | ecPrivate => exact ⟨_, rfl, rfl⟩
  | symmetric | rsaPublic | ecPublic => cases h

theorem settledByKey (a : SignatureAlgorithm) (key : Option Key) : SettledByKey a key := by
  constructor
  · by_cases h : Takes a key
    · left
      obtain ⟨test, htest⟩ := h.exists_verifier
      exact ⟨h, fun signature input => ⟨_, verify_of_verifier htest signature input⟩⟩
    · right
      exact ⟨h, exists_fault_of_not_takes h⟩
  · intro input signature h
    exact (signs_of_sign h).signsWith
  · exact fun h => sign_ne_keyValidation h
  · intro h signature input
    obtain ⟨test, htest⟩ := exists_verifier_of_validate h
    exact ⟨_, verify_of_verifier htest signature input⟩
  · rintro k ⟨⟩ hprivate
    obtain ⟨k', hhalf, hpublic⟩ := exists_publicKey hprivate
    obtain ⟨hverifier, hvalidate⟩ := verifier_publicHalf a hprivate hhalf
    refine ⟨k', hhalf, hpublic, fun signature input => ?_, hvalidate⟩
    rw [verify_eq_map, verify_eq_map, hverifier]

end SignatureAlgorithm
end Jose
