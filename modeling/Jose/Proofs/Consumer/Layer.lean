import Jose.Consumer
import Jose.Proofs.Object

/-! A layer of a token opens exactly if it is signed or encrypted the way the policy asks
for. The policy is said here in terms of the segments on the wire and of the settings of
the consumer. -/
namespace Jose
open Text Result

theorem SignatureAlgorithm.id_eq_none_iff {a : SignatureAlgorithm} :
    a.id = "none" ↔ a = unsecured := by
  constructor
  · intro h
    have hfound : registry.find "none" = .ok unsecured := find_eq_ok_iff.mpr rfl
    rw [find_eq_ok_iff.mpr h] at hfound
    exact Except.ok.inj hfound
  · rintro rfl
    rfl

namespace Consumer

/-! ## The policy -/

/-- An unsecured layer is verified without a key. -/
def keyFor (c : Consumer) (a : SignatureAlgorithm) : Option Key :=
  if a = .unsecured then none else c.verificationKey

/-- Set constraints decide alone. Without them an unsecured layer passes where no
signature is required, and any layer by the default policy of the configuration. -/
def AllowsSignature (c : Consumer) (a : SignatureAlgorithm) : Prop :=
  match c.signatureConstraints with
  | some constraints => constraints.allows a.id = true
  | none => (a = .unsecured ∧ c.requiresSignature = false) ∨
      (Signed.defaultConstraints c.config).allows a.id = true

/-- The token is signed by `a` under the policy, over its own header and payload segments,
and `content` is its payload. -/
structure SignedLayer (c : Consumer) (token : String) (s : Signed) (a : SignatureAlgorithm)
    (content : String) : Prop where
  parsed : Signed.parse c.config token = .ok s
  algorithm : s.envelope.headers.string? "alg" = some a.id
  allowed : c.AllowsSignature a
  critical : s.envelope.headers.CriticalKnown c.knownCritical
  key : c.validatesVerificationKey = true → a.validateVerificationKey (c.keyFor a) = .ok ()
  verified : ∃ header payload signature, Compact.split token = [header, payload, signature] ∧
    Base64Url.decode payload = .ok s.payload ∧ Base64Url.decode signature = .ok s.signature ∧
    a.verify (c.keyFor a) s.signature (Utf8.encode (header ++ "." ++ payload)) = .ok true
  content : Charset.utf8.decode s.payload = .ok content

/-- The token is encrypted by `x` under the secret that is shared, and its plaintext is
`content`. Nothing is sent in place of the secret. -/
structure EncryptedLayer (c : Consumer) (token : String) (e : Encrypted) (m : KeyManagement)
    (x : ContentEncryption) (plaintext : Bytes) (content : String) : Prop where
  parsed : Encrypted.parse token = .ok e
  algorithm : e.envelope.headers.string? "alg" = some m.id
  encryption : e.envelope.headers.string? "enc" = some x.id
  allowed : ∀ constraints ∈ c.keyManagementConstraints, constraints.allows m.id = true
  encryptionAllowed : ∀ constraints ∈ c.contentConstraints, constraints.allows x.id = true
  critical : e.envelope.headers.CriticalKnown c.knownCritical
  deciphered : ∃ header iv ciphertext tag secret,
    Compact.split token = [header, "", iv, ciphertext, tag] ∧
    Base64Url.decode iv = .ok e.content.iv ∧
    Base64Url.decode ciphertext = .ok e.content.ciphertext ∧
    Base64Url.decode tag = .ok e.content.tag ∧ c.decryptionKey = some (.symmetric secret) ∧
    x.decrypt e.content (Utf8.encode header) secret = .ok plaintext
  content : Charset.utf8.decode plaintext = .ok content

/-- The envelope set up with the policy and the key, and found valid. -/
def verified (c : Consumer) (s : Signed) : Signed :=
  { c.prepareSigned s with verdict := some ((c.prepareSigned s).envelope.generation, true) }

/-- The envelope set up with the policy and the key, and deciphered. -/
def deciphered (c : Consumer) (e : Encrypted) (plaintext : Bytes) : Encrypted :=
  { c.prepareEncrypted e with plaintext := some plaintext }

inductive Layer (c : Consumer) (token : String) : Object → String → Prop where
  | signed {s : Signed} {a : SignatureAlgorithm} {content : String}
    (h : c.SignedLayer token s a content) : Layer c token (.signed (c.verified s)) content
  | encrypted {e : Encrypted} {m : KeyManagement} {x : ContentEncryption} {plaintext : Bytes}
    {content : String} (h : c.EncryptedLayer token e m x plaintext content) :
    Layer c token (.encrypted (c.deciphered e plaintext)) content

/-! ## Signed layers -/

variable {c : Consumer}

theorem prepareSigned_eq (hverify : c.skipsVerification = false) (s : Signed) :
    c.prepareSigned s = { s with envelope := { s.envelope with
      key := if (Object.signed s).isUnsecured then none else c.verificationKey
      constraints := c.constraintsFor (Object.signed s).isUnsecured s.envelope.constraints
      validatesKeys := c.validatesVerificationKey
      knownCritical := c.knownCritical
      generation := s.envelope.generation + 1 + 1 + 1 + 1 } } := by
  rw [prepareSigned, hverify]
  rfl

theorem isUnsecured_eq {s : Signed} {a : SignatureAlgorithm}
    (h : s.envelope.headers.string? "alg" = some a.id) :
    (Object.signed s).isUnsecured = decide (a = .unsecured) := by
  rw [Object.isUnsecured, Object.algorithmId?, Object.headers, h]
  simp only [Option.some.injEq, SignatureAlgorithm.id_eq_none_iff]

theorem allows_constraintsFor_iff {a : SignatureAlgorithm} :
    (c.constraintsFor (decide (a = .unsecured))
      (Signed.defaultConstraints c.config)).allows a.id = true ↔
      c.AllowsSignature a := by
  rw [constraintsFor, AllowsSignature]
  cases c.signatureConstraints with
  | some constraints => rfl
  | none =>
    by_cases ha : a = .unsecured
    · cases hsignature : c.requiresSignature with
      | true => simp
      | false => simp [ha, Constraints.allows, Constraints.unrestricted]
    · simp [ha]

theorem judge_prepareSigned_eq_ok_iff (hverify : c.skipsVerification = false) {s : Signed}
    {valid : Bool} (hdefault : s.envelope.constraints = Signed.defaultConstraints c.config) :
    (c.prepareSigned s).judge = .ok valid ↔ ∃ a,
      s.envelope.headers.string? "alg" = some a.id ∧ c.AllowsSignature a ∧
      (c.validatesVerificationKey = true → a.validateVerificationKey (c.keyFor a) = .ok ()) ∧
      s.envelope.headers.CriticalKnown c.knownCritical ∧
      a.verify (c.keyFor a) s.signature s.signingInput = .ok valid := by
  rw [Signed.judge_eq_ok_iff]
  refine exists_congr fun a => ?_
  rw [Signed.algorithm_eq_ok_iff, prepareSigned_eq hverify, and_assoc]
  refine and_congr_right fun (ha : s.envelope.headers.string? "alg" = some a.id) => ?_
  have hkey : (if (Object.signed s).isUnsecured then none else c.verificationKey) =
      c.keyFor a := by
    rw [isUnsecured_eq ha, keyFor]
    simp only [decide_eq_true_eq]
  rw [hkey, isUnsecured_eq ha, hdefault, allows_constraintsFor_iff]
  rfl

theorem openSigned_eq_ok_iff (hverify : c.skipsVerification = false) {token content : String}
    {s : Signed} {object : Object} (hnone : s.verdict = none) :
    c.openSigned token s = .ok (object, content) ↔ (c.prepareSigned s).judge = .ok true ∧
      s.charset.decode s.payload = .ok content ∧ object = .signed (c.verified s) := by
  have hcurrent : (c.prepareSigned s).currentVerdict? = none := by
    rw [Signed.currentVerdict?, prepareSigned_eq hverify, hnone]
  have hpayload : (c.verified s).unverifiedPayload = s.charset.decode s.payload := by
    rw [verified, prepareSigned_eq hverify]
    rfl
  unfold openSigned
  simp only [hverify, Bool.false_eq_true, ↓reduceIte]
  cases hjudge : (c.prepareSigned s).judge with
  | error e => simp [Signed.verify_of_error hcurrent hjudge]
  | ok valid =>
    rw [Signed.verify_of_judge hcurrent hjudge]
    cases valid with
    | false => simp
    | true =>
      change ((c.verified s).unverifiedPayload >>= fun text =>
        pure (Object.signed (c.verified s), text)) = _ ↔ _
      simp only [bind_eq_ok_iff, pure_eq_ok_iff, hpayload, Prod.mk.injEq, true_and]
      constructor
      · rintro ⟨text, htext, rfl, rfl⟩
        exact ⟨htext, rfl⟩
      · rintro ⟨htext, rfl⟩
        exact ⟨content, htext, rfl, rfl⟩

theorem openSigned_eq_ok_iff_layer (hverify : c.skipsVerification = false)
    {token content : String}
    {s : Signed} {object : Object} (hparse : Signed.parse c.config token = .ok s) :
    c.openSigned token s = .ok (object, content) ↔
      ∃ a, c.SignedLayer token s a content ∧ object = .signed (c.verified s) := by
  obtain ⟨header, segment, tail, headers, payload, signature, hsplit, -, hheaders, hpayload,
    hsignature, hs⟩ := Signed.parse_eq_ok_iff.mp hparse
  have hnone : s.verdict = none := by rw [hs]; rfl
  have hdefault : s.envelope.constraints = Signed.defaultConstraints c.config := by
    rw [hs]; rfl
  have hcharset : s.charset = .utf8 := by rw [hs]; rfl
  have hinput : s.signingInput = Utf8.encode (header ++ "." ++ segment) := by
    rw [hs, ← Headers.encoded_of_parse hheaders]
    rfl
  rw [openSigned_eq_ok_iff hverify hnone,
    judge_prepareSigned_eq_ok_iff hverify hdefault, hcharset, hinput]
  constructor
  · rintro ⟨⟨a, halgorithm, hallowed, hkey, hcritical, hvalid⟩, hcontent, rfl⟩
    refine ⟨a, ⟨hparse, halgorithm, hallowed, hcritical, hkey, ?_, hcontent⟩, rfl⟩
    refine ⟨header, segment, tail, hsplit, ?_, ?_, hvalid⟩
    · rw [hs]; exact hpayload
    · rw [hs]; exact hsignature
  · rintro ⟨a, hlayer, rfl⟩
    obtain ⟨header', segment', tail', hsplit', -, -, hvalid⟩ := hlayer.verified
    obtain ⟨rfl, hrest⟩ := List.cons_eq_cons.mp (hsplit.symm.trans hsplit')
    obtain ⟨rfl, -⟩ := List.cons_eq_cons.mp hrest
    exact ⟨⟨a, hlayer.algorithm, hlayer.allowed, hlayer.key, hlayer.critical, hvalid⟩,
      hlayer.content, rfl⟩

/-! ## Encrypted layers -/

theorem prepareEncrypted_eq (e : Encrypted) :
    c.prepareEncrypted e = { e with
      envelope := { e.envelope with
        key := c.decryptionKey
        constraints := c.keyManagementConstraints.getD e.envelope.constraints
        validatesKeys := c.validatesDecryptionKey
        knownCritical := c.knownCritical
        generation := e.envelope.generation + 1 + 1 + 1 + 1 + 1 }
      contentConstraints := c.contentConstraints.getD e.contentConstraints } := rfl

theorem allows_getD_iff {set? : Option Constraints} {id : String} :
    (set?.getD .unrestricted).allows id = true ↔
      ∀ constraints ∈ set?, constraints.allows id = true := by
  cases set? <;> simp [Constraints.allows, Constraints.unrestricted]

theorem openEncrypted_eq_ok_iff {e : Encrypted} {object : Object} {content : String}
    (hnone : e.plaintext = none) :
    c.openEncrypted e = .ok (object, content) ↔ ∃ plaintext,
      (c.prepareEncrypted e).decipher = .ok plaintext ∧
      e.charset.decode plaintext = .ok content ∧
      object = .encrypted (c.deciphered e plaintext) := by
  have hplaintext : (c.prepareEncrypted e).plaintext = none := hnone
  rw [openEncrypted]
  cases hdecipher : (c.prepareEncrypted e).decipher with
  | error error => simp [Encrypted.plaintextText_of_error hplaintext hdecipher]
  | ok plaintext =>
    rw [Encrypted.plaintextText_of_decipher hplaintext hdecipher]
    have hcharset : (c.prepareEncrypted e).charset = e.charset := rfl
    rw [hcharset]
    cases hdecode : e.charset.decode plaintext with
    | error error =>
      simp only [Except.ok.injEq, exists_eq_left', hdecode]
      simp
    | ok text =>
      simp only [Except.ok.injEq, exists_eq_left', hdecode, Prod.mk.injEq]
      constructor
      · rintro ⟨rfl, rfl⟩
        exact ⟨rfl, rfl⟩
      · rintro ⟨rfl, rfl⟩
        exact ⟨rfl, rfl⟩

theorem decipher_prepareEncrypted_eq_ok_iff {e : Encrypted} {plaintext : Bytes}
    (hconstraints : e.envelope.constraints = .unrestricted)
    (hcontent : e.contentConstraints = .unrestricted) :
    (c.prepareEncrypted e).decipher = .ok plaintext ↔
      ∃ (m : KeyManagement) (x : ContentEncryption) (secret : Bytes),
      e.envelope.headers.string? "alg" = some m.id ∧
      e.envelope.headers.string? "enc" = some x.id ∧
      (∀ constraints ∈ c.keyManagementConstraints, constraints.allows m.id = true) ∧
      (∀ constraints ∈ c.contentConstraints, constraints.allows x.id = true) ∧
      e.envelope.headers.CriticalKnown c.knownCritical ∧ e.encryptedKey = [] ∧
      c.decryptionKey = some (.symmetric secret) ∧
      x.decrypt e.content e.associatedData secret = .ok plaintext := by
  rw [Encrypted.decipher_eq_ok_iff, prepareEncrypted_eq, hconstraints, hcontent]
  refine exists_congr fun m => exists_congr fun x => exists_congr fun secret => ?_
  rw [Encrypted.keyManagement_eq_ok_iff, Encrypted.contentEncryption_eq_ok_iff,
    allows_getD_iff, allows_getD_iff]
  constructor
  · rintro ⟨⟨ha, hma⟩, ⟨hx, hxa⟩, hcritical, hempty, hkey, hdecrypt⟩
    exact ⟨ha, hx, hma, hxa, hcritical, hempty, hkey, hdecrypt⟩
  · rintro ⟨ha, hx, hma, hxa, hcritical, hempty, hkey, hdecrypt⟩
    exact ⟨⟨ha, hma⟩, ⟨hx, hxa⟩, hcritical, hempty, hkey, hdecrypt⟩

theorem openEncrypted_eq_ok_iff_layer {token content : String} {e : Encrypted}
    {object : Object} (hparse : Encrypted.parse token = .ok e) :
    c.openEncrypted e = .ok (object, content) ↔ ∃ m x plaintext,
      c.EncryptedLayer token e m x plaintext content ∧
      object = .encrypted (c.deciphered e plaintext) := by
  obtain ⟨header, wrapped, iv, ciphertext, tag, headers, encryptedKey, parts, hsplit, -,
    hheaders, hwrapped, hiv, hciphertext, htag, he⟩ := Encrypted.parse_eq_ok_iff.mp hparse
  have hnone : e.plaintext = none := by rw [he]; rfl
  have hconstraints : e.envelope.constraints = .unrestricted := by rw [he]; rfl
  have hcontent : e.contentConstraints = .unrestricted := by rw [he]; rfl
  have hcharset : e.charset = .utf8 := by rw [he]; rfl
  have hparts : e.content = parts := by rw [he]; rfl
  have hkeyBytes : e.encryptedKey = encryptedKey := by rw [he]; rfl
  have hdata : e.associatedData = Utf8.encode header := by
    rw [he, ← Headers.encoded_of_parse hheaders]
    rfl
  have hempty : encryptedKey = [] ↔ wrapped = "" := by
    rw [Base64Url.decode_eq_ok_iff_eq_encode] at hwrapped
    constructor
    · rintro rfl
      exact hwrapped
    · rintro rfl
      exact Base64Url.encode_injective (hwrapped.symm.trans rfl)
  rw [openEncrypted_eq_ok_iff hnone, hcharset]
  simp only [decipher_prepareEncrypted_eq_ok_iff hconstraints hcontent]
  rw [hkeyBytes, hempty, hdata]
  constructor
  · rintro ⟨plaintext,
      ⟨m, x, secret, hm, hx, hma, hxa, hcritical, rfl, hkey, hdecrypt⟩, htext, rfl⟩
    refine ⟨m, x, plaintext, ⟨hparse, hm, hx, hma, hxa, hcritical, ?_, htext⟩, rfl⟩
    rw [hparts] at hdecrypt ⊢
    exact ⟨header, iv, ciphertext, tag, secret, hsplit, hiv, hciphertext, htag,
      hkey, hdecrypt⟩
  · rintro ⟨m, x, plaintext, hlayer, rfl⟩
    obtain ⟨_, _, _, _, secret, hsplit', -, -, -, hkey, hdecrypt⟩ := hlayer.deciphered
    obtain ⟨rfl, hrest⟩ := List.cons_eq_cons.mp (hsplit.symm.trans hsplit')
    obtain ⟨hwrapped', -⟩ := List.cons_eq_cons.mp hrest
    exact ⟨plaintext, ⟨m, x, secret, hlayer.algorithm, hlayer.encryption, hlayer.allowed,
      hlayer.encryptionAllowed, hlayer.critical, hwrapped', hkey, hdecrypt⟩,
        hlayer.content, rfl⟩

/-! ## Any layer -/

theorem openLayer_eq_ok_iff (hverify : c.skipsVerification = false) {token content : String}
    {object : Object} : c.openLayer token = .ok (object, content) ↔
      c.Layer token object content := by
  unfold openLayer
  rw [bind_eq_ok_iff]
  constructor
  · rintro ⟨parsed, hparsed, h⟩
    cases parsed with
    | signed s =>
      have hparse := Object.parse_eq_ok_signed_iff.mp hparsed
      obtain ⟨a, hlayer, rfl⟩ := (openSigned_eq_ok_iff_layer hverify hparse).mp h
      exact .signed hlayer
    | encrypted e =>
      have hparse := Object.parse_eq_ok_encrypted_iff.mp hparsed
      obtain ⟨m, x, plaintext, hlayer, rfl⟩ := (openEncrypted_eq_ok_iff_layer hparse).mp h
      exact .encrypted hlayer
  · intro h
    cases h with
    | signed hlayer =>
      refine ⟨_, Object.parse_eq_ok_signed_iff.mpr hlayer.parsed, ?_⟩
      exact (openSigned_eq_ok_iff_layer hverify hlayer.parsed).mpr ⟨_, hlayer, rfl⟩
    | encrypted hlayer =>
      refine ⟨_, Object.parse_eq_ok_encrypted_iff.mpr hlayer.parsed, ?_⟩
      exact (openEncrypted_eq_ok_iff_layer hlayer.parsed).mpr ⟨_, _, _, hlayer, rfl⟩

end Consumer
end Jose
