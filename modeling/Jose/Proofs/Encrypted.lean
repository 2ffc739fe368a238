import Jose.Encrypted
import Jose.Proofs.Algorithm.Basic
import Jose.Proofs.Algorithm.ContentEncryption
import Jose.Proofs.Algorithm.KeyManagement
import Jose.Proofs.Compact.Layout
import Jose.Proofs.Envelope

/-! What it takes to read an encrypted envelope and to decipher its content. -/
namespace Jose.Encrypted
open Text Result

/-- The envelope as it comes from the wire, before anything else is set. -/
def ofParts (headers : Headers) (encryptedKey : Bytes) (content : Protected) : Encrypted :=
  { new with envelope := { new.envelope with headers }, encryptedKey, content }

theorem deserialize_eq_ok_iff {token header wrapped iv ciphertext tag : String} :
    layout.deserialize token = .ok [header, wrapped, iv, ciphertext, tag] ↔
      Compact.split token = [header, wrapped, iv, ciphertext, tag] ∧ header.isEmpty = false ∧
        iv.isEmpty = false ∧ ciphertext.isEmpty = false := by
  rw [Compact.deserialize_eq_ok_iff (by simp)]
  simp [Compact.lastMayBeEmpty, Compact.allows, layout, Compact.allowingEmpty]

theorem parse_eq_ok_iff {token : String} {e : Encrypted} :
    parse token = .ok e ↔ ∃ header wrapped iv ciphertext tag headers encryptedKey content,
      Compact.split token = [header, wrapped, iv, ciphertext, tag] ∧
        (header.isEmpty = false ∧ iv.isEmpty = false ∧ ciphertext.isEmpty = false) ∧
        Headers.parse header = .ok headers ∧ Base64Url.decode wrapped = .ok encryptedKey ∧
        Base64Url.decode iv = .ok content.iv ∧
        Base64Url.decode ciphertext = .ok content.ciphertext ∧
        Base64Url.decode tag = .ok content.tag ∧
          e = ofParts headers encryptedKey content := by
  unfold parse
  simp only [bind_eq_ok_iff]
  constructor
  · rintro ⟨parts, hparts, h⟩
    split at h
    · next header wrapped iv ciphertext tag =>
      obtain ⟨hsplit, hfull⟩ := deserialize_eq_ok_iff.mp hparts
      obtain ⟨headers, hheaders, h⟩ := bind_eq_ok_iff.mp h
      obtain ⟨encryptedKey, hkey, h⟩ := bind_eq_ok_iff.mp h
      obtain ⟨vector, hiv, h⟩ := bind_eq_ok_iff.mp h
      obtain ⟨blocks, hciphertext, h⟩ := bind_eq_ok_iff.mp h
      obtain ⟨mark, htag, h⟩ := bind_eq_ok_iff.mp h
      cases h
      exact ⟨header, wrapped, iv, ciphertext, tag, headers, encryptedKey,
        ⟨blocks, vector, mark⟩, hsplit, hfull, hheaders, hkey, hiv, hciphertext, htag, rfl⟩
    · cases h
  · rintro ⟨header, wrapped, iv, ciphertext, tag, headers, encryptedKey, content,
      hsplit, hfull, hheaders, hkey, hiv, hciphertext, htag, rfl⟩
    refine ⟨_, deserialize_eq_ok_iff.mpr ⟨hsplit, hfull⟩, ?_⟩
    refine bind_eq_ok_iff.mpr ⟨headers, hheaders, ?_⟩
    refine bind_eq_ok_iff.mpr ⟨encryptedKey, hkey, ?_⟩
    refine bind_eq_ok_iff.mpr ⟨content.iv, hiv, ?_⟩
    refine bind_eq_ok_iff.mpr ⟨content.ciphertext, hciphertext, ?_⟩
    exact bind_eq_ok_iff.mpr ⟨content.tag, htag, rfl⟩

theorem keyManagement_eq_ok_iff {e : Encrypted} {m : KeyManagement} :
    e.keyManagement = .ok m ↔ e.envelope.headers.string? "alg" = some m.id ∧
      e.envelope.constraints.allows m.id = true := by
  unfold keyManagement
  simp only [bind_eq_ok_iff, Envelope.algorithmId_eq_ok_iff, Constraints.check_eq_ok_iff,
    KeyManagement.find_eq_ok_iff]
  constructor
  · rintro ⟨id, hid, ⟨⟩, hallowed, rfl⟩
    exact ⟨hid, hallowed⟩
  · rintro ⟨hid, hallowed⟩
    exact ⟨m.id, hid, (), hallowed, rfl⟩

theorem contentEncryption_eq_ok_iff {e : Encrypted} {x : ContentEncryption} :
    e.contentEncryption = .ok x ↔ e.envelope.headers.string? "enc" = some x.id ∧
      e.contentConstraints.allows x.id = true := by
  unfold contentEncryption
  cases h : e.envelope.headers.string? "enc" with
  | none => simp
  | some id =>
    simp only [bind_eq_ok_iff, Constraints.check_eq_ok_iff, ContentEncryption.find_eq_ok_iff]
    constructor
    · rintro ⟨⟨⟩, hallowed, rfl⟩
      exact ⟨rfl, hallowed⟩
    · rintro ⟨hid, hallowed⟩
      cases hid
      exact ⟨(), hallowed, rfl⟩

/-- The check of the key asks for nothing that deciphering does not ask for by itself. -/
theorem decipher_eq_ok_iff {e : Encrypted} {plaintext : Bytes} :
    e.decipher = .ok plaintext ↔ ∃ m x secret, e.keyManagement = .ok m ∧
      e.contentEncryption = .ok x ∧
        e.envelope.headers.CriticalKnown e.envelope.knownCritical ∧
      e.encryptedKey = [] ∧ e.envelope.key = some (.symmetric secret) ∧
      x.decrypt e.content e.associatedData secret = .ok plaintext := by
  unfold decipher
  simp only [bind_eq_ok_iff, Envelope.checkCritical_eq_ok_iff,
    KeyManagement.forDecryption_eq_ok_iff, KeyManagement.sharedKey_eq_ok_iff]
  constructor
  · rintro ⟨m, hm, x, hx, ⟨⟩, -, ⟨⟩, hcritical, secret, ⟨hempty, hkey, -⟩, hplaintext⟩
    exact ⟨m, x, secret, hm, hx, hcritical, hempty, hkey, hplaintext⟩
  · rintro ⟨m, x, secret, hm, hx, hcritical, hempty, hkey, hplaintext⟩
    have hlength := (ContentEncryption.decrypt_eq_ok_iff.mp hplaintext).1
    have hvalid : e.envelope.validateKey (m.validateKey · x) = .ok () :=
      Envelope.validateKey_eq_ok_iff.mpr fun _ => KeyManagement.validateKey_eq_ok_iff.mpr
        ⟨secret, KeyManagement.sharedKey_eq_ok_iff.mpr ⟨hkey, hlength⟩⟩
    exact ⟨m, hm, x, hx, (), hvalid, (), hcritical, secret, ⟨hempty, hkey, hlength⟩,
      hplaintext⟩

/-- To encrypt asks for the same check of the key, and for a plaintext. -/
theorem prepare_eq_ok_iff {e : Encrypted} {x : ContentEncryption} {keys : ContentKey}
    {plaintext : Bytes} :
    e.prepare = .ok (x, keys, plaintext) ↔ ∃ m, e.keyManagement = .ok m ∧
      e.contentEncryption = .ok x ∧ m.sharedKey e.envelope.key x = .ok keys.key ∧
      keys.encryptedKey = [] ∧ e.plaintext = some plaintext := by
  unfold prepare
  simp only [bind_eq_ok_iff, KeyManagement.forEncryption_eq_ok_iff]
  constructor
  · rintro ⟨m, hm, x', hx, ⟨⟩, -, keys', ⟨hkey, hempty⟩, h⟩
    split at h
    · next hplaintext =>
      cases h
      exact ⟨m, hm, hx, hkey, hempty, hplaintext⟩
    · cases h
  · rintro ⟨m, hm, hx, hkey, hempty, hplaintext⟩
    have hvalid : e.envelope.validateKey (m.validateKey · x) = .ok () :=
      Envelope.validateKey_eq_ok_iff.mpr fun _ =>
        KeyManagement.validateKey_eq_ok_iff.mpr ⟨_, hkey⟩
    refine ⟨m, hm, x, hx, (), hvalid, keys, ⟨hkey, hempty⟩, ?_⟩
    rw [hplaintext]
    rfl

theorem plaintextBytes_fst {e : Encrypted} (hnone : e.plaintext = none) :
    e.plaintextBytes.1 = e.decipher := by
  rw [plaintextBytes, hnone]
  cases e.decipher <;> rfl

theorem plaintextBytes_of_some {e : Encrypted} {bytes : Bytes}
    (h : e.plaintext = some bytes) : e.plaintextBytes = (.ok bytes, e) := by
  rw [plaintextBytes, h]

theorem plaintextBytes_of_decipher {e : Encrypted} {bytes : Bytes}
    (hnone : e.plaintext = none) (h : e.decipher = .ok bytes) :
    e.plaintextBytes = (.ok bytes, { e with plaintext := some bytes }) := by
  rw [plaintextBytes, hnone, h]

theorem plaintextBytes_of_error {e : Encrypted} {error : Error} (hnone : e.plaintext = none)
    (h : e.decipher = .error error) : e.plaintextBytes = (.error error, e) := by
  rw [plaintextBytes, hnone, h]

/-- A plaintext that is not there yet is deciphered. -/
theorem plaintextBytes_eq_ok_iff {e : Encrypted} {bytes : Bytes}
    (hnone : e.plaintext = none) :
    e.plaintextBytes.1 = .ok bytes ↔ e.decipher = .ok bytes := by
  rw [plaintextBytes, hnone]
  cases e.decipher <;> exact Iff.rfl

theorem plaintextText_of_decipher {e : Encrypted} {bytes : Bytes} (hnone : e.plaintext = none)
    (h : e.decipher = .ok bytes) :
    e.plaintextText = (e.charset.decode bytes, { e with plaintext := some bytes }) := by
  rw [plaintextText, plaintextBytes, hnone, h]

theorem plaintextText_of_error {e : Encrypted} {error : Error} (hnone : e.plaintext = none)
    (h : e.decipher = .error error) : e.plaintextText = (.error error, e) := by
  rw [plaintextText, plaintextBytes, hnone, h]

end Jose.Encrypted
