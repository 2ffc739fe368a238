import Jose.Proofs.Consumer.Process
import Jose.Proofs.Encrypted.RoundTrip
import Jose.Proofs.Signed.RoundTrip
import Jose.Proofs.Text.Charset

/-! One layer put around a text, and opened again by who has the same keys. The text goes
in through the charset of the sender and comes out as UTF-8, so the charset has to write
it the way UTF-8 does. A token is ASCII, which all charsets write alike. -/
namespace Jose
open Text Result Hash

theorem SignatureAlgorithm.validateSigningKey_hmac {hash : Sha2} {secret : Bytes}
    (h : minSecretBytes hash ≤ secret.length) :
    (hmac hash).validateSigningKey (some (.symmetric secret)) = .ok () := by
  show Key.validateSecret _ (minSecretBytes hash) secret = .ok ()
  rw [Key.validateSecret, if_neg (Nat.not_lt.mpr h)]

theorem SignatureAlgorithm.verify_hmac (hash : Sha2) (secret input : Bytes) :
    (hmac hash).verify (some (.symmetric secret)) (Hash.hmac hash secret input) input =
      .ok true :=
  congrArg Except.ok (decide_eq_true rfl)

theorem Signed.defaultConstraints_allows_hmac (config : Config) (hash : Sha2) :
    (defaultConstraints config).allows (SignatureAlgorithm.hmac hash).id = true := by
  rw [defaultConstraints]
  cases config.allowNone <;> cases hash <;> decide

namespace Signed
variable {hash : Sha2} {secret : Bytes} {s s' : Signed}

/-- What is set to sign with a MAC: its name and a secret that is long enough. Whether it
is allowed is another matter. -/
structure MacReady (hash : Sha2) (secret : Bytes) (s : Signed) : Prop where
  algorithm : s.envelope.headers.string? "alg" = some (SignatureAlgorithm.hmac hash).id
  key : s.envelope.key = some (.symmetric secret)
  strong : SignatureAlgorithm.minSecretBytes hash ≤ secret.length

def withMac (hash : Sha2) (secret : Bytes) (s : Signed) : Signed :=
  { s with signature := hmac hash secret s.signingInput, envelope := s.envelope.touch }

theorem Canonical.withMac (h : Canonical s) (hash : Sha2) (secret : Bytes) :
    Canonical (s.withMac hash secret) :=
  ⟨h.header, h.payload⟩

/-- The payload has no part in it. -/
theorem MacReady.setPayloadBytes (h : s.MacReady hash secret) (payload : Bytes) :
    (s.setPayloadBytes payload).MacReady hash secret := ⟨h.algorithm, h.key, h.strong⟩

theorem MacReady.sign_eq_ok_iff (h : s.MacReady hash secret) :
    s.sign = .ok s' ↔ (∃ a, s.algorithm = .ok a) ∧ s' = s.withMac hash secret := by
  have hsigns : (SignatureAlgorithm.hmac hash).sign s.envelope.key s.signingInput =
      .ok (hmac hash secret s.signingInput) := by
    rw [h.key]
    rfl
  have hvalid : s.envelope.validateKey (SignatureAlgorithm.hmac hash).validateSigningKey =
      .ok () := by
    refine Envelope.validateKey_eq_ok_iff.mpr fun _ => ?_
    rw [h.key]
    exact SignatureAlgorithm.validateSigningKey_hmac h.strong
  have hfound : ∀ a, s.algorithm = .ok a → a = .hmac hash := by
    intro a ha
    have hid := (algorithm_eq_ok_iff.mp ha).1
    exact SignatureAlgorithm.id_inj (Option.some.inj (hid.symm.trans h.algorithm))
  rw [Signed.sign_eq_ok_iff]
  constructor
  · rintro ⟨a, signature, ha, -, hsignature, rfl⟩
    obtain rfl := hfound a ha
    rw [hsigns] at hsignature
    cases hsignature
    exact ⟨⟨_, ha⟩, rfl⟩
  · rintro ⟨⟨a, ha⟩, rfl⟩
    obtain rfl := hfound a ha
    exact ⟨_, _, ha, hvalid, hsigns, rfl⟩

end Signed

/-- A layer that is yet to be put around a text: an envelope without a content, and the
vector that is drawn for an encrypted one. -/
inductive Wrapper where
  | signed (s : Signed)
  | encrypted (e : Encrypted) (fresh : Bytes)

namespace Wrapper

def envelope : Wrapper → Envelope
  | signed s => s.envelope
  | encrypted e _ => e.envelope

def charset : Wrapper → Charset
  | signed s => s.charset
  | encrypted e _ => e.charset

def isSigned : Wrapper → Bool
  | signed _ => true
  | encrypted _ _ => false

def contentType? (w : Wrapper) : Option String := w.envelope.headers.string? "cty"

def wrap : Wrapper → String → Result String
  | signed s, text => do
    let s ← s.setPayload text
    s.compact.1
  | encrypted e fresh, text => do
    let e ← e.setPlaintext text
    (e.compact fresh).1

/-- Signed with one of the three MACs under the secret, or encrypted under the key as it
is; nothing is marked as critical, and the header can be read again. -/
inductive Fits (secret key : Bytes) : Wrapper → Prop where
  | signed {config : Config} {age : Option Nat} {s : Signed} {hash : Sha2}
    (reached : s.ReachedBy Signed.Op.WellFormed config age) (ready : s.MacReady hash secret)
    (critical : s.envelope.headers.get? "crit" = none)
    (depth : s.envelope.headers.value.depth ≤ Json.maxDepth) : Fits secret key (.signed s)
  | encrypted {e : Encrypted} {fresh : Bytes} {x : ContentEncryption}
      (reached : Encrypted.Reached e)
    (management : e.envelope.headers.string? "alg" = some KeyManagement.direct.id)
    (encryption : e.envelope.headers.string? "enc" = some x.id)
    (shared : e.envelope.key = some (.symmetric key)) (fits : key.length = x.keyBytes)
    (critical : e.envelope.headers.get? "crit" = none)
    (depth : e.envelope.headers.value.depth ≤ Json.maxDepth) :
    Fits secret key (.encrypted e fresh)

/-- The charset writes the text as UTF-8 does. -/
def Writes (w : Wrapper) (text : String) : Prop :=
  w.charset.encode text = .ok (Utf8.encode text)

theorem writes_of_ascii {text : String} (h : ∀ c ∈ text.toList, c.toNat < 128)
    (w : Wrapper) : w.Writes text :=
  Charset.encode_of_ascii h w.charset

/-- The constraints of the sender allow the algorithms, and an encrypted layer has a
vector of one block and a header whose length in bits fits the field for it. -/
def Permitted : Wrapper → Prop
  | signed s => ∃ a, s.algorithm = .ok a
  | encrypted e fresh => (∃ m x, e.keyManagement = .ok m ∧ e.contentEncryption = .ok x) ∧
    (e.chosenIv.getD fresh).length = 16 ∧ e.associatedData.length * 8 < UInt64.size

/-- What the receiver has of a layer: an object of the same kind, whose header holds the
same texts. -/
structure Shows (w : Wrapper) (object : Object) : Prop where
  kind : object.isSigned = w.isSigned
  texts : ∀ name, object.headers.string? name = w.envelope.headers.string? name

/-! ## Writing -/

variable {secret key : Bytes} {s : Signed} {e : Encrypted} {fresh : Bytes}
  {text token : String}

theorem wrap_signed_eq_ok_iff {config : Config} {age : Option Nat} {hash : Sha2}
    {payload : Bytes}
    (hreached : s.ReachedBy Signed.Op.WellFormed config age) (hready : s.MacReady hash secret)
    (hencode : s.charset.encode text = .ok payload) :
    (signed s).wrap text = .ok token ↔
      (signed s).Permitted ∧
        token = ((s.setPayloadBytes payload).withMac hash secret).token := by
  have hset : s.setPayload text = .ok (s.setPayloadBytes payload) :=
    Signed.setPayload_eq_ok_iff.mpr ⟨_, hencode, rfl⟩
  have hwrap : (signed s).wrap text = (s.setPayloadBytes payload).compact.1 := by
    rw [wrap, hset]
    rfl
  rw [hwrap, Signed.compact_eq_ok_iff]
  simp only [(hready.setPayloadBytes _).sign_eq_ok_iff]
  constructor
  · rintro ⟨_, ⟨hfound, rfl⟩, -, rfl⟩
    exact ⟨hfound, rfl⟩
  · rintro ⟨hfound, rfl⟩
    exact ⟨_, ⟨hfound, rfl⟩, (Signed.faithful_of_reachedBy hreached).isEmpty_encoded, rfl⟩

theorem wrap_encrypted_eq_ok_iff {x : ContentEncryption} (hreached : Encrypted.Reached e)
    (hready : (e.setPlaintextBytes (Utf8.encode text)).Ready x key (Utf8.encode text))
    (hwrites : (encrypted e fresh).Writes text) :
    (encrypted e fresh).wrap text = .ok token ↔
      Encrypted.Allowing x e.envelope.constraints e.contentConstraints ∧
      ∃ content, x.encrypt (Utf8.encode text) e.associatedData key (e.chosenIv.getD fresh) =
        .ok content ∧
        token = Compact.join
          ((e.setPlaintextBytes (Utf8.encode text)).withContent content).segments := by
  have hfaithful : e.envelope.headers.Faithful := Encrypted.faithful_of_reached hreached
  have hencode : e.charset.encode text = .ok (Utf8.encode text) := hwrites
  have hwrap : (encrypted e fresh).wrap text =
      ((e.setPlaintextBytes (Utf8.encode text)).compact fresh).1 := by
    rw [wrap, Encrypted.setPlaintext, hencode]
    rfl
  rw [hwrap]
  exact hready.compact_eq_ok_iff hfaithful

theorem exists_wrap_encrypted_iff {x : ContentEncryption} (hreached : Encrypted.Reached e)
    (hready : (e.setPlaintextBytes (Utf8.encode text)).Ready x key (Utf8.encode text))
    (hwrites : (encrypted e fresh).Writes text) :
    (∃ token, (encrypted e fresh).wrap text = .ok token) ↔ (encrypted e fresh).Permitted := by
  simp only [wrap_encrypted_eq_ok_iff hreached hready hwrites]
  constructor
  · rintro ⟨_, ⟨hmanages, hencrypts⟩, content, hencrypt, -⟩
    have hiv : (e.chosenIv.getD fresh).length = 16 :=
      (ContentEncryption.encrypt_eq_ok_iff.mp hencrypt).2.2.1
    exact ⟨⟨.direct, x, Encrypted.keyManagement_eq_ok_iff.mpr ⟨hready.management, hmanages⟩,
      Encrypted.contentEncryption_eq_ok_iff.mpr ⟨hready.encryption, hencrypts⟩⟩, hiv,
      (ContentEncryption.exists_encrypt_iff _ _ hready.fits hiv).mp ⟨content, hencrypt⟩⟩
  · rintro ⟨⟨m, y, hm, hy⟩, hiv, hsize⟩
    obtain ⟨hmid, hmanages⟩ := Encrypted.keyManagement_eq_ok_iff.mp hm
    obtain ⟨hyid, hencrypts⟩ := Encrypted.contentEncryption_eq_ok_iff.mp hy
    rw [Option.some.inj (hmid.symm.trans hready.management)] at hmanages
    rw [Option.some.inj (hyid.symm.trans hready.encryption)] at hencrypts
    obtain ⟨content, hencrypt⟩ :=
      (ContentEncryption.exists_encrypt_iff (Utf8.encode text) e.associatedData hready.fits
        hiv).mpr hsize
    exact ⟨_, ⟨hmanages, hencrypts⟩, content, hencrypt, rfl⟩

/-- Whether a layer can be put around a text does not depend on the text. -/
theorem Fits.exists_wrap_iff {w : Wrapper} (hw : w.Fits secret key)
    (hwrites : w.Writes text) : (∃ token, w.wrap text = .ok token) ↔ w.Permitted := by
  cases hw with
  | signed hreached hready =>
    simp only [wrap_signed_eq_ok_iff hreached hready hwrites]
    exact ⟨fun ⟨_, hpermitted, _⟩ => hpermitted, fun hpermitted => ⟨_, hpermitted, rfl⟩⟩
  | encrypted hreached hmanagement hencryption hshared hfits _ hdepth =>
    exact exists_wrap_encrypted_iff hreached ⟨hmanagement, hencryption, hshared, hfits, rfl,
      hdepth⟩ hwrites

theorem Fits.ascii_of_wrap {w : Wrapper} (hw : w.Fits secret key) (hwrites : w.Writes text)
    (htoken : w.wrap text = .ok token) : ∀ c ∈ token.toList, c.toNat < 128 := by
  cases hw with
  | signed hreached hready =>
    obtain ⟨-, rfl⟩ := (wrap_signed_eq_ok_iff hreached hready hwrites).mp htoken
    have hcanonical :=
      (Signed.canonical_of_reached hreached.reached).setPayloadBytes (Utf8.encode text)
    exact (hcanonical.withMac _ _).ascii_token
  | encrypted hreached hmanagement hencryption hshared hfits _ hdepth =>
    obtain ⟨-, content, -, rfl⟩ := (wrap_encrypted_eq_ok_iff hreached
      ⟨hmanagement, hencryption, hshared, hfits, rfl, hdepth⟩ hwrites).mp htoken
    have hfaithful := Encrypted.faithful_of_reached hreached
    exact Compact.ascii_join_of_encodings (Encrypted.encodings_segments hfaithful.wireEncoded)

end Wrapper

namespace Consumer

/-- The consumer has the two keys, and no policy on algorithms of its own. -/
structure Shares (secret key : Bytes) (c : Consumer) : Prop where
  verifies : c.skipsVerification = false
  verificationKey : c.verificationKey = some (.symmetric secret)
  decryptionKey : c.decryptionKey = some (.symmetric key)
  signatures : c.signatureConstraints = none
  management : c.keyManagementConstraints = none
  contents : c.contentConstraints = none

variable {c : Consumer} {secret key : Bytes} {s : Signed} {e : Encrypted} {fresh : Bytes}
  {text token : String}

theorem Shares.allowsSignature (h : c.Shares secret key) (hash : Sha2) :
    c.AllowsSignature (.hmac hash) := by
  rw [AllowsSignature, h.signatures]
  exact .inr (Signed.defaultConstraints_allows_hmac c.config hash)

theorem Shares.keyFor (h : c.Shares secret key) (hash : Sha2) :
    c.keyFor (.hmac hash) = some (.symmetric secret) := by
  rw [Consumer.keyFor, if_neg SignatureAlgorithm.noConfusion, h.verificationKey]

theorem headers_verified (hverify : c.skipsVerification = false) (p : Signed) :
    (c.verified p).envelope.headers = p.envelope.headers := by
  rw [verified, prepareSigned_eq hverify]

/-- The receiver has what the sender wrote, and computes the same MAC. -/
theorem exists_layer_signed {config : Config} {age : Option Nat} {hash : Sha2}
    (hc : c.Shares secret key)
    (hreached : s.ReachedBy Signed.Op.WellFormed config age) (hready : s.MacReady hash secret)
    (hcritical : s.envelope.headers.get? "crit" = none)
    (hdepth : s.envelope.headers.value.depth ≤ Json.maxDepth)
    (hwrites : (Wrapper.signed s).Writes text)
    (htoken : (Wrapper.signed s).wrap text = .ok token) :
    ∃ object, c.Layer token object text ∧ (Wrapper.signed s).Shows object := by
  obtain ⟨-, rfl⟩ := (Wrapper.wrap_signed_eq_ok_iff hreached hready hwrites).mp htoken
  have hcanonical :=
    (Signed.canonical_of_reached hreached.reached).setPayloadBytes (Utf8.encode text)
  have hfaithful : s.envelope.headers.Faithful := Signed.faithful_of_reachedBy hreached
  obtain ⟨p, hparse, hcopies⟩ :=
    (hcanonical.withMac hash secret).exists_copies hfaithful hdepth
      hfaithful.isEmpty_encoded c.config
  obtain ⟨_, _, _, _, _, _, -, -, -, -, -, hp⟩ := Signed.parse_eq_ok_iff.mp hparse
  have hdefault : p.envelope.constraints = Signed.defaultConstraints c.config := by
    rw [hp]; rfl
  have hcharset : p.charset = .utf8 := by rw [hp]; rfl
  have hjudge : (c.prepareSigned p).judge = .ok true := by
    refine (judge_prepareSigned_eq_ok_iff hc.verifies hdefault).mpr
      ⟨.hmac hash, (hcopies.headers.string? "alg").trans hready.algorithm,
        hc.allowsSignature hash, fun _ => ?_,
        hcopies.headers.critical _ (.inl hcritical), ?_⟩
    · rw [hc.keyFor]
      exact SignatureAlgorithm.validateSigningKey_hmac hready.strong
    · rw [hc.keyFor, hcopies.signature, hcopies.signingInput]
      exact SignatureAlgorithm.verify_hmac hash secret _
  have hcontent : p.charset.decode p.payload = .ok text := by
    rw [hcharset, hcopies.payload]
    exact Charset.decode_utf8_encode text
  refine ⟨.signed (c.verified p), ?_, ⟨rfl, fun name => ?_⟩⟩
  · refine (openLayer_eq_ok_iff hc.verifies).mp
      (bind_eq_ok_iff.mpr ⟨_, Object.parse_eq_ok_signed_iff.mpr hparse, ?_⟩)
    exact (openSigned_eq_ok_iff hc.verifies hcopies.verdict).mpr ⟨hjudge, hcontent, rfl⟩
  · rw [Object.headers, headers_verified hc.verifies]
    exact hcopies.headers.string? name

theorem exists_layer_encrypted {x : ContentEncryption} (hc : c.Shares secret key)
    (hreached : Encrypted.Reached e)
    (hready : (e.setPlaintextBytes (Utf8.encode text)).Ready x key (Utf8.encode text))
    (hcritical : e.envelope.headers.get? "crit" = none)
    (hwrites : (Wrapper.encrypted e fresh).Writes text)
    (htoken : (Wrapper.encrypted e fresh).wrap text = .ok token) :
    ∃ object, c.Layer token object text ∧ (Wrapper.encrypted e fresh).Shows object := by
  obtain ⟨-, content, hencrypt, rfl⟩ :=
    (Wrapper.wrap_encrypted_eq_ok_iff hreached hready hwrites).mp htoken
  obtain ⟨-, hdecrypt⟩ := ContentEncryption.decrypt_of_encrypt hencrypt
  have hfaithful : e.envelope.headers.Faithful := Encrypted.faithful_of_reached hreached
  obtain ⟨headers, hrereads⟩ := hfaithful.exists_rereads hready.depth
  have hparse := Encrypted.parse_segments hfaithful.wireEncoded hrereads hdecrypt
  have hdata : (Encrypted.ofParts headers [] content).associatedData = e.associatedData :=
    congrArg Utf8.encode hrereads.encoded
  have hdecipher : (c.prepareEncrypted (Encrypted.ofParts headers [] content)).decipher =
      .ok (Utf8.encode text) := by
    refine (decipher_prepareEncrypted_eq_ok_iff rfl rfl).mpr ⟨.direct, x, key,
      (hrereads.string? "alg").trans hready.management,
        (hrereads.string? "enc").trans hready.encryption, ?_, ?_,
      hrereads.critical _ (.inl hcritical), rfl, hc.decryptionKey, ?_⟩
    · simp [hc.management]
    · simp [hc.contents]
    · rw [hdata]
      exact hdecrypt
  refine ⟨.encrypted
    (c.deciphered (Encrypted.ofParts headers [] content) (Utf8.encode text)), ?_,
    ⟨rfl, hrereads.string?⟩⟩
  refine (openLayer_eq_ok_iff hc.verifies).mp
    (bind_eq_ok_iff.mpr ⟨_, Object.parse_eq_ok_encrypted_iff.mpr hparse, ?_⟩)
  exact (openEncrypted_eq_ok_iff rfl).mpr ⟨_, hdecipher, Charset.decode_utf8_encode text, rfl⟩

theorem exists_layer {w : Wrapper} (hc : c.Shares secret key) (hw : w.Fits secret key)
    (hwrites : w.Writes text) (htoken : w.wrap text = .ok token) :
    ∃ object, c.Layer token object text ∧ w.Shows object := by
  cases hw with
  | signed hreached hready hcritical hdepth =>
    exact exists_layer_signed hc hreached hready hcritical hdepth hwrites htoken
  | encrypted hreached hmanagement hencryption hshared hfits hcritical hdepth =>
    exact exists_layer_encrypted hc hreached ⟨hmanagement, hencryption, hshared, hfits, rfl,
      hdepth⟩ hcritical hwrites htoken

end Consumer
end Jose
