import Jose.Proofs.Encrypted.Run
import Jose.Proofs.Headers.RoundTrip

/-! A token is deciphered to the plaintext it was made of. The associated data is the
header segment, which the sender makes of the parameters and the receiver takes from the
wire, so it is the same text on both sides. -/
namespace Jose.Encrypted
open Text Result

/-! ## Writing -/

/-- The envelope that encrypting under a shared key leaves. -/
def withContent (content : Protected) (e : Encrypted) : Encrypted :=
  { e with encryptedKey := [], content, chosenIv := none }

/-- The vector and the ciphertext are never empty, so only the header is in question. -/
theorem serialize_eq_ok_iff {e : Encrypted} {x : ContentEncryption}
    {aad key plaintext : Bytes}
    (h : x.decrypt e.content aad key = .ok plaintext) {text : String} :
    layout.serialize e.segments = .ok text ↔
      e.envelope.headers.encoded.isEmpty = false ∧ text = Compact.join e.segments := by
  obtain ⟨hiv, hciphertext, -⟩ := ContentEncryption.lengths_of_decrypt h
  rw [Compact.serialize_eq_ok_iff]
  simp [segments, Compact.lastMayBeEmpty, Compact.allows, layout, Compact.allowingEmpty,
    Base64Url.isEmpty_encode (show 0 < e.content.iv.length by omega),
    Base64Url.isEmpty_encode (show 0 < e.content.ciphertext.length by omega)]

theorem compact_eq_ok_iff {e : Encrypted} {fresh : Bytes} {text : String} :
    (e.compact fresh).1 = .ok text ↔ ∃ x keys plaintext content,
      e.prepare = .ok (x, keys, plaintext) ∧
      x.encrypt plaintext e.associatedData keys.key (e.chosenIv.getD fresh) = .ok content ∧
      e.envelope.headers.encoded.isEmpty = false ∧
      text = Compact.join (e.withContent content).segments := by
  constructor
  · intro h
    rw [compact] at h
    split at h
    · cases h
    · next x keys plaintext hprepare =>
      dsimp only at h
      split at h
      · cases h
      · next content hcontent =>
        obtain ⟨m, -, -, -, hempty, -⟩ := prepare_eq_ok_iff.mp hprepare
        have hdecrypt := (ContentEncryption.decrypt_of_encrypt hcontent).2
        rw [hempty] at h
        obtain ⟨hheader, rfl⟩ :=
          (serialize_eq_ok_iff (e := e.withContent content) hdecrypt).mp h
        exact ⟨x, keys, plaintext, content, hprepare, hcontent, hheader, rfl⟩
  · rintro ⟨x, keys, plaintext, content, hprepare, hcontent, hheader, rfl⟩
    obtain ⟨m, -, -, -, hempty, -⟩ := prepare_eq_ok_iff.mp hprepare
    have hdecrypt := (ContentEncryption.decrypt_of_encrypt hcontent).2
    have hserialize :=
      (serialize_eq_ok_iff (e := e.withContent content) hdecrypt).mpr ⟨hheader, rfl⟩
    have hdata : associatedData { e with chosenIv := none } = e.associatedData := rfl
    rw [compact, hprepare]
    dsimp only
    rw [hdata, hcontent, hempty]
    exact hserialize

/-- What is set for an encryption: the two algorithms, a shared key that fits them, a
plaintext, and a header that is not nested too deep. Whether the algorithms are allowed is
another matter. -/
structure Ready (x : ContentEncryption) (secret plaintext : Bytes) (e : Encrypted) :
    Prop where
  management : e.envelope.headers.string? "alg" = some KeyManagement.direct.id
  encryption : e.envelope.headers.string? "enc" = some x.id
  key : e.envelope.key = some (.symmetric secret)
  fits : secret.length = x.keyBytes
  plaintext : e.plaintext = some plaintext
  depth : e.envelope.headers.value.depth ≤ Json.maxDepth

/-- Constraints for the one and the other algorithm that allow them both. -/
def Allowing (x : ContentEncryption) (management encryption : Constraints) : Prop :=
  management.allows KeyManagement.direct.id = true ∧ encryption.allows x.id = true

instance (x : ContentEncryption) (management encryption : Constraints) :
    Decidable (Allowing x management encryption) := inferInstanceAs (Decidable (_ ∧ _))

variable {x : ContentEncryption} {secret plaintext fresh : Bytes} {e : Encrypted}

/-- Of what an encryption asks for, only the permission is left open. -/
theorem Ready.prepare_eq_ok_iff (h : Ready x secret plaintext e)
    {p : ContentEncryption × ContentKey × Bytes} :
    e.prepare = .ok p ↔
      p = (x, ⟨secret, []⟩, plaintext) ∧
        Allowing x e.envelope.constraints e.contentConstraints := by
  obtain ⟨x', ⟨key, encryptedKey⟩, plaintext'⟩ := p
  rw [Encrypted.prepare_eq_ok_iff]
  simp only [keyManagement_eq_ok_iff, contentEncryption_eq_ok_iff,
    KeyManagement.sharedKey_eq_ok_iff]
  constructor
  · rintro ⟨⟨⟩, ⟨-, hallowed⟩, ⟨hid, hallowed'⟩, ⟨hkey, -⟩, rfl, hplaintext⟩
    cases h.key.symm.trans hkey
    cases h.plaintext.symm.trans hplaintext
    cases ContentEncryption.id_inj (Option.some.inj (h.encryption.symm.trans hid))
    exact ⟨rfl, hallowed, hallowed'⟩
  · rintro ⟨⟨⟩, hallowed, hallowed'⟩
    exact ⟨.direct, ⟨h.management, hallowed⟩, ⟨h.encryption, hallowed'⟩, ⟨h.key, h.fits⟩, rfl,
      h.plaintext⟩

theorem Ready.compact_eq_ok_iff (h : Ready x secret plaintext e)
    (hheaders : e.envelope.headers.Faithful) {text : String} :
    (e.compact fresh).1 = .ok text ↔
      Allowing x e.envelope.constraints e.contentConstraints ∧
      ∃ content, x.encrypt plaintext e.associatedData secret (e.chosenIv.getD fresh) =
        .ok content ∧
        text = Compact.join (e.withContent content).segments := by
  rw [Encrypted.compact_eq_ok_iff]
  simp only [h.prepare_eq_ok_iff]
  constructor
  · rintro ⟨_, _, _, content, ⟨⟨⟩, hallowed⟩, hcontent, -, rfl⟩
    exact ⟨hallowed, content, hcontent, rfl⟩
  · rintro ⟨hallowed, content, hcontent, rfl⟩
    obtain ⟨headers, hrereads⟩ := hheaders.exists_rereads h.depth
    exact ⟨_, _, _, content, ⟨rfl, hallowed⟩, hcontent,
      Headers.isEmpty_of_parse hrereads.parse, rfl⟩

/-! ## Reading what was written -/

theorem encodings_segments (hheaders : e.envelope.headers.WireEncoded) :
    ∀ part ∈ e.segments, ∃ bytes, part = Base64Url.encode bytes := by
  simp only [segments, List.forall_mem_cons]
  exact ⟨hheaders.exists_encoded_eq, ⟨_, rfl⟩, ⟨_, rfl⟩, ⟨_, rfl⟩, ⟨_, rfl⟩,
    fun part hpart => absurd hpart List.not_mem_nil⟩

theorem split_segments (hheaders : e.envelope.headers.WireEncoded) :
    Compact.split (Compact.join e.segments) = e.segments :=
  Compact.split_join_of_encodings (List.cons_ne_nil _ _) (encodings_segments hheaders)

/-- The token has five segments, of which that for the encrypted key is empty and the last
three decode to the content. -/
def Carries (content : Protected) (text : String) : Prop :=
  ∃ header iv ciphertext tag, Compact.split text = [header, "", iv, ciphertext, tag] ∧
    Base64Url.decode iv = .ok content.iv ∧
      Base64Url.decode ciphertext = .ok content.ciphertext ∧
    Base64Url.decode tag = .ok content.tag

theorem carries_segments (hheaders : e.envelope.headers.WireEncoded) (content : Protected) :
    Carries content (Compact.join (e.withContent content).segments) :=
  ⟨_, _, _, _, split_segments (e := e.withContent content) hheaders,
    Base64Url.decode_encode _, Base64Url.decode_encode _, Base64Url.decode_encode _⟩

theorem parse_segments {headers : Headers} {content : Protected} {aad : Bytes}
    (hheaders : e.envelope.headers.WireEncoded)
    (hrereads : e.envelope.headers.Rereads headers)
    (hdecrypt : x.decrypt content aad secret = .ok plaintext) :
    parse (Compact.join (e.withContent content).segments) =
      .ok (ofParts headers [] content) := by
  obtain ⟨hiv, hciphertext, -⟩ := ContentEncryption.lengths_of_decrypt hdecrypt
  have hfull : e.envelope.headers.encoded.isEmpty = false ∧
      (Base64Url.encode content.iv).isEmpty = false ∧
      (Base64Url.encode content.ciphertext).isEmpty = false :=
    ⟨Headers.isEmpty_of_parse hrereads.parse, Base64Url.isEmpty_encode (by omega),
      Base64Url.isEmpty_encode (by omega)⟩
  exact parse_eq_ok_iff.mpr ⟨_, _, _, _, _, headers, [], content,
    split_segments (e := e.withContent content) hheaders, hfull, hrereads.parse,
    Base64Url.decode_encode _, Base64Url.decode_encode _, Base64Url.decode_encode _,
    Base64Url.decode_encode _, rfl⟩

/-! ## Decryption by the receiver -/

/-- What the receiver sets: the key, its own policy, and the critical names that it
knows. -/
def given (key : Option Key) (management encryption : Constraints) (known : List String)
    (p : Encrypted) : Encrypted :=
  (((p.setKey key).setConstraints management).setContentConstraints
    encryption).setKnownCritical known

theorem Ready.decipher_given (h : Ready x secret plaintext e) {headers : Headers}
    {content : Protected} (hrereads : e.envelope.headers.Rereads headers)
    (hdecrypt : x.decrypt content e.associatedData secret = .ok plaintext)
    {management encryption : Constraints} {known : List String}
    (hallowed : Allowing x management encryption)
    (hknown : e.envelope.headers.CriticalKnown known) :
    (given e.envelope.key management encryption known (ofParts headers [] content)).decipher =
      .ok plaintext := by
  have hdata : associatedData (given e.envelope.key management encryption known
      (ofParts headers [] content)) =
        e.associatedData := congrArg Utf8.encode hrereads.encoded
  refine decipher_eq_ok_iff.mpr ⟨.direct, x, secret,
    keyManagement_eq_ok_iff.mpr ⟨?_, hallowed.1⟩,
    contentEncryption_eq_ok_iff.mpr ⟨?_, hallowed.2⟩, hrereads.critical known hknown, rfl,
      h.key, ?_⟩
  · exact (hrereads.string? "alg").trans h.management
  · exact (hrereads.string? "enc").trans h.encryption
  · rw [hdata]
    exact hdecrypt

/-- With everything set for it and a vector of one block, an envelope is encrypted exactly
if its own constraints allow both algorithms, and the length of the header segment in bits
fits the field for it. The token has an empty encrypted key, the vector, one block more
than the plaintext fills, and a tag as long as the content encryption makes it. It is
read, and under the same key it is deciphered to the plaintext, whatever policy allows the
two algorithms and knows the critical names. -/
theorem token_deciphers (h : Reached e) (hready : Ready x secret plaintext e)
    (hiv : (e.chosenIv.getD fresh).length = 16) :
    ((∃ text, (e.compact fresh).1 = .ok text) ↔
      Allowing x e.envelope.constraints e.contentConstraints ∧
        e.associatedData.length * 8 < UInt64.size) ∧
    ∀ text, (e.compact fresh).1 = .ok text → ∃ content p,
      Carries content text ∧ content.iv = e.chosenIv.getD fresh ∧
      content.ciphertext.length = 16 * (plaintext.length / 16 + 1) ∧
      content.tag.length = x.tagBytes ∧ parse text = .ok p ∧
      ∀ management encryption known, Allowing x management encryption →
        e.envelope.headers.CriticalKnown known →
        (given e.envelope.key management encryption known p).plaintextBytes.1 =
          .ok plaintext := by
  have hfaithful := faithful_of_reached h
  obtain ⟨headers, hrereads⟩ := hfaithful.exists_rereads hready.depth
  refine ⟨?_, fun text htext => ?_⟩
  · simp only [hready.compact_eq_ok_iff hfaithful]
    rw [← ContentEncryption.exists_encrypt_iff plaintext _ hready.fits hiv]
    constructor
    · rintro ⟨_, hallowed, content, hcontent, -⟩
      exact ⟨hallowed, content, hcontent⟩
    · rintro ⟨hallowed, content, hcontent⟩
      exact ⟨_, hallowed, content, hcontent, rfl⟩
  · obtain ⟨-, content, hcontent, rfl⟩ := (hready.compact_eq_ok_iff hfaithful).mp htext
    obtain ⟨hvector, hdecrypt⟩ := ContentEncryption.decrypt_of_encrypt hcontent
    obtain ⟨-, hciphertext, htag⟩ := ContentEncryption.lengths_of_decrypt hdecrypt
    refine ⟨content, _, carries_segments hfaithful.wireEncoded content, hvector,
      hciphertext, htag, parse_segments hfaithful.wireEncoded hrereads hdecrypt,
      fun management encryption known hallowed hknown => ?_⟩
    exact (plaintextBytes_eq_ok_iff rfl).mpr
      (hready.decipher_given hrereads hdecrypt hallowed hknown)

/-- Two bytes under a shared key, with a chosen vector. -/
def direct : Encrypted :=
  ((((new.setHeader "alg" (.string "dir")).setHeader "enc" (.string "A128CBC-HS256")).setKey
    (some (.symmetric (List.replicate 32 7)))).setPlaintextBytes [104, 105]).setIv
      (List.replicate 16 1)

theorem reached_direct : Reached direct :=
  .step (.setIv _) trivial (.step (.setPlaintextBytes _) trivial (.step (.setKey _) trivial
    (.step (.setHeader "enc" (.string "A128CBC-HS256")) (.string _)
      (.step (.setHeader "alg" (.string "dir")) (.string _) .new))))

theorem ready_direct : Ready .aes128 (List.replicate 32 7) [104, 105] direct :=
  ⟨by decide, by decide, rfl, rfl, rfl, by decide⟩

theorem token_deciphers_direct :
    Reached direct ∧ Ready .aes128 (List.replicate 32 7) [104, 105] direct ∧
      ∃ text p, (direct.compact []).1 = .ok text ∧ parse text = .ok p ∧
        (given direct.envelope.key .unrestricted .unrestricted [] p).plaintextBytes.1 =
          .ok [104, 105] := by
  have hiv : (direct.chosenIv.getD []).length = 16 := rfl
  have hallowed : Allowing .aes128 .unrestricted .unrestricted := by decide
  have hsize : direct.associatedData.length * 8 < UInt64.size := by decide +kernel
  obtain ⟨hwrites, hreads⟩ := token_deciphers reached_direct ready_direct hiv
  obtain ⟨text, htext⟩ := hwrites.mpr ⟨hallowed, hsize⟩
  obtain ⟨_, p, -, -, -, -, hparse, hgiven⟩ := hreads text htext
  exact ⟨reached_direct, ready_direct, text, p, htext, hparse,
    hgiven _ _ [] hallowed (.inl rfl)⟩

/-- Its own constraints block the algorithm that the header names. -/
def blocked : Encrypted := direct.setConstraints (.block ["dir"])

/-- What is ready need not be encrypted, as the policy may block it. -/
theorem ready_without_token :
    Reached blocked ∧ Ready .aes128 (List.replicate 32 7) [104, 105] blocked ∧
      (blocked.chosenIv.getD []).length = 16 ∧ blocked.envelope.headers.CriticalKnown [] ∧
      (blocked.compact []).1 =
        .error (.constraintViolation "'dir' is a blocked algorithm.") :=
  ⟨.step (.setConstraints _) trivial reached_direct,
    ⟨by decide, by decide, rfl, rfl, rfl, by decide⟩, rfl, .inl rfl, rfl⟩

end Jose.Encrypted
