import Jose.Proofs.Encrypted.Rejection
import Jose.Proofs.Encrypted.RoundTrip

/-! A token is determined by what it is read as. The segments decode canonically, so the
parsed envelope has the token as its text; and if it can be deciphered, then encrypting
the plaintext again under the same vector gives that very text, so nothing is accepted
under a key but what encryption under that key gives. -/
namespace Jose.Encrypted
open Text Result

variable {token : String} {p e : Encrypted}

theorem Keeps.segments_eq (h : Keeps p e) : e.segments = p.segments := by
  rw [Encrypted.segments, h.headers, h.encryptedKey, h.content, Encrypted.segments]

/-! ## Segments -/

/-- No other text decodes to the same bytes, and the header is kept as it came. -/
theorem segments_of_parse (h : parse token = .ok p) : Compact.split token = p.segments := by
  obtain ⟨header, wrapped, iv, ciphertext, tag, headers, encryptedKey, content, hsplit, -,
    hheader, hkey, hiv, hciphertext, htag, rfl⟩ := parse_eq_ok_iff.mp h
  rw [Base64Url.decode_eq_ok_iff_eq_encode] at hkey hiv hciphertext htag
  rw [hsplit, hkey, hiv, hciphertext, htag, ← Headers.encoded_of_parse hheader]
  rfl

theorem join_segments_of_parse (h : parse token = .ok p) :
    Compact.join p.segments = token := by
  rw [← segments_of_parse h, Compact.join_split]

theorem isEmpty_of_parse (h : parse token = .ok p) :
    p.envelope.headers.encoded.isEmpty = false := by
  obtain ⟨_, _, _, _, _, _, _, _, -, ⟨hfull, -⟩, hheader, -, -, -, -, rfl⟩ :=
    parse_eq_ok_iff.mp h
  rw [← Headers.encoded_of_parse hheader] at hfull
  exact hfull

theorem chosenIv_of_parse (h : parse token = .ok p) : p.chosenIv = none := by
  obtain ⟨_, _, _, _, _, _, _, _, _, _, _, _, _, _, _, rfl⟩ := parse_eq_ok_iff.mp h
  rfl

/-! ## Encrypting again -/

/-- Deciphering leaves no choice of the content: under the vector that it has, the
plaintext is encrypted to it. -/
theorem compact_of_decipher {plaintext : Bytes} (hdecipher : e.decipher = .ok plaintext)
    (hplaintext : e.plaintext = some plaintext)
    (hheader : e.envelope.headers.encoded.isEmpty = false) (fresh : Bytes) :
    (e.setIv e.content.iv).compact fresh =
      (.ok (Compact.join e.segments), { e with chosenIv := none }) := by
  obtain ⟨m, x, secret, hm, hx, -, hempty, hkey, hdecrypt⟩ := decipher_eq_ok_iff.mp hdecipher
  have hlength := (ContentEncryption.decrypt_eq_ok_iff.mp hdecrypt).1
  have hencrypt : x.encrypt plaintext e.associatedData secret e.content.iv = .ok e.content :=
    ContentEncryption.decrypt_eq_ok_iff_encrypt.mp hdecrypt
  have hprepare : (e.setIv e.content.iv).prepare = .ok (x, ⟨secret, []⟩, plaintext) :=
    prepare_eq_ok_iff.mpr ⟨m, hm, hx, KeyManagement.sharedKey_eq_ok_iff.mpr ⟨hkey, hlength⟩,
      rfl, hplaintext⟩
  have hleft : e.withContent e.content = { e with chosenIv := none } := by
    rw [withContent, ← hempty]
  have hserialize :=
    (serialize_eq_ok_iff (e := e.withContent e.content) hdecrypt).mpr ⟨hheader, rfl⟩
  have hvector : (e.setIv e.content.iv).chosenIv.getD fresh = e.content.iv := rfl
  have hdata : associatedData { e.setIv e.content.iv with chosenIv := none } =
      e.associatedData := rfl
  have hcompact : (e.setIv e.content.iv).compact fresh =
      (layout.serialize (e.withContent e.content).segments, e.withContent e.content) := by
    rw [compact, hprepare]
    dsimp only
    rw [hvector, hdata, hencrypt]
    rfl
  rw [hcompact, hserialize, hleft]
  rfl

/-- A parsed envelope has the token as its text. If it can be read on some terms, then
serializing it under the vector it came with gives the token again, and the plaintext
stays. -/
theorem read_token_is_reproduced (h : parse token = .ok p) (hterms : OnTerms p e) :
    Compact.join p.segments = token ∧
    ∀ plaintext left fresh, e.plaintextBytes = (.ok plaintext, left) →
      left.plaintext = some plaintext ∧
        (left.setIv p.content.iv).compact fresh = (.ok token, left) := by
  have hjoin := join_segments_of_parse h
  refine ⟨hjoin, fun plaintext left fresh hread => ?_⟩
  have hkeeps := hterms.keeps
  have hnone : e.plaintext = none := hkeeps.plaintext.trans (plaintext_of_parse h)
  have hdecipher : e.decipher = .ok plaintext :=
    (plaintextBytes_eq_ok_iff hnone).mp (congrArg Prod.fst hread)
  rw [plaintextBytes_of_decipher hnone hdecipher] at hread
  obtain ⟨-, rfl⟩ := Prod.mk.inj hread
  have hheader : e.envelope.headers.encoded.isEmpty = false := by
    rw [hkeeps.headers]
    exact isEmpty_of_parse h
  have hcompact :=
    compact_of_decipher (e := { e with plaintext := some plaintext }) hdecipher rfl
      hheader fresh
  have hspent : e.chosenIv = none := hkeeps.chosenIv.trans (chosenIv_of_parse h)
  have htext : Compact.join e.segments = token := by rw [hkeeps.segments_eq, hjoin]
  refine ⟨rfl, ?_⟩
  rw [← hkeeps.content, ← htext]
  refine hcompact.trans (Prod.ext rfl ?_)
  rw [← hspent]

theorem read_token_is_reproduced_sealed :
    ∃ p left, parse sealed = .ok p ∧
      (p.under (.sharing 7) .unrestricted).plaintextBytes = (.ok [104, 105], left) ∧
      (left.setIv p.content.iv).compact [] = (.ok sealed, left) := by
  obtain ⟨p, hparse, hdecipher⟩ := sealed_deciphers
  have hnone : (p.under (.sharing 7) .unrestricted).plaintext = none :=
    plaintext_of_parse (e := p) hparse
  have hread := plaintextBytes_of_decipher hnone hdecipher
  obtain ⟨-, hreproduced⟩ :=
    read_token_is_reproduced hparse (onTerms_under (.sharing 7) .unrestricted p)
  exact ⟨p, _, hparse, hread, (hreproduced _ _ [] hread).2⟩

end Jose.Encrypted
