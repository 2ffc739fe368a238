import Jose.Proofs.Encrypted.Run

/-! What a receiver is told about a token that it cannot decipher. Everything but the
content is checked first, so these failures do not depend on the content, and whatever is
wrong with the content gives one and the same error. -/
namespace Jose.Encrypted
open Text Result

/-! ## Before the content is looked at -/

/-- The checks that come before the content, which lead to the key for it. -/
def unlock (e : Encrypted) : Result (ContentEncryption × Bytes) := do
  let management ← e.keyManagement
  let encryption ← e.contentEncryption
  e.envelope.validateKey (management.validateKey · encryption)
  e.envelope.checkCritical
  let key ← management.forDecryption e.envelope.key e.encryptedKey encryption
  return (encryption, key)

theorem decipher_eq_unlock_bind (e : Encrypted) :
    e.decipher = e.unlock >>= fun (x, key) => x.decrypt e.content e.associatedData key := by
  simp only [decipher, unlock, bind_assoc, pure_bind]

theorem length_of_unlock {e : Encrypted} {x : ContentEncryption} {key : Bytes}
    (h : e.unlock = .ok (x, key)) : key.length = x.keyBytes := by
  simp only [unlock, bind_eq_ok_iff, KeyManagement.forDecryption_eq_ok_iff,
    KeyManagement.sharedKey_eq_ok_iff] at h
  obtain ⟨m, -, x', -, _, -, _, -, secret, ⟨-, -, hlength⟩, hpair⟩ := h
  cases hpair
  exact hlength

/-- The two envelopes are the same in everything that is looked at before the content. -/
structure Alike (e e' : Encrypted) : Prop extends SameTerms e e' where
  headers : e'.envelope.headers = e.envelope.headers
  encryptedKey : e'.encryptedKey = e.encryptedKey

theorem Alike.unlock {e e' : Encrypted} (h : Alike e e') : e'.unlock = e.unlock := by
  obtain ⟨⟨headers, key, constraints, validates, known, _⟩, encryption, _, _, encryptedKey,
    _, _⟩ := e
  obtain ⟨⟨headers', key', constraints', validates', known', _⟩, encryption', _, _,
    encryptedKey', _, _⟩ := e'
  obtain ⟨⟨hkey, hconstraints, hvalidates, hknown, hencryption⟩, hheaders, hencrypted⟩ := h
  cases hheaders
  cases hkey
  cases hconstraints
  cases hvalidates
  cases hknown
  cases hencryption
  cases hencrypted
  rfl

/-- The same content is deciphered alike. -/
theorem Alike.decipher {e e' : Encrypted} (h : Alike e e')
    (hcontent : e'.content = e.content) : e'.decipher = e.decipher := by
  have hdata : e'.associatedData = e.associatedData := by
    rw [associatedData, h.headers, associatedData]
  rw [decipher_eq_unlock_bind, decipher_eq_unlock_bind, h.unlock, hcontent, hdata]

/-! ## Failures -/

theorem decipher_of_unlock_error {e : Encrypted} {error : Error}
    (h : e.unlock = .error error) : e.decipher = .error error := by
  rw [decipher_eq_unlock_bind, h]
  rfl

/-- Once the key is found, only the content can be refused. -/
theorem unlock_or_rejected {e : Encrypted} {error : Error} (h : e.decipher = .error error) :
    e.unlock = .error error ∨ error = .rejectedContent := by
  cases hunlock : e.unlock with
  | error error' =>
    rw [decipher_of_unlock_error hunlock] at h
    exact .inl (congrArg Except.error (Except.error.inj h))
  | ok pair =>
    obtain ⟨x, key⟩ := pair
    rw [decipher_eq_unlock_bind, hunlock] at h
    exact .inr (ContentEncryption.eq_rejected_of_decrypt (length_of_unlock hunlock) h)

/-- Any other failure than the refusal of the content is met whatever the content is. -/
theorem Alike.decipher_error {e e' : Encrypted} (h : Alike e e') {error : Error}
    (herror : e.decipher = .error error) (hother : error ≠ .rejectedContent) :
    e'.decipher = .error error := by
  rcases unlock_or_rejected herror with hunlock | hrejected
  · exact decipher_of_unlock_error (h.unlock.trans hunlock)
  · exact absurd hrejected hother

theorem Alike.symm {e e' : Encrypted} (h : Alike e e') : Alike e' e :=
  ⟨⟨h.key.symm, h.constraints.symm, h.validatesKeys.symm, h.knownCritical.symm,
    h.contentConstraints.symm⟩, h.headers.symm, h.encryptedKey.symm⟩

theorem Alike.error_eq {e e' : Encrypted} (h : Alike e e') {error error' : Error}
    (herror : e.decipher = .error error) (herror' : e'.decipher = .error error') :
    error' = error := by
  by_cases hrejected : error = .rejectedContent
  · by_cases hrejected' : error' = .rejectedContent
    · rw [hrejected, hrejected']
    · have := h.symm.decipher_error herror' hrejected'
      rw [herror] at this
      exact (Except.error.inj this).symm
  · have := h.decipher_error herror hrejected
    rw [herror'] at this
    exact Except.error.inj this

/-! ## Tokens with the same header -/

theorem plaintext_of_parse {token : String} {e : Encrypted} (h : parse token = .ok e) :
    e.plaintext = none := by
  obtain ⟨_, _, _, _, _, _, _, _, _, _, _, _, _, _, _, rfl⟩ := parse_eq_ok_iff.mp h
  rfl

theorem alike_of_parse
    {token token' header wrapped iv ciphertext tag iv' ciphertext' tag' : String}
    {p p' e e' : Encrypted} (h : parse token = .ok p) (h' : parse token' = .ok p')
    (hsplit : Compact.split token = [header, wrapped, iv, ciphertext, tag])
    (hsplit' : Compact.split token' = [header, wrapped, iv', ciphertext', tag'])
    (hterms : OnTerms p e) (hterms' : OnTerms p' e') (hsame : SameTerms e e') :
    Alike e e' := by
  obtain ⟨_, _, _, _, _, headers, key, _, hparts, -, hheader, hkey, -, -, -, rfl⟩ :=
    parse_eq_ok_iff.mp h
  obtain ⟨_, _, _, _, _, headers', key', _, hparts', -, hheader', hkey', -, -, -, rfl⟩ :=
    parse_eq_ok_iff.mp h'
  cases hsplit.symm.trans hparts
  cases hsplit'.symm.trans hparts'
  cases hheader.symm.trans hheader'
  cases hkey.symm.trans hkey'
  exact ⟨hsame, hterms'.keeps.headers.trans hterms.keeps.headers.symm,
    hterms'.keeps.encryptedKey.trans hterms.keeps.encryptedKey.symm⟩

/-- Two tokens with the same header and the same encrypted key that both fail to be read
on the same terms fail with the same error, and an error other than the refusal of the
content is met by both as soon as one of them meets it. A read that fails changes nothing,
so it fails again in the same way. -/
theorem rejections_agree
    {token token' header wrapped iv ciphertext tag iv' ciphertext' tag' : String}
    {p p' e e' : Encrypted} (h : parse token = .ok p) (h' : parse token' = .ok p')
    (hsplit : Compact.split token = [header, wrapped, iv, ciphertext, tag])
    (hsplit' : Compact.split token' = [header, wrapped, iv', ciphertext', tag'])
    (hterms : OnTerms p e) (hterms' : OnTerms p' e') (hsame : SameTerms e e') :
    (∀ error error', e.plaintextBytes.1 = .error error →
      e'.plaintextBytes.1 = .error error' → error' = error) ∧
    (∀ error, e.plaintextBytes.1 = .error error →
      (error ≠ .rejectedContent → e'.plaintextBytes.1 = .error error) ∧
      e.plaintextBytes.2 = e ∧ e.plaintextBytes.2.plaintextBytes.1 = .error error) := by
  have halike := alike_of_parse h h' hsplit hsplit' hterms hterms' hsame
  have hnone : e.plaintext = none := hterms.keeps.plaintext.trans (plaintext_of_parse h)
  have hnone' : e'.plaintext = none := hterms'.keeps.plaintext.trans (plaintext_of_parse h')
  rw [plaintextBytes_fst hnone, plaintextBytes_fst hnone']
  refine ⟨fun error error' herror herror' => halike.error_eq herror herror',
    fun error herror => ?_⟩
  have hread := plaintextBytes_of_error hnone herror
  refine ⟨halike.decipher_error herror, by rw [hread], ?_⟩
  rw [hread]
  exact congrArg Prod.fst hread

/-- Direct encryption by the smallest of the algorithms. -/
def directHeader : String := "eyJhbGciOiJkaXIiLCJlbmMiOiJBMTI4Q0JDLUhTMjU2In0"

/-- A vector and a ciphertext of one block each, with the given tag. -/
def tagged (tag : String) : String :=
  Compact.join [directHeader, "", "AQEBAQEBAQEBAQEBAQEBAQ", "bowPW43esokGSnAkSGoMpw", tag]

/-- Neither the vector nor the ciphertext is a block, and there is no tag. -/
def ragged : String := Compact.join [directHeader, "", "AQ", "aGk", ""]

/-- Two bytes under a shared key of sevens. -/
def sealed : String := tagged "SdeRj09MZoMPvT3KbPiC9g"

/-- The segments of `sealed` after the key, read. -/
def sealedContent : Protected where
  ciphertext := [110, 140, 15, 91, 141, 222, 178, 137, 6, 74, 112, 36, 72, 106, 12, 167]
  iv := List.replicate 16 1
  tag := [73, 215, 145, 143, 79, 76, 102, 131, 15, 189, 61, 202, 108, 248, 130, 246]

theorem encrypt_sealedContent :
    ContentEncryption.aes128.encrypt [104, 105] (Utf8.encode directHeader)
      (List.replicate 32 7) sealedContent.iv = .ok sealedContent :=
  ContentEncryption.encrypt_eq_ok_iff.mpr
    ⟨by decide, rfl, by decide, by decide +kernel, by decide +kernel⟩

theorem sealed_deciphers :
    ∃ e, parse sealed = .ok e ∧ (e.under (.sharing 7) .unrestricted).decipher =
      .ok [104, 105] := by
  have hparts : (parse sealed).toOption.map (fun e =>
      ((e.under (.sharing 7) .unrestricted).unlock.toOption, e.associatedData, e.content)) =
        some (some (.aes128, List.replicate 32 7), Utf8.encode directHeader,
          sealedContent) := by
    decide +kernel
  obtain ⟨e, hparse, hpair⟩ := Option.map_eq_some_iff.mp hparts
  simp only [Prod.mk.injEq, toOption_eq_some_iff] at hparse hpair
  obtain ⟨hunlock, hdata, hcontent⟩ := hpair
  have hdecrypt :
      ContentEncryption.aes128.decrypt e.content e.associatedData (List.replicate 32 7) =
        .ok [104, 105] := by
    rw [hdata, hcontent]
    exact ContentEncryption.decrypt_eq_ok_iff_encrypt.mpr encrypt_sealedContent
  refine ⟨e, hparse, ?_⟩
  rw [decipher_eq_unlock_bind, hunlock]
  exact hdecrypt

theorem rejections_agree_forged :
    ∃ e e', parse (tagged "AAAA") = .ok e ∧ parse ragged = .ok e' ∧
      (e.under (.sharing 7) .unrestricted).plaintextBytes.1 = .error .rejectedContent ∧
      (e'.under (.sharing 7) .unrestricted).plaintextBytes.1 = .error .rejectedContent := by
  have hforged : (parse (tagged "AAAA")).toOption.map
      (fun e => (e.under (.sharing 7) .unrestricted).plaintextBytes.1) =
        some (.error .rejectedContent) := by
    decide +kernel
  have hragged : (parse ragged).toOption.map
      (fun e => (e.under (.sharing 7) .unrestricted).plaintextBytes.1.toOption) =
        some none := by
    decide +kernel
  have hsplit : Compact.split (tagged "AAAA") =
      [directHeader, "", "AQEBAQEBAQEBAQEBAQEBAQ", "bowPW43esokGSnAkSGoMpw", "AAAA"] := by
        decide +kernel
  have hsplit' : Compact.split ragged = [directHeader, "", "AQ", "aGk", ""] := by
    decide +kernel
  obtain ⟨e, hparse, herror⟩ := Option.map_eq_some_iff.mp hforged
  obtain ⟨e', hparse', hnone⟩ := Option.map_eq_some_iff.mp hragged
  rw [toOption_eq_some_iff] at hparse hparse'
  obtain ⟨hagree, -⟩ :=
    rejections_agree hparse hparse' hsplit hsplit'
      (onTerms_under (.sharing 7) .unrestricted e)
      (onTerms_under (.sharing 7) .unrestricted e') (sameTerms_under _ _ e e')
  cases herror' : (e'.under (.sharing 7) .unrestricted).plaintextBytes.1 with
  | ok bytes =>
    rw [herror'] at hnone
    cases hnone
  | error error' =>
    rw [hagree _ _ herror herror'] at herror'
    exact ⟨e, e', hparse, hparse', herror, herror'⟩

end Jose.Encrypted
