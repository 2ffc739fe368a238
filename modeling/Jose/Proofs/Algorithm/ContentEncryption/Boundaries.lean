import Jose.Proofs.Algorithm.ContentEncryption
import Jose.Proofs.Bytes

/-! Where the associated data ends and the ciphertext begins is part of what is
authenticated. The length of the associated data comes last, so it fixes the first
boundary, and the vector has one length only, which fixes the second. The tag is compared
before that length is looked at, so a message that is cut elsewhere may have the right
tag; it is refused all the same. -/
namespace Jose.ContentEncryption
open Hash

/-- What the tag is made over. -/
def authenticated (aad iv ciphertext : Bytes) : Bytes :=
  aad ++ iv ++ ciphertext ++ Bytes.ofNat 8 (aad.length * 8)

/-- The tag of a message under the first half of the key. -/
def mac (x : ContentEncryption) (key message : Bytes) : Bytes :=
  (hmac x.hash (key.take x.halfKeyBytes) message).take x.tagBytes

theorem tag_eq_ok_iff {x : ContentEncryption} {key aad iv ciphertext t : Bytes} :
    x.tag key aad iv ciphertext = .ok t ↔
      aad.length < 2 ^ 61 ∧ t = x.mac key (authenticated aad iv ciphertext) := by
  have hsize : UInt64.size = 2 ^ 64 := rfl
  have hbits : aad.length * 8 < UInt64.size ↔ aad.length < 2 ^ 61 := by omega
  rw [← hbits, tag]
  split
  · next h =>
    rw [Except.ok.injEq, eq_comm (a := t)]
    exact (and_iff_right h).symm
  · next h =>
    constructor
    · intro ht
      cases ht
    · rintro ⟨hlength, -⟩
      exact absurd hlength h

/-- The last eight bytes give the length of the first part, and the second part has a
known length. -/
theorem authenticated_inj {aad iv ciphertext aad' iv' ciphertext' : Bytes}
    (haad : aad.length < 2 ^ 61)
    (haad' : aad'.length < 2 ^ 61) (hiv : iv.length = iv'.length)
    (h : authenticated aad iv ciphertext = authenticated aad' iv' ciphertext') :
    aad = aad' ∧ iv = iv' ∧ ciphertext = ciphertext' := by
  have hsuffix : (Bytes.ofNat 8 (aad.length * 8)).length =
      (Bytes.ofNat 8 (aad'.length * 8)).length := by
    rw [Bytes.length_ofNat, Bytes.length_ofNat]
  obtain ⟨hparts, hlengths⟩ := List.append_inj' h hsuffix
  have hlength : aad.length = aad'.length := by
    have hnumber := congrArg Bytes.toNat hlengths
    rw [Bytes.toNat_ofNat (by omega), Bytes.toNat_ofNat (by omega)] at hnumber
    omega
  rw [List.append_assoc, List.append_assoc] at hparts
  obtain ⟨rfl, hrest⟩ := List.append_inj hparts hlength
  obtain ⟨rfl, rfl⟩ := List.append_inj hrest hiv
  exact ⟨rfl, rfl, rfl⟩

/-- The same bytes, cut elsewhere: some have moved between the associated data and the
vector, or between the vector and the ciphertext. -/
def Shifted (aad : Bytes) (p : Protected) (aad' : Bytes) (p' : Protected) : Prop :=
  (aad' ++ p'.iv = aad ++ p.iv ∧ p'.ciphertext = p.ciphertext) ∨
    (aad' = aad ∧ p'.iv ++ p'.ciphertext = p.iv ++ p.ciphertext)

/-- No byte has moved if the vector is as long as it was. -/
theorem Shifted.eq {aad aad' : Bytes} {p p' : Protected} (h : Shifted aad p aad' p')
    (hiv : p'.iv.length = p.iv.length) (htag : p'.tag = p.tag) : p' = p ∧ aad' = aad := by
  have hparts : aad' = aad ∧ p'.iv = p.iv ∧ p'.ciphertext = p.ciphertext := by
    rcases h with ⟨hfront, hciphertext⟩ | ⟨haad, hback⟩
    · obtain ⟨haad, hvector⟩ := List.append_inj' hfront hiv
      exact ⟨haad, hvector, hciphertext⟩
    · obtain ⟨hvector, hciphertext⟩ := List.append_inj hback hiv
      exact ⟨haad, hvector, hciphertext⟩
  cases p
  cases p'
  obtain ⟨rfl, rfl, rfl⟩ := hparts
  cases htag
  exact ⟨rfl, rfl⟩

/-- Two messages with one tag under one key are the same, or they are a collision of the
code. -/
theorem collision_of_decrypt {x : ContentEncryption} {p p' : Protected}
    {aad aad' key plaintext plaintext' : Bytes}
    (h : x.decrypt p aad key = .ok plaintext) (h' : x.decrypt p' aad' key = .ok plaintext')
    (htag : p'.tag = p.tag) (hne : ¬(p' = p ∧ aad' = aad)) :
    authenticated aad' p'.iv p'.ciphertext ≠ authenticated aad p.iv p.ciphertext ∧
      x.mac key (authenticated aad' p'.iv p'.ciphertext) =
        x.mac key (authenticated aad p.iv p.ciphertext) := by
  obtain ⟨-, ht, -⟩ := decrypt_eq_ok_iff.mp h
  obtain ⟨-, ht', -⟩ := decrypt_eq_ok_iff.mp h'
  obtain ⟨haad, htag_eq⟩ := tag_eq_ok_iff.mp ht
  obtain ⟨haad', htag_eq'⟩ := tag_eq_ok_iff.mp ht'
  have hiv : p'.iv.length = p.iv.length := by
    rw [(lengths_of_decrypt h').1, (lengths_of_decrypt h).1]
  refine ⟨fun hsame => hne ?_, by rw [← htag_eq, ← htag_eq', htag]⟩
  obtain ⟨rfl, hvector, hciphertext⟩ := authenticated_inj haad' haad hiv hsame
  exact Shifted.eq (.inr ⟨rfl, by rw [hvector, hciphertext]⟩) hiv htag

/-- The tag is a code of associated data, vector, ciphertext and the length of the
associated data, joined so that for vectors of one block the whole tells the parts; and no
vector of another length is accepted. So bytes of an accepted message that move across
either end of the vector leave a message that is refused, and any other message that is
accepted with that tag and key is a collision of the code: other bytes authenticated, and
the same tag. -/
theorem boundaries_are_authenticated (x : ContentEncryption) (key : Bytes) :
    (∀ aad iv ciphertext t, x.tag key aad iv ciphertext = .ok t ↔
      aad.length < 2 ^ 61 ∧ t = x.mac key (authenticated aad iv ciphertext)) ∧
    (∀ aad iv ciphertext aad' iv' ciphertext' : Bytes,
      aad.length < 2 ^ 61 → aad'.length < 2 ^ 61 →
      iv.length = 16 → iv'.length = 16 →
      authenticated aad iv ciphertext = authenticated aad' iv' ciphertext' →
        aad = aad' ∧ iv = iv' ∧ ciphertext = ciphertext') ∧
    (∀ p aad, p.iv.length ≠ 16 → ∀ plaintext, x.decrypt p aad key ≠ .ok plaintext) ∧
    ∀ p aad plaintext, x.decrypt p aad key = .ok plaintext →
      ∀ p' aad', p'.tag = p.tag → ¬(p' = p ∧ aad' = aad) →
        (Shifted aad p aad' p' → x.decrypt p' aad' key = .error .rejectedContent) ∧
        ∀ plaintext', x.decrypt p' aad' key = .ok plaintext' →
          authenticated aad' p'.iv p'.ciphertext ≠ authenticated aad p.iv p.ciphertext ∧
          x.mac key (authenticated aad' p'.iv p'.ciphertext) =
            x.mac key (authenticated aad p.iv p.ciphertext) := by
  refine ⟨fun _ _ _ _ => tag_eq_ok_iff, ?_, ?_, ?_⟩
  · intro aad iv ciphertext aad' iv' ciphertext' haad haad' hiv hiv' h
    exact authenticated_inj haad haad' (hiv.trans hiv'.symm) h
  · intro p aad hiv plaintext h
    exact hiv (lengths_of_decrypt h).1
  · intro p aad plaintext h p' aad' htag hne
    refine ⟨fun hshifted => ?_, fun plaintext' h' => collision_of_decrypt h h' htag hne⟩
    refine decrypt_of_not_ok (decrypt_eq_ok_iff.mp h).1 fun plaintext' h' => hne ?_
    exact hshifted.eq (by rw [(lengths_of_decrypt h').1, (lengths_of_decrypt h).1]) htag

/-- The last byte of the vector moves into the ciphertext, which leaves the authenticated
bytes as they were, or the last byte of the associated data moves into the vector. -/
theorem boundaries_are_authenticated_moved :
    ∃ p, aes128.decrypt p [1, 2] (List.replicate 32 7) = .ok [104, 105] ∧
      authenticated [1, 2] (List.replicate 15 0) (0 :: p.ciphertext) =
        authenticated [1, 2] p.iv p.ciphertext ∧
      aes128.decrypt ⟨0 :: p.ciphertext, List.replicate 15 0, p.tag⟩ [1, 2]
        (List.replicate 32 7) = .error .rejectedContent ∧
      aes128.decrypt ⟨p.ciphertext, 2 :: p.iv, p.tag⟩ [1] (List.replicate 32 7) =
        .error .rejectedContent := by
  have hkey : (List.replicate 32 (7 : UInt8)).length = aes128.keyBytes := by decide
  have hiv : (List.replicate 16 (0 : UInt8)).length = 16 := by decide
  have hshort : [1, 2].length * 8 < UInt64.size := by decide
  obtain ⟨p, hp⟩ := (exists_encrypt_iff [104, 105] [1, 2] hkey hiv).mpr hshort
  obtain ⟨hvector, hread⟩ := decrypt_of_encrypt hp
  obtain ⟨-, -, -, hrefused⟩ := boundaries_are_authenticated aes128 (List.replicate 32 7)
  have hback : List.replicate 15 (0 : UInt8) ++ 0 :: p.ciphertext = p.iv ++ p.ciphertext := by
    rw [hvector]
    rfl
  have hlength : (List.replicate 15 (0 : UInt8)).length ≠ p.iv.length := by
    rw [hvector]
    decide
  have hsame : authenticated [1, 2] (List.replicate 15 0) (0 :: p.ciphertext) =
      authenticated [1, 2] p.iv p.ciphertext := by
    rw [authenticated, authenticated, List.append_assoc [1, 2], hback, ← List.append_assoc]
  refine ⟨p, hread, hsame,
    (hrefused p _ _ hread ⟨0 :: p.ciphertext, List.replicate 15 0, p.tag⟩ [1, 2] rfl ?_).1 ?_,
    (hrefused p _ _ hread ⟨p.ciphertext, 2 :: p.iv, p.tag⟩ [1] rfl ?_).1 ?_⟩
  · exact fun heq => hlength (congrArg (fun q => q.iv.length) heq.1)
  · exact .inr ⟨rfl, hback⟩
  · exact fun heq => absurd heq.2 (by decide)
  · exact .inl ⟨rfl, rfl⟩

end Jose.ContentEncryption
