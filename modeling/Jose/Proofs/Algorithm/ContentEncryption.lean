import Jose.Algorithm.ContentEncryption
import Jose.Proofs.Cipher.Cbc
import Jose.Proofs.Hash.Hmac
import Jose.Proofs.Result

/-! Protected content decrypts to a plaintext exactly if it is what encrypting that
plaintext gives, and under a key of the right length everything else is refused with one
and the same error. -/
namespace Jose.ContentEncryption
open Cipher Hash Result

theorem checkKey_eq_ok_iff {x : ContentEncryption} {key : Bytes} {u : Unit} :
    x.checkKey key = .ok u ↔ key.length = x.keyBytes := by
  unfold checkKey
  split <;> simp_all

theorem checkIv_eq_ok_iff {x : ContentEncryption} {iv : Bytes} {u : Unit} :
    x.checkIv iv = .ok u ↔ iv.length = 16 := by
  unfold checkIv ivBytes Cbc.blockBytes
  split <;> simp_all

theorem length_of_tag {x : ContentEncryption} {key aad iv ciphertext t : Bytes}
    (h : x.tag key aad iv ciphertext = .ok t) : t.length = x.tagBytes := by
  unfold tag at h
  split at h
  · cases h
    rw [List.length_take, length_hmac]
    cases x <;> rfl
  · cases h

theorem encrypt_eq_ok_iff {x : ContentEncryption} {plaintext aad key iv : Bytes}
    {p : Protected} :
    x.encrypt plaintext aad key iv = .ok p ↔
      key.length = x.keyBytes ∧ p.iv = iv ∧ iv.length = 16 ∧
        Cbc.encrypt (key.drop x.halfKeyBytes) iv plaintext = some p.ciphertext ∧
        x.tag key aad iv p.ciphertext = .ok p.tag := by
  unfold encrypt
  simp only [bind_eq_ok_iff, checkKey_eq_ok_iff, checkIv_eq_ok_iff]
  constructor
  · rintro ⟨_, hkey, _, hiv, h⟩
    split at h
    · cases h
    · next ciphertext hc =>
      obtain ⟨t, ht, h⟩ := bind_eq_ok_iff.mp h
      cases h
      exact ⟨hkey, rfl, hiv, hc, ht⟩
  · rintro ⟨hkey, rfl, hiv, hc, ht⟩
    refine ⟨(), hkey, (), hiv, ?_⟩
    rw [hc]
    exact bind_eq_ok_iff.mpr ⟨p.tag, ht, rfl⟩

theorem decrypt_eq_ok_iff {x : ContentEncryption} {p : Protected}
    {aad key plaintext : Bytes} :
    x.decrypt p aad key = .ok plaintext ↔
      key.length = x.keyBytes ∧ x.tag key aad p.iv p.ciphertext = .ok p.tag ∧
        Cbc.decrypt (key.drop x.halfKeyBytes) p.iv p.ciphertext = some plaintext := by
  unfold decrypt
  simp only [bind_eq_ok_iff, checkKey_eq_ok_iff]
  constructor
  · rintro ⟨_, hkey, h⟩
    split at h
    · cases h
    · next expected ht =>
      split at h
      · next heq =>
        split at h
        · next out hc =>
          cases h
          exact ⟨hkey, heq ▸ ht, hc⟩
        · cases h
      · cases h
  · rintro ⟨hkey, ht, hc⟩
    refine ⟨(), hkey, ?_⟩
    rw [ht]
    simp only [hc, ↓reduceIte]
    rfl

/-- With the length of the key checked, every failure is the same one. -/
theorem eq_rejected_of_decrypt {x : ContentEncryption} {p : Protected} {aad key : Bytes}
    {e : Error} (hkey : key.length = x.keyBytes) (h : x.decrypt p aad key = .error e) :
    e = .rejectedContent := by
  have hcheck : x.checkKey key = .ok () := checkKey_eq_ok_iff.mpr hkey
  rw [decrypt, hcheck] at h
  simp only [bind, Except.bind] at h
  split at h
  · cases h; rfl
  · split at h
    · split at h <;> cases h; rfl
    · cases h; rfl

theorem decrypt_of_not_ok {x : ContentEncryption} {p : Protected} {aad key : Bytes}
    (hkey : key.length = x.keyBytes)
    (h : ∀ plaintext, x.decrypt p aad key ≠ .ok plaintext) :
    x.decrypt p aad key = .error .rejectedContent := by
  cases hd : x.decrypt p aad key with
  | ok plaintext => exact absurd hd (h plaintext)
  | error e => rw [eq_rejected_of_decrypt hkey hd]

theorem decrypt_eq_ok_iff_encrypt {x : ContentEncryption} {p : Protected}
    {aad key plaintext : Bytes} :
    x.decrypt p aad key = .ok plaintext ↔ x.encrypt plaintext aad key p.iv = .ok p := by
  rw [decrypt_eq_ok_iff, encrypt_eq_ok_iff, Cbc.decrypt_eq_some_iff_encrypt]
  constructor
  · rintro ⟨hkey, ht, hc⟩
    exact ⟨hkey, rfl, (Cbc.length_of_encrypt hc).1, hc, ht⟩
  · rintro ⟨hkey, -, -, hc, ht⟩
    exact ⟨hkey, ht, hc⟩

/-- What is cut wrong anywhere cannot be what an encryption gave. -/
theorem lengths_of_decrypt {x : ContentEncryption} {p : Protected} {aad key plaintext : Bytes}
    (h : x.decrypt p aad key = .ok plaintext) :
    p.iv.length = 16 ∧ p.ciphertext.length = 16 * (plaintext.length / 16 + 1) ∧
      p.tag.length = x.tagBytes := by
  obtain ⟨-, -, hiv, hc, ht⟩ := encrypt_eq_ok_iff.mp (decrypt_eq_ok_iff_encrypt.mp h)
  exact ⟨hiv, (Cbc.length_of_encrypt hc).2, length_of_tag ht⟩

/-- The vector travels with the content, so what was encrypted decrypts as it is. -/
theorem decrypt_of_encrypt {x : ContentEncryption} {p : Protected}
    {plaintext aad key iv : Bytes} (h : x.encrypt plaintext aad key iv = .ok p) :
    p.iv = iv ∧ x.decrypt p aad key = .ok plaintext := by
  have hiv : p.iv = iv := (encrypt_eq_ok_iff.mp h).2.1
  rw [← hiv] at h
  exact ⟨hiv, decrypt_eq_ok_iff_encrypt.mpr h⟩

theorem exists_tag_iff (x : ContentEncryption) (key aad iv ciphertext : Bytes) :
    (∃ t, x.tag key aad iv ciphertext = .ok t) ↔ aad.length * 8 < UInt64.size := by
  unfold tag
  split <;> simp_all

/-- Once the key and the vector have the right lengths, only associated data without end
is refused. -/
theorem exists_encrypt_iff {x : ContentEncryption} (plaintext aad : Bytes) {key iv : Bytes}
    (hkey : key.length = x.keyBytes) (hiv : iv.length = 16) :
    (∃ p, x.encrypt plaintext aad key iv = .ok p) ↔ aad.length * 8 < UInt64.size := by
  obtain ⟨ciphertext, hciphertext⟩ :=
    Cbc.exists_encrypt_eq (key.drop x.halfKeyBytes) plaintext hiv
  rw [← exists_tag_iff x key aad iv ciphertext]
  constructor
  · rintro ⟨p, hp⟩
    obtain ⟨-, -, -, hc, ht⟩ := encrypt_eq_ok_iff.mp hp
    rw [hciphertext] at hc
    cases hc
    exact ⟨p.tag, ht⟩
  · rintro ⟨t, ht⟩
    exact ⟨⟨ciphertext, iv, t⟩, encrypt_eq_ok_iff.mpr ⟨hkey, rfl, hiv, hciphertext, ht⟩⟩

theorem decrypt_rejects {x : ContentEncryption} {p : Protected} {aad key : Bytes}
    (hkey : key.length = x.keyBytes)
    (h : x.tag key aad p.iv p.ciphertext ≠ .ok p.tag ∨ p.tag.length ≠ x.tagBytes ∨
      p.iv.length ≠ 16 ∨ p.ciphertext = [] ∨ p.ciphertext.length % 16 ≠ 0 ∨
      Cbc.decrypt (key.drop x.halfKeyBytes) p.iv p.ciphertext = none) :
    x.decrypt p aad key = .error .rejectedContent := by
  refine decrypt_of_not_ok hkey fun plaintext hd => ?_
  obtain ⟨-, ht, hc⟩ := decrypt_eq_ok_iff.mp hd
  obtain ⟨hiv, hlen, htag⟩ := lengths_of_decrypt hd
  rcases h with h | h | h | h | h | h
  · exact h ht
  · exact h htag
  · exact h hiv
  · rw [h, List.length_nil] at hlen
    omega
  · omega
  · rw [h] at hc
    cases hc

/-- Decryption is the inverse of encryption in both directions. Once the key has the right
length, a tag of another value or length, a vector that is no block, a ciphertext that is
empty or ragged, and bad padding are all refused, and whatever is refused is refused with
the one error. -/
theorem decrypt_inverts_encrypt (x : ContentEncryption) (key iv aad ciphertext tag : Bytes) :
    (∀ plaintext, x.decrypt ⟨ciphertext, iv, tag⟩ aad key = .ok plaintext ↔
      x.encrypt plaintext aad key iv = .ok ⟨ciphertext, iv, tag⟩) ∧
    (key.length = x.keyBytes →
      (∀ e, x.decrypt ⟨ciphertext, iv, tag⟩ aad key = .error e → e = .rejectedContent) ∧
      (x.tag key aad iv ciphertext ≠ .ok tag ∨ tag.length ≠ x.tagBytes ∨ iv.length ≠ 16 ∨
          ciphertext = [] ∨ ciphertext.length % 16 ≠ 0 ∨
          Cbc.decrypt (key.drop x.halfKeyBytes) iv ciphertext = none →
        x.decrypt ⟨ciphertext, iv, tag⟩ aad key = .error .rejectedContent)) := by
  refine ⟨fun plaintext => decrypt_eq_ok_iff_encrypt, fun hkey =>
    ⟨fun e he => ?_, fun h => ?_⟩⟩
  · exact eq_rejected_of_decrypt hkey he
  · exact decrypt_rejects hkey h

theorem decrypt_empty_rejected :
    (List.replicate 32 (7 : UInt8)).length = aes128.keyBytes ∧
      aes128.decrypt ⟨[], List.replicate 16 0, List.replicate 16 1⟩ [1, 2]
        (List.replicate 32 7) = .error .rejectedContent := by
  have hkey : (List.replicate 32 (7 : UInt8)).length = aes128.keyBytes := by decide
  have h := decrypt_inverts_encrypt aes128 (List.replicate 32 7)
    (List.replicate 16 0) [1, 2] []
    (List.replicate 16 1)
  exact ⟨hkey, (h.2 hkey).2 (.inr (.inr (.inr (.inl rfl))))⟩

end Jose.ContentEncryption
