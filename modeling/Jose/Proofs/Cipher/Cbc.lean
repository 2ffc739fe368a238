import Jose.Cipher.Cbc
import Jose.Proofs.Cipher.Aes

/-! Chained deciphering gives a plaintext exactly for the ciphertext that chained
enciphering makes of it: the blocks of a byte string are unique, the chain is undone block
by block, and the padding that comes off is the one that was put on. -/
namespace Jose.Cipher

namespace Block

theorem split_append (b : Block) (rest : Bytes) :
    split (b.bytes ++ rest) = (b :: ·) <$> split rest := rfl

theorem join_cons (b : Block) (bs : List Block) : join (b :: bs) = b.bytes ++ join bs := by
  simp [join]

theorem join_singleton (b : Block) : join [b] = b.bytes := rfl

theorem split_bytes (b : Block) : split b.bytes = some [b] := rfl

theorem length_bytes (b : Block) : b.bytes.length = 16 := rfl

theorem length_join (bs : List Block) : (join bs).length = 16 * bs.length := by
  induction bs with
  | nil => rfl
  | cons b bs ih =>
    rw [join_cons, List.length_append, length_bytes, ih, List.length_cons]
    omega

theorem split_join (bs : List Block) : split (join bs) = some bs := by
  induction bs with
  | nil => rfl
  | cons b bs ih => rw [join_cons, split_append, ih]; rfl

theorem eq_join_of_split {bytes : Bytes} {bs : List Block} (h : split bytes = some bs) :
    bytes = join bs := by
  fun_induction split bytes generalizing bs with
  | case1 => cases h; rfl
  | case2 a0 a1 a2 a3 b0 b1 b2 b3 c0 c1 c2 c3 d0 d1 d2 d3 rest ih =>
    obtain ⟨tail, htail, rfl⟩ := Option.map_eq_some_iff.mp h
    rw [join_cons, ← ih htail]
    rfl
  | case3 => cases h

theorem exists_bytes_eq (bytes : Bytes) (h : bytes.length = 16) :
    ∃ b : Block, b.bytes = bytes :=
  match bytes, h with
  | [a0, a1, a2, a3, b0, b1, b2, b3, c0, c1, c2, c3, d0, d1, d2, d3], _ =>
    ⟨⟨⟨a0, a1, a2, a3⟩, ⟨b0, b1, b2, b3⟩, ⟨c0, c1, c2, c3⟩, ⟨d0, d1, d2, d3⟩⟩, rfl⟩

theorem exists_join_eq (n : Nat) (bytes : Bytes) (h : bytes.length = 16 * n) :
    ∃ bs, join bs = bytes := by
  induction n generalizing bytes with
  | zero => exact ⟨[], (List.length_eq_zero_iff.mp h).symm⟩
  | succ n ih =>
    obtain ⟨b, hb⟩ := exists_bytes_eq (bytes.take 16) (by rw [List.length_take]; omega)
    obtain ⟨bs, hbs⟩ := ih (bytes.drop 16) (by rw [List.length_drop]; omega)
    exact ⟨b :: bs, by rw [join_cons, hb, hbs, List.take_append_drop]⟩

end Block

namespace Cbc

/-! ## Padding -/

theorem length_pad (bs : Bytes) : (pad bs).length = 16 * (bs.length / 16 + 1) := by
  simp only [pad, blockBytes, List.length_append, List.length_replicate]
  omega

theorem unpad_pad (bs : Bytes) : unpad (pad bs) = some bs := by
  have hn : 0 < blockBytes - bs.length % blockBytes := by unfold blockBytes; omega
  have hle : blockBytes - bs.length % blockBytes ≤ blockBytes := Nat.sub_le ..
  unfold pad
  generalize blockBytes - bs.length % blockBytes = n at hn hle
  have hbyte : (UInt8.ofNat n).toNat = n := by
    unfold blockBytes at hle
    simpa using show n < 256 by omega
  have hlast : (bs ++ List.replicate n (UInt8.ofNat n)).getLast? = some (UInt8.ofNat n) := by
    rw [List.getLast?_append, List.getLast?_replicate, if_neg (by omega)]
    rfl
  unfold unpad
  rw [hlast]
  simp [hbyte, hn, hle]

/-- Whole blocks whose padding comes off are a padded plaintext. -/
theorem eq_pad_of_unpad {padded bs : Bytes} (hlen : padded.length % 16 = 0)
    (h : unpad padded = some bs) : padded = pad bs := by
  unfold unpad at h
  split at h
  · cases h
  · next b hb =>
    simp only at h
    split at h
    · next hc =>
      simp only [Bool.and_eq_true, decide_eq_true_eq] at hc
      unfold blockBytes at hc
      obtain ⟨⟨⟨hpos, hle⟩, hfit⟩, hdrop⟩ := hc
      cases h
      -- The bytes that stay are short of whole blocks by just what came off.
      have hn : 16 - (padded.take (padded.length - b.toNat)).length % 16 = b.toNat := by
        rw [List.length_take, Nat.min_eq_left (Nat.sub_le ..)]
        omega
      rw [pad, blockBytes, hn, UInt8.ofNat_toNat, ← hdrop, List.take_append_drop]
    · cases h

/-! ## Chaining -/

theorem unchain_chain {cipher decipher : Block → Block} (h : ∀ b, decipher (cipher b) = b)
    (v : Block) (bs : List Block) : unchain decipher v (chain cipher v bs) = bs := by
  induction bs generalizing v with
  | nil => rfl
  | cons b bs ih => simp only [chain, unchain, h, Block.xor_cancel, ih]

theorem chain_unchain {cipher decipher : Block → Block} (h : ∀ b, cipher (decipher b) = b)
    (v : Block) (cs : List Block) : chain cipher v (unchain decipher v cs) = cs := by
  induction cs generalizing v with
  | nil => rfl
  | cons c cs ih => simp only [chain, unchain, h, Block.xor_cancel, ih]

theorem length_chain (cipher : Block → Block) (v : Block) (bs : List Block) :
    (chain cipher v bs).length = bs.length := by
  induction bs generalizing v with
  | nil => rfl
  | cons b bs ih => rw [chain, List.length_cons, ih, List.length_cons]

/-! ## Bytes -/

theorem encrypt_eq_some_iff {key iv plaintext ciphertext : Bytes} :
    encrypt key iv plaintext = some ciphertext ↔
      ∃ v bs, iv = Block.bytes v ∧ pad plaintext = Block.join bs ∧
        ciphertext = Block.join (chain (Aes.encrypt (Aes.schedule key)) v bs) := by
  unfold encrypt
  constructor
  · intro h
    split at h
    · next v bs hv hbs =>
      cases h
      have hiv := Block.eq_join_of_split hv
      rw [Block.join_singleton] at hiv
      exact ⟨v, bs, hiv, Block.eq_join_of_split hbs, rfl⟩
    · cases h
  · rintro ⟨v, bs, rfl, hpad, rfl⟩
    rw [hpad, Block.split_join, Block.split_bytes]

theorem decrypt_eq_some_iff {key iv plaintext ciphertext : Bytes} :
    decrypt key iv ciphertext = some plaintext ↔
      ∃ v cs, iv = Block.bytes v ∧ ciphertext = Block.join cs ∧
        pad plaintext = Block.join (unchain (Aes.decrypt (Aes.schedule key)) v cs) := by
  unfold decrypt
  constructor
  · intro h
    split at h
    · next v cs hv hcs =>
      have hiv := Block.eq_join_of_split hv
      rw [Block.join_singleton] at hiv
      have hwhole :
          (Block.join (unchain (Aes.decrypt (Aes.schedule key)) v cs)).length % 16 = 0 := by
        rw [Block.length_join, Nat.mul_mod_right]
      exact ⟨v, cs, hiv, Block.eq_join_of_split hcs, (eq_pad_of_unpad hwhole h).symm⟩
    · cases h
  · rintro ⟨v, cs, rfl, rfl, hpad⟩
    rw [Block.split_bytes, Block.split_join]
    simp only
    rw [← hpad, unpad_pad]

/-- Deciphering gives back exactly what was enciphered. -/
theorem decrypt_eq_some_iff_encrypt {key iv plaintext ciphertext : Bytes} :
    decrypt key iv ciphertext = some plaintext ↔
      encrypt key iv plaintext = some ciphertext := by
  rw [decrypt_eq_some_iff, encrypt_eq_some_iff]
  constructor
  · rintro ⟨v, cs, hv, rfl, hpad⟩
    exact ⟨v, _, hv, hpad, by rw [chain_unchain (Aes.encrypt_decrypt _)]⟩
  · rintro ⟨v, bs, hv, hpad, rfl⟩
    exact ⟨v, _, hv, rfl, by rw [unchain_chain (Aes.decrypt_encrypt _), hpad]⟩

/-- The vector is one block, and the ciphertext has one block more than the plaintext
fills. -/
theorem length_of_encrypt {key iv plaintext ciphertext : Bytes}
    (h : encrypt key iv plaintext = some ciphertext) :
    iv.length = 16 ∧ ciphertext.length = 16 * (plaintext.length / 16 + 1) := by
  obtain ⟨v, bs, rfl, hpad, rfl⟩ := encrypt_eq_some_iff.mp h
  refine ⟨Block.length_bytes v, ?_⟩
  rw [Block.length_join, length_chain, ← length_pad, hpad, Block.length_join]

theorem exists_encrypt_eq (key plaintext : Bytes) {iv : Bytes} (h : iv.length = 16) :
    ∃ ciphertext, encrypt key iv plaintext = some ciphertext := by
  obtain ⟨v, rfl⟩ := Block.exists_bytes_eq iv h
  obtain ⟨bs, hbs⟩ := Block.exists_join_eq _ (pad plaintext) (length_pad plaintext)
  exact ⟨_, encrypt_eq_some_iff.mpr ⟨v, bs, rfl, hbs.symm, rfl⟩⟩

end Cbc
end Jose.Cipher
