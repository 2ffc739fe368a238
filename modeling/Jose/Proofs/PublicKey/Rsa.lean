import Jose.Proofs.Hash.Hmac
import Jose.PublicKey.Rsa

/-! What signing gives out is accepted: the power is checked before it leaves, and written
with as many bytes as the modulus has. -/
namespace Jose.PublicKey

theorem powModStep_lt {m e : Nat} (hm : 0 < m) {state : Nat × Nat} (h : state.1 < m)
    (i : Nat) : (powModStep m e state i).1 < m := by
  rw [powModStep]
  dsimp only
  split
  · exact Nat.mod_lt _ hm
  · exact h

theorem powMod_lt {m : Nat} (hm : 0 < m) (base e : Nat) : powMod m base e < m := by
  have hfold : ∀ (is : List Nat) (state : Nat × Nat), state.1 < m →
      (is.foldl (powModStep m e) state).1 < m := by
    intro is
    induction is with
    | nil => exact fun state h => h
    | cons i is ih => exact fun state h => ih _ (powModStep_lt hm h i)
  exact hfold _ _ (Nat.mod_lt _ hm)

namespace Rsa
open Jose.Hash

theorem length_of_encoded {hash : Sha2} {size : Nat} {message em : Bytes}
    (h : encoded? hash size message = some em) : em.length = size ∧ 11 ≤ size := by
  rw [encoded?] at h
  split at h
  · cases h
    simp only [List.length_cons, List.length_append, List.length_replicate]
    omega
  · cases h

theorem modulus_pos {key : VerifyingKey} (h : 11 ≤ key.size) : 0 < key.modulus := by
  apply Nat.pos_of_ne_zero
  intro hzero
  rw [VerifyingKey.size, hzero] at h
  exact absurd h (by decide)

theorem verify_of_sign {hash : Sha2} {key : SigningKey} {message signature : Bytes}
    (h : sign hash key message = .ok signature) :
    verify hash key.verifyingKey signature message = true := by
  rw [sign] at h
  dsimp only at h
  split at h
  · cases h
  · next em hem =>
    split at h
    · next happly =>
      cases h
      obtain ⟨hlength, hsize⟩ := length_of_encoded hem
      have hlt := powMod_lt (modulus_pos hsize) (Bytes.toNat em) key.privateExponent
      have hread := Bytes.toNat_ofNat (Nat.lt_trans hlt (Bytes.lt_pow_widthOf _))
      rw [← VerifyingKey.size] at hread
      have hwritten : Bytes.ofNat key.verifyingKey.size (Bytes.toNat em) = em :=
        Bytes.ofNat_toNat hlength
      rw [verify]
      simp only [hread, hlt, Bytes.length_ofNat, happly, hwritten, hem, decide_true,
        Bool.and_self]
    · cases h

end Rsa
end Jose.PublicKey
