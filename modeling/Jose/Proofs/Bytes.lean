import Jose.Bytes
import Mathlib.Tactic.Ring

/-! Numbers and their bytes determine each other, as far as the width reaches. -/
namespace Jose.Bytes

theorem length_ofNat (width n : Nat) : (ofNat width n).length = width := by
  induction width generalizing n with
  | zero => rfl
  | succ width ih => rw [ofNat, List.length_append, ih]; rfl

theorem toNat_append_singleton (bs : Bytes) (b : UInt8) :
    toNat (bs ++ [b]) = toNat bs * 256 + b.toNat := by
  rw [toNat, toNat, List.foldl_append]
  rfl

theorem toNat_ofNat {width n : Nat} (h : n < 256 ^ width) : toNat (ofNat width n) = n := by
  induction width generalizing n with
  | zero =>
    have hzero : n = 0 := Nat.lt_one_iff.mp h
    subst hzero
    rfl
  | succ width ih =>
    rw [Nat.pow_succ] at h
    rw [ofNat, toNat_append_singleton, ih (by omega), UInt8.toNat_ofNat']
    omega

theorem ofNat_toNat {width : Nat} {bs : Bytes} (h : bs.length = width) :
    ofNat width (toNat bs) = bs := by
  induction width generalizing bs with
  | zero =>
    rw [List.length_eq_zero_iff.mp h]
    rfl
  | succ width ih =>
    have hne : bs ≠ [] := List.ne_nil_of_length_eq_add_one h
    have hlast := List.dropLast_concat_getLast hne
    have hlength : bs.dropLast.length = width := by
      rw [List.length_dropLast, h]
      rfl
    have hbyte := (bs.getLast hne).toNat_lt
    rw [← hlast, toNat_append_singleton, ofNat]
    have hfront : (toNat bs.dropLast * 256 + (bs.getLast hne).toNat) / 256 =
        toNat bs.dropLast := by
      omega
    have hback : UInt8.ofNat (toNat bs.dropLast * 256 + (bs.getLast hne).toNat) =
        bs.getLast hne := by
      apply UInt8.toNat_inj.mp
      rw [UInt8.toNat_ofNat']
      omega
    rw [hfront, ih hlength, hback]

theorem lt_pow_widthOf (n : Nat) : n < 256 ^ widthOf n := by
  have hpow : 256 ^ widthOf n = 2 ^ (8 * widthOf n) := by
    rw [Nat.pow_mul]
  rw [hpow]
  refine Nat.lt_of_lt_of_le Nat.lt_log2_self (Nat.pow_le_pow_right (by decide) ?_)
  rw [widthOf]
  omega

/-- More than `width` bytes are needed from the first number on that `width` bytes do not
hold. -/
theorem lt_widthOf_iff {width n : Nat} (hwidth : 0 < width) :
    width < widthOf n ↔ 256 ^ width ≤ n := by
  have hpow : 256 ^ width = 2 ^ (8 * width) := by
    rw [Nat.pow_mul]
  rw [widthOf, hpow]
  rcases Nat.eq_zero_or_pos n with rfl | hn
  · have hpos : 0 < 2 ^ (8 * width) := Nat.two_pow_pos _
    simp only [Nat.log2_zero]
    omega
  · rw [← Nat.le_log2 (Nat.ne_of_gt hn)]
    omega

end Jose.Bytes
