import Jose.Proofs.Decimal.Shortest
import Jose.Proofs.Json.Number

/-! Reading doubles. A number with a fraction or an exponent is read in steps that each
round, so what is read need not be the double that was written; but to every finite double
that is written belongs one that is read, and that is finite. -/
namespace Jose.Json
open Text Decimal Binary64

namespace Scientific

/-! ## Powers of ten -/

theorem isFinite_powerOfTen {k : Nat} (h : k ≤ maxPower) :
    (powerOfTen k).isFinite = true := by
  apply isFinite_ofNat
  have hmax : 10 ^ maxPower * 2 ^ unitBits < (2 ^ 54 - 1) * 2 ^ topBits := by decide +kernel
  have hpow : 10 ^ k ≤ 10 ^ maxPower := Nat.pow_le_pow_right (by decide) h
  exact Nat.lt_of_le_of_lt (Nat.mul_le_mul_right _ hpow) hmax

theorem two_le_powerOfTen {k : Nat} (hpos : 0 < k) (h : k ≤ maxPower) :
    2 * 2 ^ unitBits ≤ (powerOfTen k).units := by
  have hle := le_units_ofNat (isFinite_powerOfTen h)
  have hten : 10 * 2 ^ unitBits ≤ 10 ^ k * 2 ^ unitBits :=
    Nat.mul_le_mul_right _ (Nat.le_self_pow (Nat.ne_of_gt hpos) 10)
  rw [powerOfTen]
  rw [Nat.pow_eq] at hle ⊢
  omega

theorem isFinite_ofNat_of_le {n : Nat} (h : n ≤ wordMax) :
    (Binary64.ofNat n).isFinite = true := by
  apply isFinite_ofNat
  have hword : wordMax * 2 ^ unitBits < (2 ^ 54 - 1) * 2 ^ topBits := by decide +kernel
  exact Nat.lt_of_le_of_lt (Nat.mul_le_mul_right _ h) hword

/-! ## The magnitude -/

theorem isFinite_of_magnitude {s : Scientific} {x : Binary64} (hs : s.significand ≤ wordMax)
    (h : s.magnitude? = some x) : x.isFinite = true := by
  have hf := isFinite_ofNat_of_le hs
  unfold magnitude? at h
  dsimp only at h
  split at h
  · next hle =>
    split at h
    · next hneg =>
      rw [← Option.some.inj h]
      exact isFinite_div hf (two_le_powerOfTen (by omega) hle)
    · split at h
      · next hproduct =>
        rw [← Option.some.inj h]
        exact hproduct
      · cases h
  · next hlarge =>
    split at h
    · rw [← Option.some.inj h]
      exact hf
    · split at h
      · cases h
      · split at h
        · next hle =>
          have hfirst :=
            isFinite_div hf (two_le_powerOfTen (k := maxPower) (by decide) Nat.le.refl)
          rw [← Option.some.inj h]
          exact isFinite_div hfirst (two_le_powerOfTen (by omega) (by omega))
        · rw [← Option.some.inj h]
          exact isFinite_ofNat_of_le (Nat.zero_le _)

/-- Every number is a double that is far enough below the middle between the largest
double and the next power of two. -/
theorem exists_magnitude {s : Scientific} (hs : s.significand ≤ wordMax)
    (h : s.significand * 10 ^ s.exponent.toNat * 2 ^ unitBits ≤ (2 ^ 54 - 5) * 2 ^ topBits) :
    ∃ x, s.magnitude? = some x := by
  unfold magnitude?
  dsimp only
  split
  · next hle =>
    split
    · exact ⟨_, rfl⟩
    · next hnonneg =>
      have habs : s.exponent.natAbs = s.exponent.toNat := by omega
      rw [habs] at hle ⊢
      rw [← Nat.pow_eq] at h
      have hproduct : ((Binary64.ofNat s.significand).mul
        (powerOfTen s.exponent.toNat)).isFinite = true :=
        isFinite_mul_ofNat (isFinite_ofNat_of_le hs) (isFinite_powerOfTen hle) h
      rw [if_pos hproduct]
      exact ⟨_, rfl⟩
  · next hlarge =>
    split
    · exact ⟨_, rfl⟩
    · next hne =>
      have hneg : ¬0 ≤ s.exponent := by
        intro hnonneg
        have hmax : (2 ^ 54 - 5) * 2 ^ topBits < 10 ^ (maxPower + 1) * 2 ^ unitBits := by
          decide +kernel
        have hpow : 10 ^ (maxPower + 1) ≤ 10 ^ s.exponent.toNat :=
          Nat.pow_le_pow_right (by decide) (by omega)
        have hone := Nat.le_mul_of_pos_left (10 ^ s.exponent.toNat) (Nat.pos_of_ne_zero hne)
        have hle := Nat.mul_le_mul_right (2 ^ unitBits) (Nat.le_trans hpow hone)
        exact absurd (Nat.le_trans hle h) (Nat.not_le_of_lt hmax)
      rw [if_neg hneg]
      split
      · exact ⟨_, rfl⟩
      · exact ⟨_, rfl⟩

theorem exists_magnitude_of_nonpos {s : Scientific} (hs : s.significand ≤ wordMax)
    (h : s.exponent ≤ 0) : ∃ x, s.magnitude? = some x := by
  apply exists_magnitude hs
  have hword : wordMax * 2 ^ unitBits ≤ (2 ^ 54 - 5) * 2 ^ topBits := by decide +kernel
  rw [Int.toNat_of_nonpos h, Nat.pow_zero, Nat.mul_one]
  exact Nat.le_trans (Nat.mul_le_mul_right _ hs) hword

/-! ## What is read is in range -/

theorem inRange_signed {x : Binary64} (h : x.isFinite = true) (negative : Bool) :
    (signed negative x).InRange := by
  rw [signed, Number.InRange]
  split
  · rwa [isFinite_neg]
  · exact h

theorem inRange_of_read {s : Scientific} (hs : s.significand ≤ wordMax) {bs rest : Bytes}
    {n : Number} (h : s.read bs = .ok (n, rest)) : n.InRange := by
  rw [read] at h
  split at h
  · next x hx =>
    cases h
    exact inRange_signed (isFinite_of_magnitude hs hx) _
  · cases h

theorem inRange_whole {n : Nat} (h : n ≤ wordMax) (negative : Bool) :
    (whole negative n).InRange := by
  have hreal := inRange_signed (isFinite_ofNat_of_le h) true
  cases negative with
  | false =>
    rw [whole, Bool.not_false, if_pos rfl, Number.InRange]
    omega
  | true =>
    rw [whole, Bool.not_true, if_neg Bool.false_ne_true]
    split
    · next hsmall =>
      simp only [Bool.and_eq_true, decide_eq_true_eq] at hsmall
      rw [Number.InRange]
      omega
    · exact hreal

theorem inRange_of_readExponentDigits {s : Scientific} (hs : s.significand ≤ wordMax)
    {down : Bool} {e : Nat} {bs rest : Bytes} {n : Number}
    (h : s.readExponentDigits down e bs = .ok (n, rest)) : n.InRange := by
  induction bs generalizing e with
  | nil =>
    rw [readExponentDigits] at h
    refine inRange_of_read ?_ h
    exact hs
  | cons b bs ih =>
    rw [readExponentDigits] at h
    split at h
    · split at h
      · exact ih h
      · split at h
        · cases h
        · cases h
          exact inRange_signed (isFinite_ofNat_of_le (Nat.zero_le _)) _
    · refine inRange_of_read ?_ h
      exact hs

theorem inRange_of_readExponent {s : Scientific} (hs : s.significand ≤ wordMax)
    {bs rest : Bytes} {n : Number} (h : s.readExponent bs = .ok (n, rest)) : n.InRange := by
  have hfrom : ∀ down bs, s.readExponentFrom down bs = .ok (n, rest) → n.InRange := by
    intro down bs h
    rw [readExponentFrom.eq_def] at h
    split at h
    · cases h
    · split at h
      · exact inRange_of_readExponentDigits hs h
      · cases h
  unfold readExponent at h
  split at h
  · split at h <;> exact hfrom _ _ h
  · exact hfrom _ _ h

theorem inRange_of_readAfterFraction {s : Scientific} (hs : s.significand ≤ wordMax)
    {bs rest : Bytes}
    {n : Number} (h : s.readAfterFraction bs = .ok (n, rest)) : n.InRange := by
  unfold readAfterFraction at h
  split at h
  · split at h
    · exact inRange_of_readExponent hs h
    · exact inRange_of_readExponent hs h
    · exact inRange_of_read hs h
  · exact inRange_of_read hs h

theorem inRange_of_readFraction {s : Scientific} (hs : s.significand ≤ wordMax)
    {bs rest : Bytes} {n : Number} (h : s.readFraction bs = .ok (n, rest)) : n.InRange := by
  unfold readFraction at h
  split at h
  · exact inRange_of_readAfterFraction (takeDigits_le hs 0 bs) h
  · split at h <;> cases h

end Scientific

open Scientific

theorem inRange_of_readAfterInteger {negative : Bool} {m dropped : Nat} (hm : m ≤ wordMax)
    {bs rest : Bytes} {n : Number}
    (h : readAfterInteger negative m dropped bs = .ok (n, rest)) : n.InRange := by
  have hplain : ∀ bs, (if dropped = 0 then .ok (whole negative m, bs)
      else Scientific.read ⟨negative, m, dropped⟩ bs) = Except.ok (n, rest) → n.InRange := by
    intro bs h
    split at h
    · cases h
      exact inRange_whole hm negative
    · exact inRange_of_read hm h
  unfold readAfterInteger at h
  dsimp only at h
  split at h
  · split at h
    · exact inRange_of_readFraction hm h
    · exact inRange_of_readExponent hm h
    · exact inRange_of_readExponent hm h
    · exact hplain _ h
  · exact hplain _ h

theorem inRange_of_readNumber {negative : Bool} {bs rest : Bytes} {n : Number}
    (h : readNumber negative bs = .ok (n, rest)) : n.InRange := by
  unfold readNumber at h
  split at h
  · cases h
  · next b bs =>
    split at h
    · cases h
    · split at h
      · cases h
      · exact inRange_of_readAfterInteger (Nat.zero_le _) h
    · next d _ hdigit =>
      have hd : d ≤ wordMax :=
        Nat.le_trans (Nat.le_of_lt (digit?_eq_some_iff.mp hdigit).1) (by decide)
      exact inRange_of_readAfterInteger (takeDigits_le hd 1 bs) h

end Jose.Json
