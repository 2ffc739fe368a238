import Jose.Decimal.Shortest
import Jose.Proofs.Decimal.Binary64

/-! The digits of a double stand for a number that is not above its interval. They need
not be the shortest for that, and it holds also where the search would give up. -/
namespace Jose.Decimal

namespace Interval

theorem le_of_contains {i : Interval} {e : Int} {digits : Nat}
    (h : i.contains e digits = true) :
    0 < digits ∧ digits * gridStep e ≤ onGrid e i.high := by
  simp only [contains, Bool.and_eq_true, decide_eq_true_eq] at h
  obtain ⟨hpos, h⟩ := h
  refine ⟨hpos, ?_⟩
  split at h
  · simp only [Bool.and_eq_true, decide_eq_true_eq] at h
    exact h.2
  · simp only [Bool.and_eq_true, decide_eq_true_eq] at h
    exact Nat.le_of_lt h.2

theorem contains_of_hit {i : Interval} {e : Int} {digits : Nat} (h : i.hit? e = some digits) :
    i.contains e digits = true := by
  unfold hit? at h
  dsimp only at h
  split at h
  · cases h
  · next hlow _ =>
    cases h
    exact hlow
  · next _ hhigh =>
    cases h
    exact hhigh
  · next hlow hhigh =>
    have hboth : digits = onGrid e i.value / gridStep e ∨
        digits = onGrid e i.value / gridStep e + 1 := by
      split at h
      · exact .inl (Option.some.inj h).symm
      · split at h
        · exact .inr (Option.some.inj h).symm
        · split at h
          · exact .inl (Option.some.inj h).symm
          · exact .inr (Option.some.inj h).symm
    rcases hboth with rfl | rfl
    · exact hlow
    · exact hhigh

theorem search_le {i : Interval} (hi : i.value ≤ i.high) (e : Int) (fuel : Nat) :
    (i.search e fuel).coefficient * gridStep (i.search e fuel).exponent ≤
      onGrid (i.search e fuel).exponent i.high := by
  induction fuel generalizing e with
  | zero =>
    have hstep : gridStep 0 = unitsPerOne := Nat.mul_one _
    rw [search, hstep]
    exact Nat.le_trans (Nat.div_mul_le_self i.value unitsPerOne) hi
  | succ fuel ih =>
    rw [search]
    split
    · next digits h => exact (le_of_contains (contains_of_hit h)).2
    · exact ih (e - 1)

theorem search_pos (i : Interval) (e : Int) (fuel : Nat) :
    0 < (i.search e fuel).coefficient ∨ (i.search e fuel).exponent = 0 := by
  induction fuel generalizing e with
  | zero => exact .inr rfl
  | succ fuel ih =>
    rw [search]
    split
    · next digits h => exact .inl (le_of_contains (contains_of_hit h)).1
    · exact ih (e - 1)

theorem le_exponent_search (i : Interval) (e : Int) (fuel : Nat) :
    e - fuel ≤ (i.search e fuel).exponent ∨ (i.search e fuel).exponent = 0 := by
  induction fuel generalizing e with
  | zero => exact .inr rfl
  | succ fuel ih =>
    rw [search]
    split
    · left
      dsimp only
      omega
    · rcases ih (e - 1) with h | h
      · exact .inl (by omega)
      · exact .inr h

end Interval

open Binary64

theorem shortest_congr {x y : Binary64} (hsignificand : x.significand = y.significand)
    (hscale : x.scale = y.scale) : shortest x = shortest y := by
  rw [shortest, shortest, Interval.ofBinary64, Interval.ofBinary64, hsignificand, hscale]

/-- At most half a unit of the last place is added. The power of ten stands on the side
where its exponent is positive. -/
theorem shortest_le (x : Binary64) :
    2 * ((shortest x).coefficient * 10 ^ (shortest x).exponent.toNat * 2 ^ unitBits) ≤
      (2 * x.significand + 1) * 2 ^ x.scale * 10 ^ (-(shortest x).exponent).toNat := by
  have hvalue : (Interval.ofBinary64 x).value ≤ (Interval.ofBinary64 x).high :=
    Nat.le_add_right _ _
  have hle := Interval.search_le hvalue (Interval.ofBinary64 x).topExponent 20
  change (shortest x).coefficient * Interval.gridStep (shortest x).exponent ≤
    Interval.onGrid (shortest x).exponent (Interval.ofBinary64 x).high at hle
  have hhigh :
      (Interval.ofBinary64 x).high = 2 * ((2 * x.significand + 1) * 2 ^ x.scale) := by
    simp only [Interval.ofBinary64, Nat.one_shiftLeft]
    ring
  have hstep : Interval.gridStep (shortest x).exponent =
      4 * 2 ^ unitBits * 10 ^ (shortest x).exponent.toNat := by
    have hone : Interval.unitsPerOne = 4 * 2 ^ unitBits := by
      have hbits : 1076 = 2 + unitBits := rfl
      rw [Interval.unitsPerOne, hbits, Nat.one_shiftLeft, Nat.pow_add]
    rw [Interval.gridStep, hone, Nat.pow_eq]
  have hgrid : Interval.onGrid (shortest x).exponent (Interval.ofBinary64 x).high =
      (Interval.ofBinary64 x).high * 10 ^ (-(shortest x).exponent).toNat := by
    rw [Interval.onGrid]
    split
    · next h =>
      have hzero : (-(shortest x).exponent).toNat = 0 := by omega
      rw [hzero, Nat.pow_zero, Nat.mul_one]
    · rw [Nat.pow_eq]
  rw [hgrid, hstep, hhigh] at hle
  apply Nat.le_of_mul_le_mul_left (c := 2) _ (by decide)
  calc
    _ = (shortest x).coefficient *
      (4 * 2 ^ unitBits * 10 ^ (shortest x).exponent.toNat) := by ring
    _ ≤ 2 * ((2 * x.significand + 1) * 2 ^ x.scale) * 10 ^ (-(shortest x).exponent).toNat :=
      hle
    _ = _ := by ring

theorem le_exponent_shortest (x : Binary64) : -400 ≤ (shortest x).exponent := by
  have hsearch := Interval.le_exponent_search (Interval.ofBinary64 x)
    (Interval.ofBinary64 x).topExponent 20
  change _ ≤ (shortest x).exponent ∨ (shortest x).exponent = 0 at hsearch
  have htop : -324 ≤ (Interval.ofBinary64 x).topExponent := by
    rw [Interval.topExponent]
    omega
  omega

/-- The coefficients of the two largest doubles; both have the exponent 292. -/
def largestCoefficients : List Nat := [17976931348623157, 17976931348623155]

/-- The digits of all but the two largest doubles leave room for the rounding of a
product. -/
theorem shortest_le_of_isFinite {x : Binary64} (h : x.isFinite = true) :
    (∃ c ∈ largestCoefficients, shortest x = ⟨c, 292⟩) ∨
      (shortest x).coefficient * 10 ^ (shortest x).exponent.toNat * 2 ^ unitBits ≤
        (2 ^ 54 - 5) * 2 ^ topBits * 10 ^ (-(shortest x).exponent).toNat := by
  have hscale := scale_le_of_isFinite h
  have hsignificand := significand_lt x
  have hroom : (2 * x.significand + 1) * 2 ^ x.scale ≤ 2 * ((2 ^ 54 - 5) * 2 ^ topBits) →
      (shortest x).coefficient * 10 ^ (shortest x).exponent.toNat * 2 ^ unitBits ≤
        (2 ^ 54 - 5) * 2 ^ topBits * 10 ^ (-(shortest x).exponent).toNat := by
    intro hle
    have := Nat.mul_le_mul_right (10 ^ (-(shortest x).exponent).toNat) hle
    rw [Nat.mul_assoc 2] at this
    exact Nat.le_of_mul_le_mul_left (Nat.le_trans (shortest_le x) this) (by decide)
  rcases Nat.lt_or_ge x.scale (topBits + 1) with hlow | htop
  · refine .inr (hroom ?_)
    have hpow : 2 ^ x.scale ≤ 2 ^ topBits := Nat.pow_le_pow_right (by decide) (by omega)
    have hle : 2 * x.significand + 1 ≤ 2 * (2 ^ 54 - 5) := by omega
    rw [← Nat.mul_assoc]
    exact Nat.mul_le_mul hle hpow
  · have hscale : x.scale = topBits + 1 := by omega
    by_cases hfirst : x.significand = 2 ^ 53 - 1
    · rw [shortest_congr (y := ⟨0x7FEFFFFFFFFFFFFF⟩) (hfirst.trans (by decide))
        (hscale.trans (by decide))]
      exact .inl ⟨17976931348623157, by decide, by decide +kernel⟩
    by_cases hsecond : x.significand = 2 ^ 53 - 2
    · rw [shortest_congr (y := ⟨0x7FEFFFFFFFFFFFFE⟩) (hsecond.trans (by decide))
        (hscale.trans (by decide))]
      exact .inl ⟨17976931348623155, by decide, by decide +kernel⟩
    · refine .inr (hroom ?_)
      have hle : 2 * x.significand + 1 ≤ 2 ^ 54 - 5 := by omega
      have hdouble : (2 ^ 54 - 5) * 2 ^ x.scale = 2 * ((2 ^ 54 - 5) * 2 ^ topBits) := by
        rw [hscale, Nat.pow_succ]
        omega
      rw [← hdouble]
      exact Nat.mul_le_mul_right _ hle

/-- The power of ten of the leading digit is not much above that of the largest double. -/
theorem exponent_shortest_add_le {x : Binary64} (h : x.isFinite = true) {k : Nat}
    (hk : 10 ^ k ≤ (shortest x).coefficient) : (shortest x).exponent + k ≤ 400 := by
  by_contra hlarge
  have hsplit : k + (shortest x).exponent.toNat ≥ 400 + (-(shortest x).exponent).toNat := by
    omega
  have hpow : 10 ^ 400 * 10 ^ (-(shortest x).exponent).toNat ≤
      10 ^ k * 10 ^ (shortest x).exponent.toNat := by
    rw [← Nat.pow_add, ← Nat.pow_add]
    exact Nat.pow_le_pow_right (by decide) hsplit
  have hroom : (2 * x.significand + 1) * 2 ^ x.scale ≤ 2 ^ 54 * 2 ^ (topBits + 1) := by
    have := significand_lt x
    exact Nat.mul_le_mul (by omega)
      (Nat.pow_le_pow_right (by decide) (scale_le_of_isFinite h))
  have hmax : 2 ^ 54 * 2 ^ (topBits + 1) < 10 ^ 400 * 2 ^ unitBits := by decide +kernel
  have hchain : 10 ^ 400 * 2 ^ unitBits * 10 ^ (-(shortest x).exponent).toNat ≤
      2 ^ 54 * 2 ^ (topBits + 1) * 10 ^ (-(shortest x).exponent).toNat := by
    calc
      _ = 10 ^ 400 * 10 ^ (-(shortest x).exponent).toNat * 2 ^ unitBits :=
        Nat.mul_right_comm _ _ _
      _ ≤ 10 ^ k * 10 ^ (shortest x).exponent.toNat * 2 ^ unitBits :=
        Nat.mul_le_mul_right _ hpow
      _ ≤ (shortest x).coefficient * 10 ^ (shortest x).exponent.toNat * 2 ^ unitBits :=
        Nat.mul_le_mul_right _ (Nat.mul_le_mul_right _ hk)
      _ ≤ 2 * ((shortest x).coefficient * 10 ^ (shortest x).exponent.toNat * 2 ^ unitBits) :=
        Nat.le_mul_of_pos_left _ (by decide)
      _ ≤ _ := shortest_le x
      _ ≤ _ := Nat.mul_le_mul_right _ hroom
  exact absurd (Nat.le_of_mul_le_mul_right hchain (Nat.pow_pos (by decide)))
    (Nat.not_le_of_lt hmax)

theorem shortest_pos (x : Binary64) :
    0 < (shortest x).coefficient ∨ (shortest x).exponent = 0 := Interval.search_pos _ _ _

end Jose.Decimal
