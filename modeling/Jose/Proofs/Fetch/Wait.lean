import Jose.Fetch.Get
import Mathlib.Algebra.Group.Nat.Defs

/-! The wait before a retry. Its power and its product end at the largest numbers that
there are, but neither does so before the wait has reached its cap, so the wait is the
same as over all numbers. -/
namespace Jose.Fetch.Get

/-- A bound on the factor does not show in a product that is cut off below it. -/
theorem min_mul_min (wait factor : Nat) {bound cap : Nat} (h : cap ≤ bound) :
    min (wait * min factor bound) cap = min (wait * factor) cap := by
  rcases Nat.eq_zero_or_pos wait with rfl | hpos
  · simp
  rcases Nat.le_total factor bound with hle | hle
  · rw [Nat.min_eq_left hle]
  · have hbound : cap ≤ wait * bound := Nat.le_trans h (Nat.le_mul_of_pos_left bound hpos)
    have hfactor : cap ≤ wait * factor := Nat.le_trans hbound (Nat.mul_le_mul_left wait hle)
    rw [Nat.min_eq_right hle, Nat.min_eq_right hbound, Nat.min_eq_right hfactor]

/-- No exponent above 32 is needed for a power that is cut off at the largest word. -/
theorem min_pow_maxFactor (exponent : Nat) :
    min (2 ^ min 32 exponent) maxFactor = min (2 ^ exponent) maxFactor := by
  rcases Nat.le_total exponent 32 with hle | hle
  · rw [Nat.min_eq_right hle]
  · have hword : maxFactor ≤ 2 ^ 32 := by decide
    have hpow : 2 ^ 32 ≤ 2 ^ exponent := Nat.pow_le_pow_right (by decide) hle
    rw [Nat.min_eq_left hle, Nat.min_eq_right hword,
      Nat.min_eq_right (Nat.le_trans hword hpow)]

theorem retryWait_progressive {g : Get} (h : g.progressive = true) (attempt : Nat) :
    g.retryWait attempt = min (g.initialWait * 2 ^ (attempt - 1)) maxWait := by
  calc
    g.retryWait attempt =
        min (min (g.initialWait * min (2 ^ min 32 (attempt - 1)) maxFactor) maxSpan)
          maxWait := by
      simp [retryWait, h]
    _ = min (g.initialWait * min (2 ^ (attempt - 1)) maxFactor) maxWait := by
      rw [min_pow_maxFactor, Nat.min_assoc, Nat.min_eq_right (by decide : maxWait ≤ maxSpan)]
    _ = min (g.initialWait * 2 ^ (attempt - 1)) maxWait := min_mul_min _ _ (by decide)

/-- A wait that is to grow doubles from one attempt to the next as long as it stays within
eight seconds, whatever it starts from and however often it has doubled. Any other wait
stays as it is. -/
theorem waits_double_up_to_cap (g : Get) :
    (g.progressive = true →
      (∀ attempt, g.retryWait attempt = min (g.initialWait * 2 ^ (max attempt 1 - 1)) 8000) ∧
      (∀ attempt later, attempt ≤ later → g.retryWait attempt ≤ g.retryWait later) ∧
      ∀ attempt, g.retryWait attempt ≤ 8000) ∧
    (g.progressive = false → ∀ attempt, g.retryWait attempt = g.initialWait) := by
  refine ⟨fun h => ⟨fun attempt => ?_, fun attempt later hle => ?_, fun attempt => ?_⟩,
    fun h attempt => ?_⟩
  · have hfirst : max attempt 1 - 1 = attempt - 1 := by omega
    rw [retryWait_progressive h, hfirst]
    rfl
  · have hpow : 2 ^ (attempt - 1) ≤ 2 ^ (later - 1) :=
      Nat.pow_le_pow_right (by decide) (by omega)
    have hproduct := Nat.mul_le_mul_left g.initialWait hpow
    rw [retryWait_progressive h, retryWait_progressive h]
    omega
  · rw [retryWait_progressive h]
    exact Nat.min_le_right _ _
  · simp [retryWait, h]

/-- Both ends of the numbers of attempts, and the longest of all waits. -/
theorem waits_double_up_to_cap_at_bounds :
    (default.progressive = true ∧ default.retryWait 0 = 180 ∧ default.retryWait 6 = 5760 ∧
      default.retryWait 7 = 8000 ∧ default.retryWait 0xffffffff = 8000) ∧
    ({ default with initialWait := maxSpan }.retryWait 34 = 8000) ∧
    { default with initialWait := maxSpan, progressive := false }.retryWait 34 = maxSpan := by
  obtain ⟨hexact, hgrows, hcap⟩ := (waits_double_up_to_cap default).1 rfl
  have hseventh : default.retryWait 7 = 8000 := hexact 7
  have hlast : default.retryWait 0xffffffff = 8000 :=
    Nat.le_antisymm (hcap _) (hseventh ▸ hgrows 7 0xffffffff (by decide))
  refine ⟨⟨rfl, hexact 0, hexact 6, hseventh, hlast⟩, ?_, ?_⟩
  · exact ((waits_double_up_to_cap { default with initialWait := maxSpan }).1 rfl).1 34
  · exact (waits_double_up_to_cap
      { default with initialWait := maxSpan, progressive := false }).2 rfl 34

end Jose.Fetch.Get
