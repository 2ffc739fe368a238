import Jose.Decimal.Binary64
import Mathlib.Tactic.Ring

/-! Rounding is off by at most one part in `2 ^ 53`, and a ratio below the middle between
the largest double and its next power of two rounds to a finite double. Magnitudes are
compared in units of the smallest subnormal, so that all of this is said of natural
numbers. -/
namespace Jose.Decimal.Binary64

/-- A unit is two to this power less than one. -/
def unitBits : Nat := 1074

/-- Half the unit of the last place of the largest doubles is two to this power. -/
def topBits : Nat := 2044

/-- The magnitude in units of the smallest subnormal. -/
def units (x : Binary64) : Nat := x.significand * 2 ^ x.scale

theorem magnitude_fst (x : Binary64) : x.magnitude.1 = x.units := Nat.shiftLeft_eq _ _

theorem magnitude_snd (x : Binary64) : x.magnitude.2 = 2 ^ unitBits :=
  Nat.one_shiftLeft unitBits

theorem leadingBit_eq : leadingBit = 2 ^ 52 := rfl

theorem fractionField_lt (x : Binary64) : x.fractionField < 2 ^ 52 := Nat.mod_lt _ (by decide)

theorem significand_lt (x : Binary64) : x.significand < 2 ^ 53 := by
  have h := x.fractionField_lt
  rw [significand, leadingBit_eq]
  split <;> omega

theorem isFinite_iff {x : Binary64} : x.isFinite = true ↔ x.exponentField ≠ 2047 := by
  simp [isFinite]

theorem scale_le_of_isFinite {x : Binary64} (h : x.isFinite = true) :
    x.scale ≤ topBits + 1 := by
  have hfield : x.exponentField < 2048 := Nat.mod_lt _ (by decide)
  have hne := isFinite_iff.mp h
  rw [scale, topBits]
  omega

theorem units_lt_of_isFinite {x : Binary64} (h : x.isFinite = true) :
    x.units < 2 ^ 54 * 2 ^ topBits := by
  have hscale : 2 ^ x.scale ≤ 2 ^ (topBits + 1) :=
    Nat.pow_le_pow_right (by decide) (scale_le_of_isFinite h)
  calc
    x.units < 2 ^ 53 * 2 ^ x.scale :=
      (Nat.mul_lt_mul_right (Nat.two_pow_pos _)).mpr x.significand_lt
    _ ≤ 2 ^ 53 * 2 ^ (topBits + 1) := Nat.mul_le_mul_left _ hscale
    _ = 2 ^ 54 * 2 ^ topBits := by ring

theorem isNan_of_isFinite {x : Binary64} (h : x.isFinite = true) : x.isNan = false := by
  simp [isNan, isFinite_iff.mp h]

/-! ## Fields -/

theorem toNat_bits_ofFields {negative : Bool} {word : Nat} (h : word < 2 ^ 63) :
    (ofFields negative 0 word).bits.toNat = (if negative then 2 ^ 63 else 0) + word := by
  rw [ofFields, UInt64.toNat_ofNat', Nat.mod_eq_of_lt]
  · split <;> omega
  · split <;> omega

theorem exponentField_ofFields {negative : Bool} {word : Nat} (h : word < 2 ^ 63) :
    (ofFields negative 0 word).exponentField = word / 2 ^ 52 := by
  rw [exponentField, toNat_bits_ofFields h, Nat.shiftRight_eq_div_pow]
  split <;> omega

theorem fractionField_ofFields {negative : Bool} {word : Nat} (h : word < 2 ^ 63) :
    (ofFields negative 0 word).fractionField = word % 2 ^ 52 := by
  rw [fractionField, toNat_bits_ofFields h, leadingBit_eq]
  split <;> omega

theorem isFinite_ofFields {negative : Bool} {word : Nat} (h : word < 2047 * 2 ^ 52) :
    (ofFields negative 0 word).isFinite = true := by
  rw [isFinite_iff, exponentField_ofFields (by omega)]
  omega

theorem isFinite_infinity (negative : Bool) : (infinity negative).isFinite = false := by
  cases negative <;> decide

theorem exponentField_neg (x : Binary64) : x.neg.exponentField = x.exponentField := by
  have hsign : (0x8000000000000000 : UInt64).toNat >>> 52 = 2048 := by decide
  rw [exponentField, exponentField, neg, UInt64.toNat_xor, Nat.shiftRight_xor_distrib, hsign]
  exact (Nat.xor_mod_two_pow (n := 11)).trans (Nat.xor_zero _)

theorem isFinite_neg (x : Binary64) : x.neg.isFinite = x.isFinite := by
  rw [isFinite, isFinite, exponentField_neg]

/-! ## Rounding -/

theorem nearestQuotient_cases (num den : Nat) :
    (nearestQuotient num den = num / den ∧ 2 * (num % den) ≤ den) ∨
      (nearestQuotient num den = num / den + 1 ∧ den ≤ 2 * (num % den)) := by
  unfold nearestQuotient
  dsimp only
  split
  · exact .inl ⟨rfl, by omega⟩
  · split
    · exact .inr ⟨rfl, by omega⟩
    · split
      · exact .inl ⟨rfl, by omega⟩
      · exact .inr ⟨rfl, by omega⟩

theorem nearestQuotient_le (num den : Nat) :
    2 * (nearestQuotient num den * den) ≤ 2 * num + den := by
  have hdiv := Nat.div_add_mod num den
  rw [Nat.mul_comm] at hdiv
  rcases nearestQuotient_cases num den with ⟨h, -⟩ | ⟨h, hmod⟩
  · rw [h]
    omega
  · rw [h, Nat.add_one_mul (num / den)]
    omega

theorem le_nearestQuotient (num : Nat) {den : Nat} (hden : 0 < den) :
    2 * num ≤ 2 * (nearestQuotient num den * den) + den := by
  have hdiv := Nat.div_add_mod num den
  rw [Nat.mul_comm] at hdiv
  rcases nearestQuotient_cases num den with ⟨h, hmod⟩ | ⟨h, hmod⟩
  · rw [h]
    omega
  · rw [h, Nat.add_one_mul (num / den)]
    have := Nat.mod_lt num hden
    omega

/-- A quotient that falls short of a bound by more than a half rounds to less than the
bound. -/
theorem nearestQuotient_lt {num den bound : Nat} (h : 2 * num + den < 2 * (bound * den)) :
    nearestQuotient num den < bound := by
  have hle := nearestQuotient_le num den
  exact Nat.lt_of_mul_lt_mul_right (a := den) (by omega)

/-- The significand before it is packed. -/
def rounded (num den : Nat) : Nat :=
  nearestQuotient (num <<< unitBits) (den <<< scaleOf num den)

theorem lt_two_pow_scaleOf (num den : Nat) :
    num <<< unitBits / den < 2 ^ (scaleOf num den + 53) := by
  have h := Nat.lt_log2_self (n := num <<< unitBits / den)
  refine Nat.lt_of_lt_of_le h (Nat.pow_le_pow_right (by decide) ?_)
  rw [scaleOf, unitBits]
  omega

theorem two_pow_scaleOf_le {num den : Nat} (h : 0 < scaleOf num den) :
    2 ^ (scaleOf num den + 52) ≤ num <<< unitBits / den := by
  have hne : num <<< unitBits / den ≠ 0 := by
    intro hzero
    rw [unitBits] at hzero
    rw [scaleOf, hzero] at h
    exact absurd h (by decide)
  refine Nat.le_trans (Nat.pow_le_pow_right (by decide) ?_) (Nat.log2_self_le hne)
  rw [scaleOf] at h ⊢
  rw [unitBits]
  omega

theorem shiftLeft_div_shiftLeft (num den : Nat) :
    num <<< unitBits / den <<< scaleOf num den =
      num <<< unitBits / den / 2 ^ scaleOf num den := by
  rw [Nat.shiftLeft_eq den, Nat.div_div_eq_div_mul]

theorem rounded_le_two_pow (num den : Nat) : rounded num den ≤ 2 ^ 53 := by
  have hlt : num <<< unitBits / den / 2 ^ scaleOf num den < 2 ^ 53 := by
    rw [Nat.div_lt_iff_lt_mul (Nat.two_pow_pos _), ← Nat.pow_add, Nat.add_comm]
    exact lt_two_pow_scaleOf num den
  rw [rounded]
  rcases nearestQuotient_cases (num <<< unitBits) (den <<< scaleOf num den)
    with ⟨h, -⟩ | ⟨h, -⟩ <;>
    rw [h, shiftLeft_div_shiftLeft] <;> omega

/-- Apart from the subnormals, every significand has all its bits. -/
theorem leadingBit_le_rounded {num den : Nat} (h : 0 < scaleOf num den) :
    2 ^ 52 ≤ rounded num den := by
  have hle : 2 ^ 52 ≤ num <<< unitBits / den / 2 ^ scaleOf num den := by
    rw [Nat.le_div_iff_mul_le (Nat.two_pow_pos _), ← Nat.pow_add, Nat.add_comm]
    exact two_pow_scaleOf_le h
  rw [rounded]
  rcases nearestQuotient_cases (num <<< unitBits) (den <<< scaleOf num den)
    with ⟨h, -⟩ | ⟨h, -⟩ <;>
    rw [h, shiftLeft_div_shiftLeft] <;> omega

/-- The packed fields, without the sign. -/
def packed (num den : Nat) : Nat :=
  if rounded num den < 2 ^ 52 then rounded num den
  else scaleOf num den * 2 ^ 52 + rounded num den

theorem round_eq (negative : Bool) (num den : Nat) :
    round negative num den =
      if packed num den < 2047 * 2 ^ 52 then ofFields negative 0 (packed num den)
      else infinity negative := rfl

theorem isFinite_round_iff {negative : Bool} {num den : Nat} :
    (round negative num den).isFinite = true ↔ packed num den < 2047 * 2 ^ 52 := by
  rw [round_eq]
  split
  · next h => exact iff_of_true (isFinite_ofFields h) h
  · next h => exact iff_of_false (by rw [isFinite_infinity]; exact Bool.false_ne_true) h

/-- A significand that rounds up to the next power of two is packed into the next
exponent. -/
theorem units_round {negative : Bool} {num den : Nat}
    (h : (round negative num den).isFinite = true) :
    (round negative num den).units = rounded num den * 2 ^ scaleOf num den := by
  have hword := isFinite_round_iff.mp h
  have hle := rounded_le_two_pow num den
  have hsmall : packed num den < 2 ^ 63 := by omega
  have hfield : (ofFields negative 0 (packed num den)).exponentField = _ :=
    exponentField_ofFields hsmall
  have hfraction : (ofFields negative 0 (packed num den)).fractionField = _ :=
    fractionField_ofFields hsmall
  rw [round_eq, if_pos hword, units, significand, scale, hfield, hfraction, leadingBit_eq]
  by_cases hsmall : rounded num den < 2 ^ 52
  · have hscale : scaleOf num den = 0 := by
      by_contra hne
      have := leadingBit_le_rounded (Nat.pos_of_ne_zero hne)
      omega
    have hpacked : packed num den = rounded num den := if_pos hsmall
    have hexponent : rounded num den / 2 ^ 52 = 0 := Nat.div_eq_of_lt hsmall
    rw [hpacked, hexponent, hscale, if_pos rfl, Nat.mod_eq_of_lt hsmall]
  · have hpacked : packed num den = scaleOf num den * 2 ^ 52 + rounded num den := if_neg hsmall
    rw [hpacked]
    by_cases hcarry : rounded num den = 2 ^ 53
    · have hexponent : (scaleOf num den * 2 ^ 52 + 2 ^ 53) / 2 ^ 52 =
          scaleOf num den + 2 := by omega
      have hfraction : (scaleOf num den * 2 ^ 52 + 2 ^ 53) % 2 ^ 52 = 0 := by omega
      have hscale : scaleOf num den + 2 - 1 = scaleOf num den + 1 := rfl
      rw [hcarry, hexponent, hfraction, if_neg (by omega), hscale, Nat.pow_succ]
      ring
    · have hexponent : (scaleOf num den * 2 ^ 52 + rounded num den) / 2 ^ 52 =
          scaleOf num den + 1 := by omega
      have hfraction : (scaleOf num den * 2 ^ 52 + rounded num den) % 2 ^ 52 + 2 ^ 52 =
          rounded num den := by omega
      rw [hexponent, if_neg (by omega), Nat.add_comm, hfraction]
      rfl

/-! ## Bounds -/

/-- Below the middle between the largest double and the next power of two nothing
overflows. -/
theorem isFinite_round {negative : Bool} {num den : Nat}
    (h : num * 2 ^ unitBits < (2 ^ 54 - 1) * (2 ^ topBits * den)) :
    (round negative num den).isFinite = true := by
  have hnum : num <<< unitBits < (2 ^ 54 - 1) * (2 ^ topBits * den) := by
    rw [Nat.shiftLeft_eq]
    exact h
  have hden : 0 < den := by
    apply Nat.pos_of_ne_zero
    rintro rfl
    omega
  have hle := rounded_le_two_pow num den
  have hscale : scaleOf num den ≤ topBits + 1 := by
    by_contra hlarge
    have hquotient : _ ≤ num <<< unitBits / den := two_pow_scaleOf_le (by omega)
    have hpow : 2 ^ (topBits + 54) ≤ 2 ^ (scaleOf num den + 52) :=
      Nat.pow_le_pow_right (by decide) (by omega)
    have hmul := (Nat.le_div_iff_mul_le hden).mp (Nat.le_trans hpow hquotient)
    rw [Nat.pow_add, Nat.mul_right_comm] at hmul
    omega
  rw [isFinite_round_iff, packed]
  split
  · omega
  · rcases Nat.lt_or_ge (scaleOf num den) (topBits + 1) with hlt | hge
    · rw [topBits] at hlt
      omega
    · have htop : scaleOf num den = topBits + 1 := by omega
      have hlt : rounded num den < 2 ^ 53 := by
        apply nearestQuotient_lt
        have hdouble : den * 2 ^ (topBits + 1) = 2 * (2 ^ topBits * den) := by ring
        rw [htop, Nat.shiftLeft_eq den, hdouble]
        omega
      rw [htop, topBits]
      omega

/-- From one on, rounding is off by at most one part in `2 ^ 53`. -/
theorem units_round_le {negative : Bool} {num den : Nat} (hden : 0 < den) (hone : den ≤ num)
    (h : (round negative num den).isFinite = true) :
    2 ^ 53 * ((round negative num den).units * den) ≤
      (2 ^ 53 + 1) * (num * 2 ^ unitBits) := by
  rw [units_round h]
  have hle := nearestQuotient_le (num <<< unitBits) (den <<< scaleOf num den)
  have hpos : 0 < scaleOf num den := by
    by_contra hzero
    have hquotient := lt_two_pow_scaleOf num den
    rw [Nat.eq_zero_of_not_pos hzero, Nat.div_lt_iff_lt_mul hden, Nat.shiftLeft_eq]
      at hquotient
    have hunit : 2 ^ (0 + 53) ≤ 2 ^ unitBits := Nat.pow_le_pow_right (by decide) (by decide)
    have := Nat.mul_le_mul hone hunit
    rw [Nat.mul_comm den] at this
    omega
  have hunit : 2 ^ 52 * (den <<< scaleOf num den) ≤ num <<< unitBits := by
    have hquotient := (Nat.le_div_iff_mul_le hden).mp (two_pow_scaleOf_le hpos)
    rw [Nat.pow_add] at hquotient
    rw [Nat.shiftLeft_eq den]
    calc
      2 ^ 52 * (den * 2 ^ scaleOf num den) = 2 ^ scaleOf num den * 2 ^ 52 * den := by ring
      _ ≤ num <<< unitBits := hquotient
  have hproduct : rounded num den * 2 ^ scaleOf num den * den =
      nearestQuotient (num <<< unitBits) (den <<< scaleOf num den) *
        (den <<< scaleOf num den) := by
    rw [rounded, Nat.shiftLeft_eq den]
    ring
  rw [hproduct, ← Nat.shiftLeft_eq num]
  omega

theorem isFinite_ofNat {n : Nat} (h : n * 2 ^ unitBits < (2 ^ 54 - 1) * 2 ^ topBits) :
    (ofNat n).isFinite = true := by
  apply isFinite_round
  rwa [Nat.mul_one]

theorem units_ofNat_le {n : Nat} (h : (ofNat n).isFinite = true) :
    2 ^ 53 * (ofNat n).units ≤ (2 ^ 53 + 1) * (n * 2 ^ unitBits) := by
  rcases Nat.eq_zero_or_pos n with rfl | hpos
  · have hzero : (ofNat 0).units = 0 := by decide +kernel
    simp only [hzero, Nat.zero_mul, Nat.mul_zero, Nat.le_refl]
  · have hle := units_round_le Nat.one_pos hpos h
    rwa [Nat.mul_one] at hle

/-- Rounding does not halve a number. -/
theorem le_units_ofNat {n : Nat} (h : (ofNat n).isFinite = true) :
    n * 2 ^ unitBits ≤ 2 * (ofNat n).units := by
  rw [ofNat, units_round h, rounded]
  rw [Nat.one_shiftLeft, Nat.shiftLeft_eq]
  have hle := le_nearestQuotient (n * 2 ^ unitBits) (Nat.two_pow_pos (scaleOf n 1))
  rcases Nat.eq_zero_or_pos (scaleOf n 1) with hzero | hpos
  · rw [hzero, Nat.pow_zero] at hle ⊢
    omega
  · have hscale := two_pow_scaleOf_le hpos
    rw [Nat.div_one, Nat.shiftLeft_eq, Nat.pow_add] at hscale
    omega

/-- Both factors and their product are rounded, which still does not lead from `2 ^ 54 -
5` to the middle `2 ^ 54 - 1`. -/
theorem isFinite_mul_ofNat {m n : Nat} (hm : (ofNat m).isFinite = true)
    (hn : (ofNat n).isFinite = true)
    (h : m * n * 2 ^ unitBits ≤ (2 ^ 54 - 5) * 2 ^ topBits) :
    ((ofNat m).mul (ofNat n)).isFinite = true := by
  simp only [mul, isNan_of_isFinite hm, isNan_of_isFinite hn, hm, hn, Bool.or_self,
    Bool.not_true, Bool.false_eq_true, ↓reduceIte, magnitude_fst, magnitude_snd]
  apply isFinite_round
  have hproduct := Nat.mul_le_mul (units_ofNat_le hm) (units_ofNat_le hn)
  have hbound : (2 ^ 53 + 1) * (m * 2 ^ unitBits) * ((2 ^ 53 + 1) * (n * 2 ^ unitBits)) ≤
      (2 ^ 53 + 1) * (2 ^ 53 + 1) * ((2 ^ 54 - 5) * (2 ^ topBits * 2 ^ unitBits)) := by
    calc
      _ = (2 ^ 53 + 1) * (2 ^ 53 + 1) * (m * n * 2 ^ unitBits * 2 ^ unitBits) := by ring
      _ ≤ (2 ^ 53 + 1) * (2 ^ 53 + 1) * ((2 ^ 54 - 5) * 2 ^ topBits * 2 ^ unitBits) :=
        Nat.mul_le_mul_left _ (Nat.mul_le_mul_right _ h)
      _ = _ := by rw [Nat.mul_assoc (2 ^ 54 - 5)]
  have hpos : 0 < 2 ^ topBits * 2 ^ unitBits :=
    Nat.mul_pos (Nat.two_pow_pos _) (Nat.two_pow_pos _)
  have hlt : (ofNat m).units * (ofNat n).units <
      (2 ^ 54 - 1) * (2 ^ topBits * 2 ^ unitBits) := by
    have hsquare : 2 ^ 53 * (ofNat m).units * (2 ^ 53 * (ofNat n).units) =
        2 ^ 106 * ((ofNat m).units * (ofNat n).units) := by ring
    rw [hsquare] at hproduct
    omega
  calc
    _ < (2 ^ 54 - 1) * (2 ^ topBits * 2 ^ unitBits) * 2 ^ unitBits :=
      (Nat.mul_lt_mul_right (Nat.two_pow_pos _)).mpr hlt
    _ = _ := by ring

/-- A divisor of two and more leaves room for the rounding. -/
theorem isFinite_div {x y : Binary64} (hx : x.isFinite = true)
    (hy : 2 * 2 ^ unitBits ≤ y.units) : (x.div y).isFinite = true := by
  rw [div, magnitude_fst, magnitude_snd, magnitude_fst, magnitude_snd]
  apply isFinite_round
  have hlt : x.units < (2 ^ 54 - 1) * 2 * 2 ^ topBits := by
    have := units_lt_of_isFinite hx
    have := Nat.two_pow_pos topBits
    omega
  have hpos : 0 < 2 ^ unitBits * 2 ^ unitBits :=
    Nat.mul_pos (Nat.two_pow_pos _) (Nat.two_pow_pos _)
  calc
    x.units * 2 ^ unitBits * 2 ^ unitBits = x.units * (2 ^ unitBits * 2 ^ unitBits) := by ring
    _ < (2 ^ 54 - 1) * 2 * 2 ^ topBits * (2 ^ unitBits * 2 ^ unitBits) :=
      Nat.mul_lt_mul_of_pos_right hlt hpos
    _ = (2 ^ 54 - 1) * (2 ^ topBits * (2 ^ unitBits * (2 * 2 ^ unitBits))) := by ring
    _ ≤ (2 ^ 54 - 1) * (2 ^ topBits * (2 ^ unitBits * y.units)) :=
      Nat.mul_le_mul_left _ (Nat.mul_le_mul_left _ (Nat.mul_le_mul_left _ hy))

end Jose.Decimal.Binary64
