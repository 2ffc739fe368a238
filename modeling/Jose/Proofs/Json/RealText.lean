import Jose.Proofs.Json.Number

/-! The text of a double: a sign, and then either one digit, a fraction and an exponent,
or an integer part that fits a word and a fraction. -/
namespace Jose.Json
open Text Decimal

def sign (negative : Bool) : List Char := if negative then ['-'] else []

theorem writeReal_eq (x : Binary64) : writeReal x = sign x.isNegative ++
    if x.isZero then ['0', '.', '0'] else (realLayout.write (shortest x)).toList := by
  rw [writeReal, Layout.writeBinary64, String.toList_append, sign]
  split <;> split <;> rfl

/-- The point and the digits behind it. -/
def fraction : List Char → List Char
  | [] => []
  | c :: cs => '.' :: c :: cs

def exponentSign (e : Int) : Char := if e < 0 then '-' else '+'

theorem toList_exponentText (e : Int) : (realLayout.exponentText e).toList =
    'e' :: exponentSign e :: Nat.toDigits 10 e.natAbs := by
  simp only [Layout.exponentText, realLayout, exponentSign, String.toList_append,
    Nat.toString_eq_ofList_toDigits, String.toList_ofList, ↓reduceIte]
  split <;> rfl

theorem ofDigitChars_lt {cs : List Char} (h : AllDigits cs) :
    Nat.ofDigitChars 10 cs 0 < 10 ^ cs.length := by
  induction cs with
  | nil => exact Nat.one_pos
  | cons c cs ih =>
    obtain ⟨hc, hcs⟩ := allDigits_cons.mp h
    have hdigit := isDigit_iff.mp hc
    have hzero : '0'.toNat = 48 := rfl
    have hle : 10 ^ cs.length * (c.toNat - 48) ≤ 10 ^ cs.length * 9 :=
      Nat.mul_le_mul_left _ (by omega)
    have := ih hcs
    rw [Nat.ofDigitChars_cons, Nat.ofDigitChars_eq_ofDigitChars_zero, Nat.mul_zero,
      Nat.zero_add, hzero, List.length_cons, Nat.pow_succ]
    omega

theorem allDigits_zeros (n : Nat) : AllDigits (List.replicate n '0') := by
  intro c hc
  rw [List.eq_of_mem_replicate hc]
  rfl

/-- The text has digits on both sides of a point, and those before it fit a word. -/
structure IsPositional (text ds fs : List Char) : Prop where
  whole : IsWhole ds
  word : Nat.ofDigitChars 10 ds 0 ≤ wordMax
  digits : AllDigits fs
  notEmpty : fs ≠ []
  eq : text = ds ++ '.' :: fs

/-- A point behind at most sixteen digits, which do not begin with a zero that is not
alone. -/
theorem isPositional_split {c : Char} {tail : List Char} {w : Nat} (h : AllDigits (c :: tail))
    (hw : w < 16) (hzero : c = '0' → w = 0) :
    IsPositional (c :: tail.take w ++
      '.' :: if (tail.drop w).isEmpty then ['0'] else tail.drop w)
      (c :: tail.take w) (if (tail.drop w).isEmpty then ['0'] else tail.drop w) := by
  obtain ⟨hc, htail⟩ := allDigits_cons.mp h
  have hfront : AllDigits (c :: tail.take w) :=
    allDigits_cons.mpr ⟨hc, fun c hc => htail c (List.mem_of_mem_take hc)⟩
  constructor
  · refine ⟨hfront, List.cons_ne_nil _ _, fun h => ?_⟩
    rw [List.head?_cons, Option.some.injEq] at h
    rw [h, hzero h, List.take_zero]
  · have hlength : (c :: tail.take w).length ≤ 16 := by
      rw [List.length_cons, List.length_take]
      omega
    have hpow : 10 ^ (c :: tail.take w).length ≤ 10 ^ 16 :=
      Nat.pow_le_pow_right (by decide) hlength
    exact Nat.le_of_lt
      (Nat.lt_of_lt_of_le (ofDigitChars_lt hfront) (Nat.le_trans hpow (by decide)))
  · split
    · exact allDigits_zeros 1
    · exact fun c hc => htail c (List.mem_of_mem_drop hc)
  · split
    · exact List.cons_ne_nil _ _
    · next h => simpa using h
  · rfl

/-- A double whose digits begin with a zero is a number without a power of ten. -/
theorem leading_exponent_of_zero {d : Digits} {cs : List Char}
    (hd : 0 < d.coefficient ∨ d.exponent = 0)
    (hds : Nat.toDigits 10 d.coefficient = '0' :: cs) : d.exponent + cs.length = 0 := by
  have hwhole := isWhole_toDigits d.coefficient
  have hvalue := congrArg (Nat.ofDigitChars 10 · 0) hds
  simp only [Nat.ofDigitChars_ten_toDigits] at hvalue
  rw [hds] at hwhole
  cases hwhole.noLeadingZero rfl
  have hnought : Nat.ofDigitChars 10 ['0'] 0 = 0 := rfl
  rw [List.length_nil]
  omega

/-- A number is laid out around its leading digit, or else around its point. -/
theorem write_cases {d : Digits} (hd : 0 < d.coefficient ∨ d.exponent = 0) :
    (∃ c cs, Nat.toDigits 10 d.coefficient = c :: cs ∧ (realLayout.write d).toList =
      c :: fraction cs ++ 'e' :: exponentSign (d.exponent + cs.length) ::
        Nat.toDigits 10 (d.exponent + cs.length).natAbs) ∨
    (∃ ds fs, IsPositional (realLayout.write d).toList ds fs) := by
  have hdigits := allDigits_toDigits d.coefficient
  cases hds : Nat.toDigits 10 d.coefficient with
  | nil => exact absurd hds Nat.toDigits_ne_nil
  | cons c cs =>
    rw [hds] at hdigits
    have hlead : d.exponent + ((c :: cs).length : Int) - 1 = d.exponent + cs.length := by
      rw [List.length_cons]
      omega
    unfold Layout.write
    dsimp only
    rw [hds, hlead]
    split
    · refine .inl ⟨c, cs, rfl, ?_⟩
      cases cs <;> simp [fraction, toList_exponentText]
    · next hpositional =>
      right
      split
      · exact ⟨['0'], List.replicate ((-(d.exponent + cs.length)).toNat - 1) '0' ++ c :: cs,
          isWhole_singleton rfl, by decide,
          List.forall_mem_append.mpr ⟨allDigits_zeros _, hdigits⟩, by simp, by simp⟩
      · have hbelow : d.exponent + cs.length < 16 := by
          by_contra hlarge
          have hscientific : realLayout.scientificFrom ≤ d.exponent + cs.length :=
            Int.not_lt.mp hlarge
          exact hpositional
            (by rw [Bool.or_eq_true, decide_eq_true hscientific]; exact .inr rfl)
        have hzero : c = '0' → (d.exponent + cs.length).toNat = 0 := by
          rintro rfl
          rw [leading_exponent_of_zero hd hds]
          rfl
        have hpadded : AllDigits (c :: (cs ++ List.replicate
            ((d.exponent + cs.length).toNat + 1 - (c :: cs).length) '0')) :=
          List.forall_mem_append.mpr ⟨hdigits, allDigits_zeros _⟩
        have hpositional := isPositional_split hpadded (by omega) hzero
        refine ⟨_, _, hpositional.whole, hpositional.word, hpositional.digits,
          hpositional.notEmpty, ?_⟩
        rw [List.cons_append, List.take_succ_cons, List.drop_succ_cons]
        split <;> simp

end Jose.Json
