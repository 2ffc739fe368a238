import Jose.Proofs.Json.RealText
import Jose.Proofs.Json.Scientific

/-! Doubles that are written and read again. What is read need not be the double that was
written, since reading rounds at each step, but it is a finite double too. -/
namespace Jose.Json
open Text Decimal Binary64 Scientific

/-! ## The digits of a double -/

/-- Whatever front part of the digits fits a word, the number is a double. -/
theorem exists_magnitude_shortest {x : Binary64} (h : x.isFinite = true)
    {kept left : List Char}
    (hdigits : Nat.toDigits 10 (shortest x).coefficient = kept ++ left)
    (hfits : (shortest x).coefficient ≤ wordMax → left = [])
    (hkept : Nat.ofDigitChars 10 kept 0 ≤ wordMax) (negative : Bool) :
    ∃ y, magnitude? ⟨negative, Nat.ofDigitChars 10 kept 0,
      (shortest x).exponent + left.length⟩ =
      some y := by
  have hcoefficient : (shortest x).coefficient =
      10 ^ left.length * Nat.ofDigitChars 10 kept 0 + Nat.ofDigitChars 10 left 0 := by
    rw [← Nat.ofDigitChars_eq_ofDigitChars_zero, ← Nat.ofDigitChars_append, ← hdigits,
      Nat.ofDigitChars_ten_toDigits]
  rcases shortest_le_of_isFinite h with ⟨c, hc, hx⟩ | hle
  · have hlargest : ∀ c ∈ largestCoefficients, c ≤ wordMax ∧
        (magnitude? ⟨negative, c, 292⟩).isSome = true := by
      cases negative <;> decide +kernel
    rw [hx] at hfits hcoefficient ⊢
    obtain rfl := hfits (hlargest c hc).1
    rw [List.length_nil, Nat.pow_zero, Nat.one_mul, Nat.ofDigitChars_nil, Nat.add_zero]
      at hcoefficient
    rw [← hcoefficient]
    exact Option.isSome_iff_exists.mp (hlargest c hc).2
  · rcases Int.lt_or_le 0 ((shortest x).exponent + left.length) with hpos | hnonpos
    · apply exists_magnitude hkept
      have hexponent : left.length + (shortest x).exponent.toNat =
          ((shortest x).exponent + left.length).toNat + (-(shortest x).exponent).toNat := by
            omega
      have hfront : 10 ^ left.length * Nat.ofDigitChars 10 kept 0 ≤
          (shortest x).coefficient := by
        omega
      apply Nat.le_of_mul_le_mul_right (c := 10 ^ (-(shortest x).exponent).toNat) _
        (Nat.pow_pos (by decide))
      calc
        _ = 10 ^ left.length * Nat.ofDigitChars 10 kept 0 * 10 ^ (shortest x).exponent.toNat *
            2 ^ unitBits := by
          rw [Nat.mul_right_comm, Nat.mul_assoc (Nat.ofDigitChars 10 kept 0), ← Nat.pow_add,
            ← hexponent, Nat.pow_add]
          ring
        _ ≤ (shortest x).coefficient * 10 ^ (shortest x).exponent.toNat * 2 ^ unitBits :=
          Nat.mul_le_mul_right _ (Nat.mul_le_mul_right _ hfront)
        _ ≤ _ := hle
    · exact exists_magnitude_of_nonpos hkept hnonpos

theorem natAbs_leading_exponent_le {x : Binary64} (h : x.isFinite = true) {c : Char}
    {cs : List Char} (hdigits : Nat.toDigits 10 (shortest x).coefficient = c :: cs) :
    ((shortest x).exponent + cs.length).natAbs ≤ 400 := by
  have hlow := le_exponent_shortest x
  have hhigh : (shortest x).exponent + cs.length ≤ 400 := by
    rcases Nat.eq_zero_or_pos (shortest x).coefficient with hzero | hpos
    · have hexponent := (shortest_pos x).resolve_left (by omega)
      rw [hzero, Nat.toDigits_zero] at hdigits
      cases hdigits
      rw [hexponent]
      decide
    · apply exponent_shortest_add_le h
      rcases Nat.eq_zero_or_pos cs.length with hnil | hcons
      · rw [hnil]
        exact hpos
      · have hshort := Nat.length_toDigits_le_iff (b := 10) (n := (shortest x).coefficient)
          (k := cs.length) (by decide) hcons
        have hlength := congrArg List.length hdigits
        rw [List.length_cons] at hlength
        omega
  omega

/-! ## Reading it -/

theorem readFraction_bytes {fs : List Char} (hfs : AllDigits fs) (hne : fs ≠ [])
    (s : Scientific) :
    ∃ kept left, Keeps s.significand fs kept left ∧
      ∀ rest, startsWithDigit rest = false → s.readFraction (Utf8.bytes fs ++ rest) =
        readAfterFraction
          ⟨s.negative, Nat.ofDigitChars 10 kept s.significand,
            s.exponent - kept.length⟩ rest := by
  obtain ⟨kept, left, hkeeps, htake⟩ := takeDigits_bytes hfs s.significand
  refine ⟨kept, left, hkeeps, fun rest hrest => ?_⟩
  have hstarts : startsWithDigit (Utf8.bytes fs ++ rest) = true := by
    cases fs with
    | nil => exact absurd rfl hne
    | cons c cs =>
      have hc := (allDigits_cons.mp hfs).1
      rw [bytes_digit_cons hc, List.cons_append, startsWithDigit, digit?_ofNat hc]
      rfl
  rw [readFraction, if_pos hstarts]
  simp only [htake rest 0 hrest, dropDigits_bytes (hkeeps.allDigits_left hfs) hrest,
    Nat.zero_add]

theorem readAfterFraction_of_ends {rest : Bytes} (h : Ends rest) (s : Scientific) :
    s.readAfterFraction rest = s.read rest := by
  cases rest with
  | nil => rfl
  | cons b rest =>
    obtain ⟨-, -, he, hE⟩ := h b rfl
    unfold readAfterFraction
    dsimp only
    split
    · next h => exact absurd h he
    · next h => exact absurd h hE
    · rfl

theorem exists_real_of_read {s : Scientific} (hs : s.significand ≤ wordMax)
    (h : ∃ y, s.magnitude? = some y) :
    ∃ y, y.isFinite = true ∧ ∀ rest, s.read rest = .ok (.real y, rest) := by
  obtain ⟨y, hy⟩ := h
  refine ⟨if s.negative then y.neg else y, ?_, fun rest => ?_⟩
  · exact inRange_signed (isFinite_of_magnitude hs hy) s.negative
  · rw [Scientific.read, hy]
    rfl

theorem readAfterInteger_point (negative : Bool) (n : Nat) (cs : List Char) (rest : Bytes) :
    readAfterInteger negative n 0 (Utf8.bytes ('.' :: cs) ++ rest) =
      readFraction ⟨negative, n, 0⟩ (Utf8.bytes cs ++ rest) := by
  rw [Utf8.bytes_cons (by decide), List.cons_append]
  rfl

theorem startsWithDigit_point (cs : List Char) (rest : Bytes) :
    startsWithDigit (Utf8.bytes ('.' :: cs) ++ rest) = false := by
  rw [Utf8.bytes_cons (by decide), List.cons_append]
  rfl

theorem readNumber_positional {text ds fs : List Char} (h : IsPositional text ds fs)
    (negative : Bool) :
    ∃ y, y.isFinite = true ∧ ∀ rest, Ends rest →
      readNumber negative (Utf8.bytes text ++ rest) = .ok (.real y, rest) := by
  obtain ⟨kept, left, hkeeps, hfraction⟩ := readFraction_bytes h.digits h.notEmpty
    ⟨negative, Nat.ofDigitChars 10 ds 0, 0⟩
  have hsignificand := hkeeps.fits h.word
  have hexponent : (0 : Int) - kept.length ≤ 0 := by omega
  obtain ⟨y, hfinite, hread⟩ := exists_real_of_read
    (s := ⟨negative, Nat.ofDigitChars 10 kept (Nat.ofDigitChars 10 ds 0), 0 - kept.length⟩)
    hsignificand (exists_magnitude_of_nonpos hsignificand hexponent)
  refine ⟨y, hfinite, fun rest hrest => ?_⟩
  rw [h.eq, Utf8.bytes_append, List.append_assoc,
    readNumber_bytes h.whole h.word negative (startsWithDigit_point fs rest),
      readAfterInteger_point,
    hfraction rest hrest.startsWithDigit, readAfterFraction_of_ends hrest, hread]

theorem readExponentDigits_bytes {cs : List Char} (hcs : AllDigits cs) {rest : Bytes}
    (hrest : startsWithDigit rest = false) (s : Scientific) (down : Bool) (e : Nat)
    (hmax : Nat.ofDigitChars 10 cs e ≤ exponentMax) :
    s.readExponentDigits down e (Utf8.bytes cs ++ rest) =
      ({ s with exponent := if down then s.exponent - Nat.ofDigitChars 10 cs e
                            else s.exponent + Nat.ofDigitChars 10 cs e } :
        Scientific).read rest := by
  induction cs generalizing e with
  | nil =>
    rw [Utf8.bytes_nil, List.nil_append, Nat.ofDigitChars_nil]
    cases rest with
    | nil => rw [readExponentDigits]
    | cons b rest =>
      rw [startsWithDigit, Option.isSome_eq_false_iff, Option.isNone_iff_eq_none] at hrest
      rw [readExponentDigits, hrest]
  | cons c cs ih =>
    obtain ⟨hc, hcs⟩ := allDigits_cons.mp hcs
    have hnext : 10 * e + (c.toNat - '0'.toNat) = e * 10 + (c.toNat - 48) := by
      rw [Nat.mul_comm]
      rfl
    rw [Nat.ofDigitChars_cons, hnext] at hmax ⊢
    have hle := Nat.le_trans (le_ofDigitChars cs _) hmax
    rw [bytes_digit_cons hc, List.cons_append, readExponentDigits, digit?_ofNat hc]
    simp only [if_pos hle]
    exact ih hcs _ hmax

theorem readExponent_bytes (e : Int) (he : e.natAbs ≤ exponentMax) {rest : Bytes}
    (hrest : startsWithDigit rest = false) (s : Scientific) :
    s.readExponent (Utf8.bytes (exponentSign e :: Nat.toDigits 10 e.natAbs) ++ rest) =
      ({ s with exponent := s.exponent + e } : Scientific).read rest := by
  have hdigits := allDigits_toDigits e.natAbs
  have hvalue : Nat.ofDigitChars 10 (Nat.toDigits 10 e.natAbs) 0 = e.natAbs :=
    Nat.ofDigitChars_ten_toDigits
  have hfrom : ∀ down,
    s.readExponentFrom down (Utf8.bytes (Nat.toDigits 10 e.natAbs) ++ rest) =
      ({ s with exponent := if down then s.exponent - e.natAbs
                            else s.exponent + e.natAbs } : Scientific).read rest := by
    intro down
    cases hds : Nat.toDigits 10 e.natAbs with
    | nil => exact absurd hds Nat.toDigits_ne_nil
    | cons c cs =>
      rw [hds] at hdigits hvalue
      obtain ⟨hc, hcs⟩ := allDigits_cons.mp hdigits
      have hfirst : 10 * 0 + (c.toNat - '0'.toNat) = c.toNat - 48 := by
        rw [Nat.mul_zero, Nat.zero_add]
        rfl
      rw [Nat.ofDigitChars_cons, hfirst] at hvalue
      rw [bytes_digit_cons hc, List.cons_append, readExponentFrom, digit?_ofNat hc]
      dsimp only
      rw [readExponentDigits_bytes hcs hrest s down _ (by rwa [hvalue]), hvalue]
  rw [exponentSign]
  split
  · next hneg =>
    have hsum : s.exponent + e = s.exponent - e.natAbs := by omega
    rw [Utf8.bytes_cons (by decide), List.cons_append, hsum]
    exact hfrom true
  · next hnonneg =>
    have hsum : s.exponent + e = s.exponent + e.natAbs := by omega
    rw [Utf8.bytes_cons (by decide), List.cons_append, hsum]
    exact hfrom false

theorem readAfterInteger_fraction {cs : List Char} (hcs : AllDigits cs) (negative : Bool)
    (n : Nat) :
    ∃ kept left, Keeps n cs kept left ∧ ∀ es rest,
      readAfterInteger negative n 0 (Utf8.bytes (fraction cs ++ 'e' :: es) ++ rest) =
        readExponent ⟨negative, Nat.ofDigitChars 10 kept n, 0 - kept.length⟩
          (Utf8.bytes es ++ rest) := by
  have hexponent : ∀ es rest, Utf8.bytes ('e' :: es) ++ rest =
      101 :: (Utf8.bytes es ++ rest) := by
    intro es rest
    rw [Utf8.bytes_cons (by decide), List.cons_append]
    rfl
  cases cs with
  | nil =>
    refine ⟨[], [], ⟨rfl, fun hn => by rwa [Nat.ofDigitChars_nil], fun _ => rfl⟩,
      fun es rest => ?_⟩
    rw [fraction, List.nil_append, hexponent, Nat.ofDigitChars_nil]
    rfl
  | cons c cs =>
    obtain ⟨kept, left, hkeeps, hfraction⟩ :=
      readFraction_bytes hcs (List.cons_ne_nil c cs) ⟨negative, n, 0⟩
    refine ⟨kept, left, hkeeps, fun es rest => ?_⟩
    rw [fraction, List.cons_append, readAfterInteger_point, Utf8.bytes_append,
      List.append_assoc, hexponent, hfraction _ rfl]
    rfl

theorem startsWithDigit_fraction (cs es : List Char) (rest : Bytes) :
    startsWithDigit (Utf8.bytes (fraction cs ++ 'e' :: es) ++ rest) = false := by
  cases cs with
  | nil =>
    rw [fraction, List.nil_append, Utf8.bytes_cons (by decide)]
    rfl
  | cons c cs => exact startsWithDigit_point _ _

theorem ofDigitChars_singleton_le {c : Char} (hc : c.isDigit = true) :
    Nat.ofDigitChars 10 [c] 0 ≤ wordMax := by
  have hlt := ofDigitChars_lt (List.forall_mem_singleton.mpr hc)
  exact Nat.le_trans (Nat.le_of_lt hlt) (show 10 ^ 1 ≤ wordMax by decide)

/-- What is read behind the first digit is a front part of the digits, and the exponent
makes up for what is left. -/
theorem exists_magnitude_of_keeps {x : Binary64} (h : x.isFinite = true) {c : Char}
    {cs kept left : List Char} (hdigits : Nat.toDigits 10 (shortest x).coefficient = c :: cs)
    (hkeeps : Keeps (Nat.ofDigitChars 10 [c] 0) cs kept left) (negative : Bool) :
    ∃ y, magnitude? ⟨negative, Nat.ofDigitChars 10 kept (Nat.ofDigitChars 10 [c] 0),
      0 - kept.length + ((shortest x).exponent + cs.length)⟩ = some y := by
  have hall := allDigits_toDigits (shortest x).coefficient
  have hvalue := Nat.ofDigitChars_ten_toDigits (n := (shortest x).coefficient)
  have hfirst : ∀ cs, Nat.ofDigitChars 10 (c :: cs) 0 =
      Nat.ofDigitChars 10 cs (Nat.ofDigitChars 10 [c] 0) := fun cs => Nat.ofDigitChars_cons
  rw [hdigits] at hall hvalue
  have hword := hkeeps.fits (ofDigitChars_singleton_le (allDigits_cons.mp hall).1)
  have hexponent : (0 : Int) - kept.length + ((shortest x).exponent + cs.length) =
      (shortest x).exponent + left.length := by
    rw [hkeeps.eq, List.length_append]
    omega
  have hsplit : Nat.toDigits 10 (shortest x).coefficient = (c :: kept) ++ left :=
    hdigits.trans (congrArg (c :: ·) hkeeps.eq)
  rw [hfirst] at hvalue
  rw [← hfirst] at hword
  rw [hexponent, ← hfirst]
  exact exists_magnitude_shortest h hsplit (fun hle =>
    hkeeps.all (by rwa [hvalue])) hword negative

theorem readNumber_scientific {x : Binary64} (h : x.isFinite = true) {c : Char}
    {cs : List Char}
    (hdigits : Nat.toDigits 10 (shortest x).coefficient = c :: cs) (negative : Bool) :
    ∃ y, y.isFinite = true ∧ ∀ rest, Ends rest →
      readNumber negative (Utf8.bytes (c :: fraction cs ++ 'e' ::
        exponentSign ((shortest x).exponent + cs.length) ::
          Nat.toDigits 10 ((shortest x).exponent + cs.length).natAbs) ++ rest) =
        .ok (.real y, rest) := by
  have hall := allDigits_toDigits (shortest x).coefficient
  rw [hdigits] at hall
  obtain ⟨hc, hcs⟩ := allDigits_cons.mp hall
  have hword := ofDigitChars_singleton_le hc
  have hlead : ((shortest x).exponent + cs.length).natAbs ≤ exponentMax :=
    Nat.le_trans (natAbs_leading_exponent_le h hdigits) (by decide)
  obtain ⟨kept, left, hkeeps, hread⟩ :=
    readAfterInteger_fraction hcs negative (Nat.ofDigitChars 10 [c] 0)
  obtain ⟨y, hfinite, hy⟩ := exists_real_of_read (hkeeps.fits hword)
    (exists_magnitude_of_keeps h hdigits hkeeps negative)
  refine ⟨y, hfinite, fun rest hrest => ?_⟩
  have hcons : ∀ es, c :: fraction cs ++ 'e' :: es = [c] ++ (fraction cs ++ 'e' :: es) :=
    fun _ => rfl
  rw [hcons, Utf8.bytes_append, List.append_assoc,
    readNumber_bytes (isWhole_singleton hc) hword negative
      (startsWithDigit_fraction cs _ rest), hread,
    readExponent_bytes _ hlead hrest.startsWithDigit]
  exact hy rest

/-! ## Numbers with their sign -/

def readSigned : Bytes → Step (Number × Bytes)
  | [] => readNumber false []
  | b :: rest =>
    if Char.ofUInt8 b = '-' then readNumber true rest else readNumber false (b :: rest)

/-- The characters begin as numbers do and are read as the number, whatever follows. -/
structure Spells (cs : List Char) (n : Number) : Prop where
  first : ∃ c ∈ cs.head?, c = '-' ∨ c.isDigit = true
  reads : ∀ rest, Ends rest → readSigned (Utf8.bytes cs ++ rest) = .ok (n, rest)

theorem spells_sign {negative : Bool} {c : Char} {cs : List Char} {n : Number}
    (hc : c.isDigit = true) (h : ∀ rest, Ends rest →
      readNumber negative (Utf8.bytes (c :: cs) ++ rest) = .ok (n, rest)) :
    Spells (sign negative ++ c :: cs) n := by
  cases negative with
  | true =>
    refine ⟨⟨'-', rfl, .inl rfl⟩, fun rest hrest => ?_⟩
    rw [sign, if_pos rfl, List.singleton_append, Utf8.bytes_cons (by decide),
      List.cons_append]
    exact h rest hrest
  | false =>
    refine ⟨⟨c, rfl, .inr hc⟩, fun rest hrest => ?_⟩
    have hminus : c ≠ '-' := by
      rintro rfl
      exact absurd hc (by decide)
    have hascii : c.toNat < 128 := by
      have := isDigit_iff.mp hc
      omega
    have hread := h rest hrest
    rw [Utf8.bytes_cons hascii, List.cons_append] at hread
    rw [sign, if_neg Bool.false_ne_true, List.nil_append, Utf8.bytes_cons hascii,
      List.cons_append, readSigned, Utf8.ofUInt8_ofNat hascii, if_neg hminus]
    exact hread

theorem writeInteger_eq (i : Int) :
    writeInteger i = sign (decide (i < 0)) ++ Nat.toDigits 10 i.natAbs := by
  rw [writeInteger, sign]
  by_cases h : i < 0
  · simp [h]
  · have habs : i.toNat = i.natAbs := by omega
    simp [h, habs]

theorem spells_writeInteger {i : Int} (h : (Number.integer i).InRange) :
    Spells (writeInteger i) (.integer i) := by
  have hword : i.natAbs ≤ wordMax := by
    rw [Number.InRange] at h
    have : (0x8000000000000000 : Int) ≤ wordMax := by decide
    omega
  have hwhole : Scientific.whole (decide (i < 0)) i.natAbs = .integer i := by
    rw [Number.InRange] at h
    by_cases hneg : i < 0
    · have hsmall : (decide (0 < i.natAbs) && decide (i.natAbs ≤ 0x8000000000000000)) =
          true := by
        rw [Bool.and_eq_true, decide_eq_true_eq, decide_eq_true_eq]
        omega
      have habs : -(i.natAbs : Int) = i := by omega
      rw [decide_eq_true hneg, whole, Bool.not_true, if_neg Bool.false_ne_true,
        if_pos hsmall, habs]
    · have habs : (i.natAbs : Int) = i := by omega
      rw [decide_eq_false hneg, whole, Bool.not_false, if_pos rfl, habs]
  rw [writeInteger_eq]
  have hdigits := allDigits_toDigits i.natAbs
  have hread :=
    fun rest (hrest : Ends rest) => readNumber_toDigits hword hrest (decide (i < 0))
  rw [hwhole] at hread
  cases hds : Nat.toDigits 10 i.natAbs with
  | nil => exact absurd hds Nat.toDigits_ne_nil
  | cons c cs =>
    rw [hds] at hdigits hread
    exact spells_sign (allDigits_cons.mp hdigits).1 hread

theorem exists_spells_writeReal {x : Binary64} (h : x.isFinite = true) :
    ∃ y, y.isFinite = true ∧ Spells (writeReal x) (.real y) := by
  rw [writeReal_eq]
  split
  · have hzero : IsPositional ['0', '.', '0'] ['0'] ['0'] :=
      ⟨isWhole_singleton rfl, by decide, List.forall_mem_singleton.mpr rfl,
        List.cons_ne_nil _ _, rfl⟩
    obtain ⟨y, hfinite, hread⟩ := readNumber_positional hzero x.isNegative
    exact ⟨y, hfinite, spells_sign rfl hread⟩
  · rcases write_cases (shortest_pos x) with ⟨c, cs, hdigits, htext⟩ | ⟨ds, fs, htext⟩
    · have hc := (allDigits_cons.mp (hdigits ▸ allDigits_toDigits (shortest x).coefficient)).1
      obtain ⟨y, hfinite, hread⟩ := readNumber_scientific h hdigits x.isNegative
      rw [htext]
      exact ⟨y, hfinite, spells_sign hc hread⟩
    · obtain ⟨y, hfinite, hread⟩ := readNumber_positional htext x.isNegative
      cases ds with
      | nil => exact absurd rfl htext.whole.notEmpty
      | cons c cs =>
        rw [htext.eq] at hread ⊢
        exact ⟨y, hfinite, spells_sign (allDigits_cons.mp htext.whole.digits).1 hread⟩

/-- The number that the text of a number is read as. -/
def Number.reread (n : Number) : Number :=
  match readSigned (Utf8.bytes (writeNumber n)) with
  | .ok (m, _) => m
  | .error _ => n

theorem Spells.reread_eq {n m : Number} (h : Spells (writeNumber n) m) : n.reread = m := by
  have hread := h.reads [] (by simp [Ends])
  rw [List.append_nil] at hread
  rw [Number.reread, hread]

theorem reread_integer {i : Int} (h : (Number.integer i).InRange) :
    (Number.integer i).reread = .integer i :=
      Spells.reread_eq (n := .integer i) (spells_writeInteger h)

theorem spells_writeNumber {n : Number} (h : n.InRange) :
    Spells (writeNumber n) n.reread := by
  cases n with
  | integer i =>
    rw [reread_integer h]
    exact spells_writeInteger h
  | real x =>
    obtain ⟨y, -, hspells⟩ := exists_spells_writeReal h
    rw [hspells.reread_eq (n := .real x)]
    exact hspells

end Jose.Json
