import Jose.Json.Number
import Jose.Json.Write
import Jose.Proofs.Result
import Jose.Proofs.Text.Utf8
import Mathlib.Tactic.Ring

/-! Reading digits. Of digits that do not all fit a word a front part is kept, and the
rest counts as a power of ten. An integer of 64 bits is read as it was written. -/
namespace Jose.Json
open Text

/-- An integer fits a signed or an unsigned word. -/
def Number.InRange : Number → Prop
  | .integer i => -0x8000000000000000 ≤ i ∧ i ≤ wordMax
  | .real x => x.isFinite = true

/-! ## Digits -/

theorem digit?_eq_some_iff {b : UInt8} {d : Nat} :
    digit? b = some d ↔ d < 10 ∧ b.toNat = d + 48 := by
  rw [digit?]
  split
  · next h =>
    simp only [Bool.and_eq_true, decide_eq_true_eq] at h
    rw [Option.some.injEq]
    omega
  · next h =>
    simp only [Bool.and_eq_true, decide_eq_true_eq] at h
    simp only [reduceCtorEq, false_iff]
    omega

theorem isDigit_iff {c : Char} : c.isDigit = true ↔ 48 ≤ c.toNat ∧ c.toNat ≤ 57 := by
  simp [Char.isDigit, UInt32.le_iff_toNat_le]

theorem digit?_ofNat {c : Char} (h : c.isDigit = true) :
    digit? (UInt8.ofNat c.toNat) = some (c.toNat - 48) := by
  have hc := isDigit_iff.mp h
  rw [digit?_eq_some_iff, Utf8.toNat_ofNat_of_lt (by omega)]
  omega

/-- All of the characters are digits. -/
def AllDigits (cs : List Char) : Prop := ∀ c ∈ cs, c.isDigit = true

theorem allDigits_cons {c : Char} {cs : List Char} :
    AllDigits (c :: cs) ↔ c.isDigit = true ∧ AllDigits cs := List.forall_mem_cons

theorem bytes_digit_cons {c : Char} (h : c.isDigit = true) (cs : List Char) :
    Utf8.bytes (c :: cs) = UInt8.ofNat c.toNat :: Utf8.bytes cs :=
  Utf8.bytes_cons (by have := isDigit_iff.mp h; omega) cs

theorem allDigits_toDigits (n : Nat) : AllDigits (Nat.toDigits 10 n) :=
  fun _ hc => Nat.isDigit_of_mem_toDigits (by decide) (by decide) hc

theorem le_ofDigitChars (cs : List Char) (n : Nat) : n ≤ Nat.ofDigitChars 10 cs n := by
  rw [Nat.ofDigitChars_eq_ofDigitChars_zero]
  have := Nat.le_mul_of_pos_left n (Nat.pow_pos (n := cs.length) (by decide : 0 < 10))
  omega

theorem takeDigits_le {n : Nat} (h : n ≤ wordMax) (taken : Nat) (bs : Bytes) :
    (takeDigits n taken bs).1 ≤ wordMax := by
  fun_induction takeDigits n taken bs with
  | case1 => exact h
  | case2 n taken b rest d hd hle ih => exact ih hle
  | case3 => exact h
  | case4 => exact h

theorem takeDigits_of_not_digit {rest : Bytes} (h : startsWithDigit rest = false)
    (n taken : Nat) : takeDigits n taken rest = (n, taken, rest) := by
  cases rest with
  | nil => rfl
  | cons b rest =>
    rw [startsWithDigit, Option.isSome_eq_false_iff, Option.isNone_iff_eq_none] at h
    rw [takeDigits, h]

theorem dropDigits_of_not_digit {rest : Bytes} (h : startsWithDigit rest = false)
    (dropped : Nat) : dropDigits dropped rest = (dropped, rest) := by
  cases rest with
  | nil => rfl
  | cons b rest =>
    rw [startsWithDigit] at h
    rw [dropDigits, h]
    rfl

/-- Of the digits behind the number `n` a front part is kept that fits a word, which is
all of them if they fit. -/
structure Keeps (n : Nat) (cs kept left : List Char) : Prop where
  eq : cs = kept ++ left
  fits : n ≤ wordMax → Nat.ofDigitChars 10 kept n ≤ wordMax
  all : Nat.ofDigitChars 10 cs n ≤ wordMax → left = []

theorem Keeps.allDigits_left {n : Nat} {cs kept left : List Char} (h : Keeps n cs kept left)
    (hcs : AllDigits cs) : AllDigits left :=
  fun c hc => hcs c (h.eq ▸ List.mem_append_right kept hc)

/-- What is kept does not depend on what follows. -/
theorem takeDigits_bytes {cs : List Char} (hcs : AllDigits cs) (n : Nat) :
    ∃ kept left, Keeps n cs kept left ∧
      ∀ rest taken, startsWithDigit rest = false →
        takeDigits n taken (Utf8.bytes cs ++ rest) =
        (Nat.ofDigitChars 10 kept n, taken + kept.length, Utf8.bytes left ++ rest) := by
  induction cs generalizing n with
  | nil =>
    refine ⟨[], [], ⟨rfl, fun hn => by rwa [Nat.ofDigitChars_nil], fun _ => rfl⟩,
      fun rest taken hrest => ?_⟩
    rw [Utf8.bytes_nil, List.nil_append, Nat.ofDigitChars_nil, takeDigits_of_not_digit hrest]
    rfl
  | cons c cs ih =>
    obtain ⟨hc, hcs⟩ := allDigits_cons.mp hcs
    have hnext : n * 10 + (c.toNat - 48) = 10 * n + (c.toNat - '0'.toNat) := by
      rw [Nat.mul_comm]
      rfl
    have hstep : ∀ rest taken, takeDigits n taken (Utf8.bytes (c :: cs) ++ rest) =
        if n * 10 + (c.toNat - 48) ≤ wordMax then
          takeDigits (n * 10 + (c.toNat - 48)) (taken + 1) (Utf8.bytes cs ++ rest)
        else (n, taken, Utf8.bytes (c :: cs) ++ rest) := by
      intro rest taken
      rw [bytes_digit_cons hc cs, List.cons_append, takeDigits, digit?_ofNat hc]
    rcases Nat.lt_or_ge wordMax (n * 10 + (c.toNat - 48)) with hlarge | hfit
    · refine ⟨[], c :: cs, ⟨rfl, fun hn => by rwa [Nat.ofDigitChars_nil], fun hle => ?_⟩, ?_⟩
      · rw [Nat.ofDigitChars_cons, ← hnext] at hle
        exact absurd (Nat.le_trans (le_ofDigitChars cs _) hle) (Nat.not_le_of_lt hlarge)
      · intro rest taken _
        rw [hstep, if_neg (Nat.not_le_of_lt hlarge), Nat.ofDigitChars_nil]
        rfl
    · obtain ⟨kept, left, ⟨rfl, hfits, hall⟩, htake⟩ := ih hcs (n * 10 + (c.toNat - 48))
      refine ⟨c :: kept, left, ⟨rfl, fun _ => ?_, fun hle => hall ?_⟩,
        fun rest taken hrest => ?_⟩
      · rw [Nat.ofDigitChars_cons, ← hnext]
        exact hfits hfit
      · rwa [Nat.ofDigitChars_cons, ← hnext] at hle
      · rw [hstep, if_pos hfit, htake rest _ hrest, Nat.ofDigitChars_cons, hnext,
          List.length_cons, Nat.add_assoc, Nat.add_comm 1]

theorem dropDigits_bytes {cs : List Char} (hcs : AllDigits cs) {rest : Bytes}
    (hrest : startsWithDigit rest = false) (dropped : Nat) :
    dropDigits dropped (Utf8.bytes cs ++ rest) = (dropped + cs.length, rest) := by
  induction cs generalizing dropped with
  | nil => exact dropDigits_of_not_digit hrest dropped
  | cons c cs ih =>
    obtain ⟨hc, hcs⟩ := allDigits_cons.mp hcs
    rw [bytes_digit_cons hc, List.cons_append, dropDigits, digit?_ofNat hc,
      Option.isSome_some,
      if_pos rfl, ih hcs, List.length_cons, Nat.add_assoc, Nat.add_comm 1]

/-! ## Integers -/

/-- No zero leads unless it stands alone. -/
structure IsWhole (ds : List Char) : Prop where
  digits : AllDigits ds
  notEmpty : ds ≠ []
  noLeadingZero : ds.head? = some '0' → ds = ['0']

theorem isWhole_singleton {c : Char} (h : c.isDigit = true) : IsWhole [c] := by
  refine ⟨List.forall_mem_singleton.mpr h, List.cons_ne_nil _ _, fun hzero => ?_⟩
  rw [List.head?_cons, Option.some.injEq] at hzero
  rw [hzero]

theorem isWhole_toDigits (n : Nat) : IsWhole (Nat.toDigits 10 n) := by
  refine ⟨allDigits_toDigits n, Nat.toDigits_ne_nil, ?_⟩
  induction n using Nat.strongRecOn with
  | ind n ih =>
    intro hzero
    rcases Nat.lt_or_ge n 10 with hlt | hge
    · rw [Nat.toDigits_of_lt_base hlt] at hzero ⊢
      rw [List.head?_cons, Option.some.injEq] at hzero
      rw [hzero]
    · have hfront := Nat.toDigits_of_base_le (b := 10) (n := n) (by decide) hge
      have hhead : (Nat.toDigits 10 n).head? = (Nat.toDigits 10 (n / 10)).head? := by
        rw [hfront, List.head?_append, List.head?_eq_some_head Nat.toDigits_ne_nil,
          Option.some_or]
      rw [hhead] at hzero
      have hdigits := congrArg (Nat.ofDigitChars 10 · 0) (ih (n / 10) (by omega) hzero)
      simp only [Nat.ofDigitChars_ten_toDigits] at hdigits
      have hnought : Nat.ofDigitChars 10 ['0'] 0 = 0 := rfl
      omega

/-- An integer part that fits a word is kept as it is. -/
theorem readNumber_bytes {ds : List Char} (hds : IsWhole ds)
    (hword : Nat.ofDigitChars 10 ds 0 ≤ wordMax) (negative : Bool) {rest : Bytes}
    (hrest : startsWithDigit rest = false) :
    readNumber negative (Utf8.bytes ds ++ rest) =
      readAfterInteger negative (Nat.ofDigitChars 10 ds 0) 0 rest := by
  cases ds with
  | nil => exact absurd rfl hds.notEmpty
  | cons c cs =>
    obtain ⟨hc, hcs⟩ := allDigits_cons.mp hds.digits
    have hdigit := isDigit_iff.mp hc
    rw [bytes_digit_cons hc, List.cons_append, readNumber, digit?_ofNat hc]
    cases hd : c.toNat - 48 with
    | zero =>
      have hzero : c = '0' := Char.toNat_inj.mp (show c.toNat = 48 by omega)
      subst hzero
      cases hds.noLeadingZero rfl
      simp only [Utf8.bytes_nil, List.nil_append, hrest, Bool.false_eq_true, ↓reduceIte]
      rfl
    | succ d =>
      have hfirst : Nat.ofDigitChars 10 (c :: cs) 0 = Nat.ofDigitChars 10 cs (d + 1) := by
        rw [Nat.ofDigitChars_cons, Nat.mul_zero, Nat.zero_add, ← hd]
        rfl
      rw [hfirst] at hword ⊢
      obtain ⟨kept, left, hkeeps, htake⟩ := takeDigits_bytes hcs (d + 1)
      obtain rfl := hkeeps.all hword
      obtain rfl := hkeeps.eq.trans (List.append_nil kept)
      simp only [htake rest 1 hrest, Utf8.bytes_nil, List.nil_append,
        dropDigits_of_not_digit hrest]

/-- What follows does not belong to a number. -/
def Ends (rest : Bytes) : Prop :=
  ∀ b ∈ rest.head?, digit? b = none ∧ Char.ofUInt8 b ≠ '.' ∧ Char.ofUInt8 b ≠ 'e' ∧
    Char.ofUInt8 b ≠ 'E'

theorem Ends.startsWithDigit {rest : Bytes} (h : Ends rest) :
    startsWithDigit rest = false := by
  cases rest with
  | nil => rfl
  | cons b rest =>
    rw [Json.startsWithDigit, (h b rfl).1]
    rfl

theorem readAfterInteger_of_ends {rest : Bytes} (h : Ends rest) (negative : Bool) (n : Nat) :
    readAfterInteger negative n 0 rest = .ok (Scientific.whole negative n, rest) := by
  cases rest with
  | nil => rfl
  | cons b rest =>
    obtain ⟨-, hpoint, he, hE⟩ := h b rfl
    unfold readAfterInteger
    dsimp only
    split
    · next h => exact absurd h hpoint
    · next h => exact absurd h he
    · next h => exact absurd h hE
    · rfl

theorem readNumber_toDigits {n : Nat} (hn : n ≤ wordMax) {rest : Bytes} (h : Ends rest)
    (negative : Bool) :
    readNumber negative (Utf8.bytes (Nat.toDigits 10 n) ++ rest) =
      .ok (Scientific.whole negative n, rest) := by
  have hword : Nat.ofDigitChars 10 (Nat.toDigits 10 n) 0 ≤ wordMax := by
    rwa [Nat.ofDigitChars_ten_toDigits]
  rw [readNumber_bytes (isWhole_toDigits n) hword negative h.startsWithDigit,
    Nat.ofDigitChars_ten_toDigits]
  exact readAfterInteger_of_ends h negative n

end Jose.Json
