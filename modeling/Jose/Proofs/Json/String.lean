import Jose.Json.Read
import Jose.Json.Write
import Jose.Proofs.Text.Utf8

/-! Strings are read as they were written: an escaped character stands for itself, and no
byte of another one is taken for a quote, a backslash or a control character. -/
namespace Jose.Json
open Text

/-- The bytes are read as the characters, in no more steps than there are bytes. -/
def Advances (cs : List Char) (bs : Bytes) : Prop :=
  ∃ k ≤ bs.length, ∀ fuel read rest, readString read (fuel + k) (bs ++ rest) =
    readString ((Utf8.bytes cs).reverse ++ read) fuel rest

theorem advances_nil : Advances [] [] := ⟨0, Nat.le_refl 0, fun _ _ _ => rfl⟩

theorem Advances.append {cs ds : List Char} {bs bs' : Bytes} (h : Advances cs bs)
    (h' : Advances ds bs') : Advances (cs ++ ds) (bs ++ bs') := by
  obtain ⟨k, hk, hread⟩ := h
  obtain ⟨k', hk', hread'⟩ := h'
  refine ⟨k' + k, by rw [List.length_append]; omega, fun fuel read rest => ?_⟩
  rw [← Nat.add_assoc, List.append_assoc, hread, hread', Utf8.bytes_append,
    List.reverse_append, List.append_assoc]

/-- A byte that stands for itself. -/
def IsPlain (b : UInt8) : Prop := 32 ≤ b.toNat ∧ b ≠ 34 ∧ b ≠ 92

theorem readString_plain {b : UInt8} (h : IsPlain b) (read : Bytes) (fuel : Nat)
    (rest : Bytes) :
    readString read (fuel + 1) (b :: rest) = readString (b :: read) fuel rest := by
  obtain ⟨hcontrol, hquote, hbackslash⟩ := h
  have hinjective : ∀ a : UInt8, Char.ofUInt8 b = Char.ofUInt8 a → b = a := by
    intro a heq
    have hnat : (Char.ofUInt8 b).toNat = (Char.ofUInt8 a).toNat := congrArg Char.toNat heq
    exact UInt8.toNat_inj.mp (by
      rwa [Utf8.toNat_ofUInt8, Utf8.toNat_ofUInt8] at hnat)
  rw [readString]
  split
  · next heq => exact absurd (hinjective 34 heq) hquote
  · next heq => exact absurd (hinjective 92 heq) hbackslash
  · rw [Utf8.toNat_ofUInt8, if_neg (by omega)]

theorem advances_plain {c : Char} (h : ∀ b ∈ String.utf8EncodeChar c, IsPlain b) :
    Advances [c] (String.utf8EncodeChar c) := by
  have hplain : ∀ bs : Bytes, (∀ b ∈ bs, IsPlain b) → ∀ fuel read rest,
      readString read (fuel + bs.length) (bs ++ rest) =
        readString (bs.reverse ++ read) fuel rest := by
    intro bs hbs
    induction bs with
    | nil => exact fun _ _ _ => rfl
    | cons b bs ih =>
      obtain ⟨hb, hbs⟩ := List.forall_mem_cons.mp hbs
      intro fuel read rest
      rw [List.length_cons, ← Nat.add_assoc, List.cons_append, readString_plain hb, ih hbs,
        List.reverse_cons, List.append_assoc]
      rfl
  refine ⟨_, Nat.le_refl _, fun fuel read rest => ?_⟩
  rw [hplain _ h, Utf8.bytes, List.flatMap_singleton]

theorem advances_escape {c : Char} {bs : Bytes}
    (h : ∀ rest, readEscape (bs ++ rest) = .ok (c, rest)) : Advances [c] (92 :: bs) := by
  refine ⟨1, by rw [List.length_cons]; omega, fun fuel read rest => ?_⟩
  have hbackslash : Char.ofUInt8 92 = '\\' := rfl
  rw [List.cons_append, readString, hbackslash]
  simp only [h, Utf8.encode, String.toList_singleton, Utf8.bytes]

theorem hexValue?_hexDigit (n : Nat) :
    hexValue? (UInt8.ofNat (hexDigit n).toNat) = some (n % 16) := by
  have hdigits : ∀ k < 16, hexValue? (UInt8.ofNat (Nat.digitChar k).toNat) =
      some k := by decide
  exact hdigits (n % 16) (Nat.mod_lt _ (by decide))

theorem advances_control {c : Char} (h : c.toNat < 32) :
    Advances [c] (Utf8.bytes ['\\', 'u', '0', '0', hexDigit (c.toNat / 16),
      hexDigit c.toNat]) := by
  have hascii : ∀ n, (hexDigit n).toNat < 128 := by
    have hdigits : ∀ k < 16, (Nat.digitChar k).toNat < 128 := by decide
    exact fun n => hdigits (n % 16) (Nat.mod_lt _ (by decide))
  have hcode : ((0 * 16 + 0) * 16 + c.toNat / 16 % 16) * 16 + c.toNat % 16 = c.toNat := by
    omega
  have hunit : isTrailingSurrogate c.toNat = false ∧ isLeadingSurrogate c.toNat = false := by
    simp only [isTrailingSurrogate, isLeadingSurrogate, Bool.and_eq_false_iff,
      decide_eq_false_iff_not]
    omega
  rw [Utf8.bytes_cons (by decide), Utf8.bytes_cons (by decide), Utf8.bytes_cons (by decide),
    Utf8.bytes_cons (by decide), Utf8.bytes_cons (hascii _), Utf8.bytes_cons (hascii _)]
  refine advances_escape fun rest => ?_
  have hhex : readHex (48 :: 48 :: UInt8.ofNat (hexDigit (c.toNat / 16)).toNat ::
      UInt8.ofNat (hexDigit c.toNat).toNat :: rest) = .ok (c.toNat, rest) := by
    have hzero : hexValue? 48 = some 0 := rfl
    simp only [readHex, hzero, hexValue?_hexDigit, hcode]
  have hpoint : readCodePoint (48 :: 48 :: UInt8.ofNat (hexDigit (c.toNat / 16)).toNat ::
      UInt8.ofNat (hexDigit c.toNat).toNat :: rest) = .ok (c.toNat, rest) := by
    rw [readCodePoint, hhex]
    simp only [bind, Except.bind, hunit, Bool.false_eq_true, ↓reduceIte, pure, Except.pure]
  have hu : Char.ofUInt8 (UInt8.ofNat 'u'.toNat) = 'u' := rfl
  simp only [List.cons_append, List.nil_append, Utf8.bytes_nil, readEscape, hu]
  change (fun p => (Char.ofNat p.1, p.2)) <$> readCodePoint (48 :: 48 :: _) = _
  rw [hpoint]
  simp only [Functor.map, Except.map, Char.ofNat_toNat]

/-- A character that no escape is needed for is read byte by byte. -/
theorem advances_self {c : Char} (hcontrol : 32 ≤ c.toNat) (hquote : c ≠ '"')
    (hbackslash : c ≠ '\\') : Advances [c] (Utf8.bytes [c]) := by
  rw [Utf8.bytes, List.flatMap_singleton]
  refine advances_plain fun b hb => ?_
  rcases Nat.lt_or_ge c.toNat 128 with hascii | hlarge
  · rw [Utf8.utf8EncodeChar_ascii hascii, List.mem_singleton] at hb
    subst hb
    refine ⟨?_, fun heq => hquote ?_, fun heq => hbackslash ?_⟩
    · rw [Utf8.toNat_ofNat_of_lt (by omega)]
      exact hcontrol
    · rw [← Utf8.ofUInt8_ofNat hascii, heq]
      rfl
    · rw [← Utf8.ofUInt8_ofNat hascii, heq]
      rfl
  · have := Utf8.le_toNat_of_mem_utf8EncodeChar hlarge b hb
    refine ⟨by omega, ?_, ?_⟩
    · rintro rfl
      exact absurd this (by decide)
    · rintro rfl
      exact absurd this (by decide)

theorem advances_escaped (c : Char) : Advances [c] (Utf8.bytes (escaped c)) := by
  by_cases hshort : c ∈ ['"', '\\', '\x08', '\t', '\n', '\x0c', '\r']
  · simp only [List.mem_cons, List.not_mem_nil, or_false] at hshort
    rcases hshort with rfl | rfl | rfl | rfl | rfl | rfl | rfl <;> exact advances_escape
      fun rest => rfl
  · simp only [List.mem_cons, List.not_mem_nil, or_false, not_or] at hshort
    obtain ⟨hquote, hbackslash, hb, ht, hn, hf, hr⟩ := hshort
    rw [escaped, if_neg hquote, if_neg hbackslash, if_neg hb, if_neg ht, if_neg hn, if_neg hf,
      if_neg hr]
    split
    · next hcontrol => exact advances_control hcontrol
    · next hcontrol => exact advances_self (Nat.not_lt.mp hcontrol) hquote hbackslash

theorem advances_flatMap_escaped (cs : List Char) :
    Advances cs (Utf8.bytes (cs.flatMap escaped)) := by
  induction cs with
  | nil => exact advances_nil
  | cons c cs ih =>
    rw [List.flatMap_cons, Utf8.bytes_append]
    exact (advances_escaped c).append ih

/-- Behind the opening quote. -/
theorem readString_writeString (s : String) {fuel : Nat}
    (h : (Utf8.bytes (writeString s)).length ≤ fuel) (rest : Bytes) :
    readString [] fuel (Utf8.bytes (s.toList.flatMap escaped ++ ['"']) ++ rest) =
      .ok (s, rest) := by
  obtain ⟨k, hk, hread⟩ := advances_flatMap_escaped s.toList
  have hquote : Utf8.bytes ['"'] = [34] := rfl
  have hlength : (Utf8.bytes (writeString s)).length =
      (Utf8.bytes (s.toList.flatMap escaped)).length + 2 := by
    rw [writeString, List.cons_append, Utf8.bytes_cons (by decide), Utf8.bytes_append, hquote,
      List.length_cons, List.length_append, List.length_singleton]
  obtain ⟨spare, rfl⟩ : ∃ spare, fuel = spare + 1 + k := ⟨fuel - 1 - k, by omega⟩
  rw [Utf8.bytes_append, List.append_assoc, hread, hquote, List.append_nil,
    List.singleton_append]
  have hend : Char.ofUInt8 34 = '"' := rfl
  have hdecode : Utf8.decode (Utf8.bytes s.toList) = .ok s := Utf8.decode_encode s
  rw [readString, hend]
  simp only [List.reverse_reverse, hdecode]

end Jose.Json
