import Jose.Text.Utf8

/-! A text is determined by its UTF-8 bytes, and reading them gives it back. An ASCII text
has one byte a character, and reading bytes gives no more characters than there are
bytes. -/
namespace Jose.Text.Utf8

theorem encode_toByteArray (text : String) :
    (encode text).toByteArray = text.toByteArray := by
  calc
    (encode text).toByteArray = text.toList.utf8Encode := rfl
    _ = (String.ofList text.toList).toByteArray := String.toByteArray_ofList.symm
    _ = text.toByteArray := by rw [String.ofList_toList]

theorem encode_injective {s t : String} (h : encode s = encode t) : s = t := by
  apply String.toByteArray_inj.mp
  rw [← encode_toByteArray, ← encode_toByteArray, h]

theorem utf8EncodeChar_ascii {c : Char} (h : c.toNat < 128) :
    String.utf8EncodeChar c = [UInt8.ofNat c.toNat] := by
  have hle : c.val ≤ 127 := by
    rw [UInt32.le_iff_toNat_le]
    exact Nat.lt_succ_iff.mp h
  rw [String.utf8EncodeChar_eq_singleton (Char.utf8Size_eq_one_iff.mpr hle)]
  rfl

/-- The bytes of a text that is given by its characters. -/
def bytes (cs : List Char) : Bytes := cs.flatMap String.utf8EncodeChar

theorem encode_ofList (cs : List Char) : encode (String.ofList cs) = bytes cs := by
  rw [encode, String.toList_ofList, bytes]

@[simp] theorem bytes_nil : bytes [] = [] := rfl

theorem bytes_append (cs ds : List Char) : bytes (cs ++ ds) = bytes cs ++ bytes ds :=
  List.flatMap_append

theorem bytes_cons {c : Char} (h : c.toNat < 128) (cs : List Char) :
    bytes (c :: cs) = UInt8.ofNat c.toNat :: bytes cs := by
  rw [bytes, List.flatMap_cons, utf8EncodeChar_ascii h]
  rfl

theorem encode_ofList_ascii (cs : List Char) (h : ∀ c ∈ cs, c.toNat < 128) :
    encode (String.ofList cs) = cs.map fun c => UInt8.ofNat c.toNat := by
  rw [encode_ofList]
  induction cs with
  | nil => rfl
  | cons c cs ih =>
    rw [bytes_cons (h c List.mem_cons_self), ih fun d hd => h d (List.mem_cons_of_mem _ hd)]
    rfl

theorem toNat_ofUInt8 (b : UInt8) : (Char.ofUInt8 b).toNat = b.toNat := UInt8.toNat_toUInt32 b

theorem ofUInt8_ofNat {c : Char} (h : c.toNat < 128) :
    Char.ofUInt8 (UInt8.ofNat c.toNat) = c := by
  have htoNat : (UInt8.ofNat c.toNat).toNat = c.toNat := by
    rw [UInt8.toNat_ofNat', Nat.mod_eq_of_lt (Nat.lt_trans h (by decide))]
  apply Char.toNat_inj.mp
  calc
    (Char.ofUInt8 (UInt8.ofNat c.toNat)).toNat = (UInt8.ofNat c.toNat).toNat :=
      UInt8.toNat_toUInt32 _
    _ = c.toNat := htoNat

theorem length_decodeFrom_le {offset : Nat} {bs : Bytes} {cs : List Char}
    (h : decodeFrom offset bs = .ok cs) : cs.length ≤ bs.length := by
  fun_induction decodeFrom offset bs generalizing cs with
  | case1 => cases h; simp
  | case2 offset b rest c r hnext ih =>
    have hr := next_rest_length hnext
    cases hd : decodeFrom (offset + (rest.length + 1 - r.length)) r with
    | error e => rw [hd] at h; cases h
    | ok cs' =>
      rw [hd] at h
      cases h
      have := ih hd
      simp only [List.length_cons]
      omega
  | case3 => cases h
  | case4 => cases h

theorem length_decode_le {bs : Bytes} {text : String} (h : decode bs = .ok text) :
    text.length ≤ bs.length := by
  unfold decode at h
  cases hd : decodeFrom 0 bs with
  | error e => rw [hd] at h; cases h
  | ok cs =>
    rw [hd] at h
    cases h
    simpa using length_decodeFrom_le hd

/-! ## Reading back -/

theorem toNat_ofNat_of_lt {n : Nat} (h : n < 256) : (UInt8.ofNat n).toNat = n := by
  rw [UInt8.toNat_ofNat', Nat.mod_eq_of_lt h]

theorem ofNat_eq {n : Nat} {b : UInt8} (h : n = b.toNat) : UInt8.ofNat n = b := by
  rw [h, UInt8.ofNat_toNat]

theorem isContinuation_iff {b : UInt8} :
    isContinuation b = true ↔ 128 ≤ b.toNat ∧ b.toNat < 192 := by
  simp [isContinuation, UInt8.le_iff_toNat_le, Nat.lt_succ_iff]

/-- A second byte that is one at all, and neither that of an overlong form nor of a
surrogate. -/
theorem followsThree_iff {a b : UInt8} : followsThree a b = true ↔
    128 ≤ b.toNat ∧ b.toNat < 192 ∧ (a.toNat = 0xE0 → 0xA0 ≤ b.toNat) ∧
      (a.toNat = 0xED → b.toNat < 0xA0) := by
  have hleast : (if a = 0xE0 then 0xA0 else 0x80 : UInt8).toNat = if a.toNat =
      0xE0 then 0xA0 else 0x80 := by
    simp only [apply_ite UInt8.toNat, ← UInt8.toNat_inj]
    rfl
  have hgreatest : (if a = 0xED then 0x9F else 0xBF : UInt8).toNat = if a.toNat =
      0xED then 0x9F else 0xBF := by
    simp only [apply_ite UInt8.toNat, ← UInt8.toNat_inj]
    rfl
  simp only [followsThree, Bool.and_eq_true, decide_eq_true_eq, UInt8.le_iff_toNat_le,
    hleast, hgreatest]
  split <;> split <;> omega

/-- A second byte that is one at all, and neither that of an overlong form nor of a number
above U+10FFFF. -/
theorem followsFour_iff {a b : UInt8} : followsFour a b = true ↔
    128 ≤ b.toNat ∧ b.toNat < 192 ∧ (a.toNat = 0xF0 → 0x90 ≤ b.toNat) ∧
      (a.toNat = 0xF4 → b.toNat < 0x90) := by
  have hleast : (if a = 0xF0 then 0x90 else 0x80 : UInt8).toNat = if a.toNat =
      0xF0 then 0x90 else 0x80 := by
    simp only [apply_ite UInt8.toNat, ← UInt8.toNat_inj]
    rfl
  have hgreatest : (if a = 0xF4 then 0x8F else 0xBF : UInt8).toNat = if a.toNat =
      0xF4 then 0x8F else 0xBF := by
    simp only [apply_ite UInt8.toNat, ← UInt8.toNat_inj]
    rfl
  simp only [followsFour, Bool.and_eq_true, decide_eq_true_eq, UInt8.le_iff_toNat_le,
    hleast, hgreatest]
  split <;> split <;> omega

theorem next_one {a : UInt8} (h : a.toNat < 128) (rest : Bytes) :
    next a rest = .char (Char.ofNat a.toNat) rest := by
  have ha : a < 0x80 := UInt8.lt_iff_toNat_lt.mpr h
  unfold next
  rw [if_pos ha]

theorem next_two {a b : UInt8} (ha : 194 ≤ a.toNat ∧ a.toNat < 224)
    (hb : isContinuation b = true) (rest : Bytes) :
    next a (b :: rest) = .char (Char.ofNat (a.toNat % 32 * 64 + lowBits b)) rest := by
  have hone : ¬a < 0x80 := by simp [UInt8.lt_iff_toNat_lt]; omega
  have htwo : (decide (0xC2 ≤ a) && decide (a ≤ 0xDF)) = true := by
    simp [UInt8.le_iff_toNat_le]; omega
  unfold next
  rw [if_neg hone, if_pos htwo]
  simp only [hb, ↓reduceIte]

theorem next_three {a b c : UInt8} (ha : 224 ≤ a.toNat ∧ a.toNat < 240)
    (hb : followsThree a b = true) (hc : isContinuation c = true) (rest : Bytes) :
    next a (b :: c :: rest) =
      .char (Char.ofNat ((a.toNat % 16 * 64 + lowBits b) * 64 + lowBits c)) rest := by
  have hone : ¬a < 0x80 := by simp [UInt8.lt_iff_toNat_lt]; omega
  have htwo : ¬(decide (0xC2 ≤ a) && decide (a ≤ 0xDF)) = true := by
    simp [UInt8.le_iff_toNat_le]; omega
  have hthree : (decide (0xE0 ≤ a) && decide (a ≤ 0xEF)) = true := by
    simp [UInt8.le_iff_toNat_le]; omega
  unfold next
  rw [if_neg hone, if_neg htwo, if_pos hthree]
  simp only [hb, hc, Bool.not_true, Bool.false_eq_true, ↓reduceIte]

theorem next_four {a b c d : UInt8} (ha : 240 ≤ a.toNat ∧ a.toNat < 245)
    (hb : followsFour a b = true) (hc : isContinuation c = true)
    (hd : isContinuation d = true) (rest : Bytes) :
    next a (b :: c :: d :: rest) =
      .char (Char.ofNat (((a.toNat % 8 * 64 + lowBits b) * 64 + lowBits c) * 64 + lowBits d))
        rest := by
  have hone : ¬a < 0x80 := by simp [UInt8.lt_iff_toNat_lt]; omega
  have htwo : ¬(decide (0xC2 ≤ a) && decide (a ≤ 0xDF)) = true := by
    simp [UInt8.le_iff_toNat_le]; omega
  have hthree : ¬(decide (0xE0 ≤ a) && decide (a ≤ 0xEF)) = true := by
    simp [UInt8.le_iff_toNat_le]; omega
  have hfour : (decide (0xF0 ≤ a) && decide (a ≤ 0xF4)) = true := by
    simp [UInt8.le_iff_toNat_le]; omega
  unfold next
  rw [if_neg hone, if_neg htwo, if_neg hthree, if_pos hfour]
  simp only [hb, hc, hd, Bool.not_true, Bool.false_eq_true, ↓reduceIte]

theorem isContinuation_ofNat (n : Nat) :
    isContinuation (UInt8.ofNat (n % 64 + 128)) = true := by
  rw [isContinuation_iff, toNat_ofNat_of_lt (by omega)]
  omega

theorem lowBits_ofNat (n : Nat) : lowBits (UInt8.ofNat (n % 64 + 128)) = n % 64 := by
  rw [lowBits, toNat_ofNat_of_lt (by omega)]
  omega

/-- Only ASCII characters have bytes below 128. -/
theorem le_toNat_of_mem_utf8EncodeChar {c : Char} (h : 128 ≤ c.toNat) :
    ∀ b ∈ String.utf8EncodeChar c, 128 ≤ b.toNat := by
  have hval : c.val.toNat = c.toNat := rfl
  intro b hb
  unfold String.utf8EncodeChar at hb
  simp only [hval] at hb
  rw [if_neg (by omega)] at hb
  split at hb
  · simp only [List.mem_cons, List.not_mem_nil, or_false] at hb
    rcases hb with rfl | rfl <;> rw [toNat_ofNat_of_lt (by omega)] <;> omega
  split at hb
  · simp only [List.mem_cons, List.not_mem_nil, or_false] at hb
    rcases hb with rfl | rfl | rfl <;> rw [toNat_ofNat_of_lt (by omega)] <;> omega
  · simp only [List.mem_cons, List.not_mem_nil, or_false] at hb
    rcases hb with rfl | rfl | rfl | rfl <;> rw [toNat_ofNat_of_lt (by omega)] <;> omega

/-- What stands in front of an encoded text is the encoded character. -/
theorem next_utf8EncodeChar (c : Char) (rest : Bytes) :
    ∃ lead tail, String.utf8EncodeChar c = lead :: tail ∧
      next lead (tail ++ rest) = .char c rest := by
  have hscalar : c.toNat < 0xD800 ∨ 0xDFFF < c.toNat ∧ c.toNat < 0x110000 := c.valid
  have hval : c.val.toNat = c.toNat := rfl
  unfold String.utf8EncodeChar
  simp only [hval]
  split
  · refine ⟨_, _, rfl, ?_⟩
    have hlead := toNat_ofNat_of_lt (n := c.toNat) (by omega)
    rw [next_one (by omega), hlead, Char.ofNat_toNat]
    rfl
  split
  · refine ⟨_, _, rfl, ?_⟩
    have hlead := toNat_ofNat_of_lt (n := c.toNat / 64 % 32 + 192) (by omega)
    have hcode : (c.toNat / 64 % 32 + 192) % 32 * 64 + c.toNat % 64 = c.toNat := by omega
    rw [List.cons_append, next_two (by omega) (isContinuation_ofNat _), hlead,
      lowBits_ofNat, hcode, Char.ofNat_toNat]
    rfl
  split
  · refine ⟨_, _, rfl, ?_⟩
    have hlead := toNat_ofNat_of_lt (n := c.toNat / 4096 % 16 + 224) (by omega)
    have hsecond := toNat_ofNat_of_lt (n := c.toNat / 64 % 64 + 128) (by omega)
    have hfollows : followsThree (UInt8.ofNat (c.toNat / 4096 % 16 + 224))
        (UInt8.ofNat (c.toNat / 64 % 64 + 128)) = true := by
      rw [followsThree_iff, hlead, hsecond]
      omega
    have hcode : ((c.toNat / 4096 % 16 + 224) % 16 * 64 + c.toNat / 64 % 64) * 64 +
      c.toNat % 64 =
        c.toNat := by omega
    rw [List.cons_append, List.cons_append,
      next_three (by omega) hfollows (isContinuation_ofNat _),
      hlead, lowBits_ofNat, lowBits_ofNat, hcode, Char.ofNat_toNat]
    rfl
  · refine ⟨_, _, rfl, ?_⟩
    have hlead := toNat_ofNat_of_lt (n := c.toNat / 262144 % 8 + 240) (by omega)
    have hsecond := toNat_ofNat_of_lt (n := c.toNat / 4096 % 64 + 128) (by omega)
    have hfollows : followsFour (UInt8.ofNat (c.toNat / 262144 % 8 + 240))
        (UInt8.ofNat (c.toNat / 4096 % 64 + 128)) = true := by
      rw [followsFour_iff, hlead, hsecond]
      omega
    have hcode : (((c.toNat / 262144 % 8 + 240) % 8 * 64 + c.toNat / 4096 % 64) * 64 +
        c.toNat / 64 % 64) * 64 + c.toNat % 64 = c.toNat := by omega
    rw [List.cons_append, List.cons_append, List.cons_append,
      next_four (by omega) hfollows (isContinuation_ofNat _) (isContinuation_ofNat _), hlead,
      lowBits_ofNat, lowBits_ofNat, lowBits_ofNat, hcode, Char.ofNat_toNat]
    rfl

theorem decodeFrom_utf8EncodeChar (offset : Nat) (cs : List Char) :
    decodeFrom offset (cs.flatMap String.utf8EncodeChar) = .ok cs := by
  induction cs generalizing offset with
  | nil => rw [List.flatMap_nil, decodeFrom]
  | cons c cs ih =>
    obtain ⟨lead, tail, hchar, hnext⟩ :=
      next_utf8EncodeChar c (cs.flatMap String.utf8EncodeChar)
    rw [List.flatMap_cons, hchar, List.cons_append, decodeFrom]
    split
    · next c' rest h =>
      rw [hnext] at h
      cases h
      rw [ih]
      rfl
    · next h =>
      rw [hnext] at h
      cases h
    · next h =>
      rw [hnext] at h
      cases h

theorem decode_encode (text : String) : decode (encode text) = .ok text := by
  rw [decode, encode, decodeFrom_utf8EncodeChar]
  exact congrArg Except.ok String.ofList_toList

theorem length_le_encode (text : String) : text.length ≤ (encode text).length :=
  length_decode_le (decode_encode text)

end Jose.Text.Utf8
