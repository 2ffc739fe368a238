import Jose.Proofs.Result
import Jose.Proofs.Text.Utf8

/-! The bytes that are read as a character are the ones that it is written with, so what
is read as a text at all is what the text is written as. Read with replacements, bytes
give at least one character for every four. -/
namespace Jose.Text.Utf8
open Result

/-! ## The forms of a character -/

/-- Each form with the bytes that may stand in it. -/
inductive Front : UInt8 → Bytes → Char → Bytes → Prop where
  | one {a : UInt8} {rest : Bytes} (ha : a.toNat < 128) :
    Front a rest (Char.ofNat a.toNat) rest
  | two {a b : UInt8} {rest : Bytes} (ha : 194 ≤ a.toNat ∧ a.toNat < 224)
    (hb : isContinuation b = true) :
    Front a (b :: rest) (Char.ofNat (a.toNat % 32 * 64 + lowBits b)) rest
  | three {a b c : UInt8} {rest : Bytes} (ha : 224 ≤ a.toNat ∧ a.toNat < 240)
    (hb : followsThree a b = true) (hc : isContinuation c = true) :
    Front a (b :: c :: rest)
      (Char.ofNat ((a.toNat % 16 * 64 + lowBits b) * 64 + lowBits c)) rest
  | four {a b c d : UInt8} {rest : Bytes} (ha : 240 ≤ a.toNat ∧ a.toNat < 245)
    (hb : followsFour a b = true) (hc : isContinuation c = true)
    (hd : isContinuation d = true) :
    Front a (b :: c :: d :: rest)
      (Char.ofNat (((a.toNat % 8 * 64 + lowBits b) * 64 + lowBits c) * 64 + lowBits d)) rest

theorem front_of_next {a : UInt8} {rest r : Bytes} {c : Char} (h : next a rest = .char c r) :
    Front a rest c r := by
  unfold next at h
  simp only [UInt8.lt_iff_toNat_lt, UInt8.le_iff_toNat_le, Bool.and_eq_true,
    decide_eq_true_eq] at h
  split at h
  · next ha =>
    cases h
    exact .one ha
  split at h
  · next ha =>
    split at h
    · cases h
    split at h
    · next hb =>
      cases h
      exact .two ⟨ha.1, Nat.lt_succ_of_le ha.2⟩ hb
    · cases h
  split at h
  · next ha =>
    split at h
    · cases h
    split at h
    · cases h
    split at h
    · cases h
    next hb _ _ _ =>
    split at h
    · next hc =>
      cases h
      exact .three ⟨ha.1, Nat.lt_succ_of_le ha.2⟩ (by simpa using hb) hc
    · cases h
  split at h
  · next ha =>
    split at h
    · cases h
    split at h
    · cases h
    next hb =>
    split at h
    · cases h
    split at h
    · cases h
    next hc =>
    split at h
    · cases h
    split at h
    · next hd =>
      cases h
      exact .four ⟨ha.1, Nat.lt_succ_of_le ha.2⟩ (by simpa using hb) (by simpa using hc) hd
    · cases h
  · cases h

theorem toNat_ofNat_of_scalar {n : Nat} (h : n < 0xD800 ∨ 0xDFFF < n ∧ n < 0x110000) :
    (Char.ofNat n).toNat = n := by
  have hvalid : n.isValidChar := h
  rw [Char.ofNat, dif_pos hvalid]
  rfl

/-- Nothing is spelled in more than one way. -/
theorem Front.cons_eq {a : UInt8} {rest r : Bytes} {c : Char} (h : Front a rest c r) :
    a :: rest = String.utf8EncodeChar c ++ r := by
  have hval : ∀ c : Char, c.val.toNat = c.toNat := fun _ => rfl
  unfold String.utf8EncodeChar
  simp only [hval]
  cases h with
  | one ha =>
    have hcode := toNat_ofNat_of_scalar (n := a.toNat) (by omega)
    rw [hcode, if_pos (by omega), ofNat_eq rfl]
    rfl
  | @two b _ ha hb =>
    obtain ⟨hb, hb'⟩ := isContinuation_iff.mp hb
    obtain ⟨n, hn⟩ : ∃ n, n = a.toNat % 32 * 64 + lowBits b := ⟨_, rfl⟩
    rw [← hn, toNat_ofNat_of_scalar (by rw [lowBits] at hn; omega)]
    rw [lowBits] at hn
    have hfirst : UInt8.ofNat (n / 64 % 32 + 192) = a := ofNat_eq (by omega)
    have hsecond : UInt8.ofNat (n % 64 + 128) = b := ofNat_eq (by omega)
    rw [if_neg (by omega), if_pos (by omega), hfirst, hsecond]
    rfl
  | @three b c _ ha hb hc =>
    obtain ⟨hb, hb', hlow, hhigh⟩ := followsThree_iff.mp hb
    obtain ⟨hc, hc'⟩ := isContinuation_iff.mp hc
    obtain ⟨n, hn⟩ : ∃ n, n = (a.toNat % 16 * 64 + lowBits b) * 64 + lowBits c := ⟨_, rfl⟩
    rw [← hn]
    rw [lowBits, lowBits] at hn
    have hlong : 2048 ≤ n := by omega
    have hscalar : n < 0xD800 ∨ 0xDFFF < n ∧ n < 0x110000 := by omega
    have hfirst : UInt8.ofNat (n / 4096 % 16 + 224) = a := ofNat_eq (by omega)
    have hsecond : UInt8.ofNat (n / 64 % 64 + 128) = b := ofNat_eq (by omega)
    have hthird : UInt8.ofNat (n % 64 + 128) = c := ofNat_eq (by omega)
    rw [toNat_ofNat_of_scalar hscalar, if_neg (by omega), if_neg (by omega),
      if_pos (by omega), hfirst, hsecond, hthird]
    rfl
  | @four b c d _ ha hb hc hd =>
    obtain ⟨hb, hb', hlow, hhigh⟩ := followsFour_iff.mp hb
    obtain ⟨hc, hc'⟩ := isContinuation_iff.mp hc
    obtain ⟨hd, hd'⟩ := isContinuation_iff.mp hd
    obtain ⟨n, hn⟩ : ∃ n, n =
        ((a.toNat % 8 * 64 + lowBits b) * 64 + lowBits c) * 64 + lowBits d := ⟨_, rfl⟩
    rw [← hn]
    rw [lowBits, lowBits, lowBits] at hn
    have hscalar : 0xFFFF < n ∧ n < 0x110000 := by omega
    have hfirst : UInt8.ofNat (n / 262144 % 8 + 240) = a := ofNat_eq (by omega)
    have hsecond : UInt8.ofNat (n / 4096 % 64 + 128) = b := ofNat_eq (by omega)
    have hthird : UInt8.ofNat (n / 64 % 64 + 128) = c := ofNat_eq (by omega)
    have hfourth : UInt8.ofNat (n % 64 + 128) = d := ofNat_eq (by omega)
    rw [toNat_ofNat_of_scalar (by omega), if_neg (by omega), if_neg (by omega),
      if_neg (by omega), hfirst, hsecond, hthird, hfourth]
    rfl

theorem bytes_of_decodeFrom {offset : Nat} {bs : Bytes} {cs : List Char}
    (h : decodeFrom offset bs = .ok cs) : bytes cs = bs := by
  fun_induction decodeFrom offset bs generalizing cs with
  | case1 =>
    cases h
    rfl
  | case2 offset b rest c r hnext ih =>
    obtain ⟨cs', hcs', heq⟩ := bind_eq_ok_iff.mp h
    cases heq
    rw [(front_of_next hnext).cons_eq, bytes, List.flatMap_cons, ← bytes, ih hcs']
  | case3 => cases h
  | case4 => cases h

/-- Bytes that are read as a text are the bytes of that text. -/
theorem encode_of_decode {bs : Bytes} {text : String} (h : decode bs = .ok text) :
    encode text = bs := by
  obtain ⟨cs, hcs, rfl⟩ := map_eq_ok_iff.mp h
  rw [encode_ofList, bytes_of_decodeFrom hcs]

theorem length_encode (text : String) : (encode text).length = text.utf8ByteSize := by
  rw [← List.size_toByteArray, encode_toByteArray, String.size_toByteArray]

theorem utf8ByteSize_of_decode {bs : Bytes} {text : String} (h : decode bs = .ok text) :
    text.utf8ByteSize = bs.length := by
  rw [← length_encode, encode_of_decode h]

theorem length_le_utf8ByteSize (text : String) : text.length ≤ text.utf8ByteSize := by
  rw [← length_encode]
  exact length_le_encode text

/-! ## Replacements -/

/-- What can be read needs none. -/
theorem lossyChars_of_decodeFrom {offset : Nat} {bs : Bytes} {cs : List Char}
    (h : decodeFrom offset bs = .ok cs) : lossyChars bs = cs := by
  fun_induction decodeFrom offset bs generalizing cs with
  | case1 =>
    cases h
    rw [lossyChars]
  | case2 offset b rest c r hnext ih =>
    obtain ⟨cs', hcs', heq⟩ := bind_eq_ok_iff.mp h
    cases heq
    rw [lossyChars]
    split
    · next hnext' =>
      rw [hnext] at hnext'
      cases hnext'
      rw [ih hcs']
    · next hnext' =>
      rw [hnext] at hnext'
      cases hnext'
    · next hnext' =>
      rw [hnext] at hnext'
      cases hnext'
  | case3 => cases h
  | case4 => cases h

theorem decodeLossy_of_decode {bs : Bytes} {text : String} (h : decode bs = .ok text) :
    decodeLossy bs = text := by
  obtain ⟨cs, hcs, rfl⟩ := map_eq_ok_iff.mp h
  rw [decodeLossy, lossyChars_of_decodeFrom hcs]

theorem length_le_of_front {a : UInt8} {rest r : Bytes} {c : Char} (h : Front a rest c r) :
    rest.length ≤ r.length + 3 := by
  cases h <;> simp

theorem width_le_of_next {a : UInt8} {rest : Bytes} {width : Nat}
    (h : next a rest = .malformed width) : width ≤ 3 := by
  unfold next at h
  repeat' split at h
  all_goals first
    | (cases h; decide)
    | cases h

theorem length_le_of_truncated {a : UInt8} {rest : Bytes} (h : next a rest = .truncated) :
    rest.length ≤ 2 := by
  unfold next at h
  repeat' split at h
  all_goals first
    | cases h; simp
    | cases h

/-- No character stands for more than four bytes, be it a replacement or not. -/
theorem length_le_lossyChars (bs : Bytes) : bs.length ≤ 4 * (lossyChars bs).length := by
  fun_induction lossyChars bs with
  | case1 => simp
  | case2 b rest c r hnext ih =>
    have hrest := length_le_of_front (front_of_next hnext)
    simp only [List.length_cons]
    omega
  | case3 b rest width hnext ih =>
    have hwidth := width_le_of_next hnext
    rw [List.length_drop] at ih
    simp only [List.length_cons]
    omega
  | case4 b rest hnext =>
    have hrest := length_le_of_truncated hnext
    simp only [List.length_cons, List.length_nil]
    omega

end Jose.Text.Utf8
