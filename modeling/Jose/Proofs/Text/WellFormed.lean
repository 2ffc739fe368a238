import Jose.Proofs.Text.Canonical

/-! Byte strings that are UTF-8, said without a decoder: a sequence of runs, each of which
carries a number in as few bytes as that takes, and the number is that of a character.
These are the bytes that are read as a text, and the text is the one of these numbers. -/
namespace Jose.Text.Utf8
open Result

/-- The number that a run carries: the lead byte tells the length of the run by its ones
up to the first zero, and every byte after it has six bits of the number behind the bits
`10`. -/
inductive Carries : Bytes → Nat → Prop where
  | one {a : UInt8} (ha : a.toNat < 0x80) : Carries [a] a.toNat
  | two {a b : UInt8} (ha : a.toNat / 32 = 0b110) (hb : b.toNat / 64 = 0b10) :
    Carries [a, b] (a.toNat % 32 * 64 + b.toNat % 64)
  | three {a b c : UInt8} (ha : a.toNat / 16 = 0b1110) (hb : b.toNat / 64 = 0b10)
    (hc : c.toNat / 64 = 0b10) :
    Carries [a, b, c] ((a.toNat % 16 * 64 + b.toNat % 64) * 64 + c.toNat % 64)
  | four {a b c d : UInt8} (ha : a.toNat / 8 = 0b11110) (hb : b.toNat / 64 = 0b10)
    (hc : c.toNat / 64 = 0b10) (hd : d.toNat / 64 = 0b10) :
    Carries [a, b, c, d]
      (((a.toNat % 8 * 64 + b.toNat % 64) * 64 + c.toNat % 64) * 64 + d.toNat % 64)

/-- The least number that takes so many bytes. -/
def leastCode (width : Nat) : Nat :=
  if width ≤ 1 then 0 else if width = 2 then 0x80 else if width = 3 then 0x800 else 0x10000

/-- The numbers of characters: none above U+10FFFF, and no surrogates. -/
def IsScalar (code : Nat) : Prop := code ≤ 0x10FFFF ∧ ¬(0xD800 ≤ code ∧ code ≤ 0xDFFF)

/-- Runs that carry these numbers, one behind the other. -/
inductive Spells : Bytes → List Nat → Prop where
  | nil : Spells [] []
  | append {run rest : Bytes} {code : Nat} {codes : List Nat} (carries : Carries run code)
    (shortest : leastCode run.length ≤ code) (scalar : IsScalar code)
    (h : Spells rest codes) :
    Spells (run ++ rest) (code :: codes)

def WellFormed (bs : Bytes) : Prop := ∃ codes, Spells bs codes

theorem isScalar_iff {code : Nat} :
    IsScalar code ↔ code < 0xD800 ∨ 0xDFFF < code ∧ code < 0x110000 := by
  rw [IsScalar]
  omega

theorem isContinuation_iff_div {b : UInt8} :
    isContinuation b = true ↔ b.toNat / 64 = 0b10 := by
  rw [isContinuation_iff]
  omega

/-- The run of a character in front of the bytes that were read. -/
theorem Front.exists_run {a : UInt8} {rest r : Bytes} {c : Char} (h : Front a rest c r) :
    ∃ run, a :: rest = run ++ r ∧ Carries run c.toNat ∧ leastCode run.length ≤ c.toNat := by
  cases h with
  | one ha =>
    rw [toNat_ofNat_of_scalar (by omega)]
    exact ⟨[a], rfl, .one ha, Nat.zero_le _⟩
  | @two b _ ha hb =>
    rw [isContinuation_iff_div] at hb
    have hcode : (Char.ofNat (a.toNat % 32 * 64 + lowBits b)).toNat =
        a.toNat % 32 * 64 + b.toNat % 64 :=
      toNat_ofNat_of_scalar (by rw [lowBits]; omega)
    rw [hcode]
    refine ⟨[a, b], rfl, .two (by omega) hb, ?_⟩
    show 0x80 ≤ _
    omega
  | @three b c _ ha hb hc =>
    obtain ⟨hb, hb', hlow, hhigh⟩ := followsThree_iff.mp hb
    rw [isContinuation_iff_div] at hc
    have hcode : (Char.ofNat ((a.toNat % 16 * 64 + lowBits b) * 64 + lowBits c)).toNat =
        (a.toNat % 16 * 64 + b.toNat % 64) * 64 + c.toNat % 64 :=
      toNat_ofNat_of_scalar (by rw [lowBits, lowBits]; omega)
    rw [hcode]
    refine ⟨[a, b, c], rfl, .three (by omega) (by omega) hc, ?_⟩
    show 0x800 ≤ _
    omega
  | @four b c d _ ha hb hc hd =>
    obtain ⟨hb, hb', hlow, hhigh⟩ := followsFour_iff.mp hb
    rw [isContinuation_iff_div] at hc hd
    have hcode : (Char.ofNat
      (((a.toNat % 8 * 64 + lowBits b) * 64 + lowBits c) * 64 + lowBits d)).toNat =
        ((a.toNat % 8 * 64 + b.toNat % 64) * 64 + c.toNat % 64) * 64 + d.toNat % 64 :=
      toNat_ofNat_of_scalar (by rw [lowBits, lowBits, lowBits]; omega)
    rw [hcode]
    refine ⟨[a, b, c, d], rfl, .four (by omega) (by omega) hc hd, ?_⟩
    show 0x10000 ≤ _
    omega

/-- A run that is as short as can be is in one of the forms that are read. -/
theorem Carries.exists_front {run : Bytes} {code : Nat} (h : Carries run code)
    (hshortest : leastCode run.length ≤ code) (hscalar : IsScalar code) (rest : Bytes) :
    ∃ a tail, run = a :: tail ∧ Front a (tail ++ rest) (Char.ofNat code) rest := by
  rw [isScalar_iff] at hscalar
  cases h with
  | one ha => exact ⟨_, _, rfl, .one ha⟩
  | @two a b ha hb =>
    have hshortest : 0x80 ≤ a.toNat % 32 * 64 + b.toNat % 64 := hshortest
    exact ⟨_, _, rfl, .two (by omega) (isContinuation_iff_div.mpr hb)⟩
  | @three a b c ha hb hc =>
    have hshortest : 0x800 ≤ (a.toNat % 16 * 64 + b.toNat % 64) * 64 + c.toNat % 64 :=
      hshortest
    have hfollows : followsThree a b = true := by
      rw [followsThree_iff]
      omega
    exact ⟨_, _, rfl, .three (by omega) hfollows (isContinuation_iff_div.mpr hc)⟩
  | @four a b c d ha hb hc hd =>
    have hshortest : 0x10000 ≤
        ((a.toNat % 8 * 64 + b.toNat % 64) * 64 + c.toNat % 64) * 64 + d.toNat % 64 :=
      hshortest
    have hfollows : followsFour a b = true := by
      rw [followsFour_iff]
      omega
    exact ⟨_, _, rfl,
      .four (by omega) hfollows (isContinuation_iff_div.mpr hc)
      (isContinuation_iff_div.mpr hd)⟩

/-- A character is written as a run that carries its number, and as the shortest one. -/
theorem carries_utf8EncodeChar (c : Char) :
    Carries (String.utf8EncodeChar c) c.toNat ∧
      leastCode (String.utf8EncodeChar c).length ≤ c.toNat := by
  obtain ⟨lead, tail, hchar, hnext⟩ := next_utf8EncodeChar c []
  obtain ⟨run, hrun, hcarries, hshortest⟩ := (front_of_next hnext).exists_run
  rw [List.append_nil, List.append_nil] at hrun
  rw [hchar, hrun]
  exact ⟨hcarries, hshortest⟩

theorem Carries.eq_utf8EncodeChar {run : Bytes} {code : Nat} (h : Carries run code)
    (hshortest : leastCode run.length ≤ code) (hscalar : IsScalar code) :
    run = String.utf8EncodeChar (Char.ofNat code) := by
  obtain ⟨a, tail, rfl, hfront⟩ := h.exists_front hshortest hscalar []
  simpa using hfront.cons_eq

theorem spells_bytes (cs : List Char) : Spells (bytes cs) (cs.map Char.toNat) := by
  induction cs with
  | nil => exact .nil
  | cons c cs ih =>
    obtain ⟨hcarries, hshortest⟩ := carries_utf8EncodeChar c
    exact .append hcarries hshortest (isScalar_iff.mpr c.valid) ih

theorem Spells.exists_bytes {bs : Bytes} {codes : List Nat} (h : Spells bs codes) :
    ∃ cs, bytes cs = bs ∧ cs.map Char.toNat = codes := by
  induction h with
  | nil => exact ⟨[], rfl, rfl⟩
  | @append run rest code codes hcarries hshortest hscalar _ ih =>
    obtain ⟨cs, rfl, rfl⟩ := ih
    refine ⟨Char.ofNat code :: cs, ?_, ?_⟩
    · rw [hcarries.eq_utf8EncodeChar hshortest hscalar]
      rfl
    · rw [List.map_cons, toNat_ofNat_of_scalar (isScalar_iff.mp hscalar)]

theorem decode_eq_ok_iff {bs : Bytes} {text : String} :
    decode bs = .ok text ↔ encode text = bs := by
  constructor
  · exact encode_of_decode
  · rintro rfl
    exact decode_encode text

theorem exists_decode_iff {bs : Bytes} : (∃ text, decode bs = .ok text) ↔ WellFormed bs := by
  simp only [decode_eq_ok_iff]
  constructor
  · rintro ⟨text, rfl⟩
    exact ⟨_, spells_bytes text.toList⟩
  · rintro ⟨codes, h⟩
    obtain ⟨cs, rfl, -⟩ := h.exists_bytes
    exact ⟨String.ofList cs, encode_ofList cs⟩

end Jose.Text.Utf8
