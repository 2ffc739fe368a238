import Jose.Proofs.Text.WellFormed
import Jose.Text.Charset

/-! The charsets agree on ASCII. All but UTF-8 have one byte a character. In each, a text
and its bytes determine each other, and what neither a text can be written as nor bytes
can be read as is refused. -/
namespace Jose.Text.Charset
open Result

theorem encodeLatin1_of_ascii {cs : List Char} (h : ∀ c ∈ cs, c.toNat < 128) :
    encodeLatin1 cs = .ok (cs.map byteOf) := by
  induction cs with
  | nil => rfl
  | cons c cs ih =>
    obtain ⟨hc, hcs⟩ := List.forall_mem_cons.mp h
    rw [encodeLatin1, if_pos (by omega), ih hcs]
    rfl

/-- ASCII text is the same bytes in every charset. -/
theorem encode_of_ascii {text : String} (h : ∀ c ∈ text.toList, c.toNat < 128)
    (charset : Charset) : charset.encode text = .ok (Utf8.encode text) := by
  have hutf8 : Utf8.encode text = text.toList.map byteOf := by
    have hbytes := Utf8.encode_ofList_ascii text.toList h
    rwa [String.ofList_toList] at hbytes
  cases charset with
  | utf8 => rfl
  | ascii =>
    have hall : text.toList.all (·.toNat < 128) = true := by simpa using h
    rw [encode, if_pos hall, hutf8]
  | latin1 => rw [encode, encodeLatin1_of_ascii h, hutf8]

/-- What is encoded in UTF-8 is read again. -/
theorem decode_utf8_encode (text : String) : utf8.decode (Utf8.encode text) = .ok text := by
  rw [decode, Utf8.decode_encode]
  rfl

theorem decode_ascii_eq_ok_iff {bytes : Bytes} {text : String} :
    ascii.decode bytes = .ok text ↔
      (∀ b ∈ bytes, b.toNat < 128) ∧ text = String.ofList (bytes.map charOf) := by
  rw [decode]
  split
  · next hall =>
    have hascii : ∀ b ∈ bytes, b.toNat < 128 := by simpa using hall
    rw [Except.ok.injEq, eq_comm]
    exact (and_iff_right hascii).symm
  · next hall =>
    have hascii : ¬∀ b ∈ bytes, b.toNat < 128 := by simpa using hall
    constructor
    · intro h
      cases h
    · rintro ⟨h, -⟩
      exact absurd h hascii

theorem length_ofList_map_charOf (bytes : Bytes) :
    (String.ofList (bytes.map charOf)).length = bytes.length := by
  rw [String.length_ofList, List.length_map]

/-! ## Texts and bytes -/

/-- The bytes are the numbers of the characters. -/
def OneByteEach (text : String) (bytes : Bytes) : Prop :=
  text.toList.map Char.toNat = bytes.map UInt8.toNat

theorem toNat_charOf (b : UInt8) : (charOf b).toNat = b.toNat :=
  Utf8.toNat_ofNat_of_scalar (.inl (Nat.lt_trans b.toNat_lt (by decide)))

theorem eq_ofList_map_charOf_iff {text : String} {bytes : Bytes} :
    text = String.ofList (bytes.map charOf) ↔ OneByteEach text bytes := by
  have hcodes : bytes.map UInt8.toNat = (bytes.map charOf).map Char.toNat := by
    simp [toNat_charOf]
  rw [OneByteEach, hcodes, List.map_inj_right fun _ _ => Char.toNat_inj.mp,
    ← String.toList_inj, String.toList_ofList]

theorem encodeLatin1_eq_ok_iff {cs : List Char} {bytes : Bytes} :
    encodeLatin1 cs = .ok bytes ↔ cs.map Char.toNat = bytes.map UInt8.toNat := by
  induction cs generalizing bytes with
  | nil => cases bytes <;> simp [encodeLatin1]
  | cons c cs ih =>
    rw [encodeLatin1]
    split
    · next hc =>
      have hbyte : (byteOf c).toNat = c.toNat := Utf8.toNat_ofNat_of_lt hc
      rw [map_eq_ok_iff]
      constructor
      · rintro ⟨rest, hrest, rfl⟩
        rw [List.map_cons, List.map_cons, hbyte, ih.mp hrest]
      · intro h
        cases bytes with
        | nil => cases h
        | cons b rest =>
          obtain ⟨hb, hrest⟩ := List.cons_eq_cons.mp h
          exact ⟨rest, ih.mpr hrest, by rw [UInt8.toNat_inj.mp (hbyte.trans hb)]⟩
    · next hc =>
      constructor
      · intro h
        cases h
      · intro h
        cases bytes with
        | nil => cases h
        | cons b rest =>
          have hb : c.toNat = b.toNat := (List.cons_eq_cons.mp h).1
          exact absurd (hb ▸ b.toNat_lt) hc

theorem encode_latin1_eq_ok_iff {text : String} {bytes : Bytes} :
    latin1.encode text = .ok bytes ↔ OneByteEach text bytes := encodeLatin1_eq_ok_iff

theorem decode_latin1_eq_ok_iff {text : String} {bytes : Bytes} :
    latin1.decode bytes = .ok text ↔ OneByteEach text bytes := by
  rw [← eq_ofList_map_charOf_iff, decode, Except.ok.injEq, eq_comm]

/-- As in ISO-8859-1, if it is ASCII at all. -/
theorem encode_ascii_eq_ok_iff {text : String} {bytes : Bytes} :
    ascii.encode text = .ok bytes ↔
      (∀ c ∈ text.toList, c.toNat < 0x80) ∧ OneByteEach text bytes := by
  rw [encode]
  split
  · next hall =>
    have hascii : ∀ c ∈ text.toList, c.toNat < 0x80 := by simpa using hall
    rw [← encodeLatin1_of_ascii hascii, encodeLatin1_eq_ok_iff]
    exact (and_iff_right hascii).symm
  · next hall =>
    have hascii : ¬∀ c ∈ text.toList, c.toNat < 0x80 := by simpa using hall
    constructor
    · intro h
      cases h
    · rintro ⟨h, -⟩
      exact absurd h hascii

theorem OneByteEach.forall_lt_iff {text : String} {bytes : Bytes}
    (h : OneByteEach text bytes) (n : Nat) :
    (∀ c ∈ text.toList, c.toNat < n) ↔ ∀ b ∈ bytes, b.toNat < n := by
  have hcodes : (∀ code ∈ text.toList.map Char.toNat, code < n) ↔
      ∀ code ∈ bytes.map UInt8.toNat, code < n := by
    rw [h]
  rwa [List.forall_mem_map, List.forall_mem_map] at hcodes

theorem exists_oneByteEach_iff {text : String} :
    (∃ bytes, OneByteEach text bytes) ↔ ∀ c ∈ text.toList, c.toNat < 0x100 := by
  constructor
  · rintro ⟨bytes, h⟩
    exact (h.forall_lt_iff _).mpr fun b _ => b.toNat_lt
  · intro h
    refine ⟨text.toList.map byteOf, ?_⟩
    rw [OneByteEach, List.map_map]
    exact List.map_congr_left fun c hc => (Utf8.toNat_ofNat_of_lt (h c hc)).symm

theorem encode_eq_ok_iff_decode {charset : Charset} {text : String} {bytes : Bytes} :
    charset.encode text = .ok bytes ↔ charset.decode bytes = .ok text := by
  cases charset with
  | utf8 => rw [encode, decode, Except.ok.injEq, mapError_eq_ok_iff, Utf8.decode_eq_ok_iff]
  | ascii =>
    rw [encode_ascii_eq_ok_iff, decode_ascii_eq_ok_iff, eq_ofList_map_charOf_iff,
      and_congr_left_iff]
    exact fun h => h.forall_lt_iff _
  | latin1 => rw [encode_latin1_eq_ok_iff, decode_latin1_eq_ok_iff]

/-- In each charset a text is written as just the bytes that are read as it. UTF-8 has all
texts and spells their characters in well-formed bytes, of which it has all. The other two
have one byte for each character: US-ASCII for the texts that are below U+0080, and
ISO-8859-1 for those up to U+00FF, where every byte stands for one. -/
theorem text_and_bytes_correspond :
    (∀ (charset : Charset) text bytes, charset.encode text = .ok bytes ↔
      charset.decode bytes = .ok text) ∧
    (∀ (charset : Charset) text text' bytes,
      charset.encode text = .ok bytes → charset.encode text' = .ok bytes → text = text') ∧
    (∀ text, ∃ bytes, utf8.encode text = .ok bytes ∧
      Utf8.Spells bytes (text.toList.map Char.toNat)) ∧
    (∀ bytes, (∃ text, utf8.decode bytes = .ok text) ↔ Utf8.WellFormed bytes) ∧
    (∀ (charset : Charset) text bytes,
      charset ≠ utf8 → charset.encode text = .ok bytes → OneByteEach text bytes) ∧
    (∀ text, (∃ bytes, ascii.encode text = .ok bytes) ↔ ∀ c ∈ text.toList, c.toNat < 0x80) ∧
    (∀ text, (∃ bytes, latin1.encode text = .ok bytes) ↔ ∀ c ∈ text.toList, c.toNat ≤ 0xFF) ∧
    ∀ bytes, ∃ text, latin1.decode bytes = .ok text := by
  refine ⟨fun _ _ _ => encode_eq_ok_iff_decode, fun charset text text' bytes h h' => ?_,
    fun text => ⟨_, rfl, Utf8.spells_bytes text.toList⟩, fun bytes => ?_,
      fun charset text bytes hne h => ?_,
    fun text => ?_, fun text => ?_, fun bytes => ⟨_, rfl⟩⟩
  · rw [encode_eq_ok_iff_decode] at h h'
    exact Except.ok.inj (h.symm.trans h')
  · rw [← Utf8.exists_decode_iff]
    exact exists_congr fun text => mapError_eq_ok_iff
  · cases charset with
    | utf8 => exact absurd rfl hne
    | ascii => exact (encode_ascii_eq_ok_iff.mp h).2
    | latin1 => exact encode_latin1_eq_ok_iff.mp h
  · simp only [encode_ascii_eq_ok_iff, exists_and_left, exists_oneByteEach_iff]
    exact and_iff_left_of_imp fun h c hc => Nat.lt_trans (h c hc) (by decide)
  · simp only [encode_latin1_eq_ok_iff, exists_oneByteEach_iff, Nat.lt_succ_iff]

/-- A letter in two charsets, which the third does not have, and its lead byte alone. -/
theorem text_and_bytes_correspond_accented :
    latin1.encode "é" = .ok [0xE9] ∧ latin1.decode [0xE9] = .ok "é" ∧ OneByteEach "é" [0xE9] ∧
      (∀ text, latin1.encode text = .ok [0xE9] → "é" = text) ∧
        utf8.decode [0xC3, 0xA9] = .ok "é" ∧
      ¬Utf8.WellFormed [0xC3] ∧ ¬∃ bytes, ascii.encode "é" = .ok bytes := by
  obtain ⟨hsame, hunique, -, hread, hbytes, hascii, -, -⟩ := text_and_bytes_correspond
  have hlatin1 : latin1.encode "é" = .ok [0xE9] := rfl
  have hcut : Utf8.decode [0xC3] = .error ⟨0, none⟩ := by cbv
  refine ⟨hlatin1, (hsame _ _ _).mp hlatin1, hbytes _ _ _ (by decide) hlatin1, fun text h =>
    hunique _ _ _ _ hlatin1 h, (hsame _ _ _).mp rfl, ?_, ?_⟩
  · rw [← hread]
    rintro ⟨text, h⟩
    cases hcut.symm.trans (mapError_eq_ok_iff.mp h)
  · rw [hascii]
    intro hall
    have hletter : 'é'.toNat < 0x80 := hall 'é' (by simp)
    exact absurd hletter (by decide)

end Jose.Text.Charset
