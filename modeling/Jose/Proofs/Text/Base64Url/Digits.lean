import Jose.Proofs.Text.Base64Url
import Mathlib.Tactic.Ring

/-! The written form without its code: its symbols are the base 64 digits of the bytes as
one number, shifted by the bits that are left over, and the texts that are read are the
ones with zeros in those bits. -/
namespace Jose.Text.Base64Url

/-- Letters, digits, the hyphen and the low line. -/
def IsSymbol (c : Char) : Prop :=
  ('A' ≤ c ∧ c ≤ 'Z') ∨ ('a' ≤ c ∧ c ≤ 'z') ∨ ('0' ≤ c ∧ c ≤ '9') ∨ c = '-' ∨ c = '_'

instance (c : Char) : Decidable (IsSymbol c) :=
  inferInstanceAs (Decidable (_ ∨ _ ∨ _ ∨ _ ∨ _))

/-- The digit that a symbol stands for: capitals, small letters and digits in their order,
then the other two. -/
def place (c : Char) : Nat :=
  if 'A' ≤ c ∧ c ≤ 'Z' then c.toNat - 'A'.toNat
  else if 'a' ≤ c ∧ c ≤ 'z' then 26 + (c.toNat - 'a'.toNat)
  else if '0' ≤ c ∧ c ≤ '9' then 52 + (c.toNat - '0'.toNat)
  else if c = '-' then 62
  else 63

/-- The bits that are left over when so many symbols are cut into bytes. -/
def spareBits (symbols : Nat) : Nat := 6 * symbols % 8

/-- The text as one number. -/
def number (text : String) : Nat := text.toList.foldl (fun n c => n * 64 + place c) 0

structure Canonical (text : String) : Prop where
  symbols : ∀ c ∈ text.toList, IsSymbol c
  length : text.length % 4 ≠ 1
  spare : ∀ c ∈ text.toList.getLast?, place c % 2 ^ spareBits text.length = 0

theorem place_symbol : ∀ v < 64, place (symbol v) = v := by decide +kernel

theorem isSymbol_symbol : ∀ v < 64, IsSymbol (symbol v) := by decide +kernel

private theorem symbol_place_ofNat : ∀ n < 128, IsSymbol (Char.ofNat n) →
    place (Char.ofNat n) < 64 ∧ symbol (place (Char.ofNat n)) = Char.ofNat n := by
  decide +kernel

theorem symbol_place {c : Char} (h : IsSymbol c) : place c < 64 ∧ symbol (place c) = c := by
  have hascii : c.toNat < 128 := by
    rcases h with ⟨-, h⟩ | ⟨-, h⟩ | ⟨-, h⟩ | rfl | rfl
    · exact Nat.lt_of_le_of_lt (UInt32.le_iff_toNat_le.mp h) (by decide)
    · exact Nat.lt_of_le_of_lt (UInt32.le_iff_toNat_le.mp h) (by decide)
    · exact Nat.lt_of_le_of_lt (UInt32.le_iff_toNat_le.mp h) (by decide)
    · decide
    · decide
  have hsymbol := symbol_place_ofNat c.toNat hascii
  rw [Char.ofNat_toNat] at hsymbol
  exact hsymbol h

theorem toList_encode (bytes : Bytes) :
    (encode bytes).toList = (sextets bytes).map symbol := by
  rw [encode, encodeSymbols_eq, String.toList_ofList]

theorem spareBits_add_four (n : Nat) : spareBits (n + 4) = spareBits n := by
  unfold spareBits
  omega

/-! ## The digits of the bytes -/

/-- The last digit has zeros in the bits that are left over. -/
def SpareClear (vs : List Nat) : Prop := ∀ v ∈ vs.getLast?, v % 2 ^ spareBits vs.length = 0

/-- Four digits are three bytes, so only what follows them counts. -/
theorem spareClear_group {a b c d : Nat} {rest : List Nat} :
    SpareClear (a :: b :: c :: d :: rest) ↔ SpareClear rest := by
  cases rest with
  | nil => simp [SpareClear, spareBits, Nat.mod_one]
  | cons v vs =>
    have hlength : (a :: b :: c :: d :: v :: vs).length = (v :: vs).length + 4 := rfl
    rw [SpareClear, SpareClear, hlength, spareBits_add_four]
    simp only [List.getLast?_cons_cons]

theorem spareClear_pair {a b : Nat} : SpareClear [a, b] ↔ b % 16 = 0 := by
  simp [SpareClear, spareBits]

theorem spareClear_triple {a b c : Nat} : SpareClear [a, b, c] ↔ c % 4 = 0 := by
  simp [SpareClear, spareBits]

theorem spareClear_sextets (bytes : Bytes) : SpareClear (sextets bytes) := by
  fun_induction sextets bytes with
  | case1 a b c rest ih => exact spareClear_group.mpr ih
  | case2 a b => exact spareClear_triple.mpr (by omega)
  | case3 a => exact spareClear_pair.mpr (by omega)
  | case4 => simp [SpareClear]

theorem exists_sextets_eq :
    (vs : List Nat) → (∀ v ∈ vs, v < 64) → vs.length % 4 ≠ 1 → SpareClear vs →
    ∃ bytes, sextets bytes = vs
  | [], _, _, _ => ⟨[], rfl⟩
  | [_], _, hlength, _ => absurd rfl hlength
  | [a, b], hlt, _, hspare => by
    simp only [List.forall_mem_cons] at hlt
    exact ⟨_, sextets_single hlt.1 hlt.2.1 (spareClear_pair.mp hspare)⟩
  | [a, b, c], hlt, _, hspare => by
    simp only [List.forall_mem_cons] at hlt
    exact ⟨_, sextets_pair hlt.1 hlt.2.1 hlt.2.2.1 (spareClear_triple.mp hspare)⟩
  | a :: b :: c :: d :: rest, hlt, hlength, hspare => by
    simp only [List.forall_mem_cons] at hlt
    simp only [List.length_cons] at hlength
    obtain ⟨bytes, rfl⟩ :=
      exists_sextets_eq rest hlt.2.2.2.2 (by omega) (spareClear_group.mp hspare)
    exact ⟨_, sextets_triple hlt.1 hlt.2.1 hlt.2.2.1 hlt.2.2.2.1 bytes⟩

/-- Digit by digit and byte by byte, the same number grows from `start`. -/
theorem foldl_sextets (bytes : Bytes) (start : Nat) :
    (sextets bytes).foldl (fun n v => n * 64 + v) start =
      bytes.foldl (fun n b => n * 256 + b.toNat) start *
        2 ^ spareBits (sextets bytes).length := by
  induction bytes using sextets.induct generalizing start with
  | case1 a b c rest ih =>
    have hb := b.toNat_lt
    have hc := c.toNat_lt
    have hgroup :
      (((start * 64 + a.toNat / 4) * 64 + (a.toNat % 4 * 16 + b.toNat / 16)) * 64 +
        (b.toNat % 16 * 4 + c.toNat / 64)) * 64 + c.toNat % 64 =
          ((start * 256 + a.toNat) * 256 + b.toNat) * 256 + c.toNat := by
      omega
    have hlength : (sextets (a :: b :: c :: rest)).length = (sextets rest).length + 4 := rfl
    rw [hlength, spareBits_add_four, sextets]
    simp only [List.foldl_cons]
    rw [hgroup, ih]
  | case2 a b =>
    have hspare : spareBits (sextets [a, b]).length = 2 := by simp [sextets, spareBits]
    rw [hspare, sextets]
    simp only [List.foldl_cons, List.foldl_nil]
    omega
  | case3 a =>
    have hspare : spareBits (sextets [a]).length = 4 := by simp [sextets, spareBits]
    rw [hspare, sextets]
    simp only [List.foldl_cons, List.foldl_nil]
    omega
  | case4 => exact (Nat.mul_one start).symm

/-! ## The texts that are read -/

theorem foldl_place {vs : List Nat} (h : ∀ v ∈ vs, v < 64) (start : Nat) :
    (vs.map symbol).foldl (fun n c => n * 64 + place c) start =
      vs.foldl (fun n v => n * 64 + v) start := by
  induction vs generalizing start with
  | nil => rfl
  | cons v vs ih =>
    rw [List.forall_mem_cons] at h
    rw [List.map_cons, List.foldl_cons, List.foldl_cons, place_symbol v h.1, ih h.2]

theorem number_encode (bytes : Bytes) :
    number (encode bytes) = bytes.toNat * 2 ^ spareBits (encode bytes).length := by
  rw [number, toList_encode, foldl_place (sextets_lt bytes), foldl_sextets, length_encode,
    length_sextets]
  rfl

theorem canonical_encode (bytes : Bytes) : Canonical (encode bytes) where
  symbols := by
    intro c hc
    rw [toList_encode] at hc
    obtain ⟨v, hv, rfl⟩ := List.mem_map.mp hc
    exact isSymbol_symbol v (sextets_lt bytes v hv)
  length := by
    rw [length_encode]
    omega
  spare := by
    intro c hc
    rw [toList_encode, List.getLast?_map] at hc
    obtain ⟨v, hv, rfl⟩ := Option.map_eq_some_iff.mp hc
    have hspare := spareClear_sextets bytes v hv
    rw [length_sextets] at hspare
    rw [place_symbol v (sextets_lt bytes v (List.mem_of_getLast? hv)), length_encode, hspare]

theorem map_symbol_place {cs : List Char} (h : ∀ c ∈ cs, IsSymbol c) :
    (cs.map place).map symbol = cs := by
  have hback : ∀ c ∈ cs, (symbol ∘ place) c = id c := fun c hc => (symbol_place (h c hc)).2
  rw [List.map_map, List.map_congr_left hback, List.map_id]

theorem Canonical.exists_encode_eq {text : String} (h : Canonical text) :
    ∃ bytes, text = encode bytes := by
  have hlt : ∀ v ∈ text.toList.map place, v < 64 := by
    intro v hv
    obtain ⟨c, hc, rfl⟩ := List.mem_map.mp hv
    exact (symbol_place (h.symbols c hc)).1
  have hcount : (text.toList.map place).length = text.length := by
    rw [List.length_map, String.length_toList]
  have hspare : SpareClear (text.toList.map place) := by
    intro v hv
    rw [List.getLast?_map] at hv
    obtain ⟨c, hc, rfl⟩ := Option.map_eq_some_iff.mp hv
    rw [hcount]
    exact h.spare c hc
  obtain ⟨bytes, hbytes⟩ := exists_sextets_eq _ hlt (hcount ▸ h.length) hspare
  refine ⟨bytes, String.toList_inj.mp ?_⟩
  rw [toList_encode, hbytes, map_symbol_place h.symbols]

/-- A text is read as some bytes exactly if it is what they are written as, so no two
texts are read as the same bytes. The texts that are read are the canonical ones: symbols
of the alphabet only, no single symbol after the groups of four, and zeros in the bits
left over. What is written has the fewest symbols that hold the bits, and as a number in
base 64 it is the bytes as a number in base 256, shifted by those bits. -/
theorem decode_accepts_canonical_form (text : String) (bytes : Bytes) :
    (decode text = .ok bytes ↔ text = encode bytes) ∧
    (decode (encode bytes) = .ok bytes ∧
      ((∃ read, decode text = .ok read) ↔ Canonical text)) ∧
    (∀ text', decode text = .ok bytes → decode text' = .ok bytes → text' = text) ∧
    (encode bytes).length = (8 * bytes.length + 5) / 6 ∧
    number (encode bytes) = bytes.toNat * 2 ^ spareBits (encode bytes).length := by
  refine ⟨decode_eq_ok_iff_eq_encode, ⟨decode_encode bytes, ?_⟩, fun text' h h' => ?_, ?_,
    number_encode bytes⟩
  · simp only [decode_eq_ok_iff_eq_encode]
    constructor
    · rintro ⟨read, rfl⟩
      exact canonical_encode read
    · exact Canonical.exists_encode_eq
  · rw [decode_eq_ok_iff_eq_encode.mp h, decode_eq_ok_iff_eq_encode.mp h']
  · rw [length_encode]
    omega

/-- Two bytes leave two bits over, and both of the symbols that are no letters occur. -/
theorem decode_accepts_canonical_form_pair :
    decode "-_8" = .ok [0xfb, 0xff] ∧ encode [0xfb, 0xff] = "-_8" ∧ Canonical "-_8" := by
  have hread : decode "-_8" = .ok [0xfb, 0xff] := by decide +kernel
  obtain ⟨hwritten, ⟨hback, hcanonical⟩, hunique, -⟩ :=
    decode_accepts_canonical_form "-_8" [0xfb, 0xff]
  exact ⟨hread, hunique _ hread hback, hcanonical.mp ⟨_, hread⟩⟩

end Jose.Text.Base64Url
