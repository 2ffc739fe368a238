import Jose.Proofs.Result
import Jose.Proofs.Text.Utf8
import Jose.Text.Base64Url
import Mathlib.Data.List.TakeWhile

/-! Reading accepts exactly what writing produces, so every byte string has one written
form. A group of symbols is first read as numbers below 64, and `symbolByte` is the only
byte that reads as a given number. -/
namespace Jose.Text.Base64Url
open Result

def symbolByte (v : Nat) : UInt8 := UInt8.ofNat (symbol v).toNat

theorem symbol_ascii : ∀ v < 64, (symbol v).toNat < 128 := by decide +kernel

theorem symbol_ne_period : ∀ v < 64, symbol v ≠ '.' := by decide +kernel

theorem symbolByte_ne_pad : ∀ v < 64, symbolByte v ≠ pad := by decide +kernel

theorem value?_symbolByte : ∀ v < 64, value? (symbolByte v) = some v := by decide +kernel

private theorem value?_ofNat : ∀ n < 256, ∀ v ∈ value? (UInt8.ofNat n),
    v < 64 ∧ UInt8.ofNat n = symbolByte v := by decide +kernel

theorem value?_eq_some_iff {b : UInt8} {v : Nat} :
    value? b = some v ↔ v < 64 ∧ b = symbolByte v := by
  constructor
  · intro h
    have hb := value?_ofNat b.toNat b.toNat_lt v
    rw [UInt8.ofNat_toNat] at hb
    exact hb h
  · rintro ⟨hv, rfl⟩
    exact value?_symbolByte v hv

theorem valueAt_eq_ok_iff {offset : Nat} {b : UInt8} {v : Nat} :
    valueAt offset b = .ok v ↔ v < 64 ∧ b = symbolByte v := by
  rw [← value?_eq_some_iff, valueAt]
  cases value? b <;> simp

/-- The numbers that the symbols of an encoding stand for. -/
def sextets : Bytes → List Nat
  | a :: b :: c :: rest =>
    a.toNat / 4 :: (a.toNat % 4 * 16 + b.toNat / 16) :: (b.toNat % 16 * 4 + c.toNat / 64) ::
      c.toNat % 64 :: sextets rest
  | [a, b] => [a.toNat / 4, a.toNat % 4 * 16 + b.toNat / 16, b.toNat % 16 * 4]
  | [a] => [a.toNat / 4, a.toNat % 4 * 16]
  | [] => []

theorem encodeSymbols_eq (bytes : Bytes) :
    encodeSymbols bytes = (sextets bytes).map symbol := by
  fun_induction sextets bytes with
  | case1 a b c rest ih => simp only [encodeSymbols, ih, List.map_cons]
  | case2 => rfl
  | case3 => rfl
  | case4 => rfl

theorem sextets_lt (bytes : Bytes) : ∀ v ∈ sextets bytes, v < 64 := by
  fun_induction sextets bytes with
  | case1 a b c rest ih =>
    have := a.toNat_lt
    have := b.toNat_lt
    have := c.toNat_lt
    simp only [List.forall_mem_cons]
    exact ⟨by omega, by omega, by omega, by omega, ih⟩
  | case2 a b =>
    have := a.toNat_lt
    have := b.toNat_lt
    simp only [List.forall_mem_cons]
    exact ⟨by omega, by omega, by omega, by simp⟩
  | case3 a =>
    have := a.toNat_lt
    simp only [List.forall_mem_cons]
    exact ⟨by omega, by omega, by simp⟩
  | case4 => simp

theorem length_sextets (bytes : Bytes) :
    (sextets bytes).length = (4 * bytes.length + 2) / 3 := by
  fun_induction sextets bytes with
  | case1 a b c rest ih =>
    simp only [List.length_cons, ih]
    omega
  | case2 => simp
  | case3 => simp
  | case4 => rfl

theorem ascii_symbols (bytes : Bytes) : ∀ c ∈ (sextets bytes).map symbol, c.toNat < 128 := by
  intro c hc
  obtain ⟨v, hv, rfl⟩ := List.mem_map.mp hc
  exact symbol_ascii v (sextets_lt bytes v hv)

theorem utf8_encode (bytes : Bytes) :
    Utf8.encode (encode bytes) = (sextets bytes).map symbolByte := by
  rw [encode, encodeSymbols_eq, Utf8.encode_ofList_ascii _ (ascii_symbols bytes),
    List.map_map]
  rfl

/-! ## The last group -/

private theorem mapM_valueAt_eq_ok_iff {offset k : Nat} {group : Bytes} {vs : List Nat} :
    (group.zipIdx k).mapM (fun (b, i) => valueAt (offset + i) b) = .ok vs ↔
      group = vs.map symbolByte ∧ ∀ v ∈ vs, v < 64 := by
  induction group generalizing k vs with
  | nil => cases vs <;> simp [pure, Except.pure]
  | cons b group ih =>
    simp only [List.zipIdx_cons, List.mapM_cons, bind_eq_ok_iff, pure_eq_ok_iff, ih,
      valueAt_eq_ok_iff]
    constructor
    · rintro ⟨v, ⟨hv, rfl⟩, vs, ⟨rfl, hvs⟩, rfl⟩
      exact ⟨rfl, by simpa using ⟨hv, hvs⟩⟩
    · rintro ⟨hg, hv⟩
      cases vs with
      | nil => cases hg
      | cons v vs =>
        obtain ⟨rfl, rfl⟩ := List.cons.inj hg
        obtain ⟨hv, hvs⟩ := List.forall_mem_cons.mp hv
        exact ⟨v, ⟨hv, rfl⟩, vs, ⟨rfl, hvs⟩, rfl⟩

theorem lastGroup_symbols {offset : Nat} {vs : List Nat} (h : ∀ v ∈ vs, v < 64) :
    lastGroup offset (vs.map symbolByte) = .ok (vs, false) := by
  have ht : (vs.map symbolByte).takeWhile (· ≠ pad) = vs.map symbolByte := by
    apply List.takeWhile_eq_self_iff.mpr
    intro b hb
    obtain ⟨v, hv, rfl⟩ := List.mem_map.mp hb
    simpa using symbolByte_ne_pad v (h v hv)
  have hm : (vs.map symbolByte).zipIdx.mapM (fun (b, i) => valueAt (offset + i) b) = .ok vs :=
    mapM_valueAt_eq_ok_iff.mpr ⟨rfl, h⟩
  refine bind_eq_ok_iff.mpr ⟨vs, by rw [ht, hm], ?_⟩
  rw [List.drop_eq_nil_of_le (by simp)]

theorem eq_symbols_of_lastGroup {offset : Nat} {group : Bytes} {vs : List Nat}
    (h : lastGroup offset group = .ok (vs, false)) :
    group = vs.map symbolByte ∧ ∀ v ∈ vs, v < 64 := by
  obtain ⟨us, hus, h⟩ := bind_eq_ok_iff.mp h
  obtain ⟨ht, hlt⟩ := mapM_valueAt_eq_ok_iff.mp hus
  have hlen : us.length = (group.takeWhile (· ≠ pad)).length := by rw [ht, List.length_map]
  split at h
  · next hdrop =>
    obtain ⟨rfl, -⟩ := Prod.mk.inj (Except.ok.inj h)
    have hle : group.length ≤ (group.takeWhile (· ≠ pad)).length := by
      rw [← hlen]
      exact List.drop_eq_nil_iff.mp hdrop
    have hall := (List.takeWhile_prefix (p := (· ≠ pad)) (l := group)).eq_of_length_le hle
    exact ⟨by rw [← ht, hall], hlt⟩
  · split at h <;> cases h

private theorem toNat_ofNat {n : Nat} (h : n < 256) : (UInt8.ofNat n).toNat = n := by
  simpa using h

theorem sextets_triple {a b c d : Nat} (ha : a < 64) (hb : b < 64) (hc : c < 64) (hd : d < 64)
    (rest : Bytes) :
    sextets (UInt8.ofNat (a * 4 + b / 16) :: UInt8.ofNat (b % 16 * 16 + c / 4) ::
      UInt8.ofNat (c % 4 * 64 + d) :: rest) = a :: b :: c :: d :: sextets rest := by
  have hx : (UInt8.ofNat (a * 4 + b / 16)).toNat = a * 4 + b / 16 := toNat_ofNat (by omega)
  have hy : (UInt8.ofNat (b % 16 * 16 + c / 4)).toNat = b % 16 * 16 + c / 4 :=
    toNat_ofNat (by omega)
  have hz : (UInt8.ofNat (c % 4 * 64 + d)).toNat = c % 4 * 64 + d := toNat_ofNat (by omega)
  simp only [sextets, hx, hy, hz, List.cons.injEq, and_true]
  exact ⟨by omega, by omega, by omega, by omega⟩

theorem sextets_pair {a b c : Nat} (ha : a < 64) (hb : b < 64) (hc : c < 64) (h : c % 4 = 0) :
    sextets [UInt8.ofNat (a * 4 + b / 16), UInt8.ofNat (b % 16 * 16 + c / 4)] =
      [a, b, c] := by
  have hx : (UInt8.ofNat (a * 4 + b / 16)).toNat = a * 4 + b / 16 := toNat_ofNat (by omega)
  have hy : (UInt8.ofNat (b % 16 * 16 + c / 4)).toNat = b % 16 * 16 + c / 4 :=
    toNat_ofNat (by omega)
  simp only [sextets, hx, hy, List.cons.injEq, and_true]
  exact ⟨by omega, by omega, by omega⟩

theorem sextets_single {a b : Nat} (ha : a < 64) (hb : b < 64) (h : b % 16 = 0) :
    sextets [UInt8.ofNat (a * 4 + b / 16)] = [a, b] := by
  have hx : (UInt8.ofNat (a * 4 + b / 16)).toNat = a * 4 + b / 16 := toNat_ofNat (by omega)
  simp only [sextets, hx, List.cons.injEq, and_true]
  exact ⟨by omega, by omega⟩

theorem eq_sextets_of_decodeLast {offset : Nat} {group bytes : Bytes}
    (hlen : group.length ≤ 4)
    (h : decodeLast offset group = .ok bytes) : group = (sextets bytes).map symbolByte := by
  obtain ⟨⟨vs, padded⟩, hlast, h⟩ := bind_eq_ok_iff.mp h
  cases padded with
  | true => cases h
  | false =>
    obtain ⟨rfl, hlt⟩ := eq_symbols_of_lastGroup hlast
    match vs with
    | [] => cases h; rfl
    | [_] => cases h
    | [a, b] =>
      simp only [List.forall_mem_cons] at hlt
      simp only [Bool.false_eq_true, ↓reduceIte] at h
      split at h
      · next hb => cases h; rw [sextets_single hlt.1 hlt.2.1 hb]
      · cases h
    | [a, b, c] =>
      simp only [List.forall_mem_cons] at hlt
      simp only [Bool.false_eq_true, ↓reduceIte] at h
      split at h
      · next hc => cases h; rw [sextets_pair hlt.1 hlt.2.1 hlt.2.2.1 hc]
      · cases h
    | [a, b, c, d] =>
      simp only [List.forall_mem_cons] at hlt
      cases h
      rw [sextets_triple hlt.1 hlt.2.1 hlt.2.2.1 hlt.2.2.2.1]
      rfl
    | _ :: _ :: _ :: _ :: _ :: _ =>
      simp only [List.map_cons, List.length_cons] at hlen
      omega

theorem eq_sextets_of_decodeFrom {offset : Nat} {input bytes : Bytes}
    (h : decodeFrom offset input = .ok bytes) : input = (sextets bytes).map symbolByte := by
  fun_induction decodeFrom offset input generalizing bytes with
  | case1 offset a b c d e rest ih =>
    simp only [bind_eq_ok_iff, valueAt_eq_ok_iff, pure_eq_ok_iff] at h
    obtain ⟨va, ⟨ha, rfl⟩, vb, ⟨hb, rfl⟩, vc, ⟨hc, rfl⟩, vd, ⟨hd, rfl⟩, tail, htail, rfl⟩ := h
    rw [sextets_triple ha hb hc hd, ih htail]
    rfl
  | case2 offset group hshort =>
    refine eq_sextets_of_decodeLast ?_ h
    match group with
    | [] | [_] | [_, _] | [_, _, _] | [_, _, _, _] => simp
    | a :: b :: c :: d :: e :: rest => exact (hshort a b c d e rest rfl).elim

/-- The four numbers of three bytes give the bytes back. -/
theorem ofNat_sextets (a b c : UInt8) :
    UInt8.ofNat (a.toNat / 4 * 4 + (a.toNat % 4 * 16 + b.toNat / 16) / 16) = a ∧
    UInt8.ofNat ((a.toNat % 4 * 16 + b.toNat / 16) % 16 * 16 +
      (b.toNat % 16 * 4 + c.toNat / 64) / 4) = b ∧
    UInt8.ofNat ((b.toNat % 16 * 4 + c.toNat / 64) % 4 * 64 + c.toNat % 64) = c := by
  have hb := b.toNat_lt
  have hc := c.toNat_lt
  exact ⟨Utf8.ofNat_eq (by omega), Utf8.ofNat_eq (by omega), Utf8.ofNat_eq (by omega)⟩

theorem decodeLast_sextets {offset : Nat} {bytes : Bytes} (h : bytes.length ≤ 3) :
    decodeLast offset ((sextets bytes).map symbolByte) = .ok bytes := by
  refine bind_eq_ok_iff.mpr ⟨_, lastGroup_symbols (sextets_lt bytes), ?_⟩
  match bytes with
  | [] => rfl
  | [a] =>
    have hb : a.toNat % 4 * 16 % 16 = 0 := by omega
    have hx : UInt8.ofNat (a.toNat / 4 * 4 + a.toNat % 4 * 16 / 16) = a :=
      Utf8.ofNat_eq (by omega)
    simp only [sextets, Bool.false_eq_true, ↓reduceIte, hb, hx]
  | [a, b] =>
    have hb := b.toNat_lt
    have hc : b.toNat % 16 * 4 % 4 = 0 := by omega
    have hx : UInt8.ofNat (a.toNat / 4 * 4 + (a.toNat % 4 * 16 + b.toNat / 16) / 16) = a :=
      Utf8.ofNat_eq (by omega)
    have hy : UInt8.ofNat
        ((a.toNat % 4 * 16 + b.toNat / 16) % 16 * 16 + b.toNat % 16 * 4 / 4) = b :=
      Utf8.ofNat_eq (by omega)
    simp only [sextets, Bool.false_eq_true, ↓reduceIte, hc, hx, hy]
  | [a, b, c] =>
    obtain ⟨hx, hy, hz⟩ := ofNat_sextets a b c
    simp only [sextets, Bool.false_eq_true, ↓reduceIte, hx, hy, hz]
  | _ :: _ :: _ :: _ :: _ =>
    simp only [List.length_cons] at h
    omega

theorem sextets_eq_nil_iff {bytes : Bytes} : sextets bytes = [] ↔ bytes = [] := by
  rw [← List.length_eq_zero_iff, length_sextets, ← List.length_eq_zero_iff]
  omega

theorem decodeFrom_sextets (offset : Nat) (bytes : Bytes) :
    decodeFrom offset ((sextets bytes).map symbolByte) = .ok bytes := by
  induction bytes using sextets.induct generalizing offset with
  | case1 a b c rest ih =>
    have hlt := sextets_lt (a :: b :: c :: rest)
    rw [sextets] at hlt ⊢
    cases hrest : sextets rest with
    | nil =>
      rw [sextets_eq_nil_iff.mp hrest]
      have hlen : [a, b, c].length ≤ 3 := Nat.le_refl 3
      exact decodeLast_sextets hlen
    | cons v vs =>
      obtain ⟨hx, hy, hz⟩ := ofNat_sextets a b c
      have htail := ih (offset + 4)
      rw [hrest] at htail
      simp only [List.forall_mem_cons] at hlt
      simp only [List.map_cons, decodeFrom, bind_eq_ok_iff, valueAt_eq_ok_iff, pure_eq_ok_iff]
      exact ⟨_, ⟨hlt.1, rfl⟩, _, ⟨hlt.2.1, rfl⟩, _, ⟨hlt.2.2.1, rfl⟩, _, ⟨hlt.2.2.2.1, rfl⟩,
        rest, htail, by rw [hx, hy, hz]⟩
  | case2 a b =>
    have hlen : [a, b].length ≤ 3 := by simp
    exact decodeLast_sextets hlen
  | case3 a =>
    have hlen : [a].length ≤ 3 := by simp
    exact decodeLast_sextets hlen
  | case4 => rfl

/-! ## The whole text -/

theorem decodeBytes_eq_ok_iff {input bytes : Bytes} :
    decodeBytes input = .ok bytes ↔ input = (sextets bytes).map symbolByte := by
  unfold decodeBytes
  constructor
  · intro h
    split at h
    · split at h
      · cases h
      · exact eq_sextets_of_decodeFrom h
    · next hnil =>
      cases h
      rw [List.getLast?_eq_none_iff.mp hnil]
      rfl
  · rintro rfl
    split
    · next b hb =>
      obtain ⟨v, hv, rfl⟩ := List.mem_map.mp (List.mem_of_getLast? hb)
      rw [value?_symbolByte v (sextets_lt bytes v hv)]
      simpa using decodeFrom_sextets 0 bytes
    · next hnil =>
      have hn := List.map_eq_nil_iff.mp (List.getLast?_eq_none_iff.mp hnil)
      rw [sextets_eq_nil_iff.mp hn]

theorem decode_eq_ok_iff_eq_encode {text : String} {bytes : Bytes} :
    decode text = .ok bytes ↔ text = encode bytes := by
  rw [decode, mapError_eq_ok_iff, decodeBytes_eq_ok_iff, ← utf8_encode]
  exact ⟨Utf8.encode_injective, fun h => by rw [h]⟩

theorem decode_encode (bytes : Bytes) : decode (encode bytes) = .ok bytes :=
  decode_eq_ok_iff_eq_encode.mpr rfl

theorem encode_injective {bytes bytes' : Bytes} (h : encode bytes = encode bytes') :
    bytes = bytes' := by
  have hdecode := decode_encode bytes'
  rw [← h, decode_encode] at hdecode
  exact Except.ok.inj hdecode

theorem length_encode (bytes : Bytes) :
    (encode bytes).length = (4 * bytes.length + 2) / 3 := by
  rw [encode, encodeSymbols_eq, String.length_ofList, List.length_map, length_sextets]

theorem isEmpty_encode {bytes : Bytes} (h : 0 < bytes.length) :
    (encode bytes).isEmpty = false := by
  rw [← Bool.not_eq_true, String.isEmpty_iff]
  intro hempty
  have hlength := length_encode bytes
  rw [hempty, String.length_empty] at hlength
  omega

theorem period_not_mem_encode (bytes : Bytes) : '.' ∉ (encode bytes).toList := by
  rw [encode, encodeSymbols_eq, String.toList_ofList]
  intro h
  obtain ⟨v, hv, hp⟩ := List.mem_map.mp h
  exact symbol_ne_period v (sextets_lt bytes v hv) hp

theorem ascii_encode (bytes : Bytes) : ∀ c ∈ (encode bytes).toList, c.toNat < 128 := by
  rw [encode, encodeSymbols_eq, String.toList_ofList]
  exact ascii_symbols bytes

end Jose.Text.Base64Url
