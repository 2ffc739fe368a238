import Jose.Json.Read
import Jose.Proofs.Json.Value

/-! What is read is well-formed: every number that is accepted is in range, and the
members of an object are put in order. -/
namespace Jose.Json
open Result Value

/-- With this much fuel, nothing else is read. -/
structure ReadsWellFormed (fuel : Nat) : Prop where
  value : ∀ {depth bs v rest}, readValue depth fuel bs = .ok (v, rest) → v.WellFormed
  items : ∀ {depth first bs vs rest}, readItems depth first fuel bs = .ok (vs, rest) →
    ∀ v ∈ vs, v.WellFormed
  pairs : ∀ {depth first bs ms rest}, readPairs depth first fuel bs = .ok (ms, rest) →
    ∀ m ∈ ms, m.2.WellFormed

theorem ReadsWellFormed.value_succ {fuel : Nat} (h : ReadsWellFormed fuel) {depth : Nat}
    {bs rest : Bytes} {v : Value} (hread : readValue depth (fuel + 1) bs = .ok (v, rest)) :
    v.WellFormed := by
  have hnumber : ∀ {negative bs},
    (fun p => (Value.number p.1, p.2)) <$> readNumber negative bs =
      .ok (v, rest) → v.WellFormed := by
    intro negative bs hmap
    obtain ⟨⟨n, left⟩, hn, heq⟩ := map_eq_ok_iff.mp hmap
    cases heq
    exact .number (inRange_of_readNumber hn)
  rw [readValue] at hread
  split at hread
  · cases hread
  · split at hread
    · obtain ⟨left, -, heq⟩ := map_eq_ok_iff.mp hread
      cases heq
      exact .null
    · obtain ⟨left, -, heq⟩ := map_eq_ok_iff.mp hread
      cases heq
      exact .bool true
    · obtain ⟨left, -, heq⟩ := map_eq_ok_iff.mp hread
      cases heq
      exact .bool false
    · obtain ⟨⟨s, left⟩, -, heq⟩ := map_eq_ok_iff.mp hread
      cases heq
      exact .string s
    · exact hnumber hread
    · split at hread
      · cases hread
      · obtain ⟨⟨vs, left⟩, hvs, heq⟩ := map_eq_ok_iff.mp hread
        cases heq
        exact .array (h.items hvs)
    · split at hread
      · cases hread
      · obtain ⟨⟨ms, left⟩, hms, heq⟩ := map_eq_ok_iff.mp hread
        cases heq
        exact .object (Named.ordered_ofList ms) fun m hm =>
          h.pairs hms m (Named.mem_of_mem_ofList hm)
    · split at hread
      · exact hnumber hread
      · cases hread

theorem ReadsWellFormed.items_succ {fuel : Nat} (h : ReadsWellFormed fuel) {depth : Nat}
    {first : Bool} {bs rest : Bytes} {vs : List Value}
    (hread : readItems depth first (fuel + 1) bs = .ok (vs, rest)) :
    ∀ v ∈ vs, v.WellFormed := by
  rw [readItems] at hread
  obtain ⟨entry, -, hread⟩ := bind_eq_ok_iff.mp hread
  cases entry with
  | last left =>
    cases hread
    exact fun v hv => absurd hv List.not_mem_nil
  | more left =>
    obtain ⟨⟨v, left⟩, hv, hread⟩ := bind_eq_ok_iff.mp hread
    obtain ⟨⟨vs, left⟩, hvs, hread⟩ := bind_eq_ok_iff.mp hread
    cases hread
    exact List.forall_mem_cons.mpr ⟨h.value hv, h.items hvs⟩

theorem ReadsWellFormed.pairs_succ {fuel : Nat} (h : ReadsWellFormed fuel) {depth : Nat}
    {first : Bool} {bs rest : Bytes} {ms : List (String × Value)}
    (hread : readPairs depth first (fuel + 1) bs = .ok (ms, rest)) :
    ∀ m ∈ ms, m.2.WellFormed := by
  rw [readPairs] at hread
  obtain ⟨entry, -, hread⟩ := bind_eq_ok_iff.mp hread
  cases entry with
  | last left =>
    cases hread
    exact fun v hv => absurd hv List.not_mem_nil
  | more left =>
    obtain ⟨⟨name, left⟩, -, hread⟩ := bind_eq_ok_iff.mp hread
    obtain ⟨left, -, hread⟩ := bind_eq_ok_iff.mp hread
    obtain ⟨⟨v, left⟩, hv, hread⟩ := bind_eq_ok_iff.mp hread
    obtain ⟨⟨ms, left⟩, hms, hread⟩ := bind_eq_ok_iff.mp hread
    cases hread
    exact List.forall_mem_cons.mpr ⟨h.value hv, h.pairs hms⟩

theorem readsWellFormed (fuel : Nat) : ReadsWellFormed fuel := by
  induction fuel with
  | zero =>
    constructor
    · intro depth bs v rest h
      cases h
    · intro depth first bs vs rest h
      cases h
    · intro depth first bs ms rest h
      cases h
  | succ fuel ih => exact ⟨ih.value_succ, ih.items_succ, ih.pairs_succ⟩

theorem wellFormed_of_parse {bs : Bytes} {v : Value} (h : parse bs = .ok v) :
    v.WellFormed := by
  rw [parse, mapError_eq_ok_iff] at h
  obtain ⟨⟨v', rest⟩, hread, h⟩ := bind_eq_ok_iff.mp h
  obtain ⟨-, -, h⟩ := bind_eq_ok_iff.mp h
  cases h
  exact (readsWellFormed _).value hread

end Jose.Json
