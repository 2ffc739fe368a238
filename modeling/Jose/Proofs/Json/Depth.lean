import Jose.Proofs.Json.RoundTrip

/-! What a limit on the depth lets through. What is read within it is nested no deeper,
and is read alike within any higher limit; so a text that was written is read exactly if
the value it was written from is within the limit. -/
namespace Jose.Json
open Text Result Value

namespace Value

theorem itemsDepth_le_iff {items : List Value} {limit : Nat} :
    itemsDepth items ≤ limit ↔ ∀ v ∈ items, v.depth ≤ limit := by
  induction items with
  | nil => simp [itemsDepth]
  | cons v vs ih => rw [itemsDepth, Nat.max_le, ih, List.forall_mem_cons]

theorem membersDepth_le_iff {members : Members} {limit : Nat} :
    membersDepth members ≤ limit ↔ ∀ m ∈ members, m.2.depth ≤ limit := by
  induction members with
  | nil => simp [membersDepth]
  | cons m ms ih =>
    obtain ⟨name, v⟩ := m
    rw [membersDepth, memberDepth, Nat.max_le, ih, List.forall_mem_cons]

theorem itemsDepth_mapItems {f : Number → Number} {items : List Value}
    (h : ∀ v ∈ items, (v.mapNumbers f).depth = v.depth) :
    itemsDepth (mapItems f items) = itemsDepth items := by
  induction items with
  | nil => rfl
  | cons v vs ih =>
    obtain ⟨hv, hvs⟩ := List.forall_mem_cons.mp h
    rw [mapItems, itemsDepth, itemsDepth, hv, ih hvs]

theorem membersDepth_mapMembers {f : Number → Number} {members : Members}
    (h : ∀ m ∈ members, (m.2.mapNumbers f).depth = m.2.depth) :
    membersDepth (mapMembers f members) = membersDepth members := by
  induction members with
  | nil => rfl
  | cons m ms ih =>
    obtain ⟨name, v⟩ := m
    obtain ⟨hv, hms⟩ := List.forall_mem_cons.mp h
    rw [mapMembers, mapMember, membersDepth, membersDepth, memberDepth, memberDepth,
      hv, ih hms]

/-- Numbers are not nested. -/
theorem WellFormed.depth_mapNumbers {v : Value} (h : v.WellFormed) (f : Number → Number) :
    (v.mapNumbers f).depth = v.depth := by
  induction h with
  | null | bool | number | string => rfl
  | array _ ih => rw [mapNumbers, depth, depth, itemsDepth_mapItems ih]
  | object _ _ ih => rw [mapNumbers, depth, depth, membersDepth_mapMembers ih]

end Value

variable {depth fuel : Nat} {first : Bool} {bs rest : Bytes} {v : Value} {vs : List Value}
  {ms : List (String × Value)}

/-- With this much fuel. -/
structure ReadsWithin (fuel : Nat) : Prop where
  value : ∀ {depth bs v rest}, readValue depth fuel bs = .ok (v, rest) →
    v.depth ≤ depth ∧ ∀ more, readValue (depth + more) fuel bs = .ok (v, rest)
  items : ∀ {depth first bs vs rest}, readItems depth first fuel bs = .ok (vs, rest) →
    (∀ v ∈ vs, v.depth ≤ depth) ∧
      ∀ more, readItems (depth + more) first fuel bs = .ok (vs, rest)
  pairs : ∀ {depth first bs ms rest}, readPairs depth first fuel bs = .ok (ms, rest) →
    (∀ m ∈ ms, m.2.depth ≤ depth) ∧
      ∀ more, readPairs (depth + more) first fuel bs = .ok (ms, rest)

theorem depth_le_of_map {α : Type} {step : Step α} {f : α → Value × Bytes}
    (hflat : ∀ a, (f a).1.depth = 0)
    (h : f <$> step = .ok (v, rest)) (limit : Nat) : v.depth ≤ limit := by
  obtain ⟨a, -, heq⟩ := map_eq_ok_iff.mp h
  have hdepth := hflat a
  rw [heq] at hdepth
  exact hdepth ▸ Nat.zero_le limit

theorem ReadsWithin.value_succ (h : ReadsWithin fuel)
    (hread : readValue depth (fuel + 1) bs = .ok (v, rest)) :
    v.depth ≤ depth ∧ ∀ more, readValue (depth + more) (fuel + 1) bs = .ok (v, rest) := by
  simp only [readValue] at hread ⊢
  split at hread
  · cases hread
  · split at hread
    · exact ⟨depth_le_of_map (fun _ => rfl) hread depth, fun _ => hread⟩
    · exact ⟨depth_le_of_map (fun _ => rfl) hread depth, fun _ => hread⟩
    · exact ⟨depth_le_of_map (fun _ => rfl) hread depth, fun _ => hread⟩
    · exact ⟨depth_le_of_map (fun _ => rfl) hread depth, fun _ => hread⟩
    · exact ⟨depth_le_of_map (fun _ => rfl) hread depth, fun _ => hread⟩
    · cases depth with
      | zero => cases hread
      | succ inner =>
        obtain ⟨⟨items, left⟩, hitems, heq⟩ := map_eq_ok_iff.mp hread
        cases heq
        obtain ⟨hwithin, hmore⟩ := h.items hitems
        refine ⟨Nat.succ_le_succ (itemsDepth_le_iff.mpr hwithin), fun more => ?_⟩
        rw [Nat.succ_add]
        exact map_eq_ok_iff.mpr ⟨_, hmore more, rfl⟩
    · cases depth with
      | zero => cases hread
      | succ inner =>
        obtain ⟨⟨pairs, left⟩, hpairs, heq⟩ := map_eq_ok_iff.mp hread
        cases heq
        obtain ⟨hwithin, hmore⟩ := h.pairs hpairs
        have hkept : ∀ m ∈ Named.ofList pairs, m.2.depth ≤ inner :=
          fun m hm => hwithin m (Named.mem_of_mem_ofList hm)
        refine ⟨Nat.succ_le_succ (membersDepth_le_iff.mpr hkept), fun more => ?_⟩
        rw [Nat.succ_add]
        exact map_eq_ok_iff.mpr ⟨_, hmore more, rfl⟩
    · split at hread
      · next hdigit =>
        rw [if_pos hdigit]
        exact ⟨depth_le_of_map (fun _ => rfl) hread depth, fun _ => hread⟩
      · cases hread

theorem ReadsWithin.items_succ (h : ReadsWithin fuel)
    (hread : readItems depth first (fuel + 1) bs = .ok (vs, rest)) :
    (∀ v ∈ vs, v.depth ≤ depth) ∧ ∀ more, readItems (depth + more) first (fuel + 1) bs =
      .ok (vs, rest) := by
  simp only [readItems, bind_eq_ok_iff] at hread ⊢
  obtain ⟨entry, hentry, hread⟩ := hread
  cases entry with
  | last left =>
    cases hread
    exact ⟨fun v hv => absurd hv List.not_mem_nil, fun _ => ⟨_, hentry, rfl⟩⟩
  | more left =>
    obtain ⟨⟨v, left⟩, hv, hread⟩ := bind_eq_ok_iff.mp hread
    obtain ⟨⟨vs, left⟩, hvs, hread⟩ := bind_eq_ok_iff.mp hread
    cases hread
    obtain ⟨hdepth, hmore⟩ := h.value hv
    obtain ⟨hdepths, hmores⟩ := h.items hvs
    exact ⟨List.forall_mem_cons.mpr ⟨hdepth, hdepths⟩, fun more =>
      ⟨_, hentry, bind_eq_ok_iff.mpr
      ⟨_, hmore more, bind_eq_ok_iff.mpr ⟨_, hmores more, rfl⟩⟩⟩⟩

theorem ReadsWithin.pairs_succ (h : ReadsWithin fuel)
    (hread : readPairs depth first (fuel + 1) bs = .ok (ms, rest)) :
    (∀ m ∈ ms, m.2.depth ≤ depth) ∧ ∀ more, readPairs (depth + more) first (fuel + 1) bs =
      .ok (ms, rest) := by
  simp only [readPairs, bind_eq_ok_iff] at hread ⊢
  obtain ⟨entry, hentry, hread⟩ := hread
  cases entry with
  | last left =>
    cases hread
    exact ⟨fun m hm => absurd hm List.not_mem_nil, fun _ => ⟨_, hentry, rfl⟩⟩
  | more left =>
    obtain ⟨⟨name, left⟩, hname, hread⟩ := bind_eq_ok_iff.mp hread
    obtain ⟨left, hcolon, hread⟩ := bind_eq_ok_iff.mp hread
    obtain ⟨⟨v, left⟩, hv, hread⟩ := bind_eq_ok_iff.mp hread
    obtain ⟨⟨ms, left⟩, hms, hread⟩ := bind_eq_ok_iff.mp hread
    cases hread
    obtain ⟨hdepth, hmore⟩ := h.value hv
    obtain ⟨hdepths, hmores⟩ := h.pairs hms
    refine ⟨List.forall_mem_cons.mpr ⟨hdepth, hdepths⟩, fun more => ⟨_, hentry, ?_⟩⟩
    refine bind_eq_ok_iff.mpr ⟨_, hname, bind_eq_ok_iff.mpr ⟨_, hcolon, ?_⟩⟩
    exact bind_eq_ok_iff.mpr ⟨_, hmore more, bind_eq_ok_iff.mpr ⟨_, hmores more, rfl⟩⟩

theorem readsWithin (fuel : Nat) : ReadsWithin fuel := by
  induction fuel with
  | zero =>
    constructor
    · intro depth bs v rest h
      cases h
    · intro depth first bs vs rest h
      cases h
    · intro depth first bs ms rest h
      cases h
  | succ fuel ih => exact ⟨ih.value_succ, ih.items_succ, ih.pairs_succ⟩

theorem depth_le_of_parse (h : parse bs = .ok v) : v.depth ≤ maxDepth := by
  rw [parse, mapError_eq_ok_iff] at h
  obtain ⟨⟨v', rest⟩, hread, h⟩ := bind_eq_ok_iff.mp h
  obtain ⟨-, -, h⟩ := bind_eq_ok_iff.mp h
  cases h
  exact ((readsWithin _).value hread).1

/-- By reading it once more with a limit that is high enough, which gives the same, and
what was written. -/
theorem exists_parse_text_iff (h : v.WellFormed) :
    (∃ w, parse (Utf8.encode v.text) = .ok w) ↔ v.depth ≤ maxDepth := by
  constructor
  · rintro ⟨w, hw⟩
    rw [parse, mapError_eq_ok_iff] at hw
    obtain ⟨⟨v', rest⟩, hread, -⟩ := bind_eq_ok_iff.mp hw
    obtain ⟨hwithin, hmore⟩ := (readsWithin _).value hread
    have hends : Ends [] := by
      rintro b ⟨⟩
    have hback := h.readsBack (maxDepth + v.depth) (enoughFuel (Utf8.bytes (writeValue v))) []
      (Nat.le_add_left _ _) (by rw [enoughFuel]; omega) hends
    have hdeeper := hmore v.depth
    rw [Value.text, Utf8.encode_ofList] at hdeeper
    rw [List.append_nil, hdeeper] at hback
    cases hback
    rw [h.depth_mapNumbers] at hwithin
    exact hwithin
  · intro hdepth
    exact ⟨_, parse_text h hdepth⟩

end Jose.Json
