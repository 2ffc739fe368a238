import Jose.Proofs.Compact

/-! Where segments may be empty, said of their positions alone, and what follows for a
text and the list of its segments: reading and writing undo one another under every
layout, and each accepts where the other does. -/
namespace Jose.Compact

/-- An empty part is the last one, or stands where the layout allows it. -/
def Writable (layout : Compact) (parts : List String) : Prop :=
  ∀ i, i + 1 < parts.length → parts[i]? = some "" → layout.optional = some i

/-- An empty segment follows the last period, or stands where the layout allows it. -/
def Readable (layout : Compact) (segments : List String) : Prop :=
  ∀ i, segments[i]? = some "" → (0 < i ∧ i + 1 = segments.length) ∨ layout.optional = some i

theorem allows_iff {layout : Compact} {i : Nat} :
    layout.allows i = true ↔ layout.optional = some i := by
  rw [allows, decide_eq_true_iff]

/-- One more part in front, which is not the last. -/
theorem forall_position_cons {first next : String} {rest : List String}
    {admitted : Nat → Prop} :
    (∀ i, i + 1 < (first :: next :: rest).length → (first :: next :: rest)[i]? = some "" →
      admitted i) ↔
      (first = "" → admitted 0) ∧
        ∀ i, i + 1 < (next :: rest).length → (next :: rest)[i]? = some "" →
          admitted (i + 1) := by
  constructor
  · intro h
    refine ⟨fun hfirst => h 0 (by simp) (by rw [hfirst]; rfl), fun i hi hempty => ?_⟩
    exact h (i + 1) (Nat.succ_lt_succ hi) hempty
  · rintro ⟨hfirst, hrest⟩ i hi hempty
    cases i with
    | zero => exact hfirst (Option.some.inj hempty)
    | succ i => exact hrest i (Nat.lt_of_succ_lt_succ hi) hempty

/-- Every part from number `index` on is non-empty, or last, or the optional one. -/
def lastMayBeEmpty (layout : Compact) : (index : Nat) → List String → Bool
  | _, [] => true
  | _, [_] => true
  | index, part :: next :: rest =>
    (!part.isEmpty || layout.allows index) && layout.lastMayBeEmpty (index + 1) (next :: rest)

theorem lastMayBeEmpty_iff {layout : Compact} {start : Nat} {parts : List String} :
    layout.lastMayBeEmpty start parts = true ↔
      ∀ i, i + 1 < parts.length → parts[i]? = some "" →
        layout.optional = some (start + i) := by
  induction parts generalizing start with
  | nil => simp [lastMayBeEmpty]
  | cons first parts ih =>
    cases parts with
    | nil => simp [lastMayBeEmpty]
    | cons next rest =>
      have hfirst : (!first.isEmpty || layout.allows start) = true ↔
          (first = "" → layout.optional = some start) := by
        by_cases h : first = ""
        · simp [h, allows_iff]
        · simp [h]
      have hstep : layout.lastMayBeEmpty start (first :: next :: rest) =
          ((!first.isEmpty || layout.allows start) &&
            layout.lastMayBeEmpty (start + 1) (next :: rest)) := rfl
      rw [forall_position_cons, hstep, Bool.and_eq_true, hfirst, ih]
      simp only [Nat.add_zero, Nat.add_assoc, Nat.add_comm 1]

theorem lastMayBeEmpty_iff_writable {layout : Compact} {parts : List String} :
    layout.lastMayBeEmpty 0 parts = true ↔ layout.Writable parts := by
  rw [lastMayBeEmpty_iff]
  simp only [Nat.zero_add]
  rfl

theorem writable_of_readable {layout : Compact} {segments : List String}
    (h : layout.Readable segments) : layout.Writable segments := by
  intro i hi hempty
  rcases h i hempty with ⟨-, hlast⟩ | hallowed
  · omega
  · exact hallowed

/-- From two segments on, the last position is no first one, and the two rules are the
same. -/
theorem readable_iff_writable {layout : Compact} {segments : List String}
    (hlength : 2 ≤ segments.length) :
    layout.Readable segments ↔ layout.Writable segments := by
  refine ⟨writable_of_readable, fun h i hempty => ?_⟩
  obtain ⟨hlt, -⟩ := List.getElem?_eq_some_iff.mp hempty
  by_cases hlast : i + 1 = segments.length
  · exact .inl ⟨by omega, hlast⟩
  · exact .inr (h i (by omega) hempty)

/-! ## The loops -/

theorem join_cons (part next : String) (rest : List String) :
    join (part :: next :: rest) = part ++ "." ++ join (next :: rest) :=
  String.intercalate_cons_cons

/-- The loop of the writer joins the parts if it comes to the end of them. -/
theorem serializeFrom_eq (layout : Compact) (index : Nat) (parts : List String) :
    layout.serializeFrom index parts =
      if layout.lastMayBeEmpty index parts then .ok (join parts)
      else .error emptySegment := by
  induction parts generalizing index with
  | nil => rfl
  | cons part parts ih =>
    cases parts with
    | nil =>
      have hjoin : join [part] = part := String.intercalate_singleton
      rw [serializeFrom, lastMayBeEmpty, if_pos rfl, hjoin]
    | cons next rest =>
      rw [serializeFrom, lastMayBeEmpty, ih]
      cases hempty : part.isEmpty <;> cases hallowed : layout.allows index <;>
        cases hrest : layout.lastMayBeEmpty (index + 1) (next :: rest) <;>
        simp [join_cons, Functor.map, Except.map]

theorem serialize_eq_ok_iff {layout : Compact} {parts : List String} {text : String} :
    layout.serialize parts = .ok text ↔
      layout.lastMayBeEmpty 0 parts = true ∧ text = join parts := by
  rw [serialize, serializeFrom_eq]
  split
  · next h => simp [h, eq_comm]
  · next h => simp [h]

theorem serialize_eq_ok_iff_writable {layout : Compact} {parts : List String}
    {text : String} :
    layout.serialize parts = .ok text ↔ layout.Writable parts ∧ text = join parts := by
  rw [serialize_eq_ok_iff, lastMayBeEmpty_iff_writable]

theorem passes_iff {layout : Compact} {last index : Nat} {part : String} :
    ¬(part.isEmpty && !(index = last && 0 < index) && !layout.allows index) = true ↔
      (part = "" → (0 < index ∧ index = last) ∨ layout.optional = some index) := by
  by_cases hempty : part = ""
  · by_cases hallowed : layout.optional =
      some index <;> simp [hempty, allows, hallowed, and_comm]
  · simp [hempty]

/-- The loop of the reader comes to the end if every empty segment is where one may be. -/
theorem checkFrom_eq_ok_iff {layout : Compact} {last start : Nat} {segments : List String} :
    layout.checkFrom last start segments = .ok () ↔ ∀ i, segments[i]? = some "" →
      (0 < start + i ∧ start + i = last) ∨ layout.optional = some (start + i) := by
  induction segments generalizing start with
  | nil => simp [checkFrom]
  | cons part rest ih =>
    have hshift : ∀ i, start + 1 + i = start + (i + 1) := fun i => by omega
    rw [checkFrom]
    constructor
    · intro h
      split at h
      · cases h
      · next hpasses =>
        intro i hi
        cases i with
        | zero => exact passes_iff.mp hpasses (Option.some.inj hi)
        | succ i => exact hshift i ▸ ih.mp h i hi
    · intro h
      have hpasses : ¬(part.isEmpty && !(start = last && 0 < start) &&
        !layout.allows start) = true :=
        passes_iff.mpr fun hempty => h 0 (congrArg some hempty)
      rw [if_neg hpasses, ih]
      intro i hi
      rw [hshift]
      exact h (i + 1) hi

theorem checkFrom_error {layout : Compact} {last start : Nat} {segments : List String}
    {e : Error}
    (h : layout.checkFrom last start segments = .error e) : e = emptySegment := by
  induction segments generalizing start with
  | nil => cases h
  | cons part rest ih =>
    rw [checkFrom] at h
    split at h
    · exact (Except.error.inj h).symm
    · exact ih h

/-- Of the segments of a text, the last one that is looked at is the last one. -/
theorem checkFrom_eq_ok_iff_readable {layout : Compact} {segments : List String}
    (hne : segments ≠ []) :
    layout.checkFrom (segments.length - 1) 0 segments = .ok () ↔
      layout.Readable segments := by
  have hpos : 0 < segments.length := List.length_pos_iff.mpr hne
  rw [checkFrom_eq_ok_iff]
  refine forall_congr' fun i => imp_congr_right fun _ => or_congr (and_congr ?_ ?_) ?_
  · rw [Nat.zero_add]
  · omega
  · rw [Nat.zero_add]

theorem deserialize_of_readable {layout : Compact} {text : String}
    (h : layout.Readable (split text)) : layout.deserialize text = .ok (split text) := by
  rw [deserialize, (checkFrom_eq_ok_iff_readable (split_ne_nil text)).mpr h]
  rfl

theorem deserialize_of_not_readable {layout : Compact} {text : String}
    (h : ¬layout.Readable (split text)) : layout.deserialize text = .error emptySegment := by
  cases hcheck : layout.checkFrom ((split text).length - 1) 0 (split text) with
  | ok =>
    exact absurd ((checkFrom_eq_ok_iff_readable (split_ne_nil text)).mp hcheck) h
  | error e =>
    rw [deserialize, hcheck, checkFrom_error hcheck]
    rfl

/-- A text is read as the list of its segments, provided that the empty ones are where
they may be. -/
theorem deserialize_eq_ok_iff_readable {layout : Compact} {text : String}
    {parts : List String} :
    layout.deserialize text = .ok parts ↔ split text = parts ∧ layout.Readable parts := by
  by_cases h : layout.Readable (split text)
  · rw [deserialize_of_readable h, Except.ok.injEq]
    constructor
    · rintro rfl
      exact ⟨rfl, h⟩
    · exact fun hparts => hparts.1
  · rw [deserialize_of_not_readable h]
    constructor
    · intro hok
      cases hok
    · rintro ⟨rfl, hreadable⟩
      exact absurd hreadable h

/-- From two segments on, reading is subject to the same rule as writing. -/
theorem deserialize_eq_ok_iff {layout : Compact} {text : String} {parts : List String}
    (hlength : 2 ≤ parts.length) :
    layout.deserialize text = .ok parts ↔
      split text = parts ∧ layout.lastMayBeEmpty 0 parts = true := by
  rw [deserialize_eq_ok_iff_readable, readable_iff_writable hlength,
    lastMayBeEmpty_iff_writable]

/-- Whatever is read writes back as the text it was read from, in segments without a
period. From two parts without a period on, where a part that is not given counts as an
empty one, writing accepts exactly the parts whose joined text reading accepts, which are
those with an empty part in the last or the allowed position only; it gives the joined
text, and that reads as the very parts. -/
theorem segments_round_trip (layout : Compact) :
    (∀ text parts, layout.deserialize text = .ok parts →
      (∀ part ∈ parts, '.' ∉ part.toList) ∧ layout.serialize parts = .ok text) ∧
    ∀ parts, 2 ≤ parts.length → (∀ part ∈ filled parts, '.' ∉ part.toList) →
      ((∃ text, layout.serialize (filled parts) = .ok text) ↔
        ∃ segments, layout.deserialize (join (filled parts)) = .ok segments) ∧
      ((∃ text, layout.serialize (filled parts) = .ok text) ↔
        ∀ i, i + 1 < parts.length → (filled parts)[i]? = some "" → layout.optional = some i) ∧
      ∀ text, layout.serialize (filled parts) = .ok text →
        text = join (filled parts) ∧ layout.deserialize text = .ok (filled parts) := by
  constructor
  · intro text parts h
    obtain ⟨rfl, hreadable⟩ := deserialize_eq_ok_iff_readable.mp h
    refine ⟨fun part hpart => period_not_mem_split hpart, ?_⟩
    exact serialize_eq_ok_iff_writable.mpr ⟨writable_of_readable hreadable,
      (join_split text).symm⟩
  · intro parts hlength hperiods
    have hcount : (filled parts).length = parts.length := List.length_map _
    have hne : filled parts ≠ [] := by
      intro hnil
      rw [hnil, List.length_nil] at hcount
      omega
    have hsplit : split (join (filled parts)) = filled parts := split_join hne hperiods
    have hsame : layout.Readable (filled parts) ↔ layout.Writable (filled parts) :=
      readable_iff_writable (hcount ▸ hlength)
    have hwritten : (∃ text, layout.serialize (filled parts) = .ok text) ↔
        layout.Writable (filled parts) := by
      simp only [serialize_eq_ok_iff_writable, exists_and_left, exists_eq, and_true]
    have hread : (∃ segments, layout.deserialize (join (filled parts)) = .ok segments) ↔
        layout.Readable (filled parts) := by
      simp only [deserialize_eq_ok_iff_readable, hsplit]
      exact ⟨fun ⟨_, hparts, hreadable⟩ => hparts ▸ hreadable, fun hreadable =>
        ⟨_, rfl, hreadable⟩⟩
    refine ⟨by rw [hwritten, hread, hsame], by rw [hwritten, Writable, hcount],
      fun text htext => ?_⟩
    obtain ⟨hwritable, rfl⟩ := serialize_eq_ok_iff_writable.mp htext
    exact ⟨rfl, deserialize_eq_ok_iff_readable.mpr ⟨hsplit, hsame.mpr hwritable⟩⟩

/-- An absent part in the middle and an empty one at the end. -/
theorem segments_round_trip_trailing :
    (2 ≤ [some "H", none, some ""].length ∧
      ∀ part ∈ filled [some "H", none, some ""], '.' ∉ part.toList) ∧
      (allowingEmpty 1).serialize (filled [some "H", none, some ""]) = .ok "H.." ∧
      (allowingEmpty 1).deserialize "H.." = .ok ["H", "", ""] ∧
      ∀ part ∈ ["H", "", ""], '.' ∉ part.toList := by
  have hlength : 2 ≤ [some "H", none, some ""].length := by decide
  have hperiods : ∀ part ∈ filled [some "H", none, some ""], '.' ∉ part.toList := by decide
  have hwritten : (allowingEmpty 1).serialize (filled [some "H", none, some ""]) =
      .ok "H.." := by decide
  obtain ⟨hread, hwrite⟩ := segments_round_trip (allowingEmpty 1)
  obtain ⟨-, hback⟩ := (hwrite _ hlength hperiods).2.2 _ hwritten
  exact ⟨⟨hlength, hperiods⟩, hwritten, hback, (hread _ _ hback).1⟩

end Jose.Compact
