/-! A text and its pieces between separators determine one another. What is done to each
character may be done to the whole text or to each piece, if it leaves the separators
alone. -/
namespace Jose.Text

variable {separator : Char} {cs part : List Char} {parts : List (List Char)}

theorem splitOn_cons (separator c : Char) (cs : List Char) :
    (c :: cs).splitOn separator =
      if c = separator then [] :: cs.splitOn separator
      else (cs.splitOn separator).modifyHead (List.cons c) := by
  rw [List.splitOn_cons_eq_if_modifyHead]
  simp only [beq_iff_eq]

theorem exists_splitOn_eq_cons (separator : Char) (cs : List Char) :
    ∃ part parts, cs.splitOn separator = part :: parts :=
  List.exists_cons_of_ne_nil (List.splitOn_ne_nil separator cs)

theorem not_mem_of_mem_splitOn (h : part ∈ cs.splitOn separator) : separator ∉ part := by
  induction cs generalizing part with
  | nil =>
    rw [List.splitOn_nil, List.mem_singleton] at h
    exact h ▸ List.not_mem_nil
  | cons c cs ih =>
    obtain ⟨first, parts, hsplit⟩ := exists_splitOn_eq_cons separator cs
    rw [splitOn_cons] at h
    split at h
    · rcases List.mem_cons.mp h with rfl | h
      · exact List.not_mem_nil
      · exact ih h
    · next hc =>
      rw [hsplit, List.modifyHead_cons] at h
      rcases List.mem_cons.mp h with rfl | h
      · have hfirst : separator ∉ first := ih (hsplit ▸ List.mem_cons_self)
        rw [List.mem_cons, not_or]
        exact ⟨Ne.symm hc, hfirst⟩
      · exact ih (hsplit ▸ List.mem_cons_of_mem first h)

/-- The text is the parts with the separator between any two, and no part has a separator
in it. -/
structure IsDivided (separator : Char) (cs : List Char) (parts : List (List Char)) :
    Prop where
  nonempty : parts ≠ []
  joined : cs = [separator].intercalate parts
  undivided : ∀ part ∈ parts, separator ∉ part

theorem splitOn_eq_iff : cs.splitOn separator = parts ↔ IsDivided separator cs parts := by
  constructor
  · rintro rfl
    exact ⟨List.splitOn_ne_nil separator cs, (List.intercalate_splitOn separator).symm,
      fun part => not_mem_of_mem_splitOn⟩
  · rintro ⟨hne, rfl, hparts⟩
    exact List.splitOn_intercalate separator hparts hne

/-- Leaving characters out other than the separator. -/
theorem splitOn_filter {p : Char → Bool} (hp : p separator = true) (cs : List Char) :
    (cs.filter p).splitOn separator = (cs.splitOn separator).map (List.filter p) := by
  induction cs with
  | nil => rfl
  | cons c cs ih =>
    obtain ⟨part, parts, hsplit⟩ := exists_splitOn_eq_cons separator cs
    rw [splitOn_cons, List.filter_cons]
    by_cases hc : c = separator
    · subst hc
      rw [if_pos hp, if_pos rfl, splitOn_cons, if_pos rfl, ih]
      rfl
    · rw [if_neg hc, hsplit]
      cases hpc : p c with
      | true => simp [splitOn_cons, hc, ih, hsplit, hpc]
      | false => simp [ih, hsplit, hpc]

/-- Changing characters without making or unmaking a separator. -/
theorem splitOn_map {f : Char → Char} (hf : ∀ c, f c = separator ↔ c = separator)
    (cs : List Char) :
    (cs.map f).splitOn separator = (cs.splitOn separator).map (List.map f) := by
  induction cs with
  | nil => rfl
  | cons c cs ih =>
    obtain ⟨part, parts, hsplit⟩ := exists_splitOn_eq_cons separator cs
    rw [List.map_cons, splitOn_cons, splitOn_cons, ih, hsplit]
    by_cases hc : c = separator
    · rw [if_pos ((hf c).mpr hc), if_pos hc]
      rfl
    · rw [if_neg (mt (hf c).mp hc), if_neg hc]
      rfl

end Jose.Text
