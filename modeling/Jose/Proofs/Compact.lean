import Jose.Compact
import Jose.Proofs.Text.Base64Url
import Jose.Proofs.Text.Separated

/-! Splitting and joining are inverse to each other on segments without a period, so the
text and the list of its segments determine one another. -/
namespace Jose.Compact

theorem splitChars_eq (cs : List Char) : splitChars cs = cs.splitOn '.' := by
  induction cs with
  | nil => rfl
  | cons c cs ih =>
    obtain ⟨part, parts, hsplit⟩ := Text.exists_splitOn_eq_cons '.' cs
    rw [splitChars, ih, Text.splitOn_cons, hsplit, List.modifyHead_cons]

theorem splitChars_ne_nil (cs : List Char) : splitChars cs ≠ [] := by
  rw [splitChars_eq]
  exact List.splitOn_ne_nil '.' cs

theorem length_splitChars (cs : List Char) : (splitChars cs).length = cs.count '.' + 1 := by
  induction cs with
  | nil => rfl
  | cons c cs ih =>
    rw [splitChars]
    split
    · next h => exact absurd h (splitChars_ne_nil cs)
    · next part parts h =>
      rw [h, List.length_cons] at ih
      by_cases hc : c = '.'
      · rw [if_pos hc, List.length_cons, List.length_cons, ih, hc, List.count_cons_self]
      · rw [if_neg hc, List.length_cons, ih, List.count_cons_of_ne hc]

theorem period_not_mem_splitChars (cs : List Char) : ∀ part ∈ splitChars cs, '.' ∉ part := by
  intro part hpart
  rw [splitChars_eq] at hpart
  exact Text.not_mem_of_mem_splitOn hpart

theorem toList_join (parts : List String) :
    (join parts).toList = ['.'].intercalate (parts.map String.toList) := by
  rw [join, String.toList_intercalate]
  rfl

theorem join_split (text : String) : join (split text) = text := by
  apply String.toList_inj.mp
  have hparts : (split text).map String.toList = text.toList.splitOn '.' := by
    simp [split, splitChars_eq]
  rw [toList_join, hparts, List.intercalate_splitOn]

theorem period_not_mem_split {text part : String} (h : part ∈ split text) :
    '.' ∉ part.toList := by
  obtain ⟨cs, hcs, rfl⟩ := List.mem_map.mp h
  rw [String.toList_ofList]
  exact period_not_mem_splitChars text.toList cs hcs

theorem split_ne_nil (text : String) : split text ≠ [] := by
  intro h
  exact splitChars_ne_nil text.toList (List.map_eq_nil_iff.mp h)

/-- Every period begins another segment. -/
theorem length_split (text : String) : (split text).length = text.toList.count '.' + 1 := by
  rw [split, List.length_map, length_splitChars]

theorem split_join {parts : List String} (hne : parts ≠ [])
    (hparts : ∀ part ∈ parts, '.' ∉ part.toList) : split (join parts) = parts := by
  have hsplit : splitChars (join parts).toList = parts.map String.toList := by
    rw [splitChars_eq, toList_join]
    refine List.splitOn_intercalate '.' (fun cs hcs => ?_) (by simpa using hne)
    obtain ⟨part, hpart, rfl⟩ := List.mem_map.mp hcs
    exact hparts part hpart
  rw [split, hsplit, List.map_map]
  simp

/-- An encoding has no period in it. -/
theorem split_join_of_encodings {parts : List String} (hne : parts ≠ [])
    (h : ∀ part ∈ parts, ∃ bytes, part = Text.Base64Url.encode bytes) :
    split (join parts) = parts := by
  refine split_join hne fun part hpart => ?_
  obtain ⟨bytes, rfl⟩ := h part hpart
  exact Text.Base64Url.period_not_mem_encode bytes

theorem toList_join_cons (part next : String) (rest : List String) :
    (join (part :: next :: rest)).toList =
      part.toList ++ ['.'] ++ (join (next :: rest)).toList := by
  rw [toList_join, toList_join, List.map_cons, List.map_cons, List.intercalate_cons_cons]

theorem ascii_join_of_encodings {parts : List String}
    (h : ∀ part ∈ parts, ∃ bytes, part = Text.Base64Url.encode bytes) :
    ∀ c ∈ (join parts).toList, c.toNat < 128 := by
  induction parts with
  | nil => simp [join]
  | cons part parts ih =>
    obtain ⟨⟨bytes, rfl⟩, hparts⟩ := List.forall_mem_cons.mp h
    cases parts with
    | nil =>
      have hjoin : join [Text.Base64Url.encode bytes] = Text.Base64Url.encode bytes :=
        String.intercalate_singleton
      rw [hjoin]
      exact Text.Base64Url.ascii_encode bytes
    | cons next rest =>
      intro c hc
      rw [toList_join_cons, List.mem_append, List.mem_append, List.mem_singleton] at hc
      rcases hc with (hc | rfl) | hc
      · exact Text.Base64Url.ascii_encode bytes c hc
      · decide
      · exact ih hparts c hc

theorem length_join_cons (part next : String) (rest : List String) :
    (join (part :: next :: rest)).length =
      part.length + 1 + (join (next :: rest)).length := by
  have hperiod : ".".length = 1 := by decide
  rw [join, String.intercalate_cons_cons, String.length_append, String.length_append, hperiod]
  rfl

theorem length_le_of_mem {part : String} {parts : List String} (h : part ∈ parts) :
    part.length ≤ (join parts).length := by
  induction parts with
  | nil => cases h
  | cons first parts ih =>
    cases parts with
    | nil =>
      have hjoin : join [first] = first := String.intercalate_singleton
      exact Nat.le_of_eq (by rw [hjoin, List.mem_singleton.mp h])
    | cons next rest =>
      rw [length_join_cons]
      rcases List.mem_cons.mp h with rfl | h
      · omega
      · have := ih h
        omega

/-- Next to another segment there is at least a period. -/
theorem length_lt_of_mem_split {text part : String} (h : part ∈ split text)
    (hlength : 2 ≤ (split text).length) : part.length < text.length := by
  rw [← join_split text]
  cases hsplit : split text with
  | nil =>
    rw [hsplit] at h
    cases h
  | cons first parts =>
    rw [hsplit] at h hlength
    cases parts with
    | nil => simp at hlength
    | cons next rest =>
      rw [length_join_cons]
      rcases List.mem_cons.mp h with rfl | h
      · omega
      · have := length_le_of_mem h
        omega

end Jose.Compact
