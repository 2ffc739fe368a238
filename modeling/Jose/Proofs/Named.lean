import Jose.Named

/-! A value is found under the name it was inserted with last. The names stay in order,
and each is there once. -/
namespace Jose.Named
variable {α : Type}

theorem get?_cons (name k : String) (v : α) (entries : Named α) :
    get? name ((k, v) :: entries) = if k = name then some v else get? name entries := rfl

theorem get?_insert (name k : String) (v : α) (entries : Named α) :
    get? name (insert k v entries) = if k = name then some v else get? name entries := by
  induction entries with
  | nil => rfl
  | cons entry entries ih =>
    obtain ⟨k', v'⟩ := entry
    rw [insert]
    split
    · rw [get?_cons]
    · split
      · next heq =>
        subst heq
        rw [get?_cons, get?_cons]
        split <;> rfl
      · next hne =>
        rw [get?_cons, get?_cons, ih]
        by_cases hk' : k' = name
        · have hk : k ≠ name := fun hk => hne (hk.trans hk'.symm)
          rw [if_pos hk', if_neg hk, if_pos hk']
        · rw [if_neg hk', if_neg hk']

/-! ## Order -/

/-- The names ascend, so none is there twice. -/
def Ordered (entries : Named α) : Prop := entries.Pairwise fun a b => a.1 < b.1

theorem ordered_nil : Ordered ([] : Named α) := List.Pairwise.nil

theorem ordered_cons {k : String} {v : α} {entries : Named α} :
    Ordered ((k, v) :: entries) ↔ (∀ entry ∈ entries, k < entry.1) ∧ Ordered entries :=
  List.pairwise_cons

theorem eq_or_mem_of_mem_insert {entry : String × α} {name : String} {value : α}
    {entries : Named α}
    (h : entry ∈ insert name value entries) : entry = (name, value) ∨ entry ∈ entries := by
  induction entries with
  | nil => exact .inl (List.mem_singleton.mp h)
  | cons head entries ih =>
    obtain ⟨k, v⟩ := head
    rw [insert] at h
    split at h
    · exact List.mem_cons.mp h
    · split at h
      · rcases List.mem_cons.mp h with h | h
        · exact .inl h
        · exact .inr (List.mem_cons_of_mem _ h)
      · rcases List.mem_cons.mp h with rfl | h
        · exact .inr List.mem_cons_self
        · exact (ih h).imp_right (List.mem_cons_of_mem _)

theorem Ordered.insert {entries : Named α} (h : Ordered entries) (name : String) (value : α) :
    Ordered (insert name value entries) := by
  induction entries with
  | nil => exact List.pairwise_singleton _ _
  | cons head entries ih =>
    obtain ⟨k, v⟩ := head
    obtain ⟨hhead, htail⟩ := ordered_cons.mp h
    rw [Named.insert]
    split
    · next hlt =>
      refine ordered_cons.mpr ⟨List.forall_mem_cons.mpr ⟨hlt, fun entry hentry => ?_⟩, h⟩
      exact String.lt_trans hlt (hhead entry hentry)
    · next hnot =>
      split
      · next heq =>
        subst heq
        exact ordered_cons.mpr ⟨hhead, htail⟩
      · next hne =>
        refine ordered_cons.mpr ⟨fun entry hentry => ?_, ih htail⟩
        rcases eq_or_mem_of_mem_insert hentry with rfl | hentry
        · exact Std.lt_of_le_of_ne (Std.not_lt.mp hnot) (Ne.symm hne)
        · exact hhead entry hentry

theorem sublist_erase (name : String) (entries : Named α) :
    (erase name entries).Sublist entries := by
  induction entries with
  | nil => exact List.Sublist.refl _
  | cons head entries ih =>
    obtain ⟨k, v⟩ := head
    rw [erase]
    split
    · exact List.sublist_cons_self _ _
    · exact ih.cons_cons _

theorem Ordered.erase {entries : Named α} (h : Ordered entries) (name : String) :
    Ordered (erase name entries) :=
  List.Pairwise.sublist (sublist_erase name entries) h

theorem insert_of_forall_lt {entries : Named α} {name : String} (value : α)
    (h : ∀ entry ∈ entries, entry.1 < name) :
    insert name value entries = entries ++ [(name, value)] := by
  induction entries with
  | nil => rfl
  | cons head entries ih =>
    obtain ⟨k, v⟩ := head
    obtain ⟨hlt, htail⟩ := List.forall_mem_cons.mp h
    have hnot : ¬name < k := fun hgt => Std.lt_irrefl (String.lt_trans hlt hgt)
    have hne : name ≠ k := fun heq => Std.lt_irrefl (heq ▸ hlt)
    rw [insert, if_neg hnot, if_neg hne, ih htail, List.cons_append]

theorem isSome_get?_iff {name : String} {entries : Named α} :
    (get? name entries).isSome = true ↔ name ∈ names entries := by
  induction entries with
  | nil => simp [get?, names]
  | cons head entries ih =>
    obtain ⟨k, v⟩ := head
    rw [get?_cons, names, List.map_cons, List.mem_cons, eq_comm (a := name)]
    by_cases hk : k = name
    · simp [hk]
    · simp [hk, ih, names]

theorem Ordered.pairwise_names {entries : Named α} (h : Ordered entries) :
    (names entries).Pairwise (· < ·) :=
  List.pairwise_map.mpr h

theorem get?_of_forall_lt {entries : Named α} {name : String}
    (h : ∀ entry ∈ entries, name < entry.1) : get? name entries = none := by
  induction entries with
  | nil => rfl
  | cons head entries ih =>
    obtain ⟨k, v⟩ := head
    obtain ⟨hhead, htail⟩ := List.forall_mem_cons.mp h
    have hne : k ≠ name := fun heq => Std.lt_irrefl (heq ▸ hhead)
    rw [get?_cons, if_neg hne, ih htail]

/-- No name is there twice, so that of the one that is erased is gone. -/
theorem get?_erase {entries : Named α} (h : Ordered entries) (name k : String) :
    get? name (erase k entries) = if k = name then none else get? name entries := by
  induction entries with
  | nil => simp [erase, get?]
  | cons head entries ih =>
    obtain ⟨k', v⟩ := head
    obtain ⟨hhead, htail⟩ := ordered_cons.mp h
    rw [erase, get?_cons]
    by_cases hk : k' = k
    · subst hk
      rw [if_pos rfl]
      split
      · next hname => exact get?_of_forall_lt (hname ▸ hhead)
      · rfl
    · rw [if_neg hk, get?_cons, ih htail]
      by_cases hname : k' = name
      · have hne : k ≠ name := fun heq => hk (hname.trans heq.symm)
        rw [if_pos hname, if_neg hne, if_pos hname]
      · rw [if_neg hname, if_neg hname]

/-! ## Lists of entries -/

def insertAll (entries : Named α) (pairs : List (String × α)) : Named α :=
  pairs.foldl (fun entries (k, v) => insert k v entries) entries

theorem insertAll_cons (entries : Named α) (k : String) (v : α) (pairs : List (String × α)) :
    insertAll entries ((k, v) :: pairs) = insertAll (insert k v entries) pairs := rfl

theorem mem_or_mem_of_mem_insertAll {entries : Named α} {pairs : List (String × α)}
    {entry : String × α} (h : entry ∈ insertAll entries pairs) :
    entry ∈ entries ∨ entry ∈ pairs := by
  induction pairs generalizing entries with
  | nil => exact .inl h
  | cons pair pairs ih =>
    rcases ih h with h | h
    · rcases eq_or_mem_of_mem_insert h with rfl | h
      · exact .inr List.mem_cons_self
      · exact .inl h
    · exact .inr (List.mem_cons_of_mem _ h)

theorem Ordered.insertAll {entries : Named α} (h : Ordered entries)
    (pairs : List (String × α)) : Ordered (insertAll entries pairs) := by
  induction pairs generalizing entries with
  | nil => exact h
  | cons pair pairs ih => exact ih (h.insert pair.1 pair.2)

/-- Entries that come in order are appended as they are. -/
theorem insertAll_of_ordered {entries : Named α} {pairs : List (String × α)}
    (h : Ordered (entries ++ pairs)) : Named.insertAll entries pairs = entries ++ pairs := by
  induction pairs generalizing entries with
  | nil => exact (List.append_nil entries).symm
  | cons pair pairs ih =>
    obtain ⟨k, v⟩ := pair
    have hlast : ∀ entry ∈ entries, entry.1 < k := fun entry hentry =>
      (List.pairwise_append.mp h).2.2 entry hentry (k, v) List.mem_cons_self
    rw [List.append_cons] at h ⊢
    rw [insertAll_cons, insert_of_forall_lt v hlast]
    exact ih h

/-- Of the values under a name, the one that comes last is found. -/
theorem get?_insertAll (name : String) (entries : Named α) (pairs : List (String × α)) :
    get? name (insertAll entries pairs) =
      ((pairs.filter (·.1 = name)).getLast?.map (·.2)).or (get? name entries) := by
  induction pairs generalizing entries with
  | nil => rfl
  | cons pair pairs ih =>
    obtain ⟨k, v⟩ := pair
    rw [insertAll_cons, ih, get?_insert]
    by_cases hk : k = name
    · rw [if_pos hk, List.filter_cons_of_pos (by simpa using hk), List.getLast?_cons]
      cases (pairs.filter (·.1 = name)).getLast? <;> rfl
    · rw [if_neg hk, List.filter_cons_of_neg (by simpa using hk)]

theorem get?_ofList (name : String) (pairs : List (String × α)) :
    get? name (ofList pairs) = (pairs.filter (·.1 = name)).getLast?.map (·.2) := by
  have hinserted : get? name (insertAll [] pairs) = _ := get?_insertAll name [] pairs
  rw [get?, Option.or_none] at hinserted
  exact hinserted

theorem mem_of_mem_ofList {pairs : List (String × α)} {entry : String × α}
    (h : entry ∈ ofList pairs) : entry ∈ pairs := by
  have hinserted : entry ∈ insertAll [] pairs := h
  exact (mem_or_mem_of_mem_insertAll hinserted).resolve_left List.not_mem_nil

theorem ordered_ofList (pairs : List (String × α)) : Ordered (ofList pairs) :=
  ordered_nil.insertAll pairs

theorem ofList_of_ordered {entries : Named α} (h : Ordered entries) :
    ofList entries = entries := by
  have hnil : Ordered ([] ++ entries) := h
  exact insertAll_of_ordered hnil

end Jose.Named
