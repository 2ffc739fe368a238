import Jose.Proofs.Algorithm.Basic

/-! What a registry holds after any algorithms were registered, under whatever identifiers
and whether or not they are available: for each identifier the available one that came
last, and a listing of just these identifiers. -/
namespace Jose.Registry
variable {α : Type}

theorem find_eq_error_iff {r : Registry α} {id : String} {e : Error} :
    r.find id = .error e ↔ r.entries.get? id = none ∧
      e = .unknownAlgorithm (id ++ " is an unknown, unsupported or unavailable " ++
        r.parameter ++
        " algorithm (not one of " ++ Text.quotedList r.supported ++ ").") := by
  rw [find]
  split
  · next h => simp [h]
  · next h => simp [h, eq_comm]

variable [Algorithm α]

theorem ordered_register {r : Registry α} (h : Named.Ordered r.entries) (a : α) :
    Named.Ordered (r.register a).entries := by
  rw [register]
  split
  · exact h.insert _ _
  · exact h

theorem ordered_foldl_register {r : Registry α} (h : Named.Ordered r.entries)
    (algorithms : List α) : Named.Ordered (algorithms.foldl register r).entries := by
  induction algorithms generalizing r with
  | nil => exact h
  | cons a algorithms ih => exact ih (ordered_register h a)

theorem parameter_foldl_register (algorithms : List α) (r : Registry α) :
    (algorithms.foldl register r).parameter = r.parameter := by
  induction algorithms generalizing r with
  | nil => rfl
  | cons a algorithms ih =>
    rw [List.foldl_cons, ih, register]
    split <;> rfl

/-- What can be found under the identifier. -/
def Serves (id : String) (a : α) : Prop :=
  Algorithm.isAvailable a = true ∧ Algorithm.id a = id

/-- The last of the algorithms that can be found under the identifier. -/
def LastServing (id : String) (algorithms : List α) (a : α) : Prop :=
  ∃ before later, algorithms = before ++ a :: later ∧ Serves id a ∧ ∀ b ∈ later, ¬Serves id b

theorem head?_candidates_eq_some_iff {algorithms : List α} {id : String} {a : α} :
    (candidates algorithms id).head? = some a ↔ LastServing id algorithms a := by
  rw [candidates, ← List.filter_reverse, List.head?_filter, List.find?_eq_some_iff_append]
  simp only [Bool.and_eq_true, decide_eq_true_eq, Bool.not_eq_true', LastServing, Serves]
  constructor
  · rintro ⟨ha, later, before, hsplit, hlater⟩
    refine ⟨before.reverse, later.reverse, ?_, ha, fun b hb hserves => ?_⟩
    · simpa using congrArg List.reverse hsplit
    · simpa [hserves] using hlater b (List.mem_reverse.mp hb)
  · rintro ⟨before, later, rfl, ha, hlater⟩
    refine ⟨ha, later.reverse, before.reverse, by simp, fun b hb => ?_⟩
    simpa using hlater b (List.mem_reverse.mp hb)

theorem head?_candidates_eq_none_iff {algorithms : List α} {id : String} :
    (candidates algorithms id).head? = none ↔ ∀ a ∈ algorithms, ¬Serves id a := by
  simp [candidates, Serves]

/-- Looking up, asking and listing agree after any registrations: each knows the
identifiers of the algorithms that were available. What is found is the last of them under
its own identifier, which one that is unavailable does not take the place of, and for any
other identifier there is an error that says what was looked for. -/
theorem lookup_finds_last_available (parameter : String) (algorithms : List α) :
    (∀ id, (∃ a, (ofList parameter algorithms).find id = .ok a) ↔
      (ofList parameter algorithms).contains id = true) ∧
    (∀ id, (ofList parameter algorithms).contains id = true ↔
      id ∈ (ofList parameter algorithms).supported) ∧
    (∀ id, id ∈ (ofList parameter algorithms).supported ↔ ∃ a ∈ algorithms, Serves id a) ∧
    (∀ id a, (ofList parameter algorithms).find id = .ok a ↔ LastServing id algorithms a) ∧
    (∀ b, Algorithm.isAvailable b = false →
      ofList parameter (algorithms ++ [b]) = ofList parameter algorithms) ∧
    (ofList parameter algorithms).supported.Pairwise (· < ·) ∧
    ∀ id e, (ofList parameter algorithms).find id = .error e ↔
      (∀ a ∈ algorithms, ¬Serves id a) ∧
      e = .unknownAlgorithm (id ++ " is an unknown, unsupported or unavailable " ++
        parameter ++
        " algorithm (not one of " ++
          Text.quotedList (ofList parameter algorithms).supported ++ ").") := by
  have hget : ∀ id, (ofList parameter algorithms).entries.get? id =
      (candidates algorithms id).head? :=
    get?_ofList parameter algorithms
  have hnone : ∀ id, (ofList parameter algorithms).entries.get? id = none ↔
      ∀ a ∈ algorithms, ¬Serves id a :=
    fun id => by rw [hget, head?_candidates_eq_none_iff]
  have hlisted : ∀ id, (ofList parameter algorithms).contains id = true ↔
      id ∈ (ofList parameter algorithms).supported := fun id => Named.isSome_get?_iff
  have hordered : Named.Ordered (ofList parameter algorithms).entries :=
    ordered_foldl_register Named.ordered_nil algorithms
  have hparameter : (ofList parameter algorithms).parameter = parameter :=
    parameter_foldl_register algorithms (empty parameter)
  refine ⟨fun id => ?_, hlisted, fun id => ?_, fun id a => ?_, fun b hb => ?_,
    hordered.pairwise_names, fun id e => ?_⟩
  · simp only [find_eq_ok_iff]
    exact Option.isSome_iff_exists.symm
  · rw [← hlisted, contains, Named.contains, Option.isSome_iff_ne_none, ne_eq, hnone]
    simp
  · rw [find_eq_ok_iff, hget, head?_candidates_eq_some_iff]
  · simp [ofList, List.foldl_append, register, hb]
  · rw [find_eq_error_iff, hnone, hparameter]

/-- An algorithm that comes in revisions, not all of which are in a build. -/
structure Revision where
  id : String
  number : Nat
  isBuilt : Bool

instance : Algorithm Revision :=
  ⟨Revision.id, fun _ => .symmetric, fun _ => "oct", Revision.isBuilt⟩

def revisions : List Revision := [⟨"B", 1, true⟩, ⟨"A", 1, true⟩, ⟨"B", 2, true⟩]

/-- The third revision is not in the build, so the second is found. -/
theorem lookup_finds_last_available_revised :
    (ofList "alg" revisions).find "B" = .ok ⟨"B", 2, true⟩ ∧
      Algorithm.isAvailable (⟨"B", 3, false⟩ : Revision) = false ∧
      ofList "alg" (revisions ++ [⟨"B", 3, false⟩]) = ofList "alg" revisions ∧
      "C" ∉ (ofList "alg" revisions).supported := by
  obtain ⟨-, -, hlisted, hfound, hleftOut, -, -⟩ :=
    lookup_finds_last_available "alg" revisions
  refine ⟨(hfound "B" _).mpr ⟨[⟨"B", 1, true⟩, ⟨"A", 1, true⟩], [], rfl, ⟨rfl, rfl⟩,
    by simp⟩, rfl, hleftOut _ rfl, fun hC => ?_⟩
  obtain ⟨a, ha, -, hid⟩ := (hlisted "C").mp hC
  have hnone : ∀ a ∈ revisions, a.id ≠ "C" := by decide
  exact hnone a ha hid

end Jose.Registry
