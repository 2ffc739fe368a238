import Jose.Algorithm.Constraints
import Jose.Algorithm.KeyManagement
import Jose.Algorithm.Signature
import Jose.Proofs.Named

/-! A registry finds the available algorithm that was registered last under an identifier.
Each of the three registries holds all of its algorithms, under identifiers of their
own. -/
namespace Jose

namespace Registry
variable {α : Type}

theorem find_eq_ok_iff {r : Registry α} {id : String} {a : α} :
    r.find id = .ok a ↔ r.entries.get? id = some a := by
  rw [find]
  split
  · next a' h => rw [h, Except.ok.injEq, Option.some.injEq]
  · next h => simp [h]

variable [Algorithm α]

/-- The available algorithms of an identifier, the last one first. -/
def candidates (algorithms : List α) (id : String) : List α :=
  (algorithms.filter fun a => Algorithm.isAvailable a && decide (Algorithm.id a = id)).reverse

theorem get?_register (r : Registry α) (a : α) (id : String) :
    (r.register a).entries.get? id =
      if Algorithm.isAvailable a && decide (Algorithm.id a = id) then some a
      else r.entries.get? id := by
  rw [register]
  cases Algorithm.isAvailable a with
  | false => simp
  | true =>
    rw [if_pos rfl, Named.get?_insert]
    simp

theorem get?_foldl_register (algorithms : List α) (r : Registry α) (id : String) :
    (algorithms.foldl register r).entries.get? id =
      (candidates algorithms id).head?.or (r.entries.get? id) := by
  induction algorithms generalizing r with
  | nil => rfl
  | cons a algorithms ih =>
    rw [List.foldl_cons, ih, get?_register, candidates, candidates, List.filter_cons]
    split
    · rw [List.reverse_cons, List.head?_append, Option.or_assoc]
      rfl
    · rfl

theorem get?_ofList (parameter : String) (algorithms : List α) (id : String) :
    (ofList parameter algorithms).entries.get? id = (candidates algorithms id).head? := by
  rw [ofList, get?_foldl_register]
  exact Option.or_none

/-- Under distinct identifiers and without unavailable algorithms, nothing is lost. -/
theorem find_ofList_eq_ok_iff {parameter : String} {algorithms : List α} {id : String} {a : α}
    (hdistinct : ∀ a ∈ algorithms, ∀ b ∈ algorithms, Algorithm.id a = Algorithm.id b → a = b)
    (havailable : ∀ a ∈ algorithms, Algorithm.isAvailable a = true) :
    (ofList parameter algorithms).find id = .ok a ↔ a ∈ algorithms ∧ Algorithm.id a = id := by
  have hmem : ∀ b, b ∈ candidates algorithms id ↔ b ∈ algorithms ∧ Algorithm.id b = id := by
    intro b
    simp only [candidates, List.mem_reverse, List.mem_filter, Bool.and_eq_true,
      decide_eq_true_eq]
    constructor
    · rintro ⟨hb, -, hid⟩
      exact ⟨hb, hid⟩
    · rintro ⟨hb, hid⟩
      exact ⟨hb, havailable b hb, hid⟩
  rw [find_eq_ok_iff, get?_ofList]
  constructor
  · intro h
    exact (hmem a).mp (List.mem_of_head? h)
  · rintro ⟨ha, hid⟩
    cases hc : candidates algorithms id with
    | nil =>
      have hin := (hmem a).mpr ⟨ha, hid⟩
      rw [hc] at hin
      cases hin
    | cons b rest =>
      obtain ⟨hb, hidb⟩ := (hmem b).mp (hc ▸ List.mem_cons_self)
      rw [List.head?_cons, hdistinct b hb a ha (hidb.trans hid.symm)]

end Registry

theorem SignatureAlgorithm.mem_all (a : SignatureAlgorithm) : a ∈ all := by
  cases a with
  | unsecured => decide
  | hmac hash => cases hash <;> decide
  | rsa hash => cases hash <;> decide
  | ecdsa curve => cases curve <;> decide

theorem SignatureAlgorithm.find_eq_ok_iff {id : String} {a : SignatureAlgorithm} :
    registry.find id = .ok a ↔ a.id = id := by
  rw [registry, Registry.find_ofList_eq_ok_iff (by decide) (by decide)]
  exact and_iff_right (mem_all a)

theorem SignatureAlgorithm.id_inj {a b : SignatureAlgorithm} (h : a.id = b.id) : a = b :=
  Except.ok.inj ((find_eq_ok_iff.mpr h).symm.trans (find_eq_ok_iff.mpr rfl))

theorem KeyManagement.find_eq_ok_iff {id : String} {m : KeyManagement} :
    registry.find id = .ok m ↔ m.id = id := by
  have hall : m ∈ all := by
    cases m
    decide
  rw [registry, Registry.find_ofList_eq_ok_iff (by decide) (by decide)]
  exact and_iff_right hall

theorem ContentEncryption.find_eq_ok_iff {id : String} {x : ContentEncryption} :
    registry.find id = .ok x ↔ x.id = id := by
  have hall : x ∈ all := by cases x <;> decide
  rw [registry, Registry.find_ofList_eq_ok_iff (by decide) (by decide)]
  exact and_iff_right hall

theorem ContentEncryption.id_inj {x y : ContentEncryption} (h : x.id = y.id) : x = y :=
  Except.ok.inj ((find_eq_ok_iff.mpr h).symm.trans (find_eq_ok_iff.mpr rfl))

theorem Constraints.check_eq_ok_iff {c : Constraints} {id : String} {u : Unit} :
    c.check id = .ok u ↔ c.allows id = true := by
  rw [check]
  split
  · next h => simp [h]
  · next h => simp [h]

end Jose
