import Jose.Proofs.Json.Real
import Jose.Proofs.Json.String
import Jose.Proofs.Named

/-! What a value has to be so that it can be written and read again: its numbers are in
range, the names in its objects ascend, and it is not nested too deep. -/
namespace Jose.Json.Value

/-- Numbers in range, and ascending names in every object. -/
inductive WellFormed : Value → Prop where
  | null : WellFormed .null
  | bool (b : Bool) : WellFormed (.bool b)
  | number {n : Number} (h : n.InRange) : WellFormed (.number n)
  | string (s : String) : WellFormed (.string s)
  | array {items : List Value} (h : ∀ v ∈ items, WellFormed v) : WellFormed (.array items)
  | object {members : Members} (ordered : Named.Ordered members)
    (h : ∀ m ∈ members, WellFormed m.2) : WellFormed (.object members)

theorem wellFormed_empty : (Value.object []).WellFormed :=
  .object Named.ordered_nil fun _ hm => absurd hm List.not_mem_nil

theorem WellFormed.insert {members : Members} (h : (Value.object members).WellFormed)
    (name : String) {value : Value}
    (hvalue : value.WellFormed) : (Value.object (members.insert name value)).WellFormed := by
  cases h with
  | object hordered hmembers =>
    refine .object (hordered.insert name value) fun m hm => ?_
    rcases Named.eq_or_mem_of_mem_insert hm with rfl | hm
    · exact hvalue
    · exact hmembers m hm

theorem WellFormed.erase {members : Members} (h : (Value.object members).WellFormed)
    (name : String) : (Value.object (members.erase name)).WellFormed := by
  cases h with
  | object hordered hmembers =>
    exact .object (hordered.erase name) fun m hm =>
      hmembers m ((Named.sublist_erase name _).subset hm)

theorem wellFormed_strings (items : List String) : (strings items).WellFormed := by
  refine .array fun v hv => ?_
  obtain ⟨s, -, rfl⟩ := List.mem_map.mp hv
  exact .string s

/-- Every number is an integer. -/
inductive Integral : Value → Prop where
  | null : Integral .null
  | bool (b : Bool) : Integral (.bool b)
  | integer (i : Int) : Integral (.integer i)
  | string (s : String) : Integral (.string s)
  | array {items : List Value} (h : ∀ v ∈ items, Integral v) : Integral (.array items)
  | object {members : Members} (h : ∀ m ∈ members, Integral m.2) : Integral (.object members)

theorem integral_strings (items : List String) : (strings items).Integral := by
  refine .array fun v hv => ?_
  obtain ⟨s, -, rfl⟩ := List.mem_map.mp hv
  exact .string s

/-! ## Nesting -/

mutual

/-- How many lists and objects are open at once. -/
def depth : Value → Nat
  | .null | .bool _ | .number _ | .string _ => 0
  | .array items => itemsDepth items + 1
  | .object members => membersDepth members + 1

def itemsDepth : List Value → Nat
  | [] => 0
  | v :: vs => max v.depth (itemsDepth vs)

def memberDepth : String × Value → Nat
  | (_, v) => v.depth

def membersDepth : List (String × Value) → Nat
  | [] => 0
  | m :: ms => max (memberDepth m) (membersDepth ms)

end

/-! ## Other numbers in the same places -/

mutual

def mapNumbers (f : Number → Number) : Value → Value
  | .null => .null
  | .bool b => .bool b
  | .number n => .number (f n)
  | .string s => .string s
  | .array items => .array (mapItems f items)
  | .object members => .object (mapMembers f members)

def mapItems (f : Number → Number) : List Value → List Value
  | [] => []
  | v :: vs => v.mapNumbers f :: mapItems f vs

def mapMember (f : Number → Number) : String × Value → String × Value
  | (name, v) => (name, v.mapNumbers f)

def mapMembers (f : Number → Number) : List (String × Value) → List (String × Value)
  | [] => []
  | m :: ms => mapMember f m :: mapMembers f ms

end

variable {f : Number → Number}

theorem get?_mapMembers (name : String) (members : Members) :
    Named.get? name (mapMembers f members) =
      (Named.get? name members).map (mapNumbers f) := by
  induction members with
  | nil => rfl
  | cons m ms ih =>
    obtain ⟨k, v⟩ := m
    rw [mapMembers, mapMember, Named.get?_cons, Named.get?_cons, ih]
    split <;> rfl

theorem ordered_mapMembers {members : Members} (h : Named.Ordered members) :
    Named.Ordered (mapMembers f members) := by
  have hnames : ∀ (ms : Members), ∀ m' ∈ mapMembers f ms, ∃ m ∈ ms, m'.1 = m.1 := by
    intro ms
    induction ms with
    | nil => exact fun m' h => absurd h List.not_mem_nil
    | cons m ms ih =>
      intro m' hm'
      rcases List.mem_cons.mp hm' with rfl | hm'
      · exact ⟨m, List.mem_cons_self, by cases m; rfl⟩
      · obtain ⟨m₀, hm₀, heq⟩ := ih m' hm'
        exact ⟨m₀, List.mem_cons_of_mem _ hm₀, heq⟩
  induction members with
  | nil => exact Named.ordered_nil
  | cons m ms ih =>
    obtain ⟨k, v⟩ := m
    obtain ⟨hhead, htail⟩ := Named.ordered_cons.mp h
    refine Named.ordered_cons.mpr ⟨fun m' hm' => ?_, ih htail⟩
    obtain ⟨m, hm, heq⟩ := hnames ms m' hm'
    rw [heq]
    exact hhead m hm

theorem mapItems_eq_self {items : List Value} (h : ∀ v ∈ items, v.mapNumbers f = v) :
    mapItems f items = items := by
  induction items with
  | nil => rfl
  | cons v vs ih =>
    obtain ⟨hv, hvs⟩ := List.forall_mem_cons.mp h
    rw [mapItems, hv, ih hvs]

theorem mapMembers_eq_self {members : Members} (h : ∀ m ∈ members, m.2.mapNumbers f = m.2) :
    mapMembers f members = members := by
  induction members with
  | nil => rfl
  | cons m ms ih =>
    obtain ⟨k, v⟩ := m
    obtain ⟨hv, hvs⟩ := List.forall_mem_cons.mp h
    rw [mapMembers, mapMember, hv, ih hvs]

theorem mapNumbers_strings (names : List String) :
    (strings names).mapNumbers f = strings names := by
  rw [strings, mapNumbers, mapItems_eq_self]
  intro v hv
  obtain ⟨name, -, rfl⟩ := List.mem_map.mp hv
  rfl

/-- Integers are read as they were written, and so is what holds no other numbers. -/
theorem WellFormed.mapNumbers_reread {v : Value} (h : v.WellFormed) (hi : v.Integral) :
    v.mapNumbers Number.reread = v := by
  induction h with
  | null => rfl
  | bool b => rfl
  | string s => rfl
  | number hn =>
    cases hi with
    | integer i => exact congrArg Value.number (reread_integer hn)
  | array _ ih =>
    cases hi with
    | array hitems => rw [mapNumbers, mapItems_eq_self fun v hv => ih v hv (hitems v hv)]
  | object _ _ ih =>
    cases hi with
    | object hmembers =>
      rw [mapNumbers, mapMembers_eq_self fun m hm => ih m hm (hmembers m hm)]

end Jose.Json.Value
