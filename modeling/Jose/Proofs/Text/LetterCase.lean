import Jose.Text.Charset
import Mathlib.Data.List.Basic

/-! Texts that differ in the case of ASCII letters at most. Charsets are known by several
labels, in any case. -/
namespace Jose.Text

def EqualIgnoringCase (cs ds : List Char) : Prop := cs.map Char.toLower = ds.map Char.toLower

instance (cs ds : List Char) : Decidable (EqualIgnoringCase cs ds) :=
  inferInstanceAs (Decidable (_ = _))

variable {c d : Char} {cs ds : List Char}

theorem toNat_toLower (c : Char) :
    c.toLower.toNat = if 65 ≤ c.toNat ∧ c.toNat ≤ 90 then c.toNat + 32 else c.toNat := by
  have hcapital : c.val ≥ 'A'.val ∧ c.val ≤ 'Z'.val ↔ 65 ≤ c.toNat ∧ c.toNat ≤ 90 := Iff.rfl
  delta Char.toLower
  split
  · next h =>
    have hshift : ('a'.val - 'A'.val).toNat = 32 := by decide
    have hcode : 65 ≤ c.val.toNat ∧ c.val.toNat ≤ 90 := hcapital.mp h
    rw [if_pos (hcapital.mp h)]
    show (c.val + ('a'.val - 'A'.val)).toNat = c.val.toNat + 32
    rw [UInt32.toNat_add, hshift]
    omega
  · next h => rw [if_neg (mt hcapital.mpr h)]

theorem toNat_toUpper (c : Char) :
    c.toUpper.toNat = if 97 ≤ c.toNat ∧ c.toNat ≤ 122 then c.toNat - 32 else c.toNat := by
  have hsmall : 'a'.val ≤ c.val ∧ c.val ≤ 'z'.val ↔ 97 ≤ c.toNat ∧ c.toNat ≤ 122 := Iff.rfl
  delta Char.toUpper
  split
  · next h =>
    have hshift : ('A'.val - 'a'.val).toNat = 2 ^ 32 - 32 := by decide
    have hcode : 97 ≤ c.val.toNat ∧ c.val.toNat ≤ 122 := hsmall.mp h
    rw [if_pos (hsmall.mp h)]
    show (c.val + ('A'.val - 'a'.val)).toNat = c.val.toNat - 32
    rw [UInt32.toNat_add, hshift]
    omega
  · next h => rw [if_neg (mt hsmall.mpr h)]

theorem toList_toLower (s : String) : s.toLower.toList = s.toList.map Char.toLower :=
  String.toList_map

theorem toList_toUpper (s : String) : s.toUpper.toList = s.toList.map Char.toUpper :=
  String.toList_map

theorem toLower_eq_iff_toList {s t : String} :
    s.toLower = t ↔ s.toList.map Char.toLower = t.toList := by
  rw [← String.toList_inj, toList_toLower]

/-- Both cases leave the same letters together. -/
theorem toUpper_eq_iff_toLower : c.toUpper = d.toUpper ↔ c.toLower = d.toLower := by
  rw [← Char.toNat_inj, ← Char.toNat_inj, toNat_toUpper, toNat_toUpper, toNat_toLower,
    toNat_toLower]
  split <;> split <;> split <;> split <;> omega

theorem map_toUpper_eq_iff :
    cs.map Char.toUpper = ds.map Char.toUpper ↔ EqualIgnoringCase cs ds := by
  rw [EqualIgnoringCase]
  induction cs generalizing ds with
  | nil => simp
  | cons c cs ih =>
    cases ds with
    | nil => simp
    | cons d ds => simp [ih, toUpper_eq_iff_toLower]

/-- A character that is no letter is the small letter of itself only. -/
theorem toLower_eq_iff
    (hd : ¬(65 ≤ d.toNat ∧ d.toNat ≤ 90) ∧ ¬(97 ≤ d.toNat ∧ d.toNat ≤ 122)) :
    c.toLower = d ↔ c = d := by
  rw [← Char.toNat_inj, ← Char.toNat_inj, toNat_toLower]
  split <;> omega

theorem toLower_toLower (c : Char) : c.toLower.toLower = c.toLower := by
  rw [← Char.toNat_inj, toNat_toLower, toNat_toLower]
  by_cases h : 65 ≤ c.toNat ∧ c.toNat ≤ 90
  · rw [if_pos h, if_neg (by omega)]
  · rw [if_neg h, if_neg h]

theorem map_toLower_map_toLower (cs : List Char) :
    (cs.map Char.toLower).map Char.toLower = cs.map Char.toLower := by
  rw [List.map_map]
  exact List.map_congr_left fun c _ => toLower_toLower c

theorem toLower_ofList (cs : List Char) :
    (String.ofList cs).toLower = String.ofList (cs.map Char.toLower) := by
  rw [toLower_eq_iff_toList, String.toList_ofList, String.toList_ofList]

namespace Charset

/-- The name of a charset and its aliases. -/
def labels : Charset → List String
  | .utf8 => ["UTF-8", "UTF8"]
  | .ascii => ["US-ASCII", "ASCII"]
  | .latin1 => ["ISO-8859-1", "LATIN1", "ISO8859-1"]

/-- Labels match in any case. -/
def IsKnownAs (charset : Charset) (label : List Char) : Prop :=
  ∃ known ∈ charset.labels, EqualIgnoringCase label known.toList

theorem mem_labels_iff {label : String} {charset : Charset} :
    label.toUpper ∈ charset.labels ↔ charset.IsKnownAs label.toList := by
  have hupper : ∀ known ∈ charset.labels, known.toList.map Char.toUpper = known.toList := by
    cases charset <;> decide
  have hmatch : ∀ known ∈ charset.labels, known = label.toUpper ↔
      EqualIgnoringCase label.toList known.toList := by
    intro known hknown
    rw [← map_toUpper_eq_iff, hupper known hknown, ← String.toList_inj,
      toList_toUpper, eq_comm]
  constructor
  · intro hmem
    exact ⟨_, hmem, (hmatch _ hmem).mp rfl⟩
  · rintro ⟨known, hknown, hequal⟩
    exact (hmatch known hknown).mpr hequal ▸ hknown

theorem ofName?_eq_some_iff {label : String} {charset : Charset} :
    ofName? label = some charset ↔ charset.IsKnownAs label.toList := by
  rw [← mem_labels_iff, ofName?]
  split
  all_goals cases charset <;> simp_all [labels]

theorem ofName?_toLower (label : String) : ofName? label.toLower = ofName? label := by
  refine Option.ext fun charset => ?_
  rw [ofName?_eq_some_iff, ofName?_eq_some_iff, IsKnownAs, IsKnownAs, toList_toLower]
  simp only [EqualIgnoringCase, map_toLower_map_toLower]

end Charset
end Jose.Text
