import Jose.Envelope
import Jose.Proofs.Headers

/-! What the checks that signed and encrypted envelopes share let pass. -/
namespace Jose
open Result

/-- Nothing is marked as critical, or a list of names that are all known. -/
def Headers.CriticalKnown (known : List String) (headers : Headers) : Prop :=
  headers.get? "crit" = none ∨
    ∃ names, headers.get? "crit" = some (.strings names) ∧ ∀ name ∈ names, name ∈ known

/-- What a receiver sets in an envelope that it read: a key, and a policy. -/
structure Terms where
  key : Option Key
  constraints : Constraints
  validatesKeys : Bool
  knownCritical : List String

/-- A shared key of one byte over and over, and no policy. -/
def Terms.sharing (byte : UInt8) : Terms :=
  ⟨some (.symmetric (List.replicate 32 byte)), .unrestricted, true, []⟩

namespace Envelope

theorem algorithmId_eq_ok_iff {e : Envelope} {id : String} :
    e.algorithmId = .ok id ↔ e.headers.string? "alg" = some id := by
  rw [algorithmId, Headers.string?]
  cases e.headers.get? "alg" with
  | none => simp
  | some value => cases h : value.string? <;> simp [h]

theorem checkCritical_eq_ok_iff {e : Envelope} {u : Unit} :
    e.checkCritical = .ok u ↔ e.headers.CriticalKnown e.knownCritical := by
  have hunknown : ∀ names, e.unknownCritical? names = none ↔
      ∀ name ∈ names, name ∈ e.knownCritical := by
    intro names
    simp [unknownCritical?]
  unfold checkCritical
  simp only [bind_eq_ok_iff, Headers.critical_eq_ok_iff]
  constructor
  · rintro ⟨names?, hnames, h⟩
    cases names? with
    | none => exact .inl hnames
    | some names =>
      cases hfirst : e.unknownCritical? names with
      | none => exact .inr ⟨names, hnames, (hunknown names).mp hfirst⟩
      | some name =>
        simp only [hfirst] at h
        cases h
  · rintro (hnone | ⟨names, hnames, hknown⟩)
    · exact ⟨none, hnone, rfl⟩
    · refine ⟨some names, hnames, ?_⟩
      simp only [(hunknown names).mpr hknown]
      rfl

theorem validateKey_eq_ok_iff {e : Envelope} {check : Option Key → Result Unit} :
    e.validateKey check = .ok () ↔ (e.validatesKeys = true → check e.key = .ok ()) := by
  rw [validateKey]
  cases e.validatesKeys <;> simp

end Envelope
end Jose
