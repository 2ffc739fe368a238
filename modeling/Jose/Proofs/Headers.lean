import Jose.Headers
import Jose.Proofs.Result
import Jose.Proofs.Text.Base64Url

/-! A header segment, whether it came from the wire or is made from the parameters, is one
segment of the compact layout. -/
namespace Jose.Headers
open Text Result

theorem parse_eq_ok_iff {segment : String} {headers : Headers} :
    parse segment = .ok headers ↔ ∃ bytes members, Base64Url.decode segment = .ok bytes ∧
      Json.parse bytes = .ok (.object members) ∧ headers = ⟨members, some segment⟩ := by
  unfold parse
  simp only [bind_eq_ok_iff]
  constructor
  · rintro ⟨bytes, hbytes, h⟩
    split at h
    · cases h
    · next members hjson =>
      cases h
      exact ⟨bytes, members, hbytes, mapError_eq_ok_iff.mp hjson, rfl⟩
    · cases h
  · rintro ⟨bytes, members, hbytes, hjson, rfl⟩
    refine ⟨bytes, hbytes, ?_⟩
    rw [mapError_eq_ok_iff.mpr hjson]
    rfl

theorem wire_of_parse {segment : String} {headers : Headers}
    (h : parse segment = .ok headers) : headers.wire = some segment := by
  obtain ⟨-, -, -, -, rfl⟩ := parse_eq_ok_iff.mp h
  rfl

theorem encoded_of_parse {segment : String} {headers : Headers}
    (h : parse segment = .ok headers) : headers.encoded = segment := by
  rw [encoded, wire_of_parse h]

/-- No text at all is no JSON. -/
theorem isEmpty_of_parse {segment : String} {headers : Headers}
    (h : parse segment = .ok headers) : segment.isEmpty = false := by
  rw [← Bool.not_eq_true, String.isEmpty_iff]
  rintro rfl
  cases h

theorem string?_eq_some_iff {headers : Headers} {name text : String} :
    headers.string? name = some text ↔ headers.get? name = some (.string text) := by
  rw [string?]
  cases headers.get? name with
  | none => simp
  | some value => cases value <;> simp [Json.Value.string?]

theorem criticalEntry_eq_ok_iff {entry : Json.Value} {name : String} :
    criticalEntry entry = .ok name ↔ entry = .string name := by
  cases entry <;> simp [criticalEntry, Json.Value.string?]

/-- There are either no critical names, or a list of strings. -/
theorem critical_eq_ok_iff {headers : Headers} {names? : Option (List String)} :
    headers.critical = .ok names? ↔ headers.get? "crit" = names?.map Json.Value.strings := by
  rw [critical]
  split
  · next h => cases names? <;> simp [h]
  · next entries h =>
    rw [map_eq_ok_iff, h]
    simp only [mapM_eq_ok_iff_eq_map fun _ _ => criticalEntry_eq_ok_iff]
    cases names? with
    | none => simp
    | some names => simp [Json.Value.strings]
  · next other hother h =>
    rw [h]
    cases names? with
    | none => simp
    | some names =>
      simp only [reduceCtorEq, Option.map_some, Option.some.injEq, false_iff]
      exact fun heq => hother _ heq

/-- The retained text, if there is one, is an encoding. -/
def WireEncoded (headers : Headers) : Prop :=
  ∀ segment ∈ headers.wire, ∃ bytes, segment = Base64Url.encode bytes

theorem wireEncoded_parse {segment : String} {headers : Headers}
    (h : parse segment = .ok headers) : headers.WireEncoded := by
  obtain ⟨bytes, -, hbytes, -, rfl⟩ := parse_eq_ok_iff.mp h
  rintro _ ⟨⟩
  exact ⟨bytes, Base64Url.decode_eq_ok_iff_eq_encode.mp hbytes⟩

theorem WireEncoded.exists_encoded_eq {headers : Headers} (h : headers.WireEncoded) :
    ∃ bytes, headers.encoded = Base64Url.encode bytes := by
  rw [encoded]
  split
  · next segment hwire => exact h segment hwire
  · exact ⟨_, rfl⟩

end Jose.Headers
