import Jose.Proofs.Envelope
import Jose.Proofs.Headers.Wire
import Jose.Proofs.Json.Depth

/-! A header segment is read by the receiver as a header with the same texts, which says
what the sender's header says, but for doubles. -/
namespace Jose.Headers
open Text Json

/-- The header that is read from the segment of another. -/
structure Rereads (headers headers' : Headers) : Prop where
  parse : parse headers.encoded = .ok headers'
  string? : ∀ name, headers'.string? name = headers.string? name
  critical : ∀ known, headers.CriticalKnown known → headers'.CriticalKnown known
  parameters : headers.value.Integral → headers'.parameters = headers.parameters

theorem Rereads.encoded {headers headers' : Headers} (h : Rereads headers headers') :
    headers'.encoded = headers.encoded := encoded_of_parse h.parse

theorem string?_mapNumbers (f : Number → Number) (v : Value) :
    (v.mapNumbers f).string? = v.string? := by
  cases v <;> rfl

theorem string?_mapMembers (f : Number → Number) (headers : Headers) (wire : Option String)
    (name : String) :
    string? ⟨Value.mapMembers f headers.parameters, wire⟩ name = headers.string? name := by
  rw [string?, string?, get?, get?, Value.get?_mapMembers]
  cases headers.parameters.get? name with
  | none => rfl
  | some v => exact string?_mapNumbers f v

theorem criticalKnown_mapMembers (f : Number → Number) {headers : Headers}
    (wire : Option String) {known : List String} (h : headers.CriticalKnown known) :
    CriticalKnown known ⟨Value.mapMembers f headers.parameters, wire⟩ := by
  rw [CriticalKnown, get?, Value.get?_mapMembers]
  rcases h with hnone | ⟨names, hnames, hknown⟩
  · rw [get?] at hnone
    exact .inl (by rw [hnone]; rfl)
  · rw [get?] at hnames
    exact .inr ⟨names, by rw [hnames, Option.map_some, Value.mapNumbers_strings], hknown⟩

theorem Faithful.exists_rereads {headers : Headers} (h : Faithful headers)
    (hdepth : headers.value.depth ≤ maxDepth) : ∃ headers', Rereads headers headers' := by
  cases hwire : headers.wire with
  | some segment =>
    have hencoded : headers.encoded = segment := by rw [encoded, hwire]
    refine ⟨headers, ?_, fun _ => rfl, fun _ => id, fun _ => rfl⟩
    rw [hencoded]
    exact parse_eq_ok_iff_decodesTo.mpr ⟨h.wire segment hwire, hwire⟩
  | none =>
    exact ⟨⟨Value.mapMembers Number.reread headers.parameters, some headers.encoded⟩,
      parse_eq_ok_iff_decodesTo.mpr ⟨h.decodesTo_encoded hwire hdepth, rfl⟩,
      string?_mapMembers _ headers _, fun _ => criticalKnown_mapMembers _ _,
        h.mapMembers_reread⟩

/-- The text of an object has its braces at least. -/
theorem isEmpty_encoded_of_wire_none {headers : Headers} (hnone : headers.wire = none) :
    headers.encoded.isEmpty = false := by
  have hjson : 0 < headers.json.length := by
    rw [json_eq_text, Value.text, value, writeValue_object, String.length_ofList]
    exact Nat.succ_pos _
  rw [encoded_of_wire_none hnone]
  exact Base64Url.isEmpty_encode (Nat.lt_of_lt_of_le hjson (Utf8.length_le_encode _))

theorem Faithful.isEmpty_encoded {headers : Headers} (h : Faithful headers) :
    headers.encoded.isEmpty = false := by
  cases hwire : headers.wire with
  | some segment =>
    rw [encoded, hwire]
    exact isEmpty_of_parse (parse_eq_ok_iff_decodesTo.mpr ⟨h.wire segment hwire, hwire⟩)
  | none => exact isEmpty_encoded_of_wire_none hwire

/-- No header segment is read whose parameters are nested too deep. -/
theorem Faithful.depth_le_of_parse {headers headers' : Headers} (h : Faithful headers)
    (hparse : parse headers.encoded = .ok headers') : headers.value.depth ≤ maxDepth := by
  cases hwire : headers.wire with
  | some segment =>
    obtain ⟨bytes, -, hjson⟩ := h.wire segment hwire
    exact Json.depth_le_of_parse hjson
  | none =>
    obtain ⟨⟨bytes, hbytes, hjson⟩, -⟩ := parse_eq_ok_iff_decodesTo.mp hparse
    rw [encoded_of_wire_none hwire, Base64Url.decode_encode] at hbytes
    cases hbytes
    exact (exists_parse_text_iff h.wellFormed).mp ⟨_, hjson⟩

theorem Faithful.wireEncoded {headers : Headers} (h : Faithful headers) :
    headers.WireEncoded := by
  intro segment hsegment
  obtain ⟨bytes, hbytes, -⟩ := h.wire segment hsegment
  exact ⟨bytes, Base64Url.decode_eq_ok_iff_eq_encode.mp hbytes⟩

end Jose.Headers
