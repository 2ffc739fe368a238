import Jose.Proofs.Headers
import Jose.Proofs.Json.Read
import Jose.Proofs.Json.RoundTrip

/-! Parameters and retained text are two copies of one header. Whatever is set and
removed, the text decodes to the parameters as long as it is retained, and the text that
takes its place decodes to them as well. -/
namespace Jose.Headers
open Text Result Json

/-- The parameters as a JSON value. -/
def value (headers : Headers) : Value := .object headers.parameters

/-- The segment is the encoding of JSON text for an object with these members. -/
def DecodesTo (segment : String) (members : Members) : Prop :=
  ∃ bytes, Base64Url.decode segment = .ok bytes ∧ Json.parse bytes = .ok (.object members)

theorem parse_eq_ok_iff_decodesTo {segment : String} {headers : Headers} :
    parse segment = .ok headers ↔
      DecodesTo segment headers.parameters ∧ headers.wire = some segment := by
  rw [parse_eq_ok_iff]
  constructor
  · rintro ⟨bytes, members, hbytes, hjson, rfl⟩
    exact ⟨⟨bytes, hbytes, hjson⟩, rfl⟩
  · rintro ⟨⟨bytes, hbytes, hjson⟩, hwire⟩
    refine ⟨bytes, headers.parameters, hbytes, hjson, ?_⟩
    rw [← hwire]

/-- The parameters are a value of JSON, and a retained text decodes to them. -/
structure Faithful (headers : Headers) : Prop where
  wellFormed : headers.value.WellFormed
  wire : ∀ segment ∈ headers.wire, DecodesTo segment headers.parameters

theorem faithful_empty : Faithful empty := by
  refine ⟨Value.wellFormed_empty, ?_⟩
  rintro segment ⟨⟩

theorem faithful_of_parse {segment : String} {headers : Headers}
    (h : parse segment = .ok headers) : Faithful headers := by
  obtain ⟨bytes, members, hbytes, hjson, rfl⟩ := parse_eq_ok_iff.mp h
  refine ⟨wellFormed_of_parse hjson, ?_⟩
  rintro _ ⟨⟩
  exact ⟨bytes, hbytes, hjson⟩

theorem Faithful.set {headers : Headers} (h : Faithful headers) (name : String)
    {value : Value} (hvalue : value.WellFormed) : Faithful (headers.set name value) := by
  refine ⟨h.wellFormed.insert name hvalue, ?_⟩
  rintro segment ⟨⟩

theorem Faithful.remove {headers : Headers} (h : Faithful headers) (name : String) :
    Faithful (headers.remove name) := by
  rw [Headers.remove]
  split
  · refine ⟨h.wellFormed.erase name, ?_⟩
    rintro segment ⟨⟩
  · exact h

/-! ## The text of the parameters -/

theorem json_eq_text (headers : Headers) : headers.json = headers.value.text := rfl

theorem encoded_of_wire_none {headers : Headers} (h : headers.wire = none) :
    headers.encoded = Base64Url.encode (Utf8.encode headers.json) := by
  rw [encoded, h]

/-- The text that is made of the parameters decodes to them, but for doubles. -/
theorem Faithful.decodesTo_encoded {headers : Headers} (h : Faithful headers)
    (hnone : headers.wire = none) (hdepth : headers.value.depth ≤ maxDepth) :
    DecodesTo headers.encoded (Value.mapMembers Number.reread headers.parameters) := by
  refine ⟨Utf8.encode headers.json, ?_, ?_⟩
  · rw [encoded_of_wire_none hnone]
    exact Base64Url.decode_encode _
  · rw [json_eq_text, parse_text h.wellFormed hdepth]
    rfl

theorem Faithful.mapMembers_reread {headers : Headers} (h : Faithful headers)
    (hi : headers.value.Integral) :
    Value.mapMembers Number.reread headers.parameters = headers.parameters :=
  Value.object.inj (h.wellFormed.mapNumbers_reread hi)

/-! ## Runs -/

inductive Edit where
  | set (name : String) (value : Value)
  | remove (name : String)
  deriving Repr

namespace Edit

def run : Edit → Headers → Headers
  | set name value, headers => headers.set name value
  | remove name, headers => headers.remove name

/-- To remove what is not there is no change. -/
def changes : Edit → Headers → Bool
  | set _ _, _ => true
  | remove name, headers => headers.contains name

/-- What is set is a value of JSON. -/
def WellFormed : Edit → Prop
  | set _ value => value.WellFormed
  | remove _ => True

end Edit

/-- The headers that edits lead to, each with the text it was read from, if nothing was
changed since. -/
inductive Reached : Option String → Headers → Prop where
  | empty : Reached none empty
  | parse {segment : String} {headers : Headers} (h : parse segment = .ok headers) :
    Reached (some segment) headers
  | edit {origin : Option String} {headers : Headers} (e : Edit) (he : e.WellFormed)
    (h : Reached origin headers) :
    Reached (if e.changes headers then none else origin) (e.run headers)

theorem Faithful.edit {headers : Headers} (h : Faithful headers) {e : Edit}
    (he : e.WellFormed) : Faithful (e.run headers) := by
  cases e with
  | set name value => exact h.set name he
  | remove name => exact h.remove name

theorem wire_edit (e : Edit) (headers : Headers) :
    (e.run headers).wire = if e.changes headers then none else headers.wire := by
  cases e with
  | set name value => rfl
  | remove name =>
    rw [Edit.run, remove, Edit.changes, contains]
    split <;> rfl

theorem faithful_of_reached {origin : Option String} {headers : Headers}
    (h : Reached origin headers) : Faithful headers := by
  induction h with
  | empty => exact faithful_empty
  | parse h => exact faithful_of_parse h
  | edit e he _ ih => exact ih.edit he

theorem wire_of_reached {origin : Option String} {headers : Headers}
    (h : Reached origin headers) : headers.wire = origin := by
  induction h with
  | empty => rfl
  | parse h => exact wire_of_parse h
  | edit e _ _ ih => rw [wire_edit, ih]

/-- A retained text decodes to the parameters as they are, and it is retained, and is the
header segment, as long as nothing was changed since it was read. Otherwise the segment is
the encoding of the parameters, and decodes to them unless there are doubles among them or
they are nested too deep. -/
theorem encoded_decodes_to_parameters {origin : Option String} {headers : Headers}
    (h : Reached origin headers) :
    (∀ segment ∈ headers.wire,
      headers.encoded = segment ∧ DecodesTo segment headers.parameters) ∧
    (∀ segment ∈ origin, headers.wire = some segment ∧ headers.encoded = segment) ∧
    (origin = none → headers.encoded = Base64Url.encode (Utf8.encode headers.json) ∧
      (headers.value.Integral → headers.value.depth ≤ maxDepth →
        DecodesTo headers.encoded headers.parameters)) := by
  have hfaithful := faithful_of_reached h
  have hwire := wire_of_reached h
  have hencoded : ∀ segment ∈ headers.wire, headers.encoded = segment := by
    intro segment hsegment
    rw [encoded, Option.mem_def.mp hsegment]
  refine ⟨fun segment hsegment =>
    ⟨hencoded segment hsegment, hfaithful.wire segment hsegment⟩,
    fun segment hsegment => ?_, fun hnone => ?_⟩
  · rw [Option.mem_def.mp hsegment] at hwire
    exact ⟨hwire, hencoded segment hwire⟩
  · rw [hnone] at hwire
    refine ⟨encoded_of_wire_none hwire, fun hi hdepth => ?_⟩
    have hdecodes := hfaithful.decodesTo_encoded hwire hdepth
    rwa [hfaithful.mapMembers_reread hi] at hdecodes

theorem encoded_decodes_to_parameters_unsecured :
    Reached none (empty.set "alg" (.string "none")) ∧
      (empty.set "alg" (.string "none")).encoded = "eyJhbGciOiJub25lIn0" ∧
      DecodesTo "eyJhbGciOiJub25lIn0" [("alg", .string "none")] ∧
      Reached (some "eyJhbGciOiJub25lIn0")
        ⟨[("alg", .string "none")], some "eyJhbGciOiJub25lIn0"⟩ := by
  have hset : Reached none (empty.set "alg" (.string "none")) :=
    .edit (.set "alg" (.string "none")) (.string "none") .empty
  have hintegral : (empty.set "alg" (.string "none")).value.Integral :=
    .object (List.forall_mem_singleton.mpr (.string "none"))
  have hencoded : (empty.set "alg" (.string "none")).encoded = "eyJhbGciOiJub25lIn0" := by
    decide +kernel
  have hdecodes := ((encoded_decodes_to_parameters hset).2.2 rfl).2 hintegral (by decide)
  rw [hencoded] at hdecodes
  exact ⟨hset, hencoded, hdecodes, .parse (parse_eq_ok_iff_decodesTo.mpr ⟨hdecodes, rfl⟩)⟩

end Jose.Headers
