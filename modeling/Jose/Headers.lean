import Jose.Error
import Jose.Json.Read
import Jose.Json.Write
import Jose.Text.Base64Url

/-! Header parameters and their encoded form. A header from the wire keeps the text it
came in, because signatures were made over that text; any change of the parameters drops
it. -/
namespace Jose
open Text

structure Headers where
  parameters : Json.Members
  wire : Option String
  deriving Repr

namespace Headers

def empty : Headers := ⟨[], none⟩

def parse (segment : String) : Result Headers := do
  let bytes ← Base64Url.decode segment
  match (Json.parse bytes).mapError fun f => .json f.message with
  | .error e => .error e
  | .ok (.object members) => return ⟨members, some segment⟩
  | .ok other => .error (.json ("JOSE header is not a JSON object: " ++ other.text))

def json (h : Headers) : String := Json.Members.text h.parameters

/-- The header segment: the text from the wire, or else the encoding of the parameters. -/
def encoded (h : Headers) : String :=
  match h.wire with
  | some segment => segment
  | none => Base64Url.encode (Utf8.encode h.json)

def set (name : String) (value : Json.Value) (h : Headers) : Headers :=
  ⟨h.parameters.insert name value, none⟩

/-- To remove what is not there changes nothing. -/
def remove (name : String) (h : Headers) : Headers :=
  if h.parameters.contains name then ⟨h.parameters.erase name, none⟩ else h

def get? (h : Headers) (name : String) : Option Json.Value := h.parameters.get? name

def string? (h : Headers) (name : String) : Option String :=
  h.get? name >>= Json.Value.string?

def contains (h : Headers) (name : String) : Bool := h.parameters.contains name

def criticalEntry (entry : Json.Value) : Result String :=
  match entry.string? with
  | some name => .ok name
  | none =>
    .error (.format ("crit header value contains a non-string entry (" ++ entry.text ++ ")."))

/-- The names of the extensions that must be understood, if the header lists any. -/
def critical (h : Headers) : Result (Option (List String)) :=
  match h.get? "crit" with
  | none => .ok none
  | some (.array entries) => some <$> entries.mapM criticalEntry
  | some other => .error (.format ("crit header value not an array (" ++ other.text ++ ")."))

end Headers
end Jose
