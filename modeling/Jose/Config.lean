import Jose.Json.Decode

/-! The two switches that weaken the processing of signed envelopes. Both are off unless
they are set. -/
namespace Jose

structure Config where
  /-- Without explicit constraints, the unsecured algorithm is allowed. -/
  allowNone : Bool
  /-- A payload is handed out without verification. -/
  skipVerification : Bool
  deriving DecidableEq, Repr

namespace Config

def secure : Config := ⟨false, false⟩

def fieldNames : List String := ["allow_none_algorithm", "skip_payload_verification_on_read"]

def read (bs : Bytes) : Json.Step (Config × Bytes) :=
  (fun (flags, rest) => (⟨flags.getD 0 false, flags.getD 1 false⟩, rest)) <$>
    Json.readFlags "struct JoseConfig" fieldNames bs

/-- The fields stand in the order of their declaration. -/
def text (c : Config) : String :=
  String.ofList (Json.writeValue
    (.object (fieldNames.zip [.bool c.allowNone, .bool c.skipVerification])))

end Config
end Jose
