import Jose.Json.Skip
import Jose.Json.Write
import Jose.Text.Quoted

/-! Reading JSON that must have a given shape. What is found instead is read as a value of
its own, so that the message can show it, except that a list or an object is not
entered. -/
namespace Jose.Json
open Jose.Text

def Number.found : Number → String
  | .integer i => s!"integer `{i}`"
  | .real x => "floating point `" ++ String.ofList (writeReal x) ++ "`"

def mismatch (found expected : String) (rest : Bytes) : Stop :=
  .here (.shape ("invalid type: " ++ found ++ ", expected " ++ expected)) rest

/-- The stop at a value of another type than the one expected. -/
def refuse (expected : String) (b : UInt8) (rest : Bytes) : Stop :=
  let orFault {α : Type} (found : α → String) : Step (α × Bytes) → Stop
    | .ok (a, rest) => mismatch (found a) expected rest
    | .error stop => stop
  let word (letters found : String) :=
    orFault (fun _ => found) ((fun rest => ((), rest)) <$> expectWord letters.toList rest)
  match Char.ofUInt8 b with
  | 'n' => word "ull" "null"
  | 't' => word "rue" "boolean `true`"
  | 'f' => word "alse" "boolean `false`"
  | '-' => orFault Number.found (readNumber true rest)
  | '"' => orFault (fun s => "string " ++ quoted s) (readString [] (rest.length + 1) rest)
  | '[' => mismatch "sequence" expected (b :: rest)
  | '\x7b' => mismatch "map" expected (b :: rest)
  | _ =>
    if (digit? b).isSome then orFault Number.found (readNumber false (b :: rest))
    else .onNext .expectedValue (b :: rest)

def readUnit (bs : Bytes) : Step Bytes :=
  match skipBlanks bs with
  | [] => .error (.onNext .endInValue [])
  | b :: rest =>
    if Char.ofUInt8 b = 'n' then expectWord "ull".toList rest
    else .error (refuse "unit" b rest)

def readBool (bs : Bytes) : Step (Bool × Bytes) :=
  match skipBlanks bs with
  | [] => .error (.onNext .endInValue [])
  | b :: rest =>
    match Char.ofUInt8 b with
    | 't' => (fun rest => (true, rest)) <$> expectWord "rue".toList rest
    | 'f' => (fun rest => (false, rest)) <$> expectWord "alse".toList rest
    | _ => .error (refuse "a boolean" b rest)

def int64Max : Int := 0x7fffffffffffffff

def readInt64 (bs : Bytes) : Step (Int × Bytes) :=
  let checked : Step (Number × Bytes) → Step (Int × Bytes)
    | .ok (.integer i, rest) =>
      if i ≤ int64Max then .ok (i, rest)
      else .error (.here (.shape s!"invalid value: integer `{i}`, expected i64") rest)
    | .ok (.real x, rest) => .error (mismatch (Number.real x).found "i64" rest)
    | .error stop => .error stop
  match skipBlanks bs with
  | [] => .error (.onNext .endInValue [])
  | b :: rest =>
    if Char.ofUInt8 b = '-' then checked (readNumber true rest)
    else if (digit? b).isSome then checked (readNumber false (b :: rest))
    else .error (refuse "i64" b rest)

def readMembers (bs : Bytes) : Step (Members × Bytes) :=
  match skipBlanks bs with
  | [] => .error (.onNext .endInValue [])
  | b :: rest =>
    if Char.ofUInt8 b = '\x7b' then
      (fun (pairs, rest) => (Named.ofList pairs, rest)) <$>
        readPairs (maxDepth - 1) true (enoughFuel bs) rest
    else .error (refuse "a map" b rest)

def unknownVariant (name : String) (variants : List String) : Reason :=
  .shape (s!"unknown variant `{name}`, expected one of " ++
    ", ".intercalate (variants.map fun v => s!"`{v}`"))

/-- The name of one of the variants. -/
def readVariantName (variants : List String) (bs : Bytes) : Step (String × Bytes) :=
  match skipBlanks bs with
  | [] => .error (.onNext .endInValue [])
  | b :: rest =>
    if Char.ofUInt8 b = '"' then do
      let (name, rest) ← readString [] (rest.length + 1) rest
      if name ∈ variants then return (name, rest)
      else .error (.here (unknownVariant name variants) rest)
    else .error (refuse "variant identifier" b rest)

/-- A variant is its name, or an object with that name as the only member and the value
null. -/
def readVariant (variants : List String) (bs : Bytes) : Step (String × Bytes) :=
  match skipBlanks bs with
  | [] => .error (.onNext .endInValue [])
  | b :: rest =>
    match Char.ofUInt8 b with
    | '"' => readVariantName variants (b :: rest)
    | '\x7b' => do
      let (name, rest) ← readVariantName variants rest
      let rest ← readUnit (← expectColon rest)
      match skipBlanks rest with
      | [] => .error (.here .endInObject [])
      | c :: tail =>
        if Char.ofUInt8 c = '\x7d' then return (name, tail)
        else .error (.here .expectedValue (c :: tail))
    | _ => .error (.onNext .expectedValue (b :: rest))

/-- The flags of a record that have been read. -/
abbrev Flags := List (String × Option Bool)

def Flags.set (name : String) (value : Bool) (flags : Flags) : Flags :=
  flags.map fun (n, v) => if n = name then (n, some value) else (n, v)

/-- Where the search for the end of an object comes to rest. -/
def passObjectEnd (bs : Bytes) : Bytes :=
  match skipBlanks bs with
  | [] => []
  | b :: rest => if Char.ofUInt8 b = '\x7d' then rest else b :: rest

def readFlagMembers (first : Bool) (flags : Flags) :
    (fuel : Nat) → Bytes → Step (Flags × Bytes)
  | 0, bs => .error (.here .tooDeep bs)
  | fuel + 1, bs => do
    match ← nextName first bs with
    | .last rest => return (flags, rest)
    | .more rest =>
      let (name, rest) ← readString [] (fuel + 1) rest
      match flags.lookup name with
      | none =>
        let rest ← skipValue fuel (← expectColon rest)
        readFlagMembers false flags fuel rest
      | some none =>
        let (value, rest) ← readBool (← expectColon rest)
        readFlagMembers false (flags.set name value) fuel rest
      | some (some _) =>
        .error (.here (.shape s!"duplicate field `{name}`") (passObjectEnd rest))

def expectListEnd (bs : Bytes) : Step Bytes :=
  match skipBlanks bs with
  | [] => .error (.onNext .endInList [])
  | b :: rest =>
    match Char.ofUInt8 b with
    | ']' => .ok rest
    | ',' =>
      match skipBlanks rest with
      | [] => .error (.onNext .trailingCharacters [])
      | c :: tail =>
        if Char.ofUInt8 c = ']' then .error (.onNext .trailingComma (c :: tail))
        else .error (.onNext .trailingCharacters (c :: tail))
    | _ => .error (.onNext .trailingCharacters (b :: rest))

/-- Flags in the order of their names; those that the list is too short for stay unread. -/
def readFlagItems (first : Bool) : Flags → Bytes → Step (Flags × Bytes)
  | [], bs => (fun rest => ([], rest)) <$> expectListEnd bs
  | (name, unread) :: flags, bs => do
    match ← nextItem first bs with
    | .last rest => return ((name, unread) :: flags, rest)
    | .more rest =>
      let (value, rest) ← readBool rest
      let (flags, rest) ← readFlagItems false flags rest
      return ((name, some value) :: flags, rest)

/-- A record of flags, as an object or as a list; a flag that is not given is off. -/
def readFlags (title : String) (names : List String) (bs : Bytes) :
    Step (List Bool × Bytes) :=
  let unread : Flags := names.map (·, none)
  let values : Flags × Bytes → List Bool × Bytes := fun (flags, rest) =>
    (flags.map (·.2.getD false), rest)
  match skipBlanks bs with
  | [] => .error (.onNext .endInValue [])
  | b :: rest =>
    match Char.ofUInt8 b with
    | '\x7b' => values <$> readFlagMembers true unread (enoughFuel bs) rest
    | '[' => values <$> readFlagItems true unread rest
    | _ => .error (refuse title b rest)

/-- A text that holds exactly one value of the shape. -/
def decode {α : Type} (read : Bytes → Step (α × Bytes)) (text : String) : Except Fault α :=
  let bs := Utf8.encode text
  Except.mapError (Stop.locate bs) do
    let (a, rest) ← read bs
    expectEnd rest
    return a

end Jose.Json
