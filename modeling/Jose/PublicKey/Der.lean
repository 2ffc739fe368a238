import Jose.Bytes

/-! The distinguished encoding that keys come in: elements of a tag, a length and a
content. There is one way to write each value, and a content must be used up by what is
read from it. -/
namespace Jose.PublicKey.Der

structure Element where
  tag : UInt8
  content : Bytes
  deriving DecidableEq, Repr

def integerTag : UInt8 := 0x02
def bitStringTag : UInt8 := 0x03
def octetStringTag : UInt8 := 0x04
def nullTag : UInt8 := 0x05
def objectIdTag : UInt8 := 0x06
def sequenceTag : UInt8 := 0x30

/-- A length takes the fewest bytes: one below 128, else up to four behind their count. -/
def readLength : Bytes → Option (Nat × Bytes)
  | [] => none
  | b :: rest =>
    if b < 0x80 then some (b.toNat, rest)
    else
      let width := b.toNat - 0x80
      let n := Bytes.toNat (rest.take width)
      if 0 < width && width ≤ 4 && width ≤ rest.length && 0x80 ≤ n &&
          Bytes.widthOf n = width then
        some (n, rest.drop width)
      else none

def tagNumber (tag : UInt8) : Nat := tag.toNat % 32

/-- Tags of more than one byte are not known. -/
def read : Bytes → Option (Element × Bytes)
  | [] => none
  | tag :: rest => do
    let (n, rest) ← readLength rest
    guard (tagNumber tag ≠ 31 ∧ n ≤ rest.length)
    return (⟨tag, rest.take n⟩, rest.drop n)

def readTagged (tag : UInt8) (bs : Bytes) : Option (Bytes × Bytes) := do
  let (e, rest) ← read bs
  guard (e.tag = tag)
  return (e.content, rest)

/-- The content of the one element that the bytes hold. -/
def only (tag : UInt8) (bs : Bytes) : Option Bytes := do
  let (content, rest) ← readTagged tag bs
  guard (rest = [])
  return content

/-- A leading zero stands only before a byte that would read as a sign. -/
def naturalOf : Bytes → Option Nat
  | [] => none
  | [b] => if b < 0x80 then some b.toNat else none
  | b :: c :: rest =>
    if b = 0 && c < 0x80 || 0x80 ≤ b then none else some (Bytes.toNat (b :: c :: rest))

def readNatural (bs : Bytes) : Option (Nat × Bytes) := do
  let (content, rest) ← readTagged integerTag bs
  return (← naturalOf content, rest)

def readNaturals : (count : Nat) → Bytes → Option (List Nat × Bytes)
  | 0, bs => some ([], bs)
  | count + 1, bs => do
    let (n, rest) ← readNatural bs
    let (ns, rest) ← readNaturals count rest
    return (n :: ns, rest)

/-- The bytes of a bit string without spare bits. -/
def wholeBits : Bytes → Option Bytes
  | 0 :: bs => some bs
  | _ => none

def isContextual (tag : UInt8) : Bool := tag.toNat / 64 = 2

def isConstructed (tag : UInt8) : Bool := tag.toNat / 32 % 2 = 1

/-- The optional field of this number, passing over fields of lower numbers. -/
def readField (number : Nat) : (fuel : Nat) → Bytes → Option (Option Element × Bytes)
  | _, [] => some (none, [])
  | 0, bs => some (none, bs)
  | fuel + 1, tag :: rest =>
    if !isContextual tag || number < tagNumber tag then some (none, tag :: rest)
    else
      match read (tag :: rest) with
      | none => none
      | some (e, rest) =>
        if tagNumber tag = number then some (some e, rest) else readField number fuel rest

/-- The element inside a field, which must have the given tag. -/
def Element.explicit? (tag : UInt8) (e : Element) : Option Bytes :=
  if isConstructed e.tag then only tag e.content else none

/-- Nothing but fields with one element each. -/
def onlyFields : (fuel : Nat) → Bytes → Bool
  | _, [] => true
  | 0, _ => false
  | fuel + 1, bs =>
    match read bs with
    | none => false
    | some (e, rest) =>
      isContextual e.tag && isConstructed e.tag &&
        (match read e.content with | some (_, []) => true | _ => false) &&
          onlyFields fuel rest

end Jose.PublicKey.Der
