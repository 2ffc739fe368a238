import Jose.Json.Number
import Jose.Text.Utf8

/-! Reading JSON values from bytes. Each function consumes the fuel by one for every
value, item and member, and twice the length of the text is enough. The depth is the
number of lists and objects that may still be opened. -/
namespace Jose.Json
open Jose.Text

def isBlank (b : UInt8) : Bool :=
  match Char.ofUInt8 b with
  | ' ' | '\n' | '\t' | '\r' => true
  | _ => false

def skipBlanks : Bytes → Bytes
  | [] => []
  | b :: rest => if isBlank b then skipBlanks rest else b :: rest

/-- The remaining letters of `null`, `true` or `false`. -/
def expectWord : List Char → Bytes → Step Bytes
  | [], bs => .ok bs
  | _ :: _, [] => .error (.here .endInValue [])
  | c :: cs, b :: rest =>
    if Char.ofUInt8 b = c then expectWord cs rest else .error (.here .expectedWord rest)

def hexValue? (b : UInt8) : Option Nat :=
  let n := b.toNat
  if 48 ≤ n && n ≤ 57 then some (n - 48)
  else if 65 ≤ n && n ≤ 70 then some (n - 55)
  else if 97 ≤ n && n ≤ 102 then some (n - 87)
  else none

/-- Four digits, which are consumed before they are looked at. -/
def readHex : Bytes → Step (Nat × Bytes)
  | a :: b :: c :: d :: rest =>
    match hexValue? a, hexValue? b, hexValue? c, hexValue? d with
    | some a, some b, some c, some d => .ok (((a * 16 + b) * 16 + c) * 16 + d, rest)
    | _, _, _, _ => .error (.here .invalidEscape rest)
  | _ => .error (.here .endInString [])

def isLeadingSurrogate (n : Nat) : Bool := 0xD800 ≤ n && n < 0xDC00

def isTrailingSurrogate (n : Nat) : Bool := 0xDC00 ≤ n && n < 0xE000

def joinSurrogates (high low : Nat) : Nat :=
  0x10000 + (high - 0xD800) * 0x400 + (low - 0xDC00)

/-- Takes the byte of `c`. -/
def expectInEscape (c : Char) : Bytes → Step Bytes
  | [] => .error (.here .endInString [])
  | b :: rest => if Char.ofUInt8 b = c then .ok rest else .error (.here .endOfHexEscape rest)

/-- Behind `\u`: one unit, or a surrogate pair. -/
def readCodePoint (bs : Bytes) : Step (Nat × Bytes) := do
  let (n, rest) ← readHex bs
  if isTrailingSurrogate n then .error (.here .loneSurrogate rest)
  else if isLeadingSurrogate n then
    let rest ← expectInEscape '\\' rest
    let rest ← expectInEscape 'u' rest
    let (low, rest) ← readHex rest
    if isTrailingSurrogate low then return (joinSurrogates n low, rest)
    else .error (.here .loneSurrogate rest)
  else return (n, rest)

/-- Behind the backslash. -/
def readEscape : Bytes → Step (Char × Bytes)
  | [] => .error (.here .endInString [])
  | b :: rest =>
    match Char.ofUInt8 b with
    | '"' => .ok ('"', rest)
    | '\\' => .ok ('\\', rest)
    | '/' => .ok ('/', rest)
    | 'b' => .ok ('\x08', rest)
    | 'f' => .ok ('\x0c', rest)
    | 'n' => .ok ('\n', rest)
    | 'r' => .ok ('\r', rest)
    | 't' => .ok ('\t', rest)
    | 'u' => (fun (n, rest) => (Char.ofNat n, rest)) <$> readCodePoint rest
    | _ => .error (.here .invalidEscape rest)

/-- Behind the opening quote; `read` holds the bytes so far, last first. The encoding is
checked once the closing quote is in sight. -/
def readString (read : Bytes) : (fuel : Nat) → Bytes → Step (String × Bytes)
  | 0, bs => .error (.here .endInString bs)
  | _, [] => .error (.here .endInString [])
  | fuel + 1, b :: rest =>
    match Char.ofUInt8 b with
    | '"' =>
      match Utf8.decode read.reverse with
      | .ok s => .ok (s, rest)
      | .error _ => .error (.here .invalidCodePoint (b :: rest))
    | '\\' =>
      match readEscape rest with
      | .ok (c, rest) =>
        readString ((Utf8.encode (String.singleton c)).reverse ++ read) fuel rest
      | .error stop => .error stop
    | c => if c.toNat < 0x20 then .error (.here .controlCharacter rest) else readString
        (b :: read) fuel rest

/-- What follows in a list or an object: its end, or one more entry. -/
inductive Entry where
  | last (rest : Bytes)
  | more (rest : Bytes)

/-- Up to the next item of a list. -/
def nextItem (first : Bool) (bs : Bytes) : Step Entry :=
  match skipBlanks bs with
  | [] => .error (.onNext .endInList [])
  | b :: rest =>
    match Char.ofUInt8 b with
    | ']' => .ok (.last rest)
    | ',' =>
      if first then .ok (.more (b :: rest)) else
        match skipBlanks rest with
        | [] => .error (.onNext .endInValue [])
        | c :: tail =>
          if Char.ofUInt8 c = ']' then .error (.onNext .trailingComma (c :: tail))
          else .ok (.more (c :: tail))
    | _ => if first then .ok (.more (b :: rest)) else .error
        (.onNext .expectedListEnd (b :: rest))

/-- Behind the quote that opens the next name of an object. -/
def nextName (first : Bool) (bs : Bytes) : Step Entry :=
  match skipBlanks bs with
  | [] => .error (.onNext .endInObject [])
  | b :: rest =>
    match Char.ofUInt8 b, first with
    | '\x7d', _ => .ok (.last rest)
    | '"', true => .ok (.more rest)
    | _, true => .error (.onNext .keyNotString (b :: rest))
    | ',', false =>
      match skipBlanks rest with
      | [] => .error (.onNext .endInValue [])
      | c :: tail =>
        match Char.ofUInt8 c with
        | '"' => .ok (.more tail)
        | '\x7d' => .error (.onNext .trailingComma (c :: tail))
        | _ => .error (.onNext .keyNotString (c :: tail))
    | _, false => .error (.onNext .expectedObjectEnd (b :: rest))

def expectColon (bs : Bytes) : Step Bytes :=
  match skipBlanks bs with
  | [] => .error (.onNext .endInObject [])
  | b :: rest =>
    if Char.ofUInt8 b = ':' then .ok rest else .error (.onNext .expectedColon (b :: rest))

mutual

def readValue (depth : Nat) : (fuel : Nat) → Bytes → Step (Value × Bytes)
  | 0, bs => .error (.here .tooDeep bs)
  | fuel + 1, bs =>
    match skipBlanks bs with
    | [] => .error (.onNext .endInValue [])
    | b :: rest =>
      match Char.ofUInt8 b with
      | 'n' => (fun rest => (.null, rest)) <$> expectWord "ull".toList rest
      | 't' => (fun rest => (.bool true, rest)) <$> expectWord "rue".toList rest
      | 'f' => (fun rest => (.bool false, rest)) <$> expectWord "alse".toList rest
      | '"' => (fun (s, rest) => (.string s, rest)) <$> readString [] (fuel + 1) rest
      | '-' => (fun (n, rest) => (.number n, rest)) <$> readNumber true rest
      | '[' =>
        match depth with
        | 0 => .error (.onNext .tooDeep (b :: rest))
        | depth + 1 =>
          (fun (items, rest) => (.array items, rest)) <$> readItems depth true fuel rest
      | '\x7b' =>
        match depth with
        | 0 => .error (.onNext .tooDeep (b :: rest))
        | depth + 1 =>
          (fun (pairs, rest) => (.object (Named.ofList pairs), rest)) <$>
            readPairs depth true fuel rest
      | _ =>
        if (digit? b).isSome then
          (fun (n, rest) => (.number n, rest)) <$> readNumber false (b :: rest)
        else .error (.onNext .expectedValue (b :: rest))

def readItems (depth : Nat) (first : Bool) : (fuel : Nat) → Bytes → Step (List Value × Bytes)
  | 0, bs => .error (.here .tooDeep bs)
  | fuel + 1, bs => do
    match ← nextItem first bs with
    | .last rest => return ([], rest)
    | .more rest =>
      let (v, rest) ← readValue depth fuel rest
      let (vs, rest) ← readItems depth false fuel rest
      return (v :: vs, rest)

def readPairs (depth : Nat) (first : Bool) :
    (fuel : Nat) → Bytes → Step (List (String × Value) × Bytes)
  | 0, bs => .error (.here .tooDeep bs)
  | fuel + 1, bs => do
    match ← nextName first bs with
    | .last rest => return ([], rest)
    | .more rest =>
      let (name, rest) ← readString [] (fuel + 1) rest
      let rest ← expectColon rest
      let (v, rest) ← readValue depth fuel rest
      let (pairs, rest) ← readPairs depth false fuel rest
      return ((name, v) :: pairs, rest)

end

/-- Lists and objects within one another. -/
def maxDepth : Nat := 127

def enoughFuel (bs : Bytes) : Nat := 2 * bs.length + 2

/-- Nothing but blanks may follow the value. -/
def expectEnd (bs : Bytes) : Step Unit :=
  match skipBlanks bs with
  | [] => .ok ()
  | b :: rest => .error (.onNext .trailingCharacters (b :: rest))

def parse (bs : Bytes) : Except Fault Value :=
  Except.mapError (Stop.locate bs) do
    let (v, rest) ← readValue maxDepth (enoughFuel bs) bs
    expectEnd rest
    return v

def parseText (text : String) : Except Fault Value := parse (Utf8.encode text)

end Jose.Json
