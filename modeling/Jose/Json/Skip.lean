import Jose.Json.Read

/-! Passing over a value that nobody asked for. Only its grammar is looked at: lists may
nest without bound, numbers may be of any size, and strings may hold lone surrogates. -/
namespace Jose.Json

def skipHexEscape (bs : Bytes) : Step Bytes := (·.2) <$> readHex bs

/-- Behind the opening quote. -/
def skipString : (fuel : Nat) → Bytes → Step Bytes
  | 0, bs => .error (.here .endInString bs)
  | _, [] => .error (.here .endInString [])
  | fuel + 1, b :: rest =>
    match Char.ofUInt8 b with
    | '"' => .ok rest
    | '\\' =>
      match rest with
      | [] => .error (.here .endInString [])
      | e :: tail =>
        match Char.ofUInt8 e with
        | '"' | '\\' | '/' | 'b' | 'f' | 'n' | 'r' | 't' => skipString fuel tail
        | 'u' =>
          match skipHexEscape tail with
          | .ok tail => skipString fuel tail
          | .error stop => .error stop
        | _ => .error (.here .invalidEscape tail)
    | c => if c.toNat <
        0x20 then .error (.here .controlCharacter (b :: rest)) else skipString fuel rest

/-- One digit or more, the first of which is consumed before it is looked at. -/
def skipDigits : Bytes → Step Bytes
  | [] => .error (.here .invalidNumber [])
  | b :: rest =>
    if (digit? b).isSome then .ok (dropDigits 0 rest).2
    else .error (.here .invalidNumber rest)

/-- From the `e`, if there is one. -/
def skipExponent : Bytes → Step Bytes
  | [] => .ok []
  | b :: rest =>
    match Char.ofUInt8 b with
    | 'e' | 'E' =>
      match rest with
      | [] => skipDigits []
      | sign :: tail =>
        match Char.ofUInt8 sign with
        | '+' | '-' => skipDigits tail
        | _ => skipDigits (sign :: tail)
    | _ => .ok (b :: rest)

/-- From the decimal point, if there is one. -/
def skipFraction : Bytes → Step Bytes
  | [] => .ok []
  | b :: rest =>
    if Char.ofUInt8 b = '.' then
      if startsWithDigit rest then skipExponent (dropDigits 0 rest).2
      else .error (.onNext .invalidNumber rest)
    else skipExponent (b :: rest)

def skipNumber : Bytes → Step Bytes
  | [] => .error (.here .invalidNumber [])
  | b :: rest =>
    match digit? b with
    | none => .error (.here .invalidNumber rest)
    | some 0 =>
      if startsWithDigit rest then .error (.onNext .invalidNumber rest) else skipFraction rest
    | some _ => skipFraction (dropDigits 0 rest).2

/-- A name and its colon. -/
def skipName (fuel : Nat) (bs : Bytes) : Step Bytes :=
  match skipBlanks bs with
  | [] => .error (.onNext .endInObject [])
  | b :: rest =>
    if Char.ofUInt8 b = '"' then skipString fuel rest >>= expectColon
    else .error (.onNext .keyNotString (b :: rest))

mutual

def skipValue : (fuel : Nat) → Bytes → Step Bytes
  | 0, bs => .error (.here .tooDeep bs)
  | fuel + 1, bs =>
    match skipBlanks bs with
    | [] => .error (.onNext .endInValue [])
    | b :: rest =>
      match Char.ofUInt8 b with
      | 'n' => expectWord "ull".toList rest
      | 't' => expectWord "rue".toList rest
      | 'f' => expectWord "alse".toList rest
      | '"' => skipString (fuel + 1) rest
      | '-' => skipNumber rest
      | '[' => skipItems true fuel rest
      | '\x7b' => skipMembers true fuel rest
      | _ =>
        if (digit? b).isSome then skipNumber (b :: rest)
        else .error (.onNext .expectedValue (b :: rest))

def skipItems (first : Bool) : (fuel : Nat) → Bytes → Step Bytes
  | 0, bs => .error (.here .tooDeep bs)
  | fuel + 1, bs =>
    match skipBlanks bs with
    | [] => .error (.onNext .endInList [])
    | b :: rest =>
      match Char.ofUInt8 b, first with
      | ']', _ => .ok rest
      | ',', false => do skipItems false fuel (← skipValue fuel rest)
      | _, true => do skipItems false fuel (← skipValue fuel (b :: rest))
      | _, false => .error (.onNext .expectedListEnd (b :: rest))

def skipMembers (first : Bool) : (fuel : Nat) → Bytes → Step Bytes
  | 0, bs => .error (.here .tooDeep bs)
  | fuel + 1, bs =>
    match skipBlanks bs with
    | [] => .error (.onNext .endInObject [])
    | b :: rest =>
      match Char.ofUInt8 b, first with
      | '\x7d', _ => .ok rest
      | ',', false => do
        skipMembers false fuel (← skipValue fuel (← skipName (fuel + 1) rest))
      | _, true => do
        skipMembers false fuel (← skipValue fuel (← skipName (fuel + 1) (b :: rest)))
      | _, false => .error (.onNext .expectedObjectEnd (b :: rest))

end

end Jose.Json
