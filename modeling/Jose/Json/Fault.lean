import Jose.Bytes

/-! Why a text is not JSON, and where. A reader stops with the number of bytes it has
left; line and column are counted from that, in bytes, the column from the last line
feed. -/
namespace Jose.Json

inductive Reason where
  | endInList
  | endInObject
  | endInString
  | endInValue
  | expectedColon
  | expectedListEnd
  | expectedObjectEnd
  | expectedWord
  | expectedValue
  | invalidEscape
  | invalidNumber
  | numberOutOfRange
  | invalidCodePoint
  | controlCharacter
  | keyNotString
  | loneSurrogate
  | trailingComma
  | trailingCharacters
  | endOfHexEscape
  | tooDeep
  | shape (detail : String)
  deriving DecidableEq, Repr

def Reason.message : Reason → String
  | .endInList => "EOF while parsing a list"
  | .endInObject => "EOF while parsing an object"
  | .endInString => "EOF while parsing a string"
  | .endInValue => "EOF while parsing a value"
  | .expectedColon => "expected `:`"
  | .expectedListEnd => "expected `,` or `]`"
  | .expectedObjectEnd => "expected `,` or `\x7d`"
  | .expectedWord => "expected ident"
  | .expectedValue => "expected value"
  | .invalidEscape => "invalid escape"
  | .invalidNumber => "invalid number"
  | .numberOutOfRange => "number out of range"
  | .invalidCodePoint => "invalid unicode code point"
  | .controlCharacter => "control character (\\u0000-\\u001F) found while parsing a string"
  | .keyNotString => "key must be a string"
  | .loneSurrogate => "lone leading surrogate in hex escape"
  | .trailingComma => "trailing comma"
  | .trailingCharacters => "trailing characters"
  | .endOfHexEscape => "unexpected end of hex escape"
  | .tooDeep => "recursion limit exceeded"
  | .shape detail => detail

structure Stop where
  reason : Reason
  left : Nat
  deriving DecidableEq, Repr

/-- Stops behind what has been read. -/
def Stop.here (reason : Reason) (rest : Bytes) : Stop := ⟨reason, rest.length⟩

/-- Stops behind the next byte, if there is one. -/
def Stop.onNext (reason : Reason) (rest : Bytes) : Stop := ⟨reason, rest.length - 1⟩

structure Fault where
  reason : Reason
  line : Nat
  column : Nat
  deriving DecidableEq, Repr

def lineFeed : UInt8 := 10

def Stop.locate (input : Bytes) (s : Stop) : Fault :=
  let read := input.take (input.length - s.left)
  ⟨s.reason, 1 + read.count lineFeed, (read.reverse.takeWhile (· ≠ lineFeed)).length⟩

def Fault.message (f : Fault) : String :=
  f.reason.message ++ s!" at line {f.line} column {f.column}"

end Jose.Json
