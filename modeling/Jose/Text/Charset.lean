import Jose.Error
import Jose.Text.Quoted
import Jose.Text.Utf8

/-! The character encodings of a textual payload. US-ASCII and ISO-8859-1 hold one
character a byte, so only their range differs. -/
namespace Jose.Text

inductive Charset where
  | utf8
  | ascii
  | latin1
  deriving DecidableEq, Repr, Inhabited

namespace Charset

def all : List Charset := [utf8, ascii, latin1]

def name : Charset → String
  | .utf8 => "UTF-8"
  | .ascii => "US-ASCII"
  | .latin1 => "ISO-8859-1"

/-- Names and their aliases match without regard to the case of ASCII letters. -/
def ofName? (label : String) : Option Charset :=
  match label.toUpper with
  | "UTF-8" | "UTF8" => some .utf8
  | "US-ASCII" | "ASCII" => some .ascii
  | "ISO-8859-1" | "LATIN1" | "ISO8859-1" => some .latin1
  | _ => none

def ofName (label : String) : Result Charset :=
  match ofName? label with
  | some c => .ok c
  | none => .error (.format ("Unsupported charset: " ++ label))

def byteOf (c : Char) : UInt8 := UInt8.ofNat c.toNat

def charOf (b : UInt8) : Char := Char.ofNat b.toNat

def encodeLatin1 : List Char → Result Bytes
  | [] => .ok []
  | c :: cs =>
    if c.toNat < 256 then (byteOf c :: ·) <$> encodeLatin1 cs
    else .error (.format
      ("Character " ++ quotedCharacter c ++ " is not representable in ISO-8859-1"))

def encode (charset : Charset) (text : String) : Result Bytes :=
  match charset with
  | .utf8 => .ok (Utf8.encode text)
  | .ascii =>
    if text.toList.all (·.toNat < 128) then .ok (text.toList.map byteOf)
    else .error (.format "Text is not representable in US-ASCII")
  | .latin1 => encodeLatin1 text.toList

def decode (charset : Charset) (bytes : Bytes) : Result String :=
  match charset with
  | .utf8 => (Utf8.decode bytes).mapError fun f => .format ("Invalid UTF-8: " ++ f.message)
  | .ascii =>
    if bytes.all (·.toNat < 128) then .ok (String.ofList (bytes.map charOf))
    else .error (.format "Bytes are not valid US-ASCII")
  | .latin1 => .ok (String.ofList (bytes.map charOf))

end Charset
end Jose.Text
