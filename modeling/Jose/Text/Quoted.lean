import Jose.Text.Unseen

/-! Quoted text for messages: a string or character between quotes, with the quote itself,
the backslash and every character that would not be seen written as an escape. -/
namespace Jose.Text

/-- How `c` is written between two `quote` marks. -/
def quotedChar (quote c : Char) : List Char :=
  if c = quote || c = '\\' then ['\\', c]
  else if c = '\x00' then ['\\', '0']
  else if c = '\t' then ['\\', 't']
  else if c = '\n' then ['\\', 'n']
  else if c = '\r' then ['\\', 'r']
  else if isUnseen c then ['\\', 'u', '\x7b'] ++ Nat.toDigits 16 c.toNat ++ ['\x7d']
  else [c]

def quoted (text : String) : String :=
  String.ofList ('"' :: text.toList.flatMap (quotedChar '"') ++ ['"'])

def quotedCharacter (c : Char) : String := String.ofList ('\'' :: quotedChar '\'' c ++ ['\''])

def quotedList (items : List String) : String :=
  "[" ++ ", ".intercalate (items.map quoted) ++ "]"

end Jose.Text
