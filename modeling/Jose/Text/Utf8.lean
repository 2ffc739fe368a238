import Jose.Bytes

/-! UTF-8. `next` reads the front of a byte string: a character with what follows it, a
malformed run with its width, or a character that the end of the input cut short. The
strict and the lossy decoder both step by it. -/
namespace Jose.Text.Utf8

def encode (text : String) : Bytes := text.toList.flatMap String.utf8EncodeChar

inductive Lead where
  | char (c : Char) (rest : Bytes)
  | malformed (width : Nat)
  | truncated
  deriving Repr

def isContinuation (b : UInt8) : Bool := 0x80 ≤ b && b ≤ 0xBF

def lowBits (b : UInt8) : Nat := b.toNat % 64

/-- The bytes that may follow the lead byte of a three-byte character: no overlong forms
after `E0`, no surrogates after `ED`. -/
def followsThree (lead b : UInt8) : Bool :=
  (if lead = 0xE0 then 0xA0 else 0x80) ≤ b && b ≤ (if lead = 0xED then 0x9F else 0xBF)

/-- The bytes that may follow the lead byte of a four-byte character: no overlong forms
after `F0`, nothing above U+10FFFF after `F4`. -/
def followsFour (lead b : UInt8) : Bool :=
  (if lead = 0xF0 then 0x90 else 0x80) ≤ b && b ≤ (if lead = 0xF4 then 0x8F else 0xBF)

def next (lead : UInt8) (rest : Bytes) : Lead :=
  if lead < 0x80 then .char (Char.ofNat lead.toNat) rest
  else if 0xC2 ≤ lead && lead ≤ 0xDF then
    match rest with
    | [] => .truncated
    | b :: r =>
      if isContinuation b then .char (Char.ofNat (lead.toNat % 32 * 64 + lowBits b)) r
      else .malformed 1
  else if 0xE0 ≤ lead && lead ≤ 0xEF then
    match rest with
    | [] => .truncated
    | b :: r =>
      if !followsThree lead b then .malformed 1
      else match r with
        | [] => .truncated
        | c :: s =>
          if isContinuation c then
            .char (Char.ofNat ((lead.toNat % 16 * 64 + lowBits b) * 64 + lowBits c)) s
          else .malformed 2
  else if 0xF0 ≤ lead && lead ≤ 0xF4 then
    match rest with
    | [] => .truncated
    | b :: r =>
      if !followsFour lead b then .malformed 1
      else match r with
        | [] => .truncated
        | c :: s =>
          if !isContinuation c then .malformed 2
          else match s with
            | [] => .truncated
            | d :: t =>
              if isContinuation d then
                .char (Char.ofNat
                  (((lead.toNat % 8 * 64 + lowBits b) * 64 + lowBits c) * 64 + lowBits d)) t
              else .malformed 3
  else .malformed 1

theorem next_rest_length {lead : UInt8} {rest r : Bytes} {c : Char}
    (h : next lead rest = .char c r) : r.length ≤ rest.length := by
  unfold next at h
  repeat' split at h
  all_goals first
    | (simp only [Lead.char.injEq] at h; obtain ⟨_, rfl⟩ := h; simp; try omega)
    | simp at h

/-- Where decoding stopped: the offset of the first byte that is not part of a whole
character, and the width of the malformed run, or `none` when the input ends inside a
character. -/
structure Fault where
  offset : Nat
  width : Option Nat
  deriving DecidableEq, Repr

def Fault.message (f : Fault) : String :=
  match f.width with
  | some w => s!"invalid utf-8 sequence of {w} bytes from index {f.offset}"
  | none => s!"incomplete utf-8 byte sequence from index {f.offset}"

def decodeFrom (offset : Nat) (bs : Bytes) : Except Fault (List Char) :=
  match bs with
  | [] => .ok []
  | b :: rest =>
    match h : next b rest with
    | .char c r => do
      let cs ← decodeFrom (offset + (rest.length + 1 - r.length)) r
      return c :: cs
    | .malformed width => .error ⟨offset, some width⟩
    | .truncated => .error ⟨offset, none⟩
termination_by bs.length
decreasing_by
  have := next_rest_length h
  simp only [List.length_cons]
  omega

def decode (bs : Bytes) : Except Fault String := String.ofList <$> decodeFrom 0 bs

/-- Every malformed run, and a character that the end cuts short, reads as U+FFFD. -/
def lossyChars (bs : Bytes) : List Char :=
  match bs with
  | [] => []
  | b :: rest =>
    match h : next b rest with
    | .char c r => c :: lossyChars r
    | .malformed width => '\ufffd' :: lossyChars (rest.drop (width - 1))
    | .truncated => ['\ufffd']
termination_by bs.length
decreasing_by
  · have := next_rest_length h
    simp only [List.length_cons]
    omega
  · simp only [List.length_cons, List.length_drop]
    omega

def decodeLossy (bs : Bytes) : String := String.ofList (lossyChars bs)

end Jose.Text.Utf8
