import Jose.Proofs.Fetch.Attempt
import Jose.Proofs.Text.Canonical
import Jose.Proofs.Text.Charset

/-! The limit on a body counts characters, the cut-off while reading counts bytes. The two
agree where a character of the text takes no more bytes than the cut-off allows it. Bytes
that are declared as US-ASCII but are none are read as UTF-8 in the end, where a character
may take up to four of them, yet the cut-off allows it one. -/
namespace Jose.Fetch.Get
open Text Result

variable {g : Get} {url : String} {charset : Charset} {bytes : Bytes}

/-- There is a limit, and the text has more characters. -/
def Overlong (g : Get) (charset : Charset) (bytes : Bytes) : Prop :=
  0 < g.bodyLimit ∧ g.bodyLimit < (bodyText charset bytes).length

def MisdeclaredAscii (charset : Charset) (bytes : Bytes) : Prop :=
  charset = .ascii ∧ ∃ b ∈ bytes, 128 ≤ b.toNat

/-- There are more bytes than the limit, of which the text has one for each character only
as it is declared. -/
def CutShort (g : Get) (charset : Charset) (bytes : Bytes) : Prop :=
  MisdeclaredAscii charset bytes ∧ 0 < g.bodyLimit ∧ g.bodyLimit < bytes.length

instance (charset : Charset) (bytes : Bytes) : Decidable (MisdeclaredAscii charset bytes) :=
  inferInstanceAs (Decidable (_ ∧ ∃ b ∈ bytes, _))

instance (g : Get) (charset : Charset) (bytes : Bytes) :
    Decidable (Overlong g charset bytes) :=
  inferInstanceAs (Decidable (_ ∧ _))

instance (g : Get) (charset : Charset) (bytes : Bytes) :
    Decidable (CutShort g charset bytes) :=
  inferInstanceAs (Decidable (_ ∧ _ ∧ _))

/-! ## The length of the text -/

theorem bodyText_utf8 (bytes : Bytes) : bodyText .utf8 bytes = Utf8.decodeLossy bytes := by
  rw [bodyText]
  split
  · next text h => exact (Utf8.decodeLossy_of_decode (mapError_eq_ok_iff.mp h)).symm
  · rfl

/-- One character a byte, unless the bytes are not what they are declared as. -/
theorem length_bodyText_of_ne (hne : charset ≠ .utf8) (h : ¬MisdeclaredAscii charset bytes) :
    (bodyText charset bytes).length = bytes.length := by
  cases charset with
  | utf8 => exact absurd rfl hne
  | latin1 => exact Charset.length_ofList_map_charOf bytes
  | ascii =>
    have hascii : ∀ b ∈ bytes, b.toNat < 128 := by
      intro b hb
      by_cases hlt : b.toNat < 128
      · exact hlt
      · exact absurd ⟨rfl, b, hb, Nat.le_of_not_lt hlt⟩ h
    rw [bodyText, Charset.decode_ascii_eq_ok_iff.mpr ⟨hascii, rfl⟩]
    exact Charset.length_ofList_map_charOf bytes

theorem length_le_bodyText_utf8 (bytes : Bytes) :
    bytes.length ≤ 4 * (bodyText .utf8 bytes).length := by
  rw [bodyText_utf8, Utf8.decodeLossy, String.length_ofList]
  exact Utf8.length_le_lossyChars bytes

/-! ## The cut-off -/

/-- The largest limit that the cut-off knows is no length of any bytes. -/
theorem exceeds_byteLimit_iff (hsize : bytes.length < UInt64.size) :
    exceeds (g.byteLimit? charset) bytes.length = true ↔
      0 < g.bodyLimit ∧ g.bodyLimit * (if charset = .utf8 then 4 else 1) < bytes.length := by
  rw [byteLimit?]
  split
  · next hle =>
    simp only [exceeds, Bool.false_eq_true, false_iff]
    omega
  · next hpos =>
    simp only [exceeds, decide_eq_true_eq]
    split <;> omega

/-- A cut-off that is not among the overlong bodies comes from a wrong declaration. -/
theorem overlong_or_cutShort_of_exceeds (hsize : bytes.length < UInt64.size)
    (h : exceeds (g.byteLimit? charset) bytes.length = true) :
    Overlong g charset bytes ∨ CutShort g charset bytes := by
  obtain ⟨hpos, hlt⟩ := (exceeds_byteLimit_iff hsize).mp h
  by_cases hutf8 : charset = .utf8
  · subst hutf8
    have hle := length_le_bodyText_utf8 bytes
    rw [if_pos rfl] at hlt
    exact .inl ⟨hpos, by omega⟩
  rw [if_neg hutf8] at hlt
  by_cases hascii : MisdeclaredAscii charset bytes
  · exact .inr ⟨hascii, hpos, by omega⟩
  · have hlength := length_bodyText_of_ne hutf8 hascii
    exact .inl ⟨hpos, by omega⟩

theorem exceeds_of_cutShort (hsize : bytes.length < UInt64.size)
    (h : CutShort g charset bytes) :
    exceeds (g.byteLimit? charset) bytes.length = true := by
  obtain ⟨⟨rfl, -⟩, hpos, hlt⟩ := h
  refine (exceeds_byteLimit_iff hsize).mpr ⟨hpos, ?_⟩
  rw [if_neg Charset.noConfusion]
  omega

/-! ## Whole responses -/

variable {a : Arrival}

theorem receive_whole (h : a.status = 200) (hwhole : a.isWhole = true)
    (hcharset : charsetOf a.headers = charset)
    (hbytes : a.chunks.flatten = bytes) (hsize : bytes.length < UInt64.size) :
    g.receive url a =
      if Overlong g charset bytes ∨ CutShort g charset bytes then
        .error (.tooLarge g.bodyLimit)
      else .ok (.new 200 (standardReason 200) (headerMap a.headers)
        (bodyText charset bytes)) := by
  rw [receive_ok h hcharset hbytes, Option.isNone_iff_eq_none.mp hwhole, Option.elim_none]
  by_cases hexceeds : exceeds (g.byteLimit? charset) bytes.length = true
  · rw [if_pos hexceeds, if_pos (overlong_or_cutShort_of_exceeds hsize hexceeds)]
  · have hkept : ¬CutShort g charset bytes := fun hcut =>
      hexceeds (exceeds_of_cutShort hsize hcut)
    rw [if_neg hexceeds]
    exact ite_congr (propext (or_iff_left hkept).symm) (fun _ => rfl) fun _ => rfl

/-- A response of status 200 that arrives whole, in whatever pieces, is too large if its
text has more characters than the limit; apart from that only if it is declared as
US-ASCII, is none, and has more bytes than the limit. All others are returned. -/
theorem whole_response_too_large_iff (h : a.status = 200) (hwhole : a.isWhole = true)
    (hcharset : charsetOf a.headers = charset) (hbytes : a.chunks.flatten = bytes)
    (hsize : bytes.length < UInt64.size) :
    (g.receive url a = .error (.tooLarge g.bodyLimit) ↔
      Overlong g charset bytes ∨ CutShort g charset bytes) ∧
    (¬MisdeclaredAscii charset bytes →
      (g.receive url a = .error (.tooLarge g.bodyLimit) ↔ Overlong g charset bytes)) ∧
    (¬(Overlong g charset bytes ∨ CutShort g charset bytes) → g.receive url a =
      .ok (.new 200 (standardReason 200) (headerMap a.headers)
        (bodyText charset bytes))) := by
  have htooLarge : g.receive url a = .error (.tooLarge g.bodyLimit) ↔
      Overlong g charset bytes ∨ CutShort g charset bytes := by
    rw [receive_whole h hwhole hcharset hbytes hsize]
    split
    · next hlarge => exact iff_of_true rfl hlarge
    · next hkept => exact iff_of_false (by simp) hkept
  refine ⟨htooLarge, fun hdeclared => ?_, fun hkept => ?_⟩
  · rw [htooLarge]
    exact or_iff_left fun hcut => hdeclared hcut.1
  · rw [receive_whole h hwhole hcharset hbytes hsize, if_neg hkept]

/-- One character of two bytes, with a limit of one. -/
def accented (declared : List (String × Bytes)) : Arrival :=
  ⟨200, declared, [[0xC3], [0xA9]], none⟩

def single : Get := { Get.default with bodyLimit := 1 }

theorem whole_response_too_large_iff_accented :
    (accented []).status = 200 ∧ (accented []).isWhole = true ∧
      single.receive "http://h/" (accented []) =
        .ok (.new 200 "OK" [] (bodyText .utf8 [0xC3, 0xA9])) ∧
      bodyText .utf8 [0xC3, 0xA9] = "é" := by
  have hsize : ([0xC3, 0xA9] : Bytes).length < UInt64.size := by decide
  obtain ⟨-, -, hreturned⟩ :=
    @whole_response_too_large_iff single "http://h/" .utf8 [0xC3, 0xA9] (accented [])
      rfl rfl rfl rfl hsize
  exact ⟨rfl, rfl, hreturned (by decide +kernel), by decide +kernel⟩

/-- The content type that declares US-ASCII. -/
def declaredAscii : List (String × Bytes) :=
  [("content-type", Utf8.encode "text/plain; charset=us-ascii")]

/-- The text that would be returned is within the limit, but its bytes are not. -/
theorem accented_cut_short :
    (bodyText (charsetOf (accented declaredAscii).headers)
      (accented declaredAscii).chunks.flatten).length = 1 ∧
      single.bodyLimit = 1 ∧
      single.receive "http://h/" (accented declaredAscii) = .error (.tooLarge 1) := by
  have hcut : CutShort single .ascii [0xC3, 0xA9] := by decide
  have hcharset : charsetOf (accented declaredAscii).headers = .ascii := by decide +kernel
  have hreceive :=
    @receive_whole single "http://h/" .ascii [0xC3, 0xA9] (accented declaredAscii)
      rfl rfl hcharset rfl (by decide)
  rw [if_pos (.inr hcut)] at hreceive
  exact ⟨by decide +kernel, rfl, hreceive⟩

end Jose.Fetch.Get
