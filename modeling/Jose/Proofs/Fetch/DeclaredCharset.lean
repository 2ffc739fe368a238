import Jose.Proofs.Fetch.Attempt
import Jose.Proofs.Fetch.ContentType

/-! The text of a body is its bytes as the charset in the content type reads them. -/
namespace Jose.Fetch.Get
open Text

/-- What the charset decodes the bytes as, or what they are in UTF-8 with replacements if
it cannot decode them. -/
def IsTextOf (charset : Charset) (bytes : Bytes) (text : String) : Prop :=
  charset.decode bytes = .ok text ∨ (∀ other, charset.decode bytes ≠ .ok other) ∧
    text = Utf8.decodeLossy bytes

theorem isTextOf_bodyText (charset : Charset) (bytes : Bytes) :
    IsTextOf charset bytes (bodyText charset bytes) := by
  rw [bodyText]
  cases hdecode : charset.decode bytes with
  | ok text => exact .inl hdecode
  | error e =>
    refine .inr ⟨fun other hother => ?_, rfl⟩
    cases hdecode.symm.trans hother

variable {g : Get} {url : String} {a : Arrival} {bytes : Bytes}

theorem body_receive_congr {headers' : List (String × Bytes)}
    (hcharset : charsetOf headers' = charsetOf a.headers) :
    (g.receive url { a with headers := headers' }).map (·.body) =
      (g.receive url a).map (·.body) := by
  by_cases hok : a.status = 200
  · rw [receive_ok (a := { a with headers := headers' }) hok hcharset rfl,
      receive_ok hok rfl rfl]
    split
    · rfl
    cases a.failure? with
    | some failure => rfl
    | none =>
      simp only [Option.elim_none]
      split <;> rfl
  · by_cases hmissing : a.status ∈ [404, 410]
    · rw [receive_missing hmissing,
        receive_missing (a := { a with headers := headers' }) hmissing]
    · have hother : a.status ∉ [200, 404, 410] :=
        fun hmem => (List.mem_cons.mp hmem).elim hok hmissing
      rw [receive_status hother, receive_status (a := { a with headers := headers' }) hother]

/-- A whole response that is not too large is returned. Its text is what the charset makes
of its bytes, or UTF-8 with replacements just if the charset cannot decode them. The
charset is UTF-8 if there is no content type or one that is no text. Otherwise it is the
one that the first parameter of the name `charset` in small letters designates, where
blanks, quotes around the label and the case of the label do not count, and UTF-8 without
such a parameter or under an unknown label. So if the name comes in small letters only, it
is the one that the first parameter of the name in any case designates, and capital
letters anywhere in the content type leave the text as it is. -/
theorem body_is_read_as_declared (h : a.status = 200) (hwhole : a.isWhole = true)
    (hbytes : a.chunks.flatten = bytes)
    (hwithin : g.receive url a ≠ .error (.tooLarge g.bodyLimit)) :
    (∃ r, g.receive url a = .ok r ∧ IsTextOf (charsetOf a.headers) bytes r.body) ∧
    (contentType? a.headers = none → charsetOf a.headers = .utf8) ∧
    (∀ contentType, contentType? a.headers = some contentType → ∀ charset,
      charsetOf a.headers = charset ↔ Designates (· = charsetName) contentType charset) ∧
    (SmallLettersOnly a.headers →
      (∀ contentType, contentType? a.headers = some contentType → ∀ charset,
        charsetOf a.headers = charset ↔
          Designates (EqualIgnoringCase · charsetName) contentType charset) ∧
      ∀ headers', SmallLettersOnly headers' → lowered headers' = lowered a.headers →
        (g.receive url { a with headers := headers' }).map (·.body) =
          (g.receive url a).map (·.body)) := by
  have hexact : ∀ contentType, contentType? a.headers = some contentType → ∀ charset,
      charsetOf a.headers = charset ↔ Designates (· = charsetName) contentType charset := by
    intro contentType hcontentType charset
    rw [charsetOf_eq, hcontentType, ← designated_eq_iff]
    rfl
  refine ⟨?_, fun hnone => ?_, hexact, fun hsmall =>
    ⟨fun contentType hcontentType charset => ?_, fun headers' hsmall' hlowered => ?_⟩⟩
  · obtain ⟨r, hr⟩ := exists_receive_eq_ok h hwhole hwithin
    refine ⟨r, hr, ?_⟩
    rw [eq_new_of_receive hr, hbytes]
    exact isTextOf_bodyText (charsetOf a.headers) bytes
  · rw [charsetOf_eq, hnone]
    rfl
  · rw [hexact contentType hcontentType,
      designates_iff_of_small (hsmall contentType hcontentType)]
  · exact body_receive_congr (charsetOf_congr hlowered hsmall hsmall')

/-- A body of one byte. -/
def typed (contentType : Bytes) : Arrival :=
  ⟨200, [("content-type", contentType)], [[0xE9]], none⟩

theorem receive_typed (contentType : Bytes) :
    default.receive "http://h/" (typed contentType) =
    .ok (.new 200 (standardReason 200) (headerMap (typed contentType).headers)
      (bodyText (charsetOf (typed contentType).headers) [0xE9])) := by
  have hwithin : ∀ charset,
    exceeds (default.byteLimit? charset) ([0xE9] : Bytes).length = false ∧
      ¬(0 < default.bodyLimit ∧ default.bodyLimit < (bodyText charset [0xE9]).length) := by
    intro charset
    cases charset <;> decide +kernel
  obtain ⟨hbytes, hcharacters⟩ := hwithin (charsetOf (typed contentType).headers)
  have hall : (typed contentType).chunks.flatten = [0xE9] := rfl
  rw [receive_ok rfl rfl hall, hbytes, if_neg Bool.false_ne_true]
  exact if_neg hcharacters

/-- Blanks, quotes, an alias in both cases, and another parameter of the name. -/
def quotedLabel : Bytes := Utf8.encode "text/plain; charset = \"Latin1\"; charset=utf-8"

def capitalLabel : Bytes := Utf8.encode "Text/Plain; charset = \"LATIN1\"; charset=UTF-8"

theorem body_is_read_as_declared_quoted :
    (∃ r, default.receive "http://h/" (typed quotedLabel) = .ok r ∧ r.body = "é") ∧
      (default.receive "http://h/" (typed capitalLabel)).map (·.body) =
        (default.receive "http://h/" (typed quotedLabel)).map (·.body) := by
  have hwithin : default.receive "http://h/" (typed quotedLabel) ≠
      .error (.tooLarge default.bodyLimit) := by
    rw [receive_typed]
    simp
  obtain ⟨⟨r, hr, htext⟩, -, -, hcase⟩ :=
    @body_is_read_as_declared default "http://h/" (typed quotedLabel) [0xE9] rfl rfl
      rfl hwithin
  have hcharset : charsetOf (typed quotedLabel).headers = .latin1 := by decide +kernel
  have hsmall : SmallLettersOnly (typed quotedLabel).headers :=
    smallLettersOnly_of_forall "text/plain; charset = \"Latin1\"; charset=utf-8".toList
      (by decide +kernel) (by decide +kernel)
  have hsmall' : SmallLettersOnly (typed capitalLabel).headers :=
    smallLettersOnly_of_forall "Text/Plain; charset = \"LATIN1\"; charset=UTF-8".toList
      (by decide +kernel) (by decide +kernel)
  have hlowered : lowered (typed capitalLabel).headers =
      lowered (typed quotedLabel).headers := by decide +kernel
  refine ⟨⟨r, hr, ?_⟩, (hcase hsmall).2 _ hsmall' hlowered⟩
  have hdecode : Charset.latin1.decode [0xE9] = .ok "é" := by decide +kernel
  rw [hcharset] at htext
  rcases htext with h | ⟨hnone, -⟩
  · exact Except.ok.inj (h.symm.trans hdecode)
  · exact absurd hdecode (hnone "é")

/-- A capital letter in the name of the only parameter. -/
theorem designates_capitalized :
    Designates (EqualIgnoringCase · charsetName)
      "text/plain; Charset=ISO-8859-1".toList .latin1 := by
  have hdivided : IsDivided ';' "text/plain; Charset=ISO-8859-1".toList
      ["text/plain".toList, " Charset=ISO-8859-1".toList] := splitOn_eq_iff.mp (by decide)
  have hparameter : IsParameter " Charset=ISO-8859-1".toList "Charset".toList
      "ISO-8859-1".toList :=
    ⟨by decide, "ISO-8859-1".toList, by decide, 0, 0, by decide, by decide, by decide⟩
  have hknown : Charset.latin1.IsKnownAs "ISO-8859-1".toList :=
    ⟨"ISO-8859-1", by decide, by decide⟩
  refine .known ⟨["text/plain".toList], _, [], _, hdivided, hparameter, by decide, ?_⟩ hknown
  rintro earlier hearlier name value ⟨-, text, htext, -⟩
  obtain rfl := List.mem_singleton.mp hearlier
  have hequals : '=' ∈ "text/plain".toList.filter (· ≠ ' ') := by
    rw [htext]
    simp
  exact absurd hequals (by decide)

/-- With a capital letter in the name of the parameter, and with a letter that is not
ASCII behind the label, the body is not read in the charset that the parameter
designates. -/
theorem capitalized_name_passed_over :
    Designates (EqualIgnoringCase · charsetName)
      "text/plain; Charset=ISO-8859-1".toList .latin1 ∧
      lowered (typed (Utf8.encode "text/plain; Charset=ISO-8859-1")).headers =
        lowered (typed (Utf8.encode "text/plain; charset=ISO-8859-1")).headers ∧
      (default.receive "http://h/"
        (typed (Utf8.encode "text/plain; charset=ISO-8859-1"))).map (·.body) = .ok "é" ∧
      (default.receive "http://h/"
        (typed (Utf8.encode "text/plain; Charset=ISO-8859-1"))).map (·.body) =
        .ok "\uFFFD" ∧
      (default.receive "http://h/"
        (typed (Utf8.encode "text/plain; charset=ISO-8859-1; name=" ++ [0xE9]))).map (·.body) =
        .ok "\uFFFD" := by
  have hbody : ∀ contentType, (default.receive "http://h/" (typed contentType)).map (·.body) =
      .ok (bodyText (charsetOf (typed contentType).headers) [0xE9]) := by
    intro contentType
    rw [receive_typed]
    rfl
  rw [hbody, hbody, hbody]
  exact ⟨designates_capitalized, by decide +kernel⟩

end Jose.Fetch.Get
