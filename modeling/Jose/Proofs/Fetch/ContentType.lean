import Jose.Fetch.Get
import Jose.Proofs.Text.Charset
import Jose.Proofs.Text.LetterCase
import Jose.Proofs.Text.Separated

/-! The charset that a content type designates: its parameters as parts between
semicolons, and what capital letters in them change. Labels of charsets are known in any
case, but the name of the parameter that holds them only in small letters. -/
namespace Jose.Fetch.Get
open Text

/-! ## Quotes -/

/-- The text is the value with any quotes around it, of which the value has none at its
ends. -/
def Unquoted (text value : List Char) : Prop :=
  ∃ before after, text = List.replicate before '"' ++ value ++ List.replicate after '"' ∧
    value.head? ≠ some '"' ∧ value.getLast? ≠ some '"'

theorem dropWhile_eq_iff {x : Char} {cs rest : List Char} :
    cs.dropWhile (· = x) = rest ↔
      (∃ n, cs = List.replicate n x ++ rest) ∧ rest.head? ≠ some x := by
  constructor
  · rintro rfl
    induction cs with
    | nil => exact ⟨⟨0, rfl⟩, by simp⟩
    | cons c cs ih =>
      rw [List.dropWhile_cons]
      split
      · next hc =>
        obtain ⟨⟨n, hn⟩, hhead⟩ := ih
        refine ⟨⟨n + 1, ?_⟩, hhead⟩
        rw [List.replicate_succ, List.cons_append, ← hn, of_decide_eq_true hc]
      · next hc => exact ⟨⟨0, rfl⟩, by simpa using hc⟩
  · rintro ⟨⟨n, rfl⟩, hhead⟩
    rw [List.dropWhile_append_of_pos (by simp)]
    cases rest with
    | nil => rfl
    | cons c rest => exact List.dropWhile_cons_of_neg (by simpa using hhead)

theorem trimQuotes_eq_iff {text value : List Char} :
    trimQuotes text = value ↔ Unquoted text value := by
  rw [trimQuotes, List.reverse_eq_iff, dropWhile_eq_iff, List.head?_reverse]
  constructor
  · rintro ⟨⟨after, hback⟩, hlast⟩
    rw [List.reverse_eq_iff, List.reverse_append, List.reverse_reverse,
      List.reverse_replicate, dropWhile_eq_iff] at hback
    obtain ⟨⟨before, hfront⟩, hhead⟩ := hback
    refine ⟨before, after, by rw [hfront, List.append_assoc], ?_, hlast⟩
    cases value with
    | nil => simp
    | cons c value => exact hhead
  · rintro ⟨before, after, rfl, hhead, hlast⟩
    refine ⟨?_, hlast⟩
    cases value with
    | nil => exact ⟨0, by simp⟩
    | cons c value =>
      refine ⟨after, ?_⟩
      rw [List.reverse_eq_iff, List.reverse_append, List.reverse_reverse,
        List.reverse_replicate, dropWhile_eq_iff]
      exact ⟨⟨before, List.append_assoc _ _ _⟩, hhead⟩

/-! ## Parameters -/

def charsetName : List Char := "charset".toList

/-- A part without its blanks is a name, an equals sign, and a value in quotes or
without. -/
def IsParameter (part name value : List Char) : Prop :=
  '=' ∉ name ∧ ∃ text, part.filter (· ≠ ' ') = name ++ '=' :: text ∧ Unquoted text value

/-- The first parameter with such a name. What precedes the parameters is a part as
well. -/
def IsFirst (isName : List Char → Prop) (contentType label : List Char) : Prop :=
  ∃ before part after name, IsDivided ';' contentType (before ++ part :: after) ∧
    IsParameter part name label ∧ isName name ∧
    ∀ earlier ∈ before, ∀ name' value, IsParameter earlier name' value → ¬isName name'

theorem IsParameter.name_eq {part name value : List Char} (h : IsParameter part name value) :
    name = (part.filter (· ≠ ' ')).takeWhile (· ≠ '=') := by
  obtain ⟨hname, text, htext, -⟩ := h
  have hall : ∀ c ∈ name, decide (c ≠ '=') = true := by
    intro c hc
    exact decide_eq_true fun heq => hname (heq ▸ hc)
  rw [htext, List.takeWhile_append_of_pos hall]
  simp

/-- The label in a part. -/
def labelIn? (part : List Char) : Option String :=
  let bare := part.filter (· ≠ ' ')
  if charsetPrefix.isPrefixOf bare then
    some (String.ofList (trimQuotes (bare.drop charsetPrefix.length))) else none

theorem declaredCharset?_eq (contentType : List Char) :
    declaredCharset? contentType = (contentType.splitOn ';').findSome? labelIn? := by
  rw [declaredCharset?, splitOn_filter (by decide), List.findSome?_map]
  rfl

theorem charsetPrefix_append (text : List Char) :
    charsetPrefix ++ text = charsetName ++ '=' :: text := rfl

theorem labelIn?_eq_some_iff {part : List Char} {label : String} :
    labelIn? part = some label ↔ IsParameter part charsetName label.toList := by
  have hname : '=' ∉ charsetName := by decide
  rw [labelIn?]
  constructor
  · intro h
    split at h
    · next hprefix =>
      obtain ⟨text, htext⟩ := List.isPrefixOf_iff_prefix.mp hprefix
      obtain rfl := Option.some.inj h
      refine ⟨hname, text, htext.symm, trimQuotes_eq_iff.mp ?_⟩
      rw [← htext, List.drop_left, String.toList_ofList]
    · cases h
  · rintro ⟨-, text, htext, hvalue⟩
    rw [htext, ← charsetPrefix_append,
      if_pos (List.isPrefixOf_iff_prefix.mpr (List.prefix_append _ _)),
      List.drop_left, trimQuotes_eq_iff.mpr hvalue, String.ofList_toList]

theorem labelIn?_eq_none_iff {part : List Char} :
    labelIn? part = none ↔ ∀ name value, IsParameter part name value →
      ¬name = charsetName := by
  rw [Option.eq_none_iff_forall_ne_some]
  constructor
  · rintro h name value hpart rfl
    exact h (String.ofList value) (labelIn?_eq_some_iff.mpr (by rwa [String.toList_ofList]))
  · intro h label hlabel
    exact h _ _ (labelIn?_eq_some_iff.mp hlabel) rfl

/-- Only small letters make the name. -/
theorem declaredCharset?_eq_some_iff {contentType : List Char} {label : String} :
    declaredCharset? contentType = some label ↔
      IsFirst (· = charsetName) contentType label.toList := by
  rw [declaredCharset?_eq, List.findSome?_eq_some_iff]
  simp only [labelIn?_eq_some_iff, labelIn?_eq_none_iff]
  constructor
  · rintro ⟨before, part, after, hsplit, hpart, hbefore⟩
    exact ⟨before, part, after, charsetName, splitOn_eq_iff.mp hsplit, hpart, rfl, hbefore⟩
  · rintro ⟨before, part, after, name, hdivided, hpart, rfl, hbefore⟩
    exact ⟨before, part, after, splitOn_eq_iff.mpr hdivided, hpart, hbefore⟩

theorem declaredCharset?_eq_none_iff {contentType : List Char} :
    declaredCharset? contentType = none ↔
      ∀ label, ¬IsFirst (· = charsetName) contentType label := by
  rw [Option.eq_none_iff_forall_ne_some]
  constructor
  · intro h label hfirst
    exact h (String.ofList label)
      (declaredCharset?_eq_some_iff.mpr (by rwa [String.toList_ofList]))
  · intro h label hlabel
    exact h _ (declaredCharset?_eq_some_iff.mp hlabel)

/-! ## Charsets -/

/-- The charset that a content type designates, given which names the parameter may
have. -/
inductive Designates (isName : List Char → Prop) (contentType : List Char) :
    Charset → Prop where
  | known {label : List Char} {charset : Charset} (hfirst : IsFirst isName contentType label)
    (hknown : charset.IsKnownAs label) : Designates isName contentType charset
  | unknown {label : List Char} (hfirst : IsFirst isName contentType label)
    (hunknown : ∀ charset : Charset, ¬charset.IsKnownAs label) :
    Designates isName contentType .utf8
  | absent (habsent : ∀ label, ¬IsFirst isName contentType label) : Designates isName
      contentType .utf8

/-- The first content type, if it is text. -/
def contentType? (headers : List (String × Bytes)) : Option (List Char) :=
  ((headerBytes? "content-type" headers).filter (·.all isVisible)).map (·.map Charset.charOf)

/-- What a content type is taken for. -/
def designated (contentType : List Char) : Charset :=
  ((declaredCharset? contentType).bind Charset.ofName?).getD .utf8

theorem charsetOf_eq (headers : List (String × Bytes)) :
    charsetOf headers = ((contentType? headers).map designated).getD .utf8 := by
  rw [charsetOf, contentType?]
  cases headerBytes? "content-type" headers with
  | none => rfl
  | some value =>
    cases hvisible : value.all isVisible <;> simp [Option.filter, hvisible, designated]

theorem designates_designated (contentType : List Char) :
    Designates (· = charsetName) contentType (designated contentType) := by
  rw [designated]
  cases hdeclared : declaredCharset? contentType with
  | none => exact .absent (declaredCharset?_eq_none_iff.mp hdeclared)
  | some label =>
    have hfirst := declaredCharset?_eq_some_iff.mp hdeclared
    rw [Option.bind_some]
    cases hname : Charset.ofName? label with
    | none =>
      refine .unknown hfirst fun charset hknown => ?_
      rw [Charset.ofName?_eq_some_iff.mpr hknown] at hname
      cases hname
    | some charset => exact .known hfirst (Charset.ofName?_eq_some_iff.mp hname)

theorem Designates.designated_eq {contentType : List Char} {charset : Charset}
    (h : Designates (· = charsetName) contentType charset) :
    designated contentType = charset := by
  have hdeclared : ∀ label, IsFirst (· = charsetName) contentType label →
      declaredCharset? contentType = some (String.ofList label) := fun label hfirst =>
    declaredCharset?_eq_some_iff.mpr (by rwa [String.toList_ofList])
  cases h with
  | @known label _ hfirst hknown =>
    have hname : Charset.ofName? (String.ofList label) = some charset :=
      Charset.ofName?_eq_some_iff.mpr (by rwa [String.toList_ofList])
    rw [designated, hdeclared label hfirst, Option.bind_some, hname, Option.getD_some]
  | @unknown label hfirst hunknown =>
    have hname : Charset.ofName? (String.ofList label) = none := by
      rw [Option.eq_none_iff_forall_ne_some]
      intro charset hknown
      rw [Charset.ofName?_eq_some_iff, String.toList_ofList] at hknown
      exact hunknown charset hknown
    rw [designated, hdeclared label hfirst, Option.bind_some, hname, Option.getD_none]
  | absent habsent =>
    rw [designated, declaredCharset?_eq_none_iff.mpr habsent, Option.bind_none,
      Option.getD_none]

theorem designated_eq_iff {contentType : List Char} {charset : Charset} :
    designated contentType = charset ↔ Designates (· = charsetName) contentType charset := by
  constructor
  · rintro rfl
    exact designates_designated contentType
  · exact Designates.designated_eq

/-! ## Letter case -/

/-- No parameter has the name in other letters than small ones. -/
def NamedInSmallLetters (contentType : List Char) : Prop :=
  ∀ parts, IsDivided ';' contentType parts →
    ∀ part ∈ parts, ∀ name value, IsParameter part name value →
    EqualIgnoringCase name charsetName → name = charsetName

theorem isFirst_iff_of_small {contentType label : List Char}
    (hsmall : NamedInSmallLetters contentType) :
    IsFirst (· = charsetName) contentType label ↔
      IsFirst (EqualIgnoringCase · charsetName) contentType label := by
  constructor
  · rintro ⟨before, part, after, name, hdivided, hpart, rfl, hbefore⟩
    refine ⟨before, part, after, charsetName, hdivided, hpart, rfl, ?_⟩
    intro earlier hearlier name value hparameter hname
    have hmem : earlier ∈ before ++ part :: after := List.mem_append_left _ hearlier
    exact hbefore earlier hearlier name value hparameter
      (hsmall _ hdivided earlier hmem name value hparameter hname)
  · rintro ⟨before, part, after, name, hdivided, hpart, hname, hbefore⟩
    have hmem : part ∈ before ++ part :: after := by simp
    refine ⟨before, part, after, name, hdivided, hpart,
      hsmall _ hdivided part hmem name label hpart hname, ?_⟩
    rintro earlier hearlier name value hparameter rfl
    exact hbefore earlier hearlier _ value hparameter rfl

theorem Designates.congr {isName isName' : List Char → Prop} {contentType : List Char}
    {charset : Charset}
    (hsame : ∀ label, IsFirst isName contentType label ↔ IsFirst isName' contentType label)
    (h : Designates isName contentType charset) : Designates isName' contentType charset := by
  cases h with
  | known hfirst hknown => exact .known ((hsame _).mp hfirst) hknown
  | unknown hfirst hunknown => exact .unknown ((hsame _).mp hfirst) hunknown
  | absent habsent =>
    exact .absent fun label hfirst => habsent label ((hsame label).mpr hfirst)

theorem designates_iff_of_small {contentType : List Char} {charset : Charset}
    (hsmall : NamedInSmallLetters contentType) :
    Designates (· = charsetName) contentType charset ↔
      Designates (EqualIgnoringCase · charsetName) contentType charset :=
  ⟨.congr fun _ => isFirst_iff_of_small hsmall, .congr fun _ =>
    (isFirst_iff_of_small hsmall).symm⟩

theorem filter_blank_map_toLower (cs : List Char) :
    (cs.map Char.toLower).filter (· ≠ ' ') = (cs.filter (· ≠ ' ')).map Char.toLower := by
  rw [List.filter_map]
  congr 1
  refine List.filter_congr fun c _ => ?_
  simp [toLower_eq_iff (c := c) (d := ' ') (by decide)]

theorem trimQuotes_map_toLower (text : List Char) :
    trimQuotes (text.map Char.toLower) = (trimQuotes text).map Char.toLower := by
  have hquote : ((fun c : Char => decide (c = '"')) ∘ Char.toLower) = fun c =>
      decide (c = '"') := by
    funext c
    simp [toLower_eq_iff (c := c) (d := '"') (by decide)]
  simp only [trimQuotes, List.dropWhile_map, ← List.map_reverse, hquote]

/-- Capital letters elsewhere in a part do no harm. -/
theorem labelIn?_map_toLower {part : List Char}
    (hsmall : ∀ name value, IsParameter part name value →
      EqualIgnoringCase name charsetName → name = charsetName) :
    labelIn? (part.map Char.toLower) = (labelIn? part).map String.toLower := by
  have hprefixLower : charsetPrefix.map Char.toLower = charsetPrefix := by decide
  simp only [labelIn?, filter_blank_map_toLower]
  by_cases hprefix : charsetPrefix <+: part.filter (· ≠ ' ')
  · obtain ⟨text, htext⟩ := hprefix
    rw [← htext, List.map_append, hprefixLower]
    simp [trimQuotes_map_toLower, toLower_ofList]
  · -- The small letters make a prefix only of a name with a capital one, and there is none.
    have hother : ¬charsetPrefix <+: (part.filter (· ≠ ' ')).map Char.toLower := by
      rintro ⟨text, htext⟩
      rw [charsetPrefix_append] at htext
      obtain ⟨name, rest, hbare, hname, hrest⟩ := List.map_eq_append_iff.mp htext.symm
      obtain ⟨c, value, rfl, hc, -⟩ := List.map_eq_cons_iff.mp hrest
      obtain rfl : c = '=' := (toLower_eq_iff (by decide)).mp hc
      have hequals : '=' ∉ name := by
        intro hmem
        have hlower : '=' ∈ charsetName :=
          hname ▸ List.mem_map_of_mem (f := Char.toLower) hmem
        exact absurd hlower (by decide)
      have hcharset : name = charsetName :=
        hsmall name _ ⟨hequals, value, hbare,
          trimQuotes_eq_iff.mp rfl⟩ (hname.trans (by decide))
      exact hprefix ⟨value, by rw [hbare, hcharset, charsetPrefix_append]⟩
    rw [if_neg (mt List.isPrefixOf_iff_prefix.mp hother),
      if_neg (mt List.isPrefixOf_iff_prefix.mp hprefix)]
    rfl

theorem findSome?_congr {α β : Type} {f f' : α → Option β} {as : List α}
    (h : ∀ a ∈ as, f a = f' a) : as.findSome? f = as.findSome? f' := by
  rw [← List.head?_filterMap, ← List.head?_filterMap, List.filterMap_congr h]

theorem designated_map_toLower {contentType : List Char}
    (hsmall : NamedInSmallLetters contentType) :
    designated (contentType.map Char.toLower) = designated contentType := by
  have hparts : (contentType.map Char.toLower).splitOn ';' =
      (contentType.splitOn ';').map (List.map Char.toLower) :=
    splitOn_map (fun c => toLower_eq_iff (by decide)) contentType
  have hlabel : declaredCharset? (contentType.map Char.toLower) =
      (declaredCharset? contentType).map String.toLower := by
    rw [declaredCharset?_eq, declaredCharset?_eq, hparts, List.findSome?_map,
      List.map_findSome?]
    refine findSome?_congr fun part hpart => ?_
    exact labelIn?_map_toLower (hsmall _ (splitOn_eq_iff.mp rfl) part hpart)
  rw [designated, designated, hlabel]
  cases declaredCharset? contentType with
  | none => rfl
  | some label => exact congrArg (·.getD .utf8) (Charset.ofName?_toLower label)

/-- The first content type in small letters, whether or not it is text. -/
def lowered (headers : List (String × Bytes)) : Option (List Char) :=
  (headerBytes? "content-type" headers).map (·.map fun b => (Charset.charOf b).toLower)

def isVisibleChar (c : Char) : Bool := decide (c.toNat = 9 ∨ 32 ≤ c.toNat ∧ c.toNat < 127)

theorem isVisibleChar_toLower (b : UInt8) :
    isVisibleChar (Charset.charOf b).toLower = isVisible b := by
  have hcode : isVisible b = decide (b.toNat = 9 ∨ 32 ≤ b.toNat ∧ b.toNat < 127) := by
    simp [isVisible, ← UInt8.toNat_inj, UInt8.le_iff_toNat_le, UInt8.lt_iff_toNat_lt]
  rw [hcode, isVisibleChar, toNat_toLower, Charset.toNat_charOf, decide_eq_decide]
  split <;> omega

/-- A content type is text in any case or in none. -/
theorem contentType?_map_toLower (headers : List (String × Bytes)) :
    (contentType? headers).map (·.map Char.toLower) =
      (lowered headers).filter (·.all isVisibleChar) := by
  rw [contentType?, lowered]
  cases headerBytes? "content-type" headers with
  | none => rfl
  | some value =>
    have hall : (value.map fun b => (Charset.charOf b).toLower).all isVisibleChar =
        value.all isVisible := by
      rw [List.all_map]
      exact congrArg value.all (funext isVisibleChar_toLower)
    simp only [Option.map_some, Option.filter_some, hall]
    split
    · simp only [Option.map_some, List.map_map]
      rfl
    · rfl

/-- The content type is so named, if it is text. -/
def SmallLettersOnly (headers : List (String × Bytes)) : Prop :=
  ∀ contentType, contentType? headers = some contentType → NamedInSmallLetters contentType

theorem smallLettersOnly_of_forall {headers : List (String × Bytes)} (contentType : List Char)
    (hcontentType : contentType? headers = some contentType)
    (hparts : ∀ part ∈ contentType.splitOn ';',
      EqualIgnoringCase ((part.filter (· ≠ ' ')).takeWhile (· ≠ '=')) charsetName →
        (part.filter (· ≠ ' ')).takeWhile (· ≠ '=') = charsetName) :
    SmallLettersOnly headers := by
  intro contentType' hcontentType' parts hdivided part hmem name value hparameter hname
  obtain rfl := Option.some.inj (hcontentType.symm.trans hcontentType')
  rw [← splitOn_eq_iff.mpr hdivided] at hmem
  rw [hparameter.name_eq] at hname ⊢
  exact hparts part hmem hname

theorem charsetOf_congr {headers headers' : List (String × Bytes)}
    (hlowered : lowered headers' = lowered headers)
    (hsmall : SmallLettersOnly headers) (hsmall' : SmallLettersOnly headers') :
    charsetOf headers' = charsetOf headers := by
  have hdesignated : ∀ headers, SmallLettersOnly headers →
    (contentType? headers).map designated =
      ((contentType? headers).map (·.map Char.toLower)).map designated := by
    intro headers hsmall
    rw [Option.map_map]
    refine Option.map_congr fun contentType hcontentType => ?_
    exact (designated_map_toLower (hsmall contentType hcontentType)).symm
  rw [charsetOf_eq, charsetOf_eq, hdesignated headers' hsmall', hdesignated headers hsmall,
    contentType?_map_toLower, contentType?_map_toLower, hlowered]

end Jose.Fetch.Get
