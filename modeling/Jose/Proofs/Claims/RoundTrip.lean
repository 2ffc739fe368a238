import Jose.Proofs.Claims.DateRules
import Jose.Proofs.Claims.Validator
import Jose.Proofs.Json.Depth
import Jose.Proofs.Json.Read

/-! Claims that are set and unset one after the other, written as JSON and read again.
Under each name there is what was last set under it, and the getter of a registered claim
gives back what its setter was given, before and after. -/
namespace Jose.Claims
open Text Result Json

/-! ## As JSON -/

def value (claims : Claims) : Json.Value := .object claims.members

variable {claims claims' : Claims}

theorem parse_eq_ok_iff {json : String} :
    parse json = .ok claims ↔ Json.parseText json = .ok claims.value := by
  rw [parse, value]
  cases Json.parseText json with
  | error f => simp
  | ok v =>
    cases claims
    cases v <;> simp

/-- What is not nested too deep is read as what it was written from, but for doubles. -/
theorem parse_json_eq_ok_iff (h : claims.value.WellFormed) :
    parse claims.json = .ok claims' ↔
      claims.value.depth ≤ maxDepth ∧
        claims'.value = claims.value.mapNumbers Number.reread := by
  have hjson : Json.parseText claims.json = Json.parse (Utf8.encode claims.value.text) := rfl
  rw [parse_eq_ok_iff, hjson]
  constructor
  · intro hparse
    have hdepth := (exists_parse_text_iff h).mp ⟨_, hparse⟩
    rw [parse_text h hdepth] at hparse
    exact ⟨hdepth, (Except.ok.inj hparse).symm⟩
  · rintro ⟨hdepth, heq⟩
    rw [parse_text h hdepth, heq]

theorem parse_json {claims : Claims} (h : claims.value.WellFormed)
    (hintegral : claims.value.Integral)
    (hdepth : claims.value.depth ≤ Json.maxDepth) : parse claims.json = .ok claims :=
  parse_eq_ok_iff.mpr (Json.parse_text_of_integral h hintegral hdepth)

theorem get?_of_parse_json (h : claims.value.WellFormed)
    (hparse : parse claims.json = .ok claims') (name : String) :
    claims'.get? name = (claims.get? name).map (Value.mapNumbers Number.reread) := by
  have hmembers := Value.object.inj ((parse_json_eq_ok_iff h).mp hparse).2
  rw [get?, get?, hmembers, Value.get?_mapMembers]

/-- A value without doubles, whatever is beside it. -/
theorem get?_of_parse_json_of_integral (h : claims.value.WellFormed)
    (hparse : parse claims.json = .ok claims')
    {name : String} {value : Value} (hvalue : value.WellFormed) (hintegral : value.Integral)
    (hget : claims.get? name = some value) : claims'.get? name = some value := by
  rw [get?_of_parse_json h hparse, hget, Option.map_some, hvalue.mapNumbers_reread hintegral]

/-! ## Registered claims -/

/-- What the setters of registered claims are given. -/
inductive Setting where
  | issuer (s : String)
  | subject (s : String)
  | tokenId (s : String)
  | freshTokenId (random : Bytes)
  | audience (items : List String)
  | expiration (date : NumericDate)
  | expirationIn (now : NumericDate) (minutes : Decimal.Binary64)
  | notBefore (date : NumericDate)
  | notBeforeAgo (now : NumericDate) (minutes : Decimal.Binary64)
  | issuedAt (date : NumericDate)
  | issuedNow (now : NumericDate)
  deriving Repr

namespace Setting

def run : Setting → Claims → Claims
  | issuer s => setString "iss" s
  | subject s => setString "sub" s
  | tokenId s => setString "jti" s
  | freshTokenId random => setFreshTokenId random
  | audience items => setAudience items
  | expiration date => setDate "exp" date
  | expirationIn now minutes => setExpirationIn now minutes
  | notBefore date => setDate "nbf" date
  | notBeforeAgo now minutes => setNotBeforeAgo now minutes
  | issuedAt date => setDate "iat" date
  | issuedNow now => setIssuedNow now

def name : Setting → String
  | issuer _ => "iss"
  | subject _ => "sub"
  | tokenId _ | freshTokenId _ => "jti"
  | audience _ => "aud"
  | expiration _ | expirationIn _ _ => "exp"
  | notBefore _ | notBeforeAgo _ _ => "nbf"
  | issuedAt _ | issuedNow _ => "iat"

/-- A list of one audience is written as a string, and an empty list as a list. -/
def written : Setting → Value
  | issuer s | subject s | tokenId s | audience [s] => .string s
  | freshTokenId random => .string (Base64Url.encode random)
  | audience items => .strings items
  | expiration date | notBefore date | issuedAt date | issuedNow date => .integer date.seconds
  | expirationIn now minutes => .integer (now.afterMinutes minutes).seconds
  | notBeforeAgo now minutes => .integer (now.afterMinutes minutes.neg).seconds

/-- The getter of the claim gives what was set. -/
def IsRead : Setting → Claims → Prop
  | issuer s, c => c.issuer? = .ok (some s)
  | subject s, c => c.subject? = .ok (some s)
  | tokenId s, c => c.tokenId? = .ok (some s)
  | freshTokenId random, c => c.tokenId? = .ok (some (Base64Url.encode random))
  | audience items, c => c.audience = .ok items ∧ c.hasAudience = true
  | expiration date, c => c.expiration? = .ok (some date)
  | expirationIn now minutes, c => c.expiration? = .ok (some (now.afterMinutes minutes))
  | notBefore date, c => c.notBefore? = .ok (some date)
  | notBeforeAgo now minutes, c => c.notBefore? = .ok (some (now.afterMinutes minutes.neg))
  | issuedAt date, c | issuedNow date, c => c.issuedAt? = .ok (some date)

/-- A date is in the range of dates. -/
def WellFormed : Setting → Prop
  | expiration date | notBefore date | issuedAt date | issuedNow date => date.InRange
  | _ => True

variable {s : Setting}

theorem run_eq_set (s : Setting) (c : Claims) : s.run c = c.set s.name s.written := by
  cases s with
  | audience items =>
    cases items with
    | nil => rfl
    | cons item items => cases items <;> rfl
  | _ => rfl

theorem inRange_afterMinutes (now : NumericDate) (minutes : Decimal.Binary64) :
    (now.afterMinutes minutes).InRange :=
  NumericDate.inRange_clamp _

theorem written_audience (items : List String) :
    (∃ s, items = [s] ∧ (audience items).written = .string s) ∨
      (audience items).written = .strings items := by
  cases items with
  | nil => exact .inr rfl
  | cons item items =>
    cases items with
    | nil => exact .inl ⟨item, rfl, rfl⟩
    | cons => exact .inr rfl

/-- The forms that registered claims have. -/
theorem written_cases (s : Setting) :
    (∃ t, s.written = .string t) ∨ (∃ items, s.written = .strings items) ∨
      ∃ date : NumericDate, s.written = .integer date.seconds ∧
        (s.WellFormed → date.InRange) := by
  cases s with
  | issuer | subject | tokenId | freshTokenId => exact .inl ⟨_, rfl⟩
  | audience items =>
    rcases written_audience items with ⟨s, -, h⟩ | h
    · exact .inl ⟨s, h⟩
    · exact .inr (.inl ⟨items, h⟩)
  | expiration | notBefore | issuedAt | issuedNow => exact .inr (.inr ⟨_, rfl, id⟩)
  | expirationIn
  | notBeforeAgo => exact .inr (.inr ⟨_, rfl, fun _ => inRange_afterMinutes _ _⟩)

theorem wellFormed_written (h : s.WellFormed) : s.written.WellFormed := by
  rcases s.written_cases with ⟨t, ht⟩ | ⟨items, hitems⟩ | ⟨date, hdate, hrange⟩
  · exact ht ▸ .string t
  · exact hitems ▸ Value.wellFormed_strings items
  · obtain ⟨hmin, hmax⟩ := hrange h
    exact hdate ▸ .number ⟨hmin, Int.le_trans hmax (by decide)⟩

theorem integral_written (s : Setting) : s.written.Integral := by
  rcases s.written_cases with ⟨t, ht⟩ | ⟨items, hitems⟩ | ⟨date, hdate, -⟩
  · exact ht ▸ .string t
  · exact hitems ▸ Value.integral_strings items
  · exact hdate ▸ .integer date.seconds

theorem date?_of_get? {name : String} {date : NumericDate} (hdate : date.InRange)
    (h : claims.get? name = some (.integer date.seconds)) :
    claims.date? name = .ok (some date) :=
  date?_eq_ok_iff.mpr (.inr ⟨_, h, congrArg some (NumericDate.clamp_of_inRange hdate).symm⟩)

theorem stringList_of_get? {name : String} {items : List String}
    (h : claims.get? name = some (audience items).written) :
    claims.stringList name = .ok items := by
  rw [stringList_eq_ok_iff, h]
  rcases written_audience items with ⟨s, hitems, hwritten⟩ | hwritten
  · exact .inr (.inl ⟨s, congrArg some hwritten, hitems⟩)
  · exact .inr (.inr (congrArg some hwritten))

/-- Whatever the claims are besides, and wherever they come from. -/
theorem isRead_of_get? (hs : s.WellFormed) (h : claims.get? s.name = some s.written) :
    s.IsRead claims := by
  cases s with
  | issuer | subject | tokenId | freshTokenId => exact string?_eq_ok_some_iff.mpr h
  | audience items => exact ⟨stringList_of_get? h, Option.isSome_of_eq_some h⟩
  | expiration | notBefore | issuedAt | issuedNow => exact date?_of_get? hs h
  | expirationIn | notBeforeAgo => exact date?_of_get? (inRange_afterMinutes _ _) h

end Setting

/-! ## Runs -/

inductive Edit where
  | set (name : String) (value : Value)
  | unset (name : String)
  | register (setting : Setting)
  deriving Repr

namespace Edit

def run : Edit → Claims → Claims
  | set name value, c => c.set name value
  | unset name, c => c.unset name
  | register setting, c => setting.run c

def name : Edit → String
  | set name _ | unset name => name
  | register setting => setting.name

/-- What is under the name afterwards. -/
def result : Edit → Option Value
  | set _ value => some value
  | unset _ => none
  | register setting => some setting.written

/-- What is set is a value of JSON. -/
def WellFormed : Edit → Prop
  | set _ value => value.WellFormed
  | unset _ => True
  | register setting => setting.WellFormed

theorem get?_run (h : claims.value.WellFormed) (e : Edit) (name : String) :
    (e.run claims).get? name = if e.name = name then e.result else claims.get? name := by
  cases e with
  | set k value => exact Named.get?_insert name k value claims.members
  | unset k =>
    cases h with
    | object hordered _ => exact Named.get?_erase hordered name k
  | register setting =>
    rw [run, setting.run_eq_set]
    exact Named.get?_insert name setting.name setting.written claims.members

theorem wellFormed_run {e : Edit} (he : e.WellFormed) (h : claims.value.WellFormed) :
    (e.run claims).value.WellFormed := by
  cases e with
  | set k value => exact h.insert k he
  | unset k => exact h.erase k
  | register setting =>
    rw [run, setting.run_eq_set]
    exact h.insert setting.name (Setting.wellFormed_written he)

end Edit

def after (edits : List Edit) (c : Claims) : Claims := edits.foldl (fun c e => e.run c) c

variable {edits : List Edit}

theorem wellFormed_after (hedits : ∀ e ∈ edits, e.WellFormed) (h : claims.value.WellFormed) :
    (after edits claims).value.WellFormed := by
  induction edits generalizing claims with
  | nil => exact h
  | cons e edits ih =>
    obtain ⟨he, hedits⟩ := List.forall_mem_cons.mp hedits
    exact ih hedits (Edit.wellFormed_run he h)

theorem get?_after_of_forall_ne {name : String} (hedits : ∀ e ∈ edits, e.WellFormed)
    (h : claims.value.WellFormed) (hne : ∀ e ∈ edits, e.name ≠ name) :
    (after edits claims).get? name = claims.get? name := by
  induction edits generalizing claims with
  | nil => rfl
  | cons e edits ih =>
    obtain ⟨he, hedits⟩ := List.forall_mem_cons.mp hedits
    obtain ⟨hfirst, hne⟩ := List.forall_mem_cons.mp hne
    have hrest : (after edits (e.run claims)).get? name = (e.run claims).get? name :=
      ih hedits (Edit.wellFormed_run he h) hne
    rw [Edit.get?_run h, if_neg hfirst] at hrest
    exact hrest

/-- What comes before the last edit under a name, and the edits under other names, have no
part in it. -/
theorem get?_after_append {before later : List Edit} {e : Edit}
    (hedits : ∀ e' ∈ before ++ e :: later, e'.WellFormed)
    (h : claims.value.WellFormed) (hne : ∀ e' ∈ later, e'.name ≠ e.name) :
    (after (before ++ e :: later) claims).get? e.name = e.result := by
  obtain ⟨hbefore, hrest⟩ := List.forall_mem_append.mp hedits
  obtain ⟨he, hlater⟩ := List.forall_mem_cons.mp hrest
  have hstart := wellFormed_after hbefore h
  rw [after, List.foldl_append, List.foldl_cons, ← after, ← after,
    get?_after_of_forall_ne hlater (Edit.wellFormed_run he hstart) hne,
      Edit.get?_run hstart, if_pos rfl]

theorem wellFormed_of_start (h : claims = empty ∨ ∃ json, parse json = .ok claims) :
    claims.value.WellFormed := by
  rcases h with rfl | ⟨json, hparse⟩
  · exact Value.wellFormed_empty
  · exact wellFormed_of_parse (parse_eq_ok_iff.mp hparse)

/-- Claims that are new or were read, after any edits: they are read again as the claims
that they are, unless there are doubles among them or they are nested too deep. A
registered claim that nothing was done to since it was set is written as it was set and
comes out of its getter, then and after it was read again, whatever else there is. An edit
leaves what is under other names as it was. -/
theorem claims_read_back_as_set {start : Claims}
    (hstart : start = empty ∨ ∃ json, parse json = .ok start)
    (hedits : ∀ e ∈ edits, e.WellFormed) :
    ((after edits start).value.Integral → (after edits start).value.depth ≤ maxDepth →
      parse (after edits start).json = .ok (after edits start)) ∧
    (∀ before setting later, edits = before ++ .register setting :: later →
      (∀ e ∈ later, e.name ≠ setting.name) →
      ∀ c, c = after edits start ∨ parse (after edits start).json = .ok c →
        c.get? setting.name = some setting.written ∧ setting.IsRead c) ∧
    ∀ (e : Edit) name, (e.run (after edits start)).get? name =
      if e.name = name then e.result else (after edits start).get? name := by
  have hwellFormed := wellFormed_after hedits (wellFormed_of_start hstart)
  refine ⟨parse_json hwellFormed, fun before setting later hsplit hlater c hc => ?_,
    Edit.get?_run hwellFormed⟩
  subst hsplit
  have hsetting : setting.WellFormed := hedits (.register setting) (by simp)
  have hset : (after (before ++ .register setting :: later) start).get? setting.name =
      some setting.written :=
    get?_after_append hedits (wellFormed_of_start hstart) hlater
  have hget : c.get? setting.name = some setting.written := by
    rcases hc with rfl | hparse
    · exact hset
    · exact get?_of_parse_json_of_integral hwellFormed hparse
        (Setting.wellFormed_written hsetting) setting.integral_written hset
  exact ⟨hget, Setting.isRead_of_get? hsetting hget⟩

/-- Two audiences, and then one, over a claim of another type, and an integer that is as
large as one can be. -/
def overwritten : List Edit :=
  [.set "aud" .null, .register (.issuer "\x00é\""), .register (.audience ["one", "two"]),
    .register (.expiration ⟨NumericDate.minSeconds⟩), .register (.audience ["one"]),
    .set "limits" (.object [("most", .array [.integer 0xffffffffffffffff])]), .unset "sub"]

theorem claims_read_back_as_set_overwritten :
    parse (after overwritten empty).json = .ok (after overwritten empty) ∧
    (after overwritten empty).get? "aud" = some (.string "one") ∧
      (after overwritten empty).audience = .ok ["one"] ∧
    (after overwritten empty).issuer? = .ok (some "\x00é\"") ∧
    (after overwritten empty).expiration? = .ok (some ⟨NumericDate.minSeconds⟩) ∧
    ((after overwritten empty).unset "limits").get? "aud" = some (.string "one") := by
  have hlargest : (Value.integer 0xffffffffffffffff).WellFormed :=
    .number ⟨by decide, by decide⟩
  have hlimits : (Value.object [("most", .array [.integer 0xffffffffffffffff])]).WellFormed :=
    .object (List.pairwise_singleton _ _) (by simp [Value.WellFormed.array, hlargest])
  have hearliest : NumericDate.InRange ⟨NumericDate.minSeconds⟩ := by decide
  have hedits : ∀ e ∈ overwritten, e.WellFormed := by
    simp [overwritten, Edit.WellFormed, Setting.WellFormed, hlimits, hearliest,
      Value.WellFormed.null]
  have hintegral : (after overwritten empty).value.Integral := by
    have hmost :
        (Value.object [("most", .array [.integer 0xffffffffffffffff])]).Integral := by
      simp [Value.Integral.object, Value.Integral.array, Value.Integral.integer]
    have hmembers : (after overwritten empty).members = [("aud", .string "one"),
        ("exp", .integer NumericDate.minSeconds), ("iss", .string "\x00é\""),
        ("limits", .object [("most", .array [.integer 0xffffffffffffffff])])] := rfl
    refine .object ?_
    simp [hmembers, hmost, Value.Integral.string, Value.Integral.integer]
  obtain ⟨hread, hset, hedit⟩ := @claims_read_back_as_set overwritten empty (.inl rfl) hedits
  have haudience :=
    hset (overwritten.take 4) (.audience ["one"]) (overwritten.drop 5) rfl (by decide) _
      (.inl rfl)
  have hissuer :=
    hset (overwritten.take 1) (.issuer "\x00é\"") (overwritten.drop 2) rfl (by decide) _
      (.inl rfl)
  have hexpiration :=
    hset (overwritten.take 3) (.expiration ⟨NumericDate.minSeconds⟩)
      (overwritten.drop 4) rfl
      (by decide) _ (.inl rfl)
  exact ⟨hread hintegral (by decide), haudience.1, haudience.2.1, hissuer.2, hexpiration.2,
    (hedit (.unset "limits") "aud").trans haudience.1⟩

end Jose.Claims
