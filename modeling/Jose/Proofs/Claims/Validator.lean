import Jose.Claims.DateRules
import Jose.Proofs.Result

/-! What the checks ask of the claims, said of their JSON. A claim of another type than a
check reads does not pass it, whether or not the claim is required. -/
namespace Jose
open Result

namespace Claims
variable {c : Claims} {name : String}

theorem string?_eq_ok_none_iff : c.string? name = .ok none ↔ c.get? name = none := by
  rw [string?]
  cases c.get? name with
  | none => simp
  | some value => cases value <;> simp

theorem string?_eq_ok_some_iff {s : String} :
    c.string? name = .ok (some s) ↔ c.get? name = some (.string s) := by
  rw [string?]
  cases c.get? name with
  | none => simp
  | some value => cases value <;> simp

theorem stringList_eq_ok_iff {items : List String} : c.stringList name = .ok items ↔
    (c.get? name = none ∧ items = []) ∨ (∃ s, c.get? name = some (.string s) ∧ items = [s]) ∨
      c.get? name = some (.strings items) := by
  rw [stringList]
  cases c.get? name with
  | none => simp [eq_comm]
  | some value =>
    cases value with
    | array values =>
      refine Iff.trans (b := values = items.map .string)
        (mapM_eq_ok_iff_eq_map fun item s => ?_) ?_
      · cases item <;> simp [Json.Value.string?]
      · simp [Json.Value.strings]
    | _ => simp [Json.Value.strings, eq_comm]

/-- The claim is not there, or it is a number. -/
def Dated (c : Claims) (name : String) (date : Option NumericDate) : Prop :=
  (c.get? name = none ∧ date = none) ∨ ∃ n, c.get? name = some (.number n) ∧
    date = some (dateOf n)

theorem date?_eq_ok_iff {date : Option NumericDate} :
    c.date? name = .ok date ↔ c.Dated name date := by
  rw [date?, Dated]
  cases c.get? name with
  | none => simp [eq_comm]
  | some value => cases value <;> simp [eq_comm]

end Claims

variable {now : NumericDate} {claims : Claims}

namespace AudienceRule

/-- The audience is not there and need not be, or it has a value that is acceptable. -/
def Holds (rule : AudienceRule) (claims : Claims) : Prop :=
  (claims.get? "aud" = none ∧ rule.required = false) ∨
  (∃ audience, claims.get? "aud" = some (.string audience) ∧ audience ∈ rule.acceptable) ∨
  ∃ items, claims.get? "aud" = some (.strings items) ∧
    ∃ audience ∈ items, audience ∈ rule.acceptable

theorem validate_of_none {rule : AudienceRule} (h : claims.get? "aud" = none) :
    rule.validate claims =
      .ok (if rule.required then some "No Audience (aud) claim present." else none) := by
  have hno : claims.hasAudience = false := congrArg Option.isSome h
  rw [validate, hno]
  rfl

/-- An audience that is there is read, and it has to have a value that is acceptable. -/
theorem validate_of_some {rule : AudienceRule} {value : Json.Value}
    (h : claims.get? "aud" = some value) :
    rule.validate claims = .ok none ↔
      ∃ items, claims.audience = .ok items ∧
        ∃ audience ∈ items, audience ∈ rule.acceptable := by
  have hyes : claims.hasAudience = true := congrArg Option.isSome h
  rw [validate, hyes]
  refine bind_eq_ok_iff.trans (exists_congr fun items => and_congr_right fun _ => ?_)
  have hany : (items.any fun audience => decide (audience ∈ rule.acceptable)) = true ↔
      ∃ audience ∈ items, audience ∈ rule.acceptable := by
    simp
  rw [← hany]
  cases items.any fun audience => decide (audience ∈ rule.acceptable) with
  | true => simp [pure_eq_ok_iff]
  | false => cases rule.acceptable.isEmpty <;> simp [pure_eq_ok_iff]

theorem validate_eq_ok_none_iff {rule : AudienceRule} :
    rule.validate claims = .ok none ↔ rule.Holds claims := by
  cases h : claims.get? "aud" with
  | none => simp [validate_of_none h, Holds, h]
  | some value =>
    rw [validate_of_some h, Holds, Claims.audience]
    simp only [Claims.stringList_eq_ok_iff, h]
    constructor
    · rintro ⟨items, ⟨⟨⟩, -⟩ | ⟨audience, haudience, rfl⟩ | hitems, hmem⟩
      · exact .inr (.inl ⟨audience, haudience, by simpa using hmem⟩)
      · exact .inr (.inr ⟨items, hitems, hmem⟩)
    · rintro (⟨⟨⟩, -⟩ | ⟨audience, haudience, hmem⟩ | ⟨items, hitems, hmem⟩)
      · exact ⟨[audience], .inr (.inl ⟨audience, haudience, rfl⟩), by simpa using hmem⟩
      · exact ⟨items, .inr (.inr hitems), hmem⟩

end AudienceRule

namespace IssuerRule

/-- The issuer is not there and need not be, or it is one of those expected; any is, if
none are listed. -/
def Holds (rule : IssuerRule) (claims : Claims) : Prop :=
  (claims.get? "iss" = none ∧ rule.required = false) ∨
  ∃ issuer, claims.get? "iss" = some (.string issuer) ∧
    ∀ expected, rule.expected = some expected → issuer ∈ expected

theorem validate_eq_ok_none_iff {rule : IssuerRule} :
    rule.validate claims = .ok none ↔ rule.Holds claims := by
  rw [validate, bind_eq_ok_iff, Holds]
  constructor
  · rintro ⟨issuer, hissuer, h⟩
    cases issuer with
    | none =>
      refine .inl ⟨Claims.string?_eq_ok_none_iff.mp hissuer, ?_⟩
      cases hexpected : rule.expected <;> simp_all [pure_eq_ok_iff]
    | some issuer =>
      refine .inr ⟨issuer, Claims.string?_eq_ok_some_iff.mp hissuer, ?_⟩
      cases hexpected : rule.expected <;> simp_all [pure_eq_ok_iff]
  · rintro (⟨hnone, hrequired⟩ | ⟨issuer, hissuer, hmem⟩)
    · refine ⟨none, Claims.string?_eq_ok_none_iff.mpr hnone, ?_⟩
      cases rule.expected <;> simp [hrequired, pure_eq_ok_iff]
    · refine ⟨some issuer, Claims.string?_eq_ok_some_iff.mpr hissuer, ?_⟩
      cases hexpected : rule.expected with
      | none => rfl
      | some expected => simp [hmem expected hexpected, pure_eq_ok_iff]

end IssuerRule

namespace SubjectRule

/-- A subject that is expected is required, whether that is said or not. -/
theorem validate_of_expected (required : Bool) (subject : String) :
    (SubjectRule.mk required (some subject)).validate claims =
      (SubjectRule.mk true (some subject)).validate claims := by
  rw [validate, validate]
  cases claims.subject? with
  | error e => rfl
  | ok subject? => cases subject? <;> cases required <;> rfl

theorem validate_required_eq_ok_none_iff {expected : Option String} :
    (SubjectRule.mk true expected).validate claims = .ok none ↔
      ∃ subject, claims.get? "sub" = some (.string subject) ∧ ∀ s, expected = some s →
        subject = s := by
  rw [validate, bind_eq_ok_iff]
  constructor
  · rintro ⟨subject, hsubject, h⟩
    cases subject with
    | none => simp [pure_eq_ok_iff] at h
    | some subject =>
      refine ⟨subject, Claims.string?_eq_ok_some_iff.mp hsubject, ?_⟩
      cases expected <;> simp_all [pure_eq_ok_iff]
  · rintro ⟨subject, hsubject, heq⟩
    refine ⟨some subject, Claims.string?_eq_ok_some_iff.mpr hsubject, ?_⟩
    cases expected with
    | none => rfl
    | some expected => simp [heq expected rfl, pure_eq_ok_iff]

end SubjectRule

theorem TokenIdRule.validate_required_eq_ok_none_iff :
    (TokenIdRule.mk true).validate claims = .ok none ↔
      ∃ id, claims.get? "jti" = some (.string id) := by
  rw [validate, bind_eq_ok_iff]
  constructor
  · rintro ⟨id, hid, h⟩
    cases id with
    | none => simp [pure_eq_ok_iff] at h
    | some id => exact ⟨id, Claims.string?_eq_ok_some_iff.mp hid⟩
  · rintro ⟨id, hid⟩
    exact ⟨some id, Claims.string?_eq_ok_some_iff.mpr hid, rfl⟩

namespace DateRules

/-- The three dates are numbers if they are there, and the rules accept them. -/
def Holds (r : DateRules) (now : NumericDate) (claims : Claims) : Prop :=
  ∃ exp iat nbf, claims.Dated "exp" exp ∧ claims.Dated "iat" iat ∧ claims.Dated "nbf" nbf ∧
    r.check now ⟨exp, iat, nbf⟩ = none

theorem validate_eq_ok_none_iff {r : DateRules} :
    r.validate now claims = .ok none ↔ r.Holds now claims := by
  rw [validate, Holds]
  simp only [bind_eq_ok_iff, pure_eq_ok_iff, ← Claims.date?_eq_ok_iff]
  constructor
  · rintro ⟨exp, hexp, iat, hiat, nbf, hnbf, hcheck⟩
    exact ⟨exp, iat, nbf, hexp, hiat, hnbf, hcheck⟩
  · rintro ⟨exp, iat, nbf, hexp, hiat, hnbf, hcheck⟩
    exact ⟨exp, hexp, iat, hiat, nbf, hnbf, hcheck⟩

end DateRules
end Jose
