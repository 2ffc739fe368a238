import Jose.Proofs.Claims.Validator
import Jose.Proofs.Consumer.Builder
import Jose.Proofs.Consumer.Process

/-! Which claims a consumer accepts, from the calls that it is built by. Each call that
asks for something leads to a rule, and a refusal has one detail for each of the rules
that the claims break, in a fixed order. -/
namespace Jose.Consumer

/-- What is asked of the claims. -/
inductive Rule where
  | audience (rule : AudienceRule)
  | issuer (rule : IssuerRule)
  | dates (rules : DateRules)
  | subject (expected : Option String)
  | tokenId
  | custom (v : Validator)

namespace Rule

def validator : Rule → Validator
  | audience rule, _, claims => rule.validate claims
  | issuer rule, _, claims => rule.validate claims
  | dates rules, now, claims => rules.validate now claims
  | subject expected, _, claims => (SubjectRule.mk true expected).validate claims
  | tokenId, _, claims => (TokenIdRule.mk true).validate claims
  | custom v, now, claims => v now claims

variable (now : NumericDate) (claims : Claims)

def Holds : Rule → Prop
  | audience rule => rule.Holds claims
  | issuer rule => rule.Holds claims
  | dates rules => rules.Holds now claims
  | subject expected => ∃ subject, claims.get? "sub" = some (.string subject) ∧
      ∀ s, expected = some s → subject = s
  | tokenId => ∃ id, claims.get? "jti" = some (.string id)
  | custom v => v now claims = .ok none

/-- What is said of claims that break the rule: the reason, or that they cannot be read. -/
def Explains (rule : Rule) (detail : String) : Prop :=
  rule.validator now claims = .ok (some detail) ∨
    ∃ e : Error, rule.validator now claims = .error e ∧ e.message = detail

variable {now claims} {rule : Rule}

theorem validator_eq_ok_none_iff :
    rule.validator now claims = .ok none ↔ rule.Holds now claims := by
  cases rule with
  | audience rule => exact AudienceRule.validate_eq_ok_none_iff
  | issuer rule => exact IssuerRule.validate_eq_ok_none_iff
  | dates rules => exact DateRules.validate_eq_ok_none_iff
  | subject expected => exact SubjectRule.validate_required_eq_ok_none_iff
  | tokenId => exact TokenIdRule.validate_required_eq_ok_none_iff
  | custom v => exact Iff.rfl

theorem reason?_eq_some_iff {detail : String} :
    reason? now claims rule.validator = some detail ↔ rule.Explains now claims detail := by
  rw [reason?, Explains]
  cases rule.validator now claims <;> simp

end Rule

/-- The rule for audiences: the last that was set, or that there is none, unless that is
skipped. -/
def audienceRule? (calls : List Call) : Option Rule :=
  match last? Call.audience? calls with
  | some rule => some (.audience rule)
  | none => if isSet .skipsDefaultAudience calls then none else some (.audience ⟨[], false⟩)

/-- The rule for subjects, if one is required or expected. -/
def subjectRule? (calls : List Call) : Option Rule :=
  match last? Call.subject? calls with
  | some subject => some (.subject (some subject))
  | none => if isSet .requiresSubject calls then some (.subject none) else none

def tokenIdRule? (calls : List Call) : Option Rule :=
  if isSet .requiresTokenId calls then some .tokenId else none

/-- What the calls ask for, in the order in which the details are reported. -/
def rules (calls : List Call) : List Rule :=
  (audienceRule? calls).toList ++ ((last? Call.issuer? calls).map Rule.issuer).toList ++
    [.dates (dateRules calls)] ++ (subjectRule? calls).toList ++
    (tokenIdRule? calls).toList ++ (calls.filterMap Call.validator?).map Rule.custom

/-- One detail for each rule that the claims break, in the order of the rules. -/
inductive Reports (now : NumericDate) (claims : Claims) : List Rule → List String → Prop where
  | nil : Reports now claims [] []
  | holds {rule : Rule} {rules : List Rule} {details : List String}
      (h : rule.Holds now claims)
    (rest : Reports now claims rules details) : Reports now claims (rule :: rules) details
  | breaks {rule : Rule} {rules : List Rule} {detail : String} {details : List String}
    (h : ¬rule.Holds now claims) (explains : rule.Explains now claims detail)
    (rest : Reports now claims rules details) : Reports now claims (rule :: rules)
    (detail :: details)

variable {now : NumericDate} {claims : Claims}

theorem reports_filterMap (rules : List Rule) :
    Reports now claims rules ((rules.map Rule.validator).filterMap (reason? now claims)) := by
  induction rules with
  | nil => exact .nil
  | cons rule rules ih =>
    rw [List.map_cons, List.filterMap_cons]
    split
    · next hnone =>
        exact .holds (Rule.validator_eq_ok_none_iff.mp (reason?_eq_none_iff.mp hnone)) ih
    · next detail hsome =>
      refine .breaks (fun hholds => ?_) (Rule.reason?_eq_some_iff.mp hsome) ih
      have hnone := reason?_eq_none_iff.mpr (Rule.validator_eq_ok_none_iff.mpr hholds)
      cases hnone.symm.trans hsome

theorem audienceRule?_ofCalls (calls : List Call) :
    ((Options.ofCalls calls).audienceRule?.map fun r (_ : NumericDate) => r.validate) =
      (audienceRule? calls).map Rule.validator := by
  rw [Options.audienceRule?, Options.audience_ofCalls, Options.skipsDefaultAudience_ofCalls,
    audienceRule?]
  cases last? Call.audience? calls with
  | some rule => rfl
  | none => cases isSet .skipsDefaultAudience calls <;> rfl

theorem issuerRule?_ofCalls (calls : List Call) :
    ((Options.ofCalls calls).issuer.map fun r (_ : NumericDate) => r.validate) =
      ((last? Call.issuer? calls).map Rule.issuer).map Rule.validator := by
  rw [Options.issuer_ofCalls]
  cases last? Call.issuer? calls <;> rfl

/-- A subject that is expected is required too, though the call that sets it does not say
so. -/
theorem subjectRule?_ofCalls (calls : List Call) :
    ((Options.ofCalls calls).subjectRule?.map fun r (_ : NumericDate) => r.validate) =
      (subjectRule? calls).map Rule.validator := by
  rw [Options.subjectRule?, Options.subject_ofCalls, subjectRule?]
  cases last? Call.subject? calls with
  | some subject =>
    simp only [Option.isSome_some, Bool.or_true, if_true]
    exact congrArg some (funext₂ fun _ _ => SubjectRule.validate_of_expected _ _)
  | none => cases isSet .requiresSubject calls <;> rfl

theorem tokenIdRule?_ofCalls (calls : List Call) :
    ((Options.ofCalls calls).tokenIdRule?.map fun r (_ : NumericDate) => r.validate) =
      (tokenIdRule? calls).map Rule.validator := by
  rw [Options.tokenIdRule?, Options.tokenId_ofCalls, tokenIdRule?]
  cases isSet .requiresTokenId calls <;> rfl

theorem validators_build (calls : List Call) :
    (build calls).validators = (rules calls).map Rule.validator := by
  have hcustom : (Options.ofCalls calls).custom =
      ((calls.filterMap Call.validator?).map Rule.custom).map Rule.validator := by
    rw [Options.custom_ofCalls, List.map_map]
    exact (List.map_id _).symm
  rw [build, Options.consumer, Options.validators, audienceRule?_ofCalls,
    issuerRule?_ofCalls, subjectRule?_ofCalls,
    tokenIdRule?_ofCalls, hcustom, Options.dates_ofCalls, rules]
  simp only [List.map_append, Option.toList_map]
  rfl

/-- A consumer accepts claims exactly if it skips the validators or the claims keep all
the rules that it was asked for. It refuses others with one detail for each of the rules
that they break. In which order it was asked for them makes no difference, except between
calls for one option and between those that add validators. -/
theorem validate_build (calls : List Call) (now : NumericDate) (claims : Claims) :
    ((build calls).validate now claims = .ok () ↔
      isSet .skipsValidators calls = true ∨ ∀ rule ∈ rules calls, rule.Holds now claims) ∧
    (∀ error, (build calls).validate now claims = .error error →
      ∃ details, error = .invalidJwt details ∧ Reports now claims (rules calls) details) ∧
    ∀ calls', (∀ s, calls'.filter (·.setting = s) = calls.filter (·.setting = s)) →
      build calls' = build calls := by
  have hskips : (build calls).skipsValidators = isSet .skipsValidators calls :=
    Options.skipsValidators_ofCalls calls
  refine ⟨?_, fun error herror => ?_, fun calls' => build_eq_of_filter_eq⟩
  · rw [validate_eq_ok_iff, hskips, validators_build, List.forall_mem_map]
    simp only [Rule.validator_eq_ok_none_iff]
  · rw [validate] at herror
    split at herror
    · cases herror
    · split at herror
      · cases herror
      · cases herror
        rw [validators_build]
        exact ⟨_, rfl, reports_filterMap _⟩

def asking : List Call :=
  [.expectAudience ["api"], .requireTokenId, .acceptIssuers false none,
    .addValidator (mustContain "scope" "read" "The scope does not allow to read.")]

/-- The issuer is optional here, and so are the dates. -/
theorem validate_build_asking :
    (build asking).validate ⟨0⟩
      ⟨[("aud", .string "api"), ("jti", .string "1"),
        ("scope", .strings ["read", "write"])]⟩ = .ok () ∧
    (∃ details, (build asking).validate ⟨0⟩ ⟨[("aud", .integer 1)]⟩ =
      .error (.invalidJwt details) ∧
      Reports ⟨0⟩ ⟨[("aud", .integer 1)]⟩ (rules asking) details) ∧
    build asking.reverse = build asking := by
  refine ⟨(validate_build asking _ _).1.mpr (.inr ?_), ?_, ?_⟩
  · rw [show rules asking =
      [.audience ⟨["api"], true⟩, .issuer ⟨none, false⟩, .dates .lenient, .tokenId,
      .custom (mustContain "scope" "read" "The scope does not allow to read.")] from rfl]
    simp only [List.forall_mem_cons]
    refine ⟨.inr (.inl ⟨"api", rfl, List.mem_cons_self⟩), .inl ⟨rfl, rfl⟩,
      ⟨none, none, none, .inl ⟨rfl, rfl⟩, .inl ⟨rfl, rfl⟩, .inl ⟨rfl, rfl⟩, rfl⟩,
        ⟨"1", rfl⟩, rfl,
      fun rule hmem => nomatch hmem⟩
  · obtain ⟨haccepts, hrefuses, -⟩ := validate_build asking ⟨0⟩ ⟨[("aud", .integer 1)]⟩
    cases hvalidate : (build asking).validate ⟨0⟩ ⟨[("aud", .integer 1)]⟩ with
    | error error =>
      obtain ⟨details, rfl, hreports⟩ := hrefuses error hvalidate
      exact ⟨details, rfl, hreports⟩
    | ok =>
      rcases haccepts.mp hvalidate with hskips | hholds
      · cases hskips
      · obtain ⟨id, hid⟩ :=
          hholds .tokenId (by simp [rules, tokenIdRule?, isSet, asking, Call.setting])
        cases hid
  · exact (validate_build asking ⟨0⟩ .empty).2.2 _ fun s => by cases s <;> rfl

/-- An audience that is a number hides neither the identifier nor the scope, which are not
there. -/
example :
    ((build asking).validators.filterMap (reason? ⟨0⟩ ⟨[("aud", .integer 1)]⟩)).length =
      3 := by rfl

end Jose.Consumer
