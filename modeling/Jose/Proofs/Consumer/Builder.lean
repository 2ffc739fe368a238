import Mathlib.Data.List.Induction
import Jose.Consumer.Builder

/-! What a sequence of calls leaves in the options. Calls for different options commute,
so only the order of those for one option matters, and an option is what the last of them
has made it. -/
namespace Jose.Consumer

inductive Setting where
  | config | verificationKey | decryptionKey
  | signatureConstraints | keyManagementConstraints | contentConstraints
  | requiresSignature | requiresEncryption | skipsVerification | relaxesVerificationKey
  | relaxesDecryptionKey
  | skipsValidators | skipsDefaultAudience | audience | issuer | requiresSubject | subject
  | requiresTokenId
  | requiresExpiration | requiresIssuedAt | requiresNotBefore | skew | futureLimit
  | evaluationTime
  | knownCritical | custom
  deriving DecidableEq, Repr

namespace Call

/-- The option that a call sets. The validators of the caller count as one, since their
order matters. -/
def setting : Call → Setting
  | config _ => .config
  | verificationKey _ => .verificationKey
  | decryptionKey _ => .decryptionKey
  | signatureConstraints _ => .signatureConstraints
  | keyManagementConstraints _ => .keyManagementConstraints
  | contentConstraints _ => .contentConstraints
  | allowUnsigned => .requiresSignature
  | requireEncryption => .requiresEncryption
  | skipVerification => .skipsVerification
  | relaxVerificationKey => .relaxesVerificationKey
  | relaxDecryptionKey => .relaxesDecryptionKey
  | skipValidators => .skipsValidators
  | skipDefaultAudience => .skipsDefaultAudience
  | expectAudience _ | acceptAudience _ _ => .audience
  | expectIssuer _ | acceptIssuers _ _ => .issuer
  | requireSubject => .requiresSubject
  | expectSubject _ => .subject
  | requireTokenId => .requiresTokenId
  | requireExpiration => .requiresExpiration
  | requireIssuedAt => .requiresIssuedAt
  | requireNotBefore => .requiresNotBefore
  | allowSkew _ => .skew
  | limitFuture _ => .futureLimit
  | evaluateAt _ => .evaluationTime
  | knownCritical _ => .knownCritical
  | addValidator _ => .custom

def audience? : Call → Option AudienceRule
  | expectAudience acceptable => some ⟨acceptable, true⟩
  | acceptAudience required acceptable => some ⟨acceptable, required⟩
  | _ => none

def issuer? : Call → Option IssuerRule
  | expectIssuer issuer => some ⟨some [issuer], true⟩
  | acceptIssuers required issuers => some ⟨issuers, required⟩
  | _ => none

def subject? : Call → Option String
  | expectSubject subject => some subject
  | _ => none

def skew? : Call → Option Nat
  | allowSkew seconds => some seconds
  | _ => none

def futureLimit? : Call → Option Nat
  | limitFuture minutes => some minutes
  | _ => none

def evaluationTime? : Call → Option NumericDate
  | evaluateAt time => some time
  | _ => none

def validator? : Call → Option Validator
  | addValidator v => some v
  | _ => none

end Call

/-! ## Order -/

section Order
variable {α β κ : Type} {key : α → κ} {f : β → α → β}

theorem foldl_comm_of_ne (hcomm : ∀ a a' b, key a ≠ key a' → f (f b a) a' = f (f b a') a)
    {a : α} {as : List α}
    (h : ∀ a' ∈ as, key a' ≠ key a) (b : β) : f (as.foldl f b) a = as.foldl f (f b a) := by
  induction as generalizing b with
  | nil => rfl
  | cons a' as ih =>
    rw [List.forall_mem_cons] at h
    rw [List.foldl_cons, List.foldl_cons, ih h.2, hcomm a' a b h.1]

/-- If steps with different keys commute, then the order of those with the same key is all
that matters. By induction on one list, whose first step is brought to the front of the
other. -/
theorem foldl_eq_of_filter_eq [DecidableEq κ]
    (hcomm : ∀ a a' b, key a ≠ key a' → f (f b a) a' = f (f b a') a) {as as' : List α}
    (h : ∀ k, as'.filter (key · = k) = as.filter (key · = k)) (b : β) :
    as'.foldl f b = as.foldl f b := by
  induction as generalizing as' b with
  | nil =>
    cases as' with
    | nil => rfl
    | cons a' as' => simpa using h (key a')
  | cons a as ih =>
    have ha := h (key a)
    rw [List.filter_cons_of_pos (by simp)] at ha
    obtain ⟨before, after, rfl, hbefore, -, -⟩ := List.filter_eq_cons_iff.mp ha
    have hne : ∀ a' ∈ before, key a' ≠ key a := fun a' hmem => by simpa using hbefore a' hmem
    have hrest (k : κ) : (before ++ after).filter (key · = k) = as.filter (key · = k) := by
      have hk := h k
      rw [List.filter_append] at hk ⊢
      by_cases heq : key a = k
      · have hnone : before.filter (key · = k) = [] :=
          List.filter_eq_nil_iff.mpr fun a' hmem => by
          simpa [← heq] using hne a' hmem
        simpa [hnone, heq] using hk
      · simpa [heq] using hk
    rw [List.foldl_append, List.foldl_cons, foldl_comm_of_ne hcomm hne,
      ← List.foldl_append, ih hrest, List.foldl_cons]

end Order

/-- No call looks at what another has set, and no two of them set anything in common. -/
theorem Call.run_comm {call call' : Call} (h : call.setting ≠ call'.setting) (o : Options) :
    call'.run (call.run o) = call.run (call'.run o) := by
  cases call <;> cases call' <;> first | rfl | exact absurd rfl h

theorem build_eq_of_filter_eq {calls calls' : List Call}
    (h : ∀ s, calls'.filter (·.setting = s) = calls.filter (·.setting = s)) :
    build calls' = build calls :=
  congrArg Options.consumer (foldl_eq_of_filter_eq (fun _ _ o hne =>
    Call.run_comm hne o) h .default)

/-! ## Options after calls -/

/-- What the last of the calls that have a value sets. -/
def last? {α : Type} (value? : Call → Option α) (calls : List Call) : Option α :=
  (calls.filterMap value?).getLast?

def isSet (s : Setting) (calls : List Call) : Bool := calls.any (·.setting = s)

/-- The rules on dates that the calls add up to. -/
def dateRules (calls : List Call) : DateRules where
  requireExpiration := isSet .requiresExpiration calls
  requireIssuedAt := isSet .requiresIssuedAt calls
  requireNotBefore := isSet .requiresNotBefore calls
  evaluationTime := last? Call.evaluationTime? calls
  skewSeconds := (last? Call.skew? calls).getD 0
  maxFutureMinutes := (last? Call.futureLimit? calls).getD 0

namespace Options
variable {α : Type} (calls : List Call)

theorem ofCalls_append_singleton (call : Call) :
    ofCalls (calls ++ [call]) = call.run (ofCalls calls) := by
  rw [ofCalls, List.foldl_append]
  rfl

theorem value_ofCalls (field : Options → Option α) (value? : Call → Option α)
    (h : ∀ (call : Call) (o : Options), field (call.run o) = (value? call).or (field o)) :
    field (ofCalls calls) = (last? value? calls).or (field default) := by
  induction calls using List.reverseRecOn with
  | nil => rfl
  | append_singleton calls call ih =>
    rw [ofCalls_append_singleton, h, ih, last?, last?, List.filterMap_append]
    cases hvalue : value? call <;> simp [hvalue]

theorem number_ofCalls (field : Options → α) (value? : Call → Option α)
    (h : ∀ (call : Call) (o : Options),
      some (field (call.run o)) = (value? call).or (some (field o))) :
    field (ofCalls calls) = (last? value? calls).getD (field default) :=
  Option.some.inj ((value_ofCalls calls (fun o => some (field o)) value? h).trans
    Option.or_some)

theorem switch_ofCalls (field : Options → Bool) (s : Setting)
    (h : ∀ (call : Call) (o : Options),
      field (call.run o) = (decide (call.setting = s) || field o)) :
    field (ofCalls calls) = (isSet s calls || field default) := by
  induction calls using List.reverseRecOn with
  | nil => rfl
  | append_singleton calls call ih =>
    rw [ofCalls_append_singleton, h, ih, isSet, isSet, List.any_append, Bool.or_left_comm]
    simp [Bool.or_assoc]

theorem skipsValidators_ofCalls :
    (ofCalls calls).skipsValidators = isSet .skipsValidators calls :=
  (switch_ofCalls calls skipsValidators _ fun call o =>
    by cases call <;> rfl).trans (Bool.or_false _)

theorem skipsDefaultAudience_ofCalls :
    (ofCalls calls).skipsDefaultAudience = isSet .skipsDefaultAudience calls :=
  (switch_ofCalls calls skipsDefaultAudience _ fun call o =>
    by cases call <;> rfl).trans (Bool.or_false _)

theorem audience_ofCalls : (ofCalls calls).audience = last? Call.audience? calls :=
  (value_ofCalls calls audience _ fun call o => by cases call <;> rfl).trans Option.or_none

theorem issuer_ofCalls : (ofCalls calls).issuer = last? Call.issuer? calls :=
  (value_ofCalls calls issuer _ fun call o => by cases call <;> rfl).trans Option.or_none

theorem subject_ofCalls : (ofCalls calls).subject =
    ⟨isSet .requiresSubject calls, last? Call.subject? calls⟩ := by
  have hrequired :=
    switch_ofCalls calls (·.subject.required) .requiresSubject fun call o =>
      by cases call <;> rfl
  have hexpected :=
    value_ofCalls calls (·.subject.expected) Call.subject? fun call o =>
      by cases call <;> rfl
  exact congrArg₂ SubjectRule.mk (hrequired.trans (Bool.or_false _))
    (hexpected.trans Option.or_none)

theorem tokenId_ofCalls : (ofCalls calls).tokenId = ⟨isSet .requiresTokenId calls⟩ := by
  have hrequired :=
    switch_ofCalls calls (·.tokenId.required) .requiresTokenId fun call o =>
      by cases call <;> rfl
  exact congrArg TokenIdRule.mk (hrequired.trans (Bool.or_false _))

theorem dates_ofCalls : (ofCalls calls).dates = dateRules calls := by
  have hexp := switch_ofCalls calls (·.dates.requireExpiration) .requiresExpiration
    fun call o => by cases call <;> rfl
  have hiat :=
    switch_ofCalls calls (·.dates.requireIssuedAt) .requiresIssuedAt fun call o =>
      by cases call <;> rfl
  have hnbf := switch_ofCalls calls (·.dates.requireNotBefore) .requiresNotBefore
    fun call o => by cases call <;> rfl
  have htime :=
    value_ofCalls calls (·.dates.evaluationTime) Call.evaluationTime? fun call o =>
      by cases call <;> rfl
  have hskew : (ofCalls calls).dates.skewSeconds = (last? Call.skew? calls).getD 0 :=
    number_ofCalls calls (·.dates.skewSeconds) Call.skew? fun call o => by cases call <;> rfl
  have hlimit : (ofCalls calls).dates.maxFutureMinutes =
      (last? Call.futureLimit? calls).getD 0 :=
    number_ofCalls calls (·.dates.maxFutureMinutes) Call.futureLimit? fun call o =>
      by cases call <;> rfl
  rw [dateRules, ← hexp.trans (Bool.or_false _), ← hiat.trans (Bool.or_false _),
    ← hnbf.trans (Bool.or_false _), ← htime.trans Option.or_none, ← hskew, ← hlimit]

theorem custom_ofCalls : (ofCalls calls).custom = calls.filterMap Call.validator? := by
  induction calls using List.reverseRecOn with
  | nil => rfl
  | append_singleton calls call ih =>
    rw [ofCalls_append_singleton, List.filterMap_append, ← ih]
    cases call with
    | addValidator v => rfl
    | _ => exact (List.append_nil _).symm

end Options
end Jose.Consumer
