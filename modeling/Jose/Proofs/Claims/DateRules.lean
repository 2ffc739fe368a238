import Jose.Claims.DateRules

/-! The rules on dates, one by one. Their sums are taken over all integers or end at the
bounds of a date, and which of the two makes no difference to the verdict, except for a
token that expires at the first of all dates. -/
namespace Jose

namespace NumericDate

def InRange (d : NumericDate) : Prop := minSeconds ≤ d.seconds ∧ d.seconds ≤ maxSeconds

instance (d : NumericDate) : Decidable d.InRange := inferInstanceAs (Decidable (_ ∧ _))

theorem inRange_clamp (n : Int) : InRange ⟨clamp n⟩ := by
  simp only [InRange, clamp, minSeconds, maxSeconds]
  omega

theorem clamp_of_inRange {d : NumericDate} (h : d.InRange) : ⟨clamp d.seconds⟩ = d := by
  have hclamp : clamp d.seconds = d.seconds := by
    simp only [InRange, clamp] at *
    omega
  rw [hclamp]

theorem clamp_mono {m n : Int} (h : m ≤ n) : clamp m ≤ clamp n := by
  simp only [clamp]
  omega

theorem le_clamp_iff {d : NumericDate} (hd : d.InRange) (hfirst : minSeconds < d.seconds)
    {n : Int} : d.seconds ≤ clamp n ↔ d.seconds ≤ n := by
  have hd := hd.2
  simp only [clamp]
  omega

/-- The upper bound is no obstacle, and below the lower one there is nothing to be
compared with. -/
theorem clamp_lt_iff {d : NumericDate} (hd : d.InRange) {n : Int} (hn : minSeconds ≤ n) :
    clamp n < d.seconds ↔ n < d.seconds := by
  have hd := hd.2
  simp only [clamp]
  omega

/-- A difference of a sum that has ended at a bound exceeds no positive number that it
would not exceed anyway. -/
theorem lt_clamp_sub_iff {time : NumericDate} (htime : time.InRange) {limit n : Int}
    (hlimit : 0 < limit) (hlt : limit < maxSeconds) (hn : n ≤ maxSeconds) :
    limit < clamp (clamp n - time.seconds) ↔ limit < n - time.seconds := by
  have htime := htime.1
  simp only [clamp, minSeconds, maxSeconds] at *
  omega

end NumericDate

open NumericDate

/-- The rules in the order in which they are asked. -/
inductive DateRule where
  | expirationRequired | issuedAtRequired | notBeforeRequired
  | expired | expiresBeforeIssue | expiresBeforeStart | tooFarAhead | notYetValid
  deriving DecidableEq, Repr

namespace DateRule

def all : List DateRule :=
  [expirationRequired, issuedAtRequired, notBeforeRequired, expired, expiresBeforeIssue,
    expiresBeforeStart, tooFarAhead, notYetValid]

theorem mem_all (rule : DateRule) : rule ∈ all := by cases rule <;> decide

variable (fit : Int → Int) (r : DateRules) (time : NumericDate) (d : TokenDates)

/-- Each sum is fitted into some range, or is left as it is if `fit` is the identity. -/
def isBroken : DateRule → Bool
  | expirationRequired => r.requireExpiration && d.expiration.isNone
  | issuedAtRequired => r.requireIssuedAt && d.issuedAt.isNone
  | notBeforeRequired => r.requireNotBefore && d.notBefore.isNone
  | expired => d.expiration.any fun exp => exp.seconds ≤ fit (time.seconds - r.skewSeconds)
  | expiresBeforeIssue => d.expiration.any fun exp => d.issuedAt.any fun iat =>
    exp.seconds < iat.seconds
  | expiresBeforeStart => d.expiration.any fun exp => d.notBefore.any fun nbf =>
    exp.seconds < nbf.seconds
  | tooFarAhead => 0 < r.maxFutureMinutes && d.expiration.any fun exp =>
      60 * (r.maxFutureMinutes : Int) < fit (fit (exp.seconds - r.skewSeconds) - time.seconds)
  | notYetValid => d.notBefore.any fun nbf => fit (time.seconds + r.skewSeconds) < nbf.seconds

def firstBroken? : Option DateRule := all.find? (isBroken fit r time d)

/-- That the expiration comes before another date. -/
def tooEarlyText (what : String) (exp date : Option NumericDate) : String :=
  "The Expiration Time (exp=" ++ exp.elim "" shown ++
    ") claim value cannot be before the " ++ what ++ "=" ++
    date.elim "" shown ++ ") claim value."

/-- Why a token is refused for breaking the rule. -/
def reason : DateRule → String
  | expirationRequired => "No Expiration Time (exp) claim present."
  | issuedAtRequired => "No Issued At (iat) claim present."
  | notBeforeRequired => "No Not Before (nbf) claim present."
  | expired => "The JWT is no longer valid - the evaluation time " ++ time.shown ++
      " is on or after the Expiration Time (exp=" ++ d.expiration.elim "" shown ++
        ") claim value" ++ r.skewText
  | expiresBeforeIssue => tooEarlyText "Issued At (iat" d.expiration d.issuedAt
  | expiresBeforeStart => tooEarlyText "Not Before (nbf" d.expiration d.notBefore
  | tooFarAhead => "The Expiration Time (exp=" ++ d.expiration.elim "" shown ++
      ") claim value cannot be more than " ++ toString r.maxFutureMinutes ++
      " minutes in the future relative to the evaluation time " ++ time.shown ++ r.skewText
  | notYetValid => "The JWT is not yet valid as the evaluation time " ++ time.shown ++
      " is before the Not Before (nbf=" ++ d.notBefore.elim "" shown ++ ") claim time" ++
        r.skewText

def verdict (rule : DateRule) : Option String :=
  if rule.isBroken fit r time d then some (rule.reason r time d) else none

variable {fit r time d}

theorem verdict_of_broken {rule : DateRule} (h : rule.isBroken fit r time d = true) :
    rule.verdict fit r time d = some (rule.reason r time d) := if_pos h

theorem verdict_of_kept {rule : DateRule} (h : ¬rule.isBroken fit r time d = true) :
    rule.verdict fit r time d = none := if_neg h

theorem firstBroken?_eq_none_iff :
    firstBroken? fit r time d = none ↔ ∀ rule, isBroken fit r time d rule = false := by
  simp [firstBroken?, mem_all]

theorem map_reason_firstBroken? :
    (firstBroken? fit r time d).map (reason r time d) =
      all.findSome? (verdict fit r time d) := by
  rw [firstBroken?, List.find?_eq_findSome?_guard, List.map_findSome?]
  congr 1
  funext rule
  simp only [Function.comp, Option.guard, verdict]
  split <;> rfl

end DateRule

namespace DateRules
open DateRule
variable {r : DateRules} {time now : NumericDate} {d : TokenDates}

/-! ## What is asked -/

theorem missing?_eq (time : NumericDate) :
    r.missing? d = (expirationRequired.verdict clamp r time d).or
    ((issuedAtRequired.verdict clamp r time d).or
      (notBeforeRequired.verdict clamp r time d)) := by
  rw [missing?]
  split
  · next hexp =>
    rw [verdict_of_broken (show expirationRequired.isBroken clamp r time d = true from hexp)]
    rfl
  · next hexp =>
    rw [verdict_of_kept (show ¬expirationRequired.isBroken clamp r time d = true from hexp),
      Option.none_or]
    split
    · next hiat =>
      rw [verdict_of_broken (show issuedAtRequired.isBroken clamp r time d = true from hiat)]
      rfl
    · next hiat =>
      rw [verdict_of_kept (show ¬issuedAtRequired.isBroken clamp r time d = true from hiat),
        Option.none_or]
      rfl

theorem bind_expired? :
    d.expiration.bind (r.expired? time) = expired.verdict clamp r time d := by
  obtain ⟨exp, iat, nbf⟩ := d
  cases exp with
  | none => rfl
  | some exp =>
    simp only [verdict, isBroken, Option.any_some, Option.bind_some, Int.sub_eq_add_neg]
    rfl

theorem expiresBefore?_eq {exp : NumericDate} {what : String} {date : Option NumericDate} :
    expiresBefore? exp what date =
      if date.any (fun date => exp.seconds < date.seconds) then
        some (tooEarlyText what (some exp) date) else none := by
  cases date with
  | none => rfl
  | some date =>
    have hbefore : decide (exp.seconds < date.seconds) = exp.isBefore date := rfl
    have hguarded : expiresBefore? exp what (some date) =
      (if exp.isBefore date then some () else none).bind
        fun _ => some (tooEarlyText what (some exp) (some date)) := rfl
    rw [hguarded, Option.any_some, hbefore]
    by_cases hlt : exp.isBefore date = true
    · rw [if_pos hlt, if_pos hlt]
      rfl
    · rw [if_neg hlt, if_neg hlt]
      rfl

theorem bind_expiresBefore?_issuedAt (r : DateRules) (time : NumericDate) :
    (d.expiration.bind fun exp => expiresBefore? exp "Issued At (iat" d.issuedAt) =
      expiresBeforeIssue.verdict clamp r time d := by
  obtain ⟨exp, iat, nbf⟩ := d
  cases exp with
  | none => rfl
  | some exp => exact expiresBefore?_eq

theorem bind_expiresBefore?_notBefore (r : DateRules) (time : NumericDate) :
    (d.expiration.bind fun exp => expiresBefore? exp "Not Before (nbf" d.notBefore) =
      expiresBeforeStart.verdict clamp r time d := by
  obtain ⟨exp, iat, nbf⟩ := d
  cases exp with
  | none => rfl
  | some exp => exact expiresBefore?_eq

theorem bind_tooFarAhead? :
    d.expiration.bind (r.tooFarAhead? time) = tooFarAhead.verdict clamp r time d := by
  obtain ⟨exp, iat, nbf⟩ := d
  cases exp with
  | none => simp [verdict, isBroken]
  | some exp =>
    simp only [verdict, isBroken, Option.any_some, Option.bind_some, Int.sub_eq_add_neg,
      Int.mul_comm 60]
    rfl

theorem bind_notYetValid? :
    d.notBefore.bind (r.notYetValid? time) = notYetValid.verdict clamp r time d := by
  obtain ⟨exp, iat, nbf⟩ := d
  cases nbf with
  | none => rfl
  | some nbf => rfl

theorem findSome?_all {f : DateRule → Option String} :
    all.findSome? f =
      (f expirationRequired).or ((f issuedAtRequired).or ((f notBeforeRequired).or
        ((f expired).or ((f expiresBeforeIssue).or ((f expiresBeforeStart).or
          ((f tooFarAhead).or (f notYetValid))))))) := by
  have hcons (rule : DateRule) (rules : List DateRule) :
      (rule :: rules).findSome? f = (f rule).or (rules.findSome? f) := by
    rw [List.findSome?_cons]
    cases f rule <;> rfl
  simp only [all, hcons, List.findSome?_nil, Option.or_none]

/-- The reason is that of the first broken rule, where the sums end at the bounds of a
date. -/
theorem check_eq_clamped :
    r.check now d = (firstBroken? clamp r (r.evaluationTime.getD now) d).map
      (reason r (r.evaluationTime.getD now) d) := by
  have hbind (f g : NumericDate → Option String) :
      (d.expiration.bind fun exp => (f exp).or (g exp)) =
        (d.expiration.bind f).or (d.expiration.bind g) := by
    cases d.expiration <;> rfl
  generalize htime : r.evaluationTime.getD now = time
  rw [map_reason_firstBroken?, findSome?_all, check, htime]
  simp only [Option.orElse_eq_orElse, Option.orElse_eq_or, hbind, Option.or_assoc]
  rw [missing?_eq time, bind_expired?, bind_expiresBefore?_issuedAt r time,
    bind_expiresBefore?_notBefore r time, bind_tooFarAhead?, bind_notYetValid?]
  simp only [Option.or_assoc]

theorem check_eq_none_iff : r.check now d = none ↔
    ∀ rule : DateRule, rule.isBroken clamp r (r.evaluationTime.getD now) d = false := by
  rw [check_eq_clamped, Option.map_eq_none_iff, firstBroken?_eq_none_iff]

/-! ## What is meant -/

theorem isBroken_clamp_eq (hmax : r.maxFutureMinutes < UInt32.size) (htime : time.InRange)
    (hexp : ∀ exp, d.expiration = some exp → exp.InRange ∧ minSeconds < exp.seconds)
    (hnbf : ∀ nbf, d.notBefore = some nbf → nbf.InRange) (rule : DateRule) :
    rule.isBroken clamp r time d = rule.isBroken id r time d := by
  cases rule with
  | expirationRequired | issuedAtRequired | notBeforeRequired | expiresBeforeIssue
  | expiresBeforeStart => rfl
  | expired =>
    cases h : d.expiration with
    | none => simp only [isBroken, h, Option.any_none]
    | some exp =>
      obtain ⟨hrange, hfirst⟩ := hexp exp h
      simp only [isBroken, h, Option.any_some, id, le_clamp_iff hrange hfirst]
  | tooFarAhead =>
    cases h : d.expiration with
    | none => simp only [isBroken, h, Option.any_none]
    | some exp =>
      have hsum : exp.seconds - r.skewSeconds ≤ maxSeconds := by
        have := (hexp exp h).1.2
        omega
      by_cases hpos : 0 < r.maxFutureMinutes
      · have hlimit : 0 < 60 * (r.maxFutureMinutes : Int) := by omega
        have hlt : 60 * (r.maxFutureMinutes : Int) < maxSeconds := by
          simp only [maxSeconds, UInt32.size] at hmax ⊢
          omega
        simp only [isBroken, h, Option.any_some, id, lt_clamp_sub_iff htime hlimit hlt hsum]
      · simp only [isBroken, decide_eq_false hpos, Bool.false_and]
  | notYetValid =>
    cases h : d.notBefore with
    | none => simp only [isBroken, h, Option.any_none]
    | some nbf =>
      have hsum : minSeconds ≤ time.seconds + r.skewSeconds := by
        have := htime.1
        omega
      simp only [isBroken, h, Option.any_some, id, clamp_lt_iff (hnbf nbf h) hsum]

/-- No sum comes out below the first of all dates, so that a token that expires then
counts as expired. -/
theorem isBroken_expired_of_first (h : d.expiration = some ⟨minSeconds⟩) :
    expired.isBroken clamp r time d = true := by
  have hle : minSeconds ≤ clamp (time.seconds - r.skewSeconds) := by
    simp only [clamp]
    omega
  simp only [isBroken, h, Option.any_some, hle, decide_true]

/-- A token is refused for the first of the rules that it breaks over all integers, and
accepted if it breaks none. Only if it expires at the first of all dates may it be refused
without breaking one. -/
theorem check_reports_first_broken (hmax : r.maxFutureMinutes < UInt32.size)
    (htime : (r.evaluationTime.getD now).InRange)
    (hexp : ∀ exp, d.expiration = some exp → exp.InRange)
    (hnbf : ∀ nbf, d.notBefore = some nbf → nbf.InRange) :
    (d.expiration ≠ some ⟨minSeconds⟩ →
      r.check now d = (firstBroken? id r (r.evaluationTime.getD now) d).map
        (reason r (r.evaluationTime.getD now) d)) ∧
    (r.check now d = none → firstBroken? id r (r.evaluationTime.getD now) d = none) := by
  by_cases hfirst : d.expiration = some ⟨minSeconds⟩
  · refine ⟨fun hne => absurd hfirst hne, fun hnone => ?_⟩
    have hbroken := check_eq_none_iff.mp hnone expired
    rw [isBroken_expired_of_first hfirst] at hbroken
    cases hbroken
  · have hlater (exp : NumericDate) (h : d.expiration = some exp) : exp.InRange ∧
        minSeconds < exp.seconds := by
      have hrange := hexp exp h
      refine ⟨hrange, Int.lt_iff_le_and_ne.mpr ⟨hrange.1, fun heq => hfirst ?_⟩⟩
      rw [h, heq]
    have hsame : isBroken clamp r (r.evaluationTime.getD now) d =
        isBroken id r (r.evaluationTime.getD now) d :=
      funext (isBroken_clamp_eq hmax htime hlater hnbf)
    have hcheck : r.check now d = (firstBroken? id r (r.evaluationTime.getD now) d).map
        (reason r (r.evaluationTime.getD now) d) := by
      rw [check_eq_clamped, firstBroken?, firstBroken?, hsame]
    refine ⟨fun _ => hcheck, fun hnone => ?_⟩
    rwa [hcheck, Option.map_eq_none_iff] at hnone

/-- The longest skew, at the last of all dates. A sum for the start of a token ends at the
bound. -/
def tolerant : DateRules :=
  ⟨true, false, true, some ⟨maxSeconds⟩, UInt32.size - 1, UInt32.size - 1⟩

theorem check_reports_first_broken_at_bounds :
    tolerant.check ⟨0⟩ ⟨some ⟨maxSeconds⟩, none, some ⟨maxSeconds⟩⟩ = none ∧
    tolerant.check ⟨0⟩ ⟨some ⟨maxSeconds - UInt32.size⟩, none, some ⟨maxSeconds⟩⟩ =
      some (reason tolerant ⟨maxSeconds⟩ ⟨some ⟨maxSeconds - UInt32.size⟩, none,
        some ⟨maxSeconds⟩⟩ expired) := by
  constructor
  · exact (check_reports_first_broken (by decide) (by decide) (by rintro _ ⟨⟩; decide)
      (by rintro _ ⟨⟩; decide)).1
      (by decide)
  · exact (check_reports_first_broken (by decide) (by decide) (by rintro _ ⟨⟩; decide)
      (by rintro _ ⟨⟩; decide)).1
      (by decide)

/-- At the first of all dates, with a second for the skew, nothing has expired over all
integers. -/
example :
    firstBroken? id ⟨false, false, false, none, 1, 0⟩ ⟨minSeconds⟩
      ⟨some ⟨minSeconds⟩, none, none⟩ = none ∧
    firstBroken? clamp ⟨false, false, false, none, 1, 0⟩ ⟨minSeconds⟩
      ⟨some ⟨minSeconds⟩, none, none⟩ = some expired := by decide

end DateRules
end Jose
