import Jose.Proofs.Claims.DateRules

/-! How the verdict on the dates of a token depends on the time and on the settings. A sum
that ends at a bound is still monotone in what is added, so nothing is asked here of the
dates or of the settings. -/
namespace Jose.DateRules
open DateRule NumericDate
variable {fit : Int → Int} {r r' : DateRules} {time t₁ t₂ t₃ : NumericDate} {d : TokenDates}
  {rule : DateRule}

/-- The same rules, asked at a set time. -/
def evaluatedAt (r : DateRules) (time : NumericDate) : DateRules :=
  { r with evaluationTime := some time }

/-- The second settings require no date that the first do not require, and give it no
tighter a bound. No bound is wider than any, and narrower than none. -/
structure Laxer (r r' : DateRules) : Prop where
  evaluationTime : r'.evaluationTime = r.evaluationTime
  requireExpiration : r'.requireExpiration = true → r.requireExpiration = true
  requireIssuedAt : r'.requireIssuedAt = true → r.requireIssuedAt = true
  requireNotBefore : r'.requireNotBefore = true → r.requireNotBefore = true
  skewSeconds : r.skewSeconds ≤ r'.skewSeconds
  maxFutureMinutes : r'.maxFutureMinutes = 0 ∨
    (0 < r.maxFutureMinutes ∧ r.maxFutureMinutes ≤ r'.maxFutureMinutes)

/-! ## When a rule is kept -/

theorem expired_kept_iff : expired.isBroken fit r time d = false ↔
    ∀ exp, d.expiration = some exp → fit (time.seconds - r.skewSeconds) < exp.seconds := by
  rw [isBroken]
  cases d.expiration <;> simp

theorem tooFarAhead_kept_iff : tooFarAhead.isBroken fit r time d = false ↔
    r.maxFutureMinutes = 0 ∨ ∀ exp, d.expiration = some exp →
      fit (fit (exp.seconds - r.skewSeconds) - time.seconds) ≤
        60 * (r.maxFutureMinutes : Int) := by
  rw [isBroken]
  cases d.expiration <;> simp [Nat.pos_iff_ne_zero, Classical.or_iff_not_imp_left]

theorem notYetValid_kept_iff : notYetValid.isBroken fit r time d = false ↔
    ∀ nbf, d.notBefore = some nbf → nbf.seconds ≤ fit (time.seconds + r.skewSeconds) := by
  rw [isBroken]
  cases d.notBefore <;> simp

theorem requirement_kept {required required' missing : Bool}
    (hle : required' = true → required = true)
    (h : (required && missing) = false) : (required' && missing) = false := by
  cases required' with
  | false => rfl
  | true => rwa [hle rfl] at h

/-! ## Time and settings -/

/-- A rule is kept up to some time or from some time on, if the time matters for it at
all. -/
theorem kept_between (h₁₂ : t₁.seconds ≤ t₂.seconds) (h₂₃ : t₂.seconds ≤ t₃.seconds)
    (h₁ : rule.isBroken clamp r t₁ d = false) (h₃ : rule.isBroken clamp r t₃ d = false) :
    rule.isBroken clamp r t₂ d = false := by
  cases rule with
  | expirationRequired | issuedAtRequired | notBeforeRequired | expiresBeforeIssue
  | expiresBeforeStart => exact h₁
  | expired =>
    refine expired_kept_iff.mpr fun exp hexp => ?_
    have hle : clamp (t₂.seconds - r.skewSeconds) ≤ clamp (t₃.seconds - r.skewSeconds) :=
      clamp_mono (by omega)
    exact Int.lt_of_le_of_lt hle (expired_kept_iff.mp h₃ exp hexp)
  | tooFarAhead =>
    refine tooFarAhead_kept_iff.mpr ((tooFarAhead_kept_iff.mp h₁).imp_right
      fun hkept exp hexp => ?_)
    have hle : clamp (clamp (exp.seconds - r.skewSeconds) - t₂.seconds) ≤
        clamp (clamp (exp.seconds - r.skewSeconds) - t₁.seconds) := clamp_mono (by omega)
    exact Int.le_trans hle (hkept exp hexp)
  | notYetValid =>
    refine notYetValid_kept_iff.mpr fun nbf hnbf => ?_
    have hle : clamp (t₁.seconds + r.skewSeconds) ≤ clamp (t₂.seconds + r.skewSeconds) :=
      clamp_mono (by omega)
    exact Int.le_trans (notYetValid_kept_iff.mp h₁ nbf hnbf) hle

theorem Laxer.kept (hlax : r.Laxer r') (h : rule.isBroken clamp r time d = false) :
    rule.isBroken clamp r' time d = false := by
  have hskew := hlax.skewSeconds
  cases rule with
  | expirationRequired => exact requirement_kept hlax.requireExpiration h
  | issuedAtRequired => exact requirement_kept hlax.requireIssuedAt h
  | notBeforeRequired => exact requirement_kept hlax.requireNotBefore h
  | expiresBeforeIssue | expiresBeforeStart => exact h
  | expired =>
    refine expired_kept_iff.mpr fun exp hexp => ?_
    have hle : clamp (time.seconds - r'.skewSeconds) ≤ clamp (time.seconds - r.skewSeconds) :=
      clamp_mono (by omega)
    exact Int.lt_of_le_of_lt hle (expired_kept_iff.mp h exp hexp)
  | tooFarAhead =>
    refine tooFarAhead_kept_iff.mpr
      (hlax.maxFutureMinutes.imp_right fun ⟨hpos, hmax⟩ exp hexp => ?_)
    have hkept := (tooFarAhead_kept_iff.mp h).resolve_left (by omega) exp hexp
    -- the skew is taken off before the difference, so the order goes through both sums
    have hinner : clamp (exp.seconds - r'.skewSeconds) ≤
        clamp (exp.seconds - r.skewSeconds) :=
      clamp_mono (by omega)
    have hle : clamp (clamp (exp.seconds - r'.skewSeconds) - time.seconds) ≤
        clamp (clamp (exp.seconds - r.skewSeconds) - time.seconds) := clamp_mono (by omega)
    omega
  | notYetValid =>
    refine notYetValid_kept_iff.mpr fun nbf hnbf => ?_
    have hle : clamp (time.seconds + r.skewSeconds) ≤ clamp (time.seconds + r'.skewSeconds) :=
      clamp_mono (by omega)
    exact Int.le_trans (notYetValid_kept_iff.mp h nbf hnbf) hle

/-- The times at which a token is accepted have no gap, whether the time is set or is the
present one, and what is accepted under some settings is accepted under laxer ones. -/
theorem accepts_between_and_when_laxer (r : DateRules) (d : TokenDates) :
    (∀ t₁ t₂ t₃ now : NumericDate, t₁.seconds ≤ t₂.seconds → t₂.seconds ≤ t₃.seconds →
      (r.evaluatedAt t₁).check now d = none → (r.evaluatedAt t₃).check now d = none →
      (r.evaluatedAt t₂).check now d = none) ∧
    (r.evaluationTime = none → ∀ t₁ t₂ t₃ : NumericDate,
      t₁.seconds ≤ t₂.seconds → t₂.seconds ≤ t₃.seconds →
      r.check t₁ d = none → r.check t₃ d = none → r.check t₂ d = none) ∧
    ∀ r', r.Laxer r' → ∀ now, r.check now d = none → r'.check now d = none := by
  simp only [check_eq_none_iff]
  refine ⟨fun t₁ t₂ t₃ _ h₁₂ h₂₃ h₁ h₃ rule => kept_between h₁₂ h₂₃ (h₁ rule) (h₃ rule),
    fun hpresent t₁ t₂ t₃ h₁₂ h₂₃ h₁ h₃ rule => ?_, fun r' hlax now h rule => ?_⟩
  · rw [hpresent] at h₁ h₃ ⊢
    exact kept_between h₁₂ h₂₃ (h₁ rule) (h₃ rule)
  · rw [hlax.evaluationTime]
    exact hlax.kept (h rule)

/-- Near the first of all dates, the skew leads below it. -/
def early : DateRules := ⟨true, false, false, none, 5, 10⟩

theorem accepts_between_and_when_laxer_early :
    (early.evaluatedAt ⟨minSeconds + 3⟩).check ⟨0⟩
      ⟨some ⟨minSeconds + 1⟩, none, none⟩ = none ∧
    early.check ⟨minSeconds + 3⟩ ⟨some ⟨minSeconds + 1⟩, none, none⟩ = none ∧
    (⟨false, false, false, none, UInt32.size - 1, 0⟩ : DateRules).check ⟨minSeconds⟩
      ⟨some ⟨minSeconds + 1⟩, none, none⟩ = none := by
  obtain ⟨hset, hpresent, hlaxer⟩ :=
    accepts_between_and_when_laxer early ⟨some ⟨minSeconds + 1⟩, none, none⟩
  refine ⟨hset ⟨minSeconds⟩ _ ⟨minSeconds + 5⟩ _ (by decide) (by decide) rfl rfl,
    hpresent rfl ⟨minSeconds⟩ _ ⟨minSeconds + 5⟩ (by decide) (by decide) rfl rfl,
      hlaxer _ ?_ _ rfl⟩
  exact ⟨rfl, by decide, by decide, by decide, by decide, .inl rfl⟩

end Jose.DateRules
