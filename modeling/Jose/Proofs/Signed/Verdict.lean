import Jose.Proofs.Signed.Run
import Mathlib.Logic.Function.Iterate

/-! A verdict from the record is the verdict that would be reached now. The generation
counts modulo `UInt64.size`, so this is said of envelopes with fewer changes than that
since the verdict was recorded. -/
namespace Jose.Signed
open Result

/-- The verdict that is given when none is on record. -/
def recomputed (s : Signed) : Result Bool := ({ s with verdict := none } : Signed).verify.1

theorem recomputed_eq_judge (s : Signed) : s.recomputed = s.judge :=
  verify_fst_of_none (s := { s with verdict := none }) rfl

/-- The record is as many generations behind as there were changes, and without any change
it is the verdict on the envelope as it is. -/
def Dated (age : Option Nat) (s : Signed) : Prop :=
  ∀ generation valid, s.verdict = some (generation, valid) →
    ∃ n, age = some n ∧ s.envelope.generation = generation + UInt64.ofNat n ∧
      (n = 0 → s.judge = .ok valid)

theorem dated_step {age : Option Nat} {s : Signed} (op : Op) (h : Dated age s) :
    Dated ((op.effect s).age age) (op.run s) := by
  intro generation valid hverdict
  cases heffect : op.effect s with
  | keeps =>
    rw [run_of_keeps heffect] at hverdict ⊢
    exact h generation valid hverdict
  | outdates =>
    obtain ⟨hkept, hnext⟩ := run_of_outdates heffect
    obtain ⟨n, hage, hgeneration, -⟩ := h generation valid (hkept ▸ hverdict)
    refine ⟨n + 1, by rw [hage]; rfl, ?_, fun hzero => absurd hzero n.succ_ne_zero⟩
    rw [hnext, hgeneration, UInt64.ofNat_add, UInt64.add_assoc]
    rfl
  | records =>
    obtain ⟨reached, hjudge, hrun⟩ := run_of_records heffect
    rw [hrun] at hverdict ⊢
    cases hverdict
    exact ⟨0, rfl, (UInt64.add_zero _).symm, fun _ => hjudge⟩

theorem dated_of_reached {age : Option Nat} {s : Signed} (h : Reached age s) :
    Dated age s := by
  induction h with
  | new config =>
    intro generation valid hverdict
    cases hverdict
  | parse h =>
    obtain ⟨_, _, _, _, _, _, _, _, _, _, _, rfl⟩ := parse_eq_ok_iff.mp h
    intro generation valid hverdict
    cases hverdict
  | step op _ ih => exact dated_step op ih

theorem eq_zero_of_add_eq_self {generation : UInt64} {n : Nat} (hn : n < UInt64.size)
    (h : generation = generation + UInt64.ofNat n) : n = 0 := by
  have hzero := congrArg UInt64.toNat (UInt64.left_eq_add.mp h)
  rw [UInt64.toNat_ofNat', Nat.mod_eq_of_lt hn] at hzero
  exact hzero

/-- Before the counter comes round, the current verdict is no older than the last
change. -/
theorem judge_of_current {age : Option Nat} {s : Signed} {valid : Bool} (h : Dated age s)
    (hage : ∀ n ∈ age, n < UInt64.size) (hcurrent : s.currentVerdict? = some valid) :
    s.judge = .ok valid := by
  obtain ⟨n, hn, hgeneration, hjudge⟩ := h _ valid (currentVerdict?_eq_some_iff.mp hcurrent)
  exact hjudge (eq_zero_of_add_eq_self (hage n hn) hgeneration)

theorem verify_eq_recomputed {age : Option Nat} {s : Signed} (h : Dated age s)
    (hage : ∀ n ∈ age, n < UInt64.size) : s.verify.1 = s.recomputed := by
  rw [recomputed_eq_judge]
  cases hcurrent : s.currentVerdict? with
  | none => exact verify_fst_of_none hcurrent
  | some valid => rw [verify_of_current hcurrent, judge_of_current h hage hcurrent]

/-- A verification gives exactly what it would give without a record, its errors included.
What is said to be valid or invalid is found so, and to verify once more gives the same
and changes nothing. -/
theorem verdict_is_current {age : Option Nat} {s : Signed} (h : Reached age s)
    (hage : ∀ n ∈ age, n < UInt64.size) :
    s.verify.1 = s.recomputed ∧
    (s.verification = .valid → s.recomputed = .ok true) ∧
    (s.verification = .invalid → s.recomputed = .ok false) ∧
    s.verify.2.verify = s.verify := by
  have hdated := dated_of_reached h
  have hcurrent : ∀ valid, s.currentVerdict? = some valid → s.recomputed = .ok valid := by
    intro valid hvalid
    rw [recomputed_eq_judge]
    exact judge_of_current hdated hage hvalid
  refine ⟨verify_eq_recomputed hdated hage, fun hvalid => ?_, fun hinvalid => ?_,
    verify_verify s⟩
  · rw [verification] at hvalid
    split at hvalid
    · next hsome => exact hcurrent true hsome
    · cases hvalid
    · cases hvalid
  · rw [verification] at hinvalid
    split at hinvalid
    · cases hinvalid
    · next hsome => exact hcurrent false hsome
    · cases hinvalid

/-- A payload under the unsecured algorithm, which takes no key and an empty signature. -/
def unsecured : Signed :=
  ((new ⟨true, false⟩).setHeader "alg" (.string "none")).setPayloadBytes [104, 105]

theorem reached_unsecured : Reached (some 0) unsecured.verify.2 := by
  have h : Reached none unsecured :=
    .step (.setPayloadBytes [104, 105]) (.step (.setHeader "alg" (.string "none")) (.new _))
  have heffect : Op.effect .verify unsecured = .records := by decide +kernel
  have hverify := h.step .verify
  rwa [heffect] at hverify

theorem verdict_is_current_unsecured :
    Reached (some 0) unsecured.verify.2 ∧ unsecured.verify.2.verification = .valid ∧
      unsecured.verify.2.verify.1 = unsecured.verify.2.recomputed ∧
      unsecured.verify.2.recomputed = .ok true := by
  have hage : ∀ n ∈ some 0, n < UInt64.size := by decide
  have hvalid : unsecured.verify.2.verification = .valid := by decide +kernel
  have h := verdict_is_current reached_unsecured hage
  exact ⟨reached_unsecured, hvalid, h.1, h.2.1 hvalid⟩

/-! ## When the counter comes round -/

theorem setKey_iterate (key : Option Key) (n : Nat) (s : Signed) :
    (setKey key)^[n + 1] s = { s with envelope := { s.envelope with
      key, generation := s.envelope.generation + UInt64.ofNat (n + 1) } } := by
  induction n with
  | zero => rfl
  | succ n ih =>
    have hnext : s.envelope.generation + UInt64.ofNat (n + 1) + 1 =
        s.envelope.generation + UInt64.ofNat (n + 1 + 1) := by
      rw [UInt64.ofNat_add (n + 1) 1, UInt64.add_assoc]
      rfl
    rw [Function.iterate_succ_apply', ih, ← hnext]
    rfl

theorem reached_setKey_iterate {age : Option Nat} {s : Signed} (h : Reached age s)
    (key : Option Key) (n : Nat) : ∃ age', Reached age' ((setKey key)^[n] s) := by
  induction n with
  | zero => exact ⟨age, h⟩
  | succ n ih =>
    obtain ⟨age', hreached⟩ := ih
    rw [Function.iterate_succ_apply']
    exact ⟨_, hreached.step (.setKey key)⟩

/-- After exactly as many changes as there are generations the record passes for current,
whatever key has been set. -/
theorem setKey_all_generations (key : Option Key) (s : Signed) :
    (setKey key)^[UInt64.size] s = { s with envelope := { s.envelope with key } } := by
  have hround : UInt64.ofNat (UInt64.size - 1 + 1) = 0 := by decide
  have h := setKey_iterate key (UInt64.size - 1) s
  rw [hround, UInt64.add_zero] at h
  exact h

/-- The last of these changes may as well be one of the header. -/
theorem setHeader_setKey_iterate (key : Option Key) (name : String) (value : Json.Value)
    (s : Signed) : ((setKey key)^[UInt64.size - 1] s).setHeader name value =
      { s with envelope := { s.envelope with
        key, headers := s.envelope.headers.set name value } } := by
  have hlast : UInt64.size - 1 = UInt64.size - 2 + 1 := by decide
  have hround : UInt64.ofNat (UInt64.size - 2 + 1) + 1 = 0 := by decide
  have hgeneration : s.envelope.generation + UInt64.ofNat (UInt64.size - 2 + 1) + 1 =
      s.envelope.generation := by
    rw [UInt64.add_assoc, hround, UInt64.add_zero]
  rw [hlast, setKey_iterate, setHeader, mapEnvelope, Envelope.setHeader, Envelope.touch]
  simp only [hgeneration]

/-- So the bound on the changes cannot be left out: an unsecured payload that was verified
once is still said to be valid after a key is set, which no unsecured payload may have. -/
theorem exists_stale_verdict :
    ∃ age s, Reached age s ∧ s.verification = .valid ∧ s.recomputed ≠ .ok true := by
  obtain ⟨age, h⟩ :=
    reached_setKey_iterate reached_unsecured (some (.symmetric [])) UInt64.size
  rw [setKey_all_generations] at h
  exact ⟨age, _, h, by decide +kernel, by decide +kernel⟩

end Jose.Signed
