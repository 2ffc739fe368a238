import Jose.Proofs.Headers.Wire
import Jose.Proofs.Signed.Run

/-! Runs under one configuration that keep to some of the operations. What an operation
leaves alone is said once, so that an invariant of the constraints or of the header needs
to look at their setters only. -/
namespace Jose.Signed
open Result

/-- As `Reached`, with a given configuration and with some of the operations only. -/
inductive ReachedBy (allowed : Op → Prop) (config : Config) : Option Nat → Signed → Prop where
  | new : ReachedBy allowed config none (new config)
  | parse {token : String} {s : Signed} (h : parse config token = .ok s) :
    ReachedBy allowed config none s
  | step {age : Option Nat} {s : Signed} (op : Op) (hop : allowed op)
    (h : ReachedBy allowed config age s) :
    ReachedBy allowed config ((op.effect s).age age) (op.run s)

variable {allowed : Op → Prop} {config : Config} {age : Option Nat} {s s' : Signed}

theorem ReachedBy.reached (h : ReachedBy allowed config age s) : Reached age s := by
  induction h with
  | new => exact .new config
  | parse h => exact .parse h
  | step op _ _ ih => exact ih.step op

/-! ## What an operation leaves alone -/

/-- Neither the configuration nor the constraints nor the header is another. -/
structure Frame (s s' : Signed) : Prop where
  config : s'.config = s.config
  constraints : s'.envelope.constraints = s.envelope.constraints
  headers : s'.envelope.headers = s.envelope.headers

theorem Frame.refl (s : Signed) : Frame s s := ⟨rfl, rfl, rfl⟩

theorem Frame.getD {r : Result Signed} (h : ∀ s', r = .ok s' → Frame s s') :
    Frame s (r.toOption.getD s) := by
  cases r with
  | ok s' => exact h s' rfl
  | error e => exact .refl s

theorem frame_sign (s : Signed) : Frame s (s.sign.toOption.getD s) := by
  refine .getD fun s' hs' => ?_
  obtain ⟨_, signature, _, _, _, rfl⟩ := sign_eq_ok_iff.mp hs'
  exact ⟨rfl, rfl, rfl⟩

theorem frame_verify (s : Signed) : Frame s s.verify.2 := by
  rw [verify_snd]
  exact ⟨rfl, rfl, rfl⟩

theorem frame_payloadBytes (s : Signed) : Frame s s.payloadBytes.2 := by
  rw [payloadBytes_snd]
  split
  · exact .refl s
  · exact frame_verify s

/-- Only the two setters change what the frame holds. -/
theorem frame_run (op : Op) (s : Signed) :
    Frame s (op.run s) ∨ (∃ constraints, op = .setConstraints constraints) ∨
      ∃ name value, op = .setHeader name value := by
  cases op with
  | setConstraints constraints => exact .inr (.inl ⟨constraints, rfl⟩)
  | setHeader name value => exact .inr (.inr ⟨name, value, rfl⟩)
  | setPayload text =>
    refine .inl (.getD fun s' hs' => ?_)
    obtain ⟨payload, -, rfl⟩ := setPayload_eq_ok_iff.mp hs'
    exact ⟨rfl, rfl, rfl⟩
  | setEncodedPayload segment =>
    refine .inl (.getD fun s' hs' => ?_)
    obtain ⟨payload, -, rfl⟩ := setEncodedPayload_eq_ok_iff.mp hs'
    exact ⟨rfl, rfl, rfl⟩
  | setPayloadBytes | setCharset | setKey | setValidatesKeys | setKnownCritical =>
    exact .inl ⟨rfl, rfl, rfl⟩
  | sign => exact .inl (frame_sign s)
  | compact =>
    rw [Op.run, compact_snd]
    exact .inl (frame_sign s)
  | detached =>
    rw [Op.run, detached_snd]
    exact .inl (frame_sign s)
  | verify => exact .inl (frame_verify s)
  | payloadBytes => exact .inl (frame_payloadBytes s)
  | payloadText =>
    rw [Op.run, payloadText_snd]
    exact .inl (frame_payloadBytes s)

/-! ## Invariants -/

/-- The constraints that an envelope begins with stay, if no others are set. -/
theorem constraints_of_reachedBy (h : ReachedBy allowed config age s)
    (hkept : ∀ constraints, ¬allowed (.setConstraints constraints)) :
    s.envelope.constraints = defaultConstraints config ∧ s.config = config := by
  induction h with
  | new => exact ⟨rfl, rfl⟩
  | parse h =>
    obtain ⟨_, _, _, _, _, _, _, _, _, _, _, rfl⟩ := parse_eq_ok_iff.mp h
    exact ⟨rfl, rfl⟩
  | @step _ s op hop _ ih =>
    rcases frame_run op s with hframe | ⟨constraints, rfl⟩ | ⟨name, value, rfl⟩
    · rw [hframe.constraints, hframe.config]
      exact ih
    · exact absurd hop (hkept constraints)
    · exact ih

/-- What is set in the header is a value of JSON. -/
def Op.WellFormed : Op → Prop
  | .setHeader _ value => value.WellFormed
  | _ => True

theorem faithful_of_reachedBy (h : ReachedBy Op.WellFormed config age s) :
    s.envelope.headers.Faithful := by
  induction h with
  | new => exact Headers.faithful_empty
  | parse h =>
    obtain ⟨_, _, _, _, _, _, _, _, hheader, _, _, rfl⟩ := parse_eq_ok_iff.mp h
    exact Headers.faithful_of_parse hheader
  | @step _ s op hop _ ih =>
    rcases frame_run op s with hframe | ⟨constraints, rfl⟩ | ⟨name, value, rfl⟩
    · rw [hframe.headers]
      exact ih
    · exact ih
    · exact ih.set name hop

end Jose.Signed
