import Jose.Proofs.Fetch.Attempt

/-! Attempts go on as long as they fail in a way that may pass and retries are left. What
the replies of the peer lead to is sorted first; the loop is then followed by the number
of failures before the attempt that ends it. Nothing is assumed of the client. -/
namespace Jose.Fetch.Get
open Text Result

/-! ## What a reply leads to -/

/-- The failures that may pass: a connection that fails without TLS being the cause,
another status, and a body that breaks off, again without TLS being the cause. -/
inductive Passing (url : String) : Reply → Except FetchError Response → Prop where
  | failed {f : Failure} (hcause : f.tls? = none) :
    Passing url (.failed f) (.error (.transfer url f.message))
  | status {a : Arrival} (h : a.status ∉ [200, 404, 410]) :
    Passing url (.response a) (.error (.status a.status (standardReason a.status) url))
  | cut {a : Arrival} {f : Failure} (h : a.status = 200) (hcut : a.failure? = some f)
    (hcause : f.tls? = none) : Passing url (.response a) (.error (.transfer url f.message))

/-- The failures that the loop takes for ones that may pass. -/
def Retryable (outcome : Except FetchError Response) : Prop :=
  ∃ e, outcome = .error e ∧ e.isRetryable = true

variable {g : Get} {url : String} {reply : Reply}

theorem Passing.retryable {outcome : Except FetchError Response}
    (h : Passing url reply outcome) : Retryable outcome := by
  cases h with
  | failed | status | cut => exact ⟨_, rfl, rfl⟩

variable {outcome : Nat → Except FetchError Response}

variable {Url : Type}

variable {client : Client Url} {connection : Url → Nat → Reply} {location : String} {u : Url}

/-- A configuration is refused for its proxy, for a certificate, or as a whole, and for
nothing else. -/
theorem checkConfiguration_eq_ok_iff :
    g.checkConfiguration client = .ok () ↔
      (∀ proxy, g.proxy = some proxy → client.proxyFault? proxy = none) ∧
      (∀ der ∈ g.trusted, client.certificateFault? der = none) ∧
      client.buildFault? g.proxy g.trusted = none := by
  have hok : g.checkConfiguration client = .ok () ↔ g.configurationFault? client = none := by
    cases h : g.configurationFault? client <;> simp [checkConfiguration, h]
  simp [hok, configurationFault?, Option.bind_eq_none_iff, List.findSome?_eq_none_iff]

/-- A client that takes every text for a location and finds nothing wrong. -/
def lenient : Client String := ⟨.ok, id, fun _ => none, fun _ => none, fun _ _ => none⟩

end Jose.Fetch.Get
