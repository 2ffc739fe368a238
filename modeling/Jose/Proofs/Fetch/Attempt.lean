import Jose.Fetch.Get
import Jose.Proofs.Result

/-! What comes of one attempt. However a body is divided into pieces, the cut-off looks at
its whole length only, so a response of status 200 is judged by its header, its bytes and
the failure that it breaks off with. -/
namespace Jose.Fetch.Get
open Text Result

variable {g : Get} {url : String}

/-! ## The body -/

theorem exceeds_of_le {limit : Option Nat} {m n : Nat} (h : exceeds limit m = true)
    (hle : m ≤ n) : exceeds limit n = true := by
  cases limit with
  | none => simp [exceeds] at h
  | some limit =>
    simp only [exceeds, decide_eq_true_eq] at h ⊢
    omega

/-- Reading stops at the first piece with which the limit is exceeded, which is exceeded
in the end if it is ever. -/
theorem readBody_eq {limit : Option Nat} {failure? : Option Failure} {read : Bytes}
    (chunks : List Bytes) (h : exceeds limit read.length = false) :
    g.readBody url limit failure? read chunks =
      if exceeds limit (read ++ chunks.flatten).length then .error (.tooLarge g.bodyLimit)
      else failure?.elim (.ok (read ++ chunks.flatten)) fun failure =>
        .error (failure.classify url) := by
  induction chunks generalizing read with
  | nil => cases failure? <;> simp [readBody, h]
  | cons chunk chunks ih =>
    simp only [readBody, List.flatten_cons, ← List.append_assoc]
    by_cases hchunk : exceeds limit (read ++ chunk).length = true
    · have hall : exceeds limit (read ++ chunk ++ chunks.flatten).length = true :=
        exceeds_of_le hchunk (by simp)
      rw [if_pos hchunk, if_pos hall]
    · rw [if_neg hchunk]
      exact ih (by simpa using hchunk)

/-! ## The response -/

theorem receive_missing {a : Arrival} (h : a.status ∈ [404, 410]) :
    g.receive url a = .error (.notFound url) := by
  have hstatus : a.status = 404 ∨ a.status = 410 := by simpa using h
  simp [receive, hstatus, bind, Except.bind]

theorem receive_status {a : Arrival} (h : a.status ∉ [200, 404, 410]) :
    g.receive url a = .error (.status a.status (standardReason a.status) url) := by
  simp only [List.mem_cons, List.not_mem_nil, or_false, not_or] at h
  simp [receive, h, bind, Except.bind]

/-- The text of the body is counted only once all of it is there. -/
theorem receive_ok {a : Arrival} {charset : Charset} {bytes : Bytes} (h : a.status = 200)
    (hcharset : charsetOf a.headers = charset) (hbytes : a.chunks.flatten = bytes) :
    g.receive url a =
      if exceeds (g.byteLimit? charset) bytes.length then .error (.tooLarge g.bodyLimit)
      else a.failure?.elim
        (if 0 < g.bodyLimit ∧ g.bodyLimit < (bodyText charset bytes).length then
          .error (.tooLarge g.bodyLimit)
        else .ok (.new 200 (standardReason 200) (headerMap a.headers)
          (bodyText charset bytes)))
        fun failure => .error (failure.classify url) := by
  have hstart : exceeds (g.byteLimit? charset) ([] : Bytes).length = false := by
    cases g.byteLimit? charset <;> simp [exceeds]
  simp only [receive, h, bind, Except.bind, hcharset, readBody_eq a.chunks hstart,
    List.nil_append, hbytes]
  by_cases hlimit : exceeds (g.byteLimit? charset) bytes.length = true
  · simp [hlimit]
  · cases a.failure? <;> simp [hlimit, pure, Except.pure]

/-- What is returned has the headers that came, and the text of all the bytes. -/
theorem eq_new_of_receive {a : Arrival} {r : Response} (h : g.receive url a = .ok r) :
    r = .new 200 (standardReason 200) (headerMap a.headers)
      (bodyText (charsetOf a.headers) a.chunks.flatten) := by
  by_cases hok : a.status = 200
  · rw [receive_ok hok rfl rfl] at h
    split at h
    · cases h
    cases hfailure : a.failure? with
    | some failure =>
      rw [hfailure] at h
      cases h
    | none =>
      rw [hfailure, Option.elim_none] at h
      split at h
      · cases h
      · exact (Except.ok.inj h).symm
  · by_cases hmissing : a.status ∈ [404, 410]
    · rw [receive_missing hmissing] at h
      cases h
    · have hother : a.status ∉ [200, 404, 410] := fun hmem =>
        (List.mem_cons.mp hmem).elim hok hmissing
      rw [receive_status hother] at h
      cases h

/-- Of a whole response of status 200, only too large a body is refused. -/
theorem exists_receive_eq_ok {a : Arrival} (h : a.status = 200) (hwhole : a.isWhole = true)
    (hwithin : g.receive url a ≠ .error (.tooLarge g.bodyLimit)) :
    ∃ r, g.receive url a = .ok r := by
  rw [receive_ok h rfl rfl] at hwithin ⊢
  rw [Option.isNone_iff_eq_none.mp hwhole, Option.elim_none] at hwithin ⊢
  split at hwithin
  · exact absurd rfl hwithin
  next hbytes =>
  split at hwithin
  · exact absurd rfl hwithin
  next hcharacters =>
  rw [if_neg hbytes, if_neg hcharacters]
  exact ⟨_, rfl⟩

end Jose.Fetch.Get
