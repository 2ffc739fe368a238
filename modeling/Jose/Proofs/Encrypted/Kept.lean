import Jose.Proofs.Encrypted.Rejection
import Jose.Proofs.Encrypted.Run

/-! The plaintext that a receiver reads. It is deciphered once, and then it is given again
whatever key, policy or header is set, although each of these moves to another generation.
So what is read is what the envelope was deciphered to as it stood at the first read that
succeeded. -/
namespace Jose.Encrypted
open Text Result

inductive Op.Reads : Op → Prop where
  | plaintextBytes : Reads .plaintextBytes
  | plaintextText : Reads .plaintextText

/-- The setters, but for those of a plaintext. -/
inductive Op.Sets : Op → Prop where
  | terms {op : Op} (h : op.SetsTerms) : Sets op
  | setCharset (charset : Charset) : Sets (.setCharset charset)
  | setHeader (name : String) (value : Json.Value) : Sets (.setHeader name value)
  | setIv (iv : Bytes) : Sets (.setIv iv)

/-- The envelope itself, if it has not been deciphered, and can be. -/
def opening (e : Encrypted) : Option Encrypted :=
  match e.plaintext, e.decipher with
  | none, .ok _ => some e
  | _, _ => none

/-- The envelopes that a receiver comes to with a token, each with the one that was
deciphered on the way there, if any was. -/
inductive Received (token : String) : Option Encrypted → Encrypted → Prop where
  | parse {e : Encrypted} (h : parse token = .ok e) : Received token none e
  | set {opened : Option Encrypted} {op : Op} {e : Encrypted} (hop : op.Sets)
    (h : Received token opened e) : Received token opened (op.run e)
  | read {opened : Option Encrypted} {op : Op} {e : Encrypted} (hop : op.Reads)
    (h : Received token opened e) : Received token (opened.or e.opening) (op.run e)

/-- The plaintext that is kept is the one that the envelope of that time was deciphered
to. -/
def Kept : Option Encrypted → Encrypted → Prop
  | none, e => e.plaintext = none
  | some o, e => ∃ bytes, o.decipher = .ok bytes ∧ e.plaintext = some bytes ∧
      e.content = o.content

variable {token : String} {opened : Option Encrypted} {e : Encrypted}

theorem run_of_reads {op : Op} (hop : op.Reads) (e : Encrypted) :
    op.run e = e.plaintextBytes.2 := by
  cases hop with
  | plaintextBytes => rfl
  | plaintextText => exact plaintextText_snd e

theorem run_of_sets {op : Op} (hop : op.Sets) (e : Encrypted) :
    (op.run e).plaintext = e.plaintext ∧ (op.run e).content = e.content := by
  cases hop with
  | terms h =>
    have hkeeps : Keeps e (op.run e) := (OnTerms.set h .refl).keeps
    exact ⟨hkeeps.plaintext, hkeeps.content⟩
  | setCharset | setHeader | setIv => exact ⟨rfl, rfl⟩

theorem Kept.set (h : Kept opened e) {op : Op} (hop : op.Sets) : Kept opened (op.run e) := by
  obtain ⟨hplaintext, hcontent⟩ := run_of_sets hop e
  cases opened with
  | none => exact hplaintext.trans h
  | some o =>
    obtain ⟨bytes, hbytes, hkept, hsame⟩ := h
    exact ⟨bytes, hbytes, hplaintext.trans hkept, hcontent.trans hsame⟩

/-- Only the first read that succeeds deciphers. -/
theorem Kept.read (h : Kept opened e) : Kept (opened.or e.opening) e.plaintextBytes.2 := by
  cases opened with
  | some o =>
    obtain ⟨bytes, hbytes, hkept, hsame⟩ := h
    rw [plaintextBytes_of_some hkept]
    exact ⟨bytes, hbytes, hkept, hsame⟩
  | none =>
    have hnone : e.plaintext = none := h
    rw [Option.none_or, opening, hnone]
    cases hdecipher : e.decipher with
    | ok bytes =>
      rw [plaintextBytes_of_decipher hnone hdecipher]
      exact ⟨bytes, hdecipher, rfl, rfl⟩
    | error error =>
      rw [plaintextBytes_of_error hnone hdecipher]
      exact hnone

theorem kept_of_received (h : Received token opened e) : Kept opened e := by
  induction h with
  | parse h => exact plaintext_of_parse h
  | set hop _ ih => exact ih.set hop
  | @read _ op e hop _ ih =>
    rw [run_of_reads hop e]
    exact ih.read

/-- Until the content is deciphered, a read gives what deciphering gives. From then on
every read gives the plaintext of that first time and changes nothing, so it gives what
deciphering would give now exactly if that is still the same. It is as long as the
envelope is like the one that was deciphered, but not beyond. -/
theorem read_repeats_first_plaintext (h : Received token opened e) :
    (opened = none → e.plaintextBytes.1 = e.decipher) ∧
    (∀ o ∈ opened, (∃ bytes, o.decipher = .ok bytes) ∧ e.plaintextBytes = (o.decipher, e) ∧
      (Alike o e → e.decipher = o.decipher)) ∧
    ((∀ bytes, e.plaintextBytes.1 = .ok bytes → e.decipher = .ok bytes) ↔
      ∀ o ∈ opened, e.decipher = o.decipher) := by
  have hkept := kept_of_received h
  cases opened with
  | none =>
    have hread := plaintextBytes_fst hkept
    refine ⟨fun _ => hread, fun o ho => ?_, fun _ o ho => ?_, fun _ bytes hbytes => ?_⟩
    · cases ho
    · cases ho
    · rw [← hread, hbytes]
  | some o =>
    obtain ⟨bytes, hbytes, hplaintext, hcontent⟩ := hkept
    have hread : e.plaintextBytes = (o.decipher, e) := by
      rw [plaintextBytes_of_some hplaintext, hbytes]
    refine ⟨fun hnone => ?_, ?_, fun hcurrent => ?_, fun hsame bytes' hbytes' => ?_⟩
    · cases hnone
    · rintro _ ⟨⟩
      exact ⟨⟨bytes, hbytes⟩, hread, fun halike => halike.decipher hcontent⟩
    · rintro _ ⟨⟩
      rw [hbytes]
      exact hcurrent bytes (by rw [hread, hbytes])
    · rw [hsame o rfl, ← hbytes', hread]

theorem Received.onTerms {e' : Encrypted} (h : Received token opened e)
    (hterms : OnTerms e e') : Received token opened e' := by
  induction hterms with
  | refl => exact h
  | set hop _ ih => exact .set (.terms hop) ih

/-- The envelope once it was read under the shared key. -/
def readOnce (e : Encrypted) : Encrypted :=
  (e.under (.sharing 7) .unrestricted).plaintextBytes.2

theorem exists_readOnce :
    ∃ e o : Encrypted, parse sealed = .ok e ∧ o.decipher = .ok [104, 105] ∧
      e.readOnce = { e.under (.sharing 7) .unrestricted with plaintext := some [104, 105] } ∧
      Received sealed (some o) e.readOnce := by
  obtain ⟨e, hparse, hdecipher⟩ := sealed_deciphers
  have hnone : (e.under (.sharing 7) .unrestricted).plaintext = none :=
    plaintext_of_parse (e := e) hparse
  have hopening : (e.under (.sharing 7) .unrestricted).opening =
      some (e.under (.sharing 7) .unrestricted) := by
    simp only [opening, hnone, hdecipher]
  have hreceived :=
    (Received.parse hparse).onTerms (onTerms_under (.sharing 7) .unrestricted e)
  have hread := Received.read .plaintextBytes hreceived
  rw [hopening] at hread
  exact ⟨e, _, hparse, hdecipher,
    by rw [readOnce, plaintextBytes_of_decipher hnone hdecipher], hread⟩

/-- It is given on any terms that are set afterwards. -/
theorem readOnce_under {e : Encrypted}
    (hleft : e.readOnce =
      { e.under (.sharing 7) .unrestricted with plaintext := some [104, 105] })
    (t : Terms) (encryption : Constraints) :
    (e.readOnce.under t encryption).plaintextBytes.1 = .ok [104, 105] ∧
      (e.readOnce.under t encryption).decipher = (e.under t encryption).decipher := by
  have hplaintext : (e.readOnce.under t encryption).plaintext = some [104, 105] := by
    rw [hleft]
    rfl
  have hheaders : e.readOnce.envelope.headers = e.envelope.headers := by
    rw [hleft]
    rfl
  have hencrypted : e.readOnce.encryptedKey = e.encryptedKey := by
    rw [hleft]
    rfl
  have hcontent : e.readOnce.content = e.content := by
    rw [hleft]
    rfl
  exact ⟨congrArg Prod.fst (plaintextBytes_of_some hplaintext),
    Alike.decipher ⟨sameTerms_under t encryption e e.readOnce, hheaders, hencrypted⟩ hcontent⟩

theorem read_repeats_first_plaintext_rekeyed :
    ∃ e o : Encrypted, Received sealed (some o) (e.readOnce.setKey none) ∧
      (e.readOnce.setKey none).plaintextBytes.1 = .ok [104, 105] := by
  obtain ⟨e, o, -, hdecipher, -, hreceived⟩ := exists_readOnce
  have hrekeyed : Received sealed (some o) (e.readOnce.setKey none) :=
    .set (.terms (.setKey none)) hreceived
  obtain ⟨-, hread, -⟩ := (read_repeats_first_plaintext hrekeyed).2.1 o rfl
  exact ⟨e, o, hrekeyed, by rw [hread, hdecipher]⟩

/-- A plaintext is read although the content could not be deciphered under the key that is
set now, or the constraints that are set now forbid it. -/
theorem kept_plaintext_goes_stale :
    ∃ e o : Encrypted, parse sealed = .ok e ∧
      (Received sealed (some o) (e.readOnce.under (.sharing 8) .unrestricted) ∧
        (e.readOnce.under (.sharing 8) .unrestricted).plaintextBytes.1 = .ok [104, 105] ∧
        (e.readOnce.under (.sharing 8) .unrestricted).decipher = .error .rejectedContent) ∧
      Received sealed (some o) (e.readOnce.under (.sharing 7) (.block ["A128CBC-HS256"])) ∧
        (e.readOnce.under (.sharing 7) (.block ["A128CBC-HS256"])).plaintextBytes.1 =
          .ok [104, 105] ∧
        (e.readOnce.under (.sharing 7) (.block ["A128CBC-HS256"])).decipher =
          .error (.constraintViolation "'A128CBC-HS256' is a blocked algorithm.") := by
  have hother : (parse sealed).toOption.map (fun e =>
    (e.under (.sharing 8) .unrestricted).decipher) =
      some (.error .rejectedContent) := by decide +kernel
  have hblocked : (parse sealed).toOption.map
      (fun e => (e.under (.sharing 7) (.block ["A128CBC-HS256"])).decipher) =
      some (.error (.constraintViolation "'A128CBC-HS256' is a blocked algorithm.")) := by
        decide +kernel
  obtain ⟨e, o, hparse, -, hleft, hreceived⟩ := exists_readOnce
  rw [hparse] at hother hblocked
  obtain ⟨hread, hfails⟩ := readOnce_under hleft (.sharing 8) .unrestricted
  obtain ⟨hread', hfails'⟩ := readOnce_under hleft (.sharing 7) (.block ["A128CBC-HS256"])
  exact ⟨e, o, hparse,
    ⟨hreceived.onTerms (onTerms_under (.sharing 8) .unrestricted _), hread,
      hfails.trans (Option.some.inj hother)⟩,
    hreceived.onTerms (onTerms_under (.sharing 7) (.block ["A128CBC-HS256"]) _), hread',
    hfails'.trans (Option.some.inj hblocked)⟩

end Jose.Encrypted
