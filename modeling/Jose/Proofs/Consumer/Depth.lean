import Jose.Proofs.Consumer.Process
import Jose.Proofs.Text.Canonical

/-! Nothing says how often the loop over the layers may go on, apart from the layers, and
those are chosen by whoever made the token. But what is inside a layer came through the
encoding of a segment, so in bytes it is less than three quarters of the layer, and the
loop goes on no more often than the logarithm of the token allows. -/
namespace Jose.Consumer
open Text Result

variable {c : Consumer}

/-! ## One layer -/

theorem payload_lt_of_parse {config : Config} {token : String} {s : Signed}
    (h : Signed.parse config token = .ok s) :
    4 * s.payload.length < 3 * token.length := by
  obtain ⟨_, _, _, _, payload, _, hsplit, -, -, hpayload, -, rfl⟩ :=
    Signed.parse_eq_ok_iff.mp h
  refine bytes_lt_of_decode hpayload (Compact.length_lt_of_mem_split ?_ ?_) <;> simp [hsplit]

theorem ciphertext_lt_of_parse {token : String} {e : Encrypted}
    (h : Encrypted.parse token = .ok e) :
    4 * e.content.ciphertext.length < 3 * token.length := by
  obtain ⟨_, _, _, _, _, _, _, content, hsplit, -, -, -, -, hciphertext, -, rfl⟩ :=
    Encrypted.parse_eq_ok_iff.mp h
  refine bytes_lt_of_decode hciphertext (Compact.length_lt_of_mem_split ?_ ?_) <;>
    simp [hsplit]

/-- Whether or not it is verified, what a signed layer gives is its payload. -/
theorem decode_of_openSigned {token content : String} {s : Signed} {object : Object}
    (h : c.openSigned token s = .ok (object, content)) :
    s.charset.decode s.payload = .ok content := by
  have hprepared : (c.prepareSigned s).unverifiedPayload = s.charset.decode s.payload := by
    rw [prepareSigned]
    split <;> rfl
  have hverified : (c.prepareSigned s).verify.2.unverifiedPayload =
      (c.prepareSigned s).unverifiedPayload := by
    rw [Signed.verify_snd]
    rfl
  rw [openSigned] at h
  split at h
  · obtain ⟨text, htext, heq⟩ := bind_eq_ok_iff.mp h
    cases heq
    rwa [hprepared] at htext
  split at h
  · next left hverify =>
    rw [hverify, hprepared] at hverified
    obtain ⟨text, htext, heq⟩ := bind_eq_ok_iff.mp h
    cases heq
    rwa [hverified] at htext
  · cases h
  · cases h

theorem decode_of_openEncrypted {content : String} {e : Encrypted} {object : Object}
    (hnone : e.plaintext = none) (h : c.openEncrypted e = .ok (object, content)) :
    ∃ plaintext, e.charset.decode plaintext = .ok content ∧
      plaintext.length < e.content.ciphertext.length := by
  obtain ⟨plaintext, hdecipher, hcontent, -⟩ := (openEncrypted_eq_ok_iff hnone).mp h
  obtain ⟨_, _, _, -, -, -, -, -, hdecrypt⟩ := Encrypted.decipher_eq_ok_iff.mp hdecipher
  have hblocks : e.content.ciphertext.length = 16 * (plaintext.length / 16 + 1) :=
    (ContentEncryption.lengths_of_decrypt hdecrypt).2.1
  exact ⟨plaintext, hcontent, by omega⟩

/-- Under any policy, a signature that is not looked at included. -/
theorem utf8ByteSize_lt_of_openLayer {token content : String} {object : Object}
    (h : c.openLayer token = .ok (object, content)) :
    4 * content.utf8ByteSize < 3 * token.length := by
  obtain ⟨parsed, hparsed, h⟩ := bind_eq_ok_iff.mp h
  cases parsed with
  | signed s =>
    have hparse := Object.parse_eq_ok_signed_iff.mp hparsed
    have hlt := payload_lt_of_parse hparse
    have hcontent := decode_of_openSigned h
    obtain ⟨_, _, _, _, _, _, -, -, -, -, -, rfl⟩ := Signed.parse_eq_ok_iff.mp hparse
    rw [Utf8.utf8ByteSize_of_decode (mapError_eq_ok_iff.mp hcontent)]
    exact hlt
  | encrypted e =>
    have hparse := Object.parse_eq_ok_encrypted_iff.mp hparsed
    have hlt := ciphertext_lt_of_parse hparse
    obtain ⟨_, _, _, _, _, _, _, _, -, -, -, -, -, -, -, rfl⟩ :=
      Encrypted.parse_eq_ok_iff.mp hparse
    obtain ⟨plaintext, hcontent, hshorter⟩ := decode_of_openEncrypted rfl h
    rw [Utf8.utf8ByteSize_of_decode (mapError_eq_ok_iff.mp hcontent)]
    omega

theorem length_lt_of_openLayer {token content : String} {object : Object}
    (h : c.openLayer token = .ok (object, content)) : content.length < token.length := by
  have hlt := utf8ByteSize_lt_of_openLayer h
  have hle := Utf8.length_le_utf8ByteSize content
  omega

/-! ## Layer after layer -/

/-- So many layers open one inside the other, down to the content. How they are marked has
no part in it. -/
inductive Unwraps (c : Consumer) : String → Nat → String → Prop where
  | done {token : String} : Unwraps c token 0 token
  | layer {token inner content : String} {object : Object} {d : Nat}
    (h : c.openLayer token = .ok (object, inner)) (rest : Unwraps c inner d content) :
    Unwraps c token (d + 1) content

/-- With every layer a quarter is lost, of the bytes and of one more than the bytes. -/
theorem Unwraps.pow_le {token content : String} {d : Nat} (h : c.Unwraps token d content) :
    4 ^ d * content.utf8ByteSize ≤ 3 ^ d * token.utf8ByteSize ∧
      4 ^ d * (content.utf8ByteSize + 1) ≤ 3 ^ d * (token.utf8ByteSize + 1) := by
  induction h with
  | done => exact ⟨Nat.le_refl _, Nat.le_refl _⟩
  | @layer token inner content _ d h _ ih =>
    obtain ⟨ih, ih'⟩ := ih
    have hlt := utf8ByteSize_lt_of_openLayer h
    have hle := Utf8.length_le_utf8ByteSize token
    constructor
    · calc
        4 ^ (d + 1) * content.utf8ByteSize = 4 * (4 ^ d * content.utf8ByteSize) := by ring
        _ ≤ 4 * (3 ^ d * inner.utf8ByteSize) := Nat.mul_le_mul_left 4 ih
        _ = 3 ^ d * (4 * inner.utf8ByteSize) := by ring
        _ ≤ 3 ^ d * (3 * token.utf8ByteSize) := Nat.mul_le_mul_left _ (by omega)
        _ = 3 ^ (d + 1) * token.utf8ByteSize := by ring
    · calc
        4 ^ (d + 1) * (content.utf8ByteSize + 1) =
          4 * (4 ^ d * (content.utf8ByteSize + 1)) := by ring
        _ ≤ 4 * (3 ^ d * (inner.utf8ByteSize + 1)) := Nat.mul_le_mul_left 4 ih'
        _ = 3 ^ d * (4 * inner.utf8ByteSize + 4) := by ring
        _ ≤ 3 ^ d * (3 * (token.utf8ByteSize + 1)) := Nat.mul_le_mul_left _ (by omega)
        _ = 3 ^ (d + 1) * (token.utf8ByteSize + 1) := by ring

/-- Three layers more than halve what is left. -/
theorem le_log2_of_pow_le {d n : Nat} (h : 4 ^ d ≤ 3 ^ d * n) : d ≤ 3 * n.log2 + 2 := by
  have hpos : n ≠ 0 := by
    rintro rfl
    exact absurd h (Nat.not_le.mpr (Nat.pow_pos (by decide)))
  obtain ⟨k, r, hr, rfl⟩ : ∃ k r, r < 3 ∧ d = 3 * k + r := ⟨d / 3, d % 3, by omega, by omega⟩
  have hthree : 2 ^ k * (27 ^ k * 4 ^ r) ≤ n * (27 ^ k * 4 ^ r) := by
    calc
      2 ^ k * (27 ^ k * 4 ^ r) = 54 ^ k * 4 ^ r := by rw [← Nat.mul_assoc, ← Nat.mul_pow]
      _ ≤ 64 ^ k * 4 ^ r := Nat.mul_le_mul_right _ (Nat.pow_le_pow_left (by decide) k)
      _ = 4 ^ (3 * k + r) := by rw [Nat.pow_add, Nat.pow_mul]
      _ ≤ 3 ^ (3 * k + r) * n := h
      _ = 27 ^ k * 3 ^ r * n := by rw [Nat.pow_add, Nat.pow_mul]
      _ ≤ 27 ^ k * 4 ^ r * n :=
        Nat.mul_le_mul_right n (Nat.mul_le_mul_left _ (Nat.pow_le_pow_left (by decide) r))
      _ = n * (27 ^ k * 4 ^ r) := Nat.mul_comm _ _
  have hfactor : 0 < 27 ^ k * 4 ^ r :=
    Nat.mul_pos (Nat.pow_pos (by decide)) (Nat.pow_pos (by decide))
  have hlog : k ≤ n.log2 := (Nat.le_log2 hpos).mpr (Nat.le_of_mul_le_mul_right hthree hfactor)
  omega

/-- How many layers a token has at most. -/
def maxLayers (token : String) : Nat := 3 * (token.utf8ByteSize + 1).log2 + 2

theorem Unwraps.le_maxLayers {token content : String} {d : Nat}
    (h : c.Unwraps token d content) : d ≤ maxLayers token := by
  refine le_log2_of_pow_le ?_
  calc
    4 ^ d ≤ 4 ^ d * (content.utf8ByteSize + 1) := Nat.le_mul_of_pos_right _ (Nat.succ_pos _)
    _ ≤ 3 ^ d * (token.utf8ByteSize + 1) := h.pow_le.2

/-! ## The loop -/

/-- The loop over the layers, without fuel: how often it goes on, and what it gives in the
end. It ends at a layer that does not open or is not marked as a token. -/
inductive Loops (c : Consumer) : String → Nat → Result (List Object × Claims) → Prop where
  | refused {token : String} {e : Error} (h : c.openLayer token = .error e) :
    Loops c token 0 (.error e)
  | innermost {token content : String} {object : Object}
    (h : c.openLayer token = .ok (object, content))
    (plain : isNested object.contentType? = false) :
    Loops c token 0 ((fun claims => ([object], claims)) <$> Claims.parse content)
  | nested {token content : String} {object : Object} {d : Nat}
      {result : Result (List Object × Claims)}
    (h : c.openLayer token = .ok (object, content))
    (marked : isNested object.contentType? = true) (rest : Loops c content d result) :
    Loops c token (d + 1) ((fun (objects, claims) => (object :: objects, claims)) <$> result)

theorem Loops.unwraps {token : String} {d : Nat} {result : Result (List Object × Claims)}
    (h : c.Loops token d result) : ∃ content, c.Unwraps token d content := by
  induction h with
  | refused | innermost => exact ⟨_, .done⟩
  | nested h _ _ ih =>
    obtain ⟨content, hrest⟩ := ih
    exact ⟨content, .layer h hrest⟩

theorem unwrap_of_refused {token : String} {e : Error} (h : c.openLayer token = .error e)
    (fuel : Nat) : c.unwrap (fuel + 1) token = .error e := by
  rw [unwrap, h]
  rfl

theorem unwrap_of_innermost {token content : String} {object : Object}
    (h : c.openLayer token = .ok (object, content))
    (plain : isNested object.contentType? = false) (fuel : Nat) :
    c.unwrap (fuel + 1) token =
      (fun claims => ([object], claims)) <$> Claims.parse content := by
  rw [unwrap, h]
  simp only [bind, Except.bind, plain, Bool.false_eq_true, ↓reduceIte]
  cases Claims.parse content <;> rfl

theorem unwrap_of_nested {token content : String} {object : Object}
    (h : c.openLayer token = .ok (object, content))
    (marked : isNested object.contentType? = true) (fuel : Nat) :
    c.unwrap (fuel + 1) token =
      (fun (objects, claims) => (object :: objects, claims)) <$> c.unwrap fuel content := by
  rw [unwrap, h]
  simp only [bind, Except.bind, marked, ↓reduceIte]
  cases c.unwrap fuel content <;> rfl

/-- With fuel for every character the loop never runs out of it. -/
theorem exists_loops {fuel : Nat} {token : String} (hfuel : token.length < fuel) :
    ∃ d, c.Loops token d (c.unwrap fuel token) := by
  induction fuel generalizing token with
  | zero => omega
  | succ fuel ih =>
    cases hopen : c.openLayer token with
    | error e =>
      rw [unwrap_of_refused hopen]
      exact ⟨0, .refused hopen⟩
    | ok layer =>
      obtain ⟨object, content⟩ := layer
      cases hnested : isNested object.contentType? with
      | false =>
        rw [unwrap_of_innermost hopen hnested]
        exact ⟨0, .innermost hopen hnested⟩
      | true =>
        have hlt := length_lt_of_openLayer hopen
        have hleft : content.length < fuel := by omega
        obtain ⟨d, hrest⟩ := ih hleft
        rw [unwrap_of_nested hopen hnested]
        exact ⟨d + 1, .nested hopen hnested hrest⟩

theorem Loops.eq_unwrap {token : String} {d : Nat} {result : Result (List Object × Claims)}
    (h : c.Loops token d result) {fuel : Nat} (hfuel : token.length < fuel) :
    result = c.unwrap fuel token := by
  induction h generalizing fuel with
  | refused h =>
    obtain ⟨spare, rfl⟩ : ∃ spare, fuel = spare + 1 := ⟨fuel - 1, by omega⟩
    exact (unwrap_of_refused h spare).symm
  | innermost h plain =>
    obtain ⟨spare, rfl⟩ : ∃ spare, fuel = spare + 1 := ⟨fuel - 1, by omega⟩
    exact (unwrap_of_innermost h plain spare).symm
  | nested h marked _ ih =>
    obtain ⟨spare, rfl⟩ : ∃ spare, fuel = spare + 1 := ⟨fuel - 1, by omega⟩
    have hlt := length_lt_of_openLayer h
    rw [unwrap_of_nested h marked, ← ih (by omega)]

theorem unwraps_of_unwrap {fuel : Nat} {token : String} {objects : List Object}
    {claims : Claims} (h : c.unwrap fuel token = .ok (objects, claims)) :
    ∃ content, c.Unwraps token objects.length content := by
  induction fuel generalizing token objects with
  | zero => cases h
  | succ fuel ih =>
    obtain ⟨object, content, hopen, ⟨-, rfl, -⟩ | ⟨-, rest, hrest, rfl⟩⟩ :=
      unwrap_succ_eq_ok_iff.mp h
    · exact ⟨content, .layer hopen .done⟩
    · obtain ⟨inner, hinner⟩ := ih hrest
      exact ⟨inner, .layer hopen hinner⟩

/-- In bytes, the content of a layer is less than three quarters of it, and the content of
so many layers at most so many times three quarters of the token; so there are no more of
them than the logarithm of its length allows. The loop over them, which has no limit of
its own, comes to an end for every token and always to the same, and it goes on at most
that often. -/
theorem unwrapping_ends (c : Consumer) (token : String) :
    (∀ object content, c.openLayer token = .ok (object, content) →
      4 * content.utf8ByteSize < 3 * token.utf8ByteSize) ∧
    (∀ d content, c.Unwraps token d content →
      4 ^ d * content.utf8ByteSize ≤ 3 ^ d * token.utf8ByteSize ∧ d ≤ maxLayers token) ∧
    (∃ d, c.Loops token d (c.unwrap (token.length + 1) token)) ∧
    (∀ d result, c.Loops token d result →
      d ≤ maxLayers token ∧ result = c.unwrap (token.length + 1) token) ∧
    ∀ now context, c.process now token = .ok context →
      context.objects.length ≤ maxLayers token := by
  have hlength := Nat.lt_succ_self token.length
  refine ⟨fun object content h => ?_, fun d content h => ⟨h.pow_le.1, h.le_maxLayers⟩,
    exists_loops hlength, fun d result h => ?_, fun now context h => ?_⟩
  · have hlt := utf8ByteSize_lt_of_openLayer h
    have hle := Utf8.length_le_utf8ByteSize token
    omega
  · obtain ⟨content, hunwraps⟩ := h.unwraps
    exact ⟨hunwraps.le_maxLayers, h.eq_unwrap hlength⟩
  · obtain ⟨⟨objects, claims⟩, hunwrap, h⟩ := bind_eq_ok_iff.mp h
    obtain ⟨⟨⟩, -, h⟩ := bind_eq_ok_iff.mp h
    obtain ⟨⟨⟩, -, h⟩ := bind_eq_ok_iff.mp h
    cases h
    obtain ⟨content, hunwraps⟩ := unwraps_of_unwrap hunwrap
    rw [List.length_reverse]
    exact hunwraps.le_maxLayers

theorem unwrapping_ends_nested :
    ∃ context, unsignedOptions.consumer.process ⟨0⟩ nestedToken = .ok context ∧
      context.objects.length = 2 ∧ context.objects.length ≤ maxLayers nestedToken := by
  have hlength : (unsignedOptions.consumer.process ⟨0⟩ nestedToken).toOption.map
      (fun context => context.objects.length) = some 2 := by decide +kernel
  obtain ⟨context, hcontext, htwo⟩ := Option.map_eq_some_iff.mp hlength
  have hprocess := toOption_eq_some_iff.mp hcontext
  obtain ⟨-, -, -, -, hbound⟩ := unwrapping_ends unsignedOptions.consumer nestedToken
  exact ⟨context, hprocess, htwo, hbound ⟨0⟩ context hprocess⟩

end Jose.Consumer
