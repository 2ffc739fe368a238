import Jose.Proofs.Consumer.Layer

/-! A token is accepted exactly if its layers open one after the other, all of them under
the policy, down to claims that pass. The content of a layer is shorter than the layer,
which is why the layers come to an end. -/
namespace Jose.Consumer
open Text Result
variable {c : Consumer}

/-! ## Layers shrink -/

theorem bytes_lt_of_decode {segment token : String} {bytes : Bytes}
    (hbytes : Base64Url.decode segment = .ok bytes)
    (hlength : segment.length < token.length) : 4 * bytes.length < 3 * token.length := by
  have hencode := Base64Url.decode_eq_ok_iff_eq_encode.mp hbytes
  have hsegment := Base64Url.length_encode bytes
  rw [← hencode] at hsegment
  omega

theorem SignedLayer.payload_lt {token content : String} {s : Signed} {a : SignatureAlgorithm}
    (h : c.SignedLayer token s a content) : 4 * s.payload.length < 3 * token.length := by
  obtain ⟨header, payload, signature, hsplit, hpayload, -⟩ := h.verified
  refine bytes_lt_of_decode hpayload (Compact.length_lt_of_mem_split ?_ ?_) <;> simp [hsplit]

theorem EncryptedLayer.plaintext_lt {token content : String} {e : Encrypted}
    {m : KeyManagement} {x : ContentEncryption} {plaintext : Bytes}
    (h : c.EncryptedLayer token e m x plaintext content) :
    4 * plaintext.length < 3 * token.length := by
  obtain ⟨header, iv, ciphertext, tag, secret, hsplit, -, hciphertext, -, -, hdecrypt⟩ :=
    h.deciphered
  have hblocks := (ContentEncryption.lengths_of_decrypt hdecrypt).2.1
  have hlt : 4 * e.content.ciphertext.length < 3 * token.length := by
    refine bytes_lt_of_decode hciphertext (Compact.length_lt_of_mem_split ?_ ?_) <;>
      simp [hsplit]
  omega

/-- In bytes, the content of a layer is less than three quarters of it. -/
theorem Layer.exists_bytes {token content : String} {object : Object}
    (h : c.Layer token object content) :
    ∃ bytes, Charset.utf8.decode bytes = .ok content ∧
      4 * bytes.length < 3 * token.length := by
  cases h with
  | signed hlayer => exact ⟨_, hlayer.content, hlayer.payload_lt⟩
  | encrypted hlayer => exact ⟨_, hlayer.content, hlayer.plaintext_lt⟩

theorem Layer.length_lt {token content : String} {object : Object}
    (h : c.Layer token object content) : content.length < token.length := by
  obtain ⟨bytes, hbytes, hlt⟩ := h.exists_bytes
  have hle := Utf8.length_decode_le (mapError_eq_ok_iff.mp hbytes)
  omega

/-! ## All layers -/

/-- The layers of a token from the outside in, down to a content that is not marked as a
token again. -/
inductive Opens (c : Consumer) : String → List Object → String → Prop where
  | innermost {token content : String} {object : Object}
      (layer : c.Layer token object content)
    (plain : isNested object.contentType? = false) : Opens c token [object] content
  | nested {token inner content : String} {object : Object} {objects : List Object}
    (layer : c.Layer token object inner) (marked : isNested object.contentType? = true)
    (rest : Opens c inner objects content) : Opens c token (object :: objects) content

theorem unwrap_succ_eq_ok_iff {fuel : Nat} {token : String} {objects : List Object}
    {claims : Claims} :
    c.unwrap (fuel + 1) token = .ok (objects, claims) ↔
      ∃ object content, c.openLayer token = .ok (object, content) ∧
        ((isNested object.contentType? = false ∧ objects = [object] ∧
            Claims.parse content = .ok claims) ∨
          (isNested object.contentType? = true ∧ ∃ rest,
            c.unwrap fuel content = .ok (rest, claims) ∧ objects = object :: rest)) := by
  rw [unwrap, bind_eq_ok_iff]
  constructor
  · rintro ⟨⟨object, content⟩, hopen, h⟩
    refine ⟨object, content, hopen, ?_⟩
    dsimp only at h
    split at h
    · next hmarked =>
      obtain ⟨⟨rest, claims'⟩, hrest, heq⟩ := bind_eq_ok_iff.mp h
      cases heq
      exact .inr ⟨hmarked, rest, hrest, rfl⟩
    · next hplain =>
      obtain ⟨claims', hclaims, heq⟩ := bind_eq_ok_iff.mp h
      cases heq
      exact .inl ⟨Bool.eq_false_iff.mpr hplain, rfl, hclaims⟩
  · rintro ⟨object, content, hopen, h⟩
    refine ⟨(object, content), hopen, ?_⟩
    rcases h with ⟨hplain, rfl, hclaims⟩ | ⟨hmarked, rest, hrest, rfl⟩
    · dsimp only
      rw [hplain, if_neg Bool.false_ne_true]
      exact bind_eq_ok_iff.mpr ⟨claims, hclaims, rfl⟩
    · dsimp only
      rw [hmarked, if_pos rfl]
      exact bind_eq_ok_iff.mpr ⟨(rest, claims), hrest, rfl⟩

/-- By induction on the fuel, which the length of what is left stays below. -/
theorem unwrap_eq_ok_iff (hverify : c.skipsVerification = false) {fuel : Nat} {token : String}
    {objects : List Object} {claims : Claims} (hfuel : token.length < fuel) :
    c.unwrap fuel token = .ok (objects, claims) ↔
      ∃ content, c.Opens token objects content ∧ Claims.parse content = .ok claims := by
  induction fuel generalizing token objects with
  | zero => omega
  | succ fuel ih =>
    simp only [unwrap_succ_eq_ok_iff, openLayer_eq_ok_iff hverify]
    constructor
    · rintro ⟨object, inner, hlayer, h⟩
      rcases h with ⟨hplain, rfl, hclaims⟩ | ⟨hmarked, rest, hrest, rfl⟩
      · exact ⟨inner, .innermost hlayer hplain, hclaims⟩
      · have hlt := hlayer.length_lt
        obtain ⟨content, hopens, hclaims⟩ := (ih (by omega)).mp hrest
        exact ⟨content, .nested hlayer hmarked hopens, hclaims⟩
    · rintro ⟨content, hopens, hclaims⟩
      cases hopens with
      | innermost hlayer hplain => exact ⟨_, content, hlayer, .inl ⟨hplain, rfl, hclaims⟩⟩
      | nested hlayer hmarked hrest =>
        have hlt := hlayer.length_lt
        have hunwrap := (ih (by omega)).mpr ⟨content, hrest, hclaims⟩
        exact ⟨_, _, hlayer, .inr ⟨hmarked, _, hunwrap, rfl⟩⟩

/-! ## Protection and claims -/

/-- Some layer is signed by another algorithm than the unsecured one. -/
def HasSignature (objects : List Object) : Prop :=
  ∃ s, Object.signed s ∈ objects ∧ s.envelope.headers.string? "alg" ≠ some "none"

def HasEncryption (objects : List Object) : Prop := ∃ e, Object.encrypted e ∈ objects

theorem any_isSecured_iff {objects : List Object} :
    objects.any Object.isSecured = true ↔ HasSignature objects := by
  rw [List.any_eq_true]
  constructor
  · rintro ⟨object, hmem, hsecured⟩
    cases object with
    | signed s =>
      refine ⟨s, hmem, fun hnone => ?_⟩
      rw [Object.isSecured, Object.isUnsecured, Object.algorithmId?, Object.headers, hnone]
        at hsecured
      cases hsecured
    | encrypted e => cases hsecured
  · rintro ⟨s, hmem, hne⟩
    refine ⟨.signed s, hmem, ?_⟩
    rw [Object.isSecured, Object.isUnsecured, Object.algorithmId?, Object.headers,
      decide_eq_false hne]
    rfl

theorem any_isEncrypted_iff {objects : List Object} :
    objects.any Object.isEncrypted = true ↔ HasEncryption objects := by
  rw [List.any_eq_true]
  constructor
  · rintro ⟨object, hmem, hencrypted⟩
    cases object with
    | signed s => cases hencrypted
    | encrypted e => exact ⟨e, hmem⟩
  · rintro ⟨e, hmem⟩
    exact ⟨.encrypted e, hmem, rfl⟩

theorem checkProtection_eq_ok_iff {token : String} {objects : List Object} :
    c.checkProtection token objects = .ok () ↔
      (c.requiresSignature = true → HasSignature objects) ∧
      (c.requiresEncryption = true → HasEncryption objects) := by
  rw [← any_isSecured_iff, ← any_isEncrypted_iff, checkProtection]
  cases c.requiresSignature <;> cases c.requiresEncryption <;>
    cases objects.any Object.isSecured <;> cases objects.any Object.isEncrypted <;> simp

theorem reason?_eq_none_iff {now : NumericDate} {claims : Claims} {v : Validator} :
    reason? now claims v = none ↔ v now claims = .ok none := by
  rw [reason?]
  cases v now claims with
  | ok reason => simp
  | error e => simp

theorem validate_eq_ok_iff {now : NumericDate} {claims : Claims} :
    c.validate now claims = .ok () ↔
      c.skipsValidators = true ∨ ∀ v ∈ c.validators, v now claims = .ok none := by
  rw [validate]
  cases c.skipsValidators with
  | true => simp
  | false =>
    have hnone : c.validators.filterMap (reason? now claims) = [] ↔
        ∀ v ∈ c.validators, v now claims = .ok none := by
      simp only [List.filterMap_eq_nil_iff, reason?_eq_none_iff]
    rw [← hnone]
    cases c.validators.filterMap (reason? now claims) <;> simp

/-- A token is accepted exactly if its layers open, each under the policy, down to claims
that parse; if a required signature or encryption is among the layers; and if no validator
objects. What is given back is the token, the claims and the layers from the inside
out. -/
theorem process_accepts_iff (hverify : c.skipsVerification = false) {now : NumericDate}
    {token : String} {context : Context} :
    c.process now token = .ok context ↔ ∃ objects content claims,
      c.Opens token objects content ∧ Claims.parse content = .ok claims ∧
      (c.requiresSignature = true → HasSignature objects) ∧
      (c.requiresEncryption = true → HasEncryption objects) ∧
      (c.skipsValidators = true ∨ ∀ v ∈ c.validators, v now claims = .ok none) ∧
      context = ⟨token, claims, objects.reverse⟩ := by
  unfold process
  simp only [bind_eq_ok_iff, pure_eq_ok_iff]
  constructor
  · rintro ⟨⟨objects, claims⟩, hunwrap, ⟨⟩, hprotection, ⟨⟩, hvalid, rfl⟩
    obtain ⟨content, hopens, hclaims⟩ := (unwrap_eq_ok_iff hverify (by omega)).mp hunwrap
    obtain ⟨hsignature, hencryption⟩ := checkProtection_eq_ok_iff.mp hprotection
    exact ⟨objects, content, claims, hopens, hclaims, hsignature, hencryption,
      validate_eq_ok_iff.mp hvalid, rfl⟩
  · rintro ⟨objects, content, claims, hopens, hclaims, hsignature, hencryption, hvalid, rfl⟩
    exact ⟨(objects, claims),
      (unwrap_eq_ok_iff hverify (by omega)).mpr ⟨content, hopens, hclaims⟩,
      (), checkProtection_eq_ok_iff.mpr ⟨hsignature, hencryption⟩,
      (), validate_eq_ok_iff.mpr hvalid, rfl⟩

/-- The defaults, but for the signature, which is not required. -/
def unsignedOptions : Options := { Options.default with requiresSignature := false }

/-- Two unsecured layers around an empty set of claims. -/
def nestedToken : String :=
  "eyJhbGciOiJub25lIiwiY3R5IjoiSldUIn0.ZXlKaGJHY2lPaUp1YjI1bEluMC5lMzAu."

theorem process_accepts_nested :
    unsignedOptions.consumer.skipsVerification = false ∧
      ∃ context objects content claims,
        unsignedOptions.consumer.process ⟨0⟩ nestedToken = .ok context ∧
        unsignedOptions.consumer.Opens nestedToken objects content ∧
        Claims.parse content = .ok claims ∧ context = ⟨nestedToken, claims, objects.reverse⟩ ∧
        objects.length = 2 := by
  have hlength : (unsignedOptions.consumer.process ⟨0⟩ nestedToken).toOption.map
      (fun context => context.objects.length) = some 2 := by decide +kernel
  obtain ⟨context, hcontext, htwo⟩ := Option.map_eq_some_iff.mp hlength
  have hprocess := toOption_eq_some_iff.mp hcontext
  obtain ⟨objects, content, claims, hopens, hclaims, -, -, -, rfl⟩ :=
    (process_accepts_iff rfl).mp hprocess
  rw [List.length_reverse] at htwo
  exact ⟨rfl, _, objects, content, claims, hprocess, hopens, hclaims, rfl, htwo⟩

/-- Where a signature is required, the same token is refused. -/
example : (Options.default.consumer.process ⟨0⟩ nestedToken).toOption.isNone = true := by
  decide +kernel

end Jose.Consumer
