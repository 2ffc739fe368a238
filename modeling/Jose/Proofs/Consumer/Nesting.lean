import Jose.Proofs.Claims.RoundTrip
import Jose.Proofs.Consumer.Wrapping

/-! Claims that are wrapped in any number of layers are the claims that come out. Layers
are put on from the inside out and taken off from the outside in, so the induction is on
the layers and carries what the receiver has opened of the token so far. -/
namespace Jose
open Text Result Hash

theorem asciiEqualIgnoringCase_iff {a b : String} :
    asciiEqualIgnoringCase a b = true ↔
      a.toList.map Char.toLower = b.toList.map Char.toLower := by
  rw [asciiEqualIgnoringCase, decide_eq_true_iff, ← String.toList_inj, String.toList_map,
    String.toList_map]

/-- In any letter case. -/
theorem isNested_eq_true_iff {contentType : Option String} :
    isNested contentType = true ↔
      ∃ cty ∈ contentType, cty.toList.map Char.toLower = "jwt".toList ∨
      cty.toList.map Char.toLower = "application/jwt".toList := by
  cases contentType with
  | none => simp [isNested]
  | some cty =>
    have hjwt : "JWT".toList.map Char.toLower = "jwt".toList := by decide
    have happlication : "application/jwt".toList.map Char.toLower =
        "application/jwt".toList := by decide
    simp only [isNested, Bool.or_eq_true, asciiEqualIgnoringCase_iff, hjwt, happlication,
      Option.mem_some_iff, exists_eq_left']

namespace Wrapper

/-- The innermost layer comes first. -/
def wrapAll : List Wrapper → String → Result String
  | [], text => .ok text
  | w :: ws, text => do
    let token ← w.wrap text
    wrapAll ws token

variable {secret key : Bytes} {w : Wrapper} {ws : List Wrapper} {text token : String}

theorem wrapAll_cons_eq_ok_iff :
    wrapAll (w :: ws) text = .ok token ↔
      ∃ inner, w.wrap text = .ok inner ∧ wrapAll ws inner = .ok token := by
  rw [wrapAll, bind_eq_ok_iff]

/-- Only the innermost text may be other than ASCII. -/
theorem exists_wrapAll_iff (hfits : ∀ w ∈ ws, w.Fits secret key)
    (hwrites : ∀ w ∈ ws.head?, w.Writes text) :
    (∃ token, wrapAll ws text = .ok token) ↔ ∀ w ∈ ws, w.Permitted := by
  induction ws generalizing text with
  | nil => simp [wrapAll]
  | cons w ws ih =>
    obtain ⟨hw, hws⟩ := List.forall_mem_cons.mp hfits
    have hfirst : w.Writes text := hwrites w rfl
    have hrest : ∀ inner, w.wrap text = .ok inner →
        ((∃ token, wrapAll ws inner = .ok token) ↔ ∀ w ∈ ws, w.Permitted) := by
      intro inner hinner
      exact ih hws fun w' _ => writes_of_ascii (hw.ascii_of_wrap hfirst hinner) w'
    simp only [wrapAll_cons_eq_ok_iff, List.forall_mem_cons, ← hw.exists_wrap_iff hfirst]
    constructor
    · rintro ⟨token, inner, hinner, htoken⟩
      exact ⟨⟨inner, hinner⟩, (hrest inner hinner).mp ⟨token, htoken⟩⟩
    · rintro ⟨⟨inner, hinner⟩, hpermitted⟩
      obtain ⟨token, htoken⟩ := (hrest inner hinner).mpr hpermitted
      exact ⟨token, inner, hinner, htoken⟩

theorem exists_shown {objects : List Object} (h : List.Forall₂ Shows ws objects)
    (hw : w ∈ ws) : ∃ object ∈ objects, w.Shows object := by
  induction h with
  | nil => cases hw
  | cons hshows _ ih =>
    rcases List.mem_cons.mp hw with rfl | hw
    · exact ⟨_, List.mem_cons_self, hshows⟩
    · obtain ⟨object, hmem, hobject⟩ := ih hw
      exact ⟨object, List.mem_cons_of_mem _ hmem, hobject⟩

theorem map_isSigned_of_shown {objects : List Object} (h : List.Forall₂ Shows ws objects) :
    objects.map Object.isSigned = ws.map isSigned := by
  induction h with
  | nil => rfl
  | cons hshows _ ih => rw [List.map_cons, List.map_cons, hshows.kind, ih]

/-- No layer that fits is unsecured. -/
theorem Fits.hasSignature {objects : List Object} (hw : w.Fits secret key)
    (hsigned : w.isSigned = true)
    (h : ∃ object ∈ objects, w.Shows object) : Consumer.HasSignature objects := by
  obtain ⟨object, hmem, hshows⟩ := h
  have hkind : object.isSigned = true := hshows.kind.trans hsigned
  cases hw with
  | encrypted => cases hsigned
  | @signed _ _ s hash _ hready _ _ =>
    cases object with
    | encrypted e => cases hkind
    | signed p =>
      refine ⟨p, hmem, fun hnone => ?_⟩
      have hid : some (SignatureAlgorithm.hmac hash).id = some "none" :=
        hready.algorithm.symm.trans ((hshows.texts "alg").symm.trans hnone)
      cases SignatureAlgorithm.id_eq_none_iff.mp (Option.some.inj hid)

theorem Shows.hasEncryption {objects : List Object} (hencrypted : w.isSigned = false)
    (h : ∃ object ∈ objects, w.Shows object) : Consumer.HasEncryption objects := by
  obtain ⟨object, hmem, hshows⟩ := h
  have hkind : object.isSigned = false := hshows.kind.trans hencrypted
  cases object with
  | signed p => cases hkind
  | encrypted e => exact ⟨e, hmem⟩

theorem Shows.contentType? {object : Object} (h : w.Shows object) :
    object.contentType? = w.contentType? :=
  h.texts "cty"

end Wrapper

namespace Consumer

variable {c : Consumer} {secret key : Bytes} {w : Wrapper} {ws : List Wrapper}
  {text token content : String} {objects : List Object}

/-- One more layer around a token that opens. -/
theorem Opens.wrap (hc : c.Shares secret key) (hopens : c.Opens text objects content)
    (hascii : ∀ ch ∈ text.toList, ch.toNat < 128) (hw : w.Fits secret key)
    (hmarked : isNested w.contentType? = true) (htoken : w.wrap text = .ok token) :
    ∃ object, c.Opens token (object :: objects) content ∧ w.Shows object := by
  obtain ⟨object, hlayer, hshows⟩ :=
    exists_layer hc hw (Wrapper.writes_of_ascii hascii w) htoken
  rw [← hshows.contentType?] at hmarked
  exact ⟨object, .nested hlayer hmarked hopens, hshows⟩

/-- All further layers. -/
theorem Opens.wrapAll (hc : c.Shares secret key) (hopens : c.Opens text objects content)
    (hascii : ∀ ch ∈ text.toList, ch.toNat < 128) (hfits : ∀ w ∈ ws, w.Fits secret key)
    (hmarked : ∀ w ∈ ws, isNested w.contentType? = true)
    (htoken : Wrapper.wrapAll ws text = .ok token) :
    ∃ outer, c.Opens token (outer.reverse ++ objects) content ∧
      List.Forall₂ Wrapper.Shows ws outer := by
  induction ws generalizing text objects with
  | nil =>
    cases htoken
    exact ⟨[], hopens, .nil⟩
  | cons w ws ih =>
    obtain ⟨hw, hws⟩ := List.forall_mem_cons.mp hfits
    obtain ⟨hmark, hmarks⟩ := List.forall_mem_cons.mp hmarked
    obtain ⟨inner, hinner, hrest⟩ := Wrapper.wrapAll_cons_eq_ok_iff.mp htoken
    obtain ⟨object, hlayer, hshows⟩ := hopens.wrap hc hascii hw hmark hinner
    have hplain : ∀ ch ∈ inner.toList, ch.toNat < 128 :=
      hw.ascii_of_wrap (Wrapper.writes_of_ascii hascii w) hinner
    obtain ⟨outer, houter, hall⟩ := ih hlayer hplain hws hmarks hrest
    refine ⟨object :: outer, ?_, .cons hshows hall⟩
    rw [List.reverse_cons, List.append_assoc]
    exact houter

/-- From the innermost layer on. -/
theorem exists_opens {innermost : Wrapper} {outer : List Wrapper} (hc : c.Shares secret key)
    (hfits : ∀ w ∈ innermost :: outer, w.Fits secret key)
    (hplain : isNested innermost.contentType? = false)
    (hmarked : ∀ w ∈ outer, isNested w.contentType? = true) (hwrites : innermost.Writes text)
    (htoken : Wrapper.wrapAll (innermost :: outer) text = .ok token) :
    ∃ objects, c.Opens token objects.reverse text ∧
      List.Forall₂ Wrapper.Shows (innermost :: outer) objects := by
  obtain ⟨hfirst, hrest⟩ := List.forall_mem_cons.mp hfits
  obtain ⟨inner, hinner, htoken⟩ := Wrapper.wrapAll_cons_eq_ok_iff.mp htoken
  obtain ⟨object, hlayer, hshows⟩ := exists_layer hc hfirst hwrites hinner
  rw [← hshows.contentType?] at hplain
  obtain ⟨objects, hopens, hall⟩ :=
    (Opens.innermost hlayer hplain).wrapAll hc (hfirst.ascii_of_wrap hwrites hinner) hrest
      hmarked htoken
  refine ⟨object :: objects, ?_, .cons hshows hall⟩
  rw [List.reverse_cons]
  exact hopens

/-- Claims that are a value of JSON without doubles are wrapped, from the inside out, in
layers that fit the two keys; all but the innermost one are marked, and the innermost one
writes the claims as UTF-8 does. This gives a token exactly if every layer is permitted by
its sender. A consumer with the two keys, which requires no protection that no layer
gives, accepts the token for these claims, with the layers in this order. -/
theorem wrapped_claims_come_out {claims : Claims} {innermost : Wrapper} {outer : List Wrapper}
    (hclaims : claims.value.WellFormed) (hintegral : claims.value.Integral)
    (hdepth : claims.value.depth ≤ Json.maxDepth)
    (hfits : ∀ w ∈ innermost :: outer, w.Fits secret key)
    (hplain : isNested innermost.contentType? = false)
    (hmarked : ∀ w ∈ outer, isNested w.contentType? = true)
    (hwrites : innermost.Writes claims.json) :
    ((∃ token, Wrapper.wrapAll (innermost :: outer) claims.json = .ok token) ↔
      ∀ w ∈ innermost :: outer, w.Permitted) ∧
    ∀ token, Wrapper.wrapAll (innermost :: outer) claims.json = .ok token →
      ∀ c : Consumer, c.Shares secret key →
      c.skipsValidators = true →
      (c.requiresSignature = true → ∃ w ∈ innermost :: outer, w.isSigned = true) →
      (c.requiresEncryption = true → ∃ w ∈ innermost :: outer, w.isSigned = false) →
      ∀ now, ∃ objects, c.process now token = .ok ⟨token, claims, objects⟩ ∧
        objects.map Object.isSigned = (innermost :: outer).map Wrapper.isSigned := by
  have hfirst : ∀ w ∈ (innermost :: outer).head?, w.Writes claims.json := by
    rintro _ ⟨⟩
    exact hwrites
  refine ⟨Wrapper.exists_wrapAll_iff hfits hfirst,
    fun token htoken c hc hskips hsignature hencryption now => ?_⟩
  obtain ⟨objects, hopens, hall⟩ := exists_opens hc hfits hplain hmarked hwrites htoken
  have hparse := Claims.parse_json hclaims hintegral hdepth
  have hunwrap : c.unwrap (token.length + 1) token = .ok (objects.reverse, claims) :=
    (unwrap_eq_ok_iff hc.verifies (Nat.lt_succ_self _)).mpr ⟨_, hopens, hparse⟩
  have hprotection : c.checkProtection token objects.reverse = .ok () := by
    refine checkProtection_eq_ok_iff.mpr ⟨fun hrequired => ?_, fun hrequired => ?_⟩
    · obtain ⟨w, hw, hsigned⟩ := hsignature hrequired
      obtain ⟨object, hmem, hshows⟩ := Wrapper.exists_shown hall hw
      exact (hfits w hw).hasSignature hsigned ⟨object, List.mem_reverse.mpr hmem, hshows⟩
    · obtain ⟨w, hw, hencrypted⟩ := hencryption hrequired
      obtain ⟨object, hmem, hshows⟩ := Wrapper.exists_shown hall hw
      exact Wrapper.Shows.hasEncryption hencrypted ⟨object, List.mem_reverse.mpr hmem, hshows⟩
  have hvalid : c.validate now claims = .ok () := validate_eq_ok_iff.mpr (.inl hskips)
  refine ⟨objects, ?_, Wrapper.map_isSigned_of_shown hall⟩
  unfold process
  simp only [bind_eq_ok_iff, pure_eq_ok_iff]
  exact ⟨_, hunwrap, (), hprotection, (), hvalid, by rw [List.reverse_reverse]⟩

/-- Signs with HS256. -/
def macLayer : Signed :=
  ((Signed.new .secure).setHeader "alg" (.string "HS256")).setKey
    (some (.symmetric (List.replicate 32 7)))

theorem reached_macLayer : macLayer.ReachedBy Signed.Op.WellFormed .secure none :=
  .step (.setKey _) trivial
    (.step (.setHeader "alg" (.string "HS256")) (.string "HS256") .new)

theorem ready_macLayer : macLayer.MacReady .sha256 (List.replicate 32 7) :=
  ⟨by decide, rfl, by decide⟩

theorem algorithm_macLayer : macLayer.algorithm = .ok (.hmac .sha256) :=
  Signed.algorithm_eq_ok_iff.mpr ⟨by decide, by decide⟩

/-- Encrypts what is a token already. -/
def directLayer : Encrypted := Encrypted.direct.setHeader "cty" (.string "jwt")

theorem reached_directLayer : Encrypted.Reached directLayer :=
  .step (.setHeader "cty" (.string "jwt")) (.string "jwt") Encrypted.reached_direct

/-- Validators are skipped, and one key serves for both uses. -/
def receiver : Consumer :=
  Options.consumer { Options.default with
    verificationKey := some (.symmetric (List.replicate 32 7))
    decryptionKey := some (.symmetric (List.replicate 32 7))
    skipsValidators := true }

theorem shares_receiver : receiver.Shares (List.replicate 32 7) (List.replicate 32 7) :=
  ⟨rfl, rfl, rfl, rfl, rfl, rfl⟩

/-- The text of the claims is not ASCII. -/
def accentedClaims : Claims := ⟨[("sub", .string "é")]⟩

theorem value_accentedClaims :
    accentedClaims.value.WellFormed ∧ accentedClaims.value.Integral ∧
      accentedClaims.value.depth ≤ Json.maxDepth :=
  ⟨.object (List.pairwise_singleton _ _) (List.forall_mem_singleton.mpr (.string "é")),
    .object (List.forall_mem_singleton.mpr (.string "é")), by decide⟩

theorem fits_macLayer :
    (Wrapper.signed macLayer).Fits (List.replicate 32 7) (List.replicate 32 7) :=
  .signed reached_macLayer ready_macLayer (by decide) (by decide)

theorem fits_directLayer :
    (Wrapper.encrypted directLayer []).Fits (List.replicate 32 7) (List.replicate 32 7) :=
  .encrypted (x := .aes128) reached_directLayer (by decide) (by decide) rfl rfl (by decide)
    (by decide)

theorem isNested_directLayer :
    isNested (Wrapper.encrypted directLayer []).contentType? = true :=
  isNested_eq_true_iff.mpr ⟨"jwt", by decide, .inl (by decide)⟩

theorem permitted_directLayer : (Wrapper.encrypted directLayer []).Permitted := by
  refine ⟨⟨.direct, .aes128, ?_, ?_⟩, rfl, ?_⟩
  · exact Encrypted.keyManagement_eq_ok_iff.mpr ⟨by decide, by decide⟩
  · exact Encrypted.contentEncryption_eq_ok_iff.mpr ⟨by decide, by decide⟩
  · decide +kernel

theorem wrapped_claims_come_out_nested :
    ∃ token objects,
      Wrapper.wrapAll [.signed macLayer, .encrypted directLayer []] accentedClaims.json =
        .ok token ∧
      receiver.process ⟨0⟩ token = .ok ⟨token, accentedClaims, objects⟩ ∧
      objects.map Object.isSigned = [true, false] := by
  obtain ⟨hwellFormed, hintegral, hdepth⟩ := value_accentedClaims
  have hfits : ∀ w ∈ [Wrapper.signed macLayer, .encrypted directLayer []],
      w.Fits (List.replicate 32 7) (List.replicate 32 7) :=
    List.forall_mem_cons.mpr ⟨fits_macLayer, List.forall_mem_singleton.mpr fits_directLayer⟩
  have hpermitted : ∀ w ∈ [Wrapper.signed macLayer, .encrypted directLayer []], w.Permitted :=
    List.forall_mem_cons.mpr ⟨⟨_, algorithm_macLayer⟩,
      List.forall_mem_singleton.mpr permitted_directLayer⟩
  have hplain : isNested (Wrapper.signed macLayer).contentType? = false := by decide
  have hmarked : ∀ w ∈ [Wrapper.encrypted directLayer []], isNested w.contentType? = true :=
    List.forall_mem_singleton.mpr isNested_directLayer
  have hwrites : (Wrapper.signed macLayer).Writes accentedClaims.json := by
    show macLayer.charset.encode _ = _
    rfl
  have hsome : ∃ w ∈ [Wrapper.signed macLayer, .encrypted directLayer []],
    w.isSigned = true :=
    ⟨_, List.mem_cons_self, rfl⟩
  obtain ⟨hwraps, hopens⟩ :=
    wrapped_claims_come_out hwellFormed hintegral hdepth hfits hplain hmarked hwrites
  obtain ⟨token, htoken⟩ := hwraps.mpr hpermitted
  obtain ⟨objects, hprocess, hkinds⟩ :=
    hopens token htoken receiver shares_receiver rfl (fun _ => hsome)
      (fun h => absurd h Bool.false_ne_true) ⟨0⟩
  exact ⟨token, objects, htoken, hprocess, hkinds⟩

/-! ## What does not come out -/

variable {now : NumericDate} {context : Context} {s : Signed} {hash : Sha2} {bytes : Bytes}

/-- The consumer reads the header, and reads the payload as UTF-8 whatever charset it was
written in. -/
theorem readable_of_process (hverify : c.skipsVerification = false) (hcanonical : s.Canonical)
    (hfaithful : s.envelope.headers.Faithful) (h : c.process now s.token = .ok context) :
    s.envelope.headers.value.depth ≤ Json.maxDepth ∧
      ∃ content, Charset.utf8.decode s.payload = .ok content := by
  obtain ⟨⟨objects, claims⟩, hunwrap, -⟩ := bind_eq_ok_iff.mp h
  obtain ⟨object, content, hopen, -⟩ := unwrap_succ_eq_ok_iff.mp hunwrap
  have hsplit := hcanonical.split_token
  cases (openLayer_eq_ok_iff hverify).mp hopen with
  | signed hlayer =>
    obtain ⟨header, segment, tail, headers, payload, signature, htoken, -, hheaders,
      hpayload, -, rfl⟩ :=
      Signed.parse_eq_ok_iff.mp hlayer.parsed
    rw [htoken] at hsplit
    cases hsplit
    rw [hcanonical.encodedPayload_eq, Base64Url.decode_encode] at hpayload
    cases hpayload
    exact ⟨hfaithful.depth_le_of_parse hheaders, content, hlayer.content⟩
  | encrypted hlayer =>
    obtain ⟨_, _, _, _, _, htoken, -⟩ := hlayer.deciphered
    rw [hsplit] at htoken
    exact absurd (congrArg List.length htoken) (by simp)

/-- A signed layer that is written but not read. -/
theorem exists_refused {config : Config} {age : Option Nat}
    (hreached : s.ReachedBy Signed.Op.WellFormed config age)
    (hready : s.MacReady hash secret) (hpermitted : (Wrapper.signed s).Permitted)
    (hencode : s.charset.encode text = .ok bytes)
    (hunreadable : s.envelope.headers.value.depth ≤ Json.maxDepth →
      ∀ content, Charset.utf8.decode bytes ≠ .ok content) :
    ∃ token, (Wrapper.signed s).wrap text = .ok token ∧
      ∀ c : Consumer, c.skipsVerification = false →
        ∀ now context, c.process now token ≠ .ok context := by
  have hwrap := (Wrapper.wrap_signed_eq_ok_iff hreached hready hencode).mpr ⟨hpermitted, rfl⟩
  have hcanonical :=
    ((Signed.canonical_of_reached hreached.reached).setPayloadBytes bytes).withMac
      hash secret
  have hfaithful : s.envelope.headers.Faithful := Signed.faithful_of_reachedBy hreached
  refine ⟨_, hwrap, fun c hverify now context h => ?_⟩
  obtain ⟨hdepth, content, hcontent⟩ := readable_of_process hverify hcanonical hfaithful h
  exact hunreadable hdepth content hcontent

/-- A list that holds a list, and so on. -/
def nestedLists : Nat → Json.Value
  | 0 => .array []
  | n + 1 => .array [nestedLists n]

theorem wellFormed_nestedLists (n : Nat) : (nestedLists n).WellFormed := by
  induction n with
  | zero => exact .array fun v hv => absurd hv List.not_mem_nil
  | succ n ih => exact .array (List.forall_mem_singleton.mpr ih)

/-- With a parameter that no receiver can read. -/
def deepLayer : Signed := macLayer.setHeader "x" (nestedLists 126)

def latin1Layer : Signed := macLayer.setCharset .latin1

/-- The layer is as it should be, and writes the claims, but the receiver does not accept
what it has written. -/
structure Refused (claims : Claims) (s : Signed) : Prop where
  reached : s.ReachedBy Signed.Op.WellFormed .secure none
  ready : s.MacReady .sha256 (List.replicate 32 7)
  critical : s.envelope.headers.get? "crit" = none
  plain : s.envelope.headers.get? "cty" = none
  refused : ∃ token, (Wrapper.signed s).wrap claims.json = .ok token ∧
    ∀ now context, receiver.process now token ≠ .ok context

theorem refused_deepLayer : Refused accentedClaims deepLayer := by
  have hreached : deepLayer.ReachedBy Signed.Op.WellFormed .secure none :=
    .step (.setHeader "x" _) (wellFormed_nestedLists 126) reached_macLayer
  have hready : deepLayer.MacReady .sha256 (List.replicate 32 7) :=
    ⟨by decide, rfl, by decide⟩
  have halgorithm : deepLayer.algorithm = .ok (.hmac .sha256) :=
    Signed.algorithm_eq_ok_iff.mpr ⟨by decide, by decide⟩
  have hencode : deepLayer.charset.encode accentedClaims.json =
      .ok (Utf8.encode accentedClaims.json) := by
    show Charset.utf8.encode _ = _
    rfl
  have hdeep : ¬deepLayer.envelope.headers.value.depth ≤ Json.maxDepth := by decide +kernel
  obtain ⟨token, htoken, hrefused⟩ :=
    exists_refused hreached hready ⟨_, halgorithm⟩ hencode fun hdepth => absurd hdepth hdeep
  exact ⟨hreached, hready, rfl, rfl, token, htoken, hrefused receiver rfl⟩

/-- A single byte of Latin-1 stands for a letter that takes two in UTF-8. -/
theorem refused_latin1Layer : Refused accentedClaims latin1Layer := by
  have hreached : latin1Layer.ReachedBy Signed.Op.WellFormed .secure none :=
    .step (.setCharset .latin1) trivial reached_macLayer
  have hready : latin1Layer.MacReady .sha256 (List.replicate 32 7) :=
    ⟨by decide, rfl, by decide⟩
  have hencode : latin1Layer.charset.encode accentedClaims.json =
      .ok [0x7b, 0x22, 0x73, 0x75, 0x62, 0x22, 0x3a, 0x22, 0xe9, 0x22, 0x7d] := by
        decide +kernel
  have hinvalid : (Charset.utf8.decode
      [0x7b, 0x22, 0x73, 0x75, 0x62, 0x22, 0x3a, 0x22, 0xe9, 0x22, 0x7d]).toOption =
        none := by decide +kernel
  obtain ⟨token, htoken, hrefused⟩ :=
    exists_refused hreached hready ⟨_, algorithm_macLayer⟩ hencode
      fun _ content hcontent => by
      rw [hcontent] at hinvalid
      cases hinvalid
  exact ⟨hreached, hready, rfl, rfl, token, htoken, hrefused receiver rfl⟩

/-- The layer fits, but does not write the claims. -/
structure Unwritten (claims : Claims) (w : Wrapper) : Prop where
  fits : w.Fits (List.replicate 32 7) (List.replicate 32 7)
  plain : isNested w.contentType? = false
  writes : w.Writes claims.json
  fails : ∀ token, w.wrap claims.json ≠ .ok token

theorem unwritten_of_not_permitted {claims : Claims}
    (hfits : w.Fits (List.replicate 32 7) (List.replicate 32 7))
    (hplain : isNested w.contentType? = false) (hwrites : w.Writes claims.json)
    (h : ¬w.Permitted) : Unwritten claims w :=
  ⟨hfits, hplain, hwrites, fun token htoken =>
    h ((hfits.exists_wrap_iff hwrites).mp ⟨token, htoken⟩)⟩

/-- Its own constraints block its algorithm. -/
def blockedLayer : Signed := macLayer.setConstraints (.block ["HS256"])

theorem unwritten_blockedLayer : Unwritten accentedClaims (.signed blockedLayer) := by
  have hreached : blockedLayer.ReachedBy Signed.Op.WellFormed .secure none :=
    .step (.setConstraints _) trivial reached_macLayer
  have hready : blockedLayer.MacReady .sha256 (List.replicate 32 7) :=
    ⟨by decide, rfl, by decide⟩
  have hwrites : (Wrapper.signed blockedLayer).Writes accentedClaims.json := by
    show Charset.utf8.encode _ = _
    rfl
  apply unwritten_of_not_permitted (.signed hreached hready rfl (by decide))
    (by decide) hwrites
  rintro ⟨a, ha⟩
  cases ha

/-- Its vector is no block. -/
def shortLayer : Encrypted := Encrypted.direct.setIv []

theorem unwritten_shortLayer : Unwritten accentedClaims (.encrypted shortLayer []) := by
  have hreached : Encrypted.Reached shortLayer :=
    .step (.setIv []) trivial Encrypted.reached_direct
  have hwrites : (Wrapper.encrypted shortLayer []).Writes accentedClaims.json := by
    show Charset.utf8.encode _ = _
    rfl
  apply unwritten_of_not_permitted
    (.encrypted (x := .aes128) hreached (by decide) (by decide) rfl rfl rfl (by decide))
    (by decide) hwrites
  rintro ⟨-, hiv, -⟩
  cases hiv

/-- Two layers write what the receiver does not accept, and two write nothing. -/
theorem wrapped_claims_are_lost :
    (accentedClaims.value.WellFormed ∧ accentedClaims.value.Integral ∧
      accentedClaims.value.depth ≤ Json.maxDepth) ∧
    receiver.Shares (List.replicate 32 7) (List.replicate 32 7) ∧
      receiver.skipsValidators = true ∧
    Refused accentedClaims deepLayer ∧ Refused accentedClaims latin1Layer ∧
    Unwritten accentedClaims (.signed blockedLayer) ∧
    Unwritten accentedClaims (.encrypted shortLayer []) :=
  ⟨value_accentedClaims, shares_receiver, rfl, refused_deepLayer, refused_latin1Layer,
    unwritten_blockedLayer, unwritten_shortLayer⟩

end Consumer
end Jose
