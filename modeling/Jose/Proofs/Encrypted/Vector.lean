import Jose.Proofs.Encrypted.Canonical

/-! What becomes of a chosen vector. It is left alone until an encryption takes it, and is
then gone, whether or not the encryption succeeds, so no two encryptions of a run have it
from the same setting. -/
namespace Jose.Encrypted
open Text Result

variable {e start : Encrypted} {ops : List Op} {x : ContentEncryption} {keys : ContentKey}
  {plaintext fresh : Bytes} {i j k : Nat} {v w : Bytes}

/-! ## One call -/

/-- The segments after the header decode to what the envelope holds. -/
def Holds (text : String) (e : Encrypted) : Prop :=
  ∃ header wrapped iv ciphertext tag, Compact.split text =
    [header, wrapped, iv, ciphertext, tag] ∧
    Base64Url.decode wrapped = .ok e.encryptedKey ∧ Base64Url.decode iv = .ok e.content.iv ∧
    Base64Url.decode ciphertext = .ok e.content.ciphertext ∧
      Base64Url.decode tag = .ok e.content.tag

theorem holds_segments (h : e.envelope.headers.WireEncoded) :
    Holds (Compact.join e.segments) e :=
  ⟨_, _, _, _, _, split_segments h, Base64Url.decode_encode _, Base64Url.decode_encode _,
    Base64Url.decode_encode _, Base64Url.decode_encode _⟩

theorem compact_of_prepare_error {error : Error} (h : e.prepare = .error error) :
    e.compact fresh = (.error error, e) := by
  rw [compact, h]

theorem compact_of_encrypt_error {error : Error}
    (hprepare : e.prepare = .ok (x, keys, plaintext))
    (h : x.encrypt plaintext e.associatedData keys.key (e.chosenIv.getD fresh) =
      .error error) : e.compact fresh = (.error error, { e with chosenIv := none }) := by
  have hdata : associatedData { e with chosenIv := none } = e.associatedData := rfl
  rw [compact, hprepare]
  dsimp only
  rw [hdata, h]

/-- The header segment is never empty, so a content that has been encrypted can be
written. -/
theorem compact_of_encrypt {content : Protected} (hheaders : e.envelope.headers.Faithful)
    (hprepare : e.prepare = .ok (x, keys, plaintext))
    (h : x.encrypt plaintext e.associatedData keys.key (e.chosenIv.getD fresh) =
      .ok content) :
    e.compact fresh =
      (.ok (Compact.join (e.withContent content).segments), e.withContent content) := by
  obtain ⟨_, -, -, -, hempty, -⟩ := prepare_eq_ok_iff.mp hprepare
  have hdata : associatedData { e with chosenIv := none } = e.associatedData := rfl
  have hserialize := (serialize_eq_ok_iff (e := e.withContent content)
    (ContentEncryption.decrypt_of_encrypt h).2).mpr ⟨hheaders.isEmpty_encoded, rfl⟩
  rw [compact, hprepare]
  dsimp only
  rw [hdata, h, hempty]
  exact congrArg (Prod.mk · (e.withContent content)) hserialize

/-- A call ends before the encryption, in it, or with a token. -/
theorem compact_cases (hheaders : e.envelope.headers.Faithful) (fresh : Bytes) :
    (∃ error, e.prepare = .error error ∧ e.compact fresh = (.error error, e)) ∨
    ∃ x keys plaintext, e.prepare = .ok (x, keys, plaintext) ∧
      ((∃ error, x.encrypt plaintext e.associatedData keys.key (e.chosenIv.getD fresh) =
        .error error ∧
          e.compact fresh = (.error error, { e with chosenIv := none })) ∨
        ∃ content, x.encrypt plaintext e.associatedData keys.key (e.chosenIv.getD fresh) =
          .ok content ∧
          e.compact fresh = (.ok (Compact.join (e.withContent content).segments),
            e.withContent content)) := by
  cases hprepare : e.prepare with
  | error error => exact .inl ⟨error, rfl, compact_of_prepare_error hprepare⟩
  | ok p =>
    obtain ⟨x, keys, plaintext⟩ := p
    refine .inr ⟨x, keys, plaintext, rfl, ?_⟩
    cases hencrypt : x.encrypt plaintext e.associatedData keys.key
      (e.chosenIv.getD fresh) with
    | error error => exact .inl ⟨error, rfl, compact_of_encrypt_error hprepare hencrypt⟩
    | ok content => exact .inr ⟨content, rfl, compact_of_encrypt hheaders hprepare hencrypt⟩

/-- What a call leaves. A token brings its segments and takes the chosen vector. A failure
leaves everything as it was, unless it is one of the encryption, which takes the vector
too; a vector that is not one block leads to that. -/
structure Settles (fresh : Bytes) (e : Encrypted) : Prop where
  made : ∀ text, (e.compact fresh).1 = .ok text → Holds text (e.compact fresh).2 ∧
    ∃ encryptedKey content, (e.compact fresh).2 =
      { e with encryptedKey, content, chosenIv := none }
  failed : ∀ error, (e.compact fresh).1 = .error error →
    (e.prepare = .error error ∧ (e.compact fresh).2 = e) ∨
    ((∃ x keys plaintext, e.prepare = .ok (x, keys, plaintext) ∧
        x.encrypt plaintext e.associatedData keys.key (e.chosenIv.getD fresh) =
          .error error) ∧
      (e.compact fresh).2 = { e with chosenIv := none })
  certain : ∀ x keys plaintext content, e.prepare = .ok (x, keys, plaintext) →
    x.encrypt plaintext e.associatedData keys.key (e.chosenIv.getD fresh) = .ok content →
    ∃ text, (e.compact fresh).1 = .ok text
  misfit : ∀ iv p, e.chosenIv = some iv → iv.length ≠ 16 → e.prepare = .ok p →
    ∃ error, e.compact fresh = (.error error, { e with chosenIv := none })

theorem Reached.settles (h : Reached e) (fresh : Bytes) : Settles fresh e := by
  have hheaders := faithful_of_reached h
  have hcases := compact_cases hheaders fresh
  refine ⟨fun text htext => ?_, fun error herror => ?_,
    fun x keys plaintext content hprepare hencrypt => ?_,
    fun iv p hiv hlength hprepare => ?_⟩
  · rcases hcases
      with ⟨_, -, hcompact⟩ | ⟨_, _, _, -, ⟨_, -, hcompact⟩ | ⟨content, -, hcompact⟩⟩ <;>
      rw [hcompact] at htext ⊢ <;> cases htext
    exact ⟨holds_segments hheaders.wireEncoded, _, content, rfl⟩
  · rcases hcases with ⟨_, hprepare, hcompact⟩ | ⟨_, _, _, hprepare,
      ⟨_, hencrypt, hcompact⟩ | ⟨_, -, hcompact⟩⟩ <;>
      rw [hcompact] at herror ⊢ <;> cases herror
    · exact .inl ⟨hprepare, rfl⟩
    · exact .inr ⟨⟨_, _, _, hprepare, hencrypt⟩, rfl⟩
  · exact ⟨_, congrArg Prod.fst (compact_of_encrypt hheaders hprepare hencrypt)⟩
  · obtain ⟨x, keys, plaintext⟩ := p
    cases hencrypt : x.encrypt plaintext e.associatedData keys.key
      (e.chosenIv.getD fresh) with
    | error error => exact ⟨error, compact_of_encrypt_error hprepare hencrypt⟩
    | ok content =>
      have hblock := (ContentEncryption.encrypt_eq_ok_iff.mp hencrypt).2.2.1
      rw [hiv] at hblock
      exact absurd hblock hlength

/-! ## A run -/

/-- The envelope after operations one after the other. -/
def after (ops : List Op) (e : Encrypted) : Encrypted := ops.foldl (fun e op => op.run e) e

/-- The call at `j` finds the vector that the operation at `i` has set, and no later
operation. -/
structure Pending (ops : List Op) (start : Encrypted) (i j : Nat) (v : Bytes) : Prop where
  set : ops[i]? = some (.setIv v)
  lt : i < j
  latest : ∀ k, i < k → k < j → ∀ w, ops[k]? ≠ some (.setIv w)
  kept : (after (ops.take j) start).chosenIv ≠ none

/-- The call at `j` comes as far as the encryption. -/
def Encrypts (ops : List Op) (start : Encrypted) (j : Nat) : Prop :=
  ∃ fresh p, ops[j]? = some (.compact fresh) ∧ (after (ops.take j) start).prepare = .ok p

theorem after_take_succ {op : Op} (h : ops[j]? = some op) :
    after (ops.take (j + 1)) start = op.run (after (ops.take j) start) := by
  rw [List.take_add_one, h, after, List.foldl_append]
  rfl

theorem after_take_succ_of_none (h : ops[j]? = none) :
    after (ops.take (j + 1)) start = after (ops.take j) start := by
  rw [List.take_add_one, h, Option.toList_none, List.append_nil]

theorem reached_after (hstart : Reached start) (hops : ∀ op ∈ ops, op.WellFormed) :
    Reached (after ops start) := by
  induction ops generalizing start with
  | nil => exact hstart
  | cons op ops ih =>
    rw [List.forall_mem_cons] at hops
    exact ih (.step op hops.1 hstart) hops.2

theorem chosenIv_plaintextBytes (e : Encrypted) :
    e.plaintextBytes.2.chosenIv = e.chosenIv := by
  rw [plaintextBytes]
  split
  · rfl
  · split <;> rfl

theorem chosenIv_compact_of_prepare {p : ContentEncryption × ContentKey × Bytes}
    (h : e.prepare = .ok p) (fresh : Bytes) : (e.compact fresh).2.chosenIv = none := by
  rw [compact, h]
  dsimp only
  split <;> rfl

/-- No operation but the setter makes up a vector. -/
theorem chosenIv_run {op : Op} (hop : ∀ w, op ≠ .setIv w) (e : Encrypted) :
    (op.run e).chosenIv = e.chosenIv ∨ (op.run e).chosenIv = none := by
  cases op with
  | setIv w => exact absurd rfl (hop w)
  | setPlaintext text =>
    refine .inl ?_
    rw [Op.run, setPlaintext]
    cases e.charset.encode text <;> rfl
  | plaintextBytes => exact .inl (chosenIv_plaintextBytes e)
  | plaintextText =>
    rw [Op.run, plaintextText_snd]
    exact .inl (chosenIv_plaintextBytes e)
  | compact fresh =>
    cases hprepare : e.prepare with
    | error error => exact .inl (congrArg (·.2.chosenIv) (compact_of_prepare_error hprepare))
    | ok p => exact .inr (chosenIv_compact_of_prepare hprepare fresh)
  | setPlaintextBytes | setCharset | setKey | setConstraints | setContentConstraints
  | setValidatesKeys
  | setKnownCritical | setHeader => exact .inl rfl

theorem chosenIv_after_take_succ (start : Encrypted) (h : ∀ w, ops[j]? ≠ some (.setIv w)) :
    (after (ops.take (j + 1)) start).chosenIv = (after (ops.take j) start).chosenIv ∨
      (after (ops.take (j + 1)) start).chosenIv = none := by
  cases hop : ops[j]? with
  | none => exact .inl (congrArg chosenIv (after_take_succ_of_none hop))
  | some op =>
    rw [after_take_succ hop]
    refine chosenIv_run (fun w hset => h w ?_) _
    rw [hop, hset]

/-- Between two settings a vector may go, but not change or come. By induction on the
later place. -/
theorem chosenIv_after_take (start : Encrypted) (hij : i ≤ j)
    (h : ∀ k, i ≤ k → k < j → ∀ w, ops[k]? ≠ some (.setIv w)) :
    (after (ops.take j) start).chosenIv = (after (ops.take i) start).chosenIv ∨
      (after (ops.take j) start).chosenIv = none := by
  induction hij with
  | refl => exact .inl rfl
  | @step j hij ih =>
    rcases chosenIv_after_take_succ start (h j hij (Nat.lt_succ_self j)) with hstep | hstep
    · rw [hstep]
      exact ih fun k hik hkj => h k hik (Nat.lt_succ_of_lt hkj)
    · exact .inr hstep

theorem Pending.chosenIv_eq (h : Pending ops start i j v) :
    (after (ops.take j) start).chosenIv = some v := by
  rcases chosenIv_after_take start h.lt h.latest with hsame | hnone
  · rw [hsame, after_take_succ h.set]
    rfl
  · exact absurd hnone h.kept

theorem Pending.succ (h : Pending ops start i j v) (hop : ∀ w, ops[j]? ≠ some (.setIv w))
    (hkept : (after (ops.take (j + 1)) start).chosenIv ≠ none) :
    Pending ops start i (j + 1) v := by
  refine ⟨h.set, Nat.lt_succ_of_lt h.lt, fun k hik hkj => ?_, hkept⟩
  rcases Nat.lt_succ_iff_lt_or_eq.mp hkj with hlt | rfl
  · exact h.latest k hik hlt
  · exact hop

/-- A vector that is there has been set. By induction on the place, the run having begun
with none. -/
theorem exists_pending (hstart : start.chosenIv = none)
    (h : (after (ops.take j) start).chosenIv = some v) :
    ∃ i, Pending ops start i j v := by
  induction j generalizing v with
  | zero =>
    rw [List.take_zero, after, List.foldl_nil, hstart] at h
    cases h
  | succ j ih =>
    have hkept : (after (ops.take (j + 1)) start).chosenIv ≠ none := by simp [h]
    by_cases hset : ∃ w, ops[j]? = some (.setIv w)
    · obtain ⟨w, hset⟩ := hset
      rw [after_take_succ hset] at h
      cases h
      exact ⟨j, hset, Nat.lt_succ_self j, fun k hjk hkj => absurd hjk (by omega), hkept⟩
    · have hop : ∀ w, ops[j]? ≠ some (.setIv w) := fun w hw => hset ⟨w, hw⟩
      rcases chosenIv_after_take_succ start hop with hsame | hnone
      · obtain ⟨i, hpending⟩ := ih (hsame.symm.trans h)
        exact ⟨i, hpending.succ hop hkept⟩
      · exact absurd hnone hkept

/-- After an encryption there is no vector up to the next setting. -/
theorem Pending.le_of_encrypts (hj : Encrypts ops start j) (hij : Pending ops start i j v)
    (hik : Pending ops start i k w) : k ≤ j := by
  by_contra hlt
  obtain ⟨fresh, p, hop, hprepare⟩ := hj
  have hgone : (after (ops.take (j + 1)) start).chosenIv = none := by
    rw [after_take_succ hop]
    exact chosenIv_compact_of_prepare hprepare fresh
  have hlatest : ∀ n, j + 1 ≤ n → n < k → ∀ w, ops[n]? ≠ some (.setIv w) := fun n hn =>
    hik.latest n (Nat.lt_trans hij.lt hn)
  rcases chosenIv_after_take start (Nat.lt_of_not_le hlt) hlatest with hsame | hnone
  · exact hik.kept (hsame.trans hgone)
  · exact hik.kept hnone

/-- Of the encryptions of a run, each setting of a vector supplies one at most; a token
has the vector of such a setting if it is there, and else the fresh one. Each call settles
what it has to: with a token, the envelope holds its segments and no vector is chosen any
more; with an error, it is the one that was given, or without the vector. -/
theorem vector_supplies_one_encryption
    (hstart : start = new ∨ ∃ token, parse token = .ok start)
    (hops : ∀ op ∈ ops, op.WellFormed) :
    (∀ i j k v w, Pending ops start i j v → Encrypts ops start j → Pending ops start i k w →
      Encrypts ops start k → j = k) ∧
    (∀ j fresh text, ops[j]? = some (.compact fresh) →
      ((after (ops.take j) start).compact fresh).1 = .ok text →
      Encrypts ops start j ∧ Holds text (after (ops.take (j + 1)) start) ∧
        ((∃ i, Pending ops start i j (after (ops.take (j + 1)) start).content.iv) ∨
          ((after (ops.take (j + 1)) start).content.iv = fresh ∧
            ∀ i v, ¬Pending ops start i j v))) ∧
    ∀ fresh, Settles fresh (after ops start) := by
  have hreached : Reached start := by
    rcases hstart with rfl | ⟨token, hparse⟩
    · exact .new
    · exact .parse hparse
  have hnone : start.chosenIv = none := by
    rcases hstart with rfl | ⟨token, hparse⟩
    · rfl
    · exact chosenIv_of_parse hparse
  refine ⟨fun i j k v w hij hj hik hk =>
    Nat.le_antisymm (hik.le_of_encrypts hk hij) (hij.le_of_encrypts hj hik),
    fun j fresh text hop htext => ?_, (reached_after hreached hops).settles⟩
  have hbefore : Reached (after (ops.take j) start) :=
    reached_after hreached fun op hmem => hops op (List.mem_of_mem_take hmem)
  have hheld := ((hbefore.settles fresh).made text htext).1
  rw [after_take_succ hop]
  rcases compact_cases (faithful_of_reached hbefore) fresh with
    ⟨_, -, hcompact⟩ | ⟨_, _, _, hprepare, ⟨_, -, hcompact⟩ | ⟨content, hencrypt, hcompact⟩⟩
  · rw [hcompact] at htext
    cases htext
  · rw [hcompact] at htext
    cases htext
  · have hiv : ((after (ops.take j) start).compact fresh).2.content.iv =
        (after (ops.take j) start).chosenIv.getD fresh := by
      rw [hcompact]
      exact (ContentEncryption.decrypt_of_encrypt hencrypt).1
    refine ⟨⟨fresh, _, hop, hprepare⟩, hheld, ?_⟩
    rw [Op.run, hiv]
    cases hchosen : (after (ops.take j) start).chosenIv with
    | none => exact .inr ⟨rfl, fun i v hpending => hpending.kept hchosen⟩
    | some v => exact .inl (exists_pending hnone hchosen)

/-- A vector is set, and then two tokens are made. -/
def twice : List Op :=
  [.setHeader "alg" (.string "dir"), .setHeader "enc" (.string "A128CBC-HS256"),
    .setKey (some (.symmetric (List.replicate 32 7))), .setPlaintextBytes [104, 105],
      .setIv (List.replicate 16 1),
    .compact [], .compact (List.replicate 16 2)]

theorem exists_compact_direct : ∃ text, (direct.compact []).1 = .ok text := by
  have hiv : (direct.chosenIv.getD []).length = 16 := rfl
  have hsize : direct.associatedData.length * 8 < UInt64.size := by decide +kernel
  obtain ⟨content, hcontent⟩ :=
    (ContentEncryption.exists_encrypt_iff [104, 105] _ ready_direct.fits hiv).mpr hsize
  exact ⟨_, (ready_direct.compact_eq_ok_iff (faithful_of_reached reached_direct)).mpr
    ⟨by decide, content, hcontent, rfl⟩⟩

theorem vector_supplies_one_encryption_twice :
    (∀ op ∈ twice, op.WellFormed) ∧
      (after (twice.take 6) new).content.iv = List.replicate 16 1 ∧
      Encrypts twice new 6 ∧ ∀ v, ¬Pending twice new 4 6 v := by
  have hops : ∀ op ∈ twice, op.WellFormed := by
    simp only [twice, List.forall_mem_cons]
    exact ⟨.string _, .string _, trivial, trivial, trivial, trivial, trivial, fun op hmem =>
      nomatch hmem⟩
  have hfirst : Pending twice new 4 5 (List.replicate 16 1) :=
    ⟨rfl, by decide, fun k hk hk' => absurd hk (by omega), by decide⟩
  obtain ⟨text, htext⟩ := exists_compact_direct
  obtain ⟨hone, htoken, -⟩ := vector_supplies_one_encryption (.inl rfl) hops
  obtain ⟨hencrypts, -, hsource⟩ := htoken 5 [] text rfl htext
  obtain ⟨-, _, _, hleft⟩ := (reached_direct.settles []).made text htext
  have hprepare := ready_direct.prepare_eq_ok_iff.mpr ⟨rfl, by decide⟩
  have hagain : Encrypts twice new 6 := by
    refine ⟨_, (.aes128, ⟨List.replicate 32 7, []⟩, [104, 105]), rfl, ?_⟩
    rw [show after (twice.take 6) new = (direct.compact []).2 from rfl, hleft]
    exact hprepare
  refine ⟨hops, ?_, hagain, fun v hpending =>
    absurd (hone 4 5 6 _ v hfirst hencrypts hpending hagain) (by decide)⟩
  rcases hsource with ⟨i, hpending⟩ | ⟨-, hnot⟩
  · exact Option.some.inj (hpending.chosenIv_eq.symm.trans hfirst.chosenIv_eq)
  · exact absurd hfirst (hnot 4 _)

end Jose.Encrypted
