import Jose.Proofs.Json.String
import Jose.Proofs.Json.Value

/-! A value that is written is read again: the same value, but for its doubles, each of
which is read as what its text is rounded to. The depth must not be exceeded, and as much
fuel as there are bytes is enough. -/
namespace Jose.Json
open Text

/-! ## What a value begins with -/

def IsStart (c : Char) : Prop := c ∈ ['n', 't', 'f', '"', '-', '[', '\x7b'] ∨ c.isDigit = true

theorem isStart_digit_facts : ∀ n < 58, 48 ≤ n → isBlank (UInt8.ofNat n) = false ∧
    Char.ofUInt8 (UInt8.ofNat n) ∉ ['n', 't', 'f', '"', '-', '[', '\x7b', ']'] := by decide

theorem IsStart.facts {c : Char} (h : IsStart c) :
    c.toNat < 128 ∧ isBlank (UInt8.ofNat c.toNat) = false ∧ c ≠ ']' := by
  rcases h with h | h
  · simp only [List.mem_cons, List.not_mem_nil, or_false] at h
    rcases h with rfl | rfl | rfl | rfl | rfl | rfl | rfl <;> decide
  · have hdigit := isDigit_iff.mp h
    obtain ⟨hblank, hchar⟩ := isStart_digit_facts c.toNat (by omega) hdigit.1
    rw [Utf8.ofUInt8_ofNat (by omega)] at hchar
    refine ⟨by omega, hblank, ?_⟩
    rintro rfl
    exact absurd h (by decide)

theorem IsStart.bytes_cons {c : Char} (h : IsStart c) (cs : List Char) :
    Utf8.bytes (c :: cs) = UInt8.ofNat c.toNat :: Utf8.bytes cs :=
      Utf8.bytes_cons h.facts.1 cs

theorem IsStart.skipBlanks {c : Char} (h : IsStart c) (bs : Bytes) :
    skipBlanks (UInt8.ofNat c.toNat :: bs) = UInt8.ofNat c.toNat :: bs := by
  rw [Json.skipBlanks, h.facts.2.1]
  rfl

/-- Behind the opening bracket. -/
def itemsTail : List Value → List Char
  | [] => [']']
  | v :: vs => writeValue v ++ writeItems vs

theorem writeValue_array (vs : List Value) :
    writeValue (.array vs) = '[' :: itemsTail vs := by
  cases vs <;> rw [writeValue] <;> rfl

/-- Behind the opening brace. -/
def membersTail : List (String × Value) → List Char
  | [] => ['\x7d']
  | m :: ms => writeMember m ++ writeMembers ms

theorem writeValue_object (ms : Members) :
    writeValue (.object ms) = '\x7b' :: membersTail ms := by
  cases ms <;> rw [writeValue] <;> rfl

theorem exists_start {v : Value} (h : v.WellFormed) :
    ∃ c cs, writeValue v = c :: cs ∧ IsStart c := by
  cases h with
  | null => exact ⟨'n', _, rfl, .inl (by decide)⟩
  | bool b =>
    cases b with
    | true => exact ⟨'t', _, rfl, .inl (by decide)⟩
    | false => exact ⟨'f', _, rfl, .inl (by decide)⟩
  | @number n hn =>
    obtain ⟨c, hc, hstart⟩ := (spells_writeNumber hn).first
    obtain ⟨cs, hcs⟩ := List.head?_eq_some_iff.mp hc
    refine ⟨c, cs, hcs, ?_⟩
    rcases hstart with rfl | hdigit
    · exact .inl (by decide)
    · exact .inr hdigit
  | string s => exact ⟨'"', _, rfl, .inl (by decide)⟩
  | array _ => exact ⟨'[', _, writeValue_array _, .inl (by decide)⟩
  | object _ _ => exact ⟨'\x7b', _, writeValue_object _, .inl (by decide)⟩

/-! ## Values -/

/-- Whatever follows, if it does not go on with a number. -/
def ReadsBack (v : Value) : Prop :=
  ∀ depth fuel rest, v.depth ≤ depth → (Utf8.bytes (writeValue v)).length ≤ fuel → Ends rest →
    readValue depth fuel (Utf8.bytes (writeValue v) ++ rest) =
      .ok (v.mapNumbers Number.reread, rest)

theorem readsBack_null : ReadsBack .null := by
  intro depth fuel rest _ hfuel _
  cases fuel with
  | zero => exact absurd hfuel (by decide)
  | succ fuel => rfl

theorem readsBack_bool (b : Bool) : ReadsBack (.bool b) := by
  intro depth fuel rest _ hfuel _
  cases fuel with
  | zero => cases b <;> exact absurd hfuel (by decide)
  | succ fuel => cases b <;> rfl

theorem readsBack_string (s : String) : ReadsBack (.string s) := by
  intro depth fuel rest _ hfuel _
  rw [writeValue] at hfuel ⊢
  cases fuel with
  | zero =>
    rw [writeString, List.cons_append, Utf8.bytes_cons (by decide)] at hfuel
    exact absurd hfuel (Nat.not_succ_le_zero _)
  | succ fuel =>
    have hread := readString_writeString s hfuel rest
    rw [writeString, List.cons_append, Utf8.bytes_cons (by decide), List.cons_append]
    change (fun p => (Value.string p.1, p.2)) <$> readString [] (fuel + 1) _ = _
    rw [hread]
    rfl

theorem length_writeValue_pos {v : Value} (h : v.WellFormed) :
    0 < (Utf8.bytes (writeValue v)).length := by
  obtain ⟨c, cs, hv, hc⟩ := exists_start h
  rw [hv, hc.bytes_cons, List.length_cons]
  exact Nat.succ_pos _

theorem readValue_digit {c : Char} (h : c.isDigit = true) (depth fuel : Nat) (bs : Bytes) :
    readValue depth (fuel + 1) (UInt8.ofNat c.toNat :: bs) =
      (fun p => (.number p.1, p.2)) <$> readNumber false (UInt8.ofNat c.toNat :: bs) := by
  have hc : IsStart c := .inr h
  have hdigit := isDigit_iff.mp h
  have hchar := (isStart_digit_facts c.toNat (by omega) hdigit.1).2
  simp only [List.mem_cons, List.not_mem_nil, or_false, not_or] at hchar
  obtain ⟨hn, ht, hf, hquote, hminus, hlist, hobject, -⟩ := hchar
  rw [readValue, hc.skipBlanks]
  dsimp only
  split
  · next h => exact absurd h hn
  · next h => exact absurd h ht
  · next h => exact absurd h hf
  · next h => exact absurd h hquote
  · next h => exact absurd h hminus
  · next h => exact absurd h hlist
  · next h => exact absurd h hobject
  · rw [digit?_ofNat h]
    rfl

theorem readsBack_number {n : Number} (h : n.InRange) : ReadsBack (.number n) := by
  intro depth fuel rest _ hfuel hrest
  have hpos := length_writeValue_pos (.number h)
  obtain ⟨spare, rfl⟩ : ∃ spare, fuel = spare + 1 := ⟨fuel - 1, by omega⟩
  obtain ⟨⟨c, hc, hstart⟩, hread⟩ := spells_writeNumber h
  obtain ⟨cs, hcs⟩ := List.head?_eq_some_iff.mp hc
  have hread := hread rest hrest
  rw [writeValue, hcs]
  rw [hcs] at hread
  rcases hstart with rfl | hdigit
  · rw [Utf8.bytes_cons (by decide), List.cons_append] at hread ⊢
    change (fun p => (Value.number p.1, p.2)) <$> readNumber true _ = _
    change readNumber true _ = _ at hread
    rw [hread]
    rfl
  · have hminus : c ≠ '-' := by
      rintro rfl
      exact absurd hdigit (by decide)
    have hascii : c.toNat < 128 := IsStart.facts (.inr hdigit) |>.1
    rw [Utf8.bytes_cons hascii, List.cons_append] at hread ⊢
    rw [readSigned, Utf8.ofUInt8_ofNat hascii, if_neg hminus] at hread
    rw [readValue_digit hdigit, hread]
    rfl

/-! ## Arrays -/

theorem ends_of_char {c : Char} (hc : c ∈ [',', ']', '\x7d']) (cs : List Char)
    (rest : Bytes) : Ends (Utf8.bytes (c :: cs) ++ rest) := by
  simp only [List.mem_cons, List.not_mem_nil, or_false] at hc
  rcases hc with rfl | rfl | rfl <;>
  · rw [Utf8.bytes_cons (by decide), List.cons_append]
    rintro b ⟨⟩
    decide

theorem ends_writeItems (vs : List Value) (rest : Bytes) :
    Ends (Utf8.bytes (writeItems vs) ++ rest) := by
  cases vs <;> exact ends_of_char (by decide) _ rest

theorem nextItem_first {v : Value} (h : v.WellFormed) (rest : Bytes) :
    nextItem true (Utf8.bytes (writeValue v) ++ rest) =
      .ok (.more (Utf8.bytes (writeValue v) ++ rest)) := by
  obtain ⟨c, cs, hv, hc⟩ := exists_start h
  obtain ⟨hascii, -, hend⟩ := hc.facts
  rw [hv, hc.bytes_cons, List.cons_append, nextItem, hc.skipBlanks]
  simp only [Utf8.ofUInt8_ofNat hascii, ↓reduceIte]
  split
  · exact absurd rfl hend
  · rfl
  · rfl

theorem nextItem_comma {v : Value} (h : v.WellFormed) (rest : Bytes) :
    nextItem false (Utf8.bytes (',' :: writeValue v) ++ rest) =
      .ok (.more (Utf8.bytes (writeValue v) ++ rest)) := by
  obtain ⟨c, cs, hv, hc⟩ := exists_start h
  obtain ⟨hascii, -, hend⟩ := hc.facts
  have hcomma : skipBlanks (UInt8.ofNat ','.toNat :: (Utf8.bytes (writeValue v) ++ rest)) =
      UInt8.ofNat ','.toNat :: (Utf8.bytes (writeValue v) ++ rest) := rfl
  have hchar : Char.ofUInt8 (UInt8.ofNat ','.toNat) = ',' := rfl
  rw [Utf8.bytes_cons (by decide), List.cons_append, nextItem, hcomma]
  simp only [hchar, Bool.false_eq_true, ↓reduceIte]
  rw [hv, hc.bytes_cons, List.cons_append, hc.skipBlanks]
  simp only [Utf8.ofUInt8_ofNat hascii, if_neg hend]

theorem length_bytes_cons {c : Char} (h : c.toNat < 128) (cs : List Char) :
    (Utf8.bytes (c :: cs)).length = (Utf8.bytes cs).length + 1 := by
  rw [Utf8.bytes_cons h, List.length_cons]

theorem length_bytes_append (cs ds : List Char) :
    (Utf8.bytes (cs ++ ds)).length = (Utf8.bytes cs).length + (Utf8.bytes ds).length := by
  rw [Utf8.bytes_append, List.length_append]

theorem length_writeItems_pos (vs : List Value) :
    0 < (Utf8.bytes (writeItems vs)).length := by
  cases vs with
  | nil => decide
  | cons v vs =>
    rw [writeItems, List.cons_append, length_bytes_cons (by decide)]
    exact Nat.succ_pos _

theorem readItems_last (depth : Nat) (first : Bool) (fuel : Nat) (rest : Bytes) :
    readItems depth first (fuel + 1) (Utf8.bytes [']'] ++ rest) = .ok ([], rest) := by
  cases first <;> rfl

theorem readItems_more {depth fuel : Nat} {first : Bool} {bs rest rest' rest'' : Bytes}
    {v : Value} {vs : List Value} (hnext : nextItem first bs = .ok (.more rest))
    (hv : readValue depth fuel rest = .ok (v, rest'))
    (hvs : readItems depth false fuel rest' = .ok (vs, rest'')) :
    readItems depth first (fuel + 1) bs = .ok (v :: vs, rest'') := by
  rw [readItems, hnext]
  simp only [bind, Except.bind, hv, hvs, pure, Except.pure]

theorem readItems_writeItems {vs : List Value} (h : ∀ v ∈ vs, v.WellFormed)
    (hback : ∀ v ∈ vs, ReadsBack v) {depth fuel : Nat} (hdepth : Value.itemsDepth vs ≤ depth)
    (hfuel : (Utf8.bytes (writeItems vs)).length ≤ fuel) (rest : Bytes) :
    readItems depth false fuel (Utf8.bytes (writeItems vs) ++ rest) =
      .ok (Value.mapItems Number.reread vs, rest) := by
  induction vs generalizing fuel with
  | nil =>
    cases fuel with
    | zero => exact absurd hfuel (by decide)
    | succ fuel => exact readItems_last depth false fuel rest
  | cons v vs ih =>
    obtain ⟨hv, hvs⟩ := List.forall_mem_cons.mp h
    obtain ⟨hvback, hvsback⟩ := List.forall_mem_cons.mp hback
    rw [Value.itemsDepth, Nat.max_le] at hdepth
    rw [writeItems, List.cons_append, length_bytes_cons (by decide),
      length_bytes_append] at hfuel
    have hpos := length_writeItems_pos vs
    obtain ⟨spare, rfl⟩ : ∃ spare, fuel = spare + 1 := ⟨fuel - 1, by omega⟩
    have hcomma : Utf8.bytes (writeItems (v :: vs)) ++ rest =
        Utf8.bytes (',' :: writeValue v) ++ (Utf8.bytes (writeItems vs) ++ rest) := by
      rw [writeItems, Utf8.bytes_append, List.append_assoc]
    rw [hcomma]
    exact readItems_more (nextItem_comma hv _)
      (hvback depth spare _ hdepth.1 (by omega) (ends_writeItems vs rest))
      (ih hvs hvsback hdepth.2 (by omega))

theorem readItems_itemsTail {vs : List Value} (h : ∀ v ∈ vs, v.WellFormed)
    (hback : ∀ v ∈ vs, ReadsBack v) {depth fuel : Nat} (hdepth : Value.itemsDepth vs ≤ depth)
    (hfuel : (Utf8.bytes (itemsTail vs)).length ≤ fuel) (rest : Bytes) :
    readItems depth true fuel (Utf8.bytes (itemsTail vs) ++ rest) =
      .ok (Value.mapItems Number.reread vs, rest) := by
  cases vs with
  | nil =>
    cases fuel with
    | zero => exact absurd hfuel (by decide)
    | succ fuel => exact readItems_last depth true fuel rest
  | cons v vs =>
    obtain ⟨hv, hvs⟩ := List.forall_mem_cons.mp h
    obtain ⟨hvback, hvsback⟩ := List.forall_mem_cons.mp hback
    rw [Value.itemsDepth, Nat.max_le] at hdepth
    rw [itemsTail, length_bytes_append] at hfuel
    have hvpos := length_writeValue_pos hv
    have hvspos := length_writeItems_pos vs
    obtain ⟨spare, rfl⟩ : ∃ spare, fuel = spare + 1 := ⟨fuel - 1, by omega⟩
    rw [itemsTail, Utf8.bytes_append, List.append_assoc]
    exact readItems_more (nextItem_first hv _)
      (hvback depth spare _ hdepth.1 (by omega) (ends_writeItems vs rest))
      (readItems_writeItems hvs hvsback hdepth.2 (by omega) rest)

theorem readsBack_array {vs : List Value} (h : ∀ v ∈ vs, v.WellFormed)
    (hback : ∀ v ∈ vs, ReadsBack v) : ReadsBack (.array vs) := by
  intro depth fuel rest hdepth hfuel _
  rw [Value.depth] at hdepth
  rw [writeValue_array, length_bytes_cons (by decide)] at hfuel
  obtain ⟨spare, rfl⟩ : ∃ spare, fuel = spare + 1 := ⟨fuel - 1, by omega⟩
  obtain ⟨inner, rfl⟩ : ∃ inner, depth = inner + 1 := ⟨depth - 1, by omega⟩
  have hread := readItems_itemsTail h hback (Nat.le_of_succ_le_succ hdepth)
    (Nat.le_of_succ_le_succ hfuel) rest
  rw [writeValue_array, Utf8.bytes_cons (by decide), List.cons_append]
  change (fun p => (Value.array p.1, p.2)) <$> readItems inner true spare _ = _
  rw [hread]
  rfl

/-! ## Objects -/

theorem ends_writeMembers (ms : List (String × Value)) (rest : Bytes) :
    Ends (Utf8.bytes (writeMembers ms) ++ rest) := by
  cases ms <;> exact ends_of_char (by decide) _ rest

theorem length_writeMembers_pos (ms : List (String × Value)) :
    0 < (Utf8.bytes (writeMembers ms)).length := by
  cases ms with
  | nil => decide
  | cons m ms =>
    rw [writeMembers, List.cons_append, length_bytes_cons (by decide)]
    exact Nat.succ_pos _

/-- Behind the quote that opens the name. -/
def memberTail (name : String) (v : Value) : List Char :=
  name.toList.flatMap escaped ++ ['"'] ++ ':' :: writeValue v

theorem writeMember_eq (name : String) (v : Value) :
    writeMember (name, v) = '"' :: memberTail name v := rfl

theorem nextName_first (name : String) (v : Value) (rest : Bytes) :
    nextName true (Utf8.bytes (writeMember (name, v)) ++ rest) =
      .ok (.more (Utf8.bytes (memberTail name v) ++ rest)) := by
  rw [writeMember_eq, Utf8.bytes_cons (by decide), List.cons_append]
  rfl

theorem nextName_comma (name : String) (v : Value) (rest : Bytes) :
    nextName false (Utf8.bytes (',' :: writeMember (name, v)) ++ rest) =
      .ok (.more (Utf8.bytes (memberTail name v) ++ rest)) := by
  rw [writeMember_eq, Utf8.bytes_cons (by decide), Utf8.bytes_cons (by decide),
    List.cons_append, List.cons_append]
  rfl

theorem expectColon_bytes (cs : List Char) (rest : Bytes) :
    expectColon (Utf8.bytes (':' :: cs) ++ rest) = .ok (Utf8.bytes cs ++ rest) := by
  rw [Utf8.bytes_cons (by decide), List.cons_append]
  rfl

theorem readPairs_last (depth : Nat) (first : Bool) (fuel : Nat) (rest : Bytes) :
    readPairs depth first (fuel + 1) (Utf8.bytes ['\x7d'] ++ rest) = .ok ([], rest) := by
  cases first <;> rfl

theorem readPairs_more {depth fuel : Nat} {first : Bool} {bs rest rest' : Bytes}
    {name : String} {v w : Value} {ms : List (String × Value)}
    (hnext : nextName first bs = .ok (.more (Utf8.bytes (memberTail name v) ++ rest)))
    (hname : (Utf8.bytes (writeString name)).length ≤ fuel + 1)
    (hv : readValue depth fuel (Utf8.bytes (writeValue v) ++ rest) = .ok (w, rest))
    (hms : readPairs depth false fuel rest = .ok (ms, rest')) :
    readPairs depth first (fuel + 1) bs = .ok ((name, w) :: ms, rest') := by
  rw [readPairs, hnext]
  simp only [bind, Except.bind, memberTail, Utf8.bytes_append, List.append_assoc]
  have hread := readString_writeString name hname (Utf8.bytes (':' :: writeValue v) ++ rest)
  rw [Utf8.bytes_append, List.append_assoc] at hread
  simp only [hread, expectColon_bytes, hv, hms, pure, Except.pure]

theorem length_writeMember (name : String) (v : Value) :
    (Utf8.bytes (writeMember (name, v))).length =
      (Utf8.bytes (writeString name)).length + (Utf8.bytes (writeValue v)).length + 1 := by
  rw [writeMember, length_bytes_append, length_bytes_cons (by decide), Nat.add_assoc]

theorem readPairs_writeMembers {ms : List (String × Value)} (h : ∀ m ∈ ms, m.2.WellFormed)
    (hback : ∀ m ∈ ms, ReadsBack m.2) {depth fuel : Nat}
    (hdepth : Value.membersDepth ms ≤ depth)
    (hfuel : (Utf8.bytes (writeMembers ms)).length ≤ fuel) (rest : Bytes) :
    readPairs depth false fuel (Utf8.bytes (writeMembers ms) ++ rest) =
      .ok (Value.mapMembers Number.reread ms, rest) := by
  induction ms generalizing fuel with
  | nil =>
    cases fuel with
    | zero => exact absurd hfuel (by decide)
    | succ fuel => exact readPairs_last depth false fuel rest
  | cons m ms ih =>
    obtain ⟨name, v⟩ := m
    obtain ⟨hv, hms⟩ := List.forall_mem_cons.mp h
    obtain ⟨hvback, hmsback⟩ := List.forall_mem_cons.mp hback
    rw [Value.membersDepth, Value.memberDepth, Nat.max_le] at hdepth
    rw [writeMembers, List.cons_append, length_bytes_cons (by decide), length_bytes_append,
      length_writeMember] at hfuel
    have hpos := length_writeMembers_pos ms
    obtain ⟨spare, rfl⟩ : ∃ spare, fuel = spare + 1 := ⟨fuel - 1, by omega⟩
    have hcomma : Utf8.bytes (writeMembers ((name, v) :: ms)) ++ rest =
        Utf8.bytes (',' :: writeMember (name, v)) ++
          (Utf8.bytes (writeMembers ms) ++ rest) := by
      rw [writeMembers, Utf8.bytes_append, List.append_assoc]
    rw [hcomma]
    exact readPairs_more (nextName_comma name v _) (by omega)
      (hvback depth spare _ hdepth.1 (by dsimp only; omega) (ends_writeMembers ms rest))
      (ih hms hmsback hdepth.2 (by omega))

theorem readPairs_membersTail {ms : List (String × Value)} (h : ∀ m ∈ ms, m.2.WellFormed)
    (hback : ∀ m ∈ ms, ReadsBack m.2) {depth fuel : Nat}
    (hdepth : Value.membersDepth ms ≤ depth)
    (hfuel : (Utf8.bytes (membersTail ms)).length ≤ fuel) (rest : Bytes) :
    readPairs depth true fuel (Utf8.bytes (membersTail ms) ++ rest) =
      .ok (Value.mapMembers Number.reread ms, rest) := by
  cases ms with
  | nil =>
    cases fuel with
    | zero => exact absurd hfuel (by decide)
    | succ fuel => exact readPairs_last depth true fuel rest
  | cons m ms =>
    obtain ⟨name, v⟩ := m
    obtain ⟨hv, hms⟩ := List.forall_mem_cons.mp h
    obtain ⟨hvback, hmsback⟩ := List.forall_mem_cons.mp hback
    rw [Value.membersDepth, Value.memberDepth, Nat.max_le] at hdepth
    rw [membersTail, length_bytes_append, length_writeMember] at hfuel
    have hmspos := length_writeMembers_pos ms
    obtain ⟨spare, rfl⟩ : ∃ spare, fuel = spare + 1 := ⟨fuel - 1, by omega⟩
    rw [membersTail, Utf8.bytes_append, List.append_assoc]
    exact readPairs_more (nextName_first name v _) (by omega)
      (hvback depth spare _ hdepth.1 (by dsimp only; omega) (ends_writeMembers ms rest))
      (readPairs_writeMembers hms hmsback hdepth.2 (by omega) rest)

theorem readsBack_object {ms : Members} (hordered : Named.Ordered ms)
    (h : ∀ m ∈ ms, m.2.WellFormed)
    (hback : ∀ m ∈ ms, ReadsBack m.2) : ReadsBack (.object ms) := by
  intro depth fuel rest hdepth hfuel _
  rw [Value.depth] at hdepth
  rw [writeValue_object, length_bytes_cons (by decide)] at hfuel
  obtain ⟨spare, rfl⟩ : ∃ spare, fuel = spare + 1 := ⟨fuel - 1, by omega⟩
  obtain ⟨inner, rfl⟩ : ∃ inner, depth = inner + 1 := ⟨depth - 1, by omega⟩
  have hread := readPairs_membersTail h hback (Nat.le_of_succ_le_succ hdepth)
    (Nat.le_of_succ_le_succ hfuel) rest
  have hkept :=
    Named.ofList_of_ordered (Value.ordered_mapMembers (f := Number.reread) hordered)
  rw [writeValue_object, Utf8.bytes_cons (by decide), List.cons_append]
  change (fun p => (Value.object (Named.ofList p.1), p.2)) <$> readPairs inner true
    spare _ = _
  rw [hread]
  exact congrArg (fun ms => Except.ok (Value.object ms, rest)) hkept

theorem Value.WellFormed.readsBack {v : Value} (h : v.WellFormed) : ReadsBack v := by
  induction h with
  | null => exact readsBack_null
  | bool b => exact readsBack_bool b
  | number h => exact readsBack_number h
  | string s => exact readsBack_string s
  | array h ih => exact readsBack_array h ih
  | object hordered h ih => exact readsBack_object hordered h ih

/-! ## Texts -/

/-- A text is read as the value that it was written from, but for its doubles. -/
theorem parse_text {v : Value} (h : v.WellFormed) (hdepth : v.depth ≤ maxDepth) :
    parse (Utf8.encode v.text) = .ok (v.mapNumbers Number.reread) := by
  have hends : Ends [] := by
    rintro b ⟨⟩
  have hread := h.readsBack maxDepth (enoughFuel (Utf8.bytes (writeValue v))) [] hdepth
    (by rw [enoughFuel]; omega) hends
  rw [List.append_nil] at hread
  rw [Value.text, Utf8.encode_ofList, parse, hread]
  rfl

theorem parse_text_of_integral {v : Value} (h : v.WellFormed) (hi : v.Integral)
    (hdepth : v.depth ≤ maxDepth) : parse (Utf8.encode v.text) = .ok v := by
  rw [parse_text h hdepth, h.mapNumbers_reread hi]

end Jose.Json
