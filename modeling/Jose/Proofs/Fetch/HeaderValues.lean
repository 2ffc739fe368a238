import Jose.Proofs.Fetch.Attempt
import Jose.Proofs.Named
import Jose.Proofs.Text.LetterCase
import Mathlib.Data.List.Flatten
import Mathlib.Data.List.Pairwise
import Mathlib.Data.List.Perm.Basic

/-! Header names are found in any case, under which several names of a map may become one.
Only the entry that comes last is then found, and which one that is depends on the order
in which the map hands out its entries. -/
namespace Jose.Fetch.Response
open Text

variable {status : Nat} {message body name : String}
  {headers order : List (String × List String)} {h h' : String × List String}

/-! ## Entries -/

/-- The entries of a name in any case, in the order in which they come. -/
def entriesUnder (name : String) (headers : List (String × List String)) :
    List (String × List String) :=
  headers.filter fun h => h.1.toLower = name.toLower

/-- All values of these entries. -/
def valuesUnder (name : String) (headers : List (String × List String)) : List String :=
  (entriesUnder name headers).flatMap (·.2)

/-- The names differ in case at most. -/
def Collide (h h' : String × List String) : Prop := h.1.toLower = h'.1.toLower

theorem mem_entriesUnder :
    h ∈ entriesUnder name headers ↔ h ∈ headers ∧ h.1.toLower = name.toLower := by
  simp [entriesUnder]

theorem collide_of_mem_entriesUnder (hh : h ∈ entriesUnder name headers)
    (hh' : h' ∈ entriesUnder name headers) : Collide h h' :=
  (mem_entriesUnder.mp hh).2.trans (mem_entriesUnder.mp hh').2.symm

theorem headerValues_new (status : Nat) (message : String)
    (headers : List (String × List String)) (body name : String) :
    (new status message headers body).headerValues name =
      ((entriesUnder name headers).getLast?.map (·.2)).getD [] := by
  rw [headerValues, new, Named.get?_ofList, List.filter_map, List.getLast?_map,
    Option.map_map]
  rfl

/-- The values of the last entry, if there is one. -/
theorem headerValues_of_getLast? (hlast : (entriesUnder name headers).getLast? = some h) :
    (new status message headers body).headerValues name = h.2 := by
  rw [headerValues_new, hlast]
  rfl

theorem headerValues_of_nil (hnone : entriesUnder name headers = []) :
    (new status message headers body).headerValues name = [] := by
  rw [headerValues_new, hnone]
  rfl

theorem sublist_valuesUnder :
    ((new status message headers body).headerValues name).Sublist
      (valuesUnder name headers) := by
  cases hlast : (entriesUnder name headers).getLast? with
  | none =>
    rw [headerValues_of_nil (List.getLast?_eq_none_iff.mp hlast)]
    exact List.nil_sublist _
  | some h =>
    obtain ⟨before, hsplit⟩ := List.getLast?_eq_some_iff.mp hlast
    rw [headerValues_of_getLast? hlast, valuesUnder, hsplit, List.flatMap_append,
      List.flatMap_singleton]
    exact List.sublist_append_right _ _

/-! ## Orders -/

theorem Collide.symm (hcollide : Collide h h') : Collide h' h := Eq.symm hcollide

theorem Collide.entriesUnder_eq (hcollide : Collide h h')
    (headers : List (String × List String)) :
    entriesUnder h.1 headers = entriesUnder h'.1 headers := by
  rw [entriesUnder, entriesUnder, hcollide]

theorem valuesUnder_perm (hperm : order.Perm headers) :
    (valuesUnder name order).Perm (valuesUnder name headers) :=
  (hperm.filter _).flatMap fun _ _ => List.Perm.refl _

/-- Any entry comes last in some order. -/
theorem exists_order_getLast? (hmem : h ∈ headers) :
    ∃ order, order.Perm headers ∧ (entriesUnder h.1 order).getLast? = some h := by
  refine ⟨headers.erase h ++ [h], ?_, ?_⟩
  · exact (List.perm_append_singleton h _).trans (List.perm_cons_erase hmem).symm
  · simp [entriesUnder]

/-- There are no values besides those of the last entry. -/
theorem headerValues_eq_valuesUnder
    (hempty : headers.Pairwise fun h h' => Collide h h' → h.2 = [] ∧ h'.2 = []) :
    (new status message headers body).headerValues name = valuesUnder name headers := by
  cases hlast : (entriesUnder name headers).getLast? with
  | none =>
    have hnil := List.getLast?_eq_none_iff.mp hlast
    rw [headerValues_of_nil hnil, valuesUnder, hnil]
    rfl
  | some h =>
    obtain ⟨before, hsplit⟩ := List.getLast?_eq_some_iff.mp hlast
    have hall := hempty.filter fun h => decide (h.1.toLower = name.toLower)
    rw [← entriesUnder, hsplit] at hall
    have hbefore : before.flatMap (·.2) = [] := by
      refine List.flatMap_eq_nil_iff.mpr fun earlier hearlier => ?_
      have hmem : earlier ∈ entriesUnder name headers :=
        hsplit ▸ List.mem_append_left _ hearlier
      have hcollide : Collide earlier h :=
        collide_of_mem_entriesUnder hmem (List.mem_of_getLast? hlast)
      exact ((List.pairwise_append.mp hall).2.2 earlier hearlier h List.mem_cons_self
        hcollide).1
    rw [headerValues_of_getLast? hlast, valuesUnder, hsplit, List.flatMap_append,
      List.flatMap_singleton, hbefore, List.nil_append]

/-- Where the first of two entries comes last, all values are its own. -/
theorem eq_nil_of_values_kept
    (hkept : ∀ order, order.Perm headers →
      ∀ name, ((new status message order body).headerValues name).Perm
        (valuesUnder name headers))
    (hpair : [h, h'].Subperm headers) (hcollide : Collide h h') : h'.2 = [] := by
  obtain ⟨order, hperm, hlast⟩ := exists_order_getLast? (hpair.subset List.mem_cons_self)
  have hvalues := (hkept order hperm h.1).length_eq
  rw [headerValues_of_getLast? hlast] at hvalues
  obtain ⟨pair, hpairPerm, hsublist⟩ := hpair
  have hpairValues : (valuesUnder h.1 [h, h']).length ≤ (valuesUnder h.1 headers).length := by
    rw [← (valuesUnder_perm hpairPerm).length_eq]
    exact ((hsublist.filter _).flatMap _).length_le
  have htwo : valuesUnder h.1 [h, h'] = h.2 ++ h'.2 := by
    simp [valuesUnder, entriesUnder, ← show h.1.toLower = h'.1.toLower from hcollide]
  rw [htwo, List.length_append] at hpairValues
  exact List.eq_nil_of_length_eq_zero (by omega)

theorem values_kept_iff :
    (∀ order, order.Perm headers →
      ∀ name, ((new status message order body).headerValues name).Perm
        (valuesUnder name headers)) ↔
      headers.Pairwise fun h h' => Collide h h' → h.2 = [] ∧ h'.2 = [] := by
  constructor
  · intro hkept
    refine List.pairwise_iff_forall_sublist.mpr fun {h h'} hsublist hcollide => ?_
    have hswap : [h', h].Subperm headers :=
      (List.Perm.swap h h' []).subperm.trans hsublist.subperm
    exact ⟨eq_nil_of_values_kept hkept hswap hcollide.symm,
      eq_nil_of_values_kept hkept hsublist.subperm hcollide⟩
  · intro hempty order hperm name
    have hsymm : ∀ {h h' : String × List String}, (Collide h h' → h.2 = [] ∧ h'.2 = []) →
        Collide h' h → h'.2 = [] ∧ h.2 = [] := fun hnil hcollide => (hnil hcollide.symm).symm
    rw [headerValues_eq_valuesUnder ((hperm.pairwise_iff hsymm).mpr hempty)]
    exact valuesUnder_perm hperm

theorem orders_agree_iff :
    (∀ order, order.Perm headers → ∀ name,
      ((new status message order body).headerValues name).Perm
        ((new status message headers body).headerValues name)) ↔
      headers.Pairwise fun h h' => Collide h h' → h.2.Perm h'.2 := by
  constructor
  · intro hagree
    have hfound : ∀ h ∈ headers,
        h.2.Perm ((new status message headers body).headerValues h.1) := by
      intro h hmem
      obtain ⟨order, hperm, hlast⟩ := exists_order_getLast? hmem
      have hvalues := hagree order hperm h.1
      rwa [headerValues_of_getLast? hlast] at hvalues
    refine List.pairwise_iff_forall_sublist.mpr fun {h h'} hsublist hcollide => ?_
    have hsame : (new status message headers body).headerValues h.1 =
        (new status message headers body).headerValues h'.1 := by
      rw [headerValues_new, headerValues_new, hcollide.entriesUnder_eq]
    have hother := hfound h' (hsublist.subset (by simp))
    exact (hfound h (hsublist.subset List.mem_cons_self)).trans (hsame ▸ hother.symm)
  · intro hsame order hperm name
    have hentries : (entriesUnder name order).Perm (entriesUnder name headers) :=
      hperm.filter _
    cases hlast : (entriesUnder name headers).getLast? with
    | none =>
      have hnil := List.getLast?_eq_none_iff.mp hlast
      rw [headerValues_of_nil hnil, headerValues_of_nil (List.perm_nil.mp (hnil ▸ hentries))]
    | some h' =>
      cases horder : (entriesUnder name order).getLast? with
      | none =>
        rw [List.getLast?_eq_none_iff.mp horder] at hentries
        rw [List.nil_perm.mp hentries] at hlast
        cases hlast
      | some h =>
        have hmem : h ∈ entriesUnder name headers :=
          hentries.subset (List.mem_of_getLast? horder)
        have hmem' : h' ∈ entriesUnder name headers := List.mem_of_getLast? hlast
        have : Std.Symm fun h h' : String × List String => Collide h h' → h.2.Perm h'.2 :=
          ⟨fun _ _ hperm hcollide => (hperm hcollide.symm).symm⟩
        rw [headerValues_of_getLast? horder, headerValues_of_getLast? hlast]
        exact List.Pairwise.forall_of_forall (fun _ _ _ =>
          List.Perm.refl _) hsame (mem_entriesUnder.mp hmem).1
          (mem_entriesUnder.mp hmem').1 (collide_of_mem_entriesUnder hmem hmem')

/-! ## Received headers -/

/-- One more header that is received. -/
def addHeader (map : Named (List String)) (header : String × Bytes) : Named (List String) :=
  map.insert header.1 ((map.get? header.1).getD [] ++ [Utf8.decodeLossy header.2])

theorem headerMap_eq_foldl (received : List (String × Bytes)) :
    Get.headerMap received = received.foldl addHeader [] :=
  rfl

variable {map : Named (List String)} {received : List (String × Bytes)}

theorem getD_get?_addHeader (map : Named (List String)) (header : String × Bytes)
    (name : String) :
    ((addHeader map header).get? name).getD [] =
      (map.get? name).getD [] ++ if header.1 =
        name then [Utf8.decodeLossy header.2] else [] := by
  rw [addHeader, Named.get?_insert]
  by_cases hname : header.1 = name
  · rw [if_pos hname, if_pos hname, hname, Option.getD_some]
  · rw [if_neg hname, if_neg hname, List.append_nil]

theorem getD_get?_foldl_addHeader (received : List (String × Bytes))
    (map : Named (List String)) (name : String) :
    ((received.foldl addHeader map).get? name).getD [] =
      (map.get? name).getD [] ++ (received.filter (·.1 = name)).map fun h =>
        Utf8.decodeLossy h.2 := by
  induction received generalizing map with
  | nil => exact (List.append_nil _).symm
  | cons header received ih =>
    rw [List.foldl_cons, ih, getD_get?_addHeader, List.append_assoc]
    by_cases hname : header.1 = name
    · rw [if_pos hname, List.filter_cons_of_pos (by simpa using hname)]
      rfl
    · rw [if_neg hname, List.filter_cons_of_neg (by simpa using hname), List.nil_append]

theorem ordered_foldl_addHeader (hordered : map.Ordered) (received : List (String × Bytes)) :
    (received.foldl addHeader map).Ordered := by
  induction received generalizing map with
  | nil => exact hordered
  | cons header received ih => exact ih (hordered.insert _ _)

theorem mem_names_foldl_addHeader (hmap : ∀ entry ∈ map, entry.1.toLower = entry.1)
    (hreceived : ∀ header ∈ received, header.1.toLower = header.1) :
    ∀ entry ∈ received.foldl addHeader map, entry.1.toLower = entry.1 := by
  induction received generalizing map with
  | nil => exact hmap
  | cons header received ih =>
    obtain ⟨hheader, hreceived⟩ := List.forall_mem_cons.mp hreceived
    refine ih (fun entry hentry => ?_) hreceived
    rcases Named.eq_or_mem_of_mem_insert hentry with rfl | hentry
    · exact hheader
    · exact hmap entry hentry

/-- A map that is in order and in lower case is kept as it is. -/
theorem headerValues_new_of_ordered (hordered : map.Ordered)
    (hlower : ∀ entry ∈ map, entry.1.toLower = entry.1) :
    (new status message map body).headerValues name = (map.get? name.toLower).getD [] := by
  have hheaders : (new status message map body).headers =
      Named.ofList (map.map fun entry => (entry.1.toLower, entry.2)) := rfl
  have hsame : map.map (fun entry => (entry.1.toLower, entry.2)) = map := by
    refine (List.map_congr_left fun entry hentry => ?_).trans (List.map_id map)
    exact Prod.ext (hlower entry hentry) rfl
  rw [headerValues, hheaders, hsame, Named.ofList_of_ordered hordered]

/-- Headers are received with names in lower case. -/
theorem headerValues_new_headerMap
    (hreceived : ∀ header ∈ received, header.1.toLower = header.1) :
    (new status message (Get.headerMap received) body).headerValues name =
      (received.filter (·.1 = name.toLower)).map fun header => Utf8.decodeLossy header.2 := by
  rw [headerMap_eq_foldl,
    headerValues_new_of_ordered (ordered_foldl_addHeader Named.ordered_nil received)
    (mem_names_foldl_addHeader (by simp) hreceived), getD_get?_foldl_addHeader]
  exact List.nil_append _

/-! ## Responses -/

/-- Of entries whose names differ in case only, the values of the one that comes last are
found under them, and no others. So all values are found in whatever order the entries
come just if no two such entries have any, and every order of the entries gives the same
just if such entries have the same values. A response that was fetched has no such
entries: all values of a name are there in the order in which they came in. -/
theorem values_kept_iff_collisions_empty (status : Nat) (message body : String)
    (headers : List (String × List String)) :
    (∀ name h, (entriesUnder name headers).getLast? = some h →
      (new status message headers body).headerValues name = h.2) ∧
    (∀ name, ((new status message headers body).headerValues name).Sublist
      (valuesUnder name headers)) ∧
    ((∀ order, order.Perm headers →
      ∀ name, ((new status message order body).headerValues name).Perm
        (valuesUnder name headers)) ↔
      headers.Pairwise fun h h' => Collide h h' → h.2 = [] ∧ h'.2 = []) ∧
    ((∀ order, order.Perm headers → ∀ name,
      ((new status message order body).headerValues name).Perm
        ((new status message headers body).headerValues name)) ↔
      headers.Pairwise fun h h' => Collide h h' → h.2.Perm h'.2) ∧
    ∀ (g : Get) url a r, g.receive url a = .ok r →
      (∀ header ∈ a.headers, header.1.toLower = header.1) →
      ∀ name, r.headerValues name =
        (a.headers.filter (·.1 = name.toLower)).map fun header =>
          Utf8.decodeLossy header.2 := by
  refine ⟨fun name h hlast => headerValues_of_getLast? hlast, fun name =>
    sublist_valuesUnder, values_kept_iff,
    orders_agree_iff, fun g url a r hreceive hlower name => ?_⟩
  rw [Get.eq_new_of_receive hreceive]
  exact headerValues_new_headerMap hlower

/-- Two names that differ in case, and one that has no other. -/
def tagged : List (String × List String) :=
  [("X-Tag", ["a"]), ("x-tag", ["b"]), ("Age", ["1", "2"])]

/-- One name that comes twice. -/
def repeated : Arrival :=
  ⟨200, [("x-tag", [0x61]), ("age", [0x31]), ("x-tag", [0x62])], [], none⟩

theorem values_kept_iff_collisions_empty_tagged :
    (new 200 "OK" tagged "").headerValues "AGE" = ["1", "2"] ∧
      (¬∀ order, order.Perm tagged →
        ∀ name, ((new 200 "OK" order "").headerValues name).Perm (valuesUnder name tagged)) ∧
      ∃ r, Get.default.receive "http://h/" repeated = .ok r ∧
        r.headerValues "X-Tag" = ["a", "b"] := by
  have hX : "X-Tag".toLower = "x-tag" := toLower_eq_iff_toList.mpr (by decide)
  have hx : "x-tag".toLower = "x-tag" := toLower_eq_iff_toList.mpr (by decide)
  have hAge : "Age".toLower = "age" := toLower_eq_iff_toList.mpr (by decide)
  have hAGE : "AGE".toLower = "age" := toLower_eq_iff_toList.mpr (by decide)
  have hage : "age".toLower = "age" := toLower_eq_iff_toList.mpr (by decide)
  obtain ⟨hfound, -, hkept, -, hfetched⟩ :=
    values_kept_iff_collisions_empty 200 "OK" "" tagged
  have hlast : (entriesUnder "AGE" tagged).getLast? = some ("Age", ["1", "2"]) := by
    simp [entriesUnder, tagged, hX, hx, hAge, hAGE]
  have hcollide : ¬tagged.Pairwise fun h h' => Collide h h' → h.2 = [] ∧ h'.2 = [] := by
    simp [tagged, Collide, hX, hx]
  have hreceive : Get.default.receive "http://h/" repeated =
      .ok (.new 200 "OK" (Get.headerMap repeated.headers) (Get.bodyText .utf8 [])) := by
    have hwithin : ¬(0 < Get.default.bodyLimit ∧
        Get.default.bodyLimit < (Get.bodyText .utf8 []).length) := by decide +kernel
    rw [Get.receive_ok rfl rfl rfl, if_neg (by decide)]
    exact if_neg hwithin
  have hlower : ∀ header ∈ repeated.headers, header.1.toLower = header.1 := by
    simp [repeated, hx, hage]
  refine ⟨hfound "AGE" _ hlast, fun hall => hcollide (hkept.mp hall), _, hreceive, ?_⟩
  rw [hfetched Get.default "http://h/" repeated _ hreceive hlower, hX]
  decide +kernel

/-- The same two names with the same value. -/
def doubled : List (String × List String) :=
  [("X-Tag", ["a"]), ("x-tag", ["a"]), ("Age", ["1"])]

/-- Of two values one is lost, and the order of the entries decides which. A value that
both entries have is there once. -/
theorem colliding_values_lost :
    valuesUnder "x-tag" tagged = ["a", "b"] ∧
      (new 200 "OK" tagged "").headerValues "x-tag" = ["b"] ∧
      (new 200 "OK" tagged.reverse "").headerValues "x-tag" = ["a"] ∧
      valuesUnder "x-tag" doubled = ["a", "a"] ∧
      (new 200 "OK" doubled "").headerValues "x-tag" = ["a"] := by
  have hX : "X-Tag".toLower = "x-tag" := toLower_eq_iff_toList.mpr (by decide)
  have hx : "x-tag".toLower = "x-tag" := toLower_eq_iff_toList.mpr (by decide)
  have hAge : "Age".toLower = "age" := toLower_eq_iff_toList.mpr (by decide)
  have hlast : (entriesUnder "x-tag" tagged).getLast? = some ("x-tag", ["b"]) := by
    simp [entriesUnder, tagged, hX, hx, hAge]
  have hfirst : (entriesUnder "x-tag" tagged.reverse).getLast? = some ("X-Tag", ["a"]) := by
    simp [entriesUnder, tagged, hX, hx, hAge]
  have hsame : (entriesUnder "x-tag" doubled).getLast? = some ("x-tag", ["a"]) := by
    simp [entriesUnder, doubled, hX, hx, hAge]
  refine ⟨?_, headerValues_of_getLast? hlast, headerValues_of_getLast? hfirst, ?_,
    headerValues_of_getLast? hsame⟩
  · simp [valuesUnder, entriesUnder, tagged, hX, hx, hAge]
  · simp [valuesUnder, entriesUnder, doubled, hX, hx, hAge]

end Jose.Fetch.Response
