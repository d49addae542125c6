import Retrofit.Proofs.Json.Objects

/-!
# Plain values

A plain value has no unreadable part, and the fields of its objects are in the order of their names,
each name once. Plain values are read as they are (`Json.toPlain?_of_isPlain`). Trees that differ in
the order of fields alone, at any depth, are read as the same plain value
(`Json.respects_toPlain?`).
-/

namespace Retrofit.Json

mutual

def isPlain : Json → Bool
  | .unreadable => false
  | .list items => arePlain items
  | .object fields => havePlain fields
  | .null | .bool _ | .int _ | .float _ | .text _ => true

def arePlain : List Json → Bool
  | [] => true
  | item :: rest => isPlain item && arePlain rest

def havePlain : List (String × Json) → Bool
  | [] => true
  | (name, value) :: rest => isPlain value && rest.all (name < ·.1) && havePlain rest

end

/-- Trees that only differ in the order of fields of different names. -/
inductive Reordered : Json → Json → Prop
  | refl (j : Json) : Reordered j j
  | trans {i j k : Json} (h : Reordered i j) (h' : Reordered j k) : Reordered i k
  | item (before : List Json) {j j' : Json} (after : List Json) (h : Reordered j j') :
      Reordered (.list (before ++ j :: after)) (.list (before ++ j' :: after))
  | field (before : List (String × Json)) (name : String) {j j' : Json}
      (after : List (String × Json)) (h : Reordered j j') :
      Reordered (.object (before ++ (name, j) :: after)) (.object (before ++ (name, j') :: after))
  | swap (before : List (String × Json)) {e e' : String × Json} (after : List (String × Json))
      (h : e.1 ≠ e'.1) :
      Reordered (.object (before ++ e :: e' :: after)) (.object (before ++ e' :: e :: after))

/-! ## Trees part by part -/

lemma areReadable_eq (items : List Json) : areReadable items = items.all isReadable := by
  induction items with
  | nil => rfl
  | cons item rest ih => rw [areReadable, List.all_cons, ih]

lemma haveReadable_eq (fields : List (String × Json)) :
    haveReadable fields = fields.all (·.2.isReadable) := by
  induction fields with
  | nil => rfl
  | cons e rest ih => rw [haveReadable, List.all_cons, ih]

lemma settledItems_eq (items : List Json) : settledItems items = items.map settled := by
  induction items with
  | nil => rfl
  | cons item rest ih => rw [settledItems, List.map_cons, ih]

lemma pairwise_settledFields (fields : List (String × Json)) :
    (settledFields fields).Pairwise fun a b => a.1 < b.1 := by
  induction fields with
  | nil => exact .nil
  | cons e rest ih =>
    rw [settledFields]
    split
    · exact ih
    · exact Dict.pairwise_insertEntry ih

lemma any_name_iff {l : List (String × Json)} {name : String} :
    l.any (·.1 = name) ↔ (l.lookup name).isSome := by
  induction l with
  | nil => simp
  | cons e rest ih =>
    rw [List.any_cons, Bool.or_eq_true, ih, Dict.lookup_cons, decide_eq_true_eq]
    split
    · rename_i h
      exact iff_of_true (Or.inl h.symm) rfl
    · rename_i h
      exact or_iff_right fun heq => h heq.symm

lemma lookup_settledFields (fields : List (String × Json)) (name : String) :
    (settledFields fields).lookup name = (valuesOf fields name).getLast?.map settled := by
  induction fields with
  | nil => rfl
  | cons e rest ih =>
    obtain ⟨first, j⟩ := e
    rw [settledFields, valuesOf_cons]
    dsimp only
    split_ifs with hlater hname hname
    · -- a later field of the same name counts
      subst hname
      rw [any_name_iff, ih, Option.isSome_map, List.getLast?_isSome] at hlater
      rw [ih, List.getLast?_cons_of_ne_nil hlater]
    · exact ih
    · subst hname
      rw [any_name_iff, ih, Option.isSome_map, List.getLast?_isSome, not_not] at hlater
      rw [Dict.lookup_insertEntry, if_pos rfl, hlater]
      rfl
    · rw [Dict.lookup_insertEntry, if_neg (Ne.symm hname), ih]

lemma settledFields_congr {fields fields' : List (String × Json)}
    (h : ∀ name, (valuesOf fields name).map settled = (valuesOf fields' name).map settled) :
    settledFields fields = settledFields fields' := by
  refine Dict.entries_ext (pairwise_settledFields fields) (pairwise_settledFields fields') ?_
  intro name
  rw [lookup_settledFields, lookup_settledFields, ← List.getLast?_map, h, List.getLast?_map]

/-! ## Plain values -/

lemma insertEntry_of_lt {l : List (String × Json)} {name : String} {j : Json}
    (h : ∀ e ∈ l, name < e.1) : Dict.insertEntry name j l = (name, j) :: l := by
  cases l with
  | nil => rfl
  | cons e rest =>
    obtain ⟨first, value⟩ := e
    rw [Dict.insertEntry, if_pos (h _ List.mem_cons_self)]

mutual

lemma settled_of_isPlain {j : Json} (h : j.isPlain) : j.settled = j := by
  cases j with
  | list items => rw [settled, settledItems_of_arePlain h]
  | object fields => rw [settled, settledFields_of_havePlain h]
  | unreadable => cases h
  | _ => rw [settled]

lemma settledItems_of_arePlain {items : List Json} (h : arePlain items) :
    settledItems items = items := by
  cases items with
  | nil => rfl
  | cons item rest =>
    obtain ⟨hitem, hrest⟩ := Bool.and_eq_true_iff.mp h
    rw [settledItems, settled_of_isPlain hitem, settledItems_of_arePlain hrest]

lemma settledFields_of_havePlain {fields : List (String × Json)} (h : havePlain fields) :
    settledFields fields = fields := by
  cases fields with
  | nil => rfl
  | cons e rest =>
    obtain ⟨name, value⟩ := e
    obtain ⟨hfirst, hrest⟩ := Bool.and_eq_true_iff.mp h
    obtain ⟨hvalue, hname⟩ := Bool.and_eq_true_iff.mp hfirst
    rw [List.all_eq_true] at hname
    rw [settledFields, settledFields_of_havePlain hrest, settled_of_isPlain hvalue, if_neg]
    · exact insertEntry_of_lt fun e he => of_decide_eq_true (hname e he)
    · intro hany
      obtain ⟨e, he, heq⟩ := List.any_eq_true.mp hany
      have hlt := of_decide_eq_true (hname e he)
      rw [of_decide_eq_true heq] at hlt
      exact String.lt_irrefl name hlt

end

mutual

lemma isReadable_of_isPlain {j : Json} (h : j.isPlain) : j.isReadable := by
  cases j with
  | list items => exact areReadable_of_arePlain h
  | object fields => exact haveReadable_of_havePlain h
  | unreadable => cases h
  | _ => rfl

lemma areReadable_of_arePlain {items : List Json} (h : arePlain items) : areReadable items := by
  cases items with
  | nil => rfl
  | cons item rest =>
    obtain ⟨hitem, hrest⟩ := Bool.and_eq_true_iff.mp h
    exact Bool.and_eq_true_iff.mpr ⟨isReadable_of_isPlain hitem, areReadable_of_arePlain hrest⟩

lemma haveReadable_of_havePlain {fields : List (String × Json)} (h : havePlain fields) :
    haveReadable fields := by
  cases fields with
  | nil => rfl
  | cons e rest =>
    obtain ⟨hfirst, hrest⟩ := Bool.and_eq_true_iff.mp h
    exact Bool.and_eq_true_iff.mpr ⟨isReadable_of_isPlain (Bool.and_eq_true_iff.mp hfirst).1,
      haveReadable_of_havePlain hrest⟩

end

theorem toPlain?_of_isPlain {j : Json} (h : j.isPlain) : toPlain? j = some j := by
  rw [toPlain?, if_pos (isReadable_of_isPlain h), settled_of_isPlain h]

/-! ## The order of fields -/

lemma Reordered.isReadable_eq {j j' : Json} (h : Reordered j j') :
    j.isReadable = j'.isReadable := by
  induction h with
  | refl => rfl
  | trans _ _ ih ih' => exact ih.trans ih'
  | item before after _ ih => simp [isReadable, areReadable_eq, ih]
  | field before name after _ ih => simp [isReadable, haveReadable_eq, ih]
  | swap before after _ => simp [isReadable, haveReadable_eq, Bool.and_left_comm]

lemma Reordered.settled_eq {j j' : Json} (h : Reordered j j') : j.settled = j'.settled := by
  induction h with
  | refl => rfl
  | trans _ _ ih ih' => exact ih.trans ih'
  | item before after _ ih => simp [settled, settledItems_eq, ih]
  | field before name after _ ih =>
    rw [settled, settled, settledFields_congr fun k => ?_]
    simp only [valuesOf_append, valuesOf_cons]
    split
    · simp [ih]
    · rfl
  | swap before after hne =>
    rw [settled, settled, settledFields_congr fun k => ?_]
    simp only [valuesOf_append, valuesOf_cons]
    split_ifs with h h'
    · exact absurd (h.trans h'.symm) hne
    all_goals rfl

theorem respects_toPlain? : Respects toPlain? Reordered := by
  intro j j' h
  rw [toPlain?, toPlain?, h.isReadable_eq, h.settled_eq]

end Retrofit.Json
