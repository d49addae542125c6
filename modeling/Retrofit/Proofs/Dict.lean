import Mathlib.Data.List.Dedup
import Mathlib.Data.List.Forall2
import Mathlib.Data.List.Induction
import Mathlib.Data.List.Nodup
import Mathlib.Data.Option.Basic
import Mathlib.Tactic.Lemma
import Retrofit.Dict

/-!
# Dictionaries made of lists

What a dictionary that was made of a list of entries holds.
-/

namespace Retrofit

namespace Dict

variable {α β : Type}

lemma lookup_map_snd (f : α → β) (l : List (String × α)) (k : String) :
    (l.map fun e => (e.1, f e.2)).lookup k = (l.lookup k).map f := by
  induction l with
  | nil => rfl
  | cons e l ih =>
    obtain ⟨k', v⟩ := e
    rw [List.map_cons, lookup_cons, lookup_cons, ih]
    split <;> rfl

@[simp] theorem get?_map (f : α → β) (d : Dict α) (k : String) :
    (d.map f).get? k = (d.get? k).map f :=
  lookup_map_snd f d.entries k

@[simp] lemma get?_modify (d : Dict α) (key : String) (f : α → α) (k : String) :
    (d.modify key f).get? k = if k = key then (d.get? k).map f else d.get? k := by
  unfold modify
  cases hkey : d.get? key with
  | none =>
    dsimp only
    split
    · rename_i h
      rw [h, hkey]
      rfl
    · rfl
  | some value =>
    dsimp only
    rw [get?_insert]
    split
    · rename_i h
      rw [h, hkey]
      rfl
    · rfl

lemma ofList_append_singleton (l : List (String × α)) (e : String × α) :
    ofList (l ++ [e]) = (ofList l).insert e.1 e.2 :=
  List.foldl_append

/-- The last entry of a key stays. -/
theorem get?_ofList_of_last (before : List (String × α)) {k : String} {v : α}
    {after : List (String × α)} (h : ∀ e ∈ after, e.1 ≠ k) :
    (ofList (before ++ (k, v) :: after)).get? k = some v := by
  induction after using List.reverseRecOn with
  | nil => rw [ofList_append_singleton, get?_insert, if_pos rfl]
  | append_singleton after e ih =>
    rw [← List.cons_append, ← List.append_assoc, ofList_append_singleton, get?_insert,
      if_neg (h e (List.mem_append_right _ List.mem_cons_self)).symm]
    exact ih fun e' he' => h e' (List.mem_append_left _ he')

lemma get?_ofList_of_nodup {l : List (String × α)} (hl : (l.map Prod.fst).Nodup) {k : String}
    {v : α} (h : (k, v) ∈ l) : (ofList l).get? k = some v := by
  obtain ⟨before, after, rfl⟩ := List.append_of_mem h
  refine get?_ofList_of_last before fun e he heq => ?_
  rw [List.map_append, List.map_cons] at hl
  have hafter := (List.nodup_cons.mp hl.of_append_right).1
  exact hafter (heq ▸ List.mem_map.mpr ⟨e, he, rfl⟩)

/-- What is found in a dictionary was among its entries. -/
theorem mem_of_get?_ofList {l : List (String × α)} {k : String} {v : α}
    (h : (ofList l).get? k = some v) : (k, v) ∈ l := by
  induction l using List.reverseRecOn with
  | nil => cases h
  | append_singleton l e ih =>
    rw [ofList_append_singleton, get?_insert] at h
    split at h
    · rename_i hkey
      rw [hkey, ← Option.some.inj h]
      exact List.mem_append_right l List.mem_cons_self
    · exact List.mem_append_left _ (ih h)

/-- The keys of a dictionary are those of the entries it was made from. -/
theorem exists_get?_ofList_iff {l : List (String × α)} {k : String} :
    (∃ v, (ofList l).get? k = some v) ↔ k ∈ l.map Prod.fst := by
  constructor
  · rintro ⟨v, hv⟩
    exact List.mem_map_of_mem (f := Prod.fst) (mem_of_get?_ofList hv)
  · intro hk
    induction l using List.reverseRecOn with
    | nil => cases hk
    | append_singleton l e ih =>
      rw [List.map_append, List.mem_append, List.map_singleton, List.mem_singleton] at hk
      rw [ofList_append_singleton, get?_insert]
      split
      · exact ⟨e.2, rfl⟩
      · rename_i hne
        exact ih (hk.resolve_right hne)

lemma lookup_eq_some_iff {l : List (String × α)} (hl : (l.map Prod.fst).Nodup) {k : String} {v : α} :
    l.lookup k = some v ↔ (k, v) ∈ l := by
  induction l with
  | nil => exact iff_of_false nofun nofun
  | cons e rest ih =>
    obtain ⟨hfirst, hrest⟩ := List.nodup_cons.mp hl
    rw [lookup_cons, List.mem_cons]
    split
    · rename_i heq
      refine ⟨fun h => Or.inl (Prod.ext heq (Option.some.inj h).symm), fun h => ?_⟩
      rcases h with rfl | h
      · rfl
      · exact absurd (heq ▸ List.mem_map_of_mem (f := Prod.fst) h) hfirst
    · rename_i hne
      refine (ih hrest).trans ⟨Or.inr, fun h => h.resolve_left ?_⟩
      rintro rfl
      exact hne rfl

lemma nodup_keys (d : Dict α) : (d.entries.map Prod.fst).Nodup := by
  refine List.Pairwise.map Prod.fst ?_ d.sorted
  rintro a b hlt heq
  exact String.lt_irrefl _ (heq ▸ hlt)

/-- The entries are what is found under their keys. -/
theorem get?_eq_some_iff {d : Dict α} {k : String} {v : α} :
    d.get? k = some v ↔ (k, v) ∈ d.entries :=
  lookup_eq_some_iff (nodup_keys d)

lemma get?_ofList_eq_lookup {l : List (String × α)} (hl : (l.map Prod.fst).Nodup) (k : String) :
    (ofList l).get? k = l.lookup k := by
  ext v
  rw [lookup_eq_some_iff hl]
  exact ⟨mem_of_get?_ofList, get?_ofList_of_nodup hl⟩

/-- A dictionary has as many entries as there are different keys. -/
theorem size_ofList (l : List (String × α)) : (ofList l).size = (l.map Prod.fst).dedup.length := by
  have hperm : ((ofList l).entries.map Prod.fst).Perm (l.map Prod.fst).dedup := by
    rw [List.perm_ext_iff_of_nodup (nodup_keys _) (List.nodup_dedup _)]
    intro k
    refine List.mem_map.trans (Iff.trans ?_ (exists_get?_ofList_iff.trans List.mem_dedup.symm))
    constructor
    · rintro ⟨⟨k', v⟩, he, rfl⟩
      exact ⟨v, get?_eq_some_iff.mpr he⟩
    · rintro ⟨v, hv⟩
      exact ⟨(k, v), get?_eq_some_iff.mp hv, rfl⟩
  rw [← hperm.length_eq, List.length_map]
  rfl

lemma size_ofList_eq_length_iff {l : List (String × α)} :
    (ofList l).size = l.length ↔ (l.map Prod.fst).Nodup := by
  rw [size_ofList, ← List.dedup_eq_self]
  refine ⟨fun h => ?_, fun h => by rw [h, List.length_map]⟩
  exact (List.dedup_sublist _).eq_of_length (h.trans (List.length_map _).symm)

/-- Entries with different keys are only put in order. -/
theorem perm_entries_ofList {l : List (String × α)} (h : (l.map Prod.fst).Nodup) :
    (ofList l).entries.Perm l := by
  rw [List.perm_ext_iff_of_nodup (nodup_keys _).of_map h.of_map]
  rintro ⟨k, v⟩
  rw [← get?_eq_some_iff]
  exact ⟨mem_of_get?_ofList, get?_ofList_of_nodup h⟩

lemma not_mem_keys_of_get?_eq_none {d : Dict α} {k : String} (h : d.get? k = none) :
    k ∉ d.entries.map Prod.fst := by
  intro hk
  obtain ⟨e, he, rfl⟩ := List.mem_map.mp hk
  rw [get?_eq_some_iff.mpr he] at h
  cases h

lemma rel_imp {R S : α → β → Prop} (h : ∀ a b, R a b → S a b) {o : Option α} {o' : Option β}
    (ho : Option.Rel R o o') : Option.Rel S o o' := by
  cases ho with
  | some hab => exact .some (h _ _ hab)
  | none => exact .none

lemma eq_none_of_rel {R : α → β → Prop} {o : Option β} (h : Option.Rel R none o) : o = none := by
  cases h
  rfl

lemma exists_of_rel_some {R : α → β → Prop} {a : α} {o : Option β}
    (h : Option.Rel R (some a) o) : ∃ b, o = some b ∧ R a b := by
  cases h with
  | some hab => exact ⟨_, rfl, hab⟩

/-- Lists of entries whose keys agree one by one, and whose values are related, give related values
under every key. -/
theorem rel_get?_ofList {R : α → β → Prop} {l : List (String × α)} {l' : List (String × β)}
    (h : List.Forall₂ (fun e e' => e.1 = e'.1 ∧ R e.2 e'.2) l l') (k : String) :
    Option.Rel R ((ofList l).get? k) ((ofList l').get? k) := by
  have hfold : ∀ {d : Dict α} {d' : Dict β}, Option.Rel R (d.get? k) (d'.get? k) →
      Option.Rel R ((l.foldl (fun d e => d.insert e.1 e.2) d).get? k)
        ((l'.foldl (fun d e => d.insert e.1 e.2) d').get? k) := by
    induction h with
    | nil => exact id
    | cons he _ ih =>
      intro d d' hd
      apply ih
      rw [get?_insert, get?_insert, he.1]
      split
      · exact .some he.2
      · exact hd
  exact hfold .none

lemma forall₂_insertEntry {R : α → β → Prop} {k : String} {v : α} {v' : β} (hv : R v v')
    {l : List (String × α)} {l' : List (String × β)}
    (h : List.Forall₂ (fun e e' => e.1 = e'.1 ∧ R e.2 e'.2) l l') :
    List.Forall₂ (fun e e' => e.1 = e'.1 ∧ R e.2 e'.2) (insertEntry k v l)
      (insertEntry k v' l') := by
  induction h with
  | nil => exact .cons ⟨rfl, hv⟩ .nil
  | @cons e e' l l' he hrest ih =>
    obtain ⟨k₁, v₁⟩ := e
    obtain ⟨k₂, v₂⟩ := e'
    obtain ⟨heq, hR⟩ := he
    dsimp only at heq hR
    subst heq
    unfold insertEntry
    split_ifs
    · exact .cons ⟨rfl, hv⟩ (.cons ⟨rfl, hR⟩ hrest)
    · exact .cons ⟨rfl, hv⟩ hrest
    · exact .cons ⟨rfl, hR⟩ ih

/-- Lists of entries that are related one by one give dictionaries that are. -/
theorem forall₂_entries_ofList {R : α → β → Prop} {l : List (String × α)} {l' : List (String × β)}
    (h : List.Forall₂ (fun e e' => e.1 = e'.1 ∧ R e.2 e'.2) l l') :
    List.Forall₂ (fun e e' => e.1 = e'.1 ∧ R e.2 e'.2) (ofList l).entries (ofList l').entries := by
  have hfold : ∀ {d : Dict α} {d' : Dict β},
      List.Forall₂ (fun e e' => e.1 = e'.1 ∧ R e.2 e'.2) d.entries d'.entries →
      List.Forall₂ (fun e e' => e.1 = e'.1 ∧ R e.2 e'.2)
        (l.foldl (fun d e => d.insert e.1 e.2) d).entries
        (l'.foldl (fun d e => d.insert e.1 e.2) d').entries := by
    induction h with
    | nil => exact id
    | cons he _ ih =>
      intro d d' hd
      apply ih
      beta_reduce
      rw [he.1]
      exact forall₂_insertEntry he.2 hd
  exact hfold .nil

end Dict

end Retrofit
