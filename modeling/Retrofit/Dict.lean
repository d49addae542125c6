/-!
# Dictionaries keyed by text

A dictionary keeps its entries strictly sorted by key, so two dictionaries are equal exactly when
they hold the same value under every key (`Dict.ext_get?`). `Dict.get?_insert` and
`Dict.get?_erase` say what writing and removing do to the entries.
-/

namespace Retrofit

/-- Entries in ascending order of their keys, each key at most once. -/
structure Dict (α : Type) where
  entries : List (String × α)
  sorted : entries.Pairwise fun a b => a.1 < b.1

namespace Dict

variable {α β : Type}

theorem ext_entries : ∀ {a b : Dict α}, a.entries = b.entries → a = b
  | ⟨_, _⟩, ⟨_, _⟩, rfl => rfl

instance [DecidableEq α] : DecidableEq (Dict α) := fun a b =>
  decidable_of_iff (a.entries = b.entries) ⟨ext_entries, fun h => h ▸ rfl⟩

def empty : Dict α := ⟨[], .nil⟩

instance : Inhabited (Dict α) := ⟨empty⟩

def get? (d : Dict α) (key : String) : Option α :=
  d.entries.lookup key

def contains (d : Dict α) (key : String) : Bool :=
  (d.get? key).isSome

/-- The values in ascending order of their keys. -/
def values (d : Dict α) : List α :=
  d.entries.map Prod.snd

def size (d : Dict α) : Nat :=
  d.entries.length

/-- Puts an entry at its place in a sorted list, over the old one of the same key. -/
def insertEntry (key : String) (value : α) : List (String × α) → List (String × α)
  | [] => [(key, value)]
  | (k, v) :: rest =>
    if key < k then (key, value) :: (k, v) :: rest
    else if key = k then (key, value) :: rest
    else (k, v) :: insertEntry key value rest

theorem lt_of_not_lt_of_ne {a b : String} (h : ¬ a < b) (hne : a ≠ b) : b < a := by
  apply Decidable.byContradiction
  intro hba
  exact hne (String.le_antisymm (String.not_lt.mp hba) (String.not_lt.mp h))

theorem mem_insertEntry {key : String} {value : α} {l : List (String × α)} {e : String × α}
    (h : e ∈ insertEntry key value l) : e = (key, value) ∨ e ∈ l := by
  induction l with
  | nil => simpa [insertEntry] using h
  | cons x rest ih =>
    simp only [insertEntry] at h
    split at h
    · simpa using h
    · split at h
      · rcases List.mem_cons.mp h with h | h
        · exact Or.inl h
        · exact Or.inr (List.mem_cons_of_mem _ h)
      · rcases List.mem_cons.mp h with h | h
        · exact Or.inr (h ▸ List.mem_cons_self)
        · exact (ih h).imp id (List.mem_cons_of_mem _)

theorem pairwise_insertEntry {key : String} {value : α} {l : List (String × α)}
    (h : l.Pairwise fun a b => a.1 < b.1) :
    (insertEntry key value l).Pairwise fun a b => a.1 < b.1 := by
  induction l with
  | nil => simp [insertEntry]
  | cons x rest ih =>
    obtain ⟨hx, hrest⟩ := List.pairwise_cons.mp h
    simp only [insertEntry]
    split
    · rename_i hlt
      refine List.pairwise_cons.mpr ⟨fun e he => ?_, h⟩
      rcases List.mem_cons.mp he with rfl | he
      · exact hlt
      · exact String.lt_trans hlt (hx e he)
    · split
      · rename_i heq
        exact List.pairwise_cons.mpr ⟨fun e he => heq ▸ hx e he, hrest⟩
      · rename_i hlt hne
        refine List.pairwise_cons.mpr ⟨fun e he => ?_, ih hrest⟩
        rcases mem_insertEntry he with rfl | he
        · exact lt_of_not_lt_of_ne hlt hne
        · exact hx e he

/-- Stores a value under a key, in place of the one that was there. -/
def insert (d : Dict α) (key : String) (value : α) : Dict α :=
  ⟨insertEntry key value d.entries, pairwise_insertEntry d.sorted⟩

def erase (d : Dict α) (key : String) : Dict α :=
  ⟨d.entries.filter (·.1 != key), d.sorted.filter _⟩

/-- Applies a function to the value under a key, where there is one. -/
def modify (d : Dict α) (key : String) (f : α → α) : Dict α :=
  match d.get? key with
  | some value => d.insert key (f value)
  | none => d

def mapWithKey (f : String → α → β) (d : Dict α) : Dict β :=
  ⟨d.entries.map fun e => (e.1, f e.1 e.2), List.pairwise_map.mpr d.sorted⟩

def map (f : α → β) (d : Dict α) : Dict β :=
  d.mapWithKey fun _ => f

/-- Collects entries in any order; of two with the same key the later one stays. -/
def ofList (l : List (String × α)) : Dict α :=
  l.foldl (fun d e => d.insert e.1 e.2) empty

/-! ## Lemmas -/

theorem lookup_cons (k k' : String) (v : α) (l : List (String × α)) :
    List.lookup k ((k', v) :: l) = if k = k' then some v else l.lookup k := by
  by_cases h : k = k'
  · simp [h]
  · have hb : (k == k') = false := beq_eq_false_iff_ne.mpr h
    rw [List.lookup_cons, hb, if_neg h]

theorem lookup_insertEntry (key : String) (value : α) (l : List (String × α)) (k : String) :
    (insertEntry key value l).lookup k = if k = key then some value else l.lookup k := by
  induction l with
  | nil => simp [insertEntry, lookup_cons]
  | cons x rest ih =>
    obtain ⟨k', v'⟩ := x
    simp only [insertEntry]
    split
    · simp [lookup_cons]
    · split
      · rename_i heq
        subst heq
        by_cases h : k = key <;> simp [lookup_cons, h]
      · rename_i hne
        by_cases h : k = k'
        · simp [h, Ne.symm hne]
        · simp [lookup_cons, h, ih]

@[simp] theorem get?_empty (k : String) : (empty : Dict α).get? k = none := rfl

@[simp] theorem get?_insert (d : Dict α) (key : String) (value : α) (k : String) :
    (d.insert key value).get? k = if k = key then some value else d.get? k :=
  lookup_insertEntry key value d.entries k

theorem lookup_filter_ne (l : List (String × α)) (key k : String) :
    (l.filter (·.1 != key)).lookup k = if k = key then none else l.lookup k := by
  induction l with
  | nil => simp
  | cons x rest ih =>
    obtain ⟨k', v'⟩ := x
    by_cases hk : k' = key
    · simp only [List.filter_cons, hk, bne_self_eq_false, Bool.false_eq_true, if_false, ih,
        lookup_cons]
      by_cases h : k = key <;> simp [h]
    · have hb : (k' != key) = true := bne_iff_ne.mpr hk
      simp only [List.filter_cons, hb, if_true, lookup_cons, ih]
      by_cases h : k = k'
      · simp [h, hk]
      · simp [h]

@[simp] theorem get?_erase (d : Dict α) (key k : String) :
    (d.erase key).get? k = if k = key then none else d.get? k :=
  lookup_filter_ne d.entries key k

theorem lookup_eq_none_of_lt {l : List (String × α)} {k : String}
    (h : ∀ e ∈ l, k < e.1) : l.lookup k = none := by
  induction l with
  | nil => rfl
  | cons x rest ih =>
    have hne : k ≠ x.1 := fun heq => String.lt_irrefl x.1 (heq ▸ h x List.mem_cons_self)
    rw [lookup_cons, if_neg hne]
    exact ih fun e he => h e (List.mem_cons_of_mem _ he)

theorem entries_ext {a b : List (String × α)} (ha : a.Pairwise fun x y => x.1 < y.1)
    (hb : b.Pairwise fun x y => x.1 < y.1) (h : ∀ k, a.lookup k = b.lookup k) : a = b := by
  induction a generalizing b with
  | nil =>
    cases b with
    | nil => rfl
    | cons y b =>
      obtain ⟨ky, vy⟩ := y
      simpa [lookup_cons] using h ky
  | cons x a ih =>
    obtain ⟨kx, vx⟩ := x
    obtain ⟨hx, ha'⟩ := List.pairwise_cons.mp ha
    cases b with
    | nil => simpa [lookup_cons] using h kx
    | cons y b =>
      obtain ⟨ky, vy⟩ := y
      obtain ⟨hy, hb'⟩ := List.pairwise_cons.mp hb
      have hkeys : kx = ky := by
        apply Decidable.byContradiction
        intro hne
        by_cases hlt : kx < ky
        · have hnone : b.lookup kx = none :=
            lookup_eq_none_of_lt fun e he => String.lt_trans hlt (hy e he)
          simpa [lookup_cons, hne, hnone] using h kx
        · have hlt := lt_of_not_lt_of_ne hlt hne
          have hnone : a.lookup ky = none :=
            lookup_eq_none_of_lt fun e he => String.lt_trans hlt (hx e he)
          simpa [lookup_cons, Ne.symm hne, hnone] using h ky
      subst hkeys
      have hvals : vx = vy := by simpa [lookup_cons] using h kx
      subst hvals
      have htail : a = b := ih ha' hb' fun k => by
        by_cases hk : k = kx
        · subst hk
          rw [lookup_eq_none_of_lt hx, lookup_eq_none_of_lt hy]
        · simpa [lookup_cons, hk] using h k
      rw [htail]

/-- A dictionary is determined by the values under its keys. -/
theorem ext_get? {a b : Dict α} (h : ∀ k, a.get? k = b.get? k) : a = b :=
  ext_entries (entries_ext a.sorted b.sorted h)

end Dict

end Retrofit
