import Mathlib.Data.List.Nodup
import Mathlib.Data.Option.Basic
import Retrofit.Json.Reading
import Retrofit.Proofs.Dict
import Retrofit.Proofs.Outcome

/-!
# Reading objects

An object is read by the values under its names: a dictionary has the last value of every name
(`Json.toDict?_eq_some_iff`), and a structured value has one value under each name that it knows. So
the order of fields with different names does not matter, nor do the fields that a structured value
does not know.

`Json.RecordAlike`, `Json.DictAlike` and `Json.ListAlike` say that two trees are alike as structured
values, as dictionaries and as lists, in terms of when their parts are alike. A reader that does not
tell alike trees apart respects the relation (`Json.Respects`), and readers that are put together of
such readers are again of this kind.
-/

namespace Retrofit

/-! ## The values under a name -/

section Values

variable {α β : Type}

/-- What stands under a name, from the first to the last. -/
def valuesOf (l : List (String × α)) (name : String) : List α :=
  (l.filter (·.1 = name)).map Prod.snd

@[simp] lemma valuesOf_nil (name : String) : valuesOf ([] : List (String × α)) name = [] := rfl

lemma valuesOf_cons (e : String × α) (l : List (String × α)) (name : String) :
    valuesOf (e :: l) name = if e.1 = name then e.2 :: valuesOf l name else valuesOf l name := by
  unfold valuesOf
  rw [List.filter_cons]
  split_ifs with h h' h'
  · rfl
  · exact absurd (of_decide_eq_true h) h'
  · exact absurd (decide_eq_true h') h
  · rfl

lemma valuesOf_append (l l' : List (String × α)) (name : String) :
    valuesOf (l ++ l') name = valuesOf l name ++ valuesOf l' name := by
  unfold valuesOf
  rw [List.filter_append, List.map_append]

lemma mem_valuesOf {l : List (String × α)} {name : String} {v : α} :
    v ∈ valuesOf l name ↔ (name, v) ∈ l := by
  induction l with
  | nil => exact iff_of_false List.not_mem_nil List.not_mem_nil
  | cons e l ih =>
    rw [valuesOf_cons, List.mem_cons, Prod.ext_iff]
    split
    · rename_i h
      rw [List.mem_cons, ih, h, eq_self_iff_true, true_and]
    · rename_i h
      rw [ih, or_iff_right]
      exact fun heq => h heq.1.symm

lemma valuesOf_filter (names : String → Bool) (l : List (String × α)) (name : String) :
    valuesOf (l.filter fun e => names e.1) name = if names name then valuesOf l name else [] := by
  induction l with
  | nil => exact (ite_self _).symm
  | cons e l ih =>
    rw [List.filter_cons, valuesOf_cons]
    split
    · rename_i he
      rw [valuesOf_cons, ih]
      split_ifs with heq hname hname
      · rfl
      · exact absurd (heq ▸ he) hname
      · rfl
      · rfl
    · rename_i he
      rw [ih]
      split_ifs with hname heq
      · exact absurd (heq ▸ hname) he
      · rfl
      · rfl

lemma length_valuesOf (l : List (String × α)) (name : String) :
    (valuesOf l name).length = (l.map Prod.fst).count name := by
  induction l with
  | nil => rfl
  | cons e l ih =>
    rw [List.map_cons, List.count_cons, valuesOf_cons, ← ih]
    split_ifs with h h' h'
    · rfl
    · exact absurd (beq_iff_eq.mpr h) h'
    · exact absurd (beq_iff_eq.mp h') h
    · rfl

lemma nodup_names_iff {l : List (String × α)} :
    (l.map Prod.fst).Nodup ↔ ∀ name, (valuesOf l name).length ≤ 1 := by
  rw [List.nodup_iff_count_le_one]
  exact forall_congr' fun name => by rw [length_valuesOf]

lemma lookup_eq_head? (l : List (String × α)) (name : String) :
    l.lookup name = (valuesOf l name).head? := by
  induction l with
  | nil => rfl
  | cons e l ih =>
    rw [Dict.lookup_cons, valuesOf_cons]
    split_ifs with h h' h'
    · rfl
    · exact absurd h.symm h'
    · exact absurd h'.symm h
    · exact ih

lemma valuesOf_eq_toList {l : List (String × α)} (hl : (l.map Prod.fst).Nodup) (name : String) :
    valuesOf l name = (l.lookup name).toList := by
  rw [lookup_eq_head?]
  match hvalues : valuesOf l name, nodup_names_iff.mp hl name with
  | [], _ => rfl
  | [v], _ => rfl

/-- Of several values under a name the last one stays. -/
lemma get?_ofList (l : List (String × α)) (name : String) :
    (Dict.ofList l).get? name = (valuesOf l name).getLast? := by
  induction l using List.reverseRecOn with
  | nil => rfl
  | append_singleton l e ih =>
    rw [Dict.ofList_append_singleton, Dict.get?_insert, valuesOf_append, valuesOf_cons,
      valuesOf_nil]
    split_ifs with h h' h'
    · rw [List.getLast?_concat]
    · exact absurd h.symm h'
    · exact absurd h'.symm h
    · rw [List.append_nil, ih]

lemma ofList_entries (d : Dict α) : Dict.ofList d.entries = d :=
  Dict.ext_get? fun name => Dict.get?_ofList_eq_lookup (Dict.nodup_keys d) name

end Values

namespace Json

variable {α : Type} {read : Json → Option α}

/-! ## Dictionaries -/

/-- Values that can all be read. -/
def AllReadAs (read : Json → Option α) (js : List Json) (vs : List α) : Prop :=
  js.map read = vs.map some

lemma AllReadAs.unique {js : List Json} {vs vs' : List α} (h : AllReadAs read js vs)
    (h' : AllReadAs read js vs') : vs = vs' :=
  List.map_injective_iff.mpr (Option.some_injective α) (h.symm.trans h')

lemma mapM_eq_some_iff {js : List Json} {vs : List α} :
    js.mapM read = some vs ↔ AllReadAs read js vs := by
  unfold AllReadAs
  rw [mapM_eq_some, ← List.forall₂_eq_eq_eq, List.forall₂_map_left_iff, List.forall₂_map_right_iff]

/-- An object is read as a dictionary if every value in it can be read, and the dictionary has the
last one under each name. -/
theorem toDict?_eq_some_iff {fields : List (String × Json)} {d : Dict α} :
    toDict? read (.object fields) = some d ↔
      ∀ name, ∃ vs, AllReadAs read (valuesOf fields name) vs ∧ d.get? name = vs.getLast? := by
  have hread : ∀ {entries : List (String × α)},
      List.Forall₂ (fun e b => (read e.2).map (e.1, ·) = some b) fields entries →
        ∀ name, AllReadAs read (valuesOf fields name) (valuesOf entries name) := by
    intro entries h name
    induction h with
    | nil => rfl
    | cons he _ ih =>
      obtain ⟨v, hv, rfl⟩ := Option.map_eq_some_iff.mp he
      rw [valuesOf_cons, valuesOf_cons]
      split
      · exact List.cons_eq_cons.mpr ⟨hv, ih⟩
      · exact ih
  unfold toDict?
  rw [Option.map_eq_some_iff]
  constructor
  · rintro ⟨entries, hentries, rfl⟩ name
    exact ⟨_, hread (mapM_eq_some.mp hentries) name, get?_ofList entries name⟩
  · intro h
    have hall : ∀ e ∈ fields, ∃ b, (read e.2).map (e.1, ·) = some b := by
      intro e he
      obtain ⟨vs, hvs, -⟩ := h e.1
      have hmem : read e.2 ∈ vs.map some := hvs ▸ List.mem_map_of_mem (mem_valuesOf.mpr he)
      obtain ⟨v, -, hv⟩ := List.mem_map.mp hmem
      exact ⟨(e.1, v), by rw [← hv, Option.map_some]⟩
    obtain ⟨entries, hentries⟩ := exists_forall₂_of_forall hall
    refine ⟨entries, mapM_eq_some.mpr hentries, Dict.ext_get? fun name => ?_⟩
    obtain ⟨vs, hvs, hlast⟩ := h name
    rw [get?_ofList, hlast, (hread hentries name).unique hvs]

/-- What is written for each entry of a dictionary is read as the dictionary. -/
theorem toDict?_ofDict {write : α → Json} {d : Dict α}
    (h : ∀ v ∈ d.values, read (write v) = some v) : toDict? read (ofDict write d) = some d := by
  have hentries : (d.entries.map fun e => (e.1, write e.2)).mapM
      (fun e => (read e.2).map (e.1, ·)) = some d.entries := by
    rw [mapM_eq_some, List.forall₂_map_left_iff, List.forall₂_same]
    intro e he
    dsimp only
    rw [h e.2 (List.mem_map_of_mem he), Option.map_some]
  unfold ofDict toDict?
  dsimp only
  rw [hentries, Option.map_some, ofList_entries]

/-! ## Lists -/

theorem toList?_ofList {write : α → Json} {l : List α}
    (h : ∀ v ∈ l, read (write v) = some v) : toList? read (ofList write l) = some l := by
  unfold ofList toList?
  dsimp only
  rw [mapM_eq_some, List.forall₂_map_left_iff, List.forall₂_same]
  exact h

/-! ## Structured values -/

lemma distinctNames_iff {fields : List (String × Json)} :
    distinctNames fields ↔ (fields.map Prod.fst).Nodup := by
  induction fields with
  | nil => exact iff_of_true rfl List.nodup_nil
  | cons e rest ih =>
    obtain ⟨first, j⟩ := e
    unfold distinctNames
    rw [Bool.and_eq_true, ih, List.map_cons, List.nodup_cons, Bool.not_eq_true', List.any_eq_false]
    refine and_congr_left' ⟨fun h hmem => ?_, fun h e he heq => ?_⟩
    · obtain ⟨e, he, heq⟩ := List.mem_map.mp hmem
      exact h e he (decide_eq_true heq)
    · exact h (List.mem_map.mpr ⟨e, he, of_decide_eq_true heq⟩)

/-- An open structured value needs its own names to be given at most once. -/
lemma toRecord?_object (names : List String) (fields : List (String × Json)) :
    toRecord? names false (.object fields) =
      if ∀ name ∈ names, (valuesOf fields name).length ≤ 1 then
        some ⟨true, fields.filter (names.contains ·.1)⟩ else none := by
  have hdistinct : distinctNames (fields.filter (names.contains ·.1)) = true ↔
      ∀ name ∈ names, (valuesOf fields name).length ≤ 1 := by
    rw [distinctNames_iff, nodup_names_iff]
    refine forall_congr' fun name => ?_
    rw [valuesOf_filter]
    split
    · rename_i h
      exact ⟨fun hlength _ => hlength, fun hlength => hlength (List.contains_iff_mem.mp h)⟩
    · rename_i h
      exact iff_of_true (Nat.zero_le 1) fun hmem => absurd (List.contains_iff_mem.mpr hmem) h
  unfold toRecord?
  dsimp only
  rw [Bool.not_false, Bool.true_or, Bool.and_true]
  exact if_congr hdistinct rfl rfl

/-- An object that has all fields of a structured value, and no others. -/
lemma toRecord?_of_names {names : List String} {closed : Bool} {fields : List (String × Json)}
    (hfields : fields.map Prod.fst = names) (hnames : names.Nodup) :
    toRecord? names closed (.object fields) = some ⟨true, fields⟩ := by
  subst hfields
  have hknown : ∀ e ∈ fields, ((fields.map Prod.fst).contains e.1) = true := fun e he =>
    List.contains_iff_mem.mpr (List.mem_map_of_mem he)
  unfold toRecord?
  dsimp only
  rw [List.filter_eq_self.mpr hknown, distinctNames_iff.mpr hnames, List.all_eq_true.mpr hknown,
    Bool.or_true, Bool.and_true, if_pos rfl]

namespace Record

variable {named : Bool} {name name' : String} {j : Json} {rest : List (String × Json)}

@[simp] lemma required_cons : required ⟨named, (name', j) :: rest⟩ name read =
    if name = name' then read j else required ⟨named, rest⟩ name read := by
  unfold required find?
  rw [Dict.lookup_cons]
  split <;> rfl

@[simp] lemma withDefault_cons {default : α} :
    withDefault ⟨named, (name', j) :: rest⟩ name default read =
      if name = name' then read j else withDefault ⟨named, rest⟩ name default read := by
  unfold withDefault find?
  dsimp only
  rw [Dict.lookup_cons]
  by_cases h : name = name'
  · rw [if_pos h, if_pos h]
  · rw [if_neg h, if_neg h]

end Record

/-! ## Trees that are alike -/

/-- A reader that does not tell related trees apart. -/
def Respects (read : Json → Option α) (R : Json → Json → Prop) : Prop :=
  ∀ j j', R j j' → read j = read j'

/-- Trees that are alike as structured values with the given fields, for each of which it is known
when its values are alike: the fields may be in another order, and other fields do not matter. -/
def RecordAlike (fields : List (String × (Json → Json → Prop))) (j j' : Json) : Prop :=
  j = j' ∨ ∃ given given', j = .object given ∧ j' = .object given' ∧
    ∀ f ∈ fields, List.Forall₂ f.2 (valuesOf given f.1) (valuesOf given' f.1)

/-- Trees that are alike as dictionaries: entries of different names may be in another order. -/
def DictAlike (R : Json → Json → Prop) (j j' : Json) : Prop :=
  j = j' ∨ ∃ given given', j = .object given ∧ j' = .object given' ∧
    ∀ name, List.Forall₂ R (valuesOf given name) (valuesOf given' name)

/-- Lists whose items are alike one by one. -/
def ListAlike (R : Json → Json → Prop) (j j' : Json) : Prop :=
  j = j' ∨ ∃ items items', j = .list items ∧ j' = .list items' ∧ List.Forall₂ R items items'

variable {R : Json → Json → Prop}

lemma respects_eq : Respects read Eq := by
  rintro j _ rfl
  rfl

lemma Respects.map_eq {js js' : List Json} (h : Respects read R) (hjs : List.Forall₂ R js js') :
    js.map read = js'.map read :=
  map_eq_map_of_forall₂ (hjs.imp h)

lemma Respects.toDict? (h : Respects read R) : Respects (toDict? read) (DictAlike R) := by
  rintro j j' (rfl | ⟨given, given', rfl, rfl, hvalues⟩)
  · rfl
  · ext d
    rw [toDict?_eq_some_iff, toDict?_eq_some_iff]
    unfold AllReadAs
    simp only [h.map_eq (hvalues _)]

lemma Respects.toList? (h : Respects read R) : Respects (toList? read) (ListAlike R) := by
  rintro j j' (rfl | ⟨items, items', rfl, rfl, hitems⟩)
  · rfl
  · ext l
    unfold Json.toList?
    dsimp only
    rw [mapM_eq_some_iff, mapM_eq_some_iff]
    unfold AllReadAs
    rw [h.map_eq hitems]

lemma Respects.toOption?_toList? (h : Respects read R) :
    Respects (toOption? (Json.toList? read)) (ListAlike R) := by
  rintro j j' (rfl | ⟨items, items', rfl, rfl, hitems⟩)
  · rfl
  · change (Json.toList? read _).map some = (Json.toList? read _).map some
    rw [h.toList? _ _ (Or.inr ⟨items, items', rfl, rfl, hitems⟩)]

namespace Record

variable {name : String} {r r' : Record}

lemma required_congr (hread : Respects read R) (h : Option.Rel R (r.find? name) (r'.find? name)) :
    r.required name read = r'.required name read := by
  unfold required
  generalize r.find? name = o at h ⊢
  generalize r'.find? name = o' at h ⊢
  cases h with
  | none => rfl
  | some hj => exact hread _ _ hj

lemma withDefault_congr {default : α} (hread : Respects read R)
    (h : Option.Rel R (r.find? name) (r'.find? name)) :
    r.withDefault name default read = r'.withDefault name default read := by
  unfold withDefault
  generalize r.find? name = o at h ⊢
  generalize r'.find? name = o' at h ⊢
  cases h with
  | none => rfl
  | some hj => exact hread _ _ hj

end Record

/-- Fields of different names in another order, and others among them that are not known. -/
theorem recordAlike_of_perm {fields : List (String × (Json → Json → Prop))}
    (hrefl : ∀ f ∈ fields, ∀ j, f.2 j j) {given given' extra : List (String × Json)}
    (hperm : given'.Perm (given ++ extra)) (hnames : (given.map Prod.fst).Nodup)
    (hextra : ∀ e ∈ extra, e.1 ∉ fields.map Prod.fst) :
    RecordAlike fields (.object given) (.object given') := by
  refine Or.inr ⟨given, given', rfl, rfl, fun f hf => ?_⟩
  have hnone : valuesOf extra f.1 = [] := by
    refine List.eq_nil_iff_forall_not_mem.mpr fun j hj => ?_
    exact hextra _ (mem_valuesOf.mp hj) (List.mem_map_of_mem hf)
  have hvalues : (valuesOf given' f.1).Perm (valuesOf given f.1) := by
    have h := (hperm.filter (·.1 = f.1)).map Prod.snd
    change (valuesOf given' f.1).Perm (valuesOf (given ++ extra) f.1) at h
    rwa [valuesOf_append, hnone, List.append_nil] at h
  have heq : valuesOf given' f.1 = valuesOf given f.1 := by
    match hgiven : valuesOf given f.1, nodup_names_iff.mp hnames f.1 with
    | [], _ => exact List.perm_nil.mp (hgiven ▸ hvalues)
    | [j], _ => exact List.perm_singleton.mp (hgiven ▸ hvalues)
  rw [heq, List.forall₂_same]
  exact fun j _ => hrefl f hf j

lemma RecordAlike.filter {fields : List (String × (Json → Json → Prop))}
    {given given' : List (String × Json)} (h : RecordAlike fields (.object given) (.object given'))
    (names : String → Bool) : RecordAlike fields (.object (given.filter fun e => names e.1))
      (.object (given'.filter fun e => names e.1)) := by
  rcases h with h | ⟨_, _, h, h', hvalues⟩
  · cases h
    exact Or.inl rfl
  · cases h
    cases h'
    refine Or.inr ⟨_, _, rfl, rfl, fun f hf => ?_⟩
    rw [valuesOf_filter, valuesOf_filter]
    split
    · exact hvalues f hf
    · exact .nil

/-- What is made of an open structured value may only depend on its fields. -/
theorem respects_record {fields : List (String × (Json → Json → Prop))} {names : List String}
    {body : Record → Option α} (hnames : fields.map Prod.fst = names)
    (hbody : ∀ r r' : Record, (∀ f ∈ fields, Option.Rel f.2 (r.find? f.1) (r'.find? f.1)) →
      body r = body r') :
    Respects (fun j => (toRecord? names false j).bind body) (RecordAlike fields) := by
  subst hnames
  rintro j j' (rfl | ⟨given, given', rfl, rfl, hvalues⟩)
  · rfl
  · have honce : (∀ name ∈ fields.map Prod.fst, (valuesOf given name).length ≤ 1) ↔
        ∀ name ∈ fields.map Prod.fst, (valuesOf given' name).length ≤ 1 := by
      refine forall₂_congr fun name hname => ?_
      obtain ⟨f, hf, rfl⟩ := List.mem_map.mp hname
      rw [(hvalues f hf).length_eq]
    dsimp only
    rw [toRecord?_object, toRecord?_object, if_congr honce rfl rfl]
    split
    · refine hbody _ _ fun f hf => ?_
      have hknown : (fields.map Prod.fst).contains f.1 = true :=
        List.contains_iff_mem.mpr (List.mem_map_of_mem hf)
      unfold Record.find?
      rw [lookup_eq_head?, lookup_eq_head?, valuesOf_filter, valuesOf_filter, if_pos hknown,
        if_pos hknown]
      exact rel_head? (hvalues f hf)
    · rfl

end Json

end Retrofit
