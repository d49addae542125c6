import Mathlib.Data.List.Infix
import Retrofit.Optimiser.Hyperparameters
import Retrofit.Proofs.Json.Objects

/-!
# Sections of an object

`Json.at?` is what stands in a tree under a path of names. Filling in a number of threads at the end
of a path makes objects of the missing sections on the path, adds the number if there is none, and
changes nothing else (`at?_fillConcurrency`), and so does filling in at several paths that keep
apart (`at?_fillAll`). Filling in again changes nothing at all (`fillAll_fillAll`). As a closed
structured value, the filled tree has the fields of the given one but for the one on the path
(`closed_setField`, `lookup_setField`).
-/

namespace Retrofit.Json

variable {name name' : String} {value j : Json} {f : Json → Json} {fields : List (String × Json)}

/-! ## Changing one field -/

/-- Changes the first value of a name, which is the given one if there is none. -/
def setField (name : String) (value : Json) (f : Json → Json) (fields : List (String × Json)) :
    List (String × Json) :=
  updateField name f (addField name value fields)

lemma any_iff_mem_names : fields.any (·.1 = name) ↔ name ∈ fields.map Prod.fst := by
  rw [List.any_eq_true, List.mem_map]
  simp only [decide_eq_true_eq]

lemma lookup_eq_none_iff : fields.lookup name = none ↔ name ∉ fields.map Prod.fst := by
  induction fields with
  | nil => exact iff_of_true rfl List.not_mem_nil
  | cons e rest ih =>
    rw [Dict.lookup_cons, List.map_cons, List.mem_cons, not_or]
    split_ifs with h
    · exact iff_of_false nofun fun hnot => hnot.1 h
    · rw [ih]
      exact (and_iff_right h).symm

lemma insertEntry_perm (h : name ∉ fields.map Prod.fst) :
    (Dict.insertEntry name value fields).Perm ((name, value) :: fields) := by
  induction fields with
  | nil => exact .refl _
  | cons e rest ih =>
    rw [List.map_cons, List.mem_cons, not_or] at h
    obtain ⟨hne, hrest⟩ := h
    unfold Dict.insertEntry
    rw [if_neg hne]
    split_ifs
    · exact .refl _
    · exact ((ih hrest).cons e).trans (.swap _ _ _)

lemma lookup_addField : (addField name value fields).lookup name' =
    if name' = name then some ((fields.lookup name).getD value) else fields.lookup name' := by
  unfold addField
  by_cases hname : fields.any (·.1 = name)
  · rw [if_pos hname]
    split_ifs with heq
    · obtain ⟨v, hv⟩ := Option.ne_none_iff_exists'.mp
        (mt lookup_eq_none_iff.mp (not_not_intro (any_iff_mem_names.mp hname)))
      rw [heq, hv, Option.getD_some]
    · rfl
  · rw [if_neg hname, Dict.lookup_insertEntry,
      lookup_eq_none_iff.mpr (mt any_iff_mem_names.mpr hname), Option.getD_none]

lemma lookup_updateField : (updateField name f fields).lookup name' =
    if name' = name then (fields.lookup name).map f else fields.lookup name' := by
  induction fields with
  | nil => exact (ite_self _).symm
  | cons e rest ih =>
    obtain ⟨k, v⟩ := e
    unfold updateField
    split_ifs with hk hname hname
    · rw [Dict.lookup_cons, Dict.lookup_cons, if_pos (hname.trans hk.symm), if_pos hk.symm,
        Option.map_some]
    · rw [Dict.lookup_cons, Dict.lookup_cons]
      split_ifs with heq
      · exact absurd (heq.trans hk) hname
      · rfl
    · rw [Dict.lookup_cons, ih, Dict.lookup_cons, if_pos hname, if_neg (Ne.symm hk), if_neg]
      exact fun heq => hk (heq.symm.trans hname)
    · rw [Dict.lookup_cons, ih, Dict.lookup_cons, if_neg hname]

lemma map_fst_updateField :
    (updateField name f fields).map Prod.fst = fields.map Prod.fst := by
  induction fields with
  | nil => rfl
  | cons e rest ih =>
    unfold updateField
    split_ifs
    · rfl
    · rw [List.map_cons, List.map_cons, ih]

lemma lookup_setField : (setField name value f fields).lookup name' =
    if name' = name then some (f ((fields.lookup name).getD value)) else fields.lookup name' := by
  unfold setField
  rw [lookup_updateField, lookup_addField, lookup_addField, if_pos rfl, Option.map_some]
  split_ifs <;> rfl

lemma setField_eq_self {v : Json} (hv : fields.lookup name = some v) (hf : f v = v) :
    setField name value f fields = fields := by
  have hname : name ∈ fields.map Prod.fst := by
    by_contra hnot
    rw [lookup_eq_none_iff.mpr hnot] at hv
    cases hv
  have hupdate : ∀ {l : List (String × Json)}, l.lookup name = some v →
      updateField name f l = l := by
    intro l
    induction l with
    | nil => exact fun _ => rfl
    | cons e rest ih =>
      obtain ⟨k, w⟩ := e
      intro hl
      rw [Dict.lookup_cons] at hl
      unfold updateField
      split_ifs at hl ⊢ with h h' h'
      · rw [Option.some.inj hl, hf]
      · exact absurd h.symm h'
      · exact absurd h'.symm h
      · rw [ih hl]
  unfold setField addField
  rw [if_pos (any_iff_mem_names.mpr hname), hupdate hv]

/-! ## Closed structured values -/

/-- The fields have different names, which are among the given ones. -/
def Closed (names : List String) (fields : List (String × Json)) : Prop :=
  (fields.map Prod.fst).Nodup ∧ ∀ name ∈ fields.map Prod.fst, name ∈ names

instance (names : List String) : DecidablePred (Closed names) := fun _ =>
  inferInstanceAs (Decidable (_ ∧ _))

lemma toRecord?_closed (names : List String) (fields : List (String × Json)) :
    toRecord? names true (.object fields) =
      if Closed names fields then some ⟨true, fields⟩ else none := by
  have hall : fields.all (names.contains ·.1) ↔ ∀ name ∈ fields.map Prod.fst, name ∈ names := by
    rw [List.all_eq_true, List.forall_mem_map]
    simp only [List.contains_iff_mem]
  unfold toRecord?
  dsimp only
  rw [Bool.not_true, Bool.false_or]
  by_cases hknown : ∀ name ∈ fields.map Prod.fst, name ∈ names
  · have hfilter : fields.filter (names.contains ·.1) = fields :=
      List.filter_eq_self.mpr (List.all_eq_true.mp (hall.mpr hknown))
    rw [hfilter, hall.mpr hknown, Bool.and_true]
    exact if_congr (distinctNames_iff.trans (and_iff_left hknown).symm) rfl rfl
  · have hclosed : ¬ Closed names fields := fun h => hknown h.2
    rw [Bool.eq_false_iff.mpr (mt hall.mp hknown), Bool.and_false, if_neg Bool.false_ne_true,
      if_neg hclosed]

/-- Changing a field that is known keeps a structured value closed. -/
lemma closed_setField {names : List String} (hname : name ∈ names) :
    Closed names (setField name value f fields) ↔ Closed names fields := by
  unfold Closed setField
  rw [map_fst_updateField]
  unfold addField
  split_ifs with hfree
  · rfl
  · have hnot := mt any_iff_mem_names.mpr hfree
    have hperm := (@insertEntry_perm _ value _ hnot).map Prod.fst
    rw [List.map_cons] at hperm
    rw [hperm.nodup_iff, List.nodup_cons, and_iff_right hnot]
    refine and_congr_right fun _ => ?_
    simp only [hperm.mem_iff, List.forall_mem_cons]
    exact and_iff_right hname

/-! ## Paths -/

/-- What stands under a path of names. -/
def at? : List String → Json → Option Json
  | [], j => some j
  | name :: path, j => (j.field? name).bind (at? path)

/-- Whether a tree is an object in which the sections on a path, as far as there are any, are
objects. -/
def hasSections : List String → Json → Bool
  | [], .object _ => true
  | name :: path, .object fields => (fields.lookup name).all (hasSections path)
  | _, _ => false

variable {path p : List String} {threads : Nat}

lemma exists_fields_of_hasSections (h : j.hasSections path) : ∃ fields, j = .object fields := by
  cases j with
  | object fields => exact ⟨fields, rfl⟩
  | _ => cases path <;> cases h

lemma hasSections_empty : (object []).hasSections path := by
  cases path <;> rfl

lemma hasSections_getD (h : (object fields).hasSections (name :: path)) :
    ((fields.lookup name).getD (.object [])).hasSections path := by
  change (fields.lookup name).all (hasSections path) = true at h
  cases hname : fields.lookup name with
  | none => exact hasSections_empty
  | some s =>
    rw [hname] at h
    exact h

/-- The number of threads goes into a section like any other field. -/
lemma fillConcurrency_nil : (object fields).fillConcurrency threads [] =
    .object (setField "max_concurrency" (.int threads) id fields) := by
  have hid : ∀ l : List (String × Json), updateField "max_concurrency" id l = l := by
    intro l
    induction l with
    | nil => rfl
    | cons e rest ih =>
      unfold updateField
      split_ifs
      · rfl
      · rw [ih]
  unfold setField
  rw [hid]
  rfl

lemma fillConcurrency_cons : (object fields).fillConcurrency threads (name :: path) =
    .object (setField name (.object []) (fillConcurrency threads path) fields) := rfl

lemma at?_cons : (object fields).at? (name :: p) = (fields.lookup name).bind (at? p) := rfl

/-- Below a missing section there is as much as below an empty one. -/
lemma at?_getD (hp : p ≠ []) :
    ((fields.lookup name).getD (.object [])).at? p = (object fields).at? (name :: p) := by
  rw [at?_cons]
  cases fields.lookup name with
  | none =>
    cases p with
    | nil => exact absurd rfl hp
    | cons name p => rfl
  | some s => rfl

lemma at?_fillConcurrency_nil (hp : p ≠ []) : ((object fields).fillConcurrency threads []).at? p =
    if p = ["max_concurrency"] then some (((object fields).at? p).getD (.int threads))
    else (object fields).at? p := by
  obtain ⟨name, rest, rfl⟩ := List.exists_cons_of_ne_nil hp
  rw [fillConcurrency_nil, at?_cons, at?_cons, lookup_setField]
  by_cases hname : name = "max_concurrency"
  · rw [if_pos hname, hname, Option.bind_some]
    cases rest with
    | nil =>
      rw [if_pos rfl]
      cases fields.lookup "max_concurrency" <;> rfl
    | cons next rest =>
      rw [if_neg (by simp)]
      cases fields.lookup "max_concurrency" <;> rfl
  · rw [if_neg hname, if_neg (by simp [hname])]

/-- The sections on the path are objects after filling in, and elsewhere only the number of threads
at the end of the path may be new. -/
theorem at?_fillConcurrency (h : j.hasSections path) :
    (p <+: path → ∃ fields, (j.fillConcurrency threads path).at? p = some (.object fields)) ∧
    (¬ p <+: path → (j.fillConcurrency threads path).at? p =
      if p = path ++ ["max_concurrency"] then some ((j.at? p).getD (.int threads))
      else j.at? p) := by
  induction path generalizing j p with
  | nil =>
    obtain ⟨fields, rfl⟩ := exists_fields_of_hasSections h
    refine ⟨fun hp => ?_, fun hp => ?_⟩
    · rw [List.prefix_nil.mp hp, fillConcurrency_nil]
      exact ⟨_, rfl⟩
    · exact at?_fillConcurrency_nil fun hnil => hp (List.prefix_nil.mpr hnil)
  | cons name path ih =>
    obtain ⟨fields, rfl⟩ := exists_fields_of_hasSections h
    rw [fillConcurrency_cons]
    cases p with
    | nil => exact ⟨fun _ => ⟨_, rfl⟩, fun hp => absurd List.nil_prefix hp⟩
    | cons first rest =>
      obtain ⟨hsection, helsewhere⟩ := @ih _ rest (hasSections_getD h)
      rw [at?_cons, lookup_setField, List.cons_prefix_cons]
      by_cases hfirst : first = name
      · subst hfirst
        rw [if_pos rfl, Option.bind_some, eq_self_iff_true, true_and]
        refine ⟨hsection, fun hp => ?_⟩
        have hrest : rest ≠ [] := fun hnil => hp (hnil ▸ List.nil_prefix)
        rw [helsewhere hp, at?_getD hrest]
        exact if_congr (List.cons_inj_right first).symm rfl rfl
      · have hne : first :: rest ≠ name :: path ++ ["max_concurrency"] :=
          fun heq => hfirst (List.cons.inj heq).1
        rw [if_neg hfirst, if_neg hne]
        exact ⟨fun hp => absurd hp.1 hfirst, fun _ => rfl⟩

/-! ## Several paths -/

/-- Fills in the number of threads in the sections at the ends of several paths. -/
def fillAll (threads : Nat) (paths : List (List String)) (j : Json) : Json :=
  paths.foldl (fun j path => j.fillConcurrency threads path) j

/-- None of the paths leads through the number of threads at the end of another. -/
def KeepApart (paths : List (List String)) : Prop :=
  ∀ path ∈ paths, ∀ path' ∈ paths, ¬ path ++ ["max_concurrency"] <+: path'

instance : DecidablePred KeepApart := fun _ => inferInstanceAs (Decidable (∀ path ∈ _, _))

lemma hasSections_iff : j.hasSections path ↔
    ∀ p, p <+: path → ∀ s, j.at? p = some s → ∃ fields, s = .object fields := by
  induction path generalizing j with
  | nil =>
    constructor
    · intro h p hp s hs
      rw [List.prefix_nil.mp hp] at hs
      exact Option.some.inj hs ▸ exists_fields_of_hasSections h
    · intro h
      obtain ⟨fields, rfl⟩ := h [] List.nil_prefix j rfl
      rfl
  | cons name path ih =>
    constructor
    · intro h p hp s hs
      obtain ⟨fields, rfl⟩ := exists_fields_of_hasSections h
      cases p with
      | nil => exact ⟨fields, (Option.some.inj hs).symm⟩
      | cons first rest =>
        obtain ⟨rfl, hrest⟩ := List.cons_prefix_cons.mp hp
        obtain ⟨v, hv, hs⟩ := Option.bind_eq_some_iff.mp hs
        change (fields.lookup first).all (hasSections path) = true at h
        change fields.lookup first = some v at hv
        rw [hv] at h
        exact ih.mp h rest hrest s hs
    · intro h
      obtain ⟨fields, rfl⟩ := h [] List.nil_prefix j rfl
      change (fields.lookup name).all (hasSections path) = true
      cases hv : fields.lookup name with
      | none => rfl
      | some v =>
        refine ih.mpr fun p hp s hs => ?_
        refine h (name :: p) (List.cons_prefix_cons.mpr ⟨rfl, hp⟩) s ?_
        rw [at?_cons, hv]
        exact hs

variable {paths : List (List String)}

lemma hasSections_fillConcurrency (h : j.hasSections path) {path' : List String}
    (h' : j.hasSections path') (hapart : ¬ path ++ ["max_concurrency"] <+: path') :
    (j.fillConcurrency threads path).hasSections path' := by
  rw [hasSections_iff] at h' ⊢
  intro p hp s hs
  by_cases hsection : p <+: path
  · obtain ⟨fields, hfields⟩ := (at?_fillConcurrency h).1 hsection
    exact ⟨fields, Option.some.inj (hs.symm.trans hfields)⟩
  · have hne : p ≠ path ++ ["max_concurrency"] := fun heq => hapart (heq ▸ hp)
    rw [(at?_fillConcurrency h).2 hsection, if_neg hne] at hs
    exact h' p hp s hs

lemma hasSections_fillConcurrency_self (h : j.hasSections path) :
    (j.fillConcurrency threads path).hasSections path := by
  refine hasSections_fillConcurrency h h fun hprefix => ?_
  have hlength := hprefix.length_le
  rw [List.length_append, List.length_singleton] at hlength
  omega

/-- The sections on the paths are objects after filling in, and elsewhere only the numbers of
threads at the ends of the paths may be new. -/
theorem at?_fillAll (hapart : KeepApart paths) (h : ∀ path ∈ paths, j.hasSections path) :
    ((∃ path ∈ paths, p <+: path) →
      ∃ fields, (j.fillAll threads paths).at? p = some (.object fields)) ∧
    ((∀ path ∈ paths, ¬ p <+: path) → (j.fillAll threads paths).at? p =
      if ∃ path ∈ paths, p = path ++ ["max_concurrency"] then
        some ((j.at? p).getD (.int threads)) else j.at? p) := by
  induction paths generalizing j with
  | nil =>
    refine ⟨fun ⟨path, hpath, _⟩ => absurd hpath List.not_mem_nil, fun _ => ?_⟩
    exact (if_neg fun ⟨path, hpath, _⟩ => List.not_mem_nil hpath).symm
  | cons path paths ih =>
    obtain ⟨hpath, hpaths⟩ := List.forall_mem_cons.mp h
    have hrest : KeepApart paths := fun q hq q' hq' =>
      hapart q (List.mem_cons_of_mem _ hq) q' (List.mem_cons_of_mem _ hq')
    have hfilled : ∀ q ∈ paths, (j.fillConcurrency threads path).hasSections q := fun q hq =>
      hasSections_fillConcurrency hpath (hpaths q hq)
        (hapart path List.mem_cons_self q (List.mem_cons_of_mem _ hq))
    obtain ⟨hsection, helsewhere⟩ := ih hrest hfilled
    obtain ⟨hfirst, hother⟩ := @at?_fillConcurrency _ path p threads hpath
    change (_ → ∃ fields, ((j.fillConcurrency threads path).fillAll threads paths).at? p = _) ∧
      (_ → ((j.fillConcurrency threads path).fillAll threads paths).at? p = _)
    constructor
    · intro hp
      by_cases hlater : ∃ q ∈ paths, p <+: q
      · exact hsection hlater
      · have hlater : ∀ q ∈ paths, ¬ p <+: q := fun q hq hpq => hlater ⟨q, hq, hpq⟩
        have hp : p <+: path := by
          obtain ⟨q, hq, hpq⟩ := hp
          exact (List.mem_cons.mp hq).elim (fun heq => heq ▸ hpq) fun hq => absurd hpq (hlater q hq)
        have hnumber : ¬ ∃ q ∈ paths, p = q ++ ["max_concurrency"] := fun ⟨q, hq, heq⟩ =>
          hapart q (List.mem_cons_of_mem _ hq) path List.mem_cons_self (heq ▸ hp)
        rw [helsewhere hlater, if_neg hnumber]
        exact hfirst hp
    · intro hp
      obtain ⟨hpath, hpaths⟩ := List.forall_mem_cons.mp hp
      rw [helsewhere hpaths, hother hpath, if_congr (List.exists_mem_cons_iff _ _ _) rfl rfl]
      by_cases hend : p = path ++ ["max_concurrency"]
      · rw [if_pos hend, if_pos (Or.inl hend), Option.getD_some, ite_self]
      · rw [if_neg hend, if_congr (or_iff_right hend) rfl rfl]

/-! ## Filling in again -/

lemma fillConcurrency_of_at? (h : (j.at? (path ++ ["max_concurrency"])).isSome) :
    j.fillConcurrency threads path = j := by
  have hfield : ∀ {name : String} {rest : List String} {j : Json}, (j.at? (name :: rest)).isSome →
      ∃ fields v, j = .object fields ∧ fields.lookup name = some v ∧ (v.at? rest).isSome := by
    intro name rest j h
    obtain ⟨s, hs⟩ := Option.isSome_iff_exists.mp h
    obtain ⟨v, hv, hrest⟩ := Option.bind_eq_some_iff.mp hs
    cases j with
    | object fields => exact ⟨fields, v, rfl, hv, Option.isSome_of_eq_some hrest⟩
    | _ => cases hv
  induction path generalizing j with
  | nil =>
    obtain ⟨fields, v, rfl, hv, -⟩ := hfield h
    rw [fillConcurrency_nil, setField_eq_self hv rfl]
  | cons name path ih =>
    obtain ⟨fields, v, rfl, hv, hrest⟩ := hfield h
    rw [fillConcurrency_cons, setField_eq_self hv (ih hrest)]

theorem fillAll_fillAll (hapart : KeepApart paths) (h : ∀ path ∈ paths, j.hasSections path)
    (threads' : Nat) :
    (j.fillAll threads paths).fillAll threads' paths = j.fillAll threads paths := by
  have hpresent : ∀ path ∈ paths,
      ((j.fillAll threads paths).at? (path ++ ["max_concurrency"])).isSome := by
    intro path hpath
    rw [(at?_fillAll hapart h).2 (hapart path hpath), if_pos ⟨path, hpath, rfl⟩]
    rfl
  generalize j.fillAll threads paths = filled at hpresent
  clear hapart h
  unfold fillAll
  induction paths with
  | nil => rfl
  | cons path paths ih =>
    obtain ⟨hpath, hpaths⟩ := List.forall_mem_cons.mp hpresent
    rw [List.foldl_cons, fillConcurrency_of_at? hpath]
    exact ih hpaths

end Retrofit.Json
