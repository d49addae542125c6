import Mathlib.Algebra.Group.Nat.Defs
import Retrofit.Optimiser.Registry
import Retrofit.Proofs.Json.Paths

/-!
# Filling in the number of threads only fills gaps

A reader of settings reads the number that was filled in, and the number of processors where
nothing was (`ReadsThreads`). This holds of the settings with a number of threads among their fields
(`readsThreads_of_record`) and passes from a section to the settings around it
(`ReadsThreads.of_section`), since a section that is left out is read as an empty one. The checks of
the settings look no further than whether the number is positive, so what is built of the filled
hyperparameters differs from what is built of the given ones in the open numbers alone
(`withDefaultConcurrency_fills_gaps`).
-/

namespace Retrofit

open Json

/-- Whether the number of threads in the section at the end of a path is left open. -/
def Json.isOpen (j : Json) (path : List String) : Bool :=
  (j.at? (path ++ ["max_concurrency"])).isNone

/-! ## Readers -/

/-- A reader of settings with a number of threads in the section at the end of a path: what is
filled in is read as that number, and where it is left open the number of processors is read. -/
structure ReadsThreads {α : Type} (processors : Nat) (read : Json → Option α) (path : List String)
    (put : Nat → α → α) : Prop where
  read_fill : ∀ {j : Json} {threads : Nat}, j.hasSections path → threads < 2 ^ 64 →
    j.isOpen path → read (j.fillConcurrency threads path) = (read j).map (put threads)
  read_open : ∀ {j : Json}, j.hasSections path → j.isOpen path →
    read j = (read j).map (put processors)

variable {processors : Nat}

section Leaves

variable {α : Type} {fields : List (String × Json)} {threads : Nat}

lemma toWord?_natCast (hword : threads < 2 ^ 64) :
    (Json.int threads).toWord? 64 = some threads := by
  have hrange : 0 ≤ (threads : Int) ∧ (threads : Int).toNat < 1 <<< 64 :=
    ⟨Int.natCast_nonneg threads, by rwa [Int.toNat_natCast, Nat.shiftLeft_eq, Nat.one_mul]⟩
  unfold toWord?
  dsimp only
  rw [if_pos hrange, Int.toNat_natCast]

lemma lookup_of_isOpen (h : (object fields).isOpen []) :
    fields.lookup "max_concurrency" = none := by
  change ((fields.lookup "max_concurrency").bind some).isNone = true at h
  cases hlookup : fields.lookup "max_concurrency" with
  | none => rfl
  | some v =>
    rw [hlookup] at h
    cases h

/-- Two records with the same fields but for the number of threads. -/
def SameBut (name : String) (r r' : Record) : Prop :=
  ∀ name', name' ≠ name → r'.find? name' = r.find? name'

lemma SameBut.withDefault_eq {name name' : String} {r r' : Record} (h : SameBut name r r')
    (hne : name' ≠ name) (default : α) (read : Json → Option α) :
    r'.withDefault name' default read = r.withDefault name' default read := by
  unfold Record.withDefault
  rw [h name' hne]

/-- A structured value with a number of threads among its fields. -/
lemma readsThreads_of_record {read : Json → Option α} {names : List String}
    {body : Record → Option α} {put : Nat → α → α} (hname : "max_concurrency" ∈ names)
    (hread : ∀ j, read j = (toRecord? names true j).bind body)
    (hbody : ∀ {r r' : Record} {before after : Nat}, SameBut "max_concurrency" r r' →
      r.withDefault "max_concurrency" processors (·.toWord? 64) = some before →
      r'.withDefault "max_concurrency" processors (·.toWord? 64) = some after →
      body r' = (body r).map (put after)) :
    ReadsThreads processors read [] put := by
  have hdefault : ∀ {fields : List (String × Json)}, (object fields).isOpen [] →
      Record.withDefault ⟨true, fields⟩ "max_concurrency" processors (·.toWord? 64) =
        some processors := by
    intro fields hopen
    unfold Record.withDefault Record.find?
    dsimp only
    rw [lookup_of_isOpen hopen]
  constructor
  · intro j threads h hword hopen
    obtain ⟨fields, rfl⟩ := exists_fields_of_hasSections h
    rw [fillConcurrency_nil, hread, hread, toRecord?_closed, toRecord?_closed,
      if_congr (closed_setField hname) rfl rfl]
    split_ifs
    · refine hbody (fun name' hne => ?_) (hdefault hopen) ?_
      · unfold Record.find?
        rw [lookup_setField, if_neg hne]
      · unfold Record.withDefault Record.find?
        dsimp only
        rw [lookup_setField, if_pos rfl, lookup_of_isOpen hopen, Option.getD_none]
        exact toWord?_natCast hword
    · rfl
  · intro j h hopen
    obtain ⟨fields, rfl⟩ := exists_fields_of_hasSections h
    rw [hread, toRecord?_closed]
    split_ifs
    · exact hbody (fun _ _ => rfl) (hdefault hopen) (hdefault hopen)
    · rfl

end Leaves

lemma Nsga2.Settings.readsThreads : ReadsThreads processors (ofJson? processors) []
    fun threads s => { s with maxConcurrency := threads } := by
  refine readsThreads_of_record (by decide) (fun _ => rfl) fun hsame hbefore hafter => ?_
  dsimp only [Option.bind_eq_bind, default]
  rw [hbefore, hafter]
  simp only [hsame.withDefault_eq, ne_eq, String.reduceEq, not_false_eq_true, Option.bind_some,
    Option.map_bind, Function.comp_def, Option.pure_def, Option.map_some]

lemma Genetic.Settings.readsThreads : ReadsThreads processors (ofJson? processors) []
    fun threads s => { s with maxConcurrency := threads } := by
  refine readsThreads_of_record (by decide) (fun _ => rfl) fun hsame hbefore hafter => ?_
  dsimp only [Option.bind_eq_bind, default]
  rw [hbefore, hafter]
  simp only [hsame.withDefault_eq, ne_eq, String.reduceEq, not_false_eq_true, Option.bind_some,
    Option.map_bind, Function.comp_def, Option.pure_def, Option.map_some]

lemma Grid.Settings.readsThreads : ReadsThreads processors (ofJson? processors) []
    fun threads s => { s with maxConcurrency := threads } := by
  refine readsThreads_of_record (by decide) (fun _ => rfl) fun hsame hbefore hafter => ?_
  dsimp only [Option.bind_eq_bind, default]
  rw [hbefore, hafter]
  simp only [hsame.withDefault_eq, ne_eq, String.reduceEq, not_false_eq_true, Option.bind_some,
    Option.map_bind, Function.comp_def, Option.pure_def, Option.map_some]

section Sections

variable {α β : Type} {name : String} {path : List String} {fields : List (String × Json)}
  {inner : Json → Option α} {d : α}

lemma isOpen_cons : (object fields).isOpen (name :: path) =
    ((fields.lookup name).getD (.object [])).isOpen path := by
  unfold isOpen
  rw [at?_getD (List.append_ne_nil_of_right_ne_nil _ (List.cons_ne_nil _ _)), List.cons_append]

/-- A section that is left out is read as an empty one. -/
lemma withDefault_section (hdefault : inner (.object []) = some d) :
    Record.withDefault ⟨true, fields⟩ name d inner =
      inner ((fields.lookup name).getD (.object [])) := by
  unfold Record.withDefault Record.find?
  dsimp only
  cases fields.lookup name with
  | none => exact hdefault.symm
  | some v => rfl

/-- A structured value with a section among its fields. -/
lemma ReadsThreads.of_section {outer : Json → Option β} {names : List String}
    {rest : Record → α → Option β} {put : Nat → α → α} {putOuter : Nat → β → β}
    (h : ReadsThreads processors inner path put) (hdefault : inner (.object []) = some d)
    (hname : name ∈ names)
    (houter : ∀ j, outer j =
      (toRecord? names true j).bind fun r => (r.withDefault name d inner).bind (rest r))
    (hrest : ∀ {r r' : Record}, SameBut name r r' → rest r' = rest r)
    (hput : ∀ r threads a, rest r (put threads a) = (rest r a).map (putOuter threads)) :
    ReadsThreads processors outer (name :: path) putOuter := by
  constructor
  · intro j threads hsections hword hopen
    obtain ⟨fields, rfl⟩ := exists_fields_of_hasSections hsections
    rw [isOpen_cons] at hopen
    have hsame : SameBut name ⟨true, fields⟩
        ⟨true, setField name (.object []) (fillConcurrency threads path) fields⟩ := by
      intro name' hne
      unfold Record.find?
      rw [lookup_setField, if_neg hne]
    rw [fillConcurrency_cons, houter, houter, toRecord?_closed, toRecord?_closed,
      if_congr (closed_setField hname) rfl rfl]
    split_ifs
    · rw [Option.bind_some, Option.bind_some, withDefault_section hdefault,
        withDefault_section hdefault, hrest hsame, lookup_setField, if_pos rfl, Option.getD_some,
        h.read_fill (hasSections_getD hsections) hword hopen, Option.bind_map, Option.map_bind]
      exact congrArg _ (funext fun a => hput _ threads a)
    · rfl
  · intro j hsections hopen
    obtain ⟨fields, rfl⟩ := exists_fields_of_hasSections hsections
    rw [isOpen_cons] at hopen
    rw [houter, toRecord?_closed]
    split_ifs
    · rw [Option.bind_some, withDefault_section hdefault, Option.map_bind]
      conv_lhs => rw [h.read_open (hasSections_getD hsections) hopen, Option.bind_map]
      exact congrArg _ (funext fun a => hput _ processors a)
    · rfl

end Sections

lemma Separated.Settings.readsThreads : ReadsThreads processors (ofJson? processors) ["site"]
    fun threads s => { s with site := { s.site with maxConcurrency := threads } } := by
  refine Nsga2.Settings.readsThreads.of_section rfl (by decide) (fun _ => rfl)
    (fun hsame => funext fun site => ?_) (fun r threads site => ?_)
  · rw [hsame.withDefault_eq (by decide)]
  · exact Eq.symm Option.map_bind

lemma Nested.Settings.readsThreads_separated :
    ReadsThreads processors (ofJson? processors) ["separated", "site"] fun threads s =>
      { s with separated.site := { s.separated.site with maxConcurrency := threads } } := by
  refine Separated.Settings.readsThreads.of_section rfl (by decide) (fun _ => rfl)
    (fun hsame => funext fun separated => ?_) (fun r threads separated => ?_)
  · rw [hsame.withDefault_eq (by decide)]
  · exact Eq.symm Option.map_bind

lemma Nested.Settings.readsThreads_portfolio :
    ReadsThreads processors (ofJson? processors) ["portfolio"] fun threads s =>
      { s with portfolio := { s.portfolio with maxConcurrency := threads } } := by
  -- The portfolio is read after the separated search, but the order does not matter.
  have hread : ∀ j, ofJson? processors j = (toRecord? ["separated", "portfolio"] true j).bind
      fun r => (r.withDefault "portfolio" (.default processors)
        (Nsga2.Settings.ofJson? processors)).bind fun portfolio =>
          (r.withDefault "separated" (.default processors)
            (Separated.Settings.ofJson? processors)).bind fun separated =>
              some { separated, portfolio } :=
    fun j => congrArg (Option.bind _) (funext fun r => Option.bind_comm _ _)
  refine Nsga2.Settings.readsThreads.of_section rfl (by decide) hread
    (fun hsame => funext fun portfolio => ?_) (fun r threads portfolio => ?_)
  · rw [hsame.withDefault_eq (by decide)]
  · exact Eq.symm Option.map_bind

/-! ## Building -/

/-- Changes the number of threads in the section at the end of a path. -/
def Optimiser.setThreads (threads : Nat) : List String → Optimiser → Optimiser
  | [], nsga2 s => nsga2 { s with maxConcurrency := threads }
  | [], genetic s => genetic { s with maxConcurrency := threads }
  | [], gridSearch s => gridSearch { s with maxConcurrency := threads }
  | ["site"], separated s => separated { s with site.maxConcurrency := threads }
  | ["separated", "site"], nested s => nested { s with separated.site.maxConcurrency := threads }
  | ["portfolio"], nested s => nested { s with portfolio.maxConcurrency := threads }
  | _, o => o

section Construct

variable {α : Type} {id : OptimiserId} {read : Json → Option α}
  {check : α → Except ParameterError Unit} {make : α → Optimiser}

lemma construct_orEmpty (h : Json) :
    construct id read check make h.orEmpty = construct id read check make h := by
  cases h <;> rfl

lemma construct_of_read_eq_none {h : Json} (hread : read h.orEmpty = none) :
    construct id read check make h = .error (.malformedHyperparameters id) := by
  unfold construct readSettings
  rw [hread]
  rfl

lemma construct_of_read_eq_some {h : Json} {s : α} (hread : read h.orEmpty = some s) :
    construct id read check make h = match check s with
      | .ok () => .ok (make s)
      | .error reason => .error (.invalidHyperparameter id reason) := by
  unfold construct readSettings
  rw [hread]
  rfl

lemma orEmpty_eq_self {j : Json} {path : List String} (h : j.hasSections path) :
    j.orEmpty = j := by
  obtain ⟨fields, rfl⟩ := exists_fields_of_hasSections h
  rfl

section Filling

variable {path : List String} {put : Nat → α → α} {j : Json} {threads : Nat}
  (hreads : ReadsThreads processors read path put)
  (hcheck : ∀ {m n : Nat} (s : α), 0 < m → 0 < n → check (put m s) = check (put n s))
  (hmake : ∀ n s, make (put n s) = (make s).setThreads n path)
  (hprocessors : 0 < processors) (hthreads : 0 < threads) (hword : threads < 2 ^ 64)
  (hsections : j.hasSections path)

include hreads hcheck hmake hprocessors hthreads hword hsections

/-- Where the number of threads is left open, the filled one is read, and the check passes or fails
as before. -/
lemma construct_fill_of_isOpen (hopen : j.isOpen path) :
    construct id read check make (j.fillConcurrency threads path) =
      (construct id read check make j).map fun o => o.setThreads threads path := by
  have hread := hreads.read_fill hsections hword hopen
  rw [← orEmpty_eq_self (hasSections_fillConcurrency_self hsections)] at hread
  cases hj : read j with
  | none =>
    rw [hj] at hread
    rw [construct_of_read_eq_none hread,
      construct_of_read_eq_none ((congrArg read (orEmpty_eq_self hsections)).trans hj)]
    rfl
  | some s =>
    rw [hj] at hread
    have hself : put processors s = s := by
      have h := hreads.read_open hsections hopen
      rw [hj] at h
      exact (Option.some.inj h).symm
    have hsame : check (put threads s) = check s :=
      (hcheck s hthreads hprocessors).trans (congrArg check hself)
    rw [construct_of_read_eq_some hread, hsame,
      construct_of_read_eq_some ((congrArg read (orEmpty_eq_self hsections)).trans hj)]
    cases check s with
    | ok u => exact congrArg Except.ok (hmake threads s)
    | error reason => rfl

/-- Filling in the number of threads changes that number where it is left open, and nothing else:
neither of the checks of settings looks further than whether it is positive. -/
lemma construct_fill :
    construct id read check make (j.fillConcurrency threads path) =
      (construct id read check make j).map fun o =>
        if j.isOpen path then o.setThreads threads path else o := by
  by_cases hopen : j.isOpen path
  · simp only [if_pos hopen]
    exact construct_fill_of_isOpen hreads hcheck hmake hprocessors hthreads hword hsections hopen
  · have hpresent : (j.at? (path ++ ["max_concurrency"])).isSome := by
      rwa [isOpen, Option.isNone_iff_eq_none, ← ne_eq, ← Option.isSome_iff_ne_none] at hopen
    rw [fillConcurrency_of_at? hpresent]
    simp only [if_neg hopen]
    cases construct id read check make j <;> rfl

end Filling

end Construct

/-! ## The built-in optimisers -/

section Checks

variable {m n : Nat} (hm : 0 < m) (hn : 0 < n)

include hm hn

lemma Nsga2.Settings.check_threads (s : Settings) :
    check { s with maxConcurrency := m } = check { s with maxConcurrency := n } := by
  unfold check
  simp only [Nat.ne_of_gt hm, Nat.ne_of_gt hn, if_false]

lemma Genetic.Settings.check_threads (s : Settings) :
    check { s with maxConcurrency := m } = check { s with maxConcurrency := n } := by
  unfold check eliteCount
  simp only [Nat.ne_of_gt hm, Nat.ne_of_gt hn, or_false]

lemma Grid.Settings.check_threads (s : Settings) :
    check { s with maxConcurrency := m } = check { s with maxConcurrency := n } := by
  unfold check
  simp only [Nat.ne_of_gt hm, Nat.ne_of_gt hn, if_false]

lemma Separated.Settings.check_threads (s : Settings) :
    check { s with site.maxConcurrency := m } = check { s with site.maxConcurrency := n } := by
  unfold check
  exact if_congr Iff.rfl rfl (Nsga2.Settings.check_threads hm hn s.site)

lemma Nested.Settings.check_separated_threads (s : Settings) :
    check { s with separated.site.maxConcurrency := m } =
      check { s with separated.site.maxConcurrency := n } :=
  congrArg (· >>= fun _ => s.portfolio.check)
    (Separated.Settings.check_threads hm hn s.separated)

lemma Nested.Settings.check_portfolio_threads (s : Settings) :
    check { s with portfolio.maxConcurrency := m } =
      check { s with portfolio.maxConcurrency := n } :=
  congrArg (fun e => s.separated.check >>= fun _ => e)
    (Nsga2.Settings.check_threads hm hn s.portfolio)

end Checks

lemma OptimiserId.keepApart_concurrencyPaths (id : OptimiserId) :
    KeepApart id.concurrencyPaths := by
  cases id <;> decide

lemma OptimiserId.withDefaultConcurrency_eq (id : OptimiserId) (h : Json) (threads : Nat) :
    id.withDefaultConcurrency h threads = h.orEmpty.fillAll threads id.concurrencyPaths := rfl

lemma Json.at?_orEmpty {h : Json} {p : List String} (hp : p ≠ []) : h.orEmpty.at? p = h.at? p := by
  obtain ⟨name, rest, rfl⟩ := List.exists_cons_of_ne_nil hp
  cases h <;> rfl

lemma Json.isOpen_orEmpty (h : Json) (path : List String) :
    h.orEmpty.isOpen path = h.isOpen path := by
  unfold isOpen
  rw [at?_orEmpty (List.append_ne_nil_of_right_ne_nil _ (List.cons_ne_nil _ _))]

/-- Changes the number of threads in the sections at the ends of those paths where the
hyperparameters leave it open. -/
def Optimiser.setOpenThreads (threads : Nat) (h : Json) (paths : List (List String))
    (o : Optimiser) : Optimiser :=
  (paths.filter h.isOpen).foldl (fun o path => o.setThreads threads path) o

lemma Optimiser.setOpenThreads_cons {threads : Nat} {h : Json} {path : List String}
    {paths : List (List String)} {o : Optimiser} :
    o.setOpenThreads threads h (path :: paths) =
      (if h.isOpen path then o.setThreads threads path else o).setOpenThreads threads h paths := by
  unfold setOpenThreads
  rw [List.filter_cons]
  split_ifs <;> rfl

section Builtin

variable {threads : Nat} (hprocessors : 0 < processors) (hthreads : 0 < threads)
  (hword : threads < 2 ^ 64)

include hprocessors hthreads hword

lemma construct_filled_one {α : Type} {id : OptimiserId} {read : Json → Option α}
    {check : α → Except ParameterError Unit} {make : α → Optimiser} {path : List String}
    {put : Nat → α → α} (hreads : ReadsThreads processors read path put)
    (hcheck : ∀ {m n : Nat} (s : α), 0 < m → 0 < n → check (put m s) = check (put n s))
    (hmake : ∀ n s, make (put n s) = (make s).setThreads n path) {h : Json}
    (hsection : h.orEmpty.hasSections path) :
    construct id read check make (h.orEmpty.fillConcurrency threads path) =
      (construct id read check make h).map (Optimiser.setOpenThreads threads h [path]) := by
  rw [construct_fill hreads hcheck hmake hprocessors hthreads hword hsection, construct_orEmpty,
    isOpen_orEmpty]
  refine congrArg (Except.map · _) (funext fun o => ?_)
  rw [Optimiser.setOpenThreads_cons]
  rfl

lemma construct_filled_nested {h : Json}
    (hsections : ∀ path ∈ OptimiserId.nestedNsga2.concurrencyPaths, h.orEmpty.hasSections path) :
    construct .nestedNsga2 (Nested.Settings.ofJson? processors) (·.check) .nested
        (OptimiserId.nestedNsga2.withDefaultConcurrency h threads) =
      (construct .nestedNsga2 (Nested.Settings.ofJson? processors) (·.check) .nested h).map
        (Optimiser.setOpenThreads threads h OptimiserId.nestedNsga2.concurrencyPaths) := by
  have hseparated := hsections ["separated", "site"] List.mem_cons_self
  have hportfolio := hsections ["portfolio"] (List.mem_cons_of_mem _ List.mem_cons_self)
  have hfilled : (h.orEmpty.fillConcurrency threads ["separated", "site"]).hasSections
      ["portfolio"] := hasSections_fillConcurrency hseparated hportfolio (by decide)
  have hopen : (h.orEmpty.fillConcurrency threads ["separated", "site"]).isOpen ["portfolio"] =
      h.isOpen ["portfolio"] := by
    have hprefix : ¬ ["portfolio", "max_concurrency"] <+: ["separated", "site"] := by decide
    rw [← isOpen_orEmpty h]
    exact congrArg Option.isNone (((at?_fillConcurrency hseparated).2 hprefix).trans
      (if_neg (by decide)))
  refine (construct_fill Nested.Settings.readsThreads_portfolio
    (fun s hm hn => Nested.Settings.check_portfolio_threads hm hn s) (fun _ _ => rfl)
    hprocessors hthreads hword hfilled).trans ?_
  rw [construct_fill Nested.Settings.readsThreads_separated
    (fun s hm hn => Nested.Settings.check_separated_threads hm hn s) (fun _ _ => rfl)
    hprocessors hthreads hword hseparated, construct_orEmpty, isOpen_orEmpty, hopen]
  cases construct .nestedNsga2 (Nested.Settings.ofJson? processors) (·.check) .nested h with
  | error reason => rfl
  | ok o =>
    refine congrArg Except.ok ?_
    unfold OptimiserId.concurrencyPaths
    rw [Optimiser.setOpenThreads_cons, Optimiser.setOpenThreads_cons]
    rfl

/-- What is built of the filled hyperparameters is what is built of the given ones, with the number
of threads where they leave it open. -/
lemma build_filled (id : OptimiserId) {h : Json}
    (hsections : ∀ path ∈ id.concurrencyPaths, h.orEmpty.hasSections path) :
    (Registry.builtin processors).build id (id.withDefaultConcurrency h threads) =
      ((Registry.builtin processors).build id h).map
        (Optimiser.setOpenThreads threads h id.concurrencyPaths) := by
  cases id with
  | nsga2 =>
    exact construct_filled_one hprocessors hthreads hword Nsga2.Settings.readsThreads
      (fun s hm hn => Nsga2.Settings.check_threads hm hn s) (fun _ _ => rfl)
      (hsections [] List.mem_cons_self)
  | separatedNsga2 =>
    exact construct_filled_one hprocessors hthreads hword Separated.Settings.readsThreads
      (fun s hm hn => Separated.Settings.check_threads hm hn s) (fun _ _ => rfl)
      (hsections ["site"] List.mem_cons_self)
  | nestedNsga2 => exact construct_filled_nested hprocessors hthreads hword hsections
  | genetic =>
    exact construct_filled_one hprocessors hthreads hword Genetic.Settings.readsThreads
      (fun s hm hn => Genetic.Settings.check_threads hm hn s) (fun _ _ => rfl)
      (hsections [] List.mem_cons_self)
  | gridSearch =>
    exact construct_filled_one hprocessors hthreads hword Grid.Settings.readsThreads
      (fun s hm hn => Grid.Settings.check_threads hm hn s) (fun _ _ => rfl)
      (hsections [] List.mem_cons_self)
  | bayesian => rfl

/-- For a built-in optimiser and hyperparameters that are null or an object in which the sections
on the way to a number of threads are objects, filling in a number of threads changes what is built
only where the number was left open, and makes neither more nor less fail. In the tree, the sections
are objects, and elsewhere everything stands as it was given, but for the numbers of threads that
were missing. Filling in again changes nothing. -/
theorem withDefaultConcurrency_fills_gaps {id : OptimiserId}
    (hbuiltin : (Registry.builtin processors).isRegistered id) {h : Json}
    (hsections : ∀ path ∈ id.concurrencyPaths, h.orEmpty.hasSections path) :
    (Registry.builtin processors).build id (id.withDefaultConcurrency h threads) =
      ((Registry.builtin processors).build id h).map
        (Optimiser.setOpenThreads threads h id.concurrencyPaths) ∧
    (∀ p, (∃ path ∈ id.concurrencyPaths, p <+: path) →
      ∃ fields, (id.withDefaultConcurrency h threads).at? p = some (.object fields)) ∧
    (∀ p, (∀ path ∈ id.concurrencyPaths, ¬ p <+: path) →
      (id.withDefaultConcurrency h threads).at? p =
        if ∃ path ∈ id.concurrencyPaths, p = path ++ ["max_concurrency"] then
          some ((h.at? p).getD (.int threads))
        else h.at? p) ∧
    ∀ again, id.withDefaultConcurrency (id.withDefaultConcurrency h threads) again =
      id.withDefaultConcurrency h threads := by
  obtain ⟨path, hpath⟩ : ∃ path, path ∈ id.concurrencyPaths := by
    cases id with
    | bayesian => cases hbuiltin
    | _ => exact ⟨_, List.mem_cons_self⟩
  have hfilled := fun p =>
    @at?_fillAll h.orEmpty p threads _ id.keepApart_concurrencyPaths hsections
  refine ⟨build_filled hprocessors hthreads hword id hsections, fun p => (hfilled p).1,
    fun p hp => ?_, fun again => ?_⟩
  · have hne : p ≠ [] := by
      rintro rfl
      exact hp path hpath List.nil_prefix
    rw [OptimiserId.withDefaultConcurrency_eq, (hfilled p).2 hp, at?_orEmpty hne]
  · have hobject : (id.withDefaultConcurrency h threads).orEmpty =
        id.withDefaultConcurrency h threads := by
      obtain ⟨fields, hfields⟩ := (hfilled []).1 ⟨path, hpath, List.nil_prefix⟩
      rw [OptimiserId.withDefaultConcurrency_eq, Option.some.inj hfields]
      rfl
    rw [OptimiserId.withDefaultConcurrency_eq, hobject]
    exact fillAll_fillAll id.keepApart_concurrencyPaths hsections again

end Builtin

/-- The portfolio search has its own number of threads, and the separated one is left open. -/
theorem withDefaultConcurrency_fills_separated :
    let h : Json := .object [("portfolio", .object [("max_concurrency", .int 3)]),
      ("separated", .object [("max_front_size", .int 5)])]
    (Registry.builtin 4).isRegistered .nestedNsga2 ∧
    (∀ path ∈ OptimiserId.nestedNsga2.concurrencyPaths, h.orEmpty.hasSections path) ∧
    (Registry.builtin 4).build .nestedNsga2 (OptimiserId.nestedNsga2.withDefaultConcurrency h 2) =
      ((Registry.builtin 4).build .nestedNsga2 h).map
        (Optimiser.setThreads 2 ["separated", "site"]) ∧
    (OptimiserId.nestedNsga2.withDefaultConcurrency h 2).at? ["portfolio", "max_concurrency"] =
      some (.int 3) := by
  intro h
  have hsections : ∀ path ∈ OptimiserId.nestedNsga2.concurrencyPaths,
      h.orEmpty.hasSections path := by decide
  obtain ⟨hbuild, -, hlookup, -⟩ := withDefaultConcurrency_fills_gaps (by decide : 0 < 4)
    (by decide : 0 < 2) (by decide) (by decide) hsections
  exact ⟨by decide, hsections, hbuild, hlookup _ (by decide)⟩

end Retrofit
