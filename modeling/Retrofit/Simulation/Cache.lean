import Retrofit.Site

/-!
# Simulators and the evaluation cache

A simulator answers a scenario with its totals, fails, or breaks off; it may have a state of its
own. The cache keeps a slot for every scenario that was asked for. `Cache.evaluate` gives the result
in the slot without asking the simulator; a slot that is empty is filled with a new result, and
stays empty after a call that did not succeed. Every call is counted.
-/

namespace Retrofit

/-- How a simulator can end without a result. -/
inductive Fault where
  /-- It reports why it has no result. -/
  | failed (cause : String)
  /-- It breaks off. -/
  | crashed (cause : String)
deriving DecidableEq

abbrev Simulator (σ : Type) := Scenario → StateM σ (Except Fault (Totals Amount))

/-- Slots for results, the latest first, at most one for a scenario. -/
structure Slots where
  entries : List (Scenario × Option (Totals Amount))
  distinct : entries.Pairwise fun a b => a.1 ≠ b.1

namespace Slots

def empty : Slots := ⟨[], .nil⟩

/-- The result in the slot of a scenario. -/
def result? (slots : Slots) (scenario : Scenario) : Option (Totals Amount) :=
  (slots.entries.lookup scenario).join

/-- Adds an empty slot for a scenario that has none. -/
def withSlot (slots : Slots) (scenario : Scenario) : Slots :=
  if h : ∀ e ∈ slots.entries, scenario ≠ e.1 then
    ⟨(scenario, none) :: slots.entries, .cons h slots.distinct⟩
  else slots

/-- Puts a result into the slot of a scenario. -/
def fill (slots : Slots) (scenario : Scenario) (result : Totals Amount) : Slots where
  entries := slots.entries.map fun e => (e.1, if e.1 = scenario then some result else e.2)
  distinct := List.pairwise_map.mpr slots.distinct

variable {slots : Slots} {scenario scenario' : Scenario} {result : Totals Amount}

theorem lookup_eq_none_iff {l : List (Scenario × Option (Totals Amount))} :
    l.lookup scenario = none ↔ ∀ e ∈ l, scenario ≠ e.1 := by
  simp [List.lookup_eq_none_iff]

theorem result?_withSlot :
    (slots.withSlot scenario).result? scenario' = slots.result? scenario' := by
  unfold withSlot
  split
  · rename_i hnew
    unfold result?
    dsimp only
    rw [List.lookup_cons]
    split
    · rename_i heq
      rw [beq_iff_eq.mp heq, lookup_eq_none_iff.mpr hnew]
      rfl
    · rfl
  · rfl

theorem withSlot_of_result?_eq_some (h : slots.result? scenario = some result) :
    slots.withSlot scenario = slots := by
  unfold withSlot
  rw [dif_neg]
  intro hnew
  rw [result?, lookup_eq_none_iff.mpr hnew] at h
  cases h

theorem lookup_fill (l : List (Scenario × Option (Totals Amount))) :
    (l.map fun e => (e.1, if e.1 = scenario then some result else e.2)).lookup scenario' =
      (l.lookup scenario').map fun kept => if scenario' = scenario then some result else kept := by
  induction l with
  | nil => rfl
  | cons e rest ih =>
    rw [List.map_cons, List.lookup_cons, List.lookup_cons, ih]
    split
    · rename_i heq
      rw [beq_iff_eq.mp heq]
      rfl
    · rfl

theorem result?_fill_withSlot : ((slots.withSlot scenario).fill scenario result).result? scenario' =
    if scenario' = scenario then some result else slots.result? scenario' := by
  have hfill : ((slots.withSlot scenario).fill scenario result).result? scenario' =
      (((slots.withSlot scenario).entries.lookup scenario').map fun kept =>
        if scenario' = scenario then some result else kept).join :=
    congrArg Option.join (lookup_fill _)
  rw [hfill]
  split
  · rename_i heq
    rw [heq]
    cases hslot : (slots.withSlot scenario).entries.lookup scenario with
    | some kept => rfl
    | none =>
      -- A scenario never lacks a slot once it was asked for.
      have hnew := lookup_eq_none_iff.mp hslot
      unfold withSlot at hnew
      split at hnew
      · exact absurd rfl (hnew _ List.mem_cons_self)
      · rename_i hold
        exact absurd hnew hold
  · rw [Option.map_id']
    exact result?_withSlot

theorem lookup_eq_some_some_iff {l : List (Scenario × Option (Totals Amount))}
    (h : l.Pairwise fun a b => a.1 ≠ b.1) :
    l.lookup scenario = some (some result) ↔ (scenario, some result) ∈ l := by
  induction l with
  | nil => exact iff_of_false nofun nofun
  | cons e rest ih =>
    obtain ⟨hnew, hrest⟩ := List.pairwise_cons.mp h
    rw [List.lookup_cons, List.mem_cons]
    split
    · rename_i heq
      have hkey := beq_iff_eq.mp heq
      have hgone : (scenario, some result) ∉ rest := fun hmem => hnew _ hmem hkey.symm
      rw [or_iff_left hgone, Option.some.injEq]
      exact ⟨fun hkept => Prod.ext hkey hkept.symm, fun hkept => (congrArg Prod.snd hkept).symm⟩
    · rename_i hne
      have hother : (scenario, some result) ≠ e := fun heq =>
        beq_eq_false_iff_ne.mp hne (congrArg Prod.fst heq)
      rw [ih hrest, or_iff_right hother]

end Slots

structure Cache (σ : Type) where
  slots : Slots
  /-- The number of calls of the simulator. -/
  evaluations : Nat
  /-- The state of the simulator. -/
  world : σ

namespace Cache

variable {σ : Type}

/-- The cache that was asked for nothing. -/
def start (world : σ) : Cache σ := ⟨.empty, 0, world⟩

def find? (cache : Cache σ) (scenario : Scenario) : Option (Totals Amount) :=
  cache.slots.result? scenario

/-- The scenarios that have a result. -/
def known (cache : Cache σ) : List (Scenario × Totals Amount) :=
  cache.slots.entries.filterMap fun e => e.2.map (e.1, ·)

def size (cache : Cache σ) : Nat :=
  cache.known.length

/-- Forgets all slots, not the number of calls. -/
def clear (cache : Cache σ) : Cache σ :=
  { cache with slots := .empty }

theorem find?_eq_some_iff {cache : Cache σ} {scenario : Scenario} {result : Totals Amount} :
    cache.find? scenario = some result ↔ (scenario, result) ∈ cache.known := by
  have hslot : cache.find? scenario = some result ↔
      cache.slots.entries.lookup scenario = some (some result) := Option.join_eq_some_iff
  rw [hslot, Slots.lookup_eq_some_some_iff cache.slots.distinct]
  constructor
  · exact fun hmem => List.mem_filterMap.mpr ⟨_, hmem, rfl⟩
  · intro hmem
    obtain ⟨⟨scenario', kept⟩, he, hkept⟩ := List.mem_filterMap.mp hmem
    obtain ⟨result', rfl, heq⟩ := Option.map_eq_some_iff.mp hkept
    cases heq
    exact he

/-- The result of a scenario, and whether the simulator was called for it. -/
def evaluate (simulate : Simulator σ) (scenario : Scenario) :
    StateM (Cache σ) (Except Fault (Totals Amount × Bool)) := fun cache =>
  let slots := cache.slots.withSlot scenario
  match slots.result? scenario with
  | some result => (.ok (result, false), { cache with slots })
  | none =>
    let (answer, world) := simulate scenario cache.world
    let asked := { cache with slots, evaluations := cache.evaluations + 1, world }
    match answer with
    | .ok result => (.ok (result, true), { asked with slots := slots.fill scenario result })
    | .error fault => (.error fault, asked)

/-- The result of a scenario alone. -/
def result (simulate : Simulator σ) (scenario : Scenario) :
    StateM (Cache σ) (Except Fault (Totals Amount)) := do
  return (← evaluate simulate scenario).map Prod.fst

theorem evaluate_of_find?_eq_some {simulate : Simulator σ} {scenario : Scenario} {cache : Cache σ}
    {result : Totals Amount} (h : cache.find? scenario = some result) :
    evaluate simulate scenario cache = (.ok (result, false), cache) := by
  have hslot : cache.slots.result? scenario = some result := h
  simp [evaluate, hslot, Slots.withSlot_of_result?_eq_some hslot]

theorem evaluate_of_answer {simulate : Simulator σ} {scenario : Scenario} {cache : Cache σ}
    {result : Totals Amount} {world : σ} (h : cache.find? scenario = none)
    (answer : simulate scenario cache.world = (.ok result, world)) :
    evaluate simulate scenario cache =
      (.ok (result, true),
        ⟨(cache.slots.withSlot scenario).fill scenario result, cache.evaluations + 1, world⟩) := by
  have hslot : cache.slots.result? scenario = none := h
  simp [evaluate, Slots.result?_withSlot, hslot, answer]

theorem evaluate_of_fault {simulate : Simulator σ} {scenario : Scenario} {cache : Cache σ}
    {fault : Fault} {world : σ} (h : cache.find? scenario = none)
    (answer : simulate scenario cache.world = (.error fault, world)) :
    evaluate simulate scenario cache =
      (.error fault, ⟨cache.slots.withSlot scenario, cache.evaluations + 1, world⟩) := by
  have hslot : cache.slots.result? scenario = none := h
  simp [evaluate, Slots.result?_withSlot, hslot, answer]

end Cache

end Retrofit
