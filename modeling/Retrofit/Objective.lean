/-!
# Objectives

A portfolio is judged on seven metrics. The balances are savings against the buildings as they are
today, so more is better; everything else is a cost. `Objective.cost` turns a metric into a cost,
and `PerObjective` is a table with one entry for every objective.
-/

namespace Retrofit

inductive Direction where
  | maximize
  | minimize
deriving DecidableEq

namespace Direction

def all : List Direction := [maximize, minimize]

def name : Direction → String
  | maximize => "Maximize"
  | minimize => "Minimize"

def ofName? (name : String) : Option Direction :=
  all.find? (·.name = name)

end Direction

inductive Objective where
  | carbonBalanceScope1
  | carbonBalanceScope2
  | costBalance
  | capex
  | paybackHorizon
  | annualisedCost
  | carbonCost
deriving DecidableEq

namespace Objective

/-- All objectives in their fixed order. -/
def all : List Objective :=
  [carbonBalanceScope1, carbonBalanceScope2, costBalance, capex, paybackHorizon, annualisedCost,
    carbonCost]

def name : Objective → String
  | carbonBalanceScope1 => "carbon_balance_scope_1"
  | carbonBalanceScope2 => "carbon_balance_scope_2"
  | costBalance => "cost_balance"
  | capex => "capex"
  | paybackHorizon => "payback_horizon"
  | annualisedCost => "annualised_cost"
  | carbonCost => "carbon_cost"

def ofName? (name : String) : Option Objective :=
  all.find? (·.name = name)

def position (o : Objective) : Nat :=
  all.idxOf o

def direction : Objective → Direction
  | carbonBalanceScope1 | carbonBalanceScope2 | costBalance => .maximize
  | capex | paybackHorizon | annualisedCost | carbonCost => .minimize

/-- A metric as a cost, of which less is better. -/
def cost {α : Type} [Neg α] (o : Objective) (value : α) : α :=
  match o.direction with
  | .maximize => -value
  | .minimize => value

theorem mem_all (o : Objective) : o ∈ all := by
  cases o <;> decide

theorem ofName?_name (o : Objective) : ofName? o.name = some o := by
  cases o <;> decide

end Objective

/-- One entry for every objective. -/
structure PerObjective (α : Type) where
  carbonBalanceScope1 : α
  carbonBalanceScope2 : α
  costBalance : α
  capex : α
  paybackHorizon : α
  annualisedCost : α
  carbonCost : α
deriving DecidableEq

namespace PerObjective

variable {α β : Type}

def get (t : PerObjective α) : Objective → α
  | .carbonBalanceScope1 => t.carbonBalanceScope1
  | .carbonBalanceScope2 => t.carbonBalanceScope2
  | .costBalance => t.costBalance
  | .capex => t.capex
  | .paybackHorizon => t.paybackHorizon
  | .annualisedCost => t.annualisedCost
  | .carbonCost => t.carbonCost

def ofFn (f : Objective → α) : PerObjective α where
  carbonBalanceScope1 := f .carbonBalanceScope1
  carbonBalanceScope2 := f .carbonBalanceScope2
  costBalance := f .costBalance
  capex := f .capex
  paybackHorizon := f .paybackHorizon
  annualisedCost := f .annualisedCost
  carbonCost := f .carbonCost

@[simp] theorem get_ofFn (f : Objective → α) (o : Objective) : (ofFn f).get o = f o := by
  cases o <;> rfl

theorem ext_get {s t : PerObjective α} (h : ∀ o, s.get o = t.get o) : s = t := by
  cases s
  cases t
  congr 1
  · exact h .carbonBalanceScope1
  · exact h .carbonBalanceScope2
  · exact h .costBalance
  · exact h .capex
  · exact h .paybackHorizon
  · exact h .annualisedCost
  · exact h .carbonCost

def none : PerObjective (Option α) := ofFn fun _ => .none

def set (t : PerObjective α) (o : Objective) (value : α) : PerObjective α :=
  ofFn fun o' => if o' = o then value else t.get o'

@[simp] theorem get_set (t : PerObjective α) (o : Objective) (value : α) (o' : Objective) :
    (t.set o value).get o' = if o' = o then value else t.get o' := by
  simp [set]

/-- The present entries in the order of the objectives. -/
def toList (t : PerObjective (Option α)) : List (Objective × α) :=
  Objective.all.filterMap fun o => (t.get o).map (o, ·)

theorem mem_toList {t : PerObjective (Option α)} {o : Objective} {value : α} :
    (o, value) ∈ t.toList ↔ t.get o = some value := by
  unfold toList
  simp only [List.mem_filterMap, Option.map_eq_some_iff, Prod.mk.injEq]
  constructor
  · rintro ⟨o, -, value, hvalue, rfl, rfl⟩
    exact hvalue
  · intro h
    exact ⟨o, Objective.mem_all o, value, h, rfl, rfl⟩

end PerObjective

end Retrofit
