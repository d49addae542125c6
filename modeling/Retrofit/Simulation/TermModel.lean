import Retrofit.Simulation.Cache

/-!
# A simulator of terms

A building model in which every total is a sum of terms. A term contributes to one quantity when an
asset is there: a coefficient times a power of one of the asset's attributes. The model can be told
to fail or break off for some scenarios and on its first calls.
-/

namespace Retrofit

/-- A contribution to a quantity. Without an attribute it is the coefficient alone. -/
structure Term where
  asset : String
  attr : Option String
  quantity : Quantity
  coefficient : Amount
  power : Nat
  /-- The numbers that texts count as; others count as zero. -/
  texts : Dict Amount

namespace Term

/-- The number that an attribute's value counts as. No range has an undefined value, so one that
stands in a scenario came out of a calculation. -/
def measure (t : Term) : AttributeValue → Amount
  | .bool value => .number (if value then 1.0 else 0.0)
  | .int value => .number (Number.ofInt value)
  | .float value => .ofResult value
  | .text value => (t.texts.get? value).getD 0

/-- The contribution in a scenario that has the asset and the attribute. -/
def contribution (t : Term) (assets : Dict AssetConfig) : Option Amount := do
  let config ← assets.get? t.asset
  let v ← match t.attr with
    | none => some (.number 1.0)
    | some attr => (config.get? attr).map t.measure
  return Nat.repeat (· * v) (t.power - 1) (v * t.coefficient)

end Term

/-- Starting values of some quantities, and the terms added to them in order. -/
structure BuildingModel where
  base : List (Quantity × Amount)
  terms : List Term

namespace BuildingModel

def start (m : BuildingModel) : Totals Amount :=
  m.base.foldl (fun totals e => totals.set e.1 e.2) (Totals.fill 0)

def simulate (m : BuildingModel) (assets : Dict AssetConfig) : Totals Amount :=
  m.terms.foldl
    (fun totals t =>
      match t.contribution assets with
      | some x => totals.set t.quantity (x + totals.get t.quantity)
      | none => totals)
    m.start

end BuildingModel

/-- A value of an attribute that the model has no data for. -/
structure MissingValue where
  asset : String
  attr : String
  value : AttributeValue

namespace MissingValue

def occursIn (m : MissingValue) (assets : Dict AssetConfig) : Bool :=
  match assets.get? m.asset with
  | some config => config.get? m.attr = some m.value
  | none => false

end MissingValue

structure TermModel where
  building : BuildingModel
  /-- Models of single sites, used in place of the common one. -/
  sites : Dict BuildingModel
  /-- The number of calls that fail before the first answer. -/
  failFirst : Nat
  failBundles : List String
  crashBundles : List String
  missing : List MissingValue

namespace TermModel

/-- The outcome of a scenario after the failing calls. -/
def outcome (m : TermModel) (scenario : Scenario) : Except Fault (Totals Amount) :=
  if m.failBundles.contains scenario.bundleId then
    .error (.failed ("bundle " ++ scenario.bundleId ++ " cannot be read"))
  else if m.crashBundles.contains scenario.bundleId then
    .error (.crashed ("bundle " ++ scenario.bundleId ++ " is corrupt"))
  else
    match m.missing.find? (·.occursIn scenario.assets) with
    | some gap => .error (.failed ("no data for " ++ gap.asset ++ "." ++ gap.attr))
    | none => .ok (((m.sites.get? scenario.siteId).getD m.building).simulate scenario.assets)

/-- The simulator of the model, whose state is the number of its calls. -/
def simulator (m : TermModel) : Simulator Nat := fun scenario calls =>
  if calls + 1 ≤ m.failFirst then (.error (.failed "simulator crashed"), calls + 1)
  else (m.outcome scenario, calls + 1)

end TermModel

end Retrofit
