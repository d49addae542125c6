/-!
# Simulation totals

What the simulation of a building over one year yields: energy in kWh, money in pounds, emissions in
kg CO2e, each for the year except for `capex`. Totals are added quantity by quantity. They are
generic in the numbers that they are made of.
-/

namespace Retrofit

/-- The quantities that a simulation reports. -/
inductive Quantity where
  | capex
  | annualisedCost
  | gasUsed
  | electricityImported
  | electricityGenerated
  | electricityExported
  | heatLoad
  | dhwLoad
  | heatShortfall
  | dhwShortfall
  | scope1Emissions
  | scope2Emissions
  | gasImportCost
  | electricityImportCost
  | electricityExportGain
deriving DecidableEq

namespace Quantity

def all : List Quantity :=
  [capex, annualisedCost, gasUsed, electricityImported, electricityGenerated, electricityExported,
    heatLoad, dhwLoad, heatShortfall, dhwShortfall, scope1Emissions, scope2Emissions,
    gasImportCost, electricityImportCost, electricityExportGain]

def name : Quantity → String
  | capex => "capex"
  | annualisedCost => "annualised_cost"
  | gasUsed => "total_gas_used"
  | electricityImported => "total_electricity_imported"
  | electricityGenerated => "total_electricity_generated"
  | electricityExported => "total_electricity_exported"
  | heatLoad => "total_heat_load"
  | dhwLoad => "total_dhw_load"
  | heatShortfall => "total_heat_shortfall"
  | dhwShortfall => "total_dhw_shortfall"
  | scope1Emissions => "scope_1_emissions"
  | scope2Emissions => "scope_2_emissions"
  | gasImportCost => "total_gas_import_cost"
  | electricityImportCost => "total_electricity_import_cost"
  | electricityExportGain => "total_electricity_export_gain"

def ofName? (name : String) : Option Quantity :=
  all.find? (·.name = name)

theorem mem_all (q : Quantity) : q ∈ all := by
  cases q <;> decide

theorem ofName?_name (q : Quantity) : ofName? q.name = some q := by
  cases q <;> decide

end Quantity

structure Totals (α : Type) where
  capex : α
  annualisedCost : α
  gasUsed : α
  electricityImported : α
  electricityGenerated : α
  electricityExported : α
  heatLoad : α
  dhwLoad : α
  heatShortfall : α
  dhwShortfall : α
  scope1Emissions : α
  scope2Emissions : α
  gasImportCost : α
  electricityImportCost : α
  electricityExportGain : α
deriving DecidableEq

namespace Totals

variable {α : Type}

def get (t : Totals α) : Quantity → α
  | .capex => t.capex
  | .annualisedCost => t.annualisedCost
  | .gasUsed => t.gasUsed
  | .electricityImported => t.electricityImported
  | .electricityGenerated => t.electricityGenerated
  | .electricityExported => t.electricityExported
  | .heatLoad => t.heatLoad
  | .dhwLoad => t.dhwLoad
  | .heatShortfall => t.heatShortfall
  | .dhwShortfall => t.dhwShortfall
  | .scope1Emissions => t.scope1Emissions
  | .scope2Emissions => t.scope2Emissions
  | .gasImportCost => t.gasImportCost
  | .electricityImportCost => t.electricityImportCost
  | .electricityExportGain => t.electricityExportGain

def ofFn (f : Quantity → α) : Totals α where
  capex := f .capex
  annualisedCost := f .annualisedCost
  gasUsed := f .gasUsed
  electricityImported := f .electricityImported
  electricityGenerated := f .electricityGenerated
  electricityExported := f .electricityExported
  heatLoad := f .heatLoad
  dhwLoad := f .dhwLoad
  heatShortfall := f .heatShortfall
  dhwShortfall := f .dhwShortfall
  scope1Emissions := f .scope1Emissions
  scope2Emissions := f .scope2Emissions
  gasImportCost := f .gasImportCost
  electricityImportCost := f .electricityImportCost
  electricityExportGain := f .electricityExportGain

@[simp] theorem get_ofFn (f : Quantity → α) (q : Quantity) : (ofFn f).get q = f q := by
  cases q <;> rfl

/-- The totals that are the same number throughout. -/
def fill (value : α) : Totals α := ofFn fun _ => value

/-- Puts a number in place of the old one. -/
def set (t : Totals α) (q : Quantity) (value : α) : Totals α :=
  ofFn fun q' => if q' = q then value else t.get q'

def add [Add α] (s t : Totals α) : Totals α :=
  ofFn fun q => s.get q + t.get q

/-- The sum of a list from left to right, from zero on. -/
def sum [Add α] [Zero α] (ts : List (Totals α)) : Totals α :=
  ts.foldl add (fill 0)

/-- What a year costs: energy bought less energy sold. -/
def operatingCost [Add α] [Sub α] (t : Totals α) : α :=
  t.gasImportCost + t.electricityImportCost - t.electricityExportGain

end Totals

end Retrofit
