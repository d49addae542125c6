import Retrofit.Constraint
import Retrofit.Dict

/-!
# Sites and scenarios

A site is a building with the assets that may be put into it. The range of an asset says which
values each of its attributes may take; a scenario has settled on a value for every attribute of
every asset it contains. Scenarios are compared by their content, doubles by their bits.
-/

namespace Retrofit

/-- A value handed to the simulator. A whole number and a double are different values. -/
inductive AttributeValue where
  | bool (value : Bool)
  | int (value : Int)
  | float (value : Float)
  | text (value : String)
deriving DecidableEq

/-- The values an attribute may take. A stepped range starts at its least value. -/
inductive AttributeRange where
  | fixed (value : AttributeValue)
  | choices (values : List AttributeValue)
  | stepped (min max step : Int)
  | continuous (min max : Float)
deriving DecidableEq

/-- The ranges of an asset. An asset that is not mandatory may be left out of a scenario. -/
structure AssetRange where
  mandatory : Bool
  attributes : Dict AttributeRange
deriving DecidableEq

/-- The attributes of one asset. -/
abbrev AssetConfig := Dict AttributeValue

/-- What the simulator is asked to simulate. -/
structure Scenario where
  siteId : String
  /-- The data about the site that the simulator reads. -/
  bundleId : String
  assets : Dict AssetConfig
deriving DecidableEq

structure Site where
  siteId : String
  bundleId : String
  /-- The building as it is today. -/
  baseline : Dict AssetConfig
  range : Dict AssetRange
  constraints : Constraints
  /-- The most that may be spent at this site. -/
  capexLimit : Option Float
deriving DecidableEq

namespace Site

/-- The scenario that the site's savings are measured against. -/
def baselineScenario (site : Site) : Scenario :=
  ⟨site.siteId, site.bundleId, site.baseline⟩

/-- By how much a site's metrics break its own constraints and its limit of expenditure. -/
def violation (site : Site) (metrics : Metrics Amount) : Float :=
  let overspent := match site.capexLimit, metrics.get .capex with
    | some limit, some capex => Number.larger (capex.value - limit) 0.0
    | _, _ => 0.0
  site.constraints.violation metrics + overspent

end Site

end Retrofit
