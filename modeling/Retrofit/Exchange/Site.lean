import Retrofit.Json.Reading
import Retrofit.Site

/-!
# Exchange form of sites

How sites, their ranges and scenarios stand in JSON. An attribute's value has no tag: its form says
which kind it is, and a whole number beyond 64 bits is a double. A range names its kind.
-/

namespace Retrofit

open Json

/-- A table over the objectives as an object with a field for each entry. -/
def PerObjective.toJson {α : Type} (write : α → Json) (t : PerObjective (Option α)) : Json :=
  .object (t.toList.map fun e => (e.1.name, write e.2))

/-- Enters fields one after the other; each is named for an objective. -/
def PerObjective.ofFields? {α : Type} (read : Json → Option α) :
    List (String × Json) → PerObjective (Option α) → Option (PerObjective (Option α))
  | [], t => some t
  | (name, j) :: rest, t => do
    let o ← Objective.ofName? name
    let value ← read j
    ofFields? read rest (t.set o (some value))

def PerObjective.ofJson? {α : Type} (read : Json → Option α) :
    Json → Option (PerObjective (Option α))
  | .object fields => ofFields? read fields PerObjective.none
  | _ => Option.none

def Objective.toJson (o : Objective) : Json := .text o.name

def Objective.ofJson? (j : Json) : Option Objective :=
  j.toName?.bind ofName?

def Direction.toJson (d : Direction) : Json := .text d.name

def Direction.ofJson? (j : Json) : Option Direction :=
  j.toName?.bind ofName?

def Amount.toJson (a : Amount) : Json := .ofFloat a.value

def Amount.ofJson? (j : Json) : Option Amount :=
  j.toFloat?.map ofFloat

def Metrics.toJson (m : Metrics Amount) : Json :=
  PerObjective.toJson Amount.toJson m

def Metrics.ofJson? (j : Json) : Option (Metrics Amount) :=
  PerObjective.ofJson? Amount.ofJson? j

namespace Bounds

def toJson (b : Bounds) : Json :=
  .object [("min", .ofOption .ofFloat b.min), ("max", .ofOption .ofFloat b.max)]

def ofJson? (j : Json) : Option Bounds := do
  let r ← j.toRecord? ["min", "max"] false
  let min ← r.withDefault "min" none (toOption? toFloat?)
  let max ← r.withDefault "max" none (toOption? toFloat?)
  return ⟨min, max⟩

end Bounds

def Constraints.toJson (c : Constraints) : Json :=
  PerObjective.toJson Bounds.toJson c

def Constraints.ofJson? (j : Json) : Option Constraints :=
  PerObjective.ofJson? Bounds.ofJson? j

namespace AttributeValue

def toJson : AttributeValue → Json
  | bool value => .bool value
  | int value => .int value
  | float value => .ofFloat value
  | text value => .text value

def ofJson? (j : Json) : Option AttributeValue :=
  match j with
  | .bool value => some (bool value)
  | .int n =>
    match j.toInt64? with
    | some value => some (int value)
    | none => some (float (Number.ofInt n))
  | .float x => some (float x)
  | .text value => some (text value)
  | _ => none

end AttributeValue

namespace AttributeRange

def toJson : AttributeRange → Json
  | fixed value => .object [("kind", .text "fixed"), ("value", value.toJson)]
  | choices values =>
    .object [("kind", .text "choices"), ("values", .ofList AttributeValue.toJson values)]
  | stepped min max step =>
    .object [("kind", .text "integer"), ("min", .int min), ("max", .int max), ("step", .int step)]
  | continuous min max =>
    .object [("kind", .text "continuous"), ("min", .ofFloat min), ("max", .ofFloat max)]

/-- Reads the fields of a range of a named kind. -/
def ofKind? (kind : String) (j : Json) : Option AttributeRange :=
  if kind = "fixed" then do
    let r ← j.toRecord? ["value"] false
    let value ← r.required "value" AttributeValue.ofJson?
    return fixed value
  else if kind = "choices" then do
    let r ← j.toRecord? ["values"] false
    let values ← r.required "values" (toList? AttributeValue.ofJson?)
    return choices values
  else if kind = "integer" then do
    let r ← j.toRecord? ["min", "max", "step"] false
    let min ← r.required "min" toInt64?
    let max ← r.required "max" toInt64?
    let step ← r.withDefault "step" 1 toInt64?
    return stepped min max step
  else if kind = "continuous" then do
    let r ← j.toRecord? ["min", "max"] false
    let min ← r.required "min" toFloat?
    let max ← r.required "max" toFloat?
    return continuous min max
  else none

/-- The kind is a field among the others, or the first item of a list. -/
def ofTagged? : Json → Option AttributeRange
  | .object fields =>
    match fields.filter (·.1 = "kind") with
    | [(_, .text kind)] => ofKind? kind (.object (fields.filter (·.1 != "kind")))
    | _ => none
  | .list (.text kind :: items) => ofKind? kind (.list items)
  | _ => none

/-- Its kind may follow the other fields, so all of them have to be readable. -/
def ofJson? (j : Json) : Option AttributeRange :=
  if j.isReadable then ofTagged? j else none

end AttributeRange

namespace AssetRange

def toJson (a : AssetRange) : Json :=
  .object [("mandatory", .bool a.mandatory),
    ("attributes", .ofDict AttributeRange.toJson a.attributes)]

def ofJson? (j : Json) : Option AssetRange := do
  let r ← j.toRecord? ["mandatory", "attributes"] false
  let mandatory ← r.withDefault "mandatory" true toBool?
  let attributes ← r.required "attributes" (toDict? AttributeRange.ofJson?)
  return ⟨mandatory, attributes⟩

end AssetRange

def AssetConfig.toJson (c : AssetConfig) : Json :=
  .ofDict AttributeValue.toJson c

def AssetConfig.ofJson? (j : Json) : Option AssetConfig :=
  toDict? AttributeValue.ofJson? j

namespace Scenario

def toJson (s : Scenario) : Json :=
  .object [("site_id", .text s.siteId), ("bundle_id", .text s.bundleId),
    ("assets", .ofDict AssetConfig.toJson s.assets)]

def ofJson? (j : Json) : Option Scenario := do
  let r ← j.toRecord? ["site_id", "bundle_id", "assets"] false
  let siteId ← r.required "site_id" toText?
  let bundleId ← r.required "bundle_id" toText?
  let assets ← r.required "assets" (toDict? AssetConfig.ofJson?)
  return ⟨siteId, bundleId, assets⟩

end Scenario

namespace Site

def rangeToJson (range : Dict AssetRange) : Json :=
  .ofDict AssetRange.toJson range

def rangeOfJson? (j : Json) : Option (Dict AssetRange) :=
  toDict? AssetRange.ofJson? j

/-- The limits of a site that are no constraints on its metrics. -/
def limitsToJson (capexLimit : Option Float) : Json :=
  .object [("capex_limit", .ofOption .ofFloat capexLimit)]

def limitsOfJson? (j : Json) : Option (Option Float) := do
  let r ← j.toRecord? ["capex_limit"] false
  r.withDefault "capex_limit" none (toOption? toFloat?)

def toJson (s : Site) : Json :=
  .object [
    ("site_id", .text s.siteId),
    ("bundle_id", .text s.bundleId),
    ("baseline", .ofDict AssetConfig.toJson s.baseline),
    ("site_range", rangeToJson s.range),
    ("constraints", s.constraints.toJson),
    ("config", limitsToJson s.capexLimit)]

def ofJson? (j : Json) : Option Site := do
  let r ← j.toRecord?
    ["site_id", "bundle_id", "baseline", "site_range", "constraints", "config"] false
  let siteId ← r.required "site_id" toText?
  let bundleId ← r.required "bundle_id" toText?
  let baseline ← r.withDefault "baseline" .empty (toDict? AssetConfig.ofJson?)
  let range ← r.required "site_range" rangeOfJson?
  let constraints ← r.withDefault "constraints" .none Constraints.ofJson?
  let capexLimit ← r.withDefault "config" none limitsOfJson?
  return { siteId, bundleId, baseline, range, constraints, capexLimit }

end Site

end Retrofit
