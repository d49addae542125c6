import Retrofit.SearchError
import Retrofit.Site
import Retrofit.Space.Gene

/-!
# The search space of a site

The searched parts of a site's range are laid out in a row: for every asset, whether it is present
if it may be left out, then each of its attributes that has more than one value. Every such locus
has a gene. `SiteSpace.decode` turns a chromosome into a scenario, `SiteSpace.encode` finds a
chromosome for a scenario. What has only one legal value has no gene and is written into every
scenario.
-/

namespace Retrofit

/-- A searched part of a scenario. -/
inductive Locus where
  /-- Whether the asset is there. -/
  | presence (asset : String)
  /-- The place of the attribute's value in a list. -/
  | choice (asset attr : String) (values : List AttributeValue)
  /-- The number of steps from the least value; there are `last` of them. -/
  | stepped (asset attr : String) (min step last : Int)
  /-- The attribute's value itself. -/
  | continuous (asset attr : String) (min max : Float)
deriving DecidableEq

namespace Locus

def asset : Locus → String
  | presence asset => asset
  | choice asset _ _ => asset
  | stepped asset _ _ _ _ => asset
  | continuous asset _ _ _ => asset

def gene : Locus → Gene
  | presence _ => .integer 0 1
  | choice _ _ values => .integer 0 ((values.length : Int) - 1)
  | stepped _ _ _ _ last => .integer 0 last
  | continuous _ _ min max => .continuous min max

/-- Writes the meaning of a gene's value into the assets. An absent asset stays absent. -/
def apply (l : Locus) (value : Float) (assets : Dict AssetConfig) : Dict AssetConfig :=
  let value := l.gene.clip value
  match l with
  | presence asset => if value < 0.5 then assets.erase asset else assets
  | choice asset attr values =>
    match values[Number.toCount value]? with
    | some chosen => assets.modify asset (·.insert attr chosen)
    | none => assets
  | stepped asset attr min step _ =>
    assets.modify asset (·.insert attr (.int (min + Number.toCount value * step)))
  | continuous asset attr _ _ =>
    assets.modify asset (·.insert attr (.float value))

/-- A value that its gene leaves as it is. -/
def keep? (l : Locus) (value : Float) : Option Float :=
  if l.gene.clip value == value then some value else none

/-- The value of the gene under which an asset has the given attributes. -/
def positionIn (l : Locus) (config : AssetConfig) : Option Float :=
  match l with
  | presence _ => some 1.0
  | choice _ attr values => do
    let value ← config.get? attr
    let place ← values.idxOf? value
    return Number.ofInt place
  | stepped _ attr min step _ =>
    match config.get? attr with
    | some (.int v) =>
      let offset := v - min
      if offset < -9223372036854775808 ∨ 9223372036854775807 < offset then none
      else if offset.tmod step ≠ 0 then none
      else l.keep? (Number.ofInt (offset.tdiv step))
    | _ => none
  | continuous _ attr _ _ =>
    match config.get? attr with
    | some (.float v) => l.keep? v
    | some (.int v) => l.keep? (Number.ofInt v)
    | _ => none

/-- The value of the gene in a scenario with the given assets. When the asset is absent the genes of
its attributes do not matter. -/
def position (l : Locus) (assets : Dict AssetConfig) : Option Float :=
  match assets.get? l.asset with
  | some config => l.positionIn config
  | none =>
    match l with
    | presence _ => some 0.0
    | _ => some l.gene.lower

end Locus

/-- What is left of a range: one legal value, or something to search. -/
inductive Resolved where
  | constant (value : AttributeValue)
  | searched (locus : Locus)

/-- The most steps of a range: a double counts exactly up to here. -/
def maxSteps : Int := 9007199254740992

namespace AttributeRange

/-- Settles what a range leaves to the search. -/
def resolve (asset attr : String) : AttributeRange → Except RangeError Resolved
  | fixed value => .ok (.constant value)
  | choices [] => .error .noValues
  | choices [value] => .ok (.constant value)
  | choices values => .ok (.searched (.choice asset attr values))
  | stepped min max step =>
    if step ≤ 0 then .error .stepNotPositive
    else if max < min then .error .maxBelowMin
    else
      let span := max - min
      let last := span / step
      if 9223372036854775807 < span ∨ maxSteps < last then .error .tooWide
      else if last = 0 then .ok (.constant (.int min))
      else .ok (.searched (.stepped asset attr min step last))
  | continuous min max =>
    if !(min.isFinite && max.isFinite) || max < min then .error .badBounds
    else if min == max then .ok (.constant (.float min))
    else .ok (.searched (.continuous asset attr min max))

end AttributeRange

/-- The attributes of an asset taken apart into constants and loci. -/
structure AssetSpace where
  constants : AssetConfig
  loci : List Locus

namespace AssetSpace

/-- Adds the attributes of a range one after the other. -/
def ofAttributes (siteId asset : String) :
    List (String × AttributeRange) → Except SearchError AssetSpace
  | [] => .ok ⟨Dict.empty, []⟩
  | (attr, range) :: rest =>
    match range.resolve asset attr with
    | .error reason => .error (.invalidRange siteId asset attr reason)
    | .ok (.constant value) => do
      let space ← ofAttributes siteId asset rest
      return { space with constants := space.constants.insert attr value }
    | .ok (.searched locus) => do
      let space ← ofAttributes siteId asset rest
      return { space with loci := locus :: space.loci }

end AssetSpace

structure SiteSpace where
  siteId : String
  bundleId : String
  loci : List Locus
  /-- Every asset with the attributes that have one legal value. -/
  constants : Dict AssetConfig

namespace SiteSpace

/-- Adds the assets of a range one after the other. -/
def ofAssets (siteId bundleId : String) :
    List (String × AssetRange) → Except SearchError SiteSpace
  | [] => .ok ⟨siteId, bundleId, [], Dict.empty⟩
  | (asset, range) :: rest => do
    let own ← AssetSpace.ofAttributes siteId asset range.attributes.entries
    let space ← ofAssets siteId bundleId rest
    let presence := if range.mandatory then [] else [Locus.presence asset]
    return { space with
      loci := presence ++ own.loci ++ space.loci
      constants := space.constants.insert asset own.constants }

/-- The search space of a site, unless one of its ranges cannot be searched. -/
def ofSite (site : Site) : Except SearchError SiteSpace :=
  ofAssets site.siteId site.bundleId site.range.entries

def genes (space : SiteSpace) : List Gene :=
  space.loci.map (·.gene)

/-- The assets that a chromosome stands for. -/
def assets (space : SiteSpace) (chromosome : Chromosome) : Dict AssetConfig :=
  (space.loci.zip chromosome).foldl (fun assets e => e.1.apply e.2 assets) space.constants

def decode (space : SiteSpace) (chromosome : Chromosome) : Scenario :=
  ⟨space.siteId, space.bundleId, space.assets chromosome⟩

/-- A chromosome for a scenario of this site. -/
def encode (space : SiteSpace) (scenario : Scenario) : Option Chromosome :=
  if scenario.siteId = space.siteId then space.loci.mapM (·.position scenario.assets)
  else none

end SiteSpace

end Retrofit
