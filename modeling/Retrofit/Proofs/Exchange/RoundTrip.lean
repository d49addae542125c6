import Retrofit.Proofs.Exchange.Order
import Retrofit.Proofs.Number.Arithmetic

/-!
# Reading what was written

A task is read back as it was written. JSON has no infinite and no undefined numbers, and whole
numbers are held in signed 64-bit words: values of which all numbers have a form in JSON are
writable, and they come back with every attribute of the same kind.
-/

namespace Retrofit

open Json

/-- Whole numbers within a signed 64-bit word. -/
def isWord (n : Int) : Bool :=
  -9223372036854775808 ≤ n && n ≤ 9223372036854775807

lemma toInt64?_of_isWord {n : Int} (h : isWord n) : toInt64? (.int n) = some n := by
  unfold isWord at h
  unfold toInt64?
  simpa using h

lemma toFloat?_ofFloat {x : Float} (h : x.isFinite) : toFloat? (ofFloat x) = some x := by
  simp [ofFloat, h, toFloat?]

lemma isReadable_ofFloat (x : Float) : (ofFloat x).isReadable := by
  unfold ofFloat
  split <;> rfl

lemma toOption?_toFloat? {o : Option Float} (h : o.all Float.isFinite) :
    toOption? toFloat? (ofOption ofFloat o) = some o := by
  cases o with
  | none => rfl
  | some x =>
    have hx : x.isFinite := h
    simp [ofOption, ofFloat, hx, toOption?, toFloat?]

/-! ## Tables over the objectives -/

namespace PerObjective

variable {α : Type} {read : Json → Option α} {write : α → Json}

theorem ofJson?_toJson {t : PerObjective (Option α)}
    (h : ∀ e ∈ t.toList, read (write e.2) = some e.2) : ofJson? read (toJson write t) = some t := by
  have hnames : ((t.toList.map fun e => (e.1.name, write e.2)).map Prod.fst).Nodup := by
    unfold toList
    rw [List.map_map, List.map_filterMap]
    refine List.Nodup.filterMap (fun o o' name hname hname' => ?_) (by decide)
    simp only [Option.mem_def, Option.map_map, Option.map_eq_some_iff] at hname hname'
    obtain ⟨v, -, rfl⟩ := hname
    obtain ⟨v', -, heq⟩ := hname'
    exact (Objective.name_inj.mp heq).symm
  have hlookup : ∀ o : Objective, (t.toList.map fun e => (e.1.name, write e.2)).lookup o.name =
      (t.get o).map write := by
    intro o
    ext j
    rw [Dict.lookup_eq_some_iff hnames, Option.map_eq_some_iff, List.mem_map]
    constructor
    · rintro ⟨⟨o', v⟩, he, heq⟩
      obtain ⟨hname, rfl⟩ := Prod.mk.inj heq
      obtain rfl := Objective.name_inj.mp hname
      exact ⟨v, mem_toList.mp he, rfl⟩
    · rintro ⟨v, hv, rfl⟩
      exact ⟨(o, v), mem_toList.mpr hv, rfl⟩
  unfold ofJson? toJson
  dsimp only
  rw [ofFields?_eq_some_iff]
  refine ⟨fun name hname => ?_, fun o => ⟨(t.get o).toList, ?_, ?_⟩⟩
  · obtain ⟨j, hj⟩ := List.exists_mem_of_ne_nil _ hname
    obtain ⟨e, -, heq⟩ := List.mem_map.mp (mem_valuesOf.mp hj)
    exact ⟨e.1, congrArg Prod.fst heq⟩
  · unfold AllReadAs
    rw [valuesOf_eq_toList hnames, hlookup]
    cases hv : t.get o with
    | none => rfl
    | some v => simp [h (o, v) (mem_toList.mpr hv)]
  · cases t.get o <;> simp [none]

end PerObjective

/-! ## Sites -/

namespace Bounds

def isWritable (b : Bounds) : Bool :=
  b.min.all Float.isFinite && b.max.all Float.isFinite

lemma ofJson?_toJson {b : Bounds} (h : b.isWritable) : ofJson? b.toJson = some b := by
  obtain ⟨hmin, hmax⟩ := Bool.and_eq_true_iff.mp h
  simp [ofJson?, toJson, toRecord?_of_names, toOption?_toFloat? hmin, toOption?_toFloat? hmax]

end Bounds

namespace Constraints

def isWritable (c : Constraints) : Bool :=
  c.toList.all (·.2.isWritable)

lemma ofJson?_toJson {c : Constraints} (h : c.isWritable) : ofJson? c.toJson = some c :=
  PerObjective.ofJson?_toJson fun e he => Bounds.ofJson?_toJson (List.all_eq_true.mp h e he)

end Constraints

namespace AttributeValue

def isWritable : AttributeValue → Bool
  | bool _ | text _ => true
  | int n => isWord n
  | float x => x.isFinite

lemma isReadable_toJson (v : AttributeValue) : v.toJson.isReadable := by
  cases v with
  | float x => exact isReadable_ofFloat x
  | _ => rfl

/-- Whole numbers and doubles stay apart. -/
lemma ofJson?_toJson {v : AttributeValue} (h : v.isWritable) : ofJson? v.toJson = some v := by
  cases v with
  | bool value => rfl
  | int n => simp [toJson, ofJson?, toInt64?_of_isWord h]
  | float x =>
    have hx : x.isFinite := h
    simp [toJson, ofFloat, hx, ofJson?]
  | text value => rfl

end AttributeValue

namespace AttributeRange

def isWritable : AttributeRange → Bool
  | fixed value => value.isWritable
  | choices values => values.all AttributeValue.isWritable
  | stepped min max step => isWord min && isWord max && isWord step
  | continuous min max => min.isFinite && max.isFinite

lemma isReadable_toJson (r : AttributeRange) : r.toJson.isReadable := by
  cases r with
  | fixed value => simp [toJson, isReadable, haveReadable, AttributeValue.isReadable_toJson]
  | choices values =>
    simp [toJson, ofList, isReadable, haveReadable, areReadable_eq,
      AttributeValue.isReadable_toJson]
  | stepped min max step => rfl
  | continuous min max => simp [toJson, isReadable, haveReadable, isReadable_ofFloat]

lemma ofJson?_toJson {r : AttributeRange} (h : r.isWritable) : ofJson? r.toJson = some r := by
  rw [ofJson?, if_pos (isReadable_toJson r)]
  cases r with
  | fixed value =>
    simp [toJson, ofTagged?, ofKind?, toRecord?_of_names, AttributeValue.ofJson?_toJson h]
  | choices values =>
    have hvalues := toList?_ofList fun v hv =>
      AttributeValue.ofJson?_toJson (List.all_eq_true.mp h v hv)
    simp [toJson, ofTagged?, ofKind?, toRecord?_of_names, hvalues]
  | stepped min max step =>
    simp only [isWritable, Bool.and_eq_true] at h
    simp [toJson, ofTagged?, ofKind?, toRecord?_of_names, toInt64?_of_isWord, h]
  | continuous min max =>
    simp only [isWritable, Bool.and_eq_true] at h
    simp [toJson, ofTagged?, ofKind?, toRecord?_of_names, toFloat?_ofFloat, h]

end AttributeRange

namespace AssetRange

def isWritable (a : AssetRange) : Bool :=
  a.attributes.values.all AttributeRange.isWritable

lemma ofJson?_toJson {a : AssetRange} (h : a.isWritable) : ofJson? a.toJson = some a := by
  have hattributes := toDict?_ofDict fun r hr =>
    AttributeRange.ofJson?_toJson (List.all_eq_true.mp h r hr)
  simp [ofJson?, toJson, toRecord?_of_names, toBool?, hattributes]

end AssetRange

namespace AssetConfig

def isWritable (c : AssetConfig) : Bool :=
  c.values.all AttributeValue.isWritable

lemma ofJson?_toJson {c : AssetConfig} (h : c.isWritable) : ofJson? c.toJson = some c :=
  toDict?_ofDict fun v hv => AttributeValue.ofJson?_toJson (List.all_eq_true.mp h v hv)

/-- The configurations of several assets. -/
lemma toDict?_toJson {d : Dict AssetConfig} (h : d.values.all isWritable) :
    toDict? ofJson? (ofDict toJson d) = some d :=
  toDict?_ofDict fun c hc => ofJson?_toJson (List.all_eq_true.mp h c hc)

end AssetConfig

namespace Scenario

def isWritable (s : Scenario) : Bool :=
  s.assets.values.all AssetConfig.isWritable

lemma ofJson?_toJson {s : Scenario} (h : s.isWritable) : ofJson? s.toJson = some s := by
  simp [ofJson?, toJson, toRecord?_of_names, toText?, AssetConfig.toDict?_toJson h]

end Scenario

namespace Site

def isWritable (s : Site) : Bool :=
  s.baseline.values.all AssetConfig.isWritable && s.range.values.all AssetRange.isWritable &&
    s.constraints.isWritable && s.capexLimit.all Float.isFinite

lemma ofJson?_toJson {s : Site} (h : s.isWritable) : ofJson? s.toJson = some s := by
  simp only [isWritable, Bool.and_eq_true] at h
  obtain ⟨⟨⟨hbaseline, hrange⟩, hconstraints⟩, hlimit⟩ := h
  have hreadRange : rangeOfJson? (rangeToJson s.range) = some s.range :=
    toDict?_ofDict fun a ha => AssetRange.ofJson?_toJson (List.all_eq_true.mp hrange a ha)
  have hlimits : limitsOfJson? (limitsToJson s.capexLimit) = some s.capexLimit := by
    simp [limitsOfJson?, limitsToJson, toRecord?_of_names, toOption?_toFloat? hlimit]
  simp [ofJson?, toJson, toRecord?_of_names, toText?, AssetConfig.toDict?_toJson hbaseline,
    hreadRange, Constraints.ofJson?_toJson hconstraints, hlimits]

end Site

/-! ## Solutions -/

namespace Amount

def isWritable : Amount → Bool
  | number x => x.isFinite
  | undefined _ => false

lemma ofJson?_toJson {a : Amount} (h : a.isWritable) : ofJson? a.toJson = some a := by
  cases a with
  | number x =>
    have hx : x.isFinite := h
    have hnan : x.isNaN = false := Number.isNumber_of_isFinite hx
    rw [ofJson?, toJson, value, toFloat?_ofFloat hx, Option.map_some, ofFloat, hnan]
    rfl
  | undefined side => cases h

end Amount

namespace Metrics

def isWritable (m : Metrics Amount) : Bool :=
  m.toList.all (·.2.isWritable)

lemma ofJson?_toJson {m : Metrics Amount} (h : isWritable m) : ofJson? (toJson m) = some m :=
  PerObjective.ofJson?_toJson fun e he => Amount.ofJson?_toJson (List.all_eq_true.mp h e he)

end Metrics

namespace Totals

def isWritable (t : Totals Amount) : Bool :=
  Quantity.all.all fun q => (t.get q).isWritable

lemma ofJson?_toJson {t : Totals Amount} (h : t.isWritable) : ofJson? t.toJson = some t := by
  have hquantity : ∀ q, Amount.ofJson? (t.get q).toJson = some (t.get q) := fun q =>
    Amount.ofJson?_toJson (List.all_eq_true.mp h q (Quantity.mem_all q))
  have hnames : (Quantity.all.map Quantity.name).Nodup := by decide
  have hfields : (Quantity.all.map fun q => (q.name, (t.get q).toJson)).map Prod.fst =
      Quantity.all.map Quantity.name := by
    rw [List.map_map]
    rfl
  have hfind : ∀ q : Quantity, (Quantity.all.map fun q => (q.name, (t.get q).toJson)).lookup q.name
      = some (t.get q).toJson := fun q =>
    (Dict.lookup_eq_some_iff (hfields ▸ hnames)).mpr (List.mem_map.mpr ⟨q, Quantity.mem_all q, rfl⟩)
  rw [ofJson?, toJson, toRecord?_of_names hfields hnames]
  generalize hr : Record.mk true (Quantity.all.map fun q => (q.name, (t.get q).toJson)) = r
  have hrequired : ∀ q : Quantity, r.required q.name Amount.ofJson? = some (t.get q) := fun q => by
    rw [← hr, Record.required, Record.find?, hfind, Option.bind_some, hquantity]
  have hread : ∀ q : Quantity, r.withDefault q.name 0 Amount.ofJson? = some (t.get q) := fun q => by
    rw [← hr, Record.withDefault, Record.find?, hfind]
    exact hquantity q
  have hcapex : r.required "capex" Amount.ofJson? = some t.capex := hrequired .capex
  rw [Option.bind_eq_bind, Option.bind_some, hcapex]
  simp only [hread]
  rfl

end Totals

namespace SiteSolution

def isWritable (s : SiteSolution) : Bool :=
  s.scenario.isWritable && Metrics.isWritable s.metrics && s.result.isWritable &&
    s.violation.isFinite

lemma ofJson?_toJson {s : SiteSolution} (h : s.isWritable) : ofJson? s.toJson = some s := by
  simp only [isWritable, Bool.and_eq_true] at h
  obtain ⟨⟨⟨hscenario, hmetrics⟩, hresult⟩, hviolation⟩ := h
  simp [ofJson?, toJson, toRecord?_of_names, toBool?, Scenario.ofJson?_toJson hscenario,
    Metrics.ofJson?_toJson hmetrics, Totals.ofJson?_toJson hresult, toFloat?_ofFloat hviolation]

end SiteSolution

namespace PortfolioSolution

def isWritable (s : PortfolioSolution) : Bool :=
  s.sites.values.all SiteSolution.isWritable && Metrics.isWritable s.metrics &&
    s.result.isWritable && s.violation.isFinite

lemma ofJson?_toJson {s : PortfolioSolution} (h : s.isWritable) : ofJson? s.toJson = some s := by
  simp only [isWritable, Bool.and_eq_true] at h
  obtain ⟨⟨⟨hsites, hmetrics⟩, hresult⟩, hviolation⟩ := h
  have hread := toDict?_ofDict fun s hs =>
    SiteSolution.ofJson?_toJson (List.all_eq_true.mp hsites s hs)
  simp [ofJson?, toJson, toRecord?_of_names, toBool?, hread,
    Metrics.ofJson?_toJson hmetrics, Totals.ofJson?_toJson hresult, toFloat?_ofFloat hviolation]

end PortfolioSolution

/-! ## Tasks -/

lemma Objective.ofJson?_toJson (o : Objective) : ofJson? o.toJson = some o :=
  ofName?_name o

lemma OptimiserId.ofJson?_toJson (id : OptimiserId) : ofJson? id.toJson = some id :=
  ofName?_name id

lemma OptimiserSpec.ofJson?_toJson {s : OptimiserSpec} (h : s.hyperparameters.isPlain) :
    ofJson? s.toJson = some s := by
  simp [ofJson?, toJson, toRecord?_of_names, OptimiserId.ofJson?_toJson, toPlain?_of_isPlain h]

namespace Task

/-- The numbers of the task have a form in JSON, and its settings are plain. -/
def isWritable (t : Task) : Bool :=
  t.optimiser.hyperparameters.isPlain && t.portfolio.all Site.isWritable &&
    t.constraints.isWritable && t.existing.all (·.all PortfolioSolution.isWritable)

lemma toOption?_existing {o : Option (List PortfolioSolution)}
    (h : o.all (·.all PortfolioSolution.isWritable)) :
    toOption? (toList? PortfolioSolution.ofJson?) (ofOption (ofList PortfolioSolution.toJson) o) =
      some o := by
  cases o with
  | none => rfl
  | some solutions =>
    have hsolutions := toList?_ofList fun s hs =>
      PortfolioSolution.ofJson?_toJson (List.all_eq_true.mp (h : solutions.all _) s hs)
    exact congrArg (Option.map some) hsolutions

lemma ofJson?_toJson (freshId : TaskId) (now : Timestamp) {t : Task} (h : t.isWritable)
    (hid : TaskId.ofText? t.id.text = some t.id)
    (htime : Timestamp.ofText? t.createdAt.text = some t.createdAt) :
    ofJson? freshId now t.toJson = some t := by
  simp only [isWritable, Bool.and_eq_true] at h
  obtain ⟨⟨⟨hsettings, hportfolio⟩, hconstraints⟩, hexisting⟩ := h
  have hobjectives : toList? Objective.ofJson? (ofList Objective.toJson t.objectives) =
      some t.objectives := toList?_ofList fun o _ => Objective.ofJson?_toJson o
  have hsites := toList?_ofList fun s hs =>
    Site.ofJson?_toJson (List.all_eq_true.mp hportfolio s hs)
  simp [ofJson?, toJson, fieldNames, toRecord?_of_names, TaskId.ofJson?, TaskId.toJson, hid,
    Timestamp.ofJson?, Timestamp.toJson, htime, toText?, hobjectives, hsites,
    OptimiserSpec.ofJson?_toJson hsettings, Constraints.ofJson?_toJson hconstraints,
    toOption?_existing hexisting]

/-- A task is read back as it was written, down to the kind of every attribute. The order of fields
and fields that are not known do not change what is read. -/
theorem round_trip (freshId : TaskId) (now : Timestamp) {t : Task} (h : t.isWritable)
    (hid : TaskId.ofText? t.id.text = some t.id)
    (htime : Timestamp.ofText? t.createdAt.text = some t.createdAt) :
    ofJson? freshId now t.toJson = some t ∧
    (∀ v : AttributeValue, v.isWritable → AttributeValue.ofJson? v.toJson = some v) ∧
    (∀ s : Scenario, s.isWritable → Scenario.ofJson? s.toJson = some s) ∧
    ∀ j j', Alike j j' → ofJson? freshId now j = ofJson? freshId now j' :=
  ⟨ofJson?_toJson freshId now h hid htime, fun _ => AttributeValue.ofJson?_toJson,
    fun _ => Scenario.ofJson?_toJson, respects_ofJson? freshId now⟩

end Task

/-! ## A task with ranges of all kinds -/

/-- A whole number and a double of the same size are different choices. -/
def workshop : Site where
  siteId := "workshop"
  bundleId := "bundle"
  baseline := Dict.empty.insert "heater" (Dict.empty.insert "size" (.float 1.0))
  range := Dict.empty.insert "battery" ⟨false, Dict.ofList [("chemistry", .fixed (.text "lfp")),
    ("units", .stepped 0 4 2), ("power", .continuous 0.5 2.0),
    ("tariff", .choices [.int 1, .float 1.0, .bool true])]⟩
  constraints := PerObjective.none.set .capex (some (.atLeast 0.0))
  capexLimit := some 100.5

def refitSolution : SiteSolution where
  scenario := workshop.baselineScenario
  metrics := PerObjective.none.set .capex (some (.number 2.5))
  result := (Totals.fill 0).set .capex (.number 2.5)
  violation := 0.0
  feasible := true

def refit : Task where
  id := ⟨0x1f⟩
  clientId := "client"
  objectives := [.carbonCost, .capex]
  optimiser := ⟨.nsga2, .object [("population_size", .int 8), ("seed", .int 3)]⟩
  portfolio := [workshop]
  constraints := .none
  existing := some [.ofSites (Dict.empty.insert "workshop" refitSolution) .none]
  createdAt := ⟨1714566600, 0⟩

/-- The task as it is written, but with a comment and with the fields from the last to the first. -/
def refitDraft : Json :=
  match refit.toJson with
  | .object fields => .object (("comment", .text "draft") :: fields.reverse)
  | j => j

theorem Task.round_trip_refit :
    refit.isWritable ∧ ofJson? ⟨0⟩ ⟨0, 0⟩ refit.toJson = some refit ∧
    ofJson? ⟨0⟩ ⟨0, 0⟩ refitDraft = some refit := by
  have hwritable : refit.isWritable := by decide +kernel
  obtain ⟨hread, -, -, halike⟩ := round_trip ⟨0⟩ ⟨0, 0⟩ hwritable (by decide +kernel)
    (by decide +kernel)
  have hdraft : Alike refit.toJson refitDraft := by
    have hperm (e : String × Json) (fields : List (String × Json)) :
        (e :: fields.reverse).Perm (fields ++ [e]) :=
      ((List.reverse_perm fields).cons e).trans (List.perm_append_singleton e fields).symm
    refine alike_of_perm (hperm _ _) (by decide : fieldNames.Nodup) fun e he => ?_
    rw [List.mem_singleton.mp he]
    decide
  exact ⟨hwritable, hread, (halike _ _ hdraft).symm.trans hread⟩

end Retrofit
