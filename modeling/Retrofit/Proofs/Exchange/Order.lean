import Retrofit.Exchange.Task
import Retrofit.Proofs.Json.Plain

/-!
# The order of fields, and fields that are not known

Tasks and their parts are read in the same way whatever the order of the fields is, at every depth,
and whatever else they hold besides the fields that are known. The relation of each type
(`Site.Alike`, `Task.Alike`) says which trees are the same in this sense; a part that has no fields
of its own has to be the same.
-/

namespace Retrofit

open Json

/-! ## Tables over the objectives -/

lemma Objective.ofName?_eq_some_iff {name : String} {o : Objective} :
    ofName? name = some o ↔ o.name = name := by
  constructor
  · intro h
    unfold ofName? at h
    have hname := List.find?_some h
    exact of_decide_eq_true hname
  · rintro rfl
    exact ofName?_name o

lemma Objective.name_inj {o o' : Objective} : o.name = o'.name ↔ o = o' := by
  rw [← ofName?_eq_some_iff, ofName?_name, Option.some.injEq, eq_comm]

namespace PerObjective

variable {α : Type} {read : Json → Option α}

lemma getLast?_cons_or (v : α) (vs : List α) (o : Option α) :
    (v :: vs).getLast?.or o = vs.getLast?.or (some v) := by
  rw [List.getLast?_cons]
  cases vs.getLast? <;> rfl

/-- Fields are entered into a table if every name is one of an objective and every value can be
read; the last value of each name stays. -/
theorem ofFields?_eq_some_iff {fields : List (String × Json)} {t t' : PerObjective (Option α)} :
    ofFields? read fields t = some t' ↔
      (∀ name, valuesOf fields name ≠ [] → ∃ o : Objective, o.name = name) ∧
      ∀ o : Objective, ∃ vs, AllReadAs read (valuesOf fields o.name) vs ∧
        t'.get o = vs.getLast?.or (t.get o) := by
  induction fields generalizing t with
  | nil =>
    rw [ofFields?, Option.some.injEq]
    constructor
    · rintro rfl
      exact ⟨fun name h => absurd rfl h, fun o => ⟨[], rfl, rfl⟩⟩
    · rintro ⟨-, h⟩
      refine ext_get fun o => ?_
      obtain ⟨vs, hvs, hget⟩ := h o
      obtain rfl : vs = [] := List.map_eq_nil_iff.mp hvs.symm
      exact hget.symm
  | cons e rest ih =>
    obtain ⟨name, j⟩ := e
    simp only [ofFields?, Option.bind_eq_bind, Option.bind_eq_some_iff, ih,
      Objective.ofName?_eq_some_iff, valuesOf_cons, get_set]
    constructor
    · rintro ⟨o, rfl, v, hv, hnames, hrest⟩
      refine ⟨fun name hname => ?_, fun o' => ?_⟩
      · split at hname
        · exact ⟨o, ‹_›⟩
        · exact hnames name hname
      · obtain ⟨vs, hvs, hget⟩ := hrest o'
        by_cases heq : o' = o
        · subst heq
          rw [if_pos rfl] at hget ⊢
          rw [← getLast?_cons_or v vs (t.get o')] at hget
          exact ⟨v :: vs, List.cons_eq_cons.mpr ⟨hv, hvs⟩, hget⟩
        · rw [if_neg heq] at hget
          rw [if_neg fun h => heq (Objective.name_inj.mp h).symm]
          exact ⟨vs, hvs, hget⟩
    · rintro ⟨hnames, hall⟩
      obtain ⟨o, rfl⟩ := hnames name (by simp)
      obtain ⟨vs, hvs, hget⟩ := hall o
      rw [if_pos rfl] at hvs
      cases vs with
      | nil => cases hvs
      | cons v vs =>
        obtain ⟨hv, hvs⟩ := List.cons_eq_cons.mp hvs
        refine ⟨o, rfl, v, hv, fun name hname => ?_, fun o' => ?_⟩
        · refine hnames name ?_
          split
          · exact List.cons_ne_nil _ _
          · exact hname
        · by_cases heq : o' = o
          · subst heq
            rw [if_pos rfl]
            exact ⟨vs, hvs, hget.trans (getLast?_cons_or v vs _)⟩
          · have hother := hall o'
            rw [if_neg fun h => heq (Objective.name_inj.mp h).symm] at hother
            rw [if_neg heq]
            exact hother

lemma respects_ofJson? {R : Json → Json → Prop} (h : Respects read R) :
    Respects (ofJson? read) (DictAlike R) := by
  rintro j j' (rfl | ⟨given, given', rfl, rfl, hvalues⟩)
  · rfl
  · have hempty : ∀ name, valuesOf given name ≠ [] ↔ valuesOf given' name ≠ [] := fun name => by
      rw [← List.length_pos_iff, ← List.length_pos_iff, (hvalues name).length_eq]
    ext t
    change ofFields? read given _ = some t ↔ ofFields? read given' _ = some t
    rw [ofFields?_eq_some_iff, ofFields?_eq_some_iff]
    unfold AllReadAs
    simp only [h.map_eq (hvalues _), hempty]

end PerObjective

namespace Bounds

def Alike : Json → Json → Prop :=
  RecordAlike [("min", Eq), ("max", Eq)]

lemma respects_ofJson? : Respects ofJson? Alike := by
  refine respects_record rfl fun r r' h => ?_
  simp only [List.forall_mem_cons] at h
  obtain ⟨hmin, hmax, -⟩ := h
  simp only [Record.withDefault_congr respects_eq hmin, Record.withDefault_congr respects_eq hmax]

end Bounds

def Constraints.Alike : Json → Json → Prop := DictAlike Bounds.Alike

lemma Constraints.respects_ofJson? : Respects ofJson? Alike :=
  PerObjective.respects_ofJson? Bounds.respects_ofJson?

def Metrics.Alike : Json → Json → Prop := DictAlike Eq

lemma Metrics.respects_ofJson? : Respects ofJson? Alike :=
  PerObjective.respects_ofJson? respects_eq

/-! ## Ranges -/

namespace AttributeRange

/-- The fields of a range of a kind. -/
def fieldsOfKind (kind : String) : List (String × (Json → Json → Prop)) :=
  if kind = "fixed" then [("value", Eq)]
  else if kind = "choices" then [("values", Eq)]
  else if kind = "integer" then [("min", Eq), ("max", Eq), ("step", Eq)]
  else if kind = "continuous" then [("min", Eq), ("max", Eq)]
  else []

/-- Ranges that have the same kind, and the same in the fields of that kind. Other fields do not
matter as long as they are readable. -/
def Alike (j j' : Json) : Prop :=
  j.isReadable = j'.isReadable ∧ RecordAlike [("kind", Eq)] j j' ∧
    ∀ kind, j.field? "kind" = some (.text kind) → RecordAlike (fieldsOfKind kind) j j'

lemma respects_ofKind? (kind : String) :
    Respects (ofKind? kind) (RecordAlike (fieldsOfKind kind)) := by
  intro j j' h
  unfold fieldsOfKind at h
  unfold ofKind?
  split_ifs at h ⊢
  · refine respects_record rfl (fun r r' hr => ?_) j j' h
    simp only [List.forall_mem_cons] at hr
    simp only [Record.required_congr respects_eq hr.1]
  · refine respects_record rfl (fun r r' hr => ?_) j j' h
    simp only [List.forall_mem_cons] at hr
    simp only [Record.required_congr respects_eq hr.1]
  · refine respects_record rfl (fun r r' hr => ?_) j j' h
    simp only [List.forall_mem_cons] at hr
    obtain ⟨hmin, hmax, hstep, -⟩ := hr
    simp only [Record.required_congr respects_eq hmin, Record.required_congr respects_eq hmax,
      Record.withDefault_congr respects_eq hstep]
  · refine respects_record rfl (fun r r' hr => ?_) j j' h
    simp only [List.forall_mem_cons] at hr
    obtain ⟨hmin, hmax, -⟩ := hr
    simp only [Record.required_congr respects_eq hmin, Record.required_congr respects_eq hmax]
  · rfl

lemma ofTagged?_object (fields : List (String × Json)) :
    ofTagged? (.object fields) = match valuesOf fields "kind" with
      | [.text kind] => ofKind? kind (.object (fields.filter (·.1 != "kind")))
      | _ => none := by
  unfold ofTagged? valuesOf
  dsimp only
  generalize fields.filter (fun e => decide (e.1 = "kind")) = kinds
  rcases kinds with _ | ⟨⟨name, j⟩, _ | ⟨e, rest⟩⟩
  · rfl
  · cases j <;> rfl
  · cases j <;> rfl

lemma respects_ofJson? : Respects ofJson? Alike := by
  rintro j j' ⟨hreadable, hkind, hfields⟩
  rcases hkind with rfl | ⟨given, given', rfl, rfl, hkind⟩
  · rfl
  · have hkinds : valuesOf given' "kind" = valuesOf given "kind" :=
      (List.forall₂_eq_eq_eq ▸ hkind _ List.mem_cons_self).symm
    unfold ofJson?
    rw [hreadable, ofTagged?_object, ofTagged?_object, hkinds]
    split
    · split
      · rename_i kind heq
        have hfield : (Json.object given).field? "kind" = some (.text kind) := by
          rw [field?, lookup_eq_head?, heq]
          rfl
        exact respects_ofKind? kind _ _ ((hfields kind hfield).filter (· != "kind"))
      · rfl
    · rfl

end AttributeRange

namespace AssetRange

def Alike : Json → Json → Prop :=
  RecordAlike [("mandatory", Eq), ("attributes", DictAlike AttributeRange.Alike)]

lemma respects_ofJson? : Respects ofJson? Alike := by
  refine respects_record rfl fun r r' h => ?_
  simp only [List.forall_mem_cons] at h
  obtain ⟨hmandatory, hattributes, -⟩ := h
  simp only [Record.withDefault_congr respects_eq hmandatory,
    Record.required_congr AttributeRange.respects_ofJson?.toDict? hattributes]

end AssetRange

/-! ## Scenarios and sites -/

def AssetConfig.Alike : Json → Json → Prop := DictAlike Eq

lemma AssetConfig.respects_ofJson? : Respects ofJson? Alike :=
  respects_eq.toDict?

namespace Scenario

def Alike : Json → Json → Prop :=
  RecordAlike [("site_id", Eq), ("bundle_id", Eq), ("assets", DictAlike AssetConfig.Alike)]

lemma respects_ofJson? : Respects ofJson? Alike := by
  refine respects_record rfl fun r r' h => ?_
  simp only [List.forall_mem_cons] at h
  obtain ⟨hsite, hbundle, hassets, -⟩ := h
  simp only [Record.required_congr respects_eq hsite, Record.required_congr respects_eq hbundle,
    Record.required_congr AssetConfig.respects_ofJson?.toDict? hassets]

end Scenario

namespace Site

def LimitsAlike : Json → Json → Prop :=
  RecordAlike [("capex_limit", Eq)]

lemma respects_limitsOfJson? : Respects limitsOfJson? LimitsAlike := by
  refine respects_record rfl fun r r' h => ?_
  simp only [List.forall_mem_cons] at h
  exact Record.withDefault_congr respects_eq h.1

def Alike : Json → Json → Prop :=
  RecordAlike [("site_id", Eq), ("bundle_id", Eq), ("baseline", DictAlike AssetConfig.Alike),
    ("site_range", DictAlike AssetRange.Alike), ("constraints", Constraints.Alike),
    ("config", LimitsAlike)]

lemma respects_ofJson? : Respects ofJson? Alike := by
  refine respects_record rfl fun r r' h => ?_
  simp only [List.forall_mem_cons] at h
  obtain ⟨hsite, hbundle, hbaseline, hrange, hconstraints, hlimits, -⟩ := h
  have hreadRange : Respects rangeOfJson? (DictAlike AssetRange.Alike) :=
    AssetRange.respects_ofJson?.toDict?
  simp only [Record.required_congr respects_eq hsite, Record.required_congr respects_eq hbundle,
    Record.withDefault_congr AssetConfig.respects_ofJson?.toDict? hbaseline,
    Record.required_congr hreadRange hrange,
    Record.withDefault_congr Constraints.respects_ofJson? hconstraints,
    Record.withDefault_congr respects_limitsOfJson? hlimits]

end Site

/-! ## Solutions -/

namespace Totals

def Alike : Json → Json → Prop :=
  RecordAlike (Quantity.all.map fun q => (q.name, Eq))

lemma respects_ofJson? : Respects ofJson? Alike := by
  refine respects_record rfl fun r r' h => ?_
  have hquantity : ∀ q : Quantity, Option.Rel Eq (r.find? q.name) (r'.find? q.name) :=
    fun q => h _ (List.mem_map_of_mem (Quantity.mem_all q))
  have hcapex : ∀ read : Json → Option Amount, r.required "capex" read = r'.required "capex" read :=
    fun read => Record.required_congr respects_eq (hquantity .capex)
  simp only [hcapex, Record.withDefault_congr respects_eq (hquantity _)]

end Totals

namespace SiteSolution

def Alike : Json → Json → Prop :=
  RecordAlike [("scenario", Scenario.Alike), ("metric_values", Metrics.Alike),
    ("simulation_result", Totals.Alike), ("constraint_violation", Eq), ("is_feasible", Eq)]

lemma respects_ofJson? : Respects ofJson? Alike := by
  refine respects_record rfl fun r r' h => ?_
  simp only [List.forall_mem_cons] at h
  obtain ⟨hscenario, hmetrics, hresult, hviolation, hfeasible, -⟩ := h
  simp only [Record.required_congr Scenario.respects_ofJson? hscenario,
    Record.required_congr Metrics.respects_ofJson? hmetrics,
    Record.required_congr Totals.respects_ofJson? hresult,
    Record.required_congr respects_eq hviolation, Record.required_congr respects_eq hfeasible]

end SiteSolution

namespace PortfolioSolution

def Alike : Json → Json → Prop :=
  RecordAlike [("solutions", DictAlike SiteSolution.Alike), ("metric_values", Metrics.Alike),
    ("simulation_result", Totals.Alike), ("constraint_violation", Eq), ("is_feasible", Eq)]

lemma respects_ofJson? : Respects ofJson? Alike := by
  refine respects_record rfl fun r r' h => ?_
  simp only [List.forall_mem_cons] at h
  obtain ⟨hsites, hmetrics, hresult, hviolation, hfeasible, -⟩ := h
  simp only [Record.required_congr SiteSolution.respects_ofJson?.toDict? hsites,
    Record.required_congr Metrics.respects_ofJson? hmetrics,
    Record.required_congr Totals.respects_ofJson? hresult,
    Record.required_congr respects_eq hviolation, Record.required_congr respects_eq hfeasible]

end PortfolioSolution

/-! ## Tasks -/

namespace OptimiserSpec

/-- The settings have no fields of their own, but their order does not matter either. -/
def Alike : Json → Json → Prop :=
  RecordAlike [("id", Eq), ("hyperparameters", Reordered)]

lemma respects_ofJson? : Respects ofJson? Alike := by
  refine respects_record rfl fun r r' h => ?_
  simp only [List.forall_mem_cons] at h
  obtain ⟨hid, hhyperparameters, -⟩ := h
  simp only [Record.required_congr respects_eq hid,
    Record.withDefault_congr respects_toPlain? hhyperparameters]

end OptimiserSpec

namespace Task

def Alike : Json → Json → Prop :=
  RecordAlike [("task_id", Eq), ("client_id", Eq), ("objectives", Eq),
    ("optimiser", OptimiserSpec.Alike), ("portfolio", ListAlike Site.Alike),
    ("constraints", Constraints.Alike), ("existing_solutions", ListAlike PortfolioSolution.Alike),
    ("created_at", Eq)]

/-- Whatever the order of the fields is at any depth, and whatever else there is, the same task is
read, or none. -/
theorem respects_ofJson? (freshId : TaskId) (now : Timestamp) :
    Respects (ofJson? freshId now) Alike := by
  refine respects_record rfl fun r r' h => ?_
  simp only [List.forall_mem_cons] at h
  obtain ⟨hid, hclient, hobjectives, hoptimiser, hportfolio, hconstraints, hexisting, hcreated, -⟩
    := h
  simp only [Record.withDefault_congr respects_eq hid, Record.required_congr respects_eq hclient,
    Record.required_congr respects_eq hobjectives,
    Record.required_congr OptimiserSpec.respects_ofJson? hoptimiser,
    Record.required_congr Site.respects_ofJson?.toList? hportfolio,
    Record.withDefault_congr Constraints.respects_ofJson? hconstraints,
    Record.withDefault_congr PortfolioSolution.respects_ofJson?.toOption?_toList? hexisting,
    Record.withDefault_congr respects_eq hcreated]

lemma alike_of_perm {given given' extra : List (String × Json)}
    (hperm : given'.Perm (given ++ extra)) (hnames : (given.map Prod.fst).Nodup)
    (hextra : ∀ e ∈ extra, e.1 ∉ fieldNames) : Alike (.object given) (.object given') := by
  refine recordAlike_of_perm ?_ hperm hnames hextra
  simp [OptimiserSpec.Alike, RecordAlike, Constraints.Alike, DictAlike, ListAlike]

end Task

end Retrofit
