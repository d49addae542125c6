import Retrofit.Solution
import Retrofit.Space.SiteSpace

/-!
# The search space of a portfolio

The chromosomes of the sites, laid end to end in the order of the portfolio.
-/

namespace Retrofit

structure Space where
  sites : List SiteSpace

namespace Space

/-- The search space of a portfolio, unless a range of one of its sites cannot be searched. -/
def ofPortfolio (portfolio : List Site) : Except SearchError Space := do
  let sites ← portfolio.mapM SiteSpace.ofSite
  return ⟨sites⟩

def genes (space : Space) : List Gene :=
  space.sites.flatMap (·.genes)

/-- Decodes one site after the other, each from its own part of the chromosome. -/
def decodeFrom : List SiteSpace → Chromosome → List Scenario
  | [], _ => []
  | site :: rest, chromosome =>
    let (own, others) := chromosome.splitAt site.loci.length
    site.decode own :: decodeFrom rest others

/-- One scenario for every site, in the order of the portfolio. -/
def decode (space : Space) (chromosome : Chromosome) : List Scenario :=
  decodeFrom space.sites chromosome

/-- A chromosome for a solution that has a scenario for every site. -/
def encode (space : Space) (solution : PortfolioSolution) : Option Chromosome := do
  let parts ← space.sites.mapM fun site => do
    let found ← solution.sites.get? site.siteId
    site.encode found.scenario
  return parts.flatten

end Space

end Retrofit
