import Retrofit.Amount
import Retrofit.Constraint
import Retrofit.Dict
import Retrofit.Exchange.Queue
import Retrofit.Exchange.Site
import Retrofit.Exchange.Solution
import Retrofit.Exchange.Task
import Retrofit.Json.Basic
import Retrofit.Json.Reading
import Retrofit.Json.Text
import Retrofit.Metrics
import Retrofit.Number
import Retrofit.Objective
import Retrofit.Optimiser.Basic
import Retrofit.Optimiser.Hyperparameters
import Retrofit.Optimiser.Registry
import Retrofit.Pareto.Crowding
import Retrofit.Pareto.Dominance
import Retrofit.Pareto.Front
import Retrofit.Proofs.Dict
import Retrofit.Proofs.Exchange.Order
import Retrofit.Proofs.Exchange.RoundTrip
import Retrofit.Proofs.Feasibility
import Retrofit.Proofs.Json.Objects
import Retrofit.Proofs.Json.Paths
import Retrofit.Proofs.Json.Plain
import Retrofit.Proofs.Lists
import Retrofit.Proofs.Metrics.Aggregation
import Retrofit.Proofs.Metrics.Ratios
import Retrofit.Proofs.Number.Arithmetic
import Retrofit.Proofs.Number.Bits
import Retrofit.Proofs.Number.Quotients
import Retrofit.Proofs.Number.Rank
import Retrofit.Proofs.Number.Rounding
import Retrofit.Proofs.Number.Shares
import Retrofit.Proofs.Number.Steps
import Retrofit.Proofs.Number.Sums
import Retrofit.Proofs.Number.Units
import Retrofit.Proofs.Number.Whole
import Retrofit.Proofs.Number.Zeros
import Retrofit.Proofs.Optimiser.Concurrency
import Retrofit.Proofs.Outcome
import Retrofit.Proofs.Pareto.Costs
import Retrofit.Proofs.Pareto.Crowding
import Retrofit.Proofs.Pareto.Dominance
import Retrofit.Proofs.Pareto.Front
import Retrofit.Proofs.Pareto.Gaps
import Retrofit.Proofs.Pareto.Peeling
import Retrofit.Proofs.Pareto.Room
import Retrofit.Proofs.Pareto.Selection
import Retrofit.Proofs.Pareto.Shape
import Retrofit.Proofs.Pareto.Thinning
import Retrofit.Proofs.Queue.Alone
import Retrofit.Proofs.Queue.Crew
import Retrofit.Proofs.Queue.Isolation
import Retrofit.Proofs.Queue.Ledger
import Retrofit.Proofs.Queue.Once
import Retrofit.Proofs.Queue.Orderly
import Retrofit.Proofs.Queue.Refinement
import Retrofit.Proofs.Queue.Tidy
import Retrofit.Proofs.Random.Bounds
import Retrofit.Proofs.Random.Numbers
import Retrofit.Proofs.Search.Accounting
import Retrofit.Proofs.Search.Agreement
import Retrofit.Proofs.Search.Archive
import Retrofit.Proofs.Search.Asked
import Retrofit.Proofs.Search.Axes
import Retrofit.Proofs.Search.Breeding
import Retrofit.Proofs.Search.Candidates
import Retrofit.Proofs.Search.Chronicle
import Retrofit.Proofs.Search.Confined
import Retrofit.Proofs.Search.Consistency
import Retrofit.Proofs.Search.Elitism
import Retrofit.Proofs.Search.Evaluation
import Retrofit.Proofs.Search.Evolution
import Retrofit.Proofs.Search.Exactness
import Retrofit.Proofs.Search.FitnessOrder
import Retrofit.Proofs.Search.Fittest
import Retrofit.Proofs.Search.FrontSize
import Retrofit.Proofs.Search.Journal
import Retrofit.Proofs.Search.Meetings
import Retrofit.Proofs.Search.Merging
import Retrofit.Proofs.Search.Pipeline
import Retrofit.Proofs.Search.Points
import Retrofit.Proofs.Search.Preference
import Retrofit.Proofs.Search.Presence
import Retrofit.Proofs.Search.Recombination
import Retrofit.Proofs.Search.Replay
import Retrofit.Proofs.Search.Reports
import Retrofit.Proofs.Search.Run
import Retrofit.Proofs.Search.Sampling
import Retrofit.Proofs.Search.Schedules
import Retrofit.Proofs.Search.Shape
import Retrofit.Proofs.Search.SiteFronts
import Retrofit.Proofs.Search.Sites
import Retrofit.Proofs.Search.Soundness
import Retrofit.Proofs.Search.Survival
import Retrofit.Proofs.Search.Tally
import Retrofit.Proofs.Search.Transparency
import Retrofit.Proofs.Search.Turns
import Retrofit.Proofs.Search.Verdicts
import Retrofit.Proofs.Simulation.Memo
import Retrofit.Proofs.Space.Acceptance
import Retrofit.Proofs.Space.Decoding
import Retrofit.Proofs.Space.Discrete
import Retrofit.Proofs.Space.Encoding
import Retrofit.Proofs.Space.Genes
import Retrofit.Proofs.Space.Inverse
import Retrofit.Proofs.Space.Layout
import Retrofit.Proofs.Space.Legal
import Retrofit.Proofs.Space.Positions
import Retrofit.Queue.Basic
import Retrofit.Queue.Entry
import Retrofit.Queue.Submission
import Retrofit.Queue.Worker
import Retrofit.Random.ChaCha
import Retrofit.Random.Draw
import Retrofit.Random.Indices
import Retrofit.Result
import Retrofit.Search.Genetic
import Retrofit.Search.Grid
import Retrofit.Search.Nested
import Retrofit.Search.Nsga2
import Retrofit.Search.Problem
import Retrofit.Search.Separated
import Retrofit.Search.Threads
import Retrofit.Search.Variation
import Retrofit.SearchError
import Retrofit.Service.Settings
import Retrofit.Simulation.Cache
import Retrofit.Simulation.TermModel
import Retrofit.Site
import Retrofit.Solution
import Retrofit.Space.Gene
import Retrofit.Space.SiteSpace
import Retrofit.Space.Space
import Retrofit.Task.Basic
import Retrofit.Task.Id
import Retrofit.Task.Timestamp
import Retrofit.Text.Blank
import Retrofit.Text.Digits
import Retrofit.Totals
