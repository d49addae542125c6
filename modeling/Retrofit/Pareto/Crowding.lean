import Retrofit.Pareto.Front

/-!
# Crowding

The crowding distance of a member of a front says how much room it has: on every objective the
distance between its two neighbours, as a part of the range of the front. Members at the ends of an
objective have infinite room, and so do all members of a front of at most two. `leastCrowded` keeps
a given number of solutions with the most room.
-/

namespace Retrofit

/-- The room between the neighbours of every value but the last of an ascending list, given the
value before it. The last value, and nothing else here, has infinite room. -/
def roomAfter (width : Float) (previous : Float) : List (Float × Nat) → List (Nat × Float)
  | [] => []
  | [(_, place)] => [(place, Number.infinity)]
  | (value, place) :: (next, nextPlace) :: rest =>
    let room :=
      if 0.0 < width && width.isFinite then (next - previous) / width else 0.0
    (place, room) :: roomAfter width value ((next, nextPlace) :: rest)

/-- The room of every value of a column. -/
def columnRoom (column : List Amount) : List Float :=
  let sorted := column.zipIdx.mergeSort fun a b => a.1.rank ≤ b.1.rank
  let ascending := sorted.map fun e => (e.1.value, e.2)
  match ascending, ascending.getLast? with
  | (first, place) :: rest, some (last, _) =>
    let room := (place, Number.infinity) :: roomAfter (last - first) first rest
    (room.mergeSort fun a b => a.1 ≤ b.1).map Prod.snd
  | _, _ => []

/-- The crowding distance of every row. The first row says how many columns there are. -/
def crowding (rows : List (List Amount)) : List Float :=
  if rows.length ≤ 2 then rows.map fun _ => Number.infinity
  else
    let columns := List.range (rows.headD []).length
    columns.foldl
      (fun distances c =>
        distances.zipWith (· + ·) (columnRoom (rows.map fun row => row.getD c 0)))
      (rows.map fun _ => 0.0)

/-- The solutions with the greatest crowding distances, in their old order. -/
def leastCrowded (objectives : List Objective) (limit : Nat) (solutions : List PortfolioSolution) :
    List PortfolioSolution :=
  if solutions.length ≤ limit then solutions
  else
    let distances := crowding (solutions.map (·.costs objectives))
    let roomiest := (solutions.zip distances).zipIdx.mergeSort fun a b =>
      Number.rank b.1.2 ≤ Number.rank a.1.2
    ((roomiest.take limit).mergeSort fun a b => a.2 ≤ b.2).map (·.1.1)

end Retrofit
