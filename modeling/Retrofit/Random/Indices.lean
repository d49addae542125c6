import Retrofit.Random.Draw

/-!
# Drawing several positions

`indices n k` draws `k` different positions below `n` in random order. Which of three methods is
used depends on `n` and `k` alone: a partial shuffle of all positions when `k` is a large part of
`n`, otherwise insertion into the list of the positions drawn so far (Floyd's method), or, for many
positions out of very many, repeated drawing.
-/

namespace Retrofit.Random

variable {γ : Type} [Source γ]

/-- The next step of Floyd's method with `t` drawn below `j + 1`: of `t` and `j` the one that is new
is added. In the ordered form `j` goes before the equal of `t`, which keeps the order random. -/
def addNew (ordered : Bool) (picked : Array Nat) (j t : Nat) : Array Nat :=
  match picked.idxOf? t with
  | some place => if ordered then picked.insertIdxIfInBounds place j else picked.push j
  | none => picked.push t

/-- The positions from `j` on are offered one by one. -/
def floyd (ordered : Bool) : (count : Nat) → (j : Nat) → Array Nat → Draw γ (Array Nat)
  | 0, _, picked => pure picked
  | count + 1, j, picked => do
    let t ← below32 (j + 1)
    floyd ordered count (j + 1) (addNew ordered picked j t)

/-- Exchanges each of the last places, from the end, with one not behind it. -/
def shuffleDown : (last : Nat) → Array Nat → Draw γ (Array Nat)
  | 0, items => pure items
  | last + 1, items => do
    let t ← below32 (last + 2)
    shuffleDown last (items.swapIfInBounds (last + 1) t)

/-- Exchanges each of the first places with one not before it. -/
def shuffleUp : (count : Nat) → (place : Nat) → Array Nat → Draw γ (Array Nat)
  | 0, _, items => pure items
  | count + 1, place, items => do
    let t ← below32 (items.size - place)
    shuffleUp count (place + 1) (items.swapIfInBounds place (place + t))

/-- Draws positions below `n` until `count` more are found that are new. -/
def drawNew (n : Nat) : (count : Nat) → Array Nat → Draw γ (Array Nat)
  | 0, picked => pure picked
  | count + 1, picked => do
    let fresh w := (scaled? 32 n (fullZone 32 n) w).filter fun t => !picked.contains t
    let t ← untilSome word32 fresh 0 retries
    drawNew n count (picked.push t)

/-- Whether all `n` positions are listed to draw `k` of them. The limits are in single
precision. -/
def listsAll (n k : Nat) : Bool :=
  let size := Float32.ofNat n
  let amount := Float32.ofNat k
  let few := n < 500000
  if k < 163 then
    let limit : Float32 :=
      if few then (10.0 + 1.6 * amount) * amount
      else (70.0 / 9.0 + 8.0 / 45.0 * amount) * amount
    11 < k && size < limit
  else
    let limit : Float32 := if few then 270.0 * amount else 330.0 / 9.0 * amount
    size < limit

/-- Draws `k` different positions below `n`, in random order, for `k ≤ n`. -/
def indices (n k : Nat) : Draw γ (List Nat) :=
  if listsAll n k then do
    let items ← shuffleUp k 0 (Array.range n)
    return (items.toList.take k)
  else if k < 163 then do
    let ordered := k < 50
    let picked ← floyd ordered k (n - k) #[]
    if ordered then return picked.toList
    else
      let shuffled ← shuffleDown (k - 1) picked
      return shuffled.toList
  else do
    let picked ← drawNew n k #[]
    return picked.toList

end Retrofit.Random
