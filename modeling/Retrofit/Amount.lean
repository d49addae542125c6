import Retrofit.Number

/-!
# Amounts

Measurements, metrics and costs are amounts: doubles that are told apart when they are undefined.
In the total order of amounts (`Amount.rank`) an undefined one stands either below or above all
numbers. What is given as undefined stands above. A calculation without a result, such as
`∞ - ∞`, stands below. A calculation with an undefined operand passes that operand on, and the
negative of an undefined amount stands on the other side. Comparisons with an undefined amount
(`<`, `≤`) are false on either side.
-/

namespace Retrofit

/-- Where an undefined amount stands. -/
inductive Side where
  | below
  | above
deriving DecidableEq

def Side.opposite : Side → Side
  | below => above
  | above => below

inductive Amount where
  | number (x : Float)
  | undefined (side : Side)
deriving DecidableEq

namespace Amount

/-- A double that was given. -/
def ofFloat (x : Float) : Amount :=
  if x.isNaN then undefined .above else number x

/-- A double that came out of a calculation. -/
def ofResult (x : Float) : Amount :=
  if x.isNaN then undefined .below else number x

/-- The amount as a double, which forgets the side. -/
def value : Amount → Float
  | number x => x
  | undefined _ => Number.undefined

def isDefined : Amount → Bool
  | number _ => true
  | undefined _ => false

/-- Calculates with two amounts. Of two undefined ones the first is passed on. -/
def calculate (op : Float → Float → Float) : Amount → Amount → Amount
  | undefined side, _ => undefined side
  | number _, undefined side => undefined side
  | number x, number y => ofResult (op x y)

instance : Zero Amount := ⟨number 0.0⟩
instance : Add Amount := ⟨calculate (· + ·)⟩
instance : Sub Amount := ⟨calculate (· - ·)⟩
instance : Mul Amount := ⟨calculate (· * ·)⟩
instance : Div Amount := ⟨calculate (· / ·)⟩

instance : Neg Amount where
  neg
    | number x => number (-x)
    | undefined side => undefined side.opposite

instance : LT Amount := ⟨fun a b => a.value < b.value⟩
instance : LE Amount := ⟨fun a b => a.value ≤ b.value⟩

instance : DecidableLT Amount := fun a b => inferInstanceAs (Decidable (a.value < b.value))
instance : DecidableLE Amount := fun a b => inferInstanceAs (Decidable (a.value ≤ b.value))

/-- Place of an amount in the total order. -/
def rank : Amount → Int
  | number x => Number.rank x
  | undefined .below => Number.rank (-Number.infinity) - 1
  | undefined .above => Number.rank Number.infinity + 1

end Amount

end Retrofit
