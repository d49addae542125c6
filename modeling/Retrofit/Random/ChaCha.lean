import Retrofit.Random.Draw

/-!
# The seeded source

Words come from the ChaCha stream cipher with twelve rounds, a 64-bit block counter from zero and a
nonce of zeros. The eight words of the key are made from a 64-bit seed by a permuted congruential
generator.
-/

namespace Retrofit.Random

/-- Four words that a round works on side by side. -/
structure Row where
  a : UInt32
  b : UInt32
  c : UInt32
  d : UInt32

namespace Row

def zipWith (f : UInt32 → UInt32 → UInt32) (x y : Row) : Row :=
  ⟨f x.a y.a, f x.b y.b, f x.c y.c, f x.d y.d⟩

def add (x y : Row) : Row := x.zipWith (· + ·) y

/-- Combines word by word by exclusive or, then rotates each word to the left. -/
def mix (bits : UInt32) (x y : Row) : Row :=
  x.zipWith (fun u v => let w := u ^^^ v; (w <<< bits) ||| (w >>> (32 - bits))) y

def turn (x : Row) : Row := ⟨x.b, x.c, x.d, x.a⟩

def toList (x : Row) : List UInt32 := [x.a, x.b, x.c, x.d]

end Row

/-- The state of a block as a square of words. -/
structure Block where
  first : Row
  second : Row
  third : Row
  fourth : Row

namespace Block

def columns (x : Block) : Block :=
  let a := x.first.add x.second
  let d := x.fourth.mix 16 a
  let c := x.third.add d
  let b := x.second.mix 12 c
  let a := a.add b
  let d := d.mix 8 a
  let c := c.add d
  let b := b.mix 7 c
  ⟨a, b, c, d⟩

/-- A round on the columns, then one on the diagonals. -/
def doubleRound (x : Block) : Block :=
  let x := x.columns
  let y := columns ⟨x.first, x.second.turn, x.third.turn.turn, x.fourth.turn.turn.turn⟩
  ⟨y.first, y.second.turn.turn.turn, y.third.turn.turn, y.fourth.turn⟩

/-- Twelve rounds, added to the block itself. -/
def words (x : Block) : List UInt32 :=
  let y := Nat.repeat doubleRound 6 x
  (x.first.add y.first).toList ++ (x.second.add y.second).toList ++
    (x.third.add y.third).toList ++ (x.fourth.add y.fourth).toList

end Block

/-- A key, the number of the next block, and the words of the last block not yet taken. -/
structure ChaCha where
  low : Row
  high : Row
  counter : UInt64
  ready : List UInt32

namespace ChaCha

def block (s : ChaCha) : Block :=
  { first := ⟨0x61707865, 0x3320646e, 0x79622d32, 0x6b206574⟩
    second := s.low
    third := s.high
    fourth := ⟨s.counter.toUInt32, (s.counter >>> 32).toUInt32, 0, 0⟩ }

def next (s : ChaCha) : UInt32 × ChaCha :=
  match s.ready with
  | word :: rest => (word, { s with ready := rest })
  | [] =>
    match s.block.words with
    | word :: rest => (word, { s with counter := s.counter + 1, ready := rest })
    | [] => (0, s)

instance : Source ChaCha := ⟨next⟩

/-- The state after a step of the generator of key words. -/
def advance (state : UInt64) : UInt64 :=
  state * 6364136223846793005 + 11634580027462260723

def keyWord (state : UInt64) : UInt32 :=
  let word := (((state >>> 18) ^^^ state) >>> 27).toUInt32
  let turn := (state >>> 59).toUInt32
  (word >>> turn) ||| (word <<< ((32 - turn) &&& 31))

def keyRow (state : UInt64) : Row × UInt64 :=
  let a := advance state
  let b := advance a
  let c := advance b
  let d := advance c
  (⟨keyWord a, keyWord b, keyWord c, keyWord d⟩, d)

def ofSeed (seed : Nat) : ChaCha :=
  let (low, state) := keyRow (UInt64.ofNat seed)
  let (high, _) := keyRow state
  { low, high, counter := 0, ready := [] }

end ChaCha

end Retrofit.Random
