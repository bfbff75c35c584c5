import RuleTrader.Random.Twister

/-!
# Sources of random numbers

The two draws that trading needs, a number between `0` and `1` and an integer between two bounds, and
two sources of them: a seeded generator, and a script that repeats given numbers and counts how often
it was asked. A draw gives the source that goes on from there.
-/

namespace RuleTrader

/-- Numbers to be drawn in turn, again and again, and the number of draws so far of each kind. -/
structure Script where
  units : List Float := [0]
  integers : List Int := [0]
  unitDraws : Nat := 0
  integerDraws : Nat := 0
  deriving Repr

/-- A source of random numbers. -/
inductive RandomSource where
  | script (s : Script)
  | seeded (t : Twister)
  deriving Repr

namespace RandomSource

def ofSeed (seed : Int) : RandomSource := .seeded (.ofSeed seed)

/-- The entry of a list at a place, counted around it. -/
def cyclic {α : Type} (xs : List α) (i : Nat) (default : α) : α :=
  xs.getD (i % xs.length) default

/-- Draw a number between `0` and `1`. -/
def unit : RandomSource → Float × RandomSource
  | .script s => (cyclic s.units s.unitDraws 0, .script { s with unitDraws := s.unitDraws + 1 })
  | .seeded t =>
    let (x, t) := t.drawUnit
    (x, .seeded t)

/-- Draw an integer from `low` to `high`. -/
def between (low high : Int) : RandomSource → Int × RandomSource
  | .script s =>
    (low + cyclic s.integers s.integerDraws 0 % (high - low + 1),
      .script { s with integerDraws := s.integerDraws + 1 })
  | .seeded t =>
    let (n, t) := t.drawBetween low high
    (n, .seeded t)

/-- How often each kind was drawn, where that is counted. -/
def draws? : RandomSource → Option (Nat × Nat)
  | .script s => some (s.unitDraws, s.integerDraws)
  | .seeded _ => none

end RandomSource

end RuleTrader
