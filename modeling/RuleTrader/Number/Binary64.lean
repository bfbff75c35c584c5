/-!
# Binary64 numbers read exactly

A finite `Float` is a dyadic rational. This module reads that rational off its bits, compares it
exactly with an integer, takes its floor and its integer part, and rounds a quotient of two
integers to the nearest `Float`, ties to even. Nothing here depends on the floating point
operations themselves: every definition is integer arithmetic on the sign, the significand and
the exponent, scaled by powers of two and of ten.
-/

namespace RuleTrader

/-! ## Powers of two and of ten -/

/-- `2 · 2 · … · 2`, so many times. -/
def twoTo (n : Nat) : Nat := Nat.pow 2 n

/-- `10 · 10 · … · 10`, so many times. -/
def tenTo (n : Nat) : Nat := Nat.pow 10 n

theorem twoTo_succ (n : Nat) : twoTo (n + 1) = twoTo n * 2 := rfl

theorem twoTo_pos (n : Nat) : 0 < twoTo n := by
  induction n with
  | zero => exact Nat.zero_lt_one
  | succ n ih =>
      rw [twoTo_succ]
      exact Nat.mul_pos ih Nat.zero_lt_two

theorem tenTo_succ (n : Nat) : tenTo (n + 1) = tenTo n * 10 := rfl

theorem tenTo_pos (n : Nat) : 0 < tenTo n := by
  induction n with
  | zero => exact Nat.zero_lt_one
  | succ n ih =>
      rw [tenTo_succ]
      exact Nat.mul_pos ih (Nat.succ_pos 9)

/-! ## Dyadic numbers -/

/-- The rational number `± significand · 2 ^ exponent`. -/
structure Dyadic where
  negative : Bool
  significand : Nat
  exponent : Int
  deriving DecidableEq, Repr

namespace Dyadic

def signed (d : Dyadic) : Int :=
  if d.negative then -(d.significand : Int) else d.significand

/-- The greatest integer that is at most `d`. -/
def floor (d : Dyadic) : Int :=
  if 0 ≤ d.exponent then d.signed * twoTo d.exponent.toNat
  else d.signed / twoTo (-d.exponent).toNat

/-- The integer part of `d`, toward zero. -/
def truncate (d : Dyadic) : Int :=
  if 0 ≤ d.exponent then d.signed * twoTo d.exponent.toNat
  else d.signed.tdiv (twoTo (-d.exponent).toNat)

/-- The order of `d` and the integer `n`, without rounding either. -/
def compareInt (d : Dyadic) (n : Int) : Ordering :=
  if 0 ≤ d.exponent then compare (d.signed * twoTo d.exponent.toNat) n
  else compare d.signed (n * twoTo (-d.exponent).toNat)

/-- What is left of `d` when as many whole `e` as fit are taken away, with the sign of `d`. -/
def remainder (d e : Dyadic) : Dyadic :=
  let last := min d.exponent e.exponent
  ⟨d.negative,
    d.significand * twoTo (d.exponent - last).toNat % (e.significand * twoTo (e.exponent - last).toNat),
    last⟩

end Dyadic

/-- What a `Float` stands for. -/
inductive FloatReading where
  | finite (value : Dyadic)
  | infinite (negative : Bool)
  | undefined
  deriving DecidableEq, Repr

namespace Binary64

def fractionBits : Nat := 52

/-- The exponent of the last place of the smallest numbers. -/
def leastExponent : Int := -1074

/-- The bits of positive infinity: the first pattern past the finite numbers. -/
def infinityBits : Nat := 0x7FF0000000000000

def signBit : Nat := 0x8000000000000000

/-- Read a `Float` off its bits. -/
def read (x : Float) : FloatReading :=
  let bits := x.toBits.toNat
  let negative := signBit ≤ bits
  let fraction := bits % twoTo fractionBits
  let field := bits / twoTo fractionBits % 2048
  if field = 2047 then
    if fraction = 0 then .infinite negative else .undefined
  else if field = 0 then
    .finite ⟨negative, fraction, leastExponent⟩
  else
    .finite ⟨negative, fraction + twoTo fractionBits, (field : Int) - 1 + leastExponent⟩

def isFinite (x : Float) : Bool :=
  match read x with
  | .finite _ => true
  | _ => false

/-- `num / den` to the nearest integer, a half to the even neighbour. -/
def roundQuotient (num den : Nat) : Nat :=
  let q := num / den
  let twice := 2 * (num % den)
  if twice < den then q
  else if den < twice then q + 1
  else if q % 2 = 0 then q else q + 1

/-- The exponent of the last place kept when the quotient `num / den` is rounded. -/
def lastPlace (num den : Nat) : Int :=
  let guess : Int := (num.log2 : Int) - den.log2
  let below : Bool :=
    if 0 ≤ guess then num < den * twoTo guess.toNat else num * twoTo (-guess).toNat < den
  max ((if below then guess - 1 else guess) - fractionBits) leastExponent

/-- The bits of the number nearest to `num / den`, or those of infinity and above when it is too
large. The significand carries into the exponent by itself. -/
def nearestBits (num den : Nat) : Nat :=
  if num = 0 then 0
  else
    let place := lastPlace num den
    let significand :=
      if 0 ≤ place then roundQuotient num (den * twoTo place.toNat)
      else roundQuotient (num * twoTo (-place).toNat) den
    (place - leastExponent).toNat * twoTo fractionBits + significand

/-- The `Float` with the given sign and the magnitude bits of a finite number or infinity. -/
def ofMagnitude (negative : Bool) (bits : Nat) : Float :=
  Float.ofBits (UInt64.ofNat (if negative then bits + signBit else bits))

/-- The `Float` nearest to `± num / den`, or nothing when that is too large. -/
def nearest? (negative : Bool) (num den : Nat) : Option Float :=
  let bits := nearestBits num den
  if bits < infinityBits then some (ofMagnitude negative bits) else none

/-- The `Float` nearest to `± num / den`, an infinity when that is too large. -/
def nearest (negative : Bool) (num den : Nat) : Float :=
  ofMagnitude negative (min (nearestBits num den) infinityBits)

/-- The `Float` nearest to an integer, or nothing when that is too large. -/
def ofInt? (n : Int) : Option Float :=
  nearest? (n < 0) n.natAbs 1

def isNegative (x : Float) : Bool := signBit ≤ x.toBits.toNat

end Binary64

/-- The `Float` nearest to `d`. -/
def Dyadic.toFloat (d : Dyadic) : Float :=
  if 0 ≤ d.exponent then Binary64.nearest d.negative (d.significand * twoTo d.exponent.toNat) 1
  else Binary64.nearest d.negative d.significand (twoTo (-d.exponent).toNat)

end RuleTrader
