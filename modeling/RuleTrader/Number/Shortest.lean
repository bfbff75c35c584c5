import RuleTrader.Number.Binary64

/-!
# The fewest digits that read back

The decimal text of a binary64 number has the fewest significant digits for which no other binary64
number is nearer, and among those the digits nearest to the number, a tie going to the even last
digit. The digits are chosen here by exact integer arithmetic; how they are laid out is a
`FloatLayout`, set by each format that writes numbers.
-/

namespace RuleTrader

/-- The decimal number `digits · 10 ^ exponent`. -/
structure Decimal where
  digits : Nat
  exponent : Int
  deriving DecidableEq, Repr

namespace Shortest

/-- A positive rational number as a numerator and a denominator. -/
structure Ratio where
  num : Nat
  den : Nat

/-- The rational number `m · 2 ^ e`. -/
def Ratio.scaled (m : Nat) (e : Int) : Ratio :=
  if 0 ≤ e then ⟨m * twoTo e.toNat, 1⟩ else ⟨m, twoTo (-e).toNat⟩

def Ratio.lt (r s : Ratio) : Bool := r.num * s.den < s.num * r.den

/-- The rational numbers that round to one positive binary64 number. -/
structure Interval where
  value : Ratio
  lower : Ratio
  upper : Ratio
  /-- Whether the two ends round to the number as well. -/
  closed : Bool

/-- The interval of `m · 2 ^ e`; below a power of two the numbers lie twice as close. -/
def interval (m : Nat) (e : Int) : Interval where
  value := .scaled m e
  lower :=
    if m = twoTo Binary64.fractionBits ∧ Binary64.leastExponent < e then .scaled (4 * m - 1) (e - 2)
    else .scaled (2 * m - 1) (e - 1)
  upper := .scaled (2 * m + 1) (e - 1)
  closed := m % 2 = 0

/-- Whether a rational number lies in the interval. -/
def Interval.holds (i : Interval) (r : Ratio) : Bool :=
  if i.closed then !r.lt i.lower && !i.upper.lt r else i.lower.lt r && r.lt i.upper

def Decimal.ratio (d : Decimal) : Ratio :=
  if 0 ≤ d.exponent then ⟨d.digits * tenTo d.exponent.toNat, 1⟩
  else ⟨d.digits, tenTo (-d.exponent).toNat⟩

/-- The exponent of the leading decimal digit of a positive rational number. -/
def leadingExponent (r : Ratio) : Int :=
  let guess : Int := ((r.num.log2 : Int) - r.den.log2) * 30103 / 100000
  -- the guess is at most one off on either side
  let atLeast (k : Int) : Bool := !r.lt (Decimal.ratio ⟨1, k⟩)
  if atLeast (guess + 2) then guess + 2
  else if atLeast (guess + 1) then guess + 1
  else if atLeast guess then guess
  else guess - 1

/-- The greatest integer `n` with `n · 10 ^ exponent ≤ r`. -/
def gridFloor (r : Ratio) (exponent : Int) : Nat :=
  if 0 ≤ exponent then r.num / (r.den * tenTo exponent.toNat)
  else r.num * tenTo (-exponent).toNat / r.den

/-- Whether the value lies nearer to grid point `n + 1` than to `n`; a tie goes to the even one. -/
def prefersNext (r : Ratio) (n : Nat) (exponent : Int) : Bool :=
  let middle : Ratio := Decimal.ratio ⟨2 * n + 1, exponent⟩
  let twice : Ratio := ⟨2 * r.num, r.den⟩
  if middle.lt twice then true
  else if twice.lt middle then false
  else n % 2 = 1

/-- The neighbour of the value on the grid of the exponent that lies in the interval, if any. -/
def candidate? (i : Interval) (exponent : Int) : Option Decimal :=
  let n := gridFloor i.value exponent
  let below : Decimal := ⟨n, exponent⟩
  let above : Decimal := ⟨n + 1, exponent⟩
  let below? := n ≠ 0 ∧ i.holds (Decimal.ratio below)
  let above? := i.holds (Decimal.ratio above)
  if below? then
    if above? && prefersNext i.value n exponent then some above else some below
  else if above? then some above
  else none

/-- The first grid, from the coarsest, with a point in the interval. -/
def search (i : Interval) (exponent : Int) : Nat → Decimal
  | 0 => ⟨gridFloor i.value exponent, exponent⟩
  | fuel + 1 =>
    match candidate? i exponent with
    | some d => d
    | none => search i (exponent - 1) fuel

/-- No binary64 number needs more significant digits than this. -/
def mostDigits : Nat := 17

/-- The shortest decimal of the positive number `m · 2 ^ e`. -/
def decimal (m : Nat) (e : Int) : Decimal :=
  let i := interval m e
  search i (leadingExponent i.value) mostDigits

end Shortest

/-- The decisions of a format that writes binary64 numbers. -/
structure FloatLayout where
  /-- The least exponent of the leading digit that is written without an exponent. -/
  leastPlain : Int := -4
  /-- The first exponent of the leading digit that is written with an exponent again. -/
  firstScientific : Int := 16
  /-- The least number of digits of an exponent. -/
  exponentDigits : Nat := 2
  undefined : String
  infinite : String

namespace FloatLayout

/-- Remove the zeros at the end of a row of digits. -/
def dropEndZeros (ds : List Char) : List Char :=
  (ds.reverse.dropWhile (· = '0')).reverse

/-- The digits `ds` with a leading digit of the given exponent, written without an exponent. -/
def plain (ds : List Char) (leading : Int) : List Char :=
  if leading < 0 then
    '0' :: '.' :: List.replicate (-leading - 1).toNat '0' ++ ds
  else
    let whole := leading.toNat + 1
    if ds.length ≤ whole then ds ++ List.replicate (whole - ds.length) '0' ++ ['.', '0']
    else ds.take whole ++ '.' :: ds.drop whole

/-- The digits `ds` with a leading digit of the given exponent, written with the exponent. -/
def scientific (layout : FloatLayout) (ds : List Char) (leading : Int) : List Char :=
  let power := Nat.toDigits 10 leading.natAbs
  let point := if ds.length ≤ 1 then ds else ds.take 1 ++ '.' :: ds.drop 1
  point ++ 'e' :: (if leading < 0 then '-' else '+')
    :: List.replicate (layout.exponentDigits - power.length) '0' ++ power

def writeDecimal (layout : FloatLayout) (d : Decimal) : List Char :=
  let all := Nat.toDigits 10 d.digits
  let leading : Int := (all.length : Int) - 1 + d.exponent
  let ds := dropEndZeros all
  if layout.leastPlain ≤ leading ∧ leading < layout.firstScientific then plain ds leading
  else layout.scientific ds leading

/-- The text of a binary64 number. -/
def write (layout : FloatLayout) (x : Float) : String :=
  match Binary64.read x with
  | .undefined => layout.undefined
  | .infinite negative => if negative then "-" ++ layout.infinite else layout.infinite
  | .finite d =>
    let magnitude :=
      if d.significand = 0 then ['0', '.', '0']
      else layout.writeDecimal (Shortest.decimal d.significand d.exponent)
    String.ofList (if d.negative then '-' :: magnitude else magnitude)

end FloatLayout

end RuleTrader
