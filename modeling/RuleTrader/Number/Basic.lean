import RuleTrader.Number.Binary64
import RuleTrader.Number.Fault

/-!
# Numbers

A number is an integer of any size or a binary64 number. The two kinds are kept apart, and they are
compared by their exact values. Arithmetic on two integers is exact where the result is an integer;
a quotient of two integers is the nearest binary64 number, and a quotient rounded down is an integer;
as soon as a binary64 number takes part, the other operand is first brought to binary64, which fails
for an integer that is too large.
-/

namespace RuleTrader

/-- An integer or a binary64 number. -/
inductive Number where
  | int (n : Int)
  | float (x : Float)
  deriving Repr

instance : Inhabited Number := ⟨.int 0⟩

namespace Number

instance (n : Nat) : OfNat Number n := ⟨.int n⟩

/-! ## Conversions -/

/-- The nearest binary64 number of an integer. -/
def floatOfInt (n : Int) : Except NumberFault Float :=
  match Binary64.ofInt? n with
  | some x => .ok x
  | none => .error .tooLarge

/-- The number as a binary64 number. -/
def toFloat : Number → Except NumberFault Float
  | .int n => floatOfInt n
  | .float x => .ok x

/-- Whether the number is finite; an integer must fit a binary64 number to be asked. -/
def isFinite : Number → Except NumberFault Bool
  | .int n => (fun _ => true) <$> floatOfInt n
  | .float x => .ok (Binary64.isFinite x)

/-- Whether the number is undefined; an integer must fit a binary64 number to be asked. -/
def isUndefined : Number → Except NumberFault Bool
  | .int n => (fun _ => false) <$> floatOfInt n
  | .float x => .ok x.isNaN

/-- The exact value of a binary64 number, refused for the infinities and the undefined number. -/
def exact (x : Float) : Except NumberFault Dyadic :=
  match Binary64.read x with
  | .finite d => .ok d
  | .infinite _ => .error .infinite
  | .undefined => .error .undefined

/-- The greatest integer at most `x`. -/
def floorFloat (x : Float) : Except NumberFault Int :=
  Dyadic.floor <$> exact x

/-- The greatest integer at most the number. -/
def floor : Number → Except NumberFault Int
  | .int n => .ok n
  | .float x => floorFloat x

/-- The integer part of the number, toward zero. -/
def truncate : Number → Except NumberFault Int
  | .int n => .ok n
  | .float x => Dyadic.truncate <$> exact x

/-- An integer in base ten, refused when it has too many digits. -/
def writeInt (n : Int) : Except NumberFault (List Char) :=
  let ds := Nat.toDigits 10 n.natAbs
  if digitLimit < ds.length then .error .tooLongToWrite
  else .ok (if n < 0 then '-' :: ds else ds)

/-! ## Comparison -/

/-- The order of a binary64 number and an integer; none for the undefined number. -/
def compareFloatInt (x : Float) (n : Int) : Option Ordering :=
  match Binary64.read x with
  | .finite d => some (d.compareInt n)
  | .infinite negative => some (if negative then .lt else .gt)
  | .undefined => none

/-- `a < b`, by exact values. -/
def lt : Number → Number → Bool
  | .int a, .int b => a < b
  | .float a, .float b => a < b
  | .float a, .int b => compareFloatInt a b == some .lt
  | .int a, .float b => compareFloatInt b a == some .gt

/-- `a = b`, by exact values. -/
def eq : Number → Number → Bool
  | .int a, .int b => a == b
  | .float a, .float b => a == b
  | .float a, .int b => compareFloatInt a b == some .eq
  | .int a, .float b => compareFloatInt b a == some .eq

def isNaN : Number → Bool
  | .int _ => false
  | .float x => x.isNaN

/-- `a = b`, by exact values, or both undefined. -/
def eqOrUndefined (a b : Number) : Bool :=
  a.eq b || (a.isNaN && b.isNaN)

/-- `a ≤ b`, by exact values. -/
def le (a b : Number) : Bool :=
  a.lt b || a.eq b

/-! ## Arithmetic -/

/-- The nearest binary64 number of the quotient of two integers. -/
def quotient (a b : Int) : Except NumberFault Float :=
  if b = 0 then .error .divisionByZero
  else
    match Binary64.nearest? (decide (a < 0) != decide (b < 0)) a.natAbs b.natAbs with
    | some x => .ok x
    | none => .error .tooLarge

/-- The quotient of two binary64 numbers. -/
def divideFloat (a b : Float) : Except NumberFault Float :=
  if b == 0 then .error .divisionByZero else .ok (a / b)

/-- The quotient of two numbers, a binary64 number. -/
def divide : Number → Number → Except NumberFault Float
  | .int a, .int b => quotient a b
  | a, b => do divideFloat (← a.toFloat) (← b.toFloat)

def add : Number → Number → Except NumberFault Number
  | .int a, .int b => .ok (.int (a + b))
  | a, b => do return .float ((← a.toFloat) + (← b.toFloat))

def mul : Number → Number → Except NumberFault Number
  | .int a, .int b => .ok (.int (a * b))
  | a, b => do return .float ((← a.toFloat) * (← b.toFloat))

def sub : Number → Number → Except NumberFault Number
  | .int a, .int b => .ok (.int (a - b))
  | a, b => do return .float ((← a.toFloat) - (← b.toFloat))

/-- The size of a number, without its sign. -/
def abs : Number → Number
  | .int n => .int n.natAbs
  | .float x => .float x.abs

/-! ## Quotients rounded down -/

/-- What is left of `a` when as many whole `b` as fit are taken away, with the sign of `a`. -/
def remainder (a b : Float) : Float :=
  match Binary64.read a, Binary64.read b with
  | .finite d, .finite e => (d.remainder e).toFloat
  | .finite _, .infinite _ => a
  | _, _ => 0 / 0

/-- The quotient of two binary64 numbers, rounded down: the rest is taken away first, so that what is
divided is nearly a multiple. A quotient of zero has the sign of the exact one. -/
def floorDivideFloat (a b : Float) : Except NumberFault Float :=
  if b == 0 then .error .divisionByZero
  else
    let rest := remainder a b
    let whole := (a - rest) / b
    let whole := if rest != 0 && decide (b < 0) != decide (rest < 0) then whole - 1 else whole
    if whole == 0 then .ok (Binary64.ofMagnitude (Binary64.isNegative (a / b)) 0)
    else if whole - whole.floor > 0.5 then .ok (whole.floor + 1)
    else .ok whole.floor

def floorDivide : Number → Number → Except NumberFault Number
  | .int a, .int b => if b = 0 then .error .divisionByZero else .ok (.int (a.fdiv b))
  | a, b => do .float <$> floorDivideFloat (← a.toFloat) (← b.toFloat)

end Number

end RuleTrader
