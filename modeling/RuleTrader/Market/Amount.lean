import RuleTrader.Value.Order

/-!
# Amounts

What balances, prices and shares are counted in. A feed that is trusted counts in integers, and then no
operation is ever refused; an unchecked one may put any value in their place, and an operation is refused
where a value is no number. Every amount can be shown as a value. The small laws at the end say that the
operations on integers are the usual ones.
-/

namespace RuleTrader

/-- What balances, prices and shares are counted in. -/
class Amount (α : Type) where
  /-- A whole number as an amount. -/
  ofInt : Int → α
  toValue : α → Value
  add : α → α → Except NumberFault α
  sub : α → α → Except NumberFault α
  mul : α → α → Except NumberFault α

namespace Amount

instance : Amount Int where
  ofInt n := n
  toValue n := .int n
  add a b := .ok (a + b)
  sub a b := .ok (a - b)
  mul a b := .ok (a * b)

/-- An operation on numbers as one on values that count as numbers. -/
def onValues (f : Number → Number → Except NumberFault Number) (v w : Value) :
    Except NumberFault Value := do
  return .number (← f (← v.toNumber) (← w.toNumber))

instance : Amount Value where
  ofInt n := .int n
  toValue v := v
  add := onValues Number.add
  sub := onValues Number.sub
  mul := onValues Number.mul

variable {α : Type} [Amount α]

/-- Whether an amount counts as none. -/
def isZero (a : α) : Bool := (toValue a).isEmpty

/-- Whether there is no amount at all. -/
def isMissing (a : α) : Bool :=
  match toValue a with
  | .null => true
  | _ => false

def toNumber (a : α) : Except NumberFault Number := (toValue a).toNumber

/-- The whole number that an amount is, holds the beginning of, or writes. -/
def whole (a : α) : Except NumberFault Int := (toValue a).toInt

def lt (a b : α) : Except NumberFault Bool := (toValue a).lt (toValue b)

def gt (a b : α) : Except NumberFault Bool := (toValue a).gt (toValue b)

/-- The difference of two amounts, as a number. -/
def difference (a b : α) : Except NumberFault Number := do
  Number.sub (← toNumber a) (← toNumber b)

/-- An amount, raised to a least one if it is not above it. -/
def atLeast (least : Int) (a : α) : Except NumberFault α := do
  if ← gt a (ofInt least) then return a else return ofInt least

/-! ## Integers -/

@[simp] theorem ofInt_int (n : Int) : (ofInt n : Int) = n := rfl

@[simp] theorem add_int (a b : Int) : add a b = .ok (a + b) := rfl

@[simp] theorem sub_int (a b : Int) : sub a b = .ok (a - b) := rfl

@[simp] theorem mul_int (a b : Int) : mul a b = .ok (a * b) := rfl

@[simp] theorem isMissing_int (n : Int) : isMissing n = false := rfl

@[simp] theorem whole_int (n : Int) : whole n = .ok n := rfl

@[simp] theorem toNumber_int (n : Int) : toNumber n = .ok (.int n) := rfl

@[simp] theorem lt_int (a b : Int) : lt a b = .ok (decide (a < b)) :=
  Value.lt_number (.int a) (.int b)

@[simp] theorem gt_int (a b : Int) : gt a b = .ok (decide (b < a)) :=
  Value.gt_number (.int a) (.int b)

@[simp] theorem difference_int (a b : Int) : difference a b = .ok (.int (a - b)) := rfl

theorem atLeast_int (least n : Int) : atLeast least n = .ok (max least n) := by
  simp only [atLeast, gt_int, ofInt_int]
  by_cases h : least < n
  · simp [bind, Except.bind, pure, Except.pure, h, Int.max_eq_right (Int.le_of_lt h)]
  · simp [bind, Except.bind, pure, Except.pure, h, Int.max_eq_left (Int.not_lt.mp h)]

end Amount

end RuleTrader
