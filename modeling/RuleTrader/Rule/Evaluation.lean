import RuleTrader.Rule.Condition

/-!
# Evaluation of conditions

Whether a condition holds of a table of facts. A leaf whose facts are missing, null or of the wrong
kind does not hold. Truth values are equal to truth values only; numbers compare by their exact
values, but a range or an order asks first whether the fact is a proper number, and an integer that
no binary64 number can hold is refused there. Conjunction and disjunction stop at the first part that
decides them.
-/

namespace RuleTrader

/-- The facts that rules are evaluated over. -/
abbrev Facts := Table String Value

namespace Facts

/-- The value of a fact that is there and not null. -/
def known? (facts : Facts) (name : String) : Option Value :=
  match facts.get? name with
  | some .null => none
  | other => other

end Facts

namespace Condition

/-- The proper number that a value is: a number, not a truth value, and defined. -/
def properNumber? : Value → Except NumberFault (Option Number)
  | .number x => do
    if ← x.isUndefined then return none else return some x
  | _ => .ok none

/-- The value of an operand that is there and not null. -/
def operandValue? (facts : Facts) : Operand → Option Value
  | .literal .null => none
  | .literal v => some v
  | .fact name => facts.known? name

def sameValue (left right : Value) : Bool :=
  match left, right with
  | .bool a, .bool b => a == b
  | .bool _, _ => false
  | _, .bool _ => false
  | left, right => left.equal right

def inOrder (comparator : Comparator) (left right : Number) : Bool :=
  match comparator with
  | .lessThan => left.lt right
  | .greaterThan => right.lt left
  | .equal | .other _ => false

/-- Whether two values stand in the order that a comparison asks for. -/
def compareNumbers (comparator : Comparator) (left right : Value) : Except NumberFault Bool := do
  match ← properNumber? left with
  | none => return false
  | some x =>
    match ← properNumber? right with
    | none => return false
    | some y => return inOrder comparator x y

def holdsComparison (facts : Facts) (fact : String) (comparator : Comparator) (operand : Operand) :
    Except NumberFault Bool :=
  match facts.known? fact, operandValue? facts operand with
  | some left, some right =>
    if comparator = .equal then .ok (sameValue left right)
    else compareNumbers comparator left right
  | _, _ => .ok false

/-- Whether a number lies between two bounds. The upper bound is looked at only if the lower one
holds; a bound that is no number is refused. -/
def isBetween (least greatest : Value) (x : Number) : Except NumberFault Bool := do
  if (← least.toNumber).le x then return x.le (← greatest.toNumber) else return false

/-- Whether a fact lies in a range, or outside of it for any test but `between`. -/
def holdsRange (facts : Facts) (fact : String) (test : RangeTest) (least greatest : Value) :
    Except NumberFault Bool := do
  match ← properNumber? ((facts.get? fact).getD .null) with
  | none => return false
  | some x =>
    let inside ← isBetween least greatest x
    return if test = .between then inside else !inside

/-- Whether the chance that was drawn is below a percentage. -/
def holdsChance (facts : Facts) (percent : Value) : Except NumberFault Bool := do
  match ← properNumber? ((facts.get? Fact.chance).getD .null) with
  | none => return false
  | some x => return x.lt (← percent.toNumber)

mutual

def holds (facts : Facts) : Condition → Except NumberFault Bool
  | .allOf cs => holdAll facts cs
  | .anyOf cs => holdAny facts cs
  | .negation c => (!·) <$> holds facts c
  | .comparison fact comparator operand => holdsComparison facts fact comparator operand
  | .range fact test least greatest => holdsRange facts fact test least greatest
  | .chance _ percent => holdsChance facts percent
  | .unknown => .ok false

/-- Whether every condition holds, up to the first that does not. -/
def holdAll (facts : Facts) : List Condition → Except NumberFault Bool
  | [] => .ok true
  | c :: cs => do
    if ← holds facts c then holdAll facts cs else return false

/-- Whether some condition holds, up to the first that does. -/
def holdAny (facts : Facts) : List Condition → Except NumberFault Bool
  | [] => .ok false
  | c :: cs => do
    if ← holds facts c then return true else holdAny facts cs

end

end Condition

namespace Rule

/-- The decision of the first rule whose condition holds. -/
def decide? (facts : Facts) : List Rule → Except NumberFault (Option Decision)
  | [] => .ok none
  | r :: rs => do
    if ← r.condition.holds facts then return some r.decision else decide? facts rs

end Rule

end RuleTrader
