import RuleTrader.Rule.Condition

/-!
# Reading one rule

A rule is read from a record. Whatever the vocabulary does not cover makes a condition, and with it
its group or the whole rule, be left out; a group that is left without conditions is left out as
well. Two things stop the reading instead: a number that is too large to be looked at, and a condition
nested too deeply.
-/

namespace RuleTrader

/-- Why the reading of a condition stops. -/
inductive ConditionFault where
  | number (fault : NumberFault)
  | nestedTooDeeply
  deriving DecidableEq, Repr

namespace Rule

/-! ## Leaves -/

/-- The number that a value is, if it is finite; a truth value is none. -/
def finiteNumber? : Value → Except NumberFault (Option Number)
  | .number x => do
    if ← x.isFinite then return some x else return none
  | _ => .ok none

/-- The name of an allowed fact that a value is. -/
def allowedFact? : Value → Except NumberFault (Option String)
  | .text s => do
    if ← Fact.isAllowed s then return some s else return none
  | _ => .ok none

/-- A fact, or a number that a text writes. -/
def readTextOperand (s : String) : Except NumberFault (Option Operand) := do
  if ← Fact.isAllowed s then return some (.fact s)
  else
    match Number.readFloat? s with
    | some x => return if Binary64.isFinite x then some (.literal (.float x)) else none
    | none => return none

/-- What a fact is compared with; truth values are for equality only. -/
def readOperand (comparator : Comparator) : Value → Except NumberFault (Option Operand)
  | .bool b => .ok (if comparator = .equal then some (.literal (.bool b)) else none)
  | .number x => do
    return (← finiteNumber? (.number x)).map fun y => .literal (.number y)
  | .text s => readTextOperand s
  | .record fields => do
    return (← allowedFact? ((Value.record fields).field "fact")).map Operand.fact
  | _ => .ok none

/-- The bounds of a range: two fields of the leaf, or two fields of its value. -/
def rangeBounds (leaf : Value) : Value × Value :=
  match leaf.field "valueMin", leaf.field "valueMax", leaf.field "value" with
  | .null, _, .record fields => ((Value.record fields).field "min", (Value.record fields).field "max")
  | _, .null, .record fields => ((Value.record fields).field "min", (Value.record fields).field "max")
  | least, greatest, _ => (least, greatest)

def readRange (fact : String) (test : RangeTest) (leaf : Value) :
    Except NumberFault (Option Condition) := do
  let (least, greatest) := rangeBounds leaf
  match ← finiteNumber? least with
  | none => return none
  | some a =>
    match ← finiteNumber? greatest with
    | none => return none
    | some b => return some (.range fact test (.number a) (.number b))

/-- Read a condition that holds by chance, from `0` to `100` percent. -/
def readChance (fact : String) (leaf : Value) : Except NumberFault (Option Condition) := do
  match ← finiteNumber? (leaf.field "randomProbability") with
  | none => return none
  | some p => return if p.lt 0 || Number.lt 100 p then none else some (.chance fact (.number p))

def readComparison (fact : String) (comparator : Comparator) (leaf : Value) :
    Except NumberFault (Option Condition) := do
  return (← readOperand comparator (leaf.field "value")).map (.comparison fact comparator ·)

/-- Read the part of a leaf that its operator governs. -/
def readOperator (fact operator : String) (leaf : Value) : Except NumberFault (Option Condition) :=
  match RangeTest.ofName? operator, Comparator.ofName? operator with
  | some test, _ => readRange fact test leaf
  | none, some comparator => readComparison fact comparator leaf
  | none, none => if operator = Fact.chance then readChance fact leaf else .ok none

def readLeaf (leaf : Value) : Except NumberFault (Option Condition) := do
  match ← allowedFact? (leaf.field "fact") with
  | none => return none
  | some fact =>
    match leaf.field "operator" with
    | .text operator => readOperator fact operator leaf
    | _ => return none

/-! ## Groups -/

/-- Whether a record is a leaf and not a group. -/
def isLeaf (v : Value) : Bool :=
  (v.field? "fact").isSome || (v.field? "operator").isSome

/-- A group of the conditions that could be read, if there are any. -/
def groupOf (make : List Condition → Condition) (found : List (Option Condition)) :
    Option Condition :=
  match found.filterMap id with
  | [] => none
  | cs => some (make cs)

/-- Read each item by `item`, from the first to the last. -/
def readEach (item : Value → Except ConditionFault (Option Condition)) :
    List Value → Except ConditionFault (List (Option Condition))
  | [] => .ok []
  | v :: vs => do return (← item v) :: (← readEach item vs)

/-- The reading of a node inside a group: a leaf, or what `group` reads. -/
def readNode (group : Value → Except ConditionFault (Option Condition)) (v : Value) :
    Except ConditionFault (Option Condition) :=
  match v with
  | .record _ => if isLeaf v then (readLeaf v).mapError .number else group v
  | _ => .ok none

/-- Read a group. The allowance is what nesting may use up: a list of conditions takes five of it, a
single negated condition two. -/
def readGroup : Nat → Value → Except ConditionFault (Option Condition)
  | allowance + 5, v => do
    match v.field "all", v.field "any", v.field? "not" with
    | .list items, _, _ => return groupOf .allOf (← readEach (readNode (readGroup allowance)) items)
    | _, .list items, _ => return groupOf .anyOf (← readEach (readNode (readGroup allowance)) items)
    | _, _, some (.list items) =>
      return groupOf (fun cs => .negation (.allOf cs))
        (← readEach (readNode (readGroup allowance)) items)
    | _, _, some inner => return (← readNode (readGroup (allowance + 3)) inner).map .negation
    | _, _, none => return none
  | _, _ => .error .nestedTooDeeply

/-- What the nesting of one rule may use up. -/
def nestingAllowance : Nat := 1000

/-! ## Rules -/

def readDecision (v : Value) : Option Decision :=
  match v.field "type" with
  | .text s => do
    let action ← Action.ofName? s
    match v.field "params" with
    | .record fields => return ⟨action, fields⟩
    | _ => return ⟨action, []⟩
  | _ => none

/-- What became of a rule that was read. -/
inductive Reading where
  | kept (rule : Rule)
  | leftOut
  /-- The rule was left out because its condition is nested too deeply. -/
  | tooDeep
  deriving Repr

namespace Reading

def rule? : Reading → Option Rule
  | .kept rule => some rule
  | .leftOut | .tooDeep => none

end Reading

/-- Read the priority of a rule, `1` unless it is a finite number. -/
def readPriority (v : Value) : Except NumberFault Number := do
  return (← finiteNumber? v).getD 1

def readWith (condition? : Option Condition) (v : Value) : Except NumberFault Reading :=
  match condition?, readDecision (v.field "event") with
  | some condition, some decision => do
    return .kept ⟨condition, decision, ← readPriority (v.field "priority")⟩
  | _, _ => .ok .leftOut

def read (v : Value) : Except NumberFault Reading :=
  match v with
  | .record _ =>
    match readGroup nestingAllowance (v.field "conditions") with
    | .error .nestedTooDeeply => .ok .tooDeep
    | .error (.number fault) => .error fault
    | .ok condition? => readWith condition? v
  | _ => .ok .leftOut

end Rule

end RuleTrader
