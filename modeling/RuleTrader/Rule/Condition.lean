import RuleTrader.Rule.Vocabulary
import RuleTrader.Value

/-!
# Conditions and rules

A condition is a tree. Its leaves compare a fact with a literal or with another fact, ask whether it
lies in a range, or hold by chance; its inner nodes are conjunction, disjunction and negation. A rule
joins a condition with the action that it leads to. The record of a rule is what rule sets are
written from.
-/

namespace RuleTrader

/-- What a fact is compared with. -/
inductive Operand where
  | literal (v : Value)
  | fact (name : String)
  deriving Repr

/-- A condition on facts. -/
inductive Condition where
  | allOf (conditions : List Condition)
  | anyOf (conditions : List Condition)
  | negation (condition : Condition)
  | comparison (fact : String) (comparator : Comparator) (operand : Operand)
  | range (fact : String) (test : RangeTest) (least greatest : Value)
  /-- Holds with a probability in percent. -/
  | chance (fact : String) (percent : Value)
  /-- Something that is no condition: it never holds and reads nothing. -/
  | unknown
  deriving Repr

instance : Inhabited Condition := ⟨.unknown⟩

/-- The action that a rule leads to, with its parameters. -/
structure Decision where
  action : Action
  parameters : List (String × Value) := []
  deriving Repr

namespace Decision

/-- A parameter of a decision, null when it is missing. -/
def parameter (d : Decision) (name : String) : Value :=
  (Table.get? d.parameters name).getD .null

end Decision

/-- A condition and the decision to take when it holds. The priority is kept and never consulted:
of several rules that apply the first one counts. -/
structure Rule where
  condition : Condition
  decision : Decision
  priority : Number := 1
  deriving Repr

namespace Condition

/-! ## The facts that a condition reads -/

def operandFacts : Operand → List String
  | .literal _ => []
  | .fact name => [name]

mutual

/-- Every fact that a condition reads, in order and with repetitions. -/
def factNames : Condition → List String
  | .allOf cs => factNamesOfList cs
  | .anyOf cs => factNamesOfList cs
  | .negation c => factNames c
  | .comparison fact _ operand => fact :: operandFacts operand
  | .range fact _ _ _ => [fact]
  | .chance _ _ => [Fact.chance]
  | .unknown => []

/-- Every fact that one of the conditions reads. -/
def factNamesOfList : List Condition → List String
  | [] => []
  | c :: cs => factNames c ++ factNamesOfList cs

end

/-! ## The record of a condition -/

/-- The record of an operand: the literal itself, or a record that names a fact. -/
def operandRecord : Operand → Value
  | .literal v => v
  | .fact name => .record [("fact", .text name)]

mutual

/-- The record that writes a condition down; none if a part of it is no condition. -/
def toRecord? : Condition → Option Value
  | .allOf cs => return .record [("all", .list (← toRecords? cs))]
  | .anyOf cs => return .record [("any", .list (← toRecords? cs))]
  | .negation c => return .record [("not", ← toRecord? c)]
  | .comparison fact comparator operand =>
    some (.record [("fact", .text fact), ("operator", .text comparator.name),
      ("value", operandRecord operand)])
  | .range fact test least greatest =>
    some (.record [("fact", .text fact), ("operator", .text test.name),
      ("valueMin", least), ("valueMax", greatest)])
  | .chance fact percent =>
    some (.record [("fact", .text fact), ("operator", .text Fact.chance),
      ("randomProbability", percent)])
  | .unknown => none

def toRecords? : List Condition → Option (List Value)
  | [] => some []
  | c :: cs => return (← toRecord? c) :: (← toRecords? cs)

end

/-! ## Equality -/

def equalOperands : Operand → Operand → Bool
  | .literal v, .literal w => v.equal w
  | .fact a, .fact b => a == b
  | _, _ => false

mutual

/-- Whether two conditions are equal; numbers and literals by their exact values. -/
def equal : Condition → Condition → Bool
  | .allOf cs, d => match d with
    | .allOf ds => equalLists cs ds
    | _ => false
  | .anyOf cs, d => match d with
    | .anyOf ds => equalLists cs ds
    | _ => false
  | .negation c, d => match d with
    | .negation d => equal c d
    | _ => false
  | .comparison f o v, d => match d with
    | .comparison g p w => f == g && o == p && equalOperands v w
    | _ => false
  | .range f t a b, d => match d with
    | .range g u a' b' => f == g && t == u && a.equal a' && b.equal b'
    | _ => false
  | .chance f p, d => match d with
    | .chance g q => f == g && p.equal q
    | _ => false
  | .unknown, d => match d with
    | .unknown => true
    | _ => false

/-- Whether two lists of conditions are equal one by one. -/
def equalLists : List Condition → List Condition → Bool
  | [], ds => ds.isEmpty
  | c :: cs, ds => match ds with
    | [] => false
    | d :: ds => equal c d && equalLists cs ds

end

end Condition

namespace Rule

def toRecord? (r : Rule) : Option Value := do
  return .record [("priority", .number r.priority), ("conditions", ← r.condition.toRecord?),
    ("event", .record [("type", .text r.decision.action.name),
      ("params", .record r.decision.parameters)])]

/-- Whether two rules are equal, the numbers among the parameters by a given equality and all others
by their exact values; parameters may be in any order. -/
def equalBy (eq : Number → Number → Bool) (r s : Rule) : Bool :=
  r.condition.equal s.condition && r.decision.action == s.decision.action
    && (Value.record r.decision.parameters).equalBy eq (.record s.decision.parameters)
    && r.priority.eq s.priority

/-- Whether two rule lists are equal rule by rule. -/
def equalLists (eq : Number → Number → Bool) : List Rule → List Rule → Bool
  | [], [] => true
  | r :: rs, s :: ss => r.equalBy eq s && equalLists eq rs ss
  | _, _ => false

/-- The indicator keys that the rules read, each once, in the order of their first use. Rules are usable
once these are known; rules that ask for too long a period are not. -/
def indicatorKeys (rules : List Rule) : Except NumberFault (List String) := do
  let keys ← Fact.indicatorsAmong (rules.flatMap (·.condition.factNames))
  return keys.foldl (fun seen key => if key ∈ seen then seen else seen ++ [key]) []

end Rule

end RuleTrader
