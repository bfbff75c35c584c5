import RuleTrader.Proofs.Rule.Polarity
import RuleTrader.Proofs.Rule.Reads

/-!
# Conditions as Boolean formulas

The evaluator stops early, and some of its leaves can refuse a value. `Condition.truth` does neither: it
gives every condition a truth value by the tables of conjunction, disjunction and negation, and every leaf
by its numbers alone. Over facts whose integers have a binary64 number near to them the evaluator comes to
this truth value, if the condition is `Typed`: the bounds of its ranges and its percentages are numbers.
Nothing is asked of the facts that it reads. They may be missing or of any kind.

* `Condition.Alike` — one condition is the other, rewritten by the laws of Boolean algebra anywhere in it;
* `Condition.Lacks` — a leaf reads something that is missing or null;
* `Facts.Boolean` — evaluation over the facts is Boolean logic, and rules decide by the first that is true.
-/

namespace RuleTrader

/-! ## The truth value of a condition -/

/-- The proper number that a value is, with no regard to its size. -/
def Value.proper? : Value → Option Number
  | .number x => if x.isNaN then none else some x
  | .null | .bool _ | .text _ | .bytes _ | .list _ | .row _ | .record _ => none

/-- The value of a fact, null when it is missing. -/
def Facts.valueOf (facts : Facts) (name : String) : Value := (facts.get? name).getD .null

namespace Condition

/-- Whether a value satisfies a comparison with another one. -/
def compares : Comparator → Value → Value → Bool
  | .equal, left, right => sameValue left right
  | .lessThan, left, right => (left.proper?.bind fun x => right.proper?.map x.lt).getD false
  | .greaterThan, left, right => (left.proper?.bind fun x => right.proper?.map (·.lt x)).getD false
  | .other _, _, _ => false

/-- Whether a value is a proper number on the side of two bounds that a test asks for. -/
def within (test : RangeTest) (least greatest : Value) (v : Value) : Bool :=
  match v.proper?, least.asNumber?, greatest.asNumber? with
  | some x, some a, some b => (a.le x && x.le b) == decide (test = .between)
  | _, _, _ => false

/-- Whether a value is a proper number below a percentage. -/
def belowPercent (percent : Value) (v : Value) : Bool :=
  (v.proper?.bind fun x => percent.asNumber?.map x.lt).getD false

mutual

/-- The truth value of a condition. -/
def truth (facts : Facts) : Condition → Bool
  | .allOf cs => allTrue facts cs
  | .anyOf cs => anyTrue facts cs
  | .negation c => !truth facts c
  | .comparison fact comparator operand =>
    ((facts.known? fact).bind fun left => (operandValue? facts operand).map (compares comparator left)).getD
      false
  | .range fact test least greatest => within test least greatest (facts.valueOf fact)
  | .chance _ percent => belowPercent percent (facts.valueOf Fact.chance)
  | .unknown => false

def allTrue (facts : Facts) : List Condition → Bool
  | [] => true
  | c :: cs => truth facts c && allTrue facts cs

def anyTrue (facts : Facts) : List Condition → Bool
  | [] => false
  | c :: cs => truth facts c || anyTrue facts cs

end

/-- The fields of a condition are of their kinds: bounds and percentages are numbers, and no literal is an
integer without a binary64 number near to it. -/
inductive Typed : Condition → Prop
  | allOf {cs : List Condition} (parts : ∀ c ∈ cs, Typed c) : Typed (.allOf cs)
  | anyOf {cs : List Condition} (parts : ∀ c ∈ cs, Typed c) : Typed (.anyOf cs)
  | negation {c : Condition} (part : Typed c) : Typed (.negation c)
  | comparison {fact : String} {comparator : Comparator} {operand : Operand}
      (literal : ∀ v, operand = .literal v → v.Convertible) : Typed (.comparison fact comparator operand)
  | range {fact : String} {test : RangeTest} {least greatest : Value}
      (lower : least.asNumber?.isSome) (upper : greatest.asNumber?.isSome) :
      Typed (.range fact test least greatest)
  | chance {fact : String} {percent : Value} (number : percent.asNumber?.isSome) :
      Typed (.chance fact percent)
  | unknown : Typed .unknown

variable {facts : Facts} {c d : Condition} {cs ds : List Condition}

/-! ## Leaves -/

theorem properNumber?_eq {v : Value} (h : v.Convertible) : properNumber? v = .ok v.proper? := by
  rcases properNumber?_ok h with ⟨x?, hx⟩
  rw [hx]
  cases v with
  | number x =>
      cases x with
      | int n =>
          cases hfloat : Number.floatOfInt n with
          | error fault =>
              simp [properNumber?, Number.isUndefined, hfloat, bind, Except.bind] at hx
          | ok y =>
              rw [← hx]
              simp [properNumber?, Number.isUndefined, hfloat, Value.proper?, Number.isNaN, bind,
                Except.bind, pure, Except.pure]
      | float x =>
          have hread : properNumber? (.number (.float x)) =
              if x.isNaN then .ok none else .ok (some (.float x)) := rfl
          rw [hread, ← apply_ite Except.ok] at hx
          exact hx.symm
  | null | bool _ | text _ | bytes _ | list _ | row _ | record _ => exact hx.symm

theorem compareNumbers_eq {left right : Value} (hleft : left.Convertible) (hright : right.Convertible)
    {comparator : Comparator} (h : comparator ≠ .equal) :
    compareNumbers comparator left right = .ok (compares comparator left right) := by
  rw [compareNumbers, properNumber?_eq hleft, properNumber?_eq hright]
  cases hx : left.proper? <;> cases hy : right.proper? <;> cases comparator <;>
    first | exact absurd rfl h | simp [compares, inOrder, hx, hy, bind, Except.bind, pure, Except.pure]

theorem holdsComparison_eq (convertible : facts.Convertible) {operand : Operand}
    (literal : ∀ v, operand = .literal v → v.Convertible) (fact : String) (comparator : Comparator) :
    holdsComparison facts fact comparator operand =
      .ok ((Condition.comparison fact comparator operand).truth facts) := by
  rw [holdsComparison, truth]
  cases hleft : facts.known? fact with
  | none => rfl
  | some left =>
      cases hright : operandValue? facts operand with
      | none => rfl
      | some right =>
          have hconvertible : right.Convertible := by
            cases operand with
            | literal v =>
                cases v <;> cases hright <;> exact literal _ rfl
            | fact name => exact known?_convertible convertible hright
          by_cases hequal : comparator = .equal
          · subst hequal
            rfl
          · simpa [hequal] using
              compareNumbers_eq (known?_convertible convertible hleft) hconvertible hequal

theorem toNumber_of_asNumber? {v : Value} {x : Number} (h : v.asNumber? = some x) : v.toNumber = .ok x := by
  rw [Value.toNumber, h]

theorem isBetween_eq {least greatest : Value} {a b : Number} (lower : least.asNumber? = some a)
    (upper : greatest.asNumber? = some b) (x : Number) :
    isBetween least greatest x = .ok (a.le x && x.le b) := by
  cases hleast : a.le x <;>
    simp [isBetween, toNumber_of_asNumber? lower, toNumber_of_asNumber? upper, hleast, bind, Except.bind,
      pure, Except.pure]

theorem holdsRange_eq (convertible : facts.Convertible) {least greatest : Value}
    (lower : least.asNumber?.isSome) (upper : greatest.asNumber?.isSome) (fact : String)
    (test : RangeTest) :
    holdsRange facts fact test least greatest = .ok (within test least greatest (facts.valueOf fact)) := by
  rcases Option.isSome_iff_exists.1 lower with ⟨a, ha⟩
  rcases Option.isSome_iff_exists.1 upper with ⟨b, hb⟩
  rw [holdsRange, properNumber?_eq (fact_convertible convertible fact), within, Facts.valueOf, ha, hb]
  cases ((facts.get? fact).getD .null).proper? with
  | none => rfl
  | some x =>
      by_cases htest : test = .between <;>
        simp [isBetween_eq ha hb, htest, bind, Except.bind, pure, Except.pure]

theorem holdsChance_eq (convertible : facts.Convertible) {percent : Value}
    (number : percent.asNumber?.isSome) :
    holdsChance facts percent = .ok (belowPercent percent (facts.valueOf Fact.chance)) := by
  rcases Option.isSome_iff_exists.1 number with ⟨p, hp⟩
  rw [holdsChance, properNumber?_eq (fact_convertible convertible Fact.chance), belowPercent,
    Facts.valueOf, hp]
  cases ((facts.get? Fact.chance).getD .null).proper? with
  | none => rfl
  | some x => simp [toNumber_of_asNumber? hp, bind, Except.bind, pure, Except.pure]

/-! ## The evaluator comes to the truth value -/

theorem holdAll_eq (h : ∀ c ∈ cs, c.holds facts = .ok (c.truth facts)) :
    holdAll facts cs = .ok (allTrue facts cs) := by
  induction cs with
  | nil => rfl
  | cons c cs ih =>
      rw [List.forall_mem_cons] at h
      rw [holdAll, allTrue, h.1]
      cases c.truth facts with
      | false => rfl
      | true => exact ih h.2

theorem holdAny_eq (h : ∀ c ∈ cs, c.holds facts = .ok (c.truth facts)) :
    holdAny facts cs = .ok (anyTrue facts cs) := by
  induction cs with
  | nil => rfl
  | cons c cs ih =>
      rw [List.forall_mem_cons] at h
      rw [holdAny, anyTrue, h.1]
      cases c.truth facts with
      | false => exact ih h.2
      | true => rfl

/-- A typed condition comes to its truth value. -/
theorem Typed.holds_eq (typed : c.Typed) (convertible : facts.Convertible) :
    c.holds facts = .ok (c.truth facts) := by
  induction typed with
  | allOf parts ih => exact holdAll_eq ih
  | anyOf parts ih => exact holdAny_eq ih
  | negation part ih =>
      rw [holds, ih]
      rfl
  | comparison literal => exact holdsComparison_eq convertible literal _ _
  | range lower upper => exact holdsRange_eq convertible lower upper _ _
  | chance number => exact holdsChance_eq convertible number
  | unknown => rfl

/-! ## Boolean algebra -/

/-- The two ways to join conditions. -/
inductive Junction where
  | all
  | any

namespace Junction

/-- The conditions, joined. -/
def of : Junction → List Condition → Condition
  | .all => .allOf
  | .any => .anyOf

/-- The other way to join. -/
def dual : Junction → Junction
  | .all => .any
  | .any => .all

/-- What conditions come to if each of them comes to it. -/
def unit : Junction → Bool
  | .all => true
  | .any => false

theorem eq_of_unit_iff (j : Junction) {a b : Bool} (h : a = j.unit ↔ b = j.unit) : a = b := by
  cases j <;> cases a <;> cases b <;> simp_all [unit]

@[simp] theorem unit_dual (j : Junction) : j.dual.unit = !j.unit := by cases j <;> rfl

theorem allTrue_iff : allTrue facts cs = true ↔ ∀ c ∈ cs, c.truth facts = true := by
  induction cs with
  | nil => simp [allTrue]
  | cons c cs ih => simp [allTrue, ih]

theorem anyTrue_iff : anyTrue facts cs = false ↔ ∀ c ∈ cs, c.truth facts = false := by
  induction cs with
  | nil => simp [anyTrue]
  | cons c cs ih => simp [anyTrue, ih]

/-- A junction comes to its unit exactly when all its parts do. -/
theorem truth_of (j : Junction) :
    (j.of cs).truth facts = j.unit ↔ ∀ c ∈ cs, c.truth facts = j.unit := by
  cases j with
  | all => exact allTrue_iff
  | any => exact anyTrue_iff

theorem typed_of (j : Junction) : (j.of cs).Typed ↔ ∀ c ∈ cs, c.Typed := by
  cases j with
  | all => exact ⟨fun | .allOf parts => parts, .allOf⟩
  | any => exact ⟨fun | .anyOf parts => parts, .anyOf⟩

end Junction

theorem typed_negation : (Condition.negation c).Typed ↔ c.Typed :=
  ⟨fun | .negation part => part, .negation⟩

/-- One condition is the other, rewritten by laws of Boolean algebra, each of them anywhere in it and as
often as one likes. -/
inductive Alike : Condition → Condition → Prop
  | refl (c : Condition) : Alike c c
  | symm {c d : Condition} (h : Alike c d) : Alike d c
  | trans {c d e : Condition} (first : Alike c d) (second : Alike d e) : Alike c e
  /-- The parts may stand in another order. -/
  | permute (j : Junction) {cs ds : List Condition} (h : cs.Perm ds) : Alike (j.of cs) (j.of ds)
  /-- A part may stand there once more. -/
  | duplicate (j : Junction) {c : Condition} {cs : List Condition} (h : c ∈ cs) :
      Alike (j.of (c :: cs)) (j.of cs)
  /-- The parts of a part may stand in its place. -/
  | flatten (j : Junction) (before inner after : List Condition) :
      Alike (j.of (before ++ j.of inner :: after)) (j.of (before ++ inner ++ after))
  /-- A junction of a single part is the part. -/
  | single (j : Junction) (c : Condition) : Alike (j.of [c]) c
  | deMorgan (j : Junction) (cs : List Condition) :
      Alike (.negation (j.of cs)) (j.dual.of (cs.map .negation))
  | doubleNegation (c : Condition) : Alike (.negation (.negation c)) c
  | part (j : Junction) {c d : Condition} (before after : List Condition) (h : Alike c d) :
      Alike (j.of (before ++ c :: after)) (j.of (before ++ d :: after))
  | negation {c d : Condition} (h : Alike c d) : Alike (.negation c) (.negation d)

/-- What is rewritten stays typed. -/
theorem Alike.typed_iff (h : Alike c d) : c.Typed ↔ d.Typed := by
  induction h with
  | refl c => rfl
  | symm h ih => exact ih.symm
  | trans first second ihFirst ihSecond => exact ihFirst.trans ihSecond
  | permute j h => simp only [j.typed_of, h.mem_iff]
  | duplicate j h =>
      rw [j.typed_of, j.typed_of, List.forall_mem_cons]
      exact ⟨And.right, fun parts => ⟨parts _ h, parts⟩⟩
  | flatten j before inner after =>
      simp only [j.typed_of, List.forall_mem_append, List.forall_mem_cons, and_assoc]
  | single j c => rw [j.typed_of, List.forall_mem_singleton]
  | deMorgan j cs => simp only [typed_negation, j.typed_of, j.dual.typed_of, List.forall_mem_map]
  | doubleNegation c => rw [typed_negation, typed_negation]
  | part j before after h ih =>
      simp only [j.typed_of, List.forall_mem_append, List.forall_mem_cons, ih]
  | negation h ih => rw [typed_negation, typed_negation, ih]

/-- What is rewritten has the same truth value. -/
theorem Alike.truth_eq (h : Alike c d) : c.truth facts = d.truth facts := by
  induction h with
  | refl c => rfl
  | symm h ih => exact ih.symm
  | trans first second ihFirst ihSecond => exact ihFirst.trans ihSecond
  | permute j h => exact j.eq_of_unit_iff (by simp only [j.truth_of, h.mem_iff])
  | duplicate j h =>
      refine j.eq_of_unit_iff ?_
      rw [j.truth_of, j.truth_of, List.forall_mem_cons]
      exact ⟨And.right, fun parts => ⟨parts _ h, parts⟩⟩
  | flatten j before inner after =>
      refine j.eq_of_unit_iff ?_
      simp only [j.truth_of, List.forall_mem_append, List.forall_mem_cons, and_assoc]
  | single j c => exact j.eq_of_unit_iff (by rw [j.truth_of, List.forall_mem_singleton])
  | deMorgan j cs =>
      refine j.dual.eq_of_unit_iff ?_
      rw [j.dual.truth_of, List.forall_mem_map, j.unit_dual]
      simp only [truth, Bool.not_inj_iff, j.truth_of]
  | doubleNegation c => rw [truth, truth, Bool.not_not]
  | part j before after h ih =>
      refine j.eq_of_unit_iff ?_
      simp only [j.truth_of, List.forall_mem_append, List.forall_mem_cons, ih]
  | negation h ih => rw [truth, truth, ih]

/-! ## Leaves that lack what they read -/

def isLeaf : Condition → Bool
  | .comparison .. | .range .. | .chance .. => true
  | .allOf _ | .anyOf _ | .negation _ | .unknown => false

/-- A leaf lacks what it asks about: a fact that it reads is missing or null, or it compares with null. -/
inductive Lacks (facts : Facts) : Condition → Prop
  | fact {c : Condition} {name : String} (leaf : c.isLeaf = true) (reads : c.Reads name)
      (missing : facts.known? name = none) : Lacks facts c
  | reference {fact : String} {comparator : Comparator} :
      Lacks facts (.comparison fact comparator (.literal .null))

theorem valueOf_of_unknown {name : String} (h : facts.known? name = none) :
    facts.valueOf name = .null := by
  unfold Facts.known? at h
  split at h
  · next hget => rw [Facts.valueOf, hget, Option.getD_some]
  · rw [Facts.valueOf, h, Option.getD_none]

theorem holdsComparison_of_no_operand {operand : Operand} (h : operandValue? facts operand = none)
    (fact : String) (comparator : Comparator) :
    holdsComparison facts fact comparator operand = .ok false := by
  rw [holdsComparison, h]
  cases facts.known? fact <;> rfl

/-- Such a leaf does not hold, whatever else it has. -/
theorem Lacks.holds_eq (lacks : c.Lacks facts) : c.holds facts = .ok false := by
  cases lacks with
  | reference => exact holdsComparison_of_no_operand rfl _ _
  | fact leaf reads missing =>
      cases reads with
      | allOf mem part => cases leaf
      | anyOf mem part => cases leaf
      | negation part => cases leaf
      | left => rw [holds, holdsComparison, missing]
      | right =>
          have hoperand : operandValue? facts (.fact _) = none := missing
          exact holdsComparison_of_no_operand hoperand _ _
      | range =>
          have hvalue := valueOf_of_unknown missing
          rw [Facts.valueOf] at hvalue
          rw [holds, holdsRange, hvalue]
          rfl
      | chance =>
          have hvalue := valueOf_of_unknown missing
          rw [Facts.valueOf] at hvalue
          rw [holds, holdsChance, hvalue]
          rfl

/-! ## Ranges and truth values -/

theorem isSome_proper?_iff {name : String} :
    ((facts.valueOf name).proper?.isSome) ↔
      ∃ x, facts.get? name = some (.number x) ∧ x.isNaN = false := by
  rw [Facts.valueOf]
  cases facts.get? name with
  | none => simp [Value.proper?]
  | some v =>
      cases v with
      | number x => cases hx : x.isNaN <;> simp [Value.proper?, hx]
      | _ => simp [Value.proper?]

theorem within_of_not_proper {v : Value} (h : ¬ v.proper?.isSome) (test : RangeTest)
    (least greatest : Value) : within test least greatest v = false := by
  rw [within, Option.not_isSome_iff_eq_none.1 h]

/-- Inside and outside differ exactly on proper numbers. -/
theorem within_complementary_iff {least greatest : Value} (lower : least.asNumber?.isSome)
    (upper : greatest.asNumber?.isSome) {v : Value} :
    within .notBetween least greatest v = !within .between least greatest v ↔ v.proper?.isSome := by
  rcases Option.isSome_iff_exists.1 lower with ⟨a, ha⟩
  rcases Option.isSome_iff_exists.1 upper with ⟨b, hb⟩
  cases hv : v.proper? with
  | none => simp [within, hv]
  | some x => simp [within, ha, hb, hv]

/-- A truth value is equal to itself only. -/
theorem sameValue_bool_iff {left right : Value} (h : (∃ b, left = .bool b) ∨ ∃ b, right = .bool b) :
    sameValue left right = true ↔ ∃ b, left = .bool b ∧ right = .bool b := by
  rcases h with ⟨b, rfl⟩ | ⟨b, rfl⟩
  · cases right with
    | bool b' => simpa [sameValue] using eq_comm
    | _ => simp [sameValue]
  · cases left with
    | bool b' => simpa [sameValue] using eq_comm
    | _ => simp [sameValue]

theorem holds_equal {left right : Value} {fact : String} {operand : Operand}
    (hleft : facts.known? fact = some left) (hright : operandValue? facts operand = some right) :
    (Condition.comparison fact .equal operand).holds facts = .ok (sameValue left right) := by
  rw [holds, holdsComparison, hleft, hright]
  rfl

end Condition

/-! ## The first rule that is true -/

namespace Rule

variable {facts : Facts} {rules : List Rule}

/-- The decision is that of the first rule whose condition is true. -/
theorem decide?_eq (convertible : facts.Convertible) (typed : ∀ r ∈ rules, r.condition.Typed) :
    decide? facts rules = .ok ((rules.find? (·.condition.truth facts)).map (·.decision)) := by
  induction rules with
  | nil => rfl
  | cons r rules ih =>
      rw [List.forall_mem_cons] at typed
      rw [decide?, typed.1.holds_eq convertible, List.find?_cons]
      cases r.condition.truth facts with
      | true => rfl
      | false => exact ih typed.2

/-- Nothing is consulted of a rule but its condition and its decision. -/
theorem decide?_of_same_parts {rules' : List Rule}
    (h : rules'.map (fun r => (r.condition, r.decision)) = rules.map fun r => (r.condition, r.decision)) :
    decide? facts rules' = decide? facts rules := by
  induction rules generalizing rules' with
  | nil => rw [List.map_eq_nil_iff.1 h]
  | cons r rules ih =>
      rcases List.map_eq_cons_iff.1 h with ⟨r', rest, rfl, hfirst, hrest⟩
      rw [decide?, decide?, ih hrest, (Prod.mk.inj hfirst).1, (Prod.mk.inj hfirst).2]

/-- Rules behind a rule that has decided are not asked. -/
theorem decide?_append {d : Decision} (h : decide? facts rules = .ok (some d)) (later : List Rule) :
    decide? facts (rules ++ later) = .ok (some d) := by
  induction rules with
  | nil => cases h
  | cons r rules ih =>
      rw [decide?] at h
      rcases bind_ok h with ⟨b, hb, h⟩
      rw [List.cons_append, decide?, hb]
      cases b with
      | true => exact h
      | false => exact ih h

end Rule

namespace Facts

open Condition

/-- Evaluation over the facts is Boolean logic. -/
structure Boolean (facts : Facts) : Prop where
  /-- A typed condition comes to its truth value. -/
  evaluates : ∀ c : Condition, c.Typed → c.holds facts = .ok (c.truth facts)
  /-- Boolean algebra changes nothing. -/
  rewrites : ∀ c d : Condition, c.Alike d → c.Typed → d.Typed ∧ d.holds facts = c.holds facts
  /-- A leaf that lacks what it asks about does not hold. -/
  lacking : ∀ c : Condition, c.Lacks facts → c.holds facts = .ok false
  /-- The two tests of a range are complementary exactly on a proper number, and both fail elsewhere. -/
  ranges : ∀ (fact : String) (least greatest : Value), least.asNumber?.isSome → greatest.asNumber?.isSome →
    ∃ inside outside, (Condition.range fact .between least greatest).holds facts = .ok inside ∧
      (Condition.range fact .notBetween least greatest).holds facts = .ok outside ∧
      ((outside = !inside) ↔ ∃ x, facts.get? fact = some (.number x) ∧ x.isNaN = false) ∧
      ((¬ ∃ x, facts.get? fact = some (.number x) ∧ x.isNaN = false) → inside = false ∧ outside = false)
  /-- A truth value on either side is equal to the same truth value, and to nothing else. -/
  truthValues : ∀ (fact : String) (operand : Operand) (left right : Value),
    facts.known? fact = some left → operandValue? facts operand = some right →
    ((∃ b, left = .bool b) ∨ ∃ b, right = .bool b) →
    ((Condition.comparison fact .equal operand).holds facts = .ok true ↔
      ∃ b, left = .bool b ∧ right = .bool b)
  /-- The first rule that is true decides. -/
  decides : ∀ rules : List Rule, (∀ r ∈ rules, r.condition.Typed) →
    Rule.decide? facts rules = .ok ((rules.find? (·.condition.truth facts)).map (·.decision))
  /-- There is no decision exactly when no rule is true. -/
  undecided : ∀ rules : List Rule, (∀ r ∈ rules, r.condition.Typed) →
    (Rule.decide? facts rules = .ok none ↔ ∀ r ∈ rules, r.condition.holds facts = .ok false)
  /-- Priorities are not consulted. -/
  priorities : ∀ rules rules' : List Rule,
    rules'.map (fun r => (r.condition, r.decision)) = rules.map (fun r => (r.condition, r.decision)) →
    Rule.decide? facts rules' = Rule.decide? facts rules
  /-- A decision is never changed by later rules, typed or not. -/
  appended : ∀ (rules later : List Rule) (d : Decision), Rule.decide? facts rules = .ok (some d) →
    Rule.decide? facts (rules ++ later) = .ok (some d)

/-- Evaluation is Boolean logic over all facts whose integers have a binary64 number near to them. -/
theorem boolean_of_convertible {facts : Facts} (convertible : facts.Convertible) : facts.Boolean where
  evaluates c typed := typed.holds_eq convertible
  rewrites c d alike typed := by
    have typed' := alike.typed_iff.1 typed
    exact ⟨typed', by rw [typed'.holds_eq convertible, typed.holds_eq convertible, alike.truth_eq]⟩
  lacking c lacks := lacks.holds_eq
  ranges fact least greatest lower upper := by
    refine ⟨_, _, holdsRange_eq convertible lower upper fact .between,
      holdsRange_eq convertible lower upper fact .notBetween, ?_, fun h => ?_⟩
    · rw [within_complementary_iff lower upper, isSome_proper?_iff]
    · rw [← isSome_proper?_iff] at h
      exact ⟨within_of_not_proper h _ _ _, within_of_not_proper h _ _ _⟩
  truthValues fact operand left right hleft hright h := by
    rw [holds_equal hleft hright, ← sameValue_bool_iff h, Except.ok.injEq]
  decides rules typed := Rule.decide?_eq convertible typed
  undecided rules typed := by
    rw [Rule.decide?_eq convertible typed, Except.ok.injEq, Option.map_eq_none_iff, List.find?_eq_none]
    refine forall₂_congr fun r hr => ?_
    rw [(typed r hr).holds_eq convertible, Except.ok.injEq, Bool.not_eq_true]
  priorities rules rules' h := Rule.decide?_of_same_parts h
  appended rules later d h := Rule.decide?_append h later

/-- The price is up from 100, and nobody knows the mood. -/
def halfKnown : Facts := [("isPriceUp", .bool true), ("mood", .null), ("lastPrice", .int 100)]

theorem boolean_of_convertible_halfKnown :
    let up : Condition := .comparison "isPriceUp" .equal (.literal (.bool true))
    let goodMood : Condition := .comparison "mood" .equal (.literal (.bool true))
    halfKnown.Convertible ∧
      (Condition.anyOf [.negation up, .negation goodMood]).holds halfKnown =
        (Condition.negation (.allOf [up, goodMood])).holds halfKnown ∧
      goodMood.holds halfKnown = .ok false ∧
      Rule.decide? halfKnown [⟨.allOf [up, goodMood], ⟨.sell, []⟩, 9⟩, ⟨up, ⟨.buy, []⟩, 1⟩] =
        .ok (some ⟨.buy, []⟩) := by
  intro up goodMood
  have convertible : halfKnown.Convertible := by
    intro name v hv
    simp only [halfKnown, Table.get?] at hv
    split at hv
    · cases hv
      exact Value.convertible_bool true
    · split at hv
      · cases hv
        intro n hn
        cases hn
      · split at hv <;> cases hv
        have finite : (Number.int 100).Finite := rfl
        exact finite.convertible
  have typed : ∀ fact b, (Condition.comparison fact .equal (.literal (.bool b))).Typed :=
    fun fact b => .comparison fun v hv => by
      cases hv
      exact Value.convertible_bool b
  have both : ∀ c ∈ [up, goodMood], c.Typed :=
    List.forall_mem_cons.2 ⟨typed _ _, List.forall_mem_singleton.2 (typed _ _)⟩
  have boolean := boolean_of_convertible convertible
  refine ⟨convertible, ?_, ?_, ?_⟩
  · exact (boolean.rewrites _ _ (.deMorgan .all [up, goodMood]) (.negation (.allOf both))).2
  · exact boolean.lacking goodMood (.fact rfl .left rfl)
  · refine boolean.decides _ ?_
    exact List.forall_mem_cons.2 ⟨.allOf both, List.forall_mem_singleton.2 (typed _ _)⟩

end Facts

end RuleTrader
