import RuleTrader.Proofs.Outcome
import RuleTrader.Rule.Reading

/-!
# What a reading comes to

Reading the condition of a rule goes through its leaves from the first to the last. `groupSites` lists
what it comes to: the leaves, and the places where the nesting is too deep. The reading stops at the
first site with a fault, and it goes through all of them if there is none.

A leaf has a fault when a place that is read as a number holds an integer that no binary64 number is
near enough to, or a place that is read as the name of a fact holds an indicator key whose period has
too many digits. `LeafOverflows` says which places of a leaf these are.
-/

namespace RuleTrader

namespace IndicatorKey

/-- Parameters whose period has more digits than an integer may have. -/
def OverlongParameters (kind : Indicator) (cs : List Char) : Prop :=
  if kind.hasMultiplier then
    ∃ period rest, splitColon? cs = some (period, rest) ∧ (multiplier? rest).isSome = true ∧
      isDigits period = true ∧ digitLimit < period.length
  else isDigits cs = true ∧ digitLimit < cs.length

/-- A key whose period has more digits than an integer may have. -/
def Overlong (key : String) : Prop :=
  ∃ name rest kind, splitColon? (dropLineFeed key.toList) = some (name, rest) ∧
    Indicator.ofName? (String.ofList name) = some kind ∧ OverlongParameters kind rest

theorem readPeriod_fault (ds : List Char) :
    fault? (readPeriod ds) =
      if digitLimit < ds.length then some (.tooManyDigits ds.length) else none := by
  unfold readPeriod
  split <;> rfl

theorem readParameters_fails_iff (kind : Indicator) (cs : List Char) :
    (fault? (readParameters kind cs)).isSome = true ↔ OverlongParameters kind cs := by
  unfold readParameters OverlongParameters
  cases kind.hasMultiplier with
  | false => cases hdigits : isDigits cs <;> simp [readPeriod_fault]
  | true =>
      cases hcolon : splitColon? cs with
      | none => simp
      | some parts =>
          rcases parts with ⟨period, rest⟩
          simp only [if_true]
          -- The period is made a number only when everything else is in order.
          constructor
          · intro h
            refine ⟨period, rest, rfl, ?_⟩
            cases hmultiplier : multiplier? rest with
            | none => simp [hmultiplier] at h
            | some multiplier =>
                cases hdigits : isDigits period with
                | false => simp [hmultiplier, hdigits] at h
                | true => simpa [hmultiplier, hdigits, readPeriod_fault] using h
          · rintro ⟨period', rest', hparts, hmultiplier, hdigits, hlong⟩
            obtain ⟨rfl, rfl⟩ := Prod.mk.inj (Option.some.inj hparts)
            rcases Option.isSome_iff_exists.1 hmultiplier with ⟨multiplier, hmultiplier⟩
            simp [hmultiplier, hdigits, readPeriod_fault, hlong]

theorem read_fails_iff (key : String) : (fault? (read key)).isSome = true ↔ Overlong key := by
  unfold read Overlong
  cases hcolon : splitColon? (dropLineFeed key.toList) with
  | none => simp
  | some parts =>
      rcases parts with ⟨name, rest⟩
      dsimp only
      constructor
      · intro h
        cases hkind : Indicator.ofName? (String.ofList name) with
        | none => simp [hkind] at h
        | some kind =>
            rw [hkind] at h
            exact ⟨name, rest, kind, rfl, hkind, (readParameters_fails_iff kind rest).1 h⟩
      · rintro ⟨name', rest', kind, hparts, hkind, hlong⟩
        obtain ⟨rfl, rfl⟩ := Prod.mk.inj (Option.some.inj hparts)
        rw [hkind]
        exact (readParameters_fails_iff kind rest).2 hlong

/-- A key with parameters has a colon. -/
theorem Overlong.colon_mem {key : String} (h : Overlong key) : ':' ∈ key.toList := by
  rcases h with ⟨name, rest, kind, hcolon, -⟩
  have hmem : ':' ∈ dropLineFeed key.toList := by
    unfold splitColon? at hcolon
    split at hcolon
    · next tail hdrop =>
        have hdropped : ':' ∈ (dropLineFeed key.toList).dropWhile (· ≠ ':') := by
          rw [hdrop]
          exact List.mem_cons_self ..
        exact (List.dropWhile_suffix _).subset hdropped
    · cases hcolon
  unfold dropLineFeed at hmem
  split at hmem
  · exact List.dropLast_subset _ hmem
  · exact hmem

theorem isFact_fails_iff (key : String) : (fault? (isFact key)).isSome = true ↔ Overlong key := by
  unfold isFact
  cases hname : Indicator.ofName? key with
  | none => simpa [isKey] using read_fails_iff key
  | some kind =>
      -- The names of the indicators have no colon.
      have hnone : ¬Overlong key := by
        intro h
        have hkey : kind.name = key := by
          simpa using List.find?_some (show Indicator.all.find? (·.name == key) = some kind from hname)
        have hmem := hkey ▸ h.colon_mem
        cases kind <;> revert hmem <;> decide
      simpa using hnone

end IndicatorKey

theorem Fact.isAllowed_fails_iff (name : String) :
    (fault? (isAllowed name)).isSome = true ↔ IndicatorKey.Overlong name := by
  unfold isAllowed
  split
  · next hplain =>
      have hnone : ¬IndicatorKey.Overlong name := by
        intro h
        have hcolons : ∀ plain ∈ plainNames, ':' ∉ plain.toList := by decide
        exact hcolons name hplain h.colon_mem
      simpa using hnone
  · exact IndicatorKey.isFact_fails_iff name

namespace Rule

/-! ## Leaves -/

/-- A place that is read as a number and holds an integer beyond all binary64 numbers. -/
def NumberOverflows (v : Value) : Prop :=
  ∃ n, v = .number (.int n) ∧ Binary64.ofInt? n = none

/-- A place that is read as the name of a fact and holds a key with an overlong period. -/
def NameOverflows (v : Value) : Prop :=
  ∃ s, v = .text s ∧ IndicatorKey.Overlong s

/-- A place that is read as what a fact is compared with. -/
def OperandOverflows (v : Value) : Prop :=
  NumberOverflows v ∨ NameOverflows v ∨ ∃ fields, v = .record fields ∧ NameOverflows (v.field "fact")

/-- A place that is read as a number and holds a finite one. -/
def HoldsFinite (v : Value) : Prop :=
  ∃ x, finiteNumber? v = .ok (some x)

/-- The places that the operator of a leaf governs. Of a range the second bound is looked at only when
the first one is a number. -/
def OperatorOverflows (operator : String) (leaf : Value) : Prop :=
  match RangeTest.ofName? operator, Comparator.ofName? operator with
  | some _, _ =>
    NumberOverflows (rangeBounds leaf).1 ∨
      (HoldsFinite (rangeBounds leaf).1 ∧ NumberOverflows (rangeBounds leaf).2)
  | none, some _ => OperandOverflows (leaf.field "value")
  | none, none => operator = Fact.chance ∧ NumberOverflows (leaf.field "randomProbability")

/-- A leaf with a place that cannot be looked at. The operator is read only when the fact is allowed. -/
def LeafOverflows (leaf : Value) : Prop :=
  NameOverflows (leaf.field "fact") ∨
    ∃ fact operator, allowedFact? (leaf.field "fact") = .ok (some fact) ∧
      leaf.field "operator" = .text operator ∧ OperatorOverflows operator leaf

theorem finiteNumber?_fails_iff (v : Value) :
    (fault? (finiteNumber? v)).isSome = true ↔ NumberOverflows v := by
  cases v with
  | number x =>
      cases x with
      | int n =>
          cases hn : Binary64.ofInt? n with
          | none =>
              simp [finiteNumber?, Number.isFinite, Number.floatOfInt, hn, NumberOverflows, Functor.map,
                Except.map, bind, Except.bind]
          | some x =>
              simp [finiteNumber?, Number.isFinite, Number.floatOfInt, hn, NumberOverflows, Functor.map,
                Except.map, bind, Except.bind, pure, Except.pure]
      | float x =>
          cases hx : Binary64.isFinite x <;>
            simp [finiteNumber?, Number.isFinite, hx, NumberOverflows, bind, Except.bind]
  | _ => simp [finiteNumber?, NumberOverflows]

theorem allowedFact?_fails_iff (v : Value) :
    (fault? (allowedFact? v)).isSome = true ↔ NameOverflows v := by
  cases v with
  | text s =>
      have hname := Fact.isAllowed_fails_iff s
      have hsame : fault? (allowedFact? (.text s)) = fault? (Fact.isAllowed s) := by
        unfold allowedFact?
        rw [fault?_bind]
        cases Fact.isAllowed s with
        | error fault => rfl
        | ok allowed => cases allowed <;> rfl
      rw [hsame, hname]
      simp [NameOverflows]
  | _ => simp [allowedFact?, NameOverflows]

theorem readTextOperand_fault (s : String) :
    fault? (readTextOperand s) = fault? (Fact.isAllowed s) := by
  unfold readTextOperand
  rw [fault?_bind]
  cases Fact.isAllowed s with
  | error fault => rfl
  | ok allowed =>
      cases allowed with
      | true => rfl
      | false =>
          simp only [fault?_ok]
          cases Number.readFloat? s with
          | none => rfl
          | some x => cases hx : Binary64.isFinite x <;> simp [hx]

theorem readOperand_fails_iff (comparator : Comparator) (v : Value) :
    (fault? (readOperand comparator v)).isSome = true ↔ OperandOverflows v := by
  cases v with
  | number x =>
      have hnumber := finiteNumber?_fails_iff (.number x)
      simpa [readOperand, OperandOverflows, NameOverflows] using hnumber
  | text s =>
      have hname := Fact.isAllowed_fails_iff s
      simpa [readOperand, readTextOperand_fault, OperandOverflows, NumberOverflows, NameOverflows]
        using hname
  | record fields =>
      have hname := allowedFact?_fails_iff ((Value.record fields).field "fact")
      have hrecord : OperandOverflows (.record fields) ↔
          NameOverflows ((Value.record fields).field "fact") := by
        simp [OperandOverflows, NumberOverflows, NameOverflows]
      rw [hrecord, ← hname]
      simp [readOperand]
  | _ => simp [readOperand, OperandOverflows, NumberOverflows, NameOverflows]

theorem readRange_fails_iff (fact : String) (test : RangeTest) (leaf : Value) :
    (fault? (readRange fact test leaf)).isSome = true ↔
      NumberOverflows (rangeBounds leaf).1 ∨
        (HoldsFinite (rangeBounds leaf).1 ∧ NumberOverflows (rangeBounds leaf).2) := by
  have hleast := finiteNumber?_fails_iff (rangeBounds leaf).1
  have hgreatest := finiteNumber?_fails_iff (rangeBounds leaf).2
  unfold readRange
  rcases hbounds : rangeBounds leaf with ⟨least, greatest⟩
  rw [hbounds] at hleast hgreatest
  rw [← hleast, ← hgreatest]
  simp only [fault?_bind, HoldsFinite]
  -- The second bound is looked at only when the first one is a number.
  cases hfirst : finiteNumber? least with
  | error fault => simp
  | ok least? =>
      cases least? with
      | none => simp
      | some a =>
          simp only [fault?_bind]
          cases hsecond : finiteNumber? greatest with
          | error fault => simp
          | ok greatest? => cases greatest? <;> simp

theorem readChance_fails_iff (fact : String) (leaf : Value) :
    (fault? (readChance fact leaf)).isSome = true ↔
      NumberOverflows (leaf.field "randomProbability") := by
  rw [← finiteNumber?_fails_iff]
  unfold readChance
  rw [fault?_bind]
  cases finiteNumber? (leaf.field "randomProbability") with
  | error fault => simp
  | ok percent? => cases percent? <;> simp

theorem readComparison_fails_iff (fact : String) (comparator : Comparator) (leaf : Value) :
    (fault? (readComparison fact comparator leaf)).isSome = true ↔
      OperandOverflows (leaf.field "value") := by
  rw [← readOperand_fails_iff comparator]
  simp [readComparison]

theorem readOperator_fails_iff (fact operator : String) (leaf : Value) :
    (fault? (readOperator fact operator leaf)).isSome = true ↔ OperatorOverflows operator leaf := by
  unfold readOperator OperatorOverflows
  cases RangeTest.ofName? operator with
  | some test => exact readRange_fails_iff fact test leaf
  | none =>
      cases Comparator.ofName? operator with
      | some comparator => exact readComparison_fails_iff fact comparator leaf
      | none =>
          by_cases hchance : operator = Fact.chance
          · simpa [hchance] using readChance_fails_iff fact leaf
          · simp [hchance]

theorem readLeaf_fails_iff (leaf : Value) :
    (fault? (readLeaf leaf)).isSome = true ↔ LeafOverflows leaf := by
  unfold readLeaf LeafOverflows
  rw [fault?_bind, ← allowedFact?_fails_iff]
  cases allowedFact? (leaf.field "fact") with
  | error fault => simp
  | ok fact? =>
      cases fact? with
      | none => simp
      | some fact =>
          cases hoperator : leaf.field "operator" with
          | text operator => simpa using readOperator_fails_iff fact operator leaf
          | _ => simp

/-! ## Groups -/

/-- What reading a condition comes to: a leaf, or a place where the nesting is too deep. -/
inductive Site where
  | leaf (v : Value)
  | tooDeep

/-- The fault that stops the reading at a site. -/
def Site.fault? : Site → Option ConditionFault
  | .leaf v => (RuleTrader.fault? (readLeaf v)).map .number
  | .tooDeep => some .nestedTooDeeply

/-- The sites of a node, when those of a group are known. -/
def nodeSites (group : Value → List Site) (v : Value) : List Site :=
  match v with
  | .record _ => if isLeaf v then [.leaf v] else group v
  | _ => []

/-- The sites of a group in the order in which the reading comes to them. -/
def groupSites : Nat → Value → List Site
  | allowance + 5, v =>
    match v.field "all", v.field "any", v.field? "not" with
    | .list items, _, _ => items.flatMap (nodeSites (groupSites allowance))
    | _, .list items, _ => items.flatMap (nodeSites (groupSites allowance))
    | _, _, some (.list items) => items.flatMap (nodeSites (groupSites allowance))
    | _, _, some inner => nodeSites (groupSites (allowance + 3)) inner
    | _, _, none => []
  | _, _ => [.tooDeep]

theorem readEach_fault {item : Value → Except ConditionFault (Option Condition)}
    {sites : Value → List Site}
    (h : ∀ v, RuleTrader.fault? (item v) = (sites v).findSome? Site.fault?) (items : List Value) :
    RuleTrader.fault? (readEach item items) = (items.flatMap sites).findSome? Site.fault? := by
  induction items with
  | nil => rfl
  | cons v vs ih =>
      have hstep : readEach item (v :: vs) =
          item v >>= fun condition? => (condition? :: ·) <$> readEach item vs := rfl
      rw [List.flatMap_cons, List.findSome?_append, ← h v, ← ih, hstep, fault?_bind]
      cases item v with
      | error fault => rfl
      | ok condition? => simp

theorem readNode_fault {group : Value → Except ConditionFault (Option Condition)}
    {sites : Value → List Site}
    (h : ∀ v, RuleTrader.fault? (group v) = (sites v).findSome? Site.fault?) (v : Value) :
    RuleTrader.fault? (readNode group v) = (nodeSites sites v).findSome? Site.fault? := by
  unfold readNode nodeSites
  cases v with
  | record fields =>
      cases hleaf : isLeaf (.record fields) with
      | false => simpa [hleaf] using h (.record fields)
      | true =>
          simp only [if_true, fault?_mapError, List.findSome?_singleton, Site.fault?]
  | _ => rfl

/-- Reading a group stops at the first site that has a fault. -/
theorem readGroup_fault (allowance : Nat) (v : Value) :
    RuleTrader.fault? (readGroup allowance v) = (groupSites allowance v).findSome? Site.fault? := by
  induction allowance using Nat.strongRecOn generalizing v with
  | ind allowance ih =>
      match allowance with
      -- Too little allowance is a site of its own.
      | 0 | 1 | 2 | 3 | 4 => rfl
      | allowance + 5 =>
          have heach := readEach_fault (readNode_fault (ih allowance (by omega)))
          have hinner := readNode_fault (ih (allowance + 3) (by omega))
          rw [readGroup, groupSites]
          generalize v.field "all" = all, v.field "any" = any, v.field? "not" = negated
          split
          · simp [heach]
          · simp_all
          · simp_all
          · simp_all
          · simp_all

end Rule

end RuleTrader
