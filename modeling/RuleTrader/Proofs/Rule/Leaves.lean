import RuleTrader.Proofs.Outcome
import RuleTrader.Proofs.Rule.Grammar

/-!
# The leaves that are read

Reading a leaf either stops at a number, or it gives a condition exactly when the grammar says so, and
then a sound one. `Finds` says this of one function of the reader, and the functions above it use
nothing else of it.
-/

namespace RuleTrader

/-- A step that looks for something: when nothing stops it, it finds something if and only if something
is `there`, and what it finds is `Good`. -/
structure Finds {ε α : Type} (result : Except ε (Option α)) (there : Prop) (Good : α → Prop) : Prop where
  isSome_iff : ∀ {found : Option α}, result = .ok found → (found.isSome = true ↔ there)
  good : ∀ {a : α}, result = .ok (some a) → Good a

namespace Finds

variable {ε α β : Type} {result : Except ε (Option α)} {there : Prop} {Good : α → Prop}

theorem stopped {fault : ε} : Finds (.error fault) there Good := by
  refine ⟨?_, ?_⟩
  · intro found hfound
    cases hfound
  · intro a ha
    cases ha

theorem nothing (h : ¬there) : Finds (.ok none : Except ε (Option α)) there Good := by
  refine ⟨?_, ?_⟩
  · intro found hfound
    cases hfound
    simpa using h
  · intro a ha
    cases ha

theorem found {a : α} (h : there) (good : Good a) :
    Finds (.ok (some a) : Except ε (Option α)) there Good := by
  refine ⟨?_, ?_⟩
  · intro found hfound
    cases hfound
    simpa using h
  · intro b hb
    cases hb
    exact good

theorem of_none (h : Finds result there Good) (hresult : result = .ok none) : ¬there := by
  intro hthere
  have hsome := (h.isSome_iff hresult).2 hthere
  cases hsome

theorem of_some (h : Finds result there Good) {a : α} (hresult : result = .ok (some a)) :
    there ∧ Good a :=
  ⟨(h.isSome_iff hresult).1 rfl, h.good hresult⟩

theorem map {Good' : β → Prop} (h : Finds result there Good) (f : α → β)
    (hf : ∀ a, Good a → Good' (f a)) :
    Finds (result >>= fun found => pure (found.map f)) there Good' := by
  cases hresult : result with
  | error fault => exact stopped
  | ok found? =>
      cases found? with
      | none => exact nothing (h.of_none hresult)
      | some a =>
          have hsome := h.of_some hresult
          exact found hsome.1 (hf a hsome.2)

theorem imp {Good' : α → Prop} (h : Finds result there Good) (hgood : ∀ a, Good a → Good' a) :
    Finds result there Good' :=
  ⟨h.isSome_iff, fun ha => hgood _ (h.good ha)⟩

theorem mapError {ε' : Type} (h : Finds result there Good) (f : ε → ε') :
    Finds (result.mapError f) there Good := by
  cases hresult : result with
  | error fault => exact stopped
  | ok found? =>
      rw [hresult] at h
      exact ⟨fun hfound => h.isSome_iff (congrArg Except.ok (Except.ok.inj hfound)),
        fun ha => h.good (congrArg Except.ok (Except.ok.inj ha))⟩

end Finds

/-! ## Finite numbers -/

theorem Number.Finite.read {x : Float} (h : Finite (.float x)) : ∃ d, Binary64.read x = .finite d := by
  have hfinite : Binary64.isFinite x = true := Except.ok.inj h
  unfold Binary64.isFinite at hfinite
  split at hfinite
  · exact ⟨_, ‹_›⟩
  · cases hfinite

/-- A finite number and a whole number are in order one way or the other. -/
theorem Number.Finite.not_lt_iff {x : Number} {n : Int} (h : x.Finite) :
    x.lt (.int n) = false ↔ le (.int n) x = true := by
  cases x with
  | int m =>
      simp [Number.le, Number.lt, Number.eq]
      omega
  | float x =>
      rcases h.read with ⟨d, hd⟩
      cases hcompare : d.compareInt n <;>
        simp [Number.le, Number.lt, Number.eq, compareFloatInt, hd, hcompare]

theorem Number.Finite.not_gt_iff {x : Number} {n : Int} (h : x.Finite) :
    lt (.int n) x = false ↔ x.le (.int n) = true := by
  cases x with
  | int m =>
      simp [Number.le, Number.lt, Number.eq]
      omega
  | float x =>
      rcases h.read with ⟨d, hd⟩
      cases hcompare : d.compareInt n <;>
        simp [Number.le, Number.lt, Number.eq, compareFloatInt, hd, hcompare]

/-! ## Names of the vocabulary -/

theorem RangeTest.ofName?_eq_some {s : String} {test : RangeTest} (h : ofName? s = some test) :
    test ∈ all ∧ test.name = s :=
  ⟨List.mem_of_find?_eq_some h, by simpa using List.find?_some h⟩

theorem RangeTest.ofName?_eq_none {s : String} (h : ofName? s = none) : ∀ test ∈ all, test.name ≠ s := by
  simpa [ofName?] using h

theorem Comparator.ofName?_eq_some {s : String} {comparator : Comparator}
    (h : ofName? s = some comparator) : comparator ∈ all ∧ comparator.name = s :=
  ⟨List.mem_of_find?_eq_some h, by simpa using List.find?_some h⟩

theorem Comparator.ofName?_eq_none {s : String} (h : ofName? s = none) :
    ∀ comparator ∈ all, comparator.name ≠ s := by
  simpa [ofName?] using h

theorem Comparator.name_injOn {a b : Comparator} (ha : a ∈ all) (hb : b ∈ all) (h : a.name = b.name) :
    a = b := by
  have hall : ∀ a ∈ all, ∀ b ∈ all, a.name = b.name → a = b := by decide
  exact hall a ha b hb h

namespace Rule

/-! ## Leaves -/

theorem finiteNumber?_finds (v : Value) :
    Finds (finiteNumber? v) (HoldsNumber v) (fun x => v = .number x ∧ x.Finite) := by
  cases v with
  | number x =>
      have hread : finiteNumber? (.number x) =
          x.isFinite >>= fun finite => if finite = true then pure (some x) else pure none := rfl
      rw [hread]
      cases hx : x.isFinite with
      | error fault => exact .stopped
      | ok finite =>
          cases finite with
          | true => exact .found ⟨x, rfl, hx⟩ ⟨rfl, hx⟩
          | false =>
              refine .nothing ?_
              rintro ⟨y, hy, hfinite⟩
              cases hy
              rw [Number.Finite, hx] at hfinite
              cases hfinite
  | _ =>
      refine .nothing ?_
      rintro ⟨x, hx, -⟩
      cases hx

theorem allowedFact?_finds (v : Value) :
    Finds (allowedFact? v) (NamesFact v) (fun name => v = .text name ∧ Fact.Allowed name) := by
  cases v with
  | text s =>
      have hread : allowedFact? (.text s) =
          Fact.isAllowed s >>= fun allowed => if allowed = true then pure (some s) else pure none := rfl
      rw [hread]
      cases hs : Fact.isAllowed s with
      | error fault => exact .stopped
      | ok allowed =>
          cases allowed with
          | true => exact .found ⟨s, rfl, hs⟩ ⟨rfl, hs⟩
          | false =>
              refine .nothing ?_
              rintro ⟨name, hname, hallowed⟩
              cases hname
              rw [Fact.Allowed, hs] at hallowed
              cases hallowed
  | _ =>
      refine .nothing ?_
      rintro ⟨name, hname, -⟩
      cases hname

/-- A text that is no allowed name is an operand only as a number. -/
theorem validOperand_text_iff (comparator : Comparator) {s : String}
    (h : Fact.isAllowed s = .ok false) :
    ValidOperand comparator (.text s) ↔
      ∃ x, Number.readFloat? s = some x ∧ Binary64.isFinite x = true := by
  constructor
  · intro hvalid
    cases hvalid with
    -- Names are looked at first.
    | name allowed =>
        rw [Fact.Allowed, h] at allowed
        cases allowed
    | numeral noName value finite => exact ⟨_, value, finite⟩
  · rintro ⟨x, hvalue, hfinite⟩
    exact .numeral h hvalue hfinite

theorem readTextOperand_finds (comparator : Comparator) (s : String) :
    Finds (readTextOperand s) (ValidOperand comparator (.text s)) (Operand.Sound comparator) := by
  unfold readTextOperand
  cases hs : Fact.isAllowed s with
  | error fault => exact .stopped
  | ok allowed =>
      cases allowed with
      | true => exact .found (.name hs) (.fact hs)
      | false =>
          have hvalid := validOperand_text_iff comparator hs
          cases hx : Number.readFloat? s with
          | none =>
              refine .nothing ?_
              intro h
              rcases hvalid.1 h with ⟨x, hvalue, -⟩
              rw [hx] at hvalue
              cases hvalue
          | some x =>
              cases hfinite : Binary64.isFinite x with
              | true =>
                  have hsound : Number.Finite (.float x) := congrArg Except.ok hfinite
                  simp only [hfinite, if_true]
                  exact .found (hvalid.2 ⟨x, hx, hfinite⟩) (.number hsound)
              -- Texts for the infinities and for what is no number are read as floats, too.
              | false =>
                  have hnot : ¬ValidOperand comparator (.text s) := by
                    intro h
                    rcases hvalid.1 h with ⟨y, hvalue, hy⟩
                    rw [hx] at hvalue
                    cases hvalue
                    rw [hfinite] at hy
                    cases hy
                  simpa [bind, Except.bind, pure, Except.pure, hfinite] using
                    Finds.nothing hnot

theorem readOperand_finds (comparator : Comparator) (v : Value) :
    Finds (readOperand comparator v) (ValidOperand comparator v) (Operand.Sound comparator) := by
  cases v with
  | bool b =>
      -- Only equality compares truth values.
      by_cases hequal : comparator = .equal
      · subst hequal
        exact .found (.bool b rfl) (.bool b rfl)
      · have hnot : ¬ValidOperand comparator (.bool b) := by
          intro h
          cases h with
          | bool _ equality => exact hequal equality
        simpa [readOperand, hequal] using Finds.nothing hnot
  | number x =>
      have hiff : HoldsNumber (.number x) ↔ ValidOperand comparator (.number x) := by
        constructor
        · rintro ⟨y, hy, hfinite⟩
          cases hy
          exact .number hfinite
        · intro h
          cases h with
          | number finite => exact ⟨x, rfl, finite⟩
      rw [← hiff]
      exact (finiteNumber?_finds (.number x)).map _ fun y hy => .number hy.2
  | text s => exact readTextOperand_finds comparator s
  | record fields =>
      have hiff : NamesFact ((Value.record fields).field "fact") ↔
          ValidOperand comparator (.record fields) := by
        constructor
        · intro h
          exact .reference h
        · intro h
          cases h with
          | reference names => exact names
      rw [← hiff]
      exact (allowedFact?_finds _).map _ fun name hname => .fact hname.2
  | _ =>
      refine .nothing ?_
      intro h
      cases h

theorem validBounds_iff (leaf : Value) :
    ValidBounds leaf ↔ HoldsNumber (rangeBounds leaf).1 ∧ HoldsNumber (rangeBounds leaf).2 := by
  unfold rangeBounds
  constructor
  · intro h
    cases h with
    | fields least greatest =>
        rcases least with ⟨a, ha, hfinite⟩
        rcases greatest with ⟨b, hb, hfinite'⟩
        simp only [ha, hb]
        exact ⟨⟨a, rfl, hfinite⟩, ⟨b, rfl, hfinite'⟩⟩
    | value missing value least greatest =>
        rcases missing with hnull | hnull
        · simp only [hnull, value]
          exact ⟨least, greatest⟩
        · cases hleast : leaf.field "valueMin" <;>
            simpa only [hnull, value] using ⟨least, greatest⟩
  · intro h
    -- Two missing bounds are looked for in the value, and so is one.
    split at h
    · next hnull hvalue => exact .value (Or.inl hnull) hvalue h.1 h.2
    · next hnull hvalue _ => exact .value (Or.inr hnull) hvalue h.1 h.2
    · exact .fields h.1 h.2

theorem readRange_finds {fact : String} {test : RangeTest} (leaf : Value) (allowed : Fact.Allowed fact)
    (known : test ∈ RangeTest.all) :
    Finds (readRange fact test leaf) (ValidBounds leaf) Condition.Sound := by
  rw [validBounds_iff]
  unfold readRange
  rcases rangeBounds leaf with ⟨least, greatest⟩
  have hleast := finiteNumber?_finds least
  have hgreatest := finiteNumber?_finds greatest
  dsimp only
  cases ha : finiteNumber? least with
  | error fault => exact .stopped
  | ok least? =>
      cases least? with
      | none =>
          refine .nothing ?_
          intro h
          exact hleast.of_none ha h.1
      | some a =>
          -- The upper bound is looked at only now, so a fault in it does not hide a bad lower bound.
          have hfirst := hleast.of_some ha
          cases hb : finiteNumber? greatest with
          | error fault => exact .stopped
          | ok greatest? =>
              cases greatest? with
              | none =>
                  refine .nothing ?_
                  intro h
                  exact hgreatest.of_none hb h.2
              | some b =>
                  have hsecond := hgreatest.of_some hb
                  exact .found ⟨hfirst.1, hsecond.1⟩
                    (.range allowed known hfirst.2.2 hsecond.2.2)

theorem readChance_finds {fact : String} (leaf : Value) (allowed : Fact.Allowed fact) :
    Finds (readChance fact leaf)
      (∃ p, leaf.field "randomProbability" = .number p ∧ p.Percentage) Condition.Sound := by
  have hpercent := finiteNumber?_finds (leaf.field "randomProbability")
  unfold readChance
  cases hp : finiteNumber? (leaf.field "randomProbability") with
  | error fault => exact .stopped
  | ok percent? =>
      cases percent? with
      | none =>
          refine .nothing ?_
          rintro ⟨p, hfield, hpercentage⟩
          exact hpercent.of_none hp ⟨p, hfield, hpercentage.finite⟩
      | some p =>
          rcases hpercent.of_some hp with ⟨-, hfield, hfinite⟩
          -- The reader refuses what lies outside; the grammar wants what lies inside.
          have hbelow : p.lt 0 = false ↔ Number.le 0 p = true := hfinite.not_lt_iff
          have habove : Number.lt 100 p = false ↔ p.le 100 = true := hfinite.not_gt_iff
          have hiff : (p.lt 0 || Number.lt 100 p) = false ↔ p.Percentage := by
            rw [Bool.or_eq_false_iff, hbelow, habove]
            constructor
            · rintro ⟨hleast, hgreatest⟩
              exact ⟨hfinite, hleast, hgreatest⟩
            · intro h
              exact ⟨h.least, h.greatest⟩
          cases houtside : p.lt 0 || Number.lt 100 p with
          | false =>
              have hpercentage := hiff.1 houtside
              simpa [houtside, bind, Except.bind, pure, Except.pure] using
                Finds.found ⟨p, hfield, hpercentage⟩ (Condition.Sound.chance allowed hpercentage)
          | true =>
              have hnot : ¬∃ q, leaf.field "randomProbability" = .number q ∧ q.Percentage := by
                rintro ⟨q, hq, hpercentage⟩
                rw [hfield] at hq
                cases hq
                rw [hiff.2 hpercentage] at houtside
                cases houtside
              simpa [houtside, bind, Except.bind, pure, Except.pure] using Finds.nothing hnot

theorem readComparison_finds {fact : String} {comparator : Comparator} (leaf : Value)
    (allowed : Fact.Allowed fact) (known : comparator ∈ Comparator.all) :
    Finds (readComparison fact comparator leaf) (ValidOperand comparator (leaf.field "value"))
      Condition.Sound :=
  (readOperand_finds comparator _).map _ fun _ right => .comparison allowed known right

/-- The three kinds of leaves have no operator in common. -/
theorem readOperator_finds {fact : String} (operator : String) (leaf : Value)
    (allowed : Fact.Allowed fact) :
    Finds (readOperator fact operator leaf) (ValidOperator leaf operator) Condition.Sound := by
  have hapart : ∀ test ∈ RangeTest.all, ∀ comparator ∈ Comparator.all,
      test.name ≠ comparator.name := by decide
  have hchance : (∀ test ∈ RangeTest.all, test.name ≠ Fact.chance) ∧
      ∀ comparator ∈ Comparator.all, comparator.name ≠ Fact.chance := by decide
  unfold readOperator
  cases htest : RangeTest.ofName? operator with
  | some test =>
      rcases RangeTest.ofName?_eq_some htest with ⟨known, rfl⟩
      have hiff : ValidBounds leaf ↔ ValidOperator leaf test.name := by
        constructor
        · intro h
          exact .range known h
        · intro h
          generalize hname : test.name = operator at h
          cases h with
          | comparison known' operand => exact absurd hname (hapart _ known _ known')
          | range known' bounds => exact bounds
          | chance percent percentage => exact absurd hname (hchance.1 _ known)
      rw [← hiff]
      exact readRange_finds leaf allowed known
  | none =>
      cases hcomparator : Comparator.ofName? operator with
      | some comparator =>
          rcases Comparator.ofName?_eq_some hcomparator with ⟨known, rfl⟩
          have hiff : ValidOperand comparator (leaf.field "value") ↔
              ValidOperator leaf comparator.name := by
            constructor
            · intro h
              exact .comparison known h
            · intro h
              generalize hname : comparator.name = operator at h
              cases h with
              | comparison known' operand =>
                  have hsame := Comparator.name_injOn known known' hname
                  exact hsame ▸ operand
              | range known' bounds => exact absurd hname.symm (hapart _ known' _ known)
              | chance percent percentage => exact absurd hname (hchance.2 _ known)
          rw [← hiff]
          exact readComparison_finds leaf allowed known
      -- What is left is a chance, or an operator that nobody knows.
      | none =>
          have hnone := RangeTest.ofName?_eq_none htest
          have hnone' := Comparator.ofName?_eq_none hcomparator
          have hiff : ValidOperator leaf operator ↔ operator = Fact.chance ∧
              ∃ p, leaf.field "randomProbability" = .number p ∧ p.Percentage := by
            constructor
            · intro h
              cases h with
              | comparison known operand => exact absurd rfl (hnone' _ known)
              | range known bounds => exact absurd rfl (hnone _ known)
              | chance percent percentage => exact ⟨rfl, _, percent, percentage⟩
            · rintro ⟨rfl, p, hpercent, hpercentage⟩
              exact .chance hpercent hpercentage
          rw [hiff]
          by_cases hoperator : operator = Fact.chance
          · simpa [hoperator] using readChance_finds leaf allowed
          · simpa [hoperator] using Finds.nothing (fun h => h)

theorem validLeaf_iff {leaf : Value} {fact operator : String} (hfact : leaf.field "fact" = .text fact)
    (allowed : Fact.Allowed fact) (hoperator : leaf.field "operator" = .text operator) :
    ValidLeaf leaf ↔ ValidOperator leaf operator := by
  constructor
  · rintro ⟨-, operator', htext, hvalid⟩
    rw [hoperator] at htext
    cases htext
    exact hvalid
  · intro h
    exact ⟨⟨fact, hfact, allowed⟩, operator, hoperator, h⟩

theorem readLeaf_finds (leaf : Value) : Finds (readLeaf leaf) (ValidLeaf leaf) Condition.Sound := by
  have hname := allowedFact?_finds (leaf.field "fact")
  unfold readLeaf
  cases hread : allowedFact? (leaf.field "fact") with
  | error fault => exact .stopped
  | ok fact? =>
      cases fact? with
      | none =>
          refine .nothing ?_
          intro h
          exact hname.of_none hread h.fact
      | some fact =>
          rcases hname.of_some hread with ⟨-, hfact, allowed⟩
          cases hoperator : leaf.field "operator" with
          | text operator =>
              rw [validLeaf_iff hfact allowed hoperator]
              exact readOperator_finds operator leaf allowed
          | _ =>
              refine .nothing ?_
              rintro ⟨-, operator, htext, -⟩
              rw [hoperator] at htext
              cases htext

end Rule

end RuleTrader
