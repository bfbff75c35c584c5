import RuleTrader.Proofs.Json.Reordered
import RuleTrader.Proofs.Rule.Containment

/-!
# Rules with records in another order

A rule is read by the names of fields, so how the fields of its records are listed makes no difference: the
condition, the action and the priority are the same, and the parameters hold the same under each name
(`Rule.Same`). A definition whose records are listed in another order is therefore read as the same rules,
or refused with the same fault (`RuleSet.read_reordered`); and so is the text with sorted records that is
written of a value (`RuleSet.read_written_sorted`).
-/

namespace RuleTrader

/-! ## Rules that are the same -/

/-- Two decisions for one action, whose parameters are the same but for the order of fields. -/
structure Decision.Same (d e : Decision) : Prop where
  action : d.action = e.action
  parameters : (Value.record d.parameters).Reordered (.record e.parameters)

/-- Two rules that are the same, but for the order of the fields in their parameters. -/
structure Rule.Same (r s : Rule) : Prop where
  condition : r.condition = s.condition
  priority : r.priority = s.priority
  decision : r.decision.Same s.decision

theorem Decision.Same.refl (d : Decision) : d.Same d := ⟨rfl, .refl _⟩

theorem Rule.Same.refl (r : Rule) : r.Same r := ⟨rfl, rfl, .refl r.decision⟩

/-- What became of two entries, when both came to the same. -/
inductive Rule.Reading.Same : Rule.Reading → Rule.Reading → Prop
  | kept {r s : Rule} (same : r.Same s) : Same (.kept r) (.kept s)
  | leftOut : Same .leftOut .leftOut
  | tooDeep : Same .tooDeep .tooDeep

/-- Two entries that are the same, but for the order of fields. -/
inductive RuleEntry.Reordered : RuleEntry → RuleEntry → Prop
  | raw {v w : Value} (h : v.Reordered w) : Reordered (.raw v) (.raw w)
  | ready {r s : Rule} (same : r.Same s) : Reordered (.ready r) (.ready s)

/-- A text, or the bytes of one, that writes a JSON value. -/
inductive Value.Writes : Value → Value → Prop
  | text {s : String} {v : Value} (h : Json.read s = .ok v) : Writes (.text s) v
  | bytes {bs : List UInt8} {cs : List Char} {v : Value} (decoded : Text.decodeUtf8 bs = .ok cs)
      (h : Json.read (String.ofList cs) = .ok v) : Writes (.bytes bs) v

/-- Two definitions that are the same, but for the order of fields: as values, as what is written, or entry
by entry. -/
inductive RuleDefinition.Reordered : RuleDefinition → RuleDefinition → Prop
  | value {v w : Value} (h : v.Reordered w) : Reordered (.value v) (.value w)
  | written {a b v w : Value} (ha : a.Writes v) (hb : b.Writes w) (h : v.Reordered w) :
      Reordered (.value a) (.value b)
  | ready {r s : Rule} (same : r.Same s) : Reordered (.ready r) (.ready s)
  | entries {es es' : List RuleEntry} (h : List.Forall₂ RuleEntry.Reordered es es') :
      Reordered (.entries es) (.entries es')

/-! ## Rules that are alike -/

/-- Two decisions for the same action, with the same parameters but for what is inside of lists and
records. -/
structure Decision.Alike (d e : Decision) : Prop where
  action : d.action = e.action
  parameter : ∀ name, (d.parameter name).scalar? = (e.parameter name).scalar?

/-- Two rules with one condition, and decisions that are alike. -/
structure Rule.Alike (r s : Rule) : Prop where
  condition : r.condition = s.condition
  decision : r.decision.Alike s.decision

theorem Decision.Alike.refl (d : Decision) : d.Alike d := ⟨rfl, fun _ => rfl⟩

theorem Rule.Alike.refl (r : Rule) : r.Alike r := ⟨rfl, .refl r.decision⟩

instance : Std.Refl Rule.Alike := ⟨Rule.Alike.refl⟩

theorem Decision.Alike.symm {d e : Decision} (h : d.Alike e) : e.Alike d :=
  ⟨h.action.symm, fun name => (h.parameter name).symm⟩

theorem Rule.Alike.symm {r s : Rule} (h : r.Alike s) : s.Alike r :=
  ⟨h.condition.symm, h.decision.symm⟩

/-- Rules that are the same are alike. -/
theorem Rule.Same.alike {r s : Rule} (h : r.Same s) : r.Alike s :=
  ⟨h.condition, h.decision.action, fun name => (h.decision.parameters.field name).scalar?⟩

namespace Rule

variable {v w : Value}

/-! ## Leaves -/

theorem finiteNumber?_reordered (h : v.Reordered w) : finiteNumber? v = finiteNumber? w := by
  cases h <;> rfl

theorem allowedFact?_reordered (h : v.Reordered w) : allowedFact? v = allowedFact? w := by
  cases h <;> rfl

theorem readOperand_reordered (h : v.Reordered w) (comparator : Comparator) :
    readOperand comparator v = readOperand comparator w := by
  cases h with
  | refl => rfl
  | list => rfl
  | row => rfl
  | record names parts =>
      rw [readOperand, readOperand, allowedFact?_reordered ((Value.Reordered.record names parts).field "fact")]

theorem rangeBounds_reordered (h : v.Reordered w) :
    (rangeBounds v).1.Reordered (rangeBounds w).1 ∧ (rangeBounds v).2.Reordered (rangeBounds w).2 := by
  have hleast := h.field "valueMin"
  have hgreatest := h.field "valueMax"
  have hvalue := h.field "value"
  have hnull {x y : Value} (hxy : x.Reordered y) : x = .null ↔ y = .null := by cases hxy <;> simp
  have hrecord {x y : Value} (hxy : x.Reordered y) :
      (∃ fields, x = .record fields) ↔ ∃ fields, y = .record fields := by cases hxy <;> simp
  -- The bounds are those in the value, if it is a record and one of the leaf is missing.
  by_cases hinside : (∃ fields, v.field "value" = .record fields) ∧
      (v.field "valueMin" = .null ∨ v.field "valueMax" = .null)
  · have hinside' := hinside
    rw [hrecord hvalue, hnull hleast, hnull hgreatest] at hinside'
    have hbounds {leaf : Value} (hleaf : (∃ fields, leaf.field "value" = .record fields) ∧
        (leaf.field "valueMin" = .null ∨ leaf.field "valueMax" = .null)) :
        rangeBounds leaf = ((leaf.field "value").field "min", (leaf.field "value").field "max") := by
      rcases hleaf with ⟨⟨fields, hfields⟩, hmissing⟩
      unfold rangeBounds
      rw [hfields]
      split <;> simp_all
    rw [hbounds hinside, hbounds hinside']
    exact ⟨hvalue.field "min", hvalue.field "max"⟩
  · have hinside' := hinside
    rw [hrecord hvalue, hnull hleast, hnull hgreatest] at hinside'
    have hbounds {leaf : Value} (hleaf : ¬((∃ fields, leaf.field "value" = .record fields) ∧
        (leaf.field "valueMin" = .null ∨ leaf.field "valueMax" = .null))) :
        rangeBounds leaf = (leaf.field "valueMin", leaf.field "valueMax") := by
      unfold rangeBounds
      split <;> simp_all
    rw [hbounds hinside, hbounds hinside']
    exact ⟨hleast, hgreatest⟩

theorem readOperator_reordered (h : v.Reordered w) (fact operator : String) :
    readOperator fact operator v = readOperator fact operator w := by
  have hrange (test : RangeTest) : readRange fact test v = readRange fact test w := by
    rcases rangeBounds_reordered h with ⟨hleast, hgreatest⟩
    simp only [readRange, finiteNumber?_reordered hleast, finiteNumber?_reordered hgreatest]
  have hcomparison (comparator : Comparator) :
      readComparison fact comparator v = readComparison fact comparator w := by
    rw [readComparison, readComparison, readOperand_reordered (h.field "value")]
  have hchance : readChance fact v = readChance fact w := by
    rw [readChance, readChance, finiteNumber?_reordered (h.field "randomProbability")]
  simp only [readOperator, hrange, hcomparison, hchance]

theorem readLeaf_reordered (h : v.Reordered w) : readLeaf v = readLeaf w := by
  have hoperator := h.field "operator"
  unfold readLeaf
  rw [allowedFact?_reordered (h.field "fact")]
  generalize v.field "operator" = x, w.field "operator" = y at hoperator
  cases hoperator with
  | refl x =>
      cases x with
      | text operator => simp only [readOperator_reordered h]
      | _ => rfl
  | list => rfl
  | row => rfl
  | record => rfl

/-! ## Groups -/

theorem readNode_reordered {group : Value → Except ConditionFault (Option Condition)}
    (hgroup : ∀ x y, x.Reordered y → group x = group y) (h : v.Reordered w) :
    readNode group v = readNode group w := by
  cases h with
  | refl => rfl
  | list => rfl
  | row => rfl
  | @record fs gs names parts =>
      have hsame := Value.Reordered.record names parts
      have hleaf : isLeaf (.record fs) = isLeaf (.record gs) := by
        rw [isLeaf, hsame.isSome_field? "fact", hsame.isSome_field? "operator", ← isLeaf]
      rw [readNode, readNode, hleaf, readLeaf_reordered hsame, hgroup _ _ hsame]

theorem readEach_reordered {item : Value → Except ConditionFault (Option Condition)} {vs ws : List Value}
    (hitem : ∀ x y, x.Reordered y → item x = item y) (h : List.Forall₂ Value.Reordered vs ws) :
    readEach item vs = readEach item ws := by
  induction h with
  | nil => rfl
  | cons hfirst hrest ih => rw [readEach, readEach, hitem _ _ hfirst, ih]

/-- How the reading of a group goes on, by which of its fields is a list. -/
theorem readGroup_items (allowance : Nat) (v : Value) :
    readGroup (allowance + 5) v =
      match (v.field "all").items?, (v.field "any").items?, v.field? "not" with
      | some items, _, _ =>
        (groupOf .allOf ·) <$> readEach (readNode (readGroup allowance)) items
      | none, some items, _ =>
        (groupOf .anyOf ·) <$> readEach (readNode (readGroup allowance)) items
      | none, none, none => .ok none
      | none, none, some x =>
        match x.items? with
        | some items =>
          (groupOf (fun cs => .negation (.allOf cs)) ·) <$>
            readEach (readNode (readGroup allowance)) items
        | none => (·.map .negation) <$> readNode (readGroup (allowance + 3)) x := by
  have hnone {x : Value} : x.items? = none ↔ ∀ items, x ≠ .list items := by
    cases x <;> simp [Value.items?]
  rw [readGroup]
  generalize v.field "all" = all, v.field "any" = any, v.field? "not" = negated
  split
  · rfl
  · next hall => rw [hnone.2 hall]; rfl
  · next hall hany => rw [hnone.2 hall, hnone.2 hany]; rfl
  · next hlist hall hany => rw [hnone.2 hall, hnone.2 hany]; simp only [hnone.2 hlist]; rfl
  · next hall hany => rw [hnone.2 hall, hnone.2 hany]; rfl

/-- A condition is read in the same way, however the fields of its records are listed. -/
theorem readGroup_reordered (allowance : Nat) (h : v.Reordered w) :
    readGroup allowance v = readGroup allowance w := by
  -- Items of a list are read with five less of the allowance, and one negated condition with two less.
  induction allowance using Nat.strongRecOn generalizing v w with
  | ind allowance ih =>
      match allowance with
      | 0 | 1 | 2 | 3 | 4 => rfl
      | allowance + 5 =>
          have heach {vs ws : List Value} (hitems : List.Forall₂ Value.Reordered vs ws) :
              readEach (readNode (readGroup allowance)) vs =
                readEach (readNode (readGroup allowance)) ws :=
            readEach_reordered (fun x y => readNode_reordered fun _ _ => ih allowance (by omega)) hitems
          have hsingle {x y : Value} (hxy : x.Reordered y) :
              readNode (readGroup (allowance + 3)) x = readNode (readGroup (allowance + 3)) y :=
            readNode_reordered (fun _ _ => ih (allowance + 3) (by omega)) hxy
          have hall := (h.field "all").items?
          have hany := (h.field "any").items?
          have hnot := h.field? "not"
          rw [readGroup_items, readGroup_items]
          generalize (v.field "all").items? = all, (w.field "all").items? = all',
            (v.field "any").items? = any, (w.field "any").items? = any', v.field? "not" = negated,
            w.field? "not" = negated' at hall hany hnot
          cases hall with
          | some hitems => simp only [heach hitems]
          | none =>
              cases hany with
              | some hitems => simp only [heach hitems]
              | none =>
                  cases hnot with
                  | none => rfl
                  | @some x y hxy =>
                      have hitems := hxy.items?
                      simp only [hsingle hxy]
                      generalize x.items? = items, y.items? = items' at hitems
                      cases hitems with
                      | none => rfl
                      | some hitems => simp only [heach hitems]

/-! ## Rules -/

theorem readDecision_reordered (h : v.Reordered w) :
    Option.Rel Decision.Same (readDecision v) (readDecision w) := by
  have htype := h.field "type"
  have hparams := h.field "params"
  unfold readDecision
  generalize v.field "type" = x, w.field "type" = y at htype
  generalize v.field "params" = params, w.field "params" = params' at hparams
  cases htype with
  | refl x =>
      cases x with
      | text s =>
          dsimp only
          cases Action.ofName? s with
          | none => exact .none
          | some action =>
              cases hparams with
              | refl params => cases params <;> exact .some (.refl _)
              | list => exact .some (.refl _)
              | row => exact .some (.refl _)
              | record names parts => exact .some ⟨rfl, .record names parts⟩
      | _ => exact .none
  | list => exact .none
  | row => exact .none
  | record => exact .none

theorem read_reordered (h : v.Reordered w) : SameOutcome Reading.Same (read v) (read w) := by
  have hcondition := readGroup_reordered nestingAllowance (h.field "conditions")
  have hdecision := readDecision_reordered (h.field "event")
  have hpriority : readPriority (v.field "priority") = readPriority (w.field "priority") := by
    rw [readPriority, readPriority, finiteNumber?_reordered (h.field "priority")]
  have hkind : (∃ fields, v = .record fields) ↔ ∃ fields, w = .record fields := by cases h <;> simp
  by_cases hrecord : ∃ fields, v = .record fields
  · -- Of a record only fields are looked at, and these are the same up to their own order.
    rcases hrecord, hkind.1 hrecord with ⟨⟨fields, rfl⟩, fields', rfl⟩
    rw [read, read, hcondition]
    rcases readGroup nestingAllowance ((Value.record fields').field "conditions") with fault | condition?
    · cases fault with
      | number fault => exact .error fault
      | nestedTooDeeply => exact .ok .tooDeep
    · simp only [readWith, hpriority]
      cases condition? with
      | none => exact .ok .leftOut
      | some condition =>
          generalize readDecision ((Value.record fields).field "event") = d?,
            readDecision ((Value.record fields').field "event") = e? at hdecision
          cases hdecision with
          | none => exact .ok .leftOut
          | some same =>
              dsimp only
              cases readPriority ((Value.record fields').field "priority") with
              | error fault => exact .error fault
              | ok priority => exact .ok (.kept ⟨rfl, rfl, same⟩)
  · have hother {x : Value} (hx : ¬∃ fields, x = .record fields) : read x = .ok .leftOut := by
      cases x with
      | record fields => exact absurd ⟨fields, rfl⟩ hx
      | _ => rfl
    rw [hother hrecord, hother (mt hkind.2 hrecord)]
    exact .ok .leftOut

end Rule

/-! ## Rule sets -/

namespace RuleSet

open Json

theorem rules_reordered {es es' : List RuleEntry} (h : List.Forall₂ RuleEntry.Reordered es es') :
    SameOutcome (List.Forall₂ Rule.Same) (readEntries es).rules (readEntries es').rules := by
  induction h with
  | nil => exact .ok .nil
  | @cons e e' es es' hfirst hrest ih =>
      have hread : SameOutcome Rule.Reading.Same (readEntry e) (readEntry e') := by
        cases hfirst with
        | raw h => exact Rule.read_reordered h
        | ready same => exact .ok (.kept same)
      rw [rules_cons, rules_cons]
      generalize readEntry e = x, readEntry e' = y at hread
      cases hread with
      | error fault => exact .error (RuleSetFault.number fault)
      | ok same =>
          refine ih.bind fun rules rules' hrules => .ok ?_
          cases same with
          | kept same => exact .cons same hrules
          | leftOut => exact hrules
          | tooDeep => exact hrules

theorem raw_reordered {vs ws : List Value} (h : List.Forall₂ Value.Reordered vs ws) :
    List.Forall₂ RuleEntry.Reordered (vs.map .raw) (ws.map .raw) :=
  List.forall₂_map_left_iff.2 (List.forall₂_map_right_iff.2 (h.imp fun _ _ => .raw))

theorem entriesOfJson_reordered {v w : Value} (h : v.Reordered w) :
    List.Forall₂ RuleEntry.Reordered (entriesOfJson v) (entriesOfJson w) := by
  have hitems := h.items?
  have hentries (x : Value) : entriesOfJson x =
      if x.isEmpty then [] else match x.items? with
        | some items => items.map .raw
        | none => [.raw x] := by
    cases x <;> rfl
  rw [hentries, hentries, h.isEmpty]
  split
  · exact .nil
  · generalize v.items? = items, w.items? = items' at hitems
    cases hitems with
    | none => exact .cons (.raw h) .nil
    | some hitems => exact raw_reordered hitems

/-- What is written stands for the entries of what it writes. -/
theorem read_writes {a v : Value} (h : a.Writes v) :
    read (.value a) = (readEntries (entriesOfJson v)).rules := by
  cases h with
  | @text s _ h =>
      refine read_entries ?_
      have hnonempty : s.isEmpty = false := by
        by_contra hempty
        obtain rfl : s = "" := by simpa using hempty
        cases h
      simp [entriesOfValue, entriesOfText, readText, h, hnonempty, Functor.map, Except.map]
  | bytes decoded h =>
      refine read_entries ?_
      simp [entriesOfValue, entriesOfText, readText, h, decoded, Functor.map, Except.map]

/-- A definition is read as the same rules, however the fields of its records are listed. -/
theorem read_reordered {d e : RuleDefinition} (h : d.Reordered e) :
    SameOutcome (List.Forall₂ Rule.Same) (read d) (read e) := by
  cases h with
  | @value v w h =>
      cases h with
      | refl v =>
          have hsame : ∀ rules : List Rule, List.Forall₂ Rule.Same rules rules :=
            fun rules => List.forall₂_same.2 fun r _ => .refl r
          cases read (.value v) with
          | error fault => exact .error fault
          | ok rules => exact .ok (hsame rules)
      | list length items =>
          rw [read_entries rfl, read_entries rfl]
          exact rules_reordered (raw_reordered (List.forall₂_iff_zip.2 ⟨length, fun hp => items _ hp⟩))
      | row length items =>
          rw [read_entries rfl, read_entries rfl]
          exact rules_reordered (raw_reordered (List.forall₂_iff_zip.2 ⟨length, fun hp => items _ hp⟩))
      | record names parts =>
          rw [read_entries rfl, read_entries rfl]
          exact rules_reordered (.cons (.raw (.record names parts)) .nil)
  | written ha hb h =>
      rw [read_writes ha, read_writes hb]
      exact rules_reordered (entriesOfJson_reordered h)
  | ready same => exact .ok (.cons same .nil)
  | entries h => exact rules_reordered h

/-- A value that is no text is read like the text that writes it. -/
theorem read_value {depth : Nat} {v : Value} (h : Readable depth v) (noText : ∀ s, v ≠ .text s) :
    read (.value v) = (readEntries (entriesOfJson v)).rules := by
  unfold entriesOfJson
  split
  · next hempty =>
      cases h with
      | text => exact absurd rfl (noText _)
      | @list depth items =>
          obtain rfl : items = [] := by simpa [Value.isEmpty] using hempty
          rfl
      | @record depth fields =>
          obtain rfl : fields = [] := by simpa [Value.isEmpty] using hempty
          rfl
      | _ => rfl
  · cases h with
    | text => exact absurd rfl (noText _)
    | _ => rfl

/-- The text with sorted records that was written of a value is read as the same rules. -/
theorem read_written_sorted {v : Value} (h : Readable depthLimit v) (noText : ∀ s, v ≠ .text s)
    {text : String} (hwrite : writeSorted v = .ok text) :
    SameOutcome (List.Forall₂ Rule.Same) (read (.value v)) (read (.value (.text text))) := by
  have hread : (Value.text text).Writes (sortFields v) := .text (Json.read_sorted h hwrite).1
  rw [read_value h noText, read_writes hread]
  exact rules_reordered (entriesOfJson_reordered (reordered_sortFields h.plain))

end RuleSet

end RuleTrader
