import RuleTrader.Proofs.Indicator.Key
import RuleTrader.Proofs.Json.Reading
import RuleTrader.Proofs.Rule.Boundary
import RuleTrader.Proofs.Rule.Containment

/-!
# Writing rules and reading them again

What is read has one record, whatever spelling it was read from: `Condition.Restores c v` says that `v` is
the record of `c` and that reading `v` gives `c` back. A rule set that was read is written as the list of
these records, and whoever reads the list gets the same rules.

Reading a condition again may need more of the allowance than reading it the first time: a list under
`not` costs five, but it is written as a group in a negation, which costs seven. `Condition.span` is what the
record of a condition uses up.
-/

namespace RuleTrader

namespace Condition

mutual

/-- What the record of a condition uses up of the allowance. -/
def span : Condition → Nat
  | .allOf cs => 5 + spanOfList cs
  | .anyOf cs => 5 + spanOfList cs
  | .negation c => 2 + max 3 (span c)
  | .comparison .. | .range .. | .chance .. | .unknown => 0

/-- The greatest span of several conditions. -/
def spanOfList : List Condition → Nat
  | [] => 0
  | c :: cs => max (span c) (spanOfList cs)

end

/-- The record of a condition, which gives the condition back. What a group uses up of the allowance is at
least twice the number of containers that it opens. -/
structure Restores (c : Condition) (v : Value) : Prop where
  written : c.toRecord? = some v
  readable : Json.Readable (c.span / 2 + 2) v
  record : ∃ fields, v = .record fields
  read : ∀ allowance, c.span ≤ allowance →
    Rule.readNode (Rule.readGroup allowance) v = .ok (some c)

end Condition

namespace Rule

/-! ## Leaves -/

theorem finiteNumber?_of_finite {x : Number} (h : x.Finite) : finiteNumber? (.number x) = .ok (some x) := by
  have hfinite : x.isFinite = .ok true := h
  simp [finiteNumber?, hfinite, bind, Except.bind, pure, Except.pure]

theorem allowedFact?_of_allowed {name : String} (h : Fact.Allowed name) :
    allowedFact? (.text name) = .ok (some name) := by
  have hallowed : Fact.isAllowed name = .ok true := h
  simp [allowedFact?, hallowed, bind, Except.bind, pure, Except.pure]

/-- A leaf is read by its fact and its operator. -/
theorem readLeaf_of_fact {fields : List (String × Value)} {fact operator : String}
    (hfact : (Value.record fields).field "fact" = .text fact)
    (hoperator : (Value.record fields).field "operator" = .text operator) (h : Fact.Allowed fact) :
    readLeaf (.record fields) = readOperator fact operator (.record fields) := by
  unfold readLeaf
  rw [hfact, allowedFact?_of_allowed h, hoperator]
  rfl

/-- The record of an operand gives the operand back. -/
theorem readOperand_operandRecord {comparator : Comparator} {operand : Operand}
    (h : operand.Sound comparator) :
    readOperand comparator (Condition.operandRecord operand) = .ok (some operand) := by
  cases h with
  | bool b equality => simp [readOperand, Condition.operandRecord, equality]
  | number finite =>
      simp [readOperand, Condition.operandRecord, finiteNumber?_of_finite finite, bind, Except.bind,
        pure, Except.pure]
  | @fact name allowed =>
      have hfield : (Value.record [("fact", .text name)]).field "fact" = .text name := rfl
      simp [readOperand, Condition.operandRecord, hfield, allowedFact?_of_allowed allowed, bind,
        Except.bind, pure, Except.pure]

theorem unpaired_of_whole {cs : List Char} (h : Text.Whole cs) : Json.Unpaired cs := by
  induction cs with
  | nil => exact .nil
  | cons c cs ih =>
      refine List.isChain_cons.2 ⟨?_, ih fun d hd => h d (List.mem_cons_of_mem _ hd)⟩
      intro d _ hleads
      rw [Json.leads, h c (List.mem_cons_self ..)] at hleads
      cases hleads

theorem unpaired_of_allowed {name : String} (h : Fact.Allowed name) : Json.Unpaired name.toList :=
  unpaired_of_whole (Fact.whole_of_isAllowed h)

/-- A name in ASCII. -/
def ascii (name : String) : Bool := name.toList.all fun c => c.toNat < 0x80

theorem unpaired_of_ascii {name : String} (h : ascii name = true) : Json.Unpaired name.toList := by
  refine unpaired_of_whole fun c hc => Text.half?_of_lt ?_
  have hsmall := of_decide_eq_true (List.all_eq_true.1 h c hc)
  have hplane : Text.halfPlane = 0x100000 := rfl
  omega

/-- A record with names in ASCII. -/
theorem readable_record {n : Nat} {fields : List (String × Value)} (keys : List String)
    (hkeys : Table.keys fields = keys) (apart : keys.Nodup) (names : keys.all ascii = true)
    (parts : ∀ e ∈ fields, Json.Readable n e.2) : Json.Readable (n + 1) (.record fields) := by
  subst hkeys
  refine .record apart ?_ parts
  intro e he
  exact unpaired_of_ascii (List.all_eq_true.1 names e.1 (List.mem_map_of_mem he))

theorem readable_field {key : String} (name : ascii key = true) {n : Nat} {v : Value}
    (h : Json.Readable n v) : Json.Readable (n + 1) (.record [(key, v)]) :=
  readable_record [key] rfl (by simp) (by simpa using name) (by simpa using h)

theorem operandRecord_readable {comparator : Comparator} {operand : Operand}
    (h : operand.Sound comparator) : Json.Readable 1 (Condition.operandRecord operand) := by
  cases h with
  | bool b equality => exact .bool b
  | number finite => exact .number finite.plain
  | fact allowed => exact readable_field rfl (.text (unpaired_of_allowed allowed))

/-- The record of a leaf, read as a node. -/
theorem restores_leaf {c : Condition} {fields : List (String × Value)} {fact operator : String}
    (written : c.toRecord? = some (.record (("fact", .text fact) :: ("operator", .text operator) :: fields)))
    (allowed : Fact.Allowed fact) (leaf : c.span = 0)
    (name : ascii operator = true)
    (keys : List String) (hkeys : Table.keys fields = keys) (apart : ("fact" :: "operator" :: keys).Nodup)
    (names : ("fact" :: "operator" :: keys).all ascii = true)
    (parts : ∀ e ∈ fields, Json.Readable 1 e.2)
    (read : readOperator fact operator
      (.record (("fact", .text fact) :: ("operator", .text operator) :: fields)) = .ok (some c)) :
    c.Restores (.record (("fact", .text fact) :: ("operator", .text operator) :: fields)) where
  written := written
  readable := by
    rw [leaf]
    refine readable_record ("fact" :: "operator" :: keys) (by simp [hkeys]) apart names ?_
    intro e he
    rcases List.mem_cons.1 he with rfl | he
    · exact .text (unpaired_of_allowed allowed)
    · rcases List.mem_cons.1 he with rfl | he
      · exact .text (unpaired_of_ascii name)
      · exact parts e he
  record := ⟨_, rfl⟩
  read := by
    intro allowance _
    have hleaf : readLeaf (.record (("fact", .text fact) :: ("operator", .text operator) :: fields)) =
        .ok (some c) := (readLeaf_of_fact rfl rfl allowed).trans read
    unfold readNode
    rw [hleaf]
    rfl

theorem restores_comparison {fact : String} {comparator : Comparator} {operand : Operand}
    (allowed : Fact.Allowed fact) (known : comparator ∈ Comparator.all)
    (right : operand.Sound comparator) :
    ∃ v, (Condition.comparison fact comparator operand).Restores v := by
  -- The operators of ranges are looked for first, and none of them is that of a comparison.
  have hname : RangeTest.ofName? comparator.name = none ∧
      Comparator.ofName? comparator.name = some comparator ∧ ascii comparator.name = true := by
    have hall : ∀ comparator ∈ Comparator.all, RangeTest.ofName? comparator.name = none ∧
        Comparator.ofName? comparator.name = some comparator ∧ ascii comparator.name = true := by decide
    exact hall comparator known
  refine ⟨_, restores_leaf rfl allowed (by rw [Condition.span]) hname.2.2 ["value"] rfl (by decide)
    (by decide) (by simpa using operandRecord_readable right) ?_⟩
  unfold readOperator
  rw [hname.1, hname.2.1]
  have hoperand := readOperand_operandRecord right
  simp [readComparison, Value.field, Value.field?, Table.get?, hoperand, bind, Except.bind, pure,
    Except.pure]

theorem restores_range {fact : String} {test : RangeTest} {a b : Number} (allowed : Fact.Allowed fact)
    (known : test ∈ RangeTest.all) (least : a.Finite) (greatest : b.Finite) :
    ∃ v, (Condition.range fact test (.number a) (.number b)).Restores v := by
  have hname : RangeTest.ofName? test.name = some test ∧ ascii test.name = true := by
    have hall : ∀ test ∈ RangeTest.all, RangeTest.ofName? test.name = some test ∧
        ascii test.name = true := by decide
    exact hall test known
  refine ⟨_, restores_leaf rfl allowed (by rw [Condition.span]) hname.2
    ["valueMin", "valueMax"] rfl (by decide) (by decide) ?_ ?_⟩
  · intro e he
    rcases List.mem_cons.1 he with rfl | he
    · exact .number least.plain
    · rw [List.mem_singleton.1 he]
      exact .number greatest.plain
  · unfold readOperator
    rw [hname.1]
    simp [readRange, rangeBounds, Value.field, Value.field?, Table.get?, finiteNumber?_of_finite least,
      finiteNumber?_of_finite greatest, bind, Except.bind, pure, Except.pure]

theorem restores_chance {fact : String} {p : Number} (allowed : Fact.Allowed fact)
    (percentage : p.Percentage) : ∃ v, (Condition.chance fact (.number p)).Restores v := by
  have hbelow : p.lt 0 = false := percentage.finite.not_lt_iff.2 percentage.least
  have habove : Number.lt 100 p = false := percentage.finite.not_gt_iff.2 percentage.greatest
  have hname : RangeTest.ofName? Fact.chance = none ∧ Comparator.ofName? Fact.chance = none :=
    ⟨rfl, rfl⟩
  refine ⟨_, restores_leaf rfl allowed (by rw [Condition.span]) rfl
    ["randomProbability"] rfl (by decide) (by decide) ?_ ?_⟩
  · intro e he
    rw [List.mem_singleton.1 he]
    exact .number percentage.finite.plain
  · unfold readOperator
    rw [hname.1, hname.2]
    simp [readChance, Value.field, Value.field?, Table.get?, finiteNumber?_of_finite percentage.finite,
      hbelow, habove, bind, Except.bind, pure, Except.pure]

/-! ## Groups -/

/-- A group is read as such wherever it stands. -/
theorem restores_group {c : Condition} {fields : List (String × Value)}
    (written : c.toRecord? = some (.record fields))
    (readable : Json.Readable (c.span / 2 + 2) (.record fields))
    (group : isLeaf (.record fields) = false)
    (read : ∀ allowance, c.span ≤ allowance → readGroup allowance (.record fields) = .ok (some c)) :
    c.Restores (.record fields) where
  written := written
  readable := readable
  record := ⟨fields, rfl⟩
  read := by
    intro allowance hspan
    unfold readNode
    simp only [group, Bool.false_eq_true, if_false]
    exact read allowance hspan

theorem groupOf_some (make : List Condition → Condition) {cs : List Condition} (h : cs ≠ []) :
    groupOf make (cs.map some) = some (make cs) := by
  have hfound : (cs.map some).filterMap id = cs := by simp
  unfold groupOf
  rw [hfound]
  cases cs with
  | nil => exact absurd rfl h
  | cons c cs => rfl

/-- The records of several conditions, which give these back one after the other. -/
theorem restores_list {cs : List Condition} (h : ∀ c ∈ cs, ∃ v, c.Restores v) :
    ∃ vs, Condition.toRecords? cs = some vs ∧
      (∀ v ∈ vs, Json.Readable (Condition.spanOfList cs / 2 + 2) v) ∧
      ∀ allowance, Condition.spanOfList cs ≤ allowance →
        readEach (readNode (readGroup allowance)) vs = .ok (cs.map some) := by
  induction cs with
  | nil => exact ⟨[], rfl, List.forall_mem_nil _, fun _ _ => rfl⟩
  | cons c cs ih =>
      rcases h c (List.mem_cons_self ..) with ⟨v, hv⟩
      rcases ih fun d hd => h d (List.mem_cons_of_mem _ hd) with ⟨vs, hwritten, hreadable, hread⟩
      have hspan : Condition.spanOfList (c :: cs) = max c.span (Condition.spanOfList cs) := by
        rw [Condition.spanOfList]
      refine ⟨v :: vs, ?_, List.forall_mem_cons.2 ⟨hv.readable.mono (by omega),
        fun w hw => (hreadable w hw).mono (by omega)⟩, ?_⟩
      · rw [Condition.toRecords?, hv.written, hwritten]
        rfl
      · intro allowance hspan
        rw [Condition.spanOfList, Nat.max_le] at hspan
        rw [readEach, hv.read allowance hspan.1, hread allowance hspan.2]
        rfl

/-- The record of a group of several conditions, which stand under the key of the group. -/
theorem restores_items {make : List Condition → Condition} (key : String)
    (name : ascii key = true) {cs : List Condition}
    (nonempty : cs ≠ []) (parts : ∀ c ∈ cs, ∃ v, c.Restores v)
    (record : ∀ vs, Condition.toRecords? cs = some vs →
      (make cs).toRecord? = some (.record [(key, .list vs)]))
    (span : (make cs).span = 5 + Condition.spanOfList cs)
    (group : ∀ vs, isLeaf (.record [(key, .list vs)]) = false)
    (read : ∀ allowance vs, readGroup (allowance + 5) (.record [(key, .list vs)]) =
      groupOf make <$> readEach (readNode (readGroup allowance)) vs) : ∃ v, (make cs).Restores v := by
  rcases restores_list parts with ⟨vs, hwritten, hreadable, hread⟩
  have hdeep : Json.Readable ((make cs).span / 2 + 2) (.record [(key, .list vs)]) :=
    (readable_field name (.list hreadable)).mono (by omega)
  refine ⟨_, restores_group (record vs hwritten) hdeep (group vs) ?_⟩
  intro allowance hspan
  rw [span] at hspan
  -- A group takes five of the allowance and leaves the rest to its parts.
  obtain ⟨rest, rfl⟩ : ∃ rest, allowance = rest + 5 := ⟨allowance - 5, by omega⟩
  calc
    readGroup (rest + 5) (.record [(key, .list vs)])
        = groupOf make <$> Except.ok (cs.map some) := by rw [read, hread rest (by omega)]
    _ = .ok (some (make cs)) := congrArg Except.ok (groupOf_some make nonempty)

/-- A sound condition is given back by its record. -/
theorem restores_of_sound {c : Condition} (h : c.Sound) : ∃ v, c.Restores v := by
  induction h with
  | @allOf cs nonempty parts ih =>
      refine restores_items "all" rfl nonempty ih ?_ (by rw [Condition.span]) (fun _ => rfl) ?_
      · intro vs hwritten
        rw [Condition.toRecord?, hwritten]
        rfl
      · intro allowance vs
        rw [readGroup]
        rfl
  | @anyOf cs nonempty parts ih =>
      refine restores_items "any" rfl nonempty ih ?_ (by rw [Condition.span]) (fun _ => rfl) ?_
      · intro vs hwritten
        rw [Condition.toRecord?, hwritten]
        rfl
      · intro allowance vs
        rw [readGroup]
        rfl
  | @negation c part ih =>
      -- The part is written as a record, so a negation is never read again as one of a list.
      rcases ih with ⟨v, hv⟩
      rcases hv.record with ⟨fields, rfl⟩
      have hrecord : (Condition.negation c).toRecord? = some (.record [("not", .record fields)]) := by
        rw [Condition.toRecord?, hv.written]
        rfl
      have hspan : (Condition.negation c).span = 2 + max 3 c.span := by rw [Condition.span]
      have hdeep : Json.Readable ((Condition.negation c).span / 2 + 2) (.record [("not", .record fields)]) :=
        (readable_field rfl hv.readable).mono (by omega)
      refine ⟨_, restores_group hrecord hdeep rfl ?_⟩
      intro allowance hspan
      rw [Condition.span] at hspan
      obtain ⟨rest, rfl⟩ : ∃ rest, allowance = rest + 5 := ⟨allowance - 5, by omega⟩
      have hfield : (Value.record [("not", .record fields)]).field "all" = .null ∧
          (Value.record [("not", .record fields)]).field "any" = .null ∧
          (Value.record [("not", .record fields)]).field? "not" = some (.record fields) :=
        ⟨rfl, rfl, rfl⟩
      rw [readGroup, hfield.1, hfield.2.1, hfield.2.2]
      simp only [hv.read (rest + 3) (by omega), bind, Except.bind]
      rfl
  | comparison allowed known right => exact restores_comparison allowed known right
  | range allowed known least greatest => exact restores_range allowed known least greatest
  | chance allowed percentage => exact restores_chance allowed percentage

/-- A sound inner node is given back when it stands at the top. -/
theorem readGroup_of_restores {c : Condition} {v : Value} (h : c.Restores v) (group : c.isGroup = true)
    {allowance : Nat} (hspan : c.span ≤ allowance) : readGroup allowance v = .ok (some c) := by
  have hnode := h.read allowance hspan
  have hleaf : isLeaf v = false := by
    have hwritten := h.written
    cases c with
    | allOf cs =>
        rcases Option.bind_eq_some_iff.1 hwritten with ⟨vs, -, hv⟩
        cases hv
        rfl
    | anyOf cs =>
        rcases Option.bind_eq_some_iff.1 hwritten with ⟨vs, -, hv⟩
        cases hv
        rfl
    | negation c =>
        rcases Option.bind_eq_some_iff.1 hwritten with ⟨w, -, hv⟩
        cases hv
        rfl
    | _ => cases group
  rcases h.record with ⟨fields, rfl⟩
  unfold readNode at hnode
  simpa only [hleaf, Bool.false_eq_true, if_false] using hnode

/-! ## Rules -/

/-- A rule that can be written: its condition is read again within the allowance, and its parameters are
what JSON text holds. -/
structure Writable (r : Rule) : Prop where
  nesting : r.condition.span ≤ nestingAllowance
  parameters : (Value.record r.decision.parameters).Plain

/-- A rule is read part by part. -/
theorem read_of_parts {fields : List (String × Value)} {r : Rule}
    (hcondition : readGroup nestingAllowance ((Value.record fields).field "conditions") =
      .ok (some r.condition))
    (hdecision : readDecision ((Value.record fields).field "event") = some r.decision)
    (hpriority : readPriority ((Value.record fields).field "priority") = .ok r.priority) :
    read (.record fields) = .ok (.kept r) := by
  unfold read
  rw [hcondition]
  dsimp only
  unfold readWith
  rw [hdecision]
  dsimp only
  rw [hpriority]
  rfl

/-- The record of the decision of a rule. -/
def decisionRecord (d : Decision) : Value :=
  .record [("type", .text d.action.name), ("params", .record d.parameters)]

theorem readDecision_decisionRecord (d : Decision) : readDecision (decisionRecord d) = some d := by
  have htype : (decisionRecord d).field "type" = .text d.action.name := rfl
  have hparams : (decisionRecord d).field "params" = .record d.parameters := rfl
  have hname : Action.ofName? d.action.name = some d.action := Action.ofName?_eq_some_iff.2 rfl
  unfold readDecision
  rw [htype, hparams]
  dsimp only
  rw [hname]
  rfl

theorem decisionRecord_plain {d : Decision} (h : (Value.record d.parameters).Plain) :
    (decisionRecord d).Plain := by
  refine .record (by simp) ?_
  intro e he
  rcases List.mem_cons.1 he with rfl | he
  · exact .text _
  · rw [List.mem_singleton.1 he]
    exact h

theorem decisionRecord_readable {d : Decision} {n : Nat}
    (h : Json.Readable n (.record d.parameters)) : Json.Readable (n + 1) (decisionRecord d) := by
  have hname : ascii d.action.name = true := by
    cases d.action <;> rfl
  refine readable_record ["type", "params"] rfl (by decide) (by decide) ?_
  intro e he
  rcases List.mem_cons.1 he with rfl | he
  · exact .text (unpaired_of_ascii hname)
  · rw [List.mem_singleton.1 he]
    exact h

/-- Parameters that JSON text gives back inside the list of rules, the rule and its decision. -/
def ParametersReadable (r : Rule) : Prop :=
  Json.Readable (Json.depthLimit - 3) (.record r.decision.parameters)

/-- A sound rule is given back by its record. -/
theorem read_toRecord? {r : Rule} (sound : r.Sound) (writable : r.Writable) :
    ∃ v, r.toRecord? = some v ∧ v.Plain ∧
      (r.ParametersReadable → Json.Readable (Json.depthLimit - 1) v) ∧ read v = .ok (.kept r) := by
  rcases restores_of_sound sound.condition with ⟨v, hv⟩
  refine ⟨.record [("priority", .number r.priority), ("conditions", v),
    ("event", decisionRecord r.decision)], ?_, ?_, ?_, ?_⟩
  · rw [Rule.toRecord?, hv.written]
    rfl
  · refine .record (by simp) ?_
    intro e he
    rcases List.mem_cons.1 he with rfl | he
    · exact .number sound.priority.plain
    · rcases List.mem_cons.1 he with rfl | he
      · exact hv.readable.plain
      · rw [List.mem_singleton.1 he]
        exact decisionRecord_plain writable.parameters
  · intro hparameters
    -- Half of the allowance and the record of a rule stay well below the depth of JSON text.
    have hnesting : r.condition.span ≤ 1000 := writable.nesting
    have hlimit : Json.depthLimit - 1 = 998 + 1 := rfl
    have hevent : Json.Readable 998 (decisionRecord r.decision) := decisionRecord_readable hparameters
    rw [hlimit]
    refine readable_record ["priority", "conditions", "event"] rfl (by decide) (by decide) ?_
    intro e he
    rcases List.mem_cons.1 he with rfl | he
    · exact .number sound.priority.plain
    · rcases List.mem_cons.1 he with rfl | he
      · exact hv.readable.mono (by omega)
      · rw [List.mem_singleton.1 he]
        exact hevent
  · refine read_of_parts ?_ ?_ ?_
    · exact readGroup_of_restores hv sound.group writable.nesting
    · exact readDecision_decisionRecord r.decision
    · have hpriority : readPriority (.number r.priority) = .ok r.priority := by
        unfold readPriority
        rw [finiteNumber?_of_finite sound.priority]
        rfl
      exact hpriority

end Rule

namespace RuleSet

/-! ## Rule sets -/

/-- A definition of which nothing was read before. -/
def Unread : RuleDefinition → Prop
  | .value _ => True
  | .ready _ => False
  | .entries entries => ∀ e ∈ entries, ∃ v, e = .raw v

theorem entriesOf_unread {d : RuleDefinition} (hd : Unread d) {entries : List RuleEntry}
    (h : entriesOf d = .ok entries) : ∀ e ∈ entries, ∃ v, e = .raw v := by
  -- However the definition is written, its entries are those of some list of values.
  have hmap (items : List Value) : ∀ e ∈ items.map RuleEntry.raw, ∃ v, e = .raw v := by
    intro e he
    rcases List.mem_map.1 he with ⟨v, -, rfl⟩
    exact ⟨v, rfl⟩
  have hsingle (v : Value) : ∀ e ∈ [RuleEntry.raw v], ∃ w, e = .raw w := hmap [v]
  have hjson (v : Value) : ∀ e ∈ entriesOfJson v, ∃ w, e = .raw w := by
    unfold entriesOfJson
    split
    · exact fun e he => absurd he List.not_mem_nil
    · cases v with
      | list items => exact hmap items
      | _ => exact hsingle _
  have htext {s : String} (hs : entriesOfText s = .ok entries) : ∀ e ∈ entries, ∃ v, e = .raw v := by
    unfold entriesOfText at hs
    cases hread : readText s with
    | error fault =>
        rw [hread] at hs
        cases hs
    | ok v =>
        rw [hread] at hs
        cases hs
        exact hjson v
  cases d with
  | ready rule => exact hd.elim
  | entries es =>
      cases h
      exact hd
  | value v =>
      cases v with
      | text s =>
          simp only [entriesOf, entriesOfValue] at h
          split at h
          · cases h
            exact fun e he => absurd he List.not_mem_nil
          · exact htext h
      | bytes bs =>
          simp only [entriesOf, entriesOfValue] at h
          split at h
          · exact htext h
          · cases h
      | null =>
          cases h
          exact fun e he => absurd he List.not_mem_nil
      | list items =>
          cases h
          exact hmap items
      | row items =>
          cases h
          exact hmap items
      | _ =>
          cases h
          exact hsingle _

/-- Every rule that is kept was read from one of the entries. -/
theorem mem_rules {entries : List RuleEntry} {rules : List Rule}
    (h : (readEntries entries).rules = .ok rules) {r : Rule} (hr : r ∈ rules) :
    ∃ e ∈ entries, readEntry e = .ok (.kept r) := by
  induction entries generalizing rules with
  | nil =>
      cases h
      cases hr
  | cons e es ih =>
      rw [rules_cons] at h
      rcases bind_ok h with ⟨reading, hreading, hrest⟩
      rcases bind_ok hrest with ⟨later, hlater, hrules⟩
      cases hrules
      rcases List.mem_append.1 hr with hr | hr
      -- The rule comes from this entry, which was then neither left out nor too deep.
      · have hentry : readEntry e = .ok reading := by
          cases hresult : readEntry e with
          | error fault => simp [hresult] at hreading
          | ok found => simpa [hresult] using hreading
        cases reading with
        | kept rule =>
            obtain rfl : r = rule := List.mem_singleton.1 hr
            exact ⟨e, List.mem_cons_self .., hentry⟩
        | leftOut => cases hr
        | tooDeep => cases hr
      · rcases ih hlater hr with ⟨x, hx, hread⟩
        exact ⟨x, List.mem_cons_of_mem _ hx, hread⟩

theorem sound_of_read {d : RuleDefinition} (hd : Unread d) {rules : List Rule}
    (h : read d = .ok rules) : ∀ r ∈ rules, r.Sound := by
  intro r hr
  unfold read readAll at h
  cases hentries : entriesOf d with
  | error fault =>
      rw [hentries] at h
      cases h
  | ok entries =>
      rw [hentries] at h
      rcases mem_rules h hr with ⟨e, he, hread⟩
      rcases entriesOf_unread hd hentries e he with ⟨v, rfl⟩
      exact Rule.Sound.of_read hread

/-- Sound rules are given back by the list of their records. -/
theorem readEntries_toRecords? {rules : List Rule} (sound : ∀ r ∈ rules, r.Sound)
    (writable : ∀ r ∈ rules, r.Writable) :
    ∃ records, toRecords? rules = some records ∧ (∀ v ∈ records, v.Plain) ∧
      ((∀ r ∈ rules, r.ParametersReadable) → ∀ v ∈ records, Json.Readable (Json.depthLimit - 1) v) ∧
      (readEntries (records.map .raw)).rules = .ok rules := by
  induction rules with
  | nil => exact ⟨[], rfl, List.forall_mem_nil _, fun _ => List.forall_mem_nil _, rfl⟩
  | cons r rs ih =>
      rcases Rule.read_toRecord? (sound r (List.mem_cons_self ..)) (writable r (List.mem_cons_self ..))
        with ⟨v, hwritten, hplain, hreadable, hread⟩
      rcases ih (fun x hx => sound x (List.mem_cons_of_mem _ hx))
        (fun x hx => writable x (List.mem_cons_of_mem _ hx))
        with ⟨records, hrecords, hplains, hreadables, hrules⟩
      refine ⟨v :: records, ?_, List.forall_mem_cons.2 ⟨hplain, hplains⟩, ?_, ?_⟩
      · have hrest : rs.mapM Rule.toRecord? = some records := hrecords
        rw [toRecords?, List.mapM_cons, hwritten, hrest]
        rfl
      · intro hparameters
        rw [List.forall_mem_cons] at hparameters
        exact List.forall_mem_cons.2 ⟨hreadable hparameters.1, hreadables hparameters.2⟩
      · have hentry : readEntry (.raw v) = .ok (.kept r) := hread
        rw [List.map_cons, rules_cons, hentry, hrules]
        rfl

/-- The text of a list is not empty. -/
theorem write_list_ne_empty {records : List Value} {text : String}
    (h : Json.write (.list records) = .ok text) : text ≠ "" := by
  unfold Json.write at h
  cases hcs : Json.writeValue (.list records) with
  | error fault =>
      rw [hcs] at h
      cases h
  | ok cs =>
      rw [hcs] at h
      cases h
      cases records with
      | nil =>
          cases hcs
          decide
      | cons v vs =>
          rw [Json.writeValue, Json.writeItems] at hcs
          rcases bind_ok hcs with ⟨here, -, hrest⟩
          rcases bind_ok hrest with ⟨rest, -, htext⟩
          cases htext
          intro hempty
          have hlist := congrArg String.toList hempty
          simp at hlist

/-- A rule set that was read is given back by its text. Every rule set that is read from payloads of which
nothing was read before, with conditions that are read again within the allowance and with parameters that
JSON text holds, can be written: its records are what JSON text holds. When the text of these records is
read as these records, as it is when JSON text gives the parameters back, it is read as the same rules in
the same order, and writing what was read gives the same text once more. -/
theorem read_write {d : RuleDefinition} (hd : Unread d) {rules : List Rule} (h : read d = .ok rules)
    (writable : ∀ r ∈ rules, r.Writable) :
    ∃ records text, toRecords? rules = some records ∧ (Value.list records).Plain ∧
      write rules = .ok text ∧
      ((∀ r ∈ rules, r.ParametersReadable) → Json.read text = .ok (.list records)) ∧
      (Json.read text = .ok (.list records) →
        read (.value (.text text)) = .ok rules ∧
        ∀ again, read (.value (.text text)) = .ok again → write again = .ok text) := by
  rcases readEntries_toRecords? (sound_of_read hd h) writable with
    ⟨records, hrecords, hplains, hreadables, hrules⟩
  have hplain : (Value.list records).Plain := .list hplains
  rcases Json.write_plain hplain with ⟨text, htext⟩
  have hwrite : write rules = .ok text := by
    rw [write, hrecords]
    exact htext
  refine ⟨records, text, hrecords, hplain, hwrite,
    fun hparameters => Json.read_written (.list (hreadables hparameters)) htext, ?_⟩
  intro hjson
  have hread : read (.value (.text text)) = .ok rules := by
    have hnonempty : text.isEmpty = false := by
      simpa using write_list_ne_empty htext
    -- The text is not empty, and it is that of a list, so its items are the entries.
    have hentries : entriesOfValue (.text text) = .ok (records.map .raw) := by
      have hjsonEntries : entriesOfJson (.list records) = records.map .raw := by
        cases records <;> rfl
      simp only [entriesOfValue, hnonempty, Bool.false_eq_true, if_false, entriesOfText, readText, hjson]
      exact congrArg Except.ok hjsonEntries
    rw [read_entries hentries]
    exact hrules
  refine ⟨hread, ?_⟩
  intro again hagain
  rw [hread] at hagain
  cases hagain
  exact hwrite

/-- Something that is no rule, and a rule with a list under `not`, with a number as text and without a
priority. -/
def soldWhenQuiet : Value :=
  .list [
    .text "no rule",
    .record [
      ("conditions", .record [("not", .list [
        .record [("fact", .text "volume"), ("operator", .text "lessThan"), ("value", .text "1.5e1")]])]),
      ("event", .record [("type", .text "SELL")])]]

/-- The rule that it defines. -/
def sellWhenQuiet : Rule :=
  ⟨.negation (.allOf [.comparison "volume" .lessThan (.literal (.float 15))]), ⟨.sell, []⟩, 1⟩

/-- The record of the rule. -/
def sellWhenQuietRecord : Value :=
  .record [("priority", .int 1),
    ("conditions", .record [("not", .record [("all", .list [
      .record [("fact", .text "volume"), ("operator", .text "lessThan"), ("value", .float 15)]])])]),
    ("event", .record [("type", .text "SELL"), ("params", .record [])])]

/-- The text of the rule. -/
def sellWhenQuietText : String :=
  "[\x7b\"priority\": 1, \"conditions\": \x7b\"not\": \x7b\"all\": [\x7b\"fact\": \"volume\", " ++
    "\"operator\": \"lessThan\", \"value\": 15.0\x7d]\x7d\x7d, " ++
    "\"event\": \x7b\"type\": \"SELL\", \"params\": \x7b\x7d\x7d\x7d]"

set_option maxRecDepth 1000 in
theorem read_write_sellWhenQuiet :
    read (.value soldWhenQuiet) = .ok [sellWhenQuiet] ∧ (∀ r ∈ [sellWhenQuiet], r.Writable) ∧
      (∀ r ∈ [sellWhenQuiet], r.ParametersReadable) ∧ write [sellWhenQuiet] = .ok sellWhenQuietText ∧
      Json.read sellWhenQuietText = .ok (.list [sellWhenQuietRecord]) ∧
      read (.value (.text sellWhenQuietText)) = .ok [sellWhenQuiet] := by
  have hread : read (.value soldWhenQuiet) = .ok [sellWhenQuiet] := rfl
  have hwritable : ∀ r ∈ [sellWhenQuiet], r.Writable := by
    intro r hr
    rw [List.mem_singleton.1 hr]
    exact ⟨by decide, .record (by simp [sellWhenQuiet]) (by simp [sellWhenQuiet])⟩
  have hparameters : ∀ r ∈ [sellWhenQuiet], r.ParametersReadable := by
    intro r hr
    rw [List.mem_singleton.1 hr]
    exact Rule.readable_record [] rfl (by decide) (by decide) (by simp [sellWhenQuiet])
  have htext : write [sellWhenQuiet] = .ok sellWhenQuietText := rfl
  have hrecords : toRecords? [sellWhenQuiet] = some [sellWhenQuietRecord] := rfl
  rcases read_write (d := .value soldWhenQuiet) trivial hread hwritable with
    ⟨records, text, hwritten, -, hwrite, hjson, hagain⟩
  obtain rfl : [sellWhenQuietRecord] = records := Option.some.inj (hrecords.symm.trans hwritten)
  obtain rfl : sellWhenQuietText = text := Except.ok.inj (htext.symm.trans hwrite)
  exact ⟨hread, hwritable, hparameters, htext, hjson hparameters, (hagain (hjson hparameters)).1⟩

end RuleSet

end RuleTrader
