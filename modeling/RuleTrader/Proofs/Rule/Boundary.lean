import Mathlib.Logic.Basic
import RuleTrader.Proofs.Rule.Leaves

/-!
# The boundary where rules are read

Reading a rule either stops, or it gives a rule exactly when the grammar says so, and the rule has only
parts that the grammar knows. `Course` says once how the reading of a group goes on; what is found in a
group and whether the nesting fits are then two inductions on the allowance.
-/

namespace RuleTrader

namespace Rule

/-! ## Groups -/

/-- What is read from a group: a sound inner node. -/
def SoundGroup (c : Condition) : Prop := c.Sound ∧ c.isGroup = true

/-- How the reading of a group goes on: with the items of a list, with a single condition, or not. -/
inductive Course (v : Value) : Prop
  | items (make : List Condition → Condition) (items : List Value)
      (inside : ∀ cost x, Inside v cost x ↔ cost = 5 ∧ x ∈ items)
      (sound : ∀ cs, cs ≠ [] → (∀ c ∈ cs, c.Sound) → SoundGroup (make cs))
      (read : ∀ allowance, readGroup (allowance + 5) v =
        readEach (readNode (readGroup allowance)) items >>= fun found => pure (groupOf make found))
  | single (x : Value) (inside : ∀ cost y, Inside v cost y ↔ cost = 2 ∧ y = x)
      (read : ∀ allowance, readGroup (allowance + 5) v =
        readNode (readGroup (allowance + 3)) x >>= fun found => pure (found.map .negation))
  | nothing (inside : ∀ cost x, ¬Inside v cost x)
      (read : ∀ allowance, readGroup (allowance + 5) v = pure none)

theorem course_of_all {v : Value} {items : List Value} (hall : v.field "all" = .list items) :
    Course v := by
  refine .items .allOf items ?_ ?_ ?_
  · intro cost x
    constructor
    · intro h
      cases h <;> grind [NoList]
    · rintro ⟨rfl, hmem⟩
      exact .all hall hmem
  · intro cs hcs hparts
    exact ⟨.allOf hcs hparts, rfl⟩
  · intro allowance
    rw [readGroup, hall]

theorem course_of_any {v : Value} {items : List Value} (noAll : NoList (v.field "all"))
    (hany : v.field "any" = .list items) : Course v := by
  refine .items .anyOf items ?_ ?_ ?_
  · intro cost x
    constructor
    · intro h
      cases h <;> grind [NoList]
    · rintro ⟨rfl, hmem⟩
      exact .any noAll hany hmem
  · intro cs hcs hparts
    exact ⟨.anyOf hcs hparts, rfl⟩
  · intro allowance
    rw [readGroup, hany]
    split <;> grind [NoList]

theorem course_of_notAll {v : Value} {items : List Value} (noAll : NoList (v.field "all"))
    (noAny : NoList (v.field "any")) (hnot : v.field? "not" = some (.list items)) : Course v := by
  refine .items (fun cs => .negation (.allOf cs)) items ?_ ?_ ?_
  · intro cost x
    constructor
    · intro h
      cases h <;> grind [NoList]
    · rintro ⟨rfl, hmem⟩
      exact .notAll noAll noAny hnot hmem
  · intro cs hcs hparts
    exact ⟨.negation (.allOf hcs hparts), rfl⟩
  · intro allowance
    rw [readGroup, hnot]
    split <;> grind [NoList]

theorem course_of_not {v x : Value} (noAll : NoList (v.field "all"))
    (noAny : NoList (v.field "any")) (noList : NoList x) (hnot : v.field? "not" = some x) :
    Course v := by
  refine .single x ?_ ?_
  · intro cost y
    constructor
    · intro h
      cases h <;> grind [NoList]
    · rintro ⟨rfl, rfl⟩
      exact .not noAll noAny noList hnot
  · intro allowance
    rw [readGroup, hnot]
    split <;> grind [NoList]

theorem course_of_none {v : Value} (noAll : NoList (v.field "all")) (noAny : NoList (v.field "any"))
    (hnot : v.field? "not" = none) : Course v := by
  refine .nothing ?_ ?_
  · intro cost x h
    cases h <;> grind [NoList]
  · intro allowance
    rw [readGroup, hnot]
    split <;> grind [NoList]

theorem course (v : Value) : Course v := by
  -- The keys in the order in which the reader looks at them.
  by_cases noAll : NoList (v.field "all")
  · by_cases noAny : NoList (v.field "any")
    · cases hnot : v.field? "not" with
      | none => exact course_of_none noAll noAny hnot
      | some x =>
          by_cases noList : NoList x
          · exact course_of_not noAll noAny noList hnot
          · simp only [NoList, not_forall, not_not] at noList
            rcases noList with ⟨items, rfl⟩
            exact course_of_notAll noAll noAny hnot
    · simp only [NoList, not_forall, not_not] at noAny
      rcases noAny with ⟨items, hany⟩
      exact course_of_any noAll hany
  · simp only [NoList, not_forall, not_not] at noAll
    rcases noAll with ⟨items, hall⟩
    exact course_of_all hall

theorem readNode_finds {group : Value → Except ConditionFault (Option Condition)} {there : Value → Prop}
    (h : ∀ v, Finds (group v) (there v) SoundGroup) (v : Value) :
    Finds (readNode group v) (ValidLeaf v ∨ (IsGroup v ∧ there v)) Condition.Sound := by
  cases v with
  | record fields =>
      unfold readNode
      -- A leaf is never looked at as a group, nor a group as a leaf.
      cases hleaf : isLeaf (.record fields) with
      | true =>
          have hiff : ValidLeaf (.record fields) ↔
              ValidLeaf (.record fields) ∨ (IsGroup (.record fields) ∧ there (.record fields)) := by
            simp [IsGroup, hleaf]
          rw [← hiff]
          exact (readLeaf_finds (.record fields)).mapError ConditionFault.number
      | false =>
          have hgroup : IsGroup (.record fields) := ⟨⟨fields, rfl⟩, hleaf⟩
          have hiff : there (.record fields) ↔
              ValidLeaf (.record fields) ∨ (IsGroup (.record fields) ∧ there (.record fields)) := by
            have hnot : ¬ValidLeaf (.record fields) := fun hvalid => hvalid.not_group hgroup
            simp [hgroup, hnot]
          rw [← hiff]
          exact (h (.record fields)).imp fun c hc => hc.1
  | _ =>
      refine .nothing ?_
      rintro (hvalid | ⟨⟨⟨fields, hfields⟩, -⟩, -⟩)
      · rcases hvalid.fact with ⟨name, hname, -⟩
        cases hname
      · cases hfields

theorem readEach_ok {item : Value → Except ConditionFault (Option Condition)} {items : List Value}
    {found : List (Option Condition)} (h : readEach item items = .ok found) :
    items.map item = found.map .ok := by
  induction items generalizing found with
  | nil =>
      cases h
      rfl
  | cons x xs ih =>
      rcases bind_ok h with ⟨condition?, hfirst, hrest⟩
      rcases bind_ok hrest with ⟨found', hfound, hresult⟩
      cases hresult
      rw [List.map_cons, List.map_cons, hfirst, ih hfound]

theorem exists_item_of_mem {item : Value → Except ConditionFault (Option Condition)}
    {items : List Value} {found : List (Option Condition)} {condition? : Option Condition}
    (h : readEach item items = .ok found) (hmem : condition? ∈ found) :
    ∃ x ∈ items, item x = .ok condition? := by
  have hresult : Except.ok condition? ∈ items.map item := by
    rw [readEach_ok h]
    exact List.mem_map_of_mem hmem
  simpa using hresult

theorem exists_found_of_mem {item : Value → Except ConditionFault (Option Condition)}
    {items : List Value} {found : List (Option Condition)} {x : Value}
    (h : readEach item items = .ok found) (hmem : x ∈ items) :
    ∃ condition? ∈ found, item x = .ok condition? := by
  have hresult : item x ∈ found.map .ok := by
    rw [← readEach_ok h]
    exact List.mem_map_of_mem hmem
  rcases List.mem_map.1 hresult with ⟨condition?, hcondition, hitem⟩
  exact ⟨condition?, hcondition, hitem.symm⟩

theorem groupOf_isSome (make : List Condition → Condition) {found : List (Option Condition)} :
    (groupOf make found).isSome = true ↔ ∃ c, some c ∈ found := by
  unfold groupOf
  have hnil : found.filterMap id = [] ↔ ¬∃ c, some c ∈ found := by
    rw [List.filterMap_eq_nil_iff]
    constructor
    · rintro h ⟨c, hc⟩
      cases h _ hc
    · intro h c? hc
      cases c? with
      | none => rfl
      | some c => exact absurd ⟨c, hc⟩ h
  cases hfound : found.filterMap id with
  | nil => simpa using hnil.1 hfound
  | cons c cs =>
      have hmem : c ∈ found.filterMap id := by
        rw [hfound]
        exact List.mem_cons_self ..
      have hsome : ∃ c, some c ∈ found := ⟨c, by simpa using hmem⟩
      simpa using hsome

theorem groupOf_eq_some {make : List Condition → Condition} {found : List (Option Condition)}
    {group : Condition} (h : groupOf make found = some group) :
    ∃ cs, cs ≠ [] ∧ (∀ c ∈ cs, some c ∈ found) ∧ group = make cs := by
  unfold groupOf at h
  cases hfound : found.filterMap id with
  | nil =>
      rw [hfound] at h
      cases h
  | cons c cs =>
      rw [hfound] at h
      refine ⟨c :: cs, List.cons_ne_nil c cs, ?_, (Option.some.inj h).symm⟩
      intro d hd
      rw [← hfound] at hd
      simpa using hd

/-- The group of what was found among the items. -/
theorem readItems_finds {item : Value → Except ConditionFault (Option Condition)}
    {there : Value → Prop} (h : ∀ v, Finds (item v) (there v) Condition.Sound)
    {make : List Condition → Condition}
    (sound : ∀ cs, cs ≠ [] → (∀ c ∈ cs, c.Sound) → SoundGroup (make cs)) (items : List Value) :
    Finds (readEach item items >>= fun found => pure (groupOf make found))
      (∃ x ∈ items, there x) SoundGroup := by
  cases hread : readEach item items with
  | error fault => exact .stopped
  | ok found =>
      have hsound : ∀ c, some c ∈ found → c.Sound := by
        intro c hc
        rcases exists_item_of_mem hread hc with ⟨x, -, hx⟩
        exact (h x).good hx
      -- Something was found exactly when something is there, item by item.
      have hthere : (∃ c, some c ∈ found) ↔ ∃ x ∈ items, there x := by
        constructor
        · rintro ⟨c, hc⟩
          rcases exists_item_of_mem hread hc with ⟨x, hmem, hx⟩
          exact ⟨x, hmem, ((h x).of_some hx).1⟩
        · rintro ⟨x, hmem, hx⟩
          rcases exists_found_of_mem hread hmem with ⟨condition?, hcondition, hitem⟩
          rcases Option.isSome_iff_exists.1 (((h x).isSome_iff hitem).2 hx) with ⟨c, rfl⟩
          exact ⟨c, hcondition⟩
      rw [← hthere, ← groupOf_isSome make]
      show Finds (.ok (groupOf make found)) _ _
      cases hgroup : groupOf make found with
      | none => exact .nothing Bool.false_ne_true
      | some group =>
          rcases groupOf_eq_some hgroup with ⟨cs, hcs, hmem, rfl⟩
          exact .found rfl (sound cs hcs fun c hc => hsound c (hmem c hc))

theorem readGroup_finds (allowance : Nat) (v : Value) :
    Finds (readGroup allowance v) (ReachesLeaf v) SoundGroup := by
  induction allowance using Nat.strongRecOn generalizing v with
  | ind allowance ih =>
      match allowance with
      -- The reader looks into a group only with five of the allowance left.
      | 0 | 1 | 2 | 3 | 4 => exact .stopped
      | allowance + 5 =>
          rw [reachesLeaf_iff]
          have hnode := readNode_finds (ih allowance (by omega))
          have hinner := readNode_finds (ih (allowance + 3) (by omega))
          rcases course v with ⟨make, items, hinside, hsound, hread⟩ | ⟨x, hinside, hread⟩ |
            ⟨hinside, hread⟩
          · -- A list: a leaf is reached through one of its items.
            rw [hread]
            have hiff : (∃ x ∈ items, ValidLeaf x ∨ (IsGroup x ∧ ReachesLeaf x)) ↔
                ∃ cost x, Inside v cost x ∧ (ValidLeaf x ∨ (IsGroup x ∧ ReachesLeaf x)) := by
              constructor
              · rintro ⟨x, hmem, hx⟩
                exact ⟨5, x, (hinside 5 x).2 ⟨rfl, hmem⟩, hx⟩
              · rintro ⟨cost, x, hx, hvalid⟩
                exact ⟨x, ((hinside cost x).1 hx).2, hvalid⟩
            rw [← hiff]
            exact readItems_finds hnode hsound items
          · -- A negation: a leaf is reached through the one condition.
            rw [hread]
            have hiff : (ValidLeaf x ∨ (IsGroup x ∧ ReachesLeaf x)) ↔
                ∃ cost y, Inside v cost y ∧ (ValidLeaf y ∨ (IsGroup y ∧ ReachesLeaf y)) := by
              constructor
              · intro hx
                exact ⟨2, x, (hinside 2 x).2 ⟨rfl, rfl⟩, hx⟩
              · rintro ⟨cost, y, hy, hvalid⟩
                exact ((hinside cost y).1 hy).2 ▸ hvalid
            rw [← hiff]
            exact (hinner x).map _ fun c hc => ⟨.negation hc, rfl⟩
          · rw [hread]
            refine .nothing ?_
            rintro ⟨cost, x, h, -⟩
            exact hinside cost x h

/-! ## Nesting -/

/-- A reading whose nesting `fits` when it has a result, and does not when it is nested too deeply. A
number may stop it either way. -/
structure Measures {α : Type} (result : Except ConditionFault α) (fits : Prop) : Prop where
  of_ok : ∀ {a : α}, result = .ok a → fits
  of_tooDeep : result = .error .nestedTooDeeply → ¬fits

namespace Measures

variable {α β : Type} {p q : Prop}

theorem ok (a : α) (h : p) : Measures (.ok a) p := by
  refine ⟨fun _ => h, ?_⟩
  intro hfault
  cases hfault

theorem number (fault : NumberFault) : Measures (.error (.number fault) : Except ConditionFault α) p := by
  refine ⟨?_, ?_⟩
  · intro a ha
    cases ha
  · intro hfault
    cases hfault

theorem tooDeep (h : ¬p) : Measures (.error .nestedTooDeeply : Except ConditionFault α) p := by
  refine ⟨?_, fun _ => h⟩
  intro a ha
  cases ha

theorem bind {x : Except ConditionFault α} {f : α → Except ConditionFault β} (hx : Measures x p)
    (hf : ∀ a, Measures (f a) q) : Measures (x >>= f) (p ∧ q) := by
  cases hresult : x with
  | error fault =>
      cases fault with
      | number fault => exact number fault
      | nestedTooDeeply => exact tooDeep fun h => hx.of_tooDeep hresult h.1
  | ok a =>
      refine ⟨fun h => ⟨hx.of_ok hresult, (hf a).of_ok h⟩, ?_⟩
      intro hfault h
      exact (hf a).of_tooDeep hfault h.2

theorem bind_pure {x : Except ConditionFault α} (hx : Measures x p) (f : α → β) :
    Measures (x >>= fun a => pure (f a)) p := by
  have hpure : ∀ a, Measures (pure (f a)) True := fun a => ok (f a) trivial
  simpa using hx.bind hpure

end Measures

theorem readNode_measures {group : Value → Except ConditionFault (Option Condition)}
    {fits : Value → Prop} (h : ∀ v, Measures (group v) (fits v)) (v : Value) :
    Measures (readNode group v) (IsGroup v → fits v) := by
  cases v with
  | record fields =>
      unfold readNode
      cases hleaf : isLeaf (.record fields) with
      | true =>
          have hfits : IsGroup (.record fields) → fits (.record fields) := by
            intro hgroup
            rw [hgroup.2] at hleaf
            cases hleaf
          cases readLeaf (.record fields) with
          | error fault => exact .number fault
          | ok condition? => exact .ok condition? hfits
      | false =>
          have hgroup : IsGroup (.record fields) := ⟨⟨fields, rfl⟩, hleaf⟩
          have hiff : fits (.record fields) ↔ (IsGroup (.record fields) → fits (.record fields)) :=
            ⟨fun hfits _ => hfits, fun hfits => hfits hgroup⟩
          rw [← hiff]
          exact h (.record fields)
  | _ =>
      refine .ok none ?_
      rintro ⟨⟨fields, hfields⟩, -⟩
      cases hfields

theorem readEach_measures {item : Value → Except ConditionFault (Option Condition)}
    {fits : Value → Prop} (h : ∀ v, Measures (item v) (fits v)) (items : List Value) :
    Measures (readEach item items) (∀ x ∈ items, fits x) := by
  induction items with
  | nil => exact .ok [] (List.forall_mem_nil _)
  | cons x xs ih =>
      rw [List.forall_mem_cons]
      exact (h x).bind fun condition? => ih.bind_pure (condition? :: ·)

theorem readGroup_measures (allowance : Nat) (v : Value) :
    Measures (readGroup allowance v) (Fits allowance v) := by
  induction allowance using Nat.strongRecOn generalizing v with
  | ind allowance ih =>
      rw [fits_iff]
      match allowance with
      | 0 | 1 | 2 | 3 | 4 => exact .tooDeep fun h => absurd h.1 (by decide)
      | allowance + 5 =>
          have hnode := readNode_measures (ih allowance (by omega))
          have hinner := readNode_measures (ih (allowance + 3) (by omega))
          rcases course v with ⟨make, items, hinside, hsound, hread⟩ | ⟨x, hinside, hread⟩ |
            ⟨hinside, hread⟩
          · -- A list: all of its items fit into what is left.
            rw [hread]
            have hiff : (∀ x ∈ items, IsGroup x → Fits allowance x) ↔ 5 ≤ allowance + 5 ∧
                ∀ cost x, Inside v cost x → IsGroup x → Fits (allowance + 5 - cost) x := by
              constructor
              · intro h
                refine ⟨by omega, ?_⟩
                intro cost x hx hgroup
                rcases (hinside cost x).1 hx with ⟨rfl, hmem⟩
                exact h x hmem hgroup
              · rintro ⟨-, h⟩ x hmem hgroup
                exact h 5 x ((hinside 5 x).2 ⟨rfl, hmem⟩) hgroup
            rw [← hiff]
            exact (readEach_measures hnode items).bind_pure _
          · -- A negation, which leaves three more of the allowance than a list.
            rw [hread]
            have hiff : (IsGroup x → Fits (allowance + 3) x) ↔ 5 ≤ allowance + 5 ∧
                ∀ cost x, Inside v cost x → IsGroup x → Fits (allowance + 5 - cost) x := by
              constructor
              · intro h
                refine ⟨by omega, ?_⟩
                intro cost y hy hgroup
                rcases (hinside cost y).1 hy with ⟨rfl, rfl⟩
                exact h hgroup
              · rintro ⟨-, h⟩ hgroup
                exact h 2 x ((hinside 2 x).2 ⟨rfl, rfl⟩) hgroup
            rw [← hiff]
            exact (hinner x).bind_pure _
          · rw [hread]
            refine .ok none ⟨by omega, ?_⟩
            intro cost x h
            exact absurd h (hinside cost x)

/-! ## Rules -/

theorem Action.ofName?_eq_some_iff {s : String} {action : Action} :
    Action.ofName? s = some action ↔ s = action.name := by
  constructor
  · intro h
    have := List.find?_some (show Action.all.find? (·.name == s) = some action from h)
    exact (by simpa using this : action.name = s).symm
  · rintro rfl
    cases action <;> rfl

theorem readDecision_of_type {v : Value} {action : Action} (h : v.field "type" = .text action.name) :
    ∃ parameters, readDecision v = some ⟨action, parameters⟩ := by
  have hname : Action.ofName? action.name = some action := Action.ofName?_eq_some_iff.2 rfl
  unfold readDecision
  rw [h]
  dsimp only
  rw [hname]
  cases v.field "params" with
  | record fields => exact ⟨fields, rfl⟩
  | _ => exact ⟨[], rfl⟩

theorem readDecision_type {v : Value} {decision : Decision} (h : readDecision v = some decision) :
    v.field "type" = .text decision.action.name := by
  unfold readDecision at h
  split at h
  · next s htype =>
      rw [Option.bind_eq_bind, Option.bind_eq_some_iff] at h
      rcases h with ⟨action, hname, hdecision⟩
      have haction : decision.action = action := by
        split at hdecision <;> cases hdecision <;> rfl
      rw [htype, haction, Action.ofName?_eq_some_iff.1 hname]
  · cases h

theorem readDecision_isSome_iff (v : Value) :
    (readDecision v).isSome = true ↔ ∃ action : Action, v.field "type" = .text action.name := by
  constructor
  · intro h
    rcases Option.isSome_iff_exists.1 h with ⟨decision, hdecision⟩
    exact ⟨decision.action, readDecision_type hdecision⟩
  · rintro ⟨action, htype⟩
    rcases readDecision_of_type htype with ⟨parameters, hdecision⟩
    rw [hdecision]
    rfl

theorem readPriority_finite {v : Value} {priority : Number} (h : readPriority v = .ok priority) :
    priority.Finite := by
  rcases bind_ok h with ⟨found?, hfound, hpriority⟩
  cases hpriority
  cases found? with
  | none => exact (rfl : Number.isFinite 1 = .ok true)
  | some x => exact ((finiteNumber?_finds v).of_some hfound).2.2

/-- A rule that is kept has been read part by part. -/
theorem read_kept {v : Value} {rule : Rule} (h : read v = .ok (.kept rule)) :
    readGroup nestingAllowance (v.field "conditions") = .ok (some rule.condition) ∧
      readDecision (v.field "event") = some rule.decision ∧
      readPriority (v.field "priority") = .ok rule.priority := by
  unfold read at h
  split at h
  · split at h
    · cases h
    · cases h
    · next condition? hgroup =>
        unfold readWith at h
        split at h
        · next condition decision hdecision =>
            rcases bind_ok h with ⟨priority, hpriority, hrule⟩
            cases hrule
            exact ⟨hgroup, hdecision, hpriority⟩
        · cases h
  · cases h

theorem Sound.of_read {v : Value} {rule : Rule} (h : read v = .ok (.kept rule)) : rule.Sound := by
  rcases read_kept h with ⟨hcondition, -, hpriority⟩
  have hsound := (readGroup_finds _ _).good hcondition
  exact ⟨hsound.2, hsound.1, readPriority_finite hpriority⟩

/-- What a reading that nothing stops gives, by what its condition and its event are. -/
theorem read_kept_iff {v : Value} {reading : Reading} (h : read v = .ok reading) :
    reading.rule?.isSome = true ↔
      (∃ condition, readGroup nestingAllowance (v.field "conditions") = .ok (some condition)) ∧
        (readDecision (v.field "event")).isSome = true := by
  constructor
  · intro hsome
    rcases Option.isSome_iff_exists.1 hsome with ⟨rule, hrule⟩
    cases reading with
    | kept rule =>
        rcases read_kept h with ⟨hcondition, hdecision, -⟩
        exact ⟨⟨_, hcondition⟩, by rw [hdecision]; rfl⟩
    | leftOut => cases hrule
    | tooDeep => cases hrule
  · rintro ⟨⟨condition, hcondition⟩, hdecision⟩
    rcases Option.isSome_iff_exists.1 hdecision with ⟨decision, hdecision⟩
    cases v with
    | record fields =>
        unfold read at h
        rw [hcondition] at h
        dsimp only at h
        unfold readWith at h
        rw [hdecision] at h
        rcases bind_ok h with ⟨priority, -, hreading⟩
        cases hreading
        rfl
    | _ => cases hdecision

/-- The boundary is exact and closed. When nothing stops the reading of a rule, a rule is read if and
only if the event names an action, the nesting fits and a valid leaf is reached, and the rule that is
read has only parts of the vocabulary. -/
theorem read_boundary {v : Value} {reading : Reading} (h : read v = .ok reading) :
    (∀ rule, reading.rule? = some rule →
      rule.Sound ∧ (v.field "event").field "type" = .text rule.decision.action.name) ∧
    (reading.rule?.isSome = true ↔
      (∃ action : Action, (v.field "event").field "type" = .text action.name) ∧
        Fits nestingAllowance (v.field "conditions") ∧ ReachesLeaf (v.field "conditions")) := by
  refine ⟨?_, ?_⟩
  · intro rule hrule
    cases reading with
    | kept rule' =>
        cases hrule
        exact ⟨Sound.of_read h, readDecision_type (read_kept h).2.1⟩
    | leftOut => cases hrule
    | tooDeep => cases hrule
  · have hfinds := readGroup_finds nestingAllowance (v.field "conditions")
    have hmeasures := readGroup_measures nestingAllowance (v.field "conditions")
    rw [read_kept_iff h, readDecision_isSome_iff]
    constructor
    · rintro ⟨⟨condition, hcondition⟩, haction⟩
      exact ⟨haction, hmeasures.of_ok hcondition, (hfinds.of_some hcondition).1⟩
    · rintro ⟨haction, hfits, hreaches⟩
      refine ⟨?_, haction⟩
      cases hgroup : readGroup nestingAllowance (v.field "conditions") with
      | ok condition? =>
          rcases Option.isSome_iff_exists.1 ((hfinds.isSome_iff hgroup).2 hreaches) with
            ⟨condition, rfl⟩
          exact ⟨condition, rfl⟩
      | error fault =>
          cases fault with
          | nestedTooDeeply => exact absurd hfits (hmeasures.of_tooDeep hgroup)
          | number fault =>
              -- The reading of the rule would have stopped there too.
              cases v with
              | record fields =>
                  unfold read at h
                  rw [hgroup] at h
                  cases h
              | _ =>
                  rcases haction with ⟨action, htype⟩
                  cases htype

/-- A rule with two group keys, of which `any` counts, and with a leaf that compares a price with a
truth value, which is left out. -/
def sellUnlessUp : Value :=
  .record [
    ("conditions", .record [
      ("not", .record [("fact", .text "hasPosition")]),
      ("any", .list [
        .record [("fact", .text "currentPrice"), ("operator", .text "lessThan"), ("value", .bool true)],
        .record [("not", .record [("fact", .text "isPriceUp"), ("operator", .text "equal"),
          ("value", .bool true)])]])]),
    ("event", .record [("type", .text "SELL")])]

theorem read_boundary_sellUnlessUp :
    let rule : Rule := ⟨.anyOf [.negation (.comparison "isPriceUp" .equal (.literal (.bool true)))], ⟨.sell, []⟩, 1⟩
    read sellUnlessUp = .ok (.kept rule) ∧ rule.Sound ∧
      (sellUnlessUp.field "event").field "type" = .text rule.decision.action.name ∧
      Fits nestingAllowance (sellUnlessUp.field "conditions") ∧
      ReachesLeaf (sellUnlessUp.field "conditions") := by
  intro rule
  have hread : read sellUnlessUp = .ok (.kept rule) := rfl
  have hboundary := read_boundary hread
  have hsound := hboundary.1 rule rfl
  have hkept := hboundary.2.1 rfl
  exact ⟨hread, hsound.1, hsound.2, hkept.2.1, hkept.2.2⟩

end Rule

end RuleTrader
