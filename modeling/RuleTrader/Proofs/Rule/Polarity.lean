import RuleTrader.Proofs.Rule.Boundary
import RuleTrader.Rule.Evaluation

/-!
# What is left out of a condition

The reader leaves out what it cannot read. `writtenGroup` reads the same record and leaves nothing out:
what the reader would drop stands in its place as `Condition.unknown`, which never holds. So the condition
that is read can be compared with the one that was written, by one evaluation.

* `Trims w c` — the condition `c` is what is left of `w` without its unknown parts;
* `guarded sign w` — no conjunction of `w` that stands under a positive sign has an unknown part. Each
  negation turns the sign.

Without an unknown part a disjunction holds of the same facts, and a conjunction of more. So a condition
that is guarded holds wherever the condition that is read of it does.
-/

namespace RuleTrader

/-! ## Evaluation that nothing stops -/

/-- The value is no integer without a binary64 number near to it. -/
def Value.Convertible (v : Value) : Prop := ∀ n, v = .number (.int n) → (Number.int n).Finite

/-- Every integer among the facts has a binary64 number near to it. -/
def Facts.Convertible (facts : Facts) : Prop :=
  ∀ name v, facts.get? name = some v → v.Convertible

theorem Number.Finite.convertible {x : Number} (h : x.Finite) : (Value.number x).Convertible := by
  intro n hn
  cases hn
  exact h

theorem Value.convertible_bool (b : Bool) : (Value.bool b).Convertible := by
  intro n hn
  cases hn

theorem Facts.convertible_bool (name : String) (b : Bool) : Convertible [(name, .bool b)] := by
  intro name' v hv
  simp only [Table.get?] at hv
  split at hv
  · cases hv
    exact Value.convertible_bool b
  · cases hv

namespace Condition

variable {facts : Facts} {c w : Condition} {cs ws : List Condition}

theorem properNumber?_ok {v : Value} (h : v.Convertible) : ∃ x?, properNumber? v = .ok x? := by
  cases v with
  | number x =>
      cases x with
      | int n =>
          have hfinite : (fun _ => true) <$> Number.floatOfInt n = .ok true := h n rfl
          cases hfloat : Number.floatOfInt n with
          | error fault => simp [hfloat] at hfinite
          | ok x =>
              refine ⟨some (.int n), ?_⟩
              simp [properNumber?, Number.isUndefined, hfloat, bind, Except.bind, pure, Except.pure]
      | float x =>
          have hread : properNumber? (.number (.float x)) =
              if x.isNaN then .ok none else .ok (some (.float x)) := rfl
          rw [hread]
          split
          · exact ⟨none, rfl⟩
          · exact ⟨some (.float x), rfl⟩
  | _ => exact ⟨none, rfl⟩

theorem known?_convertible (h : facts.Convertible) {name : String} {v : Value}
    (hv : facts.known? name = some v) : v.Convertible := by
  unfold Facts.known? at hv
  split at hv
  · cases hv
  · exact h name v hv

theorem compareNumbers_ok {left right : Value} (hleft : left.Convertible) (hright : right.Convertible)
    (comparator : Comparator) : ∃ b, compareNumbers comparator left right = .ok b := by
  rcases properNumber?_ok hleft with ⟨x?, hx⟩
  rcases properNumber?_ok hright with ⟨y?, hy⟩
  unfold compareNumbers
  rw [hx, hy]
  cases x? with
  | none => exact ⟨false, rfl⟩
  | some x =>
      cases y? with
      | none => exact ⟨false, rfl⟩
      | some y => exact ⟨_, rfl⟩

theorem operandValue?_convertible (h : facts.Convertible) {comparator : Comparator} {operand : Operand}
    (sound : operand.Sound comparator) {v : Value} (hv : operandValue? facts operand = some v) :
    v.Convertible := by
  cases sound with
  | bool b equality =>
      cases hv
      exact Value.convertible_bool b
  | number finite =>
      cases hv
      exact finite.convertible
  | fact allowed => exact known?_convertible h hv

theorem holdsComparison_ok (h : facts.Convertible) {comparator : Comparator} {operand : Operand}
    (sound : operand.Sound comparator) (fact : String) :
    ∃ b, holdsComparison facts fact comparator operand = .ok b := by
  unfold holdsComparison
  split
  · next left right hleft hright =>
      split
      · exact ⟨_, rfl⟩
      · exact compareNumbers_ok (known?_convertible h hleft) (operandValue?_convertible h sound hright) _
  · exact ⟨false, rfl⟩

theorem fact_convertible (h : facts.Convertible) (name : String) :
    ((facts.get? name).getD .null).Convertible := by
  cases hv : facts.get? name with
  | none =>
      intro n hn
      cases hn
  | some v => exact h name v hv

theorem isBetween_number (a b x : Number) :
    isBetween (.number a) (.number b) x = .ok (a.le x && x.le b) := by
  cases hleast : a.le x <;>
    simp [isBetween, Value.toNumber, Value.asNumber?, hleast, bind, Except.bind, pure, Except.pure]

theorem holdAll_ok (h : ∀ c ∈ cs, ∃ b, c.holds facts = .ok b) : ∃ b, holdAll facts cs = .ok b := by
  induction cs with
  | nil => exact ⟨true, rfl⟩
  | cons c cs ih =>
      rw [List.forall_mem_cons] at h
      rcases h.1 with ⟨b, hb⟩
      rw [holdAll, hb]
      cases b with
      | false => exact ⟨false, rfl⟩
      | true => exact ih h.2

theorem holds_of_holdAll (h : holdAll facts cs = .ok true) (hc : c ∈ cs) : c.holds facts = .ok true := by
  induction cs with
  | nil => cases hc
  | cons d cs ih =>
      rcases bind_ok h with ⟨b, hb, h⟩
      cases b with
      | false => cases h
      | true =>
          rcases List.mem_cons.1 hc with rfl | hc
          · exact hb
          · exact ih h hc

theorem holdAny_ok (h : ∀ c ∈ cs, ∃ b, c.holds facts = .ok b) : ∃ b, holdAny facts cs = .ok b := by
  induction cs with
  | nil => exact ⟨false, rfl⟩
  | cons c cs ih =>
      rw [List.forall_mem_cons] at h
      rcases h.1 with ⟨b, hb⟩
      rw [holdAny, hb]
      cases b with
      | false => exact ih h.2
      | true => exact ⟨true, rfl⟩

theorem holds_negation_iff {b : Bool} :
    (Condition.negation c).holds facts = .ok b ↔ c.holds facts = .ok (!b) := by
  rw [holds]
  cases c.holds facts with
  | error fault => simp
  | ok b' => cases b' <;> cases b <;> simp

/-- A condition that was read comes to a result. -/
theorem Sound.holds_ok (sound : c.Sound) (h : facts.Convertible) : ∃ b, c.holds facts = .ok b := by
  induction sound with
  | allOf nonempty parts ih => exact holdAll_ok ih
  | anyOf nonempty parts ih => exact holdAny_ok ih
  | negation part ih =>
      rcases ih with ⟨b, hb⟩
      exact ⟨!b, holds_negation_iff.2 (by simpa using hb)⟩
  | comparison allowed known right => exact holdsComparison_ok h right _
  | @range fact test a b allowed known least greatest =>
      rcases properNumber?_ok (fact_convertible h fact) with ⟨x?, hx⟩
      rw [holds, holdsRange, hx]
      cases x? with
      | none => exact ⟨false, rfl⟩
      | some x =>
          simp only [isBetween_number, bind, Except.bind, pure, Except.pure]
          exact ⟨_, rfl⟩
  | @chance fact p allowed percentage =>
      rcases properNumber?_ok (fact_convertible h Fact.chance) with ⟨x?, hx⟩
      rw [holds, holdsChance, hx]
      cases x? with
      | none => exact ⟨false, rfl⟩
      | some x => exact ⟨_, rfl⟩

/-! ## Unknown parts -/

def isUnknown : Condition → Bool
  | .unknown => true
  | .allOf _ | .anyOf _ | .negation _ | .comparison .. | .range .. | .chance .. => false

mutual

/-- What is left of a condition without its unknown parts. -/
inductive Trims : Condition → Condition → Prop
  | whole {c : Condition} (sound : c.Sound) : Trims c c
  | allOf {ws cs : List Condition} (parts : TrimsEach ws cs) : Trims (.allOf ws) (.allOf cs)
  | anyOf {ws cs : List Condition} (parts : TrimsEach ws cs) : Trims (.anyOf ws) (.anyOf cs)
  | negation {w c : Condition} (part : Trims w c) : Trims (.negation w) (.negation c)

/-- What is left of several conditions. -/
inductive TrimsEach : List Condition → List Condition → Prop
  | nil : TrimsEach [] []
  | keep {w c : Condition} {ws cs : List Condition} (first : Trims w c) (rest : TrimsEach ws cs) :
      TrimsEach (w :: ws) (c :: cs)
  | drop {ws cs : List Condition} (rest : TrimsEach ws cs) : TrimsEach (.unknown :: ws) cs

end

mutual

/-- Whether no conjunction under a positive sign has an unknown part. -/
def guarded (sign : Bool) : Condition → Bool
  | .allOf cs => (!sign || cs.all (!·.isUnknown)) && guardedEach sign cs
  | .anyOf cs => guardedEach sign cs
  | .negation c => guarded (!sign) c
  | .comparison .. | .range .. | .chance .. | .unknown => true

def guardedEach (sign : Bool) : List Condition → Bool
  | [] => true
  | c :: cs => guarded sign c && guardedEach sign cs

end

theorem Trims.known (h : Trims w c) : w.isUnknown = false := by
  cases h with
  | whole sound => cases sound <;> rfl
  | allOf parts => rfl
  | anyOf parts => rfl
  | negation part => rfl

/-- Conditions are unknown together when nothing is left of them. -/
theorem TrimsEach.all_isUnknown {ws cs : List Condition} :
    TrimsEach ws cs → ws.all isUnknown = cs.isEmpty
  | .nil => rfl
  | .keep first rest => by simp [first.known]
  | .drop rest => by simpa [isUnknown] using rest.all_isUnknown

mutual

/-- A condition comes to a result also with its unknown parts. -/
theorem Trims.holds_ok (convertible : facts.Convertible) {w c : Condition} :
    Trims w c → ∃ b, w.holds facts = .ok b
  | .whole sound => sound.holds_ok convertible
  | .allOf parts => holdAll_ok (parts.holds_ok convertible)
  | .anyOf parts => holdAny_ok (parts.holds_ok convertible)
  | .negation part => by
    rcases part.holds_ok convertible with ⟨b, hb⟩
    exact ⟨!b, holds_negation_iff.2 (by simpa using hb)⟩

theorem TrimsEach.holds_ok (convertible : facts.Convertible) {ws cs : List Condition} :
    TrimsEach ws cs → ∀ w ∈ ws, ∃ b, w.holds facts = .ok b
  | .nil => by simp
  | .keep first rest =>
    List.forall_mem_cons.2 ⟨first.holds_ok convertible, rest.holds_ok convertible⟩
  | .drop rest => List.forall_mem_cons.2 ⟨⟨false, rfl⟩, rest.holds_ok convertible⟩

end

/-! ## The sign of a part -/

/-- What the one condition comes to, the other does, if it follows the one to a sign. -/
theorem sign_of_holds {sign b b' : Bool} (h : c.holds facts = .ok sign → w.holds facts = .ok sign)
    (hb : c.holds facts = .ok b) (hb' : w.holds facts = .ok b') : b = sign → b' = sign := by
  rintro rfl
  exact Except.ok.inj (hb'.symm.trans (h hb))

mutual

/-- Where a condition is guarded, it holds, or does not hold, as soon as what is read of it does. -/
theorem Trims.holds_of_guarded (convertible : facts.Convertible) {sign : Bool} {w c : Condition} :
    Trims w c → w.guarded sign = true → c.holds facts = .ok sign → w.holds facts = .ok sign
  | .whole _, _, h => h
  | .allOf parts, guarded, h => by
    rw [Condition.guarded, Bool.and_eq_true] at guarded
    exact parts.holdAll_of_guarded convertible guarded.1 guarded.2 h
  | .anyOf parts, guarded, h => parts.holdAny_of_guarded convertible guarded h
  | .negation part, guarded, h =>
    holds_negation_iff.2 (part.holds_of_guarded convertible guarded (holds_negation_iff.1 h))

theorem TrimsEach.holdAll_of_guarded (convertible : facts.Convertible) {sign : Bool}
    {ws cs : List Condition} : TrimsEach ws cs → (!sign || ws.all (!·.isUnknown)) = true →
      guardedEach sign ws = true → holdAll facts cs = .ok sign → holdAll facts ws = .ok sign
  | .nil, _, _, h => h
  | @TrimsEach.keep w c ws cs first rest, kept, guarded, h => by
    rw [guardedEach, Bool.and_eq_true] at guarded
    have hkept : (!sign || ws.all (!·.isUnknown)) = true := by
      cases sign with
      | false => rfl
      | true => simpa using (List.forall_mem_cons.1 (by simpa using kept)).2
    rcases bind_ok h with ⟨b, hb, h⟩
    rcases first.holds_ok convertible with ⟨b', hb'⟩
    have hsign := sign_of_holds (first.holds_of_guarded convertible guarded.1) hb hb'
    rw [holdAll, hb']
    cases b with
    | false =>
        obtain rfl : false = sign := Except.ok.inj h
        rw [hsign rfl]
        rfl
    | true =>
        have hrest := rest.holdAll_of_guarded convertible hkept guarded.2 h
        cases sign with
        | false => cases b' <;> [rfl; exact hrest]
        | true =>
            rw [hsign rfl]
            exact hrest
  | .drop rest, kept, guarded, h => by
    cases sign with
    | false => rfl
    | true => simp [isUnknown] at kept

theorem TrimsEach.holdAny_of_guarded (convertible : facts.Convertible) {sign : Bool}
    {ws cs : List Condition} : TrimsEach ws cs → guardedEach sign ws = true →
      holdAny facts cs = .ok sign → holdAny facts ws = .ok sign
  | .nil, _, h => h
  | .keep first rest, guarded, h => by
    rw [guardedEach, Bool.and_eq_true] at guarded
    rcases bind_ok h with ⟨b, hb, h⟩
    rcases first.holds_ok convertible with ⟨b', hb'⟩
    have hsign := sign_of_holds (first.holds_of_guarded convertible guarded.1) hb hb'
    rw [holdAny, hb']
    cases b with
    | true =>
        obtain rfl : true = sign := Except.ok.inj h
        rw [hsign rfl]
        rfl
    | false =>
        have hrest := rest.holdAny_of_guarded convertible guarded.2 h
        cases sign with
        | true => cases b' <;> [exact hrest; rfl]
        | false =>
            rw [hsign rfl]
            exact hrest
  | .drop rest, guarded, h => rest.holdAny_of_guarded convertible guarded h

end

end Condition

/-! ## Reading all that is written -/

namespace Rule

open Condition

/-- A group of what is written, unknown if all of it is. -/
def writtenGroupOf (make : List Condition → Condition) (parts : List Condition) : Condition :=
  if parts.all isUnknown then .unknown else make parts

/-- The negation of what is written, unknown if that is. -/
def writtenNegation : Condition → Condition
  | .unknown => .unknown
  | c => .negation c

/-- A node inside a group, with what the reader leaves out still in its place. -/
def writtenNode (group : Value → Except ConditionFault Condition) (v : Value) :
    Except ConditionFault Condition :=
  match v with
  | .record _ =>
    if isLeaf v then (·.getD .unknown) <$> (readLeaf v).mapError .number else group v
  | _ => .ok .unknown

/-- A group, with what the reader leaves out still in its place. -/
def writtenGroup : Nat → Value → Except ConditionFault Condition
  | allowance + 5, v => do
    match v.field "all", v.field "any", v.field? "not" with
    | .list items, _, _ =>
      return writtenGroupOf .allOf (← items.mapM (writtenNode (writtenGroup allowance)))
    | _, .list items, _ =>
      return writtenGroupOf .anyOf (← items.mapM (writtenNode (writtenGroup allowance)))
    | _, _, some (.list items) =>
      return writtenGroupOf (fun cs => .negation (.allOf cs))
        (← items.mapM (writtenNode (writtenGroup allowance)))
    | _, _, some inner =>
      return writtenNegation (← writtenNode (writtenGroup (allowance + 3)) inner)
    | _, _, none => return .unknown
  | _, _ => .error .nestedTooDeeply

/-- What is read of a condition that is written, if anything is. -/
inductive Keeps : Option Condition → Condition → Prop
  | leftOut : Keeps none .unknown
  | kept {w c : Condition} (trims : Trims w c) : Keeps (some c) w

theorem keeps_each {item : Value → Except ConditionFault (Option Condition)}
    {written : Value → Except ConditionFault Condition}
    (h : ∀ v, SameOutcome Keeps (item v) (written v)) (items : List Value) :
    SameOutcome (List.Forall₂ Keeps) (readEach item items) (items.mapM written) := by
  induction items with
  | nil => exact .ok .nil
  | cons v items ih =>
      rw [readEach, List.mapM_cons]
      exact (h v).bind fun _ _ hv => ih.bind fun _ _ hrest => .ok (.cons hv hrest)

theorem trimsEach_of_keeps {found : List (Option Condition)} {ws : List Condition}
    (h : List.Forall₂ Keeps found ws) : TrimsEach ws (found.filterMap id) := by
  induction h with
  | nil => exact .nil
  | cons first _ ih =>
      cases first with
      | leftOut => exact .drop ih
      | kept trims => exact .keep trims ih

/-- What is read of a group is what is left of the group. -/
theorem keeps_group {make : List Condition → Condition}
    (hmake : ∀ {ws cs}, TrimsEach ws cs → Trims (make ws) (make cs))
    {found : List (Option Condition)} {ws : List Condition} (h : List.Forall₂ Keeps found ws) :
    Keeps (groupOf make found) (writtenGroupOf make ws) := by
  have htrims := trimsEach_of_keeps h
  unfold groupOf writtenGroupOf
  rw [htrims.all_isUnknown]
  cases hfound : found.filterMap id with
  | nil => exact .leftOut
  | cons c cs =>
      rw [hfound] at htrims
      exact .kept (hmake htrims)

theorem keeps_negation {c? : Option Condition} {w : Condition} (h : Keeps c? w) :
    Keeps (c?.map .negation) (writtenNegation w) := by
  cases h with
  | leftOut => exact .leftOut
  | kept trims =>
      have hwritten : writtenNegation w = .negation w := by
        cases w with
        | unknown => cases trims.known
        | _ => rfl
      rw [hwritten]
      exact .kept (.negation trims)

theorem keeps_node {group : Value → Except ConditionFault (Option Condition)}
    {written : Value → Except ConditionFault Condition}
    (h : ∀ v, SameOutcome Keeps (group v) (written v)) (v : Value) :
    SameOutcome Keeps (readNode group v) (writtenNode written v) := by
  cases v with
  | record fields =>
      unfold readNode writtenNode
      dsimp only
      split
      · cases hleaf : readLeaf (.record fields) with
        | error fault => exact .error _
        | ok found =>
            cases found with
            | none => exact .ok .leftOut
            | some c => exact .ok (.kept (.whole ((readLeaf_finds _).good hleaf)))
      · exact h _
  | _ => exact .ok .leftOut

theorem readGroup_keeps (allowance : Nat) (v : Value) :
    SameOutcome Keeps (readGroup allowance v) (writtenGroup allowance v) := by
  induction allowance using Nat.strongRecOn generalizing v with
  | ind allowance ih =>
      match allowance with
      | 0 | 1 | 2 | 3 | 4 => exact .error _
      | allowance + 5 =>
          have heach := fun items => keeps_each (keeps_node (ih allowance (by omega))) items
          have hinner := keeps_node (ih (allowance + 3) (by omega))
          rw [readGroup, writtenGroup]
          generalize v.field "all" = all, v.field "any" = any, v.field? "not" = negated
          -- A group is what its first field that has a list says, or else what its negation says.
          cases all with
          | list items => exact (heach items).bind fun _ _ h => .ok (keeps_group .allOf h)
          | _ =>
              cases any with
              | list items => exact (heach items).bind fun _ _ h => .ok (keeps_group .anyOf h)
              | _ =>
                  rcases negated with _ | inner
                  · exact .ok .leftOut
                  · cases inner with
                    | list items =>
                        exact (heach items).bind fun _ _ h => .ok (keeps_group (.negation <| .allOf ·) h)
                    | _ => exact (hinner _).bind fun _ _ h => .ok (keeps_negation h)

/-- The condition of a rule as it is written, with what the reader leaves out still in its place. -/
def written (v : Value) : Except ConditionFault Condition :=
  writtenGroup nestingAllowance (v.field "conditions")

/-- A rule that was read has a condition that is written, of which its own is what is left. -/
theorem written_of_read {v : Value} {rule : Rule} (h : read v = .ok (.kept rule)) :
    ∃ w, written v = .ok w ∧ Trims w rule.condition := by
  have hkeeps := readGroup_keeps nestingAllowance (v.field "conditions")
  rw [(read_kept h).1] at hkeeps
  rcases hkeeps.cases with ⟨fault, hfault, -⟩ | ⟨c?, w, hc, hw, hkept⟩
  · cases hfault
  · cases hc
    cases hkept with
    | kept trims => exact ⟨w, hw, trims⟩

/-- As it is written, a conjunction never holds once the reader has left out a part of it. -/
theorem allOf_written_never_holds {v : Value} {rule : Rule} {ws : List Condition} {facts : Facts}
    (h : read v = .ok (.kept rule)) (hw : written v = .ok (.allOf ws)) (unknown : .unknown ∈ ws)
    (convertible : facts.Convertible) : (Condition.allOf ws).holds facts = .ok false := by
  rcases written_of_read h with ⟨w, hw', trims⟩
  rw [hw] at hw'
  cases hw'
  rcases trims.holds_ok convertible with ⟨b, hb⟩
  cases b with
  | false => exact hb
  | true => cases holds_of_holdAll hb unknown

/-- A rule that was read holds of no facts that the condition as it is written does not hold of, if what the
reader left out of conjunctions stands under an odd number of negations. Both always come to a result. -/
theorem read_holds_as_written {v : Value} {rule : Rule} (h : read v = .ok (.kept rule)) :
    ∃ w, written v = .ok w ∧ Trims w rule.condition ∧
      ∀ facts : Facts, facts.Convertible →
        (∃ b, rule.condition.holds facts = .ok b) ∧ (∃ b, w.holds facts = .ok b) ∧
        (w.guarded true = true → rule.condition.holds facts = .ok true → w.holds facts = .ok true) := by
  rcases written_of_read h with ⟨w, hw, trims⟩
  refine ⟨w, hw, trims, fun facts convertible => ⟨?_, ?_, ?_⟩⟩
  · exact (Sound.of_read h).condition.holds_ok convertible
  · exact trims.holds_ok convertible
  · exact fun guarded => trims.holds_of_guarded convertible guarded

/-- A leaf that asks for a truth value. -/
def isTrue (fact : String) : Value :=
  .record [("fact", .text fact), ("operator", .text "equal"), ("value", .bool true)]

/-- A rule that sells when the market is closed, or not both the price is up and the mood is good. Nobody
knows the market and the mood. -/
def sellInBadMood : Value :=
  .record [
    ("conditions", .record [("any", .list [
      isTrue "marketClosed",
      .record [("not", .list [isTrue "isPriceUp", isTrue "goodMood"])]])]),
    ("event", .record [("type", .text "SELL")])]

/-- The price is not up. -/
def priceDown : Facts := [("isPriceUp", .bool false)]

theorem read_holds_as_written_sellInBadMood :
    let up : Condition := .comparison "isPriceUp" .equal (.literal (.bool true))
    read sellInBadMood = .ok (.kept ⟨.anyOf [.negation (.allOf [up])], ⟨.sell, []⟩, 1⟩) ∧
      written sellInBadMood = .ok (.anyOf [.unknown, .negation (.allOf [up, .unknown])]) ∧
      (Condition.anyOf [.unknown, .negation (.allOf [up, .unknown])]).holds priceDown = .ok true := by
  intro up
  have hread : read sellInBadMood = .ok (.kept ⟨.anyOf [.negation (.allOf [up])], ⟨.sell, []⟩, 1⟩) :=
    rfl
  rcases read_holds_as_written hread with ⟨w, hw, -, hfacts⟩
  obtain rfl : Condition.anyOf [.unknown, .negation (.allOf [up, .unknown])] = w :=
    Except.ok.inj hw
  exact ⟨hread, hw, (hfacts priceDown (Facts.convertible_bool _ _)).2.2 rfl rfl⟩

/-- A rule that buys when the price is up and the market is open, which nobody knows. -/
def buyWhenOpen : Value :=
  .record [
    ("conditions", .record [("all", .list [isTrue "isPriceUp", isTrue "marketOpen"])]),
    ("event", .record [("type", .text "BUY")])]

/-- The price is up. -/
def priceUp : Facts := [("isPriceUp", .bool true)]

theorem buyWhenOpen_holds_unwritten :
    ¬ ∀ (v : Value) (rule : Rule) (w : Condition) (facts : Facts), read v = .ok (.kept rule) →
      written v = .ok w → facts.Convertible → rule.condition.holds facts = .ok true →
      w.holds facts = .ok true := by
  intro h
  let up : Condition := .comparison "isPriceUp" .equal (.literal (.bool true))
  have hread : read buyWhenOpen = .ok (.kept ⟨.allOf [up], ⟨.buy, []⟩, 1⟩) := rfl
  have hconvertible : priceUp.Convertible := Facts.convertible_bool _ _
  have hholds := h buyWhenOpen _ (.allOf [up, .unknown]) priceUp hread rfl hconvertible rfl
  have hnever : (Condition.allOf [up, .unknown]).holds priceUp = .ok false :=
    allOf_written_never_holds hread rfl (by simp) hconvertible
  rw [hnever] at hholds
  cases hholds

end Rule

end RuleTrader
