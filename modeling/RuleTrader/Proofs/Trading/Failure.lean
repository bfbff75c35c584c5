import RuleTrader.Proofs.Trading.Unseen
import RuleTrader.Proofs.Trading.Validity

/-!
# Pairs that fail

A pair that fails is passed over, but it keeps what it had done so far. Nothing of an order that could not
be worked out is kept. What is kept are the orders that the rules told to cancel before the failure
(`Pair.told`): they are marked, and the money of the buy orders among them is given back. So a failing pair
leaves money and batch as they were exactly when all of these orders had been marked before.

Pairs are processed one after the other. They find and leave what they would without those that fail, but for
what these draw, exactly when none of these leaves a trace (`Pair.sparing_iff`).
-/

namespace RuleTrader

/-! ## What a failing pair leaves -/

namespace TradeState

variable {α : Type} [Amount α] {s : TradeState α}

theorem cancelAll_of_marked {os : List (Order α)} (h : ∀ o ∈ os, o.id ∈ s.batch.cancelIds) :
    cancelAll os s = (.ok (), s) := by
  induction os with
  | nil => rfl
  | cons o os ih =>
      rw [List.forall_mem_cons] at h
      have hfirst : s.cancel o = (.ok (), s) := by rw [cancel, if_pos h.1]
      rw [cancelAll, hfirst]
      exact ih h.2

end TradeState

namespace Pair

variable {α : Type} [Amount α] {pair : Pair α} {s : TradeState α}

/-- The orders that the rules tell to cancel, in turn, up to the first failure. -/
def toldOf (pair : Pair α) (facts : Facts) : List (Order α) → TradeState α → List (Order α)
  | [], _ => []
  | o :: os, s =>
    match pair.orderDecision? facts s o with
    | .error _ => []
    | .ok d? =>
      if isCancel d? then
        match s.cancel o with
        | (.error _, _) => [o]
        | (.ok (), s) => o :: pair.toldOf facts os s
      else pair.toldOf facts os s

/-- The orders that the pair tells to cancel before it fails or comes to an end with its open orders. -/
def told (pair : Pair α) (s : TradeState α) : List (Order α) :=
  match pair.buildFacts s with
  | (.error _, _) => []
  | (.ok facts, s) => pair.toldOf facts pair.orders s

theorem toldOf_subset (facts : Facts) (os : List (Order α)) (s : TradeState α) :
    pair.toldOf facts os s ⊆ os := by
  induction os generalizing s with
  | nil => exact List.Subset.refl _
  | cons o os ih =>
      unfold toldOf
      split
      · simp
      · split
        · split
          · simp
          · exact List.cons_subset_cons o (ih _)
        · exact List.subset_cons_of_subset o (ih s)

theorem told_subset (s : TradeState α) : pair.told s ⊆ pair.orders := by
  unfold told
  split
  · simp
  · exact toldOf_subset _ _ _

/-- Putting the orders to the rules cancels those that are told to, and does nothing else. -/
theorem cancelOrders_state (facts : Facts) (os : List (Order α)) (s : TradeState α) :
    (pair.cancelOrders facts os s).2 = (TradeState.cancelAll (pair.toldOf facts os s) s).2 := by
  induction os generalizing s with
  | nil => rfl
  | cons o os ih =>
      unfold cancelOrders toldOf cancelIfTold
      cases pair.orderDecision? facts s o with
      | error fault => rfl
      | ok d? =>
          cases hcancel : isCancel d? with
          | false => simpa [hcancel] using ih s
          | true =>
              rcases hstep : s.cancel o with ⟨fault | _, t⟩
              · simp [hcancel, hstep, TradeState.cancelAll]
              · simpa [hcancel, hstep, TradeState.cancelAll] using ih t

/-- An order that is told to be cancelled is marked, also when its money cannot be given back. -/
theorem mem_cancelIds_of_told {os : List (Order α)} (own : os ⊆ pair.orders) (facts : Facts)
    (s : TradeState α) :
    ∀ o ∈ pair.toldOf facts os s,
      o.id ∈ (TradeState.cancelAll (pair.toldOf facts os s) s).2.batch.cancelIds := by
  induction os generalizing s with
  | nil => simp [toldOf]
  | cons o os ih =>
      rw [List.cons_subset] at own
      unfold toldOf
      cases pair.orderDecision? facts s o with
      | error fault => simp
      | ok d? =>
          cases hcancel : isCancel d? with
          | false => simpa [hcancel] using ih own.2 s
          | true =>
              have hmark := s.mem_cancelIds_cancel o
              rcases hstep : s.cancel o with ⟨fault | _, t⟩
              · simpa [hcancel, hstep, TradeState.cancelAll] using hmark
              · rw [hstep] at hmark
                simp only [hcancel, if_true, hstep, TradeState.cancelAll, List.forall_mem_cons]
                refine ⟨?_, ih own.2 t⟩
                -- The first mark is still there after the others.
                rw [← cancelOrders_state]
                exact trail_cancelIds_subset (cancelOrders_trail own.2 facts t) hmark

/-- An order whose terms cannot be worked out, or that cannot be placed, leaves only what was drawn. -/
theorem trade_failed {decision : Decision} {side : Side} {fault : NumberFault}
    (h : (pair.trade decision side s).1 = .error fault) :
    ∃ random, (pair.trade decision side s).2 = { s with random } := by
  unfold trade at h ⊢
  dsimp only at h ⊢
  split
  · exact ⟨_, rfl⟩
  · split
    · exact ⟨_, rfl⟩
    · split
      · exact ⟨_, rfl⟩
      · simp_all

theorem create_failed (marked : pair.AllMarked s) {facts : Facts} {fault : NumberFault}
    (h : (pair.create facts s).1 = .error fault) :
    ∃ random, (pair.create facts s).2 = { s with random } := by
  unfold create at h ⊢
  cases hdecide : Rule.decide? (PairFacts.withBalance facts (s.balance pair.bot.id)) pair.rules with
  | error fault => exact ⟨s.random, rfl⟩
  | ok decision? =>
      cases decision? with
      | none => exact ⟨s.random, rfl⟩
      | some decision =>
          rw [hdecide] at h
          cases haction : decision.action with
          | cancel => simp [haction, TradeState.cancelAll_of_marked marked] at h
          | buy =>
              simp only [haction] at h ⊢
              exact trade_failed h
          | sell =>
              simp only [haction] at h ⊢
              exact trade_failed h

/-- A pair that fails leaves the cancellation of what it told to cancel, and what was drawn. -/
theorem process_failed {fault : NumberFault} (h : (pair.process s).1 = .error fault) :
    ∃ random, (pair.process s).2 =
      { (TradeState.cancelAll (pair.told s) (pair.buildFacts s).2).2 with random } := by
  unfold process at h ⊢
  unfold told
  rcases hbuild : pair.buildFacts s with ⟨fault | facts, t⟩
  · exact ⟨t.random, rfl⟩
  · rw [hbuild] at h
    dsimp only at h ⊢
    have hstate := pair.cancelOrders_state facts pair.orders t
    rcases hpass : pair.cancelOrders facts pair.orders t with ⟨fault | survivors, u⟩
    · rw [hpass] at hstate
      exact ⟨u.random, hstate ▸ rfl⟩
    · rw [hpass] at h hstate
      cases survivors with
      | nil =>
          have marked : pair.AllMarked u := mem_cancelIds_cancelOrders (List.Subset.refl _) hpass
          rcases create_failed marked h with ⟨random, hcreate⟩
          exact ⟨random, hstate ▸ hcreate⟩
      | cons o os => cases h

/-- The money and the batch are as they were, if the pair fails. -/
def Traceless (pair : Pair α) (s : TradeState α) : Prop :=
  ∀ fault, (pair.process s).1 = .error fault →
    (pair.process s).2.balances = s.balances ∧ (pair.process s).2.batch = s.batch

instance [DecidableEq α] : Decidable (pair.Traceless s) :=
  match h : (pair.process s).1 with
  | .ok _ => isTrue fun fault hfault => by
      rw [h] at hfault
      cases hfault
  | .error fault =>
    decidable_of_iff ((pair.process s).2.balances = s.balances ∧ (pair.process s).2.batch = s.batch)
      ⟨fun hsame _ _ => hsame, fun traceless => traceless fault h⟩

theorem mem_cancelIds_of_failed {fault : NumberFault} (h : (pair.process s).1 = .error fault) :
    ∀ o ∈ pair.told s, o.id ∈ (pair.process s).2.batch.cancelIds := by
  rcases process_failed h with ⟨random, hstate⟩
  rw [hstate]
  intro o ho
  unfold told at ho ⊢
  rcases hbuild : pair.buildFacts s with ⟨fault | facts, t⟩
  · rw [hbuild] at ho
    cases ho
  · rw [hbuild] at ho
    exact mem_cancelIds_of_told (List.Subset.refl _) facts t o ho

/-- A pair that fails leaves no trace exactly when every order that it told to cancel was marked already. -/
theorem traceless_iff {fault : NumberFault} (h : (pair.process s).1 = .error fault) :
    pair.Traceless s ↔ ∀ o ∈ pair.told s, o.id ∈ s.batch.cancelIds := by
  constructor
  · intro traceless o ho
    rw [← (traceless fault h).2]
    exact mem_cancelIds_of_failed h o ho
  · intro marked fault' _
    rcases process_failed h with ⟨random, hstate⟩
    have hbuilt : (pair.buildFacts s).2 = { s with random := (pair.buildFacts s).2.random } := rfl
    have hnothing : TradeState.cancelAll (pair.told s) (pair.buildFacts s).2 =
        (.ok (), (pair.buildFacts s).2) := TradeState.cancelAll_of_marked marked
    rw [hstate, hnothing]
    exact ⟨rfl, rfl⟩

end Pair

/-! ## What was reported before -/

namespace TradeState

variable {α : Type} {s t : TradeState α}

/-- The same state after earlier reports. -/
def after (ns : List Notice) (s : TradeState α) : TradeState α := { s with notices := ns ++ s.notices }

/-- Two states that differ at most in what was reported. -/
structure Even (s t : TradeState α) : Prop where
  balances : s.balances = t.balances
  batch : s.batch = t.batch
  random : s.random = t.random

theorem Even.trans {u : TradeState α} (h : s.Even t) (h' : t.Even u) : s.Even u :=
  ⟨h.balances.trans h'.balances, h.batch.trans h'.batch, h.random.trans h'.random⟩

/-- What was reported before is not looked at. -/
theorem unseen_after [Amount α] (ns : List Notice) : Unseen (fun _ => True) (after (α := α) ns) where
  balance _ _ _ := rfl
  batch _ := rfl
  random _ := rfl
  report s n := by simp [report, after]
  draw _ _ := rfl
  setBalance _ _ _ _ := rfl
  markCancel _ _ := rfl
  addOrder _ _ := rfl

end TradeState

namespace Pair

variable {α : Type} [Amount α] {pair : Pair α} {ns : List Notice}

/-- What was reported before a pair is processed does not count. -/
theorem process_after (s : TradeState α) : pair.process (s.after ns) = (pair.process s).onState (·.after ns) :=
  process_unseen (TradeState.unseen_after ns) trivial (fun _ _ => trivial) s

theorem process_even (pair : Pair α) {s t : TradeState α} (h : s.Even t) :
    (pair.process s).1 = (pair.process t).1 ∧ (pair.process s).2.Even (pair.process t).2 := by
  have hs : pair.process s = (pair.process { s with notices := [] }).onState (·.after s.notices) := by
    rw [← process_after, TradeState.after, List.append_nil]
  have ht : pair.process t = (pair.process { s with notices := [] }).onState (·.after t.notices) := by
    rw [← process_after, TradeState.after, List.append_nil, h.balances, h.batch, h.random]
  rw [hs, ht]
  exact ⟨rfl, ⟨rfl, rfl, rfl⟩⟩

/-- What processing a pair leaves. -/
def pass (s : TradeState α) (pair : Pair α) : TradeState α := (pair.process s).2

/-- The number of pairs that fail, when the pairs are processed in turn. -/
def failures : List (Pair α) → TradeState α → Nat
  | [], _ => 0
  | pair :: pairs, s =>
    (match (pair.process s).1 with
      | .ok _ => 0
      | .error _ => 1) + failures pairs (pass s pair)

/-- What processing a pair leaves, when one that fails only draws. -/
def spare (s : TradeState α) (pair : Pair α) : TradeState α :=
  match pair.process s with
  | (.ok _, t) => t
  | (.error _, t) => { s with random := t.random }

/-- Whether each pair leaves no trace if it fails, when the pairs are processed in turn. -/
def AllTraceless : List (Pair α) → TradeState α → Prop
  | [], _ => True
  | pair :: pairs, s => pair.Traceless s ∧ AllTraceless pairs (pass s pair)

instance decideAllTraceless [DecidableEq α] :
    (pairs : List (Pair α)) → (s : TradeState α) → Decidable (AllTraceless pairs s)
  | [], _ => isTrue trivial
  | pair :: pairs, s =>
    have := decideAllTraceless pairs (pass s pair)
    inferInstanceAs (Decidable (pair.Traceless s ∧ AllTraceless pairs (pass s pair)))

theorem pass_even {s t : TradeState α} (h : s.Even t) (pairs : List (Pair α)) :
    (pairs.foldl pass s).Even (pairs.foldl pass t) := by
  induction pairs generalizing s t with
  | nil => exact h
  | cons pair pairs ih => exact ih (process_even pair h).2

theorem failures_even {s t : TradeState α} (h : s.Even t) (pairs : List (Pair α)) :
    failures pairs s = failures pairs t := by
  induction pairs generalizing s t with
  | nil => rfl
  | cons pair pairs ih =>
      have hprocess := process_even pair h
      rw [failures, failures, hprocess.1, ih (s := pass s pair) (t := pass t pair) hprocess.2]

theorem failures_append (ps qs : List (Pair α)) (s : TradeState α) :
    failures (ps ++ qs) s = failures ps s + failures qs (ps.foldl pass s) := by
  induction ps generalizing s with
  | nil => simp [failures]
  | cons pair ps ih => simp [failures, ih, Nat.add_assoc]

/-- Failing pairs that leave no trace can be spared. -/
theorem spare_even {s t : TradeState α} (h : s.Even t) (pairs : List (Pair α))
    (traceless : AllTraceless pairs s) : (pairs.foldl pass s).Even (pairs.foldl spare t) := by
  induction pairs generalizing s t with
  | nil => exact h
  | cons pair pairs ih =>
      refine ih ?_ traceless.2
      have hprocess := process_even pair h
      unfold pass spare
      rcases ht : pair.process t with ⟨fault | made, u⟩
      · rw [ht] at hprocess
        rcases traceless.1 fault hprocess.1 with ⟨hbalances, hbatch⟩
        exact ⟨hbalances.trans h.balances, hbatch.trans h.batch, hprocess.2.random⟩
      · rw [ht] at hprocess
        exact hprocess.2

theorem AllTraceless.take {pairs : List (Pair α)} {s : TradeState α} (h : AllTraceless pairs s) (k : Nat) :
    AllTraceless (pairs.take k) s := by
  induction pairs generalizing s k with
  | nil => simp [AllTraceless]
  | cons pair pairs ih =>
      cases k with
      | zero => trivial
      | succ k => exact ⟨h.1, ih h.2 k⟩

/-- Sparing the pairs that fail makes no difference to what each pair finds, nor to what is left. -/
def Sparing (pairs : List (Pair α)) (s : TradeState α) : Prop :=
  ∀ k, ((pairs.take k).foldl pass s).Even ((pairs.take k).foldl spare s)

/-- Pairs that have no order in common. -/
def Apart (pairs : List (Pair α)) : Prop :=
  pairs.Pairwise fun p q => ∀ o ∈ p.orders, ∀ o' ∈ q.orders, o.id ≠ o'.id

theorem pass_cancelIds_subset (pairs : List (Pair α)) (s : TradeState α) :
    s.batch.cancelIds ⊆ (pairs.foldl pass s).batch.cancelIds := by
  induction pairs generalizing s with
  | nil => exact List.Subset.refl _
  | cons pair pairs ih =>
      exact List.Subset.trans (trail_cancelIds_subset (pair.process_trail s)) (ih (pass s pair))

/-- A pair marks only orders of its own. -/
theorem mem_cancelIds_process {s : TradeState α} {id : String}
    (h : id ∈ (pair.process s).2.batch.cancelIds) :
    id ∈ s.batch.cancelIds ∨ ∃ o ∈ pair.orders, o.id = id := by
  refine ((pair.process_trail s).invariant
    (P := fun t => ∀ id ∈ t.batch.cancelIds, id ∈ s.batch.cancelIds ∨ ∃ o ∈ pair.orders, o.id = id)
    (fun hmove hs id hid => ?_) fun id hid => Or.inl hid).1 id h
  rcases hmove.batch_cases with hbatch | ⟨o, own, -, hbatch⟩ | ⟨n, -, hbatch, -⟩
  · rw [hbatch] at hid
    exact hs id hid
  · rw [hbatch] at hid
    rcases List.mem_append.1 hid with hid | hid
    · exact hs id hid
    · exact Or.inr ⟨o, own, (List.mem_singleton.1 hid).symm⟩
  · rw [hbatch] at hid
    exact hs id hid

theorem mem_cancelIds_spare {pairs : List (Pair α)} {s : TradeState α} {id : String}
    (h : id ∈ (pairs.foldl spare s).batch.cancelIds) :
    id ∈ s.batch.cancelIds ∨ ∃ pair ∈ pairs, ∃ o ∈ pair.orders, o.id = id := by
  induction pairs generalizing s with
  | nil => exact Or.inl h
  | cons pair pairs ih =>
      rcases ih h with hfirst | ⟨q, hq, hown⟩
      · have hstep : id ∈ s.batch.cancelIds ∨ ∃ o ∈ pair.orders, o.id = id := by
          unfold spare at hfirst
          rcases hprocess : pair.process s with ⟨fault | made, t⟩
          · rw [hprocess] at hfirst
            exact Or.inl hfirst
          · rw [hprocess] at hfirst
            exact mem_cancelIds_process (by rw [hprocess]; exact hfirst)
        exact hstep.imp_right fun hown => ⟨pair, List.mem_cons_self, hown⟩
      · exact Or.inr ⟨q, List.mem_cons_of_mem pair hq, hown⟩

/-- If the same orders are marked with and without the pairs that fail, these leave no trace: what one of
them marks, no other pair does. -/
theorem allTraceless_of_cancelIds {pairs : List (Pair α)} (apart : Apart pairs) {s t : TradeState α}
    (even : s.Even t)
    (h : (pairs.foldl pass s).batch.cancelIds = (pairs.foldl spare t).batch.cancelIds) :
    AllTraceless pairs s := by
  induction pairs generalizing s t with
  | nil => trivial
  | cons pair pairs ih =>
      rcases List.pairwise_cons.1 apart with ⟨hfirst, hrest⟩
      have htraceless : pair.Traceless s := by
        intro fault hfault
        refine (traceless_iff hfault).2 (fun o ho => ?_) fault hfault
        -- The order is marked in the end, and it is no order of a later pair.
        have hmarked : o.id ∈ (pairs.foldl spare (spare t pair)).batch.cancelIds :=
          h ▸ pass_cancelIds_subset pairs (pass s pair) (mem_cancelIds_of_failed hfault o ho)
        rcases mem_cancelIds_spare hmarked with hbefore | ⟨q, hq, o', ho', heq⟩
        · have hspared : (spare t pair).batch = t.batch := by
            have hfails := (process_even pair even).1
            unfold spare
            rcases ht : pair.process t with ⟨fault | made, u⟩
            · rfl
            · rw [hfault, ht] at hfails
              cases hfails
          rw [hspared, ← even.batch] at hbefore
          exact hbefore
        · exact absurd heq.symm (hfirst q hq o (told_subset s ho) o' ho')
      refine ⟨htraceless, ih hrest ?_ h⟩
      exact spare_even even [pair] ⟨htraceless, trivial⟩

/-- Sparing the pairs that fail makes no difference exactly when these leave no trace. -/
theorem sparing_iff {pairs : List (Pair α)} (apart : Apart pairs) (s : TradeState α) :
    Sparing pairs s ↔ AllTraceless pairs s := by
  constructor
  · intro h
    have hall := h pairs.length
    rw [List.take_length] at hall
    exact allTraceless_of_cancelIds apart ⟨rfl, rfl, rfl⟩ (by rw [hall.batch])
  · exact fun h k => spare_even ⟨rfl, rfl, rfl⟩ _ (h.take k)

end Pair

end RuleTrader
