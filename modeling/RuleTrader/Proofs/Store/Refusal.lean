import RuleTrader.Proofs.Store.Atomicity

/-!
# Refused changes of the durable store

When a single change that is refused leaves no trace: no later requests, however many, are answered
otherwise than without it.

A value that is no integer, or a rule set that cannot be written down, is refused before any statement
is run, and then nothing happens to the store (`Request.seed_cases`). A statement that is refused leaves
its transaction open. This is a trace unless a transaction was open before: the next batch is refused
(`refused_traceless_iff`).
-/

namespace RuleTrader

/-- Whether a change is refused by a statement, and not before any is run. -/
def ChangeFault.byStatement : ChangeFault → Bool
  | .database _ | .integerTooLarge => true
  | .number _ | .rules _ => false

/-- A result that is not refused, or refused by a statement. -/
def ByStatement {β : Type} (x : Except ChangeFault β) : Prop :=
  ∀ fault, x = .error fault → fault.byStatement = true

namespace ByStatement

variable {β : Type}

theorem ok (b : β) : ByStatement (.ok b) := by
  intro fault h
  cases h

theorem error {fault : ChangeFault} (h : fault.byStatement = true) :
    ByStatement (.error fault : Except ChangeFault β) := by
  rintro _ ⟨⟩
  exact h

end ByStatement

namespace Tables

/-! ## Statements -/

theorem checkFits_byStatement (ns : List Int) : ByStatement (checkFits ns) := by
  unfold checkFits
  split
  · exact .ok ()
  · exact .error rfl

theorem checkReferences_byStatement (present : Bool) : ByStatement (checkReferences present) := by
  unfold checkReferences
  split
  · exact .ok ()
  · exact .error rfl

theorem checkTime_byStatement (t : Seconds) (column : String) : ByStatement (checkTime t column) := by
  unfold checkTime
  split
  · exact .error rfl
  · exact .ok ()

/-- The result of a statement on a row that is no order. -/
structure RowChange (t : Tables) (x : Except ChangeFault Tables) : Prop where
  byStatement : ByStatement x
  orders : ∀ t', x = .ok t' → t'.orders = t.orders

namespace RowChange

variable {t t' : Tables}

theorem ok (h : t'.orders = t.orders) : RowChange t (.ok t') := by
  refine ⟨.ok t', ?_⟩
  rintro _ ⟨⟩
  exact h

/-- A row is changed if a check lets it. -/
theorem check {c : Except ChangeFault Unit} {f : Unit → Except ChangeFault Tables}
    (hc : ByStatement c) (hf : RowChange t (f ())) : RowChange t (c >>= f) := by
  cases c with
  | error fault =>
      refine ⟨.error (hc fault rfl), ?_⟩
      rintro _ ⟨⟩
  | ok u => exact hf

end RowChange

theorem putInstrument_rowChange (i : Instrument Int) (t : Tables) : RowChange t (t.putInstrument i) :=
  .check (checkFits_byStatement _) (.ok rfl)

theorem setPrice_rowChange (instrumentId : String) (price : Int) (t : Tables) :
    RowChange t (t.setPrice instrumentId price) := by
  refine .check (checkFits_byStatement _) ?_
  cases t.instruments.get? instrumentId <;> exact .ok rfl

theorem putTrader_rowChange (b : Bot Int) (t : Tables) : RowChange t (t.putTrader b) :=
  .check (checkFits_byStatement _) (.check (checkReferences_byStatement _) (.ok rfl))

theorem setPosition_rowChange (botId instrumentId : String) (shares : Int) (t : Tables) :
    RowChange t (t.setPosition botId instrumentId shares) :=
  .check (checkFits_byStatement _) (.check (checkReferences_byStatement _) (.ok rfl))

theorem addTrade_rowChange (trade : Trade) (t : Tables) : RowChange t (t.addTrade trade) :=
  .check (checkFits_byStatement _)
    (.check (checkTime_byStatement _ _) (.check (checkReferences_byStatement _) (.ok rfl)))

end Tables

namespace DurableStore

/-! ## Seeds -/

/-- Whether a request is to put a single row in or to change one. -/
def Request.isSeed : Request → Bool
  | .putInstrument _ _ _ | .setPrice _ _ | .putStrategy _ _ | .putTrader _ | .setPosition _ _ _
  | .addTrade _ _ _ _ _ => true
  | .listOrders _ | .fetch _ | .apply _ _ | .applyDrafts _ _ _ | .close | .reopen _ => false

/-- How a store answers a seed: it is refused for itself, whatever the store is, or it is one statement. -/
inductive Request.Seeds (r : Request) : Prop
  | refused (fault : ChangeFault) (early : fault.byStatement = false)
      (answers : ∀ s : DurableStore, s.answer r = (.changed (.error fault), s))
  | statement (f : Tables → Except ChangeFault Tables) (rows : ∀ t, Tables.RowChange t (f t))
      (answers : ∀ s : DurableStore, s.answer r = (s.change f).map .changed id)

/-- A change with an integer is refused for a value that is none, or it is a statement. -/
theorem Request.seeds_of_changeInt {r : Request} (v : Value)
    (f : Int → Tables → Except ChangeFault Tables) (rows : ∀ n t, Tables.RowChange t (f n t))
    (answers : ∀ s : DurableStore, s.answer r = (s.changeInt v f).map .changed id) : r.Seeds := by
  cases hv : v.toInt with
  | error fault =>
      refine .refused (.number fault) rfl fun s => ?_
      rw [answers, changeInt, hv]
      rfl
  | ok n =>
      refine .statement (f n) (rows n) fun s => ?_
      rw [answers, changeInt, hv]

theorem Request.seed_cases {r : Request} (h : r.isSeed = true) : r.Seeds := by
  cases r with
  | putInstrument instrumentId symbol price =>
      exact seeds_of_changeInt price _ (fun n => Tables.putInstrument_rowChange _) fun s => rfl
  | setPrice instrumentId price =>
      exact seeds_of_changeInt price _ (Tables.setPrice_rowChange _) fun s => rfl
  | putStrategy strategyId rules =>
      cases hrules : ruleText rules with
      | error fault =>
          refine .refused (.rules fault) rfl fun s => ?_
          simp [answer, DurableStore.putStrategy, hrules]
      | ok text =>
          refine .statement (fun t => .ok (t.putStrategy strategyId text)) (fun t => .ok rfl) fun s => ?_
          simp [answer, DurableStore.putStrategy, hrules]
  | putTrader b =>
      exact seeds_of_changeInt b.balance _ (fun n => Tables.putTrader_rowChange _) fun s => rfl
  | setPosition botId instrumentId shares =>
      exact seeds_of_changeInt shares _ (Tables.setPosition_rowChange _ _) fun s => rfl
  | addTrade instrumentId price quantity time clock =>
      -- The time and the price are read first, and the quantity last.
      cases hread : (do return (← tradeTime clock time, ← price.toInt) : Except NumberFault _) with
      | error fault =>
          refine .refused (.number fault) rfl fun s => ?_
          simp only [answer, DurableStore.addTrade, hread]
          rfl
      | ok read =>
          refine seeds_of_changeInt quantity
            (fun n t => t.addTrade ⟨instrumentId, read.2, n, read.1⟩)
            (fun n => Tables.addTrade_rowChange _) fun s => ?_
          simp only [answer, DurableStore.addTrade, hread]
  | _ => cases h

/-! ## Traces -/

/-- No later requests, however many, are answered otherwise than without a request. -/
def Traceless (s : DurableStore) (r : Request) : Prop :=
  ∀ requests, answers requests (s.answer r).2 = answers requests s

/-- The batch that every open store accepts when nothing is pending. -/
def emptyBatch (now : Seconds) : Request := .apply ⟨[], []⟩ now

variable {s : DurableStore} {r : Request} {fault : ChangeFault}

theorem answer_emptyBatch_of_idle (hclosed : s.closed = false) (hnone : s.pending? = none)
    (now : Seconds) : (s.answer (emptyBatch now)).1 = .applied (.ok ()) := by
  simp [answer, emptyBatch, DurableStore.apply, openBatch, finishBatch, insertAll, hclosed, hnone]

theorem answer_emptyBatch_of_pending (hclosed : s.closed = false) {t : Tables}
    (hpending : s.pending? = some t) (now : Seconds) :
    (s.answer (emptyBatch now)).1 = .applied (.error (.write .openTransaction)) := by
  simp [answer, emptyBatch, DurableStore.apply, openBatch, hclosed, hpending]

/-- A request that leaves the store as it is leaves no trace. -/
theorem traceless_of_eq (h : (s.answer r).2 = s) : Traceless s r := by
  intro requests
  rw [h]

/-- A transaction that a request leaves open is a trace: the next batch is refused. -/
theorem not_traceless_of_pending (hclosed : s.closed = false) (hnone : s.pending? = none)
    (hclosed' : (s.answer r).2.closed = false) {t : Tables} (hpending : (s.answer r).2.pending? = some t) :
    ¬Traceless s r := by
  intro h
  have hanswers := h [emptyBatch 0]
  simp only [answers, answer_emptyBatch_of_idle hclosed hnone,
    answer_emptyBatch_of_pending hclosed' hpending, List.cons.injEq] at hanswers
  cases hanswers.1

/-- A statement that is refused leaves its transaction open, if the store is. -/
theorem change_refused {f : Tables → Except ChangeFault Tables} (hclosed : s.closed = false)
    (h : (s.change f).1 = .error fault) :
    f s.tables = .error fault ∧ (s.change f).2 = { s with pending? := some s.tables } := by
  cases hf : f s.tables with
  | ok t => simp [change, hclosed, hf] at h
  | error fault' =>
      simp only [change, hclosed, hf, Bool.false_eq_true, if_false, Except.error.injEq] at h ⊢
      exact ⟨h, trivial⟩

/-- What a store that is closed, or has a transaction open, is refused leaves it as it is. -/
theorem change_refused_eq {f : Tables → Except ChangeFault Tables}
    (hbusy : s.closed = true ∨ s.pending?.isSome = true) (h : (s.change f).1 = .error fault) :
    (s.change f).2 = s := by
  cases hclosed : s.closed with
  | true => simp [change, hclosed]
  | false =>
      obtain ⟨t, hpending⟩ := Option.isSome_iff_exists.1 (hbusy.resolve_left (by simp [hclosed]))
      have htables : some s.tables = s.pending? := by rw [tables, hpending]; rfl
      rw [(change_refused hclosed h).2, htables]

/-- A seed that is refused leaves no trace exactly if the store is closed, or a transaction was open
before, or it is refused before any statement is run. -/
theorem refused_traceless_iff (hseed : r.isSeed = true)
    (hrefused : (s.answer r).1 = .changed (.error fault)) :
    Traceless s r ↔
      s.closed = true ∨ s.pending?.isSome = true ∨ fault.byStatement = false := by
  rcases r.seed_cases hseed with ⟨fault', early, hanswer⟩ | ⟨f, rows, hanswer⟩
  · rw [hanswer] at hrefused
    cases hrefused
    exact iff_of_true (traceless_of_eq (by rw [hanswer])) (Or.inr (Or.inr early))
  · have hchange : (s.change f).1 = .error fault := by
      rw [hanswer] at hrefused
      exact Answer.changed.inj hrefused
    have hafter : (s.answer r).2 = (s.change f).2 := by rw [hanswer]; rfl
    by_cases hbusy : s.closed = true ∨ s.pending?.isSome = true
    · refine iff_of_true (traceless_of_eq ?_) (hbusy.elim Or.inl (Or.inr ∘ Or.inl))
      rw [hafter, change_refused_eq hbusy hchange]
    · -- The store is open and idle, so the refused statement is the one that opened a transaction.
      rw [not_or, Bool.not_eq_true, Option.not_isSome_iff_eq_none] at hbusy
      rcases change_refused hbusy.1 hchange with ⟨hfault, hopen⟩
      refine iff_of_false
        (not_traceless_of_pending hbusy.1 hbusy.2 (t := s.tables) (by rw [hafter, hopen]; exact hbusy.1)
          (by rw [hafter, hopen])) ?_
      simp [hbusy.1, hbusy.2, (rows _).byStatement _ hfault]

/-- A price of 2 ^ 63 is refused by its statement. -/
theorem refused_traceless_iff_hugePrice :
    (oneOrder.answer (.setPrice "s1" (.int 9223372036854775808))).1 =
        .changed (.error .integerTooLarge) ∧
      ¬Traceless oneOrder (.setPrice "s1" (.int 9223372036854775808)) := by
  have hrefused : (oneOrder.answer (.setPrice "s1" (.int 9223372036854775808))).1 =
      .changed (.error .integerTooLarge) := rfl
  refine ⟨hrefused, ?_⟩
  rw [refused_traceless_iff rfl hrefused]
  decide

/-- A position of a trader that is not there. -/
def strayPosition : Request := .setPosition "b2" "s1" (.int 5)

/-- A batch that replaces the one order. -/
def replacingBatch : Request :=
  .apply ⟨["order-1"], [{ instrumentId := "s1", botId := "b1", side := .buy,
                          limitPrice := 10, quantity := 2 }]⟩ 1704067200

theorem strayPosition_blocks_batch :
    (oneOrder.answer strayPosition).1 = .changed (.error (.database .missingReference)) ∧
      (oneOrder.answer replacingBatch).1 = .applied (.ok ()) ∧
      ((oneOrder.answer strayPosition).2.answer replacingBatch).1 =
        .applied (.error (.write .openTransaction)) ∧
      ¬Traceless oneOrder strayPosition :=
  ⟨rfl, rfl, rfl, not_traceless_of_pending (t := oneOrder.committed) rfl rfl rfl rfl⟩

end DurableStore

end RuleTrader
