import RuleTrader.Proofs.Store.Seed

/-!
# What a batch reaches

A batch reaches some bots of a store if it cancels orders of these and inserts orders for these. It goes on
to do so while the store grows, and a store only grows: orders are closed and not removed, and bots stay.
Where orders are told apart by their names, closing the orders that such a batch names is closing among the
orders of its bots.
-/

namespace RuleTrader

namespace MemoryStore

/-- The orders of a store are told apart by their names. -/
def Apart (s : MemoryStore) : Prop := (s.orders.map (·.id)).Nodup

/-! ## Growing -/

/-- The name of an order and of its bot. -/
def tag (o : Order Value) : String × String := (o.id, o.botId)

theorem closeOrder_tags (id : String) (status : OrderStatus) (orders : List (Order Value)) :
    (closeOrder id status orders).map tag = orders.map tag :=
  closeOrder_map tag (fun _ _ => rfl) id status orders

theorem cancelled_tags (ids : List String) (orders : List (Order Value)) :
    (cancelled ids orders).map tag = orders.map tag := by
  induction ids generalizing orders with
  | nil => rfl
  | cons id ids ih =>
      calc
        (cancelled (id :: ids) orders).map tag
            = (cancelled ids (closeOrder id .cancelled orders)).map tag := rfl
        _ = orders.map tag := by rw [ih, closeOrder_tags]

/-- What becomes of a store in time: no order and no bot goes away. -/
structure Grows (s t : MemoryStore) : Prop where
  orders : s.orders.map tag <+: t.orders.map tag
  bots : ∀ botId, s.bots.has botId = true → t.bots.has botId = true

namespace Grows

variable {s t u : MemoryStore}

theorem refl (s : MemoryStore) : s.Grows s := ⟨List.prefix_refl _, fun _ h => h⟩

theorem trans (hst : s.Grows t) (htu : t.Grows u) : s.Grows u :=
  ⟨hst.orders.trans htu.orders, fun botId h => htu.bots botId (hst.bots botId h)⟩

theorem mem_order (h : s.Grows t) {o : Order Value} (ho : o ∈ s.orders) :
    ∃ x ∈ t.orders, x.id = o.id ∧ x.botId = o.botId := by
  rcases List.mem_map.1 (h.orders.subset (List.mem_map_of_mem ho)) with ⟨x, hx, heq⟩
  exact ⟨x, hx, (Prod.mk.inj heq).1, (Prod.mk.inj heq).2⟩

/-- Orders that are apart in the end were apart all the time. -/
theorem apart (h : s.Grows t) (ht : t.Apart) : s.Apart := by
  have hids (v : MemoryStore) : v.orders.map (·.id) = (v.orders.map tag).map (·.1) := by
    simp [tag, Function.comp_def]
  -- The names are a part of the tags, so they grow with these.
  have hsub : (s.orders.map (·.id)).Sublist (t.orders.map (·.id)) := by
    rw [hids, hids]
    exact h.orders.sublist.map _
  exact List.Nodup.sublist hsub ht

theorem of_eq (horders : t.orders.map tag = s.orders.map tag) (hbots : t.bots = s.bots) :
    s.Grows t :=
  ⟨horders ▸ List.prefix_refl _, fun _ h => hbots ▸ h⟩

end Grows

variable {s : MemoryStore}

theorem grows_fill (id : String) : s.Grows (s.fill id) :=
  .of_eq (closeOrder_tags id .filled s.orders) rfl

/-- Fill one of the orders of some bots, if there are so many. -/
def fillNth (s : MemoryStore) (q : String → Bool) (k : Nat) : MemoryStore :=
  match (s.orders.filter fun o => q o.botId)[k]? with
  | some o => s.fill o.id
  | none => s

theorem grows_fillNth (q : String → Bool) (k : Nat) : s.Grows (s.fillNth q k) := by
  unfold fillNth
  cases (s.orders.filter fun o => q o.botId)[k]? with
  | none => exact .refl s
  | some o => exact grows_fill o.id

/-- What is fetched does not depend on how often it was fetched before. -/
theorem fetch_eq (s : MemoryStore) :
    s.fetch.1 =
      match s.fetchFailure? with
      | some reason => .error (.fetchFailed reason)
      | none => .ok s.snapshot := by
  simp only [fetch]
  cases s.fetchFailure? <;> rfl

theorem grows_fetch : s.Grows s.fetch.2 := by
  rw [fetch_snd]
  exact .of_eq rfl rfl

theorem grows_append (orders : List (Order Value)) (named : Nat) :
    s.Grows { s with orders := s.orders ++ orders, named } :=
  ⟨by simp, fun _ h => h⟩

theorem grows_inserts (now : Micros) (os : List (NewOrder Value)) (s : MemoryStore) :
    s.Grows (os.foldl (insert now) s) := by
  induction os generalizing s with
  | nil => exact .refl s
  | cons o os ih => exact (grows_append _ _).trans (ih (s.insert now o))

theorem grows_midway (ids : List String) (os : List (NewOrder Value)) (now : Micros) :
    s.Grows (s.midway ids os now) := by
  have hcancel : s.Grows { s with orders := cancelled ids s.orders } :=
    .of_eq (cancelled_tags ids s.orders) rfl
  exact hcancel.trans (grows_inserts now os _)

/-- Applying a batch that is not refused. -/
theorem apply_ok (h : s.applyFailure? = none) (b : Batch Value) (now : Micros) :
    s.apply b now =
      (.ok (), { s.midway b.cancelIds b.newOrders now with
        batches := (s.midway b.cancelIds b.newOrders now).batches ++ [b] }) := by
  unfold apply
  split
  · next reason hreason => cases h.symm.trans hreason
  · rfl

theorem apply_refused {reason : String} (h : s.applyFailure? = some reason) (b : Batch Value)
    (now : Micros) : s.apply b now = (.error (.applyFailed reason), s) := by
  simp only [apply, h]

/-- Sending a decision: there may be nothing to send, and what is sent may be refused. -/
theorem send_eq (now : Micros) (setup : TickSetup) (d : TickDecision Value) (s : MemoryStore) :
    Tick.send (access now) setup d s =
      if d.hasBatch then
        match s.applyFailure? with
        | some reason => (.error (.store (.applyFailed reason)), s, [])
        | none =>
          (.ok d, { s.midway d.cancelIds d.newOrders now with
              batches := (s.midway d.cancelIds d.newOrders now).batches ++ [d.batch] },
            [Tick.sentNotice setup d])
      else (.ok d, s, []) := by
  unfold Tick.send access
  dsimp only
  cases hfailure : s.applyFailure? with
  | some reason => rw [apply_refused hfailure]
  | none =>
      rw [apply_ok hfailure]
      rfl

/-- A tick that sends what it decided has this as its result, if it does not fail. -/
theorem send_ok {now : Micros} {setup : TickSetup} {d d' : TickDecision Value} {s : MemoryStore}
    (h : (Tick.send (access now) setup d s).1 = .ok d') : d' = d := by
  rw [send_eq] at h
  cases hsends : d.hasBatch with
  | false => simpa [hsends] using h.symm
  | true =>
      cases hfailure : s.applyFailure? with
      -- A batch that is refused makes the tick fail.
      | some reason => simp [hsends, hfailure] at h
      | none => simpa [hsends, hfailure] using h.symm

/-- Whether there is something to send hangs on no name. -/
theorem hasBatch_rename (ρ : String → String) (d : TickDecision Value) :
    (d.rename ρ).hasBatch = d.hasBatch := by
  simp [TickDecision.hasBatch, TickDecision.rename]

theorem grows_send (now : Micros) (setup : TickSetup) (d : TickDecision Value) :
    s.Grows (Tick.send (access now) setup d s).2.1 := by
  have hmidway := s.grows_midway d.cancelIds d.newOrders now
  rw [send_eq]
  cases d.hasBatch with
  | false => exact .refl s
  | true =>
      cases s.applyFailure? with
      | some reason => exact .refl s
      -- Noting the batch touches neither orders nor bots.
      | none => exact ⟨hmidway.orders, hmidway.bots⟩

end MemoryStore

theorem Seed.plant_grows (x : Seed) (s : MemoryStore) : s.Grows (x.plant s) := by
  cases x with
  | bot b => exact ⟨List.prefix_refl _, fun botId h => Table.has_put b h⟩
  | balance botId amount =>
      rcases plant_balance botId amount s with hsame | ⟨b, n, -, hplant⟩
      · rw [hsame]
        exact .refl s
      -- The bot is put in again in its place.
      · rw [hplant]
        exact ⟨List.prefix_refl _, fun botId h => Table.has_put _ h⟩
  | position botId instrumentId shares =>
      simp only [plant, MemoryStore.setPosition]
      cases shares.toInt <;> exact .of_eq rfl rfl
  | order e now =>
      rcases s.addOrder_store e now with ⟨named, hstore⟩
      rw [plant, hstore]
      exact MemoryStore.grows_append _ _
  | price instrumentId amount =>
      simp only [plant, MemoryStore.setPrice]
      cases s.instruments.get? instrumentId with
      | none => exact .refl s
      | some i => cases amount.toInt <;> exact .of_eq rfl rfl
  | ruleSet strategyId rules => exact .of_eq rfl rfl
  | instrument i => exact .of_eq rfl rfl
  | aggregate a => exact .of_eq rfl rfl
  | failures fetchFailure? applyFailure? => exact .of_eq rfl rfl

/-! ## Reach -/

/-- A batch that reaches only some bots of a store: it cancels orders of these, and it inserts orders for
these. -/
structure Batch.Within (q : String → Bool) (s : MemoryStore) (b : Batch Value) : Prop where
  cancels : ∀ id ∈ b.cancelIds,
    ∃ o ∈ s.orders, o.id = id ∧ q o.botId = true ∧ s.bots.has o.botId = true
  inserts : ∀ o ∈ b.newOrders, q o.botId = true ∧ s.bots.has o.botId = true

namespace Batch.Within

variable {q : String → Bool} {s t : MemoryStore} {b : Batch Value}

theorem grows (hgrows : s.Grows t) (h : b.Within q s) : b.Within q t where
  cancels := by
    intro id hid
    rcases h.cancels id hid with ⟨o, ho, rfl, hq, hbot⟩
    rcases hgrows.mem_order ho with ⟨x, hx, hid, hbotId⟩
    exact ⟨x, hx, hid, hbotId ▸ hq, hbotId ▸ hgrows.bots _ hbot⟩
  inserts := fun o ho => ⟨(h.inserts o ho).1, hgrows.bots _ (h.inserts o ho).2⟩

/-- What a tick decides reaches only bots that it is for. -/
theorem of_decide {setup : TickSetup} {clock : Except NumberFault Micros} {m : TickMemory Value}
    {d : TickDecision Value}
    (hscope : ∀ x ∈ (Tick.scope setup s.snapshot).bots, q x.id = true ∧ s.bots.has x.id = true)
    (h : (Tick.decide setup clock s.snapshot m).result = .ok d) : d.batch.Within q s := by
  have hreaches := Tick.decide_reaches h
  have hbots (botId : String) (hbot : botId ∈ (Tick.scope setup s.snapshot).bots.map (·.id)) :
      q botId = true ∧ s.bots.has botId = true := by
    rcases List.mem_map.1 hbot with ⟨x, hx, rfl⟩
    exact hscope x hx
  refine ⟨?_, fun o ho => hbots _ (hreaches.inserts o ho)⟩
  intro id hid
  -- What is cancelled was seen, and what is seen is in the store.
  rcases hreaches.cancels id hid with ⟨o, ho, hname, hbot⟩
  have hmem : o ∈ s.snapshot.orders := (Tick.scope_orders_sublist setup s.snapshot).subset ho
  exact ⟨o, (List.mem_filter.1 hmem).1, hname, hbots _ hbot⟩

end Batch.Within

namespace MemoryStore

/-! ## Closing among the orders of some bots -/

section Closing

variable {q : String → Bool} {orders : List (Order Value)} {id : String}

/-- Every order of a name is of a bot of the kind. -/
def Names (q : String → Bool) (id : String) (orders : List (Order Value)) : Prop :=
  ∀ e ∈ orders.map tag, e.1 = id → q e.2 = true

/-- Where the orders are apart, one order of a name tells about all of them. -/
theorem Apart.names {s : MemoryStore} (apart : s.Apart)
    (h : ∃ o ∈ s.orders, o.id = id ∧ q o.botId = true) : Names q id s.orders := by
  rcases h with ⟨o, ho, hname, hq⟩
  intro e he heq
  rcases List.mem_map.1 he with ⟨x, hx, rfl⟩
  have hxo : x = o := List.inj_on_of_nodup_map apart hx ho (heq.trans hname.symm)
  exact hxo ▸ hq

/-- The orders of some bots after closing one of them. -/
theorem filter_closeOrder (status : OrderStatus) (h : Names q id orders) :
    (closeOrder id status orders).filter (fun o => q o.botId) =
      closeOrder id status (orders.filter fun o => q o.botId) := by
  induction orders with
  | nil => rfl
  | cons o os ih =>
      have hrest : Names q id os := fun e he => h e (List.mem_cons_of_mem _ he)
      rw [closeOrder]
      by_cases hclosed : o.id = id ∧ o.isOpen = true
      -- The order that is closed passes the filter, so it is the first of its name there, too.
      · have hq : q o.botId = true := h (tag o) (List.mem_cons_self ..) hclosed.1
        simp [hclosed, hq, closeOrder]
      · cases hq : q o.botId with
        | true => simp [hclosed, hq, closeOrder, ih hrest]
        | false => simp [hclosed, hq, ih hrest]

/-- The orders of some bots do not change when an order of another bot is closed. -/
theorem filter_closeOrder_of_not (status : OrderStatus)
    (h : Names (fun botId => !q botId) id orders) :
    (closeOrder id status orders).filter (fun o => q o.botId) = orders.filter fun o => q o.botId := by
  induction orders with
  | nil => rfl
  | cons o os ih =>
      have hrest : Names (fun botId => !q botId) id os := fun e he => h e (List.mem_cons_of_mem _ he)
      rw [closeOrder]
      by_cases hclosed : o.id = id ∧ o.isOpen = true
      · have hq : q o.botId = false := by
          simpa [tag] using h (tag o) (List.mem_cons_self ..) hclosed.1
        simp [hclosed, hq]
      · simp [hclosed, List.filter_cons, ih hrest]

theorem filter_cancelled {ids : List String} (h : ∀ id ∈ ids, Names q id orders) :
    (cancelled ids orders).filter (fun o => q o.botId) =
      cancelled ids (orders.filter fun o => q o.botId) := by
  induction ids generalizing orders with
  | nil => rfl
  | cons id ids ih =>
      -- Closing an order changes no tag, so the other names are still of bots of the kind.
      have hrest : ∀ id' ∈ ids, Names q id' (closeOrder id .cancelled orders) := by
        intro id' hid'
        unfold Names
        rw [closeOrder_tags]
        exact h id' (List.mem_cons_of_mem _ hid')
      have hfirst := filter_closeOrder .cancelled (h id (List.mem_cons_self ..))
      exact (ih hrest).trans (congrArg (cancelled ids) hfirst)

theorem filter_cancelled_of_not {ids : List String}
    (h : ∀ id ∈ ids, Names (fun botId => !q botId) id orders) :
    (cancelled ids orders).filter (fun o => q o.botId) = orders.filter fun o => q o.botId := by
  induction ids generalizing orders with
  | nil => rfl
  | cons id ids ih =>
      have hrest : ∀ id' ∈ ids, Names (fun botId => !q botId) id' (closeOrder id .cancelled orders) := by
        intro id' hid'
        unfold Names
        rw [closeOrder_tags]
        exact h id' (List.mem_cons_of_mem _ hid')
      have hfirst := filter_closeOrder_of_not .cancelled (h id (List.mem_cons_self ..))
      exact (ih hrest).trans hfirst

theorem cancelled_rename {ρ : String → String} (hρ : Function.Injective ρ) (ids : List String)
    (orders : List (Order Value)) :
    cancelled (ids.map ρ) (orders.map (·.rename ρ)) = (cancelled ids orders).map (·.rename ρ) := by
  induction ids generalizing orders with
  | nil => rfl
  | cons id ids ih =>
      have hfirst := closeOrder_rename hρ id .cancelled orders
      exact (congrArg (cancelled (ids.map ρ)) hfirst).trans (ih _)

end Closing

end MemoryStore

end RuleTrader
