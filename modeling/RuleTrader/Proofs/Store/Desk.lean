import Mathlib.Logic.Relation
import RuleTrader.Proofs.Store.Memory
import RuleTrader.Trading.Run

/-!
# Runs of a session on the store in memory

One session drives a store tick by tick. A tick reads a snapshot and decides; it sends what it decided
later, and in between orders are filled and prices, balances and positions change. `Step` lists what can
happen, and a run is any number of such steps in any order.

What carries over from one step to the next is `Orderly`: no bot has two open orders in an instrument,
and a decision that is still to be sent cancels whatever is open where it places an order. The snapshot
that the decision was made on is old by then, but orders were only taken away since.
-/

namespace RuleTrader

/-- Amounts that are whole numbers compare as these. -/
theorem le_of_lt_ofInt {a b : Int}
    (h : Amount.lt (α := Value) (Amount.ofInt a) (Amount.ofInt b) = .ok false) : b ≤ a := by
  have hlt : Amount.lt (α := Value) (Amount.ofInt a) (Amount.ofInt b) = .ok (decide (a < b)) :=
    Value.lt_number (.int a) (.int b)
  have : decide (a < b) = false := Except.ok.inj (hlt.symm.trans h)
  simpa using this

namespace MemoryStore

/-- Bots and instruments stand under their own names. -/
structure Keyed (s : MemoryStore) : Prop where
  bots : s.bots.Filed (·.id)
  instruments : s.instruments.Filed (·.id)

/-! ## Changes from outside -/

theorem setPrice_ok {s t : MemoryStore} {instrumentId : String} {price : Value}
    (h : s.setPrice instrumentId price = .ok t) : ∃ i, t = s.addInstrument i := by
  unfold setPrice at h
  cases hi : s.instruments.get? instrumentId with
  | none => simp [hi] at h
  | some i =>
      cases hn : price.toInt with
      | error fault => simp [hi, hn] at h
      | ok n =>
          simp only [hi, hn] at h
          exact ⟨_, (Except.ok.inj h).symm⟩

theorem setBalance_ok {s t : MemoryStore} {botId : String} {balance : Value}
    (h : s.setBalance botId balance = .ok t) : ∃ b, t = s.addBot b := by
  unfold setBalance at h
  cases hb : s.bots.get? botId with
  | none => simp [hb] at h
  | some b =>
      cases hn : balance.toInt with
      | error fault => simp [hb, hn] at h
      | ok n =>
          simp only [hb, hn] at h
          exact ⟨_, (Except.ok.inj h).symm⟩

theorem setPosition_ok {s t : MemoryStore} {botId instrumentId : String} {shares : Value}
    (h : s.setPosition botId instrumentId shares = .ok t) :
    ∃ positions, t = { s with positions } := by
  unfold setPosition at h
  cases hn : shares.toInt with
  | error fault => simp [hn] at h
  | ok n =>
      simp only [hn] at h
      exact ⟨_, (Except.ok.inj h).symm⟩

/-- A change of a store from outside that concerns no order. -/
inductive Change (s : MemoryStore) : MemoryStore → Prop where
  | bot (b : Bot Value) : Change s (s.addBot b)
  | instrument (i : Instrument Value) : Change s (s.addInstrument i)
  | price {instrumentId : String} {price : Value} {t : MemoryStore}
      (h : s.setPrice instrumentId price = .ok t) : Change s t
  | balance {botId : String} {balance : Value} {t : MemoryStore}
      (h : s.setBalance botId balance = .ok t) : Change s t
  | position {botId instrumentId : String} {shares : Value} {t : MemoryStore}
      (h : s.setPosition botId instrumentId shares = .ok t) : Change s t
  | ruleSet (strategyId : String) (rules : RuleDefinition) : Change s (s.setRuleSet strategyId rules)
  | aggregate (a : Aggregate Value) : Change s (s.setAggregate a)
  | failures (fetchFailure? applyFailure? : Option String) :
      Change s { s with fetchFailure?, applyFailure? }

theorem Change.orders_eq {s t : MemoryStore} (h : Change s t) : t.orders = s.orders := by
  cases h with
  | bot b => rfl
  | instrument i => rfl
  | price h =>
      rcases setPrice_ok h with ⟨i, rfl⟩
      rfl
  | balance h =>
      rcases setBalance_ok h with ⟨b, rfl⟩
      rfl
  | position h =>
      rcases setPosition_ok h with ⟨positions, rfl⟩
      rfl
  | ruleSet strategyId rules => rfl
  | aggregate a => rfl
  | failures fetchFailure? applyFailure? => rfl

theorem Change.keyed {s t : MemoryStore} (h : Change s t) (hs : s.Keyed) : t.Keyed := by
  cases h with
  | bot b => exact ⟨hs.bots.put b, hs.instruments⟩
  | instrument i => exact ⟨hs.bots, hs.instruments.put i⟩
  | price h =>
      rcases setPrice_ok h with ⟨i, rfl⟩
      exact ⟨hs.bots, hs.instruments.put i⟩
  | balance h =>
      rcases setBalance_ok h with ⟨b, rfl⟩
      exact ⟨hs.bots.put b, hs.instruments⟩
  | position h =>
      rcases setPosition_ok h with ⟨positions, rfl⟩
      exact ⟨hs.bots, hs.instruments⟩
  | ruleSet strategyId rules => exact ⟨hs.bots, hs.instruments⟩
  | aggregate a => exact ⟨hs.bots, hs.instruments⟩
  | failures fetchFailure? applyFailure? => exact ⟨hs.bots, hs.instruments⟩

/-! ## Reading and sending -/

theorem fetch_store {s t : MemoryStore} {result : Except StoreFault (Snapshot Value)}
    (h : s.fetch = (result, t)) : t = { s with fetches := s.fetches + 1 } := by
  simp only [fetch] at h
  split at h
  · exact (Prod.mk.inj h).2.symm
  · exact (Prod.mk.inj h).2.symm

theorem fetch_snd (s : MemoryStore) : s.fetch.2 = { s with fetches := s.fetches + 1 } := fetch_store rfl

theorem fetch_ok {s t : MemoryStore} {snapshot : Snapshot Value}
    (h : s.fetch = (.ok snapshot, t)) :
    snapshot = s.snapshot ∧ t = { s with fetches := s.fetches + 1 } := by
  refine ⟨?_, fetch_store h⟩
  simp only [fetch] at h
  split at h
  · cases (Prod.mk.inj h).1
  · exact (Except.ok.inj (Prod.mk.inj h).1).symm

theorem foldl_insert_tables (os : List (NewOrder Value)) (now : Micros) (s : MemoryStore) :
    (os.foldl (insert now) s).bots = s.bots ∧
      (os.foldl (insert now) s).instruments = s.instruments := by
  induction os generalizing s with
  | nil => exact ⟨rfl, rfl⟩
  | cons o os ih => exact ih (insert now s o)

theorem apply_tables (s : MemoryStore) (b : Batch Value) (now : Micros) :
    (s.apply b now).2.bots = s.bots ∧ (s.apply b now).2.instruments = s.instruments := by
  simp only [apply]
  split
  · exact ⟨rfl, rfl⟩
  · exact foldl_insert_tables b.newOrders now _

theorem Keyed.apply {s : MemoryStore} (h : s.Keyed) (b : Batch Value) (now : Micros) :
    (s.apply b now).2.Keyed where
  bots := (apply_tables s b now).1.symm ▸ h.bots
  instruments := (apply_tables s b now).2.symm ▸ h.instruments

/-- A store in memory tells its bots and instruments apart. -/
theorem Keyed.snapshot_bots {s : MemoryStore} (h : s.Keyed) :
    (s.snapshot.bots.map (·.id)).Nodup := by
  have hsub : s.snapshot.bots.Sublist s.bots.values := List.filter_sublist
  exact (h.bots.map_values ▸ h.bots.nodup).sublist (hsub.map _)

theorem Keyed.snapshot_instruments {s : MemoryStore} (h : s.Keyed) :
    (s.snapshot.instruments.map (·.id)).Nodup :=
  h.instruments.map_values ▸ h.instruments.nodup

/-- A snapshot has all open orders of the bots that it has. -/
theorem Keyed.openOrders_snapshot {s : MemoryStore} (h : s.Keyed) {botId : String}
    (hbot : botId ∈ s.snapshot.bots.map (·.id)) (instrumentId : String) :
    s.snapshot.openOrders botId instrumentId = Order.openIn s.orders botId instrumentId := by
  rcases List.mem_map.1 hbot with ⟨b, hb, rfl⟩
  have hhas := h.bots.has_of_mem (List.mem_filter.1 hb).1
  simp only [Snapshot.openOrders, Order.openIn, snapshot, List.filter_filter]
  refine List.filter_congr fun o _ => ?_
  by_cases ho : o.botId = b.id
  · cases o.isOpen <;> simp [ho, hhas]
  · simp [ho]

end MemoryStore

/-! ## Steps -/

/-- What a tick has decided and not sent yet, with the snapshot that it read. -/
structure Intent where
  setup : TickSetup
  snapshot : Snapshot Value
  decision : TickDecision Value

/-- A session on a store, in the middle of a tick or between two. -/
structure Desk where
  store : MemoryStore
  memory : TickMemory Value
  intent? : Option Intent := none

namespace Desk

/-- What a tick that decides on a snapshot is going to send. -/
def intend (setup : TickSetup) (snapshot : Snapshot Value) (outcome : TickOutcome Value) :
    Option Intent :=
  match outcome.result with
  | .ok decision => some ⟨setup, snapshot, decision⟩
  | .error _ => none

/-- One thing that happens to a session and its store. -/
inductive Step : Desk → Desk → Prop where
  | change {d : Desk} {store : MemoryStore} (h : d.store.Change store) : Step d { d with store }
  | fill (d : Desk) (id : String) : Step d { d with store := d.store.fill id }
  /-- A tick begins, and decides or fails to. -/
  | read {d : Desk} {snapshot : Snapshot Value} {store : MemoryStore} (setup : TickSetup)
      (clock : Except NumberFault Micros) (idle : d.intent? = none)
      (h : d.store.fetch = (.ok snapshot, store)) :
      Step d ⟨store, (Tick.decide setup clock snapshot d.memory).memory,
        intend setup snapshot (Tick.decide setup clock snapshot d.memory)⟩
  | readFailed {d : Desk} {fault : StoreFault} {store : MemoryStore} (idle : d.intent? = none)
      (h : d.store.fetch = (.error fault, store)) : Step d { d with store }
  /-- A tick ends: what it decided is sent, and accepted or not. -/
  | send {d : Desk} {intent : Intent} (now : Micros) (h : d.intent? = some intent) :
      Step d { d with
        store := (Tick.send (MemoryStore.access now) intent.setup intent.decision d.store).2.1
        intent? := none }

/-- The orders of a store are told apart by their names. -/
def Apart (d : Desk) : Prop := (d.store.orders.map (·.id)).Nodup

/-- A run, in which names of orders never meet. -/
def Run : Desk → Desk → Prop := Relation.ReflTransGen fun d e => Step d e ∧ e.Apart

/-- A tick in one go is a run of two steps. -/
theorem run_tick (setup : TickSetup) (clock : Except NumberFault Micros) (now : Micros)
    (store : MemoryStore) (m : TickMemory Value) (apart : (store.orders.map (·.id)).Nodup) :
    let r := Tick.run (MemoryStore.access now) setup clock store m
    (r.store.orders.map (·.id)).Nodup → Run ⟨store, m, none⟩ ⟨r.store, r.memory, none⟩ := by
  intro r hend
  rcases hfetch : store.fetch with ⟨fault | snapshot, store'⟩
  · -- Nothing was read, so there is nothing to decide or to send.
    have hr : r = ⟨.error (.store fault), store', m, []⟩ := by
      simp [r, Tick.run, MemoryStore.access, hfetch]
    rw [hr] at hend ⊢
    exact .single ⟨.readFailed rfl hfetch, hend⟩
  · have hr : r = Tick.proceed (MemoryStore.access now) setup clock snapshot store' m := by
      simp [r, Tick.run, MemoryStore.access, hfetch]
    have hread : Step ⟨store, m, none⟩ _ := .read setup clock rfl hfetch
    have hsame : (store'.orders.map (·.id)).Nodup := by
      rcases MemoryStore.fetch_ok hfetch with ⟨-, rfl⟩
      exact apart
    rw [hr] at hend ⊢
    cases hresult : (Tick.decide setup clock snapshot m).result with
    | error fault =>
        -- A tick that decides nothing is over once it has read.
        simp only [intend, hresult] at hread
        simp only [Tick.proceed, hresult]
        exact .single ⟨hread, hsame⟩
    | ok decision =>
        have hsend := @Step.send ⟨store', (Tick.decide setup clock snapshot m).memory,
          some ⟨setup, snapshot, decision⟩⟩ ⟨setup, snapshot, decision⟩ now rfl
        simp only [intend, hresult] at hread
        simp only [Tick.proceed, hresult] at hend ⊢
        exact (Relation.ReflTransGen.single ⟨hread, hsame⟩).tail ⟨hsend, hend⟩

/-! ## The invariant -/

/-- No bot has two open orders in an instrument. -/
def OneEach (orders : List (Order Value)) : Prop :=
  ∀ botId instrumentId, (Order.openIn orders botId instrumentId).length ≤ 1

/-- What an intent promises about the store that it is sent to. -/
structure Ready (orders : List (Order Value)) (intent : Intent) : Prop where
  places : (intent.decision.newOrders.map (·.place)).Nodup
  opened : ∀ o ∈ intent.decision.newOrders, o.status = .opened
  cleared : ∀ o ∈ intent.decision.newOrders, ∀ x ∈ Order.openIn orders o.botId o.instrumentId,
    x.id ∈ intent.decision.cancelIds
  held : ∀ o ∈ intent.decision.newOrders, o.side = .sell →
    ∃ data, Organized.ofSnapshot (Tick.scope intent.setup intent.snapshot) = .ok data ∧
      o.quantity ≤ data.sharesOwned o.botId o.instrumentId

/-- The invariant of a run. -/
structure Orderly (d : Desk) : Prop where
  keyed : d.store.Keyed
  oneEach : OneEach d.store.orders
  ready : ∀ intent, d.intent? = some intent → Ready d.store.orders intent

/-- Open orders that are only taken away leave an intent ready. -/
theorem Ready.mono {orders orders' : List (Order Value)} {intent : Intent}
    (hsub : ∀ botId instrumentId,
      Order.openIn orders' botId instrumentId ⊆ Order.openIn orders botId instrumentId)
    (h : Ready orders intent) : Ready orders' intent :=
  ⟨h.places, h.opened, fun o ho x hx => h.cleared o ho x (hsub _ _ hx), h.held⟩

/-- A decision on the snapshot of a store is ready for this store. -/
theorem ready_intend {store : MemoryStore} (keyed : store.Keyed) {setup : TickSetup}
    {clock : Except NumberFault Micros} {m : TickMemory Value} {intent : Intent}
    (h : intend setup store.snapshot (Tick.decide setup clock store.snapshot m) = some intent) :
    Ready store.orders intent := by
  unfold intend at h
  split at h
  · next decision hdecision =>
      obtain rfl := Option.some.inj h
      rcases Tick.decide_guarded keyed.snapshot_bots keyed.snapshot_instruments hdecision
        with ⟨hplaces, hguarded⟩
      refine ⟨hplaces, ?_, ?_, ?_⟩
      · intro o ho
        rcases hguarded o ho with ⟨data, -, hguard⟩
        exact hguard.opened
      · intro o ho x hx
        rcases hguarded o ho with ⟨data, -, hguard⟩
        have hbot : o.botId ∈ store.snapshot.bots.map (·.id) :=
          ((Tick.scope_bots_sublist setup store.snapshot).map (·.id)).subset hguard.bot
        rw [← keyed.openOrders_snapshot hbot, ← Tick.openOrders_scope hguard.bot] at hx
        exact hguard.cleared x hx
      · intro o ho hsell
        rcases hguarded o ho with ⟨data, hdata, hguard⟩
        exact ⟨data, hdata, le_of_lt_ofInt (hguard.held hsell)⟩
  · cases h

/-- An intent has no other order in the place of one of its orders. -/
theorem Ready.place_not_mem {orders : List (Order Value)} {intent : Intent}
    (h : Ready orders intent) {earlier later : List (NewOrder Value)} {o : NewOrder Value}
    (hsplit : intent.decision.newOrders = earlier ++ o :: later) :
    o.place ∉ earlier.map (·.place) ∧ o.place ∉ later.map (·.place) := by
  have hnodup := h.places
  rw [hsplit, List.map_append, List.map_cons, List.nodup_append, List.nodup_cons] at hnodup
  refine ⟨?_, hnodup.2.1.1⟩
  intro hmem
  exact hnodup.2.2 _ hmem _ (List.mem_cons_self ..) rfl

/-- An order of a batch that is ready is the only open one in its place once it is inserted. -/
theorem Ready.openIn_inserted {store : MemoryStore} {intent : Intent}
    (nodup : (store.orders.map (·.id)).Nodup) (h : Ready store.orders intent)
    {earlier later : List (NewOrder Value)} {o : NewOrder Value}
    (hsplit : intent.decision.newOrders = earlier ++ o :: later) (now : Micros) :
    Order.openIn (store.midway intent.decision.cancelIds (earlier ++ [o]) now).orders
      o.botId o.instrumentId =
      [MemoryStore.storedOrder (MemoryStore.orderName (store.named + earlier.length + 1)) now o] := by
  have ho : o ∈ intent.decision.newOrders := by simp [hsplit]
  exact MemoryStore.openIn_midway nodup (h.opened o ho) (h.cleared o ho) (h.place_not_mem hsplit).1 now

/-- A batch that is ready leaves at most one open order in each place. -/
theorem Ready.oneEach_midway {store : MemoryStore} {intent : Intent} {now : Micros}
    (nodup : (store.orders.map (·.id)).Nodup) (hone : OneEach store.orders)
    (h : Ready store.orders intent) :
    OneEach (store.midway intent.decision.cancelIds intent.decision.newOrders now).orders := by
  intro botId instrumentId
  by_cases hplace : (instrumentId, botId) ∈ intent.decision.newOrders.map (·.place)
  · -- The order of this place is alone there when it is inserted, and no later one joins it.
    rcases List.mem_map.1 hplace with ⟨o, ho, heq⟩
    obtain ⟨rfl, rfl⟩ := Prod.mk.inj heq
    rcases List.append_of_mem ho with ⟨earlier, later, hsplit⟩
    have hassoc : store.midway intent.decision.cancelIds intent.decision.newOrders now =
        later.foldl (MemoryStore.insert now)
          (store.midway intent.decision.cancelIds (earlier ++ [o]) now) := by
      simp [hsplit, MemoryStore.midway]
    rw [hassoc, MemoryStore.openIn_foldl_insert_of_not_mem (h.place_not_mem hsplit).2,
      h.openIn_inserted nodup hsplit now]
    exact Nat.le_refl 1
  · -- Nothing is inserted here, and cancelling opens no order.
    rw [MemoryStore.midway, MemoryStore.openIn_foldl_insert_of_not_mem hplace]
    exact Nat.le_trans (MemoryStore.openIn_cancelled_sublist _ _).length_le
      (hone botId instrumentId)

/-- What sending leaves of a store: the store as it was, or the batch applied. -/
theorem send_cases (now : Micros) (setup : TickSetup) (decision : TickDecision Value)
    (store : MemoryStore) :
    let store' := (Tick.send (MemoryStore.access now) setup decision store).2.1
    store' = store ∨
      (store.applyFailure? = none ∧ store' = (store.apply decision.batch now).2) := by
  intro store'
  simp only [store', Tick.send, MemoryStore.access]
  split
  · cases hfailure : store.applyFailure? with
    | some reason => exact Or.inl (by simp [MemoryStore.apply, hfailure])
    | none => exact Or.inr ⟨rfl, by simp [MemoryStore.apply, hfailure]⟩
  · exact Or.inl rfl

/-- Every step keeps the invariant. -/
theorem Orderly.step {d e : Desk} (apart : d.Apart) (hstep : Step d e) (h : Orderly d) :
    Orderly e := by
  cases hstep with
  | change hchange =>
      refine ⟨hchange.keyed h.keyed, ?_, ?_⟩
      · rw [hchange.orders_eq]
        exact h.oneEach
      · intro intent hintent
        rw [hchange.orders_eq]
        exact h.ready intent hintent
  | fill id =>
      have hsub (botId instrumentId : String) :
          (Order.openIn (d.store.fill id).orders botId instrumentId).Sublist
            (Order.openIn d.store.orders botId instrumentId) :=
        MemoryStore.openIn_closeOrder_sublist (by decide)
      -- Open orders are only taken away, also while an intent waits.
      refine ⟨⟨h.keyed.bots, h.keyed.instruments⟩, ?_, ?_⟩
      · intro botId instrumentId
        exact Nat.le_trans (hsub botId instrumentId).length_le (h.oneEach botId instrumentId)
      · intro intent hintent
        exact (h.ready intent hintent).mono fun botId instrumentId =>
          (hsub botId instrumentId).subset
  | read setup clock idle hfetch =>
      -- The new intent is about the store as it is now: reading changes no table.
      rcases MemoryStore.fetch_ok hfetch with ⟨rfl, hstore⟩
      obtain rfl := hstore
      exact ⟨⟨h.keyed.bots, h.keyed.instruments⟩, h.oneEach,
        fun intent hintent => ready_intend h.keyed hintent⟩
  | readFailed idle hfetch =>
      obtain rfl := MemoryStore.fetch_store hfetch
      refine ⟨⟨h.keyed.bots, h.keyed.instruments⟩, h.oneEach, ?_⟩
      intro intent hintent
      simp [idle] at hintent
  | @send intent now hintent =>
      have hready := h.ready intent hintent
      rcases send_cases now intent.setup intent.decision d.store with hsame | ⟨hfailure, happly⟩
      · refine ⟨?_, ?_, by simp⟩
        · rw [hsame]; exact h.keyed
        · rw [hsame]; exact h.oneEach
      · refine ⟨?_, ?_, by simp⟩
        · rw [happly]
          exact h.keyed.apply _ now
        · rw [happly, MemoryStore.apply_orders hfailure]
          exact hready.oneEach_midway apart h.oneEach

/-- What holds of a store at the start of a run holds after any number of steps. -/
theorem Orderly.run {d e : Desk} (apart : d.Apart) (hrun : Run d e) (h : Orderly d) :
    e.Apart ∧ Orderly e := by
  induction hrun with
  | refl => exact ⟨apart, h⟩
  | tail _ hstep ih => exact ⟨hstep.2, ih.2.step ih.1 hstep.1⟩

/-! ## One resting order -/

theorem length_filter_place_le {α : Type} {orders : List (NewOrder α)}
    (nodup : (orders.map (·.place)).Nodup) (botId instrumentId : String) :
    (orders.filter fun o => o.botId == botId && o.instrumentId == instrumentId).length ≤ 1 := by
  have hsub : ((orders.filter fun o => o.botId == botId && o.instrumentId == instrumentId).map
      (·.place)).Nodup := nodup.sublist (List.filter_sublist.map _)
  have hsame : ∀ x ∈ (orders.filter fun o => o.botId == botId && o.instrumentId == instrumentId).map
      (·.place), x = (instrumentId, botId) := by
    intro x hx
    rcases List.mem_map.1 hx with ⟨o, ho, rfl⟩
    have hplace : o.botId = botId ∧ o.instrumentId = instrumentId := by
      simpa using (List.mem_filter.1 ho).2
    rw [NewOrder.place, hplace.1, hplace.2]
  rw [List.eq_replicate_of_mem hsame] at hsub
  simpa using List.nodup_replicate.1 hsub

/-- A tick places at most one order for a bot in an instrument, and only if the same batch cancels every
order that the snapshot has open there. So in every run of a session, with whatever else happens at any
point, no bot ever has two open orders in an instrument if none had at the start. An order that a tick
inserts is the only open one in its place at once, and a sell order is for no more shares than the
snapshot of its tick reports. -/
theorem one_resting_order :
    (∀ (α : Type) [Amount α] (setup : TickSetup) (clock : Except NumberFault Micros)
      (snapshot : Snapshot α) (m : TickMemory α) (decision : TickDecision α),
      snapshot.Distinct → (Tick.decide setup clock snapshot m).result = .ok decision →
      (∀ botId instrumentId, (decision.newOrders.filter fun o =>
        o.botId == botId && o.instrumentId == instrumentId).length ≤ 1) ∧
      ∀ o ∈ decision.newOrders, ∀ x ∈ snapshot.openOrders o.botId o.instrumentId,
        x.id ∈ decision.cancelIds) ∧
    ∀ d e : Desk, d.store.Keyed → d.intent? = none → d.Apart → OneEach d.store.orders → Run d e →
      OneEach e.store.orders ∧
      ∀ intent now earlier o later, e.intent? = some intent →
        intent.decision.newOrders = earlier ++ o :: later →
        Order.openIn (e.store.midway intent.decision.cancelIds (earlier ++ [o]) now).orders
          o.botId o.instrumentId =
          [MemoryStore.storedOrder (MemoryStore.orderName (e.store.named + earlier.length + 1)) now o] ∧
        (o.side = .sell →
          ∃ data, Organized.ofSnapshot (Tick.scope intent.setup intent.snapshot) = .ok data ∧
            o.quantity ≤ data.sharesOwned o.botId o.instrumentId) := by
  refine ⟨?_, ?_⟩
  · intro α _ setup clock snapshot m decision hdistinct hdecision
    rcases Tick.decide_guarded hdistinct.bots hdistinct.instruments hdecision with ⟨hplaces, hguarded⟩
    refine ⟨length_filter_place_le hplaces, ?_⟩
    intro o ho x hx
    rcases hguarded o ho with ⟨data, -, hguard⟩
    rw [← Tick.openOrders_scope hguard.bot] at hx
    exact hguard.cleared x hx
  · intro d e keyed idle apart hone hrun
    -- The invariant says of the batch under way that it cancels what its new orders would meet.
    have horderly : Orderly d := ⟨keyed, hone, fun intent hintent => by simp [idle] at hintent⟩
    have hend := horderly.run apart hrun
    refine ⟨hend.2.oneEach, ?_⟩
    intro intent now earlier o later hintent hsplit
    have hready := hend.2.ready intent hintent
    have ho : o ∈ intent.decision.newOrders := by simp [hsplit]
    exact ⟨hready.openIn_inserted hend.1 hsplit now, hready.held o ho⟩

/-- A store with a bot that has a sell order resting, and more shares to sell. -/
def oneResting : MemoryStore where
  bots := [("b1", { id := "b1", balance := .int 100 })]
  instruments := [("i1", { id := "i1", symbol := "ACME", price := .int 10 })]
  orders := [{ id := "o1", instrumentId := "i1", botId := "b1", side := .sell,
               limitPrice := .int 9, quantity := .int 2, createdAt := 0 }]
  positions := [(("b1", "i1"), 5)]

/-- Every order is cancelled, and a bot sells when the price is up. -/
def sellAnew : TickSetup where
  session := "s"
  rules? := some [
    ⟨.allOf [.comparison "orderPrice" .greaterThan (.literal (.number 0))], ⟨.cancel, []⟩, 2⟩,
    ⟨.allOf [.comparison "isPriceUp" .equal (.literal (.bool true))],
      ⟨.sell, [("limitPriceType", .text "market")]⟩, 1⟩]

/-- The session before a tick, when the price was lower. -/
def beforeTick : Desk :=
  ⟨oneResting, ⟨{ capacity := 5, lastPrices := [("i1", .int 9)] }, .script {}⟩, none⟩

/-- The session once its tick has read the store. -/
def afterRead : Desk :=
  let outcome := Tick.decide sellAnew (.ok 0) oneResting.snapshot beforeTick.memory
  ⟨oneResting.fetch.2, outcome.memory, intend sellAnew oneResting.snapshot outcome⟩

/-- The session when the order is filled before the tick sends anything. -/
def afterFill : Desk := { afterRead with store := afterRead.store.fill "o1" }

/-- The order that takes the place of the resting one. -/
def soldAnew : NewOrder Value where
  instrumentId := "i1"
  botId := "b1"
  side := .sell
  limitPrice := .int 10
  quantity := 1

/-- What the tick decides. -/
def renewal : TickDecision Value where
  bots := 1
  instruments := 1
  cancelIds := ["o1"]
  newOrders := [soldAnew]

/-- The order is filled between reading and sending; and the whole tick in one go is a run as well. -/
theorem one_resting_order_filled :
    (oneResting.snapshot.Distinct ∧
      (Tick.decide sellAnew (.ok 0) oneResting.snapshot beforeTick.memory).result = .ok renewal ∧
      ∀ o ∈ renewal.newOrders, ∀ x ∈ oneResting.snapshot.openOrders o.botId o.instrumentId,
        x.id ∈ renewal.cancelIds) ∧
    beforeTick.store.Keyed ∧ beforeTick.intent? = none ∧ beforeTick.Apart ∧
      OneEach beforeTick.store.orders ∧ Run beforeTick afterFill ∧ OneEach afterFill.store.orders ∧
      afterFill.intent? = some ⟨sellAnew, oneResting.snapshot, renewal⟩ ∧
      Order.openIn (afterFill.store.midway renewal.cancelIds [soldAnew] 0).orders "b1" "i1" =
        [MemoryStore.storedOrder (MemoryStore.orderName 1) 0 soldAnew] ∧
      (∃ data, Organized.ofSnapshot (Tick.scope sellAnew oneResting.snapshot) = .ok data ∧
        soldAnew.quantity ≤ data.sharesOwned "b1" "i1") ∧
      let whole := Tick.run (MemoryStore.access 0) sellAnew (.ok 0) oneResting beforeTick.memory
      whole.store.orders.map (·.id) = ["o1", "sim-1"] ∧ Run beforeTick ⟨whole.store, whole.memory, none⟩ ∧
        OneEach whole.store.orders := by
  have distinct : oneResting.snapshot.Distinct := ⟨by decide, by decide, by decide⟩
  have hdecision : (Tick.decide sellAnew (.ok 0) oneResting.snapshot
      beforeTick.memory).result = .ok renewal := rfl
  have keyed : beforeTick.store.Keyed :=
    ⟨⟨by decide, by simp [beforeTick, oneResting]⟩, ⟨by decide, by simp [beforeTick, oneResting]⟩⟩
  have apart : beforeTick.Apart := by
    unfold Apart
    decide
  have hone : OneEach beforeTick.store.orders := fun _ _ => List.length_filter_le _ _
  have hread : Step beforeTick afterRead := .read sellAnew (.ok 0) rfl rfl
  have hfill : Step afterRead afterFill := .fill afterRead "o1"
  have hrun : Run beforeTick afterFill :=
    (Relation.ReflTransGen.single ⟨hread, apart⟩).tail ⟨hfill, apart⟩
  have hintent : afterFill.intent? = some ⟨sellAnew, oneResting.snapshot, renewal⟩ := rfl
  have hcleared := one_resting_order.1 Value sellAnew (.ok 0) oneResting.snapshot
    beforeTick.memory renewal distinct hdecision
  have hend := one_resting_order.2 beforeTick afterFill keyed rfl apart hone hrun
  have hsold := hend.2 _ 0 [] soldAnew [] hintent rfl
  have hnames : (Tick.run (MemoryStore.access 0) sellAnew (.ok 0) oneResting beforeTick.memory).store.orders.map
      (·.id) = ["o1", "sim-1"] := rfl
  have hwhole := run_tick sellAnew (.ok 0) 0 oneResting beforeTick.memory apart (by rw [hnames]; decide)
  exact ⟨⟨distinct, hdecision, hcleared.2⟩, keyed, rfl, apart, hone, hrun, hend.1, hintent,
    hsold.1, hsold.2 rfl, hnames, hwhole, (one_resting_order.2 beforeTick _ keyed rfl apart hone hwhole).1⟩

end Desk

end RuleTrader
