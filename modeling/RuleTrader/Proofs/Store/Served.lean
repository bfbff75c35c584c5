import RuleTrader.Proofs.Store.Atomicity
import RuleTrader.Proofs.Outcome
import RuleTrader.Proofs.Table

/-!
# What a store was asked to write

What requests write can be told without the tables. Each request puts in or changes one row, or it is a batch
that cancels and inserts orders (`Request.Does`). A store that has accepted a sequence of requests holds what
they wrote one after the other (`Served.ran`): the last values that were put in under each key, all trades,
and all orders, of which the open ones are those that no later batch named (`openRows`).
-/

namespace RuleTrader

namespace DurableStore

/-! ## What requests write -/

namespace Request

/-- The name and the symbol of an instrument that is put in. -/
def symbol? : Request → Option (String × String)
  | .putInstrument id symbol _ => some (id, symbol)
  | _ => none

/-- A price that is given to an instrument, which may not be there. -/
def price? : Request → Option (String × Int)
  | .putInstrument id _ price | .setPrice id price => price.toInt.toOption.map (id, ·)
  | _ => none

/-- The rules that are put in for a strategy. -/
def rules? : Request → Option (String × Value)
  | .putStrategy strategyId rules => some (strategyId, rules)
  | _ => none

/-- A trader that is put in, by name. -/
def trader? : Request → Option (String × Bot Int)
  | .putTrader b => b.balance.toInt.toOption.map fun n => (b.id, { b with balance := n })
  | _ => none

/-- The shares of a position, by trader and instrument. -/
def position? : Request → Option ((String × String) × Int)
  | .setPosition botId instrumentId shares => shares.toInt.toOption.map ((botId, instrumentId), ·)
  | _ => none

/-- A trade that is added. -/
def trade? : Request → Option Trade
  | .addTrade instrumentId price quantity time clock =>
    match tradeTime clock time, price.toInt, quantity.toInt with
    | .ok executedAt, .ok price, .ok quantity => some ⟨instrumentId, price, quantity, executedAt⟩
    | _, _, _ => none
  | _ => none

/-- The batch that is applied, and when. -/
def batch? : Request → Option (Batch Int × Seconds)
  | .apply b now => some (b, now)
  | .applyDrafts cancelIds drafts now =>
    (OrderDraft.checkAll drafts).1.toOption.map fun orders => (⟨cancelIds, orders⟩, now)
  | _ => none

/-- Whether a request names an order to cancel. -/
def cancels (r : Request) (id : String) : Bool := r.batch?.any fun b => id ∈ b.1.cancelIds

/-- The rows of the orders that a request inserts, after so many names were given out. -/
def inserted (named : Nat) (r : Request) : List StoredOrder :=
  match r.batch? with
  | some (b, now) => rows now named b.newOrders
  | none => []

end Request

/-- The number of names given out after requests. -/
def namedAfter (named : Nat) (requests : List Request) : Nat :=
  requests.foldl (fun n r => n + (r.inserted n).length) named

/-- The rows that were inserted open and that no later request names, the first inserted one first. -/
def openRows (named : Nat) : List Request → List StoredOrder
  | [] => []
  | r :: rest =>
    (r.inserted named).filter (fun o => o.isOpen && !rest.any (·.cancels o.id)) ++
      openRows (named + (r.inserted named).length) rest

/-! ## Accepted requests -/

/-- Whether a request to write was accepted. -/
def Answer.Accepted : Answer → Prop
  | .changed result => result = .ok ()
  | .applied result => result = .ok ()
  | .appliedDrafts result => result = .ok ()
  | .orders _ | .snapshot _ | .done => False

end DurableStore

/-- The tables after a batch, the orders of which are named on. -/
def Tables.afterBatch (t : Tables) (named : Nat) (b : Batch Int) (now : Seconds) : Tables :=
  { t.cancel b.cancelIds with
    orders := (t.cancel b.cancelIds).orders ++ DurableStore.rows now named b.newOrders }

namespace DurableStore

/-- What an accepted request does to the tables. -/
inductive Request.Does (named : Nat) (t : Tables) : Request → Tables → Prop
  | putInstrument {id symbol : String} {price : Value} {n : Int} (read : price.toInt = .ok n) :
      Does named t (.putInstrument id symbol price)
        { t with instruments := t.instruments.put id ⟨id, symbol, n⟩ }
  | setPrice {id : String} {price : Value} {n : Int} {i : Instrument Int} (read : price.toInt = .ok n)
      (there : t.instruments.get? id = some i) :
      Does named t (.setPrice id price)
        { t with instruments := t.instruments.put id { i with price := n } }
  | setNoPrice {id : String} {price : Value} (absent : t.instruments.get? id = none) :
      Does named t (.setPrice id price) t
  | putStrategy {strategyId text : String} {rules : Value} (written : ruleText rules = .ok text) :
      Does named t (.putStrategy strategyId rules) (t.putStrategy strategyId text)
  | putTrader {b : Bot Value} {n : Int} (read : b.balance.toInt = .ok n) :
      Does named t (.putTrader b) { t with traders := t.traders.put b.id { b with balance := n } }
  | setPosition {botId instrumentId : String} {shares : Value} {n : Int} (read : shares.toInt = .ok n) :
      Does named t (.setPosition botId instrumentId shares)
        { t with positions := t.positions.put (botId, instrumentId) n }
  | addTrade {instrumentId : String} {price quantity time : Value} {clock executedAt : Seconds} {p q : Int}
      (readTime : tradeTime clock time = .ok executedAt) (readPrice : price.toInt = .ok p)
      (readQuantity : quantity.toInt = .ok q) (known : t.instruments.has instrumentId = true) :
      Does named t (.addTrade instrumentId price quantity time clock)
        { t with trades := t.trades ++ [⟨instrumentId, p, q, executedAt⟩] }
  | apply {b : Batch Int} {now : Seconds} : Does named t (.apply b now) (t.afterBatch named b now)
  | applyDrafts {cancelIds : List String} {drafts : List OrderDraft} {now : Seconds}
      {orders : List (NewOrder Int)} {looked : Nat}
      (read : OrderDraft.checkAll drafts = (.ok orders, looked)) :
      Does named t (.applyDrafts cancelIds drafts now) (t.afterBatch named ⟨cancelIds, orders⟩ now)

variable {s : DurableStore}

/-- A change that is accepted is committed with what was pending. -/
theorem change_accepted {f : Tables → Except ChangeFault Tables} (h : (s.change f).1 = .ok ()) :
    ∃ t, f s.tables = .ok t ∧ (s.change f).2 = { s with committed := t, pending? := none } := by
  unfold change at h ⊢
  cases hclosed : s.closed with
  | true => simp [hclosed] at h
  | false =>
      cases hf : f s.tables with
      | error fault => simp [hclosed, hf] at h
      | ok t => exact ⟨t, rfl, rfl⟩

theorem changeInt_accepted {v : Value} {f : Int → Tables → Except ChangeFault Tables}
    (h : (s.changeInt v f).1 = .ok ()) :
    ∃ n t, v.toInt = .ok n ∧ f n s.tables = .ok t ∧
      (s.changeInt v f).2 = { s with committed := t, pending? := none } := by
  unfold changeInt at h ⊢
  cases hv : v.toInt with
  | error fault => simp [hv] at h
  | ok n =>
      rw [hv] at h
      rcases change_accepted h with ⟨t, hf, hafter⟩
      exact ⟨n, t, rfl, hf, hafter⟩

/-- A batch of drafts that is accepted is the batch of their orders. -/
theorem applyDrafts_accepted {cancelIds : List String} {drafts : List OrderDraft} {now : Seconds}
    (h : (s.applyDrafts cancelIds drafts now).1 = .ok ()) :
    ∃ orders looked, OrderDraft.checkAll drafts = (.ok orders, looked) ∧
      (s.apply ⟨cancelIds, orders⟩ now).1 = .ok () ∧
      (s.applyDrafts cancelIds drafts now).2 = (s.apply ⟨cancelIds, orders⟩ now).2 := by
  unfold applyDrafts at h ⊢
  unfold DurableStore.apply
  dsimp only
  generalize s.openBatch cancelIds = opened at h ⊢
  rcases opened with ⟨fault | ⟨⟩, s'⟩
  · cases h
  · rcases hread : OrderDraft.checkAll drafts with ⟨fault | orders, looked⟩
    · rw [hread] at h
      cases h
    · rw [hread] at h
      exact ⟨orders, looked, rfl, ok_of_mapError h, rfl⟩

theorem length_rows (now : Seconds) (named : Nat) (os : List (NewOrder Int)) :
    (rows now named os).length = os.length := by
  induction os generalizing named with
  | nil => rfl
  | cons o os ih => exact congrArg (· + 1) (ih (named + 1))

theorem afterBatch_of_accepted {b : Batch Int} {now : Seconds} (h : (s.apply b now).1 = .ok ()) :
    (s.apply b now).2 =
      { s with
        committed := s.tables.afterBatch s.named b now
        pending? := none
        named := s.named + (rows now s.named b.newOrders).length } := by
  rcases apply_accepted_eq h with ⟨hnone, hafter⟩
  rw [hafter, committedBatch, tables, hnone, length_rows]
  rfl

/-- What a request that is accepted does: it changes the tables as it says, and nothing is left pending. -/
theorem answer_accepted {r : Request} (h : (s.answer r).1.Accepted) :
    ∃ t, r.Does s.named s.tables t ∧ (s.answer r).2 =
      { s with committed := t, pending? := none, named := s.named + (r.inserted s.named).length } := by
  cases r with
  | putInstrument id symbol price =>
      rcases changeInt_accepted h with ⟨n, t, hread, ht, hafter⟩
      rcases bind_ok ht with ⟨-, -, ht⟩
      cases ht
      exact ⟨_, .putInstrument hread, hafter⟩
  | setPrice id price =>
      rcases changeInt_accepted h with ⟨n, t, hread, ht, hafter⟩
      rcases bind_ok ht with ⟨-, -, ht⟩
      cases hget : s.tables.instruments.get? id with
      | none =>
          rw [hget] at ht
          cases ht
          exact ⟨_, .setNoPrice hget, hafter⟩
      | some i =>
          rw [hget] at ht
          cases ht
          exact ⟨_, .setPrice hread hget, hafter⟩
  | putStrategy strategyId rules =>
      change (s.putStrategy strategyId rules).1 = .ok () at h
      change ∃ t, _ ∧ (s.putStrategy strategyId rules).2 = _
      unfold DurableStore.putStrategy at h ⊢
      cases hwritten : ruleText rules with
      | error fault =>
          rw [hwritten] at h
          cases h
      | ok text =>
          rw [hwritten] at h
          rcases change_accepted h with ⟨t, ht, hafter⟩
          cases ht
          exact ⟨_, .putStrategy hwritten, hafter⟩
  | putTrader b =>
      rcases changeInt_accepted h with ⟨n, t, hread, ht, hafter⟩
      rcases bind_ok ht with ⟨-, -, ht⟩
      rcases bind_ok ht with ⟨-, -, ht⟩
      cases ht
      exact ⟨_, .putTrader hread, hafter⟩
  | setPosition botId instrumentId shares =>
      rcases changeInt_accepted h with ⟨n, t, hread, ht, hafter⟩
      rcases bind_ok ht with ⟨-, -, ht⟩
      rcases bind_ok ht with ⟨-, -, ht⟩
      cases ht
      exact ⟨_, .setPosition hread, hafter⟩
  | addTrade instrumentId price quantity time clock =>
      change (s.addTrade instrumentId price quantity time clock).1 = .ok () at h
      change ∃ t, _ ∧ (s.addTrade instrumentId price quantity time clock).2 = _
      unfold DurableStore.addTrade at h ⊢
      cases hread : (do return (← tradeTime clock time, ← price.toInt) : Except NumberFault _) with
      | error fault =>
          rw [hread] at h
          cases h
      | ok read =>
          rcases bind_ok hread with ⟨executedAt, htime, hread'⟩
          rcases bind_ok hread' with ⟨p, hprice, hread'⟩
          cases hread'
          rw [hread] at h
          rcases changeInt_accepted h with ⟨q, t, hquantity, ht, hafter⟩
          rcases bind_ok ht with ⟨-, -, ht⟩
          rcases bind_ok ht with ⟨-, -, ht⟩
          rcases bind_ok ht with ⟨_, hknown, ht⟩
          cases ht
          refine ⟨_, .addTrade htime hprice hquantity ?_, hafter⟩
          -- A trade in an unknown instrument would have been refused.
          by_contra habsent
          simp [Tables.checkReferences, habsent] at hknown
  | apply b now =>
      exact ⟨_, .apply, afterBatch_of_accepted h⟩
  | applyDrafts cancelIds drafts now =>
      rcases applyDrafts_accepted h with ⟨orders, looked, hread, haccepted, hafter⟩
      refine ⟨_, .applyDrafts hread, ?_⟩
      have hinserted : Request.inserted s.named (.applyDrafts cancelIds drafts now) =
          rows now s.named orders := by
        simp [Request.inserted, Request.batch?, hread, Except.toOption]
      rw [hinserted]
      exact hafter.trans (afterBatch_of_accepted haccepted)
  | listOrders => cases h
  | fetch => cases h
  | close => cases h
  | reopen => cases h

/-! ## What one request leaves -/

namespace Request.Does

variable {named : Nat} {t u : Tables} {r : Request}

theorem traders (h : r.Does named t u) : u.traders = t.traders.putAll ([r].filterMap trader?) := by
  cases h with
  | putTrader read => simp [trader?, read, Except.toOption, Table.putAll]
  | _ => rfl

theorem positions (h : r.Does named t u) :
    u.positions = t.positions.putAll ([r].filterMap position?) := by
  cases h with
  | setPosition read => simp [position?, read, Except.toOption, Table.putAll]
  | _ => rfl

theorem trades (h : r.Does named t u) : u.trades = t.trades ++ [r].filterMap trade? := by
  cases h with
  | addTrade readTime readPrice readQuantity => simp [trade?, readTime, readPrice, readQuantity]
  | _ => exact (List.append_nil _).symm

/-- The text of rules, by strategy. -/
def ruleEntry (e : String × Value) : Except JsonFault (String × String) := do
  return (e.1, ← ruleText e.2)

theorem strategies (h : r.Does named t u) :
    ∃ texts, ([r].filterMap rules?).mapM ruleEntry = .ok texts ∧
      u.strategies = t.strategies.putAll texts := by
  cases h with
  | @putStrategy strategyId text rules written =>
      refine ⟨[(strategyId, text)], ?_, rfl⟩
      simp [rules?, ruleEntry, written, bind, Except.bind, pure, Except.pure]
  | _ => exact ⟨[], rfl, rfl⟩

theorem filter_cancel (t : Tables) (ids : List String) :
    (t.cancel ids).orders.filter (·.isOpen) = (t.orders.filter (·.isOpen)).filter (·.id ∉ ids) := by
  unfold Tables.cancel
  induction t.orders with
  | nil => rfl
  | cons o os ih =>
      rw [List.map_cons]
      -- Only an open order that is named changes, and it is open no more.
      by_cases hopen : o.isOpen = true
      · by_cases hid : o.id ∈ ids
        · have hcancelled : (o.cancelIfNamed ids).isOpen = false := by
            rw [StoredOrder.cancelIfNamed, if_pos (by simp [hopen, hid])]
            rfl
          simpa [hopen, hid, hcancelled] using ih
        · have hkept : o.cancelIfNamed ids = o := if_neg (by simp [hid])
          simpa [hopen, hid, hkept] using ih
      · have hkept : o.cancelIfNamed ids = o := if_neg (by simp [hopen])
        simpa [hopen, hkept] using ih

/-- Of the orders that were open, those stay open that are not named. -/
theorem openOrders (h : r.Does named t u) :
    u.orders.filter (·.isOpen) =
      (t.orders.filter (·.isOpen)).filter (fun o => !r.cancels o.id) ++
        (r.inserted named).filter (·.isOpen) := by
  have hbatch (b : Batch Int) (now : Seconds) (hr : r.batch? = some (b, now)) :
      (t.afterBatch named b now).orders.filter (·.isOpen) =
        (t.orders.filter (·.isOpen)).filter (fun o => !r.cancels o.id) ++
          (r.inserted named).filter (·.isOpen) := by
    simp only [Tables.afterBatch, List.filter_append, filter_cancel, cancels, inserted, hr]
    simp
  cases h with
  | @apply b now => exact hbatch b now rfl
  | @applyDrafts cancelIds drafts now orders looked read =>
      exact hbatch ⟨cancelIds, orders⟩ now (by simp [batch?, read, Except.toOption])
  | putStrategy => simp [cancels, inserted, batch?, Tables.putStrategy]
  | _ => simp [cancels, inserted, batch?]

end Request.Does

/-! ## Runs -/

/-- The tables after requests that were accepted one after the other. -/
inductive Ran (named : Nat) (t : Tables) : List Request → Tables → Prop
  | start : Ran named t [] t
  | next {requests : List Request} {r : Request} {u v : Tables} (ran : Ran named t requests u)
      (does : r.Does (namedAfter named requests) u v) : Ran named t (requests ++ [r]) v

/-- A store that has accepted requests one after the other. -/
inductive Served (s : DurableStore) : List Request → DurableStore → Prop
  | start : Served s [] s
  | next {requests : List Request} {r : Request} {u : DurableStore} (served : Served s requests u)
      (accepted : (u.answer r).1.Accepted) : Served s (requests ++ [r]) (u.answer r).2

/-- A request that is accepted first. -/
theorem Served.head {r : Request} {requests : List Request} {u : DurableStore}
    (accepted : (s.answer r).1.Accepted) (h : Served (s.answer r).2 requests u) :
    Served s (r :: requests) u := by
  induction h with
  | start =>
      have hfirst : Served s ([] ++ [r]) (s.answer r).2 := .next .start accepted
      exact hfirst
  | @next requests r' u served accepted' ih =>
      have hnext : Served s (r :: requests ++ [r']) (u.answer r').2 := .next ih accepted'
      exact hnext

theorem namedAfter_concat (named : Nat) (requests : List Request) (r : Request) :
    namedAfter named (requests ++ [r]) =
      namedAfter named requests + (r.inserted (namedAfter named requests)).length := by
  rw [namedAfter, List.foldl_append]
  rfl

theorem Served.ran {requests : List Request} {u : DurableStore} (h : Served s requests u) :
    u.closed = s.closed ∧ u.named = namedAfter s.named requests ∧
      Ran s.named s.tables requests u.tables := by
  induction h with
  | start => exact ⟨rfl, rfl, .start⟩
  | next served accepted ih =>
      rcases ih with ⟨hclosed, hnamed, ran⟩
      rcases answer_accepted accepted with ⟨v, does, hafter⟩
      rw [hnamed] at does
      rw [hafter, namedAfter_concat, ← hnamed]
      exact ⟨hclosed, rfl, ran.next does⟩

theorem openRows_concat (named : Nat) (requests : List Request) (r : Request) :
    openRows named (requests ++ [r]) =
      (openRows named requests).filter (fun o => !r.cancels o.id) ++
        (r.inserted (namedAfter named requests)).filter (·.isOpen) := by
  induction requests generalizing named with
  | nil => simp [openRows, namedAfter]
  | cons first rest ih =>
      have hnamed : namedAfter named (first :: rest) =
          namedAfter (named + (first.inserted named).length) rest := rfl
      rw [List.cons_append, openRows, openRows, ih, hnamed, List.filter_append, List.append_assoc,
        List.filter_filter]
      -- What was inserted first is named neither by the rest nor by the last request.
      congr 1
      refine List.filter_congr fun o _ => ?_
      simp [Bool.and_comm, Bool.and_left_comm]

namespace Ran

variable {named : Nat} {t u : Tables} {requests : List Request}

/-- A table into which every request puts its entry holds the entries of all requests. -/
theorem putAll {κ ν : Type} [DecidableEq κ] {table : Tables → Table κ ν} {row? : Request → Option (κ × ν)}
    (step : ∀ {named t u r}, Request.Does named t r u → table u = (table t).putAll ([r].filterMap row?))
    (h : Ran named t requests u) : table u = (table t).putAll (requests.filterMap row?) := by
  induction h with
  | start => rfl
  | next ran does ih => rw [step does, ih, List.filterMap_append, Table.putAll_append]

theorem traders (h : Ran named t requests u) :
    u.traders = t.traders.putAll (requests.filterMap Request.trader?) :=
  h.putAll fun does => does.traders

theorem positions (h : Ran named t requests u) :
    u.positions = t.positions.putAll (requests.filterMap Request.position?) :=
  h.putAll fun does => does.positions

theorem trades (h : Ran named t requests u) :
    u.trades = t.trades ++ requests.filterMap Request.trade? := by
  induction h with
  | start => exact (List.append_nil _).symm
  | next ran does ih => rw [does.trades, ih, List.filterMap_append, List.append_assoc]

theorem strategies (h : Ran named t requests u) :
    ∃ texts, (requests.filterMap Request.rules?).mapM Request.Does.ruleEntry = .ok texts ∧
      u.strategies = t.strategies.putAll texts := by
  induction h with
  | start => exact ⟨[], rfl, rfl⟩
  | next ran does ih =>
      rcases ih with ⟨texts, htexts, hbefore⟩
      rcases does.strategies with ⟨texts', htexts', hafter⟩
      refine ⟨texts ++ texts', ?_, by rw [hafter, hbefore, Table.putAll_append]⟩
      rw [mapM_ok_iff] at htexts htexts' ⊢
      rw [List.filterMap_append]
      exact List.rel_append htexts htexts'

/-- The text that is kept for a strategy is that of the rules that were last put in, or the text from
before. -/
theorem get?_strategies (h : Ran named t requests u) (strategyId : String) :
    match Table.last? (requests.filterMap Request.rules?) strategyId with
    | some rules => ∃ text, ruleText rules = .ok text ∧ u.strategies.get? strategyId = some text
    | none => u.strategies.get? strategyId = t.strategies.get? strategyId := by
  have hkey (e : String × Value) (entry : String × String) (he : Request.Does.ruleEntry e = .ok entry) :
      entry.1 = e.1 := by
    rcases bind_ok he with ⟨text, -, he⟩
    rw [← Except.ok.inj he]
  rcases h.strategies with ⟨texts, htexts, hstrategies⟩
  have hlast := Table.last?_of_mapM hkey htexts strategyId
  rw [hstrategies, Table.get?_putAll_eq]
  unfold Table.last?
  unfold Table.last? at hlast
  generalize ((requests.filterMap Request.rules?).filter fun e => e.1 = strategyId).getLast? = rules?,
    ((texts.filter fun e => e.1 = strategyId).getLast?.map (·.2)) = text? at hlast
  cases hlast with
  | none => rfl
  | some hentry =>
      rcases bind_ok hentry with ⟨text, htext, hentry⟩
      cases hentry
      exact ⟨_, htext, rfl⟩

/-- The open orders are those that were open and were not named since, and then those that were inserted
open and were not named since. -/
theorem openOrders (h : Ran named t requests u) :
    u.orders.filter (·.isOpen) =
      (t.orders.filter (·.isOpen)).filter (fun o => !requests.any (·.cancels o.id)) ++
        openRows named requests := by
  induction h with
  | start => simp [openRows]
  | @next requests r u v ran does ih =>
      rw [does.openOrders, ih, openRows_concat, List.filter_append, List.filter_filter, List.append_assoc]
      congr 1
      refine List.filter_congr fun o _ => ?_
      simp [Bool.and_comm]

end Ran

/-! ## Instruments -/

/-- What requests say last of an instrument. -/
structure Told (requests : List Request) (i : Instrument Int) : Prop where
  symbol : Table.last? (requests.filterMap Request.symbol?) i.id = some i.symbol
  price : Table.last? (requests.filterMap Request.price?) i.id = some i.price

/-- A table of the instruments in the order in which they were first put in, each as it was told last. -/
structure ListsTold (requests : List Request) (instruments : Table String (Instrument Int)) : Prop where
  filed : instruments.Filed (·.id)
  keys : instruments.keys = (Table.ofList (requests.filterMap Request.symbol?)).keys
  told : ∀ i ∈ instruments.values, Told requests i

theorem filterMap_concat {β : Type} (f : Request → Option β) (requests : List Request) (r : Request) :
    (requests ++ [r]).filterMap f = requests.filterMap f ++ (f r).toList := by
  cases h : f r <;> simp [h]

theorem last?_concat {β : Type} (f : Request → Option (String × β)) (requests : List Request) {r : Request}
    {k : String} {v : β} (h : f r = some (k, v)) :
    Table.last? ((requests ++ [r]).filterMap f) k = some v := by
  rw [filterMap_concat, Table.last?_append, h]
  simp [Table.last?]

theorem last?_concat_other {β : Type} (f : Request → Option (String × β)) (requests : List Request)
    {r : Request} {k : String} (h : ∀ e ∈ f r, e.1 ≠ k) :
    Table.last? ((requests ++ [r]).filterMap f) k = Table.last? (requests.filterMap f) k := by
  rw [filterMap_concat, Table.last?_append]
  cases hr : f r with
  | none => rfl
  | some e => simp [Table.last?, h e hr]

namespace ListsTold

variable {requests : List Request} {instruments : Table String (Instrument Int)} {r : Request}
  {i : Instrument Int}

/-- A request that is about other instruments changes nothing. -/
theorem other (h : ListsTold requests instruments) (symbol : r.symbol? = none)
    (price : ∀ e ∈ r.price?, e.1 ∉ instruments.keys) : ListsTold (requests ++ [r]) instruments where
  filed := h.filed
  keys := by
    rw [h.keys, filterMap_concat, symbol]
    exact congrArg (fun entries => (Table.ofList entries).keys) (List.append_nil _).symm
  told := by
    intro j hj
    have hsymbol : ∀ e ∈ r.symbol?, e.1 ≠ j.id := by simp [symbol]
    have hprice : ∀ e ∈ r.price?, e.1 ≠ j.id := by
      intro e he hid
      refine price e he ?_
      rw [hid, ← h.filed.map_values]
      exact List.mem_map_of_mem hj
    exact ⟨(last?_concat_other _ _ hsymbol).trans (h.told j hj).symbol,
      (last?_concat_other _ _ hprice).trans (h.told j hj).price⟩

theorem put (h : ListsTold requests instruments) (symbol : r.symbol? = some (i.id, i.symbol))
    (price : r.price? = some (i.id, i.price)) :
    ListsTold (requests ++ [r]) (instruments.put i.id i) where
  filed := h.filed.put i
  keys := by
    rw [filterMap_concat, symbol, Option.toList_some, Table.ofList_concat]
    exact Table.keys_put_congr h.keys _ _ _
  told := by
    intro j hj
    rcases h.filed.mem_values_put hj with rfl | ⟨hold, hne⟩
    · exact ⟨last?_concat _ _ symbol, last?_concat _ _ price⟩
    · have hother {β : Type} {v : β} {e? : Option (String × β)} (he : e? = some (i.id, v)) :
          ∀ e ∈ e?, e.1 ≠ j.id := by
        simpa [he] using hne.symm
      exact ⟨(last?_concat_other _ _ (hother symbol)).trans (h.told j hold).symbol,
        (last?_concat_other _ _ (hother price)).trans (h.told j hold).price⟩

/-- A price that is given to an instrument that is there. -/
theorem reprice (h : ListsTold requests instruments) (there : instruments.get? i.id = some i) {n : Int}
    (symbol : r.symbol? = none) (price : r.price? = some (i.id, n)) :
    ListsTold (requests ++ [r]) (instruments.put i.id { i with price := n }) where
  filed := h.filed.put { i with price := n }
  keys := by
    rw [Table.keys_put_of_mem _ _ (List.mem_map.2 ⟨_, Table.mem_of_get? there, rfl⟩), h.keys,
      filterMap_concat, symbol]
    exact congrArg (fun entries => (Table.ofList entries).keys) (List.append_nil _).symm
  told := by
    intro j hj
    have hsymbol (k : String) : ∀ e ∈ r.symbol?, e.1 ≠ k := by simp [symbol]
    have hi : i ∈ instruments.values := List.mem_map.2 ⟨_, Table.mem_of_get? there, rfl⟩
    rcases h.filed.mem_values_put (v := { i with price := n }) hj with rfl | ⟨hold, hne⟩
    · exact ⟨(last?_concat_other _ _ (hsymbol _)).trans (h.told i hi).symbol, last?_concat _ _ price⟩
    · have hprice : ∀ e ∈ r.price?, e.1 ≠ j.id := by simpa [price] using hne.symm
      exact ⟨(last?_concat_other _ _ (hsymbol _)).trans (h.told j hold).symbol,
        (last?_concat_other _ _ hprice).trans (h.told j hold).price⟩

end ListsTold

namespace Ran

variable {named : Nat} {t u : Tables} {requests : List Request}

/-- The instruments stand in the order in which they were first put in, each as it was told last. -/
theorem instruments (h : Ran named t requests u) (empty : t.instruments = []) :
    ListsTold requests u.instruments := by
  induction h with
  | start =>
      rw [empty]
      exact ⟨⟨.nil, by simp⟩, rfl, by simp [Table.values]⟩
  | @next requests r u v ran does ih =>
      cases does with
      | @putInstrument id symbol price n read =>
          exact ih.put (i := ⟨id, symbol, n⟩) rfl (by simp [Request.price?, read, Except.toOption])
      | @setPrice id price n i read there =>
          obtain rfl : i.id = id := ih.filed.named _ (Table.mem_of_get? there)
          exact ih.reprice there rfl (by simp [Request.price?, read, Except.toOption])
      | @setNoPrice id price absent =>
          refine ih.other rfl fun e he => ?_
          obtain ⟨n, -, rfl⟩ := Option.map_eq_some_iff.1 he
          exact Table.get?_eq_none_iff.1 absent
      | _ => exact ih.other rfl (by simp [Request.price?])

/-- Trades are in instruments that are there. -/
theorem known (h : Ran named t requests u) (start : ∀ x ∈ t.trades, t.instruments.has x.instrumentId = true) :
    ∀ x ∈ u.trades, u.instruments.has x.instrumentId = true := by
  induction h with
  | start => exact start
  | next ran does ih =>
      cases does with
      | putInstrument => exact fun x hx => Table.has_put _ (ih x hx)
      | setPrice => exact fun x hx => Table.has_put _ (ih x hx)
      | addTrade _ _ _ known =>
          intro x hx
          rcases List.mem_append.1 hx with hx | hx
          · exact ih x hx
          · rw [List.mem_singleton.1 hx]
            exact known
      | _ => exact ih

end Ran

end DurableStore

end RuleTrader
