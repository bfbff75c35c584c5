import RuleTrader.Store.Durable
import RuleTrader.Trading.Run

/-!
# Batches of the durable store

When a batch is all or nothing. Nothing means that no later request can tell that the batch was ever
sent; only the names of later orders may be others, since a batch that is dropped has given out names.

A batch is all or nothing unless a transaction was left open before, which the batch drops, or an order
of the batch has an integer that does not fit and every order before it is accepted: then the refusal
is of another kind, and what was done so far stays.
-/

namespace RuleTrader

namespace DurableStore

/-! ## Requests -/

/-- What a store is asked. -/
inductive Request where
  | putInstrument (instrumentId symbol : String) (price : Value)
  | setPrice (instrumentId : String) (price : Value)
  | putStrategy (strategyId : String) (rules : Value)
  | putTrader (b : Bot Value)
  | setPosition (botId instrumentId : String) (shares : Value)
  | addTrade (instrumentId : String) (price quantity time : Value) (clock : Seconds)
  | listOrders (status? : Option OrderStatus)
  | fetch (now : Seconds)
  | apply (b : Batch Int) (now : Seconds)
  | applyDrafts (cancelIds : List String) (drafts : List OrderDraft) (now : Seconds)
  | close
  | reopen (kept : Bool)

/-- What a store answers. -/
inductive Answer where
  | changed (result : Except ChangeFault Unit)
  | orders (result : Except QueryFault (List (Order Int)))
  | snapshot (result : Except StoreFault (Snapshot Int))
  | applied (result : Except StoreFault Unit)
  | appliedDrafts (result : Except BatchFault Unit)
  | done

/-- Answer a request. -/
def answer (s : DurableStore) : Request → Answer × DurableStore
  | .putInstrument instrumentId symbol price =>
    (s.putInstrument instrumentId symbol price).map .changed id
  | .setPrice instrumentId price => (s.setPrice instrumentId price).map .changed id
  | .putStrategy strategyId rules => (s.putStrategy strategyId rules).map .changed id
  | .putTrader b => (s.putTrader b).map .changed id
  | .setPosition botId instrumentId shares => (s.setPosition botId instrumentId shares).map .changed id
  | .addTrade instrumentId price quantity time clock =>
    (s.addTrade instrumentId price quantity time clock).map .changed id
  | .listOrders status? => (.orders (s.listOrders status?), s)
  | .fetch now => (.snapshot (s.fetch now), s)
  | .apply b now => (s.apply b now).map .applied id
  | .applyDrafts cancelIds drafts now =>
    (s.applyDrafts cancelIds drafts now).map .appliedDrafts id
  | .close => (.done, s.close)
  | .reopen kept => (.done, s.reopen kept)

/-- Answer requests in turn. -/
def answers : List Request → DurableStore → List Answer
  | [], _ => []
  | r :: rs, s => (s.answer r).1 :: answers rs (s.answer r).2

/-- No requests, however many, are answered otherwise by one store than by another, once both give out
the same names. -/
def Alike (s t : DurableStore) : Prop :=
  ∀ named requests,
    answers requests { s with named := named } = answers requests { t with named := named }

/-- Stores that differ only in the number of names given out are alike. -/
theorem alike_of_named (s : DurableStore) (named : Nat) : Alike { s with named := named } s :=
  fun _ _ => rfl

/-! ## What a batch does -/

/-- The rows of new orders. -/
def rows (now : Seconds) : Nat → List (NewOrder Int) → List StoredOrder
  | _, [] => []
  | named, o :: os => ⟨orderName (named + 1), o, now⟩ :: rows now (named + 1) os

/-- The store once a whole batch is committed. -/
def committedBatch (s : DurableStore) (b : Batch Int) (now : Seconds) : DurableStore :=
  let t := s.committed.cancel b.cancelIds
  { s with
    committed := { t with orders := t.orders ++ rows now s.named b.newOrders }
    pending? := none
    named := s.named + b.newOrders.length }

/-- Either all of a batch is committed, or it is refused as a failure of the store and no later request
can tell. -/
def AllOrNothing (s : DurableStore) (b : Batch Int) (now : Seconds) : Prop :=
  s.apply b now = (.ok (), s.committedBatch b now) ∨
    ∃ fault, (s.apply b now).1 = .error fault ∧
      (TickFailure.store fault).kind = "GatewayError" ∧ Alike (s.apply b now).2 s

/-! ## Rows -/

/-- Whether the integers of an order fit. -/
def Fits (o : NewOrder Int) : Prop :=
  Tables.fits o.limitPrice = true ∧ Tables.fits o.quantity = true

/-- Whether an order can be inserted at a time. -/
structure Accepted (t : Tables) (now : Seconds) (o : NewOrder Int) : Prop where
  fits : Fits o
  time : now.isNaN = false
  instrument : t.instruments.has o.instrumentId = true
  bot : t.traders.has o.botId = true

/-- Whether the first order that is refused is refused for an integer that does not fit. -/
def StopsAtTooLarge (t : Tables) (now : Seconds) (orders : List (NewOrder Int)) : Prop :=
  ∃ earlier o later, orders = earlier ++ o :: later ∧
    (∀ x ∈ earlier, Accepted t now x) ∧ ¬Fits o

theorem checkFits_of_fits {o : NewOrder Int} (h : Fits o) :
    Tables.checkFits [o.limitPrice, o.quantity] = .ok () :=
  if_pos (by simp [h.1, h.2])

theorem checkFits_of_not_fits {o : NewOrder Int} (h : ¬Fits o) :
    Tables.checkFits [o.limitPrice, o.quantity] = .error .integerTooLarge :=
  if_neg (by simpa [Fits] using h)

theorem insertOrder_accepted {t : Tables} {now : Seconds} {o : NewOrder Int}
    (h : Accepted t now o) (id : String) :
    t.insertOrder ⟨id, o, now⟩ = .ok { t with orders := t.orders ++ [⟨id, o, now⟩] } := by
  have htime : Tables.checkTime now "orders.created_epoch_s" = .ok () := by
    rw [Tables.checkTime, h.time]
    rfl
  rw [Tables.insertOrder, checkFits_of_fits h.fits, htime, h.instrument, h.bot]
  rfl

theorem insertOrder_tooLarge {t : Tables} {now : Seconds} {o : NewOrder Int} (h : ¬Fits o)
    (id : String) : t.insertOrder ⟨id, o, now⟩ = .error .integerTooLarge := by
  rw [Tables.insertOrder, checkFits_of_not_fits h]
  rfl

/-- An order that fits and is refused all the same is refused by the database. -/
theorem insertOrder_refused {t : Tables} {now : Seconds} {o : NewOrder Int} (hfits : Fits o)
    (h : ¬Accepted t now o) (id : String) :
    ∃ fault, t.insertOrder ⟨id, o, now⟩ = .error (.database fault) := by
  rw [Tables.insertOrder, checkFits_of_fits hfits]
  cases htime : now.isNaN with
  | true =>
      refine ⟨.missingValue "orders.created_epoch_s", ?_⟩
      rw [Tables.checkTime, htime]
      rfl
  | false =>
      -- The order fits and has a time, so its instrument or its bot is missing.
      have habsent : (t.instruments.has o.instrumentId && t.traders.has o.botId) = false := by
        cases hinstrument : t.instruments.has o.instrumentId with
        | false => rfl
        | true =>
            cases hbot : t.traders.has o.botId with
            | false => rfl
            | true => exact absurd ⟨hfits, htime, hinstrument, hbot⟩ h
      refine ⟨.missingReference, ?_⟩
      rw [Tables.checkTime, htime, habsent]
      rfl

/-- Whether an order is accepted does not depend on the orders that are there. -/
theorem accepted_withOrders {t : Tables} {orders : List StoredOrder} {now : Seconds}
    {o : NewOrder Int} : Accepted { t with orders } now o ↔ Accepted t now o :=
  ⟨fun h => ⟨h.fits, h.time, h.instrument, h.bot⟩, fun h => ⟨h.fits, h.time, h.instrument, h.bot⟩⟩

theorem stopsAtTooLarge_cons {t : Tables} {now : Seconds} {o : NewOrder Int}
    {os : List (NewOrder Int)} (h : Accepted t now o) (rows : List StoredOrder) :
    StopsAtTooLarge t now (o :: os) ↔ StopsAtTooLarge { t with orders := rows } now os := by
  constructor
  · rintro ⟨earlier, o', later, hsplit, hearlier, hnofit⟩
    cases earlier with
    | nil =>
        obtain ⟨rfl, -⟩ := List.cons.inj hsplit
        exact absurd h.fits hnofit
    | cons x xs =>
        obtain ⟨rfl, hrest⟩ := List.cons.inj hsplit
        exact ⟨xs, o', later, hrest,
          fun y hy => accepted_withOrders.2 (hearlier y (List.mem_cons_of_mem _ hy)), hnofit⟩
  · rintro ⟨earlier, o', later, hsplit, hearlier, hnofit⟩
    refine ⟨o :: earlier, o', later, by rw [hsplit]; rfl, ?_, hnofit⟩
    intro x hx
    rcases List.mem_cons.1 hx with rfl | hx
    · exact h
    · exact accepted_withOrders.1 (hearlier x hx)

theorem not_stopsAtTooLarge_cons {t : Tables} {now : Seconds} {o : NewOrder Int}
    {os : List (NewOrder Int)} (hfits : Fits o) (h : ¬Accepted t now o) :
    ¬StopsAtTooLarge t now (o :: os) := by
  rintro ⟨earlier, o', later, hsplit, hearlier, hnofit⟩
  cases earlier with
  | nil =>
      obtain ⟨rfl, -⟩ := List.cons.inj hsplit
      exact hnofit hfits
  | cons x xs =>
      obtain ⟨rfl, -⟩ := List.cons.inj hsplit
      exact h (hearlier _ (List.mem_cons_self ..))

/-- Inserting orders: all are accepted, or the first that is refused is refused by the database, or it
has an integer that does not fit, and then the orders before it are there. -/
theorem insertAll_cases (now : Seconds) (named : Nat) (t : Tables) (orders : List (NewOrder Int)) :
    (¬StopsAtTooLarge t now orders ∧
      insertAll now named t orders = (.ok (), { t with orders := t.orders ++ rows now named orders })) ∨
    (¬StopsAtTooLarge t now orders ∧
      ∃ fault t', insertAll now named t orders = (.error (.database fault), t')) ∨
    (StopsAtTooLarge t now orders ∧ ∃ earlier, earlier <+: orders ∧
      insertAll now named t orders =
        (.error .integerTooLarge, { t with orders := t.orders ++ rows now named earlier })) := by
  induction orders generalizing named t with
  | nil =>
      refine Or.inl ⟨?_, by simp [insertAll, rows]⟩
      rintro ⟨earlier, o, later, hsplit, -, -⟩
      simp at hsplit
  | cons o os ih =>
      by_cases hfits : Fits o
      · by_cases haccepted : Accepted t now o
        · -- The first order is in; the tables that decide about the others are the same.
          let row : StoredOrder := ⟨orderName (named + 1), o, now⟩
          have hinsert : insertAll now named t (o :: os) =
              insertAll now (named + 1) { t with orders := t.orders ++ [row] } os := by
            simp [insertAll, insertOrder_accepted haccepted, row]
          rw [hinsert, stopsAtTooLarge_cons haccepted (t.orders ++ [row])]
          rcases ih (named + 1) { t with orders := t.orders ++ [row] } with
            ⟨hstops, hall⟩ | ⟨hstops, hrefused⟩ | ⟨hstops, earlier, hprefix, hsome⟩
          · refine Or.inl ⟨hstops, hall.trans ?_⟩
            simp [rows, row]
          · exact Or.inr (Or.inl ⟨hstops, hrefused⟩)
          · refine Or.inr (Or.inr ⟨hstops, o :: earlier, ?_, hsome.trans ?_⟩)
            · exact List.cons_prefix_cons.2 ⟨rfl, hprefix⟩
            · simp [rows, row]
        · rcases insertOrder_refused hfits haccepted (orderName (named + 1)) with ⟨fault, hfault⟩
          exact Or.inr (Or.inl ⟨not_stopsAtTooLarge_cons hfits haccepted, fault, t,
            by simp [insertAll, hfault]⟩)
      · refine Or.inr (Or.inr ⟨⟨[], o, os, rfl, by simp, hfits⟩, [], List.nil_prefix, ?_⟩)
        simp [insertAll, insertOrder_tooLarge hfits, rows]

theorem insertAll_accepted {now : Seconds} {t : Tables} {os : List (NewOrder Int)}
    (h : ∀ o ∈ os, Accepted t now o) (named : Nat) :
    insertAll now named t os = (.ok (), { t with orders := t.orders ++ rows now named os }) := by
  induction os generalizing named t with
  | nil => simp [insertAll, rows]
  | cons o os ih =>
      rw [List.forall_mem_cons] at h
      rw [insertAll, insertOrder_accepted h.1]
      dsimp only
      rw [ih fun x hx => accepted_withOrders.2 (h.2 x hx)]
      simp [rows]

/-! ## All or nothing -/

variable {s : DurableStore} {b : Batch Int} {now : Seconds}

/-- A store with nothing pending and one with something pending are told apart by an empty batch. -/
theorem not_alike_of_pending {s t : DurableStore} {u : Tables} (hs : s.closed = false)
    (ht : t.closed = false) (hnone : s.pending? = none) (hsome : t.pending? = some u)
    (now : Seconds) : ¬Alike s t := by
  intro h
  -- One store accepts the empty batch, and the other refuses it.
  have hanswers := h 0 [.apply ⟨[], []⟩ now]
  simp [answers, answer, DurableStore.apply, openBatch, finishBatch, insertAll, hs, ht, hnone,
    hsome] at hanswers

/-- The store after the orders that a batch has before one whose integers do not fit. -/
def leftOpen (s : DurableStore) (b : Batch Int) (now : Seconds) (earlier : List (NewOrder Int)) :
    DurableStore :=
  let t := s.committed.cancel b.cancelIds
  { s with
    pending? := some { t with orders := t.orders ++ rows now s.named earlier }
    named := s.named + b.newOrders.length }

/-- A batch on an open store with nothing pending is committed, or dropped, or left open. -/
theorem apply_cases (hclosed : s.closed = false) (hnone : s.pending? = none) (b : Batch Int)
    (now : Seconds) :
    (¬StopsAtTooLarge s.committed now b.newOrders ∧
      s.apply b now = (.ok (), s.committedBatch b now)) ∨
    (¬StopsAtTooLarge s.committed now b.newOrders ∧
      ∃ fault named, s.apply b now = (.error (.write fault), { s with named := named })) ∨
    (StopsAtTooLarge s.committed now b.newOrders ∧ ∃ earlier, earlier <+: b.newOrders ∧
      s.apply b now = (.error .integerTooLarge, s.leftOpen b now earlier)) := by
  have hopen : s.apply b now =
      ({ s with pending? := some (s.committed.cancel b.cancelIds) } : DurableStore).finishBatch
        b.newOrders now := by
    simp [DurableStore.apply, openBatch, hclosed, hnone]
  have hstops : StopsAtTooLarge (s.committed.cancel b.cancelIds) now b.newOrders ↔
      StopsAtTooLarge s.committed now b.newOrders := by
    simp only [StopsAtTooLarge, Tables.cancel, accepted_withOrders]
  have hinsert := insertAll_cases now s.named (s.committed.cancel b.cancelIds) b.newOrders
  rw [hstops] at hinsert
  rw [hopen]
  rcases hinsert with ⟨hnot, hall⟩ | ⟨hnot, fault, t, hrefused⟩ | ⟨hstop, earlier, hprefix, hsome⟩
  · refine Or.inl ⟨hnot, ?_⟩
    simp [finishBatch, tables, hall, committedBatch]
  · refine Or.inr (Or.inl ⟨hnot, fault, s.named + b.newOrders.length, ?_⟩)
    simp [finishBatch, tables, hrefused, hnone]
  · refine Or.inr (Or.inr ⟨hstop, earlier, hprefix, ?_⟩)
    simp [finishBatch, tables, hsome, leftOpen]

/-- A batch is accepted by a store with nothing pending, and committed as a whole. -/
theorem apply_accepted_eq (h : (s.apply b now).1 = .ok ()) :
    s.pending? = none ∧ (s.apply b now).2 = s.committedBatch b now := by
  have hclosed : s.closed = false := by
    cases hclosed : s.closed with
    | false => rfl
    | true => simp [DurableStore.apply, openBatch, hclosed] at h
  have hnone : s.pending? = none := by
    cases hpending : s.pending? with
    | none => rfl
    | some t => simp [DurableStore.apply, openBatch, hclosed, hpending] at h
  refine ⟨hnone, ?_⟩
  rcases apply_cases hclosed hnone b now with
    ⟨-, happly⟩ | ⟨-, fault, named, happly⟩ | ⟨-, earlier, -, happly⟩
  · rw [happly]
  · rw [happly] at h
    cases h
  · rw [happly] at h
    cases h

/-- A store that is ready for more takes a batch whose orders are all accepted. -/
theorem apply_accepted (opened : s.closed = false) (idle : s.pending? = none)
    (h : ∀ o ∈ b.newOrders, Accepted s.committed now o) :
    s.apply b now = (.ok (), s.committedBatch b now) := by
  have hinsert := insertAll_accepted (t := s.committed.cancel b.cancelIds)
    (fun o ho => accepted_withOrders.2 (h o ho)) s.named
  simp [DurableStore.apply, openBatch, opened, idle, finishBatch, tables, hinsert, committedBatch]

/-- A closed store refuses every batch and stays as it is. -/
theorem allOrNothing_of_closed (h : s.closed = true) (b : Batch Int) (now : Seconds) :
    AllOrNothing s b now := by
  have happly : s.apply b now = (.error (.write .closed), s) := by
    simp [DurableStore.apply, openBatch, h]
  refine Or.inr ⟨.write .closed, ?_, rfl, ?_⟩
  · rw [happly]
  · rw [happly]
    exact alike_of_named s s.named

/-- What was pending is dropped by a batch that is refused for it, and the next batch is accepted. -/
theorem not_allOrNothing_of_pending (hclosed : s.closed = false) {t : Tables}
    (hpending : s.pending? = some t) (b : Batch Int) (now : Seconds) : ¬AllOrNothing s b now := by
  have happly : s.apply b now = (.error (.write .openTransaction), { s with pending? := none }) := by
    simp [DurableStore.apply, openBatch, hclosed, hpending]
  rintro (hall | ⟨fault, -, -, halike⟩)
  · rw [happly] at hall
    cases (Prod.mk.inj hall).1
  · rw [happly] at halike
    exact absurd halike (not_alike_of_pending hclosed hclosed rfl hpending now)

/-- An integer that does not fit is no failure of the store. -/
theorem not_allOrNothing_of_tooLarge (h : (s.apply b now).1 = .error .integerTooLarge) :
    ¬AllOrNothing s b now := by
  rintro (hall | ⟨fault, hfault, hkind, -⟩)
  · rw [hall] at h
    cases h
  · rw [h] at hfault
    obtain rfl := Except.error.inj hfault
    exact absurd hkind (by decide)

/-- On an open store with nothing pending, only an integer that does not fit can break a batch. -/
theorem allOrNothing_iff_of_idle (hclosed : s.closed = false) (hnone : s.pending? = none)
    (b : Batch Int) (now : Seconds) :
    AllOrNothing s b now ↔ ¬StopsAtTooLarge s.committed now b.newOrders := by
  rcases apply_cases hclosed hnone b now with
    ⟨hnot, happly⟩ | ⟨hnot, fault, named, happly⟩ | ⟨hstop, earlier, -, happly⟩
  · exact iff_of_true (Or.inl happly) hnot
  · -- The refused batch has given out names, and nothing else is left of it.
    refine iff_of_true (Or.inr ⟨.write fault, ?_, rfl, ?_⟩) hnot
    · rw [happly]
    · rw [happly]
      exact alike_of_named s named
  · exact iff_of_false (not_allOrNothing_of_tooLarge (by rw [happly])) (not_not_intro hstop)

/-- A batch is all or nothing if the store is closed, or if nothing is pending and the orders are not
stopped by an integer that does not fit; otherwise it is not. -/
theorem all_or_nothing_iff (s : DurableStore) (b : Batch Int) (now : Seconds) :
    AllOrNothing s b now ↔
      s.closed = true ∨ (s.pending? = none ∧ ¬StopsAtTooLarge s.committed now b.newOrders) := by
  cases hclosed : s.closed with
  | true => exact iff_of_true (allOrNothing_of_closed hclosed b now) (Or.inl rfl)
  | false =>
      cases hpending : s.pending? with
      | some t =>
          refine iff_of_false (not_allOrNothing_of_pending hclosed hpending b now) ?_
          rintro (h | ⟨h, -⟩)
          · cases h
          · cases h
      | none =>
          rw [allOrNothing_iff_of_idle hclosed hpending b now]
          simp

/-- A store with one order. -/
def oneOrder : DurableStore where
  committed :=
    { instruments := [("s1", ⟨"s1", "ACME", 100⟩)]
      traders := [("b1", { id := "b1", balance := 10000 })]
      orders := [⟨"order-1", { instrumentId := "s1", botId := "b1", side := .buy,
                               limitPrice := 10, quantity := 2 }, 1704067200⟩] }
  named := 1

/-- A batch that cancels the order and inserts one at a price of 2 ^ 63. -/
def tooLargeBatch : Batch Int where
  cancelIds := ["order-1"]
  newOrders := [{ instrumentId := "s1", botId := "b1", side := .buy,
                  limitPrice := 9223372036854775808, quantity := 1 }]

theorem tooLargeBatch_leaks :
    ¬AllOrNothing oneOrder tooLargeBatch 1704067200 ∧
      (oneOrder.apply tooLargeBatch 1704067200).1 = .error .integerTooLarge ∧
      (oneOrder.apply tooLargeBatch 1704067200).2.tables.orders.map (·.terms.status) =
        [.cancelled] := by
  have hresult : (oneOrder.apply tooLargeBatch 1704067200).1 = .error .integerTooLarge := rfl
  exact ⟨not_allOrNothing_of_tooLarge hresult, hresult, rfl⟩

end DurableStore

end RuleTrader
