import RuleTrader.Proofs.Market.Organized
import RuleTrader.Proofs.Trading.Placement
import RuleTrader.Store.Memory

/-!
# Orders in the store in memory

What closing and inserting do to the open orders of a bot in an instrument. Closing takes open orders
away and adds none; where orders have distinct names, no order of a closed name stays open. An order
that is inserted in a place without open orders is the only one there.
-/

namespace RuleTrader

namespace MemoryStore

/-! ## Closing -/

section Closing

variable {id botId instrumentId : String} {status : OrderStatus} {orders : List (Order Value)}

/-- Closing changes nothing of an order but its status. -/
theorem closeOrder_map {β : Type} (f : Order Value → β)
    (hf : ∀ (o : Order Value) (status : OrderStatus), f { o with status } = f o) (id : String)
    (status : OrderStatus) (orders : List (Order Value)) :
    (closeOrder id status orders).map f = orders.map f := by
  induction orders with
  | nil => rfl
  | cons o os ih =>
      unfold closeOrder
      split
      · simp [hf]
      · simp [ih]

theorem closeOrder_ids (id : String) (status : OrderStatus) (orders : List (Order Value)) :
    (closeOrder id status orders).map (·.id) = orders.map (·.id) :=
  closeOrder_map _ (fun _ _ => rfl) id status orders

/-- Closing an order opens none. -/
theorem openIn_closeOrder_sublist (hstatus : status ≠ .opened) :
    (Order.openIn (closeOrder id status orders) botId instrumentId).Sublist
      (Order.openIn orders botId instrumentId) := by
  induction orders with
  | nil => exact List.Sublist.refl _
  | cons o os ih =>
      unfold closeOrder
      split
      · -- The order that is closed drops out, whatever place it is in.
        have hclosed : ({ o with status } : Order Value).isOpen = false := by
          simpa [Order.isOpen] using hstatus
        rw [Order.openIn, List.filter_cons, if_neg (by simp [hclosed])]
        exact (List.sublist_cons_self o os).filter _
      · simp only [Order.openIn, List.filter_cons] at ih ⊢
        split
        · exact ih.cons_cons _
        · exact ih

/-- What is open after closing a name was open before and has another name. -/
theorem mem_closeOrder (hstatus : status ≠ .opened) (nodup : (orders.map (·.id)).Nodup)
    {o : Order Value} (ho : o ∈ closeOrder id status orders) (hopen : o.isOpen = true) :
    o ∈ orders ∧ o.id ≠ id := by
  induction orders with
  | nil => simp [closeOrder] at ho
  | cons x xs ih =>
      rw [List.map_cons, List.nodup_cons] at nodup
      unfold closeOrder at ho
      split at ho
      · next hx =>
          rcases List.mem_cons.1 ho with rfl | hxs
          · simp [Order.isOpen, hstatus] at hopen
          · -- Only the first open order of the name is closed, but there is no other one.
            refine ⟨List.mem_cons_of_mem _ hxs, ?_⟩
            intro heq
            exact nodup.1 (hx.1 ▸ heq ▸ List.mem_map_of_mem hxs)
      · next hx =>
          rcases List.mem_cons.1 ho with rfl | hxs
          · refine ⟨List.mem_cons_self .., ?_⟩
            intro heq
            exact hx ⟨heq, hopen⟩
          · have hrest := ih nodup.2 hxs
            exact ⟨List.mem_cons_of_mem _ hrest.1, hrest.2⟩

/-- The orders after cancelling those of the given names. -/
def cancelled (ids : List String) (orders : List (Order Value)) : List (Order Value) :=
  ids.foldl (fun os id => closeOrder id .cancelled os) orders

theorem openIn_cancelled_sublist (ids : List String) (orders : List (Order Value)) :
    (Order.openIn (cancelled ids orders) botId instrumentId).Sublist
      (Order.openIn orders botId instrumentId) := by
  induction ids generalizing orders with
  | nil => exact List.Sublist.refl _
  | cons id ids ih => exact (ih _).trans (openIn_closeOrder_sublist (by decide))

theorem mem_cancelled {ids : List String} (nodup : (orders.map (·.id)).Nodup) {o : Order Value}
    (ho : o ∈ cancelled ids orders) (hopen : o.isOpen = true) : o ∈ orders ∧ o.id ∉ ids := by
  induction ids generalizing orders with
  | nil => exact ⟨ho, List.not_mem_nil⟩
  | cons id ids ih =>
      have hrest := ih (by rwa [closeOrder_ids]) ho
      have hfirst := mem_closeOrder (by decide) nodup hrest.1 hopen
      refine ⟨hfirst.1, ?_⟩
      intro hmem
      rcases List.mem_cons.1 hmem with heq | hmem
      · exact hfirst.2 heq
      · exact hrest.2 hmem

/-- A place is free once all its open orders are cancelled. -/
theorem openIn_cancelled_eq_nil {ids : List String} (nodup : (orders.map (·.id)).Nodup)
    (h : ∀ o ∈ Order.openIn orders botId instrumentId, o.id ∈ ids) :
    Order.openIn (cancelled ids orders) botId instrumentId = [] := by
  refine List.eq_nil_iff_forall_not_mem.2 fun o ho => ?_
  rcases Order.mem_openIn.1 ho with ⟨hmem, hopen, hplace⟩
  have hbefore := mem_cancelled nodup hmem hopen
  exact hbefore.2 (h o (Order.mem_openIn.2 ⟨hbefore.1, hopen, hplace⟩))

end Closing

/-! ## Inserting -/

section Inserting

variable {now : Micros} {s : MemoryStore} {o : NewOrder Value} {botId instrumentId : String}

theorem openIn_insert_of_ne (h : o.place ≠ (instrumentId, botId)) :
    Order.openIn (insert now s o).orders botId instrumentId =
      Order.openIn s.orders botId instrumentId := by
  have hplace : ¬(o.botId = botId ∧ o.instrumentId = instrumentId) := by
    rintro ⟨rfl, rfl⟩
    exact h rfl
  simp only [insert, nameOrder, Order.openIn, List.filter_append, List.append_right_eq_self]
  refine List.filter_eq_nil_iff.2 fun x hx => ?_
  obtain rfl := List.mem_singleton.1 hx
  simpa [storedOrder] using fun _ hbot hinstrument => hplace ⟨hbot, hinstrument⟩

theorem openIn_insert_self (h : o.status = .opened) :
    Order.openIn (insert now s o).orders o.botId o.instrumentId =
      Order.openIn s.orders o.botId o.instrumentId ++
        [storedOrder (orderName (s.named + 1)) now o] := by
  simp [insert, nameOrder, Order.openIn, List.filter_append, storedOrder, Order.isOpen, h]

theorem openIn_foldl_insert_of_not_mem {os : List (NewOrder Value)}
    (h : (instrumentId, botId) ∉ os.map (·.place)) :
    Order.openIn (os.foldl (insert now) s).orders botId instrumentId =
      Order.openIn s.orders botId instrumentId := by
  induction os generalizing s with
  | nil => rfl
  | cons o os ih =>
      rw [List.map_cons, List.mem_cons, not_or] at h
      rw [List.foldl_cons, ih h.2]
      exact openIn_insert_of_ne (Ne.symm h.1)

/-- The orders that new orders become, under the names that follow. -/
def stored (now : Micros) : Nat → List (NewOrder Value) → List (Order Value)
  | _, [] => []
  | named, o :: os => storedOrder (orderName (named + 1)) now o :: stored now (named + 1) os

/-- Inserted orders come last, in their sequence. -/
theorem foldl_insert_eq (now : Micros) (os : List (NewOrder Value)) (s : MemoryStore) :
    os.foldl (insert now) s =
      { s with orders := s.orders ++ stored now s.named os, named := s.named + os.length } := by
  induction os generalizing s with
  | nil => simp [stored]
  | cons o os ih =>
      rw [List.foldl_cons, ih]
      simp [insert, nameOrder, stored]
      omega

theorem foldl_insert_named (os : List (NewOrder Value)) :
    (os.foldl (insert now) s).named = s.named + os.length := by
  rw [foldl_insert_eq]

end Inserting

/-! ## Applying a batch -/

/-- The store in the middle of a batch: all cancellations are done, and some insertions. -/
def midway (s : MemoryStore) (ids : List String) (inserted : List (NewOrder Value)) (now : Micros) :
    MemoryStore :=
  inserted.foldl (insert now) { s with orders := cancelled ids s.orders }

theorem apply_orders {s : MemoryStore} (h : s.applyFailure? = none) (b : Batch Value)
    (now : Micros) :
    (s.apply b now).2.orders = (s.midway b.cancelIds b.newOrders now).orders := by
  simp [apply, h, midway, cancelled]

variable {s : MemoryStore} {ids : List String}

/-- An order that is inserted where all open orders are cancelled is the only one there, as long as the
batch has no other order for the place. -/
theorem openIn_midway {earlier : List (NewOrder Value)} {o : NewOrder Value}
    (nodup : (s.orders.map (·.id)).Nodup) (hstatus : o.status = .opened)
    (hcleared : ∀ x ∈ Order.openIn s.orders o.botId o.instrumentId, x.id ∈ ids)
    (hfirst : o.place ∉ earlier.map (·.place)) (now : Micros) :
    Order.openIn (s.midway ids (earlier ++ [o]) now).orders o.botId o.instrumentId =
      [storedOrder (orderName (s.named + earlier.length + 1)) now o] := by
  rw [midway, List.foldl_append, List.foldl_cons, List.foldl_nil, openIn_insert_self hstatus,
    openIn_foldl_insert_of_not_mem hfirst, foldl_insert_named]
  simp only [openIn_cancelled_eq_nil nodup hcleared, List.nil_append]

end MemoryStore

end RuleTrader
