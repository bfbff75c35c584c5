import Mathlib.Data.List.Forall2
import RuleTrader.Proofs.Store.Reach
import RuleTrader.Proofs.Store.Refusal

/-!
# The life of an order

An order comes into a store once and stays there: nothing of it changes but its status, and that only
once, when the order is filled or cancelled (`Order.Becomes`). Both stores keep their orders in sequence
(`Lasting`), whatever happens to them in which order, and a batch has the same exact effect in both: the
open orders that it names are cancelled, and its new orders come last.

The store in memory looks an order up by its name and changes the first one that is open. That is every
one only if no two orders share a name, which is assumed where the effect of a batch is told.
-/

namespace RuleTrader

/-- What the status of an order becomes: an open order is filled or cancelled, and no order changes after
that. -/
inductive OrderStatus.Becomes : OrderStatus → OrderStatus → Prop where
  | stays (status : OrderStatus) : Becomes status status
  | filled : Becomes .opened .filled
  | cancelled : Becomes .opened .cancelled

namespace OrderStatus.Becomes

variable {a b c : OrderStatus}

theorem trans (hab : a.Becomes b) (hbc : b.Becomes c) : a.Becomes c := by
  cases hab with
  | stays => exact hbc
  | filled =>
      cases hbc with
      | stays => exact .filled
  | cancelled =>
      cases hbc with
      | stays => exact .cancelled

theorem of_closes (h : b ≠ .opened) : OrderStatus.Becomes .opened b := by
  cases b with
  | opened => exact absurd rfl h
  | filled => exact .filled
  | cancelled => exact .cancelled

end OrderStatus.Becomes

/-- What an order becomes: nothing of it changes but its status. -/
def Order.Becomes {α : Type} (o x : Order α) : Prop :=
  ∃ status, o.status.Becomes status ∧ x = { o with status }

/-- What a row of an order becomes: nothing of it changes but its status. -/
def StoredOrder.Becomes (o x : StoredOrder) : Prop :=
  ∃ status, o.terms.status.Becomes status ∧ x = { o with terms := { o.terms with status } }

instance {α : Type} : Std.Refl (Order.Becomes (α := α)) := ⟨fun o => ⟨o.status, .stays _, rfl⟩⟩

instance {α : Type} : IsTrans (Order α) Order.Becomes := by
  refine ⟨?_⟩
  rintro o - - ⟨b, hab, rfl⟩ ⟨c, hbc, rfl⟩
  exact ⟨c, hab.trans hbc, rfl⟩

instance : Std.Refl StoredOrder.Becomes := ⟨fun o => ⟨o.terms.status, .stays _, rfl⟩⟩

instance : IsTrans StoredOrder StoredOrder.Becomes := by
  refine ⟨?_⟩
  rintro o - - ⟨b, hab, rfl⟩ ⟨c, hbc, rfl⟩
  exact ⟨c, hab.trans hbc, rfl⟩

/-- The orders of a list are among those of another one, in their sequence, each as what it became. -/
abbrev Lasting {β : Type} (R : β → β → Prop) (old new : List β) : Prop := List.SublistForall₂ R old new

namespace Lasting

variable {β γ : Type} {R : β → β → Prop}

/-- The orders stay where they are, and others come last. -/
theorem append {old kept : List β} (h : List.Forall₂ R old kept) (added : List β) :
    Lasting R old (kept ++ added) :=
  List.sublistForall₂_iff.2 ⟨kept, h, List.sublist_append_left kept added⟩

theorem of_eq [Std.Refl R] {old new : List β} (h : new = old) : Lasting R old new := by
  rw [h]
  exact (List.Sublist.refl old).sublistForall₂

theorem trans [IsTrans β R] {old mid new : List β} (h : Lasting R old mid) (h' : Lasting R mid new) :
    Lasting R old new :=
  IsTrans.trans _ _ _ h h'

theorem of_forall₂ {old new : List β} (h : List.Forall₂ R old new) : Lasting R old new :=
  List.sublistForall₂_iff.2 ⟨new, h, .refl new⟩

/-- What is lasting is lasting as seen by a reader that tells what it became. -/
theorem read {S : β → γ → Prop} {T : γ → γ → Prop} {old new : List β} {seen seen' : List γ}
    (h : Lasting R old new) (hold : List.Forall₂ S old seen) (hnew : List.Forall₂ S new seen')
    (hread : ∀ o x y z, R o x → S o y → S x z → T y z) : Lasting T seen seen' := by
  induction h generalizing seen seen' with
  | nil =>
      cases hold
      exact .nil
  | cons hR _ ih =>
      cases hold with
      | cons ho hold =>
          cases hnew with
          | cons hx hnew => exact .cons (hread _ _ _ _ hR ho hx) (ih hold hnew)
  | cons_right _ ih =>
      cases hnew with
      | cons hx hnew => exact .cons_right (ih hold hnew)

end Lasting

/-! ## Sorting -/

section Sorting

variable {β : Type} {key : β → Int}

/-- The elements of a list by their keys, those of one key in their sequence. -/
abbrev sortByKey (key : β → Int) (l : List β) : List β := l.mergeSort fun a b => key a ≤ key b

/-- A list that is sorted by a key: its elements are those of another list, and those of one key stand in
the sequence that they have there. -/
structure SortedFrom (key : β → Int) (l sorted : List β) : Prop where
  perm : sorted.Perm l
  byKey : sorted.Pairwise fun a b => key a ≤ key b
  ties : ∀ k, sorted.filter (fun a => key a = k) = l.filter fun a => key a = k

theorem key_le_trans (a b c : β) (hab : decide (key a ≤ key b) = true)
    (hbc : decide (key b ≤ key c) = true) : decide (key a ≤ key c) = true :=
  decide_eq_true (Int.le_trans (of_decide_eq_true hab) (of_decide_eq_true hbc))

theorem key_le_total (a b : β) : (decide (key a ≤ key b) || decide (key b ≤ key a)) = true := by
  simpa using Int.le_total (key a) (key b)

theorem sortedFrom_sortByKey (key : β → Int) (l : List β) : SortedFrom key l (sortByKey key l) where
  perm := List.mergeSort_perm l _
  byKey := (List.pairwise_mergeSort key_le_trans key_le_total l).imp of_decide_eq_true
  ties := by
    intro k
    -- The elements of one key are sorted, so they are among the sorted list in their sequence.
    have hties : (l.filter fun a => key a = k).Pairwise fun a b => decide (key a ≤ key b) = true := by
      refine List.pairwise_of_forall_mem_list fun a ha b hb => ?_
      simp only [List.mem_filter, decide_eq_true_eq] at ha hb
      exact decide_eq_true (by omega)
    have hsub := (List.sublist_mergeSort key_le_trans key_le_total hties List.filter_sublist).filter
      fun a => key a = k
    rw [List.filter_filter] at hsub
    simp only [Bool.and_self] at hsub
    exact (hsub.eq_of_length (((List.mergeSort_perm l _).filter _).length_eq).symm).symm

theorem SortedFrom.filter {l sorted : List β} (h : SortedFrom key l sorted) (p : β → Bool) :
    SortedFrom key (l.filter p) (sorted.filter p) where
  perm := h.perm.filter p
  byKey := h.byKey.filter p
  ties := by
    intro k
    rw [List.filter_comm, h.ties, List.filter_comm]

/-- An element that is put before a list comes after what has a smaller key, and before the rest. -/
theorem sortByKey_cons (key : β → Int) (a : β) (l : List β) :
    ∃ before after, sortByKey key l = before ++ after ∧ sortByKey key (a :: l) = before ++ a :: after ∧
      before = (sortByKey key l).filter (fun b => key b < key a) ∧
      after = (sortByKey key l).filter (fun b => key a ≤ key b) := by
  rcases List.mergeSort_cons key_le_trans key_le_total a l with ⟨before, after, hcons, hl, hbefore⟩
  have hsmaller : ∀ b ∈ before, key b < key a := by simpa using hbefore
  -- The list is sorted with the element in it, so nothing after the element has a smaller key.
  have hgreater : ∀ b ∈ after, key a ≤ key b := by
    have hsorted := (sortedFrom_sortByKey key (a :: l)).byKey
    rw [sortByKey, hcons, List.pairwise_append] at hsorted
    exact (List.pairwise_cons.1 hsorted.2.1).1
  refine ⟨before, after, hl, hcons, ?_, ?_⟩
  · rw [sortByKey, hl, List.filter_append, List.filter_eq_self.2 (by simpa using hsmaller),
      List.filter_eq_nil_iff.2 (by simpa using hgreater), List.append_nil]
  · have hnone : before.filter (fun b => key a ≤ key b) = [] :=
      List.filter_eq_nil_iff.2 (by simpa using hsmaller)
    rw [sortByKey, hl, List.filter_append, hnone, List.filter_eq_self.2 (by simpa using hgreater),
      List.nil_append]

/-- Sorting keeps what is among a list in its sequence. -/
theorem sortByKey_sublist {l l' : List β} (h : l.Sublist l') :
    (sortByKey key l).Sublist (sortByKey key l') := by
  induction h with
  | slnil => exact .refl _
  | @cons l l' a _ ih =>
      rcases sortByKey_cons key a l' with ⟨before, after, hl', hcons, -, -⟩
      rw [hl'] at ih
      rw [hcons]
      exact ih.trans ((List.Sublist.refl before).append (List.sublist_cons_self a after))
  | @cons_cons l l' a _ ih =>
      rcases sortByKey_cons key a l with ⟨before, after, -, hcons, rfl, rfl⟩
      rcases sortByKey_cons key a l' with ⟨before', after', -, hcons', rfl, rfl⟩
      rw [hcons, hcons']
      exact (ih.filter _).append ((ih.filter _).cons_cons a)

/-- Sorting goes by the keys alone. -/
theorem sortByKey_forall₂ {R : β → β → Prop} (hkey : ∀ a b, R a b → key b = key a)
    {l l' : List β} (h : List.Forall₂ R l l') :
    List.Forall₂ R (sortByKey key l) (sortByKey key l') := by
  induction h with
  | nil => simp [sortByKey]
  | @cons a b l l' hab _ ih =>
      rcases sortByKey_cons key a l with ⟨before, after, -, hcons, rfl, rfl⟩
      rcases sortByKey_cons key b l' with ⟨before', after', -, hcons', rfl, rfl⟩
      rw [hcons, hcons', hkey a b hab]
      refine List.rel_append (List.rel_filter ?_ ih) (.cons hab (List.rel_filter ?_ ih))
      · intro x y hxy
        simp [hkey x y hxy]
      · intro x y hxy
        simp [hkey x y hxy]

theorem Lasting.sorted {R : β → β → Prop} (key : β → Int) (hkey : ∀ a b, R a b → key b = key a)
    {old new : List β} (h : Lasting R old new) :
    Lasting R (sortByKey key old) (sortByKey key new) := by
  rcases List.sublistForall₂_iff.1 h with ⟨kept, hkept, hsub⟩
  exact List.sublistForall₂_iff.2 ⟨_, sortByKey_forall₂ hkey hkept, sortByKey_sublist hsub⟩

end Sorting

/-! ## The store in memory -/

/-- Close an open order of a name. -/
def Order.closeIfNamed {α : Type} (id : String) (status : OrderStatus) (o : Order α) : Order α :=
  if o.isOpen && o.id = id then { o with status } else o

/-- Cancel an open order that is named. -/
def Order.cancelIfNamed {α : Type} (ids : List String) (o : Order α) : Order α :=
  if o.isOpen && o.id ∈ ids then { o with status := .cancelled } else o

namespace Order

variable {α : Type} {o : Order α} {id : String} {ids : List String}

theorem cancelIfNamed_of_not (h : ¬(o.isOpen = true ∧ o.id ∈ ids)) : o.cancelIfNamed ids = o :=
  if_neg (by simpa using h)

theorem cancelIfNamed_of_named (hopen : o.isOpen = true) (hid : o.id ∈ ids) :
    o.cancelIfNamed ids = { o with status := .cancelled } :=
  if_pos (by simp [hopen, hid])

theorem closeIfNamed_of_not {status : OrderStatus} (h : ¬(o.isOpen = true ∧ o.id = id)) :
    o.closeIfNamed id status = o :=
  if_neg (by simpa using h)

theorem closeIfNamed_of_named {status : OrderStatus} (hopen : o.isOpen = true) (hid : o.id = id) :
    o.closeIfNamed id status = { o with status } :=
  if_pos (by simp [hopen, hid])

/-- Orders can be cancelled name by name. -/
theorem cancelIfNamed_cons (o : Order α) (id : String) (ids : List String) :
    (o.closeIfNamed id .cancelled).cancelIfNamed ids = o.cancelIfNamed (id :: ids) := by
  by_cases hfirst : o.isOpen = true ∧ o.id = id
  · rw [closeIfNamed_of_named hfirst.1 hfirst.2,
      cancelIfNamed_of_named hfirst.1 (List.mem_cons.2 (Or.inl hfirst.2))]
    -- An order that is cancelled is not open any more.
    exact cancelIfNamed_of_not (by simp [isOpen])
  · rw [closeIfNamed_of_not hfirst]
    by_cases hopen : o.isOpen = true
    · have hid : o.id ≠ id := fun h => hfirst ⟨hopen, h⟩
      simp [cancelIfNamed, hid]
    · rw [cancelIfNamed_of_not (fun h => hopen h.1), cancelIfNamed_of_not (fun h => hopen h.1)]

end Order

namespace MemoryStore

/-- Something that happens to a store: a change by hand, which may be an order that is put in, a fill from
outside, a read, or a batch. -/
inductive Event (s : MemoryStore) : MemoryStore → Prop where
  | seed (x : Seed) : Event s (x.plant s)
  | fill (id : String) : Event s (s.fill id)
  | fetch : Event s s.fetch.2
  | apply (b : Batch Value) (now : Micros) : Event s (s.apply b now).2

/-- Any number of events. -/
def Events : MemoryStore → MemoryStore → Prop := Relation.ReflTransGen Event

section Lasting

variable {id : String} {status : OrderStatus}

theorem closeOrder_becomes (id : String) (h : status ≠ .opened) (orders : List (Order Value)) :
    List.Forall₂ Order.Becomes orders (closeOrder id status orders) := by
  induction orders with
  | nil => exact .nil
  | cons o os ih =>
      unfold closeOrder
      split
      · next hclosed =>
          have hopen : o.status = .opened := by simpa [Order.isOpen] using hclosed.2
          exact .cons ⟨status, hopen ▸ .of_closes h, rfl⟩ (List.forall₂_refl os)
      · exact .cons ⟨o.status, .stays _, rfl⟩ ih

theorem cancelled_becomes (ids : List String) (orders : List (Order Value)) :
    Lasting Order.Becomes orders (cancelled ids orders) := by
  induction ids generalizing orders with
  | nil => exact .of_eq rfl
  | cons id ids ih =>
      have hfirst : List.Forall₂ Order.Becomes orders (closeOrder id .cancelled orders) :=
        closeOrder_becomes id (by decide) orders
      exact (Lasting.of_forall₂ hfirst).trans (ih _)

end Lasting

/-! ### Batches -/

/-- An order that a new order has become in the store, under some name. -/
def Stored (now : Micros) (o : NewOrder Value) (x : Order Value) : Prop := x = storedOrder x.id now o

theorem stored_forall₂ (now : Micros) (named : Nat) (os : List (NewOrder Value)) :
    List.Forall₂ (Stored now) os (stored now named os) := by
  induction os generalizing named with
  | nil => exact .nil
  | cons o os ih => exact .cons rfl (ih (named + 1))

/-- Where no two orders share a name, closing the first open order of a name closes every one. -/
theorem closeOrder_eq_map {orders : List (Order Value)} (apart : (orders.map (·.id)).Nodup)
    (id : String) (status : OrderStatus) :
    closeOrder id status orders = orders.map (·.closeIfNamed id status) := by
  induction orders with
  | nil => rfl
  | cons o os ih =>
      rw [List.map_cons, List.nodup_cons] at apart
      unfold closeOrder
      split
      · next hclosed =>
          have hrest : os.map (·.closeIfNamed id status) = os := by
            refine (List.map_congr_left fun x hx => ?_).trans (List.map_id os)
            refine Order.closeIfNamed_of_not ?_
            rintro ⟨-, hid⟩
            exact apart.1 (hclosed.1.trans hid.symm ▸ List.mem_map_of_mem hx)
          rw [List.map_cons, hrest, Order.closeIfNamed_of_named hclosed.2 hclosed.1]
      · next hclosed =>
          rw [List.map_cons, ih apart.2, Order.closeIfNamed_of_not]
          rintro ⟨hopen, hid⟩
          exact hclosed ⟨hid, hopen⟩

theorem cancelled_eq_map {orders : List (Order Value)} (apart : (orders.map (·.id)).Nodup)
    (ids : List String) : cancelled ids orders = orders.map (·.cancelIfNamed ids) := by
  induction ids generalizing orders with
  | nil => simp [cancelled, Order.cancelIfNamed]
  | cons id ids ih =>
      have hapart : ((closeOrder id .cancelled orders).map (·.id)).Nodup := by
        rwa [closeOrder_ids]
      calc
        cancelled (id :: ids) orders
            = cancelled ids (closeOrder id .cancelled orders) := rfl
        _ = (closeOrder id .cancelled orders).map (·.cancelIfNamed ids) := ih hapart
        _ = orders.map (·.cancelIfNamed (id :: ids)) := by
            rw [closeOrder_eq_map apart, List.map_map]
            exact List.map_congr_left fun o _ => Order.cancelIfNamed_cons o id ids

/-- A batch that is not refused, where no two orders share a name. -/
theorem apply_eq {s : MemoryStore} (h : s.applyFailure? = none) (apart : s.Apart) (b : Batch Value)
    (now : Micros) :
    s.apply b now = (.ok (), { s with
      orders := s.orders.map (·.cancelIfNamed b.cancelIds) ++ stored now s.named b.newOrders
      named := s.named + b.newOrders.length
      batches := s.batches ++ [b] }) := by
  rw [apply_ok h, midway, foldl_insert_eq, cancelled_eq_map apart]

/-- A batch that is refused changes nothing. Otherwise exactly the open orders that it names are cancelled,
and exactly its new orders come last. -/
def AppliesExactly (s : MemoryStore) (b : Batch Value) (now : Micros) : Prop :=
  match s.applyFailure? with
  | some reason => s.apply b now = (.error (.applyFailed reason), s)
  | none =>
    (s.apply b now).1 = .ok () ∧
      ∃ added, (s.apply b now).2.orders = s.orders.map (·.cancelIfNamed b.cancelIds) ++ added ∧
        List.Forall₂ (Stored now) b.newOrders added

theorem appliesExactly {s : MemoryStore} (apart : s.Apart) (b : Batch Value) (now : Micros) :
    s.AppliesExactly b now := by
  unfold AppliesExactly
  cases hfailure : s.applyFailure? with
  | some reason => exact apply_refused hfailure b now
  | none =>
      rw [apply_eq hfailure apart]
      exact ⟨rfl, _, rfl, stored_forall₂ now s.named b.newOrders⟩

/-! ### Runs -/

theorem apply_becomes (s : MemoryStore) (b : Batch Value) (now : Micros) :
    Lasting Order.Becomes s.orders (s.apply b now).2.orders := by
  cases hfailure : s.applyFailure? with
  | some reason =>
      rw [apply_refused hfailure]
      exact .of_eq rfl
  | none =>
      -- Names may be shared here, so only the sequence of the orders is told.
      rw [apply_orders hfailure, midway, foldl_insert_eq]
      exact (cancelled_becomes b.cancelIds s.orders).trans (.append (List.forall₂_refl _) _)

end MemoryStore

/-- A seed that puts no order in leaves the orders alone, and gives out no name. -/
theorem Seed.plant_plain {x : Seed} (hplain : x.isOrder = false) (s : MemoryStore) :
    (x.plant s).orders = s.orders ∧ (x.plant s).named = s.named := by
  cases x with
  | order e now => cases hplain
  | balance botId amount =>
      rcases plant_balance botId amount s with hplant | ⟨b, n, -, hplant⟩
      · rw [hplant]
        exact ⟨rfl, rfl⟩
      · rw [hplant]
        exact ⟨rfl, rfl⟩
  | position botId instrumentId shares =>
      simp only [plant, MemoryStore.setPosition]
      cases shares.toInt <;> exact ⟨rfl, rfl⟩
  | price instrumentId amount =>
      simp only [plant, MemoryStore.setPrice]
      cases s.instruments.get? instrumentId with
      | none => exact ⟨rfl, rfl⟩
      | some i => cases amount.toInt <;> exact ⟨rfl, rfl⟩
  | bot b => exact ⟨rfl, rfl⟩
  | ruleSet strategyId rules => exact ⟨rfl, rfl⟩
  | instrument i => exact ⟨rfl, rfl⟩
  | aggregate a => exact ⟨rfl, rfl⟩
  | failures fetchFailure? applyFailure? => exact ⟨rfl, rfl⟩

/-- A seed takes no order away and changes none. -/
theorem Seed.plant_orders (x : Seed) (s : MemoryStore) :
    ∃ added, (x.plant s).orders = s.orders ++ added := by
  cases hplain : x.isOrder with
  | false => exact ⟨[], by rw [(plant_plain hplain s).1, List.append_nil]⟩
  | true =>
      cases x with
      | order e now =>
          rcases s.addOrder_store e now with ⟨named, hstore⟩
          rw [plant, hstore]
          exact ⟨_, rfl⟩
      | _ => cases hplain

namespace MemoryStore

theorem Event.becomes {s t : MemoryStore} (h : s.Event t) : Lasting Order.Becomes s.orders t.orders := by
  cases h with
  | seed x =>
      rcases x.plant_orders s with ⟨added, horders⟩
      rw [horders]
      exact .append (List.forall₂_refl _) added
  | fill id => exact .of_forall₂ (closeOrder_becomes id (by decide) s.orders)
  | fetch =>
      exact .of_eq (by rw [fetch_snd])
  | apply b now => exact s.apply_becomes b now

theorem Events.becomes {s t : MemoryStore} (h : s.Events t) :
    Lasting Order.Becomes s.orders t.orders := by
  induction h with
  | refl => exact .of_eq rfl
  | tail _ hevent ih => exact ih.trans hevent.becomes

end MemoryStore

/-! ## The durable store -/

theorem StoredOrder.cancelIfNamed_becomes (ids : List String) (o : StoredOrder) :
    o.Becomes (o.cancelIfNamed ids) := by
  unfold cancelIfNamed
  split
  · next h =>
      have hopen : o.terms.status = .opened := by
        simp only [isOpen, Bool.and_eq_true, beq_iff_eq] at h
        exact h.1
      exact ⟨.cancelled, hopen ▸ .cancelled, rfl⟩
  · exact ⟨o.terms.status, .stays _, rfl⟩

namespace DurableStore

/-- Something that happens to a store: a single row is put in or changed, or fails to be, or a batch is
applied. -/
inductive Event (s : DurableStore) : DurableStore → Prop where
  | seed {r : Request} (h : r.isSeed = true) : Event s (s.answer r).2
  | apply (b : Batch Int) (now : Seconds) (h : (s.apply b now).1 = .ok ()) : Event s (s.apply b now).2

/-- Any number of events. -/
def Events : DurableStore → DurableStore → Prop := Relation.ReflTransGen Event

/-- A row that a new order has become, under some name. -/
def Stored (now : Seconds) (o : NewOrder Int) (x : StoredOrder) : Prop := x = ⟨x.id, o, now⟩

theorem rows_stored (now : Seconds) (named : Nat) (os : List (NewOrder Int)) :
    List.Forall₂ (Stored now) os (rows now named os) := by
  induction os generalizing named with
  | nil => exact .nil
  | cons o os ih => exact .cons rfl (ih (named + 1))

/-- Exactly the open orders that a batch names are cancelled, and exactly its new orders come last. -/
def AppliesExactly (s : DurableStore) (b : Batch Int) (now : Seconds) : Prop :=
  ∃ added, (s.apply b now).2.tables.orders =
      s.tables.orders.map (·.cancelIfNamed b.cancelIds) ++ added ∧
    List.Forall₂ (Stored now) b.newOrders added

theorem appliesExactly {s : DurableStore} {b : Batch Int} {now : Seconds}
    (h : (s.apply b now).1 = .ok ()) : s.AppliesExactly b now := by
  rcases apply_accepted_eq h with ⟨hnone, happly⟩
  refine ⟨rows now s.named b.newOrders, ?_, rows_stored now s.named b.newOrders⟩
  rw [happly, tables, tables, hnone]
  rfl

theorem seed_orders (s : DurableStore) {r : Request} (h : r.isSeed = true) :
    (s.answer r).2.tables.orders = s.tables.orders := by
  rcases r.seed_cases h with ⟨fault, -, hanswer⟩ | ⟨f, rows, hanswer⟩
  · rw [hanswer]
  · have hafter : (s.answer r).2 = (s.change f).2 := by rw [hanswer]; rfl
    rw [hafter, change]
    cases hclosed : s.closed with
    | true => rfl
    | false =>
        cases hf : f s.tables with
        | ok t => simpa [tables] using (rows s.tables).orders t hf
        | error fault => simp [tables]

theorem Event.becomes {s t : DurableStore} (h : s.Event t) :
    Lasting StoredOrder.Becomes s.tables.orders t.tables.orders := by
  cases h with
  | seed h => exact .of_eq (s.seed_orders h)
  | apply b now h =>
      rcases appliesExactly h with ⟨added, horders, -⟩
      rw [horders]
      refine .append ?_ added
      rw [List.forall₂_map_right_iff]
      exact List.forall₂_same.2 fun o _ => o.cancelIfNamed_becomes b.cancelIds

theorem Events.becomes {s t : DurableStore} (h : s.Events t) :
    Lasting StoredOrder.Becomes s.tables.orders t.tables.orders := by
  induction h with
  | refl => exact .of_eq rfl
  | tail _ hevent ih => exact ih.trans hevent.becomes

/-- What a row shows changes only as the row does. -/
theorem toOrder_becomes {o x : StoredOrder} {y z : Order Int} (h : o.Becomes x)
    (hy : o.toOrder = .ok y) (hz : x.toOrder = .ok z) : y.Becomes z := by
  rcases h with ⟨status, hstatus, rfl⟩
  simp only [StoredOrder.toOrder] at hy hz
  cases htime : o.createdAt.rowTime with
  | error fault => simp [htime] at hy
  | ok createdAt =>
      simp only [htime, Except.ok.injEq] at hy hz
      subst hy hz
      exact ⟨status, hstatus, rfl⟩

theorem listOrders_ok {s : DurableStore} {orders : List (Order Int)}
    (h : s.listOrders none = .ok orders) :
    List.Forall₂ (fun o y => o.toOrder = .ok y) s.tables.ordersByTime orders := by
  cases hclosed : s.closed with
  | true => simp [listOrders, hclosed] at h
  | false => exact mapM_ok_iff.1 (by simpa [listOrders, Tables.listOrders, hclosed] using h)

/-- A store that is open can list its orders if their times have dates. -/
theorem exists_listOrders {s : DurableStore} (hclosed : s.closed = false)
    (h : ∀ o ∈ s.tables.orders, ∃ t, o.createdAt.rowTime = .ok t) :
    ∃ orders, s.listOrders none = .ok orders := by
  have hrows : ∀ o ∈ s.tables.ordersByTime, ∃ y, o.toOrder = .ok y := by
    intro o ho
    rcases h o (List.mem_mergeSort.1 ho) with ⟨t, ht⟩
    exact ⟨o.toOrderAt t, by rw [StoredOrder.toOrder, ht]⟩
  rcases mapM_ok_of_forall hrows with ⟨orders, horders⟩
  exact ⟨orders, by simpa [listOrders, Tables.listOrders, hclosed] using horders⟩

/-- What is listed is lasting, too: the orders are sorted by their times, which do not change. -/
theorem Events.listOrders_becomes {s t : DurableStore} (h : s.Events t) {old new : List (Order Int)}
    (hold : s.listOrders none = .ok old) (hnew : t.listOrders none = .ok new) :
    Lasting Order.Becomes old new := by
  have hsorted := h.becomes.sorted (fun o => o.createdAt.rank) fun o x hx => by
    rcases hx with ⟨status, -, rfl⟩
    rfl
  exact hsorted.read (listOrders_ok hold) (listOrders_ok hnew) fun _ _ _ _ => toOrder_becomes

end DurableStore

/-! ## Both stores -/

/-- In both stores, whatever happens, orders stay in their sequence and become at most filled or cancelled,
once and for all. A batch cancels exactly the open orders that it names, and adds exactly its new orders at
the end, in their sequence and with the time of the batch. -/
theorem orders_last_and_batches_apply_exactly :
    (∀ {s t : MemoryStore}, s.Events t →
      Lasting Order.Becomes s.orders t.orders ∧
        (t.Apart → ∀ b now, t.AppliesExactly b now)) ∧
    (∀ {s t : DurableStore}, s.Events t →
      Lasting StoredOrder.Becomes s.tables.orders t.tables.orders ∧
        (∀ {old new}, s.listOrders none = .ok old → t.listOrders none = .ok new →
          Lasting Order.Becomes old new) ∧
        ∀ b now, (t.apply b now).1 = .ok () → t.AppliesExactly b now) :=
  ⟨fun h => ⟨h.becomes, fun apart b now => MemoryStore.appliesExactly apart b now⟩,
    fun h => ⟨h.becomes, fun hold hnew => h.listOrders_becomes hold hnew,
      fun _ _ happly => DurableStore.appliesExactly happly⟩⟩

/-- A store in memory with two open orders. -/
def MemoryStore.twoResting : MemoryStore where
  orders :=
    [{ id := "o1", instrumentId := "s1", botId := "b1", side := .buy, limitPrice := .int 10,
       quantity := .int 2, createdAt := 1 },
     { id := "o2", instrumentId := "s1", botId := "b1", side := .sell, limitPrice := .int 12,
       quantity := .int 1, createdAt := 2 }]

/-- A batch that names an open order twice, and one that is not there. -/
def Batch.repeating : Batch Value where
  cancelIds := ["o1", "o9", "o1"]
  newOrders := [{ instrumentId := "s1", botId := "b1", side := .buy, limitPrice := .int 9, quantity := 3 }]

theorem orders_last_and_batches_apply_exactly_renewal :
    let filled := MemoryStore.twoResting.fill "o2"
    let renewed := (DurableStore.oneOrder.apply ⟨["order-1"], []⟩ 1704067200).2
    Lasting Order.Becomes MemoryStore.twoResting.orders (filled.apply .repeating 3).2.orders ∧
      (filled.apply .repeating 3).2.AppliesExactly ⟨["o2", "sim-1"], []⟩ 4 ∧
      Lasting StoredOrder.Becomes DurableStore.oneOrder.tables.orders renewed.tables.orders ∧
      (∃ old new, DurableStore.oneOrder.listOrders none = .ok old ∧
        renewed.listOrders none = .ok new ∧ Lasting Order.Becomes old new) ∧
      renewed.AppliesExactly ⟨["order-1"], []⟩ 1704067201 := by
  intro filled renewed
  have hmemory : MemoryStore.twoResting.Events (filled.apply .repeating 3).2 :=
    (Relation.ReflTransGen.single (.fill "o2")).tail (.apply .repeating 3)
  have hdurable : DurableStore.oneOrder.Events renewed :=
    .single (.apply ⟨["order-1"], []⟩ 1704067200 rfl)
  have hkept := orders_last_and_batches_apply_exactly.1 hmemory
  have hstored := orders_last_and_batches_apply_exactly.2 hdurable
  have htime : fault? (Seconds.rowTime 1704067200) = none := by decide +kernel
  rcases DurableStore.exists_listOrders (s := DurableStore.oneOrder) rfl
    (fun o ho => by rw [List.mem_singleton.1 ho]; exact fault?_eq_none.1 htime) with ⟨old, hold⟩
  rcases DurableStore.exists_listOrders (s := renewed) rfl
    (fun o ho => by rw [List.mem_singleton.1 ho]; exact fault?_eq_none.1 htime) with ⟨new, hnew⟩
  have hapart : (filled.apply .repeating 3).2.Apart := by
    unfold MemoryStore.Apart
    decide
  exact ⟨hkept.1, hkept.2 hapart _ 4, hstored.1,
    ⟨old, new, hold, hnew, hstored.2.1 hold hnew⟩, hstored.2.2 _ 1704067201 rfl⟩

end RuleTrader
