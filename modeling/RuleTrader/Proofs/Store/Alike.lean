import Mathlib.Logic.Equiv.Basic
import RuleTrader.Proofs.Store.Reach

/-!
# Stores that are alike to a party

Two stores are alike to a party when its share of one is its share of the other, but for the names of
orders. What is done for the party keeps them alike if it is done to both: seeds, fills, and sending a
batch that reaches only bots of the party. What is done to the orders of others, or sent for others,
changes nothing in the share.

The names that a store gives out depend on everybody's orders, so one order gets different names in the
two stores. The renaming is then changed in this one place (`Party.Alike.add`), and the orders that were
there before keep the names that they have under it.
-/

namespace RuleTrader

namespace Party

/-! ## Likeness -/

/-- What a party has in one store is what it has in the other, with the orders renamed. -/
def Alike (p : Party) (ρ : Equiv.Perm String) (s t : MemoryStore) : Prop :=
  (p.share s).rename ρ = p.share t

/-- A renaming moves only names that a store gives out. -/
def OnlyGiven (ρ : Equiv.Perm String) : Prop :=
  ∀ id, ρ id ≠ id → ∃ n, id = MemoryStore.orderName n

/-- Two names that one order may get: one and the same, or names that a store gives out. -/
def Renamed (id id' : String) : Prop :=
  id = id' ∨ (∃ n, id = MemoryStore.orderName n) ∧ ∃ n, id' = MemoryStore.orderName n

/-- The names of the orders of a party. -/
def orderIds (p : Party) (s : MemoryStore) : List String := (p.share s).orders.map (·.id)

variable {p : Party} {s t s' t' : MemoryStore} {ρ ρ' ρ'' : Equiv.Perm String}

theorem mem_orderIds {id : String} :
    id ∈ p.orderIds s ↔ ∃ o ∈ s.orders, o.id = id ∧ p.hasBot o.botId = true := by
  simp only [orderIds, share, List.mem_map, List.mem_filter]
  constructor
  · rintro ⟨o, ⟨ho, hmine⟩, hname⟩
    exact ⟨o, ho, hname, hmine⟩
  · rintro ⟨o, ho, hname, hmine⟩
    exact ⟨o, ⟨ho, hmine⟩, hname⟩

theorem orderIds_grows (h : s.Grows t) {id : String} (hid : id ∈ p.orderIds s) : id ∈ p.orderIds t := by
  rcases mem_orderIds.1 hid with ⟨o, ho, rfl, hmine⟩
  rcases h.mem_order ho with ⟨x, hx, hname, hbot⟩
  exact mem_orderIds.2 ⟨x, hx, hname, hbot ▸ hmine⟩

/-- A renaming that does to the orders of a party what another one does. -/
def Extends (p : Party) (s : MemoryStore) (ρ ρ' : Equiv.Perm String) : Prop :=
  ∀ id ∈ p.orderIds s, ρ' id = ρ id

theorem Extends.trans (hgrows : s.Grows t) (h : p.Extends s ρ ρ') (h' : p.Extends t ρ' ρ'') :
    p.Extends s ρ ρ'' := by
  intro id hid
  exact (h' id (orderIds_grows hgrows hid)).trans (h id hid)

/-- Two stores are alike under a renaming that goes on from an earlier one. -/
def StaysAlike (p : Party) (ρ : Equiv.Perm String) (s s' t' : MemoryStore) : Prop :=
  ∃ ρ', OnlyGiven ρ' ∧ p.Extends s ρ ρ' ∧ p.Alike ρ' s' t'

namespace Alike

theorem eq (h : p.Alike ρ s t) : (p.share s).rename ρ = p.share t := h

protected theorem refl (p : Party) (s : MemoryStore) : p.Alike (Equiv.refl String) s s := by
  have hid : (fun o : Order Value => o.rename (Equiv.refl String)) = id := rfl
  simp only [Alike, MemoryStore.rename, hid, List.map_id]

/-- Other orders keep two stores alike if the party has the same among them. -/
theorem replace (h : p.Alike ρ s t) {orders orders' : List (Order Value)} (named named' : Nat)
    (horders : (orders.filter fun o => p.hasBot o.botId).map (·.rename ρ') =
      orders'.filter fun o => p.hasBot o.botId) :
    p.Alike ρ' { s with orders, named } { t with orders := orders', named := named' } := by
  simp only [Alike, share, MemoryStore.rename, MemoryStore.mk.injEq] at h ⊢
  exact ⟨h.1, h.2.1, horders, h.2.2.2⟩

theorem orders_eq (h : p.Alike ρ s t) :
    (s.orders.filter fun o => p.hasBot o.botId).map (·.rename ρ) =
      t.orders.filter fun o => p.hasBot o.botId := by
  simp only [Alike, share, MemoryStore.rename, MemoryStore.mk.injEq] at h
  exact h.2.2.1

theorem applyFailure?_eq (h : p.Alike ρ s t) : t.applyFailure? = s.applyFailure? := by
  have hshare : (p.share t).applyFailure? = t.applyFailure? := rfl
  rw [← hshare, ← h.eq]
  rfl

theorem fetchFailure?_eq (h : p.Alike ρ s t) : t.fetchFailure? = s.fetchFailure? := by
  have hshare : (p.share t).fetchFailure? = t.fetchFailure? := rfl
  rw [← hshare, ← h.eq]
  rfl

/-- An order of the party is in the other store, under its other name. -/
theorem renamed_mem (h : p.Alike ρ s t) {o : Order Value} (ho : o ∈ s.orders)
    (hmine : p.hasBot o.botId = true) :
    ∃ x ∈ t.orders, x.id = ρ o.id ∧ p.hasBot x.botId = true := by
  have hrenamed : o.rename ρ ∈ t.orders.filter fun o => p.hasBot o.botId := by
    rw [← h.orders_eq]
    exact List.mem_map_of_mem (List.mem_filter.2 ⟨ho, hmine⟩)
  exact ⟨o.rename ρ, (List.mem_filter.1 hrenamed).1, rfl, hmine⟩

/-- Two renamings that agree on the orders of the party make no difference. -/
theorem congr (hext : p.Extends s ρ ρ') :
    (s.orders.filter fun o => p.hasBot o.botId).map (·.rename ρ') =
      (s.orders.filter fun o => p.hasBot o.botId).map (·.rename ρ) := by
  refine List.map_congr_left fun o ho => ?_
  have hid : ρ' o.id = ρ o.id := hext o.id (List.mem_map_of_mem ho)
  simp only [Order.rename, hid]

/-! ## Adding an order -/

/-- The renaming that takes one more name to another one. -/
def retarget (ρ : Equiv.Perm String) (id id' : String) : Equiv.Perm String :=
  ρ.trans (Equiv.swap (ρ id) id')

theorem retarget_self (ρ : Equiv.Perm String) (id id' : String) : retarget ρ id id' id = id' := by
  simp [retarget]

theorem retarget_of_ne {id id' x : String} (hne : x ≠ id) (hne' : ρ x ≠ id') :
    retarget ρ id id' x = ρ x := by
  simp only [retarget, Equiv.trans_apply]
  exact Equiv.swap_apply_of_ne_of_ne (fun heq => hne (ρ.injective heq)) hne'

theorem onlyGiven_retarget (h : OnlyGiven ρ) {id id' : String} (hnames : Renamed id id') :
    OnlyGiven (retarget ρ id id') := by
  intro x hx
  by_cases hfixed : ρ x = x
  · -- Then it is the exchange that moves the name, so the two names differ.
    by_cases hid : x = id
    · rcases hnames with heq | hgiven
      · subst hid heq
        exact absurd (retarget_self ρ x x) hx
      · exact hid ▸ hgiven.1
    · by_cases hid' : x = id'
      · rcases hnames with heq | hgiven
        · exact absurd (hid'.trans heq.symm) hid
        · exact hid' ▸ hgiven.2
      · have hsame : retarget ρ id id' x = ρ x := retarget_of_ne hid (hfixed.symm ▸ hid')
        exact absurd (hsame.trans hfixed) hx
  · exact h x hfixed

/-- An order of the party that both stores get keeps them alike, whatever its names there are. -/
theorem add (h : p.Alike ρ s t) (hgiven : OnlyGiven ρ) (o : Order Value) {id' : String}
    (hmine : p.hasBot o.botId = true) (hnames : Renamed o.id id') {named named' : Nat}
    (hs : ({ s with orders := s.orders ++ [o], named } : MemoryStore).Apart)
    (ht : ({ t with orders := t.orders ++ [{ o with id := id' }], named := named' } :
      MemoryStore).Apart) :
    p.StaysAlike ρ s { s with orders := s.orders ++ [o], named }
      { t with orders := t.orders ++ [{ o with id := id' }], named := named' } := by
  -- Where the names are apart in the end, the new order has none that is there already.
  have hnew {orders : List (Order Value)} {x : Order Value}
      (hapart : ((orders ++ [x]).map (·.id)).Nodup) {y : Order Value} (hy : y ∈ orders) : y.id ≠ x.id := by
    rw [List.map_append, List.nodup_append] at hapart
    exact hapart.2.2 _ (List.mem_map_of_mem hy) _ (by simp)
  have hext : p.Extends s ρ (retarget ρ o.id id') := by
    intro id hid
    rcases mem_orderIds.1 hid with ⟨x, hx, rfl, hxmine⟩
    -- The order has a name of its own in the other store, and the new one is not called that.
    rcases h.renamed_mem hx hxmine with ⟨y, hy, hname, -⟩
    exact retarget_of_ne (hnew hs hx) (hname ▸ hnew ht hy)
  refine ⟨retarget ρ o.id id', onlyGiven_retarget hgiven hnames, hext, h.replace _ _ ?_⟩
  have hlast : o.rename (retarget ρ o.id id') = { o with id := id' } := by
    simp only [Order.rename, retarget_self]
  simp only [List.filter_append, List.map_append, congr hext, h.orders_eq, List.filter_cons, hmine,
    if_true, List.filter_nil, List.map_cons, List.map_nil, hlast]

theorem stays (h : p.Alike ρ s' t') (hgiven : OnlyGiven ρ) : p.StaysAlike ρ s s' t' :=
  ⟨ρ, hgiven, fun _ _ => rfl, h⟩

/-! ## What is done for the party -/

/-- A seed for the party, put in both stores. -/
theorem plant (h : p.Alike ρ s t) (hgiven : OnlyGiven ρ) {x : Seed} (hx : x.For p)
    (hs : (x.plant s).Apart) (ht : (x.plant t).Apart) :
    p.StaysAlike ρ s (x.plant s) (x.plant t) := by
  cases hplain : x.isOrder with
  | false =>
      refine stays ?_ hgiven
      by_cases hbeside : x.Beside p
      -- A rule set that the party does not use.
      · unfold Alike
        rw [Seed.share_plant_beside hbeside, Seed.share_plant_beside hbeside, h.eq]
      · calc
          (p.share (x.plant s)).rename ρ = (x.plant (p.share s)).rename ρ := by
            rw [Seed.share_plant_for hx hbeside hplain]
          _ = x.plant ((p.share s).rename ρ) := (Seed.plant_rename ρ hplain).symm
          _ = x.plant (p.share t) := by rw [h.eq]
          _ = p.share (x.plant t) := (Seed.share_plant_for hx hbeside hplain).symm
  | true =>
      cases x with
      | order e now =>
          rcases s.addOrder_store e now with ⟨named, hstore⟩
          rcases t.addOrder_store e now with ⟨named', hstore'⟩
          have hnames : Renamed (s.entryName e).1 (t.entryName e).1 := by
            rcases MemoryStore.entryName_cases e with ⟨id, hid⟩ | hnext
            · exact Or.inl ((hid s).trans (hid t).symm)
            · exact Or.inr ⟨⟨_, hnext s⟩, ⟨_, hnext t⟩⟩
          -- The entry becomes one order, which is called differently in the two stores.
          have hsame := MemoryStore.entryOrder?_rename (fun _ => (t.entryName e).1) e now
            (s.entryName e).1
          rw [Seed.plant, hstore] at hs ⊢
          rw [Seed.plant, hstore'] at ht ⊢
          rw [← hsame] at ht ⊢
          cases ho : MemoryStore.entryOrder? e now (s.entryName e).1 with
          | none =>
              refine stays (h.replace _ _ ?_) hgiven
              simpa using h.orders_eq
          | some o =>
              rw [ho] at hs ht
              have hnamed := MemoryStore.entryOrder?_some ho
              have hmine : p.hasBot o.botId = true := hnamed.2 ▸ hx
              exact h.add hgiven o hmine (hnamed.1 ▸ hnames) hs ht
      | _ => cases hplain

/-- A tick for the owner decides the same on both stores, with the marks renamed. -/
theorem decide (h : p.Alike ρ s t) (hs : p.Divides s) (ht : p.Divides t) {setup : TickSetup}
    (hsetup : setup.ownerId? = some p.owner) (clock : Except NumberFault Micros)
    (m : TickMemory Value) :
    Tick.decide setup clock t.snapshot m = (Tick.decide setup clock s.snapshot m).rename ρ := by
  have hscope : Tick.scope setup t.snapshot = (Tick.scope setup s.snapshot).rename ρ := by
    calc
      Tick.scope setup t.snapshot
          = Tick.scope setup ((p.share s).rename ρ).snapshot := by rw [h.eq, ht.scope_share hsetup]
      _ = (Tick.scope setup (p.share s).snapshot).rename ρ := by
        rw [MemoryStore.snapshot_rename, Tick.scope_rename]
      _ = (Tick.scope setup s.snapshot).rename ρ := by rw [hs.scope_share hsetup]
  -- Both ticks see the same up to names, and names do not count in a decision.
  unfold Tick.decide
  rw [hscope]
  exact Tick.decideScoped_rename ρ.injective setup clock _ m

/-- The party's `k`-th order, filled in both stores. -/
theorem fillNth (h : p.Alike ρ s t) (hs : s.Apart) (ht : t.Apart) (k : Nat) :
    p.Alike ρ (s.fillNth p.hasBot k) (t.fillNth p.hasBot k) := by
  unfold MemoryStore.fillNth
  rw [← h.orders_eq, List.getElem?_map]
  cases ho : (s.orders.filter fun o => p.hasBot o.botId)[k]? with
  | none => exact h
  | some o =>
      -- In either store the order is the only one of its name, so filling it reaches nothing else.
      have hmem := List.mem_filter.1 (List.mem_of_getElem? ho)
      have hnamed := hs.names ⟨o, hmem.1, rfl, hmem.2⟩
      have hnamed' := ht.names (h.renamed_mem hmem.1 hmem.2)
      refine h.replace s.named t.named ?_
      rw [MemoryStore.filter_closeOrder .filled hnamed]
      calc
        (MemoryStore.closeOrder o.id .filled (s.orders.filter fun o => p.hasBot o.botId)).map
              (·.rename ρ)
            = MemoryStore.closeOrder (ρ o.id) .filled
                ((s.orders.filter fun o => p.hasBot o.botId).map (·.rename ρ)) :=
          (MemoryStore.closeOrder_rename ρ.injective _ _ _).symm
        _ = MemoryStore.closeOrder (ρ o.id) .filled (t.orders.filter fun o => p.hasBot o.botId) := by
          rw [h.orders_eq]
        _ = (MemoryStore.closeOrder (ρ o.id) .filled t.orders).filter fun o => p.hasBot o.botId :=
          (MemoryStore.filter_closeOrder .filled hnamed').symm

theorem cancelled (h : p.Alike ρ s t) (hs : s.Apart) (ht : t.Apart) {ids : List String}
    (hids : ∀ id ∈ ids, ∃ o ∈ s.orders, o.id = id ∧ p.hasBot o.botId = true) :
    p.Alike ρ { s with orders := MemoryStore.cancelled ids s.orders }
      { t with orders := MemoryStore.cancelled (ids.map ρ) t.orders } := by
  have hnamed : ∀ id ∈ ids, MemoryStore.Names p.hasBot id s.orders := fun id hid =>
    hs.names (hids id hid)
  have hnamed' : ∀ id ∈ ids.map ρ, MemoryStore.Names p.hasBot id t.orders := by
    intro id hid
    rcases List.mem_map.1 hid with ⟨x, hx, rfl⟩
    rcases hids x hx with ⟨o, ho, rfl, hmine⟩
    exact ht.names (h.renamed_mem ho hmine)
  refine h.replace s.named t.named ?_
  rw [MemoryStore.filter_cancelled hnamed, MemoryStore.filter_cancelled hnamed', ← h.orders_eq,
    MemoryStore.cancelled_rename ρ.injective]

/-- New orders for the party, inserted into both stores. -/
theorem inserts (h : p.Alike ρ s t) (hgiven : OnlyGiven ρ) {os : List (NewOrder Value)}
    (hmine : ∀ o ∈ os, p.hasBot o.botId = true) {now : Micros}
    (hs : (os.foldl (MemoryStore.insert now) s).Apart)
    (ht : (os.foldl (MemoryStore.insert now) t).Apart) :
    p.StaysAlike ρ s (os.foldl (MemoryStore.insert now) s) (os.foldl (MemoryStore.insert now) t) := by
  induction os generalizing s t ρ with
  | nil => exact h.stays hgiven
  | cons o os ih =>
      -- Both stores give the order their next name.
      have hgrows : s.Grows (s.insert now o) := MemoryStore.grows_append _ _
      have hfirst : p.StaysAlike ρ s (s.insert now o) (t.insert now o) :=
        h.add hgiven (MemoryStore.storedOrder (MemoryStore.orderName (s.named + 1)) now o)
          (hmine o (List.mem_cons_self ..)) (Or.inr ⟨⟨_, rfl⟩, ⟨_, rfl⟩⟩)
          ((MemoryStore.grows_inserts now os _).apart hs) ((MemoryStore.grows_inserts now os _).apart ht)
      rcases hfirst with ⟨ρ', hgiven', hext, halike⟩
      rcases ih halike hgiven' (fun x hx => hmine x (List.mem_cons_of_mem _ hx)) hs ht with
        ⟨ρ'', hgiven'', hext', halike'⟩
      exact ⟨ρ'', hgiven'', hext.trans hgrows hext', halike'⟩

/-- A batch that reaches only bots of the party, applied to both stores. -/
theorem midway (h : p.Alike ρ s t) (hgiven : OnlyGiven ρ) {b : Batch Value}
    (hwithin : b.Within p.hasBot s) {now : Micros}
    (hs : (s.midway b.cancelIds b.newOrders now).Apart)
    (ht : (t.midway (b.cancelIds.map ρ) b.newOrders now).Apart) :
    p.StaysAlike ρ s (s.midway b.cancelIds b.newOrders now)
      (t.midway (b.cancelIds.map ρ) b.newOrders now) := by
  have hids : ∀ id ∈ b.cancelIds, ∃ o ∈ s.orders, o.id = id ∧ p.hasBot o.botId = true := by
    intro id hid
    rcases hwithin.cancels id hid with ⟨o, ho, hname, hmine, -⟩
    exact ⟨o, ho, hname, hmine⟩
  -- Cancelling keeps the renaming, and inserting goes on from it.
  have hcancelled :=
    h.cancelled ((s.grows_midway _ _ now).apart hs) ((t.grows_midway _ _ now).apart ht) hids
  have hgrows : s.Grows { s with orders := MemoryStore.cancelled b.cancelIds s.orders } :=
    .of_eq (MemoryStore.cancelled_tags b.cancelIds s.orders) rfl
  rcases hcancelled.inserts hgiven (fun o ho => (hwithin.inserts o ho).1) hs ht with
    ⟨ρ', hgiven', hext, halike⟩
  exact ⟨ρ', hgiven', fun id hid => hext id (orderIds_grows hgrows hid), halike⟩

/-- What a tick for the party sends, sent to both stores: it is taken or refused by both. -/
theorem send (h : p.Alike ρ s t) (hgiven : OnlyGiven ρ) {d : TickDecision Value}
    (hwithin : d.batch.Within p.hasBot s) (now : Micros) (setup : TickSetup)
    (hs : (Tick.send (MemoryStore.access now) setup d s).2.1.Apart)
    (ht : (Tick.send (MemoryStore.access now) setup (d.rename ρ) t).2.1.Apart) :
    (Tick.send (MemoryStore.access now) setup (d.rename ρ) t).1 =
        (Tick.send (MemoryStore.access now) setup d s).1.map (·.rename ρ) ∧
      p.StaysAlike ρ s (Tick.send (MemoryStore.access now) setup d s).2.1
        (Tick.send (MemoryStore.access now) setup (d.rename ρ) t).2.1 := by
  rw [MemoryStore.send_eq] at hs ht
  rw [MemoryStore.send_eq, MemoryStore.send_eq]
  -- Whether there is something to send, and whether it is refused, is the same for both.
  rw [MemoryStore.hasBatch_rename, h.applyFailure?_eq] at ht ⊢
  cases hsends : d.hasBatch with
  | false => exact ⟨rfl, h.stays hgiven⟩
  | true =>
      cases hfailure : s.applyFailure? with
      | some reason => exact ⟨rfl, h.stays hgiven⟩
      | none =>
          simp only [hsends, hfailure, if_true] at hs ht
          exact ⟨rfl, h.midway hgiven hwithin hs ht⟩

end Alike

/-! ## What is done for others -/

theorem share_fetch : p.share s.fetch.2 = p.share s := by
  rw [MemoryStore.fetch_snd]
  rfl

theorem share_fillNth (hs : s.Apart) (k : Nat) :
    p.share (s.fillNth (fun botId => !p.hasBot botId) k) = p.share s := by
  unfold MemoryStore.fillNth
  cases ho : (s.orders.filter fun o => !p.hasBot o.botId)[k]? with
  | none => rfl
  | some o =>
      have hmem := List.mem_filter.1 (List.mem_of_getElem? ho)
      have hnamed := hs.names (q := fun botId => !p.hasBot botId) ⟨o, hmem.1, rfl, hmem.2⟩
      simp only [share, MemoryStore.fill, MemoryStore.filter_closeOrder_of_not .filled hnamed]

theorem share_inserts {os : List (NewOrder Value)} (hothers : ∀ o ∈ os, p.hasBot o.botId = false)
    (now : Micros) (s : MemoryStore) :
    p.share (os.foldl (MemoryStore.insert now) s) = p.share s := by
  induction os generalizing s with
  | nil => rfl
  | cons o os ih =>
      have hfirst : p.share (s.insert now o) = p.share s := by
        have hother : p.hasBot o.botId = false := hothers o (List.mem_cons_self ..)
        simp [share, MemoryStore.insert, MemoryStore.nameOrder, MemoryStore.storedOrder, hother]
      exact (ih (fun x hx => hothers x (List.mem_cons_of_mem _ hx)) _).trans hfirst

/-- What is sent for others does not reach the share of the party. -/
theorem share_send {d : TickDecision Value} (hs : s.Apart)
    (hwithin : d.batch.Within (fun botId => !p.hasBot botId) s) (now : Micros) (setup : TickSetup) :
    p.share (Tick.send (MemoryStore.access now) setup d s).2.1 = p.share s := by
  rcases Desk.send_cases now setup d s with hsame | ⟨hfailure, happly⟩
  · rw [hsame]
  -- What is cancelled is of others alone, and so is what is inserted.
  · have hnamed : ∀ id ∈ d.batch.cancelIds,
        MemoryStore.Names (fun botId => !p.hasBot botId) id s.orders := by
      intro id hid
      rcases hwithin.cancels id hid with ⟨o, ho, hname, hother, -⟩
      exact hs.names ⟨o, ho, hname, hother⟩
    have hothers : ∀ o ∈ d.batch.newOrders, p.hasBot o.botId = false := by
      intro o ho
      simpa using (hwithin.inserts o ho).1
    rw [happly, MemoryStore.apply_ok hfailure]
    calc
      p.share (s.midway d.batch.cancelIds d.batch.newOrders now)
          = p.share { s with orders := MemoryStore.cancelled d.batch.cancelIds s.orders } :=
        share_inserts hothers now _
      _ = p.share s := by simp only [share, MemoryStore.filter_cancelled_of_not hnamed]

end Party

end RuleTrader
