import RuleTrader.Proofs.Store.LastWrites

/-!
# Closed snapshots

A snapshot is closed if all its bots are driven by rules and every order and position in it is of one of
these (`Snapshot.Closed`). Both stores list the traders that are driven by rules, and no others. The durable
store asks the same of the trader of every order and position, so that its snapshots are closed, whatever
was done to it. The store in memory only asks whether the trader is known: its snapshot is closed if and
only if nobody else has an open order or a position (`MemoryStore.OnlyDrivenTrade`).

What both rest on is that traders stand under their own names, which no call ever changes.
-/

namespace RuleTrader

/-! ## Traders by name -/

/-- Whether a name is that of a known trader who is driven by rules. -/
def Automated {α : Type} (traders : Table String (Bot α)) (id : String) : Prop :=
  (traders.get? id).any (·.automated) = true

namespace Snapshot

variable {α : Type}

/-- A snapshot of a store with some traders that is closed: its bots are driven by rules, what it shows
is of one of them, and nothing is of a trader who is not driven by rules. -/
structure Closed (traders : List (Bot α)) (shown : Snapshot α) : Prop where
  automated : ∀ b ∈ shown.bots, b.automated = true
  orders : ∀ o ∈ shown.orders, ∃ b ∈ shown.bots, b.id = o.botId
  positions : ∀ p ∈ shown.positions, ∃ b ∈ shown.bots, b.id = p.botId
  hidden : ∀ b ∈ traders, b.automated = false →
    (∀ o ∈ shown.orders, o.botId ≠ b.id) ∧ ∀ p ∈ shown.positions, p.botId ≠ b.id

end Snapshot

section Traders

variable {α : Type} {traders : Table String (Bot α)} {shown : Snapshot α} {id : String}

theorem automated_iff (filed : traders.Filed (·.id)) :
    Automated traders id ↔ ∃ b ∈ traders.values.filter (·.automated), b.id = id := by
  constructor
  · intro h
    cases hget : traders.get? id with
    | none => simp [Automated, hget] at h
    | some b =>
        have hmem := Table.mem_of_get? hget
        have automated : b.automated = true := by simpa [Automated, hget] using h
        have hvalue : b ∈ traders.values := List.mem_map.2 ⟨_, hmem, rfl⟩
        exact ⟨b, List.mem_filter.2 ⟨hvalue, automated⟩, filed.named _ hmem⟩
  · rintro ⟨b, hb, rfl⟩
    rcases List.mem_filter.1 hb with ⟨hvalue, automated⟩
    rcases List.mem_map.1 hvalue with ⟨e, he, rfl⟩
    rw [Automated, filed.named e he, Table.get?_of_mem filed.nodup he]
    exact automated

/-- Traders of one name are one trader, so a trader who is not driven by rules has no driven name. -/
theorem not_automated (filed : traders.Filed (·.id)) {b : Bot α} (hb : b ∈ traders.values)
    (manual : b.automated = false) : ¬ Automated traders b.id := by
  rcases List.mem_map.1 hb with ⟨e, he, rfl⟩
  rw [Automated, filed.named e he, Table.get?_of_mem filed.nodup he]
  simp [manual]

/-- A snapshot of the driven traders is closed if and only if what it shows is of driven traders. -/
theorem closed_iff (filed : traders.Filed (·.id))
    (hbots : shown.bots = traders.values.filter (·.automated)) :
    shown.Closed traders.values ↔
      (∀ o ∈ shown.orders, Automated traders o.botId) ∧ ∀ p ∈ shown.positions, Automated traders p.botId := by
  simp only [automated_iff filed]
  rw [← hbots]
  refine ⟨fun h => ⟨h.orders, h.positions⟩, fun ⟨horders, hpositions⟩ => ?_⟩
  -- A name that is shown is that of a driven trader, and a trader who is not driven has another one.
  have hother {b : Bot α} (hb : b ∈ traders.values) (manual : b.automated = false) {botId : String}
      (hshown : ∃ x ∈ shown.bots, x.id = botId) : botId ≠ b.id := by
    rintro rfl
    exact not_automated filed hb manual ((automated_iff filed).2 (hbots ▸ hshown))
  refine ⟨fun b hb => ?_, horders, hpositions, fun b hb manual => ⟨fun o ho => ?_, fun p hp => ?_⟩⟩
  · rw [hbots] at hb
    exact (List.mem_filter.1 hb).2
  · exact hother hb manual (horders o ho)
  · exact hother hb manual (hpositions p hp)

end Traders

/-! ## The durable store -/

theorem botId_of_toOrder {row : StoredOrder} {o : Order Int} (h : row.toOrder = .ok o) :
    o.botId = row.terms.botId := by
  unfold StoredOrder.toOrder at h
  split at h
  · cases h
    rfl
  · cases h

/-- A snapshot of tables whose traders stand under their own names is closed. -/
theorem Tables.closed_snapshot {t : Tables} (filed : t.traders.Filed (·.id)) {now : Seconds}
    {shown : Snapshot Int} (h : t.snapshot now = .ok shown) : shown.Closed t.traders.values := by
  rcases DurableStore.snapshot_ok h with ⟨horders, -, hbots, -, hpositions, -⟩
  refine (closed_iff filed hbots).2 ⟨fun o ho => ?_, fun p hp => ?_⟩
  · rcases mem_of_mapM horders ho with ⟨row, hrow, hread⟩
    rw [botId_of_toOrder hread]
    exact (Bool.and_eq_true_iff.1 (List.mem_filter.1 hrow).2).2
  · rw [hpositions] at hp
    rcases List.mem_map.1 hp with ⟨e, he, rfl⟩
    exact (List.mem_filter.1 he).2

namespace DurableStore

/-- The traders of a store stand under their own names, in what is kept and in what is pending. -/
structure Filed (s : DurableStore) : Prop where
  committed : s.committed.traders.Filed (·.id)
  pending : ∀ t, s.pending? = some t → t.traders.Filed (·.id)

namespace Filed

variable {s : DurableStore}

theorem tables (h : s.Filed) : s.tables.traders.Filed (·.id) := by
  rw [DurableStore.tables]
  cases hpending : s.pending? with
  | none => exact h.committed
  | some t => exact h.pending t hpending

/-- After a store has committed some tables, or has left some open, these are what counts. -/
theorem commit {t : Tables} (ht : t.traders.Filed (·.id)) (named : Nat) :
    ({ s with committed := t, pending? := none, named } : DurableStore).Filed :=
  ⟨ht, nofun⟩

theorem leaveOpen (h : s.Filed) {t : Tables} (ht : t.traders.Filed (·.id)) (named : Nat) :
    ({ s with pending? := some t, named } : DurableStore).Filed :=
  ⟨h.committed, fun _ hsome => Option.some.inj hsome ▸ ht⟩

theorem drop (h : s.Filed) (named : Nat) : ({ s with pending? := none, named } : DurableStore).Filed :=
  .commit h.committed named

end Filed

/-! ### One request -/

section Request

variable {s : DurableStore}

theorem Request.Does.filed {r : Request} {named : Nat} {t u : Tables} (h : r.Does named t u)
    (ht : t.traders.Filed (·.id)) : u.traders.Filed (·.id) := by
  cases h with
  | @putTrader b n read => exact ht.put { b with balance := n }
  | _ => exact ht

/-- A change of a row: it is accepted, or it leaves what was there. -/
theorem filed_seed (h : s.Filed) {r : Request} (hseed : r.isSeed = true) : (s.answer r).2.Filed := by
  cases Request.seed_cases hseed with
  | refused fault early answers =>
      rw [answers]
      exact h
  | statement f rows answers =>
      have hanswer : (s.answer r).2 = (s.change f).2 := by rw [answers]; rfl
      cases hclosed : s.closed with
      | true => simpa [hanswer, change, hclosed] using h
      | false =>
          cases hf : f s.tables with
          | error fault =>
              -- A refused statement leaves a transaction open, on what the store held before.
              have hafter : (s.change f).2 = { s with pending? := some s.tables } := by
                simp [change, hclosed, hf]
              rw [hanswer, hafter]
              exact h.leaveOpen h.tables s.named
          | ok t =>
              have haccepted : (s.answer r).1.Accepted := by
                rw [answers]
                simp [change, hclosed, hf, Answer.Accepted]
              rcases answer_accepted haccepted with ⟨u, hdoes, hafter⟩
              rw [hafter]
              exact .commit (hdoes.filed h.tables) _

theorem insertAll_traders (now : Seconds) (named : Nat) (t : Tables) (os : List (NewOrder Int)) :
    (insertAll now named t os).2.traders = t.traders := by
  induction os generalizing named t with
  | nil => rfl
  | cons o os ih =>
      -- An order that is refused ends the insertion; one that is not adds a row of orders only.
      rw [insertAll]
      cases hinsert : t.insertOrder ⟨orderName (named + 1), o, now⟩ with
      | error fault => rfl
      | ok u =>
          rcases bind_ok hinsert with ⟨-, -, h⟩
          rcases bind_ok h with ⟨-, -, h⟩
          rcases bind_ok h with ⟨-, -, h⟩
          cases h
          exact ih _ _

theorem filed_openBatch (h : s.Filed) (cancelIds : List String) : (s.openBatch cancelIds).2.Filed := by
  unfold openBatch
  split
  · exact h
  · cases s.pending? with
    | some t => exact h.drop s.named
    | none => exact h.leaveOpen (t := s.committed.cancel cancelIds) h.committed s.named

theorem filed_finishBatch (h : s.Filed) (orders : List (NewOrder Int)) (now : Seconds) :
    (s.finishBatch orders now).2.Filed := by
  have htraders := insertAll_traders now s.named s.tables orders
  unfold finishBatch
  rcases hinsert : insertAll now s.named s.tables orders with ⟨fault | ⟨⟩, t⟩
  · have ht : t.traders.Filed (·.id) := by
      rw [hinsert] at htraders
      exact htraders ▸ h.tables
    -- Only a refusal by the database drops what was done so far.
    cases fault with
    | database fault => exact h.drop _
    | _ => exact h.leaveOpen ht _
  · rw [hinsert] at htraders
    exact .commit (htraders ▸ h.tables) _

theorem filed_apply (h : s.Filed) (b : Batch Int) (now : Seconds) : (s.apply b now).2.Filed := by
  have hopen := filed_openBatch h b.cancelIds
  unfold DurableStore.apply
  rcases hbatch : s.openBatch b.cancelIds with ⟨fault | ⟨⟩, u⟩
  · rw [hbatch] at hopen
    exact hopen
  · rw [hbatch] at hopen
    exact filed_finishBatch hopen b.newOrders now

theorem filed_applyDrafts (h : s.Filed) (cancelIds : List String) (drafts : List OrderDraft)
    (now : Seconds) : (s.applyDrafts cancelIds drafts now).2.Filed := by
  have hopen := filed_openBatch h cancelIds
  unfold applyDrafts
  rcases hbatch : s.openBatch cancelIds with ⟨fault | ⟨⟩, u⟩
  · rw [hbatch] at hopen
    exact hopen
  · rw [hbatch] at hopen
    rcases hread : OrderDraft.checkAll drafts with ⟨fault | orders, n⟩
    · exact ⟨hopen.committed, hopen.pending⟩
    · exact filed_finishBatch hopen orders now

theorem filed_answer (h : s.Filed) (r : Request) : (s.answer r).2.Filed := by
  cases r with
  | apply b now => exact filed_apply h b now
  | applyDrafts cancelIds drafts now => exact filed_applyDrafts h cancelIds drafts now
  | listOrders status? => exact h
  | fetch now => exact h
  | close => exact ⟨h.committed, nofun⟩
  | reopen kept =>
      cases kept with
      | true => exact ⟨h.committed, nofun⟩
      | false => exact ⟨⟨List.nodup_nil, nofun⟩, nofun⟩
  | _ => exact filed_seed h rfl

end Request

/-! ### Runs -/

/-- Something that happens to a store: a request, which may be refused, or a fill from outside. A fill may
change orders, positions, trades and balances in any way, but it waits for an open transaction. -/
inductive Happening (s : DurableStore) : DurableStore → Prop where
  | request (r : Request) : Happening s (s.answer r).2
  | fill (idle : s.pending? = none) (balance : Bot Int → Int) (orders : List StoredOrder)
      (positions : Table (String × String) Int) (trades : List Trade) :
      Happening s { s with
        committed := { s.committed with
          traders := s.committed.traders.mapValues fun b => { b with balance := balance b }
          orders, positions, trades } }

/-- Any number of happenings. -/
def Happenings : DurableStore → DurableStore → Prop := Relation.ReflTransGen Happening

theorem Happening.filed {s t : DurableStore} (hstep : s.Happening t) (h : s.Filed) : t.Filed := by
  cases hstep with
  | request r => exact filed_answer h r
  | fill idle balance orders positions trades =>
      refine ⟨⟨?_, ?_⟩, fun t hpending => absurd (idle.symm.trans hpending) nofun⟩
      · rw [Table.keys_mapValues]
        exact h.committed.nodup
      · intro e he
        rcases List.mem_map.1 he with ⟨e', he', rfl⟩
        exact h.committed.named e' he'

theorem Happenings.filed {s : DurableStore} (h : Happenings {} s) : s.Filed := by
  induction h with
  | refl => exact ⟨⟨List.nodup_nil, nofun⟩, nofun⟩
  | tail _ hstep ih => exact hstep.filed ih

theorem closed_of_fetch {s : DurableStore} (h : s.Filed) {now : Seconds} {shown : Snapshot Int}
    (hfetch : s.fetch now = .ok shown) : shown.Closed s.tables.traders.values := by
  cases hclosed : s.closed with
  | true => simp [fetch, hclosed] at hfetch
  | false => exact Tables.closed_snapshot h.tables ((fetch_eq_ok_iff hclosed).1 hfetch)

end DurableStore

/-! ## The store in memory -/

theorem Seed.plant_keyed {s : MemoryStore} (h : s.Keyed) (x : Seed) : (x.plant s).Keyed := by
  cases x with
  | bot b => exact (MemoryStore.Change.bot b).keyed h
  | instrument i => exact (MemoryStore.Change.instrument i).keyed h
  | balance botId amount =>
      rw [plant]
      cases hset : s.setBalance botId amount with
      | error fault => exact h
      | ok t => exact (MemoryStore.Change.balance hset).keyed h
  | price instrumentId amount =>
      rw [plant]
      cases hset : s.setPrice instrumentId amount with
      | error fault => exact h
      | ok t => exact (MemoryStore.Change.price hset).keyed h
  | position botId instrumentId shares =>
      rw [plant]
      cases hset : s.setPosition botId instrumentId shares with
      | error fault => exact h
      | ok t => exact (MemoryStore.Change.position hset).keyed h
  | order e now =>
      rcases s.addOrder_store e now with ⟨named, hstore⟩
      rw [plant, hstore]
      exact ⟨h.bots, h.instruments⟩
  | ruleSet strategyId rules => exact ⟨h.bots, h.instruments⟩
  | aggregate a => exact ⟨h.bots, h.instruments⟩
  | failures fetchFailure? applyFailure? => exact ⟨h.bots, h.instruments⟩

namespace MemoryStore

theorem Event.keyed {s t : MemoryStore} (hevent : s.Event t) (h : s.Keyed) : t.Keyed := by
  cases hevent with
  | seed x => exact x.plant_keyed h
  | fill id => exact ⟨h.bots, h.instruments⟩
  | fetch =>
      rw [fetch_snd]
      exact ⟨h.bots, h.instruments⟩
  | apply b now => exact h.apply b now

theorem Events.keyed {s : MemoryStore} (h : Events {} s) : s.Keyed := by
  induction h with
  | refl => exact ⟨⟨List.nodup_nil, nofun⟩, ⟨List.nodup_nil, nofun⟩⟩
  | tail _ hevent ih => exact hevent.keyed ih

/-- No trader but those who are driven by rules has an open order or a position. -/
def OnlyDrivenTrade (s : MemoryStore) : Prop :=
  ∀ b ∈ s.bots.values, b.automated = false →
    (∀ o ∈ s.orders, o.isOpen = true → o.botId ≠ b.id) ∧ ∀ e ∈ s.positions, e.1.1 ≠ b.id

theorem closed_snapshot_iff {s : MemoryStore} (h : s.Keyed) :
    s.snapshot.Closed s.bots.values ↔ s.OnlyDrivenTrade := by
  constructor
  · -- What a known trader has is in the snapshot, whether or not the trader is driven by rules.
    intro closed b hb manual
    have hidden := closed.hidden b hb manual
    have known : s.bots.has b.id = true := h.bots.has_of_mem hb
    refine ⟨fun o ho hopen hid => ?_, fun e he hid => ?_⟩
    · exact hidden.1 o (List.mem_filter.2 ⟨ho, by simp [hopen, hid, known]⟩) hid
    · have hmem : e ∈ s.positions.filter fun e => s.bots.has e.1.1 :=
        List.mem_filter.2 ⟨he, by simp [hid, known]⟩
      exact hidden.2 _ (List.mem_map_of_mem hmem) hid
  · intro only
    have hautomated {botId : String} (known : s.bots.has botId = true)
        (hother : ∀ b ∈ s.bots.values, b.automated = false → botId ≠ b.id) : Automated s.bots botId := by
      rcases Option.isSome_iff_exists.1 known with ⟨b, hget⟩
      have hmem := Table.mem_of_get? hget
      rw [Automated, hget]
      cases automated : b.automated with
      | true => exact automated
      | false =>
          have hvalue : b ∈ s.bots.values := List.mem_map.2 ⟨_, hmem, rfl⟩
          exact absurd (h.bots.named _ hmem).symm (hother b hvalue automated)
    refine (closed_iff h.bots rfl).2 ⟨fun o ho => ?_, fun p hp => ?_⟩
    · rcases List.mem_filter.1 ho with ⟨hmem, hshown⟩
      rw [Bool.and_eq_true] at hshown
      exact hautomated hshown.2 fun b hb manual => (only b hb manual).1 o hmem hshown.1
    · rcases List.mem_map.1 hp with ⟨e, he, rfl⟩
      rcases List.mem_filter.1 he with ⟨hmem, known⟩
      exact hautomated known fun b hb manual => (only b hb manual).2 e hmem

end MemoryStore

/-- Every snapshot of a durable store is closed. One of a store in memory is closed if and only if no
trader but those who are driven by rules has an open order or a position there. -/
theorem snapshots_closed_iff {d : DurableStore} {s : MemoryStore} (hd : DurableStore.Happenings {} d)
    (hs : MemoryStore.Events {} s) :
    (∀ now shown, d.fetch now = .ok shown → shown.Closed d.tables.traders.values) ∧
      ∀ shown, s.fetch.1 = .ok shown → (shown.Closed s.bots.values ↔ s.OnlyDrivenTrade) := by
  refine ⟨fun now shown hfetch => DurableStore.closed_of_fetch hd.filed hfetch, fun shown hfetch => ?_⟩
  obtain rfl := (MemoryStore.fetch_ok (Prod.ext hfetch rfl : s.fetch = (.ok shown, s.fetch.2))).1
  exact MemoryStore.closed_snapshot_iff hs.keyed

/-- A database with a bot and somebody else, who both have a position, and who has an order besides. -/
def DurableStore.mixed : DurableStore :=
  let order : NewOrder Int :=
    { instrumentId := "s1", botId := "h1", side := .buy, limitPrice := 10, quantity := 2 }
  [.putInstrument "s1" "ACME" (.int 100), .putTrader { id := "b1", balance := .int 1000 },
    .putTrader { id := "h1", balance := .int 1000, automated := false },
    .setPosition "b1" "s1" (.int 3), .setPosition "h1" "s1" (.int 5),
    .apply ⟨[], [order]⟩ 1704067200].foldl (fun s r => (s.answer r).2) {}

/-- A store in memory with a bot that has a position, and somebody else. -/
def MemoryStore.mixed : MemoryStore :=
  [Seed.bot { id := "b1", balance := .int 1000 },
    .bot { id := "h1", balance := .int 1000, automated := false },
    .position "b1" "s1" (.int 3)].foldl (fun s x => x.plant s) {}

/-- An order of somebody who is not driven by rules. -/
def OrderEntry.byHand : OrderEntry where
  instrumentId := "s1"
  botId := "h1"
  side := .text "BUY"
  limitPrice := .int 10
  quantity := .int 2

theorem DurableStore.happenings_mixed : Happenings {} mixed :=
  Relation.ReflTransGen.refl.tail (.request _) |>.tail (.request _) |>.tail (.request _)
    |>.tail (.request _) |>.tail (.request _) |>.tail (.request _)

theorem MemoryStore.events_mixed : Events {} mixed :=
  Relation.ReflTransGen.refl.tail (.seed (.bot _)) |>.tail (.seed (.bot _))
    |>.tail (.seed (.position "b1" "s1" (.int 3)))

theorem snapshots_closed_iff_mixed :
    (∃ shown, DurableStore.mixed.fetch 1704067200 = .ok shown ∧
      shown.Closed DurableStore.mixed.tables.traders.values ∧
      shown.orders.map (·.botId) = [] ∧ shown.positions.map (·.botId) = ["b1"]) ∧
    MemoryStore.mixed.snapshot.Closed MemoryStore.mixed.bots.values := by
  have hclosed := snapshots_closed_iff DurableStore.happenings_mixed MemoryStore.events_mixed
  constructor
  · have hread : (DurableStore.mixed.fetch 1704067200).toOption.map
        (fun shown => (shown.orders.map (·.botId), shown.positions.map (·.botId))) =
          some ([], ["b1"]) := by decide +kernel
    cases hfetch : DurableStore.mixed.fetch 1704067200 with
    | error fault => simp [hfetch, Except.toOption] at hread
    | ok shown =>
        simp only [hfetch, Except.toOption, Option.map_some, Option.some.injEq, Prod.mk.injEq] at hread
        exact ⟨shown, rfl, hclosed.1 _ shown hfetch, hread⟩
  · refine (hclosed.2 _ rfl).2 ?_
    unfold MemoryStore.OnlyDrivenTrade
    decide +kernel

/-- A store in memory shows an order of somebody who is not in its snapshot. -/
theorem not_closed_byHand :
    let s := (Seed.order .byHand 1).plant MemoryStore.mixed
    MemoryStore.Events {} s ∧ s.fetch.1 = .ok s.snapshot ∧ ¬ s.snapshot.Closed s.bots.values ∧
      s.snapshot.bots.map (·.id) = ["b1"] ∧ s.snapshot.orders.map (·.botId) = ["h1"] := by
  intro s
  have horders : s.snapshot.orders.map (·.botId) = ["h1"] := by decide +kernel
  have hbots : s.snapshot.bots.map (·.id) = ["b1"] := by decide +kernel
  refine ⟨MemoryStore.events_mixed.tail (.seed _), rfl, fun closed => ?_, hbots, horders⟩
  rcases List.mem_map.1 (horders ▸ List.mem_singleton_self "h1") with ⟨o, ho, hid⟩
  rcases closed.orders o ho with ⟨b, hb, hname⟩
  have hmem : "h1" ∈ ["b1"] := hbots ▸ hid ▸ hname ▸ List.mem_map_of_mem hb
  exact absurd hmem (by decide)

end RuleTrader
