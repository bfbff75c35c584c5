import RuleTrader.Proofs.Number.Bits
import RuleTrader.Proofs.Store.Mirror

/-!
# Two stores that drive alike

A tick does the same on a database and on the memory that it mirrors: it has the same result up to the names
of orders, leaves the same memory behind, sends the same batch, and the stores mirror each other again
(`DurableStore.Mirrors.tick`). Together with the updates this holds after any sequence of updates and ticks
of both stores (`Driven.mirrors`, `stores_drive_alike`).

The time of a tick must have a date and not be before that of any order, since the database lists its orders
by time and the memory in the sequence in which they came. An integer that does not fit a column is where
the two stores part (`hugePosition_drives_apart`).
-/

namespace RuleTrader

/-! ## Deciding -/

/-- Two outcomes of a tick with the same fault, or with decisions that differ in the names of orders, and
with the same memory. -/
structure TickOutcome.Mirrors (x : TickOutcome Int) (y : TickOutcome Value) : Prop where
  result : SameOutcome (fun d e => e = d.mirror) x.result y.result
  memory : y.memory = x.memory.valued

theorem Tick.decide_mirrors {snapshot : Snapshot Int} {snapshot' : Snapshot Value}
    (h : (snapshot.rename otherName).Matches snapshot') (setup : TickSetup)
    (clock : Except NumberFault Micros) (m : TickMemory Int) :
    (decide setup clock snapshot m).Mirrors (decide setup clock snapshot' m.valued) := by
  -- First the names are exchanged, then the integers become values.
  have hrename : decide setup clock (snapshot.rename otherName) m =
      (decide setup clock snapshot m).rename otherName := by
    rw [decide, scope_rename, decideScoped_rename otherName_involutive.injective, decide]
  have hmatches := decide_matches h setup clock m
  rw [hrename] at hmatches
  refine ⟨?_, hmatches.memory⟩
  have hresult := hmatches.result
  unfold TickOutcome.rename at hresult
  cases hd : (decide setup clock snapshot m).result with
  | error fault =>
      rw [hd] at hresult
      rcases hresult.cases with ⟨fault', hfault, hsame⟩ | ⟨d, e, hnone, -, -⟩
      · cases hfault
        rw [hsame]
        exact .error fault
      · cases hnone
  | ok d =>
      rw [hd] at hresult
      rcases hresult.of_ok with ⟨e, hsame, rfl⟩
      rw [hsame]
      exact .ok rfl

/-! ## Sending -/

/-- A time that has a date is a time. -/
theorem Seconds.isNaN_of_rowTime {x : Seconds} {t : Micros} (h : x.rowTime = .ok t) : x.isNaN = false := by
  unfold rowTime at h
  split at h
  · next hread => exact Binary64.isNaN_of_finite hread
  · cases h

namespace DurableStore

theorem rows_ids (now : Seconds) (named : Nat) (os : List (NewOrder Int)) :
    (rows now named os).map (·.id) = (List.range' (named + 1) os.length).map orderName := by
  induction os generalizing named with
  | nil => rfl
  | cons o os ih => simp [rows, ih, List.range'_succ]

theorem createdAt_of_mem_rows {now : Seconds} {named : Nat} {os : List (NewOrder Int)} {row : StoredOrder}
    (h : row ∈ rows now named os) : row.createdAt = now := by
  induction os generalizing named with
  | nil => cases h
  | cons o os ih =>
      rcases List.mem_cons.1 h with rfl | h
      · rfl
      · exact ih h

/-- The rows of new orders mirror the orders that they become in memory. -/
theorem rows_mirror {t : Tables} {now : Micros} {sent : Seconds} (date : sent.rowTime = .ok now)
    {os : List (NewOrder Int)} (bots : ∀ o ∈ os, t.isBot o.botId = true) (named : Nat) :
    List.Forall₂ (StoredOrder.Mirrors t) (rows sent named os)
      (MemoryStore.stored now named (os.map (·.valued))) := by
  induction os generalizing named with
  | nil => exact .nil
  | cons o os ih =>
      rw [List.forall_mem_cons] at bots
      refine .cons ⟨bots.1, now, date, ?_⟩ (ih bots.2 (named + 1))
      rw [← otherName_orderName]
      rfl

end DurableStore

namespace StoredOrder

theorem createdAt_cancelIfNamed (ids : List String) (row : StoredOrder) :
    (row.cancelIfNamed ids).createdAt = row.createdAt := by
  unfold cancelIfNamed
  split <;> rfl

theorem id_cancelIfNamed (ids : List String) (row : StoredOrder) :
    (row.cancelIfNamed ids).id = row.id := by
  unfold cancelIfNamed
  split <;> rfl

end StoredOrder

/-- Other orders, in both stores. -/
theorem Tables.Mirror.withOrders {t : Tables} {s : MemoryStore} (h : t.Mirror s) {rows : List StoredOrder}
    {orders : List (Order Value)} (horders : List.Forall₂ (StoredOrder.Mirrors t) rows orders)
    (byTime : rows.Pairwise fun a b => a.createdAt.rank ≤ b.createdAt.rank) (named : Nat)
    (batches : List (Batch Value)) :
    ({ t with orders := rows } : Tables).Mirror { s with orders, named, batches } :=
  { h with
    orders := horders.imp fun _ _ row => ⟨row.bot, row.order⟩
    byTime := byTime }

namespace DurableStore.Mirrors

variable {t : DurableStore} {s : MemoryStore}

theorem orders_ids (h : t.Mirrors s) :
    s.orders.map (·.id) = (t.committed.orders.map (·.id)).map otherName := by
  have hids : List.Forall₂ (· = ·) (s.orders.map (·.id))
      ((t.committed.orders.map (·.id)).map otherName) := by
    rw [List.map_map, List.forall₂_map_left_iff, List.forall₂_map_right_iff]
    exact (h.mirror.orders.imp fun _ _ hrow => hrow.id).flip
  rwa [List.forall₂_eq_eq_eq] at hids

theorem apart (h : t.Mirrors s) : s.Apart := by
  have hnumbers : (List.range' 1 t.named).Nodup := List.nodup_range'
  rw [MemoryStore.Apart, h.orders_ids, h.names, List.map_map]
  exact hnumbers.map (otherName_involutive.injective.comp orderName_injective)

/-- A batch is taken by both stores, and they have the same in them again. -/
theorem apply (h : t.Mirrors s) {b : Batch Int} {now : Micros} {sent : Seconds}
    (date : sent.rowTime = .ok now) (later : ∀ row ∈ t.committed.orders, row.createdAt.rank ≤ sent.rank)
    (accepted : ∀ o ∈ b.newOrders, Accepted t.committed sent o)
    (bots : ∀ o ∈ b.newOrders, t.committed.isBot o.botId = true) :
    ∃ s' t', s.apply b.mirror now = (.ok (), s') ∧ t.apply b sent = (.ok (), t') ∧ t'.Mirrors s' := by
  refine ⟨_, _, MemoryStore.apply_eq h.applies h.apart b.mirror now,
    apply_accepted h.opened h.idle accepted, ?_⟩
  have horders : List.Forall₂ (StoredOrder.Mirrors t.committed)
      (t.committed.orders.map (·.cancelIfNamed b.cancelIds) ++ rows sent t.named b.newOrders)
      (s.orders.map (·.cancelIfNamed (b.cancelIds.map otherName)) ++
        MemoryStore.stored now s.named (b.newOrders.map (·.valued))) := by
    refine List.rel_append ?_ (h.named ▸ rows_mirror date bots t.named)
    rw [List.forall₂_map_left_iff, List.forall₂_map_right_iff]
    exact h.mirror.orders.imp fun _ _ hrow => hrow.cancelIfNamed b.cancelIds
  -- The new rows are not before any other, so the rows stay in the sequence of their times.
  have byTime : (t.committed.orders.map (·.cancelIfNamed b.cancelIds) ++
      rows sent t.named b.newOrders).Pairwise fun x y => x.createdAt.rank ≤ y.createdAt.rank := by
    refine List.pairwise_append.2 ⟨?_, ?_, ?_⟩
    · rw [List.pairwise_map]
      exact h.mirror.byTime.imp fun hle => by simpa only [StoredOrder.createdAt_cancelIfNamed] using hle
    · refine List.pairwise_of_forall_mem_list fun x hx y hy => ?_
      rw [createdAt_of_mem_rows hx, createdAt_of_mem_rows hy]
    · intro x hx y hy
      rcases List.mem_map.1 hx with ⟨row, hrow, rfl⟩
      rw [StoredOrder.createdAt_cancelIfNamed, createdAt_of_mem_rows hy]
      exact later row hrow
  have hnamed : s.named + b.mirror.newOrders.length = t.named + b.newOrders.length := by
    simp [h.named, Batch.mirror, Batch.rename, Batch.valued]
  have hids : (t.committed.orders.map (·.cancelIfNamed b.cancelIds)).map (·.id) =
      t.committed.orders.map (·.id) := by
    simp only [List.map_map, Function.comp_def, StoredOrder.id_cancelIfNamed]
  refine ⟨h.opened, rfl, h.fetches, h.applies, h.mirror.withOrders horders byTime _ _, hnamed, ?_⟩
  show (t.committed.orders.map (·.cancelIfNamed b.cancelIds) ++ rows sent t.named b.newOrders).map
    (·.id) = (List.range' 1 (t.named + b.newOrders.length)).map orderName
  rw [List.map_append, hids, h.names, rows_ids, ← List.map_append, Nat.add_comm t.named 1,
    List.range'_append_1]

/-- A tick reads both stores, and finds the same. -/
theorem fetch (h : t.Mirrors s) (read : Seconds) :
    ∃ snapshot, t.fetch read = .ok snapshot ∧ (snapshot.rename otherName).Matches s.snapshot ∧
      t.committed.botOrders = .ok snapshot.orders ∧
      snapshot.bots = t.committed.traders.values.filter (·.automated) ∧
      snapshot.instruments = t.committed.instruments.values := by
  rcases h.mirror.snapshot read with ⟨snapshot, hsnapshot, hrest⟩
  refine ⟨snapshot, ?_, hrest⟩
  simp [DurableStore.fetch, h.opened, h.tables_eq, hsnapshot]

theorem fetched (h : t.Mirrors s) (fetches : Nat) : t.Mirrors { s with fetches } :=
  { h with mirror := { h.mirror with bots := h.mirror.bots } }

end DurableStore.Mirrors

/-! ## Ticks -/

/-- The access of a tick that reads the store at one time and sends at another. -/
def DurableStore.accessAt (read sent : Seconds) : StoreAccess DurableStore Int :=
  { access sent with fetch := (access read).fetch }

/-- A tick at which the clocks of both stores show the same time, which has a date and is not before the
time of any order, and whose new orders fit their columns. -/
structure FairTick (t : DurableStore) (setup : TickSetup) (clock : Except NumberFault Micros)
    (m : TickMemory Int) (now : Micros) (read sent : Seconds) : Prop where
  date : sent.rowTime = .ok now
  later : ∀ row ∈ t.tables.orders, row.createdAt.rank ≤ sent.rank
  fits : ∀ snapshot d, t.fetch read = .ok snapshot → (Tick.decide setup clock snapshot m).result = .ok d →
    ∀ o ∈ d.newOrders, DurableStore.Fits o

/-- Two ticks with the same result, which have sent the same, and leave the same. -/
structure TickRun.Mirrors (r : TickRun (DurableStore × List (Batch Int)) Int)
    (r' : TickRun (MemoryStore × List (Batch Value)) Value) : Prop where
  result : SameOutcome (fun d e => e = d.mirror) r.result r'.result
  memory : r'.memory = r.memory.valued
  sent : r'.store.2 = r.store.2.map (·.mirror)
  stores : r.store.1.Mirrors r'.store.1

theorem TickDecision.hasBatch_mirror (d : TickDecision Int) : d.mirror.hasBatch = d.hasBatch := by
  simp [hasBatch, mirror, valued, rename]

namespace DurableStore.Mirrors

variable {t : DurableStore} {s : MemoryStore} {setup : TickSetup} {clock : Except NumberFault Micros}
  {m : TickMemory Int} {now : Micros} {read sent : Seconds}

/-- What is decided at a fair tick is sent to both stores and taken by both. -/
theorem send (h : t.Mirrors s) (fair : FairTick t setup clock m now read sent) {snapshot : Snapshot Int}
    (hfetch : t.fetch read = .ok snapshot)
    (hbots : snapshot.bots = t.committed.traders.values.filter (·.automated))
    (hinstruments : snapshot.instruments = t.committed.instruments.values) {d : TickDecision Int}
    (hd : (Tick.decide setup clock snapshot m).result = .ok d) :
    ∃ s' t', s.apply d.mirror.batch now = (.ok (), s') ∧ t.apply d.batch sent = (.ok (), t') ∧
      t'.Mirrors s' := by
  have hbot {o : NewOrder Int} (ho : o ∈ d.newOrders) : t.committed.isBot o.botId = true := by
    rcases (Tick.decide_inserts hd ho).1 with ⟨b, hb, heq⟩
    exact heq ▸ h.mirror.isBot_of_driven (hbots ▸ hb)
  refine h.apply (b := d.batch) fair.date (h.tables_eq ▸ fair.later) (fun o ho => ?_) fun o ho => hbot ho
  rcases (Tick.decide_inserts hd ho).2 with ⟨i, hi, heq⟩
  have hinstrument := h.mirror.instrumentNames.has_of_mem (hinstruments ▸ hi)
  have htrader := h.mirror.has_of_isBot (hbot ho)
  rw [h.mirror.has_bot] at htrader
  exact ⟨fair.fits snapshot d hfetch hd o ho, Seconds.isNaN_of_rowTime fair.date, heq ▸ hinstrument,
    htrader⟩

/-- A fair tick does the same on both stores. -/
theorem tick (h : t.Mirrors s) (fair : FairTick t setup clock m now read sent) :
    (Tick.run (accessAt read sent).logged setup clock (t, []) m).Mirrors
      (Tick.run (MemoryStore.access now).logged setup clock (s, []) m.valued) := by
  rcases h.fetch read with ⟨snapshot, hfetch, hmatches, -, hbots, hinstruments⟩
  have hdecide := Tick.decide_mirrors hmatches setup clock m
  have hdurable : (accessAt read sent).fetch t = (.ok snapshot, t) := by
    simp [accessAt, access, hfetch]
  have hmemory :
      (MemoryStore.access now).fetch s = (.ok s.snapshot, { s with fetches := s.fetches + 1 }) := by
    simp only [MemoryStore.access, MemoryStore.fetch, h.fetches]
    rfl
  -- Reading is counted in memory, and leaves both stores as they are otherwise.
  have hafter := h.fetched (s.fetches + 1)
  rw [Tick.run, Tick.run, Tick.fetch_logged hdurable, Tick.fetch_logged hmemory]
  unfold Tick.proceed
  rcases hdecide.result.cases with ⟨fault, hd, hd'⟩ | ⟨d, _, hd, hd', rfl⟩
  · simp only [hd, hd']
    exact ⟨.error _, hdecide.memory, rfl, hafter⟩
  · simp only [hd, hd']
    unfold Tick.send
    rw [d.hasBatch_mirror]
    split
    · rcases hafter.send fair hfetch hbots hinstruments hd with ⟨s', t', hs, ht, hmirrors⟩
      have hs' : (MemoryStore.access now).logged.send d.mirror.batch
          ({ s with fetches := s.fetches + 1 }, []) = (.ok (), s', [d.mirror.batch]) := by
        simp [StoreAccess.logged, MemoryStore.access, hs]
      have ht' : (accessAt read sent).logged.send d.batch (t, []) = (.ok (), t', [d.batch]) := by
        simp [StoreAccess.logged, accessAt, access, ht]
      rw [hs', ht']
      exact ⟨.ok rfl, hdecide.memory, rfl, hmirrors⟩
    · exact ⟨.ok rfl, hdecide.memory, rfl, hafter⟩

end DurableStore.Mirrors

/-! ## Runs -/

/-- Two empty stores that are given the same fair updates and are driven by the same fair ticks, in any
sequence. -/
inductive Driven : DurableStore → MemoryStore → Prop where
  | start : Driven {} {}
  | update {t : DurableStore} {s s' : MemoryStore} (h : Driven t s) {u : Update} (fair : u.Fair s)
      (hs : u.inMemory s = .ok s') : Driven (u.inDatabase t).2 s'
  | tick {t : DurableStore} {s : MemoryStore} (h : Driven t s) {setup : TickSetup}
      {clock : Except NumberFault Micros} {m : TickMemory Int} {now : Micros} {read sent : Seconds}
      (fair : FairTick t setup clock m now read sent) :
      Driven (Tick.run (DurableStore.accessAt read sent) setup clock t m).store
        (Tick.run (MemoryStore.access now) setup clock s m.valued).store

theorem Driven.mirrors {t : DurableStore} {s : MemoryStore} (h : Driven t s) : t.Mirrors s := by
  induction h with
  | start =>
      refine ⟨rfl, rfl, rfl, rfl, ⟨rfl, ⟨.nil, ?_⟩, rfl, ⟨.nil, ?_⟩, rfl, fun _ => rfl, fun _ => .refl _,
        ?_, rfl, rfl, .nil, .nil⟩, rfl, rfl⟩
      · rintro e ⟨⟩
      · rintro e ⟨⟩
      · rintro b ⟨⟩
  | @update t s s' _ u fair hs ih =>
      rcases ih.update fair with ⟨s'', t', hmemory, hdatabase, hmirrors⟩
      obtain rfl : s' = s'' := Except.ok.inj (hs.symm.trans hmemory)
      rw [hdatabase]
      exact hmirrors
  | @tick t s _ setup clock m now read sent fair ih =>
      have hstores := (ih.tick fair).stores
      rwa [Tick.run_logged_store, Tick.run_logged_store] at hstores

/-- The two stores drive alike. After the same fair updates and ticks, both accept the next fair update;
the open orders of the bots are the same, in the same order, but for their names; and at the next fair
tick both have the same result, remember the same, and are sent the same batches. -/
theorem stores_drive_alike {t : DurableStore} {s : MemoryStore} (h : Driven t s) :
    (∀ u : Update, u.Fair s → (∃ s', u.inMemory s = .ok s') ∧ (u.inDatabase t).1 = .ok ()) ∧
    (∃ orders, t.listOrders (some .opened) = .ok orders ∧
      (∀ read, ∃ snapshot, t.fetch read = .ok snapshot ∧ snapshot.orders = orders) ∧
      s.snapshot.orders = orders.map (·.mirror)) ∧
    ∀ {setup : TickSetup} {clock : Except NumberFault Micros} {m : TickMemory Int} {now : Micros}
      {read sent : Seconds}, FairTick t setup clock m now read sent →
      (Tick.run (DurableStore.accessAt read sent).logged setup clock (t, []) m).Mirrors
        (Tick.run (MemoryStore.access now).logged setup clock (s, []) m.valued) := by
  have hmirrors := h.mirrors
  refine ⟨?_, ?_, fun fair => hmirrors.tick fair⟩
  · intro u fair
    rcases hmirrors.update fair with ⟨s', t', hmemory, hdatabase, -⟩
    exact ⟨⟨s', hmemory⟩, by rw [hdatabase]⟩
  · rcases hmirrors.mirror.open_orders with ⟨orders, hlisted, horders, hsame⟩
    refine ⟨orders, ?_, ?_, hsame⟩
    · simp [DurableStore.listOrders, hmirrors.opened, hmirrors.tables_eq, hlisted]
    · intro read
      rcases hmirrors.fetch read with ⟨snapshot, hfetch, -, hread, -, -⟩
      exact ⟨snapshot, hfetch, Except.ok.inj (hread.symm.trans horders)⟩

/-! ## One seller -/

/-- A part of the shares is sold when the price is up. -/
def sellPart : TickSetup where
  session := "s"
  rules? := some [⟨.allOf [.comparison "isPriceUp" .equal (.literal (.bool true))],
    ⟨.sell, [("sizePct", .int 1), ("limitPriceType", .text "market")]⟩, 1⟩]

/-- The last price was 90. -/
def from90 : TickMemory Int := ⟨{ capacity := 5, lastPrices := [("s1", 90)] }, .script {}⟩

/-- One bot, and one instrument at a price of 100. -/
def DurableStore.oneSeller : DurableStore where
  committed :=
    { instruments := [("s1", ⟨"s1", "ACME", 100⟩)]
      traders := [("b1", { id := "b1", balance := 10000 })] }

def MemoryStore.oneSeller : MemoryStore where
  bots := [("b1", { id := "b1", balance := .int 10000 })]
  instruments := [("s1", ⟨"s1", "ACME", .int 100⟩)]

theorem driven_oneSeller : Driven .oneSeller .oneSeller := by
  have hinstrument : Update.Fair {} (.instrument ⟨"s1", "ACME", 100⟩) := rfl
  have hbot : Update.Fair (MemoryStore.addInstrument {} ⟨"s1", "ACME", .int 100⟩)
      (.bot { id := "b1", balance := 10000 }) := ⟨rfl, by rintro _ ⟨⟩, Or.inl rfl⟩
  exact (Driven.start.update hinstrument rfl).update hbot rfl

/-- A tick of a store without orders is fair when what is decided fits. -/
theorem fairTick_sellPart {t : DurableStore} (hnone : t.tables.orders = []) {offers : List (NewOrder Int)}
    (hdecided : (t.fetch 1704067200).toOption.map (fun snapshot =>
      (Tick.decide sellPart (.ok 0) snapshot from90).result.toOption.map (·.newOrders)) =
        some (some offers))
    (hfits : ∀ o ∈ offers, DurableStore.Fits o) :
    FairTick t sellPart (.ok 0) from90 1704067200000000 1704067200 1704067200 := by
  refine ⟨by decide +kernel, ?_, ?_⟩
  · intro row hrow
    rw [hnone] at hrow
    cases hrow
  · intro snapshot d hfetch hd o ho
    simp only [hfetch, hd, Except.toOption, Option.map_some, Option.some.injEq] at hdecided
    exact hfits o (hdecided ▸ ho)

/-- Ten shares offered at the price of 100. -/
def partOffer : NewOrder Int where
  instrumentId := "s1"
  botId := "b1"
  side := .sell
  limitPrice := 100
  quantity := 10

/-- A thousand shares are put into both stores; at the next tick ten of them are offered in both, and rest
there. -/
theorem stores_drive_alike_partSold :
    let held : Update := .position "b1" "s1" (.int 1000)
    let t := (held.inDatabase .oneSeller).2
    ∃ s, held.inMemory .oneSeller = .ok s ∧ Driven t s ∧
      FairTick t sellPart (.ok 0) from90 1704067200000000 1704067200 1704067200 ∧
      (Tick.run (DurableStore.accessAt 1704067200 1704067200).logged sellPart (.ok 0) (t, []) from90).Mirrors
        (Tick.run (MemoryStore.access 1704067200000000).logged sellPart (.ok 0) (s, []) from90.valued) ∧
      let r := Tick.run (DurableStore.accessAt 1704067200 1704067200) sellPart (.ok 0) t from90
      let r' := Tick.run (MemoryStore.access 1704067200000000) sellPart (.ok 0) s from90.valued
      r.result.toOption.map (·.newOrders) = some [partOffer] ∧
        ∃ orders, r.store.listOrders (some .opened) = .ok orders ∧ orders.length = 1 ∧
          r'.store.snapshot.orders = orders.map (·.mirror) := by
  intro held t
  have fair : held.Fair .oneSeller := ⟨rfl, rfl, 1000, rfl, rfl⟩
  have driven : Driven t _ := driven_oneSeller.update fair rfl
  have hdecided : (t.fetch 1704067200).toOption.map (fun snapshot =>
      (Tick.decide sellPart (.ok 0) snapshot from90).result.toOption.map (·.newOrders)) =
        some (some [partOffer]) := by decide +kernel
  have tick : FairTick t sellPart (.ok 0) from90 1704067200000000 1704067200 1704067200 := by
    refine fairTick_sellPart rfl hdecided fun o ho => ?_
    obtain rfl := List.mem_singleton.1 ho
    exact ⟨rfl, rfl⟩
  rcases (stores_drive_alike (driven.tick tick)).2.1 with ⟨orders, hlisted, -, hsame⟩
  let r := Tick.run (DurableStore.accessAt 1704067200 1704067200) sellPart (.ok 0) t from90
  have hone : (r.store.listOrders (some .opened)).toOption.map List.length = some 1 := by decide +kernel
  rw [hlisted] at hone
  exact ⟨_, rfl, driven, tick, (stores_drive_alike driven).2.2 tick, by decide +kernel, orders, hlisted,
    Option.some.inj hone, hsame⟩

/-- That both stores drive alike fails for an integer that does not fit: only the store in memory takes
2 ^ 63 shares, so at the next tick only it offers a part of them. -/
theorem hugePosition_drives_apart :
    let huge : Update := .position "b1" "s1" (.int 9223372036854775808)
    let t := (huge.inDatabase .oneSeller).2
    Driven .oneSeller .oneSeller ∧
    (huge.inDatabase .oneSeller).1 = .error .integerTooLarge ∧
    FairTick t sellPart (.ok 0) from90 1704067200000000 1704067200 1704067200 ∧
    ∃ s, huge.inMemory .oneSeller = .ok s ∧
      let r := Tick.run (DurableStore.accessAt 1704067200 1704067200) sellPart (.ok 0) t from90
      let r' := Tick.run (MemoryStore.access 1704067200000000) sellPart (.ok 0) s from90.valued
      r.result.toOption.map (·.newOrders.map (·.quantity)) = some [] ∧
      r'.result.toOption.map (·.newOrders.map (·.quantity)) = some [92233720368547760] ∧
      ¬SameOutcome (fun d e => e = d.mirror) r.result r'.result := by
  intro huge t
  have hdecided : (t.fetch 1704067200).toOption.map (fun snapshot =>
      (Tick.decide sellPart (.ok 0) snapshot from90).result.toOption.map (·.newOrders)) =
        some (some []) := by decide +kernel
  have tick : FairTick t sellPart (.ok 0) from90 1704067200000000 1704067200 1704067200 :=
    fairTick_sellPart rfl hdecided fun o ho => by cases ho
  refine ⟨driven_oneSeller, rfl, tick, _, rfl, ?_⟩
  intro r r'
  have hnone : r.result.toOption.map (·.newOrders.map (·.quantity)) = some [] := by decide +kernel
  have hpart : r'.result.toOption.map (·.newOrders.map (·.quantity)) = some [92233720368547760] := by
    decide +kernel
  refine ⟨hnone, hpart, fun same => ?_⟩
  -- Decisions that differ in names only have the same number of new orders.
  rcases same.cases with ⟨fault, hr, -⟩ | ⟨d, e, hr, hr', rfl⟩
  · rw [hr] at hnone
    cases hnone
  · rw [hr] at hnone
    rw [hr'] at hpart
    have hempty : d.newOrders = [] := List.map_eq_nil_iff.1 (Option.some.inj hnone)
    have hmirrored : d.mirror.newOrders = d.newOrders.map (·.valued) := rfl
    have hquantities : d.mirror.newOrders.map (·.quantity) = [92233720368547760] := Option.some.inj hpart
    rw [hmirrored, hempty] at hquantities
    cases hquantities

end RuleTrader
