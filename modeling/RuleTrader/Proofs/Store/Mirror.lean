import RuleTrader.Proofs.Store.OrderLife
import RuleTrader.Proofs.Trading.Counterpart

/-!
# A database that mirrors the memory

The two stores name their orders each in its own way (`otherName` exchanges the names), and the database
keeps the text of a rule set where the memory keeps its value. `Tables.Mirror` says that the rows of a
database are otherwise what the tables in memory are: the same traders, instruments and positions, rules that
are alike, and the same orders in the same sequence, which in the database is also the sequence of their
times. `DurableStore.Mirrors` adds that both stores are ready for more and have given out as many names.

An update that both stores can take keeps this up (`DurableStore.Mirrors.update`), and a tick that reads both
gets snapshots that match (`Tables.Mirror.snapshot`). What an integer column cannot hold, or a text cannot
give back, is left out by `Update.Fair`.
-/

namespace RuleTrader

/-! ## Names -/

/-- The beginning of a name exchanged: what one store puts before the number of an order, for what the
other does. -/
def otherPrefix : List Char → List Char
  | 'o' :: 'r' :: 'd' :: 'e' :: 'r' :: '-' :: rest => 's' :: 'i' :: 'm' :: '-' :: rest
  | 's' :: 'i' :: 'm' :: '-' :: rest => 'o' :: 'r' :: 'd' :: 'e' :: 'r' :: '-' :: rest
  | other => other

/-- The name that an order of one store has in the other. -/
def otherName (id : String) : String := .ofList (otherPrefix id.toList)

theorem otherPrefix_otherPrefix (cs : List Char) : otherPrefix (otherPrefix cs) = cs := by
  rw [otherPrefix.eq_def cs]
  split
  · rfl
  · rfl
  · next hdurable hmemory => exact otherPrefix.eq_3 cs hdurable hmemory

theorem otherName_involutive : Function.Involutive otherName := by
  intro id
  rw [otherName, otherName, String.toList_ofList, otherPrefix_otherPrefix, String.ofList_toList]

theorem otherName_orderName (n : Nat) :
    otherName (DurableStore.orderName n) = MemoryStore.orderName n := by
  have hdurable : (DurableStore.orderName n).toList = "order-".toList ++ n.repr.toList :=
    String.toList_append
  have hmemory : (MemoryStore.orderName n).toList = "sim-".toList ++ n.repr.toList :=
    String.toList_append
  rw [otherName, hdurable, ← String.ofList_toList (s := MemoryStore.orderName n), hmemory]
  rfl

theorem DurableStore.orderName_injective : Function.Injective DurableStore.orderName := by
  intro m n h
  exact Nat.repr_injective ((String.append_right_inj _).1 h)

/-- An order of the database as it stands in memory. -/
def Order.mirror (o : Order Int) : Order Value := (o.rename otherName).valued

def Batch.mirror (b : Batch Int) : Batch Value := (b.rename otherName).valued

def TickDecision.mirror (d : TickDecision Int) : TickDecision Value := (d.rename otherName).valued

/-! ## Rules -/

/-- A rule set that is a text, or that JSON text gives back. -/
def Value.Writable (rules : Value) : Prop :=
  (∃ s, rules = .text s) ∨ Json.Readable Json.depthLimit rules

/-- The text of a rule set gives rules that are alike. -/
theorem Value.Writable.ruleText {rules : Value} (h : rules.Writable) :
    ∃ text, DurableStore.ruleText rules = .ok text ∧
      RuleDefinition.Alike (some (.value (.text text))) (some (.value rules)) := by
  by_cases htext : ∃ s, rules = .text s
  · rcases htext with ⟨s, rfl⟩
    exact ⟨s, rfl, .refl _⟩
  · have readable := h.resolve_left htext
    rcases Json.write_plain readable.sortFields.plain with ⟨text, hwrite⟩
    have hread := RuleSet.read_written_sorted readable (fun s hs => htext ⟨s, hs⟩) hwrite
    refine ⟨text, ?_, ?_⟩
    · unfold DurableStore.ruleText
      split
      · exact absurd ⟨_, rfl⟩ htext
      · exact hwrite
    · rw [RuleDefinition.Alike, Tick.definedRules_some, Tick.definedRules_some]
      generalize RuleSet.read (.value rules) = x, RuleSet.read (.value (.text text)) = y at hread
      cases hread with
      | error fault => exact .none
      | ok alike =>
          cases alike with
          | nil => exact .none
          | cons hfirst hrest => exact .some (.cons hfirst.alike.symm (hrest.flip.imp fun _ _ h => h.alike.symm))

/-! ## The mirror -/

/-- A row of a bot whose time has a date, and the order in memory that it stands for. -/
structure StoredOrder.Mirrors (t : Tables) (row : StoredOrder) (o : Order Value) : Prop where
  bot : t.isBot row.terms.botId = true
  order : ∃ createdAt, row.createdAt.rowTime = .ok createdAt ∧ o = (row.toOrderAt createdAt).mirror

/-- The rows of a database that mirror the tables in memory. -/
structure Tables.Mirror (t : Tables) (s : MemoryStore) : Prop where
  bots : s.bots = t.traders.mapValues (·.valued)
  botNames : t.traders.Filed (·.id)
  instruments : s.instruments = t.instruments.mapValues (·.valued)
  instrumentNames : t.instruments.Filed (·.id)
  positions : s.positions = t.positions
  strategies : ∀ strategyId, t.strategies.has strategyId = s.ruleSets.has strategyId
  ruleSets : ∀ strategyId,
    RuleDefinition.Alike ((t.strategies.get? strategyId).map fun text => .value (.text text))
      (s.ruleSets.get? strategyId)
  references : ∀ b ∈ t.traders.values, t.knowsStrategy b.strategyId? = true
  aggregates : s.aggregates = []
  trades : t.trades = []
  orders : List.Forall₂ (StoredOrder.Mirrors t) t.orders s.orders
  byTime : t.orders.Pairwise fun a b => a.createdAt.rank ≤ b.createdAt.rank

/-- Two stores that are ready for more, with the same in them, and that have named as many orders. -/
structure DurableStore.Mirrors (t : DurableStore) (s : MemoryStore) : Prop where
  opened : t.closed = false
  idle : t.pending? = none
  fetches : s.fetchFailure? = none
  applies : s.applyFailure? = none
  mirror : t.committed.Mirror s
  named : s.named = t.named
  names : t.committed.orders.map (·.id) = (List.range' 1 t.named).map orderName

/-! ## Updates -/

/-- Something that is put into both stores, or changed in both. -/
inductive Update where
  | instrument (i : Instrument Int)
  | strategy (strategyId : String) (rules : Value)
  | bot (b : Bot Int)
  | price (instrumentId : String) (amount : Value)
  | balance (botId : String) (amount : Value)
  | position (botId instrumentId : String) (shares : Value)

namespace Update

/-- The update of the store in memory. -/
def inMemory (s : MemoryStore) : Update → Except MemoryFault MemoryStore
  | .instrument i => .ok (s.addInstrument i.valued)
  | .strategy strategyId rules => .ok (s.setRuleSet strategyId (.value rules))
  | .bot b => .ok (s.addBot b.valued)
  | .price instrumentId v => s.setPrice instrumentId v
  | .balance botId v => s.setBalance botId v
  | .position botId instrumentId shares => s.setPosition botId instrumentId shares

/-- The update of the durable store. A balance is changed by putting the trader in again. -/
def inDatabase (t : DurableStore) : Update → Except ChangeFault Unit × DurableStore
  | .instrument i => t.putInstrument i.id i.symbol (.int i.price)
  | .strategy strategyId rules => t.putStrategy strategyId rules
  | .bot b => t.putTrader b.valued
  | .price instrumentId v => t.setPrice instrumentId v
  | .balance botId v =>
    match t.tables.traders.get? botId with
    | some b => t.putTrader { b.valued with balance := v }
    | none => (.ok (), t)
  | .position botId instrumentId shares => t.setPosition botId instrumentId shares

/-- Whether a value is read as an integer that fits a column. -/
def FitsColumn (v : Value) : Prop := ∃ n, v.toInt = .ok n ∧ Tables.fits n = true

/-- An update that refers to what is there, with an integer that fits a column or with rules that can be
written. Once there are orders, only accounts that are driven by rules are put in. -/
def Fair (s : MemoryStore) : Update → Prop
  | .instrument i => Tables.fits i.price = true
  | .strategy _ rules => rules.Writable
  | .bot b => Tables.fits b.balance = true ∧
      (∀ strategyId, b.strategyId? = some strategyId → s.ruleSets.has strategyId = true) ∧
      (b.automated = true ∨ s.orders = [])
  | .price instrumentId v => s.instruments.has instrumentId = true ∧ FitsColumn v
  | .balance botId v => s.bots.has botId = true ∧ FitsColumn v
  | .position botId instrumentId shares =>
    s.bots.has botId = true ∧ s.instruments.has instrumentId = true ∧ FitsColumn shares

end Update

namespace Tables.Mirror

variable {t : Tables} {s : MemoryStore}

theorem has_bot (h : t.Mirror s) (botId : String) : s.bots.has botId = t.traders.has botId := by
  rw [h.bots, Table.has, Table.has, Table.get?_mapValues, Option.isSome_map]

theorem has_instrument (h : t.Mirror s) (instrumentId : String) :
    s.instruments.has instrumentId = t.instruments.has instrumentId := by
  rw [h.instruments, Table.has, Table.has, Table.get?_mapValues, Option.isSome_map]

theorem putInstrument (h : t.Mirror s) (i : Instrument Int) :
    ({ t with instruments := t.instruments.put i.id i } : Tables).Mirror (s.addInstrument i.valued) :=
  { h with
    instruments := by
      rw [MemoryStore.addInstrument, h.instruments]
      exact Table.put_mapValues _ _ _ _
    instrumentNames := h.instrumentNames.put i
    orders := h.orders.imp fun _ _ row => ⟨row.bot, row.order⟩ }

theorem putStrategy (h : t.Mirror s) {strategyId text : String} {rules : RuleDefinition}
    (alike : RuleDefinition.Alike (some (.value (.text text))) (some rules)) :
    (t.putStrategy strategyId text).Mirror (s.setRuleSet strategyId rules) :=
  { h with
    strategies := by
      intro other
      have hstrategies := h.strategies other
      -- Each other strategy stays as it was.
      by_cases heq : strategyId = other
      · subst heq
        simp [Table.has, Tables.putStrategy, MemoryStore.setRuleSet]
      · simpa [Table.has, Tables.putStrategy, MemoryStore.setRuleSet, Table.get?_put_of_ne, heq] using
          hstrategies
    ruleSets := by
      intro other
      have hrules := h.ruleSets other
      by_cases heq : strategyId = other
      · subst heq
        simpa [Tables.putStrategy, MemoryStore.setRuleSet] using alike
      · simpa [Tables.putStrategy, MemoryStore.setRuleSet, Table.get?_put_of_ne, heq] using hrules
    references := by
      intro b hb
      have hreference := h.references b hb
      unfold knowsStrategy at hreference ⊢
      cases hid : b.strategyId? with
      | none => rfl
      | some other =>
          rw [hid] at hreference
          exact Table.has_put text hreference
    orders := h.orders.imp fun _ _ row => ⟨row.bot, row.order⟩ }

theorem putTrader (h : t.Mirror s) {b : Bot Int} (reference : t.knowsStrategy b.strategyId? = true)
    (driven : (t.isBot b.id = true → b.automated = true) ∨ s.orders = []) :
    ({ t with traders := t.traders.put b.id b } : Tables).Mirror (s.addBot b.valued) :=
  { h with
    bots := by
      rw [MemoryStore.addBot, h.bots]
      exact Table.put_mapValues _ _ _ _
    botNames := h.botNames.put b
    references := by
      intro x hx
      rcases List.mem_map.1 hx with ⟨e, he, rfl⟩
      rcases Table.mem_put he with rfl | he
      · exact reference
      · exact h.references e.2 (List.mem_map_of_mem he)
    orders := by
      rcases driven with driven | hnone
      · -- The account that is put in may be one that has orders.
        refine h.orders.imp fun row o horder => ⟨?_, horder.order⟩
        have hbot := horder.bot
        by_cases heq : b.id = row.terms.botId
        · rw [isBot, ← heq, Table.get?_put_self]
          exact driven (heq ▸ hbot)
        · rw [isBot, Table.get?_put_of_ne _ _ heq]
          exact hbot
      · have hrows : t.orders = [] := List.forall₂_nil_right_iff.1 (hnone ▸ h.orders)
        show List.Forall₂ _ t.orders s.orders
        rw [hrows, hnone]
        exact .nil }

theorem setPosition (h : t.Mirror s) (botId instrumentId : String) (shares : Int) :
    ({ t with positions := t.positions.put (botId, instrumentId) shares } : Tables).Mirror
      { s with positions := s.positions.put (botId, instrumentId) shares } :=
  { h with
    positions := by rw [h.positions]
    orders := h.orders.imp fun _ _ row => ⟨row.bot, row.order⟩ }

end Tables.Mirror

namespace Tables

variable {t : Tables}

theorem checkFits_single {n : Int} (h : fits n = true) : checkFits [n] = .ok () :=
  if_pos (by simp [h])

theorem putInstrument_ok {i : Instrument Int} (h : fits i.price = true) :
    t.putInstrument i = .ok { t with instruments := t.instruments.put i.id i } := by
  rw [putInstrument, checkFits_single h]
  rfl

theorem setPrice_ok {i : Instrument Int} (hi : t.instruments.get? i.id = some i) {n : Int}
    (h : fits n = true) :
    t.setPrice i.id n = .ok { t with instruments := t.instruments.put i.id { i with price := n } } := by
  rw [setPrice, checkFits_single h, hi]
  rfl

theorem putTrader_ok {b : Bot Int} (h : fits b.balance = true)
    (reference : t.knowsStrategy b.strategyId? = true) :
    t.putTrader b = .ok { t with traders := t.traders.put b.id b } := by
  rw [putTrader, checkFits_single h, reference]
  rfl

theorem setPosition_ok {botId instrumentId : String} {n : Int} (h : fits n = true)
    (hbot : t.traders.has botId = true) (hinstrument : t.instruments.has instrumentId = true) :
    t.setPosition botId instrumentId n =
      .ok { t with positions := t.positions.put (botId, instrumentId) n } := by
  rw [setPosition, checkFits_single h, hbot, hinstrument]
  rfl

end Tables

namespace DurableStore.Mirrors

variable {t : DurableStore} {s s' : MemoryStore}

theorem tables_eq (h : t.Mirrors s) : t.tables = t.committed := by
  rw [tables, h.idle]
  rfl

/-- A statement that is accepted, and leaves what the other store has. -/
theorem change (h : t.Mirrors s) (f : Tables → Except ChangeFault Tables) {rows : Tables}
    (hf : f t.committed = .ok rows) (mirror : rows.Mirror s') (horders : rows.orders = t.committed.orders)
    (fetches : s'.fetchFailure? = s.fetchFailure?) (applies : s'.applyFailure? = s.applyFailure?)
    (named : s'.named = s.named) : ∃ t', t.change f = (.ok (), t') ∧ t'.Mirrors s' := by
  refine ⟨{ t with committed := rows, pending? := none }, ?_, ?_⟩
  · simp [DurableStore.change, h.opened, h.tables_eq, hf]
  · exact ⟨h.opened, rfl, fetches.trans h.fetches, applies.trans h.applies, mirror, named.trans h.named,
      horders ▸ h.names⟩

/-- A fair update is accepted by both stores, and they have the same in them again. -/
theorem update (h : t.Mirrors s) {u : Update} (fair : u.Fair s) :
    ∃ s' t', u.inMemory s = .ok s' ∧ u.inDatabase t = (.ok (), t') ∧ t'.Mirrors s' := by
  cases u with
  | instrument i =>
      rcases h.change (·.putInstrument i) (Tables.putInstrument_ok fair) (h.mirror.putInstrument i)
        rfl rfl rfl rfl with ⟨t', hchange, hmirrors⟩
      exact ⟨_, t', rfl, hchange, hmirrors⟩
  | strategy strategyId rules =>
      rcases fair.ruleText with ⟨text, htext, alike⟩
      rcases h.change (fun t => .ok (t.putStrategy strategyId text)) rfl (h.mirror.putStrategy alike)
        rfl rfl rfl rfl with ⟨t', hchange, hmirrors⟩
      refine ⟨_, t', rfl, ?_, hmirrors⟩
      rw [Update.inDatabase, DurableStore.putStrategy, htext]
      exact hchange
  | bot b =>
      rcases fair with ⟨hfits, hstrategy, driven⟩
      have reference : t.committed.knowsStrategy b.strategyId? = true := by
        unfold Tables.knowsStrategy
        cases hid : b.strategyId? with
        | none => rfl
        | some strategyId => exact (h.mirror.strategies strategyId).trans (hstrategy strategyId hid)
      rcases h.change (·.putTrader b) (Tables.putTrader_ok hfits reference)
        (h.mirror.putTrader reference (driven.imp_left fun automated _ => automated)) rfl rfl rfl rfl with
        ⟨t', hchange, hmirrors⟩
      exact ⟨_, t', rfl, hchange, hmirrors⟩
  | price instrumentId v =>
      rcases fair with ⟨hhas, n, hn, hfits⟩
      rw [h.mirror.has_instrument, Table.has] at hhas
      rcases Option.isSome_iff_exists.1 hhas with ⟨i, hget⟩
      obtain rfl : i.id = instrumentId := h.mirror.instrumentNames.named _ (Table.mem_of_get? hget)
      rcases h.change (·.setPrice i.id n) (Tables.setPrice_ok hget hfits)
        (h.mirror.putInstrument { i with price := n }) rfl rfl rfl rfl with ⟨t', hchange, hmirrors⟩
      refine ⟨_, t', ?_, ?_, hmirrors⟩
      · simp only [Update.inMemory, MemoryStore.setPrice, h.mirror.instruments, Table.get?_mapValues, hget,
          Option.map_some, hn]
        rfl
      · rw [Update.inDatabase, DurableStore.setPrice, changeInt, hn]
        exact hchange
  | balance botId v =>
      rcases fair with ⟨hhas, n, hn, hfits⟩
      rw [h.mirror.has_bot, Table.has] at hhas
      rcases Option.isSome_iff_exists.1 hhas with ⟨b, hget⟩
      have hmem := Table.mem_of_get? hget
      obtain rfl : b.id = botId := h.mirror.botNames.named _ hmem
      have reference := h.mirror.references b (List.mem_map_of_mem (f := Prod.snd) hmem)
      -- The record is put in again, so its account is driven by rules as before.
      have driven : t.committed.isBot b.id = true → b.automated = true := by
        rw [Tables.isBot, hget]
        exact id
      rcases h.change (·.putTrader { b with balance := n }) (Tables.putTrader_ok hfits reference)
        (h.mirror.putTrader reference (Or.inl driven)) rfl rfl rfl rfl with ⟨t', hchange, hmirrors⟩
      refine ⟨_, t', ?_, ?_, hmirrors⟩
      · simp only [Update.inMemory, MemoryStore.setBalance, h.mirror.bots, Table.get?_mapValues, hget,
          Option.map_some, hn]
        rfl
      · simp only [Update.inDatabase, h.tables_eq, hget, DurableStore.putTrader, changeInt, hn]
        exact hchange
  | position botId instrumentId v =>
      rcases fair with ⟨hbot, hinstrument, n, hn, hfits⟩
      rw [h.mirror.has_bot] at hbot
      rw [h.mirror.has_instrument] at hinstrument
      rcases h.change (·.setPosition botId instrumentId n)
        (Tables.setPosition_ok hfits hbot hinstrument) (h.mirror.setPosition botId instrumentId n)
        rfl rfl rfl rfl with ⟨t', hchange, hmirrors⟩
      refine ⟨_, t', ?_, ?_, hmirrors⟩
      · simp only [Update.inMemory, MemoryStore.setPosition, hn]
      · rw [Update.inDatabase, DurableStore.setPosition, changeInt, hn]
        exact hchange

end DurableStore.Mirrors

/-! ## Reading -/

namespace StoredOrder.Mirrors

variable {t : Tables} {row : StoredOrder} {o : Order Value}

theorem isOpen (h : row.Mirrors t o) : o.isOpen = row.isOpen := by
  rcases h.order with ⟨createdAt, -, rfl⟩
  rfl

theorem botId (h : row.Mirrors t o) : o.botId = row.terms.botId := by
  rcases h.order with ⟨createdAt, -, rfl⟩
  rfl

theorem id (h : row.Mirrors t o) : o.id = otherName row.id := by
  rcases h.order with ⟨createdAt, -, rfl⟩
  rfl

theorem read (h : row.Mirrors t o) : ∃ x, row.toOrder = .ok x ∧ o = x.mirror := by
  rcases h.order with ⟨createdAt, date, rfl⟩
  exact ⟨row.toOrderAt createdAt, by rw [toOrder, date], rfl⟩

theorem readAll {rows : List StoredOrder} {orders : List (Order Value)}
    (h : List.Forall₂ (StoredOrder.Mirrors t) rows orders) :
    ∃ xs, rows.mapM (·.toOrder) = .ok xs ∧ orders = xs.map (·.mirror) := by
  induction h with
  | nil => exact ⟨[], rfl, rfl⟩
  | cons hrow _ ih =>
      rcases hrow.read with ⟨x, hx, rfl⟩
      rcases ih with ⟨xs, hxs, rfl⟩
      exact ⟨x :: xs, mapM_ok_iff.2 (.cons hx (mapM_ok_iff.1 hxs)), rfl⟩

/-- A row and its order are cancelled by the same batches. -/
theorem cancelIfNamed (h : row.Mirrors t o) (ids : List String) :
    (row.cancelIfNamed ids).Mirrors t (o.cancelIfNamed (ids.map otherName)) := by
  have hnamed : o.id ∈ ids.map otherName ↔ row.id ∈ ids := by
    rw [h.id]
    exact List.mem_map_of_injective otherName_involutive.injective
  have hcancel :
      (o.isOpen && decide (o.id ∈ ids.map otherName)) = (row.isOpen && decide (row.id ∈ ids)) := by
    rw [h.isOpen, decide_eq_decide.2 hnamed]
  rcases h.order with ⟨createdAt, date, heq⟩
  unfold StoredOrder.cancelIfNamed Order.cancelIfNamed
  rw [hcancel, heq]
  split
  · exact ⟨h.bot, createdAt, date, rfl⟩
  · exact ⟨h.bot, createdAt, date, rfl⟩

end StoredOrder.Mirrors

namespace Tables.Mirror

variable {t : Tables} {s : MemoryStore}

theorem ordersByTime_eq (h : t.Mirror s) : t.ordersByTime = t.orders :=
  List.mergeSort_of_pairwise (h.byTime.imp fun hle => decide_eq_true hle)

theorem has_of_isBot (h : t.Mirror s) {botId : String} (hbot : t.isBot botId = true) :
    s.bots.has botId = true := by
  rw [h.has_bot, Table.has]
  unfold isBot at hbot
  cases hget : t.traders.get? botId with
  | none => simp [hget] at hbot
  | some b => rfl

theorem isBot_of_mem (h : t.Mirror s) {row : StoredOrder} (hrow : row ∈ t.orders) :
    t.isBot row.terms.botId = true :=
  ((List.forall₂_and_left (p := fun row : StoredOrder => t.isBot row.terms.botId = true) _ _).1
    (h.orders.imp fun _ _ hmirrors => ⟨hmirrors.bot, hmirrors⟩)).1 row hrow

theorem isBot_of_driven (h : t.Mirror s) {b : Bot Int} (hb : b ∈ t.traders.values.filter (·.automated)) :
    t.isBot b.id = true := by
  rcases List.mem_filter.1 hb with ⟨hmem, automated⟩
  rcases List.mem_map.1 hmem with ⟨e, he, rfl⟩
  rw [isBot, h.botNames.named e he, Table.get?_of_mem h.botNames.nodup he]
  exact automated

/-- The open orders in memory are those of the bots, and the open rows give them in the same order. -/
theorem open_orders (h : t.Mirror s) :
    ∃ orders, t.listOrders (some .opened) = .ok orders ∧ t.botOrders = .ok orders ∧
      s.snapshot.orders = orders.map (·.mirror) := by
  have hopen : List.Forall₂ (StoredOrder.Mirrors t) (t.orders.filter (·.isOpen))
      s.snapshot.orders := by
    refine List.rel_filter (fun row o hrow => ?_) h.orders
    have hbot := h.has_of_isBot hrow.bot
    rw [← hrow.botId] at hbot
    simp [hrow.isOpen, hbot]
  rcases StoredOrder.Mirrors.readAll hopen with ⟨orders, horders, hsame⟩
  refine ⟨orders, ?_, ?_, hsame⟩
  · have hlisted : (t.orders.filter fun o => (some OrderStatus.opened).all (· == o.terms.status)) =
        t.orders.filter (·.isOpen) := by
      refine List.filter_congr fun o _ => ?_
      unfold StoredOrder.isOpen
      cases o.terms.status <;> rfl
    rw [listOrders, h.ordersByTime_eq, hlisted, horders]
  · have howned : (t.orders.filter fun o => o.isOpen && t.isBot o.terms.botId) =
        t.orders.filter (·.isOpen) :=
      List.filter_congr fun o ho => by rw [h.isBot_of_mem ho, Bool.and_true]
    rw [botOrders, h.ordersByTime_eq, howned, horders]

/-- A tick reads snapshots that match, up to the names of orders, whenever it reads the database. -/
theorem snapshot (h : t.Mirror s) (read : Seconds) :
    ∃ snapshot, t.snapshot read = .ok snapshot ∧ (snapshot.rename otherName).Matches s.snapshot ∧
      t.botOrders = .ok snapshot.orders ∧ snapshot.bots = t.traders.values.filter (·.automated) ∧
      snapshot.instruments = t.instruments.values := by
  rcases h.open_orders with ⟨orders, -, horders, hsame⟩
  have haggregates : t.instruments.keys.mapM (t.aggregate? (read - recentSpan)) =
      .ok (t.instruments.keys.map fun _ => none) := by
    refine mapM_ok _ _ (fun instrumentId => ?_) _
    simp [aggregate?, tradesSince, h.trades]
  refine ⟨_, by rw [Tables.snapshot, horders, haggregates]; rfl, ⟨?_, ?_, ?_, ?_, ?_, ?_⟩, horders,
    rfl, rfl⟩
  · simp only [MemoryStore.snapshot, h.bots, Table.values_mapValues, List.filter_map]
    rfl
  · simp only [MemoryStore.snapshot, h.instruments, Table.values_mapValues]
    rfl
  · simp only [hsame, Snapshot.rename, List.map_map]
    rfl
  · refine ⟨(t.positions.filter fun e => s.bots.has e.1.1).map fun e => ⟨e.1.1, e.1.2, e.2⟩, ?_, ?_⟩
    · simp only [MemoryStore.snapshot, h.positions, List.map_map]
      rfl
    · -- The positions of a bot are listed by both stores.
      intro b hb instrumentId
      have hbot := h.isBot_of_driven hb
      simp only [Snapshot.positionsIn, Snapshot.rename, List.filter_map, List.filter_filter]
      congr 1
      refine List.filter_congr fun e _ => ?_
      by_cases he : e.1.1 = b.id
      · simp [he, hbot, h.has_of_isBot hbot]
      · simp [he]
  · intro b hb strategyId hstrategy _
    have hused : t.isUsed strategyId = true := by
      rcases List.mem_filter.1 hb with ⟨hmem, automated⟩
      exact List.any_eq_true.2 ⟨b, hmem, by simp [automated, hstrategy]⟩
    have hrules := h.ruleSets strategyId
    rw [← Table.get?_filter (p := t.isUsed) t.strategies hused, ← Table.get?_mapValues] at hrules
    exact hrules
  · simp [MemoryStore.snapshot, h.aggregates, Table.values, Snapshot.rename]

end Tables.Mirror

end RuleTrader
