import RuleTrader.Proofs.Store.Desk
import RuleTrader.Proofs.Trading.Renaming

/-!
# The share of an owner in a store

Several owners may have bots in one store. What the store holds for one of them, the bots with their
orders and positions and the rule sets that they use, is the owner's share; prices are shared by all. A
tick that is for the owner's bots reads its share only (`scope_share`), and what is done to the bots of
others leaves the share as it is.
-/

namespace RuleTrader

/-- An owner, with the names of the owner's bots and of the strategies that these may use. -/
structure Party where
  owner : String
  hasBot : String → Bool
  mayUse : String → Bool

namespace MemoryStore

/-- The store with its orders renamed. -/
def rename (ρ : String → String) (s : MemoryStore) : MemoryStore :=
  { s with orders := s.orders.map (·.rename ρ) }

theorem snapshot_rename (ρ : String → String) (s : MemoryStore) :
    (s.rename ρ).snapshot = s.snapshot.rename ρ := by
  simp only [snapshot, rename, Snapshot.rename, List.filter_map]
  rfl

theorem closeOrder_rename {ρ : String → String} (hρ : Function.Injective ρ) (id : String)
    (status : OrderStatus) (orders : List (Order Value)) :
    closeOrder (ρ id) status (orders.map (·.rename ρ)) =
      (closeOrder id status orders).map (·.rename ρ) := by
  induction orders with
  | nil => rfl
  | cons o os ih =>
      have hiff : ((o.rename ρ).id = ρ id ∧ (o.rename ρ).isOpen = true) ↔
          (o.id = id ∧ o.isOpen = true) := and_congr_left' hρ.eq_iff
      rw [List.map_cons, closeOrder, closeOrder]
      by_cases h : o.id = id ∧ o.isOpen = true
      -- The first open order of the name is closed, and no other.
      · rw [if_pos h, if_pos (hiff.2 h)]
        rfl
      · rw [if_neg h, if_neg fun h' => h (hiff.1 h'), ih]
        rfl

end MemoryStore

namespace Party

variable (p : Party)

/-! ## Shares -/

/-- What a store holds for a party, and what it holds for all. -/
def share (s : MemoryStore) : MemoryStore where
  bots := s.bots.filter fun e => p.hasBot e.1
  instruments := s.instruments
  orders := s.orders.filter fun o => p.hasBot o.botId
  positions := s.positions.filter fun e => p.hasBot e.1.1
  ruleSets := s.ruleSets.filter fun e => p.mayUse e.1
  aggregates := s.aggregates
  fetchFailure? := s.fetchFailure?
  applyFailure? := s.applyFailure?

/-- A bot that a party may have. -/
structure Fits (b : Bot Value) : Prop where
  owner : b.ownerId? = some p.owner
  mine : p.hasBot b.id = true
  strategy : ∀ strategyId, b.strategyId? = some strategyId → p.mayUse strategyId = true

/-- A bot that a party does not have. -/
structure Foreign (b : Bot Value) : Prop where
  owner : b.ownerId? ≠ some p.owner
  notMine : p.hasBot b.id = false

/-- A store in which every bot stands under its own name and is the party's or is not. -/
structure Divides (s : MemoryStore) : Prop where
  filed : s.bots.Filed (·.id)
  parted : ∀ e ∈ s.bots, p.Fits e.2 ∨ p.Foreign e.2

variable {p} {s : MemoryStore}

theorem Divides.owner_iff (h : p.Divides s) {e : String × Bot Value} (he : e ∈ s.bots) :
    e.2.ownerId? = some p.owner ↔ p.hasBot e.1 = true := by
  rw [← h.filed.named e he]
  rcases h.parted e he with hfits | hforeign
  · exact iff_of_true hfits.owner hfits.mine
  · exact iff_of_false hforeign.owner (by simp [hforeign.notMine])

theorem Divides.fits (h : p.Divides s) {e : String × Bot Value} (he : e ∈ s.bots)
    (hmine : p.hasBot e.1 = true) : p.Fits e.2 := by
  rcases h.parted e he with hfits | hforeign
  · exact hfits
  · rw [← h.filed.named e he, hforeign.notMine] at hmine
    cases hmine

/-- The bots that a tick of the owner is for. -/
def drivenBots (p : Party) (s : MemoryStore) : List (Bot Value) :=
  s.snapshot.bots.filter (Snapshot.owns [p.owner])

/-- The ids of the bots that a tick of the owner is for. -/
def drivenIds (p : Party) (s : MemoryStore) : List String := (p.drivenBots s).map (·.id)

theorem owns_single {owner : String} {b : Bot Value} :
    Snapshot.owns [owner] b = true ↔ b.ownerId? = some owner := by
  unfold Snapshot.owns
  cases b.ownerId? <;> simp

theorem mem_drivenBots {b : Bot Value} (h : b ∈ p.drivenBots s) :
    b.ownerId? = some p.owner ∧ ∃ e ∈ s.bots, e.2 = b := by
  rcases List.mem_filter.1 h with ⟨hmem, howner⟩
  have hvalue : b ∈ s.bots.values := (List.mem_filter.1 hmem).1
  rcases List.mem_map.1 hvalue with ⟨e, he, heq⟩
  exact ⟨owns_single.1 howner, e, he, heq⟩

/-- A bot of the owner is there, and it is one of the party. -/
theorem Divides.mem_drivenBots (h : p.Divides s) {b : Bot Value} (hb : b ∈ p.drivenBots s) :
    p.Fits b ∧ s.bots.get? b.id = some b := by
  rcases Party.mem_drivenBots hb with ⟨howner, e, he, rfl⟩
  -- The entry stands under the name of its bot.
  have hkey := h.filed.named e he
  refine ⟨h.fits he ((h.owner_iff he).1 howner), ?_⟩
  exact hkey ▸ Table.get?_of_mem h.filed.nodup he

theorem Divides.drivenBots_share (h : p.Divides s) : p.drivenBots (p.share s) = p.drivenBots s := by
  have hfilter : ∀ e ∈ s.bots, (Snapshot.owns [p.owner] e.2 && (e.2.automated && p.hasBot e.1)) =
      (Snapshot.owns [p.owner] e.2 && e.2.automated) := by
    intro e he
    cases howns : Snapshot.owns [p.owner] e.2 with
    | false => rfl
    | true => simp [(h.owner_iff he).1 (owns_single.1 howns)]
  -- Both are filters of one table, so it is enough that these agree on its entries.
  simp only [drivenBots, MemoryStore.snapshot, share, Table.values, List.filter_map, List.filter_filter]
  exact congrArg _ (List.filter_congr hfilter)

/-- An order or a position of a bot that the owner's tick is for belongs to the share, and its bot is
known there. -/
theorem Divides.known_of_driven (h : p.Divides s) {botId : String}
    (hbot : botId ∈ p.drivenIds s) :
    p.hasBot botId = true ∧ s.bots.has botId = true := by
  rcases List.mem_map.1 hbot with ⟨b, hb, rfl⟩
  rcases h.mem_drivenBots hb with ⟨hfits, hget⟩
  exact ⟨hfits.mine, by simp [Table.has, hget]⟩

theorem has_share {botId : String} (h : p.hasBot botId = true) :
    (p.share s).bots.has botId = s.bots.has botId := by
  simp [Table.has, share, Table.get?_filter s.bots h]

theorem Divides.driven_orders (h : p.Divides s) :
    (p.share s).snapshot.orders.filter (fun o => o.botId ∈ p.drivenIds s) =
      s.snapshot.orders.filter fun o => o.botId ∈ p.drivenIds s := by
  simp only [MemoryStore.snapshot, share, List.filter_filter]
  refine List.filter_congr fun o _ => ?_
  by_cases hbot : o.botId ∈ p.drivenIds s
  -- A snapshot leaves out the orders of unknown bots, and this bot is known in the share as well.
  · have hknown := h.known_of_driven hbot
    have hhas : Table.has (s.bots.filter fun e => p.hasBot e.1) o.botId = s.bots.has o.botId :=
      has_share hknown.1
    simp [hbot, hknown.1, hhas]
  · simp [hbot]

theorem Divides.driven_positions (h : p.Divides s) :
    (p.share s).snapshot.positions.filter (fun x => x.botId ∈ p.drivenIds s) =
      s.snapshot.positions.filter fun x => x.botId ∈ p.drivenIds s := by
  simp only [MemoryStore.snapshot, share, List.filter_map, List.filter_filter]
  refine congrArg _ (List.filter_congr fun e _ => ?_)
  by_cases hbot : e.1.1 ∈ p.drivenIds s
  · have hknown := h.known_of_driven hbot
    have hhas : Table.has (s.bots.filter fun e => p.hasBot e.1) e.1.1 = s.bots.has e.1.1 :=
      has_share hknown.1
    simp [hknown.1, hhas]
  · simp only [Function.comp_apply, hbot, decide_false, Bool.false_and]

theorem Divides.driven_ruleSets (h : p.Divides s) :
    (p.share s).snapshot.ruleSets.filter (fun e => Snapshot.uses (p.drivenBots s) e.1) =
      s.snapshot.ruleSets.filter fun e => Snapshot.uses (p.drivenBots s) e.1 := by
  simp only [MemoryStore.snapshot, share, List.filter_filter]
  refine List.filter_congr fun e _ => ?_
  cases huses : Snapshot.uses (p.drivenBots s) e.1 with
  | false => rfl
  | true =>
      -- A strategy that a driven bot uses is one that the bots of the party may use.
      have hused : e.1 ≠ "" ∧ ∃ b ∈ p.drivenBots s, b.strategyId? = some e.1 := by
        simpa [Snapshot.uses] using huses
      rcases hused.2 with ⟨b, hb, hstrategy⟩
      simp [(h.mem_drivenBots hb).1.strategy _ hstrategy]

/-- A tick for an owner sees of a store only the share of the owner. -/
theorem Divides.scope_share (h : p.Divides s) {setup : TickSetup} (hsetup : setup.ownerId? = some p.owner) :
    Tick.scope setup (p.share s).snapshot = Tick.scope setup s.snapshot := by
  -- The scope of either store, spelled out by the bots that are driven there.
  have hscope (t : MemoryStore) (hdriven : p.drivenBots t = p.drivenBots s) :
      Tick.scope setup t.snapshot =
        ⟨p.drivenBots s, t.snapshot.instruments,
          t.snapshot.orders.filter fun o => o.botId ∈ p.drivenIds s,
          t.snapshot.positions.filter fun x => x.botId ∈ p.drivenIds s,
          t.snapshot.ruleSets.filter fun e => Snapshot.uses (p.drivenBots s) e.1,
          t.snapshot.aggregates⟩ := by
    unfold drivenIds
    rw [← hdriven]
    simp only [Tick.scope, hsetup]
    rfl
  rw [hscope _ h.drivenBots_share, hscope s rfl, h.driven_orders, h.driven_positions, h.driven_ruleSets]
  rfl

end Party

end RuleTrader
