import Mathlib.Data.List.Dedup
import RuleTrader.Proofs.Market.Organized

/-!
# What is organized is what is listed

The tables of a snapshot hold what the snapshot lists, no more and no less (`Organized.Faithful`). An open
order stands in one place, that of its bot and its instrument, and nothing else stands there; of several
positions, bots or aggregates under one key the last one listed counts. This is true of every snapshot that
can be organized, and a snapshot can be organized as soon as its shares and balances are whole numbers
(`exists_ofSnapshot_iff`).
-/

namespace RuleTrader

/-! ## Lists by key -/

section Keys

variable {α κ : Type} [DecidableEq κ]

/-- What stands under each of several keys is together what stands under any of them. -/
theorem perm_flatMap_filter (key : α → κ) (l : List α) {ks : List κ} (apart : ks.Nodup) :
    (ks.flatMap fun k => l.filter fun x => key x = k).Perm (l.filter fun x => key x ∈ ks) := by
  induction ks with
  | nil => simp
  | cons k ks ih =>
      rw [List.nodup_cons] at apart
      have hhere : (l.filter fun x => key x ∈ k :: ks).filter (fun x => key x = k) =
          l.filter fun x => key x = k := by
        rw [List.filter_filter]
        refine List.filter_congr fun x _ => ?_
        by_cases hx : key x = k <;> simp [hx]
      have hthere : (l.filter fun x => key x ∈ k :: ks).filter (fun x => !decide (key x = k)) =
          l.filter fun x => key x ∈ ks := by
        rw [List.filter_filter]
        refine List.filter_congr fun x _ => ?_
        by_cases hx : key x = k
        · simp [hx, apart.1]
        · simp [hx]
      have hsplit := List.filter_append_perm (fun x => key x = k) (l.filter fun x => key x ∈ k :: ks)
      rw [hhere, hthere] at hsplit
      exact ((ih apart.2).append_left _).trans hsplit

/-- A list falls apart into what stands under each of its keys. -/
theorem exists_perm_flatMap_filter (key : α → κ) (l : List α) :
    ∃ ks : List κ, ks.Nodup ∧ (∀ k, k ∈ ks ↔ (l.filter fun x => key x = k) ≠ []) ∧
      (ks.flatMap fun k => l.filter fun x => key x = k).Perm l := by
  refine ⟨(l.map key).dedup, List.nodup_dedup _, fun k => ?_, ?_⟩
  · simp [List.filter_eq_nil_iff]
  · refine (perm_flatMap_filter key l (List.nodup_dedup _)).trans (List.Perm.of_eq ?_)
    refine List.filter_eq_self.2 fun x hx => ?_
    rw [decide_eq_true_iff, List.mem_dedup]
    exact List.mem_map_of_mem hx

end Keys

/-! ## Listed last -/

namespace Snapshot

variable {α : Type}

/-- The position that is listed last for a bot in an instrument. -/
def lastPosition? (s : Snapshot α) (botId instrumentId : String) : Option (Position α) :=
  (s.positionsIn botId instrumentId).getLast?

/-- The bot that is listed last under a name. -/
def lastBot? (s : Snapshot α) (botId : String) : Option (Bot α) :=
  (s.bots.filter fun b => b.id = botId).getLast?

/-- The aggregate that is listed last for an instrument. -/
def lastAggregate? (s : Snapshot α) (instrumentId : String) : Option (Aggregate α) :=
  (s.aggregates.filter fun a => a.instrumentId = instrumentId).getLast?

/-- A snapshot whose shares and balances are whole numbers. -/
structure Whole [Amount α] (s : Snapshot α) : Prop where
  shares : ∀ p ∈ s.positions, ∃ n, Amount.whole p.shares = .ok n
  balances : ∀ b ∈ s.bots, ∃ n, Amount.whole b.balance = .ok n

/-- What counts in integers is whole. -/
theorem whole_int (s : Snapshot Int) : s.Whole :=
  ⟨fun p _ => ⟨p.shares, rfl⟩, fun b _ => ⟨b.balance, rfl⟩⟩

end Snapshot

namespace Organized

variable {α : Type} [Amount α]

/-- Tables that hold what a snapshot lists. -/
structure Faithful (d : Organized α) (s : Snapshot α) : Prop where
  /-- Under a bot and an instrument stand their open orders, in the order of the snapshot. -/
  orders : ∀ botId instrumentId, d.ordersFor botId instrumentId =
    s.orders.filter fun o => o.status == .opened && o.botId == botId && o.instrumentId == instrumentId
  /-- The orders in all places together are the open orders, each as often as it is listed. -/
  places : ∃ places : List (String × String), places.Nodup ∧
    (∀ place, place ∈ places ↔ d.ordersFor place.1 place.2 ≠ []) ∧
    (places.flatMap fun place => d.ordersFor place.1 place.2).Perm
      (s.orders.filter fun o => o.status == .opened)
  /-- The shares are those of the position that is listed last, or none. -/
  shares : ∀ botId instrumentId, match s.lastPosition? botId instrumentId with
    | some p => Amount.whole p.shares = .ok (d.sharesOwned botId instrumentId)
    | none => d.sharesOwned botId instrumentId = 0
  /-- The balances are those of the bots that are listed, each bot once. -/
  bots : d.balances.keys = (s.bots.map (·.id)).eraseDups
  /-- The balance of a bot is that of its last entry. -/
  balances : ∀ botId,
    Option.Rel (fun b n => Amount.whole b.balance = .ok n) (s.lastBot? botId) (d.balances.get? botId)
  aggregates : ∀ instrumentId, d.aggregates.get? instrumentId = s.lastAggregate? instrumentId

variable {s : Snapshot α} {d : Organized α}

/-! ## Orders -/

/-- The open orders fall apart into those of each place. -/
theorem exists_places (h : ofSnapshot s = .ok d) :
    ∃ places : List (String × String), places.Nodup ∧
      (∀ place, place ∈ places ↔ d.ordersFor place.1 place.2 ≠ []) ∧
      (places.flatMap fun place => d.ordersFor place.1 place.2).Perm
        (s.orders.filter fun o => o.status == .opened) := by
  have hplace (place : String × String) : d.ordersFor place.1 place.2 =
      (s.orders.filter fun o => o.status == .opened).filter
        fun o => (o.botId, o.instrumentId) = place := by
    rw [ordersFor_eq h, List.filter_filter]
    refine List.filter_congr fun o _ => ?_
    simp only [Order.isOpen, Prod.ext_iff]
    cases o.status == .opened <;> by_cases hb : o.botId = place.1 <;>
      by_cases hi : o.instrumentId = place.2 <;> simp [hb, hi]
  simp only [hplace]
  exact exists_perm_flatMap_filter (fun o : Order α => (o.botId, o.instrumentId)) _

/-! ## Shares and balances -/

theorem shares_last (h : ofSnapshot s = .ok d) (botId instrumentId : String) :
    match s.lastPosition? botId instrumentId with
      | some p => Amount.whole p.shares = .ok (d.sharesOwned botId instrumentId)
      | none => d.sharesOwned botId instrumentId = 0 := by
  rcases (ofSnapshot_ok h).2.1 with ⟨entries, hentries, htable⟩
  have hlast := Table.last?_of_mapM shareEntry_key hentries (botId, instrumentId)
  have hshares : d.shares.get? (botId, instrumentId) = Table.last? entries (botId, instrumentId) := by
    rw [htable, Table.get?_ofList, Table.last?]
  rw [← hshares] at hlast
  unfold Snapshot.lastPosition? Snapshot.positionsIn sharesOwned
  generalize (s.positions.filter fun p => (p.botId, p.instrumentId) = (botId, instrumentId)).getLast? =
    position?, d.shares.get? (botId, instrumentId) = shares? at hlast
  cases hlast with
  | none => rfl
  | some hentry =>
      rcases bind_ok hentry with ⟨n, hn, hentry⟩
      cases hentry
      exact hn

theorem balance_last (h : ofSnapshot s = .ok d) (botId : String) :
    Option.Rel (fun b n => Amount.whole b.balance = .ok n) (s.lastBot? botId)
      (d.balances.get? botId) := by
  rcases (ofSnapshot_ok h).2.2.1 with ⟨entries, hentries, htable⟩
  have hlast := Table.last?_of_mapM balanceEntry_key hentries botId
  have hbalances : d.balances.get? botId = Table.last? entries botId := by
    rw [htable, Table.get?_ofList, Table.last?]
  rw [← hbalances] at hlast
  unfold Snapshot.lastBot?
  generalize (s.bots.filter fun b => b.id = botId).getLast? = bot?,
    d.balances.get? botId = balance? at hlast
  cases hlast with
  | none => exact .none
  | some hentry =>
      rcases bind_ok hentry with ⟨n, hn, hentry⟩
      cases hentry
      exact .some hn

theorem balances_keys (h : ofSnapshot s = .ok d) :
    d.balances.keys = (s.bots.map (·.id)).eraseDups := by
  rcases (ofSnapshot_ok h).2.2.1 with ⟨entries, hentries, htable⟩
  have hkeys : List.Forall₂ (· = ·) (Table.keys entries) (s.bots.map (·.id)) := by
    unfold Table.keys
    rw [List.forall₂_map_left_iff, List.forall₂_map_right_iff]
    exact (mapM_ok_iff.1 hentries).flip.imp fun _ _ hentry => balanceEntry_key _ _ hentry
  rw [List.forall₂_eq_eq_eq] at hkeys
  rw [htable, Table.keys_ofList, hkeys]

theorem aggregate_last (h : ofSnapshot s = .ok d) (instrumentId : String) :
    d.aggregates.get? instrumentId = s.lastAggregate? instrumentId := by
  rw [(ofSnapshot_ok h).2.2.2.2, Table.get?_ofList, List.filter_map, List.getLast?_map, Option.map_map]
  exact congrFun Option.map_id _

theorem faithful (h : ofSnapshot s = .ok d) : d.Faithful s where
  orders := ordersFor_eq h
  places := exists_places h
  shares := shares_last h
  bots := balances_keys h
  balances := balance_last h
  aggregates := aggregate_last h

/-! ## Organizing -/

/-- A snapshot can be organized exactly if its shares and balances are whole numbers. -/
theorem exists_ofSnapshot_iff (s : Snapshot α) : (∃ d, ofSnapshot s = .ok d) ↔ s.Whole := by
  have hshare (p : Position α) : (∃ e, shareEntry p = .ok e) ↔ ∃ n, Amount.whole p.shares = .ok n := by
    simp only [← fault?_eq_none, shareEntry, fault?_bind_pure]
  have hbalance (b : Bot α) : (∃ e, balanceEntry b = .ok e) ↔ ∃ n, Amount.whole b.balance = .ok n := by
    simp only [← fault?_eq_none, balanceEntry, fault?_bind_pure]
  constructor
  · rintro ⟨d, h⟩
    rcases ofSnapshot_ok h with ⟨-, ⟨shares, hshares, -⟩, ⟨balances, hbalances, -⟩, -⟩
    exact ⟨fun p hp => (hshare p).1 (exists_mapM_ok_iff.1 ⟨shares, hshares⟩ p hp),
      fun b hb => (hbalance b).1 (exists_mapM_ok_iff.1 ⟨balances, hbalances⟩ b hb)⟩
  · intro h
    obtain ⟨shares, hshares⟩ := mapM_ok_of_forall fun p hp => (hshare p).2 (h.shares p hp)
    obtain ⟨balances, hbalances⟩ := mapM_ok_of_forall fun b hb => (hbalance b).2 (h.balances b hb)
    exact ⟨_, by rw [ofSnapshot, hshares, hbalances]; rfl⟩

/-- Organizing a snapshot loses and duplicates nothing. A snapshot that counts in integers can be organized,
and any other one exactly if its shares and balances are whole numbers; and then its tables hold what it
lists. -/
theorem loses_and_duplicates_nothing :
    (∀ s : Snapshot Int, ∃ d, ofSnapshot s = .ok d ∧ d.Faithful s) ∧
    ∀ {α : Type} [Amount α] (s : Snapshot α),
      ((∃ d, ofSnapshot s = .ok d) ↔ s.Whole) ∧ ∀ d, ofSnapshot s = .ok d → d.Faithful s := by
  refine ⟨fun s => ?_, fun s => ⟨exists_ofSnapshot_iff s, fun d h => faithful h⟩⟩
  obtain ⟨d, h⟩ := (exists_ofSnapshot_iff s).2 s.whole_int
  exact ⟨d, h, faithful h⟩

/-- A snapshot that lists an order that is not open, and a bot, a position and an aggregate twice. -/
def listedTwice : Snapshot Int where
  bots := [{ id := "b1", balance := 100 }, { id := "b1", balance := 50 }]
  orders :=
    [{ id := "o1", instrumentId := "s1", botId := "b1", side := .buy, limitPrice := 10, quantity := 2,
       createdAt := 1 },
     { id := "o2", instrumentId := "s1", botId := "b1", side := .buy, limitPrice := 11, quantity := 1,
       createdAt := 2, status := .filled },
     { id := "o3", instrumentId := "s2", botId := "b1", side := .sell, limitPrice := 12, quantity := 1,
       createdAt := 3 },
     { id := "o4", instrumentId := "s1", botId := "b1", side := .sell, limitPrice := 13, quantity := 1,
       createdAt := 4 }]
  positions := [⟨"b1", "s1", 5⟩, ⟨"b1", "s1", 7⟩]
  aggregates := [⟨"s1", .int 10, 3⟩, ⟨"s1", .int 20, 4⟩]

theorem loses_and_duplicates_nothing_listedTwice :
    ∃ d, ofSnapshot listedTwice = .ok d ∧ d.Faithful listedTwice ∧
      (d.ordersFor "b1" "s1").map (·.id) = ["o1", "o4"] ∧ d.sharesOwned "b1" "s1" = 7 ∧
      d.sharesOwned "b1" "s2" = 0 ∧ d.balances = [("b1", 50)] ∧
      (d.aggregates.get? "s1").map (·.volume) = some 4 := by
  have horganized : ofSnapshot listedTwice = .ok (ofInts listedTwice) := ofSnapshot_int listedTwice
  exact ⟨_, horganized, (loses_and_duplicates_nothing.2 listedTwice).2 _ horganized,
    by decide, by decide, by decide, by decide, by decide⟩

end Organized

end RuleTrader
