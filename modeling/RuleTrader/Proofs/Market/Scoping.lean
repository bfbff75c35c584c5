import RuleTrader.Proofs.Market.Listing

/-!
# Narrowing a snapshot

To narrow a snapshot to the bots of some owners is a projection. Narrowing twice is narrowing to the owners
that both have in common, and what is left is closed: each of its orders and positions is of one of its
bots, and each bot finds in it what it found before.
-/

namespace RuleTrader

namespace Snapshot

variable {α : Type}

/-! ## Narrowing twice -/

/-- To narrow is to look at who the owners are, not at how they are listed. -/
theorem scopeTo_congr (s : Snapshot α) {owners others : List String}
    (h : ∀ ownerId, ownerId ∈ owners ↔ ownerId ∈ others) : s.scopeTo owners = s.scopeTo others := by
  have howns : owns (α := α) owners = owns others := by
    funext b
    unfold owns
    cases b.ownerId? with
    | none => rfl
    | some ownerId => exact decide_eq_decide.2 (h ownerId)
  rw [scopeTo, scopeTo, howns]

theorem owns_inter (owners others : List String) (b : Bot α) :
    (owns others b && owns owners b) = owns (owners ∩ others) b := by
  unfold owns
  cases b.ownerId? with
  | none => rfl
  | some ownerId => simp [List.mem_inter_iff, Bool.and_comm]

/-- A strategy that one of some of the bots uses is used by one of all of them. -/
theorem uses_of_subset {bots others : List (Bot α)} (h : ∀ b ∈ bots, b ∈ others) {strategyId : String}
    (used : uses bots strategyId = true) : uses others strategyId = true := by
  simp only [uses, Bool.and_eq_true, List.any_eq_true] at used ⊢
  rcases used with ⟨nonempty, b, hb, hused⟩
  exact ⟨nonempty, b, h b hb, hused⟩

/-- To narrow twice is to narrow to the owners that both have in common. -/
theorem scopeTo_scopeTo (s : Snapshot α) (owners others : List String) :
    (s.scopeTo owners).scopeTo others = s.scopeTo (owners ∩ others) := by
  have hbots : (s.bots.filter (owns owners)).filter (owns others) =
      s.bots.filter (owns (owners ∩ others)) := by
    rw [List.filter_filter]
    exact List.filter_congr fun b _ => owns_inter owners others b
  have hsub : ∀ b ∈ s.bots.filter (owns (owners ∩ others)), b ∈ s.bots.filter (owns owners) := by
    intro b hb
    rw [← hbots] at hb
    exact (List.mem_filter.1 hb).1
  have hids (id : String) (hid : id ∈ (s.bots.filter (owns (owners ∩ others))).map (·.id)) :
      id ∈ (s.bots.filter (owns owners)).map (·.id) := by
    rcases List.mem_map.1 hid with ⟨b, hb, rfl⟩
    exact List.mem_map_of_mem (hsub b hb)
  -- Orders, positions and rule sets pass the second narrowing only if they pass the first one too.
  have hthrough {β : Type} {p q : β → Bool} (hpq : ∀ x, p x = true → q x = true) (l : List β) :
      (l.filter q).filter p = l.filter p := by
    rw [List.filter_filter]
    refine List.filter_congr fun x _ => ?_
    cases hx : p x with
    | false => rfl
    | true => simp [hpq x hx]
  simp only [scopeTo, hbots]
  congr 1
  · exact hthrough (fun o ho => decide_eq_true (hids _ (of_decide_eq_true ho))) s.orders
  · exact hthrough (fun p hp => decide_eq_true (hids _ (of_decide_eq_true hp))) s.positions
  · exact hthrough (fun e he => uses_of_subset hsub he) s.ruleSets

theorem scopeTo_self (s : Snapshot α) (owners : List String) :
    (s.scopeTo owners).scopeTo owners = s.scopeTo owners := by
  rw [scopeTo_scopeTo]
  exact s.scopeTo_congr fun ownerId => by simp [List.mem_inter_iff]

theorem scopeTo_comm (s : Snapshot α) (owners others : List String) :
    (s.scopeTo owners).scopeTo others = (s.scopeTo others).scopeTo owners := by
  rw [scopeTo_scopeTo, scopeTo_scopeTo]
  exact s.scopeTo_congr fun ownerId => by simp [List.mem_inter_iff, and_comm]

/-! ## What is left -/

/-- What a snapshot holds for the bots of some owners. -/
structure NarrowedTo (t s : Snapshot α) (owners : List String) : Prop where
  /-- The bots are those that have one of the owners, in the order of the snapshot. -/
  bots : t.bots = s.bots.filter fun b => ∃ ownerId ∈ owners, b.ownerId? = some ownerId
  /-- The orders are those of the bots, in the order of the snapshot. -/
  orders : t.orders = s.orders.filter fun o => ∃ b ∈ t.bots, b.id = o.botId
  positions : t.positions = s.positions.filter fun p => ∃ b ∈ t.bots, b.id = p.botId
  /-- A bot finds the rules of its strategy. -/
  ruleSets : ∀ b ∈ t.bots, ∀ strategyId, b.strategyId? = some strategyId → strategyId ≠ "" →
    t.ruleSets.get? strategyId = s.ruleSets.get? strategyId
  /-- No rules are kept that no bot uses. -/
  used : ∀ strategyId, t.ruleSets.has strategyId = true →
    strategyId ≠ "" ∧ ∃ b ∈ t.bots, b.strategyId? = some strategyId
  instruments : t.instruments = s.instruments
  aggregates : t.aggregates = s.aggregates

theorem narrowedTo_scopeTo (s : Snapshot α) (owners : List String) :
    (s.scopeTo owners).NarrowedTo s owners where
  bots := by
    refine List.filter_congr fun b hb => ?_
    have hmem : owns owners b = true ↔ ∃ ownerId ∈ owners, b.ownerId? = some ownerId := by
      have hscope : b ∈ (s.scopeTo owners).bots ↔
          b ∈ s.bots ∧ ∃ ownerId ∈ owners, b.ownerId? = some ownerId := mem_scopeTo_bots
      rw [scopeTo, List.mem_filter] at hscope
      simpa [hb] using hscope
    rw [Bool.eq_iff_iff, hmem, decide_eq_true_iff]
  orders := List.filter_congr fun o _ => decide_eq_decide.2 List.mem_map
  positions := List.filter_congr fun p _ => decide_eq_decide.2 List.mem_map
  ruleSets := fun _ hb _ used nonempty => ruleSets_scopeTo hb used nonempty
  used := by
    intro strategyId h
    rw [Table.has_iff_mem_keys] at h
    rcases List.mem_map.1 h with ⟨e, he, rfl⟩
    have hused : uses (s.scopeTo owners).bots e.1 = true := (List.mem_filter.1 he).2
    simpa [uses] using hused
  instruments := rfl
  aggregates := rfl

theorem Whole.scopeTo [Amount α] {s : Snapshot α} (h : s.Whole) (owners : List String) :
    (s.scopeTo owners).Whole where
  shares := fun p hp => h.shares p (List.mem_filter.1 hp).1
  balances := fun b hb => h.balances b (List.mem_filter.1 hb).1

end Snapshot

/-! ## The tables of what is left -/

namespace Organized

variable {α : Type}

/-- Tables in which a bot finds the same orders, shares, money and rules. -/
structure AgreeFor (d e : Organized α) (b : Bot α) : Prop where
  orders : ∀ instrumentId, d.ordersFor b.id instrumentId = e.ordersFor b.id instrumentId
  shares : ∀ instrumentId, d.sharesOwned b.id instrumentId = e.sharesOwned b.id instrumentId
  balance : d.balances.get? b.id = e.balances.get? b.id
  ruleSet : ∀ strategyId, b.strategyId? = some strategyId → strategyId ≠ "" →
    d.ruleSets.get? strategyId = e.ruleSets.get? strategyId

variable [Amount α] {s : Snapshot α} {d e : Organized α}

/-- A bot that is kept finds what it found before. -/
theorem agreeFor_of_scopeTo (distinct : (s.bots.map (·.id)).Nodup) {owners : List String}
    (hd : ofSnapshot s = .ok d) (he : ofSnapshot (s.scopeTo owners) = .ok e) {b : Bot α}
    (hb : b ∈ (s.scopeTo owners).bots) : e.AgreeFor d b where
  orders := by
    intro instrumentId
    rw [ordersFor_eq he, ordersFor_eq hd]
    exact Snapshot.openOrders_scopeTo hb instrumentId
  shares := fun instrumentId => sharesOwned_congr he hd (Snapshot.positionsIn_scopeTo hb instrumentId)
  balance := by
    have hbots : (s.scopeTo owners).bots.Sublist s.bots := List.filter_sublist
    exact balances_congr he hd (distinct.sublist (hbots.map _)) distinct hb (hbots.subset hb)
  ruleSet := by
    intro strategyId used nonempty
    rw [(ofSnapshot_ok he).2.2.2.1, (ofSnapshot_ok hd).2.2.2.1]
    exact Snapshot.ruleSets_scopeTo hb used nonempty

end Organized

namespace Snapshot

/-- Narrowing to owners is a closed projection. Narrowing twice is narrowing once to the owners in common, so
that repeating it changes nothing and its order does not matter; what is left is what the snapshot holds
for the bots of the owners; and in the tables of it each of these bots finds what it found in those of the
snapshot. -/
theorem scopeTo_closed_projection {α : Type} (s : Snapshot α) (owners : List String) :
    (∀ others, (s.scopeTo owners).scopeTo others = s.scopeTo (owners ∩ others)) ∧
    (s.scopeTo owners).scopeTo owners = s.scopeTo owners ∧
    (∀ others, (s.scopeTo owners).scopeTo others = (s.scopeTo others).scopeTo owners) ∧
    (s.scopeTo owners).NarrowedTo s owners ∧
    ∀ [Amount α], (s.bots.map (·.id)).Nodup → s.Whole →
      ∃ d e, Organized.ofSnapshot s = .ok d ∧ Organized.ofSnapshot (s.scopeTo owners) = .ok e ∧
        ∀ b ∈ (s.scopeTo owners).bots, e.AgreeFor d b := by
  refine ⟨s.scopeTo_scopeTo owners, s.scopeTo_self owners, s.scopeTo_comm owners,
    s.narrowedTo_scopeTo owners, fun distinct whole => ?_⟩
  obtain ⟨d, hd⟩ := (Organized.exists_ofSnapshot_iff s).2 whole
  obtain ⟨e, he⟩ := (Organized.exists_ofSnapshot_iff (s.scopeTo owners)).2 (whole.scopeTo owners)
  exact ⟨d, e, hd, he, fun b hb => Organized.agreeFor_of_scopeTo distinct hd he hb⟩

/-- Bots of two owners and of none, two of which share a strategy. -/
def ownedApart : Snapshot Int where
  bots :=
    [{ id := "b1", balance := 100, ownerId? := some "u1", strategyId? := some "q1" },
     { id := "b2", balance := 200, ownerId? := some "u2", strategyId? := some "q1" },
     { id := "b3", balance := 300, strategyId? := some "q2" }]
  orders :=
    [{ id := "o1", instrumentId := "s1", botId := "b2", side := .buy, limitPrice := 10, quantity := 2,
       createdAt := 1 },
     { id := "o2", instrumentId := "s1", botId := "b1", side := .buy, limitPrice := 11, quantity := 1,
       createdAt := 2 },
     { id := "o3", instrumentId := "s1", botId := "b3", side := .sell, limitPrice := 12, quantity := 1,
       createdAt := 3 }]
  positions := [⟨"b3", "s1", 5⟩, ⟨"b1", "s1", 7⟩]
  ruleSets := [("q1", .entries []), ("q2", .entries [])]

theorem scopeTo_closed_projection_ownedApart :
    (ownedApart.scopeTo ["u1"]).orders.map (·.id) = ["o2"] ∧
    (ownedApart.scopeTo ["u1"]).ruleSets.keys = ["q1"] ∧
    ∃ d e, Organized.ofSnapshot ownedApart = .ok d ∧
      Organized.ofSnapshot (ownedApart.scopeTo ["u1"]) = .ok e ∧
      ∀ b ∈ (ownedApart.scopeTo ["u1"]).bots, e.AgreeFor d b :=
  ⟨by decide, by decide,
    (scopeTo_closed_projection ownedApart ["u1"]).2.2.2.2 (by decide) ownedApart.whole_int⟩

end Snapshot

end RuleTrader
