import RuleTrader.Proofs.Market.Tracker
import RuleTrader.Proofs.Trading.Placement

/-!
# Observation in the loop

The loop records one price for each instrument, and the pairs do not touch the tracker. So the tick is
stopped exactly when a price of one of its instruments is refused or a bot is visited whose rules are not
usable, and an order can only be placed in an instrument whose price was observed before the tick.
-/

namespace RuleTrader.Tick

variable {α : Type}

/-! ## The tracker -/

variable [Amount α] (setup : TickSetup) (data : Organized α) (now : Micros)

theorem visitBot_tracker (instrument : Instrument α) (price : PriceContext α) (bot : Bot α)
    (s : TickState α) : (visitBot setup data now instrument price bot s).2.tracker = s.tracker := by
  have hrules := (rulesFor_keeps setup bot data.ruleSets s).2.2
  unfold visitBot
  rcases hfor : rulesFor setup bot data.ruleSets s with ⟨fault | _ | rules, t⟩
  · rw [hfor] at hrules
    exact hrules
  · rw [hfor] at hrules
    exact hrules
  · rw [hfor] at hrules
    exact (runPair_known setup _ t).2.trans hrules

theorem visitEach_tracker (instrument : Instrument α) (price : PriceContext α) (bots : List (Bot α))
    (s : TickState α) : (visitEach setup data now instrument price bots s).2.tracker = s.tracker := by
  refine visitEach_keeps setup now instrument price (P := fun t => t.tracker = s.tracker) ?_ rfl
  intro bot _ t ht
  exact (visitBot_tracker setup data now instrument price bot t).trans ht

theorem visitBots_tracker (bots : List (Bot α)) (instrument : Instrument α) (o : Observation α)
    (s : TickState α) : (visitBots setup data now bots instrument o s).2.tracker = s.tracker := by
  unfold visitBots
  split
  · rfl
  · split
    · rfl
    · exact visitEach_tracker setup data now instrument _ bots _

/-- Visiting an instrument leaves the tracker that recording its price gives. -/
theorem visitInstrument_tracker (bots : List (Bot α)) {instrument : Instrument α} {s : TickState α}
    {o : Observation α} {tracker : PriceTracker α}
    (h : s.tracker.observe instrument.id instrument.price = .ok (o, tracker)) :
    (visitInstrument setup data now bots instrument s).2.tracker = tracker := by
  rw [visitInstrument, h]
  exact visitBots_tracker setup data now bots instrument o { s with tracker }

/-! ## What stops the loop -/

/-- The instruments whose prices a tracker has observed. -/
def observed (tracker : PriceTracker α) (instruments : List (Instrument α)) : List (Instrument α) :=
  instruments.filter fun i => tracker.lastPrices.has i.id

omit [Amount α] in
/-- A price that is recorded leaves other instruments as much observed as before. -/
theorem observed_of_observe {tracker tracker' : PriceTracker α} {instrumentId : String} {price : α}
    {o : Observation α} (h : tracker.observe instrumentId price = .ok (o, tracker'))
    {rest : List (Instrument α)} (fresh : instrumentId ∉ rest.map (·.id)) :
    observed tracker' rest = observed tracker rest := by
  refine List.filter_congr fun i hi => ?_
  have hne : instrumentId ≠ i.id := fun heq => fresh (heq ▸ List.mem_map_of_mem hi)
  rw [(PriceTracker.observe_eq h).2, Table.has, Table.has, Table.get?_put_of_ne _ _ hne]

/-- In integers prices can always be compared. So an instrument stops the loop only by a price that is
not recorded, or by rules of a bot that are not usable, once there is a price to compare with. -/
theorem visitInstrument_ok_iff (setup : TickSetup) {data : Organized Int} (now : Micros)
    (bots : List (Bot Int)) (instrument : Instrument Int) {s : TickState Int}
    (informed : Informed data.ruleSets s) :
    (visitInstrument setup data now bots instrument s).1 = .ok () ↔
      s.tracker.Accepts instrument.id ∧ ∀ i ∈ observed s.tracker [instrument], ∀ b ∈ bots,
        Governed setup b.strategyId? data.ruleSets := by
  by_cases accepts : s.tracker.Accepts instrument.id
  · rcases PriceTracker.observe_ok accepts instrument.price with ⟨o, tracker, hobserve⟩
    have hbefore : o.before? = s.tracker.lastPrices.get? instrument.id := by
      rw [Observation.before?_int, (PriceTracker.observe_eq hobserve).1]
    rw [and_iff_right accepts, visitInstrument, hobserve]
    dsimp only [visitBots]
    rw [hbefore]
    cases hlast : s.tracker.lastPrices.get? instrument.id with
    | none => simp [observed, Table.has, hlast]
    | some previous =>
        simp only [Trend.between_int]
        rw [visitEach_ok_iff]
        · simp [observed, Table.has, hlast]
        · exact informed
  · rw [visitInstrument, PriceTracker.observe_error accepts]
    simp [accepts]

/-- So the loop comes to its end exactly if each price is recorded and, in the instruments that were
observed before, the rules of each bot can be found. -/
theorem visitInstruments_ok_iff {setup : TickSetup} {data : Organized Int} {now : Micros}
    {bots : List (Bot Int)} {instruments : List (Instrument Int)}
    (distinct : (instruments.map (·.id)).Nodup) {s : TickState Int}
    (informed : Informed data.ruleSets s) :
    (visitInstruments setup data now bots instruments s).1 = .ok () ↔
      (∀ i ∈ instruments, s.tracker.Accepts i.id) ∧ ∀ i ∈ observed s.tracker instruments, ∀ b ∈ bots,
        Governed setup b.strategyId? data.ruleSets := by
  induction instruments generalizing s with
  | nil => simp [visitInstruments, observed]
  | cons instrument rest ih =>
      rw [List.map_cons, List.nodup_cons] at distinct
      have hfirst := visitInstrument_ok_iff setup now bots instrument informed
      have hinformed := visitInstrument_informed setup now instrument informed bots
      have hsplit : observed s.tracker (instrument :: rest) =
          observed s.tracker [instrument] ++ observed s.tracker rest :=
        List.filter_append [instrument] rest
      rw [List.forall_mem_cons, hsplit, List.forall_mem_append, and_and_and_comm, ← hfirst,
        visitInstruments]
      rcases hvisit : visitInstrument setup data now bots instrument s with ⟨fault | _, t⟩
      · simp
      · rw [hvisit] at hfirst hinformed
        rcases PriceTracker.observe_ok (hfirst.1 rfl).1 instrument.price with ⟨o, tracker, hobserve⟩
        have ht : t.tracker = tracker := by
          have htracker := visitInstrument_tracker setup data now bots hobserve
          rw [hvisit] at htracker
          exact htracker
        -- What is recorded here decides nothing about the others.
        have hrest : (∀ i ∈ rest, t.tracker.Accepts i.id) ↔ ∀ i ∈ rest, s.tracker.Accepts i.id := by
          rw [ht]
          exact forall₂_congr fun i _ => PriceTracker.accepts_observe_iff hobserve i.id
        rw [ih distinct.2 hinformed, hrest, ht, observed_of_observe hobserve distinct.1,
          and_iff_right rfl]

/-! ## Where orders are placed -/

/-- An instrument is visited without its bots when its price is the first one. -/
theorem visitInstrument_observed (bots : List (Bot α)) (instrument : Instrument α)
    (s : TickState α) :
    Places ((observed s.tracker [instrument]).flatMap fun i => bots.map fun b => (i.id, b.id))
      s.trade (visitInstrument setup data now bots instrument s).2.trade := by
  cases hhas : s.tracker.lastPrices.has instrument.id with
  | true =>
      simpa [observed, hhas] using visitInstrument_places setup data now bots instrument s
  | false =>
      have hnone : s.tracker.lastPrices.get? instrument.id = none := by
        simpa [Table.has] using hhas
      refine .nothing ?_
      unfold visitInstrument
      cases hobserve : s.tracker.observe instrument.id instrument.price with
      | error fault => rfl
      | ok observation =>
          rcases observation with ⟨o, tracker⟩
          have hbefore : o.before? = none := by
            rw [(PriceTracker.observe_eq hobserve).1, Observation.before?, hnone]
            rfl
          dsimp only [visitBots]
          rw [hbefore]
          rfl

/-- The places of the loop lie in instruments that were observed before it. -/
theorem visitInstruments_observed (bots : List (Bot α)) {instruments : List (Instrument α)}
    (distinct : (instruments.map (·.id)).Nodup) (s : TickState α) :
    Places ((observed s.tracker instruments).flatMap fun i => bots.map fun b => (i.id, b.id))
      s.trade (visitInstruments setup data now bots instruments s).2.trade := by
  induction instruments generalizing s with
  | nil => exact .nothing rfl
  | cons instrument rest ih =>
      rw [List.map_cons, List.nodup_cons] at distinct
      have hfirst := visitInstrument_observed setup data now bots instrument s
      have hsplit : observed s.tracker (instrument :: rest) =
          observed s.tracker [instrument] ++ observed s.tracker rest :=
        List.filter_append [instrument] rest
      rw [hsplit, List.flatMap_append]
      unfold visitInstruments
      rcases hvisit : visitInstrument setup data now bots instrument s with ⟨fault | _, t⟩
      · -- A loop that is stopped leaves the places of the other instruments unused.
        rw [hvisit] at hfirst
        exact hfirst.of_append_left _
      · rw [hvisit] at hfirst
        have hrest : observed t.tracker rest = observed s.tracker rest := by
          cases hobserve : s.tracker.observe instrument.id instrument.price with
          | error fault =>
              rw [visitInstrument, hobserve] at hvisit
              cases hvisit
          | ok observation =>
              have htracker := visitInstrument_tracker setup data now bots hobserve
              rw [hvisit] at htracker
              rw [htracker]
              exact observed_of_observe hobserve distinct.1
        have hlater := ih distinct.2 t
        rw [hrest] at hlater
        exact hfirst.append hlater

end RuleTrader.Tick
