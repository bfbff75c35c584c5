import RuleTrader.Proofs.Trading.Counterpart
import RuleTrader.Proofs.Trading.Failure

/-!
# Ticks without the pairs that fail

Which pairs a tick processes depends on the prices and the rules alone, as does what stops it. So the loop
is a fold over the list `Tick.pairs`, up to what is reported, and a tick can be compared with the same one in
which the pairs that fail only draw. Both decide the same if no failing pair leaves a trace; a pair that
cancels its orders and then cannot work out a new one does leave one.
-/

namespace RuleTrader.Tick

variable {α : Type}

/-! ## The pairs of a tick -/

/-- What the pairs of a loop are: each has the open orders of its place, and no place comes twice. -/
structure Paired (data : Organized α) (places : List (String × String)) (pairs : List (Pair α)) : Prop where
  orders : ∀ pair ∈ pairs, pair.orders = data.ordersFor pair.bot.id pair.instrument.id
  places : (pairs.map fun pair => (pair.instrument.id, pair.bot.id)).Sublist places

theorem Paired.append {data : Organized α} {ps qs : List (String × String)} {pairs pairs' : List (Pair α)}
    (h : Paired data ps pairs) (h' : Paired data qs pairs') : Paired data (ps ++ qs) (pairs ++ pairs') := by
  refine ⟨fun pair hpair => ?_, ?_⟩
  · exact (List.mem_append.1 hpair).elim (h.orders pair) (h'.orders pair)
  · rw [List.map_append]
    exact h.places.append h'.places

theorem Paired.nothing (data : Organized α) (ps : List (String × String)) :
    Paired data ps ([] : List (Pair α)) :=
  ⟨by simp, List.nil_sublist ps⟩

variable [Amount α]

/-- Whether a bot can be visited. -/
def canVisit (setup : TickSetup) (ruleSets : Table String RuleDefinition) (bot : Bot α) : Bool :=
  (checkedRules setup.rules? bot.strategyId? ruleSets).toBool

/-- The pairs of an instrument: its bots with their rules, unless a bot has none, up to a bot that cannot
be visited. -/
def pairsOn (setup : TickSetup) (data : Organized α) (now : Micros) (instrument : Instrument α)
    (price : PriceContext α) (bots : List (Bot α)) : List (Pair α) :=
  (bots.takeWhile (canVisit setup data.ruleSets)).filterMap fun bot =>
    (rulesOf setup.rules? bot.strategyId? data.ruleSets).map
      (pairOf setup data now instrument price bot)

/-- The pairs that the loop processes, up to a price or a bot that stops it. -/
def pairsFrom (setup : TickSetup) (data : Organized α) (now : Micros) (bots : List (Bot α)) :
    List (Instrument α) → PriceTracker α → List (Pair α)
  | [], _ => []
  | instrument :: rest, tracker =>
    match tracker.observe instrument.id instrument.price with
    | .error _ => []
    | .ok (o, tracker) =>
      match o.before? with
      | none => pairsFrom setup data now bots rest tracker
      | some previous =>
        match Trend.between previous o.current with
        | .error _ => []
        | .ok trend =>
          pairsOn setup data now instrument
            (priceContext o previous trend (data.aggregates.get? instrument.id)) bots ++
            if bots.all (canVisit setup data.ruleSets) then pairsFrom setup data now bots rest tracker
            else []

section Loop

variable {setup : TickSetup} {data : Organized α} {now : Micros}

omit [Amount α] in
theorem canVisit_iff {ruleSets : Table String RuleDefinition} {bot : Bot α} :
    canVisit setup ruleSets bot = true ↔ Governed setup bot.strategyId? ruleSets := by
  rw [canVisit, governed_iff]
  cases checkedRules setup.rules? bot.strategyId? ruleSets <;> simp [Except.toBool]

theorem pairsOn_cons_of_visit {bot : Bot α} (visit : canVisit setup data.ruleSets bot = true)
    (instrument : Instrument α) (price : PriceContext α) (bots : List (Bot α)) :
    pairsOn setup data now instrument price (bot :: bots) =
      pairsOn setup data now instrument price [bot] ++ pairsOn setup data now instrument price bots := by
  simp only [pairsOn, List.takeWhile_cons_of_pos visit, List.takeWhile_nil]
  exact List.filterMap_append (l := [bot])

theorem pairsOn_cons_of_stop {bot : Bot α} (stop : canVisit setup data.ruleSets bot = false)
    (instrument : Instrument α) (price : PriceContext α) (bots : List (Bot α)) :
    pairsOn setup data now instrument price (bot :: bots) = [] := by
  rw [pairsOn, List.takeWhile_cons_of_neg (by simp [stop]), List.filterMap_nil]

theorem pairsOn_paired (instrument : Instrument α) (price : PriceContext α) (bots : List (Bot α)) :
    Paired data (bots.map fun bot => (instrument.id, bot.id))
      (pairsOn setup data now instrument price bots) := by
  induction bots with
  | nil => exact .nothing data []
  | cons bot bots ih =>
      cases visit : canVisit setup data.ruleSets bot with
      | false =>
          rw [pairsOn_cons_of_stop visit]
          exact .nothing data _
      | true =>
          have hfirst : Paired data [(instrument.id, bot.id)]
              (pairsOn setup data now instrument price [bot]) := by
            unfold pairsOn
            cases hrules : rulesOf setup.rules? bot.strategyId? data.ruleSets with
            | none => simpa [visit, hrules] using Paired.nothing data [(instrument.id, bot.id)]
            | some rules =>
                refine ⟨?_, ?_⟩
                · simp [visit, hrules, pairOf]
                · simp [visit, hrules, pairOf]
          rw [pairsOn_cons_of_visit visit]
          exact hfirst.append ih

theorem pairsFrom_paired (setup : TickSetup) (data : Organized α) (now : Micros) (bots : List (Bot α))
    (instruments : List (Instrument α)) (tracker : PriceTracker α) :
    Paired data (instruments.flatMap fun instrument => bots.map fun bot => (instrument.id, bot.id))
      (pairsFrom setup data now bots instruments tracker) := by
  induction instruments generalizing tracker with
  | nil => exact .nothing data []
  | cons instrument rest ih =>
      -- An instrument without pairs leaves its places unused.
      have hskip (tracker : PriceTracker α) := (Paired.nothing data (bots.map fun bot =>
        (instrument.id, bot.id))).append (ih tracker)
      unfold pairsFrom
      rw [List.flatMap_cons]
      split
      · exact .nothing data _
      · next o tracker _ =>
          split
          · exact hskip tracker
          · split
            · exact .nothing data _
            · refine (pairsOn_paired instrument _ bots).append ?_
              split
              · exact ih tracker
              · exact .nothing data _

/-- The pairs of a tick have no order in common. -/
theorem apart_of_paired {snapshot : Snapshot α} {places : List (String × String)} {pairs : List (Pair α)}
    (h : Paired data places pairs) (nodup : places.Nodup)
    (hdata : Organized.ofSnapshot snapshot = .ok data) (distinct : (snapshot.orders.map (·.id)).Nodup) :
    Pair.Apart pairs := by
  have hplaces := List.pairwise_map.1 (nodup.sublist h.places)
  -- An order of both pairs would put both in its own place.
  refine hplaces.imp_of_mem fun {p q} hp hq hne o ho o' ho' heq => hne ?_
  rw [h.orders p hp, Organized.ordersFor_eq hdata] at ho
  rw [h.orders q hq, Organized.ordersFor_eq hdata] at ho'
  rcases Order.mem_openIn.1 ho with ⟨hmem, -, hbot, hinstrument⟩
  rcases Order.mem_openIn.1 ho' with ⟨hmem', -, hbot', hinstrument'⟩
  obtain rfl : o = o' := List.inj_on_of_nodup_map distinct hmem hmem' heq
  rw [← hbot, ← hinstrument, hbot', hinstrument']

/-! ## The loop as a fold -/

variable {s t u : TickState α}

/-- A part of the loop goes from one state to another by processing pairs in turn, up to what is reported.
It counts those that fail. -/
structure Follows (s : TickState α) (pairs : List (Pair α)) (t : TickState α) : Prop where
  trade : t.trade.Even (pairs.foldl Pair.pass s.trade)
  pairErrors : t.pairErrors = s.pairErrors + Pair.failures pairs s.trade

theorem Follows.quiet (even : t.trade.Even s.trade) (pairErrors : t.pairErrors = s.pairErrors) :
    Follows s [] t :=
  ⟨even, pairErrors⟩

theorem Follows.append {ps qs : List (Pair α)} (h : Follows s ps t) (h' : Follows t qs u) :
    Follows s (ps ++ qs) u where
  trade := by
    rw [List.foldl_append]
    exact h'.trade.trans (Pair.pass_even h.trade qs)
  pairErrors := by
    rw [h'.pairErrors, h.pairErrors, Pair.failures_even h.trade qs, Pair.failures_append, Nat.add_assoc]

theorem runPair_follows (setup : TickSetup) (pair : Pair α) (s : TickState α) :
    Follows s [pair] (runPair setup pair s) := by
  unfold runPair
  rcases hprocess : pair.process s.trade with ⟨fault | made, t⟩
  · have hpass : pair.pass s.trade = t := by rw [Pair.pass, hprocess]
    exact ⟨hpass ▸ ⟨rfl, rfl, rfl⟩, by simp [Pair.failures, hprocess]⟩
  · have hpass : pair.pass s.trade = t := by rw [Pair.pass, hprocess]
    exact ⟨hpass ▸ ⟨rfl, rfl, rfl⟩, by simp [Pair.failures, hprocess]⟩

theorem visitBot_follows (setup : TickSetup) (now : Micros) (informed : Informed data.ruleSets s)
    (instrument : Instrument α) (price : PriceContext α) (bot : Bot α) :
    Follows s (pairsOn setup data now instrument price [bot])
      (visitBot setup data now instrument price bot s).2 := by
  have hrules := (rulesFor_informed setup bot informed).1
  rcases rulesFor_eq setup bot data.ruleSets s with ⟨notices, known, hstate⟩
  unfold visitBot
  rcases hfor : rulesFor setup bot data.ruleSets s with ⟨found, t⟩
  rw [hfor] at hrules hstate
  dsimp only at hrules hstate
  -- What is reported and remembered on the way is no part of a pair.
  have hquiet : Follows s [] t := by
    rw [hstate]
    exact .quiet ⟨rfl, rfl, rfl⟩ rfl
  cases found with
  | error fault =>
      have stop : canVisit setup data.ruleSets bot = false := by rw [canVisit, ← hrules]; rfl
      rw [pairsOn_cons_of_stop stop]
      exact hquiet
  | ok rules? =>
      have visit : canVisit setup data.ruleSets bot = true := by rw [canVisit, ← hrules]; rfl
      have hfound := checkedRules_eq_ok hrules.symm
      cases rules? with
      | none => simpa [pairsOn, visit, ← hfound] using hquiet
      | some rules =>
          have hpair := runPair_follows setup (pairOf setup data now instrument price bot rules) t
          simpa [pairsOn, visit, ← hfound] using hquiet.append hpair

theorem visitEach_follows (setup : TickSetup) (now : Micros) (informed : Informed data.ruleSets s)
    (instrument : Instrument α) (price : PriceContext α) (bots : List (Bot α)) :
    Follows s (pairsOn setup data now instrument price bots)
      (visitEach setup data now instrument price bots s).2 := by
  induction bots generalizing s with
  | nil => exact .quiet ⟨rfl, rfl, rfl⟩ rfl
  | cons bot bots ih =>
      have hfirst := visitBot_follows setup now informed instrument price bot
      have hinformed := visitBot_informed setup now instrument price informed bot
      -- The bots after one that cannot be visited make no pairs either.
      have hend := visitBot_ok_iff setup now instrument price informed bot
      rw [← canVisit_iff] at hend
      rw [visitEach]
      rcases hvisit : visitBot setup data now instrument price bot s with ⟨fault | _, t⟩
      · have stop : canVisit setup data.ruleSets bot = false := by simpa [hvisit] using hend
        rw [hvisit, pairsOn_cons_of_stop stop] at hfirst
        rw [pairsOn_cons_of_stop stop]
        exact hfirst
      · have visit : canVisit setup data.ruleSets bot = true := by simpa [hvisit] using hend
        rw [hvisit] at hfirst hinformed
        rw [pairsOn_cons_of_visit visit]
        exact hfirst.append (ih hinformed)

theorem visitInstruments_follows (informed : Informed data.ruleSets s) (bots : List (Bot α))
    (instruments : List (Instrument α)) :
    Follows s (pairsFrom setup data now bots instruments s.tracker)
      (visitInstruments setup data now bots instruments s).2 := by
  induction instruments generalizing s with
  | nil => exact .quiet ⟨rfl, rfl, rfl⟩ rfl
  | cons instrument rest ih =>
      -- The tracker that the list of pairs is read off with is at each point that of the loop.
      unfold visitInstruments visitInstrument pairsFrom
      cases s.tracker.observe instrument.id instrument.price with
      | error fault => exact .quiet ⟨rfl, rfl, rfl⟩ rfl
      | ok observed =>
          rcases observed with ⟨o, tracker⟩
          dsimp only [visitBots]
          cases o.before? with
          | none =>
              have hreport : Follows s [] ({ s with tracker }.report (firstNotice setup instrument)) :=
                .quiet ⟨rfl, rfl, rfl⟩ rfl
              exact hreport.append (ih informed)
          | some previous =>
              dsimp only
              cases Trend.between previous o.current with
              | error fault => exact .quiet ⟨rfl, rfl, rfl⟩ rfl
              | ok trend =>
                  dsimp only
                  generalize ht : { s with tracker }.report (nextNotice setup instrument previous trend) = t
                  have hreport : Follows s [] t := ht ▸ .quiet ⟨rfl, rfl, rfl⟩ rfl
                  have htracker : t.tracker = tracker := ht ▸ rfl
                  have hinformed : Informed data.ruleSets t := ht ▸ informed
                  generalize priceContext o previous trend (data.aggregates.get? instrument.id) = price
                  have hbots := visitEach_follows setup now hinformed instrument price bots
                  have hnext := visitEach_informed setup now instrument price hinformed bots
                  have hsame := visitEach_tracker setup data now instrument price bots t
                  have hend : (visitEach setup data now instrument price bots t).1 = .ok () ↔
                      bots.all (canVisit setup data.ruleSets) = true := by
                    rw [visitEach_ok_iff setup now instrument price hinformed, List.all_eq_true]
                    exact forall₂_congr fun bot _ => canVisit_iff.symm
                  rcases hvisit : visitEach setup data now instrument price bots t with ⟨fault | _, u⟩
                  · -- The bot that stops the loop is the last that is come to.
                    rw [hvisit] at hbots hend
                    have stop : bots.all (canVisit setup data.ruleSets) = false := by simpa using hend
                    have hstopped := hreport.append hbots
                    rw [stop, if_neg Bool.false_ne_true, List.append_nil]
                    exact hstopped
                  · rw [hvisit] at hbots hnext hsame hend
                    have hrest := ih hnext
                    rw [hsame, htracker] at hrest
                    rw [if_pos (hend.1 rfl)]
                    exact hreport.append (hbots.append hrest)

theorem visitInstruments_even (informed : Informed data.ruleSets s) (bots : List (Bot α))
    (instruments : List (Instrument α)) :
    (visitInstruments setup data now bots instruments s).2.trade.Even
      ((pairsFrom setup data now bots instruments s.tracker).foldl Pair.pass s.trade) :=
  (visitInstruments_follows informed bots instruments).trade

end Loop

/-! ## A tick without the pairs that fail -/

/-- The pairs that a tick processes, in turn. -/
def pairs (setup : TickSetup) (now : Micros) (snapshot : Snapshot α) (data : Organized α)
    (m : TickMemory α) : List (Pair α) :=
  pairsFrom setup data now snapshot.bots snapshot.instruments m.tracker

theorem pairs_apart {setup : TickSetup} {now : Micros} {snapshot : Snapshot α} {data : Organized α}
    (hdata : Organized.ofSnapshot snapshot = .ok data) (distinct : snapshot.Distinct) (m : TickMemory α) :
    Pair.Apart (pairs setup now snapshot data m) := by
  have hpaired := pairsFrom_paired setup data now snapshot.bots snapshot.instruments m.tracker
  have hproduct : (snapshot.instruments.flatMap fun instrument =>
      snapshot.bots.map fun bot => (instrument.id, bot.id)) =
      (snapshot.instruments.map (·.id)) ×ˢ (snapshot.bots.map (·.id)) := by
    simp [List.product, SProd.sprod, List.flatMap_map, List.map_map, Function.comp_def]
  exact apart_of_paired hpaired (hproduct ▸ distinct.instruments.product distinct.bots) hdata
    distinct.orders

/-- A pair that fails leaves no trace exactly when every order that it told to cancel before was marked
already. A tick sends and leaves what it would without the pairs that fail, but for what they draw, exactly
when all of these leave no trace. -/
theorem without_failing_pairs_iff (setup : TickSetup) (now : Micros) {snapshot : Snapshot α}
    {data : Organized α} (hdata : Organized.ofSnapshot snapshot = .ok data) (distinct : snapshot.Distinct)
    (m : TickMemory α) :
    let run := (runPairs setup now snapshot data m).2
    let all := pairs setup now snapshot data m
    let s := (start data m).trade
    (∀ (pair : Pair α) (t : TradeState α) (fault : NumberFault), (pair.process t).1 = .error fault →
      (pair.Traceless t ↔ ∀ o ∈ pair.told t, o.id ∈ t.batch.cancelIds)) ∧
    run.trade.Even (all.foldl Pair.pass s) ∧
    (Pair.Sparing all s ↔ Pair.AllTraceless all s) ∧
    (Pair.AllTraceless all s → (conclude setup snapshot run).result =
      (conclude setup snapshot { run with trade := all.foldl Pair.spare s }).result) := by
  intro run all s
  have hinformed : Informed data.ruleSets (start data m) := informed_start _ data m
  have hrun : run.trade.Even (all.foldl Pair.pass s) :=
    visitInstruments_even hinformed snapshot.bots snapshot.instruments
  have hapart : Pair.Apart all := pairs_apart hdata distinct m
  refine ⟨fun pair t fault h => Pair.traceless_iff h, hrun, Pair.sparing_iff hapart s, ?_⟩
  intro traceless
  have hspared := hrun.trans (Pair.spare_even ⟨rfl, rfl, rfl⟩ _ traceless)
  simp only [conclude]
  rw [hspared.batch]

/-- In the crowd one pair fails before it has told anything. The others buy as if it were not there. -/
theorem without_failing_pairs_crowded :
    crowded.Distinct ∧
    (runPairs { session := "s" } 0 crowded (.ofInts crowded) risen).2.pairErrors = 1 ∧
    Pair.Sparing (pairs { session := "s" } 0 crowded (.ofInts crowded) risen)
      (start (.ofInts crowded) risen).trade := by
  have distinct : crowded.Distinct := ⟨by decide, by decide, by decide⟩
  have hiff := without_failing_pairs_iff { session := "s" } 0
    (Organized.ofSnapshot_int crowded) distinct risen
  exact ⟨distinct, by decide +kernel, hiff.2.2.1.2 (by decide +kernel)⟩

/-- A bot's resting order is cancelled, and then the size of a new one cannot be worked out. -/
def halting : Snapshot Int :=
  { alone with ruleSets := [("steady", .entries ([cancelAny, buyPart (10 ^ 400)].map .ready))] }

/-- The pair fails, and yet its order is cancelled and 18 are given back. -/
theorem halting_leaves_trace :
    (∃ pair ∈ pairs { session := "s" } 0 halting (.ofInts halting) risen,
      ¬pair.Traceless (start (.ofInts halting) risen).trade) ∧
    (decide { session := "s" } (.ok 0) halting risen).result.toOption.map
      (fun d => (d.pairErrors, d.batch)) = some (1, ⟨["o1"], []⟩) ∧
    (runPairs { session := "s" } 0 halting (.ofInts halting) risen).2.trade.balances = [("b1", 118)] :=
  ⟨by decide +kernel, by decide +kernel, by decide +kernel⟩

end RuleTrader.Tick
