import RuleTrader.Proofs.Trading.Idle

/-!
# Following the market

A session that runs tick after tick keeps, of each instrument, the last prices of the ticks that had a bot to
act for, whatever else changes between them. A tick without a bot leaves before it looks at the prices, and
one that comes to a bot whose rules are not usable ends there, before the prices of the instruments that
follow. So the history is that of the market exactly as long as every tick that finds instruments is for some
bot and comes to the last of them; the tick after a gap compares its prices with those from before the gap.
-/

namespace RuleTrader

open PriceTracker (Records lastOf pricesOf)

/-- The prices of a snapshot, in the order of its instruments. -/
def Snapshot.prices (s : Snapshot Int) : List (String × Int) := s.instruments.map fun i => (i.id, i.price)

/-! ## The pairs of a tick -/

/-- A pair compares the price of its instrument with the last one of a stream, and has it at the end of its
history. -/
structure Pair.Compares (capacity : Nat) (seen : List (String × Int)) (pair : Pair Int) : Prop where
  current : pair.price.current = pair.instrument.price
  previous : ∃ previous, (pricesOf pair.instrument.id seen).getLast? = some previous ∧
    pair.price.previous? = some previous ∧
    pair.price.trend =
      ⟨decide (previous < pair.instrument.price), decide (pair.instrument.price < previous)⟩
  history : pair.price.history =
    lastOf capacity (pricesOf pair.instrument.id seen ++ [pair.instrument.price])

namespace Tick

theorem pairsOn_instrument {setup : TickSetup} {data : Organized Int} {now : Micros}
    {instrument : Instrument Int} {price : PriceContext Int} {bots : List (Bot Int)} {pair : Pair Int}
    (h : pair ∈ pairsOn setup data now instrument price bots) :
    pair.instrument = instrument ∧ pair.price = price := by
  rcases List.mem_filterMap.1 h with ⟨bot, -, hpair⟩
  rcases Option.map_eq_some_iff.1 hpair with ⟨rules, -, rfl⟩
  exact ⟨rfl, rfl⟩

/-- The pairs of an instrument compare with what was recorded before it. -/
theorem compares_of_observe {tracker tracker' : PriceTracker Int} {seen : List (String × Int)}
    (records : Records tracker seen) {instrument : Instrument Int} {o : Observation Int}
    (hobserve : tracker.observe instrument.id instrument.price = .ok (o, tracker')) {previous : Int}
    (hbefore : o.before? = some previous) {trend : Trend}
    (htrend : Trend.between previous o.current = .ok trend) {pair : Pair Int}
    (hinstrument : pair.instrument = instrument) {aggregate? : Option (Aggregate Int)}
    (hprice : pair.price = priceContext o previous trend aggregate?) :
    pair.Compares tracker.capacity seen := by
  obtain ⟨rfl, -⟩ := PriceTracker.observe_eq hobserve
  rw [Trend.between_int] at htrend
  obtain rfl := Except.ok.inj htrend
  -- The tracker answers with the last price that it was shown of the instrument.
  have hlast : (pricesOf instrument.id seen).getLast? = some previous := by
    rw [← records.last]
    exact (Option.filter_eq_some_iff.1 hbefore).1
  refine ⟨?_, ⟨previous, ?_, ?_, ?_⟩, ?_⟩
  · rw [hprice, hinstrument]
    rfl
  · rw [hinstrument, hlast]
  · rw [hprice]
    rfl
  · rw [hprice, hinstrument]
    rfl
  · rw [hprice, hinstrument]
    dsimp only [priceContext]
    rw [records.history, PriceTracker.lastOf_lastOf_append]

/-- The prices of other instruments change nothing for a pair. -/
theorem Compares.of_append {capacity : Nat} {seen : List (String × Int)} {e : String × Int} {pair : Pair Int}
    (hne : e.1 ≠ pair.instrument.id) (h : pair.Compares capacity (seen ++ [e])) :
    pair.Compares capacity seen := by
  have hother : pricesOf pair.instrument.id (seen ++ [e]) = pricesOf pair.instrument.id seen := by
    rw [PriceTracker.pricesOf_append, PriceTracker.pricesOf_single, if_neg hne, List.append_nil]
  refine ⟨h.current, ?_, ?_⟩
  · simpa only [hother] using h.previous
  · simpa only [hother] using h.history

/-- Every pair of a tick compares with what was recorded before the tick. -/
theorem pairsFrom_compares {setup : TickSetup} {data : Organized Int} {now : Micros} {bots : List (Bot Int)}
    {instruments : List (Instrument Int)} (distinct : (instruments.map (·.id)).Nodup)
    {tracker : PriceTracker Int} {seen : List (String × Int)} (records : Records tracker seen) :
    ∀ pair ∈ pairsFrom setup data now bots instruments tracker, pair.Compares tracker.capacity seen := by
  induction instruments generalizing tracker seen with
  | nil => simp [pairsFrom]
  | cons instrument rest ih =>
      rw [List.map_cons, List.nodup_cons] at distinct
      cases hobserve : tracker.observe instrument.id instrument.price with
      | error fault => simp [pairsFrom, hobserve]
      | ok observed =>
          rcases observed with ⟨o, tracker'⟩
          -- The instruments that follow have other names.
          have hrest : ∀ pair ∈ pairsFrom setup data now bots rest tracker',
              pair.Compares tracker.capacity seen := by
            intro pair hpair
            have hcapacity : tracker'.capacity = tracker.capacity := by
              rw [(PriceTracker.observe_eq hobserve).2]
            have hpaired := pairsFrom_paired setup data now bots rest tracker'
            have hplace := hpaired.places.subset (List.mem_map_of_mem hpair)
            rcases List.mem_flatMap.1 hplace with ⟨other, hother, hbot⟩
            rcases List.mem_map.1 hbot with ⟨bot, -, heq⟩
            have hid : other.id = pair.instrument.id := (Prod.mk.inj heq).1
            have hne : instrument.id ≠ pair.instrument.id := fun h =>
              distinct.1 (h.trans hid.symm ▸ List.mem_map_of_mem hother)
            have hlater := ih distinct.2 (records.observe hobserve) pair hpair
            rw [hcapacity] at hlater
            exact Compares.of_append hne hlater
          unfold pairsFrom
          rw [hobserve]
          dsimp only
          cases hbefore : o.before? with
          | none => exact hrest
          | some previous =>
              dsimp only
              cases htrend : Trend.between previous o.current with
              | error fault => simp
              | ok trend =>
                  intro pair hpair
                  rcases List.mem_append.1 hpair with hfirst | hlater
                  · rcases pairsOn_instrument hfirst with ⟨hinstrument, hprice⟩
                    exact compares_of_observe records hobserve hbefore htrend hinstrument hprice
                  · split at hlater
                    · exact hrest pair hlater
                    · cases hlater

/-! ## What a tick records -/

/-- A tracker of a capacity holds the last prices of a stream. -/
structure Keeps (capacity : Nat) (seen : List (String × Int)) (tracker : PriceTracker Int) : Prop where
  capacity : tracker.capacity = capacity
  records : Records tracker seen

/-- The instruments that a loop comes to: all of them if every bot can be visited, and otherwise those up to
the first with an earlier observation. -/
def reached (visit : Bool) (seen : String → Bool) : List (Instrument Int) → List (Instrument Int)
  | [] => []
  | i :: rest => i :: if seen i.id && !visit then [] else reached visit (fun id => seen id || id == i.id) rest

theorem reached_true (seen : String → Bool) (instruments : List (Instrument Int)) :
    reached true seen instruments = instruments := by
  induction instruments generalizing seen with
  | nil => rfl
  | cons i rest ih => simp [reached, ih]

theorem reached_prefix (visit : Bool) (seen : String → Bool) (instruments : List (Instrument Int)) :
    reached visit seen instruments <+: instruments := by
  induction instruments generalizing seen with
  | nil => exact List.prefix_rfl
  | cons i rest ih =>
      unfold reached
      split
      · exact (List.prefix_cons_inj i).2 List.nil_prefix
      · exact (List.prefix_cons_inj i).2 (ih _)

/-- A loop comes to every instrument if every bot can be visited, or none of the instruments but the last
has an earlier observation. -/
theorem reached_eq_iff {visit : Bool} {seen : String → Bool} {instruments : List (Instrument Int)} :
    reached visit seen instruments = instruments ↔
      visit = true ∨ observedBefore seen instruments.dropLast = [] := by
  cases visit with
  | true => simp [reached_true]
  | false =>
      induction instruments generalizing seen with
      | nil => simp [reached, observedBefore]
      | cons i rest ih =>
          cases rest with
          | nil => simp [reached, observedBefore]
          | cons j rest =>
              rw [reached, List.dropLast_cons_cons, observedBefore]
              cases hseen : seen i.id with
              | true => simp
              | false => simpa using ih

variable {setup : TickSetup} {now : Micros} {capacity : Nat} {seen : List (String × Int)}

/-- The loop records the price of every instrument that it comes to, whichever pairs fail. -/
theorem visitInstruments_keeps (setup : TickSetup) (data : Organized Int) (now : Micros)
    (reach : capacity ≤ capacityLimit) (bots : List (Bot Int)) (instruments : List (Instrument Int))
    {s : TickState Int} (informed : Informed data.ruleSets s) (h : Keeps capacity seen s.tracker) :
    Keeps capacity (seen ++ (reached (bots.all (canVisit setup data.ruleSets)) (s.tracker.lastPrices.has ·)
        instruments).map fun i => (i.id, i.price))
      (visitInstruments setup data now bots instruments s).2.tracker := by
  induction instruments generalizing s seen with
  | nil => simpa [visitInstruments, reached] using h
  | cons instrument rest ih =>
      have accepts : s.tracker.Accepts instrument.id := Or.inr (h.capacity ▸ reach)
      rcases PriceTracker.observe_ok accepts instrument.price with ⟨o, tracker, hobserve⟩
      have htracker := visitInstrument_tracker setup data now bots hobserve
      have hnext := visitInstrument_informed setup now instrument informed bots
      have hkeeps : Keeps capacity (seen ++ [(instrument.id, instrument.price)]) tracker :=
        ⟨by rw [(PriceTracker.observe_eq hobserve).2]; exact h.capacity, h.records.observe hobserve⟩
      -- It comes to the next instrument unless this one was observed before and a bot cannot be visited.
      have hend : (visitInstrument setup data now bots instrument s).1 = .ok () ↔
          (s.tracker.lastPrices.has instrument.id && !bots.all (canVisit setup data.ruleSets)) = false := by
        rw [visitInstrument_ok_iff setup now bots instrument informed, and_iff_right accepts]
        cases hseen : s.tracker.lastPrices.has instrument.id <;>
          simp [observed, hseen, canVisit_iff]
      have hlater : (fun id => tracker.lastPrices.has id) =
          fun id => s.tracker.lastPrices.has id || id == instrument.id :=
        has_observe hobserve
      unfold visitInstruments
      rw [reached, List.map_cons, ← List.singleton_append, ← List.append_assoc]
      rcases hvisit : visitInstrument setup data now bots instrument s with ⟨fault | _, t⟩
      · rw [hvisit] at hend htracker
        rw [if_pos (by simpa using hend), List.map_nil, List.append_nil]
        exact htracker ▸ hkeeps
      · rw [hvisit] at hend htracker hnext
        have hgo := hend.1 rfl
        rw [if_neg (by rw [hgo]; exact Bool.false_ne_true), ← hlater]
        subst htracker
        exact ih hnext hkeeps

/-- What a tick records of a snapshot that it fetched: the prices that it comes to, or nothing if it is for no
bot. -/
def recorded (setup : TickSetup) (m : TickMemory Int) (snapshot : Snapshot Int) : List (String × Int) :=
  if (scope setup snapshot).bots = [] then []
  else (reached ((scope setup snapshot).bots.all (canVisit setup (scope setup snapshot).ruleSets))
    (m.tracker.lastPrices.has ·) snapshot.instruments).map fun i => (i.id, i.price)

theorem decide_keeps (reach : capacity ≤ capacityLimit) {snapshot : Snapshot Int} {m : TickMemory Int}
    (h : Keeps capacity seen m.tracker) :
    Keeps capacity (seen ++ recorded setup m snapshot)
      (decide setup (.ok now) snapshot m).memory.tracker := by
  have hprices := scope_instruments setup snapshot
  unfold decide decideScoped recorded
  by_cases hidle : ((scope setup snapshot).bots.isEmpty || (scope setup snapshot).instruments.isEmpty) = true
  · rw [if_pos hidle]
    split
    · simpa using h
    · next hbots =>
        have hnone : snapshot.instruments = [] := by simpa [hbots, hprices] using hidle
        simpa [hnone, reached] using h
  · have hbots : (scope setup snapshot).bots ≠ [] := fun hbots => hidle (by simp [hbots])
    have hkeeps := visitInstruments_keeps setup (.ofInts (scope setup snapshot)) now reach
      (scope setup snapshot).bots (scope setup snapshot).instruments
      (informed_start _ (.ofInts (scope setup snapshot)) m) h
    rw [if_neg hidle, if_neg hbots, prepare_int, ← hprices]
    -- The tracker is kept whether or not the loop came to its end.
    dsimp only [runPairs]
    rcases hrun : visitInstruments setup (.ofInts (scope setup snapshot)) now (scope setup snapshot).bots
      (scope setup snapshot).instruments (start (.ofInts (scope setup snapshot)) m) with ⟨fault | _, s⟩
    · rw [hrun] at hkeeps
      exact hkeeps
    · rw [hrun] at hkeeps
      exact hkeeps

end Tick

/-! ## A run of ticks -/

variable {σ : Type}

/-- An occasion for a tick: the store that it is run on, which bots it is for, and when it is. -/
structure Occasion (σ : Type) where
  access : StoreAccess σ Int
  store : σ
  setup : TickSetup
  now : Micros

namespace Occasion

/-- The memory after the tick. -/
def after (m : TickMemory Int) (c : Occasion σ) : TickMemory Int :=
  (Tick.run c.access c.setup (.ok c.now) c.store m).memory

/-- The snapshot that the tick fetches, unless that fails. -/
def snapshot? (c : Occasion σ) : Option (Snapshot Int) := (c.access.fetch c.store).1.toOption

/-- The prices that the tick fetches. -/
def fetched (c : Occasion σ) : List (String × Int) := (c.snapshot?.map Snapshot.prices).getD []

/-- The prices that the tick fetches, if it is for some bot. -/
def offered (c : Occasion σ) : List (String × Int) :=
  (c.snapshot?.map fun s => if (Tick.scope c.setup s).bots = [] then [] else s.prices).getD []

/-- The prices that the tick records. -/
def recorded (m : TickMemory Int) (c : Occasion σ) : List (String × Int) :=
  (c.snapshot?.map (Tick.recorded c.setup m)).getD []

/-- The prices that ticks record one after the other. -/
def recordings : TickMemory Int → List (Occasion σ) → List (String × Int)
  | _, [] => []
  | m, c :: cs => c.recorded m ++ recordings (c.after m) cs

/-- The bots that the tick is for can all be visited. -/
def Governed (c : Occasion σ) : Prop :=
  ∀ s, c.snapshot? = some s → ∀ b ∈ (Tick.scope c.setup s).bots,
    Tick.Governed c.setup b.strategyId? (Tick.scope c.setup s).ruleSets

/-- A tick that fetches prices is for some bot and comes to the last of them: its bots can be visited, or none
of the other prices has one before it to compare with, so that no bot is visited. -/
def Attended (m : TickMemory Int) (c : Occasion σ) : Prop :=
  ∀ s, c.snapshot? = some s → s.instruments ≠ [] → (Tick.scope c.setup s).bots ≠ [] ∧
    ((∀ b ∈ (Tick.scope c.setup s).bots,
        Tick.Governed c.setup b.strategyId? (Tick.scope c.setup s).ruleSets) ∨
      Tick.observedBefore (m.tracker.lastPrices.has ·) s.instruments.dropLast = [])

/-- No tick of a run leaves a gap. -/
def AllAttended : TickMemory Int → List (Occasion σ) → Prop
  | _, [] => True
  | m, c :: cs => c.Attended m ∧ AllAttended (c.after m) cs

/-- A tick whose fetch fails leaves the memory as it is. -/
theorem after_of_failed {c : Occasion σ} (h : c.snapshot? = none) (m : TickMemory Int) : c.after m = m := by
  unfold after Tick.run
  rcases hfetch : c.access.fetch c.store with ⟨fault | s, store⟩
  · rfl
  · simp [snapshot?, hfetch, Except.toOption] at h

theorem after_of_fetched {c : Occasion σ} {s : Snapshot Int} (h : c.snapshot? = some s) (m : TickMemory Int) :
    c.after m = (Tick.decide c.setup (.ok c.now) s m).memory := by
  unfold after Tick.run
  rcases hfetch : c.access.fetch c.store with ⟨fault | s', store⟩
  · simp [snapshot?, hfetch, Except.toOption] at h
  · obtain rfl : s' = s := by simpa [snapshot?, hfetch, Except.toOption] using h
    dsimp only [Tick.proceed]
    cases (Tick.decide c.setup (.ok c.now) s' m).result <;> rfl

variable {capacity : Nat} {seen : List (String × Int)}

theorem after_keeps (reach : capacity ≤ capacityLimit) {m : TickMemory Int}
    (h : Tick.Keeps capacity seen m.tracker) (c : Occasion σ) :
    Tick.Keeps capacity (seen ++ c.recorded m) (c.after m).tracker := by
  unfold recorded
  cases hsnapshot : c.snapshot? with
  | none => simpa [after_of_failed hsnapshot m] using h
  | some s =>
      rw [after_of_fetched hsnapshot]
      exact Tick.decide_keeps reach h

/-- A run records what its ticks record, one after the other. -/
theorem foldl_after_keeps (reach : capacity ≤ capacityLimit) (cs : List (Occasion σ)) {m : TickMemory Int}
    (h : Tick.Keeps capacity seen m.tracker) :
    Tick.Keeps capacity (seen ++ recordings m cs) (cs.foldl after m).tracker := by
  induction cs generalizing m seen with
  | nil => simpa [recordings] using h
  | cons c cs ih => simpa [recordings] using ih (after_keeps reach h c)

/-! ## Gaps -/

theorem recorded_prefix_fetched (m : TickMemory Int) (c : Occasion σ) : c.recorded m <+: c.fetched := by
  unfold recorded fetched
  cases c.snapshot? with
  | none => exact List.prefix_rfl
  | some s =>
      dsimp only [Option.map_some, Option.getD_some, Tick.recorded]
      split
      · exact List.nil_prefix
      · exact (Tick.reached_prefix _ _ _).map _

/-- A tick records what it fetches exactly if it leaves no gap. -/
theorem attended_iff {m : TickMemory Int} {c : Occasion σ} : c.Attended m ↔ c.recorded m = c.fetched := by
  unfold Attended recorded fetched
  cases c.snapshot? with
  | none => simp
  | some s =>
      simp only [Option.some.injEq, forall_eq', Option.map_some, Option.getD_some, Tick.recorded]
      split
      · next hbots => simp [hbots, Snapshot.prices]
      · next hbots =>
          have hreached (instruments : List (Instrument Int)) (hsub : instruments <+: s.instruments) :
              (instruments.map fun i => (i.id, i.price)) = s.prices ↔ instruments = s.instruments := by
            -- What is recorded is an initial part of what is fetched, and all of it if it is as long.
            refine ⟨fun heq => hsub.eq_of_length ?_, fun heq => by rw [heq]; rfl⟩
            simpa [Snapshot.prices] using congrArg List.length heq
          rw [hreached _ (Tick.reached_prefix _ _ _), Tick.reached_eq_iff, List.all_eq_true]
          simp only [hbots, Tick.canVisit_iff, ne_eq, not_false_eq_true, true_and]
          constructor
          · intro h
            by_cases hnone : s.instruments = []
            · exact Or.inr (by rw [hnone]; rfl)
            · exact h hnone
          · exact fun h _ => h

theorem recorded_of_governed {c : Occasion σ} (h : c.Governed) (m : TickMemory Int) :
    c.recorded m = c.offered := by
  unfold recorded offered
  cases hsnapshot : c.snapshot? with
  | none => rfl
  | some s =>
      have hvisit : (Tick.scope c.setup s).bots.all
          (Tick.canVisit c.setup (Tick.scope c.setup s).ruleSets) = true :=
        List.all_eq_true.2 fun b hb => Tick.canVisit_iff.2 (h s hsnapshot b hb)
      simp only [Option.map_some, Option.getD_some, Tick.recorded, hvisit, Tick.reached_true]
      rfl

/-- Ticks that can visit their bots record the prices of those that are for some bot. -/
theorem recordings_of_governed {cs : List (Occasion σ)} (h : ∀ c ∈ cs, c.Governed) (m : TickMemory Int) :
    recordings m cs = cs.flatMap offered := by
  induction cs generalizing m with
  | nil => rfl
  | cons c cs ih =>
      rw [List.forall_mem_cons] at h
      rw [recordings, List.flatMap_cons, recorded_of_governed h.1, ih h.2]

theorem recordings_sublist (m : TickMemory Int) (cs : List (Occasion σ)) :
    (recordings m cs).Sublist (cs.flatMap fetched) := by
  induction cs generalizing m with
  | nil => exact List.Sublist.refl _
  | cons c cs ih => exact (recorded_prefix_fetched m c).sublist.append (ih (c.after m))

theorem recordings_eq_of_attended {m : TickMemory Int} {cs : List (Occasion σ)} (h : AllAttended m cs) :
    recordings m cs = cs.flatMap fetched := by
  induction cs generalizing m with
  | nil => rfl
  | cons c cs ih => rw [recordings, List.flatMap_cons, attended_iff.1 h.1, ih h.2]

theorem length_pricesOf_le {shorter longer : List (String × Int)} (h : shorter.Sublist longer) (id : String) :
    (pricesOf id shorter).length ≤ (pricesOf id longer).length :=
  ((h.filter _).map _).length_le

/-- A tick that leaves a gap misses some price. -/
theorem length_lt_of_not_attended {m : TickMemory Int} {c : Occasion σ} (gap : ¬c.Attended m) :
    ∃ id, (pricesOf id (c.recorded m)).length < (pricesOf id c.fetched).length := by
  rcases recorded_prefix_fetched m c with ⟨missed, hmissed⟩
  cases missed with
  | nil => exact absurd (attended_iff.2 (by rw [← hmissed, List.append_nil])) gap
  | cons e missed =>
      -- The first price that is missed is one that its instrument lacks.
      refine ⟨e.1, ?_⟩
      have hfirst : pricesOf e.1 [e] = [e.2] := by rw [PriceTracker.pricesOf_single, if_pos rfl]
      rw [← hmissed, PriceTracker.pricesOf_append, ← List.singleton_append, PriceTracker.pricesOf_append,
        hfirst, List.length_append, List.length_append, List.length_singleton]
      omega

/-- A run with a gap has recorded fewer prices of some instrument than it fetched. -/
theorem length_lt_of_gap {m : TickMemory Int} {cs : List (Occasion σ)} (gap : ¬AllAttended m cs) :
    ∃ id, (pricesOf id (recordings m cs)).length < (pricesOf id (cs.flatMap fetched)).length := by
  induction cs generalizing m with
  | nil => exact absurd trivial gap
  | cons c cs ih =>
      simp only [recordings, List.flatMap_cons, PriceTracker.pricesOf_append, List.length_append]
      -- The gap is here or further on, and elsewhere no more is recorded than is fetched.
      by_cases attended : c.Attended m
      · rcases ih fun h => gap ⟨attended, h⟩ with ⟨id, hlt⟩
        have hle := length_pricesOf_le (recorded_prefix_fetched m c).sublist id
        exact ⟨id, by omega⟩
      · rcases length_lt_of_not_attended attended with ⟨id, hlt⟩
        have hle := length_pricesOf_le (recordings_sublist (c.after m) cs) id
        exact ⟨id, by omega⟩

/-! ## Following -/

/-- A memory is that of a session that has followed a stream of prices: it has the last prices of every
instrument, and the pairs of the next tick, whichever that is, compare theirs with them. -/
structure Follows (capacity : Nat) (stream : List (String × Int)) (m : TickMemory Int) : Prop where
  keeps : Tick.Keeps capacity stream m.tracker
  next : ∀ setup now (snapshot : Snapshot Int), (snapshot.instruments.map (·.id)).Nodup →
    ∀ pair ∈ Tick.pairs setup now snapshot (.ofInts snapshot) m, pair.Compares capacity stream

theorem Follows.of_keeps {m : TickMemory Int} (h : Tick.Keeps capacity seen m.tracker) :
    Follows capacity seen m := by
  refine ⟨h, ?_⟩
  intro setup now snapshot distinct pair hpair
  have hcompares := Tick.pairsFrom_compares distinct h.records pair hpair
  rwa [h.capacity] at hcompares

/-- A new session with a history of a capacity in reach always follows the prices that its ticks record.
Where all bots can be visited these are the prices fetched by the ticks that are for some bot. So it follows
all prices that were fetched if no tick leaves a gap; and where there is room for all of them, only then. A
tick whose fetch fails changes nothing that is remembered. -/
theorem follows_iff_attended (reach : capacity ≤ capacityLimit) (random : RandomSource)
    (cs : List (Occasion σ)) :
    let m : TickMemory Int := ⟨{ capacity }, random⟩
    Follows capacity (recordings m cs) (cs.foldl after m) ∧
    ((∀ c ∈ cs, c.Governed) → Follows capacity (cs.flatMap offered) (cs.foldl after m)) ∧
    (AllAttended m cs → Follows capacity (cs.flatMap fetched) (cs.foldl after m)) ∧
    ((∀ id, (pricesOf id (cs.flatMap fetched)).length ≤ capacity) →
      Follows capacity (cs.flatMap fetched) (cs.foldl after m) → AllAttended m cs) ∧
    ∀ c : Occasion σ, c.snapshot? = none → ∀ m, c.after m = m := by
  intro m
  have hstart : Tick.Keeps capacity [] m.tracker := ⟨rfl, PriceTracker.records_new capacity⟩
  have hkeeps : Tick.Keeps capacity (recordings m cs) (cs.foldl after m).tracker :=
    foldl_after_keeps reach cs hstart
  refine ⟨.of_keeps hkeeps, ?_, ?_, ?_, fun c h m => after_of_failed h m⟩
  · intro governed
    exact .of_keeps (recordings_of_governed governed m ▸ hkeeps)
  · intro attended
    exact .of_keeps (recordings_eq_of_attended attended ▸ hkeeps)
  · intro room follows
    -- After a gap some instrument has fewer prices recorded than fetched.
    by_contra gap
    rcases length_lt_of_gap gap with ⟨id, hlt⟩
    -- Where all prices have room, a history has as many as were recorded.
    have hlength := congrArg List.length
      ((hkeeps.records.history id).symm.trans (follows.keeps.records.history id))
    rw [hkeeps.capacity, PriceTracker.length_lastOf, PriceTracker.length_lastOf] at hlength
    have hroom := room id
    omega

/-- A tick on a market with one price, for all bots there are. -/
def priced (bots : List (Bot Int)) (price : Int) : Occasion Unit where
  access := Tick.steady { bots, instruments := [{ id := "s1", symbol := "ACME", price }] }
  store := ()
  setup := { session := "s" }
  now := 0

/-- A bot without rules can be visited. -/
theorem governed_priced (price : Int) : (priced Tick.lone.bots price).Governed := by
  intro s hs b hb
  obtain rfl := Option.some.inj hs
  obtain rfl := List.mem_singleton.1 hb
  intro _ rules h
  cases h

/-- With a bot on the market both prices are kept, and the next is compared with the second. -/
theorem follows_iff_attended_twice :
    let cs := [priced Tick.lone.bots 100, priced Tick.lone.bots 90]
    200 ≤ capacityLimit ∧ (∀ c ∈ cs, c.Governed) ∧
    AllAttended ⟨{ capacity := 200 }, .script {}⟩ cs ∧
    (∀ id, (pricesOf id (cs.flatMap fetched)).length ≤ 200) ∧
    Follows 200 [("s1", 100), ("s1", 90)] (cs.foldl after ⟨{ capacity := 200 }, .script {}⟩) := by
  intro cs
  have hgoverned : ∀ c ∈ cs, c.Governed := by
    intro c hc
    rcases List.mem_pair.1 hc with rfl | rfl <;> exact governed_priced _
  have hroom (id : String) : (pricesOf id (cs.flatMap fetched)).length ≤ 200 := by
    have hall : (pricesOf id (cs.flatMap fetched)).length ≤ (cs.flatMap fetched).length := by
      rw [pricesOf, List.length_map]
      exact List.length_filter_le _ _
    exact hall.trans (by decide)
  have reach : 200 ≤ capacityLimit := by decide
  rcases follows_iff_attended reach (.script {}) cs with ⟨-, hoffered, -, hattended, -⟩
  have hfollows : Follows 200 [("s1", 100), ("s1", 90)] (cs.foldl after ⟨{ capacity := 200 }, .script {}⟩) :=
    hoffered hgoverned
  exact ⟨reach, hgoverned, hattended hroom hfollows, hroom, hfollows⟩

/-- Without a bot on the market its price is fetched and not recorded. -/
theorem unattended_leaves_gap :
    [priced [] 100].flatMap fetched = [("s1", 100)] ∧
    ([priced [] 100].foldl after ⟨{ capacity := 200 }, .script {}⟩).tracker.history "s1" = [] ∧
    ¬Follows 200 ([priced [] 100].flatMap fetched)
      ([priced [] 100].foldl after ⟨{ capacity := 200 }, .script {}⟩) := by
  refine ⟨rfl, rfl, ?_⟩
  intro follows
  have hhistory := follows.keeps.records.history "s1"
  have hkept : [] = lastOf 200 [(100 : Int)] := hhistory
  exact absurd hkept (by decide)

end Occasion

end RuleTrader
