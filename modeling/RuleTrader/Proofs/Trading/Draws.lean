import RuleTrader.Proofs.Trading.Conduct
import RuleTrader.Proofs.Trading.Idle

/-!
# What a tick draws

All pairs of a tick draw from one source. Each pair draws one number before its first evaluation, and every
evaluation of the pair sees this number (`Pair.Draws`). Only a decision that trades can draw more: a quantity
if its size is no finite number, and then a number for the price if the parameters name none and the bot's
preset is the random one (`Decision.draws`). So the draws of a tick are those of its pairs in turn, and the
pairs are the observed instruments with the bots that have rules. A bot without rules draws nothing, and
nothing else in the tick changes with it.
-/

namespace RuleTrader

/-! ## Draws -/

/-- The two kinds of draws: a number between `0` and `1`, and a quantity. -/
inductive Draw where
  | unit
  | quantity
  deriving DecidableEq

namespace RandomSource

/-- What a draw leaves of a source. -/
def drawn (random : RandomSource) : Draw → RandomSource
  | .unit => random.unit.2
  | .quantity => (random.between Terms.drawnQuantity.1 Terms.drawnQuantity.2).2

/-- What draws in turn leave of a source. -/
def after (random : RandomSource) (ds : List Draw) : RandomSource := ds.foldl drawn random

theorem after_append (random : RandomSource) (first second : List Draw) :
    random.after (first ++ second) = (random.after first).after second :=
  List.foldl_append

end RandomSource

/-- Whether a value is a finite number. -/
def Value.isFiniteNumber : Value → Bool
  | .number x => x.isFinite.toOption.getD false
  | .null | .bool _ | .text _ | .bytes _ | .list _ | .row _ | .record _ => false

namespace Decision

/-- Whether the parameters name a price: the one of the market, or one that a finite number gives. -/
def namesPrice (d : Decision) : Bool :=
  match d.parameter "limitPriceType" with
  | .text kind => kind == "market" ||
      (kind ∈ ["absoluteCents", "offsetAbsolute", "offsetPct"] && (d.parameter "limitPriceValue").isFiniteNumber)
  | .null | .bool _ | .number _ | .bytes _ | .list _ | .row _ | .record _ => false

/-- What the terms of a decision draw: a quantity unless the size is a finite number, and then a number for
the price if none is named and the preset is the random one. -/
def draws (d : Decision) (preset : Preset) : List Draw :=
  (if (d.parameter "sizePct").isFiniteNumber then [] else [.quantity]) ++
    if d.namesPrice = false ∧ preset = .random then [.unit] else []

end Decision

namespace Terms

variable {d : Decision} {side : Side} {random random' : RandomSource}

theorem isFiniteNumber_of_finiteNumber? {v : Value} {x? : Option Number} (h : finiteNumber? v = .ok x?) :
    v.isFiniteNumber = x?.isSome := by
  cases v with
  | number x =>
      rcases bind_ok h with ⟨finite, hfinite, h⟩
      cases finite <;> cases h <;> simp [Value.isFiniteNumber, hfinite, Except.toOption]
  | null | bool _ | text _ | bytes _ | list _ | row _ | record _ =>
      cases h
      rfl

theorem finiteNumber?_of_finite {x : Number} (h : x.Finite) : finiteNumber? (.number x) = .ok (some x) := by
  show (do if ← x.isFinite then return some x else return none) = _
  rw [h]
  rfl

theorem quantity_random {α : Type} [Amount α] {balance price shares : α} {n : Int}
    (h : quantity d side balance price shares random = (.ok n, random')) :
    random' = random.after (if (d.parameter "sizePct").isFiniteNumber then [] else [.quantity]) := by
  unfold quantity at h
  cases hsize : finiteNumber? (d.parameter "sizePct") with
  | error fault => simp [hsize] at h
  | ok percent? =>
      rw [isFiniteNumber_of_finiteNumber? hsize]
      simp only [hsize] at h
      cases percent? with
      | none => exact (Prod.mk.inj h).2.symm
      | some percent => exact (Prod.mk.inj h).2.symm

theorem isSome_namedPrice? {value? : Option Number} (price : Int)
    (hvalue : (d.parameter "limitPriceValue").isFiniteNumber = value?.isSome) :
    (namedPrice? (d.parameter "limitPriceType") value? price).isSome = d.namesPrice := by
  unfold namedPrice? Decision.namesPrice
  rw [hvalue]
  cases d.parameter "limitPriceType" with
  | text kind => cases value? <;> split <;> simp_all
  | null | bool _ | number _ | bytes _ | list _ | row _ | record _ => cases value? <;> rfl

theorem limitPrice_random {preset? : Option String} {current price : Int}
    (h : limitPrice d side preset? current random = (.ok price, random')) :
    random' = random.after (if d.namesPrice = false ∧ Preset.ofName preset? = .random then [.unit] else []) := by
  unfold limitPrice at h
  cases hvalue : finiteNumber? (d.parameter "limitPriceValue") with
  | error fault => simp [hvalue] at h
  | ok value? =>
      have hnames := isSome_namedPrice? current (isFiniteNumber_of_finiteNumber? hvalue)
      simp only [hvalue] at h
      -- A named price draws nothing; without one it is the preset that may.
      cases hnamed : namedPrice? (d.parameter "limitPriceType") value? current with
      | some result =>
          rw [hnamed] at h hnames
          rw [if_neg (by simp [← hnames])]
          exact (Prod.mk.inj h).2.symm
      | none =>
          rw [hnamed] at h hnames
          have hunnamed : d.namesPrice = false := by simpa using hnames.symm
          simp only [hunnamed, true_and]
          cases hpreset : Preset.ofName preset? with
          | momentum | swing =>
              simp only [hpreset] at h
              exact (Prod.mk.inj h).2.symm
          | random =>
              simp only [hpreset, presetPrice, randomPrice] at h
              cases hbuffer : scaled current randomSpread with
              | error fault => simp [hbuffer] at h
              | ok buffer =>
                  simp only [hbuffer] at h
                  exact (Prod.mk.inj h).2.symm

end Terms

/-! ## One pair -/

namespace Pair

variable {pair : Pair Int} {s t u : TradeState Int} {facts : Facts}

/-- What a pair draws once no order of it is open. -/
def creationDraws (pair : Pair Int) : Option Decision → List Draw
  | none => []
  | some d =>
    match d.action with
    | .cancel => []
    | .buy | .sell => d.draws (.ofName pair.bot.preset?)

theorem HasTerms.random_eq {d : Decision} {side : Side} {quantity price : Int} {random : RandomSource}
    (h : pair.HasTerms u d side quantity price random) :
    random = u.random.after (pair.creationDraws (some d)) := by
  rcases h.resolved with ⟨drawn, hquantity, hprice⟩
  have hdraws : pair.creationDraws (some d) = d.draws (.ofName pair.bot.preset?) := by
    cases side <;> simp [creationDraws, h.action, tradeOn]
  rw [hdraws, Decision.draws, RandomSource.after_append, ← Terms.quantity_random hquantity]
  exact Terms.limitPrice_random hprice

theorem Creates.random_eq {d? : Option Decision} {made : Option (NewOrder Int)}
    (h : pair.Creates u d? made t) : t.random = u.random.after (pair.creationDraws d?) := by
  cases h with
  | nothing => rfl
  | cancel action => simp [creationDraws, action, RandomSource.after]
  | bought terms affordable => exact terms.random_eq
  | tooDear terms short => exact terms.random_eq
  | sold terms held => exact terms.random_eq
  | notHeld terms short => exact terms.random_eq

/-- The number that a pair draws before its first evaluation, as its rules see it. -/
def chance (s : TradeState Int) : Value := .float (s.random.unit.1 * 100)

/-- A pair comes to a result and draws `ds`: first one number, which all its evaluations see, and only if it
comes to decide on a new order what that decision draws. -/
structure Draws (pair : Pair Int) (s : TradeState Int) (ds : List Draw) (facts : Facts) (vs : List Visit)
    (u : TradeState Int) (made : Option (NewOrder Int)) (t : TradeState Int) : Prop where
  result : pair.process s = (.ok made, t)
  conduct : pair.Conduct s facts vs u made t
  /-- Every visit of an open order sees the number. -/
  visits : ∀ v ∈ vs, Table.get? v.facts Fact.chance = some (chance s)
  /-- So does the decision on a new order. -/
  creation : ∀ balance : Int, Table.get? (PairFacts.withBalance facts balance) Fact.chance = some (chance s)
  /-- If an order survives, nothing else is drawn. -/
  survived : (∃ v ∈ vs, v.tells = false) → ds = [.unit]
  /-- Otherwise what is decided then draws. -/
  created : (∀ v ∈ vs, v.tells = true) →
    ∃ d?, Rule.decide? (PairFacts.withBalance facts (u.balance pair.bot.id)) pair.rules = .ok d? ∧
      ds = .unit :: pair.creationDraws d?
  /-- The source is left as these draws leave it. -/
  random : t.random = s.random.after ds

theorem keys_ofOrder {α : Type} [Amount α] {o : Order α} {current : α} {now : Micros} {tickInterval : Value}
    {own : List (String × Value)} (h : PairFacts.ofOrder o current now tickInterval = .ok own) :
    Table.keys own = ["orderPrice", "orderAge", "orderDeviation"] := by
  rcases bind_ok h with ⟨age, -, h⟩
  rcases bind_ok h with ⟨deviation, -, h⟩
  cases h
  rfl

/-- Building the facts draws one number. -/
theorem random_of_built (h : (pair.buildFacts s).1 = .ok facts) :
    (pair.buildFacts s).2.random = s.random.unit.2 := by
  unfold buildFacts PairFacts.build at h ⊢
  cases hplain : PairFacts.plain pair (s.balance pair.bot.id) with
  | error fault => simp [hplain] at h
  | ok known =>
      dsimp only
      cases PairFacts.indicators pair <;> rfl

theorem Conduct.visits_chance {vs : List Visit} {made : Option (NewOrder Int)}
    (conduct : pair.Conduct s facts vs u made t) {v : Visit} (hv : v ∈ vs) :
    Table.get? v.facts Fact.chance = some (chance s) := by
  rcases List.append_of_mem hv with ⟨before, after, hsplit⟩
  rcases (conduct.sees before v after hsplit).facts_eq with ⟨own, hown, hfacts⟩
  -- Neither the facts of an order nor the balance, put on top, hide the number.
  have hnot : Fact.chance ∉ Table.keys own := by
    rw [keys_ofOrder hown]
    decide
  have hbalance : "availableBalance" ≠ Fact.chance := by decide
  rw [hfacts, PairFacts.withBalance, Table.get?_put_of_ne _ _ hbalance, Table.get?_putAll_of_not_mem hnot]
  exact (get?_of_built conduct.built 0 rfl).1

/-- A pair that comes to a result draws as it should. -/
theorem process_draws (own : ∀ o ∈ pair.orders, o.botId = pair.bot.id) {made : Option (NewOrder Int)}
    (h : pair.process s = (.ok made, t)) : ∃ ds facts vs u, pair.Draws s ds facts vs u made t := by
  rcases process_conduct own h with ⟨facts, vs, u, conduct⟩
  have hrandom : u.random = s.random.after [.unit] :=
    conduct.cancelled.random.trans (random_of_built conduct.built)
  have hvisits : ∀ v ∈ vs, Table.get? v.facts Fact.chance = some (chance s) :=
    fun v hv => conduct.visits_chance hv
  have hcreation : ∀ balance : Int,
      Table.get? (PairFacts.withBalance facts balance) Fact.chance = some (chance s) :=
    fun balance => (get?_of_built conduct.built balance rfl).2
  -- A new order is decided on only if every open one is told to be cancelled.
  by_cases htells : ∀ v ∈ vs, v.tells = true
  · rcases conduct.created htells with ⟨d?, hdecide, creates⟩
    refine ⟨.unit :: pair.creationDraws d?, facts, vs, u, h, conduct, hvisits, hcreation, ?_,
      fun _ => ⟨d?, hdecide, rfl⟩, ?_⟩
    · rintro ⟨v, hv, hsurvives⟩
      rw [htells v hv] at hsurvives
      cases hsurvives
    · rw [creates.random_eq, hrandom, ← RandomSource.after_append, List.singleton_append]
  · have hsurvives : ∃ v ∈ vs, v.tells = false := by simpa using htells
    refine ⟨[.unit], facts, vs, u, h, conduct, hvisits, hcreation, fun _ => rfl,
      fun hall => absurd hall htells, ?_⟩
    rw [(conduct.survived hsurvives).2, hrandom]

end Pair

/-! ## Pairs in turn -/

namespace Pair

/-- Pairs come to results in turn, and what they draw is what each of them draws. -/
inductive DrawInTurn : List (Pair Int) → TradeState Int → List Draw → TradeState Int → Prop
  | nil (s : TradeState Int) : DrawInTurn [] s [] s
  | cons {pair : Pair Int} {pairs : List (Pair Int)} {s t w : TradeState Int} {ds rest : List Draw}
      {facts : Facts} {vs : List Visit} {u : TradeState Int} {made : Option (NewOrder Int)}
      (first : pair.Draws s ds facts vs u made t) (others : DrawInTurn pairs t rest w) :
      DrawInTurn (pair :: pairs) s (ds ++ rest) w

theorem DrawInTurn.random {pairs : List (Pair Int)} {s t : TradeState Int} {ds : List Draw}
    (h : DrawInTurn pairs s ds t) : t.random = s.random.after ds := by
  induction h with
  | nil s => rfl
  | cons first others ih => rw [ih, first.random, RandomSource.after_append]

/-- If none of them fails, pairs draw in turn. -/
theorem drawInTurn_of_no_failure {pairs : List (Pair Int)}
    (own : ∀ pair ∈ pairs, ∀ o ∈ pair.orders, o.botId = pair.bot.id) {s : TradeState Int}
    (h : failures pairs s = 0) : ∃ ds, DrawInTurn pairs s ds (pairs.foldl pass s) := by
  induction pairs generalizing s with
  | nil => exact ⟨[], .nil s⟩
  | cons pair pairs ih =>
      rw [List.forall_mem_cons] at own
      rw [failures, Nat.add_eq_zero_iff] at h
      cases hresult : (pair.process s).1 with
      | error fault => simp [hresult] at h
      | ok made =>
          have hprocess : pair.process s = (.ok made, pass s pair) := Prod.ext hresult rfl
          rcases process_draws own.1 hprocess with ⟨ds, facts, vs, u, first⟩
          rcases ih own.2 h.2 with ⟨rest, others⟩
          exact ⟨ds ++ rest, .cons first others⟩

end Pair

/-! ## A tick -/

namespace Tick

/-- The pairs of a tick are its observed instruments with the bots that have rules, or the first of these
if something stops it: a price that is not recorded, or rules that are not usable. If no pair fails, each
draws one number before its first evaluation, which all its evaluations see, and after that only what
the terms of a new order need; the tick draws nothing else. Bots without rules change neither what is drawn
nor what is decided. -/
theorem one_draw_per_pair (setup : TickSetup) (now : Micros) (snapshot : Snapshot Int) (m : TickMemory Int) :
    (let visited := (pairsOf setup now snapshot m).map fun pair => (pair.instrument, pair.bot)
      let places :=
        (observedBefore (m.tracker.lastPrices.has ·) (scope setup snapshot).instruments).flatMap fun i =>
          (driven setup (scope setup snapshot).ruleSets (scope setup snapshot).bots).map fun bot => (i, bot)
      visited <+: places ∧
      ((∀ i ∈ (scope setup snapshot).instruments, m.tracker.Accepts i.id) →
        (∀ bot ∈ (scope setup snapshot).bots,
          Governed setup bot.strategyId? (scope setup snapshot).ruleSets) → visited = places)) ∧
    ((loopOf setup now snapshot m).pairErrors = 0 →
      ∃ ds, Pair.DrawInTurn (pairsOf setup now snapshot m) (leftBy setup now snapshot m 0) ds
          (leftBy setup now snapshot m (pairsOf setup now snapshot m).length) ∧
        (decide setup (.ok now) snapshot m).memory.random = m.random.after ds) ∧
    ∀ other : Snapshot Int, SameDriven setup (scope setup snapshot) (scope setup other) →
      ((scope setup snapshot).bots.map (·.id)).Nodup → ((scope setup other).bots.map (·.id)).Nodup →
      DecideAlike setup now m snapshot other := by
  refine ⟨⟨prefix_places_pairsFrom _ _ _, fun accepts governed => ?_⟩, fun calm => ?_,
    fun other same distinct distinct' => decideAlike_of_sameDriven now m same distinct distinct'⟩
  · exact places_pairsFrom accepts (List.all_eq_true.2 fun bot hbot => canVisit_iff.2 (governed bot hbot))
  · have hfollows := runPairs_follows setup now (scope setup snapshot) m
    have hcalm : Pair.failures (pairsOf setup now snapshot m) (leftBy setup now snapshot m 0) = 0 :=
      (Nat.add_eq_zero_iff.1 (hfollows.pairErrors.symm.trans calm)).2
    rcases Pair.drawInTurn_of_no_failure (fun pair hpair => own_of_mem_pairs hpair) hcalm with ⟨ds, hdraws⟩
    have hlast : leftBy setup now snapshot m (pairsOf setup now snapshot m).length =
        (pairsOf setup now snapshot m).foldl Pair.pass (leftBy setup now snapshot m 0) := by
      rw [leftBy, List.take_length]
      rfl
    rw [(decide_of_loop setup now snapshot m).1, (loopOf_even setup now snapshot m).random, hlast]
    exact ⟨ds, hdraws, hdraws.random⟩

/-- A bot that buys by chance, at a price that is drawn. -/
def gambler : Bot Int :=
  { id := "b2", balance := 500, strategyId? := some "luck", preset? := some " Random" }

/-- The gambler alone, with an order resting. -/
def casino : Snapshot Int where
  bots := [gambler]
  instruments := alone.instruments
  orders := [{ id := "o2", instrumentId := "i1", botId := "b2", side := .sell, limitPrice := 11,
               quantity := 1, createdAt := 0 }]
  ruleSets := [("luck", .entries [.ready cancelAny,
    .ready ⟨.allOf [.chance "currentPrice" (.int 100)], ⟨.buy, []⟩, 1⟩])]

/-- The gambler between two bots without rules, one of which has an order. -/
def busyCasino : Snapshot Int where
  bots := [{ id := "b0", balance := 10 }, gambler, { id := "b9", balance := 0, strategyId? := some "gone" }]
  instruments := casino.instruments
  orders := { id := "o0", instrumentId := "i1", botId := "b0", side := .buy, limitPrice := 9, quantity := 1,
              createdAt := 0 } :: casino.orders
  ruleSets := casino.ruleSets

/-- There is one pair. It draws its number, a quantity and a number for the price, as if it were alone. -/
theorem one_draw_per_pair_casino :
    (∀ i ∈ (scope { session := "s" } busyCasino).instruments, risen.tracker.Accepts i.id) ∧
      (∀ bot ∈ busyCasino.bots, Governed { session := "s" } bot.strategyId? busyCasino.ruleSets) ∧
      (pairsOf { session := "s" } 0 busyCasino risen).map (fun pair => (pair.instrument.id, pair.bot.id)) =
        [("i1", "b2")] ∧
      (loopOf { session := "s" } 0 busyCasino risen).pairErrors = 0 ∧
      (decide { session := "s" } (.ok 0) busyCasino risen).memory.random.draws? = some (2, 1) ∧
      (∃ ds, Pair.DrawInTurn (pairsOf { session := "s" } 0 busyCasino risen)
          (leftBy { session := "s" } 0 busyCasino risen 0) ds (leftBy { session := "s" } 0 busyCasino risen 1) ∧
        (decide { session := "s" } (.ok 0) busyCasino risen).memory.random = risen.random.after ds) ∧
      SameDriven { session := "s" } busyCasino casino ∧
      DecideAlike { session := "s" } 0 risen busyCasino casino := by
  have accepts : ∀ i ∈ (scope { session := "s" } busyCasino).instruments, risen.tracker.Accepts i.id :=
    fun _ _ => Or.inr (by decide)
  have husable : ∀ bot ∈ busyCasino.bots,
      fault? (checkedRules none bot.strategyId? busyCasino.ruleSets) = none := by decide +kernel
  have governed : ∀ bot ∈ busyCasino.bots,
      Governed { session := "s" } bot.strategyId? busyCasino.ruleSets :=
    fun bot hbot => governed_iff.2 (fault?_eq_none.1 (husable bot hbot))
  have calm : (loopOf { session := "s" } 0 busyCasino risen).pairErrors = 0 := by decide +kernel
  have same : SameDriven { session := "s" } busyCasino casino := by
    have hbots : driven { session := "s" } busyCasino.ruleSets busyCasino.bots = [gambler] := by
      decide +kernel
    have hbots' : driven { session := "s" } casino.ruleSets casino.bots = [gambler] := by decide +kernel
    refine ⟨rfl, rfl, hbots.trans hbots'.symm, fun _ _ => rfl, ?_, ?_⟩
    · rw [hbots]
      exact fun bot hbot instrumentId => by
        obtain rfl := List.mem_singleton.1 hbot
        rfl
    · exact fun _ _ _ => rfl
  rcases one_draw_per_pair { session := "s" } 0 busyCasino risen with ⟨hplaces, hdraws, hidle⟩
  have hplaces := congrArg (List.map fun place => (place.1.id, place.2.id)) (hplaces.2 accepts governed)
  rw [List.map_map] at hplaces
  have hlength : (pairsOf { session := "s" } 0 busyCasino risen).length = 1 := by decide +kernel
  refine ⟨accepts, governed, hplaces.trans (by decide +kernel), calm, by decide +kernel, hlength ▸ hdraws calm,
    same, hidle casino same (by decide) (by decide)⟩

end Tick

end RuleTrader
