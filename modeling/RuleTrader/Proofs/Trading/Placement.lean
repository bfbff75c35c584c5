import Mathlib.Data.List.Nodup
import Mathlib.Data.List.ProdSigma
import RuleTrader.Proofs.Market.Organized
import RuleTrader.Proofs.Trading.Loop

/-!
# What a tick places

A tick places at most one order for a bot in an instrument, and places it only when the same batch
cancels every open order that the bot has there. Only one visit of a pair can place anything, and the
loop visits a pair once. A sell order is for no more shares than the snapshot reports.
-/

namespace RuleTrader

variable {α : Type} [Amount α]

/-! ## Places -/

namespace NewOrder

/-- The instrument and the bot of a new order. -/
def place (o : NewOrder α) : String × String := (o.instrumentId, o.botId)

end NewOrder

/-- Orders were placed in some of the given places, in their order and once in each. -/
def Places (places : List (String × String)) (s t : TradeState α) : Prop :=
  ∃ used, used.Sublist places ∧
    t.batch.newOrders.map (·.place) = s.batch.newOrders.map (·.place) ++ used

namespace Places

variable {first second : List (String × String)} {s t u : TradeState α}

omit [Amount α] in
theorem nothing (h : t.batch.newOrders = s.batch.newOrders) : Places first s t :=
  ⟨[], List.nil_sublist _, by simp [h]⟩

omit [Amount α] in
theorem append (h₁ : Places first s t) (h₂ : Places second t u) :
    Places (first ++ second) s u := by
  rcases h₁ with ⟨used₁, hsub₁, heq₁⟩
  rcases h₂ with ⟨used₂, hsub₂, heq₂⟩
  exact ⟨used₁ ++ used₂, hsub₁.append hsub₂, by rw [heq₂, heq₁, List.append_assoc]⟩

omit [Amount α] in
theorem of_append_left (second : List (String × String)) (h : Places first s t) :
    Places (first ++ second) s t := by
  rcases h with ⟨used, hsub, heq⟩
  exact ⟨used, hsub.trans (List.sublist_append_left _ _), heq⟩

omit [Amount α] in
theorem of_newOrders_eq {s' t' : TradeState α} (h : Places first s t)
    (hs : s'.batch.newOrders = s.batch.newOrders) (ht : t'.batch.newOrders = t.batch.newOrders) :
    Places first s' t' := by
  rcases h with ⟨used, hsub, heq⟩
  exact ⟨used, hsub, by rw [ht, hs, heq]⟩

end Places

/-! ## One pair -/

namespace TradeState

theorem cancel_newOrders (s : TradeState α) (o : Order α) :
    (s.cancel o).2.batch.newOrders = s.batch.newOrders := by
  unfold cancel
  by_cases hmarked : o.id ∈ s.batch.cancelIds
  · rw [if_pos hmarked]
  · simp only [hmarked, if_false]
    cases o.side with
    | sell => rfl
    | buy => cases s.refunded o <;> rfl

theorem cancelAll_newOrders (os : List (Order α)) (s : TradeState α) :
    (cancelAll os s).2.batch.newOrders = s.batch.newOrders := by
  induction os generalizing s with
  | nil => rfl
  | cons o os ih =>
      have hfirst := s.cancel_newOrders o
      unfold cancelAll
      rcases hcancel : s.cancel o with ⟨fault | _, t⟩
      · rw [hcancel] at hfirst
        exact hfirst
      · rw [hcancel] at hfirst
        exact (ih t).trans hfirst

end TradeState

namespace Pair

variable {pair : Pair α} {s t : TradeState α}

theorem cancelIfTold_newOrders (pair : Pair α) (facts : Facts) (o : Order α) (s : TradeState α) :
    (pair.cancelIfTold facts o s).2.batch.newOrders = s.batch.newOrders := by
  unfold cancelIfTold
  cases pair.orderDecision? facts s o with
  | error fault => rfl
  | ok d? =>
      cases hcancel : isCancel d? with
      | false => simp [hcancel]
      | true => simpa [hcancel] using s.cancel_newOrders o

theorem cancelOrders_newOrders (pair : Pair α) (facts : Facts) (os : List (Order α))
    (s : TradeState α) :
    (pair.cancelOrders facts os s).2.batch.newOrders = s.batch.newOrders := by
  induction os generalizing s with
  | nil => rfl
  | cons o os ih =>
      have hfirst := pair.cancelIfTold_newOrders facts o s
      unfold cancelOrders
      rcases hcancel : pair.cancelIfTold facts o s with ⟨fault | survives, t⟩
      · rw [hcancel] at hfirst
        exact hfirst
      · rw [hcancel] at hfirst
        exact (ih t).trans hfirst

/-- A move places nothing or one order, and that one only when every order of the pair is marked. -/
theorem Move.newOrders_cases (h : pair.Move s t) :
    t.batch.newOrders = s.batch.newOrders ∨
      ∃ o, pair.Offer o ∧ pair.AllMarked s ∧ t.batch = (s.addOrder o).batch ∧
        (o.side = .sell → Amount.lt pair.shares (Amount.ofInt o.quantity) = .ok false) := by
  cases h with
  | quiet _ batch => exact Or.inl (by rw [batch])
  | mark _ _ _ _ batch => exact Or.inl (by rw [batch]; rfl)
  | refund _ _ _ _ _ batch => exact Or.inl (by rw [batch]; rfl)
  | buy offer side marked _ _ _ _ batch =>
      exact Or.inr ⟨_, offer, marked, batch, fun hsell => by rw [side] at hsell; cases hsell⟩
  | sell offer _ marked held _ batch => exact Or.inr ⟨_, offer, marked, batch, fun _ => held⟩

/-- The place of a pair. -/
def places (pair : Pair α) : List (String × String) := [(pair.instrument.id, pair.bot.id)]

theorem Move.places (h : pair.Move s t) : Places pair.places s t := by
  rcases h.newOrders_cases with hsame | ⟨o, offer, -, hbatch, -⟩
  · exact .nothing hsame
  · exact ⟨pair.places, List.Sublist.refl _, by
      simp [hbatch, TradeState.addOrder, NewOrder.place, Pair.places, offer.instrument, offer.bot]⟩

theorem create_places (facts : Facts) (marked : pair.AllMarked s) :
    Places pair.places s (pair.create facts s).2 := by
  unfold create
  cases Rule.decide? (PairFacts.withBalance facts (s.balance pair.bot.id)) pair.rules with
  | error fault => exact .nothing rfl
  | ok decision? =>
      cases decision? with
      | none => exact .nothing rfl
      | some decision =>
          dsimp only
          cases haction : decision.action with
          | cancel => exact .nothing (TradeState.cancelAll_newOrders pair.orders s)
          | buy => exact (trade_move marked decision .buy).places
          | sell => exact (trade_move marked decision .sell).places

/-- Processing a pair places at most one order. -/
theorem process_places (pair : Pair α) (s : TradeState α) :
    Places pair.places s (pair.process s).2 := by
  unfold process
  rcases hbuild : pair.buildFacts s with ⟨fault | facts, t⟩
  · exact .nothing (by simpa [buildFacts] using congrArg (·.2.batch.newOrders) hbuild.symm)
  · have hfacts : t.batch.newOrders = s.batch.newOrders := by
      simpa [buildFacts] using congrArg (·.2.batch.newOrders) hbuild.symm
    have hpass := pair.cancelOrders_newOrders facts pair.orders t
    dsimp only
    rcases hcancel : pair.cancelOrders facts pair.orders t with ⟨fault | survivors, u⟩
    · rw [hcancel] at hpass
      exact .nothing (hpass.trans hfacts)
    · rw [hcancel] at hpass
      cases survivors with
      | nil =>
          have marked : pair.AllMarked u :=
            mem_cancelIds_cancelOrders (List.Subset.refl pair.orders) hcancel
          exact (create_places facts marked).of_newOrders_eq (hpass.trans hfacts).symm rfl
      | cons o os => exact .nothing (hpass.trans hfacts)

end Pair

/-! ## The loop over pairs -/

namespace Tick

variable {setup : TickSetup} {snapshot : Snapshot α} {data : Organized α} {now : Micros}

theorem runPair_places (setup : TickSetup) (pair : Pair α) (s : TickState α) :
    Places pair.places s.trade (runPair setup pair s).trade := by
  have hprocess := pair.process_places s.trade
  unfold runPair
  split
  · next hpair =>
      rw [hpair] at hprocess
      exact hprocess
  · next hpair =>
      rw [hpair] at hprocess
      exact hprocess

theorem visitBot_places (instrument : Instrument α) (price : PriceContext α) (bot : Bot α)
    (s : TickState α) : Places [(instrument.id, bot.id)] s.trade
      (visitBot setup data now instrument price bot s).2.trade := by
  have hrules : (rulesFor setup bot data.ruleSets s).2.trade.batch = s.trade.batch :=
    (rulesFor_keeps setup bot data.ruleSets s).2.1
  unfold visitBot
  rcases hfor : rulesFor setup bot data.ruleSets s with ⟨fault | _ | rules, t⟩
  · rw [hfor] at hrules
    exact .nothing (by rw [hrules])
  · rw [hfor] at hrules
    exact .nothing (by rw [hrules])
  · rw [hfor] at hrules
    have hpair := runPair_places setup (pairOf setup data now instrument price bot rules) t
    exact hpair.of_newOrders_eq (by rw [← hrules]) rfl

theorem visitEach_places (instrument : Instrument α) (price : PriceContext α) (bots : List (Bot α))
    (s : TickState α) : Places (bots.map fun bot => (instrument.id, bot.id)) s.trade
      (visitEach setup data now instrument price bots s).2.trade := by
  induction bots generalizing s with
  | nil => exact .nothing rfl
  | cons bot bots ih =>
      have hfirst : Places [(instrument.id, bot.id)] s.trade
          (visitBot setup data now instrument price bot s).2.trade :=
        visitBot_places instrument price bot s
      unfold visitEach
      rcases hvisit : visitBot setup data now instrument price bot s with ⟨_ | _, t⟩
      · -- Where the loop is stopped, the places of the other bots are left unused.
        rw [hvisit] at hfirst
        exact hfirst.of_append_left _
      · rw [hvisit] at hfirst
        exact hfirst.append (ih t)

theorem visitInstrument_places (setup : TickSetup) (data : Organized α) (now : Micros)
    (bots : List (Bot α)) (instrument : Instrument α) (s : TickState α) :
    Places (bots.map fun bot => (instrument.id, bot.id)) s.trade
      (visitInstrument setup data now bots instrument s).2.trade := by
  unfold visitInstrument visitBots
  split
  · exact .nothing rfl
  · split
    · exact .nothing rfl
    · split
      · exact .nothing rfl
      · exact visitEach_places instrument _ bots _

theorem visitInstruments_places (setup : TickSetup) (data : Organized α) (now : Micros)
    (bots : List (Bot α)) (instruments : List (Instrument α)) (s : TickState α) :
    Places (instruments.flatMap fun instrument => bots.map fun bot => (instrument.id, bot.id))
      s.trade (visitInstruments setup data now bots instruments s).2.trade := by
  induction instruments generalizing s with
  | nil => exact .nothing rfl
  | cons instrument rest ih =>
      have hfirst := visitInstrument_places setup data now bots instrument s
      unfold visitInstruments
      rcases hvisit : visitInstrument setup data now bots instrument s with ⟨_ | _, t⟩
      · -- A loop that is stopped leaves the places of the other instruments unused.
        rw [hvisit] at hfirst
        exact hfirst.of_append_left _
      · rw [hvisit] at hfirst
        exact hfirst.append (ih t)

theorem runPairs_places (setup : TickSetup) (data : Organized α) (now : Micros)
    (m : TickMemory α) (hbots : (snapshot.bots.map (·.id)).Nodup)
    (hinstruments : (snapshot.instruments.map (·.id)).Nodup) :
    ((runPairs setup now snapshot data m).2.trade.batch.newOrders.map (·.place)).Nodup := by
  have hplaces := visitInstruments_places setup data now snapshot.bots snapshot.instruments
    (start data m)
  rcases hplaces with ⟨used, hsub, heq⟩
  -- The places of the loop are the pairs of two lists without repetition.
  have hproduct : (snapshot.instruments.flatMap fun instrument =>
      snapshot.bots.map fun bot => (instrument.id, bot.id)) =
      (snapshot.instruments.map (·.id)) ×ˢ (snapshot.bots.map (·.id)) := by
    simp [List.product, SProd.sprod, List.flatMap_map, List.map_map, Function.comp_def]
  have hused : (start data m).trade.batch.newOrders.map (·.place) ++ used = used := rfl
  rw [runPairs, heq, hused]
  exact (hproduct ▸ hinstruments.product hbots).sublist hsub

/-! ## Guards -/

/-- What an order of a batch was placed under: it belongs to a bot of the snapshot, every open order
that the snapshot has in its place is cancelled by the same batch, and a sell order is for no more
shares than are held. -/
structure Guarded (snapshot : Snapshot α) (data : Organized α) (cancelIds : List String)
    (o : NewOrder α) : Prop where
  opened : o.status = .opened
  bot : o.botId ∈ snapshot.bots.map (·.id)
  cleared : ∀ x ∈ snapshot.openOrders o.botId o.instrumentId, x.id ∈ cancelIds
  held : o.side = .sell → Amount.lt (α := α) (Amount.ofInt (data.sharesOwned o.botId o.instrumentId))
    (Amount.ofInt o.quantity) = .ok false

theorem Guarded.mono {ids ids' : List String} {o : NewOrder α} (hids : ids ⊆ ids')
    (h : Guarded snapshot data ids o) : Guarded snapshot data ids' o :=
  ⟨h.opened, h.bot, fun x hx => hids (h.cleared x hx), h.held⟩

/-- Every move keeps the guards: marks stay, and a new order is placed when all is marked. -/
theorem Guarded.step {s t : TradeState α} (hdata : Organized.ofSnapshot snapshot = .ok data)
    (hmove : Move snapshot data s t)
    (h : ∀ o ∈ s.batch.newOrders, Guarded snapshot data s.batch.cancelIds o) :
    ∀ o ∈ t.batch.newOrders, Guarded snapshot data t.batch.cancelIds o := by
  cases hmove with
  | between balances batch => rwa [batch]
  | @ofPair pair visits move =>
      -- Marks are never taken back, so what was guarded stays guarded.
      have hids := move.cancelIds_subset
      rcases move.newOrders_cases with hsame | ⟨n, offer, marked, hbatch, hheld⟩
      · rw [hsame]
        exact fun o ho => (h o ho).mono hids
      · intro o ho
        rw [hbatch] at ho
        rcases List.mem_append.1 ho with ho | ho
        · exact (h o ho).mono hids
        · obtain rfl := List.mem_singleton.1 ho
          refine ⟨offer.opened, offer.bot ▸ List.mem_map_of_mem visits.bot, ?_, ?_⟩
          · -- The open orders of the place are those of the pair, and all of them are marked.
            intro x hx
            rw [offer.bot, offer.instrument, ← visits.orders_eq hdata] at hx
            exact hids (marked x hx)
          · intro hsell
            rw [offer.bot, offer.instrument, ← visits.shares]
            exact hheld hsell

theorem runPairs_guarded (hdata : Organized.ofSnapshot snapshot = .ok data) (setup : TickSetup)
    (now : Micros) (m : TickMemory α) :
    ∀ o ∈ (runPairs setup now snapshot data m).2.trade.batch.newOrders,
      Guarded snapshot data (runPairs setup now snapshot data m).2.trade.batch.cancelIds o :=
  ((runPairs_trail setup now snapshot data m).invariant (fun hmove h => Guarded.step hdata hmove h)
    (by simp [start])).1

/-! ## The batch -/

/-- What is sent: no two orders in one place, and every order guarded. -/
theorem decide_guarded {clock : Except NumberFault Micros} {m : TickMemory α} {d : TickDecision α}
    (hbots : (snapshot.bots.map (·.id)).Nodup)
    (hinstruments : (snapshot.instruments.map (·.id)).Nodup)
    (h : (decide setup clock snapshot m).result = .ok d) :
    (d.newOrders.map (·.place)).Nodup ∧ ∀ o ∈ d.newOrders,
      ∃ data, Organized.ofSnapshot (scope setup snapshot) = .ok data ∧
        Guarded (scope setup snapshot) data d.cancelIds o := by
  rcases decide_ok h with ⟨hcancel, hnew⟩ | ⟨data, now, n, hdata, -, hcancel, hnew⟩
  · rw [hnew]
    simp
  · have hscope := scope_bots_sublist setup snapshot
    have hplaces := runPairs_places setup data now m
      (hbots.sublist (hscope.map (·.id))) (by rwa [scope_instruments])
    have hguarded := runPairs_guarded hdata setup now m
    -- The cut takes orders away and leaves all marks.
    rw [hcancel, hnew]
    refine ⟨hplaces.sublist ((List.take_sublist n _).map _), ?_⟩
    intro o ho
    exact ⟨data, hdata, hguarded o (List.mem_of_mem_take ho)⟩

/-! ## Reach -/

/-- A batch that reaches only the bots of a snapshot: it cancels orders of these, and it inserts orders
for these. -/
structure Reaches (snapshot : Snapshot α) (b : Batch α) : Prop where
  cancels : ∀ id ∈ b.cancelIds,
    ∃ o ∈ snapshot.orders, o.id = id ∧ o.botId ∈ snapshot.bots.map (·.id)
  inserts : ∀ o ∈ b.newOrders, o.botId ∈ snapshot.bots.map (·.id)

theorem Reaches.step {s t : TradeState α} (hdata : Organized.ofSnapshot snapshot = .ok data)
    (hmove : Move snapshot data s t) (h : Reaches snapshot s.batch) : Reaches snapshot t.batch := by
  cases hmove with
  | between balances batch => rwa [batch]
  | @ofPair pair visits move =>
      have hbot : pair.bot.id ∈ snapshot.bots.map (·.id) := List.mem_map_of_mem visits.bot
      -- A pair marks only its own orders, and those are orders of its bot.
      have hmark {o : Order α} (own : o ∈ pair.orders) : Reaches snapshot (s.markCancel o.id).batch := by
        refine ⟨?_, h.inserts⟩
        intro id hid
        rcases List.mem_append.1 hid with hid | hid
        · exact h.cancels id hid
        · obtain rfl := List.mem_singleton.1 hid
          rw [visits.orders_eq hdata] at own
          rcases Order.mem_openIn.1 own with ⟨hmem, -, heq, -⟩
          exact ⟨o, hmem, rfl, heq ▸ hbot⟩
      have hplace {o : NewOrder α} (offer : pair.Offer o) : Reaches snapshot (s.addOrder o).batch := by
        refine ⟨h.cancels, ?_⟩
        intro x hx
        rcases List.mem_append.1 hx with hx | hx
        · exact h.inserts x hx
        · obtain rfl := List.mem_singleton.1 hx
          exact offer.bot ▸ hbot
      cases move with
      | quiet balances batch => rwa [batch]
      | mark own fresh noRefund balances batch => exact batch ▸ hmark own
      | refund own fresh side amount_eq balances batch => exact batch ▸ hmark own
      | buy offer side marked cost_eq affordable rest_eq balances batch => exact batch ▸ hplace offer
      | sell offer side marked held balances batch => exact batch ▸ hplace offer

/-- What is sent reaches only bots that the tick is for. -/
theorem decide_reaches {clock : Except NumberFault Micros} {m : TickMemory α} {d : TickDecision α}
    (h : (decide setup clock snapshot m).result = .ok d) :
    Reaches (scope setup snapshot) d.batch := by
  rcases decide_ok h with ⟨hcancel, hnew⟩ | ⟨data, now, n, hdata, -, hcancel, hnew⟩
  · exact ⟨by simp [TickDecision.batch, hcancel], by simp [TickDecision.batch, hnew]⟩
  · have hstart : Reaches (scope setup snapshot) (start data m).trade.batch :=
      ⟨by simp [start], by simp [start]⟩
    have hend := ((runPairs_trail setup now (scope setup snapshot) data m).invariant
      (fun hmove h => Reaches.step hdata hmove h) hstart).1
    refine ⟨?_, ?_⟩
    · intro id hid
      exact hend.cancels id (hcancel ▸ hid)
    · intro o ho
      have hmem : o ∈ d.newOrders := ho
      rw [hnew] at hmem
      exact hend.inserts o (List.mem_of_mem_take hmem)

/-- New orders are for bots of the snapshot and in instruments of it. -/
theorem decide_inserts {clock : Except NumberFault Micros} {m : TickMemory α} {d : TickDecision α}
    (h : (decide setup clock snapshot m).result = .ok d) {o : NewOrder α} (ho : o ∈ d.newOrders) :
    (∃ b ∈ snapshot.bots, b.id = o.botId) ∧ ∃ i ∈ snapshot.instruments, i.id = o.instrumentId := by
  rcases decide_ok h with ⟨-, hnew⟩ | ⟨data, now, n, -, -, -, hnew⟩
  · rw [hnew] at ho
    cases ho
  · rw [hnew] at ho
    rcases visitInstruments_places setup data now (scope setup snapshot).bots
      (scope setup snapshot).instruments (start data m) with ⟨used, hsub, heq⟩
    have hplace : o.place ∈ used := by
      have hmem := List.mem_map_of_mem (f := NewOrder.place) (List.mem_of_mem_take ho)
      rw [runPairs, heq] at hmem
      exact hmem
    rcases List.mem_flatMap.1 (hsub.subset hplace) with ⟨i, hi, hplace⟩
    rcases List.mem_map.1 hplace with ⟨b, hb, hplace⟩
    rw [scope_instruments] at hi
    exact ⟨⟨b, (scope_bots_sublist setup snapshot).subset hb, (Prod.mk.inj hplace).2⟩,
      i, hi, (Prod.mk.inj hplace).1⟩

end Tick

end RuleTrader
