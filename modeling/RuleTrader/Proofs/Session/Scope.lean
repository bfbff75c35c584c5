import RuleTrader.Proofs.Session.Registry
import RuleTrader.Proofs.Trading.Validity

/-!
# Whom sessions trade for

A session of a manager trades for owners: one with an owner for that one, and one without for those who have a
running session when its tick narrows what it read. The loops of other sessions and calls to the manager may
come in between, as `SessionPool.Course` has them, in any order. A session that does not run never comes to run,
so an owner whose sessions have been asked to stop is out of reach until a session of the owner is made.
-/

namespace RuleTrader

variable {σ α : Type}

/-! ## The bots of a batch -/

namespace Batch

/-- Every order that a batch cancels or inserts is one of a bot of the snapshot, of which something holds. -/
structure OnlyFor (b : Batch α) (snapshot : Snapshot α) (P : Bot α → Prop) : Prop where
  cancels : ∀ id ∈ b.cancelIds, ∃ o ∈ snapshot.orders, o.id = id ∧
    ∃ bot ∈ snapshot.bots, bot.id = o.botId ∧ P bot
  inserts : ∀ o ∈ b.newOrders, ∃ bot ∈ snapshot.bots, bot.id = o.botId ∧ P bot

/-- A batch cancels or inserts an order of a bot. -/
def Touches (b : Batch α) (snapshot : Snapshot α) (bot : Bot α) : Prop :=
  (∃ o ∈ snapshot.orders, o.id ∈ b.cancelIds ∧ o.botId = bot.id) ∨
    ∃ o ∈ b.newOrders, o.botId = bot.id

namespace OnlyFor

variable {b : Batch α} {snapshot : Snapshot α} {P Q : Bot α → Prop}

theorem mono (h : b.OnlyFor snapshot P) (hPQ : ∀ bot, P bot → Q bot) : b.OnlyFor snapshot Q := by
  refine ⟨?_, ?_⟩
  · intro id hid
    rcases h.cancels id hid with ⟨o, ho, hname, bot, hbot, hof, hP⟩
    exact ⟨o, ho, hname, bot, hbot, hof, hPQ bot hP⟩
  · intro o ho
    rcases h.inserts o ho with ⟨bot, hbot, hof, hP⟩
    exact ⟨bot, hbot, hof, hPQ bot hP⟩

/-- With names apart, the bot that is touched is the one that the order is of. -/
theorem of_touches (h : b.OnlyFor snapshot P) (bots : (snapshot.bots.map (·.id)).Nodup)
    (orders : (snapshot.orders.map (·.id)).Nodup) {bot : Bot α} (hbot : bot ∈ snapshot.bots)
    (touches : b.Touches snapshot bot) : P bot := by
  have hsame {bot' : Bot α} (hbot' : bot' ∈ snapshot.bots) (hid : bot'.id = bot.id) (hP : P bot') :
      P bot :=
    List.inj_on_of_nodup_map bots hbot' hbot hid ▸ hP
  rcases touches with ⟨o, ho, hid, hof⟩ | ⟨o, ho, hof⟩
  · rcases h.cancels o.id hid with ⟨o', ho', hname, bot', hbot', hof', hP⟩
    obtain rfl : o' = o := List.inj_on_of_nodup_map orders ho' ho hname
    exact hsame hbot' (hof'.trans hof) hP
  · rcases h.inserts o ho with ⟨bot', hbot', hof', hP⟩
    exact hsame hbot' (hof'.trans hof) hP

/-- What a tick decides is for the bots in its scope. -/
theorem of_decide [Amount α] {setup : TickSetup} {clock : Except NumberFault Micros} {m : TickMemory α}
    {d : TickDecision α} (h : (Tick.decide setup clock snapshot m).result = .ok d) :
    d.batch.OnlyFor snapshot (· ∈ (Tick.scope setup snapshot).bots) := by
  have hreaches := Tick.decide_reaches h
  have hbots {botId : String} (hmem : botId ∈ (Tick.scope setup snapshot).bots.map (·.id)) :
      ∃ bot ∈ snapshot.bots, bot.id = botId ∧ bot ∈ (Tick.scope setup snapshot).bots := by
    rcases List.mem_map.1 hmem with ⟨bot, hbot, hid⟩
    exact ⟨bot, (Tick.scope_bots_sublist setup snapshot).subset hbot, hid, hbot⟩
  refine ⟨?_, fun o ho => hbots (hreaches.inserts o ho)⟩
  intro id hid
  rcases hreaches.cancels id hid with ⟨o, ho, hname, hof⟩
  exact ⟨o, (Tick.scope_orders_sublist setup snapshot).subset ho, hname, hbots hof⟩

end OnlyFor

end Batch

/-- The ticks of a managed session are for bots of owners; without an owner of its own, for those that are
active. -/
theorem Session.mem_scope_bots {s : Session α} (managed : s.managed = true) {owners : List String}
    {snapshot : Snapshot α} {bot : Bot α} (h : bot ∈ (Tick.scope (s.setup owners) snapshot).bots) :
    ∃ ownerId, bot.ownerId? = some ownerId ∧ (s.ownerId? = none → ownerId ∈ owners) := by
  unfold Tick.scope at h
  simp only [Session.setup, managed, if_true] at h
  cases howner : s.ownerId? with
  | none =>
      simp only [howner] at h
      rcases Snapshot.mem_scopeTo_bots.1 h with ⟨-, ownerId, hmem, hbot⟩
      exact ⟨ownerId, hbot, fun _ => hmem⟩
  | some own =>
      simp only [howner] at h
      rcases Snapshot.mem_scopeTo_bots.1 h with ⟨-, ownerId, -, hbot⟩
      exact ⟨ownerId, hbot, by simp⟩

/-! ## Running sessions -/

/-- A step of a loop starts no session. -/
theorem Life.Step.running_before {l m : Life α} {e : LifeEvent} (step : Life.Step l e m)
    (hcall : e.isCall = false) (h : m.session.status = .running) : l.session.status = .running := by
  cases step with
  | start canRun now => cases hcall
  | stop now => cases hcall
  | beginTick now ready goes => exact h
  | endTick now memory failure? ticking => exact h
  | rest ticked rests => exact h
  | wake wish resting wished => exact h
  | leave now ready stopping => cases h
  | finish now ticked ends => cases h

theorem Life.Run.running_before {l m : Life α} {es : List LifeEvent} (run : Life.Run l es m)
    (hcalls : ∀ e ∈ es, e.isCall = false) (h : m.session.status = .running) :
    l.session.status = .running := by
  induction run with
  | nil l => exact h
  | cons step run ih =>
      rcases List.forall_mem_cons.1 hcalls with ⟨hcall, hrest⟩
      exact step.running_before hcall (ih hrest h)

theorem Session.Moved.running_before {s t : Session α} (h : s.Moved t) (ht : t.status = .running) :
    s.status = .running := by
  rcases h with ⟨l, m, memory, memory', -, ⟨es, hrun, hcalls⟩, rfl, rfl⟩
  exact hrun.running_before hcalls ht

namespace SessionPool

variable {p q : SessionPool α}

/-- An owner has a running session. -/
def Drives (p : SessionPool α) (ownerId : String) : Prop :=
  ∃ t ∈ p.managed, t.ownerId? = some ownerId ∧ t.status = .running

theorem mem_activeOwners {ownerId : String} : ownerId ∈ p.activeOwners ↔ p.Drives ownerId := by
  simp only [activeOwners, List.mem_eraseDups, List.mem_filterMap, List.mem_filter, Drives,
    Session.isRunning, beq_iff_eq]
  constructor
  · rintro ⟨t, ⟨ht, hrunning⟩, howner⟩
    exact ⟨t, ht, howner, hrunning⟩
  · rintro ⟨t, ht, howner, hrunning⟩
    exact ⟨t, ⟨ht, hrunning⟩, howner⟩

/-! ## Courses of a pool -/

/-- Anything that happens to a pool: a call to its manager, or that its loops go on. -/
def Moves (p q : SessionPool α) : Prop := ∃ ownerId?, Step ownerId? p q

/-- Any number of calls, with the loops going on in between. -/
def Course : SessionPool α → SessionPool α → Prop := Relation.ReflTransGen Moves

theorem moves_create (p : SessionPool α) (r : SessionRequest) (now : Micros) :
    p.Moves (p.create r now).2.1 := by
  cases howner : r.ownerId? with
  | none => exact ⟨some "", .create p r now (by simp [howner])⟩
  | some ownerId => exact ⟨none, .create p r now (by simp [howner])⟩

theorem running_before_stopWhere {chosen : Session α → Bool} {now : Micros} {i : Nat} {s t : Session α}
    (hs : p.sessions[i]? = some s) (ht : (p.stopWhere chosen now).1.sessions[i]? = some t)
    (running : t.status = .running) : s.status = .running ∧ chosen s = false := by
  have heq : (if chosen s then s.stop now else s) = t := by simpa [stopWhere, hs] using ht
  cases hchosen : chosen s with
  | true =>
      have hinactive := s.inactive_stop now
      rw [if_pos hchosen] at heq
      simp [heq, Session.isActive, running] at hinactive
  | false =>
      rw [if_neg (by simp [hchosen])] at heq
      exact ⟨heq ▸ running, rfl⟩

theorem running_before_made {i : Nat} {s t : Session α}
    (made : q.sessions = p.sessions ∨ ∃ new, q.sessions = p.sessions ++ [new])
    (hs : p.sessions[i]? = some s) (ht : q.sessions[i]? = some t) (running : t.status = .running) :
    s.status = .running := by
  rcases made with hsame | ⟨new, hgrown⟩
  · rw [hsame, hs] at ht
    exact Option.some.inj ht ▸ running
  · rw [hgrown, List.getElem?_append_left (List.getElem?_eq_some_iff.1 hs).1, hs] at ht
    exact Option.some.inj ht ▸ running

/-- A session that runs after a step ran before it, if it was there. -/
theorem Step.running_before {ownerId? : Option String} (h : Step ownerId? p q) {i : Nat} {s t : Session α}
    (hs : p.sessions[i]? = some s) (ht : q.sessions[i]? = some t) (running : t.status = .running) :
    s.status = .running := by
  have hmade (r : SessionRequest) (now : Micros) :
      (p.create r now).2.1.sessions = p.sessions ∨
        ∃ new, (p.create r now).2.1.sessions = p.sessions ++ [new] := by
    rcases p.create_cases r now with ⟨fault, -, hsessions⟩ | ⟨new, -, hsessions, -⟩
    · exact Or.inl hsessions
    · exact Or.inr ⟨new, hsessions⟩
  cases h with
  | create r now other => exact running_before_made (hmade r now) hs ht running
  | reuse r now =>
      rcases p.reuse_cases r now with ⟨found, -, -, hpool⟩ | ⟨-, hreuse⟩
      · exact running_before_made (Or.inl (by rw [hpool])) hs ht running
      · rw [hreuse] at ht
        exact running_before_made (hmade r now) hs ht running
  | stop id now => exact (running_before_stopWhere hs ht running).1
  | stopOwner ownerId'? now => exact (running_before_stopWhere hs ht running).1
  | shutDown now => exact (running_before_stopWhere hs ht running).1
  | loops moved =>
      rcases List.getElem?_eq_some_iff.1 hs with ⟨hi, rfl⟩
      rcases List.getElem?_eq_some_iff.1 ht with ⟨hi', rfl⟩
      exact (moved.get hi hi').running_before running

theorem Course.onward (course : Course p q) : p.Onward q := by
  induction course with
  | refl => exact fun i s hs => ⟨s, hs, .refl s⟩
  | tail _ moves ih =>
      rcases moves with ⟨ownerId?, step⟩
      intro i s hs
      rcases ih i s hs with ⟨t, ht, hst⟩
      rcases step.onward i t ht with ⟨u, hu, htu⟩
      exact ⟨u, hu, hst.trans htu⟩

theorem Course.running_before (course : Course p q) {i : Nat} {s t : Session α}
    (hs : p.sessions[i]? = some s) (ht : q.sessions[i]? = some t) (running : t.status = .running) :
    s.status = .running := by
  induction course generalizing t with
  | refl =>
      rw [hs] at ht
      exact Option.some.inj ht ▸ running
  | tail course moves ih =>
      rcases moves with ⟨ownerId?, step⟩
      rcases Course.onward course i s hs with ⟨u, hu, -⟩
      exact ih hu (step.running_before hu ht running)

theorem mem_managed_before {i : Nat} {s t : Session α} (hs : p.sessions[i]? = some s) (honward : s.Onward t)
    (ht : t ∈ q.managed) : s ∈ p.managed :=
  List.mem_filter.2 ⟨List.mem_of_getElem? hs, honward.managed ▸ (List.mem_filter.1 ht).2⟩

/-- An owner without a running session has none later on, unless a session of the owner was made. -/
theorem Course.not_drives {ownerId : String} (course : Course p q) (h : ¬p.Drives ownerId)
    (unmade : ∀ s ∈ q.sessions.drop p.sessions.length, s.ownerId? ≠ some ownerId) :
    ¬q.Drives ownerId := by
  rintro ⟨t, ht, howner, hrunning⟩
  rcases List.mem_iff_getElem?.1 (List.mem_filter.1 ht).1 with ⟨i, hi⟩
  cases hs : p.sessions[i]? with
  | some s =>
      rcases course.onward i s hs with ⟨t', ht', honward⟩
      obtain rfl : t' = t := Option.some.inj (ht'.symm.trans hi)
      exact h ⟨s, mem_managed_before hs honward ht, honward.owner ▸ howner,
        course.running_before hs hi hrunning⟩
  | none =>
      -- A session at a later place was made on the way.
      refine unmade t (List.mem_iff_getElem?.2 ⟨i - p.sessions.length, ?_⟩) howner
      rw [List.getElem?_drop, Nat.add_sub_cancel' (List.getElem?_eq_none_iff.1 hs)]
      exact hi

/-- Asking all running sessions of an owner to stop leaves the owner without one. -/
theorem not_drives_stopWhere {ownerId : String} {chosen : Session α → Bool} (now : Micros)
    (asked : ∀ t ∈ p.managed, t.ownerId? = some ownerId → t.status = .running → chosen t = true) :
    ¬(p.stopWhere chosen now).1.Drives ownerId := by
  rintro ⟨t, ht, howner, hrunning⟩
  rcases List.mem_iff_getElem?.1 (List.mem_filter.1 ht).1 with ⟨i, hi⟩
  have hlength : (p.stopWhere chosen now).1.sessions.length = p.sessions.length := by simp [stopWhere]
  obtain ⟨s, hs⟩ : ∃ s, p.sessions[i]? = some s :=
    ⟨_, List.getElem?_eq_getElem (hlength ▸ (List.getElem?_eq_some_iff.1 hi).1)⟩
  rcases onward_of_forall₂ (p.stopWhere_onward chosen now) hs with ⟨t', ht', honward⟩
  obtain rfl : t' = t := Option.some.inj (ht'.symm.trans hi)
  rcases running_before_stopWhere hs hi hrunning with ⟨hbefore, hnot⟩
  have hchosen := asked _ (mem_managed_before hs honward ht) (honward.owner ▸ howner) hbefore
  rw [hnot] at hchosen
  cases hchosen

end SessionPool

/-! ## Trading -/

namespace SessionPool

variable [Amount α]

/-- A tick of a managed session narrows a snapshot by the sessions of the pool, and decides on it. -/
def Decides (p : SessionPool α) (s : Session α) (snapshot : Snapshot α) (d : TickDecision α) : Prop :=
  s ∈ p.managed ∧
    ∃ clock m, (Tick.decide (s.setup p.activeOwners) clock snapshot m).result = .ok d

theorem Decides.onlyFor {p : SessionPool α} {s : Session α} {snapshot : Snapshot α} {d : TickDecision α}
    (h : p.Decides s snapshot d) :
    d.batch.OnlyFor snapshot fun bot => ∃ ownerId, bot.ownerId? = some ownerId ∧
      (s.ownerId? = none → p.Drives ownerId) := by
  rcases h with ⟨hs, clock, m, hresult⟩
  refine (Batch.OnlyFor.of_decide hresult).mono fun bot hbot => ?_
  rcases Session.mem_scope_bots (List.mem_filter.1 hs).2 hbot with ⟨ownerId, howner, hactive⟩
  exact ⟨ownerId, howner, fun hnone => mem_activeOwners.1 (hactive hnone)⟩

/-- Once every running session of an owner has been asked to stop, and as long as none is made, a session
without an owner touches no bot of the owner. -/
theorem Decides.not_touches {p q : SessionPool α} {ownerId : String} {chosen : Session α → Bool}
    {now : Micros} {s : Session α} {snapshot : Snapshot α} {d : TickDecision α}
    (h : q.Decides s snapshot d) (hnone : s.ownerId? = none)
    (asked : ∀ t ∈ p.managed, t.ownerId? = some ownerId → t.status = .running → chosen t = true)
    (course : Course (p.stopWhere chosen now).1 q)
    (unmade : ∀ s ∈ q.sessions.drop p.sessions.length, s.ownerId? ≠ some ownerId)
    (bots : (snapshot.bots.map (·.id)).Nodup) (orders : (snapshot.orders.map (·.id)).Nodup)
    {bot : Bot α} (hbot : bot ∈ snapshot.bots) (howner : bot.ownerId? = some ownerId) :
    ¬d.batch.Touches snapshot bot := by
  intro touches
  have hlength : (p.stopWhere chosen now).1.sessions.length = p.sessions.length := by simp [stopWhere]
  have hidle : ¬q.Drives ownerId := course.not_drives (not_drives_stopWhere now asked) (hlength ▸ unmade)
  rcases h.onlyFor.of_touches bots orders hbot touches with ⟨ownerId', howner', hdrives⟩
  obtain rfl : ownerId' = ownerId := Option.some.inj (howner'.symm.trans howner)
  exact hidle (hdrives hnone)

end SessionPool

/-! ## Trading in a fleet -/

namespace Fleet

variable [Store σ α] {f g h : Fleet σ α}

/-- What comes of the snapshot that a tick of a fleet has read: the tick fails, or it sends a decision of which
something holds, at once or when the span of sending is over. -/
def Resolves (f : Fleet σ α) (flight : Flight) (P : TickDecision α → Prop) (g : Fleet σ α) : Prop :=
  ∃ f' : Fleet σ α, f'.store = f.store ∧
    ((∃ failure, g = f'.endTick flight (some failure)) ∨
      ∃ d, P d ∧ (g = f'.send flight d ∨ g = f'.setAlarm f.sendSpan 1 (.send flight d)))

theorem Resolves.mono {flight : Flight} {P Q : TickDecision α → Prop} (resolves : f.Resolves flight P g)
    (hPQ : ∀ d, P d → Q d) : f.Resolves flight Q g := by
  rcases resolves with ⟨f', hstore, hfails | ⟨d, hd, hsends⟩⟩
  · exact ⟨f', hstore, Or.inl hfails⟩
  · exact ⟨f', hstore, Or.inr ⟨d, hPQ d hd, hsends⟩⟩

variable [Amount α]

/-- Any number of calls to the manager of a fleet, and of times of waiting. -/
def Calls : Fleet σ α → Fleet σ α → Prop :=
  Relation.ReflTransGen fun f g => ∃ ownerId?, Manages ownerId? f g

theorem Calls.course (calls : Calls f g) (lives : ∀ i, f.Lives i) :
    SessionPool.Course f.pool g.pool ∧ ∀ i, g.Lives i := by
  induction calls with
  | refl => exact ⟨.refl, lives⟩
  | @tail g h _ manages ih =>
      rcases manages with ⟨ownerId?, manages⟩
      have hrun : SessionPool.Course g.pool h.pool :=
        Relation.ReflTransGen.mono (fun _ _ step => ⟨ownerId?, step⟩) _ _ (manages.run ih.2)
      exact ⟨ih.1.trans hrun, fun i => (ih.2 i).deed (manages.deed i)⟩

/-- What a fleet does when its manager is called, and in the midst of waiting, its pool goes through. -/
theorem Calls.course_midway (calls : Calls f g) (waits : g.Waits h) (lives : ∀ i, f.Lives i) :
    SessionPool.Course f.pool h.pool := by
  rcases calls.course lives with ⟨course, hlives⟩
  exact course.tail ⟨none, .loops (waits.moved hlives)⟩

/-- A managed session narrows what it has read by the sessions that its fleet has in that moment. -/
theorem resolves_decide {flight : Flight} {s : Session α} (hs : f.session? flight.index = some s)
    (managed : s.managed = true) (snapshot : Snapshot α) :
    f.Resolves flight (f.pool.Decides s snapshot) (f.decide flight s snapshot) := by
  unfold decide
  cases houtcome : Tick.decide (s.setup f.pool.activeOwners) (.ok f.now) snapshot s.memory with
  | mk result memory notices =>
    refine ⟨(f.setSession flight.index { s with memory }).report notices, rfl, ?_⟩
    cases result with
    | error fault => exact Or.inl ⟨.decision fault, rfl⟩
    | ok d =>
        have hdecides : f.pool.Decides s snapshot d :=
          ⟨List.mem_filter.2 ⟨List.mem_of_getElem? hs, managed⟩, .ok f.now, s.memory, by rw [houtcome]⟩
        refine Or.inr ⟨d, hdecides, ?_⟩
        by_cases hspan : (d.hasBatch && 0 < f.sendSpan) = true
        · exact Or.inr (if_pos hspan)
        · exact Or.inl (if_neg hspan)

end Fleet

/-! ## Trading for the owners of running sessions -/

namespace SessionPool

variable [Amount α]

/-- Whatever the sessions of a pool are, what a tick of one of them cancels or inserts is of a bot with an
owner; and if the session has no owner itself, then of one who has a running session in that moment. Once
every running session of an owner has been asked to stop, no tick of a session without an owner touches a bot
of this owner, whatever happens, as long as no session of the owner is made. -/
theorem trades_for_running_owners (p : SessionPool α) :
    (∀ s snapshot d, p.Decides s snapshot d → d.batch.OnlyFor snapshot fun bot =>
      ∃ ownerId, bot.ownerId? = some ownerId ∧ (s.ownerId? = none → p.Drives ownerId)) ∧
    ∀ ownerId chosen now q,
      (∀ t ∈ p.managed, t.ownerId? = some ownerId → t.status = .running → chosen t = true) →
      Course (p.stopWhere chosen now).1 q →
      (∀ s ∈ q.sessions.drop p.sessions.length, s.ownerId? ≠ some ownerId) →
      ∀ s snapshot d, q.Decides s snapshot d → s.ownerId? = none →
        (snapshot.bots.map (·.id)).Nodup → (snapshot.orders.map (·.id)).Nodup →
        ∀ bot ∈ snapshot.bots, bot.ownerId? = some ownerId → ¬d.batch.Touches snapshot bot := by
  constructor
  · intro s snapshot d h
    exact h.onlyFor
  · intro ownerId chosen now q asked course unmade s snapshot d h hnone bots orders bot hbot howner
    exact h.not_touches hnone asked course unmade bots orders hbot howner

/-- A pool with a session for all owners, and with one of an owner. -/
def shared : SessionPool Int :=
  ((unused.create { name? := some "fleet" } 0).2.1.create plainRequest 0).2.1

/-- Three bots that cancel their orders: one of the owner, one of somebody else, and one of nobody. -/
def crowd : Snapshot Int where
  bots := [{ id := "b1", balance := 100, ownerId? := some "u", strategyId? := some "wary" },
    { id := "b2", balance := 100, ownerId? := some "v", strategyId? := some "wary" },
    { id := "b3", balance := 100, strategyId? := some "wary" }]
  instruments := [{ id := "i1", symbol := "ACME", price := 10 }]
  orders := ["b1", "b2", "b3"].map fun botId =>
    { id := "o-" ++ botId, instrumentId := "i1", botId, side := .sell, limitPrice := 9, quantity := 2,
      createdAt := 0 }
  ruleSets := [("wary", .entries [.ready
    ⟨.allOf [.comparison "orderPrice" .greaterThan (.literal (.number 0))], ⟨.cancel, []⟩, 1⟩])]

/-- The session for all owners. -/
def shared.forAll : Session Int := shared.sessions.head (by decide)

/-- The session for all owners cancels the order of the one who has a session, and nothing once that session
has been asked to stop. So it is in a fleet at work, also in the midst of waiting: no bot of an owner is touched
for all owners once the running sessions of this owner have been asked to stop. -/
theorem trades_for_running_owners_shared :
    Course unused shared ∧ shared.forAll.ownerId? = none ∧
    (∃ d, shared.Decides shared.forAll crowd d ∧ d.batch = ⟨["o-b1"], []⟩ ∧
      d.batch.OnlyFor crowd fun bot => ∃ ownerId, bot.ownerId? = some ownerId ∧
        (shared.forAll.ownerId? = none → shared.Drives ownerId)) ∧
    (∃ d, (shared.stop "session-2" 1).2.Decides shared.forAll crowd d ∧ d.batch = ⟨[], []⟩ ∧
      ∀ bot ∈ crowd.bots, bot.ownerId? = some "u" → ¬d.batch.Touches crowd bot) ∧
    ∀ (f g h : Fleet MemoryStore Value) (ownerId : String) (chosen : Session Value → Bool), (∀ i, f.Lives i) →
      (∀ t ∈ f.pool.managed, t.ownerId? = some ownerId → t.status = .running → chosen t = true) →
      Fleet.Calls (f.stopWhere chosen) g → g.Waits h →
      (∀ s ∈ h.pool.sessions.drop f.pool.sessions.length, s.ownerId? ≠ some ownerId) →
      ∀ (flight : Flight) (s : Session Value) (snapshot : Snapshot Value), h.session? flight.index = some s →
        s.managed = true → s.ownerId? = none → (snapshot.bots.map (·.id)).Nodup →
        (snapshot.orders.map (·.id)).Nodup →
        h.Resolves flight
          (fun d => ∀ bot ∈ snapshot.bots, bot.ownerId? = some ownerId → ¬d.batch.Touches snapshot bot)
          (h.decide flight s snapshot) := by
  have hshared : Course unused shared :=
    (Relation.ReflTransGen.single (moves_create unused _ 0)).tail (moves_create _ plainRequest 0)
  have hbefore : ∃ d, shared.Decides shared.forAll crowd d ∧ d.batch = ⟨["o-b1"], []⟩ :=
    ⟨_, ⟨List.mem_filter.2 ⟨List.head_mem _, rfl⟩, .ok 1, Tick.risen, rfl⟩, rfl⟩
  have hafter : ∃ d, (shared.stop "session-2" 1).2.Decides shared.forAll crowd d ∧ d.batch = ⟨[], []⟩ :=
    ⟨_, ⟨List.mem_filter.2 ⟨List.mem_of_getElem? (i := 0) rfl, rfl⟩, .ok 1, Tick.risen, rfl⟩, rfl⟩
  have hasked : ∀ t ∈ shared.managed, t.ownerId? = some "u" → t.status = .running →
      (t.managed && t.id == "session-2") = true := by
    have hsessions : shared.sessions = [shared.forAll, shared.sessions.getLast (by decide)] := rfl
    intro t ht howner _
    have hmem := (List.mem_filter.1 ht).1
    rw [hsessions] at hmem
    rcases List.mem_pair.1 hmem with rfl | rfl
    · cases howner
    · rfl
  have hunmade : ∀ s ∈ (shared.stop "session-2" 1).2.sessions.drop shared.sessions.length,
      s.ownerId? ≠ some "u" := by
    intro s hs
    have hmem : s ∈ ([] : List (Session Int)) := hs
    cases hmem
  rcases hbefore with ⟨d, hd, hbatch⟩
  rcases hafter with ⟨e, he, hnothing⟩
  refine ⟨hshared, rfl, ⟨d, hd, hbatch, (trades_for_running_owners shared).1 _ crowd d hd⟩,
    ⟨e, he, hnothing, (trades_for_running_owners shared).2 "u" _ 1 _ hasked .refl hunmade _ crowd e he rfl
      (by decide) (by decide)⟩, ?_⟩
  intro f g h ownerId chosen lives asked calls waits unmade flight s snapshot hs managed hnone bots orders
  have hlives (i : Nat) : (f.stopWhere chosen).Lives i := (lives i).deed (.stopWhere f chosen)
  have hcourse := calls.course_midway waits hlives
  rw [Fleet.stopWhere_pool] at hcourse
  refine (Fleet.resolves_decide hs managed snapshot).mono fun d decides => ?_
  exact (trades_for_running_owners f.pool).2 ownerId chosen f.now h.pool asked hcourse unmade s snapshot d decides
    hnone bots orders

end SessionPool

end RuleTrader
