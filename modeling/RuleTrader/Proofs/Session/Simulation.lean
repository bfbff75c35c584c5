import RuleTrader.Proofs.Session.Frame
import RuleTrader.Proofs.Session.Lifecycle

/-!
# The sessions of a fleet live

The loops of a fleet are errands on its schedule. Seen from one place of the pool, whatever the fleet
does is a run of a life: `Fleet.Shows` ties the session and the errands at a place to a life and the phase
of its loop, `Fleet.Shows.work` follows an errand, and `Fleet.Shows.workOff` the whole schedule. The
calls to start and to stop are `Fleet.Shows.startAt`, `Fleet.Shows.stopAt` and `Fleet.Shows.stopWhere`.
-/

namespace RuleTrader

variable {σ α : Type}

/-! ## Steps of the loop -/

/-- Whether an event is a call from outside. -/
def LifeEvent.isCall : LifeEvent → Bool
  | .start _ _ | .stop _ => true
  | _ => false

namespace Life

/-- The loop takes one life to another, without a call from outside. -/
def Goes (l m : Life α) : Prop := ∃ es, Run l es m ∧ ∀ e ∈ es, e.isCall = false

theorem Goes.refl (l : Life α) : l.Goes l := ⟨[], .nil l, by simp⟩

theorem Step.goes {l m : Life α} {e : LifeEvent} (step : Step l e m) (h : e.isCall = false) :
    l.Goes m := ⟨[e], .cons step (.nil m), by simp [h]⟩

theorem Goes.trans {l m n : Life α} (first : l.Goes m) (next : m.Goes n) : l.Goes n := by
  rcases first with ⟨es, hrun, hes⟩
  rcases next with ⟨fs, hrun', hfs⟩
  refine ⟨es ++ fs, hrun.append hrun', ?_⟩
  intro e he
  rcases List.mem_append.1 he with he | he
  · exact hes e he
  · exact hfs e he

end Life

namespace Fleet

/-- What a schedule has for a loop at a place, in the queue and behind alarms, by where the loop is. -/
inductive Awaits (i : Nat) : LoopPhase → List (Errand α) → List (Errand α) → Prop
  | absent : Awaits i .absent [] []
  | ready : Awaits i .ready [.goOn i] []
  | settling : Awaits i .resting [.settle i] [.goOn i]
  | resting : Awaits i .resting [] [.goOn i]
  | rested : Awaits i .resting [.goOn i] []
  | reading (since : Micros) : Awaits i (.ticking since) [] [.fetch ⟨i, since, true⟩]
  | read (since : Micros) : Awaits i (.ticking since) [.fetch ⟨i, since, true⟩] []
  | sending (since : Micros) (d : TickDecision α) :
      Awaits i (.ticking since) [] [.send ⟨i, since, true⟩ d]
  | sent (since : Micros) (d : TickDecision α) :
      Awaits i (.ticking since) [.send ⟨i, since, true⟩ d] []
  | ended : Awaits i .over [] []

/-- A fleet shows a life at a place. The memory of the session is written down in the middle of a tick
already. -/
structure Shows (f : Fleet σ α) (i : Nat) (l : Life α) : Prop where
  polite : f.Polite
  session : ∃ memory, f.session? i = some { l.session with memory } ∧
    ((∀ since, l.phase ≠ .ticking since) → memory = l.session.memory)
  errands : Awaits i l.phase (f.schedule.queuedFor i) (f.schedule.awaitedFor i)

variable {f g : Fleet σ α} {i j : Nat} {l : Life α}

theorem Shows.keep (h : f.Shows i l) (keeps : Keeps i f g) : g.Shows i l where
  polite := keeps.polite h.polite
  session := by
    rw [keeps.session]
    exact h.session
  errands := by
    rw [keeps.queued h.polite, keeps.awaited]
    exact h.errands

/-- Outside of a tick a fleet shows the very session. -/
theorem Shows.session_eq (h : f.Shows i l) (hphase : ∀ since, l.phase ≠ .ticking since) :
    f.session? i = some l.session := by
  rcases h.session with ⟨memory, hsession, hmemory⟩
  rw [hsession, hmemory hphase]

/-! ## Waiting errands -/

variable {schedule : Schedule (Errand α)}

/-- The order of the queue does not matter, since no two errands in it concern one place. -/
theorem Awaits.of_perm {phase : LoopPhase} {queued queued' awaited : List (Errand α)}
    (h : Awaits i phase queued awaited) (perm : queued'.Perm queued) :
    Awaits i phase queued' awaited := by
  have heq : queued' = queued := by
    cases h with
    | absent => exact perm.eq_nil
    | resting => exact perm.eq_nil
    | reading since => exact perm.eq_nil
    | sending since d => exact perm.eq_nil
    | ended => exact perm.eq_nil
    | _ => exact List.perm_singleton.1 perm
  rw [heq]
  exact h

/-- When its time comes, an errand behind an alarm goes into the queue. -/
theorem Awaits.of_due {phase : LoopPhase} {queued awaited awaited' : List (Errand α)}
    (h : Awaits i phase [] awaited) (perm : (queued ++ awaited').Perm awaited) :
    Awaits i phase queued awaited' := by
  cases h with
  -- Where no errand is behind an alarm none comes into the queue; a single one may come or stay.
  | absent =>
      rcases List.append_eq_nil_iff.1 perm.eq_nil with ⟨rfl, rfl⟩
      exact .absent
  | ended =>
      rcases List.append_eq_nil_iff.1 perm.eq_nil with ⟨rfl, rfl⟩
      exact .ended
  | resting =>
      rcases List.append_eq_singleton_iff.1 (List.perm_singleton.1 perm) with ⟨rfl, rfl⟩ | ⟨rfl, rfl⟩
      · exact .resting
      · exact .rested
  | reading since =>
      rcases List.append_eq_singleton_iff.1 (List.perm_singleton.1 perm) with ⟨rfl, rfl⟩ | ⟨rfl, rfl⟩
      · exact .reading since
      · exact .read since
  | sending since d =>
      rcases List.append_eq_singleton_iff.1 (List.perm_singleton.1 perm) with ⟨rfl, rfl⟩ | ⟨rfl, rfl⟩
      · exact .sending since d
      · exact .sent since d

/-- A turn without an errand shows nothing new. -/
theorem Shows.pass (h : f.Shows i l) (turn : f.schedule.turn? = some (none, schedule)) :
    ({ f with schedule } : Fleet σ α).Shows i l := by
  refine ⟨h.polite, h.session, ?_⟩
  rcases Schedule.turn_none turn i with ⟨hperm, hawaited⟩ | ⟨hempty, hperm⟩
  · rw [hawaited]
    exact h.errands.of_perm hperm
  · have herrands := h.errands
    rw [hempty] at herrands
    exact herrands.of_due hperm

/-- A loop that begins to listen after the wish to stop came is woken. -/
theorem Shows.settle (polite : f.Polite) (hsession : f.session? i = some l.session)
    (hphase : l.phase = .resting) (hqueued : f.schedule.queuedFor i = [])
    (hawaited : f.schedule.awaitedFor i = [.goOn i]) : (f.settle i).Shows i l := by
  unfold Fleet.settle
  split
  · refine ⟨polite, ⟨_, hsession, fun _ => rfl⟩, ?_⟩
    have hrested : Awaits i .resting [.goOn i] ([] : List (Errand α)) := .rested
    rw [hphase]
    simpa [push, reschedule, hqueued, hawaited, Errand.concerns, Errand.isGoOn] using hrested
  · refine ⟨polite, ⟨_, hsession, fun _ => rfl⟩, ?_⟩
    rw [hphase, hqueued, hawaited]
    exact .resting

theorem Shows.cutRest (h : f.Shows i l) (j : Nat) : (f.cutRest j).Shows i l := by
  by_cases hij : j = i
  · subst hij
    unfold Fleet.cutRest
    rw [Schedule.isQueued_settle, Schedule.isSet_goOn]
    split
    · exact h
    · split
      -- It is behind an alarm and listens, so it is woken at once.
      · rename_i hsettle hgoOn
        refine ⟨h.polite, h.session, ?_⟩
        have herrands := h.errands
        generalize l.phase = phase at herrands
        generalize hqueue : f.schedule.queuedFor j = queue at herrands hsettle
        generalize hlater : f.schedule.awaitedFor j = later at herrands hgoOn
        cases herrands with
        | resting =>
            have hrested : Awaits j .resting [.goOn j] ([] : List (Errand α)) := .rested
            simpa [push, reschedule, hqueue, hlater, Errand.concerns, Errand.isGoOn] using hrested
        | settling => simp [Errand.isSettle] at hsettle
        | _ => simp [Errand.isGoOn] at hgoOn
      · exact h
  · exact h.keep (keeps_cutRest f hij)

theorem Shows.cutRests (h : f.Shows i l) (places : List Nat) : (f.cutRests places).Shows i l := by
  unfold Fleet.cutRests
  induction places generalizing f with
  | nil => exact h
  | cons j places ih => exact ih (h.cutRest j)

/-- A fleet that puts the session of a place into another state shows the life in that state. -/
theorem Shows.setSession (h : f.Shows i l) {t : Session α}
    (hg : ∀ memory, f.session? i = some { l.session with memory } →
      g.session? i = some { t with memory })
    (hmemory : t.memory = l.session.memory) (polite : g.Polite)
    (hqueued : g.schedule.queuedFor i = f.schedule.queuedFor i)
    (hawaited : g.schedule.awaitedFor i = f.schedule.awaitedFor i) :
    g.Shows i { l with session := t } := by
  rcases h.session with ⟨memory, hsession, hsame⟩
  refine ⟨polite, ⟨memory, hg memory hsession, ?_⟩, ?_⟩
  · intro hphase
    rw [hmemory]
    exact hsame hphase
  · rw [hqueued, hawaited]
    exact h.errands

/-! ## One errand -/

/-- Nothing concerns a place, at which a fleet has a session or none: while an errand for the place is
done, nothing else is going to be done there. -/
structure Idle (f : Fleet σ α) (i : Nat) (s? : Option (Session α)) : Prop where
  polite : f.Polite
  session : f.session? i = s?
  queued : f.schedule.queuedFor i = []
  awaited : f.schedule.awaitedFor i = []

variable {s : Session α}

theorem Idle.keep {s? : Option (Session α)} (h : f.Idle i s?) (keeps : Keeps i f g) :
    g.Idle i s? where
  polite := keeps.polite h.polite
  session := keeps.session.trans h.session
  queued := (keeps.queued h.polite).trans h.queued
  awaited := keeps.awaited.trans h.awaited

theorem Idle.setSession (h : f.Idle i (some s)) (t : Session α) :
    (f.setSession i t).Idle i (some t) where
  polite := h.polite
  session := by simp [session?_setSession, h.session]
  queued := h.queued
  awaited := h.awaited

/-- A loop that is over has nothing left to do. -/
theorem Idle.endLoop (h : f.Idle i (some s)) (t : Session α) (fault? : Option NumberFault) :
    (f.endLoop i t fault?).Shows i { l with session := t.finish f.now fault?, phase := .over } := by
  have hfinished : (f.endLoop i t fault?).Idle i (some (t.finish f.now fault?)) :=
    ((h.setSession _).keep (keeps_report _ _)).keep (keeps_tellListeners _ i)
  refine ⟨hfinished.polite, ⟨t.memory, hfinished.session, fun _ => rfl⟩, ?_⟩
  rw [hfinished.queued, hfinished.awaited]
  exact .ended

theorem Idle.rest (h : f.Idle i (some l.session)) (span : Micros) :
    (f.rest i span).Shows i { l with phase := .resting } := by
  have hsession : ∃ memory, f.session? i = some { l.session with memory } ∧
      ((∀ since, LoopPhase.resting ≠ .ticking since) → memory = l.session.memory) :=
    ⟨_, h.session, fun _ => rfl⟩
  unfold Fleet.rest
  split
  -- A rest of no time is a turn in the queue.
  · refine ⟨h.polite, hsession, ?_⟩
    have hrested : Awaits i .resting [.goOn i] ([] : List (Errand α)) := .rested
    simpa [push, reschedule, h.queued, h.awaited, Errand.concerns] using hrested
  · refine ⟨h.polite, hsession, ?_⟩
    have hsettling : Awaits i .resting [.settle i] ([.goOn i] : List (Errand α)) := .settling
    simpa [push, setAlarm, reschedule, h.queued, h.awaited, Errand.concerns] using hsettling

/-- After a tick the loop rests or is over. -/
theorem Idle.afterTick (h : f.Idle i (some s)) (hphase : l.phase = .ticked) :
    ∃ m, l.Goes m ∧ (f.afterTick i l.session).Shows i m := by
  cases hafter : l.session.afterTick with
  | error fault? =>
      refine ⟨_, (Life.Step.finish f.now hphase hafter).goes rfl, ?_⟩
      simp only [Fleet.afterTick, hafter]
      exact h.endLoop l.session fault?
  | ok span =>
      refine ⟨_, (Life.Step.rest hphase hafter).goes rfl, ?_⟩
      simp only [Fleet.afterTick, hafter]
      exact (h.setSession l.session).rest span

/-- A tick that ends is recorded, and the loop goes on. -/
theorem Idle.endTick {memory : TickMemory α} {since : Micros}
    (h : f.Idle i (some { l.session with memory })) (hphase : l.phase = .ticking since)
    (failure? : Option TickFailure) :
    ∃ m, l.Goes m ∧ (f.endTick ⟨i, since, true⟩ failure?).Shows i m := by
  have hended := (Life.Step.endTick f.now memory failure? hphase).goes rfl
  have hreported : Keeps i f
      (if failure?.isSome then f.report [.tickFailed l.session.id] else f) :=
    Keeps.ite (fun _ => keeps_report f _) fun _ => .refl f
  rcases (h.keep hreported).afterTick
    (l := { l with
      session := { l.session with memory }.recordTick since f.now failure?
      phase := .ticked }) rfl with ⟨m, hgoes, hshows⟩
  refine ⟨m, hended.trans hgoes, ?_⟩
  simp only [Fleet.endTick, h.session, if_true]
  exact hshows

variable [Store σ α]

theorem Idle.send {memory : TickMemory α} {since : Micros}
    (h : f.Idle i (some { l.session with memory })) (hphase : l.phase = .ticking since)
    (d : TickDecision α) :
    ∃ m, l.Goes m ∧ (f.send ⟨i, since, true⟩ d).Shows i m := by
  simp only [Fleet.send, h.session]
  rcases Tick.send (Store.access f.now) (Session.setup { l.session with memory } f.pool.activeOwners) d
    f.store with ⟨result, store, notices⟩
  have hsent : ({ f with store }.report notices).Idle i (some { l.session with memory }) :=
    (h.keep (keeps_store f store)).keep (keeps_report _ notices)
  cases result with
  | ok sent => exact hsent.endTick hphase none
  | error failure => exact hsent.endTick hphase (some failure)

variable [Amount α]

theorem Idle.decide {memory : TickMemory α} {since : Micros}
    (h : f.Idle i (some { l.session with memory })) (hphase : l.phase = .ticking since)
    (snapshot : Snapshot α) :
    ∃ m, l.Goes m ∧
      (f.decide ⟨i, since, true⟩ { l.session with memory } snapshot).Shows i m := by
  unfold Fleet.decide
  generalize Tick.decide (Session.setup { l.session with memory } f.pool.activeOwners) (.ok f.now)
    snapshot memory = outcome
  have hdecided : ((f.setSession i { l.session with memory := outcome.memory }).report
      outcome.notices).Idle i (some { l.session with memory := outcome.memory }) :=
    (h.setSession _).keep (keeps_report _ _)
  dsimp only
  split
  · exact hdecided.endTick hphase _
  · rename_i d hd
    split
    -- Sending takes time, and the life stands still in its tick.
    · refine ⟨l, .refl l, hdecided.polite, ⟨outcome.memory, hdecided.session, ?_⟩, ?_⟩
      · intro hnot
        exact absurd hphase (hnot since)
      · have hsending : Awaits i (.ticking since) [] [.send ⟨i, since, true⟩ d] := .sending since d
        rw [hphase]
        simpa [setAlarm, reschedule, hdecided.queued, hdecided.awaited, Errand.concerns] using hsending
    · exact hdecided.send hphase d

theorem Idle.fetch {memory : TickMemory α} {since : Micros}
    (h : f.Idle i (some { l.session with memory })) (hphase : l.phase = .ticking since) :
    ∃ m, l.Goes m ∧ (f.fetch ⟨i, since, true⟩).Shows i m := by
  simp only [Fleet.fetch, h.session]
  split
  · exact (h.keep (keeps_store f _)).endTick hphase _
  · exact (h.keep (keeps_store f _)).decide hphase _

theorem Idle.beginTick {memory : TickMemory α} {since : Micros}
    (h : f.Idle i (some { l.session with memory })) (hphase : l.phase = .ticking since) :
    ∃ m, l.Goes m ∧ (f.beginTick ⟨i, since, true⟩).Shows i m := by
  unfold Fleet.beginTick
  split
  -- Fetching takes time.
  · refine ⟨l, .refl l, h.polite, ⟨memory, h.session, ?_⟩, ?_⟩
    · intro hnot
      exact absurd hphase (hnot since)
    · have hreading : Awaits i (.ticking since) [] ([.fetch ⟨i, since, true⟩] : List (Errand α)) :=
        .reading since
      rw [hphase]
      simpa [setAlarm, reschedule, h.queued, h.awaited, Errand.concerns] using hreading
  · exact h.fetch hphase

/-- A loop whose turn it is looks for the wish to stop, and else begins a tick. -/
theorem Idle.goOn (h : f.Idle i (some l.session)) (hphase : l.phase = .ready) :
    ∃ m, l.Goes m ∧ (f.goOn i).Shows i m := by
  simp only [Fleet.goOn, h.session]
  cases hstopping : l.session.isStopping with
  | true => exact ⟨_, (Life.Step.leave f.now hphase hstopping).goes rfl, h.endLoop l.session none⟩
  | false =>
      have hbegun := (Life.Step.beginTick f.now hphase hstopping).goes rfl
      rcases h.beginTick (l := { l with phase := .ticking f.now }) rfl with ⟨m, hgoes, hshows⟩
      exact ⟨m, hbegun.trans hgoes, hshows⟩

/-! ## Turns -/

/-- An errand that has its turn is a part of the life at a place, or does not concern the place. -/
theorem Shows.work (h : f.Shows i l) {e : Errand α}
    (turn : f.schedule.turn? = some (some e, schedule)) :
    ∃ m, l.Goes m ∧ (({ f with schedule } : Fleet σ α).work e).Shows i m := by
  rcases Schedule.turn_some turn i with ⟨hqueued, hawaited⟩
  cases hconcerns : e.concerns i with
  | false =>
      have hleft : ({ f with schedule } : Fleet σ α).Shows i l := by
        refine ⟨h.polite, h.session, ?_⟩
        have herrands := h.errands
        rw [hqueued, ← hawaited] at herrands
        simpa [hconcerns] using herrands
      exact ⟨l, .refl l, hleft.keep (keeps_work _ hconcerns)⟩
  | true =>
      -- The errand was the only one in the queue for the place, so it is the one that the phase of the
      -- loop has there.
      have herrands := h.errands
      rw [hqueued, ← hawaited] at herrands
      simp only [List.filter_cons, hconcerns, if_true, List.filter_nil, List.singleton_append]
        at herrands
      rcases h.session with ⟨memory, hsession, hmemory⟩
      generalize hphase : l.phase = phase at herrands hmemory
      generalize hqueue : schedule.queuedFor i = queue at herrands
      generalize hlater : schedule.awaitedFor i = later at herrands
      cases herrands with
      | ready =>
          rw [hmemory (by simp)] at hsession
          exact Idle.goOn (f := { f with schedule }) ⟨h.polite, hsession, hqueue, hlater⟩ hphase
      | settling =>
          rw [hmemory (by simp)] at hsession
          exact ⟨l, .refl l,
            Shows.settle (f := { f with schedule }) h.polite hsession hphase hqueue hlater⟩
      -- A loop whose rest is over is woken before its turn.
      | rested =>
          rw [hmemory (by simp)] at hsession
          have hwoken := (Life.Step.wake false hphase (by simp)).goes rfl
          rcases Idle.goOn (f := { f with schedule }) (l := { l with phase := .ready })
            ⟨h.polite, hsession, hqueue, hlater⟩ rfl with ⟨m, hgoes, hshows⟩
          exact ⟨m, hwoken.trans hgoes, hshows⟩
      | read since =>
          exact Idle.fetch (f := { f with schedule }) ⟨h.polite, hsession, hqueue, hlater⟩ hphase
      | sent since d =>
          exact Idle.send (f := { f with schedule }) ⟨h.polite, hsession, hqueue, hlater⟩ hphase d

/-- Working the schedule off takes the life at a place further. -/
theorem Shows.workOff (h : f.Shows i l) (fuel : Nat) :
    ∃ m, l.Goes m ∧ (f.workOff fuel).Shows i m := by
  induction fuel generalizing f l with
  | zero => exact ⟨l, .refl l, h⟩
  | succ fuel ih =>
      unfold Fleet.workOff
      split
      · exact ⟨l, .refl l, h⟩
      · rename_i schedule hturn
        exact ih (h.pass hturn)
      · rename_i schedule hturn
        have hwork := h.work hturn
        exact hwork
      · rename_i e schedule hcaller hturn
        rcases h.work hturn with ⟨m, hgoes, hshows⟩
        rcases ih hshows with ⟨n, hgoes', hshows'⟩
        exact ⟨n, hgoes.trans hgoes', hshows'⟩

/-! ## Calls -/

end Fleet

/-- The wish to stop does not depend on the memory of a session. -/
theorem Session.stop_memory (s : Session α) (memory : TickMemory α) (now : Micros) :
    Session.stop { s with memory } now = { s.stop now with memory } := by
  unfold Session.stop Session.isActive
  split
  · rfl
  · split <;> rfl

/-- Nor does starting it. -/
theorem Session.start_memory (s : Session α) (memory : TickMemory α) (canRun : Bool) (now : Micros) :
    Session.start { s with memory } canRun now =
      (fun t : Session α => { t with memory }) <$> s.start canRun now := by
  unfold Session.start
  split
  · rfl
  · split
    · rfl
    · split <;> rfl

theorem Session.memory_stop (s : Session α) (now : Micros) : (s.stop now).memory = s.memory := by
  unfold Session.stop
  split
  · rfl
  · split <;> rfl

namespace Fleet

variable {f g : Fleet σ α} {i j : Nat} {l : Life α} {s : Session α}

/-- Asking the session at a place to stop is the call of its life. -/
theorem Shows.stopAt (h : f.Shows i l) :
    (f.stopAt i).Shows i { l with session := l.session.stop f.now } := by
  rcases h.session with ⟨memory, hsession, -⟩
  have hstopped : ∀ ns, ((f.setSession i (Session.stop { l.session with memory } f.now)).report
      ns).Shows i { l with session := l.session.stop f.now } := by
    intro ns
    refine h.setSession ?_ (Session.memory_stop _ _) h.polite rfl rfl
    intro memory' hsession'
    rw [hsession] at hsession'
    cases hsession'
    refine Eq.trans (session?_setSession f _ i i) ?_
    simp [hsession, Session.stop_memory]
  simp only [Fleet.stopAt, hsession]
  split
  · exact (hstopped _).cutRest i
  · exact hstopped _

theorem keeps_stopAt (f : Fleet σ α) (h : j ≠ i) : Keeps i f (f.stopAt j) := by
  unfold Fleet.stopAt
  split
  · exact .refl f
  · rename_i s hs
    have hstopped := (keeps_setSession f h (s.stop f.now)).trans (keeps_report _ s.stopNotices)
    exact Keeps.ite (fun _ => hstopped.trans (keeps_cutRest _ h)) fun _ => hstopped

/-- Asking several sessions to stop asks the session at a place, or leaves it as it is. -/
theorem Shows.stopWhere (h : f.Shows i l) (chosen : Session α → Bool) :
    (f.stopWhere chosen).Shows i l ∨
      (f.stopWhere chosen).Shows i { l with session := l.session.stop f.now } := by
  rcases h.session with ⟨memory, hsession, -⟩
  unfold Fleet.stopWhere SessionPool.stopWhere
  dsimp only
  cases hchosen : chosen { l.session with memory } with
  | false =>
      refine Or.inl (Shows.cutRests ?_ _)
      refine h.keep ⟨id, ?_, fun _ => rfl, rfl⟩
      have hget : f.pool.sessions[i]? = some { l.session with memory } := hsession
      simp [report, session?, hget, hchosen]
  | true =>
      refine Or.inr (Shows.cutRests ?_ _)
      refine h.setSession ?_ (Session.memory_stop _ _) h.polite rfl rfl
      intro memory' hsession'
      rw [hsession] at hsession'
      cases hsession'
      have hget : f.pool.sessions[i]? = some { l.session with memory } := hsession
      simp [report, session?, hget, hchosen, Session.stop_memory]

/-- A session without a loop has no errands. -/
theorem Shows.idle (h : f.Shows i l) (hphase : l.phase = .absent) : f.Idle i (some l.session) := by
  have herrands := h.errands
  rw [hphase] at herrands
  generalize hqueue : f.schedule.queuedFor i = queue at herrands
  generalize hlater : f.schedule.awaitedFor i = later at herrands
  cases herrands with
  | absent => exact ⟨h.polite, h.session_eq (by simp [hphase]), hqueue, hlater⟩

/-- The loop of a session that was started has its turn next. -/
theorem Idle.begin (h : f.Idle i (some l.session)) (hphase : l.phase = .ready) :
    (f.push 0 (.goOn i)).Shows i l := by
  refine ⟨h.polite, ⟨_, h.session, fun _ => rfl⟩, ?_⟩
  have hready : Awaits i .ready [.goOn i] ([] : List (Errand α)) := .ready
  rw [hphase]
  simpa [push, reschedule, h.queued, h.awaited, Errand.concerns] using hready

/-- Starting a session is refused, or finds a loop, or makes one that has its turn next. -/
theorem startAt_cases (hsession : f.session? i = some s) :
    (∃ fault, s.start f.pool.canRun f.now = .error fault ∧ (f.startAt i).2 = f.report []) ∨
    (s.loop ≠ .absent ∧ (f.startAt i).2 = (f.setSession i s).report []) ∨
    (s.loop = .absent ∧ ∃ t, s.start f.pool.canRun f.now = .ok t ∧
      (f.startAt i).2 = ((f.setSession i t).report [t.startNotice]).push 0 (.goOn i)) := by
  have hget : f.pool.sessions[i]? = some s := hsession
  cases hstart : s.start f.pool.canRun f.now with
  | error fault =>
      refine Or.inl ⟨fault, rfl, ?_⟩
      simp [Fleet.startAt, SessionPool.startAt, hget, hstart, Except.isOk, Except.toBool]
  | ok t =>
      by_cases habsent : s.loop = .absent
      · refine Or.inr (Or.inr ⟨habsent, t, rfl, ?_⟩)
        simp [Fleet.startAt, SessionPool.startAt, hget, hsession, hstart, habsent, Except.isOk,
          Except.toBool, setSession]
      · refine Or.inr (Or.inl ⟨habsent, ?_⟩)
        have ht : t = s := by simpa [Session.start, habsent, eq_comm] using hstart
        simp [Fleet.startAt, SessionPool.startAt, hget, hsession, hstart, habsent, ht, setSession]

theorem startAt_none (hsession : f.session? i = none) : (f.startAt i).2 = f.report [] := by
  have hget : f.pool.sessions[i]? = none := hsession
  simp [Fleet.startAt, SessionPool.startAt, hget, hsession]

theorem keeps_startAt (f : Fleet σ α) (h : j ≠ i) : Keeps i f (f.startAt j).2 := by
  cases hsession : f.session? j with
  | none =>
      rw [startAt_none hsession]
      exact keeps_report f []
  | some s =>
      rcases startAt_cases hsession with ⟨fault, -, heq⟩ | ⟨-, heq⟩ | ⟨-, t, -, heq⟩ <;> rw [heq]
      · exact keeps_report f []
      · exact (keeps_setSession f h s).trans (keeps_report _ [])
      · exact ((keeps_setSession f h t).trans (keeps_report _ _)).trans
          (keeps_push _ 0 (by simpa [Errand.concerns] using h))

/-- Starting the session at a place is the call of its life. -/
theorem Shows.startAt (h : f.Shows i l) (coherent : l.Coherent) :
    (f.startAt i).2.Shows i (l.start f.pool.canRun f.now).2 := by
  rcases h.session with ⟨memory, hsession, hmemory⟩
  rcases startAt_cases hsession with ⟨fault, hstart, heq⟩ | ⟨hloop, heq⟩ | ⟨habsent, t, hstart, heq⟩ <;>
    rw [heq]
  -- A call that is refused, and one that finds a loop, change nothing.
  · have hsame : (l.start f.pool.canRun f.now).2 = l := by
      rw [Session.start_memory] at hstart
      cases hstart' : l.session.start f.pool.canRun f.now with
      | error fault' => simp [Life.start, hstart']
      | ok t =>
          rw [hstart'] at hstart
          cases hstart
    rw [hsame]
    exact h.keep (keeps_report f [])
  · have hsame : (l.start f.pool.canRun f.now).2 = l := by
      have hloop' : l.session.loop ≠ .absent := hloop
      simp [Life.start, Session.start, hloop']
    rw [hsame]
    refine h.keep ⟨id, Eq.trans (session?_setSession f _ i i) ?_, fun _ => rfl, rfl⟩
    simp [hsession]
  -- A session without a loop runs no tick, so the fleet shows its very memory.
  · have habsent' : l.session.loop = .absent := habsent
    have hphase := coherent.absent_iff.2 habsent'
    have hexact : memory = l.session.memory := hmemory (by simp [hphase])
    rw [hexact] at hstart
    have hstart' : l.session.start f.pool.canRun f.now = .ok t := hstart
    simp only [Life.start, hstart', habsent', if_true]
    exact (((h.idle hphase).setSession t).keep (keeps_report _ _)).begin rfl

end Fleet

end RuleTrader
