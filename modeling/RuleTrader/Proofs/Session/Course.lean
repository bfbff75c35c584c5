import Mathlib.Logic.Relation
import RuleTrader.Proofs.Session.Simulation

/-!
# The course of a fleet

Whatever is done with a fleet, each of its sessions lives: `Fleet.Course.goes` follows one session through
a course of calls and waiting, and `Fleet.Course.lives` says that a session of a fleet that began without
sessions has lived from its making on. Nobody but its own loop may run the ticks of the session.
-/

namespace RuleTrader

variable {σ α : Type}

namespace SessionPool

/-- Giving out a name leaves the sessions as they are. -/
theorem nameSession_keeps {p q : SessionPool α} {id? : Option String} {id : String}
    (h : p.nameSession id? = (id, q)) : q.sessions = p.sessions ∧ q.canRun = p.canRun := by
  unfold nameSession at h
  split at h <;> cases h <;> exact ⟨rfl, rfl⟩

/-- What is launched is a new session that was started. -/
theorem started_of_launch {p : SessionPool α} {id : String} {r : SessionRequest} {rules : List Rule}
    {now : Micros} {t : Session α} (h : p.launch id r rules now = .ok t) :
    ∃ s : Session α, s.New ∧ s.start p.canRun now = .ok t := by
  rcases bind_ok h with ⟨s, hbuild, hstart⟩
  exact ⟨s, new_of_build (ok_of_mapError hbuild), ok_of_mapError hstart⟩

end SessionPool

namespace Fleet

/-! ## Making sessions -/

/-- What becomes of a fleet that is asked for a session. -/
inductive Makes (f : Fleet σ α) : Fleet σ α → Prop
  | nothing {pool : SessionPool α} {ns : List Notice} (same : pool.sessions = f.pool.sessions) :
      Makes f ({ f with pool }.report ns)
  | unstarted {pool : SessionPool α} {ns : List Notice} {s : Session α} (new : s.New)
      (grown : pool.sessions = f.pool.sessions ++ [s]) : Makes f ({ f with pool }.report ns)
  | started {pool : SessionPool α} {ns : List Notice} {s t : Session α} (new : s.New)
      (start : s.start f.pool.canRun f.now = .ok t) (grown : pool.sessions = f.pool.sessions ++ [t]) :
      Makes f (({ f with pool }.report ns).push 0 (.goOn f.pool.sessions.length))

theorem makes_add (f : Fleet σ α) (id? : Option String) (r : SessionRequest) :
    f.Makes (f.add id? r).2 := by
  unfold add SessionPool.add
  rcases SessionPool.readRules r.rules? with ⟨rules, notices⟩
  cases rules with
  | error fault => exact .nothing rfl
  | ok rules =>
      rcases hname : f.pool.nameSession id? with ⟨id, pool⟩
      have hsessions := (SessionPool.nameSession_keeps hname).1
      cases hbuild : pool.build id r rules false f.now with
      | error fault =>
          simp only [hbuild]
          exact .nothing hsessions
      | ok s =>
          simp only [hbuild]
          exact .unstarted (SessionPool.new_of_build hbuild) (by rw [hsessions])

theorem makes_create (f : Fleet σ α) (r : SessionRequest) : f.Makes (f.create r).2 := by
  unfold create SessionPool.create
  rcases SessionPool.readRules r.rules? with ⟨rules, notices⟩
  cases rules with
  | error fault =>
      simp only [takeOver, Nat.lt_irrefl, if_false]
      exact .nothing rfl
  | ok rules =>
      rcases hname : f.pool.nameSession none with ⟨id, pool⟩
      rcases SessionPool.nameSession_keeps hname with ⟨hsessions, hcanRun⟩
      cases hlaunch : pool.launch id r rules f.now with
      | error fault =>
          simp only [hlaunch, takeOver]
          rw [if_neg (by rw [hsessions]; exact Nat.lt_irrefl _)]
          exact .nothing hsessions
      -- The pool has grown, so the new session at its end gets a loop.
      | ok t =>
          rcases SessionPool.started_of_launch hlaunch with ⟨s, hnew, hstart⟩
          rw [hcanRun] at hstart
          simp only [hlaunch, takeOver, hsessions]
          rw [if_pos (by simp), List.length_append, List.length_singleton, Nat.add_sub_cancel]
          exact .started hnew hstart rfl

theorem makes_reuse (f : Fleet σ α) (r : SessionRequest) : f.Makes (f.reuse r).2 := by
  unfold reuse SessionPool.reuse
  cases f.pool.live? r.ownerId? with
  | some s =>
      simp only [takeOver, Nat.lt_irrefl, if_false]
      exact .nothing rfl
  | none => exact makes_create f r

theorem keeps_pool (f : Fleet σ α) {i : Nat} {pool : SessionPool α}
    (h : pool.sessions[i]? = f.pool.sessions[i]?) : Keeps i f { f with pool } :=
  ⟨id, h, fun _ => rfl, rfl⟩

theorem keeps_grown (f : Fleet σ α) {i : Nat} {pool : SessionPool α} {s : Session α}
    (grown : pool.sessions = f.pool.sessions ++ [s]) (h : i ≠ f.pool.sessions.length) :
    Keeps i f { f with pool } := by
  refine keeps_pool f ?_
  rw [grown]
  rcases Nat.lt_or_gt_of_ne h with hlt | hgt
  · exact List.getElem?_append_left hlt
  · rw [List.getElem?_eq_none (by simp; omega), List.getElem?_eq_none (by omega)]

variable {f g : Fleet σ α} {i : Nat} {l : Life α}

/-- Making sessions keeps the places that are taken. -/
theorem Makes.keeps (h : f.Makes g) (hi : i ≠ f.pool.sessions.length) : Keeps i f g := by
  cases h with
  | nothing same => exact (keeps_pool f (by rw [same])).trans (keeps_report _ _)
  | unstarted new grown => exact (keeps_grown f grown hi).trans (keeps_report _ _)
  | started new start grown =>
      refine ((keeps_grown f grown hi).trans (keeps_report _ _)).trans (keeps_push _ 0 ?_)
      simpa [Errand.concerns] using Ne.symm hi

/-- A place that no session has, and that nothing concerns. -/
def Vacant (f : Fleet σ α) (i : Nat) : Prop := f.Idle i none

theorem Vacant.cutRests (h : f.Vacant i) (places : List Nat) : (f.cutRests places).Vacant i := by
  unfold Fleet.cutRests
  induction places generalizing f with
  | nil => exact h
  | cons j places ih =>
      refine ih ?_
      by_cases hij : j = i
      -- There is no loop at the place that could be woken.
      · subst hij
        have hsame : f.cutRest j = f := by
          simp [Fleet.cutRest, Schedule.isQueued_settle, Schedule.isSet_goOn, h.queued, h.awaited]
        rw [hsame]
        exact h
      · exact h.keep (keeps_cutRest f hij)

theorem Vacant.stopWhere (h : f.Vacant i) (chosen : Session α → Bool) :
    (f.stopWhere chosen).Vacant i := by
  have hget : f.pool.sessions[i]? = none := h.session
  unfold Fleet.stopWhere SessionPool.stopWhere
  dsimp only
  refine Vacant.cutRests ?_ _
  refine h.keep ⟨id, ?_, fun _ => rfl, rfl⟩
  simp [report, session?, hget]

/-- The session at a place has lived from its making on, if the place has one. -/
def Lives (f : Fleet σ α) (i : Nat) : Prop :=
  f.Vacant i ∨ ∃ (s : Session α) (es : List LifeEvent) (l : Life α),
    s.New ∧ Life.Run { session := s } es l ∧ f.Shows i l

/-- Making a session for a place that has none begins a life. -/
theorem Makes.lives (h : f.Makes g) (vacant : f.Vacant i) : g.Lives i := by
  by_cases hi : i = f.pool.sessions.length
  · subst hi
    cases h with
    | nothing same =>
        exact Or.inl (vacant.keep ((keeps_pool f (by rw [same])).trans (keeps_report _ _)))
    | @unstarted pool ns s new grown =>
        refine Or.inr ⟨s, [], { session := s }, new, .nil _, vacant.polite, ⟨s.memory, ?_, ?_⟩, ?_⟩
        · simp [report, session?, grown]
        · exact fun _ => rfl
        · have habsent : Awaits f.pool.sessions.length .absent [] ([] : List (Errand α)) := .absent
          simpa [report, vacant.queued, vacant.awaited] using habsent
    | @started pool ns s t new start grown =>
        have hcall := Life.Step.start { session := s } f.pool.canRun f.now
        have hlife : (Life.start { session := s } f.pool.canRun f.now).2 =
            { session := t, phase := .ready, loop? := some 0, made := 1 } := by
          simp [Life.start, start, new.loop]
        rw [hlife] at hcall
        have hidle : ({ f with pool }.report ns).Idle f.pool.sessions.length (some t) :=
          ⟨vacant.polite, by simp [report, session?, grown], vacant.queued, vacant.awaited⟩
        exact Or.inr ⟨s, _, _, new, .cons hcall (.nil _), Idle.begin hidle rfl⟩
  · exact Or.inl (vacant.keep (h.keeps hi))

variable {s t : Session α}

/-- A fleet without sessions and errands has no lives yet. -/
theorem vacant_of_empty (hsessions : f.pool.sessions = []) (hqueue : f.schedule.queue = [])
    (halarms : f.schedule.alarms = []) (hlisteners : f.listeners = []) (i : Nat) : f.Vacant i where
  polite := by simp [Polite, hlisteners]
  session := by simp [session?, hsessions]
  queued := by simp [Schedule.queuedFor, hqueue]
  awaited := by simp [Schedule.awaitedFor, halarms]

/-- A session that a fleet has is the one of a life, up to its memory. -/
theorem Lives.life (h : f.Lives i) (hs : f.session? i = some s) :
    ∃ (new : Session α) (es : List LifeEvent) (l : Life α) (memory : TickMemory α),
      new.New ∧ Life.Run { session := new } es l ∧ f.Shows i l ∧ s = { l.session with memory } := by
  rcases h with vacant | ⟨new, es, l, hnew, hrun, hshows⟩
  · rw [vacant.session] at hs
    cases hs
  · rcases hshows.session with ⟨memory, hsession, -⟩
    rw [hsession] at hs
    exact ⟨new, es, l, memory, hnew, hrun, hshows, (Option.some.inj hs).symm⟩

/-- The status, the loop and the times of a session fit together. -/
theorem Lives.coherent (h : f.Lives i) (hs : f.session? i = some s) :
    Life.Allows s.loop s.status ∧ (s.startedAt?.isSome = true ↔ s.loop ≠ .absent) ∧
      (s.stoppedAt?.isSome = true ↔ s.status = .stopped) := by
  rcases h.life hs with ⟨new, es, l, memory, hnew, hrun, -, rfl⟩
  have hcoherent := hrun.coherent (.of_new hnew)
  exact ⟨hcoherent.status, hcoherent.started, hcoherent.stopped⟩

/-! ## Waiting -/

variable [Store σ α] [Amount α]

/-- What holds as long as only errands are done, whichever they are. -/
structure Stable (i : Nat) (P : Fleet σ α → Prop) : Prop where
  keep : ∀ {f g : Fleet σ α}, Keeps i f g → P f → P g
  workOff : ∀ {f : Fleet σ α} (fuel : Nat), P f → P (f.workOff fuel)

theorem stable_vacant (i : Nat) : Stable i fun f : Fleet σ α => f.Vacant i := by
  refine ⟨fun keeps h => h.keep keeps, ?_⟩
  intro f fuel h
  induction fuel generalizing f with
  | zero => exact h
  | succ fuel ih =>
      -- No errand in the queue concerns the place.
      have hturn : ∀ {e : Errand α} {schedule}, f.schedule.turn? = some (some e, schedule) →
          ({ f with schedule } : Fleet σ α).Vacant i ∧ e.concerns i = false := by
        intro e schedule hturn
        rcases Schedule.turn_some hturn i with ⟨hqueued, hawaited⟩
        rw [h.queued] at hqueued
        rcases List.append_eq_nil_iff.1 hqueued.symm with ⟨hnone, hleft⟩
        exact ⟨⟨h.polite, h.session, hleft, hawaited.trans h.awaited⟩, by simpa using hnone⟩
      unfold Fleet.workOff
      split
      · exact h
      · rename_i schedule hturn'
        have hempty := Schedule.turn_none hturn' i
        rw [h.queued, h.awaited] at hempty
        rcases hempty with ⟨hperm, hawaited⟩ | ⟨-, hperm⟩
        · exact ih ⟨h.polite, h.session, hperm.eq_nil, hawaited⟩
        · rcases List.append_eq_nil_iff.1 hperm.eq_nil with ⟨hqueued, hawaited⟩
          exact ih ⟨h.polite, h.session, hqueued, hawaited⟩
      · rename_i schedule hturn'
        exact (hturn hturn').1
      · rename_i e schedule hcaller hturn'
        rcases hturn hturn' with ⟨hleft, hconcerns⟩
        exact ih (hleft.keep (keeps_work _ hconcerns))

theorem stable_goes (i : Nat) (l : Life α) :
    Stable i fun f : Fleet σ α => ∃ m, l.Goes m ∧ f.Shows i m := by
  refine ⟨?_, ?_⟩
  · rintro f g keeps ⟨m, hgoes, hshows⟩
    exact ⟨m, hgoes, hshows.keep keeps⟩
  · rintro f fuel ⟨m, hgoes, hshows⟩
    rcases hshows.workOff fuel with ⟨n, hgoes', hshows'⟩
    exact ⟨n, hgoes.trans hgoes', hshows'⟩

namespace Stable

variable {P : Fleet σ α → Prop}

theorem sleep (stable : Stable i P) (h : P f) (span : Micros) : P (f.sleep span) := by
  unfold Fleet.sleep
  split
  · exact stable.workOff _ (stable.keep (keeps_push f 0 rfl) h)
  · exact stable.workOff _ (stable.keep (keeps_setAlarm f span 1 rfl) h)

theorem pause (stable : Stable i P) (h : P f) (span : Micros) : P (f.pause span) :=
  stable.workOff _ (stable.keep (keeps_setAlarm f span 4 rfl) h)

theorem runOnce (stable : Stable i P) (h : P f) {j : Nat} (other : j ≠ i) : P (f.runOnce j) := by
  unfold Fleet.runOnce
  split
  · exact stable.workOff _ (stable.keep (keeps_beginTick f other) h)
  · exact h

theorem awaitEnd (stable : Stable i P) (h : P f) (j : Nat) (span? : Option Micros) :
    P (f.awaitEnd j span?) := by
  cases span? with
  | none => exact stable.workOff _ (stable.keep (keeps_listen f j 1 rfl) h)
  | some span =>
      simp only [Fleet.awaitEnd]
      split
      · have hlistens := stable.keep (keeps_listen f j 2 (e := .caller) rfl) h
        exact stable.workOff _ (stable.keep (keeps_setAlarm _ span 1 (e := .giveUp j) rfl) hlistens)
      · have hlate := stable.keep (keeps_late f [j]) h
        exact stable.workOff _ (stable.keep (keeps_push _ 1 (e := .caller) rfl) hlate)

theorem waitStopped (stable : Stable i P) (h : P f) (j : Nat) (span? : Option Micros) :
    P (f.waitStopped j span?).2 := by
  have hbegun : P { f with late := [] } := stable.keep (keeps_late f []) h
  unfold Fleet.waitStopped
  dsimp only
  split
  · exact stable.awaitEnd hbegun j _
  · split
    · exact stable.workOff _ (stable.keep (keeps_push _ 1 rfl) hbegun)
    · exact hbegun
  · exact hbegun

/-- After all sessions were asked to stop the caller only waits for them. -/
theorem shutDown (stable : Stable i P) (h : P (f.stopWhere (·.managed))) (span? : Option Micros) :
    P (f.shutDown span?) := by
  have hasked : ∀ (places : List Nat) (g : Fleet σ α), P g →
      P (places.foldl (fun g j => g.push 0 (.ask j span?)) g) := by
    intro places
    induction places with
    | nil => exact fun g hg => hg
    | cons j places ih => exact fun g hg => ih _ (stable.keep (keeps_push g 0 rfl) hg)
  unfold Fleet.shutDown
  dsimp only
  split
  · exact h
  -- Every managed session gets a helper who waits for its end.
  · refine stable.keep (keeps_report _ _) (stable.workOff _ (hasked _ _ ?_))
    exact stable.keep ((keeps_late _ []).trans (keeps_helpers _ _)) h

end Stable

/-! ## Courses -/

/-- What somebody may do with a fleet. The session at a place runs its ticks by itself; those of the
other sessions may also be asked for. -/
inductive Deed (i : Nat) : Fleet σ α → Fleet σ α → Prop
  | add (f : Fleet σ α) (id? : Option String) (r : SessionRequest) : Deed i f (f.add id? r).2
  | create (f : Fleet σ α) (r : SessionRequest) : Deed i f (f.create r).2
  | reuse (f : Fleet σ α) (r : SessionRequest) : Deed i f (f.reuse r).2
  | startAt (f : Fleet σ α) (j : Nat) : Deed i f (f.startAt j).2
  | stopAt (f : Fleet σ α) (j : Nat) : Deed i f (f.stopAt j)
  | stopWhere (f : Fleet σ α) (chosen : Session α → Bool) : Deed i f (f.stopWhere chosen)
  | runOnce (f : Fleet σ α) {j : Nat} (other : j ≠ i) : Deed i f (f.runOnce j)
  | sleep (f : Fleet σ α) (span : Micros) : Deed i f (f.sleep span)
  | pause (f : Fleet σ α) (span : Micros) : Deed i f (f.pause span)
  | waitStopped (f : Fleet σ α) (j : Nat) (span? : Option Micros) :
      Deed i f (f.waitStopped j span?).2
  | shutDown (f : Fleet σ α) (span? : Option Micros) : Deed i f (f.shutDown span?)

/-- Any number of deeds. -/
def Course (i : Nat) : Fleet σ α → Fleet σ α → Prop := Relation.ReflTransGen (Deed i)

/-- A deed takes the life at a place further. -/
theorem Shows.deed (h : f.Shows i l) (coherent : l.Coherent) (deed : Deed i f g) :
    ∃ es m, Life.Run l es m ∧ g.Shows i m := by
  have hself : ∃ m, l.Goes m ∧ f.Shows i m := ⟨l, .refl l, h⟩
  have hloop : (∃ m, l.Goes m ∧ g.Shows i m) → ∃ es m, Life.Run l es m ∧ g.Shows i m := by
    rintro ⟨m, ⟨es, hrun, -⟩, hshows⟩
    exact ⟨es, m, hrun, hshows⟩
  have hmade : f.Makes g → ∃ es m, Life.Run l es m ∧ g.Shows i m := by
    intro hmakes
    -- The place is taken, and new sessions go to the end.
    have hi : i ≠ f.pool.sessions.length := by
      rintro rfl
      rcases h.session with ⟨memory, hsession, -⟩
      have hlt := (List.getElem?_eq_some_iff.1 hsession).1
      omega
    exact ⟨[], l, .nil l, h.keep (hmakes.keeps hi)⟩
  cases deed with
  | add id? r => exact hmade (makes_add f id? r)
  | create r => exact hmade (makes_create f r)
  | reuse r => exact hmade (makes_reuse f r)
  | startAt j =>
      by_cases hij : j = i
      · subst hij
        exact ⟨_, _, .cons (.start l f.pool.canRun f.now) (.nil _), h.startAt coherent⟩
      · exact ⟨[], l, .nil l, h.keep (keeps_startAt f hij)⟩
  | stopAt j =>
      by_cases hij : j = i
      · subst hij
        exact ⟨_, _, .cons (.stop l f.now) (.nil _), h.stopAt⟩
      · exact ⟨[], l, .nil l, h.keep (keeps_stopAt f hij)⟩
  | stopWhere chosen =>
      rcases h.stopWhere chosen with hkept | hstopped
      · exact ⟨[], l, .nil l, hkept⟩
      · exact ⟨_, _, .cons (.stop l f.now) (.nil _), hstopped⟩
  | runOnce other => exact hloop ((stable_goes i l).runOnce hself other)
  | sleep span => exact hloop ((stable_goes i l).sleep hself span)
  | pause span => exact hloop ((stable_goes i l).pause hself span)
  | waitStopped j span? => exact hloop ((stable_goes i l).waitStopped hself j span?)
  | shutDown span? =>
      rcases h.stopWhere (·.managed) with hkept | hstopped
      · exact hloop ((stable_goes i l).shutDown ⟨l, .refl l, hkept⟩ span?)
      · rcases (stable_goes i _).shutDown ⟨_, .refl _, hstopped⟩ span? with ⟨m, ⟨es, hrun, -⟩, hshows⟩
        exact ⟨_, m, .cons (.stop l f.now) hrun, hshows⟩

/-- A place without a session keeps none, or a life begins there. -/
theorem Vacant.deed (h : f.Vacant i) (deed : Deed i f g) : g.Lives i := by
  cases deed with
  | add id? r => exact (makes_add f id? r).lives h
  | create r => exact (makes_create f r).lives h
  | reuse r => exact (makes_reuse f r).lives h
  | startAt j =>
      by_cases hij : j = i
      · subst hij
        rw [startAt_none h.session]
        exact Or.inl (h.keep (keeps_report f []))
      · exact Or.inl (h.keep (keeps_startAt f hij))
  | stopAt j =>
      by_cases hij : j = i
      · subst hij
        have hsame : f.stopAt j = f := by simp [Fleet.stopAt, h.session]
        rw [hsame]
        exact Or.inl h
      · exact Or.inl (h.keep (keeps_stopAt f hij))
  | stopWhere chosen => exact Or.inl (h.stopWhere chosen)
  | runOnce other => exact Or.inl ((stable_vacant i).runOnce h other)
  | sleep span => exact Or.inl ((stable_vacant i).sleep h span)
  | pause span => exact Or.inl ((stable_vacant i).pause h span)
  | waitStopped j span? => exact Or.inl ((stable_vacant i).waitStopped h j span?)
  | shutDown span? => exact Or.inl ((stable_vacant i).shutDown (h.stopWhere _) span?)

/-- A course of deeds is a run of the life at a place. -/
theorem Course.goes (course : Course i f g) (h : f.Shows i l) (coherent : l.Coherent) :
    ∃ es m, Life.Run l es m ∧ g.Shows i m := by
  induction course with
  | refl => exact ⟨[], l, .nil l, h⟩
  | tail course deed ih =>
      rcases ih with ⟨es, m, hrun, hshows⟩
      rcases hshows.deed (hrun.coherent coherent) deed with ⟨fs, n, hrun', hshows'⟩
      exact ⟨es ++ fs, n, hrun.append hrun', hshows'⟩

/-- Whatever is done with a fleet, its sessions live. -/
theorem Course.lives (course : Course i f g) (h : f.Lives i) : g.Lives i := by
  induction course with
  | refl => exact h
  | tail course deed ih =>
      rcases ih with vacant | ⟨s, es, l, new, hrun, hshows⟩
      · exact vacant.deed deed
      · rcases hshows.deed (hrun.coherent (.of_new new)) deed with ⟨fs, m, hrun', hshows'⟩
        exact Or.inr ⟨s, es ++ fs, m, new, hrun.append hrun', hshows'⟩

/-! ## Sessions of a fleet -/

/-- The status of a session only moves forward, its times stay once they are set, and after the wish to
stop at most one more tick ends. -/
theorem Course.follows (course : Course i f g) (h : f.Lives i) (hs : f.session? i = some s)
    (ht : g.session? i = some t) :
    s.status.rank ≤ t.status.rank ∧ (∀ now, s.startedAt? = some now → t.startedAt? = some now) ∧
      (∀ now, s.stoppedAt? = some now → t.stoppedAt? = some now) ∧
      (SessionStatus.stopping.rank ≤ s.status.rank → t.ticks ≤ s.ticks + 1) := by
  rcases h.life hs with ⟨new, es, l, memory, hnew, hrun, hshows, rfl⟩
  have hcoherent := hrun.coherent (.of_new hnew)
  rcases course.goes hshows hcoherent with ⟨fs, m, hrun', hshows'⟩
  rcases hshows'.session with ⟨memory', hsession, -⟩
  rw [hsession] at ht
  cases ht
  have hfollows := hrun'.follows hcoherent
  refine ⟨hfollows.forward, hfollows.started, hfollows.stopped, ?_⟩
  intro asked
  have hbefore : Life.Reports l.session es := by
    have hreports : Life.Reports new [] := ⟨hnew.ticks, hnew.lastFailure⟩
    simpa using hrun.reports hreports
  have hafter := hrun'.reports hbefore
  -- What ends after the wish to stop was in flight when it came.
  have hended := (hrun'.after_asked hcoherent asked).2
  calc
    m.session.ticks = es.countP LifeEvent.isEndTick + fs.countP LifeEvent.isEndTick := by
      rw [hafter.ticks, List.countP_append]
    _ ≤ l.session.ticks + l.inFlight := by
      rw [hbefore.ticks]
      omega
    _ ≤ l.session.ticks + 1 := Nat.add_le_add_left l.inFlight_le_one _

end Fleet

end RuleTrader
