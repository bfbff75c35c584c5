import RuleTrader.Proofs.Outcome
import RuleTrader.Session.Pool

/-!
# The life of a session

Anybody may start a session and ask it to stop at any time, also between two steps of its loop.
`Life.Step` has one case for each call and for each step of the loop; what a session does in a step is
what its own functions say, and in which order the steps come is left open. `Life.Run` is any number of
steps, with the list of what happened.

* `Life.Step.coherent`, `Life.Run.coherent` — status, loop and times fit together at every moment;
* `Life.Step.follows`, `Life.Run.follows` — the status only moves forward, and no time is set twice;
* `Life.lifecycle` — the accounts of a whole run.
-/

namespace RuleTrader

/-- How far along a status is. -/
def SessionStatus.rank : SessionStatus → Nat
  | .starting => 0
  | .running => 1
  | .stopping => 2
  | .stopped => 3

/-- Where a loop is between two of its steps. -/
inductive LoopPhase where
  | absent
  /-- The loop is about to look at the status. -/
  | ready
  | ticking (since : Micros)
  /-- A tick has ended, and the loop is about to look at the status again. -/
  | ticked
  | resting
  | over
  deriving DecidableEq, Repr

/-- A session and its loop. Loops are numbered as they are made. -/
structure Life (α : Type) where
  session : Session α
  phase : LoopPhase := .absent
  loop? : Option Nat := none
  made : Nat := 0

/-- What happens in a life. -/
inductive LifeEvent where
  /-- A call to start, with the loop that it gives. -/
  | start (now : Micros) (result : Except StartFault (Option Nat))
  | stop (now : Micros)
  | beginTick (now : Micros)
  | endTick (now : Micros) (failure? : Option TickFailure)
  | rest
  /-- A rest ends, by the wish to stop or because its time is over. -/
  | wake (wish : Bool)
  | finish (now : Micros)

namespace LifeEvent

def isBeginTick : LifeEvent → Bool
  | .beginTick _ => true
  | _ => false

def isEndTick : LifeEvent → Bool
  | .endTick _ _ => true
  | _ => false

/-- What a tick that ended came to. -/
def outcome? : LifeEvent → Option (Option TickFailure)
  | .endTick _ failure? => some failure?
  | _ => none

end LifeEvent

/-- A session as it is made. -/
structure Session.New {α : Type} (s : Session α) : Prop where
  status : s.status = .starting
  loop : s.loop = .absent
  startedAt : s.startedAt? = none
  stoppedAt : s.stoppedAt? = none
  ticks : s.ticks = 0
  lastFailure : s.lastFailure? = none

theorem SessionPool.new_of_build {α : Type} {p : SessionPool α} {id : String} {r : SessionRequest}
    {rules : List Rule} {managed : Bool} {now : Micros} {s : Session α}
    (h : p.build id r rules managed now = .ok s) : s.New := by
  rcases bind_ok h with ⟨capacity, -, hs⟩
  cases hs
  exact ⟨rfl, rfl, rfl, rfl, rfl, rfl⟩

namespace Life

variable {α : Type}

/-- Start the session of a life, with the loop that the session then has. -/
def start (l : Life α) (canRun : Bool) (now : Micros) : Except StartFault (Option Nat) × Life α :=
  match l.session.start canRun now with
  | .error fault => (.error fault, l)
  | .ok s =>
    if l.session.loop = .absent then
      (.ok (some l.made), { session := s, phase := .ready, loop? := some l.made, made := l.made + 1 })
    else (.ok l.loop?, { l with session := s })

/-- One call from outside, or one step of the loop. -/
inductive Step : Life α → LifeEvent → Life α → Prop
  | start (l : Life α) (canRun : Bool) (now : Micros) :
      Step l (.start now (l.start canRun now).1) (l.start canRun now).2
  | stop (l : Life α) (now : Micros) : Step l (.stop now) { l with session := l.session.stop now }
  | beginTick (now : Micros) (ready : l.phase = .ready) (goes : l.session.isStopping = false) :
      Step l (.beginTick now) { l with phase := .ticking now }
  | endTick {since : Micros} (now : Micros) (memory : TickMemory α) (failure? : Option TickFailure)
      (ticking : l.phase = .ticking since) :
      Step l (.endTick now failure?)
        { l with
          session := { l.session with memory }.recordTick since now failure?
          phase := .ticked }
  | rest {span : Micros} (ticked : l.phase = .ticked) (rests : l.session.afterTick = .ok span) :
      Step l .rest { l with phase := .resting }
  | wake (wish : Bool) (resting : l.phase = .resting) (wished : wish = true → l.session.isStopping = true) :
      Step l (.wake wish) { l with phase := .ready }
  | leave (now : Micros) (ready : l.phase = .ready) (stopping : l.session.isStopping = true) :
      Step l (.finish now) { l with session := l.session.finish now none, phase := .over }
  | finish {fault? : Option NumberFault} (now : Micros) (ticked : l.phase = .ticked)
      (ends : l.session.afterTick = .error fault?) :
      Step l (.finish now) { l with session := l.session.finish now fault?, phase := .over }

/-- Any number of steps in any order. -/
inductive Run : Life α → List LifeEvent → Life α → Prop
  | nil (l : Life α) : Run l [] l
  | cons {l m n : Life α} {e : LifeEvent} {es : List LifeEvent} (step : Step l e m) (run : Run m es n) :
      Run l (e :: es) n

/-! ## Calls -/

/-- Starting is refused, or finds a loop, or makes one for a session that was never started. -/
theorem start_cases (l : Life α) (canRun : Bool) (now : Micros) :
    (∃ fault, l.start canRun now = (.error fault, l)) ∨
    (l.session.loop ≠ .absent ∧ l.start canRun now = (.ok l.loop?, l)) ∨
    (l.session.loop = .absent ∧ l.session.status = .starting ∧
      l.start canRun now = (.ok (some l.made),
        { session := { l.session with status := .running, startedAt? := some now, loop := .underWay }
          phase := .ready, loop? := some l.made, made := l.made + 1 })) := by
  by_cases habsent : l.session.loop = .absent
  · by_cases hstarting : l.session.status = .starting
    · cases canRun with
      | false => exact Or.inl ⟨.nowhereToRun, by simp [start, Session.start, habsent, hstarting]⟩
      | true =>
          refine Or.inr (Or.inr ⟨habsent, hstarting, ?_⟩)
          simp [start, Session.start, habsent, hstarting]
    · exact Or.inl ⟨_, by simp [start, Session.start, habsent, hstarting]; rfl⟩
  · exact Or.inr (Or.inl ⟨habsent, by simp [start, Session.start, habsent]⟩)

/-- A session that has been asked already is left alone; one without a loop stops at once. -/
theorem stop_cases (s : Session α) (now : Micros) :
    ((s.status = .stopping ∨ s.status = .stopped) ∧ s.stop now = s) ∨
    ((s.status = .starting ∨ s.status = .running) ∧ s.loop = .absent ∧
      s.stop now = { s with status := .stopped, stoppedAt? := some now }) ∨
    ((s.status = .starting ∨ s.status = .running) ∧ s.loop ≠ .absent ∧
      s.stop now = { s with status := .stopping }) := by
  by_cases habsent : s.loop = .absent <;> cases hstatus : s.status <;>
    simp [Session.stop, Session.isActive, habsent, hstatus]

/-! ## Coherence -/

/-- The statuses that a session can have, by where its loop is. -/
def Allows : LoopStage → SessionStatus → Prop
  | .absent, status => status = .starting ∨ status = .stopped
  | .underWay, status => status = .running ∨ status = .stopping
  | .ended _, status => status = .stopped

/-- The status, the loop and the times fit together. -/
structure Coherent (l : Life α) : Prop where
  absent_iff : l.phase = .absent ↔ l.session.loop = .absent
  over_iff : l.phase = .over ↔ l.session.loop.isEnded = true
  status : Allows l.session.loop l.session.status
  started : l.session.startedAt?.isSome = true ↔ l.session.loop ≠ .absent
  stopped : l.session.stoppedAt?.isSome = true ↔ l.session.status = .stopped
  made : l.made = if l.session.loop = .absent then 0 else 1
  loop : l.loop? = if l.session.loop = .absent then none else some 0

theorem Coherent.of_new {s : Session α} (h : s.New) : Coherent { session := s } := by
  refine ⟨?_, ?_, ?_, ?_, ?_, ?_, ?_⟩ <;>
    simp [h.status, h.loop, h.startedAt, h.stoppedAt, Allows, LoopStage.isEnded]

/-- A loop that is neither missing nor over is under way. -/
theorem Coherent.underWay {l : Life α} (h : l.Coherent) (habsent : l.phase ≠ .absent)
    (hover : l.phase ≠ .over) :
    l.session.loop = .underWay ∧ (l.session.status = .running ∨ l.session.status = .stopping) := by
  have hstatus := h.status
  cases hloop : l.session.loop with
  | absent => exact absurd (h.absent_iff.2 hloop) habsent
  | ended fault? => exact absurd (h.over_iff.2 (by rw [hloop]; rfl)) hover
  | underWay =>
      rw [hloop] at hstatus
      exact ⟨rfl, hstatus⟩

/-- A step of a loop that changes only where the loop is. -/
theorem Coherent.move {l : Life α} (h : l.Coherent) {phase : LoopPhase} (habsent : l.phase ≠ .absent)
    (hover : l.phase ≠ .over) (habsent' : phase ≠ .absent) (hover' : phase ≠ .over) :
    Coherent { l with phase } := by
  have hloop := (h.underWay habsent hover).1
  refine { h with absent_iff := ?_, over_iff := ?_ }
  · simp [hloop, habsent']
  · simp [hloop, hover', LoopStage.isEnded]

theorem Coherent.finish {l : Life α} (h : l.Coherent) (habsent : l.phase ≠ .absent)
    (hover : l.phase ≠ .over) (now : Micros) (fault? : Option NumberFault) :
    Coherent { l with session := l.session.finish now fault?, phase := .over } := by
  have hloop := (h.underWay habsent hover).1
  have hmade := h.made
  have hnumber := h.loop
  have hstarted := h.started
  rw [hloop] at hmade hnumber hstarted
  refine ⟨?_, ?_, rfl, ?_, ?_, hmade, hnumber⟩
  · simp [Session.finish]
  · simp [Session.finish, LoopStage.isEnded]
  · simpa [Session.finish] using hstarted
  · simp [Session.finish]

theorem Coherent.start {l : Life α} (h : l.Coherent) (canRun : Bool) (now : Micros) :
    (l.start canRun now).2.Coherent := by
  rcases l.start_cases canRun now with ⟨fault, hstart⟩ | ⟨-, hstart⟩ | ⟨habsent, hstarting, hstart⟩
  · rw [hstart]
    exact h
  · rw [hstart]
    exact h
  · -- The first start: a loop is made, and the time is set for the first time.
    rw [hstart]
    have hmade := h.made
    have hstopped := h.stopped
    rw [habsent] at hmade
    rw [hstarting] at hstopped
    refine ⟨?_, ?_, Or.inl rfl, ?_, ?_, ?_, ?_⟩
    · simp
    · simp [LoopStage.isEnded]
    · simp
    · simpa using hstopped
    · simp [hmade]
    · simp [hmade]

theorem Coherent.stop {l : Life α} (h : l.Coherent) (now : Micros) :
    Coherent { l with session := l.session.stop now } := by
  rcases stop_cases l.session now with ⟨-, hstop⟩ | ⟨-, habsent, hstop⟩ | ⟨hstatus, hloop, hstop⟩
  · rw [hstop]
    exact h
  · -- Without a loop there is nothing to wait for.
    rw [hstop]
    refine { h with status := ?_, stopped := ?_ }
    · rw [habsent]
      exact Or.inr rfl
    · simp
  · -- With a loop the session waits for it, and a loop that has ended has stopped the session before.
    rw [hstop]
    have hallowed := h.status
    have hstopped := h.stopped
    refine { h with status := ?_, stopped := ?_ }
    · cases hstage : l.session.loop with
      | absent => exact absurd hstage hloop
      | underWay => exact Or.inr rfl
      | ended fault? =>
          rw [hstage] at hallowed
          rw [show l.session.status = .stopped from hallowed] at hstatus
          simp at hstatus
    · rcases hstatus with hstatus | hstatus <;>
        · rw [hstatus] at hstopped
          simpa using hstopped

theorem Step.coherent {l m : Life α} {e : LifeEvent} (step : Step l e m) (h : l.Coherent) :
    m.Coherent := by
  cases step with
  | start canRun now => exact h.start canRun now
  | stop now => exact h.stop now
  | beginTick now ready goes => exact h.move (by simp [ready]) (by simp [ready]) (by simp) (by simp)
  | endTick now memory failure? ticking =>
      -- The record of a tick touches neither the status nor the loop.
      have hmoved : Coherent { l with phase := .ticked } :=
        h.move (by simp [ticking]) (by simp [ticking]) (by simp) (by simp)
      exact ⟨hmoved.absent_iff, hmoved.over_iff, hmoved.status, hmoved.started, hmoved.stopped,
        hmoved.made, hmoved.loop⟩
  | rest ticked rests => exact h.move (by simp [ticked]) (by simp [ticked]) (by simp) (by simp)
  | wake wish resting wished =>
      exact h.move (by simp [resting]) (by simp [resting]) (by simp) (by simp)
  | leave now ready stopping => exact h.finish (by simp [ready]) (by simp [ready]) now none
  | finish now ticked ends => exact h.finish (by simp [ticked]) (by simp [ticked]) now _

theorem Run.coherent {l m : Life α} {es : List LifeEvent} (run : Run l es m) (h : l.Coherent) :
    m.Coherent := by
  induction run with
  | nil l => exact h
  | cons step run ih => exact ih (step.coherent h)

/-! ## Going forward -/

/-- What a step never takes back: how far along the status is, and the times once they are set. -/
structure Follows (l m : Life α) : Prop where
  forward : l.session.status.rank ≤ m.session.status.rank
  started : ∀ t, l.session.startedAt? = some t → m.session.startedAt? = some t
  stopped : ∀ t, l.session.stoppedAt? = some t → m.session.stoppedAt? = some t

theorem Follows.refl (l : Life α) : l.Follows l :=
  ⟨Nat.le_refl _, fun _ h => h, fun _ h => h⟩

theorem Follows.trans {l m n : Life α} (h : l.Follows m) (h' : m.Follows n) : l.Follows n :=
  ⟨Nat.le_trans h.forward h'.forward, fun t ht => h'.started t (h.started t ht),
    fun t ht => h'.stopped t (h.stopped t ht)⟩

/-- A loop ends only a session that has not stopped before. -/
theorem Coherent.follows_finish {l : Life α} (h : l.Coherent) (habsent : l.phase ≠ .absent)
    (hover : l.phase ≠ .over) (now : Micros) (fault? : Option NumberFault) :
    l.Follows { l with session := l.session.finish now fault?, phase := .over } := by
  have hstatus := (h.underWay habsent hover).2
  have hnotStopped : l.session.status ≠ .stopped := by
    rcases hstatus with hstatus | hstatus <;> simp [hstatus]
  have hnone : l.session.stoppedAt? = none := by
    have hstopped := h.stopped
    simpa [hnotStopped] using hstopped
  refine ⟨?_, fun t ht => ht, ?_⟩
  · rcases hstatus with hstatus | hstatus <;> simp [Session.finish, hstatus, SessionStatus.rank]
  · intro t ht
    rw [hnone] at ht
    cases ht

theorem Coherent.follows_start {l : Life α} (h : l.Coherent) (canRun : Bool) (now : Micros) :
    l.Follows (l.start canRun now).2 := by
  rcases l.start_cases canRun now with ⟨fault, hstart⟩ | ⟨-, hstart⟩ | ⟨habsent, hstarting, hstart⟩
  · rw [hstart]
    exact .refl l
  · rw [hstart]
    exact .refl l
  · -- No loop yet, so no time to take back.
    rw [hstart]
    have hstarted := h.started
    refine ⟨?_, ?_, fun t ht => ht⟩
    · simp [hstarting, SessionStatus.rank]
    · intro t ht
      simp [ht, habsent] at hstarted

theorem Coherent.follows_stop {l : Life α} (h : l.Coherent) (now : Micros) :
    l.Follows { l with session := l.session.stop now } := by
  have hstopped := h.stopped
  rcases stop_cases l.session now with ⟨-, hstop⟩ | ⟨hstatus, -, hstop⟩ | ⟨hstatus, -, hstop⟩
  · rw [hstop]
    exact .refl l
  · rw [hstop]
    refine ⟨?_, fun t ht => ht, ?_⟩
    · rcases hstatus with hstatus | hstatus <;> simp [hstatus, SessionStatus.rank]
    · intro t ht
      rcases hstatus with hstatus | hstatus <;> simp [ht, hstatus] at hstopped
  · rw [hstop]
    refine ⟨?_, fun t ht => ht, fun t ht => ht⟩
    rcases hstatus with hstatus | hstatus <;> simp [hstatus, SessionStatus.rank]

theorem Step.follows {l m : Life α} {e : LifeEvent} (step : Step l e m) (h : l.Coherent) :
    l.Follows m := by
  cases step with
  | start canRun now => exact h.follows_start canRun now
  | stop now => exact h.follows_stop now
  | beginTick now ready goes => exact ⟨Nat.le_refl _, fun t ht => ht, fun t ht => ht⟩
  | endTick now memory failure? ticking => exact ⟨Nat.le_refl _, fun t ht => ht, fun t ht => ht⟩
  | rest ticked rests => exact ⟨Nat.le_refl _, fun t ht => ht, fun t ht => ht⟩
  | wake wish resting wished => exact ⟨Nat.le_refl _, fun t ht => ht, fun t ht => ht⟩
  | leave now ready stopping =>
      exact h.follows_finish (by simp [ready]) (by simp [ready]) now none
  | finish now ticked ends => exact h.follows_finish (by simp [ticked]) (by simp [ticked]) now _

theorem Run.follows {l m : Life α} {es : List LifeEvent} (run : Run l es m) (h : l.Coherent) :
    l.Follows m := by
  induction run with
  | nil l => exact .refl l
  | cons step run ih => exact (step.follows h).trans (ih (step.coherent h))

/-! ## After the wish to stop -/

/-- A session that has been asked to stop. -/
def Asked (l : Life α) : Prop := SessionStatus.stopping.rank ≤ l.session.status.rank

theorem asked_stop (l : Life α) (now : Micros) : Asked { l with session := l.session.stop now } := by
  rcases stop_cases l.session now with ⟨hstatus, hstop⟩ | ⟨-, -, hstop⟩ | ⟨-, -, hstop⟩
  · rcases hstatus with hstatus | hstatus <;> simp [Asked, hstop, hstatus, SessionStatus.rank]
  · simp [Asked, hstop, SessionStatus.rank]
  · simp [Asked, hstop]

/-- The number of ticks under way. -/
def inFlight (l : Life α) : Nat :=
  match l.phase with
  | .ticking _ => 1
  | _ => 0

theorem inFlight_le_one (l : Life α) : l.inFlight ≤ 1 := by
  unfold inFlight
  split
  · exact Nat.le_refl 1
  · exact Nat.zero_le 1

/-- A run lets the session be asked when there is a call to stop in it. -/
theorem Run.asked {l m : Life α} {es : List LifeEvent} (run : Run l es m) (h : l.Coherent)
    (hstop : ∃ now, LifeEvent.stop now ∈ es) : m.Asked := by
  induction run with
  | nil l =>
      rcases hstop with ⟨now, hmem⟩
      cases hmem
  | cons step run ih =>
      have hcoherent := step.coherent h
      rcases hstop with ⟨now, hmem⟩
      rcases List.mem_cons.1 hmem with rfl | hmem
      · -- From the call on the status does not go back.
        cases step with
        | stop now => exact Nat.le_trans (asked_stop _ now) (run.follows hcoherent).forward
      · exact ih hcoherent ⟨now, hmem⟩

theorem inFlight_of_phase {l m : Life α} (h : m.phase = l.phase) : m.inFlight = l.inFlight := by
  simp [inFlight, h]

/-- Once a session has been asked to stop no tick begins, and a tick that ends was under way. -/
theorem Step.after_asked {l m : Life α} {e : LifeEvent} (step : Step l e m) (h : l.Coherent)
    (asked : l.Asked) :
    e.isBeginTick = false ∧ m.inFlight + (if e.isEndTick then 1 else 0) = l.inFlight := by
  cases step with
  | start canRun now =>
      refine ⟨rfl, ?_⟩
      rcases l.start_cases canRun now with ⟨fault, hstart⟩ | ⟨-, hstart⟩ | ⟨-, hstarting, -⟩
      · rw [hstart]
        rfl
      · rw [hstart]
        rfl
      · simp [Asked, hstarting, SessionStatus.rank] at asked
  | stop now => exact ⟨rfl, inFlight_of_phase rfl⟩
  | beginTick now ready goes =>
      -- The loop has just seen that nobody asked.
      rcases (h.underWay (by simp [ready]) (by simp [ready])).2 with hstatus | hstatus
      · simp [Asked, hstatus, SessionStatus.rank] at asked
      · simp [Session.isStopping, hstatus] at goes
  | endTick now memory failure? ticking => exact ⟨rfl, by simp [inFlight, ticking, LifeEvent.isEndTick]⟩
  | rest ticked rests => exact ⟨rfl, by simp [inFlight, ticked, LifeEvent.isEndTick]⟩
  | wake wish resting wished => exact ⟨rfl, by simp [inFlight, resting, LifeEvent.isEndTick]⟩
  | leave now ready stopping => exact ⟨rfl, by simp [inFlight, ready, LifeEvent.isEndTick]⟩
  | finish now ticked ends => exact ⟨rfl, by simp [inFlight, ticked, LifeEvent.isEndTick]⟩

theorem Run.after_asked {l m : Life α} {es : List LifeEvent} (run : Run l es m) (h : l.Coherent)
    (asked : l.Asked) :
    (∀ e ∈ es, e.isBeginTick = false) ∧ m.inFlight + es.countP LifeEvent.isEndTick = l.inFlight := by
  induction run with
  | nil l => exact ⟨by simp, rfl⟩
  | cons step run ih =>
      have hstep := step.after_asked h asked
      have hrest := ih (step.coherent h) (Nat.le_trans asked (step.follows h).forward)
      refine ⟨List.forall_mem_cons.2 ⟨hstep.1, hrest.1⟩, ?_⟩
      rw [List.countP_cons]
      omega

/-! ## Accounts -/

/-- What a session reports about the ticks that ended. -/
structure Reports (s : Session α) (es : List LifeEvent) : Prop where
  ticks : s.ticks = es.countP LifeEvent.isEndTick
  lastFailure : s.lastFailure? = (es.filterMap LifeEvent.outcome?).getLast?.join

/-- A call or a step without an end of a tick leaves the report as it is. -/
theorem Reports.keep {s t : Session α} {es : List LifeEvent} {e : LifeEvent} (h : Reports s es)
    (hticks : t.ticks = s.ticks) (hfailure : t.lastFailure? = s.lastFailure?)
    (hend : e.isEndTick = false) (houtcome : e.outcome? = none) : Reports t (es ++ [e]) := by
  refine ⟨?_, ?_⟩
  · simp [hticks, h.ticks, hend]
  · simp [hfailure, h.lastFailure, houtcome, List.filterMap_append]

theorem Step.reports {l m : Life α} {e : LifeEvent} {es : List LifeEvent} (step : Step l e m)
    (h : Reports l.session es) : Reports m.session (es ++ [e]) := by
  cases step with
  | start canRun now =>
      rcases l.start_cases canRun now with ⟨fault, hstart⟩ | ⟨-, hstart⟩ | ⟨-, -, hstart⟩ <;>
        exact h.keep (by rw [hstart]) (by rw [hstart]) rfl rfl
  | stop now =>
      rcases stop_cases l.session now with ⟨-, hstop⟩ | ⟨-, -, hstop⟩ | ⟨-, -, hstop⟩ <;>
        exact h.keep (by simp [hstop]) (by simp [hstop]) rfl rfl
  | beginTick now ready goes => exact h.keep rfl rfl rfl rfl
  | endTick now memory failure? ticking =>
      -- The one step that changes the report adds to it what it adds to the events.
      refine ⟨?_, ?_⟩
      · simp [Session.recordTick, h.ticks, LifeEvent.isEndTick]
      · simp [Session.recordTick, LifeEvent.outcome?, List.filterMap_append]
  | rest ticked rests => exact h.keep rfl rfl rfl rfl
  | wake wish resting wished => exact h.keep rfl rfl rfl rfl
  | leave now ready stopping => exact h.keep rfl rfl rfl rfl
  | finish now ticked ends => exact h.keep rfl rfl rfl rfl

theorem Run.reports {l m : Life α} {es fs : List LifeEvent} (run : Run l fs m)
    (h : Reports l.session es) : Reports m.session (es ++ fs) := by
  induction run generalizing es with
  | nil l => simpa using h
  | cons step run ih => simpa using ih (step.reports h)

/-- A call to start that succeeds gives the first loop. -/
theorem Step.start_gives {l m : Life α} {now : Micros} {loop? : Option Nat}
    (step : Step l (.start now (.ok loop?)) m) (h : l.Coherent) : loop? = some 0 := by
  generalize he : LifeEvent.start now (.ok loop?) = e at step
  cases step with
  | start canRun now' =>
      injection he with hnow hresult
      rcases l.start_cases canRun now' with ⟨fault, hstart⟩ | ⟨hloop, hstart⟩ | ⟨habsent, -, hstart⟩
      · rw [hstart] at hresult
        cases hresult
      · -- The loop that is there is the first one.
        rw [hstart] at hresult
        cases hresult
        rw [h.loop, if_neg hloop]
      · rw [hstart] at hresult
        cases hresult
        rw [h.made, if_pos habsent]
  | _ => cases he

theorem Run.start_gives {l m : Life α} {es : List LifeEvent} (run : Run l es m) (h : l.Coherent) :
    ∀ now loop?, .start now (.ok loop?) ∈ es → loop? = some 0 := by
  induction run with
  | nil l =>
      intro now loop? hmem
      cases hmem
  | cons step run ih =>
      intro now loop? hmem
      rcases List.mem_cons.1 hmem with rfl | hmem
      · exact step.start_gives h
      · exact ih (step.coherent h) now loop? hmem

theorem Run.append {l m n : Life α} {es fs : List LifeEvent} (run : Run l es m) (run' : Run m fs n) :
    Run l (es ++ fs) n := by
  induction run with
  | nil l => exact run'
  | cons step run ih => exact .cons step (ih run')

/-- What a life comes to after everything that happened in it. -/
structure Settled (l : Life α) (es : List LifeEvent) : Prop where
  /-- No more than one loop is made, -/
  one_loop : l.made ≤ 1
  /-- and every start that succeeds gives it. -/
  same_loop : ∀ now loop?, .start now (.ok loop?) ∈ es → loop? = some 0
  started_iff : l.session.startedAt?.isSome = true ↔ l.made = 1
  stopped_iff : l.session.stoppedAt?.isSome = true ↔ l.session.status = .stopped
  reports : Reports l.session es

/-- The life of a session, at any moment of it and at any later one. -/
theorem lifecycle {s : Session α} (new : s.New) {es fs : List LifeEvent} {l m : Life α}
    (first : Run { session := s } es l) (later : Run l fs m) :
    m.Settled (es ++ fs) ∧ l.Follows m ∧
      ((∃ now, .stop now ∈ es) → (∀ now, .beginTick now ∉ fs) ∧
        fs.countP LifeEvent.isEndTick ≤ l.inFlight) ∧
      ∀ canRun now fault, (m.start canRun now).1 = .error fault → (m.start canRun now).2 = m := by
  have hnew := Coherent.of_new new
  have hfirst := first.coherent hnew
  have hlater := later.coherent hfirst
  have hreports : Reports s [] := ⟨new.ticks, new.lastFailure⟩
  refine ⟨⟨?_, ?_, ?_, hlater.stopped, ?_⟩, later.follows hfirst, ?_, ?_⟩
  · rw [hlater.made]
    split <;> simp
  · exact (first.append later).start_gives hnew
  · rw [hlater.started, hlater.made]
    split <;> simp_all
  · simpa using later.reports (first.reports hreports)
  · intro hstop
    -- At the request a tick may be in flight; it ends, and no other begins.
    have hafter := later.after_asked hfirst (first.asked hnew hstop)
    refine ⟨?_, by omega⟩
    intro now hmem
    cases hafter.1 _ hmem
  · intro canRun now fault hfault
    rcases m.start_cases canRun now with ⟨fault', hstart⟩ | ⟨-, hstart⟩ | ⟨-, -, hstart⟩
    · rw [hstart]
    · rw [hstart]
    · rw [hstart] at hfault
      cases hfault

/-- A session without rules and owner. -/
def unstarted : Session Int where
  id := "session-1"
  name := Session.usualName
  ownerId? := none
  rules := []
  config := {}
  managed := false
  memory := ⟨{ capacity := 200 }, .script {}⟩
  createdAt := 0

/-- The same session after the wish to stop came during its first tick, -/
def askedInTick : Life Int where
  session := { unstarted with status := .stopping, startedAt? := some 1, loop := .underWay }
  phase := .ticking 1
  loop? := some 0
  made := 1

/-- and after the end of that tick. -/
def stoppedAfterTick : Life Int where
  session := { unstarted with
    status := .stopped, startedAt? := some 1, stoppedAt? := some 3, lastTickAt? := some 3
    lastTickSpan? := some 2, ticks := 1, loop := .ended none }
  phase := .over
  loop? := some 0
  made := 1

theorem lifecycle_unstarted :
    Run { session := unstarted } [.start 1 (.ok (some 0)), .beginTick 1, .stop 2] askedInTick ∧
      Run askedInTick [.endTick 3 none, .finish 3, .start 4 (.ok (some 0))] stoppedAfterTick ∧
      stoppedAfterTick.Settled [.start 1 (.ok (some 0)), .beginTick 1, .stop 2, .endTick 3 none,
        .finish 3, .start 4 (.ok (some 0))] ∧
      askedInTick.Follows stoppedAfterTick := by
  have hfirst : Run { session := unstarted } [.start 1 (.ok (some 0)), .beginTick 1, .stop 2]
      askedInTick :=
    .cons (.start _ true 1) (.cons (.beginTick 1 rfl rfl) (.cons (.stop _ 2) (.nil _)))
  have hlater : Run askedInTick [.endTick 3 none, .finish 3, .start 4 (.ok (some 0))]
      stoppedAfterTick :=
    .cons (.endTick 3 unstarted.memory none rfl) (.cons (.finish 3 rfl rfl)
      (.cons (.start stoppedAfterTick true 4) (.nil _)))
  have hlife := lifecycle ⟨rfl, rfl, rfl, rfl, rfl, rfl⟩ hfirst hlater
  exact ⟨hfirst, hlater, hlife.1, hlife.2.1⟩

end Life

end RuleTrader
