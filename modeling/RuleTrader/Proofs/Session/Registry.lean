import Mathlib.Data.List.Nodup
import RuleTrader.Proofs.Session.Course
import RuleTrader.Store.Memory

/-!
# One live session for an owner

A manager is asked for sessions and asked to stop them, while their loops go on at their own pace.
`SessionPool.Step` lists what can happen to the pool, and `SessionPool.Run` is any number of such steps. The
loops are only bound by what a loop can do: between two calls each may have gone any number of steps.

A session that is registered stays so, under its name and owner, and its status only moves forward
(`Session.Onward`). So the live sessions of an owner get fewer by themselves, and if they are only made on
request for the owner, there is never more than one.

`Fleet.Manages.run` says that the calls of a fleet and its loops, as they are scheduled, are such a run.
-/

namespace RuleTrader

variable {σ α : Type}

/-! ## Going on -/

/-- What a session keeps in time: it stays under its name, owner and manager, and its status moves only
forward. -/
structure Session.Onward (s t : Session α) : Prop where
  id : t.id = s.id
  owner : t.ownerId? = s.ownerId?
  managed : t.managed = s.managed
  forward : s.status.rank ≤ t.status.rank

namespace Session.Onward

variable {s t u : Session α}

theorem refl (s : Session α) : s.Onward s := ⟨rfl, rfl, rfl, Nat.le_refl _⟩

theorem trans (h : s.Onward t) (h' : t.Onward u) : s.Onward u :=
  ⟨h'.id.trans h.id, h'.owner.trans h.owner, h'.managed.trans h.managed, Nat.le_trans h.forward h'.forward⟩

/-- A session that has been asked to stop stays so. -/
theorem inactive (h : s.Onward t) (hs : s.isActive = false) : t.isActive = false := by
  have hrank := h.forward
  cases hstatus : s.status <;> cases hstatus' : t.status <;>
    simp [Session.isActive, SessionStatus.rank, hstatus, hstatus'] at hs hrank ⊢

/-- A session that has stopped stays so. -/
theorem stopped (h : s.Onward t) (hs : s.status = .stopped) : t.status = .stopped := by
  have hrank := h.forward
  rw [hs] at hrank
  cases hstatus : t.status <;> simp [SessionStatus.rank, hstatus] at hrank ⊢

end Session.Onward

theorem Session.onward_stop (s : Session α) (now : Micros) : s.Onward (s.stop now) := by
  rcases Life.stop_cases s now with ⟨-, hstop⟩ | ⟨hstatus, -, hstop⟩ | ⟨hstatus, -, hstop⟩
  · rw [hstop]
    exact .refl s
  · rw [hstop]
    refine ⟨rfl, rfl, rfl, ?_⟩
    rcases hstatus with hstatus | hstatus <;> simp [hstatus, SessionStatus.rank]
  · rw [hstop]
    refine ⟨rfl, rfl, rfl, ?_⟩
    rcases hstatus with hstatus | hstatus <;> simp [hstatus, SessionStatus.rank]

theorem Session.inactive_stop (s : Session α) (now : Micros) : (s.stop now).isActive = false := by
  rcases Life.stop_cases s now with ⟨hstatus, hstop⟩ | ⟨-, -, hstop⟩ | ⟨-, -, hstop⟩
  · rw [hstop]
    rcases hstatus with hstatus | hstatus <;> simp [Session.isActive, hstatus]
  · rw [hstop]
    rfl
  · rw [hstop]
    rfl

/-- A session that has been asked to stop is not changed by the next wish. -/
theorem Session.stop_of_inactive {s : Session α} (h : s.isActive = false) (now : Micros) :
    s.stop now = s := by
  simp [Session.stop, h]

namespace Life

/-- No step changes whose session it is. -/
theorem Step.identity {l m : Life α} {e : LifeEvent} (step : Step l e m) :
    m.session.id = l.session.id ∧ m.session.ownerId? = l.session.ownerId? ∧
      m.session.managed = l.session.managed := by
  cases step with
  | start canRun now =>
      rcases l.start_cases canRun now with ⟨fault, hstart⟩ | ⟨-, hstart⟩ | ⟨-, -, hstart⟩ <;>
        rw [hstart] <;> exact ⟨rfl, rfl, rfl⟩
  | stop now =>
      have honward := l.session.onward_stop now
      exact ⟨honward.id, honward.owner, honward.managed⟩
  | beginTick now ready goes => exact ⟨rfl, rfl, rfl⟩
  | endTick now memory failure? ticking => exact ⟨rfl, rfl, rfl⟩
  | rest ticked rests => exact ⟨rfl, rfl, rfl⟩
  | wake wish resting wished => exact ⟨rfl, rfl, rfl⟩
  | leave now ready stopping => exact ⟨rfl, rfl, rfl⟩
  | finish now ticked ends => exact ⟨rfl, rfl, rfl⟩

theorem Run.onward {l m : Life α} {es : List LifeEvent} (run : Run l es m) (h : l.Coherent) :
    l.session.Onward m.session := by
  induction run with
  | nil l => exact .refl _
  | cons step run ih =>
      rcases step.identity with ⟨hid, howner, hmanaged⟩
      have hfirst : Session.Onward _ _ := ⟨hid, howner, hmanaged, (step.follows h).forward⟩
      exact hfirst.trans (ih (step.coherent h))

end Life

/-- What a loop makes of its session in any number of steps, none of which is a call. What the session
remembers of the market is left open. -/
def Session.Moved (s t : Session α) : Prop :=
  ∃ (l m : Life α) (memory memory' : TickMemory α), l.Coherent ∧ l.Goes m ∧
    s = { l.session with memory } ∧ t = { m.session with memory := memory' }

theorem Session.Moved.onward {s t : Session α} (h : s.Moved t) : s.Onward t := by
  rcases h with ⟨l, m, memory, memory', coherent, ⟨es, hrun, -⟩, rfl, rfl⟩
  have honward := hrun.onward coherent
  exact ⟨honward.id, honward.owner, honward.managed, honward.forward⟩

/-- The loop of a session that is asked to stop may come to its end. -/
theorem Session.moved_finish {s : Session α} (hstatus : s.status = .stopping) (hloop : s.loop = .underWay)
    (hstarted : s.startedAt?.isSome = true) (hstopped : s.stoppedAt? = none) (now : Micros) :
    s.Moved (s.finish now none) := by
  have hcoherent : Life.Coherent ⟨s, .ready, some 0, 1⟩ := by
    refine ⟨?_, ?_, ?_, ?_, ?_, ?_, ?_⟩ <;>
      simp [hstatus, hloop, hstarted, hstopped, LoopStage.isEnded, Life.Allows]
  have hleaves := Life.Step.leave (l := ⟨s, .ready, some 0, 1⟩) now rfl (by simp [Session.isStopping, hstatus])
  exact ⟨_, _, s.memory, s.memory, hcoherent, hleaves.goes rfl, rfl, rfl⟩

/-! ## Steps of a pool -/

namespace SessionPool

/-- Ask the managed session of a name to stop, and show it. -/
def stop (p : SessionPool α) (id : String) (now : Micros) : Option (Session α) × SessionPool α :=
  let q := (p.stopWhere (fun s => s.managed && s.id == id) now).1
  (q.get? id, q)

/-- One thing that happens to a pool, in which sessions of an owner are made only by looking for one
first. -/
inductive Step (ownerId? : Option String) : SessionPool α → SessionPool α → Prop
  | create (p : SessionPool α) (r : SessionRequest) (now : Micros) (other : r.ownerId? ≠ ownerId?) :
      Step ownerId? p (p.create r now).2.1
  | reuse (p : SessionPool α) (r : SessionRequest) (now : Micros) :
      Step ownerId? p (p.reuse r now).2.1
  | stop (p : SessionPool α) (id : String) (now : Micros) : Step ownerId? p (p.stop id now).2
  | stopOwner (p : SessionPool α) (ownerId'? : Option String) (now : Micros) :
      Step ownerId? p (p.stopWhere (isOwnedActive ownerId'?) now).1
  | shutDown (p : SessionPool α) (now : Micros) : Step ownerId? p (p.stopWhere (·.managed) now).1
  /-- The loops go on. Whether loops can run, and which name comes next, is left open. -/
  | loops {p q : SessionPool α} (moved : List.Forall₂ Session.Moved p.sessions q.sessions) :
      Step ownerId? p q

/-- Any number of steps. -/
def Run (ownerId? : Option String) : SessionPool α → SessionPool α → Prop :=
  Relation.ReflTransGen (Step ownerId?)

/-- Whether a session is a managed session of an owner that has not stopped. -/
def isLive (ownerId? : Option String) (s : Session α) : Bool :=
  s.managed && s.ownerId? == ownerId? && s.status != .stopped

/-- The live sessions of an owner. -/
def live (p : SessionPool α) (ownerId? : Option String) : List (Session α) :=
  p.sessions.filter (isLive ownerId?)

/-- The names of the managed sessions are apart. -/
def Apart (p : SessionPool α) : Prop := (p.managed.map (·.id)).Nodup

variable {p q : SessionPool α} {ownerId? : Option String} {r : SessionRequest} {now : Micros}

theorem live?_eq (p : SessionPool α) (ownerId? : Option String) :
    p.live? ownerId? = (p.live ownerId?).head? := by
  rw [live?, managed, live, List.find?_filter, List.head?_filter]
  refine congrArg (fun f => p.sessions.find? f) (funext fun s => ?_)
  rw [Bool.eq_iff_iff]
  simp [isLive, and_assoc]

/-! ### Calls -/

/-- A session that is made is a managed one of the owner that is asked for, and it runs. -/
theorem launch_ok {id : String} {rules : List Rule} {s : Session α}
    (h : p.launch id r rules now = .ok s) :
    s.managed = true ∧ s.ownerId? = r.ownerId? ∧ s.status = .running := by
  rcases bind_ok h with ⟨t, hbuild, hstart⟩
  rcases bind_ok (ok_of_mapError hbuild) with ⟨capacity, -, ht⟩
  cases ht
  have hstarted := ok_of_mapError hstart
  cases hcanRun : p.canRun with
  | false => simp [Session.start, hcanRun] at hstarted
  | true =>
      simp only [Session.start, hcanRun] at hstarted
      cases hstarted
      exact ⟨rfl, rfl, rfl⟩

/-- Making a session fails and registers nothing, or it registers one at the end. -/
theorem create_cases (p : SessionPool α) (r : SessionRequest) (now : Micros) :
    (∃ fault, (p.create r now).1 = .error fault ∧ (p.create r now).2.1.sessions = p.sessions) ∨
    ∃ s, (p.create r now).1 = .ok s ∧ (p.create r now).2.1.sessions = p.sessions ++ [s] ∧
      s.managed = true ∧ s.ownerId? = r.ownerId? ∧ s.status = .running := by
  unfold create
  rcases readRules r.rules? with ⟨rules, notices⟩
  cases rules with
  | error fault => exact Or.inl ⟨_, rfl, rfl⟩
  | ok rules =>
      rcases hname : p.nameSession none with ⟨id, p'⟩
      rcases nameSession_keeps hname with ⟨hsessions, -⟩
      cases hlaunch : p'.launch id r rules now with
      | error fault => exact Or.inl ⟨fault, by simp [hlaunch], by simp [hlaunch, hsessions]⟩
      | ok s =>
          exact Or.inr ⟨s, by simp [hlaunch], by simp [hlaunch, hsessions], launch_ok hlaunch⟩

theorem create_makes {s : Session α} (h : (p.create r now).1 = .ok s) :
    (p.create r now).2.1.sessions = p.sessions ++ [s] ∧
      s.managed = true ∧ s.ownerId? = r.ownerId? ∧ s.status = .running := by
  rcases p.create_cases r now with ⟨fault, hfault, -⟩ | ⟨t, hresult, hmade⟩
  · rw [hfault] at h
    cases h
  · obtain rfl : t = s := Except.ok.inj (hresult.symm.trans h)
    exact hmade

/-- A pool that can run loops makes a session if the rules can be read and the history has a size. -/
theorem create_ok (hrules : ∃ rules, (readRules r.rules?).1 = .ok rules)
    (hcapacity : ∃ capacity, p.config.capacity = .ok capacity) (hcanRun : p.canRun = true)
    (now : Micros) : ∃ s, (p.create r now).1 = .ok s := by
  rcases hrules with ⟨rules, hrules⟩
  rcases hcapacity with ⟨capacity, hcapacity⟩
  rw [create]
  rcases hread : readRules r.rules? with ⟨rules', notices⟩
  obtain rfl : rules' = .ok rules := by rw [hread] at hrules; exact hrules
  simp [nameSession, launch, build, hcapacity, Session.start, hcanRun, bind, Except.bind, pure,
    Except.pure, Except.mapError]

/-- Looking for a session finds the first live one of the owner, or makes one. -/
theorem reuse_cases (p : SessionPool α) (r : SessionRequest) (now : Micros) :
    (∃ s, (p.live r.ownerId?).head? = some s ∧ (p.reuse r now).1 = .ok s ∧ (p.reuse r now).2.1 = p) ∨
      (p.live r.ownerId? = [] ∧ p.reuse r now = p.create r now) := by
  unfold reuse
  rw [live?_eq]
  cases hlive : p.live r.ownerId? with
  | nil => exact Or.inr ⟨rfl, rfl⟩
  | cons s rest => exact Or.inl ⟨s, rfl, rfl, rfl⟩

/-- Asking sessions that have been asked before changes none. -/
theorem stopWhere_of_inactive {chosen : Session α → Bool}
    (h : ∀ s ∈ p.sessions, chosen s = true → s.isActive = false) (now : Micros) :
    (p.stopWhere chosen now).1 = p := by
  have hsame : p.sessions.map (fun s => if chosen s then s.stop now else s) = p.sessions := by
    refine (List.map_congr_left fun s hs => ?_).trans (List.map_id _)
    cases hchosen : chosen s with
    | false => simp
    | true => simp [Session.stop_of_inactive (h s hs hchosen)]
  simp [stopWhere, hsame]

theorem stopWhere_onward (p : SessionPool α) (chosen : Session α → Bool) (now : Micros) :
    List.Forall₂ Session.Onward p.sessions (p.stopWhere chosen now).1.sessions := by
  simp only [stopWhere, List.forall₂_map_right_iff]
  refine List.forall₂_same.2 fun s _ => ?_
  split
  · exact s.onward_stop now
  · exact .refl s

/-- What a step does to the sessions: those that are there go on, and at most one is added. One of the
owner is only added where none was live. -/
theorem Step.cases (h : Step ownerId? p q) :
    List.Forall₂ Session.Onward p.sessions q.sessions ∨
      ∃ s, q.sessions = p.sessions ++ [s] ∧ (s.ownerId? = ownerId? → p.live ownerId? = []) := by
  have hsame {t : SessionPool α} (ht : t.sessions = p.sessions) :
      List.Forall₂ Session.Onward p.sessions t.sessions := by
    rw [ht]
    exact List.forall₂_same.2 fun s _ => .refl s
  cases h with
  | create r now other =>
      rcases p.create_cases r now with ⟨fault, -, hsessions⟩ | ⟨s, -, hsessions, -, howner, -⟩
      · exact Or.inl (hsame hsessions)
      · exact Or.inr ⟨s, hsessions, fun hs => absurd (howner.symm.trans hs) other⟩
  | reuse r now =>
      rcases p.reuse_cases r now with ⟨s, -, -, hpool⟩ | ⟨hnone, hreuse⟩
      · exact Or.inl (hsame (by rw [hpool]))
      · rw [hreuse]
        rcases p.create_cases r now with ⟨fault, -, hsessions⟩ | ⟨s, -, hsessions, -, howner, -⟩
        · exact Or.inl (hsame hsessions)
        · refine Or.inr ⟨s, hsessions, fun hs => ?_⟩
          rw [← hs, howner]
          exact hnone
  | stop id now => exact Or.inl (p.stopWhere_onward _ now)
  | stopOwner ownerId'? now => exact Or.inl (p.stopWhere_onward _ now)
  | shutDown now => exact Or.inl (p.stopWhere_onward _ now)
  | loops moved => exact Or.inl (moved.imp fun _ _ => Session.Moved.onward)

/-! ### Runs -/

/-- A live session was live before. -/
theorem isLive_of_onward {s t : Session α} (h : s.Onward t) (ht : isLive ownerId? t = true) :
    isLive ownerId? s = true := by
  simp only [isLive, Bool.and_eq_true, beq_iff_eq, bne_iff_ne, ne_eq] at ht ⊢
  refine ⟨⟨h.managed ▸ ht.1.1, h.owner ▸ ht.1.2⟩, ?_⟩
  intro hs
  exact ht.2 (h.stopped hs)

/-- By going on, live sessions only get fewer. -/
theorem length_live_le {ss ts : List (Session α)} (h : List.Forall₂ Session.Onward ss ts) :
    (ts.filter (isLive ownerId?)).length ≤ (ss.filter (isLive ownerId?)).length := by
  induction h with
  | nil => exact Nat.le_refl _
  | @cons s t ss ts hst _ ih =>
      rw [List.filter_cons, List.filter_cons]
      split
      · next ht => simpa [isLive_of_onward hst ht] using ih
      · split
        · exact Nat.le_succ_of_le ih
        · exact ih

theorem Step.one_live (h : Step ownerId? p q) (one : (p.live ownerId?).length ≤ 1) :
    (q.live ownerId?).length ≤ 1 := by
  rcases h.cases with honward | ⟨s, hsessions, howner⟩
  · exact Nat.le_trans (length_live_le honward) one
  · rw [live, hsessions, List.filter_append, List.length_append]
    by_cases hs : s.ownerId? = ownerId?
    · have hnone : p.sessions.filter (isLive ownerId?) = [] := howner hs
      rw [hnone, List.length_nil, Nat.zero_add]
      exact List.length_filter_le _ [s]
    · simpa [live, isLive, hs] using one

theorem Run.one_live (run : Run ownerId? p q) (one : (p.live ownerId?).length ≤ 1) :
    (q.live ownerId?).length ≤ 1 := by
  induction run with
  | refl => exact one
  | tail _ step ih => exact step.one_live ih

/-- The sessions that are registered stay registered in their places, and go on. -/
def Onward (p q : SessionPool α) : Prop :=
  ∀ (i : Nat) (s : Session α), p.sessions[i]? = some s → ∃ t, q.sessions[i]? = some t ∧ s.Onward t

theorem onward_of_forall₂ {ss ts : List (Session α)} (h : List.Forall₂ Session.Onward ss ts) {i : Nat}
    {s : Session α} (hs : ss[i]? = some s) : ∃ t, ts[i]? = some t ∧ s.Onward t := by
  induction h generalizing i with
  | nil => simp at hs
  | @cons a b _ _ hab _ ih =>
      cases i with
      | zero =>
          obtain rfl : a = s := by simpa using hs
          exact ⟨b, by simp, hab⟩
      | succ i => simpa using ih (by simpa using hs)

theorem Step.onward (h : Step ownerId? p q) : p.Onward q := by
  intro i s hs
  rcases h.cases with honward | ⟨t, hsessions, -⟩
  · exact onward_of_forall₂ honward hs
  · refine ⟨s, ?_, .refl s⟩
    have hlt : i < p.sessions.length := (List.getElem?_eq_some_iff.1 hs).1
    rw [hsessions, List.getElem?_append_left hlt, hs]

theorem Run.onward (run : Run ownerId? p q) : p.Onward q := by
  induction run with
  | refl => exact fun i s hs => ⟨s, hs, .refl s⟩
  | tail _ step ih =>
      intro i s hs
      rcases ih i s hs with ⟨t, ht, hst⟩
      rcases step.onward i t ht with ⟨u, hu, htu⟩
      exact ⟨u, hu, hst.trans htu⟩

/-! ### Stopping again -/

theorem get?_some {id : String} {s : Session α} (h : p.get? id = some s) :
    s ∈ p.sessions ∧ s.managed = true ∧ s.id = id := by
  have hmem := List.mem_of_find?_eq_some h
  rw [managed, List.mem_filter] at hmem
  exact ⟨hmem.1, hmem.2, by simpa using List.find?_some h⟩

/-- Where names are apart, a managed session is the one of its name. -/
theorem Apart.get? (apart : p.Apart) {s : Session α} (hs : s ∈ p.sessions) (hmanaged : s.managed = true) :
    p.get? s.id = some s := by
  have hmem : s ∈ p.managed := List.mem_filter.2 ⟨hs, hmanaged⟩
  cases hget : p.get? s.id with
  | none => exact absurd (List.find?_eq_none.1 hget s hmem) (by simp)
  | some t =>
      rcases get?_some hget with ⟨ht, htmanaged, hid⟩
      exact congrArg some (List.inj_on_of_nodup_map apart (List.mem_filter.2 ⟨ht, htmanaged⟩) hmem hid)

/-- A session that has been asked to stop is shown as it is, and nothing changes. -/
theorem stop_of_inactive (apart : p.Apart) {id : String} {s : Session α} (h : p.get? id = some s)
    (hs : s.isActive = false) (now : Micros) : p.stop id now = (some s, p) := by
  have hsame : (p.stopWhere (fun s => s.managed && s.id == id) now).1 = p := by
    refine stopWhere_of_inactive (fun t ht hchosen => ?_) now
    rw [Bool.and_eq_true, beq_iff_eq] at hchosen
    have hget := apart.get? ht hchosen.1
    rw [hchosen.2, h] at hget
    rw [← Option.some.inj hget]
    exact hs
  rw [stop, hsame, h]

/-- Once a session has been asked to stop by its name, asking it again at any later time shows it as it is,
and nothing changes. -/
theorem Run.stop_again {id : String} {s : Session α} (hget : p.get? id = some s)
    (run : Run ownerId? (p.stop id now).2 q) (apart : q.Apart) :
    ∃ t, q.get? id = some t ∧ s.Onward t ∧ ∀ now', q.stop id now' = (some t, q) := by
  rcases get?_some hget with ⟨hs, hmanaged, hid⟩
  rcases List.mem_iff_getElem?.1 hs with ⟨i, hi⟩
  have hasked : (p.stop id now).2.sessions[i]? = some (s.stop now) := by
    simp [stop, stopWhere, hi, hmanaged, hid]
  rcases run.onward i _ hasked with ⟨t, ht, honward⟩
  have hst := (s.onward_stop now).trans honward
  have htget := apart.get? (List.mem_of_getElem? ht) (hst.managed.trans hmanaged)
  rw [hst.id, hid] at htget
  exact ⟨t, htget, hst, stop_of_inactive apart htget (honward.inactive (s.inactive_stop now))⟩

/-! ### The registry -/

/-- Looking for a session of an owner: a live one is shown, and nothing changes; otherwise one is made, if
it can be. What is shown is the one live session of the owner. -/
structure Reuses (p : SessionPool α) (r : SessionRequest) (now : Micros) : Prop where
  found : ∀ s ∈ p.live r.ownerId?, (p.reuse r now).1 = .ok s ∧ (p.reuse r now).2.1 = p
  made : p.live r.ownerId? = [] → (∃ rules, (readRules r.rules?).1 = .ok rules) →
    (∃ capacity, p.config.capacity = .ok capacity) → p.canRun = true →
    ∃ s, (p.reuse r now).1 = .ok s ∧ (p.reuse r now).2.1.sessions = p.sessions ++ [s]
  shown : ∀ s, (p.reuse r now).1 = .ok s → (p.reuse r now).2.1.live r.ownerId? = [s]

theorem reuses (one : (p.live r.ownerId?).length ≤ 1) (now : Micros) : p.Reuses r now := by
  rcases p.reuse_cases r now with ⟨s, hhead, hresult, hpool⟩ | ⟨hnone, hreuse⟩
  · -- There is one live session, which is the first one.
    have hlive : p.live r.ownerId? = [s] := by
      rcases hlist : p.live r.ownerId? with _ | ⟨t, rest⟩
      · simp [hlist] at hhead
      · rw [hlist] at hhead one
        have hrest : rest = [] := List.length_eq_zero_iff.1 (by simpa using one)
        simpa [hrest] using hhead
    refine ⟨?_, ?_, ?_⟩
    · intro t ht
      rw [hlive, List.mem_singleton] at ht
      exact ⟨ht ▸ hresult, hpool⟩
    · intro hnone
      simp [hlive] at hnone
    · intro t ht
      rw [hresult] at ht
      rw [hpool, hlive, Except.ok.inj ht]
  · refine ⟨?_, ?_, ?_⟩
    · intro s hs
      simp [hnone] at hs
    · intro _ hrules hcapacity hcanRun
      rcases create_ok hrules hcapacity hcanRun now with ⟨s, hs⟩
      exact ⟨s, hreuse ▸ hs, hreuse ▸ (create_makes hs).1⟩
    · intro s hs
      rw [hreuse] at hs ⊢
      rcases create_makes hs with ⟨hsessions, hmanaged, howner, hstatus⟩
      have hlive : isLive r.ownerId? s = true := by simp [isLive, hmanaged, howner, hstatus]
      have hbefore : p.sessions.filter (isLive r.ownerId?) = [] := hnone
      rw [live, hsessions, List.filter_append, hbefore]
      simp [hlive]

/-- A call that fails to show a session registers none. -/
def FailsClean (p : SessionPool α) (made : Except SessionFault (Session α) × SessionPool α × List Notice) :
    Prop :=
  ∀ fault, made.1 = .error fault → made.2.1.sessions = p.sessions

theorem failsClean_create (p : SessionPool α) (r : SessionRequest) (now : Micros) :
    p.FailsClean (p.create r now) := by
  intro fault hfault
  rcases p.create_cases r now with ⟨_, -, hsessions⟩ | ⟨s, hresult, -⟩
  · exact hsessions
  · rw [hresult] at hfault
    cases hfault

theorem failsClean_reuse (p : SessionPool α) (r : SessionRequest) (now : Micros) :
    p.FailsClean (p.reuse r now) := by
  rcases p.reuse_cases r now with ⟨s, -, -, hpool⟩ | ⟨-, hreuse⟩
  · intro _ _
    rw [hpool]
  · rw [hreuse]
    exact p.failsClean_create r now

end SessionPool

/-! ## The calls of a fleet -/

/-- Lists are related when they are at every place. -/
theorem forall₂_of_getElem? {β γ : Type} {R : β → γ → Prop} {xs : List β} {ys : List γ}
    (h : ∀ i : Nat, Option.Rel R xs[i]? ys[i]?) : List.Forall₂ R xs ys := by
  induction xs generalizing ys with
  | nil =>
      cases ys with
      | nil => exact .nil
      | cons y ys => simpa using h 0
  | cons x xs ih =>
      cases ys with
      | nil => simpa using h 0
      | cons y ys => exact .cons (by simpa using h 0) (ih fun i => by simpa using h (i + 1))

namespace Fleet

variable {f g : Fleet σ α}

theorem cutRests_pool (f : Fleet σ α) (places : List Nat) : (f.cutRests places).pool = f.pool := by
  unfold cutRests
  induction places generalizing f with
  | nil => rfl
  | cons i places ih =>
      have hfirst : (f.cutRest i).pool = f.pool := by
        unfold cutRest
        split
        · rfl
        · split <;> rfl
      exact (ih (f.cutRest i)).trans hfirst

theorem stopWhere_pool (f : Fleet σ α) (chosen : Session α → Bool) :
    (f.stopWhere chosen).pool = (f.pool.stopWhere chosen f.now).1 :=
  cutRests_pool _ _

theorem takeOver_pool (f : Fleet σ α) (pool : SessionPool α) (notices : List Notice) :
    (f.takeOver pool notices).pool = pool := by
  unfold takeOver
  dsimp only
  split <;> rfl

variable [Store σ α] [Amount α]

/-- A fleet comes to another one by nothing but the errands of its loops. -/
def Waits (f g : Fleet σ α) : Prop :=
  ∀ (i : Nat) (P : Fleet σ α → Prop), Stable i P → P f → P g

/-- While a fleet waits, its loops go on, and no session comes or goes. -/
theorem Waits.moved (h : f.Waits g) (lives : ∀ i, f.Lives i) :
    List.Forall₂ Session.Moved f.pool.sessions g.pool.sessions := by
  have hplace (i : Nat) : Option.Rel Session.Moved f.pool.sessions[i]? g.pool.sessions[i]? := by
    -- No errand of a loop fills a vacant place, and each takes a session along its own course.
    rcases lives i with vacant | ⟨s, es, l, new, hrun, hshows⟩
    · have hbefore : f.pool.sessions[i]? = none := vacant.session
      have hafter : g.pool.sessions[i]? = none := (h i _ (stable_vacant i) vacant).session
      rw [hbefore, hafter]
      exact .none
    · rcases h i _ (stable_goes i l) ⟨l, .refl l, hshows⟩ with ⟨m, hgoes, hshows'⟩
      rcases hshows.session with ⟨memory, hbefore, -⟩
      rcases hshows'.session with ⟨memory', hafter, -⟩
      have hcoherent := hrun.coherent (.of_new new)
      rw [session?] at hbefore hafter
      rw [hbefore, hafter]
      exact .some ⟨l, m, memory, memory', hcoherent, hgoes, rfl, rfl⟩
  exact forall₂_of_getElem? hplace

/-- One call to the manager of a fleet, or a time of waiting, in which sessions of an owner are made only by
looking for one first. -/
inductive Manages (ownerId? : Option String) : Fleet σ α → Fleet σ α → Prop
  | create (f : Fleet σ α) (r : SessionRequest) (other : r.ownerId? ≠ ownerId?) :
      Manages ownerId? f (f.create r).2
  | reuse (f : Fleet σ α) (r : SessionRequest) : Manages ownerId? f (f.reuse r).2
  | stop (f : Fleet σ α) (id : String) : Manages ownerId? f (f.stop id)
  | stopOwner (f : Fleet σ α) (ownerId'? : Option String) :
      Manages ownerId? f (f.stopOwner ownerId'?).2
  | shutDown (f : Fleet σ α) (span? : Option Micros) : Manages ownerId? f (f.shutDown span?)
  | sleep (f : Fleet σ α) (span : Micros) : Manages ownerId? f (f.sleep span)
  | pause (f : Fleet σ α) (span : Micros) : Manages ownerId? f (f.pause span)
  | waitStopped (f : Fleet σ α) (i : Nat) (span? : Option Micros) :
      Manages ownerId? f (f.waitStopped i span?).2

variable {ownerId? : Option String}

theorem Manages.deed (h : Manages ownerId? f g) (i : Nat) : Deed i f g := by
  cases h with
  | create r other => exact .create f r
  | reuse r => exact .reuse f r
  | stop id => exact .stopWhere f _
  | stopOwner ownerId'? => exact .stopWhere f _
  | shutDown span? => exact .shutDown f span?
  | sleep span => exact .sleep f span
  | pause span => exact .pause f span
  | waitStopped j span? => exact .waitStopped f j span?

theorem Lives.deed {i : Nat} (h : f.Lives i) (deed : Deed i f g) : g.Lives i :=
  Course.lives (.single deed) h

/-- What a fleet does when its manager is called, and while it waits, its pool goes through. -/
theorem Manages.run (h : Manages ownerId? f g) (lives : ∀ i, f.Lives i) :
    SessionPool.Run ownerId? f.pool g.pool := by
  have hstops (chosen : Session α → Bool) (i : Nat) : (f.stopWhere chosen).Lives i :=
    (lives i).deed (.stopWhere f chosen)
  cases h with
  | create r other =>
      rw [Fleet.create, takeOver_pool]
      exact .single (.create f.pool r f.now other)
  | reuse r =>
      rw [Fleet.reuse, takeOver_pool]
      exact .single (.reuse f.pool r f.now)
  | stop id =>
      rw [Fleet.stop, stopWhere_pool]
      exact .single (.stop f.pool id f.now)
  | stopOwner ownerId'? =>
      rw [Fleet.stopOwner, stopWhere_pool]
      exact .single (.stopOwner f.pool ownerId'? f.now)
  | shutDown span? =>
      -- All sessions are asked to stop first, and then their loops are waited for.
      have hwaits : (f.stopWhere (·.managed)).Waits (f.shutDown span?) :=
        fun i P stable hP => stable.shutDown hP span?
      have hasked : SessionPool.Step ownerId? f.pool (f.stopWhere (·.managed)).pool := by
        rw [stopWhere_pool]
        exact .shutDown f.pool f.now
      exact (Relation.ReflTransGen.single hasked).tail (.loops (hwaits.moved (hstops _)))
  | sleep span =>
      have hwaits : f.Waits (f.sleep span) := fun i P stable hP => stable.sleep hP span
      exact .single (.loops (hwaits.moved lives))
  | pause span =>
      have hwaits : f.Waits (f.pause span) := fun i P stable hP => stable.pause hP span
      exact .single (.loops (hwaits.moved lives))
  | waitStopped j span? =>
      have hwaits : f.Waits (f.waitStopped j span?).2 :=
        fun i P stable hP => stable.waitStopped hP j span?
      exact .single (.loops (hwaits.moved lives))

/-- Any number of calls and times of waiting are a run of the pool. -/
theorem run_of_manages (h : Relation.ReflTransGen (Manages ownerId?) f g) (lives : ∀ i, f.Lives i) :
    SessionPool.Run ownerId? f.pool g.pool ∧ ∀ i, g.Lives i := by
  induction h with
  | refl => exact ⟨.refl, lives⟩
  | tail _ manages ih =>
      exact ⟨ih.1.trans (manages.run ih.2), fun i => (ih.2 i).deed (manages.deed i)⟩

end Fleet

/-! ## One live session -/

namespace SessionPool

variable {p q : SessionPool α} {ownerId? : Option String}

/-- Whatever happens to a pool in which sessions of an owner are only made by looking for one first, the
owner has at most one live session, and looking for one shows it. Sessions stay registered under their names
and owners, a call that fails registers nothing, and a session that has been asked to stop is shown and not
changed by asking it again, now or later. -/
theorem one_live_session (run : Run ownerId? p q) (fresh : p.sessions = []) :
    (q.live ownerId?).length ≤ 1 ∧
      (∀ r now, r.ownerId? = ownerId? → q.Reuses r now) ∧
      (∀ t, Run ownerId? q t → q.Onward t) ∧
      (∀ r now, q.FailsClean (q.create r now) ∧ q.FailsClean (q.reuse r now)) ∧
      (q.Apart → ∀ id s now, q.get? id = some s → s.isActive = false → q.stop id now = (some s, q)) ∧
      ∀ id s now, q.get? id = some s → ∀ t, Run ownerId? (q.stop id now).2 t → t.Apart →
        ∃ s', t.get? id = some s' ∧ s.Onward s' ∧ ∀ now', t.stop id now' = (some s', t) := by
  have one : (q.live ownerId?).length ≤ 1 := run.one_live (by simp [live, fresh])
  refine ⟨one, ?_, fun t later => later.onward,
    fun r now => ⟨q.failsClean_create r now, q.failsClean_reuse r now⟩,
    fun apart id s now hget hs => stop_of_inactive apart hget hs now,
    fun id s now hget t later apart => later.stop_again hget apart⟩
  rintro r now rfl
  exact reuses one now

/-- A pool without sessions. -/
def unused : SessionPool Int where
  random := .script {}

/-- What an owner asks for. -/
def plainRequest : SessionRequest where
  ownerId? := some "u"

/-- The pool with the session of the owner, which was asked to stop and has not stopped yet, -/
def askedOnce : SessionPool Int := ((unused.reuse plainRequest 0).2.1.stop "session-1" 1).2

/-- and after its loop has come to its end. -/
def endedOnce : SessionPool Int :=
  { askedOnce with sessions := askedOnce.sessions.map fun s => s.finish 2 none }

/-- The session that was asked to stop is shown again until it has ended, and then another one is made. What a
fleet does that had no sessions is such a run as well. -/
theorem one_live_session_askedOnce :
    Run (some "u") unused endedOnce ∧ askedOnce.sessions.map (·.status) = [.stopping] ∧
      askedOnce.Reuses plainRequest 2 ∧
      (askedOnce.stop "session-1" 2).2 = askedOnce ∧
      endedOnce.Reuses plainRequest 3 ∧
      ((endedOnce.reuse plainRequest 3).2.1.live (some "u")).length ≤ 1 ∧
      ∀ f g : Fleet MemoryStore Value, f.pool.sessions = [] → f.schedule.queue = [] →
        f.schedule.alarms = [] → f.listeners = [] → Relation.ReflTransGen (Fleet.Manages (some "u")) f g →
        (g.pool.live (some "u")).length ≤ 1 := by
  have hasked : Run (some "u") unused askedOnce :=
    (Relation.ReflTransGen.single (.reuse unused plainRequest 0)).tail (.stop _ "session-1" 1)
  have hended : Run (some "u") unused endedOnce := by
    refine hasked.tail (.loops ?_)
    rw [endedOnce, List.forall₂_map_right_iff, List.forall₂_same]
    intro s hs
    obtain rfl := List.mem_singleton.1 hs
    exact Session.moved_finish rfl rfl rfl rfl 2
  have hreused : Run (some "u") unused (endedOnce.reuse plainRequest 3).2.1 :=
    hended.tail (.reuse endedOnce plainRequest 3)
  have hpool := one_live_session hasked rfl
  refine ⟨hended, rfl, hpool.2.1 plainRequest 2 rfl, ?_, (one_live_session hended rfl).2.1 _ 3 rfl,
    (one_live_session hreused rfl).1, ?_⟩
  · have hget : ∃ s, askedOnce.get? "session-1" = some s ∧ s.isActive = false := ⟨_, rfl, rfl⟩
    rcases hget with ⟨s, hget, hs⟩
    have hapart : askedOnce.Apart := by
      unfold Apart
      decide
    rw [hpool.2.2.2.2.1 hapart _ s 2 hget hs]
  · intro f g hsessions hqueue halarms hlisteners manages
    have hlives : ∀ i, f.Lives i := fun i => Or.inl (Fleet.vacant_of_empty hsessions hqueue halarms hlisteners i)
    exact (one_live_session (Fleet.run_of_manages manages hlives).1 hsessions).1

end SessionPool

end RuleTrader
