import RuleTrader.Session.Fleet

/-!
# What a fleet leaves alone

Seen from one place of the pool, a fleet is the session there and the errands that concern it, in the
queue and behind alarms. `Fleet.Keeps` says that neither changes; every errand for another place, and
everything that only the caller and the helpers do, keeps a place in this sense.
-/

namespace RuleTrader

variable {σ α : Type}

namespace Errand

/-- Whether an errand belongs to the loop or to a tick of the session at a place. -/
def concerns (i : Nat) : Errand α → Bool
  | .goOn j | .settle j => j == i
  | .fetch flight | .send flight _ => flight.index == i
  | .caller | .giveUp _ | .ask _ _ | .quit _ | .join => false

/-- Whether an errand only tells somebody who waits. -/
def isReply : Errand α → Bool
  | .caller | .join => true
  | _ => false

theorem concerns_of_isReply {e : Errand α} (h : e.isReply = true) (i : Nat) : e.concerns i = false := by
  cases e with
  | caller => rfl
  | join => rfl
  | _ => cases h

theorem concerns_of_isGoOn {i : Nat} {e : Errand α} (h : e.isGoOn i = true) : e.concerns i = true := by
  cases e with
  | goOn j => exact h
  | _ => cases h

theorem concerns_of_isSettle {i : Nat} {e : Errand α} (h : e.isSettle i = true) :
    e.concerns i = true := by
  cases e with
  | settle j => exact h
  | _ => cases h

theorem isGoOn_of_concerns {i j : Nat} (h : j ≠ i) {e : Errand α} (concerned : e.concerns i = true) :
    e.isGoOn j = false := by
  cases e with
  | goOn k =>
      have hk : k = i := by simpa [concerns] using concerned
      simp [isGoOn, hk, Ne.symm h]
  | _ => rfl

theorem endsWaiting_of_concerns {i j : Nat} {e : Errand α} (concerned : e.concerns i = true) :
    e.endsWaiting j = false := by
  cases e with
  | giveUp k => cases concerned
  | quit k => cases concerned
  | _ => rfl

end Errand

/-! ## Schedules -/

namespace Schedule

/-- The errands in the queue that concern a place. -/
def queuedFor (s : Schedule (Errand α)) (i : Nat) : List (Errand α) :=
  (s.queue.map (·.errand)).filter (Errand.concerns i)

/-- The errands behind alarms that concern a place. -/
def awaitedFor (s : Schedule (Errand α)) (i : Nat) : List (Errand α) :=
  (s.alarms.map (·.call.errand)).filter (Errand.concerns i)

variable {s : Schedule (Errand α)} {i : Nat}

@[simp] theorem queuedFor_push (rounds : Nat) (e : Errand α) :
    (s.push rounds e).queuedFor i = s.queuedFor i ++ [e].filter (Errand.concerns i) := by
  simp [queuedFor, push]

@[simp] theorem awaitedFor_push (rounds : Nat) (e : Errand α) :
    (s.push rounds e).awaitedFor i = s.awaitedFor i := rfl

@[simp] theorem queuedFor_setAlarm (span : Micros) (rounds : Nat) (e : Errand α) :
    (s.setAlarm span rounds e).queuedFor i = s.queuedFor i := rfl

@[simp] theorem awaitedFor_setAlarm (span : Micros) (rounds : Nat) (e : Errand α) :
    (s.setAlarm span rounds e).awaitedFor i = s.awaitedFor i ++ [e].filter (Errand.concerns i) := by
  simp [awaitedFor, setAlarm]

@[simp] theorem queuedFor_dropAlarms (p : Errand α → Bool) :
    (s.dropAlarms p).queuedFor i = s.queuedFor i := rfl

@[simp] theorem awaitedFor_dropAlarms (p : Errand α → Bool) :
    (s.dropAlarms p).awaitedFor i = (s.awaitedFor i).filter fun e => !p e := by
  simp only [awaitedFor, dropAlarms, List.filter_filter, List.filter_map, Function.comp_def]
  congr 2
  funext a
  exact Bool.and_comm _ _

/-- Errands that only tell somebody concern no place. -/
theorem queuedFor_pushAll {calls : List (Call (Errand α))}
    (h : ∀ c ∈ calls, c.errand.isReply = true) : (s.pushAll calls).queuedFor i = s.queuedFor i := by
  have hnone : (calls.map (·.errand)).filter (Errand.concerns i) = [] := by
    refine List.filter_eq_nil_iff.2 ?_
    intro e he
    rcases List.mem_map.1 he with ⟨c, hc, rfl⟩
    simp [Errand.concerns_of_isReply (h c hc)]
  simp [queuedFor, pushAll, hnone]

@[simp] theorem awaitedFor_pushAll (calls : List (Call (Errand α))) :
    (s.pushAll calls).awaitedFor i = s.awaitedFor i := rfl

theorem isQueued_settle : s.isQueued (Errand.isSettle i) = (s.queuedFor i).any (Errand.isSettle i) := by
  have himp : ∀ e : Errand α, (e.concerns i && e.isSettle i) = e.isSettle i := by
    intro e
    cases h : e.isSettle i with
    | false => simp
    | true => simp [Errand.concerns_of_isSettle h]
  simp [isQueued, queuedFor, List.any_filter, List.any_map, himp, Function.comp_def]

theorem isSet_goOn : s.isSet (Errand.isGoOn i) = (s.awaitedFor i).any (Errand.isGoOn i) := by
  have himp : ∀ e : Errand α, (e.concerns i && e.isGoOn i) = e.isGoOn i := by
    intro e
    cases h : e.isGoOn i with
    | false => simp
    | true => simp [Errand.concerns_of_isGoOn h]
  simp [isSet, awaitedFor, List.any_filter, List.any_map, himp, Function.comp_def]

/-- The turn of an errand takes the errand out of the queue, and nothing else. -/
theorem turn_some {t : Schedule (Errand α)} {e : Errand α} (h : s.turn? = some (some e, t)) (i : Nat) :
    s.queuedFor i = [e].filter (Errand.concerns i) ++ t.queuedFor i ∧
      t.awaitedFor i = s.awaitedFor i := by
  unfold turn? at h
  split at h
  · rename_i errand queue hqueue
    obtain ⟨he, rfl⟩ := Prod.mk.inj (Option.some.inj h)
    cases he
    exact ⟨by simp [queuedFor, hqueue, ← List.filter_append], rfl⟩
  · cases h
  · rcases Option.map_eq_some_iff.1 h with ⟨due, -, hmoved⟩
    cases hmoved

/-- A turn without an errand changes the order of the queue, or puts errands whose time has come into an
empty queue. -/
theorem turn_none {t : Schedule (Errand α)} (h : s.turn? = some (none, t)) (i : Nat) :
    ((t.queuedFor i).Perm (s.queuedFor i) ∧ t.awaitedFor i = s.awaitedFor i) ∨
      (s.queuedFor i = [] ∧ (t.queuedFor i ++ t.awaitedFor i).Perm (s.awaitedFor i)) := by
  unfold turn? at h
  split at h
  · cases h
  -- An errand that has rounds to wait goes to the end of the queue.
  · rename_i rounds errand queue hqueue
    obtain ⟨-, rfl⟩ := Prod.mk.inj (Option.some.inj h)
    refine Or.inl ⟨?_, rfl⟩
    have hrotated : (queue.map (·.errand) ++ [errand]).Perm (errand :: queue.map (·.errand)) :=
      List.perm_append_singleton errand _
    simpa only [queuedFor, hqueue, List.map_append, List.map_cons, List.map_nil] using
      hrotated.filter (Errand.concerns i)
  -- The time moves on to the next alarm.
  · rename_i hqueue
    rcases Option.map_eq_some_iff.1 h with ⟨due, -, hmoved⟩
    obtain ⟨-, rfl⟩ := Prod.mk.inj hmoved
    refine Or.inr ⟨by simp [queuedFor, hqueue], ?_⟩
    have hsplit := List.filter_append_perm (fun a : Alarm (Errand α) => decide (a.due ≤ due)) s.alarms
    have hmapped := (hsplit.map (·.call.errand)).filter (Errand.concerns i)
    simpa [queuedFor, awaitedFor, moveTo, hqueue, Function.comp_def] using hmapped

end Schedule

/-! ## Fleets -/

namespace Fleet

/-- Whoever listens for the end of a loop is only told of it. -/
def Polite (f : Fleet σ α) : Prop := ∀ ℓ ∈ f.listeners, ℓ.call.errand.isReply = true

/-- One fleet has the same session at a place as another, and the same errands that concern it. -/
structure Keeps (i : Nat) (f g : Fleet σ α) : Prop where
  polite : f.Polite → g.Polite
  session : g.session? i = f.session? i
  queued : f.Polite → g.schedule.queuedFor i = f.schedule.queuedFor i
  awaited : g.schedule.awaitedFor i = f.schedule.awaitedFor i

variable {f g : Fleet σ α} {i j : Nat}

theorem Keeps.refl (f : Fleet σ α) : Keeps i f f := ⟨id, rfl, fun _ => rfl, rfl⟩

theorem Keeps.trans {h : Fleet σ α} (first : Keeps i f g) (next : Keeps i g h) : Keeps i f h where
  polite := fun polite => next.polite (first.polite polite)
  session := next.session.trans first.session
  queued := fun polite => (next.queued (first.polite polite)).trans (first.queued polite)
  awaited := next.awaited.trans first.awaited

/-- A choice between two ways to go on. -/
theorem Keeps.ite {c : Prop} [Decidable c] {h : Fleet σ α} (yes : c → Keeps i f g)
    (no : ¬ c → Keeps i f h) : Keeps i f (if c then g else h) := by
  split
  · exact yes ‹_›
  · exact no ‹_›

theorem keeps_report (f : Fleet σ α) (ns : List Notice) : Keeps i f (f.report ns) :=
  ⟨id, rfl, fun _ => rfl, rfl⟩

theorem keeps_store (f : Fleet σ α) (store : σ) : Keeps i f { f with store } :=
  ⟨id, rfl, fun _ => rfl, rfl⟩

theorem keeps_push (f : Fleet σ α) (rounds : Nat) {e : Errand α} (h : e.concerns i = false) :
    Keeps i f (f.push rounds e) :=
  ⟨id, rfl, fun _ => by simp [push, reschedule, h], rfl⟩

theorem keeps_setAlarm (f : Fleet σ α) (span : Micros) (rounds : Nat) {e : Errand α}
    (h : e.concerns i = false) : Keeps i f (f.setAlarm span rounds e) :=
  ⟨id, rfl, fun _ => rfl, by simp [setAlarm, reschedule, h]⟩

/-- The errands of other loops and the ends of waiting can be dropped. -/
theorem keeps_dropAlarms (f : Fleet σ α) {p : Errand α → Bool}
    (h : ∀ e, e.concerns i = true → p e = false) : Keeps i f (f.reschedule (·.dropAlarms p)) := by
  refine ⟨id, rfl, fun _ => rfl, ?_⟩
  have hall : ∀ e ∈ f.schedule.awaitedFor i, (!p e) = true := by
    intro e he
    simp [h e ((List.mem_filter.1 he).2)]
  simp [reschedule, List.filter_eq_self.2 hall]

theorem keeps_caller (f : Fleet σ α) : Keeps i f (f.reschedule (·.pushFirst .caller)) :=
  ⟨id, rfl, fun _ => rfl, rfl⟩

theorem session?_setSession (f : Fleet σ α) (s : Session α) (i j : Nat) :
    (f.setSession j s).session? i =
      if j = i then (f.session? i).map fun _ => s else f.session? i := by
  by_cases hij : j = i <;> simp [setSession, session?, SessionPool.update, hij]

theorem keeps_setSession (f : Fleet σ α) (h : j ≠ i) (s : Session α) : Keeps i f (f.setSession j s) :=
  ⟨id, by simp [session?_setSession, h], fun _ => rfl, rfl⟩

theorem keeps_tellListeners (f : Fleet σ α) (j : Nat) : Keeps i f (f.tellListeners j) := by
  refine ⟨?_, rfl, ?_, ?_⟩
  · intro polite ℓ hℓ
    exact polite ℓ ((List.mem_filter.1 hℓ).1)
  -- Only those who listen are told, and of the alarms only ends of waiting are dropped.
  · intro polite
    refine Schedule.queuedFor_pushAll ?_
    intro c hc
    rcases List.mem_map.1 hc with ⟨ℓ, hℓ, rfl⟩
    exact polite ℓ ((List.mem_filter.1 hℓ).1)
  · exact (keeps_dropAlarms f fun e he => Errand.endsWaiting_of_concerns he).awaited

theorem keeps_endLoop (f : Fleet σ α) (h : j ≠ i) (s : Session α) (fault? : Option NumberFault) :
    Keeps i f (f.endLoop j s fault?) :=
  ((keeps_setSession f h _).trans (keeps_report _ _)).trans (keeps_tellListeners _ j)

theorem keeps_rest (f : Fleet σ α) (h : j ≠ i) (span : Micros) : Keeps i f (f.rest j span) := by
  refine Keeps.ite (fun _ => keeps_push f 2 ?_)
    fun _ => (keeps_setAlarm f span 4 ?_).trans (keeps_push _ 0 ?_)
  all_goals simpa [Errand.concerns] using h

theorem keeps_afterTick (f : Fleet σ α) (h : j ≠ i) (s : Session α) :
    Keeps i f (f.afterTick j s) := by
  unfold afterTick
  split
  · exact keeps_endLoop f h s _
  · exact (keeps_setSession f h s).trans (keeps_rest _ h _)

theorem keeps_endTick (f : Fleet σ α) {flight : Flight} (h : flight.index ≠ i)
    (failure? : Option TickFailure) : Keeps i f (f.endTick flight failure?) := by
  unfold endTick
  split
  · exact .refl f
  · rename_i s hs
    have hreported : Keeps i f (if failure?.isSome then f.report [.tickFailed s.id] else f) :=
      Keeps.ite (fun _ => keeps_report f _) fun _ => .refl f
    exact hreported.trans (Keeps.ite (fun _ => keeps_afterTick _ h _)
      fun _ => (keeps_setSession _ h _).trans (keeps_caller _))

theorem keeps_settle (f : Fleet σ α) (h : j ≠ i) : Keeps i f (f.settle j) := by
  refine Keeps.ite (fun _ => ?_) fun _ => .refl f
  have hdropped := keeps_dropAlarms (i := i) f fun e he => Errand.isGoOn_of_concerns h he
  exact hdropped.trans (keeps_push _ 1 (by simpa [Errand.concerns] using h))

theorem keeps_cutRest (f : Fleet σ α) (h : j ≠ i) : Keeps i f (f.cutRest j) := by
  -- A loop that does not rest, or is about to listen anyway, is left alone.
  refine Keeps.ite (fun _ => .refl f) fun _ => Keeps.ite (fun _ => ?_) fun _ => .refl f
  have hdropped := keeps_dropAlarms (i := i) f fun e he => Errand.isGoOn_of_concerns h he
  exact hdropped.trans (keeps_push _ 2 (by simpa [Errand.concerns] using h))

/-! ### The caller and the helpers -/

theorem keeps_forget (f : Fleet σ α) (j : Nat) (late : List Nat) :
    Keeps i f { f with listeners := f.listeners.filter (·.index != j), late } :=
  ⟨fun polite ℓ hℓ => polite ℓ ((List.mem_filter.1 hℓ).1), rfl, fun _ => rfl, rfl⟩

theorem keeps_giveUp (f : Fleet σ α) (j : Nat) : Keeps i f (f.giveUp j) :=
  Keeps.ite (fun _ => (keeps_forget f j _).trans (keeps_push _ 1 rfl)) fun _ => .refl f

theorem keeps_quit (f : Fleet σ α) (j : Nat) : Keeps i f (f.quit j) :=
  Keeps.ite (fun _ => (keeps_forget f j _).trans (keeps_push _ 2 rfl)) fun _ => .refl f

theorem keeps_listen (f : Fleet σ α) (j rounds : Nat) {e : Errand α} (h : e.isReply = true) :
    Keeps i f (f.listen j rounds e) := by
  refine ⟨?_, rfl, fun _ => rfl, rfl⟩
  intro polite ℓ hℓ
  rcases List.mem_append.1 hℓ with hℓ | hℓ
  · exact polite ℓ hℓ
  · rw [List.mem_singleton.1 hℓ]
    exact h

theorem keeps_late (f : Fleet σ α) (late : List Nat) : Keeps i f { f with late } :=
  ⟨id, rfl, fun _ => rfl, rfl⟩

theorem keeps_helpers (f : Fleet σ α) (helpers : Nat) : Keeps i f { f with helpers } :=
  ⟨id, rfl, fun _ => rfl, rfl⟩

theorem keeps_ask (f : Fleet σ α) (j : Nat) (span? : Option Micros) : Keeps i f (f.ask j span?) := by
  unfold ask
  split
  · exact keeps_listen f j 2 rfl
  · exact Keeps.ite (fun _ => (keeps_listen f j 3 rfl).trans (keeps_setAlarm _ _ 1 rfl))
      fun _ => (keeps_late f _).trans (keeps_push _ 2 rfl)
  · exact keeps_push f _ rfl
  · exact keeps_push f 0 rfl

theorem keeps_join (f : Fleet σ α) : Keeps i f f.join :=
  (keeps_helpers f _).trans (Keeps.ite (fun _ => keeps_push _ 0 rfl) fun _ => .refl _)

/-! ### Ticks -/

variable [Store σ α]

theorem keeps_send (f : Fleet σ α) {flight : Flight} (h : flight.index ≠ i) (d : TickDecision α) :
    Keeps i f (f.send flight d) := by
  unfold send
  split
  · exact .refl f
  · rename_i s hs
    rcases Tick.send (Store.access f.now) (s.setup f.pool.activeOwners) d f.store with
      ⟨result, store, notices⟩
    have hsent : Keeps i f ({ f with store }.report notices) :=
      (keeps_store f store).trans (keeps_report _ notices)
    cases result with
    | ok sent => exact hsent.trans (keeps_endTick _ h none)
    | error failure => exact hsent.trans (keeps_endTick _ h (some failure))

variable [Amount α]

theorem keeps_decide (f : Fleet σ α) {flight : Flight} (h : flight.index ≠ i) (s : Session α)
    (snapshot : Snapshot α) : Keeps i f (f.decide flight s snapshot) := by
  unfold decide
  generalize Tick.decide (s.setup f.pool.activeOwners) (.ok f.now) snapshot s.memory = outcome
  have hdecided : Keeps i f
      ((f.setSession flight.index { s with memory := outcome.memory }).report outcome.notices) :=
    (keeps_setSession f h _).trans (keeps_report _ _)
  dsimp only
  split
  · exact hdecided.trans (keeps_endTick _ h _)
  · exact hdecided.trans (Keeps.ite
      (fun _ => keeps_setAlarm _ _ 1 (by simpa [Errand.concerns] using h)) fun _ => keeps_send _ h _)

theorem keeps_fetch (f : Fleet σ α) {flight : Flight} (h : flight.index ≠ i) :
    Keeps i f (f.fetch flight) := by
  unfold fetch
  split
  · exact .refl f
  -- What was fetched is decided on at once, within the same errand.
  · split
    · exact (keeps_store f _).trans (keeps_endTick _ h (some _))
    · exact (keeps_store f _).trans (keeps_decide _ h _ _)

theorem keeps_beginTick (f : Fleet σ α) {flight : Flight} (h : flight.index ≠ i) :
    Keeps i f (f.beginTick flight) :=
  Keeps.ite (fun _ => keeps_setAlarm f _ 1 (by simpa [Errand.concerns] using h))
    fun _ => keeps_fetch f h

theorem keeps_goOn (f : Fleet σ α) (h : j ≠ i) : Keeps i f (f.goOn j) := by
  unfold goOn
  split
  · exact .refl f
  · exact Keeps.ite (fun _ => keeps_endLoop f h _ none) fun _ => keeps_beginTick f h

/-- An errand that does not concern a place keeps it. -/
theorem keeps_work (f : Fleet σ α) {e : Errand α} (h : e.concerns i = false) :
    Keeps i f (f.work e) := by
  cases e with
  | goOn j => exact keeps_goOn f (by simpa [Errand.concerns] using h)
  | settle j => exact keeps_settle f (by simpa [Errand.concerns] using h)
  | fetch flight => exact keeps_fetch f (by simpa [Errand.concerns] using h)
  | send flight d => exact keeps_send f (by simpa [Errand.concerns] using h) d
  | caller => exact .refl f
  | giveUp j => exact keeps_giveUp f j
  | ask j span? => exact keeps_ask f j span?
  | quit j => exact keeps_quit f j
  | join => exact keeps_join f

end Fleet

end RuleTrader
