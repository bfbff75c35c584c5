import RuleTrader.Proofs.Store.Alike

/-!
# Owners do not disturb each other

A session that is for the bots of one owner runs its ticks on a store that others use as well: they seed
bots of their own, and sessions that are for other owners read and send in between, also between the
moment when a tick of the session reads the store and the moment when it sends. `Scene.isolated` compares
such a run with the run in which none of this happens. The session decides and sends the same, but for the
names that the store gives to orders, and it leaves the same to the bots of its owner.

Everything hangs on what the others can reach. A batch that was decided for other owners names only orders
of their bots, and names are never used twice, so it cannot meet an order of the owner even if it is sent
much later (`Scene.Sound`, kept by every step).
-/

namespace RuleTrader

/-- What a session has to show: what it remembers, a decision that it has not sent yet, the results of its
ticks, and the batches that it sent. -/
structure SessionTrace where
  memory : TickMemory Value
  intent? : Option (TickDecision Value) := none
  results : List (Except TickFailure (TickDecision Value)) := []
  batches : List (Batch Value) := []

/-- A store with one session on it, and what sessions for others have decided and not sent yet. -/
structure Scene where
  store : MemoryStore
  trace : SessionTrace
  others : List (TickSetup × TickDecision Value) := []

/-- Something that happens in the run of the session itself. -/
inductive OwnEvent where
  | seed (x : Seed)
  /-- One of the owner's orders is filled. -/
  | fill (k : Nat)
  /-- A tick begins. -/
  | read (clock : Except NumberFault Micros)
  /-- A tick ends. -/
  | send (now : Micros)

/-- Something that happens beside the run of the session. -/
inductive OtherEvent where
  | seed (x : Seed)
  | fill (k : Nat)
  | read (setup : TickSetup) (clock : Except NumberFault Micros) (m : TickMemory Value)
  | send (k : Nat) (now : Micros)

inductive Event where
  | own (e : OwnEvent)
  | other (e : OtherEvent)

namespace SessionTrace

/-- What the session has to show with its orders renamed. -/
def rename (ρ : String → String) (x : SessionTrace) : SessionTrace where
  memory := x.memory
  intent? := x.intent?.map (·.rename ρ)
  results := x.results.map (Except.map (·.rename ρ))
  batches := x.batches.map (·.rename ρ)

/-- A tick decides on what it read, or fails. -/
def afterRead (setup : TickSetup) (clock : Except NumberFault Micros)
    (fetched : Except StoreFault (Snapshot Value)) (x : SessionTrace) : SessionTrace :=
  match fetched with
  | .error fault => { x with results := x.results ++ [.error (.store fault)] }
  | .ok snapshot =>
    let outcome := Tick.decide setup clock snapshot x.memory
    match outcome.result with
    | .error fault =>
      { x with memory := outcome.memory, results := x.results ++ [.error (.decision fault)] }
    | .ok d => { x with memory := outcome.memory, intent? := some d }

/-- A tick is over once its decision was sent, if there was something to send. -/
def afterSend (d : TickDecision Value) (result : Except TickFailure (TickDecision Value))
    (x : SessionTrace) : SessionTrace where
  memory := x.memory
  intent? := none
  results := x.results ++ [result]
  batches := if d.hasBatch then x.batches ++ [d.batch] else x.batches

theorem afterSend_rename (ρ : String → String) (d : TickDecision Value)
    (result : Except TickFailure (TickDecision Value)) (x : SessionTrace) :
    (x.afterSend d result).rename ρ =
      (x.rename ρ).afterSend (d.rename ρ) (result.map (·.rename ρ)) := by
  simp only [afterSend, rename, MemoryStore.hasBatch_rename]
  cases d.hasBatch <;> simp [TickDecision.batch, TickDecision.rename, Batch.rename]

end SessionTrace

namespace Scene

/-- A session that is about to begin. -/
def start (store : MemoryStore) (m : TickMemory Value) : Scene := ⟨store, ⟨m, none, [], []⟩, []⟩

/-- One event of the session. It begins a tick when the last one is over. -/
def own (p : Party) (setup : TickSetup) (a : Scene) : OwnEvent → Scene
  | .seed x => { a with store := x.plant a.store }
  | .fill k => { a with store := a.store.fillNth p.hasBot k }
  | .read clock =>
    match a.trace.intent? with
    | some _ => a
    | none =>
      { a with store := a.store.fetch.2, trace := a.trace.afterRead setup clock a.store.fetch.1 }
  | .send now =>
    match a.trace.intent? with
    | none => a
    | some d =>
      let sent := Tick.send (MemoryStore.access now) setup d a.store
      { a with store := sent.2.1, trace := a.trace.afterSend d sent.1 }

/-- One event beside the session. -/
def other (p : Party) (a : Scene) : OtherEvent → Scene
  | .seed x => { a with store := x.plant a.store }
  | .fill k => { a with store := a.store.fillNth (fun botId => !p.hasBot botId) k }
  | .read setup clock m =>
    match a.store.fetch with
    | (.error _, store) => { a with store }
    | (.ok snapshot, store) =>
      match (Tick.decide setup clock snapshot m).result with
      | .error _ => { a with store }
      | .ok d => { a with store, others := a.others ++ [(setup, d)] }
  | .send k now =>
    match a.others[k]? with
    | none => a
    | some (setup, d) =>
      { a with
        store := (Tick.send (MemoryStore.access now) setup d a.store).2.1
        others := a.others.eraseIdx k }

def step (p : Party) (setup : TickSetup) (a : Scene) : Event → Scene
  | .own e => a.own p setup e
  | .other e => a.other p e

def run (p : Party) (setup : TickSetup) (a : Scene) (events : List Event) : Scene :=
  events.foldl (step p setup) a

/-- A tick in one go is its two events. -/
theorem own_read_send (p : Party) (setup : TickSetup) (a : Scene) (idle : a.trace.intent? = none)
    (clock : Except NumberFault Micros) (now : Micros) :
    let b := (a.own p setup (.read clock)).own p setup (.send now)
    let r := Tick.run (MemoryStore.access now) setup clock a.store a.trace.memory
    b.store = r.store ∧ b.trace.memory = r.memory ∧ b.trace.results = a.trace.results ++ [r.result] ∧
      b.trace.intent? = none := by
  intro b r
  have hread : a.own p setup (.read clock) =
      { a with store := a.store.fetch.2, trace := a.trace.afterRead setup clock a.store.fetch.1 } := by
    simp only [own, idle]
  have hrun : r = Tick.run (MemoryStore.access now) setup clock a.store a.trace.memory := rfl
  unfold Tick.run Tick.proceed at hrun
  simp only [b, hread, hrun, MemoryStore.access, SessionTrace.afterRead]
  rcases a.store.fetch with ⟨fault | snapshot, store⟩
  · simp [own, idle]
  · cases hresult : (Tick.decide setup clock snapshot a.trace.memory).result with
    | error fault => simp [own, idle, hresult]
    | ok d => simp [own, hresult, SessionTrace.afterSend, MemoryStore.access]

end Scene

/-! ## What may happen -/

/-- A tick that is for other owners only. -/
def TickSetup.Avoids (setup : TickSetup) (owner : String) : Prop :=
  match setup.ownerId?, setup.activeOwners? with
  | some other, _ => other ≠ owner
  | none, some others => owner ∉ others
  | none, none => False

/-- The bots that a tick for other owners is for are not bots of the party. -/
theorem TickSetup.Avoids.bots {p : Party} {setup : TickSetup} (havoids : setup.Avoids p.owner)
    {s : MemoryStore} (hs : p.Divides s) :
    ∀ b ∈ (Tick.scope setup s.snapshot).bots, (!p.hasBot b.id) = true ∧ s.bots.has b.id = true := by
  have howners (owners : List String) (howner : p.owner ∉ owners) :
      ∀ b ∈ (s.snapshot.scopeTo owners).bots, (!p.hasBot b.id) = true ∧ s.bots.has b.id = true := by
    intro b hb
    rcases List.mem_filter.1 hb with ⟨hmem, howns⟩
    rcases List.mem_map.1 (List.mem_filter.1 hmem).1 with ⟨e, he, rfl⟩
    refine ⟨?_, hs.filed.has_of_mem (List.mem_map_of_mem he)⟩
    -- A bot of the party has the owner, whom the tick is not for.
    rcases hs.parted e he with hfits | hforeign
    · simp [Snapshot.owns, hfits.owner, howner] at howns
    · simp [hforeign.notMine]
  unfold TickSetup.Avoids at havoids
  unfold Tick.scope
  cases howner : setup.ownerId? with
  | some other =>
      simp only [howner] at havoids
      exact howners [other] (by simpa using havoids.symm)
  | none =>
      cases hactive : setup.activeOwners? with
      | some others =>
          simp only [howner, hactive] at havoids
          exact howners others havoids
      | none => simp [howner, hactive] at havoids

def OwnEvent.For (p : Party) : OwnEvent → Prop
  | .seed x => x.For p
  | .fill _ | .read _ | .send _ => True

def OtherEvent.Beside (p : Party) : OtherEvent → Prop
  | .seed x => x.Beside p
  | .read setup _ _ => setup.Avoids p.owner
  | .fill _ | .send _ _ => True

namespace Event

/-- An event of the session is for the party, every other event is not. -/
def Proper (p : Party) : Event → Prop
  | .own e => e.For p
  | .other e => e.Beside p

def isOwn : Event → Bool
  | .own _ => true
  | .other _ => false

/-- The run of the session without what happens beside it. -/
def alone (events : List Event) : List Event := events.filter isOwn

end Event

/-! ## The invariant -/

/-- Everything that the session decided or sent reaches only bots of the party. -/
structure SessionTrace.Within (p : Party) (s : MemoryStore) (x : SessionTrace) : Prop where
  intent : ∀ d, x.intent? = some d → d.batch.Within p.hasBot s
  results : ∀ d, .ok d ∈ x.results → d.batch.Within p.hasBot s
  batches : ∀ b ∈ x.batches, b.Within p.hasBot s

namespace Batch.Within

variable {p : Party} {s : MemoryStore} {ρ ρ' : Equiv.Perm String}

theorem rename_extends {b : Batch Value} (h : b.Within p.hasBot s) (hext : p.Extends s ρ ρ') :
    b.rename ρ' = b.rename ρ := by
  have hids : b.cancelIds.map ρ' = b.cancelIds.map ρ := by
    refine List.map_congr_left fun id hid => hext id (Party.mem_orderIds.2 ?_)
    rcases h.cancels id hid with ⟨o, ho, hname, hmine, -⟩
    exact ⟨o, ho, hname, hmine⟩
  simp only [Batch.rename, hids]

theorem decision_extends {d : TickDecision Value} (h : d.batch.Within p.hasBot s)
    (hext : p.Extends s ρ ρ') : d.rename ρ' = d.rename ρ := by
  have hbatch := congrArg Batch.cancelIds (h.rename_extends hext)
  have hids : d.cancelIds.map ρ' = d.cancelIds.map ρ := hbatch
  simp only [TickDecision.rename, hids]

end Batch.Within

namespace SessionTrace.Within

variable {p : Party} {s t : MemoryStore} {x : SessionTrace}

theorem grows (hgrows : s.Grows t) (h : x.Within p s) : x.Within p t :=
  ⟨fun d hd => (h.intent d hd).grows hgrows, fun d hd => (h.results d hd).grows hgrows,
    fun b hb => (h.batches b hb).grows hgrows⟩

theorem failed (h : x.Within p s) (memory : TickMemory Value) (failure : TickFailure) :
    SessionTrace.Within p s { x with memory, results := x.results ++ [.error failure] } where
  intent := h.intent
  results := by
    intro d hd
    rcases List.mem_append.1 hd with hd | hd
    · exact h.results d hd
    · simp at hd
  batches := h.batches

/-- A tick for the owner decides about nothing else than bots of the party. -/
theorem afterRead (hs : p.Divides s) (h : x.Within p s) {setup : TickSetup}
    (hsetup : setup.ownerId? = some p.owner) (clock : Except NumberFault Micros) :
    (x.afterRead setup clock s.fetch.1).Within p s := by
  have hscope : ∀ b ∈ (Tick.scope setup s.snapshot).bots,
      p.hasBot b.id = true ∧ s.bots.has b.id = true := by
    intro b hb
    simp only [Tick.scope, hsetup] at hb
    rcases hs.mem_drivenBots hb with ⟨hfits, hget⟩
    exact ⟨hfits.mine, by simp [Table.has, hget]⟩
  unfold SessionTrace.afterRead
  rcases hfetch : s.fetch with ⟨fault | snapshot, store⟩
  · exact h.failed x.memory (.store fault)
  · obtain ⟨rfl, -⟩ := MemoryStore.fetch_ok hfetch
    dsimp only
    cases hresult : (Tick.decide setup clock s.snapshot x.memory).result with
    | error fault => exact h.failed _ (.decision fault)
    | ok d =>
        refine ⟨?_, h.results, h.batches⟩
        rintro d' ⟨⟩
        exact Batch.Within.of_decide hscope hresult

theorem afterSend (h : x.Within p s) {d : TickDecision Value} (hd : d.batch.Within p.hasBot s)
    {result : Except TickFailure (TickDecision Value)} (hresult : ∀ d', result = .ok d' → d' = d) :
    (x.afterSend d result).Within p s where
  intent := by
    rintro d' ⟨⟩
  results := by
    intro d' hd'
    rcases List.mem_append.1 hd' with hd' | hd'
    · exact h.results d' hd'
    · rw [hresult d' (List.mem_singleton.1 hd').symm]
      exact hd
  batches := by
    intro b hb
    simp only [SessionTrace.afterSend] at hb
    split at hb
    · rcases List.mem_append.1 hb with hb | hb
      · exact h.batches b hb
      · rw [List.mem_singleton.1 hb]
        exact hd
    · exact h.batches b hb

/-- What was decided and sent looks the same under a renaming that goes on from another one. -/
theorem rename_extends (h : x.Within p s) {ρ ρ' : Equiv.Perm String} (hext : p.Extends s ρ ρ') :
    x.rename ρ' = x.rename ρ := by
  have hintent : x.intent?.map (·.rename ρ') = x.intent?.map (·.rename ρ) := by
    cases hd : x.intent? with
    | none => rfl
    | some d => exact congrArg some ((h.intent d hd).decision_extends hext)
  have hresults : x.results.map (Except.map (·.rename ρ')) = x.results.map (Except.map (·.rename ρ)) := by
    refine List.map_congr_left fun result hmem => ?_
    cases result with
    | error failure => rfl
    | ok d => exact congrArg Except.ok ((h.results d hmem).decision_extends hext)
  have hbatches : x.batches.map (·.rename ρ') = x.batches.map (·.rename ρ) :=
    List.map_congr_left fun b hb => (h.batches b hb).rename_extends hext
  simp only [SessionTrace.rename, hintent, hresults, hbatches]

end SessionTrace.Within

namespace Scene

/-- The invariant of a run. -/
structure Sound (p : Party) (a : Scene) : Prop where
  divides : p.Divides a.store
  within : a.trace.Within p a.store
  others : ∀ x ∈ a.others, x.2.batch.Within (fun botId => !p.hasBot botId) a.store

variable {p : Party} {setup : TickSetup} {a b : Scene} {ρ : Equiv.Perm String}

/-- The bots of a store are as they were after a batch is sent. -/
theorem send_divides {s : MemoryStore} (hs : p.Divides s) (now : Micros) (d : TickDecision Value) :
    p.Divides (Tick.send (MemoryStore.access now) setup d s).2.1 := by
  have hbots : (Tick.send (MemoryStore.access now) setup d s).2.1.bots = s.bots := by
    rcases Desk.send_cases now setup d s with hsame | ⟨-, happly⟩
    · rw [hsame]
    · rw [happly, (MemoryStore.apply_tables s d.batch now).1]
  exact ⟨hbots ▸ hs.filed, fun e he => hs.parted e (hbots ▸ he)⟩

theorem fetch_divides {s : MemoryStore} (hs : p.Divides s) : p.Divides s.fetch.2 := by
  rw [MemoryStore.fetch_snd]
  exact ⟨hs.filed, hs.parted⟩

theorem fillNth_divides {s : MemoryStore} (hs : p.Divides s) (q : String → Bool) (k : Nat) :
    p.Divides (s.fillNth q k) := by
  unfold MemoryStore.fillNth
  cases (s.orders.filter fun o => q o.botId)[k]? with
  | none => exact hs
  | some o => exact ⟨hs.filed, hs.parted⟩

theorem own_grows (p : Party) (setup : TickSetup) (a : Scene) (e : OwnEvent) :
    a.store.Grows (a.own p setup e).store := by
  cases e with
  | seed x => exact x.plant_grows a.store
  | fill k => exact MemoryStore.grows_fillNth p.hasBot k
  | read clock =>
      simp only [own]
      cases a.trace.intent? with
      | some d => exact .refl _
      | none => exact MemoryStore.grows_fetch
  | send now =>
      simp only [own]
      cases a.trace.intent? with
      | none => exact .refl _
      | some d => exact MemoryStore.grows_send now setup d

/-- When a tick for others begins, the store is read and the tick may decide something. -/
theorem other_read (p : Party) (a : Scene) (setup : TickSetup) (clock : Except NumberFault Micros)
    (m : TickMemory Value) :
    let b := a.other p (.read setup clock m)
    b.store = a.store.fetch.2 ∧ b.trace = a.trace ∧
      ∀ x ∈ b.others, x ∈ a.others ∨ (Tick.decide setup clock a.store.snapshot m).result = .ok x.2 := by
  simp only [other]
  rcases hfetch : a.store.fetch with ⟨fault | snapshot, store⟩
  · exact ⟨rfl, rfl, fun x hx => Or.inl hx⟩
  · obtain ⟨rfl, -⟩ := MemoryStore.fetch_ok hfetch
    cases hresult : (Tick.decide setup clock a.store.snapshot m).result with
    | error fault => simp [hresult]
    | ok d =>
        simp only [hresult, true_and]
        intro x hx
        rcases List.mem_append.1 hx with hx | hx
        · exact Or.inl hx
        · rw [List.mem_singleton.1 hx]
          exact Or.inr rfl

theorem other_grows (p : Party) (a : Scene) (e : OtherEvent) : a.store.Grows (a.other p e).store := by
  cases e with
  | seed x => exact x.plant_grows a.store
  | fill k => exact MemoryStore.grows_fillNth (fun botId => !p.hasBot botId) k
  | read setup clock m =>
      rw [(other_read p a setup clock m).1]
      exact MemoryStore.grows_fetch
  | send k now =>
      simp only [other]
      cases a.others[k]? with
      | none => exact .refl _
      | some x => exact MemoryStore.grows_send now x.1 x.2

/-- What grows keeps what was decided within its bounds. -/
theorem Sound.mono {store : MemoryStore} (h : a.Sound p) (hgrows : a.store.Grows store)
    (hstore : p.Divides store) : Sound p { a with store } :=
  ⟨hstore, h.within.grows hgrows, fun x hx => (h.others x hx).grows hgrows⟩

theorem Sound.own (h : a.Sound p) (hsetup : setup.ownerId? = some p.owner) {e : OwnEvent}
    (he : e.For p) : (a.own p setup e).Sound p := by
  have hgrows := a.own_grows p setup e
  cases e with
  | seed x => exact h.mono hgrows (Seed.plant_divides h.divides (Or.inl he))
  | fill k => exact h.mono hgrows (fillNth_divides h.divides p.hasBot k)
  | read clock =>
      simp only [Scene.own] at hgrows ⊢
      cases hintent : a.trace.intent? with
      | some d => exact h
      | none =>
          -- What is decided now stays within its bounds, as reading only counts.
          simp only [hintent] at hgrows
          refine ⟨fetch_divides h.divides, ?_, fun x hx => (h.others x hx).grows hgrows⟩
          exact (h.within.afterRead h.divides hsetup clock).grows hgrows
  | send now =>
      simp only [Scene.own] at hgrows ⊢
      cases hintent : a.trace.intent? with
      | none => exact h
      | some d =>
          -- The decision was made earlier, and the store has only grown since.
          simp only [hintent] at hgrows
          refine ⟨send_divides h.divides now d, ?_, fun x hx => (h.others x hx).grows hgrows⟩
          have hd := (h.within.intent d hintent).grows hgrows
          exact (h.within.grows hgrows).afterSend hd fun d' hd' => MemoryStore.send_ok hd'

theorem Sound.other (h : a.Sound p) {e : OtherEvent} (he : e.Beside p) : (a.other p e).Sound p := by
  have hgrows := a.other_grows p e
  cases e with
  | seed x => exact h.mono hgrows (Seed.plant_divides h.divides (Or.inr he))
  | fill k => exact h.mono hgrows (fillNth_divides h.divides _ k)
  | read setup clock m =>
      -- A decision joins those that wait, and it is within the bounds of the store that was read.
      rcases other_read p a setup clock m with ⟨hstore, htrace, hothers⟩
      refine ⟨hstore ▸ fetch_divides h.divides, htrace ▸ h.within.grows hgrows, ?_⟩
      intro x hx
      rcases hothers x hx with hx | hresult
      · exact (h.others x hx).grows hgrows
      · have havoids : setup.Avoids p.owner := he
        have hwithin : x.2.batch.Within (fun botId => !p.hasBot botId) a.store :=
          Batch.Within.of_decide (havoids.bots h.divides) hresult
        exact hwithin.grows hgrows
  | send k now =>
      simp only [Scene.other] at hgrows ⊢
      cases hk : a.others[k]? with
      | none => exact h
      | some x =>
          simp only [hk] at hgrows
          have hsent := h.mono hgrows (send_divides h.divides now x.2)
          exact ⟨hsent.divides, hsent.within, fun y hy => hsent.others y (List.mem_of_mem_eraseIdx hy)⟩

/-! ## Two runs -/

/-- Two scenes in which the session has shown the same and the party has the same, with the orders
renamed. -/
structure Similar (p : Party) (ρ : Equiv.Perm String) (a b : Scene) : Prop where
  store : p.Alike ρ a.store b.store
  trace : a.trace.rename ρ = b.trace

theorem Similar.intent?_eq (h : Similar p ρ a b) :
    b.trace.intent? = a.trace.intent?.map (·.rename ρ) := by
  rw [← h.trace]
  rfl

/-- A tick begins the same way on both stores. -/
theorem Similar.afterRead (h : Similar p ρ a b) (ha : a.Sound p) (hb : b.Sound p)
    (hsetup : setup.ownerId? = some p.owner) (clock : Except NumberFault Micros) :
    (a.trace.afterRead setup clock a.store.fetch.1).rename ρ =
      b.trace.afterRead setup clock b.store.fetch.1 := by
  have hdecide := h.store.decide ha.divides hb.divides hsetup clock a.trace.memory
  have hmemory : (a.trace.rename ρ).memory = a.trace.memory := rfl
  rw [← h.trace, MemoryStore.fetch_eq, MemoryStore.fetch_eq, h.store.fetchFailure?_eq]
  cases a.store.fetchFailure? with
  | some reason => simp [SessionTrace.afterRead, SessionTrace.rename, Except.map]
  | none =>
      simp only [SessionTrace.afterRead, hmemory, hdecide, TickOutcome.rename]
      cases (Tick.decide setup clock a.store.snapshot a.trace.memory).result with
      | error fault => simp [SessionTrace.rename, Except.map]
      | ok d => simp [SessionTrace.rename, Except.map]

/-- A renaming that goes on from another one makes no difference to what was shown before. -/
theorem Similar.trace_extends (h : Similar p ρ a b) (ha : a.Sound p) {ρ' : Equiv.Perm String}
    (hext : p.Extends a.store ρ ρ') : a.trace.rename ρ' = b.trace :=
  (ha.within.rename_extends hext).trans h.trace

/-- What the session does next, it does in both runs, and the runs stay similar. -/
theorem Similar.own (h : Similar p ρ a b) (hgiven : Party.OnlyGiven ρ) (ha : a.Sound p)
    (hb : b.Sound p) (hsetup : setup.ownerId? = some p.owner) {e : OwnEvent} (he : e.For p)
    (hapart : (a.own p setup e).store.Apart) (hapart' : (b.own p setup e).store.Apart) :
    ∃ ρ', Party.OnlyGiven ρ' ∧ Similar p ρ' (a.own p setup e) (b.own p setup e) := by
  cases e with
  | seed x =>
      -- An order that is planted may get another name in either store.
      rcases h.store.plant hgiven he hapart hapart' with ⟨ρ', hgiven', hext, halike⟩
      exact ⟨ρ', hgiven', halike, h.trace_extends ha hext⟩
  | fill k =>
      have hs := (a.own_grows p setup (.fill k)).apart hapart
      have ht := (b.own_grows p setup (.fill k)).apart hapart'
      exact ⟨ρ, hgiven, h.store.fillNth hs ht k, h.trace⟩
  | read clock =>
      have hintent := h.intent?_eq
      simp only [Scene.own]
      cases hnow : a.trace.intent? with
      | some d =>
          simp only [hintent, hnow, Option.map_some]
          exact ⟨ρ, hgiven, h⟩
      | none =>
          have hfetch : p.Alike ρ a.store.fetch.2 b.store.fetch.2 := by
            unfold Party.Alike
            rw [Party.share_fetch, Party.share_fetch]
            exact h.store
          simp only [hintent, hnow, Option.map_none]
          exact ⟨ρ, hgiven, hfetch, h.afterRead ha hb hsetup clock⟩
  | send now =>
      have hintent := h.intent?_eq
      simp only [Scene.own] at hapart hapart' ⊢
      cases hnow : a.trace.intent? with
      | none =>
          simp only [hintent, hnow, Option.map_none]
          exact ⟨ρ, hgiven, h⟩
      | some d =>
          simp only [hintent, hnow, Option.map_some] at hapart hapart' ⊢
          have hwithin := ha.within.intent d hnow
          rcases h.store.send hgiven hwithin now setup hapart hapart' with
            ⟨hresult, ρ', hgiven', hext, halike⟩
          refine ⟨ρ', hgiven', halike, ?_⟩
          -- The decision and its result name only orders that were there before anything was inserted.
          have hshown : (a.trace.afterSend d
              (Tick.send (MemoryStore.access now) setup d a.store).1).Within p a.store :=
            ha.within.afterSend hwithin fun d' hd' => MemoryStore.send_ok hd'
          rw [hshown.rename_extends hext, SessionTrace.afterSend_rename, hresult, h.trace]

/-- What happens beside the session changes nothing for it. -/
theorem Similar.other (h : Similar p ρ a b) (ha : a.Sound p) {e : OtherEvent} (he : e.Beside p)
    (hapart : (a.other p e).store.Apart) : Similar p ρ (a.other p e) b := by
  have hbefore := (a.other_grows p e).apart hapart
  have hshare (store : MemoryStore) (heq : p.share store = p.share a.store) : p.Alike ρ store b.store := by
    unfold Party.Alike
    rw [heq]
    exact h.store
  cases e with
  | seed x => exact ⟨hshare _ (Seed.share_plant_beside he), h.trace⟩
  | fill k => exact ⟨hshare _ (Party.share_fillNth hbefore k), h.trace⟩
  | read setup clock m =>
      rcases other_read p a setup clock m with ⟨hstore, htrace, -⟩
      exact ⟨hstore ▸ hshare _ Party.share_fetch, htrace ▸ h.trace⟩
  | send k now =>
      simp only [Scene.other]
      cases hk : a.others[k]? with
      | none => exact h
      | some x =>
          -- However old the decision is, it reaches none of the party's orders.
          have hwithin := ha.others x (List.mem_of_getElem? hk)
          exact ⟨hshare _ (Party.share_send hbefore hwithin now x.1), h.trace⟩

theorem step_grows (p : Party) (setup : TickSetup) (a : Scene) (e : Event) :
    a.store.Grows (a.step p setup e).store := by
  cases e with
  | own e => exact a.own_grows p setup e
  | other e => exact a.other_grows p e

theorem run_grows (p : Party) (setup : TickSetup) (a : Scene) (events : List Event) :
    a.store.Grows (a.run p setup events).store := by
  induction events generalizing a with
  | nil => exact .refl a.store
  | cons e events ih => exact (a.step_grows p setup e).trans (ih _)

theorem Sound.step (h : a.Sound p) (hsetup : setup.ownerId? = some p.owner) {e : Event}
    (he : e.Proper p) : (a.step p setup e).Sound p := by
  cases e with
  | own e => exact h.own hsetup he
  | other e => exact h.other he

theorem Sound.run (h : a.Sound p) (hsetup : setup.ownerId? = some p.owner) {events : List Event}
    (hevents : ∀ e ∈ events, e.Proper p) : (a.run p setup events).Sound p := by
  induction events generalizing a with
  | nil => exact h
  | cons e events ih =>
      exact ih (h.step hsetup (hevents e (List.mem_cons_self ..)))
        fun x hx => hevents x (List.mem_cons_of_mem _ hx)

/-- Similar scenes stay similar when one of them goes on alone. -/
theorem Similar.run (h : Similar p ρ a b) (hgiven : Party.OnlyGiven ρ) (ha : a.Sound p)
    (hb : b.Sound p) (hsetup : setup.ownerId? = some p.owner) {events : List Event}
    (hevents : ∀ e ∈ events, e.Proper p) (hapart : (a.run p setup events).store.Apart)
    (hapart' : (b.run p setup (Event.alone events)).store.Apart) :
    ∃ ρ', Party.OnlyGiven ρ' ∧
      Similar p ρ' (a.run p setup events) (b.run p setup (Event.alone events)) := by
  induction events generalizing a b ρ with
  | nil => exact ⟨ρ, hgiven, h⟩
  | cons e events ih =>
      have he := hevents e (List.mem_cons_self ..)
      have hrest : ∀ x ∈ events, x.Proper p := fun x hx => hevents x (List.mem_cons_of_mem _ hx)
      have hnext : (a.step p setup e).store.Apart :=
        ((a.step p setup e).run_grows p setup events).apart hapart
      have ha' := ha.step hsetup he
      -- An event of the session is a step of both runs, every other event only of the full one.
      cases e with
      | own e =>
          have hnext' : (b.own p setup e).store.Apart :=
            ((b.own p setup e).run_grows p setup (Event.alone events)).apart hapart'
          rcases h.own hgiven ha hb hsetup he hnext hnext' with ⟨ρ', hgiven', hsimilar⟩
          exact ih hsimilar hgiven' ha' (hb.own hsetup he) hrest hapart hapart'
      | other e => exact ih (h.other ha he hnext) hgiven ha' hb hrest hapart hapart'

/-- A bot is there and has an owner. -/
def OwnedBy (s : MemoryStore) (owner botId : String) : Prop :=
  ∃ b, s.bots.get? botId = some b ∧ b.ownerId? = some owner

theorem ownedBy {s : MemoryStore} (hs : p.Divides s) {botId : String} (hmine : p.hasBot botId = true)
    (hhas : s.bots.has botId = true) : OwnedBy s p.owner botId := by
  rcases Option.isSome_iff_exists.1 hhas with ⟨b, hget⟩
  exact ⟨b, hget, (hs.fits (Table.mem_of_get? hget) hmine).owner⟩

/-- Take a store in which the bots of an owner can be told from all others, and a session that is for this
owner. Whatever the others do to the store while the session runs its ticks, at whatever moment: the
session sends the same batches and its ticks have the same results as without them, but for the names of
orders that the store gives out; its prices and its random source are the same; and the owner's bots,
orders, positions and rule sets are the same. Every order that the session cancels or inserts belongs to
a bot of the owner. -/
theorem isolated (p : Party) (setup : TickSetup) (store : MemoryStore) (m : TickMemory Value)
    (events : List Event) (hsetup : setup.ownerId? = some p.owner) (hstore : p.Divides store)
    (hevents : ∀ e ∈ events, e.Proper p)
    (hapart : ((start store m).run p setup events).store.Apart)
    (hapart' : ((start store m).run p setup (Event.alone events)).store.Apart) :
    let full := (start store m).run p setup events
    let alone := (start store m).run p setup (Event.alone events)
    (∃ ρ : Equiv.Perm String, (∀ id, ρ id ≠ id → ∃ n, id = MemoryStore.orderName n) ∧
      alone.trace.batches = full.trace.batches.map (·.rename ρ) ∧
      alone.trace.results = full.trace.results.map (Except.map (·.rename ρ)) ∧
      alone.trace.memory.tracker = full.trace.memory.tracker ∧
      alone.trace.memory.random = full.trace.memory.random ∧
      p.share alone.store = (p.share full.store).rename ρ) ∧
    (∀ e ∈ full.store.bots, e.2.ownerId? = some p.owner ↔ p.hasBot e.1 = true) ∧
    ∀ b ∈ full.trace.batches,
      (∀ id ∈ b.cancelIds, (∃ o ∈ full.store.orders, o.id = id) ∧
        ∀ o ∈ full.store.orders, o.id = id → OwnedBy full.store p.owner o.botId) ∧
      ∀ o ∈ b.newOrders, OwnedBy full.store p.owner o.botId := by
  intro full alone
  have hsound : (start store m).Sound p :=
    ⟨hstore, ⟨by simp [start], by simp [start], by simp [start]⟩, by simp [start]⟩
  have hsame : Similar p (Equiv.refl String) (start store m) (start store m) :=
    ⟨.refl p store, rfl⟩
  have hfull : full.Sound p := hsound.run hsetup hevents
  refine ⟨?_, fun e he => hfull.divides.owner_iff he, ?_⟩
  · -- Both runs begin in the same scene, with no order renamed.
    rcases hsame.run (fun id hid => absurd rfl hid) hsound hsound hsetup hevents hapart hapart' with
      ⟨ρ, hgiven, halike, htrace⟩
    have hbatches := congrArg SessionTrace.batches htrace
    have hresults := congrArg SessionTrace.results htrace
    have hmemory := congrArg SessionTrace.memory htrace
    exact ⟨ρ, hgiven, hbatches.symm, hresults.symm, congrArg TickMemory.tracker hmemory.symm,
      congrArg TickMemory.random hmemory.symm, halike.eq.symm⟩
  · intro b hb
    have hwithin := hfull.within.batches b hb
    refine ⟨?_, fun o ho => ownedBy hfull.divides (hwithin.inserts o ho).1 (hwithin.inserts o ho).2⟩
    intro id hid
    rcases hwithin.cancels id hid with ⟨x, hx, hname, hmine, hhas⟩
    refine ⟨⟨x, hx, hname⟩, ?_⟩
    -- Orders are apart, so there is no other order of this name.
    intro o ho heq
    obtain rfl : o = x := List.inj_on_of_nodup_map hapart ho hx (heq.trans hname.symm)
    exact ownedBy hfull.divides hmine hhas

/-- A store with a bot of each of two owners, and a sell order of each of them. -/
def twoOwners : MemoryStore where
  bots := [("b1", { id := "b1", balance := .int 100, ownerId? := some "u" }),
    ("b2", { id := "b2", balance := .int 100, ownerId? := some "v" })]
  instruments := [("i1", { id := "i1", symbol := "ACME", price := .int 10 })]
  orders :=
    [{ id := "o1", instrumentId := "i1", botId := "b1", side := .sell,
       limitPrice := .int 9, quantity := .int 2, createdAt := 0 },
     { id := "o2", instrumentId := "i1", botId := "b2", side := .sell,
       limitPrice := .int 8, quantity := .int 2, createdAt := 0 }]
  positions := [(("b1", "i1"), 5), (("b2", "i1"), 5)]

/-- The first of the two owners. -/
def firstOwner : Party := ⟨"u", fun botId => botId == "b1", fun _ => false⟩

/-- Sessions for each of the two owners. -/
def sellFor (owner : String) : TickSetup := { Desk.sellAnew with ownerId? := some owner }

/-- Between reading and sending of a tick, the other owner runs a whole tick and gets a new bot; then the
price rises, and another tick runs. -/
def interleaved : List Event :=
  [.own (.read (.ok 0)),
   .other (.read (sellFor "v") (.ok 0) Desk.beforeTick.memory),
   .other (.send 0 0),
   .other (.seed (.bot { id := "b3", balance := .int 7, ownerId? := some "v" })),
   .own (.send 0),
   .own (.seed (.price "i1" (.int 11))),
   .own (.read (.ok 1)),
   .own (.send 1)]

/-- What a tick of the first owner sends: its order is marked, and a new one takes its place. -/
def renewed (id : String) (price : Int) : Batch Value where
  cancelIds := [id]
  newOrders := [{ instrumentId := "i1", botId := "b1", side := .sell, limitPrice := .int price,
                  quantity := 1 }]

set_option maxRecDepth 4000 in
theorem isolated_between_read_and_send :
    let full := (start twoOwners Desk.beforeTick.memory).run firstOwner (sellFor "u") interleaved
    let alone := (start twoOwners Desk.beforeTick.memory).run firstOwner (sellFor "u")
      (Event.alone interleaved)
    (sellFor "u").ownerId? = some firstOwner.owner ∧ firstOwner.Divides twoOwners ∧
      (∀ e ∈ interleaved, e.Proper firstOwner) ∧ full.store.Apart ∧ alone.store.Apart ∧
      full.trace.batches = [renewed "o1" 10, renewed "sim-2" 11] ∧
      alone.trace.batches = [renewed "o1" 10, renewed "sim-1" 11] ∧
      (∃ ρ : Equiv.Perm String, (∀ id, ρ id ≠ id → ∃ n, id = MemoryStore.orderName n) ∧
        alone.trace.batches = full.trace.batches.map (·.rename ρ) ∧
        alone.trace.results = full.trace.results.map (Except.map (·.rename ρ)) ∧
        alone.trace.memory.tracker = full.trace.memory.tracker ∧
        alone.trace.memory.random = full.trace.memory.random ∧
        firstOwner.share alone.store = (firstOwner.share full.store).rename ρ) ∧
      (∀ e ∈ full.store.bots, e.2.ownerId? = some "u" ↔ firstOwner.hasBot e.1 = true) ∧
      (∀ b ∈ full.trace.batches,
        (∀ id ∈ b.cancelIds, (∃ o ∈ full.store.orders, o.id = id) ∧
          ∀ o ∈ full.store.orders, o.id = id → OwnedBy full.store "u" o.botId) ∧
        ∀ o ∈ b.newOrders, OwnedBy full.store "u" o.botId) ∧
      let whole := Tick.run (MemoryStore.access 0) (sellFor "u") (.ok 0) twoOwners Desk.beforeTick.memory
      let parted := (start twoOwners Desk.beforeTick.memory).run firstOwner (sellFor "u")
        [.own (.read (.ok 0)), .own (.send 0)]
      parted.store = whole.store ∧ parted.trace.results = [whole.result] := by
  intro full alone
  have hdivides : firstOwner.Divides twoOwners := by
    refine ⟨⟨by decide, by simp [twoOwners]⟩, ?_⟩
    intro e he
    rcases List.mem_cons.1 he with rfl | he
    · exact Or.inl ⟨rfl, rfl, by simp⟩
    · rw [List.mem_singleton.1 he]
      exact Or.inr ⟨by decide, rfl⟩
  have hproper : ∀ e ∈ interleaved, e.Proper firstOwner := by
    have hother : (sellFor "v").Avoids "u" := by
      simp [TickSetup.Avoids, sellFor]
    have hbot : firstOwner.Foreign { id := "b3", balance := .int 7, ownerId? := some "v" } :=
      ⟨by decide, rfl⟩
    simp [interleaved, Event.Proper, OwnEvent.For, OtherEvent.Beside, Seed.For, Seed.Beside, hbot]
    exact hother
  have hids : full.store.orders.map (·.id) = ["o1", "o2", "sim-1", "sim-2", "sim-3"] := rfl
  have hids' : alone.store.orders.map (·.id) = ["o1", "o2", "sim-1", "sim-2"] := rfl
  have hapart : full.store.Apart := by
    unfold MemoryStore.Apart
    rw [hids]
    decide
  have hapart' : alone.store.Apart := by
    unfold MemoryStore.Apart
    rw [hids']
    decide
  have h := isolated firstOwner (sellFor "u") twoOwners Desk.beforeTick.memory interleaved rfl hdivides
    hproper hapart hapart'
  have hparted := own_read_send firstOwner (sellFor "u") (start twoOwners Desk.beforeTick.memory) rfl (.ok 0) 0
  exact ⟨rfl, hdivides, hproper, hapart, hapart', rfl, rfl, h.1, h.2.1, h.2.2, hparted.1, hparted.2.2.1⟩

end Scene

end RuleTrader
