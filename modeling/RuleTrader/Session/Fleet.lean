import RuleTrader.Session.Pool
import RuleTrader.Session.Schedule

/-!
# A fleet in time

A fleet is a pool of sessions at work on one store, and a caller who starts and stops them and asks
about them. Time stands still while the caller acts, and moves when the caller waits: then the schedule
is worked off, turn by turn, until the caller's own turn comes. Reading the store and sending to it may
take time, and then other sessions act in between.

Nothing goes on at once. A message takes one round for every hand that it passes through, and the
numbers of rounds below are the numbers of these hands. They decide which of two things comes first that
happen at one time.
-/

namespace RuleTrader

/-- A tick under way. -/
structure Flight where
  /-- The place of its session in the pool. -/
  index : Nat
  since : Micros
  /-- Whether the loop of the session runs it; otherwise the caller does. -/
  byLoop : Bool
  deriving DecidableEq, Repr

/-- What can have a turn. -/
inductive Errand (α : Type) where
  /-- The loop of the session at a place goes on. -/
  | goOn (index : Nat)
  /-- The loop of the session at a place, which rests, begins to listen for the wish to stop. -/
  | settle (index : Nat)
  | fetch (flight : Flight)
  | send (flight : Flight) (decision : TickDecision α)
  | caller
  /-- The caller waits for the session at a place no longer. -/
  | giveUp (index : Nat)
  /-- A helper of the caller begins to wait for the session at a place, no longer than a span. -/
  | ask (index : Nat) (span? : Option Micros)
  /-- A helper waits for the session at a place no longer. -/
  | quit (index : Nat)
  /-- A helper reports back to the caller. -/
  | join
  deriving Repr

namespace Errand

variable {α : Type}

/-- Whether an errand lets the loop at a place go on. -/
def isGoOn (i : Nat) : Errand α → Bool
  | .goOn j => j == i
  | _ => false

/-- Whether an errand is for a loop that begins to listen. -/
def isSettle (i : Nat) : Errand α → Bool
  | .settle j => j == i
  | _ => false

/-- Whether an errand ends the waiting for the session at a place. -/
def endsWaiting (i : Nat) : Errand α → Bool
  | .giveUp j | .quit j => j == i
  | _ => false

end Errand

/-- A call that is made when the loop at a place is over. -/
structure Listener (α : Type) where
  index : Nat
  call : Call (Errand α)
  deriving Repr

/-- A pool of sessions at work on a store. -/
structure Fleet (σ α : Type) where
  schedule : Schedule (Errand α)
  store : σ
  pool : SessionPool α
  /-- The times that reading the store and sending to it take. -/
  fetchSpan : Micros := 0
  sendSpan : Micros := 0
  listeners : List (Listener α) := []
  /-- The number of helpers that have not reported back. -/
  helpers : Nat := 0
  /-- The places of the sessions that were waited for in vain. -/
  late : List Nat := []
  notices : List Notice := []

namespace Fleet

variable {σ α : Type}

def now (f : Fleet σ α) : Micros := f.schedule.now

def report (f : Fleet σ α) (ns : List Notice) : Fleet σ α := { f with notices := f.notices ++ ns }

def reschedule (f : Fleet σ α) (g : Schedule (Errand α) → Schedule (Errand α)) : Fleet σ α :=
  { f with schedule := g f.schedule }

def push (f : Fleet σ α) (rounds : Nat) (errand : Errand α) : Fleet σ α :=
  f.reschedule (·.push rounds errand)

def setAlarm (f : Fleet σ α) (span : Micros) (rounds : Nat) (errand : Errand α) : Fleet σ α :=
  f.reschedule (·.setAlarm span rounds errand)

def session? (f : Fleet σ α) (i : Nat) : Option (Session α) := f.pool.sessions[i]?

/-- Where the loop of the session at a place is. -/
def loopAt? (f : Fleet σ α) (i : Nat) : Option LoopStage := (f.session? i).map (·.loop)

def setSession (f : Fleet σ α) (i : Nat) (s : Session α) : Fleet σ α :=
  { f with pool := f.pool.update i fun _ => s }

/-! ## Loops -/

/-- Whoever listens for the end of the loop at a place is told. -/
def tellListeners (f : Fleet σ α) (i : Nat) : Fleet σ α :=
  let told := f.listeners.filter (·.index == i)
  { f with
    listeners := f.listeners.filter (·.index != i)
    schedule := (f.schedule.dropAlarms (Errand.endsWaiting i)).pushAll (told.map (·.call)) }

/-- The loop of a session at a place is over. -/
def endLoop (f : Fleet σ α) (i : Nat) (s : Session α) (fault? : Option NumberFault) : Fleet σ α :=
  ((f.setSession i (s.finish f.now fault?)).report [s.finishNotice]).tellListeners i

/-- The loop at a place rests for a span. After a rest of no time it goes on by itself. -/
def rest (f : Fleet σ α) (i : Nat) (span : Micros) : Fleet σ α :=
  if span ≤ 0 then f.push 2 (.goOn i) else (f.setAlarm span 4 (.goOn i)).push 0 (.settle i)

/-- The loop of a session at a place has run a tick. -/
def afterTick (f : Fleet σ α) (i : Nat) (s : Session α) : Fleet σ α :=
  match s.afterTick with
  | .error fault? => f.endLoop i s fault?
  | .ok span => (f.setSession i s).rest i span

def endTick (f : Fleet σ α) (flight : Flight) (failure? : Option TickFailure) : Fleet σ α :=
  match f.session? flight.index with
  | none => f
  | some s =>
    let s := s.recordTick flight.since f.now failure?
    let f := if failure?.isSome then f.report [.tickFailed s.id] else f
    if flight.byLoop then f.afterTick flight.index s
    else (f.setSession flight.index s).reschedule (·.pushFirst .caller)

/-- The loop at a place, which rests, begins to listen; if the wish to stop is there already, the rest
is over. -/
def settle (f : Fleet σ α) (i : Nat) : Fleet σ α :=
  if (f.session? i).any (·.isStopping) then
    (f.reschedule (·.dropAlarms (Errand.isGoOn i))).push 1 (.goOn i)
  else f

/-- The rest of the loop at a place is cut short, if the loop listens. -/
def cutRest (f : Fleet σ α) (i : Nat) : Fleet σ α :=
  if f.schedule.isQueued (Errand.isSettle i) then f
  else if f.schedule.isSet (Errand.isGoOn i) then
    (f.reschedule (·.dropAlarms (Errand.isGoOn i))).push 2 (.goOn i)
  else f

/-- The rests of the loops at several places are cut short in turn. -/
def cutRests (f : Fleet σ α) (places : List Nat) : Fleet σ α := places.foldl cutRest f

/-! ## Helpers -/

/-- The caller gives up on the session at a place, unless the caller was told of its end. -/
def giveUp (f : Fleet σ α) (i : Nat) : Fleet σ α :=
  if f.listeners.any (·.index == i) then
    { f with listeners := f.listeners.filter (·.index != i), late := [i] }.push 1 .caller
  else f

/-- A helper gives up on the session at a place, unless the helper was told of its end. -/
def quit (f : Fleet σ α) (i : Nat) : Fleet σ α :=
  if f.listeners.any (·.index == i) then
    { f with listeners := f.listeners.filter (·.index != i), late := f.late ++ [i] }.push 2 .join
  else f

def listen (f : Fleet σ α) (i rounds : Nat) (errand : Errand α) : Fleet σ α :=
  { f with listeners := f.listeners ++ [⟨i, ⟨rounds, errand⟩⟩] }

/-- A helper begins to wait for the session at a place. -/
def ask (f : Fleet σ α) (i : Nat) (span? : Option Micros) : Fleet σ α :=
  match f.loopAt? i, span? with
  | some .underWay, none => f.listen i 2 .join
  | some .underWay, some span =>
    if 0 < span then (f.listen i 3 .join).setAlarm span 1 (.quit i)
    else { f with late := f.late ++ [i] }.push 2 .join
  | some (.ended _), some span => f.push (if 0 < span then 2 else 0) .join
  | _, _ => f.push 0 .join

/-- A helper reports back; after the last one the caller goes on. -/
def join (f : Fleet σ α) : Fleet σ α :=
  let f := { f with helpers := f.helpers - 1 }
  if f.helpers = 0 then f.push 0 .caller else f

/-! ## Ticks -/

variable [Amount α] [Store σ α]

def send (f : Fleet σ α) (flight : Flight) (d : TickDecision α) : Fleet σ α :=
  match f.session? flight.index with
  | none => f
  | some s =>
    let (result, store, notices) :=
      Tick.send (Store.access f.now) (s.setup f.pool.activeOwners) d f.store
    let f := { f with store }.report notices
    match result with
    | .ok _ => f.endTick flight none
    | .error failure => f.endTick flight (some failure)

def decide (f : Fleet σ α) (flight : Flight) (s : Session α) (snapshot : Snapshot α) : Fleet σ α :=
  let outcome := Tick.decide (s.setup f.pool.activeOwners) (.ok f.now) snapshot s.memory
  let f := (f.setSession flight.index { s with memory := outcome.memory }).report outcome.notices
  match outcome.result with
  | .error fault => f.endTick flight (some (.decision fault))
  | .ok d =>
    if d.hasBatch && 0 < f.sendSpan then f.setAlarm f.sendSpan 1 (.send flight d)
    else f.send flight d

def fetch (f : Fleet σ α) (flight : Flight) : Fleet σ α :=
  match f.session? flight.index with
  | none => f
  | some s =>
    match (Store.access f.now).fetch f.store with
    | (.error fault, store) => { f with store }.endTick flight (some (.store fault))
    | (.ok snapshot, store) => { f with store }.decide flight s snapshot

def beginTick (f : Fleet σ α) (flight : Flight) : Fleet σ α :=
  if 0 < f.fetchSpan then f.setAlarm f.fetchSpan 1 (.fetch flight) else f.fetch flight

/-- The loop of the session at a place goes on to its next tick, or ends. -/
def goOn (f : Fleet σ α) (i : Nat) : Fleet σ α :=
  match f.session? i with
  | none => f
  | some s => if s.isStopping then f.endLoop i s none else f.beginTick ⟨i, f.now, true⟩

/-! ## Time -/

def work (f : Fleet σ α) : Errand α → Fleet σ α
  | .goOn i => f.goOn i
  | .settle i => f.settle i
  | .fetch flight => f.fetch flight
  | .send flight d => f.send flight d
  | .caller => f
  | .giveUp i => f.giveUp i
  | .ask i span? => f.ask i span?
  | .quit i => f.quit i
  | .join => f.join

/-- Work the schedule off until it is the caller's turn. -/
def workOff : Nat → Fleet σ α → Fleet σ α
  | 0, f => f
  | fuel + 1, f =>
    match f.schedule.turn? with
    | none => f
    | some (none, schedule) => workOff fuel { f with schedule }
    | some (some .caller, schedule) => { f with schedule }
    | some (some errand, schedule) => workOff fuel ({ f with schedule }.work errand)

/-- The turns that a session can have in one microsecond. -/
def busiest : Nat := 16

/-- The turns that a span of time can bring: in each microsecond, those of every session. -/
def fuelFor (f : Fleet σ α) (span : Micros) : Nat :=
  busiest * (f.schedule.queue.length + f.schedule.alarms.length + f.pool.sessions.length + 1)
    * (span.toNat + 2)

/-- The span after which every tick and every rest that is under way has ended. -/
def horizon (f : Fleet σ α) : Micros :=
  f.schedule.alarms.foldl (fun t a => max t a.due) f.now - f.now + f.fetchSpan + f.sendSpan

/-- Wait for the caller's turn, which comes within a span, or at the end of what is under way. -/
def await (f : Fleet σ α) (span? : Option Micros) : Fleet σ α :=
  f.workOff (f.fuelFor (span?.getD f.horizon))

def sleep (f : Fleet σ α) (span : Micros) : Fleet σ α :=
  if span ≤ 0 then (f.push 0 .caller).await (some 0)
  else (f.setAlarm span 1 .caller).await (some span)

/-- Wait for a wish of somebody else, which does not come within the span. -/
def pause (f : Fleet σ α) (span : Micros) : Fleet σ α :=
  (f.setAlarm span 4 .caller).await (some span)

/-! ## Sessions -/

/-- Make a session that the manager does not look after. -/
def add (f : Fleet σ α) (id? : Option String) (r : SessionRequest) :
    Except SessionFault (Session α) × Fleet σ α :=
  let (result, pool, notices) := f.pool.add id? r f.now
  (result, { f with pool }.report notices)

/-- Take over a pool with a session made or reused; the loop of a new session, which is the last one,
begins. -/
def takeOver (f : Fleet σ α) (pool : SessionPool α) (notices : List Notice) : Fleet σ α :=
  let f' := { f with pool }.report notices
  if f.pool.sessions.length < pool.sessions.length then
    f'.push 0 (.goOn (pool.sessions.length - 1))
  else f'

def create (f : Fleet σ α) (r : SessionRequest) : Except SessionFault (Session α) × Fleet σ α :=
  let (result, pool, notices) := f.pool.create r f.now
  (result, f.takeOver pool notices)

def reuse (f : Fleet σ α) (r : SessionRequest) : Except SessionFault (Session α) × Fleet σ α :=
  let (result, pool, notices) := f.pool.reuse r f.now
  (result, f.takeOver pool notices)

def startAt (f : Fleet σ α) (i : Nat) : Except StartFault Unit × Fleet σ α :=
  let begins := (f.session? i).any (·.loop == .absent)
  let (result, pool, notices) := f.pool.startAt i f.now
  let f := { f with pool }.report notices
  (result, if begins && result.isOk then f.push 0 (.goOn i) else f)

def placesOf (f : Fleet σ α) (chosen : Session α → Bool) : List Nat :=
  (List.range f.pool.sessions.length).filter fun i => (f.session? i).any chosen

def stopWhere (f : Fleet σ α) (chosen : Session α → Bool) : Fleet σ α :=
  let (pool, notices) := f.pool.stopWhere chosen f.now
  ({ f with pool }.report notices).cutRests
    (f.placesOf fun s => chosen s && s.isRunning)

def stopAt (f : Fleet σ α) (i : Nat) : Fleet σ α :=
  match f.session? i with
  | none => f
  | some s =>
    let f' := (f.setSession i (s.stop f.now)).report s.stopNotices
    if s.isRunning then f'.cutRest i else f'

def stop (f : Fleet σ α) (id : String) : Fleet σ α :=
  f.stopWhere fun s => s.managed && s.id == id

/-- Ask the managed sessions of an owner to stop, and give those that were asked. -/
def stopOwner (f : Fleet σ α) (ownerId? : Option String) : List (Session α) × Fleet σ α :=
  let chosen := SessionPool.isOwnedActive ownerId?
  ((f.pool.sessions.filter chosen).map (·.stop f.now), f.stopWhere chosen)

/-- Run one tick of the session at a place, outside its loop, and wait for its end. -/
def runOnce (f : Fleet σ α) (i : Nat) : Fleet σ α :=
  if (f.session? i).isSome then
    (f.beginTick ⟨i, f.now, false⟩).await (some (f.fetchSpan + f.sendSpan))
  else f

/-! ## Waiting for the end -/

/-- Wait until the loop at a place, which is under way, is over. -/
def awaitEnd (f : Fleet σ α) (i : Nat) : Option Micros → Fleet σ α
  | none => (f.listen i 1 .caller).await none
  | some span =>
    if 0 < span then ((f.listen i 2 .caller).setAlarm span 1 (.giveUp i)).await (some span)
    else ({ f with late := [i] }.push 1 .caller).await (some 0)

/-- What became of the waiting for the session at a place. -/
def outcomeAt (f : Fleet σ α) (i : Nat) : Except StopFailure Unit :=
  if i ∈ f.late then .error .late
  else
    match (f.loopAt? i).bind (·.fault?) with
    | some fault => .error (.number fault)
    | none => .ok ()

/-- Wait until the session at a place has stopped, no longer than a span if one is given. A session
without a loop is not waited for. -/
def waitStopped (f : Fleet σ α) (i : Nat) (span? : Option Micros) :
    Except StopFailure Unit × Fleet σ α :=
  let f := { f with late := [] }
  let f :=
    match f.loopAt? i, span? with
    | some .underWay, span? => f.awaitEnd i span?
    | some (.ended _), some span => if 0 < span then (f.push 1 .caller).await (some 0) else f
    | _, _ => f
  (f.outcomeAt i, f)

/-- What to report about the managed session at a place after it was waited for. -/
def lateNotice? (f : Fleet σ α) (i : Nat) : Option Notice :=
  match f.outcomeAt i, f.session? i with
  | .error reason, some s => some (.stopFailed s.id reason)
  | _, _ => none

/-- Ask every managed session to stop, and let a helper wait for each, no longer than a span if one is
given. Those that have not stopped are reported. -/
def shutDown (f : Fleet σ α) (span? : Option Micros) : Fleet σ α :=
  let f := f.stopWhere (·.managed)
  let places := f.placesOf (·.managed)
  if places.isEmpty then f
  else
    let f := places.foldl (fun f i => f.push 0 (.ask i span?))
      { f with late := [], helpers := places.length }
    let f := f.await span?
    f.report (places.filterMap f.lateNotice?)

end Fleet

end RuleTrader
