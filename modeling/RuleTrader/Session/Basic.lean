import RuleTrader.Market.Seconds
import RuleTrader.Text.Character
import RuleTrader.Trading.Run

/-!
# Sessions

A session runs ticks in a loop, with a price history and a random source of its own. It starts, runs,
is asked to stop, and has stopped; a session that is asked to stop before it started has stopped at
once. The loop looks at the status before each tick and after it: asking a session to stop never
interrupts a tick, it only keeps the next one from beginning.
-/

namespace RuleTrader

/-- Where a session is in its life. -/
inductive SessionStatus where
  | starting
  | running
  | stopping
  | stopped
  deriving DecidableEq, Repr

def SessionStatus.name : SessionStatus → String
  | .starting => "starting"
  | .running => "running"
  | .stopping => "stopping"
  | .stopped => "stopped"

/-- Where the loop of a session is. -/
inductive LoopStage where
  /-- There is no loop yet. -/
  | absent
  | underWay
  /-- The loop is over, by a fault if there is one. -/
  | ended (fault? : Option NumberFault)
  deriving DecidableEq, Repr

namespace LoopStage

/-- Whether a loop is over. -/
def isEnded : LoopStage → Bool
  | .ended _ => true
  | .absent | .underWay => false

def fault? : LoopStage → Option NumberFault
  | .ended fault? => fault?
  | .absent | .underWay => none

end LoopStage

/-- A session. -/
structure Session (α : Type) where
  id : String
  name : String
  ownerId? : Option String
  rules : List Rule
  config : Config
  managed : Bool
  memory : TickMemory α
  createdAt : Micros
  status : SessionStatus := .starting
  startedAt? : Option Micros := none
  stoppedAt? : Option Micros := none
  lastTickAt? : Option Micros := none
  lastTickSpan? : Option Micros := none
  ticks : Nat := 0
  lastFailure? : Option TickFailure := none
  loop : LoopStage := .absent
  deriving Repr

/-- Why a session cannot start. -/
inductive StartFault where
  | wrongStatus (session : String) (status : SessionStatus)
  | nowhereToRun
  deriving DecidableEq, Repr

def StartFault.message : StartFault → String
  | .wrongStatus session status => s!"Session {session} cannot start from status " ++ status.name
  | .nowhereToRun => "BotSession.start() requires a running event loop"

namespace Config

/-- A span that never ends. -/
def endless : Micros := 1000000000000000000

/-- A span in milliseconds as microseconds; a positive span is at least one microsecond. -/
def spanOf (ms : Number) : Micros :=
  if ms.le 0 then 0
  else
    match ms with
    | .int n => n * 1000
    | .float x => if Binary64.isFinite x then max 1 (Seconds.toMicros (x / 1000)) else endless

/-- A span in milliseconds as microseconds, refused when binary64 has no number for it. -/
def checkedSpan (ms : Number) : Except NumberFault Micros :=
  (fun _ => spanOf ms) <$> ms.toFloat

/-- How long a loop rests after a tick that took some time: to the end of the interval, and never less
than the least rest. An interval that is undefined leaves the least rest. -/
def restAfter (c : Config) (span : Micros) : Except NumberFault Micros := do
  let interval ← checkedSpan c.tickInterval
  let least ← checkedSpan c.minRest
  return if c.tickInterval.isNaN then least else max least (interval - span)

end Config

namespace Session

def usualName : String := "Unnamed session"

/-- The name of a session: what is asked for without the blanks around it, or the usual name. -/
def nameOf (name? : Option String) : String :=
  let name := Text.strip (name?.getD "")
  if name.isEmpty then usualName else name

variable {α : Type}

/-- Whether a session has not been asked to stop. -/
def isActive (s : Session α) : Bool :=
  s.status == .starting || s.status == .running

/-- Whether a session has started and has not been asked to stop. -/
def isRunning (s : Session α) : Bool := s.status == .running

/-- Whether a session is asked to stop and has not stopped yet. -/
def isStopping (s : Session α) : Bool := s.status == .stopping

/-- Whether a session binds its bots to its own rules. -/
def bindsRules (s : Session α) : Bool := !s.rules.isEmpty

/-- Which bots the ticks of a session are for, by which rules. A managed session without an owner is
for the bots of the owners with a running session. -/
def setup (s : Session α) (activeOwners : List String) : TickSetup where
  session := s.id
  config := s.config
  rules? := if s.bindsRules then some s.rules else none
  ownerId? := s.ownerId?
  activeOwners? := if s.managed then some activeOwners else none

/-! ## From outside -/

/-- Start a session. One that has a loop is left as it is. -/
def start (s : Session α) (canRun : Bool) (now : Micros) : Except StartFault (Session α) :=
  if s.loop ≠ .absent then .ok s
  else if s.status ≠ .starting then .error (.wrongStatus s.id s.status)
  else if !canRun then .error .nowhereToRun
  else .ok { s with status := .running, startedAt? := some now, loop := .underWay }

def stop (s : Session α) (now : Micros) : Session α :=
  if !s.isActive then s
  else if s.loop = .absent then { s with status := .stopped, stoppedAt? := some now }
  else { s with status := .stopping }

def startNotice (s : Session α) : Notice :=
  .sessionStarted s.id s.name s.ownerId? s.rules.length

/-- What to report when a session is asked to stop. -/
def stopNotices (s : Session α) : List Notice :=
  if !s.isActive then []
  else if s.loop = .absent then [.sessionNeverStarted s.id]
  else [.sessionStopping s.id]

/-! ## The loop -/

/-- The loop is over. -/
def finish (s : Session α) (now : Micros) (fault? : Option NumberFault) : Session α :=
  { s with status := .stopped, stoppedAt? := some now, loop := .ended fault? }

/-- What to report when the loop is over. -/
def finishNotice (s : Session α) : Notice := .sessionStopped s.id s.ticks

def recordTick (s : Session α) (since now : Micros) (failure? : Option TickFailure) : Session α :=
  { s with
    lastFailure? := failure?
    lastTickSpan? := some (now - since)
    lastTickAt? := some now
    ticks := s.ticks + 1 }

def restSpan (s : Session α) : Except NumberFault Micros :=
  s.config.restAfter (s.lastTickSpan?.getD 0)

/-- How the loop goes on after a tick: it rests for a span, or else it is over, by a fault if there is
no such span. -/
def afterTick (s : Session α) : Except (Option NumberFault) Micros :=
  if s.isStopping then .error none else s.restSpan.mapError some

end Session

end RuleTrader
