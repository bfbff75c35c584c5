import RuleTrader.Session.Basic

/-!
# The pool of sessions

All sessions that were made, in their order. A manager looks after most of them: it makes them, finds
them by name or owner, and asks them to stop. A session stays in the pool when it has stopped. Every
session takes a name, also one that cannot be started and is then dropped.
-/

namespace RuleTrader

/-- What a session is asked to be. -/
structure SessionRequest where
  name? : Option String := none
  ownerId? : Option String := none
  rules? : Option RuleDefinition := none

/-- Why a session is not made. -/
inductive SessionFault where
  | rules (fault : RuleSetFault)
  /-- The size of the price history is no integer. -/
  | historySize (fault : NumberFault)
  | start (fault : StartFault)
  deriving Repr

/-- The sessions that were made, and what new ones are made of. -/
structure SessionPool (α : Type) where
  config : Config := {}
  random : RandomSource
  canRun : Bool := true
  sessions : List (Session α) := []
  named : Nat := 0
  deriving Repr

namespace SessionPool

variable {α : Type}

/-! ## Looking up -/

def managed (p : SessionPool α) : List (Session α) := p.sessions.filter (·.managed)

def managedIndex? (p : SessionPool α) (id : String) : Option Nat :=
  p.sessions.findIdx? fun s => s.managed && s.id == id

/-- The managed session of a name. -/
def get? (p : SessionPool α) (id : String) : Option (Session α) :=
  p.managed.find? (·.id == id)

/-- The place of the last session of a name that the manager does not look after. -/
def looseIndex? (p : SessionPool α) (id : String) : Option Nat :=
  (p.sessions.reverse.findIdx? fun s => !s.managed && s.id == id).map fun k =>
    p.sessions.length - 1 - k

/-- The place of the session of a name; one that the manager does not look after goes before one that
it does. -/
def index? (p : SessionPool α) (id : String) : Option Nat :=
  (p.looseIndex? id).or (p.managedIndex? id)

/-- The owners that have a running session, each once. -/
def activeOwners (p : SessionPool α) : List String :=
  ((p.managed.filter (·.isRunning)).filterMap (·.ownerId?)).eraseDups

/-- Change the session at a place. -/
def update (p : SessionPool α) (i : Nat) (f : Session α → Session α) : SessionPool α :=
  { p with sessions := p.sessions.modify i f }

/-! ## Making sessions -/

/-- The name of the session that is named as the `n`-th. -/
def sessionName (n : Nat) : String := s!"session-{n}"

/-- Give out a name, unless one is given. -/
def nameSession (p : SessionPool α) (id? : Option String) : String × SessionPool α :=
  match id?.filter (· ≠ "") with
  | some id => (id, p)
  | none => (sessionName (p.named + 1), { p with named := p.named + 1 })

/-- The rules that are asked for, if they are usable, and what to report about them. -/
def readRules (rules? : Option RuleDefinition) :
    Except RuleSetFault (List Rule) × List Notice :=
  match rules? with
  | none => (.ok [], [])
  | some definition =>
    let reading := RuleSet.readAll definition
    (do
      let rules ← reading.rules
      let _ ← (Rule.indicatorKeys rules).mapError .number
      return rules, reading.notices)

/-- A session that has not been started. -/
def build (p : SessionPool α) (id : String) (r : SessionRequest) (rules : List Rule) (managed : Bool)
    (now : Micros) : Except NumberFault (Session α) := do
  let capacity ← p.config.capacity
  return {
    id := id
    name := Session.nameOf r.name?
    ownerId? := r.ownerId?
    rules := rules
    config := p.config
    managed := managed
    memory := ⟨{ capacity := capacity }, p.random⟩
    createdAt := now }

/-- Make a session that the manager does not look after, and do not start it. -/
def add (p : SessionPool α) (id? : Option String) (r : SessionRequest) (now : Micros) :
    Except SessionFault (Session α) × SessionPool α × List Notice :=
  let (rules, notices) := readRules r.rules?
  match rules with
  | .error fault => (.error (.rules fault), p, notices)
  | .ok rules =>
    let (id, p) := p.nameSession id?
    match p.build id r rules false now with
    | .error fault => (.error (.historySize fault), p, notices)
    | .ok s => (.ok s, { p with sessions := p.sessions ++ [s] }, notices)

def launch (p : SessionPool α) (id : String) (r : SessionRequest) (rules : List Rule)
    (now : Micros) : Except SessionFault (Session α) := do
  let s ← (p.build id r rules true now).mapError .historySize
  (s.start p.canRun now).mapError .start

def create (p : SessionPool α) (r : SessionRequest) (now : Micros) :
    Except SessionFault (Session α) × SessionPool α × List Notice :=
  let (rules, notices) := readRules r.rules?
  match rules with
  | .error fault => (.error (.rules fault), p, notices)
  | .ok rules =>
    let (id, p) := p.nameSession none
    match p.launch id r rules now with
    | .error fault => (.error fault, p, notices)
    | .ok s => (.ok s, { p with sessions := p.sessions ++ [s] }, notices ++ [s.startNotice])

/-- The managed session of an owner that has not stopped. -/
def live? (p : SessionPool α) (ownerId? : Option String) : Option (Session α) :=
  p.managed.find? fun s => s.ownerId? == ownerId? && s.status != .stopped

/-- The managed session of an owner that has not stopped, or else a new one. -/
def reuse (p : SessionPool α) (r : SessionRequest) (now : Micros) :
    Except SessionFault (Session α) × SessionPool α × List Notice :=
  match p.live? r.ownerId? with
  | some s => (.ok s, p, [.sessionReused s.id (Notice.shown r.ownerId?)])
  | none => p.create r now

/-! ## Starting and stopping -/

def startAt (p : SessionPool α) (i : Nat) (now : Micros) :
    Except StartFault Unit × SessionPool α × List Notice :=
  match p.sessions[i]? with
  | none => (.ok (), p, [])
  | some s =>
    match s.start p.canRun now with
    | .error fault => (.error fault, p, [])
    | .ok s' => (.ok (), p.update i fun _ => s', if s.loop = .absent then [s'.startNotice] else [])

def stopWhere (p : SessionPool α) (chosen : Session α → Bool) (now : Micros) :
    SessionPool α × List Notice :=
  ({ p with sessions := p.sessions.map fun s => if chosen s then s.stop now else s },
    (p.sessions.filter chosen).flatMap (·.stopNotices))

/-- Whether a session is a managed session of an owner that has not been asked to stop. -/
def isOwnedActive (ownerId? : Option String) (s : Session α) : Bool :=
  s.managed && s.ownerId? == ownerId? && s.isActive

end SessionPool

end RuleTrader
