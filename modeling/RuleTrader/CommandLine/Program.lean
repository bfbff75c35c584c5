import RuleTrader.CommandLine.Arguments
import RuleTrader.CommandLine.EnvironmentFile
import RuleTrader.CommandLine.Watch
import RuleTrader.Logging

/-!
# The program

What the command line runs: one session on a durable store, with settings from the environment and
from an environment file, and with the rules of a file if one is named. The first thing that fails
decides. Once the store is open it is closed again whatever happens, and it is part of the report.
-/

namespace RuleTrader

/-- What the program finds when it is started. -/
structure Surroundings where
  environment : Table String String := []
  directory : Directory := {}
  now : Micros

/-- Why the program fails. -/
inductive ProgramFault where
  | variable (fault : VariableFault)
  | arguments (fault : ArgumentsFault)
  | settings (fault : SettingsFault)
  /-- A file that is named cannot be read or made. -/
  | path (fault : PathFault)
  /-- The file of the store cannot be opened or made. -/
  | storeNotOpened
  | storeNotRead
  | seeding (fault : ChangeFault)
  | session (fault : SessionFault)
  | interval (fault : NumberFault)
  deriving Repr

/-- A store and where it is kept. -/
structure KeptStore where
  path : String
  store : DurableStore

/-- What the program leaves. -/
structure ProgramReport where
  /-- The exit code, unless the program failed. -/
  exit : Except ProgramFault Nat
  /-- The session that ran, when it is shown. -/
  session? : Option (Session Int) := none
  /-- The store when it was closed, if it was opened. -/
  kept? : Option KeptStore := none
  notices : List Notice := []

namespace Program

/-! ## Preparations -/

/-- Everything that is settled before the store is opened. -/
structure Plan where
  arguments : Arguments
  config : Config
  rules? : Option String
  storePath : String
  /-- The working directory with the file of the log. -/
  directory : Directory

def environmentFile : String := ".env"

/-- Where the store is kept if nothing else is said. -/
def usualStorePath : String := "bot_fleet.sqlite3"

/-- The path of a store that is not kept in a file. -/
def unkeptPath : String := ":memory:"

/-- A text that is given and not empty. -/
def filled? (s? : Option String) : Option String := s?.filter (· ≠ "")

def loadEnvironment (s : Surroundings) : Except ProgramFault (Table String String) :=
  match s.directory.read environmentFile with
  | .error .nothingThere => .ok s.environment
  | .error fault => .error (.path fault)
  | .ok text =>
    match EnvironmentFile.load text s.environment with
    | (some fault, _) => .error (.variable fault)
    | (none, env) => .ok env

/-- Open the store at a path. A file of one byte counts as empty. -/
def openStore (d : Directory) (path : String) : Except ProgramFault DurableStore :=
  if path = unkeptPath then .ok {}
  else if Path.hasNul path then .error (.path .nulCharacter)
  else
    match d.spellOut path >>= d.fileAt? with
    | .error _ => .error .storeNotOpened
    | .ok text? =>
      if text?.any fun text => 1 < text.utf8ByteSize then .error .storeNotRead else .ok {}

/-- Settle what is to be run. -/
def plan (args : List String) (s : Surroundings) : Except ProgramFault Plan := do
  let env ← loadEnvironment s
  let a ← (Arguments.read args).mapError .arguments
  let (_, config) ← (Settings.ofEnvironment env).mapError .settings
  let (_, directory) ← (Logging.configureForEngine s.directory config (.ofText? a.logLevel?)
    (.ofText? a.logFile?)).mapError .path
  let rules? ← ((filled? a.rulesPath?).mapM directory.read).mapError .path
  let storePath := ((filled? a.storePath?).or (filled? config.storePath?)).getD usualStorePath
  return ⟨a, config, rules?, storePath, directory⟩

def owner? (a : Arguments) : Option String :=
  (filled? a.ownerId?).or (if a.seedDemo then some Demo.usualOwner else none)

/-! ## The run -/

def fleet (p : Plan) (store : DurableStore) (now : Micros) : Fleet DurableStore Int where
  schedule := { now := now }
  store := store
  pool := { config := p.config, random := .ofSeed (p.config.randomSeed?.getD 0) }

/-- The session that is asked for. -/
def request (p : Plan) : SessionRequest where
  name? := p.arguments.name?
  ownerId? := owner? p.arguments
  rules? := p.rules?.map fun text => .value (.text text)

def watch (p : Plan) (f : Fleet DurableStore Int) : Watch where
  fleet := f
  config := p.config
  maxTicks? := p.arguments.maxTicks?
  moving := p.arguments.seedDemo
  steps := .ofSeed (p.config.randomSeed?.getD 0)

/-- Fill the store, if that is asked for. -/
def seed (p : Plan) (store : DurableStore) : Except ProgramFault Unit × DurableStore :=
  if p.arguments.seedDemo then
    let (result, store) := Demo.seed store (owner? p.arguments)
    (result.mapError .seeding, store)
  else (.ok (), store)

/-- The report on a program that failed or gave up after the store was opened. -/
def stopped (p : Plan) (f : Fleet DurableStore Int) (exit : Except ProgramFault Nat)
    (more : List Notice) : ProgramReport where
  exit := exit
  kept? := some ⟨p.storePath, f.store⟩
  notices := f.notices ++ more

/-- The report on a program whose session is not made. Rules that cannot be read are reported. -/
def refused (p : Plan) (f : Fleet DurableStore Int) (fault : SessionFault) : ProgramReport :=
  match fault with
  | .rules (.number _) | .historySize _ | .start _ => stopped p f (.error (.session fault)) []
  | .rules fault =>
    stopped p f (.ok 2) [.ruleFileRefused (p.arguments.rulesPath?.getD "") fault.message]

/-- The report on a watch that is over. -/
def finished (p : Plan) (w : Watch) : ProgramReport where
  exit := .ok 0
  session? := w.session?
  kept? := some ⟨p.storePath, w.fleet.store⟩
  notices := w.fleet.notices

def start (p : Plan) (store : DurableStore) (now : Micros) : Except ProgramReport Watch :=
  match seed p store with
  | (.error fault, store) => .error (stopped p (fleet p store now) (.error fault) [])
  | (.ok (), store) =>
    match (fleet p store now).create (request p) with
    | (.error fault, f) => .error (refused p f fault)
    | (.ok _, f) =>
      match p.config.tickInterval.toFloat with
      | .error fault => .error (stopped p f (.error (.interval fault)) [])
      | .ok _ => .ok (watch p f)

/-- Settle what is to be run, open the store and start. -/
def begin (args : List String) (s : Surroundings) : Except ProgramReport (Plan × Watch) :=
  match plan args s with
  | .error fault => .error { exit := .error fault }
  | .ok p =>
    match openStore p.directory p.storePath with
    | .error fault => .error { exit := .error fault }
    | .ok store => (p, ·) <$> start p store s.now

/-- Run the program until the ticks that are asked for are run. -/
def run (args : List String) (s : Surroundings) : ProgramReport :=
  match begin args s with
  | .error report => report
  | .ok (p, w) => finished p (Watch.looks w.enough w).finish

/-- Whether the program writes anything: what it ran, or the help that was asked for. -/
def writes (r : ProgramReport) : Bool :=
  match r.exit with
  | .ok code => code == 0
  | .error (.arguments .helpAsked) => true
  | .error _ => false

end Program

end RuleTrader
