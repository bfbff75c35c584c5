import RuleTrader.Text.Capital
import RuleTrader.Value

/-!
# Configuration

The settings of a fleet, as they are given and as the engine uses them. Settings come by name, or from
the variables of an environment, and are accepted only if the four numbers among them make sense. They
are checked in their order, and the first one that is refused decides.
-/

namespace RuleTrader

/-- The settings as they are given. -/
structure Settings where
  tickInterval : Value := .int 2000
  minRest : Value := .int 250
  maxOrders : Value := .int 500
  historySize : Value := .int 200
  randomSeed : Value := .null
  storePath : Value := .null
  logLevel : Value := .text "INFO"
  logFile : Value := .null
  deriving Repr

/-- Why settings are refused. -/
inductive SettingsFault where
  | unknownName
  | number (fault : NumberFault)
  | tickInterval
  | minRest
  | maxOrders
  | historySize
  deriving DecidableEq, Repr

def SettingsFault.message : SettingsFault → String
  | .unknownName => ""
  | .number fault => fault.message
  | .tickInterval => "tick_interval_ms must be positive"
  | .minRest => "min_rest_delay_ms must be >= 0"
  | .maxOrders => "max_orders_per_batch must be positive"
  | .historySize => "price_history_size must be positive"

/-- The settings as the engine uses them. -/
structure Config where
  /-- The time from one tick to the next, in milliseconds. -/
  tickInterval : Number := 2000
  /-- The least rest after a tick, in milliseconds. -/
  minRest : Number := 250
  /-- The most orders that one batch inserts. -/
  maxOrders : Number := 500
  /-- The most prices that are remembered of an instrument. -/
  historySize : Number := 200
  randomSeed? : Option Int := none
  storePath? : Option String := none
  logLevel : Value := .text "INFO"
  logFile : Value := .null
  deriving Repr

namespace Settings

/-! ## By name -/

def set (s : Settings) (name : String) (v : Value) : Except SettingsFault Settings :=
  match name with
  | "tick_interval_ms" => .ok { s with tickInterval := v }
  | "min_rest_delay_ms" => .ok { s with minRest := v }
  | "max_orders_per_batch" => .ok { s with maxOrders := v }
  | "price_history_size" => .ok { s with historySize := v }
  | "random_seed" => .ok { s with randomSeed := v }
  | "db_path" => .ok { s with storePath := v }
  | "log_level" => .ok { s with logLevel := v }
  | "log_file" => .ok { s with logFile := v }
  | _ => .error .unknownName

def setAll (s : Settings) : List (String × Value) → Except SettingsFault Settings
  | [] => .ok s
  | (name, v) :: rest => do (← s.set name v).setAll rest

/-! ## Checks -/

def numberOf (v : Value) : Except SettingsFault Number :=
  match v.asNumber? with
  | some x => .ok x
  | none => .error (.number .notANumber)

def positive (v : Value) (fault : SettingsFault) : Except SettingsFault Number := do
  let x ← numberOf v
  if x.le 0 then throw fault else return x

def notNegative (v : Value) (fault : SettingsFault) : Except SettingsFault Number := do
  let x ← numberOf v
  if x.lt 0 then throw fault else return x

def text? : Value → Option String
  | .text s => some s
  | _ => none

def seed? : Value → Option Int
  | .number (.int n) => some n
  | .bool b => some (if b then 1 else 0)
  | _ => none

/-- The configuration that the settings give. -/
def check (s : Settings) : Except SettingsFault Config := do
  let tickInterval ← positive s.tickInterval .tickInterval
  let minRest ← notNegative s.minRest .minRest
  let maxOrders ← positive s.maxOrders .maxOrders
  let historySize ← positive s.historySize .historySize
  return { tickInterval, minRest, maxOrders, historySize
           randomSeed? := seed? s.randomSeed
           storePath? := text? s.storePath
           logLevel := s.logLevel
           logFile := s.logFile }

/-- The settings of several names, the others as usual, if they are accepted. -/
def ofFields (fields : List (String × Value)) : Except SettingsFault (Settings × Config) := do
  let s ← setAll {} fields
  return (s, ← s.check)

/-! ## From an environment -/

/-- A variable that is set to something. -/
def given? (env : Table String String) (name : String) : Option String :=
  match env.get? name with
  | some "" => none
  | other => other

def intVariable (env : Table String String) (name : String) (usual : Value) :
    Except SettingsFault Value :=
  match given? env name with
  | none => .ok usual
  | some text => (Number.readInt text).mapError .number |>.map .int

def optionalIntVariable (env : Table String String) (name : String) : Except SettingsFault Value :=
  match env.get? name with
  | none => .ok .null
  | some text =>
    if (Text.strip text).isEmpty then .ok .null
    else (Number.readInt text).mapError .number |>.map .int

/-- A text from a variable, without the blanks around it; null when nothing is left. -/
def textVariable (env : Table String String) (name : String) : Value :=
  let text := Text.strip ((given? env name).getD "")
  if text.isEmpty then .null else .text text

/-- The settings that an environment gives, if they are accepted. -/
def ofEnvironment (env : Table String String) : Except SettingsFault (Settings × Config) := do
  let usual : Settings := {}
  let s : Settings := {
    tickInterval := ← intVariable env "BOT_TICK_INTERVAL_MS" usual.tickInterval
    minRest := ← intVariable env "BOT_MIN_REST_DELAY_MS" usual.minRest
    maxOrders := ← intVariable env "BOT_MAX_ORDERS_PER_BATCH" usual.maxOrders
    historySize := ← intVariable env "BOT_PRICE_HISTORY_SIZE" usual.historySize
    randomSeed := ← optionalIntVariable env "BOT_RANDOM_SEED"
    storePath := textVariable env "BOT_DB_PATH"
    logLevel := .text (Text.upperCase (Text.strip ((given? env "BOT_LOG_LEVEL").getD "INFO")))
    logFile := textVariable env "BOT_LOG_FILE" }
  return (s, ← s.check)

end Settings

namespace Config

def capacity (c : Config) : Except NumberFault Nat :=
  Int.toNat <$> c.historySize.truncate

end Config

end RuleTrader
