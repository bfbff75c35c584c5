import RuleTrader.CommandLine.Program
import RuleTrader.Session.Summary
import Std.Time.DateTime.Timestamp

/-!
# The command line

The outer layer: it gathers the environment and the files, lets the program run in real time, and
writes what it reports. The store lives as long as the program runs.
-/

namespace RuleTrader.Main

def variableNames : List String :=
  ["BOT_TICK_INTERVAL_MS", "BOT_MIN_REST_DELAY_MS", "BOT_MAX_ORDERS_PER_BATCH",
    "BOT_PRICE_HISTORY_SIZE", "BOT_RANDOM_SEED", "BOT_DB_PATH", "BOT_LOG_LEVEL", "BOT_LOG_FILE"]

/-- The variables that are set. -/
def environment : IO (Table String String) :=
  variableNames.filterMapM fun name => do return (← IO.getEnv name).map (name, ·)

/-- A file by its path, if it can be read. -/
def file? (path : String) : IO (Option (String × String)) :=
  try return some (path, ← IO.FS.readFile path)
  catch _ => return none

def files (args : List String) : IO (Table String String) :=
  let rules := ((Arguments.read args).toOption.bind (·.rulesPath?)).toList
  (Program.environmentFile :: rules).filterMapM file?

/-- The microseconds since the beginning of 1970. -/
def now : IO Micros := do
  return (← Std.Time.Timestamp.now).toNanosecondsSinceUnixEpoch.val / 1000

/-- What the program finds. -/
def surroundings (args : List String) : IO Surroundings := do
  return ⟨← environment, .ofFiles (← files args), ← now⟩

/-- Watch in real time. -/
partial def follow (w : Watch) : IO Watch := do
  if w.isDone then return w
  let next := w.look
  IO.sleep (UInt32.ofNat (w.pause.toNat / 1000))
  follow next

/-- The options of the command line. -/
def usage : String :=
  "usage: [-h] [--db-path PATH] [--seed-demo] [--owner-id ID] [--name NAME] [--rules PATH]\n" ++
  "       [--max-ticks N] [--log-level LEVEL] [--log-file PATH]"

def fieldLine (field : String × Value) : String :=
  field.1 ++ ": " ++ match field.2 with
    | .null => ""
    | .text s => s
    | v => (Json.write v).toOption.getD ""

/-- Write a report, and give the exit code. -/
def conclude (r : ProgramReport) : IO UInt32 := do
  r.notices.forM fun n => IO.eprintln n.line
  match r.exit with
  | .ok code =>
    r.session?.toList.forM fun s => s.summary.forM fun f => IO.println (fieldLine f)
    return UInt32.ofNat code
  | .error (.arguments .helpAsked) =>
    IO.println usage
    return 0
  | .error (.arguments .misuse) =>
    IO.eprintln usage
    return 2
  | .error fault =>
    IO.eprintln (toString (repr fault))
    return 1

end RuleTrader.Main

/-- Run the program on the arguments of the command line. -/
def main (args : List String) : IO UInt32 := do
  match RuleTrader.Program.begin args (← RuleTrader.Main.surroundings args) with
  | .error report => RuleTrader.Main.conclude report
  | .ok (plan, watch) =>
    let watch ← RuleTrader.Main.follow watch
    RuleTrader.Main.conclude (RuleTrader.Program.finished plan watch.finish)
