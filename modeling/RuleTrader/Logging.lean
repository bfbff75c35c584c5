import RuleTrader.Config
import RuleTrader.Files.Directory
import RuleTrader.Value.Shown

/-!
# Where the log goes

The level of the log and its outputs. A level is a number or the name of one; a name that is not known
means `INFO`. There is always an output: the console, a file, or one that drops everything.
-/

namespace RuleTrader.Logging

def levels : Table String Int :=
  [("CRITICAL", 50), ("FATAL", 50), ("ERROR", 40), ("WARN", 30), ("WARNING", 30), ("INFO", 20),
    ("DEBUG", 10), ("NOTSET", 0)]

/-- The level that is used when no other is known. -/
def usualLevel : Int := 20

/-- The level that a value means: an integer itself, a name in any case its number. -/
def resolveLevel : Value → Value
  | .bool b => .bool b
  | .number (.int n) => .int n
  | .text s => .int ((levels.get? (Text.upperCase (Text.strip s))).getD usualLevel)
  | _ => .int usualLevel

/-- Where the lines of a log go. -/
inductive Output where
  | console
  | file (path : String)
  | nowhere
  deriving DecidableEq, Repr

/-- A log: its level and its outputs. -/
structure Setup where
  level : Value
  outputs : List Output
  deriving Repr

def plainOutputs (console : Bool) : List Output := if console then [.console] else [.nowhere]

def fileOutputs (console : Bool) (path : String) : List Output :=
  (if console then [.console] else []) ++ [.file (Path.ofPlace (Path.place path))]

/-- Set a log up in a directory. A value that counts as empty names no file; any other names the file
by its text. The file is made, with the folders of its path. -/
def configure (d : Directory) (level file : Value) (console : Bool) :
    Except PathFault (Setup × Directory) :=
  if file.isEmpty then .ok (⟨resolveLevel level, plainOutputs console⟩, d)
  else do
    let path := file.shownOrEmpty
    return (⟨resolveLevel level, fileOutputs console path⟩, ← d.openToAppend path)

/-- The first value, unless it counts as empty. -/
def firstGiven (given configured : Value) : Value := if given.isEmpty then configured else given

/-- Set a log up for an engine: a level or a file that is given goes before the configured one. -/
def configureForEngine (d : Directory) (config : Config) (level file : Value) :
    Except PathFault (Setup × Directory) :=
  configure d (firstGiven level config.logLevel) (firstGiven file config.logFile) true

end RuleTrader.Logging
