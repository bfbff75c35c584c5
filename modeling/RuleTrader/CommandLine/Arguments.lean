import RuleTrader.Number.Reading
import RuleTrader.Table

/-!
# Arguments

The arguments of the command line. An option is named in full or by a beginning that fits no other
option; its value follows it, or stands after an equals sign in the same argument. Of several values
the last one counts. An argument that looks like a negative number, or has a space in it, is a value.
All arguments are looked at for unclear names first; then they are taken in turn, and the first fault
or question for help decides. What is left over at the end is a fault.
-/

namespace RuleTrader

/-- What the command line says. -/
structure Arguments where
  storePath? : Option String := none
  /-- Whether the store is filled to try things out, with a price that moves. -/
  seedDemo : Bool := false
  ownerId? : Option String := none
  name? : Option String := none
  rulesPath? : Option String := none
  maxTicks? : Option Int := none
  logLevel? : Option String := none
  logFile? : Option String := none
  deriving DecidableEq, Repr

/-- Why arguments give nothing to run. -/
inductive ArgumentsFault where
  | helpAsked
  | misuse
  deriving DecidableEq, Repr

def ArgumentsFault.exitCode : ArgumentsFault → Nat
  | .helpAsked => 0
  | .misuse => 2

/-- An option. -/
inductive Parameter where
  | help
  | storePath
  | seedDemo
  | ownerId
  | name
  | rulesPath
  | maxTicks
  | logLevel
  | logFile
  deriving DecidableEq, Repr

namespace Parameter

def names : Table String Parameter :=
  [("--help", .help), ("--db-path", .storePath), ("--seed-demo", .seedDemo),
    ("--owner-id", .ownerId), ("--name", .name), ("--rules", .rulesPath),
    ("--max-ticks", .maxTicks), ("--log-level", .logLevel), ("--log-file", .logFile)]

def beginningWith (start : String) : List Parameter :=
  (names.filter fun e => start.toList.isPrefixOf e.1.toList).map (·.2)

def hasValue : Parameter → Bool
  | .help | .seedDemo => false
  | _ => true

end Parameter

namespace Arguments

/-- What an argument is. -/
inductive Token where
  | value (text : String)
  | option (parameter : Parameter) (given? : Option String)
  /-- A short question for help with something after it that cannot be there. -/
  | crowded
  /-- Something that is neither a value nor an option. -/
  | stray
  deriving DecidableEq, Repr

/-- Whether a text looks like a negative number; a line feed may follow it. -/
def looksNegative : List Char → Bool
  | '-' :: cs =>
    let cs := if cs.getLast? == some '\n' then cs.dropLast else cs
    match cs.dropWhile Text.isDigit with
    | [] => !cs.isEmpty
    | '.' :: decimals => !decimals.isEmpty && decimals.all Text.isDigit
    | _ => false
  | _ => false

/-- What an argument is that names no option. -/
def classifyOther (s : String) : Token :=
  if looksNegative s.toList || ' ' ∈ s.toList then .value s else .stray

/-- What an argument is that begins with `-h`: nothing but more `h` may follow it, all of them after one
equals sign or none. -/
def classifyShort : List Char → Token
  | ['='] => .crowded
  | '=' :: rest | rest => if rest.all (· == 'h') then .option .help none else .crowded

/-- The name in an argument, and the value after the equals sign if there is one. -/
def splitValue (s : String) : String × Option String :=
  match s.toList.dropWhile (· ≠ '=') with
  | [] => (s, none)
  | _ :: value => (String.ofList (s.toList.takeWhile (· ≠ '=')), some (String.ofList value))

/-- What an argument is that begins with two dashes. -/
def classifyLong (s : String) : Except ArgumentsFault Token :=
  let (name, given?) := splitValue s
  match Parameter.names.get? name with
  | some p => .ok (.option p given?)
  | none =>
    match Parameter.beginningWith name with
    | [] => .ok (classifyOther s)
    | [p] => .ok (.option p given?)
    | _ => .error .misuse

/-- What an argument is. -/
def classify (s : String) : Except ArgumentsFault Token :=
  match s.toList with
  | '-' :: '-' :: _ => classifyLong s
  | '-' :: 'h' :: rest => .ok (classifyShort rest)
  | '-' :: _ :: _ => .ok (classifyOther s)
  | _ => .ok (.value s)

/-- What the arguments are. After two dashes alone there are only values, which are never asked for. -/
def classifyAll : List String → Except ArgumentsFault (List Token)
  | [] => .ok []
  | "--" :: rest => .ok (.stray :: rest.map .value)
  | s :: rest => do
    let t ← classify s
    return t :: (← classifyAll rest)

def set (a : Arguments) (p : Parameter) (value : String) : Except ArgumentsFault Arguments :=
  match p with
  | .help | .seedDemo => .error .misuse
  | .storePath => .ok { a with storePath? := some value }
  | .ownerId => .ok { a with ownerId? := some value }
  | .name => .ok { a with name? := some value }
  | .rulesPath => .ok { a with rulesPath? := some value }
  | .logLevel => .ok { a with logLevel? := some value }
  | .logFile => .ok { a with logFile? := some value }
  | .maxTicks =>
    match Number.readInt value with
    | .ok n => .ok { a with maxTicks? := some n }
    | .error _ => .error .misuse

def setPlain (a : Arguments) : Parameter → Except ArgumentsFault Arguments
  | .help => .error .helpAsked
  | .seedDemo => .ok { a with seedDemo := true }
  | _ => .error .misuse

/-- Take what the arguments are in turn; `clean` says that nothing is left over so far. -/
def take (clean : Bool) (a : Arguments) : List Token → Except ArgumentsFault Arguments
  | [] => if clean then .ok a else .error .misuse
  | .value _ :: rest | .stray :: rest => take false a rest
  | .crowded :: _ => .error .misuse
  | .option p (some value) :: rest => do take clean (← a.set p value) rest
  | .option p none :: rest =>
    if p.hasValue then
      match rest with
      | .value value :: rest => do take clean (← a.set p value) rest
      | _ => .error .misuse
    else do take clean (← a.setPlain p) rest

def read (args : List String) : Except ArgumentsFault Arguments := do
  take true {} (← classifyAll args)

end Arguments

end RuleTrader
