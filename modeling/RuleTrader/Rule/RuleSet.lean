import RuleTrader.Json.Reader
import RuleTrader.Json.Writer
import RuleTrader.Rule.Reading
import RuleTrader.Text.Utf8

/-!
# Rule sets

A rule set is defined by JSON text, by bytes of such text, by one rule, or by a list of rules, some of
which may have been read before. Text that cannot be read refuses the whole definition; a rule that
cannot be read is left out, and the others are kept in their order. Writing a rule set gives JSON text
that defines it again.
-/

namespace RuleTrader

/-- One entry of a rule set: a record still to be read, or a rule. -/
inductive RuleEntry where
  | raw (v : Value)
  | ready (rule : Rule)
  deriving Repr

/-- What defines a rule set. -/
inductive RuleDefinition where
  | value (v : Value)
  | ready (rule : Rule)
  | entries (entries : List RuleEntry)
  deriving Repr

/-- Why a definition is refused. -/
inductive RuleSetFault where
  | notUtf8 (fault : Text.Utf8Fault)
  | notJson (fault : JsonFault)
  | number (fault : NumberFault)
  deriving DecidableEq, Repr

namespace RuleSetFault

def message : RuleSetFault → String
  | .notUtf8 fault => "Rule definition is not valid UTF-8: " ++ fault.message
  | .notJson fault => "Invalid JSON rule definition: " ++ fault.message
  | .number fault => fault.message

end RuleSetFault

/-- What reading a definition shows: what became of each entry in turn, and the fault that stopped
the reading, if one did. -/
structure RuleSetReading where
  readings : List Rule.Reading := []
  fault? : Option RuleSetFault := none
  deriving Repr

namespace RuleSet

/-! ## Reading -/

/-- The JSON value of a text; a number beyond the limits is a fault of its own. -/
def readText (s : String) : Except RuleSetFault Value :=
  match Json.read s with
  | .ok v => .ok v
  | .error (.number fault) => .error (.number fault)
  | .error fault => .error (.notJson fault)

/-- The entries that a JSON value defines; an empty value defines none. -/
def entriesOfJson (v : Value) : List RuleEntry :=
  if v.isEmpty then []
  else
    match v with
    | .list items => items.map .raw
    | v => [.raw v]

def entriesOfText (s : String) : Except RuleSetFault (List RuleEntry) :=
  entriesOfJson <$> readText s

def entriesOfValue : Value → Except RuleSetFault (List RuleEntry)
  | .null => .ok []
  | .text s => if s.isEmpty then .ok [] else entriesOfText s
  | .bytes bs =>
    match Text.decodeUtf8 bs with
    | .ok cs => entriesOfText (String.ofList cs)
    | .error fault => .error (.notUtf8 fault)
  | .list items => .ok (items.map .raw)
  | .row items => .ok (items.map .raw)
  | v => .ok [.raw v]

def entriesOf : RuleDefinition → Except RuleSetFault (List RuleEntry)
  | .value v => entriesOfValue v
  | .ready rule => .ok [.ready rule]
  | .entries entries => .ok entries

def readEntry : RuleEntry → Except NumberFault Rule.Reading
  | .raw v => Rule.read v
  | .ready rule => .ok (.kept rule)

/-- Read entries from the first to the last, up to the first fault. -/
def readEntries : List RuleEntry → RuleSetReading
  | [] => {}
  | e :: es =>
    match readEntry e with
    | .error fault => { fault? := some (.number fault) }
    | .ok reading =>
      let rest := readEntries es
      { rest with readings := reading :: rest.readings }

def readAll (d : RuleDefinition) : RuleSetReading :=
  match entriesOf d with
  | .error fault => { fault? := some fault }
  | .ok entries => readEntries entries

end RuleSet

namespace RuleSetReading

/-- The rules that were kept, unless a fault refuses them all. -/
def rules (r : RuleSetReading) : Except RuleSetFault (List Rule) :=
  match r.fault? with
  | some fault => .error fault
  | none => .ok (r.readings.filterMap Rule.Reading.rule?)

end RuleSetReading

namespace RuleSet

/-- The rules of a definition. -/
def read (d : RuleDefinition) : Except RuleSetFault (List Rule) :=
  (readAll d).rules

/-! ## Writing -/

def toRecords? (rules : List Rule) : Option (List Value) :=
  rules.mapM Rule.toRecord?

def isText : RuleDefinition → Bool
  | .value (.text _) | .value (.bytes _) => true
  | _ => false

/-- Whether the text of the rules of a definition gives equal rules again. The undefined number that
text writes is one and the same; any other undefined number is equal to none. -/
def rereads (d : RuleDefinition) (rules : List Rule) (text : String) : Except RuleSetFault Bool := do
  let again ← read (.value (.text text))
  return Rule.equalLists (if isText d then Number.eqOrUndefined else Number.eq) again rules

/-- The JSON text of a list of rules. -/
def write (rules : List Rule) : Except JsonFault String :=
  match toRecords? rules with
  | some records => Json.write (.list records)
  | none => .error .notWritable

end RuleSet

end RuleTrader
