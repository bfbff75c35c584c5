import RuleTrader.Json.Reader
import RuleTrader.Number.Shortest
import RuleTrader.Value

/-!
# Writing JSON text

The text of a value: items apart by a comma and a blank, a name and its value by a colon and a
blank. Everything beyond ASCII, and `U+007F`, is written by its code units in hexadecimal. Records
are written in the order of their fields, or sorted by name.
-/

namespace RuleTrader.Json

/-- Numbers in JSON text have their fewest digits, a point or an exponent always, and the words of
the standard's relatives for what is not finite. -/
def numberLayout : FloatLayout := ⟨-4, 16, 2, "NaN", "Infinity"⟩

def writeUnit (u : Nat) : List Char :=
  '\\' :: 'u' :: Text.hexDigits 4 u

def writeChar (c : Char) : List Char :=
  match c with
  | '"' => ['\\', '"']
  | '\\' => ['\\', '\\']
  | '\n' => ['\\', 'n']
  | '\r' => ['\\', 'r']
  | '\t' => ['\\', 't']
  | c =>
    let n := c.toNat
    if n = 8 then ['\\', 'b']
    else if n = 12 then ['\\', 'f']
    else if 0x20 ≤ n ∧ n < 0x7F then [c]
    else (Text.codeUnits c).flatMap writeUnit

/-- A string between its marks. -/
def writeText (s : String) : List Char :=
  '"' :: s.toList.flatMap writeChar ++ ['"']

def writeNumber : Number → Except JsonFault (List Char)
  | .int n => (Number.writeInt n).mapError .number
  | .float x => .ok (numberLayout.write x).toList

mutual

def writeValue : Value → Except JsonFault (List Char)
  | .null => .ok "null".toList
  | .bool b => .ok (if b then "true" else "false").toList
  | .number x => writeNumber x
  | .text s => .ok (writeText s)
  | .bytes _ => .error .notWritable
  | .list items => writeItems "[]".toList "[".toList items
  | .row items => writeItems "[]".toList "[".toList items
  | .record fields => writeFields "\x7b\x7d".toList "\x7b".toList fields

/-- The items of a list after `lead`, and its end; a list without items is `none`. -/
def writeItems (none lead : List Char) : List Value → Except JsonFault (List Char)
  | [] => .ok none
  | v :: vs => do
    let here ← writeValue v
    let rest ← writeItems "]".toList ", ".toList vs
    return lead ++ here ++ rest

/-- The fields of a record after `lead`, and its end; a record without fields is `none`. -/
def writeFields (none lead : List Char) : List (String × Value) → Except JsonFault (List Char)
  | [] => .ok none
  | (name, v) :: fields => do
    let here ← writeValue v
    let rest ← writeFields "\x7d".toList ", ".toList fields
    return lead ++ writeText name ++ ": ".toList ++ here ++ rest

end

/-- The text of a value. -/
def write (v : Value) : Except JsonFault String :=
  String.ofList <$> writeValue v

/-! ## Sorted records -/

/-- Put a field before the first one with a greater name. -/
def insertField (f : String × Value) : List (String × Value) → List (String × Value)
  | [] => [f]
  | g :: rest => if f.1 < g.1 then f :: g :: rest else g :: insertField f rest

mutual

/-- The value with the fields of every record sorted by name. -/
def sortFields : Value → Value
  | .list items => .list (sortItems items)
  | .row items => .row (sortItems items)
  | .record fields => .record (sortRecord fields)
  | v => v

def sortItems : List Value → List Value
  | [] => []
  | v :: vs => sortFields v :: sortItems vs

/-- The fields with sorted records inside, sorted by name. -/
def sortRecord : List (String × Value) → List (String × Value)
  | [] => []
  | (name, v) :: fields => insertField (name, sortFields v) (sortRecord fields)

end

/-- The text of a value with the fields of every record sorted by name. -/
def writeSorted (v : Value) : Except JsonFault String :=
  write (sortFields v)

end RuleTrader.Json
