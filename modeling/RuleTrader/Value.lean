import RuleTrader.Number.Basic
import RuleTrader.Number.Reading
import RuleTrader.Table

/-!
# Values

The values that rules, facts and settings are made of before they are checked: what a JSON text can
hold, and besides it byte strings and fixed rows. Numbers keep their kind. The fields of a record are
in their order, each name once.
-/

namespace RuleTrader

/-- An unchecked value. -/
inductive Value where
  | null
  | bool (b : Bool)
  | number (x : Number)
  | text (s : String)
  | bytes (bs : List UInt8)
  | list (items : List Value)
  | row (items : List Value)
  | record (fields : List (String × Value))
  deriving Repr

instance : Inhabited Value := ⟨.null⟩

namespace Value

def int (n : Int) : Value := .number (.int n)

/-- A binary64 number as a value. -/
def float (x : Float) : Value := .number (.float x)

def ofText? : Option String → Value
  | some s => .text s
  | none => .null

/-- The number that a value is or counts as; a truth value counts as `0` or `1`. -/
def asNumber? : Value → Option Number
  | .number x => some x
  | .bool b => some (.int (if b then 1 else 0))
  | _ => none

/-- Whether a value counts as empty: null, false, zero, or without content. -/
def isEmpty : Value → Bool
  | .null => true
  | .bool b => !b
  | .number x => x.eq 0
  | .text s => s.isEmpty
  | .bytes bs => bs.isEmpty
  | .list items => items.isEmpty
  | .row items => items.isEmpty
  | .record fields => fields.isEmpty

/-- The field of a record; none for anything else. -/
def field? (v : Value) (name : String) : Option Value :=
  match v with
  | .record fields => Table.get? fields name
  | _ => none

/-- The field of a record, null when it is missing. -/
def field (v : Value) (name : String) : Value :=
  (v.field? name).getD .null

/-- The name of the kind of a value in messages. -/
def kindName : Value → String
  | .null => "NoneType"
  | .bool _ => "bool"
  | .number (.int _) => "int"
  | .number (.float _) => "float"
  | .text _ => "str"
  | .bytes _ => "bytes"
  | .list _ => "list"
  | .row _ => "tuple"
  | .record _ => "dict"

/-! ## Numbers -/

def toNumber (v : Value) : Except NumberFault Number :=
  match v.asNumber? with
  | some x => .ok x
  | none => .error .notANumber

/-- Bytes as a text in which every byte beyond ASCII is a character that no number has. -/
def asciiText (bs : List UInt8) : String :=
  String.ofList (bs.map fun b => if b < 0x80 then Text.byteChar b else Char.ofNat 0xFFFD)

/-- The integer that a value is, holds the beginning of, or writes. -/
def toInt (v : Value) : Except NumberFault Int :=
  match v with
  | .bool b => .ok (if b then 1 else 0)
  | .number x => x.truncate
  | .text s => Number.readInt s
  | .bytes bs => Number.readIntAs (Text.quotedBytes bs) (asciiText bs)
  | .null | .list _ | .row _ | .record _ => .error (.noInteger v.kindName)

/-- The binary64 number that a value is nearest to, or writes. -/
def toFloat (v : Value) : Except NumberFault Float :=
  match v with
  | .text s => Number.readFloatAs (Text.quoted s) s
  | .bytes bs => Number.readFloatAs (Text.quotedBytes bs) (asciiText bs)
  | v => do (← v.toNumber).toFloat

/-! ## Equality -/

mutual

/-- Whether two values are equal by a given equality of numbers: a truth value counts as `0` or `1`,
lists and rows are compared item by item, records field by field in any order. -/
def equalBy (eq : Number → Number → Bool) : Value → Value → Bool
  | .null, w => match w with
    | .null => true
    | _ => false
  | .bool b, w => match w.asNumber? with
    | some y => eq (.int (if b then 1 else 0)) y
    | none => false
  | .number x, w => match w.asNumber? with
    | some y => eq x y
    | none => false
  | .text s, w => match w with
    | .text t => s == t
    | _ => false
  | .bytes s, w => match w with
    | .bytes t => s == t
    | _ => false
  | .list vs, w => match w with
    | .list ws => equalItems eq vs ws
    | _ => false
  | .row vs, w => match w with
    | .row ws => equalItems eq vs ws
    | _ => false
  | .record fs, w => match w with
    | .record gs => fs.length == gs.length && equalFields eq fs gs
    | _ => false

/-- Whether two lists of values are equal item by item. -/
def equalItems (eq : Number → Number → Bool) : List Value → List Value → Bool
  | [], ws => ws.isEmpty
  | v :: vs, ws => match ws with
    | [] => false
    | w :: ws => equalBy eq v w && equalItems eq vs ws

/-- Whether every field has an equal field of its name among the others. -/
def equalFields (eq : Number → Number → Bool) :
    List (String × Value) → List (String × Value) → Bool
  | [], _ => true
  | (name, v) :: fs, gs => (match Table.get? gs name with
      | some w => equalBy eq v w
      | none => false) && equalFields eq fs gs

end

/-- Whether two values are equal, numbers by their exact values. -/
def equal (v w : Value) : Bool := equalBy Number.eq v w

end Value

end RuleTrader
