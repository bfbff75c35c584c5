import RuleTrader.Number.Shortest
import RuleTrader.Value

/-!
# Values in messages

The text that a message shows for a value. A text is shown as it is, but inside a list, and wherever a
message quotes it, between its quotation marks. An integer that has too many digits has no text.
-/

namespace RuleTrader

/-- Numbers in messages have their fewest digits, and a point or an exponent always. -/
def messageLayout : FloatLayout := ⟨-4, 16, 2, "nan", "inf"⟩

def Number.text : Number → Except NumberFault (List Char)
  | .int n => writeInt n
  | .float x => .ok (messageLayout.write x).toList

namespace Value

def boolText (b : Bool) : List Char := (if b then "True" else "False").toList

mutual

def quotedChars : Value → Except NumberFault (List Char)
  | .null => .ok "None".toList
  | .bool b => .ok (boolText b)
  | .number x => x.text
  | .text s => .ok (Text.quoted s).toList
  | .bytes bs => .ok (Text.quotedBytes bs).toList
  | .list items => do return '[' :: (← quotedItems items) ++ [']']
  | .row [v] => do return '(' :: (← quotedChars v) ++ [',', ')']
  | .row items => do return '(' :: (← quotedItems items) ++ [')']
  | .record fields => do return '\x7b' :: (← quotedFields fields) ++ ['\x7d']

def quotedItems : List Value → Except NumberFault (List Char)
  | [] => .ok []
  | [v] => quotedChars v
  | v :: vs => do return (← quotedChars v) ++ ", ".toList ++ (← quotedItems vs)

def quotedFields : List (String × Value) → Except NumberFault (List Char)
  | [] => .ok []
  | [(name, v)] => do return (Text.quoted name).toList ++ ": ".toList ++ (← quotedChars v)
  | (name, v) :: fields => do
    return (Text.quoted name).toList ++ ": ".toList ++ (← quotedChars v) ++ ", ".toList
      ++ (← quotedFields fields)

end

def quoted (v : Value) : Except NumberFault String :=
  String.ofList <$> v.quotedChars

def shown : Value → Except NumberFault String
  | .text s => .ok s
  | v => v.quoted

/-- The text that shows a value, empty if it has none. -/
def shownOrEmpty (v : Value) : String := v.shown.toOption.getD ""

end Value

end RuleTrader
