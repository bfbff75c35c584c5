import RuleTrader.Value

/-!
# Reading JSON text

A reader of JSON text over its characters. It goes from left to right and stops at the first fault.
Besides the standard it takes `NaN`, `Infinity` and `-Infinity` as numbers. Of several fields of one
name the first keeps the place and the last gives the value. Values may lie `depthLimit` containers
deep.
-/

namespace RuleTrader

/-- Why a text is no JSON text, or a value has none. -/
inductive JsonFault where
  | expectedValue
  | expectedName
  | expectedColon
  | expectedComma
  | unterminated
  | controlCharacter
  | unknownEscape
  | badCodePoint
  | textAfterValue
  | byteOrderMark
  | nestedTooDeeply
  /-- A row of digits is longer than an integer may be. -/
  | number (fault : NumberFault)
  | notWritable
  deriving DecidableEq, Repr

namespace JsonFault

def message : JsonFault → String
  | .expectedValue => "Expecting value"
  | .expectedName => "Expecting property name enclosed in double quotes"
  | .expectedColon => "Expecting ':' delimiter"
  | .expectedComma => "Expecting ',' delimiter"
  | .unterminated => "Unterminated string starting at"
  | .controlCharacter => "Invalid control character at"
  | .unknownEscape => "Invalid \\escape"
  | .badCodePoint => "Invalid \\uXXXX escape"
  | .textAfterValue => "Extra data"
  | .byteOrderMark => "Unexpected UTF-8 BOM (decode using utf-8-sig)"
  | .nestedTooDeeply => "nested too deeply"
  | .number fault => fault.message
  | .notWritable => ""

end JsonFault

namespace Json

/-- The number of containers that may be open at once. -/
def depthLimit : Nat := 1000

/-- What a step of the reader gives: a result and the characters after it. -/
abbrev Step (α : Type) := Except JsonFault (α × List Char)

/-- A blank between the tokens. -/
def isSpace (c : Char) : Bool :=
  c = ' ' || c = '\t' || c = '\n' || c = '\r'

/-- Pass over the blanks. -/
def skipSpace (cs : List Char) : List Char :=
  cs.dropWhile isSpace

/-! ## Strings -/

def hexValue? (c : Char) : Option Nat :=
  if '0' ≤ c ∧ c ≤ '9' then some (c.toNat - '0'.toNat)
  else if 'a' ≤ c ∧ c ≤ 'f' then some (c.toNat - 'a'.toNat + 10)
  else if 'A' ≤ c ∧ c ≤ 'F' then some (c.toNat - 'A'.toNat + 10)
  else none

/-- The number that four hexadecimal digits write. -/
def codeUnit? (a b c d : Char) : Option Nat := do
  return (((← hexValue? a) * 16 + (← hexValue? b)) * 16 + (← hexValue? c)) * 16 + (← hexValue? d)

/-- The first of a pair of code units that write one character. -/
def isLeading (u : Nat) : Bool := 0xD800 ≤ u && u ≤ 0xDBFF

/-- The second of a pair of code units that write one character. -/
def isTrailing (u : Nat) : Bool := 0xDC00 ≤ u && u ≤ 0xDFFF

/-- The character that a pair of code units writes. -/
def joinPair (u v : Nat) : Char :=
  Char.ofNat (0x10000 + (u - 0xD800) * 0x400 + (v - 0xDC00))

/-- The character of a single code unit; a half of a pair is kept as it is. -/
def unitChar (u : Nat) : Char :=
  if Text.isHalf u then Text.keepHalf u else Char.ofNat u

/-- The character that a letter after a backslash stands for. -/
def escaped? (c : Char) : Option Char :=
  match c with
  | '"' => some '"'
  | '\\' => some '\\'
  | '/' => some '/'
  | 'b' => some (Char.ofNat 8)
  | 'f' => some (Char.ofNat 12)
  | 'n' => some '\n'
  | 'r' => some '\r'
  | 't' => some '\t'
  | _ => none

/-- Put a character in front of the text that a step has read. -/
def consText (c : Char) (s : Step (List Char)) : Step (List Char) :=
  s.map fun (cs, rest) => (c :: cs, rest)

/-- Read the inside of a string up to its closing mark. Of a code point in hexadecimal at least one
character must follow. -/
def readText : List Char → Step (List Char)
  | [] => .error .unterminated
  | '"' :: rest => .ok ([], rest)
  | '\\' :: 'u' :: a :: b :: c :: d :: '\\' :: 'u' :: e :: f :: g :: h :: x :: rest =>
    match codeUnit? a b c d with
    | none => .error .badCodePoint
    | some u =>
      if isLeading u then
        match codeUnit? e f g h with
        | none => .error .badCodePoint
        | some v =>
          if isTrailing v then consText (joinPair u v) (readText (x :: rest))
          else consText (unitChar u) (readText ('\\' :: 'u' :: e :: f :: g :: h :: x :: rest))
      else consText (unitChar u) (readText ('\\' :: 'u' :: e :: f :: g :: h :: x :: rest))
  | '\\' :: 'u' :: a :: b :: c :: d :: x :: rest =>
    match codeUnit? a b c d with
    | none => .error .badCodePoint
    | some u => consText (unitChar u) (readText (x :: rest))
  | '\\' :: 'u' :: _ => .error .badCodePoint
  | '\\' :: c :: rest =>
    match escaped? c with
    | some e => consText e (readText rest)
    | none => .error .unknownEscape
  | '\\' :: [] => .error .unterminated
  | c :: rest =>
    if c.toNat < 0x20 then .error .controlCharacter else consText c (readText rest)

/-! ## Numbers -/

/-- Whether a character is a digit of a JSON number. -/
def isPlainDigit (c : Char) : Bool := '0' ≤ c && c ≤ '9'

/-- The digits at the front. -/
def takeDigits (cs : List Char) : List Char × List Char :=
  (cs.takeWhile isPlainDigit, cs.dropWhile isPlainDigit)

/-- The integer part of a number: a zero alone, or digits that do not start with zero. -/
def takeWhole : List Char → List Char × List Char
  | '0' :: rest => (['0'], rest)
  | cs => takeDigits cs

/-- The fraction of a number, if a point and digits follow. -/
def takePoint : List Char → Option (List Char) × List Char
  | '.' :: rest =>
    let (ds, after) := takeDigits rest
    if ds.isEmpty then (none, '.' :: rest) else (some ds, after)
  | cs => (none, cs)

/-- The exponent of a number, if a mark, perhaps a sign, and digits follow. -/
def takePower (cs : List Char) : Option (Bool × List Char) × List Char :=
  match cs with
  | mark :: rest =>
    if mark = 'e' ∨ mark = 'E' then
      let (negative, after) := Number.takeSign rest
      let (ds, after) := takeDigits after
      if ds.isEmpty then (none, cs) else (some (negative, ds), after)
    else (none, cs)
  | [] => (none, cs)

def readNumber (negative : Bool) (cs : List Char) : Step Value :=
  let (whole, rest) := takeWhole cs
  if whole.isEmpty then .error .expectedValue
  else
    let (fraction?, rest) := takePoint rest
    let (power?, rest) := takePower rest
    match fraction?, power? with
    | none, none =>
      if digitLimit < whole.length then .error (.number (.tooManyDigits whole.length))
      else .ok (.int (Number.withSign negative (Text.digitsValue whole)), rest)
    | _, _ =>
      let fraction := fraction?.getD []
      let (below, ds) := power?.getD (false, [])
      let power := Number.withSign below (Text.digitsValue ds) - fraction.length
      .ok (.float (Number.ofDecimal negative (Text.digitsValue (whole ++ fraction)) power), rest)

/-! ## Values -/

def readPlain : List Char → Step Value
  | 'n' :: 'u' :: 'l' :: 'l' :: rest => .ok (.null, rest)
  | 't' :: 'r' :: 'u' :: 'e' :: rest => .ok (.bool true, rest)
  | 'f' :: 'a' :: 'l' :: 's' :: 'e' :: rest => .ok (.bool false, rest)
  | 'N' :: 'a' :: 'N' :: rest => .ok (.float (0 / 0), rest)
  | 'I' :: 'n' :: 'f' :: 'i' :: 'n' :: 'i' :: 't' :: 'y' :: rest =>
    .ok (.float (Binary64.ofMagnitude false Binary64.infinityBits), rest)
  | '-' :: 'I' :: 'n' :: 'f' :: 'i' :: 'n' :: 'i' :: 't' :: 'y' :: rest =>
    .ok (.float (Binary64.ofMagnitude true Binary64.infinityBits), rest)
  | '-' :: rest => readNumber true rest
  | cs => readNumber false cs

/-- Read the items of a list from the first one on, at most `fuel` of them. -/
def readItems (item : List Char → Step Value) : Nat → List Char →
    Except JsonFault (List Value × List Char)
  | 0, _ => .error .expectedValue
  | fuel + 1, cs => do
    let (v, rest) ← item cs
    match skipSpace rest with
    | ']' :: rest => return ([v], rest)
    | ',' :: rest =>
      let (vs, rest) ← readItems item fuel (skipSpace rest)
      return (v :: vs, rest)
    | _ => throw .expectedComma

/-- Read the fields of a record from the first one on, at most `fuel` of them. -/
def readFields (item : List Char → Step Value) : Nat → List Char →
    Except JsonFault (List (String × Value) × List Char)
  | 0, _ => .error .expectedName
  | fuel + 1, '"' :: cs => do
    let (name, rest) ← readText cs
    match skipSpace rest with
    | ':' :: rest =>
      let (v, rest) ← item (skipSpace rest)
      match skipSpace rest with
      | '}' :: rest => return ([(String.ofList name, v)], rest)
      | ',' :: rest =>
        let (fields, rest) ← readFields item fuel (skipSpace rest)
        return ((String.ofList name, v) :: fields, rest)
      | _ => throw .expectedComma
    | _ => throw .expectedColon
  | _ + 1, _ => .error .expectedName

/-- Read a value in which `depth` further containers may be open and no container holds more than
`fuel` entries. -/
def readValue (fuel : Nat) : Nat → List Char → Step Value
  | _, '"' :: cs => (readText cs).map fun (s, rest) => (.text (String.ofList s), rest)
  | 0, '[' :: _ => .error .nestedTooDeeply
  | 0, '{' :: _ => .error .nestedTooDeeply
  | depth + 1, '[' :: cs =>
    match skipSpace cs with
    | ']' :: rest => .ok (.list [], rest)
    | cs => (readItems (readValue fuel depth) fuel cs).map fun (vs, rest) => (.list vs, rest)
  | depth + 1, '{' :: cs =>
    match skipSpace cs with
    | '}' :: rest => .ok (.record [], rest)
    | cs =>
      (readFields (readValue fuel depth) fuel cs).map fun (fields, rest) =>
        (.record (Table.ofList fields), rest)
  | _, cs => readPlain cs

def read (s : String) : Except JsonFault Value :=
  match s.toList with
  | '\uFEFF' :: _ => .error .byteOrderMark
  | cs => do
    let (v, rest) ← readValue cs.length depthLimit (skipSpace cs)
    if (skipSpace rest).isEmpty then return v else throw .textAfterValue

end Json

end RuleTrader
