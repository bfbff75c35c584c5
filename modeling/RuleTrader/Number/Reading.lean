import RuleTrader.Number.Fault
import RuleTrader.Number.Binary64
import RuleTrader.Text.Character

/-!
# Numbers read from text

Two readers. Both pass over the blanks around the number, take the decimal digits of any script and
allow one underscore between two digits. An integer is a sign and a row of digits, at most
`digitLimit` of them. A binary64 number has a fraction and an exponent besides, or is spelled out as
`inf`, `infinity` or `nan`.
-/

namespace RuleTrader.Number

/-- The digits of a row in which single underscores stand between digits only. -/
def digitRow? : List Char → Option (List Char)
  | [] => none
  | [c] => if Text.isDigit c then some [c] else none
  | c :: '_' :: rest => if Text.isDigit c then (digitRow? rest).map (c :: ·) else none
  | c :: rest => if Text.isDigit c then (digitRow? rest).map (c :: ·) else none

def takeSign : List Char → Bool × List Char
  | '-' :: rest => (true, rest)
  | '+' :: rest => (false, rest)
  | cs => (false, cs)

def withSign (negative : Bool) (n : Nat) : Int :=
  if negative then -(n : Int) else n

def inDigitRow (c : Char) : Bool :=
  c = '_' || Text.isDigit c

/-- Read an integer; `quoted` is the text as a message shows it. -/
def readIntAs (quoted text : String) : Except NumberFault Int :=
  let (negative, cs) := takeSign (Text.trim Text.isNumberBlank text.toList)
  match digitRow? (cs.takeWhile inDigitRow) with
  | none => .error (.notAnInteger quoted)
  | some ds =>
    if digitLimit < ds.length then .error (.tooManyDigits ds.length)
    else if (cs.dropWhile inDigitRow).isEmpty then .ok (withSign negative (Text.digitsValue ds))
    else .error (.notAnInteger quoted)

def readInt (text : String) : Except NumberFault Int :=
  readIntAs (Text.quoted text) text

/-! ## Binary64 numbers -/

/-- Past this many places the nearest binary64 number is an infinity or zero. -/
def placeLimit : Int := 400

/-- The binary64 number nearest to `± n · 10 ^ exponent`. -/
def ofDecimal (negative : Bool) (n : Nat) (exponent : Int) : Float :=
  let places : Int := (Nat.toDigits 10 n).length + exponent
  if n = 0 ∨ places < -placeLimit then Binary64.nearest negative 0 1
  else if placeLimit < places then Binary64.ofMagnitude negative Binary64.infinityBits
  else if 0 ≤ exponent then Binary64.nearest negative (n * tenTo exponent.toNat) 1
  else Binary64.nearest negative n (tenTo (-exponent).toNat)

/-- Remove the underscores of a text in which each stands between two digits. -/
def joinDigits? : List Char → Option (List Char)
  | [] => some []
  | '_' :: _ => none
  | c :: '_' :: d :: rest =>
    if Text.isDigit c && Text.isDigit d then (joinDigits? (d :: rest)).map (c :: ·) else none
  | c :: rest => (joinDigits? rest).map (c :: ·)

def smallLetters (cs : List Char) : List Char :=
  cs.map Char.toLower

/-- A number spelled out in letters. -/
def spelledOut? (negative : Bool) (cs : List Char) : Option Float :=
  let word := String.ofList (smallLetters cs)
  if word = "inf" ∨ word = "infinity" then
    some (Binary64.ofMagnitude negative Binary64.infinityBits)
  else if word = "nan" then some (0 / 0)
  else none

/-- The exponent at the end of a number: nothing, or a mark, a sign and digits. -/
def exponent? : List Char → Option Int
  | [] => some 0
  | mark :: rest =>
    if mark = 'e' ∨ mark = 'E' then
      let (negative, ds) := takeSign rest
      if ds.isEmpty || !ds.all Text.isDigit then none
      else some (withSign negative (Text.digitsValue ds))
    else none

/-- The digits after the point, if there is one, and what follows. -/
def takeFraction : List Char → List Char × List Char
  | '.' :: rest => (rest.takeWhile Text.isDigit, rest.dropWhile Text.isDigit)
  | cs => ([], cs)

def inDigits? (negative : Bool) (cs : List Char) : Option Float := do
  let whole := cs.takeWhile Text.isDigit
  let (fraction, rest) := takeFraction (cs.dropWhile Text.isDigit)
  if whole.isEmpty && fraction.isEmpty then none
  else
    let power ← exponent? rest
    return ofDecimal negative (Text.digitsValue (whole ++ fraction)) (power - fraction.length)

def readFloat? (text : String) : Option Float := do
  let cs ← joinDigits? (Text.trim Text.isNumberBlank text.toList)
  let (negative, body) := takeSign cs
  match spelledOut? negative body with
  | some x => return x
  | none => inDigits? negative body

/-- Read a binary64 number; `quoted` is the text as a message shows it. -/
def readFloatAs (quoted text : String) : Except NumberFault Float :=
  match readFloat? text with
  | some x => .ok x
  | none => .error (.notAFloat quoted)

end RuleTrader.Number
