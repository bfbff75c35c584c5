import RuleTrader.Number.Reading

/-!
# Indicator keys

An indicator is asked for by a key: its name, a period and, for the bands and the trend line, a
multiplier, apart by colons. The name alone asks for the indicator with its usual parameters. A key
may end in one line feed, its digits may be of any script, and a period has at most `digitLimit`
digits.
-/

namespace RuleTrader

/-- The indicators over a price history. -/
inductive Indicator where
  | movingAverage
  | relativeStrength
  | upperBand
  | lowerBand
  | trueRange
  | superTrend
  deriving DecidableEq, Repr

/-- An indicator with its parameters. -/
structure IndicatorSpec where
  kind : Indicator
  period : Nat
  multiplier : Float := 0
  deriving Repr

namespace Indicator

def all : List Indicator :=
  [.movingAverage, .relativeStrength, .upperBand, .lowerBand, .trueRange, .superTrend]

def name : Indicator → String
  | .movingAverage => "ma"
  | .relativeStrength => "rsi"
  | .upperBand => "bollingerUpper"
  | .lowerBand => "bollingerLower"
  | .trueRange => "atr"
  | .superTrend => "supertrend"

def ofName? (s : String) : Option Indicator :=
  all.find? (·.name == s)

def hasMultiplier : Indicator → Bool
  | .upperBand | .lowerBand | .superTrend => true
  | .movingAverage | .relativeStrength | .trueRange => false

def usual : Indicator → IndicatorSpec
  | .movingAverage => ⟨.movingAverage, 10, 0⟩
  | .relativeStrength => ⟨.relativeStrength, 14, 0⟩
  | .upperBand => ⟨.upperBand, 20, 2⟩
  | .lowerBand => ⟨.lowerBand, 20, 2⟩
  | .trueRange => ⟨.trueRange, 14, 0⟩
  | .superTrend => ⟨.superTrend, 10, 3⟩

def usualKey : Indicator → String
  | .movingAverage => "ma:10"
  | .relativeStrength => "rsi:14"
  | .upperBand => "bollingerUpper:20:2"
  | .lowerBand => "bollingerLower:20:2"
  | .trueRange => "atr:14"
  | .superTrend => "supertrend:10:3"

end Indicator

namespace IndicatorKey

/-- What is before the first colon, and what is after it. -/
def splitColon? (cs : List Char) : Option (List Char × List Char) :=
  match cs.dropWhile (· ≠ ':') with
  | ':' :: rest => some (cs.takeWhile (· ≠ ':'), rest)
  | _ => none

/-- A text without the one line feed at its end. -/
def dropLineFeed (cs : List Char) : List Char :=
  if cs.getLast? = some '\n' then cs.dropLast else cs

def isDigits (cs : List Char) : Bool :=
  !cs.isEmpty && cs.all Text.isDigit

/-- Digits, or digits, a point and digits. -/
def multiplier? (cs : List Char) : Option Float :=
  let whole := cs.takeWhile Text.isDigit
  let value (fraction : List Char) : Float :=
    Number.ofDecimal false (Text.digitsValue (whole ++ fraction)) (-(fraction.length : Int))
  if whole.isEmpty then none
  else
    match cs.dropWhile Text.isDigit with
    | [] => some (value [])
    | '.' :: fraction => if isDigits fraction then some (value fraction) else none
    | _ => none

/-- A period, refused when it has too many digits. -/
def readPeriod (ds : List Char) : Except NumberFault Nat :=
  if digitLimit < ds.length then .error (.tooManyDigits ds.length) else .ok (Text.digitsValue ds)

/-- The parameters after the name of an indicator. -/
def readParameters (kind : Indicator) (cs : List Char) :
    Except NumberFault (Option IndicatorSpec) :=
  if kind.hasMultiplier then
    match splitColon? cs with
    | none => .ok none
    | some (period, rest) =>
      match multiplier? rest with
      | none => .ok none
      | some multiplier =>
        if isDigits period then
          (fun n => some ⟨kind, n, multiplier⟩) <$> readPeriod period
        else .ok none
  else if isDigits cs then (fun n => some ⟨kind, n, 0⟩) <$> readPeriod cs
  else .ok none

/-- Read a key with parameters; none when the text is no such key. -/
def read (key : String) : Except NumberFault (Option IndicatorSpec) :=
  match splitColon? (dropLineFeed key.toList) with
  | none => .ok none
  | some (name, rest) =>
    match Indicator.ofName? (String.ofList name) with
    | none => .ok none
    | some kind => readParameters kind rest

def isKey (key : String) : Except NumberFault Bool :=
  Option.isSome <$> read key

/-- Whether a text names an indicator, with parameters or without. -/
def isFact (name : String) : Except NumberFault Bool :=
  if (Indicator.ofName? name).isSome then .ok true else isKey name

/-- The indicator that a key asks for, with its parameters. -/
def resolve (key : String) : Except NumberFault (Option IndicatorSpec) :=
  match Indicator.ofName? key with
  | some kind => .ok (some kind.usual)
  | none => read key

end IndicatorKey

end RuleTrader
