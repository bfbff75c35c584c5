import RuleTrader.Text.Quoted

/-!
# What can go wrong with a number

The causes for which an operation on numbers, or the reading of one, has no result, the classes that
they fall into, and their wording.
-/

namespace RuleTrader

/-- The longest row of digits that is read or written as an integer. -/
def digitLimit : Nat := 4300

/-- The classes of faults. -/
inductive FaultClass where
  /-- A result is too large for the place it is needed in. -/
  | overflow
  | zeroDivision
  /-- A value of the right kind is not acceptable. -/
  | value
  /-- A value is of a kind that cannot be used. -/
  | type
  deriving DecidableEq, Repr

def FaultClass.name : FaultClass → String
  | .overflow => "OverflowError"
  | .zeroDivision => "ZeroDivisionError"
  | .value => "ValueError"
  | .type => "TypeError"

/-- Why a number is refused. Texts and bytes are kept as a message quotes them. -/
inductive NumberFault where
  /-- An integer, or a result, is too large for the place it is needed in. -/
  | tooLarge
  | infinite
  | divisionByZero
  | undefined
  | notAnInteger (quoted : String)
  | notAFloat (quoted : String)
  | tooManyDigits (count : Nat)
  | tooLongToWrite
  /-- Something that is no number stands where one is needed. -/
  | notANumber
  /-- A value of a kind that gives no integer stands where one is needed. -/
  | noInteger (kind : String)
  /-- Two values of kinds that have no common order are compared. -/
  | notOrdered (sign left right : String)
  deriving DecidableEq, Repr

namespace NumberFault

def faultClass : NumberFault → FaultClass
  | .tooLarge | .infinite => .overflow
  | .divisionByZero => .zeroDivision
  | .undefined | .notAnInteger _ | .notAFloat _ | .tooManyDigits _ | .tooLongToWrite => .value
  | .notANumber | .noInteger _ | .notOrdered .. => .type

/-- The quoted text in a message about an integer is cut after this many characters. -/
def quotedLimit : Nat := 200

def message : NumberFault → String
  | .tooLarge => "int too large to convert to float"
  | .infinite => "cannot convert float infinity to integer"
  | .divisionByZero => "division by zero"
  | .undefined => "cannot convert float NaN to integer"
  | .notAnInteger quoted =>
    "invalid literal for int() with base 10: " ++ String.ofList (quoted.toList.take quotedLimit)
  | .notAFloat quoted => "could not convert string to float: " ++ quoted
  | .tooManyDigits count =>
    s!"Exceeds the limit ({digitLimit} digits) for integer string conversion: value has "
      ++ s!"{count} digits; use sys.set_int_max_str_digits() to increase the limit"
  | .tooLongToWrite =>
    s!"Exceeds the limit ({digitLimit} digits) for integer string conversion; "
      ++ "use sys.set_int_max_str_digits() to increase the limit"
  | .notANumber => "must be real number"
  | .noInteger kind =>
    s!"int() argument must be a string, a bytes-like object or a real number, not '{kind}'"
  | .notOrdered sign left right =>
    s!"'{sign}' not supported between instances of '{left}' and '{right}'"

end NumberFault

end RuleTrader
