import RuleTrader.Table
import RuleTrader.Text.Character

/-!
# Environment files

A file that sets variables, one in a line: a name, an equals sign and a value, which may stand in
quotes. Empty lines, lines without an equals sign and lines that begin with `#` are left out. A
variable that is set already keeps its value.
-/

namespace RuleTrader

/-- Why a variable cannot be set. -/
inductive VariableFault where
  | emptyName
  | nulCharacter
  deriving DecidableEq, Repr

def VariableFault.message : VariableFault → String
  | .emptyName => ""
  | .nulCharacter => "embedded null byte"

namespace EnvironmentFile

/-- The rest of a text after the line that goes on to a carriage return; a line feed right after the
return belongs to it. -/
def afterReturn : List Char → List Char
  | '\n' :: rest => rest
  | rest => rest

theorem length_afterReturn_le (cs : List Char) : (afterReturn cs).length ≤ cs.length := by
  unfold afterReturn
  split
  · simp
  · exact Nat.le_refl _

/-- The lines of a text, the last one also when it is empty. A line ends at a line feed, a carriage
return, or both in this order. -/
def lines : List Char → List (List Char)
  | [] => [[]]
  | '\n' :: rest => [] :: lines rest
  | '\r' :: rest => [] :: lines (afterReturn rest)
  | c :: rest =>
    match lines rest with
    | [] => [[c]]
    | line :: more => (c :: line) :: more
termination_by cs => cs.length
decreasing_by
  · simp
  · have := length_afterReturn_le rest
    simp only [List.length_cons]
    omega
  · simp

/-- A value without the quotes around it: first double ones, then single ones. -/
def unquote (value : List Char) : List Char :=
  Text.trim (· == '\'') (Text.trim (· == '"') value)

/-- The variable that a line sets, if it sets one. -/
def setting? (line : List Char) : Option (String × String) :=
  let line := Text.trim Text.isBlank line
  if line.head? == some '#' then none
  else
    match line.dropWhile (· ≠ '=') with
    | [] => none
    | _ :: value =>
      some (String.ofList (Text.trim Text.isBlank (line.takeWhile (· ≠ '='))),
        String.ofList (unquote (Text.trim Text.isBlank value)))

def setDefault (env : Table String String) (name value : String) :
    Except VariableFault (Table String String) :=
  if env.has name then .ok env
  else if '\x00' ∈ name.toList ∨ '\x00' ∈ value.toList then .error .nulCharacter
  else if name = "" then .error .emptyName
  else .ok (env.put name value)

/-- Set variables in turn, up to the first that cannot be set. -/
def setAll (env : Table String String) :
    List (String × String) → Option VariableFault × Table String String
  | [] => (none, env)
  | (name, value) :: rest =>
    match setDefault env name value with
    | .error fault => (some fault, env)
    | .ok env => setAll env rest

/-- Load a file into an environment. What was set before a fault stays set. -/
def load (text : String) (env : Table String String) :
    Option VariableFault × Table String String :=
  setAll env ((lines text.toList).filterMap setting?)

end EnvironmentFile

end RuleTrader
