/-!
# Paths

A path is a row of names apart by slashes, read from the working directory. An empty name and a dot
lead nowhere, and two dots lead to the folder above. The place that a path leads to is the row of names
that is left, the innermost one first; only a place above the working directory begins with dots.
-/

namespace RuleTrader

/-- Where a path leads from the working directory, the innermost name first. -/
abbrev Place := List String

namespace Path

/-- The names of a path, as characters. -/
def splitSlashes : List Char → List (List Char)
  | [] => [[]]
  | '/' :: rest => [] :: splitSlashes rest
  | c :: rest =>
    match splitSlashes rest with
    | [] => [[c]]
    | name :: names => (c :: name) :: names

/-- The names of a path, among them the empty ones. -/
def names (path : String) : List String := (splitSlashes path.toList).map String.ofList

/-- The place above a place. -/
def above : Place → Place
  | [] => [".."]
  | ".." :: outer => ".." :: ".." :: outer
  | _ :: outer => outer

/-- The place that a name leads to from a place. -/
def follow (place : Place) (name : String) : Place :=
  if name = "" ∨ name = "." then place
  else if name = ".." then above place
  else name :: place

/-- The place that a path leads to, if everything on the way is there. -/
def place (path : String) : Place := (names path).foldl follow []

def ofPlace (p : Place) : String := String.intercalate "/" p.reverse

/-- Whether a path, or a name of it, holds the character that no path can hold. -/
def hasNul (path : String) : Bool := '\x00' ∈ path.toList

def nameLimit : Nat := 255

/-- Whether a name has more bytes than a name can have. -/
def isTooLong (name : String) : Bool := nameLimit < name.utf8ByteSize

example : place "a/./b//../c" = ["c", "a"] := by decide +kernel

example : place "../a/../.." = ["..", ".."] := by decide +kernel

end Path

end RuleTrader
