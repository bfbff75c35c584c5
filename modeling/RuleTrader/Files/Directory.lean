import RuleTrader.Files.Path
import RuleTrader.Table

/-!
# The working directory

The folders and files that a program finds, and what it adds to them. A path is followed name by name:
every name but the last must lead to a folder, also one that is followed by nothing but dots. A file is
read by following its path; one that is written to is found at the place that its path spells out, where
a folder on the way may be missing but not be a file. The folders can be made first.
-/

namespace RuleTrader

/-- Why a path does not lead to what is asked for. -/
inductive PathFault where
  | nothingThere
  /-- The path goes on where a file is. -/
  | notAFolder
  /-- A folder is where a file is asked for. -/
  | isAFolder
  /-- A file is where a folder is to be made. -/
  | fileInTheWay
  | nameTooLong
  | nulCharacter
  /-- The name of a folder that is to be made holds the character that no path can hold. -/
  | nulInFolder
  deriving DecidableEq, Repr

def PathFault.message : PathFault → String
  | .nothingThere => "No such file or directory"
  | .notAFolder => "Not a directory"
  | .isAFolder => "Is a directory"
  | .fileInTheWay => "File exists"
  | .nameTooLong => "File name too long"
  | .nulCharacter => "embedded null byte"
  | .nulInFolder => "mkdir: embedded null character in path"

/-- The folders and files at and below a working directory, by their places. -/
structure Directory where
  folders : List Place := []
  files : Table Place String := []
  deriving Repr

namespace Directory

/-- The directory with files of some texts, by path, and the folders that they are in. -/
def ofFiles (files : Table String String) : Directory where
  files := .ofList (files.map fun (path, text) => (Path.place path, text))

/-- Whether a file or folder is inside of a place. -/
def isInside (place inner : Place) : Bool := place.isSuffixOf inner && place != inner

/-- Whether a folder is at a place. The working directory and those above it are there. -/
def isFolder (d : Directory) (place : Place) : Bool :=
  place.all (· == "..") || place ∈ d.folders || d.files.keys.any (isInside place)

/-- Why nothing can be looked up at a place. -/
def blockage (d : Directory) (place : Place) : PathFault :=
  if d.files.has place then .notAFolder else .nothingThere

/-- Follow one name of a path. -/
def enter (d : Directory) (place : Place) (name : String) : Except PathFault Place :=
  if !d.isFolder place then .error (d.blockage place)
  else if Path.isTooLong name then .error .nameTooLong
  else .ok (Path.follow place name)

/-- Follow the names of a path; nothing needs to be where the last one leads. -/
def resolve (d : Directory) (names : List String) : Except PathFault Place :=
  names.foldlM d.enter []

/-- Follow one name as it is spelled, whether something is there or not; a file has nothing in it. -/
def step (d : Directory) (place : Place) (name : String) : Except PathFault Place :=
  let next := Path.follow place name
  if Path.isTooLong name then .error .nameTooLong
  else if d.files.has next.tail then .error .notAFolder
  else .ok next

def spellOut (d : Directory) (path : String) : Except PathFault Place :=
  (Path.names path).foldlM d.step []

/-- The text of the file at a place; none if a file can be made there. -/
def fileAt? (d : Directory) (place : Place) : Except PathFault (Option String) :=
  if d.isFolder place then .error .isAFolder
  else
    match d.files.get? place with
    | some text => .ok (some text)
    | none => if d.isFolder place.tail then .ok none else .error (d.blockage place.tail)

/-! ## Reading -/

def read (d : Directory) (path : String) : Except PathFault String := do
  if Path.hasNul path then throw .nulCharacter
  match ← d.fileAt? (← d.resolve (Path.names path)) with
  | some text => return text
  | none => throw .nothingThere

/-! ## Writing -/

def isThere (d : Directory) (names : List String) : Bool :=
  match d.resolve names with
  | .ok place => d.isFolder place || d.files.has place
  | .error _ => false

/-- Make the folder that some names lead to, unless it is there. -/
def makeFolder (d : Directory) (names : List String) : Except PathFault Directory := do
  if names.any Path.hasNul then throw .nulInFolder
  let place ← d.resolve names
  if d.isFolder place then return d
  else if d.files.has place then throw .fileInTheWay
  else return { d with folders := place :: d.folders }

/-- Make the folders along some names, after those that are followed already. -/
def makeFolders (d : Directory) (followed : List String) : List String → Except PathFault Directory
  | [] => .ok d
  | [name] => d.makeFolder (followed ++ [name])
  | name :: names => do
    let here := followed ++ [name]
    let d ← if d.isThere here then pure d else d.makeFolder here
    makeFolders d here names

/-- Open a file to add text to it. It is made if it is not there, and so are the folders of its path. -/
def openToAppend (d : Directory) (path : String) : Except PathFault Directory := do
  let d ← d.makeFolders [] ((Path.names path).dropLast.filter (· ≠ ""))
  if Path.hasNul path then throw .nulCharacter
  let place ← d.spellOut path
  let text? ← d.fileAt? place
  return { d with files := d.files.put place (text?.getD "") }

end Directory

end RuleTrader
