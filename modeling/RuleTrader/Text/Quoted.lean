import RuleTrader.Text.Printable

/-!
# Code units and quoted texts

JSON text may write half of a pair of code units by itself. A half is no character, so a text keeps it
as a character of the last plane for private use, and whoever writes the text out again gets the half
back. The characters that keep halves, `U+10D800` to `U+10DFFF`, are not told apart from the same
characters in a text that has no halves.

A text is shown inside a message between single quotes, or between double quotes when it holds a single
quote and no double one. The backslash and the quote in use are escaped, the characters that cannot be
printed are written by their code point in hexadecimal. Bytes are shown in the same way after a `b`, each
that is no printable ASCII character by its number.
-/

namespace RuleTrader.Text

/-! ## Code units -/

/-- Whether a code unit is half of a pair. -/
def isHalf (u : Nat) : Bool := 0xD800 ≤ u && u ≤ 0xDFFF

/-- The place of the characters that keep halves. -/
def halfPlane : Nat := 0x100000

/-- The character that keeps a half. -/
def keepHalf (u : Nat) : Char := Char.ofNat (halfPlane + u)

/-- The half that a character keeps, if it keeps one. -/
def half? (c : Char) : Option Nat :=
  if halfPlane ≤ c.toNat && isHalf (c.toNat - halfPlane) then some (c.toNat - halfPlane) else none

def codeUnits (c : Char) : List Nat :=
  let n := c.toNat
  match half? c with
  | some u => [u]
  | none =>
    if n < 0x10000 then [n]
    else [0xD800 + (n - 0x10000) / 0x400, 0xDC00 + (n - 0x10000) % 0x400]

/-! ## Quoted texts -/

/-- The hexadecimal digits of `n`, small letters, at least `width` of them. -/
def hexDigits (width n : Nat) : List Char :=
  let ds := Nat.toDigits 16 n
  List.replicate (width - ds.length) '0' ++ ds

/-- The quotation mark that shows a text with the fewest escapes. -/
def quoteMark (cs : List Char) : Char :=
  if cs.contains '\'' && !cs.contains '"' then '"' else '\''

/-- What a backslash makes of a character between two marks, if it has to be escaped by one. -/
def escape? (mark c : Char) : Option (List Char) :=
  if c = mark || c = '\\' then some ['\\', c]
  else if c = '\t' then some ['\\', 't']
  else if c = '\n' then some ['\\', 'n']
  else if c = '\r' then some ['\\', 'r']
  else none

def showCode (n : Nat) : List Char :=
  if n < 0x100 then '\\' :: 'x' :: hexDigits 2 n
  else if n < 0x10000 then '\\' :: 'u' :: hexDigits 4 n
  else '\\' :: 'U' :: hexDigits 8 n

def showChar (mark c : Char) : List Char :=
  match escape? mark c, half? c with
  | some cs, _ => cs
  | none, some u => showCode u
  | none, none => if isPrintable c then [c] else showCode c.toNat

def quoted (s : String) : String :=
  let cs := s.toList
  let mark := quoteMark cs
  String.ofList (mark :: cs.flatMap (showChar mark) ++ [mark])

def byteChar (b : UInt8) : Char := Char.ofNat b.toNat

def showByte (mark : Char) (b : UInt8) : List Char :=
  match escape? mark (byteChar b) with
  | some cs => cs
  | none => if 0x20 ≤ b && b < 0x7F then [byteChar b] else showCode b.toNat

def quotedBytes (bs : List UInt8) : String :=
  let mark := quoteMark (bs.map byteChar)
  String.ofList ('b' :: mark :: bs.flatMap (showByte mark) ++ [mark])

end RuleTrader.Text
