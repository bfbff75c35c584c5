/-!
# Text from bytes

The UTF-8 encoding read strictly: no overlong form, no surrogate, nothing past `U+10FFFF`. A byte
string that is not well formed is refused for the reason that its first bad sequence shows.
-/

namespace RuleTrader.Text

/-- Why a byte string is not UTF-8. -/
inductive Utf8Fault where
  | badStart
  | badContinuation
  | endOfData
  deriving DecidableEq, Repr

def Utf8Fault.message : Utf8Fault → String
  | .badStart => "invalid start byte"
  | .badContinuation => "invalid continuation byte"
  | .endOfData => "unexpected end of data"

def isContinuation (b : UInt8) : Bool := 0x80 ≤ b && b < 0xC0

/-- Whether `b` may follow the first byte of a sequence. -/
def mayFollow (start b : UInt8) : Bool :=
  isContinuation b &&
    (if start = 0xE0 then 0xA0 ≤ b
    else if start = 0xED then b < 0xA0
    else if start = 0xF0 then 0x90 ≤ b
    else if start = 0xF4 then b < 0x90
    else true)

/-- The six bits that a continuation byte carries. -/
def payload (b : UInt8) : Nat := b.toNat % 64

/-- The characters of a byte string. -/
def decodeUtf8 : List UInt8 → Except Utf8Fault (List Char)
  | [] => .ok []
  | a :: rest =>
    if a < 0x80 then (Char.ofNat a.toNat :: ·) <$> decodeUtf8 rest
    else if a < 0xC2 then .error .badStart
    else if a < 0xE0 then
      match rest with
      | [] => .error .endOfData
      | b :: rest =>
        if mayFollow a b then
          (Char.ofNat (a.toNat % 32 * 64 + payload b) :: ·) <$> decodeUtf8 rest
        else .error .badContinuation
    else if a < 0xF0 then
      match rest with
      | [] => .error .endOfData
      | [b] => .error (if mayFollow a b then .endOfData else .badContinuation)
      | b :: c :: rest =>
        if mayFollow a b && isContinuation c then
          (Char.ofNat ((a.toNat % 16 * 64 + payload b) * 64 + payload c) :: ·) <$> decodeUtf8 rest
        else .error .badContinuation
    else if a < 0xF5 then
      match rest with
      | [] => .error .endOfData
      | [b] => .error (if mayFollow a b then .endOfData else .badContinuation)
      | [b, c] => .error (if mayFollow a b && isContinuation c then .endOfData else .badContinuation)
      | b :: c :: d :: rest =>
        if mayFollow a b && isContinuation c && isContinuation d then
          (Char.ofNat (((a.toNat % 8 * 64 + payload b) * 64 + payload c) * 64 + payload d) :: ·)
            <$> decodeUtf8 rest
        else .error .badContinuation
    else .error .badStart

end RuleTrader.Text
