import RuleTrader.Session.Basic

/-!
# The summary of a session

What is shown of a session, as named fields. Times are written out as a date and a time of day, in
universal time, and the span of the last tick is in whole milliseconds.
-/

namespace RuleTrader

namespace Calendar

/-- The digits of a number, with zeros in front up to a width. -/
def padded (width n : Nat) : String :=
  let digits := toString n
  String.ofList (List.replicate (width - digits.length) '0') ++ digits

def Date.text (d : Date) : String :=
  padded 4 d.year.toNat ++ "-" ++ padded 2 d.month ++ "-" ++ padded 2 d.day

/-- The text of a time of day in microseconds; microseconds are shown only if there are any. -/
def timeText (t : Nat) : String :=
  let seconds := t / 1000000
  let micros := t % 1000000
  padded 2 (seconds / 3600) ++ ":" ++ padded 2 (seconds / 60 % 60) ++ ":" ++ padded 2 (seconds % 60)
    ++ (if micros = 0 then "" else "." ++ padded 6 micros)

def text (t : Micros) : String :=
  (dateOfDay (t / dayMicros)).text ++ "T" ++ timeText (t % dayMicros).toNat ++ "+00:00"

example : text 1704067200010000 = "2024-01-01T00:00:00.010000+00:00" := by decide +kernel

end Calendar

namespace Session

/-- A time that may be missing, written out. -/
def shownTime (t? : Option Micros) : Value := .ofText? (t?.map Calendar.text)

/-- A span in whole milliseconds, a half to the even neighbour. -/
def millis (span : Micros) : Int := Binary64.roundQuotient span.toNat 1000

/-- The fields that are shown of a session. -/
def summary {α : Type} (s : Session α) : List (String × Value) := [
  ("id", .text s.id),
  ("name", .text s.name),
  ("ownerId", .ofText? s.ownerId?),
  ("status", .text s.status.name),
  ("createdAt", .text (Calendar.text s.createdAt)),
  ("startedAt", shownTime s.startedAt?),
  ("stoppedAt", shownTime s.stoppedAt?),
  ("lastTickAt", shownTime s.lastTickAt?),
  ("lastTickDurationMs", (s.lastTickSpan?.map fun span => Value.int (millis span)).getD .null),
  ("ticks", .int s.ticks),
  ("lastError", .ofText? (s.lastFailure?.map (·.line))),
  ("rulesCount", .int s.rules.length)]

end Session

end RuleTrader
