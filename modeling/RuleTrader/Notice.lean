import RuleTrader.Market.Tracker
import RuleTrader.Value.Shown

/-!
# Notices

What the library reports while it works, each as a value, and the line that a log shows for it: its
level, the part that reports it, and the wording.
-/

namespace RuleTrader

/-- How serious a notice is. -/
inductive Severity where
  | debug
  | info
  | warning
  | error
  deriving DecidableEq, Repr

def Severity.name : Severity → String
  | .debug => "DEBUG"
  | .info => "INFO"
  | .warning => "WARNING"
  | .error => "ERROR"

/-- Why a session that was asked to stop is reported. -/
inductive StopFailure where
  /-- It did not stop in time. -/
  | late
  /-- Its loop had ended by a fault. -/
  | number (fault : NumberFault)
  deriving DecidableEq, Repr

def StopFailure.text : StopFailure → String
  | .late => "TimeoutError()"
  | .number fault => fault.faultClass.name ++ "(" ++ Text.quoted fault.message ++ ")"

/-- Something to report. -/
inductive Notice where
  | ruleLeftOut (index : Nat)
  | ruleTooDeep
  | buySkipped (botId instrumentId : String) (cost available : Value)
  | sellSkipped (botId instrumentId : String) (quantity : Int) (owned : Value)
  | nothingToDo (session : String) (bots instruments : Nat)
  | firstPrice (session symbol : String) (price : Value)
  | nextPrice (session symbol : String) (previous current : Value) (trend : Trend)
  | unreadableRules (session strategyId reason : String)
  | rulesFailed (session strategyId : String)
  | pairFailed (session botId instrumentId : String)
  | batchCut (session : String) (total : Nat) (cap dropped : Int)
  | batchSent (session : String) (cancelled inserted : Nat)
  | sessionStarted (session name : String) (ownerId? : Option String) (rules : Nat)
  | sessionNeverStarted (session : String)
  | sessionStopping (session : String)
  | sessionStopped (session : String) (ticks : Nat)
  | tickFailed (session : String)
  | sessionReused (session ownerId : String)
  | stopFailed (session : String) (reason : StopFailure)
  | ruleFileRefused (path reason : String)
  deriving Repr

namespace Notice

def trendSign (t : Trend) : String :=
  if t.isUp then "↑" else if t.isDown then "↓" else "="

def severity : Notice → Severity
  | .ruleLeftOut _ | .ruleTooDeep | .buySkipped .. | .sellSkipped .. | .nothingToDo .. => .debug
  | .firstPrice .. | .nextPrice .. | .sessionReused .. => .debug
  | .batchSent .. | .sessionStarted .. | .sessionNeverStarted _ => .info
  | .sessionStopping _ | .sessionStopped .. => .info
  | .unreadableRules .. | .batchCut .. | .stopFailed .. => .warning
  | .rulesFailed .. | .pairFailed .. | .tickFailed _ | .ruleFileRefused .. => .error

def reporter : Notice → String
  | .ruleLeftOut _ | .ruleTooDeep => "bot_fleet.strategy.parser"
  | .buySkipped .. | .sellSkipped .. => "bot_fleet.orders"
  | .nothingToDo .. | .firstPrice .. | .nextPrice .. | .unreadableRules .. | .rulesFailed ..
  | .pairFailed .. | .batchCut .. | .batchSent .. => "bot_fleet.engine"
  | .sessionStarted .. | .sessionNeverStarted _ | .sessionStopping _ | .sessionStopped ..
  | .tickFailed _ => "bot_fleet.session.bot_session"
  | .sessionReused .. | .stopFailed .. => "bot_fleet.session.manager"
  | .ruleFileRefused .. => "bot_fleet.autorun"

/-- A text that may be missing. -/
def shown (s? : Option String) : String := s?.getD "None"

def message : Notice → String
  | .ruleLeftOut index => s!"Dropping invalid rule index={index}"
  | .ruleTooDeep => "Dropping rule with condition tree nested too deeply"
  | .buySkipped bot instrument cost available =>
    s!"Skip BUY bot={bot} instrument={instrument} cost=" ++ cost.shownOrEmpty
      ++ " available=" ++ available.shownOrEmpty
  | .sellSkipped bot instrument quantity owned =>
    s!"Skip SELL bot={bot} instrument={instrument} qty={quantity} owned=" ++ owned.shownOrEmpty
  | .nothingToDo session bots instruments =>
    s!"Session {session}: nothing to do (bots={bots} instruments={instruments})"
  | .firstPrice session symbol price =>
    s!"Session {session}: first price for {symbol}=" ++ price.shownOrEmpty
  | .nextPrice session symbol previous current trend =>
    s!"Session {session}: {symbol} " ++ previous.shownOrEmpty ++ " -> " ++ current.shownOrEmpty
      ++ " " ++ trendSign trend
  | .unreadableRules session strategy reason =>
    s!"Session {session}: strategy {strategy} has unreadable rules: {reason}"
  | .rulesFailed session strategy =>
    s!"Session {session}: failed loading rules for strategy {strategy}"
  | .pairFailed session bot instrument =>
    s!"Session {session}: failed processing bot={bot} instrument={instrument}"
  | .batchCut session total cap dropped =>
    s!"Session {session}: {total} new orders exceed batch cap {cap}; dropping {dropped}"
  | .batchSent session cancelled inserted =>
    s!"Session {session}: cancelled={cancelled} inserted={inserted}"
  | .sessionStarted session name owner? rules =>
    s!"Session {session} ({name}) started owner=" ++ shown owner? ++ s!" rules={rules}"
  | .sessionNeverStarted session => s!"Session {session} stopped before start"
  | .sessionStopping session => s!"Session {session} stopping"
  | .sessionStopped session ticks => s!"Session {session} stopped after {ticks} ticks"
  | .tickFailed session => s!"Session {session} tick failed"
  | .sessionReused session owner => s!"Reusing session {session} for owner {owner}"
  | .stopFailed session reason => s!"Session {session} did not stop cleanly: " ++ reason.text
  | .ruleFileRefused path reason => s!"Invalid rule set {path}: {reason}"

def line (n : Notice) : String :=
  n.severity.name ++ " " ++ n.reporter ++ ": " ++ n.message

end Notice

end RuleTrader
