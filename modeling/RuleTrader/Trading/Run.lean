import RuleTrader.Store.Access
import RuleTrader.Trading.Tick

/-!
# Running a tick on a store

A tick reads a store, decides, and sends the batch if there is one. It fails when the store refuses
either access or when it cannot decide; what the pairs did to the memory before that is kept.
-/

namespace RuleTrader

/-- Why a tick failed. -/
inductive TickFailure where
  | store (fault : StoreFault)
  | decision (fault : TickFault)
  deriving DecidableEq, Repr

namespace TickFailure

def kind : TickFailure → String
  | .decision (.number fault) => fault.faultClass.name
  | .store (.query (.time fault)) => fault.name
  | .store .integerTooLarge | .decision .historyTooLong => "OverflowError"
  | .store _ => "GatewayError"
  | .decision .capNotWhole => "TypeError"

def message : TickFailure → String
  | .store fault => fault.message
  | .decision (.number fault) => fault.message
  | .decision .historyTooLong => "Python int too large to convert to C ssize_t"
  | .decision .capNotWhole =>
    "slice indices must be integers or None or have an __index__ method"

/-- A failure as the summary of a session shows it. -/
def line (f : TickFailure) : String := f.kind ++ ": " ++ f.message

end TickFailure

/-- What running a tick leaves. -/
structure TickRun (σ α : Type) where
  result : Except TickFailure (TickDecision α)
  store : σ
  memory : TickMemory α
  notices : List Notice := []

namespace Tick

variable {σ α : Type}

/-- Send what was decided, if there is something to send. -/
def send (access : StoreAccess σ α) (setup : TickSetup) (d : TickDecision α) (store : σ) :
    Except TickFailure (TickDecision α) × σ × List Notice :=
  if d.hasBatch then
    match access.send d.batch store with
    | (.ok (), store) => (.ok d, store, [sentNotice setup d])
    | (.error fault, store) => (.error (.store fault), store, [])
  else (.ok d, store, [])

variable [Amount α]

/-- Decide on a snapshot and send the decision. -/
def proceed (access : StoreAccess σ α) (setup : TickSetup) (clock : Except NumberFault Micros)
    (snapshot : Snapshot α) (store : σ) (m : TickMemory α) : TickRun σ α :=
  let outcome := decide setup clock snapshot m
  match outcome.result with
  | .error fault => ⟨.error (.decision fault), store, outcome.memory, outcome.notices⟩
  | .ok d =>
    let (result, store, notices) := send access setup d store
    ⟨result, store, outcome.memory, outcome.notices ++ notices⟩

def run (access : StoreAccess σ α) (setup : TickSetup) (clock : Except NumberFault Micros)
    (store : σ) (m : TickMemory α) : TickRun σ α :=
  match access.fetch store with
  | (.error fault, store) => ⟨.error (.store fault), store, m, []⟩
  | (.ok snapshot, store) => proceed access setup clock snapshot store m

end Tick

end RuleTrader
