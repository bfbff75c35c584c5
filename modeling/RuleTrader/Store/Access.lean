import RuleTrader.Json.Reader
import RuleTrader.Market.Seconds
import RuleTrader.Market.Snapshot
import RuleTrader.Trading.Pair

/-!
# Access to a store

The two things that a tick does to a store, whatever the store is: it reads a snapshot, and it sends a
batch. Both may change the store even when they fail. A store that is a database refuses a statement
first, and the fault of the access says what the statement was for.
-/

namespace RuleTrader

/-- Why a database refuses a statement. -/
inductive DatabaseFault where
  | closed
  /-- A row refers to a row that is not there. -/
  | missingReference
  /-- A row has no value in a column that needs one. -/
  | missingValue (column : String)
  | openTransaction
  | sumTooLarge
  deriving DecidableEq, Repr

def DatabaseFault.message : DatabaseFault → String
  | .closed => "Cannot operate on a closed database."
  | .missingReference => "FOREIGN KEY constraint failed"
  | .missingValue column => "NOT NULL constraint failed: " ++ column
  | .openTransaction => "cannot start a transaction within a transaction"
  | .sumTooLarge => "integer overflow"

/-- Why a query has no answer. -/
inductive QueryFault where
  | database (fault : DatabaseFault)
  | time (fault : Seconds.RowTimeFault)
  deriving DecidableEq, Repr

/-- Why a tick cannot read a store or send to it. -/
inductive StoreFault where
  | fetchFailed (reason : String)
  | applyFailed (reason : String)
  | query (fault : QueryFault)
  | write (fault : DatabaseFault)
  | integerTooLarge
  deriving DecidableEq, Repr

def StoreFault.message : StoreFault → String
  | .fetchFailed reason => "fetch failed: " ++ reason
  | .applyFailed reason => "apply failed: " ++ reason
  | .query (.database fault) => "snapshot query failed: " ++ fault.message
  | .query (.time fault) => fault.message
  | .write fault => "batch write failed: " ++ fault.message
  | .integerTooLarge => "Python int too large to convert to SQLite INTEGER"

/-- Why a change of a database is refused. -/
inductive ChangeFault where
  | database (fault : DatabaseFault)
  | integerTooLarge
  /-- A value is no integer. -/
  | number (fault : NumberFault)
  | rules (fault : JsonFault)
  deriving DecidableEq, Repr

/-- How a store is read and sent to at one moment. -/
structure StoreAccess (σ α : Type) where
  fetch : σ → Except StoreFault (Snapshot α) × σ
  send : Batch α → σ → Except StoreFault Unit × σ

/-- A kind of store that can be accessed at any time, and what its amounts are counted in. -/
class Store (σ : Type) (α : outParam Type) where
  access : Micros → StoreAccess σ α

end RuleTrader
