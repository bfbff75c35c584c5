import RuleTrader.Market.Amount
import RuleTrader.Text.Character
import RuleTrader.Value.Shown

/-!
# The market

Bots, instruments, orders and positions as plain data. Times are whole microseconds. All of it is
generic in what balances, prices and shares are counted in; money in whole cents is `Int`. The side and
the state of an order can be read from unchecked values: only the text of a name is one.
-/

namespace RuleTrader

/-- The side of an order. -/
inductive Side where
  | buy
  | sell
  deriving DecidableEq, Repr

namespace Side

def name : Side → String
  | .buy => "BUY"
  | .sell => "SELL"

def all : List Side := [.buy, .sell]

def ofName? (s : String) : Option Side := all.find? (·.name == s)

end Side

/-- The state of an order. -/
inductive OrderStatus where
  | opened
  | filled
  | cancelled
  deriving DecidableEq, Repr

namespace OrderStatus

def name : OrderStatus → String
  | .opened => "OPEN"
  | .filled => "FILLED"
  | .cancelled => "CANCELLED"

def all : List OrderStatus := [.opened, .filled, .cancelled]

def ofName? (s : String) : Option OrderStatus := all.find? (·.name == s)

end OrderStatus

/-- A time, or a span of time, in microseconds. Times count from the beginning of 1970. -/
abbrev Micros := Int

/-- A trader account. -/
structure Bot (α : Type) where
  id : String
  balance : α
  strategyId? : Option String := none
  ownerId? : Option String := none
  /-- The name of the preset that prices orders without a price of their own. -/
  preset? : Option String := none
  /-- Whether the account is driven by rules. -/
  automated : Bool := true
  deriving Repr, DecidableEq

/-- Something that is traded. -/
structure Instrument (α : Type) where
  id : String
  symbol : String
  price : α
  deriving Repr, DecidableEq

/-- An order in a store. -/
structure Order (α : Type) where
  id : String
  instrumentId : String
  botId : String
  side : Side
  limitPrice : α
  quantity : α
  createdAt : Micros
  status : OrderStatus := .opened
  deriving Repr, DecidableEq

namespace Order

variable {α : Type}

/-- The money that an order moves, in whole cents. -/
def notional [Amount α] (o : Order α) : Except NumberFault Int := do
  return (← Amount.whole o.limitPrice) * (← Amount.whole o.quantity)

@[simp] theorem notional_int (o : Order Int) : o.notional = .ok (o.limitPrice * o.quantity) := rfl

/-- Whether an order rests in the market. -/
def isOpen (o : Order α) : Bool := o.status == .opened

end Order

/-- The shares of an instrument that a bot holds. -/
structure Position (α : Type) where
  botId : String
  instrumentId : String
  shares : α
  deriving Repr, DecidableEq

/-- The recent trades in an instrument, summed up. -/
structure Aggregate (α : Type) where
  instrumentId : String
  averagePrice : Value
  volume : α
  deriving Repr

/-- An order that has been decided and not stored yet. -/
structure NewOrder (α : Type) where
  instrumentId : String
  botId : String
  side : Side
  limitPrice : α
  quantity : Int
  status : OrderStatus := .opened
  deriving Repr, DecidableEq

namespace NewOrder

variable {α : Type} [Amount α]

/-- The money that a new order takes. -/
def cost (o : NewOrder α) : Except NumberFault α :=
  Amount.mul o.limitPrice (Amount.ofInt o.quantity)

@[simp] theorem cost_int (o : NewOrder Int) : o.cost = .ok (o.limitPrice * o.quantity) := rfl

end NewOrder

/-- The presets for the price of an order. -/
inductive Preset where
  | momentum
  | swing
  | random
  deriving DecidableEq, Repr

namespace Preset

def name : Preset → String
  | .momentum => "momentum"
  | .swing => "swing"
  | .random => "random"

def all : List Preset := [.momentum, .swing, .random]

/-- The preset of a name, blanks around it and capitals aside; any other name means momentum. No
letter beyond ASCII has a small form among the letters of these names. -/
def ofName (name? : Option String) : Preset :=
  let key := (Text.strip (name?.getD "")).toLower
  (all.find? (·.name == key)).getD .momentum

/-- The preset that an unchecked value names. An empty value and bytes mean momentum; any other value
that is no text names nothing. -/
def ofValue? (v : Value) : Option Preset :=
  if v.isEmpty then some .momentum
  else
    match v with
    | .text s => some (ofName (some s))
    | .bytes _ => some .momentum
    | _ => none

end Preset

/-! ## Names in values -/

/-- Why a value names nothing. The value is kept as a message quotes it. -/
inductive NamingFault where
  | side (quoted : String)
  | status (quoted : String)
  deriving DecidableEq, Repr

def NamingFault.message : NamingFault → String
  | .side quoted => quoted ++ " is not a valid Side"
  | .status quoted => quoted ++ " is not a valid OrderStatus"

/-- What the name in a value means. -/
def Value.named {α : Type} (v : Value) (meaning? : String → Option α)
    (fault : String → NamingFault) : Except NamingFault α :=
  let refusal := fault (v.quoted.toOption.getD "")
  match v with
  | .text name => (meaning? name).elim (.error refusal) .ok
  | _ => .error refusal

/-- The side that a value names. -/
def Side.read (v : Value) : Except NamingFault Side := v.named Side.ofName? .side

/-- The state that a value names. -/
def OrderStatus.read (v : Value) : Except NamingFault OrderStatus :=
  v.named OrderStatus.ofName? .status

theorem Side.read_name (side : Side) : Side.read (.text side.name) = .ok side := by
  cases side <;> rfl

theorem OrderStatus.read_name (status : OrderStatus) :
    OrderStatus.read (.text status.name) = .ok status := by
  cases status <;> rfl

end RuleTrader
