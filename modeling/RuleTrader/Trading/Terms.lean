import RuleTrader.Market.Basic
import RuleTrader.Random.Source
import RuleTrader.Rule.Condition

/-!
# The terms of an order

How many shares an order is for and at which price, from the parameters of the decision. Without a
usable size the quantity is drawn; without a usable price the bot's preset gives one. Whatever the
parameters say, an order is for at least one share at a price of at least one cent.
-/

namespace RuleTrader.Terms

variable {α : Type} [Amount α]

/-- The number that a parameter is, if it is finite; a truth value is none. -/
def finiteNumber? : Value → Except NumberFault (Option Number)
  | .number x => do
    if ← x.isFinite then return some x else return none
  | _ => .ok none

/-! ## Quantity -/

def drawnQuantity : Int × Int := (1, 5)

/-- So many percent of a number, rounded down, but at least one. -/
def percentOf (whole percent : Number) : Except NumberFault Int := do
  return max 1 (← Number.floorFloat (← Number.divide (← Number.mul whole percent) 100))

/-- The number of shares that a size is a percentage of: what the money buys, or what is held. -/
def sizeBase (side : Side) (balance price shares : α) : Except NumberFault Number :=
  match side with
  | .buy => do
    let price ← Amount.atLeast 1 price
    Number.floorDivide (← Amount.toNumber balance) (← Amount.toNumber price)
  | .sell => Amount.toNumber shares

def quantity (decision : Decision) (side : Side) (balance price shares : α)
    (random : RandomSource) : Except NumberFault Int × RandomSource :=
  match finiteNumber? (decision.parameter "sizePct") with
  | .error fault => (.error fault, random)
  | .ok (some percent) =>
    (do percentOf (← sizeBase side balance price shares) percent, random)
  | .ok none =>
    let (n, random) := random.between drawnQuantity.1 drawnQuantity.2
    (.ok n, random)

/-! ## Limit price -/

/-- The part of the price by which the random preset moves away from it. -/
def randomSpread : Float := 0.02

/-- The product of a price and a factor, rounded down. -/
def scaled (price : α) (factor : Float) : Except NumberFault Int := do
  Number.floorFloat ((← (← Amount.toNumber price).toFloat) * factor)

/-- The price moved by a number of percent, rounded down. -/
def movedByPercent (price : α) (percent : Number) : Except NumberFault Int := do
  scaled price (1 + (← Number.divide percent 100))

/-- The price moved by a number of cents, rounded down. -/
def movedBy (price : α) (offset : Number) : Except NumberFault Int := do
  (← Number.add (← Amount.toNumber price) offset).floor

/-- The price of the random preset: above or below the current price by the spread, at even odds. -/
def randomPrice (side : Side) (price : α) (random : RandomSource) :
    Except NumberFault α × RandomSource :=
  match scaled price randomSpread with
  | .error fault => (.error fault, random)
  | .ok buffer =>
    let (draw, random) := random.unit
    let eager : Bool := draw < 0.5
    (match side, eager with
      | .buy, true | .sell, false => Amount.add price (Amount.ofInt buffer)
      | .buy, false | .sell, true => Amount.sub price (Amount.ofInt buffer), random)

def presetPrice (preset : Preset) (side : Side) (price : α) (random : RandomSource) :
    Except NumberFault α × RandomSource :=
  match preset with
  | .random => randomPrice side price random
  | .momentum | .swing => (.ok price, random)

/-- The price that the parameters name, if they name one. -/
def namedPrice? (kind : Value) (value? : Option Number) (price : α) :
    Option (Except NumberFault α) :=
  match kind, value? with
  | .text "market", _ => some (.ok price)
  | .text "absoluteCents", some x => some (Amount.ofInt <$> x.floor)
  | .text "offsetAbsolute", some x => some (Amount.ofInt <$> movedBy price x)
  | .text "offsetPct", some x => some (Amount.ofInt <$> movedByPercent price x)
  | _, _ => none

/-- The limit price of an order, before it is raised to the least price. -/
def limitPrice (decision : Decision) (side : Side) (preset? : Option String) (price : α)
    (random : RandomSource) : Except NumberFault α × RandomSource :=
  match finiteNumber? (decision.parameter "limitPriceValue") with
  | .error fault => (.error fault, random)
  | .ok value? =>
    match namedPrice? (decision.parameter "limitPriceType") value? price with
    | some result => (result, random)
    | none => presetPrice (.ofName preset?) side price random

end RuleTrader.Terms
