import RuleTrader.Market.Basic

/-!
# The price tracker

The last prices of each instrument, at most `capacity` of them, and beside them the last price, which
is kept even by a tracker without capacity. The first price of an instrument has no trend.
-/

namespace RuleTrader

/-- The last prices of each instrument. -/
structure PriceTracker (α : Type) where
  capacity : Nat
  lastPrices : Table String α := []
  histories : Table String (List α) := []
  deriving Repr

/-- A price and the one before it, with the history that ends in it. -/
structure Observation (α : Type) where
  current : α
  previous? : Option α
  history : List α
  deriving Repr

def capacityLimit : Nat := 0x7FFFFFFFFFFFFFFF

def defaultCapacity : Nat := 200

namespace PriceTracker

variable {α : Type}

def lastOf (n : Nat) (xs : List α) : List α := xs.drop (xs.length - n)

/-- The prices of an instrument, oldest first. -/
def history (t : PriceTracker α) (instrumentId : String) : List α :=
  (t.histories.get? instrumentId).getD []

/-- Record a price. The first price of an instrument is refused when the capacity is out of reach. -/
def observe (t : PriceTracker α) (instrumentId : String) (price : α) :
    Except NumberFault (Observation α × PriceTracker α) :=
  if !t.histories.has instrumentId && capacityLimit < t.capacity then .error .tooLarge
  else
    let history := lastOf t.capacity (t.history instrumentId ++ [price])
    .ok (⟨price, t.lastPrices.get? instrumentId, history⟩,
      { t with
        lastPrices := t.lastPrices.put instrumentId price
        histories := t.histories.put instrumentId history })

def reset (t : PriceTracker α) : PriceTracker α :=
  { t with lastPrices := [], histories := [] }

end PriceTracker

/-- Whether a price rose or fell. -/
structure Trend where
  isUp : Bool
  isDown : Bool
  deriving DecidableEq, Repr

namespace Trend

variable {α : Type} [Amount α]

/-- The trend from one price to the next. -/
def between (previous current : α) : Except NumberFault Trend := do
  return ⟨← Amount.gt current previous, ← Amount.lt current previous⟩

theorem between_int (previous current : Int) :
    between previous current = .ok ⟨decide (previous < current), decide (current < previous)⟩ := by
  simp [between, bind, Except.bind, pure, Except.pure]

end Trend

namespace Observation

variable {α : Type} [Amount α]

/-- The price before the observed one; a price that is missing counts as none. -/
def before? (o : Observation α) : Option α :=
  o.previous?.filter fun previous => !Amount.isMissing previous

/-- The trend of an observation, if there is a price before it. -/
def trend? (o : Observation α) : Except NumberFault (Option Trend) :=
  match o.before? with
  | none => .ok none
  | some previous => some <$> Trend.between previous o.current

end Observation

/-! ## Capacity -/

/-- Why a capacity is refused. -/
inductive CapacityFault where
  | notPositive
  | number (fault : NumberFault)
  deriving DecidableEq, Repr

def CapacityFault.message : CapacityFault → String
  | .notPositive => "max_history must be positive"
  | .number fault => fault.message

/-- The capacity that a value gives: a positive number, cut to an integer. -/
def PriceTracker.capacityOf (v : Value) : Except CapacityFault Nat :=
  match v.toNumber with
  | .error fault => .error (.number fault)
  | .ok x =>
    if x.le 0 then .error .notPositive
    else Int.toNat <$> x.truncate.mapError .number

end RuleTrader
