import RuleTrader.Value

/-!
# The order of values

Numbers are ordered by their exact values, a truth value as `0` or `1`; texts by their characters and
bytes by their numbers; lists, and rows, by their first items that are not equal, and a list that ends
there comes first. Other values have no order, and to ask for one is refused.
-/

namespace RuleTrader

/-- What is asked of two values. -/
inductive OrderSign where
  | less
  | greater
  deriving DecidableEq, Repr

namespace OrderSign

def text : OrderSign → String
  | .less => "<"
  | .greater => ">"

/-- What a sign says of two things of which the first comes first, or comes last. -/
def reads (isFirst isLast : Bool) : OrderSign → Bool
  | .less => isFirst
  | .greater => isLast

def numbers (sign : OrderSign) (x y : Number) : Bool := sign.reads (x.lt y) (y.lt x)

end OrderSign

namespace Value

def byteNumbers (bs : List UInt8) : List Nat := bs.map (·.toNat)

/-- The fault of two values without a common order. -/
def notOrdered (sign : OrderSign) (v w : Value) : NumberFault :=
  .notOrdered sign.text v.kindName w.kindName

def compareNumbers (sign : OrderSign) (v w : Value) : Except NumberFault Bool :=
  match v.asNumber?, w.asNumber? with
  | some x, some y => .ok (sign.numbers x y)
  | _, _ => .error (notOrdered sign v w)

mutual

/-- Whether two values stand in an order. -/
def compare (sign : OrderSign) : Value → Value → Except NumberFault Bool
  | .text s, w => match w with
    | .text t => .ok (sign.reads (s < t) (t < s))
    | w => .error (notOrdered sign (.text s) w)
  | .bytes s, w => match w with
    | .bytes t => .ok (sign.reads (byteNumbers s < byteNumbers t) (byteNumbers t < byteNumbers s))
    | w => .error (notOrdered sign (.bytes s) w)
  | .list vs, w => match w with
    | .list ws => compareItems sign vs ws
    | w => .error (notOrdered sign (.list vs) w)
  | .row vs, w => match w with
    | .row ws => compareItems sign vs ws
    | w => .error (notOrdered sign (.row vs) w)
  | v, w => compareNumbers sign v w

/-- Whether two lists of values stand in an order. -/
def compareItems (sign : OrderSign) : List Value → List Value → Except NumberFault Bool
  | [], ws => .ok (sign.reads (!ws.isEmpty) false)
  | v :: vs, ws => match ws with
    | [] => .ok (sign.reads false true)
    | w :: ws => if v.equal w then compareItems sign vs ws else compare sign v w

end

def lt (v w : Value) : Except NumberFault Bool := compare .less v w

def gt (v w : Value) : Except NumberFault Bool := compare .greater v w

theorem lt_number (x y : Number) : lt (.number x) (.number y) = .ok (x.lt y) := by
  simp [lt, compare, compareNumbers, asNumber?, OrderSign.numbers, OrderSign.reads]

theorem gt_number (x y : Number) : gt (.number x) (.number y) = .ok (y.lt x) := by
  simp [gt, compare, compareNumbers, asNumber?, OrderSign.numbers, OrderSign.reads]

end Value

end RuleTrader
