import RuleTrader.Session.Fleet
import RuleTrader.Store.Demo

/-!
# Watching a session

A fleet with one session is looked at again and again, until the session has run the ticks that are
asked for or has stopped. To try things out, the price of the demo instrument is moved by a small
random step whenever the session has run on since the last look.
-/

namespace RuleTrader

/-- A fleet on the durable store whose first session is watched. -/
structure Watch where
  fleet : Fleet DurableStore Int
  config : Config
  maxTicks? : Option Int := none
  /-- Whether the price of the demo instrument is moved. -/
  moving : Bool := false
  price : Int := Demo.startPrice
  /-- The ticks that were seen when the price was moved last. -/
  seen : Nat := 0
  steps : RandomSource

namespace Watch

/-- The longest time between two looks. -/
def longestPause : Micros := 250000

/-- The least time that a session is given to stop at the end. -/
def leastPatience : Micros := 5000000

/-- The most that the price moves at once. -/
def widestStep : Int := 150

def session? (w : Watch) : Option (Session Int) := w.fleet.pool.sessions.head?

def ticks (w : Watch) : Nat := (w.session?.map (·.ticks)).getD 0

/-- Whether there is nothing left to wait for. -/
def isDone (w : Watch) : Bool :=
  w.session?.all fun s => s.status == .stopped || w.maxTicks?.any (· ≤ s.ticks)

/-- The time from one look to the next. -/
def pause (w : Watch) : Micros := min longestPause (Config.spanOf w.config.tickInterval)

/-- Move the price, if the session has run on; the price stays positive. -/
def movePrice (w : Watch) : Watch :=
  if w.moving && w.seen < w.ticks then
    let (step, steps) := w.steps.between (-widestStep) widestStep
    let price := max 1 (w.price + step)
    let store := (w.fleet.store.setPrice Demo.instrumentId (.int price)).2
    { w with price, steps, seen := w.ticks, fleet := { w.fleet with store } }
  else w

def look (w : Watch) : Watch :=
  let w := w.movePrice
  { w with fleet := w.fleet.pause w.pause }

/-- Look until there is nothing left to wait for, or until a number of looks is used up. -/
def looks : Nat → Watch → Watch
  | 0, w => w
  | n + 1, w => if w.isDone then w else looks n w.look

/-- The looks that fall into a rest after a tick. -/
def looksInRest (w : Watch) : Nat :=
  match w.config.restAfter 0 with
  | .ok span => (span / w.pause).toNat + 2
  | .error _ => 2

/-- The looks in which the ticks that are asked for are run. -/
def enough (w : Watch) : Nat := ((w.maxTicks?.getD 0).toNat + 1) * w.looksInRest

/-- Ask the session to stop and wait until it has. -/
def finish (w : Watch) : Watch :=
  { w with
    fleet := w.fleet.shutDown
      (some (max leastPatience (2 * Config.spanOf w.config.tickInterval))) }

end Watch

end RuleTrader
