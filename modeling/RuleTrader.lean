import RuleTrader.Main
import RuleTrader.Store.Memory
import RuleTrader.Text.Capital
import RuleTrader.Proofs.Market.Organized
import RuleTrader.Proofs.Trading.Loop
import RuleTrader.Proofs.Trading.Accounting
import RuleTrader.Proofs.Trading.Placement
import RuleTrader.Proofs.Store.Memory
import RuleTrader.Proofs.Store.Desk
import RuleTrader.Proofs.Rule.Sites
import RuleTrader.Proofs.Store.Atomicity
import RuleTrader.Proofs.Rule.Containment
import RuleTrader.Proofs.Rule.Boundary
import RuleTrader.Proofs.Session.Lifecycle
import RuleTrader.Proofs.Trading.Renaming
import RuleTrader.Proofs.Store.Share
import RuleTrader.Proofs.Store.Seed
import RuleTrader.Proofs.Store.Alike
import RuleTrader.Proofs.Store.Isolation
import RuleTrader.Proofs.Json.Writing
import RuleTrader.Proofs.Rule.RoundTrip
import RuleTrader.Proofs.Session.Frame
import RuleTrader.Proofs.Session.Simulation
import RuleTrader.Proofs.Session.Course
import RuleTrader.Proofs.Number.Bits
import RuleTrader.Proofs.Number.Rounding
import RuleTrader.Proofs.Number.Shortest
import RuleTrader.Proofs.Json.Numeral
import RuleTrader.Proofs.Json.Escape
import RuleTrader.Proofs.Json.Reading
import RuleTrader.Proofs.Market.Tracker
import RuleTrader.Proofs.Indicator.Window
import RuleTrader.Proofs.Indicator.BlockSum
import RuleTrader.Proofs.Indicator.Facts
import RuleTrader.Proofs.Indicator.History
import RuleTrader.Proofs.Rule.Reads
import RuleTrader.Proofs.Trading.Supply
import RuleTrader.Proofs.Trading.Observation
import RuleTrader.Proofs.Trading.Validity
import RuleTrader.Proofs.Trading.Agreement
import RuleTrader.Proofs.Trading.Separation
import RuleTrader.Proofs.Store.Refusal
import RuleTrader.Proofs.Store.OrderLife
import RuleTrader.Proofs.Session.Registry
import RuleTrader.Proofs.Json.Sorting
import RuleTrader.Proofs.Rule.Reordered
import RuleTrader.Proofs.Trading.Valued
import RuleTrader.Proofs.Trading.Counterpart
import RuleTrader.Proofs.Store.Mirror
import RuleTrader.Proofs.Store.Driven
import RuleTrader.Proofs.Rule.Polarity
import RuleTrader.Proofs.Trading.Failure
import RuleTrader.Proofs.Trading.Spared
import RuleTrader.Proofs.Trading.Following
import RuleTrader.Proofs.Session.Scope
import RuleTrader.Proofs.Rule.Truth
import RuleTrader.Proofs.Trading.Conduct
import RuleTrader.Proofs.Trading.Idle
import RuleTrader.Proofs.Trading.Draws
import RuleTrader.Proofs.Trading.Age
import RuleTrader.Proofs.Number.Sum
import RuleTrader.Proofs.Number.Order
import RuleTrader.Proofs.Number.Sign
import RuleTrader.Proofs.Trading.Pricing
import RuleTrader.Proofs.Trading.Sizing
import RuleTrader.Proofs.Market.SlidingWindow
import RuleTrader.Proofs.Indicator.Strength
import RuleTrader.Proofs.Indicator.Totality
import RuleTrader.Proofs.Market.Listing
import RuleTrader.Proofs.Market.Scoping
import RuleTrader.Proofs.Store.StoredRules
import RuleTrader.Proofs.Store.Closure
import RuleTrader.Proofs.Store.OrderNames
import RuleTrader.Proofs.Indicator.Spelling
