import PolyBot.General.AdditiveRuns
import PolyBot.General.Replay
import PolyBot.General.CappedLog
import PolyBot.General.KeyedStore
import PolyBot.General.Excess
import PolyBot.Types
import PolyBot.Ledger.Positions
import PolyBot.Ledger.Cash
import PolyBot.Ledger.Orders
import PolyBot.Ledger.Ledger
import PolyBot.Ledger.Runs
import PolyBot.Ledger.FillReplay
import PolyBot.Ledger.CashFlow
import PolyBot.Ledger.ReservedCash
import PolyBot.Risk.CircuitBreaker
import PolyBot.Risk.RateLimiter
import PolyBot.Strategy.Traits
import PolyBot.Strategy.Router
import PolyBot.State.OrderBook
import PolyBot.Strategy.EdgeCalculator
import PolyBot.Strategy.MarketPair
import PolyBot.Strategy.ArbSizing
import PolyBot.Strategy.MathArb
import PolyBot.Strategy.MakerRebateArb
import PolyBot.Execution.Policy
import PolyBot.Execution.Quantizer
import PolyBot.Execution.Executor
import PolyBot.Orchestrator.Execution
import PolyBot.Execution.Legs
import PolyBot.Execution.PartialFillActions
import PolyBot.Execution.GroupBalance
import PolyBot.Ledger.PositionIdentity
import PolyBot.Execution.UnwindSize
import PolyBot.Execution.ArbLegSizes
import PolyBot.Execution.UnwindAdmission
import PolyBot.Orchestrator.LiveBot
import PolyBot.Orchestrator.OpenOrderAccounting
import PolyBot.Risk.ReconnectCauses
import PolyBot.Risk.HaltLatch
import PolyBot.Orchestrator.Reports
import PolyBot.Orchestrator.Recovery
import PolyBot.Orchestrator.RejectRate
import PolyBot.Sync.CashSync
import PolyBot.Sync.OrderSync
import PolyBot.Sync.PositionSync
import PolyBot.Sync.Redemption
import PolyBot.General.DecimalText
import PolyBot.Websocket.User
import PolyBot.Orchestrator.RecentTrades
import PolyBot.Strategy.Exits
import PolyBot.Strategy.Contrarian
import PolyBot.Strategy.TboTrend
import PolyBot.Strategy.LateEntry
import PolyBot.Strategy.TbtDivergence
import PolyBot.Orchestrator.ExitControl
import PolyBot.Ledger.CashRuns
import PolyBot.General.DualIndex
import PolyBot.Ledger.OrderIndexes
import PolyBot.Ledger.OrderLifecycle
import PolyBot.Ledger.OrderAudit
import PolyBot.Ledger.ServerCancel
import PolyBot.Orchestrator.StartupImport
import PolyBot.Strategy.ArbCaps
import PolyBot.General.Ladder
import PolyBot.State.BookUpdates
import PolyBot.Strategy.ArbProfit
import PolyBot.State.BookRefinement
import PolyBot.Execution.OrderTracker
import PolyBot.Execution.TrackerIndexes
import PolyBot.Execution.TrackerArrivals
import PolyBot.General.TimeWindows
import PolyBot.Risk.RateWindows
import PolyBot.Risk.RateRefusals
import PolyBot.Risk.Reconciliation
import PolyBot.Risk.ReconciliationRuns
import PolyBot.Websocket.MakerTrades
import PolyBot.Orchestrator.MarketRefresh
import PolyBot.Orchestrator.TradeReplay
import PolyBot.Strategy.Subscriptions
import PolyBot.Orchestrator.MarketDelivery
import PolyBot.Strategy.MakerEdge
import PolyBot.Strategy.MakerTtl
import PolyBot.Ledger.MarkToMarket
import PolyBot.Orchestrator.PaperTrading
import PolyBot.Orchestrator.PaperArb
import PolyBot.Risk.PositionLimit
import PolyBot.Orchestrator.MainLoop
import PolyBot.Strategy.AllStrategies
import PolyBot.Orchestrator.Controls
import PolyBot.Orchestrator.Handlers
import PolyBot.Orchestrator.Pause
import PolyBot.Orchestrator.DailyLoss
import PolyBot.Strategy.BetCaps
import PolyBot.Orchestrator.BetLimit
import PolyBot.Execution.ExchangeRules
import PolyBot.Execution.FillAccounting
import PolyBot.Feeds.PriceWindow
import PolyBot.General.LinkedIndex
import PolyBot.Risk.BreakerEpisodes
import PolyBot.Strategy.RegistryCoherence
import PolyBot.Websocket.Discovery
import PolyBot.General.Cooldown
import PolyBot.Strategy.Entries
import PolyBot.Strategy.StrategyRuns
import PolyBot.Strategy.CooldownRuns
import PolyBot.Strategy.ExitRuns
import PolyBot.Strategy.ForeignFills
import PolyBot.Strategy.OrderTicks
import PolyBot.Execution.LotBounds
import PolyBot.Strategy.Conflicts
import PolyBot.Strategy.PostedPrices
import PolyBot.Strategy.RouterOrder
import PolyBot.General.Streaks
import PolyBot.Strategy.TrackingRuns
import PolyBot.Strategy.SpentCooldowns
import PolyBot.Strategy.TemporalMirror
import PolyBot.Strategy.Breakouts
import PolyBot.Strategy.Divergences
import PolyBot.Strategy.EdgeChecks
import PolyBot.General.FirstVisits
import PolyBot.Risk.UnhedgedExposure
import PolyBot.State.MalformedLevels
import PolyBot.Orchestrator.KillWakeUp
import PolyBot.Ledger.CostBasis
import PolyBot.General.GainsAndLosses
import PolyBot.Strategy.RsiBounds
import PolyBot.General.CheckedDivision
import PolyBot.Strategy.CheckedArbs
import PolyBot.Strategy.CheckedExits
import PolyBot.Strategy.CheckedEntries
import PolyBot.Strategy.CheckedDivergences
import PolyBot.Strategy.CheckedLateEntry
import PolyBot.Websocket.CryptoIntervals
import PolyBot.Orchestrator.ZeroDivisors
import PolyBot.Execution.Cancellation
import PolyBot.Execution.CancellationRuns
import PolyBot.General.Episodes
import PolyBot.Orchestrator.Heartbeats
import PolyBot.Websocket.MarketDiscovery
import PolyBot.Orchestrator.DiscoveryRuns
import PolyBot.Feeds.BinanceFeed
import PolyBot.Feeds.AssetSymbols
import PolyBot.General.Subscription
import PolyBot.State.ExchangeBooks
import PolyBot.Orchestrator.FeedDelivery
import PolyBot.Orchestrator.StrategySwitches
import PolyBot.State.BookViews
import PolyBot.Orchestrator.Diagnostics
import PolyBot.Orchestrator.BookLog
import PolyBot.Orchestrator.StrategyCounts
import PolyBot.Orchestrator.Startup
import PolyBot.Ledger.ReportedPnl
import PolyBot.General.Latch
import PolyBot.Risk.LimitRuns
import PolyBot.Orchestrator.PaperPnl
import PolyBot.General.Deadlines
import PolyBot.Orchestrator.LoopTimers
import PolyBot.Sync.OrderSyncPass
