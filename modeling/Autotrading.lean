import Autotrading.Program
import Autotrading.Machine
import Autotrading.KeyedTable
import Autotrading.Python
import Autotrading.OrderState
import Autotrading.KisMessages
import Autotrading.OrderTable
import Autotrading.World
import Autotrading.KisOrder
import Autotrading.OrderRepository
import Autotrading.KillSwitch
import Autotrading.ProcessOrder
import Autotrading.TrackingSnapshot
import Autotrading.ProcessOrderStatus
import Autotrading.OrderRouter
import Autotrading.Recovery
import Autotrading.OrderGenerator
import Autotrading.Pipeline
import Autotrading.Conduct
import Autotrading.SubmissionCalls
import Autotrading.SubmissionConduct
import Autotrading.TrackingConduct
import Autotrading.SystemConduct
import Autotrading.StoreEffects
import Autotrading.SystemRules
import Autotrading.TerminalOrders
import Autotrading.BrokerReports
import Autotrading.ParentAdjustment
import Autotrading.OrderRetries
import Autotrading.StrandedOrders
import Autotrading.DryRunOrders
import Autotrading.StaleTracking
import Autotrading.EndedOrders
import Autotrading.RebalanceSnapshot
import Autotrading.TrackingChains
import Autotrading.TrackingEnds
import Autotrading.GateConduct
import Autotrading.GateExclusion
import Autotrading.LostOrders
import Autotrading.BrokerAnswers
import Autotrading.RateLimits
import Autotrading.AcceptedOrders
import Autotrading.TrackingCycle
import Autotrading.LifeCycle
import Autotrading.TimedOutOrders
import Autotrading.MomentumStrategy
import Autotrading.PiotroskiMomentum
import Autotrading.PositionDiff
import Autotrading.RebalanceExecutor
import Autotrading.DataFailures
import Autotrading.OrderQuantities
import Autotrading.RebalanceRun
import Autotrading.SingleSnapshot
import Autotrading.TrackingDays
import Autotrading.BuyBudget
import Autotrading.RebalanceRecords
import Autotrading.FailedRebalances
import Autotrading.RebalanceLock
import Autotrading.SwitchedRebalances
import Autotrading.StoppedAutomation
import Autotrading.CompletedRebalances
import Autotrading.PositionPlan
import Autotrading.BuyRecalculation
import Autotrading.UnfilledCancels
import Autotrading.FillReports
import Autotrading.DistributedLock
import Autotrading.LockExclusion
import Autotrading.AuthService
import Autotrading.TokenReturns
import Autotrading.TokenRefresh
import Autotrading.SingleIssuance
import Autotrading.MomentumSelection
import Autotrading.DartStatements
import Autotrading.FScore
import Autotrading.MissingAmounts
import Autotrading.BalanceSheetPoints
import Autotrading.DartCaches
import Autotrading.DefinitiveCaches
import Autotrading.Equity
import Autotrading.RebalanceMonths
import Autotrading.ChildRequests
import Autotrading.DecimalText
import Autotrading.LimitPrices
import Autotrading.PhantomFills
import Autotrading.MissingRow
import Autotrading.BacktestData
import Autotrading.ReversalVolume
import Autotrading.BacktestExecutor
import Autotrading.NoLookAhead
import Autotrading.SwingSteps
import Autotrading.SwingLedger
import Autotrading.SelfFinancing
import Autotrading.StrategyParameters
import Autotrading.EntrySizes
import Autotrading.SwingRecords
import Autotrading.BacktestRunner
import Autotrading.BacktestServices
import Autotrading.Warmup
import Autotrading.FdrProvider
import Autotrading.MetricsAdapters
import Autotrading.Valuation
import Autotrading.RebalanceLooks
import Autotrading.ForgottenSnapshots
import Autotrading.RunningMax
import Autotrading.EquityMetrics
import Autotrading.DrawdownDuration
import Autotrading.PeriodReturns
import Autotrading.TradeMetrics
import Autotrading.MarcapUniverse
import Autotrading.LiveScan
import Autotrading.ScanAgreement
import Autotrading.LiveExecution
import Autotrading.KeyChain
import Autotrading.KisAccount
import Autotrading.IntText
import Autotrading.JsonText
import Autotrading.KisRealtime
import Autotrading.RealtimeMessages
import Autotrading.RealtimeFrames
import Autotrading.RealtimeClient
import Autotrading.Resubscription
import Autotrading.ConnectionManager
import Autotrading.JsonDump
import Autotrading.OrderBroadcast
import Autotrading.OrderPublisher
import Autotrading.RealtimeLifeCycle
import Autotrading.Performance
import Autotrading.PerformanceBounds
import Autotrading.PerformanceFailures
import Autotrading.SortedPages
import Autotrading.NavHistory
import Autotrading.RebalanceHistory
import Autotrading.AccountSize
import Autotrading.BacktestMetrics
import Autotrading.HoldingDays
import Autotrading.MachineSimulation
import Autotrading.RebalanceDetail
import Autotrading.TokenTexts
import Autotrading.FiscalYear
import Autotrading.RebalanceOrders
