import PropFirm.SchedulerLocks
import PropFirm.AccountUids
import PropFirm.TotpThrottle
import PropFirm.AbuseDetector
import PropFirm.PassRates
import PropFirm.CsvExports
import PropFirm.ImageDimensions
import PropFirm.OpposingTrades
import PropFirm.Violations
import PropFirm.TradeRestrictions
import PropFirm.ChartCandles
import PropFirm.FourEyes
import PropFirm.Lib.InFlight
import PropFirm.Lib.Watchdog
import PropFirm.SocketSessions
import PropFirm.PasswordResets
import PropFirm.KycFiles
import PropFirm.TradeStatusMachine
import PropFirm.Ledger
import PropFirm.LotAccounting
import PropFirm.TerminalAccounts
import PropFirm.PassGate
import PropFirm.BreachBoundary
import PropFirm.DailyLoss
import PropFirm.PartialData
import PropFirm.PeakFloor
import PropFirm.PeakFlush
import PropFirm.CapitalMovements
import PropFirm.PayoutFloor
import PropFirm.PayoutRules
import PropFirm.PayoutRuns
import PropFirm.TradeIndex
import PropFirm.OrderFunding
import PropFirm.Reversals
import PropFirm.CapturedPayments
import PropFirm.AccountStatusMachine
import PropFirm.PositionCap
import PropFirm.CloseParity
import PropFirm.TickCoalescing
import PropFirm.TradeIdempotency
import PropFirm.IndexBalance
import PropFirm.DeferredTriggers
import PropFirm.IndexReconcile
import PropFirm.SessionRevocation
import PropFirm.BackupCodes
import PropFirm.KeyRotation
import PropFirm.AuditChain
import PropFirm.AffiliatePayouts
import PropFirm.Promotions
import PropFirm.Scaling
import PropFirm.ResetHistory
import PropFirm.Dashboard
import PropFirm.PurchaseLimits
import PropFirm.CompetitionEntries
import PropFirm.CompetitionFinalization
import PropFirm.PrizeVouchers
import PropFirm.EmailQueue
import PropFirm.Idempotency
import PropFirm.RequestClaims
import PropFirm.ReplayedAnswers
import PropFirm.Lib.Rollup
import PropFirm.HourlyCandles
import PropFirm.Lib.Snapshots
import PropFirm.PriceCache
import PropFirm.RealtimeFanout
import PropFirm.FanoutCluster
import PropFirm.Lib.SqlRows
import PropFirm.StepModelSeeding
import PropFirm.ReferralDiscount
import PropFirm.Lib.RowLocks
import PropFirm.PendingFills
import PropFirm.VoucherRedemption
import PropFirm.RealizedCounter
import PropFirm.StaleQuotes
import PropFirm.Lib.Sweep
import PropFirm.FlattenMarks
import PropFirm.Lib.Joins
import PropFirm.AffiliateBalances
import PropFirm.Lib.Ranking
import PropFirm.BbookMerge
import PropFirm.Lib.WindowRefresh
import PropFirm.AnalyticsRollups
import PropFirm.Lib.JsText
import PropFirm.Lib.BatchQueue
import PropFirm.NotificationDelivery
import PropFirm.FloorTrace
import PropFirm.PartialCloses
import PropFirm.Lib.Sessions
import PropFirm.AutoClose
import PropFirm.FloatingPnl
import PropFirm.EligibilityRules
import PropFirm.Lib.CappedShare
import PropFirm.WithdrawableProfit
import PropFirm.FraudScreen
import PropFirm.CouponRedemptions
import PropFirm.Lib.AbortingTransaction
import PropFirm.VoucherCollisions
import PropFirm.Lib.Matching
import PropFirm.TradeOverlap
import PropFirm.Lib.InsertionMap
import PropFirm.SimultaneousExecution
import PropFirm.Lib.ParentForest
import PropFirm.LinkClusters
import PropFirm.Lib.SeparatedFields
import PropFirm.Lib.IsoDates
import PropFirm.Lib.Doubles
import PropFirm.CertificateSignatures
import PropFirm.Lib.HashChain
import PropFirm.AuditTrail
import PropFirm.Lib.IpAddresses
import PropFirm.ProgressionSettings
import PropFirm.RequestIps
import PropFirm.EquityFanout
import PropFirm.Lib.Utf16
import PropFirm.DeviceSignatures
import PropFirm.MarketData
