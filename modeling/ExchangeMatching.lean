import ExchangeMatching.Refinement
import ExchangeMatching.Reservations
import ExchangeMatching.Ledger
import ExchangeMatching.Lifecycle
import ExchangeMatching.Solvency
import ExchangeMatching.Uncrossed
import ExchangeMatching.Limits
import ExchangeMatching.MakerSearch
import ExchangeMatching.Notifications
import ExchangeMatching.Deadlocks
import ExchangeMatching.Orders
import ExchangeMatching.OrderForm
import ExchangeMatching.Delivery
import ExchangeMatching.RealtimeDeadlines
import ExchangeMatching.Dispatchers
import ExchangeMatching.MarketViews
import ExchangeMatching.ExactArithmetic
import ExchangeMatching.BalanceGuards
import ExchangeMatching.DisplayFormat
import ExchangeMatching.Login
import ExchangeMatching.AuditRuns
import ExchangeMatching.RealtimeGateway
import ExchangeMatching.Views
import ExchangeMatching.IdealExchange
import ExchangeMatching.Requests
import ExchangeMatching.TradePriority
import ExchangeMatching.LevelSelection
import ExchangeMatching.Sessions
import ExchangeMatching.Recovery
import ExchangeMatching.BolderOrders
import ExchangeMatching.RealtimePipeline
import ExchangeMatching.PageCoherence
