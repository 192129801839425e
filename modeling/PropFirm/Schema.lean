import PropFirm.PnlCalculator
import PropFirm.Lib.Table

/-!
# Accounts, trades and the ledger

The rows the engines and request handlers share. `Db` holds one committed state: the `accounts`,
`trades` and `challenge_models` tables and the append-only `balance_adjustments` ledger. Two logs
the code does not keep are carried along to state what a run has done: `booked` records what each
close priced and credited, beside what the locked row held at that moment, and `openedLots` the size
every position was opened with.

Times are seconds since the epoch, read off one clock, and a UTC day is their quotient by 86400.
Percentages and lots are exact rationals.
-/

namespace PropFirm

inductive AccountType
  | phase1 | phase2 | phase3 | funded | competition
  deriving DecidableEq, Repr

inductive AccountStatus
  | active | passed | failed | expired | locked | cancelled | closed
  deriving DecidableEq, Repr

inductive TradeStatus
  | pending | opened | closed | cancelled
  deriving DecidableEq, Repr

inductive OrderType
  | market | buyLimit | sellLimit | buyStop | sellStop
  deriving DecidableEq, Repr

structure Account where
  id : Nat
  accountType : AccountType
  status : AccountStatus
  challengeModelSlug : Option String
  startingBalance : Cents
  currentBalance : Cents
  peakBalance : Cents
  profitTarget : Cents
  maxDrawdownPct : ℚ
  dailyDrawdownPct : Option ℚ
  minTradingDays : Option Int
  minDailyProfitPct : Option ℚ
  consistencyMaxDayPct : Option ℚ
  eodPeakEquity : Option Cents
  eodTrailingFloor : Option Cents
  phaseEndDate : Option Nat
  deriving DecidableEq

instance : Keyed Account Nat := ⟨Account.id⟩

structure AccountTerms where
  accountType : AccountType
  challengeModelSlug : Option String
  startingBalance : Cents
  profitTarget : Cents
  maxDrawdownPct : ℚ
  dailyDrawdownPct : Option ℚ
  minTradingDays : Option Int
  minDailyProfitPct : Option ℚ
  consistencyMaxDayPct : Option ℚ
  phaseEndDate : Option Nat

/-- A freshly provisioned account: active, at its starting balance, its anchors unset. -/
def AccountTerms.provision (terms : AccountTerms) (id : Nat) : Account where
  id := id
  accountType := terms.accountType
  status := .active
  challengeModelSlug := terms.challengeModelSlug
  startingBalance := terms.startingBalance
  currentBalance := terms.startingBalance
  peakBalance := terms.startingBalance
  profitTarget := terms.profitTarget
  maxDrawdownPct := terms.maxDrawdownPct
  dailyDrawdownPct := terms.dailyDrawdownPct
  minTradingDays := terms.minTradingDays
  minDailyProfitPct := terms.minDailyProfitPct
  consistencyMaxDayPct := terms.consistencyMaxDayPct
  eodPeakEquity := none
  eodTrailingFloor := none
  phaseEndDate := terms.phaseEndDate

/-- The terms concrete runs vary: a ten thousand dollar evaluation account with an 8% target, a 10%
maximum and a 5% daily drawdown. -/
def sampleTerms : AccountTerms where
  accountType := .phase1
  challengeModelSlug := none
  startingBalance := 1000000
  profitTarget := 80000
  maxDrawdownPct := 10
  dailyDrawdownPct := some 5
  minTradingDays := none
  minDailyProfitPct := none
  consistencyMaxDayPct := none
  phaseEndDate := none

/-- A row of `trades`. Every insert of the program writes `commission`. -/
structure Trade where
  id : Nat
  accountId : Nat
  instrument : Instrument
  direction : Direction
  orderType : OrderType
  lotSize : ℚ
  commission : Cents
  status : TradeStatus
  openPrice : Option ℚ
  openTime : Option Nat
  stopLoss : Option ℚ
  takeProfit : Option ℚ
  pendingPrice : Option ℚ
  ocoGroupId : Option Nat
  parentTradeId : Option Nat
  pendingClosePrice : Option ℚ
  pendingCloseReason : Option String
  closePrice : Option ℚ
  closeTime : Option Nat
  closeReason : Option String
  demoPnl : Option Cents
  deriving DecidableEq

instance : Keyed Trade Nat := ⟨Trade.id⟩

/-- The columns of `challenge_models` that a funded account's limits come from. -/
structure StepModel where
  slug : String
  fundedMaxDrawdownPct : ℚ
  fundedDailyDrawdownPct : ℚ
  fundedDrawdownLocksAtPct : Option ℚ
  deriving DecidableEq

instance : Keyed StepModel String := ⟨StepModel.slug⟩

structure Adjustment where
  accountId : Nat
  amount : Cents
  balanceBefore : Cents
  balanceAfter : Cents
  deriving DecidableEq

/-- The inputs a close priced a position with. -/
structure PricedAt where
  fx : FxSource
  direction : Direction
  instrument : Instrument
  openPrice : ℚ
  closePrice : ℚ

/-- What one close booked: the lots, commission and profit it computed with, and the lots and
commission the locked row gave up. `priced` is absent for a position settled flat. -/
structure Booking where
  tradeId : Nat
  positionId : Nat
  accountId : Nat
  lots : ℚ
  commission : Cents
  pnl : Cents
  heldLots : ℚ
  heldCommission : Cents
  priced : Option PricedAt

structure OpenedLots where
  positionId : Nat
  lots : ℚ

structure Db where
  accounts : Table Account
  trades : Table Trade
  models : Table StepModel
  adjustments : List Adjustment
  booked : List Booking
  openedLots : List OpenedLots

namespace Db

/-- The database of a tenant with the given models and nobody trading yet. -/
def initial (models : Table StepModel) : Db :=
  ⟨Table.empty, Table.empty, models, [], [], []⟩

def account? (db : Db) (id : Nat) : Option Account := db.accounts.find? id

def trade? (db : Db) (id : Nat) : Option Trade := db.trades.find? id

def tradesOf (db : Db) (accountId : Nat) (status : TradeStatus) : List Trade :=
  db.trades.rows.filter fun t => t.accountId = accountId ∧ t.status = status

def fetchStepModelBySlug (db : Db) (slug : String) : Option StepModel := db.models.find? slug

theorem trade?_eq_some {db : Db} {id : Nat} {t : Trade} :
    db.trade? id = some t ↔ t ∈ db.trades.rows ∧ t.id = id :=
  Table.find?_eq_some

theorem account?_eq_some {db : Db} {id : Nat} {a : Account} :
    db.account? id = some a ↔ a ∈ db.accounts.rows ∧ a.id = id :=
  Table.find?_eq_some

theorem trade?_id {db : Db} {id : Nat} {t : Trade} (ht : db.trade? id = some t) : t.id = id :=
  (trade?_eq_some.mp ht).2

theorem account?_id {db : Db} {id : Nat} {a : Account} (ha : db.account? id = some a) : a.id = id :=
  (account?_eq_some.mp ha).2

theorem mem_tradesOf {db : Db} {accountId : Nat} {status : TradeStatus} {t : Trade} :
    t ∈ db.tradesOf accountId status ↔
      t ∈ db.trades.rows ∧ t.accountId = accountId ∧ t.status = status := by
  simp [tradesOf]

end Db

/-! ### Row updates -/

namespace Account

/-- `current_balance = current_balance + $1`, raising `peak_balance` with it. -/
def credited (amount : Cents) : Table.Rewrite Account where
  apply a :=
    { a with
      currentBalance := a.currentBalance + amount
      peakBalance := max a.peakBalance (a.currentBalance + amount) }
  key_apply _ := rfl

def withStatus (status : AccountStatus) : Table.Rewrite Account where
  apply a := { a with status := status }
  key_apply _ := rfl

end Account

namespace Trade

/-- Close the row. Some of the updates also clear the recorded deferred trigger. -/
def closedAt (closePrice : Option ℚ) (pnl : Cents) (reason : String) (now : Nat) (clearDeferred : Bool) :
    Table.Rewrite Trade where
  apply t :=
    { t with
      status := .closed
      closePrice := closePrice
      closeTime := some now
      demoPnl := some pnl
      closeReason := some reason
      pendingClosePrice := if clearDeferred then none else t.pendingClosePrice
      pendingCloseReason := if clearDeferred then none else t.pendingCloseReason }
  key_apply _ := rfl

def cancelledAt (reason : String) (now : Nat) : Table.Rewrite Trade where
  apply t := { t with status := .cancelled, closeTime := some now, closeReason := some reason }
  key_apply _ := rfl

def filledAt (openPrice : ℚ) (now : Nat) : Table.Rewrite Trade where
  apply t :=
    { t with status := .opened, openPrice := some openPrice, openTime := some now, closeReason := none }
  key_apply _ := rfl

def resized (lotSize : ℚ) (commission : Cents) : Table.Rewrite Trade where
  apply t := { t with lotSize := lotSize, commission := commission }
  key_apply _ := rfl

def deferredTo (level : ℚ) (reason : String) : Table.Rewrite Trade where
  apply t := { t with pendingClosePrice := some level, pendingCloseReason := some reason }
  key_apply _ := rfl

end Trade

end PropFirm
