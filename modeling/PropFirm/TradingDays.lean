import PropFirm.Schema

/-!
# Trading days and the consistency rule

Everything the challenge rules read off an account's history is an aggregate of its closed rows,
grouped by the UTC day they closed on. The aggregates take the closed rows themselves, so that they
can be read off a committed state and off a state that is about to be written alike.
-/

namespace PropFirm

def Db.closedTrades (db : Db) (accountId : Nat) : List Trade := db.tradesOf accountId .closed

def secondsPerDay : Nat := 86400

def utcDayStart (now : Nat) : Nat := now / secondsPerDay * secondsPerDay

/-- `DATE(close_time AT TIME ZONE 'UTC')`. -/
def Trade.closeDay (t : Trade) : Option Nat := t.closeTime.map (· / secondsPerDay)

/-- `SUM(demo_pnl)`, which skips nulls. -/
def sumDemoPnl (trades : List Trade) : Cents := (trades.map fun t => t.demoPnl.getD 0).sum

/-- `getTodayRealizedPnl` for one account; an account with no row today reads as zero. -/
def getTodayRealizedPnl (closed : List Trade) (now : Nat) : Cents :=
  sumDemoPnl (closed.filter fun t => t.closeTime.any (utcDayStart now ≤ ·))

def closeDays (closed : List Trade) : List (Option Nat) := (closed.map Trade.closeDay).dedup

/-- `SUM(demo_pnl)` of one group of the daily aggregation. -/
def dayPnl (closed : List Trade) (day : Option Nat) : Cents :=
  sumDemoPnl (closed.filter fun t => t.closeDay = day)

def countTradingDays (closed : List Trade) : Nat :=
  ((closeDays closed).filter Option.isSome).length

/-- Days whose net profit reached `minDailyProfitPct` percent of the starting balance; without a
positive threshold or balance, every trading day counts. -/
def countQualifyingTradingDays (closed : List Trade) (startingBalance : Cents)
    (minDailyProfitPct : Option ℚ) : Nat :=
  match minDailyProfitPct with
  | none => countTradingDays closed
  | some threshold =>
    if startingBalance ≤ 0 ∨ threshold ≤ 0 then countTradingDays closed
    else ((closeDays closed).filter fun day =>
      threshold ≤ (dayPnl closed day).dollars / startingBalance.dollars * 100).length

/-- The best day's profit, zero when no day closed with one. -/
def getBestDayProfit (closed : List Trade) : Cents :=
  ((closeDays closed).map (dayPnl closed)).foldl max 0

/-- `checkConsistencyRule(…).ok`: no day's profit exceeds `consistencyPct` percent of the total. -/
def checkConsistencyRule (closed : List Trade) (totalProfit : Cents) (consistencyPct : ℚ) : Bool :=
  if consistencyPct ≤ 0 ∨ totalProfit ≤ 0 then true
  else (getBestDayProfit closed).dollars / totalProfit.dollars * 100 ≤ consistencyPct

/-! ### The pass rules -/

/-- The profit target in force: an unset one is ten percent of the starting balance. -/
def Account.effectiveProfitTarget (acc : Account) : ℚ :=
  if acc.profitTarget ≤ 0 then acc.startingBalance.dollars * (1 / 10) else acc.profitTarget.dollars

def Account.realisedProfit (acc : Account) : Cents := acc.currentBalance - acc.startingBalance

def Account.targetReached (acc : Account) : Bool :=
  acc.effectiveProfitTarget ≤ acc.realisedProfit.dollars

/-- Enough qualifying trading days, when the account's model asks for any. -/
def Account.tradingDaysMet (acc : Account) (closed : List Trade) : Bool :=
  let minTradingDays := acc.minTradingDays.getD 0
  minTradingDays ≤ 0 ∨
    minTradingDays ≤ countQualifyingTradingDays closed acc.startingBalance acc.minDailyProfitPct

/-- The consistency rule, when the account's model has one. -/
def Account.consistencyMet (acc : Account) (closed : List Trade) : Bool :=
  match acc.consistencyMaxDayPct with
  | none => true
  | some consistencyPct =>
    consistencyPct ≤ 0 ∨ checkConsistencyRule closed acc.realisedProfit consistencyPct

end PropFirm
