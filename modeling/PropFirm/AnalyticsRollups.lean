import Mathlib
import PropFirm.ChallengeOrders
import PropFirm.Lib.SqlRows
import PropFirm.Lib.WindowRefresh
import PropFirm.Payouts

/-!
# The daily rollups

`refreshAnalyticsRollups` deletes a trailing window of three daily tables and inserts it anew from the source
tables. The delete goes by a date of the database session. The filter compares a column without time zone with
that date as a wall clock, and a column with time zone with the session's midnight. The group's day of a column
with time zone is its date in UTC, and of a column without one the session's date of the time read as UTC.

Times are in microseconds and days are counted, both from the epoch. `refreshed_at` is left out.
-/

namespace PropFirm

open Rollup

def dayMicros : ℤ := 24 * 60 * 60 * 1000000

/-- The time zone of a session: the day it has at an instant, and the instant its day begins. -/
structure SessionZone where
  dateOf : ℤ → ℤ
  midnight : ℤ → ℤ

namespace SessionZone

/-- A zone that is always the same time ahead of UTC. -/
def fixed (offset : ℤ) : SessionZone where
  dateOf t := (t + offset) / dayMicros
  midnight d := d * dayMicros - offset

end SessionZone

/-- `timestamp` and `timestamptz`. -/
inductive TimestampType
  | withoutZone
  | withZone
  deriving DecidableEq

structure Stamped (α : Type) where
  time : ℤ
  row : α

/-- A bound on the days or the times that count; without a bound all do. -/
def Since (start : Option ℤ) (t : ℤ) : Prop := ∀ s ∈ start, s ≤ t

instance (start : Option ℤ) : DecidablePred (Since start) := fun t =>
  match start with
  | none => isTrue fun _ h => nomatch h
  | some s => decidable_of_iff (s ≤ t) (by simp only [Since, Option.mem_some_iff, forall_eq'])

@[simp] theorem since_none (t : ℤ) : Since none t := fun _ h => nomatch h

@[simp] theorem since_some {s t : ℤ} : Since (some s) t ↔ s ≤ t := by
  simp only [Since, Option.mem_some_iff, forall_eq']

namespace SessionZone

variable (zone : SessionZone)

/-- The first time of a column that compares as at or after a date. -/
def cutoff : TimestampType → ℤ → ℤ
  | .withoutZone, day => day * dayMicros
  | .withZone, day => zone.midnight day

/-- `(column AT TIME ZONE 'UTC')::date`. -/
def utcDate : TimestampType → ℤ → ℤ
  | .withoutZone, t => zone.dateOf t
  | .withZone, t => t / dayMicros

def Reads (type : TimestampType) (start : Option ℤ) {α : Type} (e : Stamped α) : Prop :=
  Since (start.map (zone.cutoff type)) e.time

instance (type : TimestampType) (start : Option ℤ) {α : Type} :
    DecidablePred (zone.Reads type start (α := α)) := fun e =>
  inferInstanceAs (Decidable (Since (start.map (zone.cutoff type)) e.time))

def dayOf (type : TimestampType) {α : Type} (e : Stamped α) : ℤ := zone.utcDate type e.time

end SessionZone

structure StatTrade where
  accountId : Option ℕ
  instrument : String
  direction : String
  lotSize : ℚ
  openTime : Option ℤ
  closeTime : Option ℤ
  demoPnl : Option ℚ
  brokerPnl : Option ℚ
  commission : Option ℚ
  slippagePips : Option ℚ
  status : TradeStatus

structure RevenueOrder where
  userId : String
  amount : ℚ
  status : OrderStatus
  paidAt : Option ℤ

structure RedeemedDiscount where
  discountAmount : ℚ
  redeemedAt : ℤ

structure EarnedCommission where
  commissionAmount : ℚ
  earnedAt : ℤ

structure RevenuePayout where
  amountPayable : Option ℚ
  status : PayoutStatus
  paidAt : Option ℤ

structure Signup where
  createdAt : Option ℤ
  isBot : Bool

/-- What the refresh reads; of the accounts their ids, which are distinct. -/
structure RollupSources where
  accounts : List ℕ
  trades : List StatTrade
  challengeOrders : List RevenueOrder
  couponRedemptions : List RedeemedDiscount
  affiliateCommissions : List EarnedCommission
  payouts : List RevenuePayout
  users : List Signup

structure AccountDailyStats where
  tradesClosed : ℕ
  wins : ℕ
  losses : ℕ
  grossWin : ℚ
  grossLoss : ℚ
  netPnl : ℚ
  brokerPnl : ℚ
  commission : ℚ
  volumeLots : ℚ
  avgHoldMins : Option ℚ
  maxTradePnl : Option ℚ
  minTradePnl : Option ℚ
  deriving DecidableEq

structure TradeDailyStats where
  tradesClosed : ℕ
  wins : ℕ
  netPnl : ℚ
  brokerPnl : ℚ
  volumeLots : ℚ
  commission : ℚ
  avgHoldMins : Option ℚ
  avgSlippagePips : Option ℚ
  deriving DecidableEq

structure RevenueDaily where
  ordersPaid : ℕ
  grossRevenue : ℚ
  discountTotal : ℚ
  affiliateCommission : ℚ
  payoutsPaid : ℚ
  payoutsCount : ℕ
  newBuyers : ℕ
  returningBuyers : ℕ
  signups : ℕ
  deriving DecidableEq

/-- `ROUND(AVG(..), scale)`. -/
def roundedAvg (scale : ℕ) (xs : List ℚ) : Option ℚ :=
  if xs.isEmpty then none else some (Sql.Number.round scale (xs.sum / xs.length))

namespace StatTrade

abbrev Closed := Stamped StatTrade

def pnls (es : List Closed) : List ℚ := es.filterMap fun e => e.row.demoPnl

def wins (es : List Closed) : List ℚ := (pnls es).filter fun pnl => 0 < pnl

def losses (es : List Closed) : List ℚ := (pnls es).filter fun pnl => pnl < 0

def holdMins (es : List Closed) : List ℚ :=
  es.filterMap fun e => e.row.openTime.map fun opened => ((e.time - opened : ℤ) : ℚ) / 1000000 / 60

/-- `NULLIF(slippage_pips, 0)`. -/
def slippages (es : List Closed) : List ℚ := (es.filterMap fun e => e.row.slippagePips).filter fun pips => pips ≠ 0

def accountDailyStats (es : List Closed) : AccountDailyStats where
  tradesClosed := es.length
  wins := (wins es).length
  losses := (losses es).length
  grossWin := (wins es).sum
  grossLoss := ((losses es).map fun pnl => -pnl).sum
  netPnl := (pnls es).sum
  brokerPnl := (es.filterMap fun e => e.row.brokerPnl).sum
  commission := (es.filterMap fun e => e.row.commission).sum
  volumeLots := (es.map fun e => e.row.lotSize).sum
  avgHoldMins := roundedAvg 2 (holdMins es)
  maxTradePnl := (pnls es).max?
  minTradePnl := (pnls es).min?

def tradeDailyStats (es : List Closed) : TradeDailyStats where
  tradesClosed := es.length
  wins := (wins es).length
  netPnl := (pnls es).sum
  brokerPnl := (es.filterMap fun e => e.row.brokerPnl).sum
  volumeLots := (es.map fun e => e.row.lotSize).sum
  commission := (es.filterMap fun e => e.row.commission).sum
  avgHoldMins := roundedAvg 2 (holdMins es)
  avgSlippagePips := roundedAvg 3 (slippages es)

end StatTrade

namespace RollupSources

variable (db : RollupSources)

def closedTrades : List StatTrade.Closed :=
  db.trades.filterMap fun t => if t.status = .closed then t.closeTime.map fun time => ⟨time, t⟩ else none

/-- The closed trades that join an account, with it. -/
def accountTrades : List (ℕ × StatTrade.Closed) :=
  db.closedTrades.filterMap fun e =>
    e.row.accountId.bind fun accountId => if accountId ∈ db.accounts then some (accountId, e) else none

def paidOrders : List (Stamped RevenueOrder) :=
  db.challengeOrders.filterMap fun o => if o.status = .paid then o.paidAt.map fun time => ⟨time, o⟩ else none

def discounts : List (Stamped RedeemedDiscount) := db.couponRedemptions.map fun r => ⟨r.redeemedAt, r⟩

def commissions : List (Stamped EarnedCommission) := db.affiliateCommissions.map fun c => ⟨c.earnedAt, c⟩

def paidOut : List (Stamped RevenuePayout) :=
  db.payouts.filterMap fun p => if p.status = .paid then p.paidAt.map fun time => ⟨time, p⟩ else none

def signups : List (Stamped Signup) :=
  db.users.filterMap fun u => if u.isBot then none else u.createdAt.map fun time => ⟨time, u⟩

/-- The paid orders of the same user that were paid before. -/
def priorOrders (o : Stamped RevenueOrder) : ℕ :=
  (db.paidOrders.filter fun p => p.row.userId = o.row.userId ∧ p.time < o.time).length

end RollupSources

/-- The five sources of a day's revenue. -/
structure RevenueEntries where
  orders : List (Stamped RevenueOrder)
  discounts : List (Stamped RedeemedDiscount)
  commissions : List (Stamped EarnedCommission)
  paidOut : List (Stamped RevenuePayout)
  signups : List (Stamped Signup)

namespace RevenueEntries

variable (zone : SessionZone) (start : Option ℤ) (es : RevenueEntries)

def since : RevenueEntries where
  orders := es.orders.filter fun e => zone.Reads .withZone start e
  discounts := es.discounts.filter fun e => zone.Reads .withZone start e
  commissions := es.commissions.filter fun e => zone.Reads .withZone start e
  paidOut := es.paidOut.filter fun e => zone.Reads .withoutZone start e
  signups := es.signups.filter fun e => zone.Reads .withoutZone start e

def allDays : List ℤ :=
  es.orders.map (zone.dayOf .withZone) ++ es.discounts.map (zone.dayOf .withZone) ++
    es.commissions.map (zone.dayOf .withZone) ++ es.paidOut.map (zone.dayOf .withoutZone) ++
    es.signups.map (zone.dayOf .withoutZone)

/-- What the sources have on a day. -/
def on (day : ℤ) : RevenueEntries where
  orders := entriesOf (zone.dayOf .withZone) es.orders day
  discounts := entriesOf (zone.dayOf .withZone) es.discounts day
  commissions := entriesOf (zone.dayOf .withZone) es.commissions day
  paidOut := entriesOf (zone.dayOf .withoutZone) es.paidOut day
  signups := entriesOf (zone.dayOf .withoutZone) es.signups day

def revenueDaily (priorOrders : Stamped RevenueOrder → ℕ) : RevenueDaily where
  ordersPaid := es.orders.length
  grossRevenue := (es.orders.map fun o => o.row.amount).sum
  discountTotal := (es.discounts.map fun r => r.row.discountAmount).sum
  affiliateCommission := (es.commissions.map fun c => c.row.commissionAmount).sum
  payoutsPaid := (es.paidOut.filterMap fun p => p.row.amountPayable).sum
  payoutsCount := es.paidOut.length
  newBuyers := (es.orders.filter fun o => priorOrders o = 0).length
  returningBuyers := (es.orders.filter fun o => 0 < priorOrders o).length
  signups := es.signups.length

end RevenueEntries

def RollupSources.revenueEntries (db : RollupSources) : RevenueEntries where
  orders := db.paidOrders
  discounts := db.discounts
  commissions := db.commissions
  paidOut := db.paidOut
  signups := db.signups

/-- `(account_id, trading_date)`. -/
abbrev AccountDay := ℕ × ℤ

/-- `(trading_date, instrument, direction)`. -/
abbrev TradeDay := ℤ × String × String

structure Rollups where
  accountDailyStats : AccountDay → Option AccountDailyStats
  tradeDailyStats : TradeDay → Option TradeDailyStats
  revenueDaily : ℤ → Option RevenueDaily

section Selections

variable (db : RollupSources) (zone : SessionZone) (start : Option ℤ)

def accountDaySelection : Selection AccountDay AccountDailyStats :=
  groups (fun e => (e.1, zone.dayOf .withoutZone e.2)) (fun es => StatTrade.accountDailyStats (es.map Prod.snd))
    (db.accountTrades.filter fun e => zone.Reads .withoutZone start e.2)

def tradeDaySelection : Selection TradeDay TradeDailyStats :=
  groups (fun e => (zone.dayOf .withoutZone e, e.row.instrument, e.row.direction.toUpper))
    StatTrade.tradeDailyStats (db.closedTrades.filter fun e => zone.Reads .withoutZone start e)

def revenueDaySelection : Selection ℤ RevenueDaily where
  keys := (db.revenueEntries.since zone start).allDays zone
  row day := ((db.revenueEntries.since zone start).on zone day).revenueDaily db.priorOrders

def refreshAccountDailyStats (stats : AccountDay → Option AccountDailyStats) :
    Option (AccountDay → Option AccountDailyStats) :=
  refreshWindow (fun k => Since start k.2) (accountDaySelection db zone start) stats

def refreshTradeDailyStats (stats : TradeDay → Option TradeDailyStats) :
    Option (TradeDay → Option TradeDailyStats) :=
  refreshWindow (fun k => Since start k.1) (tradeDaySelection db zone start) stats

def refreshRevenueDaily (revenue : ℤ → Option RevenueDaily) : Option (ℤ → Option RevenueDaily) :=
  refreshWindow (Since start) (revenueDaySelection db zone start) revenue

/-- The transaction; without a start the window is unbounded. -/
def refreshTables (r : Rollups) : Option Rollups := do
  let accountDailyStats ← refreshAccountDailyStats db zone start r.accountDailyStats
  let tradeDailyStats ← refreshTradeDailyStats db zone start r.tradeDailyStats
  let revenueDaily ← refreshRevenueDaily db zone start r.revenueDaily
  some { accountDailyStats, tradeDailyStats, revenueDaily }

end Selections

/-- Another session holds the advisory lock, or an insert met a row of its key. -/
inductive RefreshOutcome
  | skipped
  | refreshed
  | failed
  deriving DecidableEq

def SessionZone.startDate (zone : SessionZone) (now lookbackDays : ℤ) : ℤ := zone.dateOf now - lookbackDays

def refreshAnalyticsRollups (db : RollupSources) (zone : SessionZone) (now lookbackDays : ℤ) (lockFree : Bool)
    (r : Rollups) : RefreshOutcome × Rollups :=
  if lockFree then
    match refreshTables db zone (some (zone.startDate now lookbackDays)) r with
    | some r' => (.refreshed, r')
    | none => (.failed, r)
  else (.skipped, r)

structure Rollups.AgreeOn (days : ℤ → Prop) (r s : Rollups) : Prop where
  account : ∀ accountId day, days day → r.accountDailyStats (accountId, day) = s.accountDailyStats (accountId, day)
  trade : ∀ day key, days day → r.tradeDailyStats (day, key) = s.tradeDailyStats (day, key)
  revenue : ∀ day, days day → r.revenueDaily day = s.revenueDaily day

/-- The refresh succeeds and leaves in its window what a refresh with an unbounded window leaves there, and before
its window what was there; and another one on the same date of the session changes nothing. -/
def RefreshesAsRebuild (db : RollupSources) (zone : SessionZone) (now lookbackDays : ℤ) (r : Rollups) : Prop :=
  ∃ r' full, refreshAnalyticsRollups db zone now lookbackDays true r = (.refreshed, r') ∧
    refreshTables db zone none r = some full ∧
    r'.AgreeOn (fun day => zone.startDate now lookbackDays ≤ day) full ∧
    r'.AgreeOn (fun day => day < zone.startDate now lookbackDays) r ∧
    ∀ later, zone.dateOf later = zone.dateOf now →
      refreshAnalyticsRollups db zone later lookbackDays true r' = (.refreshed, r')

theorem refreshTables_eq_some {db : RollupSources} {zone : SessionZone} {start : Option ℤ} {r r' : Rollups} :
    refreshTables db zone start r = some r' ↔
      refreshAccountDailyStats db zone start r.accountDailyStats = some r'.accountDailyStats ∧
        refreshTradeDailyStats db zone start r.tradeDailyStats = some r'.tradeDailyStats ∧
        refreshRevenueDaily db zone start r.revenueDaily = some r'.revenueDaily := by
  simp only [refreshTables, Option.bind_eq_bind, Option.bind_eq_some_iff, Option.some.injEq]
  constructor
  · rintro ⟨account, haccount, trade, htrade, revenue, hrevenue, rfl⟩
    exact ⟨haccount, htrade, hrevenue⟩
  · rintro ⟨haccount, htrade, hrevenue⟩
    exact ⟨_, haccount, _, htrade, _, hrevenue, rfl⟩

theorem refreshAnalyticsRollups_eq_refreshed {db : RollupSources} {zone : SessionZone} {now lookbackDays : ℤ}
    {r r' : Rollups} :
    refreshAnalyticsRollups db zone now lookbackDays true r = (.refreshed, r') ↔
      refreshTables db zone (some (zone.startDate now lookbackDays)) r = some r' := by
  rw [refreshAnalyticsRollups, if_pos rfl]
  cases refreshTables db zone (some (zone.startDate now lookbackDays)) r with
  | none => simp
  | some s => simp

section Covering

variable {db : RollupSources} {zone : SessionZone} {first : ℤ} {r : Rollups}

/-- Each of the three selections stays inside the window and is complete there. -/
structure RollupSources.Covered (db : RollupSources) (zone : SessionZone) (first : ℤ) : Prop where
  account : Covers (fun k => Since (some first) k.2) (accountDaySelection db zone (some first))
    (accountDaySelection db zone none)
  trade : Covers (fun k => Since (some first) k.1) (tradeDaySelection db zone (some first))
    (tradeDaySelection db zone none)
  revenue : Covers (Since (some first)) (revenueDaySelection db zone (some first)) (revenueDaySelection db zone none)

/-- What a refresh with an unbounded window leaves. -/
def RollupSources.rebuilt (db : RollupSources) (zone : SessionZone) : Rollups where
  accountDailyStats := (accountDaySelection db zone none).find
  tradeDailyStats := (tradeDaySelection db zone none).find
  revenueDaily := (revenueDaySelection db zone none).find

theorem refreshTables_none : refreshTables db zone none r = some (db.rebuilt zone) :=
  refreshTables_eq_some.mpr ⟨refreshWindow_of_forall fun k => since_none k.2,
    refreshWindow_of_forall fun k => since_none k.1, refreshWindow_of_forall since_none⟩

theorem not_since_some {s t : ℤ} : ¬Since (some s) t ↔ t < s := by
  rw [since_some, not_le]

theorem RefreshesAsRebuild.covered {now lookbackDays : ℤ} (hrefresh : RefreshesAsRebuild db zone now lookbackDays r) :
    db.Covered zone (zone.startDate now lookbackDays) := by
  obtain ⟨r', full, hfirst, hfull, hinside, hbefore, hagain⟩ := hrefresh
  rw [refreshTables_none] at hfull
  obtain rfl := Option.some.inj hfull
  obtain ⟨haccount, htrade, hrevenue⟩ := refreshTables_eq_some.mp (refreshAnalyticsRollups_eq_refreshed.mp hfirst)
  obtain ⟨haccount', htrade', hrevenue'⟩ :=
    refreshTables_eq_some.mp (refreshAnalyticsRollups_eq_refreshed.mp (hagain now rfl))
  refine ⟨Rebuilds.covers ⟨haccount, ?_, ?_, haccount'⟩, Rebuilds.covers ⟨htrade, ?_, ?_, htrade'⟩,
    Rebuilds.covers ⟨hrevenue, ?_, ?_, hrevenue'⟩⟩
  · exact fun k hk => hinside.account k.1 k.2 (since_some.mp hk)
  · exact fun k hk => hbefore.account k.1 k.2 (not_since_some.mp hk)
  · exact fun k hk => hinside.trade k.1 k.2 (since_some.mp hk)
  · exact fun k hk => hbefore.trade k.1 k.2 (not_since_some.mp hk)
  · exact fun k hk => hinside.revenue k (since_some.mp hk)
  · exact fun k hk => hbefore.revenue k (not_since_some.mp hk)

theorem RollupSources.Covered.refreshesAsRebuild {now lookbackDays : ℤ}
    (hcovered : db.Covered zone (zone.startDate now lookbackDays)) (r : Rollups) :
    RefreshesAsRebuild db zone now lookbackDays r := by
  obtain ⟨account, haccount⟩ : ∃ store, Rebuilds _ _ _ r.accountDailyStats store :=
    ⟨_, hcovered.account.rebuilds r.accountDailyStats⟩
  obtain ⟨trade, htrade⟩ : ∃ store, Rebuilds _ _ _ r.tradeDailyStats store :=
    ⟨_, hcovered.trade.rebuilds r.tradeDailyStats⟩
  obtain ⟨revenue, hrevenue⟩ : ∃ store, Rebuilds _ _ _ r.revenueDaily store :=
    ⟨_, hcovered.revenue.rebuilds r.revenueDaily⟩
  refine ⟨⟨account, trade, revenue⟩, db.rebuilt zone, ?_, refreshTables_none, ⟨?_, ?_, ?_⟩, ⟨?_, ?_, ?_⟩, ?_⟩
  · exact refreshAnalyticsRollups_eq_refreshed.mpr (refreshTables_eq_some.mpr
      ⟨haccount.refreshed, htrade.refreshed, hrevenue.refreshed⟩)
  · exact fun accountId day hday => haccount.inside (accountId, day) (since_some.mpr hday)
  · exact fun day key hday => htrade.inside (day, key) (since_some.mpr hday)
  · exact fun day hday => hrevenue.inside day (since_some.mpr hday)
  · exact fun accountId day hday => haccount.outside (accountId, day) (not_since_some.mpr hday)
  · exact fun day key hday => htrade.outside (day, key) (not_since_some.mpr hday)
  · exact fun day hday => hrevenue.outside day (not_since_some.mpr hday)
  · intro later hlater
    rw [refreshAnalyticsRollups_eq_refreshed, SessionZone.startDate, hlater]
    exact refreshTables_eq_some.mpr ⟨haccount.again, htrade.again, hrevenue.again⟩

end Covering

section Boundary

variable {α : Type} (zone : SessionZone) (type : TimestampType) (first : ℤ) (es : List (Stamped α))

/-- The filter lets through exactly what the window is to have. -/
def SessionZone.Whole : Prop := ∀ e ∈ es, zone.Reads type (some first) e ↔ first ≤ zone.dayOf type e

def SessionZone.Stays : Prop := ∀ e ∈ es, zone.Reads type (some first) e → first ≤ zone.dayOf type e

/-- What the filter misses on a day of the window adds up to nothing. -/
def SessionZone.MissesNothing (amount : α → ℚ) : Prop :=
  ∀ day, first ≤ day →
    (((entriesOf (zone.dayOf type) es day).filter fun e => ¬zone.Reads type (some first) e).map
      fun e => amount e.row).sum = 0

end Boundary

/-- The cut-off of each source falls between two days, as the groups tell days apart. Coupons and commissions may
fall into the gap when they cancel out and something else of their day is read. -/
structure CutsBetweenDays (db : RollupSources) (zone : SessionZone) (first : ℤ) : Prop where
  trades : zone.Whole .withoutZone first db.closedTrades
  orders : zone.Whole .withZone first db.paidOrders
  paidOut : zone.Whole .withoutZone first db.paidOut
  signups : zone.Whole .withoutZone first db.signups
  discounts_stay : zone.Stays .withZone first db.discounts
  commissions_stay : zone.Stays .withZone first db.commissions
  discounts_missed : zone.MissesNothing .withZone first db.discounts RedeemedDiscount.discountAmount
  commissions_missed : zone.MissesNothing .withZone first db.commissions EarnedCommission.commissionAmount
  days : ∀ day, first ≤ day → day ∈ db.revenueEntries.allDays zone →
    day ∈ (db.revenueEntries.since zone (some first)).allDays zone

section Boundary

variable {α : Type} {zone : SessionZone} {type : TimestampType} {first day : ℤ} {es : List (Stamped α)}
  {db : RollupSources}

theorem SessionZone.Whole.stays (hwhole : zone.Whole type first es) : zone.Stays type first es :=
  fun e he => (hwhole e he).mp

theorem SessionZone.Whole.entriesOf (hwhole : zone.Whole type first es) (hday : first ≤ day) :
    entriesOf (zone.dayOf type) (es.filter fun e => zone.Reads type (some first) e) day =
      entriesOf (zone.dayOf type) es day :=
  entriesOf_filter_of_forall fun e he hgroup => (hwhole e he).mpr (hgroup ▸ hday)

/-- Whoever counts the entries of the window's days sees that none is missed. -/
theorem SessionZone.Whole.of_length (hstays : zone.Stays type first es)
    (hlength : ∀ day, first ≤ day → day ∈ es.map (zone.dayOf type) →
      (Rollup.entriesOf (zone.dayOf type) (es.filter fun e => zone.Reads type (some first) e) day).length =
        (Rollup.entriesOf (zone.dayOf type) es day).length) :
    zone.Whole type first es := by
  intro e he
  refine ⟨hstays e he, fun hday => ?_⟩
  have heq := hlength _ hday (List.mem_map_of_mem he)
  rw [entriesOf_filter] at heq
  exact forall_of_length_filter heq e (mem_entriesOf.mpr ⟨he, rfl⟩)

theorem sum_filter_add_sum_filter_not (p : Stamped α → Prop) [DecidablePred p] (amount : Stamped α → ℚ)
    (es : List (Stamped α)) :
    ((es.filter fun e => p e).map amount).sum + ((es.filter fun e => ¬p e).map amount).sum =
      (es.map amount).sum := by
  rw [← List.sum_append, ← List.map_append]
  refine List.Perm.sum_eq (List.Perm.map amount ?_)
  simpa using List.filter_append_perm (fun e => decide (p e)) es

theorem sum_read_eq_iff (amount : α → ℚ) :
    ((entriesOf (zone.dayOf type) (es.filter fun e => zone.Reads type (some first) e) day).map
        fun e => amount e.row).sum = ((entriesOf (zone.dayOf type) es day).map fun e => amount e.row).sum ↔
      (((entriesOf (zone.dayOf type) es day).filter fun e => ¬zone.Reads type (some first) e).map
        fun e => amount e.row).sum = 0 := by
  have hsplit := sum_filter_add_sum_filter_not (fun e => zone.Reads type (some first) e)
    (fun e => amount e.row) (entriesOf (zone.dayOf type) es day)
  rw [entriesOf_filter, ← hsplit, left_eq_add]

theorem reads_none (e : Stamped α) : zone.Reads type none e := since_none e.time

theorem filter_reads_none : (es.filter fun e => zone.Reads type none e) = es :=
  List.filter_eq_self.mpr fun e _ => decide_eq_true (reads_none e)

theorem since_none_eq (es : RevenueEntries) : es.since zone none = es := by
  simp only [RevenueEntries.since, filter_reads_none]

theorem covers_tradeDay_iff :
    Covers (fun k => Since (some first) k.1) (tradeDaySelection db zone (some first))
        (tradeDaySelection db zone none) ↔ zone.Whole .withoutZone first db.closedTrades := by
  rw [tradeDaySelection, tradeDaySelection, filter_reads_none,
    covers_groups_iff TradeDailyStats.tradesClosed fun _ => rfl]
  simp only [since_some, SessionZone.Whole]

theorem mem_closedTrades_of_mem_accountTrades {e : ℕ × StatTrade.Closed} (he : e ∈ db.accountTrades) :
    e.2 ∈ db.closedTrades := by
  obtain ⟨t, ht, hbind⟩ := List.mem_filterMap.mp he
  obtain ⟨accountId, -, haccount⟩ := Option.bind_eq_some_iff.mp hbind
  obtain ⟨-, rfl⟩ := Option.ite_some_none_eq_some.mp haccount
  exact ht

theorem covers_accountDay (hwhole : zone.Whole .withoutZone first db.closedTrades) :
    Covers (fun k => Since (some first) k.2) (accountDaySelection db zone (some first))
      (accountDaySelection db zone none) := by
  have hall : (db.accountTrades.filter fun e => zone.Reads .withoutZone none e.2) = db.accountTrades :=
    List.filter_eq_self.mpr fun e _ => decide_eq_true (reads_none e.2)
  rw [accountDaySelection, accountDaySelection, hall,
    covers_groups_iff AccountDailyStats.tradesClosed fun es => List.length_map _]
  intro e he
  rw [since_some]
  exact hwhole e.2 (mem_closedTrades_of_mem_accountTrades he)

theorem mem_allDays {es : RevenueEntries} :
    day ∈ es.allDays zone ↔ day ∈ es.orders.map (zone.dayOf .withZone) ∨
      day ∈ es.discounts.map (zone.dayOf .withZone) ∨ day ∈ es.commissions.map (zone.dayOf .withZone) ∨
        day ∈ es.paidOut.map (zone.dayOf .withoutZone) ∨ day ∈ es.signups.map (zone.dayOf .withoutZone) := by
  simp only [RevenueEntries.allDays, List.mem_append, or_assoc]

theorem mem_days_filter_reads {start : Option ℤ} :
    day ∈ (es.filter fun e => zone.Reads type start e).map (zone.dayOf type) ↔
      ∃ e ∈ es, zone.Reads type start e ∧ zone.dayOf type e = day := by
  simp only [List.mem_map, List.mem_filter, decide_eq_true_iff, and_assoc]

theorem SessionZone.Stays.mem_days (hstays : zone.Stays type first es)
    (hmem : day ∈ (es.filter fun e => zone.Reads type (some first) e).map (zone.dayOf type)) : first ≤ day := by
  obtain ⟨e, he, hreads, rfl⟩ := mem_days_filter_reads.mp hmem
  exact hstays e he hreads

theorem SessionZone.Stays.of_days
    (hdays : ∀ day ∈ (es.filter fun e => zone.Reads type (some first) e).map (zone.dayOf type), first ≤ day) :
    zone.Stays type first es :=
  fun e he hreads => hdays _ (mem_days_filter_reads.mpr ⟨e, he, hreads, rfl⟩)

theorem revenueDaySelection_none :
    revenueDaySelection db zone none =
      ⟨db.revenueEntries.allDays zone, fun day => (db.revenueEntries.on zone day).revenueDaily db.priorOrders⟩ := by
  rw [revenueDaySelection, since_none_eq]

theorem mem_days_of_mem_filter_reads {start : Option ℤ}
    (hmem : day ∈ (es.filter fun e => zone.Reads type start e).map (zone.dayOf type)) :
    day ∈ es.map (zone.dayOf type) := by
  obtain ⟨e, he, -, rfl⟩ := mem_days_filter_reads.mp hmem
  exact List.mem_map_of_mem he

theorem mem_allDays_of_mem_since {es : RevenueEntries} {start : Option ℤ}
    (hmem : day ∈ (es.since zone start).allDays zone) : day ∈ es.allDays zone := by
  rw [mem_allDays] at hmem ⊢
  exact hmem.imp mem_days_of_mem_filter_reads (.imp mem_days_of_mem_filter_reads
    (.imp mem_days_of_mem_filter_reads (.imp mem_days_of_mem_filter_reads mem_days_of_mem_filter_reads)))

theorem CutsBetweenDays.stays (hcuts : CutsBetweenDays db zone first)
    (hmem : day ∈ (db.revenueEntries.since zone (some first)).allDays zone) : first ≤ day := by
  rcases mem_allDays.mp hmem with horder | hdiscount | hcommission | hpaid | hsignup
  · exact hcuts.orders.stays.mem_days horder
  · exact hcuts.discounts_stay.mem_days hdiscount
  · exact hcuts.commissions_stay.mem_days hcommission
  · exact hcuts.paidOut.stays.mem_days hpaid
  · exact hcuts.signups.stays.mem_days hsignup

theorem CutsBetweenDays.revenueDaily_eq (hcuts : CutsBetweenDays db zone first) (hday : first ≤ day)
    (priorOrders : Stamped RevenueOrder → ℕ) :
    ((db.revenueEntries.since zone (some first)).on zone day).revenueDaily priorOrders =
      (db.revenueEntries.on zone day).revenueDaily priorOrders := by
  have horders := hcuts.orders.entriesOf hday
  have hpaid := hcuts.paidOut.entriesOf hday
  have hsignups := hcuts.signups.entriesOf hday
  have hdiscounts := sum_read_eq_iff RedeemedDiscount.discountAmount |>.mpr (hcuts.discounts_missed day hday)
  have hcommissions :=
    sum_read_eq_iff EarnedCommission.commissionAmount |>.mpr (hcuts.commissions_missed day hday)
  simp only [RevenueEntries.revenueDaily, RevenueEntries.on, RevenueEntries.since, RollupSources.revenueEntries,
    horders, hpaid, hsignups, hdiscounts, hcommissions]

theorem CutsBetweenDays.covers_revenueDay (hcuts : CutsBetweenDays db zone first) :
    Covers (Since (some first)) (revenueDaySelection db zone (some first)) (revenueDaySelection db zone none) where
  stays _ hmem := since_some.mpr (hcuts.stays hmem)
  agrees day hday := by
    rw [since_some] at hday
    have hkeys : day ∈ (db.revenueEntries.since zone (some first)).allDays zone ↔
        day ∈ db.revenueEntries.allDays zone := ⟨mem_allDays_of_mem_since, hcuts.days day hday⟩
    rw [revenueDaySelection_none]
    simp only [Selection.find, revenueDaySelection, hkeys, hcuts.revenueDaily_eq hday]

theorem cutsBetweenDays_of_covers (htrades : zone.Whole .withoutZone first db.closedTrades)
    (hrevenue : Covers (Since (some first)) (revenueDaySelection db zone (some first))
      (revenueDaySelection db zone none)) :
    CutsBetweenDays db zone first := by
  have hstays : ∀ day ∈ (db.revenueEntries.since zone (some first)).allDays zone, first ≤ day :=
    fun day hmem => since_some.mp (hrevenue.stays day hmem)
  have hdays : ∀ day, first ≤ day → day ∈ db.revenueEntries.allDays zone →
      day ∈ (db.revenueEntries.since zone (some first)).allDays zone := by
    intro day hday hmem
    refine Selection.mem_of_find_eq (hrevenue.agrees day (since_some.mpr hday)) ?_
    rw [revenueDaySelection_none]
    exact hmem
  have hrow : ∀ day, first ≤ day → day ∈ db.revenueEntries.allDays zone →
      ((db.revenueEntries.since zone (some first)).on zone day).revenueDaily db.priorOrders =
        (db.revenueEntries.on zone day).revenueDaily db.priorOrders := by
    intro day hday hmem
    have heq := hrevenue.agrees day (since_some.mpr hday)
    have hall : day ∈ (revenueDaySelection db zone none).keys := by
      rw [revenueDaySelection_none]
      exact hmem
    rw [Selection.find_of_mem (Selection.mem_of_find_eq heq hall), Selection.find_of_mem hall,
      revenueDaySelection_none] at heq
    exact Option.some.inj heq
  simp only [mem_allDays] at hstays
  constructor
  case trades => exact htrades
  case days => exact hdays
  case orders =>
    refine SessionZone.Whole.of_length (.of_days fun day hmem => hstays day (.inl hmem)) ?_
    exact fun day hday hmem => congrArg RevenueDaily.ordersPaid (hrow day hday (mem_allDays.mpr (.inl hmem)))
  case discounts_stay => exact .of_days fun day hmem => hstays day (.inr (.inl hmem))
  case commissions_stay => exact .of_days fun day hmem => hstays day (.inr (.inr (.inl hmem)))
  case paidOut =>
    refine SessionZone.Whole.of_length
      (.of_days fun day hmem => hstays day (.inr (.inr (.inr (.inl hmem))))) ?_
    exact fun day hday hmem =>
      congrArg RevenueDaily.payoutsCount (hrow day hday (mem_allDays.mpr (.inr (.inr (.inr (.inl hmem))))))
  case signups =>
    refine SessionZone.Whole.of_length
      (.of_days fun day hmem => hstays day (.inr (.inr (.inr (.inr hmem))))) ?_
    exact fun day hday hmem =>
      congrArg RevenueDaily.signups (hrow day hday (mem_allDays.mpr (.inr (.inr (.inr (.inr hmem))))))
  case discounts_missed =>
    intro day hday
    by_cases hmem : day ∈ db.discounts.map (zone.dayOf .withZone)
    · exact (sum_read_eq_iff RedeemedDiscount.discountAmount).mp
        (congrArg RevenueDaily.discountTotal (hrow day hday (mem_allDays.mpr (.inr (.inl hmem)))))
    · rw [entriesOf_of_not_mem hmem]
      rfl
  case commissions_missed =>
    intro day hday
    by_cases hmem : day ∈ db.commissions.map (zone.dayOf .withZone)
    · exact (sum_read_eq_iff EarnedCommission.commissionAmount).mp
        (congrArg RevenueDaily.affiliateCommission (hrow day hday (mem_allDays.mpr (.inr (.inr (.inl hmem))))))
    · rw [entriesOf_of_not_mem hmem]
      rfl

theorem covered_iff_cutsBetweenDays : db.Covered zone first ↔ CutsBetweenDays db zone first := by
  constructor
  · intro hcovered
    exact cutsBetweenDays_of_covers (covers_tradeDay_iff.mp hcovered.trade) hcovered.revenue
  · intro hcuts
    exact ⟨covers_accountDay hcuts.trades, covers_tradeDay_iff.mpr hcuts.trades, hcuts.covers_revenueDay⟩

end Boundary

theorem refreshesAsRebuild_iff (db : RollupSources) (zone : SessionZone) (now lookbackDays : ℤ) (r : Rollups) :
    RefreshesAsRebuild db zone now lookbackDays r ↔
      CutsBetweenDays db zone (zone.startDate now lookbackDays) := by
  rw [← covered_iff_cutsBetweenDays]
  exact ⟨fun hrefresh => hrefresh.covered, fun hcovered => hcovered.refreshesAsRebuild r⟩

/-- An order of two in the morning UTC on the window's first day. -/
def nightOrder : RollupSources where
  accounts := []
  trades := []
  challengeOrders := [⟨"buyer", 250, .paid, some (20000 * dayMicros + 2 * 3600 * 1000000)⟩]
  couponRedemptions := []
  affiliateCommissions := []
  payouts := []
  users := []

/-- A database session five hours behind UTC does not read it, and has deleted the day. -/
theorem nightOrder_not_rebuilt :
    ¬RefreshesAsRebuild nightOrder (.fixed (-5 * 3600 * 1000000)) (20007 * dayMicros + 12 * 3600 * 1000000) 7
      ⟨fun _ => none, fun _ => none, fun _ => none⟩ := by
  rintro ⟨r', full, hrefresh, hfull, hinside, -, -⟩
  obtain rfl : _ = r' := congrArg Prod.snd hrefresh
  have hdays := hinside.revenue 20000 (by decide)
  have hrebuilt : (full.revenueDaily 20000).isSome := by
    rw [refreshTables_none] at hfull
    rw [← Option.some.inj hfull]
    decide +kernel
  rw [← hdays] at hrebuilt
  revert hrebuilt
  decide +kernel

section Utc

variable {α : Type} {zone : SessionZone} {type : TimestampType} {first day : ℤ} {es : List (Stamped α)}

theorem SessionZone.Whole.missesNothing (hwhole : zone.Whole type first es) (amount : α → ℚ) :
    zone.MissesNothing type first es amount := by
  intro day hday
  rw [← sum_read_eq_iff, hwhole.entriesOf hday]

theorem SessionZone.Whole.mem_days (hwhole : zone.Whole type first es) (hday : first ≤ day)
    (hmem : day ∈ es.map (zone.dayOf type)) :
    day ∈ (es.filter fun e => zone.Reads type (some first) e).map (zone.dayOf type) := by
  obtain ⟨e, he, rfl⟩ := List.mem_map.mp hmem
  exact mem_days_filter_reads.mpr ⟨e, he, (hwhole e he).mpr hday, rfl⟩

theorem SessionZone.whole_utc (type : TimestampType) (first : ℤ) (es : List (Stamped α)) :
    (SessionZone.fixed 0).Whole type first es := by
  intro e _
  have hpos : 0 < dayMicros := by decide
  cases type with
  | withoutZone =>
    simp only [Reads, Option.map_some, since_some, cutoff, dayOf, utcDate, fixed, add_zero]
    exact (Int.le_ediv_iff_mul_le hpos).symm
  | withZone =>
    simp only [Reads, Option.map_some, since_some, cutoff, dayOf, utcDate, fixed, sub_zero]
    exact (Int.le_ediv_iff_mul_le hpos).symm

/-- In UTC the three notions of a day are one. -/
theorem cutsBetweenDays_utc (db : RollupSources) (first : ℤ) : CutsBetweenDays db (.fixed 0) first where
  trades := SessionZone.whole_utc _ _ _
  orders := SessionZone.whole_utc _ _ _
  paidOut := SessionZone.whole_utc _ _ _
  signups := SessionZone.whole_utc _ _ _
  discounts_stay := (SessionZone.whole_utc _ _ _).stays
  commissions_stay := (SessionZone.whole_utc _ _ _).stays
  discounts_missed := (SessionZone.whole_utc _ _ _).missesNothing _
  commissions_missed := (SessionZone.whole_utc _ _ _).missesNothing _
  days day hday hmem := by
    rw [mem_allDays] at hmem ⊢
    exact hmem.imp ((SessionZone.whole_utc _ _ _).mem_days hday)
      (.imp ((SessionZone.whole_utc _ _ _).mem_days hday) (.imp ((SessionZone.whole_utc _ _ _).mem_days hday)
        (.imp ((SessionZone.whole_utc _ _ _).mem_days hday) ((SessionZone.whole_utc _ _ _).mem_days hday))))

end Utc

end PropFirm
