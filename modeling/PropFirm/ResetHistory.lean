import PropFirm.AdminOverrides
import PropFirm.DailyLoss
import PropFirm.DayAggregates
import PropFirm.Lib.ClosedLoop

/-!
# What a reset forgets

`resetToStarting` restarts the account's balance and its drawdown frame. The history rules read the
`trades` table, and none of their queries has a lower bound at the reset: the daily loss sums the
whole UTC day, the qualifying days and the best day range over every closed row, and the inactivity
rule takes the latest time of any row. So an account comes out of a reset with the days it went in
with, and what `processAccount` and `checkFloatingDrawdown` decide about it depends on them wherever
a rule that reads them is in force.
-/

namespace PropFirm

/-! ### An account after its reset -/

/-- `MAX(GREATEST(open_time, close_time))`, a missing time counting for nothing. -/
def lastTradeActivity (trades : List Trade) : Option Nat :=
  (trades.flatMap fun t => t.openTime.toList ++ t.closeTime.toList).max?

def getLastTradeActivityAt (trades : List Trade) (fallbackDate : Nat) : Nat :=
  (lastTradeActivity trades).getD fallbackDate

theorem lastTradeActivity_append_congr {first second : List Trade}
    (hsame : lastTradeActivity first = lastTradeActivity second) (rest : List Trade) :
    lastTradeActivity (first ++ rest) = lastTradeActivity (second ++ rest) := by
  unfold lastTradeActivity at hsame ⊢
  rw [List.flatMap_append, List.flatMap_append]
  generalize first.flatMap (fun t => t.openTime.toList ++ t.closeTime.toList) = times₁ at hsame ⊢
  generalize second.flatMap (fun t => t.openTime.toList ++ t.closeTime.toList) = times₂ at hsame ⊢
  cases times₁ with
  | nil =>
    cases times₂ with
    | nil => rfl
    | cons y ys => cases hsame
  | cons x xs =>
    cases times₂ with
    | nil => cases hsame
    | cons y ys =>
      rw [List.max?_cons', List.max?_cons'] at hsame
      rw [List.cons_append, List.cons_append, List.max?_cons', List.max?_cons', List.foldl_append,
        List.foldl_append, Option.some.inj hsame]

/-- The trades an account had closed when it was reset. -/
structure Past (accountId resetAt : Nat) where
  trades : List Trade
  closed : ∀ t ∈ trades, t.accountId = accountId ∧ t.status = .closed ∧
    ∃ closeTime ≤ resetAt, t.closeTime = some closeTime

/-- A moment after the reset: everything stored but the past, the settings and prices the engines find,
and the date `processAccount` falls back to for an account that never traded. -/
structure Moment (accountId resetAt : Nat) where
  db : Db
  platform : PlatformSettings
  market : Market
  fallbackDate : Nat
  now : Nat
  after : resetAt ≤ now
  recent : ∀ t ∈ db.closedTrades accountId, ∀ closeTime, t.closeTime = some closeTime → resetAt ≤ closeTime

/-- What `processAccount` and `checkFloatingDrawdown` do about the account. -/
structure Decisions where
  engine : Option SettleKind
  interval : Option Verdict
  deriving DecidableEq

namespace Past

variable {accountId resetAt : Nat} (past : Past accountId resetAt) (m : Moment accountId resetAt)

/-- The closed rows the aggregates range over. -/
def closedTrades : List Trade := past.trades ++ m.db.closedTrades accountId

def reads : ProcessReads where
  lastActivityAt := some (getLastTradeActivityAt
    (past.trades ++ m.db.trades.rows.filter fun t => t.accountId = accountId) m.fallbackDate)
  todayRealized := getTodayRealizedPnl (past.closedTrades m) m.now
  openTrades := m.db.tradesOf accountId .opened
  daysRead := past.closedTrades m
  bestDayRead := past.closedTrades m

/-- Both engines load active accounts only, and the interval path those with open positions. -/
def decisions : Decisions :=
  match (m.db.account? accountId).filter fun acc => acc.status = .active with
  | none => ⟨none, none⟩
  | some acc =>
    let openTrades := m.db.tradesOf accountId .opened
    { engine :=
        processAccount (processAccountLimits m.db m.platform acc) m.platform acc (past.reads m) m.now
      interval :=
        if openTrades = [] then none
        else checkFloatingDrawdown (checkFloatingDrawdownLimits m.db acc) acc
          (floatingPnl m.market openTrades) (past.reads m).todayRealized }

/-- On a state whose `trades` table holds the past and the rest, these are the reads of the engine. -/
theorem reads_eq_processReads {full : Db} (hrows : full.trades.rows = past.trades ++ m.db.trades.rows) :
    full.processReads accountId (some (getLastTradeActivityAt
      (full.trades.rows.filter fun t => t.accountId = accountId) m.fallbackDate)) m.now = past.reads m := by
  have hclosed : past.trades.filter (fun t => t.accountId = accountId ∧ t.status = .closed)
      = past.trades :=
    List.filter_eq_self.mpr fun t ht => by
      obtain ⟨hacc, hstatus, _⟩ := past.closed t ht
      simp [hacc, hstatus]
  have hopened : past.trades.filter (fun t => t.accountId = accountId ∧ t.status = .opened) = [] :=
    List.filter_eq_nil_iff.mpr fun t ht => by
      obtain ⟨_, hstatus, _⟩ := past.closed t ht
      simp [hstatus]
  have hall : past.trades.filter (fun t => t.accountId = accountId) = past.trades :=
    List.filter_eq_self.mpr fun t ht => by simp [(past.closed t ht).1]
  unfold Db.processReads reads closedTrades Db.closedTrades Db.tradesOf
  rw [hrows, List.filter_append, List.filter_append, List.filter_append, hclosed, hopened, hall,
    List.nil_append]

/-! ### What a rule sees of the past -/

def resetDay (_ : Past accountId resetAt) : Option Nat := some (resetAt / secondsPerDay)

/-- What the account had realised on the reset's own day. -/
def resetDayPnl : Cents := dayPnl past.trades past.resetDay

def onResetDay : List Trade := past.trades.filter fun t => t.closeDay = past.resetDay

/-- The closed rows of the days before. -/
def earlier : List Trade := past.trades.filter fun t => t.closeDay ≠ past.resetDay

end Past

/-- The rules that read an account's trades. -/
inductive HistoryRule
  | inactivity | dailyLoss | tradingDays | consistency
  deriving DecidableEq

namespace HistoryRule

variable {accountId resetAt : Nat}

def InForce (m : Moment accountId resetAt) (acc : Account) : HistoryRule → Prop
  | inactivity =>
    acc.accountType ≠ .funded ∧ m.platform.inactivityAutoFailEnabled ∧ 0 < m.platform.inactivityFailDays
  | dailyLoss =>
    0 < acc.startingBalance ∧
      ((processAccountLimits m.db m.platform acc).dailyDrawdownPct.any (0 < ·) ∨
        (checkFloatingDrawdownLimits m.db acc).dailyDrawdownPct.any (0 < ·))
  | tradingDays => acc.accountType ≠ .funded ∧ 0 < acc.minTradingDays.getD 0
  | consistency => acc.accountType ≠ .funded ∧ acc.consistencyMaxDayPct.any (0 < ·)

/-- The rule sees the same of both pasts. -/
def SeesSame (past₁ past₂ : Past accountId resetAt) : HistoryRule → Prop
  | inactivity => lastTradeActivity past₁.trades = lastTradeActivity past₂.trades
  | dailyLoss => past₁.resetDayPnl = past₂.resetDayPnl
  | tradingDays =>
    past₁.resetDayPnl = past₂.resetDayPnl ∧ (past₁.onResetDay = [] ↔ past₂.onResetDay = []) ∧
      ∀ startingBalance minDailyProfitPct,
        countQualifyingTradingDays past₁.earlier startingBalance minDailyProfitPct
          = countQualifyingTradingDays past₂.earlier startingBalance minDailyProfitPct
  | consistency =>
    past₁.resetDayPnl = past₂.resetDayPnl ∧
      getBestDayProfit past₁.earlier = getBestDayProfit past₂.earlier

end HistoryRule

/-- No rule outside the set is in force on the account. -/
def Moment.Under {accountId resetAt : Nat} (rules : Set HistoryRule) (m : Moment accountId resetAt) :
    Prop :=
  ∀ acc, m.db.account? accountId = some acc → ∀ rule, HistoryRule.InForce m acc rule → rule ∈ rules

/-! ### The past splits at the day of the reset -/

namespace Past

variable {accountId resetAt : Nat} (past : Past accountId resetAt) (m : Moment accountId resetAt)

theorem closedTrades_perm :
    (past.closedTrades m).Perm (past.earlier ++ (past.onResetDay ++ m.db.closedTrades accountId)) := by
  have hsplit : (past.onResetDay ++ past.earlier).Perm past.trades := by
    have h := List.filter_append_perm (fun t : Trade => decide (t.closeDay = past.resetDay)) past.trades
    simp only [← decide_not] at h
    exact h
  rw [← List.append_assoc]
  exact (hsplit.symm.trans List.perm_append_comm).append_right _

theorem lt_of_mem_earlier {t : Trade} (ht : t ∈ past.earlier) :
    ∃ day < resetAt / secondsPerDay, t.closeDay = some day := by
  obtain ⟨ht, hday⟩ := List.mem_filter.mp ht
  obtain ⟨_, _, closeTime, hle, hclose⟩ := past.closed t ht
  have hcloseDay : t.closeDay = some (closeTime / secondsPerDay) := by rw [Trade.closeDay, hclose]; rfl
  refine ⟨closeTime / secondsPerDay, lt_of_le_of_ne (Nat.div_le_div_right hle) fun heq => ?_, hcloseDay⟩
  simp [hcloseDay, resetDay, heq] at hday

theorem mem_closeDays_onResetDay {day : Option Nat} :
    day ∈ closeDays past.onResetDay ↔ day = past.resetDay ∧ past.onResetDay ≠ [] := by
  rw [mem_closeDays]
  have hday : ∀ t ∈ past.onResetDay, t.closeDay = past.resetDay := fun t ht => by
    simpa using (List.mem_filter.mp ht).2
  constructor
  · rintro ⟨t, ht, rfl⟩
    exact ⟨hday t ht, List.ne_nil_of_mem ht⟩
  · rintro ⟨rfl, hsome⟩
    obtain ⟨t, ht⟩ := List.exists_mem_of_ne_nil _ hsome
    exact ⟨t, ht, hday t ht⟩

theorem dayPnl_onResetDay (day : Option Nat) :
    dayPnl past.onResetDay day = if day = past.resetDay then past.resetDayPnl else 0 := by
  split_ifs with hday
  · rw [hday, dayPnl, onResetDay, List.filter_filter, resetDayPnl, dayPnl]
    simp
  · exact dayPnl_of_notMem fun hmem => hday (past.mem_closeDays_onResetDay.mp hmem).1

/-- Nothing after the reset closes on a day before it. -/
theorem disjoint_days (day : Option Nat) (hday : day ∈ closeDays past.earlier) :
    day ∉ closeDays (past.onResetDay ++ m.db.closedTrades accountId) := by
  obtain ⟨t, ht, rfl⟩ := mem_closeDays.mp hday
  obtain ⟨day, hlt, hday⟩ := past.lt_of_mem_earlier ht
  rw [hday, mem_closeDays]
  rintro ⟨s, hs, hclose⟩
  rcases List.mem_append.mp hs with hs | hs
  · have hon : s.closeDay = past.resetDay := by simpa using (List.mem_filter.mp hs).2
    rw [hon, resetDay, Option.some.injEq] at hclose
    omega
  · obtain ⟨closeTime, htime, rfl⟩ := Option.map_eq_some_iff.mp hclose
    have hle := Nat.div_le_div_right (c := secondsPerDay) (m.recent s hs closeTime htime)
    omega

theorem countQualifyingTradingDays_closedTrades (startingBalance : Cents)
    (minDailyProfitPct : Option ℚ) :
    countQualifyingTradingDays (past.closedTrades m) startingBalance minDailyProfitPct
      = countQualifyingTradingDays past.earlier startingBalance minDailyProfitPct
        + countQualifyingTradingDays (past.onResetDay ++ m.db.closedTrades accountId) startingBalance
          minDailyProfitPct := by
  have hperm := past.closedTrades_perm m
  rw [countQualifyingTradingDays_congr (mem_closeDays_perm hperm) (dayPnl_perm hperm),
    countQualifyingTradingDays_append (past.disjoint_days m)]

theorem getBestDayProfit_closedTrades :
    getBestDayProfit (past.closedTrades m) = max (getBestDayProfit past.earlier)
      (getBestDayProfit (past.onResetDay ++ m.db.closedTrades accountId)) := by
  rw [getBestDayProfit_congr (dayPnl_perm (past.closedTrades_perm m)),
    getBestDayProfit_append (past.disjoint_days m)]

/-- The rows of the past that closed on the current UTC day are those of the reset's day, while it
lasts. -/
theorem getTodayRealizedPnl_trades {now : Nat} (hafter : resetAt ≤ now) :
    getTodayRealizedPnl past.trades now
      = if now / secondsPerDay = resetAt / secondsPerDay then past.resetDayPnl else 0 := by
  have htoday : ∀ t ∈ past.trades, (t.closeTime.any (utcDayStart now ≤ ·) = true ↔
      now / secondsPerDay = resetAt / secondsPerDay ∧ t.closeDay = past.resetDay) := by
    intro t ht
    obtain ⟨_, _, closeTime, hle, hclose⟩ := past.closed t ht
    rw [Trade.closeDay, hclose, resetDay, utcDayStart]
    simp only [Option.any_some, decide_eq_true_eq, Option.map_some, Option.some.injEq]
    rw [← Nat.le_div_iff_mul_le (by decide : 0 < secondsPerDay)]
    have h₁ := Nat.div_le_div_right (c := secondsPerDay) hle
    have h₂ := Nat.div_le_div_right (c := secondsPerDay) hafter
    omega
  rw [getTodayRealizedPnl]
  split_ifs with hday
  · rw [resetDayPnl, dayPnl]
    congr 1
    refine List.filter_congr fun t ht => ?_
    rw [Bool.eq_iff_iff, htoday t ht]
    simp [hday]
  · have hnone : (past.trades.filter fun t => t.closeTime.any (utcDayStart now ≤ ·)) = [] :=
      List.filter_eq_nil_iff.mpr fun t ht h => hday ((htoday t ht).mp h).1
    rw [hnone]
    rfl

theorem todayRealized_congr {past₁ past₂ : Past accountId resetAt}
    (hsame : past₁.resetDayPnl = past₂.resetDayPnl) :
    (past₁.reads m).todayRealized = (past₂.reads m).todayRealized := by
  change getTodayRealizedPnl (past₁.closedTrades m) m.now
    = getTodayRealizedPnl (past₂.closedTrades m) m.now
  rw [closedTrades, closedTrades, getTodayRealizedPnl_append, getTodayRealizedPnl_append,
    past₁.getTodayRealizedPnl_trades m.after, past₂.getTodayRealizedPnl_trades m.after, hsame]

/-- What a day has brought in since the start of the reset's day, by either past. -/
theorem dayPnl_since_congr {past₁ past₂ : Past accountId resetAt}
    (hsame : past₁.resetDayPnl = past₂.resetDayPnl) (rest : List Trade) (day : Option Nat) :
    dayPnl (past₁.onResetDay ++ rest) day = dayPnl (past₂.onResetDay ++ rest) day := by
  rw [dayPnl_append, dayPnl_append, dayPnl_onResetDay, dayPnl_onResetDay, hsame]
  rfl

theorem mem_closeDays_since_congr {past₁ past₂ : Past accountId resetAt}
    (hsame : past₁.onResetDay = [] ↔ past₂.onResetDay = []) (rest : List Trade) (day : Option Nat) :
    day ∈ closeDays (past₁.onResetDay ++ rest) ↔ day ∈ closeDays (past₂.onResetDay ++ rest) := by
  have happend : ∀ first second : List Trade,
      day ∈ closeDays (first ++ second) ↔ day ∈ closeDays first ∨ day ∈ closeDays second := by
    simp [closeDays]
  rw [happend, happend, mem_closeDays_onResetDay, mem_closeDays_onResetDay, ne_eq, hsame]
  rfl

end Past

/-! ### A rule that sees the same decides the same -/

theorem processAccount_congr {limits : Limits} {platform : PlatformSettings} {acc : Account}
    {reads₁ reads₂ : ProcessReads} {now : Nat} (hopen : reads₁.openTrades = reads₂.openTrades)
    (hinactive : acc.inactive platform reads₁.lastActivityAt now
      = acc.inactive platform reads₂.lastActivityAt now)
    (hdaily : dailyLimitReached limits acc.startingBalance reads₁.todayRealized
      = dailyLimitReached limits acc.startingBalance reads₂.todayRealized)
    (hdays : acc.accountType ≠ .funded →
      acc.tradingDaysMet reads₁.daysRead = acc.tradingDaysMet reads₂.daysRead)
    (hconsistency : acc.accountType ≠ .funded →
      acc.consistencyMet reads₁.bestDayRead = acc.consistencyMet reads₂.bestDayRead) :
    processAccount limits platform acc reads₁ now = processAccount limits platform acc reads₂ now := by
  unfold processAccount
  rw [hinactive, hdaily, hopen]
  by_cases hfunded : acc.accountType = .funded
  · simp only [if_pos hfunded]
  · rw [hdays hfunded, hconsistency hfunded]

theorem dailyLimitReached_congr {limits : Limits} {startingBalance pnl₁ pnl₂ : Cents}
    (hsame : 0 < startingBalance → limits.dailyDrawdownPct.any (0 < ·) → pnl₁ = pnl₂) :
    dailyLimitReached limits startingBalance pnl₁ = dailyLimitReached limits startingBalance pnl₂ := by
  by_cases hforce : 0 < startingBalance ∧ limits.dailyDrawdownPct.any (0 < ·)
  · rw [hsame hforce.1 hforce.2]
  · have hoff : ∀ pnl, dailyLimitReached limits startingBalance pnl = false := by
      intro pnl
      rw [dailyLimitReached, Option.any_eq_false]
      intro dailyDrawdownPct hdaily
      have hnot : ¬ (0 < startingBalance ∧ 0 < dailyDrawdownPct) := by simpa [hdaily] using hforce
      simp only [decide_eq_false_iff_not]
      exact fun h => hnot ⟨h.2.1, h.1⟩
    rw [hoff, hoff]

theorem tradingDaysMet_congr {acc : Account} {closed₁ closed₂ : List Trade}
    (hsame : 0 < acc.minTradingDays.getD 0 →
      countQualifyingTradingDays closed₁ acc.startingBalance acc.minDailyProfitPct
        = countQualifyingTradingDays closed₂ acc.startingBalance acc.minDailyProfitPct) :
    acc.tradingDaysMet closed₁ = acc.tradingDaysMet closed₂ := by
  unfold Account.tradingDaysMet
  by_cases hforce : 0 < acc.minTradingDays.getD 0
  · rw [hsame hforce]
  · simp [not_lt.mp hforce]

theorem consistencyMet_congr {acc : Account} {closed₁ closed₂ : List Trade}
    (hsame : acc.consistencyMaxDayPct.any (0 < ·) → getBestDayProfit closed₁ = getBestDayProfit closed₂) :
    acc.consistencyMet closed₁ = acc.consistencyMet closed₂ := by
  unfold Account.consistencyMet
  cases hpct : acc.consistencyMaxDayPct with
  | none => rfl
  | some consistencyPct =>
    by_cases hforce : 0 < consistencyPct
    · unfold checkConsistencyRule
      rw [hsame (by simpa [hpct] using hforce)]
    · simp [not_lt.mp hforce]

namespace Past

variable {accountId resetAt : Nat} {past₁ past₂ : Past accountId resetAt} {m : Moment accountId resetAt}
  {acc : Account}

theorem inactive_congr
    (hsees : HistoryRule.InForce m acc .inactivity → HistoryRule.SeesSame past₁ past₂ .inactivity) :
    acc.inactive m.platform (past₁.reads m).lastActivityAt m.now
      = acc.inactive m.platform (past₂.reads m).lastActivityAt m.now := by
  by_cases hforce : HistoryRule.InForce m acc .inactivity
  · have hsame : lastTradeActivity past₁.trades = lastTradeActivity past₂.trades := hsees hforce
    change acc.inactive m.platform (some (getLastTradeActivityAt (past₁.trades ++ _) _)) m.now
      = acc.inactive m.platform (some (getLastTradeActivityAt (past₂.trades ++ _) _)) m.now
    rw [getLastTradeActivityAt, getLastTradeActivityAt, lastTradeActivity_append_congr hsame]
  · have hoff : ∀ lastActivityAt, acc.inactive m.platform lastActivityAt m.now = false := by
      intro lastActivityAt
      rw [Account.inactive, decide_eq_false_iff_not]
      exact fun h => hforce ⟨h.1, h.2.1, h.2.2.1⟩
    rw [hoff, hoff]

theorem tradingDaysMet_closedTrades_congr (hfunded : acc.accountType ≠ .funded)
    (hsees : HistoryRule.InForce m acc .tradingDays → HistoryRule.SeesSame past₁ past₂ .tradingDays) :
    acc.tradingDaysMet (past₁.closedTrades m) = acc.tradingDaysMet (past₂.closedTrades m) := by
  refine tradingDaysMet_congr fun hmin => ?_
  obtain ⟨hpnl, hday, hearlier⟩ := hsees ⟨hfunded, hmin⟩
  rw [countQualifyingTradingDays_closedTrades, countQualifyingTradingDays_closedTrades, hearlier,
    countQualifyingTradingDays_congr (mem_closeDays_since_congr hday _) (dayPnl_since_congr hpnl _)]

theorem consistencyMet_closedTrades_congr (hfunded : acc.accountType ≠ .funded)
    (hsees : HistoryRule.InForce m acc .consistency → HistoryRule.SeesSame past₁ past₂ .consistency) :
    acc.consistencyMet (past₁.closedTrades m) = acc.consistencyMet (past₂.closedTrades m) := by
  refine consistencyMet_congr fun hpct => ?_
  obtain ⟨hpnl, hearlier⟩ := hsees ⟨hfunded, hpct⟩
  rw [getBestDayProfit_closedTrades, getBestDayProfit_closedTrades, hearlier,
    getBestDayProfit_congr (dayPnl_since_congr hpnl _)]

/-- Where every rule in force sees the same of two pasts, both engines decide the same. -/
theorem decisions_congr (hsees : ∀ acc, m.db.account? accountId = some acc → ∀ rule,
    HistoryRule.InForce m acc rule → HistoryRule.SeesSame past₁ past₂ rule) :
    past₁.decisions m = past₂.decisions m := by
  unfold decisions
  cases hread : (m.db.account? accountId).filter fun acc => acc.status = .active with
  | none => rfl
  | some acc =>
    have hrule := hsees acc (Option.filter_eq_some_iff.mp hread).1
    have hdaily : ∀ limits : Limits, ∀ floating : Cents,
        (limits.dailyDrawdownPct.any (0 < ·) →
          (processAccountLimits m.db m.platform acc).dailyDrawdownPct.any (0 < ·) ∨
            (checkFloatingDrawdownLimits m.db acc).dailyDrawdownPct.any (0 < ·)) →
        dailyLimitReached limits acc.startingBalance ((past₁.reads m).todayRealized + floating)
          = dailyLimitReached limits acc.startingBalance ((past₂.reads m).todayRealized + floating) := by
      intro limits floating hlimits
      refine dailyLimitReached_congr fun hstart hany => ?_
      rw [todayRealized_congr m (hrule .dailyLoss ⟨hstart, hlimits hany⟩)]
    dsimp only
    congr 1
    · refine processAccount_congr rfl (inactive_congr (hrule .inactivity)) ?_
        (fun hfunded => tradingDaysMet_closedTrades_congr hfunded (hrule .tradingDays))
        (fun hfunded => consistencyMet_closedTrades_congr hfunded (hrule .consistency))
      simpa only [add_zero] using hdaily _ 0 .inl
    · unfold checkFloatingDrawdown
      rw [hdaily _ _ .inr]

end Past

/-! ### A rule that sees a difference acts on it -/

/-- Terms under which an account passes as soon as its rules let it: one cent of profit is enough, and
no drawdown fails it. -/
def probeTerms (startingBalance : Cents) (dailyDrawdownPct : Option ℚ) (minTradingDays : Option Int)
    (minDailyProfitPct consistencyMaxDayPct : Option ℚ) : AccountTerms where
  accountType := .phase1
  challengeModelSlug := none
  startingBalance := startingBalance
  profitTarget := 1
  maxDrawdownPct := 100
  dailyDrawdownPct := dailyDrawdownPct
  minTradingDays := minTradingDays
  minDailyProfitPct := minDailyProfitPct
  consistencyMaxDayPct := consistencyMaxDayPct
  phaseEndDate := none

/-- The account on these terms, with a dollar of profit. -/
def probeAccount (accountId : Nat) (terms : AccountTerms) : Account :=
  (Account.credited 100).apply (terms.provision accountId)

/-- What the challenge engine decides about such an account. -/
def probeVerdict (inactive dailyLoss passes : Bool) : Option SettleKind :=
  if inactive then some (.failAccount true "Inactivity Auto-Fail")
  else if dailyLoss then some (.failAccount false dailyLossReason)
  else if passes then some .passAccount
  else none

theorem probeVerdict_inj : ∀ inactive₁ dailyLoss₁ passes₁ inactive₂ dailyLoss₂ passes₂,
    probeVerdict inactive₁ dailyLoss₁ passes₁ = probeVerdict inactive₂ dailyLoss₂ passes₂ →
      inactive₁ = inactive₂ ∧ (inactive₁ = false → dailyLoss₁ = dailyLoss₂ ∧
        (dailyLoss₁ = false → passes₁ = passes₂)) := by
  decide

/-- A position opened and closed at the moment of the reset. -/
def probeTrade (accountId resetAt : Nat) (pnl : Cents) : Trade :=
  (Trade.closedAt (some 1) pnl "Manual Close" resetAt false).apply
    ((Trade.filledAt 1 resetAt).apply ({ sampleOrder with accountId := accountId }.row 0 .pending))

/-- A moment after the reset, when the account has closed one position since or none. -/
def Moment.probe {accountId resetAt : Nat} (terms : AccountTerms) (platform : PlatformSettings)
    (pnl : Option Cents) (fallbackDate now : Nat) (hafter : resetAt ≤ now) : Moment accountId resetAt where
  db :=
    { Db.initial Table.empty with
      accounts := Table.single (probeAccount accountId terms)
      trades := pnl.elim Table.empty fun pnl => Table.single (probeTrade accountId resetAt pnl) }
  platform := platform
  market := ⟨fun _ => none, ⟨false, 39 / 5, fun _ => none⟩⟩
  fallbackDate := fallbackDate
  now := now
  after := hafter
  recent := by
    intro t ht closeTime hclose
    cases pnl with
    | none => simp [Db.closedTrades, Db.tradesOf] at ht
    | some pnl =>
      have htrade : t = probeTrade accountId resetAt pnl := by
        simpa [Table.single] using (Db.mem_tradesOf.mp ht).1
      rw [htrade] at hclose
      cases hclose
      exact le_rfl

namespace Past

variable {accountId resetAt : Nat} (past : Past accountId resetAt)

theorem account?_probe {terms : AccountTerms} {platform : PlatformSettings} {pnl : Option Cents}
    {fallbackDate now : Nat} {hafter : resetAt ≤ now} :
    (Moment.probe terms platform pnl fallbackDate now hafter : Moment accountId resetAt).db.account?
      accountId = some (probeAccount accountId terms) := by
  simp [Moment.probe, Db.account?, Table.find?, Table.single, Keyed.key, probeAccount, Account.credited,
    AccountTerms.provision]

theorem closedTrades_probe {terms : AccountTerms} {platform : PlatformSettings} {pnl : Option Cents}
    {fallbackDate now : Nat} {hafter : resetAt ≤ now} :
    (Moment.probe terms platform pnl fallbackDate now hafter : Moment accountId resetAt).db.closedTrades
      accountId = pnl.toList.map (probeTrade accountId resetAt) := by
  cases pnl with
  | none => rfl
  | some pnl =>
    simp [Moment.probe, Db.closedTrades, Db.tradesOf, Table.single, probeTrade, Trade.closedAt,
      Trade.filledAt, OrderRequest.row]

theorem engine_probe {startingBalance : Cents} {dailyDrawdownPct : Option ℚ} {minTradingDays : Option Int}
    {minDailyProfitPct consistencyMaxDayPct : Option ℚ} {platform : PlatformSettings}
    {pnl : Option Cents} {fallbackDate now : Nat} {hafter : resetAt ≤ now}
    {m : Moment accountId resetAt} {terms : AccountTerms}
    (hterms : terms = probeTerms startingBalance dailyDrawdownPct minTradingDays minDailyProfitPct
      consistencyMaxDayPct)
    (hm : m = Moment.probe terms platform pnl fallbackDate now hafter) :
    (past.decisions m).engine = probeVerdict
      ((probeAccount accountId terms).inactive platform (past.reads m).lastActivityAt now)
      (dailyLimitReached ⟨some 100, dailyDrawdownPct, none⟩ startingBalance (past.reads m).todayRealized)
      ((probeAccount accountId terms).tradingDaysMet (past.closedTrades m) &&
        (probeAccount accountId terms).consistencyMet (past.closedTrades m)) := by
  have hread : (m.db.account? accountId).filter (fun acc => acc.status = .active)
      = some (probeAccount accountId terms) := by
    rw [hm, account?_probe, Option.filter_some]
    rfl
  have hopen : m.db.tradesOf accountId .opened = [] := by
    rw [hm]
    cases pnl with
    | none => rfl
    | some pnl =>
      simp [Moment.probe, Db.tradesOf, Table.single, probeTrade, Trade.closedAt]
  have hlimits : processAccountLimits m.db m.platform (probeAccount accountId terms)
      = ⟨some 100, dailyDrawdownPct, none⟩ := by
    rw [hterms]
    rfl
  have hbalance : (probeAccount accountId terms).currentBalance = startingBalance + 100 := by
    rw [hterms]
    rfl
  have hstarting : (probeAccount accountId terms).startingBalance = startingBalance := by
    rw [hterms]
    rfl
  have hbreach : processAccountBreached ⟨some 100, dailyDrawdownPct, none⟩ (probeAccount accountId terms)
      = false := by
    rw [processAccountBreached, decide_eq_false_iff_not]
    rintro ⟨hstart, _, hle⟩
    rw [hstarting] at hstart
    have hpos : Cents.dollars 0 < (startingBalance + 100 : Cents).dollars :=
      Cents.dollars_lt.mpr (lt_add_of_pos_of_le hstart (by decide))
    rw [Cents.dollars_zero] at hpos
    rw [processAccountResolution, resolveEffectiveFloor_floor_unlocked fun _ => rfl, computeTrailingFloor,
      hbalance] at hle
    simp only [Option.getD_some] at hle
    linarith
  have htarget : (probeAccount accountId terms).targetReached = true := by
    have hprofit : (probeAccount accountId terms).realisedProfit = 100 := by
      rw [Account.realisedProfit, hbalance, hstarting]
      exact add_sub_cancel_left startingBalance 100
    have heffective : (probeAccount accountId terms).effectiveProfitTarget = (1 : Cents).dollars := by
      rw [hterms]
      rfl
    rw [Account.targetReached, hprofit, heffective, decide_eq_true_eq, Cents.dollars_le]
    decide
  have hexpired : (probeAccount accountId terms).phaseExpired now = false := by
    rw [hterms]
    rfl
  have htype : (probeAccount accountId terms).accountType ≠ .funded := by
    rw [hterms]
    exact AccountType.noConfusion
  unfold decisions
  rw [hread]
  dsimp only
  have hnow : m.now = now := by rw [hm]; rfl
  have hplatform : m.platform = platform := by rw [hm]; rfl
  rw [hlimits, processAccount, hbreach, htarget, hnow, hexpired, hplatform, hstarting, if_neg htype]
  have hreads : (past.reads m).openTrades = [] := hopen
  rw [hreads]
  simp only [Bool.false_eq_true, if_false, true_and, probeVerdict, Bool.and_eq_true]
  rfl

/-- Only what a probe switches on is in force at it. -/
theorem under_probe {rules : Set HistoryRule} {startingBalance : Cents} {dailyDrawdownPct : Option ℚ}
    {minTradingDays : Option Int} {minDailyProfitPct consistencyMaxDayPct : Option ℚ}
    {platform : PlatformSettings} {pnl : Option Cents} {fallbackDate now : Nat} {hafter : resetAt ≤ now}
    (hinactivity : platform.inactivityAutoFailEnabled = true → .inactivity ∈ rules)
    (hdaily : dailyDrawdownPct.isSome → .dailyLoss ∈ rules)
    (hdays : minTradingDays.isSome → .tradingDays ∈ rules)
    (hconsistency : consistencyMaxDayPct.isSome → .consistency ∈ rules) :
    (Moment.probe (probeTerms startingBalance dailyDrawdownPct minTradingDays minDailyProfitPct
      consistencyMaxDayPct) platform pnl fallbackDate now hafter : Moment accountId resetAt).Under
      rules := by
  have hisSome : ∀ {o : Option ℚ}, o.any (0 < ·) = true → o.isSome := by
    intro o hany
    cases o with
    | none => cases hany
    | some x => rfl
  intro acc hacc rule hforce
  rw [account?_probe, Option.some.injEq] at hacc
  subst hacc
  cases rule with
  | inactivity => exact hinactivity hforce.2.1
  | dailyLoss => exact hdaily (hisSome (hforce.2.elim id id))
  | tradingDays =>
    refine hdays ?_
    cases minTradingDays with
    | none => exact absurd hforce.2 (lt_irrefl (0 : Int))
    | some days => rfl
  | consistency => exact hconsistency (hisSome hforce.2)

section Probes

variable {past₁ past₂ : Past accountId resetAt} {rules : Set HistoryRule}

/-- What equal decisions at a probe say: the rules agree up to the first that fails the account. -/
theorem rules_agree {terms : AccountTerms} {startingBalance : Cents} {minTradingDays : Option Int}
    {minDailyProfitPct consistencyMaxDayPct dailyDrawdownPct : Option ℚ} {platform : PlatformSettings}
    {pnl : Option Cents} {fallbackDate now : Nat} {hafter : resetAt ≤ now}
    {m : Moment accountId resetAt}
    (hterms : terms = probeTerms startingBalance dailyDrawdownPct minTradingDays minDailyProfitPct
      consistencyMaxDayPct)
    (hm : m = Moment.probe terms platform pnl fallbackDate now hafter)
    (hsame : past₁.decisions m = past₂.decisions m) :
    let inactive := fun past : Past accountId resetAt =>
      (probeAccount accountId terms).inactive platform (past.reads m).lastActivityAt now
    let dailyLoss := fun past : Past accountId resetAt =>
      dailyLimitReached ⟨some 100, dailyDrawdownPct, none⟩ startingBalance (past.reads m).todayRealized
    let passes := fun past : Past accountId resetAt =>
      (probeAccount accountId terms).tradingDaysMet (past.closedTrades m) &&
        (probeAccount accountId terms).consistencyMet (past.closedTrades m)
    inactive past₁ = inactive past₂ ∧ (inactive past₁ = false → dailyLoss past₁ = dailyLoss past₂ ∧
      (dailyLoss past₁ = false → passes past₁ = passes past₂)) := by
  have hengine := congrArg Decisions.engine hsame
  rw [engine_probe past₁ hterms hm, engine_probe past₂ hterms hm] at hengine
  exact probeVerdict_inj _ _ _ _ _ _ hengine

theorem getLastTradeActivityAt_le (hrule : .inactivity ∈ rules)
    (hsame : ∀ m : Moment accountId resetAt, m.Under rules → past₁.decisions m = past₂.decisions m)
    (fallbackDate : Nat) :
    getLastTradeActivityAt past₂.trades fallbackDate ≤ getLastTradeActivityAt past₁.trades fallbackDate := by
  by_contra hlt
  rw [not_le] at hlt
  -- the moment the first account has been inactive for long enough
  let days : Nat := resetAt + 1
  let now := getLastTradeActivityAt past₁.trades fallbackDate + days * secondsPerDay
  have hafter : resetAt ≤ now := by
    have hday : 1 ≤ secondsPerDay := by decide
    have hdays := Nat.le_mul_of_pos_right days hday
    omega
  let m : Moment accountId resetAt :=
    .probe (probeTerms 100 none none none none) ⟨none, true, days⟩ none fallbackDate now hafter
  have hinactive := (rules_agree rfl (rfl : m = _) (hsame m
    (under_probe (fun _ => hrule) (by simp) (by simp) (by simp)))).1
  have hreads : ∀ past : Past accountId resetAt, (past.reads m).lastActivityAt
      = some (getLastTradeActivityAt past.trades fallbackDate) := by
    intro past
    change some (getLastTradeActivityAt (past.trades ++ []) fallbackDate) = _
    rw [List.append_nil]
  dsimp only at hinactive
  rw [hreads, hreads] at hinactive
  have h₁ : (probeAccount accountId (probeTerms 100 none none none none)).inactive ⟨none, true, days⟩
      (some (getLastTradeActivityAt past₁.trades fallbackDate)) now = true := by
    rw [Account.inactive, decide_eq_true_eq]
    refine ⟨AccountType.noConfusion, rfl, by positivity, ?_⟩
    simp [now]
  have h₂ : (probeAccount accountId (probeTerms 100 none none none none)).inactive ⟨none, true, days⟩
      (some (getLastTradeActivityAt past₂.trades fallbackDate)) now = false := by
    rw [Account.inactive, decide_eq_false_iff_not]
    rintro ⟨_, _, _, hle⟩
    simp [now] at hle
    have := (Nat.cast_lt (α := ℚ)).mpr hlt
    linarith
  rw [h₁, h₂] at hinactive
  cases hinactive

/-- With a rule or a percentage of its own, an account tells what the two pasts come to on the day of
the reset. -/
theorem resetDayPnl_le (hrule : .dailyLoss ∈ rules)
    (hsame : ∀ m : Moment accountId resetAt, m.Under rules → past₁.decisions m = past₂.decisions m) :
    past₂.resetDayPnl ≤ past₁.resetDayPnl := by
  by_contra hlt
  rw [not_le] at hlt
  -- a loss after the reset that the first past's share makes one cent, and the second's none
  let m : Moment accountId resetAt :=
    .probe (probeTerms 100 (some 1) none none none) idlePlatform (some (-1 - past₁.resetDayPnl)) 0 resetAt
      le_rfl
  have hdaily := ((rules_agree rfl (rfl : m = _) (hsame m
    (under_probe (by simp [idlePlatform]) (fun _ => hrule) (by simp) (by simp)))).2 rfl).1
  have htoday : ∀ past : Past accountId resetAt,
      (past.reads m).todayRealized = past.resetDayPnl + (-1 - past₁.resetDayPnl) := by
    intro past
    change getTodayRealizedPnl (past.trades ++ m.db.closedTrades accountId) resetAt = _
    rw [getTodayRealizedPnl_append, past.getTodayRealizedPnl_trades le_rfl, if_pos rfl,
      closedTrades_probe]
    simp [getTodayRealizedPnl, sumDemoPnl, probeTrade, Trade.closedAt, utcDayStart, Nat.div_mul_le_self]
  dsimp only at hdaily
  rw [htoday, htoday] at hdaily
  have h₁ : dailyLimitReached ⟨some 100, some 1, none⟩ 100 (past₁.resetDayPnl + (-1 - past₁.resetDayPnl))
      = true := by
    rw [add_sub_cancel]
    norm_num [dailyLimitReached, dailyLossPct, Cents.dollars]
  have h₂ : dailyLimitReached ⟨some 100, some 1, none⟩ 100 (past₂.resetDayPnl + (-1 - past₁.resetDayPnl))
      = false := by
    have hnonneg : ¬ past₂.resetDayPnl + (-1 - past₁.resetDayPnl) < 0 := by
      rw [not_lt]
      have := Int.add_one_le_of_lt hlt
      linarith
    simp [dailyLimitReached, dailyLossPct, hnonneg]
  rw [h₁, h₂] at hdaily
  cases hdaily

theorem countQualifyingTradingDays_le (hrule : .tradingDays ∈ rules)
    (hsame : ∀ m : Moment accountId resetAt, m.Under rules → past₁.decisions m = past₂.decisions m)
    (startingBalance : Cents) (minDailyProfitPct : Option ℚ) (pnl : Option Cents) :
    countQualifyingTradingDays
        (past₂.trades ++ pnl.toList.map (probeTrade accountId resetAt)) startingBalance minDailyProfitPct
      ≤ countQualifyingTradingDays
        (past₁.trades ++ pnl.toList.map (probeTrade accountId resetAt)) startingBalance
          minDailyProfitPct := by
  by_contra hlt
  rw [not_le] at hlt
  -- as many days asked for as the second past shows
  let days := countQualifyingTradingDays (past₂.trades ++ pnl.toList.map (probeTrade accountId resetAt))
    startingBalance minDailyProfitPct
  let terms := probeTerms startingBalance none (some days) minDailyProfitPct none
  let m : Moment accountId resetAt := .probe terms idlePlatform pnl 0 resetAt le_rfl
  have hpasses := ((rules_agree (rfl : terms = _) (rfl : m = _) (hsame m
    (under_probe (by simp [idlePlatform]) (by simp) (fun _ => hrule) (by simp)))).2 rfl).2 rfl
  have hclosed : ∀ past : Past accountId resetAt,
      past.closedTrades m = past.trades ++ pnl.toList.map (probeTrade accountId resetAt) := by
    intro past
    rw [closedTrades, closedTrades_probe]
  have hconsistent : ∀ closed, (probeAccount accountId terms).consistencyMet closed = true := fun _ => rfl
  have hmet : ∀ closed, (probeAccount accountId terms).tradingDaysMet closed = decide ((days : Int) ≤ 0 ∨
      (days : Int) ≤ countQualifyingTradingDays closed startingBalance minDailyProfitPct) := fun _ => rfl
  dsimp only at hpasses
  rw [hclosed, hclosed, hconsistent, hconsistent, hmet, hmet, Bool.and_true, Bool.and_true,
    decide_eq_decide] at hpasses
  have hmet₁ := hpasses.mpr (.inr le_rfl)
  omega

theorem getBestDayProfit_probe_le (hrule : .consistency ∈ rules)
    (hsame : ∀ m : Moment accountId resetAt, m.Under rules → past₁.decisions m = past₂.decisions m)
    (pnl : Option Cents) :
    getBestDayProfit (past₂.trades ++ pnl.toList.map (probeTrade accountId resetAt))
      ≤ getBestDayProfit (past₁.trades ++ pnl.toList.map (probeTrade accountId resetAt)) := by
  by_contra hlt
  rw [not_le] at hlt
  -- a limit between the two best days, in percent of one dollar of profit
  let best := getBestDayProfit (past₂.trades ++ pnl.toList.map (probeTrade accountId resetAt))
  let terms := probeTerms 100 none none none (some ((best : ℚ) - 1 / 2))
  let m : Moment accountId resetAt := .probe terms idlePlatform pnl 0 resetAt le_rfl
  have hpasses := ((rules_agree (rfl : terms = _) (rfl : m = _) (hsame m
    (under_probe (by simp [idlePlatform]) (by simp) (by simp) fun _ => hrule))).2 rfl).2 rfl
  have hclosed : ∀ past : Past accountId resetAt,
      past.closedTrades m = past.trades ++ pnl.toList.map (probeTrade accountId resetAt) := by
    intro past
    rw [closedTrades, closedTrades_probe]
  have hdays : ∀ closed, (probeAccount accountId terms).tradingDaysMet closed = true := fun _ => rfl
  have hbest : (1 : ℚ) ≤ best := by
    exact_mod_cast Int.add_one_le_of_lt (lt_of_le_of_lt (getBestDayProfit_nonneg _) hlt)
  have hmet : ∀ closed, (probeAccount accountId terms).consistencyMet closed
      = decide ((getBestDayProfit closed : ℚ) ≤ (best : ℚ) - 1 / 2) := by
    intro closed
    have hprofit : (probeAccount accountId terms).realisedProfit = 100 := rfl
    have hpct : ¬ (best : ℚ) - 1 / 2 ≤ 0 := by linarith
    have hdollars :
        (getBestDayProfit closed).dollars / Cents.dollars 100 * 100 = getBestDayProfit closed := by
      rw [Cents.dollars, Cents.dollars]
      norm_num
    change decide ((best : ℚ) - 1 / 2 ≤ 0 ∨ checkConsistencyRule closed
      (probeAccount accountId terms).realisedProfit ((best : ℚ) - 1 / 2) = true) = _
    rw [hprofit, checkConsistencyRule, if_neg (not_or.mpr ⟨hpct, by decide⟩), hdollars,
      decide_eq_decide, decide_eq_true_eq, or_iff_right hpct]
  dsimp only at hpasses
  rw [hclosed, hclosed, hdays, hdays, hmet, hmet, Bool.true_and, Bool.true_and, decide_eq_decide]
    at hpasses
  have hmet₁ : (getBestDayProfit (past₁.trades ++ pnl.toList.map (probeTrade accountId resetAt)) : ℚ)
      ≤ best - 1 := by
    exact_mod_cast Int.le_sub_one_of_lt hlt
  have hmet₂ := hpasses.mp (by linarith)
  linarith

/-! The part of the history since the start of the reset's day, at a probe. -/

theorem countQualifyingTradingDays_probe (past : Past accountId resetAt) (pnl : Option Cents)
    (startingBalance : Cents) (minDailyProfitPct : Option ℚ) :
    countQualifyingTradingDays (past.trades ++ pnl.toList.map (probeTrade accountId resetAt))
        startingBalance minDailyProfitPct
      = countQualifyingTradingDays past.earlier startingBalance minDailyProfitPct
        + daysWhere (past.onResetDay ++ pnl.toList.map (probeTrade accountId resetAt))
          (qualifies (past.onResetDay ++ pnl.toList.map (probeTrade accountId resetAt)) startingBalance
            minDailyProfitPct) := by
  have hcount := past.countQualifyingTradingDays_closedTrades
    (.probe (probeTerms 100 none none none none) idlePlatform pnl 0 resetAt le_rfl) startingBalance
    minDailyProfitPct
  rwa [closedTrades, closedTrades_probe, countQualifyingTradingDays_eq (past.onResetDay ++ _)] at hcount

theorem getBestDayProfit_probe (past : Past accountId resetAt) (pnl : Option Cents) :
    getBestDayProfit (past.trades ++ pnl.toList.map (probeTrade accountId resetAt))
      = max (getBestDayProfit past.earlier)
        (getBestDayProfit (past.onResetDay ++ pnl.toList.map (probeTrade accountId resetAt))) := by
  have hbest := past.getBestDayProfit_closedTrades
    (.probe (probeTerms 100 none none none none) idlePlatform pnl 0 resetAt le_rfl)
  rwa [closedTrades, closedTrades_probe] at hbest

theorem closeDay_since (past : Past accountId resetAt) (pnl : Option Cents) :
    ∀ t ∈ past.onResetDay ++ pnl.toList.map (probeTrade accountId resetAt),
      t.closeDay = past.resetDay := by
  intro t ht
  rcases List.mem_append.mp ht with ht | ht
  · simpa using (List.mem_filter.mp ht).2
  · obtain ⟨pnl, _, rfl⟩ := List.mem_map.mp ht
    rfl

theorem dayPnl_since (past : Past accountId resetAt) (pnl : Cents) :
    dayPnl (past.onResetDay ++ [probeTrade accountId resetAt pnl]) past.resetDay
      = past.resetDayPnl + pnl := by
  have hprobe : dayPnl [probeTrade accountId resetAt pnl] past.resetDay = pnl := by
    simp [dayPnl, sumDemoPnl, probeTrade, Trade.closedAt, Trade.closeDay, resetDay]
  rw [dayPnl_append, hprobe, dayPnl_onResetDay, if_pos rfl]

/-- The count of the days since then, of rows that all closed on the reset's own. -/
theorem daysWhere_since (past : Past accountId resetAt) (pnl : Cents) (startingBalance : Cents)
    (minDailyProfitPct : Option ℚ) :
    daysWhere (past.onResetDay ++ [probeTrade accountId resetAt pnl])
        (qualifies (past.onResetDay ++ [probeTrade accountId resetAt pnl]) startingBalance
          minDailyProfitPct)
      = if minDailyProfitPct.all fun threshold => startingBalance ≤ 0 ∨ threshold ≤ 0 ∨
          threshold ≤ (past.resetDayPnl + pnl : Cents).dollars / startingBalance.dollars * 100 then 1
        else 0 := by
  have hday : ∀ t ∈ past.onResetDay ++ [probeTrade accountId resetAt pnl], t.closeDay = past.resetDay :=
    past.closeDay_since (some pnl)
  rw [daysWhere_of_closeDay hday]
  congr 1
  rw [eq_iff_iff, and_iff_right (by simp)]
  unfold qualifies
  cases minDailyProfitPct with
  | none => simp [resetDay]
  | some threshold =>
    dsimp only
    rw [dayPnl_since]
    split_ifs with hall
    · simp only [Option.all_some, decide_eq_true_eq, resetDay, Option.isSome_some, true_iff]
      exact hall.elim .inl fun h => .inr (.inl h)
    · obtain ⟨hstart, hthreshold⟩ := not_or.mp hall
      simp [hstart, hthreshold]

variable (hcount : ∀ startingBalance minDailyProfitPct (pnl : Option Cents),
  countQualifyingTradingDays (past₁.trades ++ pnl.toList.map (probeTrade accountId resetAt))
      startingBalance minDailyProfitPct
    = countQualifyingTradingDays (past₂.trades ++ pnl.toList.map (probeTrade accountId resetAt))
      startingBalance minDailyProfitPct)

include hcount

/-- What closes after the reset may be so bad a loss that the day does not count with either past. -/
theorem countQualifyingTradingDays_earlier (startingBalance : Cents) (minDailyProfitPct : Option ℚ) :
    countQualifyingTradingDays past₁.earlier startingBalance minDailyProfitPct
      = countQualifyingTradingDays past₂.earlier startingBalance minDailyProfitPct := by
  let loss : Cents := -(|past₁.resetDayPnl| + |past₂.resetDayPnl|)
  have hloss := hcount startingBalance minDailyProfitPct (some loss)
  rw [countQualifyingTradingDays_probe, countQualifyingTradingDays_probe] at hloss
  simp only [Option.toList_some, List.map_cons, List.map_nil] at hloss
  have hsame : ∀ past : Past accountId resetAt, past.resetDayPnl + loss ≤ 0 →
      (minDailyProfitPct.all fun threshold => startingBalance ≤ 0 ∨ threshold ≤ 0 ∨
        threshold ≤ (past.resetDayPnl + loss : Cents).dollars / startingBalance.dollars * 100)
      = minDailyProfitPct.all fun threshold => startingBalance ≤ 0 ∨ threshold ≤ 0 := by
    intro past hle
    cases minDailyProfitPct with
    | none => rfl
    | some threshold =>
      rw [Option.all_some, Option.all_some, decide_eq_decide, ← or_assoc, or_iff_left_iff_imp]
      intro hreached
      by_contra hpos
      rw [not_or, not_le, not_le] at hpos
      have hstart := Cents.dollars_lt.mpr hpos.1
      have hdollars := Cents.dollars_le.mpr hle
      rw [Cents.dollars_zero] at hstart hdollars
      have hquotient := div_nonpos_of_nonpos_of_nonneg hdollars hstart.le
      linarith [hpos.2]
  have h₁ := le_abs_self past₁.resetDayPnl
  have h₂ := le_abs_self past₂.resetDayPnl
  have h₃ := abs_nonneg past₁.resetDayPnl
  have h₄ := abs_nonneg past₂.resetDayPnl
  rw [daysWhere_since, daysWhere_since, hsame past₁ (by simp only [loss]; linarith),
    hsame past₂ (by simp only [loss]; linarith)] at hloss
  exact Nat.add_right_cancel hloss

theorem onResetDay_nil : past₁.onResetDay = [] ↔ past₂.onResetDay = [] := by
  have hnone := hcount 0 none none
  have hdays : ∀ past : Past accountId resetAt,
      daysWhere (past.onResetDay ++ (none : Option Cents).toList.map (probeTrade accountId resetAt))
        (qualifies (past.onResetDay ++ (none : Option Cents).toList.map (probeTrade accountId resetAt)) 0
          none) = if past.onResetDay = [] then 0 else 1 := by
    intro past
    rw [daysWhere_of_closeDay (past.closeDay_since none), Option.toList_none, List.map_nil,
      List.append_nil]
    by_cases hnil : past.onResetDay = [] <;> simp [hnil, qualifies, resetDay]
  rw [countQualifyingTradingDays_probe, countQualifyingTradingDays_probe, hdays, hdays,
    countQualifyingTradingDays_earlier hcount 0 none, Nat.add_left_cancel_iff] at hnone
  split_ifs at hnone with h₁ h₂ h₂
  · exact iff_of_true h₁ h₂
  · exact iff_of_false h₁ h₂

theorem resetDayPnl_le_of_days : past₂.resetDayPnl ≤ past₁.resetDayPnl := by
  by_contra hlt
  rw [not_le] at hlt
  -- with the second past's share the day is one cent up, with the first's not
  have hcent := hcount 100 (some 1) (some (1 - past₂.resetDayPnl))
  rw [countQualifyingTradingDays_probe, countQualifyingTradingDays_probe,
    countQualifyingTradingDays_earlier hcount 100 (some 1), Nat.add_left_cancel_iff] at hcent
  simp only [Option.toList_some, List.map_cons, List.map_nil] at hcent
  have hqualifies : ∀ pnl : Cents, ((some 1).all fun threshold : ℚ => (100 : Cents) ≤ 0 ∨ threshold ≤ 0 ∨
      threshold ≤ pnl.dollars / Cents.dollars 100 * 100) = decide (1 ≤ pnl) := by
    intro pnl
    have hdollars : pnl.dollars / Cents.dollars 100 * 100 = pnl := by
      rw [Cents.dollars, Cents.dollars]
      norm_num
    rw [Option.all_some, hdollars, decide_eq_decide]
    norm_num
    exact_mod_cast Iff.rfl
  rw [daysWhere_since, daysWhere_since, hqualifies, hqualifies, if_neg, if_pos] at hcent
  · cases hcent
  · rw [decide_eq_true_eq, add_sub_cancel]
  · rw [decide_eq_true_eq, not_le]
    linarith

omit hcount

section BestDay

variable (hbest : ∀ pnl : Option Cents,
  getBestDayProfit (past₁.trades ++ pnl.toList.map (probeTrade accountId resetAt))
    = getBestDayProfit (past₂.trades ++ pnl.toList.map (probeTrade accountId resetAt)))

include hbest

theorem max_getBestDayProfit_earlier (pnl : Cents) :
    max (getBestDayProfit past₁.earlier) (max 0 (past₁.resetDayPnl + pnl))
      = max (getBestDayProfit past₂.earlier) (max 0 (past₂.resetDayPnl + pnl)) := by
  have hsince : ∀ past : Past accountId resetAt,
      getBestDayProfit (past.onResetDay ++ (some pnl).toList.map (probeTrade accountId resetAt))
        = max 0 (past.resetDayPnl + pnl) := by
    intro past
    rw [getBestDayProfit_of_closeDay (past.closeDay_since (some pnl))]
    exact congrArg _ (past.dayPnl_since pnl)
  have h := hbest (some pnl)
  rwa [getBestDayProfit_probe, getBestDayProfit_probe, hsince, hsince] at h

theorem getBestDayProfit_earlier :
    getBestDayProfit past₁.earlier = getBestDayProfit past₂.earlier := by
  let loss : Cents := -(|past₁.resetDayPnl| + |past₂.resetDayPnl|)
  have h := max_getBestDayProfit_earlier hbest loss
  have h₁ := le_abs_self past₁.resetDayPnl
  have h₂ := le_abs_self past₂.resetDayPnl
  have h₃ := abs_nonneg past₁.resetDayPnl
  have h₄ := abs_nonneg past₂.resetDayPnl
  rwa [max_eq_left (by simp only [loss]; linarith : past₁.resetDayPnl + loss ≤ 0),
    max_eq_left (by simp only [loss]; linarith : past₂.resetDayPnl + loss ≤ 0),
    max_eq_left (getBestDayProfit_nonneg _), max_eq_left (getBestDayProfit_nonneg _)] at h

theorem resetDayPnl_le_of_best : past₂.resetDayPnl ≤ past₁.resetDayPnl := by
  -- a profit that makes the day the best with either past
  have h := max_getBestDayProfit_earlier hbest (getBestDayProfit past₁.earlier - past₁.resetDayPnl)
  have hnonneg := getBestDayProfit_nonneg past₁.earlier
  rw [add_sub_cancel, max_eq_right hnonneg, max_self] at h
  have hle := h.symm ▸ (le_max_right (0 : Cents) _).trans (le_max_right _ _)
  linarith

end BestDay

/-- A rule acts on what it sees differently, for some account it is in force on. -/
theorem seesSame_of_decisions
    (hsame : ∀ m : Moment accountId resetAt, m.Under rules → past₁.decisions m = past₂.decisions m)
    {rule : HistoryRule} (hrule : rule ∈ rules) : HistoryRule.SeesSame past₁ past₂ rule := by
  have hsymm : ∀ m : Moment accountId resetAt, m.Under rules → past₂.decisions m = past₁.decisions m :=
    fun m hm => (hsame m hm).symm
  cases rule with
  | inactivity =>
    have hlast : ∀ fallbackDate, getLastTradeActivityAt past₁.trades fallbackDate
        = getLastTradeActivityAt past₂.trades fallbackDate := fun fallbackDate =>
      le_antisymm (getLastTradeActivityAt_le hrule hsymm fallbackDate)
        (getLastTradeActivityAt_le hrule hsame fallbackDate)
    simp only [getLastTradeActivityAt] at hlast
    change lastTradeActivity past₁.trades = lastTradeActivity past₂.trades
    -- an account that has never traded falls back to whatever date it is given
    cases h₁ : lastTradeActivity past₁.trades with
    | none =>
      cases h₂ : lastTradeActivity past₂.trades with
      | none => rfl
      | some last =>
        have hdate := hlast (last + 1)
        rw [h₁, h₂] at hdate
        exact absurd hdate (Nat.succ_ne_self last)
    | some last =>
      have hdate := hlast (last + 1)
      rw [h₁, Option.getD_some] at hdate
      cases h₂ : lastTradeActivity past₂.trades with
      | none =>
        rw [h₂] at hdate
        exact absurd hdate.symm (Nat.succ_ne_self last)
      | some last' => rw [hdate, h₂, Option.getD_some]
  | dailyLoss => exact le_antisymm (resetDayPnl_le hrule hsymm) (resetDayPnl_le hrule hsame)
  | tradingDays =>
    have hcount := fun startingBalance minDailyProfitPct pnl =>
      le_antisymm (countQualifyingTradingDays_le hrule hsymm startingBalance minDailyProfitPct pnl)
        (countQualifyingTradingDays_le hrule hsame startingBalance minDailyProfitPct pnl)
    refine ⟨?_, onResetDay_nil hcount, countQualifyingTradingDays_earlier hcount⟩
    exact le_antisymm (resetDayPnl_le_of_days fun _ _ _ => (hcount _ _ _).symm)
      (resetDayPnl_le_of_days hcount)
  | consistency =>
    have hbest := fun pnl =>
      le_antisymm (getBestDayProfit_probe_le hrule hsymm pnl) (getBestDayProfit_probe_le hrule hsame pnl)
    refine ⟨?_, getBestDayProfit_earlier hbest⟩
    exact le_antisymm (resetDayPnl_le_of_best fun pnl => (hbest pnl).symm) (resetDayPnl_le_of_best hbest)

end Probes

end Past

/-- Whatever happens after a reset, the two engines decide alike on two pasts exactly when every rule in
force sees the same of both. -/
theorem reset_forgets_iff {accountId resetAt : Nat} (rules : Set HistoryRule)
    (past₁ past₂ : Past accountId resetAt) :
    ClosedLoop.Indistinguishable (Moment.Under rules) past₁.decisions past₂.decisions ↔
      ∀ rule ∈ rules, HistoryRule.SeesSame past₁ past₂ rule := by
  rw [ClosedLoop.indistinguishable_iff]
  constructor
  · intro hsame rule hrule
    exact Past.seesSame_of_decisions hsame hrule
  · intro hsees m hm
    exact Past.decisions_congr fun acc hacc rule hforce => hsees rule (hm acc hacc rule hforce)

/-! ### A loss carried over the reset -/

/-- A failed evaluation account, down by what its trades lost. -/
def beforeReset (trades : Table Trade) : Db :=
  { Db.initial Table.empty with
    accounts := Table.single
      { sampleTerms.provision 1 with
        status := .failed
        currentBalance := 1000000 + sumDemoPnl trades.rows }
    trades := trades }

/-- `restore_with_reset`, at three in the afternoon. -/
def restoredWithReset (db : Db) : Option Account := do
  let acc ← db.account? 1
  let writes ← (AdminContext.override ⟨fun _ => none, none, none, none, 54000⟩ db acc
    .restoreWithReset).toOption
  let after ← commitAdmin db writes
  after.account? 1

/-- Six hundred dollars lost an hour before. -/
def lostTrade : Trade :=
  (Trade.closedAt (some 1) (-60000) "Manual Close" 50400 false).apply
    ((Trade.filledAt 1 50000).apply (sampleOrder.row 1 .pending))

def lostPast : Past 1 54000 where
  trades := [lostTrade]
  closed := by
    intro t ht
    rw [List.mem_singleton.mp ht]
    exact ⟨rfl, rfl, 50400, by decide, rfl⟩

def cleanPast : Past 1 54000 where
  trades := []
  closed := by simp

/-- Five minutes after the reset, the trader holds a position worth what it was opened at. -/
def reopenedDb : Db :=
  { Db.initial Table.empty with
    accounts := Table.single (Account.rebased.apply (sampleTerms.provision 1))
    trades := Table.single ((Trade.filledAt 1 54300).apply (sampleOrder.row 2 .pending)) }

def reopenedMoment : Moment 1 54000 where
  db := reopenedDb
  platform := idlePlatform
  market := ⟨quotedAt 1, ⟨false, 39 / 5, fun _ => none⟩⟩
  fallbackDate := 54000
  now := 54300
  after := by decide
  recent := by
    intro t ht
    have hnone : reopenedDb.closedTrades 1 = [] := rfl
    rw [hnone] at ht
    cases ht

/-- Both accounts come out of the reset with the same row, and the one that had lost on the same day is
failed for it. -/
theorem reset_remembers :
    restoredWithReset (beforeReset Table.empty)
        = some (Account.rebased.apply (sampleTerms.provision 1)) ∧
      restoredWithReset (beforeReset (Table.single lostTrade))
        = some (Account.rebased.apply (sampleTerms.provision 1)) ∧
      ClosedLoop.decisions (fun _ => reopenedMoment) cleanPast.decisions 1 = [⟨none, none⟩] ∧
      ClosedLoop.decisions (fun _ => reopenedMoment) lostPast.decisions 1
        = [⟨some (.failAccount false dailyLossReason), some (.fail .daily)⟩] := by
  decide +kernel

end PropFirm
