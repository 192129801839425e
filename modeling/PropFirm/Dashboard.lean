import PropFirm.PayoutRules
import PropFirm.Verdicts

/-!
# The trader's dashboard

`GET /accounts/stats/:account_id` recomputes what the engines enforce with helpers of its own: it values
the open positions at the stored feed prices, resolves the drawdown floor from its own reading of the
maximum drawdown, shows today's loss against the daily limit, and lists what stands between the trader
and a payout. Amounts are shown in cents. A position whose dollar rate is unavailable makes the whole
request fail.
-/

namespace PropFirm

def profitShareFallbackPct : ℚ := 100

def resolveProfitSharePct (rawValue : Option ℚ) : Option ℚ :=
  rawValue.filter fun parsed => 0 < parsed ∧ parsed ≤ 100

/-- The settings the route reads. A drawdown setting is absent where nothing is stored, and a stored one
that does not parse is a `NaN`. -/
structure StatsSettings where
  fundedMaxDrawdownPct : Option (Option ℚ)
  phase1MaxDrawdownPct : Option (Option ℚ)
  phase2MaxDrawdownPct : Option (Option ℚ)
  profitSharePct : Option ℚ

namespace StatsSettings

variable (settings : StatsSettings)

/-- The setting of the account's phase. A third phase's is not among those the route loads. -/
def phaseMaxDrawdownPct : AccountType → Option (Option ℚ)
  | .phase1 | .competition => settings.phase1MaxDrawdownPct
  | .phase2 => settings.phase2MaxDrawdownPct
  | .phase3 | .funded => none

/-- `rules.max_drawdown_pct` of `buildResolvedRules`. A stored percentage of zero is falsy. -/
def buildResolvedMaxDrawdownPct (acc : Account) : Option ℚ :=
  let storedMaxDrawdown := if acc.maxDrawdownPct = 0 then none else some (some acc.maxDrawdownPct)
  if acc.accountType = .funded then
    (settings.fundedMaxDrawdownPct.or storedMaxDrawdown).getD (some 5)
  else (storedMaxDrawdown.or (settings.phaseMaxDrawdownPct acc.accountType)).getD (some 10)

/-- `rules.profit_share_pct`. -/
def profitShare : ℚ := (resolveProfitSharePct settings.profitSharePct).getD profitShareFallbackPct

/-- The limits the route describes: a funded account's model overrides the resolved rules. -/
def statsLimits (db : Db) (acc : Account) : Limits where
  maxDrawdownPct := match acc.fundedModel db with
    | some model => some model.fundedMaxDrawdownPct
    | none => settings.buildResolvedMaxDrawdownPct acc
  dailyDrawdownPct := match acc.fundedModel db with
    | some model => some model.fundedDailyDrawdownPct
    | none => acc.dailyDrawdownPct
  drawdownLocksAtPct := (acc.fundedModel db).bind StepModel.fundedDrawdownLocksAtPct

end StatsSettings

/-! ### Floating profit -/

/-- `calculateOpenTradePnl`; the caller has checked that the three prices are there. -/
def calculateOpenTradePnl (fx : FxSource) (trade : Trade) (openPrice : ℚ) (feed : Quote) : Option Cents :=
  calculatePnL fx trade.direction openPrice (feed.closeSide trade.direction) trade.lotSize
    trade.instrument trade.commission

/-- One turn of the route's reduction over the open positions joined with `price_feed`. -/
def Trade.statsPnl (priceFeed : Instrument → Option Quote) (fx : FxSource) (t : Trade) : Option Cents :=
  match priceFeed t.instrument, t.openPrice with
  | some feed, some openPrice => calculateOpenTradePnl fx t openPrice feed
  | _, _ => some 0

def statsFloatingPnl (priceFeed : Instrument → Option Quote) (fx : FxSource) (trades : List Trade) :
    Option Cents :=
  (trades.mapM (Trade.statsPnl priceFeed fx)).map List.sum

/-- Both price sources close a position at the same price. -/
def QuotedAlike (priceFeed : Instrument → Option Quote) (market : Market) (t : Trade) : Prop :=
  (priceFeed t.instrument).map (fun price => price.closeSide t.direction)
    = (market.prices t.instrument).map fun price => price.closeSide t.direction

instance (priceFeed : Instrument → Option Quote) (market : Market) (t : Trade) :
    Decidable (QuotedAlike priceFeed market t) :=
  inferInstanceAs (Decidable (_ = _))

/-- A position the route can value, it values as the engine does. -/
theorem statsPnl_eq {priceFeed : Instrument → Option Quote} {market : Market} {t : Trade} {pnl : Cents}
    (hquoted : QuotedAlike priceFeed market t) (hpnl : t.statsPnl priceFeed market.fx = some pnl) :
    pnl = (t.floatingPnl market).getD 0 := by
  unfold Trade.statsPnl at hpnl
  unfold Trade.floatingPnl
  cases hfeed : priceFeed t.instrument with
  | none =>
    have hprice : market.prices t.instrument = none := by
      rw [QuotedAlike, hfeed, Option.map_none, eq_comm, Option.map_eq_none_iff] at hquoted
      exact hquoted
    rw [hfeed] at hpnl
    rw [hprice]
    exact (Option.some.inj hpnl).symm
  | some feed =>
    rw [QuotedAlike, hfeed, Option.map_some, eq_comm, Option.map_eq_some_iff] at hquoted
    obtain ⟨price, hprice, hside⟩ := hquoted
    rw [hfeed] at hpnl
    rw [hprice]
    cases hopen : t.openPrice with
    | none =>
      rw [hopen] at hpnl
      exact (Option.some.inj hpnl).symm
    | some openPrice =>
      rw [hopen] at hpnl
      have hvalue : calculatePnL market.fx t.direction openPrice (feed.closeSide t.direction) t.lotSize
          t.instrument t.commission = some pnl := hpnl
      simp [hside, hvalue]

/-- Where the two sources agree on the positions, a reported total is the engine's. -/
theorem statsFloatingPnl_eq {priceFeed : Instrument → Option Quote} {market : Market}
    {trades : List Trade} {total : Cents} (htotal : statsFloatingPnl priceFeed market.fx trades = some total)
    (hquoted : ∀ t ∈ trades, QuotedAlike priceFeed market t) : total = floatingPnl market trades := by
  obtain ⟨pnls, hpnls, rfl⟩ := Option.map_eq_some_iff.mp htotal
  rw [floatingPnl, List.sum_filterMap]
  congr 1
  rw [List.mapM_eq_some_iff] at hpnls
  clear htotal
  induction hpnls with
  | nil => rfl
  | cons hpnl _ ih =>
    rw [List.map_cons, statsPnl_eq (hquoted _ List.mem_cons_self) hpnl,
      ih fun t ht => hquoted t (List.mem_cons_of_mem _ ht)]

/-! ### The report -/

/-- A refusal of the eligibility chip: one of the shared predicate's, or a gate of the funded model. -/
inductive StatsBlocker
  | shared (blocker : Blocker)
  | tradingDays (remaining : Int)
  | minNetProfit (missing : Cents) (requiredPct : ℚ)
  | consistency (bestDayPct limitPct : ℚ)
  deriving DecidableEq

def StatsBlocker.code : StatsBlocker → String
  | shared blocker => blocker.code
  | tradingDays _ => "trading_days"
  | minNetProfit _ _ => "min_net_profit"
  | consistency _ _ => "consistency"

/-- The consistency gauge. -/
structure ConsistencyGauge where
  score : Option ℚ
  bestDayPct : ℚ
  bestDayProfit : Cents
  thresholdPct : ℚ
  realizedProfit : Cents

structure DailyDrawdown where
  usedPct : ℚ
  limitPct : ℚ
  amountUsed : Cents
  limitAmount : Cents

structure TradingDaysStat where
  qualifying : Nat
  required : Int
  remaining : Int
  met : Bool

structure PayoutChip where
  eligible : Bool
  blockers : List StatsBlocker
  nextBlocker : Option StatsBlocker

structure Stats where
  equity : Cents
  floatingPnl : Cents
  todayPnl : Cents
  drawdownFloor : Option Cents
  drawdownHeadroom : Option Cents
  dailyDrawdown : Option DailyDrawdown
  consistency : Option ConsistencyGauge
  tradingDays : Option TradingDaysStat
  payoutEligibility : Option PayoutChip

/-- `toFixed(1)`. -/
def toTenths (x : ℚ) : ℚ := roundHalfAway (x * 10) / 10

/-- The gauge, for an account whose own row carries a threshold. -/
def consistencyGauge (acc : Account) (closed : List Trade) : Option ConsistencyGauge :=
  (acc.consistencyMaxDayPct.filter (0 < ·)).map fun thresholdPct =>
    let realizedProfit := max 0 acc.realisedProfit
    let bestDayProfit := if 0 < realizedProfit then getBestDayProfit closed else 0
    let bestDayPct :=
      if 0 < realizedProfit then (toCents (bestDayProfit.dollars / realizedProfit.dollars * 100)).dollars
      else 0
    { score :=
        if 0 < realizedProfit then
          some (max 0 (min 100 (toTenths (100 - bestDayPct / thresholdPct * 100))))
        else none
      bestDayPct := bestDayPct
      bestDayProfit := bestDayProfit
      thresholdPct := thresholdPct
      realizedProfit := realizedProfit }

def dailyDrawdown (limits : Limits) (acc : Account) (todayPnl : Cents) : Option DailyDrawdown :=
  (limits.dailyDrawdownPct.filter fun pct => 0 < pct ∧ 0 < acc.startingBalance).map fun limitPct =>
    let todayLossAmount := if todayPnl < 0 then -todayPnl else 0
    let todayLossPct := (toCents (todayLossAmount.dollars / acc.startingBalance.dollars * 100)).dollars
    { usedPct := min (toTenths (todayLossPct / limitPct * 100)) 100
      limitPct := limitPct
      amountUsed := todayLossAmount
      limitAmount := toCents (acc.startingBalance.dollars * (limitPct / 100)) }

/-- The minimum of the funded model. The route does not select the columns a challenge account's own
minimum would come from, nor the profit that makes a day qualify. -/
def tradingDaysStat (terms : Option PayoutTerms) (acc : Account) (closed : List Trade) :
    Option TradingDaysStat :=
  let minDaysRequired := (terms.map PayoutTerms.fundedMinTradingDaysForPayout).getD 0
  if 0 < minDaysRequired then
    let qualifying := countQualifyingTradingDays closed acc.startingBalance none
    some
      { qualifying := qualifying
        required := minDaysRequired
        remaining := max 0 (minDaysRequired - qualifying)
        met := minDaysRequired ≤ qualifying }
  else none

/-- What the route mirrors of the request's gates for the funded stage. -/
def modelBlockers (terms : Option PayoutTerms) (acc : Account) (closed : List Trade) : List StatsBlocker :=
  let realizedProfit := max 0 acc.realisedProfit
  let minNetProfitPct := (terms.map PayoutTerms.fundedPayoutMinNetProfitPct).getD 0
  let required := acc.startingBalance.dollars * (minNetProfitPct / 100)
  let maxDayPct := (terms.map PayoutTerms.fundedConsistencyMaxDayPct).getD 0
  ((tradingDaysStat terms acc closed).toList.flatMap fun days =>
    if ¬ days.met then [.tradingDays days.remaining] else []) ++
  (if 0 < minNetProfitPct ∧ realizedProfit.dollars < required then
    [.minNetProfit (toCents (required - realizedProfit.dollars)) minNetProfitPct] else []) ++
  (consistencyGauge acc closed).toList.flatMap fun gauge =>
    if 0 < maxDayPct ∧ maxDayPct < gauge.bestDayPct then [.consistency gauge.bestDayPct maxDayPct] else []

namespace PayoutDb

variable (s : PayoutDb) (settings : StatsSettings) (userId : Nat) (acc : Account)

/-- The model's payout columns, which the route fetches for funded accounts. -/
def statsTerms : Option PayoutTerms := if acc.accountType = .funded then s.payoutTerms acc else none

def statsEligibilityInput : EligibilityInput where
  account := acc
  kycStatus := s.kycStatus userId
  openTradeCount := (s.db.tradesOf acc.id .opened).length
  pendingOrderCount := (s.db.tradesOf acc.id .pending).length
  pendingPayoutCount := (s.payouts.rows.filter fun p => p.accountId = acc.id ∧ p.status = .pending).length
  minRequestAmount := 50
  profitSharePct := settings.profitShare

def payoutChip : Option PayoutChip :=
  if acc.accountType = .funded then
    let blockers :=
      (evaluatePayoutEligibility (s.statsEligibilityInput settings userId acc)).blockers.map .shared ++
        modelBlockers (s.statsTerms acc) acc (s.db.closedTrades acc.id)
    some { eligible := blockers = [], blockers := blockers, nextBlocker := blockers.head? }
  else none

/-- `GET /accounts/stats/:account_id`, at one moment; a throw answers with no figures at all. -/
def stats (priceFeed : Instrument → Option Quote) (fx : FxSource) (now : Nat) : Option Stats := do
  let closed := s.db.closedTrades acc.id
  let limits := settings.statsLimits s.db acc
  let floatingPnl ← statsFloatingPnl priceFeed fx (s.db.tradesOf acc.id .opened)
  let equity := acc.currentBalance + floatingPnl
  let drawdownFloor := limits.maxDrawdownPct.map fun maxDrawdownPct =>
    toCents (resolveEffectiveFloor acc.drawdown
      ⟨equity.dollars, maxDrawdownPct, limits.drawdownLocksAtPct⟩).floor
  let todayPnl := getTodayRealizedPnl closed now + floatingPnl
  some
    { equity := equity
      floatingPnl := floatingPnl
      todayPnl := todayPnl
      drawdownFloor := drawdownFloor
      drawdownHeadroom := drawdownFloor.map fun floor => max 0 (equity - floor)
      dailyDrawdown := dailyDrawdown limits acc todayPnl
      consistency := consistencyGauge acc closed
      tradingDays := tradingDaysStat (s.statsTerms acc) acc closed
      payoutEligibility := s.payoutChip settings userId acc }

end PayoutDb

/-! ### What is enforced -/

/-- The part of a day's profit that is a loss. -/
def lossUsed (todayPnl : Cents) : Cents := max 0 (-todayPnl)

theorem lossUsed_eq_ite (todayPnl : Cents) :
    lossUsed todayPnl = if todayPnl < 0 then -todayPnl else 0 := by
  unfold lossUsed
  split_ifs with hloss
  · exact max_eq_right (by linarith)
  · exact max_eq_left (by linarith)

theorem dailyLossPct_eq (startingBalance todayPnl : Cents) :
    dailyLossPct startingBalance todayPnl
      = (lossUsed todayPnl).dollars / startingBalance.dollars * 100 := by
  rw [lossUsed_eq_ite]
  unfold dailyLossPct
  split_ifs with hloss
  · rw [Cents.dollars_neg, abs_of_neg]
    simpa using Cents.dollars_lt.mpr hloss
  · rw [Cents.dollars_zero, zero_div, zero_mul]

/-- The floor `checkFloatingDrawdown` compares the equity with, where it enforces one. -/
def enforcedFloor (db : Db) (acc : Account) (equity : Cents) : Option ℚ :=
  let limits := checkFloatingDrawdownLimits db acc
  (limits.maxDrawdownPct.filter (0 < ·)).map fun maxDrawdownPct =>
    (resolveEffectiveFloor acc.drawdown
      ⟨equity.dollars, maxDrawdownPct, limits.drawdownLocksAtPct⟩).floor

theorem checkFloatingDrawdown_trailing {db : Db} {acc : Account} {market : Market} {trades : List Trade}
    {todayRealized : Cents} :
    checkFloatingDrawdown (checkFloatingDrawdownLimits db acc) acc (floatingPnl market trades)
        todayRealized = some (.fail .trailing) ↔
      ∃ floor ∈ enforcedFloor db acc (acc.equity market trades),
        (acc.equity market trades).dollars ≤ floor := by
  unfold checkFloatingDrawdown enforcedFloor Account.equity
  dsimp only
  generalize (checkFloatingDrawdownLimits db acc).maxDrawdownPct.filter (0 < ·) = enforced
  cases enforced with
  | none => simp
  | some maxDrawdownPct =>
    dsimp only
    split_ifs with hbreach
    · simpa using hbreach
    · simpa using hbreach
    · simpa using hbreach
    · simpa using hbreach

/-! ### The figures agree -/

section Figures

variable {s : PayoutDb} {settings : StatsSettings} {userId : Nat} {acc : Account} {market : Market}
  {priceFeed : Instrument → Option Quote} {now : Nat} {report : Stats}

/-- The route reads the daily limit as `processAccount` does. -/
theorem statsLimits_daily (db : Db) (platform : PlatformSettings) :
    (settings.statsLimits db acc).dailyDrawdownPct
      = (processAccountLimits db platform acc).dailyDrawdownPct := by
  unfold StatsSettings.statsLimits processAccountLimits
  cases acc.fundedModel db with
  | none => rfl
  | some model => rfl

/-- Outside the accounts whose limits nothing but a setting decides, a maximum drawdown that is enforced is
the one described. -/
theorem statsLimits_maxDrawdownPct {db : Db} {maxDrawdownPct : ℚ}
    (hmodel : acc.accountType = .funded → (acc.fundedModel db).isSome)
    (hmax : (checkFloatingDrawdownLimits db acc).maxDrawdownPct = some maxDrawdownPct)
    (hpos : 0 < maxDrawdownPct) :
    (settings.statsLimits db acc).maxDrawdownPct = some maxDrawdownPct ∧
      (settings.statsLimits db acc).drawdownLocksAtPct
        = (checkFloatingDrawdownLimits db acc).drawdownLocksAtPct := by
  unfold StatsSettings.statsLimits checkFloatingDrawdownLimits Account.limitsWith at *
  cases hfound : acc.fundedModel db with
  | some model =>
    rw [hfound] at hmax
    exact ⟨hmax, rfl⟩
  | none =>
    have hfunded : acc.accountType ≠ .funded := fun h => by simpa [hfound] using hmodel h
    rw [hfound] at hmax
    obtain rfl : acc.maxDrawdownPct = maxDrawdownPct := Option.some.inj hmax
    refine ⟨?_, rfl⟩
    simp [StatsSettings.buildResolvedMaxDrawdownPct, hfunded, hpos.ne']

/-- The request for the minimum amount passes the route's eligibility checks. -/
def RequestPasses (s : PayoutDb) (userId : Nat) (acc : Account) : Prop :=
  MeetsRequestRules s userId acc 50 ∧
    ¬ s.payouts.rows.any fun p => p.accountId = acc.id ∧ p.status = .pending

instance (s : PayoutDb) (userId : Nat) (acc : Account) : Decidable (RequestPasses s userId acc) :=
  inferInstanceAs (Decidable (_ ∧ _))

/-- The best day's share of the profit, in percent. -/
def bestDayShare (acc : Account) (closed : List Trade) : ℚ :=
  (getBestDayProfit closed).dollars / acc.realisedProfit.dollars * 100

/-- The best day keeps within the model's cap, also as the gauge rounds it. -/
def BestDayWithin (terms : PayoutTerms) (acc : Account) (closed : List Trade) : Prop :=
  0 < terms.fundedConsistencyMaxDayPct →
    bestDayShare acc closed ≤ terms.fundedConsistencyMaxDayPct ∧
      (toCents (bestDayShare acc closed)).dollars ≤ terms.fundedConsistencyMaxDayPct

instance (terms : PayoutTerms) (acc : Account) (closed : List Trade) :
    Decidable (BestDayWithin terms acc closed) :=
  inferInstanceAs (Decidable (_ → _ ∧ _))

theorem modelBlockers_none (closed : List Trade) : modelBlockers none acc closed = [] := by
  simp [modelBlockers, tradingDaysStat]

theorem gauge_bestDayPct {closed : List Trade} {gauge : ConsistencyGauge}
    (hprofit : 0 < acc.realisedProfit) (hgauge : gauge ∈ consistencyGauge acc closed) :
    gauge.bestDayPct = (toCents (bestDayShare acc closed)).dollars := by
  obtain ⟨thresholdPct, _, rfl⟩ := Option.map_eq_some_iff.mp hgauge
  simp [bestDayShare, hprofit, max_eq_right hprofit.le]

/-- With the best day within the cap, what is left of the model's gates are the days and the profit. -/
theorem modelBlockers_eq_nil_iff {terms : PayoutTerms} {closed : List Trade}
    (hprofit : 0 < acc.realisedProfit) (hwithin : BestDayWithin terms acc closed) :
    modelBlockers (some terms) acc closed = [] ↔
      (0 < terms.fundedMinTradingDaysForPayout →
        terms.fundedMinTradingDaysForPayout ≤ countTradingDays closed) ∧
      (0 < terms.fundedPayoutMinNetProfitPct →
        acc.startingBalance.dollars * (terms.fundedPayoutMinNetProfitPct / 100)
          ≤ acc.realisedProfit.dollars) := by
  have hgauge : ((consistencyGauge acc closed).toList.flatMap fun gauge =>
      if 0 < terms.fundedConsistencyMaxDayPct ∧ terms.fundedConsistencyMaxDayPct < gauge.bestDayPct then
        [StatsBlocker.consistency gauge.bestDayPct terms.fundedConsistencyMaxDayPct] else []) = [] := by
    rw [List.flatMap_eq_nil_iff]
    intro gauge hmem
    rw [gauge_bestDayPct hprofit (Option.mem_toList.mp hmem), if_neg]
    rintro ⟨hcap, hover⟩
    exact hover.not_ge (hwithin hcap).2
  unfold modelBlockers
  simp only [Option.map_some, Option.getD_some, max_eq_right hprofit.le]
  rw [hgauge, List.append_nil, List.append_eq_nil_iff]
  refine and_congr ?_ ?_
  · unfold tradingDaysStat
    by_cases hmin : 0 < terms.fundedMinTradingDaysForPayout
    · by_cases hmet : terms.fundedMinTradingDaysForPayout ≤ countTradingDays closed
      · simp [hmin, countQualifyingTradingDays, hmet]
      · simp [hmin, countQualifyingTradingDays, hmet]
    · simp [hmin]
  · simp

theorem withdrawable_of_within {terms : PayoutTerms} {closed : List Trade}
    (hprofit : 0 < acc.realisedProfit) (hwithin : BestDayWithin terms acc closed)
    (hcap : 0 < terms.fundedConsistencyMaxDayPct) :
    consistentWithdrawableProfit acc.realisedProfit.dollars
      (consistencyCheck closed acc.realisedProfit terms.fundedConsistencyMaxDayPct).bestDayProfit
      terms.fundedConsistencyMaxDayPct = acc.realisedProfit.dollars := by
  have hdollars : 0 < acc.realisedProfit.dollars := by simpa using Cents.dollars_lt.mpr hprofit
  have hbest : (consistencyCheck closed acc.realisedProfit terms.fundedConsistencyMaxDayPct).bestDayProfit
      = (getBestDayProfit closed).dollars := by
    rw [consistencyCheck, if_neg (not_or.mpr ⟨hcap.not_ge, hprofit.not_ge⟩)]
  have hshare : (getBestDayProfit closed).dollars
      ≤ acc.realisedProfit.dollars * (terms.fundedConsistencyMaxDayPct / 100) := by
    have hle := (hwithin hcap).1
    rw [bestDayShare, ← le_div_iff₀ (by norm_num : (0 : ℚ) < 100), div_le_iff₀ hdollars] at hle
    rwa [mul_comm]
  have hallowed : acc.realisedProfit.dollars ≤ acc.realisedProfit.dollars
      * (1 + terms.fundedConsistencyMaxDayPct / 100) - (getBestDayProfit closed).dollars := by
    linarith
  rw [hbest, consistentWithdrawableProfit]
  dsimp only
  rw [if_neg (by simp only [not_or, not_not]; exact ⟨hdollars, by positivity⟩), min_eq_left hallowed,
    max_eq_right hdollars.le, toCents_dollars]

theorem profitShare_le : settings.profitShare ≤ 100 := by
  unfold StatsSettings.profitShare resolveProfitSharePct profitShareFallbackPct
  cases hshare : settings.profitSharePct.filter fun parsed => 0 < parsed ∧ parsed ≤ 100 with
  | none => exact le_rfl
  | some parsed =>
    obtain ⟨_, hbounds⟩ := Option.filter_eq_some_iff.mp hshare
    exact (of_decide_eq_true hbounds).2

theorem estimatedPayable_le :
    (s.statsEligibilityInput settings userId acc).estimatedPayable ≤ max 0 acc.realisedProfit := by
  have hdollars : max 0 acc.realisedProfit.dollars = Cents.dollars (max 0 acc.realisedProfit) := by
    rcases le_total acc.realisedProfit 0 with h | h
    · rw [max_eq_left h, max_eq_left (by simpa using Cents.dollars_le.mpr h), Cents.dollars_zero]
    · rw [max_eq_right h, max_eq_right (by simpa using Cents.dollars_le.mpr h)]
  have hshare := @profitShare_le settings
  change toCents (max 0 acc.realisedProfit.dollars * (settings.profitShare / 100)) ≤ _
  rw [← toCents_dollars (max 0 acc.realisedProfit), ← hdollars]
  exact toCents_mono (mul_le_of_le_one_right (le_max_left _ _) (by linarith))

theorem payoutChip_eligible_iff :
    (s.payoutChip settings userId acc).any PayoutChip.eligible = true ↔
      acc.accountType = .funded ∧
        (evaluatePayoutEligibility (s.statsEligibilityInput settings userId acc)).blockers = [] ∧
        modelBlockers (s.payoutTerms acc) acc (s.db.closedTrades acc.id) = [] := by
  unfold PayoutDb.payoutChip PayoutDb.statsTerms
  by_cases hfunded : acc.accountType = .funded
  · simp [hfunded]
  · simp [hfunded]

theorem pendingPayouts_eq_zero :
    (s.statsEligibilityInput settings userId acc).pendingPayoutCount = 0 ↔
      ¬ s.payouts.rows.any fun p => p.accountId = acc.id ∧ p.status = .pending := by
  change (s.payouts.rows.filter _).length = 0 ↔ _
  rw [List.length_eq_zero_iff, List.filter_eq_nil_iff, List.any_eq_true, not_exists]
  exact forall_congr' fun p => not_and.symm

/-- Leaving aside profits that the profit share takes below the minimum, and best days over the cap, the
chip tells whether the minimum may be requested. -/
theorem eligible_iff_requestPasses
    (hpayable : 50 ≤ acc.realisedProfit.dollars →
      50 ≤ (s.statsEligibilityInput settings userId acc).estimatedPayable.dollars)
    (hwithin : ∀ terms ∈ s.payoutTerms acc, BestDayWithin terms acc (s.db.closedTrades acc.id)) :
    (s.payoutChip settings userId acc).any PayoutChip.eligible = true ↔ RequestPasses s userId acc := by
  rw [payoutChip_eligible_iff, blockers_eq_nil_iff_payable rfl rfl, pendingPayouts_eq_zero, RequestPasses,
    MeetsRequestRules, amountGates_eq_ok_iff, accountGates_eq_ok_iff]
  have hmoney : 50 ≤ (s.statsEligibilityInput settings userId acc).estimatedPayable.dollars ↔
      50 ≤ acc.realisedProfit.dollars := by
    refine ⟨fun hle => ?_, hpayable⟩
    have hbound := hle.trans (Cents.dollars_le.mpr estimatedPayable_le)
    rcases le_total acc.realisedProfit 0 with h | h
    · rw [max_eq_left h, Cents.dollars_zero] at hbound
      linarith
    · rwa [max_eq_right h] at hbound
  have hmodel : 50 ≤ acc.realisedProfit.dollars →
      (modelBlockers (s.payoutTerms acc) acc (s.db.closedTrades acc.id) = [] ↔
        ∀ terms ∈ s.payoutTerms acc, FundedStageMet terms acc (s.db.closedTrades acc.id) 50) := by
    intro hfifty
    have hprofit : 0 < acc.realisedProfit := by
      rw [← Cents.dollars_lt, Cents.dollars_zero]
      linarith
    cases hterms : s.payoutTerms acc with
    | none => simp [modelBlockers_none]
    | some terms =>
      have hbest := hwithin terms hterms
      rw [modelBlockers_eq_nil_iff hprofit hbest]
      constructor
      · rintro ⟨hdays, hnet⟩ _ ⟨⟩
        refine ⟨hdays, hnet, fun hcap => ?_⟩
        rw [withdrawable_of_within hprofit hbest hcap]
        exact hfifty
      · intro hmet
        exact ⟨(hmet terms rfl).days, (hmet terms rfl).profit⟩
  simp only [PayoutDb.statsEligibilityInput, List.length_eq_zero_iff] at hmoney ⊢
  constructor
  · rintro ⟨_, ⟨hfunded, hactive, hkyc, hexposure, hpending, hfifty⟩, hnone⟩
    have hprofit := hmoney.mp hfifty
    have hpositive : 0 < acc.realisedProfit := by
      rw [← Cents.dollars_lt, Cents.dollars_zero]
      linarith
    exact ⟨⟨le_rfl, hfunded, hkyc, hactive, hexposure, hpositive, hprofit, (hmodel hprofit).mp hnone⟩,
      hpending⟩
  · rintro ⟨⟨_, hfunded, hkyc, hactive, hexposure, _, hprofit, hstage⟩, hpending⟩
    exact ⟨hfunded, ⟨hfunded, hactive, hkyc, hexposure, hpending, hmoney.mpr hprofit⟩,
      (hmodel hprofit).mpr hstage⟩

/-- What the dashboard shows is what the engines enforce: the equity, the floor to the cent for accounts
whose limits come from their row or their model, the daily limit and the loss the floating check measures
against it, and, for profits above the minimum payout and best days within the cap, whether the minimum
may be requested. -/
theorem stats_agree (platform : PlatformSettings)
    (hreport : s.stats settings userId acc priceFeed market.fx now = some report)
    (hquoted : ∀ t ∈ s.db.tradesOf acc.id .opened, QuotedAlike priceFeed market t) :
    let positions := s.db.tradesOf acc.id .opened
    let closed := s.db.closedTrades acc.id
    report.equity = acc.equity market positions ∧
      ((acc.accountType = .funded → (acc.fundedModel s.db).isSome) →
        ∀ floor ∈ enforcedFloor s.db acc (acc.equity market positions),
          report.drawdownFloor = some (toCents floor)) ∧
      report.dailyDrawdown.map DailyDrawdown.limitPct
        = ((processAccountLimits s.db platform acc).dailyDrawdownPct.filter fun pct =>
          0 < pct ∧ 0 < acc.startingBalance) ∧
      (∀ daily ∈ report.dailyDrawdown,
        daily.amountUsed = lossUsed (getTodayRealizedPnl closed now + floatingPnl market positions) ∧
          (positions = [] → daily.amountUsed = lossUsed (getTodayRealizedPnl closed now))) ∧
      ((50 ≤ acc.realisedProfit.dollars →
          50 ≤ (s.statsEligibilityInput settings userId acc).estimatedPayable.dollars) →
        (∀ terms ∈ s.payoutTerms acc, BestDayWithin terms acc closed) →
          (report.payoutEligibility.any PayoutChip.eligible = true ↔ RequestPasses s userId acc)) := by
  obtain ⟨total, htotal, hfields⟩ := Option.bind_eq_some_iff.mp hreport
  obtain rfl := Option.some.inj hfields
  obtain rfl := statsFloatingPnl_eq htotal hquoted
  refine ⟨rfl, ?_, ?_, ?_, eligible_iff_requestPasses⟩
  · intro hmodel floor hfloor
    obtain ⟨maxDrawdownPct, hmax, rfl⟩ := Option.map_eq_some_iff.mp hfloor
    obtain ⟨hmax, hpos⟩ := Option.filter_eq_some_iff.mp hmax
    obtain ⟨hshown, hlocks⟩ := statsLimits_maxDrawdownPct hmodel hmax (of_decide_eq_true hpos)
    dsimp only
    rw [hshown, hlocks]
    rfl
  · dsimp only
    rw [dailyDrawdown, statsLimits_daily s.db platform, Option.map_map]
    exact Option.map_id'
  · rintro daily hdaily
    obtain ⟨limitPct, _, rfl⟩ := Option.map_eq_some_iff.mp hdaily
    refine ⟨(lossUsed_eq_ite _).symm, fun hnone => ?_⟩
    rw [hnone, lossUsed_eq_ite]
    simp [floatingPnl]

end Figures

/-! ### Figures that part -/

/-- An account of the given type and balance, and what else is stored. -/
def deskOf (accountType : AccountType) (currentBalance : Cents) (trades : Table Trade)
    (terms : Table PayoutTerms) : PayoutDb :=
  let acc := { sampleTerms.provision 1 with
    accountType := accountType
    currentBalance := currentBalance
    challengeModelSlug := some "starter"
    consistencyMaxDayPct := some 15 }
  { PayoutDb.awaiting acc 0 with
    db := { Db.initial Table.empty with accounts := .single acc, trades := trades }
    terms := terms
    payouts := Table.empty }

/-- One lot of EURUSD, bought at 1.1. -/
def deskPosition : Trade := (Trade.filledAt (11 / 10) 100).apply (sampleOrder.row 1 .pending)

/-- A thousand dollars made on one day. -/
def deskProfit : Trade := (Trade.closedAt (some 1) 100000 "Manual Close" 50 false).apply deskPosition

def losingDesk : PayoutDb := deskOf .phase1 1000000 (.single deskPosition) Table.empty

def fifteenPercentCap : PayoutTerms := ⟨"starter", 0, 0, 15⟩

def deskSettings : StatsSettings := ⟨some (some 4), none, none, some 80⟩

/-- Half a cent below what the position was opened at. -/
def deskMarket : Market := ⟨quotedAt (1095 / 1000), noConversion⟩

def deskStats (s : PayoutDb) : Option Stats := do
  let acc ← s.db.account? 1
  s.stats deskSettings 3 acc deskMarket.prices deskMarket.fx 100

theorem stats_agree_losingDesk : ∃ report, deskStats losingDesk = some report ∧
    report.equity = 949300 ∧ report.drawdownFloor = some 900000 ∧
      report.dailyDrawdown.map DailyDrawdown.limitPct = some 5 := by
  obtain ⟨acc, hacc⟩ := Option.isSome_iff_exists.mp (by decide : (losingDesk.db.account? 1).isSome)
  obtain ⟨report, hreport⟩ := Option.isSome_iff_exists.mp
    (by decide +kernel : (deskStats losingDesk).isSome)
  have hstats : losingDesk.stats deskSettings 3 acc deskMarket.prices deskMarket.fx 100 = some report := by
    rw [← hreport, deskStats, hacc]
    rfl
  cases hacc
  obtain ⟨hequity, hfloor, hlimit, _⟩ :=
    @stats_agree losingDesk deskSettings 3 _ deskMarket deskMarket.prices 100 report idlePlatform hstats
      (by decide +kernel)
  have hcents : report.drawdownFloor = some (toCents 9000) := hfloor (by decide) 9000 (by decide +kernel)
  exact ⟨report, hreport, hequity.trans (by decide +kernel), hcents.trans (by decide +kernel),
    hlimit.trans (by decide +kernel)⟩

/-- The loss shown against the daily limit includes the open position, which `processAccount` leaves out.
Floors are shown to the cent, and a funded account without a model is shown that of the platform's four
percent where the ten of its row are enforced. Sixty dollars of profit block the chip and may be requested,
and so may a part of a profit made in one day. -/
theorem dashboard_differs :
    ((deskStats losingDesk).map fun report => report.dailyDrawdown.map DailyDrawdown.amountUsed)
        = some (some 50700) ∧
      lossUsed (getTodayRealizedPnl (losingDesk.db.closedTrades 1) 100) = 0 ∧
      (deskStats (deskOf .phase1 1000009 Table.empty Table.empty)).map Stats.drawdownFloor
        = some (some 900008) ∧
      ((deskOf .phase1 1000009 Table.empty Table.empty).db.account? 1).bind
        (fun acc => enforcedFloor (deskOf .phase1 1000009 Table.empty Table.empty).db acc 1000009)
        = some (9000081 / 1000) ∧
      (deskStats (deskOf .funded 1000000 Table.empty Table.empty)).map Stats.drawdownFloor
        = some (some 960000) ∧
      ((deskOf .funded 1000000 Table.empty Table.empty).db.account? 1).bind
        (fun acc => enforcedFloor (deskOf .funded 1000000 Table.empty Table.empty).db acc 1000000)
        = some 9000 ∧
      (∀ desk ∈ [deskOf .funded 1006000 Table.empty Table.empty,
          deskOf .funded 1100000 (.single deskProfit) (.single fifteenPercentCap)],
        ((deskStats desk).bind fun report => report.payoutEligibility.map PayoutChip.eligible)
            = some false ∧
          (desk.db.account? 1).any (fun acc => RequestPasses desk 3 acc) = true) := by
  decide +kernel

end PropFirm
