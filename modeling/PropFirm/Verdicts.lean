import PropFirm.Settlement

/-!
# What the enforcement paths decide

Three paths fail and pass accounts. The interval path, `checkFloatingDrawdown`, values the open
positions and compares the floating equity with the account's rules. The event path scans its
in-memory index on a price tick, `runTick`, and puts what it suspects to a second comparison against
the database, `settleAccountOutcomes`. The challenge engine, `processAccount`, looks at the settled
balance. Each path starts at most one terminal transaction for an account, or none.
-/

namespace PropFirm

/-! ### Floating equity -/

structure Market where
  prices : Instrument → Option Quote
  fx : FxSource

/-- One turn of the valuation loops: a position without a price or a dollar rate is skipped. -/
def Trade.floatingPnl (market : Market) (t : Trade) : Option Cents := do
  let price ← market.prices t.instrument
  let openPrice ← t.openPrice
  calculatePnL market.fx t.direction openPrice (price.closeSide t.direction) t.lotSize t.instrument
    t.commission

def floatingPnl (market : Market) (trades : List Trade) : Cents :=
  (trades.filterMap (Trade.floatingPnl market)).sum

def Account.equity (acc : Account) (market : Market) (trades : List Trade) : Cents :=
  acc.currentBalance + floatingPnl market trades

/-- Settling a position realises its floating value, nothing without a price. -/
theorem settlementFor_pnl {market : Market} {reason : String} {t : Trade} {c : Closing}
    (hsettle : settlementFor market.fx (market.prices t.instrument) reason t = some c) :
    c.pnl = (t.floatingPnl market).getD 0 := by
  unfold settlementFor at hsettle
  split at hsettle
  · rename_i hprice
    obtain ⟨openPrice, _, rfl⟩ := Option.map_eq_some_iff.mp hsettle
    simp [Trade.floatingPnl, hprice]
  · rename_i price hprice
    obtain ⟨openPrice, pnl, hopen, hpnl, rfl⟩ := priceClosing_spec hsettle
    simp [Trade.floatingPnl, hprice, hopen, hpnl]

/-- `settlementFor` throws for a position it has a price for but no dollar rate. -/
def Trade.Settles (market : Market) (t : Trade) : Prop :=
  t.openPrice.isSome ∧
    ((market.prices t.instrument).isSome → (getUsdRateForInstrument market.fx t.instrument).isSome)

instance (market : Market) (t : Trade) : Decidable (t.Settles market) :=
  inferInstanceAs (Decidable (_ ∧ _))

theorem settlementFor_isSome {market : Market} {reason : String} {t : Trade} :
    (settlementFor market.fx (market.prices t.instrument) reason t).isSome ↔ t.Settles market := by
  unfold settlementFor Trade.Settles
  cases hopen : t.openPrice with
  | none => cases market.prices t.instrument <;> simp [priceClosing, hopen]
  | some openPrice =>
    cases market.prices t.instrument with
    | none => simp
    | some price =>
      cases hrate : getUsdRateForInstrument market.fx t.instrument <;>
        simp [priceClosing, calculatePnL, hrate, hopen]

/-- A settlement of all positions credits what the same prices value them at. -/
theorem totalPnl_eq_floatingPnl {market : Market} {reason : String} {trades : List Trade}
    {closings : List Closing} (hclosings : trades.mapM (fun t =>
      settlementFor market.fx (market.prices t.instrument) reason t) = some closings) :
    Settling.totalPnl closings = floatingPnl market trades := by
  rw [Settling.totalPnl, floatingPnl, List.sum_filterMap,
    List.map_eq_of_mapM_eq_some hclosings fun _ _ hsettle => settlementFor_pnl hsettle]

/-! ### The rules -/

/-- The part of the starting balance lost today, in percent. -/
def dailyLossPct (startingBalance todayPnl : Cents) : ℚ :=
  if todayPnl < 0 then |todayPnl.dollars| / startingBalance.dollars * 100 else 0

/-- The daily loss limit, which an unset or non-positive percentage or balance switches off. -/
def dailyLimitReached (limits : Limits) (startingBalance todayPnl : Cents) : Bool :=
  limits.dailyDrawdownPct.any fun dailyDrawdownPct =>
    0 < dailyDrawdownPct ∧ 0 < startingBalance ∧
      dailyDrawdownPct ≤ dailyLossPct startingBalance todayPnl

def AccountType.hasTarget : AccountType → Bool
  | funded | competition => false
  | phase1 | phase2 | phase3 => true

def Account.targetReachedBy (acc : Account) (equity : Cents) : Bool :=
  acc.effectiveProfitTarget ≤ (equity - acc.startingBalance).dollars

inductive BreachKind
  | trailing | daily
  deriving DecidableEq

/-- What the interval and the event path decide to do with an account. -/
inductive Verdict
  | fail (breach : BreachKind)
  | pass
  deriving DecidableEq

def Verdict.kind : Verdict → SettleKind
  | fail _ => .autoCloseAndFail
  | pass => .autoCloseAndPass

/-! ### The interval path -/

/-- `checkFloatingDrawdown`, for one account with open positions. -/
def checkFloatingDrawdown (limits : Limits) (acc : Account) (floatingPnl todayRealized : Cents) :
    Option Verdict :=
  let equity := acc.currentBalance + floatingPnl
  match limits.maxDrawdownPct.filter (0 < ·) with
  | none => none
  | some maxDrawdownPct =>
    let resolved := resolveEffectiveFloor acc.drawdown
      ⟨equity.dollars, maxDrawdownPct, limits.drawdownLocksAtPct⟩
    if equity.dollars ≤ resolved.floor then some (.fail .trailing)
    else if dailyLimitReached limits acc.startingBalance (todayRealized + floatingPnl) then
      some (.fail .daily)
    else if acc.accountType.hasTarget ∧ acc.targetReachedBy equity then some .pass
    else none

theorem checkFloatingDrawdown_pass {limits : Limits} {acc : Account} {floatingPnl todayRealized : Cents}
    (hpass : checkFloatingDrawdown limits acc floatingPnl todayRealized = some .pass) :
    acc.targetReachedBy (acc.currentBalance + floatingPnl) = true := by
  unfold checkFloatingDrawdown at hpass
  dsimp only at hpass
  split at hpass
  · cases hpass
  · split_ifs at hpass with hbreach hdaily htarget
    · cases hpass
    · cases hpass
    · exact htarget.2

/-! ### The event path -/

/-- What the index holds of an account. Its numbers are kept in memory and round to nothing. -/
structure AccountEntry where
  accountType : AccountType
  startingBalance : Cents
  currentBalance : ℚ
  floatingPnl : ℚ
  todayRealizedPnl : ℚ
  profitTarget : ℚ
  eodPeakEquity : Option ℚ
  eodTrailingFloor : Option ℚ
  limits : Limits

def AccountEntry.equity (entry : AccountEntry) : ℚ := entry.currentBalance + entry.floatingPnl

def AccountEntry.drawdown (entry : AccountEntry) : DrawdownAccount where
  accountType := entry.accountType
  startingBalance := entry.startingBalance.dollars
  eodPeakEquity := entry.eodPeakEquity
  eodTrailingFloor := entry.eodTrailingFloor

/-- `buildAccountEntry`, with the limits `resolveDrawdownSettings` gives it and the two running totals
of the entry it replaces. -/
def buildAccountEntry (row : Account) (limits : Limits) (floatingPnl todayRealizedPnl : ℚ) :
    AccountEntry where
  accountType := row.accountType
  startingBalance := row.startingBalance
  currentBalance := row.currentBalance.dollars
  floatingPnl := floatingPnl
  todayRealizedPnl := todayRealizedPnl
  profitTarget := row.profitTarget.dollars
  eodPeakEquity := row.eodPeakEquity.map Cents.dollars
  eodTrailingFloor := row.eodTrailingFloor.map Cents.dollars
  limits := limits

def AccountEntry.resolution (entry : AccountEntry) (maxDrawdownPct : ℚ) : DrawdownResolution :=
  resolveEffectiveFloor entry.drawdown ⟨entry.equity, maxDrawdownPct, entry.limits.drawdownLocksAtPct⟩

inductive Candidate
  | trailing (floor : ℚ)
  | daily (dailyDrawdownPct : ℚ)
  | pass (profitTarget : ℚ)

/-- `runTick`'s evaluation of one account its scan touched. -/
def runTick (entry : AccountEntry) : Option Candidate :=
  match entry.limits.maxDrawdownPct.filter (0 < ·) with
  | none => none
  | some maxDrawdownPct =>
    let resolved := entry.resolution maxDrawdownPct
    let startingBalance := entry.startingBalance.dollars
    let todayTotal := entry.todayRealizedPnl + entry.floatingPnl
    let dailyLossPct :=
      if 0 < startingBalance ∧ todayTotal < 0 then |todayTotal| / startingBalance * 100 else 0
    let dailyReached := entry.limits.dailyDrawdownPct.filter fun dailyDrawdownPct =>
      0 < dailyDrawdownPct ∧ 0 < startingBalance ∧ dailyDrawdownPct ≤ dailyLossPct
    if entry.equity ≤ resolved.floor then some (.trailing resolved.floor)
    else match dailyReached with
    | some dailyDrawdownPct => some (.daily dailyDrawdownPct)
    | none =>
      let profitTarget :=
        if 0 < entry.profitTarget then entry.profitTarget else startingBalance * (1 / 10)
      if entry.accountType.hasTarget ∧ profitTarget ≤ entry.equity - startingBalance then
        some (.pass profitTarget)
      else none

/-- What `settleAccountOutcomes` does with a candidate once `confirmAccountEquityBatch` has valued the
account again from its row and its open positions. -/
def settleAccountOutcome (candidate : Candidate) (acc : Account) (floatingPnl todayRealized : Cents) :
    Option Verdict :=
  let equity := acc.currentBalance + floatingPnl
  match candidate with
  | .trailing floor => if floor ≤ equity.dollars then none else some (.fail .trailing)
  | .daily dailyDrawdownPct =>
    if dailyDrawdownPct ≤ dailyLossPct acc.startingBalance (todayRealized + floatingPnl) then
      some (.fail .daily)
    else none
  | .pass profitTarget =>
    if profitTarget ≤ (equity - acc.startingBalance).dollars then some .pass else none

theorem runTick_trailing {entry : AccountEntry} {floor : ℚ} :
    runTick entry = some (.trailing floor) ↔ ∃ maxDrawdownPct,
      entry.limits.maxDrawdownPct = some maxDrawdownPct ∧ 0 < maxDrawdownPct ∧
        (entry.resolution maxDrawdownPct).floor = floor ∧ entry.equity ≤ floor := by
  unfold runTick
  cases hmax : entry.limits.maxDrawdownPct with
  | none => simp
  | some maxDrawdownPct =>
    by_cases hpos : 0 < maxDrawdownPct
    · simp only [Option.filter_some, hpos, decide_true, if_true, Option.some.injEq, exists_eq_left',
        true_and]
      split
      · rename_i hbreach
        simp only [Option.some.injEq, Candidate.trailing.injEq]
        exact ⟨fun h => ⟨h, h ▸ hbreach⟩, And.left⟩
      · rename_i hbreach
        refine iff_of_false ?_ fun h => hbreach (h.1 ▸ h.2)
        split
        · simp
        · split <;> simp
    · simp [Option.filter_some, hpos]

theorem settleAccountOutcome_trailing {candidate : Candidate} {acc : Account}
    {floatingPnl todayRealized : Cents} :
    settleAccountOutcome candidate acc floatingPnl todayRealized = some (.fail .trailing) ↔
      ∃ floor, candidate = .trailing floor ∧ (acc.currentBalance + floatingPnl).dollars < floor := by
  cases candidate with
  | trailing floor => simp [settleAccountOutcome, Cents.dollars]
  | daily | pass => simp [settleAccountOutcome]

/-! ### The challenge engine -/

/-- What `processAccount` reads besides the account's row, each in a query of its own. -/
structure ProcessReads where
  lastActivityAt : Option Nat
  todayRealized : Cents
  openTrades : List Trade
  daysRead : List Trade
  bestDayRead : List Trade

def dailyLossReason : String := "Daily Loss Limit Breach"

/-- The resolution behind `processAccount`'s `getEffectiveDrawdownFloor`. A limit that is no number
makes no floor, but the peak is raised all the same. -/
def processAccountResolution (limits : Limits) (acc : Account) : DrawdownResolution :=
  resolveEffectiveFloor acc.drawdown
    ⟨acc.currentBalance.dollars, limits.maxDrawdownPct.getD 0, limits.drawdownLocksAtPct⟩

def processAccountBreached (limits : Limits) (acc : Account) : Bool :=
  0 < acc.startingBalance ∧ limits.maxDrawdownPct.isSome ∧
    acc.currentBalance.dollars ≤ (processAccountResolution limits acc).floor

/-- The account's phase has ended. Funded accounts have no time limits. -/
def Account.phaseExpired (acc : Account) (now : Nat) : Bool :=
  acc.accountType ≠ .funded ∧ acc.phaseEndDate.any (· ≤ now)

def Account.inactive (acc : Account) (platform : PlatformSettings) (lastActivityAt : Option Nat)
    (now : Nat) : Bool :=
  acc.accountType ≠ .funded ∧ platform.inactivityAutoFailEnabled ∧ 0 < platform.inactivityFailDays ∧
    lastActivityAt.any fun lastActivityAt =>
      platform.inactivityFailDays * secondsPerDay ≤ (now : ℚ) - lastActivityAt

/-- `processAccount`: the terminal transaction it calls for. A funded account's scaling plan ends
nothing, and neither do the soft holds of a target met too early. -/
def processAccount (limits : Limits) (platform : PlatformSettings) (acc : Account) (reads : ProcessReads)
    (now : Nat) : Option SettleKind :=
  if acc.phaseExpired now then some .expireAccount
  else if acc.inactive platform reads.lastActivityAt now then
    some (.failAccount true "Inactivity Auto-Fail")
  else if processAccountBreached limits acc then some (.failAccount false "Account Failed")
  else if dailyLimitReached limits acc.startingBalance reads.todayRealized then
    some (.failAccount false dailyLossReason)
  else if acc.accountType = .funded then none
  else if acc.targetReached ∧ reads.openTrades = [] ∧ acc.tradingDaysMet reads.daysRead ∧
      acc.consistencyMet reads.bestDayRead then some .passAccount
  else none

/-- The challenge engine passes an account whose settled balance has reached the target, and whose
closed rows satisfy the two history rules. -/
theorem processAccount_pass {limits : Limits} {platform : PlatformSettings} {acc : Account}
    {reads : ProcessReads} {now : Nat}
    (hpass : processAccount limits platform acc reads now = some .passAccount) :
    acc.targetReached = true ∧ acc.tradingDaysMet reads.daysRead = true ∧
      acc.consistencyMet reads.bestDayRead = true := by
  unfold processAccount at hpass
  split_ifs at hpass with hexpired hinactive hbreach hdaily hfunded hrules
  · cases hpass
  · cases hpass
  · cases hpass
  · cases hpass
  · exact ⟨hrules.1, hrules.2.2.1, hrules.2.2.2⟩

end PropFirm
