import PropFirm.BreachBoundary

/-!
# Enforcing the daily loss limit

`processAccount` calls `failAccount` for a daily loss exactly as it does for a drawdown: without
`skipDrawdownCheck`, which only the inactivity rule passes. `failAccount` then re-checks the trailing
floor, not the daily loss, and rolls back unless the balance is strictly below the floor. A balance
that low has already failed the account in `processAccount`'s own comparison, except where the two
functions compare with different limits: for a funded account without a model.
-/

namespace PropFirm

def Db.processReads (db : Db) (accountId : Nat) (lastActivityAt : Option Nat) (now : Nat) :
    ProcessReads where
  lastActivityAt := lastActivityAt
  todayRealized := getTodayRealizedPnl (db.closedTrades accountId) now
  openTrades := db.tradesOf accountId .opened
  daysRead := db.closedTrades accountId
  bestDayRead := db.closedTrades accountId

/-- The state once `processAccount` has persisted the anchors of its floor, if it resolves one. -/
def Db.withProcessAnchors (db : Db) (platform : PlatformSettings) (acc : Account)
    (lastActivityAt : Option Nat) (now : Nat) : Db :=
  if acc.phaseExpired now ∨ acc.inactive platform lastActivityAt now ∨ ¬ 0 < acc.startingBalance then db
  else
    let limits := processAccountLimits db platform acc
    (getEffectiveDrawdownFloor db acc ⟨acc.currentBalance.dollars, limits.maxDrawdownPct.getD 0,
      limits.drawdownLocksAtPct⟩).1

/-- `processAccount` from its first read to its return, with no other transaction in between. -/
def runProcessAccount (db : Db) (platform : PlatformSettings) (market : Market)
    (lastActivityAt : Option Nat) (accountId now : Nat) : Db :=
  match db.account? accountId with
  | none => db
  | some acc =>
    let anchored := db.withProcessAnchors platform acc lastActivityAt now
    match processAccount (processAccountLimits db platform acc) platform acc
      (db.processReads accountId lastActivityAt now) now with
    | none => anchored
    | some kind =>
      (settle anchored ⟨kind, accountId, market.prices, .unrecorded⟩ market.fx now).getD anchored

def FindsDailyLoss (db : Db) (platform : PlatformSettings) (lastActivityAt : Option Nat) (acc : Account)
    (now : Nat) : Prop :=
  processAccount (processAccountLimits db platform acc) platform acc
    (db.processReads acc.id lastActivityAt now) now = some (.failAccount false dailyLossReason)

/-- `failAccount` resolves a floor above the balance where `processAccount` resolved none, or a lower
one. -/
def BelowColumnFloor (db : Db) (acc : Account) : Prop :=
  acc.accountType = .funded ∧ acc.fundedModel db = none ∧ 0 < acc.maxDrawdownPct ∧
    acc.currentBalance.dollars < computeTrailingFloor
      (max acc.drawdown.priorPeak acc.currentBalance.dollars) acc.maxDrawdownPct

instance (db : Db) (platform : PlatformSettings) (lastActivityAt : Option Nat) (acc : Account)
    (now : Nat) : Decidable (FindsDailyLoss db platform lastActivityAt acc now) :=
  inferInstanceAs (Decidable (_ = _))

instance (db : Db) (acc : Account) : Decidable (BelowColumnFloor db acc) :=
  inferInstanceAs (Decidable (_ ∧ _ ∧ _ ∧ _))

/-! ### The re-check -/

theorem processAccount_dailyLoss {limits : Limits} {platform : PlatformSettings} {acc : Account}
    {reads : ProcessReads} {now : Nat}
    (hdaily : processAccount limits platform acc reads now = some (.failAccount false dailyLossReason)) :
    acc.phaseExpired now = false ∧ acc.inactive platform reads.lastActivityAt now = false ∧
      processAccountBreached limits acc = false ∧ 0 < acc.startingBalance := by
  unfold processAccount at hdaily
  split_ifs at hdaily with hexpired hinactive hbreach hlimit hfunded hrules
  · cases hdaily
  · cases hdaily
  · exact absurd hdaily (by decide)
  · refine ⟨by simpa using hexpired, by simpa using hinactive, by simpa using hbreach, ?_⟩
    rw [dailyLimitReached, Option.any_eq_true] at hlimit
    obtain ⟨_, _, hlimit⟩ := hlimit
    exact (of_decide_eq_true hlimit).2.1
  · cases hdaily

theorem failAccountRecheck_anchored {db : Db} {acc : Account} {r : DrawdownResolution} :
    failAccountRecheck db ((Account.anchored r).apply acc)
      = recheckFloor (failAccountLimits db acc).1 (failAccountLimits db acc).2
        ((Account.anchored r).apply acc) :=
  rfl

/-- Past `processAccount`'s own comparison, the re-check finds a breach for a funded account without a
model only, below the floor of its own column. -/
theorem failAccountRecheck_isSome {db : Db} {platform : PlatformSettings} {acc : Account}
    (hstart : 0 < acc.startingBalance)
    (hunbreached : processAccountBreached (processAccountLimits db platform acc) acc = false) :
    (failAccountRecheck db ((Account.anchored
      (processAccountResolution (processAccountLimits db platform acc) acc)).apply acc)).isSome ↔
      BelowColumnFloor db acc := by
  -- where both functions compare with the same limits, the first comparison settles the second
  have hsame : ∀ maxDrawdownPct locksAtPct,
      (processAccountLimits db platform acc).maxDrawdownPct = some maxDrawdownPct →
      (processAccountLimits db platform acc).drawdownLocksAtPct = locksAtPct →
      ¬ (recheckFloor maxDrawdownPct locksAtPct (acc.anchoredAt acc.currentBalance maxDrawdownPct
        locksAtPct)).isSome := by
    intro maxDrawdownPct locksAtPct hmax hlocks hrecheck
    have hbelow := (anchoredAt_floor ..).mp (recheckFloor_isSome.mp hrecheck).2
    rw [processAccountBreached, decide_eq_false_iff_not] at hunbreached
    refine hunbreached ⟨hstart, by rw [hmax]; rfl, ?_⟩
    rw [processAccountResolution, hmax, hlocks]
    exact hbelow.le
  rw [failAccountRecheck_anchored]
  cases hmodel : acc.fundedModel db with
  | some model =>
    have hprocess : processAccountLimits db platform acc = model.limits := by
      simp [processAccountLimits, hmodel]
    have hfail : failAccountLimits db acc
        = (model.fundedMaxDrawdownPct, model.fundedDrawdownLocksAtPct) := by
      simp [failAccountLimits, hmodel]
    rw [hprocess] at hsame
    rw [hprocess, hfail]
    refine iff_of_false (hsame _ _ rfl rfl) fun hbelow => ?_
    cases hmodel.symm.trans hbelow.2.1
  | none =>
    have hfail : failAccountLimits db acc = (acc.maxDrawdownPct, none) := by
      simp [failAccountLimits, hmodel]
    by_cases hfunded : acc.accountType = .funded
    · have hprocess : processAccountLimits db platform acc
          = ⟨platform.fundedMaxDrawdownPct, acc.dailyDrawdownPct, none⟩ := by
        simp [processAccountLimits, hmodel, hfunded, Account.columnLimits]
      rw [hprocess, hfail, recheckFloor_isSome]
      have hfloor := @resolveEffectiveFloor_floor_unlocked
        (acc.anchoredAt acc.currentBalance (platform.fundedMaxDrawdownPct.getD 0) none).drawdown
        ⟨acc.currentBalance.dollars, acc.maxDrawdownPct, none⟩ fun _ => rfl
      rw [anchoredAt_priorPeak, max_assoc, max_self] at hfloor
      constructor
      · rintro ⟨hpos, hbelow⟩
        exact ⟨hfunded, hmodel, hpos, hbelow.trans_eq hfloor⟩
      · rintro ⟨_, _, hpos, hbelow⟩
        exact ⟨hpos, hbelow.trans_eq hfloor.symm⟩
    · have hprocess : processAccountLimits db platform acc = acc.columnLimits := by
        simp [processAccountLimits, hmodel, hfunded, Account.columnLimits]
      rw [hprocess] at hsame
      rw [hprocess, hfail]
      exact iff_of_false (hsame _ _ rfl rfl) fun hbelow => hfunded hbelow.1

/-! ### The enforcement -/

/-- A daily loss that `processAccount` finds fails the account exactly when the account's balance is
also below the floor that `failAccount` resolves and `processAccount` did not. -/
theorem dailyLoss_enforced_iff {db : Db} {platform : PlatformSettings} {market : Market}
    {lastActivityAt : Option Nat} {now : Nat} {acc : Account} (hacc : db.account? acc.id = some acc)
    (hactive : acc.status = .active) (hfinds : FindsDailyLoss db platform lastActivityAt acc now)
    (hsettles : ∀ t ∈ db.tradesOf acc.id .opened, t.Settles market) :
    ((runProcessAccount db platform market lastActivityAt acc.id now).account? acc.id).map Account.status
        = some .failed ↔ BelowColumnFloor db acc := by
  obtain ⟨hexpired, hinactive, hunbreached, hstart⟩ := processAccount_dailyLoss hfinds
  let resolution := processAccountResolution (processAccountLimits db platform acc) acc
  let anchored : Db := { db with accounts := db.accounts.updateAt acc.id (Account.anchored resolution) }
  let call : SettleCall := ⟨.failAccount false dailyLossReason, acc.id, market.prices, .unrecorded⟩
  have hanchored : db.withProcessAnchors platform acc lastActivityAt now = anchored := by
    simp only [Db.processReads] at hinactive
    simp [Db.withProcessAnchors, getEffectiveDrawdownFloor, processAccountResolution, hexpired,
      hinactive, hstart, anchored, resolution]
  have hrow : anchored.account? acc.id = some ((Account.anchored resolution).apply acc) := by
    have hexec : (Stmt.raiseAnchors acc.id resolution).exec db = some anchored := rfl
    rw [Stmt.exec_account? hexec hacc, Stmt.accountUpdate, if_pos rfl]
  have hrun : runProcessAccount db platform market lastActivityAt acc.id now
      = (settle anchored call market.fx now).getD anchored := by
    rw [FindsDailyLoss] at hfinds
    simp only [runProcessAccount, hacc, hfinds, hanchored, call]
  have hcommits : (settle anchored call market.fx now).isSome ↔ BelowColumnFloor db acc := by
    have hrecheck := @failAccountRecheck_isSome db platform acc hstart hunbreached
    rw [← hrecheck, settle, beginSettle_failAccount hrow hactive]
    change _ ↔ (failAccountRecheck anchored _).isSome
    cases failAccountRecheck anchored ((Account.anchored resolution).apply acc) with
    | none => exact Iff.rfl
    | some raised =>
      refine iff_of_true (Settling.finish_isSome.mpr (.inr ?_)) rfl
      exact List.isSome_mapM.mpr fun t ht => settlementFor_isSome.mpr (hsettles t ht)
  have hstatus := @settle_status anchored call market.fx now _ hrow
  rw [hrun, hstatus, ← hcommits]
  cases (settle anchored call market.fx now).isSome with
  | false =>
    refine iff_of_false (fun hfailed => ?_) Bool.false_ne_true
    cases hactive.symm.trans (Option.some.inj hfailed)
  | true => exact iff_of_true rfl rfl

def lossOfToday (acc : Account) : Db where
  accounts := ⟨[acc], by simp⟩
  trades := ⟨[{ sampleOrder.row 1 .closed with closeTime := some 0, demoPnl := some (-60000) }], by simp⟩
  models := Table.empty
  adjustments := []
  booked := []
  openedLots := []

/-- A funded account without a model: its column's floor is 9,500 dollars, the platform's 9,000. -/
def fundedWithoutModel : Account :=
  { sampleTerms.provision 1 with
    accountType := .funded, maxDrawdownPct := 5, currentBalance := 940000 }

theorem dailyLoss_enforced_iff_fundedWithoutModel :
    ((runProcessAccount (lossOfToday fundedWithoutModel) idlePlatform ⟨quotedAt 1, noConversion⟩ none 1
      0).account? 1).map Account.status = some .failed :=
  (@dailyLoss_enforced_iff _ _ _ _ _ fundedWithoutModel (by decide +kernel) rfl (by decide +kernel)
    (by decide +kernel)).mpr (by decide +kernel)

/-- An evaluation account that has lost 6% of its starting balance today, on a limit of 5%, and is 400
dollars above its trailing floor. -/
def accountPastDailyLimit : Account := { sampleTerms.provision 1 with currentBalance := 940000 }

theorem dailyLoss_not_enforced :
    (lossOfToday accountPastDailyLimit).account? 1 = some accountPastDailyLimit ∧
      FindsDailyLoss (lossOfToday accountPastDailyLimit) idlePlatform none accountPastDailyLimit 0 ∧
      ((runProcessAccount (lossOfToday accountPastDailyLimit) idlePlatform ⟨quotedAt 1, noConversion⟩
        none 1 0).account? 1).map Account.status = some .active := by
  decide +kernel

end PropFirm
