import PropFirm.Verdicts

/-!
# Verdicts on partial data

A position without a price or without a dollar rate contributes nothing to a floating equity, in the
interval path's loop and in the event path's confirmation alike. What it hides may be a profit as well
as a loss, so the equity of the rest may fail an account that is well above its floor, or pass one that
is short of its target. The settlement that follows closes a position without a price flat; only a
position that has a price and no rate makes it throw and roll back.
-/

namespace PropFirm

/-- Some position cannot be valued: it has no price, or its instrument has no dollar rate. -/
def PartialData (market : Market) (trades : List Trade) : Prop :=
  ∃ t ∈ trades, market.prices t.instrument = none ∨ getUsdRateForInstrument market.fx t.instrument = none

instance (market : Market) (trades : List Trade) : Decidable (PartialData market trades) :=
  inferInstanceAs (Decidable (∃ t ∈ trades, _))

/-! ### The two paths -/

/-- Act on a verdict: `autoCloseAndFail` or `autoCloseAndPass`, which leave the state as it is when they
roll back. -/
def enforce (db : Db) (verdict : Option Verdict) (accountId : Nat) (settlement : Market) (now : Nat) : Db :=
  match verdict with
  | none => db
  | some verdict => (settle db ⟨verdict.kind, accountId, settlement.prices, .unrecorded⟩ settlement.fx
      now).getD db

/-- The interval path over one account: the row and positions it read, what it valued them with, and
the state and prices its settlement finds. -/
def intervalPass (db : Db) (limits : Limits) (acc : Account) (trades : List Trade) (market : Market)
    (todayRealized : Cents) (settlement : Market) (now : Nat) : Db :=
  enforce db (checkFloatingDrawdown limits acc (floatingPnl market trades) todayRealized) acc.id settlement
    now

/-- The event path over one candidate, likewise. -/
def eventPass (db : Db) (candidate : Candidate) (acc : Account) (trades : List Trade) (market : Market)
    (todayRealized : Cents) (settlement : Market) (now : Nat) : Db :=
  enforce db (settleAccountOutcome candidate acc (floatingPnl market trades) todayRealized) acc.id
    settlement now

def Transitions (db db' : Db) (accountId : Nat) : Prop :=
  (db.account? accountId).map Account.status = some .active ∧
    ((db'.account? accountId).map Account.status = some .failed ∨
      (db'.account? accountId).map Account.status = some .passed)

instance (db db' : Db) (accountId : Nat) : Decidable (Transitions db db' accountId) :=
  inferInstanceAs (Decidable (_ ∧ (_ ∨ _)))

/-! ### When a path does nothing -/

/-- By this equity the account is above its floor, inside its daily limit and short of its target. -/
def WithinRules (limits : Limits) (acc : Account) (floatingPnl todayRealized : Cents) : Prop :=
  ∀ maxDrawdownPct, limits.maxDrawdownPct = some maxDrawdownPct → 0 < maxDrawdownPct →
    (resolveEffectiveFloor acc.drawdown ⟨(acc.currentBalance + floatingPnl).dollars, maxDrawdownPct,
        limits.drawdownLocksAtPct⟩).floor < (acc.currentBalance + floatingPnl).dollars ∧
      dailyLimitReached limits acc.startingBalance (todayRealized + floatingPnl) = false ∧
      (acc.accountType.hasTarget = true → acc.targetReachedBy (acc.currentBalance + floatingPnl) = false)

def Refuted (candidate : Candidate) (acc : Account) (floatingPnl todayRealized : Cents) : Prop :=
  match candidate with
  | .trailing floor => floor ≤ (acc.currentBalance + floatingPnl).dollars
  | .daily dailyDrawdownPct =>
    dailyLossPct acc.startingBalance (todayRealized + floatingPnl) < dailyDrawdownPct
  | .pass profitTarget =>
    (acc.currentBalance + floatingPnl - acc.startingBalance).dollars < profitTarget

/-- The settlement of the account does not go through: the account is not active any more, or one of
its open positions cannot be settled. -/
def Blocked (db : Db) (accountId : Nat) (settlement : Market) : Prop :=
  (db.account? accountId).map Account.status ≠ some .active ∨
    ∃ t ∈ db.tradesOf accountId .opened, ¬ t.Settles settlement

theorem checkFloatingDrawdown_eq_none {limits : Limits} {acc : Account} {floatingPnl todayRealized : Cents} :
    checkFloatingDrawdown limits acc floatingPnl todayRealized = none ↔
      WithinRules limits acc floatingPnl todayRealized := by
  unfold checkFloatingDrawdown WithinRules
  cases hmax : limits.maxDrawdownPct with
  | none => simp
  | some maxDrawdownPct =>
    by_cases hpos : 0 < maxDrawdownPct
    · simp only [Option.filter_some, hpos, decide_true, if_true, Option.some.injEq, forall_eq',
        forall_true_left]
      split_ifs with hbreach hdaily htarget
      · exact iff_of_false not_false fun h => hbreach.not_gt h.1
      · exact iff_of_false not_false fun h => Bool.false_ne_true (h.2.1.symm.trans hdaily)
      · exact iff_of_false not_false fun h =>
          Bool.false_ne_true ((h.2.2 htarget.1).symm.trans htarget.2)
      · refine iff_of_true rfl ⟨not_le.mp hbreach, by simpa using hdaily, fun hhas => ?_⟩
        exact Bool.eq_false_iff.mpr fun hreached => htarget ⟨hhas, hreached⟩
    · simp [Option.filter_some, hpos]

theorem settleAccountOutcome_eq_none {candidate : Candidate} {acc : Account}
    {floatingPnl todayRealized : Cents} :
    settleAccountOutcome candidate acc floatingPnl todayRealized = none ↔
      Refuted candidate acc floatingPnl todayRealized := by
  cases candidate <;> simp [settleAccountOutcome, Refuted]

theorem settle_isSome {db : Db} {verdict : Verdict} {accountId : Nat} {settlement : Market} {now : Nat} :
    (settle db ⟨verdict.kind, accountId, settlement.prices, .unrecorded⟩ settlement.fx now).isSome ↔
      ¬ Blocked db accountId settlement := by
  by_cases hactive : (db.account? accountId).map Account.status = some .active
  · obtain ⟨acc, hacc, hstatus⟩ := Option.map_eq_some_iff.mp hactive
    have hkind : verdict.kind = .autoCloseAndFail ∨ verdict.kind = .autoCloseAndPass := by
      cases verdict
      · exact .inl rfl
      · exact .inr rfl
    rw [settle, beginSettle_autoClose hkind hacc hstatus, Option.bind_some, Settling.finish_isSome]
    have hclosings : ∀ s : Settling, s.kind = verdict.kind →
        s.closings settlement.fx = s.trades.mapM fun t =>
          settlementFor settlement.fx (s.prices t.instrument) s.reason t := by
      intro s hs
      rcases hkind with h | h <;> rw [Settling.closings, hs, h]
    rw [hclosings _ rfl, List.isSome_mapM]
    simp only [settlementFor_isSome, Blocked, hactive, ne_eq, not_true_eq_false, false_or, not_exists,
      not_and, not_not]
    exact ⟨fun h => h.resolve_left (by rcases hkind with h | h <;> simp [h]), .inr⟩
  · refine iff_of_false (fun hsome => ?_) fun h => h (.inl hactive)
    obtain ⟨db', hsettle⟩ := Option.isSome_iff_exists.mp hsome
    obtain ⟨s, hbegin, _⟩ := Option.bind_eq_some_iff.mp hsettle
    obtain ⟨hread, hstatus, _⟩ := beginSettle_eq_some hbegin
    exact hactive (by rw [hread, Option.map_some, hstatus])

theorem enforce_transitions {db : Db} {verdict : Option Verdict} {accountId : Nat} {settlement : Market}
    {now : Nat} :
    Transitions db (enforce db verdict accountId settlement now) accountId ↔
      verdict ≠ none ∧ ¬ Blocked db accountId settlement := by
  have hstays : ¬ Transitions db db accountId := by
    rintro ⟨hactive, hended⟩
    rw [hactive] at hended
    simp at hended
  cases verdict with
  | none => exact iff_of_false hstays fun h => h.1 rfl
  | some verdict =>
    rw [enforce, ← @settle_isSome db verdict accountId settlement now]
    cases hsettle : settle db ⟨verdict.kind, accountId, settlement.prices, .unrecorded⟩ settlement.fx
      now with
    | none => exact iff_of_false hstays fun h => nomatch h.2
    | some db' =>
      have hunblocked := settle_isSome.mp (Option.isSome_of_eq_some hsettle)
      rw [Blocked, not_or, not_not] at hunblocked
      obtain ⟨acc, hacc, hstatus⟩ := Option.map_eq_some_iff.mp hunblocked.1
      have hended := @settle_status db ⟨verdict.kind, accountId, settlement.prices, .unrecorded⟩
        settlement.fx now acc hacc
      rw [hsettle, Option.getD_some] at hended
      refine iff_of_true ⟨hunblocked.1, ?_⟩ ⟨nofun, rfl⟩
      rw [Option.getD_some, hended]
      cases verdict
      · exact .inl rfl
      · exact .inr rfl

def SafeOnPartialData (db : Db) (limits : Limits) (candidate : Candidate) (acc : Account)
    (trades : List Trade) (market : Market) (todayRealized : Cents) (settlement : Market) (now : Nat) :
    Prop :=
  PartialData market trades →
    ¬ Transitions db (intervalPass db limits acc trades market todayRealized settlement now) acc.id ∧
      ¬ Transitions db (eventPass db candidate acc trades market todayRealized settlement now) acc.id

instance (db : Db) (limits : Limits) (candidate : Candidate) (acc : Account) (trades : List Trade)
    (market : Market) (todayRealized : Cents) (settlement : Market) (now : Nat) :
    Decidable (SafeOnPartialData db limits candidate acc trades market todayRealized settlement now) :=
  inferInstanceAs (Decidable (_ → _))

/-- The paths leave the account alone on partial data exactly when the part they can value is within
the rules and refutes the candidate, or the settlement is blocked. -/
theorem safeOnPartialData_iff (db : Db) (limits : Limits) (candidate : Candidate) (acc : Account)
    (trades : List Trade) (market : Market) (todayRealized : Cents) (settlement : Market) (now : Nat) :
    SafeOnPartialData db limits candidate acc trades market todayRealized settlement now ↔
      (PartialData market trades → Blocked db acc.id settlement ∨
        WithinRules limits acc (floatingPnl market trades) todayRealized ∧
          Refuted candidate acc (floatingPnl market trades) todayRealized) := by
  refine imp_congr_right fun _ => ?_
  rw [intervalPass, eventPass, enforce_transitions, enforce_transitions,
    ← checkFloatingDrawdown_eq_none, ← settleAccountOutcome_eq_none]
  tauto

/-- A euro position that has lost 1,507 dollars and a gold position that has won 1,993. -/
def hedgedTrades : List Trade :=
  [{ sampleOrder.row 1 .opened with openPrice := some (11 / 10) },
    { sampleOrder.row 2 .opened with instrument := .xauusd, openPrice := some 2000 }]

def hedgedAccount : Db where
  accounts := ⟨[sampleTerms.provision 1], by simp⟩
  trades := ⟨hedgedTrades, by decide⟩
  models := Table.empty
  adjustments := []
  booked := []
  openedLots := []

def hedgedMarket (goldUp : Bool) : Market where
  prices := fun
    | .eurusd => some (quoteAt (1085 / 1000))
    | .xauusd => if goldUp then some (quoteAt 2020) else none
    | _ => none
  fx := noConversion

/-- On all prices the account is within its rules. Without the gold price both paths fail it. -/
theorem fails_on_partial_data :
    checkFloatingDrawdown (sampleTerms.provision 1).columnLimits (sampleTerms.provision 1)
        (floatingPnl (hedgedMarket true) hedgedTrades) 0 = none ∧
      ¬ SafeOnPartialData hedgedAccount (sampleTerms.provision 1).columnLimits (.trailing 9000)
        (sampleTerms.provision 1) hedgedTrades (hedgedMarket false) 0 (hedgedMarket false) 0 := by
  decide +kernel

end PropFirm
