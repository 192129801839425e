import PropFirm.TradingDays

/-!
# Who may withdraw

`evaluatePayoutEligibility` is the predicate the approval path and the trader's blockers list share:
the account's type and status, identity verification, open exposure, another pending request, the
consistency rule when the caller supplies it, and the amount. A blocker carries the numbers its message
quotes.
-/

namespace PropFirm

inductive KycStatus
  | pending | approved | rejected
  deriving DecidableEq, Repr

/-- The result of `checkConsistencyRule` with the figures it quotes. -/
structure ConsistencyCheck where
  ok : Bool
  bestDayProfit : ℚ
  bestDayPct : ℚ

def consistencyCheck (closed : List Trade) (totalProfit : Cents) (consistencyPct : ℚ) :
    ConsistencyCheck where
  ok := checkConsistencyRule closed totalProfit consistencyPct
  bestDayProfit :=
    if consistencyPct ≤ 0 ∨ totalProfit ≤ 0 then 0 else (getBestDayProfit closed).dollars
  bestDayPct :=
    if consistencyPct ≤ 0 ∨ totalProfit ≤ 0 then 0
    else (getBestDayProfit closed).dollars / totalProfit.dollars * 100

inductive Blocker
  | notFunded
  | notActive (status : AccountStatus)
  | kycNotApproved
  | openExposure
  | pendingPayout
  | consistencyHold (withdrawableNow held bestDayPct capPct : ℚ)
  | belowPayable (gap : ℚ)
  | belowMinimum (minimum : ℚ)
  | insufficientProfit
  | aboveWithdrawable (withdrawableNow : ℚ)
  deriving DecidableEq

/-- The reason codes of `BLOCKER`. -/
def Blocker.code : Blocker → String
  | notFunded => "not_funded"
  | notActive _ => "not_active"
  | kycNotApproved => "kyc_not_approved"
  | openExposure => "open_exposure"
  | pendingPayout => "pending_payout"
  | belowPayable _ | belowMinimum _ => "below_minimum"
  | insufficientProfit => "insufficient_profit"
  | consistencyHold _ _ _ _ | aboveWithdrawable _ => "consistency_hold"

/-- How much of the profit the consistency rule lets out: all of it, less what the best day exceeds its
share by. -/
def consistentWithdrawableProfit (totalProfit bestDayProfit capPct : ℚ) : ℚ :=
  let cap := capPct / 100
  if ¬ 0 < totalProfit ∨ ¬ 0 < cap then max 0 totalProfit
  else
    let allowed := totalProfit * (1 + cap) - bestDayProfit
    (toCents (max 0 (min totalProfit allowed))).dollars

/-- The input of the evaluator, with the source's defaults. `requestedAmount` is absent when the
question is whether the account could withdraw at all. -/
structure EligibilityInput where
  account : Account
  kycStatus : Option KycStatus := none
  openTradeCount : Nat := 0
  pendingOrderCount : Nat := 0
  pendingPayoutCount : Nat := 0
  requestedAmount : Option ℚ := none
  minRequestAmount : ℚ := 50
  profitSharePct : ℚ := 100
  consistency : Option ConsistencyCheck := none
  consistencyMaxDayPct : ℚ := 0

structure Eligibility where
  blockers : List Blocker
  realizedProfit : Cents
  estimatedPayable : Cents
  withdrawableNow : ℚ

namespace EligibilityInput

def realizedProfit (input : EligibilityInput) : Cents := input.account.realisedProfit

def estimatedPayable (input : EligibilityInput) : Cents :=
  toCents (max 0 input.realizedProfit.dollars * (input.profitSharePct / 100))

def withdrawableNow (input : EligibilityInput) : ℚ :=
  match input.consistency with
  | some consistency =>
    if 0 < input.consistencyMaxDayPct then
      consistentWithdrawableProfit input.realizedProfit.dollars consistency.bestDayProfit
        input.consistencyMaxDayPct
    else max 0 input.realizedProfit.dollars
  | none => max 0 input.realizedProfit.dollars

def consistencyBlockers (input : EligibilityInput) : List Blocker :=
  match input.consistency with
  | some consistency =>
    if ¬ consistency.ok ∧ 0 < input.consistencyMaxDayPct then
      let held := max 0 (input.realizedProfit.dollars - input.withdrawableNow)
      [.consistencyHold input.withdrawableNow (toCents held).dollars consistency.bestDayPct
        input.consistencyMaxDayPct]
    else []
  | none => []

/-- The checks that do not look at the amount. -/
def accountBlockers (input : EligibilityInput) : List Blocker :=
  (if input.account.accountType ≠ .funded then [.notFunded] else []) ++
  (if input.account.status ≠ .active then [.notActive input.account.status] else []) ++
  (if input.kycStatus ≠ some .approved then [.kycNotApproved] else []) ++
  (if 0 < input.openTradeCount ∨ 0 < input.pendingOrderCount then [.openExposure] else []) ++
  (if 0 < input.pendingPayoutCount then [.pendingPayout] else []) ++
  input.consistencyBlockers

def amountBlockers (input : EligibilityInput) : List Blocker :=
  match input.requestedAmount with
  | none =>
    if input.estimatedPayable.dollars < input.minRequestAmount then
      [.belowPayable (toCents (input.minRequestAmount - input.estimatedPayable.dollars)).dollars]
    else []
  | some amount =>
    (if amount < input.minRequestAmount then [.belowMinimum input.minRequestAmount] else []) ++
      if input.realizedProfit.dollars < amount then [.insufficientProfit]
      -- a hold reported above already says how much may be withdrawn
      else if input.withdrawableNow < amount ∧
          ¬ input.accountBlockers.any (fun b => b.code = "consistency_hold") then
        [.aboveWithdrawable input.withdrawableNow]
      else []

end EligibilityInput

def evaluatePayoutEligibility (input : EligibilityInput) : Eligibility where
  blockers := input.accountBlockers ++ input.amountBlockers
  realizedProfit := input.realizedProfit
  estimatedPayable := input.estimatedPayable
  withdrawableNow := input.withdrawableNow

theorem guarded_eq_nil {p : Prop} [Decidable p] {b : Blocker} :
    (if p then [b] else []) = [] ↔ ¬ p := by
  split
  · rename_i hp
    exact ⟨fun h => (nomatch h), fun h => absurd hp h⟩
  · rename_i hnp
    exact ⟨fun _ => hnp, fun _ => rfl⟩

/-- Without a consistency check, an amount is blocked by the minimum and by the profit alone. -/
theorem blockers_eq_nil_iff {input : EligibilityInput} {amount : ℚ}
    (hamount : input.requestedAmount = some amount) (hconsistency : input.consistency = none) :
    (evaluatePayoutEligibility input).blockers = [] ↔
      input.account.accountType = .funded ∧ input.account.status = .active ∧
        input.kycStatus = some .approved ∧
        (input.openTradeCount = 0 ∧ input.pendingOrderCount = 0) ∧ input.pendingPayoutCount = 0 ∧
        input.minRequestAmount ≤ amount ∧ amount ≤ input.realizedProfit.dollars := by
  have hhold : input.consistencyBlockers = [] := by
    rw [EligibilityInput.consistencyBlockers, hconsistency]
  have hwithdrawable : input.withdrawableNow = max 0 input.realizedProfit.dollars := by
    rw [EligibilityInput.withdrawableNow, hconsistency]
  have hamounts : input.amountBlockers = [] ↔
      input.minRequestAmount ≤ amount ∧ amount ≤ input.realizedProfit.dollars := by
    rw [EligibilityInput.amountBlockers, hamount]
    dsimp only
    rw [List.append_eq_nil_iff, guarded_eq_nil, not_lt, hwithdrawable]
    refine and_congr_right fun _ => ?_
    split
    · rename_i hlt
      exact ⟨fun h => (nomatch h), fun hle => absurd hlt (not_lt.mpr hle)⟩
    · rename_i hnlt
      have hle := not_lt.mp hnlt
      have hbelow : ¬ max 0 input.realizedProfit.dollars < amount :=
        not_lt.mpr (hle.trans (le_max_right _ _))
      simp [hbelow, hle]
  simp only [evaluatePayoutEligibility, EligibilityInput.accountBlockers, List.append_eq_nil_iff,
    guarded_eq_nil, hhold, hamounts, not_or, not_lt, Nat.le_zero, not_not, and_true, and_assoc]

/-- Without an amount, the payable share of the profit has to clear the minimum. -/
theorem blockers_eq_nil_iff_payable {input : EligibilityInput} (hamount : input.requestedAmount = none)
    (hconsistency : input.consistency = none) :
    (evaluatePayoutEligibility input).blockers = [] ↔
      input.account.accountType = .funded ∧ input.account.status = .active ∧
        input.kycStatus = some .approved ∧
        (input.openTradeCount = 0 ∧ input.pendingOrderCount = 0) ∧ input.pendingPayoutCount = 0 ∧
        input.minRequestAmount ≤ input.estimatedPayable.dollars := by
  have hhold : input.consistencyBlockers = [] := by
    rw [EligibilityInput.consistencyBlockers, hconsistency]
  have hamounts : input.amountBlockers = [] ↔
      input.minRequestAmount ≤ input.estimatedPayable.dollars := by
    rw [EligibilityInput.amountBlockers, hamount]
    dsimp only
    rw [guarded_eq_nil, not_lt]
  simp only [evaluatePayoutEligibility, EligibilityInput.accountBlockers, List.append_eq_nil_iff,
    guarded_eq_nil, hhold, hamounts, not_or, not_lt, Nat.le_zero, not_not, and_true, and_assoc]

end PropFirm
