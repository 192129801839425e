import PropFirm.Lib.JsText
import PropFirm.PayoutEligibility

/-!
# What eligibility asks for

The evaluator's callers pass it a row, three counts and whatever values they have for the amounts, which
it reads with `toNum`: what is no number counts as zero, or as the default where there is one. It finds
no blocker exactly when the account may withdraw, the amount fits and the consistency rule is kept. A
breached rule is reported even to a request for the part that may be taken.
-/

namespace PropFirm

structure EligibilityCall where
  account : Account
  kycStatus : Option KycStatus := none
  openTradeCount : Nat := 0
  pendingOrderCount : Nat := 0
  pendingPayoutCount : Nat := 0
  requestedAmount : NumericInput := .nullish
  minRequestAmount : NumericInput := .nullish
  profitSharePct : NumericInput := .nullish
  consistency : Option ConsistencyCheck := none
  consistencyMaxDayPct : NumericInput := .nullish

/-- What the evaluator makes of its arguments. -/
def EligibilityCall.input (call : EligibilityCall) : EligibilityInput where
  account := call.account
  kycStatus := call.kycStatus
  openTradeCount := call.openTradeCount
  pendingOrderCount := call.pendingOrderCount
  pendingPayoutCount := call.pendingPayoutCount
  requestedAmount :=
    match call.requestedAmount with
    | .nullish => none
    | value => some (value.toNum 0)
  minRequestAmount := call.minRequestAmount.toNum 50
  profitSharePct := call.profitSharePct.toNum 100
  consistency := call.consistency
  consistencyMaxDayPct := call.consistencyMaxDayPct.toNum 0

/-- The profit never lets out more than there is. -/
theorem consistentWithdrawableProfit_le (totalProfit : Cents) (bestDayProfit capPct : ℚ) :
    consistentWithdrawableProfit totalProfit.dollars bestDayProfit capPct ≤ max 0 totalProfit.dollars := by
  simp only [consistentWithdrawableProfit]
  split
  · exact le_rfl
  · rename_i hpositive
    have htotal : 0 < totalProfit.dollars := by
      by_contra hnot
      exact hpositive (.inl hnot)
    have hbelow := toCents_mono (max_le htotal.le (min_le_left totalProfit.dollars
      (totalProfit.dollars * (1 + capPct / 100) - bestDayProfit)))
    rw [toCents_dollars] at hbelow
    exact (Cents.dollars_le.mpr hbelow).trans (le_max_right _ _)

namespace EligibilityInput

variable {input : EligibilityInput}

/-- The rules that look at neither the amount nor the consistency. -/
structure AccountRules (input : EligibilityInput) : Prop where
  funded : input.account.accountType = .funded
  active : input.account.status = .active
  kyc : input.kycStatus = some .approved
  exposure : input.openTradeCount = 0 ∧ input.pendingOrderCount = 0
  payouts : input.pendingPayoutCount = 0

def Breached (input : EligibilityInput) : Prop :=
  (∃ consistency ∈ input.consistency, consistency.ok = false) ∧ 0 < input.consistencyMaxDayPct

/-- The amount is allowed, and at most the profit. -/
def Fits (input : EligibilityInput) (amount : ℚ) : Prop :=
  input.minRequestAmount ≤ amount ∧ amount ≤ input.withdrawableNow ∧
    amount ≤ input.realizedProfit.dollars

/-- Without an amount, the payable share has to clear the minimum. -/
def AmountRule (input : EligibilityInput) : Prop :=
  match input.requestedAmount with
  | none => input.minRequestAmount ≤ input.estimatedPayable.dollars
  | some amount => input.Fits amount

theorem withdrawableNow_le (input : EligibilityInput) :
    input.withdrawableNow ≤ max 0 input.realizedProfit.dollars := by
  rw [withdrawableNow]
  split
  · split
    · exact consistentWithdrawableProfit_le ..
    · exact le_rfl
  · exact le_rfl

theorem mem_consistencyBlockers {b : Blocker} (hb : b ∈ input.consistencyBlockers) :
    input.Breached ∧ b.code = "consistency_hold" := by
  rw [consistencyBlockers] at hb
  split at hb
  · rename_i consistency hconsistency
    split at hb
    · rename_i hbreach
      rw [List.mem_singleton.mp hb]
      exact ⟨⟨⟨consistency, hconsistency, eq_false_of_ne_true hbreach.1⟩, hbreach.2⟩, rfl⟩
    · exact absurd hb List.not_mem_nil
  · exact absurd hb List.not_mem_nil

theorem consistencyBlockers_eq_nil_iff : input.consistencyBlockers = [] ↔ ¬input.Breached := by
  refine ⟨fun hnil hbreached => ?_, fun hkept => ?_⟩
  · obtain ⟨⟨consistency, hconsistency, hok⟩, hcap⟩ := hbreached
    rw [consistencyBlockers, hconsistency] at hnil
    dsimp only at hnil
    rw [if_pos ⟨ne_true_of_eq_false hok, hcap⟩] at hnil
    cases hnil
  · refine List.eq_nil_iff_forall_not_mem.mpr fun b hb => hkept ?_
    exact (mem_consistencyBlockers hb).1

theorem accountBlockers_eq (hrules : input.AccountRules) :
    input.accountBlockers = input.consistencyBlockers := by
  rw [accountBlockers, if_neg (not_not.mpr hrules.funded), if_neg (not_not.mpr hrules.active),
    if_neg (not_not.mpr hrules.kyc), if_neg (by rw [hrules.exposure.1, hrules.exposure.2]; decide),
    if_neg (by rw [hrules.payouts]; decide)]
  rfl

theorem accountBlockers_eq_nil_iff :
    input.accountBlockers = [] ↔ input.AccountRules ∧ ¬input.Breached := by
  simp only [accountBlockers, List.append_eq_nil_iff, guarded_eq_nil, not_not, not_or, not_lt,
    Nat.le_zero, consistencyBlockers_eq_nil_iff]
  constructor
  · rintro ⟨⟨⟨⟨⟨hfunded, hactive⟩, hkyc⟩, hexposure⟩, hpayouts⟩, hkept⟩
    exact ⟨⟨hfunded, hactive, hkyc, hexposure, hpayouts⟩, hkept⟩
  · rintro ⟨⟨hfunded, hactive, hkyc, hexposure, hpayouts⟩, hkept⟩
    exact ⟨⟨⟨⟨⟨hfunded, hactive⟩, hkyc⟩, hexposure⟩, hpayouts⟩, hkept⟩

theorem amountBlockers_of_fits {amount : ℚ} (hamount : input.requestedAmount = some amount)
    (hfits : input.Fits amount) : input.amountBlockers = [] := by
  obtain ⟨hminimum, hallowed, hprofit⟩ := hfits
  rw [amountBlockers, hamount]
  dsimp only
  rw [if_neg (not_lt.mpr hminimum), if_neg (not_lt.mpr hprofit),
    if_neg fun hover => absurd hover.1 (not_lt.mpr hallowed)]
  rfl

/-- An amount that does not fit is refused, or else the hold that is there already speaks for it. -/
theorem blocked_of_not_fits {amount : ℚ} (hamount : input.requestedAmount = some amount)
    (hmisfit : ¬input.Fits amount) : input.accountBlockers ++ input.amountBlockers ≠ [] := by
  intro hnil
  obtain ⟨haccount, hnone⟩ := List.append_eq_nil_iff.mp hnil
  rw [amountBlockers, hamount] at hnone
  dsimp only at hnone
  obtain ⟨hminimum, hnone⟩ := List.append_eq_nil_iff.mp hnone
  refine hmisfit ⟨not_lt.mp (guarded_eq_nil.mp hminimum), ?_, ?_⟩
  · by_contra hover
    rw [haccount] at hnone
    split at hnone
    · cases hnone
    · rw [if_pos ⟨not_le.mp hover, by decide⟩] at hnone
      cases hnone
  · by_contra hover
    rw [if_pos (not_le.mp hover)] at hnone
    cases hnone

theorem amountRule_iff (hclear : input.accountBlockers = []) :
    input.amountBlockers = [] ↔ input.AmountRule := by
  rw [AmountRule]
  split
  · rename_i hamount
    rw [amountBlockers, hamount]
    dsimp only
    rw [guarded_eq_nil, not_lt]
  · rename_i amount hamount
    refine ⟨fun hnone => not_not.mp fun hmisfit => ?_, amountBlockers_of_fits hamount⟩
    exact blocked_of_not_fits hamount hmisfit (List.append_eq_nil_iff.mpr ⟨hclear, hnone⟩)

end EligibilityInput

open EligibilityInput in
/-- Eligibility is its rules: the consistency rule is one of them, and a request that fits what it lets
out meets no other blocker than its hold. -/
theorem evaluatePayoutEligibility_exact (call : EligibilityCall) :
    let input := call.input
    let result := evaluatePayoutEligibility input
    (result.blockers = [] ↔ input.AccountRules ∧ ¬input.Breached ∧ input.AmountRule) ∧
      result.withdrawableNow ≤ max 0 result.realizedProfit.dollars ∧
      (input.AccountRules → ∀ amount ∈ input.requestedAmount,
        (input.Fits amount → ∀ b ∈ result.blockers, input.Breached ∧ b.code = "consistency_hold") ∧
          (¬input.Fits amount → result.blockers ≠ [])) ∧
      (call.requestedAmount.Malformed → 0 < input.minRequestAmount → result.blockers ≠ []) := by
  intro input result
  refine ⟨?_, input.withdrawableNow_le, fun hrules amount hamount => ⟨fun hfits b hb => ?_, ?_⟩, ?_⟩
  · have hsplit : result.blockers = [] ↔ input.accountBlockers = [] ∧ input.amountBlockers = [] :=
      List.append_eq_nil_iff
    rw [hsplit, accountBlockers_eq_nil_iff, ← and_assoc]
    refine and_congr_right fun hclear => amountRule_iff ?_
    exact accountBlockers_eq_nil_iff.mpr hclear
  · have hmem : b ∈ input.accountBlockers ++ input.amountBlockers := hb
    rw [amountBlockers_of_fits hamount hfits, List.append_nil, accountBlockers_eq hrules] at hmem
    exact mem_consistencyBlockers hmem
  · exact blocked_of_not_fits hamount
  · rintro ⟨hpresent, hunread⟩ hminimum
    have hzero : input.requestedAmount = some 0 := by
      show (match call.requestedAmount with
        | .nullish => none
        | value => some (value.toNum 0)) = some 0
      cases hvalue : call.requestedAmount with
      | nullish => exact absurd hvalue hpresent
      | number x =>
        dsimp only
        rw [NumericInput.toNum, ← hvalue, hunread, Option.getD_none]
      | text s =>
        dsimp only
        rw [NumericInput.toNum, ← hvalue, hunread, Option.getD_none]
    refine blocked_of_not_fits hzero fun hfits => ?_
    exact absurd hfits.1 (not_le.mpr hminimum)

/-- Ten thousand of profit of which four were made in one day, and seven asked for. -/
def withinAllowed : EligibilityCall where
  account :=
    { sampleTerms.provision 1 with
      accountType := .funded
      startingBalance := 10000000
      currentBalance := 11000000 }
  kycStatus := some .approved
  requestedAmount := .number (some 7000)
  minRequestAmount := .number (some 50)
  consistency := some ⟨false, 4000, 40⟩
  consistencyMaxDayPct := .number (some 15)

theorem withinAllowed_held : withinAllowed.input.AccountRules ∧
    (evaluatePayoutEligibility withinAllowed.input).withdrawableNow = 7500 ∧
    withinAllowed.input.Fits 7000 ∧
    (evaluatePayoutEligibility withinAllowed.input).blockers = [.consistencyHold 7500 2500 40 15] := by
  refine ⟨⟨rfl, rfl, rfl, ⟨rfl, rfl⟩, rfl⟩, by decide +kernel, ⟨?_, ?_, ?_⟩, by decide +kernel⟩
  · decide +kernel
  · decide +kernel
  · decide +kernel

end PropFirm
