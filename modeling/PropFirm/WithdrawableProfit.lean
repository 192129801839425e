import PropFirm.Lib.CappedShare
import PropFirm.PayoutRules
import PropFirm.TradeTransactions

/-!
# What the consistency rule lets out

The rule holds back what the best day exceeds its share of the profit by. Of a fixed history no sequence of
withdrawals takes out more than the first one could. Over time that works against the trader: a payout
lowers the profit the share is taken of, and the best day stays the best of all closed trades, so that a
payout made early may keep back more at the end than it would have been without it.
-/

namespace PropFirm

open CappedShare

theorem consistentWithdrawableProfit_eq {capPct : ℚ} (hcap : 0 < capPct) (totalProfit bestDayProfit : Cents) :
    consistentWithdrawableProfit totalProfit.dollars bestDayProfit.dollars capPct
      = Cents.dollars (max 0 (totalProfit - heldBack (capPct / 100) totalProfit bestDayProfit)) := by
  have hshare : 0 < capPct / 100 := by linarith
  simp only [consistentWithdrawableProfit, hshare, not_true_eq_false, or_false, not_lt]
  split
  · rename_i htotal
    have htotal : totalProfit ≤ 0 := by
      rw [← Cents.dollars_le, Cents.dollars_zero]
      exact htotal
    have hheld := heldBack_nonneg (capPct / 100) totalProfit bestDayProfit
    have hnone : max 0 (totalProfit - heldBack (capPct / 100) totalProfit bestDayProfit) = 0 :=
      max_eq_left (by linarith)
    rw [hnone, Cents.dollars_zero, max_eq_left]
    rw [← Cents.dollars_zero]
    exact Cents.dollars_le.mpr htotal
  · have hscaled : max 0 (min totalProfit.dollars
          (totalProfit.dollars * (1 + capPct / 100) - bestDayProfit.dollars)) * 100
        = max 0 (min (totalProfit : ℚ) (totalProfit * (1 + capPct / 100) - bestDayProfit)) := by
      have hhundred : (0 : ℚ) ≤ 100 := by norm_num
      rw [max_mul_of_nonneg _ _ hhundred, min_mul_of_nonneg _ _ hhundred, zero_mul]
      simp only [Cents.dollars]
      congr 2
      · ring
      · ring
    rw [toCents, hscaled, roundHalfAway_capped]

/-! ### Withdrawals from a fixed history -/

/-- Each amount is at most what may be withdrawn at its time. -/
def Withdraws (capPct : ℚ) (bestDayProfit : Cents) : Cents → List Cents → Prop
  | _, [] => True
  | totalProfit, amount :: amounts =>
    0 ≤ amount ∧
      amount.dollars ≤ consistentWithdrawableProfit totalProfit.dollars bestDayProfit.dollars capPct ∧
      Withdraws capPct bestDayProfit (totalProfit - amount) amounts

/-- By induction on the withdrawals: none of them frees anything for those that come after. -/
theorem Withdraws.sum_le {capPct : ℚ} (hcap : 0 < capPct) {bestDayProfit totalProfit : Cents}
    {amounts : List Cents} (hwithdraws : Withdraws capPct bestDayProfit totalProfit amounts) :
    amounts.sum ≤ max 0 (totalProfit - heldBack (capPct / 100) totalProfit bestDayProfit) := by
  induction amounts generalizing totalProfit with
  | nil => exact le_max_left _ _
  | cons amount amounts ih =>
    obtain ⟨hamount, hallowed, hrest⟩ := hwithdraws
    rw [consistentWithdrawableProfit_eq hcap, Cents.dollars_le] at hallowed
    have hshare : (0 : ℚ) ≤ capPct / 100 := by linarith
    rw [List.sum_cons]
    exact (add_le_add_right (ih hrest) amount).trans (taken_add_rest_le hshare hamount hallowed)

structure WithdrawableLaws (capPct : ℚ) : Prop where
  bounds : ∀ totalProfit bestDayProfit : Cents,
    0 ≤ consistentWithdrawableProfit totalProfit.dollars bestDayProfit.dollars capPct ∧
      consistentWithdrawableProfit totalProfit.dollars bestDayProfit.dollars capPct
        ≤ max 0 totalProfit.dollars
  /-- Nothing is withheld within the cap, as `checkConsistencyRule` has it, and half a cent over it. -/
  full_iff : ∀ totalProfit bestDayProfit : Cents,
    consistentWithdrawableProfit totalProfit.dollars bestDayProfit.dollars capPct
        = max 0 totalProfit.dollars
      ↔ totalProfit ≤ 0 ∨ bestDayProfit.dollars ≤ capPct / 100 * totalProfit.dollars + 1 / 200
  monotone : ∀ bestDayProfit totalProfit totalProfit' : Cents, totalProfit ≤ totalProfit' →
    consistentWithdrawableProfit totalProfit.dollars bestDayProfit.dollars capPct
      ≤ consistentWithdrawableProfit totalProfit'.dollars bestDayProfit.dollars capPct
  antitone : ∀ totalProfit bestDayProfit bestDayProfit' : Cents, bestDayProfit ≤ bestDayProfit' →
    consistentWithdrawableProfit totalProfit.dollars bestDayProfit'.dollars capPct
      ≤ consistentWithdrawableProfit totalProfit.dollars bestDayProfit.dollars capPct
  withdrawals : ∀ totalProfit bestDayProfit : Cents, ∀ amounts : List Cents,
    Withdraws capPct bestDayProfit totalProfit amounts →
      Cents.dollars amounts.sum
        ≤ consistentWithdrawableProfit totalProfit.dollars bestDayProfit.dollars capPct

theorem Cents.max_zero_dollars (c : Cents) : max 0 c.dollars = Cents.dollars (max 0 c) := by
  rcases le_total 0 c with hle | hle
  · rw [max_eq_right hle, max_eq_right]
    rw [← Cents.dollars_zero]
    exact Cents.dollars_le.mpr hle
  · rw [max_eq_left hle, Cents.dollars_zero, max_eq_left]
    rw [← Cents.dollars_zero]
    exact Cents.dollars_le.mpr hle

theorem withdrawableLaws {capPct : ℚ} (hcap : 0 < capPct) : WithdrawableLaws capPct := by
  have hshare : (0 : ℚ) ≤ capPct / 100 := by linarith
  refine ⟨fun totalProfit bestDayProfit => ⟨?_, ?_⟩, fun totalProfit bestDayProfit => ?_,
    fun bestDayProfit totalProfit totalProfit' htotal => ?_,
    fun totalProfit bestDayProfit bestDayProfit' hbest => ?_,
    fun totalProfit bestDayProfit amounts hwithdraws => ?_⟩
  · rw [consistentWithdrawableProfit_eq hcap, ← Cents.dollars_zero, Cents.dollars_le]
    exact le_max_left _ _
  · have hheld := heldBack_nonneg (capPct / 100) totalProfit bestDayProfit
    rw [consistentWithdrawableProfit_eq hcap, Cents.max_zero_dollars, Cents.dollars_le]
    exact max_le_max le_rfl (sub_le_self _ hheld)
  · have hcents : bestDayProfit.dollars ≤ capPct / 100 * totalProfit.dollars + 1 / 200 ↔
        (bestDayProfit : ℚ) ≤ capPct / 100 * totalProfit + 1 / 2 := by
      rw [Cents.dollars, Cents.dollars]
      constructor <;> intro hle <;> linarith
    have hdollars : ∀ a b : Cents, a.dollars = b.dollars ↔ a = b := fun a b => by
      rw [le_antisymm_iff, le_antisymm_iff, Cents.dollars_le, Cents.dollars_le]
    rw [consistentWithdrawableProfit_eq hcap, Cents.max_zero_dollars, hdollars, hcents]
    exact rest_eq_total_iff
  · have hheld : heldBack (capPct / 100) totalProfit' bestDayProfit
        ≤ heldBack (capPct / 100) totalProfit bestDayProfit := heldBack_anti hshare htotal
    rw [consistentWithdrawableProfit_eq hcap, consistentWithdrawableProfit_eq hcap, Cents.dollars_le]
    exact max_le_max le_rfl (sub_le_sub htotal hheld)
  · have hheld : heldBack (capPct / 100) totalProfit bestDayProfit
        ≤ heldBack (capPct / 100) totalProfit bestDayProfit' := heldBack_mono hbest
    rw [consistentWithdrawableProfit_eq hcap, consistentWithdrawableProfit_eq hcap, Cents.dollars_le]
    exact max_le_max le_rfl (sub_le_sub_left hheld totalProfit)
  · rw [consistentWithdrawableProfit_eq hcap, Cents.dollars_le]
    exact hwithdraws.sum_le hcap

theorem withdrawableLaws_fifteen : (0 : ℚ) < 15 ∧ WithdrawableLaws 15 ∧
    consistentWithdrawableProfit 10000 4000 15 = 7500 ∧
    Withdraws 15 400000 1000000 [700000, 0] := by
  refine ⟨by norm_num, withdrawableLaws (by norm_num), by decide +kernel, by decide, by decide +kernel,
    by decide, by decide +kernel, trivial⟩

/-! ### What a request would let out -/

namespace PayoutDb

/-- The account's request of an amount would be accepted. -/
def Accepts (s : PayoutDb) (userId accountId : Nat) (amount : ℚ) : Prop :=
  ∃ acc ∈ s.db.account? accountId, MeetsRequestRules s userId acc amount ∧
    ∀ p ∈ s.payouts.rows, p.accountId = accountId → p.status ≠ .pending

theorem accepts_of_requestPayout {s s' : PayoutDb} {request : PayoutRequest}
    (hrequest : requestPayout s request = .ok s') :
    s.Accepts request.userId request.accountId request.amountRequested := by
  obtain ⟨hamount, acc, _, hacc, hgates, hpending, _⟩ := requestPayout_eq_ok hrequest
  exact ⟨acc, hacc, ⟨hamount, hgates⟩, hpending⟩

/-- What the consistency rule of the account's model holds back of a profit. -/
def held (s : PayoutDb) (acc : Account) : Cents :=
  match s.payoutTerms acc with
  | none => 0
  | some terms =>
    if 0 < terms.fundedConsistencyMaxDayPct then
      heldBack (terms.fundedConsistencyMaxDayPct / 100) acc.realisedProfit
        (getBestDayProfit (s.db.closedTrades acc.id))
    else 0

/-- The gates that do not look at the profit. -/
structure InGoodStanding (s : PayoutDb) (userId : Nat) (acc : Account) : Prop where
  funded : acc.accountType = .funded
  kyc : s.kycStatus userId = some .approved
  active : acc.status = .active
  exposure : s.db.tradesOf acc.id .opened = [] ∧ s.db.tradesOf acc.id .pending = []
  payouts : ∀ p ∈ s.payouts.rows, p.accountId = acc.id → p.status ≠ .pending
  days : ∀ terms ∈ s.payoutTerms acc, 0 < terms.fundedMinTradingDaysForPayout →
    terms.fundedMinTradingDaysForPayout ≤ countTradingDays (s.db.closedTrades acc.id)

/-- The profit is enough for the model, and at least the least payout of it is not held back. -/
structure EnoughProfit (s : PayoutDb) (acc : Account) : Prop where
  netProfit : ∀ terms ∈ s.payoutTerms acc, 0 < terms.fundedPayoutMinNetProfitPct →
    acc.startingBalance.dollars * (terms.fundedPayoutMinNetProfitPct / 100) ≤ acc.realisedProfit.dollars
  minimum : 5000 ≤ acc.realisedProfit - s.held acc

theorem held_nonneg (s : PayoutDb) (acc : Account) : 0 ≤ s.held acc := by
  rw [held]
  split
  · exact le_rfl
  · split
    · exact heldBack_nonneg ..
    · exact le_rfl

/-- Of an amount that reaches the minimum, the consistency gate asks that it leaves alone what is held. -/
theorem consistency_iff {s : PayoutDb} {acc : Account} {amount : ℚ} (hprofit : 0 < acc.realisedProfit)
    (hminimum : 50 ≤ amount) (hbelow : amount ≤ acc.realisedProfit.dollars) :
    (∀ terms ∈ s.payoutTerms acc, 0 < terms.fundedConsistencyMaxDayPct →
      amount ≤ consistentWithdrawableProfit acc.realisedProfit.dollars
        (consistencyCheck (s.db.closedTrades acc.id) acc.realisedProfit
          terms.fundedConsistencyMaxDayPct).bestDayProfit terms.fundedConsistencyMaxDayPct)
      ↔ amount ≤ Cents.dollars (acc.realisedProfit - s.held acc) := by
  rw [held]
  cases s.payoutTerms acc with
  | none => simpa using hbelow
  | some terms =>
    by_cases hcap : 0 < terms.fundedConsistencyMaxDayPct
    · have hbest : (consistencyCheck (s.db.closedTrades acc.id) acc.realisedProfit
          terms.fundedConsistencyMaxDayPct).bestDayProfit
            = (getBestDayProfit (s.db.closedTrades acc.id)).dollars :=
        if_neg (not_or.mpr ⟨not_le.mpr hcap, not_le.mpr hprofit⟩)
      simp only [Option.mem_def, Option.some.injEq, forall_eq', hcap, if_true, true_implies, hbest,
        consistentWithdrawableProfit_eq hcap]
      rw [← Cents.max_zero_dollars, le_max_iff]
      refine or_iff_right fun hzero => ?_
      linarith
    · simpa [hcap] using hbelow

theorem accepts_iff {s : PayoutDb} {userId accountId : Nat} {amount : ℚ} :
    s.Accepts userId accountId amount ↔ ∃ acc ∈ s.db.account? accountId,
      s.InGoodStanding userId acc ∧ s.EnoughProfit acc ∧ 50 ≤ amount ∧
        amount ≤ Cents.dollars (acc.realisedProfit - s.held acc) := by
  refine exists_congr fun acc => and_congr_right fun hacc => ?_
  have hid : acc.id = accountId := (Db.account?_eq_some.mp hacc).2
  rw [MeetsRequestRules, amountGates_eq_ok_iff, accountGates_eq_ok_iff]
  constructor
  · rintro ⟨⟨hminimum, hfunded, hkyc, hactive, hflat, hprofit, hbelow, hstage⟩, hpending⟩
    have hallowed := (consistency_iff hprofit hminimum hbelow).mp
      fun terms hterms => (hstage terms hterms).consistency
    refine ⟨⟨hfunded, hkyc, hactive, hflat, hid ▸ hpending, fun terms hterms => (hstage terms hterms).days⟩,
      ⟨fun terms hterms => (hstage terms hterms).profit, ?_⟩, hminimum, hallowed⟩
    have hfifty : Cents.dollars 5000 ≤ Cents.dollars (acc.realisedProfit - s.held acc) := by
      refine le_trans (le_of_eq ?_) (hminimum.trans hallowed)
      norm_num [Cents.dollars]
    exact Cents.dollars_le.mp hfifty
  · rintro ⟨hstanding, henough, hminimum, hallowed⟩
    have hheld := s.held_nonneg acc
    have hprofit : 0 < acc.realisedProfit := by
      have := henough.minimum
      linarith
    have hbelow : amount ≤ acc.realisedProfit.dollars :=
      hallowed.trans (Cents.dollars_le.mpr (sub_le_self _ hheld))
    have hconsistency := (consistency_iff hprofit hminimum hbelow).mpr hallowed
    exact ⟨⟨hminimum, hstanding.funded, hstanding.kyc, hstanding.active, hstanding.exposure, hprofit, hbelow,
      fun terms hterms =>
        ⟨hstanding.days terms hterms, henough.netProfit terms hterms, hconsistency terms hterms⟩⟩,
      hid ▸ hstanding.payouts⟩

instance (s : PayoutDb) (userId accountId : Nat) (amount : ℚ) :
    Decidable (s.Accepts userId accountId amount) :=
  inferInstanceAs (Decidable (∃ acc ∈ s.db.account? accountId, _ ∧ ∀ p ∈ s.payouts.rows, _))

theorem accepts_rest_iff {s : PayoutDb} {userId accountId : Nat} {acc : Account}
    (hacc : s.db.account? accountId = some acc) :
    s.Accepts userId accountId (Cents.dollars (acc.realisedProfit - s.held acc)) ↔
      s.InGoodStanding userId acc ∧ s.EnoughProfit acc := by
  rw [accepts_iff]
  constructor
  · rintro ⟨found, hfound, hstanding, henough, _⟩
    obtain rfl : acc = found := Option.some.inj (hacc.symm.trans hfound)
    exact ⟨hstanding, henough⟩
  · rintro ⟨hstanding, henough⟩
    refine ⟨acc, hacc, hstanding, henough, ?_, le_rfl⟩
    refine le_trans (le_of_eq ?_) (Cents.dollars_le.mpr henough.minimum)
    norm_num [Cents.dollars]

/-- The most that a request is let out with: what is not held back, or nothing. -/
def mostAccepted (s : PayoutDb) (userId accountId : Nat) : Cents :=
  (s.db.account? accountId).elim 0 fun acc =>
    let rest := acc.realisedProfit - s.held acc
    if s.Accepts userId accountId rest.dollars then rest else 0

theorem isGreatest_mostAccepted (s : PayoutDb) (userId accountId : Nat) :
    IsGreatest (insert 0 {amount | s.Accepts userId accountId amount})
      (s.mostAccepted userId accountId).dollars := by
  rw [mostAccepted]
  cases hacc : s.db.account? accountId with
  | none =>
    refine ⟨Set.mem_insert_iff.mpr (.inl Cents.dollars_zero), ?_⟩
    rintro amount (rfl | haccepted)
    · exact Cents.dollars_zero.ge
    · obtain ⟨acc, hfound, _⟩ := haccepted
      rw [hacc] at hfound
      cases hfound
  | some acc =>
    rw [Option.elim_some]
    by_cases hrest : s.Accepts userId accountId (Cents.dollars (acc.realisedProfit - s.held acc))
    · rw [if_pos hrest]
      refine ⟨Set.mem_insert_of_mem _ hrest, ?_⟩
      rintro amount (rfl | haccepted)
      · obtain ⟨_, _, _, _, hminimum, _⟩ := accepts_iff.mp hrest
        linarith
      · obtain ⟨found, hfound, _, _, _, hallowed⟩ := accepts_iff.mp haccepted
        obtain rfl : acc = found := Option.some.inj (hacc.symm.trans hfound)
        exact hallowed
    · rw [if_neg hrest]
      refine ⟨Set.mem_insert_iff.mpr (.inl Cents.dollars_zero), ?_⟩
      rintro amount (rfl | haccepted)
      · exact Cents.dollars_zero.ge
      · obtain ⟨found, hfound, hstanding, henough, _⟩ := accepts_iff.mp haccepted
        obtain rfl : acc = found := Option.some.inj (hacc.symm.trans hfound)
        exact absurd ((accepts_rest_iff hacc).mpr ⟨hstanding, henough⟩) hrest

end PayoutDb

/-! ### With and without an early payout -/

/-- The columns a request reads, after a payout. -/
structure DebitedBy (amount : Cents) (acc acc' : Account) : Prop where
  id : acc'.id = acc.id
  accountType : acc'.accountType = acc.accountType
  status : acc'.status = acc.status
  challengeModelSlug : acc'.challengeModelSlug = acc.challengeModelSlug
  startingBalance : acc'.startingBalance = acc.startingBalance
  currentBalance : acc'.currentBalance = acc.currentBalance - amount

/-- The ends of one history of an account, without a payout and with it. -/
structure SameHistory (s s' : PayoutDb) (userId accountId : Nat) (amount : Cents) : Prop where
  kyc : s'.kycStatus userId = s.kycStatus userId
  terms : s'.terms = s.terms
  trades : ∀ status, s'.db.tradesOf accountId status = s.db.tradesOf accountId status
  pending : (∀ p ∈ s'.payouts.rows, p.accountId = accountId → p.status ≠ .pending) ↔
    ∀ p ∈ s.payouts.rows, p.accountId = accountId → p.status ≠ .pending
  account : ∃ acc acc', s.db.account? accountId = some acc ∧ s'.db.account? accountId = some acc' ∧
    DebitedBy amount acc acc'

def Account.debited (acc : Account) (amount : Cents) : Account :=
  { acc with currentBalance := acc.currentBalance - amount }

/-- The payout costs nothing: there is nothing to be had at the end, or the payout was all of it, or the
profit left after it still meets the gates and no more of it is held back. -/
def EarlyPayoutIsFree (s : PayoutDb) (userId accountId : Nat) (amount : Cents) : Prop :=
  ∀ acc ∈ s.db.account? accountId,
    ¬(s.InGoodStanding userId acc ∧ s.EnoughProfit acc) ∨ acc.realisedProfit - s.held acc ≤ amount ∨
      s.EnoughProfit (acc.debited amount) ∧ s.held (acc.debited amount) ≤ s.held acc

theorem DebitedBy.realisedProfit {amount : Cents} {acc acc' : Account} (hpaid : DebitedBy amount acc acc') :
    acc'.realisedProfit = acc.realisedProfit - amount := by
  rw [Account.realisedProfit, Account.realisedProfit, hpaid.currentBalance, hpaid.startingBalance]
  ring

theorem Account.debited_realisedProfit (acc : Account) (amount : Cents) :
    (acc.debited amount).realisedProfit = acc.realisedProfit - amount := by
  rw [Account.realisedProfit, Account.realisedProfit, Account.debited]
  ring

section EarlyPayout

variable {s s' : PayoutDb} {userId accountId : Nat} {amount : Cents} {acc acc' : Account}

theorem SameHistory.payoutTerms (hsame : SameHistory s s' userId accountId amount)
    (hpaid : DebitedBy amount acc acc') : s'.payoutTerms acc' = s.payoutTerms acc := by
  rw [PayoutDb.payoutTerms, PayoutDb.payoutTerms, hpaid.challengeModelSlug, hsame.terms]

theorem SameHistory.closedTrades (hsame : SameHistory s s' userId accountId amount)
    (hpaid : DebitedBy amount acc acc') (hid : acc.id = accountId) :
    s'.db.closedTrades acc'.id = s.db.closedTrades acc.id := by
  rw [hpaid.id, hid]
  exact hsame.trades .closed

theorem SameHistory.held (hsame : SameHistory s s' userId accountId amount)
    (hpaid : DebitedBy amount acc acc') (hid : acc.id = accountId) :
    s'.held acc' = s.held (acc.debited amount) := by
  have hterms : s.payoutTerms (acc.debited amount) = s.payoutTerms acc := rfl
  have hclosed : s.db.closedTrades (acc.debited amount).id = s.db.closedTrades acc.id := rfl
  rw [PayoutDb.held, PayoutDb.held, hsame.payoutTerms hpaid, hterms, hsame.closedTrades hpaid hid, hclosed,
    hpaid.realisedProfit, acc.debited_realisedProfit]

theorem SameHistory.enoughProfit_iff (hsame : SameHistory s s' userId accountId amount)
    (hpaid : DebitedBy amount acc acc') (hid : acc.id = accountId) :
    s'.EnoughProfit acc' ↔ s.EnoughProfit (acc.debited amount) := by
  have hstarting : acc'.startingBalance = (acc.debited amount).startingBalance := hpaid.startingBalance
  have hterms : s'.payoutTerms acc' = s.payoutTerms (acc.debited amount) := by
    rw [hsame.payoutTerms hpaid]
    rfl
  have hprofit : acc'.realisedProfit = (acc.debited amount).realisedProfit := by
    rw [hpaid.realisedProfit, acc.debited_realisedProfit]
  have hheld := hsame.held hpaid hid
  constructor
  · rintro ⟨hnet, hminimum⟩
    rw [hterms, hstarting, hprofit] at hnet
    rw [hprofit, hheld] at hminimum
    exact ⟨hnet, hminimum⟩
  · rintro ⟨hnet, hminimum⟩
    rw [← hterms, ← hstarting, ← hprofit] at hnet
    rw [← hprofit, ← hheld] at hminimum
    exact ⟨hnet, hminimum⟩

theorem SameHistory.inGoodStanding_iff (hsame : SameHistory s s' userId accountId amount)
    (hpaid : DebitedBy amount acc acc') (hid : acc.id = accountId) :
    s'.InGoodStanding userId acc' ↔ s.InGoodStanding userId acc := by
  have hid' : acc'.id = accountId := hpaid.id.trans hid
  have hterms := hsame.payoutTerms hpaid
  have hclosed := hsame.closedTrades hpaid hid
  have hpending := hsame.pending
  constructor
  · rintro ⟨hfunded, hkyc, hactive, hexposure, hpayouts, hdays⟩
    rw [hpaid.accountType] at hfunded
    rw [hsame.kyc] at hkyc
    rw [hpaid.status] at hactive
    rw [hid', hsame.trades, hsame.trades, ← hid] at hexposure
    rw [hid', hpending, ← hid] at hpayouts
    rw [hterms, hclosed] at hdays
    exact ⟨hfunded, hkyc, hactive, hexposure, hpayouts, hdays⟩
  · rintro ⟨hfunded, hkyc, hactive, hexposure, hpayouts, hdays⟩
    rw [← hpaid.accountType] at hfunded
    rw [← hsame.kyc] at hkyc
    rw [← hpaid.status] at hactive
    rw [hid, ← hsame.trades, ← hsame.trades, ← hid'] at hexposure
    rw [hid, ← hpending, ← hid'] at hpayouts
    rw [← hterms, ← hclosed] at hdays
    exact ⟨hfunded, hkyc, hactive, hexposure, hpayouts, hdays⟩

open Classical in
theorem mostAccepted_eq (hacc : s.db.account? accountId = some acc) :
    s.mostAccepted userId accountId
      = if s.InGoodStanding userId acc ∧ s.EnoughProfit acc then acc.realisedProfit - s.held acc else 0 := by
  rw [PayoutDb.mostAccepted, hacc, Option.elim_some]
  exact if_congr (PayoutDb.accepts_rest_iff hacc) rfl rfl

/-- What comes out with an early payout is at least what comes out without it exactly when the payout was
free: the rule is applied to what is left of the profit, but to the best day of all of it. -/
theorem earlyPayout_forfeits_nothing_iff {before requested : PayoutDb} {request : PayoutRequest}
    (haccepted : requestPayout before request = .ok requested)
    (hsame : SameHistory s s' request.userId request.accountId request.row.amountRequested) :
    s.mostAccepted request.userId request.accountId
        ≤ request.row.amountRequested + s'.mostAccepted request.userId request.accountId ↔
      EarlyPayoutIsFree s request.userId request.accountId request.row.amountRequested := by
  have hpositive : 0 ≤ request.row.amountRequested := by
    have hminimum := amountGates_eq_ok_iff.mp (requestPayout_eq_ok haccepted).1
    have hzero : toCents 0 = 0 := by rw [← Cents.dollars_zero, toCents_dollars]
    rw [← hzero]
    exact toCents_mono (by linarith)
  obtain ⟨acc, acc', hacc, hacc', hpaid⟩ := hsame.account
  have hid : acc.id = request.accountId := (Db.account?_eq_some.mp hacc).2
  have hheld := hsame.held hpaid hid
  rw [mostAccepted_eq hacc, mostAccepted_eq hacc', hpaid.realisedProfit, hheld,
    hsame.inGoodStanding_iff hpaid hid, hsame.enoughProfit_iff hpaid hid]
  simp only [EarlyPayoutIsFree, hacc, Option.mem_def, Option.some.injEq, forall_eq']
  by_cases hopen : s.InGoodStanding request.userId acc ∧ s.EnoughProfit acc
  · rw [if_pos hopen]
    simp only [hopen, and_self, not_true_eq_false, false_or]
    by_cases henough : s.EnoughProfit (acc.debited request.row.amountRequested)
    · have hminimum := henough.minimum
      rw [acc.debited_realisedProfit] at hminimum
      rw [if_pos ⟨hopen.1, henough⟩]
      simp only [henough, true_and]
      constructor
      · intro hle
        right
        linarith
      · rintro (hcovered | hheld)
        · linarith
        · linarith
    · rw [if_neg fun hboth => henough hboth.2]
      simp only [henough, false_and, or_false, add_zero]
  · rw [if_neg hopen]
    refine iff_of_true (add_nonneg hpositive ?_) (.inl hopen)
    split
    · rename_i hopen'
      have hminimum := hopen'.2.minimum
      rw [acc.debited_realisedProfit] at hminimum
      linarith
    · exact le_rfl

end EarlyPayout

/-! ### Two ends of one history -/

/-- The only closed trade of its day. -/
def dayTrade (day : Nat) (pnl : Cents) : Trade :=
  { sampleOrder.row day .closed with
    openPrice := some 1, closeTime := some (day * secondsPerDay), demoPnl := some pnl }

def threeDays : Table Trade := ⟨[dayTrade 1 40000, dayTrade 2 30000, dayTrade 3 30000], by decide⟩

def sixDays : Table Trade :=
  ⟨[dayTrade 1 40000, dayTrade 2 30000, dayTrade 3 30000, dayTrade 4 40000, dayTrade 5 30000,
    dayTrade 6 30000], by decide⟩

/-- A verified trader with a funded account whose model caps a day's share. -/
def cappedTrader (capPct : ℚ) (trades : Table Trade) (profit : Cents) : PayoutDb :=
  let acc := { sampleTerms.provision 1 with
    accountType := .funded, currentBalance := 1000000 + profit, challengeModelSlug := some "starter" }
  { PayoutDb.awaiting acc 0 with
    db := { Db.initial Table.empty with accounts := .single acc, trades := trades }
    terms := .single ⟨"starter", 0, 0, capPct⟩
    payouts := Table.empty }

def requestOf800 : PayoutRequest := ⟨7, 3, 1, 800, "bank", 80⟩

theorem sameHistory_cappedTrader (capPct : ℚ) (trades : Table Trade) (profit amount : Cents) :
    SameHistory (cappedTrader capPct trades profit) (cappedTrader capPct trades (profit - amount)) 3 1
      amount := by
  refine ⟨rfl, rfl, fun _ => rfl, Iff.rfl, _, _, rfl, rfl, rfl, rfl, rfl, rfl, rfl, ?_⟩
  show 1000000 + (profit - amount) = 1000000 + profit - amount
  ring

/-- Half of the profit may be made in a day, and no payout gets near that. -/
theorem earlyPayout_free_halfCap : ∃ requested,
    requestPayout (cappedTrader 50 threeDays 100000) requestOf800 = .ok requested ∧
      (cappedTrader 50 sixDays 200000).mostAccepted 3 1 = 200000 ∧
      ((cappedTrader 50 sixDays 200000).mostAccepted 3 1
          ≤ 80000 + (cappedTrader 50 sixDays 120000).mostAccepted 3 1 ↔
        EarlyPayoutIsFree (cappedTrader 50 sixDays 200000) 3 1 80000) := by
  obtain ⟨requested, hrequest, _⟩ := Except.exists_of_toOption_any
    (x := requestPayout (cappedTrader 50 threeDays 100000) requestOf800) (p := fun _ => true)
    (by decide +kernel)
  have hamount : requestOf800.row.amountRequested = 80000 := by decide +kernel
  have hsame := sameHistory_cappedTrader 50 sixDays 200000 requestOf800.row.amountRequested
  have hfree := earlyPayout_forfeits_nothing_iff hrequest hsame
  rw [hamount] at hfree
  exact ⟨requested, hrequest, by decide +kernel, hfree⟩

/-- At a fifth, eight hundred taken early cost a hundred and sixty at the end. -/
theorem earlyPayout_forfeits_fifthCap : ∃ requested,
    requestPayout (cappedTrader 20 threeDays 100000) requestOf800 = .ok requested ∧
      SameHistory (cappedTrader 20 sixDays 200000) (cappedTrader 20 sixDays 120000) 3 1 80000 ∧
      (cappedTrader 20 sixDays 200000).mostAccepted 3 1 = 200000 ∧
      (cappedTrader 20 sixDays 120000).mostAccepted 3 1 = 104000 ∧
      ¬(cappedTrader 20 sixDays 200000).mostAccepted 3 1
        ≤ 80000 + (cappedTrader 20 sixDays 120000).mostAccepted 3 1 := by
  obtain ⟨requested, hrequest, _⟩ := Except.exists_of_toOption_any
    (x := requestPayout (cappedTrader 20 threeDays 100000) requestOf800) (p := fun _ => true)
    (by decide +kernel)
  exact ⟨requested, hrequest, sameHistory_cappedTrader 20 sixDays 200000 80000, by decide +kernel,
    by decide +kernel, by decide +kernel⟩

end PropFirm
