import PropFirm.Payouts

/-!
# What the approval checks again

Both paths share the evaluator, but the approval gives it no consistency check and does not look at the
account's challenge model: of the rules a request enforces, the gates of the funded stage are not
evaluated again. Profit that is lost, or trading days that turn out not to count, between the request
and the approval go unnoticed there. The other rules are the same ones, so an account that has not
changed is not refused.
-/

namespace PropFirm

variable {s s' : PayoutDb} {acc : Account} {userId : Nat} {amount : ℚ}

/-- The funded stage of a model lets an amount out. -/
structure FundedStageMet (terms : PayoutTerms) (acc : Account) (closed : List Trade) (amount : ℚ) :
    Prop where
  days : 0 < terms.fundedMinTradingDaysForPayout →
    terms.fundedMinTradingDaysForPayout ≤ countTradingDays closed
  profit : 0 < terms.fundedPayoutMinNetProfitPct →
    acc.startingBalance.dollars * (terms.fundedPayoutMinNetProfitPct / 100) ≤ acc.realisedProfit.dollars
  consistency : 0 < terms.fundedConsistencyMaxDayPct →
    amount ≤ consistentWithdrawableProfit acc.realisedProfit.dollars
      (consistencyCheck closed acc.realisedProfit terms.fundedConsistencyMaxDayPct).bestDayProfit
      terms.fundedConsistencyMaxDayPct

theorem fundedStageGates_eq_ok_iff {terms : PayoutTerms} {closed : List Trade} :
    fundedStageGates terms acc closed amount = .ok () ↔ FundedStageMet terms acc closed amount := by
  simp only [fundedStageGates, Except.ite_throw_bind_eq_ok, Except.ite_throw_eq_ok, not_and, not_lt]
  exact ⟨fun ⟨hdays, hprofit, hconsistency, _⟩ => ⟨hdays, hprofit, hconsistency⟩,
    fun hmet => ⟨hmet.days, hmet.profit, hmet.consistency, rfl⟩⟩

theorem amountGates_eq_ok_iff : amountGates amount = .ok () ↔ 50 ≤ amount := by
  simp only [amountGates, Except.ite_throw_bind_eq_ok, Except.ite_throw_eq_ok, not_le, not_lt]
  exact ⟨fun ⟨_, hminimum, _⟩ => hminimum, fun hminimum => ⟨by linarith, hminimum, rfl⟩⟩

theorem accountGates_eq_ok_iff :
    accountGates s userId acc amount = .ok () ↔
      acc.accountType = .funded ∧ s.kycStatus userId = some .approved ∧ acc.status = .active ∧
        (s.db.tradesOf acc.id .opened = [] ∧ s.db.tradesOf acc.id .pending = []) ∧
        0 < acc.realisedProfit ∧ amount ≤ acc.realisedProfit.dollars ∧
        ∀ terms ∈ s.payoutTerms acc, FundedStageMet terms acc (s.db.closedTrades acc.id) amount := by
  have hpositive : 0 < acc.realisedProfit.dollars ↔ 0 < acc.realisedProfit := by
    rw [← Cents.dollars_lt, Cents.dollars_zero]
  simp only [accountGates, Except.ite_throw_bind_eq_ok, not_not, not_or, not_le, not_lt, hpositive]
  cases s.payoutTerms acc with
  | none => simp [pure, Except.pure]
  | some terms => simp [fundedStageGates_eq_ok_iff]

/-- The rules a request enforces on an amount and its account, beside that none is pending yet. -/
def MeetsRequestRules (s : PayoutDb) (userId : Nat) (acc : Account) (amount : ℚ) : Prop :=
  amountGates amount = .ok () ∧ accountGates s userId acc amount = .ok ()

/-- The eligibility of an approval is that of a request without its funded stage. -/
theorem approvalInput_blockers_iff {payout : Payout} {user : User} :
    (evaluatePayoutEligibility (approvalInput s payout user acc)).blockers = [] ↔
      acc.accountType = .funded ∧ acc.status = .active ∧ user.kycStatus = .approved ∧
        (s.db.tradesOf acc.id .opened = [] ∧ s.db.tradesOf acc.id .pending = []) ∧
        50 ≤ payout.amountRequested.dollars ∧
        payout.amountRequested.dollars ≤ acc.realisedProfit.dollars := by
  rw [blockers_eq_nil_iff rfl rfl]
  simp only [approvalInput, List.length_eq_zero_iff, Option.some.injEq, true_and,
    EligibilityInput.realizedProfit]

theorem approvePayout_blocked {payoutId : Nat} {actor : String} {setting : Option ℚ}
    {transactionId : Option String} {blocker : Blocker}
    (hblocked : approvePayout s payoutId actor setting transactionId = .error (.blocked blocker)) :
    ∃ payout user acc, s.joined? payoutId = some (payout, user) ∧
      s.db.account? payout.accountId = some acc ∧
      (evaluatePayoutEligibility (approvalInput s payout user acc)).blockers ≠ [] := by
  rw [approvePayout] at hblocked
  cases hjoined : s.joined? payoutId with
  | none =>
    rw [hjoined] at hblocked
    cases hblocked
  | some joined =>
    obtain ⟨payout, user⟩ := joined
    rw [hjoined] at hblocked
    dsimp only at hblocked
    split at hblocked
    · cases hblocked
    cases hacc : s.db.account? payout.accountId with
    | none =>
      rw [hacc] at hblocked
      cases hblocked
    | some acc =>
      rw [hacc] at hblocked
      dsimp only at hblocked
      refine ⟨payout, user, acc, rfl, hacc, fun hnone => ?_⟩
      -- past the eligibility no error is a blocker
      have hpay : ∀ s : PayoutDb, payPayout s payout transactionId ≠ .error (.blocked blocker) := by
        intro s hpay
        rw [payPayout] at hpay
        split at hpay <;> cases hpay
      rw [hnone] at hblocked
      dsimp only at hblocked
      split at hblocked
      · cases hblocked
      · cases hblocked
      · exact hpay _ hblocked
      · exact hpay _ hblocked

theorem kycStatus_of_joined {payoutId : Nat} {payout : Payout} {user : User}
    (hjoined : s.joined? payoutId = some (payout, user)) :
    s.kycStatus payout.userId = some user.kycStatus := by
  simp only [PayoutDb.joined?, Option.bind_eq_bind, Option.bind_eq_some_iff, Option.some.injEq,
    Prod.mk.injEq] at hjoined
  obtain ⟨_, _, _, huser, rfl, rfl⟩ := hjoined
  rw [PayoutDb.kycStatus, huser, Option.map_some]

/-- Of the request's rules, a payment can only have missed the funded stage. -/
theorem paid_meetsRequestRules_iff {payoutId : Nat} {actor : String} {setting : Option ℚ}
    {transactionId : Option String} {payout : Payout}
    (hpaid : approvePayout s payoutId actor setting transactionId = .ok (s', .paid))
    (hpayout : s.payout? payoutId = some payout) (hacc : s.db.account? payout.accountId = some acc) :
    MeetsRequestRules s payout.userId acc payout.amountRequested.dollars ↔
      ∀ terms ∈ s.payoutTerms acc,
        FundedStageMet terms acc (s.db.closedTrades acc.id) payout.amountRequested.dollars := by
  obtain ⟨found, user, found', hjoined, _, hfound', hblockers, _⟩ := approvePayout_eq_ok hpaid
  obtain rfl : payout = found :=
    Option.some.inj (hpayout.symm.trans (PayoutDb.joined?_eq_some hjoined))
  obtain rfl : acc = found' := Option.some.inj (hacc.symm.trans hfound')
  obtain ⟨hfunded, hactive, hkyc, hflat, hminimum, hprofit⟩ := approvalInput_blockers_iff.mp hblockers
  have hpositive : 0 < acc.realisedProfit := by
    rw [← Cents.dollars_lt, Cents.dollars_zero]
    linarith
  rw [MeetsRequestRules, amountGates_eq_ok_iff, accountGates_eq_ok_iff, kycStatus_of_joined hjoined, hkyc]
  exact ⟨fun h => h.2.2.2.2.2.2.2,
    fun hstage => ⟨hminimum, hfunded, rfl, hactive, hflat, hpositive, hprofit, hstage⟩⟩

/-- What a request accepted, an approval finds eligible while the account and its owner stay as they
were. -/
theorem requested_not_blocked {request : PayoutRequest} (hrequest : requestPayout s request = .ok s')
    {t : PayoutDb} (hjoined : t.joined? request.payoutId = s'.joined? request.payoutId)
    (haccount : t.db.account? request.accountId = s'.db.account? request.accountId)
    (htrades : ∀ status,
      t.db.tradesOf request.accountId status = s'.db.tradesOf request.accountId status)
    (actor : String) (setting : Option ℚ) (transactionId : Option String) (blocker : Blocker) :
    approvePayout t request.payoutId actor setting transactionId ≠ .error (.blocked blocker) := by
  intro hblocked
  obtain ⟨payout, user, acc, hfound, hacc, hrefused⟩ := approvePayout_blocked hblocked
  obtain ⟨hamount, acc', payouts, hacc', hgates, _, hinsert, rfl⟩ := requestPayout_eq_ok hrequest
  rw [hjoined] at hfound
  obtain rfl : payout = request.row := by
    obtain ⟨hmem, hid⟩ := PayoutDb.payout?_eq_some.mp (PayoutDb.joined?_eq_some hfound)
    have hrow : request.row ∈ payouts.rows := (Table.insert?_eq_some hinsert).2 ▸ List.mem_cons_self
    exact List.inj_on_of_nodup_map payouts.nodup hmem hrow hid
  obtain rfl : acc = acc' := Option.some.inj ((hacc.symm.trans haccount).trans hacc')
  have hid : acc.id = request.accountId := (Db.account?_eq_some.mp hacc').2
  obtain ⟨hfunded, hkyc, hactive, hflat, _, hprofit, _⟩ := accountGates_eq_ok_iff.mp hgates
  have huser := kycStatus_of_joined hfound
  refine hrefused (approvalInput_blockers_iff.mpr ⟨hfunded, hactive, ?_, ?_, ?_, ?_⟩)
  · exact Option.some.inj (huser.symm.trans hkyc)
  · rw [hid, htrades, htrades, ← hid]
    exact hflat
  · have hcents : toCents 50 ≤ toCents request.amountRequested :=
      toCents_mono (amountGates_eq_ok_iff.mp hamount)
    have hminimum : toCents 50 = 5000 := by decide +kernel
    rw [hminimum, ← Cents.dollars_le] at hcents
    refine le_trans ?_ hcents
    norm_num [Cents.dollars]
  · rw [Cents.dollars_le]
    exact (toCents_mono hprofit).trans_eq (toCents_dollars _)

/-- What an approval pays has met the request's rules exactly when it meets the funded stage, and an
approval is not refused while nothing has changed since the request. -/
theorem approval_rechecks_request (s : PayoutDb) (payoutId : Nat) (actor : String) (setting : Option ℚ)
    (transactionId : Option String) :
    (∀ s' payout acc, approvePayout s payoutId actor setting transactionId = .ok (s', .paid) →
      s.payout? payoutId = some payout → s.db.account? payout.accountId = some acc →
      (MeetsRequestRules s payout.userId acc payout.amountRequested.dollars ↔
        ∀ terms ∈ s.payoutTerms acc,
          FundedStageMet terms acc (s.db.closedTrades acc.id) payout.amountRequested.dollars)) ∧
    ∀ before requested (request : PayoutRequest), requestPayout before request = .ok requested →
      request.payoutId = payoutId → s.joined? payoutId = requested.joined? payoutId →
      s.db.account? request.accountId = requested.db.account? request.accountId →
      (∀ status, s.db.tradesOf request.accountId status
        = requested.db.tradesOf request.accountId status) →
      ∀ blocker, approvePayout s payoutId actor setting transactionId ≠ .error (.blocked blocker) := by
  refine ⟨fun s' payout acc hpaid hpayout hacc => paid_meetsRequestRules_iff hpaid hpayout hacc, ?_⟩
  rintro before requested request hrequest rfl hjoined haccount htrades
  exact requested_not_blocked hrequest hjoined haccount htrades actor setting transactionId

/-- The model of the account in `PayoutDb.awaiting`: six percent of profit before a payout. -/
def sixPercentFirst : PayoutTerms := ⟨"starter", 0, 6, 0⟩

/-- A verified trader whose funded account stands at a balance, before any request. -/
def trader (currentBalance : Cents) : PayoutDb :=
  let acc := { sampleTerms.provision 1 with
    accountType := .funded, currentBalance := currentBalance, challengeModelSlug := some "starter" }
  { PayoutDb.awaiting acc 0 with
    terms := .single sixPercentFirst, payouts := Table.empty }

def requestOf300 : PayoutRequest := ⟨7, 3, 1, 300, "bank", 80⟩

instance : Decidable (MeetsRequestRules s userId acc amount) :=
  inferInstanceAs (Decidable (_ ∧ _))

/-- Asked and approved at the same balance. -/
theorem approval_rechecks_request_unchanged : ∃ s s',
    requestPayout (trader 1060000) requestOf300 = .ok s ∧
      approvePayout s 7 "admin" none none = .ok (s', .paid) ∧
      (∀ payout acc, s.payout? 7 = some payout → s.db.account? payout.accountId = some acc →
        (MeetsRequestRules s payout.userId acc payout.amountRequested.dollars ↔
          ∀ terms ∈ s.payoutTerms acc,
            FundedStageMet terms acc (s.db.closedTrades acc.id) payout.amountRequested.dollars)) ∧
      ∀ actor setting transactionId blocker,
        approvePayout s 7 actor setting transactionId ≠ .error (.blocked blocker) := by
  obtain ⟨s, hrequest, htest⟩ := Except.exists_of_toOption_any
    (x := requestPayout (trader 1060000) requestOf300)
    (p := fun s => (approvePayout s 7 "admin" none none).toOption.any fun result => result.2 = .paid)
    (by decide +kernel)
  obtain ⟨⟨s', outcome⟩, hpaid, houtcome⟩ := Except.exists_of_toOption_any htest
  obtain rfl : outcome = .paid := of_decide_eq_true houtcome
  exact ⟨s, s', hrequest, hpaid,
    fun payout acc hpayout hacc =>
      (approval_rechecks_request s 7 "admin" none none).1 s' payout acc hpaid hpayout hacc,
    fun actor setting transactionId => (approval_rechecks_request s 7 actor setting transactionId).2
      (trader 1060000) s requestOf300 hrequest rfl rfl rfl fun _ => rfl⟩

/-- An adjustment of the admin's takes the profit from 600 to 400 before the approval pays 300. -/
theorem paid_below_required_profit : ∃ s db s' payout acc,
    requestPayout (trader 1060000) requestOf300 = .ok s ∧
      (Stmt.adjustBalance 1 (-200) true).exec s.db = some db ∧
      approvePayout { s with db := db } 7 "admin" none none = .ok (s', .paid) ∧
      s.payout? 7 = some payout ∧ db.account? 1 = some acc ∧
      ¬ MeetsRequestRules { s with db := db } payout.userId acc payout.amountRequested.dollars := by
  obtain ⟨s, hrequest, htest⟩ := Except.exists_of_toOption_any
    (x := requestPayout (trader 1060000) requestOf300)
    (p := fun s => ((Stmt.adjustBalance 1 (-200) true).exec s.db).any fun db =>
      (approvePayout { s with db := db } 7 "admin" none none).toOption.any fun result =>
        result.2 = .paid ∧ (s.payout? 7).any fun payout => (db.account? 1).any fun acc =>
          ¬ MeetsRequestRules { s with db := db } payout.userId acc payout.amountRequested.dollars)
    (by decide +kernel)
  obtain ⟨db, hdb, htest⟩ := (Option.any_eq_true _ _).mp htest
  obtain ⟨⟨s', outcome⟩, hpaid, htest⟩ := Except.exists_of_toOption_any htest
  obtain ⟨rfl, hmissed⟩ := of_decide_eq_true htest
  obtain ⟨payout, hpayout, hmissed⟩ := (Option.any_eq_true _ _).mp hmissed
  obtain ⟨acc, hacc, hmissed⟩ := (Option.any_eq_true _ _).mp hmissed
  exact ⟨s, db, s', payout, acc, hrequest, hdb, hpaid, hpayout, hacc, of_decide_eq_true hmissed⟩

end PropFirm
