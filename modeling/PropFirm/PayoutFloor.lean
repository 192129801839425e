import Mathlib.Algebra.Order.Group.MinMax
import PropFirm.CapitalMovements
import PropFirm.Payouts

/-!
# The floor after a payout

A payout takes its amount off the balance and off the peak, and the trailing floor is a percentage of
the peak: it falls by less than the balance does, so every payout costs a percentage of its amount in
headroom. The locked floor does not fall at all. Eligibility looks at the profit alone, so how much
headroom there was before decides whether the account survives its own payout.
-/

namespace PropFirm

open DrawdownAccount (lockThreshold)

variable {acc : Account} {maxDrawdownPct : ℚ} {locksAtPct : Option ℚ}

/-- A funded account's floor lies below a value when its trailing floor, what is locked and what its
peak locks all do. -/
theorem resolveEffectiveFloor_floor_lt_iff {acc : DrawdownAccount} {opts : DrawdownOptions} {x : ℚ}
    (hfunded : acc.accountType = .funded) :
    (resolveEffectiveFloor acc opts).floor < x ↔
      computeTrailingFloor (max acc.priorPeak opts.equity) opts.maxDrawdownPct < x ∧
        ∀ pct ∈ opts.drawdownLocksAtPct, (∀ stored ∈ acc.eodTrailingFloor, stored < x) ∧
          (acc.lockThreshold pct ≤ max acc.priorPeak opts.equity →
            computeTrailingFloor (acc.lockThreshold pct) opts.maxDrawdownPct < x) := by
  cases hlocks : opts.drawdownLocksAtPct with
  | none =>
    rw [resolveEffectiveFloor_floor_unlocked fun _ => hlocks]
    simp
  | some pct =>
    have hfloor := (resolveEffectiveFloor_locked hfunded hlocks).1
    generalize hlocked : nextLockedFloor acc (max acc.priorPeak opts.equity) opts.maxDrawdownPct pct
      = locked at hfloor
    have hbelow : (resolveEffectiveFloor acc opts).floor < x ↔
        computeTrailingFloor (max acc.priorPeak opts.equity) opts.maxDrawdownPct < x ∧
          ∀ value ∈ locked, value < x := by
      rw [hfloor]
      cases locked with
      | none => simp
      | some value => simp
    simp only [hbelow, Option.mem_some_iff, forall_eq']
    refine and_congr_right fun _ => ⟨fun hall => ⟨fun stored hstored => ?_, fun hreached => ?_⟩, ?_⟩
    · obtain ⟨value, hvalue, hle⟩ := DrawdownAccount.nextLockedFloor_keeps stored hstored
      exact hle.trans_lt (hall value (hlocked ▸ hvalue))
    · obtain ⟨value, hvalue, hle⟩ := DrawdownAccount.nextLockedFloor_of_reached hreached
      exact hle.trans_lt (hall value (hlocked ▸ hvalue))
    · rintro ⟨hstored, hreached⟩ value hvalue
      obtain hheld | ⟨hpeak, rfl⟩ := DrawdownAccount.mem_nextLockedFloor (hlocked ▸ hvalue)
      · exact hstored value hheld
      · exact hreached hpeak

namespace Account

/-- Strictly above the floor; an account without positions has its balance for equity. -/
def AboveFloor (acc : Account) (maxDrawdownPct : ℚ) (locksAtPct : Option ℚ) : Prop :=
  (resolveEffectiveFloor acc.drawdown ⟨acc.currentBalance.dollars, maxDrawdownPct, locksAtPct⟩).floor
    < acc.currentBalance.dollars

instance : Decidable (acc.AboveFloor maxDrawdownPct locksAtPct) :=
  inferInstanceAs (Decidable (_ < _))

/-- The peak the floor trails, with the balance itself for the latest high. -/
def latestPeak (acc : Account) : Cents := max acc.peakAnchor acc.currentBalance

/-- The headroom bears a payout: the percentage of it that the trailing floor does not fall by, and all
of it above what is locked or will be. -/
structure BearsPayout (acc : Account) (amount : Cents) (maxDrawdownPct : ℚ) (locksAtPct : Option ℚ) :
    Prop where
  within : amount ≤ acc.latestPeak
  trailing : amount.dollars * (maxDrawdownPct / 100)
    < acc.currentBalance.dollars - computeTrailingFloor acc.latestPeak.dollars maxDrawdownPct
  locked : ∀ pct ∈ locksAtPct,
    (∀ stored ∈ acc.eodTrailingFloor, amount < acc.currentBalance - stored) ∧
      (acc.drawdown.lockThreshold pct ≤ (acc.latestPeak - amount).dollars →
        amount.dollars < acc.currentBalance.dollars
          - computeTrailingFloor (acc.drawdown.lockThreshold pct) maxDrawdownPct)

end Account

theorem Cents.dollars_max (a b : Cents) : (max a b).dollars = max a.dollars b.dollars :=
  Monotone.map_max (f := Cents.dollars) fun _ _ => Cents.dollars_le.mpr

theorem adjusted_currentBalance (acc : Account) (amount : Cents) :
    ((Account.adjusted (-amount.dollars) true).apply acc).currentBalance
      = acc.currentBalance - amount :=
  Cents.toCents_sub_dollars _ _

/-- The peak follows the amount down to zero. -/
theorem adjusted_latestPeak (acc : Account) (amount : Cents) :
    ((Account.adjusted (-amount.dollars) true).apply acc).latestPeak
      = max (acc.latestPeak - amount) 0 := by
  rw [Account.latestPeak, CapitalState.adjusted_peakAnchor, adjusted_currentBalance,
    Cents.toCents_sub_dollars, max_right_comm, max_sub_sub_right, Account.latestPeak]

theorem aboveFloor_iff (hfunded : acc.accountType = .funded) :
    acc.AboveFloor maxDrawdownPct locksAtPct ↔
      computeTrailingFloor acc.latestPeak.dollars maxDrawdownPct < acc.currentBalance.dollars ∧
        ∀ pct ∈ locksAtPct, (∀ stored ∈ acc.eodTrailingFloor, stored < acc.currentBalance) ∧
          (acc.drawdown.lockThreshold pct ≤ acc.latestPeak.dollars →
            computeTrailingFloor (acc.drawdown.lockThreshold pct) maxDrawdownPct
              < acc.currentBalance.dollars) := by
  rw [Account.AboveFloor, resolveEffectiveFloor_floor_lt_iff hfunded, Account.drawdown_priorPeak,
    ← Cents.dollars_max, ← Account.latestPeak]
  simp only [Account.drawdown, Option.mem_map, forall_exists_index, and_imp,
    forall_apply_eq_imp_iff₂, Cents.dollars_lt]

/-- What a debit with its anchor shift leaves above the floor. -/
theorem adjusted_aboveFloor_iff {amount : Cents} (hfunded : acc.accountType = .funded) :
    ((Account.adjusted (-amount.dollars) true).apply acc).AboveFloor maxDrawdownPct locksAtPct ↔
      acc.BearsPayout amount maxDrawdownPct locksAtPct := by
  have hsame : ((Account.adjusted (-amount.dollars) true).apply acc).accountType = .funded := hfunded
  have hhigh : acc.currentBalance ≤ acc.latestPeak := le_max_right _ _
  rw [aboveFloor_iff hsame, adjusted_currentBalance, adjusted_latestPeak, Cents.dollars_sub]
  by_cases hwithin : amount ≤ acc.latestPeak
  · rw [max_eq_left (sub_nonneg.mpr hwithin)]
    have hfloor : computeTrailingFloor (acc.latestPeak - amount : Cents).dollars maxDrawdownPct
        = computeTrailingFloor acc.latestPeak.dollars maxDrawdownPct - amount.dollars
          + amount.dollars * (maxDrawdownPct / 100) := by
      rw [Cents.dollars_sub, computeTrailingFloor, computeTrailingFloor]
      ring
    rw [hfloor]
    constructor
    · rintro ⟨htrailing, hlocked⟩
      refine ⟨hwithin, by linarith, fun pct hpct => ?_⟩
      obtain ⟨hstored, hreached⟩ := hlocked pct hpct
      exact ⟨fun stored hmem => lt_sub_comm.mp (hstored stored hmem),
        fun hpeak => lt_sub_comm.mp (hreached hpeak)⟩
    · rintro ⟨_, htrailing, hlocked⟩
      refine ⟨by linarith, fun pct hpct => ?_⟩
      obtain ⟨hstored, hreached⟩ := hlocked pct hpct
      exact ⟨fun stored hmem => lt_sub_comm.mp (hstored stored hmem),
        fun hpeak => lt_sub_comm.mp (hreached hpeak)⟩
  · -- beyond the peak the shifted anchor is zero and the balance is below it
    rw [max_eq_right (sub_nonpos.mpr (not_le.mp hwithin).le)]
    refine iff_of_false (fun habove => ?_) fun hbears => hwithin hbears.within
    have hzero : computeTrailingFloor (0 : Cents).dollars maxDrawdownPct = 0 := by
      simp [computeTrailingFloor, Cents.dollars]
    have hnegative : acc.currentBalance.dollars < amount.dollars :=
      Cents.dollars_lt.mpr (hhigh.trans_lt (not_le.mp hwithin))
    rw [hzero] at habove
    linarith [habove.1]

/-- An account is above its floor after a payout exactly when its headroom bears the payout. -/
theorem paid_aboveFloor_iff {s s' : PayoutDb} {payoutId : Nat} {actor : String} {setting : Option ℚ}
    {transactionId : Option String} {payout : Payout}
    (hpaid : approvePayout s payoutId actor setting transactionId = .ok (s', .paid))
    (hpayout : s.payout? payoutId = some payout) :
    ∃ acc acc', s.db.account? payout.accountId = some acc ∧
      s'.db.account? payout.accountId = some acc' ∧
      (acc'.AboveFloor maxDrawdownPct locksAtPct ↔
        acc.BearsPayout payout.amountRequested maxDrawdownPct locksAtPct) := by
  obtain ⟨found, user, acc, hjoined, _, hacc, hblockers, hcase⟩ := approvePayout_eq_ok hpaid
  obtain rfl : payout = found :=
    Option.some.inj (hpayout.symm.trans (PayoutDb.joined?_eq_some hjoined))
  obtain ⟨hunpaid, _⟩ | ⟨_, hdebit, _⟩ := hcase
  · exact absurd rfl hunpaid
  have hfunded : acc.accountType = .funded := ((blockers_eq_nil_iff rfl rfl).mp hblockers).1
  have hid : acc.id = payout.accountId := (Db.account?_eq_some.mp hacc).2
  refine ⟨acc, _, hacc, Stmt.exec_account? hdebit.debit hacc, ?_⟩
  rw [Stmt.accountUpdate, if_pos hid]
  exact adjusted_aboveFloor_iff hfunded

/-- A funded account of ten thousand that has been at 12,000 and stands at a balance. -/
def pastPeak (currentBalance : Cents) : Account :=
  { sampleTerms.provision 1 with
    accountType := .funded
    currentBalance := currentBalance
    eodPeakEquity := some 1200000 }

theorem pastPeak_bears : (pastPeak 1090000).BearsPayout (toCents 850) 10 (some 5) :=
  ⟨by decide +kernel, by decide +kernel, by decide +kernel⟩

theorem paid_aboveFloor_iff_pastPeak : ∃ s' acc',
    approvePayout (.awaiting (pastPeak 1090000) 850) 7 "admin" none none = .ok (s', .paid) ∧
      s'.db.account? 1 = some acc' ∧ acc'.AboveFloor 10 (some 5) := by
  obtain ⟨s', hpaid, _⟩ := exists_of_approve_any (.awaiting (pastPeak 1090000) 850) 7 "admin" none none
    (fun _ => true) (by decide +kernel)
  obtain ⟨acc, acc', hacc, hacc', hiff⟩ : ∃ acc acc' : Account, _ = some acc ∧ s'.db.account? 1 = some acc' ∧
      (acc'.AboveFloor 10 (some 5) ↔ acc.BearsPayout _ 10 (some 5)) := paid_aboveFloor_iff hpaid rfl
  obtain rfl : pastPeak 1090000 = acc := Option.some.inj hacc
  exact ⟨s', acc', hpaid, hacc', hiff.mpr pastPeak_bears⟩

/-- A payout of 850 costs 85 in headroom, of which there was 50. -/
theorem payout_breaches : ∃ s' acc',
    (pastPeak 1085000).AboveFloor 10 none ∧
      approvePayout (.awaiting (pastPeak 1085000) 850) 7 "admin" none none = .ok (s', .paid) ∧
      s'.db.account? 1 = some acc' ∧ ¬ acc'.AboveFloor 10 none := by
  obtain ⟨s', hpaid, htest⟩ := exists_of_approve_any (.awaiting (pastPeak 1085000) 850) 7 "admin" none
    none (fun s' => (s'.db.account? 1).any fun acc' => ¬ acc'.AboveFloor 10 none) (by decide +kernel)
  obtain ⟨acc', hacc', hbreached⟩ := (Option.any_eq_true _ _).mp htest
  exact ⟨s', acc', by decide +kernel, hpaid, hacc', of_decide_eq_true hbreached⟩

end PropFirm
