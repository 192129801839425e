import PropFirm.Verdicts

/-!
# The boundary of the drawdown floor

Every path compares twice, once to suspect an account and once to confirm. The interval path's only
comparison and both first comparisons of the others are inclusive: reaching the floor is a breach.
The confirmations of the event path and of `failAccount` are strict, so that an account exactly on its
floor fails on the interval path and on no other. The challenge engine moreover looks at the floor of
accounts with a positive starting balance only.
-/

namespace PropFirm

/-! ### Resolving twice

`processAccount` persists the anchors it raises, rounded to cents, before `failAccount` reads them
back. A balance is in cents, so the rounding does not move it across the floor.
-/

section Resolve

variable (acc : Account) (balance : Cents) (maxDrawdownPct : ℚ) (locksAtPct : Option ℚ)

abbrev Account.resolveAt : DrawdownResolution :=
  resolveEffectiveFloor acc.drawdown ⟨balance.dollars, maxDrawdownPct, locksAtPct⟩

/-- The account with the anchors of that resolution persisted. -/
abbrev Account.anchoredAt : Account :=
  (Account.anchored (acc.resolveAt balance maxDrawdownPct locksAtPct)).apply acc

theorem anchoredAt_priorPeak :
    (acc.anchoredAt balance maxDrawdownPct locksAtPct).drawdown.priorPeak
      = max acc.drawdown.priorPeak balance.dollars := by
  by_cases hraise : acc.drawdown.priorPeak < balance.dollars
  · have hpeak : (acc.anchoredAt balance maxDrawdownPct locksAtPct).eodPeakEquity = some balance := by
      simp only [Account.anchoredAt, Account.anchored, resolveEffectiveFloor_peakChanged,
        resolveEffectiveFloor_nextPeak, hraise, decide_true, if_true, max_eq_right hraise.le]
      cases hcolumn : acc.eodPeakEquity with
      | none => simp [raiseColumn]
      | some current =>
        simp only [Account.drawdown, DrawdownAccount.priorPeak, hcolumn, Option.map_some,
          Option.getD_some] at hraise
        simp [raiseColumn, hraise]
    rw [max_eq_right hraise.le, DrawdownAccount.priorPeak, Account.drawdown, hpeak]
    rfl
  · have hpeak : (acc.anchoredAt balance maxDrawdownPct locksAtPct).eodPeakEquity = acc.eodPeakEquity := by
      simp [Account.anchoredAt, Account.anchored, hraise]
    rw [max_eq_left (not_lt.mp hraise)]
    simp only [DrawdownAccount.priorPeak, Account.drawdown, hpeak]
    rfl

private theorem raiseColumn_self (current : Cents) :
    raiseColumn (some current) current.dollars = some current := if_neg (lt_irrefl _)

private theorem anchored_eodTrailingFloor {acc : Account} {r : DrawdownResolution}
    (hchanged : r.lockedFloorChanged = decide (r.nextLockedFloor ≠ acc.drawdown.eodTrailingFloor)) :
    ((Account.anchored r).apply acc).eodTrailingFloor
      = r.nextLockedFloor.elim acc.eodTrailingFloor (raiseColumn acc.eodTrailingFloor) := by
  simp only [Account.anchored, hchanged]
  cases hnext : r.nextLockedFloor with
  | none => split <;> simp_all
  | some locked =>
    by_cases hsame : some locked = acc.drawdown.eodTrailingFloor
    · rw [decide_eq_false (not_not_intro hsame)]
      obtain ⟨current, hcurrent, rfl⟩ := Option.map_eq_some_iff.mp hsame.symm
      rw [hcurrent, Option.elim_some, raiseColumn_self]
    · rw [decide_eq_true hsame]
      rfl

/-- Rounding a value to the cent and raising it to the value again moves no amount across it. -/
private theorem lt_persisted (value : ℚ) (amount : Cents) :
    (amount.dollars < if (toCents value).dollars < value then value else (toCents value).dollars) ↔
      amount.dollars < value := by
  split
  · exact Iff.rfl
  · rename_i hup
    refine ⟨fun h => Cents.dollars_lt_of_lt_toCents (Cents.dollars_lt.mp h), fun h => ?_⟩
    exact h.trans_le (not_lt.mp hup)

/-- A locked floor written back to its column, rounded, and resolved once more separates the same
amounts as it did before. -/
private theorem nextLockedFloor_persisted {drawdown again : DrawdownAccount} {column : Option Cents}
    {nextPeak maxDrawdownPct locksAtPct : ℚ} (hstart : again.startingBalance = drawdown.startingBalance)
    (hcolumn : drawdown.eodTrailingFloor = column.map Cents.dollars)
    (hagain : again.eodTrailingFloor = ((nextLockedFloor drawdown nextPeak maxDrawdownPct locksAtPct).elim
      column (raiseColumn column)).map Cents.dollars) :
    (nextLockedFloor drawdown nextPeak maxDrawdownPct locksAtPct = none ∧
      nextLockedFloor again nextPeak maxDrawdownPct locksAtPct = none) ∨
    ∃ locked locked', nextLockedFloor drawdown nextPeak maxDrawdownPct locksAtPct = some locked ∧
      nextLockedFloor again nextPeak maxDrawdownPct locksAtPct = some locked' ∧
      ∀ amount : Cents, amount.dollars < locked' ↔ amount.dollars < locked := by
  by_cases hreached : drawdown.startingBalance * (1 + locksAtPct / 100) ≤ nextPeak
  · simp only [nextLockedFloor, hstart, if_pos hreached] at hagain ⊢
    generalize drawdown.startingBalance * (1 + locksAtPct / 100) * (1 - maxDrawdownPct / 100)
      = candidate at hagain ⊢
    right
    cases column with
    | none =>
      simp only [hcolumn, Option.map_none, Option.elim_some, raiseColumn, Option.map_some] at hagain ⊢
      simp only [hagain, ← apply_ite some]
      exact ⟨_, _, rfl, rfl, lt_persisted candidate⟩
    | some current =>
      simp only [hcolumn, Option.map_some] at hagain ⊢
      by_cases hraise : current.dollars < candidate
      · simp only [if_pos hraise, Option.elim_some, raiseColumn, Option.map_some] at hagain ⊢
        simp only [hagain, ← apply_ite some]
        exact ⟨_, _, rfl, rfl, lt_persisted candidate⟩
      · simp only [if_neg hraise, Option.elim_some, raiseColumn_self, Option.map_some] at hagain ⊢
        simp only [hagain, if_neg hraise]
        exact ⟨_, _, rfl, rfl, fun _ => Iff.rfl⟩
  · simp only [nextLockedFloor, hstart, if_neg hreached, hcolumn] at hagain ⊢
    cases column with
    | none => exact .inl ⟨rfl, hagain⟩
    | some current =>
      rw [Option.map_some, Option.elim_some, raiseColumn_self, Option.map_some] at hagain
      exact .inr ⟨_, _, rfl, hagain, fun _ => Iff.rfl⟩

theorem anchoredAt_floor :
    balance.dollars < ((acc.anchoredAt balance maxDrawdownPct locksAtPct).resolveAt balance
        maxDrawdownPct locksAtPct).floor ↔
      balance.dollars < (acc.resolveAt balance maxDrawdownPct locksAtPct).floor := by
  have hpeak : max (acc.anchoredAt balance maxDrawdownPct locksAtPct).drawdown.priorPeak balance.dollars
      = max acc.drawdown.priorPeak balance.dollars := by
    rw [anchoredAt_priorPeak, max_assoc, max_self]
  by_cases hunlocked : acc.accountType = .funded → locksAtPct = none
  · have hfloor := @resolveEffectiveFloor_floor_unlocked acc.drawdown
      ⟨balance.dollars, maxDrawdownPct, locksAtPct⟩ hunlocked
    have hagain := @resolveEffectiveFloor_floor_unlocked
      (acc.anchoredAt balance maxDrawdownPct locksAtPct).drawdown
      ⟨balance.dollars, maxDrawdownPct, locksAtPct⟩ hunlocked
    rw [hfloor, hagain, hpeak]
  · rw [Classical.not_imp] at hunlocked
    obtain ⟨hfunded, hlocks⟩ := hunlocked
    obtain ⟨locks, rfl⟩ := Option.ne_none_iff_exists'.mp hlocks
    obtain ⟨hfloor, hnext, hchanged⟩ := @resolveEffectiveFloor_locked acc.drawdown
      ⟨balance.dollars, maxDrawdownPct, some locks⟩ locks hfunded rfl
    obtain ⟨hfloor', _, _⟩ := @resolveEffectiveFloor_locked
      (acc.anchoredAt balance maxDrawdownPct (some locks)).drawdown
      ⟨balance.dollars, maxDrawdownPct, some locks⟩ locks hfunded rfl
    have hpersisted := @nextLockedFloor_persisted acc.drawdown
      (acc.anchoredAt balance maxDrawdownPct (some locks)).drawdown acc.eodTrailingFloor
      (max acc.drawdown.priorPeak balance.dollars) maxDrawdownPct locks rfl rfl ?_
    · rw [hfloor, hfloor', hpeak]
      rcases hpersisted with ⟨hnone, hnone'⟩ | ⟨locked, locked', hlocked, hlocked', hsame⟩
      · rw [hnone, hnone']
      · rw [hlocked, hlocked', Option.elim_some, Option.elim_some, lt_max_iff, lt_max_iff, hsame]
    · -- writing back an unchanged locked floor leaves its column as it is
      have hcolumn := anchored_eodTrailingFloor (hchanged.trans (by rw [hnext]))
      rw [hnext] at hcolumn
      exact congrArg (Option.map Cents.dollars) hcolumn

end Resolve

theorem recheckFloor_isSome {maxDrawdownPct : ℚ} {locksAtPct : Option ℚ} {acc : Account} :
    (recheckFloor maxDrawdownPct locksAtPct acc).isSome ↔ 0 < maxDrawdownPct ∧
      acc.currentBalance.dollars < (acc.resolveAt acc.currentBalance maxDrawdownPct locksAtPct).floor := by
  unfold recheckFloor
  by_cases hpos : 0 < maxDrawdownPct
  · rw [if_neg hpos.not_ge]
    simp only [hpos, true_and]
    split
    · rename_i hat
      exact iff_of_false (by simp) hat.not_gt
    · rename_i hbelow
      exact iff_of_true (by simp) (not_le.mp hbelow)
  · simp [not_lt.mp hpos, hpos]

/-! ### The three verdicts

All three see the same row, the same limits and an equity that is the settled balance.
-/

def IntervalFails (limits : Limits) (acc : Account) (todayRealized : Cents) : Prop :=
  checkFloatingDrawdown limits acc 0 todayRealized = some (.fail .trailing)

/-- The tick suspects the account, and the confirmation bears it out. -/
def EventFails (limits : Limits) (acc : Account) (todayRealized : Cents) : Prop :=
  (runTick (buildAccountEntry acc limits 0 todayRealized.dollars)).bind
    (settleAccountOutcome · acc 0 todayRealized) = some (.fail .trailing)

/-- `processAccount` finds the balance at the floor, and `failAccount`'s re-check finds it there too,
on the anchors the first comparison has persisted. -/
def ChallengeFails (limits : Limits) (acc : Account) : Prop :=
  processAccountBreached limits acc = true ∧
    ∀ maxDrawdownPct ∈ limits.maxDrawdownPct, (recheckFloor maxDrawdownPct limits.drawdownLocksAtPct
      (acc.anchoredAt acc.currentBalance maxDrawdownPct limits.drawdownLocksAtPct)).isSome

instance (limits : Limits) (acc : Account) (todayRealized : Cents) :
    Decidable (IntervalFails limits acc todayRealized) := inferInstanceAs (Decidable (_ = _))

instance (limits : Limits) (acc : Account) (todayRealized : Cents) :
    Decidable (EventFails limits acc todayRealized) := inferInstanceAs (Decidable (_ = _))

instance (limits : Limits) (acc : Account) : Decidable (ChallengeFails limits acc) :=
  decidable_of_iff (processAccountBreached limits acc = true ∧ limits.maxDrawdownPct.all fun pct =>
    (recheckFloor pct limits.drawdownLocksAtPct
      (acc.anchoredAt acc.currentBalance pct limits.drawdownLocksAtPct)).isSome)
    (by simp [ChallengeFails, Option.all_eq_true])

def PathsAgree (limits : Limits) (acc : Account) (todayRealized : Cents) : Prop :=
  (IntervalFails limits acc todayRealized ↔ EventFails limits acc todayRealized) ∧
    (EventFails limits acc todayRealized ↔ ChallengeFails limits acc)

instance (limits : Limits) (acc : Account) (todayRealized : Cents) :
    Decidable (PathsAgree limits acc todayRealized) := inferInstanceAs (Decidable (_ ∧ _))

section Verdicts

variable (maxDrawdownPct : ℚ) (dailyDrawdownPct locksAtPct : Option ℚ) (acc : Account)
  (todayRealized : Cents)

theorem intervalFails_iff :
    IntervalFails ⟨some maxDrawdownPct, dailyDrawdownPct, locksAtPct⟩ acc todayRealized ↔
      0 < maxDrawdownPct ∧ acc.currentBalance.dollars
        ≤ (acc.resolveAt acc.currentBalance maxDrawdownPct locksAtPct).floor := by
  unfold IntervalFails checkFloatingDrawdown
  by_cases hpos : 0 < maxDrawdownPct
  · simp only [Option.filter_some, hpos, decide_true, if_true, add_zero, true_and]
    split_ifs with hbreach hdaily htarget
    · exact iff_of_true rfl hbreach
    · exact iff_of_false (by simp) hbreach
    · exact iff_of_false (by simp) hbreach
    · exact iff_of_false (by simp) hbreach
  · simp [Option.filter_some, hpos]

theorem eventFails_iff :
    EventFails ⟨some maxDrawdownPct, dailyDrawdownPct, locksAtPct⟩ acc todayRealized ↔
      0 < maxDrawdownPct ∧ acc.currentBalance.dollars
        < (acc.resolveAt acc.currentBalance maxDrawdownPct locksAtPct).floor := by
  have hequity : (buildAccountEntry acc ⟨some maxDrawdownPct, dailyDrawdownPct, locksAtPct⟩ 0
      todayRealized.dollars).equity = acc.currentBalance.dollars := add_zero _
  have hresolution : (buildAccountEntry acc ⟨some maxDrawdownPct, dailyDrawdownPct, locksAtPct⟩ 0
      todayRealized.dollars).resolution maxDrawdownPct
        = acc.resolveAt acc.currentBalance maxDrawdownPct locksAtPct := by
    rw [AccountEntry.resolution, hequity]
    rfl
  rw [EventFails, Option.bind_eq_some_iff]
  simp only [settleAccountOutcome_trailing, add_zero]
  constructor
  · rintro ⟨_, htick, floor, rfl, hbelow⟩
    obtain ⟨_, hmax, hpos, rfl, _⟩ := runTick_trailing.mp htick
    obtain rfl := Option.some.inj hmax
    rw [hresolution] at hbelow
    exact ⟨hpos, hbelow⟩
  · rintro ⟨hpos, hbelow⟩
    refine ⟨_, runTick_trailing.mpr ⟨_, rfl, hpos, rfl, ?_⟩, _, rfl, ?_⟩
    · rw [hequity, hresolution]
      exact hbelow.le
    · rw [hresolution]
      exact hbelow

theorem challengeFails_iff :
    ChallengeFails ⟨some maxDrawdownPct, dailyDrawdownPct, locksAtPct⟩ acc ↔
      0 < maxDrawdownPct ∧ 0 < acc.startingBalance ∧ acc.currentBalance.dollars
        < (acc.resolveAt acc.currentBalance maxDrawdownPct locksAtPct).floor := by
  have hbreached : processAccountBreached ⟨some maxDrawdownPct, dailyDrawdownPct, locksAtPct⟩ acc = true ↔
      0 < acc.startingBalance ∧ acc.currentBalance.dollars
        ≤ (acc.resolveAt acc.currentBalance maxDrawdownPct locksAtPct).floor := by
    simp [processAccountBreached, processAccountResolution]
  have hrecheck : (recheckFloor maxDrawdownPct locksAtPct
      (acc.anchoredAt acc.currentBalance maxDrawdownPct locksAtPct)).isSome ↔
        0 < maxDrawdownPct ∧ acc.currentBalance.dollars
          < (acc.resolveAt acc.currentBalance maxDrawdownPct locksAtPct).floor := by
    rw [← anchoredAt_floor]
    exact recheckFloor_isSome
  simp only [ChallengeFails, hbreached, Option.mem_def, Option.some.injEq, forall_eq', hrecheck]
  constructor
  · rintro ⟨⟨hstart, -⟩, hpos, hbelow⟩
    exact ⟨hpos, hstart, hbelow⟩
  · rintro ⟨hpos, hstart, hbelow⟩
    exact ⟨⟨hstart, hbelow.le⟩, hpos, hbelow⟩

end Verdicts

/-- Started with 10,000 dollars, at 9,000 now, on a floor of 9,000. -/
def accountOnFloor : Account := { sampleTerms.provision 1 with currentBalance := 900000 }

end PropFirm
