import Mathlib.Data.Finset.Card
import Mathlib.Data.List.Dedup
import PropFirm.TradingDays

/-!
# Aggregates of a divided history

The daily aggregates depend on a history only through the days it has and what closed on each of them.
A history put together from two parts is counted part by part where the parts share no day, and a day
they share adds up.
-/

namespace PropFirm

theorem mem_closeDays {closed : List Trade} {day : Option Nat} :
    day ∈ closeDays closed ↔ ∃ t ∈ closed, t.closeDay = day := by
  simp [closeDays]

theorem sumDemoPnl_append (first second : List Trade) :
    sumDemoPnl (first ++ second) = sumDemoPnl first + sumDemoPnl second := by
  simp [sumDemoPnl]

theorem dayPnl_append (first second : List Trade) (day : Option Nat) :
    dayPnl (first ++ second) day = dayPnl first day + dayPnl second day := by
  rw [dayPnl, List.filter_append, sumDemoPnl_append, dayPnl, dayPnl]

theorem dayPnl_of_notMem {closed : List Trade} {day : Option Nat} (hday : day ∉ closeDays closed) :
    dayPnl closed day = 0 := by
  have hnone : (closed.filter fun t => t.closeDay = day) = [] := by
    rw [List.filter_eq_nil_iff]
    intro t ht
    simpa using fun hclose : t.closeDay = day => hday (mem_closeDays.mpr ⟨t, ht, hclose⟩)
  rw [dayPnl, hnone]
  rfl

theorem getTodayRealizedPnl_append (first second : List Trade) (now : Nat) :
    getTodayRealizedPnl (first ++ second) now
      = getTodayRealizedPnl first now + getTodayRealizedPnl second now := by
  rw [getTodayRealizedPnl, List.filter_append, sumDemoPnl_append, getTodayRealizedPnl,
    getTodayRealizedPnl]

/-- Days that some closed row has, and that satisfy a condition. -/
def daysWhere (closed : List Trade) (p : Option Nat → Bool) : Nat := ((closeDays closed).filter p).length

/-- Which days count towards the minimum. -/
def qualifies (closed : List Trade) (startingBalance : Cents) (minDailyProfitPct : Option ℚ)
    (day : Option Nat) : Bool :=
  match minDailyProfitPct with
  | none => day.isSome
  | some threshold =>
    if startingBalance ≤ 0 ∨ threshold ≤ 0 then day.isSome
    else threshold ≤ (dayPnl closed day).dollars / startingBalance.dollars * 100

theorem countQualifyingTradingDays_eq (closed : List Trade) (startingBalance : Cents)
    (minDailyProfitPct : Option ℚ) :
    countQualifyingTradingDays closed startingBalance minDailyProfitPct
      = daysWhere closed (qualifies closed startingBalance minDailyProfitPct) := by
  unfold countQualifyingTradingDays daysWhere qualifies
  cases minDailyProfitPct with
  | none => rfl
  | some threshold =>
    dsimp only
    split_ifs with hall
    · rfl
    · rfl

theorem daysWhere_eq_card (closed : List Trade) (p : Option Nat → Bool) :
    daysWhere closed p = {day ∈ (closed.map Trade.closeDay).toFinset | p day = true}.card := by
  rw [daysWhere, closeDays, ← List.toFinset_card_of_nodup ((List.nodup_dedup _).filter _),
    List.toFinset_filter]
  congr 2
  ext day
  rw [List.mem_toFinset, List.mem_dedup, List.mem_toFinset]

/-- Days are counted by what closed on them, not by the rows themselves. -/
theorem daysWhere_congr {first second : List Trade} {p q : Option Nat → Bool}
    (hdays : ∀ day, day ∈ closeDays first ↔ day ∈ closeDays second)
    (hsame : ∀ day ∈ closeDays first, p day = q day) : daysWhere first p = daysWhere second q := by
  rw [daysWhere_eq_card, daysWhere_eq_card]
  congr 1
  ext day
  simp only [Finset.mem_filter, List.mem_toFinset]
  have hmem : ∀ closed : List Trade, day ∈ closed.map Trade.closeDay ↔ day ∈ closeDays closed :=
    fun closed => List.mem_dedup.symm
  rw [hmem, hmem, ← hdays day]
  exact and_congr_right fun hday => by rw [hsame day hday]

theorem daysWhere_append {first second : List Trade} {p : Option Nat → Bool}
    (hdisjoint : ∀ day ∈ closeDays first, day ∉ closeDays second) :
    daysWhere (first ++ second) p = daysWhere first p + daysWhere second p := by
  rw [daysWhere_eq_card, daysWhere_eq_card, daysWhere_eq_card, List.map_append, List.toFinset_append,
    Finset.filter_union]
  apply Finset.card_union_of_disjoint
  rw [Finset.disjoint_left]
  intro day hfirst hsecond
  simp only [Finset.mem_filter, List.mem_toFinset] at hfirst hsecond
  exact hdisjoint day (List.mem_dedup.mpr hfirst.1) (List.mem_dedup.mpr hsecond.1)

/-- Two parts of a history that share no day are counted apart. -/
theorem countQualifyingTradingDays_append {first second : List Trade}
    (hdisjoint : ∀ day ∈ closeDays first, day ∉ closeDays second) (startingBalance : Cents)
    (minDailyProfitPct : Option ℚ) :
    countQualifyingTradingDays (first ++ second) startingBalance minDailyProfitPct
      = countQualifyingTradingDays first startingBalance minDailyProfitPct
        + countQualifyingTradingDays second startingBalance minDailyProfitPct := by
  have hqualifies : ∀ (closed : List Trade) day,
      dayPnl (first ++ second) day = dayPnl closed day →
      qualifies (first ++ second) startingBalance minDailyProfitPct day
        = qualifies closed startingBalance minDailyProfitPct day := by
    intro closed day hpnl
    unfold qualifies
    rw [hpnl]
  rw [countQualifyingTradingDays_eq, daysWhere_append hdisjoint, countQualifyingTradingDays_eq first,
    countQualifyingTradingDays_eq second]
  congr 1
  · refine daysWhere_congr (fun _ => Iff.rfl) fun day hday => hqualifies first day ?_
    rw [dayPnl_append, dayPnl_of_notMem (hdisjoint day hday), add_zero]
  · refine daysWhere_congr (fun _ => Iff.rfl) fun day hday => hqualifies second day ?_
    rw [dayPnl_append, dayPnl_of_notMem fun hfirst => hdisjoint day hfirst hday, zero_add]

theorem countQualifyingTradingDays_congr {first second : List Trade}
    (hdays : ∀ day, day ∈ closeDays first ↔ day ∈ closeDays second)
    (hpnl : ∀ day, dayPnl first day = dayPnl second day) (startingBalance : Cents)
    (minDailyProfitPct : Option ℚ) :
    countQualifyingTradingDays first startingBalance minDailyProfitPct
      = countQualifyingTradingDays second startingBalance minDailyProfitPct := by
  rw [countQualifyingTradingDays_eq, countQualifyingTradingDays_eq]
  refine daysWhere_congr hdays fun day _ => ?_
  unfold qualifies
  rw [hpnl day]

theorem getBestDayProfit_le {closed : List Trade} {bound : Cents} :
    getBestDayProfit closed ≤ bound ↔ 0 ≤ bound ∧ ∀ day, dayPnl closed day ≤ bound := by
  have hfold : ∀ (pnls : List Cents) (start : Cents),
      pnls.foldl max start ≤ bound ↔ start ≤ bound ∧ ∀ pnl ∈ pnls, pnl ≤ bound := by
    intro pnls
    induction pnls with
    | nil => simp
    | cons pnl pnls ih =>
      intro start
      rw [List.foldl_cons, ih]
      simp [and_assoc]
  rw [getBestDayProfit, hfold]
  refine and_congr_right fun hbound => ?_
  simp only [List.mem_map, forall_exists_index, and_imp, forall_apply_eq_imp_iff₂]
  refine ⟨fun hdays day => ?_, fun hdays day _ => hdays day⟩
  by_cases hday : day ∈ closeDays closed
  · exact hdays day hday
  · rw [dayPnl_of_notMem hday]
    exact hbound

theorem getBestDayProfit_nonneg (closed : List Trade) : 0 ≤ getBestDayProfit closed :=
  (getBestDayProfit_le.mp le_rfl).1

theorem getBestDayProfit_congr {first second : List Trade}
    (hpnl : ∀ day, dayPnl first day = dayPnl second day) :
    getBestDayProfit first = getBestDayProfit second := by
  refine eq_of_forall_ge_iff fun bound => ?_
  rw [getBestDayProfit_le, getBestDayProfit_le]
  simp only [hpnl]

/-- The days of rows that all closed on one day. -/
theorem daysWhere_of_closeDay {closed : List Trade} {day : Option Nat} {p : Option Nat → Bool}
    (hday : ∀ t ∈ closed, t.closeDay = day) :
    daysWhere closed p = if closed ≠ [] ∧ p day then 1 else 0 := by
  have hreplicate : closed.map Trade.closeDay = List.replicate closed.length day :=
    List.map_eq_replicate_iff.mpr hday
  rw [daysWhere, closeDays, hreplicate]
  cases closed with
  | nil => rfl
  | cons t closed =>
    rw [List.replicate_dedup (by simp)]
    cases hp : p day <;> simp [hp]

theorem getBestDayProfit_of_closeDay {closed : List Trade} {day : Option Nat}
    (hday : ∀ t ∈ closed, t.closeDay = day) : getBestDayProfit closed = max 0 (dayPnl closed day) := by
  refine eq_of_forall_ge_iff fun bound => ?_
  rw [max_le_iff, getBestDayProfit_le]
  refine and_congr_right fun hbound => ⟨fun hdays => hdays day, fun hle other => ?_⟩
  by_cases hother : other ∈ closeDays closed
  · obtain ⟨t, ht, rfl⟩ := mem_closeDays.mp hother
    rw [hday t ht]
    exact hle
  · rw [dayPnl_of_notMem hother]
    exact hbound

theorem getBestDayProfit_append {first second : List Trade}
    (hdisjoint : ∀ day ∈ closeDays first, day ∉ closeDays second) :
    getBestDayProfit (first ++ second) = max (getBestDayProfit first) (getBestDayProfit second) := by
  refine eq_of_forall_ge_iff fun bound => ?_
  rw [max_le_iff, getBestDayProfit_le, getBestDayProfit_le, getBestDayProfit_le, ← and_and_left]
  refine and_congr_right fun hbound => ?_
  rw [← forall_and]
  refine forall_congr' fun day => ?_
  rw [dayPnl_append]
  by_cases hday : day ∈ closeDays first
  · rw [dayPnl_of_notMem (hdisjoint day hday), add_zero, and_iff_left hbound]
  · rw [dayPnl_of_notMem hday, zero_add, and_iff_right hbound]

theorem mem_closeDays_perm {first second : List Trade} (hperm : first.Perm second) (day : Option Nat) :
    day ∈ closeDays first ↔ day ∈ closeDays second := by
  rw [mem_closeDays, mem_closeDays]
  exact exists_congr fun t => and_congr_left' hperm.mem_iff

theorem dayPnl_perm {first second : List Trade} (hperm : first.Perm second) (day : Option Nat) :
    dayPnl first day = dayPnl second day :=
  (((hperm.filter _).map _).sum_eq)

end PropFirm
