import Mathlib
import PropFirm.Lib.Matching

/-!
# How far two traders' orders coincide

`overlapCoefficient` goes through the trades of one user and gives each the first trade of the other that
is still free and close enough, with a cursor over those that have passed for good. What it counts is the
size of a maximum matching.
-/

namespace PropFirm

open Matching

structure LinkTrade where
  time : ℤ
  instrument : String
  direction : String
  deriving DecidableEq

structure TradeOverlap where
  overlap : ℚ
  matched : ℕ

/-- The trades of a list that are not consumed. -/
def freeTrades : List LinkTrade → List Bool → List LinkTrade
  | other :: others, used :: consumed =>
    if used then freeTrades others consumed else other :: freeTrades others consumed
  | _, _ => []

/-- The inner loop, over the trades from the cursor on: `none` when it consumes nothing. -/
def consumeFirst (windowMs : ℚ) (trade : LinkTrade) : List LinkTrade → List Bool → Option (List Bool)
  | other :: others, used :: consumed =>
    if trade.time + windowMs < other.time then none
    else if used = true ∨ other.instrument ≠ trade.instrument ∨ other.direction ≠ trade.direction then
      (consumeFirst windowMs trade others consumed).map (used :: ·)
    else some (true :: consumed)
  | _, _ => none

/-- The `while` loop. -/
def advanceCursor (windowMs : ℚ) (trade : LinkTrade) (tradesB : List LinkTrade) (cursor : ℕ) : ℕ :=
  cursor + ((tradesB.drop cursor).takeWhile fun other => other.time < trade.time - windowMs).length

structure OverlapScan where
  consumed : List Bool
  cursor : ℕ
  matched : ℕ

def OverlapScan.next (windowMs : ℚ) (tradesB : List LinkTrade) (scan : OverlapScan) (trade : LinkTrade) :
    OverlapScan :=
  let cursor := advanceCursor windowMs trade tradesB scan.cursor
  match consumeFirst windowMs trade (tradesB.drop cursor) (scan.consumed.drop cursor) with
  | none => { scan with cursor := cursor }
  | some consumed =>
    { consumed := scan.consumed.take cursor ++ consumed, cursor := cursor, matched := scan.matched + 1 }

def overlapCoefficient (tradesA tradesB : List LinkTrade) (windowMs : ℚ) : TradeOverlap :=
  if tradesA = [] ∨ tradesB = [] then ⟨0, 0⟩
  else
    let start : OverlapScan := ⟨List.replicate tradesB.length false, 0, 0⟩
    let matched := (tradesA.foldl (OverlapScan.next windowMs tradesB) start).matched
    ⟨matched / min tradesA.length tradesB.length, matched⟩

/-- Two trades that may be matched. -/
def Simultaneous (windowMs : ℚ) (a b : LinkTrade) : Prop :=
  a.instrument = b.instrument ∧ a.direction = b.direction ∧ |(a.time - b.time : ℚ)| ≤ windowMs

/-- The order the trades are read in. -/
def TimeSorted (trades : List LinkTrade) : Prop := trades.Pairwise fun a b => a.time ≤ b.time

section Free

variable {windowMs : ℚ} {trade : LinkTrade}

theorem freeTrades_append {trades others : List LinkTrade} {consumed flags : List Bool}
    (hlength : trades.length = consumed.length) :
    freeTrades (trades ++ others) (consumed ++ flags) = freeTrades trades consumed ++ freeTrades others flags := by
  induction trades generalizing consumed with
  | nil =>
    rw [List.length_eq_zero_iff.mp hlength.symm]
    rfl
  | cons trade trades ih =>
    obtain _ | ⟨used, consumed⟩ := consumed
    · cases hlength
    have htail := ih (Nat.succ_inj.mp hlength)
    simp only [List.cons_append, freeTrades]
    split
    · exact htail
    · rw [htail, List.cons_append]

theorem freeTrades_sublist (trades : List LinkTrade) (consumed : List Bool) :
    (freeTrades trades consumed).Sublist trades := by
  induction trades generalizing consumed with
  | nil => exact List.Sublist.refl _
  | cons trade trades ih =>
    obtain _ | ⟨used, consumed⟩ := consumed
    · exact List.nil_sublist _
    rw [freeTrades]
    split
    · exact (ih consumed).cons trade
    · exact (ih consumed).cons_cons trade

theorem freeTrades_replicate (trades : List LinkTrade) :
    freeTrades trades (List.replicate trades.length false) = trades := by
  induction trades with
  | nil => rfl
  | cons trade trades ih =>
    rw [List.length_cons, List.replicate_succ, freeTrades, ih]
    exact if_neg Bool.false_ne_true

end Free

section Loop

variable {windowMs : ℚ} {trade : LinkTrade}

/-- The trades the inner loop sees are not too early, and none behind a trade that is too late fits. -/
theorem consumeFirst_none {trades : List LinkTrade} {consumed : List Bool} (hsorted : TimeSorted trades)
    (hnone : consumeFirst windowMs trade trades consumed = none) :
    ∀ other ∈ freeTrades trades consumed, ¬ Simultaneous windowMs trade other := by
  induction trades generalizing consumed with
  | nil =>
    intro other hother
    cases hother
  | cons first trades ih =>
    obtain _ | ⟨used, consumed⟩ := consumed
    · intro other hother
      cases hother
    obtain ⟨hfirst, hrest⟩ := List.pairwise_cons.mp hsorted
    rw [consumeFirst] at hnone
    split at hnone
    · rename_i hlate
      intro other hother hfits
      have hle : first.time ≤ other.time := by
        obtain rfl | hmem := List.mem_cons.mp ((freeTrades_sublist _ _).subset hother)
        · exact le_rfl
        · exact hfirst other hmem
      have hcast : (first.time : ℚ) ≤ other.time := Int.cast_le.mpr hle
      have hbound := abs_le.mp hfits.2.2
      linarith [hbound.1]
    split at hnone
    · rename_i hskip
      have htail := ih hrest (Option.map_eq_none_iff.mp hnone)
      rw [freeTrades]
      split
      · exact htail
      · rename_i hfree
        intro other hother hfits
        obtain rfl | hother := List.mem_cons.mp hother
        · obtain hused | hinstrument | hdirection := hskip
          · exact hfree hused
          · exact hinstrument hfits.1.symm
          · exact hdirection hfits.2.1.symm
        · exact htail other hother hfits
    · cases hnone

theorem consumeFirst_some {trades : List LinkTrade} {consumed flags : List Bool}
    (hearly : ∀ other ∈ trades, trade.time - windowMs ≤ other.time)
    (hsome : consumeFirst windowMs trade trades consumed = some flags) :
    ∃ before other after, freeTrades trades consumed = before ++ other :: after ∧
      freeTrades trades flags = before ++ after ∧ Simultaneous windowMs trade other ∧
      (∀ b ∈ before, ¬ Simultaneous windowMs trade b) ∧ flags.length = consumed.length := by
  induction trades generalizing consumed flags with
  | nil => cases hsome
  | cons first trades ih =>
    obtain _ | ⟨used, consumed⟩ := consumed
    · cases hsome
    rw [consumeFirst] at hsome
    split at hsome
    · cases hsome
    rename_i hlate
    split at hsome
    · rename_i hskip
      obtain ⟨tail, htail, rfl⟩ := Option.map_eq_some_iff.mp hsome
      obtain ⟨before, other, after, hfree, hflags, hfits, hbefore, hlength⟩ :=
        ih (fun other hother => hearly other (List.mem_cons_of_mem first hother)) htail
      by_cases hused : used = true
      · refine ⟨before, other, after, ?_, ?_, hfits, hbefore, ?_⟩
        · rw [freeTrades, if_pos hused, hfree]
        · rw [freeTrades, if_pos hused, hflags]
        · rw [List.length_cons, List.length_cons, hlength]
      · refine ⟨first :: before, other, after, ?_, ?_, hfits, fun b hb hfirst => ?_, ?_⟩
        · rw [freeTrades, if_neg hused, hfree, List.cons_append]
        · rw [freeTrades, if_neg hused, hflags, List.cons_append]
        · obtain rfl | hb := List.mem_cons.mp hb
          · obtain hused' | hinstrument | hdirection := hskip
            · exact hused hused'
            · exact hinstrument hfirst.1.symm
            · exact hdirection hfirst.2.1.symm
          · exact hbefore b hb hfirst
        · rw [List.length_cons, List.length_cons, hlength]
    · rename_i htake
      obtain rfl := Option.some.inj hsome
      push Not at htake
      obtain ⟨hfree, hinstrument, hdirection⟩ := htake
      refine ⟨[], first, freeTrades trades consumed, ?_, ?_, ⟨hinstrument.symm, hdirection.symm, ?_⟩, ?_, rfl⟩
      · rw [freeTrades, if_neg hfree, List.nil_append]
      · rw [freeTrades, if_pos rfl, List.nil_append]
      · have hfirst := hearly first (List.mem_cons_self ..)
        rw [abs_le]
        constructor <;> linarith
      · intro b hb
        cases hb

end Loop

section Scan

variable {windowMs : ℚ} {trade : LinkTrade} {trades : List LinkTrade} {cursor : ℕ}

theorem drop_length_takeWhile {α : Type*} (p : α → Bool) (xs : List α) :
    xs.drop (xs.takeWhile p).length = xs.dropWhile p := by
  conv_lhs => arg 2; rw [← List.takeWhile_append_dropWhile (p := p) (l := xs)]
  exact List.drop_left

theorem take_length_takeWhile {α : Type*} (p : α → Bool) (xs : List α) :
    xs.take (xs.takeWhile p).length = xs.takeWhile p := by
  conv_lhs => arg 2; rw [← List.takeWhile_append_dropWhile (p := p) (l := xs)]
  exact List.take_left

theorem drop_advanceCursor : trades.drop (advanceCursor windowMs trade trades cursor)
    = (trades.drop cursor).dropWhile fun other => other.time < trade.time - windowMs := by
  rw [advanceCursor, ← List.drop_drop, drop_length_takeWhile]

theorem take_advanceCursor : trades.take (advanceCursor windowMs trade trades cursor)
    = trades.take cursor ++ (trades.drop cursor).takeWhile fun other => other.time < trade.time - windowMs := by
  rw [advanceCursor, List.take_add, take_length_takeWhile]

/-- What the cursor has passed is too early, and what is left is not. -/
theorem lt_of_mem_take_advanceCursor {other : LinkTrade}
    (hpassed : ∀ b ∈ trades.take cursor, b.time < trade.time - windowMs)
    (hother : other ∈ trades.take (advanceCursor windowMs trade trades cursor)) :
    other.time < trade.time - windowMs := by
  rw [take_advanceCursor] at hother
  obtain hother | hother := List.mem_append.mp hother
  · exact hpassed other hother
  · have hearly := List.mem_takeWhile_imp (p := fun b : LinkTrade => decide (b.time < trade.time - windowMs)) hother
    exact of_decide_eq_true hearly

theorem le_of_mem_drop_advanceCursor {other : LinkTrade} (hsorted : TimeSorted trades)
    (hother : other ∈ trades.drop (advanceCursor windowMs trade trades cursor)) :
    trade.time - windowMs ≤ other.time := by
  rw [drop_advanceCursor] at hother
  have hrest : TimeSorted ((trades.drop cursor).dropWhile fun other => other.time < trade.time - windowMs) :=
    hsorted.sublist ((List.dropWhile_sublist _).trans (List.drop_sublist _ _))
  cases hfrom : (trades.drop cursor).dropWhile fun other => other.time < trade.time - windowMs with
  | nil =>
    rw [hfrom] at hother
    cases hother
  | cons first rest =>
    have hfirst : ¬ first.time < trade.time - windowMs := by
      have hhead := List.head_dropWhile_not (fun other : LinkTrade => decide (other.time < trade.time - windowMs))
        (l := trades.drop cursor) (by rw [hfrom]; exact List.cons_ne_nil _ _)
      simp only [hfrom, List.head_cons] at hhead
      exact of_decide_eq_false hhead
    rw [hfrom] at hother hrest
    obtain rfl | hmem := List.mem_cons.mp hother
    · exact not_lt.mp hfirst
    · exact (not_lt.mp hfirst).trans (Int.cast_le.mpr ((List.pairwise_cons.mp hrest).1 other hmem))

/-- A trade of the first list finds nobody, or takes the first free trade that fits it. -/
theorem OverlapScan.next_cases {scan : OverlapScan} (windowMs : ℚ) (trade : LinkTrade) (hsorted : TimeSorted trades)
    (hlength : trades.length = scan.consumed.length)
    (hpassed : ∀ b ∈ trades.take scan.cursor, b.time < trade.time - windowMs) :
    (∀ b ∈ trades.take (scan.next windowMs trades trade).cursor, b.time < trade.time - windowMs) ∧
    (scan.next windowMs trades trade).consumed.length = scan.consumed.length ∧
    ((∀ other ∈ freeTrades trades scan.consumed, ¬ Simultaneous windowMs trade other) ∧
        (scan.next windowMs trades trade).matched = scan.matched ∧
        (scan.next windowMs trades trade).consumed = scan.consumed ∨
      ∃ before other after, freeTrades trades scan.consumed = before ++ other :: after ∧
        freeTrades trades (scan.next windowMs trades trade).consumed = before ++ after ∧
        Simultaneous windowMs trade other ∧ (∀ b ∈ before, ¬ Simultaneous windowMs trade b) ∧
        (scan.next windowMs trades trade).matched = scan.matched + 1) := by
  let cursor := advanceCursor windowMs trade trades scan.cursor
  have hearly : ∀ b ∈ trades.take cursor, b.time < trade.time - windowMs :=
    fun b hb => lt_of_mem_take_advanceCursor hpassed hb
  have hlow : ∀ other ∈ trades.drop cursor, trade.time - windowMs ≤ other.time :=
    fun other hother => le_of_mem_drop_advanceCursor hsorted hother
  have hsplit : ∀ flags : List Bool, freeTrades trades (scan.consumed.take cursor ++ flags)
      = freeTrades (trades.take cursor) (scan.consumed.take cursor) ++ freeTrades (trades.drop cursor) flags := by
    intro flags
    conv_lhs => rw [← List.take_append_drop cursor trades]
    exact freeTrades_append (by rw [List.length_take, List.length_take, hlength])
  have hfree := hsplit (scan.consumed.drop cursor)
  rw [List.take_append_drop] at hfree
  have hgone : ∀ b ∈ freeTrades (trades.take cursor) (scan.consumed.take cursor),
      ¬ Simultaneous windowMs trade b := by
    intro b hb hfits
    have hlt := hearly b ((freeTrades_sublist _ _).subset hb)
    linarith [(abs_le.mp hfits.2.2).2]
  rw [OverlapScan.next]
  cases hconsume : consumeFirst windowMs trade (trades.drop cursor) (scan.consumed.drop cursor) with
  | none =>
    refine ⟨hearly, rfl, .inl ⟨fun other hother => ?_, rfl, rfl⟩⟩
    rw [hfree] at hother
    obtain hother | hother := List.mem_append.mp hother
    · exact hgone other hother
    · exact consumeFirst_none (hsorted.sublist (List.drop_sublist _ _)) hconsume other hother
  | some flags =>
    obtain ⟨before, other, after, hrest, hflags, hfits, hbefore, hcount⟩ := consumeFirst_some hlow hconsume
    let passed := freeTrades (trades.take cursor) (scan.consumed.take cursor)
    refine ⟨hearly, ?_, .inr ⟨passed ++ before, other, after, ?_, ?_, hfits, fun b hb => ?_, rfl⟩⟩
    · rw [List.length_append, hcount, ← List.length_append, List.take_append_drop]
    · rw [hfree, hrest, List.append_assoc]
    · rw [hsplit, hflags, List.append_assoc]
    · obtain hb | hb := List.mem_append.mp hb
      · exact hgone b hb
      · exact hbefore b hb

end Scan

/-- An earlier trade may be left to a later one, as far as both are near both. -/
theorem Simultaneous.exchange {windowMs : ℚ} {a a' b b' : LinkTrade} (hab : Simultaneous windowMs a b)
    (hab' : Simultaneous windowMs a b') (ha'b : Simultaneous windowMs a' b) (ha : a.time ≤ a'.time)
    (hb : b.time ≤ b'.time) : Simultaneous windowMs a' b' := by
  refine ⟨ha'b.1.trans (hab.1.symm.trans hab'.1), ha'b.2.1.trans (hab.2.1.symm.trans hab'.2.1), ?_⟩
  have hacast : (a.time : ℚ) ≤ a'.time := Int.cast_le.mpr ha
  have hbcast : (b.time : ℚ) ≤ b'.time := Int.cast_le.mpr hb
  rw [abs_le]
  constructor
  · linarith [(abs_le.mp hab'.2.2).1]
  · linarith [(abs_le.mp ha'b.2.2).2]

theorem Simultaneous.symm {windowMs : ℚ} {a b : LinkTrade} (hab : Simultaneous windowMs a b) :
    Simultaneous windowMs b a :=
  ⟨hab.1.symm, hab.2.1.symm, by rw [abs_sub_comm]; exact hab.2.2⟩

theorem flip_simultaneous (windowMs : ℚ) : flip (Simultaneous windowMs) = Simultaneous windowMs := by
  funext a b
  exact propext ⟨Simultaneous.symm, Simultaneous.symm⟩

/-- From any point of the scan on, what is counted is a maximum matching with the trades still free. -/
theorem OverlapScan.foldl_matched {windowMs : ℚ} {tradesA tradesB : List LinkTrade} {scan : OverlapScan}
    (hA : TimeSorted tradesA) (hB : TimeSorted tradesB) (hlength : tradesB.length = scan.consumed.length)
    (hpassed : ∀ a ∈ tradesA, ∀ b ∈ tradesB.take scan.cursor, (b.time : ℚ) < a.time - windowMs) :
    ∃ n, IsMaximum (Simultaneous windowMs) tradesA (freeTrades tradesB scan.consumed) n ∧
      (tradesA.foldl (OverlapScan.next windowMs tradesB) scan).matched = scan.matched + n := by
  induction tradesA generalizing scan with
  | nil => exact ⟨0, IsMaximum.nil _ _, rfl⟩
  | cons trade tradesA ih =>
    obtain ⟨hlater, hrest⟩ := List.pairwise_cons.mp hA
    obtain ⟨hearly, hkept, hcases⟩ := OverlapScan.next_cases windowMs trade hB hlength
      (hpassed trade (List.mem_cons_self ..))
    obtain ⟨n, hmaximum, hcount⟩ := @ih (scan.next windowMs tradesB trade) hrest (hlength.trans hkept.symm)
      fun a ha b hb => by
        have hle : (trade.time : ℚ) ≤ a.time := Int.cast_le.mpr (hlater a ha)
        linarith [hearly b hb]
    rw [List.foldl_cons, hcount, ← Multiset.cons_coe]
    obtain ⟨hnobody, hmatched, hsame⟩ | ⟨before, other, after, hfree, hfree', hfits, hbefore, hmatched⟩ := hcases
    · rw [hsame] at hmaximum
      exact ⟨n, hmaximum.pass hnobody, by rw [hmatched]⟩
    · refine ⟨n + 1, ?_, by omega⟩
      have hsorted : TimeSorted (before ++ other :: after) := by
        rw [← hfree]
        exact hB.sublist (freeTrades_sublist _ _)
      rw [hfree, Multiset.coe_eq_coe.mpr List.perm_middle, ← Multiset.cons_coe]
      rw [hfree'] at hmaximum
      refine hmaximum.pair hfits fun a' ha' b' hb' hab' ha'b => ?_
      obtain hb' | hb' := List.mem_append.mp hb'
      · exact absurd hab' (hbefore b' hb')
      · have hle := (List.pairwise_cons.mp (List.pairwise_append.mp hsorted).2.1).1 b' hb'
        exact hfits.exchange hab' ha'b (hlater a' ha') hle

section Overlap

variable {windowMs : ℚ} {tradesA tradesB : List LinkTrade}

theorem overlapCoefficient_isMaximum (windowMs : ℚ) (hA : TimeSorted tradesA) (hB : TimeSorted tradesB) :
    IsMaximum (Simultaneous windowMs) tradesA tradesB (overlapCoefficient tradesA tradesB windowMs).matched := by
  rw [overlapCoefficient]
  split
  · rename_i hempty
    obtain rfl | rfl := hempty
    · exact IsMaximum.nil _ _
    · rw [← flip_simultaneous]
      exact (IsMaximum.nil _ _).flip
  · obtain ⟨n, hmaximum, hcount⟩ := @OverlapScan.foldl_matched windowMs _ _
      ⟨List.replicate tradesB.length false, 0, 0⟩ hA hB (List.length_replicate ..).symm
      fun a _ b hb => absurd hb List.not_mem_nil
    rw [freeTrades_replicate] at hmaximum
    rw [Nat.zero_add] at hcount
    rw [← hcount] at hmaximum
    exact hmaximum

theorem overlapCoefficient_overlap (windowMs : ℚ) (tradesA tradesB : List LinkTrade) :
    (overlapCoefficient tradesA tradesB windowMs).overlap
      = (overlapCoefficient tradesA tradesB windowMs).matched / min tradesA.length tradesB.length := by
  rw [overlapCoefficient]
  split
  · exact (zero_div _).symm
  · rfl

/-- The answer is told by the size of a maximum matching and the two lengths. -/
theorem overlapCoefficient_eq_of_isMaximum {tradesA' tradesB' : List LinkTrade}
    (hA : TimeSorted tradesA) (hB : TimeSorted tradesB)
    (hmaximum : IsMaximum (Simultaneous windowMs) tradesA tradesB
      (overlapCoefficient tradesA' tradesB' windowMs).matched)
    (hmin : min tradesA'.length tradesB'.length = min tradesA.length tradesB.length) :
    overlapCoefficient tradesA' tradesB' windowMs = overlapCoefficient tradesA tradesB windowMs := by
  have hmatched := hmaximum.unique (overlapCoefficient_isMaximum windowMs hA hB)
  have hoverlap := overlapCoefficient_overlap windowMs tradesA' tradesB'
  rw [hmatched, hmin, ← overlapCoefficient_overlap] at hoverlap
  exact congrArg₂ TradeOverlap.mk hoverlap hmatched

theorem overlapCoefficient_comm (windowMs : ℚ) (hA : TimeSorted tradesA) (hB : TimeSorted tradesB) :
    overlapCoefficient tradesB tradesA windowMs = overlapCoefficient tradesA tradesB windowMs := by
  refine overlapCoefficient_eq_of_isMaximum hA hB ?_ (min_comm _ _)
  rw [← flip_simultaneous]
  exact (overlapCoefficient_isMaximum windowMs hB hA).flip

theorem overlapCoefficient_perm (windowMs : ℚ) {tradesA' tradesB' : List LinkTrade} (hA : TimeSorted tradesA)
    (hB : TimeSorted tradesB) (hA' : TimeSorted tradesA') (hB' : TimeSorted tradesB')
    (hpermA : tradesA'.Perm tradesA) (hpermB : tradesB'.Perm tradesB) :
    overlapCoefficient tradesA' tradesB' windowMs = overlapCoefficient tradesA tradesB windowMs := by
  refine overlapCoefficient_eq_of_isMaximum hA hB ?_ (by rw [hpermA.length_eq, hpermB.length_eq])
  rw [← Multiset.coe_eq_coe.mpr hpermA, ← Multiset.coe_eq_coe.mpr hpermB]
  exact overlapCoefficient_isMaximum windowMs hA' hB'

theorem overlapCoefficient_mem_unit (windowMs : ℚ) (hA : TimeSorted tradesA) (hB : TimeSorted tradesB) :
    0 ≤ (overlapCoefficient tradesA tradesB windowMs).overlap ∧
      (overlapCoefficient tradesA tradesB windowMs).overlap ≤ 1 := by
  have hmaximum := overlapCoefficient_isMaximum windowMs hA hB
  have hmin := le_min hmaximum.le_card_left hmaximum.le_card_right
  rw [Multiset.coe_card, Multiset.coe_card] at hmin
  rw [overlapCoefficient_overlap]
  constructor
  · positivity
  · exact div_le_one_of_le₀ (by exact_mod_cast hmin) (by positivity)

end Overlap

/-- The greedy scan finds a maximum matching, whatever the order of the lists and of equal times. -/
theorem overlapCoefficient_optimal (windowMs : ℚ) {tradesA tradesB : List LinkTrade} (hA : TimeSorted tradesA)
    (hB : TimeSorted tradesB) :
    IsMaximum (Simultaneous windowMs) tradesA tradesB (overlapCoefficient tradesA tradesB windowMs).matched ∧
    overlapCoefficient tradesB tradesA windowMs = overlapCoefficient tradesA tradesB windowMs ∧
    (∀ tradesA' tradesB', tradesA'.Perm tradesA → tradesB'.Perm tradesB → TimeSorted tradesA' →
      TimeSorted tradesB' →
      overlapCoefficient tradesA' tradesB' windowMs = overlapCoefficient tradesA tradesB windowMs) ∧
    0 ≤ (overlapCoefficient tradesA tradesB windowMs).overlap ∧
    (overlapCoefficient tradesA tradesB windowMs).overlap ≤ 1 := by
  refine ⟨overlapCoefficient_isMaximum windowMs hA hB, overlapCoefficient_comm windowMs hA hB, ?_,
    overlapCoefficient_mem_unit windowMs hA hB⟩
  intro tradesA' tradesB' hpermA hpermB hA' hB'
  exact overlapCoefficient_perm windowMs hA hB hA' hB' hpermA hpermB

/-- One trade that is near two, and one that is near the later of them. -/
theorem overlapCoefficient_optimal_example :
    IsMaximum (Simultaneous 5000) [(⟨0, "EURUSD", "buy"⟩ : LinkTrade), ⟨6000, "EURUSD", "buy"⟩]
      [(⟨3000, "EURUSD", "buy"⟩ : LinkTrade), ⟨4000, "EURUSD", "buy"⟩] 2 ∧
    (overlapCoefficient [⟨0, "EURUSD", "buy"⟩, ⟨6000, "EURUSD", "buy"⟩]
      [⟨3000, "EURUSD", "buy"⟩, ⟨4000, "EURUSD", "buy"⟩] 5000).overlap ≤ 1 := by
  have hoptimal := @overlapCoefficient_optimal 5000
    [⟨0, "EURUSD", "buy"⟩, ⟨6000, "EURUSD", "buy"⟩] [⟨3000, "EURUSD", "buy"⟩, ⟨4000, "EURUSD", "buy"⟩]
    (by simp [TimeSorted]) (by simp [TimeSorted])
  have hmatched : (overlapCoefficient [⟨0, "EURUSD", "buy"⟩, ⟨6000, "EURUSD", "buy"⟩]
      [⟨3000, "EURUSD", "buy"⟩, ⟨4000, "EURUSD", "buy"⟩] 5000).matched = 2 := by decide +kernel
  rw [hmatched] at hoptimal
  exact ⟨hoptimal.1, hoptimal.2.2.2.2⟩

end PropFirm
