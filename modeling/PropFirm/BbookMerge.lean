import Mathlib
import PropFirm.Lib.Ranking

/-!
# Merging duplicate daily rows

Before the daily counters get their unique index, rows of one date are merged by two statements. The first
puts the date's sums into its first row by physical position, the second deletes all rows of the date but
the first by physical position. An update stores its row at a new position, one that no row has, so the
second statement does not have to find first what the first one did.

A date is never missing, by the column's `NOT NULL`. A counter may be, and a sum leaves it out. A sum that
does not fit the column fails the statement.
-/

namespace PropFirm

open Ranking

/-- Values of an `INT` column. -/
abbrev SqlInt := { x : ℤ // -2 ^ 31 ≤ x ∧ x < 2 ^ 31 }

structure BbookCounters where
  accountsPassed : Option SqlInt
  accountsFailed : Option SqlInt
  accountsExpired : Option SqlInt
  newFunded : Option SqlInt
  deriving DecidableEq

/-- A row of `bbook_pnl` at its physical position. -/
structure BbookRow where
  ctid : Nat
  date : Nat
  counters : BbookCounters
  deriving DecidableEq

structure BbookTable where
  rows : List BbookRow
  nodup : (rows.map BbookRow.ctid).Nodup

/-- Assignment to an `INT` column. -/
def toSqlInt (x : ℤ) : Option SqlInt := if hfits : -2 ^ 31 ≤ x ∧ x < 2 ^ 31 then some ⟨x, hfits⟩ else none

theorem toSqlInt_val (x : SqlInt) : toSqlInt x.1 = some x := dif_pos x.2

/-- `SUM`, assigned to an `INT` column. The sum of nothing is missing. -/
def sqlSum (xs : List (Option SqlInt)) : Option (Option SqlInt) :=
  let values := xs.reduceOption
  if values = [] then some none else (toSqlInt (values.map Subtype.val).sum).map some

def sumCounters (cs : List BbookCounters) : Option BbookCounters := do
  let passed ← sqlSum (cs.map BbookCounters.accountsPassed)
  let failed ← sqlSum (cs.map BbookCounters.accountsFailed)
  let expired ← sqlSum (cs.map BbookCounters.accountsExpired)
  let funded ← sqlSum (cs.map BbookCounters.newFunded)
  some ⟨passed, failed, expired, funded⟩

namespace BbookTable

/-- The rows of a date. -/
def on (t : BbookTable) (date : Nat) : List BbookRow := t.rows.filter fun r => r.date = date

/-- The four sums of a date, unless one does not fit. -/
def sums (t : BbookTable) (date : Nat) : Option BbookCounters :=
  sumCounters ((t.on date).map BbookRow.counters)

/-- Where an update may put the rows: at distinct positions that no row has. -/
structure Placement (t : BbookTable) where
  place : Nat → Nat
  inj : ∀ r ∈ t.rows, ∀ s ∈ t.rows, place r.ctid = place s.ctid → r = s
  fresh : ∀ r ∈ t.rows, ∀ s ∈ t.rows, place r.ctid ≠ s.ctid

/-- The first row of a date as the first statement leaves it. -/
def merged (t : BbookTable) (p : t.Placement) (r : BbookRow) : BbookRow where
  ctid := p.place r.ctid
  date := r.date
  counters := (t.sums r.date).getD r.counters

def mergeSums (t : BbookTable) (p : t.Placement) : Option BbookTable :=
  if t.rows.all fun r => (t.sums r.date).isSome then
    some
      { rows := rewriteFirsts BbookRow.date BbookRow.ctid t.rows (t.merged p)
        nodup := nodup_rewriteFirsts t.nodup p.inj p.fresh }
  else none

def deleteDuplicates (t : BbookTable) : BbookTable where
  rows := firsts BbookRow.date BbookRow.ctid t.rows
  nodup := t.nodup.sublist (List.filter_sublist.map _)

/-- `ready` is the flag a process sets when it has done this once. The index is refused while a date has
two rows. -/
def ensureBbookPnlConflictTarget (ready : Bool) (t : BbookTable) (p : t.Placement) : Option BbookTable :=
  if ready then some t
  else do
    let merged ← t.mergeSums p
    let left := merged.deleteDuplicates
    guard (left.rows.map BbookRow.date).Nodup
    some left

/-- What the table says, positions aside. -/
def contents (t : BbookTable) : List (Nat × BbookCounters) := t.rows.map fun r => (r.date, r.counters)

/-- Every date has exactly one row, with its sums of before, and no date comes from nowhere. -/
def Conserves (t t' : BbookTable) : Prop :=
  ∀ date, if t.on date = [] then t'.on date = []
    else ∃ r, t'.on date = [r] ∧ t.sums date = some r.counters

/-- The first run succeeds and conserves, and a second one, in the process or in another, changes nothing. -/
def MergesDuplicates (t : BbookTable) (p : t.Placement) : Prop :=
  ∃ t', ensureBbookPnlConflictTarget false t p = some t' ∧ t.Conserves t' ∧
    ∀ ready (q : t'.Placement), ∃ t'', ensureBbookPnlConflictTarget ready t' q = some t'' ∧
      t''.contents = t'.contents

/-- The sums fit, and the merged row stays in front of the date's second row, unless that one has the sums
already. -/
def StaysFirst (t : BbookTable) (p : t.Placement) : Prop :=
  ∀ f ∈ t.rows, IsFirst BbookRow.date BbookRow.ctid t.rows f →
    (t.sums f.date).isSome ∧ ∀ g, IsSecond BbookRow.date BbookRow.ctid t.rows f g →
      p.place f.ctid < g.ctid ∨ t.sums f.date = some g.counters

variable {t : BbookTable} {p : t.Placement} {f g r : BbookRow}

theorem mem_on {date : Nat} : r ∈ t.on date ↔ r ∈ t.rows ∧ r.date = date := by
  rw [on, List.mem_filter, decide_eq_true_iff]

/-! ### The two statements -/

/-- The tables after the first statement and after both. -/
def afterMerge (t : BbookTable) (p : t.Placement) : BbookTable where
  rows := rewriteFirsts BbookRow.date BbookRow.ctid t.rows (t.merged p)
  nodup := nodup_rewriteFirsts t.nodup p.inj p.fresh

abbrev afterDelete (t : BbookTable) (p : t.Placement) : BbookTable := (t.afterMerge p).deleteDuplicates

theorem on_afterDelete (hr : r ∈ (t.afterMerge p).rows)
    (hfirst : IsFirst BbookRow.date BbookRow.ctid (t.afterMerge p).rows r) :
    (t.afterDelete p).on r.date = [r] :=
  filter_firsts (t.afterMerge p).nodup hr hfirst

/-- The merged row stays when it is in front of the date's second row. -/
theorem on_of_before (hf : f ∈ t.rows) (hfirst : IsFirst BbookRow.date BbookRow.ctid t.rows f)
    (hbefore : ∀ g, IsSecond BbookRow.date BbookRow.ctid t.rows f g → p.place f.ctid < g.ctid) :
    (t.afterDelete p).on f.date = [t.merged p f] :=
  on_afterDelete (mem_rewriteFirsts_first hfirst hf)
    (isFirst_moved t.nodup (fun _ => rfl) hf hfirst hbefore)

/-- Else the second row stays, as it was. -/
theorem on_of_after (hf : f ∈ t.rows) (hfirst : IsFirst BbookRow.date BbookRow.ctid t.rows f)
    (hsecond : IsSecond BbookRow.date BbookRow.ctid t.rows f g) (hafter : ¬ p.place f.ctid < g.ctid) :
    (t.afterDelete p).on f.date = [g] := by
  have hlt : g.ctid < p.place f.ctid :=
    lt_of_le_of_ne (not_lt.mp hafter) (p.fresh f hf g hsecond.1).symm
  have hon := on_afterDelete (p := p) (mem_rewriteFirsts_second hfirst hf hsecond)
    (isFirst_second t.nodup (fun _ => rfl) hf hfirst hsecond hlt)
  rwa [hsecond.2.2.1] at hon

theorem on_afterDelete_eq_nil {date : Nat} (hnone : t.on date = []) : (t.afterDelete p).on date = [] := by
  rw [List.eq_nil_iff_forall_not_mem]
  intro r' hr'
  obtain ⟨hmem, hdate⟩ := mem_on.mp hr'
  obtain ⟨r, hr, rfl⟩ := List.mem_map.mp (List.mem_filter.mp hmem).1
  have hkept : ∀ r, BbookRow.date (t.merged p r) = BbookRow.date r := fun _ => rfl
  rw [key_rewriteFirsts hkept] at hdate
  have hmem : r ∈ t.on date := mem_on.mpr ⟨hr, hdate⟩
  rw [hnone] at hmem
  exact absurd hmem List.not_mem_nil

theorem ensure_eq_some {t' : BbookTable} :
    ensureBbookPnlConflictTarget false t p = some t' ↔
      (∀ r ∈ t.rows, (t.sums r.date).isSome) ∧ t' = t.afterDelete p := by
  have hunique : ((t.afterDelete p).rows.map BbookRow.date).Nodup := nodup_key_firsts (t.afterMerge p).nodup
  rw [← List.all_eq_true, ensureBbookPnlConflictTarget, if_neg Bool.false_ne_true, mergeSums]
  split
  case isTrue hfits =>
    change (guard ((t.afterDelete p).rows.map BbookRow.date).Nodup >>= fun _ => some (t.afterDelete p))
      = _ ↔ _
    rw [guard, if_pos hunique]
    exact ⟨fun h => ⟨hfits, (Option.some.inj h).symm⟩, fun h => congrArg some h.2.symm⟩
  case isFalse hfits => exact iff_of_false (fun h => nomatch h) fun h => hfits h.1

/-! ### A second run -/

theorem sqlSum_singleton (x : Option SqlInt) : sqlSum [x] = some x := by
  cases x with
  | none => rfl
  | some x =>
    have hsum : ([x].map Subtype.val).sum = x.1 := add_zero x.1
    have hvalues : [some x].reduceOption = [x] := rfl
    rw [sqlSum, hvalues, if_neg (List.cons_ne_nil x []), hsum, toSqlInt_val, Option.map_some]

theorem sumCounters_singleton (c : BbookCounters) : sumCounters [c] = some c := by
  simp [sumCounters, sqlSum_singleton]

/-- With one row a date there is nothing to merge and nothing to delete. -/
theorem ensure_of_unique (hdates : (t.rows.map BbookRow.date).Nodup) (ready : Bool) (q : t.Placement) :
    ∃ t', ensureBbookPnlConflictTarget ready t q = some t' ∧ t'.contents = t.contents := by
  cases ready with
  | true => exact ⟨t, rfl, rfl⟩
  | false =>
    have hfirst : ∀ r ∈ t.rows, IsFirst BbookRow.date BbookRow.ctid t.rows r :=
      fun r hr => isFirst_of_nodup_key hdates hr
    have hon : ∀ r ∈ t.rows, t.on r.date = [r] := by
      intro r hr
      have hkept := filter_firsts t.nodup hr (hfirst r hr)
      rwa [firsts, List.filter_eq_self.mpr fun s hs => decide_eq_true (hfirst s hs)] at hkept
    have hsums : ∀ r ∈ t.rows, t.sums r.date = some r.counters := by
      intro r hr
      rw [sums, hon r hr]
      exact sumCounters_singleton r.counters
    have hmerge : (t.afterMerge q).rows = t.rows.map (t.merged q) :=
      List.map_congr_left fun r hr => if_pos (hfirst r hr)
    have hdates' : ((t.afterMerge q).rows.map BbookRow.date).Nodup := by
      rw [hmerge, List.map_map]
      exact hdates
    have hdelete : (t.afterDelete q).rows = (t.afterMerge q).rows :=
      List.filter_eq_self.mpr fun r hr => decide_eq_true (isFirst_of_nodup_key hdates' hr)
    refine ⟨t.afterDelete q, ensure_eq_some.mpr ⟨fun r hr => hsums r hr ▸ rfl, rfl⟩, ?_⟩
    rw [contents, hdelete, hmerge, List.map_map]
    refine List.map_congr_left fun r hr => ?_
    simp only [Function.comp_apply, merged, hsums r hr, Option.getD_some]

/-! ### The merge -/

/-- Merging loses nothing exactly when, date by date, the sums fit and the second statement finds the row
the first one wrote, or another one with the same sums. -/
theorem mergesDuplicates_iff_staysFirst (t : BbookTable) (p : t.Placement) :
    t.MergesDuplicates p ↔ t.StaysFirst p := by
  constructor
  · rintro ⟨t', hrun, hconserves, -⟩ f hf hfirst
    obtain ⟨hfits, rfl⟩ := ensure_eq_some.mp hrun
    refine ⟨hfits f hf, fun g hsecond => or_iff_not_imp_left.mpr fun hafter => ?_⟩
    have hsome : t.on f.date ≠ [] := List.ne_nil_of_mem (mem_on.mpr ⟨hf, rfl⟩)
    have hdate := hconserves f.date
    rw [if_neg hsome] at hdate
    obtain ⟨r, hr, hsums⟩ := hdate
    rw [on_of_after hf hfirst hsecond hafter] at hr
    obtain rfl : g = r := List.head_eq_of_cons_eq hr
    exact hsums
  · intro hstays
    have hfits : ∀ r ∈ t.rows, (t.sums r.date).isSome := by
      intro r hr
      obtain ⟨f, hf, hdate, hfirst⟩ : ∃ f ∈ t.rows, f.date = r.date ∧
        IsFirst BbookRow.date BbookRow.ctid t.rows f := exists_first hr
      rw [← hdate]
      exact (hstays f hf hfirst).1
    refine ⟨t.afterDelete p, ensure_eq_some.mpr ⟨hfits, rfl⟩, fun date => ?_, fun ready q => ?_⟩
    · split
      case isTrue hnone => exact on_afterDelete_eq_nil hnone
      case isFalse hsome =>
        obtain ⟨r, hr⟩ := List.exists_mem_of_ne_nil _ hsome
        obtain ⟨hmem, rfl⟩ := mem_on.mp hr
        obtain ⟨f, hf, hdate, hfirst⟩ : ∃ f ∈ t.rows, f.date = r.date ∧
          IsFirst BbookRow.date BbookRow.ctid t.rows f := exists_first hmem
        rw [← hdate]
        obtain ⟨hfit, hseconds⟩ := hstays f hf hfirst
        by_cases hbefore : ∀ g, IsSecond BbookRow.date BbookRow.ctid t.rows f g → p.place f.ctid < g.ctid
        · refine ⟨_, on_of_before hf hfirst hbefore, ?_⟩
          obtain ⟨c, hc⟩ := Option.isSome_iff_exists.mp hfit
          rw [merged, hc, Option.getD_some]
        · rw [not_forall] at hbefore
          obtain ⟨g, hg⟩ := hbefore
          obtain ⟨hsecond, hafter⟩ := Classical.not_imp.mp hg
          exact ⟨g, on_of_after hf hfirst hsecond hafter, (hseconds g hsecond).resolve_left hafter⟩
    · exact ensure_of_unique (nodup_key_firsts (t.afterMerge p).nodup) ready q

/-- Two rows of one date with a passed account each. -/
def twoRows : BbookTable where
  rows := [⟨1, 0, ⟨some ⟨1, by decide⟩, some ⟨0, by decide⟩, some ⟨0, by decide⟩, some ⟨0, by decide⟩⟩⟩,
    ⟨2, 0, ⟨some ⟨1, by decide⟩, some ⟨0, by decide⟩, some ⟨0, by decide⟩, some ⟨0, by decide⟩⟩⟩]
  nodup := by decide

/-- The updated row goes behind the other one, as on a page without room before it. -/
def placedBehind : twoRows.Placement where
  place ctid := ctid + 2
  inj := by decide
  fresh := by decide

/-- One of the two passed accounts is lost. -/
theorem placedBehind_loses : ¬ ∀ (t : BbookTable) (p : t.Placement), t.MergesDuplicates p := by
  intro h
  obtain ⟨t', hrun, hconserves, -⟩ := h twoRows placedBehind
  obtain ⟨-, rfl⟩ := ensure_eq_some.mp hrun
  have hdate := hconserves 0
  rw [if_neg (by decide)] at hdate
  obtain ⟨r, hr, hsums⟩ := hdate
  have hleft : (twoRows.afterDelete placedBehind).on 0 = [twoRows.rows[1]] := by decide +kernel
  rw [hleft] at hr
  obtain rfl := List.head_eq_of_cons_eq hr
  exact absurd hsums (by decide +kernel)

end BbookTable

end PropFirm
