import Mathlib.Data.List.Sort
import Mathlib.Order.Basic

/-!
# Rollups of a log

A log is rolled up by the groups of its entries: a store has under each group what an aggregate makes of the
group's entries. A rebuild reads some of the entries and overwrites the groups it has read, so that a group
is right after it when the rebuild has read the whole group, or none of it and it was right before.
-/

namespace Rollup

variable {E K C : Type*}

section Extremes

variable (r : E → E → Prop) [DecidableRel r]

/-- The entry that comes first, and among equals the one recorded first. -/
def first (entries : List E) : Option E := (entries.insertionSort r).head?

variable {r} {entries : List E} {e : E}

theorem first_spec [Std.Total r] [IsTrans E r] (hfirst : first r entries = some e) :
    e ∈ entries ∧ ∀ x ∈ entries, r e x := by
  have hsorted := List.pairwise_insertionSort r entries
  obtain ⟨tail, htail⟩ := List.head?_eq_some_iff.mp hfirst
  have hmem (x : E) : x ∈ entries ↔ x ∈ e :: tail := by
    rw [← htail, List.mem_insertionSort]
  rw [htail, List.pairwise_cons] at hsorted
  refine ⟨(hmem e).mpr List.mem_cons_self, fun x hx => ?_⟩
  rcases List.mem_cons.mp ((hmem x).mp hx) with rfl | hx
  · exact (Std.Total.total (r := r) x x).elim id id
  · exact hsorted.1 x hx

theorem first_eq_none : first r entries = none ↔ entries = [] := by
  rw [first, List.head?_eq_none_iff, ← List.length_eq_zero_iff, List.length_insertionSort,
    List.length_eq_zero_iff]

end Extremes

variable [DecidableEq K] (group : E → K) (aggregate : List E → Option C)

/-- The entries of a group, in the order of the log. -/
def entriesOf (log : List E) (k : K) : List E := log.filter fun e => group e = k

/-- Overwrite the groups that are read. -/
def rebuild (read : List E) (store : K → Option C) (k : K) : Option C :=
  (aggregate (entriesOf group read k)).or (store k)

/-- A group that has entries is stored as their aggregate. -/
def RightAt (log : List E) (store : K → Option C) (k : K) : Prop :=
  entriesOf group log k ≠ [] → store k = aggregate (entriesOf group log k)

variable {group aggregate} {log read later : List E} {store store' : K → Option C} {k : K}

theorem entriesOf_append_of_forall_ne (hother : ∀ e ∈ later, group e ≠ k) :
    entriesOf group (log ++ later) k = entriesOf group log k := by
  have hnone : entriesOf group later k = [] :=
    List.filter_eq_nil_iff.mpr fun e he => by simpa using hother e he
  rw [entriesOf, List.filter_append]
  exact (congrArg _ hnone).trans (List.append_nil _)

theorem RightAt.append (hright : RightAt group aggregate log store k) (hother : ∀ e ∈ later, group e ≠ k) :
    RightAt group aggregate (log ++ later) store k := by
  rw [RightAt, entriesOf_append_of_forall_ne hother]
  exact hright

theorem RightAt.keep (hright : RightAt group aggregate log store k) (hstore : store' k = store k) :
    RightAt group aggregate log store' k :=
  fun hentries => hstore.trans (hright hentries)

theorem rebuild_of_none (hempty : aggregate [] = none) (hnone : entriesOf group read k = []) :
    rebuild group aggregate read store k = store k := by
  rw [rebuild, hnone, hempty, Option.none_or]

theorem rightAt_rebuild (hsome : ∀ entries : List E, entries ≠ [] → (aggregate entries).isSome)
    (hwhole : entriesOf group read k = entriesOf group log k) :
    RightAt group aggregate log (rebuild group aggregate read store) k := by
  intro hentries
  obtain ⟨c, hc⟩ := Option.isSome_iff_exists.mp (hsome _ hentries)
  rw [rebuild, hwhole, hc, Option.some_or]

end Rollup
