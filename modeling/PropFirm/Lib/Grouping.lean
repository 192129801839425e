import Mathlib.Algebra.BigOperators.Group.List.Basic
import Mathlib.Data.List.Nodup
import Mathlib.Logic.Function.Basic
import Mathlib.Tactic.Abel

/-!
# A map and its groupings

A map `m` from keys to values, a classification `g` of the values, and two ways of keeping the classes
beside the map: buckets, which hold the values of one class under their keys, and member lists, which
hold the keys of one class. Every update of the map has to be made in both, and what each of them owes
the map is a statement about all keys, so that the lemmas here say which updates go together.
-/

namespace Grouping

variable {K V G : Type*} [DecidableEq K]

section Buckets

variable [DecidableEq G]

/-- Put a value under a key of one bucket, or delete the key there. -/
def setIn (b : G → K → Option V) (x : G) (k : K) (v : Option V) : G → K → Option V :=
  Function.update b x (Function.update (b x) k v)

theorem setIn_apply (b : G → K → Option V) (x : G) (k : K) (v : Option V) (y : G) (l : K) :
    setIn b x k v y l = if y = x ∧ l = k then v else b y l := by
  rw [setIn, Function.update_apply]
  by_cases hy : y = x
  · subst hy
    simp only [if_true, Function.update_apply, true_and]
  · simp only [hy, if_false, false_and]

/-- Every value is in the bucket of its class and in no other one. -/
def Grouped (g : V → G) (m : K → Option V) (b : G → K → Option V) : Prop :=
  ∀ x k v, b x k = some v ↔ m k = some v ∧ g v = x

variable {g : V → G} {m : K → Option V} {b : G → K → Option V} {k : K} {v : V}

theorem Grouped.erase {old : V} (hgrouped : Grouped g m b) (hold : m k = some old) :
    Grouped g (Function.update m k none) (setIn b (g old) k none) := by
  intro x l w
  rw [setIn_apply, Function.update_apply]
  by_cases hl : l = k
  · subst hl
    by_cases hx : x = g old
    · simp [hx]
    · simp only [hx, false_and, if_false, if_true, hgrouped x l w, hold, Option.some.injEq, reduceCtorEq,
        false_and, iff_false, not_and]
      rintro rfl
      exact fun h => hx h.symm
  · simp only [hl, and_false, if_false, hgrouped x l w]

/-- A key may be overwritten in place while its class stays the same. -/
theorem Grouped.insert (hgrouped : Grouped g m b) (hsame : ∀ old ∈ m k, g old = g v) :
    Grouped g (Function.update m k (some v)) (setIn b (g v) k (some v)) := by
  intro x l w
  rw [setIn_apply, Function.update_apply]
  by_cases hl : l = k
  · subst hl
    by_cases hx : x = g v
    · simp only [hx, true_and, if_true, Option.some.injEq]
      exact ⟨fun h => ⟨h, by rw [h]⟩, fun h => h.1⟩
    · simp only [hx, false_and, if_false, if_true, Option.some.injEq]
      refine iff_of_false (fun hold => ?_) ?_
      · obtain ⟨hmem, hclass⟩ := (hgrouped x l w).mp hold
        exact hx (hclass.symm.trans (hsame w hmem))
      · rintro ⟨rfl, hclass⟩
        exact hx hclass.symm
  · simp only [hl, and_false, if_false, hgrouped x l w]

end Buckets

/-- The keys of one class, each of them once. -/
structure Members (g : V → G) (m : K → Option V) (x : G) (ids : List K) : Prop where
  nodup : ids.Nodup
  mem_iff : ∀ k, k ∈ ids ↔ ∃ v ∈ m k, g v = x

namespace Members

variable {g : V → G} {m : K → Option V} {k : K} {v : V} {x : G} {ids : List K}

theorem insert (hmem : Members g m x ids) (hclass : g v = x) :
    Members g (Function.update m k (some v)) x (ids.insert k) where
  nodup := hmem.nodup.insert
  mem_iff l := by
    rw [List.mem_insert_iff, Function.update_apply, hmem.mem_iff]
    by_cases hl : l = k
    · simp [hl, hclass]
    · simp [hl]

/-- The list of another class is not concerned. -/
theorem insert_other (hmem : Members g m x ids) (hclass : g v ≠ x) (hfresh : k ∉ ids) :
    Members g (Function.update m k (some v)) x ids where
  nodup := hmem.nodup
  mem_iff l := by
    rw [Function.update_apply]
    by_cases hl : l = k
    · simp [hl, hclass, hfresh]
    · simp [hl, hmem.mem_iff]

theorem erase (hmem : Members g m x ids) : Members g (Function.update m k none) x (ids.erase k) where
  nodup := hmem.nodup.erase k
  mem_iff l := by
    rw [hmem.nodup.mem_erase_iff, Function.update_apply, hmem.mem_iff]
    by_cases hl : l = k
    · simp [hl]
    · simp [hl]

theorem erase_other (hmem : Members g m x ids) (hfresh : k ∉ ids) :
    Members g (Function.update m k none) x ids := by
  have herase := hmem.erase (k := k)
  rwa [List.erase_of_not_mem hfresh] at herase

end Members

/-! ### Running totals over a member list -/

section Total

variable {A : Type*} [AddCommGroup A] {f : K → A} {k : K} {ids : List K}

/-- The total of a list after one key's share has been replaced. -/
theorem total_update (hnodup : ids.Nodup) (c : A) :
    (ids.map (Function.update f k c)).sum
      = (ids.map f).sum + if k ∈ ids then c - f k else 0 := by
  induction ids with
  | nil => simp
  | cons l ids ih =>
    obtain ⟨hfresh, hrest⟩ := List.nodup_cons.mp hnodup
    rw [List.map_cons, List.sum_cons, ih hrest, List.map_cons, List.sum_cons]
    by_cases hl : l = k
    · subst hl
      rw [Function.update_self, if_neg hfresh, if_pos List.mem_cons_self]
      abel
    · have hmem : k ∈ l :: ids ↔ k ∈ ids := by simp [Ne.symm hl]
      rw [Function.update_of_ne hl]
      simp only [hmem]
      abel

theorem total_insert (hnodup : ids.Nodup) :
    ((ids.insert k).map (Function.update f k 0)).sum
      = (ids.map f).sum - if k ∈ ids then f k else 0 := by
  by_cases hmem : k ∈ ids
  · rw [List.insert_of_mem hmem, total_update hnodup, if_pos hmem, if_pos hmem]
    abel
  · rw [List.insert_of_not_mem hmem, List.map_cons, List.sum_cons, total_update hnodup, if_neg hmem,
      if_neg hmem, Function.update_self]
    abel

theorem total_erase (hnodup : ids.Nodup) :
    ((ids.erase k).map (Function.update f k 0)).sum
      = (ids.map f).sum - if k ∈ ids then f k else 0 := by
  by_cases hmem : k ∈ ids
  · have herased : k ∉ ids.erase k := fun h => (hnodup.mem_erase_iff.mp h).1 rfl
    rw [total_update (hnodup.erase k), if_neg herased, if_pos hmem, ← List.sum_map_erase f hmem]
    abel
  · rw [List.erase_of_not_mem hmem, total_update hnodup, if_neg hmem, if_neg hmem]
    abel

end Total

end Grouping
