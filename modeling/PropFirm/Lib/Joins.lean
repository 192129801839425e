import Mathlib.Algebra.BigOperators.Group.List.Basic
import Mathlib.Order.Lattice
import Mathlib.Tactic.Ring

/-!
# Left joins

A left join pairs every left row with each right row that matches it, and with none where there is no such
row. A sum over the join takes a right row once for each left row it matches, so that a sum over a join
whose condition does not look at the left row is the sum over the right rows, times the number of left rows.
-/

namespace Joins

variable {α β M : Type*}

def leftJoin (as : List α) (bs : List β) (on : α → β → Bool) : List (α × Option β) :=
  as.flatMap fun a =>
    match bs.filter (on a) with
    | [] => [(a, none)]
    | matched => matched.map fun b => (a, some b)

theorem leftJoin_cons (a : α) (as : List α) (bs : List β) (on : α → β → Bool) :
    leftJoin (a :: as) bs on = leftJoin [a] bs on ++ leftJoin as bs on := by
  simp [leftJoin]

/-- Every left row is kept. -/
theorem leftJoin_eq_nil {as : List α} {bs : List β} {on : α → β → Bool} :
    leftJoin as bs on = [] ↔ as = [] := by
  cases as with
  | nil => exact iff_of_true rfl rfl
  | cons a as =>
    refine iff_of_false (fun hnil => ?_) (List.cons_ne_nil a as)
    rw [leftJoin_cons, List.append_eq_nil_iff] at hnil
    have hone := hnil.1
    rw [leftJoin, List.flatMap_singleton] at hone
    split at hone
    · cases hone
    · rename_i hmatched
      exact hmatched (List.map_eq_nil_iff.mp hone)

/-- A left row comes once for each row that it matches, and once if it matches none. -/
theorem map_fst_leftJoin (as : List α) (bs : List β) (on : α → β → Bool) :
    (leftJoin as bs on).map Prod.fst = as.flatMap fun a => List.replicate (max 1 (bs.countP (on a))) a := by
  rw [leftJoin, List.map_flatMap]
  refine List.flatMap_congr fun a _ => ?_
  rw [List.countP_eq_length_filter]
  cases bs.filter (on a) with
  | nil => rfl
  | cons b matched =>
    dsimp only
    have hmatched : max 1 (b :: matched).length = (b :: matched).length :=
      Nat.max_eq_right (Nat.succ_pos matched.length)
    rw [List.map_map, hmatched]
    exact List.map_const' ..

/-- The right rows of a join, without the nulls. -/
theorem filterMap_snd_leftJoin (as : List α) (bs : List β) (on : α → β → Bool) :
    (leftJoin as bs on).filterMap Prod.snd = as.flatMap fun a => bs.filter (on a) := by
  rw [leftJoin, List.filterMap_flatMap]
  refine List.flatMap_congr fun a _ => ?_
  cases bs.filter (on a) with
  | nil => rfl
  | cons b matched =>
    dsimp only
    rw [List.filterMap_map]
    exact List.filterMap_some

variable [AddCommMonoid M] (f : β → M)

theorem sum_leftJoin (as : List α) (bs : List β) (on : α → β → Bool) :
    ((leftJoin as bs on).map fun r => r.2.elim 0 f).sum
      = (as.map fun a => ((bs.filter (on a)).map f).sum).sum := by
  induction as with
  | nil => rfl
  | cons a as ih =>
    have hone : ((leftJoin [a] bs on).map fun r => r.2.elim 0 f).sum = ((bs.filter (on a)).map f).sum := by
      rw [leftJoin, List.flatMap_singleton]
      split
      · rename_i hnone
        simp [hnone]
      · simp [Function.comp_def]
    rw [leftJoin_cons, List.map_append, List.sum_append, hone, ih, List.map_cons, List.sum_cons]

/-- A condition on the right row alone repeats the sum for every left row. -/
theorem sum_leftJoin_const (as : List α) (bs : List β) (p : β → Bool) :
    ((leftJoin as bs fun _ => p).map fun r => r.2.elim 0 f).sum
      = as.length • ((bs.filter p).map f).sum := by
  rw [sum_leftJoin, List.map_const', List.sum_replicate]

/-! ### Rows that come several times -/

section Repeats

variable {β : Type*}

/-- Every row as many times over. -/
def repeats (c : ℕ) (as : List α) : List α := as.flatMap (List.replicate c)

theorem repeats_cons (c : ℕ) (a : α) (as : List α) : repeats c (a :: as) = List.replicate c a ++ repeats c as :=
  rfl

theorem mem_repeats {c : ℕ} (hc : 0 < c) {a : α} {as : List α} : a ∈ repeats c as ↔ a ∈ as := by
  rw [repeats, List.mem_flatMap]
  constructor
  · rintro ⟨b, hb, ha⟩
    rw [(List.mem_replicate.mp ha).2]
    exact hb
  · exact fun ha => ⟨a, ha, List.mem_replicate.mpr ⟨hc.ne', rfl⟩⟩

theorem filterMap_repeats (c : ℕ) (g : α → Option β) (as : List α) :
    (repeats c as).filterMap g = repeats c (as.filterMap g) := by
  induction as with
  | nil => rfl
  | cons a as ih =>
    rw [repeats_cons, List.filterMap_append, ih]
    cases hg : g a with
    | none => rw [List.filterMap_cons_none hg, List.filterMap_replicate_of_none hg, List.nil_append]
    | some b => rw [List.filterMap_cons_some hg, List.filterMap_replicate_of_some hg, repeats_cons]

theorem filter_repeats (c : ℕ) (p : α → Bool) (as : List α) :
    (repeats c as).filter p = repeats c (as.filter p) := by
  rw [← List.filterMap_eq_filter, filterMap_repeats]

theorem countP_repeats (c : ℕ) (p : α → Bool) (as : List α) :
    (repeats c as).countP p = c * as.countP p := by
  induction as with
  | nil => rfl
  | cons a as ih =>
    rw [repeats_cons, List.countP_append, ih, List.countP_replicate, List.countP_cons]
    split
    · ring
    · ring

theorem sum_repeats (c : ℕ) (g : α → M) (as : List α) :
    ((repeats c as).map g).sum = c • (as.map g).sum := by
  induction as with
  | nil => exact (nsmul_zero c).symm
  | cons a as ih =>
    rw [repeats_cons, List.map_append, List.sum_append, ih, List.map_replicate, List.sum_replicate,
      List.map_cons, List.sum_cons, nsmul_add]

/-- The greatest element does not depend on how often it comes. -/
theorem max?_repeats [LinearOrder α] {c : ℕ} (hc : 0 < c) (as : List α) :
    (repeats c as).max? = as.max? := by
  cases hmax : as.max? with
  | none =>
    rw [List.max?_eq_none_iff.mp hmax]
    rfl
  | some a =>
    obtain ⟨hmem, hle⟩ := List.max?_eq_some_iff.mp hmax
    exact List.max?_eq_some_iff.mpr
      ⟨(mem_repeats hc).mpr hmem, fun b hb => hle b ((mem_repeats hc).mp hb)⟩

end Repeats

end Joins
