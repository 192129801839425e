import Mathlib.Data.Set.Card
import Mathlib.Order.Filter.AtTopBot.Basic
import Mathlib.Order.Filter.Finite

/-!
# A queue served in batches from its front

Every run takes the first few jobs that wait. A job may leave when it has been in a batch, and a stuck one
never does. A job is reached as long as fewer jobs are stuck ahead of it than a batch has room for.
-/

namespace BatchQueue

open Filter

variable {J : Type*} {r : J → J → Prop} {waiting : List J} {size : ℕ} {job : J}

/-- A waiting job is in the batch, or the batch is full of jobs ahead of it. -/
theorem mem_take_or_full (hsorted : waiting.Pairwise r) (hjob : job ∈ waiting) :
    job ∈ waiting.take size ∨ (waiting.take size).length = size ∧ ∀ j ∈ waiting.take size, r j job := by
  by_cases hmem : job ∈ waiting.take size
  · exact .inl hmem
  · right
    have hdrop : job ∈ waiting.drop size := by
      rw [← List.take_append_drop size waiting, List.mem_append] at hjob
      exact hjob.resolve_left hmem
    rw [← List.take_append_drop size waiting, List.pairwise_append] at hsorted
    refine ⟨?_, fun j hj => hsorted.2.2 j hj job hdrop⟩
    rw [List.length_take, min_eq_left]
    by_contra hshort
    rw [List.drop_eq_nil_of_le (not_le.mp hshort).le] at hdrop
    cases hdrop

/-- A batch of different jobs, more than are stuck, has one that is not. -/
theorem exists_not_stuck {batch : List J} {ahead stuck : Set J} (hfinite : ahead.Finite)
    (hfew : (ahead ∩ stuck).ncard < batch.length) (hnodup : batch.Nodup) (hahead : ∀ j ∈ batch, j ∈ ahead) :
    ∃ j ∈ batch, j ∈ ahead \ stuck := by
  classical
  by_contra hnone
  push Not at hnone
  have hsubset : (batch.toFinset : Set J) ⊆ ahead ∩ stuck := by
    intro j hj
    rw [List.coe_toFinset] at hj
    have hin := hahead j hj
    exact ⟨hin, by_contra fun hstuck => hnone j hj ⟨hin, hstuck⟩⟩
  have hcard := Set.ncard_le_ncard hsubset (hfinite.inter_of_left stuck)
  rw [Set.ncard_coe_finset, List.toFinset_card_of_nodup hnodup] at hcard
  exact absurd hfew (not_lt.mpr hcard)

/-- When the jobs ahead that are not stuck leave one day, and runs with full batches keep coming, a job is
reached. -/
theorem exists_mem_batch {batch : ℕ → List J} {ahead stuck : Set J} (hfinite : ahead.Finite)
    (hfew : (ahead ∩ stuck).ncard < size)
    (hruns : ∃ᶠ k in atTop, job ∈ batch k ∨
      (batch k).Nodup ∧ (batch k).length = size ∧ ∀ j ∈ batch k, j ∈ ahead)
    (hleaves : ∀ j ∈ ahead \ stuck, ∀ᶠ k in atTop, j ∉ batch k) : ∃ k, job ∈ batch k := by
  by_contra hnever
  push Not at hnever
  have hgone : ∀ᶠ k in atTop, ∀ j ∈ ahead \ stuck, j ∉ batch k :=
    (eventually_all_finite (hfinite.sdiff)).mpr hleaves
  obtain ⟨k, hrun, hnone⟩ := (hruns.and_eventually hgone).exists
  obtain ⟨hnodup, hlength, hahead⟩ := hrun.resolve_left (hnever k)
  obtain ⟨j, hj, hfree⟩ := exists_not_stuck hfinite (hlength ▸ hfew) hnodup hahead
  exact hnone j hfree hj

end BatchQueue
