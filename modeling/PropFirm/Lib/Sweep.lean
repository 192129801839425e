import Mathlib.Data.List.Basic

/-!
# Sweeps with a done mark

A sweep gives every item of a job its turn. A turn may count an error and may skip its item; a sweep that
counts no error may be marked done. `Accounted` is what the turns keep: as long as nothing was counted,
every item the sweep covers is still to come, has been skipped or is done. So a mark says that all is done
exactly as far as what it does not count is not skipped.
-/

structure Sweep (ι : Type*) where
  covered : List ι
  todo : List ι
  skipped : List ι
  errors : Nat

namespace Sweep

variable {ι : Type*} {s : Sweep ι} {done : ι → Prop}

def start (items : List ι) : Sweep ι := ⟨items, items, [], 0⟩

/-- The next item has had its turn. -/
def turn (s : Sweep ι) (counted skips : Bool) : Sweep ι :=
  match s.todo with
  | [] => s
  | i :: rest =>
    { s with
      todo := rest
      skipped := if skips then i :: s.skipped else s.skipped
      errors := if counted then s.errors + 1 else s.errors }

/-- An error that belongs to no item. -/
def count (s : Sweep ι) : Sweep ι := { s with errors := s.errors + 1 }

@[simp] theorem covered_turn (s : Sweep ι) (counted skips : Bool) :
    (s.turn counted skips).covered = s.covered := by
  unfold turn
  split <;> rfl

theorem todo_turn_subset (s : Sweep ι) (counted skips : Bool) : (s.turn counted skips).todo ⊆ s.todo := by
  unfold turn
  split
  case h_1 => exact List.Subset.refl _
  case h_2 i rest htodo => exact htodo ▸ List.subset_cons_self i rest

def Accounted (done : ι → Prop) (s : Sweep ι) : Prop :=
  s.errors = 0 → ∀ i ∈ s.covered, i ∈ s.todo ∨ i ∈ s.skipped ∨ done i

theorem start_accounted (items : List ι) : (start items).Accounted done := fun _ _ hi => .inl hi

theorem count_accounted (s : Sweep ι) : s.count.Accounted done := fun h => absurd h (Nat.succ_ne_zero _)

theorem Accounted.mono {done' : ι → Prop} (h : s.Accounted done) (hdone : ∀ i ∈ s.covered, done i → done' i) :
    s.Accounted done' :=
  fun hclean i hi => (h hclean i hi).imp_right fun hi' => hi'.imp_right (hdone i hi)

/-- A turn that neither counts nor skips has to leave its item done. -/
theorem Accounted.turn (h : s.Accounted done) {counted skips : Bool}
    (hitem : ∀ i ∈ s.todo.head?, counted = true ∨ skips = true ∨ done i) :
    (s.turn counted skips).Accounted done := by
  unfold Sweep.turn
  split
  case h_1 => exact h
  case h_2 i rest htodo =>
    intro hclean j hj
    have hcounted : counted = false := by
      rw [Bool.eq_false_iff]
      intro hcounted
      simp only [hcounted, if_true] at hclean
      exact absurd hclean (Nat.succ_ne_zero _)
    have herrors : s.errors = 0 := by simpa [hcounted] using hclean
    have hkept : ∀ {k : ι}, k ∈ s.skipped → k ∈ if skips then i :: s.skipped else s.skipped := by
      intro k hk
      split
      · exact List.mem_cons_of_mem i hk
      · exact hk
    rcases h herrors j hj with hcoming | hskipped | hdone
    · rw [htodo] at hcoming
      rcases List.mem_cons.mp hcoming with rfl | hrest
      · rcases hitem j (by rw [htodo]; rfl) with hc | hs | hd
        · exact absurd hc (Bool.eq_false_iff.mp hcounted)
        · refine .inr (.inl ?_)
          change j ∈ if skips then j :: s.skipped else s.skipped
          rw [if_pos hs]
          exact List.mem_cons_self
        · exact .inr (.inr hd)
      · exact .inl hrest
    · exact .inr (.inl (hkept hskipped))
    · exact .inr (.inr hdone)

/-- Turns that count whatever they skip leave nothing skipped where nothing is counted. -/
theorem turn_swept (h : s.errors = 0 → s.skipped = []) {counted skips : Bool}
    (hturn : skips = true → counted = true) :
    (s.turn counted skips).errors = 0 → (s.turn counted skips).skipped = [] := by
  unfold turn
  split
  case h_1 => exact h
  case h_2 =>
    cases counted with
    | true => exact fun hclean => absurd hclean (Nat.succ_ne_zero _)
    | false =>
      cases skips with
      | true => exact absurd (hturn rfl) Bool.false_ne_true
      | false => exact h

/-- A sweep that has ended clean without skipping has done all it covers. -/
theorem Accounted.all_done (h : s.Accounted done) (htodo : s.todo = []) (hclean : s.errors = 0)
    (hskipped : s.skipped = []) : ∀ i ∈ s.covered, done i := by
  intro i hi
  rcases h hclean i hi with hcoming | hs | hdone
  · rw [htodo] at hcoming
    exact absurd hcoming List.not_mem_nil
  · rw [hskipped] at hs
    exact absurd hs List.not_mem_nil
  · exact hdone

end Sweep
