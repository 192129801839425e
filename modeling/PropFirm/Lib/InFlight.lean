import Mathlib.Data.List.Perm.Basic

/-!
# Requests in flight

What is under way at once is a list, out of which a step takes one by its place. In what order the others
stand does not matter.
-/

namespace InFlight

variable {α β : Type*} {l : List α} {a b : α} {i : Nat}

theorem perm (hget : l[i]? = some a) : (a :: l.eraseIdx i).Perm l := by
  obtain ⟨hi, rfl⟩ := List.getElem?_eq_some_iff.mp hget
  exact List.getElem_cons_eraseIdx_perm hi

theorem mem_iff (hget : l[i]? = some a) : b ∈ l ↔ b = a ∨ b ∈ l.eraseIdx i := by
  rw [← List.mem_cons]
  exact (perm hget).mem_iff.symm

theorem countP_eq (hget : l[i]? = some a) (p : α → Bool) :
    l.countP p = (l.eraseIdx i).countP p + if p a = true then 1 else 0 := by
  rw [← List.countP_cons]
  exact ((perm hget).countP_eq p).symm

/-- Where no two share a key, the others have other keys. -/
theorem key_ne {key : α → β} (hnodup : (l.map key).Nodup) (hget : l[i]? = some a) (hb : b ∈ l.eraseIdx i) :
    key b ≠ key a := by
  have hcons := ((perm hget).map key).nodup_iff.mpr hnodup
  rw [List.map_cons, List.nodup_cons] at hcons
  intro heq
  apply hcons.1
  rw [← heq]
  exact List.mem_map_of_mem hb

end InFlight
