import Mathlib.Data.List.Basic
import Mathlib.Logic.Relation

/-!
# Recursive queries

`WITH RECURSIVE .. UNION ALL` starts with some rows and goes on with the rows that the last ones lead to,
until there are none. It returns the rows that can be reached from the first ones, and it returns if every
step goes down.
-/

namespace RecursiveQuery

open Relation

variable {α : Type*} {step : α → List α} {fuel : ℕ} {work out : List α}

/-- All rows, round by round; none if the fuel does not last. -/
def recursive (step : α → List α) : ℕ → List α → Option (List α)
  | _, [] => some []
  | 0, _ :: _ => none
  | fuel + 1, a :: work => (recursive step fuel ((a :: work).flatMap step)).map (a :: work ++ ·)

theorem mem_recursive_iff (hout : recursive step fuel work = some out) {b : α} :
    b ∈ out ↔ ∃ a ∈ work, ReflTransGen (fun x y => y ∈ step x) a b := by
  induction fuel generalizing work out with
  | zero =>
    cases work with
    | nil =>
      obtain rfl := Option.some.inj hout
      simp
    | cons a work => cases hout
  | succ fuel ih =>
    cases work with
    | nil =>
      obtain rfl := Option.some.inj hout
      simp
    | cons a work =>
      obtain ⟨rest, hrest, rfl⟩ := Option.map_eq_some_iff.mp hout
      rw [List.mem_append, ih hrest]
      constructor
      · rintro (hb | ⟨c, hc, hreach⟩)
        · exact ⟨b, hb, .refl⟩
        · obtain ⟨x, hx, hstep⟩ := List.mem_flatMap.mp hc
          exact ⟨x, hx, hreach.head hstep⟩
      · rintro ⟨x, hx, hreach⟩
        rcases hreach.cases_head with rfl | ⟨c, hstep, hreach⟩
        · exact .inl hx
        · exact .inr ⟨c, List.mem_flatMap.mpr ⟨x, hx, hstep⟩, hreach⟩

theorem recursive_isSome (height : α → ℕ) (p : α → Prop) (hstep : ∀ a, p a → ∀ b ∈ step a, p b ∧ height b < height a)
    (hwork : ∀ a ∈ work, p a ∧ height a < fuel) : (recursive step fuel work).isSome := by
  induction fuel generalizing work with
  | zero =>
    cases work with
    | nil => rfl
    | cons a work => exact absurd (hwork a List.mem_cons_self).2 (Nat.not_lt_zero _)
  | succ fuel ih =>
    cases work with
    | nil => rfl
    | cons a work =>
      rw [recursive, Option.isSome_map]
      refine ih fun b hb => ?_
      obtain ⟨x, hx, hb⟩ := List.mem_flatMap.mp hb
      obtain ⟨hpx, hlt⟩ := hwork x hx
      obtain ⟨hpb, hlower⟩ := hstep x hpx b hb
      exact ⟨hpb, by omega⟩

end RecursiveQuery
