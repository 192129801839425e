import Mathlib.Logic.Basic

/-!
# Guards that throw

A request handler is a sequence of guards, each of which throws, before the part that acts. What a
success says about the guards is read off one at a time, in the order they are written in.
-/

universe u

namespace Except

variable {ε α β : Type u}

section Guard

variable {p : Prop} [Decidable p] {e : ε} {f : β → Except ε α} {k : Except ε α} {b : α}

/-- A guard of a `do` block lets its continuation through. -/
theorem ite_throw_bind_eq_ok :
    (if p then throw e >>= f else k) = .ok b ↔ ¬ p ∧ k = .ok b := by
  by_cases hp : p
  · rw [if_pos hp]
    exact iff_of_false nofun fun h => h.1 hp
  · rw [if_neg hp]
    exact (and_iff_right hp).symm

/-- The last guard of a `do` block. -/
theorem ite_throw_eq_ok : (if p then throw e else k) = .ok b ↔ ¬ p ∧ k = .ok b :=
  ite_throw_bind_eq_ok (f := pure)

end Guard

theorem bind_eq_ok {x : Except ε α} {f : α → Except ε β} {b : β} :
    x >>= f = .ok b ↔ ∃ a, x = .ok a ∧ f a = .ok b := by
  cases x with
  | error e => exact iff_of_false nofun nofun
  | ok a => exact ⟨fun h => ⟨a, rfl, h⟩, fun ⟨_, ha, h⟩ => by cases ha; exact h⟩

theorem toOption_eq_some {x : Except ε α} {a : α} : x.toOption = some a ↔ x = .ok a := by
  cases x with
  | error e => exact iff_of_false nofun nofun
  | ok b => simp [Except.toOption]

/-- A success that passes a test, from the test on its value. -/
theorem exists_of_toOption_any {x : Except ε α} {p : α → Bool} (htest : x.toOption.any p = true) :
    ∃ a, x = .ok a ∧ p a = true := by
  obtain ⟨a, ha, hp⟩ := (Option.any_eq_true _ _).mp htest
  exact ⟨a, toOption_eq_some.mp ha, hp⟩

end Except
