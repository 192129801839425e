import Mathlib.Init

/-!
# Closed loops

A decider is asked over and over, each time in a situation that may depend on everything decided so
far. Two deciders that agree in every situation they can be put in stay together through the whole
loop, since what they have decided is all that could drive their situations apart.
-/

namespace ClosedLoop

variable {μ δ : Type*} (world : List δ → μ)

/-- The first `n` decisions, the latest one first. -/
def decisions (decide : μ → δ) : Nat → List δ
  | 0 => []
  | n + 1 => decide (world (decisions decide n)) :: decisions decide n

variable {world}

/-- One more turn keeps two deciders together that agree in the situation it puts them in. -/
theorem decisions_succ_congr {f g : μ → δ} {n : Nat} (hsame : decisions world f n = decisions world g n)
    (hagree : f (world (decisions world f n)) = g (world (decisions world f n))) :
    decisions world f (n + 1) = decisions world g (n + 1) := by
  rw [decisions, decisions, hagree, hsame]

theorem decisions_congr {f g : μ → δ} (hagree : ∀ seen, f (world seen) = g (world seen)) (n : Nat) :
    decisions world f n = decisions world g n := by
  induction n with
  | zero => rfl
  | succ n ih => exact decisions_succ_congr ih (hagree _)

/-- No loop whose situations are all of the given kind tells the two deciders apart. -/
def Indistinguishable (kind : μ → Prop) (f g : μ → δ) : Prop :=
  ∀ world : List δ → μ, (∀ seen, kind (world seen)) → ∀ n, decisions world f n = decisions world g n

theorem indistinguishable_iff {kind : μ → Prop} {f g : μ → δ} :
    Indistinguishable kind f g ↔ ∀ m, kind m → f m = g m := by
  constructor
  · intro hsame m hm
    have hfirst : [f m] = [g m] := hsame (fun _ => m) (fun _ => hm) 1
    exact List.singleton_inj.mp hfirst
  · intro hagree world hkind
    exact decisions_congr fun seen => hagree _ (hkind seen)

end ClosedLoop
