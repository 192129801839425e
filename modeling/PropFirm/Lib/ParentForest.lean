import Mathlib.Data.Finset.Card
import Mathlib.Logic.Function.Iterate

/-!
# Forests of parent pointers

A parent function in which every chain of parents ends: at a root, which is its own parent. Pointing a node
straight at the root of its chain changes no root, and pointing a root at another one moves its whole tree.
-/

namespace ParentForest

variable {α : Type*} {p : α → α}

/-- `n` steps lead from a node to its root. -/
inductive Climb (p : α → α) : ℕ → α → α → Prop
  | root {r : α} (hroot : p r = r) : Climb p 0 r r
  | step {n : ℕ} {x r : α} (hne : p x ≠ x) (hrest : Climb p n (p x) r) : Climb p (n + 1) x r

namespace Climb

variable {n m : ℕ} {x y r s : α}

theorem root_fixed (hx : Climb p n x r) : p r = r := by
  induction hx with
  | root hroot => exact hroot
  | step _ _ ih => exact ih

theorem unique (hx : Climb p n x r) (hx' : Climb p m x s) : n = m ∧ r = s := by
  induction hx generalizing m with
  | root hroot =>
    cases hx' with
    | root => exact ⟨rfl, rfl⟩
    | step hne => exact absurd hroot hne
  | step hne hrest ih =>
    cases hx' with
    | root hroot => exact absurd hroot hne
    | step hne' hrest' =>
      obtain ⟨rfl, rfl⟩ := ih hrest'
      exact ⟨rfl, rfl⟩

/-- What is closer to its root is another node. -/
theorem ne_of_lt (hx : Climb p n x r) (hy : Climb p m y s) (hlt : m < n) : y ≠ x := by
  rintro rfl
  exact hlt.ne (hy.unique hx).1

theorem iterate (hx : Climb p n x r) {i : ℕ} (hi : i ≤ n) : Climb p (n - i) (p^[i] x) r := by
  induction i with
  | zero => exact hx
  | succ i ih =>
    obtain ⟨k, hk⟩ : ∃ k, n - i = k + 1 := ⟨n - i - 1, by omega⟩
    have hprev := ih (by omega)
    rw [hk] at hprev
    rw [Function.iterate_succ_apply', show n - (i + 1) = k by omega]
    cases hprev with
    | step hne hrest => exact hrest

/-- A node that does not point at its root is two steps away from it at least. -/
theorem exists_step (hx : Climb p n x r) (hne : p x ≠ r) : ∃ k, n = k + 1 ∧ 0 < k ∧ p x ≠ x ∧ Climb p k (p x) r := by
  cases hx with
  | root hroot => exact absurd hroot hne
  | @step k _ _ hparent hrest =>
    refine ⟨k, rfl, ?_, hparent, hrest⟩
    cases k with
    | zero =>
      cases hrest
      exact absurd rfl hne
    | succ k => exact Nat.succ_pos k

/-- A chain stays among the nodes, and each node is on it at most once. -/
theorem lt_length {nodes : List α} (hx : Climb p n x r) (hmem : x ∈ nodes) (hclosed : ∀ y ∈ nodes, p y ∈ nodes) :
    n < nodes.length := by
  classical
  have hall : ∀ i, p^[i] x ∈ nodes := by
    intro i
    induction i with
    | zero => exact hmem
    | succ i ih =>
      rw [Function.iterate_succ_apply']
      exact hclosed _ ih
  have hcard : (Finset.range (n + 1)).card ≤ nodes.toFinset.card := by
    refine Finset.card_le_card_of_injOn (fun i => p^[i] x) (fun i _ => ?_) fun i hi j hj hij => ?_
    · exact List.mem_toFinset.mpr (hall i)
    · have hi' : i ≤ n := Nat.lt_succ_iff.mp (Finset.mem_range.mp hi)
      have hj' : j ≤ n := Nat.lt_succ_iff.mp (Finset.mem_range.mp hj)
      have hsame := (hx.iterate hi').unique (by
        rw [show p^[i] x = p^[j] x from hij]
        exact hx.iterate hj')
      omega
  rw [Finset.card_range] at hcard
  exact hcard.trans (List.toFinset_card_le nodes)

theorem root_mem {nodes : List α} (hx : Climb p n x r) (hmem : x ∈ nodes) (hclosed : ∀ y ∈ nodes, p y ∈ nodes) :
    r ∈ nodes := by
  induction hx with
  | root => exact hmem
  | step _ _ ih => exact ih (hclosed _ hmem)

section Update

variable [DecidableEq α]

/-- A chain that does not meet a node does not care where that node points. -/
theorem update_of_lt (hx : Climb p n x r) (hy : Climb p m y s) (hlt : m < n) (v : α) :
    Climb (Function.update p x v) m y s := by
  induction hy with
  | root hroot =>
    have hne := hx.ne_of_lt (.root hroot) hlt
    refine .root ?_
    rw [Function.update_of_ne hne]
    exact hroot
  | step hparent hrest ih =>
    have hne := hx.ne_of_lt (.step hparent hrest) hlt
    have hsame := Function.update_of_ne hne v p
    refine .step ?_ ?_
    · rw [hsame]
      exact hparent
    · rw [hsame]
      exact ih (by omega)

/-- Pointing a node at its root. -/
theorem compress (hx : Climb p n x r) (hy : Climb p m y s) : ∃ k, Climb (Function.update p x r) k y s := by
  induction hy with
  | @root y hroot =>
    by_cases hyx : y = x
    · subst hyx
      obtain ⟨-, rfl⟩ := hx.unique (.root hroot)
      exact ⟨0, .root (Function.update_self ..)⟩
    · refine ⟨0, .root ?_⟩
      rw [Function.update_of_ne hyx]
      exact hroot
  | @step k y s hparent hrest ih =>
    by_cases hyx : y = x
    · subst hyx
      obtain ⟨-, rfl⟩ := hx.unique (.step hparent hrest)
      have hne : r ≠ y := by
        rintro rfl
        exact hparent hx.root_fixed
      refine ⟨1, .step ?_ ?_⟩
      · rw [Function.update_self]
        exact hne
      · rw [Function.update_self]
        refine .root ?_
        rw [Function.update_of_ne hne]
        exact hx.root_fixed
    · obtain ⟨k', hk'⟩ := ih
      refine ⟨k' + 1, .step ?_ ?_⟩
      · rw [Function.update_of_ne hyx]
        exact hparent
      · rw [Function.update_of_ne hyx]
        exact hk'

/-- Pointing a root at another root. -/
theorem attach {a b : α} (ha : p a = a) (hb : p b = b) (hne : a ≠ b) (hx : Climb p n x r) :
    ∃ k, Climb (Function.update p a b) k x (if r = a then b else r) := by
  have hbroot : Climb (Function.update p a b) 0 b b := by
    refine .root ?_
    rw [Function.update_of_ne hne.symm]
    exact hb
  induction hx with
  | @root y hroot =>
    by_cases hya : y = a
    · subst hya
      rw [if_pos rfl]
      refine ⟨1, .step ?_ ?_⟩
      · rw [Function.update_self]
        exact hne.symm
      · rw [Function.update_self]
        exact hbroot
    · rw [if_neg hya]
      refine ⟨0, .root ?_⟩
      rw [Function.update_of_ne hya]
      exact hroot
  | @step k y s hparent hrest ih =>
    have hya : y ≠ a := by
      rintro rfl
      exact hparent ha
    obtain ⟨k', hk'⟩ := ih
    refine ⟨k' + 1, .step ?_ ?_⟩
    · rw [Function.update_of_ne hya]
      exact hparent
    · rw [Function.update_of_ne hya]
      exact hk'

end Update

end Climb

end ParentForest
