import Mathlib.Data.Set.Lattice
import Mathlib.Order.CompletePartialOrder

/-!
# Taking what is still free

Items are looked at one after the other, and one is taken unless it has a member that is taken already. What
comes out is a selection of items with no member in common that cannot be made larger: every item that is
left out has a member in one that is in, or had one taken from the start.
-/

namespace DisjointPicks

variable {ι α : Type*} {members : ι → Set α} {taken : Set α} {items picked : List ι}

inductive Picks (members : ι → Set α) : Set α → List ι → List ι → Prop
  | nil (taken : Set α) : Picks members taken [] []
  | skip {taken : Set α} {i : ι} {items picked : List ι} (hmeets : (members i ∩ taken).Nonempty)
      (hrest : Picks members taken items picked) : Picks members taken (i :: items) picked
  | take {taken : Set α} {i : ι} {items picked : List ι} (hfree : Disjoint (members i) taken)
      (hrest : Picks members (taken ∪ members i) items picked) : Picks members taken (i :: items) (i :: picked)

namespace Picks

theorem sublist (hpicks : Picks members taken items picked) : picked.Sublist items := by
  induction hpicks with
  | nil => exact List.Sublist.slnil
  | skip _ _ ih => exact ih.cons _
  | take _ _ ih => exact ih.cons_cons _

theorem disjoint_taken (hpicks : Picks members taken items picked) : ∀ i ∈ picked, Disjoint (members i) taken := by
  induction hpicks with
  | nil => simp
  | skip _ _ ih => exact ih
  | take hfree _ ih =>
    intro i hi
    rcases List.mem_cons.mp hi with rfl | hi
    · exact hfree
    · exact (ih i hi).mono_right Set.subset_union_left

theorem pairwise_disjoint (hpicks : Picks members taken items picked) :
    picked.Pairwise fun i j => Disjoint (members i) (members j) := by
  induction hpicks with
  | nil => exact List.Pairwise.nil
  | skip _ _ ih => exact ih
  | take _ hrest ih =>
    refine List.pairwise_cons.mpr ⟨fun j hj => ?_, ih⟩
    exact ((hrest.disjoint_taken j hj).mono_right Set.subset_union_right).symm

/-- No item can be added. -/
theorem maximal (hpicks : Picks members taken items picked) (hsome : ∀ i ∈ items, (members i).Nonempty) :
    ∀ i ∈ items, ∃ a ∈ members i, a ∈ taken ∨ ∃ j ∈ picked, a ∈ members j := by
  induction hpicks with
  | nil => simp
  | skip hmeets _ ih =>
    intro i hi
    rcases List.mem_cons.mp hi with rfl | hi
    · obtain ⟨a, ha, htaken⟩ := hmeets
      exact ⟨a, ha, .inl htaken⟩
    · exact ih (fun j hj => hsome j (List.mem_cons_of_mem _ hj)) i hi
  | take _ _ ih =>
    intro i hi
    rcases List.mem_cons.mp hi with rfl | hi
    · obtain ⟨a, ha⟩ := hsome i List.mem_cons_self
      exact ⟨a, ha, .inr ⟨i, List.mem_cons_self, ha⟩⟩
    · obtain ⟨a, ha, htaken | ⟨j, hj, haj⟩⟩ := ih (fun j hj => hsome j (List.mem_cons_of_mem _ hj)) i hi
      · rcases htaken with htaken | hfirst
        · exact ⟨a, ha, .inl htaken⟩
        · exact ⟨a, ha, .inr ⟨_, List.mem_cons_self, hfirst⟩⟩
      · exact ⟨a, ha, .inr ⟨j, List.mem_cons_of_mem _ hj, haj⟩⟩

end Picks

end DisjointPicks
