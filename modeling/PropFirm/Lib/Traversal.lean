import Mathlib.Data.List.Forall2
import Mathlib.Data.Option.Basic
import Mathlib.Algebra.BigOperators.Group.List.Basic

/-!
# Traversals that may fail

`List.mapM` into `Option` succeeds exactly when every element does, and its result is the list of the
elements' results.
-/

namespace List

variable {α β γ : Type*}

theorem mapM_eq_some_iff {f : α → Option β} {as : List α} {bs : List β} :
    as.mapM f = some bs ↔ List.Forall₂ (fun a b => f a = some b) as bs := by
  induction as generalizing bs with
  | nil => simp [eq_comm]
  | cons a as ih =>
    simp only [List.mapM_cons, Option.bind_eq_bind, Option.bind_eq_some_iff, Option.pure_def,
      Option.some.injEq, List.forall₂_cons_left_iff, ih]
    constructor
    · rintro ⟨b, hb, bs, hbs, rfl⟩
      exact ⟨b, bs, hb, hbs, rfl⟩
    · rintro ⟨b, bs, hb, hbs, rfl⟩
      exact ⟨b, hb, bs, hbs, rfl⟩

/-- A traversal that keeps a component keeps the list of components. -/
theorem map_eq_of_mapM_eq_some {f : α → Option β} {as : List α} {bs : List β} {g : α → γ} {h : β → γ}
    (hmap : as.mapM f = some bs) (hkeep : ∀ a b, f a = some b → h b = g a) : bs.map h = as.map g := by
  rw [mapM_eq_some_iff] at hmap
  induction hmap with
  | nil => rfl
  | cons hab _ ih => rw [map_cons, map_cons, hkeep _ _ hab, ih]

theorem exists_of_mem_mapM {f : α → Option β} {as : List α} {bs : List β} {b : β}
    (hmap : as.mapM f = some bs) (hb : b ∈ bs) : ∃ a ∈ as, f a = some b := by
  rw [mapM_eq_some_iff] at hmap
  induction hmap with
  | nil => cases hb
  | cons hab _ ih =>
    rcases mem_cons.mp hb with rfl | hb
    · exact ⟨_, mem_cons_self, hab⟩
    · obtain ⟨a, ha, hf⟩ := ih hb
      exact ⟨a, mem_cons_of_mem _ ha, hf⟩

theorem map_filterMap_sublist {f : α → Option β} {h : β → α} (as : List α)
    (hkeep : ∀ a b, f a = some b → h b = a) : ((as.filterMap f).map h).Sublist as := by
  induction as with
  | nil => exact Sublist.slnil
  | cons a as ih =>
    cases hf : f a with
    | none => simpa [filterMap_cons, hf] using ih.cons a
    | some b => simpa [filterMap_cons, hf, hkeep a b hf] using ih

theorem isSome_mapM {f : α → Option β} {as : List α} :
    (as.mapM f).isSome ↔ ∀ a ∈ as, (f a).isSome := by
  induction as with
  | nil => simp
  | cons a as ih =>
    rw [forall_mem_cons, ← ih, mapM_cons]
    cases f a <;> cases as.mapM f <;> simp

theorem sum_filterMap [AddMonoid β] (f : α → Option β) (as : List α) :
    (as.filterMap f).sum = (as.map fun a => (f a).getD 0).sum := by
  induction as with
  | nil => rfl
  | cons a as ih => cases hf : f a <;> simp [hf, ih]

end List
