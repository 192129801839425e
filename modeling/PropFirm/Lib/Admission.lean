import Mathlib.Data.Int.Order.Basic
import PropFirm.Lib.Table

/-!
# Counting in and joining later

A gate counts the members of a group, lets a caller in while there are fewer than a limit, and the caller
joins some time later. In between he holds a ticket that no count sees. The limit is kept as long as the
gate counts only while nobody holds a ticket of the group, and an exclusive lock that every holder of a
ticket of the group has is one way to make sure of that.

Members and callers are the rows of two tables where a program keeps them so.
-/

namespace Admission

variable {T K : Type*}

/-- No two callers hold one lock. -/
def Exclusive (held : T → K → Prop) : Prop := ∀ t u k, held t k → held u k → t = u

/-- A limit on the members, and the callers who have been let in and have not joined. -/
structure Gated (limit : ℤ) (members : ℕ) (Holds : T → Prop) : Prop where
  le : (members : ℤ) ≤ limit
  below : ∀ t, Holds t → (members : ℤ) < limit
  unique : ∀ t u, Holds t → Holds u → t = u

section Locks

variable {held held' : T → K → Prop} {t : T}

theorem Exclusive.mono (hexclusive : Exclusive held) (hsub : ∀ t k, held' t k → held t k) :
    Exclusive held' :=
  fun t u k ht hu => hexclusive t u k (hsub t k ht) (hsub u k hu)

/-- Taking locks that nobody else holds. -/
theorem Exclusive.acquire (hexclusive : Exclusive held)
    (hheld : ∀ u k, held' u k → held u k ∨ u = t ∧ ∀ v, held v k → v = t) : Exclusive held' := by
  intro u v k hu hv
  rcases hheld u k hu with hu | ⟨rfl, hfree⟩
  · rcases hheld v k hv with hv | ⟨rfl, hfree⟩
    · exact hexclusive u v k hu hv
    · exact hfree u hu
  · rcases hheld v k hv with hv | ⟨rfl, _⟩
    · exact (hfree v hv).symm
    · rfl

end Locks

variable {limit : ℤ} {members members' : ℕ} {Holds Holds' : T → Prop} {r : T}

theorem Gated.of_none (hle : (members : ℤ) ≤ limit) (hnone : ∀ t, ¬ Holds t) :
    Gated limit members Holds :=
  ⟨hle, fun t ht => absurd ht (hnone t), fun t _ ht => absurd ht (hnone t)⟩

/-- Members and callers may leave. -/
theorem Gated.mono (hgated : Gated limit members Holds) (hle : members' ≤ members)
    (hsub : ∀ t, Holds' t → Holds t) : Gated limit members' Holds' where
  le := by have := hgated.le; omega
  below t ht := by have := hgated.below t (hsub t ht); omega
  unique t u ht hu := hgated.unique t u (hsub t ht) (hsub u hu)

/-- The count was taken while nobody held a ticket. -/
theorem Gated.admit (hgated : Gated limit members Holds) (hnone : ∀ t, ¬ Holds t)
    (hlt : (members : ℤ) < limit) (hholds : ∀ t, Holds' t → Holds t ∨ t = r) :
    Gated limit members Holds' := by
  have honly : ∀ t, Holds' t → t = r := fun t ht => (hholds t ht).resolve_left (hnone t)
  exact ⟨hgated.le, fun _ _ => hlt, fun t u ht hu => (honly t ht).trans (honly u hu).symm⟩

/-- Who joins leaves no ticket behind. -/
theorem Gated.join (hgated : Gated limit members Holds) (hr : Holds r) (hle : members' ≤ members + 1)
    (hsub : ∀ t, Holds' t → Holds t ∧ t ≠ r) : Gated limit members' Holds' := by
  refine .of_none ?_ fun t ht => ?_
  · have := hgated.below r hr
    omega
  · obtain ⟨hheld, hne⟩ := hsub t ht
    exact hne (hgated.unique t r hheld hr)

/-! ### Locks and gates over tables -/

section Tables

variable {C M κ μ L : Type*} [Keyed C κ] [DecidableEq κ] [Keyed M μ]

/-- No two callers hold one lock. -/
def Locked (held : C → List L) (callers : Table C) : Prop :=
  Exclusive fun k lock => callers.HasAt (fun c => lock ∈ held c) k

/-- The members that count stay within a limit, and so do they with a caller who has a ticket. -/
def Keeps (counts : M → Bool) (ticket : C → Prop) (limit : ℤ) (members : Table M) (callers : Table C) :
    Prop :=
  Gated limit (members.rows.countP counts) (callers.HasAt ticket)

variable {held : C → List L} {counts : M → Bool} {ticket : C → Prop} {limit : ℤ} {members members' : Table M}
  {callers callers' : Table C} {c : C} {m : M} {k : κ}

theorem Locked.of_empty (hempty : callers.rows = []) : Locked held callers :=
  fun _ _ _ hheld => absurd hheld (Table.not_hasAt_of_rows_eq_nil hempty)

theorem Locked.erase (hlocked : Locked held callers) (k : κ) : Locked held (callers.erase k) :=
  hlocked.mono fun _ _ h => (Table.hasAt_erase.mp h).2

theorem Locked.insert (hlocked : Locked held callers) (hinsert : callers.insert? c = some callers')
    (hnone : held c = []) : Locked held callers' := by
  refine hlocked.mono fun j lock hheld => ?_
  rcases (Table.hasAt_of_insert? hinsert).mp hheld with ⟨_, hnew⟩ | ⟨_, hold⟩
  · rw [hnone] at hnew
    exact absurd hnew List.not_mem_nil
  · exact hold

/-- A caller may take a lock that no other has. -/
theorem Locked.update {f : Table.Rewrite C} (hlocked : Locked held callers) (hrow : callers.find? k = some c)
    (hfree : ∀ lock ∈ held (f.apply c), lock ∈ held c ∨
      ∀ j, callers.HasAt (fun c => lock ∈ held c) j → j = k) : Locked held (callers.updateAt k f) := by
  refine Exclusive.acquire (t := k) hlocked fun j lock hheld => ?_
  rcases (Table.hasAt_updateAt hrow).mp hheld with ⟨rfl, hlock⟩ | ⟨_, hold⟩
  · rcases hfree lock hlock with hold | hfree
    · exact .inl ⟨c, hrow, hold⟩
    · exact .inr ⟨rfl, hfree⟩
  · exact .inl hold

/-- Two callers with one lock are one. -/
theorem Locked.eq (hlocked : Locked held callers) (hrow : callers.find? k = some c) {lock : L}
    (hlock : lock ∈ held c) {c' : C} {k' : κ} (hrow' : callers.find? k' = some c') (hlock' : lock ∈ held c') :
    c' = c := by
  obtain rfl := hlocked k k' lock ⟨c, hrow, hlock⟩ ⟨c', hrow', hlock'⟩
  exact Option.some.inj (hrow'.symm.trans hrow)

theorem Keeps.of_empty (hempty : callers.rows = []) (hle : (members.rows.countP counts : ℤ) ≤ limit) :
    Keeps counts ticket limit members callers :=
  .of_none hle fun _ => Table.not_hasAt_of_rows_eq_nil hempty

variable (hkeeps : Keeps counts ticket limit members callers)
include hkeeps

theorem Keeps.erase (k : κ) : Keeps counts ticket limit members (callers.erase k) :=
  hkeeps.mono (Nat.le_refl _) fun _ h => (Table.hasAt_erase.mp h).2

theorem Keeps.insert_caller (hinsert : callers.insert? c = some callers') (hnone : ¬ ticket c) :
    Keeps counts ticket limit members callers' := by
  refine hkeeps.mono (Nat.le_refl _) fun j hticket => ?_
  rcases (Table.hasAt_of_insert? hinsert).mp hticket with ⟨_, hnew⟩ | ⟨_, hold⟩
  · exact absurd hnew hnone
  · exact hold

/-- A caller gets a ticket only when there is room and nobody else has one. -/
theorem Keeps.update_caller {f : Table.Rewrite C} (hrow : callers.find? k = some c)
    (hgrant : ticket (f.apply c) → ticket c ∨
      (∀ j, ¬ callers.HasAt ticket j) ∧ (members.rows.countP counts : ℤ) < limit) :
    Keeps counts ticket limit members (callers.updateAt k f) := by
  by_cases hticket : ticket (f.apply c)
  · rcases hgrant hticket with hhad | ⟨hnone, hlt⟩
    · refine hkeeps.mono (Nat.le_refl _) fun j hj => ?_
      rcases (Table.hasAt_updateAt hrow).mp hj with ⟨rfl, _⟩ | ⟨_, hold⟩
      · exact ⟨c, hrow, hhad⟩
      · exact hold
    · refine Gated.admit (r := k) hkeeps hnone hlt fun j hj => ?_
      exact ((Table.hasAt_updateAt hrow).mp hj).symm.imp And.right And.left
  · refine hkeeps.mono (Nat.le_refl _) fun j hj => ?_
    rcases (Table.hasAt_updateAt hrow).mp hj with ⟨_, hnew⟩ | ⟨_, hold⟩
    · exact absurd hnew hticket
    · exact hold

/-- A member that counts comes from a caller with a ticket, who leaves. -/
theorem Keeps.join [DecidableEq μ] (hrow : callers.find? k = some c) (hinsert : members.insert? m = some members')
    (hticket : counts m → ticket c) : Keeps counts ticket limit members' (callers.erase k) := by
  have hrows := (Table.insert?_eq_some hinsert).2
  by_cases hcounts : counts m
  · refine Gated.join (r := k) hkeeps ⟨c, hrow, hticket hcounts⟩ ?_ fun j hj => ?_
    · exact Nat.le_of_eq (by rw [hrows, List.countP_cons_of_pos hcounts])
    · exact (Table.hasAt_erase.mp hj).symm
  · refine (hkeeps.erase k).mono (Nat.le_of_eq ?_) fun _ => id
    rw [hrows, List.countP_cons_of_neg hcounts]

/-- Or who goes on without it. -/
theorem Keeps.join_update [DecidableEq μ] {f : Table.Rewrite C} (hrow : callers.find? k = some c)
    (hinsert : members.insert? m = some members') (hticket : counts m → ticket c)
    (hleaves : ¬ ticket (f.apply c)) : Keeps counts ticket limit members' (callers.updateAt k f) := by
  refine (hkeeps.join hrow hinsert hticket).mono (Nat.le_refl _) fun j hj => ?_
  rcases (Table.hasAt_updateAt hrow).mp hj with ⟨_, hnew⟩ | hold
  · exact absurd hnew hleaves
  · exact Table.hasAt_erase.mpr hold

theorem Keeps.insert_member [DecidableEq μ] (hinsert : members.insert? m = some members') (hcounts : counts m = false) :
    Keeps counts ticket limit members' callers := by
  refine hkeeps.mono (Nat.le_of_eq ?_) fun _ => id
  rw [(Table.insert?_eq_some hinsert).2, List.countP_cons_of_neg (Bool.eq_false_iff.mp hcounts)]

theorem Keeps.update_members {p : M → Bool} {f : Table.Rewrite M}
    (hcounts : ∀ m ∈ members.rows, p m → counts (f.apply m) → counts m) :
    Keeps counts ticket limit (members.update p f) callers := by
  refine hkeeps.mono ?_ fun _ => id
  rw [Table.rows_update, List.countP_map]
  refine List.countP_mono_left fun m hm hnew => ?_
  rw [Function.comp_apply] at hnew
  split at hnew
  · exact hcounts m hm ‹_› hnew
  · exact hnew

end Tables

end Admission
