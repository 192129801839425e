import Mathlib.Order.Hom.Lattice

/-!
# Write-behind buffers

Values noted in memory reach a store later and in batches. Noting a value replaces the pending one,
a flush takes the pending value away and either commits it or puts it back beside what has been noted
since, and the store only ever rises. The store keeps values at a precision of its own, a
join-preserving map `f`, so everything is compared there.

Nothing is lost as long as a noted value is never below the pending value it replaces, unless the store
has that one already: whatever was noted before a batch was taken is in the store once the batch is.
-/

namespace WriteBehind

variable {α β : Type*}

/-- `since` and `taken` join what was noted after and before the last batch was taken, and `owed` what
was noted before the last committed batch was. -/
structure Buffer (α β : Type*) where
  stored : β
  pending : α
  inFlight : Option α
  since : α
  taken : α
  owed : α

namespace Buffer

variable [SemilatticeSup α] [SemilatticeSup β]

def note (s : Buffer α β) (value : α) : Buffer α β :=
  { s with pending := value, since := s.since ⊔ value }

def take [OrderBot α] (s : Buffer α β) : Buffer α β :=
  { s with
    pending := ⊥
    inFlight := some s.pending
    since := ⊥
    taken := s.since ⊔ s.taken }

def commit (f : SupHom α β) (s : Buffer α β) (batch : α) : Buffer α β :=
  { s with stored := s.stored ⊔ f batch, inFlight := none, owed := s.taken }

def requeue (s : Buffer α β) (batch : α) : Buffer α β :=
  { s with pending := s.pending ⊔ batch, inFlight := none }

/-- Another writer raises the store. -/
def raise (s : Buffer α β) (value : β) : Buffer α β := { s with stored := s.stored ⊔ value }

/-- What has been noted is in the store or on its way there, and what is owed is in the store. -/
structure Covered (f : SupHom α β) (s : Buffer α β) : Prop where
  taken : f s.taken ≤ s.stored ⊔ f (s.inFlight.getD s.pending)
  since : f s.since ≤ s.stored ⊔ f s.pending ⊔ f (s.inFlight.getD s.pending)
  owed : f s.owed ≤ s.stored

variable {f : SupHom α β} {s : Buffer α β} {value : α}

/-- A noted value does not lose the pending one: it is at least as high, or the store is. -/
def KeepsPending (f : SupHom α β) (s : Buffer α β) (value : α) : Prop :=
  f s.pending ≤ f value ⊔ s.stored

theorem Covered.note (hcov : s.Covered f) (hkeeps : s.KeepsPending f value) :
    (s.note value).Covered f := by
  have hpending : s.stored ⊔ f s.pending ≤ s.stored ⊔ f value :=
    sup_le le_sup_left (hkeeps.trans (sup_le le_sup_right le_sup_left))
  have hbatch : s.stored ⊔ f (s.inFlight.getD s.pending)
      ≤ s.stored ⊔ f (s.inFlight.getD value) := by
    cases s.inFlight with
    | none => exact hpending
    | some batch => exact le_rfl
  refine ⟨hcov.taken.trans hbatch, ?_, hcov.owed⟩
  rw [Buffer.note, map_sup]
  refine sup_le ?_ (le_sup_right.trans le_sup_left)
  refine hcov.since.trans (sup_le (hpending.trans le_sup_left) ?_)
  exact (le_sup_right.trans hbatch).trans (sup_le (le_sup_left.trans le_sup_left) le_sup_right)

theorem Covered.take [OrderBot α] (hcov : s.Covered f) (hidle : s.inFlight = none) :
    s.take.Covered f := by
  have htaken := hcov.taken
  have hsince := hcov.since
  rw [hidle, Option.getD_none] at htaken hsince
  refine ⟨?_, le_sup_of_le_left le_sup_right, hcov.owed⟩
  rw [Buffer.take, Option.getD_some, map_sup]
  exact sup_le (hsince.trans (sup_le le_rfl le_sup_right)) htaken

theorem Covered.commit {batch : α} (hcov : s.Covered f) (hflight : s.inFlight = some batch) :
    (s.commit f batch).Covered f := by
  have htaken := hcov.taken
  have hsince := hcov.since
  rw [hflight, Option.getD_some] at htaken hsince
  refine ⟨htaken.trans le_sup_left, ?_, htaken⟩
  refine hsince.trans (sup_le (sup_le ?_ ?_) ?_)
  · exact (le_sup_left.trans le_sup_left).trans le_sup_left
  · exact le_sup_right
  · exact (le_sup_right.trans le_sup_left).trans le_sup_left

theorem Covered.requeue {batch : α} (hcov : s.Covered f) (hflight : s.inFlight = some batch) :
    (s.requeue batch).Covered f := by
  have htaken := hcov.taken
  have hsince := hcov.since
  rw [hflight, Option.getD_some] at htaken hsince
  have hpending : f (s.pending ⊔ batch) = f s.pending ⊔ f batch := map_sup f _ _
  refine ⟨?_, ?_, hcov.owed⟩
  · rw [Buffer.requeue, Option.getD_none, hpending]
    exact htaken.trans (sup_le_sup le_rfl le_sup_right)
  · rw [Buffer.requeue, Option.getD_none, hpending]
    refine hsince.trans ((sup_assoc _ _ _).le.trans le_sup_left)

theorem Covered.raise (hcov : s.Covered f) (value : β) : (s.raise value).Covered f where
  taken := hcov.taken.trans (sup_le_sup le_sup_left le_rfl)
  since := hcov.since.trans (sup_le_sup (sup_le_sup le_sup_left le_rfl) le_rfl)
  owed := hcov.owed.trans le_sup_left

end Buffer

/-! ### Writes that join the store -/

section Joins

variable [SemilatticeSup α] {a b : α} {xs ys : List α}

theorem le_foldl_sup : a ≤ xs.foldl (· ⊔ ·) a := by
  induction xs generalizing a with
  | nil => exact le_rfl
  | cons x xs ih => exact le_sup_left.trans ih

theorem mem_le_foldl_sup (hmem : b ∈ xs) : b ≤ xs.foldl (· ⊔ ·) a := by
  induction xs generalizing a with
  | nil => cases hmem
  | cons x xs ih =>
    rcases List.mem_cons.mp hmem with rfl | hmem
    · exact le_sup_right.trans le_foldl_sup
    · exact ih hmem

theorem foldl_sup_le (ha : a ≤ b) (hxs : ∀ x ∈ xs, x ≤ b) : xs.foldl (· ⊔ ·) a ≤ b := by
  induction xs generalizing a with
  | nil => exact ha
  | cons x xs ih =>
    exact ih (sup_le ha (hxs x List.mem_cons_self)) fun y hy => hxs y (List.mem_cons_of_mem x hy)

/-- Neither the order nor the number of the writes matters. -/
theorem foldl_sup_eq (hxs : ∀ x ∈ xs, x ≤ a ∨ x ∈ ys) (hys : ∀ y ∈ ys, y ≤ a ∨ y ∈ xs) :
    xs.foldl (· ⊔ ·) a = ys.foldl (· ⊔ ·) a := by
  refine le_antisymm (foldl_sup_le le_foldl_sup fun x hx => ?_) (foldl_sup_le le_foldl_sup fun y hy => ?_)
  · exact (hxs x hx).elim (fun hle => hle.trans le_foldl_sup) mem_le_foldl_sup
  · exact (hys y hy).elim (fun hle => hle.trans le_foldl_sup) mem_le_foldl_sup

theorem map_foldl_sup [SemilatticeSup β] (f : SupHom α β) (a : α) (xs : List α) :
    f (xs.foldl (· ⊔ ·) a) = (xs.map f).foldl (· ⊔ ·) (f a) := by
  induction xs generalizing a with
  | nil => rfl
  | cons x xs ih => rw [List.foldl_cons, ih, map_sup, List.map_cons, List.foldl_cons]

end Joins

end WriteBehind
