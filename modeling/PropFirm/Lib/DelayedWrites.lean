import Mathlib.Order.BooleanAlgebra.Set

/-!
# A replica with delayed writes

A log of puts and drops, latest first, reaches a replica in order. A drop takes effect when it arrives
and a put some time later, so that a put can land behind a drop that the log has after it.

`Tracks` is what keeps the replica on the log: every put that is still in flight is the last word on its
key, and so is every key held. It survives puts, landings in any order and the drops that do not
overtake a put of their key; with nothing in flight the replica holds what the log leaves.
-/

namespace DelayedWrites

variable {K : Type*}

inductive Op (K : Type*)
  | put (k : K)
  | drop (k : K)

def Op.key : Op K → K
  | .put k | .drop k => k

/-- The keys whose last operation is a put. -/
def left : List (Op K) → Set K
  | [] => ∅
  | .put k :: earlier => insert k (left earlier)
  | .drop k :: earlier => left earlier \ {k}

theorem mem_left_cons_of_ne {op : Op K} {log : List (Op K)} {k : K} (hne : op.key ≠ k) :
    k ∈ left (op :: log) ↔ k ∈ left log := by
  cases op with
  | put l => exact or_iff_right (Ne.symm hne)
  | drop l => exact and_iff_left (Ne.symm hne)

structure Tracks (held inFlight : Set K) (log : List (Op K)) : Prop where
  held_left : held ⊆ left log
  inFlight_left : inFlight ⊆ left log
  accounted : left log ⊆ held ∪ inFlight

variable {held inFlight inFlight' : Set K} {log : List (Op K)} {k : K}

theorem Tracks.nil : Tracks (∅ : Set K) ∅ [] := ⟨subset_rfl, subset_rfl, Set.empty_subset _⟩

theorem Tracks.put (htracks : Tracks held inFlight log) :
    Tracks held (insert k inFlight) (.put k :: log) where
  held_left := htracks.held_left.trans (Set.subset_insert _ _)
  inFlight_left := Set.insert_subset_insert htracks.inFlight_left
  accounted := by
    rw [left, Set.union_insert]
    exact Set.insert_subset_insert htracks.accounted

/-- A drop may not overtake a put of its key. -/
theorem Tracks.drop (htracks : Tracks held inFlight log) (horder : k ∉ inFlight) :
    Tracks (held \ {k}) inFlight (.drop k :: log) where
  held_left := Set.sdiff_subset_sdiff_left htracks.held_left
  inFlight_left := Set.subset_sdiff_singleton htracks.inFlight_left horder
  accounted := by
    rintro l ⟨hleft, hne⟩
    rcases htracks.accounted hleft with hheld | hflight
    · exact .inl ⟨hheld, hne⟩
    · exact .inr hflight

/-- A put lands, and others of its key may still be in flight. -/
theorem Tracks.land (htracks : Tracks held inFlight log) (hk : k ∈ inFlight)
    (hsub : inFlight' ⊆ inFlight) (hcover : inFlight ⊆ insert k inFlight') :
    Tracks (insert k held) inFlight' log where
  held_left := Set.insert_subset (htracks.inFlight_left hk) htracks.held_left
  inFlight_left := hsub.trans htracks.inFlight_left
  accounted := by
    intro l hleft
    rcases htracks.accounted hleft with hheld | hflight
    · exact .inl (.inr hheld)
    · rcases hcover hflight with rfl | hflight'
      · exact .inl (.inl rfl)
      · exact .inr hflight'

theorem Tracks.settled (htracks : Tracks held ∅ log) : held = left log :=
  htracks.held_left.antisymm (htracks.accounted.trans (Set.union_empty held).subset)

end DelayedWrites
