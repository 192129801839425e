import Mathlib.Data.List.Nodup

/-!
# Leases on keys

A table leases each key to one holder at a time. As long as no lease is taken from under a holder, no two
holders act on one key, even when leases given back are won again by others.
-/

namespace Leases

variable {K L : Type*}

/-- The holders' keys are distinct, and the table has each of their leases. -/
structure Leased (lease : K → Option L) (holders : List (K × L)) : Prop where
  nodup : (holders.map Prod.fst).Nodup
  held : ∀ h ∈ holders, lease h.1 = some h.2

variable {lease lease' : K → Option L} {holders holders' : List (K × L)} {k : K} {l : L}

theorem Leased.nil (lease : K → Option L) : Leased lease [] :=
  ⟨List.nodup_nil, fun _ hh => absurd hh List.not_mem_nil⟩

/-- A key that is free has no holder, so that the one who wins it is its only holder. -/
theorem Leased.acquire [DecidableEq K] (hleased : Leased lease holders) (hfree : lease k = none)
    (hlease' : ∀ j, lease' j = if k = j then some l else lease j) :
    Leased lease' (holders ++ [(k, l)]) := by
  have hother : ∀ h ∈ holders, k ≠ h.1 := by
    rintro h hh rfl
    exact absurd ((hleased.held h hh).symm.trans hfree) (Option.some_ne_none _)
  refine ⟨?_, fun h hh => ?_⟩
  · rw [List.map_append, List.map_singleton, List.nodup_append]
    refine ⟨hleased.nodup, List.nodup_singleton _, fun j hj i hi => ?_⟩
    obtain ⟨h, hh, rfl⟩ := List.mem_map.mp hj
    rw [List.mem_singleton.mp hi]
    exact (hother h hh).symm
  · rw [hlease']
    rcases List.mem_append.mp hh with hold | hnew
    · rw [if_neg (hother h hold)]
      exact hleased.held h hold
    · rw [List.mem_singleton.mp hnew, if_pos rfl]

/-- Whatever happens to other leases. -/
theorem Leased.keep (hleased : Leased lease holders) (hkept : ∀ h ∈ holders, lease' h.1 = lease h.1) :
    Leased lease' holders :=
  ⟨hleased.nodup, fun h hh => (hkept h hh).trans (hleased.held h hh)⟩

theorem Leased.sublist (hleased : Leased lease holders) (hsub : holders'.Sublist holders) :
    Leased lease holders' :=
  ⟨hleased.nodup.sublist (hsub.map _), fun h hh => hleased.held h (hsub.subset hh)⟩

end Leases
