import Mathlib.Tactic.Ring
import PropFirm.Lib.Rounding

/-!
# A total with a cap on its largest part

A part of a whole may make up at most a share of it, and what it exceeds that by is held back. In whole
units the held-back part is the excess rounded, so the rest is the whole less an integer that falls with
the whole and grows with the part. Taking some of the rest away never frees any more of it.
-/

namespace CappedShare

variable {α : Type*} [Field α] [LinearOrder α] [IsStrictOrderedRing α] [FloorRing α]

/-- The units by which a part exceeds its share of the total; half a unit is not counted. -/
def heldBack (share : α) (total part : ℤ) : ℤ := roundHalfDown (max 0 ((part : α) - share * total))

variable {share : α} {total total' part part' amount : ℤ}

theorem heldBack_nonneg (share : α) (total part : ℤ) : 0 ≤ heldBack share total part :=
  roundHalfDown_nonneg (le_max_left _ _)

theorem heldBack_eq_zero_iff :
    heldBack share total part = 0 ↔ (part : α) ≤ share * total + 1 / 2 := by
  rw [heldBack, roundHalfDown_eq_zero_iff (le_max_left _ _), max_le_iff, sub_le_iff_le_add']
  exact and_iff_right (by norm_num)

theorem heldBack_anti (hshare : 0 ≤ share) (htotal : total ≤ total') :
    heldBack share total' part ≤ heldBack share total part := by
  have hscaled : share * total ≤ share * total' := mul_le_mul_of_nonneg_left (Int.cast_le.mpr htotal) hshare
  exact roundHalfDown_mono (max_le_max le_rfl (by linarith))

theorem heldBack_mono (hpart : part ≤ part') :
    heldBack share total part ≤ heldBack share total part' := by
  have hcast : (part : α) ≤ part' := Int.cast_le.mpr hpart
  exact roundHalfDown_mono (max_le_max le_rfl (by linarith))

/-- What may be taken is the total less what is held back, however it is written. -/
theorem roundHalfAway_capped (share : α) (total part : ℤ) :
    roundHalfAway (max 0 (min (total : α) (total * (1 + share) - part)))
      = max 0 (total - heldBack share total part) := by
  have hrest : min (total : α) (total * (1 + share) - part)
      = total - max 0 ((part : α) - share * total) := by
    rcases le_total (part : α) (share * total) with hwithin | hover
    · rw [max_eq_left (by linarith), min_eq_left (by linarith), sub_zero]
    · rw [max_eq_right (by linarith), min_eq_right (by linarith)]
      ring
  have hfloor : ⌊(total : α) - max 0 ((part : α) - share * total) + 1 / 2⌋
      = total - heldBack share total part := floor_sub_add_half _ _
  rw [hrest, ← hfloor]
  rcases le_total 0 ((total : α) - max 0 ((part : α) - share * total)) with hle | hle
  · have hnonneg : 0 ≤ ⌊(total : α) - max 0 ((part : α) - share * total) + 1 / 2⌋ :=
      Int.floor_nonneg.mpr (by linarith)
    rw [max_eq_right hle, roundHalfAway_of_nonneg hle, max_eq_right hnonneg]
  · have hnonpos : ⌊(total : α) - max 0 ((part : α) - share * total) + 1 / 2⌋ ≤ 0 :=
      Int.lt_add_one_iff.mp (Int.floor_lt.mpr (by push_cast; linarith))
    rw [max_eq_left hle, roundHalfAway_zero, max_eq_left hnonpos]

/-- The whole total may be taken exactly when the part stays within its share, to half a unit. -/
theorem rest_eq_total_iff :
    max 0 (total - heldBack share total part) = max 0 total
      ↔ total ≤ 0 ∨ (part : α) ≤ share * total + 1 / 2 := by
  have hheld := heldBack_nonneg share total part
  rw [← heldBack_eq_zero_iff]
  omega

/-- What is left of the total after an amount is taken has at least as much held back. -/
theorem taken_add_rest_le (hshare : 0 ≤ share) (hamount : 0 ≤ amount)
    (hallowed : amount ≤ max 0 (total - heldBack share total part)) :
    amount + max 0 (total - amount - heldBack share (total - amount) part)
      ≤ max 0 (total - heldBack share total part) := by
  have hheld : heldBack share total part ≤ heldBack share (total - amount) part :=
    heldBack_anti hshare (by omega)
  omega

end CappedShare
