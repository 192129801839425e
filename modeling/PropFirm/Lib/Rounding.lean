import Mathlib.Algebra.Order.Floor.Ring
import Mathlib.Algebra.Order.Floor.Semiring
import Mathlib.Algebra.Order.Field.Basic
import Mathlib.Tactic.Linarith
import Mathlib.Tactic.NormNum

/-!
# Rounding half away from zero

The rounding that decimal columns and decimal libraries use by default: to the nearest integer, a
tie going away from zero. It is monotone, fixes the integers, and commutes with adding an integer
except on ties whose sign the addition reverses; that exception is exactly where adding and rounding
in either order disagree.
-/

section Rounding

variable {α : Type*} [Field α] [LinearOrder α] [IsStrictOrderedRing α] [FloorRing α]

/-- Nearest integer, ties away from zero. -/
def roundHalfAway (x : α) : ℤ := if 0 ≤ x then ⌊x + 1 / 2⌋ else ⌈x - 1 / 2⌉

/-- Nearest integer, ties down. -/
def roundHalfDown (x : α) : ℤ := ⌈x - 1 / 2⌉

/-- A number halfway between two integers. -/
def IsTie (x : α) : Prop := Int.fract x = 1 / 2

instance (x : α) : Decidable (IsTie x) := inferInstanceAs (Decidable (Int.fract x = 1 / 2))

omit [IsStrictOrderedRing α] in
theorem roundHalfAway_of_nonneg {x : α} (hx : 0 ≤ x) : roundHalfAway x = ⌊x + 1 / 2⌋ := if_pos hx

omit [IsStrictOrderedRing α] in
theorem roundHalfAway_of_neg {x : α} (hx : x < 0) : roundHalfAway x = ⌈x - 1 / 2⌉ :=
  if_neg (not_le.mpr hx)

private theorem ceil_sub_half_eq_floor_add_half (x : α) :
    ⌈x - 1 / 2⌉ = ⌊x + 1 / 2⌋ ↔ ¬ IsTie x := by
  have hx : (⌊x⌋ : α) + Int.fract x = x := Int.floor_add_fract x
  have hnonneg := Int.fract_nonneg x
  have hlt := Int.fract_lt_one x
  rcases lt_trichotomy (Int.fract x) (1 / 2) with hf | hf | hf
  · have hceil : ⌈x - 1 / 2⌉ = ⌊x⌋ := Int.ceil_eq_iff.mpr ⟨by linarith, by linarith⟩
    have hfloor : ⌊x + 1 / 2⌋ = ⌊x⌋ := Int.floor_eq_iff.mpr ⟨by linarith, by linarith⟩
    rw [hceil, hfloor]
    exact iff_of_true rfl hf.ne
  · have hceil : ⌈x - 1 / 2⌉ = ⌊x⌋ := Int.ceil_eq_iff.mpr ⟨by linarith, by linarith⟩
    have hfloor : ⌊x + 1 / 2⌋ = ⌊x⌋ + 1 :=
      Int.floor_eq_iff.mpr ⟨by push_cast; linarith, by push_cast; linarith⟩
    rw [hceil, hfloor]
    exact iff_of_false (by omega) (not_not.mpr hf)
  · have hceil : ⌈x - 1 / 2⌉ = ⌊x⌋ + 1 :=
      Int.ceil_eq_iff.mpr ⟨by push_cast; linarith, by push_cast; linarith⟩
    have hfloor : ⌊x + 1 / 2⌋ = ⌊x⌋ + 1 :=
      Int.floor_eq_iff.mpr ⟨by push_cast; linarith, by push_cast; linarith⟩
    rw [hceil, hfloor]
    exact iff_of_true rfl hf.ne'

private theorem IsTie.ne_zero {x : α} (htie : IsTie x) : x ≠ 0 := by
  rintro rfl
  rw [IsTie, Int.fract_zero] at htie
  norm_num at htie

private theorem isTie_intCast_add {x : α} (b : ℤ) : IsTie ((b : α) + x) ↔ IsTie x := by
  rw [IsTie, IsTie, Int.fract_intCast_add]

/-- Adding an integer commutes with the rounding unless it flips the sign of a tie. -/
theorem roundHalfAway_intCast_add (b : ℤ) (x : α) :
    roundHalfAway ((b : α) + x) = b + roundHalfAway x ↔ (IsTie x → (0 < x ↔ 0 < (b : α) + x)) := by
  have hfloor : ⌊(b : α) + x + 1 / 2⌋ = b + ⌊x + 1 / 2⌋ := by
    rw [add_assoc, Int.floor_intCast_add]
  have hceil : ⌈(b : α) + x - 1 / 2⌉ = b + ⌈x - 1 / 2⌉ := by
    rw [add_sub_assoc, Int.ceil_intCast_add]
  have htie := ceil_sub_half_eq_floor_add_half x
  rcases lt_or_ge x 0 with hx | hx <;> rcases lt_or_ge ((b : α) + x) 0 with hbx | hbx
  · rw [roundHalfAway_of_neg hx, roundHalfAway_of_neg hbx, hceil]
    simp [hx.not_gt, hbx.not_gt]
  · rw [roundHalfAway_of_neg hx, roundHalfAway_of_nonneg hbx, hfloor, add_right_inj, eq_comm, htie]
    refine ⟨fun h h' => absurd h' h, fun h h' => ?_⟩
    have hpos := lt_of_le_of_ne hbx ((isTie_intCast_add b).mpr h').ne_zero.symm
    exact hx.not_gt ((h h').mpr hpos)
  · rw [roundHalfAway_of_nonneg hx, roundHalfAway_of_neg hbx, hceil, add_right_inj, htie]
    refine ⟨fun h h' => absurd h' h, fun h h' => ?_⟩
    exact hbx.not_gt ((h h').mp (lt_of_le_of_ne hx h'.ne_zero.symm))
  · rw [roundHalfAway_of_nonneg hx, roundHalfAway_of_nonneg hbx, hfloor]
    refine ⟨fun _ h => ?_, fun _ => rfl⟩
    exact iff_of_true (lt_of_le_of_ne hx h.ne_zero.symm)
      (lt_of_le_of_ne hbx ((isTie_intCast_add b).mpr h).ne_zero.symm)

@[simp] theorem roundHalfAway_zero : roundHalfAway (0 : α) = 0 := by
  rw [roundHalfAway_of_nonneg le_rfl]
  exact Int.floor_eq_iff.mpr ⟨by norm_num, by norm_num⟩

@[simp] theorem roundHalfAway_intCast (n : ℤ) : roundHalfAway (n : α) = n := by
  have h := (roundHalfAway_intCast_add n (0 : α)).mpr fun htie => absurd rfl htie.ne_zero
  simpa using h

theorem roundHalfAway_mono {x y : α} (hxy : x ≤ y) : roundHalfAway x ≤ roundHalfAway y := by
  rcases lt_or_ge x 0 with hx | hx
  · rcases lt_or_ge y 0 with hy | hy
    · rw [roundHalfAway_of_neg hx, roundHalfAway_of_neg hy]
      exact Int.ceil_mono (by linarith)
    · rw [roundHalfAway_of_neg hx, roundHalfAway_of_nonneg hy]
      calc ⌈x - 1 / 2⌉ ≤ 0 := Int.ceil_le.mpr (by push_cast; linarith)
        _ ≤ ⌊y + 1 / 2⌋ := Int.le_floor.mpr (by push_cast; linarith)
  · rw [roundHalfAway_of_nonneg hx, roundHalfAway_of_nonneg (hx.trans hxy)]
    exact Int.floor_mono (by linarith)

/-- A sum with an integer is not rounded above what its other part is rounded to. -/
theorem roundHalfAway_intCast_add_le (b : ℤ) {x : α} (hx : 0 ≤ x) :
    roundHalfAway ((b : α) + x) ≤ b + roundHalfAway x := by
  rw [roundHalfAway_of_nonneg hx]
  rcases lt_or_ge ((b : α) + x) 0 with hbx | hbx
  · have hceil : ⌈x - 1 / 2⌉ ≤ ⌊x + 1 / 2⌋ := Int.ceil_le.mpr (by linarith [Int.sub_one_lt_floor (x + 1 / 2)])
    rw [roundHalfAway_of_neg hbx, add_sub_assoc, Int.ceil_intCast_add]
    omega
  · rw [roundHalfAway_of_nonneg hbx, add_assoc, Int.floor_intCast_add]

theorem roundHalfAway_eq_of_abs_sub_lt {x : α} {n : ℤ} (hnear : |x - n| < 1 / 2) :
    roundHalfAway x = n := by
  obtain ⟨hlow, hhigh⟩ := abs_lt.mp hnear
  rcases lt_or_ge x 0 with hx | hx
  · rw [roundHalfAway_of_neg hx]
    exact Int.ceil_eq_iff.mpr ⟨by linarith, by linarith⟩
  · rw [roundHalfAway_of_nonneg hx]
    exact Int.floor_eq_iff.mpr ⟨by linarith, by linarith⟩

theorem roundHalfDown_mono {x y : α} (hxy : x ≤ y) : roundHalfDown x ≤ roundHalfDown y :=
  Int.ceil_mono (sub_le_sub_right hxy _)

theorem roundHalfDown_nonneg {x : α} (hx : 0 ≤ x) : 0 ≤ roundHalfDown x := by
  have habove : (-1 : ℤ) < roundHalfDown x := by
    refine Int.lt_ceil.mpr ?_
    push_cast
    linarith
  omega

theorem roundHalfDown_eq_zero_iff {x : α} (hx : 0 ≤ x) : roundHalfDown x = 0 ↔ x ≤ 1 / 2 := by
  rw [roundHalfDown, Int.ceil_eq_zero_iff, Set.mem_Ioc]
  constructor
  · rintro ⟨_, hle⟩
    linarith
  · intro hle
    constructor <;> linarith

/-- Taking a number off an integer rounds it down where it stands halfway. -/
theorem floor_sub_add_half (n : ℤ) (x : α) : ⌊(n : α) - x + 1 / 2⌋ = n - roundHalfDown x := by
  rw [sub_add, sub_eq_add_neg, Int.floor_intCast_add, Int.floor_neg, ← sub_eq_add_neg, roundHalfDown]

/-- The rounding moves a number by at most one half. -/
theorem abs_roundHalfAway_sub_le (x : α) : |(roundHalfAway x : α) - x| ≤ 1 / 2 := by
  rw [abs_le]
  rcases lt_or_ge x 0 with hx | hx
  · rw [roundHalfAway_of_neg hx]
    have hle := Int.le_ceil (x - 1 / 2)
    have hlt := Int.ceil_lt_add_one (x - 1 / 2)
    constructor <;> linarith
  · rw [roundHalfAway_of_nonneg hx]
    have hle := Int.floor_le (x + 1 / 2)
    have hlt := Int.lt_floor_add_one (x + 1 / 2)
    constructor <;> linarith

end Rounding
