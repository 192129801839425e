import Mathlib.Algebra.Order.Floor.Ring
import Mathlib.Data.Int.Log
import Mathlib.Data.Rat.Floor
import Mathlib.Tactic.FieldSimp
import Mathlib.Tactic.Positivity
import PropFirm.Lib.Rounding
import PropFirm.Lib.IsoDates

/-!
# Decimal texts and the doubles they are read as

A decimal is read as the double nearest to it, which is off by a 2⁵³rd at most. Decimals of two places with
fewer than fifteen digits before the point are told by their doubles: `toFixed(2)` gives the decimal back.
-/

/-- Nearest integer, ties to the even one. -/
def roundHalfEven (x : ℚ) : ℤ :=
  if Int.fract x < 1 / 2 then ⌊x⌋
  else if 1 / 2 < Int.fract x then ⌊x⌋ + 1
  else if ⌊x⌋ % 2 = 0 then ⌊x⌋ else ⌊x⌋ + 1

theorem abs_roundHalfEven_sub_le (x : ℚ) : |(roundHalfEven x : ℚ) - x| ≤ 1 / 2 := by
  have hx := Int.floor_add_fract x
  have hlow := Int.fract_nonneg x
  have hhigh := Int.fract_lt_one x
  rw [roundHalfEven, abs_le]
  split
  · constructor <;> linarith
  rename_i hhalf
  split
  · push_cast
    constructor <;> linarith
  rename_i hhalf'
  split
  · constructor <;> linarith
  · push_cast
    constructor <;> linarith

namespace Doubles

/-- The step between doubles of the size of a number. -/
def spacing (q : ℚ) : ℚ := 2 ^ max (Int.log 2 |q| - 52) (-1074)

/-- The double a decimal within their range is read as. -/
def nearestDouble (q : ℚ) : ℚ := roundHalfEven (q / spacing q) * spacing q

theorem spacing_pos (q : ℚ) : 0 < spacing q := zpow_pos two_pos _

theorem abs_nearestDouble_sub_le (q : ℚ) : |nearestDouble q - q| ≤ spacing q / 2 := by
  have hpos := spacing_pos q
  have hsplit : nearestDouble q - q = (roundHalfEven (q / spacing q) - q / spacing q) * spacing q := by
    rw [nearestDouble, sub_mul, div_mul_cancel₀ _ hpos.ne']
  rw [hsplit, abs_mul, abs_of_pos hpos]
  calc |(roundHalfEven (q / spacing q) : ℚ) - q / spacing q| * spacing q ≤ 1 / 2 * spacing q :=
        mul_le_mul_of_nonneg_right (abs_roundHalfEven_sub_le _) hpos.le
    _ = spacing q / 2 := one_div_mul_eq_div _ _

/-- Of numbers that are not tiny the step is a 2⁵²nd at most. -/
theorem spacing_le {q : ℚ} (hq : 1 ≤ |q| * 2 ^ 1022) : spacing q ≤ |q| / 2 ^ 52 := by
  have hqpos : 0 < |q| := by
    by_contra hneg
    have hzero : |q| = 0 := le_antisymm (not_lt.mp hneg) (abs_nonneg q)
    rw [hzero, zero_mul] at hq
    exact absurd hq (by norm_num)
  rw [spacing, le_div_iff₀ (by positivity)]
  obtain hmax | hmax := max_choice (Int.log 2 |q| - 52) (-1074)
  · rw [hmax, zpow_sub₀ two_ne_zero]
    have hlog : (2 : ℚ) ^ Int.log 2 |q| ≤ |q| := by exact_mod_cast Int.zpow_log_le_self one_lt_two hqpos
    calc (2 : ℚ) ^ Int.log 2 |q| / 2 ^ (52 : ℤ) * 2 ^ 52 = 2 ^ Int.log 2 |q| := div_mul_cancel₀ _ (by norm_num)
      _ ≤ |q| := hlog
  · rw [hmax]
    have hsmall : (2 : ℚ) ^ (-1074 : ℤ) * 2 ^ (52 : ℤ) * 2 ^ (1022 : ℤ) = 1 := by
      rw [← zpow_add₀ two_ne_zero, ← zpow_add₀ two_ne_zero]
      rfl
    rw [zpow_ofNat, zpow_ofNat] at hsmall
    have hlarge : (0 : ℚ) < 2 ^ 1022 := by positivity
    exact le_of_mul_le_mul_right (hsmall.le.trans hq) hlarge

@[simp] theorem nearestDouble_zero : nearestDouble 0 = 0 := by
  rw [nearestDouble, zero_div, show roundHalfEven 0 = 0 by decide +kernel, Int.cast_zero, zero_mul]

/-! ### `toFixed(2)` -/

/-- A sign, the whole part, and two digits. -/
def hundredthsText (negative : Bool) (n : ℕ) : List Char :=
  (if negative then ['-'] else []) ++ Nat.toDigits 10 (n / 100) ++ '.' :: IsoDates.padded 2 (n % 100)

/-- Of a double below 10²¹. -/
def toFixedTwo (x : ℚ) : String := .ofList (hundredthsText (x < 0) ⌊|x| * 100 + 1 / 2⌋.toNat)

theorem hundredthsText_inj {negative negative' : Bool} {n n' : ℕ}
    (h : hundredthsText negative n = hundredthsText negative' n') : negative = negative' ∧ n = n' := by
  have hdigit : ∀ m : ℕ, '-' ∉ Nat.toDigits 10 m := by
    intro m hmem
    exact absurd (Nat.isDigit_of_mem_toDigits (by decide) (by decide) hmem) (by decide)
  rw [hundredthsText, hundredthsText] at h
  obtain ⟨hwhole, hcents⟩ := List.append_inj' h (by simp)
  have hcents := IsoDates.padded_inj (by omega) (by omega) (List.cons_eq_cons.mp hcents).2
  have hboth : negative = negative' ∧ Nat.toDigits 10 (n / 100) = Nat.toDigits 10 (n' / 100) := by
    cases negative <;> cases negative'
    · exact ⟨rfl, hwhole⟩
    · refine absurd ?_ (hdigit (n / 100))
      rw [show Nat.toDigits 10 (n / 100) = '-' :: Nat.toDigits 10 (n' / 100) from hwhole]
      exact List.mem_cons_self ..
    · refine absurd ?_ (hdigit (n' / 100))
      rw [show Nat.toDigits 10 (n' / 100) = '-' :: Nat.toDigits 10 (n / 100) from hwhole.symm]
      exact List.mem_cons_self ..
    · exact ⟨rfl, (List.cons_eq_cons.mp hwhole).2⟩
  refine ⟨hboth.1, ?_⟩
  have hdiv := congrArg (Nat.ofDigitChars 10 · 0) hboth.2
  simp only [Nat.ofDigitChars_ten_toDigits] at hdiv
  omega

theorem isDigit_or_of_mem_hundredthsText {negative : Bool} {n : ℕ} {c : Char}
    (hc : c ∈ hundredthsText negative n) : c.isDigit = true ∨ c = '-' ∨ c = '.' := by
  rw [hundredthsText, List.mem_append, List.mem_append, List.mem_cons] at hc
  obtain (hc | hc) | hc | hc := hc
  · cases negative with
    | false => cases hc
    | true => exact .inr (.inl (List.mem_singleton.mp hc))
  · exact .inl (Nat.isDigit_of_mem_toDigits (by decide) (by decide) hc)
  · exact .inr (.inr hc)
  · exact .inl (IsoDates.isDigit_of_mem_padded hc)

/-- The cents of a decimal of two places are those of its double. -/
theorem floor_nearestDouble_cents {n : ℤ} (hn : n.natAbs < 10 ^ 15) :
    (nearestDouble (n / 100) < 0 ↔ n < 0) ∧ ⌊|nearestDouble (n / 100)| * 100 + 1 / 2⌋ = |n| := by
  obtain rfl | hne := eq_or_ne n 0
  · rw [Int.cast_zero, zero_div, nearestDouble_zero]
    exact ⟨iff_of_false (lt_irrefl _) (lt_irrefl _), by norm_num⟩
  have hone : (1 : ℚ) ≤ |(n : ℚ)| := by exact_mod_cast Int.one_le_abs hne
  have hbound : |(n : ℚ)| < 10 ^ 15 := by
    have habs : |n| < 10 ^ 15 := abs_lt.mpr ⟨by omega, by omega⟩
    exact_mod_cast habs
  have hsize : |(n / 100 : ℚ)| = |(n : ℚ)| / 100 := by
    rw [abs_div, abs_of_pos (by norm_num : (0 : ℚ) < 100)]
  have hspacing : spacing (n / 100) ≤ |(n : ℚ)| / 100 / 2 ^ 52 := by
    have hhundred : (100 : ℚ) ≤ 2 ^ 1022 :=
      (by norm_num : (100 : ℚ) ≤ 2 ^ 7).trans (pow_le_pow_right₀ one_le_two (by norm_num))
    have hlarge : (1 : ℚ) ≤ |(n : ℚ)| / 100 * 2 ^ 1022 := by
      calc (1 : ℚ) = 1 / 100 * 100 := by norm_num
        _ ≤ |(n : ℚ)| / 100 * 2 ^ 1022 := by gcongr
    rw [← hsize] at hlarge ⊢
    exact spacing_le hlarge
  have herror := (abs_nearestDouble_sub_le (n / 100)).trans (div_le_div_of_nonneg_right hspacing two_pos.le)
  have hsmall : |(n : ℚ)| / 100 / 2 ^ 52 / 2 < 1 / 400 := by
    have hstep : |(n : ℚ)| / 100 / 2 ^ 52 / 2 < 10 ^ 15 / 100 / 2 ^ 52 / 2 := by gcongr
    exact hstep.trans (by norm_num)
  obtain ⟨hlow, hhigh⟩ := abs_lt.mp (herror.trans_lt hsmall)
  obtain hneg | hpos := lt_or_gt_of_ne hne
  · have hcast : (n : ℚ) ≤ -1 := by exact_mod_cast (by omega : n ≤ -1)
    have hx : nearestDouble (n / 100) < 0 := by linarith
    refine ⟨iff_of_true hx hneg, ?_⟩
    rw [abs_of_neg hx, abs_of_neg hneg, Int.floor_eq_iff]
    push_cast
    constructor <;> linarith
  · have hcast : (1 : ℚ) ≤ n := by exact_mod_cast (by omega : 1 ≤ n)
    have hx : 0 < nearestDouble (n / 100) := by linarith
    refine ⟨iff_of_false hx.not_gt hpos.not_gt, ?_⟩
    rw [abs_of_pos hx, abs_of_pos hpos, Int.floor_eq_iff]
    constructor <;> linarith

/-- A decimal of two places comes back from its double. -/
theorem toFixedTwo_cents {n : ℤ} (hn : n.natAbs < 10 ^ 15) :
    toFixedTwo (nearestDouble (n / 100)) = .ofList (hundredthsText (n < 0) n.natAbs) := by
  obtain ⟨hsign, hcents⟩ := floor_nearestDouble_cents hn
  rw [toFixedTwo, hcents, Int.abs_eq_natAbs, Int.toNat_natCast]
  exact congrArg (fun b => String.ofList (hundredthsText b n.natAbs)) (decide_eq_decide.mpr hsign)

end Doubles
