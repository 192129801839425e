import Mathlib.Data.Int.Basic
import Mathlib.Data.Nat.Digits.Defs
import Mathlib.Tactic.NormNum

/-!
# Dates as ISO texts

A time in milliseconds since 1970 as the date and time of day in UTC that it falls on, in the proleptic
Gregorian calendar, and the text that names them. Within the range in which a year has six digits at most
the text tells the time.
-/

namespace IsoDates

/-! ### The calendar -/

@[ext] structure CivilDate where
  year : ℤ
  month : ℤ
  day : ℤ
  deriving DecidableEq

/-- Years are counted from March, so that a leap day ends one; of the four centuries in 400 years, and of
the four years in a cycle, the last one may be a day longer. -/
def civilOfDays (days : ℤ) : CivilDate :=
  let z := days + 719468
  let ofEra := z % 146097
  let century := min (ofEra / 36524) 3
  let ofCentury := ofEra - century * 36524
  let cycle := ofCentury / 1461
  let ofCycle := ofCentury % 1461
  let yearOfCycle := min (ofCycle / 365) 3
  let ofYear := ofCycle - yearOfCycle * 365
  let marchMonth := (5 * ofYear + 2) / 153
  let month := if marchMonth < 10 then marchMonth + 3 else marchMonth - 9
  { year := z / 146097 * 400 + century * 100 + cycle * 4 + yearOfCycle + if month ≤ 2 then 1 else 0
    month := month
    day := ofYear - (153 * marchMonth + 2) / 5 + 1 }

def daysOfCivil (date : CivilDate) : ℤ :=
  let year := if date.month ≤ 2 then date.year - 1 else date.year
  let marchMonth := if 2 < date.month then date.month - 3 else date.month + 9
  let ofYear := (153 * marchMonth + 2) / 5 + date.day - 1
  year / 400 * 146097 + (year % 400 * 365 + year % 400 / 4 - year % 400 / 100) + ofYear - 719468

/-- How 400 years divide into centuries, cycles and years. -/
theorem era_split {ofEra : ℤ} (hlow : 0 ≤ ofEra) (hhigh : ofEra < 146097) :
    ∃ century cycle yearOfCycle ofYear, century = min (ofEra / 36524) 3 ∧
      cycle = (ofEra - century * 36524) / 1461 ∧
      yearOfCycle = min ((ofEra - century * 36524) % 1461 / 365) 3 ∧
      ofYear = (ofEra - century * 36524) % 1461 - yearOfCycle * 365 ∧
      (0 ≤ century ∧ century ≤ 3) ∧ (0 ≤ cycle ∧ cycle ≤ 24) ∧ (0 ≤ yearOfCycle ∧ yearOfCycle ≤ 3) ∧
      (0 ≤ ofYear ∧ ofYear ≤ 365) ∧ ofEra = century * 36524 + cycle * 1461 + yearOfCycle * 365 + ofYear := by
  refine ⟨_, _, _, _, rfl, rfl, rfl, rfl, ?_, ?_, ?_, ?_, ?_⟩
  · omega
  · omega
  · omega
  · omega
  · omega

theorem civilOfDays_spec (days : ℤ) :
    (1 ≤ (civilOfDays days).month ∧ (civilOfDays days).month ≤ 12) ∧
    (1 ≤ (civilOfDays days).day ∧ (civilOfDays days).day ≤ 31) ∧
    (days + 719468) / 146097 * 400 ≤ (civilOfDays days).year ∧
    (civilOfDays days).year ≤ (days + 719468) / 146097 * 400 + 400 ∧
    daysOfCivil (civilOfDays days) = days := by
  obtain ⟨century, cycle, yearOfCycle, ofYear, hcentury, hcycle, hyear, hofYear, hc, hq, hy, hd, hsum⟩ :=
    @era_split ((days + 719468) % 146097) (by omega) (by omega)
  rw [civilOfDays, daysOfCivil]
  dsimp only
  rw [← hcentury, ← hcycle, ← hyear, ← hofYear]
  generalize hm : (5 * ofYear + 2) / 153 = marchMonth
  have hmonth : 0 ≤ marchMonth ∧ marchMonth ≤ 11 := by omega
  have hday : 1 ≤ ofYear - (153 * marchMonth + 2) / 5 + 1 ∧ ofYear - (153 * marchMonth + 2) / 5 + 1 ≤ 31 := by
    omega
  generalize hera : (days + 719468) / 146097 = era at *
  have hyoe : ∀ y, y = era * 400 + century * 100 + cycle * 4 + yearOfCycle →
      y / 400 = era ∧ y % 400 / 4 = century * 25 + cycle ∧ y % 400 / 100 = century ∧
      y % 400 = century * 100 + cycle * 4 + yearOfCycle := by
    intro y hyy
    have hdiv : y / 400 = era := by omega
    have hmod : y % 400 = century * 100 + cycle * 4 + yearOfCycle := by omega
    rw [hmod]
    refine ⟨hdiv, ?_, ?_, rfl⟩
    · omega
    · omega
  by_cases hbefore : marchMonth < 10
  · rw [if_pos hbefore, if_neg (by omega : ¬ marchMonth + 3 ≤ 2)]
    obtain ⟨h400, h4, h100, hmod⟩ := hyoe _ rfl
    refine ⟨by omega, hday, by omega, by omega, ?_⟩
    rw [add_zero, if_neg (by omega : ¬ marchMonth + 3 ≤ 2), if_pos (by omega : 2 < marchMonth + 3), h4, h100, hmod,
      h400]
    omega
  · rw [if_neg hbefore, if_pos (by omega : marchMonth - 9 ≤ 2)]
    obtain ⟨h400, h4, h100, hmod⟩ := hyoe _ rfl
    refine ⟨by omega, hday, by omega, by omega, ?_⟩
    rw [add_sub_cancel_right, if_pos (by omega : marchMonth - 9 ≤ 2), if_neg (by omega : ¬ 2 < marchMonth - 9), h4,
      h100, hmod, h400]
    omega

theorem civilOfDays_injective : Function.Injective civilOfDays := by
  intro days days' h
  rw [← (civilOfDays_spec days).2.2.2.2, h, (civilOfDays_spec days').2.2.2.2]

/-! ### Digits -/

/-- The last digits of a number. -/
def padded : ℕ → ℕ → List Char
  | 0, _ => []
  | width + 1, n => padded width (n / 10) ++ [Nat.digitChar (n % 10)]

@[simp] theorem length_padded (width n : ℕ) : (padded width n).length = width := by
  induction width generalizing n with
  | zero => rfl
  | succ width ih => rw [padded, List.length_append, ih, List.length_singleton]

theorem isDigit_of_mem_padded {width n : ℕ} {c : Char} (hc : c ∈ padded width n) : c.isDigit = true := by
  induction width generalizing n with
  | zero => cases hc
  | succ width ih =>
    obtain hc | hc := List.mem_append.mp hc
    · exact ih hc
    · rw [List.mem_singleton.mp hc]
      have hlt : n % 10 < 10 := Nat.mod_lt _ (by decide)
      generalize n % 10 = d at hlt
      decide +revert

theorem digitChar_inj {d e : ℕ} (hd : d < 10) (he : e < 10) (h : Nat.digitChar d = Nat.digitChar e) : d = e := by
  have hall : ∀ d e : Fin 10, Nat.digitChar d = Nat.digitChar e → d = e := by decide
  exact Fin.mk.inj_iff.mp (hall ⟨d, hd⟩ ⟨e, he⟩ h)

theorem padded_inj {width n m : ℕ} (hn : n < 10 ^ width) (hm : m < 10 ^ width)
    (h : padded width n = padded width m) : n = m := by
  induction width generalizing n m with
  | zero => omega
  | succ width ih =>
    obtain ⟨hinit, hlast⟩ := List.append_inj' h rfl
    rw [pow_succ] at hn hm
    have hdiv := ih (by omega) (by omega) hinit
    have hmod := digitChar_inj (Nat.mod_lt n (by decide)) (Nat.mod_lt m (by decide)) (List.singleton_inj.mp hlast)
    omega

/-! ### The text -/

/-- Four digits, or a sign and six. -/
def yearText (year : ℤ) : List Char :=
  if 0 ≤ year ∧ year ≤ 9999 then padded 4 year.toNat
  else (if year < 0 then '-' else '+') :: padded 6 year.natAbs

def clockText (ofDay : ℕ) : List Char :=
  padded 2 (ofDay / 3600000) ++ ':' :: padded 2 (ofDay / 60000 % 60) ++ ':' :: padded 2 (ofDay / 1000 % 60) ++
    '.' :: padded 3 (ofDay % 1000) ++ ['Z']

def dateText (ms : ℤ) : List Char :=
  let date := civilOfDays (ms / 86400000)
  yearText date.year ++ ('-' :: padded 2 date.month.toNat ++ '-' :: padded 2 date.day.toNat ++
    'T' :: clockText (ms % 86400000).toNat)

/-- The times of JavaScript dates. -/
def InRange (ms : ℤ) : Prop := -8640000000000000 ≤ ms ∧ ms ≤ 8640000000000000

instance (ms : ℤ) : Decidable (InRange ms) := inferInstanceAs (Decidable (_ ∧ _))

/-- `toISOString`, which throws at an invalid date. -/
def toISOString (ms : ℤ) : Option String := if InRange ms then some (.ofList (dateText ms)) else none

theorem yearText_inj {year year' : ℤ} (hyear : year.natAbs < 1000000) (hyear' : year'.natAbs < 1000000)
    (h : yearText year = yearText year') : year = year' := by
  rw [yearText, yearText] at h
  by_cases hshort : 0 ≤ year ∧ year ≤ 9999
  · rw [if_pos hshort] at h
    by_cases hshort' : 0 ≤ year' ∧ year' ≤ 9999
    · rw [if_pos hshort'] at h
      have hsame := padded_inj (by omega) (by omega) h
      omega
    · rw [if_neg hshort'] at h
      have hlength := congrArg List.length h
      simp at hlength
  · rw [if_neg hshort] at h
    by_cases hshort' : 0 ≤ year' ∧ year' ≤ 9999
    · rw [if_pos hshort'] at h
      have hlength := congrArg List.length h
      simp at hlength
    · rw [if_neg hshort'] at h
      obtain ⟨hsign, hdigits⟩ := List.cons_eq_cons.mp h
      have hsame := padded_inj hyear hyear' hdigits
      have hnegative : year < 0 ↔ year' < 0 := by
        by_cases hneg : year < 0
        · by_cases hneg' : year' < 0
          · exact iff_of_true hneg hneg'
          · rw [if_pos hneg, if_neg hneg'] at hsign
            cases hsign
        · by_cases hneg' : year' < 0
          · rw [if_neg hneg, if_pos hneg'] at hsign
            cases hsign
          · exact iff_of_false hneg hneg'
      omega

theorem length_clockText (ofDay : ℕ) : (clockText ofDay).length = 13 := by
  simp [clockText]

theorem clockText_inj {ofDay ofDay' : ℕ} (hlt : ofDay < 86400000) (hlt' : ofDay' < 86400000)
    (h : clockText ofDay = clockText ofDay') : ofDay = ofDay' := by
  rw [clockText, clockText] at h
  obtain ⟨h, -⟩ := List.append_inj' h rfl
  obtain ⟨h, hms⟩ := List.append_inj' h (by simp)
  obtain ⟨h, hsec⟩ := List.append_inj' h (by simp)
  obtain ⟨hhour, hmin⟩ := List.append_inj' h (by simp)
  have hms := padded_inj (by omega) (by omega) (List.cons_eq_cons.mp hms).2
  have hsec := padded_inj (by omega) (by omega) (List.cons_eq_cons.mp hsec).2
  have hmin := padded_inj (by omega) (by omega) (List.cons_eq_cons.mp hmin).2
  have hhour := padded_inj (by omega) (by omega) hhour
  omega

/-- The text of a date tells the date. -/
theorem dateText_inj {ms ms' : ℤ} (hms : InRange ms) (hms' : InRange ms') (h : dateText ms = dateText ms') :
    ms = ms' := by
  obtain ⟨hmonth, hday, hyear, hyear₂, -⟩ := civilOfDays_spec (ms / 86400000)
  obtain ⟨hmonth', hday', hyear', hyear₂', -⟩ := civilOfDays_spec (ms' / 86400000)
  obtain ⟨hlow, hhigh⟩ := hms
  obtain ⟨hlow', hhigh'⟩ := hms'
  rw [dateText, dateText] at h
  obtain ⟨hy, hrest⟩ := List.append_inj' h (by simp [length_clockText])
  obtain ⟨hdate, hclock⟩ := List.append_inj' hrest (by simp [length_clockText])
  obtain ⟨hm, hd⟩ := List.append_inj' hdate (by simp)
  have hy := yearText_inj (by omega) (by omega) hy
  have hm := padded_inj (by omega) (by omega) (List.cons_eq_cons.mp hm).2
  have hd := padded_inj (by omega) (by omega) (List.cons_eq_cons.mp hd).2
  have hclock := clockText_inj (by omega) (by omega) (List.cons_eq_cons.mp hclock).2
  have hdays : civilOfDays (ms / 86400000) = civilOfDays (ms' / 86400000) :=
    CivilDate.ext hy (by omega) (by omega)
  have hsame := civilOfDays_injective hdays
  omega

theorem bar_not_mem_dateText (ms : ℤ) : '|' ∉ dateText ms := by
  have hpadded : ∀ width n, '|' ∉ padded width n := by
    intro width n hmem
    exact absurd (isDigit_of_mem_padded hmem) (by decide)
  have hyear : ∀ year, '|' ∉ yearText year := by
    intro year
    rw [yearText]
    split
    · exact hpadded _ _
    · rw [List.mem_cons, not_or]
      refine ⟨?_, hpadded _ _⟩
      split <;> decide
  simp [dateText, clockText, hpadded, hyear]

theorem toISOString_eq_some {ms : ℤ} {text : String} (h : toISOString ms = some text) :
    InRange ms ∧ text.toList = dateText ms := by
  rw [toISOString] at h
  split at h
  · rename_i hrange
    cases h
    exact ⟨hrange, String.toList_ofList⟩
  · cases h

example : toISOString 1787047200000 = some "2026-08-18T10:00:00.000Z" := by decide +kernel

end IsoDates
