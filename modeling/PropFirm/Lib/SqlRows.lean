import Mathlib
import PropFirm.Lib.Rounding

/-!
# Rows with typed columns

A row gives each column a value of the column's type, and the typing is a field. An assignment casts its value
to the type first, which rounds a decimal and may refuse; what has been cast is left alone by a second cast.
Whether a column may be null is not part of its type.
-/

namespace Sql

inductive Number
  | nan
  | infinity (negative : Bool)
  | finite (x : ℚ)
  deriving DecidableEq

namespace Number

/-- Compare as JavaScript does: every comparison with `NaN` is false. -/
def exceeds (bound : ℚ) : Number → Bool
  | nan => false
  | infinity negative => !negative
  | finite x => bound < x

def below (bound : ℚ) : Number → Bool
  | nan => false
  | infinity negative => negative
  | finite x => x < bound

def IsFiniteNonneg : Number → Prop
  | finite x => 0 ≤ x
  | _ => False

instance : DecidablePred IsFiniteNonneg
  | nan => inferInstanceAs (Decidable False)
  | infinity _ => inferInstanceAs (Decidable False)
  | finite x => inferInstanceAs (Decidable (0 ≤ x))

/-- A value of type `integer`. -/
def IsInteger : Number → Prop
  | finite x => x.den = 1 ∧ -2147483648 ≤ x ∧ x ≤ 2147483647
  | _ => False

instance : DecidablePred IsInteger
  | nan => inferInstanceAs (Decidable False)
  | infinity _ => inferInstanceAs (Decidable False)
  | finite x => inferInstanceAs (Decidable (x.den = 1 ∧ -2147483648 ≤ x ∧ x ≤ 2147483647))

def round (scale : ℕ) (x : ℚ) : ℚ := roundHalfAway (x * 10 ^ scale) / 10 ^ scale

/-- What `numeric(precision, scale)` stores of a number. -/
def fit (precision scale : ℕ) : Number → Option Number
  | nan => some nan
  | infinity _ => none
  | finite x => if |round scale x| < 10 ^ (precision - scale) then some (finite (round scale x)) else none

theorem round_round (scale : ℕ) (x : ℚ) : round scale (round scale x) = round scale x := by
  have hpow : (10 : ℚ) ^ scale ≠ 0 := by positivity
  have hint : roundHalfAway ((roundHalfAway (x * 10 ^ scale) : ℚ)) = roundHalfAway (x * 10 ^ scale) :=
    roundHalfAway_eq_of_abs_sub_lt (by simp)
  unfold round
  rw [div_mul_cancel₀ _ hpow, hint]

theorem fit_fit {precision scale : ℕ} {x y : Number} (hfit : x.fit precision scale = some y) :
    y.fit precision scale = some y := by
  cases x with
  | nan =>
    obtain rfl := Option.some.inj hfit
    rfl
  | infinity negative => cases hfit
  | finite x =>
    rw [fit, Option.ite_none_right_eq_some] at hfit
    obtain ⟨hbound, hy⟩ := hfit
    obtain rfl := Option.some.inj hy
    rw [fit, round_round, if_pos hbound]

end Number

inductive Value
  | null
  | bool (b : Bool)
  | num (x : Number)
  | text (s : String)
  | json (items : List (Option ℚ))
  deriving DecidableEq

inductive ColumnType
  | boolean
  | integer
  | numeric (precision scale : ℕ)
  | number
  | text
  | jsonb
  deriving DecidableEq

def ColumnType.castNumber (t : ColumnType) (x : Number) : Option Number :=
  match t with
  | .integer => if x.IsInteger then some x else none
  | .numeric precision scale => x.fit precision scale
  | .number => some x
  | _ => none

def ColumnType.cast (t : ColumnType) : Value → Option Value
  | .null => some .null
  | .bool b => if t = .boolean then some (.bool b) else none
  | .num x => (t.castNumber x).map .num
  | .text s => if t = .text then some (.text s) else none
  | .json items => if t = .jsonb then some (.json items) else none

theorem ColumnType.castNumber_castNumber {t : ColumnType} {x y : Number}
    (hcast : t.castNumber x = some y) : t.castNumber y = some y := by
  cases t with
  | integer =>
    obtain ⟨hint, rfl⟩ := Option.ite_some_none_eq_some.mp hcast
    exact if_pos hint
  | numeric precision scale => exact Number.fit_fit hcast
  | number => rfl
  | boolean => cases hcast
  | text => cases hcast
  | jsonb => cases hcast

theorem ColumnType.cast_cast {t : ColumnType} {v w : Value} (hcast : t.cast v = some w) :
    t.cast w = some w := by
  cases v with
  | null =>
    obtain rfl := Option.some.inj hcast
    rfl
  | num x =>
    obtain ⟨y, hy, rfl⟩ := Option.map_eq_some_iff.mp hcast
    rw [cast, castNumber_castNumber hy]
    rfl
  | bool b =>
    obtain ⟨ht, rfl⟩ := Option.ite_some_none_eq_some.mp hcast
    exact if_pos ht
  | text s =>
    obtain ⟨ht, rfl⟩ := Option.ite_some_none_eq_some.mp hcast
    exact if_pos ht
  | json items =>
    obtain ⟨ht, rfl⟩ := Option.ite_some_none_eq_some.mp hcast
    exact if_pos ht

theorem ColumnType.cast_ne_null {t : ColumnType} {v w : Value} (hcast : t.cast v = some w)
    (hv : v ≠ .null) : w ≠ .null := by
  rintro rfl
  cases v with
  | null => exact hv rfl
  | num x =>
    obtain ⟨y, -, hy⟩ := Option.map_eq_some_iff.mp hcast
    cases hy
  | bool b => cases (Option.ite_some_none_eq_some.mp hcast).2
  | text s => cases (Option.ite_some_none_eq_some.mp hcast).2
  | json items => cases (Option.ite_some_none_eq_some.mp hcast).2

theorem lookup_eq_none {κ β : Type} [DecidableEq κ] {entries : List (κ × β)} {k : κ} :
    entries.lookup k = none ↔ k ∉ entries.map Prod.fst := by
  rw [List.lookup_eq_none_iff, List.mem_map]
  constructor
  · rintro hnone ⟨entry, hentry, rfl⟩
    simpa using hnone entry hentry
  · intro hnot entry hentry
    rw [bne_iff_ne]
    rintro rfl
    exact hnot ⟨entry, hentry, rfl⟩

/-- Columns of type `type`. -/
structure Row {C : Type} (type : C → ColumnType) where
  get : C → Value
  typed : ∀ c, (type c).cast (get c) = some (get c)

namespace Row

variable {C : Type} {type : C → ColumnType}

variable [DecidableEq C]

def assign? (row : Row type) (c : C) (v : Value) : Option (Row type) :=
  match hcast : (type c).cast v with
  | none => none
  | some w =>
    some {
      get := Function.update row.get c w
      typed := by
        intro c'
        by_cases hc : c' = c
        · rw [hc, Function.update_self]
          exact ColumnType.cast_cast hcast
        · rw [Function.update_of_ne hc]
          exact row.typed c' }

theorem assign?_eq_some {row row' : Row type} {c : C} {v : Value} (hassign : row.assign? c v = some row') :
    ∃ w, (type c).cast v = some w ∧ row'.get = Function.update row.get c w := by
  unfold assign? at hassign
  split at hassign
  · cases hassign
  · next w hcast =>
    obtain rfl := Option.some.inj hassign
    exact ⟨w, hcast, rfl⟩

theorem assign?_isSome {row : Row type} {c : C} {v : Value} (hcast : ((type c).cast v).isSome) :
    (row.assign? c v).isSome := by
  unfold assign?
  split
  · next hnone =>
    rw [hnone] at hcast
    cases hcast
  · rfl

/-- The `SET` list of an update. -/
def update? (row : Row type) : List (C × Value) → Option (Row type)
  | [] => some row
  | (c, v) :: rest => (row.assign? c v).bind fun row => row.update? rest

theorem update?_isSome {as : List (C × Value)} (row : Row type)
    (hcast : ∀ a ∈ as, ((type a.1).cast a.2).isSome) : (row.update? as).isSome := by
  induction as generalizing row with
  | nil => rfl
  | cons a as ih =>
    obtain ⟨row', hrow'⟩ : ∃ row', row.assign? a.1 a.2 = some row' :=
      Option.isSome_iff_exists.mp (assign?_isSome (hcast a List.mem_cons_self))
    rw [update?, hrow', Option.bind_some]
    exact ih row' fun b hb => hcast b (List.mem_cons_of_mem a hb)

theorem update?_get_of_not_mem {as : List (C × Value)} {row row' : Row type} {c : C}
    (hupdate : row.update? as = some row') (hc : c ∉ as.map Prod.fst) : row'.get c = row.get c := by
  induction as generalizing row with
  | nil =>
    obtain rfl := Option.some.inj hupdate
    rfl
  | cons a as ih =>
    rw [List.map_cons, List.mem_cons, not_or] at hc
    obtain ⟨next, hassign, hrest⟩ := Option.bind_eq_some_iff.mp hupdate
    obtain ⟨w, -, hget⟩ := assign?_eq_some hassign
    rw [ih hrest hc.2, hget, Function.update_of_ne hc.1]

theorem update?_get_of_mem {as : List (C × Value)} {row row' : Row type} {c : C} {v : Value}
    (hupdate : row.update? as = some row') (hnodup : (as.map Prod.fst).Nodup) (hmem : (c, v) ∈ as) :
    (type c).cast v = some (row'.get c) := by
  induction as generalizing row with
  | nil => cases hmem
  | cons a as ih =>
    rw [List.map_cons, List.nodup_cons] at hnodup
    obtain ⟨next, hassign, hrest⟩ := Option.bind_eq_some_iff.mp hupdate
    rcases List.mem_cons.mp hmem with rfl | hmem
    · obtain ⟨w, hcast, hget⟩ := assign?_eq_some hassign
      rw [update?_get_of_not_mem hrest hnodup.1, hget, Function.update_self]
      exact hcast
    · exact ih hrest hnodup.2 hmem

/-- A column that is only ever set to its own value. -/
theorem update?_get_of_same {as : List (C × Value)} {row row' : Row type} {c : C}
    (hupdate : row.update? as = some row') (hnodup : (as.map Prod.fst).Nodup)
    (hsame : ∀ v, (c, v) ∈ as → v = row.get c) : row'.get c = row.get c := by
  by_cases hc : c ∈ as.map Prod.fst
  · obtain ⟨⟨c', v⟩, hmem, rfl⟩ := List.mem_map.mp hc
    have hcast := update?_get_of_mem hupdate hnodup hmem
    rw [hsame v hmem, row.typed c'] at hcast
    exact (Option.some.inj hcast).symm
  · exact update?_get_of_not_mem hupdate hc

/-- An update by values of the columns' types stores them as they are. -/
theorem update?_get {as : List (C × Value)} {row row' : Row type} (hupdate : row.update? as = some row')
    (hnodup : (as.map Prod.fst).Nodup) (hfixed : ∀ a ∈ as, (type a.1).cast a.2 = some a.2) (c : C) :
    row'.get c = (as.lookup c).getD (row.get c) := by
  cases hlookup : as.lookup c with
  | none =>
    exact update?_get_of_not_mem hupdate (lookup_eq_none.mp hlookup)
  | some v =>
    obtain ⟨l₁, l₂, has, -⟩ := List.lookup_eq_some_iff.mp hlookup
    have hmem : (c, v) ∈ as := by
      rw [has]
      exact List.mem_append_right _ List.mem_cons_self
    have hcast := update?_get_of_mem hupdate hnodup hmem
    rw [hfixed _ hmem] at hcast
    exact (Option.some.inj hcast).symm

end Row

end Sql
