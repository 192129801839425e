import Mathlib.Data.List.Basic

/-!
# Texts joined by a separator

A field without separator at either end of a joined text can be read off. Between free fields the text does
not say where one ends: it may be that one of them goes on with what other texts have in the next fields.
-/

namespace SeparatedFields

variable {α : Type*} {sep : α} {u v a b : List α}

/-- Two texts with any first field: one first field goes on where the other ends. -/
theorem append_eq_append_iff : u ++ sep :: a = v ++ sep :: b ↔ u = v ∧ a = b ∨
    (∃ rest, v = u ++ sep :: rest ∧ a = rest ++ sep :: b) ∨ ∃ rest, u = v ++ sep :: rest ∧ b = rest ++ sep :: a := by
  constructor
  · intro h
    obtain ⟨rest, hv, hrest⟩ | ⟨rest, hu, hrest⟩ := List.append_eq_append_iff.mp h
    · cases rest with
      | nil =>
        rw [List.append_nil] at hv
        exact .inl ⟨hv.symm, (List.cons_inj_right sep).mp hrest⟩
      | cons c rest =>
        rw [List.cons_append] at hrest
        obtain ⟨rfl, ha⟩ := List.cons_eq_cons.mp hrest
        exact .inr (.inl ⟨rest, hv, ha⟩)
    · cases rest with
      | nil =>
        rw [List.append_nil] at hu
        exact .inl ⟨hu, ((List.cons_inj_right sep).mp hrest).symm⟩
      | cons c rest =>
        rw [List.cons_append] at hrest
        obtain ⟨rfl, hb⟩ := List.cons_eq_cons.mp hrest
        exact .inr (.inr ⟨rest, hu, hb⟩)
  · rintro (⟨rfl, rfl⟩ | ⟨rest, rfl, rfl⟩ | ⟨rest, rfl, rfl⟩)
    · rfl
    · rw [List.append_assoc, List.cons_append]
    · rw [List.append_assoc, List.cons_append]

/-- A first field without separator against any text and what follows it. -/
theorem append_eq_iff (hu : sep ∉ u) :
    u ++ sep :: a = v ++ sep :: b ↔ v = u ∧ a = b ∨ ∃ rest, v = u ++ sep :: rest ∧ a = rest ++ sep :: b := by
  rw [append_eq_append_iff, eq_comm (a := u)]
  refine or_congr_right (or_iff_left ?_)
  rintro ⟨rest, rfl, -⟩
  exact hu (List.mem_append_right v (List.mem_cons_self ..))

/-- Two first fields without separator. -/
theorem append_inj (hu : sep ∉ u) (hv : sep ∉ v) : u ++ sep :: a = v ++ sep :: b ↔ u = v ∧ a = b := by
  rw [append_eq_iff hu]
  constructor
  · rintro (⟨rfl, rfl⟩ | ⟨rest, rfl, -⟩)
    · exact ⟨rfl, rfl⟩
    · exact absurd (List.mem_append_right u (List.mem_cons_self ..)) hv
  · rintro ⟨rfl, rfl⟩
    exact .inl ⟨rfl, rfl⟩

/-- Two last fields without separator. -/
theorem append_inj_right (ha : sep ∉ a) (hb : sep ∉ b) : u ++ sep :: a = v ++ sep :: b ↔ u = v ∧ a = b := by
  have hreverse : ∀ w c : List α, (w ++ sep :: c).reverse = c.reverse ++ sep :: w.reverse := by
    intro w c
    rw [List.reverse_append, List.reverse_cons, List.append_assoc, List.singleton_append]
  rw [← List.reverse_inj, hreverse, hreverse, append_inj (by rwa [List.mem_reverse]) (by rwa [List.mem_reverse]),
    List.reverse_inj, List.reverse_inj]
  exact and_comm

/-- Of joined texts that differ in one field at most. -/
theorem intercalate_set_inj {s value : String} {fields : List String} {i : ℕ}
    (h : s.intercalate (fields.set i value) = s.intercalate fields) : fields.set i value = fields := by
  induction fields generalizing i with
  | nil => rfl
  | cons field fields ih =>
    by_cases hnil : fields = []
    · subst hnil
      cases i with
      | zero => simpa using h
      | succ i => rfl
    · cases i with
      | zero =>
        rw [List.set_cons_zero, String.intercalate_cons_of_ne_nil hnil, String.intercalate_cons_of_ne_nil hnil,
          String.append_left_inj, String.append_left_inj] at h
        rw [List.set_cons_zero, h]
      | succ i =>
        have hset : fields.set i value ≠ [] := by
          rwa [ne_eq, ← List.length_eq_zero_iff, List.length_set, List.length_eq_zero_iff]
        rw [List.set_cons_succ, String.intercalate_cons_of_ne_nil hset, String.intercalate_cons_of_ne_nil hnil,
          String.append_right_inj] at h
        rw [List.set_cons_succ, ih h]

/-! ### Named fields

Each field is written with its name, so that a text is read in another way only where one value goes on with
fields of the other.
-/

variable {mark : α}

/-- `name=value` for each field, joined. -/
def joined (mark sep : α) (fields : List (List α × List α)) : List α :=
  [sep].intercalate (fields.map fun field => field.1 ++ mark :: field.2)

/-- What follows a value. -/
def afterValue (mark sep : α) (fields : List (List α × List α)) : List α :=
  if fields = [] then [] else sep :: joined mark sep fields

theorem joined_cons (field : List α × List α) (fields : List (List α × List α)) :
    joined mark sep (field :: fields) = field.1 ++ mark :: (field.2 ++ afterValue mark sep fields) := by
  rw [joined, afterValue, joined]
  cases fields with
  | nil => simp
  | cons next fields => simp [List.intercalate_cons_cons]

theorem joined_eq_nil {fields : List (List α × List α)} : joined mark sep fields = [] ↔ fields = [] := by
  cases fields with
  | nil => exact iff_of_true rfl rfl
  | cons field fields => simp [joined_cons]

/-- The longer value ends with the first of the other's next fields. -/
def GoesOn (mark sep : α) (short : List α) (rest : List (List α × List α)) (long : List α)
    (rest' : List (List α × List α)) : Prop :=
  rest ≠ [] ∧ ∃ more, long = short ++ sep :: more ∧ joined mark sep rest = more ++ afterValue mark sep rest'

/-- After the same fields, one value goes on where the other ends. -/
def Confused (mark sep : α) (fields fields' : List (List α × List α)) : Prop :=
  ∃ common name value value' rest rest', fields = common ++ (name, value) :: rest ∧
    fields' = common ++ (name, value') :: rest' ∧
    (GoesOn mark sep value rest value' rest' ∨ GoesOn mark sep value' rest' value rest)

theorem afterValue_eq_iff {rest rest' : List (List α × List α)} :
    afterValue mark sep rest = afterValue mark sep rest' ↔ joined mark sep rest = joined mark sep rest' := by
  rw [afterValue, afterValue]
  split_ifs with hnil hnil' hnil'
  · rw [hnil, hnil']
    exact iff_of_true rfl rfl
  · rw [hnil]
    exact iff_of_false id fun h => hnil' (joined_eq_nil.mp h.symm)
  · rw [hnil']
    exact iff_of_false id fun h => hnil (joined_eq_nil.mp h)
  · exact List.cons_inj_right sep

theorem GoesOn.text_eq {short long : List α} {rest rest' : List (List α × List α)}
    (h : GoesOn mark sep short rest long rest') :
    short ++ afterValue mark sep rest = long ++ afterValue mark sep rest' := by
  obtain ⟨hrest, more, rfl, hjoined⟩ := h
  rw [afterValue, if_neg hrest, hjoined, List.append_assoc, List.cons_append]

/-- What is longer begins where the other's next fields begin. -/
theorem goesOn_of_append {short more : List α} {rest rest' : List (List α × List α)} (hmore : more ≠ [])
    (hrest : afterValue mark sep rest = more ++ afterValue mark sep rest') :
    GoesOn mark sep short rest (short ++ more) rest' := by
  obtain ⟨c, more, rfl⟩ := List.exists_cons_of_ne_nil hmore
  rw [afterValue] at hrest
  split_ifs at hrest with hnil
  · cases hrest
  · obtain ⟨rfl, hjoined⟩ := List.cons.inj hrest
    exact ⟨hnil, more, rfl, hjoined⟩

theorem value_eq_iff {value value' : List α} {rest rest' : List (List α × List α)} :
    value ++ afterValue mark sep rest = value' ++ afterValue mark sep rest' ↔
      value = value' ∧ joined mark sep rest = joined mark sep rest' ∨
        GoesOn mark sep value rest value' rest' ∨ GoesOn mark sep value' rest' value rest := by
  constructor
  · intro h
    by_cases hsame : value = value'
    · subst hsame
      exact .inl ⟨rfl, afterValue_eq_iff.mp (List.append_cancel_left h)⟩
    · obtain ⟨more, rfl, hrest⟩ | ⟨more, rfl, hrest⟩ := List.append_eq_append_iff.mp h
      · refine .inr (.inl (goesOn_of_append ?_ hrest))
        rintro rfl
        exact hsame (List.append_nil value).symm
      · refine .inr (.inr (goesOn_of_append ?_ hrest))
        rintro rfl
        exact hsame (List.append_nil value')
  · rintro (⟨rfl, hrest⟩ | hgoes | hgoes)
    · rw [afterValue_eq_iff.mpr hrest]
    · exact hgoes.text_eq
    · exact hgoes.text_eq.symm

theorem confused_cons_iff {name value name' value' : List α} {rest rest' : List (List α × List α)} :
    Confused mark sep ((name, value) :: rest) ((name', value') :: rest') ↔
      name = name' ∧ (value = value' ∧ Confused mark sep rest rest' ∨
        GoesOn mark sep value rest value' rest' ∨ GoesOn mark sep value' rest' value rest) := by
  constructor
  · rintro ⟨common, name₀, value₀, value₀', rest₀, rest₀', hfields, hfields', hgoes⟩
    cases common with
    | nil =>
      cases hfields
      cases hfields'
      exact ⟨rfl, .inr hgoes⟩
    | cons field common =>
      obtain ⟨rfl, hrest⟩ := List.cons.inj hfields
      obtain ⟨hfield, hrest'⟩ := List.cons.inj hfields'
      cases hfield
      exact ⟨rfl, .inl ⟨rfl, common, name₀, value₀, value₀', rest₀, rest₀', hrest, hrest', hgoes⟩⟩
  · rintro ⟨rfl, ⟨rfl, common, name₀, value₀, value₀', rest₀, rest₀', rfl, rfl, hgoes⟩ | hgoes⟩
    · exact ⟨(name, value) :: common, name₀, value₀, value₀', rest₀, rest₀', rfl, rfl, hgoes⟩
    · exact ⟨[], name, value, value', rest, rest', rfl, rfl, hgoes⟩

/-- Two lists of named fields with one text. -/
theorem joined_eq_iff {fields fields' : List (List α × List α)} (hnames : ∀ field ∈ fields, mark ∉ field.1)
    (hnames' : ∀ field ∈ fields', mark ∉ field.1) :
    joined mark sep fields = joined mark sep fields' ↔ fields = fields' ∨ Confused mark sep fields fields' := by
  have hnil : ∀ {fields : List (List α × List α)}, ¬ Confused mark sep [] fields ∧ ¬ Confused mark sep fields [] := by
    intro fields
    constructor
    · rintro ⟨common, name, value, value', rest, rest', hempty, -⟩
      cases common <;> cases hempty
    · rintro ⟨common, name, value, value', rest, rest', -, hempty, -⟩
      cases common <;> cases hempty
  induction fields generalizing fields' with
  | nil =>
    rw [or_iff_left hnil.1, eq_comm, eq_comm (a := ([] : List (List α × List α)))]
    exact joined_eq_nil
  | cons field fields ih =>
    cases fields' with
    | nil =>
      rw [or_iff_left hnil.2]
      exact joined_eq_nil
    | cons field' fields' =>
      obtain ⟨name, value⟩ := field
      obtain ⟨name', value'⟩ := field'
      rw [List.forall_mem_cons] at hnames hnames'
      have hrest : joined mark sep fields = joined mark sep fields' ↔
          fields = fields' ∨ Confused mark sep fields fields' := ih hnames.2 hnames'.2
      rw [joined_cons, joined_cons, append_inj hnames.1 hnames'.1, value_eq_iff, hrest, confused_cons_iff,
        List.cons.injEq, Prod.mk.injEq]
      tauto

end SeparatedFields
