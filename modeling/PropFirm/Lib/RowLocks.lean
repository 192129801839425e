import PropFirm.Lib.Table

/-!
# Row locks

Under read committed a transaction holds every row it has written until it ends. Its version of the
row is a draft that nobody else sees, and whoever else wants to write the row waits. `Drafts` has for
each key the transaction that holds its row and the version it has written; locking a row is drafting
it unchanged. A statement sees the committed rows with the drafts of its own transaction laid over
them. That `view` is what a commit publishes; a rollback only releases the rows.
-/

open Keyed (key)

/-- The version of the row under `k` that the transaction holding it has written. -/
structure Draft (τ ρ : Type*) {κ : Type*} [Keyed ρ κ] (k : κ) where
  owner : τ
  row : ρ
  key_row : key row = k

abbrev Drafts (τ ρ : Type*) {κ : Type*} [Keyed ρ κ] := (k : κ) → Option (Draft τ ρ k)

namespace Drafts

variable {τ ρ κ : Type*} [Keyed ρ κ]

def empty : Drafts τ ρ := fun _ => none

variable [DecidableEq τ]

/-- Nobody but `t` holds the row. -/
def free (d : Drafts τ ρ) (t : τ) (k : κ) : Bool := (d k).all fun e => e.owner = t

def release (d : Drafts τ ρ) (t : τ) : Drafts τ ρ := fun k => (d k).filter fun e => e.owner ≠ t

/-- The version of a row that `t` sees. -/
def overlay (d : Drafts τ ρ) (t : τ) : Table.Rewrite ρ where
  apply r := ((d (key r)).filter fun e => e.owner = t).elim r Draft.row
  key_apply r := by
    cases (d (key r)).filter fun e => e.owner = t with
    | none => rfl
    | some e => exact e.key_row

def view (rows : Table ρ) (d : Drafts τ ρ) (t : τ) : Table ρ := rows.update (fun _ => true) (d.overlay t)

theorem free_iff {d : Drafts τ ρ} {t : τ} {k : κ} : d.free t k = true ↔ ∀ e, d k = some e → e.owner = t := by
  simp [free, Option.all_eq_true]

omit [DecidableEq τ] in
/-- A row has one holder. -/
theorem owner_unique {d : Drafts τ ρ} {k k' : κ} (hkey : k = k') {e : Draft τ ρ k} {e' : Draft τ ρ k'}
    (hdraft : d k = some e) (hdraft' : d k' = some e') : e.owner = e'.owner := by
  subst hkey
  rw [Option.some.inj (hdraft.symm.trans hdraft')]

theorem release_eq_some {d : Drafts τ ρ} {t : τ} {k : κ} {e : Draft τ ρ k} :
    d.release t k = some e ↔ d k = some e ∧ e.owner ≠ t := by
  simp [release, Option.filter_eq_some_iff]

variable [DecidableEq κ]

/-- `t` takes the row of `r`, if it does not hold it already, and drafts `r`. -/
def put (d : Drafts τ ρ) (t : τ) (r : ρ) : Drafts τ ρ := fun k =>
  if hkey : key r = k then some ⟨t, r, hkey⟩ else d k

omit [DecidableEq τ] in
theorem put_of_ne (d : Drafts τ ρ) (t : τ) {r : ρ} {k : κ} (hne : key r ≠ k) : d.put t r k = d k :=
  dif_neg hne

omit [DecidableEq τ] in
theorem put_eq_some {d : Drafts τ ρ} {t : τ} {r : ρ} {k : κ} {e : Draft τ ρ k} (hput : d.put t r k = some e) :
    (key r = k ∧ e.owner = t ∧ e.row = r) ∨ (key r ≠ k ∧ d k = some e) := by
  by_cases hkey : key r = k
  · rw [put, dif_pos hkey] at hput
    cases hput
    exact .inl ⟨hkey, rfl, rfl⟩
  · exact .inr ⟨hkey, (put_of_ne d t hkey).symm.trans hput⟩

/-- Taking a free row leaves the drafts of everybody else. -/
theorem put_keeps {d : Drafts τ ρ} {t : τ} {r : ρ} (hfree : d.free t (key r) = true) {k : κ}
    {e : Draft τ ρ k} (hdraft : d k = some e) (howner : e.owner ≠ t) : d.put t r k = some e := by
  by_cases hkey : key r = k
  · subst hkey
    exact absurd (free_iff.mp hfree e hdraft) howner
  · exact (put_of_ne d t hkey).trans hdraft

variable {rows : Table ρ} {d : Drafts τ ρ} {t : τ} {k : κ}

theorem find?_view :
    (view rows d t).find? k
      = (rows.find? k).map fun r => ((d k).filter fun e => e.owner = t).elim r Draft.row := by
  rw [view, Table.find?_update]
  refine Option.map_congr fun r hr => ?_
  obtain rfl := (Table.find?_eq_some.mp hr).2
  exact if_pos rfl

theorem find?_view_of_own {r : ρ} {e : Draft τ ρ k} (hrow : rows.find? k = some r) (hdraft : d k = some e)
    (howner : e.owner = t) : (view rows d t).find? k = some e.row := by
  rw [find?_view, hrow, hdraft, Option.filter_some, if_pos (decide_eq_true howner)]
  rfl

theorem find?_view_of_others (hothers : ∀ e, d k = some e → e.owner ≠ t) :
    (view rows d t).find? k = rows.find? k := by
  have hnone : ((d k).filter fun e => e.owner = t) = none := by
    rw [Option.filter_eq_none_iff]
    intro e hdraft
    simpa using hothers e hdraft
  rw [find?_view, hnone]
  cases rows.find? k with
  | none => rfl
  | some r => rfl

/-- What a transaction sees of a row is its own draft, or the committed row when it has none. -/
theorem find?_view_eq_some {v : ρ} (hview : (view rows d t).find? k = some v) :
    (∃ r e, rows.find? k = some r ∧ d k = some e ∧ e.owner = t ∧ v = e.row) ∨
      (rows.find? k = some v ∧ ∀ e, d k = some e → e.owner ≠ t) := by
  by_cases hown : ∃ e, d k = some e ∧ e.owner = t
  · obtain ⟨e, hdraft, howner⟩ := hown
    obtain ⟨r, hrow, _⟩ := Option.map_eq_some_iff.mp (find?_view.symm.trans hview)
    rw [find?_view_of_own hrow hdraft howner] at hview
    exact .inl ⟨r, e, hrow, hdraft, howner, (Option.some.inj hview).symm⟩
  · have hothers : ∀ e, d k = some e → e.owner ≠ t := fun e hdraft howner => hown ⟨e, hdraft, howner⟩
    exact .inr ⟨(find?_view_of_others hothers).symm.trans hview, hothers⟩

end Drafts
