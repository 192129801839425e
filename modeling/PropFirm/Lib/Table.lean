import Mathlib.Data.List.Nodup

/-!
# Keyed tables

A table is a list of rows whose keys are pairwise distinct; the distinctness is a field, so every
operation below returns a table again and a key names at most one row. The operations are the three
a relational store offers: insert a row under a fresh key, look a key up, and rewrite or delete all rows
a condition selects.
-/

theorem List.find?_key_eq_some {β κ : Type*} [DecidableEq κ] {f : β → κ} {vs : List β}
    (hnodup : (vs.map f).Nodup) {k : κ} {v : β} :
    (vs.find? fun w => f w = k) = some v ↔ v ∈ vs ∧ f v = k := by
  constructor
  · intro hfind
    exact ⟨List.mem_of_find?_eq_some hfind, by simpa using List.find?_some hfind⟩
  · rintro ⟨hmem, rfl⟩
    obtain ⟨w, hw⟩ := Option.isSome_iff_exists.mp (List.find?_isSome (p := fun w => f w = f v).mpr
      ⟨v, hmem, by simp⟩)
    have hkey : f w = f v := by simpa using List.find?_some hw
    rw [hw, List.inj_on_of_nodup_map hnodup (List.mem_of_find?_eq_some hw) hmem hkey]

/-- With distinct keys, selecting by a key that is there leaves one element. -/
theorem List.filter_key_eq_singleton {β κ : Type*} [DecidableEq κ] {f : β → κ} {vs : List β}
    (hnodup : (vs.map f).Nodup) {v : β} (hmem : v ∈ vs) : (vs.filter fun w => f w = f v) = [v] := by
  induction vs with
  | nil => cases hmem
  | cons w vs ih =>
    rw [map_cons, nodup_cons] at hnodup
    obtain ⟨hfresh, hnodup⟩ := hnodup
    rcases mem_cons.mp hmem with rfl | hmem
    · have hnone : (vs.filter fun w => f w = f v) = [] := by
        rw [filter_eq_nil_iff]
        intro u hu
        simpa using fun h : f u = f v => hfresh (h ▸ mem_map_of_mem hu)
      simp [hnone]
    · have hne : f w ≠ f v := fun h => hfresh (h ▸ mem_map_of_mem hmem)
      simp [hne, ih hnodup hmem]

class Keyed (ρ : Type*) (κ : outParam Type*) where
  key : ρ → κ

open Keyed (key)

/-- Rows with pairwise distinct keys. -/
structure Table (ρ : Type*) {κ : Type*} [Keyed ρ κ] where
  rows : List ρ
  nodup : (rows.map key).Nodup

namespace Table

/-- What a client learns of a statement: that it is done, or an error although it is done, or an error. -/
inductive Reply
  | ok | lost | failed
  deriving DecidableEq

variable {ρ κ : Type*} [Keyed ρ κ]

/-- A row rewriting that leaves the key alone. -/
structure Rewrite (ρ : Type*) {κ : Type*} [Keyed ρ κ] where
  apply : ρ → ρ
  key_apply : ∀ r, key (apply r) = key r

def empty : Table ρ := ⟨[], List.nodup_nil⟩

def single (r : ρ) : Table ρ := ⟨[r], List.nodup_singleton _⟩

@[simp] theorem rows_empty : (empty : Table ρ).rows = [] := rfl

def update (t : Table ρ) (p : ρ → Bool) (f : Rewrite ρ) : Table ρ where
  rows := t.rows.map fun r => if p r then f.apply r else r
  nodup := by
    have hkey : ((t.rows.map fun r => if p r then f.apply r else r).map key) = t.rows.map key := by
      rw [List.map_map]
      refine List.map_congr_left fun r _ => ?_
      by_cases hp : p r
      · simp [hp, f.key_apply]
      · simp [hp]
    exact hkey ▸ t.nodup

theorem rows_update (t : Table ρ) (p : ρ → Bool) (f : Rewrite ρ) :
    (t.update p f).rows = t.rows.map fun r => if p r then f.apply r else r := rfl

/-- A row that no rewriting gives was there before. -/
theorem mem_of_mem_update {t : Table ρ} {p : ρ → Bool} {f : Rewrite ρ} {r : ρ}
    (hmem : r ∈ (t.update p f).rows) (hkept : ∀ s, f.apply s ≠ r) : r ∈ t.rows := by
  obtain ⟨s, hs, rfl⟩ := List.mem_map.mp hmem
  by_cases hp : p s
  · exact absurd (if_pos hp).symm (hkept s)
  · rwa [if_neg hp]

/-- Delete the rows a condition selects. -/
def delete (t : Table ρ) (p : ρ → Bool) : Table ρ where
  rows := t.rows.filter fun r => !p r
  nodup := t.nodup.sublist (List.filter_sublist.map key)

theorem mem_delete {t : Table ρ} {p : ρ → Bool} {r : ρ} :
    r ∈ (t.delete p).rows ↔ r ∈ t.rows ∧ p r = false := by
  rw [delete, List.mem_filter, Bool.not_eq_true']

section Lookup

variable [DecidableEq κ]

def find? (t : Table ρ) (k : κ) : Option ρ := t.rows.find? fun r => key r = k

/-- Insert a row, refused when its key is taken. -/
def insert? (t : Table ρ) (r : ρ) : Option (Table ρ) :=
  if hfresh : key r ∈ t.rows.map key then none
  else some ⟨r :: t.rows, List.nodup_cons.mpr ⟨hfresh, t.nodup⟩⟩

def updateAt (t : Table ρ) (k : κ) (f : Rewrite ρ) : Table ρ := t.update (fun r => key r = k) f

/-- Rewrite every row a list of values names, each by its own value: `UPDATE … FROM`. -/
def updateFrom {β : Type*} (t : Table ρ) (vs : List β) (on : β → κ) (f : β → Rewrite ρ) : Table ρ where
  rows := t.rows.map fun r => (vs.find? fun v => on v = key r).elim r fun v => (f v).apply r
  nodup := by
    have hkey : ((t.rows.map fun r =>
        (vs.find? fun v => on v = key r).elim r fun v => (f v).apply r).map key) = t.rows.map key := by
      rw [List.map_map]
      refine List.map_congr_left fun r _ => ?_
      cases hfind : vs.find? fun v => on v = key r with
      | none => simp [hfind]
      | some v => simp [hfind, (f v).key_apply]
    exact hkey ▸ t.nodup

theorem find?_eq_some {t : Table ρ} {k : κ} {r : ρ} :
    t.find? k = some r ↔ r ∈ t.rows ∧ key r = k :=
  List.find?_key_eq_some t.nodup

theorem find?_eq_none {t : Table ρ} {k : κ} : t.find? k = none ↔ ∀ r ∈ t.rows, key r ≠ k := by
  simp [find?]

theorem insert?_eq_some {t t' : Table ρ} {r : ρ} (hinsert : t.insert? r = some t') :
    (∀ s ∈ t.rows, key s ≠ key r) ∧ t'.rows = r :: t.rows := by
  unfold insert? at hinsert
  split at hinsert
  · cases hinsert
  · rename_i hfresh
    cases hinsert
    refine ⟨fun s hs hkey => hfresh ?_, rfl⟩
    exact List.mem_map.mpr ⟨s, hs, hkey⟩

theorem insert?_isSome {t : Table ρ} {r : ρ} (hfresh : t.find? (key r) = none) :
    (t.insert? r).isSome = true := by
  have hnot : key r ∉ t.rows.map key := by
    intro hmem
    obtain ⟨s, hs, hkey⟩ := List.mem_map.mp hmem
    exact find?_eq_none.mp hfresh s hs hkey
  rw [insert?, dif_neg hnot]
  rfl

theorem find?_update (t : Table ρ) (p : ρ → Bool) (f : Rewrite ρ) (k : κ) :
    (t.update p f).find? k = (t.find? k).map fun r => if p r then f.apply r else r := by
  rw [find?, rows_update, List.find?_map, find?]
  refine congrArg _ (congrArg (List.find? · _) (funext fun r => ?_))
  rw [Function.comp_apply]
  by_cases hp : p r
  · rw [if_pos hp, f.key_apply]
  · rw [if_neg hp]

theorem find?_updateAt (t : Table ρ) (k : κ) (f : Rewrite ρ) (k' : κ) :
    (t.updateAt k f).find? k' = (t.find? k').map fun r => if k' = k then f.apply r else r := by
  rw [updateAt, find?_update]
  refine Option.map_congr fun r hr => ?_
  simp only [decide_eq_true_eq, (find?_eq_some.mp hr).2]

theorem find?_of_insert? {t t' : Table ρ} {r : ρ} (hinsert : t.insert? r = some t') (k : κ) :
    t'.find? k = if key r = k then some r else t.find? k := by
  rw [find?, (insert?_eq_some hinsert).2, List.find?_cons, find?]
  by_cases hk : key r = k <;> simp [hk]

theorem mem_updateAt {t : Table ρ} {k : κ} {f : Rewrite ρ} {r : ρ} (hmem : r ∈ (t.updateAt k f).rows) :
    r ∈ t.rows ∨ ∃ s ∈ t.rows, key s = k ∧ f.apply s = r := by
  obtain ⟨s, hs, rfl⟩ := List.mem_map.mp hmem
  by_cases hk : key s = k
  · exact .inr ⟨s, hs, hk, (if_pos (decide_eq_true hk)).symm⟩
  · rw [if_neg (by simpa using hk)]
    exact .inl hs

/-- Rewriting the row of a key leaves the rows around it as they are. -/
theorem exists_rows_updateAt {t : Table ρ} {k : κ} {r : ρ} (hrow : t.find? k = some r) :
    ∃ before after, t.rows = before ++ r :: after ∧
      ∀ f : Rewrite ρ, (t.updateAt k f).rows = before ++ f.apply r :: after := by
  obtain ⟨hmem, rfl⟩ := find?_eq_some.mp hrow
  obtain ⟨before, after, hrows⟩ := List.append_of_mem hmem
  have hnodup := t.nodup
  rw [hrows, List.map_append, List.map_cons, List.nodup_middle, List.nodup_cons, ← List.map_append] at hnodup
  have hother : ∀ s ∈ before ++ after, ∀ f : Rewrite ρ, (if key s = key r then f.apply s else s) = s :=
    fun s hs f => if_neg fun hkey : key s = key r => hnodup.1 (hkey ▸ List.mem_map_of_mem hs)
  refine ⟨before, after, hrows, fun f => ?_⟩
  have hbefore := List.map_congr_left fun s hs => hother s (List.mem_append_left after hs) f
  have hafter := List.map_congr_left fun s hs => hother s (List.mem_append_right before hs) f
  simp only [updateAt, rows_update, hrows, List.map_append, List.map_cons, decide_eq_true_eq, if_true]
  rw [hbefore, hafter, List.map_id', List.map_id']

/-- Rewriting a row that was not selected adds it to the selected rows or leaves them as they are. -/
theorem filter_updateAt_perm {t : Table ρ} {k : κ} {r : ρ} (hrow : t.find? k = some r) (f : Rewrite ρ)
    {q : ρ → Bool} (hout : q r = false) :
    ((t.updateAt k f).rows.filter q).Perm ([f.apply r].filter q ++ t.rows.filter q) := by
  obtain ⟨before, after, hrows, hupdated⟩ := exists_rows_updateAt hrow
  have hafter : (r :: after).filter q = after.filter q := List.filter_cons_of_neg (by simp [hout])
  rw [hupdated, hrows, List.filter_append, List.filter_append, hafter, ← List.singleton_append,
    List.filter_append]
  exact List.perm_append_comm_assoc _ _ _

theorem updateFrom_singleton {β : Type*} (t : Table ρ) (v : β) (on : β → κ) (f : β → Rewrite ρ) :
    t.updateFrom [v] on f = t.updateAt (on v) (f v) := by
  have hrows : (t.updateFrom [v] on f).rows = (t.updateAt (on v) (f v)).rows := by
    rw [updateFrom, updateAt, rows_update]
    refine List.map_congr_left fun r _ => ?_
    by_cases hkey : on v = key r
    · simp [hkey]
    · simp [hkey, Ne.symm hkey]
  rw [updateFrom, updateAt, update, mk.injEq]
  exact hrows

/-- Delete the row of a key. -/
def erase (t : Table ρ) (k : κ) : Table ρ := t.delete fun r => key r = k

theorem find?_erase_eq_some {t : Table ρ} {k k' : κ} {r : ρ} :
    (t.erase k).find? k' = some r ↔ k' ≠ k ∧ t.find? k' = some r := by
  rw [find?_eq_some, find?_eq_some, erase, mem_delete, decide_eq_false_iff_not]
  constructor
  · rintro ⟨⟨hmem, hne⟩, rfl⟩
    exact ⟨hne, hmem, rfl⟩
  · rintro ⟨hne, hmem, rfl⟩
    exact ⟨⟨hmem, hne⟩, rfl⟩

/-- The row of a key is there and has a property. -/
def HasAt (t : Table ρ) (p : ρ → Prop) (k : κ) : Prop := ∃ r, t.find? k = some r ∧ p r

variable {t t' : Table ρ} {p q : ρ → Prop} {k k' : κ} {r : ρ}

theorem HasAt.mono (hhas : t.HasAt p k) (himp : ∀ r, p r → q r) : t.HasAt q k :=
  hhas.imp fun r hr => ⟨hr.1, himp r hr.2⟩

theorem not_hasAt_of_rows_eq_nil (hempty : t.rows = []) : ¬ t.HasAt p k := by
  rintro ⟨r, hr, _⟩
  have hmem := (find?_eq_some.mp hr).1
  rw [hempty] at hmem
  exact List.not_mem_nil hmem

theorem hasAt_iff (hrow : t.find? k = some r) : t.HasAt p k ↔ p r := by
  constructor
  · rintro ⟨s, hs, hp⟩
    rwa [Option.some.inj (hrow.symm.trans hs)]
  · exact fun hp => ⟨r, hrow, hp⟩

theorem hasAt_updateAt {f : Rewrite ρ} (hrow : t.find? k = some r) :
    (t.updateAt k f).HasAt p k' ↔ k' = k ∧ p (f.apply r) ∨ k' ≠ k ∧ t.HasAt p k' := by
  by_cases hk : k' = k
  · subst hk
    simp [HasAt, find?_updateAt, hrow]
  · simp [HasAt, find?_updateAt, hk]

theorem hasAt_erase : (t.erase k).HasAt p k' ↔ k' ≠ k ∧ t.HasAt p k' := by
  simp only [HasAt, find?_erase_eq_some, and_assoc, exists_and_left]

theorem hasAt_of_insert? (hinsert : t.insert? r = some t') :
    t'.HasAt p k ↔ k = key r ∧ p r ∨ k ≠ key r ∧ t.HasAt p k := by
  by_cases hk : k = key r
  · subst hk
    simp [HasAt, find?_of_insert? hinsert]
  · simp [HasAt, find?_of_insert? hinsert, hk, Ne.symm hk]

end Lookup

end Table
