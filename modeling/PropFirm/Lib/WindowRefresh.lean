import PropFirm.Lib.Rollup

/-!
# Refreshing a window of a rollup

The rows whose keys lie in a window are deleted and a selection is inserted under the primary key, which a kept
row may already hold. The outcome is a rebuild of the window and of nothing else exactly when the selection
stays inside the window and agrees with the full one there.
-/

namespace Rollup

variable {E K C : Type*}

/-- What a grouped query selects: one row for each of its keys. -/
structure Selection (K C : Type*) where
  keys : List K
  row : K → C

section Deleted

variable (inWindow : K → Prop) [DecidablePred inWindow]

def deleteWindow (store : K → Option C) (k : K) : Option C := if inWindow k then none else store k

variable {inWindow} {store store' : K → Option C} {k : K}

theorem deleteWindow_of_inside (hk : inWindow k) : deleteWindow inWindow store k = none := if_pos hk

theorem deleteWindow_of_outside (hk : ¬inWindow k) : deleteWindow inWindow store k = store k := if_neg hk

theorem deleteWindow_congr (houtside : ∀ k, ¬inWindow k → store' k = store k) :
    deleteWindow inWindow store' = deleteWindow inWindow store := by
  funext k
  by_cases hk : inWindow k
  · rw [deleteWindow_of_inside hk, deleteWindow_of_inside hk]
  · rw [deleteWindow_of_outside hk, deleteWindow_of_outside hk]
    exact houtside k hk

end Deleted

variable [DecidableEq K]

def Selection.find (s : Selection K C) (k : K) : Option C := if k ∈ s.keys then some (s.row k) else none

theorem Selection.find_eq_none {s : Selection K C} {k : K} : s.find k = none ↔ k ∉ s.keys := by
  rw [find, ite_eq_right_iff]
  exact ⟨fun hnone hk => Option.some_ne_none _ (hnone hk), fun hk hmem => absurd hmem hk⟩

theorem Selection.find_of_mem {s : Selection K C} {k : K} (hk : k ∈ s.keys) : s.find k = some (s.row k) :=
  if_pos hk

theorem Selection.mem_of_find_eq {s t : Selection K C} {k : K} (heq : s.find k = t.find k) (hk : k ∈ t.keys) :
    k ∈ s.keys := by
  by_contra hnot
  rw [find_eq_none.mpr hnot] at heq
  exact find_eq_none.mp heq.symm hk

def insertAll (s : Selection K C) (store : K → Option C) : Option (K → Option C) :=
  if ∀ k ∈ s.keys, (store k).isNone then some fun k => (s.find k).or (store k) else none

section Window

variable (inWindow : K → Prop) [DecidablePred inWindow]

def refreshWindow (s : Selection K C) (store : K → Option C) : Option (K → Option C) :=
  insertAll s (deleteWindow inWindow store)

/-- The refresh goes through, its window is as the full selection has it, the rest is as before, and a
second refresh finds nothing to change. -/
structure Rebuilds (s full : Selection K C) (store store' : K → Option C) : Prop where
  refreshed : refreshWindow inWindow s store = some store'
  inside : ∀ k, inWindow k → store' k = full.find k
  outside : ∀ k, ¬inWindow k → store' k = store k
  again : refreshWindow inWindow s store' = some store'

/-- The selection stays inside the window and agrees there with the full one. -/
structure Covers (s full : Selection K C) : Prop where
  stays : ∀ k ∈ s.keys, inWindow k
  agrees : ∀ k, inWindow k → s.find k = full.find k

variable {inWindow} {s full : Selection K C} {store store' : K → Option C} {k : K}

/-- An insert leaves a row under each key it selects, and needed the key to be free. -/
theorem insertAll_spec (hinsert : insertAll s store = some store') :
    (∀ k ∈ s.keys, store k = none ∧ store' k = some (s.row k)) ∧ ∀ k ∉ s.keys, store' k = store k := by
  obtain ⟨hfree, rfl⟩ := Option.ite_some_none_eq_some.mp hinsert
  constructor
  · intro k hk
    refine ⟨Option.isNone_iff_eq_none.mp (hfree k hk), ?_⟩
    dsimp only
    rw [Selection.find_of_mem hk, Option.some_or]
  · intro k hk
    dsimp only
    rw [Selection.find_eq_none.mpr hk, Option.none_or]

theorem refreshWindow_of_inside (hrefresh : refreshWindow inWindow s store = some store') (hk : inWindow k) :
    store' k = s.find k := by
  obtain ⟨hselected, hother⟩ := insertAll_spec hrefresh
  by_cases hmem : k ∈ s.keys
  · rw [(hselected k hmem).2, Selection.find_of_mem hmem]
  · rw [hother k hmem, deleteWindow_of_inside hk, Selection.find_eq_none.mpr hmem]

/-- A row selected outside the window is a collision or a change there. -/
theorem inside_of_refreshWindow (hrefresh : refreshWindow inWindow s store = some store')
    (houtside : ∀ k, ¬inWindow k → store' k = store k) (hmem : k ∈ s.keys) : inWindow k := by
  by_contra hk
  obtain ⟨hfree, hrow⟩ := (insertAll_spec hrefresh).1 k hmem
  rw [deleteWindow_of_outside hk] at hfree
  rw [houtside k hk, hfree] at hrow
  exact Option.some_ne_none _ hrow.symm

theorem Rebuilds.covers (hrebuilds : Rebuilds inWindow s full store store') : Covers inWindow s full where
  stays _ hmem := inside_of_refreshWindow hrebuilds.refreshed hrebuilds.outside hmem
  agrees k hk := by
    rw [← refreshWindow_of_inside hrebuilds.refreshed hk]
    exact hrebuilds.inside k hk

/-- What a covering refresh leaves. -/
def patched (inWindow : K → Prop) [DecidablePred inWindow] (full : Selection K C) (store : K → Option C) (k : K) :
    Option C :=
  if inWindow k then full.find k else store k

theorem Covers.refreshWindow_eq (hcovers : Covers inWindow s full) :
    refreshWindow inWindow s store = some (patched inWindow full store) := by
  have hfree : ∀ k ∈ s.keys, (deleteWindow inWindow store k).isNone := fun k hmem => by
    rw [deleteWindow_of_inside (hcovers.stays k hmem)]
    rfl
  rw [refreshWindow, insertAll, if_pos hfree]
  congr 1
  funext k
  by_cases hk : inWindow k
  · rw [deleteWindow_of_inside hk, Option.or_none, patched, if_pos hk]
    exact hcovers.agrees k hk
  · have hmem : k ∉ s.keys := fun hmem => hk (hcovers.stays k hmem)
    rw [Selection.find_eq_none.mpr hmem, Option.none_or, deleteWindow_of_outside hk, patched, if_neg hk]

theorem Covers.rebuilds (hcovers : Covers inWindow s full) (store : K → Option C) :
    Rebuilds inWindow s full store (patched inWindow full store) where
  refreshed := hcovers.refreshWindow_eq
  inside _ hk := if_pos hk
  outside _ hk := if_neg hk
  again := by
    have hkept : deleteWindow inWindow (patched inWindow full store) = deleteWindow inWindow store :=
      deleteWindow_congr fun _ hk => if_neg hk
    rw [refreshWindow, hkept]
    exact hcovers.refreshWindow_eq

/-- When the window is everything, nothing is kept. -/
theorem refreshWindow_of_forall (hall : ∀ k, inWindow k) : refreshWindow inWindow s store = some s.find := by
  have hcovers : Covers inWindow s s := ⟨fun k _ => hall k, fun _ _ => rfl⟩
  rw [hcovers.refreshWindow_eq]
  congr 1
  funext k
  exact if_pos (hall k)

end Window

section Groups

/-- The rows of a `GROUP BY`. -/
def groups (group : E → K) (aggregate : List E → C) (entries : List E) : Selection K C where
  keys := entries.map group
  row k := aggregate (entriesOf group entries k)

variable {group : E → K} {aggregate : List E → C} {reads : E → Prop} [DecidablePred reads]
  {inWindow : K → Prop} {entries : List E} {k : K}

theorem mem_groups_keys : k ∈ (groups group aggregate entries).keys ↔ ∃ e ∈ entries, group e = k := List.mem_map

theorem entriesOf_filter : entriesOf group (entries.filter reads) k = (entriesOf group entries k).filter reads := by
  rw [entriesOf, entriesOf, List.filter_filter, List.filter_filter]
  exact List.filter_congr fun e _ => Bool.and_comm _ _

theorem forall_of_length_filter {p : E → Prop} [DecidablePred p] {es : List E}
    (hlength : (es.filter p).length = es.length) : ∀ e ∈ es, p e := by
  simpa using List.length_filter_eq_length_iff.mp hlength

theorem mem_entriesOf {e : E} : e ∈ entriesOf group entries k ↔ e ∈ entries ∧ group e = k := by
  rw [entriesOf, List.mem_filter, decide_eq_true_iff]

theorem entriesOf_of_not_mem (hk : k ∉ entries.map group) : entriesOf group entries k = [] := by
  rw [entriesOf, List.filter_eq_nil_iff]
  intro e he
  simpa using fun hgroup : group e = k => hk (List.mem_map.mpr ⟨e, he, hgroup⟩)

theorem entriesOf_filter_of_forall (hall : ∀ e ∈ entries, group e = k → reads e) :
    entriesOf group (entries.filter reads) k = entriesOf group entries k := by
  rw [entriesOf_filter, List.filter_eq_self]
  intro e he
  rw [mem_entriesOf] at he
  exact decide_eq_true (hall e he.1 he.2)

/-- An aggregate that counts gives away that an entry was not read. -/
theorem covers_groups_iff (count : C → ℕ) (hcount : ∀ es, count (aggregate es) = es.length) :
    Covers inWindow (groups group aggregate (entries.filter reads)) (groups group aggregate entries) ↔
      ∀ e ∈ entries, (reads e ↔ inWindow (group e)) := by
  constructor
  · intro hcovers e he
    constructor
    · intro hreads
      exact hcovers.stays _ (List.mem_map_of_mem (List.mem_filter.mpr ⟨he, decide_eq_true hreads⟩))
    · intro hk
      have hmem : group e ∈ (groups group aggregate entries).keys := List.mem_map_of_mem he
      have hrow := hcovers.agrees _ hk
      rw [Selection.find_of_mem (Selection.mem_of_find_eq hrow hmem), Selection.find_of_mem hmem] at hrow
      have hlength := congrArg count (Option.some.inj hrow)
      simp only [groups, hcount] at hlength
      rw [entriesOf_filter] at hlength
      exact forall_of_length_filter hlength e (mem_entriesOf.mpr ⟨he, rfl⟩)
  · intro hwhole
    constructor
    · intro k hk
      obtain ⟨e, he, rfl⟩ := mem_groups_keys.mp hk
      rw [List.mem_filter, decide_eq_true_iff] at he
      exact (hwhole e he.1).mp he.2
    · intro k hk
      have hreads : ∀ e ∈ entries, group e = k → reads e := fun e he hgroup =>
        (hwhole e he).mpr (hgroup ▸ hk)
      have hkeys : k ∈ (groups group aggregate (entries.filter reads)).keys ↔
          k ∈ (groups group aggregate entries).keys := by
        rw [mem_groups_keys, mem_groups_keys]
        constructor
        · rintro ⟨e, he, hgroup⟩
          exact ⟨e, List.mem_of_mem_filter he, hgroup⟩
        · rintro ⟨e, he, hgroup⟩
          exact ⟨e, List.mem_filter.mpr ⟨he, decide_eq_true (hreads e he hgroup)⟩, hgroup⟩
      have hrow : (groups group aggregate (entries.filter reads)).row k =
          (groups group aggregate entries).row k :=
        congrArg aggregate (entriesOf_filter_of_forall hreads)
      simp only [Selection.find, hkeys, hrow]

end Groups

end Rollup
