import Mathlib.Data.List.Nodup
import Mathlib.Data.List.Count
import Mathlib.Data.Finset.Card

/-!
# Maps that keep the order of insertion

A map as a list of entries, one for each key. Setting a key that is there leaves its place, and setting
another one puts it at the end. A map that is filled from a list, item after item, holds under each key
what the items of that key alone would have made there.
-/

variable {κ ν ι : Type*}

structure InsertionMap (κ ν : Type*) where
  entries : List (κ × ν)
  nodup : (entries.map Prod.fst).Nodup

namespace InsertionMap

def empty : InsertionMap κ ν := ⟨[], List.nodup_nil⟩

def keys (m : InsertionMap κ ν) : List κ := m.entries.map Prod.fst

def values (m : InsertionMap κ ν) : List ν := m.entries.map Prod.snd

variable [DecidableEq κ]

def get? (m : InsertionMap κ ν) (k : κ) : Option ν := (m.entries.find? fun e => e.1 = k).map Prod.snd

def modifyEntries (k : κ) (f : Option ν → ν) : List (κ × ν) → List (κ × ν)
  | [] => [(k, f none)]
  | e :: es => if e.1 = k then (k, f (some e.2)) :: es else e :: modifyEntries k f es

theorem map_fst_modifyEntries (k : κ) (f : Option ν → ν) (es : List (κ × ν)) :
    (modifyEntries k f es).map Prod.fst
      = if k ∈ es.map Prod.fst then es.map Prod.fst else es.map Prod.fst ++ [k] := by
  induction es with
  | nil => rfl
  | cons e es ih =>
    rw [modifyEntries, List.map_cons]
    by_cases he : e.1 = k
    · rw [if_pos he, if_pos (he ▸ List.mem_cons_self ..), List.map_cons, he]
    · rw [if_neg he, List.map_cons, ih]
      by_cases hmem : k ∈ es.map Prod.fst
      · rw [if_pos hmem, if_pos (List.mem_cons_of_mem _ hmem)]
      · rw [if_neg hmem, if_neg, List.cons_append]
        rw [List.mem_cons]
        rintro (rfl | hmem')
        · exact he rfl
        · exact hmem hmem'

theorem find?_modifyEntries (k : κ) (f : Option ν → ν) (es : List (κ × ν)) (k' : κ) :
    ((modifyEntries k f es).find? fun e => e.1 = k').map Prod.snd
      = if k' = k then some (f ((es.find? fun e => e.1 = k).map Prod.snd))
        else (es.find? fun e => e.1 = k').map Prod.snd := by
  induction es with
  | nil =>
    rw [modifyEntries, List.find?_cons, List.find?_nil]
    by_cases hk : k' = k
    · subst hk
      simp
    · simp [hk, Ne.symm hk]
  | cons e es ih =>
    rw [modifyEntries, List.find?_cons, List.find?_cons]
    by_cases he : e.1 = k
    · subst he
      by_cases hk : k' = e.1
      · subst hk
        simp
      · simp [hk, Ne.symm hk]
    · by_cases hk : e.1 = k'
      · have hne : k' ≠ k := fun h => he (hk.trans h)
        simp [hk, hne]
      · simpa [he, hk] using ih

/-- Set a key, the new value being made from the old one. -/
def modify (m : InsertionMap κ ν) (k : κ) (f : Option ν → ν) : InsertionMap κ ν where
  entries := modifyEntries k f m.entries
  nodup := by
    rw [map_fst_modifyEntries]
    split
    · exact m.nodup
    · rename_i hnot
      exact List.Nodup.append m.nodup (List.nodup_singleton k) (List.disjoint_singleton.mpr hnot)

def set (m : InsertionMap κ ν) (k : κ) (v : ν) : InsertionMap κ ν := m.modify k fun _ => v

section Entries

variable (m : InsertionMap κ ν) (k : κ) (f : Option ν → ν)

theorem keys_modify : (m.modify k f).keys = if k ∈ m.keys then m.keys else m.keys ++ [k] :=
  map_fst_modifyEntries k f m.entries

theorem mem_keys_modify {k' : κ} : k' ∈ (m.modify k f).keys ↔ k' = k ∨ k' ∈ m.keys := by
  rw [keys_modify]
  split
  · rename_i hmem
    constructor
    · exact Or.inr
    · rintro (rfl | hmem')
      · exact hmem
      · exact hmem'
  · rw [List.mem_append, List.mem_singleton, or_comm]

theorem get?_modify (k' : κ) : (m.modify k f).get? k' = if k' = k then some (f (m.get? k)) else m.get? k' :=
  find?_modifyEntries k f m.entries k'

@[simp] theorem get?_empty : (empty : InsertionMap κ ν).get? k = none := rfl

theorem get?_set (v : ν) (k' : κ) : (m.set k v).get? k' = if k' = k then some v else m.get? k' :=
  m.get?_modify k _ k'

end Entries

theorem fst_of_find? {es : List (κ × ν)} {k : κ} {e : κ × ν} (he : es.find? (fun e => e.1 = k) = some e) :
    e.1 = k := by
  have hkey := List.find?_some he
  exact of_decide_eq_true hkey

theorem mem_entries_iff {m : InsertionMap κ ν} {k : κ} {v : ν} : (k, v) ∈ m.entries ↔ m.get? k = some v := by
  rw [get?, Option.map_eq_some_iff]
  constructor
  · intro hmem
    obtain ⟨e, he⟩ : ∃ e, m.entries.find? (fun e => e.1 = k) = some e := by
      rw [← Option.isSome_iff_exists, List.find?_isSome]
      exact ⟨(k, v), hmem, decide_eq_true rfl⟩
    have hsame := List.inj_on_of_nodup_map m.nodup (List.mem_of_find?_eq_some he) hmem (fst_of_find? he)
    exact ⟨e, he, by rw [hsame]⟩
  · rintro ⟨e, he, rfl⟩
    rw [← fst_of_find? he]
    exact List.mem_of_find?_eq_some he

theorem mem_keys_iff {m : InsertionMap κ ν} {k : κ} : k ∈ m.keys ↔ (m.get? k).isSome := by
  rw [keys, List.mem_map, Option.isSome_iff_exists]
  constructor
  · rintro ⟨⟨k, v⟩, hmem, rfl⟩
    exact ⟨v, mem_entries_iff.mp hmem⟩
  · rintro ⟨v, hv⟩
    exact ⟨(k, v), mem_entries_iff.mpr hv, rfl⟩

theorem mem_values_iff {m : InsertionMap κ ν} {v : ν} : v ∈ m.values ↔ ∃ k, m.get? k = some v := by
  rw [values, List.mem_map]
  constructor
  · rintro ⟨⟨k, v⟩, hmem, rfl⟩
    exact ⟨k, mem_entries_iff.mp hmem⟩
  · rintro ⟨k, hk⟩
    exact ⟨(k, v), mem_entries_iff.mpr hk, rfl⟩

/-- Keep the entries that pass a test. -/
def filter (m : InsertionMap κ ν) (p : κ × ν → Bool) : InsertionMap κ ν where
  entries := m.entries.filter p
  nodup := m.nodup.sublist (List.Sublist.map _ List.filter_sublist)

theorem get?_filter_eq_some {m : InsertionMap κ ν} {p : κ × ν → Bool} {k : κ} {v : ν} :
    (m.filter p).get? k = some v ↔ m.get? k = some v ∧ p (k, v) = true := by
  rw [← mem_entries_iff, ← mem_entries_iff]
  exact List.mem_filter

theorem nodup_map_values {α : Type*} {m : InsertionMap κ ν} {f : ν → α}
    (hf : ∀ k v, m.get? k = some v → ∀ k' v', m.get? k' = some v' → f v = f v' → k = k') :
    (m.values.map f).Nodup := by
  rw [values, List.map_map]
  refine List.Nodup.map_on ?_ (List.Nodup.of_map _ m.nodup)
  rintro ⟨k, v⟩ he ⟨k', v'⟩ he' hsame
  rw [mem_entries_iff] at he he'
  have hkey := hf k v he k' v' he' hsame
  subst hkey
  rw [he] at he'
  rw [Option.some.inj he']

/-- Each key holds what the items of that key have made of it. -/
theorem get?_foldl_modify (key : ι → κ) (f : ι → Option ν → ν) (items : List ι) (m : InsertionMap κ ν) (k : κ) :
    (items.foldl (fun m x => m.modify (key x) (f x)) m).get? k
      = (items.filter fun x => key x = k).foldl (fun held x => some (f x held)) (m.get? k) := by
  induction items generalizing m with
  | nil => rfl
  | cons x items ih =>
    rw [List.foldl_cons, ih, get?_modify]
    by_cases hkey : key x = k
    · rw [if_pos hkey.symm, List.filter_cons, if_pos (decide_eq_true hkey), List.foldl_cons, hkey]
    · rw [if_neg (Ne.symm hkey), List.filter_cons, if_neg (by rwa [decide_eq_true_eq])]

/-! ### Groups and counts -/

/-- The items by their keys, in their order. -/
def groups (key : ι → κ) (value : ι → ν) (items : List ι) : InsertionMap κ (List ν) :=
  items.foldl (fun m x => m.modify (key x) fun held => held.getD [] ++ [value x]) empty

theorem getD_groups (key : ι → κ) (value : ι → ν) (items : List ι) (k : κ) :
    ((groups key value items).get? k).getD [] = (items.filter fun x => key x = k).map value := by
  have hfold : ∀ (xs : List ι) (held : Option (List ν)),
      (xs.foldl (fun held x => some (held.getD [] ++ [value x])) held).getD [] = held.getD [] ++ xs.map value := by
    intro xs
    induction xs with
    | nil => exact fun held => (List.append_nil _).symm
    | cons x xs ih =>
      intro held
      rw [List.foldl_cons, ih, Option.getD_some, List.append_assoc, List.map_cons, List.singleton_append]
  rw [groups, get?_foldl_modify, hfold]
  rfl

/-- The group of an item, and there are no others. -/
theorem mem_entries_groups {key : ι → κ} {value : ι → ν} {items : List ι} {k : κ} {members : List ν} :
    (k, members) ∈ (groups key value items).entries ↔
      (∃ x ∈ items, key x = k) ∧ members = (items.filter fun x => key x = k).map value := by
  rw [mem_entries_iff]
  have hget := getD_groups key value items k
  constructor
  · intro hmembers
    rw [hmembers, Option.getD_some] at hget
    refine ⟨?_, hget⟩
    by_contra hnone
    push Not at hnone
    have hfilter : items.filter (fun x => key x = k) = [] :=
      List.filter_eq_nil_iff.mpr fun x hx => by rw [decide_eq_true_eq]; exact hnone x hx
    rw [groups, get?_foldl_modify, hfilter] at hmembers
    cases hmembers
  · rintro ⟨⟨x, hx, hkey⟩, rfl⟩
    cases hheld : (groups key value items).get? k with
    | none =>
      rw [hheld] at hget
      have hmem : value x ∈ (items.filter fun x => key x = k).map value :=
        List.mem_map_of_mem (List.mem_filter.mpr ⟨hx, decide_eq_true hkey⟩)
      rw [← hget] at hmem
      exact absurd hmem List.not_mem_nil
    | some members =>
      rw [hheld, Option.getD_some] at hget
      rw [hget]

theorem mem_values_groups {key : ι → κ} {value : ι → ν} {items : List ι} {members : List ν} :
    members ∈ (groups key value items).values ↔
      ∃ x ∈ items, members = (items.filter fun y => key y = key x).map value := by
  rw [values, List.mem_map]
  constructor
  · rintro ⟨⟨k, members⟩, hentry, rfl⟩
    obtain ⟨⟨x, hx, rfl⟩, hmembers⟩ := mem_entries_groups.mp hentry
    exact ⟨x, hx, hmembers⟩
  · rintro ⟨x, hx, rfl⟩
    exact ⟨(key x, _), mem_entries_groups.mpr ⟨⟨x, hx, rfl⟩, rfl⟩, rfl⟩

/-- No item is in two groups. -/
theorem pairwise_values_groups (key : ι → κ) (items : List ι) :
    (groups key (fun x => x) items).values.Pairwise fun members members' => ∀ x ∈ members, x ∉ members' := by
  have hkeys : (groups key (fun x => x) items).entries.Pairwise fun e e' => e.1 ≠ e'.1 :=
    List.pairwise_map.mp (groups key (fun x => x) items).nodup
  refine List.pairwise_map.mpr (hkeys.imp_of_mem fun {e e'} he he' hne x hx hx' => ?_)
  obtain ⟨-, hmembers⟩ := mem_entries_groups.mp he
  obtain ⟨-, hmembers'⟩ := mem_entries_groups.mp he'
  rw [hmembers, List.map_id'] at hx
  rw [hmembers', List.map_id'] at hx'
  exact hne ((of_decide_eq_true (List.mem_filter.mp hx).2).symm.trans (of_decide_eq_true (List.mem_filter.mp hx').2))

/-- How often each key occurs. -/
def tally (items : List κ) : InsertionMap κ ℕ :=
  items.foldl (fun m x => m.modify x fun held => held.getD 0 + 1) empty

theorem getD_tally (items : List κ) (k : κ) : ((tally items).get? k).getD 0 = items.count k := by
  have hfold : ∀ (xs : List κ) (held : Option ℕ),
      (xs.foldl (fun held _ => some (held.getD 0 + 1)) held).getD 0 = held.getD 0 + xs.length := by
    intro xs
    induction xs with
    | nil => exact fun held => rfl
    | cons x xs ih =>
      intro held
      rw [List.foldl_cons, ih, Option.getD_some, List.length_cons]
      omega
  rw [tally, get?_foldl_modify (fun x => x), hfold, get?_empty, List.count_eq_length_filter]
  rw [Option.getD_none, Nat.zero_add]
  rfl

theorem get?_tally_eq_some {items : List κ} {k : κ} {n : ℕ} (hpos : 0 < n) :
    (tally items).get? k = some n ↔ items.count k = n := by
  rw [← getD_tally]
  cases (tally items).get? k with
  | none => exact iff_of_false (fun h => by cases h) (fun h => (Nat.ne_of_lt hpos) h)
  | some held => exact Option.some_inj

/-! ### Sets -/

/-- `Set.add`. -/
def addMember [DecidableEq ν] (members : List ν) (v : ν) : List ν := if v ∈ members then members else members ++ [v]

/-- The different values of the items of each key. -/
def sets [DecidableEq ν] (key : ι → κ) (value : ι → ν) (items : List ι) : InsertionMap κ (List ν) :=
  items.foldl (fun m x => m.modify (key x) fun held => addMember (held.getD []) (value x)) empty

section Sets

variable [DecidableEq ν]

theorem addMember_spec {members : List ν} (hnodup : members.Nodup) (v : ν) :
    (addMember members v).Nodup ∧ ∀ w, w ∈ addMember members v ↔ w = v ∨ w ∈ members := by
  rw [addMember]
  split
  · rename_i hmem
    refine ⟨hnodup, fun w => ⟨Or.inr, ?_⟩⟩
    rintro (rfl | hw)
    · exact hmem
    · exact hw
  · rename_i hnot
    refine ⟨List.Nodup.append hnodup (List.nodup_singleton v) (List.disjoint_singleton.mpr hnot), fun w => ?_⟩
    rw [List.mem_append, List.mem_singleton, or_comm]

theorem sets_spec (key : ι → κ) (value : ι → ν) (items : List ι) (k : κ) :
    (((sets key value items).get? k).getD []).Nodup ∧
      ∀ v, v ∈ ((sets key value items).get? k).getD [] ↔ ∃ x ∈ items, key x = k ∧ value x = v := by
  have hfold : ∀ (xs : List ι) (held : Option (List ν)), (held.getD []).Nodup →
      ((xs.foldl (fun held x => some (addMember (held.getD []) (value x))) held).getD []).Nodup ∧
        ∀ v, v ∈ (xs.foldl (fun held x => some (addMember (held.getD []) (value x))) held).getD [] ↔
          v ∈ held.getD [] ∨ v ∈ xs.map value := by
    intro xs
    induction xs with
    | nil =>
      intro held hnodup
      refine ⟨hnodup, fun v => ?_⟩
      rw [List.map_nil, List.foldl_nil]
      exact (or_iff_left List.not_mem_nil).symm
    | cons x xs ih =>
      intro held hnodup
      obtain ⟨hadded, hmem⟩ := addMember_spec hnodup (value x)
      obtain ⟨hrest, hall⟩ := ih (some (addMember (held.getD []) (value x))) hadded
      refine ⟨hrest, fun v => ?_⟩
      rw [List.foldl_cons, hall, Option.getD_some, hmem, List.map_cons, List.mem_cons]
      tauto
  have hget := get?_foldl_modify key (fun x held => addMember (held.getD []) (value x)) items empty k
  obtain ⟨hnodup, hmem⟩ := hfold (items.filter fun x => key x = k) none List.nodup_nil
  rw [sets, hget, get?_empty]
  refine ⟨hnodup, fun v => ?_⟩
  rw [hmem, List.mem_map]
  constructor
  · rintro (hnil | ⟨x, hx, rfl⟩)
    · cases hnil
    · obtain ⟨hx, hkey⟩ := List.mem_filter.mp hx
      exact ⟨x, hx, of_decide_eq_true hkey, rfl⟩
  · rintro ⟨x, hx, hkey, rfl⟩
    exact .inr ⟨x, List.mem_filter.mpr ⟨hx, decide_eq_true hkey⟩, rfl⟩

/-- Two values are together in as many sets as they have keys in common. -/
theorem countP_sets (key : ι → κ) (value : ι → ν) (items : List ι) (v w : ν) :
    ((sets key value items).values.countP fun members => v ∈ members ∧ w ∈ members)
      = (((items.filter fun x => value x = v).map key).toFinset ∩
          ((items.filter fun x => value x = w).map key).toFinset).card := by
  let m := sets key value items
  have hkeys : (((m.entries.filter fun e => v ∈ e.2 ∧ w ∈ e.2).map Prod.fst).toFinset)
      = ((items.filter fun x => value x = v).map key).toFinset ∩
          ((items.filter fun x => value x = w).map key).toFinset := by
    ext k
    have hspec := (sets_spec key value items k).2
    have hkey : ∀ u, k ∈ (items.filter fun x => value x = u).map key ↔ u ∈ ((m.get? k).getD []) := by
      intro u
      rw [hspec, List.mem_map]
      constructor
      · rintro ⟨x, hx, rfl⟩
        obtain ⟨hx, hvalue⟩ := List.mem_filter.mp hx
        exact ⟨x, hx, rfl, of_decide_eq_true hvalue⟩
      · rintro ⟨x, hx, rfl, rfl⟩
        exact ⟨x, List.mem_filter.mpr ⟨hx, decide_eq_true rfl⟩, rfl⟩
    rw [Finset.mem_inter, List.mem_toFinset, List.mem_toFinset, List.mem_toFinset, hkey, hkey, List.mem_map]
    constructor
    · rintro ⟨⟨k, members⟩, he, rfl⟩
      obtain ⟨he, hboth⟩ := List.mem_filter.mp he
      rw [mem_entries_iff.mp he]
      exact of_decide_eq_true hboth
    · intro hboth
      cases hget : m.get? k with
      | none =>
        rw [hget] at hboth
        exact absurd hboth.1 List.not_mem_nil
      | some members =>
        rw [hget] at hboth
        exact ⟨(k, members), List.mem_filter.mpr ⟨mem_entries_iff.mpr hget, decide_eq_true hboth⟩, rfl⟩
  have hnodup : ((m.entries.filter fun e => v ∈ e.2 ∧ w ∈ e.2).map Prod.fst).Nodup :=
    m.nodup.sublist (List.Sublist.map _ List.filter_sublist)
  rw [← hkeys, List.toFinset_card_of_nodup hnodup, List.length_map, ← List.countP_eq_length_filter, values,
    List.countP_map]
  rfl

end Sets

end InsertionMap
