import Mathlib
import PropFirm.IndexSync
import PropFirm.Lib.Rebuilding

/-!
# The index with its generation stamps

Every entry of the index is stamped with the number of the latest reconcile when it is built. The trades
and the pending orders are two maps of one kind, and the four mutators are an `add` and a `remove` on
either of them.

For each operation: what it does to a map, to the ids the accounts list, and to the part of a map that
bears the stamp of this generation.
-/

namespace PropFirm

open DelayedWrites

/-- The calls of `addTrade` and `addPending`, and of `removeTrade` and `removePending`. -/
inductive IndexCall
  | add (shelf : Shelf) (row : Trade)
  | remove (shelf : Shelf) (id : Nat)

namespace IndexCall

def shelf : IndexCall → Shelf
  | add shelf _ | remove shelf _ => shelf

def op : IndexCall → Op Nat
  | add _ row => .put row.id
  | remove _ id => .drop id

end IndexCall

def Db.OwnedBy (db : Db) (id accountId : Nat) : Prop := ∃ row ∈ db.trade? id, row.accountId = accountId

/-- An added row carries the account of its trade. -/
def IndexCall.Owned (db : Db) : IndexCall → Prop
  | add _ row => db.OwnedBy row.id row.accountId
  | remove _ _ => True

namespace TradeIndex

def add (s : TradeIndex) : Shelf → Trade → TradeIndex
  | .trades, row => s.addTrade row none
  | .orders, row => s.addPending row none

def remove (s : TradeIndex) : Shelf → Nat → TradeIndex
  | .trades, id => s.removeTrade id
  | .orders, id => s.removePending id

end TradeIndex

def LoadedAccount.ids (a : LoadedAccount) : Shelf → List Nat
  | .trades => a.tradeIds
  | .orders => a.pendingIds

/-- The account is loaded and its set has the id. -/
def TradeIndex.Lists (s : TradeIndex) (shelf : Shelf) (accountId id : Nat) : Prop :=
  ∃ a ∈ s.byAccount accountId, id ∈ a.ids shelf

/-- `gen` and `accountGen` are the stamps of the entries. `ids` and `accountIds` are every id that ever
entered a map, so that the maps can be listed. -/
structure StampedIndex extends TradeIndex where
  generation : Nat
  ids : Shelf → List Nat
  gen : Shelf → Nat → Nat
  accountIds : List Nat
  accountGen : Nat → Nat

namespace StampedIndex

def boot : StampedIndex where
  toTradeIndex := .empty
  generation := 0
  ids _ := []
  gen _ _ := 0
  accountIds := []
  accountGen _ := 0

def add (s : StampedIndex) (shelf : Shelf) (row : Trade) : StampedIndex :=
  { s with
    toTradeIndex := s.toTradeIndex.add shelf row
    ids := Function.update s.ids shelf ((s.ids shelf).insert row.id)
    gen := Function.update s.gen shelf (Function.update (s.gen shelf) row.id s.generation) }

def remove (s : StampedIndex) (shelf : Shelf) (id : Nat) : StampedIndex :=
  { s with toTradeIndex := s.toTradeIndex.remove shelf id }

def perform (s : StampedIndex) : IndexCall → StampedIndex
  | .add shelf row => s.add shelf row
  | .remove shelf id => s.remove shelf id

def upsertAccount (s : StampedIndex) (row : Account) : StampedIndex :=
  { s with
    toTradeIndex := s.toTradeIndex.upsertAccount row
    accountIds := s.accountIds.insert row.id
    accountGen := Function.update s.accountGen row.id s.generation }

/-- Empty the id sets of the accounts of this generation. -/
def clearListings (s : StampedIndex) : StampedIndex :=
  { s with
    byAccount := fun accountId => (s.byAccount accountId).map fun a =>
      if s.accountGen accountId = s.generation then { a with tradeIds := [], pendingIds := [] } else a }

def addAll (s : StampedIndex) (shelf : Shelf) (rows : List Trade) : StampedIndex :=
  rows.foldl (fun s row => s.add shelf row) s

def holds (s : StampedIndex) : Shelf → Nat → Bool
  | .trades, id => (s.byId id).isSome
  | .orders, id => (s.pendingById id).isSome

def stale (s : StampedIndex) (shelf : Shelf) : List Nat :=
  (s.ids shelf).filter fun id => s.holds shelf id ∧ s.gen shelf id ≠ s.generation

def staleAccounts (s : StampedIndex) : List Nat :=
  s.accountIds.filter fun id => (s.byAccount id).isSome ∧ s.accountGen id ≠ s.generation

def evictFrom (s : StampedIndex) (shelf : Shelf) : StampedIndex :=
  { s with toTradeIndex := (s.stale shelf).foldl (fun index id => index.remove shelf id) s.toTradeIndex }

def evictAccounts (s : StampedIndex) : StampedIndex :=
  { s with toTradeIndex := s.staleAccounts.foldl TradeIndex.removeAccount s.toTradeIndex }

def evict (s : StampedIndex) : StampedIndex :=
  ((s.evictFrom .trades).evictFrom .orders).evictAccounts

end StampedIndex

/-! ### The maps and the lists under the index operations -/

namespace TradeIndex

variable {s : TradeIndex} {shelf shelf' : Shelf} {accountId accountId' id : Nat}

theorem add_held (s : TradeIndex) (shelf : Shelf) (row : Trade) :
    (s.add shelf row).held = Function.update s.held shelf (insert row.id (s.held shelf)) := by
  funext shelf'
  cases shelf with
  | trades =>
    cases shelf' with
    | trades => exact (s.addTrade_held row).1
    | orders => exact (s.addTrade_held row).2
  | orders =>
    cases shelf' with
    | trades => exact (s.addPending_held row).2
    | orders => exact (s.addPending_held row).1

theorem remove_held (s : TradeIndex) (shelf : Shelf) (id : Nat) :
    (s.remove shelf id).held = Function.update s.held shelf (s.held shelf \ {id}) := by
  funext shelf'
  cases shelf with
  | trades =>
    cases shelf' with
    | trades => exact (s.removeTrade_held id).1
    | orders => exact (s.removeTrade_held id).2
  | orders =>
    cases shelf' with
    | trades => exact (s.removePending_held id).2
    | orders => exact (s.removePending_held id).1

theorem withAccount_byAccount_eq_none {f : LoadedAccount → LoadedAccount} :
    (s.withAccount accountId f).byAccount accountId' = none ↔ s.byAccount accountId' = none := by
  rw [withAccount_byAccount]
  split
  · rename_i hid
    rw [Option.map_eq_none_iff, hid]
  · rfl

theorem withAccount_lists {f : LoadedAccount → LoadedAccount} :
    (s.withAccount accountId f).Lists shelf accountId' id ↔
      if accountId' = accountId then ∃ a ∈ s.byAccount accountId, id ∈ (f a).ids shelf
      else s.Lists shelf accountId' id := by
  rw [Lists, withAccount_byAccount]
  split
  · simp
  · rfl

theorem withAccount_lists_of_ids {f : LoadedAccount → LoadedAccount}
    (hf : ∀ a, (f a).ids shelf = a.ids shelf) :
    (s.withAccount accountId f).Lists shelf accountId' id ↔ s.Lists shelf accountId' id := by
  rw [withAccount_lists]
  split
  · rename_i hid
    simp only [hf, hid]
    rfl
  · rfl

/-- Inserting an id into a set of an account, which does nothing if the account is not loaded. -/
theorem withAccount_insert_lists {f : LoadedAccount → LoadedAccount} {added : Nat}
    (hf : ∀ a, (f a).ids = Function.update a.ids shelf ((a.ids shelf).insert added)) :
    (s.withAccount accountId f).Lists shelf' accountId' id ↔ s.Lists shelf' accountId' id ∨
      shelf' = shelf ∧ accountId' = accountId ∧ id = added ∧ s.byAccount accountId' ≠ none := by
  rw [withAccount_lists]
  by_cases haccount : accountId' = accountId
  · subst haccount
    rw [if_pos rfl, Lists]
    cases s.byAccount accountId' with
    | none => simp
    | some a =>
      simp only [hf, Option.mem_def, Option.some.injEq, exists_eq_left', Function.update_apply]
      split
      · rename_i hshelf
        subst hshelf
        simp [or_comm]
      · rename_i hshelf
        simp [hshelf]
  · simp [haccount]

/-- Erasing an id from a set of an account. -/
theorem withAccount_erase_lists {f : LoadedAccount → LoadedAccount} {erased : Nat}
    (hf : ∀ a, (f a).ids = Function.update a.ids shelf ((a.ids shelf).erase erased)) :
    ((s.withAccount accountId f).Lists shelf' accountId' id → s.Lists shelf' accountId' id) ∧
      (s.Lists shelf' accountId' id → (shelf' = shelf → id ≠ erased) →
        (s.withAccount accountId f).Lists shelf' accountId' id) := by
  rw [withAccount_lists]
  by_cases haccount : accountId' = accountId
  · subst haccount
    rw [if_pos rfl]
    constructor
    · rintro ⟨a, ha, hid⟩
      refine ⟨a, ha, ?_⟩
      rw [hf, Function.update_apply] at hid
      split at hid
      · rename_i hshelf
        exact hshelf ▸ List.mem_of_mem_erase hid
      · exact hid
    · rintro ⟨a, ha, hid⟩ hne
      refine ⟨a, ha, ?_⟩
      rw [hf, Function.update_apply]
      split
      · rename_i hshelf
        exact (List.mem_erase_of_ne (hne hshelf)).mpr (hshelf ▸ hid)
      · exact hid
  · rw [if_neg haccount]
    exact ⟨fun h => h, fun h _ => h⟩

theorem withdrawPrevious_byAccount_eq_none (s : TradeIndex) (row : Trade) :
    (s.withdrawPrevious row).byAccount accountId = none ↔ s.byAccount accountId = none := by
  rw [withdrawPrevious]
  split
  · rfl
  · exact withAccount_byAccount_eq_none

theorem withdrawPrevious_lists (s : TradeIndex) (row : Trade) :
    (s.withdrawPrevious row).Lists shelf accountId id ↔ s.Lists shelf accountId id := by
  rw [withdrawPrevious]
  split
  · rfl
  · refine withAccount_lists_of_ids fun a => ?_
    cases shelf <;> rfl

theorem add_byAccount_eq_none (s : TradeIndex) (shelf : Shelf) (row : Trade) :
    (s.add shelf row).byAccount accountId = none ↔ s.byAccount accountId = none := by
  cases shelf with
  | trades => exact withAccount_byAccount_eq_none.trans (s.withdrawPrevious_byAccount_eq_none row)
  | orders => exact withAccount_byAccount_eq_none

/-- An added id is listed by its account, if that is loaded. -/
theorem add_lists (s : TradeIndex) (shelf : Shelf) (row : Trade) :
    (s.add shelf row).Lists shelf' accountId id ↔ s.Lists shelf' accountId id ∨
      shelf' = shelf ∧ accountId = row.accountId ∧ id = row.id ∧ s.byAccount accountId ≠ none := by
  cases shelf with
  | trades =>
    have hwithdrawn :
        (s.withdrawPrevious row).byAccount accountId = none ↔ s.byAccount accountId = none :=
      s.withdrawPrevious_byAccount_eq_none row
    rw [← s.withdrawPrevious_lists row, ne_eq, ← hwithdrawn]
    refine withAccount_insert_lists fun a => ?_
    funext shelf
    cases shelf <;> rfl
  | orders =>
    refine withAccount_insert_lists fun a => ?_
    funext shelf
    cases shelf <;> rfl

theorem remove_byAccount_eq_none (s : TradeIndex) (shelf : Shelf) (id : Nat) :
    (s.remove shelf id).byAccount accountId = none ↔ s.byAccount accountId = none := by
  cases shelf with
  | trades =>
    rw [remove, removeTrade]
    split
    · rfl
    · dsimp only
      split
      · rfl
      · exact withAccount_byAccount_eq_none
  | orders =>
    rw [remove, removePending]
    split
    · rfl
    · exact withAccount_byAccount_eq_none

theorem remove_lists (s : TradeIndex) (shelf : Shelf) (removed : Nat) :
    ((s.remove shelf removed).Lists shelf' accountId id → s.Lists shelf' accountId id) ∧
      (s.Lists shelf' accountId id → (shelf' = shelf → id ≠ removed) →
        (s.remove shelf removed).Lists shelf' accountId id) := by
  cases shelf with
  | trades =>
    rw [remove, removeTrade]
    split
    · exact ⟨fun h => h, fun h _ => h⟩
    · dsimp only
      split
      · exact ⟨fun h => h, fun h _ => h⟩
      · refine withAccount_erase_lists fun a => ?_
        funext shelf
        cases shelf <;> rfl
  | orders =>
    rw [remove, removePending]
    split
    · exact ⟨fun h => h, fun h _ => h⟩
    · refine withAccount_erase_lists fun a => ?_
      funext shelf
      cases shelf <;> rfl

/-- An index is left with less: nothing is held or listed that was not, and of what was only the ids in
`gone` may be missing. -/
structure Thins (gone : Shelf → Set Nat) (s s' : TradeIndex) : Prop where
  held_sub : ∀ shelf, s'.held shelf ⊆ s.held shelf
  lists_sub : ∀ shelf accountId id, s'.Lists shelf accountId id → s.Lists shelf accountId id
  held_kept : ∀ shelf, s.held shelf \ gone shelf ⊆ s'.held shelf
  lists_kept : ∀ shelf accountId id, s.Lists shelf accountId id → id ∉ gone shelf →
    s'.Lists shelf accountId id

variable {gone : Shelf → Set Nat} {s' s'' : TradeIndex}

theorem Thins.refl : Thins gone s s where
  held_sub _ := subset_rfl
  lists_sub _ _ _ h := h
  held_kept _ := Set.sdiff_subset
  lists_kept _ _ _ h _ := h

theorem Thins.trans (hfirst : Thins gone s s') (hsecond : Thins gone s' s'') : Thins gone s s'' where
  held_sub shelf := (hsecond.held_sub shelf).trans (hfirst.held_sub shelf)
  lists_sub _ _ _ h := hfirst.lists_sub _ _ _ (hsecond.lists_sub _ _ _ h)
  held_kept shelf _ hid := hsecond.held_kept shelf ⟨hfirst.held_kept shelf hid, hid.2⟩
  lists_kept _ _ _ h hgone := hsecond.lists_kept _ _ _ (hfirst.lists_kept _ _ _ h hgone) hgone

/-- Each removal may rely on what the ones before it left. -/
theorem Thins.foldl {β : Type} {remove : TradeIndex → β → TradeIndex} {xs : List β}
    (hthins : Thins gone s s') (hstep : ∀ t, Thins gone s t → ∀ x ∈ xs, Thins gone t (remove t x)) :
    Thins gone s (xs.foldl remove s') := by
  induction xs generalizing s' with
  | nil => exact hthins
  | cons x xs ih =>
    have hremoved := hthins.trans (hstep s' hthins x List.mem_cons_self)
    exact ih hremoved fun t ht y hy => hstep t ht y (List.mem_cons_of_mem x hy)

theorem remove_thins (s : TradeIndex) (gone : Shelf → Set Nat) {removed : Nat}
    (hgone : removed ∈ gone shelf) : Thins gone s (s.remove shelf removed) where
  held_sub shelf' := by
    rw [remove_held, Function.update_apply]
    split
    · rename_i hshelf
      exact hshelf ▸ Set.sdiff_subset
    · exact subset_rfl
  lists_sub _ _ _ := (s.remove_lists shelf removed).1
  held_kept shelf' _ hid := by
    rw [remove_held, Function.update_apply]
    split
    · rename_i hshelf
      subst hshelf
      exact ⟨hid.1, fun heq => hid.2 (heq ▸ hgone)⟩
    · exact hid.1
  lists_kept _ _ _ hlists hid :=
    (s.remove_lists shelf removed).2 hlists fun hshelf heq => hid (hshelf ▸ heq ▸ hgone)

theorem foldl_remove_thins (s : TradeIndex) (removed : List Nat)
    (hgone : ∀ id ∈ removed, id ∈ gone shelf) : Thins gone s (removed.foldl (fun s id => s.remove shelf id) s) :=
  Thins.foldl .refl fun t _ _ hid => t.remove_thins gone (hgone _ hid)

theorem foldl_remove_held_sub (s : TradeIndex) (shelf : Shelf) (removed : List Nat) :
    (removed.foldl (fun s id => s.remove shelf id) s).held shelf
      ⊆ s.held shelf \ {id | id ∈ removed} := by
  induction removed generalizing s with
  | nil => simp
  | cons x removed ih =>
    refine (ih (s.remove shelf x)).trans fun id hid => ?_
    rw [remove_held, Function.update_self] at hid
    refine ⟨hid.1.1, fun hmem => ?_⟩
    rcases List.mem_cons.mp hmem with heq | hrest
    · exact hid.1.2 heq
    · exact hid.2 hrest

/-- Only ids that the account lists go with it. -/
theorem removeAccount_thins (s : TradeIndex) {removed : Nat}
    (hgone : ∀ shelf id, s.Lists shelf removed id → id ∈ gone shelf) :
    Thins gone s (s.removeAccount removed) := by
  rw [removeAccount]
  split
  · exact .refl
  · rename_i account haccount
    have htrades : Thins gone s (account.tradeIds.foldl removeTrade s) :=
      s.foldl_remove_thins account.tradeIds fun id hid => hgone .trades id ⟨account, haccount, hid⟩
    have hboth := htrades.trans <| foldl_remove_thins _ account.pendingIds fun id hid =>
      hgone .orders id ⟨account, haccount, hid⟩
    refine ⟨hboth.held_sub, fun shelf accountId id hlists => ?_, hboth.held_kept,
      fun shelf accountId id hlists hid => ?_⟩
    · obtain ⟨a, ha, hmem⟩ := hlists
      dsimp only at ha
      rw [Option.mem_def, Function.update_apply] at ha
      split at ha
      · cases ha
      · exact hboth.lists_sub shelf accountId id ⟨a, ha, hmem⟩
    · by_cases haccountId : accountId = removed
      · exact absurd (hgone shelf id (haccountId ▸ hlists)) hid
      · obtain ⟨a, ha, hmem⟩ := hboth.lists_kept shelf accountId id hlists hid
        exact ⟨a, (Function.update_of_ne haccountId ..).trans ha, hmem⟩

theorem foldl_remove_byAccount_eq_none (s : TradeIndex) (shelf : Shelf) (removed : List Nat) :
    (removed.foldl (fun s id => s.remove shelf id) s).byAccount accountId = none ↔
      s.byAccount accountId = none := by
  induction removed generalizing s with
  | nil => rfl
  | cons id removed ih => exact (ih (s.remove shelf id)).trans (s.remove_byAccount_eq_none shelf id)

theorem removeAccount_byAccount_ne_none (s : TradeIndex) {removed : Nat} (hne : accountId ≠ removed)
    (hloaded : s.byAccount accountId ≠ none) : (s.removeAccount removed).byAccount accountId ≠ none := by
  rw [removeAccount]
  split
  · exact hloaded
  · intro hnone
    dsimp only at hnone
    rw [Function.update_of_ne hne] at hnone
    have htrades := (foldl_remove_byAccount_eq_none _ .orders _).mp hnone
    exact hloaded ((s.foldl_remove_byAccount_eq_none .trades _).mp htrades)

end TradeIndex

namespace StampedIndex

/-- What is held under a stamp of this generation. -/
def current (s : StampedIndex) (shelf : Shelf) : Set Nat :=
  {id | id ∈ s.held shelf ∧ s.gen shelf id = s.generation}

def Loaded (s : StampedIndex) (accountId : Nat) : Prop :=
  s.byAccount accountId ≠ none ∧ s.accountGen accountId = s.generation

/-- Of that, what an account of this generation lists. -/
def shown (s : StampedIndex) (db : Db) (shelf : Shelf) : Set Nat :=
  {id | id ∈ s.current shelf ∧ ∃ accountId, db.OwnedBy id accountId ∧
    s.accountGen accountId = s.generation ∧ s.Lists shelf accountId id}

/-- An account lists trades of its own, whatever is held can be listed, and no stamp is of the future. -/
structure Sound (s : StampedIndex) (db : Db) : Prop where
  housed : ∀ shelf accountId id, s.Lists shelf accountId id → db.OwnedBy id accountId
  known : ∀ shelf, ∀ id ∈ s.held shelf, id ∈ s.ids shelf
  stamped : ∀ shelf, ∀ id ∈ s.held shelf, s.gen shelf id ≤ s.generation

variable {s : StampedIndex} {db db' : Db} {shelf shelf' : Shelf} {row : Trade} {accountId id : Nat}

theorem Sound.mono (hsound : s.Sound db) (hrows : ∀ id accountId, db.OwnedBy id accountId →
    db'.OwnedBy id accountId) : s.Sound db' :=
  { hsound with housed := fun shelf _ _ hlists => hrows _ _ (hsound.housed shelf _ _ hlists) }

theorem shown_mono (s : StampedIndex) (hrows : ∀ id accountId, db.OwnedBy id accountId →
    db'.OwnedBy id accountId) (shelf : Shelf) : s.shown db shelf ⊆ s.shown db' shelf := by
  rintro id ⟨hcurrent, accountId, howned, hshown⟩
  exact ⟨hcurrent, accountId, hrows _ _ howned, hshown⟩

theorem add_current (s : StampedIndex) (shelf : Shelf) (row : Trade) :
    (s.add shelf row).current = Function.update s.current shelf (insert row.id (s.current shelf)) := by
  funext shelf'
  ext id
  simp only [current, add, TradeIndex.add_held, Function.update_apply]
  by_cases hshelf : shelf' = shelf
  · subst hshelf
    by_cases hid : id = row.id
    · simp [hid]
    · simp [hid]
  · simp [hshelf]

theorem add_loaded (s : StampedIndex) (shelf : Shelf) (row : Trade) :
    (s.add shelf row).Loaded accountId ↔ s.Loaded accountId :=
  and_congr_left' (not_congr (s.add_byAccount_eq_none shelf row))

theorem add_shown (s : StampedIndex) (shelf : Shelf) (row : Trade) :
    s.shown db shelf' ⊆ (s.add shelf row).shown db shelf' := by
  rintro id ⟨hcurrent, accountId, howned, hgen, hlists⟩
  refine ⟨?_, accountId, howned, hgen, (s.add_lists shelf row).mpr (.inl hlists)⟩
  rw [add_current, Function.update_apply]
  split
  · rename_i hshelf
    exact .inr (hshelf ▸ hcurrent)
  · exact hcurrent

theorem mem_add_shown (howned : db.OwnedBy row.id row.accountId) (hloaded : s.Loaded row.accountId) :
    row.id ∈ (s.add shelf row).shown db shelf := by
  have hlists := (s.add_lists shelf row).mpr (.inr ⟨rfl, rfl, rfl, hloaded.1⟩)
  refine ⟨?_, row.accountId, howned, hloaded.2, hlists⟩
  rw [add_current, Function.update_self]
  exact .inl rfl

theorem Sound.add (hsound : s.Sound db) (howned : db.OwnedBy row.id row.accountId) :
    (s.add shelf row).Sound db where
  housed shelf' accountId id hlists := by
    rcases (s.add_lists shelf row).mp hlists with hold | ⟨rfl, rfl, rfl, _⟩
    · exact hsound.housed shelf' accountId id hold
    · exact howned
  known shelf' id hid := by
    simp only [StampedIndex.add, TradeIndex.add_held, Function.update_apply] at hid ⊢
    split at hid
    · rename_i hshelf
      rw [if_pos hshelf, List.mem_insert_iff]
      exact hid.imp_right (hsound.known shelf id)
    · rename_i hshelf
      rw [if_neg hshelf]
      exact hsound.known shelf' id hid
  stamped shelf' id hid := by
    simp only [StampedIndex.add, TradeIndex.add_held, Function.update_apply] at hid ⊢
    split at hid
    · rename_i hshelf
      rw [if_pos hshelf, Function.update_apply]
      split
      · exact le_rfl
      · rename_i hne
        exact hsound.stamped shelf id (hid.resolve_left hne)
    · rename_i hshelf
      rw [if_neg hshelf]
      exact hsound.stamped shelf' id hid

theorem remove_current (s : StampedIndex) (shelf : Shelf) (removed : Nat) :
    (s.remove shelf removed).current
      = Function.update s.current shelf (s.current shelf \ {removed}) := by
  funext shelf'
  ext id
  simp only [current, remove, TradeIndex.remove_held, Function.update_apply]
  by_cases hshelf : shelf' = shelf
  · subst hshelf
    simp [and_right_comm]
  · simp [hshelf]

theorem remove_loaded (s : StampedIndex) (shelf : Shelf) (removed : Nat) :
    (s.remove shelf removed).Loaded accountId ↔ s.Loaded accountId :=
  and_congr_left' (not_congr (s.remove_byAccount_eq_none shelf removed))

theorem remove_shown (s : StampedIndex) (shelf : Shelf) (removed : Nat) (hid : id ∈ s.shown db shelf')
    (hne : shelf' = shelf → id ≠ removed) : id ∈ (s.remove shelf removed).shown db shelf' := by
  obtain ⟨hcurrent, accountId, howned, hgen, hlists⟩ := hid
  refine ⟨?_, accountId, howned, hgen, (s.remove_lists shelf removed).2 hlists hne⟩
  rw [remove_current, Function.update_apply]
  split
  · rename_i hshelf
    exact ⟨hshelf ▸ hcurrent, hne hshelf⟩
  · exact hcurrent

/-- Soundness is about what is there. -/
theorem Sound.thinned {gone : Shelf → Set Nat} {index : TradeIndex} (hsound : s.Sound db)
    (hthins : TradeIndex.Thins gone s.toTradeIndex index) :
    ({ s with toTradeIndex := index }).Sound db where
  housed shelf accountId id hlists := hsound.housed shelf accountId id (hthins.lists_sub _ _ _ hlists)
  known shelf id hid := hsound.known shelf id (hthins.held_sub shelf hid)
  stamped shelf id hid := hsound.stamped shelf id (hthins.held_sub shelf hid)

theorem Sound.remove (hsound : s.Sound db) (shelf : Shelf) (removed : Nat) :
    (s.remove shelf removed).Sound db :=
  hsound.thinned (s.remove_thins (fun _ => Set.univ) trivial)

theorem perform_current (s : StampedIndex) (call : IndexCall) :
    (s.perform call).current
      = Function.update s.current call.shelf (call.op.perform (s.current call.shelf)) := by
  cases call with
  | add shelf row => exact s.add_current shelf row
  | remove shelf id => exact s.remove_current shelf id

theorem perform_held (s : StampedIndex) (call : IndexCall) :
    (s.perform call).held = Function.update s.held call.shelf (call.op.perform (s.held call.shelf)) := by
  cases call with
  | add shelf row => exact s.toTradeIndex.add_held shelf row
  | remove shelf id => exact s.toTradeIndex.remove_held shelf id

theorem perform_loaded (s : StampedIndex) (call : IndexCall) :
    (s.perform call).Loaded accountId ↔ s.Loaded accountId := by
  cases call with
  | add shelf row => exact s.add_loaded shelf row
  | remove shelf id => exact s.remove_loaded shelf id

/-- The other map shows what it did. -/
theorem perform_shown_of_ne (s : StampedIndex) (call : IndexCall) (hshelf : call.shelf ≠ shelf) :
    s.shown db shelf ⊆ (s.perform call).shown db shelf := by
  intro id hid
  cases call with
  | add shelf' row => exact s.add_shown shelf' row hid
  | remove shelf' removed => exact s.remove_shown shelf' removed hid fun h => absurd h.symm hshelf

/-- A call does to what is shown what it does to the map, if the account it adds to is loaded. -/
theorem perform_shown (s : StampedIndex) (call : IndexCall) (howned : call.Owned db)
    (hloaded : ∀ shelf row, call = .add shelf row → s.Loaded row.accountId) :
    call.op.perform (s.shown db call.shelf) ⊆ (s.perform call).shown db call.shelf := by
  intro id hid
  cases call with
  | add shelf row =>
    rcases hid with rfl | hold
    · exact mem_add_shown howned (hloaded shelf row rfl)
    · exact s.add_shown shelf row hold
  | remove shelf removed => exact s.remove_shown shelf removed hid.1 fun _ => hid.2

theorem Sound.perform (hsound : s.Sound db) {call : IndexCall} (howned : call.Owned db) :
    (s.perform call).Sound db := by
  cases call with
  | add shelf row => exact hsound.add howned
  | remove shelf removed => exact hsound.remove shelf removed

/-- The index gets other account entries. -/
theorem Sound.relisted {index : TradeIndex} (hsound : s.Sound db) (hheld : index.held = s.held)
    (hlists : ∀ shelf accountId id, index.Lists shelf accountId id → s.Lists shelf accountId id) :
    ({ s with toTradeIndex := index }).Sound db where
  housed shelf accountId id h := hsound.housed shelf accountId id (hlists _ _ _ h)
  known shelf id hid := hsound.known shelf id (hheld ▸ hid)
  stamped shelf id hid := hsound.stamped shelf id (hheld ▸ hid)

theorem clearListings_sound (hsound : s.Sound db) : s.clearListings.Sound db := by
  have hheld : s.clearListings.toTradeIndex.held = s.held := rfl
  refine hsound.relisted hheld fun shelf accountId id hlists => ?_
  obtain ⟨a', ha', hid⟩ := hlists
  obtain ⟨a, ha, rfl⟩ := Option.map_eq_some_iff.mp ha'
  refine ⟨a, ha, ?_⟩
  split at hid
  · cases shelf <;> cases hid
  · exact hid

theorem clearListings_loaded : s.clearListings.Loaded accountId ↔ s.Loaded accountId :=
  and_congr_left' (not_congr Option.map_eq_none_iff)

/-! ### Adding the rows of a query -/

variable {rows : List Trade}

theorem addAll_current (s : StampedIndex) (shelf : Shelf) (rows : List Trade) :
    (s.addAll shelf rows).current
      = Function.update s.current shelf (s.current shelf ∪ {id | id ∈ rows.map Trade.id}) := by
  induction rows generalizing s with
  | nil => simp [addAll]
  | cons row rows ih =>
    rw [addAll, List.foldl_cons, ← addAll, ih, add_current, Function.update_idem, Function.update_self]
    congr 1
    ext id
    simp only [Set.mem_union, Set.mem_insert_iff, Set.mem_ofPred_eq, List.map_cons, List.mem_cons]
    tauto

theorem addAll_loaded (s : StampedIndex) (shelf : Shelf) (rows : List Trade) :
    (s.addAll shelf rows).Loaded accountId ↔ s.Loaded accountId := by
  induction rows generalizing s with
  | nil => rfl
  | cons row rows ih => exact (ih (s.add shelf row)).trans (s.add_loaded shelf row)

theorem addAll_shown (s : StampedIndex) (shelf : Shelf) (rows : List Trade) :
    s.shown db shelf' ⊆ (s.addAll shelf rows).shown db shelf' := by
  induction rows generalizing s with
  | nil => exact subset_rfl
  | cons row rows ih => exact (s.add_shown shelf row).trans (ih (s.add shelf row))

theorem mem_addAll_shown (howned : ∀ row ∈ rows, db.OwnedBy row.id row.accountId)
    (hloaded : ∀ row ∈ rows, s.Loaded row.accountId) :
    ∀ row ∈ rows, row.id ∈ (s.addAll shelf rows).shown db shelf := by
  induction rows generalizing s with
  | nil => exact fun _ hrow => absurd hrow List.not_mem_nil
  | cons first rows ih =>
    obtain ⟨hfirst, howned⟩ := List.forall_mem_cons.mp howned
    obtain ⟨hfirstLoaded, hloaded⟩ := List.forall_mem_cons.mp hloaded
    intro row hrow
    rcases List.mem_cons.mp hrow with rfl | hrest
    · exact addAll_shown _ shelf rows (mem_add_shown hfirst hfirstLoaded)
    · exact ih howned (fun row hrow => (s.add_loaded shelf first).mpr (hloaded row hrow)) row hrest

theorem Sound.addAll (hsound : s.Sound db) (howned : ∀ row ∈ rows, db.OwnedBy row.id row.accountId) :
    (s.addAll shelf rows).Sound db := by
  induction rows generalizing s with
  | nil => exact hsound
  | cons row rows ih =>
    obtain ⟨hfirst, howned⟩ := List.forall_mem_cons.mp howned
    exact ih (hsound.add hfirst) howned

/-! ### Loading accounts -/

theorem upsertAccount_lists (s : TradeIndex) (row : Account) :
    (s.upsertAccount row).Lists shelf accountId id ↔ s.Lists shelf accountId id := by
  rw [TradeIndex.Lists, TradeIndex.upsertAccount_byAccount, TradeIndex.Lists]
  split
  · rename_i haccount
    subst haccount
    cases hexisting : s.byAccount row.id with
    | none => cases shelf <;> simp [TradeIndex.buildLoadedAccount, hexisting, LoadedAccount.ids]
    | some a => cases shelf <;> simp [TradeIndex.buildLoadedAccount, hexisting, LoadedAccount.ids]
  · rfl

theorem upsertAccount_loaded (s : StampedIndex) (account : Account) :
    (s.upsertAccount account).Loaded account.id := by
  refine ⟨?_, Function.update_self ..⟩
  rw [upsertAccount, TradeIndex.upsertAccount_byAccount, if_pos rfl]
  exact Option.some_ne_none _

theorem Loaded.upsertAccount (hloaded : s.Loaded accountId) (account : Account) :
    (s.upsertAccount account).Loaded accountId := by
  by_cases hid : accountId = account.id
  · exact hid ▸ s.upsertAccount_loaded account
  · refine ⟨?_, (Function.update_of_ne hid ..).trans hloaded.2⟩
    rw [StampedIndex.upsertAccount, TradeIndex.upsertAccount_byAccount, if_neg hid]
    exact hloaded.1

/-- What the accounts query does to the maps is nothing, and its accounts are loaded. -/
theorem upsertAll_spec (s : StampedIndex) (accounts : List Account) :
    let s' := accounts.foldl StampedIndex.upsertAccount s
    s'.current = s.current ∧ (s.Sound db → s'.Sound db) ∧
      (∀ accountId, s.Loaded accountId → s'.Loaded accountId) ∧
      ∀ account ∈ accounts, s'.Loaded account.id := by
  induction accounts generalizing s with
  | nil => exact ⟨rfl, fun h => h, fun _ h => h, fun _ h => absurd h List.not_mem_nil⟩
  | cons first accounts ih =>
    obtain ⟨hcurrent, hsound, hkept, hloaded⟩ := ih (s.upsertAccount first)
    refine ⟨hcurrent, fun h => hsound ?_, fun accountId h => hkept _ (h.upsertAccount first),
      fun account haccount => ?_⟩
    · have hrelisted := h.relisted (s.toTradeIndex.upsertAccount_held first) fun _ _ _ =>
        (upsertAccount_lists s.toTradeIndex first).mp
      exact ⟨hrelisted.housed, hrelisted.known, hrelisted.stamped⟩
    · rcases List.mem_cons.mp haccount with rfl | hrest
      · exact hkept _ (s.upsertAccount_loaded account)
      · exact hloaded account hrest

/-! ### The eviction -/

/-- What the eviction may take. -/
def gone (s : StampedIndex) (shelf : Shelf) : Set Nat :=
  {id | s.gen shelf id ≠ s.generation ∨
    ∃ accountId, s.accountGen accountId ≠ s.generation ∧ s.Lists shelf accountId id}

theorem evictFrom_thins (s : StampedIndex) (shelf : Shelf) (gone : Shelf → Set Nat)
    (hgone : ∀ id, s.gen shelf id ≠ s.generation → id ∈ gone shelf) :
    TradeIndex.Thins gone s.toTradeIndex (s.evictFrom shelf).toTradeIndex := by
  refine s.foldl_remove_thins (s.stale shelf) fun id hid => hgone id ?_
  exact (of_decide_eq_true (List.mem_filter.mp hid).2).2

theorem evictAccounts_thins (s : StampedIndex) (gone : Shelf → Set Nat)
    (hgone : ∀ accountId, s.accountGen accountId ≠ s.generation → ∀ shelf id,
      s.Lists shelf accountId id → id ∈ gone shelf) :
    TradeIndex.Thins gone s.toTradeIndex s.evictAccounts.toTradeIndex := by
  refine TradeIndex.Thins.refl.foldl fun index hthins accountId haccount => ?_
  have hstale := (of_decide_eq_true (List.mem_filter.mp haccount).2).2
  refine index.removeAccount_thins fun shelf id hlists => ?_
  exact hgone accountId hstale shelf id (hthins.lists_sub shelf accountId id hlists)

theorem evict_thins (s : StampedIndex) :
    TradeIndex.Thins s.gone s.toTradeIndex s.evict.toTradeIndex := by
  have htrades := s.evictFrom_thins .trades s.gone fun _ => .inl
  have hboth := htrades.trans ((s.evictFrom .trades).evictFrom_thins .orders s.gone fun _ => .inl)
  refine hboth.trans (evictAccounts_thins _ s.gone fun accountId hstale shelf id hlists => ?_)
  exact .inr ⟨accountId, hstale, hboth.lists_sub shelf accountId id hlists⟩

theorem evictFrom_held (hsound : s.Sound db) : (s.evictFrom shelf).held shelf ⊆ s.current shelf := by
  intro id hid
  obtain ⟨hheld, hkept⟩ := s.foldl_remove_held_sub shelf (s.stale shelf) hid
  refine ⟨hheld, by_contra fun hold => hkept ?_⟩
  refine List.mem_filter.mpr ⟨hsound.known shelf id hheld, decide_eq_true ⟨?_, hold⟩⟩
  cases shelf <;> exact Option.isSome_iff_ne_none.mpr hheld

/-- Nothing with an older stamp is left. -/
theorem evict_held (hsound : s.Sound db) : s.evict.held shelf ⊆ s.evict.current shelf := by
  intro id hid
  refine ⟨hid, ?_⟩
  have haccounts := evictAccounts_thins ((s.evictFrom .trades).evictFrom .orders) (fun _ => Set.univ)
    fun _ _ _ _ _ => trivial
  have hleft := haccounts.held_sub shelf hid
  cases shelf with
  | trades =>
    have horders := evictFrom_thins (s.evictFrom .trades) .orders (fun _ => Set.univ) fun _ _ => trivial
    exact (evictFrom_held hsound (horders.held_sub .trades hleft)).2
  | orders =>
    have htrades := s.evictFrom_thins .trades (fun _ => Set.univ) fun _ _ => trivial
    exact (evictFrom_held (hsound.thinned htrades) hleft).2

theorem evict_shown (hsound : s.Sound db) : s.shown db shelf ⊆ s.evict.shown db shelf := by
  rintro id ⟨⟨hheld, hgen⟩, accountId, howned, haccount, hlists⟩
  have hstays : id ∉ s.gone shelf := by
    rintro (hold | ⟨other, hold, hlisted⟩)
    · exact hold hgen
    · obtain ⟨row, hrow, rfl⟩ := howned
      obtain ⟨row', hrow', rfl⟩ := hsound.housed shelf other id hlisted
      rw [Option.mem_def.mp hrow] at hrow'
      exact hold (Option.some.inj hrow' ▸ haccount)
  exact ⟨⟨s.evict_thins.held_kept shelf ⟨hheld, hstays⟩, hgen⟩, accountId, howned, haccount,
    s.evict_thins.lists_kept shelf accountId id hlists hstays⟩

theorem evict_current (s : StampedIndex) (shelf : Shelf) : s.evict.current shelf ⊆ s.current shelf :=
  fun _ hid => ⟨s.evict_thins.held_sub shelf hid.1, hid.2⟩

theorem evictFrom_loaded (s : StampedIndex) (shelf : Shelf) :
    (s.evictFrom shelf).Loaded accountId ↔ s.Loaded accountId :=
  and_congr_left' (not_congr (s.foldl_remove_byAccount_eq_none shelf (s.stale shelf)))

theorem Loaded.evictAccounts (hloaded : s.Loaded accountId) : s.evictAccounts.Loaded accountId := by
  have hothers : ∀ id ∈ s.staleAccounts, accountId ≠ id := by
    rintro id hid rfl
    exact (of_decide_eq_true (List.mem_filter.mp hid).2).2 hloaded.2
  have hfold : ∀ (accounts : List Nat) (index : TradeIndex), (∀ id ∈ accounts, accountId ≠ id) →
      index.byAccount accountId ≠ none →
        (accounts.foldl TradeIndex.removeAccount index).byAccount accountId ≠ none := by
    intro accounts
    induction accounts with
    | nil => exact fun _ _ h => h
    | cons id accounts ih =>
      intro index hne hindex
      obtain ⟨hfirst, hrest⟩ := List.forall_mem_cons.mp hne
      exact ih _ hrest (index.removeAccount_byAccount_ne_none hfirst hindex)
  exact ⟨hfold _ _ hothers hloaded.1, hloaded.2⟩

theorem Loaded.evict (hloaded : s.Loaded accountId) : s.evict.Loaded accountId :=
  Loaded.evictAccounts ((evictFrom_loaded _ .orders).mpr ((s.evictFrom_loaded .trades).mpr hloaded))

end StampedIndex

end PropFirm
