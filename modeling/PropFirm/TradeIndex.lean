import PropFirm.Lib.Grouping
import PropFirm.Lib.Transition
import PropFirm.TradeTransactions
import PropFirm.Verdicts

/-!
# The in-memory trade index

Open trades are held by id and by instrument, pending orders likewise, and each loaded account lists the
ids of both and carries the sum of its trades' last profits. Eight mutators keep the four maps, the
lists and the sum in step. None of them looks for trades an account already has when it is loaded, and
re-adding a trade never takes its id off the account that had it.

An empty bucket is the same as a missing one here.
-/

namespace PropFirm

open Grouping
open Transition

/-- An entry object: when it was made, and the row it was built from. -/
structure TradeEntry where
  ref : Nat
  row : Trade
  deriving DecidableEq

/-- An account's entry with the sets of ids, in no particular order. -/
structure LoadedAccount extends AccountEntry where
  tradeIds : List Nat
  pendingIds : List Nat

/-- `made` are the rows of all entry objects ever built, by `ref`, and `lastPnl` the one field of them
that is written afterwards. A pending entry holds nothing but columns of its row. -/
structure TradeIndex where
  made : List Trade
  lastPnl : Nat → ℚ
  byId : Nat → Option TradeEntry
  byInstrument : Instrument → Nat → Option TradeEntry
  byAccount : Nat → Option LoadedAccount
  pendingById : Nat → Option Trade
  pendingByInstrument : Instrument → Nat → Option Trade

namespace TradeIndex

def empty : TradeIndex where
  made := []
  lastPnl _ := 0
  byId _ := none
  byInstrument _ _ := none
  byAccount _ := none
  pendingById _ := none
  pendingByInstrument _ _ := none

/-- Write to an account's entry, if it is loaded. -/
def withAccount (s : TradeIndex) (accountId : Nat) (f : LoadedAccount → LoadedAccount) : TradeIndex :=
  { s with byAccount := Function.update s.byAccount accountId ((s.byAccount accountId).map f) }

/-- The entry a row gives: its own limits, and the sums and sets of the entry it replaces. -/
def buildLoadedAccount (s : TradeIndex) (row : Account) : LoadedAccount :=
  let existing := s.byAccount row.id
  { toAccountEntry := buildAccountEntry row ⟨some row.maxDrawdownPct, row.dailyDrawdownPct, none⟩
      (existing.elim 0 fun a => a.floatingPnl) (existing.elim 0 fun a => a.todayRealizedPnl)
    tradeIds := existing.elim [] LoadedAccount.tradeIds
    pendingIds := existing.elim [] LoadedAccount.pendingIds }

def upsertAccount (s : TradeIndex) (row : Account) : TradeIndex :=
  { s with byAccount := Function.update s.byAccount row.id (some (s.buildLoadedAccount row)) }

/-- What `addTrade` does about the entry it replaces: off the bucket of another instrument, and its
contribution off its account. -/
def withdrawPrevious (s : TradeIndex) (row : Trade) : TradeIndex :=
  match s.byId row.id with
  | none => s
  | some previous =>
    let byInstrument :=
      if previous.row.instrument ≠ row.instrument then
        setIn s.byInstrument previous.row.instrument previous.row.id none
      else s.byInstrument
    { s with byInstrument := byInstrument }.withAccount previous.row.accountId fun a =>
      { a with floatingPnl := a.floatingPnl - s.lastPnl previous.ref }

/-- Index a fresh entry of a row. -/
def install (s : TradeIndex) (row : Trade) : TradeIndex :=
  let entry : TradeEntry := ⟨s.made.length, row⟩
  { s with
    made := s.made ++ [row]
    lastPnl := Function.update s.lastPnl entry.ref 0
    byId := Function.update s.byId row.id (some entry)
    byInstrument := setIn s.byInstrument row.instrument row.id (some entry) }.withAccount
      row.accountId fun a => { a with tradeIds := a.tradeIds.insert row.id }

def addTrade (s : TradeIndex) (row : Trade) (accountRow : Option Account) : TradeIndex :=
  ((accountRow.elim s s.upsertAccount).withdrawPrevious row).install row

def removeTrade (s : TradeIndex) (tradeId : Nat) : TradeIndex :=
  match s.byId tradeId with
  | none => s
  | some entry =>
    let s' :=
      { s with
        byId := Function.update s.byId tradeId none
        byInstrument := setIn s.byInstrument entry.row.instrument tradeId none }
    match s.byAccount entry.row.accountId with
    | none => s'
    | some _ =>
      { s' with lastPnl := Function.update s.lastPnl entry.ref 0 }.withAccount entry.row.accountId
        fun a =>
          { a with
            tradeIds := a.tradeIds.erase tradeId
            floatingPnl := a.floatingPnl - s.lastPnl entry.ref }

/-- The entry is passed by reference, and may be one that the index no longer holds. -/
def applyTradePnl (s : TradeIndex) (ref : Nat) (pnl : ℚ) : TradeIndex :=
  match s.made[ref]? with
  | none => s
  | some row =>
    { s with lastPnl := Function.update s.lastPnl ref pnl }.withAccount row.accountId fun a =>
      { a with floatingPnl := a.floatingPnl + (pnl - s.lastPnl ref) }

/-- Zero the totals of all accounts and the last profits of the entries that are indexed. -/
def resetFloatingPnl (s : TradeIndex) : TradeIndex :=
  { s with
    byAccount := fun accountId => (s.byAccount accountId).map fun a => { a with floatingPnl := 0 }
    lastPnl := fun ref =>
      match s.made[ref]? with
      | none => s.lastPnl ref
      | some row => if s.byId row.id = some ⟨ref, row⟩ then 0 else s.lastPnl ref }

def addPending (s : TradeIndex) (row : Trade) (accountRow : Option Account) : TradeIndex :=
  let s := accountRow.elim s s.upsertAccount
  let byInstrument :=
    match s.pendingById row.id with
    | none => s.pendingByInstrument
    | some previous =>
      if previous.instrument ≠ row.instrument then
        setIn s.pendingByInstrument previous.instrument previous.id none
      else s.pendingByInstrument
  { s with
    pendingById := Function.update s.pendingById row.id (some row)
    pendingByInstrument := setIn byInstrument row.instrument row.id (some row) }.withAccount
      row.accountId fun a => { a with pendingIds := a.pendingIds.insert row.id }

def removePending (s : TradeIndex) (orderId : Nat) : TradeIndex :=
  match s.pendingById orderId with
  | none => s
  | some entry =>
    { s with
      pendingById := Function.update s.pendingById orderId none
      pendingByInstrument := setIn s.pendingByInstrument entry.instrument orderId none }.withAccount
        entry.accountId fun a => { a with pendingIds := a.pendingIds.erase orderId }

def removeAccount (s : TradeIndex) (accountId : Nat) : TradeIndex :=
  match s.byAccount accountId with
  | none => s
  | some account =>
    let s := account.tradeIds.foldl removeTrade s
    let s := account.pendingIds.foldl removePending s
    { s with byAccount := Function.update s.byAccount accountId none }

end TradeIndex

inductive IndexAction
  | addTrade (row : Trade) (accountRow : Option Account)
  | removeTrade (tradeId : Nat)
  | addPending (row : Trade) (accountRow : Option Account)
  | removePending (orderId : Nat)
  | upsertAccount (row : Account)
  | removeAccount (accountId : Nat)
  | applyTradePnl (ref : Nat) (pnl : ℚ)
  | resetFloatingPnl

namespace TradeIndex

def step (s : TradeIndex) : IndexAction → Option TradeIndex
  | .addTrade row accountRow => some (s.addTrade row accountRow)
  | .removeTrade tradeId => some (s.removeTrade tradeId)
  | .addPending row accountRow => some (s.addPending row accountRow)
  | .removePending orderId => some (s.removePending orderId)
  | .upsertAccount row => some (s.upsertAccount row)
  | .removeAccount accountId => some (s.removeAccount accountId)
  | .applyTradePnl ref pnl => some (s.applyTradePnl ref pnl)
  | .resetFloatingPnl => some s.resetFloatingPnl

/-! ### The representation invariant -/

/-- The last profit of an indexed trade. -/
def pnlOf (s : TradeIndex) (tradeId : Nat) : ℚ :=
  (s.byId tradeId).elim 0 fun entry => s.lastPnl entry.ref

/-- A loaded account lists its trades and orders, and its total is theirs. -/
structure AccountConsistent (s : TradeIndex) (accountId : Nat) (a : LoadedAccount) : Prop where
  trades : Members (fun entry : TradeEntry => entry.row.accountId) s.byId accountId a.tradeIds
  pending : Members Trade.accountId s.pendingById accountId a.pendingIds
  floatingPnl : a.floatingPnl = (a.tradeIds.map s.pnlOf).sum

structure Consistent (s : TradeIndex) : Prop where
  entries : ∀ tradeId, ∀ entry ∈ s.byId tradeId,
    entry.row.id = tradeId ∧ s.made[entry.ref]? = some entry.row
  byInstrument : Grouped (fun entry : TradeEntry => entry.row.instrument) s.byId s.byInstrument
  pendingEntries : ∀ orderId, ∀ row ∈ s.pendingById orderId, row.id = orderId
  pendingByInstrument : Grouped Trade.instrument s.pendingById s.pendingByInstrument
  accounts : ∀ accountId, ∀ a ∈ s.byAccount accountId, s.AccountConsistent accountId a

variable {s : TradeIndex}

theorem empty_consistent : empty.Consistent where
  entries _ _ := nofun
  byInstrument _ _ _ := ⟨nofun, nofun⟩
  pendingEntries _ _ := nofun
  pendingByInstrument _ _ _ := ⟨nofun, nofun⟩
  accounts _ _ := nofun

/-- A row may be loaded into a new entry when nothing of its account is indexed yet. -/
def Loadable (s : TradeIndex) (row : Account) : Prop :=
  s.byAccount row.id = none →
    (∀ tradeId, ∀ entry ∈ s.byId tradeId, entry.row.accountId ≠ row.id) ∧
      ∀ orderId, ∀ order ∈ s.pendingById orderId, order.accountId ≠ row.id

theorem empty_loadable (row : Account) : empty.Loadable row := by
  intro _
  refine ⟨fun _ _ hentry => ?_, fun _ _ horder => ?_⟩
  · cases hentry
  · cases horder

/-- An id that is indexed again keeps its account, unless the old one is not loaded, and a profit is
written to an entry the index holds. -/
def Careful (s : TradeIndex) : IndexAction → Prop
  | .addTrade row accountRow => (∀ account ∈ accountRow, s.Loadable account) ∧
      ∀ previous ∈ s.byId row.id, previous.row.accountId = row.accountId ∨
        s.byAccount previous.row.accountId = none
  | .addPending row accountRow => (∀ account ∈ accountRow, s.Loadable account) ∧
      ∀ previous ∈ s.pendingById row.id, previous.accountId = row.accountId ∨
        s.byAccount previous.accountId = none
  | .upsertAccount row => s.Loadable row
  | .applyTradePnl ref pnl => ∀ row ∈ s.made[ref]?, s.byId row.id = some ⟨ref, row⟩ ∨
      s.byAccount row.accountId = none ∨ pnl = s.lastPnl ref
  | .removeTrade _ | .removePending _ | .removeAccount _ | .resetFloatingPnl => True

theorem withAccount_byAccount (s : TradeIndex) (accountId : Nat) (f : LoadedAccount → LoadedAccount)
    (id : Nat) :
    (s.withAccount accountId f).byAccount id
      = if id = accountId then (s.byAccount accountId).map f else s.byAccount id :=
  Function.update_apply ..

/-! ### Loading an account -/

theorem upsertAccount_byAccount (s : TradeIndex) (row : Account) (id : Nat) :
    (s.upsertAccount row).byAccount id
      = if id = row.id then some (s.buildLoadedAccount row) else s.byAccount id :=
  Function.update_apply ..

theorem upsertAccount_consistent (hcons : s.Consistent) {row : Account} (hload : s.Loadable row) :
    (s.upsertAccount row).Consistent := by
  refine ⟨hcons.entries, hcons.byInstrument, hcons.pendingEntries, hcons.pendingByInstrument, ?_⟩
  intro id a ha
  rw [upsertAccount_byAccount] at ha
  by_cases hid : id = row.id
  · rw [if_pos hid] at ha
    obtain rfl := Option.some.inj ha
    subst hid
    cases hexisting : s.byAccount row.id with
    | none =>
      obtain ⟨htrades, hpending⟩ := hload hexisting
      simp only [buildLoadedAccount, hexisting, Option.elim_none, buildAccountEntry]
      refine ⟨⟨List.nodup_nil, fun id => ?_⟩, ⟨List.nodup_nil, fun id => ?_⟩, rfl⟩
      · exact iff_of_false List.not_mem_nil fun ⟨entry, hentry, hof⟩ => htrades id entry hentry hof
      · exact iff_of_false List.not_mem_nil fun ⟨order, horder, hof⟩ => hpending id order horder hof
    | some existing =>
      obtain ⟨htrades, hpending, hfloating⟩ := hcons.accounts row.id existing hexisting
      simp only [buildLoadedAccount, hexisting, Option.elim_some, buildAccountEntry]
      exact ⟨htrades, hpending, hfloating⟩
  · rw [if_neg hid] at ha
    obtain ⟨htrades, hpending, hfloating⟩ := hcons.accounts id a ha
    exact ⟨htrades, hpending, hfloating⟩

theorem loadFirst_consistent (hcons : s.Consistent) {accountRow : Option Account}
    (hload : ∀ account ∈ accountRow, s.Loadable account) :
    (accountRow.elim s s.upsertAccount).Consistent := by
  cases accountRow with
  | none => exact hcons
  | some account => exact upsertAccount_consistent hcons (hload account rfl)

/-- Loading an account leaves everybody else's entry alone, and a loadable one has no old trade. -/
theorem loadFirst_byAccount {accountRow : Option Account} {accountId : Nat}
    (hnone : s.byAccount accountId = none) (hother : ∀ account ∈ accountRow, account.id ≠ accountId) :
    (accountRow.elim s s.upsertAccount).byAccount accountId = none := by
  cases accountRow with
  | none => exact hnone
  | some account =>
    rw [Option.elim_some, upsertAccount_byAccount, if_neg fun h => hother account rfl h.symm]
    exact hnone

/-! ### Trades -/

theorem pnlOf_eq {tradeId : Nat} {entry : TradeEntry}
    (hentry : s.byId tradeId = some entry) : s.pnlOf tradeId = s.lastPnl entry.ref := by
  rw [pnlOf, hentry, Option.elim_some]

/-- Two ids do not share an entry. -/
theorem Consistent.ref_inj (hcons : s.Consistent) {tradeId other : Nat} {entry entry' : TradeEntry}
    (hentry : s.byId tradeId = some entry) (hentry' : s.byId other = some entry')
    (href : entry.ref = entry'.ref) : tradeId = other := by
  obtain ⟨hid, hmade⟩ := hcons.entries tradeId entry hentry
  obtain ⟨hid', hmade'⟩ := hcons.entries other entry' hentry'
  have hrow : entry.row = entry'.row := Option.some.inj (hmade.symm.trans (href ▸ hmade'))
  rw [← hid, hrow, hid']

/-- Writing an indexed entry's last profit changes one share. -/
theorem pnlOf_update (hcons : s.Consistent) {tradeId : Nat} {entry : TradeEntry}
    (hentry : s.byId tradeId = some entry) (pnl : ℚ) :
    (fun id => (s.byId id).elim 0 fun e => Function.update s.lastPnl entry.ref pnl e.ref)
      = Function.update s.pnlOf tradeId pnl := by
  funext id
  rw [Function.update_apply]
  by_cases hid : id = tradeId
  · rw [if_pos hid, hid, hentry, Option.elim_some, Function.update_self]
  · rw [if_neg hid, pnlOf]
    cases hother : s.byId id with
    | none => rfl
    | some other =>
      have href : other.ref ≠ entry.ref := fun h => hid (hcons.ref_inj hother hentry h)
      rw [Option.elim_some, Option.elim_some, Function.update_of_ne href]

theorem withdrawPrevious_of_fresh {row : Trade} (hfresh : s.byId row.id = none) :
    s.withdrawPrevious row = s := by
  rw [withdrawPrevious, hfresh]

/-- The buckets and the accounts without the entry that is replaced. -/
theorem withdrawPrevious_of_indexed {row : Trade} {previous : TradeEntry}
    (hprevious : s.byId row.id = some previous) :
    (s.withdrawPrevious row).byInstrument
        = (if previous.row.instrument ≠ row.instrument then
            setIn s.byInstrument previous.row.instrument previous.row.id none
          else s.byInstrument) ∧
      (s.withdrawPrevious row).byAccount = Function.update s.byAccount previous.row.accountId
        ((s.byAccount previous.row.accountId).map fun a =>
          { a with floatingPnl := a.floatingPnl - s.lastPnl previous.ref }) := by
  rw [withdrawPrevious, hprevious]
  exact ⟨rfl, rfl⟩

theorem withdrawPrevious_rest (s : TradeIndex) (row : Trade) :
    (s.withdrawPrevious row).made = s.made ∧ (s.withdrawPrevious row).lastPnl = s.lastPnl ∧
      (s.withdrawPrevious row).byId = s.byId ∧
      (s.withdrawPrevious row).pendingById = s.pendingById ∧
      (s.withdrawPrevious row).pendingByInstrument = s.pendingByInstrument := by
  rw [withdrawPrevious]
  split <;> exact ⟨rfl, rfl, rfl, rfl, rfl⟩

theorem AccountConsistent.fresh {accountId tradeId : Nat} {a : LoadedAccount}
    (haccount : s.AccountConsistent accountId a) (hfresh : s.byId tradeId = none) :
    tradeId ∉ a.tradeIds := by
  intro hlisted
  obtain ⟨entry, hentry, _⟩ := (haccount.trades.mem_iff tradeId).mp hlisted
  rw [hfresh] at hentry
  cases hentry

theorem AccountConsistent.listed_iff {accountId tradeId : Nat} {a : LoadedAccount} {entry : TradeEntry}
    (haccount : s.AccountConsistent accountId a) (hentry : s.byId tradeId = some entry) :
    tradeId ∈ a.tradeIds ↔ entry.row.accountId = accountId := by
  rw [haccount.trades.mem_iff, hentry]
  simp only [Option.mem_def, Option.some.injEq, exists_eq_left']

/-- Only the account that lists the replaced trade gives up its share. -/
theorem withdrawPrevious_byAccount (hcons : s.Consistent) {row : Trade} {accountId : Nat}
    {a' : LoadedAccount} (ha' : (s.withdrawPrevious row).byAccount accountId = some a') :
    ∃ a, s.byAccount accountId = some a ∧ a'.tradeIds = a.tradeIds ∧ a'.pendingIds = a.pendingIds ∧
      a'.floatingPnl = a.floatingPnl - if row.id ∈ a.tradeIds then s.pnlOf row.id else 0 := by
  cases hprevious : s.byId row.id with
  | none =>
    rw [withdrawPrevious_of_fresh hprevious] at ha'
    have hfresh := (hcons.accounts accountId a' ha').fresh hprevious
    exact ⟨a', ha', rfl, rfl, by rw [if_neg hfresh, sub_zero]⟩
  | some previous =>
    rw [(withdrawPrevious_of_indexed hprevious).2, Function.update_apply] at ha'
    by_cases hid : accountId = previous.row.accountId
    · rw [if_pos hid, ← hid] at ha'
      obtain ⟨a, ha, rfl⟩ := Option.map_eq_some_iff.mp ha'
      have hlisted := ((hcons.accounts accountId a ha).listed_iff hprevious).mpr hid.symm
      exact ⟨a, ha, rfl, rfl, by rw [if_pos hlisted, pnlOf_eq hprevious]⟩
    · rw [if_neg hid] at ha'
      have hfresh : row.id ∉ a'.tradeIds := fun hlisted =>
        hid (((hcons.accounts accountId a' ha').listed_iff hprevious).mp hlisted).symm
      exact ⟨a', ha', rfl, rfl, by rw [if_neg hfresh, sub_zero]⟩

theorem withdrawPrevious_byInstrument (hcons : s.Consistent) (row : Trade) (ref : Nat) :
    Grouped (fun entry : TradeEntry => entry.row.instrument)
      (Function.update s.byId row.id (some ⟨ref, row⟩))
      (setIn (s.withdrawPrevious row).byInstrument row.instrument row.id (some ⟨ref, row⟩)) := by
  cases hprevious : s.byId row.id with
  | none =>
    rw [withdrawPrevious_of_fresh hprevious]
    refine hcons.byInstrument.insert (v := ⟨ref, row⟩) fun old hold => ?_
    rw [hprevious] at hold
    cases hold
  | some previous =>
    rw [(withdrawPrevious_of_indexed hprevious).1]
    by_cases hmoved : previous.row.instrument ≠ row.instrument
    · have herased := hcons.byInstrument.erase hprevious
      have hinserted := herased.insert (k := row.id) (v := ⟨ref, row⟩) fun old hold => by
        rw [Option.mem_def, Function.update_self] at hold
        cases hold
      rw [Function.update_idem] at hinserted
      rw [if_pos hmoved, (hcons.entries _ _ hprevious).1]
      exact hinserted
    · rw [if_neg hmoved]
      refine hcons.byInstrument.insert (v := ⟨ref, row⟩) fun old hold => ?_
      rw [hprevious] at hold
      cases hold
      exact not_not.mp hmoved

theorem install_byAccount (s : TradeIndex) (row : Trade) (id : Nat) :
    (s.install row).byAccount id = if id = row.accountId then (s.byAccount row.accountId).map fun a =>
      { a with tradeIds := a.tradeIds.insert row.id } else s.byAccount id :=
  Function.update_apply ..

/-- A fresh entry has no value yet, and its object is none that the index holds. -/
theorem replaceTrade_pnlOf (hcons : s.Consistent) (row : Trade) :
    ((s.withdrawPrevious row).install row).pnlOf = Function.update s.pnlOf row.id 0 := by
  obtain ⟨hmade, hlastPnl, hbyId, _⟩ := s.withdrawPrevious_rest row
  funext id
  simp only [install, withAccount, pnlOf, hmade, hlastPnl, hbyId, Function.update_apply]
  by_cases hid : id = row.id
  · simp only [hid, if_true, Option.elim_some]
  · simp only [if_neg hid]
    cases hentry : s.byId id with
    | none => rfl
    | some entry =>
      have hold : entry.ref < s.made.length :=
        (List.getElem?_eq_some_iff.mp (hcons.entries id entry hentry).2).1
      simp only [Option.elim_some, if_neg hold.ne]

/-- A fresh entry of an id that keeps its account leaves the index consistent. -/
theorem replaceTrade_consistent (hcons : s.Consistent) {row : Trade}
    (hkeeps : ∀ previous ∈ s.byId row.id, previous.row.accountId = row.accountId ∨
      s.byAccount previous.row.accountId = none) :
    ((s.withdrawPrevious row).install row).Consistent := by
  obtain ⟨hmade, _, hbyId, hpendingById, hpendingBy⟩ := s.withdrawPrevious_rest row
  have hpnl := replaceTrade_pnlOf hcons row
  refine ⟨fun id entry hentry => ?_, ?_, ?_, ?_, fun accountId a' ha' => ?_⟩
  · simp only [install, withAccount, hmade, hbyId, Function.update_apply, Option.mem_def] at hentry ⊢
    by_cases hid : id = row.id
    · rw [if_pos hid] at hentry
      obtain rfl := Option.some.inj hentry
      exact ⟨hid.symm, by simp⟩
    · rw [if_neg hid] at hentry
      obtain ⟨hrow, hold⟩ := hcons.entries id entry hentry
      exact ⟨hrow, by rw [List.getElem?_append_left (List.getElem?_eq_some_iff.mp hold).1, hold]⟩
  · simp only [install, withAccount, hmade, hbyId]
    exact withdrawPrevious_byInstrument hcons row _
  · simp only [install, withAccount, hpendingById]
    exact hcons.pendingEntries
  · simp only [install, withAccount, hpendingById, hpendingBy]
    exact hcons.pendingByInstrument
  · rw [install_byAccount] at ha'
    by_cases hid : accountId = row.accountId
    · rw [if_pos hid, ← hid] at ha'
      obtain ⟨shed, hshed, rfl⟩ := Option.map_eq_some_iff.mp ha'
      obtain ⟨a, ha, htrades, hpending, hfloating⟩ := withdrawPrevious_byAccount hcons hshed
      obtain ⟨hmembers, hmembersPending, htotal⟩ := hcons.accounts accountId a ha
      refine ⟨?_, ?_, ?_⟩
      · simp only [install, withAccount, hbyId, htrades]
        exact hmembers.insert hid.symm
      · simp only [install, withAccount, hpendingById, hpending]
        exact hmembersPending
      · simp only [hpnl, htrades, hfloating, htotal]
        exact (total_insert hmembers.nodup).symm
    · rw [if_neg hid] at ha'
      obtain ⟨a, ha, htrades, hpending, hfloating⟩ := withdrawPrevious_byAccount hcons ha'
      have haccount := hcons.accounts accountId a ha
      -- the replaced trade belongs to the same account or to none that is loaded
      have hfresh : row.id ∉ a.tradeIds := by
        intro hlisted
        obtain ⟨previous, hprevious, hof⟩ := (haccount.trades.mem_iff row.id).mp hlisted
        obtain hsame | hunloaded := hkeeps previous hprevious
        · exact hid (hof.symm.trans hsame)
        · rw [hof, ha] at hunloaded
          cases hunloaded
      obtain ⟨hmembers, hmembersPending, htotal⟩ := haccount
      refine ⟨?_, ?_, ?_⟩
      · simp only [install, withAccount, hbyId, htrades]
        exact hmembers.insert_other (Ne.symm hid) hfresh
      · simp only [install, withAccount, hpendingById, hpending]
        exact hmembersPending
      · rw [hpnl, htrades, hfloating, htotal, total_update hmembers.nodup, if_neg hfresh, if_neg hfresh,
          sub_zero, add_zero]

theorem pnlOf_erased (hcons : s.Consistent) {tradeId : Nat} {entry : TradeEntry}
    (hentry : s.byId tradeId = some entry) {lastPnl : Nat → ℚ}
    (hothers : ∀ ref, ref ≠ entry.ref → lastPnl ref = s.lastPnl ref) :
    (fun id => (Function.update s.byId tradeId none id).elim 0 fun e => lastPnl e.ref)
      = Function.update s.pnlOf tradeId 0 := by
  funext id
  rw [Function.update_apply, Function.update_apply]
  by_cases hid : id = tradeId
  · rw [if_pos hid, if_pos hid, Option.elim_none]
  · rw [if_neg hid, if_neg hid, pnlOf]
    cases hother : s.byId id with
    | none => rfl
    | some other => exact hothers other.ref fun h => hid (hcons.ref_inj hother hentry h)

/-- What an account that does not list the removed trade keeps. -/
theorem AccountConsistent.erase_other (hcons : s.Consistent) {accountId tradeId : Nat}
    {entry : TradeEntry} {a : LoadedAccount} {s' : TradeIndex} (hentry : s.byId tradeId = some entry)
    (haccount : s.AccountConsistent accountId a) (hother : entry.row.accountId ≠ accountId)
    (hbyId : s'.byId = Function.update s.byId tradeId none) (hpending : s'.pendingById = s.pendingById)
    (hothers : ∀ ref, ref ≠ entry.ref → s'.lastPnl ref = s.lastPnl ref) :
    s'.AccountConsistent accountId a := by
  have hfresh : tradeId ∉ a.tradeIds := fun hlisted =>
    hother ((haccount.listed_iff hentry).mp hlisted)
  have hpnl : s'.pnlOf = Function.update s.pnlOf tradeId 0 := by
    rw [← pnlOf_erased hcons hentry hothers, ← hbyId]
    rfl
  refine ⟨hbyId ▸ haccount.trades.erase_other hfresh, hpending ▸ haccount.pending, ?_⟩
  rw [hpnl, total_update haccount.trades.nodup, if_neg hfresh, add_zero]
  exact haccount.floatingPnl

theorem removeTrade_consistent (hcons : s.Consistent) (tradeId : Nat) :
    (s.removeTrade tradeId).Consistent := by
  rw [removeTrade]
  cases hentry : s.byId tradeId with
  | none => exact hcons
  | some entry =>
    dsimp only
    have hbuckets := hcons.byInstrument.erase hentry
    have hentries : ∀ id, ∀ e ∈ Function.update s.byId tradeId none id,
        e.row.id = id ∧ s.made[e.ref]? = some e.row := by
      intro id e he
      rw [Option.mem_def, Function.update_apply] at he
      by_cases hid : id = tradeId
      · rw [if_pos hid] at he
        cases he
      · rw [if_neg hid] at he
        exact hcons.entries id e he
    cases hloaded : s.byAccount entry.row.accountId with
    | none =>
      refine ⟨hentries, hbuckets, hcons.pendingEntries, hcons.pendingByInstrument, fun id a ha => ?_⟩
      have hother : entry.row.accountId ≠ id := by
        rintro rfl
        rw [hloaded] at ha
        cases ha
      exact (hcons.accounts id a ha).erase_other hcons hentry hother rfl rfl fun _ _ => rfl
    | some account =>
      refine ⟨hentries, hbuckets, hcons.pendingEntries, hcons.pendingByInstrument, fun id a' ha' => ?_⟩
      have hothers : ∀ ref, ref ≠ entry.ref →
          Function.update s.lastPnl entry.ref 0 ref = s.lastPnl ref :=
        fun ref href => Function.update_of_ne href ..
      rw [Option.mem_def, withAccount_byAccount] at ha'
      by_cases hid : id = entry.row.accountId
      · rw [if_pos hid, ← hid] at ha'
        obtain ⟨a, ha, rfl⟩ := Option.map_eq_some_iff.mp ha'
        have haccount := hcons.accounts id a ha
        have hlisted := (haccount.listed_iff hentry).mpr hid.symm
        have htotal := total_erase (f := s.pnlOf) (k := tradeId) haccount.trades.nodup
        rw [if_pos hlisted, pnlOf_eq hentry, ← haccount.floatingPnl, ← pnlOf_erased hcons hentry hothers]
          at htotal
        exact ⟨haccount.trades.erase, haccount.pending, htotal.symm⟩
      · rw [if_neg hid] at ha'
        exact (hcons.accounts id a' ha').erase_other hcons hentry (Ne.symm hid) rfl rfl hothers

/-! ### Running totals -/

theorem applyTradePnl_consistent (hcons : s.Consistent) {ref : Nat} {pnl : ℚ}
    (hheld : ∀ row ∈ s.made[ref]?, s.byId row.id = some ⟨ref, row⟩ ∨
      s.byAccount row.accountId = none ∨ pnl = s.lastPnl ref) :
    (s.applyTradePnl ref pnl).Consistent := by
  rw [applyTradePnl]
  cases hrow : s.made[ref]? with
  | none => exact hcons
  | some row =>
    dsimp only
    refine ⟨hcons.entries, hcons.byInstrument, hcons.pendingEntries, hcons.pendingByInstrument,
      fun id a' ha' => ?_⟩
    rw [Option.mem_def, withAccount_byAccount] at ha'
    by_cases hindexed : s.byId row.id = some ⟨ref, row⟩
    · have hpnl := pnlOf_update hcons hindexed pnl
      by_cases hid : id = row.accountId
      · rw [if_pos hid, ← hid] at ha'
        obtain ⟨a, ha, rfl⟩ := Option.map_eq_some_iff.mp ha'
        have haccount := hcons.accounts id a ha
        have hlisted := (haccount.listed_iff hindexed).mpr hid.symm
        have htotal := total_update (f := s.pnlOf) (k := row.id) haccount.trades.nodup pnl
        rw [if_pos hlisted, pnlOf_eq hindexed, ← haccount.floatingPnl, ← hpnl] at htotal
        exact ⟨haccount.trades, haccount.pending, htotal.symm⟩
      · rw [if_neg hid] at ha'
        have haccount := hcons.accounts id a' ha'
        have hfresh : row.id ∉ a'.tradeIds := fun hlisted =>
          hid ((haccount.listed_iff hindexed).mp hlisted).symm
        have htotal := total_update (f := s.pnlOf) (k := row.id) haccount.trades.nodup pnl
        rw [if_neg hfresh, add_zero, ← haccount.floatingPnl, ← hpnl] at htotal
        exact ⟨haccount.trades, haccount.pending, htotal.symm⟩
    · -- no indexed trade has this entry, so every share stays
      have hpnl : (fun id => (s.byId id).elim 0 fun e => Function.update s.lastPnl ref pnl e.ref)
          = s.pnlOf := by
        funext id
        rw [pnlOf]
        cases hentry : s.byId id with
        | none => rfl
        | some entry =>
          obtain ⟨hkey, hmade⟩ := hcons.entries id entry hentry
          refine Function.update_of_ne (fun href => hindexed ?_) ..
          have hsame : entry.row = row := Option.some.inj (hmade.symm.trans (href ▸ hrow))
          rw [← hsame, hkey, hentry, ← href]
      by_cases hid : id = row.accountId
      · rw [if_pos hid, ← hid] at ha'
        obtain ⟨a, ha, rfl⟩ := Option.map_eq_some_iff.mp ha'
        have haccount := hcons.accounts id a ha
        have hunchanged : pnl = s.lastPnl ref := by
          obtain hheld | hunloaded | hunchanged := hheld row hrow
          · exact absurd hheld hindexed
          · rw [← hid, ha] at hunloaded
            cases hunloaded
          · exact hunchanged
        have htotal := haccount.floatingPnl
        rw [← hpnl] at htotal
        refine ⟨haccount.trades, haccount.pending, ?_⟩
        rw [hunchanged, sub_self, add_zero, ← hunchanged]
        exact htotal
      · rw [if_neg hid] at ha'
        have haccount := hcons.accounts id a' ha'
        have htotal := haccount.floatingPnl
        rw [← hpnl] at htotal
        exact ⟨haccount.trades, haccount.pending, htotal⟩

theorem resetFloatingPnl_consistent (hcons : s.Consistent) : s.resetFloatingPnl.Consistent := by
  have hpnl : s.resetFloatingPnl.pnlOf = fun _ => 0 := by
    funext id
    simp only [pnlOf, resetFloatingPnl]
    cases hentry : s.byId id with
    | none => rfl
    | some entry =>
      obtain ⟨hkey, hmade⟩ := hcons.entries id entry hentry
      rw [Option.elim_some, hmade]
      exact if_pos (hkey ▸ hentry)
  refine ⟨hcons.entries, hcons.byInstrument, hcons.pendingEntries, hcons.pendingByInstrument,
    fun id a' ha' => ?_⟩
  obtain ⟨a, ha, rfl⟩ := Option.map_eq_some_iff.mp ha'
  have haccount := hcons.accounts id a ha
  refine ⟨haccount.trades, haccount.pending, ?_⟩
  rw [hpnl]
  exact List.sum_map_zero.symm

/-! ### Pending orders -/

/-- The pending half of the index, on which the other half does not depend. -/
theorem Consistent.of_pending {s' : TradeIndex} (hcons : s.Consistent)
    (htrades : s'.made = s.made ∧ s'.lastPnl = s.lastPnl ∧ s'.byId = s.byId ∧
      s'.byInstrument = s.byInstrument)
    (hentries : ∀ orderId, ∀ row ∈ s'.pendingById orderId, row.id = orderId)
    (hbuckets : Grouped Trade.instrument s'.pendingById s'.pendingByInstrument)
    (haccounts : ∀ accountId, ∀ a' ∈ s'.byAccount accountId, ∃ a, s.byAccount accountId = some a ∧
      a'.tradeIds = a.tradeIds ∧ a'.floatingPnl = a.floatingPnl ∧
      Members Trade.accountId s'.pendingById accountId a'.pendingIds) : s'.Consistent := by
  obtain ⟨hmade, hlastPnl, hbyId, hbyInstrument⟩ := htrades
  refine ⟨?_, ?_, hentries, hbuckets, fun id a' ha' => ?_⟩
  · rw [hbyId, hmade]
    exact hcons.entries
  · rw [hbyId, hbyInstrument]
    exact hcons.byInstrument
  · obtain ⟨a, ha, hids, hfloating, hpending⟩ := haccounts id a' ha'
    have haccount := hcons.accounts id a ha
    have hpnl : s'.pnlOf = s.pnlOf := by
      funext tradeId
      rw [pnlOf, pnlOf, hbyId, hlastPnl]
    refine ⟨?_, hpending, ?_⟩
    · rw [hbyId, hids]
      exact haccount.trades
    · rw [hfloating, hpnl, hids]
      exact haccount.floatingPnl

theorem removePending_consistent (hcons : s.Consistent) (orderId : Nat) :
    (s.removePending orderId).Consistent := by
  rw [removePending]
  cases hentry : s.pendingById orderId with
  | none => exact hcons
  | some entry =>
    dsimp only
    refine hcons.of_pending ⟨rfl, rfl, rfl, rfl⟩ (fun id row hrow => ?_)
      (hcons.pendingByInstrument.erase hentry) fun id a' ha' => ?_
    · simp only [withAccount, Option.mem_def, Function.update_apply] at hrow
      split at hrow
      · cases hrow
      · exact hcons.pendingEntries id row hrow
    · rw [Option.mem_def, withAccount_byAccount] at ha'
      by_cases hid : id = entry.accountId
      · rw [if_pos hid, ← hid] at ha'
        obtain ⟨a, ha, rfl⟩ := Option.map_eq_some_iff.mp ha'
        exact ⟨a, ha, rfl, rfl, (hcons.accounts id a ha).pending.erase⟩
      · rw [if_neg hid] at ha'
        have hpending := (hcons.accounts id a' ha').pending
        have hfresh : orderId ∉ a'.pendingIds := by
          rw [hpending.mem_iff, hentry]
          rintro ⟨_, ⟨⟩, hof⟩
          exact hid hof.symm
        exact ⟨a', ha', rfl, rfl, hpending.erase_other hfresh⟩

theorem addPending_consistent (hcons : s.Consistent) {row : Trade}
    (hkeeps : ∀ previous ∈ s.pendingById row.id, previous.accountId = row.accountId ∨
      s.byAccount previous.accountId = none) :
    (s.addPending row none).Consistent := by
  refine hcons.of_pending ⟨rfl, rfl, rfl, rfl⟩ (fun id order horder => ?_) ?_ fun id a' ha' => ?_
  · simp only [addPending, withAccount, Option.elim_none, Option.mem_def, Function.update_apply] at horder
    split at horder
    · rename_i hid
      obtain rfl := Option.some.inj horder
      exact hid.symm
    · exact hcons.pendingEntries id order horder
  · simp only [addPending, withAccount, Option.elim_none]
    cases hprevious : s.pendingById row.id with
    | none =>
      refine hcons.pendingByInstrument.insert fun old hold => ?_
      rw [hprevious] at hold
      cases hold
    | some previous =>
      dsimp only
      by_cases hmoved : previous.instrument ≠ row.instrument
      · have herased := hcons.pendingByInstrument.erase hprevious
        have hinserted := herased.insert (k := row.id) (v := row) fun old hold => by
          rw [Option.mem_def, Function.update_self] at hold
          cases hold
        rw [Function.update_idem] at hinserted
        rw [if_pos hmoved, hcons.pendingEntries _ _ hprevious]
        exact hinserted
      · rw [if_neg hmoved]
        refine hcons.pendingByInstrument.insert fun old hold => ?_
        rw [hprevious] at hold
        cases hold
        exact not_not.mp hmoved
  · simp only [addPending, Option.elim_none, Option.mem_def] at ha'
    rw [withAccount_byAccount] at ha'
    by_cases hid : id = row.accountId
    · rw [if_pos hid, ← hid] at ha'
      obtain ⟨a, ha, rfl⟩ := Option.map_eq_some_iff.mp ha'
      exact ⟨a, ha, rfl, rfl, (hcons.accounts id a ha).pending.insert hid.symm⟩
    · rw [if_neg hid] at ha'
      have hpending := (hcons.accounts id a' ha').pending
      have hfresh : row.id ∉ a'.pendingIds := by
        intro hlisted
        obtain ⟨previous, hprevious, hof⟩ := (hpending.mem_iff row.id).mp hlisted
        obtain hsame | hunloaded := hkeeps previous hprevious
        · exact hid (hof.symm.trans hsame)
        · rw [hof] at hunloaded
          exact nomatch hunloaded.symm.trans ha'
      exact ⟨a', ha', rfl, rfl, hpending.insert_other (Ne.symm hid) hfresh⟩

/-! ### Runs -/

theorem foldl_consistent {remove : TradeIndex → Nat → TradeIndex}
    (hremove : ∀ s : TradeIndex, s.Consistent → ∀ id, (remove s id).Consistent) (ids : List Nat) :
    ∀ s : TradeIndex, s.Consistent → (ids.foldl remove s).Consistent := by
  induction ids with
  | nil => exact fun _ hcons => hcons
  | cons id ids ih => exact fun s hcons => ih (remove s id) (hremove s hcons id)

theorem removeAccount_consistent (hcons : s.Consistent) (accountId : Nat) :
    (s.removeAccount accountId).Consistent := by
  rw [removeAccount]
  cases s.byAccount accountId with
  | none => exact hcons
  | some account =>
    have htrades := foldl_consistent (fun _ h id => removeTrade_consistent h id) account.tradeIds s hcons
    have hboth := foldl_consistent (fun _ h id => removePending_consistent h id) account.pendingIds _ htrades
    refine ⟨hboth.entries, hboth.byInstrument, hboth.pendingEntries, hboth.pendingByInstrument,
      fun id a ha => ?_⟩
    dsimp only at ha
    rw [Option.mem_def, Function.update_apply] at ha
    split at ha
    · cases ha
    · obtain ⟨hmembers, hpending, htotal⟩ := hboth.accounts id a ha
      exact ⟨hmembers, hpending, htotal⟩

/-- An account row that comes with a trade is loaded first, which unloads nobody. -/
theorem loadFirst_unloaded {accountRow : Option Account}
    (hload : ∀ account ∈ accountRow, s.Loadable account) {accountId : Nat}
    (hnone : s.byAccount accountId = none)
    (hindexed : (∃ id, ∃ entry ∈ s.byId id, entry.row.accountId = accountId) ∨
      ∃ id, ∃ order ∈ s.pendingById id, order.accountId = accountId) :
    (accountRow.elim s s.upsertAccount).byAccount accountId = none := by
  refine loadFirst_byAccount hnone fun account haccount hid => ?_
  obtain ⟨htrades, hpending⟩ := hload account haccount (hid ▸ hnone)
  obtain ⟨id, entry, hentry, hof⟩ | ⟨id, order, horder, hof⟩ := hindexed
  · exact htrades id entry hentry (hof.trans hid.symm)
  · exact hpending id order horder (hof.trans hid.symm)

theorem step_consistent {s' : TradeIndex} {action : IndexAction} (hcons : s.Consistent)
    (hok : s.Careful action) (hstep : s.step action = some s') : s'.Consistent := by
  cases action with
  | addTrade row accountRow =>
    cases hstep
    obtain ⟨hload, hkeeps⟩ := hok
    refine replaceTrade_consistent (loadFirst_consistent hcons hload) fun previous hprevious => ?_
    have hbyId : (accountRow.elim s s.upsertAccount).byId = s.byId := by cases accountRow <;> rfl
    rw [hbyId] at hprevious
    refine (hkeeps previous hprevious).imp_right fun hnone => ?_
    exact loadFirst_unloaded hload hnone (.inl ⟨_, previous, hprevious, rfl⟩)
  | addPending row accountRow =>
    cases hstep
    obtain ⟨hload, hkeeps⟩ := hok
    refine addPending_consistent (s := accountRow.elim s s.upsertAccount)
      (loadFirst_consistent hcons hload) fun previous hprevious => ?_
    have hbyId : (accountRow.elim s s.upsertAccount).pendingById = s.pendingById := by
      cases accountRow <;> rfl
    rw [hbyId] at hprevious
    refine (hkeeps previous hprevious).imp_right fun hnone => ?_
    exact loadFirst_unloaded hload hnone (.inr ⟨_, previous, hprevious, rfl⟩)
  | upsertAccount row =>
    cases hstep
    exact upsertAccount_consistent hcons hok
  | removeTrade tradeId =>
    cases hstep
    exact removeTrade_consistent hcons tradeId
  | removePending orderId =>
    cases hstep
    exact removePending_consistent hcons orderId
  | removeAccount accountId =>
    cases hstep
    exact removeAccount_consistent hcons accountId
  | applyTradePnl ref pnl =>
    cases hstep
    exact applyTradePnl_consistent hcons hok
  | resetFloatingPnl =>
    cases hstep
    exact resetFloatingPnl_consistent hcons

/-- Loaded before its trades and never parted from them by a re-add, every account lists exactly its
trades and its total is theirs. -/
theorem reached_consistent (hreach : Reach step Careful (· = empty) s) : s.Consistent := by
  refine hreach.invariant ?_ fun s a s' hcons hok hstep => step_consistent hcons hok hstep
  rintro s rfl
  exact empty_consistent

def longOne : Trade :=
  { sampleOrder.row 7 .opened with openPrice := some (11 / 10), openTime := some 0 }

/-- A trade that comes with its account, is priced, halved and priced again. -/
def halved : List IndexAction :=
  [.addTrade longOne (some (sampleTerms.provision 1)), .applyTradePnl 0 500,
    .addTrade { longOne with lotSize := 1 / 2 } none, .applyTradePnl 1 250]

theorem reached_consistent_halved : ∃ s a, run step empty halved = some s ∧ s.byAccount 1 = some a ∧
    a.tradeIds = [7] ∧ a.floatingPnl = 250 ∧ s.Consistent := by
  obtain ⟨s, hrun, htest⟩ := exists_of_run_any step empty halved
    (fun s => (s.byAccount 1).any fun a => a.tradeIds = [7] ∧ a.floatingPnl = 250) (by decide +kernel)
  obtain ⟨a, ha, htest⟩ := (Option.any_eq_true _ _).mp htest
  obtain ⟨hids, hfloating⟩ := of_decide_eq_true htest
  refine ⟨s, a, hrun, ha, hids, hfloating, reached_consistent (.of_run (.init rfl) ?_ hrun)⟩
  refine ⟨⟨fun account _ => empty_loadable account, fun previous hprevious => ?_⟩, fun t ht => ?_⟩
  · cases hprevious
  cases ht
  refine ⟨fun row hrow => ?_, fun t ht => ?_⟩
  · cases hrow
    exact .inl rfl
  cases ht
  refine ⟨⟨fun account haccount => ?_, fun previous hprevious => ?_⟩, fun t ht => ?_⟩
  · cases haccount
  · cases hprevious
    exact .inl rfl
  cases ht
  refine ⟨fun row hrow => ?_, fun _ _ => trivial⟩
  cases hrow
  exact .inl rfl

/-- A trade indexed and priced before its account is loaded. -/
def loadedLate : List IndexAction :=
  [.addTrade longOne none, .applyTradePnl 0 500, .upsertAccount (sampleTerms.provision 1)]

theorem orphaned_by_late_account : ∃ s entry a a',
    run step empty loadedLate = some s ∧ s.byId 7 = some entry ∧ entry.row.accountId = 1 ∧
      s.byAccount 1 = some a ∧ 7 ∉ a.tradeIds ∧
      (s.addTrade longOne none).byAccount 1 = some a' ∧ a'.tradeIds = [7] ∧
      (s.addTrade longOne none).pnlOf 7 = 0 ∧ a'.floatingPnl = -500 := by
  obtain ⟨s, hrun, htest⟩ := exists_of_run_any step empty loadedLate
    (fun s => (s.byId 7).any fun entry => entry.row.accountId = 1 ∧
      (s.byAccount 1).any fun a => 7 ∉ a.tradeIds ∧
        ((s.addTrade longOne none).byAccount 1).any fun a' => a'.tradeIds = [7] ∧
          (s.addTrade longOne none).pnlOf 7 = 0 ∧ a'.floatingPnl = -500) (by decide +kernel)
  obtain ⟨entry, hentry, htest⟩ := (Option.any_eq_true _ _).mp htest
  obtain ⟨hof, htest⟩ := of_decide_eq_true htest
  obtain ⟨a, ha, htest⟩ := (Option.any_eq_true _ _).mp htest
  obtain ⟨hunlisted, htest⟩ := of_decide_eq_true htest
  obtain ⟨a', ha', htest⟩ := (Option.any_eq_true _ _).mp htest
  exact ⟨s, entry, a, a', hrun, hentry, hof, ha, hunlisted, ha', of_decide_eq_true htest⟩

end TradeIndex

end PropFirm
