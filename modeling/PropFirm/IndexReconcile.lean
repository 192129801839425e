import Mathlib
import PropFirm.StampedIndex

/-!
# The reconcile

`fullReconcileFromDB` refills the index from three queries, one after the other: the active accounts,
their open trades, their pending orders. It empties the id sets of the accounts when the trades return,
stamps what it has seen with its generation, and evicts at the end what bears an older stamp. Whatever
enters the index while a query is away bears the new stamp as well.

The transactions that commit meanwhile leave calls of the four mutators outstanding. On each of the two
id maps the index is a replica that is rebuilt under its writes.
-/

namespace PropFirm

open DelayedWrites Transition

/-! ### Commits and their calls -/

def Shelf.status : Shelf → TradeStatus
  | trades => .opened
  | orders => .pending

namespace IndexCall

def id (call : IndexCall) : Nat := call.op.key

def Concerns (row : Trade) : IndexCall → Prop
  | add _ added => added.id = row.id ∧ added.accountId = row.accountId
  | remove _ id => id = row.id

/-- Whether the id is in the map after the call. -/
def leaves (shelf : Shelf) (present : Bool) : IndexCall → Bool
  | add shelf' _ => shelf' = shelf || present
  | remove shelf' _ => shelf' ≠ shelf && present

instance (row : Trade) : DecidablePred (Concerns row)
  | add _ added => inferInstanceAs (Decidable (added.id = row.id ∧ added.accountId = row.accountId))
  | remove _ id => inferInstanceAs (Decidable (id = row.id))

end IndexCall

/-- The calls on one map. -/
def opsOn (calls : List IndexCall) (shelf : Shelf) : List (Op Nat) :=
  (calls.filter (·.shelf = shelf)).map IndexCall.op

/-- The calls take the id from where its row was to where it is. -/
def Settles (before : Option Trade) (row : Trade) (calls : List IndexCall) (shelf : Shelf) : Prop :=
  calls.foldl (IndexCall.leaves shelf) (before.any (·.status = shelf.status))
    = decide (row.status = shelf.status)

instance (before : Option Trade) (row : Trade) (calls : List IndexCall) (shelf : Shelf) :
    Decidable (Settles before row calls shelf) :=
  instDecidableEqBool _ _

namespace Trade

def replacedBy (row : Trade) : Table.Rewrite Trade where
  apply t := { row with id := t.id }
  key_apply _ := rfl

end Trade

namespace Db

/-- Insert a trade, or write to its row. Its account stays. -/
def writeTrade (db : Db) (row : Trade) : Option Db :=
  match db.trade? row.id with
  | none => (db.trades.insert? row).map fun trades => { db with trades := trades }
  | some old => do
    guard (old.accountId = row.accountId)
    some { db with trades := db.trades.updateAt row.id (Trade.replacedBy row) }

def activeAccount (db : Db) (accountId : Nat) : Bool :=
  (db.account? accountId).any (·.status = .active)

/-- The ids whose row says that they belong in the map. -/
def onShelf (db : Db) (shelf : Shelf) : Set Nat := {id | ∃ row ∈ db.trade? id, row.status = shelf.status}

instance (db : Db) (shelf : Shelf) (id : Nat) : Decidable (id ∈ db.onShelf shelf) :=
  inferInstanceAs (Decidable (∃ row ∈ db.trade? id, row.status = shelf.status))

/-- What the trades query and the pending query select. -/
def rowsOn (db : Db) (shelf : Shelf) : List Trade :=
  db.trades.rows.filter fun row => row.status = shelf.status ∧ db.activeAccount row.accountId

def activeAccounts (db : Db) : List Account := db.accounts.rows.filter (·.status = .active)

end Db

def IndexCall.AddsActive (db : Db) : IndexCall → Prop
  | add _ row => db.activeAccount row.accountId
  | remove _ _ => True

/-! ### The reconcile and the calls around it -/

/-- What the reconcile awaits, or that none is running. -/
inductive ReconcileStage
  | idle
  | accounts
  | settings
  | trades
  | orders
  | realized
  | finished
  deriving DecidableEq

/-- `read` are the rows that the query which is away has read. -/
structure ReconcileWorld where
  db : Db
  index : StampedIndex
  stage : ReconcileStage
  read : Option (List Trade)
  drift : Nat
  calls : List IndexCall

/-- A commit writes one row. One of several rows is as many commits. `limits` and `totals` are what the
drawdown settings and the realised profits write to the entries. -/
inductive ReconcileAction
  | commit (row : Trade) (calls : List IndexCall)
  | call (k : Nat)
  | start
  | accountsReturn
  | settingsResolved (limits : List (Nat × Limits))
  | readTrades
  | tradesReturn
  | readOrders
  | ordersReturn (needsRealized : Bool)
  | realizedReturns (totals : List (Nat × ℚ))
  | queryThrows

namespace ReconcileWorld

def boot (db : Db) : ReconcileWorld := ⟨db, .boot, .idle, none, 0, []⟩

def finish (w : ReconcileWorld) : ReconcileWorld :=
  { w with
    index := w.index.evict
    stage := .finished
    read := none
    drift := w.drift + (w.index.stale .trades).length + (w.index.stale .orders).length
      + w.index.staleAccounts.length }

def writeAccounts {V : Type} (w : ReconcileWorld) (values : List (Nat × V))
    (write : V → LoadedAccount → LoadedAccount) : ReconcileWorld :=
  { w with
    index.toTradeIndex := values.foldl
      (fun index (accountId, v) => index.withAccount accountId (write v)) w.index.toTradeIndex }

def step (w : ReconcileWorld) : ReconcileAction → Option ReconcileWorld
  | .commit row calls => do
    let db ← w.db.writeTrade row
    guard ((∀ call ∈ calls, call.Concerns row) ∧ Settles (w.db.trade? row.id) row calls .trades ∧
      Settles (w.db.trade? row.id) row calls .orders)
    some { w with db := db, calls := w.calls ++ calls }
  | .call k => do
    let call ← w.calls[k]?
    some { w with index := w.index.perform call, calls := w.calls.eraseIdx k }
  | .start => do
    guard (w.stage = .idle ∨ w.stage = .finished)
    some { w with index.generation := w.index.generation + 1, stage := .accounts, drift := 0 }
  | .accountsReturn => do
    guard (w.stage = .accounts)
    let rows := w.db.activeAccounts
    some { w with
      index := rows.foldl StampedIndex.upsertAccount w.index
      stage := .settings
      drift := w.drift + rows.countP fun row => (w.index.byAccount row.id).isNone }
  | .settingsResolved limits => do
    guard (w.stage = .settings)
    some { w.writeAccounts limits fun limits a => { a with limits := limits } with stage := .trades }
  | .readTrades => do
    guard (w.stage = .trades ∧ w.read.isNone)
    some { w with read := some (w.db.rowsOn .trades) }
  | .tradesReturn => do
    guard (w.stage = .trades)
    let rows ← w.read
    some { w with
      index := w.index.clearListings.addAll .trades rows
      stage := .orders
      read := none
      drift := w.drift + rows.countP fun row => !w.index.holds .trades row.id }
  | .readOrders => do
    guard (w.stage = .orders ∧ w.read.isNone)
    some { w with read := some (w.db.rowsOn .orders) }
  | .ordersReturn needsRealized => do
    guard (w.stage = .orders)
    let rows ← w.read
    let w' := { w with
      index := w.index.addAll .orders rows
      stage := .realized
      read := none
      drift := w.drift + rows.countP fun row => !w.index.holds .orders row.id }
    some (if needsRealized then w' else w'.finish)
  | .realizedReturns totals => do
    guard (w.stage = .realized)
    some (w.writeAccounts totals fun total a => { a with todayRealizedPnl := total }).finish
  | .queryThrows => do
    guard (w.stage ≠ .idle ∧ w.stage ≠ .finished ∧ w.stage ≠ .settings)
    some { w with stage := .idle, read := none }

/-- A call about this id of the map is outstanding. -/
def Outstanding (w : ReconcileWorld) (shelf : Shelf) (id : Nat) : Prop :=
  ∃ call ∈ w.calls, call.shelf = shelf ∧ call.id = id

/-- The calls about a trade run in the order of its commits, and an added row is of an active account. -/
def InOrder (w : ReconcileWorld) : ReconcileAction → Prop
  | .call k => ∀ call ∈ w.calls[k]?,
    (∀ earlier ∈ w.calls.take k, earlier.shelf = call.shelf → earlier.id ≠ call.id) ∧
      call.AddsActive w.db
  | _ => True

/-- The condition of a step: what a query read and what the database says by the time it returns differ
only where a call is outstanding. Of the orders it may have missed those that were placed since. -/
def KeepsIndex (w : ReconcileWorld) : ReconcileAction → Prop
  | .call k => w.InOrder (.call k)
  | .tradesReturn => ∀ rows ∈ w.read,
    (∀ row ∈ rows, row.id ∈ w.db.onShelf .trades ∨ w.Outstanding .trades row.id) ∧
      ∀ row ∈ w.db.trades.rows, row.status = .opened →
        row.id ∈ rows.map Trade.id ∨ w.Outstanding .trades row.id
  | .readOrders => ∀ row ∈ w.db.trades.rows, row.status = .pending →
    w.db.activeAccount row.accountId ∨ w.Outstanding .orders row.id
  | .ordersReturn _ => ∀ rows ∈ w.read, ∀ row ∈ rows,
    row.id ∈ w.db.onShelf .orders ∨ w.Outstanding .orders row.id
  | .commit _ _ | .start | .accountsReturn | .settingsResolved _ | .readTrades | .realizedReturns _
  | .queryThrows => True

/-- The index holds the open trades and the pending orders of the database, each in the list of its
account. -/
def Exact (w : ReconcileWorld) : Prop :=
  ∀ shelf id, (id ∈ w.index.held shelf ↔ id ∈ w.db.onShelf shelf) ∧
    ∀ row ∈ w.db.trade? id, row.status = shelf.status → w.index.Lists shelf row.accountId id

def Reconciled (w : ReconcileWorld) : Prop := w.stage = .finished → w.calls = [] → w.Exact

end ReconcileWorld

/-! ### Commits -/

theorem opsOn_append (calls later : List IndexCall) (shelf : Shelf) :
    opsOn (calls ++ later) shelf = opsOn calls shelf ++ opsOn later shelf := by
  rw [opsOn, List.filter_append, List.map_append]
  rfl

/-- Where the calls are without one of them. -/
theorem opsOn_eraseIdx {calls : List IndexCall} {call : IndexCall} {k : Nat}
    (hcall : calls[k]? = some call) (shelf : Shelf) :
    opsOn calls shelf
        = opsOn (calls.take k) shelf ++ (if call.shelf = shelf then [call.op] else [])
          ++ opsOn (calls.drop (k + 1)) shelf ∧
      opsOn (calls.eraseIdx k) shelf
        = opsOn (calls.take k) shelf ++ opsOn (calls.drop (k + 1)) shelf := by
  obtain ⟨hk, rfl⟩ := List.getElem?_eq_some_iff.mp hcall
  constructor
  · conv_lhs => rw [← List.take_append_drop k calls, List.drop_eq_getElem_cons hk]
    rw [opsOn_append, opsOn, List.append_assoc]
    congr 1
    rw [opsOn, List.filter_cons]
    split
    · rename_i hshelf
      rw [if_pos (by simpa using hshelf)]
      rfl
    · rename_i hshelf
      rw [if_neg (by simpa using hshelf)]
      rfl
  · rw [List.eraseIdx_eq_take_drop_succ, opsOn_append]

theorem mem_opsOn {calls : List IndexCall} {shelf : Shelf} {op : Op Nat} :
    op ∈ opsOn calls shelf ↔ ∃ call ∈ calls, call.shelf = shelf ∧ call.op = op := by
  simp [opsOn, and_assoc]

theorem IndexCall.Concerns.id_eq {row : Trade} {call : IndexCall} (hconcerns : call.Concerns row) :
    call.id = row.id := by
  cases call with
  | add _ added => exact hconcerns.1
  | remove _ id => exact hconcerns

/-- Calls about one id decide where it ends. -/
theorem mem_after_opsOn {row : Trade} {calls : List IndexCall}
    (hconcerns : ∀ call ∈ calls, call.Concerns row) {shelf : Shelf} {s : Set Nat} {present : Bool}
    (hpresent : row.id ∈ s ↔ present = true) :
    row.id ∈ after (opsOn calls shelf) s ↔ calls.foldl (IndexCall.leaves shelf) present = true := by
  induction calls generalizing s present with
  | nil => exact hpresent
  | cons call calls ih =>
    obtain ⟨hcall, hrest⟩ := List.forall_mem_cons.mp hconcerns
    rw [List.foldl_cons]
    by_cases hshelf : call.shelf = shelf
    · rw [opsOn, List.filter_cons_of_pos (by simpa using hshelf)]
      refine ih hrest ?_
      subst hshelf
      cases call with
      | add shelf added =>
        obtain ⟨hid, _⟩ := hcall
        exact iff_of_true (.inl hid.symm) (by simp [IndexCall.leaves, IndexCall.shelf])
      | remove shelf id =>
        have hid : id = row.id := hcall
        exact iff_of_false (fun h => h.2 hid.symm) (by simp [IndexCall.leaves, IndexCall.shelf])
    · rw [opsOn, List.filter_cons_of_neg (by simpa using hshelf)]
      refine ih hrest ?_
      cases call with
      | add shelf' added =>
        have hother : shelf' ≠ shelf := hshelf
        simpa [IndexCall.leaves, hother] using hpresent
      | remove shelf' id =>
        have hother : shelf' ≠ shelf := hshelf
        simpa [IndexCall.leaves, hother] using hpresent

namespace Db

variable {db db' : Db} {row : Trade}

theorem writeTrade_spec (hwrite : db.writeTrade row = some db') :
    db'.accounts = db.accounts ∧ (∀ old ∈ db.trade? row.id, old.accountId = row.accountId) ∧
      ∀ id, db'.trade? id = if id = row.id then some row else db.trade? id := by
  rw [writeTrade] at hwrite
  split at hwrite
  · rename_i hfresh
    obtain ⟨trades, hinsert, rfl⟩ := Option.map_eq_some_iff.mp hwrite
    refine ⟨rfl, fun old hold => ?_, fun id => ?_⟩
    · rw [hfresh] at hold
      cases hold
    · rw [trade?, Table.find?_of_insert? hinsert]
      exact if_congr eq_comm rfl rfl
  · rename_i old hold
    obtain ⟨_, hsame, hwrite⟩ := Option.bind_eq_some_iff.mp hwrite
    obtain rfl := Option.some.inj hwrite
    refine ⟨rfl, fun other hother => ?_, fun id => ?_⟩
    · rw [hold] at hother
      obtain rfl := Option.some.inj hother
      exact (Option.guard_eq_some' _).mp hsame
    · rw [trade?, Table.find?_updateAt]
      split
      · rename_i hid
        subst hid
        have hid : old.id = row.id := trade?_id hold
        have hold' : db.trades.find? row.id = some old := hold
        simp only [hold', Option.map_some, Trade.replacedBy, hid]
      · exact Option.map_id' ..

theorem OwnedBy.writeTrade {id accountId : Nat} (howned : db.OwnedBy id accountId)
    (hwrite : db.writeTrade row = some db') : db'.OwnedBy id accountId := by
  obtain ⟨_, hsame, htrade⟩ := writeTrade_spec hwrite
  obtain ⟨old, hold, rfl⟩ := howned
  rw [OwnedBy, htrade]
  split
  · rename_i hid
    exact ⟨row, rfl, (hsame old (hid ▸ hold)).symm⟩
  · exact ⟨old, hold, rfl⟩

theorem writeTrade_ownedBy (hwrite : db.writeTrade row = some db') : db'.OwnedBy row.id row.accountId :=
  ⟨row, by rw [(writeTrade_spec hwrite).2.2, if_pos rfl]; rfl, rfl⟩

/-- The calls of a commit take the map to where the database is. -/
theorem writeTrade_onShelf (hwrite : db.writeTrade row = some db') {calls : List IndexCall}
    (hconcerns : ∀ call ∈ calls, call.Concerns row) {shelf : Shelf}
    (hsettles : Settles (db.trade? row.id) row calls shelf) :
    db'.onShelf shelf = after (opsOn calls shelf) (db.onShelf shelf) := by
  obtain ⟨_, _, htrade⟩ := writeTrade_spec hwrite
  ext id
  by_cases hid : id = row.id
  · subst hid
    have hpresent : row.id ∈ db.onShelf shelf
        ↔ ((db.trade? row.id).any fun t => t.status = shelf.status) = true := by
      rw [Option.any_eq_true, onShelf, Set.mem_ofPred_eq]
      simp
    rw [mem_after_opsOn hconcerns hpresent, onShelf, Set.mem_ofPred_eq, htrade, if_pos rfl]
    rw [Settles] at hsettles
    simp [hsettles]
  · have huntouched : ∀ op ∈ opsOn calls shelf, op.key ≠ id := by
      intro op hop hkey
      obtain ⟨call, hcall, _, rfl⟩ := mem_opsOn.mp hop
      exact hid (hkey.symm.trans (hconcerns call hcall).id_eq)
    rw [mem_after_of_untouched huntouched, onShelf, Set.mem_ofPred_eq, htrade, if_neg hid]
    rfl

end Db

/-! ### The invariant -/

namespace ReconcileWorld

/-- The ids of a map that a query is still to bring. -/
def awaited (w : ReconcileWorld) : Shelf → Set Nat
  | .trades =>
    match w.stage with
    | .idle | .accounts | .settings | .trades => Set.univ
    | .orders | .realized | .finished => ∅
  | .orders =>
    match w.stage with
    | .idle | .accounts | .settings | .trades => Set.univ
    | .orders => w.read.elim Set.univ fun rows => {id | id ∈ rows.map Trade.id}
    | .realized | .finished => ∅

/-- What will not be evicted, once a reconcile is running. -/
def kept (w : ReconcileWorld) (shelf : Shelf) : Set Nat :=
  if w.stage = .idle then ∅ else w.index.current shelf

structure Inv (w : ReconcileWorld) : Prop where
  brackets : ∀ shelf, Brackets (w.kept shelf) (w.db.onShelf shelf)
    (w.index.shown w.db shelf ∪ w.awaited shelf) (opsOn w.calls shelf)
  sound : w.index.Sound w.db
  calls : ∀ call ∈ w.calls, call.Owned w.db
  read : ∀ rows ∈ w.read, ∀ row ∈ rows,
    w.db.OwnedBy row.id row.accountId ∧ w.db.activeAccount row.accountId
  loaded : w.stage ≠ .idle → w.stage ≠ .accounts → ∀ accountId, w.db.activeAccount accountId →
    w.index.Loaded accountId
  settled : w.stage = .finished → ∀ shelf, w.index.held shelf ⊆ w.index.current shelf

variable {w w' : ReconcileWorld} {shelf : Shelf}

theorem kept_sub (w : ReconcileWorld) (shelf : Shelf) : w.kept shelf ⊆ w.index.current shelf := by
  rw [kept]
  split
  · exact Set.empty_subset _
  · exact subset_rfl

theorem awaited_of_early (hstage : w.stage = .idle ∨ w.stage = .accounts) :
    w.awaited shelf = Set.univ := by
  cases shelf <;> rcases hstage with h | h <;> simp only [awaited, h]

theorem Inv.commit (hinv : w.Inv) {row : Trade} {db : Db} {calls : List IndexCall}
    (hwrite : w.db.writeTrade row = some db) (hconcerns : ∀ call ∈ calls, call.Concerns row)
    (hsettles : ∀ shelf, Settles (w.db.trade? row.id) row calls shelf) :
    ({ w with db := db, calls := w.calls ++ calls } : ReconcileWorld).Inv where
  brackets shelf := by
    have hchanged := (hinv.brackets shelf).change (opsOn calls shelf)
    rw [← Db.writeTrade_onShelf hwrite hconcerns (hsettles shelf), ← opsOn_append] at hchanged
    refine hchanged.mono subset_rfl (Set.union_subset_union_left _ ?_)
    exact w.index.shown_mono (fun _ _ howned => howned.writeTrade hwrite) shelf
  sound := hinv.sound.mono fun _ _ howned => howned.writeTrade hwrite
  calls call hcall := by
    rcases List.mem_append.mp hcall with hold | hnew
    · have howned := hinv.calls call hold
      cases call with
      | add shelf added => exact Db.OwnedBy.writeTrade howned hwrite
      | remove shelf id => trivial
    · have hconcern := hconcerns call hnew
      cases call with
      | add shelf added =>
        obtain ⟨hid, haccount⟩ := hconcern
        have howned := Db.writeTrade_ownedBy hwrite
        rwa [← hid, ← haccount] at howned
      | remove shelf id => trivial
  read rows hrows row' hrow' := by
    obtain ⟨howned, hactive⟩ := hinv.read rows hrows row' hrow'
    refine ⟨howned.writeTrade hwrite, ?_⟩
    rwa [Db.activeAccount, Db.account?, (Db.writeTrade_spec hwrite).1]
  loaded hidle haccounts accountId hactive := by
    refine hinv.loaded hidle haccounts accountId ?_
    rwa [Db.activeAccount, Db.account?, (Db.writeTrade_spec hwrite).1] at hactive
  settled := hinv.settled

theorem Inv.call (hinv : w.Inv) {k : Nat} {call : IndexCall} (hcall : w.calls[k]? = some call)
    (hok : w.InOrder (.call k)) :
    ({ w with index := w.index.perform call, calls := w.calls.eraseIdx k } : ReconcileWorld).Inv where
  brackets shelf := by
    obtain ⟨hfirst, hactive⟩ := hok call hcall
    have howned := hinv.calls call (List.mem_of_getElem? hcall)
    obtain ⟨hwith, hwithout⟩ := opsOn_eraseIdx hcall shelf
    have hbrackets := hinv.brackets shelf
    rw [hwith] at hbrackets
    rw [hwithout]
    by_cases hshelf : call.shelf = shelf
    · subst hshelf
      rw [if_pos rfl, List.append_assoc, List.singleton_append] at hbrackets
      refine hbrackets.land (fun op hop => ?_) ?_ ?_
      · obtain ⟨earlier, hearlier, hsame, rfl⟩ := mem_opsOn.mp hop
        exact hfirst earlier hearlier hsame
      · rw [kept, kept]
        split
        · exact Set.empty_subset _
        · rw [StampedIndex.perform_current, Function.update_self]
      · by_cases hearly : w.stage = .idle ∨ w.stage = .accounts
        · have hall : ({ w with index := w.index.perform call, calls := w.calls.eraseIdx k } :
              ReconcileWorld).awaited call.shelf = Set.univ := awaited_of_early hearly
          rw [hall, Set.union_univ]
          exact Set.subset_univ _
        · obtain ⟨hidle, haccounts⟩ := not_or.mp hearly
          refine (call.op.perform_union _ _).trans (Set.union_subset_union_left _ ?_)
          refine w.index.perform_shown call howned fun shelf row hadd => ?_
          subst hadd
          exact hinv.loaded hidle haccounts _ hactive
    · rw [if_neg hshelf, List.append_nil] at hbrackets
      refine hbrackets.mono ?_ (Set.union_subset_union_left _ (w.index.perform_shown_of_ne call hshelf))
      rw [kept, kept, StampedIndex.perform_current, Function.update_of_ne (Ne.symm hshelf)]
  sound := hinv.sound.perform (hinv.calls call (List.mem_of_getElem? hcall))
  calls other hother := hinv.calls other (List.mem_of_mem_eraseIdx hother)
  read := hinv.read
  loaded hidle haccounts accountId hactive :=
    (w.index.perform_loaded call).mpr (hinv.loaded hidle haccounts accountId hactive)
  settled hfinished shelf := by
    rw [StampedIndex.perform_held, StampedIndex.perform_current, Function.update_apply,
      Function.update_apply]
    split
    · exact call.op.perform_mono (hinv.settled hfinished call.shelf)
    · exact hinv.settled hfinished shelf

theorem Inv.start (hinv : w.Inv) :
    ({ w with index.generation := w.index.generation + 1, stage := .accounts, drift := 0 } :
      ReconcileWorld).Inv where
  brackets shelf := by
    refine (hinv.brackets shelf).rebound (fun id hid _ => ?_) fun id _ _ => ?_
    · obtain ⟨hheld, hgen⟩ := kept_sub _ shelf hid
      have hold := hinv.sound.stamped shelf id hheld
      exact absurd (hgen ▸ hold) (Nat.not_succ_le_self _)
    · right
      cases shelf <;> trivial
  sound := ⟨hinv.sound.housed, hinv.sound.known, fun shelf id hid =>
    (hinv.sound.stamped shelf id hid).trans (Nat.le_succ _)⟩
  calls := hinv.calls
  read := hinv.read
  loaded _ haccounts := absurd rfl haccounts
  settled := ReconcileStage.noConfusion

theorem Inv.accountsReturn (hinv : w.Inv) (hstage : w.stage = .accounts) (drift : Nat) :
    ({ w with
      index := w.db.activeAccounts.foldl StampedIndex.upsertAccount w.index
      stage := .settings
      drift := drift } : ReconcileWorld).Inv := by
  obtain ⟨hcurrent, hsound, _, hloaded⟩ := w.index.upsertAll_spec w.db.activeAccounts
  refine ⟨fun shelf => ?_, hsound hinv.sound, hinv.calls, hinv.read, fun _ _ accountId hactive => ?_,
    ReconcileStage.noConfusion⟩
  · refine (hinv.brackets shelf).mono ?_ fun id _ => .inr ?_
    · rw [kept, kept, hstage]
      exact (congrFun hcurrent shelf).subset
    · cases shelf <;> trivial
  · obtain ⟨account, haccount, hstatus⟩ := (Option.any_eq_true _ _).mp hactive
    obtain ⟨hmem, rfl⟩ := Db.account?_eq_some.mp haccount
    exact hloaded account (List.mem_filter.mpr ⟨hmem, hstatus⟩)

theorem Inv.withAccount (hinv : w.Inv) (accountId : Nat) {f : LoadedAccount → LoadedAccount}
    (hf : ∀ a, (f a).ids = a.ids) :
    ({ w with index.toTradeIndex := w.index.withAccount accountId f } : ReconcileWorld).Inv := by
  have hlists : ∀ shelf accountId' id, (w.index.withAccount accountId f).Lists shelf accountId' id
      ↔ w.index.Lists shelf accountId' id := fun shelf _ _ =>
    TradeIndex.withAccount_lists_of_ids fun a => congrFun (hf a) shelf
  refine ⟨fun shelf => ?_, hinv.sound.relisted rfl fun shelf accountId' id => (hlists _ _ _).mp,
    hinv.calls, hinv.read, fun hidle haccounts accountId' hactive => ?_, hinv.settled⟩
  · refine (hinv.brackets shelf).mono subset_rfl (Set.union_subset_union_left _ ?_)
    rintro id ⟨hcurrent, owner, howned, hgen, hlisted⟩
    exact ⟨hcurrent, owner, howned, hgen, (hlists _ _ _).mpr hlisted⟩
  · obtain ⟨hsome, hgen⟩ := hinv.loaded hidle haccounts accountId' hactive
    exact ⟨fun hnone => hsome (TradeIndex.withAccount_byAccount_eq_none.mp hnone), hgen⟩

theorem Inv.writeAccounts {V : Type} (hinv : w.Inv) (values : List (Nat × V))
    {write : V → LoadedAccount → LoadedAccount} (hwrite : ∀ v a, (write v a).ids = a.ids) :
    (w.writeAccounts values write).Inv := by
  induction values generalizing w with
  | nil => exact hinv
  | cons value values ih => exact ih (hinv.withAccount value.1 (hwrite value.2))

/-- Waiting for the next query. -/
theorem Inv.settingsResolved (hinv : w.Inv) (hstage : w.stage = .settings) :
    ({ w with stage := .trades } : ReconcileWorld).Inv where
  brackets shelf := by
    refine (hinv.brackets shelf).mono ?_ fun id _ => .inr ?_
    · rw [kept, kept, hstage]
      exact subset_rfl
    · cases shelf <;> trivial
  sound := hinv.sound
  calls := hinv.calls
  read := hinv.read
  loaded _ _ := hinv.loaded (by simp [hstage]) (by simp [hstage])
  settled := ReconcileStage.noConfusion

theorem mem_rowsOn {db : Db} {row : Trade} : row ∈ db.rowsOn shelf ↔
    row ∈ db.trades.rows ∧ row.status = shelf.status ∧ db.activeAccount row.accountId = true := by
  simp [Db.rowsOn]

theorem ownedBy_of_mem_rowsOn {db : Db} {row : Trade} (hrow : row ∈ db.rowsOn shelf) :
    db.OwnedBy row.id row.accountId ∧ db.activeAccount row.accountId :=
  ⟨⟨row, Db.trade?_eq_some.mpr ⟨(mem_rowsOn.mp hrow).1, rfl⟩, rfl⟩, (mem_rowsOn.mp hrow).2.2⟩

theorem Inv.readTrades (hinv : w.Inv) (hstage : w.stage = .trades) :
    ({ w with read := some (w.db.rowsOn .trades) } : ReconcileWorld).Inv where
  brackets shelf := by
    refine (hinv.brackets shelf).mono subset_rfl fun id _ => .inr ?_
    cases shelf <;> simp only [awaited, hstage] <;> trivial
  sound := hinv.sound
  calls := hinv.calls
  read rows hrows row hrow := by
    obtain rfl := Option.some.inj hrows
    exact ownedBy_of_mem_rowsOn hrow
  loaded := hinv.loaded
  settled := hinv.settled

/-- An id without an outstanding operation is one without an outstanding call. -/
theorem not_outstanding {id : Nat} (huntouched : ∀ op ∈ opsOn w.calls shelf, op.key ≠ id) :
    ¬w.Outstanding shelf id := by
  rintro ⟨call, hcall, hshelf, hid⟩
  exact huntouched call.op (mem_opsOn.mpr ⟨call, hcall, hshelf, rfl⟩) hid

theorem mem_onShelf_of_row {db : Db} {id : Nat} (hid : id ∈ db.onShelf shelf) :
    ∃ row ∈ db.trades.rows, row.id = id ∧ row.status = shelf.status := by
  obtain ⟨row, hrow, hstatus⟩ := hid
  obtain ⟨hmem, hrowId⟩ := Db.trade?_eq_some.mp hrow
  exact ⟨row, hmem, hrowId, hstatus⟩

theorem Inv.tradesReturn (hinv : w.Inv) (hstage : w.stage = .trades) {rows : List Trade}
    (hrows : w.read = some rows) (hok : w.KeepsIndex .tradesReturn) (drift : Nat) :
    ({ w with
      index := w.index.clearListings.addAll .trades rows
      stage := .orders
      read := none
      drift := drift } : ReconcileWorld).Inv := by
  obtain ⟨hstill, hall⟩ := hok rows hrows
  have howned : ∀ row ∈ rows, w.db.OwnedBy row.id row.accountId := fun row hrow =>
    (hinv.read rows hrows row hrow).1
  have hloaded : ∀ accountId, w.db.activeAccount accountId → w.index.clearListings.Loaded accountId :=
    fun accountId hactive => StampedIndex.clearListings_loaded.mpr
      (hinv.loaded (by simp [hstage]) (by simp [hstage]) accountId hactive)
  have hcurrent := w.index.clearListings.addAll_current .trades rows
  refine ⟨fun shelf => ?_, (StampedIndex.clearListings_sound hinv.sound).addAll howned, hinv.calls,
    fun _ h => absurd h (by simp), fun _ _ accountId hactive => ?_, ReconcileStage.noConfusion⟩
  · have hbrackets := hinv.brackets shelf
    have hkept : w.kept shelf = w.index.current shelf := by rw [kept, hstage]; rfl
    rw [hkept] at hbrackets
    cases shelf with
    | trades =>
      refine hbrackets.rebound (fun id hid huntouched => ?_) fun id hid huntouched => .inl ?_
      · have hid := kept_sub _ _ hid
        rw [hcurrent, Function.update_self] at hid
        rcases hid with hold | hread
        · exact hbrackets.lower_settled hold huntouched
        · obtain ⟨row, hrow, rfl⟩ := List.mem_map.mp hread
          exact (hstill row hrow).resolve_right (not_outstanding huntouched)
      · obtain ⟨row, hrow, rfl, hopen⟩ := mem_onShelf_of_row hid
        have hread := (hall row hrow hopen).resolve_right (not_outstanding huntouched)
        obtain ⟨row', hrow', hsame⟩ := List.mem_map.mp hread
        rw [← hsame]
        exact StampedIndex.mem_addAll_shown howned
          (fun row hrow => hloaded _ (hinv.read rows hrows row hrow).2) row' hrow'
    | orders =>
      refine hbrackets.mono ((kept_sub _ _).trans ?_) fun id _ => .inr trivial
      rw [hcurrent, Function.update_of_ne (by decide)]
      exact subset_rfl
  · exact (StampedIndex.addAll_loaded _ _ _).mpr (hloaded accountId hactive)

theorem Inv.readOrders (hinv : w.Inv) (hstage : w.stage = .orders) (hok : w.KeepsIndex .readOrders) :
    ({ w with read := some (w.db.rowsOn .orders) } : ReconcileWorld).Inv where
  brackets shelf := by
    have hbrackets := hinv.brackets shelf
    cases shelf with
    | trades => exact hbrackets
    | orders =>
      refine hbrackets.rebound (fun id hid huntouched => hbrackets.lower_settled hid huntouched)
        fun id hid huntouched => .inr ?_
      obtain ⟨row, hrow, rfl, hpending⟩ := mem_onShelf_of_row hid
      have hactive := (hok row hrow hpending).resolve_right (not_outstanding huntouched)
      simp only [awaited, hstage, Option.elim_some]
      exact List.mem_map_of_mem (mem_rowsOn.mpr ⟨hrow, hpending, hactive⟩)
  sound := hinv.sound
  calls := hinv.calls
  read rows hrows row hrow := by
    obtain rfl := Option.some.inj hrows
    exact ownedBy_of_mem_rowsOn hrow
  loaded := hinv.loaded
  settled := hinv.settled

theorem Inv.ordersReturn (hinv : w.Inv) (hstage : w.stage = .orders) {rows : List Trade}
    (hrows : w.read = some rows) {needsRealized : Bool}
    (hok : w.KeepsIndex (.ordersReturn needsRealized)) (drift : Nat) :
    ({ w with
      index := w.index.addAll .orders rows
      stage := .realized
      read := none
      drift := drift } : ReconcileWorld).Inv := by
  have hstill := hok rows hrows
  have howned : ∀ row ∈ rows, w.db.OwnedBy row.id row.accountId := fun row hrow =>
    (hinv.read rows hrows row hrow).1
  have hloaded := hinv.loaded (by simp [hstage]) (by simp [hstage])
  have hcurrent := w.index.addAll_current .orders rows
  refine ⟨fun shelf => ?_, hinv.sound.addAll howned, hinv.calls, fun _ h => absurd h (by simp),
    fun _ _ accountId hactive => ?_, ReconcileStage.noConfusion⟩
  · have hbrackets := hinv.brackets shelf
    have hkept : w.kept shelf = w.index.current shelf := by rw [kept, hstage]; rfl
    rw [hkept] at hbrackets
    cases shelf with
    | trades =>
      simp only [awaited, hstage] at hbrackets
      refine hbrackets.mono ((kept_sub _ _).trans ?_)
        (Set.union_subset_union_left _ (w.index.addAll_shown .orders rows))
      rw [hcurrent, Function.update_of_ne (by decide)]
    | orders =>
      refine hbrackets.rebound (fun id hid huntouched => ?_) fun id hid huntouched => .inl ?_
      · have hid := kept_sub _ _ hid
        rw [hcurrent, Function.update_self] at hid
        rcases hid with hold | hread
        · exact hbrackets.lower_settled hold huntouched
        · obtain ⟨row, hrow, rfl⟩ := List.mem_map.mp hread
          exact (hstill row hrow).resolve_right (not_outstanding huntouched)
      · rcases hbrackets.upper_settled hid huntouched with hshown | hread
        · exact w.index.addAll_shown .orders rows hshown
        · simp only [awaited, hstage, hrows, Option.elim_some] at hread
          obtain ⟨row, hrow, rfl⟩ := List.mem_map.mp hread
          exact StampedIndex.mem_addAll_shown howned
            (fun row hrow => hloaded _ (hinv.read rows hrows row hrow).2) row hrow
  · exact (StampedIndex.addAll_loaded _ _ _).mpr (hloaded accountId hactive)

theorem Inv.finish (hinv : w.Inv) (hstage : w.stage = .realized) : w.finish.Inv := by
  refine ⟨fun shelf => ?_, hinv.sound.thinned w.index.evict_thins, hinv.calls,
    fun _ h => absurd h (by simp [ReconcileWorld.finish]), fun _ _ accountId hactive => ?_,
    fun _ shelf => StampedIndex.evict_held hinv.sound⟩
  · have hbrackets := hinv.brackets shelf
    have hkept : w.kept shelf = w.index.current shelf := by rw [kept, hstage]; rfl
    have hawaited : w.awaited shelf = ∅ := by cases shelf <;> simp only [awaited, hstage]
    rw [hkept, hawaited, Set.union_empty] at hbrackets
    exact hbrackets.mono ((kept_sub _ _).trans (w.index.evict_current shelf))
      ((StampedIndex.evict_shown hinv.sound).trans Set.subset_union_left)
  · exact (hinv.loaded (by simp [hstage]) (by simp [hstage]) accountId hactive).evict

theorem Inv.queryThrows (hinv : w.Inv) :
    ({ w with stage := .idle, read := none } : ReconcileWorld).Inv where
  brackets shelf := by
    refine (hinv.brackets shelf).rebound (fun id hid _ => absurd hid (Set.notMem_empty id))
      fun id _ _ => .inr ?_
    cases shelf <;> trivial
  sound := hinv.sound
  calls := hinv.calls
  read _ h := absurd h (by simp)
  loaded hidle := absurd rfl hidle
  settled := ReconcileStage.noConfusion

theorem Inv.step {a : ReconcileAction} (hinv : w.Inv) (hok : w.KeepsIndex a)
    (hstep : w.step a = some w') : w'.Inv := by
  cases a with
  | commit row calls =>
    obtain ⟨db, hwrite, hstep⟩ := Option.bind_eq_some_iff.mp hstep
    obtain ⟨_, hguard, hstep⟩ := Option.bind_eq_some_iff.mp hstep
    obtain rfl := Option.some.inj hstep
    obtain ⟨hconcerns, htrades, horders⟩ := (Option.guard_eq_some' _).mp hguard
    refine hinv.commit hwrite hconcerns fun shelf => ?_
    cases shelf with
    | trades => exact htrades
    | orders => exact horders
  | call k =>
    obtain ⟨call, hcall, hstep⟩ := Option.bind_eq_some_iff.mp hstep
    obtain rfl := Option.some.inj hstep
    exact hinv.call hcall hok
  | start =>
    obtain ⟨_, _, hstep⟩ := Option.bind_eq_some_iff.mp hstep
    obtain rfl := Option.some.inj hstep
    exact hinv.start
  | accountsReturn =>
    obtain ⟨_, hguard, hstep⟩ := Option.bind_eq_some_iff.mp hstep
    obtain rfl := Option.some.inj hstep
    exact hinv.accountsReturn ((Option.guard_eq_some' _).mp hguard) _
  | settingsResolved limits =>
    obtain ⟨_, hguard, hstep⟩ := Option.bind_eq_some_iff.mp hstep
    obtain rfl := Option.some.inj hstep
    have hstage := (Option.guard_eq_some' _).mp hguard
    refine (hinv.writeAccounts limits fun _ a => ?_).settingsResolved hstage
    funext shelf
    cases shelf <;> rfl
  | readTrades =>
    obtain ⟨_, hguard, hstep⟩ := Option.bind_eq_some_iff.mp hstep
    obtain rfl := Option.some.inj hstep
    exact hinv.readTrades ((Option.guard_eq_some' _).mp hguard).1
  | tradesReturn =>
    obtain ⟨_, hguard, hstep⟩ := Option.bind_eq_some_iff.mp hstep
    obtain ⟨rows, hrows, hstep⟩ := Option.bind_eq_some_iff.mp hstep
    obtain rfl := Option.some.inj hstep
    exact hinv.tradesReturn ((Option.guard_eq_some' _).mp hguard) hrows hok _
  | readOrders =>
    obtain ⟨_, hguard, hstep⟩ := Option.bind_eq_some_iff.mp hstep
    obtain rfl := Option.some.inj hstep
    exact hinv.readOrders ((Option.guard_eq_some' _).mp hguard).1 hok
  | ordersReturn needsRealized =>
    obtain ⟨_, hguard, hstep⟩ := Option.bind_eq_some_iff.mp hstep
    obtain ⟨rows, hrows, hstep⟩ := Option.bind_eq_some_iff.mp hstep
    obtain rfl := Option.some.inj hstep
    have hadded := hinv.ordersReturn ((Option.guard_eq_some' _).mp hguard) hrows hok
      (w.drift + rows.countP fun row => !w.index.holds .orders row.id)
    cases needsRealized with
    | true => exact hadded
    | false => exact hadded.finish rfl
  | realizedReturns totals =>
    obtain ⟨_, hguard, hstep⟩ := Option.bind_eq_some_iff.mp hstep
    obtain rfl := Option.some.inj hstep
    refine (hinv.writeAccounts totals fun _ a => ?_).finish ((Option.guard_eq_some' _).mp hguard)
    funext shelf
    cases shelf <;> rfl
  | queryThrows =>
    obtain ⟨_, _, hstep⟩ := Option.bind_eq_some_iff.mp hstep
    obtain rfl := Option.some.inj hstep
    exact hinv.queryThrows

/-- No reconcile and no call is running, and the index keeps its own rules. -/
def Start (w : ReconcileWorld) : Prop :=
  w.stage = .idle ∧ w.read = none ∧ w.calls = [] ∧ w.index.Sound w.db

theorem Inv.init (hstart : w.Start) : w.Inv := by
  obtain ⟨hstage, hread, hcalls, hsound⟩ := hstart
  refine ⟨fun shelf => ?_, hsound, ?_, ?_, fun hidle => absurd hstage hidle, fun hfinished => ?_⟩
  · rw [hcalls, awaited_of_early (.inl hstage), kept, if_pos hstage, Set.union_univ]
    exact ⟨Set.empty_subset _, Set.subset_univ _⟩
  · rw [hcalls]
    exact fun _ hcall => absurd hcall List.not_mem_nil
  · rw [hread]
    exact fun _ hrows => absurd hrows (by simp)
  · rw [hstage] at hfinished
    cases hfinished

theorem Inv.reconciled (hinv : w.Inv) : w.Reconciled := by
  intro hstage hcalls shelf id
  have hbrackets := hinv.brackets shelf
  have hawaited : w.awaited shelf = ∅ := by cases shelf <;> simp only [awaited, hstage]
  have hkept : w.kept shelf = w.index.current shelf := by rw [kept, hstage]; rfl
  rw [hcalls, hawaited, Set.union_empty, hkept] at hbrackets
  refine ⟨⟨fun hheld => hbrackets.sound (hinv.settled hstage shelf hheld), fun hon =>
    (hbrackets.complete hon).1.1⟩, fun row hrow hstatus => ?_⟩
  obtain ⟨_, accountId, ⟨row', hrow', rfl⟩, _, hlists⟩ := hbrackets.complete ⟨row, hrow, hstatus⟩
  rw [Option.mem_def.mp hrow] at hrow'
  rwa [Option.some.inj hrow']

/-- When a reconcile has finished and no call is outstanding, the index is exact. -/
theorem reached_reconciled (hreach : Reach step KeepsIndex Start w) : w.Reconciled :=
  (hreach.invariant (fun _ hstart => Inv.init hstart) fun _ _ _ hinv hok hstep =>
    hinv.step hok hstep).reconciled

instance (db : Db) : DecidablePred (IndexCall.AddsActive db)
  | .add _ row => inferInstanceAs (Decidable (db.activeAccount row.accountId = true))
  | .remove _ _ => .isTrue trivial

instance (w : ReconcileWorld) (shelf : Shelf) (id : Nat) : Decidable (w.Outstanding shelf id) :=
  List.decidableBEx _ _

instance (w : ReconcileWorld) : DecidablePred w.InOrder
  | .call _ => Option.decidableForallMem _
  | .commit _ _ | .start | .accountsReturn | .settingsResolved _ | .readTrades | .tradesReturn
  | .readOrders | .ordersReturn _ | .realizedReturns _ | .queryThrows => .isTrue trivial

instance (w : ReconcileWorld) : DecidablePred w.KeepsIndex
  | .call k => inferInstanceAs (Decidable (w.InOrder (.call k)))
  | .tradesReturn => Option.decidableForallMem _
  | .readOrders => List.decidableBAll _ _
  | .ordersReturn _ => Option.decidableForallMem _
  | .commit _ _ | .start | .accountsReturn | .settingsResolved _ | .readTrades | .realizedReturns _
  | .queryThrows => .isTrue trivial

theorem boot_start (db : Db) : (boot db).Start := by
  refine ⟨rfl, rfl, rfl, ⟨?_, fun shelf id hid => ?_, fun shelf id hid => ?_⟩⟩
  · rintro shelf accountId id ⟨a, ha, _⟩
    cases ha
  · cases shelf <;> exact absurd rfl hid
  · cases shelf <;> exact absurd rfl hid

def oneOfEach : Db :=
  { Db.initial .empty with
    accounts := .single (sampleTerms.provision 1)
    trades := ⟨[TradeIndex.longOne, sampleOrder.row 8 .pending], by decide⟩ }

/-- The position is closed and another one opened between the reading of the trades and their return, and
the index hears of both afterwards. -/
def tradedMeanwhile : List ReconcileAction :=
  [.start, .accountsReturn, .settingsResolved [], .readTrades,
    .commit { TradeIndex.longOne with status := .closed } [.remove .trades 7, .remove .orders 7],
    .commit { TradeIndex.longOne with id := 9 } [.add .trades { TradeIndex.longOne with id := 9 }],
    .tradesReturn, .call 2, .call 0, .readOrders, .call 0, .ordersReturn true,
    .realizedReturns [(1, 25)]]

theorem reached_reconciled_tradedMeanwhile : ∃ w, run step (boot oneOfEach) tradedMeanwhile = some w ∧
    w.stage = .finished ∧ w.calls.isEmpty ∧ w.index.holds .trades 9 ∧ w.Reconciled := by
  obtain ⟨w, hrun, hend⟩ := exists_of_run_any step (boot oneOfEach) tradedMeanwhile
    (fun w => w.stage = .finished ∧ w.calls.isEmpty ∧ w.index.holds .trades 9) (by decide +kernel)
  obtain ⟨hfinished, hquiet, hheld⟩ := of_decide_eq_true hend
  have hok : RunOk step KeepsIndex (boot oneOfEach) tradedMeanwhile := by decide +kernel
  exact ⟨w, hrun, hfinished, hquiet, hheld, reached_reconciled (.of_run (.init (boot_start _)) hok hrun)⟩

/-- A second reconcile reads the trades, the position is closed and leaves the index, and the trades
return. -/
def closedWhileReading : List ReconcileAction :=
  [.start, .accountsReturn, .settingsResolved [], .readTrades, .tradesReturn, .readOrders,
    .ordersReturn false, .start, .accountsReturn, .settingsResolved [], .readTrades,
    .commit { TradeIndex.longOne with status := .closed } [.remove .trades 7, .remove .orders 7],
    .call 0, .call 0, .tradesReturn, .readOrders, .ordersReturn false]

/-- The closed position is back. -/
theorem closed_trade_returns : ¬∀ w, Reach step InOrder Start w → w.Reconciled := by
  intro hall
  obtain ⟨w, hrun, hend⟩ := exists_of_run_any step (boot oneOfEach) closedWhileReading
    (fun w => w.stage = .finished ∧ w.calls.isEmpty ∧ w.index.byId 7 ≠ none ∧ 7 ∉ w.db.onShelf .trades)
    (by decide +kernel)
  obtain ⟨hfinished, hquiet, hheld, hclosed⟩ := of_decide_eq_true hend
  have hok : RunOk step InOrder (boot oneOfEach) closedWhileReading := by decide +kernel
  have hexact := hall w (.of_run (.init (boot_start _)) hok hrun) hfinished (List.isEmpty_iff.mp hquiet)
  exact hclosed ((hexact .trades 7).1.mp hheld)

end ReconcileWorld

end PropFirm
