import Mathlib
import PropFirm.Lib.DelayedWrites
import PropFirm.TradeIndex

/-!
# Mutations from the API nodes

An API node publishes what it committed and the engine applies it with `applyMutation`. The channel keeps
the order, the handlers do not: an `open` and a `pending` first await `ensureAccountLoaded`, which goes
to the database for an account that is not loaded, and each message starts its handler without waiting
for the one before. A `closed` is applied as it arrives.

A suspended handler is a `SyncHandler`. On each of the two id maps the follower is a replica with
delayed writes.
-/

namespace PropFirm

open DelayedWrites Transition

namespace TradeIndex

/-- `sameDay` is whether the entry's day key is today's. -/
def applyRealizedPnl (s : TradeIndex) (accountId : Nat) (pnl : ℚ) (sameDay : Bool) : TradeIndex :=
  s.withAccount accountId fun a =>
    { a with todayRealizedPnl := (if sameDay then a.todayRealizedPnl else 0) + pnl }

def updateAccountBalance (s : TradeIndex) (accountId : Nat) (newBalance : ℚ) : TradeIndex :=
  s.withAccount accountId fun a => { a with currentBalance := newBalance }

/-- The profit seeded is absent without a price or a conversion rate. -/
def addOpenTradeToIndex (s : TradeIndex) (row : Trade) (seed : Option ℚ) : TradeIndex :=
  let s' := s.addTrade row none
  seed.elim s' (s'.applyTradePnl s.made.length)

def syncClosedTrade (s : TradeIndex) (tradeId accountId : Nat) (realizedPnl : ℚ) (sameDay : Bool) :
    TradeIndex :=
  ((s.removeTrade tradeId).removePending tradeId).applyRealizedPnl accountId realizedPnl sameDay

end TradeIndex

inductive SyncMutation
  | opened (trade : Trade) (realizedPnl currentBalance : Option ℚ)
  | pending (order : Trade)
  | closed (tradeId accountId : Nat) (realizedPnl : ℚ) (currentBalance : Option ℚ)

/-- What a suspended handler awaits: the account query, the drawdown settings of the account it loaded,
the return of `ensureAccountLoaded`, or the return of `syncOpenedTrade`. -/
inductive SyncStage
  | querying
  | resolving
  | loaded
  | synced
  deriving DecidableEq

structure SyncHandler where
  mutation : SyncMutation
  stage : SyncStage

/-- The engine's index and the handlers running over it. `delivered` records the messages, latest first. -/
structure Follower where
  index : TradeIndex
  handlers : List SyncHandler
  delivered : List SyncMutation

/-- `limits` are the settings written to the loaded entry, absent when there are none or another entry
has taken its place. -/
inductive SyncAction
  | deliver (mutation : SyncMutation) (sameDay : Bool)
  | queryReturns (handler : Nat) (row : Option Account)
  | queryThrows (handler : Nat)
  | settingsResolved (handler : Nat) (limits : Option Limits)
  | accountLoaded (handler : Nat) (seed : Option ℚ)
  | syncReturns (handler : Nat) (sameDay : Bool)

namespace SyncMutation

def tradeId : SyncMutation → Nat
  | opened trade _ _ => trade.id
  | pending order => order.id
  | closed tradeId _ _ _ => tradeId

def accountId : SyncMutation → Nat
  | opened trade _ _ => trade.accountId
  | pending order => order.accountId
  | closed _ accountId _ _ => accountId

def Closes : SyncMutation → Prop
  | opened _ _ _ | pending _ => False
  | closed _ _ _ _ => True

instance : DecidablePred Closes
  | opened _ _ _ | pending _ => .isFalse id
  | closed _ _ _ _ => .isTrue trivial

end SyncMutation

namespace Follower

def boot : Follower := ⟨.empty, [], []⟩

/-- Where `ensureAccountLoaded` first suspends. -/
def firstStage (s : TradeIndex) (accountId : Nat) : SyncStage :=
  if (s.byAccount accountId).isSome then .loaded else .querying

def suspend (s : Follower) (mutation : SyncMutation) : Follower :=
  { s with handlers := s.handlers ++ [⟨mutation, firstStage s.index mutation.accountId⟩] }

/-- `applyMutation` up to its first `await`. -/
def applyMutation (s : Follower) (sameDay : Bool) : SyncMutation → Follower
  | .opened trade realizedPnl currentBalance => s.suspend (.opened trade realizedPnl currentBalance)
  | .pending order => s.suspend (.pending order)
  | .closed tradeId accountId realizedPnl currentBalance =>
    let index := s.index.syncClosedTrade tradeId accountId realizedPnl sameDay
    { s with index := currentBalance.elim index (index.updateAccountBalance accountId) }

def deliver (s : Follower) (mutation : SyncMutation) (sameDay : Bool) : Follower :=
  { s with delivered := mutation :: s.delivered }.applyMutation sameDay mutation

/-- Let a handler that is at a stage go on to another. -/
def moveTo (s : Follower) (k : Nat) (mutation : SyncMutation) (stage : SyncStage) : Follower :=
  { s with handlers := s.handlers.set k ⟨mutation, stage⟩ }

def finish (s : Follower) (k : Nat) : Follower := { s with handlers := s.handlers.eraseIdx k }

/-- `syncOpenedTrade` and `syncPendingOrder` after `ensureAccountLoaded`. -/
def addEntry (s : Follower) (k : Nat) (seed : Option ℚ) : SyncMutation → Option Follower
  | .opened trade realizedPnl currentBalance =>
    some ({ s with index := s.index.addOpenTradeToIndex trade seed }.moveTo k
      (.opened trade realizedPnl currentBalance) .synced)
  | .pending order => some ({ s with index := s.index.addPending order none }.finish k)
  | .closed _ _ _ _ => none

/-- Their `catch`. -/
def swallowError (s : Follower) (k : Nat) : SyncMutation → Option Follower
  | .opened trade realizedPnl currentBalance =>
    some (s.moveTo k (.opened trade realizedPnl currentBalance) .synced)
  | .pending _ => some (s.finish k)
  | .closed _ _ _ _ => none

/-- `applyMutation` after `syncOpenedTrade`. -/
def applyBalances (s : Follower) (k : Nat) (sameDay : Bool) : SyncMutation → Option Follower
  | .opened trade realizedPnl currentBalance =>
    let index := realizedPnl.elim s.index fun pnl =>
      s.index.applyRealizedPnl trade.accountId pnl sameDay
    let index := currentBalance.elim index (index.updateAccountBalance trade.accountId)
    some ({ s with index := index }.finish k)
  | .pending _ | .closed _ _ _ _ => none

/-- The handler `k`, at this stage. -/
def at? (s : Follower) (k : Nat) (stage : SyncStage) : Option SyncMutation :=
  (s.handlers[k]?.filter (·.stage = stage)).map SyncHandler.mutation

def step (s : Follower) : SyncAction → Option Follower
  | .deliver mutation sameDay => some (s.deliver mutation sameDay)
  | .queryReturns k none => (s.at? k .querying).map fun mutation => s.moveTo k mutation .loaded
  | .queryReturns k (some row) => do
    let mutation ← s.at? k .querying
    guard (row.id = mutation.accountId ∧ row.status = .active)
    pure ({ s with index := s.index.upsertAccount row }.moveTo k mutation .resolving)
  | .queryThrows k => (s.at? k .querying).bind (s.swallowError k)
  | .settingsResolved k limits => (s.at? k .resolving).map fun mutation =>
    let index := limits.elim s.index fun limits =>
      s.index.withAccount mutation.accountId fun a => { a with limits := limits }
    { s with index := index }.moveTo k mutation .loaded
  | .accountLoaded k seed => (s.at? k .loaded).bind (s.addEntry k seed)
  | .syncReturns k sameDay => (s.at? k .synced).bind (s.applyBalances k sameDay)

/-- The last message about a trade. -/
def lastMutation (s : Follower) (tradeId : Nat) : Option SyncMutation :=
  s.delivered.find? (·.tradeId = tradeId)

/-- Once the handlers have finished, the index has a trade or its order just when the last message about
it did not close it, and as what that message left. -/
def Follows (s : Follower) : Prop :=
  s.handlers = [] → ∀ tradeId,
    ((s.index.byId tradeId ≠ none ∨ s.index.pendingById tradeId ≠ none) ↔
        ∃ mutation ∈ s.lastMutation tradeId, ¬mutation.Closes) ∧
      (∀ trade realizedPnl currentBalance,
        s.lastMutation tradeId = some (.opened trade realizedPnl currentBalance) →
          s.index.byId tradeId ≠ none) ∧
      ∀ order, s.lastMutation tradeId = some (.pending order) → s.index.pendingById tradeId ≠ none

end Follower

/-! ### The id maps under the index operations -/

/-- The two id maps of the index. -/
inductive Shelf
  | trades
  | orders
  deriving DecidableEq

namespace TradeIndex

/-- The ids the map holds. -/
def held (s : TradeIndex) : Shelf → Set Nat
  | .trades => {tradeId | s.byId tradeId ≠ none}
  | .orders => {orderId | s.pendingById orderId ≠ none}

variable {s s' : TradeIndex}

@[simp]
theorem withAccount_held (s : TradeIndex) (accountId : Nat) (f : LoadedAccount → LoadedAccount) :
    (s.withAccount accountId f).held = s.held := rfl

@[simp]
theorem upsertAccount_held (s : TradeIndex) (row : Account) : (s.upsertAccount row).held = s.held := rfl

theorem applyTradePnl_held (s : TradeIndex) (ref : Nat) (pnl : ℚ) :
    (s.applyTradePnl ref pnl).held = s.held := by
  rw [applyTradePnl]
  split <;> rfl

theorem setOf_update_ne_none {V : Type} (m : Nat → Option V) (k : Nat) (v : Option V) :
    {l | Function.update m k v l ≠ none}
      = if v = none then {l | m l ≠ none} \ {k} else insert k {l | m l ≠ none} := by
  ext l
  rw [Set.mem_ofPred_eq, Function.update_apply]
  split <;> split <;> simp_all

theorem addTrade_held (s : TradeIndex) (row : Trade) :
    (s.addTrade row none).held .trades = insert row.id (s.held .trades) ∧
      (s.addTrade row none).held .orders = s.held .orders := by
  obtain ⟨_, _, hbyId, hpending, _⟩ := s.withdrawPrevious_rest row
  constructor
  · simp only [addTrade, install, withAccount, held, Option.elim_none, hbyId, setOf_update_ne_none]
    rfl
  · simp only [addTrade, install, withAccount, held, Option.elim_none, hpending]

theorem addPending_held (s : TradeIndex) (row : Trade) :
    (s.addPending row none).held .orders = insert row.id (s.held .orders) ∧
      (s.addPending row none).held .trades = s.held .trades := by
  constructor
  · simp only [addPending, withAccount, held, Option.elim_none, setOf_update_ne_none]
    rfl
  · rfl

theorem addOpenTradeToIndex_held (s : TradeIndex) (row : Trade) (seed : Option ℚ) :
    (s.addOpenTradeToIndex row seed).held = (s.addTrade row none).held := by
  cases seed with
  | none => rfl
  | some pnl => exact applyTradePnl_held _ _ _

theorem removeTrade_held (s : TradeIndex) (tradeId : Nat) :
    (s.removeTrade tradeId).held .trades = s.held .trades \ {tradeId} ∧
      (s.removeTrade tradeId).held .orders = s.held .orders := by
  rw [removeTrade]
  split
  · rename_i hnone
    exact ⟨(Set.sdiff_singleton_eq_self (not_not.mpr hnone)).symm, rfl⟩
  · have herased := setOf_update_ne_none s.byId tradeId none
    dsimp only
    split
    · exact ⟨herased, rfl⟩
    · exact ⟨herased, rfl⟩

theorem removePending_held (s : TradeIndex) (orderId : Nat) :
    (s.removePending orderId).held .orders = s.held .orders \ {orderId} ∧
      (s.removePending orderId).held .trades = s.held .trades := by
  rw [removePending]
  split
  · rename_i hnone
    exact ⟨(Set.sdiff_singleton_eq_self (not_not.mpr hnone)).symm, rfl⟩
  · exact ⟨setOf_update_ne_none s.pendingById orderId none, rfl⟩

theorem syncClosedTrade_held (s : TradeIndex) (tradeId accountId : Nat) (realizedPnl : ℚ)
    (sameDay : Bool) (shelf : Shelf) :
    (s.syncClosedTrade tradeId accountId realizedPnl sameDay).held shelf = s.held shelf \ {tradeId} := by
  have hremoved := removeTrade_held s tradeId
  have hcancelled := removePending_held (s.removeTrade tradeId) tradeId
  rw [syncClosedTrade, applyRealizedPnl, withAccount_held]
  cases shelf with
  | trades => rw [hcancelled.2, hremoved.1]
  | orders => rw [hcancelled.1, hremoved.2]

end TradeIndex

/-! ### The follower as a replica -/

/-- What a message asks of one of the maps. -/
def SyncMutation.op (shelf : Shelf) : SyncMutation → Option (Op Nat)
  | opened trade _ _ => if shelf = .trades then some (.put trade.id) else none
  | pending order => if shelf = .orders then some (.put order.id) else none
  | closed tradeId _ _ _ => some (.drop tradeId)

theorem SyncMutation.op_key {mutation : SyncMutation} {shelf : Shelf} {op : Op Nat}
    (hop : mutation.op shelf = some op) : op.key = mutation.tradeId := by
  cases mutation with
  | opened trade _ _ =>
    cases shelf with
    | trades => exact congrArg Op.key (Option.some.inj hop).symm
    | orders => cases hop
  | pending order =>
    cases shelf with
    | trades => cases hop
    | orders => exact congrArg Op.key (Option.some.inj hop).symm
  | closed tradeId _ _ _ => exact congrArg Op.key (Option.some.inj hop).symm

theorem SyncMutation.op_drop {mutation : SyncMutation} {shelf : Shelf} {tradeId : Nat}
    (hdrop : mutation.op shelf = some (.drop tradeId)) : mutation.Closes := by
  cases mutation with
  | opened _ _ _ =>
    rw [op] at hdrop
    split at hdrop <;> cases hdrop
  | pending _ =>
    rw [op] at hdrop
    split at hdrop <;> cases hdrop
  | closed _ _ _ _ => exact trivial

namespace Follower

variable {s s' : Follower} {k : Nat} {mutation : SyncMutation} {stage : SyncStage}

/-- The ids that suspended handlers will put into the map. -/
def inFlight (s : Follower) (shelf : Shelf) : Set Nat :=
  {tradeId | ∃ h ∈ s.handlers, h.stage ≠ .synced ∧ h.mutation.op shelf = some (.put tradeId)}

def Tracked (s : Follower) : Prop :=
  ∀ shelf, Tracks (s.index.held shelf) (s.inFlight shelf) (s.delivered.filterMap (·.op shelf))

/-- No account query fails, and no trade is closed while a handler of the same trade waits. -/
def InOrder (s : Follower) : SyncAction → Prop
  | .deliver (.closed tradeId _ _ _) _ =>
    ∀ h ∈ s.handlers, h.stage ≠ .synced → h.mutation.tradeId ≠ tradeId
  | .queryThrows _ => False
  | .deliver (.opened _ _ _) _ | .deliver (.pending _) _ | .queryReturns _ _ | .settingsResolved _ _
  | .accountLoaded _ _ | .syncReturns _ _ => True

theorem at?_eq_some (hat : s.at? k stage = some mutation) : s.handlers[k]? = some ⟨mutation, stage⟩ := by
  obtain ⟨h, hfilter, rfl⟩ := Option.map_eq_some_iff.mp hat
  obtain ⟨hget, hstage⟩ := Option.filter_eq_some_iff.mp hfilter
  rw [hget, ← of_decide_eq_true hstage]

theorem moveTo_rest {next : SyncStage} {h : SyncHandler}
    (hmem : h ∈ (s.moveTo k mutation next).handlers) : h ∈ s.handlers ∨ h = ⟨mutation, next⟩ :=
  List.mem_or_eq_of_mem_set hmem

theorem moveTo_keep (hat : s.handlers[k]? = some ⟨mutation, stage⟩) {next : SyncStage} {h : SyncHandler}
    (hmem : h ∈ s.handlers) :
    h ∈ (s.moveTo k mutation next).handlers ∨ h = ⟨mutation, stage⟩ := by
  obtain ⟨i, hi⟩ := List.mem_iff_getElem?.mp hmem
  by_cases hik : k = i
  · subst hik
    exact .inr (Option.some.inj (hi.symm.trans hat))
  · refine .inl (List.mem_iff_getElem?.mpr ⟨i, ?_⟩)
    rw [moveTo, List.getElem?_set_ne hik, hi]

theorem finish_keep (hat : s.handlers[k]? = some ⟨mutation, stage⟩) {h : SyncHandler}
    (hmem : h ∈ s.handlers) : h ∈ (s.finish k).handlers ∨ h = ⟨mutation, stage⟩ := by
  obtain ⟨i, hi⟩ := List.mem_iff_getElem?.mp hmem
  by_cases hik : i = k
  · subst hik
    exact .inr (Option.some.inj (hi.symm.trans hat))
  · exact .inl (List.mem_eraseIdx_iff_getElem?.mpr ⟨i, hik, hi⟩)

/-- A handler that stays on its way leaves what is in flight as it is. -/
theorem moveTo_inFlight (hat : s.handlers[k]? = some ⟨mutation, stage⟩) (hstage : stage ≠ .synced)
    {next : SyncStage} (hnext : next ≠ .synced) : (s.moveTo k mutation next).inFlight = s.inFlight := by
  have hmem : (⟨mutation, stage⟩ : SyncHandler) ∈ s.handlers := List.mem_of_getElem? hat
  have hmoved : (⟨mutation, next⟩ : SyncHandler) ∈ (s.moveTo k mutation next).handlers := by
    refine List.mem_iff_getElem?.mpr ⟨k, ?_⟩
    rw [moveTo, List.getElem?_set_self (List.getElem?_eq_some_iff.mp hat).1]
  funext shelf
  ext tradeId
  constructor
  · rintro ⟨h, hh, hwaits, hput⟩
    rcases moveTo_rest hh with hold | rfl
    · exact ⟨h, hold, hwaits, hput⟩
    · exact ⟨_, hmem, hstage, hput⟩
  · rintro ⟨h, hh, hwaits, hput⟩
    rcases moveTo_keep hat hh with hkept | rfl
    · exact ⟨h, hkept, hwaits, hput⟩
    · exact ⟨_, hmoved, hnext, hput⟩

/-- A handler that writes its entry and waits for nothing more lands its put. -/
theorem Tracked.landed (htracked : s.Tracked) (hat : s.handlers[k]? = some ⟨mutation, stage⟩)
    (hstage : stage ≠ .synced) (hdelivered : s'.delivered = s.delivered)
    (hheld : ∀ shelf, s'.index.held shelf
      = {tradeId | mutation.op shelf = some (.put tradeId)} ∪ s.index.held shelf)
    (hrest : ∀ h ∈ s'.handlers, h ∈ s.handlers ∨ h.stage = .synced)
    (hkeep : ∀ h ∈ s.handlers, h ∈ s'.handlers ∨ h = ⟨mutation, stage⟩) : s'.Tracked := by
  intro shelf
  have hsub : s'.inFlight shelf ⊆ s.inFlight shelf := by
    rintro tradeId ⟨h, hh, hwaits, hput⟩
    rcases hrest h hh with hold | hsynced
    · exact ⟨h, hold, hwaits, hput⟩
    · exact absurd hsynced hwaits
  have hcover : s.inFlight shelf
      ⊆ {tradeId | mutation.op shelf = some (.put tradeId)} ∪ s'.inFlight shelf := by
    rintro tradeId ⟨h, hh, hwaits, hput⟩
    rcases hkeep h hh with hkept | rfl
    · exact .inr ⟨h, hkept, hwaits, hput⟩
    · exact .inl hput
  rw [hdelivered, hheld]
  by_cases hputs : ∃ tradeId, mutation.op shelf = some (.put tradeId)
  · obtain ⟨tradeId, hput⟩ := hputs
    have hsingle : {l | mutation.op shelf = some (.put l)} = {tradeId} := by
      ext l
      rw [Set.mem_ofPred_eq, hput, Set.mem_singleton_iff]
      exact ⟨fun h => (Op.put.inj (Option.some.inj h)).symm, fun h => by rw [h]⟩
    rw [hsingle] at hcover ⊢
    exact (htracked shelf).land ⟨_, List.mem_of_getElem? hat, hstage, hput⟩ hsub hcover
  · have hempty : {l | mutation.op shelf = some (.put l)} = ∅ :=
      Set.eq_empty_iff_forall_notMem.mpr fun l hl => hputs ⟨l, hl⟩
    rw [hempty, Set.empty_union] at hcover ⊢
    rw [hsub.antisymm hcover]
    exact htracked shelf

/-! ### Each step -/

theorem Tracked.closed (htracked : s.Tracked) {tradeId accountId : Nat} {realizedPnl : ℚ}
    {currentBalance : Option ℚ} {sameDay : Bool}
    (hok : s.InOrder (.deliver (.closed tradeId accountId realizedPnl currentBalance) sameDay)) :
    (s.deliver (.closed tradeId accountId realizedPnl currentBalance) sameDay).Tracked := by
  intro shelf
  have hheld : ((s.deliver (.closed tradeId accountId realizedPnl currentBalance) sameDay).index.held)
      = (s.index.syncClosedTrade tradeId accountId realizedPnl sameDay).held := by
    cases currentBalance <;> rfl
  have horder : tradeId ∉ s.inFlight shelf := by
    rintro ⟨h, hh, hwaits, hput⟩
    exact hok h hh hwaits (SyncMutation.op_key hput).symm
  rw [hheld, TradeIndex.syncClosedTrade_held]
  exact (htracked shelf).drop horder

theorem Tracked.suspended (htracked : s.Tracked) (hopens : ¬mutation.Closes) (sameDay : Bool) :
    (s.deliver mutation sameDay).Tracked := by
  have heq : s.deliver mutation sameDay
      = { s with delivered := mutation :: s.delivered }.suspend mutation := by
    cases mutation with
    | opened _ _ _ => rfl
    | pending _ => rfl
    | closed _ _ _ _ => exact absurd trivial hopens
  have hfirst : firstStage s.index mutation.accountId ≠ .synced := by
    rw [firstStage]
    split <;> decide
  intro shelf
  rw [heq]
  cases hop : mutation.op shelf with
  | none =>
    have hflight : ({ s with delivered := mutation :: s.delivered }.suspend mutation).inFlight shelf
        = s.inFlight shelf := by
      ext tradeId
      simp only [inFlight, suspend, List.mem_append, List.mem_singleton, or_and_right, exists_or,
        exists_eq_left, hop]
      simp
    rw [hflight, suspend, List.filterMap_cons_none hop]
    exact htracked shelf
  | some op =>
    cases op with
    | put tradeId =>
      have hflight : ({ s with delivered := mutation :: s.delivered }.suspend mutation).inFlight shelf
          = insert tradeId (s.inFlight shelf) := by
        ext l
        simp only [inFlight, suspend, List.mem_append, List.mem_singleton, or_and_right, exists_or,
          exists_eq_left, hop, Set.mem_insert_iff, Set.mem_ofPred_eq, Option.some.injEq, Op.put.injEq]
        constructor
        · rintro (hold | ⟨_, rfl⟩)
          · exact .inr hold
          · exact .inl rfl
        · rintro (rfl | hold)
          · exact .inr ⟨hfirst, rfl⟩
          · exact .inl hold
      rw [hflight, suspend, List.filterMap_cons_some hop]
      exact (htracked shelf).put
    | drop tradeId => exact absurd (SyncMutation.op_drop hop) hopens

theorem Tracked.accountLoaded (htracked : s.Tracked) {seed : Option ℚ}
    (hat : s.handlers[k]? = some ⟨mutation, .loaded⟩) (hadd : s.addEntry k seed mutation = some s') :
    s'.Tracked := by
  cases mutation with
  | opened trade realizedPnl currentBalance =>
    obtain rfl := Option.some.inj hadd
    have hadded := TradeIndex.addTrade_held s.index trade
    refine htracked.landed hat (by decide) rfl (fun shelf => ?_) (fun h hh => ?_)
      fun h hh => moveTo_keep (s := s) hat hh
    · have hheld := congrFun (TradeIndex.addOpenTradeToIndex_held s.index trade seed) shelf
      cases shelf with
      | trades =>
        rw [moveTo, hheld, hadded.1, Set.insert_eq]
        simp [SyncMutation.op, eq_comm]
      | orders =>
        rw [moveTo, hheld, hadded.2]
        simp [SyncMutation.op]
    · rcases moveTo_rest (s := s) hh with hold | rfl
      · exact .inl hold
      · exact .inr rfl
  | pending order =>
    obtain rfl := Option.some.inj hadd
    have hadded := TradeIndex.addPending_held s.index order
    refine htracked.landed hat (by decide) rfl (fun shelf => ?_)
      (fun h hh => .inl (List.mem_of_mem_eraseIdx hh)) fun h hh => finish_keep (s := s) hat hh
    cases shelf with
    | trades =>
      rw [finish, hadded.2]
      simp [SyncMutation.op]
    | orders =>
      rw [finish, hadded.1, Set.insert_eq]
      simp [SyncMutation.op, eq_comm]
  | closed tradeId accountId realizedPnl currentBalance => cases hadd

/-- A handler that has written its entry only books balances. -/
theorem Tracked.syncReturns (htracked : s.Tracked) {sameDay : Bool}
    (hat : s.handlers[k]? = some ⟨mutation, .synced⟩)
    (hbook : s.applyBalances k sameDay mutation = some s') : s'.Tracked := by
  cases mutation with
  | opened trade realizedPnl currentBalance =>
    obtain rfl := Option.some.inj hbook
    intro shelf
    have hheld : ∀ (index : TradeIndex) (balance : Option ℚ),
        (balance.elim index (index.updateAccountBalance trade.accountId)).held = index.held := by
      intro index balance
      cases balance <;> rfl
    have hrealized : (realizedPnl.elim s.index fun pnl =>
        s.index.applyRealizedPnl trade.accountId pnl sameDay).held = s.index.held := by
      cases realizedPnl <;> rfl
    have hflight : (s.finish k).inFlight shelf = s.inFlight shelf := by
      ext tradeId
      constructor
      · rintro ⟨h, hh, hwaits, hput⟩
        exact ⟨h, List.mem_of_mem_eraseIdx hh, hwaits, hput⟩
      · rintro ⟨h, hh, hwaits, hput⟩
        rcases finish_keep hat hh with hkept | rfl
        · exact ⟨h, hkept, hwaits, hput⟩
        · exact absurd rfl hwaits
    have htracks := htracked shelf
    rw [← hflight, ← hrealized, ← hheld _ currentBalance] at htracks
    exact htracks
  | pending order => cases hbook
  | closed tradeId accountId realizedPnl currentBalance => cases hbook

theorem Tracked.moved (htracked : s.Tracked) (hat : s.handlers[k]? = some ⟨mutation, stage⟩)
    (hstage : stage ≠ .synced) {next : SyncStage} (hnext : next ≠ .synced) {index : TradeIndex}
    (hindex : index.held = s.index.held) : ({ s with index := index }.moveTo k mutation next).Tracked := by
  intro shelf
  have htracks := htracked shelf
  rw [← hindex, ← moveTo_inFlight hat hstage hnext] at htracks
  exact htracks

theorem Tracked.step {a : SyncAction} (htracked : s.Tracked) (hok : s.InOrder a)
    (hstep : s.step a = some s') : s'.Tracked := by
  cases a with
  | deliver mutation sameDay =>
    obtain rfl := Option.some.inj hstep
    cases mutation with
    | opened trade realizedPnl currentBalance => exact htracked.suspended id sameDay
    | pending order => exact htracked.suspended id sameDay
    | closed tradeId accountId realizedPnl currentBalance => exact htracked.closed hok
  | queryReturns k row =>
    cases row with
    | none =>
      obtain ⟨mutation, hat, rfl⟩ := Option.map_eq_some_iff.mp hstep
      exact htracked.moved (at?_eq_some hat) (by decide) (by decide) rfl
    | some row =>
      rw [Follower.step, Option.bind_eq_bind, Option.bind_eq_some_iff] at hstep
      obtain ⟨mutation, hat, hstep⟩ := hstep
      obtain ⟨_, _, hstep⟩ := Option.bind_eq_some_iff.mp hstep
      obtain rfl := Option.some.inj hstep
      exact htracked.moved (at?_eq_some hat) (by decide) (by decide)
        (TradeIndex.upsertAccount_held s.index row)
  | queryThrows k => exact hok.elim
  | settingsResolved k limits =>
    obtain ⟨mutation, hat, rfl⟩ := Option.map_eq_some_iff.mp hstep
    refine htracked.moved (at?_eq_some hat) (by decide) (by decide) ?_
    cases limits <;> rfl
  | accountLoaded k seed =>
    obtain ⟨mutation, hat, hadd⟩ := Option.bind_eq_some_iff.mp hstep
    exact htracked.accountLoaded (at?_eq_some hat) hadd
  | syncReturns k sameDay =>
    obtain ⟨mutation, hat, hbook⟩ := Option.bind_eq_some_iff.mp hstep
    exact htracked.syncReturns (at?_eq_some hat) hbook

theorem Tracked.boot : boot.Tracked := by
  intro shelf
  have hheld : Follower.boot.index.held shelf = ∅ := by
    cases shelf <;> simp [Follower.boot, TradeIndex.held, TradeIndex.empty]
  have hflight : Follower.boot.inFlight shelf = ∅ := by simp [Follower.boot, inFlight]
  rw [hheld, hflight]
  exact .nil

theorem reached_tracked (hreach : Reach step InOrder (· = Follower.boot) s) : s.Tracked :=
  hreach.invariant (fun _ hstart => hstart ▸ .boot) fun _ _ _ htracked hok hstep =>
    htracked.step hok hstep

/-- A message about another trade changes nothing. -/
theorem mem_left_of_ne {first : SyncMutation} {earlier : List SyncMutation} {tradeId : Nat}
    (hne : first.tradeId ≠ tradeId) (shelf : Shelf) :
    tradeId ∈ left ((first :: earlier).filterMap (·.op shelf))
      ↔ tradeId ∈ left (earlier.filterMap (·.op shelf)) := by
  cases hop : first.op shelf with
  | none => rw [List.filterMap_cons_none hop]
  | some op =>
    rw [List.filterMap_cons_some hop, mem_left_cons_of_ne]
    rwa [SyncMutation.op_key hop]

/-- On both maps together the log leaves an id when its last message did not close it. -/
theorem left_iff (delivered : List SyncMutation) (tradeId : Nat) :
    (tradeId ∈ left (delivered.filterMap (·.op .trades)) ∨
        tradeId ∈ left (delivered.filterMap (·.op .orders)))
      ↔ ∃ mutation ∈ delivered.find? (·.tradeId = tradeId), ¬mutation.Closes := by
  induction delivered with
  | nil => simp [left]
  | cons first earlier ih =>
    by_cases hid : first.tradeId = tradeId
    · rw [List.find?_cons_of_pos (by simpa using hid)]
      cases first with
      | opened trade realizedPnl currentBalance =>
        exact iff_of_true (.inl (.inl hid.symm)) ⟨_, rfl, id⟩
      | pending order => exact iff_of_true (.inr (.inl hid.symm)) ⟨_, rfl, id⟩
      | closed closedId accountId realizedPnl currentBalance =>
        refine iff_of_false ?_ ?_
        · rintro (hmem | hmem)
          · exact hmem.2 hid.symm
          · exact hmem.2 hid.symm
        · rintro ⟨mutation, hmutation, hopens⟩
          obtain rfl := Option.some.inj hmutation
          exact hopens trivial
    · rw [List.find?_cons_of_neg (by simpa using hid), mem_left_of_ne hid, mem_left_of_ne hid, ih]

/-- A message that opens is the last word on its map. -/
theorem mem_left_of_find {delivered : List SyncMutation} {tradeId : Nat} {shelf : Shelf}
    (hlast : delivered.find? (·.tradeId = tradeId) = some mutation)
    (hput : mutation.op shelf = some (.put tradeId)) :
    tradeId ∈ left (delivered.filterMap (·.op shelf)) := by
  induction delivered with
  | nil => cases hlast
  | cons first earlier ih =>
    by_cases hid : first.tradeId = tradeId
    · rw [List.find?_cons_of_pos (by simpa using hid)] at hlast
      obtain rfl := Option.some.inj hlast
      rw [List.filterMap_cons_some hput]
      exact Set.mem_insert _ _
    · rw [List.find?_cons_of_neg (by simpa using hid)] at hlast
      exact (mem_left_of_ne hid shelf).mpr (ih hlast)

theorem Tracked.follows (htracked : s.Tracked) : s.Follows := by
  intro hquiet tradeId
  have hheld : ∀ shelf, s.index.held shelf = left (s.delivered.filterMap (·.op shelf)) := by
    intro shelf
    have hflight : s.inFlight shelf = ∅ := by simp [inFlight, hquiet]
    have htracks := htracked shelf
    rw [hflight] at htracks
    exact htracks.settled
  refine ⟨?_, fun trade realizedPnl currentBalance hlast => ?_, fun order hlast => ?_⟩
  · rw [lastMutation, ← left_iff, ← hheld, ← hheld]
    rfl
  · have hid := List.find?_some hlast
    have hput : (SyncMutation.opened trade realizedPnl currentBalance).op .trades
        = some (.put tradeId) := by
      rw [← of_decide_eq_true hid]
      rfl
    have hmem := mem_left_of_find hlast hput
    rw [← hheld] at hmem
    exact hmem
  · have hid := List.find?_some hlast
    have hput : (SyncMutation.pending order).op .orders = some (.put tradeId) := by
      rw [← of_decide_eq_true hid]
      rfl
    have hmem := mem_left_of_find hlast hput
    rw [← hheld] at hmem
    exact hmem

theorem reached_follows (hreach : Reach step InOrder (· = Follower.boot) s) : s.Follows :=
  (reached_tracked hreach).follows

instance (s : Follower) : ∀ a, Decidable (s.InOrder a)
  | .deliver (.closed _ _ _ _) _ => List.decidableBAll _ _
  | .queryThrows _ => .isFalse id
  | .deliver (.opened _ _ _) _ | .deliver (.pending _) _ | .queryReturns _ _ | .settingsResolved _ _
  | .accountLoaded _ _ | .syncReturns _ _ => .isTrue trivial

/-- The close of a trade arrives when its entry has been added and before its handler has finished. -/
def closedAfterAdding : List SyncAction :=
  [.deliver (.opened TradeIndex.longOne none none) true,
    .queryReturns 0 (some (sampleTerms.provision 1)), .settingsResolved 0 none, .accountLoaded 0 (some 0),
    .deliver (.closed 7 1 25 (some 10025)) true, .syncReturns 0 true]

theorem reached_follows_closedAfterAdding : ∃ s, run step boot closedAfterAdding = some s ∧
    s.handlers.isEmpty = true ∧ s.Follows := by
  obtain ⟨s, hrun, hquiet⟩ := exists_of_run_any step boot closedAfterAdding (·.handlers.isEmpty)
    (by decide +kernel)
  have hok : RunOk step InOrder boot closedAfterAdding := by decide +kernel
  exact ⟨s, hrun, hquiet, reached_follows (.of_run (.init rfl) hok hrun)⟩

/-- The same close arrives while the account is being read. -/
def closedWhileLoading : List SyncAction :=
  [.deliver (.opened TradeIndex.longOne none none) true, .deliver (.closed 7 1 25 (some 10025)) true,
    .queryReturns 0 (some (sampleTerms.provision 1)), .settingsResolved 0 none, .accountLoaded 0 (some 0),
    .syncReturns 0 true]

/-- The trade is closed, and the follower's index has it open. -/
theorem open_wins_over_close :
    ¬∀ s, Reach step (fun _ _ => True) (· = Follower.boot) s → s.Follows := by
  intro hall
  obtain ⟨s, hrun, hend⟩ := exists_of_run_any step boot closedWhileLoading
    (fun s => s.handlers.isEmpty && (s.index.byId 7).isSome &&
      (s.lastMutation 7).all fun mutation => mutation.Closes) (by decide +kernel)
  simp only [Bool.and_eq_true] at hend
  obtain ⟨⟨hquiet, hindexed⟩, hlast⟩ := hend
  have hok : RunOk step (fun _ _ => True) boot closedWhileLoading := .of_forall fun _ _ _ => trivial
  have hfollows := hall s (.of_run (.init rfl) hok hrun) (List.isEmpty_iff.mp hquiet) 7
  obtain ⟨mutation, hmutation, hopens⟩ := hfollows.1.mp (.inl (Option.isSome_iff_ne_none.mp hindexed))
  rw [hmutation] at hlast
  exact hopens (of_decide_eq_true hlast)

end Follower

end PropFirm
