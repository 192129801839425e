import Mathlib
import PropFirm.IndexSync
import PropFirm.Ledger

/-!
# Balances from the closes to the index

Each close credits the account's row in its transaction and tells the index afterwards, in a way of its
own. `closeTriggeredTrades` and the batch add the profit to the entry. The manual close captures the
entry's balance with the profit added and writes it after an `await`. `checkSLTP` and the scheduled
closes write no balance at all. On an API node all of this is about the node's own index, and what
reaches the engine is a balance read off that one.

A suspended continuation of a committed close is a `SyncTask`. It records which accounts the engine has
loaded since the commit, for their entries have the profit already.
-/

namespace PropFirm

open Transition

/-- The engine, or one of the API nodes. -/
inductive Process
  | engine
  | api (node : Nat)
  deriving DecidableEq

/-- What a committed transaction has still to tell the index of its process. `closings` are trades with
their accounts and profits. -/
inductive Continuation
  | syncTriggered (closings : List (Nat × Nat × Cents)) (totals : List (Nat × Cents))
  | syncSltp (tradeId accountId : Nat) (pnl : Cents)
  | syncBatch (tradeId accountId : Nat) (pnl : Cents)
  | syncFull (tradeId accountId : Nat) (pnl : Cents)
  | writeBalance (accountId : Nat) (pnl : Cents) (balance : ℚ)
  | syncPartial (remaining : Trade) (pnl : Cents)
  | syncOpen (trade : Trade)
  | syncOpened (trade : Trade) (realizedPnl : Option Cents) (currentBalance : Option ℚ)
      (stage : SyncStage)

structure SyncTask where
  process : Process
  continuation : Continuation
  reloaded : List Nat

inductive Published
  | opened (trade : Trade) (realizedPnl : Option Cents) (currentBalance : Option ℚ)
  | closed (tradeId accountId : Nat) (pnl : Cents) (currentBalance : Option ℚ)

structure SyncMessage where
  published : Published
  reloaded : List Nat

/-- `channel` holds what is published and not delivered, in order. -/
structure BalanceWorld where
  world : World
  index : Process → TradeIndex
  tasks : List SyncTask
  channel : List SyncMessage

/-- `sameDay` and `seed` are what the continuation reads off the clock and the prices, and `limits` the
drawdown settings. The account query sees a committed state. -/
inductive BalanceAction
  | tick (seconds : Nat)
  | commit (action : Action) (process : Process)
  | resume (task : Nat) (sameDay : Bool) (seed : Option ℚ) (limits : Option Limits)
  | queryReturns (task asOf : Nat)
  | deliver (sameDay : Bool)

namespace TradeIndex

def balance (s : TradeIndex) (accountId : Nat) : Option ℚ :=
  (s.byAccount accountId).map fun a => a.currentBalance

/-- `updateAccountBalance(id, account.currentBalance + pnl)`, for an account that is loaded. -/
def addToBalance (s : TradeIndex) (accountId : Nat) (pnl : Cents) : TradeIndex :=
  (s.balance accountId).elim s fun balance => s.updateAccountBalance accountId (balance + pnl.dollars)

end TradeIndex

/-- What the statements credit an account. -/
def creditedBy (stmts : List Stmt) (accountId : Nat) : Cents :=
  (stmts.map fun stmt => stmt.credits accountId).sum

/-- The accounts the statements credit, with the amounts. -/
def creditsIn (stmts : List Stmt) : List (Nat × Cents) :=
  stmts.filterMap fun
    | .creditAccount id amount => some (id, amount)
    | _ => none

/-- The closings of the statements, as trades with their accounts and profits. -/
def closingsOf (stmts : List Stmt) : List (Nat × Nat × Cents) :=
  stmts.flatMap fun
    | .closeTrades closings _ _ => closings.map fun c => (c.trade.id, c.trade.accountId, c.pnl)
    | _ => []

/-- `closeTradeHandler` after its commit, full or partial. -/
def closeTradeContinuations (w : World) (tradeId : Nat) (stmts : List Stmt) : List Continuation :=
  match stmts with
  | [.splitTrade _ _ lots commission, .creditAccount _ pnl] =>
    (w.db.trade? tradeId).toList.map fun locked => .syncPartial (remainingTrade locked lots commission) pnl
  | _ => (creditsIn stmts).map fun credit => .syncFull tradeId credit.1 credit.2

/-- The tracked transactions, with where they run and what follows their commit. The engines and the
scheduled closes run in the engine process. -/
def continuations (w : World) (process : Process) (stmts : List Stmt) :
    Action → Option (List SyncTask)
  | .openTrade _ _ _ => some ((stmts.flatMap Stmt.insertedTrades).map fun row =>
    ⟨process, .syncOpen row, []⟩)
  | .checkSLTP _ _ tradeId _ _ => some ((creditsIn stmts).map fun credit =>
    ⟨.engine, .syncSltp tradeId credit.1 credit.2, []⟩)
  | .closeTriggeredTrades _ _ _ _ =>
    some [⟨.engine, .syncTriggered (closingsOf stmts) (creditsIn stmts), []⟩]
  | .weekendClose _ _ _ _ | .flatByClose _ _ _ _ | .newsClose _ _ _ _ => some []
  | .batchClose _ _ _ tradeId _ => some ((creditsIn stmts).map fun credit =>
    ⟨process, .syncBatch tradeId credit.1 credit.2, []⟩)
  | .closeTradeHandler _ tradeId _ _ _ _ => some ((closeTradeContinuations w tradeId stmts).map fun c =>
    ⟨process, c, []⟩)
  | _ => none

/-- The closes that tell no index anything. -/
def Action.scheduled : Action → Bool
  | .weekendClose _ _ _ _ | .flatByClose _ _ _ _ | .newsClose _ _ _ _ => true
  | _ => false

namespace BalanceWorld

/-- The task `k` makes way for what it leads to. -/
def proceed (w : BalanceWorld) (k : Nat) (process : Process) (index : TradeIndex)
    (next : List SyncTask) (sent : List SyncMessage) : BalanceWorld :=
  { w with
    index := Function.update w.index process index
    tasks := w.tasks.eraseIdx k ++ next
    channel := w.channel ++ sent }

/-- The balance an entry will be written with, captured before an `await`. -/
def captured (index : TradeIndex) (accountId : Nat) (pnl : Cents) : Option ℚ :=
  (index.balance accountId).map fun balance => balance + pnl.dollars

/-- Publishing, which only an API node does. -/
def publish (process : Process) (message : SyncMessage) : List SyncMessage :=
  match process with
  | .engine => []
  | .api _ => [message]

/-- `closeTriggeredTrades` after its commit. -/
def syncTriggered (index : TradeIndex) (closings : List (Nat × Nat × Cents))
    (totals : List (Nat × Cents)) (sameDay : Bool) : TradeIndex :=
  let index := closings.foldl (fun index c =>
    (index.removeTrade c.1).applyRealizedPnl c.2.1 c.2.2.dollars sameDay) index
  totals.foldl (fun index total => index.addToBalance total.1 total.2) index

/-- A continuation up to its next `await`. One that finds no entry leaves the profit to the row that
will be loaded. -/
def resume (w : BalanceWorld) (k : Nat) (t : SyncTask) (sameDay : Bool) (seed : Option ℚ)
    (limits : Option Limits) : Option BalanceWorld :=
  let index := w.index t.process
  match t.continuation with
  | .syncTriggered closings totals =>
    some (w.proceed k .engine (syncTriggered (w.index .engine) closings totals sameDay) [] [])
  | .syncSltp tradeId accountId pnl =>
    let index := ((w.index .engine).removeTrade tradeId).applyRealizedPnl accountId pnl.dollars sameDay
    some (w.proceed k .engine index [] [])
  | .syncBatch tradeId accountId pnl =>
    let index := index.syncClosedTrade tradeId accountId pnl.dollars sameDay
    let index := index.addToBalance accountId pnl
    -- the entry read for the message is the one that has just been written
    let message := Published.closed tradeId accountId pnl (captured index accountId pnl)
    some (w.proceed k t.process index [] (publish t.process ⟨message, t.reloaded⟩))
  | .syncFull tradeId accountId pnl =>
    let balance := captured index accountId pnl
    let index := index.syncClosedTrade tradeId accountId pnl.dollars sameDay
    let next := balance.toList.map fun balance =>
      SyncTask.mk t.process (.writeBalance accountId pnl balance) t.reloaded
    let message := Published.closed tradeId accountId pnl balance
    some (w.proceed k t.process index next (publish t.process ⟨message, t.reloaded⟩))
  | .writeBalance accountId _ balance =>
    some (w.proceed k t.process (index.updateAccountBalance accountId balance) [] [])
  | .syncPartial remaining pnl =>
    let accountId := remaining.accountId
    let balance := captured index accountId pnl
    let reloaded := if t.process = .engine ∧ balance = none then accountId :: t.reloaded else t.reloaded
    let stage := Follower.firstStage index accountId
    some (w.proceed k t.process index
      [⟨t.process, .syncOpened remaining (some pnl) balance stage, reloaded⟩] [])
  | .syncOpen trade =>
    let stage := Follower.firstStage index trade.accountId
    some (w.proceed k t.process index
      [⟨t.process, .syncOpened trade none none stage, t.reloaded⟩] [])
  | .syncOpened _ _ _ .querying => none
  | .syncOpened trade realizedPnl balance .resolving =>
    let index := limits.elim index fun limits =>
      index.withAccount trade.accountId fun a => { a with limits := limits }
    some (w.proceed k t.process index
      [⟨t.process, .syncOpened trade realizedPnl balance .loaded, t.reloaded⟩] [])
  | .syncOpened trade realizedPnl balance .loaded =>
    some (w.proceed k t.process (index.addOpenTradeToIndex trade seed)
      [⟨t.process, .syncOpened trade realizedPnl balance .synced, t.reloaded⟩] [])
  | .syncOpened trade realizedPnl balance .synced =>
    let index := realizedPnl.elim index fun pnl =>
      index.applyRealizedPnl trade.accountId pnl.dollars sameDay
    let index := balance.elim index (index.updateAccountBalance trade.accountId)
    let message := Published.opened trade realizedPnl balance
    some (w.proceed k t.process index [] (publish t.process ⟨message, t.reloaded⟩))

/-- The engine has loaded the account: its entry has every profit committed so far. -/
def reloadAll (w : BalanceWorld) (accountId : Nat) : BalanceWorld :=
  { w with
    tasks := w.tasks.map fun t => { t with reloaded := accountId :: t.reloaded }
    channel := w.channel.map fun m => { m with reloaded := accountId :: m.reloaded } }

/-- The rest of `ensureAccountLoaded`, with the row its query found. -/
def load (w : BalanceWorld) (k : Nat) (process : Process) (next : SyncStage → SyncTask) :
    Option Account → BalanceWorld
  | none => w.proceed k process (w.index process) [next .loaded] []
  | some row =>
    let w' := w.proceed k process ((w.index process).upsertAccount row) [next .resolving] []
    if process = .engine then w'.reloadAll row.id else w'

def queryReturns (w : BalanceWorld) (k : Nat) (t : SyncTask) (seen : Db) : Option BalanceWorld :=
  match t.continuation with
  | .syncOpened trade realizedPnl balance .querying =>
    let row := (seen.account? trade.accountId).filter (·.status = .active)
    let next := fun stage => SyncTask.mk t.process (.syncOpened trade realizedPnl balance stage) t.reloaded
    some (w.load k t.process next row)
  | _ => none

/-- `applyMutation` on the engine, up to its first `await`. -/
def applyPublished (w : BalanceWorld) (m : SyncMessage) (sameDay : Bool) : BalanceWorld :=
  let index := w.index .engine
  match m.published with
  | .opened trade realizedPnl balance =>
    let stage := Follower.firstStage index trade.accountId
    let reloaded := if (index.balance trade.accountId).isSome then m.reloaded
      else trade.accountId :: m.reloaded
    { w with tasks := w.tasks ++ [⟨.engine, .syncOpened trade realizedPnl balance stage, reloaded⟩] }
  | .closed tradeId accountId pnl balance =>
    let index := index.syncClosedTrade tradeId accountId pnl.dollars sameDay
    let index := balance.elim index (index.updateAccountBalance accountId)
    { w with index := Function.update w.index .engine index }

def commit (w : BalanceWorld) (action : Action) (process : Process) : Option BalanceWorld := do
  let stmts ← w.world.plan action
  let db ← execAll w.world.db stmts
  let tasks ← continuations w.world process stmts action
  pure { w with world := w.world.advance db, tasks := w.tasks ++ tasks }

def step (w : BalanceWorld) : BalanceAction → Option BalanceWorld
  | .tick seconds => some { w with world := { w.world with clock := w.world.clock + seconds } }
  | .commit action process => w.commit action process
  | .resume k sameDay seed limits => w.tasks[k]?.bind fun t => w.resume k t sameDay seed limits
  | .queryReturns k asOf => do
    let t ← w.tasks[k]?
    let seen ← w.world.seen asOf
    w.queryReturns k t seen
  | .deliver sameDay => match w.channel with
    | [] => none
    | m :: rest => some ({ w with channel := rest }.applyPublished m sameDay)

end BalanceWorld

/-! ### What the engine's entries lack -/

/-- The profit a task is about. The engine's entry gets it from a message where a node's index is
written. -/
def SyncTask.profit (t : SyncTask) (accountId : Nat) : Cents :=
  match t.continuation with
  | .syncTriggered _ totals => (totals.map fun total => if accountId = total.1 then total.2 else 0).sum
  | .syncSltp _ id pnl | .syncBatch _ id pnl | .syncFull _ id pnl => if accountId = id then pnl else 0
  | .writeBalance id pnl _ => if t.process = .engine ∧ accountId = id then pnl else 0
  | .syncPartial remaining pnl => if accountId = remaining.accountId then pnl else 0
  | .syncOpen _ => 0
  | .syncOpened trade realizedPnl _ _ => if accountId = trade.accountId then realizedPnl.getD 0 else 0

/-- What the engine's entry of the account still lacks of it. -/
def SyncTask.owes (t : SyncTask) (accountId : Nat) : ℚ :=
  if accountId ∈ t.reloaded then 0 else (t.profit accountId).dollars

def SyncMessage.profit (m : SyncMessage) (accountId : Nat) : Cents :=
  match m.published with
  | .opened trade realizedPnl _ => if accountId = trade.accountId then realizedPnl.getD 0 else 0
  | .closed _ id pnl _ => if accountId = id then pnl else 0

def SyncMessage.owes (m : SyncMessage) (accountId : Nat) : ℚ :=
  if accountId ∈ m.reloaded then 0 else (m.profit accountId).dollars

namespace BalanceWorld

def owed (w : BalanceWorld) (accountId : Nat) : ℚ :=
  (w.tasks.map fun t => t.owes accountId).sum + (w.channel.map fun m => m.owes accountId).sum

/-- What is written into the engine's entry, nothing being its own balance, is that balance with what it
lacks of the profit. -/
def Lands (w : BalanceWorld) (accountId : Nat) (written : Option ℚ) (owes : ℚ) : Prop :=
  ∀ balance ∈ (w.index .engine).balance accountId, written.getD balance = balance + owes

/-- Nothing lands where it should not when a continuation writes to the engine's index. -/
def TaskLands (w : BalanceWorld) (t : SyncTask) : Prop :=
  match t.continuation with
  | .syncTriggered _ totals => ∀ total ∈ totals, ∀ _ ∈ (w.index .engine).balance total.1,
    t.owes total.1 = (t.profit total.1).dollars
  | .syncSltp _ accountId _ => w.Lands accountId none (t.owes accountId)
  | .syncBatch _ accountId pnl => t.process = .engine →
    w.Lands accountId (((w.index .engine).balance accountId).map (· + pnl.dollars)) (t.owes accountId)
  | .writeBalance accountId _ balance => t.process = .engine →
    w.Lands accountId (some balance) (t.owes accountId)
  | .syncOpened trade _ balance .synced => t.process = .engine →
    w.Lands trade.accountId balance (t.owes trade.accountId)
  | .syncFull _ _ _ | .syncPartial _ _ | .syncOpen _ | .syncOpened _ _ _ _ => True

def MessageLands (w : BalanceWorld) (m : SyncMessage) : Prop :=
  match m.published with
  | .closed _ accountId _ balance => w.Lands accountId balance (m.owes accountId)
  | .opened _ _ _ => True

/-- The row an account query of the engine finds shows the balance that is committed now. -/
def LoadsCurrent (w : BalanceWorld) (t : SyncTask) (seen : Db) : Prop :=
  match t.continuation with
  | .syncOpened trade _ _ _ => ∀ row ∈ seen.account? trade.accountId,
    ∃ now ∈ w.world.db.account? trade.accountId, row.currentBalance = now.currentBalance
  | _ => True

/-- The condition of a step: a scheduled close books nothing on an account the engine has, a write lands,
and an account is loaded as it is now. -/
def KeepsBooks (w : BalanceWorld) : BalanceAction → Prop
  | .tick _ => True
  | .commit action _ => action.scheduled = true → ∀ stmts ∈ w.world.plan action,
    ∀ credit ∈ creditsIn stmts, w.Lands credit.1 none (creditedBy stmts credit.1).dollars
  | .resume k _ _ _ => ∀ t ∈ w.tasks[k]?, w.TaskLands t
  | .queryReturns k asOf => ∀ t ∈ w.tasks[k]?, t.process = .engine → ∀ seen ∈ w.world.seen asOf,
    w.LoadsCurrent t seen
  | .deliver _ => ∀ m ∈ w.channel.head?, w.MessageLands m

/-- With every task finished and every message applied, the engine's entries show the balances of the
database. -/
def InStep (w : BalanceWorld) : Prop :=
  w.tasks = [] → w.channel = [] → ∀ accountId, ∀ balance ∈ (w.index .engine).balance accountId,
    ∃ row ∈ w.world.db.account? accountId, balance = row.currentBalance.dollars

/-- Nothing outstanding and the entries in step, as after a reconcile. -/
def Reconciled (w : BalanceWorld) : Prop := w.tasks = [] ∧ w.channel = [] ∧ w.InStep

end BalanceWorld

/-! ### Balances under the index operations -/

namespace TradeIndex

variable {s : TradeIndex}

theorem withAccount_balance {accountId : Nat} {f : LoadedAccount → LoadedAccount}
    (hkeeps : ∀ a, (f a).currentBalance = a.currentBalance) :
    (s.withAccount accountId f).balance = s.balance := by
  funext id
  rw [balance, withAccount_byAccount]
  split
  · rename_i hid
    rw [hid, Option.map_map, balance]
    exact Option.map_congr fun a _ => hkeeps a
  · rfl

theorem removeTrade_balance (tradeId : Nat) : (s.removeTrade tradeId).balance = s.balance := by
  rw [removeTrade]
  split
  · rfl
  · dsimp only
    split
    · rfl
    · exact withAccount_balance fun _ => rfl

theorem removePending_balance (orderId : Nat) : (s.removePending orderId).balance = s.balance := by
  rw [removePending]
  split
  · rfl
  · exact withAccount_balance fun _ => rfl

theorem applyRealizedPnl_balance (accountId : Nat) (pnl : ℚ) (sameDay : Bool) :
    (s.applyRealizedPnl accountId pnl sameDay).balance = s.balance :=
  withAccount_balance fun _ => rfl

theorem syncClosedTrade_balance (tradeId accountId : Nat) (pnl : ℚ) (sameDay : Bool) :
    (s.syncClosedTrade tradeId accountId pnl sameDay).balance = s.balance := by
  rw [syncClosedTrade, applyRealizedPnl_balance, removePending_balance, removeTrade_balance]

theorem addTrade_balance (row : Trade) : (s.addTrade row none).balance = s.balance := by
  have hinstall : ∀ s : TradeIndex, (s.install row).balance = s.balance := fun s =>
    withAccount_balance fun _ => rfl
  rw [addTrade, hinstall, Option.elim_none, withdrawPrevious]
  split
  · rfl
  · exact withAccount_balance fun _ => rfl

theorem applyTradePnl_balance (ref : Nat) (pnl : ℚ) : (s.applyTradePnl ref pnl).balance = s.balance := by
  rw [applyTradePnl]
  split
  · rfl
  · refine (withAccount_balance fun _ => ?_).trans ?_
    · rfl
    · rfl

theorem addOpenTradeToIndex_balance (row : Trade) (seed : Option ℚ) :
    (s.addOpenTradeToIndex row seed).balance = s.balance := by
  cases seed with
  | none => exact addTrade_balance row
  | some pnl => exact (applyTradePnl_balance ..).trans (addTrade_balance row)

theorem updateAccountBalance_balance (accountId : Nat) (value : ℚ) (id : Nat) :
    (s.updateAccountBalance accountId value).balance id
      = if id = accountId then (s.balance accountId).map fun _ => value else s.balance id := by
  rw [balance, updateAccountBalance, withAccount_byAccount]
  split
  · rw [balance, Option.map_map, Option.map_map]
    rfl
  · rfl

theorem addToBalance_balance (accountId : Nat) (pnl : Cents) (id : Nat) :
    (s.addToBalance accountId pnl).balance id
      = (s.balance id).map (· + if id = accountId then pnl.dollars else 0) := by
  rw [addToBalance]
  cases hbalance : s.balance accountId with
  | none =>
    rw [Option.elim_none]
    split
    · rename_i hid
      rw [hid, hbalance, Option.map_none]
    · simp
  | some balance =>
    rw [Option.elim_some, updateAccountBalance_balance]
    split
    · rename_i hid
      rw [hid, hbalance]
      rfl
    · simp

theorem upsertAccount_balance (row : Account) (id : Nat) :
    (s.upsertAccount row).balance id
      = if id = row.id then some row.currentBalance.dollars else s.balance id := by
  rw [balance, upsertAccount_byAccount]
  split <;> rfl

end TradeIndex

theorem creditedBy_eq (stmts : List Stmt) (accountId : Nat) :
    creditedBy stmts accountId
      = ((creditsIn stmts).map fun credit => if accountId = credit.1 then credit.2 else 0).sum := by
  induction stmts with
  | nil => rfl
  | cons stmt stmts ih =>
    rw [creditedBy, List.map_cons, List.sum_cons, ← creditedBy, ih]
    cases stmt <;> simp [creditsIn, Stmt.credits]

theorem sum_credits_eq_zero {credits : List (Nat × Cents)} {accountId : Nat}
    (hnone : ∀ credit ∈ credits, accountId ≠ credit.1) :
    (credits.map fun credit => if accountId = credit.1 then credit.2 else 0).sum = 0 := by
  refine List.sum_eq_zero fun amount hamount => ?_
  obtain ⟨credit, hcredit, rfl⟩ := List.mem_map.mp hamount
  exact if_neg (hnone credit hcredit)

namespace BalanceWorld

variable {w w' : BalanceWorld} {k : Nat} {t : SyncTask}

theorem syncTriggered_balance (index : TradeIndex) (closings : List (Nat × Nat × Cents))
    (totals : List (Nat × Cents)) (sameDay : Bool) (id : Nat) :
    (syncTriggered index closings totals sameDay).balance id
      = (index.balance id).map (· + (totals.map fun total : Nat × Cents =>
          if id = total.1 then total.2 else 0).sum.dollars) := by
  have hclosings : (closings.foldl (fun index c =>
      (index.removeTrade c.1).applyRealizedPnl c.2.1 c.2.2.dollars sameDay) index).balance
        = index.balance := by
    induction closings generalizing index with
    | nil => rfl
    | cons c closings ih =>
      rw [List.foldl_cons, ih, TradeIndex.applyRealizedPnl_balance, TradeIndex.removeTrade_balance]
  rw [syncTriggered, ← hclosings]
  generalize closings.foldl (fun index c =>
    (index.removeTrade c.1).applyRealizedPnl c.2.1 c.2.2.dollars sameDay) index = settled
  induction totals generalizing settled with
  | nil => simp
  | cons total totals ih =>
    rw [List.foldl_cons, ih, TradeIndex.addToBalance_balance, Option.map_map, List.map_cons,
      List.sum_cons, Cents.dollars_add]
    refine Option.map_congr fun balance _ => ?_
    rw [Function.comp_apply, apply_ite Cents.dollars, Cents.dollars_zero, add_assoc]

/-! ### What a step leaves owed -/

theorem owed_proceed (ht : w.tasks[k]? = some t) (process : Process) (index : TradeIndex)
    (next : List SyncTask) (sent : List SyncMessage) (accountId : Nat) :
    (w.proceed k process index next sent).owed accountId + t.owes accountId
      = w.owed accountId + ((next.map fun t => t.owes accountId).sum
          + (sent.map fun m => m.owes accountId).sum) := by
  obtain ⟨hlt, hget⟩ := List.getElem?_eq_some_iff.mp ht
  have hperm := (List.getElem_cons_eraseIdx_perm hlt).map fun t => t.owes accountId
  have hsum := hperm.sum_eq
  rw [List.map_cons, List.sum_cons, hget] at hsum
  simp only [owed, proceed, List.map_append, List.sum_append]
  rw [← hsum]
  ring

/-- The entries of the engine and what they lack make up the committed balances. -/
def Tallied (w : BalanceWorld) : Prop :=
  ∀ accountId, ∀ balance ∈ (w.index .engine).balance accountId,
    ∃ row ∈ w.world.db.account? accountId, balance + w.owed accountId = row.currentBalance.dollars

/-- A task may go on as long as the entry gains what the task owes less. -/
theorem Tallied.proceed (htallied : w.Tallied) (ht : w.tasks[k]? = some t) {process : Process}
    {index : TradeIndex} {next : List SyncTask} {sent : List SyncMessage}
    (hgains : ∀ accountId, ∀ balance' ∈
      ((w.proceed k process index next sent).index .engine).balance accountId,
      ∃ balance ∈ (w.index .engine).balance accountId,
        balance' + ((next.map fun t => t.owes accountId).sum
            + (sent.map fun m => m.owes accountId).sum) = balance + t.owes accountId) :
    (w.proceed k process index next sent).Tallied := by
  intro accountId balance' hbalance'
  obtain ⟨balance, hbalance, hgain⟩ := hgains accountId balance' hbalance'
  obtain ⟨row, hrow, htotal⟩ := htallied accountId balance hbalance
  refine ⟨row, hrow, ?_⟩
  have howed := owed_proceed ht process index next sent accountId
  linarith

theorem proceed_engine (k : Nat) (index : TradeIndex) (next : List SyncTask)
    (sent : List SyncMessage) : (w.proceed k .engine index next sent).index .engine = index := by
  simp [proceed]

theorem proceed_api (k node : Nat) (index : TradeIndex) (next : List SyncTask)
    (sent : List SyncMessage) :
    (w.proceed k (.api node) index next sent).index .engine = w.index .engine := by
  simp [proceed]

/-- A continuation that writes no balance of the engine's passes on what it owes, unless the engine has
no entry that lacks it. -/
theorem Tallied.pass (htallied : w.Tallied) (ht : w.tasks[k]? = some t) {process : Process}
    {index : TradeIndex} {next : List SyncTask} {sent : List SyncMessage}
    (hkeeps : process = .engine → index.balance = (w.index .engine).balance)
    (howes : ∀ accountId, ((w.index .engine).balance accountId).isSome →
      (next.map fun t => t.owes accountId).sum + (sent.map fun m => m.owes accountId).sum
        = t.owes accountId) : (w.proceed k process index next sent).Tallied := by
  have hbalance : ((w.proceed k process index next sent).index .engine).balance
      = (w.index .engine).balance := by
    cases process with
    | engine => rw [proceed_engine, hkeeps rfl]
    | api node => rw [proceed_api]
  refine htallied.proceed ht fun accountId balance hmem => ?_
  rw [hbalance] at hmem
  exact ⟨balance, hmem, by rw [howes accountId (Option.isSome_of_mem hmem)]⟩

/-- A continuation that writes the engine's entry of its one account and owes nothing more. -/
theorem Tallied.write (htallied : w.Tallied) (ht : w.tasks[k]? = some t) {index : TradeIndex}
    {accountId : Nat} (written : Option ℚ) (hkeeps : index.balance = (w.index .engine).balance)
    (hlands : w.Lands accountId written (t.owes accountId))
    (hothers : ∀ id, id ≠ accountId → t.owes id = 0) :
    (w.proceed k .engine (written.elim index (index.updateAccountBalance accountId)) [] []).Tallied := by
  refine htallied.proceed ht fun id balance' hmem => ?_
  rw [proceed_engine] at hmem
  simp only [List.map_nil, List.sum_nil, add_zero]
  cases written with
  | none =>
    rw [Option.elim_none, hkeeps] at hmem
    refine ⟨balance', hmem, ?_⟩
    by_cases hid : id = accountId
    · subst hid
      exact hlands balance' hmem
    · rw [hothers id hid, add_zero]
  | some value =>
    rw [Option.elim_some, TradeIndex.updateAccountBalance_balance, hkeeps] at hmem
    split at hmem
    · rename_i hid
      obtain ⟨balance, hbalance, rfl⟩ := Option.map_eq_some_iff.mp hmem
      exact ⟨balance, hid ▸ hbalance, hid ▸ hlands balance hbalance⟩
    · rename_i hid
      exact ⟨balance', hmem, by rw [hothers id hid, add_zero]⟩

end BalanceWorld

theorem SyncTask.owes_eq_zero {t : SyncTask} {accountId : Nat} (hprofit : t.profit accountId = 0) :
    t.owes accountId = 0 := by
  rw [owes, hprofit, Cents.dollars_zero, ite_self]

/-- What follows with the same profit owes the same. -/
theorem SyncTask.owes_congr {t t' : SyncTask} {accountId : Nat}
    (hprofit : t'.profit accountId = t.profit accountId) (hreloaded : t'.reloaded = t.reloaded) :
    t'.owes accountId = t.owes accountId := by
  rw [owes, owes, hprofit, hreloaded]

theorem SyncMessage.owes_congr {m : SyncMessage} {t : SyncTask} {accountId : Nat}
    (hprofit : m.profit accountId = t.profit accountId) (hreloaded : m.reloaded = t.reloaded) :
    m.owes accountId = t.owes accountId := by
  rw [owes, SyncTask.owes, hprofit, hreloaded]

namespace BalanceWorld

variable {w w' : BalanceWorld} {k : Nat} {t : SyncTask} {sameDay : Bool} {seed : Option ℚ}
  {limits : Option Limits}

theorem elim_captured (index : TradeIndex) (accountId : Nat) (pnl : Cents) :
    (captured index accountId pnl).elim index (index.updateAccountBalance accountId)
      = index.addToBalance accountId pnl := by
  rw [captured, Option.elim_map, TradeIndex.addToBalance]
  rfl

/-- Each continuation on its way to the next `await`. -/
theorem Tallied.resume (htallied : w.Tallied) (ht : w.tasks[k]? = some t) (hlands : w.TaskLands t)
    (hresume : w.resume k t sameDay seed limits = some w') : w'.Tallied := by
  obtain ⟨process, continuation, reloaded⟩ := t
  cases continuation with
  | syncTriggered closings totals =>
    obtain rfl := Option.some.inj hresume
    refine htallied.proceed ht fun accountId balance' hmem => ?_
    rw [proceed_engine, syncTriggered_balance] at hmem
    obtain ⟨balance, hbalance, rfl⟩ := Option.map_eq_some_iff.mp hmem
    refine ⟨balance, hbalance, ?_⟩
    by_cases hcredited : ∃ total ∈ totals, accountId = total.1
    · obtain ⟨total, htotal, rfl⟩ := hcredited
      rw [hlands total htotal balance hbalance]
      simp [SyncTask.profit]
    · push Not at hcredited
      have hnothing := sum_credits_eq_zero hcredited
      have howes : SyncTask.owes ⟨process, .syncTriggered closings totals, reloaded⟩ accountId = 0 :=
        SyncTask.owes_eq_zero hnothing
      rw [hnothing, howes]
      simp
  | syncSltp tradeId accountId pnl =>
    obtain rfl := Option.some.inj hresume
    refine htallied.write ht none ?_ hlands fun id hid => ?_
    · exact (TradeIndex.applyRealizedPnl_balance ..).trans (TradeIndex.removeTrade_balance tradeId)
    · exact SyncTask.owes_eq_zero (if_neg hid)
  | syncBatch tradeId accountId pnl =>
    obtain rfl := Option.some.inj hresume
    cases process with
    | engine =>
      rw [← elim_captured, captured, TradeIndex.syncClosedTrade_balance]
      refine htallied.write ht _ (TradeIndex.syncClosedTrade_balance ..) (hlands rfl) fun id hid => ?_
      exact SyncTask.owes_eq_zero (if_neg hid)
    | api node =>
      refine htallied.pass ht (fun h => by cases h) fun id _ => ?_
      simp only [publish, List.map_nil, List.sum_nil, List.map_cons, List.sum_cons, add_zero, zero_add]
      exact SyncMessage.owes_congr rfl rfl
  | syncFull tradeId accountId pnl =>
    obtain rfl := Option.some.inj hresume
    cases process with
    | engine =>
      refine htallied.pass ht (fun _ => TradeIndex.syncClosedTrade_balance ..) fun id hloaded => ?_
      simp only [publish, List.map_nil, List.sum_nil, add_zero]
      cases hbalance : (w.index .engine).balance accountId with
      | none =>
        have hid : id ≠ accountId := by
          rintro rfl
          rw [hbalance] at hloaded
          cases hloaded
        rw [captured, hbalance]
        refine Eq.trans ?_ (SyncTask.owes_eq_zero ?_).symm
        · rfl
        · exact if_neg hid
      | some balance =>
        rw [captured, hbalance]
        simp only [Option.map_some, Option.toList_some, List.map_cons, List.map_nil, List.sum_cons,
          List.sum_nil, add_zero]
        exact SyncTask.owes_congr (by simp [SyncTask.profit]) rfl
    | api node =>
      refine htallied.pass ht (fun h => by cases h) fun id _ => ?_
      have hnode : ∀ balance : Option ℚ, ((balance.toList.map fun balance =>
          SyncTask.mk (.api node) (.writeBalance accountId pnl balance) reloaded).map
            fun t => t.owes id).sum = 0 := by
        intro balance
        cases balance with
        | none => rfl
        | some balance => simp [SyncTask.owes, SyncTask.profit]
      rw [hnode, zero_add]
      simp only [publish, List.map_cons, List.map_nil, List.sum_cons, List.sum_nil, add_zero]
      exact SyncMessage.owes_congr rfl rfl
  | writeBalance accountId pnl balance =>
    obtain rfl := Option.some.inj hresume
    cases process with
    | engine =>
      refine htallied.write ht (some balance) rfl (hlands rfl) fun id hid => ?_
      exact SyncTask.owes_eq_zero (if_neg fun h => hid h.2)
    | api node =>
      refine htallied.pass ht (fun h => by cases h) fun id _ => ?_
      simp [SyncTask.owes, SyncTask.profit]
  | syncPartial remaining pnl =>
    obtain rfl := Option.some.inj hresume
    refine htallied.pass ht (fun hengine => by rw [hengine]) fun id hloaded => ?_
    simp only [List.map_cons, List.map_nil, List.sum_cons, List.sum_nil, add_zero]
    by_cases hid : id = remaining.accountId
    · have hreloaded : ¬(process = .engine ∧
          captured (w.index process) remaining.accountId pnl = none) := by
        rintro ⟨rfl, hnone⟩
        rw [captured, Option.map_eq_none_iff, ← hid] at hnone
        rw [hnone] at hloaded
        cases hloaded
      rw [if_neg hreloaded]
      exact SyncTask.owes_congr rfl rfl
    · refine Eq.trans (SyncTask.owes_eq_zero ?_) (SyncTask.owes_eq_zero ?_).symm
      · exact if_neg hid
      · exact if_neg hid
  | syncOpen trade =>
    obtain rfl := Option.some.inj hresume
    refine htallied.pass ht (fun hengine => by rw [hengine]) fun id _ => ?_
    simp [SyncTask.owes, SyncTask.profit]
  | syncOpened trade realizedPnl balance stage =>
    cases stage with
    | querying => cases hresume
    | resolving =>
      obtain rfl := Option.some.inj hresume
      refine htallied.pass ht (fun hengine => ?_) fun id _ => ?_
      · rw [hengine]
        cases limits with
        | none => rfl
        | some limits => exact TradeIndex.withAccount_balance fun _ => rfl
      · simp only [List.map_cons, List.map_nil, List.sum_cons, List.sum_nil, add_zero]
        exact SyncTask.owes_congr rfl rfl
    | loaded =>
      obtain rfl := Option.some.inj hresume
      refine htallied.pass ht (fun hengine => ?_) fun id _ => ?_
      · rw [hengine]
        exact TradeIndex.addOpenTradeToIndex_balance ..
      · simp only [List.map_cons, List.map_nil, List.sum_cons, List.sum_nil, add_zero]
        exact SyncTask.owes_congr rfl rfl
    | synced =>
      obtain rfl := Option.some.inj hresume
      cases process with
      | engine =>
        refine htallied.write ht _ ?_ (hlands rfl) fun id hid => SyncTask.owes_eq_zero (if_neg hid)
        cases realizedPnl with
        | none => rfl
        | some pnl => exact TradeIndex.applyRealizedPnl_balance ..
      | api node =>
        refine htallied.pass ht (fun h => by cases h) fun id _ => ?_
        simp only [publish, List.map_nil, List.sum_nil, List.map_cons, List.sum_cons, add_zero,
          zero_add]
        exact SyncMessage.owes_congr rfl rfl

end BalanceWorld

/-! ### What a transaction credits -/

/-- The statement moves a balance by what it credits. -/
def Stmt.OnlyCredits (stmt : Stmt) : Prop :=
  ∀ acc : Account, (stmt.accountUpdate acc).currentBalance = acc.currentBalance + stmt.credits acc.id

theorem Stmt.creditAccount_onlyCredits (id : Nat) (amount : Cents) :
    (creditAccount id amount).OnlyCredits := by
  intro acc
  by_cases hid : acc.id = id
  · simp [accountUpdate, credits, hid, Account.credited]
  · simp [accountUpdate, credits, hid]

theorem execAll_balance {stmts : List Stmt} {db db' : Db} (honly : ∀ stmt ∈ stmts, stmt.OnlyCredits)
    (hexec : execAll db stmts = some db') {id : Nat} {row : Account} (hrow : db.account? id = some row) :
    ∃ row' ∈ db'.account? id,
      row'.currentBalance = row.currentBalance + creditedBy stmts id := by
  induction stmts generalizing db row with
  | nil =>
    obtain rfl := Option.some.inj hexec
    exact ⟨row, hrow, by simp [creditedBy]⟩
  | cons stmt stmts ih =>
    obtain ⟨mid, hstep, hrest⟩ := Option.bind_eq_some_iff.mp hexec
    obtain ⟨row', hrow', hbalance⟩ :=
      ih (fun s hs => honly s (List.mem_cons_of_mem _ hs)) hrest (Stmt.exec_account? hstep hrow)
    refine ⟨row', hrow', ?_⟩
    rw [hbalance, honly stmt List.mem_cons_self, Db.account?_id hrow, creditedBy, creditedBy,
      List.map_cons, List.sum_cons, add_assoc]

/-- The transaction only credits, and its tasks owe what it credits unless it has none. -/
structure Tracked (a : Action) (stmts : List Stmt) (tasks : List SyncTask) : Prop where
  onlyCredits : ∀ stmt ∈ stmts, stmt.OnlyCredits
  owes : (a.scheduled = true ∧ tasks = []) ∨
    ∀ id, (tasks.map fun t => t.owes id).sum = (creditedBy stmts id).dollars

/-- One task for each credit. -/
theorem sum_owes_credits (stmts : List Stmt) {f : Nat × Cents → SyncTask}
    (hf : ∀ credit id, (f credit).owes id = (if id = credit.1 then credit.2 else 0 : Cents).dollars)
    (id : Nat) :
    (((creditsIn stmts).map f).map fun t => t.owes id).sum = (creditedBy stmts id).dollars := by
  rw [creditedBy_eq]
  induction creditsIn stmts with
  | nil => simp
  | cons credit credits ih =>
    simp only [List.map_cons, List.sum_cons, Cents.dollars_add] at ih ⊢
    rw [ih, hf]

theorem closeFromSnapshot_onlyCredits {fx : FxSource} {db : Db} {trade : Trade} {closePrice : ℚ}
    {reason : String} {now : Nat} {clearDeferred : Bool} {stmts : List Stmt}
    (hclose : closeFromSnapshot fx db trade closePrice reason now clearDeferred = some stmts) :
    ∀ stmt ∈ stmts, stmt.OnlyCredits := by
  obtain ⟨row, c, _, _, _, _, rfl⟩ := closeFromSnapshot_eq_some hclose
  intro stmt hstmt
  rcases List.mem_cons.mp hstmt with rfl | hcredit
  · exact fun acc => (add_zero _).symm
  · rw [List.mem_singleton.mp hcredit]
    exact Stmt.creditAccount_onlyCredits _ _

theorem marketClose_onlyCredits {w : World} {reason : String} {fx : FxSource} {seen : Db}
    {accountId tradeId : Nat} {price : Quote} {stmts : List Stmt}
    (hplan : w.whenFree accountId (marketClose reason fx seen w.db tradeId price w.clock)
      = some stmts) : ∀ stmt ∈ stmts, stmt.OnlyCredits := by
  obtain ⟨_, hclose⟩ := World.whenFree_eq_some.mp hplan
  obtain ⟨trade, closePrice, reason, _, hclose⟩ := marketClose_eq_some hclose
  exact closeFromSnapshot_onlyCredits hclose

/-- Two statements, the second of them the credit. -/
theorem onlyCredits_pair {stmt : Stmt} (hstmt : stmt.OnlyCredits) {accountId : Nat} {amount : Cents} :
    ∀ stmt' ∈ [stmt, Stmt.creditAccount accountId amount], stmt'.OnlyCredits := by
  intro stmt' hmem
  rcases List.mem_cons.mp hmem with rfl | hcredit
  · exact hstmt
  · rw [List.mem_singleton.mp hcredit]
    exact Stmt.creditAccount_onlyCredits _ _

theorem closeTradeHandler_tracked {w : World} (process : Process) {fx : FxSource} {tradeId : Nat}
    {requested : Option ℚ} {closePrice minLotSize : ℚ} {partId : Nat} {stmts : List Stmt}
    (hclose : closeTradeHandler fx w.db tradeId requested closePrice minLotSize partId w.clock
      = some stmts) :
    (∀ stmt ∈ stmts, stmt.OnlyCredits) ∧
      ∀ id, (((closeTradeContinuations w tradeId stmts).map fun c =>
        SyncTask.mk process c []).map fun t => t.owes id).sum = (creditedBy stmts id).dollars := by
  obtain ⟨locked, closeLots, c, hrow, _, _, _, _, ⟨_, rfl⟩ | ⟨_, rfl⟩⟩ := closeTradeHandler_eq_some hclose
  · refine ⟨onlyCredits_pair fun acc => (add_zero _).symm, fun id => ?_⟩
    · simp [closeTradeContinuations, hrow, SyncTask.owes, SyncTask.profit, remainingTrade, creditedBy,
        Stmt.credits]
  · refine ⟨onlyCredits_pair fun acc => (add_zero _).symm, fun id => ?_⟩
    · simp [closeTradeContinuations, creditsIn, SyncTask.owes, SyncTask.profit, creditedBy,
        Stmt.credits]

theorem plan_tracked {w : World} {a : Action} {process : Process} {stmts : List Stmt}
    {tasks : List SyncTask} (hplan : w.plan a = some stmts)
    (htasks : continuations w process stmts a = some tasks) : Tracked a stmts tasks := by
  cases a with
  | openTrade req id openPrice =>
    obtain rfl := Option.some.inj htasks
    obtain ⟨_, hopen⟩ := World.whenFree_eq_some.mp hplan
    obtain ⟨acc, -, -, rfl⟩ := openTrade_spec hopen
    refine ⟨fun stmt hstmt => ?_, .inr fun id => ?_⟩
    · rw [List.mem_singleton.mp hstmt]
      exact fun acc => (add_zero _).symm
    · simp [Stmt.insertedTrades, SyncTask.owes, SyncTask.profit, creditedBy, Stmt.credits]
  | checkSLTP fx asOf tradeId price minHoldSeconds =>
    obtain rfl := Option.some.inj htasks
    simp only [World.plan, Option.bind_eq_bind, Option.bind_eq_some_iff] at hplan
    obtain ⟨seen, _, _, _, hplan⟩ := hplan
    obtain ⟨_, hcheck⟩ := World.whenFree_eq_some.mp hplan
    refine ⟨?_, .inr (sum_owes_credits _ fun credit id => by simp [SyncTask.owes, SyncTask.profit])⟩
    obtain ⟨trade, _, ⟨level, reason, rfl⟩ | ⟨_, closePrice, reason, hclose⟩⟩ := checkSLTP_eq_some hcheck
    · intro stmt hstmt
      rw [List.mem_singleton.mp hstmt]
      exact fun acc => (add_zero _).symm
    · exact closeFromSnapshot_onlyCredits hclose
  | closeTriggeredTrades fx entries busy minHoldSeconds =>
    obtain rfl := Option.some.inj htasks
    simp only [World.plan, Option.bind_eq_bind, Option.bind_eq_some_iff] at hplan
    obtain ⟨candidates, _, stmts', hclose, _, _, hstmts⟩ := hplan
    obtain rfl := Option.some.inj hstmts
    obtain ⟨closings, _, _, rfl⟩ := closeTriggeredTrades_eq_some hclose
    refine ⟨fun stmt hstmt => ?_, .inr fun id => ?_⟩
    · rcases List.mem_cons.mp hstmt with rfl | hcredit
      · exact fun acc => (add_zero _).symm
      · obtain ⟨total, _, rfl⟩ := List.mem_map.mp hcredit
        exact Stmt.creditAccount_onlyCredits _ _
    · rw [List.map_singleton, List.sum_singleton, creditedBy_eq]
      simp [SyncTask.owes, SyncTask.profit]
  | weekendClose fx asOf tradeId price =>
    obtain rfl := Option.some.inj htasks
    obtain ⟨seen, _, hplan⟩ := Option.bind_eq_some_iff.mp hplan
    exact ⟨marketClose_onlyCredits hplan, .inl ⟨rfl, rfl⟩⟩
  | flatByClose fx asOf tradeId price =>
    obtain rfl := Option.some.inj htasks
    obtain ⟨seen, _, hplan⟩ := Option.bind_eq_some_iff.mp hplan
    exact ⟨marketClose_onlyCredits hplan, .inl ⟨rfl, rfl⟩⟩
  | newsClose fx asOf tradeId price =>
    obtain rfl := Option.some.inj htasks
    obtain ⟨seen, _, hplan⟩ := Option.bind_eq_some_iff.mp hplan
    exact ⟨marketClose_onlyCredits hplan, .inl ⟨rfl, rfl⟩⟩
  | batchClose action fx asOf tradeId price =>
    obtain rfl := Option.some.inj htasks
    obtain ⟨seen, _, hplan⟩ := Option.bind_eq_some_iff.mp hplan
    obtain ⟨_, hbatch⟩ := World.whenFree_eq_some.mp hplan
    obtain ⟨trade, closePrice, reason, _, hclose⟩ := batchClose_eq_some hbatch
    exact ⟨closeFromSnapshot_onlyCredits hclose,
      .inr (sum_owes_credits _ fun credit id => by simp [SyncTask.owes, SyncTask.profit])⟩
  | closeTradeHandler fx tradeId closeLots closePrice minLotSize partId =>
    obtain rfl := Option.some.inj htasks
    obtain ⟨_, hclose⟩ := World.whenFree_eq_some.mp hplan
    obtain ⟨honly, howes⟩ := closeTradeHandler_tracked process hclose
    exact ⟨honly, .inr howes⟩
  | _ => cases htasks

namespace BalanceWorld

variable {w w' : BalanceWorld}

theorem lands_of_credits {stmts : List Stmt} (hlands : ∀ credit ∈ creditsIn stmts,
    w.Lands credit.1 none (creditedBy stmts credit.1).dollars) (accountId : Nat) :
    w.Lands accountId none (creditedBy stmts accountId).dollars := by
  by_cases hcredited : ∃ credit ∈ creditsIn stmts, accountId = credit.1
  · obtain ⟨credit, hcredit, rfl⟩ := hcredited
    exact hlands credit hcredit
  · push Not at hcredited
    rw [creditedBy_eq, sum_credits_eq_zero hcredited, Cents.dollars_zero]
    exact fun balance _ => (add_zero balance).symm

theorem Tallied.commit (htallied : w.Tallied) {action : Action} {process : Process}
    (hbooks : action.scheduled = true → ∀ stmts ∈ w.world.plan action,
      ∀ credit ∈ creditsIn stmts, w.Lands credit.1 none (creditedBy stmts credit.1).dollars)
    (hcommit : w.commit action process = some w') : w'.Tallied := by
  rw [BalanceWorld.commit, Option.bind_eq_bind, Option.bind_eq_some_iff] at hcommit
  obtain ⟨stmts, hplan, hcommit⟩ := hcommit
  obtain ⟨db, hexec, hcommit⟩ := Option.bind_eq_some_iff.mp hcommit
  obtain ⟨tasks, htasks, hcommit⟩ := Option.bind_eq_some_iff.mp hcommit
  obtain rfl := Option.some.inj hcommit
  obtain ⟨honly, howes⟩ := plan_tracked hplan htasks
  intro accountId balance hbalance
  obtain ⟨row, hrow, htotal⟩ := htallied accountId balance hbalance
  obtain ⟨row', hrow', hcredited⟩ := execAll_balance honly hexec hrow
  refine ⟨row', hrow', ?_⟩
  have howed : (tasks.map fun t => t.owes accountId).sum = (creditedBy stmts accountId).dollars := by
    rcases howes with ⟨hscheduled, rfl⟩ | howes
    · have hlands := lands_of_credits (hbooks hscheduled stmts hplan) accountId balance hbalance
      rw [Option.getD_none] at hlands
      rw [List.map_nil, List.sum_nil]
      linarith
    · exact howes accountId
  rw [hcredited, Cents.dollars_add, ← htotal, ← howed]
  simp only [owed, List.map_append, List.sum_append]
  ring

/-! ### Loading and delivering -/

theorem owed_reloadAll (w : BalanceWorld) (loaded accountId : Nat) :
    (w.reloadAll loaded).owed accountId = if accountId = loaded then 0 else w.owed accountId := by
  have htask : ∀ t : SyncTask, SyncTask.owes { t with reloaded := loaded :: t.reloaded } accountId
      = if accountId = loaded then 0 else t.owes accountId := by
    intro t
    by_cases hid : accountId = loaded
    · simp [SyncTask.owes, hid]
    · simp [SyncTask.owes, SyncTask.profit, hid]
  have hmessage : ∀ m : SyncMessage, SyncMessage.owes { m with reloaded := loaded :: m.reloaded } accountId
      = if accountId = loaded then 0 else m.owes accountId := by
    intro m
    by_cases hid : accountId = loaded
    · simp [SyncMessage.owes, hid]
    · simp [SyncMessage.owes, SyncMessage.profit, hid]
  simp only [owed, reloadAll, List.map_map, Function.comp_def, htask, hmessage]
  split <;> simp

theorem Tallied.load (htallied : w.Tallied) {k : Nat} {t : SyncTask} (ht : w.tasks[k]? = some t)
    (next : SyncStage → SyncTask) (hnext : ∀ stage id, (next stage).owes id = t.owes id)
    {row : Option Account} (hcurrent : t.process = .engine → ∀ r ∈ row,
      ∃ now ∈ w.world.db.account? r.id, r.currentBalance = now.currentBalance) :
    (w.load k t.process next row).Tallied := by
  cases row with
  | none =>
    refine htallied.pass ht (fun hengine => by rw [hengine]) fun id _ => ?_
    simp [hnext]
  | some row =>
    cases hprocess : t.process with
    | api node =>
      refine htallied.pass ht (fun h => by cases h) fun id _ => ?_
      simp [hnext]
    | engine =>
      obtain ⟨now, hnow, hsame⟩ := hcurrent hprocess row rfl
      intro id balance hbalance
      have hindex : (w.load k .engine next (some row)).index .engine
          = (w.index .engine).upsertAccount row := by
        simp [BalanceWorld.load, reloadAll, BalanceWorld.proceed]
      have howed : (w.load k .engine next (some row)).owed id
          = if id = row.id then 0 else w.owed id := by
        have hproceed := owed_proceed ht .engine ((w.index .engine).upsertAccount row)
          [next .resolving] [] id
        simp only [List.map_cons, List.map_nil, List.sum_cons, List.sum_nil, add_zero, hnext] at hproceed
        rw [BalanceWorld.load, if_pos rfl, owed_reloadAll]
        split
        · rfl
        · linarith
      rw [hindex, TradeIndex.upsertAccount_balance] at hbalance
      rw [howed]
      split at hbalance
      · rename_i hid
        obtain rfl := Option.some.inj hbalance
        refine ⟨now, hid ▸ hnow, ?_⟩
        rw [if_pos hid, add_zero, hsame]
      · rename_i hid
        rw [if_neg hid]
        exact htallied id balance hbalance

theorem Tallied.queryReturns (htallied : w.Tallied) {k : Nat} {t : SyncTask} {seen : Db}
    (ht : w.tasks[k]? = some t) (hcurrent : t.process = .engine → w.LoadsCurrent t seen)
    (hquery : w.queryReturns k t seen = some w') : w'.Tallied := by
  obtain ⟨process, continuation, reloaded⟩ := t
  rw [BalanceWorld.queryReturns] at hquery
  split at hquery
  · rename_i trade realizedPnl balance hcontinuation
    dsimp only at hcontinuation
    subst hcontinuation
    obtain rfl := Option.some.inj hquery
    refine htallied.load ht _ (fun stage id => ?_) fun hengine row hrow => ?_
    · exact SyncTask.owes_congr rfl rfl
    obtain ⟨hrow, _⟩ := Option.filter_eq_some_iff.mp hrow
    obtain ⟨now, hnow, hsame⟩ := hcurrent hengine row hrow
    exact ⟨now, (Db.account?_id hrow).symm ▸ hnow, hsame⟩
  · cases hquery

theorem Tallied.deliver (htallied : w.Tallied) {m : SyncMessage} {rest : List SyncMessage}
    (hchannel : w.channel = m :: rest) (hlands : w.MessageLands m) (sameDay : Bool) :
    ({ w with channel := rest }.applyPublished m sameDay).Tallied := by
  obtain ⟨published, reloaded⟩ := m
  have howed : ∀ id, w.owed id = ({ w with channel := rest } : BalanceWorld).owed id
      + SyncMessage.owes ⟨published, reloaded⟩ id := by
    intro id
    rw [owed, owed, hchannel, List.map_cons, List.sum_cons]
    ring
  cases published with
  | opened trade realizedPnl written =>
    intro id balance hbalance
    obtain ⟨row, hrow, htotal⟩ := htallied id balance hbalance
    refine ⟨row, hrow, ?_⟩
    rw [← htotal, howed]
    simp only [applyPublished, owed, List.map_append, List.sum_append, List.map_cons, List.map_nil,
      List.sum_cons, List.sum_nil, add_zero]
    have hsame : SyncTask.owes ⟨.engine, .syncOpened trade realizedPnl written
        (Follower.firstStage (w.index .engine) trade.accountId),
          if ((w.index .engine).balance trade.accountId).isSome then reloaded
          else trade.accountId :: reloaded⟩ id
        = SyncMessage.owes ⟨.opened trade realizedPnl written, reloaded⟩ id := by
      by_cases hid : id = trade.accountId
      · have hloaded : ((w.index .engine).balance trade.accountId).isSome :=
          hid ▸ Option.isSome_of_mem hbalance
        rw [if_pos hloaded]
        exact (SyncMessage.owes_congr rfl rfl).symm
      · simp [SyncTask.owes, SyncMessage.owes, SyncTask.profit, SyncMessage.profit, hid]
    rw [hsame]
    ring
  | closed tradeId accountId pnl written =>
    intro id balance' hbalance'
    have hothers : id ≠ accountId →
        SyncMessage.owes ⟨.closed tradeId accountId pnl written, reloaded⟩ id = 0 := by
      intro hid
      simp [SyncMessage.owes, SyncMessage.profit, hid]
    obtain ⟨balance, hbalance, hgain⟩ : ∃ balance ∈ (w.index .engine).balance id,
        balance' = balance + SyncMessage.owes ⟨.closed tradeId accountId pnl written, reloaded⟩ id := by
      simp only [applyPublished, Function.update_self] at hbalance'
      cases written with
      | none =>
        rw [Option.elim_none, TradeIndex.syncClosedTrade_balance] at hbalance'
        refine ⟨balance', hbalance', ?_⟩
        by_cases hid : id = accountId
        · subst hid
          exact hlands balance' hbalance'
        · rw [hothers hid, add_zero]
      | some value =>
        rw [Option.elim_some, TradeIndex.updateAccountBalance_balance,
          TradeIndex.syncClosedTrade_balance] at hbalance'
        split at hbalance'
        · rename_i hid
          obtain ⟨balance, hbalance, rfl⟩ := Option.map_eq_some_iff.mp hbalance'
          exact ⟨balance, hid ▸ hbalance, hid ▸ hlands balance hbalance⟩
        · rename_i hid
          exact ⟨balance', hbalance', by rw [hothers hid, add_zero]⟩
    obtain ⟨row, hrow, htotal⟩ := htallied id balance hbalance
    refine ⟨row, hrow, ?_⟩
    rw [← htotal, howed, hgain]
    simp only [applyPublished, owed]
    ring

theorem Tallied.step (htallied : w.Tallied) {a : BalanceAction} (hok : w.KeepsBooks a)
    (hstep : w.step a = some w') : w'.Tallied := by
  cases a with
  | tick seconds =>
    obtain rfl := Option.some.inj hstep
    exact htallied
  | commit action process => exact htallied.commit hok hstep
  | resume k sameDay seed limits =>
    obtain ⟨t, ht, hresume⟩ := Option.bind_eq_some_iff.mp hstep
    exact htallied.resume ht (hok t ht) hresume
  | queryReturns k asOf =>
    obtain ⟨t, ht, hstep⟩ := Option.bind_eq_some_iff.mp hstep
    obtain ⟨seen, hseen, hquery⟩ := Option.bind_eq_some_iff.mp hstep
    exact htallied.queryReturns ht (fun hengine => hok t ht hengine seen hseen) hquery
  | deliver sameDay =>
    cases hchannel : w.channel with
    | nil => simp [BalanceWorld.step, hchannel] at hstep
    | cons m rest =>
      simp only [BalanceWorld.step, hchannel, Option.some.injEq] at hstep
      obtain rfl := hstep
      exact htallied.deliver hchannel (hok m (by rw [hchannel]; rfl)) sameDay

theorem owed_of_quiet (htasks : w.tasks = []) (hchannel : w.channel = []) (accountId : Nat) :
    w.owed accountId = 0 := by
  simp [owed, htasks, hchannel]

theorem Reconciled.tallied (hreconciled : w.Reconciled) : w.Tallied := by
  obtain ⟨htasks, hchannel, hinStep⟩ := hreconciled
  intro accountId balance hbalance
  obtain ⟨row, hrow, hsame⟩ := hinStep htasks hchannel accountId balance hbalance
  exact ⟨row, hrow, by rw [owed_of_quiet htasks hchannel, add_zero, hsame]⟩

theorem Tallied.inStep (htallied : w.Tallied) : w.InStep := by
  intro htasks hchannel accountId balance hbalance
  obtain ⟨row, hrow, htotal⟩ := htallied accountId balance hbalance
  exact ⟨row, hrow, by rw [← htotal, owed_of_quiet htasks hchannel, add_zero]⟩

instance (w : BalanceWorld) (accountId : Nat) (written : Option ℚ) (owes : ℚ) :
    Decidable (w.Lands accountId written owes) :=
  inferInstanceAs (Decidable (∀ balance ∈ (w.index .engine).balance accountId,
    written.getD balance = balance + owes))

instance (w : BalanceWorld) : ∀ t, Decidable (w.TaskLands t)
  | ⟨_, .syncTriggered _ _, _⟩ => List.decidableBAll _ _
  | ⟨_, .syncSltp _ _ _, _⟩ => inferInstanceAs (Decidable (w.Lands _ _ _))
  | ⟨_, .syncBatch _ _ _, _⟩ | ⟨_, .writeBalance _ _ _, _⟩ | ⟨_, .syncOpened _ _ _ .synced, _⟩ =>
    inferInstanceAs (Decidable (_ = Process.engine → w.Lands _ _ _))
  | ⟨_, .syncFull _ _ _, _⟩ | ⟨_, .syncPartial _ _, _⟩ | ⟨_, .syncOpen _, _⟩
  | ⟨_, .syncOpened _ _ _ .querying, _⟩ | ⟨_, .syncOpened _ _ _ .resolving, _⟩
  | ⟨_, .syncOpened _ _ _ .loaded, _⟩ => .isTrue trivial

instance (w : BalanceWorld) : ∀ m, Decidable (w.MessageLands m)
  | ⟨.closed _ _ _ _, _⟩ => inferInstanceAs (Decidable (w.Lands _ _ _))
  | ⟨.opened _ _ _, _⟩ => .isTrue trivial

instance (w : BalanceWorld) (seen : Db) : ∀ t, Decidable (w.LoadsCurrent t seen)
  | ⟨_, .syncOpened _ _ _ _, _⟩ => inferInstanceAs (Decidable (∀ row ∈ _, ∃ now ∈ _, _ = _))
  | ⟨_, .syncTriggered _ _, _⟩ | ⟨_, .syncSltp _ _ _, _⟩ | ⟨_, .syncBatch _ _ _, _⟩
  | ⟨_, .syncFull _ _ _, _⟩ | ⟨_, .writeBalance _ _ _, _⟩ | ⟨_, .syncPartial _ _, _⟩
  | ⟨_, .syncOpen _, _⟩ => .isTrue trivial

instance (w : BalanceWorld) : ∀ a, Decidable (w.KeepsBooks a)
  | .tick _ => .isTrue trivial
  | .commit action _ => inferInstanceAs (Decidable (action.scheduled = true →
    ∀ stmts ∈ w.world.plan action, ∀ credit ∈ creditsIn stmts, w.Lands credit.1 none _))
  | .resume k _ _ _ => inferInstanceAs (Decidable (∀ t ∈ w.tasks[k]?, w.TaskLands t))
  | .queryReturns k asOf => inferInstanceAs (Decidable (∀ t ∈ w.tasks[k]?, t.process = .engine →
    ∀ seen ∈ w.world.seen asOf, w.LoadsCurrent t seen))
  | .deliver _ => inferInstanceAs (Decidable (∀ m ∈ w.channel.head?, w.MessageLands m))

/-- Account 1 with no trades, loaded by every process. -/
def loadedEverywhere : BalanceWorld where
  world := (World.initial .empty).advance
    { Db.initial .empty with accounts := .single (sampleTerms.provision 1) }
  index _ := TradeIndex.empty.upsertAccount (sampleTerms.provision 1)
  tasks := []
  channel := []

theorem loadedEverywhere_reconciled : loadedEverywhere.Reconciled := by
  refine ⟨rfl, rfl, fun _ _ accountId balance hbalance => ?_⟩
  rw [loadedEverywhere, TradeIndex.upsertAccount_balance] at hbalance
  split at hbalance
  · rename_i hid
    subst hid
    exact ⟨sampleTerms.provision 1, rfl, (Option.some.inj hbalance).symm⟩
  · cases hbalance

/-- A position opened on the node that is then asked to close it. -/
def openedOnNode : List BalanceAction :=
  [.commit (.openTrade { sampleOrder with takeProfit := some (28 / 25) } 1 (11 / 10)) (.api 0),
    .resume 0 true none none, .resume 0 true none none, .resume 0 true none none, .deliver true,
    .resume 0 true none none, .resume 0 true none none]

def closedByHand : List BalanceAction :=
  openedOnNode ++ [.commit (.closeTradeHandler noConversion 1 none (111 / 100) (1 / 100) 2) (.api 0),
    .resume 0 true none none, .deliver true, .resume 0 true none none]

/-- `checkSLTP` closes the position at its target. -/
def closedAtTarget : List BalanceAction :=
  openedOnNode ++ [.commit (.checkSLTP noConversion 0 1 (quoteAt (28 / 25)) 0) .engine,
    .resume 0 true none none]

end BalanceWorld

end PropFirm
