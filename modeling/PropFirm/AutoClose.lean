import PropFirm.Lib.Sessions
import PropFirm.Promotions
import PropFirm.TerminalAccounts

/-!
# Settling an account, query by query

`autoCloseAndFail` and `autoCloseAndPass` each settle an account in one transaction: lock the active row,
skipping it when somebody holds it, read and price the open positions, close them, credit their sum,
cancel the pending orders, write the status, and record what happened, a failed account in the day's book
and a passed one as a promotion review. Here each query is a step of its own and may throw, a commit may
be done although the client sees an error, and any number of calls run at once. Every error ends in a
rollback, so a call that is not committed leaves nothing behind; and since a commit takes the account out
of `active`, no second call gets past its lock.
-/

namespace PropFirm

open Sessions

/-! ### The two functions -/

/-- The tables the two functions read and write. `accountsFailed` is the column of `bbook_pnl`, by day. -/
structure SettleStore where
  db : Db
  accountsFailed : Nat → Nat
  challengeModels : Table ChallengeModel
  reviews : Table PromotionReview

inductive SettleWrite
  | sql (stmt : Stmt)
  | countFailed (day : Nat)
  | raiseReview (acc : LadderAccount) (target : PromotionTarget) (reviewId : Nat)

def SettleWrite.apply (s : SettleStore) : SettleWrite → Option SettleStore
  | sql stmt => (stmt.exec s.db).map fun db => { s with db := db }
  | countFailed day =>
    some { s with accountsFailed := Function.update s.accountsFailed day (s.accountsFailed day + 1) }
  | raiseReview acc target reviewId =>
    (createPromotionReview s.reviews acc target reviewId).map fun reviews => { s with reviews := reviews }

inductive AutoCloseKind
  | autoCloseAndFail
  | autoCloseAndPass
  deriving DecidableEq

/-- A call: the row its caller has read, the prices fetched before the transaction begins, the dollar
rates at the time it prices, and what the database fills in. -/
structure AutoCloseCall where
  kind : AutoCloseKind
  acc : Account
  prices : Instrument → Option Quote
  fx : FxSource
  day : Nat
  now : Nat
  reviewId : Nat

namespace AutoCloseCall

def status (call : AutoCloseCall) : AccountStatus :=
  match call.kind with
  | .autoCloseAndFail => .failed
  | .autoCloseAndPass => .passed

def closeReason (call : AutoCloseCall) : String :=
  match call.kind with
  | .autoCloseAndFail => "Account Failed"
  | .autoCloseAndPass => if call.acc.accountType = .phase1 then "Phase 1 Passed" else "Phase 2 Passed"

/-- The loop over the open positions; a missing dollar rate throws. -/
def settlements (call : AutoCloseCall) (db : Db) : Option (List Closing) :=
  (db.tradesOf call.acc.id .opened).mapM fun trade =>
    settlementFor call.fx (call.prices trade.instrument) call.closeReason trade

/-- `bulkCloseTrades`: no query for no settlements. -/
def bulkCloseTrades (call : AutoCloseCall) : List Closing → List (List SettleWrite)
  | [] => []
  | closings => [[.sql (.closeTrades closings call.now false)]]

def creditTotal (call : AutoCloseCall) (closings : List Closing) : SettleWrite :=
  .sql (.creditAccount call.acc.id (Settling.totalPnl closings))

def cancelPendings (call : AutoCloseCall) : SettleWrite :=
  .sql (.cancelTrades (fun t => t.accountId = call.acc.id ∧ t.status = .pending) call.closeReason call.now)

def setStatus (call : AutoCloseCall) : SettleWrite := .sql (.setStatus call.acc.id call.status)

/-- The account as `createPendingPromotionReview` gets it: without its step number. -/
def ladderAccount (call : AutoCloseCall) : LadderAccount where
  id := call.acc.id
  accountType := match call.acc.accountType with
    | .phase1 => .phase 1
    | .phase2 => .phase 2
    | .phase3 => .phase 3
    | .funded => .funded
    | .competition => .competition
  status := call.acc.status
  challengeModelSlug := call.acc.challengeModelSlug
  stepNumber := none
  parentAccountId := none

def autoCloseAndFail (call : AutoCloseCall) : Body SettleStore SettleWrite :=
  .read fun s =>
    match call.settlements s.db with
    | none => .throw
    | some closings =>
      .writeAll
        (call.bulkCloseTrades closings
          ++ (if Settling.totalPnl closings = 0 then [] else [[call.creditTotal closings]])
          ++ [[call.cancelPendings], [call.setStatus], [.countFailed call.day]])
        .commit

/-- `createPendingPromotionReview`: it makes sure of its tables, which are there, and a missing promotion
path makes the caller throw. -/
def createPendingPromotionReview (call : AutoCloseCall) : Body SettleStore SettleWrite :=
  .write [] <| .read fun s =>
    match resolvePromotionTarget s.challengeModels call.ladderAccount with
    | none => .throw
    | some target => .write [.raiseReview call.ladderAccount target call.reviewId] .commit

def autoCloseAndPass (call : AutoCloseCall) : Body SettleStore SettleWrite :=
  .read fun s =>
    match call.settlements s.db with
    | none => .throw
    | some closings =>
      .writeAll
        (call.bulkCloseTrades closings
          ++ [[call.creditTotal closings, call.setStatus], [call.cancelPendings]])
        call.createPendingPromotionReview

/-- `SELECT … WHERE id = $1 AND status = 'active' FOR UPDATE SKIP LOCKED`, then the rest. -/
def transaction (call : AutoCloseCall) : Transaction SettleStore SettleWrite Nat where
  lock := call.acc.id
  qualifies s := (s.db.account? call.acc.id).any fun acc => acc.status = .active
  body := match call.kind with
    | .autoCloseAndFail => call.autoCloseAndFail
    | .autoCloseAndPass => call.autoCloseAndPass

end AutoCloseCall

abbrev AutoCloseState := State SettleStore SettleWrite Nat AutoCloseCall

def autoCloseStep : AutoCloseState → Sessions.Action AutoCloseCall → Option AutoCloseState :=
  Sessions.step SettleWrite.apply AutoCloseCall.transaction

/-! ### What a committed call has done -/

namespace AutoCloseCall

/-- The rows, as they are afterwards, of the positions that were open. -/
def settledRows (call : AutoCloseCall) (s s' : SettleStore) : List Trade :=
  (s.db.tradesOf call.acc.id .opened).filterMap fun t => s'.db.trade? t.id

/-- What a call leaves beside the account and its trades. -/
def Records (call : AutoCloseCall) (s s' : SettleStore) : Prop :=
  match call.kind with
  | .autoCloseAndFail => s'.accountsFailed
      = Function.update s.accountsFailed call.day (s.accountsFailed call.day + 1) ∧ s'.reviews = s.reviews
  | .autoCloseAndPass => s'.accountsFailed = s.accountsFailed ∧
      ∃ review ∈ s'.reviews.rows, review.sourceAccountId = call.acc.id ∧ review.status = .pending

/-- All of what a call is for, and nothing else. -/
structure Settles (call : AutoCloseCall) (s s' : SettleStore) : Prop where
  closed : ∀ t ∈ s.db.tradesOf call.acc.id .opened, ∃ t', s'.db.trade? t.id = some t' ∧
    t'.status = .closed ∧ t'.demoPnl.isSome
  cancelled : ∀ t ∈ s.db.tradesOf call.acc.id .pending, ∃ t', s'.db.trade? t.id = some t' ∧
    t'.status = .cancelled
  account : ∃ acc acc', s.db.account? call.acc.id = some acc ∧ acc.status = .active ∧
    s'.db.account? call.acc.id = some acc' ∧ acc'.status = call.status ∧
    acc'.currentBalance = acc.currentBalance + sumDemoPnl (call.settledRows s s')
  otherTrades : ∀ tradeId, (∀ t ∈ s.db.trade? tradeId, t.accountId = call.acc.id →
    t.status ≠ .opened ∧ t.status ≠ .pending) → s'.db.trade? tradeId = s.db.trade? tradeId
  otherAccounts : ∀ id, id ≠ call.acc.id → s'.db.account? id = s.db.account? id
  recorded : call.Records s s'

/-! ### Where a call is -/

/-- The queries between the read of the positions and the last read or the commit. -/
def queries (call : AutoCloseCall) (closings : List Closing) : List (List SettleWrite) :=
  match call.kind with
  | .autoCloseAndFail =>
    call.bulkCloseTrades closings
      ++ (if Settling.totalPnl closings = 0 then [] else [[call.creditTotal closings]])
      ++ [[call.cancelPendings], [call.setStatus], [.countFailed call.day]]
  | .autoCloseAndPass =>
    call.bulkCloseTrades closings ++ [[call.creditTotal closings, call.setStatus], [call.cancelPendings], []]

def raiseReview (call : AutoCloseCall) (target : PromotionTarget) : SettleWrite :=
  .raiseReview call.ladderAccount target call.reviewId

/-- What follows the queries: `autoCloseAndPass` has a promotion path to find. -/
def tail (call : AutoCloseCall) : Body SettleStore SettleWrite :=
  match call.kind with
  | .autoCloseAndFail => .commit
  | .autoCloseAndPass => .read fun s =>
    match resolvePromotionTarget s.challengeModels call.ladderAccount with
    | none => .throw
    | some target => .write [call.raiseReview target] .commit

theorem body_eq (call : AutoCloseCall) :
    call.transaction.body = .read fun s =>
      match call.settlements s.db with
      | none => .throw
      | some closings => .writeAll (call.queries closings) call.tail := by
  unfold transaction queries tail
  cases call.kind with
  | autoCloseAndFail => rfl
  | autoCloseAndPass =>
    refine congrArg Body.read (funext fun s => ?_)
    cases call.settlements s.db with
    | none => rfl
    | some closings => cases closings <;> rfl

/-- How far a call has come that holds its lock: it has still to read, it is writing, it has found the
promotion path, or it is about to throw. What it has read is what the store says now. -/
inductive Midway (call : AutoCloseCall) (s : SettleStore) (rest : Body SettleStore SettleWrite)
    (writes : List SettleWrite) : Prop
  | unread (hrest : rest = call.transaction.body) (hwrites : writes = [])
  | writing {closings : List Closing} {done left : List (List SettleWrite)}
    (hclosings : call.settlements s.db = some closings) (hsplit : done ++ left = call.queries closings)
    (hrest : rest = .writeAll left call.tail) (hwrites : writes = done.flatten)
  | recording {closings : List Closing} {target : PromotionTarget} {done left : List (List SettleWrite)}
    (hpass : call.kind = .autoCloseAndPass) (hclosings : call.settlements s.db = some closings)
    (htarget : resolvePromotionTarget s.challengeModels call.ladderAccount = some target)
    (hsplit : done ++ left = [[call.raiseReview target]]) (hrest : rest = .writeAll left .commit)
    (hwrites : writes = (call.queries closings).flatten ++ done.flatten)
  | throwing (hrest : rest = .throw)

theorem challengeModels_apply {s s' : SettleStore} {write : SettleWrite} (happly : write.apply s = some s') :
    s'.challengeModels = s.challengeModels := by
  cases write with
  | sql stmt =>
    obtain ⟨db, _, rfl⟩ := Option.map_eq_some_iff.mp happly
    rfl
  | countFailed day =>
    cases happly
    rfl
  | raiseReview acc target reviewId =>
    obtain ⟨reviews, _, rfl⟩ := Option.map_eq_some_iff.mp happly
    rfl

theorem challengeModels_run {s s' : SettleStore} {writes : List SettleWrite}
    (hrun : Transition.run SettleWrite.apply s writes = some s') : s'.challengeModels = s.challengeModels :=
  have hall : Transition.RunOk SettleWrite.apply (fun _ _ => True) s writes := .of_forall fun _ _ _ => trivial
  Transition.run_invariant (fun t => t.challengeModels = s.challengeModels)
    (fun _ _ _ hinv _ happly => (challengeModels_apply happly).trans hinv) rfl hall hrun

/-- Every query of a call takes it on. -/
theorem Midway.advance {call : AutoCloseCall} {s : SettleStore} {rest rest' : Body SettleStore SettleWrite}
    {writes writes' : List SettleWrite} (hmidway : call.Midway s rest writes)
    (hadvance : rest.advance SettleWrite.apply s writes = some (rest', writes')) :
    call.Midway s rest' writes' := by
  cases hmidway with
  | unread hrest hwrites =>
    rw [hrest, body_eq, hwrites] at hadvance
    obtain ⟨view, hview, rfl, rfl⟩ := Body.advance_read hadvance
    obtain rfl := Option.some.inj hview
    cases hclosings : call.settlements s.db with
    | none => exact .throwing rfl
    | some closings => exact .writing hclosings (List.nil_append _) rfl rfl
  | @writing closings done left hclosings hsplit hrest hwrites =>
    cases left with
    | nil =>
      rw [hrest, Body.writeAll, tail] at hadvance
      cases hkind : call.kind with
      | autoCloseAndFail =>
        rw [hkind] at hadvance
        cases hadvance
      | autoCloseAndPass =>
        rw [hkind] at hadvance
        obtain ⟨view, hview, rfl, rfl⟩ := Body.advance_read hadvance
        rw [challengeModels_run hview]
        cases htarget : resolvePromotionTarget s.challengeModels call.ladderAccount with
        | none => exact .throwing rfl
        | some target =>
          refine .recording hkind hclosings htarget (List.nil_append _) rfl ?_
          rw [hwrites, ← hsplit, List.append_nil, List.flatten_nil, List.append_nil]
    | cons query left =>
      rw [hrest, Body.writeAll] at hadvance
      obtain ⟨rfl, rfl⟩ := Body.advance_write hadvance
      have hnext : (done ++ [query]) ++ left = call.queries closings := by
        rw [List.append_assoc, List.singleton_append, hsplit]
      refine .writing hclosings hnext rfl ?_
      rw [hwrites, List.flatten_append, List.flatten_singleton]
  | @recording closings target done left hpass hclosings htarget hsplit hrest hwrites =>
    cases left with
    | nil =>
      rw [hrest] at hadvance
      cases hadvance
    | cons query left =>
      rw [hrest, Body.writeAll] at hadvance
      obtain ⟨rfl, rfl⟩ := Body.advance_write hadvance
      have hnext : (done ++ [query]) ++ left = [[call.raiseReview target]] := by
        rw [List.append_assoc, List.singleton_append, hsplit]
      refine .recording hpass hclosings htarget hnext rfl ?_
      rw [hwrites, List.flatten_append, List.flatten_singleton, List.append_assoc]
  | throwing hrest =>
    rw [hrest] at hadvance
    cases hadvance

/-- A call that is about to commit has written all of its queries. -/
theorem Midway.committing {call : AutoCloseCall} {s : SettleStore} {writes : List SettleWrite}
    (hmidway : call.Midway s .commit writes) :
    ∃ closings, call.settlements s.db = some closings ∧
      ((call.kind = .autoCloseAndFail ∧ writes = (call.queries closings).flatten) ∨
        (call.kind = .autoCloseAndPass ∧ ∃ target,
          writes = (call.queries closings).flatten ++ [call.raiseReview target])) := by
  cases hmidway with
  | unread hrest _ =>
    rw [body_eq] at hrest
    cases hrest
  | @writing closings done left hclosings hsplit hrest hwrites =>
    refine ⟨closings, hclosings, ?_⟩
    cases left with
    | cons query left => cases hrest
    | nil =>
      rw [List.append_nil] at hsplit
      rw [Body.writeAll, tail] at hrest
      cases hkind : call.kind with
      | autoCloseAndFail => exact .inl ⟨rfl, hwrites.trans (congrArg _ hsplit)⟩
      | autoCloseAndPass =>
        rw [hkind] at hrest
        cases hrest
  | @recording closings target done left hpass hclosings _ hsplit hrest hwrites =>
    cases left with
    | cons query left => cases hrest
    | nil =>
      rw [List.append_nil] at hsplit
      refine ⟨closings, hclosings, .inr ⟨hpass, target, ?_⟩⟩
      rw [hwrites, hsplit, List.flatten_singleton]
  | throwing hrest => cases hrest

end AutoCloseCall

/-! ### The statements of a call -/

theorem trade?_of_rows_map {db db' : Db} {f : Trade → Trade} (hid : ∀ t, (f t).id = t.id)
    (hrows : db'.trades.rows = db.trades.rows.map f) (id : Nat) : db'.trade? id = (db.trade? id).map f := by
  rw [Db.trade?, Table.find?, hrows, List.find?_map, Db.trade?, Table.find?]
  refine congrArg _ (congrArg (List.find? · _) (funext fun t => ?_))
  exact congrArg (fun k => decide (k = id)) (hid t)

theorem account?_of_rows_map {db db' : Db} {f : Account → Account} (hid : ∀ a, (f a).id = a.id)
    (hrows : db'.accounts.rows = db.accounts.rows.map f) (id : Nat) :
    db'.account? id = (db.account? id).map f := by
  rw [Db.account?, Table.find?, hrows, List.find?_map, Db.account?, Table.find?]
  refine congrArg _ (congrArg (List.find? · _) (funext fun a => ?_))
  exact congrArg (fun k => decide (k = id)) (hid a)

theorem execAll_accounts {stmts : List Stmt} {db db' : Db}
    (hnone : Transition.RunOk (fun db stmt => Stmt.exec db stmt) Stmt.InsertsNothing db stmts)
    (hexec : execAll db stmts = some db') :
    db'.accounts.rows = db.accounts.rows.map fun a => stmts.foldl (fun a stmt => stmt.accountUpdate a) a := by
  induction stmts generalizing db with
  | nil =>
    have hsame : db = db' := Option.some.inj hexec
    simp [hsame]
  | cons stmt stmts ih =>
    obtain ⟨mid, hstep, hrest⟩ := Option.bind_eq_some_iff.mp hexec
    rw [ih (hnone.2 mid hstep) hrest, Stmt.exec_accounts hstep, hnone.1.2, List.nil_append, List.map_map]
    rfl

namespace AutoCloseCall

/-- The SQL among the queries, in their order. -/
def statements (call : AutoCloseCall) (closings : List Closing) : List Stmt :=
  (if closings = [] then [] else [.closeTrades closings call.now false]) ++
    match call.kind with
    | .autoCloseAndFail =>
      (if Settling.totalPnl closings = 0 then []
        else [.creditAccount call.acc.id (Settling.totalPnl closings)]) ++
      [.cancelTrades (fun t => t.accountId = call.acc.id ∧ t.status = .pending) call.closeReason call.now,
        .setStatus call.acc.id call.status]
    | .autoCloseAndPass =>
      [.creditAccount call.acc.id (Settling.totalPnl closings), .setStatus call.acc.id call.status,
        .cancelTrades (fun t => t.accountId = call.acc.id ∧ t.status = .pending) call.closeReason call.now]

theorem flatten_queries (call : AutoCloseCall) (closings : List Closing) :
    (call.queries closings).flatten = (call.statements closings).map .sql ++
      match call.kind with
      | .autoCloseAndFail => [.countFailed call.day]
      | .autoCloseAndPass => [] := by
  unfold queries statements
  cases call.kind with
  | autoCloseAndFail =>
    by_cases hzero : Settling.totalPnl closings = 0
    · cases closings <;> simp [hzero, bulkCloseTrades, cancelPendings, setStatus]
    · cases closings <;> simp [hzero, bulkCloseTrades, creditTotal, cancelPendings, setStatus]
  | autoCloseAndPass =>
    cases closings <;> simp [bulkCloseTrades, creditTotal, cancelPendings, setStatus]

theorem run_sql {s s' : SettleStore} {stmts : List Stmt} {writes : List SettleWrite}
    (hrun : Transition.run SettleWrite.apply s (stmts.map .sql ++ writes) = some s') :
    ∃ db, execAll s.db stmts = some db ∧
      Transition.run SettleWrite.apply { s with db := db } writes = some s' := by
  induction stmts generalizing s with
  | nil => exact ⟨s.db, rfl, hrun⟩
  | cons stmt stmts ih =>
    obtain ⟨mid, happly, hrest⟩ := Option.bind_eq_some_iff.mp hrun
    obtain ⟨db, hexec, rfl⟩ := Option.map_eq_some_iff.mp happly
    obtain ⟨db', hexec', hrun'⟩ := ih hrest
    refine ⟨db', ?_, hrun'⟩
    rw [execAll, Transition.run, hexec]
    exact hexec'

/-- What the statements make of a position: the close, then the cancellation. -/
def rowAfter (call : AutoCloseCall) (closings : List Closing) (t : Trade) : Trade :=
  (Stmt.cancelTrades (fun t => t.accountId = call.acc.id ∧ t.status = .pending) call.closeReason
    call.now).rowUpdate ((Stmt.closeTrades closings call.now false).rowUpdate t)

theorem foldl_rowUpdate (call : AutoCloseCall) (closings : List Closing) (t : Trade) :
    (call.statements closings).foldl (fun t stmt => stmt.rowUpdate t) t = call.rowAfter closings t := by
  have hclose : (if closings = [] then [] else [Stmt.closeTrades closings call.now false]).foldl
      (fun t stmt => stmt.rowUpdate t) t = (Stmt.closeTrades closings call.now false).rowUpdate t := by
    cases closings <;> rfl
  rw [statements, List.foldl_append, hclose]
  cases call.kind with
  | autoCloseAndFail =>
    dsimp only
    rw [List.foldl_append]
    split <;> rfl
  | autoCloseAndPass => rfl

/-- The close of the positions is no matter of the account. -/
theorem foldl_closeTrades (closings : List Closing) (closedAt : ℕ) (acc : Account) :
    (if closings = [] then [] else [Stmt.closeTrades closings closedAt false]).foldl
      (fun a stmt => stmt.accountUpdate a) acc = acc := by
  cases closings <;> rfl

/-- What the statements make of the account. -/
theorem foldl_accountUpdate (call : AutoCloseCall) (closings : List Closing) {acc : Account}
    (hid : acc.id = call.acc.id) :
    ((call.statements closings).foldl (fun a stmt => stmt.accountUpdate a) acc).status = call.status ∧
      ((call.statements closings).foldl (fun a stmt => stmt.accountUpdate a) acc).currentBalance
        = acc.currentBalance + Settling.totalPnl closings := by
  rw [statements, List.foldl_append, foldl_closeTrades]
  cases call.kind with
  | autoCloseAndFail =>
    by_cases hzero : Settling.totalPnl closings = 0
    · simp [hzero, Stmt.accountUpdate, hid, Account.withStatus]
    · simp [hzero, Stmt.accountUpdate, hid, Account.withStatus, Account.credited]
  | autoCloseAndPass => simp [Stmt.accountUpdate, hid, Account.withStatus, Account.credited]

theorem foldl_accountUpdate_of_ne (call : AutoCloseCall) (closings : List Closing) {acc : Account}
    (hne : acc.id ≠ call.acc.id) :
    (call.statements closings).foldl (fun a stmt => stmt.accountUpdate a) acc = acc := by
  rw [statements, List.foldl_append, foldl_closeTrades]
  cases call.kind with
  | autoCloseAndFail =>
    by_cases hzero : Settling.totalPnl closings = 0
    · simp [hzero, Stmt.accountUpdate, hne]
    · simp [hzero, Stmt.accountUpdate, hne]
  | autoCloseAndPass => simp [Stmt.accountUpdate, hne]

theorem statements_insertNothing (call : AutoCloseCall) (closings : List Closing) (db : Db) :
    Transition.RunOk (fun db stmt => Stmt.exec db stmt) Stmt.InsertsNothing db
      (call.statements closings) := by
  refine Transition.RunOk.of_forall fun stmt hstmt _ => ?_
  rw [statements, List.mem_append] at hstmt
  rcases hstmt with hclose | hrest
  · split at hclose
    · cases hclose
    · rw [List.mem_singleton.mp hclose]
      exact ⟨rfl, rfl⟩
  · cases hkind : call.kind with
    | autoCloseAndFail =>
      rw [hkind] at hrest
      rcases List.mem_append.mp hrest with hcredit | hrest
      · split at hcredit
        · cases hcredit
        · rw [List.mem_singleton.mp hcredit]
          exact ⟨rfl, rfl⟩
      · simp only [List.mem_cons, List.not_mem_nil, or_false] at hrest
        rcases hrest with rfl | rfl <;> exact ⟨rfl, rfl⟩
    | autoCloseAndPass =>
      rw [hkind] at hrest
      simp only [List.mem_cons, List.not_mem_nil, or_false] at hrest
      rcases hrest with rfl | rfl | rfl <;> exact ⟨rfl, rfl⟩

end AutoCloseCall

namespace AutoCloseCall

section Effect

variable {call : AutoCloseCall} {db db' : Db} {closings : List Closing}

theorem rowAfter_id (call : AutoCloseCall) (closings : List Closing) (t : Trade) :
    (call.rowAfter closings t).id = t.id := by
  rw [rowAfter, Stmt.rowUpdate_id, Stmt.rowUpdate_id]

theorem trade?_after (hexec : execAll db (call.statements closings) = some db') (id : Nat) :
    db'.trade? id = (db.trade? id).map (call.rowAfter closings) := by
  refine trade?_of_rows_map (call.rowAfter_id closings) ?_ id
  rw [execAll_trades (call.statements_insertNothing closings db) hexec]
  exact List.map_congr_left fun t _ => call.foldl_rowUpdate closings t

theorem account?_after (hexec : execAll db (call.statements closings) = some db') (id : Nat) :
    db'.account? id = (db.account? id).map fun acc =>
      (call.statements closings).foldl (fun a stmt => stmt.accountUpdate a) acc := by
  refine account?_of_rows_map (fun acc => ?_)
    (execAll_accounts (call.statements_insertNothing closings db) hexec) id
  generalize call.statements closings = stmts
  induction stmts generalizing acc with
  | nil => rfl
  | cons stmt stmts ih => exact (ih _).trans (Stmt.accountUpdate_id stmt acc)

/-- The settlements are of the open positions, one each. -/
theorem settlements_eq_some (hclosings : call.settlements db = some closings) :
    closings.map Closing.trade = db.tradesOf call.acc.id .opened ∧
      (closings.map fun c => c.trade.id).Nodup := by
  have htrades : closings.map Closing.trade = (db.tradesOf call.acc.id .opened).map id :=
    List.map_eq_of_mapM_eq_some hclosings fun t c hc => (settlementFor_eq_some hc).1
  rw [List.map_id] at htrades
  refine ⟨htrades, ?_⟩
  have hids : (closings.map fun c => c.trade.id) = (closings.map Closing.trade).map Trade.id := by
    rw [List.map_map]
    rfl
  rw [hids, htrades]
  exact db.trades.nodup.sublist (List.filter_sublist.map _)

theorem exists_settlement (hclosings : call.settlements db = some closings) {t : Trade}
    (ht : t ∈ db.tradesOf call.acc.id .opened) : ∃ c ∈ closings, c.trade = t := by
  rw [← (settlements_eq_some hclosings).1] at ht
  exact List.mem_map.mp ht

/-- A settled position is closed with its settlement's profit; the cancellation passes it by. -/
theorem rowAfter_settled (hclosings : call.settlements db = some closings) {c : Closing} (hc : c ∈ closings) :
    (call.rowAfter closings c.trade).status = .closed ∧
      (call.rowAfter closings c.trade).demoPnl = some c.pnl := by
  rw [rowAfter, Stmt.rowUpdate_closeTrades (settlements_eq_some hclosings).2 hc rfl]
  simp [Stmt.rowUpdate, Trade.closedAt]

theorem rowAfter_unsettled (hclosings : call.settlements db = some closings) {t : Trade}
    (ht : t ∈ db.trades.rows) (hnot : ¬ (t.accountId = call.acc.id ∧ t.status = .opened)) :
    call.rowAfter closings t = if t.accountId = call.acc.id ∧ t.status = .pending
      then (Trade.cancelledAt call.closeReason call.now).apply t else t := by
  have hne : ∀ c ∈ closings, c.trade.id ≠ t.id := by
    intro c hc hid
    have hmem : c.trade ∈ db.tradesOf call.acc.id .opened :=
      (settlements_eq_some hclosings).1 ▸ List.mem_map_of_mem hc
    obtain ⟨hrow, haccount, hopen⟩ := Db.mem_tradesOf.mp hmem
    have hsame : c.trade = t := List.inj_on_of_nodup_map db.trades.nodup hrow ht hid
    exact hnot ⟨hsame ▸ haccount, hsame ▸ hopen⟩
  rw [rowAfter, Stmt.rowUpdate_closeTrades_of_ne hne]
  simp only [Stmt.rowUpdate, decide_eq_true_eq]

theorem sumDemoPnl_settled (hclosings : call.settlements db = some closings)
    (hexec : execAll db (call.statements closings) = some db') :
    sumDemoPnl ((db.tradesOf call.acc.id .opened).filterMap fun t => db'.trade? t.id)
      = Settling.totalPnl closings := by
  have hrows : ((db.tradesOf call.acc.id .opened).filterMap fun t => db'.trade? t.id)
      = closings.map fun c => call.rowAfter closings c.trade := by
    rw [← (settlements_eq_some hclosings).1, List.filterMap_map, ← List.filterMap_eq_map]
    refine List.filterMap_congr fun c hc => ?_
    have hmem : c.trade ∈ db.tradesOf call.acc.id .opened :=
      (settlements_eq_some hclosings).1 ▸ List.mem_map_of_mem hc
    rw [Function.comp_apply, trade?_after hexec,
      Db.trade?_eq_some.mpr ⟨(Db.mem_tradesOf.mp hmem).1, rfl⟩, Option.map_some, Function.comp_apply]
  rw [hrows, sumDemoPnl, List.map_map, Settling.totalPnl]
  refine congrArg List.sum (List.map_congr_left fun c hc => ?_)
  rw [Function.comp_apply, (rowAfter_settled hclosings hc).2]
  rfl

end Effect

end AutoCloseCall

theorem createPromotionReview_pending {reviews reviews' : Table PromotionReview} {acc : LadderAccount}
    {target : PromotionTarget} {reviewId : Nat}
    (hcreate : createPromotionReview reviews acc target reviewId = some reviews') :
    ∃ review ∈ reviews'.rows, review.sourceAccountId = acc.id ∧ review.status = .pending := by
  unfold createPromotionReview at hcreate
  split at hcreate
  · rename_i hwaits
    obtain ⟨review, hreview, hpending⟩ := List.any_eq_true.mp hwaits
    obtain rfl := Option.some.inj hcreate
    exact ⟨review, hreview, of_decide_eq_true hpending⟩
  · exact ⟨_, (Table.insert?_eq_some hcreate).2 ▸ List.mem_cons_self, rfl, rfl⟩

namespace AutoCloseCall

/-- A commit applies the statements of its settlements, and its record. -/
theorem Midway.commit {call : AutoCloseCall} {s s' : SettleStore} {writes : List SettleWrite}
    (hmidway : call.Midway s .commit writes)
    (hrun : Transition.run SettleWrite.apply s writes = some s') :
    ∃ closings, call.settlements s.db = some closings ∧
      execAll s.db (call.statements closings) = some s'.db ∧ call.Records s s' := by
  obtain ⟨closings, hclosings, ⟨hkind, rfl⟩ | ⟨hkind, target, rfl⟩⟩ := hmidway.committing
  · rw [flatten_queries, hkind] at hrun
    obtain ⟨db, hexec, hrecord⟩ := run_sql hrun
    obtain rfl := Option.some.inj hrecord
    refine ⟨closings, hclosings, hexec, ?_⟩
    rw [Records, hkind]
    exact ⟨rfl, rfl⟩
  · rw [flatten_queries, hkind, List.append_nil] at hrun
    obtain ⟨db, hexec, hrecord⟩ := run_sql hrun
    obtain ⟨_, happly, hend⟩ := Option.bind_eq_some_iff.mp hrecord
    obtain rfl := Option.some.inj hend
    obtain ⟨reviews, hcreate, rfl⟩ := Option.map_eq_some_iff.mp happly
    refine ⟨closings, hclosings, hexec, ?_⟩
    rw [Records, hkind]
    exact ⟨rfl, createPromotionReview_pending hcreate⟩

/-- A call that commits settles its account. -/
theorem Midway.settles {call : AutoCloseCall} {s s' : SettleStore} {writes : List SettleWrite}
    (hmidway : call.Midway s .commit writes) (hactive : call.transaction.qualifies s = true)
    (hrun : Transition.run SettleWrite.apply s writes = some s') : call.Settles s s' := by
  obtain ⟨closings, hclosings, hexec, hrecorded⟩ := hmidway.commit hrun
  refine ⟨fun t ht => ?_, fun t ht => ?_, ?_, fun tradeId hother => ?_, fun id hne => ?_, hrecorded⟩
  · obtain ⟨c, hc, rfl⟩ := exists_settlement hclosings ht
    obtain ⟨hclosed, hpnl⟩ := rowAfter_settled hclosings hc
    refine ⟨call.rowAfter closings c.trade, ?_, hclosed, hpnl ▸ rfl⟩
    rw [trade?_after hexec, Db.trade?_eq_some.mpr ⟨(Db.mem_tradesOf.mp ht).1, rfl⟩, Option.map_some]
  · obtain ⟨hrow, haccount, hpending⟩ := Db.mem_tradesOf.mp ht
    refine ⟨call.rowAfter closings t, ?_, ?_⟩
    · rw [trade?_after hexec, Db.trade?_eq_some.mpr ⟨hrow, rfl⟩, Option.map_some]
    · rw [rowAfter_unsettled hclosings hrow (by simp [hpending]), if_pos ⟨haccount, hpending⟩]
      rfl
  · obtain ⟨acc, hacc, hstatus⟩ := (Option.any_eq_true _ _).mp hactive
    obtain ⟨hstatus', hbalance⟩ := call.foldl_accountUpdate closings (Db.account?_id hacc)
    refine ⟨acc, _, hacc, of_decide_eq_true hstatus, ?_, hstatus', ?_⟩
    · rw [account?_after hexec, hacc, Option.map_some]
    · rw [hbalance, settledRows, sumDemoPnl_settled hclosings hexec]
  · rw [trade?_after hexec]
    cases hrow : s.db.trade? tradeId with
    | none => rfl
    | some t =>
      have hnot := hother t hrow
      rw [Option.map_some, rowAfter_unsettled hclosings (Db.trade?_eq_some.mp hrow).1
        (fun h => (hnot h.1).1 h.2), if_neg fun h => (hnot h.1).2 h.2]
  · rw [account?_after hexec]
    cases hacc : s.db.account? id with
    | none => rfl
    | some acc =>
      rw [Option.map_some, call.foldl_accountUpdate_of_ne closings (Db.account?_id hacc ▸ hne)]

end AutoCloseCall

/-! ### Calls on other accounts -/

namespace AutoCloseCall

theorem tradesOf_after {call : AutoCloseCall} {db db' : Db} {closings : List Closing}
    (hclosings : call.settlements db = some closings)
    (hexec : execAll db (call.statements closings) = some db') {accountId : Nat}
    (hne : accountId ≠ call.acc.id) (status : TradeStatus) :
    db'.tradesOf accountId status = db.tradesOf accountId status := by
  have hrows : db'.trades.rows = db.trades.rows.map (call.rowAfter closings) := by
    rw [execAll_trades (call.statements_insertNothing closings db) hexec]
    exact List.map_congr_left fun t _ => call.foldl_rowUpdate closings t
  have haccount : ∀ t, (call.rowAfter closings t).accountId = t.accountId := fun t => by
    rw [rowAfter, Stmt.rowUpdate_accountId, Stmt.rowUpdate_accountId]
  have hfixed : ∀ t ∈ db.trades.rows, t.accountId = accountId → call.rowAfter closings t = t := by
    intro t ht hid
    have hother : t.accountId ≠ call.acc.id := hid ▸ hne
    rw [rowAfter_unsettled hclosings ht fun h => hother h.1, if_neg fun h => hother h.1]
  have hselected : ∀ t ∈ db.trades.rows,
      ((fun t : Trade => decide (t.accountId = accountId ∧ t.status = status)) ∘ call.rowAfter closings) t
        = decide (t.accountId = accountId ∧ t.status = status) := by
    intro t ht
    rw [Function.comp_apply, haccount]
    by_cases hid : t.accountId = accountId
    · rw [hfixed t ht hid]
    · simp [hid]
  rw [Db.tradesOf, hrows, List.filter_map, List.filter_congr hselected, Db.tradesOf]
  calc ((db.trades.rows.filter _).map (call.rowAfter closings))
      = (db.trades.rows.filter fun t => t.accountId = accountId ∧ t.status = status).map id :=
        List.map_congr_left fun t ht =>
          hfixed t (List.mem_filter.mp ht).1 (of_decide_eq_true (List.mem_filter.mp ht).2).1
    _ = _ := List.map_id _

/-- What a call has read is still so after a commit on another account. -/
theorem Midway.frame {call call' : AutoCloseCall} {s s' : SettleStore} {rest : Body SettleStore SettleWrite}
    {writes writes' : List SettleWrite} (hmidway : call.Midway s rest writes)
    (hother : call'.Midway s .commit writes') (hne : call.acc.id ≠ call'.acc.id)
    (hrun : Transition.run SettleWrite.apply s writes' = some s') : call.Midway s' rest writes := by
  obtain ⟨closings', hclosings', hexec, _⟩ := hother.commit hrun
  have hsettlements : call.settlements s'.db = call.settlements s.db := by
    rw [settlements, tradesOf_after hclosings' hexec hne, settlements]
  cases hmidway with
  | unread hrest hwrites => exact .unread hrest hwrites
  | writing hclosings hsplit hrest hwrites =>
    exact .writing (hsettlements.trans hclosings) hsplit hrest hwrites
  | recording hpass hclosings htarget hsplit hrest hwrites =>
    refine .recording hpass (hsettlements.trans hclosings) ?_ hsplit hrest hwrites
    rw [challengeModels_run hrun]
    exact htarget
  | throwing hrest => exact .throwing hrest

end AutoCloseCall

/-! ### Runs -/

/-- The calls under way see what they locked, and are at some query of their own. -/
theorem reached_guarded {w : AutoCloseState}
    (hreach : Transition.Reach autoCloseStep (fun _ _ => True) (fun w => ∃ store, w = .initial store) w) :
    Guarded AutoCloseCall.transaction
      (fun call s rest writes => call.transaction.qualifies s = true ∧ call.Midway s rest writes) w := by
  rw [autoCloseStep] at hreach
  refine guarded_of_reach ?_ ?_ ?_ (fun _ h => h) hreach
  · exact fun call s hqualifies => ⟨hqualifies, .unread rfl rfl⟩
  · exact fun call s rest writes rest' writes' hmid hadvance => ⟨hmid.1, hmid.2.advance hadvance⟩
  · intro call call' s s' rest writes writes' hmid hother hne hrun
    refine ⟨?_, hmid.2.frame hother.2 hne hrun⟩
    have hsettles := hother.2.settles hother.1 hrun
    change (s'.db.account? call.acc.id).any _ = true
    rw [hsettles.otherAccounts call.acc.id hne]
    exact hmid.1

theorem AutoCloseCall.Settles.unqualified {call : AutoCloseCall} {s s' : SettleStore}
    (hsettles : call.Settles s s') (call' : AutoCloseCall)
    (hwas : call'.transaction.lock = call.transaction.lock ∨ call'.transaction.qualifies s = false) :
    call'.transaction.qualifies s' = false := by
  by_cases hsame : call'.acc.id = call.acc.id
  · obtain ⟨_, acc', _, _, hacc', hstatus, _⟩ := hsettles.account
    change (s'.db.account? call'.acc.id).any _ = false
    rw [hsame, hacc', Option.any_some, hstatus, AutoCloseCall.status]
    cases call.kind <;> rfl
  · change (s'.db.account? call'.acc.id).any _ = false
    rw [hsettles.otherAccounts _ hsame]
    exact hwas.resolve_left hsame

/-- In every run of any number of calls, interleaved query by query, whatever fails: a step commits a call
and does all the call is for, or changes nothing, and no account has two committed calls. -/
theorem autoClose_allOrNothing {w : AutoCloseState}
    (hreach : Transition.Reach autoCloseStep (fun _ _ => True) (fun w => ∃ store, w = .initial store) w) :
    (∀ a w', autoCloseStep w a = some w' →
      (w'.store = w.store ∧ w'.committed = w.committed) ∨
        ∃ call, w'.committed = call :: w.committed ∧ call.Settles w.store w'.store) ∧
      (w.committed.map fun call => call.acc.id).Nodup := by
  constructor
  · intro a w' hstep
    rcases step_store hstep with hsame | ⟨n, call, writes, hsession, hrun, hcommitted⟩
    · exact .inl hsame
    · have hmid := (reached_guarded hreach n call .commit writes hsession).2
      exact .inr ⟨call, hcommitted, hmid.2.settles hmid.1 hrun⟩
  · have hwinner : SingleWinner AutoCloseCall.transaction w := by
      refine Transition.Reach.invariant_relative reached_guarded ?_ ?_ hreach
      · rintro w ⟨store, rfl⟩
        exact ⟨List.nodup_nil, fun _ h => absurd h List.not_mem_nil⟩
      · intro w a w' hguarded hwinner _ hstep
        exact hwinner.step hguarded (fun call s writes hmid => hmid.1)
          (fun call call' s s' writes hmid hrun hwas => (hmid.2.settles hmid.1 hrun).unqualified call' hwas)
          hstep
    exact hwinner.nodup

/-- Account 1 with a euro position and a pending order. -/
def duelStore : SettleStore where
  db :=
    { Db.initial Table.empty with
      accounts := .single (sampleTerms.provision 1)
      trades :=
        ⟨[{ sampleOrder.row 1 .opened with openPrice := some (11 / 10) }, sampleOrder.row 2 .pending],
          by decide⟩ }
  accountsFailed := fun _ => 0
  challengeModels := Table.empty
  reviews := Table.empty

def duelCall (kind : AutoCloseKind) : AutoCloseCall :=
  ⟨kind, sampleTerms.provision 1, quotedAt (1085 / 1000), noConversion, 0, 100, 1⟩

/-- Both functions are called at once, then the second once more. The first gets the lock and loses the
answer to its commit. -/
def duel : List (Sessions.Action AutoCloseCall) :=
  [.start 0 (duelCall .autoCloseAndFail), .start 1 (duelCall .autoCloseAndPass), .query 0 .ok, .query 1 .ok] ++
    List.replicate 6 (.query 0 .ok) ++
    [.query 0 .lost, .start 1 (duelCall .autoCloseAndPass), .query 1 .ok]

theorem autoClose_allOrNothing_duel :
    ∃ w, Transition.run autoCloseStep (.initial duelStore) duel = some w ∧
      w.committed.map AutoCloseCall.kind = [.autoCloseAndFail] ∧
      (w.store.db.account? 1).map Account.currentBalance = some 849300 ∧
      (w.committed.map fun call => call.acc.id).Nodup := by
  obtain ⟨w, hw, htest⟩ := Transition.exists_of_run_any autoCloseStep (.initial duelStore) duel
    (fun w => w.committed.map AutoCloseCall.kind = [.autoCloseAndFail] ∧
      (w.store.db.account? 1).map Account.currentBalance = some 849300) (by decide +kernel)
  obtain ⟨hcommitted, hbalance⟩ := of_decide_eq_true htest
  refine ⟨w, hw, hcommitted, hbalance, ?_⟩
  exact (autoClose_allOrNothing
    (.of_run (.init ⟨duelStore, rfl⟩) (Transition.RunOk.of_forall fun _ _ _ => trivial) hw)).2

end PropFirm
