import PropFirm.AdminOverrides
import PropFirm.TradeRuns

/-!
# The status machine of an account

`LEGAL_TRANSITIONS` says between which statuses an account may move, and `changeStatus` enforces it,
but no path of the program calls `changeStatus`: every writer of the column issues its own update.
The engines write under a lock taken on an active account, the restores and the freezes check the
status they find. A lock, a revoked funding, a manual breach or promotion, a disqualification and the
withdrawal of a bot write over whatever is there. Runs in which each of these finds a status that it
may leave keep every account on the machine.
-/

namespace PropFirm

open Transition

def AccountStatus.name : AccountStatus → String
  | active => "active"
  | passed => "passed"
  | failed => "failed"
  | expired => "expired"
  | locked => "locked"
  | cancelled => "cancelled"
  | closed => "closed"

/-- `LEGAL_TRANSITIONS`. -/
def legalTransitions : AccountStatus → List AccountStatus
  | .active => [.passed, .failed, .locked, .expired, .cancelled, .closed]
  | .passed => [.active, .locked, .cancelled, .closed]
  | .failed => [.active, .locked, .cancelled, .closed]
  | .locked => [.active, .failed, .cancelled, .closed]
  | .expired => [.active, .cancelled, .closed]
  | .cancelled => [.active]
  | .closed => []

def changeStatus (current target : AccountStatus) : Except String AccountStatus :=
  if target = current then .ok current
  else if target ∈ legalTransitions current then .ok target
  else .error ("Cannot move an account from " ++ current.name ++ " to " ++ target.name)

/-- The status is kept, or moves along the table. -/
def AccountStatus.MovesTo (current target : AccountStatus) : Prop :=
  target = current ∨ target ∈ legalTransitions current

instance (current target : AccountStatus) : Decidable (current.MovesTo target) :=
  inferInstanceAs (Decidable (_ ∨ _))

/-- The table is what `changeStatus` accepts. -/
theorem changeStatus_eq_ok {current target : AccountStatus} :
    changeStatus current target = .ok target ↔ current.MovesTo target := by
  unfold changeStatus AccountStatus.MovesTo
  split
  · rename_i hsame
    simp [hsame]
  · rename_i hne
    split
    · rename_i hlegal
      simp [hlegal]
    · rename_i hillegal
      simp [hne, hillegal]

theorem AccountStatus.closed_terminal {target : AccountStatus} :
    AccountStatus.closed.MovesTo target ↔ target = .closed := by
  simp [MovesTo, legalTransitions]

/-! ### Competitions -/

inductive EntryStatus
  | active | withdrawn | disqualified
  deriving DecidableEq

structure CompetitionEntry where
  id : Nat
  competitionId : Nat
  accountId : Option Nat
  isBot : Bool
  status : EntryStatus
  deriving DecidableEq

instance : Keyed CompetitionEntry Nat := ⟨CompetitionEntry.id⟩

def CompetitionEntry.withStatus (status : EntryStatus) : Table.Rewrite CompetitionEntry where
  apply entry := { entry with status := status }
  key_apply _ := rfl

inductive EntryRequestKind
  | disqualify | withdrawBot
  deriving DecidableEq

def EntryRequestKind.entryStatus : EntryRequestKind → EntryStatus
  | disqualify => .disqualified
  | withdrawBot => .withdrawn

def EntryRequestKind.accountStatus : EntryRequestKind → AccountStatus
  | disqualify => .failed
  | withdrawBot => .cancelled

/-- An entry was read as active; its own update and then the one of its account follow, each a
statement of its own. -/
structure EntryRequest where
  kind : EntryRequestKind
  entry : CompetitionEntry

def readEntry (kind : EntryRequestKind) (entry : CompetitionEntry) : Option EntryRequest :=
  if entry.status = .active ∧ (kind = .withdrawBot → entry.isBot) then some ⟨kind, entry⟩ else none

/-! ### The system -/

structure Platform where
  world : World
  entries : Table CompetitionEntry
  requests : List EntryRequest

def Platform.initial (models : Table StepModel) : Platform := ⟨World.initial models, Table.empty, []⟩

/-- The transactions of the trading platform, its compliance lock among them, and every other writer
of an account's status. -/
inductive PlatformAction
  | trading (action : Action)
  | override (accountId : Nat) (action : AdminAction) (ctx : AdminContext)
  | bulkAction (accountId : Nat) (action : AdminAction) (ctx : AdminContext)
  | violationLock (accountId : Nat)
  | freezeAccountsForOrder (accountId : Nat)
  | enterCompetition (entry : CompetitionEntry)
  | cancelCompetition (competitionId : Nat)
  | requestEntry (kind : EntryRequestKind) (entryId : Nat)
  | finishRequest (index : Nat)

/-- A transaction that locks the account's row, or waits for whoever holds it. -/
def World.administer (w : World) (accountId : Nat)
    (writesFor : Account → Except String (List AdminWrite)) : Option World := do
  guard (w.accountFree accountId)
  let acc ← w.db.account? accountId
  let writes ← (writesFor acc).toOption
  let db ← commitAdmin w.db writes
  some (w.advance db)

/-- The automation's lock and the freeze of a reversed order leave alone what is not active. -/
def lockActive (acc : Account) : Except String (List AdminWrite) :=
  .ok (if acc.status = .active then [AdminContext.setStatus acc .locked] else [])

/-- `UPDATE accounts SET status = … WHERE id = …`, whatever the status. -/
def overwriteStatus (status : AccountStatus) (acc : Account) : Except String (List AdminWrite) :=
  .ok [AdminContext.setStatus acc status]

def World.cancelActive (w : World) (accountIds : List Nat) : Option World := do
  guard (∀ accountId ∈ accountIds, w.accountFree accountId = true)
  let cond := fun acc : Account => decide (acc.id ∈ accountIds ∧ acc.status = .active)
  some (w.advance { w.db with accounts := w.db.accounts.update cond (Account.withStatus .cancelled) })

namespace Platform

def entryAccounts (p : Platform) (competitionId : Nat) : List Nat :=
  (p.entries.rows.filter fun entry => entry.competitionId = competitionId).filterMap
    CompetitionEntry.accountId

def finish (p : Platform) (request : EntryRequest) : Option World :=
  match request.entry.accountId with
  | none => some p.world
  | some accountId => p.world.administer accountId (overwriteStatus request.kind.accountStatus)

def step (p : Platform) : PlatformAction → Option Platform
  | .trading action => (p.world.step action).map fun world => { p with world := world }
  | .override accountId action ctx =>
    let ctx := { ctx with now := p.world.clock }
    (p.world.administer accountId fun acc => ctx.override p.world.db acc action).map
      fun world => { p with world := world }
  | .bulkAction accountId action ctx =>
    let ctx := { ctx with now := p.world.clock }
    (p.world.administer accountId fun acc => ctx.bulkAction p.world.db acc action).map
      fun world => { p with world := world }
  | .violationLock accountId | .freezeAccountsForOrder accountId =>
    (p.world.administer accountId lockActive).map fun world => { p with world := world }
  | .enterCompetition entry =>
    (p.entries.insert? entry).map fun entries => { p with entries := entries }
  | .cancelCompetition competitionId =>
    (p.world.cancelActive (p.entryAccounts competitionId)).map fun world =>
      { p with
        world := world
        entries := p.entries.update
          (fun entry => entry.competitionId = competitionId ∧ entry.status = .active)
          (CompetitionEntry.withStatus .withdrawn) }
  | .requestEntry kind entryId => do
    let entry ← p.entries.find? entryId
    let request ← readEntry kind entry
    some { p with requests := request :: p.requests }
  | .finishRequest index => do
    let request ← p.requests[index]?
    let world ← p.finish request
    some
      { world := world
        entries := p.entries.updateAt request.entry.id
          (CompetitionEntry.withStatus request.kind.entryStatus)
        requests := p.requests.eraseIdx index }

end Platform

/-! ### What a transaction leaves alone -/

/-- The write rewrites rows of one account only. -/
def AdminWrite.Touches (accountId : Nat) (db : Db) : AdminWrite → Prop
  | .sql stmt => stmt.Sound (· = accountId) db
  | .resetToStarting id | .setPhaseEnd id _ | .extendPhase id _ _ => id = accountId

abbrev TouchesAll (accountId : Nat) (db : Db) (writes : List AdminWrite) : Prop :=
  RunOk (fun db write => AdminWrite.exec db write) (AdminWrite.Touches accountId) db writes

/-- Rewriting account rows, all but those of the given accounts left as they are. -/
structure Db.RewritesAccounts (touch : Nat → Prop) (db db' : Db) : Prop where
  trades : db'.trades = db.trades
  kept : ∀ id acc, ¬ touch id → db.account? id = some acc → db'.account? id = some acc

theorem Settling.Valid.rewritesAccounts {touch : Nat → Prop} {db db' : Db} {s : Settling}
    (hvalid : s.Valid db) (hrewrites : db.RewritesAccounts touch db')
    (huntouched : ¬ touch s.account.id) : s.Valid db' := by
  refine { hvalid with account := hrewrites.kept _ _ huntouched hvalid.account, held := fun t ht => ?_ }
  rw [Db.trade?, hrewrites.trades]
  exact hvalid.held t ht

/-- What a transaction may change under the feet of the others: later rows of the same trades, and
nothing that a terminal transaction in flight has read. -/
structure World.Permits (w : World) (db : Db) : Prop where
  later : ∀ t row : Trade, w.db.trade? t.id = some row → t.Later row →
    ∃ row', db.trade? t.id = some row' ∧ t.Later row'
  settling : ∀ s ∈ w.settling, s.Valid db

namespace World

variable {w : World}

theorem Permits.refl (hvalid : w.Valid) : w.Permits w.db :=
  ⟨fun _ row hrow hlater => ⟨row, hrow, hlater⟩, hvalid.settling⟩

theorem Permits.advance_valid (hvalid : w.Valid) {db : Db} (hpermits : w.Permits db) :
    (w.advance db).Valid := by
  refine ⟨fun old hold t ht => ?_, hvalid.distinct, hpermits.settling⟩
  rcases List.mem_cons.mp hold with rfl | hold
  · exact ⟨t, Db.trade?_eq_some.mpr ⟨ht, rfl⟩, .refl t⟩
  · obtain ⟨row, hrow, hlater⟩ := hvalid.history old hold t ht
    exact hpermits.later t row hrow hlater

theorem Permits.rewritesAccounts {touch : Nat → Prop} {db db' : Db} (hpermits : w.Permits db)
    (hrewrites : db.RewritesAccounts touch db')
    (hfree : ∀ id, touch id → w.accountFree id = true) : w.Permits db' := by
  refine ⟨fun t row hrow hlater => ?_, fun s hs => ?_⟩
  · rw [Db.trade?, hrewrites.trades]
    exact hpermits.later t row hrow hlater
  · exact (hpermits.settling s hs).rewritesAccounts hrewrites
      fun htouched => not_accountFree hs (hfree _ htouched)

theorem Permits.execStmt {accountId : Nat} {db db' : Db} {stmt : Stmt} (hpermits : w.Permits db)
    (hsound : stmt.Sound (· = accountId) db) (hfree : w.accountFree accountId = true)
    (hexec : stmt.exec db = some db') : w.Permits db' := by
  refine ⟨fun t row hrow hlater => ?_, fun s hs => ?_⟩
  · obtain ⟨mid, hmid, hlater⟩ := hpermits.later t row hrow hlater
    exact ⟨_, Stmt.exec_trade? hexec hmid,
      hlater.trans (Stmt.rowUpdate_later hsound (Db.trade?_eq_some.mp hmid).1)⟩
  · refine (hpermits.settling s hs).exec hsound hexec fun hid => ?_
    exact not_accountFree hs (hid ▸ hfree)

end World

theorem Db.updateAt_rewritesAccounts (db : Db) (id : Nat) (f : Table.Rewrite Account) :
    db.RewritesAccounts (· = id) { db with accounts := db.accounts.updateAt id f } := by
  refine ⟨rfl, fun k acc hother hacc => ?_⟩
  have hfind := Table.find?_updateAt db.accounts id f k
  rw [Db.account?] at hacc
  rw [hacc, Option.map_some, if_neg hother] at hfind
  exact hfind

namespace World

variable {w : World}

theorem Permits.execAdmin {accountId : Nat} {db db' : Db} {write : AdminWrite}
    (hpermits : w.Permits db) (htouches : write.Touches accountId db)
    (hfree : w.accountFree accountId = true) (hexec : write.exec db = some db') : w.Permits db' := by
  have hupdate : ∀ (mid : Db) (f : Table.Rewrite Account), w.Permits mid →
      w.Permits { mid with accounts := mid.accounts.updateAt accountId f } :=
    fun mid f hmid =>
      hmid.rewritesAccounts (mid.updateAt_rewritesAccounts accountId f) fun id hid => hid ▸ hfree
  cases write with
  | sql stmt => exact hpermits.execStmt htouches hfree hexec
  | setPhaseEnd id phaseEndDate | extendPhase id days now =>
    obtain rfl : id = accountId := htouches
    cases hexec
    exact hupdate db _ hpermits
  | resetToStarting id =>
    obtain rfl : id = accountId := htouches
    simp only [AdminWrite.exec, Option.bind_eq_bind, Option.bind_eq_some_iff, Option.some.injEq] at hexec
    obtain ⟨live, _, adjusted, hadjust, rfl⟩ := hexec
    refine hupdate adjusted _ ?_
    unfold bookReset at hadjust
    split at hadjust
    · cases hadjust
      exact hpermits
    · have hsound : Stmt.Sound (· = id) db
          (.adjustBalance id (live.startingBalance - live.currentBalance).dollars false) := rfl
      exact hpermits.execStmt hsound hfree hadjust

theorem Permits.commitAdmin {accountId : Nat} {db db' : Db} {writes : List AdminWrite}
    (hpermits : w.Permits db) (htouches : TouchesAll accountId db writes)
    (hfree : w.accountFree accountId = true) (hcommit : commitAdmin db writes = some db') :
    w.Permits db' :=
  run_invariant (fun db => w.Permits db)
    (fun _ _ _ hpermits htouches hexec => hpermits.execAdmin htouches hfree hexec) hpermits htouches
    hcommit

end World

/-! ### What a transaction does to a status -/

theorem Stmt.accountUpdate_status (stmt : Stmt) (acc : Account) :
    (stmt.accountUpdate acc).status = acc.status ∨
      stmt = .setStatus acc.id (stmt.accountUpdate acc).status := by
  cases stmt with
  | setStatus id status =>
    simp only [accountUpdate]
    split
    · rename_i hid
      exact .inr (by rw [hid]; rfl)
    · exact .inl rfl
  | creditAccount | adjustBalance | raiseAnchors =>
    simp only [accountUpdate]
    split <;> exact .inl rfl
  | _ => exact .inl rfl

theorem AdminWrite.exec_status {db db' : Db} {write : AdminWrite} (hexec : write.exec db = some db')
    {id : Nat} {acc : Account} (hacc : db.account? id = some acc) :
    ∃ acc', db'.account? id = some acc' ∧
      (acc'.status = acc.status ∨ write = .sql (.setStatus id acc'.status)) := by
  have hrewrite : ∀ (mid : Db) (k : Nat) (f : Table.Rewrite Account) (live : Account),
      mid.account? id = some live → live.status = acc.status → (∀ a, (f.apply a).status = a.status) →
      ∃ acc', Db.account? { mid with accounts := mid.accounts.updateAt k f } id = some acc' ∧
        acc'.status = acc.status := by
    intro mid k f live hlive hstatus hkeeps
    rw [Db.account?] at hlive
    refine ⟨_, (Table.find?_updateAt mid.accounts k f id).trans (by rw [hlive, Option.map_some]), ?_⟩
    split
    · rw [hkeeps, hstatus]
    · exact hstatus
  cases write with
  | sql stmt =>
    refine ⟨_, Stmt.exec_account? hexec hacc, ?_⟩
    have hid : acc.id = id := Db.account?_id hacc
    rcases Stmt.accountUpdate_status stmt acc with hkept | hset
    · exact .inl hkept
    · exact .inr (by rw [← hid, ← hset])
  | setPhaseEnd k phaseEndDate =>
    cases hexec
    obtain ⟨acc', hacc', hstatus⟩ := hrewrite db k (Account.phaseEnding phaseEndDate) acc hacc rfl
      fun _ => rfl
    exact ⟨acc', hacc', .inl hstatus⟩
  | extendPhase k days now =>
    cases hexec
    obtain ⟨acc', hacc', hstatus⟩ := hrewrite db k (Account.phaseExtended days now) acc hacc rfl
      fun _ => rfl
    exact ⟨acc', hacc', .inl hstatus⟩
  | resetToStarting k =>
    simp only [exec, Option.bind_eq_bind, Option.bind_eq_some_iff] at hexec
    obtain ⟨live, _, adjusted, hadjust, hdone⟩ := hexec
    cases hdone
    have hlive : ∃ mid, adjusted.account? id = some mid ∧ mid.status = acc.status := by
      unfold bookReset at hadjust
      split at hadjust
      · cases hadjust
        exact ⟨acc, hacc, rfl⟩
      · refine ⟨_, Stmt.exec_account? hadjust hacc, ?_⟩
        rcases Stmt.accountUpdate_status (.adjustBalance k _ false) acc with hkept | hset
        · exact hkept
        · cases hset
    obtain ⟨mid, hmid, hstatus⟩ := hlive
    obtain ⟨acc', hacc', hstatus⟩ := hrewrite adjusted k Account.rebased mid hmid hstatus fun _ => rfl
    exact ⟨acc', hacc', .inl hstatus⟩

/-- After a transaction an account has the status it had, or one the transaction wrote for it. -/
theorem commitAdmin_status {db db' : Db} {writes : List AdminWrite}
    (hcommit : commitAdmin db writes = some db') {id : Nat} {acc : Account}
    (hacc : db.account? id = some acc) :
    ∃ acc', db'.account? id = some acc' ∧
      (acc'.status = acc.status ∨ .sql (.setStatus id acc'.status) ∈ writes) := by
  induction writes generalizing db acc with
  | nil =>
    have hsame : db = db' := Option.some.inj hcommit
    exact ⟨acc, hsame ▸ hacc, .inl rfl⟩
  | cons write writes ih =>
    obtain ⟨mid, hstep, hrest⟩ := Option.bind_eq_some_iff.mp hcommit
    obtain ⟨live, hlive, hfirst⟩ := AdminWrite.exec_status hstep hacc
    obtain ⟨acc', hacc', hlater⟩ := ih hrest hlive
    refine ⟨acc', hacc', ?_⟩
    rcases hlater with hsame | hwritten
    · rw [hsame]
      refine hfirst.imp_right fun h => ?_
      rw [h]
      exact List.mem_cons_self
    · exact .inr (List.mem_cons_of_mem _ hwritten)

theorem execAll_status {db db' : Db} {stmts : List Stmt} (hexec : execAll db stmts = some db') {id : Nat}
    {acc : Account} (hacc : db.account? id = some acc) :
    ∃ acc', db'.account? id = some acc' ∧
      (acc'.status = acc.status ∨ .setStatus id acc'.status ∈ stmts) := by
  have hcommit : commitAdmin db (stmts.map .sql) = some db' := by
    rw [← hexec]
    clear hexec hacc
    induction stmts generalizing db with
    | nil => rfl
    | cons stmt stmts ih =>
      rw [List.map_cons, commitAdmin, run, execAll, run]
      exact congrArg _ (funext fun mid => ih)
  obtain ⟨acc', hacc', hstatus⟩ := commitAdmin_status hcommit hacc
  refine ⟨acc', hacc', hstatus.imp_right fun hmem => ?_⟩
  obtain ⟨stmt, hstmt, heq⟩ := List.mem_map.mp hmem
  cases heq
  exact hstmt

/-! ### What the admin actions write -/

/-- The statuses an action writes, beside what it has checked. -/
inductive AdminAction.Writes (db : Db) (acc : Account) : AdminAction → AccountStatus → Prop
  | pass {action : AdminAction} (haction : action = .pass ∨ action = .promote)
      (hpath : hasPromotionPath db acc = true) : Writes db acc action .passed
  | fail : Writes db acc .fail .failed
  | revokeFunded (hfunded : acc.accountType = .funded) : Writes db acc .revokeFunded .locked
  | lock : Writes db acc .lockAccount .locked
  | restore {action : AdminAction} (hstatus : acc.status ∈ [.failed, .locked, .expired]) :
    Writes db acc action .active

/-- A transaction writes rows of the account it locked only, and a status the action writes only. -/
structure AdminAction.Confined (db : Db) (acc : Account) (action : AdminAction)
    (writes : List AdminWrite) : Prop where
  touches : TouchesAll acc.id db writes
  statuses : ∀ id status, .sql (.setStatus id status) ∈ writes →
    id = acc.id ∧ action.Writes db acc status

namespace AdminContext

variable {ctx : AdminContext} {db : Db} {acc : Account} {action : AdminAction} {writes : List AdminWrite}

theorem forceClose_touches {rest : List AdminWrite}
    (hrest : ∀ write ∈ rest, ∀ db, write.Touches acc.id db) :
    TouchesAll acc.id db
      ((forceCloseOpenTradesForAccount db acc.id ctx.prices ctx.now).map .sql ++ rest) := by
  unfold forceCloseOpenTradesForAccount
  dsimp only
  split
  · exact .of_forall hrest
  · refine ⟨fun c hc row hrow => ?_, fun _ _ => .of_forall fun write hwrite db => ?_⟩
    · obtain ⟨t, ht, rfl⟩ := List.mem_map.mp hc
      obtain ⟨hmem, haccount, _⟩ := Db.mem_tradesOf.mp ht
      obtain rfl := Option.some.inj ((Db.trade?_eq_some.mpr ⟨hmem, rfl⟩).symm.trans hrow)
      exact haccount
    · rcases List.mem_cons.mp hwrite with rfl | hwrite
      · exact rfl
      · exact hrest write hwrite db

theorem forceClose_statuses {id : Nat} {status : AccountStatus} :
    .sql (.setStatus id status) ∉
      (forceCloseOpenTradesForAccount db acc.id ctx.prices ctx.now).map AdminWrite.sql := by
  unfold forceCloseOpenTradesForAccount
  dsimp only
  split <;> simp

theorem confined_forceClose {rest : List AdminWrite}
    (hrest : ∀ write ∈ rest, ∀ db, write.Touches acc.id db)
    (hstatuses : ∀ id status, .sql (.setStatus id status) ∈ rest →
      id = acc.id ∧ action.Writes db acc status) :
    action.Confined db acc
      ((forceCloseOpenTradesForAccount db acc.id ctx.prices ctx.now).map .sql ++ rest) := by
  refine ⟨forceClose_touches hrest, fun id status hmem => ?_⟩
  rcases List.mem_append.mp hmem with hmem | hmem
  · exact absurd hmem forceClose_statuses
  · exact hstatuses id status hmem

theorem confined_closeAll {reason : String} {rest : List AdminWrite}
    (hrest : ∀ write ∈ rest, ∀ db, write.Touches acc.id db)
    (hstatuses : ∀ id status, .sql (.setStatus id status) ∈ rest →
      id = acc.id ∧ action.Writes db acc status) :
    action.Confined db acc (ctx.closeAll db acc reason ++ rest) := by
  rw [closeAll, List.map_append, List.append_assoc]
  refine confined_forceClose (fun write hwrite db => ?_) fun id status hmem => ?_
  · rcases List.mem_append.mp hwrite with hwrite | hwrite
    · obtain ⟨stmt, hstmt, rfl⟩ := List.mem_map.mp hwrite
      rw [cancelPendingTradesForAccount, List.mem_singleton] at hstmt
      exact hstmt ▸ trivial
    · exact hrest write hwrite db
  · refine hstatuses id status ((List.mem_append.mp hmem).resolve_left fun hcancel => ?_)
    simp [cancelPendingTradesForAccount] at hcancel

theorem confined_quiet (hquiet : ∀ write ∈ writes, ∀ db, write.Touches acc.id db)
    (hnone : ∀ id status, .sql (.setStatus id status) ∉ writes) : action.Confined db acc writes :=
  ⟨.of_forall hquiet, fun id status hmem => absurd hmem (hnone id status)⟩

theorem confined_setStatus {status : AccountStatus} (hwrites : action.Writes db acc status) :
    action.Confined db acc [setStatus acc status] := by
  refine ⟨⟨rfl, fun _ _ => trivial⟩, fun id status' hmem => ?_⟩
  rw [List.mem_singleton, setStatus] at hmem
  cases hmem
  exact ⟨rfl, hwrites⟩

theorem confined_closeAll_setStatus {reason : String} {status : AccountStatus}
    (hwrites : action.Writes db acc status) :
    action.Confined db acc (ctx.closeAll db acc reason ++ [setStatus acc status]) := by
  refine confined_closeAll (fun write hwrite db => ?_) (confined_setStatus hwrites).statuses
  rw [List.mem_singleton] at hwrite
  exact hwrite ▸ rfl

theorem confined_reset {reason : String} (hstatus : acc.status ∈ [.failed, .locked, .expired]) :
    action.Confined db acc (ctx.closeAll db acc reason ++
      [.resetToStarting acc.id, setStatus acc .active, .setPhaseEnd acc.id ctx.phaseEndDate]) := by
  refine confined_closeAll (fun write hwrite db => ?_) fun id status hmem => ?_
  · simp only [List.mem_cons, List.not_mem_nil, or_false] at hwrite
    rcases hwrite with rfl | rfl | rfl <;> exact rfl
  · simp only [setStatus, List.mem_cons, List.not_mem_nil, reduceCtorEq, or_false, false_or,
      AdminWrite.sql.injEq, Stmt.setStatus.injEq] at hmem
    obtain ⟨rfl, rfl⟩ := hmem
    exact ⟨rfl, .restore hstatus⟩

theorem insertNext_touches {write : AdminWrite} (hwrite : write ∈ ctx.insertNext) (db : Db) :
    write.Touches acc.id db := by
  obtain ⟨next, _, rfl⟩ := List.mem_map.mp hwrite
  exact trivial

theorem setStatus_not_mem_insertNext {id : Nat} {status : AccountStatus} :
    .sql (.setStatus id status) ∉ ctx.insertNext := by
  simp [insertNext]

theorem confined_replace {reason : String} :
    action.Confined db acc (ctx.closeAll db acc reason ++ ctx.insertNext) :=
  confined_closeAll (fun _ hwrite db => insertNext_touches hwrite db)
    fun _ _ hmem => absurd hmem setStatus_not_mem_insertNext

theorem confined_pass (haction : action = .pass ∨ action = .promote)
    (hpath : hasPromotionPath db acc = true) {reason : String} :
    action.Confined db acc (ctx.closeAll db acc reason ++ setStatus acc .passed :: ctx.insertNext) := by
  refine confined_closeAll (fun write hwrite db => ?_) fun id status hmem => ?_
  · rcases List.mem_cons.mp hwrite with rfl | hwrite
    · exact rfl
    · exact insertNext_touches hwrite db
  · rcases List.mem_cons.mp hmem with heq | hmem
    · cases heq
      exact ⟨rfl, .pass haction hpath⟩
    · exact absurd hmem setStatus_not_mem_insertNext

theorem confined_extend {days now : Nat} : action.Confined db acc [.extendPhase acc.id days now] := by
  refine confined_quiet (fun write hwrite db => ?_) fun id status hmem => ?_
  · rw [List.mem_singleton] at hwrite
    exact hwrite ▸ rfl
  · simp at hmem

theorem confined_forceCloseOnly : action.Confined db acc
    ((forceCloseOpenTradesForAccount db acc.id ctx.prices ctx.now).map .sql) := by
  have h : action.Confined db acc
      ((forceCloseOpenTradesForAccount db acc.id ctx.prices ctx.now).map .sql ++ []) :=
    confined_forceClose (fun _ h => absurd h List.not_mem_nil) fun _ _ h => absurd h List.not_mem_nil
  rwa [List.append_nil] at h

theorem mem_of_mem_failed_locked (hstatus : ¬ acc.status ∉ [.failed, .locked]) :
    acc.status ∈ [.failed, .locked, .expired] := by
  simp only [List.mem_cons, List.not_mem_nil, or_false, not_not] at hstatus ⊢
  exact hstatus.imp_right .inl

theorem override_confined (ctx : AdminContext) (hoverride : ctx.override db acc action = .ok writes) :
    action.Confined db acc writes := by
  cases action with
  | pass | promote =>
    simp only [override] at hoverride
    split at hoverride
    · cases hoverride
    · rename_i hpath
      split_ifs at hoverride
      cases hoverride
      exact confined_pass (by simp) (not_not.mp hpath)
  | fail =>
    cases hoverride
    exact confined_closeAll_setStatus .fail
  | extend14Days | extendDays =>
    simp only [override] at hoverride
    split at hoverride
    · cases hoverride
    · split at hoverride
      · cases hoverride
      · cases hoverride
        exact confined_extend
  | revokeFunded =>
    simp only [override] at hoverride
    split at hoverride
    · cases hoverride
    · rename_i hfunded
      cases hoverride
      exact confined_closeAll_setStatus (.revokeFunded (not_not.mp hfunded))
  | forceCloseOpenTrades =>
    cases hoverride
    exact confined_forceCloseOnly
  | restoreActive =>
    simp only [override] at hoverride
    split at hoverride
    · cases hoverride
    · rename_i hstatus
      cases hoverride
      exact confined_setStatus (.restore (mem_of_mem_failed_locked hstatus))
  | restoreWithReset =>
    simp only [override] at hoverride
    split at hoverride
    · cases hoverride
    · split at hoverride
      · cases hoverride
      · rename_i hstatus
        cases hoverride
        exact confined_reset (not_not.mp hstatus)
  | replaceAccount =>
    simp only [override] at hoverride
    split at hoverride
    · cases hoverride
    · cases hoverride
      exact confined_replace
  | lockAccount =>
    cases hoverride
    exact confined_setStatus .lock
  | clearReviewFlag =>
    cases hoverride
    exact confined_quiet (fun _ h => absurd h List.not_mem_nil) fun _ _ => List.not_mem_nil
  | other name => cases hoverride

theorem bulkAction_confined (hbulk : ctx.bulkAction db acc action = .ok writes) :
    action.Confined db acc writes := by
  cases action with
  | pass | promote | fail | extend14Days | other => cases hbulk
  | restoreActive | lockAccount | clearReviewFlag | forceCloseOpenTrades =>
    exact override_confined ctx hbulk
  | restoreWithReset =>
    simp only [bulkAction] at hbulk
    split at hbulk
    · cases hbulk
    · split at hbulk
      · cases hbulk
      · rename_i hstatus
        cases hbulk
        exact confined_reset (not_not.mp hstatus)
  | replaceAccount =>
    simp only [bulkAction] at hbulk
    split at hbulk
    · cases hbulk
    · cases hbulk
      exact confined_replace
  | extendDays =>
    simp only [bulkAction] at hbulk
    split at hbulk
    · cases hbulk
    · cases hbulk
      exact confined_extend
  | revokeFunded =>
    simp only [bulkAction] at hbulk
    split at hbulk
    · cases hbulk
    · rename_i hfunded
      cases hbulk
      exact confined_closeAll_setStatus (.revokeFunded (not_not.mp hfunded))

end AdminContext

/-! ### The writers that check no status -/

/-- What a lock and a revoked funding may find. -/
def lockable : List AccountStatus := [.active, .passed, .failed, .locked]

/-- What a manual breach and a disqualification may find. -/
def failable : List AccountStatus := [.active, .locked, .failed]

/-- What the withdrawal of a bot may find. -/
def withdrawable : List AccountStatus := [.active, .passed, .failed, .locked, .expired, .cancelled]

def AdminAction.Fits (db : Db) (acc : Account) : AdminAction → Prop
  | .pass | .promote => hasPromotionPath db acc = true → acc.status ∈ [.active, .passed]
  | .fail => acc.status ∈ failable
  | .revokeFunded => acc.accountType = .funded → acc.status ∈ lockable
  | .lockAccount => acc.status ∈ lockable
  | _ => True

def EntryRequestKind.finds : EntryRequestKind → List AccountStatus
  | disqualify => failable
  | withdrawBot => withdrawable

/-- A writer that checks no status finds one that leads where it goes. -/
def Platform.Fits (p : Platform) : PlatformAction → Prop
  | .trading (.lockAccount accountId) =>
    ∀ acc, p.world.db.account? accountId = some acc → acc.status ∈ lockable
  | .override accountId action _ | .bulkAction accountId action _ =>
    ∀ acc, p.world.db.account? accountId = some acc → action.Fits p.world.db acc
  | .finishRequest index =>
    ∀ request, p.requests[index]? = some request → ∀ accountId, request.entry.accountId = some accountId →
      ∀ acc, p.world.db.account? accountId = some acc → acc.status ∈ request.kind.finds
  | _ => True

theorem movesTo_locked {status : AccountStatus} (hfinds : status ∈ lockable) :
    status.MovesTo .locked := by
  revert hfinds
  cases status <;> decide

theorem movesTo_failed {status : AccountStatus} (hfinds : status ∈ failable) :
    status.MovesTo .failed := by
  revert hfinds
  cases status <;> decide

theorem EntryRequestKind.movesTo {kind : EntryRequestKind} {status : AccountStatus}
    (hfinds : status ∈ kind.finds) : status.MovesTo kind.accountStatus := by
  revert hfinds
  cases kind <;> cases status <;> decide

theorem AdminAction.Writes.movesTo {db : Db} {acc : Account} {action : AdminAction}
    {status : AccountStatus} (hwrites : action.Writes db acc status) (hfits : action.Fits db acc) :
    acc.status.MovesTo status := by
  cases hwrites with
  | pass haction hpath =>
    have hfinds : acc.status ∈ [AccountStatus.active, .passed] := by
      rcases haction with rfl | rfl <;> exact hfits hpath
    revert hfinds
    cases acc.status <;> decide
  | fail => exact movesTo_failed hfits
  | revokeFunded hfunded => exact movesTo_locked (hfits hfunded)
  | lock => exact movesTo_locked hfits
  | restore hstatus =>
    revert hstatus
    cases acc.status <;> decide

/-! ### Every run -/

/-- Every account of `db` is still there in `db'`, its status kept or moved along the table. -/
def StatusesMove (db db' : Db) : Prop :=
  ∀ id acc, db.account? id = some acc →
    ∃ acc', db'.account? id = some acc' ∧ acc.status.MovesTo acc'.status

theorem StatusesMove.refl (db : Db) : StatusesMove db db := fun _ acc hacc => ⟨acc, hacc, .inl rfl⟩

theorem movesTo_of_written {current target : AccountStatus} {written : Prop}
    (hstatus : target = current ∨ written) (hlegal : written → current.MovesTo target) :
    current.MovesTo target :=
  hstatus.elim .inl hlegal

namespace World

theorem Writes.setsStatus {w : World} {a : Action} {stmts : List Stmt} (hwrites : w.Writes a stmts)
    {id : Nat} {status : AccountStatus} (hmem : .setStatus id status ∈ stmts) :
    (a = .lockAccount id ∧ status = .locked) ∨ (status = .active ∧
      ∃ acc, w.db.account? id = some acc ∧ (acc.status = .failed ∨ acc.status = .locked)) := by
  cases hwrites with
  | provision | cancelStale | cancelPending | adjust =>
    rw [List.mem_singleton] at hmem
    cases hmem
  | lock =>
    rw [List.mem_singleton] at hmem
    cases hmem
    exact .inl ⟨rfl, rfl⟩
  | restore _ hacc hstatus =>
    rw [List.mem_singleton] at hmem
    cases hmem
    exact .inr ⟨rfl, _, hacc, hstatus⟩
  | order =>
    obtain ⟨_, _, heq⟩ := List.mem_map.mp hmem
    cases heq
  | fill _ _ _ hsiblings =>
    rcases List.mem_cons.mp hmem with heq | hmem
    · cases heq
    · obtain ⟨_, _, heq, _⟩ := hsiblings _ hmem
      cases heq
  | defer hdefer =>
    obtain ⟨_, _, _, heq⟩ := hdefer _ hmem
    cases heq
  | close =>
    rcases List.mem_cons.mp hmem with heq | hmem
    · cases heq
    · obtain ⟨_, _, heq⟩ := List.mem_map.mp hmem
      cases heq
  | split => simp at hmem

end World

theorem Settling.setsStatus {s : Settling} {fx : FxSource} {stmts : List Stmt}
    (hstmts : s.statements fx = some stmts) {id : Nat} {status : AccountStatus}
    (hmem : .setStatus id status ∈ stmts) : id = s.account.id ∧ status = s.kind.status := by
  rcases statements_eq_some hstmts with ⟨hkind, rfl⟩ | ⟨_, closings, _, rfl⟩
  · rw [List.mem_singleton] at hmem
    cases hmem
    exact ⟨rfl, by rw [hkind]; rfl⟩
  · simp only [credit, List.mem_append, List.mem_cons, List.mem_map, List.not_mem_nil, reduceCtorEq,
      and_false, exists_false, false_or, or_false, Stmt.setStatus.injEq] at hmem
    rcases hmem with hmem | hmem
    · split at hmem <;> simp at hmem
    · exact hmem

theorem SettleKind.movesTo (kind : SettleKind) : AccountStatus.active.MovesTo kind.status :=
  .inr (by cases kind <;> simp [status, legalTransitions])

namespace World

theorem step_statusesMove {w w' : World} {a : Action} (hvalid : w.Valid)
    (hlock : ∀ id, a = .lockAccount id → ∀ acc, w.db.account? id = some acc → acc.status ∈ lockable)
    (hstep : w.step a = some w') : StatusesMove w.db w'.db := by
  cases step_steps hvalid hstep with
  | transact _ hwrites hexec =>
    intro id acc hacc
    obtain ⟨acc', hacc', hstatus⟩ := execAll_status hexec hacc
    refine ⟨acc', hacc', movesTo_of_written hstatus fun hmem => ?_⟩
    rcases hwrites.setsStatus hmem with ⟨haction, htarget⟩ | ⟨htarget, row, hrow, hfound⟩
    · rw [htarget]
      exact movesTo_locked (hlock id haction acc hacc)
    · rw [hacc] at hrow
      obtain rfl := Option.some.inj hrow
      rw [htarget]
      rcases hfound with h | h <;> rw [h] <;> decide
  | commit hs hstmts hexec =>
    intro id acc hacc
    obtain ⟨acc', hacc', hstatus⟩ := execAll_status hexec hacc
    refine ⟨acc', hacc', movesTo_of_written hstatus fun hmem => ?_⟩
    obtain ⟨rfl, htarget⟩ := Settling.setsStatus hstmts hmem
    have hheld := hvalid.settling _ hs
    rw [hheld.account] at hacc
    rw [← Option.some.inj hacc, hheld.active, htarget]
    exact SettleKind.movesTo _
  | begin | abort | tick => exact .refl _

/-- A transaction on one locked account, confined to its rows and to statuses it may move to. -/
theorem administer_spec {w w' : World} {accountId : Nat}
    {writesFor : Account → Except String (List AdminWrite)} (hvalid : w.Valid)
    (hconfined : ∀ acc writes, w.db.account? accountId = some acc → writesFor acc = .ok writes →
      TouchesAll acc.id w.db writes ∧ ∀ id status, .sql (.setStatus id status) ∈ writes →
        id = acc.id ∧ acc.status.MovesTo status)
    (hadminister : w.administer accountId writesFor = some w') :
    w'.Valid ∧ StatusesMove w.db w'.db := by
  simp only [administer, Option.bind_eq_bind, Option.bind_eq_some_iff, Option.guard_eq_some',
    exists_const, Option.some.injEq] at hadminister
  obtain ⟨hfree, acc, hacc, writes, hwrites, db, hcommit, rfl⟩ := hadminister
  have hok : writesFor acc = .ok writes := by
    cases hfor : writesFor acc with
    | error message =>
      rw [hfor] at hwrites
      cases hwrites
    | ok writes' =>
      rw [hfor] at hwrites
      cases hwrites
      rfl
  obtain ⟨htouches, hstatuses⟩ := hconfined acc writes hacc hok
  have hid : acc.id = accountId := Db.account?_id hacc
  refine ⟨((Permits.refl hvalid).commitAdmin htouches (hid ▸ hfree) hcommit).advance_valid hvalid, ?_⟩
  intro id old hold
  obtain ⟨new, hnew, hstatus⟩ := commitAdmin_status hcommit hold
  refine ⟨new, hnew, movesTo_of_written hstatus fun hmem => ?_⟩
  obtain ⟨hsame, hmoves⟩ := hstatuses id new.status hmem
  rw [hsame, hid, hacc] at hold
  exact Option.some.inj hold ▸ hmoves

theorem cancelActive_spec {w w' : World} {accountIds : List Nat} (hvalid : w.Valid)
    (hcancel : w.cancelActive accountIds = some w') : w'.Valid ∧ StatusesMove w.db w'.db := by
  simp only [cancelActive, Option.bind_eq_bind, Option.bind_eq_some_iff, Option.guard_eq_some',
    exists_const, Option.some.injEq] at hcancel
  obtain ⟨hfree, rfl⟩ := hcancel
  have hfind : ∀ id acc, w.db.account? id = some acc →
      (w.db.accounts.update (fun acc => decide (acc.id ∈ accountIds ∧ acc.status = .active))
        (Account.withStatus .cancelled)).find? id
        = some (if acc.id ∈ accountIds ∧ acc.status = .active then
            (Account.withStatus .cancelled).apply acc else acc) := by
    intro id acc hacc
    rw [Db.account?] at hacc
    rw [Table.find?_update, hacc, Option.map_some]
    simp only [decide_eq_true_eq]
  have hrewrites : w.db.RewritesAccounts (· ∈ accountIds)
      { w.db with
        accounts := w.db.accounts.update
          (fun acc => decide (acc.id ∈ accountIds ∧ acc.status = .active))
          (Account.withStatus .cancelled) } := by
    refine ⟨rfl, fun id acc hother hacc => ?_⟩
    have h := hfind id acc hacc
    rwa [if_neg fun hcond => hother (Db.account?_id hacc ▸ hcond.1)] at h
  refine ⟨((Permits.refl hvalid).rewritesAccounts hrewrites hfree).advance_valid hvalid, ?_⟩
  intro id acc hacc
  refine ⟨_, hfind id acc hacc, ?_⟩
  split
  · rename_i hcond
    rw [hcond.2]
    exact .inr (by simp [Account.withStatus, legalTransitions])
  · exact .inl rfl

end World

namespace Platform

theorem step_spec {p p' : Platform} {a : PlatformAction} (hvalid : p.world.Valid) (hfits : p.Fits a)
    (hstep : p.step a = some p') : p'.world.Valid ∧ StatusesMove p.world.db p'.world.db := by
  cases a with
  | trading action =>
    obtain ⟨world, hworld, rfl⟩ := Option.map_eq_some_iff.mp hstep
    refine ⟨World.step_valid hvalid hworld, World.step_statusesMove hvalid (fun id haction => ?_) hworld⟩
    subst haction
    exact hfits
  | override accountId action ctx =>
    obtain ⟨world, hworld, rfl⟩ := Option.map_eq_some_iff.mp hstep
    refine World.administer_spec hvalid (fun acc writes hacc hok => ?_) hworld
    have hconfined := AdminContext.override_confined _ hok
    refine ⟨hconfined.touches, fun id status hmem => ?_⟩
    obtain ⟨hid, hwrites⟩ := hconfined.statuses id status hmem
    exact ⟨hid, hwrites.movesTo (hfits acc hacc)⟩
  | bulkAction accountId action ctx =>
    obtain ⟨world, hworld, rfl⟩ := Option.map_eq_some_iff.mp hstep
    refine World.administer_spec hvalid (fun acc writes hacc hok => ?_) hworld
    have hconfined := AdminContext.bulkAction_confined hok
    refine ⟨hconfined.touches, fun id status hmem => ?_⟩
    obtain ⟨hid, hwrites⟩ := hconfined.statuses id status hmem
    exact ⟨hid, hwrites.movesTo (hfits acc hacc)⟩
  | violationLock accountId | freezeAccountsForOrder accountId =>
    obtain ⟨world, hworld, rfl⟩ := Option.map_eq_some_iff.mp hstep
    refine World.administer_spec hvalid (fun acc writes hacc hok => ?_) hworld
    cases hok
    split
    · rename_i hactive
      refine ⟨⟨rfl, fun _ _ => trivial⟩, fun id status hmem => ?_⟩
      rw [List.mem_singleton, AdminContext.setStatus] at hmem
      cases hmem
      exact ⟨rfl, hactive ▸ by decide⟩
    · exact ⟨trivial, fun _ _ hmem => absurd hmem List.not_mem_nil⟩
  | enterCompetition entry =>
    obtain ⟨entries, _, rfl⟩ := Option.map_eq_some_iff.mp hstep
    exact ⟨hvalid, .refl _⟩
  | cancelCompetition competitionId =>
    obtain ⟨world, hworld, rfl⟩ := Option.map_eq_some_iff.mp hstep
    exact World.cancelActive_spec hvalid hworld
  | requestEntry kind entryId =>
    simp only [step, Option.bind_eq_bind, Option.bind_eq_some_iff, Option.some.injEq] at hstep
    obtain ⟨entry, _, request, _, rfl⟩ := hstep
    exact ⟨hvalid, .refl _⟩
  | finishRequest index =>
    simp only [step, Option.bind_eq_bind, Option.bind_eq_some_iff, Option.some.injEq] at hstep
    obtain ⟨request, hrequest, world, hfinish, rfl⟩ := hstep
    cases haccount : request.entry.accountId with
    | none =>
      simp only [finish, haccount] at hfinish
      cases hfinish
      exact ⟨hvalid, .refl _⟩
    | some accountId =>
      simp only [finish, haccount] at hfinish
      refine World.administer_spec hvalid (fun acc writes hacc hok => ?_) hfinish
      cases hok
      refine ⟨⟨rfl, fun _ _ => trivial⟩, fun id status hmem => ?_⟩
      rw [List.mem_singleton, AdminContext.setStatus] at hmem
      cases hmem
      exact ⟨rfl, EntryRequestKind.movesTo (hfits request hrequest accountId haccount acc hacc)⟩

abbrev Reached (models : Table StepModel) (ok : Platform → PlatformAction → Prop) : Platform → Prop :=
  Reach step ok (· = Platform.initial models)

theorem Reached.valid {models : Table StepModel} {p : Platform} (hreach : Reached models Fits p) :
    p.world.Valid :=
  Reach.invariant (by rintro _ rfl; exact World.initial_valid models)
    (fun _ _ _ hvalid hfits hstep => (step_spec hvalid hfits hstep).1) hreach

/-- In every run whose unchecked writes find a status they may leave, each transaction moves every
account along the table or leaves it where it is. -/
theorem reached_statusesMove {models : Table StepModel} {p p' : Platform} {a : PlatformAction}
    (hreach : Reached models Fits p) (hfits : p.Fits a) (hstep : p.step a = some p') :
    StatusesMove p.world.db p'.world.db :=
  (step_spec hreach.valid hfits hstep).2

/-- An admin request with prices for nothing, seven days and no account to follow. -/
def quietContext : AdminContext := ⟨fun _ => none, some 7, none, none, 0⟩

/-- A competition ends for its account. -/
def competitionEnded : List PlatformAction :=
  [.trading (.provision { sampleTerms with accountType := .competition } 1),
    .trading (.beginSettle .closeAndFreezeAccount 1 fun _ => none),
    .trading (.commitSettle 1 noConversion)]

def statusOf (p : Platform) (id : Nat) : Option AccountStatus :=
  (p.world.db.account? id).map Account.status

theorem reached_statusesMove_locked : ∃ p p', run step (Platform.initial Table.empty)
      [.trading (.provision sampleTerms 1)] = some p ∧
    p.step (.override 1 .lockAccount quietContext) = some p' ∧ p'.statusOf 1 = some .locked ∧
      StatusesMove p.world.db p'.world.db := by
  obtain ⟨p, hrun, htest⟩ := exists_of_run_any step (Platform.initial Table.empty)
    [.trading (.provision sampleTerms 1)]
    (fun p => p.statusOf 1 = some .active ∧
      (p.step (.override 1 .lockAccount quietContext)).any fun p' => p'.statusOf 1 = some .locked)
    (by decide +kernel)
  obtain ⟨hactive, htest⟩ := of_decide_eq_true htest
  obtain ⟨p', hstep, hlocked⟩ := (Option.any_eq_true _ _).mp htest
  have hok : RunOk step Fits (Platform.initial Table.empty) [.trading (.provision sampleTerms 1)] :=
    ⟨trivial, fun _ _ => trivial⟩
  have hreach : Reached Table.empty Fits p := .of_run (.init rfl) hok hrun
  refine ⟨p, p', hrun, hstep, of_decide_eq_true hlocked, reached_statusesMove hreach ?_ hstep⟩
  intro acc hacc
  rw [statusOf, hacc, Option.map_some, Option.some.injEq] at hactive
  simp [AdminAction.Fits, hactive, lockable]

/-- The lock of a closed account leads out of a status nothing leads out of. -/
theorem lock_reopens_closed : ∃ p p', run step (Platform.initial Table.empty) competitionEnded = some p ∧
    p.step (.override 1 .lockAccount quietContext) = some p' ∧ p.statusOf 1 = some .closed ∧
      p'.statusOf 1 = some .locked ∧ ¬ StatusesMove p.world.db p'.world.db := by
  obtain ⟨p, hrun, htest⟩ := exists_of_run_any step (Platform.initial Table.empty) competitionEnded
    (fun p => p.statusOf 1 = some .closed ∧
      (p.step (.override 1 .lockAccount quietContext)).any fun p' => p'.statusOf 1 = some .locked)
    (by decide +kernel)
  obtain ⟨hclosed, htest⟩ := of_decide_eq_true htest
  obtain ⟨p', hstep, hlocked⟩ := (Option.any_eq_true _ _).mp htest
  have hlocked := of_decide_eq_true hlocked
  refine ⟨p, p', hrun, hstep, hclosed, hlocked, fun hmove => ?_⟩
  obtain ⟨acc, hacc, hstatus⟩ := Option.map_eq_some_iff.mp hclosed
  obtain ⟨acc', hacc', hmoves⟩ := hmove 1 acc hacc
  rw [statusOf, hacc', Option.map_some, Option.some.injEq] at hlocked
  rw [hstatus, AccountStatus.closed_terminal, hlocked] at hmoves
  cases hmoves

end Platform

end PropFirm
