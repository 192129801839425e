import PropFirm.Settlement

/-!
# The admin's account actions

`POST /accounts/:accountId/override` and the account branch of the command centre's bulk action. Both
lock the account row, check what the action checks, and write; a refusal carries the text the admin
is shown and rolls everything back. Apart from the statements every transaction is made of, a reset
restarts the drawdown frame and an extension moves the end of the phase.
-/

namespace PropFirm

/-! ### Promotion paths -/

/-- `LEGACY_LADDER`, for accounts whose step model is not to be found. -/
def legacyLadder : AccountType → Option AccountType
  | .phase1 => some .phase2
  | .phase2 | .phase3 => some .funded
  | .funded | .competition => none

/-- `hasPromotionPath`: a model leads every account but a funded one somewhere. -/
def hasPromotionPath (db : Db) (acc : Account) : Bool :=
  match acc.challengeModelSlug.bind db.fetchStepModelBySlug with
  | some _ => acc.accountType ≠ .funded
  | none => (legacyLadder acc.accountType).isSome

/-! ### Closing what the account holds -/

/-- One position of `forceCloseOpenTradesForAccount`. -/
def forceCloseClosing (livePrice : Option Quote) (trade : Trade) : Closing :=
  let openPrice := trade.openPrice.getD 0
  let currentPrice := livePriceOr livePrice trade.direction openPrice
  { trade := trade
    closePrice := some currentPrice
    pnl :=
      calcTradePnl trade.direction openPrice currentPrice trade.lotSize trade.instrument
        - trade.commission
    reason := "Admin Auto Enforcement"
    priced := none }

def forceCloseOpenTradesForAccount (db : Db) (accountId : Nat) (prices : Instrument → Option Quote)
    (now : Nat) : List Stmt :=
  let openTrades := db.tradesOf accountId .opened
  let closings := openTrades.map fun t => forceCloseClosing (prices t.instrument) t
  if openTrades = [] then []
  else [.closeTrades closings now false, .creditAccount accountId (Settling.totalPnl closings)]

def cancelPendingTradesForAccount (accountId : Nat) (closeReason : String) (now : Nat) : List Stmt :=
  [.cancelTrades (fun t => t.accountId = accountId ∧ t.status = .pending) closeReason now]

/-! ### What an action writes -/

/-- `rebaseAnchors` with the peak: the drawdown frame restarts at the starting balance. -/
def Account.rebased : Table.Rewrite Account where
  apply a :=
    { a with
      peakBalance := a.startingBalance
      eodPeakEquity := some a.startingBalance
      eodTrailingFloor := none }
  key_apply _ := rfl

def Account.phaseEnding (phaseEndDate : Option Nat) : Table.Rewrite Account where
  apply a := { a with phaseEndDate := phaseEndDate }
  key_apply _ := rfl

/-- The later of now and the phase's end, moved by whole days. -/
def Account.phaseExtended (days now : Nat) : Table.Rewrite Account where
  apply a := { a with phaseEndDate := some (max (a.phaseEndDate.getD now) now + days * 86400) }
  key_apply _ := rfl

inductive AdminWrite
  | sql (stmt : Stmt)
  | resetToStarting (id : Nat)
  | setPhaseEnd (id : Nat) (phaseEndDate : Option Nat)
  | extendPhase (id days now : Nat)

/-- The part of `resetToStarting` that goes through the ledger, which takes no zero amount. -/
def bookReset (db : Db) (id : Nat) (delta : Cents) : Option Db :=
  if delta = 0 then some db else Stmt.exec db (.adjustBalance id delta.dollars false)

def AdminWrite.exec (db : Db) : AdminWrite → Option Db
  | sql stmt => stmt.exec db
  | resetToStarting id => do
    let live ← db.account? id
    let adjusted ← bookReset db id (live.startingBalance - live.currentBalance)
    some { adjusted with accounts := adjusted.accounts.updateAt id Account.rebased }
  | setPhaseEnd id phaseEndDate =>
    some { db with accounts := db.accounts.updateAt id (Account.phaseEnding phaseEndDate) }
  | extendPhase id days now =>
    some { db with accounts := db.accounts.updateAt id (Account.phaseExtended days now) }

def commitAdmin (db : Db) (writes : List AdminWrite) : Option Db :=
  Transition.run (fun db write => write.exec db) db writes

/-! ### The actions -/

inductive AdminAction
  | pass | promote | fail | extend14Days | extendDays | revokeFunded | forceCloseOpenTrades
  | restoreActive | restoreWithReset | replaceAccount | lockAccount | clearReviewFlag
  | other (name : String)
  deriving DecidableEq

def AdminAction.name : AdminAction → String
  | pass => "pass"
  | promote => "promote"
  | fail => "fail"
  | extend14Days => "extend_14_days"
  | extendDays => "extend_days"
  | revokeFunded => "revoke_funded"
  | forceCloseOpenTrades => "force_close_open_trades"
  | restoreActive => "restore_active"
  | restoreWithReset => "restore_with_reset"
  | replaceAccount => "replace_account"
  | lockAccount => "lock_account"
  | clearReviewFlag => "clear_review_flag"
  | other name => name

/-- What an action reads beside the account: the prices of its force closes, the parsed number of
days, the end date of a restarted phase, and the account that follows a passed or a replaced one,
absent where no promotion plan exists. -/
structure AdminContext where
  prices : Instrument → Option Quote
  days : Option Nat
  phaseEndDate : Option Nat
  next : Option (AccountTerms × Nat)
  now : Nat

namespace AdminContext

variable (ctx : AdminContext) (db : Db) (acc : Account)

/-- Force-close the open trades and cancel the pending orders. -/
def closeAll (closeReason : String) : List AdminWrite :=
  (forceCloseOpenTradesForAccount db acc.id ctx.prices ctx.now ++
    cancelPendingTradesForAccount acc.id closeReason ctx.now).map .sql

/-- `parsePositiveInteger` of the request's days, between 1 and 365. -/
def parsedDays (fallback : Option Nat) : Option Nat :=
  (ctx.days.filter fun days => 1 ≤ days ∧ days ≤ 365).or fallback

def setStatus (status : AccountStatus) : AdminWrite := .sql (.setStatus acc.id status)

def insertNext : List AdminWrite :=
  ctx.next.toList.map fun next => .sql (.insertAccount (next.1.provision next.2))

/-- The account branch of the override route. -/
def override (action : AdminAction) : Except String (List AdminWrite) :=
  match action with
  | .pass | .promote =>
    if ¬ hasPromotionPath db acc then .error "Only challenge accounts can be promoted"
    else if acc.status = .passed then .error "This account is already marked as passed"
    else if ctx.next = none then .error "No promotion path exists for this account"
    else .ok (ctx.closeAll db acc "Admin Manual Promotion" ++ setStatus acc .passed :: ctx.insertNext)
  | .fail => .ok (ctx.closeAll db acc "Admin Manual Breach" ++ [setStatus acc .failed])
  | .extend14Days | .extendDays =>
    if acc.accountType ∉ [.phase1, .phase2, .phase3] then
      .error "Only challenge accounts can be extended"
    else
      match ctx.parsedDays (if action = .extend14Days then some 14 else none) with
      | none => .error "A valid extension day count is required"
      | some days => .ok [.extendPhase acc.id days ctx.now]
  | .revokeFunded =>
    if acc.accountType ≠ .funded then .error "Only funded accounts can be revoked"
    else .ok (ctx.closeAll db acc "Funding Revoked by Admin" ++ [setStatus acc .locked])
  | .forceCloseOpenTrades =>
    .ok ((forceCloseOpenTradesForAccount db acc.id ctx.prices ctx.now).map .sql)
  | .restoreActive =>
    if acc.status ∉ [.failed, .locked] then
      .error "Only failed or locked accounts can be restored to active"
    else .ok [setStatus acc .active]
  | .restoreWithReset =>
    if acc.accountType ∉ [.phase1, .phase2] then
      .error "Only phase1 and phase2 accounts can be reset and restored"
    else if acc.status ∉ [.failed, .locked, .expired] then
      .error "Only failed, locked, or expired accounts can be reset and restored"
    else
      .ok (ctx.closeAll db acc "Admin Restore With Reset" ++
        [.resetToStarting acc.id, setStatus acc .active, .setPhaseEnd acc.id ctx.phaseEndDate])
  | .replaceAccount =>
    if acc.status ∈ [.active, .passed] then
      .error "Only closed, breached, expired, or locked accounts can be replaced"
    else .ok (ctx.closeAll db acc "Admin Replace Account" ++ ctx.insertNext)
  | .lockAccount => .ok [setStatus acc .locked]
  | .clearReviewFlag => .ok []
  | .other name => .error ("Unsupported action: " ++ name)

/-- The account branch of `POST /command-center/bulk-action`, for one id. -/
def bulkAction (action : AdminAction) : Except String (List AdminWrite) :=
  match action with
  | .restoreActive =>
    if acc.status ∉ [.failed, .locked] then
      .error "Only failed or locked accounts can be restored to active"
    else .ok [setStatus acc .active]
  | .restoreWithReset =>
    if acc.accountType ∉ [.phase1, .phase2] then
      .error "Only phase1 and phase2 accounts can be reset and restored"
    else if acc.status ∉ [.failed, .locked, .expired] then
      .error "Only failed, locked, or expired accounts can be reset and restored"
    else
      .ok (ctx.closeAll db acc "Bulk Restore With Reset" ++
        [.resetToStarting acc.id, setStatus acc .active, .setPhaseEnd acc.id ctx.phaseEndDate])
  | .replaceAccount =>
    if acc.status ∈ [.active, .passed] then .error "Only non-active accounts can be replaced"
    else .ok (ctx.closeAll db acc "Bulk Replace Account" ++ ctx.insertNext)
  | .lockAccount => .ok [setStatus acc .locked]
  | .clearReviewFlag => .ok []
  | .extendDays =>
    match ctx.parsedDays none with
    | none => .error "options.days must be provided for extend_days"
    | some days => .ok [.extendPhase acc.id days ctx.now]
  | .forceCloseOpenTrades =>
    .ok ((forceCloseOpenTradesForAccount db acc.id ctx.prices ctx.now).map .sql)
  | .revokeFunded =>
    if acc.accountType ≠ .funded then .error "Only funded accounts can be revoked"
    else .ok (ctx.closeAll db acc "Funding Revoked by Admin (Bulk)" ++ [setStatus acc .locked])
  | action => .error ("Unsupported bulk account action: " ++ action.name)

end AdminContext

end PropFirm
