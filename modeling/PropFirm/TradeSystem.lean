import PropFirm.Verdicts
import PropFirm.Lib.Transition

/-!
# The interleaved transactions of the trading platform

A `World` is the committed database, every state it went through (an unlocked read may have seen any
of them), the terminal transactions in flight, and the clock. An `Action` is one transaction
committing, or one of the two halves of a terminal transaction. Transactions are serialised by the
row locks they take and by nothing else: whoever has to write an account row waits for the terminal
transaction that holds it, and whoever has to write a position waits for one that locked it, while a
pending fill, which locks its own order only, commits at any time.
-/

namespace PropFirm

structure World where
  db : Db
  history : List Db
  settling : List Settling
  clock : Nat

def World.initial (models : Table StepModel) : World :=
  ⟨Db.initial models, [Db.initial models], [], 0⟩

def World.accountFree (w : World) (accountId : Nat) : Bool :=
  w.settling.all fun s => s.account.id ≠ accountId

def World.tradeFree (w : World) (tradeId : Nat) : Bool :=
  w.settling.all fun s => s.kind.locksTrades → ∀ t ∈ s.trades, t.id ≠ tradeId

def World.lockedRows (w : World) : List Nat :=
  (w.settling.filter fun s => s.kind.locksTrades).flatMap fun s => s.trades.map Trade.id

/-- A transaction that commits in one step, or one half of a terminal transaction. `asOf` counts
committed states back from the current one and names the state an unlocked read saw. The three paths
that pass accounts each begin the pass by an action of their own, which carries what they have read;
`beginSettle` begins the other terminal transactions, whatever made their callers ask for them. -/
inductive Action
  | provision (terms : AccountTerms) (id : Nat)
  | openTrade (req : OrderRequest) (id : Nat) (openPrice : ℚ)
  | placePendingOrder (req : OrderRequest) (leg : PendingLeg) (sibling : Option (PendingLeg × Nat))
  | checkPendingOrder (asOf orderId : Nat) (price : Quote) (maxOpenTrades : Nat)
  | fillTriggeredPendingOrder (orderAsOf accountAsOf orderId : Nat) (scan price : Quote)
      (maxOpenTrades : Nat)
  | cancelTradeHandler (orderId : Nat)
  | weekendCancel (orderId : Nat)
  | checkSLTP (fx : FxSource) (asOf tradeId : Nat) (price : Quote) (minHoldSeconds : Nat)
  | recordDeferredTriggers (candidates : List (Nat × Nat × ℚ)) (minHoldSeconds : Nat)
  | closeTriggeredTrades (fx : FxSource) (candidates : List (Nat × Nat × ℚ)) (busy : List Nat)
      (minHoldSeconds : Nat)
  | weekendClose (fx : FxSource) (asOf tradeId : Nat) (price : Quote)
  | flatByClose (fx : FxSource) (asOf tradeId : Nat) (price : Quote)
  | newsClose (fx : FxSource) (asOf tradeId : Nat) (price : Quote)
  | batchClose (action : BatchTradeAction) (fx : FxSource) (asOf tradeId : Nat) (price : Quote)
  | closeTradeHandler (fx : FxSource) (tradeId : Nat) (closeLots : Option ℚ)
      (closePrice minLotSize : ℚ) (partId : Nat)
  | forceCloseTradeById (tradeId : Nat) (livePrice : Option Quote)
  | adjustBalance (accountId : Nat) (amount : ℚ) (shiftAnchors : Bool)
  | lockAccount (accountId : Nat)
  | restoreActive (accountId : Nat)
  | beginSettle (kind : SettleKind) (accountId : Nat) (prices : Instrument → Option Quote)
  | checkFloatingDrawdown (asOf todayAsOf accountId : Nat) (market : Market)
      (prices : Instrument → Option Quote)
  | settleAccountOutcomes (entryAsOf accountAsOf tradesAsOf accountId : Nat) (market : Market)
      (prices : Instrument → Option Quote)
  | processAccount (platform : PlatformSettings) (lastActivityAt : Option Nat)
      (accountAsOf todayAsOf openAsOf daysAsOf bestDayAsOf accountId : Nat)
  | commitSettle (accountId : Nat) (fx : FxSource)
  | abortSettle (accountId : Nat)
  | tick (seconds : Nat)

namespace World

def seen (w : World) (asOf : Nat) : Option Db := w.history[asOf]?

/-- The candidates of a tick scan: index entries as they stood in some earlier state, each with the
price the scan saw. The index is keyed by trade id, so no trade is a candidate twice. -/
def scanCandidates (w : World) (entries : List (Nat × Nat × ℚ)) : Option (List SlTpCandidate) := do
  guard (entries.map fun entry => entry.2.1).Nodup
  entries.mapM fun entry => do
    let db ← w.seen entry.1
    let trade ← seenOpenTrade db entry.2.1
    scanTrade trade entry.2.2

/-- Hold the statements back while a terminal transaction holds the account's row. -/
def whenFree (w : World) (accountId : Nat) (stmts : Option (List Stmt)) : Option (List Stmt) :=
  if w.accountFree accountId then stmts else none

/-- The account whose row a close of this position updates. -/
def accountOf (w : World) (tradeId : Nat) : Nat := ((w.db.trade? tradeId).map Trade.accountId).getD 0

/-- An admin or automation locks the account, whatever its status. -/
def lockStatements (w : World) (accountId : Nat) : Option (List Stmt) := do
  let acc ← w.db.account? accountId
  some [.setStatus acc.id .locked]

/-- `restore_active`: only failed or locked accounts. -/
def restoreStatements (w : World) (accountId : Nat) : Option (List Stmt) := do
  let acc ← w.db.account? accountId
  guard (acc.status = .failed ∨ acc.status = .locked)
  some [.setStatus acc.id .active]

/-- The statements a one-step transaction commits, `none` where it rolls back, skips or has to
wait. -/
def plan (w : World) : Action → Option (List Stmt)
  | .provision terms id => some [.insertAccount (terms.provision id)]
  | .openTrade req id openPrice =>
    w.whenFree req.accountId (openTrade w.db req id openPrice w.clock)
  | .placePendingOrder req leg sibling =>
    w.whenFree req.accountId (placePendingOrder w.db req leg sibling)
  | .checkPendingOrder asOf orderId price maxOpenTrades => do
    let seen ← w.seen asOf
    guard (w.tradeFree orderId)
    checkPendingOrder seen w.db orderId price maxOpenTrades w.clock
  | .fillTriggeredPendingOrder orderAsOf accountAsOf orderId scan price maxOpenTrades => do
    let seenOrder ← w.seen orderAsOf
    let seenAccount ← w.seen accountAsOf
    guard (w.tradeFree orderId)
    fillTriggeredPendingOrder seenOrder seenAccount w.db orderId scan price maxOpenTrades w.clock
  | .cancelTradeHandler orderId => some (cancelTradeHandler orderId w.clock)
  | .weekendCancel orderId => some (weekendCancel orderId w.clock)
  | .checkSLTP fx asOf tradeId price minHoldSeconds => do
    let seen ← w.seen asOf
    guard (w.tradeFree tradeId)
    w.whenFree (w.accountOf tradeId) (checkSLTP fx seen w.db tradeId price minHoldSeconds w.clock)
  | .recordDeferredTriggers entries minHoldSeconds => do
    let candidates ← w.scanCandidates entries
    guard (∀ c ∈ candidates, w.tradeFree c.trade.id)
    some (recordDeferredTriggers candidates minHoldSeconds w.clock)
  | .closeTriggeredTrades fx entries busy minHoldSeconds => do
    let candidates ← w.scanCandidates entries
    let stmts ← closeTriggeredTrades fx w.db (w.lockedRows ++ busy) candidates minHoldSeconds w.clock
    let owned := ownedCandidates w.db (w.lockedRows ++ busy) candidates minHoldSeconds w.clock
    guard (∀ c ∈ owned, w.accountFree c.trade.accountId)
    some stmts
  | .weekendClose fx asOf tradeId price => do
    let seen ← w.seen asOf
    w.whenFree (w.accountOf tradeId) (weekendClose fx seen w.db tradeId price w.clock)
  | .flatByClose fx asOf tradeId price => do
    let seen ← w.seen asOf
    w.whenFree (w.accountOf tradeId) (flatByClose fx seen w.db tradeId price w.clock)
  | .newsClose fx asOf tradeId price => do
    let seen ← w.seen asOf
    w.whenFree (w.accountOf tradeId) (newsClose fx seen w.db tradeId price w.clock)
  | .batchClose action fx asOf tradeId price => do
    let seen ← w.seen asOf
    w.whenFree (w.accountOf tradeId) (batchClose action fx seen w.db tradeId price w.clock)
  | .closeTradeHandler fx tradeId closeLots closePrice minLotSize partId =>
    w.whenFree (w.accountOf tradeId)
      (closeTradeHandler fx w.db tradeId closeLots closePrice minLotSize partId w.clock)
  | .forceCloseTradeById tradeId livePrice =>
    w.whenFree (w.accountOf tradeId) (forceCloseTradeById w.db tradeId livePrice w.clock)
  | .adjustBalance accountId amount shiftAnchors =>
    w.whenFree accountId (some [.adjustBalance accountId amount shiftAnchors])
  | .lockAccount accountId => w.whenFree accountId (w.lockStatements accountId)
  | .restoreActive accountId => w.whenFree accountId (w.restoreStatements accountId)
  | .beginSettle _ _ _ | .checkFloatingDrawdown .. | .settleAccountOutcomes .. | .processAccount ..
  | .commitSettle _ _ | .abortSettle _ | .tick _ => none

/-- `checkFloatingDrawdown` decides to pass an account: row and positions come from one query, today's
realised profit from another. -/
def checkFloatingDrawdownCall (w : World) (asOf todayAsOf accountId : Nat) (market : Market)
    (prices : Instrument → Option Quote) : Option SettleCall := do
  let seen ← w.seen asOf
  let seenToday ← w.seen todayAsOf
  let acc ← seen.account? accountId
  let trades := seen.tradesOf accountId .opened
  let todayRealized := getTodayRealizedPnl (seenToday.closedTrades accountId) w.clock
  guard (acc.status = .active ∧ trades ≠ [])
  guard (checkFloatingDrawdown (checkFloatingDrawdownLimits seen acc) acc (floatingPnl market trades)
    todayRealized = some .pass)
  some ⟨.autoCloseAndPass, accountId, prices, .floatingTarget (acc.equity market trades)⟩

/-- `settleAccountOutcomes` confirms a pass candidate: its target comes from the index entry of an
earlier row, the account's row and its open positions from two more queries. -/
def settleAccountOutcomesCall (w : World) (entryAsOf accountAsOf tradesAsOf accountId : Nat)
    (market : Market) (prices : Instrument → Option Quote) : Option SettleCall := do
  let seenEntry ← w.seen entryAsOf
  let seenAccount ← w.seen accountAsOf
  let seenTrades ← w.seen tradesAsOf
  let entryRow ← seenEntry.account? accountId
  let acc ← seenAccount.account? accountId
  let trades := seenTrades.tradesOf accountId .opened
  guard (entryRow.accountType.hasTarget ∧ acc.status = .active)
  guard (settleAccountOutcome (.pass entryRow.effectiveProfitTarget) acc (floatingPnl market trades) 0
    = some .pass)
  some ⟨.autoCloseAndPass, accountId, prices, .floatingTarget (acc.equity market trades)⟩

/-- `processAccount` decides to pass an account of the challenge engine's sweep. -/
def processAccountCall (w : World) (platform : PlatformSettings) (lastActivityAt : Option Nat)
    (accountAsOf todayAsOf openAsOf daysAsOf bestDayAsOf accountId : Nat) : Option SettleCall := do
  let seenAccount ← w.seen accountAsOf
  let seenToday ← w.seen todayAsOf
  let seenOpen ← w.seen openAsOf
  let seenDays ← w.seen daysAsOf
  let seenBestDay ← w.seen bestDayAsOf
  let acc ← seenAccount.account? accountId
  let reads : ProcessReads :=
    { lastActivityAt := lastActivityAt
      todayRealized := getTodayRealizedPnl (seenToday.closedTrades accountId) w.clock
      openTrades := seenOpen.tradesOf accountId .opened
      daysRead := seenDays.closedTrades accountId
      bestDayRead := seenBestDay.closedTrades accountId }
  guard (acc.status = .active ∧ acc.accountType ≠ .competition)
  guard (processAccount (processAccountLimits seenAccount platform acc) platform acc reads w.clock
    = some .passAccount)
  some ⟨.passAccount, accountId, fun _ => none,
    .settledTarget acc.currentBalance reads.daysRead reads.bestDayRead⟩

def calls (w : World) : Action → Option SettleCall
  | .beginSettle kind accountId prices =>
    if kind.status = .passed then none else some ⟨kind, accountId, prices, .unrecorded⟩
  | .checkFloatingDrawdown asOf todayAsOf accountId market prices =>
    w.checkFloatingDrawdownCall asOf todayAsOf accountId market prices
  | .settleAccountOutcomes entryAsOf accountAsOf tradesAsOf accountId market prices =>
    w.settleAccountOutcomesCall entryAsOf accountAsOf tradesAsOf accountId market prices
  | .processAccount platform lastActivityAt accountAsOf todayAsOf openAsOf daysAsOf bestDayAsOf
      accountId =>
    w.processAccountCall platform lastActivityAt accountAsOf todayAsOf openAsOf daysAsOf bestDayAsOf
      accountId
  | _ => none

def advance (w : World) (db : Db) : World := { w with db := db, history := db :: w.history }

def settlingFor (w : World) (accountId : Nat) : Option Settling :=
  w.settling.find? fun s => s.account.id = accountId

def release (w : World) (accountId : Nat) : World :=
  { w with settling := w.settling.filter fun s => s.account.id ≠ accountId }

def step (w : World) (action : Action) : Option World :=
  match action with
  | .tick seconds => some { w with clock := w.clock + seconds }
  | .beginSettle .. | .checkFloatingDrawdown .. | .settleAccountOutcomes .. | .processAccount .. => do
    let call ← w.calls action
    guard (w.accountFree call.accountId)
    let s ← beginSettle w.db call w.clock
    some { w with settling := s :: w.settling }
  | .commitSettle accountId fx => do
    let s ← w.settlingFor accountId
    let db ← s.finish fx w.db
    some ((w.advance db).release accountId)
  | .abortSettle accountId => some (w.release accountId)
  | _ => do
    let stmts ← w.plan action
    let db ← execAll w.db stmts
    some (w.advance db)

end World

end PropFirm
