import PropFirm.TradeTransactions
import PropFirm.Lib.Traversal

/-!
# Closing positions

The paths that close single positions. The manual close re-reads the whole row under the lock. Every
other path here, `checkSLTP`, `closeTriggeredTrades`, the batch handler and the weekend, flat-by and
news closes, prices the position from the row it read before the lock and re-checks under it only
that the row is still open. They share `closeFromSnapshot`.
-/

namespace PropFirm

/-! ### Stop loss and take profit -/

/-- Why and where a position closes. A live crossing of `level` fills at the market; a recorded one
fills at its own level and has none. -/
structure Trigger where
  reason : String
  fillPrice : ℚ
  level : Option ℚ
  deriving DecidableEq

/-- Whether the stop loss is crossed: a buy's from above, a sell's from below. -/
def isSLTriggered (direction : Direction) (stopLoss currentPrice : ℚ) : Bool :=
  match direction with
  | .buy => currentPrice ≤ stopLoss
  | .sell => stopLoss ≤ currentPrice

def isTPTriggered (direction : Direction) (takeProfit currentPrice : ℚ) : Bool :=
  match direction with
  | .buy => takeProfit ≤ currentPrice
  | .sell => currentPrice ≤ takeProfit

def liveTrigger (trade : Trade) (currentPrice : ℚ) : Option Trigger :=
  if trade.stopLoss.any (isSLTriggered trade.direction · currentPrice) then
    some ⟨"Stop Loss", currentPrice, trade.stopLoss⟩
  else if trade.takeProfit.any (isTPTriggered trade.direction · currentPrice) then
    some ⟨"Take Profit", currentPrice, trade.takeProfit⟩
  else none

def deferredTrigger (trade : Trade) : Option Trigger :=
  trade.pendingClosePrice.map fun level =>
    ⟨(trade.pendingCloseReason.filter (· ≠ "")).getD "Stop Loss", level, none⟩

def withinHoldWindow (trade : Trade) (minHoldSeconds now : Nat) : Bool :=
  trade.openTime.any fun openTime => now < openTime + minHoldSeconds

/-- The trigger `checkSLTP` finds: outside the hold window a recorded crossing wins. -/
def sltpTrigger (trade : Trade) (currentPrice : ℚ) (minHoldSeconds now : Nat) : Option Trigger :=
  if withinHoldWindow trade minHoldSeconds now then liveTrigger trade currentPrice
  else (deferredTrigger trade).or (liveTrigger trade currentPrice)

/-! ### Closes priced from a row read earlier -/

/-- Price the position from `trade`, lock its row if it is still open, write the close and credit the
account. -/
def closeFromSnapshot (fx : FxSource) (db : Db) (trade : Trade) (closePrice : ℚ) (reason : String)
    (now : Nat) (clearDeferred : Bool) : Option (List Stmt) := do
  let row ← db.trade? trade.id
  guard (row.status = .opened)
  let closing ← priceClosing fx trade closePrice reason
  some [.closeTrades [closing] now clearDeferred, .creditAccount trade.accountId closing.pnl]

theorem closeFromSnapshot_spec {fx : FxSource} {db : Db} {trade : Trade} {closePrice : ℚ}
    {reason : String} {now : Nat} {clearDeferred : Bool} {stmts : List Stmt}
    (hclose : closeFromSnapshot fx db trade closePrice reason now clearDeferred = some stmts) :
    ∃ row c, db.trade? trade.id = some row ∧ row.status = .opened ∧
      priceClosing fx trade closePrice reason = some c ∧
      stmts = [.closeTrades [c] now clearDeferred, .creditAccount trade.accountId c.pnl] := by
  simp only [closeFromSnapshot, Option.bind_eq_bind, Option.bind_eq_some_iff, Option.guard_eq_some',
    exists_const, Option.some.injEq] at hclose
  obtain ⟨row, hrow, hopen, c, hprice, hstmts⟩ := hclose
  exact ⟨row, c, hrow, hopen, hprice, hstmts.symm⟩

theorem closeFromSnapshot_eq_some {fx : FxSource} {db : Db} {trade : Trade} {closePrice : ℚ}
    {reason : String} {now : Nat} {clearDeferred : Bool} {stmts : List Stmt}
    (hclose : closeFromSnapshot fx db trade closePrice reason now clearDeferred = some stmts) :
    ∃ row c, db.trade? trade.id = some row ∧ row.status = .opened ∧ c.trade = trade ∧ c.Priced ∧
      stmts = [.closeTrades [c] now clearDeferred, .creditAccount trade.accountId c.pnl] := by
  obtain ⟨row, c, hrow, hopen, hprice, rfl⟩ := closeFromSnapshot_spec hclose
  obtain ⟨htrade, hpriced⟩ := priceClosing_eq_some hprice
  exact ⟨row, c, hrow, hopen, htrade, hpriced, rfl⟩

def seenOpenTrade (seen : Db) (tradeId : Nat) : Option Trade := do
  let trade ← seen.trade? tradeId
  guard (trade.status = .opened)
  some trade

theorem seenOpenTrade_eq_some {seen : Db} {tradeId : Nat} {trade : Trade} :
    seenOpenTrade seen tradeId = some trade ↔
      seen.trade? tradeId = some trade ∧ trade.status = .opened := by
  simp only [seenOpenTrade, Option.bind_eq_bind, Option.bind_eq_some_iff, Option.guard_eq_some',
    exists_const, Option.some.injEq]
  constructor
  · rintro ⟨_, hseen, hopen, rfl⟩
    exact ⟨hseen, hopen⟩
  · rintro ⟨hseen, hopen⟩
    exact ⟨trade, hseen, hopen, rfl⟩

/-- One iteration of `checkSLTP`: inside the hold window a live crossing is recorded, outside it the
position closes. -/
def checkSLTP (fx : FxSource) (seen db : Db) (tradeId : Nat) (price : Quote)
    (minHoldSeconds now : Nat) : Option (List Stmt) := do
  let trade ← seenOpenTrade seen tradeId
  let acc ← seen.account? trade.accountId
  guard (acc.status = .active)
  let trigger ← sltpTrigger trade (price.closeSide trade.direction) minHoldSeconds now
  if withinHoldWindow trade minHoldSeconds now then
    trigger.level.map fun level => [.deferTrade trade.id level trigger.reason]
  else closeFromSnapshot fx db trade trigger.fillPrice trigger.reason now true

def marketClose (reason : String) (fx : FxSource) (seen db : Db) (tradeId : Nat) (price : Quote)
    (now : Nat) : Option (List Stmt) := do
  let trade ← seenOpenTrade seen tradeId
  closeFromSnapshot fx db trade (price.closeSide trade.direction) reason now false

theorem marketClose_eq_some {reason : String} {fx : FxSource} {seen db : Db} {tradeId : Nat}
    {price : Quote} {now : Nat} {stmts : List Stmt}
    (hclose : marketClose reason fx seen db tradeId price now = some stmts) :
    ∃ trade closePrice reason, seenOpenTrade seen tradeId = some trade ∧
      closeFromSnapshot fx db trade closePrice reason now false = some stmts := by
  simp only [marketClose, Option.bind_eq_bind, Option.bind_eq_some_iff] at hclose
  obtain ⟨trade, hseen, hclose⟩ := hclose
  exact ⟨trade, _, _, hseen, hclose⟩

def weekendClose := marketClose "Weekend Close"

def flatByClose := marketClose "Flat By Close"

def newsClose := marketClose "News Force Close"

inductive BatchTradeAction
  | closeWinning | closeLosing
  deriving DecidableEq

def actionMatches (action : BatchTradeAction) (pnl : Cents) : Bool :=
  match action with
  | .closeWinning => 0 < pnl
  | .closeLosing => pnl < 0

/-- One closing iteration of `batchActionHandler`, which also picks its positions by the profit the
row read earlier shows. -/
def batchClose (action : BatchTradeAction) (fx : FxSource) (seen db : Db) (tradeId : Nat)
    (price : Quote) (now : Nat) : Option (List Stmt) := do
  let trade ← seenOpenTrade seen tradeId
  let closing ← priceClosing fx trade (price.closeSide trade.direction) "Batch Close"
  guard (actionMatches action closing.pnl)
  closeFromSnapshot fx db trade (price.closeSide trade.direction) "Batch Close" now false

theorem batchClose_eq_some {action : BatchTradeAction} {fx : FxSource} {seen db : Db} {tradeId : Nat}
    {price : Quote} {now : Nat} {stmts : List Stmt}
    (hclose : batchClose action fx seen db tradeId price now = some stmts) :
    ∃ trade closePrice reason, seenOpenTrade seen tradeId = some trade ∧
      closeFromSnapshot fx db trade closePrice reason now false = some stmts := by
  simp only [batchClose, Option.bind_eq_bind, Option.bind_eq_some_iff] at hclose
  obtain ⟨trade, hseen, _, _, _, _, hclose⟩ := hclose
  exact ⟨trade, _, _, hseen, hclose⟩

theorem checkSLTP_spec {fx : FxSource} {seen db : Db} {tradeId : Nat} {price : Quote}
    {minHoldSeconds now : Nat} {stmts : List Stmt}
    (hcheck : checkSLTP fx seen db tradeId price minHoldSeconds now = some stmts) :
    ∃ trade trigger, seenOpenTrade seen tradeId = some trade ∧
      sltpTrigger trade (price.closeSide trade.direction) minHoldSeconds now = some trigger ∧
      ((withinHoldWindow trade minHoldSeconds now = true ∧
          ∃ level, stmts = [.deferTrade trade.id level trigger.reason]) ∨
        (withinHoldWindow trade minHoldSeconds now = false ∧
          closeFromSnapshot fx db trade trigger.fillPrice trigger.reason now true = some stmts)) := by
  simp only [checkSLTP, Option.bind_eq_bind, Option.bind_eq_some_iff] at hcheck
  obtain ⟨trade, hseen, _, _, _, _, trigger, htrigger, hcheck⟩ := hcheck
  refine ⟨trade, trigger, hseen, htrigger, ?_⟩
  split at hcheck
  · rename_i hwindow
    obtain ⟨level, _, rfl⟩ := Option.map_eq_some_iff.mp hcheck
    exact .inl ⟨hwindow, level, rfl⟩
  · rename_i hwindow
    exact .inr ⟨by simpa using hwindow, hcheck⟩

theorem checkSLTP_eq_some {fx : FxSource} {seen db : Db} {tradeId : Nat} {price : Quote}
    {minHoldSeconds now : Nat} {stmts : List Stmt}
    (hcheck : checkSLTP fx seen db tradeId price minHoldSeconds now = some stmts) :
    ∃ trade, seenOpenTrade seen tradeId = some trade ∧
      ((∃ level reason, stmts = [.deferTrade trade.id level reason]) ∨
        withinHoldWindow trade minHoldSeconds now = false ∧
          ∃ closePrice reason, closeFromSnapshot fx db trade closePrice reason now true = some stmts) := by
  obtain ⟨trade, trigger, hseen, -, ⟨-, level, rfl⟩ | ⟨hwindow, hclose⟩⟩ := checkSLTP_spec hcheck
  · exact ⟨trade, hseen, .inl ⟨level, _, rfl⟩⟩
  · exact ⟨trade, hseen, .inr ⟨hwindow, _, _, hclose⟩⟩

/-! ### The bulk close of the event engine -/

structure SlTpCandidate where
  trade : Trade
  trigger : Trigger
  deferred : Bool

/-- The scan's choice for one index entry: a recorded crossing outranks a live one. -/
def scanTrade (trade : Trade) (closePrice : ℚ) : Option SlTpCandidate :=
  match deferredTrigger trade with
  | some trigger => some ⟨trade, trigger, true⟩
  | none => (liveTrigger trade closePrice).map fun trigger => ⟨trade, trigger, false⟩

/-- `recordDeferredTriggers`: crossings still inside the hold window. -/
def recordDeferredTriggers (candidates : List SlTpCandidate) (minHoldSeconds now : Nat) : List Stmt :=
  candidates.filterMap fun c =>
    if withinHoldWindow c.trade minHoldSeconds now ∧ ¬ c.deferred then
      c.trigger.level.map fun level => Stmt.deferTrade c.trade.id level c.trigger.reason
    else none

def perAccountTotals (closings : List Closing) : List (Nat × Cents) :=
  (closings.map fun c => c.trade.accountId).dedup.map fun accountId =>
    (accountId, ((closings.filter fun c => c.trade.accountId = accountId).map Closing.pnl).sum)

/-- The rows `FOR UPDATE SKIP LOCKED` hands to the closing transaction. -/
def ownedCandidates (db : Db) (lockedRows : List Nat) (candidates : List SlTpCandidate)
    (minHoldSeconds now : Nat) : List SlTpCandidate :=
  candidates.filter fun c =>
    ¬ withinHoldWindow c.trade minHoldSeconds now ∧ c.trade.id ∉ lockedRows ∧
      (db.trade? c.trade.id).any fun row => row.status = .opened

/-- `closeTriggeredTrades`. The profits are computed from the index entries; a missing rate on any of
them aborts the whole transaction. -/
def closeTriggeredTrades (fx : FxSource) (db : Db) (lockedRows : List Nat)
    (candidates : List SlTpCandidate) (minHoldSeconds now : Nat) : Option (List Stmt) := do
  let owned := ownedCandidates db lockedRows candidates minHoldSeconds now
  guard (owned ≠ [])
  let closings ← owned.mapM fun c => priceClosing fx c.trade c.trigger.fillPrice c.trigger.reason
  some (.closeTrades closings now true ::
    (perAccountTotals closings).map fun total => .creditAccount total.1 total.2)

theorem closeTriggeredTrades_spec {fx : FxSource} {db : Db} {lockedRows : List Nat}
    {candidates : List SlTpCandidate} {minHoldSeconds now : Nat} {stmts : List Stmt}
    (hclose : closeTriggeredTrades fx db lockedRows candidates minHoldSeconds now = some stmts) :
    ∃ closings : List Closing,
      (ownedCandidates db lockedRows candidates minHoldSeconds now).mapM
        (fun c => priceClosing fx c.trade c.trigger.fillPrice c.trigger.reason) = some closings ∧
      stmts = .closeTrades closings now true ::
        (perAccountTotals closings).map fun total => .creditAccount total.1 total.2 := by
  simp only [closeTriggeredTrades, Option.bind_eq_bind, Option.bind_eq_some_iff,
    Option.some.injEq] at hclose
  obtain ⟨_, _, closings, hmap, hstmts⟩ := hclose
  exact ⟨closings, hmap, hstmts.symm⟩

theorem closeTriggeredTrades_eq_some {fx : FxSource} {db : Db} {lockedRows : List Nat}
    {candidates : List SlTpCandidate} {minHoldSeconds now : Nat} {stmts : List Stmt}
    (hclose : closeTriggeredTrades fx db lockedRows candidates minHoldSeconds now = some stmts) :
    ∃ closings : List Closing,
      closings.map Closing.trade = (ownedCandidates db lockedRows candidates minHoldSeconds now).map
        SlTpCandidate.trade ∧
      (∀ c ∈ closings, c.Priced) ∧
      stmts = .closeTrades closings now true ::
        (perAccountTotals closings).map fun total => .creditAccount total.1 total.2 := by
  obtain ⟨closings, hmap, rfl⟩ := closeTriggeredTrades_spec hclose
  refine ⟨closings, ?_, ?_, rfl⟩
  · exact List.map_eq_of_mapM_eq_some hmap fun a c hc => (priceClosing_eq_some hc).1
  · intro c hc
    obtain ⟨a, _, hprice⟩ := List.exists_of_mem_mapM hmap hc
    exact (priceClosing_eq_some hprice).2

theorem mem_ownedCandidates {db : Db} {lockedRows : List Nat} {candidates : List SlTpCandidate}
    {minHoldSeconds now : Nat} {c : SlTpCandidate}
    (hc : c ∈ ownedCandidates db lockedRows candidates minHoldSeconds now) :
    c ∈ candidates ∧ c.trade.id ∉ lockedRows ∧
      ∃ row, db.trade? c.trade.id = some row ∧ row.status = .opened := by
  simp only [ownedCandidates, List.mem_filter, decide_eq_true_eq] at hc
  obtain ⟨hmem, _, hlocked, hopen⟩ := hc
  rw [Option.any_eq_true] at hopen
  obtain ⟨row, hrow, hopen⟩ := hopen
  exact ⟨hmem, hlocked, row, hrow, by simpa using hopen⟩

/-! ### The manual close -/

/-- `toDecimalPlaces(2)` of a lot amount. -/
def roundLots (x : ℚ) : ℚ := (roundHalfAway (x * 100) : ℚ) / 100

def partialCloseRow (locked : Trade) (partId : Nat) (closeLots closePrice : ℚ) (commission pnl : Cents)
    (now : Nat) : Trade :=
  { locked with
    id := partId
    orderType := .market
    lotSize := toLots closeLots
    commission := commission
    status := .closed
    stopLoss := none
    takeProfit := none
    pendingPrice := none
    ocoGroupId := none
    parentTradeId := some locked.id
    pendingClosePrice := none
    pendingCloseReason := none
    closePrice := some closePrice
    closeTime := some now
    closeReason := some "Manual Partial Close"
    demoPnl := some pnl }

def partialCommission (locked : Trade) (closeLots : ℚ) : Cents :=
  toCents (locked.commission.dollars * (closeLots / locked.lotSize))

/-- `closeTradeHandler` from its lock on: the requested lots, all of them when none are given, are
priced with their share of the commission; a remainder that rounds to nothing closes the row. -/
def closeTradeHandler (fx : FxSource) (db : Db) (tradeId : Nat) (requestedCloseLots : Option ℚ)
    (closePrice minLotSize : ℚ) (partId now : Nat) : Option (List Stmt) := do
  let locked ← seenOpenTrade db tradeId
  let closeLots := requestedCloseLots.getD locked.lotSize
  guard (0 < closeLots ∧ closeLots ≤ locked.lotSize ∧ isValidLotSize closeLots)
  let remainingLots := roundLots (locked.lotSize - closeLots)
  guard (0 < remainingLots → minLotSize ≤ remainingLots ∧ isValidLotSize remainingLots)
  let commission := partialCommission locked closeLots
  let closing ← priceClosing fx
    { locked with lotSize := closeLots, commission := commission } closePrice
    (if 0 < remainingLots then "Manual Partial Close" else "Manual Close")
  let credit := Stmt.creditAccount locked.accountId closing.pnl
  if 0 < remainingLots then
    some [.splitTrade
      (partialCloseRow locked partId closeLots closePrice commission closing.pnl now) closing
      (toLots remainingLots) (locked.commission - commission), credit]
  else some [.closeTrades [closing] now true, credit]

/-- What `closeTradeHandler` hands to the index after a partial close: the columns its lock read, with
the new lots and commission and without the levels. -/
def remainingTrade (locked : Trade) (lots : ℚ) (commission : Cents) : Trade :=
  { locked with
    lotSize := lots
    commission := commission
    stopLoss := none
    takeProfit := none
    pendingClosePrice := none
    pendingCloseReason := none }

structure ManualClose (locked : Trade) (requested : Option ℚ) (closeLots : ℚ) : Prop where
  requested_eq : closeLots = requested.getD locked.lotSize
  pos : 0 < closeLots
  le : closeLots ≤ locked.lotSize

theorem closeTradeHandler_spec {fx : FxSource} {db : Db} {tradeId : Nat} {requested : Option ℚ}
    {closePrice minLotSize : ℚ} {partId now : Nat} {stmts : List Stmt}
    (hclose : closeTradeHandler fx db tradeId requested closePrice minLotSize partId now = some stmts) :
    ∃ locked c, seenOpenTrade db tradeId = some locked ∧
      (0 < requested.getD locked.lotSize ∧ requested.getD locked.lotSize ≤ locked.lotSize ∧
        isValidLotSize (requested.getD locked.lotSize)) ∧
      (0 < roundLots (locked.lotSize - requested.getD locked.lotSize) →
        minLotSize ≤ roundLots (locked.lotSize - requested.getD locked.lotSize) ∧
          isValidLotSize (roundLots (locked.lotSize - requested.getD locked.lotSize))) ∧
      priceClosing fx
        { locked with
          lotSize := requested.getD locked.lotSize
          commission := partialCommission locked (requested.getD locked.lotSize) } closePrice
        (if 0 < roundLots (locked.lotSize - requested.getD locked.lotSize) then "Manual Partial Close"
          else "Manual Close") = some c ∧
      ((0 < roundLots (locked.lotSize - requested.getD locked.lotSize) ∧
          stmts = [.splitTrade
            (partialCloseRow locked partId (requested.getD locked.lotSize) closePrice
              (partialCommission locked (requested.getD locked.lotSize)) c.pnl now) c
            (toLots (roundLots (locked.lotSize - requested.getD locked.lotSize)))
            (locked.commission - partialCommission locked (requested.getD locked.lotSize)),
            .creditAccount locked.accountId c.pnl]) ∨
        (roundLots (locked.lotSize - requested.getD locked.lotSize) ≤ 0 ∧
          stmts = [.closeTrades [c] now true, .creditAccount locked.accountId c.pnl])) := by
  simp only [closeTradeHandler, Option.bind_eq_bind, Option.bind_eq_some_iff, Option.guard_eq_some',
    exists_const] at hclose
  obtain ⟨locked, hseen, hlots, hminimum, c, hprice, hclose⟩ := hclose
  refine ⟨locked, c, hseen, hlots, hminimum, hprice, ?_⟩
  split at hclose
  · rename_i hremain
    exact .inl ⟨hremain, (Option.some.inj hclose).symm⟩
  · rename_i hremain
    exact .inr ⟨not_lt.mp hremain, (Option.some.inj hclose).symm⟩

/-- The manual close prices the requested lots of the row it locked, and either splits them off or,
when the remainder rounds to nothing, closes the row. -/
theorem closeTradeHandler_eq_some {fx : FxSource} {db : Db} {tradeId : Nat} {requested : Option ℚ}
    {closePrice minLotSize : ℚ} {partId now : Nat} {stmts : List Stmt}
    (hclose : closeTradeHandler fx db tradeId requested closePrice minLotSize partId now = some stmts) :
    ∃ locked closeLots c, db.trade? tradeId = some locked ∧ locked.status = .opened ∧
      ManualClose locked requested closeLots ∧ c.Priced ∧
      c.trade =
        { locked with lotSize := closeLots, commission := partialCommission locked closeLots } ∧
      ((0 < roundLots (locked.lotSize - closeLots) ∧
          stmts = [.splitTrade
            (partialCloseRow locked partId closeLots closePrice (partialCommission locked closeLots)
              c.pnl now) c
            (toLots (roundLots (locked.lotSize - closeLots)))
            (locked.commission - partialCommission locked closeLots),
            .creditAccount locked.accountId c.pnl]) ∨
        (roundLots (locked.lotSize - closeLots) ≤ 0 ∧
          stmts = [.closeTrades [c] now true, .creditAccount locked.accountId c.pnl])) := by
  obtain ⟨locked, c, hseen, ⟨hpos, hle, _⟩, _, hprice, hstmts⟩ := closeTradeHandler_spec hclose
  obtain ⟨hlocked, hopen⟩ := seenOpenTrade_eq_some.mp hseen
  obtain ⟨htrade, hpriced⟩ := priceClosing_eq_some hprice
  exact ⟨locked, _, c, hlocked, hopen, ⟨rfl, hpos, hle⟩, hpriced, htrade, hstmts⟩

/-! ### The admin force close -/

/-- `calcTradePnl`, which applies no conversion rate. -/
def calcTradePnl (direction : Direction) (openPrice currentPrice lots : ℚ) (instrument : Instrument) :
    Cents :=
  pnlAtRate direction openPrice currentPrice lots instrument 0 1

/-- The price of `livePrice?.bid || openPrice`: zero counts as no price. -/
def livePriceOr (livePrice : Option Quote) (direction : Direction) (openPrice : ℚ) : ℚ :=
  ((livePrice.map (·.closeSide direction)).filter (· ≠ 0)).getD openPrice

/-- `forceCloseTradeById`, which locks the row with its account; without a live price the position
closes at its open price. -/
def forceCloseTradeById (db : Db) (tradeId : Nat) (livePrice : Option Quote) (now : Nat) :
    Option (List Stmt) := do
  let locked ← seenOpenTrade db tradeId
  let openPrice ← locked.openPrice
  let closePrice := livePriceOr livePrice locked.direction openPrice
  let pnl :=
    calcTradePnl locked.direction openPrice closePrice locked.lotSize locked.instrument
      - locked.commission
  some [.closeTrades [⟨locked, some closePrice, pnl, "Admin Force Close", none⟩] now false,
    .creditAccount locked.accountId pnl]

theorem forceCloseTradeById_spec {db : Db} {tradeId : Nat} {livePrice : Option Quote} {now : Nat}
    {stmts : List Stmt} (hclose : forceCloseTradeById db tradeId livePrice now = some stmts) :
    ∃ locked openPrice, seenOpenTrade db tradeId = some locked ∧ locked.openPrice = some openPrice ∧
      let closePrice := livePriceOr livePrice locked.direction openPrice
      let pnl := calcTradePnl locked.direction openPrice closePrice locked.lotSize locked.instrument
        - locked.commission
      stmts = [.closeTrades [⟨locked, some closePrice, pnl, "Admin Force Close", none⟩] now false,
        .creditAccount locked.accountId pnl] := by
  simp only [forceCloseTradeById, Option.bind_eq_bind, Option.bind_eq_some_iff,
    Option.some.injEq] at hclose
  obtain ⟨locked, hseen, openPrice, hopenPrice, hstmts⟩ := hclose
  exact ⟨locked, openPrice, hseen, hopenPrice, hstmts.symm⟩

theorem forceCloseTradeById_eq_some {db : Db} {tradeId : Nat} {livePrice : Option Quote} {now : Nat}
    {stmts : List Stmt} (hclose : forceCloseTradeById db tradeId livePrice now = some stmts) :
    ∃ locked c, db.trade? tradeId = some locked ∧ locked.status = .opened ∧ c.trade = locked ∧
      c.priced = none ∧
      stmts = [.closeTrades [c] now false, .creditAccount locked.accountId c.pnl] := by
  obtain ⟨locked, openPrice, hseen, -, rfl⟩ := forceCloseTradeById_spec hclose
  obtain ⟨hlocked, hopen⟩ := seenOpenTrade_eq_some.mp hseen
  exact ⟨locked, _, hlocked, hopen, rfl, rfl, rfl⟩

end PropFirm
