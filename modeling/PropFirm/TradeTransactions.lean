import PropFirm.Statements

/-!
# Transactions on trades

Every request handler and engine pass that writes `trades`, as the statements it commits. A function
here returns `none` where the code rolls back or skips. The engines and the scheduled closes decide
on rows they read before taking any lock: such a row is an argument of its own, read off an earlier
committed state `seen`, beside the current state `db` in which the lock query and the writes run.
What the code re-reads under the lock is read off `db`, and nothing else is.
-/

namespace PropFirm

/-! ### Opening -/

/-- `isValidLotSize`. `Math.round` returns an integer, so the remainder test holds of every lot. -/
def isValidLotSize (lot : ℚ) : Bool :=
  1 / 100 ≤ lot ∧ lot ≤ 1000 ∧ jsRound (lot * 100) % 1 = 0

theorem isValidLotSize_iff (lot : ℚ) : isValidLotSize lot = true ↔ 1 / 100 ≤ lot ∧ lot ≤ 1000 := by
  simp [isValidLotSize]

/-- The step check of the open handler, which does reject off-grid lots. -/
def lotStepOk (lots : ℚ) : Bool := |(jsRound (lots * 100) : ℚ) / 100 - lots| ≤ 1 / 100000

/-- What storing lots in a `NUMERIC(10,4)` column does. -/
def toLots (x : ℚ) : ℚ := (roundHalfAway (x * 10000) : ℚ) / 10000

structure OrderRequest where
  accountId : Nat
  instrument : Instrument
  direction : Direction
  lots : ℚ
  commissionPerLot : ℚ
  stopLoss : Option ℚ
  takeProfit : Option ℚ

/-- The row every open handler inserts, before it becomes a position or a pending order. -/
def OrderRequest.row (req : OrderRequest) (id : Nat) (status : TradeStatus) : Trade where
  id := id
  accountId := req.accountId
  instrument := req.instrument
  direction := req.direction
  orderType := .market
  lotSize := toLots req.lots
  commission := toCents (req.lots * req.commissionPerLot)
  status := status
  openPrice := none
  openTime := none
  stopLoss := req.stopLoss
  takeProfit := req.takeProfit
  pendingPrice := none
  ocoGroupId := none
  parentTradeId := none
  pendingClosePrice := none
  pendingCloseReason := none
  closePrice := none
  closeTime := none
  closeReason := none
  demoPnl := none

/-- The order concrete runs vary: one lot of EURUSD, bought for account 1 with a commission of 7
dollars. -/
def sampleOrder : OrderRequest where
  accountId := 1
  instrument := .eurusd
  direction := .buy
  lots := 1
  commissionPerLot := 7
  stopLoss := none
  takeProfit := none

/-- A market order: the account is locked active, the position inserted at the given price. -/
def openTrade (db : Db) (req : OrderRequest) (id : Nat) (openPrice : ℚ) (now : Nat) :
    Option (List Stmt) := do
  let acc ← db.account? req.accountId
  guard (acc.status = .active ∧ isValidLotSize req.lots ∧ lotStepOk req.lots)
  some [.insertTrade
    { req.row id .opened with openPrice := some openPrice, openTime := some now }]

theorem openTrade_spec {db : Db} {req : OrderRequest} {id : Nat} {openPrice : ℚ} {now : Nat}
    {stmts : List Stmt} (hopen : openTrade db req id openPrice now = some stmts) :
    ∃ acc, db.account? req.accountId = some acc ∧
      (acc.status = .active ∧ isValidLotSize req.lots = true ∧ lotStepOk req.lots = true) ∧
      stmts = [.insertTrade
        { req.row id .opened with openPrice := some openPrice, openTime := some now }] := by
  simp only [openTrade, Option.bind_eq_bind, Option.bind_eq_some_iff, Option.guard_eq_some',
    exists_const, Option.some.injEq] at hopen
  obtain ⟨acc, hacc, hvalid, hstmts⟩ := hopen
  exact ⟨acc, hacc, hvalid, hstmts.symm⟩

structure PendingLeg where
  id : Nat
  direction : Direction
  orderType : OrderType
  pendingPrice : ℚ

def OrderRequest.pendingRow (req : OrderRequest) (leg : PendingLeg) (ocoGroupId : Option Nat) : Trade :=
  { req.row leg.id .pending with
    direction := leg.direction
    orderType := leg.orderType
    pendingPrice := some leg.pendingPrice
    ocoGroupId := ocoGroupId }

/-- A pending order, with the sibling of an OCO pair when one is asked for. -/
def placePendingOrder (db : Db) (req : OrderRequest) (leg : PendingLeg)
    (sibling : Option (PendingLeg × Nat)) : Option (List Stmt) := do
  let acc ← db.account? req.accountId
  guard (acc.status = .active ∧ isValidLotSize req.lots ∧ lotStepOk req.lots)
  match sibling with
  | none => some [.insertTrade (req.pendingRow leg none)]
  | some (second, group) =>
    some [.insertTrade (req.pendingRow leg (some group)),
      .insertTrade (req.pendingRow second (some group))]

theorem placePendingOrder_spec {db : Db} {req : OrderRequest} {leg : PendingLeg}
    {sibling : Option (PendingLeg × Nat)} {stmts : List Stmt}
    (hplace : placePendingOrder db req leg sibling = some stmts) :
    ∃ acc, db.account? req.accountId = some acc ∧
      (acc.status = .active ∧ isValidLotSize req.lots = true ∧ lotStepOk req.lots = true) ∧
      ((sibling = none ∧ stmts = [.insertTrade (req.pendingRow leg none)]) ∨
        ∃ second group, sibling = some (second, group) ∧
          stmts = [.insertTrade (req.pendingRow leg (some group)),
            .insertTrade (req.pendingRow second (some group))]) := by
  simp only [placePendingOrder, Option.bind_eq_bind, Option.bind_eq_some_iff, Option.guard_eq_some',
    exists_const] at hplace
  obtain ⟨acc, hacc, hvalid, hplace⟩ := hplace
  refine ⟨acc, hacc, hvalid, ?_⟩
  cases sibling with
  | none => exact .inl ⟨rfl, (Option.some.inj hplace).symm⟩
  | some second => exact .inr ⟨second.1, second.2, rfl, (Option.some.inj hplace).symm⟩

/-! ### Pending orders -/

/-- `cancelPendingOrder`: the update selects the row by its id alone. -/
def cancelPendingOrder (orderId : Nat) (reason : String) (now : Nat) : List Stmt :=
  [.cancelTrades (fun t => t.id = orderId) reason now]

/-- The cancellations that also require the row to be pending: the trader's own and the weekend
close's. -/
def cancelWhilePending (orderId : Nat) (reason : String) (now : Nat) : List Stmt :=
  [.cancelTrades (fun t => t.id = orderId ∧ t.status = .pending) reason now]

def cancelTradeHandler (orderId now : Nat) : List Stmt :=
  cancelWhilePending orderId "Cancelled by trader" now

def weekendCancel (orderId now : Nat) : List Stmt :=
  cancelWhilePending orderId "Weekend holding disabled" now

/-- `validatePendingTrigger`: the reason an order may not fill. -/
def validatePendingTrigger (db : Db) (order : Trade) (maxOpenTrades : Nat) : Option String :=
  if order.lotSize ≤ 0 then some "Invalid lot size on pending order"
  else if db.account? order.accountId = none then
    some "Account not found during pending order trigger"
  else
    let others := (db.tradesOf order.accountId .opened ++ db.tradesOf order.accountId .pending).filter
      fun t => t.id ≠ order.id
    if maxOpenTrades < others.length + 1 then
      some s!"Pending order exceeds max open trades ({maxOpenTrades})"
    else none

/-- `fillPendingOrder`: only the order's own row is locked, and only its status is re-read. -/
def fillPendingOrder (db : Db) (order : Trade) (price : Quote) (maxOpenTrades now : Nat) :
    Option (List Stmt) := do
  let row ← db.trade? order.id
  guard (row.status = .pending)
  match validatePendingTrigger db order maxOpenTrades with
  | some limitError => some [.cancelTrades (fun t => t.id = order.id) limitError now]
  | none =>
    let fill := Stmt.fillTrade order.id (price.openSide order.direction) now
    match order.ocoGroupId with
    | none => some [fill]
    | some group =>
      some [fill, .cancelTrades
        (fun t => t.ocoGroupId = some group ∧ t.id ≠ order.id ∧ t.status = .pending)
        "OCO sibling triggered" now]

theorem fillPendingOrder_spec {db : Db} {order : Trade} {price : Quote} {maxOpenTrades now : Nat}
    {stmts : List Stmt} (hfill : fillPendingOrder db order price maxOpenTrades now = some stmts) :
    ∃ row, db.trade? order.id = some row ∧ row.status = .pending ∧
      ((∃ limitError, validatePendingTrigger db order maxOpenTrades = some limitError ∧
          stmts = [.cancelTrades (fun t => t.id = order.id) limitError now]) ∨
        (validatePendingTrigger db order maxOpenTrades = none ∧ order.ocoGroupId = none ∧
          stmts = [.fillTrade order.id (price.openSide order.direction) now]) ∨
        ∃ group, validatePendingTrigger db order maxOpenTrades = none ∧ order.ocoGroupId = some group ∧
          stmts = [.fillTrade order.id (price.openSide order.direction) now,
            .cancelTrades (fun t => t.ocoGroupId = some group ∧ t.id ≠ order.id ∧ t.status = .pending)
              "OCO sibling triggered" now]) := by
  simp only [fillPendingOrder, Option.bind_eq_bind, Option.bind_eq_some_iff, Option.guard_eq_some',
    exists_const] at hfill
  obtain ⟨row, hrow, hpending, hfill⟩ := hfill
  refine ⟨row, hrow, hpending, ?_⟩
  split at hfill
  · rename_i limitError hlimit
    exact .inl ⟨limitError, hlimit, (Option.some.inj hfill).symm⟩
  · rename_i hvalid
    split at hfill
    · rename_i hgroup
      exact .inr (.inl ⟨hvalid, hgroup, (Option.some.inj hfill).symm⟩)
    · rename_i group hgroup
      exact .inr (.inr ⟨group, hvalid, hgroup, (Option.some.inj hfill).symm⟩)

theorem fillPendingOrder_eq_some {db : Db} {order : Trade} {price : Quote} {maxOpenTrades now : Nat}
    {stmts : List Stmt} (hfill : fillPendingOrder db order price maxOpenTrades now = some stmts) :
    ∃ row, db.trade? order.id = some row ∧ row.status = .pending ∧
      ((∃ reason, stmts = [.cancelTrades (fun t => t.id = order.id) reason now]) ∨
        ∃ openPrice siblings, validatePendingTrigger db order maxOpenTrades = none ∧
          stmts = .fillTrade order.id openPrice now :: siblings ∧
          ∀ stmt ∈ siblings, ∃ cond reason, stmt = .cancelTrades cond reason now ∧
            ∀ t, cond t = true → t.status = .pending) := by
  obtain ⟨row, hrow, hpending, hstmts⟩ := fillPendingOrder_spec hfill
  refine ⟨row, hrow, hpending, ?_⟩
  obtain ⟨limitError, -, rfl⟩ | ⟨hvalid, -, rfl⟩ | ⟨group, hvalid, -, rfl⟩ := hstmts
  · exact .inl ⟨_, rfl⟩
  · exact .inr ⟨_, [], hvalid, rfl, fun _ h => nomatch h⟩
  · refine .inr ⟨_, _, hvalid, rfl, ?_⟩
    intro stmt hstmt
    rw [List.mem_singleton] at hstmt
    exact ⟨_, _, hstmt, fun t ht => by simpa using (of_decide_eq_true ht).2.2⟩

def pendingTriggered (order : Trade) (price : Quote) : Bool :=
  match order.orderType, order.pendingPrice with
  | .buyLimit, some level => price.ask ≤ level
  | .sellLimit, some level => level ≤ price.bid
  | .buyStop, some level => level ≤ price.ask
  | .sellStop, some level => price.bid ≤ level
  | _, _ => false

/-- The reason both engines cancel a pending order for before looking at its price. -/
def staleOrderReason (acc : Account) (now : Nat) : Option String :=
  if acc.status ≠ .active then some "Account inactive"
  else if acc.phaseEndDate.any (· ≤ now) then some "Challenge phase expired"
  else none

/-- What an engine does with one pending order: `order` and `acc` are what it read earlier, `scan`
the price it saw the order triggered at and `price` the one it fills at. -/
def processPendingOrder (db : Db) (order : Trade) (acc : Account) (scan price : Quote)
    (maxOpenTrades now : Nat) : Option (List Stmt) :=
  match staleOrderReason acc now with
  | some reason => some (cancelPendingOrder order.id reason now)
  | none =>
    if pendingTriggered order scan then fillPendingOrder db order price maxOpenTrades now else none

theorem processPendingOrder_eq_some {db : Db} {order : Trade} {acc : Account} {scan price : Quote}
    {maxOpenTrades now : Nat} {stmts : List Stmt}
    (hprocess : processPendingOrder db order acc scan price maxOpenTrades now = some stmts) :
    (∃ reason, staleOrderReason acc now = some reason ∧
        stmts = cancelPendingOrder order.id reason now) ∨
      (staleOrderReason acc now = none ∧ pendingTriggered order scan = true ∧
        fillPendingOrder db order price maxOpenTrades now = some stmts) := by
  unfold processPendingOrder at hprocess
  split at hprocess
  · rename_i reason hstale
    cases hprocess
    exact .inl ⟨reason, hstale, rfl⟩
  · rename_i hstale
    split at hprocess
    · rename_i htriggered
      exact .inr ⟨hstale, htriggered, hprocess⟩
    · cases hprocess

/-- One iteration of `checkPendingOrders`, which reads order and account in one query. -/
def checkPendingOrder (seen db : Db) (orderId : Nat) (price : Quote) (maxOpenTrades now : Nat) :
    Option (List Stmt) := do
  let order ← seen.trade? orderId
  let acc ← seen.account? order.accountId
  guard (order.status = .pending)
  processPendingOrder db order acc price price maxOpenTrades now

/-- One iteration of `fillTriggeredPendingOrders`: the order and its account are index entries, each
as old as the last write the index heard of. -/
def fillTriggeredPendingOrder (seenOrder seenAccount db : Db) (orderId : Nat) (scan price : Quote)
    (maxOpenTrades now : Nat) : Option (List Stmt) := do
  let order ← seenOrder.trade? orderId
  let acc ← seenAccount.account? order.accountId
  guard (order.status = .pending)
  guard (pendingTriggered order scan)
  processPendingOrder db order acc scan price maxOpenTrades now

end PropFirm
