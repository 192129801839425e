import PropFirm.TradeSystem
import Mathlib.Data.List.Dedup

/-!
# What a transaction can write

`World.Writes` is the inversion of `World.plan`: the shapes a transaction's statements take, with
everything the code has checked before it writes them. Every invariant of the system is proved from
these shapes and from the two halves of a terminal transaction, never from the transactions'
definitions.

`World.Valid` is the invariant that holds of every run whatsoever. A row read earlier is an earlier
version of the row that is there now, and what a terminal transaction has read is still true when it
commits, because whoever would change it waits for its locks.
-/

namespace PropFirm

/-- `t'` is a later version of the row `t`: a position never changes hands, and its open price is
settled once it is open. -/
structure Trade.Later (t t' : Trade) : Prop where
  id : t'.id = t.id
  accountId : t'.accountId = t.accountId
  instrument : t'.instrument = t.instrument
  direction : t'.direction = t.direction
  opened : t.status ≠ .pending → t'.status ≠ .pending ∧ t'.openPrice = t.openPrice

theorem Trade.Later.refl (t : Trade) : t.Later t := ⟨rfl, rfl, rfl, rfl, fun h => ⟨h, rfl⟩⟩

theorem Trade.Later.trans {t₁ t₂ t₃ : Trade} (h₁ : t₁.Later t₂) (h₂ : t₂.Later t₃) : t₁.Later t₃ where
  id := h₂.id.trans h₁.id
  accountId := h₂.accountId.trans h₁.accountId
  instrument := h₂.instrument.trans h₁.instrument
  direction := h₂.direction.trans h₁.direction
  opened hopen := by
    obtain ⟨hmid, hprice⟩ := h₁.opened hopen
    obtain ⟨hend, hprice'⟩ := h₂.opened hmid
    exact ⟨hend, hprice'.trans hprice⟩

structure Closing.Closes (c : Closing) (row : Trade) : Prop where
  later : c.trade.Later row
  opened : c.trade.status = .opened
  live : row.status ≠ .closed
  priced : c.Priced

structure Trade.Fresh (t : Trade) : Prop where
  status : t.status = .opened ∨ t.status = .pending
  lots : ∃ lots, isValidLotSize lots = true ∧ lotStepOk lots = true ∧ t.lotSize = toLots lots
  priced : t.status = .opened → t.openPrice.isSome

def creditedTo (credits : List (Nat × Cents)) (accountId : Nat) : Cents :=
  ((credits.filter fun credit => credit.1 = accountId).map Prod.snd).sum

def settledOn (closings : List Closing) (accountId : Nat) : Cents :=
  ((closings.filter fun c => c.trade.accountId = accountId).map Closing.pnl).sum

def creditStmts (credits : List (Nat × Cents)) : List Stmt :=
  credits.map fun credit => .creditAccount credit.1 credit.2

namespace World

/-- The order an engine cancels unconditionally, for what an earlier read told it. -/
def staleCancel (w : World) : Action → Option Nat
  | .checkPendingOrder asOf orderId _ _ => do
    let seen ← w.seen asOf
    let order ← seen.trade? orderId
    let acc ← seen.account? order.accountId
    let _ ← staleOrderReason acc w.clock
    some orderId
  | .fillTriggeredPendingOrder orderAsOf accountAsOf orderId _ _ _ => do
    let seenOrder ← w.seen orderAsOf
    let seenAccount ← w.seen accountAsOf
    let order ← seenOrder.trade? orderId
    let acc ← seenAccount.account? order.accountId
    let _ ← staleOrderReason acc w.clock
    some orderId
  | _ => none

/-- The order an engine means to fill, going by what it has read and by the account's other trades. -/
def fillsOrder (w : World) : Action → Option Nat
  | .checkPendingOrder asOf orderId price maxOpenTrades => do
    let seen ← w.seen asOf
    let order ← seen.trade? orderId
    let acc ← seen.account? order.accountId
    guard (staleOrderReason acc w.clock = none ∧ pendingTriggered order price ∧
      validatePendingTrigger w.db order maxOpenTrades = none)
    some orderId
  | .fillTriggeredPendingOrder orderAsOf accountAsOf orderId scan _ maxOpenTrades => do
    let seenOrder ← w.seen orderAsOf
    let seenAccount ← w.seen accountAsOf
    let order ← seenOrder.trade? orderId
    let acc ← seenAccount.account? order.accountId
    guard (staleOrderReason acc w.clock = none ∧ pendingTriggered order scan ∧
      validatePendingTrigger w.db order maxOpenTrades = none)
    some orderId
  | _ => none

def snapshots (w : World) : Action → List Trade
  | .checkSLTP _ asOf tradeId _ minHoldSeconds =>
    (((w.seen asOf).bind (seenOpenTrade · tradeId)).filter
      fun t => ¬ withinHoldWindow t minHoldSeconds w.clock).toList
  | .weekendClose _ asOf tradeId _ | .flatByClose _ asOf tradeId _ | .newsClose _ asOf tradeId _
  | .batchClose _ _ asOf tradeId _ => ((w.seen asOf).bind (seenOpenTrade · tradeId)).toList
  | .closeTriggeredTrades _ entries busy minHoldSeconds =>
    ((w.scanCandidates entries).map fun candidates =>
      (ownedCandidates w.db (w.lockedRows ++ busy) candidates minHoldSeconds w.clock).map
        SlTpCandidate.trade).getD []
  | _ => []

/-- Where the lots and commission of a full close come from: a row read earlier, the locked row, or
the locked row at the size the trader asked for. -/
inductive PricedFrom (w : World) : Action → Closing → Prop
  | snapshot {a : Action} {c : Closing} (hsnapshot : c.trade ∈ w.snapshots a) : PricedFrom w a c
  | locked {a : Action} {c : Closing} (hrow : w.db.trade? c.trade.id = some c.trade) : PricedFrom w a c
  | requested {fx : FxSource} {tradeId : Nat} {requested : Option ℚ} {closePrice minLotSize : ℚ}
      {partId : Nat} {row : Trade} {closeLots : ℚ} {c : Closing}
      (hrow : w.db.trade? c.trade.id = some row) (hmanual : ManualClose row requested closeLots)
      (hremain : roundLots (row.lotSize - closeLots) ≤ 0)
      (htrade : c.trade =
        { row with lotSize := closeLots, commission := partialCommission row closeLots }) :
    PricedFrom w (.closeTradeHandler fx tradeId requested closePrice minLotSize partId) c

/-- The shapes a transaction's statements take. -/
inductive Writes (w : World) : Action → List Stmt → Prop
  | provision {terms : AccountTerms} {id : Nat} :
    Writes w (.provision terms id) [.insertAccount (terms.provision id)]
  | order {a : Action} {acc : Account} {rows : List Trade} (hacc : w.db.account? acc.id = some acc)
      (hactive : acc.status = .active) (hfree : w.accountFree acc.id = true)
      (hrows : ∀ t ∈ rows, t.accountId = acc.id ∧ t.Fresh) : Writes w a (rows.map .insertTrade)
  | cancelStale {a : Action} {id : Nat} {reason : String} (hstale : w.staleCancel a = some id) :
    Writes w a [.cancelTrades (fun t => t.id = id) reason w.clock]
  | cancelPending {a : Action} {cond : Trade → Bool} {reason : String}
      (hpending : ∀ t ∈ w.db.trades.rows, cond t = true → t.status = .pending) :
    Writes w a [.cancelTrades cond reason w.clock]
  | fill {a : Action} {id : Nat} {openPrice : ℚ} {row : Trade} {siblings : List Stmt}
      (hfills : w.fillsOrder a = some id) (hrow : w.db.trade? id = some row)
      (hpending : row.status = .pending)
      (hsiblings : ∀ stmt ∈ siblings, ∃ cond reason, stmt = .cancelTrades cond reason w.clock ∧
        ∀ t, cond t = true → t.status = .pending) :
    Writes w a (.fillTrade id openPrice w.clock :: siblings)
  | defer {a : Action} {stmts : List Stmt}
      (hdefer : ∀ stmt ∈ stmts, ∃ id level reason, stmt = .deferTrade id level reason) :
    Writes w a stmts
  | close {a : Action} {closings : List Closing} {credits : List (Nat × Cents)} {clearDeferred : Bool}
      (hnodup : (closings.map fun c => c.trade.id).Nodup)
      (hclose : ∀ c ∈ closings, ∃ row, w.db.trade? c.trade.id = some row ∧ row.status = .opened ∧
        c.Closes row ∧ w.accountFree row.accountId = true)
      (hcredits : ∀ accountId, creditedTo credits accountId = settledOn closings accountId)
      (hfree : ∀ credit ∈ credits, w.accountFree credit.1 = true)
      (hfrom : ∀ c ∈ closings, w.PricedFrom a c) :
    Writes w a (.closeTrades closings w.clock clearDeferred :: creditStmts credits)
  | split {fx : FxSource} {tradeId : Nat} {requested : Option ℚ} {closePrice minLotSize : ℚ}
      {partId : Nat} {row : Trade} {closeLots : ℚ} {c : Closing}
      (hrow : w.db.trade? tradeId = some row) (hopen : row.status = .opened)
      (hfree : w.accountFree row.accountId = true) (hmanual : ManualClose row requested closeLots)
      (hremain : 0 < roundLots (row.lotSize - closeLots)) (hpriced : c.Priced)
      (htrade : c.trade =
        { row with lotSize := closeLots, commission := partialCommission row closeLots }) :
    Writes w (.closeTradeHandler fx tradeId requested closePrice minLotSize partId)
      [.splitTrade
        (partialCloseRow row partId closeLots closePrice (partialCommission row closeLots) c.pnl
          w.clock) c
        (toLots (roundLots (row.lotSize - closeLots)))
        (row.commission - partialCommission row closeLots),
        .creditAccount row.accountId c.pnl]
  | adjust {accountId : Nat} {amount : ℚ} {shiftAnchors : Bool}
      (hfree : w.accountFree accountId = true) :
    Writes w (.adjustBalance accountId amount shiftAnchors)
      [.adjustBalance accountId amount shiftAnchors]
  | lock {accountId : Nat} (hfree : w.accountFree accountId = true) :
    Writes w (.lockAccount accountId) [.setStatus accountId .locked]
  | restore {accountId : Nat} {acc : Account} (hfree : w.accountFree accountId = true)
      (hacc : w.db.account? accountId = some acc)
      (hstatus : acc.status = .failed ∨ acc.status = .locked) :
    Writes w (.restoreActive accountId) [.setStatus accountId .active]

/-- Every row of every earlier state is an earlier version of a row that is there now. -/
def HistoryLater (w : World) : Prop :=
  ∀ db ∈ w.history, ∀ t ∈ db.trades.rows, ∃ row, w.db.trade? t.id = some row ∧ t.Later row

theorem HistoryLater.seenOpenTrade {w : World} (hhistory : w.HistoryLater) {asOf tradeId : Nat}
    {seen : Db} {trade : Trade} (hseen : w.seen asOf = some seen)
    (htrade : seenOpenTrade seen tradeId = some trade) :
    trade.id = tradeId ∧ trade.status = .opened ∧
      ∃ row, w.db.trade? tradeId = some row ∧ trade.Later row := by
  obtain ⟨htrade, hopen⟩ := seenOpenTrade_eq_some.mp htrade
  obtain ⟨hmem, hid⟩ := Db.trade?_eq_some.mp htrade
  obtain ⟨row, hrow, hlater⟩ := hhistory seen (List.mem_of_getElem? hseen) trade hmem
  exact ⟨hid, hopen, row, hid ▸ hrow, hlater⟩

theorem accountOf_eq {w : World} {tradeId : Nat} {row : Trade}
    (hrow : w.db.trade? tradeId = some row) : w.accountOf tradeId = row.accountId := by
  simp [accountOf, hrow]

theorem whenFree_eq_some {w : World} {accountId : Nat} {x : Option (List Stmt)} {stmts : List Stmt} :
    w.whenFree accountId x = some stmts ↔ w.accountFree accountId = true ∧ x = some stmts := by
  unfold whenFree
  split <;> simp_all

theorem plan_checkPendingOrder {w : World} {asOf orderId maxOpenTrades : Nat} {price : Quote}
    {stmts : List Stmt} (hplan : w.plan (.checkPendingOrder asOf orderId price maxOpenTrades) = some stmts) :
    ∃ seen order acc, w.seen asOf = some seen ∧ seen.trade? orderId = some order ∧
      seen.account? order.accountId = some acc ∧
      processPendingOrder w.db order acc price price maxOpenTrades w.clock = some stmts := by
  simp only [plan, checkPendingOrder, Option.bind_eq_bind, Option.bind_eq_some_iff,
    Option.guard_eq_some', exists_const] at hplan
  obtain ⟨seen, hseen, _, order, horder, acc, hacc, _, hprocess⟩ := hplan
  exact ⟨seen, order, acc, hseen, horder, hacc, hprocess⟩

theorem plan_fillTriggeredPendingOrder {w : World} {orderAsOf accountAsOf orderId maxOpenTrades : Nat}
    {scan price : Quote} {stmts : List Stmt}
    (hplan : w.plan (.fillTriggeredPendingOrder orderAsOf accountAsOf orderId scan price maxOpenTrades)
      = some stmts) :
    ∃ seenOrder seenAccount order acc, w.seen orderAsOf = some seenOrder ∧
      w.seen accountAsOf = some seenAccount ∧ seenOrder.trade? orderId = some order ∧
      seenAccount.account? order.accountId = some acc ∧
      processPendingOrder w.db order acc scan price maxOpenTrades w.clock = some stmts := by
  simp only [plan, fillTriggeredPendingOrder, Option.bind_eq_bind, Option.bind_eq_some_iff,
    Option.guard_eq_some', exists_const] at hplan
  obtain ⟨seenOrder, hseenOrder, seenAccount, hseenAccount, _, order, horder, acc, hacc, _, _,
    hprocess⟩ := hplan
  exact ⟨seenOrder, seenAccount, order, acc, hseenOrder, hseenAccount, horder, hacc, hprocess⟩

theorem lockStatements_spec {w : World} {accountId : Nat} {stmts : List Stmt}
    (hlock : w.lockStatements accountId = some stmts) : stmts = [.setStatus accountId .locked] := by
  simp only [lockStatements, Option.bind_eq_bind, Option.bind_eq_some_iff, Option.some.injEq] at hlock
  obtain ⟨acc, hacc, rfl⟩ := hlock
  rw [Db.account?_id hacc]

theorem restoreStatements_spec {w : World} {accountId : Nat} {stmts : List Stmt}
    (hrestore : w.restoreStatements accountId = some stmts) :
    ∃ acc, w.db.account? accountId = some acc ∧ (acc.status = .failed ∨ acc.status = .locked) ∧
      stmts = [.setStatus accountId .active] := by
  simp only [restoreStatements, Option.bind_eq_bind, Option.bind_eq_some_iff, Option.guard_eq_some',
    exists_const, Option.some.injEq] at hrestore
  obtain ⟨acc, hacc, hstatus, rfl⟩ := hrestore
  exact ⟨acc, hacc, hstatus, by rw [Db.account?_id hacc]⟩

private theorem writes_closeOne {w : World} {a : Action} {c : Closing} {row : Trade}
    {clearDeferred : Bool} (hrow : w.db.trade? c.trade.id = some row) (hopen : row.status = .opened)
    (hcloses : c.Closes row) (hfree : w.accountFree row.accountId = true) (hfrom : w.PricedFrom a c) :
    Writes w a [.closeTrades [c] w.clock clearDeferred, .creditAccount c.trade.accountId c.pnl] := by
  refine @Writes.close _ _ [c] [(c.trade.accountId, c.pnl)] _ (by simp) ?_ ?_ ?_ ?_
  · intro c' hc'
    rw [List.mem_singleton] at hc'
    exact hc' ▸ ⟨row, hrow, hopen, hcloses, hfree⟩
  · intro accountId
    by_cases h : c.trade.accountId = accountId
    · simp [creditedTo, settledOn, h]
    · simp [creditedTo, settledOn, h]
  · intro credit hcredit
    rw [List.mem_singleton] at hcredit
    rw [hcredit]
    exact hcloses.later.accountId ▸ hfree
  · intro c' hc'
    rw [List.mem_singleton] at hc'
    exact hc' ▸ hfrom

private theorem writes_closeFromSnapshot {w : World} (hhistory : w.HistoryLater) {a : Action}
    {fx : FxSource} {asOf tradeId : Nat} {seen : Db} {trade : Trade} {closePrice : ℚ}
    {reason : String} {clearDeferred : Bool} {stmts : List Stmt} (hseen : w.seen asOf = some seen)
    (htrade : seenOpenTrade seen tradeId = some trade)
    (hclose : closeFromSnapshot fx w.db trade closePrice reason w.clock clearDeferred = some stmts)
    (hfree : w.accountFree (w.accountOf tradeId) = true) (hsnapshot : trade ∈ w.snapshots a) :
    Writes w a stmts := by
  obtain ⟨hid, hopened, row, hrow, hlater⟩ := hhistory.seenOpenTrade hseen htrade
  obtain ⟨row', c, hrow', hopen, rfl, hpriced, rfl⟩ := closeFromSnapshot_eq_some hclose
  have hsame : row' = row := by
    rw [hid, hrow] at hrow'
    exact (Option.some.inj hrow').symm
  subst hsame
  rw [accountOf_eq hrow] at hfree
  exact writes_closeOne hrow' hopen ⟨hlater, hopened, by simp [hopen], hpriced⟩ hfree
    (.snapshot hsnapshot)

private theorem writes_processPendingOrder {w : World} {a : Action} {order : Trade} {acc : Account}
    {scan price : Quote} {maxOpenTrades : Nat} {stmts : List Stmt}
    (hprocess : processPendingOrder w.db order acc scan price maxOpenTrades w.clock = some stmts)
    (hstale : ∀ reason, staleOrderReason acc w.clock = some reason →
      w.staleCancel a = some order.id)
    (hfills : staleOrderReason acc w.clock = none → pendingTriggered order scan = true →
      validatePendingTrigger w.db order maxOpenTrades = none → w.fillsOrder a = some order.id) :
    Writes w a stmts := by
  rcases processPendingOrder_eq_some hprocess with ⟨reason, hreason, rfl⟩ | ⟨hnone, htriggered, hfill⟩
  · exact .cancelStale (hstale reason hreason)
  · obtain ⟨row, hrow, hpending, ⟨reason, rfl⟩ | ⟨openPrice, siblings, hvalid, rfl, hsiblings⟩⟩ :=
      fillPendingOrder_eq_some hfill
    · refine .cancelPending fun t ht hcond => ?_
      have hid : t.id = order.id := of_decide_eq_true hcond
      have hfound : w.db.trade? order.id = some t := Db.trade?_eq_some.mpr ⟨ht, hid⟩
      rw [hrow] at hfound
      exact Option.some.inj hfound ▸ hpending
    · exact .fill (hfills hnone htriggered hvalid) hrow hpending hsiblings

theorem creditedTo_perAccountTotals (closings : List Closing) (accountId : Nat) :
    creditedTo (perAccountTotals closings) accountId = settledOn closings accountId := by
  unfold creditedTo perAccountTotals
  rw [List.filter_map, List.map_map]
  by_cases hmem : accountId ∈ closings.map fun c => c.trade.accountId
  · have hone : ((closings.map fun c => c.trade.accountId).dedup.filter
        fun id => decide (id = accountId)) = [accountId] := by
      have hcount := List.count_dedup (closings.map fun c => c.trade.accountId) accountId
      rw [if_pos hmem] at hcount
      have heq := List.filter_eq (l := (closings.map fun c => c.trade.accountId).dedup) accountId
      rw [hcount] at heq
      simpa using heq
    simp only [Function.comp_def]
    rw [hone]
    simp [settledOn]
  · have hnone : ((closings.map fun c => c.trade.accountId).dedup.filter
        fun id => decide (id = accountId)) = [] := by
      rw [List.filter_eq_nil_iff]
      intro id hid
      simpa using fun h : id = accountId => hmem (h ▸ List.mem_dedup.mp hid)
    have hclosings : (closings.filter fun c => c.trade.accountId = accountId) = [] := by
      rw [List.filter_eq_nil_iff]
      intro c hc
      simpa using fun h : c.trade.accountId = accountId =>
        hmem (List.mem_map.mpr ⟨c, hc, h⟩)
    simp only [Function.comp_def]
    rw [hnone]
    simp [settledOn, hclosings]

private theorem scanCandidates_later {w : World} (hhistory : w.HistoryLater)
    {entries : List (Nat × Nat × ℚ)} {candidates : List SlTpCandidate}
    (hscan : w.scanCandidates entries = some candidates) :
    (candidates.map fun c => c.trade.id).Nodup ∧
      ∀ c ∈ candidates, c.trade.status = .opened ∧
        ∃ row, w.db.trade? c.trade.id = some row ∧ c.trade.Later row := by
  simp only [scanCandidates, Option.bind_eq_bind, Option.bind_eq_some_iff, Option.guard_eq_some',
    exists_const] at hscan
  obtain ⟨hnodup, hmap⟩ := hscan
  have hentry : ∀ (entry : Nat × Nat × ℚ) (c : SlTpCandidate),
      ((w.seen entry.1).bind fun db => (seenOpenTrade db entry.2.1).bind
        fun trade => scanTrade trade entry.2.2) = some c →
      c.trade.id = entry.2.1 ∧ c.trade.status = .opened ∧
        ∃ row, w.db.trade? c.trade.id = some row ∧ c.trade.Later row := by
    intro entry c hc
    simp only [Option.bind_eq_some_iff] at hc
    obtain ⟨seen, hseen, trade, htrade, hc⟩ := hc
    obtain ⟨hid, hopened, row, hrow, hlater⟩ := hhistory.seenOpenTrade hseen htrade
    have hsame : c.trade = trade := by
      unfold scanTrade at hc
      split at hc
      · cases hc
        rfl
      · obtain ⟨trigger, _, rfl⟩ := Option.map_eq_some_iff.mp hc
        rfl
    rw [hsame, hid]
    exact ⟨rfl, hopened, row, hrow, hlater⟩
  constructor
  · have hids := List.map_eq_of_mapM_eq_some (g := fun entry : Nat × Nat × ℚ => entry.2.1)
      (h := fun c : SlTpCandidate => c.trade.id) hmap fun entry c hc => (hentry entry c hc).1
    exact hids ▸ hnodup
  · intro c hc
    obtain ⟨entry, _, hentry'⟩ := List.exists_of_mem_mapM hmap hc
    exact (hentry entry c hentry').2

private theorem order_fresh {req : OrderRequest}
    (hvalid : isValidLotSize req.lots = true ∧ lotStepOk req.lots = true) {t : Trade}
    (hlots : t.lotSize = toLots req.lots)
    (hstatus : t.status = .opened ∨ t.status = .pending)
    (hpriced : t.status = .opened → t.openPrice.isSome) : t.Fresh :=
  ⟨hstatus, ⟨req.lots, hvalid.1, hvalid.2, hlots⟩, hpriced⟩

private theorem writes_openTrade {w : World} {req : OrderRequest} {id : Nat} {openPrice : ℚ}
    {stmts : List Stmt} (hplan : w.plan (.openTrade req id openPrice) = some stmts) :
    w.Writes (.openTrade req id openPrice) stmts := by
  obtain ⟨hfree, hplan⟩ := whenFree_eq_some.mp hplan
  obtain ⟨acc, hacc, ⟨hactive, hvalid⟩, rfl⟩ := openTrade_spec hplan
  have hid : acc.id = req.accountId := Db.account?_id hacc
  refine @Writes.order _ _ _ [_] (hid ▸ hacc) hactive (hid ▸ hfree) fun t ht => ?_
  rw [List.mem_singleton] at ht
  subst ht
  exact ⟨hid.symm, order_fresh hvalid rfl (.inl rfl) fun _ => rfl⟩

private theorem writes_placePendingOrder {w : World} {req : OrderRequest} {leg : PendingLeg}
    {sibling : Option (PendingLeg × Nat)} {stmts : List Stmt}
    (hplan : w.plan (.placePendingOrder req leg sibling) = some stmts) :
    w.Writes (.placePendingOrder req leg sibling) stmts := by
  obtain ⟨hfree, hplan⟩ := whenFree_eq_some.mp hplan
  obtain ⟨acc, hacc, ⟨hactive, hvalid⟩, hstmts⟩ := placePendingOrder_spec hplan
  have hid : acc.id = req.accountId := Db.account?_id hacc
  have hleg : ∀ leg group, (req.pendingRow leg group).accountId = acc.id ∧
      (req.pendingRow leg group).Fresh := fun leg group =>
    ⟨hid.symm, order_fresh hvalid rfl (.inr rfl) nofun⟩
  obtain ⟨rfl, rfl⟩ | ⟨second, group, rfl, rfl⟩ := hstmts
  · refine @Writes.order _ _ _ [_] (hid ▸ hacc) hactive (hid ▸ hfree) fun t ht => ?_
    rw [List.mem_singleton] at ht
    exact ht ▸ hleg leg none
  · refine @Writes.order _ _ _ [_, _] (hid ▸ hacc) hactive (hid ▸ hfree) fun t ht => ?_
    rcases List.mem_cons.mp ht with rfl | ht
    · exact hleg leg (some group)
    · rw [List.mem_singleton] at ht
      exact ht ▸ hleg second (some group)

private theorem writes_checkSLTP {w : World} (hhistory : w.HistoryLater) {fx : FxSource}
    {asOf tradeId : Nat} {price : Quote} {minHoldSeconds : Nat} {stmts : List Stmt}
    (hplan : w.plan (.checkSLTP fx asOf tradeId price minHoldSeconds) = some stmts) :
    w.Writes (.checkSLTP fx asOf tradeId price minHoldSeconds) stmts := by
  simp only [plan, Option.bind_eq_bind, Option.bind_eq_some_iff, Option.guard_eq_some',
    exists_const] at hplan
  obtain ⟨seen, hseen, _, hplan⟩ := hplan
  obtain ⟨hfree, hplan⟩ := whenFree_eq_some.mp hplan
  obtain ⟨trade, htrade, ⟨level, reason, rfl⟩ | ⟨hwindow, closePrice, reason, hclose⟩⟩ :=
    checkSLTP_eq_some hplan
  · refine .defer fun stmt hstmt => ?_
    rw [List.mem_singleton] at hstmt
    exact ⟨_, _, _, hstmt⟩
  · exact writes_closeFromSnapshot hhistory hseen htrade hclose hfree
      (by simp [snapshots, hseen, htrade, hwindow])

private theorem writes_closeTriggeredTrades {w : World} (hhistory : w.HistoryLater) {fx : FxSource}
    {entries : List (Nat × Nat × ℚ)} {busy : List Nat} {minHoldSeconds : Nat} {stmts : List Stmt}
    (hplan : w.plan (.closeTriggeredTrades fx entries busy minHoldSeconds) = some stmts) :
    w.Writes (.closeTriggeredTrades fx entries busy minHoldSeconds) stmts := by
  simp only [plan, Option.bind_eq_bind, Option.bind_eq_some_iff, Option.guard_eq_some',
    exists_const, Option.some.injEq] at hplan
  obtain ⟨candidates, hscan, stmts', hclose, hfree, rfl⟩ := hplan
  obtain ⟨closings, htrades, hpriced, rfl⟩ := closeTriggeredTrades_eq_some hclose
  obtain ⟨hnodup, hlater⟩ := scanCandidates_later hhistory hscan
  have howned : ∀ c ∈ closings, ∃ candidate ∈ ownedCandidates w.db (w.lockedRows ++ busy) candidates
      minHoldSeconds w.clock, c.trade = candidate.trade := by
    intro c hc
    have hmem : c.trade ∈ closings.map Closing.trade := List.mem_map_of_mem hc
    rw [htrades] at hmem
    obtain ⟨candidate, hcandidate, heq⟩ := List.mem_map.mp hmem
    exact ⟨candidate, hcandidate, heq.symm⟩
  have hrow : ∀ c ∈ closings, ∃ row, w.db.trade? c.trade.id = some row ∧ row.status = .opened ∧
      c.Closes row ∧ w.accountFree row.accountId = true := by
    intro c hc
    obtain ⟨candidate, hcandidate, heq⟩ := howned c hc
    obtain ⟨hmem, _, row, hrow, hopen⟩ := mem_ownedCandidates hcandidate
    obtain ⟨hopened, row', hrow', hlaterRow⟩ := hlater candidate hmem
    obtain rfl : row = row' := Option.some.inj (hrow.symm.trans hrow')
    rw [heq]
    refine ⟨row, hrow, hopen, ⟨heq ▸ hlaterRow, heq ▸ hopened, by simp [hopen], hpriced c hc⟩, ?_⟩
    exact hlaterRow.accountId ▸ hfree candidate hcandidate
  refine .close ?_ hrow (creditedTo_perAccountTotals closings) ?_ fun c hc => .snapshot ?_
  · have hids : (closings.map fun c => c.trade.id)
        = (ownedCandidates w.db (w.lockedRows ++ busy) candidates minHoldSeconds w.clock).map
          fun c => c.trade.id := by
      have h := congrArg (List.map Trade.id) htrades
      simpa [List.map_map, Function.comp_def] using h
    rw [hids]
    exact hnodup.sublist (List.filter_sublist.map _)
  · intro credit hcredit
    simp only [perAccountTotals, List.mem_map, List.mem_dedup] at hcredit
    obtain ⟨accountId, ⟨c, hc, hid⟩, rfl⟩ := hcredit
    obtain ⟨row, _, _, hcloses, hfreeRow⟩ := hrow c hc
    rw [hcloses.later.accountId, hid] at hfreeRow
    exact hfreeRow
  · rw [snapshots, hscan, Option.map_some, Option.getD_some, ← htrades]
    exact List.mem_map_of_mem hc

private theorem writes_closeTradeHandler {w : World} {fx : FxSource} {tradeId : Nat}
    {requested : Option ℚ} {closePrice minLotSize : ℚ} {partId : Nat} {stmts : List Stmt}
    (hplan : w.plan (.closeTradeHandler fx tradeId requested closePrice minLotSize partId)
      = some stmts) :
    w.Writes (.closeTradeHandler fx tradeId requested closePrice minLotSize partId) stmts := by
  obtain ⟨hfree, hplan⟩ := whenFree_eq_some.mp hplan
  obtain ⟨row, closeLots, c, hrow, hopen, hmanual, hpriced, htrade,
    ⟨hremain, rfl⟩ | ⟨hremain, rfl⟩⟩ := closeTradeHandler_eq_some hplan
  · rw [accountOf_eq hrow] at hfree
    exact .split hrow hopen hfree hmanual hremain hpriced htrade
  · rw [accountOf_eq hrow] at hfree
    have hid : c.trade.id = row.id := by rw [htrade]
    have haccount : c.trade.accountId = row.accountId := by rw [htrade]
    have hrow' : w.db.trade? c.trade.id = some row := by
      rw [hid, Db.trade?_id hrow]
      exact hrow
    have hlater : c.trade.Later row := by
      rw [htrade]
      exact ⟨rfl, rfl, rfl, rfl, fun h => ⟨h, rfl⟩⟩
    have hopened : c.trade.status = .opened := by
      rw [htrade]
      exact hopen
    rw [← haccount]
    exact writes_closeOne hrow' hopen ⟨hlater, hopened, by simp [hopen], hpriced⟩ hfree
      (.requested hrow' hmanual hremain htrade)

theorem plan_writes {w : World} (hhistory : w.HistoryLater) {a : Action} {stmts : List Stmt}
    (hplan : w.plan a = some stmts) : w.Writes a stmts := by
  cases a with
  | provision terms id =>
    cases hplan
    exact .provision
  | openTrade => exact writes_openTrade hplan
  | placePendingOrder => exact writes_placePendingOrder hplan
  | checkPendingOrder asOf orderId price maxOpenTrades =>
    obtain ⟨seen, order, acc, hseen, horder, hacc, hprocess⟩ := plan_checkPendingOrder hplan
    have hid : order.id = orderId := Db.trade?_id horder
    refine writes_processPendingOrder hprocess (fun reason hreason => ?_)
      fun hnone htriggered hvalid => ?_
    · simp [staleCancel, hseen, horder, hacc, hreason, hid]
    · simp [fillsOrder, hseen, horder, hacc, hnone, htriggered, hvalid, hid]
  | fillTriggeredPendingOrder orderAsOf accountAsOf orderId scan price maxOpenTrades =>
    obtain ⟨seenOrder, seenAccount, order, acc, hseenOrder, hseenAccount, horder, hacc, hprocess⟩ :=
      plan_fillTriggeredPendingOrder hplan
    have hid : order.id = orderId := Db.trade?_id horder
    refine writes_processPendingOrder hprocess (fun reason hreason => ?_)
      fun hnone htriggered hvalid => ?_
    · simp [staleCancel, hseenOrder, hseenAccount, horder, hacc, hreason, hid]
    · simp [fillsOrder, hseenOrder, hseenAccount, horder, hacc, hnone, htriggered, hvalid, hid]
  | cancelTradeHandler orderId =>
    cases hplan
    exact .cancelPending fun t _ ht => (of_decide_eq_true ht).2
  | weekendCancel orderId =>
    cases hplan
    exact .cancelPending fun t _ ht => (of_decide_eq_true ht).2
  | checkSLTP => exact writes_checkSLTP hhistory hplan
  | recordDeferredTriggers entries minHoldSeconds =>
    simp only [plan, Option.bind_eq_bind, Option.bind_eq_some_iff, Option.guard_eq_some',
      exists_const, Option.some.injEq] at hplan
    obtain ⟨candidates, _, _, rfl⟩ := hplan
    refine .defer fun stmt hstmt => ?_
    obtain ⟨c, _, hc⟩ := List.mem_filterMap.mp hstmt
    split at hc
    · obtain ⟨level, _, rfl⟩ := Option.map_eq_some_iff.mp hc
      exact ⟨_, _, _, rfl⟩
    · cases hc
  | closeTriggeredTrades => exact writes_closeTriggeredTrades hhistory hplan
  | weekendClose fx asOf tradeId price | flatByClose fx asOf tradeId price
  | newsClose fx asOf tradeId price =>
    simp only [plan, weekendClose, flatByClose, newsClose, Option.bind_eq_bind,
      Option.bind_eq_some_iff] at hplan
    obtain ⟨seen, hseen, hplan⟩ := hplan
    obtain ⟨hfree, hplan⟩ := whenFree_eq_some.mp hplan
    obtain ⟨trade, closePrice, reason, htrade, hclose⟩ := marketClose_eq_some hplan
    exact writes_closeFromSnapshot hhistory hseen htrade hclose hfree
      (by simp [snapshots, hseen, htrade])
  | batchClose action fx asOf tradeId price =>
    simp only [plan, Option.bind_eq_bind, Option.bind_eq_some_iff] at hplan
    obtain ⟨seen, hseen, hplan⟩ := hplan
    obtain ⟨hfree, hplan⟩ := whenFree_eq_some.mp hplan
    obtain ⟨trade, closePrice, reason, htrade, hclose⟩ := batchClose_eq_some hplan
    exact writes_closeFromSnapshot hhistory hseen htrade hclose hfree
      (by simp [snapshots, hseen, htrade])
  | closeTradeHandler => exact writes_closeTradeHandler hplan
  | forceCloseTradeById tradeId livePrice =>
    obtain ⟨hfree, hplan⟩ := whenFree_eq_some.mp hplan
    obtain ⟨row, c, hrow, hopen, rfl, hpriced, rfl⟩ := forceCloseTradeById_eq_some hplan
    rw [accountOf_eq hrow] at hfree
    have hrow' : w.db.trade? c.trade.id = some c.trade := by
      rw [Db.trade?_id hrow]
      exact hrow
    exact writes_closeOne hrow' hopen
      ⟨.refl _, hopen, by simp [hopen], fun p hp => by simp [hpriced] at hp⟩ hfree (.locked hrow')
  | adjustBalance accountId amount shiftAnchors =>
    obtain ⟨hfree, hplan⟩ := whenFree_eq_some.mp hplan
    cases hplan
    exact .adjust hfree
  | lockAccount accountId =>
    obtain ⟨hfree, hplan⟩ := whenFree_eq_some.mp hplan
    obtain rfl := lockStatements_spec hplan
    exact .lock hfree
  | restoreActive accountId =>
    obtain ⟨hfree, hplan⟩ := whenFree_eq_some.mp hplan
    obtain ⟨acc, hacc, hstatus, rfl⟩ := restoreStatements_spec hplan
    exact .restore hfree hacc hstatus
  | beginSettle | checkFloatingDrawdown | settleAccountOutcomes | processAccount | commitSettle
  | abortSettle | tick => cases hplan

end World

end PropFirm
