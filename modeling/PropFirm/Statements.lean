import PropFirm.DrawdownService
import PropFirm.Lib.Transition

/-!
# The statements transactions are made of

A transaction of the program reads some rows and then writes; what it writes is a list of the SQL
statements below, executed in order against the committed state. A statement that violates a
constraint fails, which is `none` and rolls the whole transaction back. `closeTrades` is the bulk
`UPDATE … FROM` over a set of settled positions, and `cancelTrades` every update that cancels orders,
whatever its `WHERE` clause; the updates by id are their single-row cases.
-/

namespace PropFirm

/-- A position settled at a price: the row it was priced from and the outcome to write. -/
structure Closing where
  trade : Trade
  closePrice : Option ℚ
  pnl : Cents
  reason : String
  priced : Option PricedAt

def PricedAt.pnl (p : PricedAt) (lots : ℚ) (commission : Cents) : Option Cents :=
  calculatePnL p.fx p.direction p.openPrice p.closePrice lots p.instrument commission

/-- The inputs are those of the given row. -/
def PricedAt.ReadFrom (p : PricedAt) (t : Trade) : Prop :=
  p.direction = t.direction ∧ p.instrument = t.instrument ∧ t.openPrice = some p.openPrice

/-- Settle a row at a price with `calculatePnL`; a missing dollar rate throws. -/
def priceClosing (fx : FxSource) (trade : Trade) (closePrice : ℚ) (reason : String) : Option Closing := do
  let openPrice ← trade.openPrice
  let pnl ← calculatePnL fx trade.direction openPrice closePrice trade.lotSize trade.instrument
    trade.commission
  some ⟨trade, some closePrice, pnl, reason,
    some ⟨fx, trade.direction, trade.instrument, openPrice, closePrice⟩⟩

/-- A closing's profit is the one its recorded inputs give the lots and commission it was priced
with, and those inputs are read from its row. -/
def Closing.Priced (c : Closing) : Prop :=
  ∀ p, c.priced = some p → p.ReadFrom c.trade ∧ p.pnl c.trade.lotSize c.trade.commission = some c.pnl

theorem priceClosing_spec {fx : FxSource} {trade : Trade} {closePrice : ℚ} {reason : String}
    {c : Closing} (hprice : priceClosing fx trade closePrice reason = some c) :
    ∃ openPrice pnl, trade.openPrice = some openPrice ∧
      calculatePnL fx trade.direction openPrice closePrice trade.lotSize trade.instrument trade.commission
        = some pnl ∧
      c = ⟨trade, some closePrice, pnl, reason,
        some ⟨fx, trade.direction, trade.instrument, openPrice, closePrice⟩⟩ := by
  simp only [priceClosing, Option.bind_eq_bind, Option.bind_eq_some_iff, Option.some.injEq] at hprice
  obtain ⟨openPrice, hopen, pnl, hpnl, hc⟩ := hprice
  exact ⟨openPrice, pnl, hopen, hpnl, hc.symm⟩

theorem priceClosing_eq_some {fx : FxSource} {trade : Trade} {closePrice : ℚ} {reason : String}
    {c : Closing} (hprice : priceClosing fx trade closePrice reason = some c) :
    c.trade = trade ∧ c.Priced := by
  obtain ⟨openPrice, pnl, hopen, hpnl, rfl⟩ := priceClosing_spec hprice
  refine ⟨rfl, ?_⟩
  rintro p ⟨⟩
  exact ⟨⟨rfl, rfl, hopen⟩, hpnl⟩

/-- `settlementFor`: without a live price the position settles flat at its open price. -/
def settlementFor (fx : FxSource) (price : Option Quote) (reason : String) (trade : Trade) :
    Option Closing :=
  match price with
  | none => trade.openPrice.map fun openPrice => ⟨trade, some openPrice, 0, reason, none⟩
  | some price => priceClosing fx trade (price.closeSide trade.direction) reason

theorem settlementFor_eq_some {fx : FxSource} {price : Option Quote} {reason : String} {trade : Trade}
    {c : Closing} (hsettle : settlementFor fx price reason trade = some c) :
    c.trade = trade ∧ c.Priced := by
  cases price with
  | none =>
    obtain ⟨openPrice, _, rfl⟩ := Option.map_eq_some_iff.mp hsettle
    exact ⟨rfl, fun p hp => nomatch hp⟩
  | some price => exact priceClosing_eq_some hsettle

inductive Stmt
  | insertAccount (acc : Account)
  | insertTrade (trade : Trade)
  | fillTrade (id : Nat) (openPrice : ℚ) (now : Nat)
  | cancelTrades (cond : Trade → Bool) (reason : String) (now : Nat)
  | deferTrade (id : Nat) (level : ℚ) (reason : String)
  | closeTrades (closings : List Closing) (now : Nat) (clearDeferred : Bool)
  | splitTrade (part : Trade) (closing : Closing) (lots : ℚ) (commission : Cents)
  | creditAccount (id : Nat) (amount : Cents)
  | adjustBalance (id : Nat) (amount : ℚ) (shiftAnchors : Bool)
  | setStatus (id : Nat) (status : AccountStatus)
  | raiseAnchors (id : Nat) (resolution : DrawdownResolution)

namespace Db

/-- The log entry of a full close, beside what the locked row holds. -/
def closeBooking (db : Db) (c : Closing) : Booking where
  tradeId := c.trade.id
  positionId := c.trade.id
  accountId := c.trade.accountId
  lots := c.trade.lotSize
  commission := c.trade.commission
  pnl := c.pnl
  heldLots := ((db.trade? c.trade.id).map Trade.lotSize).getD 0
  heldCommission := ((db.trade? c.trade.id).map Trade.commission).getD 0
  priced := c.priced

/-- The log entry of a partial close, beside what the locked row gives up. -/
def splitBooking (db : Db) (part : Trade) (c : Closing) (lots : ℚ) (commission : Cents) : Booking :=
  { db.closeBooking c with
    tradeId := part.id
    heldLots := (db.closeBooking c).heldLots - lots
    heldCommission := (db.closeBooking c).heldCommission - commission }

end Db

/-- `Math.round`. -/
def jsRound (x : ℚ) : Int := ⌊x + 1 / 2⌋

/-- The row update of a balance adjustment, with the drawdown anchor shifted by the same amount. -/
def Account.adjusted (amount : ℚ) (shiftAnchors : Bool) : Table.Rewrite Account where
  apply a :=
    let balance := toCents (a.currentBalance.dollars + amount)
    { a with
      currentBalance := balance
      peakBalance := max a.peakBalance balance
      eodPeakEquity :=
        if shiftAnchors then
          some (max (toCents ((a.eodPeakEquity.getD a.startingBalance).dollars + amount)) 0)
        else a.eodPeakEquity }
  key_apply _ := rfl

def Stmt.exec (db : Db) : Stmt → Option Db
  | insertAccount acc => (db.accounts.insert? acc).map fun accounts => { db with accounts := accounts }
  | insertTrade trade => (db.trades.insert? trade).map fun trades =>
    { db with trades := trades, openedLots := ⟨trade.id, trade.lotSize⟩ :: db.openedLots }
  | fillTrade id openPrice now =>
    some { db with trades := db.trades.updateAt id (Trade.filledAt openPrice now) }
  | cancelTrades cond reason now =>
    some { db with trades := db.trades.update cond (Trade.cancelledAt reason now) }
  | deferTrade id level reason =>
    let cond := fun t : Trade => decide (t.id = id ∧ t.status = .opened ∧ t.pendingClosePrice = none)
    some { db with trades := db.trades.update cond (Trade.deferredTo level reason) }
  | closeTrades closings now clearDeferred =>
    let close := fun c : Closing => Trade.closedAt c.closePrice c.pnl c.reason now clearDeferred
    some
      { db with
        trades := db.trades.updateFrom closings (fun c => c.trade.id) close
        booked := closings.map db.closeBooking ++ db.booked }
  | splitTrade part closing lots commission =>
    ((db.trades.updateAt closing.trade.id (Trade.resized lots commission)).insert? part).map
      fun trades =>
        { db with
          trades := trades
          booked := db.splitBooking part closing lots commission :: db.booked }
  | creditAccount id amount =>
    some { db with accounts := db.accounts.updateAt id (Account.credited amount) }
  | adjustBalance id amount shiftAnchors =>
    -- the ledger refuses an amount that rounds to nothing, and an account that is not there
    if toCents amount = 0 then none
    else (db.account? id).map fun acc =>
      let balanceAfter := toCents (acc.currentBalance.dollars + amount)
      { db with
        accounts := db.accounts.updateAt id (Account.adjusted amount shiftAnchors)
        adjustments :=
          { accountId := id
            amount := toCents amount
            balanceBefore := jsRound ((balanceAfter.dollars - amount) * 100)
            balanceAfter := balanceAfter } :: db.adjustments }
  | setStatus id status =>
    some { db with accounts := db.accounts.updateAt id (Account.withStatus status) }
  | raiseAnchors id resolution =>
    some { db with accounts := db.accounts.updateAt id (Account.anchored resolution) }

/-- Execute the statements of a transaction in order; one failure rolls all of them back. -/
def execAll (db : Db) (stmts : List Stmt) : Option Db :=
  Transition.run (fun db stmt => stmt.exec db) db stmts

theorem execAll_pair {first second : Stmt} {db db' : Db} :
    execAll db [first, second] = some db' ↔
      ∃ mid, first.exec db = some mid ∧ second.exec mid = some db' := by
  simp only [execAll, Transition.run, Option.bind_eq_some_iff, Option.some.injEq, exists_eq_right]

theorem execAll_isSome {stmts : List Stmt} {db : Db}
    (hstmts : ∀ stmt ∈ stmts, ∀ db : Db, (stmt.exec db).isSome) : (execAll db stmts).isSome := by
  induction stmts generalizing db with
  | nil => rfl
  | cons stmt stmts ih =>
    obtain ⟨mid, hmid⟩ := Option.isSome_iff_exists.mp (hstmts stmt List.mem_cons_self db)
    rw [execAll, Transition.run, hmid]
    exact ih fun s hs => hstmts s (List.mem_cons_of_mem _ hs)

/-! ### What a statement does to the rows -/

namespace Stmt

/-- What a statement turns a row of `trades` into. -/
def rowUpdate : Stmt → Trade → Trade
  | fillTrade id openPrice now, t => if t.id = id then (Trade.filledAt openPrice now).apply t else t
  | cancelTrades cond reason now, t => if cond t then (Trade.cancelledAt reason now).apply t else t
  | deferTrade id level reason, t =>
    if t.id = id ∧ t.status = .opened ∧ t.pendingClosePrice = none then
      (Trade.deferredTo level reason).apply t
    else t
  | closeTrades closings now clearDeferred, t =>
    (closings.find? fun c => c.trade.id = t.id).elim t fun c =>
      (Trade.closedAt c.closePrice c.pnl c.reason now clearDeferred).apply t
  | splitTrade _ closing lots commission, t =>
    if t.id = closing.trade.id then (Trade.resized lots commission).apply t else t
  | _, t => t

def insertedTrades : Stmt → List Trade
  | insertTrade trade => [trade]
  | splitTrade part _ _ _ => [part]
  | _ => []

def accountUpdate : Stmt → Account → Account
  | creditAccount id amount, a => if a.id = id then (Account.credited amount).apply a else a
  | adjustBalance id amount shiftAnchors, a =>
    if a.id = id then (Account.adjusted amount shiftAnchors).apply a else a
  | setStatus id status, a => if a.id = id then (Account.withStatus status).apply a else a
  | raiseAnchors id resolution, a => if a.id = id then (Account.anchored resolution).apply a else a
  | _, a => a

def insertedAccounts : Stmt → List Account
  | insertAccount acc => [acc]
  | _ => []

private theorem map_fixed {α : Type} {f : α → α} (hfixed : ∀ r, f r = r) (rows : List α) :
    rows.map f = rows :=
  (List.map_congr_left fun r _ => hfixed r).trans (List.map_id rows)

/-- A statement inserts its rows, whose ids are new, and rewrites the others one by one. -/
theorem exec_trades {db db' : Db} {stmt : Stmt} (hexec : stmt.exec db = some db') :
    db'.trades.rows = stmt.insertedTrades ++ db.trades.rows.map stmt.rowUpdate := by
  cases stmt with
  | insertTrade trade =>
    obtain ⟨trades, hinsert, rfl⟩ := Option.map_eq_some_iff.mp hexec
    have hsame := map_fixed (f := (insertTrade trade).rowUpdate) (fun _ => rfl) db.trades.rows
    rw [hsame]
    exact (Table.insert?_eq_some hinsert).2
  | splitTrade part closing lots commission =>
    obtain ⟨trades, hinsert, rfl⟩ := Option.map_eq_some_iff.mp hexec
    rw [(Table.insert?_eq_some hinsert).2, Table.updateAt, Table.rows_update]
    simp [insertedTrades, rowUpdate, Keyed.key]
  | insertAccount acc =>
    obtain ⟨accounts, _, rfl⟩ := Option.map_eq_some_iff.mp hexec
    exact (map_fixed (fun _ => rfl) db.trades.rows).symm
  | adjustBalance id amount shiftAnchors =>
    simp only [exec] at hexec
    split at hexec
    · cases hexec
    · obtain ⟨acc, _, rfl⟩ := Option.map_eq_some_iff.mp hexec
      exact (map_fixed (fun _ => rfl) db.trades.rows).symm
  | creditAccount | setStatus | raiseAnchors =>
    cases hexec
    exact (map_fixed (fun _ => rfl) db.trades.rows).symm
  | fillTrade | cancelTrades | deferTrade | closeTrades =>
    cases hexec
    simp [insertedTrades, rowUpdate, Table.updateAt, Table.rows_update, Table.updateFrom, Keyed.key]

theorem exec_accounts {db db' : Db} {stmt : Stmt} (hexec : stmt.exec db = some db') :
    db'.accounts.rows = stmt.insertedAccounts ++ db.accounts.rows.map stmt.accountUpdate := by
  cases stmt with
  | insertAccount acc =>
    obtain ⟨accounts, hinsert, rfl⟩ := Option.map_eq_some_iff.mp hexec
    have hsame := map_fixed (f := (insertAccount acc).accountUpdate) (fun _ => rfl) db.accounts.rows
    rw [hsame]
    exact (Table.insert?_eq_some hinsert).2
  | insertTrade | splitTrade =>
    obtain ⟨trades, _, rfl⟩ := Option.map_eq_some_iff.mp hexec
    exact (map_fixed (fun _ => rfl) db.accounts.rows).symm
  | adjustBalance id amount shiftAnchors =>
    simp only [exec] at hexec
    split at hexec
    · cases hexec
    · obtain ⟨acc, _, rfl⟩ := Option.map_eq_some_iff.mp hexec
      simp [insertedAccounts, accountUpdate, Table.updateAt, Table.rows_update, Keyed.key]
  | creditAccount | setStatus | raiseAnchors =>
    cases hexec
    simp [insertedAccounts, accountUpdate, Table.updateAt, Table.rows_update, Keyed.key]
  | fillTrade | cancelTrades | deferTrade | closeTrades =>
    cases hexec
    exact (map_fixed (fun _ => rfl) db.accounts.rows).symm

/-- A row is opened by a fill and by nothing else. -/
theorem rowUpdate_opened {stmt : Stmt} {t : Trade} (hopen : (stmt.rowUpdate t).status = .opened) :
    (t.status = .opened ∧ (stmt.rowUpdate t).openPrice = t.openPrice) ∨
      ∃ openPrice now, stmt = .fillTrade t.id openPrice now := by
  cases stmt with
  | fillTrade id openPrice now =>
    by_cases hid : t.id = id
    · exact .inr ⟨openPrice, now, by rw [hid]⟩
    · simp only [rowUpdate, if_neg hid] at hopen ⊢
      exact .inl ⟨hopen, trivial⟩
  | closeTrades closings now clear =>
    simp only [rowUpdate] at hopen ⊢
    cases hfind : closings.find? fun c => c.trade.id = t.id with
    | none =>
      rw [hfind] at hopen
      exact .inl ⟨hopen, rfl⟩
    | some c =>
      rw [hfind] at hopen
      cases hopen
  | cancelTrades cond reason now =>
    by_cases hcond : cond t = true
    · simp only [rowUpdate, if_pos hcond] at hopen
      cases hopen
    · simp only [rowUpdate, if_neg hcond] at hopen ⊢
      exact .inl ⟨hopen, trivial⟩
  | deferTrade | splitTrade =>
    simp only [rowUpdate] at hopen ⊢
    split at hopen
    all_goals exact .inl ⟨hopen, by split <;> rfl⟩
  | insertAccount | insertTrade | creditAccount | adjustBalance | setStatus | raiseAnchors =>
    exact .inl ⟨hopen, rfl⟩

theorem rowUpdate_opened_of_ne {stmt : Stmt} (hne : ∀ id openPrice now, stmt ≠ .fillTrade id openPrice now)
    {t : Trade} (hopen : (stmt.rowUpdate t).status = .opened) :
    t.status = .opened ∧ (stmt.rowUpdate t).openPrice = t.openPrice := by
  rcases rowUpdate_opened hopen with h | ⟨openPrice, now, h⟩
  · exact h
  · exact absurd h (hne t.id openPrice now)

theorem rowUpdate_pending {stmt : Stmt} {t : Trade} (hpending : (stmt.rowUpdate t).status = .pending) :
    t.status = .pending := by
  cases stmt with
  | closeTrades closings now clear =>
    simp only [rowUpdate] at hpending
    cases hfind : closings.find? fun c => c.trade.id = t.id with
    | none =>
      rw [hfind] at hpending
      exact hpending
    | some c =>
      rw [hfind] at hpending
      cases hpending
  | fillTrade | cancelTrades =>
    simp only [rowUpdate] at hpending
    split at hpending
    · cases hpending
    · exact hpending
  | deferTrade | splitTrade =>
    simp only [rowUpdate] at hpending
    split at hpending <;> exact hpending
  | insertAccount | insertTrade | creditAccount | adjustBalance | setStatus | raiseAnchors =>
    exact hpending

theorem rowUpdate_closeTrades {closings : List Closing} {now : Nat} {clearDeferred : Bool}
    (hnodup : (closings.map fun c => c.trade.id).Nodup) {c : Closing} (hc : c ∈ closings) {t : Trade}
    (hid : c.trade.id = t.id) :
    (closeTrades closings now clearDeferred).rowUpdate t
      = (Trade.closedAt c.closePrice c.pnl c.reason now clearDeferred).apply t := by
  rw [rowUpdate, (List.find?_key_eq_some hnodup).mpr ⟨hc, hid⟩, Option.elim_some]

theorem rowUpdate_closeTrades_of_ne {closings : List Closing} {now : Nat} {clearDeferred : Bool}
    {t : Trade} (hne : ∀ c ∈ closings, c.trade.id ≠ t.id) :
    (closeTrades closings now clearDeferred).rowUpdate t = t := by
  have hnone : (closings.find? fun c => c.trade.id = t.id) = none :=
    List.find?_eq_none.mpr fun c hc => by simpa using hne c hc
  rw [rowUpdate, hnone, Option.elim_none]

@[simp] theorem rowUpdate_id (stmt : Stmt) (t : Trade) : (stmt.rowUpdate t).id = t.id := by
  cases stmt with
  | closeTrades closings now clearDeferred =>
    simp only [rowUpdate]
    cases closings.find? fun c => c.trade.id = t.id with
    | none => rfl
    | some c => rfl
  | fillTrade | cancelTrades | deferTrade | splitTrade =>
    simp only [rowUpdate]
    split <;> rfl
  | _ => rfl

@[simp] theorem accountUpdate_id (stmt : Stmt) (a : Account) : (stmt.accountUpdate a).id = a.id := by
  cases stmt with
  | creditAccount | adjustBalance | setStatus | raiseAnchors =>
    simp only [accountUpdate]
    split <;> rfl
  | _ => rfl

@[simp] theorem rowUpdate_accountId (stmt : Stmt) (t : Trade) :
    (stmt.rowUpdate t).accountId = t.accountId := by
  cases stmt with
  | closeTrades closings now clearDeferred =>
    simp only [rowUpdate]
    cases closings.find? fun c => c.trade.id = t.id with
    | none => rfl
    | some c => rfl
  | fillTrade | cancelTrades | deferTrade | splitTrade =>
    simp only [rowUpdate]
    split <;> rfl
  | _ => rfl

theorem exec_trade? {db db' : Db} {stmt : Stmt} (hexec : stmt.exec db = some db') {id : Nat}
    {t : Trade} (ht : db.trade? id = some t) : db'.trade? id = some (stmt.rowUpdate t) := by
  obtain ⟨hmem, hid⟩ := Db.trade?_eq_some.mp ht
  refine Db.trade?_eq_some.mpr ⟨?_, (rowUpdate_id stmt t).trans hid⟩
  rw [exec_trades hexec]
  exact List.mem_append_right _ (List.mem_map_of_mem hmem)

theorem exec_account? {db db' : Db} {stmt : Stmt} (hexec : stmt.exec db = some db') {id : Nat}
    {a : Account} (ha : db.account? id = some a) : db'.account? id = some (stmt.accountUpdate a) := by
  obtain ⟨hmem, hid⟩ := Db.account?_eq_some.mp ha
  refine Db.account?_eq_some.mpr ⟨?_, (accountUpdate_id stmt a).trans hid⟩
  rw [exec_accounts hexec]
  exact List.mem_append_right _ (List.mem_map_of_mem hmem)

theorem execAll_account? {stmts : List Stmt} {db db' : Db} (hexec : execAll db stmts = some db')
    {id : Nat} {a : Account} (ha : db.account? id = some a) :
    db'.account? id = some (stmts.foldl (fun a stmt => stmt.accountUpdate a) a) := by
  induction stmts generalizing db a with
  | nil =>
    have hsame : db = db' := Option.some.inj hexec
    rw [← hsame]
    exact ha
  | cons stmt stmts ih =>
    obtain ⟨mid, hstep, hrest⟩ := Option.bind_eq_some_iff.mp hexec
    exact ih hrest (exec_account? hstep ha)

/-! ### The append-only logs -/

def bookings (db : Db) : Stmt → List Booking
  | closeTrades closings _ _ => closings.map db.closeBooking
  | splitTrade part c lots commission => [db.splitBooking part c lots commission]
  | _ => []

def opens : Stmt → List OpenedLots
  | insertTrade trade => [⟨trade.id, trade.lotSize⟩]
  | _ => []

def recorded (db : Db) : Stmt → List Adjustment
  | adjustBalance id amount _ =>
    (db.account? id).toList.map fun acc =>
      let balanceAfter := toCents (acc.currentBalance.dollars + amount)
      { accountId := id
        amount := toCents amount
        balanceBefore := jsRound ((balanceAfter.dollars - amount) * 100)
        balanceAfter := balanceAfter }
  | _ => []

/-- A statement only ever adds to the logs. -/
theorem exec_logs {db db' : Db} {stmt : Stmt} (hexec : stmt.exec db = some db') :
    db'.booked = stmt.bookings db ++ db.booked ∧ db'.openedLots = stmt.opens ++ db.openedLots ∧
      db'.adjustments = stmt.recorded db ++ db.adjustments := by
  cases stmt with
  | adjustBalance id amount shiftAnchors =>
    simp only [exec] at hexec
    split at hexec
    · cases hexec
    · obtain ⟨acc, hacc, rfl⟩ := Option.map_eq_some_iff.mp hexec
      exact ⟨rfl, rfl, by simp [recorded, hacc]⟩
  | insertAccount | insertTrade | splitTrade =>
    obtain ⟨_, _, rfl⟩ := Option.map_eq_some_iff.mp hexec
    exact ⟨rfl, rfl, rfl⟩
  | fillTrade | cancelTrades | deferTrade | closeTrades | creditAccount | setStatus | raiseAnchors =>
    cases hexec
    exact ⟨rfl, rfl, rfl⟩

theorem exec_booked_log {db db' : Db} {stmt : Stmt} (hexec : stmt.exec db = some db') :
    db'.booked = stmt.bookings db ++ db.booked := (exec_logs hexec).1

theorem exec_openedLots {db db' : Db} {stmt : Stmt} (hexec : stmt.exec db = some db') :
    db'.openedLots = stmt.opens ++ db.openedLots := (exec_logs hexec).2.1

theorem exec_adjustments {db db' : Db} {stmt : Stmt} (hexec : stmt.exec db = some db') :
    db'.adjustments = stmt.recorded db ++ db.adjustments := (exec_logs hexec).2.2

theorem exec_inserted_fresh {db db' : Db} {stmt : Stmt} (hexec : stmt.exec db = some db') {t : Trade}
    (ht : t ∈ stmt.insertedTrades) : db.trade? t.id = none := by
  cases stmt with
  | insertTrade trade =>
    rw [insertedTrades, List.mem_singleton] at ht
    obtain ⟨trades, hinsert, _⟩ := Option.map_eq_some_iff.mp hexec
    exact Table.find?_eq_none.mpr (ht ▸ (Table.insert?_eq_some hinsert).1)
  | splitTrade part c lots commission =>
    rw [insertedTrades, List.mem_singleton] at ht
    obtain ⟨trades, hinsert, _⟩ := Option.map_eq_some_iff.mp hexec
    have hfresh := (Table.insert?_eq_some hinsert).1
    rw [Table.updateAt, Table.rows_update, List.forall_mem_map] at hfresh
    refine Table.find?_eq_none.mpr fun r hr => ?_
    have hkey := hfresh r hr
    rw [ht]
    split at hkey <;> exact hkey
  | _ => cases ht

end Stmt

end PropFirm
