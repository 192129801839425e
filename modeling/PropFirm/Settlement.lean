import PropFirm.CloseTransactions
import PropFirm.EffectiveLimits
import PropFirm.TradingDays

/-!
# The terminal transitions of an account

Six functions move an account to a terminal status, each in a transaction that locks the account row
with `FOR UPDATE SKIP LOCKED`, reads what the account still holds, settles it and writes the status.
Between the read and the commit other transactions may commit, so the transaction is split there:
`beginSettle` is its first half, down to the positions read, and `Settling.statements` its second.
The order of its writes is immaterial, the transaction being atomic.
-/

namespace PropFirm

inductive SettleKind
  | autoCloseAndFail
  | autoCloseAndPass
  | failAccount (skipDrawdownCheck : Bool) (closeReason : String)
  | passAccount
  | expireAccount
  | closeAndFreezeAccount
  deriving DecidableEq

def SettleKind.status : SettleKind → AccountStatus
  | autoCloseAndFail => .failed
  | autoCloseAndPass => .passed
  | failAccount _ _ => .failed
  | passAccount => .passed
  | expireAccount => .expired
  | closeAndFreezeAccount => .closed

def SettleKind.locksTrades : SettleKind → Bool
  | autoCloseAndFail | autoCloseAndPass | closeAndFreezeAccount => true
  | failAccount _ _ | passAccount | expireAccount => false

def SettleKind.closeReason (kind : SettleKind) (accountType : AccountType) : String :=
  match kind with
  | autoCloseAndFail => "Account Failed"
  | autoCloseAndPass => if accountType = .phase1 then "Phase 1 Passed" else "Phase 2 Passed"
  | failAccount _ closeReason => closeReason
  | passAccount => ""
  | expireAccount => "Account Expired"
  | closeAndFreezeAccount => "Competition Ended"

/-- What the caller of a pass found on its own reads, none of which the transaction repeats: the
floating equity that reached the target, or the balance that did beside the closed rows that the two
history rules were checked on. -/
inductive Finding
  | unrecorded
  | floatingTarget (equity : Cents)
  | settledTarget (balance : Cents) (daysRead bestDayRead : List Trade)

/-- A call of one of the six functions, with the prices it fetches before it begins. -/
structure SettleCall where
  kind : SettleKind
  accountId : Nat
  prices : Instrument → Option Quote
  finding : Finding

/-- A terminal transaction in flight: the row its lock returned, the positions it read, the prices it
fetched before it began, and the anchors `failAccount`'s re-check raised. -/
structure Settling where
  kind : SettleKind
  account : Account
  trades : List Trade
  prices : Instrument → Option Quote
  startedAt : Nat
  anchors : Option DrawdownResolution
  finding : Finding

/-- `failAccount`'s re-check under the lock, against the trailing floor whatever the reason of the
call: `none` rolls back. -/
def recheckFloor (maxDrawdownPct : ℚ) (drawdownLocksAtPct : Option ℚ) (acc : Account) :
    Option DrawdownResolution :=
  let resolved := resolveEffectiveFloor acc.drawdown
    ⟨acc.currentBalance.dollars, maxDrawdownPct, drawdownLocksAtPct⟩
  if maxDrawdownPct ≤ 0 then none
  else if resolved.floor ≤ acc.currentBalance.dollars then none
  else some resolved

def failAccountRecheck (db : Db) (acc : Account) : Option DrawdownResolution :=
  recheckFloor (failAccountLimits db acc).1 (failAccountLimits db acc).2 acc

/-- Lock the account if it is active, re-check what the function re-checks, and read its positions. -/
def beginSettle (db : Db) (call : SettleCall) (now : Nat) : Option Settling := do
  let acc ← db.account? call.accountId
  guard (acc.status = .active)
  let openTrades := db.tradesOf call.accountId .opened
  match call.kind with
  | .passAccount =>
    guard (acc.targetReached ∧ openTrades = [])
    some ⟨call.kind, acc, [], call.prices, now, none, call.finding⟩
  | .failAccount false _ =>
    let resolved ← failAccountRecheck db acc
    some ⟨call.kind, acc, openTrades, call.prices, now, some resolved, call.finding⟩
  | _ => some ⟨call.kind, acc, openTrades, call.prices, now, none, call.finding⟩

theorem beginSettle_eq_some {db : Db} {call : SettleCall} {now : Nat} {s : Settling}
    (hbegin : beginSettle db call now = some s) :
    db.account? call.accountId = some s.account ∧ s.account.status = .active ∧ s.kind = call.kind ∧
      s.finding = call.finding ∧
      (call.kind ≠ .passAccount → s.trades = db.tradesOf call.accountId .opened) ∧
      (call.kind = .passAccount → s.trades = [] ∧ s.account.targetReached = true ∧
        db.tradesOf call.accountId .opened = []) := by
  simp only [beginSettle, Option.bind_eq_bind, Option.bind_eq_some_iff, Option.guard_eq_some',
    exists_const] at hbegin
  obtain ⟨acc, hacc, hactive, hbegin⟩ := hbegin
  split at hbegin
  · rename_i hkind
    simp only [Option.bind_eq_some_iff, Option.guard_eq_some', exists_const,
      Option.some.injEq] at hbegin
    obtain ⟨⟨htarget, hnone⟩, rfl⟩ := hbegin
    exact ⟨hacc, hactive, rfl, rfl, fun h => absurd hkind h, fun _ => ⟨rfl, htarget, hnone⟩⟩
  · rename_i hkind
    simp only [Option.bind_eq_some_iff, Option.some.injEq] at hbegin
    obtain ⟨resolved, _, rfl⟩ := hbegin
    exact ⟨hacc, hactive, rfl, rfl, fun _ => rfl, fun h => nomatch hkind.symm.trans h⟩
  · rename_i hpass _
    cases hbegin
    exact ⟨hacc, hactive, rfl, rfl, fun _ => rfl, fun h => absurd h hpass⟩

theorem beginSettle_reads {db : Db} {call : SettleCall} {now : Nat} {s : Settling}
    (hbegin : beginSettle db call now = some s) {t : Trade} (ht : t ∈ s.trades) :
    t ∈ db.trades.rows ∧ t.accountId = call.accountId ∧ t.status = .opened := by
  obtain ⟨_, _, _, _, htrades, hpass⟩ := beginSettle_eq_some hbegin
  by_cases hk : call.kind = .passAccount
  · rw [(hpass hk).1] at ht
    exact (List.not_mem_nil ht).elim
  · rw [htrades hk] at ht
    exact Db.mem_tradesOf.mp ht

theorem beginSettle_failAccount {db : Db} {accountId : Nat} {acc : Account} {reason : String}
    {prices : Instrument → Option Quote} {finding : Finding} {now : Nat}
    (hacc : db.account? accountId = some acc) (hactive : acc.status = .active) :
    beginSettle db ⟨.failAccount false reason, accountId, prices, finding⟩ now
      = (failAccountRecheck db acc).map fun resolved => ⟨.failAccount false reason, acc,
        db.tradesOf accountId .opened, prices, now, some resolved, finding⟩ := by
  simp only [beginSettle, hacc, Option.bind_eq_bind, Option.bind_some, hactive, guard_true,
    Option.pure_def]
  cases failAccountRecheck db acc <;> rfl

theorem beginSettle_autoClose {db : Db} {kind : SettleKind} {accountId : Nat} {acc : Account}
    {prices : Instrument → Option Quote} {finding : Finding} {now : Nat}
    (hkind : kind = .autoCloseAndFail ∨ kind = .autoCloseAndPass)
    (hacc : db.account? accountId = some acc) (hactive : acc.status = .active) :
    beginSettle db ⟨kind, accountId, prices, finding⟩ now
      = some ⟨kind, acc, db.tradesOf accountId .opened, prices, now, none, finding⟩ := by
  rcases hkind with rfl | rfl <;> simp [beginSettle, hacc, hactive]

namespace Settling

def reason (s : Settling) : String := s.kind.closeReason s.account.accountType

/-- `expireAccount`'s treatment of one position: without a price it closes with no profit and no
close price, and an error while pricing it is caught and the position skipped. -/
def expireTrade (s : Settling) (fx : FxSource) (trade : Trade) : Option Closing :=
  match s.prices trade.instrument with
  | none => some ⟨trade, none, 0, s.reason, none⟩
  | some price => priceClosing fx trade (price.closeSide trade.direction) s.reason

/-- The positions the transaction settles. Outside `expireAccount`, one error aborts it. -/
def closings (s : Settling) (fx : FxSource) : Option (List Closing) :=
  match s.kind with
  | .passAccount => some []
  | .expireAccount => some (s.trades.filterMap (s.expireTrade fx))
  | _ => s.trades.mapM fun trade => settlementFor fx (s.prices trade.instrument) s.reason trade

def totalPnl (closings : List Closing) : Cents := (closings.map Closing.pnl).sum

/-- The balance update, which every function but `autoCloseAndPass` skips for a zero sum. -/
def credit (s : Settling) (closings : List Closing) : List Stmt :=
  if totalPnl closings = 0 ∧ s.kind ≠ .autoCloseAndPass then []
  else [.creditAccount s.account.id (totalPnl closings)]

/-- What the transaction writes. `passAccount` writes the status and nothing else. -/
def statements (s : Settling) (fx : FxSource) : Option (List Stmt) :=
  match s.kind with
  | .passAccount => some [.setStatus s.account.id s.kind.status]
  | _ => (s.closings fx).map fun closings =>
    s.anchors.toList.map (.raiseAnchors s.account.id) ++
      .closeTrades closings s.startedAt false :: s.credit closings ++
      [.cancelTrades (fun t => t.accountId = s.account.id ∧ t.status = .pending) s.reason s.startedAt,
        .setStatus s.account.id s.kind.status]

theorem expireTrade_eq_some {s : Settling} {fx : FxSource} {trade : Trade} {c : Closing}
    (hexpire : s.expireTrade fx trade = some c) : c.trade = trade ∧ c.Priced := by
  unfold expireTrade at hexpire
  split at hexpire
  · cases hexpire
    exact ⟨rfl, fun p hp => nomatch hp⟩
  · exact priceClosing_eq_some hexpire

theorem closings_eq_some {s : Settling} {fx : FxSource} {cs : List Closing}
    (hcs : s.closings fx = some cs) (hpass : s.kind = .passAccount → s.trades = []) :
    (cs.map Closing.trade).Sublist s.trades ∧ (∀ c ∈ cs, c.Priced) ∧
      (s.kind ≠ .expireAccount → cs.map Closing.trade = s.trades) := by
  unfold closings at hcs
  split at hcs
  · rename_i hkind
    cases hcs
    rw [hpass hkind]
    exact ⟨List.Sublist.slnil, fun c hc => (List.not_mem_nil hc).elim, fun _ => rfl⟩
  · rename_i hkind
    cases hcs
    refine ⟨?_, ?_, fun h => absurd hkind h⟩
    · exact List.map_filterMap_sublist s.trades fun t c hc => (expireTrade_eq_some hc).1
    · intro c hc
      obtain ⟨t, _, ht⟩ := List.mem_filterMap.mp hc
      exact (expireTrade_eq_some ht).2
  · have hall : cs.map Closing.trade = s.trades.map id :=
      List.map_eq_of_mapM_eq_some hcs fun t c hc => (settlementFor_eq_some hc).1
    rw [List.map_id] at hall
    refine ⟨hall ▸ List.Sublist.refl _, ?_, fun _ => hall⟩
    intro c hc
    obtain ⟨t, _, ht⟩ := List.exists_of_mem_mapM hcs hc
    exact (settlementFor_eq_some ht).2

/-- Outside `passAccount` the transaction closes its positions, credits their sum, cancels the
account's pending orders and writes the status. -/
theorem statements_eq_some {s : Settling} {fx : FxSource} {stmts : List Stmt}
    (hstmts : s.statements fx = some stmts) :
    (s.kind = .passAccount ∧ stmts = [.setStatus s.account.id .passed]) ∨
      (s.kind ≠ .passAccount ∧ ∃ closings, s.closings fx = some closings ∧
        stmts = s.anchors.toList.map (.raiseAnchors s.account.id) ++
          .closeTrades closings s.startedAt false :: s.credit closings ++
          [.cancelTrades (fun t => t.accountId = s.account.id ∧ t.status = .pending) s.reason
              s.startedAt,
            .setStatus s.account.id s.kind.status]) := by
  unfold statements at hstmts
  split at hstmts
  · rename_i hkind
    cases hstmts
    exact .inl ⟨hkind, by rw [hkind]; rfl⟩
  · rename_i hkind
    obtain ⟨closings, hclosings, rfl⟩ := Option.map_eq_some_iff.mp hstmts
    exact .inr ⟨hkind, closings, hclosings, rfl⟩

/-- The row a terminal transaction leaves: its status is the transition's, and outside `passAccount`
the balance is credited what the positions settled for. -/
theorem statements_account {s : Settling} {fx : FxSource} {stmts : List Stmt}
    (hstmts : s.statements fx = some stmts) :
    (stmts.foldl (fun acc stmt => stmt.accountUpdate acc) s.account).status = s.kind.status ∧
      ((s.kind = .passAccount ∧ stmts = [.setStatus s.account.id .passed]) ∨
        (s.kind ≠ .passAccount ∧ ∃ closings, s.closings fx = some closings ∧
          (stmts.foldl (fun acc stmt => stmt.accountUpdate acc) s.account).currentBalance
            = s.account.currentBalance + totalPnl closings)) := by
  rcases statements_eq_some hstmts with ⟨hkind, rfl⟩ | ⟨hkind, closings, hclosings, rfl⟩
  · refine ⟨?_, .inl ⟨hkind, rfl⟩⟩
    rw [hkind]
    simp [Stmt.accountUpdate, Account.withStatus, SettleKind.status]
  · have hanchored : ∃ acc, (s.anchors.toList.map (Stmt.raiseAnchors s.account.id)).foldl
        (fun acc stmt => stmt.accountUpdate acc) s.account = acc ∧ acc.id = s.account.id ∧
          acc.currentBalance = s.account.currentBalance := by
      refine ⟨_, rfl, ?_⟩
      cases s.anchors <;> simp [Stmt.accountUpdate, Account.anchored]
    obtain ⟨acc, hacc, hid, hbalance⟩ := hanchored
    have hcredited : ∃ credited, (s.credit closings).foldl
        (fun acc stmt => stmt.accountUpdate acc) acc = credited ∧ credited.id = s.account.id ∧
          credited.currentBalance = s.account.currentBalance + totalPnl closings := by
      refine ⟨_, rfl, ?_⟩
      rw [credit]
      split
      · rename_i hzero
        simp [hid, hbalance, hzero.1]
      · simp [Stmt.accountUpdate, Account.credited, hid, hbalance]
    obtain ⟨credited, hcredit, hid', hbalance'⟩ := hcredited
    have hclose : (Stmt.closeTrades closings s.startedAt false).accountUpdate acc = acc := rfl
    simp only [List.foldl_append, List.foldl_cons, List.foldl_nil, hacc, hclose, hcredit]
    simp only [Stmt.accountUpdate, hid', if_true]
    exact ⟨rfl, .inr ⟨hkind, closings, hclosings, hbalance'⟩⟩

def finish (s : Settling) (fx : FxSource) (db : Db) : Option Db :=
  (s.statements fx).bind (execAll db)

theorem finish_eq_some {s : Settling} {fx : FxSource} {db db' : Db}
    (hfinish : s.finish fx db = some db') :
    ∃ stmts, s.statements fx = some stmts ∧ execAll db stmts = some db' :=
  Option.bind_eq_some_iff.mp hfinish

theorem finish_isSome {s : Settling} {fx : FxSource} {db : Db} :
    (s.finish fx db).isSome ↔ s.kind = .passAccount ∨ (s.closings fx).isSome := by
  constructor
  · intro hfinish
    obtain ⟨db', hfinish⟩ := Option.isSome_iff_exists.mp hfinish
    obtain ⟨stmts, hstmts, _⟩ := finish_eq_some hfinish
    rcases statements_eq_some hstmts with ⟨hkind, _⟩ | ⟨_, closings, hclosings, _⟩
    · exact .inl hkind
    · exact .inr (by rw [hclosings]; rfl)
  · intro hpriced
    have hstmts : (s.statements fx).isSome := by
      unfold statements
      split
      · rfl
      · rename_i hkind
        rw [Option.isSome_map]
        exact hpriced.resolve_left hkind
    obtain ⟨stmts, hstmts⟩ := Option.isSome_iff_exists.mp hstmts
    rw [finish, hstmts, Option.bind_some]
    refine execAll_isSome fun stmt hstmt db => ?_
    rcases statements_eq_some hstmts with ⟨_, rfl⟩ | ⟨_, closings, _, rfl⟩
    · rw [List.mem_singleton] at hstmt
      exact hstmt ▸ rfl
    · simp only [credit, List.mem_append, List.mem_cons, List.mem_map, List.not_mem_nil,
        or_false] at hstmt
      rcases hstmt with (⟨_, _, rfl⟩ | rfl | hcredit) | rfl | rfl
      · rfl
      · rfl
      · split at hcredit
        · cases hcredit
        · rw [List.mem_singleton] at hcredit
          exact hcredit ▸ rfl
      · rfl
      · rfl

end Settling

/-- A terminal transaction with no other in between; `none` is a transaction that rolled back. -/
def settle (db : Db) (call : SettleCall) (fx : FxSource) (now : Nat) : Option Db :=
  (beginSettle db call now).bind fun s => s.finish fx db

/-- A transaction that commits leaves its account in its own status, and one that rolls back leaves the
account as it was. -/
theorem settle_status {db : Db} {call : SettleCall} {fx : FxSource} {now : Nat} {acc : Account}
    (hacc : db.account? call.accountId = some acc) :
    (((settle db call fx now).getD db).account? call.accountId).map Account.status
      = some (if (settle db call fx now).isSome then call.kind.status else acc.status) := by
  cases hsettle : settle db call fx now with
  | none => simp [hacc]
  | some db' =>
    obtain ⟨s, hbegin, hfinish⟩ := Option.bind_eq_some_iff.mp hsettle
    obtain ⟨hread, _, hkind, _⟩ := beginSettle_eq_some hbegin
    obtain ⟨stmts, hstmts, hexec⟩ := Settling.finish_eq_some hfinish
    have hstatus := (Settling.statements_account hstmts).1
    rw [Option.getD_some, Stmt.execAll_account? hexec hread, Option.map_some, hstatus, hkind]
    rfl

end PropFirm
