import PropFirm.TradeRuns
import PropFirm.TradingDays

/-!
# The account ledger

The governing equation of the platform: a balance is the starting balance, plus the realised profit
of the account's closed positions, plus its balance adjustments, every closed position having been
booked once. A transaction credits an account exactly what it books on it, so a balance is always
explained by its bookings, and the bookings are those of the closed rows.

Two writers break this. `cancelPendingOrder` overwrites a row whatever its status, so that a row that
was booked can stop being a closed one. And an adjustment is rounded twice, once as part of the
balance and once as an entry of its own, which differ when the sign of a tie changes.
-/

namespace PropFirm

open Transition

/-! ### What the ledger says -/

namespace Db

def bookedOn (db : Db) (accountId : Nat) : Cents :=
  ((db.booked.filter fun b => b.accountId = accountId).map Booking.pnl).sum

def adjustedBy (db : Db) (accountId : Nat) : Cents :=
  ((db.adjustments.filter fun a => a.accountId = accountId).map Adjustment.amount).sum

/-- What a balance holds beyond the starting balance, the bookings and the adjustments. -/
def unexplained (db : Db) (acc : Account) : Cents :=
  acc.currentBalance - acc.startingBalance - db.bookedOn acc.id - db.adjustedBy acc.id

def closedRows (db : Db) : List Trade := db.trades.rows.filter fun t => t.status = .closed

end Db

def Booking.entry (b : Booking) : Nat × Nat × Option Cents := (b.tradeId, b.accountId, some b.pnl)

def Trade.entry (t : Trade) : Nat × Nat × Option Cents := (t.id, t.accountId, t.demoPnl)

structure Ledger (db : Db) : Prop where
  balance : ∀ acc ∈ db.accounts.rows,
    acc.currentBalance
      = acc.startingBalance + sumDemoPnl (db.closedTrades acc.id) + db.adjustedBy acc.id
  once : (db.booked.map Booking.entry).Perm (db.closedRows.map Trade.entry)
  credited : ∀ acc ∈ db.accounts.rows,
    acc.currentBalance = acc.startingBalance + db.bookedOn acc.id + db.adjustedBy acc.id

instance (db : Db) : Decidable (Ledger db) :=
  decidable_of_iff (_ ∧ _ ∧ _) ⟨fun h => ⟨h.1, h.2.1, h.2.2⟩, fun h => ⟨h.balance, h.once, h.credited⟩⟩

/-! ### Bookings and closed rows -/

/-- The booked entries are those of the closed rows, each of them once. -/
structure Booked (db : Db) : Prop where
  nodup : (db.booked.map Booking.tradeId).Nodup
  entries : ∀ e, e ∈ db.booked.map Booking.entry ↔ e ∈ db.closedRows.map Trade.entry

/-- Whatever is recorded of an account is recorded of one that exists. -/
structure Owned (db : Db) : Prop where
  trades : ∀ t ∈ db.trades.rows, (db.account? t.accountId).isSome
  adjustments : ∀ a ∈ db.adjustments, (db.account? a.accountId).isSome

/-- The closing settles a row that is not closed yet, on the account that holds it. -/
def Closing.Settles (c : Closing) (db : Db) : Prop :=
  ∃ row, db.trade? c.trade.id = some row ∧ row.status ≠ .closed ∧ row.accountId = c.trade.accountId

/-- The adjustment rounds to the same number of cents with the balance as without it. -/
def Account.RoundsAlike (acc : Account) (amount : ℚ) : Prop :=
  IsTie (amount * 100) → (0 < amount ↔ 0 < acc.currentBalance.dollars + amount)

instance (acc : Account) (amount : ℚ) : Decidable (acc.RoundsAlike amount) :=
  inferInstanceAs (Decidable (_ → _))

/-- The statement keeps the bookings those of the closed rows, and adjusts by what it records. It is
about accounts that are there; provisioning has a lemma of its own. -/
def Stmt.Accounted (db : Db) : Stmt → Prop
  | .insertAccount _ => False
  | .insertTrade t => t.status ≠ .closed ∧ (db.account? t.accountId).isSome
  | .fillTrade id _ _ => ∀ row, db.trade? id = some row → row.status ≠ .closed
  | .cancelTrades cond _ _ => ∀ t ∈ db.trades.rows, cond t = true → t.status ≠ .closed
  | .closeTrades closings _ _ =>
    (closings.map fun c => c.trade.id).Nodup ∧ ∀ c ∈ closings, c.Settles db
  | .splitTrade part c _ _ =>
    part.status = .closed ∧ part.entry = (part.id, c.trade.accountId, some c.pnl) ∧ c.Settles db
  | .adjustBalance id amount _ => ∀ acc, db.account? id = some acc → acc.RoundsAlike amount
  | _ => True

theorem toCents_add_iff (acc : Account) (amount : ℚ) :
    toCents (acc.currentBalance.dollars + amount) = acc.currentBalance + toCents amount ↔
      acc.RoundsAlike amount := by
  have hcents : acc.currentBalance.dollars * 100 = ((acc.currentBalance : ℤ) : ℚ) :=
    div_mul_cancel₀ _ (by norm_num)
  rw [toCents, toCents, add_mul, hcents, roundHalfAway_intCast_add, Account.RoundsAlike, ← hcents,
    ← add_mul]
  simp

namespace Booked

theorem initial (models : Table StepModel) : Booked (Db.initial models) :=
  ⟨List.nodup_nil, by simp [Db.initial, Db.closedRows]⟩

theorem once {db : Db} (hbooked : Booked db) :
    (db.booked.map Booking.entry).Perm (db.closedRows.map Trade.entry) := by
  refine (List.perm_ext_iff_of_nodup (.of_map Prod.fst ?_) (.of_map Prod.fst ?_)).mpr hbooked.entries
  · rw [List.map_map]
    exact hbooked.nodup
  · rw [List.map_map]
    exact db.trades.nodup.sublist (List.filter_sublist.map _)

private def entrySum (entries : List (Nat × Nat × Option Cents)) (accountId : Nat) : Cents :=
  ((entries.filter fun e => e.2.1 = accountId).map fun e => e.2.2.getD 0).sum

theorem bookedOn_eq {db : Db} (hbooked : Booked db) (accountId : Nat) :
    db.bookedOn accountId = sumDemoPnl (db.closedTrades accountId) := by
  have hleft : db.bookedOn accountId = entrySum (db.booked.map Booking.entry) accountId := by
    simp only [entrySum, Db.bookedOn, List.filter_map, List.map_map]
    rfl
  have hright : sumDemoPnl (db.closedTrades accountId)
      = entrySum (db.closedRows.map Trade.entry) accountId := by
    simp only [entrySum, sumDemoPnl, Db.closedTrades, Db.tradesOf, Db.closedRows, List.filter_map,
      List.map_map, List.filter_filter]
    congr 2
    refine List.filter_congr fun t _ => ?_
    rw [Bool.decide_and]
    rfl
  rw [hleft, hright, entrySum, entrySum]
  exact ((hbooked.once.filter _).map _).sum_eq

theorem mem_booked {db : Db} (hbooked : Booked db) {id : Nat} :
    id ∈ db.booked.map Booking.tradeId ↔ ∃ t ∈ db.trades.rows, t.status = .closed ∧ t.id = id := by
  have hiff : id ∈ (db.booked.map Booking.entry).map Prod.fst ↔
      id ∈ (db.closedRows.map Trade.entry).map Prod.fst := by
    simp only [List.mem_map (f := Prod.fst), hbooked.entries]
  rw [List.map_map, List.map_map] at hiff
  refine hiff.trans ?_
  simp [Db.closedRows, Trade.entry, and_assoc]

end Booked

/-! ### Statements keep the books -/

private theorem closedRows_eq {rows : List Trade} {u : Trade → Trade}
    (hkeep : ∀ t ∈ rows, (t.status = .closed → u t = t) ∧ (t.status ≠ .closed → (u t).status ≠ .closed)) :
    ((rows.map u).filter fun t => t.status = .closed) = rows.filter fun t => t.status = .closed := by
  induction rows with
  | nil => rfl
  | cons t rows ih =>
    obtain ⟨hclosed, hlive⟩ := hkeep t List.mem_cons_self
    rw [List.map_cons, List.filter_cons, List.filter_cons,
      ih fun t' ht' => hkeep t' (List.mem_cons_of_mem t ht')]
    by_cases hstatus : t.status = .closed
    · simp [hstatus, hclosed hstatus]
    · simp [hstatus, hlive hstatus]

namespace Stmt

variable {db db' : Db} {stmt : Stmt}

private theorem rowUpdate_closed (hok : stmt.Accounted db)
    (hclose : ∀ closings now clear, stmt ≠ .closeTrades closings now clear) {t : Trade}
    (ht : t ∈ db.trades.rows) : (t.status = .closed → stmt.rowUpdate t = t) ∧
      (t.status ≠ .closed → (stmt.rowUpdate t).status ≠ .closed) := by
  have hself : db.trade? t.id = some t := Db.trade?_eq_some.mpr ⟨ht, rfl⟩
  cases stmt with
  | closeTrades closings now clear => exact absurd rfl (hclose closings now clear)
  | fillTrade id openPrice now =>
    simp only [rowUpdate]
    split
    · rename_i hid
      exact ⟨fun h => absurd h (hok t (hid ▸ hself)), fun _ => TradeStatus.noConfusion⟩
    · exact ⟨fun _ => rfl, fun h => h⟩
  | cancelTrades cond reason now =>
    simp only [rowUpdate]
    split
    · rename_i hcond
      exact ⟨fun h => absurd h (hok t ht hcond), fun _ => TradeStatus.noConfusion⟩
    · exact ⟨fun _ => rfl, fun h => h⟩
  | deferTrade id level reason =>
    simp only [rowUpdate]
    split
    · rename_i hcond
      exact ⟨fun h => absurd (hcond.2.1.symm.trans h) TradeStatus.noConfusion, fun h => h⟩
    · exact ⟨fun _ => rfl, fun h => h⟩
  | splitTrade part c lots commission =>
    obtain ⟨_, _, row, hrow, hlive, _⟩ := hok
    simp only [rowUpdate]
    split
    · rename_i hid
      obtain rfl := Option.some.inj (hself.symm.trans (hid ▸ hrow))
      exact ⟨fun h => absurd h hlive, fun h => h⟩
    · exact ⟨fun _ => rfl, fun h => h⟩
  | insertAccount | insertTrade | creditAccount | adjustBalance | setStatus | raiseAnchors =>
    exact ⟨fun _ => rfl, fun h => h⟩

/-- A row that a closing settles carries the entry that the close books. -/
private theorem closeTrades_entry {closings : List Closing} {now : Nat} {clear : Bool}
    (hnodup : (closings.map fun c => c.trade.id).Nodup) {c : Closing} (hc : c ∈ closings)
    (hsettles : c.Settles db) {t : Trade} (ht : t ∈ db.trades.rows) (hid : t.id = c.trade.id) :
    t.status ≠ .closed ∧ ((closeTrades closings now clear).rowUpdate t).status = .closed ∧
      ((closeTrades closings now clear).rowUpdate t).entry = (db.closeBooking c).entry := by
  obtain ⟨row, hrow, hlive, haccount⟩ := hsettles
  have hself : db.trade? c.trade.id = some t := Db.trade?_eq_some.mpr ⟨ht, hid⟩
  obtain rfl := Option.some.inj (hrow.symm.trans hself)
  rw [rowUpdate_closeTrades hnodup hc hid.symm]
  refine ⟨hlive, rfl, ?_⟩
  simp [Trade.closedAt, Trade.entry, Booking.entry, Db.closeBooking, hid, haccount]

/-- The books of a bulk close: what it books are the entries of the rows it closes. -/
private theorem closeTrades_booked {closings : List Closing} {now : Nat} {clear : Bool}
    (hbooked : Booked db) (hnodup : (closings.map fun c => c.trade.id).Nodup)
    (hsettles : ∀ c ∈ closings, c.Settles db)
    (hexec : (closeTrades closings now clear).exec db = some db') : Booked db' := by
  have hlog : db'.booked = closings.map db.closeBooking ++ db.booked := exec_booked_log hexec
  have hrows : db'.trades.rows = db.trades.rows.map (closeTrades closings now clear).rowUpdate :=
    exec_trades hexec
  have hentry := fun c (hc : c ∈ closings) t (ht : t ∈ db.trades.rows) (hid : t.id = c.trade.id) =>
    @closeTrades_entry db closings now clear hnodup c hc (hsettles c hc) t ht hid
  constructor
  · rw [hlog, List.map_append, List.map_map]
    refine List.nodup_append.mpr ⟨hnodup, hbooked.nodup, ?_⟩
    rintro id hid id' hid' rfl
    obtain ⟨c, hc, rfl⟩ := List.mem_map.mp hid
    obtain ⟨t, ht, hclosed, heq⟩ := hbooked.mem_booked.mp hid'
    exact (hentry c hc t ht heq).1 hclosed
  · intro e
    rw [hlog, List.map_append, List.mem_append, hbooked.entries]
    simp only [Db.closedRows, hrows, List.mem_map, List.mem_filter, decide_eq_true_eq]
    constructor
    · rintro (⟨_, ⟨c, hc, rfl⟩, rfl⟩ | ⟨t, ⟨ht, hclosed⟩, rfl⟩)
      · obtain ⟨row, hrow, _⟩ := hsettles c hc
        obtain ⟨hmem, hid⟩ := Db.trade?_eq_some.mp hrow
        obtain ⟨_, hclosed, heq⟩ := hentry c hc row hmem hid
        exact ⟨_, ⟨⟨row, hmem, rfl⟩, hclosed⟩, heq⟩
      · refine ⟨t, ⟨⟨t, ht, rowUpdate_closeTrades_of_ne fun c hc hid => ?_⟩, hclosed⟩, rfl⟩
        exact (hentry c hc t ht hid.symm).1 hclosed
    · rintro ⟨_, ⟨⟨t, ht, rfl⟩, hclosed⟩, rfl⟩
      by_cases hnamed : ∃ c ∈ closings, c.trade.id = t.id
      · obtain ⟨c, hc, hid⟩ := hnamed
        exact .inl ⟨_, ⟨c, hc, rfl⟩, (hentry c hc t ht hid.symm).2.2.symm⟩
      · have hsame : (closeTrades closings now clear).rowUpdate t = t :=
          rowUpdate_closeTrades_of_ne fun c hc hid => hnamed ⟨c, hc, hid⟩
        rw [hsame] at hclosed ⊢
        exact .inr ⟨t, ⟨ht, hclosed⟩, rfl⟩

theorem exec_booked (hbooked : Booked db) (hok : stmt.Accounted db) (hexec : stmt.exec db = some db') :
    Booked db' := by
  by_cases hclose : ∃ closings now clear, stmt = .closeTrades closings now clear
  · obtain ⟨closings, now, clear, rfl⟩ := hclose
    exact closeTrades_booked hbooked hok.1 hok.2 hexec
  have hkeep : ((db.trades.rows.map stmt.rowUpdate).filter fun t => t.status = .closed) = db.closedRows :=
    closedRows_eq fun t ht =>
      rowUpdate_closed hok (fun closings now clear h => hclose ⟨closings, now, clear, h⟩) ht
  have hclosed : db'.closedRows
      = (stmt.insertedTrades.filter fun t => t.status = .closed) ++ db.closedRows := by
    rw [Db.closedRows, exec_trades hexec, List.filter_append, hkeep]
  have hlog := exec_booked_log hexec
  have hsame : stmt.bookings db = [] → stmt.insertedTrades.filter (fun t => t.status = .closed) = [] →
      Booked db' := by
    intro hbookings hinserted
    rw [hbookings, List.nil_append] at hlog
    rw [hinserted, List.nil_append] at hclosed
    exact ⟨hlog ▸ hbooked.nodup, fun e => by rw [hlog, hclosed]; exact hbooked.entries e⟩
  cases stmt with
  | closeTrades closings now clear => exact absurd ⟨closings, now, clear, rfl⟩ hclose
  | splitTrade part c lots commission =>
    obtain ⟨hstatus, hentry, _⟩ := hok
    have hone : (splitTrade part c lots commission).insertedTrades.filter (fun t => t.status = .closed)
        = [part] := by simp [insertedTrades, hstatus]
    rw [hone, List.singleton_append] at hclosed
    have hfresh : db.trade? part.id = none := exec_inserted_fresh hexec List.mem_cons_self
    constructor
    · rw [hlog]
      refine List.nodup_cons.mpr ⟨fun hmem => ?_, hbooked.nodup⟩
      obtain ⟨t, ht, _, hid⟩ := hbooked.mem_booked.mp hmem
      exact Table.find?_eq_none.mp hfresh t ht hid
    · intro e
      rw [hclosed, hlog, List.map_cons, hentry, List.map_append, List.mem_append, List.mem_cons,
        hbooked.entries]
      simp [bookings, Booking.entry, Db.splitBooking, Db.closeBooking]
  | insertTrade t => exact hsame rfl (by simp [insertedTrades, hok.1])
  | _ => exact hsame rfl rfl

/-! ### Statements keep every record owned -/

theorem exec_account_isSome (hexec : stmt.exec db = some db') {id : Nat}
    (hacc : (db.account? id).isSome) : (db'.account? id).isSome := by
  obtain ⟨acc, hacc⟩ := Option.isSome_iff_exists.mp hacc
  exact Option.isSome_iff_exists.mpr ⟨_, exec_account? hexec hacc⟩

theorem exec_owned (howned : Owned db) (hok : stmt.Accounted db) (hexec : stmt.exec db = some db') :
    Owned db' := by
  constructor
  · intro t ht
    rw [exec_trades hexec] at ht
    refine exec_account_isSome hexec ?_
    rcases List.mem_append.mp ht with hinserted | hold
    · cases stmt with
      | insertTrade trade =>
        rw [insertedTrades, List.mem_singleton] at hinserted
        exact hinserted ▸ hok.2
      | splitTrade part c lots commission =>
        obtain ⟨_, hentry, row, hrow, _, haccount⟩ := hok
        have hpart : part.accountId = c.trade.accountId := congrArg (fun e => e.2.1) hentry
        rw [insertedTrades, List.mem_singleton] at hinserted
        rw [hinserted, hpart, ← haccount]
        exact howned.trades row (Db.trade?_eq_some.mp hrow).1
      | _ => cases hinserted
    · obtain ⟨old, hmem, rfl⟩ := List.mem_map.mp hold
      rw [rowUpdate_accountId]
      exact howned.trades old hmem
  · intro a ha
    rw [exec_adjustments hexec] at ha
    refine exec_account_isSome hexec ?_
    rcases List.mem_append.mp ha with hnew | hold
    · cases stmt with
      | adjustBalance id amount shiftAnchors =>
        simp only [recorded, List.mem_map, Option.mem_toList] at hnew
        obtain ⟨acc, hacc, rfl⟩ := hnew
        exact Option.isSome_iff_exists.mpr ⟨acc, hacc⟩
      | _ => cases hnew
    · exact howned.adjustments a hold

/-! ### Credits and bookings -/

def credits : Stmt → Nat → Cents
  | creditAccount id amount, accountId => if accountId = id then amount else 0
  | _, _ => 0

def books : Stmt → Nat → Cents
  | closeTrades closings _ _, accountId => settledOn closings accountId
  | splitTrade _ c _ _, accountId => settledOn [c] accountId
  | _, _ => 0

def adjusts : Stmt → Nat → Cents
  | adjustBalance id amount _, accountId => if accountId = id then toCents amount else 0
  | _, _ => 0

theorem exec_bookedOn (hexec : stmt.exec db = some db') (accountId : Nat) :
    db'.bookedOn accountId = stmt.books accountId + db.bookedOn accountId := by
  rw [Db.bookedOn, exec_booked_log hexec, List.filter_append, List.map_append, List.sum_append,
    Db.bookedOn, add_left_inj]
  cases stmt with
  | closeTrades closings now clear =>
    rw [bookings, List.filter_map, List.map_map]
    rfl
  | splitTrade part c lots commission =>
    by_cases hid : c.trade.accountId = accountId
    · simp [bookings, books, settledOn, Db.splitBooking, Db.closeBooking, hid]
    · simp [bookings, books, settledOn, Db.splitBooking, Db.closeBooking, hid]
  | _ => rfl

theorem exec_adjustedBy (hexec : stmt.exec db = some db') (accountId : Nat) :
    db'.adjustedBy accountId = stmt.adjusts accountId + db.adjustedBy accountId := by
  rw [Db.adjustedBy, exec_adjustments hexec]
  cases stmt with
  | adjustBalance id amount shiftAnchors =>
    simp only [exec] at hexec
    split at hexec
    · cases hexec
    · obtain ⟨acc, hacc, _⟩ := Option.map_eq_some_iff.mp hexec
      by_cases hid : accountId = id
      · simp [recorded, hacc, adjusts, Db.adjustedBy, hid]
      · simp [recorded, hacc, adjusts, Db.adjustedBy, hid, Ne.symm hid]
  | _ => exact (zero_add _).symm

theorem accountUpdate_balance (hok : stmt.Accounted db) {acc : Account}
    (hacc : acc ∈ db.accounts.rows) :
    (stmt.accountUpdate acc).currentBalance
        = acc.currentBalance + stmt.credits acc.id + stmt.adjusts acc.id ∧
      (stmt.accountUpdate acc).startingBalance = acc.startingBalance := by
  cases stmt with
  | creditAccount id amount =>
    by_cases hid : acc.id = id
    · simp [accountUpdate, credits, adjusts, hid, Account.credited]
    · simp [accountUpdate, credits, adjusts, hid]
  | adjustBalance id amount shiftAnchors =>
    by_cases hid : acc.id = id
    · have hround := (toCents_add_iff acc amount).mpr (hok acc (Db.account?_eq_some.mpr ⟨hacc, hid⟩))
      simp [accountUpdate, credits, adjusts, hid, Account.adjusted, hround]
    · simp [accountUpdate, credits, adjusts, hid]
  | setStatus | raiseAnchors =>
    simp only [accountUpdate]
    split <;> simp [credits, adjusts, Account.withStatus, Account.anchored]
  | _ => simp [accountUpdate, credits, adjusts]

/-- A statement moves the unexplained part of a balance by what it credits less what it books. -/
theorem exec_unexplained (hok : stmt.Accounted db) (hexec : stmt.exec db = some db') {acc : Account}
    (hacc : acc ∈ db.accounts.rows) :
    db'.unexplained (stmt.accountUpdate acc)
      = db.unexplained acc + (stmt.credits acc.id - stmt.books acc.id) := by
  obtain ⟨hbalance, hstart⟩ := accountUpdate_balance hok hacc
  rw [Db.unexplained, Db.unexplained, accountUpdate_id, exec_bookedOn hexec, exec_adjustedBy hexec,
    hbalance, hstart]
  ring

end Stmt

abbrev AccountedAll (db : Db) (stmts : List Stmt) : Prop :=
  RunOk (fun db stmt => Stmt.exec db stmt) Stmt.Accounted db stmts

/-- What a transaction credits an account beyond what it books on it. -/
def excess (stmts : List Stmt) (accountId : Nat) : Cents :=
  (stmts.map fun stmt => stmt.credits accountId - stmt.books accountId).sum

theorem execAll_unexplained {stmts : List Stmt} {db db' : Db} (hok : AccountedAll db stmts)
    (hexec : execAll db stmts = some db')
    {d : Nat → Cents} (hd : ∀ acc ∈ db.accounts.rows, db.unexplained acc = d acc.id) :
    ∀ acc ∈ db'.accounts.rows, db'.unexplained acc = d acc.id + excess stmts acc.id := by
  induction stmts generalizing db d with
  | nil =>
    have hsame : db = db' := Option.some.inj hexec
    simpa [excess] using hsame ▸ hd
  | cons stmt stmts ih =>
    rw [execAll, run, Option.bind_eq_some_iff] at hexec
    obtain ⟨mid, hstep, hrest⟩ := hexec
    have hnone : stmt.insertedAccounts = [] := by
      cases stmt with
      | insertAccount => exact hok.1.elim
      | _ => rfl
    have hmid : ∀ acc ∈ mid.accounts.rows,
        mid.unexplained acc = d acc.id + (stmt.credits acc.id - stmt.books acc.id) := by
      intro acc hacc
      rw [Stmt.exec_accounts hstep, hnone, List.nil_append] at hacc
      obtain ⟨old, hold, rfl⟩ := List.mem_map.mp hacc
      rw [Stmt.exec_unexplained hok.1 hstep hold, hd old hold, Stmt.accountUpdate_id]
    intro acc hacc
    rw [ih (d := fun id => d id + (stmt.credits id - stmt.books id)) (hok.2 mid hstep) hrest hmid acc
      hacc, excess, excess, List.map_cons, List.sum_cons, add_assoc]

/-! ### Transactions credit what they book -/

private theorem excess_creditStmts (credits : List (Nat × Cents)) (accountId : Nat) :
    excess (creditStmts credits) accountId = creditedTo credits accountId := by
  induction credits with
  | nil => rfl
  | cons credit credits ih =>
    rw [excess, creditStmts, List.map_cons, List.map_cons, List.sum_cons]
    rw [excess, creditStmts] at ih
    rw [ih]
    by_cases hid : credit.1 = accountId
    · simp [creditedTo, Stmt.credits, Stmt.books, hid]
    · simp [creditedTo, Stmt.credits, Stmt.books, hid, Ne.symm hid]

private theorem excess_eq_zero {stmts : List Stmt} {accountId : Nat}
    (hnone : ∀ stmt ∈ stmts, stmt.credits accountId = 0 ∧ stmt.books accountId = 0) :
    excess stmts accountId = 0 := by
  refine List.sum_eq_zero fun x hx => ?_
  obtain ⟨stmt, hstmt, rfl⟩ := List.mem_map.mp hx
  obtain ⟨hcredits, hbooks⟩ := hnone stmt hstmt
  rw [hcredits, hbooks, sub_zero]

theorem World.Writes.excess {w : World} {a : Action} {stmts : List Stmt} (hwrites : w.Writes a stmts)
    (accountId : Nat) : excess stmts accountId = 0 := by
  cases hwrites with
  | provision | cancelStale | cancelPending | adjust | lock | restore =>
    exact excess_eq_zero (by simp [Stmt.credits, Stmt.books])
  | order =>
    refine excess_eq_zero fun stmt hstmt => ?_
    obtain ⟨t, _, rfl⟩ := List.mem_map.mp hstmt
    exact ⟨rfl, rfl⟩
  | fill _ _ _ hsiblings =>
    refine excess_eq_zero fun stmt hstmt => ?_
    rcases List.mem_cons.mp hstmt with rfl | hstmt
    · exact ⟨rfl, rfl⟩
    · obtain ⟨cond, reason, rfl, _⟩ := hsiblings stmt hstmt
      exact ⟨rfl, rfl⟩
  | defer hdefer =>
    refine excess_eq_zero fun stmt hstmt => ?_
    obtain ⟨id, level, reason, rfl⟩ := hdefer stmt hstmt
    exact ⟨rfl, rfl⟩
  | @close a closings credits clearDeferred _ _ hcredits _ _ =>
    have hrest := (excess_creditStmts credits accountId).trans (hcredits accountId)
    rw [PropFirm.excess] at hrest
    rw [PropFirm.excess, List.map_cons, List.sum_cons, hrest]
    simp [Stmt.credits, Stmt.books]
  | @split fx tradeId requested closePrice minLotSize partId row closeLots c _ _ _ _ _ _ htrade =>
    have haccount : c.trade.accountId = row.accountId := by rw [htrade]
    by_cases hid : row.accountId = accountId
    · simp [PropFirm.excess, Stmt.credits, Stmt.books, settledOn, haccount, hid]
    · simp [PropFirm.excess, Stmt.credits, Stmt.books, settledOn, haccount, hid, Ne.symm hid]

theorem Settling.statements_excess {s : Settling} {db : Db} (hvalid : s.Valid db) {fx : FxSource}
    {stmts : List Stmt} (hstmts : s.statements fx = some stmts) (accountId : Nat) :
    excess stmts accountId = 0 := by
  rcases statements_eq_some hstmts with ⟨_, rfl⟩ | ⟨_, closings, hclosings, rfl⟩
  · exact excess_eq_zero (by simp [Stmt.credits, Stmt.books])
  have hown : ∀ c ∈ closings, c.trade.accountId = s.account.id := fun c hc =>
    (hvalid.opened _ (hvalid.mem_of_closing hclosings hc)).2
  have hsettled : settledOn closings accountId
      = if accountId = s.account.id then totalPnl closings else 0 := by
    rw [settledOn, totalPnl]
    split
    · rename_i hid
      rw [List.filter_eq_self.mpr fun c hc => by simp [hown c hc, hid]]
    · rename_i hid
      rw [List.filter_eq_nil_iff.mpr fun c hc => by simpa [hown c hc] using Ne.symm hid]
      rfl
  have hcredit : excess (s.credit closings) accountId
      = if accountId = s.account.id then totalPnl closings else 0 := by
    rw [credit]
    split
    · rename_i hzero
      simp [excess, hzero.1]
    · simp [excess, Stmt.credits, Stmt.books]
  have hraise : excess (s.anchors.toList.map (Stmt.raiseAnchors s.account.id)) accountId = 0 := by
    refine excess_eq_zero fun stmt hstmt => ?_
    obtain ⟨resolution, _, rfl⟩ := List.mem_map.mp hstmt
    exact ⟨rfl, rfl⟩
  rw [excess] at hcredit hraise ⊢
  simp only [List.map_append, List.map_cons, List.sum_append, List.sum_cons, hcredit, hraise]
  simp [Stmt.credits, Stmt.books, hsettled]

/-! ### Runs keep the ledger -/

theorem Closing.Closes.settles {c : Closing} {row : Trade} {db : Db}
    (hcloses : c.Closes row) (hrow : db.trade? c.trade.id = some row) : c.Settles db :=
  ⟨row, hrow, hcloses.live, hcloses.later.accountId⟩

namespace World

/-- A cancellation decided on an earlier read does not find its row closed. -/
def SparesClosed (w : World) (a : Action) : Prop :=
  ∀ id, w.staleCancel a = some id → ∀ row, w.db.trade? id = some row → row.status ≠ .closed

def adjustment (w : World) : Action → Option (Account × ℚ)
  | .adjustBalance accountId amount _ => (w.db.account? accountId).map fun acc => (acc, amount)
  | _ => none

def AdjustsAlike (w : World) (a : Action) : Prop :=
  ∀ acc amount, w.adjustment a = some (acc, amount) → acc.RoundsAlike amount

instance (w : World) (a : Action) : Decidable (w.SparesClosed a) :=
  decidable_of_iff ((w.staleCancel a).all (fun id => (w.db.trade? id).all
    fun row => row.status ≠ .closed) = true) (by simp [SparesClosed, Option.all_eq_true])

instance (w : World) (a : Action) : Decidable (w.AdjustsAlike a) :=
  decidable_of_iff ((w.adjustment a).all (fun p => p.1.RoundsAlike p.2) = true)
    (by simp [AdjustsAlike, Option.all_eq_true])

def KeepsLedger (w : World) (a : Action) : Prop := w.SparesClosed a ∧ w.AdjustsAlike a

instance (w : World) (a : Action) : Decidable (w.KeepsLedger a) :=
  inferInstanceAs (Decidable (_ ∧ _))

theorem Writes.accounted {w : World} {a : Action} {stmts : List Stmt} (hwrites : w.Writes a stmts)
    (hok : w.KeepsLedger a) (hprovision : ∀ terms id, a ≠ .provision terms id) :
    AccountedAll w.db stmts := by
  cases hwrites with
  | provision => exact absurd rfl (hprovision _ _)
  | lock | restore => exact ⟨trivial, fun _ _ => trivial⟩
  | @order a acc rows hacc _ _ hrows =>
    refine RunOk.of_invariant (fun db => (db.account? acc.id).isSome) ?_ ?_ ?_
    · exact Option.isSome_iff_exists.mpr ⟨acc, hacc⟩
    · exact fun db stmt _ db' hinv hexec => Stmt.exec_account_isSome hexec hinv
    · intro stmt hstmt db hinv
      obtain ⟨t, ht, rfl⟩ := List.mem_map.mp hstmt
      obtain ⟨haccount, hfresh⟩ := hrows t ht
      exact ⟨by rcases hfresh.status with h | h <;> simp [h], haccount ▸ hinv⟩
  | cancelStale hstale =>
    refine ⟨fun t ht hid => ?_, fun _ _ => trivial⟩
    exact hok.1 _ hstale t (Db.trade?_eq_some.mpr ⟨ht, of_decide_eq_true hid⟩)
  | cancelPending hpending =>
    exact ⟨fun t ht hcond => by simp [hpending t ht hcond], fun _ _ => trivial⟩
  | fill _ hrow hpending hsiblings =>
    refine ⟨fun row hrow' => ?_, fun _ _ => .of_forall fun stmt hstmt db => ?_⟩
    · rw [← Option.some.inj (hrow.symm.trans hrow'), hpending]
      exact TradeStatus.noConfusion
    · obtain ⟨cond, reason, rfl, hcond⟩ := hsiblings stmt hstmt
      exact fun t _ ht => by simp [hcond t ht]
  | defer hdefer =>
    refine .of_forall fun stmt hstmt db => ?_
    obtain ⟨id, level, reason, rfl⟩ := hdefer stmt hstmt
    exact trivial
  | close hnodup hclose _ _ _ =>
    refine ⟨⟨hnodup, fun c hc => ?_⟩, fun _ _ => .of_forall fun stmt hstmt db => ?_⟩
    · obtain ⟨row, hrow, _, hcloses, _⟩ := hclose c hc
      exact hcloses.settles hrow
    · obtain ⟨credit, _, rfl⟩ := List.mem_map.mp hstmt
      exact trivial
  | @split fx tradeId requested closePrice minLotSize partId row closeLots c hrow hopen _ _ _ _ htrade =>
    refine ⟨⟨rfl, ?_, row, ?_, by simp [hopen], ?_⟩, fun _ _ => ⟨trivial, fun _ _ => trivial⟩⟩
    · rw [htrade]
      rfl
    · rw [htrade, Db.trade?_id hrow]
      exact hrow
    · rw [htrade]
  | @adjust accountId amount _ _ =>
    exact ⟨fun acc hacc => hok.2 acc amount (by simp [adjustment, hacc]), fun _ _ => trivial⟩

end World

theorem Settling.statements_accounted {s : Settling} {db : Db} (hvalid : s.Valid db) {fx : FxSource}
    {stmts : List Stmt} (hstmts : s.statements fx = some stmts) : AccountedAll db stmts := by
  refine statements_runOk hstmts (fun closings hclosings db' htrades _ => ⟨?_, fun c hc => ?_⟩)
    (fun _ t _ hcond => ?_) (fun _ _ => trivial) (fun _ _ => trivial) (fun _ _ => trivial)
  · exact hvalid.closings_nodup hclosings
  · obtain ⟨row, hrow, hheld⟩ := hvalid.held c.trade (hvalid.mem_of_closing hclosings hc)
    refine ⟨row, ?_, hheld.live, hheld.later.accountId⟩
    rw [Db.trade?, htrades]
    exact hrow
  · rw [(of_decide_eq_true hcond).2]
    exact TradeStatus.noConfusion

/-- The books of a state: what is booked is what is closed, and it explains every balance. -/
structure Balanced (db : Db) : Prop where
  booked : Booked db
  owned : Owned db
  explained : ∀ acc ∈ db.accounts.rows, db.unexplained acc = 0

namespace Balanced

theorem initial (models : Table StepModel) : Balanced (Db.initial models) where
  booked := .initial models
  owned := ⟨by simp [Db.initial], by simp [Db.initial]⟩
  explained := by simp [Db.initial]

theorem ledger {db : Db} (hbalanced : Balanced db) : Ledger db := by
  have hcredited : ∀ acc ∈ db.accounts.rows,
      acc.currentBalance = acc.startingBalance + db.bookedOn acc.id + db.adjustedBy acc.id := by
    intro acc hacc
    have h := hbalanced.explained acc hacc
    rw [Db.unexplained] at h
    linarith
  refine ⟨fun acc hacc => ?_, hbalanced.booked.once, hcredited⟩
  rw [hcredited acc hacc, hbalanced.booked.bookedOn_eq]

theorem execAll {db db' : Db} {stmts : List Stmt} (hbalanced : Balanced db)
    (hok : AccountedAll db stmts)
    (hexcess : ∀ accountId, excess stmts accountId = 0)
    (hexec : PropFirm.execAll db stmts = some db') : Balanced db' := by
  obtain ⟨hbooked, howned⟩ := run_invariant (fun db => Booked db ∧ Owned db)
    (fun db stmt db' hinv hstmt hexec =>
      ⟨Stmt.exec_booked hinv.1 hstmt hexec, Stmt.exec_owned hinv.2 hstmt hexec⟩)
    ⟨hbalanced.booked, hbalanced.owned⟩ hok hexec
  refine ⟨hbooked, howned, fun acc hacc => ?_⟩
  rw [execAll_unexplained hok hexec (d := fun _ => 0) hbalanced.explained acc hacc, hexcess,
    add_zero]

/-- A freshly provisioned account has a balance to explain, and nothing to explain it with. -/
theorem provision {db db' : Db} {terms : AccountTerms} {id : Nat} (hbalanced : Balanced db)
    (hexec : PropFirm.execAll db [.insertAccount (terms.provision id)] = some db') : Balanced db' := by
  obtain ⟨mid, hstep, hrest⟩ := Option.bind_eq_some_iff.mp hexec
  obtain rfl := Option.some.inj hrest
  have howned : Owned mid := by
    obtain ⟨accounts, _, rfl⟩ := Option.map_eq_some_iff.mp hstep
    exact ⟨fun t ht => Stmt.exec_account_isSome hstep (hbalanced.owned.trades t ht),
      fun a ha => Stmt.exec_account_isSome hstep (hbalanced.owned.adjustments a ha)⟩
  have hbooks : Booked mid := by
    obtain ⟨accounts, _, rfl⟩ := Option.map_eq_some_iff.mp hstep
    exact ⟨hbalanced.booked.nodup, hbalanced.booked.entries⟩
  refine ⟨hbooks, howned, fun acc hacc => ?_⟩
  rw [Stmt.exec_accounts hstep] at hacc
  rcases List.mem_append.mp hacc with hnew | hold
  · rw [Stmt.insertedAccounts, List.mem_singleton] at hnew
    obtain ⟨accounts, hinsert, _⟩ := Option.map_eq_some_iff.mp hstep
    have hfresh : db.account? id = none :=
      Table.find?_eq_none.mpr (Table.insert?_eq_some hinsert).1
    have hunknown : ∀ accountId, (db.account? accountId).isSome → accountId ≠ id := by
      rintro _ hsome rfl
      simp [hfresh] at hsome
    have hbooked : mid.bookedOn id = 0 := by
      rw [Stmt.exec_bookedOn hstep, hbalanced.booked.bookedOn_eq, Db.closedTrades, Db.tradesOf,
        List.filter_eq_nil_iff.mpr fun t ht => by simp [hunknown _ (hbalanced.owned.trades t ht)]]
      rfl
    have hadjusted : mid.adjustedBy id = 0 := by
      rw [Stmt.exec_adjustedBy hstep, Db.adjustedBy,
        List.filter_eq_nil_iff.mpr fun a ha => by simp [hunknown _ (hbalanced.owned.adjustments a ha)]]
      rfl
    rw [hnew, Db.unexplained, AccountTerms.provision, hbooked, hadjusted]
    simp
  · obtain ⟨old, hmem, rfl⟩ := List.mem_map.mp hold
    rw [Db.unexplained, Stmt.exec_bookedOn hstep, Stmt.exec_adjustedBy hstep]
    simpa [Stmt.books, Stmt.adjusts, Stmt.accountUpdate, Db.unexplained] using
      hbalanced.explained old hmem

end Balanced

namespace World

theorem step_balanced {w w' : World} {a : Action} (hvalid : w.Valid) (hbalanced : Balanced w.db)
    (hok : w.KeepsLedger a) (hstep : w.step a = some w') : Balanced w'.db := by
  cases step_steps hvalid hstep with
  | transact hplan hwrites hexec =>
    by_cases hprovision : ∃ terms id, a = .provision terms id
    · obtain ⟨terms, id, rfl⟩ := hprovision
      obtain rfl := Option.some.inj hplan
      exact hbalanced.provision hexec
    · exact hbalanced.execAll (hwrites.accounted hok fun terms id h => hprovision ⟨terms, id, h⟩)
        hwrites.excess hexec
  | commit hs hstmts hexec =>
    have hread := hvalid.settling _ hs
    exact hbalanced.execAll (Settling.statements_accounted hread hstmts)
      (Settling.statements_excess hread hstmts) hexec
  | begin | abort | tick => exact hbalanced

/-- In every run whose stray cancellations spare closed rows and whose adjustments round alike, the
ledger of every state is in order. -/
theorem reached_ledger {models : Table StepModel} {w : World}
    (hreach : Reached models KeepsLedger w) : Ledger w.db :=
  (Reach.invariant_relative Reached.valid (by rintro _ rfl; exact .initial models)
    (fun _ _ _ hvalid hbalanced hok hstep => step_balanced hvalid hbalanced hok hstep)
    hreach).ledger

/-- A position is closed in part, the account is debited, and the rest is liquidated. -/
def partlyClosed : List Action :=
  [.provision sampleTerms 1, .openTrade sampleOrder 1 (11 / 10),
    .closeTradeHandler noConversion 1 (some (2 / 5)) (111 / 100) (1 / 100) 2,
    .adjustBalance 1 (-25) true,
    .beginSettle .autoCloseAndFail 1 (fun _ => some (quoteAt (109 / 100))),
    .commitSettle 1 noConversion]

theorem reached_ledger_partlyClosed :
    ∃ w, run step (World.initial Table.empty) partlyClosed = some w ∧ Ledger w.db ∧
      w.db.closedRows.length = 2 := by
  obtain ⟨w, hw, hcheck⟩ := exists_of_run_any step (World.initial Table.empty) partlyClosed
    (fun w => w.db.closedRows.length = 2) (by decide +kernel)
  have hreach : Reached Table.empty KeepsLedger w := .of_run (.init rfl) (by decide +kernel) hw
  exact ⟨w, hw, reached_ledger hreach, of_decide_eq_true hcheck⟩

/-- An order is filled and its position force closed while the interval engine still holds the pending
row; the phase ends and the cancellation lands on the closed row. -/
def cancelledAfterClose : List Action :=
  [.provision { sampleTerms with phaseEndDate := some 100 } 1,
    .placePendingOrder sampleOrder ⟨1, .buy, .buyLimit, 11 / 10⟩ none, .tick 99,
    .fillTriggeredPendingOrder 0 0 1 (quoteAt (11 / 10)) (quoteAt (11 / 10)) 50,
    .forceCloseTradeById 1 (some (quoteAt (111 / 100))), .tick 1,
    .checkPendingOrder 2 1 (quoteAt (11 / 10)) 50]

/-- A debit of half a cent leaves a positive balance where it is, and is recorded as a whole cent. -/
def halfCentDebit : List Action := [.provision sampleTerms 1, .adjustBalance 1 (-1 / 200) true]

theorem ledger_broken :
    (∃ w, run step (World.initial Table.empty) cancelledAfterClose = some w ∧ ¬ Ledger w.db) ∧
      ∃ w, run step (World.initial Table.empty) halfCentDebit = some w ∧ ¬ Ledger w.db := by
  obtain ⟨w, hw, hcancel⟩ := exists_of_run_any step (World.initial Table.empty) cancelledAfterClose
    (fun w => ¬ Ledger w.db) (by decide +kernel)
  obtain ⟨w', hw', hdebit⟩ := exists_of_run_any step (World.initial Table.empty) halfCentDebit
    (fun w => ¬ Ledger w.db) (by decide +kernel)
  exact ⟨⟨w, hw, of_decide_eq_true hcancel⟩, ⟨w', hw', of_decide_eq_true hdebit⟩⟩

end World

end PropFirm
