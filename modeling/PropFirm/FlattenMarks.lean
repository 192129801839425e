import Mathlib
import PropFirm.CloseTransactions
import PropFirm.TradingDays
import PropFirm.TradeRuns
import PropFirm.PartialData
import PropFirm.Lib.Sweep

/-!
# The done marks of the scheduled flattens

Three jobs close the positions a rule covers: at 23:00 UTC those held on models without overnight
holding, on Friday at 21:00 UTC all of them, and all of them before high-impact news. Each goes through
the rows it has read, counts the errors it notices, and without any sets a mark, for the day or for the
news event, that makes its later runs return at once. What they notice is not the same: two of them pass
over a position without a price and swallow a transaction that failed and was rolled back, and all three
pass over a row that somebody has locked.

A run goes turn by turn, and between two turns the other writers do what they like to the tables. A fill
is of a pending order.
-/

namespace PropFirm

open Transition

inductive FlattenJob
  | flatByClose | weekendClose | newsClose
  deriving DecidableEq

/-- The day or the news event a mark is for. -/
inductive MarkKey
  | day (n : Nat)
  | news (newsId : String)
  deriving DecidableEq

/-- How the transaction of a turn ends. -/
inductive TxFate
  | commits
  | throws
  | commitLost
  deriving DecidableEq

/-- What the calls of one turn come to: the prices, when they are fetched in it, the dollar rates, the
connection, the transaction, and the two rollbacks, of an empty lock and in the catch. -/
structure TradeFate where
  prices : Option (Instrument → Option Quote)
  fx : FxSource
  connects : Bool
  tx : TxFate
  rollback : Bool
  catchRollback : Bool

/-- What a run reads before its loop, beside the tables. -/
structure FlattenReads where
  activeNews : Option String
  weekendHoldingEnabled : Bool
  throws : Bool

structure FlattenRun where
  key : MarkKey
  sweep : Sweep Trade
  orders : List Nat
  priceMap : Option (Instrument → Option Quote)

def Db.isOpen (db : Db) (tradeId : Nat) : Bool := (db.trade? tradeId).any (·.status = .opened)

namespace FlattenJob

def closeReason : FlattenJob → String
  | flatByClose => "Flat By Close"
  | weekendClose => "Weekend Close"
  | newsClose => "News Force Close"

/-- The window a job runs in, with the key of its mark. -/
def key (job : FlattenJob) (reads : FlattenReads) (now : Nat) : Option MarkKey :=
  let dayUTC := (now / 86400 + 4) % 7
  let hourUTC := now % 86400 / 3600
  let minuteUTC := now % 3600 / 60
  match job with
  | flatByClose => if hourUTC = 23 ∧ minuteUTC < 10 then some (.day (now / 86400)) else none
  | weekendClose =>
    if dayUTC = 5 ∧ hourUTC = 21 ∧ minuteUTC < 10 then some (.day (now / 86400)) else none
  | newsClose => reads.activeNews.map .news

/-- An error inside the transaction is counted: always by the news job, and by the others only when the
rollback in their catch throws too. -/
def counts (job : FlattenJob) (fate : TradeFate) : Bool := job = .newsClose ∨ fate.catchRollback = false

end FlattenJob

/-- What a turn leaves. -/
structure FlattenTurn where
  db : Db
  priceMap : Option (Instrument → Option Quote)
  counted : Bool
  skips : Bool

structure FlattenWorld where
  db : Db
  noOvernight : List String
  locked : List Nat
  executed : FlattenJob → Option MarkKey
  runs : FlattenJob → Option FlattenRun
  marked : List (Sweep Trade)
  now : Nat

inductive FlattenAction
  | start (job : FlattenJob) (reads : FlattenReads)
  | turn (job : FlattenJob) (fate : TradeFate)
  | cancelOrder (job : FlattenJob) (answered : Bool)
  | finish (job : FlattenJob)
  | restart
  | other (stmt : Stmt)
  | lock (tradeId : Nat)
  | unlock (tradeId : Nat)
  | setNoOvernight (slugs : List String)
  | tick (seconds : Nat)

/-- Only a pending order is filled. -/
def Stmt.fillsPending (db : Db) : Stmt → Bool
  | fillTrade id _ _ => (db.trade? id).any (·.status = .pending)
  | _ => true

namespace FlattenWorld

/-- The open positions a job's query returns. -/
def openTrades (w : FlattenWorld) (job : FlattenJob) : List Trade :=
  w.db.trades.rows.filter fun t => t.status = .opened ∧ (w.db.account? t.accountId).any fun a =>
    job = .flatByClose → a.challengeModelSlug.any (· ∈ w.noOvernight)

/-- The weekend job cancels the pending orders, the others leave them. -/
def pendingOrders (w : FlattenWorld) (job : FlattenJob) : List Nat :=
  if job = .weekendClose then (w.db.trades.rows.filter (·.status = .pending)).map Trade.id else []

/-- The row is locked with `SKIP LOCKED` while it is open, and its close written. -/
def lockedClose (w : FlattenWorld) (job : FlattenJob) (trade : Trade) (closePrice : ℚ) (fx : FxSource) :
    Option Db :=
  if trade.id ∈ w.locked then none
  else (closeFromSnapshot fx w.db trade closePrice job.closeReason w.now false).bind (execAll w.db)

/-- The transaction of a turn. -/
def transact (w : FlattenWorld) (job : FlattenJob) (trade : Trade) (closePrice : ℚ) (fate : TradeFate)
    (priceMap : Option (Instrument → Option Quote)) : FlattenTurn :=
  match fate.tx, w.lockedClose job trade closePrice fate.fx with
  | .throws, _ => ⟨w.db, priceMap, job.counts fate, true⟩
  | _, none => ⟨w.db, priceMap, fate.rollback = false ∧ job.counts fate, w.db.isOpen trade.id⟩
  | .commits, some db => ⟨db, priceMap, false, false⟩
  | .commitLost, some db => ⟨db, priceMap, job.counts fate, false⟩

/-- One turn of the loop over the open positions. -/
def tradeTurn (w : FlattenWorld) (job : FlattenJob) (run : FlattenRun) (trade : Trade) (fate : TradeFate) :
    FlattenTurn :=
  match run.priceMap.or fate.prices with
  | none => ⟨w.db, none, true, false⟩
  | some prices =>
    match prices trade.instrument with
    | none => ⟨w.db, some prices, job = .newsClose, true⟩
    | some price =>
      let closePrice := price.closeSide trade.direction
      match priceClosing fate.fx trade closePrice job.closeReason with
      | none => ⟨w.db, some prices, true, false⟩
      | some _ =>
        -- the news job has connected before its loop
        if job ≠ .newsClose ∧ fate.connects = false then ⟨w.db, some prices, true, false⟩
        else w.transact job trade closePrice fate (some prices)

/-- Only the news job takes its mark back. -/
def cleared (w : FlattenWorld) (job : FlattenJob) : FlattenJob → Option MarkKey :=
  if job = .newsClose then Function.update w.executed job none else w.executed

def mark (w : FlattenWorld) (job : FlattenJob) (key : MarkKey) (sweep : Sweep Trade) : FlattenWorld :=
  { w with executed := Function.update w.executed job (some key), marked := sweep :: w.marked }

def setRun (w : FlattenWorld) (job : FlattenJob) (run : Option FlattenRun) : FlattenWorld :=
  { w with runs := Function.update w.runs job run }

/-- A run up to its loop. The scheduler starts no second one of a job. -/
def startRun (w : FlattenWorld) (job : FlattenJob) (reads : FlattenReads) : FlattenWorld :=
  match job.key reads w.now with
  | none => { w with executed := w.cleared job }
  | some key =>
    if w.executed job = some key then w
    else if reads.throws then { w with executed := w.cleared job }
    else
      let trades := w.openTrades job
      let orders := w.pendingOrders job
      if trades = [] ∧ orders = [] then
        if job = .flatByClose then w.mark job key (.start []) else w
      else if job = .weekendClose ∧ reads.weekendHoldingEnabled then w
      else w.setRun job (some ⟨key, .start trades, orders, none⟩)

def finished (w : FlattenWorld) (job : FlattenJob) (run : FlattenRun) : FlattenWorld :=
  if run.sweep.errors = 0 then (w.setRun job none).mark job run.key run.sweep
  else { w.setRun job none with executed := w.cleared job }

def step (w : FlattenWorld) : FlattenAction → Option FlattenWorld
  | .start job reads => if (w.runs job).isNone then some (w.startRun job reads) else none
  | .turn job fate => do
    let run ← w.runs job
    let trade ← run.sweep.todo.head?
    let t := w.tradeTurn job run trade fate
    let sweep := run.sweep.turn t.counted t.skips
    some ({ w with db := t.db }.setRun job (some { run with sweep := sweep, priceMap := t.priceMap }))
  | .cancelOrder job answered => do
    let run ← w.runs job
    guard (run.sweep.todo = [])
    let id ← run.orders.head?
    let run' := { run with orders := run.orders.tail }
    if answered then
      let cond := fun t : Trade => decide (t.id = id ∧ t.status = .pending)
      let db ← (Stmt.cancelTrades cond "Weekend holding disabled" w.now).exec w.db
      some ({ w with db := db }.setRun job (some run'))
    else some (w.setRun job (some { run' with sweep := run.sweep.count }))
  | .finish job => do
    let run ← w.runs job
    guard (run.sweep.todo = [] ∧ run.orders = [])
    some (w.finished job run)
  | .restart => some { w with executed := fun _ => none, runs := fun _ => none }
  | .other stmt =>
    if stmt.fillsPending w.db then (stmt.exec w.db).map fun db => { w with db := db } else none
  | .lock tradeId => some { w with locked := tradeId :: w.locked }
  | .unlock tradeId => some { w with locked := w.locked.erase tradeId }
  | .setNoOvernight slugs => some { w with noOvernight := slugs }
  | .tick seconds => some { w with now := w.now + seconds }

/-! ### What a mark promises -/

/-- Of no run that has set its mark was a position skipped, and none it covered is open any more. -/
def MarksTrue (w : FlattenWorld) : Prop :=
  ∀ s ∈ w.marked, s.skipped = [] ∧ ∀ t ∈ s.covered, w.db.isOpen t.id = false

/-- A run that has counted no error has skipped no position either. -/
def EndsSwept (w : FlattenWorld) : FlattenAction → Prop
  | .finish job => ∀ run ∈ w.runs job, run.sweep.errors = 0 → run.sweep.skipped = []
  | _ => True

/-- The job skips the position in this turn and counts nothing: there is no price for it (flat and
weekend), its transaction fails and is rolled back (flat and weekend), or its row is locked. -/
def SkipsSilently (w : FlattenWorld) (job : FlattenJob) (run : FlattenRun) (trade : Trade)
    (fate : TradeFate) : Prop :=
  ∃ prices ∈ run.priceMap.or fate.prices,
    match prices trade.instrument with
    | none => job ≠ .newsClose
    | some price =>
      (priceClosing fate.fx trade (price.closeSide trade.direction) job.closeReason).isSome ∧
        (job = .newsClose ∨ fate.connects = true) ∧
        if fate.tx = .throws then job ≠ .newsClose ∧ fate.catchRollback = true
        else trade.id ∈ w.locked ∧ w.db.isOpen trade.id = true ∧
          (fate.rollback = true ∨ job ≠ .newsClose ∧ fate.catchRollback = true)

/-- No turn skips its position silently. -/
def NoSilentSkip (w : FlattenWorld) : FlattenAction → Prop
  | .turn job fate => ∀ run ∈ w.runs job, ∀ trade ∈ run.sweep.todo.head?,
      ¬ w.SkipsSilently job run trade fate
  | _ => True

instance : DecidablePred MarksTrue := fun w =>
  inferInstanceAs (Decidable (∀ s ∈ w.marked, s.skipped = [] ∧ ∀ t ∈ s.covered, w.db.isOpen t.id = false))

instance SkipsSilently.decidable (w : FlattenWorld) (job : FlattenJob) (run : FlattenRun) (trade : Trade)
    (fate : TradeFate) : Decidable (w.SkipsSilently job run trade fate) :=
  match hprices : run.priceMap.or fate.prices with
  | none => isFalse fun ⟨_, hmem, _⟩ => nomatch hprices.symm.trans hmem
  | some prices =>
    match hprice : prices trade.instrument with
    | none => decidable_of_iff (job ≠ .newsClose) (by simp [SkipsSilently, hprices, hprice])
    | some price =>
      decidable_of_iff (
        (priceClosing fate.fx trade (price.closeSide trade.direction) job.closeReason).isSome ∧
        (job = .newsClose ∨ fate.connects = true) ∧
        if fate.tx = .throws then job ≠ .newsClose ∧ fate.catchRollback = true
        else trade.id ∈ w.locked ∧ w.db.isOpen trade.id = true ∧
          (fate.rollback = true ∨ job ≠ .newsClose ∧ fate.catchRollback = true))
        (by simp only [SkipsSilently, hprices, Option.mem_some_iff, exists_eq_left', hprice])

instance NoSilentSkip.decidable (w : FlattenWorld) : ∀ action, Decidable (w.NoSilentSkip action)
  | .turn job _ => inferInstanceAs (Decidable (∀ run ∈ w.runs job, ∀ trade ∈ run.sweep.todo.head?, _))
  | .start _ _ | .cancelOrder _ _ | .finish _ | .restart | .other _ | .lock _ | .unlock _
  | .setNoOvernight _ | .tick _ => isTrue trivial

end FlattenWorld

/-! ### A position that is not open stays so -/

/-- The row is there and no pending order. -/
def Db.Held (db : Db) (tradeId : Nat) : Prop := ∃ t, db.trade? tradeId = some t ∧ t.status ≠ .pending

def Db.NeverReopens (db db' : Db) : Prop :=
  ∀ id, db.Held id → db'.Held id ∧ (db.isOpen id = false → db'.isOpen id = false)

theorem Db.NeverReopens.refl (db : Db) : db.NeverReopens db := fun _ h => ⟨h, fun hclosed => hclosed⟩

theorem Db.NeverReopens.trans {db₁ db₂ db₃ : Db} (h₁ : db₁.NeverReopens db₂) (h₂ : db₂.NeverReopens db₃) :
    db₁.NeverReopens db₃ := by
  intro id hheld
  obtain ⟨hheld₂, hopen₂⟩ := h₁ id hheld
  exact ⟨(h₂ id hheld₂).1, fun hclosed => (h₂ id hheld₂).2 (hopen₂ hclosed)⟩

theorem Db.isOpen_eq_false {db : Db} {tradeId : Nat} {t : Trade} (ht : db.trade? tradeId = some t) :
    db.isOpen tradeId = false ↔ t.status ≠ .opened := by
  rw [Db.isOpen, ht, Option.any_some, decide_eq_false_iff_not]

theorem Stmt.rowUpdate_status {db : Db} {stmt : Stmt} (hfills : stmt.fillsPending db = true) {t : Trade}
    (ht : db.trade? t.id = some t) (hheld : t.status ≠ .pending) :
    (stmt.rowUpdate t).status ≠ .pending ∧ (t.status ≠ .opened → (stmt.rowUpdate t).status ≠ .opened) := by
  cases stmt with
  | fillTrade id openPrice now =>
    simp only [rowUpdate]
    split
    · rename_i hid
      subst hid
      rw [fillsPending, ht, Option.any_some, decide_eq_true_eq] at hfills
      exact absurd hfills hheld
    · exact ⟨hheld, fun h => h⟩
  | cancelTrades =>
    simp only [rowUpdate]
    split
    · exact ⟨TradeStatus.noConfusion, fun _ => TradeStatus.noConfusion⟩
    · exact ⟨hheld, fun h => h⟩
  | deferTrade | splitTrade =>
    simp only [rowUpdate]
    split <;> exact ⟨hheld, fun h => h⟩
  | closeTrades closings now clearDeferred =>
    simp only [rowUpdate]
    cases closings.find? fun c => c.trade.id = t.id with
    | none => exact ⟨hheld, fun h => h⟩
    | some c => exact ⟨TradeStatus.noConfusion, fun _ => TradeStatus.noConfusion⟩
  | insertAccount | insertTrade | creditAccount | adjustBalance | setStatus | raiseAnchors =>
    exact ⟨hheld, fun h => h⟩

theorem Stmt.exec_neverReopens {db db' : Db} {stmt : Stmt} (hfills : stmt.fillsPending db = true)
    (hexec : stmt.exec db = some db') : db.NeverReopens db' := by
  rintro id ⟨t, ht, hheld⟩
  obtain rfl := Db.trade?_id ht
  have ht' := Stmt.exec_trade? hexec ht
  obtain ⟨hheld', hopen⟩ := rowUpdate_status hfills ht hheld
  refine ⟨⟨_, ht', hheld'⟩, fun hclosed => ?_⟩
  rw [Db.isOpen_eq_false ht] at hclosed
  rw [Db.isOpen_eq_false ht']
  exact hopen hclosed

/-- A close that goes through leaves its position closed and opens no other. -/
theorem closeFromSnapshot_closes {fx : FxSource} {db db' : Db} {trade : Trade} {closePrice : ℚ}
    {reason : String} {now : Nat} {stmts : List Stmt}
    (hclose : closeFromSnapshot fx db trade closePrice reason now false = some stmts)
    (hexec : execAll db stmts = some db') : db.NeverReopens db' ∧ db'.isOpen trade.id = false := by
  obtain ⟨row, c, hrow, -, rfl, -, rfl⟩ := closeFromSnapshot_eq_some hclose
  obtain ⟨mid, hmid, hlast⟩ := execAll_pair.mp hexec
  refine ⟨(Stmt.exec_neverReopens rfl hmid).trans (Stmt.exec_neverReopens rfl hlast), ?_⟩
  have hclosed := Stmt.exec_trade? hlast (Stmt.exec_trade? hmid hrow)
  rw [Db.isOpen_eq_false hclosed]
  have hid : c.trade.id = row.id := (Db.trade?_id hrow).symm
  simp [Stmt.rowUpdate, Trade.closedAt, hid]

/-- A run accounts for the positions it covers, and none of them is a pending order. -/
structure FlattenRun.Sound (db : Db) (run : FlattenRun) : Prop where
  accounted : run.sweep.Accounted fun t => db.isOpen t.id = false
  covered : ∀ t ∈ run.sweep.covered, db.Held t.id
  todo : ∀ t ∈ run.sweep.todo, db.Held t.id

theorem FlattenRun.Sound.later {db db' : Db} {run : FlattenRun} (h : run.Sound db)
    (hno : db.NeverReopens db') : run.Sound db' where
  accounted := h.accounted.mono fun t ht hclosed => (hno t.id (h.covered t ht)).2 hclosed
  covered t ht := (hno t.id (h.covered t ht)).1
  todo t ht := (hno t.id (h.todo t ht)).1

namespace FlattenWorld

variable {w w' : FlattenWorld} {job : FlattenJob} {run : FlattenRun} {trade : Trade} {fate : TradeFate}

/-! ### One turn -/

theorem lockedClose_closes {closePrice : ℚ} {fx : FxSource} {db : Db}
    (hclose : w.lockedClose job trade closePrice fx = some db) :
    w.db.NeverReopens db ∧ db.isOpen trade.id = false := by
  unfold lockedClose at hclose
  split at hclose
  · cases hclose
  · obtain ⟨stmts, hstmts, hexec⟩ := Option.bind_eq_some_iff.mp hclose
    exact closeFromSnapshot_closes hstmts hexec

theorem transact_spec {closePrice : ℚ} {priceMap : Option (Instrument → Option Quote)} :
    let t := w.transact job trade closePrice fate priceMap
    w.db.NeverReopens t.db ∧ (t.counted = true ∨ t.skips = true ∨ t.db.isOpen trade.id = false) := by
  unfold transact
  split
  case h_1 => exact ⟨.refl _, .inr (.inl rfl)⟩
  case h_2 =>
    refine ⟨.refl _, .inr ?_⟩
    dsimp only
    cases w.db.isOpen trade.id with
    | false => exact .inr rfl
    | true => exact .inl rfl
  case h_3 hclose | h_4 hclose =>
    obtain ⟨hno, hclosed⟩ := lockedClose_closes hclose
    exact ⟨hno, .inr (.inr hclosed)⟩

/-- A turn reopens nothing, and counts an error, skips its position or leaves it closed. -/
theorem tradeTurn_spec :
    let t := w.tradeTurn job run trade fate
    w.db.NeverReopens t.db ∧ (t.counted = true ∨ t.skips = true ∨ t.db.isOpen trade.id = false) := by
  unfold tradeTurn
  split
  · exact ⟨.refl _, .inl rfl⟩
  · split
    · exact ⟨.refl _, .inr (.inl rfl)⟩
    · dsimp only
      split
      · exact ⟨.refl _, .inl rfl⟩
      · split
        · exact ⟨.refl _, .inl rfl⟩
        · exact transact_spec

theorem lockedClose_eq_none {closePrice : ℚ} {fx : FxSource}
    (hprice : (priceClosing fx trade closePrice job.closeReason).isSome)
    (hnone : w.lockedClose job trade closePrice fx = none) (hopen : w.db.isOpen trade.id = true) :
    trade.id ∈ w.locked := by
  by_contra hfree
  obtain ⟨c, hc⟩ := Option.isSome_iff_exists.mp hprice
  rw [Db.isOpen, Option.any_eq_true] at hopen
  obtain ⟨row, hrow, hstatus⟩ := hopen
  have hstmts : closeFromSnapshot fx w.db trade closePrice job.closeReason w.now false
      = some [.closeTrades [c] w.now false, .creditAccount trade.accountId c.pnl] := by
    simp [closeFromSnapshot, hrow, hc, of_decide_eq_true hstatus]
  rw [lockedClose, if_neg hfree, hstmts, Option.bind_some] at hnone
  cases hnone

theorem transact_silent {closePrice : ℚ} {priceMap : Option (Instrument → Option Quote)}
    (hprice : (priceClosing fate.fx trade closePrice job.closeReason).isSome)
    (hskips : (w.transact job trade closePrice fate priceMap).skips = true)
    (hsilent : (w.transact job trade closePrice fate priceMap).counted = false) :
    if fate.tx = .throws then job ≠ .newsClose ∧ fate.catchRollback = true
    else trade.id ∈ w.locked ∧ w.db.isOpen trade.id = true ∧
      (fate.rollback = true ∨ job ≠ .newsClose ∧ fate.catchRollback = true) := by
  have hcounts : job.counts fate = false → job ≠ .newsClose ∧ fate.catchRollback = true := by
    intro h
    rw [FlattenJob.counts, decide_eq_false_iff_not, not_or, Bool.not_eq_false] at h
    exact h
  unfold transact at hskips hsilent
  split at hskips
  case h_1 htx =>
    rw [if_pos htx]
    rw [htx] at hsilent
    exact hcounts hsilent
  case h_2 hnone hthrows =>
    rw [if_neg hthrows]
    refine ⟨lockedClose_eq_none hprice hnone hskips, hskips, ?_⟩
    have hrolled : ¬ (fate.rollback = false ∧ job.counts fate = true) := by
      cases htx : fate.tx with
      | throws => exact absurd htx hthrows
      | commits | commitLost => simpa [htx, hnone] using hsilent
    cases hrollback : fate.rollback with
    | true => exact .inl rfl
    | false =>
      refine .inr (hcounts (Bool.eq_false_iff.mpr fun h => hrolled ⟨hrollback, h⟩))
  case h_3 | h_4 => cases hskips

theorem tradeTurn_silent (hskips : (w.tradeTurn job run trade fate).skips = true)
    (hsilent : (w.tradeTurn job run trade fate).counted = false) : w.SkipsSilently job run trade fate := by
  unfold tradeTurn at hskips hsilent
  unfold SkipsSilently
  cases hprices : run.priceMap.or fate.prices with
  | none =>
    rw [hprices] at hskips
    cases hskips
  | some prices =>
    refine ⟨prices, rfl, ?_⟩
    rw [hprices] at hskips hsilent
    dsimp only at hskips hsilent
    cases hprice : prices trade.instrument with
    | none =>
      rw [hprice] at hsilent
      exact of_decide_eq_false hsilent
    | some price =>
      rw [hprice] at hskips hsilent
      dsimp only at hskips hsilent
      cases hclosing : priceClosing fate.fx trade (price.closeSide trade.direction) job.closeReason with
      | none =>
        rw [hclosing] at hskips
        cases hskips
      | some c =>
        rw [hclosing] at hskips hsilent
        dsimp only at hskips hsilent
        by_cases hconnect : job ≠ .newsClose ∧ fate.connects = false
        · rw [if_pos hconnect] at hskips
          cases hskips
        · rw [if_neg hconnect] at hskips hsilent
          refine ⟨hclosing ▸ rfl, ?_, transact_silent (hclosing ▸ rfl) hskips hsilent⟩
          rw [not_and_or, not_not, Bool.not_eq_false] at hconnect
          exact hconnect

/-! ### What every run keeps -/

structure Inv (w : FlattenWorld) : Prop where
  runs : ∀ job, ∀ run ∈ w.runs job, run.Sound w.db
  marked : ∀ s ∈ w.marked, ∀ t ∈ s.covered, w.db.Held t.id

/-- A process starts without a run and without a mark. -/
def Start (w : FlattenWorld) : Prop := (∀ job, w.runs job = none) ∧ w.marked = []

theorem Inv.withDb (h : Inv w) {db : Db} (hno : w.db.NeverReopens db) : Inv { w with db := db } where
  runs job run hrun := (h.runs job run hrun).later hno
  marked s hs t ht := (hno t.id (h.marked s hs t ht)).1

theorem mem_setRun {job job' : FlattenJob} {r : Option FlattenRun} {run : FlattenRun}
    (hrun : run ∈ (w.setRun job r).runs job') : run ∈ r ∨ run ∈ w.runs job' := by
  by_cases hjob : job' = job
  · subst hjob
    have hself : (w.setRun job' r).runs job' = r := Function.update_self ..
    rw [hself] at hrun
    exact .inl hrun
  · have hother : (w.setRun job r).runs job' = w.runs job' := Function.update_of_ne hjob ..
    rw [hother] at hrun
    exact .inr hrun

theorem Inv.setRun (h : Inv w) {r : Option FlattenRun} (hr : ∀ run ∈ r, run.Sound w.db) :
    Inv (w.setRun job r) where
  runs job' run hrun := (mem_setRun hrun).elim (hr run) (h.runs job' run)
  marked := h.marked

theorem Inv.mark (h : Inv w) {key : MarkKey} {sweep : Sweep Trade}
    (hsweep : ∀ t ∈ sweep.covered, w.db.Held t.id) : Inv (w.mark job key sweep) where
  runs := h.runs
  marked := List.forall_mem_cons.mpr ⟨hsweep, h.marked⟩

theorem Inv.withExecuted (h : Inv w) (executed : FlattenJob → Option MarkKey) :
    Inv { w with executed := executed } :=
  ⟨h.runs, h.marked⟩

theorem openTrades_held : ∀ t ∈ w.openTrades job, w.db.Held t.id := by
  intro t ht
  obtain ⟨hrow, hopen⟩ := List.mem_filter.mp ht
  refine ⟨t, Db.trade?_eq_some.mpr ⟨hrow, rfl⟩, ?_⟩
  rw [(of_decide_eq_true hopen).1]
  exact TradeStatus.noConfusion

theorem Inv.startRun (h : Inv w) (reads : FlattenReads) : Inv (w.startRun job reads) := by
  unfold FlattenWorld.startRun
  split
  · exact h.withExecuted _
  · split
    · exact h
    · split
      · exact h.withExecuted _
      · dsimp only
        split
        · split
          · exact h.mark fun _ ht => absurd ht List.not_mem_nil
          · exact h
        · split
          · exact h
          · refine h.setRun fun run hrun => ?_
            obtain rfl := Option.some.inj hrun
            exact ⟨Sweep.start_accounted _, openTrades_held, openTrades_held⟩

theorem Inv.turn (h : Inv w) (hrun : w.runs job = some run) (htrade : run.sweep.todo.head? = some trade) :
    let t := w.tradeTurn job run trade fate
    Inv ({ w with db := t.db }.setRun job
      (some { run with sweep := run.sweep.turn t.counted t.skips, priceMap := t.priceMap })) := by
  obtain ⟨hno, hitem⟩ := @tradeTurn_spec w job run trade fate
  have hsound := (h.runs job run hrun).later hno
  refine (h.withDb hno).setRun fun run' hrun' => ?_
  obtain rfl := Option.some.inj hrun'
  refine ⟨hsound.accounted.turn fun i hi => ?_, ?_, ?_⟩
  · obtain rfl := Option.some.inj (htrade.symm.trans hi)
    exact hitem
  · rw [Sweep.covered_turn]
    exact hsound.covered
  · exact fun t ht => hsound.todo t (Sweep.todo_turn_subset _ _ _ ht)

theorem Inv.finished (h : Inv w) (hrun : w.runs job = some run) : Inv (w.finished job run) := by
  have hset : Inv (w.setRun job none) := h.setRun fun _ hr => nomatch hr
  unfold FlattenWorld.finished
  split
  · exact hset.mark (h.runs job run hrun).covered
  · exact hset.withExecuted _

theorem step_turn (hstep : w.step (.turn job fate) = some w') :
    ∃ run trade, w.runs job = some run ∧ run.sweep.todo.head? = some trade ∧
      let t := w.tradeTurn job run trade fate
      w' = { w with db := t.db }.setRun job
        (some { run with sweep := run.sweep.turn t.counted t.skips, priceMap := t.priceMap }) := by
  simp only [step, Option.bind_eq_bind, Option.bind_eq_some_iff, Option.some.injEq] at hstep
  obtain ⟨run, hrun, trade, htrade, rfl⟩ := hstep
  exact ⟨run, trade, hrun, htrade, rfl⟩

theorem step_finish (hstep : w.step (.finish job) = some w') :
    ∃ run, w.runs job = some run ∧ run.sweep.todo = [] ∧ w' = w.finished job run := by
  simp only [step, Option.bind_eq_bind, Option.bind_eq_some_iff, Option.guard_eq_some', exists_const,
    Option.some.injEq] at hstep
  obtain ⟨run, hrun, hended, rfl⟩ := hstep
  exact ⟨run, hrun, hended.1, rfl⟩

theorem step_cancelOrder {answered : Bool} (hstep : w.step (.cancelOrder job answered) = some w') :
    ∃ run orders db, w.runs job = some run ∧ w.db.NeverReopens db ∧
      w' = { w with db := db }.setRun job
        (some { run with orders := orders, sweep := if answered then run.sweep else run.sweep.count }) := by
  simp only [step, Option.bind_eq_bind, Option.bind_eq_some_iff, Option.guard_eq_some', exists_const] at hstep
  obtain ⟨run, hrun, -, id, -, hstep⟩ := hstep
  cases answered with
  | true =>
    rw [if_pos rfl] at hstep
    obtain ⟨db, hexec, hw'⟩ := Option.bind_eq_some_iff.mp hstep
    obtain rfl := Option.some.inj hw'
    exact ⟨run, run.orders.tail, db, hrun, Stmt.exec_neverReopens rfl hexec, rfl⟩
  | false =>
    obtain rfl := Option.some.inj hstep
    exact ⟨run, run.orders.tail, w.db, hrun, .refl _, rfl⟩

theorem Inv.step (h : Inv w) {action : FlattenAction} (hstep : w.step action = some w') : Inv w' := by
  cases action with
  | start job reads =>
    obtain ⟨-, rfl⟩ := Option.ite_some_none_eq_some.mp hstep
    exact h.startRun reads
  | turn job fate =>
    obtain ⟨run, trade, hrun, htrade, rfl⟩ := step_turn hstep
    exact h.turn hrun htrade
  | cancelOrder job answered =>
    obtain ⟨run, orders, db, hrun, hno, rfl⟩ := step_cancelOrder hstep
    have hsound := (h.runs job run hrun).later hno
    refine (h.withDb hno).setRun fun run' hrun' => ?_
    obtain rfl := Option.some.inj hrun'
    cases answered with
    | true => exact ⟨hsound.accounted, hsound.covered, hsound.todo⟩
    | false => exact ⟨Sweep.count_accounted _, hsound.covered, hsound.todo⟩
  | finish job =>
    obtain ⟨run, hrun, -, rfl⟩ := step_finish hstep
    exact h.finished hrun
  | restart =>
    cases hstep
    exact ⟨fun _ _ hrun => (nomatch hrun), h.marked⟩
  | other stmt =>
    simp only [FlattenWorld.step] at hstep
    split at hstep
    · rename_i hfills
      obtain ⟨db, hexec, rfl⟩ := Option.map_eq_some_iff.mp hstep
      exact h.withDb (Stmt.exec_neverReopens hfills hexec)
    · cases hstep
  | lock | unlock | setNoOvernight | tick =>
    cases hstep
    exact ⟨h.runs, h.marked⟩

/-! ### Which steps keep the marks true -/

theorem MarksTrue.later (hinv : Inv w) (h : w.MarksTrue) (hno : w.db.NeverReopens w'.db)
    (hmarked : w'.marked = w.marked) : w'.MarksTrue := by
  intro s hs
  rw [hmarked] at hs
  exact ⟨(h s hs).1, fun t ht => (hno t.id (hinv.marked s hs t ht)).2 ((h s hs).2 t ht)⟩

theorem MarksTrue.startRun (h : w.MarksTrue) (reads : FlattenReads) : (w.startRun job reads).MarksTrue := by
  unfold FlattenWorld.startRun
  split
  · exact h
  · split
    · exact h
    · split
      · exact h
      · dsimp only
        split
        · split
          · exact List.forall_mem_cons.mpr ⟨⟨rfl, fun _ ht => absurd ht List.not_mem_nil⟩, h⟩
          · exact h
        · split
          · exact h
          · exact h

/-- A run that ends leaves its mark true exactly when it has counted an error or skipped nothing. -/
theorem finished_marksTrue (hinv : Inv w) (h : w.MarksTrue) (hrun : w.runs job = some run)
    (htodo : run.sweep.todo = []) :
    (w.finished job run).MarksTrue ↔ (run.sweep.errors = 0 → run.sweep.skipped = []) := by
  unfold FlattenWorld.finished
  split
  case isTrue hclean =>
    constructor
    · exact fun hmarks _ => (hmarks run.sweep List.mem_cons_self).1
    · intro hswept
      have hskipped := hswept hclean
      refine List.forall_mem_cons.mpr ⟨⟨hskipped, ?_⟩, h⟩
      exact (hinv.runs job run hrun).accounted.all_done htodo hclean hskipped
  case isFalse hcounted => exact iff_of_true h fun hclean => absurd hclean hcounted

theorem marksTrue_exact (hinv : Inv w) (h : w.MarksTrue) {action : FlattenAction}
    (hstep : w.step action = some w') : w'.MarksTrue ↔ w.EndsSwept action := by
  cases action with
  | start job reads =>
    obtain ⟨-, rfl⟩ := Option.ite_some_none_eq_some.mp hstep
    exact iff_of_true (h.startRun reads) trivial
  | turn job fate =>
    obtain ⟨run, trade, -, -, rfl⟩ := step_turn hstep
    exact iff_of_true (h.later hinv tradeTurn_spec.1 rfl) trivial
  | cancelOrder job answered =>
    obtain ⟨run, orders, db, -, hno, rfl⟩ := step_cancelOrder hstep
    exact iff_of_true (h.later hinv hno rfl) trivial
  | finish job =>
    obtain ⟨run, hrun, htodo, rfl⟩ := step_finish hstep
    rw [finished_marksTrue hinv h hrun htodo]
    simp only [EndsSwept, hrun, Option.mem_some_iff, forall_eq']
  | other stmt =>
    simp only [FlattenWorld.step] at hstep
    split at hstep
    · rename_i hfills
      obtain ⟨db, hexec, rfl⟩ := Option.map_eq_some_iff.mp hstep
      exact iff_of_true (h.later hinv (Stmt.exec_neverReopens hfills hexec) rfl) trivial
    · cases hstep
  | restart | lock | unlock | setNoOvernight | tick =>
    cases hstep
    exact iff_of_true h trivial

/-! ### Turns that count what they skip -/

/-- No run in its loop has skipped a position and counted nothing. -/
def Swept (w : FlattenWorld) : Prop :=
  ∀ job, ∀ run ∈ w.runs job, run.sweep.errors = 0 → run.sweep.skipped = []

theorem Swept.setRun (h : w.Swept) {r : Option FlattenRun}
    (hr : ∀ run ∈ r, run.sweep.errors = 0 → run.sweep.skipped = []) : (w.setRun job r).Swept := by
  intro job' run hrun
  exact (mem_setRun hrun).elim (hr run) (h job' run)

theorem Swept.startRun (h : w.Swept) (reads : FlattenReads) : (w.startRun job reads).Swept := by
  unfold FlattenWorld.startRun
  split
  · exact h
  · split
    · exact h
    · split
      · exact h
      · dsimp only
        split
        · split
          · exact h
          · exact h
        · split
          · exact h
          · refine h.setRun fun run hrun _ => ?_
            obtain rfl := Option.some.inj hrun
            rfl

theorem Swept.step (h : w.Swept) {action : FlattenAction} (hloud : w.NoSilentSkip action)
    (hstep : w.step action = some w') : w'.Swept := by
  cases action with
  | start job reads =>
    obtain ⟨-, rfl⟩ := Option.ite_some_none_eq_some.mp hstep
    exact h.startRun reads
  | turn job fate =>
    obtain ⟨run, trade, hrun, htrade, rfl⟩ := step_turn hstep
    have hkept : Swept { w with db := (w.tradeTurn job run trade fate).db } := h
    refine hkept.setRun fun run' hrun' => ?_
    obtain rfl := Option.some.inj hrun'
    refine Sweep.turn_swept (h job run hrun) fun hskips => ?_
    by_contra hsilent
    exact hloud run hrun trade htrade (tradeTurn_silent hskips (Bool.eq_false_iff.mpr hsilent))
  | cancelOrder job answered =>
    obtain ⟨run, orders, db, hrun, -, rfl⟩ := step_cancelOrder hstep
    have hkept : Swept { w with db := db } := h
    refine hkept.setRun fun run' hrun' => ?_
    obtain rfl := Option.some.inj hrun'
    cases answered with
    | true => exact h job run hrun
    | false => exact fun hclean => absurd hclean (Nat.succ_ne_zero _)
  | finish job =>
    obtain ⟨run, hrun, -, rfl⟩ := step_finish hstep
    have hset : (w.setRun job none).Swept := h.setRun fun _ hr => nomatch hr
    unfold FlattenWorld.finished
    split
    · exact hset
    · exact hset
  | restart =>
    cases hstep
    exact fun _ _ hrun => nomatch hrun
  | other stmt =>
    simp only [FlattenWorld.step] at hstep
    split at hstep
    · obtain ⟨db, -, rfl⟩ := Option.map_eq_some_iff.mp hstep
      exact h
    · cases hstep
  | lock | unlock | setNoOvernight | tick =>
    cases hstep
    exact h

/-! ### Whole runs -/

theorem Start.inv (hstart : w.Start) : Inv w := by
  refine ⟨fun job run hrun => ?_, fun s hs => ?_⟩
  · rw [hstart.1 job] at hrun
    cases hrun
  · rw [hstart.2] at hs
    exact absurd hs List.not_mem_nil

theorem Start.marksTrue (hstart : w.Start) : w.MarksTrue := by
  intro s hs
  rw [hstart.2] at hs
  exact absurd hs List.not_mem_nil

theorem Start.swept (hstart : w.Start) : w.Swept := by
  intro job run hrun
  rw [hstart.1 job] at hrun
  cases hrun

/-- Over any run, every mark is true in every state exactly when no job ends clean having skipped a
position, and so whenever no turn skips its position silently. -/
theorem marksTrue_iff_endsSwept (hstart : w.Start) {actions : List FlattenAction}
    (hrun : Transition.run FlattenWorld.step w actions = some w') :
    (Along FlattenWorld.step MarksTrue w actions ↔ RunOk FlattenWorld.step EndsSwept w actions) ∧
    (RunOk FlattenWorld.step NoSilentSkip w actions → Along FlattenWorld.step MarksTrue w actions) := by
  have hexact : Along FlattenWorld.step MarksTrue w actions ↔ RunOk FlattenWorld.step EndsSwept w actions :=
    along_iff_runOk (fun _ _ _ h hstep => h.step hstep)
      (fun _ _ _ hinv h hstep => marksTrue_exact hinv h hstep) hstart.inv hstart.marksTrue hrun
  refine ⟨hexact, fun hloud => hexact.mpr ?_⟩
  refine hloud.imp_of_invariant Swept hstart.swept (fun _ _ _ h hok hstep => h.step hok hstep) ?_
  intro s action h _
  cases action with
  | finish job => exact h job
  | start | turn | cancelOrder | restart | other | lock | unlock | setNoOvernight | tick => exact trivial

/-- A Friday at 21:00 with a position in the euro and one in gold. -/
def fridayEvening : FlattenWorld where
  db := hedgedAccount
  noOvernight := []
  locked := []
  executed := fun _ => none
  runs := fun _ => none
  marked := []
  now := 162000

theorem fridayEvening_start : fridayEvening.Start := ⟨fun _ => rfl, rfl⟩

/-- The weekend job over both positions, every call of it answered. -/
def weekendRun (goldUp : Bool) : List FlattenAction :=
  let fate : TradeFate := ⟨some (hedgedMarket goldUp).prices, noConversion, true, .commits, true, true⟩
  [.start .weekendClose ⟨none, false, false⟩, .turn .weekendClose fate, .turn .weekendClose fate,
    .finish .weekendClose]

theorem weekendRun_marksTrue : ∃ w',
    Transition.run FlattenWorld.step fridayEvening (weekendRun true) = some w' ∧
      w'.executed .weekendClose = some (.day 1) ∧
      Along FlattenWorld.step MarksTrue fridayEvening (weekendRun true) := by
  obtain ⟨w', hrun, hmark⟩ := exists_of_run_any FlattenWorld.step fridayEvening (weekendRun true)
    (fun w' => w'.executed .weekendClose = some (.day 1)) (by decide +kernel)
  have hloud : RunOk FlattenWorld.step NoSilentSkip fridayEvening (weekendRun true) := by decide +kernel
  exact ⟨w', hrun, of_decide_eq_true hmark,
    (marksTrue_iff_endsSwept fridayEvening_start hrun).2 hloud⟩

/-- Without a price for gold the weekend is marked done, and the gold position is still open. -/
theorem weekendRun_without_gold :
    ¬ ∀ (w w' : FlattenWorld) (actions : List FlattenAction), w.Start →
      Transition.run FlattenWorld.step w actions = some w' → Along FlattenWorld.step MarksTrue w actions := by
  intro h
  obtain ⟨w', hrun, -⟩ := exists_of_run_any FlattenWorld.step fridayEvening (weekendRun false)
    (fun w' => w'.executed .weekendClose = some (.day 1) ∧ w'.db.isOpen 2 = true) (by decide +kernel)
  have hfalse : ¬ Along FlattenWorld.step MarksTrue fridayEvening (weekendRun false) := by decide +kernel
  exact hfalse (h fridayEvening w' (weekendRun false) fridayEvening_start hrun)

end FlattenWorld

end PropFirm
