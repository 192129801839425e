import PropFirm.TradeTransactions
import PropFirm.Lib.RowLocks

/-!
# Filling pending orders, statement by statement

`fillPendingOrder` runs as a transaction of several statements, and between any two of them the other
engine, the trader and every other writer of `trades` may act. Here the transaction is played one
statement, and in its last update one row, at a time. It locks its own order first, skipping a locked
one, and the sibling of an OCO pair only after it has opened its own row, so that the fills of two
siblings take the same two rows in opposite orders: each then waits for the other until the database
rolls one of them back. A transaction may be rolled back at any point, by a failure, a deadlock or a
crash.

The two legs of a pair are never both positions, at the same time or one after the other, and once one
of them has been a position the other is cancelled.
-/

namespace PropFirm

open Transition

/-- Whose transaction holds a row: the fill of an order, or another connection. -/
inductive Session
  | fill (orderId : Nat)
  | other (connection : Nat)
  deriving DecidableEq

/-- How far a fill has come. The update of the siblings has found its rows when it starts, and visits
them one after the other. -/
inductive FillStage
  | locked
  | validated (limitError : Option String)
  | filled
  | cancellingSiblings (targets : List Nat)
  | written
  deriving DecidableEq

/-- The rows the update of the siblings has still to visit, once it has started. -/
def FillStage.remaining : FillStage → Option (List Nat)
  | .cancellingSiblings targets => some targets
  | .written => some []
  | _ => none

/-- A transaction of `fillPendingOrder`, with the order as the engine had read it. -/
structure PendingFill where
  order : Trade
  price : Quote
  maxOpenTrades : Nat
  stage : FillStage

/-- What the other transactions do to a row of `trades`: the unguarded cancellation of the engines, the
guarded one of the trader, the scheduled closes and the settlements, the edits of either kind of row,
and the closes, some of which write a position they read as open in an earlier state. -/
inductive RowWrite
  | cancelPendingOrder (reason : String)
  | cancelWhilePending (reason : String)
  | modify (status : TradeStatus) (stopLoss takeProfit pendingPrice : Option ℚ)
  | close (asOf : Nat) (closePrice : Option ℚ) (pnl : Cents) (reason : String) (clearDeferred : Bool)

/-- The edit of an order or of a position; that of a position drops its deferred trigger. -/
def Trade.repriced (stopLoss takeProfit pendingPrice : Option ℚ) : Table.Rewrite Trade where
  apply t :=
    { t with
      stopLoss := stopLoss
      takeProfit := takeProfit
      pendingPrice := pendingPrice
      pendingClosePrice := if t.status = .opened then none else t.pendingClosePrice
      pendingCloseReason := if t.status = .opened then none else t.pendingCloseReason }
  key_apply _ := rfl

/-- The row is or was a position. -/
def Trade.IsPosition (t : Trade) : Prop := t.status = .opened ∨ t.status = .closed

instance (t : Trade) : Decidable t.IsPosition := inferInstanceAs (Decidable (_ ∨ _))

/-- The committed database with every state it went through, the rows held by transactions in flight,
and the fills among those by the order they fill. -/
structure PendingWorld where
  db : Db
  history : List Db
  drafts : Drafts Session Trade
  fills : Nat → Option PendingFill
  clock : Nat

inductive PendingAction
  | placePendingOrder (req : OrderRequest) (leg : PendingLeg) (sibling : Option (PendingLeg × Nat))
  | openTrade (req : OrderRequest) (id : Nat) (openPrice : ℚ)
  | setAccountStatus (accountId : Nat) (status : AccountStatus)
  | checkPendingOrder (connection asOf orderId : Nat) (price : Quote) (maxOpenTrades : Nat)
  | fillTriggeredPendingOrder (connection orderAsOf accountAsOf orderId : Nat) (scan price : Quote)
      (maxOpenTrades : Nat)
  | advanceFill (orderId : Nat)
  | commitFill (orderId : Nat)
  | cancelTradeHandler (connection orderId : Nat)
  | writeRow (connection id : Nat) (write : RowWrite)
  | commitOther (connection : Nat)
  | rollback (session : Session)
  | tick (seconds : Nat)

/-- The rows the update of the siblings is for. -/
def siblingCond (group orderId : Nat) (t : Trade) : Bool :=
  t.ocoGroupId = some group ∧ t.id ≠ orderId ∧ t.status = .pending

namespace PendingWorld

def advance (w : PendingWorld) (db : Db) : PendingWorld := { w with db := db, history := db :: w.history }

/-- The database as a statement of the session sees it. -/
def viewDb (w : PendingWorld) (s : Session) : Db := { w.db with trades := w.drafts.view w.db.trades s }

def setFill (w : PendingWorld) (orderId : Nat) (f : Option PendingFill) : PendingWorld :=
  { w with fills := Function.update w.fills orderId f }

def put (w : PendingWorld) (s : Session) (t : Trade) : PendingWorld := { w with drafts := w.drafts.put s t }

/-- The session is over and its rows are free. -/
def endSession (w : PendingWorld) (s : Session) : PendingWorld :=
  { w with
    drafts := w.drafts.release s
    fills := fun orderId => if s = .fill orderId then none else w.fills orderId }

def commit (w : PendingWorld) (s : Session) : PendingWorld := (w.advance (w.viewDb s)).endSession s

/-- The row a write leaves, `none` where its condition does not hold of the row. -/
def rewrite? (w : PendingWorld) (t : Trade) : RowWrite → Option Trade
  | .cancelPendingOrder reason => some ((Trade.cancelledAt reason w.clock).apply t)
  | .cancelWhilePending reason =>
    if t.status = .pending then some ((Trade.cancelledAt reason w.clock).apply t) else none
  | .modify status stopLoss takeProfit pendingPrice =>
    if t.status = status then some ((Trade.repriced stopLoss takeProfit pendingPrice).apply t) else none
  | .close asOf closePrice pnl reason clearDeferred => do
    let past ← w.history[asOf]?
    let seen ← past.trade? t.id
    guard (seen.status = .opened)
    some ((Trade.closedAt closePrice pnl reason w.clock clearDeferred).apply t)

/-- An update of one row on a connection, which waits while another transaction holds the row. -/
def writeRow (w : PendingWorld) (connection id : Nat) (write : RowWrite) : Option PendingWorld := do
  guard (w.drafts.free (.other connection) id = true)
  let t ← (w.viewDb (.other connection)).trade? id
  let t' ← w.rewrite? t write
  some (w.put (.other connection) t')

/-- The first statement of `fillPendingOrder`: `FOR UPDATE SKIP LOCKED` on the order. -/
def beginFill (w : PendingWorld) (order : Trade) (price : Quote) (maxOpenTrades : Nat) :
    Option PendingWorld := do
  let row ← w.db.trade? order.id
  guard (row.status = .pending ∧ (w.drafts order.id).isNone)
  some ((w.put (.fill order.id) row).setFill order.id (some ⟨order, price, maxOpenTrades, .locked⟩))

/-- The statements of `fillPendingOrder` after the lock. -/
def runFill (w : PendingWorld) (orderId : Nat) (f : PendingFill) : Option PendingWorld :=
  let view := w.viewDb (.fill orderId)
  let enter (stage : FillStage) (w : PendingWorld) := w.setFill orderId (some { f with stage := stage })
  match f.stage with
  | .locked => some (enter (.validated (validatePendingTrigger view f.order f.maxOpenTrades)) w)
  | .validated (some limitError) => do
    let row ← view.trade? orderId
    some (enter .written (w.put (.fill orderId) ((Trade.cancelledAt limitError w.clock).apply row)))
  | .validated none => do
    let row ← view.trade? orderId
    let openPrice := f.price.openSide f.order.direction
    some (enter .filled (w.put (.fill orderId) ((Trade.filledAt openPrice w.clock).apply row)))
  | .filled =>
    match f.order.ocoGroupId with
    | none => some (enter .written w)
    | some group =>
      let targets := view.trades.rows.filter (siblingCond group orderId)
      some (enter (.cancellingSiblings (targets.map Trade.id)) w)
  | .cancellingSiblings [] => some (enter .written w)
  | .cancellingSiblings (id :: rest) => do
    guard (w.drafts.free (.fill orderId) id = true)
    let group ← f.order.ocoGroupId
    let row ← view.trade? id
    -- the row is read again once it is free
    if siblingCond group orderId row then
      let cancelled := (Trade.cancelledAt "OCO sibling triggered" w.clock).apply row
      some (enter (.cancellingSiblings rest) (w.put (.fill orderId) cancelled))
    else some (enter (.cancellingSiblings rest) w)
  | .written => none

/-- What an engine does with a pending order it has read, as in `processPendingOrder`. -/
def processPendingOrder (w : PendingWorld) (connection : Nat) (order : Trade) (acc : Account)
    (scan price : Quote) (maxOpenTrades : Nat) : Option PendingWorld :=
  match staleOrderReason acc w.clock with
  | some reason => w.writeRow connection order.id (.cancelPendingOrder reason)
  | none => if pendingTriggered order scan then w.beginFill order price maxOpenTrades else none

def step (w : PendingWorld) : PendingAction → Option PendingWorld
  | .placePendingOrder req leg sibling => do
    -- `uuidv4` gives a group no row has
    guard (sibling.all fun s => w.db.trades.rows.all fun t => t.ocoGroupId ≠ some s.2)
    let stmts ← PropFirm.placePendingOrder w.db req leg sibling
    let db ← execAll w.db stmts
    some (w.advance db)
  | .openTrade req id openPrice => do
    let stmts ← PropFirm.openTrade w.db req id openPrice w.clock
    let db ← execAll w.db stmts
    some (w.advance db)
  | .setAccountStatus accountId status => do
    let db ← (Stmt.setStatus accountId status).exec w.db
    some (w.advance db)
  | .checkPendingOrder connection asOf orderId price maxOpenTrades => do
    let seen ← w.history[asOf]?
    let order ← seen.trade? orderId
    let acc ← seen.account? order.accountId
    guard (order.status = .pending)
    w.processPendingOrder connection order acc price price maxOpenTrades
  | .fillTriggeredPendingOrder connection orderAsOf accountAsOf orderId scan price maxOpenTrades => do
    let seenOrder ← w.history[orderAsOf]?
    let seenAccount ← w.history[accountAsOf]?
    let order ← seenOrder.trade? orderId
    let acc ← seenAccount.account? order.accountId
    guard (order.status = .pending)
    w.processPendingOrder connection order acc scan price maxOpenTrades
  | .advanceFill orderId => do
    let f ← w.fills orderId
    w.runFill orderId f
  | .commitFill orderId => do
    let f ← w.fills orderId
    guard (f.stage = .written)
    some (w.commit (.fill orderId))
  | .cancelTradeHandler connection orderId =>
    w.writeRow connection orderId (.cancelWhilePending "Cancelled by trader")
  | .writeRow connection id write => w.writeRow connection id write
  | .commitOther connection => some (w.commit (.other connection))
  | .rollback session => some (w.endSession session)
  | .tick seconds => some { w with clock := w.clock + seconds }

/-! ### What holds between the statements -/

/-- Some committed state has or had the row as a position. -/
def EverPosition (w : PendingWorld) (id : Nat) : Prop :=
  ∃ past ∈ w.history, ∃ t, past.trade? id = some t ∧ t.IsPosition

/-- Two legs of one OCO group. -/
structure Siblings (a b : Trade) : Prop where
  group : a.ocoGroupId = b.ocoGroupId
  grouped : a.ocoGroupId.isSome
  ne : a.id ≠ b.id

theorem Siblings.symm {a b : Trade} (h : Siblings a b) : Siblings b a :=
  ⟨h.group.symm, h.group ▸ h.grouped, h.ne.symm⟩

/-- What a session may draft over a committed row: no row becomes pending again, only the fill of an
order opens it, and a fill cancels every other row it drafts. -/
structure WriteOk (ever : Nat → Prop) (s : Session) (t r : Trade) : Prop where
  group : r.ocoGroupId = t.ocoGroupId
  pending : r.status = .pending → t.status = .pending
  position : r.IsPosition → ever t.id ∨ s = .fill t.id
  sibling : ∀ orderId, s = .fill orderId → t.id ≠ orderId → r.status = .cancelled

/-- The row is cancelled, or held by the fill of that order. -/
def SweptBy (drafts : Drafts Session Trade) (orderId : Nat) (t : Trade) : Prop :=
  t.status = .cancelled ∨ ∃ d, drafts t.id = some d ∧ d.owner = .fill orderId

/-- A fill in flight holds its own row, which is still pending to everybody else, and once it has
opened it and begun with the siblings, those it is through with are swept. -/
structure Filling (db : Db) (drafts : Drafts Session Trade) (orderId : Nat) (f : PendingFill) (t : Trade)
    (d : Draft Session Trade orderId) : Prop where
  row : db.trade? orderId = some t
  pending : t.status = .pending
  group : t.ocoGroupId = f.order.ocoGroupId
  draft : drafts orderId = some d
  owner : d.owner = .fill orderId
  swept : ∀ targets, f.stage.remaining = some targets → d.row.IsPosition → ∀ b ∈ db.trades.rows,
    Siblings t b → b.id ∈ targets ∨ SweptBy drafts orderId b

structure Inv (w : PendingWorld) : Prop where
  current : w.db ∈ w.history
  kept : ∀ past ∈ w.history, ∀ id t, past.trade? id = some t →
    ∃ t', w.db.trade? id = some t' ∧ t'.ocoGroupId = t.ocoGroupId
  drafted : ∀ id d, w.drafts id = some d → ∃ t, w.db.trade? id = some t ∧
    WriteOk w.EverPosition d.owner t d.row ∧ ∀ orderId, d.owner = .fill orderId → (w.fills orderId).isSome
  filling : ∀ orderId f, w.fills orderId = some f → ∃ t d, Filling w.db w.drafts orderId f t d
  exclusive : ∀ a ∈ w.db.trades.rows, ∀ b ∈ w.db.trades.rows, Siblings a b → w.EverPosition a.id →
    b.status = .cancelled ∧ ¬ w.EverPosition b.id

variable {w w' : PendingWorld}

theorem everPosition_advance {db : Db} {id : Nat} :
    (w.advance db).EverPosition id ↔
      (∃ t, db.trade? id = some t ∧ t.IsPosition) ∨ w.EverPosition id := by
  simp [EverPosition, advance]

theorem Inv.everPosition (hinv : Inv w) {id : Nat} {t : Trade} (ht : w.db.trade? id = some t)
    (hposition : t.IsPosition) : w.EverPosition id :=
  ⟨w.db, hinv.current, t, ht, hposition⟩

/-- A sibling of a row still pending has never been a position. -/
theorem Inv.not_everPosition (hinv : Inv w) {a b : Trade} (ha : a ∈ w.db.trades.rows)
    (hb : b ∈ w.db.trades.rows) (hsiblings : Siblings a b) (hpending : a.status = .pending) :
    ¬ w.EverPosition b.id := by
  intro hever
  have hcancelled := (hinv.exclusive b hb a ha hsiblings.symm hever).1
  rw [hpending] at hcancelled
  cases hcancelled

theorem Inv.fill_of_owner (hinv : Inv w) {id orderId : Nat} {d : Draft Session Trade id}
    (hdraft : w.drafts id = some d) (howner : d.owner = .fill orderId) :
    ∃ f t e, w.fills orderId = some f ∧ Filling w.db w.drafts orderId f t e := by
  obtain ⟨_, _, _, hfills⟩ := hinv.drafted id d hdraft
  obtain ⟨f, hf⟩ := Option.isSome_iff_exists.mp (hfills orderId howner)
  obtain ⟨t, e, hfilling⟩ := hinv.filling orderId f hf
  exact ⟨f, t, e, hf, hfilling⟩

/-- A cancelled row that has never been a position is drafted as nothing else. -/
theorem Inv.draft_cancelled (hinv : Inv w) {t : Trade} {id : Nat} (ht : w.db.trade? id = some t)
    (hcancelled : t.status = .cancelled) (hnever : ¬ w.EverPosition id) {d : Draft Session Trade id}
    (hdraft : w.drafts id = some d) : d.row.status = .cancelled := by
  obtain ⟨t', ht', hwrite, hfills⟩ := hinv.drafted id d hdraft
  obtain rfl := Option.some.inj (ht.symm.trans ht')
  have hid := Db.trade?_id ht
  have hnotFill : d.owner ≠ .fill t.id := by
    intro howner
    rw [hid] at howner
    obtain ⟨f, t'', e, _, hfilling⟩ := hinv.fill_of_owner hdraft howner
    obtain rfl := Option.some.inj (ht.symm.trans hfilling.row)
    have hpending := hfilling.pending
    rw [hcancelled] at hpending
    cases hpending
  have hnotPosition : ¬ d.row.IsPosition := by
    intro hposition
    rcases hwrite.position hposition with hever | howner
    · exact hnever (hid ▸ hever)
    · exact hnotFill howner
  cases hstatus : d.row.status with
  | pending =>
    have hpending := hwrite.pending hstatus
    rw [hcancelled] at hpending
    cases hpending
  | opened => exact absurd (.inl hstatus) hnotPosition
  | closed => exact absurd (.inr hstatus) hnotPosition
  | cancelled => rfl

/-! ### Drafting a row -/

/-- Whoever takes a free row leaves every other fill in flight as it is. -/
theorem Filling.put {s : Session} {r : Trade} {orderId : Nat} {f : PendingFill} {t : Trade}
    {d : Draft Session Trade orderId} (hfilling : Filling w.db w.drafts orderId f t d)
    (hfree : w.drafts.free s r.id = true) (hs : s ≠ .fill orderId) :
    Filling w.db (w.drafts.put s r) orderId f t d := by
  have hkeeps : ∀ id (e : Draft Session Trade id), w.drafts id = some e → e.owner = .fill orderId →
      w.drafts.put s r id = some e := by
    intro id e hdraft howner
    exact Drafts.put_keeps hfree hdraft (howner ▸ hs.symm)
  refine ⟨hfilling.row, hfilling.pending, hfilling.group, hkeeps _ _ hfilling.draft hfilling.owner,
    hfilling.owner, ?_⟩
  intro targets hremaining hposition b hb hsiblings
  rcases hfilling.swept targets hremaining hposition b hb hsiblings with hmem | hcancelled | ⟨e, he, howner⟩
  · exact .inl hmem
  · exact .inr (.inl hcancelled)
  · exact .inr (.inr ⟨e, hkeeps _ _ he howner, howner⟩)

/-- The drafts after a row has been taken, with the fills in flight as they are then. -/
theorem Inv.drafted_put (hinv : Inv w) {s : Session} {t r : Trade} {fills : Nat → Option PendingFill}
    (ht : w.db.trade? r.id = some t) (hwrite : WriteOk w.EverPosition s t r)
    (hfills : ∀ orderId, (w.fills orderId).isSome → (fills orderId).isSome)
    (hs : ∀ orderId, s = .fill orderId → (fills orderId).isSome) :
    ∀ id d, w.drafts.put s r id = some d → ∃ t, w.db.trade? id = some t ∧
      WriteOk w.EverPosition d.owner t d.row ∧
        ∀ orderId, d.owner = .fill orderId → (fills orderId).isSome := by
  intro id d hput
  rcases Drafts.put_eq_some hput with ⟨hkey, howner, hrow⟩ | ⟨_, hdraft⟩
  · obtain ⟨owner, row, _⟩ := d
    dsimp only at howner hrow
    subst hkey howner hrow
    exact ⟨t, ht, hwrite, hs⟩
  · obtain ⟨t', ht', hwrite', hfilled⟩ := hinv.drafted id d hdraft
    exact ⟨t', ht', hwrite', fun orderId howner => hfills orderId (hfilled orderId howner)⟩

theorem fills_setFill_isSome {orderId orderId' : Nat} {f : PendingFill}
    (hfills : orderId' ≠ orderId → (w.fills orderId').isSome) :
    ((w.setFill orderId (some f)).fills orderId').isSome := by
  by_cases hsame : orderId' = orderId
  · subst hsame
    exact congrArg Option.isSome (Function.update_self orderId' (some f) w.fills)
  · exact (congrArg Option.isSome (Function.update_of_ne hsame (some f) w.fills)).trans (hfills hsame)

theorem fills_setFill_eq_some {orderId orderId' : Nat} {f f' : PendingFill}
    (hf' : (w.setFill orderId (some f)).fills orderId' = some f') :
    (orderId' = orderId ∧ f' = f) ∨ (orderId' ≠ orderId ∧ w.fills orderId' = some f') := by
  by_cases hsame : orderId' = orderId
  · subst hsame
    have hself : (w.setFill orderId' (some f)).fills orderId' = some f := Function.update_self ..
    exact .inl ⟨rfl, Option.some.inj (hf'.symm.trans hself)⟩
  · have hother : (w.setFill orderId (some f)).fills orderId' = w.fills orderId' :=
      Function.update_of_ne hsame ..
    exact .inr ⟨hsame, hother.symm.trans hf'⟩

theorem Inv.put_other (hinv : Inv w) {connection : Nat} {t r : Trade}
    (hfree : w.drafts.free (.other connection) r.id = true) (ht : w.db.trade? r.id = some t)
    (hwrite : WriteOk w.EverPosition (.other connection) t r) : Inv (w.put (.other connection) r) where
  current := hinv.current
  kept := hinv.kept
  drafted := hinv.drafted_put ht hwrite (fun _ h => h) nofun
  filling := by
    intro orderId f hf
    obtain ⟨t', d, hfilling⟩ := hinv.filling orderId f hf
    exact ⟨t', d, hfilling.put hfree nofun⟩
  exclusive := hinv.exclusive

/-- A fill enters its next stage without writing. -/
theorem Inv.setFill (hinv : Inv w) {orderId : Nat} {f : PendingFill} {t : Trade}
    {d : Draft Session Trade orderId} (hfilling : Filling w.db w.drafts orderId f t d) :
    Inv (w.setFill orderId (some f)) where
  current := hinv.current
  kept := hinv.kept
  drafted := by
    intro id e hdraft
    obtain ⟨t', ht', hwrite, hfills⟩ := hinv.drafted id e hdraft
    exact ⟨t', ht', hwrite, fun orderId' howner => fills_setFill_isSome fun _ => hfills orderId' howner⟩
  filling := by
    intro orderId' f' hf'
    rcases fills_setFill_eq_some hf' with ⟨rfl, rfl⟩ | ⟨_, hf⟩
    · exact ⟨t, d, hfilling⟩
    · exact hinv.filling orderId' f' hf
  exclusive := hinv.exclusive

/-- A fill takes a row, drafts it and enters its next stage. -/
theorem Inv.put_fill (hinv : Inv w) {orderId : Nat} {f : PendingFill} {t r own : Trade}
    {d : Draft Session Trade orderId} (hfree : w.drafts.free (.fill orderId) r.id = true)
    (ht : w.db.trade? r.id = some t) (hwrite : WriteOk w.EverPosition (.fill orderId) t r)
    (hfilling : Filling w.db (w.drafts.put (.fill orderId) r) orderId f own d) :
    Inv ((w.put (.fill orderId) r).setFill orderId (some f)) where
  current := hinv.current
  kept := hinv.kept
  drafted := hinv.drafted_put ht hwrite
    (fun orderId' hfills => fills_setFill_isSome fun _ => hfills)
    fun orderId' hs => fills_setFill_isSome fun hne => absurd (Session.fill.inj hs).symm hne
  filling := by
    intro orderId' f' hf'
    rcases fills_setFill_eq_some hf' with ⟨rfl, rfl⟩ | ⟨hne, hf⟩
    · exact ⟨own, d, hfilling⟩
    · obtain ⟨t', d', hfilling'⟩ := hinv.filling orderId' f' hf
      exact ⟨t', d', hfilling'.put hfree fun h => hne (Session.fill.inj h).symm⟩
  exclusive := hinv.exclusive

theorem rewrite?_eq_some {t t' : Trade} {write : RowWrite} (hrewrite : w.rewrite? t write = some t') :
    t'.id = t.id ∧ t'.ocoGroupId = t.ocoGroupId ∧ (t'.status = .pending → t.status = .pending) ∧
      (t'.IsPosition → t.IsPosition ∨ w.EverPosition t.id) := by
  cases write with
  | cancelPendingOrder reason =>
    cases hrewrite
    exact ⟨rfl, rfl, nofun, nofun⟩
  | cancelWhilePending reason =>
    obtain ⟨hpending, rfl⟩ := Option.ite_some_none_eq_some.mp hrewrite
    exact ⟨rfl, rfl, nofun, nofun⟩
  | modify status stopLoss takeProfit pendingPrice =>
    obtain ⟨-, rfl⟩ := Option.ite_some_none_eq_some.mp hrewrite
    exact ⟨rfl, rfl, id, .inl⟩
  | close asOf closePrice pnl reason clearDeferred =>
    simp only [rewrite?, Option.bind_eq_bind, Option.bind_eq_some_iff, Option.guard_eq_some',
      exists_const, Option.some.injEq] at hrewrite
    obtain ⟨past, hpast, seen, hseen, hopen, rfl⟩ := hrewrite
    refine ⟨rfl, rfl, nofun, fun _ => .inr ⟨past, List.mem_of_getElem? hpast, seen, hseen, .inl hopen⟩⟩

/-- A session's own view of a row is the committed row or a draft that obeys `WriteOk`. -/
theorem Inv.viewed (hinv : Inv w) {s : Session} {id : Nat} {v : Trade}
    (hview : (w.viewDb s).trade? id = some v) :
    ∃ t, w.db.trade? id = some t ∧
      ((∃ d, w.drafts id = some d ∧ d.owner = s ∧ v = d.row ∧ WriteOk w.EverPosition s t v) ∨
        (v = t ∧ ∀ d, w.drafts id = some d → d.owner ≠ s)) := by
  rcases Drafts.find?_view_eq_some hview with ⟨_, d, _, hdraft, howner, rfl⟩ | ⟨hrow, hothers⟩
  · obtain ⟨t, ht, hwrite, _⟩ := hinv.drafted id d hdraft
    exact ⟨t, ht, .inl ⟨d, hdraft, howner, rfl, howner ▸ hwrite⟩⟩
  · exact ⟨v, hrow, .inr ⟨rfl, hothers⟩⟩

theorem Inv.writeRow (hinv : Inv w) {connection id : Nat} {write : RowWrite}
    (hwrite : w.writeRow connection id write = some w') : Inv w' := by
  simp only [PendingWorld.writeRow, Option.bind_eq_bind, Option.bind_eq_some_iff, Option.guard_eq_some',
    exists_const, Option.some.injEq] at hwrite
  obtain ⟨hfree, v, hview, r, hrewrite, rfl⟩ := hwrite
  obtain ⟨hrid, hgroup, hpending, hposition⟩ := rewrite?_eq_some hrewrite
  have hvid := Db.trade?_id hview
  obtain ⟨t, ht, hseen⟩ := hinv.viewed hview
  have hid : r.id = id := hrid.trans hvid
  have htid := Db.trade?_id ht
  refine hinv.put_other (hid ▸ hfree) (hid ▸ ht) ⟨?_, ?_, ?_, nofun⟩
  · rcases hseen with ⟨_, _, _, _, hok⟩ | ⟨rfl, _⟩
    · exact hgroup.trans hok.group
    · exact hgroup
  · rcases hseen with ⟨_, _, _, _, hok⟩ | ⟨rfl, _⟩
    · exact fun h => hok.pending (hpending h)
    · exact hpending
  · intro hpos
    rcases hposition hpos with hv | hever
    · rcases hseen with ⟨_, _, _, _, hok⟩ | ⟨rfl, _⟩
      · exact hok.position hv
      · exact .inl (htid ▸ hinv.everPosition ht hv)
    · exact .inl (by rwa [htid, ← hvid])

/-! ### The statements of a fill -/

/-- A sibling that the fill sees pending no more is swept. -/
theorem Inv.sweptBy (hinv : Inv w) {orderId : Nat} {f : PendingFill} {t b v : Trade}
    {d : Draft Session Trade orderId} (hfilling : Filling w.db w.drafts orderId f t d)
    (hb : b ∈ w.db.trades.rows) (hsiblings : Siblings t b)
    (hview : (w.viewDb (.fill orderId)).trade? b.id = some v) (hnot : v.status ≠ .pending) :
    SweptBy w.drafts orderId b := by
  have hrow : w.db.trade? b.id = some b := Db.trade?_eq_some.mpr ⟨hb, rfl⟩
  have ht := (Db.trade?_eq_some.mp hfilling.row).1
  obtain ⟨b', hb', ⟨e, hdraft, howner, _⟩ | ⟨rfl, _⟩⟩ := hinv.viewed hview
  · exact .inr ⟨e, hdraft, howner⟩
  · obtain rfl := Option.some.inj (hrow.symm.trans hb')
    have hnever := hinv.not_everPosition ht hb hsiblings hfilling.pending
    cases hstatus : b.status with
    | pending => exact absurd hstatus hnot
    | opened => exact absurd (hinv.everPosition hrow (.inl hstatus)) hnever
    | closed => exact absurd (hinv.everPosition hrow (.inr hstatus)) hnever
    | cancelled => exact .inl hstatus

/-- A sibling is there in the view of a fill, as a row of the same group. -/
theorem Inv.viewed_row (hinv : Inv w) {s : Session} {b : Trade} (hb : b ∈ w.db.trades.rows) :
    ∃ v, (w.viewDb s).trade? b.id = some v ∧ v.ocoGroupId = b.ocoGroupId := by
  have hrow : w.db.trade? b.id = some b := Db.trade?_eq_some.mpr ⟨hb, rfl⟩
  have hsome : ((w.viewDb s).trade? b.id).isSome := by
    have hfind : (Drafts.view w.db.trades w.drafts s).find? b.id = _ := Drafts.find?_view
    rw [show w.db.trades.find? b.id = some b from hrow] at hfind
    exact (congrArg Option.isSome hfind).trans rfl
  obtain ⟨v, hview⟩ := Option.isSome_iff_exists.mp hsome
  obtain ⟨t, ht, hseen⟩ := hinv.viewed hview
  obtain rfl := Option.some.inj (hrow.symm.trans ht)
  rcases hseen with ⟨_, _, _, _, hok⟩ | ⟨rfl, _⟩
  · exact ⟨v, hview, hok.group⟩
  · exact ⟨v, hview, rfl⟩

theorem Filling.free_own {orderId : Nat} {f : PendingFill} {t : Trade} {d : Draft Session Trade orderId}
    (hfilling : Filling w.db w.drafts orderId f t d) : w.drafts.free (.fill orderId) orderId = true := by
  rw [Drafts.free_iff]
  intro e hdraft
  obtain rfl := Option.some.inj (hfilling.draft.symm.trans hdraft)
  exact hfilling.owner

/-- A fill writes its own row and enters a stage before the siblings, or leaves the row no position. -/
theorem Inv.write_own (hinv : Inv w) {orderId : Nat} {f : PendingFill} {stage : FillStage} {t : Trade}
    {d : Draft Session Trade orderId} (hfilling : Filling w.db w.drafts orderId f t d)
    (g : Table.Rewrite Trade) (hgroup : (g.apply d.row).ocoGroupId = d.row.ocoGroupId)
    (hwritten : (g.apply d.row).status ≠ .pending)
    (hstage : stage.remaining = none ∨ ¬ (g.apply d.row).IsPosition) :
    Inv ((w.put (.fill orderId) (g.apply d.row)).setFill orderId (some { f with stage := stage })) := by
  have hid : (g.apply d.row).id = orderId := (g.key_apply d.row).trans d.key_row
  obtain ⟨t', ht', hwrite, _⟩ := hinv.drafted orderId d hfilling.draft
  obtain rfl := Option.some.inj (hfilling.row.symm.trans ht')
  have htid := Db.trade?_id ht'
  have hown : w.drafts.put (.fill orderId) (g.apply d.row) orderId
      = some ⟨.fill orderId, g.apply d.row, hid⟩ := dif_pos hid
  refine hinv.put_fill (hid.symm ▸ hfilling.free_own) (hid.symm ▸ ht') ?_
    ⟨ht', hfilling.pending, hfilling.group, hown, rfl, ?_⟩
  · refine ⟨hgroup.trans hwrite.group, fun h => absurd h hwritten, fun _ => .inr (htid ▸ rfl), ?_⟩
    intro orderId' hs hne
    exact absurd (htid.trans (Session.fill.inj hs)) hne
  · intro targets hremaining hposition
    rcases hstage with hnone | hnot
    · exact absurd (hnone.symm.trans hremaining) nofun
    · exact absurd hposition hnot

/-- The update of the siblings starts, with the rows its condition finds. -/
theorem Inv.beginSiblings (hinv : Inv w) {orderId group : Nat} {f : PendingFill} {t : Trade}
    {d : Draft Session Trade orderId} (hfilling : Filling w.db w.drafts orderId f t d)
    (hgroup : f.order.ocoGroupId = some group) :
    let targets := (w.viewDb (.fill orderId)).trades.rows.filter (siblingCond group orderId)
    Inv (w.setFill orderId (some { f with stage := .cancellingSiblings (targets.map Trade.id) })) := by
  refine hinv.setFill (d := d)
    ⟨hfilling.row, hfilling.pending, hfilling.group, hfilling.draft, hfilling.owner, ?_⟩
  intro targets hremaining _ b hb hsiblings
  obtain rfl := Option.some.inj hremaining
  obtain ⟨v, hview, hvgroup⟩ := hinv.viewed_row (s := .fill orderId) hb
  by_cases hpending : v.status = .pending
  · obtain ⟨hmem, hvid⟩ := Db.trade?_eq_some.mp hview
    refine .inl (List.mem_map.mpr ⟨v, List.mem_filter.mpr ⟨hmem, ?_⟩, hvid⟩)
    have hgroupOf : v.ocoGroupId = some group :=
      hvgroup.trans (hsiblings.group.symm.trans (hfilling.group.trans hgroup))
    have hne : v.id ≠ orderId := fun h =>
      hsiblings.ne ((Db.trade?_id hfilling.row).trans (h.symm.trans hvid))
    exact decide_eq_true ⟨hgroupOf, hne, hpending⟩
  · exact .inr (hinv.sweptBy hfilling hb hsiblings hview hpending)

/-- One sibling found when the update started turns out not to be pending any more. -/
theorem Inv.skipSibling (hinv : Inv w) {orderId id group : Nat} {rest : List Nat} {f : PendingFill}
    {t v : Trade} {d : Draft Session Trade orderId} (hfilling : Filling w.db w.drafts orderId f t d)
    (hstage : f.stage = .cancellingSiblings (id :: rest)) (hgroup : f.order.ocoGroupId = some group)
    (hview : (w.viewDb (.fill orderId)).trade? id = some v) (hcond : ¬ siblingCond group orderId v = true) :
    Inv (w.setFill orderId (some { f with stage := .cancellingSiblings rest })) := by
  refine hinv.setFill (d := d)
    ⟨hfilling.row, hfilling.pending, hfilling.group, hfilling.draft, hfilling.owner, ?_⟩
  intro targets hremaining hposition b hb hsiblings
  obtain rfl := Option.some.inj hremaining
  have hbefore : f.stage.remaining = some (id :: rest) := by rw [hstage]; rfl
  rcases hfilling.swept _ hbefore hposition b hb hsiblings with hmem | hswept
  · rcases List.mem_cons.mp hmem with rfl | hrest
    · refine .inr (hinv.sweptBy hfilling hb hsiblings hview fun hpending => hcond ?_)
      obtain ⟨v', hview', hvgroup⟩ := hinv.viewed_row (s := .fill orderId) hb
      obtain rfl := Option.some.inj (hview.symm.trans hview')
      have hgroupOf : v.ocoGroupId = some group :=
        hvgroup.trans (hsiblings.group.symm.trans (hfilling.group.trans hgroup))
      have hne : v.id ≠ orderId := fun h =>
        hsiblings.ne ((Db.trade?_id hfilling.row).trans (h.symm.trans (Db.trade?_id hview)))
      exact decide_eq_true ⟨hgroupOf, hne, hpending⟩
    · exact .inl hrest
  · exact .inr hswept

/-- One sibling is still pending, and cancelled. -/
theorem Inv.cancelSibling (hinv : Inv w) {orderId id group : Nat} {rest : List Nat} {f : PendingFill}
    {t v : Trade} {d : Draft Session Trade orderId} (hfilling : Filling w.db w.drafts orderId f t d)
    (hstage : f.stage = .cancellingSiblings (id :: rest)) (hfree : w.drafts.free (.fill orderId) id = true)
    (hview : (w.viewDb (.fill orderId)).trade? id = some v) (hcond : siblingCond group orderId v = true)
    (reason : String) :
    Inv ((w.put (.fill orderId) ((Trade.cancelledAt reason w.clock).apply v)).setFill orderId
      (some { f with stage := .cancellingSiblings rest })) := by
  obtain ⟨-, hne, -⟩ : v.ocoGroupId = some group ∧ v.id ≠ orderId ∧ v.status = .pending :=
    of_decide_eq_true hcond
  have hvid := Db.trade?_id hview
  obtain ⟨b', hb', hseen⟩ := hinv.viewed hview
  have hwrite : WriteOk w.EverPosition (.fill orderId) b' ((Trade.cancelledAt reason w.clock).apply v) := by
    refine ⟨?_, nofun, nofun, fun _ _ _ => rfl⟩
    rcases hseen with ⟨_, _, _, _, hok⟩ | ⟨rfl, _⟩
    · exact hok.group
    · rfl
  have hown : w.drafts.put (.fill orderId) ((Trade.cancelledAt reason w.clock).apply v) orderId = some d :=
    (Drafts.put_of_ne _ _ hne).trans hfilling.draft
  refine hinv.put_fill (hvid.symm ▸ hfree) (hvid.symm ▸ hb') hwrite
    ⟨hfilling.row, hfilling.pending, hfilling.group, hown, hfilling.owner, ?_⟩
  intro targets hremaining hposition b hb hsiblings
  obtain rfl := Option.some.inj hremaining
  have hbefore : f.stage.remaining = some (id :: rest) := by rw [hstage]; rfl
  by_cases hself : b.id = id
  · have hkey : ((Trade.cancelledAt reason w.clock).apply v).id = b.id := hvid.trans hself.symm
    exact .inr (.inr ⟨⟨.fill orderId, _, hkey⟩, dif_pos hkey, rfl⟩)
  · have hkey : ((Trade.cancelledAt reason w.clock).apply v).id ≠ b.id := fun h =>
      hself (h.symm.trans hvid)
    rcases hfilling.swept _ hbefore hposition b hb hsiblings with hmem | hcancelled | ⟨e, he, howner⟩
    · exact .inl ((List.mem_cons.mp hmem).resolve_left hself)
    · exact .inr (.inl hcancelled)
    · exact .inr (.inr ⟨e, (Drafts.put_of_ne _ _ hkey).trans he, howner⟩)

theorem Inv.runFill (hinv : Inv w) {orderId : Nat} {f : PendingFill} (hf : w.fills orderId = some f)
    (hrun : w.runFill orderId f = some w') : Inv w' := by
  obtain ⟨t, d, hfilling⟩ := hinv.filling orderId f hf
  have hown : (w.viewDb (.fill orderId)).trade? orderId = some d.row :=
    Drafts.find?_view_of_own hfilling.row hfilling.draft hfilling.owner
  have henter : ∀ stage : FillStage, (∀ targets, stage.remaining = some targets →
      f.stage.remaining = some targets ∨ f.order.ocoGroupId = none) →
      Inv (w.setFill orderId (some { f with stage := stage })) := by
    intro stage hstage
    refine hinv.setFill (d := d)
      ⟨hfilling.row, hfilling.pending, hfilling.group, hfilling.draft, hfilling.owner, ?_⟩
    intro targets hremaining hposition b hb hsiblings
    rcases hstage targets hremaining with hbefore | hnone
    · exact hfilling.swept targets hbefore hposition b hb hsiblings
    · have hgrouped := hsiblings.grouped
      rw [hfilling.group, hnone] at hgrouped
      cases hgrouped
  unfold PendingWorld.runFill at hrun
  dsimp only at hrun
  split at hrun
  · -- locked
    cases hrun
    exact henter _ nofun
  · -- validated, over a limit
    obtain ⟨row, hrow, hrun⟩ := Option.bind_eq_some_iff.mp hrun
    obtain rfl := Option.some.inj (hown.symm.trans hrow)
    cases hrun
    exact hinv.write_own hfilling (Trade.cancelledAt _ w.clock) rfl nofun (.inr nofun)
  · -- validated
    obtain ⟨row, hrow, hrun⟩ := Option.bind_eq_some_iff.mp hrun
    obtain rfl := Option.some.inj (hown.symm.trans hrow)
    cases hrun
    exact hinv.write_own hfilling (Trade.filledAt _ w.clock) rfl nofun (.inl rfl)
  · -- filled
    split at hrun
    · rename_i hnone
      cases hrun
      exact henter _ fun _ _ => .inr hnone
    · rename_i group hgroup
      cases hrun
      exact hinv.beginSiblings hfilling hgroup
  · -- no sibling left
    rename_i hstage
    cases hrun
    exact henter _ fun targets hremaining => .inl (by rw [hstage]; exact hremaining)
  · -- one sibling
    rename_i id rest hstage
    simp only [Option.bind_eq_bind, Option.bind_eq_some_iff, Option.guard_eq_some', exists_const] at hrun
    obtain ⟨hfree, group, hgroup, v, hview, hrun⟩ := hrun
    split at hrun
    · rename_i hcond
      cases hrun
      exact hinv.cancelSibling hfilling hstage hfree hview hcond _
    · rename_i hcond
      cases hrun
      exact hinv.skipSibling hfilling hstage hgroup hview hcond
  · cases hrun

theorem Inv.beginFill (hinv : Inv w) {past : Db} (hpast : past ∈ w.history) {orderId : Nat} {order : Trade}
    (horder : past.trade? orderId = some order) {price : Quote} {maxOpenTrades : Nat}
    (hbegin : w.beginFill order price maxOpenTrades = some w') : Inv w' := by
  simp only [PendingWorld.beginFill, Option.bind_eq_bind, Option.bind_eq_some_iff, Option.guard_eq_some',
    exists_const, Option.some.injEq] at hbegin
  obtain ⟨row, hrow, ⟨hpending, hunheld⟩, rfl⟩ := hbegin
  have hoid := Db.trade?_id horder
  have hrid := Db.trade?_id hrow
  obtain ⟨t', ht', hgroup⟩ := hinv.kept past hpast orderId order horder
  obtain rfl := Option.some.inj (hrow.symm.trans (hoid ▸ ht'))
  have hnone : w.drafts order.id = none := Option.isNone_iff_eq_none.mp hunheld
  have hfree : w.drafts.free (.fill order.id) row.id = true := by
    rw [Drafts.free_iff, hrid]
    intro e hdraft
    rw [hnone] at hdraft
    cases hdraft
  have hwrite : WriteOk w.EverPosition (.fill order.id) row row :=
    ⟨rfl, fun h => h, fun h => .inr (hrid ▸ rfl), fun orderId' hs hne =>
      absurd (hrid.trans (Session.fill.inj hs)) hne⟩
  refine hinv.put_fill hfree (hrid ▸ hrow) hwrite
    ⟨hrow, hpending, hgroup, dif_pos hrid, rfl, fun targets hremaining => nomatch hremaining⟩

/-! ### The end of a transaction -/

theorem endSession_fills {s : Session} {orderId : Nat} {f : PendingFill}
    (hf : (w.endSession s).fills orderId = some f) : w.fills orderId = some f ∧ s ≠ .fill orderId := by
  by_cases hs : s = .fill orderId
  · simp [endSession, hs] at hf
  · exact ⟨(if_neg hs).symm.trans hf, hs⟩

theorem fills_endSession {s : Session} {orderId : Nat} (hs : s ≠ .fill orderId) :
    (w.endSession s).fills orderId = w.fills orderId :=
  if_neg hs

/-- What another session has drafted stays when a session ends. -/
theorem release_of_fill {s : Session} {id orderId : Nat} {d : Draft Session Trade id}
    (hdraft : w.drafts id = some d) (howner : d.owner = .fill orderId) (hs : s ≠ .fill orderId) :
    w.drafts.release s id = some d :=
  Drafts.release_eq_some.mpr ⟨hdraft, howner ▸ hs.symm⟩

theorem Inv.rollback (hinv : Inv w) (s : Session) : Inv (w.endSession s) where
  current := hinv.current
  kept := hinv.kept
  drafted := by
    intro id d hrelease
    obtain ⟨hdraft, hne⟩ := Drafts.release_eq_some.mp hrelease
    obtain ⟨t, ht, hwrite, hfills⟩ := hinv.drafted id d hdraft
    refine ⟨t, ht, hwrite, fun orderId howner => ?_⟩
    rw [fills_endSession (fun h => hne (howner.trans h.symm))]
    exact hfills orderId howner
  filling := by
    intro orderId f hf
    obtain ⟨hf, hs⟩ := endSession_fills hf
    obtain ⟨t, d, hfilling⟩ := hinv.filling orderId f hf
    refine ⟨t, d, hfilling.row, hfilling.pending, hfilling.group,
      release_of_fill hfilling.draft hfilling.owner hs, hfilling.owner, ?_⟩
    intro targets hremaining hposition b hb hsiblings
    rcases hfilling.swept targets hremaining hposition b hb hsiblings with hmem | hcancelled | ⟨e, he, howner⟩
    · exact .inl hmem
    · exact .inr (.inl hcancelled)
    · exact .inr (.inr ⟨e, release_of_fill he howner hs, howner⟩)
  exclusive := hinv.exclusive

/-- A commit makes a position of its own order alone, and only where a fill has opened it. -/
theorem Inv.everPosition_commit (hinv : Inv w) {s : Session} {id : Nat}
    (hever : (w.commit s).EverPosition id) :
    w.EverPosition id ∨
      ∃ d : Draft Session Trade id, w.drafts id = some d ∧ d.owner = s ∧ s = .fill id ∧ d.row.IsPosition := by
  rcases everPosition_advance.mp hever with ⟨v, hview, hposition⟩ | hbefore
  · obtain ⟨t, ht, ⟨d, hdraft, howner, rfl, hwrite⟩ | ⟨rfl, _⟩⟩ := hinv.viewed hview
    · have htid := Db.trade?_id ht
      rcases hwrite.position hposition with hbefore | hs
      · exact .inl (htid ▸ hbefore)
      · exact .inr ⟨d, hdraft, howner, htid ▸ hs, hposition⟩
    · exact .inl (hinv.everPosition ht hposition)
  · exact .inl hbefore

theorem Inv.cancelled_view (hinv : Inv w) {s : Session} {b v : Trade} (hb : b ∈ w.db.trades.rows)
    (hview : (w.viewDb s).trade? b.id = some v) (hcancelled : b.status = .cancelled)
    (hnever : ¬ w.EverPosition b.id) : v.status = .cancelled := by
  have hrow : w.db.trade? b.id = some b := Db.trade?_eq_some.mpr ⟨hb, rfl⟩
  obtain ⟨t, ht, ⟨d, hdraft, _, rfl, _⟩ | ⟨rfl, _⟩⟩ := hinv.viewed hview
  · exact hinv.draft_cancelled hrow hcancelled hnever hdraft
  · obtain rfl := Option.some.inj (hrow.symm.trans ht)
    exact hcancelled

/-- A row of a session's view comes from a committed row of the same group. -/
theorem Inv.committed_row (hinv : Inv w) {s : Session} {v : Trade} (hv : v ∈ (w.viewDb s).trades.rows) :
    ∃ t ∈ w.db.trades.rows, t.id = v.id ∧ t.ocoGroupId = v.ocoGroupId ∧
      (w.viewDb s).trade? t.id = some v := by
  have hview : (w.viewDb s).trade? v.id = some v := Db.trade?_eq_some.mpr ⟨hv, rfl⟩
  obtain ⟨t, ht, hseen⟩ := hinv.viewed hview
  obtain ⟨hmem, hid⟩ := Db.trade?_eq_some.mp ht
  refine ⟨t, hmem, hid, ?_, hid ▸ hview⟩
  rcases hseen with ⟨_, _, _, _, hok⟩ | ⟨rfl, _⟩
  · exact hok.group.symm
  · rfl

/-- The fill that commits has its siblings out of the way. -/
theorem Inv.commit_swept (hinv : Inv w) {s : Session}
    (hwritten : ∀ orderId f, s = .fill orderId → w.fills orderId = some f → f.stage = .written)
    {a b v : Trade} (ha : a ∈ w.db.trades.rows) (hb : b ∈ w.db.trades.rows) (hsiblings : Siblings a b)
    {d : Draft Session Trade a.id} (hdraft : w.drafts a.id = some d) (howner : d.owner = .fill a.id)
    (hs : s = .fill a.id) (hposition : d.row.IsPosition) (hview : (w.viewDb s).trade? b.id = some v) :
    v.status = .cancelled ∧ ¬ (w.commit s).EverPosition b.id := by
  obtain ⟨f, t, e, hf, hfilling⟩ := hinv.fill_of_owner hdraft howner
  have ha' : w.db.trade? a.id = some a := Db.trade?_eq_some.mpr ⟨ha, rfl⟩
  obtain rfl := Option.some.inj (ha'.symm.trans hfilling.row)
  obtain rfl := Option.some.inj (hdraft.symm.trans hfilling.draft)
  have hnever := hinv.not_everPosition ha hb hsiblings hfilling.pending
  have hstage : f.stage.remaining = some [] := by rw [hwritten a.id f hs hf]; rfl
  constructor
  · rcases hfilling.swept [] hstage hposition b hb hsiblings with hmem | hcancelled | ⟨e, he, heowner⟩
    · cases hmem
    · exact hinv.cancelled_view hb hview hcancelled hnever
    · obtain ⟨t, ht, hwrite, _⟩ := hinv.drafted b.id e he
      have hown : (w.viewDb s).trade? b.id = some e.row :=
        Drafts.find?_view_of_own ht he (heowner.trans hs.symm)
      obtain rfl := Option.some.inj (hview.symm.trans hown)
      exact hwrite.sibling a.id heowner (Db.trade?_id ht ▸ hsiblings.ne.symm)
  · intro hever
    rcases hinv.everPosition_commit hever with hbefore | ⟨_, _, _, hsb, _⟩
    · exact hnever hbefore
    · exact hsiblings.ne (Session.fill.inj (hs.symm.trans hsb))

theorem Inv.commit (hinv : Inv w) {s : Session}
    (hwritten : ∀ orderId f, s = .fill orderId → w.fills orderId = some f → f.stage = .written) :
    Inv (w.commit s) where
  current := List.mem_cons_self
  kept := by
    intro past hpast id t ht
    have hbefore : past = w.viewDb s ∨ past ∈ w.history := List.mem_cons.mp hpast
    rcases hbefore with rfl | hpast
    · exact ⟨t, ht, rfl⟩
    · obtain ⟨t', ht', hgroup⟩ := hinv.kept past hpast id t ht
      obtain ⟨hmem, hid⟩ := Db.trade?_eq_some.mp ht'
      obtain ⟨v, hview, hvgroup⟩ := hinv.viewed_row (s := s) hmem
      exact ⟨v, hid ▸ hview, hvgroup.trans hgroup⟩
  drafted := by
    intro id d hrelease
    obtain ⟨hdraft, hne⟩ := Drafts.release_eq_some.mp hrelease
    obtain ⟨t, ht, hwrite, hfills⟩ := hinv.drafted id d hdraft
    have hview : (w.viewDb s).trade? id = some t :=
      (Drafts.find?_view_of_others fun e he => Option.some.inj (hdraft.symm.trans he) ▸ hne).trans ht
    refine ⟨t, hview, ⟨hwrite.group, hwrite.pending, fun hposition => ?_, hwrite.sibling⟩, ?_⟩
    · exact (hwrite.position hposition).imp_left fun hever => everPosition_advance.mpr (.inr hever)
    · intro orderId howner
      have hs : s ≠ .fill orderId := fun h => hne (howner.trans h.symm)
      exact (congrArg Option.isSome (if_neg hs)).trans (hfills orderId howner)
  filling := by
    intro orderId f hf
    obtain ⟨hf, hs⟩ := endSession_fills hf
    obtain ⟨t, d, hfilling⟩ := hinv.filling orderId f hf
    have hothers : ∀ e, w.drafts orderId = some e → e.owner ≠ s := by
      intro e he howner
      obtain rfl := Option.some.inj (hfilling.draft.symm.trans he)
      exact hs (howner.symm.trans hfilling.owner)
    refine ⟨t, d, (Drafts.find?_view_of_others hothers).trans hfilling.row, hfilling.pending,
      hfilling.group, release_of_fill hfilling.draft hfilling.owner hs, hfilling.owner, ?_⟩
    intro targets hremaining hposition v hv hsiblings
    obtain ⟨b, hb, hid, hgroup, hview⟩ := hinv.committed_row hv
    have hsiblings' : Siblings t b :=
      ⟨hsiblings.group.trans hgroup.symm, hsiblings.grouped, hid ▸ hsiblings.ne⟩
    have hnever := hinv.not_everPosition (Db.trade?_eq_some.mp hfilling.row).1 hb hsiblings' hfilling.pending
    rw [SweptBy, ← hid]
    rcases hfilling.swept targets hremaining hposition b hb hsiblings' with
      hmem | hcancelled | ⟨e, he, howner⟩
    · exact .inl hmem
    · exact .inr (.inl (hinv.cancelled_view hb hview hcancelled hnever))
    · exact .inr (.inr ⟨e, release_of_fill he howner hs, howner⟩)
  exclusive := by
    intro a' ha' b' hb' hsiblings' hever
    obtain ⟨a, ha, haid, hagroup, -⟩ := hinv.committed_row ha'
    obtain ⟨b, hb, hbid, hbgroup, hview⟩ := hinv.committed_row hb'
    have hsiblings : Siblings a b :=
      ⟨hagroup.trans (hsiblings'.group.trans hbgroup.symm), hagroup ▸ hsiblings'.grouped,
        by rw [haid, hbid]; exact hsiblings'.ne⟩
    rw [← haid] at hever
    rw [← hbid]
    rcases hinv.everPosition_commit hever with hbefore | ⟨d, hdraft, howner, hs, hposition⟩
    · obtain ⟨hcancelled, hnever⟩ := hinv.exclusive a ha b hb hsiblings hbefore
      refine ⟨hinv.cancelled_view hb hview hcancelled hnever, fun hever => ?_⟩
      rcases hinv.everPosition_commit hever with hever | ⟨e, he, howner, hs, _⟩
      · exact hnever hever
      · obtain ⟨_, t, _, _, hfilling⟩ := hinv.fill_of_owner he (howner.trans hs)
        have hrow : w.db.trade? b.id = some b := Db.trade?_eq_some.mpr ⟨hb, rfl⟩
        obtain rfl := Option.some.inj (hrow.symm.trans hfilling.row)
        have hpending := hfilling.pending
        rw [hcancelled] at hpending
        cases hpending
    · exact hinv.commit_swept hwritten ha hb hsiblings hdraft (howner.trans hs) hs hposition hview

/-! ### New rows -/

theorem exec_rows {db db' : Db} {stmt : Stmt} (hkeeps : ∀ t, stmt.rowUpdate t = t)
    (hexec : stmt.exec db = some db') : db'.trades.rows = stmt.insertedTrades ++ db.trades.rows := by
  rw [Stmt.exec_trades hexec, List.map_congr_left fun t _ => hkeeps t, List.map_id']

/-- New rows are pending, or of no group, and no row had their group before. -/
theorem Inv.insert (hinv : Inv w) {db : Db} {new : List Trade}
    (hrows : db.trades.rows = new ++ w.db.trades.rows)
    (hpending : ∀ n ∈ new, n.status = .pending ∨ n.ocoGroupId = none)
    (hfresh : ∀ n ∈ new, ∀ t ∈ w.db.trades.rows, n.ocoGroupId = t.ocoGroupId → n.ocoGroupId = none) :
    Inv (w.advance db) := by
  have hkept : ∀ {id t}, w.db.trade? id = some t → db.trade? id = some t := by
    intro id t ht
    obtain ⟨hmem, hid⟩ := Db.trade?_eq_some.mp ht
    exact Db.trade?_eq_some.mpr ⟨hrows ▸ List.mem_append_right _ hmem, hid⟩
  have hever : ∀ {t}, t ∈ w.db.trades.rows → (w.advance db).EverPosition t.id → w.EverPosition t.id := by
    intro t ht hever
    rcases everPosition_advance.mp hever with ⟨t', ht', hposition⟩ | hbefore
    · have hrow : w.db.trade? t.id = some t := Db.trade?_eq_some.mpr ⟨ht, rfl⟩
      obtain rfl := Option.some.inj (ht'.symm.trans (hkept hrow))
      exact hinv.everPosition hrow hposition
    · exact hbefore
  have hnew : ∀ n ∈ new, n.ocoGroupId.isSome → ¬ (w.advance db).EverPosition n.id := by
    intro n hn hgrouped hever
    have hrow : db.trade? n.id = some n :=
      Db.trade?_eq_some.mpr ⟨hrows ▸ List.mem_append_left _ hn, rfl⟩
    rcases everPosition_advance.mp hever with ⟨t', ht', hposition⟩ | ⟨past, hpast, t, ht, _⟩
    · obtain rfl := Option.some.inj (ht'.symm.trans hrow)
      rcases hpending t' hn with hstatus | hnone
      · rcases hposition with h | h <;> exact nomatch hstatus.symm.trans h
      · rw [hnone] at hgrouped
        cases hgrouped
    · obtain ⟨t', ht', _⟩ := hinv.kept past hpast n.id t ht
      obtain rfl := Option.some.inj (hrow.symm.trans (hkept ht'))
      rw [hfresh n hn n (Db.trade?_eq_some.mp ht').1 rfl] at hgrouped
      cases hgrouped
  refine ⟨List.mem_cons_self, ?_, ?_, ?_, ?_⟩
  · intro past hpast id t ht
    rcases (List.mem_cons.mp hpast : past = db ∨ past ∈ w.history) with rfl | hpast
    · exact ⟨t, ht, rfl⟩
    · obtain ⟨t', ht', hgroup⟩ := hinv.kept past hpast id t ht
      exact ⟨t', hkept ht', hgroup⟩
  · intro id d hdraft
    obtain ⟨t, ht, hwrite, hfills⟩ := hinv.drafted id d hdraft
    refine ⟨t, hkept ht, ⟨hwrite.group, hwrite.pending, fun hposition => ?_, hwrite.sibling⟩, hfills⟩
    exact (hwrite.position hposition).imp_left fun hever => everPosition_advance.mpr (.inr hever)
  · intro orderId f hf
    obtain ⟨t, d, hfilling⟩ := hinv.filling orderId f hf
    refine ⟨t, d, hkept hfilling.row, hfilling.pending, hfilling.group, hfilling.draft, hfilling.owner, ?_⟩
    intro targets hremaining hposition b hb hsiblings
    have hmem : b ∈ new ++ w.db.trades.rows := hrows ▸ hb
    rcases List.mem_append.mp hmem with hn | hold
    · have ht := (Db.trade?_eq_some.mp hfilling.row).1
      have hgrouped := hsiblings.symm.grouped
      rw [hfresh b hn t ht hsiblings.group.symm] at hgrouped
      cases hgrouped
    · exact hfilling.swept targets hremaining hposition b hold hsiblings
  · intro a ha b hb hsiblings hposition
    have hmemA : a ∈ new ++ w.db.trades.rows := hrows ▸ ha
    have hmemB : b ∈ new ++ w.db.trades.rows := hrows ▸ hb
    rcases List.mem_append.mp hmemA with hnA | holdA
    · exact absurd hposition (hnew a hnA hsiblings.grouped)
    · rcases List.mem_append.mp hmemB with hnB | holdB
      · have hgrouped := hsiblings.symm.grouped
        rw [hfresh b hnB a holdA hsiblings.group.symm] at hgrouped
        cases hgrouped
      · obtain ⟨hcancelled, hnever⟩ := hinv.exclusive a holdA b holdB hsiblings (hever holdA hposition)
        exact ⟨hcancelled, fun h => hnever (hever holdB h)⟩

theorem Inv.placePendingOrder (hinv : Inv w) {req : OrderRequest} {leg : PendingLeg}
    {sibling : Option (PendingLeg × Nat)} {stmts : List Stmt} {db : Db}
    (huuid : sibling.all (fun s => w.db.trades.rows.all fun t => t.ocoGroupId ≠ some s.2) = true)
    (hplace : PropFirm.placePendingOrder w.db req leg sibling = some stmts)
    (hexec : execAll w.db stmts = some db) : Inv (w.advance db) := by
  simp only [PropFirm.placePendingOrder, Option.bind_eq_bind, Option.bind_eq_some_iff, Option.guard_eq_some',
    exists_const] at hplace
  obtain ⟨_, _, _, hplace⟩ := hplace
  cases sibling with
  | none =>
    cases hplace
    obtain ⟨mid, hone, hrest⟩ := Option.bind_eq_some_iff.mp hexec
    obtain rfl : mid = db := Option.some.inj hrest
    refine hinv.insert (exec_rows (fun _ => rfl) hone) ?_ ?_
    · exact fun n hn => .inl (List.mem_singleton.mp hn ▸ rfl)
    · exact fun n hn _ _ _ => List.mem_singleton.mp hn ▸ rfl
  | some pair =>
    obtain ⟨second, group⟩ := pair
    cases hplace
    obtain ⟨mid, hone, hrest⟩ := Option.bind_eq_some_iff.mp hexec
    obtain ⟨last, htwo, hlast⟩ := Option.bind_eq_some_iff.mp hrest
    obtain rfl : last = db := Option.some.inj hlast
    have hrows : last.trades.rows
        = [req.pendingRow second (some group), req.pendingRow leg (some group)] ++ w.db.trades.rows := by
      rw [exec_rows (fun _ => rfl) htwo, exec_rows (fun _ => rfl) hone]
      rfl
    have huuid' : ∀ t ∈ w.db.trades.rows, t.ocoGroupId ≠ some group := by
      simpa [Option.all_some, List.all_eq_true] using huuid
    refine hinv.insert hrows ?_ ?_
    · intro n hn
      simp only [List.mem_cons, List.not_mem_nil, or_false] at hn
      rcases hn with rfl | rfl <;> exact .inl rfl
    · intro n hn t ht hsame
      simp only [List.mem_cons, List.not_mem_nil, or_false] at hn
      rcases hn with rfl | rfl <;> exact absurd hsame.symm (huuid' t ht)

theorem Inv.openTrade (hinv : Inv w) {req : OrderRequest} {id : Nat} {openPrice : ℚ} {stmts : List Stmt}
    {db : Db} (hopen : PropFirm.openTrade w.db req id openPrice w.clock = some stmts)
    (hexec : execAll w.db stmts = some db) : Inv (w.advance db) := by
  simp only [PropFirm.openTrade, Option.bind_eq_bind, Option.bind_eq_some_iff, Option.guard_eq_some',
    exists_const, Option.some.injEq] at hopen
  obtain ⟨_, _, _, rfl⟩ := hopen
  obtain ⟨mid, hone, hrest⟩ := Option.bind_eq_some_iff.mp hexec
  obtain rfl : mid = db := Option.some.inj hrest
  refine hinv.insert (exec_rows (fun _ => rfl) hone) ?_ ?_
  · exact fun n hn => .inr (List.mem_singleton.mp hn ▸ rfl)
  · exact fun n hn _ _ _ => List.mem_singleton.mp hn ▸ rfl

/-! ### Runs -/

theorem Inv.processPendingOrder (hinv : Inv w) {past : Db} (hpast : past ∈ w.history)
    {connection orderId : Nat} {order : Trade} (horder : past.trade? orderId = some order)
    {acc : Account} {scan price : Quote}
    {maxOpenTrades : Nat}
    (hprocess : w.processPendingOrder connection order acc scan price maxOpenTrades = some w') : Inv w' := by
  unfold PendingWorld.processPendingOrder at hprocess
  split at hprocess
  · exact hinv.writeRow hprocess
  · split at hprocess
    · exact hinv.beginFill hpast horder hprocess
    · cases hprocess

theorem Inv.step (hinv : Inv w) {action : PendingAction} (hstep : w.step action = some w') : Inv w' := by
  cases action with
  | placePendingOrder req leg sibling =>
    simp only [PendingWorld.step, Option.bind_eq_bind, Option.bind_eq_some_iff, Option.guard_eq_some',
      exists_const, Option.some.injEq] at hstep
    obtain ⟨huuid, stmts, hplace, db, hexec, rfl⟩ := hstep
    exact hinv.placePendingOrder huuid hplace hexec
  | openTrade req id openPrice =>
    simp only [PendingWorld.step, Option.bind_eq_bind, Option.bind_eq_some_iff, Option.some.injEq] at hstep
    obtain ⟨stmts, hopen, db, hexec, rfl⟩ := hstep
    exact hinv.openTrade hopen hexec
  | setAccountStatus accountId status =>
    simp only [PendingWorld.step, Option.bind_eq_bind, Option.bind_eq_some_iff, Option.some.injEq] at hstep
    obtain ⟨db, hexec, rfl⟩ := hstep
    have hrows : db.trades.rows = [] ++ w.db.trades.rows := exec_rows (fun _ => rfl) hexec
    exact hinv.insert hrows (fun _ hn => absurd hn List.not_mem_nil) fun _ hn => absurd hn List.not_mem_nil
  | checkPendingOrder connection asOf orderId price maxOpenTrades =>
    simp only [PendingWorld.step, Option.bind_eq_bind, Option.bind_eq_some_iff, Option.guard_eq_some',
      exists_const] at hstep
    obtain ⟨seen, hseen, order, horder, acc, _, _, hprocess⟩ := hstep
    exact hinv.processPendingOrder (List.mem_of_getElem? hseen) horder hprocess
  | fillTriggeredPendingOrder connection orderAsOf accountAsOf orderId scan price maxOpenTrades =>
    simp only [PendingWorld.step, Option.bind_eq_bind, Option.bind_eq_some_iff, Option.guard_eq_some',
      exists_const] at hstep
    obtain ⟨seen, hseen, _, _, order, horder, acc, _, _, hprocess⟩ := hstep
    exact hinv.processPendingOrder (List.mem_of_getElem? hseen) horder hprocess
  | advanceFill orderId =>
    obtain ⟨f, hf, hrun⟩ := Option.bind_eq_some_iff.mp hstep
    exact hinv.runFill hf hrun
  | commitFill orderId =>
    simp only [PendingWorld.step, Option.bind_eq_bind, Option.bind_eq_some_iff, Option.guard_eq_some',
      exists_const, Option.some.injEq] at hstep
    obtain ⟨f, hf, hwritten, rfl⟩ := hstep
    refine hinv.commit fun orderId' f' hs hf' => ?_
    obtain rfl := Session.fill.inj hs
    obtain rfl := Option.some.inj (hf.symm.trans hf')
    exact hwritten
  | cancelTradeHandler connection orderId => exact hinv.writeRow hstep
  | writeRow connection id write => exact hinv.writeRow hstep
  | commitOther connection =>
    cases hstep
    exact hinv.commit fun _ _ hs => nomatch hs
  | rollback session =>
    cases hstep
    exact hinv.rollback session
  | tick seconds =>
    cases hstep
    exact ⟨hinv.current, hinv.kept, hinv.drafted, hinv.filling, hinv.exclusive⟩

/-- Nothing is in flight and no pair of orders has been placed yet. -/
structure Start (w : PendingWorld) : Prop where
  history : w.history = [w.db]
  drafts : ∀ id, w.drafts id = none
  fills : ∀ orderId, w.fills orderId = none
  ungrouped : ∀ t ∈ w.db.trades.rows, t.ocoGroupId = none

theorem Start.inv (hstart : Start w) : Inv w where
  current := by
    rw [hstart.history]
    exact List.mem_cons_self
  kept := by
    intro past hpast id t ht
    rw [hstart.history, List.mem_singleton] at hpast
    exact ⟨t, hpast ▸ ht, rfl⟩
  drafted := fun id d hdraft => nomatch (hstart.drafts id).symm.trans hdraft
  filling := fun orderId f hf => nomatch (hstart.fills orderId).symm.trans hf
  exclusive := by
    intro a ha b _ hsiblings
    have hgrouped := hsiblings.grouped
    rw [hstart.ungrouped a ha] at hgrouped
    cases hgrouped

theorem inv_of_reach (hreach : Reach step (fun _ _ => True) Start w) : Inv w :=
  Reach.invariant (fun _ => Start.inv) (fun _ _ _ hinv _ hstep => hinv.step hstep) hreach

/-- Of two siblings being filled at once, one can get through only when the other is out of its way:
while both hold their own rows each waits for the other. -/
theorem Inv.fill_alone (hinv : Inv w) {a b : Trade} (ha : a ∈ w.db.trades.rows) (hb : b ∈ w.db.trades.rows)
    (hsiblings : Siblings a b) {f : PendingFill} (hf : w.fills a.id = some f) (hwritten : f.stage = .written)
    {d : Draft Session Trade a.id} (hdraft : w.drafts a.id = some d) (hposition : d.row.IsPosition) :
    w.fills b.id = none := by
  rw [Option.eq_none_iff_forall_ne_some]
  intro g hg
  obtain ⟨t, e, hfilling⟩ := hinv.filling a.id f hf
  obtain ⟨u, e', hfilling'⟩ := hinv.filling b.id g hg
  have ha' : w.db.trade? a.id = some a := Db.trade?_eq_some.mpr ⟨ha, rfl⟩
  have hb' : w.db.trade? b.id = some b := Db.trade?_eq_some.mpr ⟨hb, rfl⟩
  obtain rfl := Option.some.inj (ha'.symm.trans hfilling.row)
  obtain rfl := Option.some.inj (hb'.symm.trans hfilling'.row)
  obtain rfl := Option.some.inj (hdraft.symm.trans hfilling.draft)
  have hstage : f.stage.remaining = some [] := by rw [hwritten]; rfl
  rcases hfilling.swept [] hstage hposition b hb hsiblings with hmem | hcancelled | ⟨e, he, howner⟩
  · cases hmem
  · rw [hfilling'.pending] at hcancelled
    cases hcancelled
  · obtain rfl := Option.some.inj (he.symm.trans hfilling'.draft)
    exact hsiblings.ne (Session.fill.inj (howner.symm.trans hfilling'.owner))

/-- Of the two legs of an OCO pair at most one has ever been a position, and once one has, the other is
cancelled. -/
theorem oneLegBecomesPosition (hreach : Reach step (fun _ _ => True) Start w) {a b : Trade}
    (ha : a ∈ w.db.trades.rows) (hb : b ∈ w.db.trades.rows) (hsiblings : Siblings a b) :
    ¬ (w.EverPosition a.id ∧ w.EverPosition b.id) ∧ (w.EverPosition a.id → b.status = .cancelled) := by
  have hexclusive := (inv_of_reach hreach).exclusive a ha b hb hsiblings
  exact ⟨fun h => (hexclusive h.1).2 h.2, fun h => (hexclusive h).1⟩

/-- One account trades and nothing has been ordered yet. -/
def sampleStart : PendingWorld where
  db := { Db.initial Table.empty with accounts := Table.single (sampleTerms.provision 1) }
  history := [{ Db.initial Table.empty with accounts := Table.single (sampleTerms.provision 1) }]
  drafts := Drafts.empty
  fills := fun _ => none
  clock := 100

/-- A bracket of two stop orders, each triggered by the price one of the engines sees. Both fills open
their own rows and find each other's; the second is rolled back and the first goes on. -/
def crossedFills : List PendingAction :=
  [.placePendingOrder sampleOrder ⟨1, .buy, .buyStop, 11 / 10⟩ (some (⟨2, .sell, .sellStop, 1⟩, 7)),
    .checkPendingOrder 0 0 1 ⟨12 / 10, 12 / 10⟩ 5,
    .fillTriggeredPendingOrder 0 0 0 2 ⟨9 / 10, 9 / 10⟩ ⟨9 / 10, 9 / 10⟩ 5,
    .advanceFill 1, .advanceFill 2, .advanceFill 1, .advanceFill 2, .advanceFill 1, .advanceFill 2,
    .rollback (.fill 2), .advanceFill 1, .advanceFill 1, .commitFill 1]

theorem crossedFills_oneLeg :
    ∃ w, run step sampleStart crossedFills = some w ∧ ∃ a b, w.db.trade? 1 = some a ∧
      w.db.trade? 2 = some b ∧ a.status = .opened ∧ b.status = .cancelled ∧
      ¬ (w.EverPosition a.id ∧ w.EverPosition b.id) := by
  obtain ⟨w, hrun, htest⟩ := exists_of_run_any step sampleStart crossedFills
    (fun w => (w.db.trade? 1).any (fun a => a.status = .opened ∧ a.ocoGroupId = some 7) &&
      (w.db.trade? 2).any (fun b => b.status = .cancelled ∧ b.ocoGroupId = some 7)) (by decide +kernel)
  simp only [Bool.and_eq_true, Option.any_eq_true, decide_eq_true_eq] at htest
  obtain ⟨⟨a, ha, hopened, hgroupA⟩, b, hb, hcancelled, hgroupB⟩ := htest
  obtain ⟨hmemA, hidA⟩ := Db.trade?_eq_some.mp ha
  obtain ⟨hmemB, hidB⟩ := Db.trade?_eq_some.mp hb
  have hsiblings : Siblings a b :=
    ⟨hgroupA.trans hgroupB.symm, by rw [hgroupA]; rfl, by rw [hidA, hidB]; decide⟩
  have hstart : Start sampleStart := ⟨rfl, fun _ => rfl, fun _ => rfl, fun _ h => absurd h List.not_mem_nil⟩
  refine ⟨w, hrun, a, b, ha, hb, hopened, hcancelled, ?_⟩
  exact (oneLegBecomesPosition (.of_run (.init hstart) (.of_forall fun _ _ _ => trivial) hrun) hmemA hmemB
    hsiblings).1

end PendingWorld

end PropFirm
