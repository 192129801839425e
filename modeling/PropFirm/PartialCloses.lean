import PropFirm.LotAccounting
import PropFirm.TradingDays

/-!
# A position closed in pieces

Every accepted partial close inserts a closed row for the lots it takes and leaves the rest in the row
of the position; the last close closes that row itself. The lots and the commission of the closed rows
and of the row that is left add up to what was opened, and each profit is rounded once. The remainder
is rounded to hundredths, so this needs the amounts a trader asks for to be hundredths, and nothing in
the handler asks that of them: `isValidLotSize` tests the remainder by 1 of a number it has just
rounded to an integer.
-/

namespace PropFirm

open Transition

/-! ### Calls of the handler -/

/-- What a call of `closeTradeHandler` asks for, and what it reads beside the locked row. -/
structure CloseCall where
  fx : FxSource
  requestedCloseLots : Option ℚ
  closePrice : ℚ
  minLotSize : ℚ
  partId : Nat
  now : Nat

namespace CloseCall

/-- Execute what the handler writes, when it accepts the call. -/
def step (tradeId : Nat) (db : Db) (call : CloseCall) : Option Db :=
  (closeTradeHandler call.fx db tradeId call.requestedCloseLots call.closePrice call.minLotSize call.partId
    call.now).bind (execAll db)

/-- What closing lots of a position earns at the call's price and rate, in dollars, before commission and
without rounding. -/
def grossPnl (call : CloseCall) (trade : Trade) (lots : ℚ) : Option ℚ := do
  let openPrice ← trade.openPrice
  let rate ← getUsdRateForInstrument call.fx trade.instrument
  let priceDiff := match trade.direction with
    | .buy => call.closePrice - openPrice
    | .sell => openPrice - call.closePrice
  some (priceDiff * lots * trade.instrument.contractSize * rate)

/-- The lots a call closes of those held. -/
def closeLots (call : CloseCall) (held : ℚ) : ℚ := call.requestedCloseLots.getD held

end CloseCall

/-- The profit of closing a position piece by piece, each at its call's price, without any rounding: a
piece bears its share of the commission in proportion to its lots. -/
def piecewisePnl (opened : Trade) : ℚ → List CloseCall → Option ℚ
  | _, [] => some 0
  | held, call :: calls => do
    let lots := call.closeLots held
    let gross ← call.grossPnl opened lots
    let rest ← piecewisePnl opened (held - lots) calls
    some (gross - opened.commission.dollars * (lots / opened.lotSize) + rest)

namespace Db

/-- The closed rows of a position: its own and those of the parts split off it. -/
def closedPieces (db : Db) (tradeId : Nat) : List Trade :=
  db.trades.rows.filter fun t => (t.id = tradeId ∨ t.parentTradeId = some tradeId) ∧ t.status = .closed

def closedLots (db : Db) (tradeId : Nat) : ℚ := ((db.closedPieces tradeId).map Trade.lotSize).sum

def closedCommission (db : Db) (tradeId : Nat) : Cents :=
  ((db.closedPieces tradeId).map Trade.commission).sum

def closedPnl (db : Db) (tradeId : Nat) : Cents := sumDemoPnl (db.closedPieces tradeId)

def HasClosed (db : Db) (tradeId : Nat) : Prop := db.trades.HasAt (·.status = .closed) tradeId

end Db

/-- A run of calls on a position, from `db` to `db'`, conserved it: the closed rows add up to what was
opened, every remainder was hundredths and no smaller than the minimum, and the booked profit is within
a cent for each piece of the unrounded one. -/
structure ConservesPosition (opened : Trade) (db : Db) (calls : List CloseCall) (db' : Db) : Prop where
  lots : db'.closedLots opened.id = opened.lotSize
  commission : db'.closedCommission opened.id = opened.commission
  remainder : ∀ done call rest mid, calls = done ++ call :: rest → rest ≠ [] →
    run (CloseCall.step opened.id) db (done ++ [call]) = some mid →
    mid.trades.HasAt (fun row => OnLotGrid row.lotSize ∧ call.minLotSize ≤ row.lotSize) opened.id
  pnl : ∃ exact, piecewisePnl opened opened.lotSize calls = some exact ∧
    |(db'.closedPnl opened.id).dollars - exact| ≤ calls.length / 100

/-! ### One call -/

theorem execAll_split {db db' : Db} {part : Trade} {c : Closing} {lots : ℚ} {commission amount : Cents}
    {accountId : Nat}
    (hexec : execAll db [.splitTrade part c lots commission, .creditAccount accountId amount] = some db') :
    (db.trades.updateAt c.trade.id (Trade.resized lots commission)).insert? part = some db'.trades := by
  obtain ⟨mid, hsplit, hcredit⟩ := execAll_pair.mp hexec
  obtain ⟨trades, hinsert, rfl⟩ := Option.map_eq_some_iff.mp hsplit
  cases hcredit
  exact hinsert

theorem execAll_close {db db' : Db} {c : Closing} {now accountId : Nat} {clearDeferred : Bool} {amount : Cents}
    (hexec : execAll db [.closeTrades [c] now clearDeferred, .creditAccount accountId amount] = some db') :
    db'.trades
      = db.trades.updateAt c.trade.id (Trade.closedAt c.closePrice c.pnl c.reason now clearDeferred) := by
  obtain ⟨mid, hclose, hcredit⟩ := execAll_pair.mp hexec
  cases hclose
  cases hcredit
  exact Table.updateFrom_singleton _ _ _ _

theorem CloseCall.priceClosing_eq_some {call : CloseCall} {locked : Trade} {lots : ℚ} {commission : Cents}
    {reason : String} {c : Closing}
    (hprice : priceClosing call.fx { locked with lotSize := lots, commission := commission }
      call.closePrice reason = some c) :
    c.trade = { locked with lotSize := lots, commission := commission } ∧
      c.closePrice = some call.closePrice ∧
      ∃ gross, call.grossPnl locked lots = some gross ∧ c.pnl = toCents (gross - commission.dollars) := by
  obtain ⟨openPrice, _, hopen, hpnl, rfl⟩ := priceClosing_spec hprice
  obtain ⟨rate, hrate, rfl⟩ := Option.map_eq_some_iff.mp hpnl
  refine ⟨rfl, rfl, _, ?_, rfl⟩
  rw [grossPnl, hopen, hrate]
  rfl

/-- A part split off adds one closed row and leaves the position open. -/
theorem closedPieces_split {db db' : Db} {tradeId : Nat} {locked part : Trade} {lots : ℚ} {commission : Cents}
    (hlocked : db.trade? tradeId = some locked) (hopen : locked.status = .opened)
    (hclosed : part.status = .closed) (hparent : part.parentTradeId = some tradeId)
    (hinsert : (db.trades.updateAt tradeId (Trade.resized lots commission)).insert? part = some db'.trades) :
    db'.trade? tradeId = some ((Trade.resized lots commission).apply locked) ∧
      (db'.closedPieces tradeId).Perm (part :: db.closedPieces tradeId) := by
  obtain ⟨hfresh, hrows⟩ := Table.insert?_eq_some hinsert
  have hrow := Table.find?_updateAt db.trades tradeId (Trade.resized lots commission) tradeId
  rw [show db.trades.find? tradeId = some locked from hlocked, Option.map_some, if_pos rfl] at hrow
  constructor
  · have hne : Keyed.key part ≠ tradeId := fun h =>
      hfresh _ (Table.find?_eq_some.mp hrow).1 ((Table.find?_eq_some.mp hrow).2.trans h.symm)
    rw [Db.trade?, Table.find?_of_insert? hinsert, if_neg hne, hrow]
  · have hperm := Table.filter_updateAt_perm hlocked (Trade.resized lots commission)
      (q := fun t : Trade => (t.id = tradeId ∨ t.parentTradeId = some tradeId) ∧ t.status = .closed)
      (by simp [hopen])
    rw [Db.closedPieces, hrows, List.filter_cons_of_pos (by simp [hclosed, hparent])]
    refine (List.Perm.cons part hperm).trans ?_
    rw [List.filter_cons_of_neg (by simp [Trade.resized, hopen])]
    exact .refl _

/-- Closing the row of the position adds it to the closed ones. -/
theorem closedPieces_close {db db' : Db} {tradeId : Nat} {locked : Trade} {closePrice : Option ℚ} {pnl : Cents}
    {reason : String} {now : Nat} {clearDeferred : Bool} (hlocked : db.trade? tradeId = some locked)
    (hopen : locked.status = .opened)
    (htrades : db'.trades
      = db.trades.updateAt tradeId (Trade.closedAt closePrice pnl reason now clearDeferred)) :
    db'.trade? tradeId = some ((Trade.closedAt closePrice pnl reason now clearDeferred).apply locked) ∧
      (db'.closedPieces tradeId).Perm
        ((Trade.closedAt closePrice pnl reason now clearDeferred).apply locked :: db.closedPieces tradeId) := by
  constructor
  · rw [Db.trade?, htrades, Table.find?_updateAt, show db.trades.find? tradeId = some locked from hlocked,
      Option.map_some, if_pos rfl]
  · have hperm := Table.filter_updateAt_perm hlocked
      (Trade.closedAt closePrice pnl reason now clearDeferred)
      (q := fun t : Trade => (t.id = tradeId ∨ t.parentTradeId = some tradeId) ∧ t.status = .closed)
      (by simp [hopen])
    rw [List.filter_cons_of_pos (by simp [Trade.closedAt, Db.trade?_id hlocked])] at hperm
    rw [Db.closedPieces, htrades]
    exact hperm

/-- The row an accepted call adds to the closed ones: a part split off, or the position's own row. -/
structure Piece (call : CloseCall) (locked : Trade) (lots : ℚ) (piece : Trade) : Prop where
  lotSize : piece.lotSize = lots
  commission : piece.commission = partialCommission locked lots
  pnl : ∃ gross, call.grossPnl locked lots = some gross ∧
    piece.demoPnl = some (toCents (gross - piece.commission.dollars))

/-- What an accepted call does to the row of its position: it closes the row with all it holds, or
leaves at least the minimum in it. -/
inductive Leaves (call : CloseCall) (locked : Trade) (lots : ℚ) : Trade → Prop
  | nothing {row : Trade} (hall : lots = locked.lotSize) (hclosed : row.status = .closed) :
    Leaves call locked lots row
  | rest (hpos : 0 < locked.lotSize - lots) (hminimum : call.minLotSize ≤ locked.lotSize - lots) :
    Leaves call locked lots ((Trade.resized (locked.lotSize - lots)
      (locked.commission - partialCommission locked lots)).apply locked)

theorem CloseCall.onLotGrid_closeLots (call : CloseCall) {held : ℚ} (hgrid : OnLotGrid held)
    (hrequested : ∀ lots ∈ call.requestedCloseLots, OnLotGrid lots) : OnLotGrid (call.closeLots held) := by
  unfold closeLots
  cases hasked : call.requestedCloseLots with
  | none => exact hgrid
  | some lots => exact hrequested lots hasked

/-- An accepted call on a position of hundredths for hundredths. -/
theorem CloseCall.step_eq_some {tradeId : Nat} {db db' : Db} {call : CloseCall}
    (hstep : call.step tradeId db = some db') {locked : Trade} (hlocked : db.trade? tradeId = some locked)
    (hgrid : OnLotGrid locked.lotSize) (hrequested : ∀ lots ∈ call.requestedCloseLots, OnLotGrid lots) :
    locked.status = .opened ∧ 0 < call.closeLots locked.lotSize ∧ ∃ piece row,
      Piece call locked (call.closeLots locked.lotSize) piece ∧
      Leaves call locked (call.closeLots locked.lotSize) row ∧ db'.trade? tradeId = some row ∧
      (db'.closedPieces tradeId).Perm (piece :: db.closedPieces tradeId) := by
  obtain ⟨stmts, hstmts, hexec⟩ := Option.bind_eq_some_iff.mp hstep
  obtain ⟨locked', c, hseen, ⟨hpos, hle, _⟩, hminimum, hprice, hstmts⟩ := closeTradeHandler_spec hstmts
  obtain ⟨hrow, hopen⟩ := seenOpenTrade_eq_some.mp hseen
  obtain rfl : locked = locked' := Option.some.inj (hlocked.symm.trans hrow)
  obtain ⟨htrade, hclosePrice, hgross⟩ := CloseCall.priceClosing_eq_some hprice
  have hid : c.trade.id = tradeId := by
    rw [htrade]
    exact (Db.trade?_eq_some.mp hlocked).2
  have hlots := call.onLotGrid_closeLots hgrid hrequested
  refine ⟨hopen, hpos, ?_⟩
  clear hprice htrade
  rw [show call.requestedCloseLots.getD locked.lotSize = call.closeLots locked.lotSize from rfl]
    at hpos hle hminimum hstmts hgross
  generalize call.closeLots locked.lotSize = lots at *
  have hleft : roundLots (locked.lotSize - lots) = locked.lotSize - lots := hgrid.sub hlots
  rw [hleft] at hstmts hminimum
  obtain ⟨hremain, rfl⟩ | ⟨hremain, rfl⟩ := hstmts
  · have hinsert := execAll_split hexec
    rw [hid, (hgrid.sub hlots).toLots_eq] at hinsert
    obtain ⟨hrow', hperm⟩ := closedPieces_split hlocked hopen rfl
      (congrArg some (Db.trade?_id hlocked)) hinsert
    obtain ⟨gross, hgross, hpnl⟩ := hgross
    exact ⟨_, _, ⟨hlots.toLots_eq, rfl, gross, hgross, congrArg some hpnl⟩,
      .rest hremain (hminimum hremain).1, hrow', hperm⟩
  · have htrades := execAll_close hexec
    rw [hid] at htrades
    obtain ⟨hrow', hperm⟩ := closedPieces_close hlocked hopen htrades
    have hall : lots = locked.lotSize := le_antisymm hle (sub_nonpos.mp hremain)
    have hcommission : partialCommission locked lots = locked.commission := by
      rw [hall]
      exact partialCommission_self (hall ▸ hpos)
    obtain ⟨gross, hgross, hpnl⟩ := hgross
    rw [hcommission] at hpnl
    refine ⟨_, _, ⟨?_, ?_, gross, hgross, congrArg some hpnl⟩, .nothing hall rfl, hrow', hperm⟩
    · exact hall.symm
    · exact hcommission.symm

/-! ### Runs of calls -/

/-- The row still is the position that was opened, as far as profits go. -/
structure SamePosition (opened row : Trade) : Prop where
  openPrice : row.openPrice = opened.openPrice
  direction : row.direction = opened.direction
  instrument : row.instrument = opened.instrument

theorem SamePosition.grossPnl {opened row : Trade} (hsame : SamePosition opened row) (call : CloseCall)
    (lots : ℚ) : call.grossPnl row lots = call.grossPnl opened lots := by
  rw [CloseCall.grossPnl, CloseCall.grossPnl, hsame.openPrice, hsame.direction, hsame.instrument]

/-- What the row of a position has left: all of nothing once it is closed. -/
inductive Holds (opened : Trade) (db : Db) : ℚ → Cents → Prop
  | closed {row : Trade} (hrow : db.trade? opened.id = some row) (hclosed : row.status = .closed) :
    Holds opened db 0 0
  | opened {row : Trade} (hrow : db.trade? opened.id = some row) (hopen : row.status = .opened)
    (hsame : SamePosition opened row) (hpos : 0 < row.lotSize) (hgrid : OnLotGrid row.lotSize) :
    Holds opened db row.lotSize row.commission

theorem CloseCall.step_opened {tradeId : Nat} {db db' : Db} {call : CloseCall}
    (hstep : call.step tradeId db = some db') :
    ∃ locked, db.trade? tradeId = some locked ∧ locked.status = .opened := by
  obtain ⟨stmts, hstmts, _⟩ := Option.bind_eq_some_iff.mp hstep
  obtain ⟨locked, _, _, hlocked, hopen, _⟩ := closeTradeHandler_eq_some hstmts
  exact ⟨locked, hlocked, hopen⟩

/-- A call is accepted only while the row is open. -/
theorem Holds.opened_of_step {opened : Trade} {db db' : Db} {call : CloseCall} {held : ℚ} {commission : Cents}
    (hholds : Holds opened db held commission) (hstep : call.step opened.id db = some db') :
    ∃ row, db.trade? opened.id = some row ∧ SamePosition opened row ∧ 0 < row.lotSize ∧
      OnLotGrid row.lotSize ∧ row.lotSize = held ∧ row.commission = commission := by
  cases hholds with
  | closed hrow hclosed =>
    obtain ⟨locked, hlocked, hopen⟩ := CloseCall.step_opened hstep
    obtain rfl := Option.some.inj (hrow.symm.trans hlocked)
    rw [hclosed] at hopen
    cases hopen
  | opened hrow _ hsame hpos hgrid => exact ⟨_, hrow, hsame, hpos, hgrid, rfl, rfl⟩

theorem closed_sums_of_perm {db db' : Db} {tradeId : Nat} {piece : Trade} {pnl : Cents}
    (hperm : (db'.closedPieces tradeId).Perm (piece :: db.closedPieces tradeId))
    (hpnl : piece.demoPnl = some pnl) :
    db'.closedLots tradeId = piece.lotSize + db.closedLots tradeId ∧
      db'.closedCommission tradeId = piece.commission + db.closedCommission tradeId ∧
      db'.closedPnl tradeId = pnl + db.closedPnl tradeId := by
  refine ⟨(hperm.map _).sum_eq, (hperm.map _).sum_eq, ?_⟩
  have hsum := (hperm.map fun t : Trade => t.demoPnl.getD 0).sum_eq
  rw [List.map_cons, List.sum_cons, hpnl] at hsum
  exact hsum

theorem abs_dollars_toCents_sub_le (x : ℚ) : |(toCents x).dollars - x| ≤ 1 / 200 := by
  have hcents := abs_roundHalfAway_sub_le (x * 100)
  have hscale : (toCents x).dollars - x = (roundHalfAway (x * 100) - x * 100) / 100 := by
    rw [Cents.dollars, toCents]
    ring
  rw [hscale, abs_div, abs_of_pos (by norm_num : (0 : ℚ) < 100)]
  linarith

/-- One call: the row gives up what the new closed row has, whose profit and commission make up the gross
profit of its lots to half a cent. -/
theorem Holds.step {opened : Trade} {db db' : Db} {call : CloseCall} {held : ℚ} {commission : Cents}
    (hholds : Holds opened db held commission) (hrequested : ∀ lots ∈ call.requestedCloseLots, OnLotGrid lots)
    (hstep : call.step opened.id db = some db') :
    ∃ commission' gross, Holds opened db' (held - call.closeLots held) commission' ∧
      call.grossPnl opened (call.closeLots held) = some gross ∧
      db'.closedLots opened.id = db.closedLots opened.id + call.closeLots held ∧
      db'.closedCommission opened.id = db.closedCommission opened.id + (commission - commission') ∧
      |(db'.closedPnl opened.id + db'.closedCommission opened.id).dollars
        - ((db.closedPnl opened.id + db.closedCommission opened.id).dollars + gross)| ≤ 1 / 200 := by
  obtain ⟨locked, hrow, hsame, hpos, hgrid, rfl, rfl⟩ := hholds.opened_of_step hstep
  obtain ⟨hopen, _, piece, row, hpiece, hleaves, hrow', hperm⟩ :=
    CloseCall.step_eq_some hstep hrow hgrid hrequested
  obtain ⟨gross, hgross, hpnl⟩ := hpiece.pnl
  obtain ⟨hlots, hcommission, hprofit⟩ := closed_sums_of_perm hperm hpnl
  rw [hsame.grossPnl] at hgross
  have hround := abs_dollars_toCents_sub_le (gross - piece.commission.dollars)
  have hprofits : |(db'.closedPnl opened.id + db'.closedCommission opened.id).dollars
      - ((db.closedPnl opened.id + db.closedCommission opened.id).dollars + gross)| ≤ 1 / 200 := by
    rw [hprofit, hcommission]
    simp only [Cents.dollars_add]
    refine le_of_eq_of_le (congrArg abs ?_) hround
    ring
  rw [hpiece.lotSize, add_comm] at hlots
  cases hleaves with
  | nothing hall hclosed =>
    refine ⟨0, gross, ?_, hgross, hlots, ?_, hprofits⟩
    · rw [hall, sub_self]
      exact .closed hrow' hclosed
    · rw [hcommission, hpiece.commission, hall, partialCommission_self hpos]
      ring
  | rest hleft hminimum =>
    refine ⟨_, gross, .opened hrow' hopen ⟨hsame.openPrice, hsame.direction, hsame.instrument⟩ hleft
      (hgrid.sub (call.onLotGrid_closeLots hgrid hrequested)), hgross, hlots, ?_, hprofits⟩
    rw [hcommission, hpiece.commission]
    simp only [Trade.resized]
    ring

/-- A run of calls: the row gives up what the new closed rows have, and their profits differ from the
piecewise ones by half a cent a call, beside what the row's share of the commission was rounded by. -/
theorem Holds.run {opened : Trade} {calls : List CloseCall} {db db' : Db} {held : ℚ} {commission : Cents}
    (hholds : Holds opened db held commission)
    (hrequested : ∀ call ∈ calls, ∀ lots ∈ call.requestedCloseLots, OnLotGrid lots)
    (hrun : run (CloseCall.step opened.id) db calls = some db') :
    ∃ held' commission' exact, Holds opened db' held' commission' ∧
      piecewisePnl opened held calls = some exact ∧
      db'.closedLots opened.id = db.closedLots opened.id + (held - held') ∧
      db'.closedCommission opened.id = db.closedCommission opened.id + (commission - commission') ∧
      |(db'.closedPnl opened.id + db'.closedCommission opened.id).dollars
        - ((db.closedPnl opened.id + db.closedCommission opened.id).dollars
          + (exact + opened.commission.dollars * ((held - held') / opened.lotSize)))|
        ≤ calls.length * (1 / 200) := by
  induction calls generalizing db held commission with
  | nil =>
    obtain rfl := Option.some.inj hrun
    refine ⟨held, commission, 0, hholds, rfl, ?_, ?_, ?_⟩ <;> simp
  | cons call calls ih =>
    obtain ⟨mid, hstep, hrest⟩ := Option.bind_eq_some_iff.mp hrun
    obtain ⟨commission₁, gross, hholds₁, hgross, hlots₁, hcommission₁, hpnl₁⟩ :=
      hholds.step (hrequested call List.mem_cons_self) hstep
    obtain ⟨held', commission', exact, hholds', hexact, hlots', hcommission', hpnl'⟩ :=
      ih hholds₁ (fun c hc => hrequested c (List.mem_cons_of_mem call hc)) hrest
    refine ⟨held', commission',
      gross - opened.commission.dollars * (call.closeLots held / opened.lotSize) + exact, hholds', ?_, ?_,
      ?_, ?_⟩
    · rw [piecewisePnl, hgross, Option.bind_eq_bind, Option.bind_some, hexact]
      rfl
    · rw [hlots', hlots₁]
      ring
    · rw [hcommission', hcommission₁]
      ring
    · rw [List.length_cons, Nat.cast_add, Nat.cast_one, add_mul, one_mul]
      refine le_of_eq_of_le (congrArg abs ?_) ((abs_add_le _ _).trans (add_le_add hpnl' hpnl₁))
      ring

theorem Holds.of_fresh {opened : Trade} {db : Db} (hrow : db.trade? opened.id = some opened)
    (hfresh : opened.Fresh) (hopen : opened.status = .opened) :
    Holds opened db opened.lotSize opened.commission :=
  .opened hrow hopen ⟨rfl, rfl, rfl⟩ hfresh.onLotGrid.1 hfresh.onLotGrid.2

theorem closedPieces_of_fresh {opened : Trade} {db : Db} (hrow : db.trade? opened.id = some opened)
    (hopen : opened.status = .opened) (hparts : ∀ t ∈ db.trades.rows, t.parentTradeId ≠ some opened.id) :
    db.closedPieces opened.id = [] := by
  rw [Db.closedPieces, List.filter_eq_nil_iff]
  intro t ht hselected
  obtain ⟨hid | hparent, hclosed⟩ := of_decide_eq_true hselected
  · obtain rfl := Option.some.inj (hrow.symm.trans (Db.trade?_eq_some.mpr ⟨ht, hid⟩))
    rw [hopen] at hclosed
    cases hclosed
  · exact hparts t ht hparent

/-- What an accepted call leaves open, in a run that goes on, is hundredths and at least the minimum. -/
theorem Holds.remainder {opened : Trade} {db mid db' : Db} {call next : CloseCall} {held : ℚ}
    {commission : Cents} (hholds : Holds opened db held commission)
    (hrequested : ∀ lots ∈ call.requestedCloseLots, OnLotGrid lots)
    (hstep : call.step opened.id db = some mid) (hnext : next.step opened.id mid = some db') :
    mid.trades.HasAt (fun row => OnLotGrid row.lotSize ∧ call.minLotSize ≤ row.lotSize) opened.id := by
  obtain ⟨row, hrow, hopen⟩ := CloseCall.step_opened hnext
  obtain ⟨locked, hlocked, _, _, hgrid, _, _⟩ := hholds.opened_of_step hstep
  obtain ⟨_, _, _, row', _, hleaves, hmid, _⟩ := CloseCall.step_eq_some hstep hlocked hgrid hrequested
  obtain rfl := Option.some.inj (hrow.symm.trans hmid)
  cases hleaves with
  | nothing _ hclosed =>
    rw [hclosed] at hopen
    cases hopen
  | rest _ hminimum =>
    exact ⟨_, hmid, hgrid.sub (call.onLotGrid_closeLots hgrid hrequested), hminimum⟩

/-- A run of accepted calls for hundredths that ends in a full close conserves the position. -/
theorem conservesPosition_of_onLotGrid {opened : Trade} {db db' : Db} {calls : List CloseCall}
    (hrow : db.trade? opened.id = some opened) (hfresh : opened.Fresh) (hopen : opened.status = .opened)
    (hparts : ∀ t ∈ db.trades.rows, t.parentTradeId ≠ some opened.id)
    (hrequested : ∀ call ∈ calls, ∀ lots ∈ call.requestedCloseLots, OnLotGrid lots)
    (hrun : run (CloseCall.step opened.id) db calls = some db') (hclosed : db'.HasClosed opened.id) :
    ConservesPosition opened db calls db' := by
  have hholds := Holds.of_fresh hrow hfresh hopen
  obtain ⟨held', commission', exact, hholds', hexact, hlots, hcommission, hpnl⟩ :=
    hholds.run hrequested hrun
  obtain ⟨rfl, rfl⟩ : held' = 0 ∧ commission' = 0 := by
    cases hholds' with
    | closed _ _ => exact ⟨rfl, rfl⟩
    | opened hrow' hopen' _ _ _ =>
      rw [Db.HasClosed, Table.hasAt_iff hrow', hopen'] at hclosed
      cases hclosed
  have hnone : db.closedPieces opened.id = [] := closedPieces_of_fresh hrow hopen hparts
  have hlots₀ : db.closedLots opened.id = 0 := by rw [Db.closedLots, hnone]; rfl
  have hcommission₀ : db.closedCommission opened.id = 0 := by rw [Db.closedCommission, hnone]; rfl
  have hpnl₀ : db.closedPnl opened.id = 0 := by rw [Db.closedPnl, hnone]; rfl
  rw [hlots₀, zero_add, sub_zero] at hlots
  rw [hcommission₀, zero_add, sub_zero] at hcommission
  refine ⟨hlots, hcommission, ?_, exact, hexact, ?_⟩
  · rintro done call (_ | ⟨next, rest⟩) mid rfl hne hmid
    · exact absurd rfl hne
    · rw [run_append, Option.bind_eq_some_iff] at hmid
      obtain ⟨before, hdone, hmid⟩ := hmid
      obtain ⟨_, hcall, hend⟩ := Option.bind_eq_some_iff.mp hmid
      obtain rfl := Option.some.inj hend
      rw [run_append, hdone, Option.bind_some, run, hcall, Option.bind_some, run,
        Option.bind_eq_some_iff] at hrun
      obtain ⟨_, hnext, _⟩ := hrun
      obtain ⟨_, _, _, hbefore, _⟩ := hholds.run
        (fun c hc => hrequested c (List.mem_append_left _ hc)) hdone
      exact hbefore.remainder (hrequested call (List.mem_append_right done List.mem_cons_self)) hcall hnext
  · have hshare : (opened.lotSize - 0) / opened.lotSize = 1 := by
      rw [sub_zero]
      exact div_self hfresh.onLotGrid.1.ne'
    rw [hpnl₀, hcommission₀, hcommission, hshare, Cents.dollars_add, Cents.dollars_add] at hpnl
    have hdiff : (db'.closedPnl opened.id).dollars - exact
        = (db'.closedPnl opened.id).dollars + opened.commission.dollars
          - (Cents.dollars 0 + Cents.dollars 0 + (exact + opened.commission.dollars * 1)) := by
      rw [Cents.dollars_zero]
      ring
    rw [hdiff]
    refine hpnl.trans ?_
    have hcount : (0 : ℚ) ≤ calls.length := Nat.cast_nonneg _
    linarith

/-- One lot of EURUSD bought at 1.10 with a commission of 7 dollars. -/
def oneLot : Trade := { sampleOrder.row 1 .opened with openPrice := some (11 / 10), openTime := some 0 }

def oneLotDb : Db :=
  { Db.initial Table.empty with accounts := .single (sampleTerms.provision 1), trades := .single oneLot }

/-- A call at 1.11 with the usual minimum of 0.01. -/
def callFor (requestedCloseLots : Option ℚ) (partId : Nat) : CloseCall :=
  ⟨noConversion, requestedCloseLots, 111 / 100, 1 / 100, partId, 100⟩

instance (db : Db) (tradeId : Nat) : Decidable (db.HasClosed tradeId) :=
  decidable_of_iff ((db.trade? tradeId).any fun row => row.status = .closed) (by
    simp [Db.HasClosed, Table.HasAt, Db.trade?, Option.any_eq_true])

theorem conservesPosition_threeCloses :
    ∃ db', run (CloseCall.step 1) oneLotDb
        [callFor (some (2 / 5)) 2, callFor (some (1 / 4)) 3, callFor none 4] = some db' ∧
      db'.HasClosed 1 ∧ ConservesPosition oneLot oneLotDb
        [callFor (some (2 / 5)) 2, callFor (some (1 / 4)) 3, callFor none 4] db' := by
  obtain ⟨db', hrun, hclosed⟩ := exists_of_run_any (CloseCall.step 1) oneLotDb
    [callFor (some (2 / 5)) 2, callFor (some (1 / 4)) 3, callFor none 4] (fun db' => db'.HasClosed 1)
    (by decide +kernel)
  refine ⟨db', hrun, of_decide_eq_true hclosed, ?_⟩
  have hfresh : oneLot.Fresh :=
    ⟨.inl rfl, ⟨1, by decide +kernel, by decide +kernel, by decide +kernel⟩, fun _ => rfl⟩
  exact conservesPosition_of_onLotGrid rfl hfresh rfl (by decide) (by decide +kernel) hrun
    (of_decide_eq_true hclosed)

/-- Closing 0.015 lots leaves 0.985, which is kept as 0.99: closing the rest closes 1.005 lots in all. -/
theorem offGridClose_not_conserved :
    ∃ db', run (CloseCall.step 1) oneLotDb [callFor (some (3 / 200)) 2, callFor none 3] = some db' ∧
      db'.HasClosed 1 ∧ db'.closedLots 1 = 201 / 200 ∧
      ¬ ConservesPosition oneLot oneLotDb [callFor (some (3 / 200)) 2, callFor none 3] db' := by
  obtain ⟨db', hrun, htest⟩ := exists_of_run_any (CloseCall.step 1) oneLotDb
    [callFor (some (3 / 200)) 2, callFor none 3]
    (fun db' => db'.HasClosed 1 ∧ db'.closedLots 1 = 201 / 200) (by decide +kernel)
  obtain ⟨hclosed, hlots⟩ := of_decide_eq_true htest
  refine ⟨db', hrun, hclosed, hlots, fun hconserves => ?_⟩
  have hone : db'.closedLots 1 = 1 := hconserves.lots.trans (by decide +kernel)
  rw [hlots] at hone
  norm_num at hone

end PropFirm
