import Mathlib
import PropFirm.IndexSync
import PropFirm.TradeRuns

/-!
# Edits of open positions and their index entries

The event engine triggers on the levels of an index entry, an object built from the row that
`syncOpenedTrade` was last called with. Modifying a position calls it with the row the update returned.
The batch calls it with the row it read at its start and the new stop, the partial close with the
columns its lock read, which the levels are not among. A crossing that `checkSLTP` records reaches the
row alone. One that the event engine records is also written to the object its scan held, which may have
been replaced by then.

What has been committed and is not yet in the engine's index is in flight, and is applied in any order.
-/

namespace PropFirm

open Transition

/-! ### The instrument catalogue -/

def Instrument.decimals : Instrument → Nat
  | usdjpy | eurjpy | gbpjpy | audjpy | cadjpy | chfjpy | nzdjpy | xngusd => 3
  | xauusd | xagusd | xptusd | xpdusd | xtiusd | xbrusd => 2
  | us30 | ustec | us500 | uk100 | aus200 | de40 | fra40 | eustx50 => 1
  | jp225 | hk50 => 0
  | _ => 5

def getMinDistance : Instrument → ℚ
  | .usdjpy | .eurjpy | .gbpjpy | .audjpy | .cadjpy | .chfjpy | .nzdjpy => 1 / 100
  | .xauusd | .xagusd | .xptusd | .xpdusd => 1 / 2
  | .xtiusd | .xbrusd => 1 / 20
  | .xngusd => 1 / 200
  | .us30 | .ustec | .us500 | .uk100 | .aus200 | .de40 | .fra40 | .eustx50 => 1
  | .jp225 | .hk50 => 5
  | _ => 1 / 10000

def roundPrice (value : ℚ) (instrument : Instrument) : ℚ :=
  (roundHalfAway (value * 10 ^ instrument.decimals) : ℚ) / 10 ^ instrument.decimals

/-! ### The edits -/

/-- The body of a modify request. A level is left out, cleared or set. -/
structure ModifyRequest where
  stopLoss : Option (Option ℚ)
  takeProfit : Option (Option ℚ)
  moveToBreakeven : Bool

/-- Whether the level is on its side of the market and far enough from it. -/
def validateLevel (value marketPrice minimumDistance : ℚ) (mustBeBelowMarket : Bool) : Bool :=
  (if mustBeBelowMarket then value < marketPrice else marketPrice < value) ∧
    minimumDistance ≤ |marketPrice - value|

namespace Trade

def modified (request : ModifyRequest) (breakeven : ℚ) : Table.Rewrite Trade where
  apply t :=
    { t with
      stopLoss := if request.moveToBreakeven then some breakeven else request.stopLoss.getD t.stopLoss
      takeProfit := request.takeProfit.getD t.takeProfit
      pendingClosePrice := none
      pendingCloseReason := none }
  key_apply _ := rfl

def withStopLoss (stopLoss : Option ℚ) : Table.Rewrite Trade where
  apply t := { t with stopLoss := stopLoss }
  key_apply _ := rfl

end Trade

def Db.rewriteTrade (db : Db) (id : Nat) (f : Table.Rewrite Trade) : Db :=
  { db with trades := db.trades.updateAt id f }

/-- `modifyTradeHandler`: the levels are judged against the row read before the update. -/
def modifyTradeHandler (seen db : Db) (tradeId : Nat) (request : ModifyRequest)
    (livePrice : Option Quote) : Option Db := do
  guard (request.stopLoss ≠ none ∨ request.takeProfit ≠ none ∨ request.moveToBreakeven)
  let trade ← seenOpenTrade seen tradeId
  let openPrice ← trade.openPrice
  let marketPrice ← livePrice.map (·.closeSide trade.direction)
  let valid := fun value mustBeBelowMarket =>
    validateLevel value marketPrice (getMinDistance trade.instrument) mustBeBelowMarket
  let isBuy := decide (trade.direction = .buy)
  guard (request.moveToBreakeven ∨ request.stopLoss.join.all (valid · isBuy))
  guard (request.takeProfit.join.all (valid · !isBuy))
  guard (request.moveToBreakeven → valid openPrice isBuy)
  let _ ← seenOpenTrade db tradeId
  some (db.rewriteTrade tradeId (Trade.modified request (roundPrice openPrice trade.instrument)))

/-- One `breakeven_winning` iteration of `batchActionHandler`, with the row it hands to the index. -/
def breakevenWinning (fx : FxSource) (seen db : Db) (tradeId : Nat) (price : Quote) :
    Option (Db × Trade) := do
  let trade ← seenOpenTrade seen tradeId
  let openPrice ← trade.openPrice
  let pnl ← calculatePnL fx trade.direction openPrice (price.closeSide trade.direction) trade.lotSize
    trade.instrument trade.commission
  guard (0 < pnl)
  let _ ← seenOpenTrade db tradeId
  some (db.rewriteTrade tradeId (Trade.withStopLoss (some openPrice)), { trade with stopLoss := some openPrice })

/-- The lots and the commission a partial close leaves. -/
def splitOf : List Stmt → Option (ℚ × Cents)
  | [.splitTrade _ _ lots commission, .creditAccount _ _] => some (lots, commission)
  | _ => none

def Stmt.defers : Stmt → Bool
  | .deferTrade _ _ _ => true
  | _ => false

/-! ### The entry objects -/

/-- Write to the object of this reference. -/
def TradeEntry.write (ref : Nat) (f : Trade → Trade) (entry : TradeEntry) : TradeEntry :=
  if entry.ref = ref then { entry with row := f entry.row } else entry

/-- The maps share the object. -/
def TradeIndex.writeEntry (s : TradeIndex) (ref : Nat) (f : Trade → Trade) : TradeIndex :=
  { s with
    made := s.made.modify ref f
    byId := fun id => (s.byId id).map (TradeEntry.write ref f)
    byInstrument := fun instrument id => (s.byInstrument instrument id).map (TradeEntry.write ref f) }

/-- A call of `syncOpenedTrade` on the engine, or the assignments that end `recordDeferredTriggers`. -/
inductive IndexWrite
  | reindex (row : Trade)
  | record (ref tradeId : Nat) (level : ℚ) (reason : String)

namespace IndexWrite

def tradeId : IndexWrite → Nat
  | reindex row => row.id
  | record _ tradeId _ _ => tradeId

def Reindexes (tradeId : Nat) : IndexWrite → Prop
  | reindex row => row.id = tradeId
  | record _ _ _ _ => False

instance (tradeId : Nat) : DecidablePred (Reindexes tradeId)
  | reindex row => inferInstanceAs (Decidable (row.id = tradeId))
  | record _ _ _ _ => .isFalse id

/-- `seed` is the profit the fresh entry starts from. -/
def applyTo (s : TradeIndex) (seed : Option ℚ) : IndexWrite → TradeIndex
  | reindex row => s.addOpenTradeToIndex row seed
  | record ref _ level reason => s.writeEntry ref (Trade.deferredTo level reason).apply

end IndexWrite

/-- `scanned` are the candidates of the running tick with the objects they were found on. -/
structure MirrorWorld where
  world : World
  index : TradeIndex
  scanned : List (Nat × SlTpCandidate)
  inFlight : List IndexWrite

inductive MirrorAction
  | tick (seconds : Nat)
  | modify (asOf tradeId : Nat) (request : ModifyRequest) (livePrice : Option Quote)
  | breakeven (fx : FxSource) (asOf tradeId : Nat) (price : Quote)
  | partialClose (fx : FxSource) (tradeId : Nat) (closeLots : Option ℚ) (closePrice minLotSize : ℚ)
      (partId : Nat)
  | checkSLTP (fx : FxSource) (asOf tradeId : Nat) (price : Quote) (minHoldSeconds : Nat)
  | scan (prices : List (Nat × ℚ))
  | recordDeferredTriggers (minHoldSeconds : Nat)
  | apply (k : Nat) (seed : Option ℚ)

namespace MirrorWorld

/-- The level a candidate is deferred at, inside the hold window. -/
def deferredLevel (minHoldSeconds now : Nat) (c : SlTpCandidate) : Option ℚ :=
  if withinHoldWindow c.trade minHoldSeconds now ∧ ¬ c.deferred then c.trigger.level else none

/-- The guard of the updates that record a crossing. -/
def Recordable (db : Db) (tradeId : Nat) : Bool :=
  (db.trade? tradeId).any fun row => row.status = .opened ∧ row.pendingClosePrice = none

/-- The assignments `recordDeferredTriggers` makes for the ids its update returned. -/
def recordWrites (db : Db) (minHoldSeconds now : Nat) (scanned : List (Nat × SlTpCandidate)) :
    List IndexWrite :=
  scanned.filterMap fun (ref, c) =>
    if Recordable db c.trade.id then
      (deferredLevel minHoldSeconds now c).map fun level => .record ref c.trade.id level c.trigger.reason
    else none

def scanEntries (index : TradeIndex) (prices : List (Nat × ℚ)) : List (Nat × SlTpCandidate) :=
  prices.filterMap fun (tradeId, closePrice) => do
    let entry ← index.byId tradeId
    let candidate ← scanTrade entry.row closePrice
    some (entry.ref, candidate)

/-- The committed state and what has to reach the index. -/
def edit (w : MirrorWorld) : MirrorAction → Option (Db × List IndexWrite)
  | .modify asOf tradeId request livePrice => do
    let seen ← w.world.seen asOf
    guard (w.world.tradeFree tradeId)
    let db ← modifyTradeHandler seen w.world.db tradeId request livePrice
    let row ← db.trade? tradeId
    some (db, [.reindex row])
  | .breakeven fx asOf tradeId price => do
    let seen ← w.world.seen asOf
    guard (w.world.tradeFree tradeId)
    let (db, updatedTrade) ← breakevenWinning fx seen w.world.db tradeId price
    some (db, [.reindex updatedTrade])
  | .partialClose fx tradeId closeLots closePrice minLotSize partId => do
    let stmts ← w.world.plan (.closeTradeHandler fx tradeId closeLots closePrice minLotSize partId)
    let (lots, commission) ← splitOf stmts
    let locked ← w.world.db.trade? tradeId
    let db ← execAll w.world.db stmts
    some (db, [.reindex (remainingTrade locked lots commission)])
  | .checkSLTP fx asOf tradeId price minHoldSeconds => do
    let stmts ← w.world.plan (.checkSLTP fx asOf tradeId price minHoldSeconds)
    guard (stmts.all Stmt.defers)
    let db ← execAll w.world.db stmts
    some (db, [])
  | .recordDeferredTriggers minHoldSeconds => do
    let candidates := w.scanned.map Prod.snd
    guard (∀ c ∈ candidates, w.world.tradeFree c.trade.id)
    let db ← execAll w.world.db (recordDeferredTriggers candidates minHoldSeconds w.world.clock)
    some (db, recordWrites w.world.db minHoldSeconds w.world.clock w.scanned)
  | .tick _ | .scan _ | .apply _ _ => none

def commit (w : MirrorWorld) (db : Db) (writes : List IndexWrite) : MirrorWorld :=
  { w with world := w.world.advance db, inFlight := w.inFlight ++ writes }

def step (w : MirrorWorld) : MirrorAction → Option MirrorWorld
  | .tick seconds => some { w with world := { w.world with clock := w.world.clock + seconds } }
  | .scan prices => do
    guard (prices.map Prod.fst).Nodup
    some { w with scanned := scanEntries w.index prices }
  | .apply k seed => do
    let write ← w.inFlight[k]?
    some { w with index := write.applyTo w.index seed, inFlight := w.inFlight.eraseIdx k }
  | .recordDeferredTriggers minHoldSeconds =>
    (w.edit (.recordDeferredTriggers minHoldSeconds)).map fun edited =>
      { w.commit edited.1 edited.2 with scanned := [] }
  | action => (w.edit action).map fun edited => w.commit edited.1 edited.2

end MirrorWorld

/-- An entry shows what its row says. A recorded crossing is due when the hold window that starts at the
open time ends. -/
@[mk_iff]
structure Mirrors (entry row : Trade) : Prop where
  lotSize : entry.lotSize = row.lotSize
  commission : entry.commission = row.commission
  stopLoss : entry.stopLoss = row.stopLoss
  takeProfit : entry.takeProfit = row.takeProfit
  pendingClosePrice : entry.pendingClosePrice = row.pendingClosePrice
  pendingCloseReason : entry.pendingCloseReason = row.pendingCloseReason
  openTime : entry.openTime = row.openTime

namespace MirrorWorld

/-- A fresh entry is on its way. -/
def Reindexing (w : MirrorWorld) (tradeId : Nat) : Prop := ∃ x ∈ w.inFlight, x.Reindexes tradeId

/-- A fresh entry shows what the row is, unless another one is on its way. -/
def Current (w : MirrorWorld) (k : Nat) : IndexWrite → Prop
  | .reindex read => ∀ row ∈ w.world.db.trade? read.id, row.status = .opened →
    (∃ y ∈ w.inFlight.eraseIdx k, y.Reindexes read.id) ∨ Mirrors read row
  | .record _ _ _ _ => True

/-- The condition of a step: a crossing is recorded on the object that is indexed, or while a fresh one
is on its way, and a fresh one is current. -/
def KeepsMirror (w : MirrorWorld) : MirrorAction → Prop
  | .tick _ | .modify _ _ _ _ | .breakeven _ _ _ _ | .partialClose _ _ _ _ _ _ | .scan _ => True
  | .checkSLTP _ _ tradeId _ _ => Recordable w.world.db tradeId = true → w.Reindexing tradeId
  | .recordDeferredTriggers minHoldSeconds => ∀ x ∈ w.scanned,
    deferredLevel minHoldSeconds w.world.clock x.2 ≠ none →
      Recordable w.world.db x.2.trade.id = true →
        w.Reindexing x.2.trade.id ∨ ∀ entry ∈ w.index.byId x.2.trade.id, entry.ref = x.1
  | .apply k _ => ∀ x ∈ w.inFlight[k]?, w.Current k x

/-- Once nothing about an open position is in flight, its entry mirrors its row. -/
def Mirrored (w : MirrorWorld) : Prop :=
  ∀ tradeId, (∀ x ∈ w.inFlight, x.tradeId ≠ tradeId) → ∀ row ∈ w.world.db.trade? tradeId,
    row.status = .opened → ∃ entry ∈ w.index.byId tradeId, Mirrors entry.row row

end MirrorWorld

/-! ### Entry objects under the index operations -/

theorem Mirrors.deferredTo {entry row : Trade} (hmirrors : Mirrors entry row) (level : ℚ)
    (reason : String) : Mirrors ((Trade.deferredTo level reason).apply entry)
      ((Trade.deferredTo level reason).apply row) :=
  ⟨hmirrors.lotSize, hmirrors.commission, hmirrors.stopLoss, hmirrors.takeProfit, rfl, rfl,
    hmirrors.openTime⟩

/-- Recording on the entry what the row has. -/
theorem Mirrors.record {entry row : Trade} (hmirrors : Mirrors entry row) {level : ℚ} {reason : String}
    (hprice : row.pendingClosePrice = some level) (hreason : row.pendingCloseReason = some reason) :
    Mirrors ((Trade.deferredTo level reason).apply entry) row :=
  ⟨hmirrors.lotSize, hmirrors.commission, hmirrors.stopLoss, hmirrors.takeProfit, hprice.symm,
    hreason.symm, hmirrors.openTime⟩

namespace TradeIndex

variable {s : TradeIndex}

/-- An entry is kept under its id and is the object its reference names. -/
def Keyed (s : TradeIndex) : Prop :=
  ∀ tradeId, ∀ entry ∈ s.byId tradeId, entry.row.id = tradeId ∧ s.made[entry.ref]? = some entry.row

theorem applyTradePnl_entries (s : TradeIndex) (ref : Nat) (pnl : ℚ) :
    (s.applyTradePnl ref pnl).byId = s.byId ∧ (s.applyTradePnl ref pnl).made = s.made := by
  rw [applyTradePnl]
  split <;> exact ⟨rfl, rfl⟩

theorem addOpenTradeToIndex_entries (s : TradeIndex) (row : Trade) (seed : Option ℚ) :
    (s.addOpenTradeToIndex row seed).byId
        = Function.update s.byId row.id (some ⟨s.made.length, row⟩) ∧
      (s.addOpenTradeToIndex row seed).made = s.made ++ [row] := by
  obtain ⟨hmade, _, hbyId, _⟩ := s.withdrawPrevious_rest row
  have hadd : (s.addTrade row none).byId = Function.update s.byId row.id (some ⟨s.made.length, row⟩) ∧
      (s.addTrade row none).made = s.made ++ [row] := by
    simp only [addTrade, install, withAccount, Option.elim_none, hmade, hbyId]
    exact ⟨trivial, trivial⟩
  cases seed with
  | none => exact hadd
  | some pnl =>
    obtain ⟨hsameIds, hsameMade⟩ := applyTradePnl_entries (s.addTrade row none) s.made.length pnl
    exact ⟨hsameIds.trans hadd.1, hsameMade.trans hadd.2⟩

theorem Keyed.addOpenTradeToIndex (hkeyed : s.Keyed) (row : Trade) (seed : Option ℚ) :
    (s.addOpenTradeToIndex row seed).Keyed := by
  obtain ⟨hbyId, hmade⟩ := s.addOpenTradeToIndex_entries row seed
  intro tradeId entry hentry
  rw [hbyId, Function.update_apply] at hentry
  rw [hmade]
  split at hentry
  · rename_i hid
    obtain rfl := Option.some.inj hentry
    exact ⟨hid.symm, by simp⟩
  · obtain ⟨hid, hobject⟩ := hkeyed tradeId entry hentry
    refine ⟨hid, ?_⟩
    rw [List.getElem?_append_left (List.getElem?_eq_some_iff.mp hobject).1]
    exact hobject

theorem writeEntry_byId {ref : Nat} {f : Trade → Trade} {tradeId : Nat} {entry : TradeEntry} :
    (s.writeEntry ref f).byId tradeId = some entry ↔
      ∃ before, s.byId tradeId = some before ∧ before.write ref f = entry :=
  Option.map_eq_some_iff

theorem Keyed.writeEntry (hkeyed : s.Keyed) {ref : Nat} {f : Trade → Trade}
    (hf : ∀ row, (f row).id = row.id) : (s.writeEntry ref f).Keyed := by
  intro tradeId entry hentry
  obtain ⟨before, hbefore, rfl⟩ := writeEntry_byId.mp hentry
  obtain ⟨hid, hobject⟩ := hkeyed tradeId before hbefore
  rw [TradeIndex.writeEntry, TradeEntry.write]
  split
  · rename_i href
    refine ⟨(hf _).trans hid, ?_⟩
    subst href
    simp [hobject]
  · rename_i href
    refine ⟨hid, ?_⟩
    have hother : ref ≠ before.ref := fun h => href h.symm
    simp [hother, hobject]

/-- The object was built from a row of this trade. -/
def ObjectOf (s : TradeIndex) (ref tradeId : Nat) : Prop := ∃ row ∈ s.made[ref]?, row.id = tradeId

theorem ObjectOf.addOpenTradeToIndex {ref tradeId : Nat} (hobject : s.ObjectOf ref tradeId) (row : Trade)
    (seed : Option ℚ) : (s.addOpenTradeToIndex row seed).ObjectOf ref tradeId := by
  obtain ⟨old, hold, hid⟩ := hobject
  refine ⟨old, ?_, hid⟩
  rw [(s.addOpenTradeToIndex_entries row seed).2,
    List.getElem?_append_left (List.getElem?_eq_some_iff.mp hold).1]
  exact hold

theorem ObjectOf.writeEntry {ref' tradeId : Nat} (hobject : s.ObjectOf ref' tradeId) {ref : Nat}
    {f : Trade → Trade} (hf : ∀ row, (f row).id = row.id) : (s.writeEntry ref f).ObjectOf ref' tradeId := by
  obtain ⟨old, hold, hid⟩ := hobject
  have hmade : s.made[ref']? = some old := hold
  by_cases href : ref = ref'
  · exact ⟨f old, by simp [TradeIndex.writeEntry, hmade, href], (hf old).trans hid⟩
  · exact ⟨old, by simp [TradeIndex.writeEntry, hmade, href], hid⟩

/-- An indexed object is of one trade. -/
theorem ObjectOf.unique {ref tradeId id : Nat} (hobject : s.ObjectOf ref tradeId) (hkeyed : s.Keyed)
    {entry : TradeEntry} (hentry : s.byId id = some entry) (href : entry.ref = ref) : tradeId = id := by
  obtain ⟨object, hmade, hid⟩ := hobject
  obtain ⟨hentryId, hentryMade⟩ := hkeyed id entry hentry
  rw [href, hmade] at hentryMade
  rw [← hid, ← hentryId, Option.some.inj hentryMade]

end TradeIndex

/-! ### What an edit does to the rows -/

/-- The statement opens no position. -/
def Stmt.OpensNothing (stmt : Stmt) : Prop :=
  (∀ id openPrice now, stmt ≠ .fillTrade id openPrice now) ∧
    ∀ t ∈ stmt.insertedTrades, t.status ≠ .opened

theorem Stmt.splitTrade_opensNothing (part : Trade) (hpart : part.status ≠ .opened) (closing : Closing)
    (lots : ℚ) (commission : Cents) : (splitTrade part closing lots commission).OpensNothing := by
  refine ⟨fun _ _ _ => Stmt.noConfusion, fun t ht => ?_⟩
  rw [List.mem_singleton.mp ht]
  exact hpart

theorem Stmt.creditAccount_opensNothing (id : Nat) (amount : Cents) :
    (creditAccount id amount).OpensNothing :=
  ⟨fun _ _ _ => Stmt.noConfusion, fun _ ht => absurd ht List.not_mem_nil⟩

theorem Stmt.deferTrade_opensNothing (id : Nat) (level : ℚ) (reason : String) :
    (deferTrade id level reason).OpensNothing :=
  ⟨fun _ _ _ => Stmt.noConfusion, fun _ ht => absurd ht List.not_mem_nil⟩

/-- An open row was open before the statements, which have rewritten it in turn. -/
theorem execAll_opened {stmts : List Stmt} (hopens : ∀ stmt ∈ stmts, stmt.OpensNothing) {db db' : Db}
    (hexec : execAll db stmts = some db') {tradeId : Nat} {row' : Trade}
    (hrow' : db'.trade? tradeId = some row') (hopen : row'.status = .opened) :
    ∃ row, db.trade? tradeId = some row ∧ row.status = .opened ∧
      row' = stmts.foldl (fun t stmt => stmt.rowUpdate t) row := by
  induction stmts generalizing db with
  | nil =>
    obtain rfl := Option.some.inj hexec
    exact ⟨row', hrow', hopen, rfl⟩
  | cons stmt stmts ih =>
    obtain ⟨mid, hstep, hrest⟩ := Option.bind_eq_some_iff.mp hexec
    obtain ⟨row, hrow, hrowOpen, rfl⟩ :=
      ih (fun s hs => hopens s (List.mem_cons_of_mem _ hs)) hrest
    obtain ⟨hfills, hinserts⟩ := hopens stmt List.mem_cons_self
    obtain ⟨hmem, hid⟩ := Db.trade?_eq_some.mp hrow
    rw [Stmt.exec_trades hstep, List.mem_append] at hmem
    rcases hmem with hinserted | hkept
    · exact absurd hrowOpen (hinserts row hinserted)
    · obtain ⟨t, ht, rfl⟩ := List.mem_map.mp hkept
      refine ⟨t, Db.trade?_eq_some.mpr ⟨ht, ?_⟩, (Stmt.rowUpdate_opened_of_ne hfills hrowOpen).1, rfl⟩
      rw [← hid, Stmt.rowUpdate_id]

theorem Db.rewriteTrade_trade? {db : Db} {tradeId : Nat} {f : Table.Rewrite Trade} (id : Nat) :
    (db.rewriteTrade tradeId f).trade? id
      = (db.trade? id).map fun row => if id = tradeId then f.apply row else row :=
  Table.find?_updateAt ..

namespace MirrorWorld

theorem recordDeferredTriggers_eq (candidates : List SlTpCandidate) (minHoldSeconds now : Nat) :
    recordDeferredTriggers candidates minHoldSeconds now = candidates.filterMap fun c =>
      (deferredLevel minHoldSeconds now c).map fun level => .deferTrade c.trade.id level c.trigger.reason := by
  rw [recordDeferredTriggers]
  refine congrArg (List.filterMap · candidates) (funext fun c => ?_)
  rw [deferredLevel]
  split <;> rfl

theorem recordDeferredTriggers_opensNothing (candidates : List SlTpCandidate) (minHoldSeconds now : Nat) :
    ∀ stmt ∈ recordDeferredTriggers candidates minHoldSeconds now, stmt.OpensNothing := by
  intro stmt hstmt
  rw [recordDeferredTriggers_eq, List.mem_filterMap] at hstmt
  obtain ⟨c, _, hstmt⟩ := hstmt
  obtain ⟨level, _, rfl⟩ := Option.map_eq_some_iff.mp hstmt
  exact Stmt.deferTrade_opensNothing c.trade.id level c.trigger.reason

/-- Only an open row without a recorded crossing takes one. -/
theorem foldl_deferrals_of_recorded {candidates : List SlTpCandidate} {minHoldSeconds now : Nat}
    {row : Trade} (hrecorded : row.status = .opened → row.pendingClosePrice ≠ none) :
    (recordDeferredTriggers candidates minHoldSeconds now).foldl (fun t stmt => stmt.rowUpdate t) row
      = row := by
  rw [recordDeferredTriggers_eq]
  induction candidates with
  | nil => rfl
  | cons c candidates ih =>
    rw [List.filterMap_cons]
    cases hlevel : deferredLevel minHoldSeconds now c with
    | none => exact ih
    | some level =>
      have hkept : (Stmt.deferTrade c.trade.id level c.trigger.reason).rowUpdate row = row :=
        if_neg fun h => hrecorded h.2.1 h.2.2
      rw [Option.map_some, List.foldl_cons, hkept]
      exact ih

/-- An open row without one takes that of the candidate it has. -/
theorem foldl_deferrals (candidates : List SlTpCandidate) {minHoldSeconds now : Nat} {row : Trade}
    (hopen : row.status = .opened) (hnone : row.pendingClosePrice = none) :
    let row' := (recordDeferredTriggers candidates minHoldSeconds now).foldl
      (fun t stmt => stmt.rowUpdate t) row
    (row' = row ∧
        ∀ c ∈ candidates, c.trade.id = row.id → deferredLevel minHoldSeconds now c = none) ∨
      ∃ c ∈ candidates, c.trade.id = row.id ∧ ∃ level ∈ deferredLevel minHoldSeconds now c,
        row' = (Trade.deferredTo level c.trigger.reason).apply row := by
  induction candidates with
  | nil => exact .inl ⟨rfl, fun c hc => absurd hc List.not_mem_nil⟩
  | cons c candidates ih =>
    have hcons : recordDeferredTriggers (c :: candidates) minHoldSeconds now
        = (((deferredLevel minHoldSeconds now c).map fun level =>
          Stmt.deferTrade c.trade.id level c.trigger.reason).toList
            ++ recordDeferredTriggers candidates minHoldSeconds now) := by
      rw [recordDeferredTriggers_eq, recordDeferredTriggers_eq, List.filterMap_cons]
      cases deferredLevel minHoldSeconds now c <;> rfl
    rw [hcons]
    dsimp only
    by_cases hdefers : c.trade.id = row.id ∧ deferredLevel minHoldSeconds now c ≠ none
    · obtain ⟨hid, hlevel⟩ := hdefers
      obtain ⟨level, hlevel⟩ := Option.ne_none_iff_exists'.mp hlevel
      refine .inr ⟨c, List.mem_cons_self, hid, level, hlevel, ?_⟩
      have hrow : (Stmt.deferTrade c.trade.id level c.trigger.reason).rowUpdate row
          = (Trade.deferredTo level c.trigger.reason).apply row := if_pos ⟨hid.symm, hopen, hnone⟩
      rw [hlevel, Option.map_some, Option.toList_some, List.singleton_append, List.foldl_cons, hrow]
      exact foldl_deferrals_of_recorded fun _ => Option.some_ne_none level
    · have hrow : (((deferredLevel minHoldSeconds now c).map fun level =>
          Stmt.deferTrade c.trade.id level c.trigger.reason).toList).foldl
            (fun t stmt => stmt.rowUpdate t) row = row := by
        cases hlevel : deferredLevel minHoldSeconds now c with
        | none => rfl
        | some level =>
          have hid : c.trade.id ≠ row.id := fun hid => hdefers ⟨hid, hlevel ▸ Option.some_ne_none level⟩
          exact if_neg fun h => hid h.1.symm
      rw [List.foldl_append, hrow]
      rcases ih with ⟨hsame, hothers⟩ | ⟨c', hc', hrecorded⟩
      · refine .inl ⟨hsame, fun c' hc' hid => ?_⟩
        rcases List.mem_cons.mp hc' with rfl | hc'
        · by_contra hlevel
          exact hdefers ⟨hid, hlevel⟩
        · exact hothers c' hc' hid
      · exact .inr ⟨c', List.mem_cons_of_mem _ hc', hrecorded⟩

variable {w w' : MirrorWorld}

/-! ### The entries and what is in flight -/

/-- The recorded crossing is on its way to this entry, which then mirrors the row. -/
def Recording (w : MirrorWorld) (tradeId : Nat) (entry : TradeEntry) (row : Trade) : Prop :=
  ∃ level reason, .record entry.ref tradeId level reason ∈ w.inFlight ∧
    Mirrors ((Trade.deferredTo level reason).apply entry.row) row

/-- What a crossing in flight says of its row as long as the object it is written to is indexed. -/
def RecordHolds (w : MirrorWorld) (ref tradeId : Nat) (level : ℚ) (reason : String) : Prop :=
  ∀ entry ∈ w.index.byId tradeId, entry.ref = ref → w.Reindexing tradeId ∨
    ∀ row ∈ w.world.db.trade? tradeId, row.status = .opened →
      row.pendingClosePrice = some level ∧ row.pendingCloseReason = some reason

structure Sound (w : MirrorWorld) : Prop where
  keyed : w.index.Keyed
  scannedObjects : ∀ x ∈ w.scanned, w.index.ObjectOf x.1 x.2.trade.id
  scannedOnce : (w.scanned.map fun x => x.2.trade.id).Nodup
  objects : ∀ ref tradeId level reason, .record ref tradeId level reason ∈ w.inFlight →
    w.index.ObjectOf ref tradeId
  records : ∀ ref tradeId level reason, .record ref tradeId level reason ∈ w.inFlight →
    w.RecordHolds ref tradeId level reason
  shown : ∀ tradeId, ∀ row ∈ w.world.db.trade? tradeId, row.status = .opened →
    ∃ entry ∈ w.index.byId tradeId,
      w.Reindexing tradeId ∨ Mirrors entry.row row ∨ w.Recording tradeId entry row

/-- What an edit does to an open row: nothing, something a fresh entry will show, or a crossing that is
written to the indexed object. -/
def Accounted (w : MirrorWorld) (writes : List IndexWrite) (tradeId : Nat) (row row' : Trade) : Prop :=
  row' = row ∨ (∃ x ∈ w.inFlight ++ writes, x.Reindexes tradeId) ∨
    row.pendingClosePrice = none ∧ ∃ level reason,
      row' = (Trade.deferredTo level reason).apply row ∧
        ∀ entry ∈ w.index.byId tradeId, .record entry.ref tradeId level reason ∈ writes

theorem Sound.commit (hsound : w.Sound) {db : Db} {writes : List IndexWrite}
    (hrows : ∀ tradeId, ∀ row' ∈ db.trade? tradeId, row'.status = .opened →
      ∃ row ∈ w.world.db.trade? tradeId, row.status = .opened ∧ w.Accounted writes tradeId row row')
    (hobjects : ∀ ref tradeId level reason, .record ref tradeId level reason ∈ writes →
      w.index.ObjectOf ref tradeId)
    (hrecords : ∀ ref tradeId level reason, .record ref tradeId level reason ∈ writes →
      ∀ row' ∈ db.trade? tradeId, row'.status = .opened →
        row'.pendingClosePrice = some level ∧ row'.pendingCloseReason = some reason) :
    (w.commit db writes).Sound := by
  refine ⟨hsound.keyed, hsound.scannedObjects, hsound.scannedOnce, ?_, ?_, ?_⟩
  · intro ref tradeId level reason hmem
    rcases List.mem_append.mp hmem with hold | hnew
    · exact hsound.objects ref tradeId level reason hold
    · exact hobjects ref tradeId level reason hnew
  · intro ref tradeId level reason hmem entry hentry href
    rcases List.mem_append.mp hmem with hold | hnew
    · rcases hsound.records ref tradeId level reason hold entry hentry href with ⟨x, hx, hre⟩ | hholds
      · exact .inl ⟨x, List.mem_append_left _ hx, hre⟩
      · by_cases hre : ∃ x ∈ w.inFlight ++ writes, x.Reindexes tradeId
        · exact .inl hre
        refine .inr fun row' hrow' hopen' => ?_
        obtain ⟨row, hrow, hopen, rfl | hre' | ⟨hnone, _⟩⟩ := hrows tradeId row' hrow' hopen'
        · exact hholds row' hrow hopen
        · exact absurd hre' hre
        · rw [(hholds row hrow hopen).1] at hnone
          cases hnone
    · exact .inr (hrecords ref tradeId level reason hnew)
  · intro tradeId row' hrow' hopen'
    obtain ⟨row, hrow, hopen, haccounted⟩ := hrows tradeId row' hrow' hopen'
    obtain ⟨entry, hentry, hshown⟩ := hsound.shown tradeId row hrow hopen
    refine ⟨entry, hentry, ?_⟩
    rcases hshown with ⟨x, hx, hre⟩ | hshown
    · exact .inl ⟨x, List.mem_append_left _ hx, hre⟩
    rcases haccounted with rfl | hre | ⟨hnone, level, reason, rfl, hwritten⟩
    · rcases hshown with hmirrors | ⟨level, reason, hmem, hmirrors⟩
      · exact .inr (.inl hmirrors)
      · exact .inr (.inr ⟨level, reason, List.mem_append_left _ hmem, hmirrors⟩)
    · exact .inl hre
    · rcases hshown with hmirrors | ⟨_, _, _, hmirrors⟩
      · refine .inr (.inr ⟨level, reason, List.mem_append_right _ (hwritten entry hentry), ?_⟩)
        exact hmirrors.deferredTo level reason
      · rw [← hmirrors.pendingClosePrice] at hnone
        cases hnone

theorem mem_eraseIdx_of_ne {writes : List IndexWrite} {k : Nat} {x y : IndexWrite}
    (hx : writes[k]? = some x) (hy : y ∈ writes) (hne : y ≠ x) : y ∈ writes.eraseIdx k := by
  obtain ⟨hlt, rfl⟩ := List.getElem?_eq_some_iff.mp hx
  have hmem := (List.getElem_cons_eraseIdx_perm hlt).mem_iff.mpr hy
  exact (List.mem_cons.mp hmem).resolve_left hne

/-- A fresh entry takes the place of the old one. -/
theorem Sound.reindex (hsound : w.Sound) {k : Nat} {read : Trade}
    (hx : w.inFlight[k]? = some (.reindex read))
    (hcurrent : ∀ row ∈ w.world.db.trade? read.id, row.status = .opened →
      (∃ y ∈ w.inFlight.eraseIdx k, y.Reindexes read.id) ∨ Mirrors read row) (seed : Option ℚ) :
    ({ w with
        index := w.index.addOpenTradeToIndex read seed
        inFlight := w.inFlight.eraseIdx k } : MirrorWorld).Sound := by
  obtain ⟨hbyId, _⟩ := w.index.addOpenTradeToIndex_entries read seed
  have hothers : ∀ {tradeId}, tradeId ≠ read.id → w.Reindexing tradeId →
      ∃ y ∈ w.inFlight.eraseIdx k, y.Reindexes tradeId := by
    rintro tradeId hid ⟨y, hy, hre⟩
    refine ⟨y, mem_eraseIdx_of_ne hx hy ?_, hre⟩
    rintro rfl
    exact hid hre.symm
  refine ⟨hsound.keyed.addOpenTradeToIndex read seed,
    fun x hx => (hsound.scannedObjects x hx).addOpenTradeToIndex read seed, hsound.scannedOnce, ?_, ?_, ?_⟩
  · intro ref tradeId level reason hmem
    have hobject := hsound.objects ref tradeId level reason (List.mem_of_mem_eraseIdx hmem)
    exact hobject.addOpenTradeToIndex read seed
  · intro ref tradeId level reason hmem entry hentry href
    have hmem := List.mem_of_mem_eraseIdx hmem
    dsimp only at hentry
    rw [hbyId, Function.update_apply] at hentry
    split at hentry
    · -- the object recorded on is older than the fresh one
      obtain rfl := Option.some.inj hentry
      obtain ⟨row, hrow, _⟩ := hsound.objects ref tradeId level reason hmem
      exact absurd href (List.getElem?_eq_some_iff.mp hrow).1.ne'
    · rename_i hid
      exact (hsound.records ref tradeId level reason hmem entry hentry href).imp_left (hothers hid)
  · intro tradeId row hrow hopen
    dsimp only
    rw [hbyId]
    by_cases hid : tradeId = read.id
    · subst hid
      refine ⟨_, Function.update_self .., ?_⟩
      exact (hcurrent row hrow hopen).imp_right .inl
    · obtain ⟨entry, hentry, hshown⟩ := hsound.shown tradeId row hrow hopen
      refine ⟨entry, (Function.update_of_ne hid ..).trans hentry, ?_⟩
      refine hshown.imp (hothers hid) (Or.imp_right ?_)
      rintro ⟨level, reason, hmem, hmirrors⟩
      exact ⟨level, reason, mem_eraseIdx_of_ne hx hmem IndexWrite.noConfusion, hmirrors⟩

/-- A crossing is written to its object. -/
theorem Sound.record (hsound : w.Sound) {k ref tradeId : Nat} {level : ℚ} {reason : String}
    (hx : w.inFlight[k]? = some (.record ref tradeId level reason)) :
    ({ w with
        index := w.index.writeEntry ref (Trade.deferredTo level reason).apply
        inFlight := w.inFlight.eraseIdx k } : MirrorWorld).Sound := by
  have hx' := List.mem_of_getElem? hx
  have hreindexing : ∀ {id}, w.Reindexing id → ∃ y ∈ w.inFlight.eraseIdx k, y.Reindexes id := by
    rintro id ⟨y, hy, hre⟩
    refine ⟨y, mem_eraseIdx_of_ne hx hy ?_, hre⟩
    rintro rfl
    exact hre
  refine ⟨hsound.keyed.writeEntry fun _ => rfl,
    fun x hx => (hsound.scannedObjects x hx).writeEntry fun _ => rfl, hsound.scannedOnce, ?_, ?_, ?_⟩
  · intro ref' id level' reason' hmem
    have hobject := hsound.objects ref' id level' reason' (List.mem_of_mem_eraseIdx hmem)
    exact hobject.writeEntry fun _ => rfl
  · intro ref' id level' reason' hmem entry hentry href
    obtain ⟨before, hbefore, rfl⟩ := TradeIndex.writeEntry_byId.mp hentry
    have href : before.ref = ref' := by
      rw [TradeEntry.write] at href
      split at href <;> exact href
    exact (hsound.records ref' id level' reason' (List.mem_of_mem_eraseIdx hmem) before hbefore href).imp_left
      hreindexing
  · intro id row hrow hopen
    obtain ⟨entry, hentry, hshown⟩ := hsound.shown id row hrow hopen
    refine ⟨entry.write ref (Trade.deferredTo level reason).apply,
      TradeIndex.writeEntry_byId.mpr ⟨entry, hentry, rfl⟩, ?_⟩
    rcases hshown with hre | hshown
    · exact .inl (hreindexing hre)
    rw [TradeEntry.write]
    split
    · rename_i href
      have hobject := hsound.objects ref tradeId level reason hx'
      obtain rfl := hobject.unique hsound.keyed hentry href
      rcases hsound.records ref tradeId level reason hx' entry hentry href with hre | hholds
      · exact .inl (hreindexing hre)
      · obtain ⟨hprice, hreason⟩ := hholds row hrow hopen
        rcases hshown with hmirrors | ⟨_, _, _, hmirrors⟩
        · exact .inr (.inl (hmirrors.record hprice hreason))
        · exact .inr (.inl (hmirrors.record hprice hreason))
    · rename_i href
      refine .inr (hshown.imp_right ?_)
      rintro ⟨level', reason', hmem, hmirrors⟩
      refine ⟨level', reason', mem_eraseIdx_of_ne hx hmem fun h => href ?_, hmirrors⟩
      injection h

/-! ### The edits -/

/-- An edit that re-indexes the one position it changes. -/
theorem Sound.commit_reindex (hsound : w.Sound) {db : Db} {read : Trade}
    (hrows : ∀ tradeId, ∀ row' ∈ db.trade? tradeId, row'.status = .opened →
      ∃ row ∈ w.world.db.trade? tradeId, row.status = .opened ∧ (tradeId ≠ read.id → row' = row)) :
    (w.commit db [.reindex read]).Sound := by
  refine hsound.commit (fun tradeId row' hrow' hopen' => ?_) (fun _ _ _ _ hmem => ?_)
    fun _ _ _ _ hmem => ?_
  · obtain ⟨row, hrow, hopen, hothers⟩ := hrows tradeId row' hrow' hopen'
    refine ⟨row, hrow, hopen, ?_⟩
    by_cases hid : tradeId = read.id
    · exact .inr (.inl ⟨_, List.mem_append_right _ (List.mem_singleton_self _), hid.symm⟩)
    · exact .inl (hothers hid)
  · cases List.mem_singleton.mp hmem
  · cases List.mem_singleton.mp hmem

theorem rewriteTrade_rows {db : Db} {tradeId : Nat} {f : Table.Rewrite Trade}
    (hf : ∀ t, (f.apply t).status = t.status) {id : Nat} {row' : Trade}
    (hrow' : (db.rewriteTrade tradeId f).trade? id = some row') (hopen' : row'.status = .opened) :
    ∃ row ∈ db.trade? id, row.status = .opened ∧ (id ≠ tradeId → row' = row) := by
  rw [Db.rewriteTrade_trade?, Option.map_eq_some_iff] at hrow'
  obtain ⟨row, hrow, rfl⟩ := hrow'
  refine ⟨row, hrow, ?_, fun hid => if_neg hid⟩
  split at hopen'
  · exact (hf row).symm.trans hopen'
  · exact hopen'

theorem modifyTradeHandler_eq_some {seen db db' : Db} {tradeId : Nat} {request : ModifyRequest}
    {livePrice : Option Quote} (hmodify : modifyTradeHandler seen db tradeId request livePrice = some db') :
    ∃ breakeven, db' = db.rewriteTrade tradeId (Trade.modified request breakeven) := by
  simp only [modifyTradeHandler, Option.bind_eq_bind, Option.bind_eq_some_iff, Option.some.injEq] at hmodify
  obtain ⟨_, _, _, _, _, _, _, _, _, _, _, _, _, _, _, _, rfl⟩ := hmodify
  exact ⟨_, rfl⟩

theorem breakevenWinning_eq_some {fx : FxSource} {seen db db' : Db} {tradeId : Nat} {price : Quote}
    {updatedTrade : Trade}
    (hbreakeven : breakevenWinning fx seen db tradeId price = some (db', updatedTrade)) :
    updatedTrade.id = tradeId ∧
      ∃ openPrice, db' = db.rewriteTrade tradeId (Trade.withStopLoss (some openPrice)) := by
  simp only [breakevenWinning, Option.bind_eq_bind, Option.bind_eq_some_iff, Option.some.injEq,
    Prod.mk.injEq] at hbreakeven
  obtain ⟨trade, hseen, openPrice, _, _, _, _, _, _, _, rfl, rfl⟩ := hbreakeven
  have hid := Db.trade?_id (seenOpenTrade_eq_some.mp hseen).1
  exact ⟨hid, openPrice, rfl⟩

/-- A partial close rewrites the one row, and its part is closed. -/
theorem partialClose_rows {fx : FxSource} {db db' : Db} {tradeId : Nat} {requested : Option ℚ}
    {closePrice minLotSize lots : ℚ} {commission : Cents} {partId now : Nat} {stmts : List Stmt}
    (hclose : closeTradeHandler fx db tradeId requested closePrice minLotSize partId now = some stmts)
    (hsplit : splitOf stmts = some (lots, commission)) (hexec : execAll db stmts = some db') {id : Nat}
    {row' : Trade} (hrow' : db'.trade? id = some row') (hopen' : row'.status = .opened) :
    ∃ row ∈ db.trade? id, row.status = .opened ∧ (id ≠ tradeId → row' = row) := by
  obtain ⟨locked, closeLots, c, hlocked, _, _, _, hpriced, ⟨_, rfl⟩ | ⟨_, rfl⟩⟩ :=
    closeTradeHandler_eq_some hclose
  · have hopens := List.forall_mem_cons.mpr ⟨Stmt.splitTrade_opensNothing
      (partialCloseRow locked partId closeLots closePrice (partialCommission locked closeLots) c.pnl now)
      TradeStatus.noConfusion c (toLots (roundLots (locked.lotSize - closeLots)))
      (locked.commission - partialCommission locked closeLots),
      List.forall_mem_singleton.mpr (Stmt.creditAccount_opensNothing locked.accountId c.pnl)⟩
    obtain ⟨row, hrow, hopen, rfl⟩ := execAll_opened hopens hexec hrow' hopen'
    refine ⟨row, hrow, hopen, fun hid => if_neg fun h => hid ?_⟩
    have hlockedId := Db.trade?_id hlocked
    rw [← Db.trade?_id hrow, h, hpriced]
    exact hlockedId
  · cases hsplit

/-- `checkSLTP` records on one row and tells nobody. -/
theorem Sound.checkSLTP (hsound : w.Sound) {fx : FxSource} {seen db : Db} {tradeId : Nat} {price : Quote}
    {minHoldSeconds now : Nat} {stmts : List Stmt}
    (hcheck : PropFirm.checkSLTP fx seen w.world.db tradeId price minHoldSeconds now = some stmts)
    (hdefers : stmts.all Stmt.defers = true) (hexec : execAll w.world.db stmts = some db)
    (hok : Recordable w.world.db tradeId = true → w.Reindexing tradeId) : (w.commit db []).Sound := by
  obtain ⟨trade, hseen, ⟨level, reason, rfl⟩ | ⟨_, _, _, hclose⟩⟩ := checkSLTP_eq_some hcheck
  · have hid := Db.trade?_id (seenOpenTrade_eq_some.mp hseen).1
    refine hsound.commit (fun id row' hrow' hopen' => ?_) (fun _ _ _ _ hmem => ?_)
      fun _ _ _ _ hmem => ?_
    · obtain ⟨row, hrow, hopen, rfl⟩ := execAll_opened
        (List.forall_mem_singleton.mpr (Stmt.deferTrade_opensNothing trade.id level reason)) hexec hrow'
        hopen'
      refine ⟨row, hrow, hopen, ?_⟩
      by_cases hrecords : row.id = trade.id ∧ row.status = .opened ∧ row.pendingClosePrice = none
      · obtain ⟨hsame, _, hnone⟩ := hrecords
        have hrowId := Db.trade?_id hrow
        obtain rfl : id = tradeId := by rw [← hrowId, hsame, hid]
        obtain ⟨x, hx, hre⟩ := hok (by simp [Recordable, Option.mem_def.mp hrow, hopen, hnone])
        exact .inr (.inl ⟨x, List.mem_append_left _ hx, hre⟩)
      · exact .inl (if_neg hrecords)
    · cases hmem
    · cases hmem
  · obtain ⟨_, _, _, _, _, _, rfl⟩ := closeFromSnapshot_eq_some hclose
    cases hdefers

theorem mem_recordWrites {db : Db} {minHoldSeconds now : Nat} {scanned : List (Nat × SlTpCandidate)}
    {ref tradeId : Nat} {level : ℚ} {reason : String} :
    .record ref tradeId level reason ∈ recordWrites db minHoldSeconds now scanned ↔
      ∃ c, (ref, c) ∈ scanned ∧ c.trade.id = tradeId ∧ c.trigger.reason = reason ∧
        Recordable db tradeId = true ∧ deferredLevel minHoldSeconds now c = some level := by
  rw [recordWrites, List.mem_filterMap]
  constructor
  · rintro ⟨⟨ref', c⟩, hmem, hwrite⟩
    dsimp only at hwrite
    split at hwrite
    · rename_i hrecordable
      obtain ⟨level', hlevel, hsame⟩ := Option.map_eq_some_iff.mp hwrite
      injection hsame with href hid hlevel' hreason
      subst href hid hlevel' hreason
      exact ⟨c, hmem, rfl, rfl, hrecordable, hlevel⟩
    · cases hwrite
  · rintro ⟨c, hmem, rfl, rfl, hrecordable, hlevel⟩
    refine ⟨(ref, c), hmem, ?_⟩
    dsimp only
    rw [if_pos hrecordable, hlevel, Option.map_some]

/-- What is to be written to an object is what its row has taken. -/
theorem recordWrites_hold {db db' : Db} {minHoldSeconds now : Nat} {scanned : List (Nat × SlTpCandidate)}
    (honce : (scanned.map fun x => x.2.trade.id).Nodup)
    (hexec : execAll db (PropFirm.recordDeferredTriggers (scanned.map Prod.snd) minHoldSeconds now)
      = some db') {ref tradeId : Nat} {level : ℚ} {reason : String}
    (hmem : .record ref tradeId level reason ∈ recordWrites db minHoldSeconds now scanned) {row' : Trade}
    (hrow' : db'.trade? tradeId = some row') (hopen' : row'.status = .opened) :
    row'.pendingClosePrice = some level ∧ row'.pendingCloseReason = some reason := by
  obtain ⟨c, hc, rfl, rfl, htakes, hlevel⟩ := mem_recordWrites.mp hmem
  obtain ⟨row, hrow, hopen, rfl⟩ := execAll_opened
    (recordDeferredTriggers_opensNothing (scanned.map Prod.snd) minHoldSeconds now) hexec hrow' hopen'
  have hrowId := Db.trade?_id hrow
  have hnone : row.pendingClosePrice = none := by
    rw [Recordable, Option.mem_def.mp hrow, Option.any_some, decide_eq_true_eq] at htakes
    exact htakes.2
  rcases foldl_deferrals (scanned.map Prod.snd) hopen hnone with
    ⟨_, hothers⟩ | ⟨c', hc', hid, level', hlevel', hrecorded⟩
  · rw [hothers c (List.mem_map_of_mem hc) hrowId.symm] at hlevel
    cases hlevel
  · -- no two candidates are of one trade
    obtain ⟨⟨ref', c''⟩, hx, rfl⟩ := List.mem_map.mp hc'
    have hsame : ((ref', c'') : Nat × SlTpCandidate) = (ref, c) :=
      List.inj_on_of_nodup_map honce hx hc (hid.trans hrowId)
    injection hsame with _ hsame
    subst hsame
    obtain rfl := Option.some.inj (hlevel.symm.trans hlevel')
    rw [hrecorded]
    exact ⟨rfl, rfl⟩

/-- `recordDeferredTriggers` records on the rows of its candidates and then on their objects. -/
theorem Sound.recordDeferredTriggers (hsound : w.Sound) {db : Db} {minHoldSeconds now : Nat}
    (hexec : execAll w.world.db (PropFirm.recordDeferredTriggers (w.scanned.map Prod.snd) minHoldSeconds now)
      = some db)
    (hok : ∀ x ∈ w.scanned, deferredLevel minHoldSeconds now x.2 ≠ none →
      Recordable w.world.db x.2.trade.id = true →
        w.Reindexing x.2.trade.id ∨ ∀ entry ∈ w.index.byId x.2.trade.id, entry.ref = x.1) :
    (w.commit db (recordWrites w.world.db minHoldSeconds now w.scanned)).Sound := by
  have hopens := recordDeferredTriggers_opensNothing (w.scanned.map Prod.snd) minHoldSeconds now
  have hrecordable : ∀ {id} {row : Trade}, w.world.db.trade? id = some row → row.status = .opened →
      row.pendingClosePrice = none → Recordable w.world.db id = true := by
    intro id row hrow hopen hnone
    simp [Recordable, hrow, hopen, hnone]
  refine hsound.commit (fun id row' hrow' hopen' => ?_) (fun ref id level reason hmem => ?_)
    fun ref id level reason hmem row' hrow' hopen' => ?_
  · obtain ⟨row, hrow, hopen, rfl⟩ := execAll_opened hopens hexec hrow' hopen'
    have hrowId := Db.trade?_id hrow
    refine ⟨row, hrow, hopen, ?_⟩
    by_cases hnone : row.pendingClosePrice = none
    · rcases foldl_deferrals (w.scanned.map Prod.snd) hopen hnone with
        ⟨hsame, _⟩ | ⟨c, hc, hid, level, hlevel, hrecorded⟩
      · exact .inl hsame
      · obtain ⟨⟨ref, c'⟩, hx, rfl⟩ := List.mem_map.mp hc
        dsimp only at hid hlevel hrecorded
        have htakes := hrecordable hrow hopen hnone
        rw [hrowId] at hid
        rcases hok _ hx (Option.ne_none_iff_exists'.mpr ⟨level, hlevel⟩) (hid ▸ htakes) with
          ⟨x, hx, hre⟩ | hobject
        · exact .inr (.inl ⟨x, List.mem_append_left _ hx, hid ▸ hre⟩)
        · refine .inr (.inr ⟨hnone, level, c'.trigger.reason, hrecorded, fun entry hentry => ?_⟩)
          rw [hobject entry (hid ▸ hentry)]
          exact mem_recordWrites.mpr ⟨c', hx, hid, rfl, htakes, hlevel⟩
    · exact .inl (foldl_deferrals_of_recorded fun _ => hnone)
  · obtain ⟨c, hc, rfl, _⟩ := mem_recordWrites.mp hmem
    exact hsound.scannedObjects (ref, c) hc
  · exact recordWrites_hold hsound.scannedOnce hexec hmem hrow' hopen'

theorem Sound.edit (hsound : w.Sound) {a : MirrorAction} (hok : w.KeepsMirror a) {db : Db}
    {writes : List IndexWrite} (hedit : w.edit a = some (db, writes)) : (w.commit db writes).Sound := by
  cases a with
  | modify asOf tradeId request livePrice =>
    simp only [MirrorWorld.edit, Option.bind_eq_bind, Option.bind_eq_some_iff, Option.some.injEq,
      Prod.mk.injEq] at hedit
    obtain ⟨seen, _, _, _, db', hmodify, row, hrow, rfl, rfl⟩ := hedit
    obtain ⟨breakeven, rfl⟩ := modifyTradeHandler_eq_some hmodify
    refine hsound.commit_reindex fun id row' hrow' hopen' => ?_
    rw [Db.trade?_id hrow]
    exact rewriteTrade_rows (fun _ => rfl) hrow' hopen'
  | breakeven fx asOf tradeId price =>
    simp only [MirrorWorld.edit, Option.bind_eq_bind, Option.bind_eq_some_iff, Option.some.injEq,
      Prod.mk.injEq, Prod.exists] at hedit
    obtain ⟨seen, _, _, _, db', updatedTrade, hbreakeven, rfl, rfl⟩ := hedit
    obtain ⟨rfl, openPrice, rfl⟩ := breakevenWinning_eq_some hbreakeven
    exact hsound.commit_reindex fun id row' hrow' hopen' =>
      rewriteTrade_rows (fun _ => rfl) hrow' hopen'
  | partialClose fx tradeId closeLots closePrice minLotSize partId =>
    simp only [MirrorWorld.edit, Option.bind_eq_bind, Option.bind_eq_some_iff, Option.some.injEq,
      Prod.mk.injEq, Prod.exists] at hedit
    obtain ⟨stmts, hplan, lots, commission, hsplit, locked, hlocked, db', hexec, rfl, rfl⟩ := hedit
    obtain ⟨_, hclose⟩ := World.whenFree_eq_some.mp hplan
    refine hsound.commit_reindex fun id row' hrow' hopen' => ?_
    rw [remainingTrade, Db.trade?_id hlocked]
    exact partialClose_rows hclose hsplit hexec hrow' hopen'
  | checkSLTP fx asOf tradeId price minHoldSeconds =>
    simp only [MirrorWorld.edit, Option.bind_eq_bind, Option.bind_eq_some_iff, Option.guard_eq_some',
      Option.some.injEq, Prod.mk.injEq] at hedit
    obtain ⟨stmts, hplan, _, hdefers, db', hexec, rfl, rfl⟩ := hedit
    simp only [World.plan, Option.bind_eq_bind, Option.bind_eq_some_iff] at hplan
    obtain ⟨seen, _, _, _, hplan⟩ := hplan
    exact hsound.checkSLTP (World.whenFree_eq_some.mp hplan).2 hdefers hexec hok
  | recordDeferredTriggers minHoldSeconds =>
    simp only [MirrorWorld.edit, Option.bind_eq_bind, Option.bind_eq_some_iff, Option.some.injEq,
      Prod.mk.injEq] at hedit
    obtain ⟨_, _, db', hexec, rfl, rfl⟩ := hedit
    exact hsound.recordDeferredTriggers hexec hok
  | tick | scan | apply => cases hedit

theorem scanTrade_trade {trade : Trade} {closePrice : ℚ} {c : SlTpCandidate}
    (hscan : scanTrade trade closePrice = some c) : c.trade = trade := by
  rw [scanTrade] at hscan
  split at hscan
  · obtain rfl := Option.some.inj hscan
    rfl
  · obtain ⟨trigger, _, rfl⟩ := Option.map_eq_some_iff.mp hscan
    rfl

/-- A candidate is found on the entry of its own id. -/
theorem mem_scanEntries {index : TradeIndex} (hkeyed : index.Keyed) {prices : List (Nat × ℚ)}
    {x : Nat × SlTpCandidate} (hx : x ∈ scanEntries index prices) :
    ∃ entry ∈ index.byId x.2.trade.id, entry.ref = x.1 ∧ x.2.trade = entry.row ∧
      ∃ closePrice, scanTrade entry.row closePrice = some x.2 := by
  obtain ⟨p, _, hx⟩ := List.mem_filterMap.mp hx
  simp only [Option.bind_eq_bind, Option.bind_eq_some_iff, Option.some.injEq] at hx
  obtain ⟨entry, hentry, c, hscan, rfl⟩ := hx
  have htrade := scanTrade_trade hscan
  refine ⟨entry, ?_, rfl, htrade, p.2, hscan⟩
  rw [htrade, (hkeyed p.1 entry hentry).1]
  exact hentry

theorem scanEntries_objects {index : TradeIndex} (hkeyed : index.Keyed) {prices : List (Nat × ℚ)}
    {x : Nat × SlTpCandidate} (hx : x ∈ scanEntries index prices) :
    index.ObjectOf x.1 x.2.trade.id := by
  obtain ⟨entry, hentry, href, htrade, _⟩ := mem_scanEntries hkeyed hx
  refine ⟨entry.row, ?_, by rw [htrade]⟩
  rw [← href]
  exact (hkeyed _ entry hentry).2

theorem scanEntries_once {index : TradeIndex} (hkeyed : index.Keyed) {prices : List (Nat × ℚ)}
    (honce : (prices.map Prod.fst).Nodup) :
    ((scanEntries index prices).map fun x => x.2.trade.id).Nodup := by
  refine honce.sublist ?_
  clear honce
  induction prices with
  | nil => exact .slnil
  | cons p prices ih =>
    rw [scanEntries, List.filterMap_cons]
    split
    · exact ih.cons _
    · rename_i x hx
      simp only [Option.bind_eq_bind, Option.bind_eq_some_iff, Option.some.injEq] at hx
      obtain ⟨entry, hentry, c, hscan, rfl⟩ := hx
      rw [List.map_cons, List.map_cons, scanTrade_trade hscan, (hkeyed p.1 entry hentry).1]
      exact ih.cons_cons _

theorem Sound.step (hsound : w.Sound) {a : MirrorAction} (hok : w.KeepsMirror a)
    (hstep : w.step a = some w') : w'.Sound := by
  cases a with
  | tick seconds =>
    obtain rfl := Option.some.inj hstep
    exact ⟨hsound.keyed, hsound.scannedObjects, hsound.scannedOnce, hsound.objects, hsound.records,
      hsound.shown⟩
  | scan prices =>
    simp only [MirrorWorld.step, Option.bind_eq_bind, Option.bind_eq_some_iff, Option.guard_eq_some',
      exists_const, Option.some.injEq] at hstep
    obtain ⟨hnodup, rfl⟩ := hstep
    exact ⟨hsound.keyed, fun x hx => scanEntries_objects hsound.keyed hx,
      scanEntries_once hsound.keyed hnodup, hsound.objects, hsound.records, hsound.shown⟩
  | apply k seed =>
    obtain ⟨x, hx, hstep⟩ := Option.bind_eq_some_iff.mp hstep
    obtain rfl := Option.some.inj hstep
    cases x with
    | reindex read => exact hsound.reindex hx (hok _ hx) seed
    | record ref tradeId level reason => exact hsound.record hx
  | recordDeferredTriggers minHoldSeconds =>
    obtain ⟨⟨db, writes⟩, hedit, rfl⟩ := Option.map_eq_some_iff.mp hstep
    obtain ⟨hkeyed, _, _, hobjects, hrecords, hshown⟩ := hsound.edit hok hedit
    exact ⟨hkeyed, fun _ hx => absurd hx List.not_mem_nil, List.nodup_nil, hobjects, hrecords, hshown⟩
  | modify | breakeven | partialClose | checkSLTP =>
    obtain ⟨⟨db, writes⟩, hedit, rfl⟩ := Option.map_eq_some_iff.mp hstep
    exact hsound.edit hok hedit

/-- Nothing scanned or in flight, and every open position with the entry of its row. -/
structure Synced (w : MirrorWorld) : Prop where
  keyed : w.index.Keyed
  scanned : w.scanned = []
  inFlight : w.inFlight = []
  mirrored : w.Mirrored

theorem Synced.sound (hsynced : w.Synced) : w.Sound := by
  obtain ⟨hkeyed, hscanned, hinFlight, hmirrored⟩ := hsynced
  have hnothing : ∀ {x}, x ∉ w.inFlight := by
    intro x
    rw [hinFlight]
    exact List.not_mem_nil
  refine ⟨hkeyed, ?_, ?_, fun _ _ _ _ hmem => absurd hmem hnothing,
    fun _ _ _ _ hmem => absurd hmem hnothing, fun tradeId row hrow hopen => ?_⟩
  · rw [hscanned]
    exact fun _ hx => absurd hx List.not_mem_nil
  · rw [hscanned]
    exact List.nodup_nil
  · obtain ⟨entry, hentry, hmirrors⟩ :=
      hmirrored tradeId (fun _ hx => absurd hx hnothing) row hrow hopen
    exact ⟨entry, hentry, .inr (.inl hmirrors)⟩

theorem IndexWrite.Reindexes.tradeId_eq {tradeId : Nat} {x : IndexWrite} (hre : x.Reindexes tradeId) :
    x.tradeId = tradeId := by
  cases x with
  | reindex row => exact hre
  | record => cases hre

theorem Sound.mirrored (hsound : w.Sound) : w.Mirrored := by
  intro tradeId hquiet row hrow hopen
  obtain ⟨entry, hentry, hshown⟩ := hsound.shown tradeId row hrow hopen
  refine ⟨entry, hentry, ?_⟩
  rcases hshown with ⟨x, hx, hre⟩ | hmirrors | ⟨_, _, hmem, _⟩
  · exact absurd (IndexWrite.Reindexes.tradeId_eq hre) (hquiet x hx)
  · exact hmirrors
  · exact absurd rfl (hquiet _ hmem)

instance (w : MirrorWorld) (tradeId : Nat) : Decidable (w.Reindexing tradeId) :=
  inferInstanceAs (Decidable (∃ x ∈ w.inFlight, x.Reindexes tradeId))

instance (entry row : Trade) : Decidable (Mirrors entry row) :=
  decidable_of_iff' _ (mirrors_iff entry row)

instance (w : MirrorWorld) (k : Nat) : ∀ x, Decidable (w.Current k x)
  | .reindex read => inferInstanceAs (Decidable (∀ row ∈ w.world.db.trade? read.id, _ → _))
  | .record _ _ _ _ => .isTrue trivial

instance (w : MirrorWorld) : ∀ a, Decidable (w.KeepsMirror a)
  | .tick _ | .modify _ _ _ _ | .breakeven _ _ _ _ | .partialClose _ _ _ _ _ _ | .scan _ => .isTrue trivial
  | .checkSLTP _ _ tradeId _ _ =>
    inferInstanceAs (Decidable (Recordable w.world.db tradeId = true → w.Reindexing tradeId))
  | .recordDeferredTriggers _ => List.decidableBAll _ _
  | .apply k _ => inferInstanceAs (Decidable (∀ x ∈ w.inFlight[k]?, w.Current k x))

/-- A position with a stop loss at 1.09. -/
def protectedLong : Trade := { TradeIndex.longOne with stopLoss := some (109 / 100) }

def protectedLongIndexed : MirrorWorld where
  world := (World.initial .empty).advance
    { Db.initial .empty with
      accounts := .single (sampleTerms.provision 1)
      trades := .single protectedLong }
  index := TradeIndex.empty.addOpenTradeToIndex protectedLong none
  scanned := []
  inFlight := []

theorem protectedLongIndexed_synced : protectedLongIndexed.Synced := by
  refine ⟨?_, rfl, rfl, fun tradeId _ row hrow _ => ?_⟩
  · have hempty : TradeIndex.empty.Keyed := fun _ entry hentry => by cases hentry
    exact hempty.addOpenTradeToIndex protectedLong none
  · obtain ⟨hmem, hid⟩ := Db.trade?_eq_some.mp hrow
    obtain rfl := List.mem_singleton.mp hmem
    subst hid
    exact ⟨⟨0, protectedLong⟩, rfl, rfl, rfl, rfl, rfl, rfl, rfl, rfl⟩

/-- The stop is crossed inside the hold window and recorded, and the trader moves it. -/
def movedAfterCrossing : List MirrorAction :=
  [.scan [(7, 109 / 100)], .recordDeferredTriggers 60, .apply 0 none,
    .modify 0 7 ⟨some (some (108 / 100)), none, false⟩ (some (quoteAt (11 / 10))), .apply 0 none]

/-- The trader closes half of the position. -/
def halfClosed : List MirrorAction :=
  [.partialClose noConversion 7 (some (1 / 2)) (111 / 100) (1 / 100) 8, .apply 0 none]

end MirrorWorld

end PropFirm
