import Mathlib
import PropFirm.IndexMirror

/-!
# Crossings inside the hold window

A level that is crossed while a position is inside its hold window is recorded and filled at the level
once the window is over. Two engines record and fill. The interval engine, `checkSLTP`, reads and writes
the rows. The event engine, `runTick`, scans its index entries. A crossing it has recorded reaches the
entry objects when the update has returned, one that the interval engine has recorded never does.

The traders leave their positions alone here. The event engine runs one pass at a time, an interval pass
reads the rows as they were in some earlier state.
-/

namespace PropFirm

open Transition

/-- Where the event engine's pass is suspended: on the trading rules, on the update that records, on its
result, on the closing transaction. `now` is the clock `closeTriggeredTrades` read. -/
inductive EventPass
  | idle
  | scanned (candidates : List (Nat × SlTpCandidate))
  | deferring (candidates : List (Nat × SlTpCandidate)) (now : Nat)
  | writing (candidates : List (Nat × SlTpCandidate)) (now : Nat) (writes : List IndexWrite)
  | closing (candidates : List (Nat × SlTpCandidate)) (now : Nat)

/-- `closed` are closed trades that the index still holds. -/
structure DeferralWorld where
  world : World
  index : TradeIndex
  pass : EventPass
  closed : List Nat

inductive DeferralAction
  | tick (seconds : Nat)
  | checkSLTP (fx : FxSource) (asOf tradeId : Nat) (price : Quote)
  | scan (prices : List (Nat × ℚ))
  | evaluate
  | recordDeferredTriggers
  | writeEntry
  | closeTriggeredTrades (fx : FxSource) (busy : List Nat)
  | endPass
  | removeTrade

def Stmt.closedIds : Stmt → List Nat
  | .closeTrades closings _ _ => closings.map fun c => c.trade.id
  | _ => []

namespace DeferralWorld

variable (minHoldSeconds : Nat)

def commit (w : DeferralWorld) (stmts : List Stmt) (pass : EventPass) : Option DeferralWorld :=
  (execAll w.world.db stmts).map fun db =>
    { w with
      world := w.world.advance db
      pass := pass
      closed := w.closed ++ stmts.flatMap Stmt.closedIds }

def step (w : DeferralWorld) : DeferralAction → Option DeferralWorld
  | .tick seconds => some { w with world := { w.world with clock := w.world.clock + seconds } }
  | .checkSLTP fx asOf tradeId price =>
    (w.world.plan (.checkSLTP fx asOf tradeId price minHoldSeconds)).bind fun stmts =>
      w.commit stmts w.pass
  | .scan prices => match w.pass with
    | .idle => if (prices.map Prod.fst).Nodup then
        some { w with pass := .scanned (MirrorWorld.scanEntries w.index prices) }
      else none
    | _ => none
  | .evaluate => match w.pass with
    | .scanned candidates => some { w with pass := .deferring candidates w.world.clock }
    | _ => none
  | .recordDeferredTriggers => match w.pass with
    | .deferring candidates now =>
      let toDefer := recordDeferredTriggers (candidates.map Prod.snd) minHoldSeconds now
      let writes := MirrorWorld.recordWrites w.world.db minHoldSeconds now candidates
      if ∀ x ∈ candidates, w.world.tradeFree x.2.trade.id then
        w.commit toDefer (.writing candidates now writes)
      else none
    | _ => none
  | .writeEntry => match w.pass with
    | .writing candidates now (write :: writes) =>
      some { w with index := write.applyTo w.index none, pass := .writing candidates now writes }
    | .writing candidates now [] => some { w with pass := .closing candidates now }
    | _ => none
  | .closeTriggeredTrades fx busy => match w.pass with
    | .closing candidates now => do
      let eligible := (candidates.map Prod.snd).filter fun c => !withinHoldWindow c.trade minHoldSeconds now
      let locked := w.world.lockedRows ++ busy
      let stmts ← closeTriggeredTrades fx w.world.db locked eligible minHoldSeconds w.world.clock
      let owned := ownedCandidates w.world.db locked eligible minHoldSeconds w.world.clock
      guard (∀ c ∈ owned, w.world.accountFree c.trade.accountId)
      w.commit stmts .idle
    | _ => none
  | .endPass => match w.pass with
    | .closing _ _ => some { w with pass := .idle }
    | _ => none
  | .removeTrade => match w.closed with
    | [] => none
    | tradeId :: closed => some { w with index := w.index.removeTrade tradeId, closed := closed }

/-! ### The guarantee -/

/-- A crossing once recorded on an open row stays the recorded one until the row is closed, and is what
it is closed with. -/
def Honoured (w : DeferralWorld) : Prop :=
  ∀ db ∈ w.world.history, ∀ tradeId, ∀ before ∈ db.trade? tradeId, before.status = .opened →
    ∀ t ∈ deferredTrigger before, ∃ row ∈ w.world.db.trade? tradeId,
      row.status = .opened ∧ deferredTrigger row = some t ∨
        row.status = .closed ∧ row.closePrice = some t.fillPrice ∧ row.closeReason = some t.reason

/-- Once a pass has recorded, every open row that it saw a crossing of inside the window has one. -/
def Noted (w : DeferralWorld) : Prop :=
  match w.pass with
  | .writing candidates now _ | .closing candidates now => ∀ x ∈ candidates,
    withinHoldWindow x.2.trade minHoldSeconds now = true → ∀ row ∈ w.world.db.trade? x.2.trade.id,
      row.status = .opened → row.pendingClosePrice ≠ none
  | .idle | .scanned _ | .deferring _ _ => True

/-- After the window, the next pass of either engine over the position closes it with the crossing
recorded, whatever the price is by then. -/
def Fires (w : DeferralWorld) : Prop :=
  ∀ tradeId, ∀ row ∈ w.world.db.trade? tradeId, row.status = .opened →
    withinHoldWindow row minHoldSeconds w.world.clock = false → ∀ t ∈ deferredTrigger row,
      (∀ acc ∈ w.world.db.account? row.accountId, acc.status = .active → ∀ fx price,
        checkSLTP fx w.world.db w.world.db tradeId price minHoldSeconds w.world.clock
          = closeFromSnapshot fx w.world.db row t.fillPrice t.reason w.world.clock true) ∧
      (w.pass = .idle → ∃ entry ∈ w.index.byId tradeId,
        withinHoldWindow entry.row minHoldSeconds w.world.clock = false ∧
          ∀ closePrice, scanTrade entry.row closePrice = some ⟨entry.row, t, true⟩)

/-- The engines find the same live crossing for a price, a stop loss before a take profit, and after the
window the same trigger. -/
def PickAlike (w : DeferralWorld) : Prop :=
  ∀ tradeId, ∀ row ∈ w.world.db.trade? tradeId, row.status = .opened →
    ∃ entry ∈ w.index.byId tradeId, ∀ price,
      liveTrigger entry.row price = liveTrigger row price ∧
        (∀ stopLoss ∈ row.stopLoss, isSLTriggered row.direction stopLoss price = true →
          liveTrigger row price = some ⟨"Stop Loss", price, some stopLoss⟩) ∧
        (w.pass = .idle → withinHoldWindow row minHoldSeconds w.world.clock = false →
          (scanTrade entry.row price).map SlTpCandidate.trigger
            = sltpTrigger row price minHoldSeconds w.world.clock)

structure Guaranteed (w : DeferralWorld) : Prop where
  honoured : w.Honoured
  noted : w.Noted minHoldSeconds
  fires : w.Fires minHoldSeconds
  pickAlike : w.PickAlike minHoldSeconds

/-- The condition of a step: an interval pass has read the crossing its row has recorded, and inside the
window the row has one already. -/
def KeepsTriggers (w : DeferralWorld) : DeferralAction → Prop
  | .checkSLTP _ asOf tradeId _ => ∀ seen ∈ w.world.seen asOf, ∀ before ∈ seen.trade? tradeId,
    ∀ row ∈ w.world.db.trade? tradeId, row.status = .opened →
      deferredTrigger before = deferredTrigger row ∧
        (withinHoldWindow before minHoldSeconds w.world.clock = true → row.pendingClosePrice ≠ none)
  | .tick _ | .scan _ | .evaluate | .recordDeferredTriggers | .writeEntry | .closeTriggeredTrades _ _
  | .endPass | .removeTrade => True

end DeferralWorld

/-! ### Triggers of a row and of an entry that follows it -/

/-- The entry triggers as its row does. -/
structure Follows (entry row : Trade) : Prop where
  mirrors : Mirrors entry row
  direction : entry.direction = row.direction

namespace Follows

variable {entry row : Trade}

theorem deferredTrigger_eq (hfollows : Follows entry row) : deferredTrigger entry = deferredTrigger row := by
  rw [deferredTrigger, deferredTrigger, hfollows.mirrors.pendingClosePrice,
    hfollows.mirrors.pendingCloseReason]

theorem liveTrigger_eq (hfollows : Follows entry row) (price : ℚ) :
    liveTrigger entry price = liveTrigger row price := by
  rw [liveTrigger, liveTrigger, hfollows.mirrors.stopLoss, hfollows.mirrors.takeProfit, hfollows.direction]

theorem withinHoldWindow_eq (hfollows : Follows entry row) (minHoldSeconds now : Nat) :
    withinHoldWindow entry minHoldSeconds now = withinHoldWindow row minHoldSeconds now := by
  rw [withinHoldWindow, withinHoldWindow, hfollows.mirrors.openTime]

end Follows

theorem deferredTrigger_eq_none {trade : Trade} :
    deferredTrigger trade = none ↔ trade.pendingClosePrice = none :=
  Option.map_eq_none_iff

theorem liveTrigger_stopLoss {trade : Trade} {stopLoss price : ℚ} (hstop : trade.stopLoss = some stopLoss)
    (hcrossed : isSLTriggered trade.direction stopLoss price = true) :
    liveTrigger trade price = some ⟨"Stop Loss", price, some stopLoss⟩ := by
  rw [liveTrigger, hstop, Option.any_some, if_pos hcrossed]

theorem liveTrigger_level {trade : Trade} {price : ℚ} {t : Trigger} (hlive : liveTrigger trade price = some t) :
    t.level ≠ none := by
  rw [liveTrigger] at hlive
  split at hlive
  · rename_i hstop
    obtain rfl := Option.some.inj hlive
    obtain ⟨level, hlevel, _⟩ := (Option.any_eq_true _ _).mp hstop
    exact Option.ne_none_iff_exists'.mpr ⟨level, hlevel⟩
  · split at hlive
    · rename_i htarget
      obtain rfl := Option.some.inj hlive
      obtain ⟨level, hlevel, _⟩ := (Option.any_eq_true _ _).mp htarget
      exact Option.ne_none_iff_exists'.mpr ⟨level, hlevel⟩
    · cases hlive

/-- Outside the window a recorded crossing comes first. -/
theorem sltpTrigger_of_deferred {trade : Trade} {price : ℚ} {minHoldSeconds now : Nat} {t : Trigger}
    (hwindow : withinHoldWindow trade minHoldSeconds now = false) (ht : deferredTrigger trade = some t) :
    sltpTrigger trade price minHoldSeconds now = some t := by
  rw [sltpTrigger, hwindow, if_neg Bool.false_ne_true, ht]
  rfl

theorem scanTrade_of_deferred {trade : Trade} {price : ℚ} {t : Trigger} (ht : deferredTrigger trade = some t) :
    scanTrade trade price = some ⟨trade, t, true⟩ := by
  rw [scanTrade, ht]

/-- Both engines' choice after the window. -/
theorem scanTrade_trigger {trade : Trade} {price : ℚ} {minHoldSeconds now : Nat}
    (hwindow : withinHoldWindow trade minHoldSeconds now = false) :
    (scanTrade trade price).map SlTpCandidate.trigger = sltpTrigger trade price minHoldSeconds now := by
  rw [sltpTrigger, hwindow, if_neg Bool.false_ne_true, scanTrade]
  cases deferredTrigger trade with
  | none => cases liveTrigger trade price <;> rfl
  | some t => rfl

/-- A candidate carries what its row has recorded, or a live crossing of a row that has nothing. -/
def SlTpCandidate.Fits (c : SlTpCandidate) (row : Trade) : Prop :=
  c.deferred = true ∧ deferredTrigger row = some c.trigger ∨
    c.deferred = false ∧ row.pendingClosePrice = none ∧ c.trigger.level ≠ none

theorem scanTrade_fits {entry row : Trade} {price : ℚ} {c : SlTpCandidate} (hfollows : Follows entry row)
    (hscan : scanTrade entry price = some c) : c.Fits row := by
  rw [scanTrade, hfollows.deferredTrigger_eq] at hscan
  split at hscan
  · rename_i t ht
    obtain rfl := Option.some.inj hscan
    exact .inl ⟨rfl, ht⟩
  · rename_i hnone
    obtain ⟨t, hlive, rfl⟩ := Option.map_eq_some_iff.mp hscan
    exact .inr ⟨rfl, deferredTrigger_eq_none.mp hnone, liveTrigger_level hlive⟩

/-! ### What closing statements do to the rows -/

theorem priceClosing_outcome {fx : FxSource} {trade : Trade} {closePrice : ℚ} {reason : String}
    {c : Closing} (hprice : priceClosing fx trade closePrice reason = some c) :
    c.trade = trade ∧ c.closePrice = some closePrice ∧ c.reason = reason := by
  obtain ⟨_, _, -, -, rfl⟩ := priceClosing_spec hprice
  exact ⟨rfl, rfl, rfl⟩

theorem closeFromSnapshot_outcome {fx : FxSource} {db : Db} {trade : Trade} {closePrice : ℚ}
    {reason : String} {now : Nat} {clearDeferred : Bool} {stmts : List Stmt}
    (hclose : closeFromSnapshot fx db trade closePrice reason now clearDeferred = some stmts) :
    ∃ row c, db.trade? trade.id = some row ∧ row.status = .opened ∧ c.trade = trade ∧
      c.closePrice = some closePrice ∧ c.reason = reason ∧
        stmts = [.closeTrades [c] now clearDeferred, .creditAccount trade.accountId c.pnl] := by
  obtain ⟨row, c, hrow, hopen, hprice, rfl⟩ := closeFromSnapshot_spec hclose
  obtain ⟨htrade, hclosePrice, hreason⟩ := priceClosing_outcome hprice
  exact ⟨row, c, hrow, hopen, htrade, hclosePrice, hreason, rfl⟩

/-- Each of the closings is of a candidate, at its trigger. -/
theorem closeTriggeredTrades_outcome {fx : FxSource} {db : Db} {lockedRows : List Nat}
    {candidates : List SlTpCandidate} {minHoldSeconds now : Nat} {stmts : List Stmt}
    (hclose : closeTriggeredTrades fx db lockedRows candidates minHoldSeconds now = some stmts) :
    ∃ (closings : List Closing) (totals : List (Nat × Cents)),
      (∀ c ∈ closings, ∃ candidate ∈ ownedCandidates db lockedRows candidates minHoldSeconds now,
        c.trade = candidate.trade ∧ c.closePrice = some candidate.trigger.fillPrice ∧
          c.reason = candidate.trigger.reason) ∧
      stmts = .closeTrades closings now true ::
        totals.map fun total => .creditAccount total.1 total.2 := by
  obtain ⟨closings, hmap, rfl⟩ := closeTriggeredTrades_spec hclose
  refine ⟨closings, _, fun c hc => ?_, rfl⟩
  obtain ⟨candidate, hcandidate, hprice⟩ := List.exists_of_mem_mapM hmap hc
  exact ⟨candidate, hcandidate, priceClosing_outcome hprice⟩

theorem foldl_closings (closings : List Closing) (now : Nat) (totals : List (Nat × Cents)) (row : Trade) :
    (Stmt.closeTrades closings now true :: totals.map fun total => .creditAccount total.1 total.2).foldl
        (fun t stmt => stmt.rowUpdate t) row
      = (closings.find? fun c => c.trade.id = row.id).elim row fun c =>
          (Trade.closedAt c.closePrice c.pnl c.reason now true).apply row := by
  rw [List.foldl_cons, List.foldl_map]
  exact List.foldl_fixed totals

theorem execAll_trade? {stmts : List Stmt} {db db' : Db} (hexec : execAll db stmts = some db')
    {tradeId : Nat} {row : Trade} (hrow : db.trade? tradeId = some row) :
    db'.trade? tradeId = some (stmts.foldl (fun t stmt => stmt.rowUpdate t) row) := by
  induction stmts generalizing db row with
  | nil =>
    obtain rfl := Option.some.inj hexec
    exact hrow
  | cons stmt stmts ih =>
    obtain ⟨mid, hstep, hrest⟩ := Option.bind_eq_some_iff.mp hexec
    exact ih hrest (Stmt.exec_trade? hstep hrow)

namespace EventPass

def candidates : EventPass → List (Nat × SlTpCandidate)
  | idle => []
  | scanned candidates | deferring candidates _ | writing candidates _ _ | closing candidates _ => candidates

def writes : EventPass → List IndexWrite
  | writing _ _ writes => writes
  | idle | scanned _ | deferring _ _ | closing _ _ => []

/-- The pass has still to judge the candidate, or to close it. -/
def Awaits (minHoldSeconds : Nat) (pass : EventPass) (x : Nat × SlTpCandidate) : Prop :=
  x ∈ pass.candidates ∧ match pass with
    | idle | scanned _ | deferring _ _ => True
    | writing _ now _ | closing _ now => withinHoldWindow x.2.trade minHoldSeconds now = false

end EventPass

namespace DeferralWorld

variable {minHoldSeconds : Nat} {w w' : DeferralWorld}

/-- The entry follows its row, or will when the crossing that is in flight has been written to it. -/
def Shows (w : DeferralWorld) (tradeId : Nat) (entry : TradeEntry) (row : Trade) : Prop :=
  Follows entry.row row ∨ ∃ level reason, .record entry.ref tradeId level reason ∈ w.pass.writes ∧
    Follows ((Trade.deferredTo level reason).apply entry.row) row

structure Inv (minHoldSeconds : Nat) (w : DeferralWorld) : Prop where
  keyed : w.index.Keyed
  honoured : w.Honoured
  noted : w.Noted minHoldSeconds
  shown : ∀ tradeId, ∀ row ∈ w.world.db.trade? tradeId, row.status = .opened →
    ∃ entry ∈ w.index.byId tradeId, w.Shows tradeId entry row
  objects : ∀ x ∈ w.pass.candidates, w.index.ObjectOf x.1 x.2.trade.id
  once : (w.pass.candidates.map fun x => x.2.trade.id).Nodup
  indexed : ∀ x ∈ w.pass.candidates, ∀ entry ∈ w.index.byId x.2.trade.id, entry.ref = x.1
  writeObjects : ∀ ref tradeId level reason, .record ref tradeId level reason ∈ w.pass.writes →
    w.index.ObjectOf ref tradeId
  writesHold : ∀ ref tradeId level reason, .record ref tradeId level reason ∈ w.pass.writes →
    ∀ row ∈ w.world.db.trade? tradeId, row.status = .opened →
      row.pendingClosePrice = some level ∧ row.pendingCloseReason = some reason
  noReindex : ∀ row, .reindex row ∉ w.pass.writes
  fits : ∀ x, w.pass.Awaits minHoldSeconds x → ∀ row ∈ w.world.db.trade? x.2.trade.id,
    row.status = .opened → x.2.Fits row
  closedRows : ∀ tradeId ∈ w.closed, ∀ row ∈ w.world.db.trade? tradeId, row.status ≠ .opened

/-- How a row may go on: its recorded crossing stays until it is closed, and is what it is closed with. -/
structure KeepsCrossing (row row' : Trade) : Prop where
  opened : row.status = .opened → ∀ t ∈ deferredTrigger row,
    row'.status = .opened ∧ deferredTrigger row' = some t ∨
      row'.status = .closed ∧ row'.closePrice = some t.fillPrice ∧ row'.closeReason = some t.reason
  closed : row.status = .closed →
    row'.status = .closed ∧ row'.closePrice = row.closePrice ∧ row'.closeReason = row.closeReason

theorem KeepsCrossing.refl (row : Trade) : KeepsCrossing row row :=
  ⟨fun hopen _ ht => .inl ⟨hopen, ht⟩, fun hclosed => ⟨hclosed, rfl, rfl⟩⟩

theorem Honoured.advance (hhonoured : w.Honoured) {db : Db}
    (hkeeps : ∀ tradeId, ∀ row ∈ w.world.db.trade? tradeId, ∃ row' ∈ db.trade? tradeId,
      KeepsCrossing row row') (pass : EventPass) (closed : List Nat) :
    (DeferralWorld.mk (w.world.advance db) w.index pass closed).Honoured := by
  intro seen hseen tradeId before hbefore hopen t ht
  rcases List.mem_cons.mp hseen with rfl | hseen
  · exact ⟨before, hbefore, .inl ⟨hopen, ht⟩⟩
  · obtain ⟨row, hrow, hnow⟩ := hhonoured seen hseen tradeId before hbefore hopen t ht
    obtain ⟨row', hrow', hkeeps⟩ := hkeeps tradeId row hrow
    refine ⟨row', hrow', ?_⟩
    rcases hnow with ⟨hopenNow, hsame⟩ | ⟨hclosed, hprice, hreason⟩
    · exact hkeeps.opened hopenNow t hsame
    · obtain ⟨hclosed', hprice', hreason'⟩ := hkeeps.closed hclosed
      exact .inr ⟨hclosed', hprice'.trans hprice, hreason'.trans hreason⟩

/-- A commit that records nothing on the rows it leaves open. -/
theorem Inv.advance (hinv : w.Inv minHoldSeconds) {db : Db}
    (hkeeps : ∀ tradeId, ∀ row ∈ w.world.db.trade? tradeId, ∃ row' ∈ db.trade? tradeId,
      KeepsCrossing row row')
    (hsame : ∀ tradeId, ∀ row ∈ db.trade? tradeId, row.status = .opened →
      row ∈ w.world.db.trade? tradeId) {closed : List Nat}
    (hclosed : ∀ tradeId ∈ closed, ∀ row ∈ db.trade? tradeId, row.status ≠ .opened) :
    ({ w with world := w.world.advance db, closed := w.closed ++ closed } : DeferralWorld).Inv
      minHoldSeconds := by
  refine ⟨hinv.keyed, hinv.honoured.advance hkeeps w.pass (w.closed ++ closed), ?_,
    fun tradeId row hrow hopen => ?_, hinv.objects,
    hinv.once, hinv.indexed, hinv.writeObjects, fun ref tradeId level reason hmem row hrow hopen => ?_,
    hinv.noReindex, fun x hx row hrow hopen => ?_, fun tradeId hmem row hrow hopen => ?_⟩
  · have hnoted := hinv.noted
    rw [Noted] at hnoted ⊢
    cases hpass : w.pass with
    | idle | scanned | deferring => trivial
    | writing candidates now writes =>
      rw [hpass] at hnoted
      exact fun x hx hwithin row hrow hopen => hnoted x hx hwithin row (hsame _ row hrow hopen) hopen
    | closing candidates now =>
      rw [hpass] at hnoted
      exact fun x hx hwithin row hrow hopen => hnoted x hx hwithin row (hsame _ row hrow hopen) hopen
  · exact hinv.shown tradeId row (hsame _ row hrow hopen) hopen
  · exact hinv.writesHold ref tradeId level reason hmem row (hsame _ row hrow hopen) hopen
  · exact hinv.fits x hx row (hsame _ row hrow hopen) hopen
  · rcases List.mem_append.mp hmem with hold | hnew
    · exact hinv.closedRows tradeId hold row (hsame _ row hrow hopen) hopen
    · exact hclosed tradeId hnew row hrow hopen

theorem Inv.follows (hinv : w.Inv minHoldSeconds) (hwrites : w.pass.writes = []) :
    ∀ tradeId, ∀ row ∈ w.world.db.trade? tradeId, row.status = .opened →
      ∃ entry ∈ w.index.byId tradeId, Follows entry.row row := by
  intro tradeId row hrow hopen
  obtain ⟨entry, hentry, hfollows | ⟨_, _, hmem, _⟩⟩ := hinv.shown tradeId row hrow hopen
  · exact ⟨entry, hentry, hfollows⟩
  · rw [hwrites] at hmem
    exact absurd hmem List.not_mem_nil

/-- The pass goes on with the same writes and no other candidates. -/
theorem Inv.passTo (hinv : w.Inv minHoldSeconds) {pass : EventPass}
    (hcandidates : pass.candidates.Sublist w.pass.candidates) (hwrites : pass.writes = w.pass.writes)
    (hawaits : ∀ x, pass.Awaits minHoldSeconds x → w.pass.Awaits minHoldSeconds x)
    (hnoted : ({ w with pass := pass } : DeferralWorld).Noted minHoldSeconds) :
    ({ w with pass := pass } : DeferralWorld).Inv minHoldSeconds := by
  refine ⟨hinv.keyed, hinv.honoured, hnoted, ?_, fun x hx => hinv.objects x (hcandidates.subset hx),
    hinv.once.sublist (hcandidates.map _), fun x hx => hinv.indexed x (hcandidates.subset hx), ?_, ?_, ?_,
    fun x hx => hinv.fits x (hawaits x hx), hinv.closedRows⟩
  · simp only [Shows, hwrites]
    exact hinv.shown
  · rw [hwrites]
    exact hinv.writeObjects
  · rw [hwrites]
    exact hinv.writesHold
  · rw [hwrites]
    exact hinv.noReindex

theorem Inv.idle (hinv : w.Inv minHoldSeconds) (hwrites : w.pass.writes = []) :
    ({ w with pass := .idle } : DeferralWorld).Inv minHoldSeconds :=
  hinv.passTo (List.nil_sublist _) hwrites.symm (fun _ hx => absurd hx.1 List.not_mem_nil) trivial

theorem closings_opensNothing (closings : List Closing) (now : Nat) (totals : List (Nat × Cents)) :
    ∀ stmt ∈ Stmt.closeTrades closings now true ::
      totals.map fun total => .creditAccount total.1 total.2, stmt.OpensNothing := by
  intro stmt hstmt
  rcases List.mem_cons.mp hstmt with rfl | hcredit
  · exact ⟨fun _ _ _ => Stmt.noConfusion, fun _ ht => absurd ht List.not_mem_nil⟩
  · obtain ⟨total, _, rfl⟩ := List.mem_map.mp hcredit
    exact Stmt.creditAccount_opensNothing total.1 total.2

/-- Closings of open rows, each at the crossing its row has recorded if there is one. -/
theorem Inv.close (hinv : w.Inv minHoldSeconds) {closings : List Closing} {now : Nat}
    (totals : List (Nat × Cents))
    (hclosings : ∀ c ∈ closings, ∀ row ∈ w.world.db.trade? c.trade.id, row.status = .opened ∧
      ∀ t ∈ deferredTrigger row, c.closePrice = some t.fillPrice ∧ c.reason = t.reason)
    (hcommit : w.commit (.closeTrades closings now true ::
      totals.map fun total => .creditAccount total.1 total.2) w.pass = some w') :
    w'.Inv minHoldSeconds := by
  obtain ⟨db, hexec, rfl⟩ := Option.map_eq_some_iff.mp hcommit
  have hopened : ∀ tradeId, ∀ row' ∈ db.trade? tradeId, row'.status = .opened →
      row' ∈ w.world.db.trade? tradeId ∧ ∀ c ∈ closings, c.trade.id ≠ tradeId := by
    intro tradeId row' hrow' hopen'
    obtain ⟨row, hrow, hopen, rfl⟩ :=
      execAll_opened (closings_opensNothing closings now totals) hexec hrow' hopen'
    have hrowId := Db.trade?_id hrow
    rw [foldl_closings] at hopen' ⊢
    cases hfind : closings.find? fun c => c.trade.id = row.id with
    | none =>
      refine ⟨hrow, fun c hc hid => ?_⟩
      have hother := List.find?_eq_none.mp hfind c hc
      rw [decide_eq_true_eq, hrowId] at hother
      exact hother hid
    | some c =>
      rw [hfind] at hopen'
      cases hopen'
  refine hinv.advance (fun tradeId row hrow => ?_) (fun tradeId row hrow hopen =>
    (hopened tradeId row hrow hopen).1) fun tradeId hmem row hrow hopen => ?_
  · refine ⟨_, execAll_trade? hexec hrow, ?_⟩
    rw [foldl_closings]
    cases hfind : closings.find? fun c => c.trade.id = row.id with
    | none => exact .refl row
    | some c =>
      have hid : c.trade.id = row.id := by simpa using List.find?_some hfind
      obtain ⟨hopen, hrecorded⟩ := hclosings c (List.mem_of_find?_eq_some hfind) row (by
        rw [hid, Db.trade?_id hrow]
        exact hrow)
      refine ⟨fun _ t ht => .inr ?_, fun hclosed => ?_⟩
      · obtain ⟨hprice, hreason⟩ := hrecorded t ht
        exact ⟨rfl, hprice, congrArg some hreason⟩
      · rw [hopen] at hclosed
        cases hclosed
  · have hcredits : (totals.map fun total => Stmt.creditAccount total.1 total.2).flatMap Stmt.closedIds
        = [] := by
      rw [List.flatMap_map]
      exact List.flatMap_eq_nil_iff.mpr fun _ _ => rfl
    rw [List.flatMap_cons, hcredits, List.append_nil] at hmem
    obtain ⟨c, hc, rfl⟩ := List.mem_map.mp hmem
    exact (hopened _ row hrow hopen).2 c hc rfl

/-- Inside the window `checkSLTP` records, after it the pass closes at the trigger. -/
theorem checkSLTP_cases {fx : FxSource} {seen db : Db} {tradeId : Nat} {price : Quote}
    {minHoldSeconds now : Nat} {stmts : List Stmt}
    (hcheck : checkSLTP fx seen db tradeId price minHoldSeconds now = some stmts) :
    ∃ before, seen.trade? tradeId = some before ∧
      ((withinHoldWindow before minHoldSeconds now = true ∧
          ∃ level reason, stmts = [.deferTrade tradeId level reason]) ∨
        (withinHoldWindow before minHoldSeconds now = false ∧ ∃ t,
          sltpTrigger before (price.closeSide before.direction) minHoldSeconds now = some t ∧
            closeFromSnapshot fx db before t.fillPrice t.reason now true = some stmts)) := by
  obtain ⟨before, t, hseen, ht, ⟨hwindow, level, rfl⟩ | ⟨hwindow, hclose⟩⟩ := checkSLTP_spec hcheck
  · have hbefore := (seenOpenTrade_eq_some.mp hseen).1
    exact ⟨before, hbefore, .inl ⟨hwindow, level, t.reason, by rw [Db.trade?_id hbefore]⟩⟩
  · exact ⟨before, (seenOpenTrade_eq_some.mp hseen).1, .inr ⟨hwindow, t, ht, hclose⟩⟩

theorem Inv.checkSLTP (hinv : w.Inv minHoldSeconds) {fx : FxSource} {seen : Db} {tradeId : Nat}
    {price : Quote} {stmts : List Stmt}
    (hcheck : PropFirm.checkSLTP fx seen w.world.db tradeId price minHoldSeconds w.world.clock = some stmts)
    (hok : ∀ before ∈ seen.trade? tradeId, ∀ row ∈ w.world.db.trade? tradeId, row.status = .opened →
      deferredTrigger before = deferredTrigger row ∧
        (withinHoldWindow before minHoldSeconds w.world.clock = true → row.pendingClosePrice ≠ none))
    (hcommit : w.commit stmts w.pass = some w') : w'.Inv minHoldSeconds := by
  obtain ⟨before, hbefore, ⟨hwindow, level, reason, rfl⟩ | ⟨hwindow, t, ht, hclose⟩⟩ :=
    checkSLTP_cases hcheck
  · -- the row has a crossing, or is not open
    have hrow : ∀ id, ∀ row ∈ w.world.db.trade? id, (Stmt.deferTrade tradeId level reason).rowUpdate row
        = row := by
      intro id row hrow
      refine if_neg fun h => ?_
      obtain ⟨hid, hopen, hnone⟩ := h
      rw [← Db.trade?_id hrow, hid] at hrow
      exact (hok before hbefore row hrow hopen).2 hwindow hnone
    obtain ⟨db, hexec, rfl⟩ := Option.map_eq_some_iff.mp hcommit
    refine hinv.advance (fun id row hmem => ⟨_, execAll_trade? hexec hmem, ?_⟩)
      (fun id row' hrow' hopen' => ?_) fun _ hmem => absurd hmem List.not_mem_nil
    · rw [List.foldl_cons, List.foldl_nil, hrow id row hmem]
      exact .refl row
    · obtain ⟨row, hmem, _, rfl⟩ := execAll_opened
        (List.forall_mem_singleton.mpr (Stmt.deferTrade_opensNothing tradeId level reason)) hexec hrow'
        hopen'
      rw [List.foldl_cons, List.foldl_nil, hrow id row hmem]
      exact hmem
  · have hid := Db.trade?_id hbefore
    obtain ⟨row, c, hrow, hopen, htrade, hprice, hreason, rfl⟩ := closeFromSnapshot_outcome hclose
    refine hinv.close [(before.accountId, c.pnl)]
      (List.forall_mem_singleton.mpr fun row' hrow' => ?_) hcommit
    rw [htrade, hid] at hrow'
    rw [hid] at hrow
    obtain rfl := Option.some.inj (hrow.symm.trans hrow')
    refine ⟨hopen, fun t' ht' => ?_⟩
    rw [← (hok before hbefore row hrow hopen).1] at ht'
    obtain rfl := Option.some.inj ((sltpTrigger_of_deferred hwindow ht').symm.trans ht)
    exact ⟨hprice, hreason⟩

theorem withinHoldWindow_of_deferredLevel {now : Nat} {c : SlTpCandidate} {level : ℚ}
    (hlevel : MirrorWorld.deferredLevel minHoldSeconds now c = some level) :
    withinHoldWindow c.trade minHoldSeconds now = true := by
  rw [MirrorWorld.deferredLevel] at hlevel
  split at hlevel
  · rename_i hdefers
    exact hdefers.1
  · cases hlevel

/-- A row takes the crossing of its candidate if it is open and has none. -/
theorem recorded_row (minHoldSeconds now : Nat) {candidates : List (Nat × SlTpCandidate)} {row : Trade}
    (hfits : ∀ x ∈ candidates, x.2.trade.id = row.id → row.status = .opened → x.2.Fits row) :
    let row' := (recordDeferredTriggers (candidates.map Prod.snd) minHoldSeconds now).foldl
      (fun t stmt => stmt.rowUpdate t) row
    (row' = row ∧ ∀ x ∈ candidates, x.2.trade.id = row.id → row.status = .opened →
        withinHoldWindow x.2.trade minHoldSeconds now = true → row.pendingClosePrice ≠ none) ∨
      (row.status = .opened ∧ row.pendingClosePrice = none ∧ ∃ x ∈ candidates, x.2.trade.id = row.id ∧
        ∃ level ∈ MirrorWorld.deferredLevel minHoldSeconds now x.2,
          row' = (Trade.deferredTo level x.2.trigger.reason).apply row) := by
  by_cases hrecordable : row.status = .opened ∧ row.pendingClosePrice = none
  · obtain ⟨hopen, hnone⟩ := hrecordable
    rcases MirrorWorld.foldl_deferrals (candidates.map Prod.snd) hopen hnone with
      ⟨hsame, hothers⟩ | ⟨c, hc, hid, level, hlevel, hrecorded⟩
    · refine .inl ⟨hsame, fun x hx hid _ hwithin => ?_⟩
      rcases hfits x hx hid hopen with ⟨_, ht⟩ | ⟨hlive, _, hlevel⟩
      · rw [deferredTrigger_eq_none.mpr hnone] at ht
        cases ht
      · have hnothing := hothers x.2 (List.mem_map_of_mem hx) hid
        rw [MirrorWorld.deferredLevel, if_pos ⟨hwithin, by simp [hlive]⟩] at hnothing
        exact absurd hnothing hlevel
    · obtain ⟨x, hx, rfl⟩ := List.mem_map.mp hc
      exact .inr ⟨hopen, hnone, x, hx, hid, level, hlevel, hrecorded⟩
  · have hrecorded : row.status = .opened → row.pendingClosePrice ≠ none := fun hopen hnone =>
      hrecordable ⟨hopen, hnone⟩
    exact .inl ⟨MirrorWorld.foldl_deferrals_of_recorded hrecorded, fun _ _ _ hopen _ => hrecorded hopen⟩

/-- `recordDeferredTriggers` commits. -/
theorem Inv.record (hinv : w.Inv minHoldSeconds) {candidates : List (Nat × SlTpCandidate)} {now : Nat}
    (hpass : w.pass = .deferring candidates now)
    (hcommit : w.commit (recordDeferredTriggers (candidates.map Prod.snd) minHoldSeconds now)
      (.writing candidates now (MirrorWorld.recordWrites w.world.db minHoldSeconds now candidates))
        = some w') : w'.Inv minHoldSeconds := by
  have hobjects := hinv.objects
  have honce := hinv.once
  have hindexed := hinv.indexed
  have hfits : ∀ x ∈ candidates, ∀ row ∈ w.world.db.trade? x.2.trade.id, row.status = .opened →
      x.2.Fits row := fun x hx => hinv.fits x (by
    rw [hpass]
    exact ⟨hx, trivial⟩)
  have hfollows := hinv.follows (by rw [hpass]; rfl)
  rw [hpass] at hobjects honce hindexed
  obtain ⟨db, hexec, rfl⟩ := Option.map_eq_some_iff.mp hcommit
  have hrecorded : ∀ id, ∀ row ∈ w.world.db.trade? id, _ := fun id row hrow =>
    recorded_row minHoldSeconds now fun x hx hid hopen =>
      hfits x hx row (by rw [hid, Db.trade?_id hrow]; exact hrow) hopen
  have hrows : ∀ id, ∀ row' ∈ db.trade? id, row'.status = .opened →
      ∃ row ∈ w.world.db.trade? id, row.status = .opened ∧ row' =
        (recordDeferredTriggers (candidates.map Prod.snd) minHoldSeconds now).foldl
          (fun t stmt => stmt.rowUpdate t) row := fun id row' hrow' hopen' =>
    execAll_opened (MirrorWorld.recordDeferredTriggers_opensNothing _ _ _) hexec hrow' hopen'
  refine ⟨hinv.keyed, hinv.honoured.advance (fun id row hrow => ⟨_, execAll_trade? hexec hrow, ?_⟩) _ _,
    fun x hx hwithin row' hrow' hopen' => ?_, fun id row' hrow' hopen' => ?_, hobjects, honce, hindexed,
    fun ref id level reason hmem => ?_, fun ref id level reason hmem row' hrow' hopen' => ?_,
    fun row hmem => ?_, fun x hx row' hrow' hopen' => ?_, fun id hmem row' hrow' hopen' => ?_⟩
  · rcases hrecorded id row hrow with ⟨hsame, _⟩ | ⟨hopen, hnone, _⟩
    · rw [hsame]
      exact .refl row
    · refine ⟨fun _ t ht => ?_, fun hclosed => ?_⟩
      · rw [deferredTrigger_eq_none.mpr hnone] at ht
        cases ht
      · rw [hopen] at hclosed
        cases hclosed
  · obtain ⟨row, hrow, hopen, rfl⟩ := hrows _ row' hrow' hopen'
    rcases hrecorded _ row hrow with ⟨hsame, hnoted⟩ | ⟨_, _, x, _, _, level, _, htaken⟩
    · rw [hsame]
      exact hnoted x hx (Db.trade?_id hrow).symm hopen hwithin
    · rw [htaken]
      exact Option.some_ne_none level
  · obtain ⟨row, hrow, hopen, rfl⟩ := hrows _ row' hrow' hopen'
    obtain ⟨entry, hentry, hfollows⟩ := hfollows id row hrow hopen
    refine ⟨entry, hentry, ?_⟩
    rcases hrecorded id row hrow with ⟨hsame, _⟩ | ⟨_, hnone, x, hx, hid, level, hlevel, htaken⟩
    · rw [hsame]
      exact .inl hfollows
    · rw [htaken]
      have hrowId := hid.trans (Db.trade?_id hrow)
      refine .inr ⟨level, x.2.trigger.reason, ?_, hfollows.mirrors.deferredTo level _, hfollows.direction⟩
      rw [hindexed x hx entry (hrowId ▸ hentry)]
      refine MirrorWorld.mem_recordWrites.mpr ⟨x.2, hx, hrowId, rfl, ?_, hlevel⟩
      simp [MirrorWorld.Recordable, Option.mem_def.mp hrow, hopen, hnone]
  · obtain ⟨c, hc, rfl, _⟩ := MirrorWorld.mem_recordWrites.mp hmem
    exact hobjects (ref, c) hc
  · exact MirrorWorld.recordWrites_hold honce hexec hmem hrow' hopen'
  · obtain ⟨x, _, hwrite⟩ := List.mem_filterMap.mp hmem
    dsimp only at hwrite
    split at hwrite
    · obtain ⟨_, _, hwrite⟩ := Option.map_eq_some_iff.mp hwrite
      cases hwrite
    · cases hwrite
  · obtain ⟨row, hrow, hopen, rfl⟩ := hrows _ row' hrow' hopen'
    rcases hrecorded _ row hrow with ⟨hsame, _⟩ | ⟨_, _, y, hy, hid, level, hlevel, _⟩
    · rw [hsame]
      exact hfits x hx.1 row hrow hopen
    · -- no two candidates are of one trade
      obtain rfl : y = x := List.inj_on_of_nodup_map honce hy hx.1 (hid.trans (Db.trade?_id hrow))
      have houtside : withinHoldWindow y.2.trade minHoldSeconds now = false := hx.2
      rw [withinHoldWindow_of_deferredLevel hlevel] at houtside
      cases houtside
  · have hnothing : (recordDeferredTriggers (candidates.map Prod.snd) minHoldSeconds now).flatMap
        Stmt.closedIds = [] := by
      rw [MirrorWorld.recordDeferredTriggers_eq]
      refine List.flatMap_eq_nil_iff.mpr fun stmt hstmt => ?_
      obtain ⟨c, _, hstmt⟩ := List.mem_filterMap.mp hstmt
      obtain ⟨level, _, rfl⟩ := Option.map_eq_some_iff.mp hstmt
      rfl
    rw [hnothing, List.append_nil] at hmem
    obtain ⟨row, hrow, hopen, rfl⟩ := hrows _ row' hrow' hopen'
    exact hinv.closedRows id hmem row hrow hopen

theorem Follows.record {entry row : Trade} (hfollows : Follows entry row) {level : ℚ} {reason : String}
    (hprice : row.pendingClosePrice = some level) (hreason : row.pendingCloseReason = some reason) :
    Follows ((Trade.deferredTo level reason).apply entry) row :=
  ⟨hfollows.mirrors.record hprice hreason, hfollows.direction⟩

/-- A crossing is written to its object. -/
theorem Inv.writeEntry (hinv : w.Inv minHoldSeconds) {candidates : List (Nat × SlTpCandidate)}
    {now : Nat} {write : IndexWrite} {writes : List IndexWrite}
    (hpass : w.pass = .writing candidates now (write :: writes)) :
    ({ w with
        index := write.applyTo w.index none
        pass := .writing candidates now writes } : DeferralWorld).Inv minHoldSeconds := by
  obtain ⟨hkeyed, hhonoured, hnoted, hshown, hobjects, honce, hindexed, hwriteObjects, hwritesHold,
    hnoReindex, hfits, hclosedRows⟩ := hinv
  rw [Noted, hpass] at hnoted
  rw [hpass] at hobjects honce hindexed hwriteObjects hwritesHold hnoReindex hfits
  cases write with
  | reindex row => exact absurd List.mem_cons_self (hnoReindex row)
  | record ref tradeId level reason =>
    have hrecord := hwriteObjects ref tradeId level reason List.mem_cons_self
    refine ⟨hkeyed.writeEntry fun _ => rfl, hhonoured, hnoted, fun id row hrow hopen => ?_,
      fun x hx => (hobjects x hx).writeEntry fun _ => rfl, honce, fun x hx entry hentry => ?_,
      fun ref' id level' reason' hmem => ?_, fun ref' id level' reason' hmem => ?_,
      fun row hmem => hnoReindex row (List.mem_cons_of_mem _ hmem), hfits, hclosedRows⟩
    · obtain ⟨entry, hentry, hshows⟩ := hshown id row hrow hopen
      refine ⟨_, TradeIndex.writeEntry_byId.mpr ⟨entry, hentry, rfl⟩, ?_⟩
      rw [Shows, hpass] at hshows
      rw [Shows, TradeEntry.write]
      split
      · rename_i href
        obtain rfl := hrecord.unique hkeyed hentry href
        obtain ⟨hprice, hreason⟩ := hwritesHold ref tradeId level reason List.mem_cons_self row hrow hopen
        rcases hshows with hfollows | ⟨_, _, _, hfollows⟩
        · exact .inl (Follows.record hfollows hprice hreason)
        · exact .inl (Follows.record hfollows hprice hreason)
      · rename_i href
        refine hshows.imp_right ?_
        rintro ⟨level', reason', hmem, hfollows⟩
        refine ⟨level', reason', (List.mem_cons.mp hmem).resolve_left fun h => href ?_, hfollows⟩
        injection h
    · obtain ⟨before, hbefore, rfl⟩ := TradeIndex.writeEntry_byId.mp hentry
      rw [TradeEntry.write]
      split <;> exact hindexed x hx before hbefore
    · exact (hwriteObjects ref' id level' reason' (List.mem_cons_of_mem _ hmem)).writeEntry fun _ => rfl
    · exact hwritesHold ref' id level' reason' (List.mem_cons_of_mem _ hmem)

/-- `closeTriggeredTrades` commits: what it closes without a crossing recorded has none. -/
theorem Inv.closeTriggered (hinv : w.Inv minHoldSeconds) {candidates : List (Nat × SlTpCandidate)}
    {now : Nat} (hpass : w.pass = .closing candidates now) {fx : FxSource} {lockedRows : List Nat}
    {stmts : List Stmt}
    (hclose : closeTriggeredTrades fx w.world.db lockedRows ((candidates.map Prod.snd).filter fun c =>
      !withinHoldWindow c.trade minHoldSeconds now) minHoldSeconds w.world.clock = some stmts)
    (hcommit : w.commit stmts w.pass = some w') : w'.Inv minHoldSeconds := by
  obtain ⟨closings, totals, houtcome, rfl⟩ := closeTriggeredTrades_outcome hclose
  refine hinv.close _ (fun c hc row hrow => ?_) hcommit
  obtain ⟨candidate, hcandidate, htrade, hprice, hreason⟩ := houtcome c hc
  obtain ⟨heligible, _, row', hrow', hopen⟩ := mem_ownedCandidates hcandidate
  rw [htrade] at hrow
  obtain rfl := Option.some.inj (hrow'.symm.trans hrow)
  obtain ⟨hcandidate, houtside⟩ := List.mem_filter.mp heligible
  obtain ⟨x, hx, rfl⟩ := List.mem_map.mp hcandidate
  have hawaits : w.pass.Awaits minHoldSeconds x := by
    rw [hpass]
    exact ⟨hx, by simpa using houtside⟩
  refine ⟨hopen, fun t ht => ?_⟩
  rcases hinv.fits x hawaits row' hrow hopen with ⟨_, hrecorded⟩ | ⟨_, hnone, _⟩
  · obtain rfl := Option.some.inj (hrecorded.symm.trans ht)
    exact ⟨hprice, hreason⟩
  · rw [deferredTrigger_eq_none.mpr hnone] at ht
    cases ht

theorem Inv.scan (hinv : w.Inv minHoldSeconds) (hpass : w.pass = .idle) {prices : List (Nat × ℚ)}
    (honce : (prices.map Prod.fst).Nodup) :
    ({ w with pass := .scanned (MirrorWorld.scanEntries w.index prices) } : DeferralWorld).Inv
      minHoldSeconds := by
  have hkeyed := hinv.keyed
  have hfollows := hinv.follows (by rw [hpass]; rfl)
  refine ⟨hkeyed, hinv.honoured, trivial, fun id row hrow hopen => ?_,
    fun x hx => MirrorWorld.scanEntries_objects hkeyed hx, MirrorWorld.scanEntries_once hkeyed honce,
    fun x hx entry hentry => ?_, fun _ _ _ _ hmem => absurd hmem List.not_mem_nil,
    fun _ _ _ _ hmem => absurd hmem List.not_mem_nil, fun _ => List.not_mem_nil,
    fun x hx row hrow hopen => ?_, hinv.closedRows⟩
  · obtain ⟨entry, hentry, hfollows⟩ := hfollows id row hrow hopen
    exact ⟨entry, hentry, .inl hfollows⟩
  · obtain ⟨entry', hentry', href, _⟩ := MirrorWorld.mem_scanEntries hkeyed hx
    obtain rfl := Option.some.inj (hentry'.symm.trans hentry)
    exact href
  · obtain ⟨entry, hentry, _, _, closePrice, hscan⟩ := MirrorWorld.mem_scanEntries hkeyed hx.1
    obtain ⟨entry', hentry', hfollows⟩ := hfollows _ row hrow hopen
    obtain rfl := Option.some.inj (Option.mem_def.mp hentry ▸ hentry')
    exact scanTrade_fits hfollows hscan

end DeferralWorld

namespace TradeIndex

variable {s : TradeIndex}

theorem removeTrade_entries (s : TradeIndex) (tradeId : Nat) :
    (s.removeTrade tradeId).byId = Function.update s.byId tradeId none ∧
      (s.removeTrade tradeId).made = s.made := by
  rw [removeTrade]
  split
  · rename_i hnone
    exact ⟨(Function.update_eq_self_iff.mpr hnone.symm).symm, rfl⟩
  · dsimp only
    split <;> exact ⟨rfl, rfl⟩

theorem mem_removeTrade {tradeId id : Nat} {entry : TradeEntry} :
    (s.removeTrade tradeId).byId id = some entry ↔ id ≠ tradeId ∧ s.byId id = some entry := by
  rw [(s.removeTrade_entries tradeId).1, Function.update_apply]
  split <;> simp_all

theorem Keyed.removeTrade (hkeyed : s.Keyed) (tradeId : Nat) : (s.removeTrade tradeId).Keyed := by
  intro id entry hentry
  rw [(s.removeTrade_entries tradeId).2]
  exact hkeyed id entry (mem_removeTrade.mp hentry).2

theorem ObjectOf.removeTrade {ref id : Nat} (hobject : s.ObjectOf ref id) (tradeId : Nat) :
    (s.removeTrade tradeId).ObjectOf ref id := by
  rw [ObjectOf, (s.removeTrade_entries tradeId).2]
  exact hobject

end TradeIndex

namespace DeferralWorld

variable {minHoldSeconds : Nat} {w w' : DeferralWorld}

theorem Inv.removeTrade (hinv : w.Inv minHoldSeconds) {tradeId : Nat} {closed : List Nat}
    (hclosed : w.closed = tradeId :: closed) :
    ({ w with index := w.index.removeTrade tradeId, closed := closed } : DeferralWorld).Inv
      minHoldSeconds := by
  have hgone := hinv.closedRows
  rw [hclosed] at hgone
  refine ⟨hinv.keyed.removeTrade tradeId, hinv.honoured, hinv.noted, fun id row hrow hopen => ?_,
    fun x hx => (hinv.objects x hx).removeTrade tradeId, hinv.once, fun x hx entry hentry => ?_,
    fun ref id level reason hmem => ?_, hinv.writesHold, hinv.noReindex, hinv.fits,
    fun id hmem => hgone id (List.mem_cons_of_mem _ hmem)⟩
  · obtain ⟨entry, hentry, hshows⟩ := hinv.shown id row hrow hopen
    refine ⟨entry, TradeIndex.mem_removeTrade.mpr ⟨?_, hentry⟩, hshows⟩
    rintro rfl
    exact hgone id List.mem_cons_self row hrow hopen
  · exact hinv.indexed x hx entry (TradeIndex.mem_removeTrade.mp hentry).2
  · exact (hinv.writeObjects ref id level reason hmem).removeTrade tradeId

theorem Inv.step (hinv : w.Inv minHoldSeconds) {a : DeferralAction}
    (hok : w.KeepsTriggers minHoldSeconds a) (hstep : w.step minHoldSeconds a = some w') :
    w'.Inv minHoldSeconds := by
  cases a with
  | tick seconds =>
    obtain rfl := Option.some.inj hstep
    exact ⟨hinv.keyed, hinv.honoured, hinv.noted, hinv.shown, hinv.objects, hinv.once, hinv.indexed,
      hinv.writeObjects, hinv.writesHold, hinv.noReindex, hinv.fits, hinv.closedRows⟩
  | checkSLTP fx asOf tradeId price =>
    obtain ⟨stmts, hplan, hcommit⟩ := Option.bind_eq_some_iff.mp hstep
    simp only [World.plan, Option.bind_eq_bind, Option.bind_eq_some_iff] at hplan
    obtain ⟨seen, hseen, _, _, hplan⟩ := hplan
    exact hinv.checkSLTP (World.whenFree_eq_some.mp hplan).2 (hok seen hseen) hcommit
  | scan prices =>
    cases hpass : w.pass with
    | idle =>
      simp only [DeferralWorld.step, hpass, Option.ite_none_right_eq_some, Option.some.injEq] at hstep
      obtain ⟨honce, rfl⟩ := hstep
      exact hinv.scan hpass honce
    | _ => simp [DeferralWorld.step, hpass] at hstep
  | evaluate =>
    cases hpass : w.pass with
    | scanned candidates =>
      simp only [DeferralWorld.step, hpass, Option.some.injEq] at hstep
      obtain rfl := hstep
      refine hinv.passTo (by rw [hpass]; exact .refl _) (by rw [hpass]; rfl) (fun x hx => ?_) trivial
      rw [hpass]
      exact hx
    | _ => simp [DeferralWorld.step, hpass] at hstep
  | recordDeferredTriggers =>
    cases hpass : w.pass with
    | deferring candidates now =>
      simp only [DeferralWorld.step, hpass, Option.ite_none_right_eq_some] at hstep
      exact hinv.record hpass hstep.2
    | _ => simp [DeferralWorld.step, hpass] at hstep
  | writeEntry =>
    cases hpass : w.pass with
    | writing candidates now writes =>
      cases writes with
      | nil =>
        simp only [DeferralWorld.step, hpass, Option.some.injEq] at hstep
        obtain rfl := hstep
        have hnoted := hinv.noted
        rw [Noted, hpass] at hnoted
        refine hinv.passTo (by rw [hpass]; exact .refl _) (by rw [hpass]; rfl) (fun x hx => ?_) hnoted
        rw [hpass]
        exact hx
      | cons write writes =>
        simp only [DeferralWorld.step, hpass, Option.some.injEq] at hstep
        obtain rfl := hstep
        exact hinv.writeEntry hpass
    | _ => simp [DeferralWorld.step, hpass] at hstep
  | closeTriggeredTrades fx busy =>
    cases hpass : w.pass with
    | closing candidates now =>
      simp only [DeferralWorld.step, hpass, Option.bind_eq_bind, Option.bind_eq_some_iff,
        Option.guard_eq_some', exists_const] at hstep
      obtain ⟨stmts, hclose, _, hcommit⟩ := hstep
      obtain ⟨db, hexec, rfl⟩ := Option.map_eq_some_iff.mp hcommit
      have hcommit : w.commit stmts w.pass = some _ := Option.map_eq_some_iff.mpr ⟨db, hexec, rfl⟩
      exact (hinv.closeTriggered hpass hclose hcommit).idle (by dsimp only; rw [hpass]; rfl)
    | _ => simp [DeferralWorld.step, hpass] at hstep
  | endPass =>
    cases hpass : w.pass with
    | closing candidates now =>
      simp only [DeferralWorld.step, hpass, Option.some.injEq] at hstep
      obtain rfl := hstep
      exact hinv.idle (by rw [hpass]; rfl)
    | _ => simp [DeferralWorld.step, hpass] at hstep
  | removeTrade =>
    cases hclosed : w.closed with
    | nil => simp [DeferralWorld.step, hclosed] at hstep
    | cons tradeId closed =>
      simp only [DeferralWorld.step, hclosed, Option.some.injEq] at hstep
      obtain rfl := hstep
      exact hinv.removeTrade hclosed

theorem Inv.fires (hinv : w.Inv minHoldSeconds) : w.Fires minHoldSeconds := by
  intro tradeId row hrow hopen hwindow t ht
  constructor
  · intro acc hacc hactive fx price
    have hseen : seenOpenTrade w.world.db tradeId = some row := seenOpenTrade_eq_some.mpr ⟨hrow, hopen⟩
    have hguard : (guard (acc.status = .active) : Option Unit) = some () := if_pos hactive
    rw [PropFirm.checkSLTP, hseen]
    simp only [Option.bind_eq_bind, Option.bind_some, Option.mem_def.mp hacc, hguard,
      sltpTrigger_of_deferred hwindow ht, hwindow, Bool.false_eq_true, if_false]
  · intro hpass
    obtain ⟨entry, hentry, hfollows⟩ := hinv.follows (by rw [hpass]; rfl) tradeId row hrow hopen
    refine ⟨entry, hentry, (hfollows.withinHoldWindow_eq _ _).trans hwindow, fun closePrice => ?_⟩
    exact scanTrade_of_deferred (hfollows.deferredTrigger_eq.trans ht)

theorem Inv.pickAlike (hinv : w.Inv minHoldSeconds) : w.PickAlike minHoldSeconds := by
  intro tradeId row hrow hopen
  obtain ⟨entry, hentry, hshows⟩ := hinv.shown tradeId row hrow hopen
  refine ⟨entry, hentry, fun price => ⟨?_, fun stopLoss hstop => liveTrigger_stopLoss hstop,
    fun hpass hwindow => ?_⟩⟩
  · -- a crossing that is in flight changes no level
    rcases hshows with hfollows | ⟨_, _, _, hfollows⟩
    · exact hfollows.liveTrigger_eq price
    · exact hfollows.liveTrigger_eq price
  · rcases hshows with hfollows | ⟨_, _, hmem, _⟩
    · rw [scanTrade_trigger ((hfollows.withinHoldWindow_eq _ _).trans hwindow), sltpTrigger, sltpTrigger,
        hfollows.withinHoldWindow_eq, hfollows.deferredTrigger_eq, hfollows.liveTrigger_eq]
    · rw [hpass] at hmem
      exact absurd hmem List.not_mem_nil

/-- No pass under way, and every open position with an entry that follows its row. -/
structure Synced (w : DeferralWorld) : Prop where
  keyed : w.index.Keyed
  history : w.world.history = [w.world.db]
  pass : w.pass = .idle
  closed : w.closed = []
  follows : ∀ tradeId, ∀ row ∈ w.world.db.trade? tradeId, row.status = .opened →
    ∃ entry ∈ w.index.byId tradeId, Follows entry.row row

theorem Synced.inv (hsynced : w.Synced) : w.Inv minHoldSeconds := by
  obtain ⟨hkeyed, hhistory, hpass, hclosed, hfollows⟩ := hsynced
  refine ⟨hkeyed, ?_, ?_, fun tradeId row hrow hopen => ?_, ?_, ?_, ?_, ?_, ?_, ?_, ?_,
    fun _ hmem => absurd (hclosed ▸ hmem) List.not_mem_nil⟩
  · intro db hdb tradeId before hbefore hopen t ht
    rw [hhistory] at hdb
    obtain rfl := List.mem_singleton.mp hdb
    exact ⟨before, hbefore, .inl ⟨hopen, ht⟩⟩
  · rw [Noted, hpass]
    trivial
  · obtain ⟨entry, hentry, hfollows⟩ := hfollows tradeId row hrow hopen
    exact ⟨entry, hentry, .inl hfollows⟩
  all_goals rw [hpass]
  · exact fun _ hx => absurd hx List.not_mem_nil
  · exact List.nodup_nil
  · exact fun _ hx => absurd hx List.not_mem_nil
  · exact fun _ _ _ _ hx => absurd hx List.not_mem_nil
  · exact fun _ _ _ _ hx => absurd hx List.not_mem_nil
  · exact fun _ => List.not_mem_nil
  · exact fun _ hx => absurd hx.1 List.not_mem_nil

theorem reached_guaranteed (minHoldSeconds : Nat) {w : DeferralWorld}
    (hreach : Reach (step minHoldSeconds) (KeepsTriggers minHoldSeconds) Synced w) :
    w.Guaranteed minHoldSeconds := by
  have hinv : w.Inv minHoldSeconds := hreach.invariant (fun _ hstart => hstart.inv)
    fun _ _ _ hinv hok hstep => hinv.step hok hstep
  exact ⟨hinv.honoured, hinv.noted, hinv.fires, hinv.pickAlike⟩

instance (w : DeferralWorld) : ∀ a, Decidable (w.KeepsTriggers minHoldSeconds a)
  | .checkSLTP _ _ _ _ => inferInstanceAs (Decidable (∀ seen ∈ _, ∀ before ∈ _, ∀ row ∈ _, _ → _ ∧ _))
  | .tick _ | .scan _ | .evaluate | .recordDeferredTriggers | .writeEntry | .closeTriggeredTrades _ _
  | .endPass | .removeTrade => .isTrue trivial

/-- A position with a stop loss at 1.09 and a take profit at 1.12. -/
def bracketedLong : Trade :=
  { TradeIndex.longOne with stopLoss := some (109 / 100), takeProfit := some (112 / 100) }

def bracketedLongIndexed : DeferralWorld where
  world :=
    let db : Db :=
      { Db.initial .empty with
        accounts := .single (sampleTerms.provision 1)
        trades := .single bracketedLong }
    { World.initial .empty with db := db, history := [db] }
  index := TradeIndex.empty.addOpenTradeToIndex bracketedLong none
  pass := .idle
  closed := []

theorem bracketedLongIndexed_synced : bracketedLongIndexed.Synced := by
  refine ⟨?_, rfl, rfl, rfl, fun tradeId row hrow _ => ?_⟩
  · have hempty : TradeIndex.empty.Keyed := fun _ entry hentry => by cases hentry
    exact hempty.addOpenTradeToIndex bracketedLong none
  · obtain ⟨hmem, hid⟩ := Db.trade?_eq_some.mp hrow
    obtain rfl := List.mem_singleton.mp hmem
    subst hid
    exact ⟨⟨0, bracketedLong⟩, rfl, ⟨⟨rfl, rfl, rfl, rfl, rfl, rfl, rfl⟩, rfl⟩⟩

def closedAtFirstCrossing (w : DeferralWorld) : Bool :=
  (w.world.db.trade? 7).any fun row =>
    row.status = .closed ∧ row.closePrice = some (109 / 100) ∧ row.closeReason = some "Stop Loss"

/-- The event engine sees the stop crossed at second 10, the interval engine the target at second 20, and
the event engine closes the position at second 70 when the price is where it was opened. -/
def stoppedThenRecovered : List DeferralAction :=
  [.tick 10, .scan [(7, 109 / 100)], .evaluate, .recordDeferredTriggers, .writeEntry, .writeEntry, .endPass,
    .tick 10, .checkSLTP noConversion 0 7 (quoteAt (112 / 100)), .tick 50, .scan [(7, 11 / 10)], .evaluate,
    .recordDeferredTriggers, .writeEntry, .closeTriggeredTrades noConversion [], .removeTrade]

theorem reached_guaranteed_stoppedThenRecovered : ∃ w,
    run (step 60) bracketedLongIndexed stoppedThenRecovered = some w ∧ w.closedAtFirstCrossing = true ∧
      w.Guaranteed 60 := by
  obtain ⟨w, hrun, hclosed⟩ := exists_of_run_any (step 60) bracketedLongIndexed stoppedThenRecovered
    closedAtFirstCrossing (by decide +kernel)
  have hok : RunOk (step 60) (KeepsTriggers 60) bracketedLongIndexed stoppedThenRecovered := by
    decide +kernel
  exact ⟨w, hrun, hclosed, reached_guaranteed 60 (.of_run (.init bracketedLongIndexed_synced) hok hrun)⟩

/-- The interval engine sees the stop crossed, and the event engine's first pass after the window the
target. -/
def stopSeenByInterval : List DeferralAction :=
  [.tick 10, .checkSLTP noConversion 0 7 (quoteAt (109 / 100)), .tick 60, .scan [(7, 112 / 100)], .evaluate,
    .recordDeferredTriggers, .writeEntry, .closeTriggeredTrades noConversion [], .removeTrade]

/-- The stop is recorded, and the position closes at its target. -/
theorem interval_crossing_replaced : ¬∀ minHoldSeconds w,
    Reach (step minHoldSeconds) (fun _ _ => True) Synced w → w.Guaranteed minHoldSeconds := by
  intro hall
  obtain ⟨w, hrun, hend⟩ := exists_of_run_any (step 60) bracketedLongIndexed stopSeenByInterval
    (fun w => (w.world.db.trade? 7).any fun row =>
      row.status = .closed ∧ row.closePrice = some (112 / 100) ∧
        w.world.history.any fun db => (db.trade? 7).any fun before =>
          before.status = .opened ∧ deferredTrigger before = some ⟨"Stop Loss", 109 / 100, none⟩)
    (by decide +kernel)
  obtain ⟨row, hrow, hend⟩ := (Option.any_eq_true _ _).mp hend
  obtain ⟨hclosed, hprice, hseen⟩ := of_decide_eq_true hend
  obtain ⟨db, hdb, hseen⟩ := List.any_eq_true.mp hseen
  obtain ⟨before, hbefore, hseen⟩ := (Option.any_eq_true _ _).mp hseen
  obtain ⟨hopen, hrecorded⟩ := of_decide_eq_true hseen
  have hok : RunOk (step 60) (fun _ _ => True) bracketedLongIndexed stopSeenByInterval :=
    .of_forall fun _ _ _ => trivial
  have hguaranteed := hall 60 w (.of_run (.init bracketedLongIndexed_synced) hok hrun)
  obtain ⟨row', hrow', hnow⟩ := hguaranteed.honoured db hdb 7 before hbefore hopen _ hrecorded
  obtain rfl := Option.some.inj (hrow.symm.trans hrow')
  rcases hnow with ⟨hstill, _⟩ | ⟨_, hlevel, _⟩
  · rw [hclosed] at hstill
    cases hstill
  · rw [hprice] at hlevel
    norm_num at hlevel

end DeferralWorld

end PropFirm
