import PropFirm.MarketData
import PropFirm.PositionCap

/-!
# Trading restrictions

A challenge model can forbid hedging, grids and martingales, and the open handler looks for them among the
trades of the account, under its lock, before it inserts an order. It looks at the side the request is on. No
other action brings a trade to a side, so that an account stays on one side of an instrument where hedging is
forbidden, and has one order or position on a side where grids are; except by the second leg of an OCO pair,
whose side is not looked at.
-/

namespace PropFirm

open Transition

/-- What the open handler reads of the account's challenge model. -/
structure TradingRestrictions where
  noHedging : Bool
  noGridTrading : Bool
  noMartingale : Bool
  deriving DecidableEq

/-- Where a trade stands: what it shares with the others that hedge it or repeat it. -/
structure TradeSide where
  accountId : Nat
  instrument : Instrument
  direction : Direction
  deriving DecidableEq

def Trade.side (t : Trade) : TradeSide := ⟨t.accountId, t.instrument, t.direction⟩

def Direction.opposite : Direction → Direction
  | .buy => .sell
  | .sell => .buy

def TradeSide.opposite (s : TradeSide) : TradeSide := { s with direction := s.direction.opposite }

@[simp] theorem TradeSide.opposite_opposite (s : TradeSide) : s.opposite.opposite = s := by
  obtain ⟨accountId, instrument, direction⟩ := s
  cases direction <;> rfl

theorem TradeSide.opposite_ne (s : TradeSide) : s.opposite ≠ s := by
  obtain ⟨accountId, instrument, direction⟩ := s
  cases direction <;> simp [opposite, Direction.opposite]

/-- Open or pending, on a side. -/
def Trade.LiveOn (s : TradeSide) (t : Trade) : Prop := t.side = s ∧ (t.status = .opened ∨ t.status = .pending)

instance (s : TradeSide) (t : Trade) : Decidable (t.LiveOn s) := inferInstanceAs (Decidable (_ ∧ _))

def liveCount (db : Db) (s : TradeSide) : Nat := db.trades.rows.countP fun t => t.LiveOn s

/-- The trade of the side that was closed last. -/
def lastClosedSetup (db : Db) (s : TradeSide) : Option Trade :=
  ((db.trades.rows.filter fun t => t.side = s ∧ t.status = .closed).mergeSort
    fun t u => u.closeTime.getD 0 ≤ t.closeTime.getD 0).head?

def directionName : Direction → String
  | .buy => "buy"
  | .sell => "sell"

def restrictionRefusal (db : Db) (model : TradingRestrictions) (s : TradeSide) (lots : ℚ) : Option String :=
  if model.noHedging ∧ 0 < liveCount db s.opposite then
    some ("Hedging is not allowed on this account. Close your existing " ++ s.instrument.symbol ++
      " position before opening the opposite direction.")
  else if model.noGridTrading ∧ 0 < liveCount db s then
    some ("Grid trading is not allowed on this account. You already have an open or pending " ++
      directionName s.direction ++ " order on " ++ s.instrument.symbol ++ ".")
  else if model.noMartingale ∧
      (lastClosedSetup db s).any fun last => last.demoPnl.any (· < 0) && last.lotSize < lots then
    some ("Martingale trading is not allowed on this account. " ++
      "You cannot increase lot size after a loss on the same " ++ s.instrument.symbol ++ " " ++ directionName s.direction ++ " setup.")
  else none

def OrderRequest.side (req : OrderRequest) : TradeSide := ⟨req.accountId, req.instrument, req.direction⟩

/-- An action of the platform with what the open handler had read of the account's model. -/
structure RestrictedAction where
  model : Option TradingRestrictions
  action : Action

/-- The first leg of a pending order is on the side of the request. -/
def Action.asRequested : Action → Action
  | .placePendingOrder req leg sibling => .placePendingOrder req { leg with direction := req.direction } sibling
  | action => action

/-- The request of a placement, and the direction of a second leg. -/
def Action.placement : Action → Option (OrderRequest × Option Direction)
  | .openTrade req _ _ => some (req, none)
  | .placePendingOrder req _ sibling => some (req, sibling.map fun second => second.1.direction)
  | _ => none

/-- The sides an action puts a trade on. -/
def Action.sides (a : Action) : List TradeSide :=
  a.placement.elim [] fun p => p.1.side :: (p.2.map fun d => { p.1.side with direction := d }).toList

namespace World

def modelRefusal (w : World) (x : RestrictedAction) : Option String :=
  x.action.placement.bind fun p => x.model.bind fun model => restrictionRefusal w.db model p.1.side p.1.lots

def stepRestricted (w : World) (x : RestrictedAction) : Option World :=
  if w.modelRefusal x = none then w.step x.action.asRequested else none

end World

/-! ### Who comes to a side -/

@[simp] theorem Stmt.rowUpdate_side (stmt : Stmt) (t : Trade) : (stmt.rowUpdate t).side = t.side := by
  cases stmt with
  | closeTrades closings now clearDeferred =>
    simp only [rowUpdate]
    cases closings.find? fun c => c.trade.id = t.id with
    | none => rfl
    | some c => rfl
  | fillTrade | cancelTrades | deferTrade | splitTrade =>
    simp only [rowUpdate]
    split <;> rfl
  | _ => rfl

theorem Stmt.rowUpdate_liveOn {touch : Nat → Prop} {db : Db} {stmt : Stmt} (hsound : stmt.Sound touch db)
    {s : TradeSide} {t : Trade} (ht : t ∈ db.trades.rows) (hlive : (stmt.rowUpdate t).LiveOn s) : t.LiveOn s := by
  obtain ⟨hside, hlive⟩ := hlive
  rw [rowUpdate_side] at hside
  have hcounts : (stmt.rowUpdate t).Counts t.accountId := ⟨rowUpdate_accountId stmt t, hlive⟩
  exact ⟨hside, (rowUpdate_counts hsound ht hcounts).2⟩

theorem execAll_liveCount {touch : Nat → Prop} {db db' : Db} {stmts : List Stmt}
    (hsound : SoundAll touch db stmts) (hexec : execAll db stmts = some db') (s : TradeSide) :
    liveCount db' s ≤ (stmts.flatMap Stmt.insertedTrades).countP (fun t => t.LiveOn s) + liveCount db s := by
  induction stmts generalizing db with
  | nil =>
    have hsame : db = db' := Option.some.inj hexec
    rw [hsame]
    exact Nat.le_add_left _ _
  | cons stmt stmts ih =>
    obtain ⟨mid, hstep, hrest⟩ := Option.bind_eq_some_iff.mp hexec
    have hfirst : liveCount mid s ≤ stmt.insertedTrades.countP (fun t => t.LiveOn s) + liveCount db s := by
      rw [liveCount, Stmt.exec_trades hstep, List.countP_append, List.countP_map]
      refine Nat.add_le_add_left (List.countP_mono_left fun t ht hlive => ?_) _
      exact decide_eq_true (Stmt.rowUpdate_liveOn hsound.1 ht (of_decide_eq_true hlive))
    have hlater := ih (hsound.2 mid hstep) hrest
    rw [List.flatMap_cons, List.countP_append]
    omega

namespace World

variable {w w' : World} {s : TradeSide}

theorem insertedTrades_eq_zero {stmts : List Stmt} (hnothing : ∀ stmt ∈ stmts, stmt.PlacesNothing) :
    (stmts.flatMap Stmt.insertedTrades).countP (fun t => t.LiveOn s) = 0 := by
  rw [List.countP_eq_zero]
  intro t ht
  obtain ⟨stmt, hstmt, ht⟩ := List.mem_flatMap.mp ht
  simp [Trade.LiveOn, hnothing stmt hstmt t ht]

/-- A placement inserts a row on each of its sides. -/
theorem plan_sides {a : Action} {stmts : List Stmt} (hplan : w.plan a.asRequested = some stmts) :
    (stmts.flatMap Stmt.insertedTrades).countP (fun t => t.LiveOn s) ≤ a.sides.count s := by
  cases hplacement : a.placement with
  | none =>
    have hlegs : a.asRequested.legs = none := by
      cases a <;> first | rfl | cases hplacement
    rw [insertedTrades_eq_zero (plan_placesNothing hlegs hplan)]
    exact Nat.zero_le _
  | some p =>
    have hrows : ∃ rows : List Trade, stmts = rows.map .insertTrade ∧ rows.map Trade.side = a.sides := by
      cases a with
      | openTrade req tradeId openPrice =>
        obtain ⟨acc, -, -, rfl⟩ := openTrade_spec (whenFree_eq_some.mp hplan).2
        exact ⟨[_], rfl, rfl⟩
      | placePendingOrder req leg sibling =>
        obtain ⟨acc, -, -, ⟨rfl, rfl⟩ | ⟨second, group, rfl, rfl⟩⟩ :=
          placePendingOrder_spec (whenFree_eq_some.mp hplan).2
        · exact ⟨[_], rfl, rfl⟩
        · exact ⟨[_, _], rfl, rfl⟩
      | _ => cases hplacement
    obtain ⟨rows, rfl, hsides⟩ := hrows
    have hinserted : (rows.map Stmt.insertTrade).flatMap Stmt.insertedTrades = rows := by
      simp [List.flatMap_map, Stmt.insertedTrades]
    rw [hinserted, ← hsides, List.count_eq_countP, List.countP_map]
    refine List.countP_mono_left fun t _ hlive => ?_
    exact beq_iff_eq.mpr (of_decide_eq_true hlive).1

theorem step_liveCount_of_plan {b : Action} {n : Nat} (hvalid : w.Valid)
    (hplan : ∀ stmts, w.plan b = some stmts →
      (stmts.flatMap Stmt.insertedTrades).countP (fun t => t.LiveOn s) ≤ n)
    (hstep : w.step b = some w') : liveCount w'.db s ≤ n + liveCount w.db s := by
  cases step_steps hvalid hstep with
  | @transact _ stmts _ hplan' hwrites hexec =>
    exact (execAll_liveCount hwrites.sound hexec s).trans (Nat.add_le_add_right (hplan stmts hplan') _)
  | commit hs hstmts hexec =>
    have hsound := Settling.statements_sound (hvalid.settling _ hs) hstmts
    refine (execAll_liveCount hsound hexec s).trans (Nat.add_le_add_right ?_ _)
    rw [insertedTrades_eq_zero (statements_placesNothing hstmts)]
    exact Nat.zero_le _
  | begin | abort | tick => exact Nat.le_add_left _ _

theorem step_of_stepRestricted {x : RestrictedAction} (hstep : w.stepRestricted x = some w') :
    w.modelRefusal x = none ∧ w.step x.action.asRequested = some w' := by
  unfold stepRestricted at hstep
  split at hstep
  · rename_i haccepted
    exact ⟨haccepted, hstep⟩
  · cases hstep

theorem stepRestricted_valid {x : RestrictedAction} (hvalid : w.Valid) (hstep : w.stepRestricted x = some w') :
    w'.Valid :=
  step_valid hvalid (step_of_stepRestricted hstep).2

theorem stepRestricted_liveCount {x : RestrictedAction} (hvalid : w.Valid)
    (hstep : w.stepRestricted x = some w') (s : TradeSide) :
    liveCount w'.db s ≤ x.action.sides.count s + liveCount w.db s :=
  step_liveCount_of_plan hvalid (fun _ hplan => plan_sides hplan) (step_of_stepRestricted hstep).2

/-- What an accepted placement has been checked for. -/
theorem accepted_spec {x : RestrictedAction} (haccepted : w.modelRefusal x = none) {p : OrderRequest × Option Direction}
    (hplacement : x.action.placement = some p) {model : TradingRestrictions} (hmodel : x.model = some model) :
    (model.noHedging = true → liveCount w.db p.1.side.opposite = 0) ∧
      (model.noGridTrading = true → liveCount w.db p.1.side = 0) := by
  rw [modelRefusal, hplacement, Option.bind_some, hmodel, Option.bind_some, restrictionRefusal] at haccepted
  split at haccepted
  · cases haccepted
  · rename_i hhedging
    split at haccepted
    · cases haccepted
    · rename_i hgrid
      exact ⟨fun h => by by_contra hne; exact hhedging ⟨h, Nat.pos_of_ne_zero hne⟩,
        fun h => by by_contra hne; exact hgrid ⟨h, Nat.pos_of_ne_zero hne⟩⟩

theorem sides_eq_nil {a : Action} (hnone : a.placement = none) : a.sides = [] := by
  rw [Action.sides, hnone]
  rfl

/-! ### Every run -/

/-- On no instrument has the account trades on both sides. -/
def OneSided (w : World) (accountId : Nat) : Prop :=
  ∀ s : TradeSide, s.accountId = accountId → liveCount w.db s = 0 ∨ liveCount w.db s.opposite = 0

/-- The placements on the account are under a model that forbids hedging, and none has a second leg on the
other side. -/
def NoHedge (accountId : Nat) (x : RestrictedAction) : Prop :=
  ∀ p, x.action.placement = some p → p.1.accountId = accountId →
    (∃ model, x.model = some model ∧ model.noHedging = true) ∧ p.2 ≠ some p.1.direction.opposite

theorem side_count_eq_zero {p : OrderRequest × Option Direction} (hleg : p.2 ≠ some p.1.direction.opposite) :
    (p.1.side :: (p.2.map fun d => { p.1.side with direction := d }).toList).count p.1.side.opposite = 0 := by
  refine List.count_eq_zero.mpr fun hmem => ?_
  rcases List.mem_cons.mp hmem with heq | hmem
  · exact TradeSide.opposite_ne _ heq
  · obtain ⟨d, hd, heq⟩ := Option.map_eq_some_iff.mp (Option.mem_toList.mp hmem)
    exact hleg (hd.trans (congrArg some (congrArg TradeSide.direction heq)))

theorem oneSided_step {x : RestrictedAction} {accountId : Nat} (hvalid : w.Valid) (hsided : w.OneSided accountId)
    (hok : NoHedge accountId x) (hstep : w.stepRestricted x = some w') : w'.OneSided accountId := by
  intro s hs
  have hcount := stepRestricted_liveCount hvalid hstep
  have hkept (s : TradeSide) (hnone : x.action.sides.count s = 0) (hzero : liveCount w.db s = 0) :
      liveCount w'.db s = 0 := by
    have := hcount s
    omega
  cases hplacement : x.action.placement with
  | none =>
    have hsides := sides_eq_nil hplacement
    refine (hsided s hs).imp (hkept s ?_) (hkept _ ?_) <;> rw [hsides, List.count_nil]
  | some p =>
    obtain ⟨⟨model, hmodel, hforbids⟩, hleg⟩ | hother := em (p.1.accountId = accountId)
      |>.imp_left (hok p hplacement)
    · have hfree := (accepted_spec (step_of_stepRestricted hstep).1 hplacement hmodel).1 hforbids
      have hsides : x.action.sides = p.1.side :: (p.2.map fun d => { p.1.side with direction := d }).toList := by
        rw [Action.sides, hplacement]
        rfl
      have hopposite := hkept p.1.side.opposite (hsides ▸ side_count_eq_zero hleg) hfree
      by_cases hself : s = p.1.side
      · exact .inr (hself ▸ hopposite)
      by_cases hback : s = p.1.side.opposite
      · exact .inl (hback ▸ hopposite)
      -- neither side is one the placement can come to
      have hmiss (s : TradeSide) (hself : s ≠ p.1.side) (hback : s ≠ p.1.side.opposite) :
          x.action.sides.count s = 0 := by
        rw [hsides]
        refine List.count_eq_zero.mpr fun hmem => ?_
        rcases List.mem_cons.mp hmem with heq | hmem
        · exact hself heq
        · obtain ⟨d, hd, rfl⟩ := Option.map_eq_some_iff.mp (Option.mem_toList.mp hmem)
          cases hd' : d <;> cases hdir : p.1.direction <;>
            simp_all [OrderRequest.side, TradeSide.opposite, Direction.opposite]
      refine (hsided s hs).imp (hkept s (hmiss s hself hback)) (hkept _ (hmiss _ ?_ ?_))
      · exact fun heq => hback (by rw [← heq, TradeSide.opposite_opposite])
      · exact fun heq => hself (by rw [← s.opposite_opposite, heq, TradeSide.opposite_opposite])
    · have hmiss (s : TradeSide) (hs : s.accountId = accountId) : x.action.sides.count s = 0 := by
        rw [Action.sides, hplacement]
        refine List.count_eq_zero.mpr fun hmem => ?_
        rcases List.mem_cons.mp hmem with rfl | hmem
        · exact hother hs
        · obtain ⟨d, -, rfl⟩ := Option.map_eq_some_iff.mp (Option.mem_toList.mp hmem)
          exact hother hs
      exact (hsided s hs).imp (hkept s (hmiss s hs)) (hkept _ (hmiss _ hs))

theorem initial_liveCount (models : Table StepModel) (s : TradeSide) : liveCount (initial models).db s = 0 := rfl

/-- Where hedging is forbidden and no OCO pair spans the market, no account is on both sides of an instrument. -/
theorem oneSided_reached {models : Table StepModel} {accountId : Nat}
    (hreach : Reach stepRestricted (fun _ x => NoHedge accountId x) (· = initial models) w) :
    w.OneSided accountId := by
  suffices hinv : w.Valid ∧ w.OneSided accountId from hinv.2
  apply hreach.invariant
  · rintro _ rfl
    exact ⟨initial_valid models, fun s _ => .inl (initial_liveCount models s)⟩
  · rintro w x w' ⟨hvalid, hsided⟩ hok hstep
    exact ⟨stepRestricted_valid hvalid hstep, oneSided_step hvalid hsided hok hstep⟩

/-- The placements on the account are under a model that forbids grids, and none has a second leg. -/
def NoGrid (accountId : Nat) (x : RestrictedAction) : Prop :=
  ∀ p, x.action.placement = some p → p.1.accountId = accountId →
    (∃ model, x.model = some model ∧ model.noGridTrading = true) ∧ p.2 = none

/-- Where grids are forbidden and no OCO pair is placed, an account has one order or position on a side at
most. -/
theorem single_reached {models : Table StepModel} {accountId : Nat}
    (hreach : Reach stepRestricted (fun _ x => NoGrid accountId x) (· = initial models) w) {s : TradeSide}
    (hs : s.accountId = accountId) : liveCount w.db s ≤ 1 := by
  suffices hinv : w.Valid ∧ ∀ s : TradeSide, s.accountId = accountId → liveCount w.db s ≤ 1 from hinv.2 s hs
  apply hreach.invariant
  · rintro _ rfl
    exact ⟨initial_valid models, fun s _ => (initial_liveCount models s).le.trans zero_le_one⟩
  · rintro w x w' ⟨hvalid, hsingle⟩ hok hstep
    refine ⟨stepRestricted_valid hvalid hstep, fun s hs => ?_⟩
    have hcount := stepRestricted_liveCount hvalid hstep s
    have hbefore := hsingle s hs
    cases hplacement : x.action.placement with
    | none =>
      rw [sides_eq_nil hplacement, List.count_nil] at hcount
      omega
    | some p =>
      by_cases haccount : p.1.accountId = accountId
      · obtain ⟨⟨model, hmodel, hforbids⟩, hleg⟩ := hok p hplacement haccount
        have hfree := (accepted_spec (step_of_stepRestricted hstep).1 hplacement hmodel).2 hforbids
        rw [Action.sides, hplacement, Option.elim_some, hleg] at hcount
        by_cases hself : s = p.1.side
        · rw [hself] at hcount ⊢
          simp only [Option.map_none, Option.toList_none, List.count_singleton_self] at hcount
          omega
        · simp only [Option.map_none, Option.toList_none, List.count_singleton,
            beq_eq_false_iff_ne.mpr (Ne.symm hself)] at hcount
          exact hcount.trans (by simpa using hbefore)
      · have hmiss : x.action.sides.count s = 0 := by
          rw [Action.sides, hplacement]
          refine List.count_eq_zero.mpr fun hmem => ?_
          rcases List.mem_cons.mp hmem with rfl | hmem
          · exact haccount hs
          · obtain ⟨d, -, rfl⟩ := Option.map_eq_some_iff.mp (Option.mem_toList.mp hmem)
            exact haccount hs
        omega

def forbidsAll : TradingRestrictions := ⟨true, true, true⟩

def buySide : TradeSide := ⟨1, .eurusd, .buy⟩

/-- An account, a buy on it, and the sell that is refused. -/
def boughtOnce : List RestrictedAction :=
  [⟨none, .provision sampleTerms 1⟩, ⟨some forbidsAll, .openTrade sampleOrder 1 (11 / 10)⟩]

def sellOrder : OrderRequest := { sampleOrder with direction := .sell }

theorem oneSided_reached_bought : ∃ w, run stepRestricted (World.initial Table.empty) boughtOnce = some w ∧
    liveCount w.db buySide = 1 ∧ (w.stepRestricted ⟨some forbidsAll, .openTrade sellOrder 2 (11 / 10)⟩).isNone ∧
    w.OneSided 1 := by
  obtain ⟨w, hrun, htest⟩ := exists_of_run_any stepRestricted (World.initial Table.empty) boughtOnce
    (fun w => liveCount w.db buySide = 1 ∧
      (w.stepRestricted ⟨some forbidsAll, .openTrade sellOrder 2 (11 / 10)⟩).isNone) (by decide +kernel)
  obtain ⟨hone, hrefused⟩ := of_decide_eq_true htest
  refine ⟨w, hrun, hone, hrefused, @oneSided_reached w Table.empty 1 (.of_run (.init rfl) ?_ hrun)⟩
  refine .of_forall (List.forall_mem_cons.mpr ⟨fun _ p hp => ?_, List.forall_mem_singleton.mpr fun _ p hp _ => ?_⟩)
  · cases hp
  · cases hp
    exact ⟨⟨forbidsAll, rfl, rfl⟩, (Option.some_ne_none _).symm⟩

theorem single_reached_bought : ∃ w, run stepRestricted (World.initial Table.empty) boughtOnce = some w ∧
    (w.stepRestricted ⟨some forbidsAll, .openTrade sampleOrder 2 (11 / 10)⟩).isNone ∧ liveCount w.db buySide ≤ 1 := by
  obtain ⟨w, hrun, htest⟩ := exists_of_run_any stepRestricted (World.initial Table.empty) boughtOnce
    (fun w => (w.stepRestricted ⟨some forbidsAll, .openTrade sampleOrder 2 (11 / 10)⟩).isNone) (by decide +kernel)
  refine ⟨w, hrun, htest, @single_reached w Table.empty 1 (.of_run (.init rfl) ?_ hrun) buySide rfl⟩
  refine .of_forall (List.forall_mem_cons.mpr ⟨fun _ p hp => ?_, List.forall_mem_singleton.mpr fun _ p hp _ => ?_⟩)
  · cases hp
  · cases hp
    exact ⟨⟨forbidsAll, rfl, rfl⟩, rfl⟩

/-- An OCO pair around the price is accepted where everything is forbidden. -/
theorem oneSided_broken : ∃ w, run stepRestricted (World.initial Table.empty)
    [⟨none, .provision sampleTerms 1⟩, ⟨some forbidsAll, .placePendingOrder sampleOrder
      ⟨1, .buy, .buyStop, 12 / 10⟩ (some (⟨2, .sell, .sellStop, 1⟩, 1))⟩] = some w ∧ ¬ w.OneSided 1 := by
  obtain ⟨w, hrun, htest⟩ := exists_of_run_any stepRestricted (World.initial Table.empty)
    [⟨none, .provision sampleTerms 1⟩, ⟨some forbidsAll, .placePendingOrder sampleOrder
      ⟨1, .buy, .buyStop, 12 / 10⟩ (some (⟨2, .sell, .sellStop, 1⟩, 1))⟩]
    (fun w => liveCount w.db buySide ≠ 0 ∧ liveCount w.db buySide.opposite ≠ 0) (by decide +kernel)
  refine ⟨w, hrun, fun hsided => ?_⟩
  obtain ⟨hbuy, hsell⟩ := of_decide_eq_true htest
  exact (hsided buySide rfl).elim hbuy hsell

end World

end PropFirm
