import PropFirm.TerminalAccounts

/-!
# The cap on open positions

The open handler counts an account's open and pending rows under the account's lock and refuses when
the cap is reached; a triggering order counts the others again before it fills. The two agree for a
single order under a positive cap, since nothing between them adds a row. They part in two places: an
OCO request inserts two rows after the one check, and the trigger has no case for a cap that is
switched off.
-/

namespace PropFirm

open Transition

/-- `getTradingRules`: a setting that is absent or no number is the default. -/
def maxOpenPositions (setting : Option ℚ) : ℚ := setting.getD 10

namespace Trade

/-- The row counts towards the cap of the account. -/
def Counts (accountId : Nat) (t : Trade) : Prop :=
  t.accountId = accountId ∧ (t.status = .opened ∨ t.status = .pending)

instance (accountId : Nat) (t : Trade) : Decidable (t.Counts accountId) :=
  inferInstanceAs (Decidable (_ ∧ _))

end Trade

def openOrPendingCount (db : Db) (accountId : Nat) : Nat :=
  db.trades.rows.countP fun t => t.Counts accountId

/-- The open handler's check; zero or negative disables it. -/
def positionCapRefusal (maxOpenTrades : ℚ) (currentOpenCount : Nat) : Option String :=
  if 0 < maxOpenTrades ∧ maxOpenTrades ≤ currentOpenCount then
    some s!"Maximum of {maxOpenTrades} open or pending positions at once. You currently have {currentOpenCount}. Close one before opening another."
  else none

/-- The account an order is placed on and the number of rows it inserts. -/
def Action.legs : Action → Option (Nat × Nat)
  | .openTrade req _ _ => some (req.accountId, 1)
  | .placePendingOrder req _ sibling => some (req.accountId, if sibling.isSome then 2 else 1)
  | _ => none

/-- The order an action may trigger. -/
def Action.triggers : Action → Option Nat
  | .checkPendingOrder _ orderId _ _ => some orderId
  | .fillTriggeredPendingOrder _ _ orderId _ _ _ => some orderId
  | _ => none

/-- A trigger compares a whole count with the cap, which is the same as with its floor. -/
def Action.underCap (cap : ℚ) : Action → Action
  | .checkPendingOrder asOf orderId price _ => .checkPendingOrder asOf orderId price ⌊cap⌋₊
  | .fillTriggeredPendingOrder orderAsOf accountAsOf orderId scan price _ =>
    .fillTriggeredPendingOrder orderAsOf accountAsOf orderId scan price ⌊cap⌋₊
  | action => action

/-- An action of the platform with the value of `max_open_positions` its process had read. -/
structure RuledAction where
  setting : Option ℚ
  action : Action

def RuledAction.cap (x : RuledAction) : ℚ := maxOpenPositions x.setting

def Stmt.cancelReason : Stmt → Option String
  | .cancelTrades _ reason _ => some reason
  | _ => none

namespace World

/-- The refusal of a placement; what places no order is not refused for the cap. -/
def capRefusal (w : World) (x : RuledAction) : Option String :=
  x.action.legs.bind fun legs => positionCapRefusal x.cap (openOrPendingCount w.db legs.1)

def stepUnder (w : World) (x : RuledAction) : Option World :=
  if w.capRefusal x = none then w.step (x.action.underCap x.cap) else none

/-- `validatePendingTrigger`'s reason when the other rows leave no room under the cap. -/
def capReason (maxOpenTrades : Nat) : String := s!"Pending order exceeds max open trades ({maxOpenTrades})"

/-- The action cancels the order it triggers, for the cap, and does nothing else. -/
def CancelsForCap (w : World) (x : RuledAction) : Prop :=
  x.action.triggers ≠ none ∧ ∃ stmts, w.plan (x.action.underCap x.cap) = some stmts ∧
    stmts.map Stmt.cancelReason = [some (capReason ⌊x.cap⌋₊)]

end World

/-! ### Counting -/

theorem openOrPendingCount_mono {db db' : Db} (accountId : Nat) {stmt : Stmt}
    (hexec : stmt.exec db = some db')
    (hupdate : ∀ t ∈ db.trades.rows, (stmt.rowUpdate t).Counts accountId → t.Counts accountId) :
    openOrPendingCount db' accountId
      ≤ stmt.insertedTrades.countP (fun t => t.Counts accountId) + openOrPendingCount db accountId := by
  rw [openOrPendingCount, Stmt.exec_trades hexec, List.countP_append, List.countP_map]
  refine Nat.add_le_add_left (List.countP_mono_left fun t ht hcounts => ?_) _
  exact decide_eq_true (hupdate t ht (of_decide_eq_true hcounts))

theorem Stmt.rowUpdate_counts {touch : Nat → Prop} {db : Db} {stmt : Stmt}
    (hsound : stmt.Sound touch db) {accountId : Nat} {t : Trade} (ht : t ∈ db.trades.rows)
    (hcounts : (stmt.rowUpdate t).Counts accountId) : t.Counts accountId := by
  obtain ⟨haccount, hlive⟩ := hcounts
  rw [rowUpdate_accountId] at haccount
  refine ⟨haccount, ?_⟩
  rcases hlive with hopen | hpending
  · rcases rowUpdate_opened hopen with ⟨hopen, _⟩ | ⟨openPrice, now, rfl⟩
    · exact .inl hopen
    · obtain ⟨row, hrow, hpending⟩ := hsound
      have hself : db.trade? t.id = some t := Db.trade?_eq_some.mpr ⟨ht, rfl⟩
      rw [hself] at hrow
      exact .inr (Option.some.inj hrow ▸ hpending)
  · exact .inr (rowUpdate_pending hpending)

/-- The rows of an account a list of statements inserts to be counted. -/
def placedOn (accountId : Nat) (stmts : List Stmt) : Nat :=
  (stmts.flatMap Stmt.insertedTrades).countP fun t => t.Counts accountId

theorem execAll_count {touch : Nat → Prop} {db db' : Db} {stmts : List Stmt}
    (hsound : SoundAll touch db stmts) (hexec : execAll db stmts = some db') (accountId : Nat) :
    openOrPendingCount db' accountId ≤ placedOn accountId stmts + openOrPendingCount db accountId := by
  induction stmts generalizing db with
  | nil =>
    have hsame : db = db' := Option.some.inj hexec
    rw [hsame]
    exact Nat.le_add_left _ _
  | cons stmt stmts ih =>
    obtain ⟨mid, hstep, hrest⟩ := Option.bind_eq_some_iff.mp hexec
    have hfirst := openOrPendingCount_mono accountId hstep
      fun t ht hcounts => Stmt.rowUpdate_counts hsound.1 ht hcounts
    have hlater := ih (hsound.2 mid hstep) hrest
    rw [placedOn, List.flatMap_cons, List.countP_append]
    rw [placedOn] at hlater
    omega

/-- The statement inserts no row that counts. -/
def Stmt.PlacesNothing (stmt : Stmt) : Prop := ∀ t ∈ stmt.insertedTrades, t.status = .closed

theorem placedOn_eq_zero {accountId : Nat} {stmts : List Stmt}
    (hnothing : ∀ stmt ∈ stmts, stmt.PlacesNothing) : placedOn accountId stmts = 0 := by
  rw [placedOn, List.countP_eq_zero]
  intro t ht
  obtain ⟨stmt, hstmt, ht⟩ := List.mem_flatMap.mp ht
  simp [Trade.Counts, hnothing stmt hstmt t ht]

theorem placesNothing_single {stmt : Stmt} (hnone : stmt.insertedTrades = []) :
    ∀ s ∈ [stmt], s.PlacesNothing := by
  intro s hs t ht
  rw [List.mem_singleton] at hs
  rw [hs, hnone] at ht
  cases ht

theorem placesNothing_close {closings : List Closing} {now : Nat} {clearDeferred : Bool}
    {credits : List Stmt} (hcredits : ∀ stmt ∈ credits, ∃ id amount, stmt = .creditAccount id amount) :
    ∀ stmt ∈ Stmt.closeTrades closings now clearDeferred :: credits, stmt.PlacesNothing := by
  intro stmt hstmt t ht
  rcases List.mem_cons.mp hstmt with rfl | hstmt
  · cases ht
  · obtain ⟨_, _, rfl⟩ := hcredits stmt hstmt
    cases ht

theorem placesNothing_closeFromSnapshot {fx : FxSource} {db : Db} {trade : Trade} {closePrice : ℚ}
    {reason : String} {now : Nat} {clearDeferred : Bool} {stmts : List Stmt}
    (hclose : closeFromSnapshot fx db trade closePrice reason now clearDeferred = some stmts) :
    ∀ stmt ∈ stmts, stmt.PlacesNothing := by
  obtain ⟨_, _, _, _, _, _, rfl⟩ := closeFromSnapshot_eq_some hclose
  exact placesNothing_close fun stmt hstmt => ⟨_, _, List.mem_singleton.mp hstmt⟩

theorem placesNothing_processPendingOrder {db : Db} {order : Trade} {acc : Account} {scan price : Quote}
    {maxOpenTrades now : Nat} {stmts : List Stmt}
    (hprocess : processPendingOrder db order acc scan price maxOpenTrades now = some stmts) :
    ∀ stmt ∈ stmts, stmt.PlacesNothing := by
  rcases processPendingOrder_eq_some hprocess with ⟨reason, _, rfl⟩ | ⟨_, _, hfill⟩
  · exact placesNothing_single rfl
  · obtain ⟨row, _, _, ⟨reason, rfl⟩ | ⟨openPrice, siblings, _, rfl, hsiblings⟩⟩ :=
      fillPendingOrder_eq_some hfill
    · exact placesNothing_single rfl
    · intro stmt hstmt t ht
      rcases List.mem_cons.mp hstmt with rfl | hstmt
      · cases ht
      · obtain ⟨_, _, rfl, _⟩ := hsiblings stmt hstmt
        cases ht

namespace World

variable {w w' : World}

/-- What places no order inserts no row that counts. -/
theorem plan_placesNothing {a : Action} {stmts : List Stmt} (hlegs : a.legs = none)
    (hplan : w.plan a = some stmts) : ∀ stmt ∈ stmts, stmt.PlacesNothing := by
  cases a with
  | openTrade | placePendingOrder => cases hlegs
  | checkPendingOrder asOf orderId price maxOpenTrades =>
    obtain ⟨_, _, _, -, -, -, hprocess⟩ := plan_checkPendingOrder hplan
    exact placesNothing_processPendingOrder hprocess
  | fillTriggeredPendingOrder orderAsOf accountAsOf orderId scan price maxOpenTrades =>
    obtain ⟨_, _, _, _, -, -, -, -, hprocess⟩ := plan_fillTriggeredPendingOrder hplan
    exact placesNothing_processPendingOrder hprocess
  | recordDeferredTriggers entries minHoldSeconds =>
    simp only [plan, Option.bind_eq_bind, Option.bind_eq_some_iff, Option.guard_eq_some',
      exists_const, Option.some.injEq] at hplan
    obtain ⟨candidates, _, _, rfl⟩ := hplan
    intro stmt hstmt t ht
    obtain ⟨c, _, hc⟩ := List.mem_filterMap.mp hstmt
    split at hc
    · obtain ⟨level, _, rfl⟩ := Option.map_eq_some_iff.mp hc
      cases ht
    · cases hc
  | checkSLTP fx asOf tradeId price minHoldSeconds =>
    simp only [plan, Option.bind_eq_bind, Option.bind_eq_some_iff, Option.guard_eq_some',
      exists_const] at hplan
    obtain ⟨seen, _, _, hplan⟩ := hplan
    obtain ⟨_, hplan⟩ := whenFree_eq_some.mp hplan
    obtain ⟨trade, _, ⟨level, reason, rfl⟩ | ⟨_, _, _, hclose⟩⟩ := checkSLTP_eq_some hplan
    · exact placesNothing_single rfl
    · exact placesNothing_closeFromSnapshot hclose
  | closeTriggeredTrades fx entries busy minHoldSeconds =>
    simp only [plan, Option.bind_eq_bind, Option.bind_eq_some_iff, Option.guard_eq_some',
      exists_const, Option.some.injEq] at hplan
    obtain ⟨candidates, _, stmts, hclose, _, rfl⟩ := hplan
    obtain ⟨closings, _, _, rfl⟩ := closeTriggeredTrades_eq_some hclose
    refine placesNothing_close fun stmt hstmt => ?_
    obtain ⟨total, _, rfl⟩ := List.mem_map.mp hstmt
    exact ⟨_, _, rfl⟩
  | weekendClose fx asOf tradeId price | flatByClose fx asOf tradeId price
  | newsClose fx asOf tradeId price =>
    simp only [plan, weekendClose, flatByClose, newsClose, Option.bind_eq_bind,
      Option.bind_eq_some_iff] at hplan
    obtain ⟨seen, _, hplan⟩ := hplan
    obtain ⟨_, _, _, _, hclose⟩ := marketClose_eq_some (whenFree_eq_some.mp hplan).2
    exact placesNothing_closeFromSnapshot hclose
  | batchClose action fx asOf tradeId price =>
    simp only [plan, Option.bind_eq_bind, Option.bind_eq_some_iff] at hplan
    obtain ⟨seen, _, hplan⟩ := hplan
    obtain ⟨_, _, _, _, hclose⟩ := batchClose_eq_some (whenFree_eq_some.mp hplan).2
    exact placesNothing_closeFromSnapshot hclose
  | closeTradeHandler fx tradeId closeLots closePrice minLotSize partId =>
    obtain ⟨_, hplan⟩ := whenFree_eq_some.mp hplan
    obtain ⟨_, _, c, _, _, _, _, _, ⟨_, rfl⟩ | ⟨_, rfl⟩⟩ := closeTradeHandler_eq_some hplan
    · intro stmt hstmt t ht
      simp only [List.mem_cons, List.not_mem_nil, or_false] at hstmt
      rcases hstmt with rfl | rfl
      · rw [Stmt.insertedTrades, List.mem_singleton] at ht
        exact ht ▸ rfl
      · cases ht
    · exact placesNothing_close fun stmt hstmt => ⟨_, _, List.mem_singleton.mp hstmt⟩
  | forceCloseTradeById tradeId livePrice =>
    obtain ⟨_, hplan⟩ := whenFree_eq_some.mp hplan
    obtain ⟨_, _, _, _, _, _, rfl⟩ := forceCloseTradeById_eq_some hplan
    exact placesNothing_close fun stmt hstmt => ⟨_, _, List.mem_singleton.mp hstmt⟩
  | provision =>
    cases hplan
    exact placesNothing_single rfl
  | cancelTradeHandler | weekendCancel =>
    cases hplan
    simp only [cancelTradeHandler, weekendCancel, cancelWhilePending]
    exact placesNothing_single rfl
  | adjustBalance accountId amount shiftAnchors =>
    cases (whenFree_eq_some.mp hplan).2
    exact placesNothing_single rfl
  | lockAccount accountId =>
    obtain rfl := lockStatements_spec (whenFree_eq_some.mp hplan).2
    exact placesNothing_single rfl
  | restoreActive accountId =>
    obtain ⟨acc, -, -, rfl⟩ := restoreStatements_spec (whenFree_eq_some.mp hplan).2
    exact placesNothing_single rfl
  | beginSettle | checkFloatingDrawdown | settleAccountOutcomes | processAccount | commitSettle
  | abortSettle | tick => cases hplan

/-- A placement inserts at most its legs, all on the account it names. -/
theorem plan_placedOn {a : Action} {stmts : List Stmt} {accountId legs : Nat}
    (hlegs : a.legs = some (accountId, legs)) (hplan : w.plan a = some stmts) (id : Nat) :
    placedOn id stmts ≤ if id = accountId then legs else 0 := by
  have hrows : ∃ rows : List Trade, stmts = rows.map .insertTrade ∧ rows.length = legs ∧
      ∀ t ∈ rows, t.accountId = accountId := by
    cases a with
    | openTrade req tradeId openPrice =>
      cases hlegs
      obtain ⟨acc, -, -, rfl⟩ := openTrade_spec (whenFree_eq_some.mp hplan).2
      exact ⟨[_], rfl, rfl, by simp [OrderRequest.row]⟩
    | placePendingOrder req leg sibling =>
      obtain ⟨acc, -, -, ⟨rfl, rfl⟩ | ⟨second, group, rfl, rfl⟩⟩ :=
        placePendingOrder_spec (whenFree_eq_some.mp hplan).2
      · cases hlegs
        exact ⟨[_], rfl, rfl, by simp [OrderRequest.pendingRow, OrderRequest.row]⟩
      · cases hlegs
        exact ⟨[_, _], rfl, rfl, by simp [OrderRequest.pendingRow, OrderRequest.row]⟩
    | _ => cases hlegs
  obtain ⟨rows, rfl, hlength, haccount⟩ := hrows
  have hinserted : (rows.map Stmt.insertTrade).flatMap Stmt.insertedTrades = rows := by
    simp [List.flatMap_map, Stmt.insertedTrades]
  rw [placedOn, hinserted]
  split
  · exact hlength ▸ List.countP_le_length
  · rename_i hother
    refine Nat.le_of_eq (List.countP_eq_zero.mpr fun t ht => ?_)
    simp [Trade.Counts, haccount t ht, Ne.symm hother]

theorem statements_placesNothing {s : Settling} {fx : FxSource} {stmts : List Stmt}
    (hstmts : s.statements fx = some stmts) : ∀ stmt ∈ stmts, stmt.PlacesNothing := by
  intro stmt hstmt t ht
  rcases Settling.statements_eq_some hstmts with ⟨_, rfl⟩ | ⟨_, closings, _, rfl⟩
  · exact placesNothing_single rfl stmt hstmt t ht
  · simp only [Settling.credit, List.mem_append, List.mem_cons, List.mem_map, List.not_mem_nil,
      or_false] at hstmt
    rcases hstmt with (⟨_, _, rfl⟩ | rfl | hcredit) | rfl | rfl
    · cases ht
    · cases ht
    · split at hcredit
      · cases hcredit
      · rw [List.mem_singleton] at hcredit
        rw [hcredit] at ht
        cases ht
    · cases ht
    · cases ht

/-- The rows an action may add to the count of an account. -/
def legsOn (a : Action) (accountId : Nat) : Nat :=
  a.legs.elim 0 fun legs => if accountId = legs.1 then legs.2 else 0

theorem step_count {a : Action} (hvalid : w.Valid) (hstep : w.step a = some w') (accountId : Nat) :
    openOrPendingCount w'.db accountId ≤ legsOn a accountId + openOrPendingCount w.db accountId := by
  cases step_steps hvalid hstep with
  | @transact _ stmts _ hplan hwrites hexec =>
    refine (execAll_count hwrites.sound hexec accountId).trans (Nat.add_le_add_right ?_ _)
    cases hlegs : a.legs with
    | none =>
      rw [placedOn_eq_zero (plan_placesNothing hlegs hplan)]
      exact Nat.zero_le _
    | some legs =>
      have hplaced := plan_placedOn hlegs hplan accountId
      rwa [legsOn, hlegs, Option.elim_some]
  | commit hs hstmts hexec =>
    have hsound := Settling.statements_sound (hvalid.settling _ hs) hstmts
    refine (execAll_count hsound hexec accountId).trans (Nat.add_le_add_right ?_ _)
    rw [placedOn_eq_zero (statements_placesNothing hstmts)]
    exact Nat.zero_le _
  | begin | abort | tick => exact Nat.le_add_left _ _

end World

/-! ### The cap at a trigger -/

theorem capReason_head (n : Nat) : (World.capReason n).toList.head? = some 'P' := by
  have hfirst : "Pending order exceeds max open trades (".toList.head? = some 'P' := by decide +kernel
  have happend : World.capReason n
      = "Pending order exceeds max open trades (" ++ (toString n ++ ")") := by
    rw [← String.append_assoc]
    rfl
  rw [happend, String.toList_append, List.head?_append, hfirst]
  rfl

/-- No other reason reads like the cap's: it alone begins with a P. -/
theorem capReason_ne {s : String} (hs : s.toList.head? ≠ some 'P') (n : Nat) :
    s ≠ World.capReason n := by
  rintro rfl
  exact hs (capReason_head n)

/-- The rows the trigger counts beside the order's own. -/
def otherRows (db : Db) (order : Trade) : List Trade :=
  (db.tradesOf order.accountId .opened ++ db.tradesOf order.accountId .pending).filter
    fun t => t.id ≠ order.id

theorem otherRows_length (db : Db) (order : Trade) :
    (otherRows db order).length
      = db.trades.rows.countP fun t => t.Counts order.accountId ∧ t.id ≠ order.id := by
  rw [otherRows, ← List.countP_eq_length_filter, List.countP_append, Db.tradesOf, Db.tradesOf,
    List.countP_filter, List.countP_filter]
  induction db.trades.rows with
  | nil => rfl
  | cons t rows ih =>
    simp only [List.countP_cons]
    rw [← ih]
    by_cases haccount : t.accountId = order.accountId
    · by_cases hid : t.id = order.id
      · simp [haccount, hid]
      · cases hstatus : t.status <;> simp [Trade.Counts, haccount, hid, hstatus] <;> omega
    · simp [Trade.Counts, haccount]

/-- An order that is still pending is one of the rows the placement counted. -/
theorem otherRows_lt_count {db : Db} {order row : Trade} (hrow : db.trade? order.id = some row)
    (hpending : row.status = .pending) (haccount : row.accountId = order.accountId) :
    (otherRows db order).length < openOrPendingCount db order.accountId := by
  obtain ⟨hmem, hid⟩ := Db.trade?_eq_some.mp hrow
  have hcounts : row.Counts order.accountId := ⟨haccount, .inr hpending⟩
  have hsplit := List.countP_eq_countP_filter_add db.trades.rows
    (fun t => t.Counts order.accountId) fun t => t.id ≠ order.id
  have hself : 0 < (db.trades.rows.filter fun t => !decide (t.id ≠ order.id)).countP
      fun t => t.Counts order.accountId := by
    rw [List.countP_pos_iff]
    exact ⟨row, List.mem_filter.mpr ⟨hmem, by simp [hid]⟩, decide_eq_true hcounts⟩
  rw [otherRows_length, openOrPendingCount, hsplit, List.countP_filter]
  simp only [Bool.decide_and]
  omega

theorem validatePendingTrigger_capReason {db : Db} {order : Trade} {maxOpenTrades : Nat}
    (hcap : validatePendingTrigger db order maxOpenTrades = some (World.capReason maxOpenTrades)) :
    maxOpenTrades < (otherRows db order).length + 1 := by
  unfold validatePendingTrigger at hcap
  split at hcap
  · exact absurd (Option.some.inj hcap) (capReason_ne (by decide +kernel) _)
  · split at hcap
    · exact absurd (Option.some.inj hcap) (capReason_ne (by decide +kernel) _)
    · dsimp only at hcap
      split at hcap
      · rename_i hexceeds
        exact hexceeds
      · cases hcap

/-! ### Every run -/

namespace World

/-- An accepted placement under a positive cap finds room for every row it inserts, and orders
trigger under a positive cap only. -/
structure CapFits (w : World) (x : RuledAction) : Prop where
  room : ∀ accountId legs, x.action.legs = some (accountId, legs) → 0 < x.cap →
    openOrPendingCount w.db accountId < x.cap → (openOrPendingCount w.db accountId + legs : ℚ) ≤ x.cap
  enabled : x.action.triggers ≠ none → 0 < x.cap

theorem step_of_stepUnder {w w' : World} {x : RuledAction} (hstep : w.stepUnder x = some w') :
    w.capRefusal x = none ∧ w.step (x.action.underCap x.cap) = some w' := by
  unfold stepUnder at hstep
  split at hstep
  · rename_i haccepted
    exact ⟨haccepted, hstep⟩
  · cases hstep

@[simp] theorem legs_underCap (a : Action) (cap : ℚ) : (a.underCap cap).legs = a.legs := by
  cases a <;> rfl

theorem stepUnder_valid {w w' : World} {x : RuledAction} (hvalid : w.Valid)
    (hstep : w.stepUnder x = some w') : w'.Valid :=
  step_valid hvalid (step_of_stepUnder hstep).2

theorem stepUnder_count {w w' : World} {x : RuledAction} (hvalid : w.Valid)
    (hstep : w.stepUnder x = some w') (accountId : Nat) :
    openOrPendingCount w'.db accountId
      ≤ legsOn x.action accountId + openOrPendingCount w.db accountId := by
  have hcount := step_count hvalid (step_of_stepUnder hstep).2 accountId
  rwa [legsOn, legs_underCap] at hcount

theorem positionCapRefusal_eq_none {cap : ℚ} {count : Nat} (hcap : 0 < cap) :
    positionCapRefusal cap count = none ↔ (count : ℚ) < cap := by
  simp [positionCapRefusal, hcap]

/-- A placement leaves the account within a positive cap. -/
theorem placement_count {w w' : World} {x : RuledAction} (hvalid : w.Valid) (hfits : w.CapFits x)
    (hstep : w.stepUnder x = some w') {accountId legs : Nat}
    (hlegs : x.action.legs = some (accountId, legs)) (hcap : 0 < x.cap) :
    (openOrPendingCount w'.db accountId : ℚ) ≤ x.cap := by
  have haccepted := (step_of_stepUnder hstep).1
  rw [capRefusal, hlegs, Option.bind_some, positionCapRefusal_eq_none hcap] at haccepted
  have hroom := hfits.room accountId legs hlegs hcap haccepted
  have hcount := stepUnder_count hvalid hstep accountId
  rw [legsOn, hlegs, Option.elim_some, if_pos rfl] at hcount
  have hcount' : (openOrPendingCount w'.db accountId : ℚ) ≤ legs + openOrPendingCount w.db accountId := by
    exact_mod_cast hcount
  linarith

/-- Without a placement on the account its count does not grow. -/
theorem run_count {w w' : World} {xs : List RuledAction} (hvalid : w.Valid)
    (hrun : run stepUnder w xs = some w') {accountId : Nat}
    (hquiet : ∀ x ∈ xs, ∀ legs, x.action.legs ≠ some (accountId, legs)) :
    w'.Valid ∧ openOrPendingCount w'.db accountId ≤ openOrPendingCount w.db accountId := by
  induction xs generalizing w with
  | nil =>
    have hsame : w = w' := Option.some.inj hrun
    exact hsame ▸ ⟨hvalid, le_rfl⟩
  | cons x xs ih =>
    obtain ⟨mid, hstep, hrest⟩ := Option.bind_eq_some_iff.mp hrun
    obtain ⟨hvalid', hcount⟩ := ih (stepUnder_valid hvalid hstep) hrest
      fun y hy => hquiet y (List.mem_cons_of_mem x hy)
    refine ⟨hvalid', hcount.trans ?_⟩
    have hfirst := stepUnder_count hvalid hstep accountId
    have hnone : legsOn x.action accountId = 0 := by
      rw [legsOn]
      cases hlegs : x.action.legs with
      | none => rfl
      | some legs =>
        refine if_neg fun hsame => ?_
        exact hquiet x List.mem_cons_self legs.2 (by rw [hlegs, hsame])
    omega

theorem processPendingOrder_capReason {db : Db} {order : Trade} {acc : Account} {scan price : Quote}
    {maxOpenTrades now : Nat} {stmts : List Stmt}
    (hprocess : processPendingOrder db order acc scan price maxOpenTrades now = some stmts)
    (hreason : stmts.map Stmt.cancelReason = [some (capReason maxOpenTrades)]) :
    ∃ row, db.trade? order.id = some row ∧ row.status = .pending ∧
      maxOpenTrades < (otherRows db order).length + 1 := by
  rcases processPendingOrder_eq_some hprocess with ⟨reason, hstale, rfl⟩ | ⟨_, _, hfill⟩
  · -- neither of the two reasons to drop an order unpriced reads like the cap's
    simp only [cancelPendingOrder, List.map_cons, List.map_nil, Stmt.cancelReason, List.cons.injEq,
      Option.some.injEq, and_true] at hreason
    rw [hreason, staleOrderReason] at hstale
    split at hstale
    · exact absurd (Option.some.inj hstale) (capReason_ne (by decide +kernel) _)
    · split at hstale
      · exact absurd (Option.some.inj hstale) (capReason_ne (by decide +kernel) _)
      · cases hstale
  · obtain ⟨row, hrow, hpending, hstmts⟩ := fillPendingOrder_spec hfill
    refine ⟨row, hrow, hpending, ?_⟩
    obtain ⟨limitError, hlimit, rfl⟩ | ⟨-, -, rfl⟩ | ⟨group, -, -, rfl⟩ := hstmts
    · simp only [List.map_cons, List.map_nil, Stmt.cancelReason, List.cons.injEq, Option.some.injEq,
        and_true] at hreason
      rw [hreason] at hlimit
      exact validatePendingTrigger_capReason hlimit
    · simp [Stmt.cancelReason] at hreason
    · simp [Stmt.cancelReason] at hreason

/-- Only an account whose rows outnumber the cap has an order cancelled for it. -/
theorem CancelsForCap.exceeds {w : World} (hvalid : w.Valid) {x : RuledAction}
    (hcancels : w.CancelsForCap x) {orderId : Nat} (htriggers : x.action.triggers = some orderId)
    {row : Trade} (hrow : w.db.trade? orderId = some row) :
    ⌊x.cap⌋₊ < openOrPendingCount w.db row.accountId := by
  obtain ⟨_, stmts, hplan, hreason⟩ := hcancels
  have hprocessed : ∃ seen ∈ w.history, ∃ order acc scan price, seen.trade? orderId = some order ∧
      processPendingOrder w.db order acc scan price ⌊x.cap⌋₊ w.clock = some stmts := by
    cases haction : x.action with
    | checkPendingOrder asOf id price m =>
      rw [haction] at hplan htriggers
      cases htriggers
      obtain ⟨seen, order, acc, hseen, horder, -, hprocess⟩ := plan_checkPendingOrder hplan
      exact ⟨seen, List.mem_of_getElem? hseen, order, acc, _, _, horder, hprocess⟩
    | fillTriggeredPendingOrder orderAsOf accountAsOf id scan price m =>
      rw [haction] at hplan htriggers
      cases htriggers
      obtain ⟨seen, _, order, acc, hseen, -, horder, -, hprocess⟩ := plan_fillTriggeredPendingOrder hplan
      exact ⟨seen, List.mem_of_getElem? hseen, order, acc, _, _, horder, hprocess⟩
    | _ =>
      rw [haction] at htriggers
      cases htriggers
  obtain ⟨seen, hseen, order, acc, scan, price, horder, hprocess⟩ := hprocessed
  obtain ⟨live, hlive, hpending, hexceeds⟩ := processPendingOrder_capReason hprocess hreason
  have hid : order.id = orderId := Db.trade?_id horder
  obtain ⟨later, hlater, hsame⟩ := hvalid.history seen hseen order (Db.trade?_eq_some.mp horder).1
  rw [hid, hrow] at hlater
  obtain rfl := Option.some.inj hlater
  rw [hid, hrow] at hlive
  obtain rfl := Option.some.inj hlive
  have hcount := otherRows_lt_count (hid.symm ▸ hrow) hpending hsame.accountId
  rw [← hsame.accountId] at hcount
  omega

abbrev CapReached (models : Table StepModel) : World → Prop :=
  Reach stepUnder CapFits (· = World.initial models)

theorem CapReached.valid {models : Table StepModel} {w : World} (hreach : CapReached models w) :
    w.Valid :=
  Reach.invariant (by rintro _ rfl; exact initial_valid models)
    (fun _ _ _ hvalid _ hstep => stepUnder_valid hvalid hstep) hreach

/-- Whatever is placed under a positive cap leaves its account within it; an order that was placed is
not cancelled for the cap when it triggers under the same cap, no other order having been placed on
the account; and a cap that is switched off refuses nothing and cancels nothing. -/
structure KeepsToCap (w : World) (x : RuledAction) : Prop where
  within : ∀ w' accountId legs, w.stepUnder x = some w' → x.action.legs = some (accountId, legs) →
    0 < x.cap → (openOrPendingCount w'.db accountId : ℚ) ≤ x.cap
  fills : ∀ w' accountId legs xs w'' y orderId row, w.stepUnder x = some w' →
    x.action.legs = some (accountId, legs) → 0 < x.cap → run stepUnder w' xs = some w'' →
    (∀ z ∈ xs, ∀ legs, z.action.legs ≠ some (accountId, legs)) → y.cap = x.cap →
    y.action.triggers = some orderId → w''.db.trade? orderId = some row → row.accountId = accountId →
    ¬ w''.CancelsForCap y
  disabled : x.cap ≤ 0 → w.capRefusal x = none ∧ ¬ w.CancelsForCap x

theorem capRefusal_of_disabled {w : World} {x : RuledAction} (hoff : x.cap ≤ 0) :
    w.capRefusal x = none := by
  rw [capRefusal]
  cases x.action.legs with
  | none => rfl
  | some legs => exact if_neg fun h => hoff.not_gt h.1

theorem reached_keepsToCap {models : Table StepModel} {w : World} {x : RuledAction}
    (hreach : CapReached models w) (hfits : w.CapFits x) : w.KeepsToCap x := by
  have hvalid := hreach.valid
  refine ⟨fun w' accountId legs hstep hlegs hcap => placement_count hvalid hfits hstep hlegs hcap, ?_,
    fun hoff => ⟨capRefusal_of_disabled hoff, fun hcancels => hoff.not_gt (hfits.enabled hcancels.1)⟩⟩
  intro w' accountId legs xs w'' y orderId row hstep hlegs hcap hrun hquiet hsame htriggers hrow
    haccount hcancels
  obtain ⟨hvalid'', hcount⟩ := run_count (stepUnder_valid hvalid hstep) hrun hquiet
  have hwithin := placement_count hvalid hfits hstep hlegs hcap
  have hexceeds := hcancels.exceeds hvalid'' htriggers hrow
  rw [hsame, haccount, Nat.floor_lt hcap.le] at hexceeds
  have hcount' : (openOrPendingCount w''.db accountId : ℚ) ≤ openOrPendingCount w'.db accountId := by
    exact_mod_cast hcount
  linarith

/-- One account under a cap of `setting`, with an order of one or two legs. -/
def provisionedUnder (setting : Option ℚ) : List RuledAction := [⟨setting, .provision sampleTerms 1⟩]

def limitLeg (id : Nat) : PendingLeg := ⟨id, .buy, .buyLimit, 11 / 10⟩

def limitUnder (setting : Option ℚ) : RuledAction :=
  ⟨setting, .placePendingOrder sampleOrder (limitLeg 1) none⟩

def pairUnder (setting : Option ℚ) : RuledAction :=
  ⟨setting, .placePendingOrder sampleOrder (limitLeg 1) (some (limitLeg 2, 1))⟩

def limitTriggered (setting : Option ℚ) : RuledAction :=
  ⟨setting, .checkPendingOrder 0 1 (quoteAt (11 / 10)) 0⟩

theorem reached_keepsToCap_limit : ∃ w w',
    run stepUnder (World.initial Table.empty) (provisionedUnder (some 1)) = some w ∧
      w.stepUnder (limitUnder (some 1)) = some w' ∧ openOrPendingCount w'.db 1 = 1 ∧
      w.KeepsToCap (limitUnder (some 1)) := by
  obtain ⟨w, hrun, htest⟩ := exists_of_run_any stepUnder (World.initial Table.empty)
    (provisionedUnder (some 1)) (fun w => openOrPendingCount w.db 1 = 0 ∧
      (w.stepUnder (limitUnder (some 1))).any fun w' => openOrPendingCount w'.db 1 = 1)
    (by decide +kernel)
  obtain ⟨hnone, htest⟩ := of_decide_eq_true htest
  obtain ⟨w', hstep, hone⟩ := (Option.any_eq_true _ _).mp htest
  have hquiet : ∀ s : World, s.CapFits ⟨some 1, .provision sampleTerms 1⟩ := by
    refine fun s => ⟨fun accountId legs hlegs => ?_, fun htriggers => absurd rfl htriggers⟩
    cases hlegs
  have hreach : CapReached Table.empty w :=
    .of_run (.init rfl) (.of_forall fun x hx s => List.mem_singleton.mp hx ▸ hquiet s) hrun
  refine ⟨w, w', hrun, hstep, of_decide_eq_true hone, reached_keepsToCap hreach ⟨?_, ?_⟩⟩
  · intro accountId legs hlegs _ _
    cases hlegs
    simp [sampleOrder, hnone, RuledAction.cap, limitUnder, maxOpenPositions]
  · intro htriggers
    exact absurd rfl htriggers

/-- Under a cap of one an OCO pair leaves two rows; and under a cap of zero an order that was placed
is cancelled for the cap as soon as it triggers. -/
theorem cap_broken :
    (∃ w w', run stepUnder (World.initial Table.empty) (provisionedUnder (some 1)) = some w ∧
      w.stepUnder (pairUnder (some 1)) = some w' ∧ openOrPendingCount w'.db 1 = 2 ∧
      ¬ w.KeepsToCap (pairUnder (some 1))) ∧
    ∃ w, run stepUnder (World.initial Table.empty) (provisionedUnder (some 0) ++ [limitUnder (some 0)])
        = some w ∧
      w.CancelsForCap (limitTriggered (some 0)) ∧ ¬ w.KeepsToCap (limitTriggered (some 0)) := by
  constructor
  · obtain ⟨w, hrun, htest⟩ := exists_of_run_any stepUnder (World.initial Table.empty)
      (provisionedUnder (some 1)) (fun w =>
        (w.stepUnder (pairUnder (some 1))).any fun w' => openOrPendingCount w'.db 1 = 2)
      (by decide +kernel)
    obtain ⟨w', hstep, htwo⟩ := (Option.any_eq_true _ _).mp htest
    have htwo := of_decide_eq_true htwo
    refine ⟨w, w', hrun, hstep, htwo, fun hkeeps => ?_⟩
    have hwithin := hkeeps.within w' 1 2 hstep rfl (by decide +kernel)
    rw [htwo] at hwithin
    exact absurd hwithin (by decide +kernel)
  · obtain ⟨w, hrun, htest⟩ := exists_of_run_any stepUnder (World.initial Table.empty)
      (provisionedUnder (some 0) ++ [limitUnder (some 0)]) (fun w =>
        (w.plan ((limitTriggered (some 0)).action.underCap 0)).any fun stmts =>
          stmts.map Stmt.cancelReason = [some (capReason 0)])
      (by decide +kernel)
    obtain ⟨stmts, hplan, hreason⟩ := (Option.any_eq_true _ _).mp htest
    have hcap : (limitTriggered (some 0)).cap = 0 := rfl
    have hcancels : w.CancelsForCap (limitTriggered (some 0)) := by
      refine ⟨Option.some_ne_none 1, stmts, ?_, ?_⟩
      · rw [hcap]
        exact hplan
      · rw [hcap, Nat.floor_zero]
        exact of_decide_eq_true hreason
    exact ⟨w, hrun, hcancels, fun hkeeps => (hkeeps.disabled hcap.le).2 hcancels⟩

end World

end PropFirm
