import PropFirm.TradeRuns

/-!
# The status machine of a trade

A trade row is meant to move from pending to open to closed, or from pending to cancelled, and never
back. Every update keeps to that machine but one: `cancelPendingOrder` selects its row by id alone,
on the strength of a row read earlier, and so overwrites whatever status the row has by then. Runs
in which each of these cancellations finds its row still pending, or cancelled already, keep every
row on the machine.
-/

namespace PropFirm

open Transition Relation

inductive TradeStatus.Moves : TradeStatus → TradeStatus → Prop
  | fill : Moves .pending .opened
  | close : Moves .opened .closed
  | cancel : Moves .pending .cancelled

/-- A status history the machine allows. -/
abbrev TradeStatus.Path : TradeStatus → TradeStatus → Prop := ReflTransGen TradeStatus.Moves

theorem TradeStatus.Path.of_opened {status : TradeStatus} (hpath : Path .opened status) :
    status = .opened ∨ status = .closed := by
  induction hpath with
  | refl => exact .inl rfl
  | tail _ hmove ih =>
    rcases ih with rfl | rfl <;> cases hmove
    exact .inr rfl

theorem TradeStatus.Path.of_closed {status : TradeStatus} (hpath : Path .closed status) :
    status = .closed := by
  induction hpath with
  | refl => rfl
  | tail _ hmove ih => subst ih; cases hmove

theorem TradeStatus.Path.of_cancelled {status : TradeStatus} (hpath : Path .cancelled status) :
    status = .cancelled := by
  induction hpath with
  | refl => rfl
  | tail _ hmove ih => subst ih; cases hmove

namespace World

/-- A cancellation decided on an earlier read finds its order still pending, or already cancelled. -/
def CancelsPending (w : World) (a : Action) : Prop :=
  ∀ id, w.staleCancel a = some id → ∀ row, w.db.trade? id = some row →
    row.status = .pending ∨ row.status = .cancelled

instance (w : World) (a : Action) : Decidable (w.CancelsPending a) :=
  decidable_of_iff ((w.staleCancel a).all (fun id => (w.db.trade? id).all
    fun row => row.status = .pending ∨ row.status = .cancelled) = true)
    (by simp [CancelsPending, Option.all_eq_true])

end World

def Stmt.StatusOk (db : Db) : Stmt → Prop
  | .fillTrade id _ _ => ∀ row, db.trade? id = some row → row.status = .pending
  | .cancelTrades cond _ _ =>
    ∀ t ∈ db.trades.rows, cond t = true → t.status = .pending ∨ t.status = .cancelled
  | .closeTrades closings _ _ =>
    ∀ c ∈ closings, ∀ row, db.trade? c.trade.id = some row → row.status = .opened
  | _ => True

abbrev StatusOkAll (db : Db) (stmts : List Stmt) : Prop :=
  RunOk (fun db stmt => Stmt.exec db stmt) Stmt.StatusOk db stmts

theorem Stmt.rowUpdate_path {db : Db} {stmt : Stmt} (hok : stmt.StatusOk db) {t : Trade}
    (ht : t ∈ db.trades.rows) : TradeStatus.Path t.status (stmt.rowUpdate t).status := by
  have hself : db.trade? t.id = some t := Db.trade?_eq_some.mpr ⟨ht, rfl⟩
  cases stmt with
  | fillTrade id openPrice now =>
    simp only [rowUpdate]
    split
    · rename_i hid
      rw [hok t (hid ▸ hself)]
      exact .single .fill
    · exact .refl
  | cancelTrades cond reason now =>
    simp only [rowUpdate]
    split
    · rename_i hcond
      rcases hok t ht hcond with hstatus | hstatus <;> rw [hstatus]
      · exact .single .cancel
      · exact .refl
    · exact .refl
  | closeTrades closings now clearDeferred =>
    simp only [rowUpdate]
    cases hfind : closings.find? fun c => c.trade.id = t.id with
    | none => exact .refl
    | some c =>
      have hid : c.trade.id = t.id := by simpa using List.find?_some hfind
      rw [hok c (List.mem_of_find?_eq_some hfind) t (hid ▸ hself)]
      exact .single .close
  | deferTrade | splitTrade =>
    simp only [rowUpdate]
    split <;> exact .refl
  | insertAccount | insertTrade | creditAccount | adjustBalance | setStatus | raiseAnchors =>
    exact .refl

theorem execAll_path {db db' : Db} {stmts : List Stmt} (hok : StatusOkAll db stmts)
    (hexec : execAll db stmts = some db') {id : Nat} {t : Trade} (ht : db.trade? id = some t) :
    ∃ t', db'.trade? id = some t' ∧ TradeStatus.Path t.status t'.status := by
  refine run_invariant (fun db => ∃ t', db.trade? id = some t' ∧
    TradeStatus.Path t.status t'.status) ?_ ⟨t, ht, .refl⟩ hok hexec
  rintro db stmt db' ⟨t', ht', hpath⟩ hstmt hexec
  exact ⟨_, Stmt.exec_trade? hexec ht',
    hpath.trans (Stmt.rowUpdate_path hstmt (Db.trade?_eq_some.mp ht').1)⟩

namespace World

theorem Writes.statusOk {w : World} {a : Action} {stmts : List Stmt} (hwrites : w.Writes a stmts)
    (hok : w.CancelsPending a) : StatusOkAll w.db stmts := by
  have hcancel : ∀ (cond : Trade → Bool) (reason : String) (db : Db),
      (∀ t, cond t = true → t.status = .pending) →
      Stmt.StatusOk db (.cancelTrades cond reason w.clock) :=
    fun cond reason db hcond t _ ht => .inl (hcond t ht)
  cases hwrites with
  | provision | adjust | lock | restore => exact .of_forall (by simp [Stmt.StatusOk])
  | order =>
    refine .of_forall fun stmt hstmt db => ?_
    obtain ⟨t, _, rfl⟩ := List.mem_map.mp hstmt
    exact trivial
  | cancelStale hstale =>
    refine ⟨fun t ht hid => ?_, fun _ _ => trivial⟩
    exact hok _ hstale t (Db.trade?_eq_some.mpr ⟨ht, of_decide_eq_true hid⟩)
  | cancelPending hpending => exact ⟨fun t ht hcond => .inl (hpending t ht hcond), fun _ _ => trivial⟩
  | fill _ hrow hpending hsiblings =>
    refine ⟨fun row hrow' => ?_, fun _ _ => .of_forall fun stmt hstmt db => ?_⟩
    · rw [hrow] at hrow'
      exact Option.some.inj hrow' ▸ hpending
    · obtain ⟨cond, reason, rfl, hcond⟩ := hsiblings stmt hstmt
      exact hcancel cond reason db hcond
  | defer hdefer =>
    refine .of_forall fun stmt hstmt db => ?_
    obtain ⟨id, level, reason, rfl⟩ := hdefer stmt hstmt
    exact trivial
  | close _ hclose _ _ _ =>
    refine ⟨fun c hc row hrow => ?_, fun _ _ => .of_forall fun stmt hstmt db => ?_⟩
    · obtain ⟨row', hrow', hopen, _⟩ := hclose c hc
      rw [hrow] at hrow'
      exact Option.some.inj hrow' ▸ hopen
    · obtain ⟨credit, _, rfl⟩ := List.mem_map.mp hstmt
      exact trivial
  | split => exact ⟨trivial, fun _ _ => ⟨trivial, fun _ _ => trivial⟩⟩

def HoldsOpen (w : World) : Prop :=
  ∀ s ∈ w.settling, ∀ t ∈ s.trades, ∀ row, w.db.trade? t.id = some row → row.status = .opened

end World

theorem Settling.statements_statusOk {s : Settling} {db : Db} (hvalid : s.Valid db)
    (hopen : ∀ t ∈ s.trades, ∀ row, db.trade? t.id = some row → row.status = .opened) {fx : FxSource}
    {stmts : List Stmt} (hstmts : s.statements fx = some stmts) : StatusOkAll db stmts := by
  refine statements_runOk hstmts (fun closings hclosings db' htrades _ c hc row hrow => ?_)
    (fun _ t _ hcond => .inl (of_decide_eq_true hcond).2) (fun _ _ => trivial) (fun _ _ => trivial)
    (fun _ _ => trivial)
  rw [Db.trade?, htrades] at hrow
  exact hopen c.trade (hvalid.mem_of_closing hclosings hc) row hrow

namespace World

theorem step_path {w w' : World} {a : Action} (hvalid : w.Valid) (hopen : w.HoldsOpen)
    (hok : w.CancelsPending a) (hstep : w.step a = some w') {id : Nat} {t : Trade}
    (ht : w.db.trade? id = some t) :
    ∃ t', w'.db.trade? id = some t' ∧ TradeStatus.Path t.status t'.status := by
  cases step_steps hvalid hstep with
  | transact _ hwrites hexec => exact execAll_path (hwrites.statusOk hok) hexec ht
  | commit hs hstmts hexec =>
    exact execAll_path (Settling.statements_statusOk (hvalid.settling _ hs) (hopen _ hs) hstmts) hexec ht
  | begin | abort | tick => exact ⟨t, ht, .refl⟩

/-- What is held stays open: the machine leads from open to closed only, and a held position is not
closed. -/
theorem step_holdsOpen {w w' : World} {a : Action} (hvalid : w.Valid) (hopen : w.HoldsOpen)
    (hok : w.CancelsPending a) (hstep : w.step a = some w') : w'.HoldsOpen := by
  have hvalid' := step_valid hvalid hstep
  have hkeep : ∀ s ∈ w.settling, s ∈ w'.settling → ∀ t ∈ s.trades, ∀ row,
      w'.db.trade? t.id = some row → row.status = .opened := by
    intro s hs hs' t ht row hrow
    obtain ⟨old, hold, _⟩ := (hvalid.settling s hs).held t ht
    obtain ⟨new, hnew, hpath⟩ := step_path hvalid hopen hok hstep hold
    obtain ⟨live, hlive, hheld⟩ := (hvalid'.settling s hs').held t ht
    rw [hrow] at hnew hlive
    obtain rfl := Option.some.inj hnew
    obtain rfl := Option.some.inj hlive
    rw [hopen s hs t ht old hold] at hpath
    exact hpath.of_opened.resolve_right hheld.live
  intro s hs'
  cases step_steps hvalid hstep with
  | transact => exact hkeep s hs' hs'
  | commit => exact hkeep s (mem_release.mp hs').1 hs'
  | abort => exact hkeep s (mem_release.mp hs').1 hs'
  | tick => exact hkeep s hs' hs'
  | begin _ _ hbegin =>
    rcases List.mem_cons.mp hs' with rfl | hs
    · intro t ht row hrow
      obtain ⟨hmem, _, hstatus⟩ := beginSettle_reads hbegin ht
      have hself : w.db.trade? t.id = some t := Db.trade?_eq_some.mpr ⟨hmem, rfl⟩
      exact Option.some.inj (hself.symm.trans hrow) ▸ hstatus
    · exact hkeep s hs hs'

/-- Every row of `w` is still there in `w'`, and its status got there along the machine. -/
def StatusMachineKept (w w' : World) : Prop :=
  ∀ t ∈ w.db.trades.rows, ∃ t' ∈ w'.db.trades.rows, t'.id = t.id ∧ TradeStatus.Path t.status t'.status

theorem Reached.holdsOpen {models : Table StepModel} {w : World}
    (hreach : Reached models CancelsPending w) : w.HoldsOpen :=
  Reach.invariant_relative Reached.valid (by rintro _ rfl; simp [HoldsOpen, World.initial])
    (fun _ _ _ hvalid hopen hok hstep => step_holdsOpen hvalid hopen hok hstep) hreach

/-- A run whose cancellations find their orders pending, or cancelled already, keeps every trade row
on the status machine. -/
theorem run_statusMachineKept {models : Table StepModel} {w w' : World} {as : List Action}
    (hreach : Reached models CancelsPending w) (hok : RunOk step CancelsPending w as)
    (hrun : run step w as = some w') : StatusMachineKept w w' := by
  intro t ht
  have hinv : ∃ t', w'.db.trade? t.id = some t' ∧ TradeStatus.Path t.status t'.status := by
    refine (run_invariant (fun v => (v.Valid ∧ v.HoldsOpen) ∧
      ∃ t', v.db.trade? t.id = some t' ∧ TradeStatus.Path t.status t'.status) ?_
      ⟨⟨hreach.valid, hreach.holdsOpen⟩, t, Db.trade?_eq_some.mpr ⟨ht, rfl⟩, .refl⟩ hok hrun).2
    rintro v a v' ⟨⟨hvalid, hopen⟩, t', ht', hpath⟩ hok hstep
    obtain ⟨t'', ht'', hpath'⟩ := step_path hvalid hopen hok hstep ht'
    exact ⟨⟨step_valid hvalid hstep, step_holdsOpen hvalid hopen hok hstep⟩, t'', ht'',
      hpath.trans hpath'⟩
  obtain ⟨t', ht', hpath⟩ := hinv
  obtain ⟨hmem, hid⟩ := Db.trade?_eq_some.mp ht'
  exact ⟨t', hmem, hid, hpath⟩

/-- A buy limit placed on an account whose phase ends at second 100. -/
def limitPlaced : List Action :=
  [.provision { sampleTerms with phaseEndDate := some 100 } 1,
    .placePendingOrder sampleOrder ⟨1, .buy, .buyLimit, 11 / 10⟩ none, .tick 99]

def limitFilled : List Action :=
  [.fillTriggeredPendingOrder 0 0 1 (quoteAt (11 / 10)) (quoteAt (11 / 10)) 50]

def limitClosed : List Action :=
  limitFilled ++ [.closeTradeHandler noConversion 1 none (111 / 100) (1 / 100) 2]

theorem run_statusMachineKept_limitClosed :
    ∃ w w', run step (World.initial Table.empty) limitPlaced = some w ∧
      run step w limitClosed = some w' ∧ StatusMachineKept w w' ∧
      (w'.db.trade? 1).map Trade.status = some .closed := by
  obtain ⟨w, hw, hcheck⟩ := exists_of_run_any step (World.initial Table.empty) limitPlaced
    (fun w => RunOk step CancelsPending w limitClosed ∧
      (run step w limitClosed).any fun w' => (w'.db.trade? 1).map Trade.status = some .closed)
    (by decide +kernel)
  obtain ⟨hok, hclosed⟩ := of_decide_eq_true hcheck
  obtain ⟨w', hw', hclosed⟩ := exists_of_run_any _ _ _ _ hclosed
  have hreach : Reached Table.empty CancelsPending w := .of_run (.init rfl) (by decide +kernel) hw
  exact ⟨w, w', hw, hw', run_statusMachineKept hreach hok hw', of_decide_eq_true hclosed⟩

/-- The interval engine read the order while it was pending. By the time it writes, the event engine
has opened the position and the phase has ended: the cancellation discards the live position. -/
theorem cancelPendingOrder_discards_position :
    ∃ w w', run step (World.initial Table.empty) (limitPlaced ++ limitFilled ++ [.tick 1]) = some w ∧
      w.step (.checkPendingOrder 1 1 (quoteAt (11 / 10)) 50) = some w' ∧
      (w.db.trade? 1).map Trade.status = some .opened ∧
      (w'.db.trade? 1).map Trade.status = some .cancelled ∧ ¬ StatusMachineKept w w' := by
  obtain ⟨w, hw, hcheck⟩ := exists_of_run_any step (World.initial Table.empty)
    (limitPlaced ++ limitFilled ++ [.tick 1])
    (fun w => (w.db.trade? 1).map Trade.status = some .opened ∧
      (run step w [.checkPendingOrder 1 1 (quoteAt (11 / 10)) 50]).any fun w' =>
        (w'.db.trade? 1).map Trade.status = some .cancelled)
    (by decide +kernel)
  obtain ⟨hopen, hrest⟩ := of_decide_eq_true hcheck
  obtain ⟨w', hw', hcancelled⟩ := exists_of_run_any _ _ _ _ hrest
  have hcancelled := of_decide_eq_true hcancelled
  refine ⟨w, w', hw, by simpa [run] using hw', hopen, hcancelled, fun hkept => ?_⟩
  obtain ⟨t, ht, hstatus⟩ := Option.map_eq_some_iff.mp hopen
  obtain ⟨hmem, hid⟩ := Db.trade?_eq_some.mp ht
  obtain ⟨t', hmem', hid', hpath⟩ := hkept t hmem
  rw [Db.trade?_eq_some.mpr ⟨hmem', hid'.trans hid⟩, Option.map_some, Option.some.injEq] at hcancelled
  rw [hstatus, hcancelled] at hpath
  rcases hpath.of_opened with h | h <;> cases h

end World

end PropFirm
