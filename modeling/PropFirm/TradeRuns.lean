import PropFirm.TradeInvariants

/-!
# Runs of the trading platform

The invariant every run keeps, whatever interleaving it takes. A statement is `Sound` for a set of
accounts when it rewrites rows of these accounts only, apart from cancelling, deferring and filling,
and when it fills pending orders only. Transactions are sound for the accounts nobody holds, the
second half of a terminal transaction is sound for its own account, and soundness is all that is
needed for what a terminal transaction in flight has read to stay true.
-/

namespace PropFirm

open Transition

/-- The statement rewrites rows of the accounts `touch` only, and fills pending orders only. -/
def Stmt.Sound (touch : Nat → Prop) (db : Db) : Stmt → Prop
  | .fillTrade id _ _ => ∃ row, db.trade? id = some row ∧ row.status = .pending
  | .closeTrades closings _ _ =>
    ∀ c ∈ closings, ∀ row, db.trade? c.trade.id = some row → touch row.accountId
  | .splitTrade _ c _ _ => ∀ row, db.trade? c.trade.id = some row → touch row.accountId
  | .creditAccount id _ => touch id
  | .adjustBalance id _ _ => touch id
  | .setStatus id _ => touch id
  | .raiseAnchors id _ => touch id
  | _ => True

abbrev SoundAll (touch : Nat → Prop) (db : Db) (stmts : List Stmt) : Prop :=
  RunOk (fun db stmt => Stmt.exec db stmt) (Stmt.Sound touch) db stmts

namespace Stmt

variable {touch : Nat → Prop} {db db' : Db} {stmt : Stmt}

theorem rowUpdate_later (hsound : stmt.Sound touch db) {t : Trade} (ht : t ∈ db.trades.rows) :
    t.Later (stmt.rowUpdate t) := by
  cases stmt with
  | fillTrade id openPrice now =>
    simp only [rowUpdate]
    split
    · rename_i hid
      obtain ⟨row, hrow, hpending⟩ := hsound
      have hfound : db.trade? id = some t := Db.trade?_eq_some.mpr ⟨ht, hid⟩
      rw [hrow] at hfound
      obtain rfl := Option.some.inj hfound
      exact ⟨rfl, rfl, rfl, rfl, fun h => absurd hpending h⟩
    · exact .refl t
  | cancelTrades | deferTrade | splitTrade =>
    simp only [rowUpdate]
    split
    · refine ⟨rfl, rfl, rfl, rfl, fun h => ⟨?_, rfl⟩⟩
      first | exact h | exact TradeStatus.noConfusion
    · exact .refl t
  | closeTrades closings now clearDeferred =>
    simp only [rowUpdate]
    cases closings.find? fun c => c.trade.id = t.id with
    | none => exact .refl t
    | some c => exact ⟨rfl, rfl, rfl, rfl, fun h => ⟨TradeStatus.noConfusion, rfl⟩⟩
  | insertAccount | insertTrade | creditAccount | adjustBalance | setStatus | raiseAnchors =>
    exact .refl t

theorem exec_account?_untouched (hsound : stmt.Sound touch db) (hexec : stmt.exec db = some db')
    {acc : Account} (hacc : db.account? acc.id = some acc) (huntouched : ¬ touch acc.id) :
    db'.account? acc.id = some acc := by
  have hsame : stmt.accountUpdate acc = acc := by
    cases stmt with
    | creditAccount | adjustBalance | setStatus | raiseAnchors =>
      simp only [accountUpdate]
      refine if_neg fun hid => huntouched ?_
      rw [hid]
      exact hsound
    | _ => rfl
  have h := exec_account? hexec hacc
  rwa [hsame] at h

end Stmt

/-- What a terminal transaction has read of a position still holds of its row: nobody has closed it
or resized it. A stray cancellation may have reached it. -/
structure Trade.HeldBy (t row : Trade) : Prop where
  later : t.Later row
  lotSize : row.lotSize = t.lotSize
  commission : row.commission = t.commission
  live : row.status ≠ .closed

theorem Trade.HeldBy.refl {t : Trade} (hopen : t.status = .opened) : t.HeldBy t :=
  ⟨.refl t, rfl, rfl, by simp [hopen]⟩

theorem Stmt.rowUpdate_held {touch : Nat → Prop} {db : Db} {stmt : Stmt}
    (hsound : stmt.Sound touch db) {t row : Trade} (hrow : db.trade? t.id = some row)
    (hheld : t.HeldBy row) (huntouched : ¬ touch row.accountId) : t.HeldBy (stmt.rowUpdate row) := by
  have hlater := hheld.later.trans (rowUpdate_later hsound (Db.trade?_eq_some.mp hrow).1)
  have hid : row.id = t.id := hheld.later.id
  cases stmt with
  | closeTrades closings now clearDeferred =>
    have hsame : (closeTrades closings now clearDeferred).rowUpdate row = row :=
      rowUpdate_closeTrades_of_ne fun c hc hcid =>
        huntouched (hsound c hc row (by rw [hcid, hid]; exact hrow))
    rw [hsame]
    exact hheld
  | splitTrade part c lots commission =>
    have hne : row.id ≠ c.trade.id := fun h => huntouched (hsound row (by rw [← h, hid]; exact hrow))
    simpa [rowUpdate, hne] using hheld
  | fillTrade | cancelTrades | deferTrade =>
    refine ⟨hlater, ?_, ?_, ?_⟩ <;> simp only [rowUpdate] <;> split
    all_goals first
      | exact hheld.lotSize
      | exact hheld.commission
      | exact hheld.live
      | exact TradeStatus.noConfusion
  | insertAccount | insertTrade | creditAccount | adjustBalance | setStatus | raiseAnchors =>
    exact hheld

/-! ### Transactions are sound -/

theorem World.Writes.sound {w : World} {a : Action} {stmts : List Stmt} (hwrites : w.Writes a stmts) :
    SoundAll (fun accountId => w.accountFree accountId = true) w.db stmts := by
  cases hwrites with
  | provision => exact .of_forall (by simp [Stmt.Sound])
  | order =>
    refine .of_forall fun stmt hstmt db => ?_
    obtain ⟨t, _, rfl⟩ := List.mem_map.mp hstmt
    exact trivial
  | cancelStale | cancelPending => exact .of_forall (by simp [Stmt.Sound])
  | fill _ hrow hpending hsiblings =>
    refine ⟨⟨_, hrow, hpending⟩, fun _ _ => .of_forall fun stmt hstmt db => ?_⟩
    obtain ⟨cond, reason, rfl, _⟩ := hsiblings stmt hstmt
    exact trivial
  | defer hdefer =>
    refine .of_forall fun stmt hstmt db => ?_
    obtain ⟨id, level, reason, rfl⟩ := hdefer stmt hstmt
    exact trivial
  | close _ hclose _ hfree _ =>
    refine ⟨fun c hc row hrow => ?_, fun _ _ => .of_forall fun stmt hstmt db => ?_⟩
    · obtain ⟨row', hrow', _, _, hfreeRow⟩ := hclose c hc
      rw [hrow] at hrow'
      exact Option.some.inj hrow' ▸ hfreeRow
    · obtain ⟨credit, hcredit, rfl⟩ := List.mem_map.mp hstmt
      exact hfree credit hcredit
  | split hrow _ hfree _ _ _ htrade =>
    refine ⟨fun row hrow' => ?_, fun _ _ => .of_forall fun stmt hstmt db => ?_⟩
    · rw [htrade, Db.trade?_id hrow, hrow] at hrow'
      exact Option.some.inj hrow' ▸ hfree
    · rw [List.mem_singleton] at hstmt
      exact hstmt ▸ hfree
  | adjust hfree | lock hfree =>
    refine .of_forall fun stmt hstmt db => ?_
    rw [List.mem_singleton] at hstmt
    exact hstmt ▸ hfree
  | restore hfree =>
    refine .of_forall fun stmt hstmt db => ?_
    rw [List.mem_singleton] at hstmt
    exact hstmt ▸ hfree

/-! ### The invariant of every run -/

/-- What a terminal transaction in flight has read is still true. -/
structure Settling.Valid (s : Settling) (db : Db) : Prop where
  account : db.account? s.account.id = some s.account
  active : s.account.status = .active
  nodup : (s.trades.map Trade.id).Nodup
  opened : ∀ t ∈ s.trades, t.status = .opened ∧ t.accountId = s.account.id
  held : ∀ t ∈ s.trades, ∃ row, db.trade? t.id = some row ∧ t.HeldBy row
  passes : s.kind = .passAccount → s.trades = [] ∧ s.account.targetReached = true

theorem Settling.Valid.mem_of_closing {s : Settling} {db : Db} (hvalid : s.Valid db) {fx : FxSource}
    {closings : List Closing} (hclosings : s.closings fx = some closings) {c : Closing}
    (hc : c ∈ closings) : c.trade ∈ s.trades :=
  (closings_eq_some hclosings fun h => (hvalid.passes h).1).1.subset (List.mem_map_of_mem hc)

theorem Settling.Valid.closings_nodup {s : Settling} {db : Db} (hvalid : s.Valid db) {fx : FxSource}
    {closings : List Closing} (hclosings : s.closings fx = some closings) :
    (closings.map fun c => c.trade.id).Nodup := by
  have hsub := (closings_eq_some hclosings fun h => (hvalid.passes h).1).1
  have hids := hvalid.nodup.sublist (hsub.map Trade.id)
  rwa [List.map_map] at hids

namespace World

structure Valid (w : World) : Prop where
  history : w.HistoryLater
  distinct : (w.settling.map fun s => s.account.id).Nodup
  settling : ∀ s ∈ w.settling, s.Valid w.db

theorem not_accountFree {w : World} {s : Settling} (hs : s ∈ w.settling) :
    ¬ w.accountFree s.account.id = true := by
  intro hfree
  have h := List.all_eq_true.mp hfree s hs
  simp at h

theorem initial_valid (models : Table StepModel) : (World.initial models).Valid where
  history := by simp [HistoryLater, World.initial, Db.initial]
  distinct := List.nodup_nil
  settling := by simp [World.initial]

end World

theorem execAll_later {touch : Nat → Prop} {db db' : Db} {stmts : List Stmt}
    (hsound : SoundAll touch db stmts) (hexec : execAll db stmts = some db') {t₀ t : Trade}
    (ht : db.trade? t₀.id = some t) (hlater : t₀.Later t) :
    ∃ t', db'.trade? t₀.id = some t' ∧ t₀.Later t' := by
  refine run_invariant (fun db => ∃ t, db.trade? t₀.id = some t ∧ t₀.Later t) ?_
    ⟨t, ht, hlater⟩ hsound hexec
  rintro db stmt db' ⟨t, ht, hlater⟩ hstmt hexec
  exact ⟨_, Stmt.exec_trade? hexec ht,
    hlater.trans (Stmt.rowUpdate_later hstmt (Db.trade?_eq_some.mp ht).1)⟩

theorem Settling.Valid.exec {touch : Nat → Prop} {db db' : Db} {stmt : Stmt} {s : Settling}
    (hvalid : s.Valid db) (hstmt : stmt.Sound touch db) (hexec : stmt.exec db = some db')
    (huntouched : ¬ touch s.account.id) : s.Valid db' := by
  refine
    { hvalid with
      account := Stmt.exec_account?_untouched hstmt hexec hvalid.account huntouched
      held := fun t ht => ?_ }
  obtain ⟨row, hrow, hheld⟩ := hvalid.held t ht
  refine ⟨_, Stmt.exec_trade? hexec hrow, Stmt.rowUpdate_held hstmt hrow hheld ?_⟩
  rw [hheld.later.accountId, (hvalid.opened t ht).2]
  exact huntouched

theorem execAll_settlingValid {touch : Nat → Prop} {db db' : Db} {stmts : List Stmt}
    (hsound : SoundAll touch db stmts) (hexec : execAll db stmts = some db') {s : Settling}
    (hvalid : s.Valid db) (huntouched : ¬ touch s.account.id) : s.Valid db' :=
  run_invariant (fun db => s.Valid db)
    (fun _ _ _ hvalid hstmt hexec => hvalid.exec hstmt hexec huntouched) hvalid hsound hexec

/-- A side condition on the statements of a terminal transaction is checked shape by shape. -/
theorem Settling.statements_runOk {ok : Db → Stmt → Prop} {s : Settling} {db : Db} {fx : FxSource}
    {stmts : List Stmt} (hstmts : s.statements fx = some stmts)
    (hclose : ∀ closings, s.closings fx = some closings → ∀ db' : Db, db'.trades = db.trades →
      db'.booked = db.booked → ok db' (.closeTrades closings s.startedAt false))
    (hcancel : ∀ db', ok db' (.cancelTrades
      (fun t => t.accountId = s.account.id ∧ t.status = .pending) s.reason s.startedAt))
    (hraise : ∀ db' resolution, ok db' (.raiseAnchors s.account.id resolution))
    (hcredit : ∀ db' amount, ok db' (.creditAccount s.account.id amount))
    (hstatus : ∀ db' status, ok db' (.setStatus s.account.id status)) :
    RunOk (fun db stmt => Stmt.exec db stmt) ok db stmts := by
  rcases statements_eq_some hstmts with ⟨_, rfl⟩ | ⟨_, closings, hclosings, rfl⟩
  · exact ⟨hstatus db _, fun _ _ => trivial⟩
  · have hrest : ∀ stmt ∈ s.credit closings ++
        [.cancelTrades (fun t => t.accountId = s.account.id ∧ t.status = .pending) s.reason
            s.startedAt, .setStatus s.account.id s.kind.status], ∀ db, ok db stmt := by
      intro stmt hstmt db
      simp only [credit, List.mem_append, List.mem_cons, List.not_mem_nil, or_false] at hstmt
      rcases hstmt with hstmt | rfl | rfl
      · split at hstmt
        · cases hstmt
        · rw [List.mem_singleton] at hstmt
          exact hstmt ▸ hcredit db _
      · exact hcancel db
      · exact hstatus db _
    cases s.anchors with
    | none => exact ⟨hclose closings hclosings db rfl rfl, fun _ _ => .of_forall hrest⟩
    | some resolution =>
      refine ⟨hraise db resolution, fun db' hexec => ?_⟩
      cases hexec
      exact ⟨hclose closings hclosings _ rfl rfl, fun _ _ => .of_forall hrest⟩

theorem Settling.statements_sound {s : Settling} {db : Db} (hvalid : s.Valid db) {fx : FxSource}
    {stmts : List Stmt} (hstmts : s.statements fx = some stmts) :
    SoundAll (· = s.account.id) db stmts := by
  refine statements_runOk hstmts (fun closings hclosings db' htrades _ c hc row hrow => ?_)
    (fun _ => trivial) (fun _ _ => rfl) (fun _ _ => rfl) (fun _ _ => rfl)
  have hmem := hvalid.mem_of_closing hclosings hc
  obtain ⟨row', hrow', hheld⟩ := hvalid.held c.trade hmem
  rw [Db.trade?, htrades] at hrow
  obtain rfl := Option.some.inj (hrow.symm.trans hrow')
  exact hheld.later.accountId.trans (hvalid.opened _ hmem).2

namespace World

def commits (w : World) : Action → Option (Settling × FxSource)
  | .commitSettle accountId fx => (w.settlingFor accountId).map fun s => (s, fx)
  | _ => none

theorem commits_eq {w : World} (hvalid : w.Valid) {s : Settling} (hs : s ∈ w.settling) (fx : FxSource) :
    w.commits (.commitSettle s.account.id fx) = some (s, fx) := by
  have hfind : w.settlingFor s.account.id = some s :=
    (List.find?_key_eq_some hvalid.distinct).mpr ⟨hs, rfl⟩
  rw [commits, hfind, Option.map_some]

inductive Steps (w : World) : Action → World → Prop
  | transact {a : Action} {stmts : List Stmt} {db : Db} (hplan : w.plan a = some stmts)
      (hwrites : w.Writes a stmts) (hexec : execAll w.db stmts = some db) : Steps w a (w.advance db)
  | commit {fx : FxSource} {s : Settling} {stmts : List Stmt} {db : Db} (hs : s ∈ w.settling)
      (hstmts : s.statements fx = some stmts) (hexec : execAll w.db stmts = some db) :
    Steps w (.commitSettle s.account.id fx) ((w.advance db).release s.account.id)
  | begin {a : Action} {call : SettleCall} {s : Settling} (hcall : w.calls a = some call)
      (hfree : w.accountFree call.accountId = true)
      (hbegin : beginSettle w.db call w.clock = some s) :
    Steps w a { w with settling := s :: w.settling }
  | abort {accountId : Nat} : Steps w (.abortSettle accountId) (w.release accountId)
  | tick {seconds : Nat} : Steps w (.tick seconds) { w with clock := w.clock + seconds }

theorem step_steps {w w' : World} (hvalid : w.Valid) {a : Action} (hstep : w.step a = some w') :
    w.Steps a w' := by
  cases a with
  | tick seconds =>
    cases hstep
    exact .tick
  | abortSettle accountId =>
    cases hstep
    exact .abort
  | beginSettle | checkFloatingDrawdown | settleAccountOutcomes | processAccount =>
    simp only [step, Option.bind_eq_bind, Option.bind_eq_some_iff, Option.guard_eq_some',
      exists_const, Option.some.injEq] at hstep
    obtain ⟨call, hcall, hfree, s, hbegin, rfl⟩ := hstep
    exact .begin hcall hfree hbegin
  | commitSettle accountId fx =>
    simp only [step, Option.bind_eq_bind, Option.bind_eq_some_iff, Option.some.injEq] at hstep
    obtain ⟨s, hs, db, hfinish, rfl⟩ := hstep
    obtain ⟨stmts, hstmts, hexec⟩ := Option.bind_eq_some_iff.mp hfinish
    rw [settlingFor] at hs
    have hid : s.account.id = accountId := by simpa using List.find?_some hs
    subst hid
    exact .commit (List.mem_of_find?_eq_some hs) hstmts hexec
  | _ =>
    simp only [step, Option.bind_eq_bind, Option.bind_eq_some_iff, Option.some.injEq] at hstep
    obtain ⟨stmts, hplan, db, hexec, rfl⟩ := hstep
    exact .transact hplan (plan_writes hvalid.history hplan) hexec

theorem mem_release {w : World} {accountId : Nat} {s : Settling} :
    s ∈ (w.release accountId).settling ↔ s ∈ w.settling ∧ s.account.id ≠ accountId := by
  simp [release]

/-- A transaction of a valid world: the earlier rows stay earlier rows, and whatever is held stays
held. -/
private theorem advance_history {w : World} (hvalid : w.Valid) {touch : Nat → Prop}
    {stmts : List Stmt} {db : Db} (hsound : SoundAll touch w.db stmts)
    (hexec : execAll w.db stmts = some db) : (w.advance db).HistoryLater := by
  intro old hold t ht
  rcases List.mem_cons.mp hold with rfl | hold
  · exact ⟨t, Db.trade?_eq_some.mpr ⟨ht, rfl⟩, .refl t⟩
  · obtain ⟨row, hrow, hlater⟩ := hvalid.history old hold t ht
    exact execAll_later hsound hexec hrow hlater

private theorem beginSettle_valid {w : World} {call : SettleCall} {s : Settling}
    (hbegin : beginSettle w.db call w.clock = some s) :
    s.account.id = call.accountId ∧ s.Valid w.db := by
  obtain ⟨hacc, hactive, hkind, _, htrades, hpass⟩ := beginSettle_eq_some hbegin
  have hid : s.account.id = call.accountId := Db.account?_id hacc
  have hread := fun t (ht : t ∈ s.trades) => beginSettle_reads hbegin ht
  refine ⟨hid, ⟨hid ▸ hacc, hactive, ?_, ?_, ?_, ?_⟩⟩
  · by_cases hk : call.kind = .passAccount
    · rw [(hpass hk).1]
      exact List.nodup_nil
    · rw [htrades hk]
      exact w.db.trades.nodup.sublist (List.filter_sublist.map _)
  · exact fun t ht => ⟨(hread t ht).2.2, (hread t ht).2.1.trans hid.symm⟩
  · exact fun t ht => ⟨t, Db.trade?_eq_some.mpr ⟨(hread t ht).1, rfl⟩, .refl (hread t ht).2.2⟩
  · intro hk
    rw [hkind] at hk
    exact ⟨(hpass hk).1, (hpass hk).2.1⟩

theorem step_valid {w w' : World} {a : Action} (hvalid : w.Valid) (hstep : w.step a = some w') :
    w'.Valid := by
  cases step_steps hvalid hstep with
  | transact _ hwrites hexec =>
    refine ⟨advance_history hvalid hwrites.sound hexec, hvalid.distinct, fun s hs => ?_⟩
    exact execAll_settlingValid hwrites.sound hexec (hvalid.settling s hs) (not_accountFree hs)
  | commit hs hstmts hexec =>
    have hsound := Settling.statements_sound (hvalid.settling _ hs) hstmts
    refine ⟨advance_history hvalid hsound hexec, ?_, fun s hs' => ?_⟩
    · exact hvalid.distinct.sublist (List.filter_sublist.map _)
    · obtain ⟨hmem, hne⟩ := mem_release.mp hs'
      exact execAll_settlingValid hsound hexec (hvalid.settling s hmem) hne
  | begin _ hfree hbegin =>
    obtain ⟨hid, hs⟩ := beginSettle_valid hbegin
    refine ⟨hvalid.history, ?_, ?_⟩
    · refine List.nodup_cons.mpr ⟨fun hmem => ?_, hvalid.distinct⟩
      obtain ⟨s', hs', heq⟩ := List.mem_map.mp hmem
      rw [← hid] at hfree
      exact not_accountFree hs' (heq ▸ hfree)
    · intro s' hs'
      rcases List.mem_cons.mp hs' with rfl | hs'
      · exact hs
      · exact hvalid.settling s' hs'
  | abort =>
    refine ⟨hvalid.history, hvalid.distinct.sublist (List.filter_sublist.map _), fun s hs => ?_⟩
    exact hvalid.settling s (mem_release.mp hs).1
  | tick => exact ⟨hvalid.history, hvalid.distinct, hvalid.settling⟩

/-- The states the platform reaches by steps that all satisfy `ok`. -/
abbrev Reached (models : Table StepModel) (ok : World → Action → Prop) : World → Prop :=
  Reach step ok (· = World.initial models)

theorem Reached.valid {models : Table StepModel} {ok : World → Action → Prop} {w : World}
    (hreach : Reached models ok w) : w.Valid :=
  Reach.invariant (by rintro _ rfl; exact initial_valid models)
    (fun _ _ _ hvalid _ hstep => step_valid hvalid hstep) hreach

end World

end PropFirm
