import PropFirm.TradeRuns

/-!
# Terminal accounts hold nothing

A terminal transaction settles the positions it has read, cancels the account's pending orders and
writes the status. What it leaves behind an account keeps, since nothing opens on an account that is
not active. So the account ends up holding nothing when the transaction has read every open position
and settles every one it has read. Three things get in the way: a pending fill locks its own order
only, and opens it on an account whose terminal transaction has already read its positions;
`passAccount` does not cancel pending orders; and `expireAccount` skips a position it cannot price.
-/

namespace PropFirm

open Transition

def AccountStatus.terminal : AccountStatus → Bool
  | failed | passed | expired | closed => true
  | active | locked | cancelled => false

def Db.HoldsNothing (db : Db) (accountId : Nat) : Prop :=
  db.tradesOf accountId .opened = [] ∧ db.tradesOf accountId .pending = []

instance (db : Db) (accountId : Nat) : Decidable (db.HoldsNothing accountId) :=
  inferInstanceAs (Decidable (_ ∧ _))

theorem Db.holdsNothing_iff {db : Db} {accountId : Nat} :
    db.HoldsNothing accountId ↔ ∀ t ∈ db.trades.rows, t.accountId = accountId →
      t.status ≠ .opened ∧ t.status ≠ .pending := by
  simp only [HoldsNothing, tradesOf, List.filter_eq_nil_iff, decide_eq_true_eq, not_and]
  exact ⟨fun h t ht hid => ⟨h.1 t ht hid, h.2 t ht hid⟩,
    fun h => ⟨fun t ht hid => (h t ht hid).1, fun t ht hid => (h t ht hid).2⟩⟩

/-- Terminal accounts hold nothing, the transactions in flight have read every open position of
theirs, and every open position has an open price. -/
structure Covered (settling : List Settling) (db : Db) : Prop where
  terminal : ∀ acc ∈ db.accounts.rows, acc.status.terminal = true → db.HoldsNothing acc.id
  read : ∀ s ∈ settling, ∀ t ∈ db.trades.rows, t.accountId = s.account.id → t.status = .opened →
    t.id ∈ s.trades.map Trade.id
  priced : ∀ t ∈ db.trades.rows, t.status = .opened → t.openPrice.isSome

/-! ### Single-step transactions -/

/-- The statement opens positions on free accounts that are not terminal, and ends no account. -/
def Stmt.LiveOk (free : Nat → Prop) (db : Db) : Stmt → Prop
  | .insertAccount acc => acc.status.terminal = false
  | .insertTrade t =>
    (t.status = .opened → t.openPrice.isSome) ∧ free t.accountId ∧
      ∀ acc, db.account? t.accountId = some acc → acc.status.terminal = false
  | .fillTrade id _ _ =>
    ∀ row, db.trade? id = some row → row.status = .pending ∧ free row.accountId
  | .splitTrade part _ _ _ => part.status = .closed
  | .setStatus _ status => status.terminal = false
  | _ => True

abbrev LiveOkAll (free : Nat → Prop) (db : Db) (stmts : List Stmt) : Prop :=
  RunOk (fun db stmt => Stmt.exec db stmt) (Stmt.LiveOk free) db stmts

namespace Stmt

variable {db db' : Db} {stmt : Stmt} {free : Nat → Prop}

theorem accountUpdate_terminal (hok : stmt.LiveOk free db) {acc : Account}
    (hterminal : (stmt.accountUpdate acc).status.terminal = true) : acc.status.terminal = true := by
  cases stmt with
  | setStatus id status =>
    simp only [accountUpdate] at hterminal
    split at hterminal
    · rw [Account.withStatus] at hterminal
      exact absurd (hterminal.symm.trans hok) Bool.noConfusion
    · exact hterminal
  | creditAccount | adjustBalance | raiseAnchors =>
    simp only [accountUpdate] at hterminal
    split at hterminal <;> exact hterminal
  | _ => exact hterminal

private theorem live_of_exec (hok : stmt.LiveOk free db) (hexec : stmt.exec db = some db') {t' : Trade}
    (ht' : t' ∈ db'.trades.rows) (hlive : t'.status = .opened ∨ t'.status = .pending) :
    stmt = .insertTrade t' ∨ ∃ t ∈ db.trades.rows, t' = stmt.rowUpdate t ∧
      (t.status = .opened ∨ t.status = .pending) := by
  rw [exec_trades hexec] at ht'
  rcases List.mem_append.mp ht' with hnew | hold
  · cases stmt with
    | insertTrade t =>
      rw [insertedTrades, List.mem_singleton] at hnew
      exact .inl (by rw [hnew])
    | splitTrade part c lots commission =>
      rw [insertedTrades, List.mem_singleton] at hnew
      rw [hnew, show part.status = .closed from hok] at hlive
      rcases hlive with h | h <;> cases h
    | _ => cases hnew
  · obtain ⟨t, ht, rfl⟩ := List.mem_map.mp hold
    refine .inr ⟨t, ht, rfl, ?_⟩
    rcases hlive with hopen | hpending
    · rcases rowUpdate_opened hopen with ⟨hopen, _⟩ | ⟨openPrice, now, rfl⟩
      · exact .inl hopen
      · exact .inr (hok t (Db.trade?_eq_some.mpr ⟨ht, rfl⟩)).1
    · exact .inr (rowUpdate_pending hpending)

theorem exec_covered {settling : List Settling} (hbusy : ∀ s ∈ settling, ¬ free s.account.id)
    (hcovered : Covered settling db) (hok : stmt.LiveOk free db) (hexec : stmt.exec db = some db') :
    Covered settling db' := by
  refine ⟨fun acc hacc hterminal => ?_, fun s hs t' ht' haccount hopen => ?_, fun t' ht' hopen => ?_⟩
  · rw [exec_accounts hexec] at hacc
    rcases List.mem_append.mp hacc with hnew | hold
    · cases stmt with
      | insertAccount fresh =>
        rw [insertedAccounts, List.mem_singleton] at hnew
        rw [hnew, show fresh.status.terminal = false from hok] at hterminal
        cases hterminal
      | _ => cases hnew
    · obtain ⟨old, hmem, rfl⟩ := List.mem_map.mp hold
      have hended := accountUpdate_terminal hok hterminal
      rw [accountUpdate_id, Db.holdsNothing_iff]
      intro t' ht' haccount
      rw [← not_or]
      intro hlive
      rcases live_of_exec hok hexec ht' hlive with rfl | ⟨t, ht, rfl, hwas⟩
      · have hself : db.account? t'.accountId = some old :=
          Db.account?_eq_some.mpr ⟨hmem, haccount.symm⟩
        exact absurd (hended.symm.trans (hok.2.2 old hself)) Bool.noConfusion
      · rw [rowUpdate_accountId] at haccount
        have hnone := Db.holdsNothing_iff.mp (hcovered.terminal old hmem hended) t ht haccount
        exact hwas.elim hnone.1 hnone.2
  · rcases live_of_exec hok hexec ht' (.inl hopen) with rfl | ⟨t, ht, rfl, _⟩
    · exact absurd (haccount ▸ hok.2.1) (hbusy s hs)
    · rw [rowUpdate_accountId] at haccount
      rw [rowUpdate_id]
      rcases rowUpdate_opened hopen with ⟨hopen, _⟩ | ⟨openPrice, now, rfl⟩
      · exact hcovered.read s hs t ht haccount hopen
      · have hfree := (hok t (Db.trade?_eq_some.mpr ⟨ht, rfl⟩)).2
        exact absurd (haccount ▸ hfree) (hbusy s hs)
  · rcases live_of_exec hok hexec ht' (.inl hopen) with rfl | ⟨t, ht, rfl, _⟩
    · exact hok.1 hopen
    · rcases rowUpdate_opened hopen with ⟨hopen, hprice⟩ | ⟨openPrice, now, rfl⟩
      · rw [hprice]
        exact hcovered.priced t ht hopen
      · simp [rowUpdate, Trade.filledAt]

end Stmt

/-! ### What a terminal transaction leaves behind -/

def Stmt.InsertsNothing (_ : Db) (stmt : Stmt) : Prop :=
  stmt.insertedTrades = [] ∧ stmt.insertedAccounts = []

theorem execAll_trades {stmts : List Stmt} {db db' : Db}
    (hnone : RunOk (fun db stmt => Stmt.exec db stmt) Stmt.InsertsNothing db stmts)
    (hexec : execAll db stmts = some db') :
    db'.trades.rows = db.trades.rows.map fun t => stmts.foldl (fun t stmt => stmt.rowUpdate t) t := by
  induction stmts generalizing db with
  | nil =>
    have hsame : db = db' := Option.some.inj hexec
    simp [hsame]
  | cons stmt stmts ih =>
    obtain ⟨mid, hstep, hrest⟩ := Option.bind_eq_some_iff.mp hexec
    rw [ih (hnone.2 mid hstep) hrest, Stmt.exec_trades hstep, hnone.1.1, List.nil_append, List.map_map]
    rfl

theorem execAll_untouched {touch : Nat → Prop} {stmts : List Stmt} {db db' : Db}
    (hnone : RunOk (fun db stmt => Stmt.exec db stmt) Stmt.InsertsNothing db stmts)
    (hsound : SoundAll touch db stmts) (hexec : execAll db stmts = some db') {acc : Account}
    (hacc : acc ∈ db'.accounts.rows) (huntouched : ¬ touch acc.id) : acc ∈ db.accounts.rows := by
  induction stmts generalizing db with
  | nil =>
    have hsame : db = db' := Option.some.inj hexec
    exact hsame ▸ hacc
  | cons stmt stmts ih =>
    obtain ⟨mid, hstep, hrest⟩ := Option.bind_eq_some_iff.mp hexec
    have hmid := ih (hnone.2 mid hstep) (hsound.2 mid hstep) hrest
    have hrows := Stmt.exec_accounts hstep
    rw [hnone.1.2, List.nil_append] at hrows
    rw [hrows] at hmid
    obtain ⟨old, hold, rfl⟩ := List.mem_map.mp hmid
    rw [Stmt.accountUpdate_id] at huntouched
    have hself : db.account? old.id = some old := Db.account?_eq_some.mpr ⟨hold, rfl⟩
    have hkept := Stmt.exec_account?_untouched hsound.1 hstep hself huntouched
    rw [Stmt.exec_account? hstep hself] at hkept
    rw [Option.some.inj hkept]
    exact hold

namespace Settling

def cancelPendings (s : Settling) : Stmt :=
  .cancelTrades (fun t => t.accountId = s.account.id ∧ t.status = .pending) s.reason s.startedAt

theorem statements_insertNothing {s : Settling} {fx : FxSource} {stmts : List Stmt}
    (hstmts : s.statements fx = some stmts) (db : Db) :
    RunOk (fun db stmt => Stmt.exec db stmt) Stmt.InsertsNothing db stmts :=
  statements_runOk hstmts (fun _ _ _ _ _ => ⟨rfl, rfl⟩) (fun _ => ⟨rfl, rfl⟩) (fun _ _ => ⟨rfl, rfl⟩)
    (fun _ _ => ⟨rfl, rfl⟩) (fun _ _ => ⟨rfl, rfl⟩)

private theorem foldl_quiet {stmts : List Stmt} (hquiet : ∀ stmt ∈ stmts, ∀ t, stmt.rowUpdate t = t)
    (t : Trade) : stmts.foldl (fun t stmt => stmt.rowUpdate t) t = t := by
  induction stmts generalizing t with
  | nil => rfl
  | cons stmt stmts ih =>
    rw [List.foldl_cons, hquiet stmt List.mem_cons_self]
    exact ih (fun s hs => hquiet s (List.mem_cons_of_mem _ hs)) t

/-- What the second half of the transaction does to the positions: `passAccount` nothing, the others
close what they settle and cancel what is pending. -/
theorem finish_trades {s : Settling} {db db' : Db} {fx : FxSource} {stmts : List Stmt}
    (hstmts : s.statements fx = some stmts) (hexec : execAll db stmts = some db') :
    (s.kind = .passAccount ∧ db'.trades.rows = db.trades.rows) ∨
      (s.kind ≠ .passAccount ∧ ∃ closings, s.closings fx = some closings ∧
        db'.trades.rows = db.trades.rows.map fun t =>
          s.cancelPendings.rowUpdate ((Stmt.closeTrades closings s.startedAt false).rowUpdate t)) := by
  rw [execAll_trades (statements_insertNothing hstmts db) hexec]
  rcases statements_eq_some hstmts with ⟨hpass, rfl⟩ | ⟨hkind, closings, hclosings, rfl⟩
  · refine .inl ⟨hpass, ?_⟩
    exact (List.map_congr_left fun t _ => rfl).trans (List.map_id _)
  · refine .inr ⟨hkind, closings, hclosings, List.map_congr_left fun t _ => ?_⟩
    have hraise : ∀ t : Trade, (s.anchors.toList.map (Stmt.raiseAnchors s.account.id)).foldl
        (fun t stmt => stmt.rowUpdate t) t = t := by
      refine foldl_quiet fun stmt hstmt t => ?_
      obtain ⟨_, _, rfl⟩ := List.mem_map.mp hstmt
      rfl
    have hcredit : ∀ t : Trade, (s.credit closings).foldl (fun t stmt => stmt.rowUpdate t) t = t := by
      refine foldl_quiet fun stmt hstmt t => ?_
      rw [credit] at hstmt
      split at hstmt
      · cases hstmt
      · rw [List.mem_singleton] at hstmt
        rw [hstmt]
        rfl
    simp only [List.foldl_append, List.foldl_cons, List.foldl_nil, hraise, hcredit]
    rfl

theorem exists_closing {s : Settling} {db : Db} (hvalid : s.Valid db) {fx : FxSource}
    {closings : List Closing} (hclosings : s.closings fx = some closings)
    (hexpires : s.kind = .expireAccount → ∀ t ∈ s.trades, (s.prices t.instrument).isSome →
      (getUsdRateForInstrument fx t.instrument).isSome) {t : Trade} (ht : t ∈ s.trades)
    (hpriced : t.openPrice.isSome) : ∃ c ∈ closings, c.trade = t := by
  by_cases hkind : s.kind = .expireAccount
  · obtain ⟨openPrice, hopen⟩ := Option.isSome_iff_exists.mp hpriced
    have hsome : (s.expireTrade fx t).isSome := by
      rw [expireTrade]
      cases hprice : s.prices t.instrument with
      | none => rfl
      | some price =>
        have hrate := hexpires hkind t ht (by simp [hprice])
        obtain ⟨rate, hrate⟩ := Option.isSome_iff_exists.mp hrate
        simp [priceClosing, hopen, calculatePnL, hrate]
    obtain ⟨c, hc⟩ := Option.isSome_iff_exists.mp hsome
    rw [Settling.closings, hkind] at hclosings
    obtain rfl := Option.some.inj hclosings
    exact ⟨c, List.mem_filterMap.mpr ⟨t, ht, hc⟩, (expireTrade_eq_some hc).1⟩
  · have hall := (closings_eq_some hclosings fun h => (hvalid.passes h).1).2.2 hkind
    rw [← hall] at ht
    exact List.mem_map.mp ht

end Settling

/-! ### Runs -/

namespace World

/-- No order of an account with a terminal transaction in flight is filled; `passAccount` commits when
the account has no pending orders, and `expireAccount` when every position it has a price for has a
dollar rate. -/
structure SettlesAll (w : World) (a : Action) : Prop where
  fills : ∀ id, w.fillsOrder a = some id → ∀ row, w.db.trade? id = some row →
    row.status = .pending → w.accountFree row.accountId = true
  passes : ∀ s fx, w.commits a = some (s, fx) → s.kind = .passAccount →
    w.db.tradesOf s.account.id .pending = []
  expires : ∀ s fx, w.commits a = some (s, fx) → s.kind = .expireAccount → ∀ t ∈ s.trades,
    (s.prices t.instrument).isSome → (getUsdRateForInstrument fx t.instrument).isSome

instance (w : World) (a : Action) : Decidable (w.SettlesAll a) :=
  decidable_of_iff
    ((w.fillsOrder a).all (fun id => (w.db.trade? id).all fun row =>
        row.status = .pending → w.accountFree row.accountId = true) ∧
      (w.commits a).all fun p =>
        (p.1.kind = .passAccount → w.db.tradesOf p.1.account.id .pending = []) ∧
          (p.1.kind = .expireAccount → ∀ t ∈ p.1.trades, (p.1.prices t.instrument).isSome →
            (getUsdRateForInstrument p.2 t.instrument).isSome))
    ⟨fun h => by
      simp only [Option.all_eq_true, decide_eq_true_eq] at h
      exact ⟨h.1, fun s fx hc => (h.2 (s, fx) hc).1, fun s fx hc => (h.2 (s, fx) hc).2⟩,
    fun h => by
      simp only [Option.all_eq_true, decide_eq_true_eq]
      exact ⟨h.fills, fun p hc => ⟨h.passes p.1 p.2 hc, h.expires p.1 p.2 hc⟩⟩⟩

theorem Writes.liveOk {w : World} {a : Action} {stmts : List Stmt} (hwrites : w.Writes a stmts)
    (hok : w.SettlesAll a) : LiveOkAll (fun accountId => w.accountFree accountId = true) w.db stmts := by
  cases hwrites with
  | provision => exact ⟨rfl, fun _ _ => trivial⟩
  | @order a acc rows hacc hactive hfree hrows =>
    refine RunOk.of_invariant (fun db => db.account? acc.id = some acc) hacc ?_ ?_
    · intro db stmt hstmt db' hinv hexec
      obtain ⟨t, _, rfl⟩ := List.mem_map.mp hstmt
      exact Stmt.exec_account? hexec hinv
    · intro stmt hstmt db hinv
      obtain ⟨t, ht, rfl⟩ := List.mem_map.mp hstmt
      obtain ⟨haccount, hfresh⟩ := hrows t ht
      refine ⟨hfresh.priced, haccount ▸ hfree, fun acc' hacc' => ?_⟩
      rw [haccount, hinv] at hacc'
      rw [← Option.some.inj hacc', hactive]
      rfl
  | cancelStale | cancelPending | adjust => exact .of_forall (by simp [Stmt.LiveOk])
  | fill hfills hrow hpending hsiblings =>
    refine ⟨fun row hrow' => ?_, fun _ _ => .of_forall fun stmt hstmt db => ?_⟩
    · obtain rfl := Option.some.inj (hrow.symm.trans hrow')
      exact ⟨hpending, hok.fills _ hfills _ hrow hpending⟩
    · obtain ⟨cond, reason, rfl, _⟩ := hsiblings stmt hstmt
      exact trivial
  | defer hdefer =>
    refine .of_forall fun stmt hstmt db => ?_
    obtain ⟨id, level, reason, rfl⟩ := hdefer stmt hstmt
    exact trivial
  | close =>
    refine ⟨trivial, fun _ _ => .of_forall fun stmt hstmt db => ?_⟩
    obtain ⟨credit, _, rfl⟩ := List.mem_map.mp hstmt
    exact trivial
  | split => exact ⟨rfl, fun _ _ => ⟨trivial, fun _ _ => trivial⟩⟩
  | lock | restore => exact ⟨rfl, fun _ _ => trivial⟩

end World

private theorem Settling.finish_rows {settling : List Settling} {s : Settling} {db db' : Db}
    (hcovered : Covered settling db) (hs : s ∈ settling) (hvalid : s.Valid db) {fx : FxSource}
    (hpasses : s.kind = .passAccount → db.tradesOf s.account.id .pending = [])
    (hexpires : s.kind = .expireAccount → ∀ t ∈ s.trades, (s.prices t.instrument).isSome →
      (getUsdRateForInstrument fx t.instrument).isSome) {stmts : List Stmt}
    (hstmts : s.statements fx = some stmts) (hexec : execAll db stmts = some db') {t' : Trade}
    (ht' : t' ∈ db'.trades.rows) :
    ∃ t ∈ db.trades.rows, t'.id = t.id ∧ t'.accountId = t.accountId ∧
      (t'.status = .opened → t.status = .opened ∧ t'.openPrice = t.openPrice) ∧
      (t'.status = .pending → t.status = .pending) ∧
      (t.accountId = s.account.id → t'.status ≠ .opened ∧ t'.status ≠ .pending) := by
  rcases finish_trades hstmts hexec with ⟨hpass, hrows⟩ | ⟨hkind, closings, hclosings, hrows⟩
  · rw [hrows] at ht'
    refine ⟨t', ht', rfl, rfl, fun h => ⟨h, rfl⟩, fun h => h, fun haccount => ⟨fun hopen => ?_, ?_⟩⟩
    · have hread := hcovered.read s hs t' ht' haccount hopen
      rw [(hvalid.passes hpass).1] at hread
      cases hread
    · intro hpending
      have hmem := Db.mem_tradesOf.mpr ⟨ht', haccount, hpending⟩
      rw [hpasses hpass] at hmem
      cases hmem
  · rw [hrows] at ht'
    obtain ⟨t, ht, rfl⟩ := List.mem_map.mp ht'
    have hcancel := @Stmt.rowUpdate_opened_of_ne s.cancelPendings nofun
    have hclose := @Stmt.rowUpdate_opened_of_ne (.closeTrades closings s.startedAt false) nofun
    refine ⟨t, ht, by simp, by simp, fun hopen => ?_, fun hpending => ?_, fun haccount =>
      ⟨fun hopen => ?_, fun hpending => ?_⟩⟩
    · obtain ⟨hmid, hprice⟩ := hcancel hopen
      obtain ⟨hopen, hprice'⟩ := hclose hmid
      exact ⟨hopen, hprice.trans hprice'⟩
    · exact Stmt.rowUpdate_pending (Stmt.rowUpdate_pending hpending)
    · obtain ⟨hmid, _⟩ := hcancel hopen
      obtain ⟨hopen, _⟩ := hclose hmid
      obtain ⟨t₀, ht₀, hid⟩ := List.mem_map.mp (hcovered.read s hs t ht haccount hopen)
      obtain ⟨row, hrow, hheld⟩ := hvalid.held t₀ ht₀
      have hself : db.trade? t₀.id = some t := Db.trade?_eq_some.mpr ⟨ht, hid.symm⟩
      obtain rfl := Option.some.inj (hrow.symm.trans hself)
      have hlive : t₀.status ≠ .pending := by simp [(hvalid.opened t₀ ht₀).1]
      have hpriced := hcovered.priced row ht hopen
      rw [(hheld.later.opened hlive).2] at hpriced
      obtain ⟨c, hc, rfl⟩ := exists_closing hvalid hclosings hexpires ht₀ hpriced
      rw [Stmt.rowUpdate_closeTrades (hvalid.closings_nodup hclosings) hc hid] at hmid
      cases hmid
    · have hmid := Stmt.rowUpdate_pending hpending
      rw [cancelPendings, Stmt.rowUpdate, if_pos (by simp [haccount, hmid])] at hpending
      cases hpending

/-- A terminal transaction leaves its own account with nothing, and everybody else as they were. -/
theorem Settling.finish_covered {settling : List Settling} {s : Settling} {db db' : Db}
    (hcovered : Covered settling db) (hs : s ∈ settling) (hvalid : s.Valid db) {fx : FxSource}
    (hpasses : s.kind = .passAccount → db.tradesOf s.account.id .pending = [])
    (hexpires : s.kind = .expireAccount → ∀ t ∈ s.trades, (s.prices t.instrument).isSome →
      (getUsdRateForInstrument fx t.instrument).isSome) {stmts : List Stmt}
    (hstmts : s.statements fx = some stmts) (hexec : execAll db stmts = some db') :
    Covered settling db' := by
  have hrows := fun t' (ht' : t' ∈ db'.trades.rows) =>
    finish_rows hcovered hs hvalid hpasses hexpires hstmts hexec ht'
  have haccounts : ∀ acc ∈ db'.accounts.rows, acc.id ≠ s.account.id → acc ∈ db.accounts.rows :=
    fun acc hacc hne => execAll_untouched (statements_insertNothing hstmts db)
      (statements_sound hvalid hstmts) hexec hacc hne
  refine ⟨fun acc hacc hterminal => ?_, fun s' hs' t' ht' haccount hopen => ?_, fun t' ht' hopen => ?_⟩
  · rw [Db.holdsNothing_iff]
    intro t' ht' haccount
    obtain ⟨t, ht, _, hsame, hopened, hpending, hown⟩ := hrows t' ht'
    by_cases hid : acc.id = s.account.id
    · exact hown (by rw [← hsame, haccount, hid])
    · have hnone := Db.holdsNothing_iff.mp (hcovered.terminal acc (haccounts acc hacc hid) hterminal) t
        ht (hsame ▸ haccount)
      exact ⟨fun h => hnone.1 (hopened h).1, fun h => hnone.2 (hpending h)⟩
  · obtain ⟨t, ht, hid, hsame, hopened, _, _⟩ := hrows t' ht'
    rw [hid]
    exact hcovered.read s' hs' t ht (hsame ▸ haccount) (hopened hopen).1
  · obtain ⟨t, ht, _, _, hopened, _, _⟩ := hrows t' ht'
    obtain ⟨hopen, hprice⟩ := hopened hopen
    rw [hprice]
    exact hcovered.priced t ht hopen

namespace World

theorem initial_covered (models : Table StepModel) :
    Covered (World.initial models).settling (World.initial models).db := by
  constructor <;> simp [World.initial, Db.initial]

theorem step_covered {w w' : World} {a : Action} (hvalid : w.Valid)
    (hcovered : Covered w.settling w.db) (hok : w.SettlesAll a) (hstep : w.step a = some w') :
    Covered w'.settling w'.db := by
  cases step_steps hvalid hstep with
  | transact _ hwrites hexec =>
    exact run_invariant (Covered w.settling)
      (fun _ _ _ hinv hstmt hexec =>
        Stmt.exec_covered (fun s hs => not_accountFree hs) hinv hstmt hexec)
      hcovered (hwrites.liveOk hok) hexec
  | @commit fx s stmts db hs hstmts hexec =>
    have hcommits := commits_eq hvalid hs fx
    have hfinish := Settling.finish_covered hcovered hs (hvalid.settling s hs)
      (hok.passes s fx hcommits) (hok.expires s fx hcommits) hstmts hexec
    exact { hfinish with read := fun s' hs' => hfinish.read s' (mem_release.mp hs').1 }
  | @begin _ call s _ _ hbegin =>
    refine { hcovered with read := fun s' hs' t ht haccount hopen => ?_ }
    rcases List.mem_cons.mp hs' with rfl | hs'
    · obtain ⟨hacc, _, _, _, htrades, hpass⟩ := beginSettle_eq_some hbegin
      have hmem : t ∈ w.db.tradesOf call.accountId .opened :=
        Db.mem_tradesOf.mpr ⟨ht, haccount.trans (Db.account?_id hacc), hopen⟩
      by_cases hkind : call.kind = .passAccount
      · rw [(hpass hkind).2.2] at hmem
        cases hmem
      · rw [htrades hkind]
        exact List.mem_map_of_mem hmem
    · exact hcovered.read s' hs' t ht haccount hopen
  | abort => exact { hcovered with read := fun s hs => hcovered.read s (mem_release.mp hs).1 }
  | tick => exact hcovered

end World

/-! ### Dormant accounts stay dormant -/

def Db.Dormant (accountId : Nat) (db : Db) : Prop :=
  ∃ acc, db.account? accountId = some acc ∧ acc.status ≠ .active ∧ db.HoldsNothing accountId

def Stmt.LeavesDormant (accountId : Nat) (db : Db) : Stmt → Prop
  | .insertTrade t => t.accountId ≠ accountId
  | .fillTrade id _ _ => ∀ row, db.trade? id = some row → row.status = .pending
  | .splitTrade part _ _ _ => part.status = .closed
  | .setStatus id status => id = accountId → status ≠ .active
  | _ => True

theorem Stmt.exec_dormant {accountId : Nat} {db db' : Db} {stmt : Stmt}
    (hdormant : db.Dormant accountId) (hok : stmt.LeavesDormant accountId db)
    (hexec : stmt.exec db = some db') : db'.Dormant accountId := by
  obtain ⟨acc, hacc, hinactive, hnothing⟩ := hdormant
  refine ⟨_, exec_account? hexec hacc, ?_, ?_⟩
  · cases stmt with
    | setStatus id status =>
      simp only [accountUpdate]
      split
      · rename_i hid
        exact hok (hid.symm.trans (Db.account?_id hacc))
      · exact hinactive
    | creditAccount | adjustBalance | raiseAnchors =>
      simp only [accountUpdate]
      split <;> exact hinactive
    | _ => exact hinactive
  · rw [Db.holdsNothing_iff] at hnothing ⊢
    intro t' ht' haccount
    rw [exec_trades hexec] at ht'
    rcases List.mem_append.mp ht' with hnew | hold
    · cases stmt with
      | insertTrade t =>
        rw [insertedTrades, List.mem_singleton] at hnew
        exact absurd (hnew ▸ haccount) hok
      | splitTrade part c lots commission =>
        rw [insertedTrades, List.mem_singleton] at hnew
        rw [hnew, show part.status = .closed from hok]
        exact ⟨TradeStatus.noConfusion, TradeStatus.noConfusion⟩
      | _ => cases hnew
    · obtain ⟨t, ht, rfl⟩ := List.mem_map.mp hold
      rw [rowUpdate_accountId] at haccount
      obtain ⟨hopened, hpending⟩ := hnothing t ht haccount
      refine ⟨fun h => ?_, fun h => hpending (rowUpdate_pending h)⟩
      rcases rowUpdate_opened h with ⟨h, _⟩ | ⟨openPrice, now, rfl⟩
      · exact hopened h
      · exact hpending (hok t (Db.trade?_eq_some.mpr ⟨ht, rfl⟩))

namespace World

theorem Writes.leavesDormant {w : World} {a : Action} {stmts : List Stmt} {accountId : Nat}
    (hwrites : w.Writes a stmts) (hdormant : w.db.Dormant accountId)
    (hrestore : a ≠ .restoreActive accountId) :
    RunOk (fun db stmt => Stmt.exec db stmt) (Stmt.LeavesDormant accountId) w.db stmts := by
  cases hwrites with
  | provision | cancelStale | cancelPending | adjust => exact .of_forall (by simp [Stmt.LeavesDormant])
  | order hacc hactive _ hrows =>
    refine .of_forall fun stmt hstmt db => ?_
    obtain ⟨t, ht, rfl⟩ := List.mem_map.mp hstmt
    obtain ⟨dormant, hdormant, hinactive, _⟩ := hdormant
    intro haccount
    rw [← haccount, (hrows t ht).1, hacc] at hdormant
    exact hinactive (Option.some.inj hdormant ▸ hactive)
  | fill _ hrow hpending hsiblings =>
    refine ⟨fun row hrow' => ?_, fun _ _ => .of_forall fun stmt hstmt db => ?_⟩
    · exact Option.some.inj (hrow.symm.trans hrow') ▸ hpending
    · obtain ⟨cond, reason, rfl, _⟩ := hsiblings stmt hstmt
      exact trivial
  | defer hdefer =>
    refine .of_forall fun stmt hstmt db => ?_
    obtain ⟨id, level, reason, rfl⟩ := hdefer stmt hstmt
    exact trivial
  | close =>
    refine ⟨trivial, fun _ _ => .of_forall fun stmt hstmt db => ?_⟩
    obtain ⟨credit, _, rfl⟩ := List.mem_map.mp hstmt
    exact trivial
  | split => exact ⟨rfl, fun _ _ => ⟨trivial, fun _ _ => trivial⟩⟩
  | lock => exact ⟨fun _ => AccountStatus.noConfusion, fun _ _ => trivial⟩
  | restore => exact ⟨fun hid => absurd (hid ▸ rfl) hrestore, fun _ _ => trivial⟩

theorem step_dormant {w w' : World} {a : Action} {accountId : Nat} (hvalid : w.Valid)
    (hdormant : w.db.Dormant accountId) (hrestore : a ≠ .restoreActive accountId)
    (hstep : w.step a = some w') : w'.db.Dormant accountId := by
  cases step_steps hvalid hstep with
  | transact _ hwrites hexec =>
    exact run_invariant (Db.Dormant accountId)
      (fun _ _ _ hinv hstmt hexec => Stmt.exec_dormant hinv hstmt hexec)
      hdormant (hwrites.leavesDormant hdormant hrestore) hexec
  | @commit fx s stmts db hs hstmts hexec =>
    have hread := hvalid.settling s hs
    have hother : s.account.id ≠ accountId := by
      rintro rfl
      obtain ⟨acc, hacc, hinactive, _⟩ := hdormant
      rw [hread.account] at hacc
      exact hinactive (Option.some.inj hacc ▸ hread.active)
    exact run_invariant (Db.Dormant accountId)
      (fun _ _ _ hinv hstmt hexec => Stmt.exec_dormant hinv hstmt hexec) hdormant
      (Settling.statements_runOk hstmts (fun _ _ _ _ _ => trivial) (fun _ => trivial)
        (fun _ _ => trivial) (fun _ _ => trivial) (fun _ _ hid => absurd hid hother)) hexec
  | begin | abort | tick => exact hdormant

/-- Where no order is filled under a terminal transaction, no pending order outlives `passAccount` and
`expireAccount` can price what it settles, an account that has ended holds nothing, now and until an
admin restores it. -/
theorem reached_terminal_holdsNothing {models : Table StepModel} {w w' : World} {as : List Action}
    {acc : Account} (hreach : Reached models SettlesAll w) (hacc : acc ∈ w.db.accounts.rows)
    (hterminal : acc.status.terminal = true) (hrestore : .restoreActive acc.id ∉ as)
    (hrun : run step w as = some w') : w'.db.HoldsNothing acc.id := by
  have hcovered : Covered w.settling w.db :=
    Reach.invariant_relative Reached.valid
      (by rintro _ rfl; exact initial_covered models)
      (fun _ _ _ hvalid hinv hok hstep => step_covered hvalid hinv hok hstep) hreach
  have hdormant : w.db.Dormant acc.id := by
    refine ⟨acc, Db.account?_eq_some.mpr ⟨hacc, rfl⟩, ?_, hcovered.terminal acc hacc hterminal⟩
    intro hactive
    rw [hactive] at hterminal
    cases hterminal
  obtain ⟨_, _, _, hnothing⟩ := (run_invariant (fun w => w.Valid ∧ w.db.Dormant acc.id)
    (fun _ _ _ hinv hne hstep =>
      ⟨step_valid hinv.1 hstep, step_dormant hinv.1 hinv.2 hne hstep⟩) ⟨hreach.valid, hdormant⟩
    (.of_forall fun a ha _ => fun h => hrestore (h ▸ ha)) hrun).2
  exact hnothing

/-- A position is liquidated and a pending order cancelled as the account fails. -/
def failedWithOrders : List Action :=
  [.provision sampleTerms 1, .openTrade sampleOrder 1 (11 / 10),
    .placePendingOrder sampleOrder ⟨2, .buy, .buyLimit, 21 / 20⟩ none,
    .beginSettle .autoCloseAndFail 1 (fun _ => some (quoteAt 1)), .commitSettle 1 noConversion]

theorem reached_terminal_holdsNothing_failed :
    ∃ w w', run step (World.initial Table.empty) failedWithOrders = some w ∧
      run step w [.tick 60, .weekendCancel 2] = some w' ∧ w'.db.HoldsNothing 1 ∧
      w'.db.trades.rows.length = 2 := by
  obtain ⟨w, hw, hcheck⟩ := exists_of_run_any step (World.initial Table.empty) failedWithOrders
    (fun w => (w.db.account? 1).any (fun acc => acc.status.terminal = true) ∧
      (run step w [.tick 60, .weekendCancel 2]).any fun w' => w'.db.trades.rows.length = 2)
    (by decide +kernel)
  obtain ⟨hended, hrest⟩ := of_decide_eq_true hcheck
  obtain ⟨w', hw', hlength⟩ := exists_of_run_any _ _ _ _ hrest
  rw [Option.any_eq_true] at hended
  obtain ⟨acc, hacc, hterminal⟩ := hended
  obtain ⟨hmem, hid⟩ := Db.account?_eq_some.mp hacc
  have hreach : Reached Table.empty SettlesAll w := .of_run (.init rfl) (by decide +kernel) hw
  have hnothing := reached_terminal_holdsNothing hreach hmem (of_decide_eq_true hterminal)
    (by simp) hw'
  exact ⟨w, w', hw, hw', hid ▸ hnothing, of_decide_eq_true hlength⟩

/-- An order is filled between the two halves of the account's failure. -/
def filledWhileFailing : List Action :=
  [.provision sampleTerms 1, .placePendingOrder sampleOrder ⟨1, .buy, .buyLimit, 11 / 10⟩ none,
    .beginSettle .autoCloseAndFail 1 (fun _ => some (quoteAt 1)),
    .fillTriggeredPendingOrder 0 0 1 (quoteAt 1) (quoteAt 1) 50, .commitSettle 1 noConversion]

/-- An account passes with a pending order in place. -/
def passedWithOrder : List Action :=
  [.provision { sampleTerms with profitTarget := 100 } 1, .openTrade sampleOrder 1 (11 / 10),
    .forceCloseTradeById 1 (some (quoteAt (111 / 100))),
    .placePendingOrder sampleOrder ⟨2, .buy, .buyLimit, 21 / 20⟩ none,
    .processAccount idlePlatform none 0 0 0 0 0 1, .commitSettle 1 noConversion]

/-- An account expires with a yen position while the dollar rate of the yen is unavailable. -/
def expiredWithoutRate : List Action :=
  [.provision sampleTerms 1, .openTrade { sampleOrder with instrument := .gbpjpy } 1 190,
    .beginSettle .expireAccount 1 (fun _ => some (quoteAt 191)),
    .commitSettle 1 ⟨true, 39 / 5, fun _ => none⟩]

def EndsHolding (trace : List Action) : Prop :=
  ∃ w acc, run step (World.initial Table.empty) trace = some w ∧ acc ∈ w.db.accounts.rows ∧
    acc.status.terminal = true ∧ ¬ w.db.HoldsNothing acc.id

private theorem endsHolding_of_any {trace : List Action} {accountId : Nat}
    (htest : (run step (World.initial Table.empty) trace).any (fun w =>
      (w.db.account? accountId).any fun acc =>
        acc.status.terminal = true ∧ ¬ w.db.HoldsNothing acc.id) = true) : EndsHolding trace := by
  obtain ⟨w, hw, hcheck⟩ := exists_of_run_any _ _ _ _ htest
  rw [Option.any_eq_true] at hcheck
  obtain ⟨acc, hacc, hcheck⟩ := hcheck
  obtain ⟨hterminal, hheld⟩ := of_decide_eq_true hcheck
  exact ⟨w, acc, hw, (Db.account?_eq_some.mp hacc).1, hterminal, hheld⟩

theorem terminal_holds_trades :
    EndsHolding filledWhileFailing ∧ EndsHolding passedWithOrder ∧ EndsHolding expiredWithoutRate :=
  ⟨@endsHolding_of_any _ 1 (by decide +kernel), @endsHolding_of_any _ 1 (by decide +kernel),
    @endsHolding_of_any _ 1 (by decide +kernel)⟩

end World

end PropFirm
