import PropFirm.TradeRuns

/-!
# The pass gate

An account may pass once its settled balance has reached the target on enough qualifying trading days
with no day taking too large a share of the profit. `processAccount` checks all three, but on reads
that `passAccount` does not repeat under its lock, apart from the target. `autoCloseAndPass`, called by
the interval and the event path, checks none of them: it settles whatever the account holds by then, at
whatever prices it has by then, on the strength of a floating equity found earlier.
-/

namespace PropFirm

open Transition

/-- The pass rules `processAccount` enforces. -/
def Account.MayPass (acc : Account) (closed : List Trade) : Prop :=
  acc.tradingDaysMet closed = true ∧ acc.consistencyMet closed = true ∧ acc.targetReached = true

instance (acc : Account) (closed : List Trade) : Decidable (acc.MayPass closed) :=
  inferInstanceAs (Decidable (_ ∧ _ ∧ _))

def Account.hasDaysRule (acc : Account) : Bool := 0 < acc.minTradingDays.getD 0

def Account.hasConsistencyRule (acc : Account) : Bool := acc.consistencyMaxDayPct.any (0 < ·)

/-! ### The terms of an account never change -/

namespace Account

def terms (acc : Account) : AccountTerms where
  accountType := acc.accountType
  challengeModelSlug := acc.challengeModelSlug
  startingBalance := acc.startingBalance
  profitTarget := acc.profitTarget
  maxDrawdownPct := acc.maxDrawdownPct
  dailyDrawdownPct := acc.dailyDrawdownPct
  minTradingDays := acc.minTradingDays
  minDailyProfitPct := acc.minDailyProfitPct
  consistencyMaxDayPct := acc.consistencyMaxDayPct
  phaseEndDate := acc.phaseEndDate

variable {acc row : Account}

theorem rules_of_terms (hterms : acc.terms = row.terms) :
    acc.startingBalance = row.startingBalance ∧ acc.profitTarget = row.profitTarget ∧
      acc.minTradingDays = row.minTradingDays ∧ acc.minDailyProfitPct = row.minDailyProfitPct ∧
      acc.consistencyMaxDayPct = row.consistencyMaxDayPct := by
  simp only [terms, AccountTerms.mk.injEq] at hterms
  obtain ⟨_, _, hstart, htarget, _, _, hdays, hdaily, hconsistency, _⟩ := hterms
  exact ⟨hstart, htarget, hdays, hdaily, hconsistency⟩

theorem effectiveProfitTarget_of_terms (hterms : acc.terms = row.terms) :
    acc.effectiveProfitTarget = row.effectiveProfitTarget := by
  obtain ⟨hstart, htarget, _⟩ := rules_of_terms hterms
  rw [effectiveProfitTarget, effectiveProfitTarget, hstart, htarget]

theorem targetReachedBy_of_terms (hterms : acc.terms = row.terms) (equity : Cents) :
    acc.targetReachedBy equity = row.targetReachedBy equity := by
  rw [targetReachedBy, targetReachedBy, effectiveProfitTarget_of_terms hterms,
    (rules_of_terms hterms).1]

theorem tradingDaysMet_of_terms (hterms : acc.terms = row.terms) (closed : List Trade) :
    acc.tradingDaysMet closed = row.tradingDaysMet closed := by
  obtain ⟨hstart, _, hdays, hdaily, _⟩ := rules_of_terms hterms
  rw [tradingDaysMet, tradingDaysMet, hstart, hdays, hdaily]

theorem consistencyMet_of_terms (hterms : acc.terms = row.terms)
    (hbalance : acc.currentBalance = row.currentBalance) (closed : List Trade) :
    acc.consistencyMet closed = row.consistencyMet closed := by
  obtain ⟨hstart, _, _, _, hconsistency⟩ := rules_of_terms hterms
  rw [consistencyMet, consistencyMet, realisedProfit, realisedProfit, hstart, hbalance, hconsistency]

theorem targetReachedBy_mono {equity higher : Cents} (hreached : acc.targetReachedBy equity = true)
    (hle : equity ≤ higher) : acc.targetReachedBy higher = true := by
  have hreached := of_decide_eq_true hreached
  refine decide_eq_true (hreached.trans ?_)
  rw [Cents.dollars_le]
  exact sub_le_sub_right hle acc.startingBalance

theorem tradingDaysMet_of_no_rule (hnone : acc.hasDaysRule = false) (closed : List Trade) :
    acc.tradingDaysMet closed = true :=
  decide_eq_true (.inl (not_lt.mp (of_decide_eq_false hnone)))

theorem consistencyMet_of_no_rule (hnone : acc.hasConsistencyRule = false) (closed : List Trade) :
    acc.consistencyMet closed = true := by
  unfold consistencyMet
  split
  · rfl
  · rename_i pct hpct
    rw [hasConsistencyRule, hpct, Option.any_some, decide_eq_false_iff_not, not_lt] at hnone
    exact decide_eq_true (.inl hnone)

theorem targetReached_of_terms (hterms : acc.terms = row.terms)
    (hbalance : acc.currentBalance = row.currentBalance) : acc.targetReached = row.targetReached :=
  (targetReachedBy_of_terms hterms _).trans (congrArg row.targetReachedBy hbalance)

end Account

theorem Stmt.accountUpdate_terms (stmt : Stmt) (acc : Account) :
    (stmt.accountUpdate acc).terms = acc.terms := by
  cases stmt with
  | creditAccount | adjustBalance | setStatus | raiseAnchors =>
    simp only [accountUpdate]
    split <;> rfl
  | _ => rfl

theorem foldl_accountUpdate_terms (stmts : List Stmt) (acc : Account) :
    (stmts.foldl (fun acc stmt => stmt.accountUpdate acc) acc).terms = acc.terms := by
  induction stmts generalizing acc with
  | nil => rfl
  | cons stmt stmts ih => rw [List.foldl_cons, ih, Stmt.accountUpdate_terms]

namespace World

/-- Every account of every earlier state is still there, on the same terms. -/
def HistoryTerms (w : World) : Prop :=
  ∀ db ∈ w.history, ∀ acc ∈ db.accounts.rows,
    ∃ row, w.db.account? acc.id = some row ∧ row.terms = acc.terms

theorem advance_historyTerms {w : World} (hhistory : w.HistoryTerms) {stmts : List Stmt} {db : Db}
    (hexec : execAll w.db stmts = some db) : (w.advance db).HistoryTerms := by
  intro old hold acc hacc
  rcases List.mem_cons.mp hold with rfl | hold
  · exact ⟨acc, Db.account?_eq_some.mpr ⟨hacc, rfl⟩, rfl⟩
  · obtain ⟨row, hrow, hterms⟩ := hhistory old hold acc hacc
    exact ⟨_, Stmt.execAll_account? hexec hrow, (foldl_accountUpdate_terms stmts row).trans hterms⟩

theorem step_historyTerms {w w' : World} {a : Action} (hvalid : w.Valid) (hhistory : w.HistoryTerms)
    (hstep : w.step a = some w') : w'.HistoryTerms := by
  cases step_steps hvalid hstep with
  | transact _ _ hexec => exact advance_historyTerms hhistory hexec
  | commit _ _ hexec => exact advance_historyTerms hhistory hexec
  | begin | abort | tick => exact hhistory

theorem HistoryTerms.seen {w : World} (hhistory : w.HistoryTerms) {asOf accountId : Nat} {seen : Db}
    {acc row : Account} (hseen : w.seen asOf = some seen) (hacc : seen.account? accountId = some acc)
    (hrow : w.db.account? accountId = some row) : acc.terms = row.terms := by
  obtain ⟨hmem, rfl⟩ := Db.account?_eq_some.mp hacc
  obtain ⟨row', hrow', hterms⟩ := hhistory seen (List.mem_of_getElem? hseen) acc hmem
  rw [← hterms, Option.some.inj (hrow'.symm.trans hrow)]

end World

/-! ### What a pass goes by -/

/-- The finding of a pass bears out the rules its caller checks, on the terms of the given account. -/
def Finding.Supports (finding : Finding) (kind : SettleKind) (acc : Account) : Prop :=
  (kind = .autoCloseAndPass → ∃ equity, finding = .floatingTarget equity ∧
    acc.targetReachedBy equity = true) ∧
  (kind = .passAccount → ∃ balance daysRead bestDayRead,
    finding = .settledTarget balance daysRead bestDayRead ∧ acc.tradingDaysMet daysRead = true ∧
      { acc with currentBalance := balance }.consistencyMet bestDayRead = true)

namespace World

theorem calls_supports {w : World} (hhistory : w.HistoryTerms) {a : Action} {call : SettleCall}
    (hcall : w.calls a = some call) {row : Account} (hrow : w.db.account? call.accountId = some row) :
    call.finding.Supports call.kind row := by
  cases a with
  | beginSettle kind accountId prices =>
    simp only [calls] at hcall
    split at hcall
    · cases hcall
    · rename_i hstatus
      cases hcall
      refine ⟨fun hkind => ?_, fun hkind => ?_⟩ <;> exact absurd (congrArg SettleKind.status hkind) hstatus
  | checkFloatingDrawdown asOf todayAsOf accountId market prices =>
    simp only [calls, checkFloatingDrawdownCall, Option.bind_eq_bind, Option.bind_eq_some_iff,
      Option.guard_eq_some', exists_const, Option.some.injEq] at hcall
    obtain ⟨seen, hseen, _, _, acc, hacc, _, hpass, rfl⟩ := hcall
    refine ⟨fun _ => ⟨_, rfl, ?_⟩, fun hkind => by cases hkind⟩
    rw [← Account.targetReachedBy_of_terms (hhistory.seen hseen hacc hrow)]
    exact checkFloatingDrawdown_pass hpass
  | settleAccountOutcomes entryAsOf accountAsOf tradesAsOf accountId market prices =>
    simp only [calls, settleAccountOutcomesCall, Option.bind_eq_bind, Option.bind_eq_some_iff,
      Option.guard_eq_some', exists_const, Option.some.injEq] at hcall
    obtain ⟨seenEntry, hseenEntry, seenAccount, hseenAccount, _, _, entryRow, hentryRow, acc, hacc, _,
      hpass, rfl⟩ := hcall
    refine ⟨fun _ => ⟨_, rfl, ?_⟩, fun hkind => by cases hkind⟩
    have hentry := hhistory.seen hseenEntry hentryRow hrow
    have hterms := hhistory.seen hseenAccount hacc hrow
    simp only [settleAccountOutcome] at hpass
    split at hpass
    · rename_i hreached
      rw [Account.effectiveProfitTarget_of_terms hentry, (Account.rules_of_terms hterms).1] at hreached
      exact decide_eq_true hreached
    · cases hpass
  | processAccount platform lastActivityAt accountAsOf todayAsOf openAsOf daysAsOf bestDayAsOf
      accountId =>
    simp only [calls, processAccountCall, Option.bind_eq_bind, Option.bind_eq_some_iff,
      Option.guard_eq_some', exists_const, Option.some.injEq] at hcall
    obtain ⟨seen, hseen, _, _, _, _, _, _, _, _, acc, hacc, _, hpass, rfl⟩ := hcall
    have hterms := hhistory.seen hseen hacc hrow
    obtain ⟨_, hdays, hconsistency⟩ := processAccount_pass hpass
    refine ⟨fun hkind => (by cases hkind), fun _ => ⟨_, _, _, rfl, ?_, ?_⟩⟩
    · rwa [← Account.tradingDaysMet_of_terms hterms]
    · refine (Account.consistencyMet_of_terms ?_ ?_ _).symm.trans hconsistency
      · exact hterms
      · rfl
  | _ => cases hcall

/-- Every pass in flight has a finding that supports it. -/
def Supported (w : World) : Prop := ∀ s ∈ w.settling, s.finding.Supports s.kind s.account

theorem step_supported {w w' : World} {a : Action} (hvalid : w.Valid) (hhistory : w.HistoryTerms)
    (hsupported : w.Supported) (hstep : w.step a = some w') : w'.Supported := by
  intro s hs
  cases step_steps hvalid hstep with
  | transact | tick => exact hsupported s hs
  | commit | abort => exact hsupported s (mem_release.mp hs).1
  | begin hcall _ hbegin =>
    rcases List.mem_cons.mp hs with rfl | hs
    · obtain ⟨hacc, _, hkind, hfinding, _⟩ := beginSettle_eq_some hbegin
      rw [hkind, hfinding]
      exact calls_supports hhistory hcall hacc
    · exact hsupported s hs

theorem Reached.supported {models : Table StepModel} {ok : World → Action → Prop} {w : World}
    (hreach : Reached models ok w) : w.Supported := by
  have hinv : w.HistoryTerms ∧ w.Supported := by
    refine @Reach.invariant_relative _ _ _ _ _ _ (fun w => w.HistoryTerms ∧ w.Supported)
      Reached.valid ?_ ?_ _ hreach
    · rintro _ rfl
      simp [HistoryTerms, Supported, World.initial, Db.initial]
    · intro _ _ _ hvalid hinv _ hstep
      exact ⟨step_historyTerms hvalid hinv.1 hstep, step_supported hvalid hinv.1 hinv.2 hstep⟩
  exact hinv.2

end World

/-! ### Passes -/

theorem SettleKind.eq_autoCloseAndPass {kind : SettleKind} (hstatus : kind.status = .passed)
    (hne : kind ≠ .passAccount) : kind = .autoCloseAndPass := by
  cases kind with
  | autoCloseAndPass => rfl
  | passAccount => exact absurd rfl hne
  | _ => cases hstatus

namespace Settling

/-- What the transaction commits is what its caller found. A pass on floating equity is of an account
without history rules, and the balance and positions it settles are worth what its caller saw or more.
A pass on the settled balance finds the closed rows its caller counted days on, where the account's
model asks for days, and the balance and closed rows its caller checked the consistency rule on, where
there is one. -/
def AsFound (s : Settling) (fx : FxSource) (db : Db) : Prop :=
  match s.finding with
  | .unrecorded => True
  | .floatingTarget equity =>
    s.account.hasDaysRule = false ∧ s.account.hasConsistencyRule = false ∧
      equity ≤ s.account.equity ⟨s.prices, fx⟩ s.trades
  | .settledTarget balance daysRead bestDayRead =>
    (s.account.hasDaysRule = true → db.closedTrades s.account.id = daysRead) ∧
      (s.account.hasConsistencyRule = true →
        s.account.currentBalance = balance ∧ db.closedTrades s.account.id = bestDayRead)

instance (s : Settling) (fx : FxSource) (db : Db) : Decidable (s.AsFound fx db) :=
  match hfinding : s.finding with
  | .unrecorded => .isTrue (by simp [AsFound, hfinding])
  | .floatingTarget equity =>
    decidable_of_iff (s.account.hasDaysRule = false ∧ s.account.hasConsistencyRule = false ∧
      equity ≤ s.account.equity ⟨s.prices, fx⟩ s.trades) (by simp [AsFound, hfinding])
  | .settledTarget balance daysRead bestDayRead =>
    decidable_of_iff ((s.account.hasDaysRule = true → db.closedTrades s.account.id = daysRead) ∧
      (s.account.hasConsistencyRule = true →
        s.account.currentBalance = balance ∧ db.closedTrades s.account.id = bestDayRead))
      (by simp [AsFound, hfinding])

end Settling

namespace World

def PassesAsFound (w : World) (a : Action) : Prop :=
  ∀ s fx, w.commits a = some (s, fx) → s.AsFound fx w.db

instance (w : World) (a : Action) : Decidable (w.PassesAsFound a) :=
  decidable_of_iff ((w.commits a).all fun p => p.1.AsFound p.2 w.db)
    ⟨fun h s fx hc => by simpa [hc] using h,
      fun h => by
        rw [Option.all_eq_true]
        exact fun p hc => decide_eq_true (h p.1 p.2 hc)⟩

def PassesByRules (w w' : World) : Prop :=
  ∀ accountId acc acc', w.db.account? accountId = some acc → acc.status = .active →
    w'.db.account? accountId = some acc' → acc'.status = .passed →
      acc'.MayPass (w'.db.closedTrades accountId)

theorem Writes.passesNobody {w : World} {a : Action} {stmts : List Stmt} (hwrites : w.Writes a stmts) :
    ∀ stmt ∈ stmts, ∀ id, stmt ≠ .setStatus id .passed := by
  intro stmt hstmt id
  cases hwrites with
  | provision | cancelStale | cancelPending | adjust | lock | restore =>
    rw [List.mem_singleton] at hstmt
    exact hstmt ▸ nofun
  | order =>
    obtain ⟨_, _, rfl⟩ := List.mem_map.mp hstmt
    exact nofun
  | fill _ _ _ hsiblings =>
    rcases List.mem_cons.mp hstmt with rfl | hstmt
    · exact nofun
    · obtain ⟨_, _, rfl, _⟩ := hsiblings stmt hstmt
      exact nofun
  | defer hdefer =>
    obtain ⟨_, _, _, rfl⟩ := hdefer stmt hstmt
    exact nofun
  | close =>
    rcases List.mem_cons.mp hstmt with rfl | hstmt
    · exact nofun
    · obtain ⟨_, _, rfl⟩ := List.mem_map.mp hstmt
      exact nofun
  | split =>
    simp only [List.mem_cons, List.not_mem_nil, or_false] at hstmt
    rcases hstmt with rfl | rfl <;> exact nofun

private theorem transact_not_passed {stmts : List Stmt} {db db' : Db}
    (hnobody : ∀ stmt ∈ stmts, ∀ id, stmt ≠ .setStatus id .passed) (hexec : execAll db stmts = some db')
    {accountId : Nat} {acc acc' : Account} (hacc : db.account? accountId = some acc)
    (hactive : acc.status = .active) (hacc' : db'.account? accountId = some acc') :
    acc'.status ≠ .passed := by
  rw [Stmt.execAll_account? hexec hacc, Option.some.injEq] at hacc'
  subst hacc'
  have hne : acc.status ≠ .passed := by simp [hactive]
  clear hexec hacc hactive
  induction stmts generalizing acc with
  | nil => exact hne
  | cons stmt stmts ih =>
    refine ih (fun s hs => hnobody s (List.mem_cons_of_mem _ hs)) ?_
    cases stmt with
    | setStatus id status =>
      have hstatus : status ≠ .passed := fun h => hnobody _ List.mem_cons_self id (h ▸ rfl)
      simp only [Stmt.accountUpdate]
      split
      · exact hstatus
      · exact hne
    | creditAccount | adjustBalance | raiseAnchors =>
      simp only [Stmt.accountUpdate]
      split <;> exact hne
    | _ => exact hne

private theorem commit_account?_other {s : Settling} {db db' : Db} (hvalid : s.Valid db) {fx : FxSource}
    {stmts : List Stmt} (hstmts : s.statements fx = some stmts) (hexec : execAll db stmts = some db')
    {acc : Account} (hacc : db.account? acc.id = some acc) (hother : acc.id ≠ s.account.id) :
    db'.account? acc.id = some acc :=
  run_invariant (fun db => db.account? acc.id = some acc)
    (fun _ _ _ hacc hsound hexec =>
      @Stmt.exec_account?_untouched (· = s.account.id) _ _ _ hsound hexec _ hacc hother)
    hacc (Settling.statements_sound hvalid hstmts) hexec

/-- `passAccount` writes the status and nothing else: balance and closed rows are those of the lock. -/
private theorem settledPass_mayPass {w : World} {s : Settling} (hread : s.Valid w.db) {fx : FxSource}
    (hfound : s.AsFound fx w.db) (hsupported : s.finding.Supports s.kind s.account)
    (hkind : s.kind = .passAccount) {acc' : Account} (hterms : acc'.terms = s.account.terms)
    (hbalance : acc'.currentBalance = s.account.currentBalance) :
    acc'.MayPass (w.db.closedTrades s.account.id) := by
  obtain ⟨balance, daysRead, bestDayRead, hfinding, hdays, hconsistency⟩ := hsupported.2 hkind
  rw [Settling.AsFound, hfinding] at hfound
  obtain ⟨hdaysRead, hbestDayRead⟩ := hfound
  refine ⟨?_, ?_, ?_⟩
  · rw [Account.tradingDaysMet_of_terms hterms]
    cases hrule : s.account.hasDaysRule with
    | false => exact Account.tradingDaysMet_of_no_rule hrule _
    | true => rwa [hdaysRead hrule]
  · rw [Account.consistencyMet_of_terms hterms hbalance]
    cases hrule : s.account.hasConsistencyRule with
    | false => exact Account.consistencyMet_of_no_rule hrule _
    | true =>
      obtain ⟨hsame, hrows⟩ := hbestDayRead hrule
      rw [← hsame] at hconsistency
      rwa [hrows]
  · rw [Account.targetReached_of_terms hterms hbalance]
    exact (hread.passes hkind).2

/-- `autoCloseAndPass` leaves the account with what its positions are worth under the lock. -/
private theorem floatingPass_mayPass {s : Settling} {fx : FxSource} {db : Db}
    (hfound : s.AsFound fx db) (hsupported : s.finding.Supports s.kind s.account)
    (hkind : s.kind = .autoCloseAndPass) {acc' : Account} (hterms : acc'.terms = s.account.terms)
    (hbalance : acc'.currentBalance = s.account.equity ⟨s.prices, fx⟩ s.trades) (closed : List Trade) :
    acc'.MayPass closed := by
  obtain ⟨equity, hfinding, htarget⟩ := hsupported.1 hkind
  rw [Settling.AsFound, hfinding] at hfound
  obtain ⟨hdays, hconsistency, hworth⟩ := hfound
  refine ⟨?_, ?_, ?_⟩
  · rw [Account.tradingDaysMet_of_terms hterms]
    exact Account.tradingDaysMet_of_no_rule hdays _
  · refine Account.consistencyMet_of_no_rule ?_ _
    rwa [Account.hasConsistencyRule, (Account.rules_of_terms hterms).2.2.2.2]
  · have hreached := Account.targetReachedBy_mono htarget hworth
    rw [← hbalance, ← Account.targetReachedBy_of_terms hterms] at hreached
    exact hreached

private theorem commit_mayPass {w : World} (hvalid : w.Valid) (hsupported : w.Supported) {s : Settling}
    (hs : s ∈ w.settling) {fx : FxSource} (hok : w.PassesAsFound (.commitSettle s.account.id fx))
    {stmts : List Stmt} (hstmts : s.statements fx = some stmts) {db : Db}
    (hexec : execAll w.db stmts = some db) {acc' : Account}
    (hacc' : db.account? s.account.id = some acc') (hpassed : acc'.status = .passed) :
    acc'.MayPass (db.closedTrades s.account.id) := by
  have hread := hvalid.settling s hs
  have hfound := hok s fx (commits_eq hvalid hs fx)
  obtain ⟨hstatus, hshape⟩ := Settling.statements_account hstmts
  have hrow := Stmt.execAll_account? hexec hread.account
  rw [hacc', Option.some.injEq] at hrow
  have hterms : acc'.terms = s.account.terms := hrow ▸ foldl_accountUpdate_terms stmts s.account
  rw [← hrow] at hstatus hshape
  rcases hshape with ⟨hkind, rfl⟩ | ⟨hkind, closings, hclosings, hbalance⟩
  · have hclosed : db.closedTrades s.account.id = w.db.closedTrades s.account.id := by
      cases hexec
      rfl
    have hbalance : acc'.currentBalance = s.account.currentBalance := by
      rw [hrow]
      simp [Stmt.accountUpdate, Account.withStatus]
    rw [hclosed]
    exact settledPass_mayPass hread hfound (hsupported s hs) hkind hterms hbalance
  · have hpass := SettleKind.eq_autoCloseAndPass (hstatus.symm.trans hpassed) hkind
    rw [Settling.closings, hpass] at hclosings
    have hsettled : Settling.totalPnl closings = floatingPnl ⟨s.prices, fx⟩ s.trades :=
      totalPnl_eq_floatingPnl hclosings
    have hequity : acc'.currentBalance = s.account.equity ⟨s.prices, fx⟩ s.trades := by
      rw [hbalance, hsettled, Account.equity]
    exact floatingPass_mayPass hfound (hsupported s hs) hpass hterms hequity _

/-- In a run whose passes commit on what their callers found, whoever passes satisfies the pass
rules. -/
theorem reached_passesByRules {models : Table StepModel} {w w' : World} {a : Action}
    (hreach : Reached models PassesAsFound w) (hok : w.PassesAsFound a) (hstep : w.step a = some w') :
    PassesByRules w w' := by
  intro accountId acc acc' hacc hactive hacc' hpassed
  have hvalid := hreach.valid
  obtain rfl := Db.account?_id hacc
  cases step_steps hvalid hstep with
  | transact _ hwrites hexec =>
    exact absurd hpassed (transact_not_passed hwrites.passesNobody hexec hacc hactive hacc')
  | @commit _ s _ _ hs hstmts hexec =>
    by_cases hid : acc.id = s.account.id
    · rw [hid] at hacc' ⊢
      exact commit_mayPass hvalid hreach.supported hs hok hstmts hexec hacc' hpassed
    · have hsame := commit_account?_other (hvalid.settling _ hs) hstmts hexec hacc hid
      obtain rfl := Option.some.inj (hsame.symm.trans hacc')
      rw [hactive] at hpassed
      cases hpassed
  | begin | abort | tick =>
    obtain rfl := Option.some.inj (hacc.symm.trans hacc')
    rw [hactive] at hpassed
    cases hpassed

/-- One day with more than 5% profit, which is all the model asks for, and a balance past the target. -/
def targetMet : List Action :=
  [.provision { sampleTerms with
      minTradingDays := some 1, minDailyProfitPct := some 5, consistencyMaxDayPct := some 100 } 1,
    .openTrade sampleOrder 1 (11 / 10), .forceCloseTradeById 1 (some (quoteAt (111 / 100))),
    .processAccount idlePlatform none 0 0 0 0 0 1]

theorem reached_passesByRules_targetMet :
    ∃ w w', run step (World.initial Table.empty) targetMet = some w ∧
      w.step (.commitSettle 1 noConversion) = some w' ∧ PassesByRules w w' ∧
      (w.db.account? 1).map Account.status = some .active ∧
      (w'.db.account? 1).map Account.status = some .passed := by
  obtain ⟨w, hw, hcheck⟩ := exists_of_run_any step (World.initial Table.empty) targetMet
    (fun w => w.PassesAsFound (.commitSettle 1 noConversion) ∧
      (w.db.account? 1).map Account.status = some .active ∧
      (run step w [.commitSettle 1 noConversion]).any fun w' =>
        (w'.db.account? 1).map Account.status = some .passed)
    (by decide +kernel)
  obtain ⟨hok, hactive, hrest⟩ := of_decide_eq_true hcheck
  obtain ⟨w', hw', hpassed⟩ := exists_of_run_any _ _ _ _ hrest
  have hstep : w.step (.commitSettle 1 noConversion) = some w' := by simpa [run] using hw'
  have hreach : Reached Table.empty PassesAsFound w := .of_run (.init rfl) (by decide +kernel) hw
  exact ⟨w, w', hw, hstep, reached_passesByRules hreach hok hstep, hactive, of_decide_eq_true hpassed⟩

/-- The interval path passes an account on its first trading day of five. -/
def passedEarly : List Action :=
  [.provision { sampleTerms with minTradingDays := some 5 } 1, .openTrade sampleOrder 1 (11 / 10),
    .checkFloatingDrawdown 0 0 1 ⟨quotedAt (111 / 100), noConversion⟩ (quotedAt (111 / 100))]

/-- The event path passes an account whose whole profit comes from one position. -/
def passedOnOneDay : List Action :=
  [.provision { sampleTerms with consistencyMaxDayPct := some 40 } 1,
    .openTrade sampleOrder 1 (11 / 10),
    .settleAccountOutcomes 0 0 0 1 ⟨quotedAt (111 / 100), noConversion⟩ (quotedAt (111 / 100))]

/-- The price falls back between the check and the settlement. -/
def passedShort : List Action :=
  [.provision sampleTerms 1, .openTrade sampleOrder 1 (11 / 10),
    .checkFloatingDrawdown 0 0 1 ⟨quotedAt (111 / 100), noConversion⟩ (quotedAt (11 / 10))]

/-- `processAccount` reads a winning day. A loss of the same day, closed before `passAccount` takes the
lock, leaves the target reached and the day short of 5%. -/
def passedOnLostDay : List Action :=
  [.provision { sampleTerms with
      profitTarget := 30000, minTradingDays := some 1, minDailyProfitPct := some 5 } 1,
    .openTrade sampleOrder 1 (11 / 10), .forceCloseTradeById 1 (some (quoteAt (111 / 100))),
    .openTrade sampleOrder 2 (11 / 10), .forceCloseTradeById 2 (some (quoteAt (1094 / 1000))),
    .processAccount idlePlatform none 2 2 2 2 2 1]

/-- The pass that follows the trace breaks the pass rules. -/
def PassBreaks (trace : List Action) : Prop :=
  ∃ w w', run step (World.initial Table.empty) trace = some w ∧
    w.step (.commitSettle 1 noConversion) = some w' ∧ ¬ PassesByRules w w'

private theorem passBreaks_of_any {trace : List Action}
    (htest : (run step (World.initial Table.empty) trace).any (fun w =>
      (w.db.account? 1).any (fun acc => acc.status = .active) ∧
        (run step w [.commitSettle 1 noConversion]).any fun w' =>
          (w'.db.account? 1).any fun acc =>
            acc.status = .passed ∧ ¬ acc.MayPass (w'.db.closedTrades 1)) = true) :
    PassBreaks trace := by
  obtain ⟨w, hw, hcheck⟩ := exists_of_run_any _ _ _ _ htest
  obtain ⟨hactive, hrest⟩ := of_decide_eq_true hcheck
  obtain ⟨w', hw', hcheck⟩ := exists_of_run_any _ _ _ _ hrest
  rw [Option.any_eq_true] at hactive hcheck
  obtain ⟨acc, hacc, hactive⟩ := hactive
  obtain ⟨acc', hacc', hcheck⟩ := hcheck
  obtain ⟨hpassed, hbroken⟩ := of_decide_eq_true hcheck
  exact ⟨w, w', hw, by simpa [run] using hw', fun hrules =>
    hbroken (hrules 1 acc acc' hacc (of_decide_eq_true hactive) hacc' hpassed)⟩

theorem pass_gate_broken :
    PassBreaks passedEarly ∧ PassBreaks passedOnOneDay ∧ PassBreaks passedShort ∧
      PassBreaks passedOnLostDay :=
  ⟨passBreaks_of_any (by decide +kernel), passBreaks_of_any (by decide +kernel),
    passBreaks_of_any (by decide +kernel), passBreaks_of_any (by decide +kernel)⟩

end World

end PropFirm
