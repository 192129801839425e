import PropFirm.CompetitionEntries
import PropFirm.TerminalAccounts

/-!
# Finalising a competition

`finalizeCompetition` closes the accounts of the active entries one after the other, ranks the entries
that are active or completed, marks the competition completed and issues the prize vouchers. The closing
passes over an account that is not active or whose row is locked, and over one whose transaction fails;
the ranking reads `competition_entries` and `accounts` once more and asks nothing about the closing. Each
statement commits by itself, so other processes act between any two of them.

The world is that of one competition: the trading platform with the accounts of its entries, which the
challenge engine's sweep leaves alone. Profits are in cents and hundredths of a percent.
-/

namespace PropFirm

open Transition

/-! ### The ranking -/

/-- A row of `competition_entries`, with the columns that a finalisation writes. -/
structure RankableEntry where
  id : Nat
  userId : Nat
  accountId : Nat
  status : ContestEntryStatus
  finalRank : Option Nat
  finalProfitPct : Option Int
  finalProfitUsd : Option Cents
  deriving DecidableEq

instance : Keyed RankableEntry Nat := ⟨RankableEntry.id⟩

inductive RankingMetric
  | profitUsd | profitPct
  deriving DecidableEq

structure RankedEntry where
  entryId : Nat
  profitUsd : Cents
  profitPct : Int
  rank : Nat
  deriving DecidableEq

namespace RankedEntry

def score (row : RankableEntry × Account) : RankedEntry where
  entryId := row.1.id
  profitUsd := row.2.currentBalance - row.2.startingBalance
  profitPct :=
    if 0 < row.2.startingBalance then
      jsRound ((row.2.currentBalance - row.2.startingBalance : ℚ) / row.2.startingBalance * 10000)
    else 0
  rank := 0

def value (metric : RankingMetric) (r : RankedEntry) : Int :=
  match metric with
  | .profitUsd => r.profitUsd
  | .profitPct => r.profitPct

/-- The comparison of the sort does not put `a` after `b`. -/
def NotAfter (metric : RankingMetric) (a b : RankedEntry) : Prop :=
  if b.value metric ≠ a.value metric then b.value metric < a.value metric else b.profitUsd ≤ a.profitUsd

instance (metric : RankingMetric) : DecidableRel (NotAfter metric) := fun _ _ =>
  inferInstanceAs (Decidable (ite _ _ _))

theorem notAfter_iff {metric : RankingMetric} {a b : RankedEntry} :
    NotAfter metric a b ↔ b.value metric < a.value metric ∨
      b.value metric = a.value metric ∧ b.profitUsd ≤ a.profitUsd := by
  unfold NotAfter
  split
  · rename_i hne
    exact ⟨.inl, fun h => h.resolve_right fun heq => hne heq.1⟩
  · rename_i heq
    rw [not_not] at heq
    exact ⟨fun h => .inr ⟨heq, h⟩, fun h => h.elim (fun hlt => absurd heq hlt.ne) And.right⟩

instance (metric : RankingMetric) : Std.Total (NotAfter metric) where
  total a b := by
    rw [notAfter_iff, notAfter_iff]
    rcases lt_trichotomy (a.value metric) (b.value metric) with hlt | heq | hlt
    · exact .inr (.inl hlt)
    · rcases le_total b.profitUsd a.profitUsd with hle | hle
      · exact .inl (.inr ⟨heq.symm, hle⟩)
      · exact .inr (.inr ⟨heq, hle⟩)
    · exact .inl (.inl hlt)

instance (metric : RankingMetric) : IsTrans RankedEntry (NotAfter metric) where
  trans a b c hab hbc := by
    rw [notAfter_iff] at hab hbc ⊢
    rcases hab with hab | ⟨hab, hab'⟩ <;> rcases hbc with hbc | ⟨hbc, hbc'⟩
    · exact .inl (hbc.trans hab)
    · exact .inl (hbc ▸ hab)
    · exact .inl (hab ▸ hbc)
    · exact .inr ⟨hbc.trans hab, hbc'.trans hab'⟩

end RankedEntry

/-- The list that `computeAndPersistRanking` persists: a stable sort, numbered from one. -/
def computeRanking (metric : RankingMetric) (rows : List (RankableEntry × Account)) : List RankedEntry :=
  (((rows.map .score).insertionSort (RankedEntry.NotAfter metric)).zipIdx 1).map fun (r, rank) =>
    { r with rank := rank }

/-- The ranks are 1 to n, each for another entry, in the order of the metric. -/
structure FinalRanking (metric : RankingMetric) (ranking : List RankedEntry) : Prop where
  distinct : (ranking.map RankedEntry.entryId).Nodup
  ranks : ranking.map RankedEntry.rank = List.range' 1 ranking.length
  ordered : ranking.Pairwise fun a b => b.value metric ≤ a.value metric

theorem computeRanking_map {β : Type*} (metric : RankingMetric) (rows : List (RankableEntry × Account))
    {f : RankedEntry → β} (hf : ∀ r rank, f { r with rank := rank } = f r) :
    (computeRanking metric rows).map f
      = ((rows.map .score).insertionSort (RankedEntry.NotAfter metric)).map f := by
  rw [computeRanking, List.map_map]
  have hfst : (f ∘ fun p : RankedEntry × Nat => { p.1 with rank := p.2 }) = f ∘ Prod.fst :=
    funext fun p => hf p.1 p.2
  rw [hfst, ← List.map_map, List.zipIdx_map_fst]

/-- A ranking ranks exactly the entries that were read. -/
theorem computeRanking_entryIds (metric : RankingMetric) (rows : List (RankableEntry × Account)) :
    ((computeRanking metric rows).map RankedEntry.entryId).Perm (rows.map fun row => row.1.id) := by
  rw [computeRanking_map metric rows fun _ _ => rfl]
  have hperm := (List.perm_insertionSort (RankedEntry.NotAfter metric) (rows.map .score)).map
    RankedEntry.entryId
  rwa [List.map_map] at hperm

theorem computeRanking_final {metric : RankingMetric} {rows : List (RankableEntry × Account)}
    (hnodup : (rows.map fun row => row.1.id).Nodup) : FinalRanking metric (computeRanking metric rows) where
  distinct := (computeRanking_entryIds metric rows).nodup_iff.mpr hnodup
  ranks := by
    have hsnd : RankedEntry.rank ∘ (fun p : RankedEntry × Nat => { p.1 with rank := p.2 }) = Prod.snd := rfl
    rw [computeRanking, List.map_map, hsnd, List.zipIdx_map_snd, List.length_map, List.length_zipIdx]
  ordered := by
    have hsorted := List.pairwise_insertionSort (RankedEntry.NotAfter metric) (rows.map .score)
    have hvalues : (((rows.map .score).insertionSort (RankedEntry.NotAfter metric)).map
        (RankedEntry.value metric)).Pairwise (· ≥ ·) := by
      rw [List.pairwise_map]
      refine hsorted.imp fun hab => ?_
      rcases RankedEntry.notAfter_iff.mp hab with hlt | ⟨heq, _⟩
      · exact hlt.le
      · exact heq.le
    rw [← computeRanking_map metric rows fun r rank => by cases metric <;> rfl, List.pairwise_map] at hvalues
    exact hvalues

/-- Entries that tie keep the order they were read in. -/
example : (computeRanking .profitPct
    [(⟨1, 7, 1, .active, none, none, none⟩, { sampleTerms.provision 1 with currentBalance := 1000000 }),
      (⟨2, 8, 2, .active, none, none, none⟩, { sampleTerms.provision 2 with currentBalance := 1020000 }),
      (⟨3, 9, 3, .completed, some 1, none, none⟩, sampleTerms.provision 3)]).map
    (fun r => (r.entryId, r.rank, r.profitPct)) = [(2, 1, 200), (1, 2, 0), (3, 3, 0)] := by
  decide +kernel

/-! ### The system -/

/-- `closing` has the account whose transaction is under way, and the accounts still to come; `ranking`
the list being persisted, and how many ranks of it are; `issuing` the entries whose prize is due. -/
inductive FinalizeStage
  | closing (current : Option Nat) (remaining : List Nat)
  | ranking (ranking : List RankedEntry) (written : Nat)
  | completed
  | issuing (winners : List Nat)

structure Finalization where
  id : Nat
  stage : FinalizeStage

instance : Keyed Finalization Nat := ⟨Finalization.id⟩

def Finalization.atStage (stage : FinalizeStage) : Table.Rewrite Finalization where
  apply f := { f with stage := stage }
  key_apply _ := rfl

/-- The metric, and the ranks that have a valid voucher in the prize pool. -/
structure ContestConfig where
  rankingMetric : RankingMetric
  hasVoucher : Nat → Bool

/-- `vouchers` are the entries that have one. -/
structure ContestWorld where
  trading : World
  entries : Table RankableEntry
  completed : Bool
  finalizations : Table Finalization
  vouchers : List Nat

/-- `proceed` is the next statement of a finalisation, or the next half of a closing transaction; `skip` is
one that passes over its account, for an error or a row that is locked; and `crash` ends it. `remove` is
an administrator's disqualification, or the withdrawal of a bot. -/
inductive ContestAction
  | trade (action : Action)
  | join (entryId userId accountId : Nat)
  | disqualifyBreachedEntries
  | remove (entryId : Nat) (status : ContestEntryStatus)
  | finalize (id : Nat)
  | proceed (id : Nat) (prices : Instrument → Option Quote)
  | skip (id : Nat)
  | crash (id : Nat)

/-- The challenge engine's sweep passes by the accounts of competitions. -/
def Action.sweeps : Action → Bool
  | .processAccount .. | .beginSettle .passAccount .. | .beginSettle .expireAccount .. => true
  | _ => false

namespace RankableEntry

def movedTo (status : ContestEntryStatus) : Table.Rewrite RankableEntry where
  apply e := { e with status := status }
  key_apply _ := rfl

def rankedAs (r : RankedEntry) : Table.Rewrite RankableEntry where
  apply e :=
    { e with
      status := .completed
      finalRank := some r.rank
      finalProfitPct := some r.profitPct
      finalProfitUsd := some r.profitUsd }
  key_apply _ := rfl

end RankableEntry

namespace ContestWorld

def initial (models : Table StepModel) : ContestWorld := ⟨World.initial models, .empty, false, .empty, []⟩

variable (w : ContestWorld)

def atStage (id : Nat) (stage : FinalizeStage) : ContestWorld :=
  { w with finalizations := w.finalizations.updateAt id (Finalization.atStage stage) }

def accountStatus (e : RankableEntry) : Option AccountStatus :=
  (w.trading.db.account? e.accountId).map Account.status

/-- What the ranking reads: the entries that take part, joined with their accounts. -/
def rankable : List (RankableEntry × Account) :=
  (w.entries.rows.filter fun e => e.status.TakesPart).filterMap fun e =>
    (w.trading.db.account? e.accountId).map fun acc => (e, acc)

/-- The next half of `closeAndFreezeAccount`, or the next statement. A transaction that has begun is
committed or aborted by the platform. -/
def proceed (cfg : ContestConfig) (f : Finalization) (prices : Instrument → Option Quote) :
    Option ContestWorld :=
  match f.stage with
  | .closing none (accountId :: remaining) =>
    match w.trading.step (.beginSettle .closeAndFreezeAccount accountId prices) with
    | none => some (w.atStage f.id (.closing none remaining))
    | some trading => some { w.atStage f.id (.closing (some accountId) remaining) with trading := trading }
  | .closing (some accountId) remaining =>
    if w.trading.accountFree accountId then some (w.atStage f.id (.closing none remaining)) else none
  | .closing none [] => some (w.atStage f.id (.ranking (computeRanking cfg.rankingMetric w.rankable) 0))
  | .ranking ranking written =>
    match ranking[written]? with
    | some r =>
      some { w.atStage f.id (.ranking ranking (written + 1)) with
        entries := w.entries.updateAt r.entryId (RankableEntry.rankedAs r) }
    | none => some { w.atStage f.id .completed with completed := true }
  | .completed =>
    let winners := w.entries.rows.filter fun e => e.status = .completed ∧ e.finalRank.any cfg.hasVoucher
    some (w.atStage f.id (.issuing (winners.map RankableEntry.id)))
  | .issuing (entryId :: winners) =>
    some { w.atStage f.id (.issuing winners) with
      vouchers := if entryId ∈ w.vouchers then w.vouchers else entryId :: w.vouchers }
  | .issuing [] => some { w with finalizations := w.finalizations.erase f.id }

def step (cfg : ContestConfig) (w : ContestWorld) : ContestAction → Option ContestWorld
  | .trade action =>
    if action.sweeps then none else (w.trading.step action).map fun trading => { w with trading := trading }
  | .join entryId userId accountId =>
    (w.entries.insert? ⟨entryId, userId, accountId, .active, none, none, none⟩).map fun entries =>
      { w with entries := entries }
  | .disqualifyBreachedEntries =>
    let breached e := e.status = .active ∧ w.accountStatus e = some .failed
    some { w with entries := w.entries.update (fun e => breached e) (RankableEntry.movedTo .disqualified) }
  | .remove entryId status =>
    if status.TakesPart then none
    else some { w with entries := w.entries.updateAt entryId (RankableEntry.movedTo status) }
  | .finalize id =>
    if w.completed then none
    else
      let active := w.entries.rows.filter fun e => e.status = .active
      (w.finalizations.insert? ⟨id, .closing none (active.map RankableEntry.accountId)⟩).map
        fun finalizations => { w with finalizations := finalizations }
  | .proceed id prices => do w.proceed cfg (← w.finalizations.find? id) prices
  | .skip id => do
    let f ← w.finalizations.find? id
    match f.stage with
    | .closing none (_ :: remaining) => some (w.atStage id (.closing none remaining))
    | _ => none
  | .crash id => some { w with finalizations := w.finalizations.erase id }

end ContestWorld

/-! ### Accounts that have ended -/

/-- The account has ended without failing, and holds nothing. -/
def Db.Settled (accountId : Nat) (db : Db) : Prop :=
  ∃ acc, db.account? accountId = some acc ∧ acc.status ≠ .active ∧ acc.status ≠ .failed ∧
    db.HoldsNothing accountId

def Action.restores : Action → Option Nat
  | .restoreActive accountId => some accountId
  | _ => none

def Stmt.SparesFailing (accountId : Nat) (_ : Db) : Stmt → Prop
  | .setStatus id status => id = accountId → status ≠ .failed
  | _ => True

theorem Stmt.exec_unfailed {accountId : Nat} {db db' : Db} {stmt : Stmt}
    (hunfailed : ∃ acc, db.account? accountId = some acc ∧ acc.status ≠ .failed)
    (hspares : stmt.SparesFailing accountId db) (hexec : stmt.exec db = some db') :
    ∃ acc, db'.account? accountId = some acc ∧ acc.status ≠ .failed := by
  obtain ⟨acc, hacc, hstatus⟩ := hunfailed
  refine ⟨_, exec_account? hexec hacc, ?_⟩
  cases stmt with
  | setStatus id status =>
    simp only [accountUpdate]
    split
    · rename_i hid
      exact hspares (hid.symm.trans (Db.account?_id hacc))
    · exact hstatus
  | creditAccount | adjustBalance | raiseAnchors =>
    simp only [accountUpdate]
    split <;> exact hstatus
  | _ => exact hstatus

namespace World

variable {w w' : World} {a : Action}

/-- A one-step transaction fails no account. -/
theorem Writes.sparesFailing {stmts : List Stmt} (hwrites : w.Writes a stmts) (accountId : Nat) :
    RunOk (fun db stmt => Stmt.exec db stmt) (Stmt.SparesFailing accountId) w.db stmts := by
  cases hwrites with
  | provision | cancelStale | cancelPending | adjust => exact .of_forall (by simp [Stmt.SparesFailing])
  | order =>
    refine .of_forall fun stmt hstmt db => ?_
    obtain ⟨t, _, rfl⟩ := List.mem_map.mp hstmt
    exact trivial
  | fill _ _ _ hsiblings =>
    refine ⟨trivial, fun _ _ => .of_forall fun stmt hstmt db => ?_⟩
    obtain ⟨cond, reason, rfl, _⟩ := hsiblings stmt hstmt
    exact trivial
  | defer hdefer =>
    refine .of_forall fun stmt hstmt db => ?_
    obtain ⟨id, level, reason, rfl⟩ := hdefer stmt hstmt
    exact trivial
  | close =>
    refine ⟨trivial, fun _ _ => .of_forall fun stmt hstmt db => ?_⟩
    obtain ⟨credit, _, rfl⟩ := List.mem_map.mp hstmt
    exact trivial
  | split => exact ⟨trivial, fun _ _ => ⟨trivial, fun _ _ => trivial⟩⟩
  | lock | restore => exact ⟨fun _ => AccountStatus.noConfusion, fun _ _ => trivial⟩

/-- An account that has ended without failing stays so until it is restored. -/
theorem step_settled {accountId : Nat} (hvalid : w.Valid) (hsettled : w.db.Settled accountId)
    (hrestores : a.restores ≠ some accountId) (hstep : w.step a = some w') : w'.db.Settled accountId := by
  obtain ⟨acc, hacc, hactive, hfailed, hnothing⟩ := hsettled
  have hdormant : w'.db.Dormant accountId := by
    refine step_dormant hvalid ⟨acc, hacc, hactive, hnothing⟩ ?_ hstep
    rintro rfl
    exact hrestores rfl
  have hunfailed : ∃ acc, w'.db.account? accountId = some acc ∧ acc.status ≠ .failed := by
    cases step_steps hvalid hstep with
    | transact _ hwrites hexec =>
      exact run_invariant _ (fun _ _ _ hinv hspares hexec => Stmt.exec_unfailed hinv hspares hexec)
        ⟨acc, hacc, hfailed⟩ (hwrites.sparesFailing accountId) hexec
    | @commit fx s stmts db hs hstmts hexec =>
      have hread := hvalid.settling s hs
      have hother : s.account.id ≠ accountId := by
        rintro rfl
        rw [hread.account] at hacc
        exact hactive (Option.some.inj hacc ▸ hread.active)
      exact run_invariant _ (fun _ _ _ hinv hspares hexec => Stmt.exec_unfailed hinv hspares hexec)
        ⟨acc, hacc, hfailed⟩ (Settling.statements_runOk hstmts (fun _ _ _ _ _ => trivial)
          (fun _ => trivial) (fun _ _ => trivial) (fun _ _ => trivial) fun _ _ hid => absurd hid hother) hexec
    | begin | abort | tick => exact ⟨acc, hacc, hfailed⟩
  obtain ⟨acc', hacc', hactive', hnothing'⟩ := hdormant
  obtain ⟨acc'', hacc'', hfailed'⟩ := hunfailed
  obtain rfl := Option.some.inj (hacc'.symm.trans hacc'')
  exact ⟨acc', hacc', hactive', hfailed', hnothing'⟩

/-- No pending order of an account is filled while a terminal transaction of the account is in flight. -/
def FillsAlone (w : World) (a : Action) : Prop :=
  ∀ id ∈ w.fillsOrder a, ∀ row ∈ w.db.trade? id, row.status = .pending → w.accountFree row.accountId = true

instance (w : World) (a : Action) : Decidable (w.FillsAlone a) :=
  inferInstanceAs (Decidable (∀ id ∈ w.fillsOrder a, _))

/-- What the platform keeps where the sweep passes by: nobody passes or expires by it. -/
structure Unswept (w : World) : Prop where
  valid : w.Valid
  covered : Covered w.settling w.db
  kinds : ∀ s ∈ w.settling, s.kind ≠ .passAccount ∧ s.kind ≠ .expireAccount

theorem initial_unswept (models : Table StepModel) : (World.initial models).Unswept :=
  ⟨initial_valid models, initial_covered models, fun _ hs => absurd hs List.not_mem_nil⟩

theorem calls_kind {call : SettleCall} (hunswept : a.sweeps = false) (hcall : w.calls a = some call) :
    call.kind ≠ .passAccount ∧ call.kind ≠ .expireAccount := by
  cases a with
  | beginSettle kind accountId prices =>
    dsimp only [calls] at hcall
    split at hcall
    · cases hcall
    obtain rfl := Option.some.inj hcall
    constructor <;> (rintro rfl; cases hunswept)
  | checkFloatingDrawdown asOf todayAsOf accountId market prices =>
    simp only [calls, checkFloatingDrawdownCall, Option.bind_eq_bind, Option.bind_eq_some_iff,
      Option.guard_eq_some', Option.some.injEq] at hcall
    obtain ⟨_, _, _, _, _, _, _, _, _, _, rfl⟩ := hcall
    exact ⟨SettleKind.noConfusion, SettleKind.noConfusion⟩
  | settleAccountOutcomes entryAsOf accountAsOf tradesAsOf accountId market prices =>
    simp only [calls, settleAccountOutcomesCall, Option.bind_eq_bind, Option.bind_eq_some_iff,
      Option.guard_eq_some', Option.some.injEq] at hcall
    obtain ⟨_, _, _, _, _, _, _, _, _, _, _, _, _, _, rfl⟩ := hcall
    exact ⟨SettleKind.noConfusion, SettleKind.noConfusion⟩
  | processAccount => cases hunswept
  | _ => cases hcall

theorem mem_of_commits {s : Settling} {fx : FxSource} (hcommits : w.commits a = some (s, fx)) :
    s ∈ w.settling := by
  cases a with
  | commitSettle accountId fx' =>
    obtain ⟨s', hs', heq⟩ := Option.map_eq_some_iff.mp hcommits
    obtain ⟨rfl, _⟩ := Prod.mk.inj heq
    exact List.mem_of_find?_eq_some hs'
  | _ => cases hcommits

theorem Unswept.settlesAll (hunswept : w.Unswept) (hfills : w.FillsAlone a) : w.SettlesAll a where
  fills id hid row hrow := hfills id hid row hrow
  passes s _ hs hkind := absurd hkind (hunswept.kinds s (mem_of_commits hs)).1
  expires s _ hs hkind := absurd hkind (hunswept.kinds s (mem_of_commits hs)).2

theorem Unswept.step (hunswept : w.Unswept) (hsweeps : a.sweeps = false) (hfills : w.FillsAlone a)
    (hstep : w.step a = some w') : w'.Unswept := by
  have hok := hunswept.settlesAll hfills
  refine ⟨step_valid hunswept.valid hstep, step_covered hunswept.valid hunswept.covered hok hstep,
    fun s hs => ?_⟩
  cases step_steps hunswept.valid hstep with
  | transact | tick => exact hunswept.kinds s hs
  | commit | abort => exact hunswept.kinds s (mem_release.mp hs).1
  | begin hcall _ hbegin =>
    rcases List.mem_cons.mp hs with rfl | hs
    · rw [(beginSettle_eq_some hbegin).2.2.1]
      exact calls_kind hsweeps hcall
    · exact hunswept.kinds s hs

end World

/-! ### Rightful rankings -/

namespace Finalization

/-- The entries of the ranking that is being persisted. -/
def rankedIds (f : Finalization) : List Nat :=
  match f.stage with
  | .ranking ranking _ => ranking.map RankedEntry.entryId
  | .closing .. | .completed | .issuing _ => []

/-- The next statement reads the entries to rank. -/
def readsRanking (f : Finalization) : Bool :=
  match f.stage with
  | .closing none [] => true
  | .closing .. | .ranking .. | .completed | .issuing _ => false

end Finalization

namespace ContestWorld

/-- The entry takes part, and its account has ended without failing and holds nothing. -/
def Rightful (w : ContestWorld) (entryId : Nat) : Prop :=
  ∃ e, w.entries.find? entryId = some e ∧ e.status.TakesPart ∧ w.trading.db.Settled e.accountId

/-- Every ranking is final, whoever is in one or has a rank is so by right, and so is whoever has a prize
voucher. -/
structure RanksRightly (cfg : ContestConfig) (w : ContestWorld) : Prop where
  final : ∀ f ∈ w.finalizations.rows, ∀ ranking written, f.stage = .ranking ranking written →
    FinalRanking cfg.rankingMetric ranking ∧ ∀ r ∈ ranking, w.Rightful r.entryId
  ranked : ∀ e ∈ w.entries.rows, e.finalRank.isSome → w.Rightful e.id
  vouchers : ∀ entryId ∈ w.vouchers, w.Rightful entryId

/-- The entry has a rank, or a ranking that has it is being persisted. -/
def IsRanked (w : ContestWorld) (entryId : Nat) : Prop :=
  (∃ e ∈ w.entries.rows, e.id = entryId ∧ e.finalRank.isSome) ∨
    ∃ f ∈ w.finalizations.rows, entryId ∈ f.rankedIds

instance (w : ContestWorld) (entryId : Nat) : Decidable (w.IsRanked entryId) :=
  inferInstanceAs (Decidable (_ ∨ _))

/-- When a ranking is read, the accounts of the entries to rank have ended and have not failed. No order
of an account is filled while its closing or failing transaction is in flight, and no entry is removed,
and no account restored, that has a rank or is about to get one. -/
def RanksClosed (w : ContestWorld) : ContestAction → Prop
  | .trade action => w.trading.FillsAlone action ∧
      ∀ e ∈ w.entries.rows, w.IsRanked e.id → action.restores ≠ some e.accountId
  | .remove entryId _ => ¬ w.IsRanked entryId
  | .proceed id _ => ∀ f ∈ w.finalizations.rows, f.id = id → f.readsRanking →
      ∀ row ∈ w.rankable, row.2.status.terminal ∧ row.2.status ≠ .failed
  | .join .. | .disqualifyBreachedEntries | .finalize _ | .skip _ | .crash _ => True

instance (w : ContestWorld) : DecidablePred w.RanksClosed
  | .trade _ => inferInstanceAs (Decidable (_ ∧ ∀ e ∈ w.entries.rows, _))
  | .remove .. => inferInstanceAs (Decidable (¬ _))
  | .proceed .. => inferInstanceAs (Decidable (∀ f ∈ w.finalizations.rows, _))
  | .join .. | .disqualifyBreachedEntries | .finalize _ | .skip _ | .crash _ => isTrue trivial

def HasRank (w : ContestWorld) (entryId : Nat) : Prop :=
  w.entries.HasAt (fun e => e.finalRank.isSome) entryId

/-- The invariant of the runs that rank closed accounts only. -/
structure Inv (cfg : ContestConfig) (w : ContestWorld) : Prop where
  unswept : w.trading.Unswept
  final : ∀ f ∈ w.finalizations.rows, ∀ ranking written, f.stage = .ranking ranking written →
    FinalRanking cfg.rankingMetric ranking
  rightful : ∀ entryId, w.IsRanked entryId → w.Rightful entryId
  winners : ∀ f ∈ w.finalizations.rows, ∀ winners, f.stage = .issuing winners →
    ∀ entryId ∈ winners, w.HasRank entryId
  vouchers : ∀ entryId ∈ w.vouchers, w.HasRank entryId

variable {cfg : ContestConfig} {w w' : ContestWorld} {a : ContestAction}

theorem HasRank.isRanked {entryId : Nat} (hrank : w.HasRank entryId) : w.IsRanked entryId := by
  obtain ⟨e, he, hsome⟩ := hrank
  obtain ⟨hmem, hid⟩ := Table.find?_eq_some.mp he
  exact .inl ⟨e, hmem, hid, hsome⟩

theorem Inv.ranksRightly (hinv : Inv cfg w) : w.RanksRightly cfg where
  final f hf ranking written hstage := by
    refine ⟨hinv.final f hf ranking written hstage, fun r hr => hinv.rightful r.entryId (.inr ⟨f, hf, ?_⟩)⟩
    rw [Finalization.rankedIds, hstage]
    exact List.mem_map_of_mem hr
  ranked e he hsome := hinv.rightful e.id (.inl ⟨e, he, rfl, hsome⟩)
  vouchers entryId hmem := hinv.rightful entryId (hinv.vouchers entryId hmem).isRanked

theorem initial_inv (models : Table StepModel) : Inv cfg (initial models) where
  unswept := World.initial_unswept models
  final _ hf := absurd hf List.not_mem_nil
  rightful entryId hranked := by
    rcases hranked with ⟨_, he, _⟩ | ⟨_, hf, _⟩
    · exact absurd he List.not_mem_nil
    · exact absurd hf List.not_mem_nil
  winners _ hf := absurd hf List.not_mem_nil
  vouchers _ hmem := absurd hmem List.not_mem_nil

/-- The accounts of the entries to rank, and the entries they belong to. -/
theorem mem_rankable {row : RankableEntry × Account} :
    row ∈ w.rankable ↔ row.1 ∈ w.entries.rows ∧ row.1.status.TakesPart ∧
      w.trading.db.account? row.1.accountId = some row.2 := by
  simp only [rankable, List.mem_filterMap, List.mem_filter, decide_eq_true_eq, Option.map_eq_some_iff]
  constructor
  · rintro ⟨e, ⟨hmem, htakes⟩, acc, hacc, rfl⟩
    exact ⟨hmem, htakes, hacc⟩
  · rintro ⟨hmem, htakes, hacc⟩
    exact ⟨row.1, ⟨hmem, htakes⟩, row.2, hacc, rfl⟩

theorem rankable_nodup (w : ContestWorld) : (w.rankable.map fun row => row.1.id).Nodup := by
  have hfst : (w.rankable.map Prod.fst).Sublist (w.entries.rows.filter fun e => e.status.TakesPart) :=
    List.map_filterMap_sublist _ fun e row hrow => by
      obtain ⟨acc, _, rfl⟩ := Option.map_eq_some_iff.mp hrow
      rfl
  have hsub := (hfst.trans List.filter_sublist).map RankableEntry.id
  rw [List.map_map] at hsub
  exact w.entries.nodup.sublist hsub

/-! ### What a step does -/

inductive Proceeds (cfg : ContestConfig) (w : ContestWorld) (f : Finalization) : ContestWorld → Prop
  | close {current : Option Nat} {remaining : List Nat} : Proceeds cfg w f (w.atStage f.id (.closing current remaining))
  | beginSettle {accountId : Nat} {remaining : List Nat} {prices : Instrument → Option Quote} {trading : World}
      (hbegin : w.trading.step (.beginSettle .closeAndFreezeAccount accountId prices) = some trading) :
      Proceeds cfg w f { w.atStage f.id (.closing (some accountId) remaining) with trading := trading }
  | readRanking (hreads : f.readsRanking) :
      Proceeds cfg w f (w.atStage f.id (.ranking (computeRanking cfg.rankingMetric w.rankable) 0))
  | writeRank {ranking : List RankedEntry} {written : Nat} {r : RankedEntry}
      (hstage : f.stage = .ranking ranking written) (hr : r ∈ ranking) :
      Proceeds cfg w f { w.atStage f.id (.ranking ranking (written + 1)) with
        entries := w.entries.updateAt r.entryId (RankableEntry.rankedAs r) }
  | complete : Proceeds cfg w f { w.atStage f.id .completed with completed := true }
  | readWinners {winners : List RankableEntry}
      (hwinners : ∀ e ∈ winners, e ∈ w.entries.rows ∧ e.finalRank.isSome) :
      Proceeds cfg w f (w.atStage f.id (.issuing (winners.map RankableEntry.id)))
  | issue {entryId : Nat} {winners vouchers : List Nat} (hstage : f.stage = .issuing (entryId :: winners))
      (hvouchers : ∀ id ∈ vouchers, id = entryId ∨ id ∈ w.vouchers) :
      Proceeds cfg w f { w.atStage f.id (.issuing winners) with vouchers := vouchers }
  | done : Proceeds cfg w f { w with finalizations := w.finalizations.erase f.id }

theorem proceed_proceeds {f : Finalization} {prices : Instrument → Option Quote}
    (hproceed : w.proceed cfg f prices = some w') : Proceeds cfg w f w' := by
  unfold proceed at hproceed
  split at hproceed
  next accountId remaining hstage =>
    split at hproceed
    · exact Option.some.inj hproceed ▸ .close
    · rename_i trading hbegin
      exact Option.some.inj hproceed ▸ .beginSettle hbegin
  next accountId remaining hstage =>
    split at hproceed
    · exact Option.some.inj hproceed ▸ .close
    · cases hproceed
  next hstage =>
    refine Option.some.inj hproceed ▸ .readRanking ?_
    rw [Finalization.readsRanking, hstage]
  next ranking written hstage =>
    split at hproceed
    · rename_i r hr
      exact Option.some.inj hproceed ▸ .writeRank hstage (List.mem_of_getElem? hr)
    · exact Option.some.inj hproceed ▸ .complete
  next hstage =>
    refine Option.some.inj hproceed ▸ .readWinners fun e he => ?_
    obtain ⟨hmem, hwins⟩ := List.mem_filter.mp he
    refine ⟨hmem, ?_⟩
    cases hrank : e.finalRank with
    | none => simp [hrank] at hwins
    | some rank => rfl
  next entryId winners hstage =>
    refine Option.some.inj hproceed ▸ .issue hstage fun id hid => ?_
    split at hid
    · exact .inr hid
    · exact List.mem_cons.mp hid
  next hstage => exact Option.some.inj hproceed ▸ .done

/-! ### The invariant -/

theorem Inv.erase (hinv : Inv cfg w) (id : Nat) :
    Inv cfg { w with finalizations := w.finalizations.erase id } where
  unswept := hinv.unswept
  final f hf := hinv.final f (Table.mem_delete.mp hf).1
  rightful entryId hranked :=
    hinv.rightful entryId (hranked.imp_right fun ⟨f, hf, hmem⟩ => ⟨f, (Table.mem_delete.mp hf).1, hmem⟩)
  winners f hf := hinv.winners f (Table.mem_delete.mp hf).1
  vouchers := hinv.vouchers

theorem Inv.atStage (hinv : Inv cfg w) (id : Nat) {stage : FinalizeStage}
    (hranking : ∀ ranking written, stage = .ranking ranking written →
      FinalRanking cfg.rankingMetric ranking ∧ ∀ r ∈ ranking, w.Rightful r.entryId)
    (hwinners : ∀ winners, stage = .issuing winners → ∀ entryId ∈ winners, w.HasRank entryId) :
    Inv cfg (w.atStage id stage) := by
  have hrows : ∀ f ∈ (w.atStage id stage).finalizations.rows, f ∈ w.finalizations.rows ∨ f.stage = stage := by
    intro f hf
    rcases Table.mem_updateAt hf with hold | ⟨g, _, _, rfl⟩
    · exact .inl hold
    · exact .inr rfl
  refine ⟨hinv.unswept, fun f hf ranking written hstage => ?_, fun entryId hranked => ?_,
    fun f hf winners hstage => ?_, hinv.vouchers⟩
  · rcases hrows f hf with hold | hnew
    · exact hinv.final f hold ranking written hstage
    · exact (hranking ranking written (hnew.symm.trans hstage)).1
  · rcases hranked with hrank | ⟨f, hf, hmem⟩
    · exact hinv.rightful entryId (.inl hrank)
    · rcases hrows f hf with hold | hnew
      · exact hinv.rightful entryId (.inr ⟨f, hold, hmem⟩)
      · unfold Finalization.rankedIds at hmem
        split at hmem
        · rename_i ranking written hstage
          obtain ⟨r, hr, rfl⟩ := List.mem_map.mp hmem
          exact (hranking ranking written (hnew.symm.trans hstage)).2 r hr
        all_goals exact absurd hmem List.not_mem_nil
  · rcases hrows f hf with hold | hnew
    · exact hinv.winners f hold winners hstage
    · exact hwinners winners (hnew.symm.trans hstage)

theorem Inv.atClosing (hinv : Inv cfg w) (id : Nat) (current : Option Nat) (remaining : List Nat) :
    Inv cfg (w.atStage id (.closing current remaining)) :=
  hinv.atStage id (fun _ _ h => by cases h) fun _ h => by cases h

theorem Inv.atCompleted (hinv : Inv cfg w) (id : Nat) : Inv cfg (w.atStage id .completed) :=
  hinv.atStage id (fun _ _ h => by cases h) fun _ h => by cases h

/-- The platform moves on, and restores no account of an entry that is ranked. -/
theorem Inv.trade (hinv : Inv cfg w) {trading : World} (hunswept : trading.Unswept)
    (hsettled : ∀ e ∈ w.entries.rows, w.IsRanked e.id → w.trading.db.Settled e.accountId →
      trading.db.Settled e.accountId) : Inv cfg { w with trading := trading } where
  unswept := hunswept
  final := hinv.final
  rightful entryId hranked := by
    obtain ⟨e, he, htakes, haccount⟩ := hinv.rightful entryId hranked
    obtain ⟨hmem, rfl⟩ := Table.find?_eq_some.mp he
    exact ⟨e, he, htakes, hsettled e hmem hranked haccount⟩
  winners := hinv.winners
  vouchers := hinv.vouchers

/-- The entries that are ranked stay rightful, no rank is lost, and only those get one. -/
theorem Inv.rewrite (hinv : Inv cfg w) {entries : Table RankableEntry}
    (hkept : ∀ entryId, w.IsRanked entryId → ∀ e, w.entries.find? entryId = some e → e.status.TakesPart →
      w.trading.db.Settled e.accountId →
        ∃ e', entries.find? entryId = some e' ∧ e'.status.TakesPart ∧ e'.accountId = e.accountId)
    (hrank : ∀ entryId, w.HasRank entryId → entries.HasAt (fun e => e.finalRank.isSome) entryId)
    (hnew : ∀ e ∈ entries.rows, e.finalRank.isSome → w.IsRanked e.id) :
    Inv cfg { w with entries := entries } where
  unswept := hinv.unswept
  final := hinv.final
  rightful entryId hranked := by
    have hwas : w.IsRanked entryId := by
      rcases hranked with ⟨e, he, rfl, hsome⟩ | hranking
      · exact hnew e he hsome
      · exact .inr hranking
    obtain ⟨e, he, htakes, haccount⟩ := hinv.rightful entryId hwas
    obtain ⟨e', he', htakes', hsame⟩ := hkept entryId hwas e he htakes haccount
    exact ⟨e', he', htakes', hsame ▸ haccount⟩
  winners f hf winners hstage entryId hmem := hrank entryId (hinv.winners f hf winners hstage entryId hmem)
  vouchers entryId hmem := hrank entryId (hinv.vouchers entryId hmem)

theorem Inv.proceed (hinv : Inv cfg w) {f : Finalization} (hf : f ∈ w.finalizations.rows)
    (hclosed : f.readsRanking → ∀ row ∈ w.rankable, row.2.status.terminal ∧ row.2.status ≠ .failed)
    (hproceeds : Proceeds cfg w f w') : Inv cfg w' := by
  cases hproceeds with
  | close => exact hinv.atClosing f.id _ _
  | complete => exact { hinv.atCompleted f.id with }
  | done => exact hinv.erase f.id
  | beginSettle hbegin =>
    have hunswept := hinv.unswept.step rfl (fun _ hid => absurd hid (Option.not_mem_none _)) hbegin
    exact (hinv.atClosing f.id _ _).trade hunswept fun e _ _ hsettled =>
      World.step_settled hinv.unswept.valid hsettled (fun h => by cases h) hbegin
  | readRanking hreads =>
    refine hinv.atStage f.id (fun ranking written hstage => ?_) fun _ => FinalizeStage.noConfusion
    obtain ⟨rfl, _⟩ := FinalizeStage.ranking.inj hstage
    refine ⟨computeRanking_final w.rankable_nodup, fun r hr => ?_⟩
    -- the account has ended, so it holds nothing
    have hmem := (computeRanking_entryIds cfg.rankingMetric w.rankable).subset (List.mem_map_of_mem hr)
    obtain ⟨row, hrow, hid⟩ := List.mem_map.mp hmem
    obtain ⟨he, htakes, hacc⟩ := mem_rankable.mp hrow
    obtain ⟨hterminal, hfailed⟩ := hclosed hreads row hrow
    refine ⟨row.1, Table.find?_eq_some.mpr ⟨he, hid⟩, htakes, row.2, hacc, ?_, hfailed, ?_⟩
    · intro hactive
      rw [hactive] at hterminal
      cases hterminal
    · obtain ⟨haccount, hid'⟩ := Db.account?_eq_some.mp hacc
      exact hid' ▸ hinv.unswept.covered.terminal row.2 haccount hterminal
  | @writeRank ranking written r hstage hr =>
    have hranked : w.IsRanked r.entryId := by
      refine .inr ⟨f, hf, ?_⟩
      rw [Finalization.rankedIds, hstage]
      exact List.mem_map_of_mem hr
    have hwritten : Inv cfg { w with entries := w.entries.updateAt r.entryId (RankableEntry.rankedAs r) } := by
      refine hinv.rewrite (fun entryId _ e he htakes _ => ?_) (fun entryId hrank => ?_) fun e he hsome => ?_
      · rw [Table.find?_updateAt, he, Option.map_some]
        by_cases hid : entryId = r.entryId
        · exact ⟨_, congrArg some (if_pos hid), (by decide : ContestEntryStatus.TakesPart .completed), rfl⟩
        · exact ⟨e, congrArg some (if_neg hid), htakes, rfl⟩
      · obtain ⟨e, he, hsome⟩ := hrank
        refine ⟨_, by rw [Table.find?_updateAt, he, Option.map_some], ?_⟩
        split
        · rfl
        · exact hsome
      · rcases Table.mem_updateAt he with hold | ⟨e', _, hid, rfl⟩
        · exact .inl ⟨e, hold, rfl, hsome⟩
        · have hid' : ((RankableEntry.rankedAs r).apply e').id = r.entryId := hid
          rw [hid']
          exact hranked
    refine hwritten.atStage f.id (fun ranking' written' hstage' => ?_) fun _ => FinalizeStage.noConfusion
    obtain ⟨rfl, _⟩ := FinalizeStage.ranking.inj hstage'
    refine ⟨hinv.final f hf ranking written hstage, fun r' hr' => hwritten.rightful r'.entryId (.inr ⟨f, hf, ?_⟩)⟩
    rw [Finalization.rankedIds, hstage]
    exact List.mem_map_of_mem hr'
  | readWinners hwinners =>
    refine hinv.atStage f.id (fun _ _ => FinalizeStage.noConfusion) fun winners hstage entryId hmem => ?_
    obtain rfl := FinalizeStage.issuing.inj hstage
    obtain ⟨e, he, rfl⟩ := List.mem_map.mp hmem
    obtain ⟨hrow, hsome⟩ := hwinners e he
    exact ⟨e, Table.find?_eq_some.mpr ⟨hrow, rfl⟩, hsome⟩
  | @issue entryId winners vouchers hstage hvouchers =>
    have hdue := hinv.winners f hf (entryId :: winners) hstage
    have hissued : Inv cfg (w.atStage f.id (.issuing winners)) := by
      refine hinv.atStage f.id (fun _ _ => FinalizeStage.noConfusion) fun winners' hstage' id hid => ?_
      obtain rfl := FinalizeStage.issuing.inj hstage'
      exact hdue id (List.mem_cons_of_mem _ hid)
    refine { hissued with vouchers := fun id hid => ?_ }
    rcases hvouchers id hid with rfl | hold
    · exact hdue id List.mem_cons_self
    · exact hinv.vouchers id hold

theorem Inv.step (hinv : Inv cfg w) (hok : w.RanksClosed a) (hstep : w.step cfg a = some w') : Inv cfg w' := by
  cases a with
  | trade action =>
    dsimp only [ContestWorld.step] at hstep
    split at hstep
    · cases hstep
    rename_i hsweeps
    obtain ⟨trading, htrading, rfl⟩ := Option.map_eq_some_iff.mp hstep
    exact hinv.trade (hinv.unswept.step (Bool.eq_false_iff.mpr hsweeps) hok.1 htrading)
      fun e he hranked hsettled => World.step_settled hinv.unswept.valid hsettled (hok.2 e he hranked) htrading
  | join entryId userId accountId =>
    obtain ⟨entries, hinsert, rfl⟩ := Option.map_eq_some_iff.mp hstep
    obtain ⟨hfresh, hrows⟩ := Table.insert?_eq_some hinsert
    have hother : ∀ id e, w.entries.find? id = some e → entries.find? id = some e := by
      intro id e he
      obtain ⟨hmem, rfl⟩ := Table.find?_eq_some.mp he
      rw [Table.find?_of_insert? hinsert, if_neg (hfresh e hmem).symm, he]
    refine hinv.rewrite (fun id _ e he htakes _ => ⟨e, hother id e he, htakes, rfl⟩)
      (fun id ⟨e, he, hsome⟩ => ⟨e, hother id e he, hsome⟩) fun e he hsome => ?_
    rw [hrows] at he
    rcases List.mem_cons.mp he with rfl | hold
    · cases hsome
    · exact .inl ⟨e, hold, rfl, hsome⟩
  | disqualifyBreachedEntries =>
    obtain rfl := Option.some.inj hstep
    refine hinv.rewrite (fun id _ e he htakes hsettled => ?_) (fun id ⟨e, he, hsome⟩ => ?_) fun e he hsome => ?_
    · refine ⟨e, ?_, htakes, rfl⟩
      rw [Table.find?_update, he, Option.map_some, if_neg]
      -- a settled account has not failed
      obtain ⟨acc, hacc, _, hfailed, _⟩ := hsettled
      intro hbreached
      obtain ⟨_, hstatus⟩ := of_decide_eq_true hbreached
      rw [accountStatus, hacc] at hstatus
      exact hfailed (Option.some.inj hstatus)
    · refine ⟨_, by rw [Table.find?_update, he, Option.map_some], ?_⟩
      split <;> exact hsome
    · obtain ⟨e', he', rfl⟩ := List.mem_map.mp he
      refine .inl ⟨e', he', ?_, ?_⟩
      · split <;> rfl
      · split at hsome <;> exact hsome
  | remove entryId status =>
    dsimp only [ContestWorld.step] at hstep
    split at hstep
    · cases hstep
    obtain rfl := Option.some.inj hstep
    refine hinv.rewrite (fun id hranked e he htakes _ => ?_) (fun id ⟨e, he, hsome⟩ => ?_) fun e he hsome => ?_
    · refine ⟨e, ?_, htakes, rfl⟩
      rw [Table.find?_updateAt, he, Option.map_some, if_neg]
      rintro rfl
      exact hok hranked
    · refine ⟨_, by rw [Table.find?_updateAt, he, Option.map_some], ?_⟩
      split <;> exact hsome
    · rcases Table.mem_updateAt he with hold | ⟨e', he', _, rfl⟩
      · exact .inl ⟨e, hold, rfl, hsome⟩
      · exact .inl ⟨e', he', rfl, hsome⟩
  | finalize id =>
    dsimp only [ContestWorld.step] at hstep
    split at hstep
    · cases hstep
    obtain ⟨finalizations, hinsert, rfl⟩ := Option.map_eq_some_iff.mp hstep
    have hrows := (Table.insert?_eq_some hinsert).2
    have hmem : ∀ f ∈ finalizations.rows, f ∈ w.finalizations.rows ∨
        ∃ current remaining, f.stage = .closing current remaining := by
      intro f hf
      rw [hrows] at hf
      rcases List.mem_cons.mp hf with rfl | hold
      · exact .inr ⟨_, _, rfl⟩
      · exact .inl hold
    refine ⟨hinv.unswept, fun f hf ranking written hstage => ?_, fun entryId hranked => ?_,
      fun f hf winners hstage => ?_, hinv.vouchers⟩
    · rcases hmem f hf with hold | ⟨_, _, hclosing⟩
      · exact hinv.final f hold ranking written hstage
      · cases hclosing.symm.trans hstage
    · rcases hranked with hrank | ⟨f, hf, hranking⟩
      · exact hinv.rightful entryId (.inl hrank)
      · rcases hmem f hf with hold | ⟨_, _, hclosing⟩
        · exact hinv.rightful entryId (.inr ⟨f, hold, hranking⟩)
        · rw [Finalization.rankedIds, hclosing] at hranking
          exact absurd hranking List.not_mem_nil
    · rcases hmem f hf with hold | ⟨_, _, hclosing⟩
      · exact hinv.winners f hold winners hstage
      · cases hclosing.symm.trans hstage
  | proceed id prices =>
    obtain ⟨f, hf, hproceed⟩ := Option.bind_eq_some_iff.mp hstep
    obtain ⟨hmem, rfl⟩ := Table.find?_eq_some.mp hf
    exact hinv.proceed hmem (hok f hmem rfl) (proceed_proceeds hproceed)
  | skip id =>
    obtain ⟨f, hf, hskip⟩ := Option.bind_eq_some_iff.mp hstep
    split at hskip
    · exact Option.some.inj hskip ▸ hinv.atClosing id _ _
    · cases hskip
  | crash id => exact Option.some.inj hstep ▸ hinv.erase id

/-- Vouchers for the first three. -/
def podium : ContestConfig := ⟨.profitPct, fun rank => rank ≤ 3⟩

def contestTerms : AccountTerms := { sampleTerms with accountType := .competition }

/-- Two traders, each with an open position. -/
def twoTraders : List ContestAction :=
  [.trade (.provision contestTerms 1), .trade (.provision contestTerms 2), .join 1 7 1, .join 2 8 2,
    .trade (.openTrade sampleOrder 1 (11 / 10)),
    .trade (.openTrade { sampleOrder with accountId := 2 } 2 (11 / 10))]

/-- Both accounts are closed, ranked and given their vouchers. -/
def cleanFinalization : List ContestAction :=
  twoTraders ++
    [.finalize 1, .proceed 1 (quotedAt (111 / 100)), .trade (.commitSettle 2 noConversion),
      .proceed 1 (quotedAt 1), .proceed 1 (quotedAt (109 / 100)), .trade (.commitSettle 1 noConversion),
      .proceed 1 (quotedAt 1), .proceed 1 (quotedAt 1), .proceed 1 (quotedAt 1), .proceed 1 (quotedAt 1),
      .proceed 1 (quotedAt 1), .proceed 1 (quotedAt 1), .proceed 1 (quotedAt 1), .proceed 1 (quotedAt 1)]

/-- The closing transaction of account 2 fails, and account 1's row is locked: the ranking is read with
both positions open. -/
def missedClosings : List ContestAction :=
  twoTraders ++
    [.finalize 1, .proceed 1 (quotedAt (111 / 100)), .trade (.abortSettle 2), .proceed 1 (quotedAt 1), .skip 1,
      .proceed 1 (quotedAt 1)]

/-- Account 1 fails when the breached entries have been disqualified, and is ranked and given a voucher. -/
def failedAndRewarded : List ContestAction :=
  [.trade (.provision contestTerms 1), .join 1 7 1, .disqualifyBreachedEntries,
    .trade (.beginSettle .autoCloseAndFail 1 (quotedAt 1)), .trade (.commitSettle 1 noConversion), .finalize 1,
    .proceed 1 (quotedAt 1), .proceed 1 (quotedAt 1), .proceed 1 (quotedAt 1), .proceed 1 (quotedAt 1),
    .proceed 1 (quotedAt 1), .proceed 1 (quotedAt 1)]

/-- An order of the account is filled while its closing transaction is in flight. -/
def filledWhileClosing : List ContestAction :=
  [.trade (.provision contestTerms 1), .join 1 7 1,
    .trade (.placePendingOrder sampleOrder ⟨1, .buy, .buyLimit, 11 / 10⟩ none), .finalize 1,
    .proceed 1 (quotedAt 1), .trade (.fillTriggeredPendingOrder 0 0 1 (quoteAt 1) (quoteAt 1) 50),
    .trade (.commitSettle 1 noConversion), .proceed 1 (quotedAt 1), .proceed 1 (quotedAt 1),
    .proceed 1 (quotedAt 1)]

/-- An entry is ranked that has failed or whose account holds a trade. -/
def Wronged (w : ContestWorld) : Prop :=
  ∃ e ∈ w.entries.rows, w.IsRanked e.id ∧
    (w.accountStatus e = some .failed ∨ ¬ w.trading.db.HoldsNothing e.accountId)

instance (w : ContestWorld) : Decidable w.Wronged := inferInstanceAs (Decidable (∃ e ∈ w.entries.rows, _))

theorem Wronged.not_ranksRightly (hwronged : w.Wronged) : ¬ w.RanksRightly cfg := by
  intro hrightly
  obtain ⟨e, he, hranked, hwrong⟩ := hwronged
  have hrightful : w.Rightful e.id := by
    rcases hranked with ⟨e', he', hid, hsome⟩ | ⟨f, hf, hmem⟩
    · exact hid ▸ hrightly.ranked e' he' hsome
    · unfold Finalization.rankedIds at hmem
      split at hmem
      · rename_i ranking written hstage
        obtain ⟨r, hr, hid⟩ := List.mem_map.mp hmem
        exact hid ▸ (hrightly.final f hf ranking written hstage).2 r hr
      all_goals exact absurd hmem List.not_mem_nil
  obtain ⟨e', he', _, acc, hacc, _, hfailed, hnothing⟩ := hrightful
  obtain rfl := Option.some.inj (he'.symm.trans (Table.find?_eq_some.mpr ⟨he, rfl⟩))
  rcases hwrong with hwrong | hwrong
  · rw [accountStatus, hacc] at hwrong
    exact hfailed (Option.some.inj hwrong)
  · exact hwrong hnothing

/-- The run ends with a ranking that is not rightful. -/
def Misranks (trace : List ContestAction) : Prop :=
  ∃ w, run (step podium) (initial Table.empty) trace = some w ∧ ¬ w.RanksRightly podium

private theorem misranks_of_any {trace : List ContestAction}
    (htest : (run (step podium) (initial Table.empty) trace).any (fun w => w.Wronged) = true) :
    Misranks trace := by
  obtain ⟨w, hrun, hwronged⟩ := exists_of_run_any _ _ _ _ htest
  exact ⟨w, hrun, Wronged.not_ranksRightly (of_decide_eq_true hwronged)⟩

end ContestWorld

end PropFirm
