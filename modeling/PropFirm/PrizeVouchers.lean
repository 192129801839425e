import Mathlib
import PropFirm.Lib.Admission
import PropFirm.Lib.Transition

/-!
# Prize vouchers

Competitions and referral seasons are finalised the same way: the ranks are written one by one, the event
is marked completed, and every ranked entry with a voucher in the prize pool is issued one, unless it has
one already. Each statement commits by itself. A run takes up events that are not completed, so that what
a run leaves behind after it has marked one is not taken up again.

The scheduler's lock is a session's of its own, which can end before the run does. Any number of runs is
under way here, and the standings that each of them ranks are its own. A specification has its size as
parsed and its slug as trimmed.
-/

namespace PropFirm

open Admission Transition

inductive PrizeEngine
  | competition | referralSeason
  deriving DecidableEq

/-- The `voucher` of a prize; a size that is not a number is none. -/
structure VoucherSpec where
  accountSize : Option ℚ
  challengeModelSlug : String

def VoucherSpec.valid (spec : VoucherSpec) : Bool :=
  spec.accountSize.any (0 < ·) && spec.challengeModelSlug != ""

/-- A slot of `prize_pool_json`; many have a label only. -/
structure PrizeSlot where
  rank : Option ℚ
  voucher : Option VoucherSpec

/-- A later slot of a rank replaces an earlier one. -/
def voucherByRank (prizePool : List PrizeSlot) (rank : Nat) : Option VoucherSpec :=
  (prizePool.filter fun slot => slot.rank = some (rank : ℚ)).reverse.findSome? PrizeSlot.voucher

structure PrizeConfig where
  engine : PrizeEngine
  prizePool : List PrizeSlot

def PrizeConfig.hasVoucher (cfg : PrizeConfig) (rank : Nat) : Bool :=
  (voucherByRank cfg.prizePool rank).any VoucherSpec.valid

/-- An entry of the event; `completed` is the status of a competition's entry. -/
structure PrizeEntry where
  id : Nat
  completed : Bool
  finalRank : Option Nat
  deriving DecidableEq

instance : Keyed PrizeEntry Nat := ⟨PrizeEntry.id⟩

/-- The entry is ranked and has a valid voucher in the prize pool. -/
def PrizeEntry.wins (cfg : PrizeConfig) (e : PrizeEntry) : Bool :=
  (cfg.engine = .competition → e.completed) && e.finalRank.any cfg.hasVoucher

structure PrizeVoucher where
  code : String
  entryId : Nat
  deriving DecidableEq

/-- The code is the only unique column. -/
instance : Keyed PrizeVoucher String := ⟨PrizeVoucher.code⟩

/-- `issuing` has the winners still to come, and the one without a voucher whose insert is being tried,
with the number of codes that were taken. -/
inductive PrizeStage
  | due
  | ranking (remaining : List (Nat × Nat))
  | completed
  | issuing (winners : List Nat) (current : Option (Nat × Nat))

/-- The run of one instance over the event. -/
structure PrizeRun where
  id : Nat
  stage : PrizeStage

instance : Keyed PrizeRun Nat := ⟨PrizeRun.id⟩

namespace PrizeRun

def atStage (stage : PrizeStage) : Table.Rewrite PrizeRun where
  apply r := { r with stage := stage }
  key_apply _ := rfl

/-- The run has found an entry without a voucher and is about to insert one. -/
def inserts (entryId : Nat) (r : PrizeRun) : Bool :=
  match r.stage with
  | .issuing _ (some (current, _)) => current = entryId
  | .due | .ranking _ | .completed | .issuing _ none => false

/-- The run has yet to come by the entry: it reads the winners later, or has the entry among them. -/
def covers (entryId : Nat) (r : PrizeRun) : Bool :=
  match r.stage with
  | .due | .ranking _ | .completed => true
  | .issuing winners _ => entryId ∈ winners || r.inserts entryId

/-- The winner at the head is checked next. -/
def checks (r : PrizeRun) : Option Nat :=
  match r.stage with
  | .issuing (entryId :: _) none => some entryId
  | .due | .ranking _ | .completed | .issuing .. => none

/-- The fifth code is tried. -/
def lastAttempt (r : PrizeRun) : Bool :=
  match r.stage with
  | .issuing _ (some (_, attempts)) => 4 ≤ attempts
  | .due | .ranking _ | .completed | .issuing _ none => false

end PrizeRun

structure PrizeWorld where
  completed : Bool
  entries : Table PrizeEntry
  vouchers : Table PrizeVoucher
  runs : Table PrizeRun

/-- `rank` computes a run's standings, `proceed` is its next statement, for which a code is drawn, and
`fail` an error that ends it, or the end of its process. -/
inductive PrizeAction
  | start (id : Nat)
  | rank (id : Nat) (standings : List Nat)
  | proceed (id : Nat) (code : String)
  | fail (id : Nat)
  | disqualify (entryId : Nat)

namespace PrizeEntry

def rankedAt (rank : Nat) : Table.Rewrite PrizeEntry where
  apply e := { e with completed := true, finalRank := some rank }
  key_apply _ := rfl

def disqualified : Table.Rewrite PrizeEntry where
  apply e := { e with completed := false }
  key_apply _ := rfl

end PrizeEntry

/-- A competition updates the entry, and a season inserts it where it is not there. -/
def writeRank (engine : PrizeEngine) (entries : Table PrizeEntry) (entryId rank : Nat) : Table PrizeEntry :=
  match engine with
  | .competition => entries.updateAt entryId (PrizeEntry.rankedAt rank)
  | .referralSeason =>
    (entries.insert? ⟨entryId, true, some rank⟩).getD
      (entries.updateAt entryId (PrizeEntry.rankedAt rank))

namespace PrizeWorld

variable (cfg : PrizeConfig) (w : PrizeWorld)

def atStage (id : Nat) (stage : PrizeStage) : PrizeWorld :=
  { w with runs := w.runs.updateAt id (PrizeRun.atStage stage) }

def vouchersOf (entryId : Nat) : Nat := w.vouchers.rows.countP fun v => v.entryId = entryId

/-- The next statement of `finalizeCompetition` or `finalizeSeason`, from the ranks on. -/
def proceed (r : PrizeRun) (code : String) : Option PrizeWorld :=
  match r.stage with
  | .due => none
  | .ranking ((entryId, rank) :: remaining) =>
    some { w.atStage r.id (.ranking remaining) with entries := writeRank cfg.engine w.entries entryId rank }
  | .ranking [] => some { w.atStage r.id .completed with completed := true }
  | .completed =>
    let winners := w.entries.rows.filter fun e => e.wins cfg
    some (w.atStage r.id (.issuing (winners.map PrizeEntry.id) none))
  | .issuing (entryId :: winners) none =>
    if w.vouchersOf entryId ≠ 0 then some (w.atStage r.id (.issuing winners none))
    else some (w.atStage r.id (.issuing winners (some (entryId, 0))))
  | .issuing winners (some (entryId, attempts)) =>
    match w.vouchers.insert? ⟨code, entryId⟩ with
    | some vouchers => some { w.atStage r.id (.issuing winners none) with vouchers := vouchers }
    | none =>
      if attempts < 4 then some (w.atStage r.id (.issuing winners (some (entryId, attempts + 1))))
      else some (w.atStage r.id (.issuing winners none))
  | .issuing [] none => some { w with runs := w.runs.erase r.id }

def step (cfg : PrizeConfig) (w : PrizeWorld) : PrizeAction → Option PrizeWorld
  | .start id =>
    if w.completed then none
    else (w.runs.insert? ⟨id, .due⟩).map fun runs => { w with runs := runs }
  | .rank id standings => do
    match (← w.runs.find? id).stage with
    | .due => some (w.atStage id (.ranking (standings.zipIdx 1)))
    | _ => none
  | .proceed id code => do w.proceed cfg (← w.runs.find? id) code
  | .fail id => some { w with runs := w.runs.erase id }
  | .disqualify entryId => some { w with entries := w.entries.updateAt entryId PrizeEntry.disqualified }

/-! ### Exactly once -/

/-- No entry has two vouchers, and when the event is completed and no run over it is left, every winner
has one. -/
structure IssuedOnce (cfg : PrizeConfig) (w : PrizeWorld) : Prop where
  once : ∀ entryId, w.vouchersOf entryId ≤ 1
  all : w.completed → w.runs.rows = [] → ∀ e ∈ w.entries.rows, e.wins cfg → w.vouchersOf e.id = 1

/-- The event is running and nobody finalises it. -/
def Running (w : PrizeWorld) : Prop :=
  w.completed = false ∧ w.runs.rows = [] ∧ ∀ entryId, w.vouchersOf entryId ≤ 1

/-- An entry is checked while no run is between its own check and its insert for it, no run has five codes
in a row that are taken, and a run that fails when the event is completed leaves no winner behind who has
no voucher and whom no other run comes by. -/
def IssuesThrough (cfg : PrizeConfig) (w : PrizeWorld) : PrizeAction → Prop
  | .proceed id code => ∀ r ∈ w.runs.rows, r.id = id →
      (∀ entryId ∈ r.checks, ∀ s ∈ w.runs.rows, ¬ s.inserts entryId) ∧
        (r.lastAttempt → (w.vouchers.find? code).isNone)
  | .fail id => w.completed → ∀ e ∈ w.entries.rows, e.wins cfg →
      w.vouchersOf e.id ≠ 0 ∨ ∃ r ∈ w.runs.rows, r.id ≠ id ∧ r.covers e.id
  | .start _ | .rank .. | .disqualify _ => True

instance (cfg : PrizeConfig) (w : PrizeWorld) : DecidablePred (w.IssuesThrough cfg)
  | .proceed .. => inferInstanceAs (Decidable (∀ r ∈ w.runs.rows, _))
  | .fail _ => inferInstanceAs (Decidable (_ → _))
  | .start _ | .rank .. | .disqualify _ => isTrue trivial

/-- Of each entry, a voucher or a run that is about to insert one. -/
def OneEach (w : PrizeWorld) : Prop :=
  ∀ entryId, Keeps (fun v : PrizeVoucher => v.entryId = entryId) (fun r : PrizeRun => r.inserts entryId) 1
    w.vouchers w.runs

/-- Once the event is completed, every winner has a voucher or a run that comes by. -/
def Covered (cfg : PrizeConfig) (w : PrizeWorld) : Prop :=
  w.completed → ∀ e ∈ w.entries.rows, e.wins cfg →
    w.vouchersOf e.id ≠ 0 ∨ ∃ id, w.runs.HasAt (fun r => r.covers e.id) id

variable {cfg w}
variable {w' : PrizeWorld} {a : PrizeAction} {r : PrizeRun}

/-- A run that reads the winners later comes by everybody. -/
theorem Covered.of_all (id : Nat) (r : PrizeRun) (hrow : w.runs.find? id = some r)
    (hall : ∀ entryId, r.covers entryId) : w.Covered cfg :=
  fun _ e _ _ => .inr ⟨id, r, hrow, hall e.id⟩

/-- A run moves on: whom it came by, it still does, or he has a voucher now. -/
theorem Covered.move (hcovered : w.Covered cfg) {stage : PrizeStage} {vouchers : Table PrizeVoucher}
    (hrow : w.runs.find? r.id = some r)
    (hmore : ∀ entryId, w.vouchersOf entryId ≤ vouchers.rows.countP fun v => v.entryId = entryId)
    (hkeep : ∀ e ∈ w.entries.rows, e.wins cfg → r.covers e.id →
      (vouchers.rows.countP fun v => v.entryId = e.id) ≠ 0 ∨ ((PrizeRun.atStage stage).apply r).covers e.id) :
    Covered cfg { w.atStage r.id stage with vouchers := vouchers } := by
  intro hcompleted e he hwins
  rcases hcovered hcompleted e he hwins with hvoucher | ⟨id, hcovers⟩
  · exact .inl (lt_of_lt_of_le (Nat.pos_of_ne_zero hvoucher) (hmore e.id)).ne'
  · by_cases hid : id = r.id
    · subst hid
      rcases hkeep e he hwins ((Table.hasAt_iff hrow).mp hcovers) with hvoucher | hstill
      · exact .inl hvoucher
      · exact .inr ⟨r.id, (Table.hasAt_updateAt hrow).mpr (.inl ⟨rfl, hstill⟩)⟩
    · exact .inr ⟨id, (Table.hasAt_updateAt hrow).mpr (.inr ⟨hid, hcovers⟩)⟩

/-- A run may leave when it comes by nobody else who lacks a voucher. -/
theorem covered_erase {id : Nat}
    (hothers : w.completed → ∀ e ∈ w.entries.rows, e.wins cfg → w.vouchersOf e.id ≠ 0 ∨
      ∃ j ≠ id, w.runs.HasAt (fun r => r.covers e.id) j) :
    Covered cfg { w with runs := w.runs.erase id } := by
  intro hcompleted e he hwins
  rcases hothers hcompleted e he hwins with hvoucher | ⟨j, hj, hcovers⟩
  · exact .inl hvoucher
  · exact .inr ⟨j, Table.hasAt_erase.mpr ⟨hj, hcovers⟩⟩

theorem covered_proceed (hcovered : w.Covered cfg) {code : String} (hrow : w.runs.find? r.id = some r)
    (hfresh : r.lastAttempt → (w.vouchers.find? code).isNone)
    (hproceed : w.proceed cfg r code = some w') : w'.Covered cfg := by
  have hmoved (stage : PrizeStage) :
      (w.runs.updateAt r.id (PrizeRun.atStage stage)).find? r.id = some ((PrizeRun.atStage stage).apply r) := by
    rw [Table.find?_updateAt, hrow, Option.map_some, if_pos rfl]
  unfold proceed at hproceed
  split at hproceed
  next => cases hproceed
  next entryId rank remaining hstage =>
    obtain rfl := Option.some.inj hproceed
    exact .of_all _ _ (hmoved _) fun _ => rfl
  next hstage =>
    obtain rfl := Option.some.inj hproceed
    exact .of_all _ _ (hmoved _) fun _ => rfl
  next hstage =>
    obtain rfl := Option.some.inj hproceed
    refine hcovered.move hrow (fun _ => le_rfl) fun e he hwins _ => .inr ?_
    have hwinner : e.id ∈ (w.entries.rows.filter fun e => e.wins cfg).map PrizeEntry.id :=
      List.mem_map_of_mem (List.mem_filter.mpr ⟨he, hwins⟩)
    exact Bool.or_eq_true_iff.mpr (.inl (decide_eq_true hwinner))
  next entryId winners hstage =>
    split at hproceed
    all_goals
      rename_i hvoucher
      obtain rfl := Option.some.inj hproceed
      refine hcovered.move hrow (fun _ => le_rfl) fun e _ _ hcovers => ?_
      rw [PrizeRun.covers, hstage, PrizeRun.inserts, hstage] at hcovers
      simp only [List.mem_cons, Bool.or_false, decide_eq_true_eq] at hcovers
    · rcases hcovers with heq | hmem
      · exact .inl (heq ▸ hvoucher)
      · exact .inr (Bool.or_eq_true_iff.mpr (.inl (decide_eq_true hmem)))
    · rcases hcovers with heq | hmem
      · exact .inr (Bool.or_eq_true_iff.mpr (.inr (decide_eq_true heq.symm)))
      · exact .inr (Bool.or_eq_true_iff.mpr (.inl (decide_eq_true hmem)))
  next winners entryId attempts hstage =>
    have hcoversIff : ∀ e, r.covers e → e ∈ winners ∨ entryId = e := by
      intro e hcovers
      rw [PrizeRun.covers, hstage, PrizeRun.inserts, hstage] at hcovers
      simpa using hcovers
    split at hproceed
    · rename_i vouchers hinsert
      obtain rfl := Option.some.inj hproceed
      have hrows := (Table.insert?_eq_some hinsert).2
      refine hcovered.move hrow (fun id => ?_) fun e _ _ hcovers => ?_
      · rw [hrows, List.countP_cons]
        exact Nat.le_add_right _ _
      · rcases hcoversIff e.id hcovers with hmem | heq
        · exact .inr (Bool.or_eq_true_iff.mpr (.inl (decide_eq_true hmem)))
        · have hnew : (⟨code, entryId⟩ : PrizeVoucher) ∈ vouchers.rows := hrows ▸ List.mem_cons_self
          exact .inl (List.countP_pos_iff.mpr ⟨_, hnew, by simpa using heq⟩).ne'
    · rename_i hinsert
      split at hproceed
      · obtain rfl := Option.some.inj hproceed
        refine hcovered.move hrow (fun _ => le_rfl) fun e _ _ hcovers => .inr ?_
        rcases hcoversIff e.id hcovers with hmem | heq
        · exact Bool.or_eq_true_iff.mpr (.inl (decide_eq_true hmem))
        · exact Bool.or_eq_true_iff.mpr (.inr (decide_eq_true heq))
      · rename_i hattempts
        -- the fifth code would not have been taken
        have hlast : r.lastAttempt := by
          rw [PrizeRun.lastAttempt, hstage]
          exact decide_eq_true (not_lt.mp hattempts)
        have hsome : (w.vouchers.insert? ⟨code, entryId⟩).isSome :=
          Table.insert?_isSome (Option.isNone_iff_eq_none.mp (hfresh hlast))
        rw [hinsert] at hsome
        cases hsome
  next hstage =>
    obtain rfl := Option.some.inj hproceed
    refine covered_erase fun hcompleted e he hwins => ?_
    rcases hcovered hcompleted e he hwins with hvoucher | ⟨id, hcovers⟩
    · exact .inl hvoucher
    · refine .inr ⟨id, ?_, hcovers⟩
      rintro rfl
      have hnone := (Table.hasAt_iff hrow).mp hcovers
      rw [PrizeRun.covers, hstage, PrizeRun.inserts, hstage] at hnone
      cases hnone

theorem covered_step (hcovered : w.Covered cfg) (hok : w.IssuesThrough cfg a)
    (hstep : w.step cfg a = some w') : w'.Covered cfg := by
  cases a with
  | start id =>
    dsimp only [step] at hstep
    split at hstep
    · cases hstep
    rename_i hrunning
    obtain ⟨runs, _, rfl⟩ := Option.map_eq_some_iff.mp hstep
    exact fun hcompleted => absurd hcompleted hrunning
  | rank id standings =>
    obtain ⟨r, hrow, hrank⟩ := Option.bind_eq_some_iff.mp hstep
    split at hrank
    · obtain rfl := Option.some.inj hrank
      refine .of_all id ((PrizeRun.atStage (.ranking (standings.zipIdx 1))).apply r) ?_ fun _ => rfl
      exact (Table.find?_updateAt _ _ _ _).trans (by rw [hrow, Option.map_some, if_pos rfl])
    · cases hrank
  | proceed id code =>
    obtain ⟨r, hrow, hproceed⟩ := Option.bind_eq_some_iff.mp hstep
    obtain ⟨hmem, rfl⟩ := Table.find?_eq_some.mp hrow
    exact covered_proceed hcovered hrow (hok r hmem rfl).2 hproceed
  | fail id =>
    obtain rfl := Option.some.inj hstep
    refine covered_erase fun hcompleted e he hwins => ?_
    refine (hok hcompleted e he hwins).imp_right fun ⟨r, hr, hne, hcovers⟩ => ?_
    exact ⟨r.id, hne, r, Table.find?_eq_some.mpr ⟨hr, rfl⟩, hcovers⟩
  | disqualify entryId =>
    obtain rfl := Option.some.inj hstep
    intro hcompleted e he hwins
    rcases Table.mem_updateAt he with hold | ⟨e', he', _, rfl⟩
    · exact hcovered hcompleted e hold hwins
    · refine hcovered hcompleted e' he' ?_
      -- who wins disqualified wins qualified
      rw [PrizeEntry.wins, Bool.and_eq_true, decide_eq_true_eq] at hwins ⊢
      exact ⟨fun hengine => absurd (hwins.1 hengine) Bool.false_ne_true, hwins.2⟩

/-! ### At most once -/

theorem oneEach_proceed (hone : w.OneEach) {code : String} (hrow : w.runs.find? r.id = some r)
    (halone : ∀ entryId ∈ r.checks, ∀ s ∈ w.runs.rows, ¬ s.inserts entryId)
    (hproceed : w.proceed cfg r code = some w') : w'.OneEach := by
  have hmove (stage : PrizeStage) (hquiet : ∀ entryId, ¬ ((PrizeRun.atStage stage).apply r).inserts entryId) :
      (w.atStage r.id stage).OneEach :=
    fun entryId => (hone entryId).update_caller hrow fun hinserts => absurd hinserts (hquiet entryId)
  unfold proceed at hproceed
  split at hproceed
  next => cases hproceed
  next =>
    obtain rfl := Option.some.inj hproceed
    exact hmove _ fun _ => Bool.false_ne_true
  next =>
    obtain rfl := Option.some.inj hproceed
    exact hmove _ fun _ => Bool.false_ne_true
  next =>
    obtain rfl := Option.some.inj hproceed
    exact hmove _ fun _ => Bool.false_ne_true
  next entryId winners hstage =>
    split at hproceed
    · obtain rfl := Option.some.inj hproceed
      exact hmove _ fun _ => Bool.false_ne_true
    · rename_i hnone
      obtain rfl := Option.some.inj hproceed
      refine fun id => (hone id).update_caller hrow fun hinserts => .inr ⟨?_, ?_⟩
      · rintro j ⟨s, hs, hother⟩
        obtain rfl : entryId = id := of_decide_eq_true hinserts
        refine halone entryId ?_ s (Table.find?_eq_some.mp hs).1 hother
        rw [PrizeRun.checks, hstage]
        rfl
      · obtain rfl : entryId = id := of_decide_eq_true hinserts
        have hzero := not_not.mp hnone
        rw [vouchersOf] at hzero
        rw [hzero]
        exact one_pos
  next winners entryId attempts hstage =>
    split at hproceed
    · rename_i vouchers hinsert
      obtain rfl := Option.some.inj hproceed
      refine fun id => (hone id).join_update hrow hinsert (fun hcounts => ?_) Bool.false_ne_true
      rw [PrizeRun.inserts, hstage]
      exact hcounts
    · split at hproceed
      · obtain rfl := Option.some.inj hproceed
        refine fun id => (hone id).update_caller hrow fun hinserts => .inl ?_
        rw [PrizeRun.inserts, hstage]
        exact hinserts
      · obtain rfl := Option.some.inj hproceed
        exact hmove _ fun _ => Bool.false_ne_true
  next =>
    obtain rfl := Option.some.inj hproceed
    exact fun entryId => (hone entryId).erase r.id

theorem oneEach_step (hone : w.OneEach) (hok : w.IssuesThrough cfg a) (hstep : w.step cfg a = some w') :
    w'.OneEach := by
  cases a with
  | start id =>
    dsimp only [step] at hstep
    split at hstep
    · cases hstep
    obtain ⟨runs, hinsert, rfl⟩ := Option.map_eq_some_iff.mp hstep
    exact fun entryId => (hone entryId).insert_caller hinsert Bool.false_ne_true
  | rank id standings =>
    obtain ⟨r, hrow, hrank⟩ := Option.bind_eq_some_iff.mp hstep
    split at hrank
    · obtain rfl := Option.some.inj hrank
      exact fun entryId => (hone entryId).update_caller hrow fun hinserts => absurd hinserts Bool.false_ne_true
    · cases hrank
  | proceed id code =>
    obtain ⟨r, hrow, hproceed⟩ := Option.bind_eq_some_iff.mp hstep
    obtain ⟨hmem, rfl⟩ := Table.find?_eq_some.mp hrow
    exact oneEach_proceed hone hrow (hok r hmem rfl).1 hproceed
  | fail id =>
    obtain rfl := Option.some.inj hstep
    exact fun entryId => (hone entryId).erase id
  | disqualify entryId =>
    obtain rfl := Option.some.inj hstep
    exact hone

theorem issuedOnce_of_issuesThrough (hreach : Reach (step cfg) (IssuesThrough cfg) Running w) :
    w.IssuedOnce cfg := by
  have hinv : w.OneEach ∧ w.Covered cfg := by
    apply hreach.invariant
    · rintro s ⟨hrunning, hruns, honce⟩
      refine ⟨fun entryId => .of_empty hruns (Int.ofNat_le.mpr (honce entryId)), fun hcompleted => ?_⟩
      rw [hrunning] at hcompleted
      cases hcompleted
    · exact fun s a s' hinv hok hstep => ⟨oneEach_step hinv.1 hok hstep, covered_step hinv.2 hok hstep⟩
  have honce : ∀ entryId, w.vouchersOf entryId ≤ 1 := fun entryId => Int.ofNat_le.mp (hinv.1 entryId).le
  refine ⟨honce, fun hcompleted hruns e he hwins => ?_⟩
  rcases hinv.2 hcompleted e he hwins with hvoucher | ⟨id, hcovers⟩
  · exact le_antisymm (honce e.id) (Nat.pos_of_ne_zero hvoucher)
  · exact absurd hcovers (Table.not_hasAt_of_rows_eq_nil hruns)

/-! ### A prize lost and a prize won twice -/

/-- The winner gets an account. -/
def onePrize (engine : PrizeEngine) : PrizeConfig where
  engine := engine
  prizePool := [⟨some 2, none⟩, ⟨some 1, some ⟨some 5000, "1-step"⟩⟩]

def oneEntrant : PrizeWorld := ⟨false, .single ⟨1, false, none⟩, .empty, .empty⟩

theorem oneEntrant_running : oneEntrant.Running := ⟨rfl, rfl, fun _ => Nat.zero_le 1⟩

/-- The run ends between marking the event completed and reading the winners. -/
def diesAfterCompleting : List PrizeAction :=
  [.start 1, .rank 1 [1], .proceed 1 "", .proceed 1 "", .fail 1]

/-- Two runs check before either inserts. -/
def checksTwice : List PrizeAction :=
  [.start 1, .start 2, .rank 1 [1], .rank 2 [1], .proceed 1 "", .proceed 2 "", .proceed 1 "", .proceed 2 "",
    .proceed 1 "", .proceed 2 "", .proceed 1 "", .proceed 2 "", .proceed 1 "WIN-A", .proceed 2 "WIN-B"]

/-- Both runs start where they may, and leave the prize not issued exactly once. -/
def Misissues (engine : PrizeEngine) : Prop :=
  oneEntrant.Running ∧ ∀ trace ∈ [diesAfterCompleting, checksTwice],
    ∃ w, run (step (onePrize engine)) oneEntrant trace = some w ∧ ¬ w.IssuedOnce (onePrize engine)

private theorem misissues (engine : PrizeEngine) : Misissues engine := by
  refine ⟨oneEntrant_running, List.forall_mem_cons.mpr ⟨?_, List.forall_mem_singleton.mpr ?_⟩⟩
  · obtain ⟨w, hrun, htest⟩ := exists_of_run_any (step (onePrize engine)) oneEntrant diesAfterCompleting
      (fun w => w.completed ∧ w.runs.rows = [] ∧ ∃ e ∈ w.entries.rows, e.wins (onePrize engine) ∧
        w.vouchersOf e.id = 0) (by cases engine <;> decide +kernel)
    obtain ⟨hcompleted, hruns, e, he, hwins, hzero⟩ := of_decide_eq_true htest
    refine ⟨w, hrun, fun hissued => ?_⟩
    rw [hissued.all hcompleted hruns e he hwins] at hzero
    cases hzero
  · obtain ⟨w, hrun, htest⟩ := exists_of_run_any (step (onePrize engine)) oneEntrant checksTwice
      (fun w => w.vouchersOf 1 = 2) (by cases engine <;> decide +kernel)
    refine ⟨w, hrun, fun hissued => ?_⟩
    have honce := hissued.once 1
    rw [of_decide_eq_true htest] at honce
    exact absurd honce (by decide)

theorem vouchers_not_issuedOnce : Misissues .competition ∧ Misissues .referralSeason :=
  ⟨misissues .competition, misissues .referralSeason⟩

/-- A run dies while it ranks, and the next one is through. -/
def secondRunIssues : List PrizeAction :=
  [.start 1, .rank 1 [1], .fail 1, .start 2, .rank 2 [1], .proceed 2 "", .proceed 2 "", .proceed 2 "",
    .proceed 2 "", .proceed 2 "WIN-A", .proceed 2 ""]

theorem secondRunIssues_issuedOnce :
    ∃ w, run (step (onePrize .competition)) oneEntrant secondRunIssues = some w ∧ w.vouchersOf 1 = 1 ∧
      w.IssuedOnce (onePrize .competition) := by
  obtain ⟨w, hrun, htest⟩ := exists_of_run_any (step (onePrize .competition)) oneEntrant secondRunIssues
    (fun w => w.vouchersOf 1 = 1) (by decide +kernel)
  have hok : RunOk (step (onePrize .competition)) (IssuesThrough (onePrize .competition)) oneEntrant
      secondRunIssues := by decide +kernel
  exact ⟨w, hrun, of_decide_eq_true htest,
    issuedOnce_of_issuesThrough (.of_run (.init oneEntrant_running) hok hrun)⟩

end PrizeWorld

end PropFirm
