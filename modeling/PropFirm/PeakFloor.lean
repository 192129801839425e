import PropFirm.Verdicts
import PropFirm.Lib.Transition

/-!
# The peak in memory and the peak in the database

The event engine keeps an account's peak equity and locked floor in its index entry, notes what a tick
raised in a map of dirty peaks, and writes the map to the database on a timer. A failed write goes back
into the map. A full reconcile rebuilds the entry from the account's row, whatever the entry held: a
raise that has not reached the row by the time the row is read is gone, and the floor falls.

`PeakState` follows one account. A reconcile reads the row and rebuilds the entry at different times,
so it may see any row the account has had.
-/

namespace PropFirm

open Transition

/-- `_dirtyPeaks`' value: `none` is a field that did not change. -/
structure DirtyPeak where
  peak : Option ℚ
  lockedFloor : Option ℚ
  deriving DecidableEq

def DrawdownResolution.dirtyPeak (resolved : DrawdownResolution) : DirtyPeak where
  peak := if resolved.peakChanged then some resolved.nextPeak else none
  lockedFloor := if resolved.lockedFloorChanged then resolved.nextLockedFloor else none

/-- `rows` is the account's row with all its earlier versions, the latest first, and `recorded` the
highest equity the engine has taken note of. -/
structure PeakState where
  entry : AccountEntry
  rows : List Account
  dirty : Option DirtyPeak
  inFlight : List DirtyPeak
  recorded : ℚ

def PeakState.load (row : Account) (limits : Limits) : PeakState where
  entry := buildAccountEntry row limits 0 0
  rows := [row]
  dirty := none
  inFlight := []
  recorded := row.drawdown.priorPeak

/-- `rowWrite` is the interval path or the challenge engine persisting the anchors it resolved from a
row it has read, and `settingsResolved` the answer of a funded-model lookup that was not cached when the
entry was rebuilt. -/
inductive PeakAction
  | tick (currentBalance floatingPnl : ℚ)
  | beginFlush
  | flushSucceeds (index : Nat)
  | flushFails (index : Nat)
  | rowWrite (asOf : Nat) (opts : DrawdownOptions)
  | fullReconcile (asOf : Nat) (limits : Limits)
  | settingsResolved (limits : Limits)

/-- `setPeakEquity`'s update of one field. -/
def raiseAnchor (current value : Option ℚ) : Option ℚ :=
  match current, value with
  | _, none => current
  | none, some v => some v
  | some c, some v => if c < v then some v else some c

def setPeakEquity (entry : AccountEntry) (peak lockedFloor : Option ℚ) : AccountEntry :=
  { entry with
    eodPeakEquity := raiseAnchor entry.eodPeakEquity peak
    eodTrailingFloor := raiseAnchor entry.eodTrailingFloor lockedFloor }

def higherPeakValue (a b : Option ℚ) : Option ℚ :=
  match a, b with
  | none, b => b
  | some a, none => some a
  | some a, some b => if b < a then some a else some b

/-- What a failed flush puts back, beside what ticks have noted since. -/
def DirtyPeak.requeue (pending : Option DirtyPeak) (update : DirtyPeak) : DirtyPeak where
  peak := higherPeakValue (pending.bind DirtyPeak.peak) update.peak
  lockedFloor := higherPeakValue (pending.bind DirtyPeak.lockedFloor) update.lockedFloor

def AccountEntry.scanned (entry : AccountEntry) (currentBalance floatingPnl : ℚ) : AccountEntry :=
  { entry with currentBalance := currentBalance, floatingPnl := floatingPnl }

namespace PeakState

/-- `flushPeakEquityUpdates` reaches the account's row. -/
def writeRow (s : PeakState) (update : DirtyPeak) : Option PeakState :=
  s.rows.head?.map fun row =>
    { s with rows := (Account.flushed ⟨row.id, update.peak, update.lockedFloor⟩).apply row :: s.rows }

/-- `runTick`, as far as the anchors go. -/
def tick (s : PeakState) (currentBalance floatingPnl : ℚ) : PeakState :=
  let entry := s.entry.scanned currentBalance floatingPnl
  match entry.limits.maxDrawdownPct.filter (0 < ·) with
  | none => { s with entry := entry }
  | some maxDrawdownPct =>
    let resolved := entry.resolution maxDrawdownPct
    let recorded := max s.recorded entry.equity
    if resolved.peakChanged ∨ resolved.lockedFloorChanged then
      { s with
        entry := setPeakEquity entry (some resolved.nextPeak) resolved.nextLockedFloor
        dirty := some resolved.dirtyPeak
        recorded := recorded }
    else { s with entry := entry, recorded := recorded }

def step (s : PeakState) : PeakAction → Option PeakState
  | .tick currentBalance floatingPnl => some (s.tick currentBalance floatingPnl)
  | .beginFlush => s.dirty.map fun update =>
    { s with dirty := none, inFlight := update :: s.inFlight }
  | .flushSucceeds index => do
    let update ← s.inFlight[index]?
    { s with inFlight := s.inFlight.eraseIdx index }.writeRow update
  | .flushFails index => do
    let update ← s.inFlight[index]?
    some { s with
      inFlight := s.inFlight.eraseIdx index
      dirty := some (DirtyPeak.requeue s.dirty update) }
  | .rowWrite asOf opts => do
    let row ← s.rows[asOf]?
    s.writeRow (resolveEffectiveFloor row.drawdown opts).dirtyPeak
  | .fullReconcile asOf limits => do
    let row ← s.rows[asOf]?
    some { s with
      entry := buildAccountEntry row limits s.entry.floatingPnl s.entry.todayRealizedPnl
      recorded := max s.recorded row.drawdown.priorPeak }
  | .settingsResolved limits => some { s with entry := { s.entry with limits := limits } }

end PeakState

/-! ### The floor of an entry -/

theorem raiseAnchor_of_le {current value : Option ℚ} (hle : AnchorLe current value) :
    raiseAnchor current value = value := by
  cases value with
  | none =>
    cases current with
    | none => rfl
    | some c => obtain ⟨_, hnone, _⟩ := hle c rfl; cases hnone
  | some v =>
    cases current with
    | none => rfl
    | some c =>
      obtain ⟨_, ⟨⟩, hcv⟩ := hle c rfl
      rw [raiseAnchor]
      split
      · rfl
      · rename_i hnlt
        rw [le_antisymm hcv (not_lt.mp hnlt)]

namespace AccountEntry

def floor (entry : AccountEntry) (maxDrawdownPct : ℚ) : ℚ :=
  entry.drawdown.floor maxDrawdownPct entry.limits.drawdownLocksAtPct

def SameRules (entry : AccountEntry) (limits : Limits) : Prop :=
  limits.maxDrawdownPct = entry.limits.maxDrawdownPct ∧
    limits.drawdownLocksAtPct = entry.limits.drawdownLocksAtPct

instance (entry : AccountEntry) (limits : Limits) : Decidable (entry.SameRules limits) :=
  inferInstanceAs (Decidable (_ ∧ _))

/-- `next` has the rules of `entry` and has lost none of its anchors. -/
structure KeepsAnchors (entry next : AccountEntry) : Prop where
  accountType : entry.accountType = next.accountType
  startingBalance : entry.startingBalance = next.startingBalance
  rules : entry.SameRules next.limits
  peak : entry.drawdown.priorPeak ≤ next.drawdown.priorPeak
  lockedFloor : ∀ pct ∈ entry.limits.maxDrawdownPct, ∀ locksAtPct ∈ entry.limits.drawdownLocksAtPct,
    entry.drawdown.KeepsLockedFloor next.drawdown pct locksAtPct

theorem KeepsAnchors.scanned (entry : AccountEntry) (currentBalance floatingPnl : ℚ) :
    KeepsAnchors entry (entry.scanned currentBalance floatingPnl) :=
  ⟨rfl, rfl, ⟨rfl, rfl⟩, le_rfl, fun _ _ _ _ => .of_anchorLe (.refl _)⟩

theorem KeepsAnchors.refl (entry : AccountEntry) : KeepsAnchors entry entry :=
  .scanned entry entry.currentBalance entry.floatingPnl

theorem KeepsAnchors.floor_le {entry next : AccountEntry} {maxDrawdownPct : ℚ}
    (hkeeps : KeepsAnchors entry next) (hpct : entry.limits.maxDrawdownPct = some maxDrawdownPct)
    (hmax : maxDrawdownPct ≤ 100) : entry.floor maxDrawdownPct ≤ next.floor maxDrawdownPct := by
  rw [floor, floor, hkeeps.rules.2]
  exact DrawdownAccount.floor_mono hmax hkeeps.accountType
    (congrArg Cents.dollars hkeeps.startingBalance) hkeeps.peak (hkeeps.lockedFloor _ hpct)

end AccountEntry

namespace PeakState

variable {s s' : PeakState} {currentBalance floatingPnl maxDrawdownPct : ℚ}

theorem setPeakEquity_drawdown {entry : AccountEntry} {peak : ℚ} {lockedFloor : Option ℚ}
    (hpeak : AnchorLe entry.eodPeakEquity (some peak))
    (hlocked : AnchorLe entry.eodTrailingFloor lockedFloor) :
    (setPeakEquity entry (some peak) lockedFloor).drawdown =
      { entry.drawdown with eodPeakEquity := some peak, eodTrailingFloor := lockedFloor } := by
  simp only [setPeakEquity, AccountEntry.drawdown, raiseAnchor_of_le hpeak, raiseAnchor_of_le hlocked]

theorem setPeakEquity_resolution (entry : AccountEntry) (maxDrawdownPct : ℚ) :
    (setPeakEquity entry (some (entry.resolution maxDrawdownPct).nextPeak)
      (entry.resolution maxDrawdownPct).nextLockedFloor).drawdown
        = entry.drawdown.raised (entry.resolution maxDrawdownPct) := by
  refine setPeakEquity_drawdown ?_ (DrawdownAccount.resolveEffectiveFloor_keeps entry.drawdown _)
  intro peak hheld
  refine ⟨_, rfl, ?_⟩
  rw [AccountEntry.resolution, resolveEffectiveFloor_nextPeak]
  refine le_max_of_le_left (le_of_eq ?_)
  simp [DrawdownAccount.priorPeak, AccountEntry.drawdown, Option.mem_def.mp hheld]

theorem tick_cases (s : PeakState) (currentBalance floatingPnl : ℚ) :
    let entry := s.entry.scanned currentBalance floatingPnl
    s.tick currentBalance floatingPnl = { s with entry := entry } ∧
        entry.limits.maxDrawdownPct.filter (0 < ·) = none ∨
      ∃ maxDrawdownPct, entry.limits.maxDrawdownPct.filter (0 < ·) = some maxDrawdownPct ∧
        (s.tick currentBalance floatingPnl =
            { s with entry := entry, recorded := max s.recorded entry.equity } ∧
            entry.equity ≤ entry.drawdown.priorPeak ∨
          s.tick currentBalance floatingPnl =
            { s with
              entry := setPeakEquity entry (some (entry.resolution maxDrawdownPct).nextPeak)
                (entry.resolution maxDrawdownPct).nextLockedFloor
              dirty := some (entry.resolution maxDrawdownPct).dirtyPeak
              recorded := max s.recorded entry.equity }) := by
  intro entry
  rw [tick]
  split
  · rename_i hnone
    exact .inl ⟨rfl, hnone⟩
  · rename_i maxDrawdownPct hsome
    refine .inr ⟨maxDrawdownPct, hsome, ?_⟩
    dsimp only
    split
    · exact .inr rfl
    · rename_i hsame
      refine .inl ⟨rfl, not_lt.mp fun hlt => hsame (.inl ?_)⟩
      rw [AccountEntry.resolution, resolveEffectiveFloor_peakChanged]
      exact decide_eq_true hlt

/-- The floor a tick enforces is the floor it leaves in force. -/
theorem tick_floor (hpct : s.entry.limits.maxDrawdownPct = some maxDrawdownPct)
    (hpos : 0 < maxDrawdownPct) :
    (s.tick currentBalance floatingPnl).entry.floor maxDrawdownPct
      = ((s.entry.scanned currentBalance floatingPnl).resolution maxDrawdownPct).floor := by
  have hrule : (s.entry.scanned currentBalance floatingPnl).limits.maxDrawdownPct.filter (0 < ·)
      = some maxDrawdownPct := by
    simp [AccountEntry.scanned, hpct, hpos, Option.filter_some]
  obtain ⟨_, hnone⟩ | ⟨pct, hsome, ⟨htick, hbelow⟩ | htick⟩ :=
    s.tick_cases currentBalance floatingPnl
  · rw [hrule] at hnone
    cases hnone
  · rw [htick, AccountEntry.floor, DrawdownAccount.floor_eq, AccountEntry.resolution,
      DrawdownAccount.resolveEffectiveFloor_floor]
    simp only [max_eq_left hbelow]
  · obtain rfl := Option.some.inj (hrule.symm.trans hsome)
    rw [htick, AccountEntry.floor]
    dsimp only
    rw [setPeakEquity_resolution]
    exact DrawdownAccount.raised_floor _ _

theorem tick_keepsAnchors (s : PeakState) (currentBalance floatingPnl : ℚ) :
    s.entry.KeepsAnchors (s.tick currentBalance floatingPnl).entry := by
  obtain ⟨htick, _⟩ | ⟨pct, _, ⟨htick, _⟩ | htick⟩ := s.tick_cases currentBalance floatingPnl
  · rw [htick]
    exact .scanned s.entry currentBalance floatingPnl
  · rw [htick]
    exact .scanned s.entry currentBalance floatingPnl
  · rw [htick]
    refine ⟨rfl, rfl, ⟨rfl, rfl⟩, ?_, fun _ _ _ _ => .of_anchorLe ?_⟩
    · dsimp only
      rw [setPeakEquity_resolution, AccountEntry.resolution, DrawdownAccount.raised_priorPeak]
      exact le_max_left _ _
    · dsimp only
      rw [setPeakEquity_resolution]
      exact DrawdownAccount.resolveEffectiveFloor_keeps s.entry.drawdown _

theorem tick_recorded (hrecorded : s.recorded ≤ s.entry.drawdown.priorPeak) :
    (s.tick currentBalance floatingPnl).recorded
      ≤ (s.tick currentBalance floatingPnl).entry.drawdown.priorPeak := by
  obtain ⟨htick, _⟩ | ⟨pct, _, ⟨htick, hbelow⟩ | htick⟩ := s.tick_cases currentBalance floatingPnl
  · rw [htick]
    exact hrecorded
  · rw [htick]
    exact max_le hrecorded hbelow
  · rw [htick]
    dsimp only
    rw [setPeakEquity_resolution, AccountEntry.resolution, DrawdownAccount.raised_priorPeak]
    exact max_le_max_right _ hrecorded

theorem tick_rows (s : PeakState) (currentBalance floatingPnl : ℚ) :
    (s.tick currentBalance floatingPnl).rows = s.rows := by
  obtain ⟨htick, _⟩ | ⟨pct, _, ⟨htick, _⟩ | htick⟩ := s.tick_cases currentBalance floatingPnl <;>
    rw [htick]

/-! ### Runs -/

/-- A rebuild reads a row that holds the anchors in memory, and the rules stay as they are. -/
def KeepsAnchors (s : PeakState) : PeakAction → Prop
  | .fullReconcile asOf limits => s.entry.SameRules limits ∧ ∀ row ∈ s.rows[asOf]?,
      s.entry.drawdown.priorPeak ≤ row.drawdown.priorPeak ∧
        ∀ pct ∈ limits.maxDrawdownPct, ∀ locksAtPct ∈ limits.drawdownLocksAtPct,
          s.entry.drawdown.KeepsLockedFloor row.drawdown pct locksAtPct
  | .settingsResolved limits => s.entry.SameRules limits
  | _ => True

instance (s : PeakState) : DecidablePred s.KeepsAnchors
  | .fullReconcile _ _ => inferInstanceAs (Decidable (_ ∧ ∀ row ∈ _, _))
  | .settingsResolved limits => inferInstanceAs (Decidable (s.entry.SameRules limits))
  | .tick _ _ | .beginFlush | .flushSucceeds _ | .flushFails _ | .rowWrite _ _ => isTrue trivial

/-- Every version of the row is a row of the entry's account, and the peak in memory is no lower than
what has been recorded. -/
structure Consistent (s : PeakState) : Prop where
  rows : ∀ row ∈ s.rows,
    row.accountType = s.entry.accountType ∧ row.startingBalance = s.entry.startingBalance
  recorded : s.recorded ≤ s.entry.drawdown.priorPeak

theorem load_consistent (row : Account) (limits : Limits) : (load row limits).Consistent where
  rows := by
    intro row' hrow
    obtain rfl := List.mem_singleton.mp hrow
    exact ⟨rfl, rfl⟩
  recorded := le_rfl

theorem writeRow_eq_some {update : DirtyPeak} (hwrite : s.writeRow update = some s') :
    s'.entry = s.entry ∧ s'.recorded = s.recorded ∧ (s.Consistent → s'.Consistent) := by
  obtain ⟨row, hrow, rfl⟩ := Option.map_eq_some_iff.mp hwrite
  refine ⟨rfl, rfl, fun hcons => ⟨?_, hcons.recorded⟩⟩
  intro row' hmem
  obtain rfl | hmem := List.mem_cons.mp hmem
  · exact hcons.rows row (List.mem_of_head? hrow)
  · exact hcons.rows row' hmem

theorem step_keepsAnchors {a : PeakAction} (hcons : s.Consistent) (hok : s.KeepsAnchors a)
    (hstep : step s a = some s') : s.entry.KeepsAnchors s'.entry ∧ s'.Consistent := by
  cases a with
  | tick currentBalance floatingPnl =>
    obtain rfl := Option.some.inj hstep
    have hkeeps := s.tick_keepsAnchors currentBalance floatingPnl
    refine ⟨hkeeps, ?_, tick_recorded hcons.recorded⟩
    rw [tick_rows, ← hkeeps.accountType, ← hkeeps.startingBalance]
    exact hcons.rows
  | beginFlush =>
    obtain ⟨update, _, rfl⟩ := Option.map_eq_some_iff.mp hstep
    exact ⟨.refl _, hcons.rows, hcons.recorded⟩
  | flushSucceeds index =>
    simp only [step, Option.bind_eq_bind, Option.bind_eq_some_iff] at hstep
    obtain ⟨update, _, hwrite⟩ := hstep
    obtain ⟨hentry, _, hnext⟩ := writeRow_eq_some hwrite
    exact ⟨hentry ▸ .refl _, hnext ⟨hcons.rows, hcons.recorded⟩⟩
  | flushFails index =>
    simp only [step, Option.bind_eq_bind, Option.bind_eq_some_iff] at hstep
    obtain ⟨update, _, hnext⟩ := hstep
    obtain rfl := Option.some.inj hnext
    exact ⟨.refl _, hcons.rows, hcons.recorded⟩
  | rowWrite asOf opts =>
    simp only [step, Option.bind_eq_bind, Option.bind_eq_some_iff] at hstep
    obtain ⟨row, _, hwrite⟩ := hstep
    obtain ⟨hentry, _, hnext⟩ := writeRow_eq_some hwrite
    exact ⟨hentry ▸ .refl _, hnext hcons⟩
  | fullReconcile asOf limits =>
    simp only [step, Option.bind_eq_bind, Option.bind_eq_some_iff] at hstep
    obtain ⟨row, hrow, hnext⟩ := hstep
    obtain rfl := Option.some.inj hnext
    obtain ⟨hrules, hanchors⟩ := hok
    obtain ⟨hpeak, hlocked⟩ := hanchors row hrow
    obtain ⟨htype, hstart⟩ := hcons.rows row (List.mem_of_getElem? hrow)
    refine ⟨⟨htype.symm, hstart.symm, hrules, hpeak, hrules.1 ▸ hrules.2 ▸ hlocked⟩, ?_, ?_⟩
    · intro row' hmem
      obtain ⟨htype', hstart'⟩ := hcons.rows row' hmem
      exact ⟨htype'.trans htype.symm, hstart'.trans hstart.symm⟩
    · exact max_le (hcons.recorded.trans hpeak) le_rfl
  | settingsResolved limits =>
    obtain rfl := Option.some.inj hstep
    exact ⟨⟨rfl, rfl, hok, le_rfl, fun _ _ _ _ => .of_anchorLe (.refl _)⟩, hcons.rows,
      hcons.recorded⟩

theorem reach_consistent (hreach : Reach step KeepsAnchors (fun s => ∃ row limits, s = load row limits) s) :
    s.Consistent := by
  refine hreach.invariant ?_ fun s a s' hcons hok hstep => (step_keepsAnchors hcons hok hstep).2
  rintro s ⟨row, limits, rfl⟩
  exact load_consistent row limits

theorem run_keepsFloor {as : List PeakAction} (hcons : s.Consistent)
    (hpct : s.entry.limits.maxDrawdownPct = some maxDrawdownPct) (hmax : maxDrawdownPct ≤ 100)
    (hok : RunOk step KeepsAnchors s as) (hrun : run step s as = some s') :
    s.entry.floor maxDrawdownPct ≤ s'.entry.floor maxDrawdownPct := by
  have hinv := run_invariant (fun t => t.Consistent ∧
    t.entry.limits.maxDrawdownPct = some maxDrawdownPct ∧
      s.entry.floor maxDrawdownPct ≤ t.entry.floor maxDrawdownPct) ?_ ⟨hcons, hpct, le_rfl⟩ hok hrun
  · exact hinv.2.2
  · rintro t a t' ⟨hcons, hpct, hle⟩ hok hstep
    obtain ⟨hkeeps, hnext⟩ := step_keepsAnchors hcons hok hstep
    exact ⟨hnext, hkeeps.rules.1.trans hpct, hle.trans (hkeeps.floor_le hpct hmax)⟩

/-- The floor never falls, and never below the floor of what has been recorded. -/
theorem floor_never_falls {as : List PeakAction}
    (hreach : Reach step KeepsAnchors (fun s => ∃ row limits, s = load row limits) s)
    (hpct : s.entry.limits.maxDrawdownPct = some maxDrawdownPct) (hmax : maxDrawdownPct ≤ 100)
    (hok : RunOk step KeepsAnchors s as) (hrun : run step s as = some s') :
    s.entry.floor maxDrawdownPct ≤ s'.entry.floor maxDrawdownPct ∧
      computeTrailingFloor s'.recorded maxDrawdownPct ≤ s'.entry.floor maxDrawdownPct := by
  have hcons := reach_consistent hreach
  have hcons' := reach_consistent (hreach.of_run hok hrun)
  refine ⟨run_keepsFloor hcons hpct hmax hok hrun, ?_⟩
  exact (DrawdownAccount.computeTrailingFloor_mono hmax hcons'.recorded).trans
    (DrawdownAccount.trailing_le_floor _ _ _)

def fundedRow : Account := { sampleTerms.provision 1 with accountType := .funded }

/-- Ten percent below the peak, kept once the peak is five percent above the start. -/
def lockingLimits : Limits := ⟨some 10, none, some 5⟩

/-- The raise is flushed before the row is read again. -/
def flushedRaise : List PeakAction :=
  [.tick 10000 1000, .beginFlush, .flushSucceeds 0, .fullReconcile 0 lockingLimits, .tick 9500 0]

theorem floor_never_falls_flushedRaise :
    ∃ s, run step (load fundedRow lockingLimits) flushedRaise = some s ∧
      (load fundedRow lockingLimits).entry.floor 10 ≤ s.entry.floor 10 ∧
        computeTrailingFloor s.recorded 10 ≤ s.entry.floor 10 := by
  have hran : (run step (load fundedRow lockingLimits) flushedRaise).isSome := by decide +kernel
  obtain ⟨s, hrun⟩ := Option.isSome_iff_exists.mp hran
  exact ⟨s, hrun, floor_never_falls (.init ⟨fundedRow, lockingLimits, rfl⟩) rfl (by norm_num)
    (by decide +kernel) hrun⟩

/-- The entry has seen a peak that its row has not. -/
def raisedUnflushed : PeakState := (load fundedRow lockingLimits).tick 10000 1000

theorem floor_falls_unflushed : ∃ s,
    run step raisedUnflushed [.fullReconcile 0 lockingLimits] = some s ∧
      s.entry.floor 10 < raisedUnflushed.entry.floor 10 ∧
        s.entry.floor 10 < computeTrailingFloor s.recorded 10 := by
  obtain ⟨s, hrun, hfalls⟩ := exists_of_run_any step raisedUnflushed
    [.fullReconcile 0 lockingLimits] (fun s => s.entry.floor 10 < raisedUnflushed.entry.floor 10 ∧
      s.entry.floor 10 < computeTrailingFloor s.recorded 10) (by decide +kernel)
  exact ⟨s, hrun, of_decide_eq_true hfalls⟩

end PeakState

end PropFirm
