import Mathlib
import PropFirm.Lib.WriteBehind
import PropFirm.PeakFloor

/-!
# From the dirty peaks to the row

A tick notes what it raised with `_dirtyPeaks.set`, which replaces the note still pending for the
account, and a field the tick did not change is null in it. A failed batch goes back through
`higherPeakValue`, field by field. Since only the tick that locks a floor computes the lock, the next
tick that raises the peak alone takes the lock out of the map before a flush has seen it.

`FlushState` runs the peak state beside the highest values its ticks have noted. Read as pairs of
anchors, where a missing value is the bottom one, it is a write-behind buffer in front of the row.
-/

namespace PropFirm

open Transition WriteBehind
open PeakState (fundedRow lockingLimits)

/-- A missing anchor is below every other. -/
def anchor {α : Type} (value : Option α) : WithBot α := value

/-- A peak and a locked floor. -/
abbrev Anchors (α : Type) := WithBot α × WithBot α

instance (a b : Anchors Cents) : Decidable (a ≤ b) :=
  let decLe : ∀ x y : WithBot Cents, Decidable (x ≤ y)
    | ⊥, _ => isTrue bot_le
    | (x : Cents), ⊥ => isFalse (WithBot.not_coe_le_bot x)
    | (x : Cents), (y : Cents) => decidable_of_iff (x ≤ y) WithBot.coe_le_coe.symm
  have := decLe a.1 b.1
  have := decLe a.2 b.2
  decidable_of_iff (a.1 ≤ b.1 ∧ a.2 ≤ b.2) Iff.rfl

def DirtyPeak.anchors (update : DirtyPeak) : Anchors ℚ :=
  (anchor update.peak, anchor update.lockedFloor)

/-- The anchors of a map entry. -/
def DirtyPeak.pendingAnchors (pending : Option DirtyPeak) : Anchors ℚ := pending.elim ⊥ anchors

def Account.anchors (row : Account) : Anchors Cents :=
  (anchor row.eodPeakEquity, anchor row.eodTrailingFloor)

/-- Anchors as the row's columns hold them. -/
def centAnchors : SupHom (Anchors ℚ) (Anchors Cents) where
  toFun a := (WithBot.map toCents a.1, WithBot.map toCents a.2)
  map_sup' a b := by
    have hmono : Monotone (WithBot.map toCents) := Monotone.withBot_map fun _ _ => toCents_mono
    exact Prod.ext (hmono.map_sup a.1 b.1) (hmono.map_sup a.2 b.2)

theorem higherPeakValue_anchor (a b : Option ℚ) :
    anchor (higherPeakValue a b) = anchor a ⊔ anchor b := by
  cases a with
  | none => exact (bot_sup_eq (anchor b)).symm
  | some a =>
    cases b with
    | none => exact (sup_bot_eq (anchor (some a))).symm
    | some b =>
      rw [higherPeakValue]
      split
      · rename_i hlt
        exact congrArg WithBot.some (max_eq_left hlt.le).symm
      · rename_i hnlt
        exact congrArg WithBot.some (max_eq_right (not_lt.mp hnlt)).symm

theorem greatestColumn_anchor (column : Option Cents) (value : Option ℚ) :
    anchor (greatestColumn column value) = anchor column ⊔ WithBot.map toCents (anchor value) := by
  cases value with
  | none => exact (sup_bot_eq (anchor column)).symm
  | some v =>
    cases column with
    | none => exact (bot_sup_eq (anchor (some (toCents v)))).symm
    | some c =>
      rw [greatestColumn, Option.elim_some, raiseColumn]
      split
      · rename_i hlt
        have hle : c ≤ toCents v := by simpa using toCents_mono hlt.le
        exact congrArg WithBot.some (max_eq_right hle).symm
      · rename_i hnlt
        have hle : toCents v ≤ c := by simpa using toCents_mono (not_lt.mp hnlt)
        exact congrArg WithBot.some (max_eq_left hle).symm

theorem Account.flushed_anchors (row : Account) (update : DirtyPeak) :
    ((Account.flushed ⟨row.id, update.peak, update.lockedFloor⟩).apply row).anchors
      = row.anchors ⊔ centAnchors update.anchors :=
  Prod.ext (greatestColumn_anchor _ _) (greatestColumn_anchor _ _)

theorem DirtyPeak.requeue_anchors (pending : Option DirtyPeak) (update : DirtyPeak) :
    (DirtyPeak.requeue pending update).anchors = pendingAnchors pending ⊔ update.anchors := by
  cases pending with
  | none => exact Prod.ext (higherPeakValue_anchor none _) (higherPeakValue_anchor none _)
  | some pending => exact Prod.ext (higherPeakValue_anchor _ _) (higherPeakValue_anchor _ _)

/-- What `runTick` puts into the map of dirty peaks. -/
def PeakState.note (s : PeakState) (currentBalance floatingPnl : ℚ) : Option DirtyPeak :=
  let entry := s.entry.scanned currentBalance floatingPnl
  (entry.limits.maxDrawdownPct.filter (0 < ·)).bind fun maxDrawdownPct =>
    let resolved := entry.resolution maxDrawdownPct
    if resolved.peakChanged ∨ resolved.lockedFloorChanged then some resolved.dirtyPeak else none

theorem PeakState.tick_dirty (s : PeakState) (currentBalance floatingPnl : ℚ) :
    (s.tick currentBalance floatingPnl).dirty = (s.note currentBalance floatingPnl).or s.dirty ∧
      (s.tick currentBalance floatingPnl).inFlight = s.inFlight := by
  rw [tick, note]
  split
  · rename_i hnone
    simp [hnone]
  · rename_i maxDrawdownPct hsome
    rw [hsome, Option.bind_some]
    dsimp only
    split
    · exact ⟨rfl, rfl⟩
    · exact ⟨rfl, rfl⟩

/-- The anchors of the row as it stands. -/
def PeakState.stored (s : PeakState) : Anchors Cents := s.rows.head?.elim ⊥ Account.anchors

theorem PeakState.writeRow_stored {s s' : PeakState} {update : DirtyPeak}
    (hwrite : s.writeRow update = some s') :
    s'.stored = s.stored ⊔ centAnchors update.anchors ∧ s'.rows ≠ [] ∧ s'.dirty = s.dirty ∧
      s'.inFlight = s.inFlight := by
  obtain ⟨row, hrow, rfl⟩ := Option.map_eq_some_iff.mp hwrite
  refine ⟨?_, List.cons_ne_nil _ _, rfl, rfl⟩
  rw [stored, stored, hrow]
  exact Account.flushed_anchors row update

/-! ### The buffer in front of the row -/

/-- `since`, `taken` and `owed` are the highest values noted after the last batch was taken, before it
was, and before the last batch that was written was taken. -/
structure FlushState where
  peaks : PeakState
  since : Anchors ℚ
  taken : Anchors ℚ
  owed : Anchors ℚ

namespace FlushState

def load (row : Account) (limits : Limits) : FlushState := ⟨.load row limits, ⊥, ⊥, ⊥⟩

def step (s : FlushState) (a : PeakAction) : Option FlushState :=
  (s.peaks.step a).map fun peaks =>
    match a with
    | .tick currentBalance floatingPnl =>
      let noted := DirtyPeak.pendingAnchors (s.peaks.note currentBalance floatingPnl)
      { s with peaks := peaks, since := s.since ⊔ noted }
    | .beginFlush => { s with peaks := peaks, since := ⊥, taken := s.since ⊔ s.taken }
    | .flushSucceeds _ => { s with peaks := peaks, owed := s.taken }
    | _ => { s with peaks := peaks }

def buffer (s : FlushState) : Buffer (Anchors ℚ) (Anchors Cents) where
  stored := s.peaks.stored
  pending := DirtyPeak.pendingAnchors s.peaks.dirty
  inFlight := s.peaks.inFlight.head?.map DirtyPeak.anchors
  since := s.since
  taken := s.taken
  owed := s.owed

/-- A tick's note is, field by field, no lower than the pending one it replaces or the row has that one
already, and a flush does not start while another is under way. -/
def NotesKept (s : FlushState) : PeakAction → Prop
  | .tick currentBalance floatingPnl => ∀ note ∈ s.peaks.note currentBalance floatingPnl,
      s.buffer.KeepsPending centAnchors note.anchors
  | .beginFlush => s.peaks.inFlight = []
  | _ => True

structure Kept (s : FlushState) : Prop where
  single : s.peaks.inFlight.length ≤ 1
  row : s.peaks.rows ≠ []
  covered : s.buffer.Covered centAnchors

variable {s s' : FlushState}

theorem load_kept (row : Account) (limits : Limits) : (load row limits).Kept where
  single := Nat.zero_le 1
  row := List.cons_ne_nil _ _
  covered := ⟨bot_le, bot_le, bot_le⟩

/-- The batch a flush ends is the only one. -/
private theorem inFlight_eq_singleton {index : Nat} {update : DirtyPeak} (hkept : s.Kept)
    (hupdate : s.peaks.inFlight[index]? = some update) :
    s.buffer.inFlight = some update.anchors ∧ s.peaks.inFlight.eraseIdx index = [] := by
  have hsingle := hkept.single
  obtain ⟨hlt, hget⟩ := List.getElem?_eq_some_iff.mp hupdate
  obtain rfl : index = 0 := by omega
  obtain ⟨batch, hbatch⟩ := List.length_eq_one_iff.mp (show s.peaks.inFlight.length = 1 by omega)
  simp only [hbatch, List.getElem_cons_zero] at hget
  rw [buffer, hbatch, hget]
  exact ⟨rfl, rfl⟩

/-- A tick replaces the pending note, by one that keeps what it held. -/
theorem Kept.of_tick {currentBalance floatingPnl : ℚ} (hkept : s.Kept)
    (hok : s.NotesKept (.tick currentBalance floatingPnl)) :
    Kept { s with
      peaks := s.peaks.tick currentBalance floatingPnl
      since := s.since ⊔ DirtyPeak.pendingAnchors (s.peaks.note currentBalance floatingPnl) } := by
  obtain ⟨hdirty, hinFlight⟩ := s.peaks.tick_dirty currentBalance floatingPnl
  have hrows := s.peaks.tick_rows currentBalance floatingPnl
  refine ⟨hinFlight ▸ hkept.single, hrows ▸ hkept.row, ?_⟩
  have hstored : (s.peaks.tick currentBalance floatingPnl).stored = s.peaks.stored := by
    rw [PeakState.stored, hrows, PeakState.stored]
  cases hnote : s.peaks.note currentBalance floatingPnl with
  | none =>
    rw [hnote, Option.none_or] at hdirty
    have hsince : s.since ⊔ DirtyPeak.pendingAnchors none = s.since := sup_bot_eq _
    simp only [buffer, hstored, hdirty, hinFlight, hsince]
    exact hkept.covered
  | some note =>
    rw [hnote, Option.some_or] at hdirty
    simp only [buffer, hstored, hdirty, hinFlight]
    exact hkept.covered.note (hok note hnote)

theorem step_kept {a : PeakAction} (hkept : s.Kept) (hok : s.NotesKept a)
    (hstep : step s a = some s') : s'.Kept := by
  obtain ⟨peaks, hpeaks, rfl⟩ := Option.map_eq_some_iff.mp hstep
  cases a with
  | tick currentBalance floatingPnl =>
    obtain rfl := Option.some.inj hpeaks
    exact hkept.of_tick hok
  | beginFlush =>
    obtain ⟨update, hdirty, rfl⟩ := Option.map_eq_some_iff.mp hpeaks
    have hidle : s.buffer.inFlight = none := by rw [buffer, hok]; rfl
    refine ⟨by simp [show s.peaks.inFlight = [] from hok], hkept.row, ?_⟩
    have htake := hkept.covered.take hidle
    simp only [Buffer.take, buffer, hdirty, DirtyPeak.pendingAnchors, Option.elim_some] at htake
    exact htake
  | flushSucceeds index =>
    simp only [PeakState.step, Option.bind_eq_bind, Option.bind_eq_some_iff] at hpeaks
    obtain ⟨update, hupdate, hwrite⟩ := hpeaks
    obtain ⟨hflight, hrest⟩ := inFlight_eq_singleton hkept hupdate
    obtain ⟨hstored, hrow, hdirty, hleft⟩ := PeakState.writeRow_stored hwrite
    rw [hrest] at hleft
    refine ⟨by rw [hleft]; exact Nat.zero_le 1, hrow, ?_⟩
    have hcommit := hkept.covered.commit hflight
    simp only [buffer, hstored, hdirty, hleft]
    exact hcommit
  | flushFails index =>
    simp only [PeakState.step, Option.bind_eq_bind, Option.bind_eq_some_iff] at hpeaks
    obtain ⟨update, hupdate, hnext⟩ := hpeaks
    obtain rfl := Option.some.inj hnext
    obtain ⟨hflight, hrest⟩ := inFlight_eq_singleton hkept hupdate
    refine ⟨by rw [hrest]; exact Nat.zero_le 1, hkept.row, ?_⟩
    have hrequeue := hkept.covered.requeue hflight
    simp only [buffer, hrest, DirtyPeak.pendingAnchors, Option.elim_some, DirtyPeak.requeue_anchors]
    exact hrequeue
  | rowWrite asOf opts =>
    simp only [PeakState.step, Option.bind_eq_bind, Option.bind_eq_some_iff] at hpeaks
    obtain ⟨row, _, hwrite⟩ := hpeaks
    obtain ⟨hstored, hrow, hdirty, hinFlight⟩ := PeakState.writeRow_stored hwrite
    refine ⟨hinFlight ▸ hkept.single, hrow, ?_⟩
    simp only [buffer, hstored, hdirty, hinFlight]
    exact hkept.covered.raise _
  | fullReconcile asOf limits =>
    simp only [PeakState.step, Option.bind_eq_bind, Option.bind_eq_some_iff] at hpeaks
    obtain ⟨row, _, hnext⟩ := hpeaks
    obtain rfl := Option.some.inj hnext
    exact ⟨hkept.single, hkept.row, hkept.covered⟩
  | settingsResolved limits =>
    obtain rfl := Option.some.inj hpeaks
    exact ⟨hkept.single, hkept.row, hkept.covered⟩

/-- What any tick computed before the last batch that was written was taken is in the row. -/
theorem reached_owed_persisted
    (hreach : Reach step NotesKept (fun s => ∃ row limits, s = load row limits) s) :
    ∃ row ∈ s.peaks.rows.head?, centAnchors s.owed ≤ row.anchors := by
  have hkept : s.Kept := by
    refine hreach.invariant ?_ fun s a s' hkept hok hstep => step_kept hkept hok hstep
    rintro s ⟨row, limits, rfl⟩
    exact load_kept row limits
  obtain ⟨row, rows, hrows⟩ := List.exists_cons_of_ne_nil hkept.row
  refine ⟨row, by rw [hrows]; rfl, ?_⟩
  have howed := hkept.covered.owed
  simp only [buffer, PeakState.stored, hrows] at howed
  exact howed

instance (s : FlushState) : DecidablePred s.NotesKept
  | .tick _ _ => inferInstanceAs (Decidable (∀ note ∈ _, _ ≤ _))
  | .beginFlush => inferInstanceAs (Decidable (s.peaks.inFlight = []))
  | .flushSucceeds _ | .flushFails _ | .rowWrite _ _ | .fullReconcile _ _ | .settingsResolved _ =>
    isTrue trivial

/-- A raise past the lock threshold, written at the second attempt and raised again meanwhile. -/
def flushedLock : List PeakAction :=
  [.tick 10000 200, .beginFlush, .tick 10000 600, .flushFails 0, .beginFlush, .tick 10000 700,
    .flushSucceeds 0]

theorem reached_owed_persisted_flushedLock :
    ∃ s, run step (load fundedRow lockingLimits) flushedLock = some s ∧
      s.owed = (anchor (some 10600), anchor (some 9450)) ∧
      ∃ row ∈ s.peaks.rows.head?, centAnchors s.owed ≤ row.anchors := by
  obtain ⟨s, hrun, howed⟩ := exists_of_run_any step (load fundedRow lockingLimits) flushedLock
    (fun s => s.owed = (anchor (some 10600), anchor (some 9450))) (by decide +kernel)
  refine ⟨s, hrun, of_decide_eq_true howed, reached_owed_persisted ?_⟩
  exact .of_run (.init ⟨fundedRow, lockingLimits, rfl⟩) (by decide +kernel) hrun

/-- The second tick raises the peak alone, so the lock of the first is no longer noted. -/
def overwrittenLock : List PeakAction :=
  [.tick 10000 600, .tick 10000 700, .beginFlush, .flushSucceeds 0]

theorem lock_lost_overwritten : ∃ s row,
    run step (load fundedRow lockingLimits) overwrittenLock = some s ∧ s.peaks.rows.head? = some row ∧
      s.owed = (anchor (some 10700), anchor (some 9450)) ∧ row.eodTrailingFloor = none ∧
        ¬ centAnchors s.owed ≤ row.anchors := by
  obtain ⟨s, hrun, hlost⟩ := exists_of_run_any step (load fundedRow lockingLimits) overwrittenLock
    (fun s => s.peaks.rows.head?.any fun row => s.owed = (anchor (some 10700), anchor (some 9450)) ∧
      row.eodTrailingFloor = none ∧ ¬ centAnchors s.owed ≤ row.anchors) (by decide +kernel)
  obtain ⟨row, hrow, hlost⟩ := (Option.any_eq_true _ _).mp hlost
  exact ⟨s, row, hrun, hrow, of_decide_eq_true hlost⟩

end FlushState

end PropFirm
