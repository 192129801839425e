import PropFirm.PeakFlush
import PropFirm.Statements

/-!
# Capital movements beside the peak in memory

A payout or an admin adjustment moves the balance and shifts `eod_peak_equity` by the same amount, in
the row alone: the index entry keeps its balance and its peak until it is rebuilt, and a peak noted
before the movement stays in the map of dirty peaks or in a batch under way. The flush only raises, so
a peak noted before a debit puts the anchor back where it was, and one noted before a credit leaves the
shifted anchor short of what trading had reached.

The highest equity the ticks have seen is kept in the frame of the balance in memory: it is shifted
when the entry is refreshed.
-/

namespace PropFirm

open Transition
open PeakState (fundedRow lockingLimits)

/-- The peak a row stands for. -/
def Account.peakAnchor (row : Account) : Cents := row.eodPeakEquity.getD row.startingBalance

/-- The peaks on their way to the row. -/
def PeakState.peaksUnderWay (s : PeakState) : List ℚ :=
  (s.dirty.toList ++ s.inFlight).filterMap DirtyPeak.peak

/-- `moved` is a movement that has committed and that the entry in memory has not seen. -/
structure CapitalState where
  peaks : PeakState
  moved : Option ℚ

inductive CapitalAction
  | tick (currentBalance floatingPnl : ℚ)
  | beginFlush
  | flushSucceeds (index : Nat)
  | flushFails (index : Nat)
  | adjustBalance (amount : ℚ)
  | refresh (limits : Limits)

namespace CapitalState

def load (row : Account) (limits : Limits) : CapitalState := ⟨.load row limits, none⟩

def engine (s : CapitalState) (a : PeakAction) : Option CapitalState :=
  (s.peaks.step a).map fun peaks => { s with peaks := peaks }

/-- One movement at a time: the next one waits for the refresh. -/
def step (s : CapitalState) : CapitalAction → Option CapitalState
  | .tick currentBalance floatingPnl => s.engine (.tick currentBalance floatingPnl)
  | .beginFlush => s.engine .beginFlush
  | .flushSucceeds index => s.engine (.flushSucceeds index)
  | .flushFails index => s.engine (.flushFails index)
  | .adjustBalance amount =>
    if s.moved.isSome ∨ toCents amount = 0 then none
    else s.peaks.rows.head?.map fun row =>
      { peaks := { s.peaks with rows := (Account.adjusted amount true).apply row :: s.peaks.rows }
        moved := some amount }
  | .refresh limits => do
    let amount ← s.moved
    let row ← s.peaks.rows.head?
    let entry := buildAccountEntry row limits s.peaks.entry.floatingPnl s.peaks.entry.todayRealizedPnl
    let recorded := (toCents ((toCents s.peaks.recorded).dollars + amount)).dollars
    some { peaks := { s.peaks with entry := entry, recorded := recorded }, moved := none }

/-- The movement finds no peak on its way to the row and takes away no more than the peak. Until the
entry is refreshed no tick raises the peak, and a tick that changes the lock alone replaces no pending
peak that the row does not have. -/
def MovesClean (s : CapitalState) : CapitalAction → Prop
  | .tick currentBalance floatingPnl => ∀ note ∈ s.peaks.note currentBalance floatingPnl,
      (s.moved.isSome → note.peak = none) ∧
        (note.peak = none → ∀ update ∈ s.peaks.dirty, ∀ peak ∈ update.peak,
          ∃ row ∈ s.peaks.rows.head?, toCents peak ≤ row.peakAnchor)
  | .adjustBalance amount => s.peaks.peaksUnderWay = [] ∧ ∀ row ∈ s.peaks.rows.head?,
      0 ≤ toCents (row.peakAnchor.dollars + amount)
  | _ => True

end CapitalState

/-! ### One write -/

theorem Account.drawdown_priorPeak (row : Account) :
    row.drawdown.priorPeak = row.peakAnchor.dollars := by
  rw [DrawdownAccount.priorPeak, drawdown, peakAnchor]
  cases row.eodPeakEquity with
  | none => rfl
  | some peak => rfl

theorem Account.flushed_peakAnchor {row : Account} {update : DirtyPeak}
    (hunset : row.eodPeakEquity = none → ∀ v ∈ update.peak, row.startingBalance ≤ toCents v) :
    ((Account.flushed ⟨row.id, update.peak, update.lockedFloor⟩).apply row).peakAnchor
      = update.peak.elim row.peakAnchor fun v => max row.peakAnchor (toCents v) := by
  simp only [flushed, peakAnchor]
  cases hpeak : update.peak with
  | none => rfl
  | some v =>
    have hcolumn := greatestColumn_anchor row.eodPeakEquity (some v)
    cases heod : row.eodPeakEquity with
    | none =>
      rw [greatestColumn, Option.elim_some, raiseColumn]
      exact (max_eq_right (hunset heod v hpeak)).symm
    | some c =>
      rw [heod] at hcolumn
      have hmax : greatestColumn (some c) (some v) = some (max c (toCents v)) := hcolumn
      rw [hmax]
      rfl

theorem mem_higherPeakValue {a b : Option ℚ} {v : ℚ} (hv : v ∈ higherPeakValue a b) :
    v ∈ a ∨ v ∈ b := by
  cases a with
  | none => exact .inr hv
  | some a =>
    cases b with
    | none => exact .inl hv
    | some b =>
      rw [higherPeakValue] at hv
      split at hv
      · exact .inl hv
      · exact .inr hv

theorem le_higherPeakValue {a b : Option ℚ} {v : ℚ} (hv : v ∈ a ∨ v ∈ b) :
    ∃ w ∈ higherPeakValue a b, v ≤ w := by
  have hle : anchor (some v) ≤ anchor (higherPeakValue a b) := by
    rw [higherPeakValue_anchor]
    rcases hv with hv | hv <;> rw [← Option.mem_def.mp hv]
    · exact le_sup_left
    · exact le_sup_right
  cases hhigher : higherPeakValue a b with
  | none =>
    rw [hhigher] at hle
    exact absurd hle (WithBot.not_coe_le_bot v)
  | some w =>
    rw [hhigher] at hle
    exact ⟨w, rfl, WithBot.coe_le_coe.mp hle⟩

namespace PeakState

variable {s s' : PeakState} {row : Account} {currentBalance floatingPnl : ℚ}

theorem mem_peaksUnderWay {v : ℚ} :
    v ∈ s.peaksUnderWay ↔ v ∈ s.dirty.bind DirtyPeak.peak ∨ ∃ update ∈ s.inFlight, v ∈ update.peak := by
  cases hdirty : s.dirty with
  | none => simp [peaksUnderWay, hdirty]
  | some update => simp [peaksUnderWay, hdirty]

/-- The peak a tick notes, if it notes one, is the highest equity seen so far. -/
theorem tick_noted (currentBalance floatingPnl : ℚ) (hentry : s.entry.drawdown.priorPeak = s.recorded) :
    let noted := (s.note currentBalance floatingPnl).bind DirtyPeak.peak
    (s.tick currentBalance floatingPnl).recorded = noted.getD s.recorded ∧
      (s.tick currentBalance floatingPnl).entry.drawdown.priorPeak
        = (s.tick currentBalance floatingPnl).recorded ∧ ∀ v ∈ noted, s.recorded < v := by
  have hscanned : (s.entry.scanned currentBalance floatingPnl).drawdown.priorPeak = s.recorded := hentry
  rw [tick, note]
  split
  · rename_i hnone
    simp [hnone, hscanned]
  · rename_i maxDrawdownPct hsome
    rw [hsome, Option.bind_some]
    dsimp only
    set entry := s.entry.scanned currentBalance floatingPnl
    have hpeakChanged : (entry.resolution maxDrawdownPct).peakChanged = decide (s.recorded < entry.equity) := by
      rw [AccountEntry.resolution, resolveEffectiveFloor_peakChanged, hscanned]
    have hnextPeak : (entry.resolution maxDrawdownPct).nextPeak = max s.recorded entry.equity := by
      rw [AccountEntry.resolution, resolveEffectiveFloor_nextPeak, hscanned]
    have hraised : (setPeakEquity entry (some (entry.resolution maxDrawdownPct).nextPeak)
        (entry.resolution maxDrawdownPct).nextLockedFloor).drawdown.priorPeak
          = max s.recorded entry.equity := by
      rw [setPeakEquity_resolution, AccountEntry.resolution, DrawdownAccount.raised_priorPeak, hscanned]
    by_cases hraise : s.recorded < entry.equity
    · have hchanged : (entry.resolution maxDrawdownPct).peakChanged = true :=
        hpeakChanged.trans (decide_eq_true hraise)
      rw [max_eq_right hraise.le] at hnextPeak hraised
      simp only [hchanged, true_or, if_true, Option.bind_some, DrawdownResolution.dirtyPeak, hraised,
        Option.getD_some]
      refine ⟨?_, ?_, ?_⟩
      · rw [hnextPeak, max_eq_right hraise.le]
      · rw [max_eq_right hraise.le]
      · rintro v ⟨⟩
        exact hnextPeak ▸ hraise
    · have hsame : (entry.resolution maxDrawdownPct).peakChanged = false :=
        hpeakChanged.trans (decide_eq_false hraise)
      have hmax : max s.recorded entry.equity = s.recorded := max_eq_left (not_lt.mp hraise)
      rw [hmax] at hraised
      split
      · simp [DrawdownResolution.dirtyPeak, hsame, hraised, hmax]
      · simp [hscanned, hmax]

/-- What a flush step does to the row and to the peaks on their way to it. -/
structure Flushes (s s' : PeakState) (row row' : Account) : Prop where
  latest : s'.rows.head? = some row'
  entry : s'.entry = s.entry
  recorded : s'.recorded = s.recorded
  starting : row'.startingBalance = row.startingBalance
  unset : row'.eodPeakEquity = none → row.eodPeakEquity = none
  underWay : ∀ v ∈ s'.peaksUnderWay, v ∈ s.peaksUnderWay
  written : row'.peakAnchor = row.peakAnchor ∨
    ∃ v ∈ s.peaksUnderWay, row'.peakAnchor = max row.peakAnchor (toCents v)
  kept : ∀ v ∈ s.peaksUnderWay, toCents v ≤ row'.peakAnchor ∨ ∃ w ∈ s'.peaksUnderWay, v ≤ w

theorem beginFlush_flushes (hrow : s.rows.head? = some row) (hstep : s.step .beginFlush = some s') :
    Flushes s s' row row := by
  obtain ⟨update, hdirty, rfl⟩ := Option.map_eq_some_iff.mp hstep
  have hsame : peaksUnderWay { s with dirty := none, inFlight := update :: s.inFlight }
      = s.peaksUnderWay := by simp [peaksUnderWay, hdirty]
  refine ⟨hrow, rfl, rfl, rfl, id, ?_, .inl rfl, ?_⟩ <;> rw [hsame]
  · exact fun v hv => hv
  · exact fun v hv => .inr ⟨v, hv, le_rfl⟩

private theorem mem_inFlight_cases {updates : List DirtyPeak} {index : Nat} {update other : DirtyPeak}
    (hupdate : updates[index]? = some update) (hother : other ∈ updates) :
    other = update ∨ other ∈ updates.eraseIdx index := by
  obtain ⟨i, hi⟩ := List.mem_iff_getElem?.mp hother
  by_cases hindex : i = index
  · rw [hindex, hupdate] at hi
    exact .inl (Option.some.inj hi).symm
  · exact .inr (List.mem_eraseIdx_iff_getElem?.mpr ⟨i, hindex, hi⟩)

theorem flushFails_flushes {index : Nat} (hrow : s.rows.head? = some row)
    (hstep : s.step (.flushFails index) = some s') : Flushes s s' row row := by
  simp only [step, Option.bind_eq_bind, Option.bind_eq_some_iff] at hstep
  obtain ⟨update, hupdate, hnext⟩ := hstep
  obtain rfl := Option.some.inj hnext
  have hmem := List.mem_of_getElem? hupdate
  refine ⟨hrow, rfl, rfl, rfl, id, ?_, .inl rfl, ?_⟩
  · intro v hv
    rw [mem_peaksUnderWay] at hv ⊢
    rcases hv with hv | ⟨other, hother, hv⟩
    · rcases mem_higherPeakValue hv with hv | hv
      · exact .inl hv
      · exact .inr ⟨update, hmem, hv⟩
    · exact .inr ⟨other, List.mem_of_mem_eraseIdx hother, hv⟩
  · intro v hv
    have hrequeued : v ∈ s.dirty.bind DirtyPeak.peak ∨ v ∈ update.peak →
        ∃ w ∈ peaksUnderWay { s with
          inFlight := s.inFlight.eraseIdx index
          dirty := some (DirtyPeak.requeue s.dirty update) }, v ≤ w := by
      intro hv
      obtain ⟨w, hw, hle⟩ := le_higherPeakValue hv
      exact ⟨w, mem_peaksUnderWay.mpr (.inl hw), hle⟩
    rcases mem_peaksUnderWay.mp hv with hv | ⟨other, hother, hv⟩
    · exact .inr (hrequeued (.inl hv))
    · rcases mem_inFlight_cases hupdate hother with rfl | hleft
      · exact .inr (hrequeued (.inr hv))
      · exact .inr ⟨v, mem_peaksUnderWay.mpr (.inr ⟨other, hleft, hv⟩), le_rfl⟩

theorem flushSucceeds_flushes {index : Nat} (hrow : s.rows.head? = some row)
    (hunset : row.eodPeakEquity = none → ∀ v ∈ s.peaksUnderWay, row.startingBalance ≤ toCents v)
    (hstep : s.step (.flushSucceeds index) = some s') : ∃ row', Flushes s s' row row' := by
  simp only [step, Option.bind_eq_bind, Option.bind_eq_some_iff] at hstep
  obtain ⟨update, hupdate, hwrite⟩ := hstep
  have hmem := List.mem_of_getElem? hupdate
  simp only [writeRow, hrow, Option.map_some] at hwrite
  obtain rfl := Option.some.inj hwrite
  have hpeak : ∀ v ∈ update.peak, v ∈ s.peaksUnderWay := fun v hv =>
    mem_peaksUnderWay.mpr (.inr ⟨update, hmem, hv⟩)
  have hanchor := @Account.flushed_peakAnchor row update fun heod v hv => hunset heod v (hpeak v hv)
  refine ⟨_, rfl, rfl, rfl, rfl, ?_, ?_, ?_, ?_⟩
  · intro hnone
    cases heod : row.eodPeakEquity with
    | none => rfl
    | some c =>
      obtain ⟨next, hnext, _⟩ : ∃ next, greatestColumn _ update.peak = some next ∧ _ :=
        greatestColumn_ge heod
      cases hnext.symm.trans hnone
  · intro v hv
    rw [mem_peaksUnderWay] at hv ⊢
    rcases hv with hv | ⟨other, hother, hv⟩
    · exact .inl hv
    · exact .inr ⟨other, List.mem_of_mem_eraseIdx hother, hv⟩
  · rw [hanchor]
    cases hv : update.peak with
    | none => exact .inl rfl
    | some v => exact .inr ⟨v, hpeak v hv, rfl⟩
  · intro v hv
    rcases mem_peaksUnderWay.mp hv with hv | ⟨other, hother, hv⟩
    · exact .inr ⟨v, mem_peaksUnderWay.mpr (.inl hv), le_rfl⟩
    · rcases mem_inFlight_cases hupdate hother with rfl | hleft
      · rw [hanchor, Option.mem_def.mp hv]
        exact .inl (le_max_right _ _)
      · exact .inr ⟨v, mem_peaksUnderWay.mpr (.inr ⟨other, hleft, hv⟩), le_rfl⟩

/-! ### In the frame of the balance in memory, and between frames -/

/-- The entry holds the highest equity seen, and the row holds it or it is on its way there. -/
structure Fresh (s : PeakState) (row : Account) : Prop where
  latest : s.rows.head? = some row
  entry : s.entry.drawdown.priorPeak = s.recorded
  below : row.peakAnchor ≤ toCents s.recorded
  covered : toCents s.recorded ≤ row.peakAnchor ∨
    ∃ v ∈ s.peaksUnderWay, toCents s.recorded ≤ toCents v
  underWay : ∀ v ∈ s.peaksUnderWay, v ≤ s.recorded
  unset : row.eodPeakEquity = none → ∀ v ∈ s.peaksUnderWay, row.startingBalance ≤ toCents v

/-- The row has moved by `amount`, the entry has not, and no peak is on its way. -/
structure Stale (s : PeakState) (row : Account) (amount : ℚ) : Prop where
  latest : s.rows.head? = some row
  entry : s.entry.drawdown.priorPeak = s.recorded
  shifted : row.peakAnchor = toCents ((toCents s.recorded).dollars + amount)
  idle : s.peaksUnderWay = []

theorem load_fresh (row : Account) (limits : Limits) : (load row limits).Fresh row where
  latest := rfl
  entry := rfl
  below := by rw [load, Account.drawdown_priorPeak, toCents_dollars]
  covered := .inl (by rw [load, Account.drawdown_priorPeak, toCents_dollars])
  underWay := fun _ hv => nomatch hv
  unset := fun _ _ hv => nomatch hv

theorem Flushes.fresh {row' : Account} (hflush : Flushes s s' row row') (hfresh : s.Fresh row) :
    s'.Fresh row' where
  latest := hflush.latest
  entry := by rw [hflush.entry, hflush.recorded, hfresh.entry]
  below := by
    rw [hflush.recorded]
    obtain hsame | ⟨v, hv, hmax⟩ := hflush.written
    · exact hsame ▸ hfresh.below
    · exact hmax ▸ max_le hfresh.below (toCents_mono (hfresh.underWay v hv))
  covered := by
    rw [hflush.recorded]
    obtain hcovered | ⟨v, hv, hcovered⟩ := hfresh.covered
    · refine .inl (hcovered.trans ?_)
      obtain hsame | ⟨v, _, hmax⟩ := hflush.written
      · exact hsame.ge
      · exact hmax ▸ le_max_left _ _
    · obtain hwritten | ⟨w, hw, hle⟩ := hflush.kept v hv
      · exact .inl (hcovered.trans hwritten)
      · exact .inr ⟨w, hw, hcovered.trans (toCents_mono hle)⟩
  underWay := fun v hv => hflush.recorded ▸ hfresh.underWay v (hflush.underWay v hv)
  unset := fun hnone v hv =>
    hflush.starting ▸ hfresh.unset (hflush.unset hnone) v (hflush.underWay v hv)

theorem Flushes.stale {row' : Account} {amount : ℚ} (hflush : Flushes s s' row row')
    (hstale : s.Stale row amount) : s'.Stale row' amount where
  latest := hflush.latest
  entry := by rw [hflush.entry, hflush.recorded, hstale.entry]
  shifted := by
    rw [hflush.recorded, ← hstale.shifted]
    obtain hsame | ⟨v, hv, _⟩ := hflush.written
    · exact hsame
    · exact absurd hv (hstale.idle ▸ List.not_mem_nil)
  idle := List.eq_nil_iff_forall_not_mem.mpr fun v hv =>
    absurd (hflush.underWay v hv) (hstale.idle ▸ List.not_mem_nil)

theorem tick_fresh (hfresh : s.Fresh row)
    (hkeeps : ∀ note ∈ s.note currentBalance floatingPnl, note.peak = none →
      ∀ update ∈ s.dirty, ∀ peak ∈ update.peak, toCents peak ≤ row.peakAnchor) :
    (s.tick currentBalance floatingPnl).Fresh row := by
  obtain ⟨hrecorded, hentry, hraise⟩ := tick_noted currentBalance floatingPnl hfresh.entry
  obtain ⟨hdirty, hinFlight⟩ := s.tick_dirty currentBalance floatingPnl
  have hrows := s.tick_rows currentBalance floatingPnl
  have hlatest : (s.tick currentBalance floatingPnl).rows.head? = some row := hrows ▸ hfresh.latest
  cases hnote : s.note currentBalance floatingPnl with
  | none =>
    rw [hnote, Option.none_or] at hdirty
    rw [hnote, Option.bind_none, Option.getD_none] at hrecorded
    have hunderWay : (s.tick currentBalance floatingPnl).peaksUnderWay = s.peaksUnderWay := by
      rw [peaksUnderWay, hdirty, hinFlight, peaksUnderWay]
    exact ⟨hlatest, hentry, hrecorded ▸ hfresh.below, hrecorded ▸ hunderWay ▸ hfresh.covered,
      hrecorded ▸ hunderWay ▸ hfresh.underWay, hunderWay ▸ hfresh.unset⟩
  | some note =>
    rw [hnote, Option.some_or] at hdirty
    rw [hnote, Option.bind_some] at hrecorded hraise
    have hmem : ∀ v, v ∈ (s.tick currentBalance floatingPnl).peaksUnderWay ↔
        v ∈ note.peak ∨ ∃ update ∈ s.inFlight, v ∈ update.peak := by
      intro v
      rw [mem_peaksUnderWay, hdirty, hinFlight]
      rfl
    have hold : ∀ v, (∃ update ∈ s.inFlight, v ∈ update.peak) → v ∈ s.peaksUnderWay :=
      fun v hv => mem_peaksUnderWay.mpr (.inr hv)
    cases hpeak : note.peak with
    | none =>
      rw [hpeak, Option.getD_none] at hrecorded
      simp only [hpeak, Option.not_mem_none, false_or] at hmem
      refine ⟨hlatest, hentry, hrecorded ▸ hfresh.below, ?_, ?_, ?_⟩
      · rw [hrecorded]
        obtain hcovered | ⟨v, hv, hcovered⟩ := hfresh.covered
        · exact .inl hcovered
        · rcases mem_peaksUnderWay.mp hv with hv | hv
          · obtain ⟨update, hupdate, hv⟩ := Option.bind_eq_some_iff.mp hv
            exact .inl (hcovered.trans (hkeeps note hnote hpeak update hupdate v hv))
          · exact .inr ⟨v, (hmem v).mpr hv, hcovered⟩
      · exact fun v hv => hrecorded ▸ hfresh.underWay v (hold v ((hmem v).mp hv))
      · exact fun hnone v hv => hfresh.unset hnone v (hold v ((hmem v).mp hv))
    | some peak =>
      rw [hpeak, Option.getD_some] at hrecorded
      rw [hpeak] at hraise
      have hlt : s.recorded < peak := hraise peak rfl
      simp only [hpeak, Option.mem_some_iff] at hmem
      refine ⟨hlatest, hentry, ?_, ?_, ?_, ?_⟩
      · exact hrecorded ▸ hfresh.below.trans (toCents_mono hlt.le)
      · exact .inr ⟨peak, (hmem peak).mpr (.inl rfl), hrecorded ▸ le_rfl⟩
      · intro v hv
        rw [hrecorded]
        rcases (hmem v).mp hv with rfl | hv
        · exact le_rfl
        · exact (hfresh.underWay v (hold v hv)).trans hlt.le
      · intro hnone v hv
        rcases (hmem v).mp hv with rfl | hv
        · have hbelow := hfresh.below
          rw [Account.peakAnchor, hnone, Option.getD_none] at hbelow
          exact hbelow.trans (toCents_mono hlt.le)
        · exact hfresh.unset hnone v (hold v hv)

theorem tick_stale {amount : ℚ} (hstale : s.Stale row amount)
    (hquiet : ∀ note ∈ s.note currentBalance floatingPnl, note.peak = none) :
    (s.tick currentBalance floatingPnl).Stale row amount := by
  obtain ⟨hrecorded, hentry, _⟩ := tick_noted currentBalance floatingPnl hstale.entry
  obtain ⟨hdirty, hinFlight⟩ := s.tick_dirty currentBalance floatingPnl
  have hrows := s.tick_rows currentBalance floatingPnl
  have hnoted : (s.note currentBalance floatingPnl).bind DirtyPeak.peak = none := by
    cases hnote : s.note currentBalance floatingPnl with
    | none => rfl
    | some note => exact hquiet note hnote
  rw [hnoted, Option.getD_none] at hrecorded
  refine ⟨hrows ▸ hstale.latest, hentry, hrecorded ▸ hstale.shifted, ?_⟩
  refine List.eq_nil_iff_forall_not_mem.mpr fun v hv => ?_
  have hidle : v ∉ s.peaksUnderWay := hstale.idle ▸ List.not_mem_nil
  rw [mem_peaksUnderWay, hdirty, hinFlight] at hv
  rw [mem_peaksUnderWay, not_or] at hidle
  rcases hv with hv | hv
  · cases hnote : s.note currentBalance floatingPnl with
    | none =>
      rw [hnote, Option.none_or] at hv
      exact hidle.1 hv
    | some note =>
      rw [hnote] at hv
      have hpeak : note.peak = some v := hv
      rw [hquiet note hnote] at hpeak
      cases hpeak
  · exact hidle.2 hv

end PeakState

/-! ### Runs -/

namespace CapitalState

open PeakState

variable {s s' : CapitalState}

def Anchored (s : CapitalState) : Prop :=
  ∃ row, s.moved.elim (s.peaks.Fresh row) (s.peaks.Stale row)

/-- A flush step keeps whichever frame the state is in. -/
theorem Anchored.of_flushes {peaks : PeakState} (hanchored : s.Anchored)
    (hflush : ∀ row, s.peaks.rows.head? = some row →
      (row.eodPeakEquity = none → ∀ v ∈ s.peaks.peaksUnderWay, row.startingBalance ≤ toCents v) →
        ∃ row', Flushes s.peaks peaks row row') : Anchored { s with peaks := peaks } := by
  obtain ⟨row, hframe⟩ := hanchored
  rw [Anchored]
  cases hmoved : s.moved with
  | none =>
    rw [hmoved] at hframe
    obtain ⟨row', hrow'⟩ := hflush row hframe.latest hframe.unset
    exact ⟨row', hrow'.fresh hframe⟩
  | some amount =>
    rw [hmoved] at hframe
    obtain ⟨row', hrow'⟩ := hflush row hframe.latest fun _ v hv =>
      absurd hv (hframe.idle ▸ List.not_mem_nil)
    exact ⟨row', hrow'.stale hframe⟩

theorem adjusted_peakAnchor (row : Account) (amount : ℚ) :
    ((Account.adjusted amount true).apply row).peakAnchor
      = max (toCents (row.peakAnchor.dollars + amount)) 0 := rfl

/-- A movement that finds no peak on its way shifts a row that has caught up. -/
theorem Anchored.of_adjustBalance {amount : ℚ} (hanchored : s.Anchored)
    (hok : s.MovesClean (.adjustBalance amount)) (hstep : step s (.adjustBalance amount) = some s') :
    s'.Anchored := by
  simp only [step] at hstep
  split at hstep
  · cases hstep
  · rename_i hallowed
    obtain ⟨row, hrow, rfl⟩ := Option.map_eq_some_iff.mp hstep
    obtain ⟨hidle, hpositive⟩ := hok
    obtain ⟨row', hframe⟩ := hanchored
    have hmoved : s.moved = none := by
      cases hmoved : s.moved with
      | none => rfl
      | some amount => exact absurd (.inl (by rw [hmoved]; rfl)) hallowed
    rw [hmoved, Option.elim_none] at hframe
    obtain rfl := Option.some.inj (hframe.latest.symm.trans hrow)
    have hcaught : row'.peakAnchor = toCents s.peaks.recorded := by
      refine le_antisymm hframe.below ?_
      obtain hcovered | ⟨v, hv, _⟩ := hframe.covered
      · exact hcovered
      · exact absurd hv (hidle ▸ List.not_mem_nil)
    refine ⟨_, rfl, hframe.entry, ?_, hidle⟩
    rw [adjusted_peakAnchor, max_eq_left (hpositive row' hrow), hcaught]

/-- The refresh moves the entry to the frame of the row. -/
theorem Anchored.of_refresh {limits : Limits} (hanchored : s.Anchored)
    (hstep : step s (.refresh limits) = some s') : s'.Anchored := by
  simp only [step, Option.bind_eq_bind, Option.bind_eq_some_iff] at hstep
  obtain ⟨amount, hmoved, row, hrow, hnext⟩ := hstep
  obtain rfl := Option.some.inj hnext
  obtain ⟨row', hframe⟩ := hanchored
  rw [hmoved, Option.elim_some] at hframe
  obtain rfl := Option.some.inj (hframe.latest.symm.trans hrow)
  have hidle : ∀ v, v ∉ s.peaks.peaksUnderWay := fun v => hframe.idle ▸ List.not_mem_nil
  refine ⟨row', hrow, ?_, ?_, .inl ?_, fun v hv => absurd hv (hidle v),
    fun _ v hv => absurd hv (hidle v)⟩
  · rw [← hframe.shifted]
    exact row'.drawdown_priorPeak
  · rw [toCents_dollars, hframe.shifted]
  · rw [toCents_dollars, hframe.shifted]

theorem step_anchored {a : CapitalAction} (hanchored : s.Anchored) (hok : s.MovesClean a)
    (hstep : step s a = some s') : s'.Anchored := by
  cases a with
  | tick currentBalance floatingPnl =>
    obtain rfl := Option.some.inj hstep
    obtain ⟨row, hframe⟩ := hanchored
    refine ⟨row, ?_⟩
    dsimp only
    cases hmoved : s.moved with
    | none =>
      rw [hmoved] at hframe
      refine tick_fresh hframe fun note hnote hpeak update hupdate peak hv => ?_
      obtain ⟨row', hrow', hle⟩ := (hok note hnote).2 hpeak update hupdate peak hv
      exact Option.some.inj (hframe.latest.symm.trans hrow') ▸ hle
    | some amount =>
      rw [hmoved] at hframe
      exact tick_stale hframe fun note hnote => (hok note hnote).1 (by rw [hmoved]; rfl)
  | beginFlush =>
    obtain ⟨peaks, hpeaks, rfl⟩ := Option.map_eq_some_iff.mp hstep
    exact hanchored.of_flushes fun row hrow _ => ⟨row, beginFlush_flushes hrow hpeaks⟩
  | flushSucceeds index =>
    obtain ⟨peaks, hpeaks, rfl⟩ := Option.map_eq_some_iff.mp hstep
    exact hanchored.of_flushes fun row hrow hunset => flushSucceeds_flushes hrow hunset hpeaks
  | flushFails index =>
    obtain ⟨peaks, hpeaks, rfl⟩ := Option.map_eq_some_iff.mp hstep
    exact hanchored.of_flushes fun row hrow _ => ⟨row, flushFails_flushes hrow hpeaks⟩
  | adjustBalance amount => exact hanchored.of_adjustBalance hok hstep
  | refresh limits => exact hanchored.of_refresh hstep

/-- In the frame the entry is in, the row never holds more than the peak reached, and holds exactly it
once no peak is on its way. -/
theorem reached_anchor_shifted
    (hreach : Reach step MovesClean (fun s => ∃ row limits, s = load row limits) s)
    (hseen : s.moved = none) : ∃ row ∈ s.peaks.rows.head?,
      row.peakAnchor ≤ toCents s.peaks.recorded ∧
        (s.peaks.peaksUnderWay = [] → row.peakAnchor = toCents s.peaks.recorded) := by
  have hanchored : s.Anchored := by
    refine hreach.invariant ?_ fun s a s' hanchored hok hstep => step_anchored hanchored hok hstep
    rintro s ⟨row, limits, rfl⟩
    exact ⟨row, load_fresh row limits⟩
  obtain ⟨row, hframe⟩ := hanchored
  rw [hseen, Option.elim_none] at hframe
  refine ⟨row, hframe.latest, hframe.below, fun hidle => le_antisymm hframe.below ?_⟩
  obtain hcovered | ⟨v, hv, _⟩ := hframe.covered
  · exact hcovered
  · exact absurd hv (hidle ▸ List.not_mem_nil)

instance (s : CapitalState) : DecidablePred s.MovesClean
  | .tick _ _ => inferInstanceAs (Decidable (∀ note ∈ _, (_ → _) ∧ (_ → ∀ update ∈ _, ∀ peak ∈ _, _)))
  | .adjustBalance _ => inferInstanceAs (Decidable (_ ∧ ∀ row ∈ _, _))
  | .beginFlush | .flushSucceeds _ | .flushFails _ | .refresh _ => isTrue trivial

/-- A payout of 400 after the peak of 10,500 has been flushed. -/
def flushedBeforePayout : List CapitalAction :=
  [.tick 10500 0, .beginFlush, .flushFails 0, .beginFlush, .flushSucceeds 0, .adjustBalance (-400),
    .tick 10500 0, .refresh lockingLimits, .tick 10100 50, .beginFlush, .flushSucceeds 0]

theorem reached_anchor_shifted_flushedBeforePayout :
    ∃ s, run step (load fundedRow lockingLimits) flushedBeforePayout = some s ∧
      s.peaks.recorded = 10150 ∧ ∃ row ∈ s.peaks.rows.head?,
        row.peakAnchor ≤ toCents s.peaks.recorded ∧
          (s.peaks.peaksUnderWay = [] → row.peakAnchor = toCents s.peaks.recorded) := by
  obtain ⟨s, hrun, htest⟩ := exists_of_run_any step (load fundedRow lockingLimits) flushedBeforePayout
    (fun s => s.moved = none ∧ s.peaks.recorded = 10150) (by decide +kernel)
  obtain ⟨hseen, hrecorded⟩ := of_decide_eq_true htest
  refine ⟨s, hrun, hrecorded, reached_anchor_shifted ?_ hseen⟩
  exact .of_run (.init ⟨fundedRow, lockingLimits, rfl⟩) (by decide +kernel) hrun

/-- The same payout before the flush. -/
def flushedAfterPayout : List CapitalAction :=
  [.tick 10500 0, .adjustBalance (-400), .refresh lockingLimits, .beginFlush, .flushSucceeds 0]

theorem anchor_raised_back : ∃ s row,
    run step (load fundedRow lockingLimits) flushedAfterPayout = some s ∧ s.moved = none ∧
      s.peaks.peaksUnderWay = [] ∧ s.peaks.rows.head? = some row ∧
        toCents s.peaks.recorded = 1010000 ∧ row.peakAnchor = 1050000 := by
  obtain ⟨s, hrun, htest⟩ := exists_of_run_any step (load fundedRow lockingLimits) flushedAfterPayout
    (fun s => s.peaks.rows.head?.any fun row => s.moved = none ∧ s.peaks.peaksUnderWay = [] ∧
      toCents s.peaks.recorded = 1010000 ∧ row.peakAnchor = 1050000) (by decide +kernel)
  obtain ⟨row, hrow, htest⟩ := (Option.any_eq_true _ _).mp htest
  obtain ⟨hseen, hidle, hreached, hanchor⟩ := of_decide_eq_true htest
  exact ⟨s, row, hrun, hseen, hidle, hrow, hreached, hanchor⟩

end CapitalState

end PropFirm
