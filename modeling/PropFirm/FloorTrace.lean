import Mathlib
import PropFirm.PeakFlush

/-!
# The floor over a sequence of equities

`resolveEffectiveFloor` is run on one equity after another, and the peak and the locked floor it gives are fed
back. The anchors it raises reach the account's row through `getEffectiveDrawdownFloor`, one account at a
time, or through `flushPeakEquityUpdates`, whose `UPDATE … FROM` takes one of the batch's updates of an
account, whichever the database finds.
-/

namespace PropFirm

open WriteBehind

namespace DrawdownAccount

variable (acc : DrawdownAccount) (maxDrawdownPct : ℚ) (locksAtPct : Option ℚ)

/-- The account after a sequence of equities. -/
def feed (equities : List ℚ) : DrawdownAccount :=
  equities.foldl (fun a equity => a.raised (resolveEffectiveFloor a ⟨equity, maxDrawdownPct, locksAtPct⟩)) acc

/-- The results along a sequence of equities. -/
def trace (acc : DrawdownAccount) : List ℚ → List DrawdownResolution
  | [] => []
  | equity :: rest =>
    let resolved := resolveEffectiveFloor acc ⟨equity, maxDrawdownPct, locksAtPct⟩
    resolved :: trace (acc.raised resolved) rest

/-- The floor that trails a peak, raised to the locked floor that is in force at it. -/
def floorAt (peak : ℚ) : ℚ :=
  (acc.lockedFloor peak maxDrawdownPct locksAtPct).elim (computeTrailingFloor peak maxDrawdownPct)
    (max (computeTrailingFloor peak maxDrawdownPct))

structure TraceLaws (equities : List ℚ) : Prop where
  never_falls : ((acc.trace maxDrawdownPct locksAtPct equities).map DrawdownResolution.floor).Pairwise (· ≤ ·)
  closed : ∀ (i : ℕ) r, (acc.trace maxDrawdownPct locksAtPct equities)[i]? = some r →
    r.floor = acc.floorAt maxDrawdownPct locksAtPct ((equities.take (i + 1)).foldl max acc.priorPeak)
  peakChanged : ∀ (i : ℕ) r, (acc.trace maxDrawdownPct locksAtPct equities)[i]? = some r →
    (r.peakChanged ↔ r.nextPeak ≠ (acc.feed maxDrawdownPct locksAtPct (equities.take i)).priorPeak)
  lockedFloorChanged : ∀ (i : ℕ) r, (acc.trace maxDrawdownPct locksAtPct equities)[i]? = some r →
    (r.lockedFloorChanged ↔
      r.nextLockedFloor ≠ (acc.feed maxDrawdownPct locksAtPct (equities.take i)).eodTrailingFloor)

variable {acc} {maxDrawdownPct} {locksAtPct} {b : DrawdownAccount} {equities : List ℚ} {peak peak' : ℚ}

theorem trace_getElem? (acc : DrawdownAccount) (equities : List ℚ) (i : ℕ) :
    (acc.trace maxDrawdownPct locksAtPct equities)[i]? = equities[i]?.map fun equity =>
      resolveEffectiveFloor (acc.feed maxDrawdownPct locksAtPct (equities.take i))
        ⟨equity, maxDrawdownPct, locksAtPct⟩ := by
  induction equities generalizing acc i with
  | nil => rfl
  | cons equity rest ih =>
    cases i with
    | zero => rfl
    | succ i => exact ih _ i

/-! ### The anchors fed back -/

theorem feed_priorPeak (acc : DrawdownAccount) (equities : List ℚ) :
    (acc.feed maxDrawdownPct locksAtPct equities).priorPeak = equities.foldl max acc.priorPeak := by
  induction equities generalizing acc with
  | nil => rfl
  | cons equity rest ih =>
    rw [List.foldl_cons, ← raised_priorPeak acc ⟨equity, maxDrawdownPct, locksAtPct⟩]
    exact ih _

theorem le_foldl_max (a : ℚ) (xs : List ℚ) : a ≤ xs.foldl max a := by
  induction xs generalizing a with
  | nil => exact le_rfl
  | cons x xs ih => exact (le_max_left a x).trans (ih _)

theorem nextLockedFloor_le {locksAtPct : ℚ} (hpeak : peak ≤ peak') :
    AnchorLe (nextLockedFloor acc peak maxDrawdownPct locksAtPct)
      (nextLockedFloor acc peak' maxDrawdownPct locksAtPct) := by
  intro locked hlocked
  obtain hheld | ⟨hreached, rfl⟩ := mem_nextLockedFloor hlocked
  · exact nextLockedFloor_keeps locked hheld
  · exact nextLockedFloor_of_reached (hreached.trans hpeak)

/-- Locking at a peak what was locked at a lower one is locking at once. -/
theorem nextLockedFloor_absorb {locksAtPct : ℚ} (hstart : b.startingBalance = acc.startingBalance)
    (hlocked : b.eodTrailingFloor = nextLockedFloor acc peak maxDrawdownPct locksAtPct) (hpeak : peak ≤ peak') :
    nextLockedFloor b peak' maxDrawdownPct locksAtPct = nextLockedFloor acc peak' maxDrawdownPct locksAtPct := by
  have hthreshold : b.lockThreshold locksAtPct = acc.lockThreshold locksAtPct := by
    rw [lockThreshold, hstart, lockThreshold]
  refine AnchorLe.antisymm ?_ ?_
  · intro locked hmem
    obtain hheld | ⟨hreached, rfl⟩ := mem_nextLockedFloor hmem
    · rw [hlocked] at hheld
      exact nextLockedFloor_le hpeak locked hheld
    · rw [hthreshold] at hreached ⊢
      exact nextLockedFloor_of_reached hreached
  · intro locked hmem
    obtain hheld | ⟨hreached, rfl⟩ := mem_nextLockedFloor hmem
    · have hkeeps : AnchorLe acc.eodTrailingFloor b.eodTrailingFloor := hlocked ▸ nextLockedFloor_keeps
      obtain ⟨kept, hkept, hle⟩ := hkeeps locked hheld
      obtain ⟨next, hnext, hkeptle⟩ := nextLockedFloor_keeps kept hkept
      exact ⟨next, hnext, hle.trans hkeptle⟩
    · rw [← hthreshold] at hreached ⊢
      exact nextLockedFloor_of_reached hreached

/-- What is locked after a sequence is what its highest peak locks at once. -/
theorem feed_lockedFloor (acc : DrawdownAccount) (equities : List ℚ)
    (hpeak : equities.foldl max acc.priorPeak ≤ peak) :
    (acc.feed maxDrawdownPct locksAtPct equities).lockedFloor peak maxDrawdownPct locksAtPct =
      acc.lockedFloor peak maxDrawdownPct locksAtPct := by
  induction equities generalizing acc with
  | nil => rfl
  | cons equity rest ih =>
    rw [List.foldl_cons, ← raised_priorPeak acc ⟨equity, maxDrawdownPct, locksAtPct⟩] at hpeak
    refine (ih _ hpeak).trans ?_
    have hreached := (le_foldl_max _ rest).trans hpeak
    rw [raised_priorPeak] at hreached
    unfold lockedFloor
    have htype : (acc.raised (resolveEffectiveFloor acc ⟨equity, maxDrawdownPct, locksAtPct⟩)).accountType
        = acc.accountType := rfl
    rw [htype]
    split
    · rename_i hfunded
      exact nextLockedFloor_absorb rfl (resolveEffectiveFloor_locked hfunded rfl).2.1 hreached
    · rfl

theorem foldl_max_append_singleton (a : ℚ) (xs : List ℚ) (x : ℚ) :
    (xs ++ [x]).foldl max a = max (xs.foldl max a) x := by
  rw [List.foldl_append, List.foldl_cons, List.foldl_nil]

/-! ### The laws -/

theorem resolved_floor_feed (acc : DrawdownAccount) (before : List ℚ) (equity : ℚ) :
    (resolveEffectiveFloor (acc.feed maxDrawdownPct locksAtPct before)
        ⟨equity, maxDrawdownPct, locksAtPct⟩).floor =
      acc.floorAt maxDrawdownPct locksAtPct ((before ++ [equity]).foldl max acc.priorPeak) := by
  rw [resolveEffectiveFloor_floor, foldl_max_append_singleton, feed_priorPeak, floorAt]
  dsimp only
  rw [feed_lockedFloor acc before (le_max_left _ equity)]

theorem floorAt_mono (hmax : maxDrawdownPct ≤ 100) (hpeak : peak ≤ peak') :
    acc.floorAt maxDrawdownPct locksAtPct peak ≤ acc.floorAt maxDrawdownPct locksAtPct peak' := by
  have htrailing := computeTrailingFloor_mono hmax hpeak
  have hlocked : AnchorLe (acc.lockedFloor peak maxDrawdownPct locksAtPct)
      (acc.lockedFloor peak' maxDrawdownPct locksAtPct) := by
    unfold lockedFloor
    split
    · exact nextLockedFloor_le hpeak
    · exact AnchorLe.refl none
  unfold floorAt
  cases hheld : acc.lockedFloor peak maxDrawdownPct locksAtPct with
  | none =>
    cases acc.lockedFloor peak' maxDrawdownPct locksAtPct with
    | none => exact htrailing
    | some locked => exact htrailing.trans (le_max_left _ _)
  | some locked =>
    obtain ⟨kept, hkept, hle⟩ := hlocked locked hheld
    rw [Option.mem_def.mp hkept]
    exact max_le_max htrailing hle

theorem foldl_max_take_mono (a : ℚ) (xs : List ℚ) {i j : ℕ} (hle : i ≤ j) :
    (xs.take i).foldl max a ≤ (xs.take j).foldl max a := by
  obtain ⟨k, rfl⟩ := Nat.exists_eq_add_of_le hle
  rw [List.take_add, List.foldl_append]
  exact le_foldl_max _ _

theorem trace_floor {i : ℕ} {r : DrawdownResolution}
    (hr : (acc.trace maxDrawdownPct locksAtPct equities)[i]? = some r) :
    r.floor = acc.floorAt maxDrawdownPct locksAtPct ((equities.take (i + 1)).foldl max acc.priorPeak) := by
  rw [trace_getElem?, Option.map_eq_some_iff] at hr
  obtain ⟨equity, hequity, rfl⟩ := hr
  rw [resolved_floor_feed, List.take_add_one, hequity]
  rfl

theorem traceLaws (hmax : maxDrawdownPct ≤ 100) (equities : List ℚ) :
    acc.TraceLaws maxDrawdownPct locksAtPct equities where
  never_falls := by
    rw [List.pairwise_map, List.pairwise_iff_getElem]
    intro i j hi hj hlt
    rw [trace_floor (List.getElem?_eq_getElem hi), trace_floor (List.getElem?_eq_getElem hj)]
    exact floorAt_mono hmax (foldl_max_take_mono _ _ (by omega))
  closed _ _ hr := trace_floor hr
  peakChanged i r hr := by
    rw [trace_getElem?, Option.map_eq_some_iff] at hr
    obtain ⟨equity, -, rfl⟩ := hr
    rw [resolveEffectiveFloor_peakChanged, resolveEffectiveFloor_nextPeak, decide_eq_true_iff, ne_eq,
      max_eq_left_iff, not_le]
  lockedFloorChanged i r hr := by
    rw [trace_getElem?, Option.map_eq_some_iff] at hr
    obtain ⟨equity, -, rfl⟩ := hr
    unfold resolveEffectiveFloor
    split
    · exact decide_eq_true_iff
    · simp

end DrawdownAccount

/-! ### The writes -/

/-- `v.peak IS NOT NULL AND (a.eod_peak_equity IS NULL OR a.eod_peak_equity < v.peak)`. -/
def raisesColumn (column : Option Cents) (value : Option ℚ) : Bool :=
  value.any fun v => column.all fun c => c.dollars < v

def PeakUpdate.raises (u : PeakUpdate) (row : Account) : Bool :=
  raisesColumn row.eodPeakEquity u.peak || raisesColumn row.eodTrailingFloor u.lockedFloor

def PeakUpdate.anchors (u : PeakUpdate) : Anchors ℚ := (anchor u.peak, anchor u.lockedFloor)

/-- The updates of a batch that join a row. -/
def matchingUpdates (updates : List PeakUpdate) (row : Account) : List PeakUpdate :=
  updates.filter fun u => u.accountId = row.id && u.raises row

/-- One of the matching updates, by a choice the database is free to make. -/
def chosenUpdate (choice : List PeakUpdate → ℕ) (matching : List PeakUpdate) : Option PeakUpdate :=
  matching[choice matching % matching.length]?

/-- The rows afterwards, and how many were touched. -/
def flushPeakEquityUpdates (choice : List PeakUpdate → ℕ) (accounts : Table Account) (updates : List PeakUpdate) :
    Table Account × ℕ where
  fst := {
    rows := accounts.rows.map fun row =>
      (chosenUpdate choice (matchingUpdates updates row)).elim row fun u => (Account.flushed u).apply row
    nodup := by
      have hkey : (accounts.rows.map fun row =>
          (chosenUpdate choice (matchingUpdates updates row)).elim row fun u => (Account.flushed u).apply row).map
            Keyed.key = accounts.rows.map Keyed.key := by
        rw [List.map_map]
        refine List.map_congr_left fun row _ => ?_
        rw [Function.comp_apply]
        cases chosenUpdate choice (matchingUpdates updates row) with
        | none => rfl
        | some u => exact (Account.flushed u).key_apply row
      exact hkey ▸ accounts.nodup }
  snd := (accounts.rows.filter fun row => matchingUpdates updates row ≠ []).length

/-- A call that persists anchors of an account: the wrapper on what was read of the account, or a batch. -/
inductive AnchorWrite
  | wrapper (acc : DrawdownAccount) (opts : DrawdownOptions)
  | flush (updates : List PeakUpdate)

def AnchorWrite.apply (choice : List PeakUpdate → ℕ) (id : Nat) (accounts : Table Account) :
    AnchorWrite → Table Account
  | wrapper acc opts => accounts.updateAt id (Account.anchored (resolveEffectiveFloor acc opts))
  | flush updates => (flushPeakEquityUpdates choice accounts updates).1

/-- The wrapper, when what it read is a row as it stands. -/
theorem getEffectiveDrawdownFloor_accounts (choice : List PeakUpdate → ℕ) (db : Db) (acc : Account)
    (opts : DrawdownOptions) :
    (getEffectiveDrawdownFloor db acc opts).1.accounts =
      AnchorWrite.apply choice acc.id db.accounts (.wrapper acc.drawdown opts) := rfl

/-- What the callers put into a batch. -/
def DrawdownResolution.peakUpdate (r : DrawdownResolution) (accountId : Nat) : PeakUpdate :=
  ⟨accountId, r.dirtyPeak.peak, r.dirtyPeak.lockedFloor⟩

/-- The writes carry results of a trace, and every result that raised an anchor at least once. -/
structure Persists (writes : List AnchorWrite) (id : Nat) (results : List DrawdownResolution) : Prop where
  wrapped : ∀ acc opts, .wrapper acc opts ∈ writes → resolveEffectiveFloor acc opts ∈ results
  flushed : ∀ updates, .flush updates ∈ writes → ∀ u ∈ updates, u.accountId = id →
    ∃ r ∈ results, u = r.peakUpdate id
  complete : ∀ r ∈ results, r.peakChanged ∨ r.lockedFloorChanged →
    (∃ acc opts, .wrapper acc opts ∈ writes ∧ resolveEffectiveFloor acc opts = r) ∨
      ∃ updates, .flush updates ∈ writes ∧ r.peakUpdate id ∈ updates

/-- No batch has two updates of an account. -/
def NamesOnce (writes : List AnchorWrite) : Prop :=
  ∀ updates, .flush updates ∈ writes → (updates.map PeakUpdate.accountId).Nodup

/-- The columns hold, in cents, the maxima of the peaks and of the locked floors; a null peak is the starting
balance. -/
structure HoldsMaxima (row : Account) (acc : DrawdownAccount) (results : List DrawdownResolution) : Prop where
  peak : row.eodPeakEquity.getD row.startingBalance =
    toCents ((results.map DrawdownResolution.nextPeak).foldl max acc.priorPeak)
  locked : anchor row.eodTrailingFloor =
    WithBot.map toCents ((results.map fun r => anchor r.nextLockedFloor).foldl (· ⊔ ·) (anchor acc.eodTrailingFloor))

section Persisting

variable {choice : List PeakUpdate → ℕ} {id : Nat} {accounts : Table Account} {row : Account}
  {updates : List PeakUpdate} {u : PeakUpdate}

theorem Account.anchored_anchors (row : Account) (r : DrawdownResolution) :
    ((Account.anchored r).apply row).anchors = row.anchors ⊔ centAnchors r.dirtyPeak.anchors := by
  have hpeak : ((Account.anchored r).apply row).eodPeakEquity =
      greatestColumn row.eodPeakEquity r.dirtyPeak.peak := by
    simp only [Account.anchored, DrawdownResolution.dirtyPeak]
    split <;> rfl
  have hlocked : ((Account.anchored r).apply row).eodTrailingFloor =
      greatestColumn row.eodTrailingFloor r.dirtyPeak.lockedFloor := by
    simp only [Account.anchored, DrawdownResolution.dirtyPeak]
    cases r.lockedFloorChanged <;> cases r.nextLockedFloor <;> rfl
  refine Prod.ext ?_ ?_
  · exact (congrArg anchor hpeak).trans (greatestColumn_anchor _ _)
  · exact (congrArg anchor hlocked).trans (greatestColumn_anchor _ _)

theorem le_of_raisesColumn_eq_false {column : Option Cents} {value : Option ℚ}
    (hraises : raisesColumn column value = false) : WithBot.map toCents (anchor value) ≤ anchor column := by
  cases value with
  | none => exact bot_le
  | some v =>
    cases column with
    | none => cases hraises
    | some c =>
      have hle : v ≤ c.dollars := by simpa [raisesColumn] using hraises
      have hcents := toCents_mono hle
      rw [toCents_dollars] at hcents
      exact WithBot.coe_le_coe.mpr hcents

theorem PeakUpdate.le_of_raises_eq_false (hraises : u.raises row = false) :
    centAnchors u.anchors ≤ row.anchors := by
  rw [raises, Bool.or_eq_false_iff] at hraises
  exact ⟨le_of_raisesColumn_eq_false hraises.1, le_of_raisesColumn_eq_false hraises.2⟩

/-- What a write brings to an account. -/
def AnchorWrite.brings (id : Nat) : AnchorWrite → Anchors ℚ
  | wrapper acc opts => (resolveEffectiveFloor acc opts).dirtyPeak.anchors
  | flush updates => (updates.find? fun u => u.accountId = id).elim ⊥ PeakUpdate.anchors

theorem chosenUpdate_singleton (u : PeakUpdate) : chosenUpdate choice [u] = some u := by
  rw [chosenUpdate, List.length_singleton, Nat.mod_one]
  rfl

theorem matchingUpdates_eq (hnodup : (updates.map PeakUpdate.accountId).Nodup) (row : Account) :
    matchingUpdates updates row =
      ((updates.find? fun u => u.accountId = row.id).filter fun u => u.raises row).toList := by
  have hsplit : matchingUpdates updates row =
      (updates.filter fun u => u.accountId = row.id).filter fun u => u.raises row := by
    rw [List.filter_filter]
    exact List.filter_congr fun u _ => Bool.and_comm _ _
  rw [hsplit]
  cases hfind : updates.find? fun u => u.accountId = row.id with
  | none =>
    have hnone : (updates.filter fun u => u.accountId = row.id) = [] := by
      rw [List.filter_eq_nil_iff]
      exact List.find?_eq_none.mp hfind
    rw [hnone]
    rfl
  | some u =>
    obtain ⟨hmem, hid⟩ := (List.find?_key_eq_some hnodup).mp hfind
    rw [← hid, List.filter_key_eq_singleton hnodup hmem, Option.filter_some]
    cases hraises : u.raises row with
    | true => simp [hraises]
    | false => simp [hraises]

/-- A batch that names an account once brings it that update. -/
theorem flush_row (hnodup : (updates.map PeakUpdate.accountId).Nodup) (hrow : accounts.find? id = some row) :
    ∃ row', (flushPeakEquityUpdates choice accounts updates).1.find? id = some row' ∧
      row'.anchors = row.anchors ⊔ centAnchors (AnchorWrite.brings id (.flush updates)) ∧
      row'.startingBalance = row.startingBalance := by
  obtain ⟨hmem, rfl⟩ := Table.find?_eq_some.mp hrow
  have hmap := List.mem_map_of_mem (f := fun row =>
    (chosenUpdate choice (matchingUpdates updates row)).elim row fun u => (Account.flushed u).apply row) hmem
  simp only [AnchorWrite.brings]
  cases hfind : updates.find? fun u => u.accountId = row.id with
  | none =>
    rw [matchingUpdates_eq hnodup, hfind] at hmap
    refine ⟨row, Table.find?_eq_some.mpr ⟨hmap, rfl⟩, ?_, rfl⟩
    exact (sup_bot_eq row.anchors).symm
  | some u =>
    rw [matchingUpdates_eq hnodup, hfind, Option.filter_some] at hmap
    cases hraises : u.raises row with
    | false =>
      rw [hraises] at hmap
      refine ⟨row, Table.find?_eq_some.mpr ⟨hmap, rfl⟩, ?_, rfl⟩
      exact (sup_eq_left.mpr (PeakUpdate.le_of_raises_eq_false hraises)).symm
    | true =>
      rw [hraises, if_pos rfl, Option.toList_some, chosenUpdate_singleton] at hmap
      refine ⟨_, Table.find?_eq_some.mpr ⟨hmap, rfl⟩, ?_, rfl⟩
      exact Prod.ext (greatestColumn_anchor _ _) (greatestColumn_anchor _ _)

theorem wrapper_row (hrow : accounts.find? id = some row) (acc : DrawdownAccount) (opts : DrawdownOptions) :
    ∃ row', (AnchorWrite.apply choice id accounts (.wrapper acc opts)).find? id = some row' ∧
      row'.anchors = row.anchors ⊔ centAnchors (AnchorWrite.brings id (.wrapper acc opts)) ∧
      row'.startingBalance = row.startingBalance := by
  refine ⟨_, ?_, Account.anchored_anchors row _, rfl⟩
  rw [AnchorWrite.apply, Table.find?_updateAt, hrow, Option.map_some, if_pos rfl]

/-- Each write joins what it brings to the row. -/
theorem foldl_apply_row {writes : List AnchorWrite} (honce : NamesOnce writes)
    (hrow : accounts.find? id = some row) :
    ∃ row', (writes.foldl (AnchorWrite.apply choice id) accounts).find? id = some row' ∧
      row'.anchors = (writes.map fun w => centAnchors (w.brings id)).foldl (· ⊔ ·) row.anchors ∧
      row'.startingBalance = row.startingBalance := by
  induction writes generalizing accounts row with
  | nil => exact ⟨row, hrow, rfl, rfl⟩
  | cons w writes ih =>
    have hone : ∃ row', (AnchorWrite.apply choice id accounts w).find? id = some row' ∧
        row'.anchors = row.anchors ⊔ centAnchors (w.brings id) ∧
        row'.startingBalance = row.startingBalance := by
      cases w with
      | wrapper acc opts => exact wrapper_row hrow acc opts
      | flush updates => exact flush_row (honce updates List.mem_cons_self) hrow
    obtain ⟨next, hnext, hanchors, hstart⟩ := hone
    obtain ⟨row', hrow', hanchors', hstart'⟩ :=
      ih (fun updates hmem => honce updates (List.mem_cons_of_mem w hmem)) hnext
    refine ⟨row', hrow', ?_, hstart'.trans hstart⟩
    rw [hanchors', hanchors, List.map_cons, List.foldl_cons]

theorem Persists.brings_mem {writes : List AnchorWrite} {results : List DrawdownResolution} {w : AnchorWrite}
    (hpersists : Persists writes id results) (hw : w ∈ writes) :
    w.brings id = ⊥ ∨ ∃ r ∈ results, w.brings id = r.dirtyPeak.anchors := by
  cases w with
  | wrapper acc opts => exact .inr ⟨_, hpersists.wrapped acc opts hw, rfl⟩
  | flush updates =>
    rw [AnchorWrite.brings]
    cases hfind : updates.find? fun u => u.accountId = id with
    | none => exact .inl rfl
    | some u =>
      have hid : u.accountId = id := by simpa using List.find?_some hfind
      obtain ⟨r, hr, rfl⟩ := hpersists.flushed updates hw u (List.mem_of_find?_eq_some hfind) hid
      exact .inr ⟨r, hr, rfl⟩

theorem Persists.mem_brings {writes : List AnchorWrite} {results : List DrawdownResolution}
    {r : DrawdownResolution} (hpersists : Persists writes id results) (honce : NamesOnce writes)
    (hr : r ∈ results) : r.dirtyPeak.anchors = ⊥ ∨ ∃ w ∈ writes, w.brings id = r.dirtyPeak.anchors := by
  by_cases hchanged : r.peakChanged ∨ r.lockedFloorChanged
  · right
    obtain ⟨acc, opts, hw, rfl⟩ | ⟨updates, hw, hmem⟩ := hpersists.complete r hr hchanged
    · exact ⟨_, hw, rfl⟩
    · refine ⟨_, hw, ?_⟩
      have hfind : (updates.find? fun u => u.accountId = id) = some (r.peakUpdate id) :=
        (List.find?_key_eq_some (honce updates hw)).mpr ⟨hmem, rfl⟩
      rw [AnchorWrite.brings, hfind]
      rfl
  · left
    rw [not_or, Bool.not_eq_true, Bool.not_eq_true] at hchanged
    rw [DrawdownResolution.dirtyPeak, hchanged.1, hchanged.2]
    rfl

theorem Persists.foldl_anchors {writes : List AnchorWrite} {results : List DrawdownResolution}
    (hpersists : Persists writes id results) (honce : NamesOnce writes) (a : Anchors Cents) :
    (writes.map fun w => centAnchors (w.brings id)).foldl (· ⊔ ·) a =
      (results.map fun r => centAnchors r.dirtyPeak.anchors).foldl (· ⊔ ·) a := by
  have hbot : centAnchors ⊥ ≤ a := bot_le
  refine foldl_sup_eq ?_ ?_
  · intro x hx
    obtain ⟨w, hw, rfl⟩ := List.mem_map.mp hx
    obtain hnone | ⟨r, hr, heq⟩ := hpersists.brings_mem hw
    · exact .inl (hnone ▸ hbot)
    · exact .inr (heq ▸ List.mem_map_of_mem hr)
  · intro x hx
    obtain ⟨r, hr, rfl⟩ := List.mem_map.mp hx
    obtain hnone | ⟨w, hw, heq⟩ := hpersists.mem_brings honce hr
    · exact .inl (hnone ▸ hbot)
    · exact .inr (heq ▸ List.mem_map_of_mem hw)

end Persisting

/-! ### The maxima -/

section Maxima

variable {acc : DrawdownAccount} {maxDrawdownPct : ℚ} {locksAtPct : Option ℚ}

/-- What a step notes of the peak makes the old anchor the new one, where null is the starting balance. -/
theorem peak_sup_dirtyPeak {column : Option ℚ} (hcolumn : column.getD acc.startingBalance = acc.priorPeak)
    (opts : DrawdownOptions) :
    ∃ column', anchor column ⊔ anchor (resolveEffectiveFloor acc opts).dirtyPeak.peak = anchor column' ∧
      column'.getD acc.startingBalance = max acc.priorPeak opts.equity := by
  rw [DrawdownResolution.dirtyPeak, resolveEffectiveFloor_peakChanged, resolveEffectiveFloor_nextPeak]
  by_cases hlt : acc.priorPeak < opts.equity
  · rw [decide_eq_true hlt, if_pos rfl, max_eq_right hlt.le]
    refine ⟨some opts.equity, sup_eq_right.mpr ?_, rfl⟩
    cases column with
    | none => exact bot_le
    | some p =>
      obtain rfl : p = acc.priorPeak := hcolumn
      exact WithBot.coe_le_coe.mpr hlt.le
  · rw [decide_eq_false hlt, max_eq_left (not_lt.mp hlt)]
    exact ⟨column, sup_bot_eq _, hcolumn⟩

theorem locked_sup_dirtyPeak (acc : DrawdownAccount) (opts : DrawdownOptions) :
    anchor acc.eodTrailingFloor ⊔ anchor (resolveEffectiveFloor acc opts).dirtyPeak.lockedFloor =
      anchor (resolveEffectiveFloor acc opts).nextLockedFloor := by
  have hkeeps := DrawdownAccount.resolveEffectiveFloor_keeps acc opts
  have hle : anchor acc.eodTrailingFloor ≤ anchor (resolveEffectiveFloor acc opts).nextLockedFloor := by
    cases hexisting : acc.eodTrailingFloor with
    | none => exact bot_le
    | some existing =>
      obtain ⟨next, hnext, hexistingle⟩ := hkeeps existing hexisting
      rw [Option.mem_def.mp hnext]
      exact WithBot.coe_le_coe.mpr hexistingle
  rw [DrawdownResolution.dirtyPeak]
  cases hchanged : (resolveEffectiveFloor acc opts).lockedFloorChanged with
  | true => exact sup_eq_right.mpr hle
  | false =>
    have hsame : (resolveEffectiveFloor acc opts).nextLockedFloor = acc.eodTrailingFloor := by
      unfold resolveEffectiveFloor at hchanged ⊢
      split at hchanged
      · simpa using hchanged
      · rfl
    rw [hsame]
    exact sup_bot_eq _

/-- The notes of a trace join to its maxima. -/
theorem foldl_dirtyPeak (acc : DrawdownAccount) (equities : List ℚ) {column : Option ℚ}
    (hcolumn : column.getD acc.startingBalance = acc.priorPeak) :
    ∃ column', ((acc.trace maxDrawdownPct locksAtPct equities).map fun r => r.dirtyPeak.anchors).foldl (· ⊔ ·)
        (anchor column, anchor acc.eodTrailingFloor) =
      (anchor column', ((acc.trace maxDrawdownPct locksAtPct equities).map fun r =>
        anchor r.nextLockedFloor).foldl (· ⊔ ·) (anchor acc.eodTrailingFloor)) ∧
      column'.getD acc.startingBalance =
        ((acc.trace maxDrawdownPct locksAtPct equities).map DrawdownResolution.nextPeak).foldl max acc.priorPeak := by
  induction equities generalizing acc column with
  | nil => exact ⟨column, rfl, hcolumn⟩
  | cons equity rest ih =>
    let opts : DrawdownOptions := ⟨equity, maxDrawdownPct, locksAtPct⟩
    obtain ⟨next, hsup, hnext⟩ := peak_sup_dirtyPeak hcolumn opts
    have hprior := DrawdownAccount.raised_priorPeak acc opts
    have hpeak := resolveEffectiveFloor_nextPeak acc opts
    have hlocked := locked_sup_dirtyPeak acc opts
    have habsorb : anchor acc.eodTrailingFloor ⊔ anchor (resolveEffectiveFloor acc opts).nextLockedFloor =
        anchor (resolveEffectiveFloor acc opts).nextLockedFloor := by
      rw [← hlocked, ← sup_assoc, sup_idem]
    obtain ⟨column', hfold, hmax⟩ :=
      ih (acc.raised (resolveEffectiveFloor acc opts)) (hnext.trans hprior.symm)
    refine ⟨column', ?_, ?_⟩
    · simp only [DrawdownAccount.trace, List.map_cons, List.foldl_cons]
      rw [DirtyPeak.anchors, Prod.mk_sup_mk, hsup, hlocked, habsorb]
      exact hfold
    · simp only [DrawdownAccount.trace, List.map_cons, List.foldl_cons]
      rw [hpeak, ← max_assoc, max_self, ← hprior]
      exact hmax

end Maxima

theorem centAnchors_drawdown (row : Account) :
    centAnchors (anchor row.drawdown.eodPeakEquity, anchor row.drawdown.eodTrailingFloor) = row.anchors := by
  have hcents (column : Option Cents) : WithBot.map toCents (anchor (column.map Cents.dollars)) = anchor column := by
    cases column with
    | none => rfl
    | some c => exact congrArg WithBot.some (toCents_dollars c)
  exact Prod.ext (hcents _) (hcents _)

/-- Whatever the order, the number and the batches of the writes, and whichever account they go with. -/
theorem holdsMaxima_of_persists {choice : List PeakUpdate → ℕ} {accounts : Table Account} {row : Account}
    {maxDrawdownPct : ℚ} {locksAtPct : Option ℚ} {equities : List ℚ} {writes : List AnchorWrite}
    (hrow : accounts.find? row.id = some row) (honce : NamesOnce writes)
    (hpersists : Persists writes row.id (row.drawdown.trace maxDrawdownPct locksAtPct equities)) :
    ∃ row', (writes.foldl (AnchorWrite.apply choice row.id) accounts).find? row.id = some row' ∧
      HoldsMaxima row' row.drawdown (row.drawdown.trace maxDrawdownPct locksAtPct equities) := by
  obtain ⟨row', hrow', hanchors, hstart⟩ := foldl_apply_row honce hrow
  obtain ⟨column, hfold, hmax⟩ := foldl_dirtyPeak row.drawdown equities
    (show row.drawdown.eodPeakEquity.getD row.drawdown.startingBalance = row.drawdown.priorPeak from rfl)
  rw [hpersists.foldl_anchors honce, ← centAnchors_drawdown row] at hanchors
  have hcents := map_foldl_sup centAnchors
    (anchor row.drawdown.eodPeakEquity, anchor row.drawdown.eodTrailingFloor)
    ((row.drawdown.trace maxDrawdownPct locksAtPct equities).map fun r => r.dirtyPeak.anchors)
  rw [List.map_map, hfold] at hcents
  have hrow'anchors := hanchors.trans hcents.symm
  refine ⟨row', hrow', ?_, congrArg Prod.snd hrow'anchors⟩
  have hpeak : row'.eodPeakEquity = column.map toCents := congrArg Prod.fst hrow'anchors
  rw [← hmax, hpeak, hstart]
  cases column with
  | none => exact (toCents_dollars row.startingBalance).symm
  | some p => rfl

theorem traceLaws_and_holdsMaxima (acc : DrawdownAccount) (maxDrawdownPct : ℚ)
    (hpct : 0 ≤ maxDrawdownPct ∧ maxDrawdownPct ≤ 100) (locksAtPct : Option ℚ) (equities : List ℚ) :
    acc.TraceLaws maxDrawdownPct locksAtPct equities ∧
      ∀ (choice : List PeakUpdate → ℕ) (accounts : Table Account) (row : Account) (writes : List AnchorWrite),
        accounts.find? row.id = some row → row.drawdown = acc → NamesOnce writes →
          Persists writes row.id (acc.trace maxDrawdownPct locksAtPct equities) →
            ∃ row', (writes.foldl (AnchorWrite.apply choice row.id) accounts).find? row.id = some row' ∧
              HoldsMaxima row' acc (acc.trace maxDrawdownPct locksAtPct equities) := by
  refine ⟨DrawdownAccount.traceLaws hpct.2 equities, ?_⟩
  rintro choice accounts row writes hrow rfl honce hpersists
  exact holdsMaxima_of_persists hrow honce hpersists

/-! ### Two updates of an account in one batch, and cents -/

section Runs

open PeakState (fundedRow)

/-- The first equity raises the peak past the lock threshold and locks the floor, the second one raises the peak
alone. -/
def lockThenRaise : List DrawdownResolution := fundedRow.drawdown.trace 10 (some 5) [10600, 10700]

def lockThenRaiseUpdates : List PeakUpdate := [⟨1, some 10600, some 9450⟩, ⟨1, some 10700, none⟩]

theorem lockThenRaise_peakUpdates :
    lockThenRaise.map (fun r => r.peakUpdate fundedRow.id) = lockThenRaiseUpdates := by
  decide +kernel

theorem persists_of_updates {writes : List AnchorWrite}
    (hwrites : ∀ w ∈ writes, ∃ updates, w = .flush updates ∧ ∀ u ∈ updates, u ∈ lockThenRaiseUpdates)
    (hall : ∀ u ∈ lockThenRaiseUpdates, ∃ updates, .flush updates ∈ writes ∧ u ∈ updates) :
    Persists writes fundedRow.id lockThenRaise where
  wrapped acc opts hmem := by
    obtain ⟨updates, heq, -⟩ := hwrites _ hmem
    cases heq
  flushed updates hmem u hu _ := by
    obtain ⟨_, heq, hupdates⟩ := hwrites _ hmem
    obtain rfl := AnchorWrite.flush.inj heq
    have hin := hupdates u hu
    rw [← lockThenRaise_peakUpdates] at hin
    obtain ⟨r, hr, rfl⟩ := List.mem_map.mp hin
    exact ⟨r, hr, rfl⟩
  complete r hr _ := by
    have hin : r.peakUpdate fundedRow.id ∈ lockThenRaiseUpdates := by
      rw [← lockThenRaise_peakUpdates]
      exact List.mem_map_of_mem hr
    exact .inr (hall _ hin)

/-- The second update, then the first, then the second again. -/
def separateBatches : List AnchorWrite :=
  [.flush [⟨1, some 10700, none⟩], .flush [⟨1, some 10600, some 9450⟩], .flush [⟨1, some 10700, none⟩]]

theorem traceLaws_and_holdsMaxima_separateBatches :
    fundedRow.drawdown.TraceLaws 10 (some 5) [10600, 10700] ∧
      ∃ row', (separateBatches.foldl (AnchorWrite.apply (fun _ => 0) fundedRow.id) (Table.single fundedRow)).find?
        fundedRow.id = some row' ∧ HoldsMaxima row' fundedRow.drawdown lockThenRaise := by
  obtain ⟨hlaws, hmaxima⟩ := traceLaws_and_holdsMaxima fundedRow.drawdown 10 (by norm_num) (some 5) [10600, 10700]
  refine ⟨hlaws, hmaxima _ _ fundedRow separateBatches rfl rfl ?_ (persists_of_updates ?_ ?_)⟩
  · intro updates hmem
    simp only [separateBatches, List.mem_cons, AnchorWrite.flush.injEq, List.not_mem_nil, or_false] at hmem
    rcases hmem with rfl | rfl | rfl <;> decide
  · intro w hw
    simp only [separateBatches, List.mem_cons, List.not_mem_nil, or_false] at hw
    rcases hw with rfl | rfl | rfl
    · exact ⟨_, rfl, by decide +kernel⟩
    · exact ⟨_, rfl, by decide +kernel⟩
    · exact ⟨_, rfl, by decide +kernel⟩
  · intro u hu
    simp only [lockThenRaiseUpdates, List.mem_cons, List.not_mem_nil, or_false] at hu
    rcases hu with rfl | rfl
    · exact ⟨_, List.mem_cons_of_mem _ List.mem_cons_self, List.mem_cons_self⟩
    · exact ⟨_, List.mem_cons_self, List.mem_cons_self⟩

theorem not_holdsMaxima_of_one {u : PeakUpdate} (hu : u ∈ lockThenRaiseUpdates) :
    ¬HoldsMaxima ((Account.flushed u).apply fundedRow) fundedRow.drawdown lockThenRaise := by
  intro hmaxima
  simp only [lockThenRaiseUpdates, List.mem_cons, List.not_mem_nil, or_false] at hu
  rcases hu with rfl | rfl
  · exact absurd hmaxima.peak (by decide +kernel)
  · exact absurd (congrArg (WithBot.unbotD 0) hmaxima.locked) (by decide +kernel)

/-- Whichever of the two the database takes, the other one is lost; and a peak between two cents is rounded. -/
theorem oneBatch_not_holdsMaxima :
    (∀ choice, ∃ row', (AnchorWrite.apply choice fundedRow.id (Table.single fundedRow)
        (.flush lockThenRaiseUpdates)).find? fundedRow.id = some row' ∧
      ¬HoldsMaxima row' fundedRow.drawdown lockThenRaise) ∧
      ((AnchorWrite.apply (fun _ => 0) fundedRow.id (Table.single fundedRow)
        (.wrapper fundedRow.drawdown ⟨10600.004, 10, none⟩)).find? fundedRow.id).map Account.eodPeakEquity =
          some (some 1060000) := by
  refine ⟨fun choice => ?_, by decide +kernel⟩
  have hmatching : matchingUpdates lockThenRaiseUpdates fundedRow = lockThenRaiseUpdates := by decide +kernel
  have hchosen : ∃ u ∈ lockThenRaiseUpdates, chosenUpdate choice lockThenRaiseUpdates = some u := by
    have hlt : choice lockThenRaiseUpdates % lockThenRaiseUpdates.length < lockThenRaiseUpdates.length :=
      Nat.mod_lt _ (by decide)
    exact ⟨_, List.getElem_mem hlt, List.getElem?_eq_getElem hlt⟩
  obtain ⟨u, hu, hchosen⟩ := hchosen
  refine ⟨(Account.flushed u).apply fundedRow, ?_, not_holdsMaxima_of_one hu⟩
  refine Table.find?_eq_some.mpr ⟨?_, rfl⟩
  refine List.mem_map.mpr ⟨fundedRow, List.mem_cons_self, ?_⟩
  rw [hmatching, hchosen]
  rfl

end Runs

end PropFirm
