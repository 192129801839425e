import PropFirm.Schema

/-!
# The trailing drawdown floor

`resolveEffectiveFloor` is the pure calculator every engine enforces: the peak equity ratchets up,
the floor trails it by the maximum drawdown, and a funded account whose peak has reached the lock
threshold keeps the floor of that threshold for good. `getEffectiveDrawdownFloor` is the same
calculation with the raised anchors written back to the account's row, where they round to cents.
`flushPeakEquityUpdates` writes a batch of anchors kept in memory; both writes only ever raise.
-/

namespace PropFirm

structure DrawdownAccount where
  accountType : AccountType
  startingBalance : ℚ
  eodPeakEquity : Option ℚ
  eodTrailingFloor : Option ℚ

structure DrawdownOptions where
  equity : ℚ
  maxDrawdownPct : ℚ
  drawdownLocksAtPct : Option ℚ

structure DrawdownResolution where
  floor : ℚ
  nextPeak : ℚ
  peakChanged : Bool
  nextLockedFloor : Option ℚ
  lockedFloorChanged : Bool
  deriving DecidableEq

def Account.drawdown (acc : Account) : DrawdownAccount where
  accountType := acc.accountType
  startingBalance := acc.startingBalance.dollars
  eodPeakEquity := acc.eodPeakEquity.map Cents.dollars
  eodTrailingFloor := acc.eodTrailingFloor.map Cents.dollars

def computeTrailingFloor (peakEquity maxDrawdownPct : ℚ) : ℚ :=
  peakEquity * (1 - maxDrawdownPct / 100)

/-- The anchor a null peak stands for. -/
def DrawdownAccount.priorPeak (acc : DrawdownAccount) : ℚ :=
  acc.eodPeakEquity.getD acc.startingBalance

/-- The locked floor a peak earns: what is already locked, raised to the floor of the lock threshold
once the peak has reached it. -/
def nextLockedFloor (acc : DrawdownAccount) (nextPeak maxDrawdownPct locksAtPct : ℚ) : Option ℚ :=
  let lockThreshold := acc.startingBalance * (1 + locksAtPct / 100)
  let candidateFloor := lockThreshold * (1 - maxDrawdownPct / 100)
  if lockThreshold ≤ nextPeak then
    match acc.eodTrailingFloor with
    | none => some candidateFloor
    | some existing => if existing < candidateFloor then some candidateFloor else some existing
  else acc.eodTrailingFloor

def resolveEffectiveFloor (acc : DrawdownAccount) (opts : DrawdownOptions) : DrawdownResolution :=
  let nextPeak := max acc.priorPeak opts.equity
  let trailingFloor := computeTrailingFloor nextPeak opts.maxDrawdownPct
  match acc.accountType, opts.drawdownLocksAtPct with
  | .funded, some locksAtPct =>
    let locked := nextLockedFloor acc nextPeak opts.maxDrawdownPct locksAtPct
    { floor := locked.elim trailingFloor (max trailingFloor)
      nextPeak := nextPeak
      peakChanged := decide (acc.priorPeak < nextPeak)
      nextLockedFloor := locked
      lockedFloorChanged := decide (locked ≠ acc.eodTrailingFloor) }
  | _, _ =>
    { floor := trailingFloor
      nextPeak := nextPeak
      peakChanged := decide (acc.priorPeak < nextPeak)
      nextLockedFloor := acc.eodTrailingFloor
      lockedFloorChanged := false }

@[simp] theorem resolveEffectiveFloor_nextPeak (acc : DrawdownAccount) (opts : DrawdownOptions) :
    (resolveEffectiveFloor acc opts).nextPeak = max acc.priorPeak opts.equity := by
  unfold resolveEffectiveFloor
  split <;> rfl

@[simp] theorem resolveEffectiveFloor_peakChanged (acc : DrawdownAccount) (opts : DrawdownOptions) :
    (resolveEffectiveFloor acc opts).peakChanged = decide (acc.priorPeak < opts.equity) := by
  unfold resolveEffectiveFloor
  split <;> simp

theorem resolveEffectiveFloor_floor_unlocked {acc : DrawdownAccount} {opts : DrawdownOptions}
    (hunlocked : acc.accountType = .funded → opts.drawdownLocksAtPct = none) :
    (resolveEffectiveFloor acc opts).floor
      = computeTrailingFloor (max acc.priorPeak opts.equity) opts.maxDrawdownPct := by
  unfold resolveEffectiveFloor
  split
  · rename_i hfunded hlocks
    rw [hunlocked hfunded] at hlocks
    cases hlocks
  · rfl

theorem resolveEffectiveFloor_locked {acc : DrawdownAccount} {opts : DrawdownOptions} {locksAtPct : ℚ}
    (hfunded : acc.accountType = .funded) (hlocks : opts.drawdownLocksAtPct = some locksAtPct) :
    let nextPeak := max acc.priorPeak opts.equity
    let trailing := computeTrailingFloor nextPeak opts.maxDrawdownPct
    let locked := nextLockedFloor acc nextPeak opts.maxDrawdownPct locksAtPct
    (resolveEffectiveFloor acc opts).floor = locked.elim trailing (max trailing) ∧
      (resolveEffectiveFloor acc opts).nextLockedFloor = locked ∧
      (resolveEffectiveFloor acc opts).lockedFloorChanged = decide (locked ≠ acc.eodTrailingFloor) := by
  simp [resolveEffectiveFloor, hfunded, hlocks]

theorem nextLockedFloor_ge {acc : DrawdownAccount} {nextPeak maxDrawdownPct locksAtPct existing : ℚ}
    (hexisting : acc.eodTrailingFloor = some existing) :
    ∃ locked, nextLockedFloor acc nextPeak maxDrawdownPct locksAtPct = some locked ∧
      existing ≤ locked := by
  simp only [nextLockedFloor, hexisting]
  split
  · split
    · rename_i hlt
      exact ⟨_, rfl, hlt.le⟩
    · exact ⟨_, rfl, le_rfl⟩
  · exact ⟨_, rfl, le_rfl⟩

/-! ### Higher anchors, higher floor -/

/-- What is set in `a` is set at least as high in `b`. -/
def AnchorLe (a b : Option ℚ) : Prop := ∀ x ∈ a, ∃ y ∈ b, x ≤ y

theorem AnchorLe.refl (a : Option ℚ) : AnchorLe a a := fun x hx => ⟨x, hx, le_rfl⟩

theorem AnchorLe.antisymm {a b : Option ℚ} (hab : AnchorLe a b) (hba : AnchorLe b a) : a = b := by
  cases a with
  | none =>
    cases b with
    | none => rfl
    | some y => obtain ⟨_, hnone, _⟩ := hba y rfl; cases hnone
  | some x =>
    obtain ⟨y, rfl, hxy⟩ := hab x rfl
    obtain ⟨_, ⟨⟩, hyx⟩ := hba y rfl
    rw [le_antisymm hxy hyx]

namespace DrawdownAccount

/-- The peak from which on a funded account keeps its floor. -/
def lockThreshold (acc : DrawdownAccount) (locksAtPct : ℚ) : ℚ :=
  acc.startingBalance * (1 + locksAtPct / 100)

variable {a b : DrawdownAccount} {peak peak' maxDrawdownPct locksAtPct : ℚ}

theorem mem_nextLockedFloor {locked : ℚ}
    (hlocked : locked ∈ nextLockedFloor a peak maxDrawdownPct locksAtPct) :
    locked ∈ a.eodTrailingFloor ∨ a.lockThreshold locksAtPct ≤ peak ∧
      locked = computeTrailingFloor (a.lockThreshold locksAtPct) maxDrawdownPct := by
  rw [nextLockedFloor] at hlocked
  split at hlocked
  · rename_i hreached
    split at hlocked
    · exact .inr ⟨hreached, (Option.some.inj hlocked).symm⟩
    · rename_i existing hexisting
      split at hlocked
      · exact .inr ⟨hreached, (Option.some.inj hlocked).symm⟩
      · exact .inl (hexisting.trans hlocked)
  · exact .inl hlocked

theorem nextLockedFloor_keeps :
    AnchorLe a.eodTrailingFloor (nextLockedFloor a peak maxDrawdownPct locksAtPct) :=
  fun _ hexisting => nextLockedFloor_ge hexisting

theorem nextLockedFloor_of_reached (hreached : a.lockThreshold locksAtPct ≤ peak) :
    ∃ locked ∈ nextLockedFloor a peak maxDrawdownPct locksAtPct,
      computeTrailingFloor (a.lockThreshold locksAtPct) maxDrawdownPct ≤ locked := by
  rw [nextLockedFloor]
  split
  · split
    · exact ⟨_, rfl, le_rfl⟩
    · rename_i existing _
      split
      · exact ⟨_, rfl, le_rfl⟩
      · rename_i hnlt
        exact ⟨existing, rfl, not_lt.mp hnlt⟩
  · rename_i hnot
    exact absurd hreached hnot

/-- `b` holds the locked floor of `a`, or its peak implies one at least as high. -/
def KeepsLockedFloor (a b : DrawdownAccount) (maxDrawdownPct locksAtPct : ℚ) : Prop :=
  ∀ locked ∈ a.eodTrailingFloor, (∃ kept ∈ b.eodTrailingFloor, locked ≤ kept) ∨
    b.lockThreshold locksAtPct ≤ b.priorPeak ∧
      locked ≤ computeTrailingFloor (b.lockThreshold locksAtPct) maxDrawdownPct

instance : Decidable (KeepsLockedFloor a b maxDrawdownPct locksAtPct) :=
  inferInstanceAs (Decidable (∀ locked ∈ a.eodTrailingFloor, _))

theorem KeepsLockedFloor.of_anchorLe (hle : AnchorLe a.eodTrailingFloor b.eodTrailingFloor) :
    KeepsLockedFloor a b maxDrawdownPct locksAtPct := fun locked hlocked => .inl (hle locked hlocked)

theorem nextLockedFloor_mono (hstart : a.startingBalance = b.startingBalance)
    (hpeak : a.priorPeak ≤ b.priorPeak) (hkeeps : KeepsLockedFloor a b maxDrawdownPct locksAtPct) :
    AnchorLe (nextLockedFloor a a.priorPeak maxDrawdownPct locksAtPct)
      (nextLockedFloor b b.priorPeak maxDrawdownPct locksAtPct) := by
  have hthreshold : a.lockThreshold locksAtPct = b.lockThreshold locksAtPct := by
    rw [lockThreshold, hstart, lockThreshold]
  intro locked hlocked
  obtain hheld | ⟨hreached, rfl⟩ := mem_nextLockedFloor hlocked
  · obtain ⟨kept, hkept, hle⟩ | ⟨hreached, hle⟩ := hkeeps locked hheld
    · obtain ⟨next, hnext, hkeptle⟩ := nextLockedFloor_keeps kept hkept
      exact ⟨next, hnext, hle.trans hkeptle⟩
    · obtain ⟨next, hnext, hnextle⟩ := nextLockedFloor_of_reached hreached
      exact ⟨next, hnext, hle.trans hnextle⟩
  · rw [hthreshold] at hreached ⊢
    exact nextLockedFloor_of_reached (hreached.trans hpeak)

/-- The locked floor a peak puts in force: only a funded account under a lock threshold has one. -/
def lockedFloor (acc : DrawdownAccount) (peak maxDrawdownPct : ℚ) (locksAtPct : Option ℚ) : Option ℚ :=
  match acc.accountType, locksAtPct with
  | .funded, some locksAtPct => nextLockedFloor acc peak maxDrawdownPct locksAtPct
  | _, _ => none

theorem resolveEffectiveFloor_floor (acc : DrawdownAccount) (opts : DrawdownOptions) :
    (resolveEffectiveFloor acc opts).floor =
      let nextPeak := max acc.priorPeak opts.equity
      let trailingFloor := computeTrailingFloor nextPeak opts.maxDrawdownPct
      (acc.lockedFloor nextPeak opts.maxDrawdownPct opts.drawdownLocksAtPct).elim trailingFloor
        (max trailingFloor) := by
  unfold resolveEffectiveFloor lockedFloor
  generalize acc.accountType = accountType
  cases accountType <;> cases opts.drawdownLocksAtPct <;> rfl

/-- The floor enforced on an equity that raises no anchor. -/
def floor (acc : DrawdownAccount) (maxDrawdownPct : ℚ) (locksAtPct : Option ℚ) : ℚ :=
  (resolveEffectiveFloor acc ⟨acc.priorPeak, maxDrawdownPct, locksAtPct⟩).floor

theorem floor_eq (acc : DrawdownAccount) (maxDrawdownPct : ℚ) (locksAtPct : Option ℚ) :
    acc.floor maxDrawdownPct locksAtPct =
      (acc.lockedFloor acc.priorPeak maxDrawdownPct locksAtPct).elim
        (computeTrailingFloor acc.priorPeak maxDrawdownPct)
        (max (computeTrailingFloor acc.priorPeak maxDrawdownPct)) := by
  rw [floor, resolveEffectiveFloor_floor]
  simp only [max_self]

theorem trailing_le_floor (acc : DrawdownAccount) (maxDrawdownPct : ℚ) (locksAtPct : Option ℚ) :
    computeTrailingFloor acc.priorPeak maxDrawdownPct ≤ acc.floor maxDrawdownPct locksAtPct := by
  rw [floor_eq]
  cases acc.lockedFloor acc.priorPeak maxDrawdownPct locksAtPct with
  | none => exact le_rfl
  | some locked => exact le_max_left _ _

theorem computeTrailingFloor_mono (hmax : maxDrawdownPct ≤ 100) (hpeak : peak ≤ peak') :
    computeTrailingFloor peak maxDrawdownPct ≤ computeTrailingFloor peak' maxDrawdownPct := by
  refine mul_le_mul_of_nonneg_right hpeak ?_
  rw [sub_nonneg, div_le_one (by norm_num)]
  exact hmax

theorem floor_mono {locksAtPct : Option ℚ} (hmax : maxDrawdownPct ≤ 100)
    (htype : a.accountType = b.accountType) (hstart : a.startingBalance = b.startingBalance)
    (hpeak : a.priorPeak ≤ b.priorPeak)
    (hkeeps : ∀ pct ∈ locksAtPct, KeepsLockedFloor a b maxDrawdownPct pct) :
    a.floor maxDrawdownPct locksAtPct ≤ b.floor maxDrawdownPct locksAtPct := by
  have htrailing := computeTrailingFloor_mono hmax hpeak
  have hlocked : AnchorLe (a.lockedFloor a.priorPeak maxDrawdownPct locksAtPct)
      (b.lockedFloor b.priorPeak maxDrawdownPct locksAtPct) := by
    unfold lockedFloor
    rw [← htype]
    split
    · exact nextLockedFloor_mono hstart hpeak (hkeeps _ rfl)
    · exact AnchorLe.refl none
  rw [floor_eq, floor_eq]
  cases hheld : a.lockedFloor a.priorPeak maxDrawdownPct locksAtPct with
  | none =>
    refine htrailing.trans ?_
    rw [← floor_eq]
    exact trailing_le_floor b maxDrawdownPct locksAtPct
  | some locked =>
    obtain ⟨kept, hkept, hle⟩ := hlocked locked hheld
    rw [Option.mem_def.mp hkept]
    exact max_le_max htrailing hle

theorem resolveEffectiveFloor_keeps (acc : DrawdownAccount) (opts : DrawdownOptions) :
    AnchorLe acc.eodTrailingFloor (resolveEffectiveFloor acc opts).nextLockedFloor := by
  unfold resolveEffectiveFloor
  split
  · exact nextLockedFloor_keeps
  · exact AnchorLe.refl _

def raised (acc : DrawdownAccount) (resolved : DrawdownResolution) : DrawdownAccount :=
  { acc with eodPeakEquity := some resolved.nextPeak, eodTrailingFloor := resolved.nextLockedFloor }

theorem raised_priorPeak (acc : DrawdownAccount) (opts : DrawdownOptions) :
    (acc.raised (resolveEffectiveFloor acc opts)).priorPeak = max acc.priorPeak opts.equity :=
  resolveEffectiveFloor_nextPeak acc opts

theorem nextLockedFloor_idem {acc : DrawdownAccount} (hstart : b.startingBalance = acc.startingBalance)
    (hlocked : b.eodTrailingFloor = nextLockedFloor acc peak maxDrawdownPct locksAtPct) :
    nextLockedFloor b peak maxDrawdownPct locksAtPct
      = nextLockedFloor acc peak maxDrawdownPct locksAtPct := by
  refine AnchorLe.antisymm ?_ (hlocked ▸ nextLockedFloor_keeps)
  intro locked hmem
  obtain hheld | ⟨hreached, rfl⟩ := mem_nextLockedFloor hmem
  · exact ⟨locked, hlocked ▸ hheld, le_rfl⟩
  · have hthreshold : b.lockThreshold locksAtPct = acc.lockThreshold locksAtPct := by
      rw [lockThreshold, hstart, lockThreshold]
    rw [hthreshold] at hreached ⊢
    exact nextLockedFloor_of_reached hreached

/-- The floor a tick enforces is the floor of the anchors it leaves. -/
theorem raised_floor (acc : DrawdownAccount) (opts : DrawdownOptions) :
    (acc.raised (resolveEffectiveFloor acc opts)).floor opts.maxDrawdownPct opts.drawdownLocksAtPct
      = (resolveEffectiveFloor acc opts).floor := by
  have hlocked : (acc.raised (resolveEffectiveFloor acc opts)).lockedFloor
      (max acc.priorPeak opts.equity) opts.maxDrawdownPct opts.drawdownLocksAtPct
        = acc.lockedFloor (max acc.priorPeak opts.equity) opts.maxDrawdownPct
            opts.drawdownLocksAtPct := by
    unfold lockedFloor
    have htype : (acc.raised (resolveEffectiveFloor acc opts)).accountType = acc.accountType := rfl
    rw [htype]
    split
    · rename_i hfunded hlocks
      exact nextLockedFloor_idem rfl (resolveEffectiveFloor_locked hfunded hlocks).2.1
    · rfl
  rw [floor_eq, raised_priorPeak, hlocked, resolveEffectiveFloor_floor]

end DrawdownAccount

/-! ### The persisting wrappers -/

/-- `UPDATE … SET column = $2 WHERE column IS NULL OR column < $2`. -/
def raiseColumn (column : Option Cents) (value : ℚ) : Option Cents :=
  match column with
  | none => some (toCents value)
  | some current => if current.dollars < value then some (toCents value) else some current

def Account.anchored (r : DrawdownResolution) : Table.Rewrite Account where
  apply a :=
    { a with
      eodPeakEquity := if r.peakChanged then raiseColumn a.eodPeakEquity r.nextPeak else a.eodPeakEquity
      eodTrailingFloor :=
        match r.lockedFloorChanged, r.nextLockedFloor with
        | true, some locked => raiseColumn a.eodTrailingFloor locked
        | _, _ => a.eodTrailingFloor }
  key_apply _ := rfl

/-- `getEffectiveDrawdownFloor`: the floor, and the state with the raised anchors persisted. -/
def getEffectiveDrawdownFloor (db : Db) (acc : Account) (opts : DrawdownOptions) : Db × ℚ :=
  let resolved := resolveEffectiveFloor acc.drawdown opts
  ({ db with accounts := db.accounts.updateAt acc.id (Account.anchored resolved) }, resolved.floor)

structure PeakUpdate where
  accountId : Nat
  peak : Option ℚ
  lockedFloor : Option ℚ
  deriving DecidableEq

/-- `GREATEST(COALESCE(column, v), v)`, where a null `v` leaves the column as it is. -/
def greatestColumn (column : Option Cents) (value : Option ℚ) : Option Cents :=
  value.elim column fun v => raiseColumn column v

/-- The row update of `flushPeakEquityUpdates`. -/
def Account.flushed (u : PeakUpdate) : Table.Rewrite Account where
  apply a :=
    { a with
      eodPeakEquity := greatestColumn a.eodPeakEquity u.peak
      eodTrailingFloor := greatestColumn a.eodTrailingFloor u.lockedFloor }
  key_apply _ := rfl

theorem raiseColumn_ge {column : Option Cents} {value : ℚ} {current : Cents}
    (hcurrent : column = some current) :
    ∃ next, raiseColumn column value = some next ∧ current ≤ next := by
  subst hcurrent
  unfold raiseColumn
  dsimp only
  split
  · rename_i hlt
    refine ⟨_, rfl, ?_⟩
    calc current = toCents current.dollars := (toCents_dollars current).symm
      _ ≤ toCents value := toCents_mono hlt.le
  · exact ⟨_, rfl, le_rfl⟩

theorem greatestColumn_ge {column : Option Cents} {value : Option ℚ} {current : Cents}
    (hcurrent : column = some current) :
    ∃ next, greatestColumn column value = some next ∧ current ≤ next := by
  cases value with
  | none => exact ⟨current, hcurrent, le_rfl⟩
  | some v => exact raiseColumn_ge hcurrent

end PropFirm
