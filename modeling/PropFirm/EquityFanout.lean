import PropFirm.Lib.InsertionMap
import PropFirm.Lib.Transition
import PropFirm.RealtimeFanout

/-!
# Equity fan-out

Each tick queues the equity of the accounts it touched, and each call sends what it queued. An account is
throttled where it is queued: what comes within `EQUITY_PUSH_INTERVAL_MS` of the last snapshot sent is dropped
and not kept for later, so that the newest equity is withheld until the account is touched again.
-/

namespace PropFirm

open Transition

/-- `role` decides whether the local sockets are served directly. -/
structure EquityConfig where
  role : ProcessRole
  pushIntervalMs : ℕ
  maxEquityBatch : ℕ
  maxEquityBatch_pos : 0 < maxEquityBatch

/-- `userId` is what `String` makes of it. -/
structure EquitySnapshot where
  accountId : String
  userId : String
  equity : ℚ
  floatingPnl : ℚ
  currentBalance : ℚ
  floor : ℚ
  startingBalance : ℚ
  profitTarget : ℚ
  dailyLossPct : ℚ
  dailyDrawdownPct : Option ℚ
  deriving DecidableEq

structure EquityUpdate where
  accountId : String
  equity : ℚ
  floatingPnl : ℚ
  currentBalance : ℚ
  drawdownFloor : ℚ
  drawdownUsedPct : ℚ
  dailyDrawdownUsedPct : ℚ
  dailyDrawdownLimitPct : Option ℚ
  profitRemaining : ℚ
  deriving DecidableEq

structure EquityBatchEntry where
  userId : String
  payload : EquityUpdate
  deriving DecidableEq

def toEquityPayload (snapshot : EquitySnapshot) : EquityUpdate :=
  let drawdownUsedPct :=
    if 0 < snapshot.startingBalance then
      (snapshot.startingBalance - snapshot.equity) / snapshot.startingBalance * 100
    else 0
  let profitTarget :=
    if 0 < snapshot.profitTarget then snapshot.profitTarget else snapshot.startingBalance * (1 / 10)
  { accountId := snapshot.accountId
    equity := snapshot.equity
    floatingPnl := snapshot.floatingPnl
    currentBalance := snapshot.currentBalance
    drawdownFloor := snapshot.floor
    drawdownUsedPct := max 0 drawdownUsedPct
    dailyDrawdownUsedPct := snapshot.dailyLossPct
    dailyDrawdownLimitPct := snapshot.dailyDrawdownPct
    profitRemaining := max 0 (profitTarget - (snapshot.equity - snapshot.startingBalance)) }

def toBatchEntry (snapshot : EquitySnapshot) : EquityBatchEntry := ⟨snapshot.userId, toEquityPayload snapshot⟩

/-! ### Messages of a batch -/

/-- `batch.slice(offset, offset + size)` for `offset` in steps of `size`. -/
def slices {α : Type*} (size : ℕ) (batch : List α) : List (List α) :=
  (List.range ((batch.length + size - 1) / size)).map fun i => (batch.drop (size * i)).take size

theorem flatten_slices {α : Type*} {size : ℕ} (hsize : 0 < size) (batch : List α) :
    (slices size batch).flatten = batch := by
  have htaken : ∀ n, ((List.range n).map fun i => (batch.drop (size * i)).take size).flatten
      = batch.take (size * n) := by
    intro n
    induction n with
    | zero => rfl
    | succ n ih => rw [List.range_succ, List.map_append, List.flatten_append, ih, Nat.mul_succ, List.take_add,
        List.map_singleton, List.flatten_singleton]
  rw [slices, htaken]
  apply List.take_of_length_le
  have hdiv := Nat.div_add_mod (batch.length + size - 1) size
  have hmod := Nat.mod_lt (batch.length + size - 1) hsize
  omega

theorem length_slices_le {α : Type*} (size : ℕ) (batch : List α) :
    ∀ slice ∈ slices size batch, slice.length ≤ size := by
  intro slice hslice
  obtain ⟨i, -, rfl⟩ := List.mem_map.mp hslice
  exact List.length_take_le ..

/-- What a flush hands to the local sockets and to the bridge. -/
structure EquityMessages where
  delivered : Option (List EquityBatchEntry)
  published : List (List EquityBatchEntry)
  deriving DecidableEq

namespace EquityMessages

def none : EquityMessages := ⟨.none, []⟩

def batch (m : EquityMessages) : List EquityBatchEntry := m.published.flatten

/-- The account is in the batch. -/
def Reports (m : EquityMessages) (accountId : String) : Prop :=
  accountId ∈ m.batch.map fun entry => entry.payload.accountId

instance (m : EquityMessages) (accountId : String) : Decidable (m.Reports accountId) :=
  inferInstanceAs (Decidable (_ ∈ _))

end EquityMessages

/-! ### The throttle -/

structure EquityFanout where
  lastEquityPushAt : InsertionMap String ℤ
  pendingEquity : InsertionMap String EquitySnapshot
  equitySnapshotsThrottled : ℕ
  equityBatches : ℕ

namespace EquityFanout

def boot : EquityFanout := ⟨.empty, .empty, 0, 0⟩

/-- `_lastEquityPushAt.get(accountId) || 0`. -/
def lastPush (s : EquityFanout) (accountId : String) : ℤ := (s.lastEquityPushAt.get? accountId).getD 0

/-- One round of the loop over the snapshots. -/
def offer (cfg : EquityConfig) (now : ℤ) (s : EquityFanout) (snapshot : EquitySnapshot) : EquityFanout :=
  if now - s.lastPush snapshot.accountId < cfg.pushIntervalMs then
    { s with equitySnapshotsThrottled := s.equitySnapshotsThrottled + 1 }
  else
    { s with
      lastEquityPushAt := s.lastEquityPushAt.set snapshot.accountId now
      pendingEquity := s.pendingEquity.set snapshot.accountId snapshot }

/-- Bound the throttle map. -/
def prune (now : ℤ) (s : EquityFanout) : EquityFanout :=
  if 50000 < s.lastEquityPushAt.entries.length then
    { s with lastEquityPushAt := s.lastEquityPushAt.filter fun e => !decide (60000 < now - e.2) }
  else s

def flushEquity (cfg : EquityConfig) (s : EquityFanout) : EquityFanout × EquityMessages :=
  if s.pendingEquity.entries = [] then (s, .none)
  else
    let batch := s.pendingEquity.values.map toBatchEntry
    ({ s with pendingEquity := .empty, equityBatches := s.equityBatches + 1 },
      { delivered := if cfg.role.publishesRealtimeOverRedis then none else some batch
        published := slices cfg.maxEquityBatch batch })

def queueEquityUpdates (cfg : EquityConfig) (now : ℤ) (s : EquityFanout)
    (snapshots : Option (List EquitySnapshot)) : EquityFanout × EquityMessages :=
  match snapshots with
  | none | some [] => (s, .none)
  | some (snapshot :: rest) => (((snapshot :: rest).foldl (offer cfg now) s).prune now).flushEquity cfg

variable {cfg : EquityConfig} {now : ℤ} {start s : EquityFanout} {queued : List EquitySnapshot}

/-- What the loop has done with the snapshots so far. -/
structure Offered (cfg : EquityConfig) (now : ℤ) (start s : EquityFanout) (queued : List EquitySnapshot) : Prop where
  pending : ∀ accountId snapshot, s.pendingEquity.get? accountId = some snapshot →
    snapshot ∈ queued ∧ snapshot.accountId = accountId ∧ s.lastEquityPushAt.get? accountId = some now ∧
      cfg.pushIntervalMs ≤ now - start.lastPush accountId
  untouched : ∀ accountId, s.pendingEquity.get? accountId = none →
    s.lastEquityPushAt.get? accountId = start.lastEquityPushAt.get? accountId
  throttled : ∀ snapshot ∈ queued, s.pendingEquity.get? snapshot.accountId = none →
    now - start.lastPush snapshot.accountId < cfg.pushIntervalMs

theorem Offered.nil (hidle : start.pendingEquity.entries = []) : Offered cfg now start start [] where
  pending accountId snapshot hget := by
    rw [InsertionMap.get?, hidle] at hget
    cases hget
  untouched _ _ := rfl
  throttled _ hmem := absurd hmem List.not_mem_nil

theorem Offered.offer (hoffered : Offered cfg now start s queued) (snapshot : EquitySnapshot) :
    Offered cfg now start (s.offer cfg now snapshot) (queued ++ [snapshot]) := by
  obtain ⟨hpending, huntouched, hthrottled⟩ := hoffered
  have hlast : s.pendingEquity.get? snapshot.accountId = none →
      s.lastPush snapshot.accountId = start.lastPush snapshot.accountId := by
    intro hnone
    rw [lastPush, lastPush, huntouched _ hnone]
  by_cases hwithin : now - s.lastPush snapshot.accountId < cfg.pushIntervalMs
  · rw [EquityFanout.offer, if_pos hwithin]
    refine ⟨?_, huntouched, ?_⟩
    · intro accountId held hget
      obtain ⟨hmem, hrest⟩ := hpending accountId held hget
      exact ⟨List.mem_append_left _ hmem, hrest⟩
    · intro other hmem hnone
      obtain hmem | hmem := List.mem_append.mp hmem
      · exact hthrottled other hmem hnone
      · obtain rfl := List.mem_singleton.mp hmem
        rwa [← hlast hnone]
  · rw [EquityFanout.offer, if_neg hwithin]
    refine ⟨?_, ?_, ?_⟩
    · intro accountId held hget
      simp only [InsertionMap.get?_set] at hget ⊢
      by_cases hsame : accountId = snapshot.accountId
      · rw [if_pos hsame] at hget ⊢
        cases hget
        subst hsame
        refine ⟨List.mem_append_right _ (List.mem_singleton_self _), rfl, rfl, ?_⟩
        cases hheld : s.pendingEquity.get? snapshot.accountId with
        | none =>
          rw [← hlast hheld]
          exact not_lt.mp hwithin
        | some earlier => exact (hpending _ earlier hheld).2.2.2
      · rw [if_neg hsame] at hget ⊢
        obtain ⟨hmem, hrest⟩ := hpending accountId held hget
        exact ⟨List.mem_append_left _ hmem, hrest⟩
    · intro accountId hnone
      simp only [InsertionMap.get?_set] at hnone ⊢
      by_cases hsame : accountId = snapshot.accountId
      · rw [if_pos hsame] at hnone
        cases hnone
      · rw [if_neg hsame] at hnone ⊢
        exact huntouched accountId hnone
    · intro other hmem hnone
      simp only [InsertionMap.get?_set] at hnone
      by_cases hsame : other.accountId = snapshot.accountId
      · rw [if_pos hsame] at hnone
        cases hnone
      · rw [if_neg hsame] at hnone
        obtain hmem | hmem := List.mem_append.mp hmem
        · exact hthrottled other hmem hnone
        · obtain rfl := List.mem_singleton.mp hmem
          exact absurd rfl hsame

/-- Over the whole loop. -/
theorem Offered.foldl (hidle : start.pendingEquity.entries = []) (snapshots : List EquitySnapshot) :
    Offered cfg now start (snapshots.foldl (EquityFanout.offer cfg now) start) snapshots := by
  induction snapshots using List.reverseRecOn with
  | nil => exact .nil hidle
  | append_singleton snapshots snapshot ih =>
    rw [List.foldl_append, List.foldl_cons, List.foldl_nil]
    exact ih.offer snapshot

theorem pendingEquity_prune (now : ℤ) (s : EquityFanout) : (s.prune now).pendingEquity = s.pendingEquity := by
  rw [prune]
  split <;> rfl

theorem get?_prune {accountId : String} {pushedAt : ℤ}
    (h : (s.prune now).lastEquityPushAt.get? accountId = some pushedAt) :
    s.lastEquityPushAt.get? accountId = some pushedAt := by
  rw [prune] at h
  split at h
  · exact (InsertionMap.get?_filter_eq_some.mp h).1
  · exact h

/-- Only old entries go. -/
theorem get?_prune_or {accountId : String} {pushedAt : ℤ} (h : s.lastEquityPushAt.get? accountId = some pushedAt) :
    (s.prune now).lastEquityPushAt.get? accountId = some pushedAt ∨ 60000 < now - pushedAt := by
  rw [prune]
  split
  · by_cases hold : 60000 < now - pushedAt
    · exact .inr hold
    · refine .inl (InsertionMap.get?_filter_eq_some.mpr ⟨h, ?_⟩)
      rw [decide_eq_false hold]
      rfl
  · exact .inl h

theorem flushEquity_eq (cfg : EquityConfig) (s : EquityFanout) :
    (s.flushEquity cfg).1.pendingEquity.entries = [] ∧
      (s.flushEquity cfg).1.lastEquityPushAt = s.lastEquityPushAt ∧
      (s.flushEquity cfg).2.batch = s.pendingEquity.values.map toBatchEntry := by
  rw [flushEquity]
  split
  · rename_i hempty
    refine ⟨hempty, rfl, ?_⟩
    rw [InsertionMap.values, hempty]
    rfl
  · exact ⟨rfl, rfl, flatten_slices cfg.maxEquityBatch_pos _⟩

/-- Every entry leaves by each way there is, in messages of bounded length. -/
theorem flushEquity_messages (cfg : EquityConfig) (s : EquityFanout) :
    (cfg.role.publishesRealtimeOverRedis = false →
      (s.flushEquity cfg).2.delivered.getD [] = (s.flushEquity cfg).2.batch) ∧
      ∀ slice ∈ (s.flushEquity cfg).2.published, slice.length ≤ cfg.maxEquityBatch := by
  rw [flushEquity]
  split
  · exact ⟨fun _ => rfl, fun slice hslice => absurd hslice List.not_mem_nil⟩
  · refine ⟨fun hrole => ?_, length_slices_le _ _⟩
    have hlocal : ¬ cfg.role.publishesRealtimeOverRedis = true := by
      rw [hrole]
      exact Bool.false_ne_true
    dsimp only
    rw [if_neg hlocal]
    exact (flatten_slices cfg.maxEquityBatch_pos _).symm

/-- What one call does. -/
structure Queued (cfg : EquityConfig) (now : ℤ) (s s' : EquityFanout) (queued : List EquitySnapshot)
    (m : EquityMessages) : Prop where
  flushed : s'.pendingEquity.entries = []
  everywhere : cfg.role.publishesRealtimeOverRedis = false → m.delivered.getD [] = m.batch
  due : ∀ entry ∈ m.batch, ∃ snapshot ∈ queued, toBatchEntry snapshot = entry ∧
    cfg.pushIntervalMs ≤ now - s.lastPush snapshot.accountId
  once : (m.batch.map fun entry => entry.payload.accountId).Nodup
  throttled : ∀ snapshot ∈ queued, ¬ m.Reports snapshot.accountId →
    now - s.lastPush snapshot.accountId < cfg.pushIntervalMs
  pushed : ∀ accountId pushedAt, s'.lastEquityPushAt.get? accountId = some pushedAt →
    m.Reports accountId ∧ pushedAt = now ∨ s.lastEquityPushAt.get? accountId = some pushedAt
  recorded : ∀ accountId, m.Reports accountId → s'.lastEquityPushAt.get? accountId = some now
  kept : ∀ accountId pushedAt, s.lastEquityPushAt.get? accountId = some pushedAt → m.Reports accountId ∨
    s'.lastEquityPushAt.get? accountId = some pushedAt ∨ 60000 < now - pushedAt

theorem reports_iff (hoffered : Offered cfg now start s queued) (accountId : String) :
    ((s.prune now).flushEquity cfg).2.Reports accountId ↔
      ∃ snapshot, s.pendingEquity.get? accountId = some snapshot := by
  obtain ⟨-, -, hbatch⟩ := flushEquity_eq cfg (s.prune now)
  rw [EquityMessages.Reports, hbatch, pendingEquity_prune, List.map_map, List.mem_map]
  constructor
  · rintro ⟨snapshot, hvalue, rfl⟩
    obtain ⟨key, hget⟩ := InsertionMap.mem_values_iff.mp hvalue
    obtain ⟨-, rfl, -⟩ := hoffered.pending key snapshot hget
    exact ⟨snapshot, hget⟩
  · rintro ⟨snapshot, hget⟩
    exact ⟨snapshot, InsertionMap.mem_values_iff.mpr ⟨accountId, hget⟩, (hoffered.pending _ _ hget).2.1⟩

theorem queued_of_offered (hoffered : Offered cfg now start s queued) :
    Queued cfg now start ((s.prune now).flushEquity cfg).1 queued ((s.prune now).flushEquity cfg).2 := by
  obtain ⟨hflushed, htable, hbatch⟩ := flushEquity_eq cfg (s.prune now)
  rw [pendingEquity_prune] at hbatch
  have hreports : ∀ accountId, ((s.prune now).flushEquity cfg).2.Reports accountId ↔
      ∃ snapshot, s.pendingEquity.get? accountId = some snapshot := reports_iff hoffered
  refine ⟨hflushed, (flushEquity_messages cfg _).1, ?_, ?_, ?_, ?_, ?_, ?_⟩
  · intro entry hentry
    rw [hbatch] at hentry
    obtain ⟨snapshot, hvalue, rfl⟩ := List.mem_map.mp hentry
    obtain ⟨accountId, hget⟩ := InsertionMap.mem_values_iff.mp hvalue
    obtain ⟨hmem, rfl, -, hdue⟩ := hoffered.pending accountId snapshot hget
    exact ⟨snapshot, hmem, rfl, hdue⟩
  · rw [hbatch, List.map_map]
    apply InsertionMap.nodup_map_values
    intro accountId snapshot hget accountId' snapshot' hget' hsame
    rw [← (hoffered.pending _ _ hget).2.1, ← (hoffered.pending _ _ hget').2.1]
    exact hsame
  · intro snapshot hmem hsilent
    apply hoffered.throttled snapshot hmem
    rw [hreports] at hsilent
    exact Option.eq_none_iff_forall_ne_some.mpr fun held hget => hsilent ⟨held, hget⟩
  · intro accountId pushedAt hget
    rw [htable] at hget
    have hget := get?_prune hget
    cases hheld : s.pendingEquity.get? accountId with
    | none => exact .inr (by rw [← hoffered.untouched _ hheld, hget])
    | some snapshot =>
      refine .inl ⟨(hreports accountId).mpr ⟨snapshot, hheld⟩, ?_⟩
      have hnow := (hoffered.pending _ _ hheld).2.2.1
      rw [hget] at hnow
      exact Option.some.inj hnow
  · intro accountId hreported
    obtain ⟨snapshot, hheld⟩ := (hreports accountId).mp hreported
    rw [htable]
    refine (get?_prune_or (hoffered.pending _ _ hheld).2.2.1).resolve_right ?_
    omega
  · intro accountId pushedAt hget
    cases hheld : s.pendingEquity.get? accountId with
    | none =>
      rw [← hoffered.untouched _ hheld] at hget
      rw [htable]
      exact .inr (get?_prune_or hget)
    | some snapshot => exact .inl ((hreports accountId).mpr ⟨snapshot, hheld⟩)

theorem queueEquityUpdates_spec (hidle : s.pendingEquity.entries = []) (snapshots : Option (List EquitySnapshot)) :
    Queued cfg now s (s.queueEquityUpdates cfg now snapshots).1 (snapshots.getD [])
      (s.queueEquityUpdates cfg now snapshots).2 := by
  have hnothing : Queued cfg now s s [] .none := by
    refine ⟨hidle, fun _ => rfl, ?_, List.nodup_nil, ?_, fun _ _ => .inr, ?_, fun _ _ hget => .inr (.inl hget)⟩
    · intro entry hentry
      cases hentry
    · intro snapshot hsnapshot
      cases hsnapshot
    · intro accountId hreports
      cases hreports
  cases snapshots with
  | none => exact hnothing
  | some queued =>
    cases queued with
    | nil => exact hnothing
    | cons snapshot rest => exact queued_of_offered (.foldl hidle _)

end EquityFanout

/-! ### Runs -/

structure EquityCall where
  now : ℤ
  snapshots : Option (List EquitySnapshot)

/-- What a call queued, and what it sent. -/
structure EquityRecord where
  now : ℤ
  queued : List EquitySnapshot
  messages : EquityMessages
  deriving DecidableEq

/-- The fan-out with its calls so far, latest first. -/
structure EquityLog where
  fanout : EquityFanout
  history : List EquityRecord

namespace EquityLog

def boot : EquityLog := ⟨.boot, []⟩

/-- The clock does not go back. -/
def step (cfg : EquityConfig) (log : EquityLog) (call : EquityCall) : Option EquityLog :=
  if ∀ record ∈ log.history.head?, record.now ≤ call.now then
    let (fanout, messages) := log.fanout.queueEquityUpdates cfg call.now call.snapshots
    some ⟨fanout, ⟨call.now, call.snapshots.getD [], messages⟩ :: log.history⟩
  else none

/-- The newest snapshot of an account. -/
def lastQueued (log : EquityLog) (accountId : String) : Option EquitySnapshot :=
  log.history.findSome? fun record => record.queued.reverse.find? fun snapshot => snapshot.accountId = accountId

/-- The newest snapshots have been sent or are pending. -/
def LatestKept (log : EquityLog) : Prop :=
  ∀ accountId, ∀ snapshot ∈ log.lastQueued accountId,
    log.fanout.pendingEquity.get? accountId = some snapshot ∨
      ∃ record ∈ log.history, toBatchEntry snapshot ∈ record.messages.batch

/-- How long the throttle map is sure to know of a push. -/
def spacing (cfg : EquityConfig) : ℤ := min cfg.pushIntervalMs 60001

/-- Nothing is left pending. A call sends each account at most once, and one of the snapshots that it was
given; it sends nothing of an account only where that was sent within the interval before, and the account
is not sent again until then. -/
structure Throttled (cfg : EquityConfig) (log : EquityLog) : Prop where
  flushed : log.fanout.pendingEquity.entries = []
  everywhere : ∀ record ∈ log.history, cfg.role.publishesRealtimeOverRedis = false →
    record.messages.delivered.getD [] = record.messages.batch
  once : ∀ record ∈ log.history, (record.messages.batch.map fun entry => entry.payload.accountId).Nodup
  honest : ∀ record ∈ log.history, ∀ entry ∈ record.messages.batch,
    ∃ snapshot ∈ record.queued, toBatchEntry snapshot = entry
  dropped : ∀ (later : List EquityRecord) (record : EquityRecord) (earlier : List EquityRecord),
    log.history = later ++ record :: earlier → ∀ snapshot ∈ record.queued,
    record.messages.Reports snapshot.accountId ∨ record.now < cfg.pushIntervalMs ∨
      ∃ sent ∈ earlier, sent.messages.Reports snapshot.accountId ∧ record.now - sent.now < cfg.pushIntervalMs
  spaced : log.history.Pairwise fun record sent => ∀ accountId, record.messages.Reports accountId →
    sent.messages.Reports accountId → sent.now + spacing cfg ≤ record.now

/-- What the throttle map knows of the pushes. -/
structure Tracked (log : EquityLog) : Prop where
  ordered : log.history.Pairwise fun record sent => sent.now ≤ record.now
  known : ∀ accountId pushedAt, log.fanout.lastEquityPushAt.get? accountId = some pushedAt →
    ∃ sent ∈ log.history, sent.messages.Reports accountId ∧ sent.now = pushedAt
  recorded : ∀ sent ∈ log.history, ∀ accountId, sent.messages.Reports accountId →
    (∃ pushedAt, log.fanout.lastEquityPushAt.get? accountId = some pushedAt ∧ sent.now ≤ pushedAt) ∨
      ∃ record ∈ log.history.head?, sent.now + 60000 < record.now

variable {cfg : EquityConfig} {log log' : EquityLog} {call : EquityCall}

theorem step_cases (hidle : log.fanout.pendingEquity.entries = []) (hstep : log.step cfg call = some log') :
    ∃ messages, (∀ record ∈ log.history.head?, record.now ≤ call.now) ∧
      log'.history = ⟨call.now, call.snapshots.getD [], messages⟩ :: log.history ∧
      EquityFanout.Queued cfg call.now log.fanout log'.fanout (call.snapshots.getD []) messages := by
  rw [step] at hstep
  split at hstep
  · rename_i hclock
    cases hstep
    exact ⟨_, hclock, rfl, EquityFanout.queueEquityUpdates_spec hidle _⟩
  · cases hstep

theorem Tracked.le_clock (htracked : log.Tracked) {now : ℤ} (hclock : ∀ record ∈ log.history.head?, record.now ≤ now)
    {sent : EquityRecord} (hsent : sent ∈ log.history) : sent.now ≤ now := by
  have hordered := htracked.ordered
  cases hhistory : log.history with
  | nil =>
    rw [hhistory] at hsent
    cases hsent
  | cons head rest =>
    rw [hhistory] at hsent hordered hclock
    have hhead := hclock head rfl
    obtain rfl | hrest := List.mem_cons.mp hsent
    · exact hhead
    · exact (List.rel_of_pairwise_cons hordered hrest).trans hhead

theorem Tracked.step (htracked : log.Tracked) (hidle : log.fanout.pendingEquity.entries = [])
    (hstep : log.step cfg call = some log') : log'.Tracked := by
  obtain ⟨messages, hclock, hhistory, hqueued⟩ := step_cases hidle hstep
  refine ⟨?_, ?_, ?_⟩
  · rw [hhistory]
    exact List.pairwise_cons.mpr ⟨fun sent hsent => htracked.le_clock hclock hsent, htracked.ordered⟩
  · intro accountId pushedAt hget
    rw [hhistory]
    obtain ⟨hreports, rfl⟩ | hold := hqueued.pushed accountId pushedAt hget
    · exact ⟨_, List.mem_cons_self, hreports, rfl⟩
    · obtain ⟨sent, hsent, hreports, hnow⟩ := htracked.known accountId pushedAt hold
      exact ⟨sent, List.mem_cons_of_mem _ hsent, hreports, hnow⟩
  · intro sent hsent accountId hreports
    rw [hhistory] at hsent ⊢
    obtain rfl | hsent := List.mem_cons.mp hsent
    · exact .inl ⟨call.now, hqueued.recorded accountId hreports, le_rfl⟩
    · have hle := htracked.le_clock hclock hsent
      by_cases hagain : messages.Reports accountId
      · exact .inl ⟨call.now, hqueued.recorded accountId hagain, hle⟩
      obtain ⟨pushedAt, hget, hpushed⟩ | ⟨record, hrecord, hlate⟩ := htracked.recorded sent hsent accountId hreports
      · obtain hkept | hold := (hqueued.kept accountId pushedAt hget).resolve_left hagain
        · exact .inl ⟨pushedAt, hkept, hpushed⟩
        · exact .inr ⟨_, rfl, by dsimp only; omega⟩
      · have hnow := hclock record hrecord
        exact .inr ⟨_, rfl, by dsimp only; omega⟩

theorem Throttled.step (hthrottled : log.Throttled cfg) (htracked : log.Tracked)
    (hstep : log.step cfg call = some log') : log'.Throttled cfg := by
  obtain ⟨messages, hclock, hhistory, hqueued⟩ := step_cases hthrottled.flushed hstep
  refine ⟨hqueued.flushed, ?_, ?_, ?_, ?_, ?_⟩
  · rw [hhistory]
    exact List.forall_mem_cons.mpr ⟨hqueued.everywhere, hthrottled.everywhere⟩
  · rw [hhistory]
    exact List.forall_mem_cons.mpr ⟨hqueued.once, hthrottled.once⟩
  · rw [hhistory]
    refine List.forall_mem_cons.mpr ⟨fun entry hentry => ?_, hthrottled.honest⟩
    obtain ⟨snapshot, hmem, hsame, -⟩ := hqueued.due entry hentry
    exact ⟨snapshot, hmem, hsame⟩
  · intro later record earlier hsplit snapshot hmem
    rw [hhistory] at hsplit
    cases later with
    | cons latest later => exact hthrottled.dropped later record earlier (List.cons.inj hsplit).2 snapshot hmem
    | nil =>
      obtain ⟨rfl, rfl⟩ := List.cons.inj hsplit
      by_cases hreports : messages.Reports snapshot.accountId
      · exact .inl hreports
      have hwithin := hqueued.throttled snapshot hmem hreports
      rw [EquityFanout.lastPush] at hwithin
      cases hget : log.fanout.lastEquityPushAt.get? snapshot.accountId with
      | none =>
        rw [hget, Option.getD_none, sub_zero] at hwithin
        exact .inr (.inl hwithin)
      | some pushedAt =>
        rw [hget, Option.getD_some] at hwithin
        obtain ⟨sent, hsent, hsentReports, rfl⟩ := htracked.known _ _ hget
        exact .inr (.inr ⟨sent, hsent, hsentReports, hwithin⟩)
  · rw [hhistory]
    refine List.pairwise_cons.mpr ⟨?_, hthrottled.spaced⟩
    intro sent hsent accountId hreports hsentReports
    obtain ⟨entry, hentry, rfl⟩ := List.mem_map.mp hreports
    obtain ⟨snapshot, -, rfl, hdue⟩ := hqueued.due entry hentry
    dsimp only [spacing]
    obtain ⟨pushedAt, hget, hpushed⟩ | ⟨record, hrecord, hlate⟩ := htracked.recorded sent hsent _ hsentReports
    · have hlast : log.fanout.lastPush snapshot.accountId = pushedAt := by
        rw [EquityFanout.lastPush]
        exact congrArg (fun held => Option.getD held 0) hget
      omega
    · have hnow := hclock record hrecord
      omega

theorem throttled_boot (cfg : EquityConfig) : boot.Throttled cfg ∧ boot.Tracked := by
  have hnone : ∀ {p : EquityRecord → Prop}, ∀ record ∈ boot.history, p record :=
    fun record hrecord => absurd hrecord List.not_mem_nil
  refine ⟨⟨rfl, hnone, hnone, hnone, ?_, .nil⟩, ⟨.nil, ?_, hnone⟩⟩
  · intro later record earlier hsplit
    exact absurd hsplit.symm (List.append_ne_nil_of_right_ne_nil _ (List.cons_ne_nil _ _))
  · intro accountId pushedAt hget
    cases hget

/-- Along every run. -/
theorem reached_throttled (hreach : Reach (step cfg) (fun _ _ => True) (· = boot) log) :
    log.Throttled cfg ∧ log.Tracked := by
  induction hreach with
  | init hstart =>
    subst hstart
    exact throttled_boot cfg
  | next _ _ hstep ih => exact ⟨ih.1.step ih.2 hstep, ih.2.step ih.1.flushed hstep⟩

/-- Nothing is pending after a call; a snapshot that is alone of its account in its call is sent in it unless
the account was sent within the interval before, and two sendings of an account lie the interval apart. -/
theorem queueEquityUpdates_throttled (hreach : Reach (step cfg) (fun _ _ => True) (· = boot) log) :
    log.Throttled cfg ∧
      ∀ (later : List EquityRecord) (record : EquityRecord) (earlier : List EquityRecord),
        log.history = later ++ record :: earlier → ∀ snapshot ∈ record.queued,
          (∀ other ∈ record.queued, other.accountId = snapshot.accountId → other = snapshot) →
            toBatchEntry snapshot ∈ record.messages.batch ∨ record.now < cfg.pushIntervalMs ∨
              ∃ sent ∈ earlier, sent.messages.Reports snapshot.accountId ∧
                record.now - sent.now < cfg.pushIntervalMs := by
  obtain ⟨hthrottled, -⟩ := reached_throttled hreach
  refine ⟨hthrottled, ?_⟩
  intro later record earlier hsplit snapshot hmem halone
  refine (hthrottled.dropped later record earlier hsplit snapshot hmem).imp_left fun hreports => ?_
  obtain ⟨entry, hentry, haccount⟩ := List.mem_map.mp hreports
  have hrecord : record ∈ log.history := hsplit ▸ List.mem_append_right _ List.mem_cons_self
  obtain ⟨other, hother, rfl⟩ := hthrottled.honest record hrecord entry hentry
  rw [← halone other hother haccount]
  exact hentry

/-! A burst of two ticks in a tenth of a second. -/

def burstConfig : EquityConfig := ⟨.all, 500, 500, by decide⟩

def burstSnapshot (equity : ℚ) : EquitySnapshot :=
  ⟨"acc-1", "user-1", equity, 1000, 100000, 90000, 100000, 10000, 0, none⟩

def burst : List EquityCall := [⟨1000, some [burstSnapshot 101000]⟩, ⟨1100, some [burstSnapshot 102000]⟩]

/-- The second one is not sent, and not kept. -/
theorem burst_withheld :
    ¬ ∀ (cfg : EquityConfig) (log : EquityLog), Reach (step cfg) (fun _ _ => True) (· = boot) log →
      log.LatestKept := by
  intro hall
  obtain ⟨log, hrun, hend⟩ := exists_of_run_any (step burstConfig) boot burst (fun log =>
    decide (log.lastQueued "acc-1" = some (burstSnapshot 102000) ∧
      log.fanout.pendingEquity.get? "acc-1" = none ∧
      ∀ record ∈ log.history, toBatchEntry (burstSnapshot 102000) ∉ record.messages.batch)) (by decide +kernel)
  obtain ⟨hnewest, hpending, hunsent⟩ := of_decide_eq_true hend
  have hreach : Reach (step burstConfig) (fun _ _ => True) (· = boot) log :=
    .of_run (.init rfl) (.of_forall fun _ _ _ => trivial) hrun
  obtain hkept | ⟨record, hrecord, hsent⟩ := hall burstConfig log hreach "acc-1" _ hnewest
  · rw [hpending] at hkept
    cases hkept
  · exact hunsent record hrecord hsent

theorem burst_throttled :
    ∃ log, run (step burstConfig) boot burst = some log ∧ log.history.length = 2 ∧ log.Throttled burstConfig := by
  obtain ⟨log, hrun, hend⟩ := exists_of_run_any (step burstConfig) boot burst
    (fun log => decide (log.history.length = 2)) (by decide +kernel)
  have hreach : Reach (step burstConfig) (fun _ _ => True) (· = boot) log :=
    .of_run (.init rfl) (.of_forall fun _ _ _ => trivial) hrun
  exact ⟨log, hrun, of_decide_eq_true hend, (queueEquityUpdates_throttled hreach).1⟩

end EquityLog

end PropFirm
