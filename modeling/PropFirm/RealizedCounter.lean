import Mathlib
import PropFirm.CloseParity
import PropFirm.TradingDays
import PropFirm.Lib.Transition

/-!
# The realised profit of the day, in the index and in the database

The daily loss rule reads today's realised profit off the index. An entry has a running total and the day
it is for; some of the paths that close positions add to it once their transaction has committed, some
never do, and a full reconcile overwrites the totals that are zero or of another day with what a query of
its own returns. Whatever has committed and not yet been added is in `unsynced` here.

The index and the closes still to be added come to the database's sum after every step of a run exactly
when each step keeps to `KeepsBalance`. Profits are whole cents.
-/

namespace PropFirm

open Transition

/-- The path adds the profit to the index after its commit, or has the engine told to. -/
def ClosePath.syncs : ClosePath → Bool
  | checkSLTP | closeTriggeredTrades | closeTradeHandler | batchActionHandler _ => true
  | weekendClose | flatByClose | newsClose | settle _ | forceCloseOpenTradesForAccount
  | forceCloseTradeById => false

/-- `realizedDayKey` is the start of the day in seconds. -/
structure RealizedEntry where
  todayRealizedPnl : Cents
  realizedDayKey : Nat
  deriving DecidableEq

/-- The last part of a full reconcile: the accounts it fetches, and what its query has seen. -/
structure RealizedFetch where
  decidedAt : Nat
  needsRealized : List Nat
  seen : Option (List Trade)

/-- The closed rows, latest first, those of them whose profit is still to be added, the entries by
account, the reconciles under way, and the clock. -/
structure RealizedWorld where
  closed : List Trade
  unsynced : List Trade
  entries : Nat → Option RealizedEntry
  fetches : List RealizedFetch
  clock : Nat

inductive RealizedAction
  | close (row : Trade) (path : ClosePath)
  | applyRealizedPnl (n : Nat)
  | lose (n : Nat)
  | load (accountId : Nat)
  | removeAccount (accountId : Nat)
  | decide (accounts : List Nat)
  | read (n : Nat)
  | write (n : Nat)
  | queryThrows (n : Nat)
  | tick (seconds : Nat)

/-- The close falls on the day of `now`. -/
def Trade.closedToday (t : Trade) (now : Nat) : Bool := t.closeTime.any (utcDayStart now ≤ ·)

/-- What the row adds to the sum of the day of `now`. -/
def Trade.todayPnl (t : Trade) (now : Nat) : Cents := if t.closedToday now then t.demoPnl.getD 0 else 0

/-- What a row adds to an account's sum. -/
def Trade.counts (t : Trade) (accountId now : Nat) : Cents :=
  if t.accountId = accountId then t.todayPnl now else 0

/-- `getTodayRealizedPnl` of the database for one of the accounts asked for. -/
def realizedToday (rows : List Trade) (accountId now : Nat) : Cents :=
  getTodayRealizedPnl (rows.filter fun t => t.accountId = accountId) now

namespace RealizedWorld

/-- `getTodayRealizedPnl` of the index. -/
def getTodayRealizedPnl (w : RealizedWorld) (accountId : Nat) : Cents :=
  match w.entries accountId with
  | none => 0
  | some e => if e.realizedDayKey = utcDayStart w.clock then e.todayRealizedPnl else 0

/-- An entry after a profit has been folded in. -/
def applied (w : RealizedWorld) (pnl : Cents) (e : RealizedEntry) : RealizedEntry where
  todayRealizedPnl := (if e.realizedDayKey = utcDayStart w.clock then e.todayRealizedPnl else 0) + pnl
  realizedDayKey := utcDayStart w.clock

/-- The loop at the end of a reconcile: an account that is not loaded any more is passed over. -/
def written (w : RealizedWorld) (f : RealizedFetch) (seen : List Trade) (accountId : Nat) :
    Option RealizedEntry :=
  (w.entries accountId).map fun e =>
    if accountId ∈ f.needsRealized then
      ⟨realizedToday seen accountId f.decidedAt, utcDayStart f.decidedAt⟩
    else e

/-- The totals a reconcile fetches: of another day, or zero. -/
def needsRealized (w : RealizedWorld) (accounts : List Nat) : List Nat :=
  accounts.filter fun accountId => (w.entries accountId).any fun e =>
    e.realizedDayKey ≠ utcDayStart w.clock ∨ e.todayRealizedPnl = 0

def step (w : RealizedWorld) : RealizedAction → Option RealizedWorld
  | .close row path =>
    -- `close_time` is when the transaction began
    if row.status = .closed ∧ row.closeTime.any (· ≤ w.clock) then
      some { w with
        closed := row :: w.closed
        unsynced := if path.syncs then row :: w.unsynced else w.unsynced }
    else none
  | .applyRealizedPnl n => w.unsynced[n]?.map fun t =>
    { w with
      unsynced := w.unsynced.eraseIdx n
      entries := Function.update w.entries t.accountId
        ((w.entries t.accountId).map (w.applied (t.demoPnl.getD 0))) }
  | .lose n => some { w with unsynced := w.unsynced.eraseIdx n }
  | .load accountId =>
    let e := (w.entries accountId).getD ⟨0, utcDayStart w.clock⟩
    some { w with entries := Function.update w.entries accountId (some e) }
  | .removeAccount accountId => some { w with entries := Function.update w.entries accountId none }
  | .decide accounts => some { w with fetches := ⟨w.clock, w.needsRealized accounts, none⟩ :: w.fetches }
  | .read n => w.fetches[n]?.map fun f =>
    { w with fetches := w.fetches.set n { f with seen := some w.closed } }
  | .write n => do
    let f ← w.fetches[n]?
    let seen ← f.seen
    some { w with entries := w.written f seen, fetches := w.fetches.eraseIdx n }
  | .queryThrows n => some { w with fetches := w.fetches.eraseIdx n }
  | .tick seconds => some { w with clock := w.clock + seconds }

/-- The account's index total and its profits still to be added come to the database's sum. -/
def Balanced (accountId : Nat) (w : RealizedWorld) : Prop :=
  w.getTodayRealizedPnl accountId + realizedToday w.unsynced accountId w.clock
    = realizedToday w.closed accountId w.clock

/-- The closes a reconcile's write leaves out: those its query came too early for, or all where the day
it is for is over. -/
def missed (w : RealizedWorld) (f : RealizedFetch) (seen : List Trade) : List Trade :=
  if utcDayStart f.decidedAt = utcDayStart w.clock then w.closed.take (w.closed.length - seen.length)
  else w.closed

/-- What a step may do with the account's profits, those of zero aside: a close goes by a path that
tells the index, is added while the account is loaded and on its own day, or neither, and is not lost
before the day is over; the account is not removed with a total, and the closes a reconcile's write leaves
out come to those still to be added. -/
def KeepsBalance (accountId : Nat) (w : RealizedWorld) : RealizedAction → Prop
  | .close row path => path.syncs = true ∨ row.counts accountId w.clock = 0
  | .applyRealizedPnl n => ∀ t ∈ w.unsynced[n]?, t.accountId = accountId →
      t.demoPnl.getD 0 = 0 ∨ ((w.entries accountId).isSome ↔ t.closedToday w.clock)
  | .lose n => ∀ t ∈ w.unsynced[n]?, t.counts accountId w.clock = 0
  | .removeAccount id => id = accountId → w.getTodayRealizedPnl accountId = 0
  | .write n => ∀ f ∈ w.fetches[n]?, ∀ seen ∈ f.seen, accountId ∈ f.needsRealized →
      (w.entries accountId).isSome →
        realizedToday (w.missed f seen) accountId w.clock = realizedToday w.unsynced accountId w.clock
  | .load _ | .decide _ | .read _ | .queryThrows _ | .tick _ => True

instance KeepsBalance.decidable (accountId : Nat) (w : RealizedWorld) :
    ∀ action, Decidable (w.KeepsBalance accountId action)
  | .close _ _ => inferInstanceAs (Decidable (_ ∨ _))
  | .applyRealizedPnl n => inferInstanceAs (Decidable (∀ t ∈ w.unsynced[n]?, _))
  | .lose n => inferInstanceAs (Decidable (∀ t ∈ w.unsynced[n]?, _))
  | .removeAccount id => inferInstanceAs (Decidable (id = accountId → _))
  | .write n => inferInstanceAs (Decidable (∀ f ∈ w.fetches[n]?, ∀ seen ∈ f.seen, _))
  | .load _ | .decide _ | .read _ | .queryThrows _ | .tick _ => isTrue trivial

end RealizedWorld

/-! ### Sums of a day -/

theorem realizedToday_cons (t : Trade) (rows : List Trade) (accountId now : Nat) :
    realizedToday (t :: rows) accountId now = t.counts accountId now + realizedToday rows accountId now := by
  unfold realizedToday Trade.counts Trade.todayPnl Trade.closedToday getTodayRealizedPnl sumDemoPnl
  by_cases haccount : t.accountId = accountId
  · by_cases htoday : t.closeTime.any (utcDayStart now ≤ ·) = true
    · simp [haccount, htoday]
    · simp [haccount, htoday]
  · simp [haccount]

theorem realizedToday_eq_sum (rows : List Trade) (accountId now : Nat) :
    realizedToday rows accountId now = (rows.map fun t => t.counts accountId now).sum := by
  induction rows with
  | nil => rfl
  | cons t rows ih => rw [realizedToday_cons, ih, List.map_cons, List.sum_cons]

theorem realizedToday_append (rows rows' : List Trade) (accountId now : Nat) :
    realizedToday (rows ++ rows') accountId now
      = realizedToday rows accountId now + realizedToday rows' accountId now := by
  simp only [realizedToday_eq_sum, List.map_append, List.sum_append]

theorem realizedToday_eraseIdx {rows : List Trade} {n : Nat} {t : Trade} (ht : rows[n]? = some t)
    (accountId now : Nat) :
    realizedToday rows accountId now
      = t.counts accountId now + realizedToday (rows.eraseIdx n) accountId now := by
  obtain ⟨hn, rfl⟩ := List.getElem?_eq_some_iff.mp ht
  have hperm := List.getElem_cons_eraseIdx_perm hn
  rw [← realizedToday_cons, realizedToday_eq_sum, realizedToday_eq_sum]
  exact (hperm.map _).sum_eq.symm

theorem Trade.counts_of_ne {t : Trade} {accountId now : Nat} (hne : t.accountId ≠ accountId) :
    t.counts accountId now = 0 := if_neg hne

theorem Trade.counts_self (t : Trade) (now : Nat) : t.counts t.accountId now = t.todayPnl now := if_pos rfl

/-- Nothing has closed on a day that had not begun when the last row closed. -/
theorem realizedToday_eq_zero {rows : List Trade} {accountId now : Nat}
    (hrows : ∀ t ∈ rows, t.closedToday now = false) : realizedToday rows accountId now = 0 := by
  rw [realizedToday_eq_sum]
  refine List.sum_eq_zero fun x hx => ?_
  obtain ⟨t, ht, rfl⟩ := List.mem_map.mp hx
  unfold Trade.counts Trade.todayPnl
  rw [hrows t ht]
  simp

namespace RealizedWorld

variable {w w' : RealizedWorld}

/-! ### What every run keeps -/

structure Sane (w : RealizedWorld) : Prop where
  closed : ∀ t ∈ w.closed, t.closeTime.any (· ≤ w.clock) = true
  unsynced : ∀ t ∈ w.unsynced, t.closeTime.any (· ≤ w.clock) = true
  keys : ∀ accountId e, w.entries accountId = some e → e.realizedDayKey ≤ utcDayStart w.clock
  fetches : ∀ f ∈ w.fetches, f.decidedAt ≤ w.clock ∧ ∀ seen ∈ f.seen, seen <:+ w.closed

theorem utcDayStart_mono {now later : Nat} (hle : now ≤ later) : utcDayStart now ≤ utcDayStart later :=
  Nat.mul_le_mul_right _ (Nat.div_le_div_right hle)

/-- A day begins after whatever the day before saw. -/
theorem lt_utcDayStart {now later : Nat} (hlt : utcDayStart now < utcDayStart later) :
    now < utcDayStart later := by
  unfold utcDayStart secondsPerDay at *
  omega

theorem Sane.update (h : Sane w) {accountId : Nat} {r : Option RealizedEntry}
    (hr : ∀ e, r = some e → e.realizedDayKey ≤ utcDayStart w.clock) :
    ∀ id e, Function.update w.entries accountId r id = some e → e.realizedDayKey ≤ utcDayStart w.clock := by
  intro id e he
  by_cases hid : id = accountId
  · subst hid
    rw [Function.update_self] at he
    exact hr e he
  · rw [Function.update_of_ne hid] at he
    exact h.keys id e he

theorem Sane.step (h : Sane w) {action : RealizedAction} (hstep : w.step action = some w') : Sane w' := by
  cases action with
  | close row path =>
    obtain ⟨⟨-, hbefore⟩, rfl⟩ := Option.ite_some_none_eq_some.mp hstep
    refine ⟨?_, ?_, h.keys, fun f hf => ⟨(h.fetches f hf).1, fun seen hseen => ?_⟩⟩
    · exact List.forall_mem_cons.mpr ⟨hbefore, h.closed⟩
    · dsimp only
      split
      · exact List.forall_mem_cons.mpr ⟨hbefore, h.unsynced⟩
      · exact h.unsynced
    · exact ((h.fetches f hf).2 seen hseen).trans (List.suffix_cons row w.closed)
  | applyRealizedPnl n =>
    obtain ⟨t, ht, rfl⟩ := Option.map_eq_some_iff.mp hstep
    refine ⟨h.closed, fun u hu => h.unsynced u (List.mem_of_mem_eraseIdx hu), ?_, h.fetches⟩
    refine h.update fun e he => ?_
    obtain ⟨_, _, rfl⟩ := Option.map_eq_some_iff.mp he
    exact le_rfl
  | lose n =>
    cases hstep
    exact ⟨h.closed, fun u hu => h.unsynced u (List.mem_of_mem_eraseIdx hu), h.keys, h.fetches⟩
  | load accountId =>
    cases hstep
    refine ⟨h.closed, h.unsynced, h.update fun e he => ?_, h.fetches⟩
    obtain rfl := Option.some.inj he
    cases hentry : w.entries accountId with
    | none => exact le_rfl
    | some e => exact h.keys accountId e hentry
  | removeAccount accountId =>
    cases hstep
    exact ⟨h.closed, h.unsynced, h.update nofun, h.fetches⟩
  | decide accounts =>
    cases hstep
    exact ⟨h.closed, h.unsynced, h.keys, List.forall_mem_cons.mpr ⟨⟨le_rfl, nofun⟩, h.fetches⟩⟩
  | read n =>
    obtain ⟨f, hf, rfl⟩ := Option.map_eq_some_iff.mp hstep
    refine ⟨h.closed, h.unsynced, h.keys, fun g hg => ?_⟩
    rcases List.mem_or_eq_of_mem_set hg with hold | rfl
    · exact h.fetches g hold
    · refine ⟨(h.fetches f (List.mem_of_getElem? hf)).1, fun seen hseen => ?_⟩
      obtain rfl := Option.some.inj hseen
      exact List.suffix_rfl
  | write n =>
    simp only [RealizedWorld.step, Option.bind_eq_bind, Option.bind_eq_some_iff, Option.some.injEq] at hstep
    obtain ⟨f, hf, seen, _, rfl⟩ := hstep
    refine ⟨h.closed, h.unsynced, fun id e he => ?_, fun g hg => h.fetches g (List.mem_of_mem_eraseIdx hg)⟩
    obtain ⟨e', he', rfl⟩ := Option.map_eq_some_iff.mp he
    split
    · exact utcDayStart_mono (h.fetches f (List.mem_of_getElem? hf)).1
    · exact h.keys id e' he'
  | queryThrows n =>
    cases hstep
    exact ⟨h.closed, h.unsynced, h.keys, fun g hg => h.fetches g (List.mem_of_mem_eraseIdx hg)⟩
  | tick seconds =>
    cases hstep
    have hlater : ∀ {t : Trade}, t.closeTime.any (· ≤ w.clock) = true →
        t.closeTime.any (· ≤ w.clock + seconds) = true := by
      intro t ht
      rw [Option.any_eq_true] at ht ⊢
      obtain ⟨c, hc, hle⟩ := ht
      exact ⟨c, hc, decide_eq_true ((of_decide_eq_true hle).trans (Nat.le_add_right ..))⟩
    refine ⟨fun t ht => hlater (h.closed t ht), fun t ht => hlater (h.unsynced t ht), ?_, ?_⟩
    · exact fun id e he => (h.keys id e he).trans (utcDayStart_mono (Nat.le_add_right ..))
    · exact fun f hf => ⟨(h.fetches f hf).1.trans (Nat.le_add_right ..), (h.fetches f hf).2⟩

/-! ### What a step does to the difference -/

/-- What the index lacks of the database's sum, beside the closes still to be added. -/
def lack (w : RealizedWorld) (accountId : Nat) : Cents :=
  realizedToday w.closed accountId w.clock - realizedToday w.unsynced accountId w.clock
    - w.getTodayRealizedPnl accountId

theorem getTodayRealizedPnl_congr {accountId : Nat} (hclock : w'.clock = w.clock)
    (hentry : w'.entries accountId = w.entries accountId) :
    w'.getTodayRealizedPnl accountId = w.getTodayRealizedPnl accountId := by
  unfold RealizedWorld.getTodayRealizedPnl
  rw [hentry, hclock]

theorem balanced_iff {accountId : Nat} : w.Balanced accountId ↔ w.lack accountId = 0 := by
  unfold Balanced lack
  constructor <;> intro h <;> linarith

/-- A step keeps the balance when it adds nothing to the difference. -/
theorem balanced_iff_of_lack {accountId : Nat} {delta : Cents} (hbalanced : w.Balanced accountId)
    (hlack : w'.lack accountId = w.lack accountId + delta) : w'.Balanced accountId ↔ delta = 0 := by
  rw [balanced_iff] at hbalanced ⊢
  rw [hlack, hbalanced, zero_add]

theorem balanced_of_lack {accountId : Nat} (hbalanced : w.Balanced accountId)
    (hsame : w'.lack accountId = w.lack accountId) : w'.Balanced accountId := by
  rw [balanced_iff] at hbalanced ⊢
  exact hsame.trans hbalanced

variable {accountId : Nat}

theorem close_exact (hbalanced : w.Balanced accountId) (row : Trade) (path : ClosePath) :
    Balanced accountId { w with
      closed := row :: w.closed
      unsynced := if path.syncs then row :: w.unsynced else w.unsynced } ↔
      path.syncs = true ∨ row.counts accountId w.clock = 0 := by
  cases hsyncs : path.syncs with
  | true =>
    refine iff_of_true (balanced_of_lack hbalanced ?_) (.inl rfl)
    change realizedToday (row :: w.closed) _ w.clock - realizedToday (row :: w.unsynced) _ w.clock - _ = _
    rw [realizedToday_cons, realizedToday_cons, add_sub_add_left_eq_sub]
    rfl
  | false =>
    have hlack : lack { w with closed := row :: w.closed, unsynced := w.unsynced } accountId
        = w.lack accountId + row.counts accountId w.clock := by
      change realizedToday (row :: w.closed) accountId w.clock - realizedToday w.unsynced accountId w.clock
        - w.getTodayRealizedPnl accountId = _
      rw [realizedToday_cons, lack]
      ring
    have hiff := balanced_iff_of_lack hbalanced hlack
    simpa using hiff

theorem applied_other (hbalanced : w.Balanced accountId) {n : Nat} {t : Trade} (ht : w.unsynced[n]? = some t)
    (hne : t.accountId ≠ accountId) (r : Option RealizedEntry) :
    Balanced accountId { w with
      unsynced := w.unsynced.eraseIdx n
      entries := Function.update w.entries t.accountId r } := by
  refine balanced_of_lack hbalanced ?_
  have hvalue : getTodayRealizedPnl { w with
      unsynced := w.unsynced.eraseIdx n
      entries := Function.update w.entries t.accountId r } accountId = w.getTodayRealizedPnl accountId :=
    getTodayRealizedPnl_congr rfl (Function.update_of_ne hne.symm ..)
  rw [lack, hvalue, lack, realizedToday_eraseIdx ht accountId w.clock, Trade.counts_of_ne hne, zero_add]

theorem applied_self {n : Nat} {t : Trade} (hbalanced : w.Balanced t.accountId)
    (ht : w.unsynced[n]? = some t) :
    Balanced t.accountId { w with
      unsynced := w.unsynced.eraseIdx n
      entries := Function.update w.entries t.accountId
        ((w.entries t.accountId).map (w.applied (t.demoPnl.getD 0))) } ↔
      t.demoPnl.getD 0 = 0 ∨ ((w.entries t.accountId).isSome ↔ t.closedToday w.clock) := by
  set w' : RealizedWorld := { w with
    unsynced := w.unsynced.eraseIdx n
    entries := Function.update w.entries t.accountId
      ((w.entries t.accountId).map (w.applied (t.demoPnl.getD 0))) }
  have hself : w'.entries t.accountId = (w.entries t.accountId).map (w.applied (t.demoPnl.getD 0)) :=
    Function.update_self ..
  have hlack : w'.lack t.accountId = w.lack t.accountId +
      (t.todayPnl w.clock + w.getTodayRealizedPnl t.accountId - w'.getTodayRealizedPnl t.accountId) := by
    change _ - realizedToday (w.unsynced.eraseIdx n) t.accountId w.clock - w'.getTodayRealizedPnl _ = _
    rw [lack, realizedToday_eraseIdx ht t.accountId w.clock, t.counts_self]
    ring
  rw [balanced_iff_of_lack hbalanced hlack]
  cases hentry : w.entries t.accountId with
  | none =>
    have hbefore : w.getTodayRealizedPnl t.accountId = 0 := by
      rw [RealizedWorld.getTodayRealizedPnl, hentry]
    have hafter : w'.getTodayRealizedPnl t.accountId = 0 := by
      rw [RealizedWorld.getTodayRealizedPnl, hself, hentry, Option.map_none]
    rw [hbefore, hafter]
    unfold Trade.todayPnl
    by_cases htoday : t.closedToday w.clock = true <;> simp [htoday]
  | some e =>
    have hafter : w'.getTodayRealizedPnl t.accountId
        = w.getTodayRealizedPnl t.accountId + t.demoPnl.getD 0 := by
      unfold RealizedWorld.getTodayRealizedPnl
      rw [hself, hentry, Option.map_some]
      exact if_pos rfl
    rw [hafter]
    unfold Trade.todayPnl
    by_cases htoday : t.closedToday w.clock = true
    · simp [htoday, add_comm]
    · simp [htoday]

theorem lose_exact (hbalanced : w.Balanced accountId) (n : Nat) :
    Balanced accountId { w with unsynced := w.unsynced.eraseIdx n } ↔
      ∀ t ∈ w.unsynced[n]?, t.counts accountId w.clock = 0 := by
  cases ht : w.unsynced[n]? with
  | none =>
    refine iff_of_true ?_ fun _ h => nomatch h
    rw [List.eraseIdx_of_length_le (List.getElem?_eq_none_iff.mp ht)]
    exact hbalanced
  | some t =>
    have hlack : lack { w with unsynced := w.unsynced.eraseIdx n } accountId
        = w.lack accountId + t.counts accountId w.clock := by
      change _ - realizedToday (w.unsynced.eraseIdx n) accountId w.clock - w.getTodayRealizedPnl accountId = _
      rw [lack, realizedToday_eraseIdx ht accountId w.clock]
      ring
    rw [balanced_iff_of_lack hbalanced hlack]
    simp

/-- Loading an account gives it no profit it did not have. -/
theorem load_lack (id : Nat) :
    let e := (w.entries id).getD ⟨0, utcDayStart w.clock⟩
    lack { w with entries := Function.update w.entries id (some e) } accountId = w.lack accountId := by
  unfold lack
  refine congrArg _ ?_
  by_cases hid : accountId = id
  · subst hid
    unfold RealizedWorld.getTodayRealizedPnl
    dsimp only
    rw [Function.update_self]
    cases w.entries accountId with
    | none => exact if_pos rfl
    | some e => rfl
  · exact getTodayRealizedPnl_congr rfl (Function.update_of_ne hid ..)

theorem removeAccount_exact (hbalanced : w.Balanced accountId) (id : Nat) :
    Balanced accountId { w with entries := Function.update w.entries id none } ↔
      (id = accountId → w.getTodayRealizedPnl accountId = 0) := by
  set w' : RealizedWorld := { w with entries := Function.update w.entries id none }
  by_cases hid : id = accountId
  · subst hid
    have hself : w'.entries id = none := Function.update_self ..
    have hgone : w'.getTodayRealizedPnl id = 0 := by
      rw [RealizedWorld.getTodayRealizedPnl, hself]
    have hlack : w'.lack id = w.lack id + w.getTodayRealizedPnl id := by
      change _ - _ - w'.getTodayRealizedPnl id = _
      rw [hgone, lack]
      ring
    rw [balanced_iff_of_lack hbalanced hlack]
    exact ⟨fun h _ => h, fun h => h rfl⟩
  · refine iff_of_true (balanced_of_lack hbalanced ?_) fun h => absurd h hid
    have hvalue : w'.getTodayRealizedPnl accountId = w.getTodayRealizedPnl accountId :=
      getTodayRealizedPnl_congr rfl (Function.update_of_ne (Ne.symm hid) ..)
    change _ - _ - w'.getTodayRealizedPnl accountId = _
    rw [hvalue, lack]

/-- What a reconcile writes is the database's sum less the closes it leaves out. -/
theorem missed_add (hsane : w.Sane) {n : Nat} {f : RealizedFetch} (hf : w.fetches[n]? = some f)
    {seen : List Trade} (hseen : f.seen = some seen) (id : Nat) :
    realizedToday (w.missed f seen) id w.clock
      + (if utcDayStart f.decidedAt = utcDayStart w.clock then realizedToday seen id f.decidedAt else 0)
      = realizedToday w.closed id w.clock := by
  obtain ⟨newer, hclosed⟩ := (hsane.fetches f (List.mem_of_getElem? hf)).2 seen hseen
  unfold missed
  split
  case isTrue hday =>
    have hsame : realizedToday seen id f.decidedAt = realizedToday seen id w.clock := by
      unfold realizedToday PropFirm.getTodayRealizedPnl
      rw [hday]
    have htake : w.closed.take (w.closed.length - seen.length) = newer := by
      rw [← hclosed, List.length_append, Nat.add_sub_cancel, List.take_left]
    rw [hsame, htake, ← hclosed, realizedToday_append]
  case isFalse => exact add_zero _

theorem written_loaded {f : RealizedFetch} {seen : List Trade} {e : RealizedEntry}
    (hentry : w.entries accountId = some e) (hneeds : accountId ∈ f.needsRealized)
    (fetches : List RealizedFetch) :
    getTodayRealizedPnl { w with entries := w.written f seen, fetches := fetches } accountId
      = if utcDayStart f.decidedAt = utcDayStart w.clock then realizedToday seen accountId f.decidedAt
        else 0 := by
  have hwritten : w.written f seen accountId
      = some ⟨realizedToday seen accountId f.decidedAt, utcDayStart f.decidedAt⟩ := by
    rw [written, hentry, Option.map_some, if_pos hneeds]
  unfold RealizedWorld.getTodayRealizedPnl
  dsimp only
  rw [hwritten]

/-- A reconcile's write of a loaded account balances it, from any state, when the closes it leaves out are
those still to be added. -/
theorem write_restores (hsane : w.Sane) {n : Nat} {f : RealizedFetch} (hf : w.fetches[n]? = some f)
    {seen : List Trade} (hseen : f.seen = some seen) (hneeds : accountId ∈ f.needsRealized)
    (hloaded : (w.entries accountId).isSome) (fetches : List RealizedFetch) :
    Balanced accountId { w with entries := w.written f seen, fetches := fetches } ↔
      realizedToday (w.missed f seen) accountId w.clock = realizedToday w.unsynced accountId w.clock := by
  obtain ⟨e, hentry⟩ := Option.isSome_iff_exists.mp hloaded
  have hsum := missed_add hsane hf hseen accountId
  unfold Balanced
  rw [written_loaded hentry hneeds]
  dsimp only
  constructor <;> intro h <;> linarith

theorem write_exact (hsane : w.Sane) (hbalanced : w.Balanced accountId) {n : Nat} {f : RealizedFetch}
    (hf : w.fetches[n]? = some f) {seen : List Trade} (hseen : f.seen = some seen)
    (fetches : List RealizedFetch) :
    Balanced accountId { w with entries := w.written f seen, fetches := fetches } ↔
      (accountId ∈ f.needsRealized → (w.entries accountId).isSome →
        realizedToday (w.missed f seen) accountId w.clock
          = realizedToday w.unsynced accountId w.clock) := by
  by_cases hcovered : accountId ∈ f.needsRealized ∧ (w.entries accountId).isSome
  · rw [write_restores hsane hf hseen hcovered.1 hcovered.2]
    exact ⟨fun h _ _ => h, fun h => h hcovered.1 hcovered.2⟩
  · refine iff_of_true (balanced_of_lack hbalanced ?_) fun hneeds hloaded =>
      absurd ⟨hneeds, hloaded⟩ hcovered
    unfold lack
    refine congrArg _ (getTodayRealizedPnl_congr rfl ?_)
    change w.written f seen accountId = _
    unfold written
    cases hentry : w.entries accountId with
    | none => rfl
    | some e =>
      have hnot : accountId ∉ f.needsRealized := fun hneeds => hcovered ⟨hneeds, by rw [hentry]; rfl⟩
      rw [Option.map_some, if_neg hnot]

/-- Past midnight everything starts again from zero, on both sides. -/
theorem tick_balanced (hsane : w.Sane) (hbalanced : w.Balanced accountId) (seconds : Nat) :
    Balanced accountId { w with clock := w.clock + seconds } := by
  have hle : utcDayStart w.clock ≤ utcDayStart (w.clock + seconds) := utcDayStart_mono (Nat.le_add_right ..)
  rcases hle.eq_or_lt with hday | hday
  · unfold Balanced RealizedWorld.getTodayRealizedPnl realizedToday PropFirm.getTodayRealizedPnl at *
    dsimp only
    rw [← hday]
    exact hbalanced
  · have hover : ∀ t : Trade, t.closeTime.any (· ≤ w.clock) = true →
        t.closedToday (w.clock + seconds) = false := by
      intro t ht
      rw [Option.any_eq_true] at ht
      obtain ⟨closeTime, hclose, hbefore⟩ := ht
      unfold Trade.closedToday
      rw [hclose, Option.any_some, decide_eq_false_iff_not, not_le]
      exact (of_decide_eq_true hbefore).trans_lt (lt_utcDayStart hday)
    have hvalue : getTodayRealizedPnl { w with clock := w.clock + seconds } accountId = 0 := by
      unfold RealizedWorld.getTodayRealizedPnl
      dsimp only
      cases hentry : w.entries accountId with
      | none => rfl
      | some e => exact if_neg ((hsane.keys accountId e hentry).trans_lt hday).ne
    unfold Balanced
    rw [hvalue]
    dsimp only
    rw [realizedToday_eq_zero fun t ht => hover t (hsane.unsynced t ht),
      realizedToday_eq_zero fun t ht => hover t (hsane.closed t ht), add_zero]

theorem keepsBalance_exact (hsane : w.Sane) (hbalanced : w.Balanced accountId) {action : RealizedAction}
    (hstep : w.step action = some w') : w'.Balanced accountId ↔ w.KeepsBalance accountId action := by
  cases action with
  | close row path =>
    obtain ⟨-, rfl⟩ := Option.ite_some_none_eq_some.mp hstep
    exact close_exact hbalanced row path
  | applyRealizedPnl n =>
    obtain ⟨t, ht, rfl⟩ := Option.map_eq_some_iff.mp hstep
    simp only [KeepsBalance, ht, Option.mem_some_iff, forall_eq']
    by_cases hid : t.accountId = accountId
    · subst hid
      rw [applied_self hbalanced ht]
      exact ⟨fun h _ => h, fun h => h rfl⟩
    · exact iff_of_true (applied_other hbalanced ht hid _) fun h => absurd h hid
  | lose n =>
    cases hstep
    exact lose_exact hbalanced n
  | load id =>
    cases hstep
    exact iff_of_true (balanced_of_lack hbalanced (load_lack id)) trivial
  | removeAccount id =>
    cases hstep
    exact removeAccount_exact hbalanced id
  | decide accounts =>
    cases hstep
    exact iff_of_true hbalanced trivial
  | read n =>
    obtain ⟨f, -, rfl⟩ := Option.map_eq_some_iff.mp hstep
    exact iff_of_true hbalanced trivial
  | write n =>
    simp only [RealizedWorld.step, Option.bind_eq_bind, Option.bind_eq_some_iff, Option.some.injEq] at hstep
    obtain ⟨f, hf, seen, hseen, rfl⟩ := hstep
    rw [write_exact hsane hbalanced hf hseen]
    simp only [KeepsBalance, hf, hseen, Option.mem_some_iff, forall_eq']
  | queryThrows n =>
    cases hstep
    exact iff_of_true hbalanced trivial
  | tick seconds =>
    cases hstep
    exact iff_of_true (tick_balanced hsane hbalanced seconds) trivial

/-! ### Whole runs -/

/-- Over any run, an account balanced at its start stays so in every state exactly when every step keeps
the balance, and with no profit of it left to add the index then has the database's sum. -/
theorem dailyPnlExact (hsane : w.Sane) (hbalanced : w.Balanced accountId) {actions : List RealizedAction}
    (hrun : run RealizedWorld.step w actions = some w') :
    (Along RealizedWorld.step (Balanced accountId) w actions ↔
      RunOk RealizedWorld.step (KeepsBalance accountId) w actions) ∧
    (RunOk RealizedWorld.step (KeepsBalance accountId) w actions →
      (∀ t ∈ w'.unsynced, t.accountId ≠ accountId) →
        w'.getTodayRealizedPnl accountId = realizedToday w'.closed accountId w'.clock) := by
  have hpreserve : ∀ s a s', Sane s → RealizedWorld.step s a = some s' → Sane s' :=
    fun _ _ _ h hstep => h.step hstep
  refine ⟨along_iff_runOk hpreserve (fun _ _ _ h hb hstep => keepsBalance_exact h hb hstep)
    hsane hbalanced hrun, fun hok hsynced => ?_⟩
  have hend : w'.Sane ∧ w'.Balanced accountId := by
    refine run_invariant (fun s => Sane s ∧ Balanced accountId s) ?_ ⟨hsane, hbalanced⟩ hok hrun
    exact fun s a s' h hkeeps hstep =>
      ⟨h.1.step hstep, (keepsBalance_exact h.1 h.2 hstep).mpr hkeeps⟩
  have hnone : realizedToday w'.unsynced accountId w'.clock = 0 := by
    rw [realizedToday_eq_sum]
    refine List.sum_eq_zero fun x hx => ?_
    obtain ⟨t, ht, rfl⟩ := List.mem_map.mp hx
    exact Trade.counts_of_ne (hsynced t ht)
  have hbalance := hend.2
  unfold Balanced at hbalance
  rw [hnone, add_zero] at hbalance
  exact hbalance

/-- A process that has just started: nothing is loaded. -/
def booted (closed : List Trade) (now : Nat) : RealizedWorld := ⟨closed, [], fun _ => none, [], now⟩

def sampleClosed (id : Nat) (pnl : Cents) (now : Nat) : Trade :=
  { sampleOrder.row id .closed with closeTime := some now, demoPnl := some pnl }

/-- A win and a loss that cancel out, a full reconcile of the total of zero, and a loss of the next day. -/
def syncedDays : List RealizedAction :=
  [.load 1, .close (sampleClosed 1 500 0) .closeTradeHandler, .applyRealizedPnl 0,
    .close (sampleClosed 2 (-500) 0) .checkSLTP, .applyRealizedPnl 0, .decide [1], .read 0, .write 0,
    .tick 86400, .close (sampleClosed 3 (-300) 86400) .closeTriggeredTrades, .applyRealizedPnl 0]

theorem booted_sane : (booted [] 0).Sane :=
  ⟨fun _ h => absurd h List.not_mem_nil, fun _ h => absurd h List.not_mem_nil, fun _ _ h => (nomatch h),
    fun _ h => absurd h List.not_mem_nil⟩

theorem syncedDays_exact : ∃ w', run RealizedWorld.step (booted [] 0) syncedDays = some w' ∧
    w'.getTodayRealizedPnl 1 = -300 ∧ realizedToday w'.closed 1 w'.clock = -300 := by
  obtain ⟨w', hrun, htest⟩ := exists_of_run_any RealizedWorld.step (booted [] 0) syncedDays
    (fun w' => w'.unsynced = [] ∧ realizedToday w'.closed 1 w'.clock = -300) (by decide +kernel)
  obtain ⟨hsynced, hsum⟩ := of_decide_eq_true htest
  have hkeeps : RunOk RealizedWorld.step (KeepsBalance 1) (booted [] 0) syncedDays := by decide +kernel
  have hexact := (dailyPnlExact booted_sane rfl hrun).2 hkeeps fun t ht =>
    absurd (hsynced ▸ ht) List.not_mem_nil
  exact ⟨w', hrun, hexact.trans hsum, hsum⟩

/-- A loss taken by the close of all positions at the end of the day is never added: with no commit left
to synchronise the index has nothing and the database the loss. -/
theorem flatByClose_unsynced :
    ¬ ∀ (w w' : RealizedWorld) (actions : List RealizedAction) (accountId : Nat),
      w.Sane → w.Balanced accountId → run RealizedWorld.step w actions = some w' → w'.unsynced = [] →
        w'.getTodayRealizedPnl accountId = realizedToday w'.closed accountId w'.clock := by
  intro h
  obtain ⟨w', hrun, htest⟩ := exists_of_run_any RealizedWorld.step (booted [] 0)
    [.load 1, .close (sampleClosed 1 (-500) 0) .flatByClose]
    (fun w' => w'.unsynced = [] ∧ w'.getTodayRealizedPnl 1 = 0 ∧
      realizedToday w'.closed 1 w'.clock = -500) (by decide +kernel)
  obtain ⟨hsynced, hindex, hsum⟩ := of_decide_eq_true htest
  have hexact := h _ w' _ 1 booted_sane rfl hrun hsynced
  rw [hindex, hsum] at hexact
  exact absurd hexact (by decide)

end RealizedWorld

end PropFirm
