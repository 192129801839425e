import Mathlib
import PropFirm.Lib.Rollup
import PropFirm.Lib.Transition

/-!
# Hourly candles

Ticks are recorded in `price_feed_history`, and `price_feed_history_1h` has a candle for each instrument and
hour. The feed merges its latest prices into the candle of the running hour; the scheduler rebuilds all
candles from the ticks that its window still finds, and prunes old ticks and old candles.

Each statement is made at the time it reads, in milliseconds, and the days are days of UTC. The live merge is
throttled, so that it may come or not. What was ever recorded, and when a rebuild ran, is kept for the
statement of what a candle owes.
-/

namespace PropFirm

open Rollup Transition

def hourMs : Nat := 60 * 60 * 1000

def dayMs : Nat := 24 * hourMs

/-- The retention of ticks and of candles, and the reach of a bootstrap, in days. -/
structure HistoryConfig where
  retainDays : Nat
  bootstrapDays : Nat
  hourlyRetainDays : Nat

def HistoryConfig.lookbackDays (cfg : HistoryConfig) : Nat := max cfg.retainDays cfg.bootstrapDays + 2

structure HistoryTick where
  instrument : String
  bid : ℚ
  recordedAt : Nat
  deriving DecidableEq

/-- The instrument and the hour, counted from the epoch. -/
abbrev BucketKey := String × Nat

def HistoryTick.bucket (t : HistoryTick) : BucketKey := (t.instrument, t.recordedAt / hourMs)

structure Candle where
  opening : ℚ
  high : ℚ
  low : ℚ
  close : ℚ
  ticks : Nat
  deriving DecidableEq

namespace HistoryTick

def Before (t u : HistoryTick) : Prop := t.recordedAt ≤ u.recordedAt

def After (t u : HistoryTick) : Prop := u.recordedAt ≤ t.recordedAt

def Above (t u : HistoryTick) : Prop := u.bid ≤ t.bid

def Below (t u : HistoryTick) : Prop := t.bid ≤ u.bid

instance : DecidableRel Before := fun _ _ => inferInstanceAs (Decidable (_ ≤ _))
instance : DecidableRel After := fun _ _ => inferInstanceAs (Decidable (_ ≤ _))
instance : DecidableRel Above := fun _ _ => inferInstanceAs (Decidable (_ ≤ _))
instance : DecidableRel Below := fun _ _ => inferInstanceAs (Decidable (_ ≤ _))

instance : Std.Total Before := ⟨fun t u => Nat.le_total t.recordedAt u.recordedAt⟩
instance : Std.Total After := ⟨fun t u => Nat.le_total u.recordedAt t.recordedAt⟩
instance : Std.Total Above := ⟨fun t u => le_total u.bid t.bid⟩
instance : Std.Total Below := ⟨fun t u => le_total t.bid u.bid⟩

instance : IsTrans HistoryTick Before := ⟨fun _ _ _ => Nat.le_trans⟩
instance : IsTrans HistoryTick After := ⟨fun _ _ _ h h' => Nat.le_trans h' h⟩
instance : IsTrans HistoryTick Above := ⟨fun _ _ _ h h' => le_trans h' h⟩
instance : IsTrans HistoryTick Below := ⟨fun _ _ _ => le_trans⟩

end HistoryTick

/-- The aggregates of the rebuild over one group; of ticks of the same time the first one counts. -/
def hourlyAggregate (ticks : List HistoryTick) : Option Candle := do
  let earliest ← first HistoryTick.Before ticks
  let highest ← first HistoryTick.Above ticks
  let lowest ← first HistoryTick.Below ticks
  let latest ← first HistoryTick.After ticks
  some ⟨earliest.bid, highest.bid, lowest.bid, latest.bid, ticks.length⟩

/-- The candle is that of the ticks. -/
structure Candle.OfTicks (candle : Candle) (ticks : List HistoryTick) : Prop where
  opening : ∃ t ∈ ticks, t.bid = candle.opening ∧ ∀ u ∈ ticks, t.recordedAt ≤ u.recordedAt
  high : (∃ t ∈ ticks, t.bid = candle.high) ∧ ∀ u ∈ ticks, u.bid ≤ candle.high
  low : (∃ t ∈ ticks, t.bid = candle.low) ∧ ∀ u ∈ ticks, candle.low ≤ u.bid
  close : ∃ t ∈ ticks, t.bid = candle.close ∧ ∀ u ∈ ticks, u.recordedAt ≤ t.recordedAt
  ticks : candle.ticks = ticks.length

theorem ofTicks_of_hourlyAggregate {ticks : List HistoryTick} {candle : Candle}
    (hcandle : hourlyAggregate ticks = some candle) : candle.OfTicks ticks := by
  simp only [hourlyAggregate, Option.bind_eq_bind, Option.bind_eq_some_iff, Option.some.injEq] at hcandle
  obtain ⟨earliest, hearliest, highest, hhighest, lowest, hlowest, latest, hlatest, rfl⟩ := hcandle
  obtain ⟨hmemEarliest, hfirst⟩ := first_spec hearliest
  obtain ⟨hmemHighest, habove⟩ := first_spec hhighest
  obtain ⟨hmemLowest, hbelow⟩ := first_spec hlowest
  obtain ⟨hmemLatest, hlast⟩ := first_spec hlatest
  exact ⟨⟨earliest, hmemEarliest, rfl, hfirst⟩, ⟨⟨highest, hmemHighest, rfl⟩, habove⟩,
    ⟨⟨lowest, hmemLowest, rfl⟩, hbelow⟩, ⟨latest, hmemLatest, rfl, hlast⟩, rfl⟩

theorem hourlyAggregate_isSome (ticks : List HistoryTick) (hticks : ticks ≠ []) :
    (hourlyAggregate ticks).isSome := by
  have hsome (r : HistoryTick → HistoryTick → Prop) [DecidableRel r] : ∃ t, first r ticks = some t :=
    Option.ne_none_iff_exists'.mp fun hnone => hticks (first_eq_none.mp hnone)
  obtain ⟨earliest, hearliest⟩ := hsome HistoryTick.Before
  obtain ⟨highest, hhighest⟩ := hsome HistoryTick.Above
  obtain ⟨lowest, hlowest⟩ := hsome HistoryTick.Below
  obtain ⟨latest, hlatest⟩ := hsome HistoryTick.After
  rw [hourlyAggregate, hearliest, hhighest, hlowest, hlatest]
  rfl

structure CandleWorld where
  now : Nat
  history : List HistoryTick
  candles : BucketKey → Option Candle
  recorded : List HistoryTick
  synced : List Nat

/-- `recordLive` and `upsertHourly` have the instruments and bids of one fetch, and `bootstrap` the ticks of
an export. The prunes are the two statements of `pruneOldPriceHistory`. -/
inductive CandleAction
  | elapse (ms : Nat)
  | recordLive (prices : List (String × ℚ))
  | bootstrap (ticks : List HistoryTick)
  | upsertHourly (prices : List (String × ℚ))
  | syncHourlyPriceHistory
  | pruneHistory
  | pruneCandles

/-- A price merged into the candle that is there. -/
def Candle.merge (bid : ℚ) : Option Candle → Candle
  | none => ⟨bid, bid, bid, bid, 1⟩
  | some candle =>
    { candle with
      high := max candle.high bid, low := min candle.low bid, close := bid, ticks := candle.ticks + 1 }

def mergePrice (hour : Nat) (candles : BucketKey → Option Candle) (price : String × ℚ) :
    BucketKey → Option Candle :=
  Function.update candles (price.1, hour) (some (Candle.merge price.2 (candles (price.1, hour))))

theorem foldl_mergePrice_other {hour : Nat} {key : BucketKey} (hne : key.2 ≠ hour)
    (prices : List (String × ℚ)) (candles : BucketKey → Option Candle) :
    prices.foldl (mergePrice hour) candles key = candles key := by
  induction prices generalizing candles with
  | nil => rfl
  | cons price prices ih =>
    refine (ih (mergePrice hour candles price)).trans (Function.update_of_ne ?_ _ _)
    rintro rfl
    exact hne rfl

namespace CandleWorld

variable (cfg : HistoryConfig) (w : CandleWorld)

def record (ticks : List HistoryTick) : CandleWorld :=
  { w with history := w.history ++ ticks, recorded := w.recorded ++ ticks }

def upsertHourlyTicks (prices : List (String × ℚ)) : BucketKey → Option Candle :=
  prices.foldl (mergePrice (w.now / hourMs)) w.candles

/-- The ticks in the window of a rebuild. -/
def window : List HistoryTick := w.history.filter fun t => w.now ≤ t.recordedAt + cfg.lookbackDays * dayMs

def step (cfg : HistoryConfig) (w : CandleWorld) : CandleAction → Option CandleWorld
  | .elapse ms => some { w with now := w.now + ms }
  | .recordLive prices => some (w.record (prices.map fun (instrument, bid) => ⟨instrument, bid, w.now⟩))
  | .bootstrap ticks => some (w.record ticks)
  | .upsertHourly prices => some { w with candles := w.upsertHourlyTicks prices }
  | .syncHourlyPriceHistory =>
    some { w with
      candles := rebuild HistoryTick.bucket hourlyAggregate (w.window cfg) w.candles
      synced := w.now :: w.synced }
  | .pruneHistory =>
    some { w with history := w.history.filter fun t => w.now ≤ t.recordedAt + cfg.retainDays * dayMs }
  | .pruneCandles =>
    some { w with
      candles := fun key =>
        if w.now ≤ key.2 * hourMs + cfg.hourlyRetainDays * dayMs then w.candles key else none }

/-! ### Covered hours -/

/-- At a time the hour is complete, and the window of a rebuild has all of it. -/
def Covers (now hour : Nat) : Prop :=
  now ≤ hour * hourMs + cfg.lookbackDays * dayMs ∧ (hour + 1) * hourMs ≤ now

def Covered (hour : Nat) : Prop := ∃ t ∈ w.synced, Covers cfg t hour

/-- The candles of the hour are not due to be pruned. -/
def Kept (hour : Nat) : Prop := w.now ≤ hour * hourMs + cfg.hourlyRetainDays * dayMs

instance (now hour : Nat) : Decidable (Covers cfg now hour) := inferInstanceAs (Decidable (_ ∧ _))

instance (hour : Nat) : Decidable (w.Covered cfg hour) := inferInstanceAs (Decidable (∃ t ∈ w.synced, _))

instance (hour : Nat) : Decidable (w.Kept cfg hour) := inferInstanceAs (Decidable (_ ≤ _))

def ticksOf (key : BucketKey) : List HistoryTick := entriesOf HistoryTick.bucket w.recorded key

/-- The candle of a covered hour is that of all ticks ever recorded in it. -/
def CandlesRight (cfg : HistoryConfig) (w : CandleWorld) : Prop :=
  ∀ key, w.Covered cfg key.2 → w.Kept cfg key.2 → w.ticksOf key ≠ [] →
    ∃ candle, w.candles key = some candle ∧ candle.OfTicks (w.ticksOf key)

/-- A step changes no candle of a covered hour. -/
def CandlesStay (cfg : HistoryConfig) (w w' : CandleWorld) : Prop :=
  ∀ key, w.Covered cfg key.2 → w'.Kept cfg key.2 → w.ticksOf key ≠ [] → w'.candles key = w.candles key

/-- Of an instrument's hour that is covered, now or before, a rebuild reads every tick ever recorded, or none
if it was covered before; and no tick of a covered hour is imported. -/
def ReadsWhole (cfg : HistoryConfig) (w : CandleWorld) : CandleAction → Prop
  | .bootstrap ticks => ∀ t ∈ ticks, ¬ w.Covered cfg t.bucket.2
  | .syncHourlyPriceHistory => ∀ t ∈ w.recorded, w.Kept cfg t.bucket.2 →
      w.Covered cfg t.bucket.2 ∨ Covers cfg w.now t.bucket.2 →
        entriesOf HistoryTick.bucket (w.window cfg) t.bucket = w.ticksOf t.bucket ∨
          entriesOf HistoryTick.bucket (w.window cfg) t.bucket = [] ∧ w.Covered cfg t.bucket.2
  | .elapse _ | .recordLive _ | .upsertHourly _ | .pruneHistory | .pruneCandles => True

instance (cfg : HistoryConfig) (w : CandleWorld) : DecidablePred (w.ReadsWhole cfg)
  | .bootstrap _ | .syncHourlyPriceHistory => inferInstanceAs (Decidable (∀ t ∈ _, _))
  | .elapse _ | .recordLive _ | .upsertHourly _ | .pruneHistory | .pruneCandles => isTrue trivial

structure Inv (cfg : HistoryConfig) (w : CandleWorld) : Prop where
  past : ∀ t ∈ w.synced, t ≤ w.now
  right : ∀ key, w.Covered cfg key.2 → w.Kept cfg key.2 →
    RightAt HistoryTick.bucket hourlyAggregate w.recorded w.candles key

variable {cfg w} {w' : CandleWorld} {a : CandleAction}

/-- Nothing is recorded live in a covered hour. -/
theorem Inv.running_not_covered (hinv : w.Inv cfg) : ¬ w.Covered cfg (w.now / hourMs) := by
  rintro ⟨t, ht, -, hcomplete⟩
  have hlt : w.now < (w.now / hourMs + 1) * hourMs := (Nat.div_lt_iff_lt_mul (by decide)).mp (Nat.lt_succ_self _)
  exact absurd (hcomplete.trans (hinv.past t ht)) (not_le.mpr hlt)

theorem Inv.record (hinv : w.Inv cfg) {ticks : List HistoryTick}
    (hfresh : ∀ t ∈ ticks, ¬ w.Covered cfg t.bucket.2) : (w.record ticks).Inv cfg where
  past := hinv.past
  right key hcovered hkept := by
    refine (hinv.right key hcovered hkept).append fun t ht hkey => hfresh t ht ?_
    exact hkey ▸ hcovered

theorem bucket_of_live {prices : List (String × ℚ)} {t : HistoryTick}
    (ht : t ∈ prices.map fun (instrument, bid) => (⟨instrument, bid, w.now⟩ : HistoryTick)) :
    t.bucket.2 = w.now / hourMs := by
  obtain ⟨price, -, rfl⟩ := List.mem_map.mp ht
  rfl

theorem Inv.sync (hinv : w.Inv cfg) (hok : w.ReadsWhole cfg .syncHourlyPriceHistory) :
    Inv cfg { w with
      candles := rebuild HistoryTick.bucket hourlyAggregate (w.window cfg) w.candles
      synced := w.now :: w.synced } where
  past t ht := by
    rcases List.mem_cons.mp ht with rfl | hold
    · exact le_rfl
    · exact hinv.past t hold
  right key hcovered hkept := by
    have hcovers : w.Covered cfg key.2 ∨ Covers cfg w.now key.2 := by
      obtain ⟨t, ht, hcovers⟩ := hcovered
      rcases List.mem_cons.mp ht with rfl | hold
      · exact .inr hcovers
      · exact .inl ⟨t, hold, hcovers⟩
    intro hentries
    obtain ⟨t, ht⟩ := List.exists_mem_of_ne_nil _ hentries
    obtain ⟨hrecorded, hbucket⟩ := List.mem_filter.mp ht
    obtain rfl : t.bucket = key := of_decide_eq_true hbucket
    rcases hok t hrecorded hkept hcovers with hwhole | ⟨hnone, hbefore⟩
    · exact rightAt_rebuild hourlyAggregate_isSome hwhole hentries
    · exact (hinv.right t.bucket hbefore hkept).keep (rebuild_of_none rfl hnone) hentries

theorem Inv.step (hinv : w.Inv cfg) (hok : w.ReadsWhole cfg a) (hstep : w.step cfg a = some w') :
    w'.Inv cfg := by
  cases a with
  | elapse ms =>
    obtain rfl := Option.some.inj hstep
    refine ⟨fun t ht => (hinv.past t ht).trans (Nat.le_add_right _ _), fun key hcovered hkept => ?_⟩
    exact hinv.right key hcovered ((Nat.le_add_right _ _).trans hkept)
  | recordLive prices =>
    obtain rfl := Option.some.inj hstep
    refine hinv.record fun t ht hcovered => ?_
    exact hinv.running_not_covered (bucket_of_live ht ▸ hcovered)
  | bootstrap ticks =>
    obtain rfl := Option.some.inj hstep
    exact hinv.record hok
  | upsertHourly prices =>
    obtain rfl := Option.some.inj hstep
    refine ⟨hinv.past, fun key hcovered hkept => (hinv.right key hcovered hkept).keep ?_⟩
    refine foldl_mergePrice_other (fun hrunning => ?_) prices w.candles
    exact hinv.running_not_covered (hrunning ▸ hcovered)
  | syncHourlyPriceHistory =>
    obtain rfl := Option.some.inj hstep
    exact hinv.sync hok
  | pruneHistory =>
    obtain rfl := Option.some.inj hstep
    exact ⟨hinv.past, hinv.right⟩
  | pruneCandles =>
    obtain rfl := Option.some.inj hstep
    exact ⟨hinv.past, fun key hcovered hkept => (hinv.right key hcovered hkept).keep (if_pos hkept)⟩

/-! ### What a covered hour keeps -/

/-- A covered hour stays covered, what is recorded in it stays the same, and time goes on. -/
theorem Inv.frame (hinv : w.Inv cfg) (hok : w.ReadsWhole cfg a) (hstep : w.step cfg a = some w') :
    w.now ≤ w'.now ∧ w.synced ⊆ w'.synced ∧
      ∀ key, w.Covered cfg key.2 → w'.ticksOf key = w.ticksOf key := by
  have hrecord {ticks : List HistoryTick} (hfresh : ∀ t ∈ ticks, ¬ w.Covered cfg t.bucket.2)
      (key : BucketKey) (hcovered : w.Covered cfg key.2) : (w.record ticks).ticksOf key = w.ticksOf key :=
    entriesOf_append_of_forall_ne fun t ht hkey => hfresh t ht (hkey ▸ hcovered)
  cases a with
  | elapse ms =>
    obtain rfl := Option.some.inj hstep
    exact ⟨Nat.le_add_right _ _, List.Subset.refl _, fun _ _ => rfl⟩
  | recordLive prices =>
    obtain rfl := Option.some.inj hstep
    refine ⟨le_rfl, List.Subset.refl _, hrecord fun t ht hcovered => ?_⟩
    exact hinv.running_not_covered (bucket_of_live ht ▸ hcovered)
  | bootstrap ticks =>
    obtain rfl := Option.some.inj hstep
    exact ⟨le_rfl, List.Subset.refl _, hrecord hok⟩
  | upsertHourly prices =>
    obtain rfl := Option.some.inj hstep
    exact ⟨le_rfl, List.Subset.refl _, fun _ _ => rfl⟩
  | syncHourlyPriceHistory =>
    obtain rfl := Option.some.inj hstep
    exact ⟨le_rfl, List.subset_cons_self _ _, fun _ _ => rfl⟩
  | pruneHistory =>
    obtain rfl := Option.some.inj hstep
    exact ⟨le_rfl, List.Subset.refl _, fun _ _ => rfl⟩
  | pruneCandles =>
    obtain rfl := Option.some.inj hstep
    exact ⟨le_rfl, List.Subset.refl _, fun _ _ => rfl⟩

theorem Inv.candlesRight (hinv : w.Inv cfg) : w.CandlesRight cfg := by
  intro key hcovered hkept hticks
  have hstored := hinv.right key hcovered hkept hticks
  obtain ⟨candle, hcandle⟩ := Option.isSome_iff_exists.mp (hourlyAggregate_isSome _ hticks)
  exact ⟨candle, hstored.trans hcandle, ofTicks_of_hourlyAggregate hcandle⟩

theorem Inv.candlesStay (hinv : w.Inv cfg) (hok : w.ReadsWhole cfg a) (hstep : w.step cfg a = some w') :
    w.CandlesStay cfg w' := by
  intro key hcovered hkept hticks
  obtain ⟨hnow, hsynced, hsame⟩ := hinv.frame hok hstep
  have hcovered' : w'.Covered cfg key.2 := hcovered.imp fun t ht => ⟨hsynced ht.1, ht.2⟩
  have hentries : entriesOf HistoryTick.bucket w'.recorded key = entriesOf HistoryTick.bucket w.recorded key :=
    hsame key hcovered
  have hold := hinv.right key hcovered (hnow.trans hkept) hticks
  have hnew := (hinv.step hok hstep).right key hcovered' hkept (hentries ▸ hticks)
  rw [hnew, hold, hentries]

/-- Before anything is recorded. -/
def Fresh (w : CandleWorld) : Prop := w.history = [] ∧ w.recorded = [] ∧ w.synced = []

theorem candlesRight_of_readsWhole (hreach : Reach (step cfg) (ReadsWhole cfg) Fresh w) :
    w.CandlesRight cfg ∧
      ∀ a w', w.ReadsWhole cfg a → w.step cfg a = some w' → w.CandlesStay cfg w' := by
  have hinv : w.Inv cfg := by
    apply hreach.invariant
    · rintro s ⟨-, -, hsynced⟩
      have hnone (t : Nat) (ht : t ∈ s.synced) : False := List.not_mem_nil (hsynced ▸ ht)
      exact ⟨fun t ht => (hnone t ht).elim, fun key hcovered => (hcovered.elim fun t ht => hnone t ht.1).elim⟩
    · exact fun s a s' hs hok hstep => hs.step hok hstep
  exact ⟨hinv.candlesRight, fun a w' hok hstep => hinv.candlesStay hok hstep⟩

/-! ### An hour pruned in part -/

def defaultHistory : HistoryConfig := ⟨90, 90, 365⟩

def noTicks : CandleWorld := ⟨0, [], fun _ => none, [], []⟩

theorem noTicks_fresh : noTicks.Fresh := ⟨rfl, rfl, rfl⟩

/-- Two ticks of one hour, and a rebuild when it is complete. -/
def twoTicksSynced : List CandleAction :=
  [.elapse 600000, .recordLive [("EURUSD", 1)], .upsertHourly [("EURUSD", 1)], .elapse 2400000,
    .recordLive [("EURUSD", 2)], .elapse 600000, .syncHourlyPriceHistory]

/-- The retention ends between the two ticks when the prune runs, and the next rebuild finds the second. -/
theorem prunedHour_rebuilt : ∃ w w', run (step defaultHistory) noTicks
      (twoTicksSynced ++ [.elapse (90 * dayMs - 1800000), .pruneHistory]) = some w ∧
    w.step defaultHistory .syncHourlyPriceHistory = some w' ∧
      ¬ w.CandlesStay defaultHistory w' ∧ ¬ w'.CandlesRight defaultHistory := by
  obtain ⟨w, hrun, htest⟩ := exists_of_run_any (step defaultHistory) noTicks
    (twoTicksSynced ++ [.elapse (90 * dayMs - 1800000), .pruneHistory])
    (fun w => w.Covered defaultHistory 0 ∧ w.Kept defaultHistory 0 ∧ (w.ticksOf ("EURUSD", 0)).length = 2 ∧
      (w.candles ("EURUSD", 0)).map Candle.ticks = some 2 ∧
      (rebuild HistoryTick.bucket hourlyAggregate (w.window defaultHistory) w.candles ("EURUSD", 0)).map
        Candle.ticks = some 1) (by decide +kernel)
  obtain ⟨hcovered, hkept, htwo, hbefore, hafter⟩ := of_decide_eq_true htest
  have hticks : w.ticksOf ("EURUSD", 0) ≠ [] := fun hnil => by
    rw [hnil] at htwo
    cases htwo
  refine ⟨w, _, hrun, rfl, fun hstay => ?_, fun hright => ?_⟩
  · have hsame := hstay ("EURUSD", 0) hcovered hkept hticks
    cases (hbefore.symm.trans (congrArg (Option.map Candle.ticks) hsame.symm)).trans hafter
  · have hcovered' : Covered defaultHistory { w with
        candles := rebuild HistoryTick.bucket hourlyAggregate (w.window defaultHistory) w.candles
        synced := w.now :: w.synced } 0 := hcovered.imp fun t ht => ⟨List.mem_cons_of_mem _ ht.1, ht.2⟩
    obtain ⟨candle, hcandle, hof⟩ := hright ("EURUSD", 0) hcovered' hkept hticks
    have hone := (congrArg (Option.map Candle.ticks) hcandle).symm.trans hafter
    cases (Option.some.inj hone).symm.trans (hof.ticks.trans htwo)

/-- The prune comes when the whole hour is past its retention. -/
theorem prunedHour_stays : ∃ w, run (step defaultHistory) noTicks
      (twoTicksSynced ++ [.elapse (90 * dayMs), .pruneHistory, .syncHourlyPriceHistory]) = some w ∧
    w.history = [] ∧ w.CandlesRight defaultHistory ∧ ∀ a w', w.ReadsWhole defaultHistory a →
      w.step defaultHistory a = some w' → w.CandlesStay defaultHistory w' := by
  obtain ⟨w, hrun, htest⟩ := exists_of_run_any (step defaultHistory) noTicks
    (twoTicksSynced ++ [.elapse (90 * dayMs), .pruneHistory, .syncHourlyPriceHistory])
    (fun w => w.history = []) (by decide +kernel)
  have hok : RunOk (step defaultHistory) (ReadsWhole defaultHistory) noTicks
      (twoTicksSynced ++ [.elapse (90 * dayMs), .pruneHistory, .syncHourlyPriceHistory]) := by decide +kernel
  exact ⟨w, hrun, of_decide_eq_true htest,
    candlesRight_of_readsWhole (.of_run (.init noTicks_fresh) hok hrun)⟩

end CandleWorld

end PropFirm
