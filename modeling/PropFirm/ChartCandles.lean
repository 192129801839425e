import PropFirm.HourlyCandles
import PropFirm.Lib.InsertionMap
import PropFirm.Lib.JsText
import PropFirm.Lib.SeparatedFields
import PropFirm.MarketData

/-!
# Charts

A chart of an hour or more for each candle is read from the candles by the hour, and a shorter one, or one
for which there are none, from the ticks. The candle of some hours that is put together of theirs is the
candle of their ticks, so that both ways lead to the same chart where both tables still have all of it. A
chart that was drawn is answered again for a quarter of a minute.
-/

namespace PropFirm

open Rollup Transition

/-! ### Candles put together -/

/-- The candle of two spans, of which the first is before the second. -/
def Candle.join (candle later : Candle) : Candle where
  opening := candle.opening
  high := max candle.high later.high
  low := min candle.low later.low
  close := later.close
  ticks := candle.ticks + later.ticks

/-- What the query makes of the rows of a group, in the order of their hours. -/
def joinCandles : List Candle → Option Candle
  | [] => none
  | [candle] => some candle
  | candle :: candles => (joinCandles candles).map candle.join

namespace Candle.OfTicks

variable {candle later : Candle} {ticks ticks' : List HistoryTick}

theorem join (hcandle : candle.OfTicks ticks) (hlater : later.OfTicks ticks')
    (hbefore : ∀ t ∈ ticks, ∀ u ∈ ticks', t.recordedAt ≤ u.recordedAt) :
    (candle.join later).OfTicks (ticks ++ ticks') := by
  have hmem (t : HistoryTick) : t ∈ ticks ++ ticks' ↔ t ∈ ticks ∨ t ∈ ticks' := List.mem_append
  refine ⟨?_, ⟨?_, ?_⟩, ⟨?_, ?_⟩, ?_, ?_⟩
  · obtain ⟨t, ht, hbid, hfirst⟩ := hcandle.opening
    refine ⟨t, (hmem t).mpr (.inl ht), hbid, fun u hu => ?_⟩
    exact ((hmem u).mp hu).elim (hfirst u) (hbefore t ht u)
  · rcases max_choice candle.high later.high with hmax | hmax
    · obtain ⟨t, ht, hbid⟩ := hcandle.high.1
      exact ⟨t, (hmem t).mpr (.inl ht), hbid.trans hmax.symm⟩
    · obtain ⟨t, ht, hbid⟩ := hlater.high.1
      exact ⟨t, (hmem t).mpr (.inr ht), hbid.trans hmax.symm⟩
  · intro u hu
    rcases (hmem u).mp hu with hu | hu
    · exact (hcandle.high.2 u hu).trans (le_max_left _ _)
    · exact (hlater.high.2 u hu).trans (le_max_right _ _)
  · rcases min_choice candle.low later.low with hmin | hmin
    · obtain ⟨t, ht, hbid⟩ := hcandle.low.1
      exact ⟨t, (hmem t).mpr (.inl ht), hbid.trans hmin.symm⟩
    · obtain ⟨t, ht, hbid⟩ := hlater.low.1
      exact ⟨t, (hmem t).mpr (.inr ht), hbid.trans hmin.symm⟩
  · intro u hu
    rcases (hmem u).mp hu with hu | hu
    · exact (min_le_left _ _).trans (hcandle.low.2 u hu)
    · exact (min_le_right _ _).trans (hlater.low.2 u hu)
  · obtain ⟨t, ht, hbid, hlast⟩ := hlater.close
    refine ⟨t, (hmem t).mpr (.inr ht), hbid, fun u hu => ?_⟩
    exact ((hmem u).mp hu).elim (fun hu => hbefore u hu t ht) (hlast u)
  · rw [List.length_append, ← hcandle.ticks, ← hlater.ticks]
    rfl

theorem perm (hcandle : candle.OfTicks ticks) (hperm : ticks.Perm ticks') : candle.OfTicks ticks' := by
  obtain ⟨hopening, hhigh, hlow, hclose, hticks⟩ := hcandle
  simp only [hperm.mem_iff] at hopening hhigh hlow hclose
  exact ⟨hopening, hhigh, hlow, hclose, hticks.trans hperm.length_eq⟩

theorem ne_nil (hcandle : candle.OfTicks ticks) : ticks ≠ [] := by
  obtain ⟨t, ht, -⟩ := hcandle.opening
  exact List.ne_nil_of_mem ht

/-- Ticks have one candle where no two of them are of the same time. -/
theorem unique (hcandle : candle.OfTicks ticks) (hlater : later.OfTicks ticks)
    (hdistinct : ∀ t ∈ ticks, ∀ u ∈ ticks, t.recordedAt = u.recordedAt → t = u) : candle = later := by
  obtain ⟨t, ht, hopening, hfirst⟩ := hcandle.opening
  obtain ⟨u, hu, hopening', hfirst'⟩ := hlater.opening
  obtain rfl := hdistinct t ht u hu (le_antisymm (hfirst u hu) (hfirst' t ht))
  obtain ⟨v, hv, hclose, hlast⟩ := hcandle.close
  obtain ⟨x, hx, hclose', hlast'⟩ := hlater.close
  obtain rfl := hdistinct v hv x hx (le_antisymm (hlast' v hv) (hlast x hx))
  obtain ⟨⟨highest, hhighest, hhigh⟩, habove⟩ := hcandle.high
  obtain ⟨⟨highest', hhighest', hhigh'⟩, habove'⟩ := hlater.high
  obtain ⟨⟨lowest, hlowest, hlow⟩, hbelow⟩ := hcandle.low
  obtain ⟨⟨lowest', hlowest', hlow'⟩, hbelow'⟩ := hlater.low
  have hhighs : candle.high = later.high :=
    le_antisymm (hhigh ▸ habove' highest hhighest) (hhigh' ▸ habove highest' hhighest')
  have hlows : candle.low = later.low :=
    le_antisymm (hlow' ▸ hbelow lowest' hlowest') (hlow ▸ hbelow' lowest hlowest)
  have hticks := hcandle.ticks.trans hlater.ticks.symm
  cases candle
  cases later
  exact (Candle.mk.injEq ..).mpr ⟨hopening.symm.trans hopening', hhighs, hlows, hclose.symm.trans hclose', hticks⟩

end Candle.OfTicks

/-! ### Charts -/

def chartTimeframes : List (String × Nat) :=
  [("1M", 1), ("3M", 3), ("5M", 5), ("15M", 15), ("30M", 30), ("1H", 60), ("2H", 120), ("4H", 240)]

def getChartTimeframeMinutes (label : String) : Option Nat :=
  (chartTimeframes.find? fun t => t.1 = label.toUpper).map Prod.snd

/-- A candle is called by its number among the candles of its length since the epoch. -/
abbrev ChartRow := Nat × Candle

/-- `getRawCandleLookbackDays`; `maxBars` is the setting. -/
def getRawCandleLookbackDays (maxBars tfMinutes retainDays : Nat) : Nat :=
  max 1 (min retainDays ((max 1 tfMinutes * max 500 maxBars + (60 * 24 - 1)) / (60 * 24)))

namespace CandleWorld

variable (cfg : HistoryConfig) (w : CandleWorld)

/-- The rows of the hours of a chart candle that are in the window. -/
def hourRows (instrument : String) (tfHours bucket : Nat) : List Candle :=
  (List.range tfHours).filterMap fun i =>
    if w.Kept cfg (bucket * tfHours + i) then w.candles (instrument, bucket * tfHours + i) else none

def hourlyCandle (instrument : String) (tfHours bucket : Nat) : Option Candle :=
  joinCandles (w.hourRows cfg instrument tfHours bucket)

/-- The ticks of a chart candle that are in the window. -/
def rawTicks (lookbackDays : Nat) (instrument : String) (tfMinutes bucket : Nat) : List HistoryTick :=
  w.history.filter fun t => t.instrument = instrument ∧ w.now ≤ t.recordedAt + lookbackDays * dayMs ∧
    t.recordedAt / (tfMinutes * 60 * 1000) = bucket

def rawCandle (lookbackDays : Nat) (instrument : String) (tfMinutes bucket : Nat) : Option Candle :=
  hourlyAggregate (w.rawTicks lookbackDays instrument tfMinutes bucket)

/-- The candles up to the running hour and the one after it, to which an export can reach. -/
def rowsOf (tfMinutes : Nat) (candleOf : Nat → Option Candle) : List ChartRow :=
  (List.range ((w.now + hourMs) / (tfMinutes * 60 * 1000) + 1)).filterMap fun bucket =>
    (candleOf bucket).map fun candle => (bucket, candle)

/-- What `candlesHandler` reads from the tables. -/
def chart (maxBars : Nat) (instrument : String) (tfMinutes : Nat) : List ChartRow :=
  let hourly := if 60 ≤ tfMinutes then w.rowsOf tfMinutes (w.hourlyCandle cfg instrument (tfMinutes / 60)) else []
  if hourly ≠ [] then hourly
  else w.rowsOf tfMinutes
    (w.rawCandle (getRawCandleLookbackDays maxBars tfMinutes cfg.retainDays) instrument tfMinutes)

/-- The ticks ever recorded in a chart candle. -/
def recordedIn (instrument : String) (tfMinutes bucket : Nat) : List HistoryTick :=
  w.recorded.filter fun t => t.instrument = instrument ∧ t.recordedAt / (tfMinutes * 60 * 1000) = bucket

/-- Prices are merged into the candle of the hour after they were recorded. -/
def Persisted (w : CandleWorld) : CandleAction → Prop
  | .upsertHourly prices => ∀ price ∈ prices, w.ticksOf (price.1, w.now / hourMs) ≠ []
  | .elapse _ | .recordLive _ | .bootstrap _ | .syncHourlyPriceHistory | .pruneHistory | .pruneCandles => True

instance (w : CandleWorld) : DecidablePred w.Persisted
  | .upsertHourly _ => inferInstanceAs (Decidable (∀ price ∈ _, _))
  | .elapse _ | .recordLive _ | .bootstrap _ | .syncHourlyPriceHistory | .pruneHistory | .pruneCandles =>
    isTrue trivial

/-- A candle was recorded, and what is kept was. -/
structure Backed (w : CandleWorld) : Prop where
  candles : ∀ key candle, w.candles key = some candle → w.ticksOf key ≠ []
  history : w.history.Sublist w.recorded

variable {cfg w} {w' : CandleWorld} {a : CandleAction}

theorem foldl_mergePrice_some {hour : Nat} {key : BucketKey} {candle : Candle} {prices : List (String × ℚ)}
    {candles : BucketKey → Option Candle} (hcandle : prices.foldl (mergePrice hour) candles key = some candle) :
    (∃ price ∈ prices, key = (price.1, hour)) ∨ candles key = some candle := by
  induction prices generalizing candles with
  | nil => exact .inr hcandle
  | cons price prices ih =>
    rcases ih hcandle with ⟨later, hlater, hkey⟩ | hcandle
    · exact .inl ⟨later, List.mem_cons_of_mem _ hlater, hkey⟩
    · by_cases hkey : key = (price.1, hour)
      · exact .inl ⟨price, List.mem_cons_self, hkey⟩
      · exact .inr ((Function.update_of_ne hkey _ _).symm.trans hcandle)

theorem Backed.record (hbacked : w.Backed) (ticks : List HistoryTick) : (w.record ticks).Backed where
  candles key candle hcandle := by
    have hold := hbacked.candles key candle hcandle
    rw [ticksOf, entriesOf] at hold ⊢
    rw [CandleWorld.record, List.filter_append]
    exact List.append_ne_nil_of_left_ne_nil hold _
  history := hbacked.history.append (List.Sublist.refl ticks)

theorem Backed.sync (hbacked : w.Backed) : Backed { w with
    candles := rebuild HistoryTick.bucket hourlyAggregate (w.window cfg) w.candles
    synced := w.now :: w.synced } where
  candles key candle hcandle := by
    by_cases hread : entriesOf HistoryTick.bucket (w.window cfg) key = []
    · exact hbacked.candles key candle ((rebuild_of_none rfl hread).symm.trans hcandle)
    · obtain ⟨t, ht⟩ := List.exists_mem_of_ne_nil _ hread
      obtain ⟨hwindow, hkey⟩ := List.mem_filter.mp ht
      have hrecorded := hbacked.history.subset (List.mem_filter.mp hwindow).1
      exact List.ne_nil_of_mem (List.mem_filter.mpr ⟨hrecorded, hkey⟩)
  history := hbacked.history

theorem Backed.step (hbacked : w.Backed) (hok : w.Persisted a) (hstep : w.step cfg a = some w') : w'.Backed := by
  cases a with
  | elapse ms =>
    obtain rfl := Option.some.inj hstep
    exact ⟨hbacked.candles, hbacked.history⟩
  | recordLive prices =>
    obtain rfl := Option.some.inj hstep
    exact hbacked.record _
  | bootstrap ticks =>
    obtain rfl := Option.some.inj hstep
    exact hbacked.record ticks
  | upsertHourly prices =>
    obtain rfl := Option.some.inj hstep
    refine ⟨fun key candle hcandle => ?_, hbacked.history⟩
    rcases foldl_mergePrice_some hcandle with ⟨price, hprice, rfl⟩ | hcandle
    · exact hok price hprice
    · exact hbacked.candles key candle hcandle
  | syncHourlyPriceHistory =>
    obtain rfl := Option.some.inj hstep
    exact hbacked.sync
  | pruneHistory =>
    obtain rfl := Option.some.inj hstep
    exact ⟨hbacked.candles, List.filter_sublist.trans hbacked.history⟩
  | pruneCandles =>
    obtain rfl := Option.some.inj hstep
    refine ⟨fun key candle hcandle => hbacked.candles key candle ?_, hbacked.history⟩
    dsimp only at hcandle
    split at hcandle
    · exact hcandle
    · cases hcandle

/-! ### Both ways to a chart -/

theorem joinCandles_cons (candle : Candle) (candles : List Candle) :
    joinCandles (candle :: candles) = some ((joinCandles candles).elim candle candle.join) := by
  induction candles generalizing candle with
  | nil => rfl
  | cons later candles ih =>
    rw [joinCandles, ih, Option.map_some, Option.elim_some]
    exact List.cons_ne_nil later candles

/-- Either nothing was recorded and there is no candle, or the candle is that of what was recorded. -/
def CandleOf (candle? : Option Candle) (ticks : List HistoryTick) : Prop :=
  (candle? = none ∧ ticks = []) ∨ ∃ candle, candle? = some candle ∧ candle.OfTicks ticks

theorem CandleOf.perm {candle? : Option Candle} {ticks ticks' : List HistoryTick} (hcandle : CandleOf candle? ticks)
    (hperm : ticks.Perm ticks') : CandleOf candle? ticks' := by
  rcases hcandle with ⟨hnone, rfl⟩ | ⟨candle, hsome, hticks⟩
  · exact .inl ⟨hnone, hperm.nil_eq.symm⟩
  · exact .inr ⟨candle, hsome, hticks.perm hperm⟩

theorem candleOf_hourlyAggregate (ticks : List HistoryTick) : CandleOf (hourlyAggregate ticks) ticks := by
  by_cases hticks : ticks = []
  · exact .inl ⟨by rw [hticks]; rfl, hticks⟩
  · obtain ⟨candle, hcandle⟩ := Option.isSome_iff_exists.mp (hourlyAggregate_isSome ticks hticks)
    exact .inr ⟨candle, hcandle, ofTicks_of_hourlyAggregate hcandle⟩

/-- Candles of hours make the candle of all that was recorded in them. -/
theorem candleOf_joinCandles {hours : List Nat} (hsorted : hours.Pairwise (· < ·)) {row : Nat → Option Candle}
    {ticks : Nat → List HistoryTick} (hhour : ∀ hour ∈ hours, ∀ t ∈ ticks hour, t.recordedAt / hourMs = hour)
    (hrow : ∀ hour ∈ hours, CandleOf (row hour) (ticks hour)) :
    CandleOf (joinCandles (hours.filterMap row)) (hours.flatMap ticks) := by
  induction hours with
  | nil => exact .inl ⟨rfl, rfl⟩
  | cons hour hours ih =>
    obtain ⟨hless, hsorted⟩ := List.pairwise_cons.mp hsorted
    have hrest := ih hsorted (fun h hh => hhour h (List.mem_cons_of_mem _ hh))
      (fun h hh => hrow h (List.mem_cons_of_mem _ hh))
    rw [List.flatMap_cons]
    rcases hrow hour List.mem_cons_self with ⟨hnone, hticks⟩ | ⟨candle, hsome, hticks⟩
    · rwa [List.filterMap_cons_none hnone, hticks, List.nil_append]
    · rw [List.filterMap_cons_some hsome, joinCandles_cons]
      refine .inr ⟨_, rfl, ?_⟩
      rcases hrest with ⟨hnone, hlater⟩ | ⟨later, hlater, hlaterTicks⟩
      · rwa [hnone, hlater, List.append_nil, Option.elim_none]
      · rw [hlater, Option.elim_some]
        refine hticks.join hlaterTicks fun t ht u hu => ?_
        obtain ⟨h, hh, hu⟩ := List.mem_flatMap.mp hu
        have ht := hhour hour List.mem_cons_self t ht
        have hu := hhour h (List.mem_cons_of_mem _ hh) u hu
        have hlt := hless h hh
        by_contra hnot
        have := Nat.div_le_div_right (c := hourMs) (le_of_not_ge hnot)
        omega

/-- The parts of a list by a number that is below a bound. -/
theorem flatMap_filter_perm {α : Type} (f : α → Nat) (as : List α) (n : Nat) (hlt : ∀ a ∈ as, f a < n) :
    ((List.range n).flatMap fun i => as.filter fun a => f a = i).Perm as := by
  induction n generalizing as with
  | zero =>
    cases as with
    | nil => exact List.Perm.nil
    | cons a as => exact absurd (hlt a List.mem_cons_self) (Nat.not_lt_zero _)
  | succ n ih =>
    have hparts := List.filter_append_perm (fun a => decide (f a < n)) as
    rw [List.range_succ, List.flatMap_append, List.flatMap_singleton]
    refine List.Perm.trans (List.Perm.append ?_ ?_) hparts
    · have hlower := ih (as.filter fun a => f a < n) fun a ha => of_decide_eq_true (List.mem_filter.mp ha).2
      refine List.Perm.trans (List.Perm.of_eq (List.flatMap_congr fun i hi => ?_)) hlower
      rw [List.filter_filter]
      refine List.filter_congr fun a _ => ?_
      have := List.mem_range.mp hi
      by_cases ha : f a = i <;> simp [ha, this]
    · refine List.Perm.of_eq (List.filter_congr fun a ha => ?_)
      have := hlt a ha
      rw [← decide_not, decide_eq_decide]
      omega

theorem recordedIn_perm (instrument : String) {tfHours : Nat} (hpos : 0 < tfHours) (bucket : Nat) :
    (((List.range tfHours).map (bucket * tfHours + ·)).flatMap fun hour => w.ticksOf (instrument, hour)).Perm
      (w.recordedIn instrument (tfHours * 60) bucket) := by
  have hspan : tfHours * 60 * 60 * 1000 = hourMs * tfHours := by
    rw [hourMs]
    ring
  refine List.Perm.trans (List.Perm.of_eq ?_) (flatMap_filter_perm (fun t => t.recordedAt / hourMs % tfHours)
    (w.recordedIn instrument (tfHours * 60) bucket) tfHours fun t _ => Nat.mod_lt _ hpos)
  rw [List.flatMap_map]
  refine List.flatMap_congr fun i hi => ?_
  have hi := List.mem_range.mp hi
  rw [ticksOf, entriesOf, recordedIn, List.filter_filter]
  refine List.filter_congr fun t _ => ?_
  rw [← Bool.decide_and, decide_eq_decide, HistoryTick.bucket, Prod.mk.injEq, hspan, ← Nat.div_div_eq_div_mul,
    and_left_comm]
  refine and_congr_right fun _ => ?_
  constructor
  · intro hhour
    rw [hhour, Nat.mul_comm, Nat.mul_add_mod, Nat.mod_eq_of_lt hi, Nat.mul_add_div hpos, Nat.div_eq_of_lt hi]
    exact ⟨rfl, Nat.add_zero _⟩
  · rintro ⟨hmod, hdiv⟩
    have := Nat.div_add_mod (t.recordedAt / hourMs) tfHours
    rw [hmod, hdiv, Nat.mul_comm] at this
    exact this.symm

/-- What the chart shows of some hours that are covered, and not due to be pruned, is what was recorded in
them. -/
theorem candleOf_hourlyCandle (hinv : w.Inv cfg) (hbacked : w.Backed) (instrument : String) {tfHours : Nat}
    (hpos : 0 < tfHours) {bucket : Nat} (hcomplete : ∀ i < tfHours, w.Covered cfg (bucket * tfHours + i) ∧
      w.Kept cfg (bucket * tfHours + i)) :
    CandleOf (w.hourlyCandle cfg instrument tfHours bucket) (w.recordedIn instrument (tfHours * 60) bucket) := by
  let row : Nat → Option Candle := fun hour => if w.Kept cfg hour then w.candles (instrument, hour) else none
  have hrows : w.hourRows cfg instrument tfHours bucket =
      ((List.range tfHours).map (bucket * tfHours + ·)).filterMap row := by
    rw [List.filterMap_map]
    rfl
  rw [hourlyCandle, hrows]
  refine (candleOf_joinCandles ?_ ?_ ?_).perm (recordedIn_perm instrument hpos bucket)
  · exact List.pairwise_lt_range.map _ fun i j hij => Nat.add_lt_add_left hij _
  · intro hour _ t ht
    exact congrArg Prod.snd (of_decide_eq_true (List.mem_filter.mp ht).2)
  · intro hour hmem
    obtain ⟨i, hi, rfl⟩ := List.mem_map.mp hmem
    obtain ⟨hcovered, hkept⟩ := hcomplete i (List.mem_range.mp hi)
    change CandleOf (if w.Kept cfg _ then _ else none) _
    rw [if_pos hkept]
    by_cases hticks : w.ticksOf (instrument, bucket * tfHours + i) = []
    · refine .inl ⟨?_, hticks⟩
      by_contra hcandle
      obtain ⟨candle, hcandle⟩ := Option.ne_none_iff_exists'.mp hcandle
      exact hbacked.candles _ candle hcandle hticks
    · exact .inr (hinv.candlesRight _ hcovered hkept hticks)

theorem mem_rowsOf {tfMinutes : Nat} {candleOf : Nat → Option Candle} {bucket : Nat} {candle : Candle} :
    (bucket, candle) ∈ w.rowsOf tfMinutes candleOf ↔
      bucket < (w.now + hourMs) / (tfMinutes * 60 * 1000) + 1 ∧ candleOf bucket = some candle := by
  rw [rowsOf, List.mem_filterMap]
  constructor
  · rintro ⟨b, hb, hrow⟩
    obtain ⟨c, hc, heq⟩ := Option.map_eq_some_iff.mp hrow
    obtain ⟨rfl, rfl⟩ := Prod.mk.inj heq
    exact ⟨List.mem_range.mp hb, hc⟩
  · rintro ⟨hb, hc⟩
    exact ⟨bucket, List.mem_range.mpr hb, by rw [hc]; rfl⟩

/-- Nothing is recorded, and there is no candle. -/
def Started (w : CandleWorld) : Prop := w.Fresh ∧ ∀ key, w.candles key = none

def ChartOk (cfg : HistoryConfig) (w : CandleWorld) (a : CandleAction) : Prop := w.ReadsWhole cfg a ∧ w.Persisted a

instance (cfg : HistoryConfig) (w : CandleWorld) : DecidablePred (w.ChartOk cfg) :=
  fun _ => inferInstanceAs (Decidable (_ ∧ _))

theorem backed_of_reach (hreach : Reach (step cfg) (ChartOk cfg) Started w) : w.Inv cfg ∧ w.Backed := by
  apply hreach.invariant
  · rintro w ⟨⟨hhistory, -, hsynced⟩, hnone⟩
    have hnever (t : Nat) (ht : t ∈ w.synced) : False := List.not_mem_nil (hsynced ▸ ht)
    have hinv : w.Inv cfg :=
      ⟨fun t ht => (hnever t ht).elim, fun key hcovered => (hcovered.elim fun t ht => hnever t ht.1).elim⟩
    refine ⟨hinv, ?_, ?_⟩
    · intro key candle hcandle
      rw [hnone key] at hcandle
      cases hcandle
    · rw [hhistory]
      exact List.nil_sublist _
  · rintro w a w' ⟨hinv, hbacked⟩ ⟨hreads, hpersisted⟩ hstep
    exact ⟨hinv.step hreads hstep, hbacked.step hpersisted hstep⟩

/-- A span of hours is over, and the candles have been rebuilt since. -/
def Settled (cfg : HistoryConfig) (w : CandleWorld) (tfHours bucket : Nat) : Prop :=
  ∀ i < tfHours, w.Covered cfg (bucket * tfHours + i) ∧ w.Kept cfg (bucket * tfHours + i)

instance (cfg : HistoryConfig) (w : CandleWorld) (tfHours bucket : Nat) : Decidable (w.Settled cfg tfHours bucket) :=
  inferInstanceAs (Decidable (∀ i < tfHours, _))

/-- A price in the first hour and two in the second, and the candles rebuilt when it is over. -/
def twoHoursSynced : List CandleAction :=
  [.recordLive [("EURUSD", 11 / 10)], .upsertHourly [("EURUSD", 11 / 10)], .elapse hourMs,
    .recordLive [("EURUSD", 12 / 10)], .elapse 1000, .recordLive [("EURUSD", 1)], .elapse hourMs,
    .syncHourlyPriceHistory]

end CandleWorld

end PropFirm
