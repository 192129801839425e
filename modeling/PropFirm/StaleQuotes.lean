import Mathlib
import PropFirm.PartialData
import PropFirm.IndexMirror

/-!
# Enforcement on quotes too old to trade on

The close route asks how old the stored quote of the trade's own instrument is. The interval path asks
once for the whole feed: it takes the time since the cache was last refreshed, by a tick of any
instrument, and where that is too long the newest row of `price_feed`, of any instrument, which it
remembers for a second. The event path does not ask.

Times are in milliseconds. An age is negative where the database's clock is ahead.
-/

namespace PropFirm

/-- A row of `price_feed` or of `price_feed_source_prices`. -/
structure PriceRow where
  instrument : Instrument
  quote : Quote
  updatedAt : Nat

instance : Keyed PriceRow Instrument := ⟨PriceRow.instrument⟩

structure FeedAgeCache where
  ageMs : Option ℤ
  readAt : Nat

/-- The price map of the cache. An instrument may be present without a price. -/
abbrev CachedMap := AList fun _ : Instrument => Option Quote

/-- The shared table, the rows of the dedicated source, which of the two is the effective source with
its markups, the price cache, what feed health remembers, and whether its query and the one of
`getCurrentPrices` are answered. -/
structure QuoteFeed where
  priceFeed : Table PriceRow
  sourcePrices : Table PriceRow
  sharedSource : Bool
  markupPoints : Instrument → ℚ
  cache : CachedMap
  lastUpdateAt : Nat
  conversionEnabled : Bool
  hkdPeg : ℚ
  dbAgeCache : FeedAgeCache
  ageAnswers : Bool
  pricesAnswer : Bool

/-- `STALE_THRESHOLD_MS`. -/
def staleThresholdMs : ℤ := 10000

/-- `STALE_AFTER_MS`, of the price cache. -/
def staleAfterMs : ℤ := 5000

/-- `DB_AGE_CACHE_MS`. -/
def dbAgeCacheMs : ℤ := 1000

def applyTenantMarkupToPriceRow (markupPoints : ℚ) (row : PriceRow) : Quote :=
  if markupPoints = 0 then row.quote
  else
    let markup := markupPoints / 10 ^ row.instrument.decimals
    { row.quote with ask := roundPrice (row.quote.ask + markup) row.instrument }

namespace QuoteFeed

def getPrice (s : QuoteFeed) (instrument : Instrument) : Option Quote := (s.cache.lookup instrument).join

/-- Dollar rates come from the price cache, however old it is. -/
def fx (s : QuoteFeed) : FxSource := ⟨s.conversionEnabled, s.hkdPeg, s.getPrice⟩

def getPriceCacheAgeMs (s : QuoteFeed) (now : Nat) : Option ℤ :=
  if s.lastUpdateAt = 0 then none else some (now - s.lastUpdateAt)

def isStale (s : QuoteFeed) (now : Nat) : Bool :=
  (s.getPriceCacheAgeMs now).all (staleAfterMs < ·)

def getCurrentPricesForSource (s : QuoteFeed) : Table PriceRow :=
  if s.sharedSource then s.priceFeed else s.sourcePrices

def getCurrentPricesForTenant (s : QuoteFeed) (basePrices : Option (Table PriceRow))
    (instrument : Instrument) : Option Quote :=
  let prices := if s.sharedSource then basePrices.getD s.priceFeed else s.sourcePrices
  (prices.find? instrument).map (applyTenantMarkupToPriceRow (s.markupPoints instrument))

/-- A query that fails leaves no price. -/
def getCurrentPrices (s : QuoteFeed) : Table PriceRow :=
  if s.pricesAnswer then s.priceFeed else Table.empty

def getLivePriceMap (s : QuoteFeed) (now : Nat) : Instrument → Option Quote :=
  if !s.isStale now ∧ s.cache.keys ≠ [] then s.getPrice
  else s.getCurrentPricesForTenant (some s.getCurrentPrices)

/-- `closeTradeHandler` rejects the close because the quote is too old. A quote that is missing is
refused in another way. -/
def closeRejected (s : QuoteFeed) (now : Nat) (instrument : Instrument) : Bool :=
  (s.getCurrentPricesForSource.find? instrument).any fun price =>
    staleThresholdMs < (now : ℤ) - price.updatedAt

/-! ### Feed health -/

/-- `MAX(updated_at)`. -/
def newest (s : QuoteFeed) : Option Nat := (s.priceFeed.rows.map PriceRow.updatedAt).max?

/-- The age, and what is remembered of it. -/
def getFeedAgeMs (s : QuoteFeed) (now : Nat) : Option ℤ × FeedAgeCache :=
  match (s.getPriceCacheAgeMs now).filter (· ≤ staleThresholdMs) with
  | some cacheAge => (some cacheAge, s.dbAgeCache)
  | none =>
    if s.dbAgeCache.readAt ≠ 0 ∧ (now : ℤ) - s.dbAgeCache.readAt < dbAgeCacheMs then
      (s.dbAgeCache.ageMs, s.dbAgeCache)
    else
      let ageMs := if s.ageAnswers then s.newest.map fun updatedAt : Nat => (now : ℤ) - updatedAt else none
      (ageMs, ⟨ageMs, now⟩)

/-- `healthy` of `checkFeedHealth`: an unknown age is not. -/
def checkFeedHealth (s : QuoteFeed) (now : Nat) : Bool := (s.getFeedAgeMs now).1.any (· ≤ staleThresholdMs)

end QuoteFeed

/-! ### The two paths behind their guards -/

/-- What the two paths read of an account: its row, limits, open positions and realised profit of the
day, its entry in the index, if it is loaded and active there, with the positions indexed, the
instruments of the tick, and the database and prices that a settlement finds. -/
structure EnforcementReads where
  db : Db
  limits : Limits
  acc : Account
  trades : List Trade
  todayRealized : Cents
  entry : Option AccountEntry
  indexed : List Trade
  changedInstruments : List Instrument
  settlement : Market

namespace QuoteFeed

variable (s : QuoteFeed) (now : Nat) (r : EnforcementReads)

/-- The prices both paths value the positions at. -/
def marks : Market := ⟨s.getLivePriceMap now, s.fx⟩

/-- `checkFloatingDrawdown` behind the feed health. -/
def intervalEnforce : Db :=
  if s.checkFeedHealth now then
    intervalPass r.db r.limits r.acc r.trades (s.marks now) r.todayRealized r.settlement (now / 1000)
  else r.db

/-- The scan of `runTick` comes across the account. -/
def touches : Bool :=
  r.indexed.any fun t => t.instrument ∈ r.changedInstruments ∧ (s.getPrice t.instrument).isSome ∧
    (getUsdRateForInstrument s.fx t.instrument).isSome

def tickCandidate : Option Candidate := if s.touches r then r.entry.bind runTick else none

/-- `runTick` and `settleAccountOutcomes`. -/
def tickEnforce : Db :=
  match s.tickCandidate r with
  | none => r.db
  | some candidate =>
    eventPass r.db candidate r.acc r.trades (s.marks now) r.todayRealized r.settlement (now / 1000)

/-- Some open position of the account could not be closed now because its quote is too old. -/
def Untradable : Prop := ∃ t ∈ r.trades, s.closeRejected now t.instrument = true

instance : Decidable (s.Untradable now r) := inferInstanceAs (Decidable (∃ t ∈ r.trades, _))

def SparesUntradable : Prop :=
  s.Untradable now r →
    ¬ Transitions r.db (s.intervalEnforce now r) r.acc.id ∧ ¬ Transitions r.db (s.tickEnforce now r) r.acc.id

instance : Decidable (s.SparesUntradable now r) := inferInstanceAs (Decidable (_ → _))

/-- By the marks the account is within its rules, or the feed counts as unhealthy. -/
def IntervalStands : Prop :=
  s.checkFeedHealth now = true →
    WithinRules r.limits r.acc (floatingPnl (s.marks now) r.trades) r.todayRealized

/-- By the marks whatever the index suspects of the account is refuted. -/
def TickStands : Prop :=
  ∀ candidate ∈ s.tickCandidate r,
    Refuted candidate r.acc (floatingPnl (s.marks now) r.trades) r.todayRealized

variable {s now r}

theorem intervalEnforce_transitions :
    Transitions r.db (s.intervalEnforce now r) r.acc.id ↔
      ¬ s.IntervalStands now r ∧ ¬ Blocked r.db r.acc.id r.settlement := by
  unfold intervalEnforce IntervalStands
  split
  case isTrue hhealthy =>
    rw [intervalPass, enforce_transitions, ne_eq, checkFloatingDrawdown_eq_none]
    simp only [hhealthy, true_implies]
  case isFalse hunhealthy =>
    refine iff_of_false (fun htransits => ?_) fun h => h.1 fun hhealthy => absurd hhealthy hunhealthy
    exact (@enforce_transitions r.db none r.acc.id r.settlement now).mp htransits |>.1 rfl

theorem tickEnforce_transitions :
    Transitions r.db (s.tickEnforce now r) r.acc.id ↔
      ¬ s.TickStands now r ∧ ¬ Blocked r.db r.acc.id r.settlement := by
  unfold tickEnforce TickStands
  cases hcandidate : s.tickCandidate r with
  | none =>
    refine iff_of_false (fun htransits => ?_) fun h => h.1 nofun
    exact (@enforce_transitions r.db none r.acc.id r.settlement now).mp htransits |>.1 rfl
  | some candidate =>
    dsimp only
    rw [eventPass, enforce_transitions, ne_eq, settleAccountOutcome_eq_none]
    simp only [Option.mem_some_iff, forall_eq']

/-- The paths spare an account with a position that cannot be closed exactly when the settlement is
blocked, or the interval path is suspended or finds nothing and the event path finds nothing. -/
theorem sparesUntradable_iff (s : QuoteFeed) (now : Nat) (r : EnforcementReads) :
    s.SparesUntradable now r ↔
      (s.Untradable now r → Blocked r.db r.acc.id r.settlement ∨
        s.IntervalStands now r ∧ s.TickStands now r) := by
  refine imp_congr_right fun _ => ?_
  rw [intervalEnforce_transitions, tickEnforce_transitions, not_and_or, not_and_or, not_not, not_not, not_not,
    ← and_or_right, or_comm]

/-! ### What the guard does catch -/

/-- With the cache and what is remembered both too old to be asked, the newest row decides. -/
theorem getFeedAgeMs_of_old (s : QuoteFeed) (now : Nat)
    (hcache : ∀ cacheAge ∈ s.getPriceCacheAgeMs now, staleThresholdMs < cacheAge)
    (hmemo : s.dbAgeCache.readAt = 0 ∨ dbAgeCacheMs ≤ (now : ℤ) - s.dbAgeCache.readAt) :
    (s.getFeedAgeMs now).1
      = if s.ageAnswers then s.newest.map fun updatedAt : Nat => (now : ℤ) - updatedAt else none := by
  have hnone : (s.getPriceCacheAgeMs now).filter (· ≤ staleThresholdMs) = none := by
    rw [Option.filter_eq_none_iff]
    intro cacheAge hage
    rw [decide_eq_true_eq, not_le]
    exact hcache cacheAge hage
  unfold getFeedAgeMs
  rw [hnone]
  dsimp only
  rw [if_neg]
  rintro ⟨hasked, hrecent⟩
  exact hmemo.elim hasked fun hold => absurd hrecent hold.not_gt

/-- Where every instrument is too old to trade on and the cache has not been refreshed either, the interval
path is suspended. -/
theorem intervalEnforce_suspended (s : QuoteFeed) (now : Nat) (r : EnforcementReads)
    (hcache : ∀ cacheAge ∈ s.getPriceCacheAgeMs now, staleThresholdMs < cacheAge)
    (hmemo : s.dbAgeCache.readAt = 0 ∨ dbAgeCacheMs ≤ (now : ℤ) - s.dbAgeCache.readAt)
    (hrows : ∀ row ∈ s.priceFeed.rows, staleThresholdMs < (now : ℤ) - row.updatedAt) :
    s.intervalEnforce now r = r.db := by
  refine if_neg ?_
  rw [checkFeedHealth, getFeedAgeMs_of_old s now hcache hmemo, Option.any_eq_true]
  rintro ⟨age, hage, hfresh⟩
  split at hage
  · obtain ⟨updatedAt, hnewest, rfl⟩ := Option.map_eq_some_iff.mp hage
    obtain ⟨row, hrow, rfl⟩ := List.mem_map.mp (List.max?_mem hnewest)
    exact absurd (of_decide_eq_true hfresh) (hrows row hrow).not_ge
  · cases hage

/-! ### One frozen instrument -/

/-- The euro has not been quoted for a minute, gold has just been. -/
def frozenEuro : QuoteFeed where
  priceFeed := ⟨[⟨.eurusd, quoteAt (1085 / 1000), 1000⟩, ⟨.xauusd, quoteAt 2000, 61000⟩], by decide⟩
  sourcePrices := Table.empty
  sharedSource := true
  markupPoints := fun _ => 0
  cache := [⟨.eurusd, some (quoteAt (1085 / 1000))⟩, ⟨.xauusd, some (quoteAt 2000)⟩].toAList
  lastUpdateAt := 61000
  conversionEnabled := false
  hkdPeg := 39 / 5
  dbAgeCache := ⟨none, 0⟩
  ageAnswers := true
  pricesAnswer := true

def hedgedReads : EnforcementReads where
  db := hedgedAccount
  limits := (sampleTerms.provision 1).columnLimits
  acc := sampleTerms.provision 1
  trades := hedgedTrades
  todayRealized := 0
  entry := none
  indexed := []
  changedInstruments := []
  settlement := frozenEuro.marks 61000

/-- The close of the euro position is rejected, and at the same moment the interval path fails the account. -/
theorem frozenEuro_fails : frozenEuro.Untradable 61000 hedgedReads ∧
    ¬ frozenEuro.SparesUntradable 61000 hedgedReads := by
  decide +kernel

end QuoteFeed

end PropFirm
