import PropFirm.Lib.Rounding
import Mathlib.Data.Rat.Floor

/-!
# Profit and loss of a position

A price difference times lots times contract size is denominated in the instrument's quote currency,
so `calculatePnL` multiplies it by a US dollar rate read from the live price cache before it
subtracts the commission and rounds to cents. The rate fails closed: without a usable price for the
rate's pair `getUsdRate` throws, which is `none` here, and every caller decides for itself what a
missing rate means. Amounts of money are integer cents, every other number is an exact rational.
-/

namespace PropFirm

/-- A `NUMERIC(15,2)` amount, in cents. -/
abbrev Cents := Int

def Cents.dollars (c : Cents) : ℚ := c / 100

/-- `toDecimalPlaces(2)`, and what storing a number in a `NUMERIC(15,2)` column does. -/
def toCents (x : ℚ) : Cents := roundHalfAway (x * 100)

@[simp] theorem toCents_dollars (c : Cents) : toCents c.dollars = c := by
  have h : c.dollars * 100 = ((c : ℤ) : ℚ) := by
    rw [Cents.dollars]
    exact div_mul_cancel₀ _ (by norm_num)
  rw [toCents, h, roundHalfAway_intCast]

theorem toCents_mono {x y : ℚ} (hxy : x ≤ y) : toCents x ≤ toCents y :=
  roundHalfAway_mono (mul_le_mul_of_nonneg_right hxy (by norm_num))

theorem Cents.dollars_lt_of_lt_toCents {c : Cents} {x : ℚ} (hlt : c < toCents x) : c.dollars < x := by
  by_contra hge
  have hle := toCents_mono (not_lt.mp hge)
  rw [toCents_dollars] at hle
  exact hle.not_gt hlt

theorem Cents.dollars_le {a b : Cents} : a.dollars ≤ b.dollars ↔ a ≤ b := by
  rw [Cents.dollars, Cents.dollars, div_le_div_iff_of_pos_right (by norm_num), Int.cast_le]

theorem Cents.dollars_lt {a b : Cents} : a.dollars < b.dollars ↔ a < b := by
  rw [Cents.dollars, Cents.dollars, div_lt_div_iff_of_pos_right (by norm_num), Int.cast_lt]

@[simp] theorem Cents.dollars_zero : Cents.dollars 0 = 0 := by
  simp [Cents.dollars]

theorem Cents.dollars_neg (c : Cents) : Cents.dollars (-c) = -c.dollars := by
  simp [Cents.dollars, neg_div]

theorem Cents.dollars_add (a b : Cents) : Cents.dollars (a + b) = a.dollars + b.dollars := by
  simp only [Cents.dollars]
  push_cast
  ring

theorem Cents.dollars_sub (a b : Cents) : Cents.dollars (a - b) = a.dollars - b.dollars := by
  simp [Cents.dollars, sub_div]

/-- Whole cents are subtracted exactly. -/
theorem Cents.toCents_sub_dollars (a b : Cents) : toCents (a.dollars + -b.dollars) = a - b := by
  rw [← sub_eq_add_neg, ← dollars_sub, toCents_dollars]

/-! ### The instrument catalogue -/

inductive Currency
  | usd | jpy | chf | cad | gbp | aud | nzd | eur | hkd
  deriving DecidableEq, Repr

/-- The symbols of `INSTRUMENT_DEFINITIONS`: forex majors, forex minors, metals, energies, indices. -/
inductive Instrument
  | eurusd | gbpusd | usdjpy | usdchf | audusd | usdcad | nzdusd
  | eurgbp | eurjpy | gbpjpy | audjpy | cadjpy | chfjpy | nzdjpy | euraud | eurcad | eurchf | eurnzd
  | gbpaud | gbpcad | gbpchf | gbpnzd | audcad | audchf | audnzd | cadchf | nzdcad | nzdchf
  | xauusd | xagusd | xptusd | xpdusd
  | xtiusd | xbrusd | xngusd
  | us30 | ustec | us500 | uk100 | aus200 | jp225 | hk50
  | de40 | fra40 | eustx50
  deriving DecidableEq, Repr

def Instrument.contractSize : Instrument → ℚ
  | xauusd | xptusd | xpdusd => 100
  | xagusd => 5000
  | xtiusd | xbrusd => 1000
  | xngusd => 10000
  | us30 | ustec | us500 | uk100 | aus200 | jp225 | hk50 | de40 | fra40 | eustx50 => 1
  | _ => 100000

/-- The currency a price move of the instrument is denominated in. -/
def Instrument.quoteCurrency : Instrument → Currency
  | usdjpy | eurjpy | gbpjpy | audjpy | cadjpy | chfjpy | nzdjpy | jp225 => .jpy
  | usdchf | eurchf | gbpchf | audchf | cadchf | nzdchf => .chf
  | usdcad | eurcad | gbpcad | audcad | nzdcad => .cad
  | euraud | gbpaud | aus200 => .aud
  | eurnzd | gbpnzd | audnzd => .nzd
  | eurgbp | uk100 => .gbp
  | de40 | fra40 | eustx50 => .eur
  | hk50 => .hkd
  | _ => .usd

/-! ### Conversion rates -/

structure Quote where
  bid : ℚ
  ask : ℚ
  deriving DecidableEq

/-- What `getUsdRateForInstrument` reads: the flag, the peg and the price cache. -/
structure FxSource where
  conversionEnabled : Bool
  hkdPeg : ℚ
  cache : Instrument → Option Quote

def quoteAt (price : ℚ) : Quote := ⟨price, price⟩

def quotedAt (price : ℚ) : Instrument → Option Quote := fun _ => some (quoteAt price)

def noConversion : FxSource := ⟨false, 39 / 5, fun _ => none⟩

/-- `RATE_SOURCES`: how a currency's dollar rate is derived. -/
inductive RateSource
  | identity
  | pair (symbol : Instrument) (invert : Bool)
  | pegged (invert : Bool)

def Currency.rateSource : Currency → RateSource
  | usd => .identity
  | jpy => .pair .usdjpy true
  | chf => .pair .usdchf true
  | cad => .pair .usdcad true
  | gbp => .pair .gbpusd false
  | aud => .pair .audusd false
  | nzd => .pair .nzdusd false
  | eur => .pair .eurusd false
  | hkd => .pegged true

def rateFrom (price : ℚ) (invert : Bool) : Option ℚ :=
  if price ≤ 0 then none else some (if invert then 1 / price else price)

/-- `getUsdRate`; `none` is the `FxRateUnavailableError` it throws. -/
def getUsdRate (fx : FxSource) (currency : Currency) : Option ℚ :=
  match currency.rateSource with
  | .identity => some 1
  | .pegged invert => rateFrom fx.hkdPeg invert
  | .pair symbol invert => (fx.cache symbol).bind fun price => rateFrom price.bid invert

def getUsdRateForInstrument (fx : FxSource) (instrument : Instrument) : Option ℚ :=
  if fx.conversionEnabled then getUsdRate fx instrument.quoteCurrency else some 1

private theorem rateFrom_pos {price rate : ℚ} {invert : Bool}
    (hrate : rateFrom price invert = some rate) : 0 < rate := by
  unfold rateFrom at hrate
  split at hrate
  · cases hrate
  · rename_i hprice
    rw [not_le] at hprice
    cases hrate
    cases invert
    · exact hprice
    · exact one_div_pos.mpr hprice

/-- Every rate handed out is positive: a source that is not is reported unavailable. -/
theorem getUsdRateForInstrument_pos {fx : FxSource} {instrument : Instrument} {rate : ℚ}
    (hrate : getUsdRateForInstrument fx instrument = some rate) : 0 < rate := by
  unfold getUsdRateForInstrument at hrate
  split at hrate
  · unfold getUsdRate at hrate
    split at hrate
    · cases hrate
      exact one_pos
    · exact rateFrom_pos hrate
    · obtain ⟨price, _, hprice⟩ := Option.bind_eq_some_iff.mp hrate
      exact rateFrom_pos hprice
  · cases hrate
    exact one_pos

/-! ### `calculatePnL` -/

inductive Direction
  | buy | sell
  deriving DecidableEq, Repr

/-- The price a position of this direction closes at: a buy at the bid, a sell at the ask. -/
def Quote.closeSide (price : Quote) : Direction → ℚ
  | .buy => price.bid
  | .sell => price.ask

def Quote.openSide (price : Quote) : Direction → ℚ
  | .buy => price.ask
  | .sell => price.bid

def pnlAtRate (direction : Direction) (openPrice closePrice lots : ℚ) (instrument : Instrument)
    (commission : Cents) (rate : ℚ) : Cents :=
  let priceDiff := match direction with
    | .buy => closePrice - openPrice
    | .sell => openPrice - closePrice
  toCents (priceDiff * lots * instrument.contractSize * rate - commission.dollars)

/-- `calculatePnL`, which throws when the instrument's dollar rate is unavailable. -/
def calculatePnL (fx : FxSource) (direction : Direction) (openPrice closePrice lots : ℚ)
    (instrument : Instrument) (commission : Cents) : Option Cents :=
  (getUsdRateForInstrument fx instrument).map
    (pnlAtRate direction openPrice closePrice lots instrument commission)

end PropFirm
