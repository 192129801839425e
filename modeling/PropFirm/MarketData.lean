import PropFirm.IndexMirror
import PropFirm.ProgressionSettings

/-!
# Quotes from the market-data file

A feed passes three checks on its way into the price cache. `extractPriceRows` drops a row whose numbers are
none or not positive; the map of the rest is accepted by `getCurrentPricesForTenant` only if all of them are
finite; and after the markup the cache accepts the map only if all of it is. None of them compares bid and ask.
-/

namespace PropFirm

open Sql

/-! ### The catalogue -/

def Instrument.symbol : Instrument → String
  | eurusd => "EURUSD" | gbpusd => "GBPUSD" | usdjpy => "USDJPY" | usdchf => "USDCHF" | audusd => "AUDUSD"
  | usdcad => "USDCAD" | nzdusd => "NZDUSD" | eurgbp => "EURGBP" | eurjpy => "EURJPY" | gbpjpy => "GBPJPY"
  | audjpy => "AUDJPY" | cadjpy => "CADJPY" | chfjpy => "CHFJPY" | nzdjpy => "NZDJPY" | euraud => "EURAUD"
  | eurcad => "EURCAD" | eurchf => "EURCHF" | eurnzd => "EURNZD" | gbpaud => "GBPAUD" | gbpcad => "GBPCAD"
  | gbpchf => "GBPCHF" | gbpnzd => "GBPNZD" | audcad => "AUDCAD" | audchf => "AUDCHF" | audnzd => "AUDNZD"
  | cadchf => "CADCHF" | nzdcad => "NZDCAD" | nzdchf => "NZDCHF" | xauusd => "XAUUSD" | xagusd => "XAGUSD"
  | xptusd => "XPTUSD" | xpdusd => "XPDUSD" | xtiusd => "XTIUSD" | xbrusd => "XBRUSD" | xngusd => "XNGUSD"
  | us30 => "US30" | ustec => "USTEC" | us500 => "US500" | uk100 => "UK100" | aus200 => "AUS200"
  | jp225 => "JP225" | hk50 => "HK50" | de40 => "DE40" | fra40 => "FRA40" | eustx50 => "EUSTX50"

/-- `INSTRUMENTS`. -/
def instruments : List Instrument :=
  [.eurusd, .gbpusd, .usdjpy, .usdchf, .audusd, .usdcad, .nzdusd,
    .eurgbp, .eurjpy, .gbpjpy, .audjpy, .cadjpy, .chfjpy, .nzdjpy, .euraud, .eurcad, .eurchf, .eurnzd,
    .gbpaud, .gbpcad, .gbpchf, .gbpnzd, .audcad, .audchf, .audnzd, .cadchf, .nzdcad, .nzdchf,
    .xauusd, .xagusd, .xptusd, .xpdusd, .xtiusd, .xbrusd, .xngusd,
    .us30, .ustec, .us500, .uk100, .aus200, .jp225, .hk50, .de40, .fra40, .eustx50]

theorem mem_instruments (instrument : Instrument) : instrument ∈ instruments := by
  cases instrument <;> decide

/-! ### `priceFeed.ts` -/

/-- `String` of the bid and the ask of a row. -/
structure RawQuote where
  bid : String
  ask : String

/-- What `mt5PriceDataSchema` makes of a file, by symbol. -/
abbrev FeedData := String → Option RawQuote

structure PriceInput where
  instrument : Instrument
  bid : Number
  ask : Number
  deriving DecidableEq

/-- A row whose bid and ask are numbers and above zero. -/
def readPriceRow (instrument : Instrument) (priceData : RawQuote) : Option PriceInput :=
  let bid := parseFloatNumber priceData.bid
  let ask := parseFloatNumber priceData.ask
  if bid.exceeds 0 ∧ ask.exceeds 0 then some ⟨instrument, bid, ask⟩ else none

/-- `parse` is `JSON.parse` and the schema, and none where they throw. -/
def extractPriceRows (parse : String → Option FeedData) (raw : Option String) : List PriceInput :=
  match raw with
  | none => []
  | some text =>
    if text = "" ∨ text = "\x7b\x7d" then []
    else
      match parse text with
      | none => []
      | some data => instruments.filterMap fun instrument =>
          (data instrument.symbol).bind (readPriceRow instrument)

/-- What is accepted where both numbers have to be finite. -/
def PriceInput.quote? (row : PriceInput) : Option Quote :=
  match row.bid, row.ask with
  | .finite bid, .finite ask => some ⟨bid, ask⟩
  | _, _ => none

/-- `spreadMap key` is `Number(spreadMap[key])`. -/
def getInstrumentSpreadMarkup (spreadMap : String → Number) (instrument : Instrument) : ℚ :=
  match spreadMap instrument.symbol with
  | .finite specific => specific
  | _ =>
    match spreadMap "*" with
    | .finite wildcard => wildcard
    | _ => 0

/-- A sum as a double, up to rounding. -/
def numberOf (x : ℚ) : Number := if doubleOverflow ≤ |x| then .infinity (x < 0) else .finite x

/-- `Number(x.toFixed(decimals))`. -/
def toFixedNumber (instrument : Instrument) : Number → Number
  | .finite x => .finite (roundPrice x instrument)
  | x => x

namespace PriceInput

/-- The markup of a row that is accepted, in points of its instrument. -/
def applyTenantMarkupToPriceRow (spreadMap : String → Number) (instrument : Instrument) (quote : Quote) :
    PriceInput :=
  let markupPoints := getInstrumentSpreadMarkup spreadMap instrument
  if markupPoints = 0 then ⟨instrument, .finite quote.bid, .finite quote.ask⟩
  else
    let markup := markupPoints / 10 ^ instrument.decimals
    ⟨instrument, .finite quote.bid, toFixedNumber instrument (numberOf (quote.ask + markup))⟩

end PriceInput

/-- What becomes of a feed: nothing without rows; the stored prices are taken in its place where its map is
refused; the cache refuses the marked-up map, or publishes it. -/
inductive FeedOutcome
  | unchanged
  | stored
  | refused
  | published (prices : List (Instrument × Quote))

def acceptAll (rows : List PriceInput) : Option (List (Instrument × Quote)) :=
  rows.mapM fun row => row.quote?.map (row.instrument, ·)

/-- From the text of the file to the cache. -/
def ingestFeed (parse : String → Option FeedData) (spreadMap : String → Number) (raw : Option String) :
    FeedOutcome :=
  let rows := extractPriceRows parse raw
  if rows = [] then .unchanged
  else
    match acceptAll rows with
    | none => .stored
    | some prices =>
      match acceptAll (prices.map fun price =>
          PriceInput.applyTenantMarkupToPriceRow spreadMap price.1 price.2) with
      | none => .refused
      | some next => .published next

/-! ### Sane quotes -/

namespace PriceInput

/-- Finite, and not crossed. -/
def WellFormed (row : PriceInput) : Prop := ∃ quote ∈ row.quote?, 0 < quote.bid ∧ quote.bid ≤ quote.ask

/-- Also with the markup. -/
def StaysFinite (spreadMap : String → Number) (row : PriceInput) : Prop :=
  ∃ quote ∈ row.quote?, getInstrumentSpreadMarkup spreadMap row.instrument = 0 ∨
    |quote.ask + getInstrumentSpreadMarkup spreadMap row.instrument / 10 ^ row.instrument.decimals| < doubleOverflow

/-- Without a markup the row is not crossed. A markup brings the ask, in points, to half a point below the
first whole one that neither price is above. -/
def Lifted (spreadMap : String → Number) (row : PriceInput) : Prop :=
  ∀ quote ∈ row.quote?,
    if getInstrumentSpreadMarkup spreadMap row.instrument = 0 then quote.bid ≤ quote.ask
    else ⌈max quote.bid quote.ask * 10 ^ row.instrument.decimals⌉ - 1 / 2 ≤
      quote.ask * 10 ^ row.instrument.decimals + getInstrumentSpreadMarkup spreadMap row.instrument

/-- The quote that is published of a row, if its numbers stay finite. -/
def published? (spreadMap : String → Number) (row : PriceInput) : Option Quote :=
  row.quote?.bind fun quote => (applyTenantMarkupToPriceRow spreadMap row.instrument quote).quote?

end PriceInput

/-- The published quotes are positive and not crossed, none with an ask below the feed's; and no other row
keeps a well-formed one from being published. -/
def SaneFeed (parse : String → Option FeedData) (spreadMap : String → Number) (raw : Option String) : Prop :=
  (∀ next, ingestFeed parse spreadMap raw = .published next → ∀ price ∈ next,
    0 < price.2.bid ∧ price.2.bid ≤ price.2.ask ∧ ∀ row ∈ extractPriceRows parse raw,
      row.instrument = price.1 → ∀ ask, row.ask = .finite ask → ask ≤ price.2.ask) ∧
  ∀ row ∈ extractPriceRows parse raw, row.WellFormed → ∃ next quote,
    ingestFeed parse spreadMap raw = .published next ∧ (row.instrument, quote) ∈ next

variable {parse : String → Option FeedData} {spreadMap : String → Number} {raw : Option String}
  {rows : List PriceInput} {row : PriceInput} {quote : Quote}

/-! ### Rows -/

/-- The rows are positive, and there is one for each instrument at most. -/
theorem mem_extractPriceRows (hrow : row ∈ extractPriceRows parse raw) :
    (row.bid.exceeds 0 = true ∧ row.ask.exceeds 0 = true) ∧
      ∀ row' ∈ extractPriceRows parse raw, row'.instrument = row.instrument → row' = row := by
  cases raw with
  | none => cases hrow
  | some text =>
    simp only [extractPriceRows] at hrow ⊢
    split at hrow
    · cases hrow
    rename_i htext
    rw [if_neg htext]
    cases hdata : parse text with
    | none =>
      rw [hdata] at hrow
      cases hrow
    | some data =>
      rw [hdata] at hrow
      have hread : ∀ {row instrument}, (data (Instrument.symbol instrument)).bind (readPriceRow instrument) = some row →
          row.instrument = instrument ∧ row.bid.exceeds 0 = true ∧ row.ask.exceeds 0 = true := by
        intro row instrument hsome
        obtain ⟨priceData, -, hread⟩ := Option.bind_eq_some_iff.mp hsome
        obtain ⟨hpositive, hrow⟩ := Option.ite_none_right_eq_some.mp hread
        cases hrow
        exact ⟨rfl, hpositive⟩
      obtain ⟨instrument, -, hsome⟩ := List.mem_filterMap.mp hrow
      refine ⟨(hread hsome).2, fun row' hrow' hsame => ?_⟩
      obtain ⟨instrument', -, hsome'⟩ := List.mem_filterMap.mp hrow'
      rw [(hread hsome).1, (hread hsome').1] at hsame
      subst hsame
      exact Option.some.inj (hsome'.symm.trans hsome)

theorem quote?_eq_some (h : row.quote? = some quote) : row.bid = .finite quote.bid ∧ row.ask = .finite quote.ask := by
  rw [PriceInput.quote?] at h
  split at h
  · rename_i hbid hask
    cases h
    exact ⟨hbid, hask⟩
  · cases h

/-- A markup that keeps the ask finite rounds it. -/
theorem quote?_applyTenantMarkupToPriceRow (instrument : Instrument) (quote : Quote) :
    (PriceInput.applyTenantMarkupToPriceRow spreadMap instrument quote).quote? =
      if getInstrumentSpreadMarkup spreadMap instrument = 0 then some quote
      else
        let sum := quote.ask + getInstrumentSpreadMarkup spreadMap instrument / 10 ^ instrument.decimals
        if doubleOverflow ≤ |sum| then none else some ⟨quote.bid, roundPrice sum instrument⟩ := by
  rw [PriceInput.applyTenantMarkupToPriceRow]
  dsimp only
  split_ifs with hzero hlarge
  · rfl
  · rw [numberOf, if_pos hlarge]
    rfl
  · rw [numberOf, if_neg hlarge]
    rfl

theorem staysFinite_iff : row.StaysFinite spreadMap ↔ ∃ quote, row.published? spreadMap = some quote := by
  rw [PriceInput.StaysFinite, PriceInput.published?]
  cases row.quote? with
  | none =>
    refine iff_of_false ?_ ?_
    · rintro ⟨quote, hquote, -⟩
      cases hquote
    · rintro ⟨quote, hquote⟩
      cases hquote
  | some quote =>
    rw [Option.bind_some, quote?_applyTenantMarkupToPriceRow]
    dsimp only
    constructor
    · rintro ⟨quote', hquote, hfinite⟩
      cases hquote
      split_ifs with hzero hlarge
      · exact ⟨_, rfl⟩
      · exact absurd (hfinite.resolve_left hzero) (not_lt.mpr hlarge)
      · exact ⟨_, rfl⟩
    · rintro ⟨quote', hquote⟩
      refine ⟨quote, rfl, ?_⟩
      split_ifs at hquote with hzero hlarge
      · exact .inl hzero
      · exact .inr (not_le.mp hlarge)

/-- A rounded sum reaches a positive number when it is half a point below the next whole point at most. -/
theorem le_roundPrice_iff {instrument : Instrument} {least sum : ℚ} (hleast : 0 < least) :
    least ≤ roundPrice sum instrument ↔
      (⌈least * 10 ^ instrument.decimals⌉ : ℚ) - 1 / 2 ≤ sum * 10 ^ instrument.decimals := by
  have hscale : (0 : ℚ) < 10 ^ instrument.decimals := by positivity
  have hceil : 0 < ⌈least * 10 ^ instrument.decimals⌉ := Int.ceil_pos.mpr (mul_pos hleast hscale)
  have hone : (1 : ℚ) ≤ ⌈least * 10 ^ instrument.decimals⌉ := by exact_mod_cast hceil
  rw [roundPrice, le_div_iff₀ hscale, ← Int.ceil_le]
  generalize ⌈least * 10 ^ instrument.decimals⌉ = points at hceil hone ⊢
  generalize sum * 10 ^ instrument.decimals = x
  by_cases hx : 0 ≤ x
  · rw [roundHalfAway_of_nonneg hx, Int.le_floor]
    constructor <;> intro h <;> linarith
  · rw [roundHalfAway_of_neg (not_le.mp hx)]
    refine iff_of_false ?_ (by linarith)
    rw [not_le]
    refine lt_of_le_of_lt (Int.ceil_le.mpr ?_) hceil
    push_cast
    linarith

theorem lifted_iff (hbid : row.bid.exceeds 0 = true) (hpublished : row.published? spreadMap = some quote) :
    row.Lifted spreadMap ↔ quote.bid ≤ quote.ask ∧ ∀ ask, row.ask = .finite ask → ask ≤ quote.ask := by
  obtain ⟨feed, hfeed, hmarked⟩ := Option.bind_eq_some_iff.mp hpublished
  obtain ⟨hfeedBid, hfeedAsk⟩ := quote?_eq_some hfeed
  have hpositive : 0 < feed.bid := by
    rw [hfeedBid] at hbid
    exact of_decide_eq_true hbid
  have hall : (∀ ask, row.ask = .finite ask → ask ≤ quote.ask) ↔ feed.ask ≤ quote.ask := by
    rw [hfeedAsk]
    constructor
    · intro h
      exact h feed.ask rfl
    · rintro h ask ⟨⟩
      exact h
  have hone : row.Lifted spreadMap ↔
      if getInstrumentSpreadMarkup spreadMap row.instrument = 0 then feed.bid ≤ feed.ask
      else ⌈max feed.bid feed.ask * 10 ^ row.instrument.decimals⌉ - 1 / 2 ≤
        feed.ask * 10 ^ row.instrument.decimals + getInstrumentSpreadMarkup spreadMap row.instrument := by
    rw [PriceInput.Lifted, hfeed]
    constructor
    · intro h
      exact h feed rfl
    · rintro h feed' ⟨⟩
      exact h
  rw [hone, hall]
  rw [quote?_applyTenantMarkupToPriceRow] at hmarked
  dsimp only at hmarked
  split_ifs at hmarked ⊢ with hzero hlarge
  · cases hmarked
    exact (and_iff_left le_rfl).symm
  · cases hmarked
    have hscale : (10 : ℚ) ^ row.instrument.decimals ≠ 0 := by positivity
    have hreach := @le_roundPrice_iff row.instrument (max feed.bid feed.ask)
      (feed.ask + getInstrumentSpreadMarkup spreadMap row.instrument / 10 ^ row.instrument.decimals)
      (lt_max_of_lt_left hpositive)
    rw [add_mul, div_mul_cancel₀ _ hscale] at hreach
    rw [← hreach, max_le_iff]

theorem published_bid_pos (hbid : row.bid.exceeds 0 = true) (hpublished : row.published? spreadMap = some quote) :
    0 < quote.bid := by
  obtain ⟨feed, hfeed, hmarked⟩ := Option.bind_eq_some_iff.mp hpublished
  rw [(quote?_eq_some hfeed).1] at hbid
  have hpositive : 0 < feed.bid := of_decide_eq_true hbid
  rw [quote?_applyTenantMarkupToPriceRow] at hmarked
  dsimp only at hmarked
  split_ifs at hmarked
  · cases hmarked
    exact hpositive
  · cases hmarked
    exact hpositive

/-! ### The whole map -/

theorem acceptAll_eq_some {prices : List (Instrument × Quote)} : acceptAll rows = some prices ↔
    List.Forall₂ (fun row price => row.quote?.map (row.instrument, ·) = some price) rows prices := by
  induction rows generalizing prices with
  | nil =>
    rw [acceptAll, List.mapM_nil, List.forall₂_nil_left_iff]
    exact Option.some_inj.trans eq_comm
  | cons row rows ih =>
    rw [acceptAll, List.mapM_cons, List.forall₂_cons_left_iff]
    simp only [Option.bind_eq_bind, Option.bind_eq_some_iff, Option.pure_def, Option.some.injEq]
    constructor
    · rintro ⟨price, hprice, rest, hrest, rfl⟩
      exact ⟨price, rest, hprice, ih.mp hrest, rfl⟩
    · rintro ⟨price, rest, hprice, hrest, rfl⟩
      exact ⟨price, hprice, rest, ih.mpr hrest, rfl⟩

theorem instrument_applyTenantMarkupToPriceRow (instrument : Instrument) (quote : Quote) :
    (PriceInput.applyTenantMarkupToPriceRow spreadMap instrument quote).instrument = instrument := by
  rw [PriceInput.applyTenantMarkupToPriceRow]
  dsimp only
  split <;> rfl

/-- Of one row. -/
theorem published?_eq_some {price : Instrument × Quote} :
    (row.published? spreadMap).map (row.instrument, ·) = some price ↔
      ∃ accepted, row.quote?.map (row.instrument, ·) = some accepted ∧
        ((PriceInput.applyTenantMarkupToPriceRow spreadMap accepted.1 accepted.2).quote?.map fun quote =>
          ((PriceInput.applyTenantMarkupToPriceRow spreadMap accepted.1 accepted.2).instrument, quote))
            = some price := by
  simp only [instrument_applyTenantMarkupToPriceRow, PriceInput.published?]
  cases row.quote? with
  | none =>
    refine iff_of_false (fun h => by cases h) ?_
    rintro ⟨accepted, haccepted, -⟩
    cases haccepted
  | some quote =>
    constructor
    · intro h
      exact ⟨_, rfl, h⟩
    · rintro ⟨accepted, haccepted, h⟩
      cases haccepted
      exact h

/-- The two checks together. -/
theorem acceptAll_twice {next : List (Instrument × Quote)} :
    (∃ prices, acceptAll rows = some prices ∧ acceptAll (prices.map fun price =>
      PriceInput.applyTenantMarkupToPriceRow spreadMap price.1 price.2) = some next) ↔
    List.Forall₂ (fun row price => (row.published? spreadMap).map (row.instrument, ·) = some price) rows next := by
  simp only [acceptAll_eq_some, List.forall₂_map_left_iff]
  induction rows generalizing next with
  | nil => simp
  | cons row rows ih =>
    simp only [List.forall₂_cons_left_iff]
    constructor
    · rintro ⟨prices, ⟨accepted, rest, haccepted, hrest, rfl⟩, hnext⟩
      obtain ⟨price, tail, hprice, htail, rfl⟩ := List.forall₂_cons_left_iff.mp hnext
      exact ⟨price, tail, published?_eq_some.mpr ⟨accepted, haccepted, hprice⟩, ih.mp ⟨rest, hrest, htail⟩, rfl⟩
    · rintro ⟨price, next, hprice, hnext, rfl⟩
      obtain ⟨accepted, haccepted, hprice⟩ := published?_eq_some.mp hprice
      obtain ⟨rest, hrest, hnext⟩ := ih.mpr hnext
      exact ⟨accepted :: rest, ⟨accepted, rest, haccepted, hrest, rfl⟩, .cons hprice hnext⟩

theorem ingestFeed_eq_published {next : List (Instrument × Quote)} :
    ingestFeed parse spreadMap raw = .published next ↔ extractPriceRows parse raw ≠ [] ∧
      List.Forall₂ (fun row price => (row.published? spreadMap).map (row.instrument, ·) = some price)
        (extractPriceRows parse raw) next := by
  rw [← acceptAll_twice, ingestFeed]
  by_cases hrows : extractPriceRows parse raw = []
  · rw [if_pos hrows]
    exact iff_of_false (fun h => by cases h) fun h => h.1 hrows
  · rw [if_neg hrows, and_iff_right hrows]
    cases acceptAll (extractPriceRows parse raw) with
    | none =>
      refine iff_of_false (fun h => by cases h) ?_
      rintro ⟨prices, hprices, -⟩
      cases hprices
    | some prices =>
      dsimp only
      cases hnext : acceptAll (prices.map fun price =>
          PriceInput.applyTenantMarkupToPriceRow spreadMap price.1 price.2) with
      | none =>
        refine iff_of_false (fun h => by cases h) ?_
        rintro ⟨prices', hprices, hnext'⟩
        cases hprices
        rw [hnext] at hnext'
        cases hnext'
      | some accepted =>
        constructor
        · intro h
          cases h
          exact ⟨prices, rfl, hnext⟩
        · rintro ⟨prices', hprices, hnext'⟩
          cases hprices
          rw [hnext] at hnext'
          rw [Option.some.inj hnext']

/-- Where every row stays finite all are published, else none is. -/
theorem exists_published_iff (hrows : extractPriceRows parse raw ≠ []) :
    (∃ next, ingestFeed parse spreadMap raw = .published next) ↔
      ∀ row ∈ extractPriceRows parse raw, row.StaysFinite spreadMap := by
  simp only [ingestFeed_eq_published, and_iff_right hrows, staysFinite_iff]
  generalize extractPriceRows parse raw = rows
  induction rows with
  | nil => simp
  | cons row rows ih =>
    simp only [List.forall₂_cons_left_iff, List.forall_mem_cons, ← ih]
    constructor
    · rintro ⟨next, price, rest, hprice, hrest, rfl⟩
      obtain ⟨quote, hquote, -⟩ := Option.map_eq_some_iff.mp hprice
      exact ⟨⟨quote, hquote⟩, rest, hrest⟩
    · rintro ⟨⟨quote, hquote⟩, rest, hrest⟩
      exact ⟨_, (row.instrument, quote), rest, by rw [hquote]; rfl, hrest, rfl⟩

theorem mem_published {next : List (Instrument × Quote)}
    (hnext : ingestFeed parse spreadMap raw = .published next) {price : Instrument × Quote} :
    price ∈ next ↔ ∃ row ∈ extractPriceRows parse raw, row.published? spreadMap = some price.2 ∧
      row.instrument = price.1 := by
  obtain ⟨-, hforall⟩ := ingestFeed_eq_published.mp hnext
  clear hnext
  generalize extractPriceRows parse raw = rows at hforall ⊢
  induction hforall with
  | nil => simp
  | cons hprice _ ih =>
    obtain ⟨quote, hquote, rfl⟩ := Option.map_eq_some_iff.mp hprice
    simp only [List.mem_cons, exists_eq_or_imp, ih, hquote, Option.some.injEq]
    refine or_congr_left ?_
    constructor
    · rintro rfl
      exact ⟨rfl, rfl⟩
    · rintro ⟨rfl, hinstrument⟩
      rw [hinstrument]

def sampleText : String :=
  "\x7b\"EURUSD\":\x7b\"bid\":1.1,\"ask\":1.2\x7d,\"GBPUSD\":\x7b\"bid\":1.3,\"ask\":1e999\x7d\x7d"

/-- The number `1e999` is an infinity. -/
def sampleFeed (text : String) : Option FeedData :=
  if text = sampleText then
    some fun symbol =>
      if symbol = "EURUSD" then some ⟨"1.1", "1.2"⟩
      else if symbol = "GBPUSD" then some ⟨"1.3", "Infinity"⟩
      else none
  else none

end PropFirm
