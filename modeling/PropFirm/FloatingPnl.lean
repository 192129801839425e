import PropFirm.PartialCloses
import PropFirm.TradeIndex

/-!
# The floating profit of an account

The engine keeps an account's floating profit as a running total. A tick recomputes the trades of the
instruments that moved and rolls the differences in, a trade that opens is seeded from the price cache,
and `reseedFloatingPnl` zeroes every total and recomputes all of them. The profits come from `fastPnL`,
the unrounded twin of `calculatePnL`.

An entry that is replaced starts from zero, whatever its trade was last scanned at, and a trade of a
cross pair is not scanned again when only the rate that converts it moves.
-/

namespace PropFirm

open Grouping Transition

def fastPnL (direction : Direction) (openPrice closePrice lots contractSize commission usdRate : ℚ) : ℚ :=
  let diff := match direction with
    | .buy => closePrice - openPrice
    | .sell => openPrice - closePrice
  diff * lots * contractSize * usdRate - commission

/-- The price and the rate that one scan of an instrument goes by. -/
structure Scan where
  price : Quote
  usdRate : ℚ
  deriving DecidableEq

/-- `none` when the instrument is skipped, for want of a price or of a rate. -/
def FxSource.scan (fx : FxSource) (instrument : Instrument) : Option Scan := do
  let price ← fx.cache instrument
  let usdRate ← getUsdRateForInstrument fx instrument
  pure ⟨price, usdRate⟩

namespace Scan

def fastPnL (scan : Scan) (row : Trade) : ℚ :=
  PropFirm.fastPnL row.direction (row.openPrice.getD 0) (scan.price.closeSide row.direction) row.lotSize
    row.instrument.contractSize row.commission.dollars scan.usdRate

/-- What `calculatePnL` gives for the row at the same price and rate. -/
def calculatePnL (scan : Scan) (row : Trade) : Cents :=
  pnlAtRate row.direction (row.openPrice.getD 0) (scan.price.closeSide row.direction) row.lotSize
    row.instrument row.commission scan.usdRate

end Scan

/-- The symbols of `INSTRUMENT_DEFINITIONS`, which are the keys a price can have. -/
def Instrument.all : List Instrument :=
  [.eurusd, .gbpusd, .usdjpy, .usdchf, .audusd, .usdcad, .nzdusd,
    .eurgbp, .eurjpy, .gbpjpy, .audjpy, .cadjpy, .chfjpy, .nzdjpy, .euraud, .eurcad, .eurchf, .eurnzd,
    .gbpaud, .gbpcad, .gbpchf, .gbpnzd, .audcad, .audchf, .audnzd, .cadchf, .nzdcad, .nzdchf,
    .xauusd, .xagusd, .xptusd, .xpdusd, .xtiusd, .xbrusd, .xngusd,
    .us30, .ustec, .us500, .uk100, .aus200, .jp225, .hk50, .de40, .fra40, .eustx50]

theorem Instrument.mem_all (instrument : Instrument) : instrument ∈ all := by
  cases instrument <;> decide

namespace TradeIndex

/-- The body of the scan's loop, on an entry that its instrument's bucket holds. -/
def scanTrade (instrument : Instrument) (scan : Scan) (s : TradeIndex) (ref : Nat) : TradeIndex :=
  match s.made[ref]? with
  | none => s
  | some row =>
    if s.byInstrument instrument row.id = some ⟨ref, row⟩ then s.applyTradePnl ref (scan.fastPnL row)
    else s

def scanInstrument (s : TradeIndex) (instrument : Instrument) (scan : Scan) : TradeIndex :=
  (List.range s.made.length).foldl (scanTrade instrument scan) s

end TradeIndex

/-- The index beside the prices. `scans` records what each trade was last scanned at, by its id. -/
structure PricedIndex where
  index : TradeIndex
  fx : FxSource
  scans : Nat → Option Scan

inductive PricedAction
  | priceUpdate (fx : FxSource)
  | runTick (changedInstruments : List Instrument)
  | addTrade (row : Trade) (accountRow : Option Account)
  | addOpenTradeToIndex (row : Trade) (accountRow : Option Account)
  | applyTradePnl (ref : Nat) (scan : Scan)
  | removeTrade (tradeId : Nat)
  | addPending (row : Trade) (accountRow : Option Account)
  | removePending (orderId : Nat)
  | upsertAccount (row : Account)
  | removeAccount (accountId : Nat)
  | reseedFloatingPnl

namespace PricedIndex

def boot (fx : FxSource) : PricedIndex := ⟨.empty, fx, fun _ => none⟩

def scanInstrument (w : PricedIndex) (instrument : Instrument) : PricedIndex :=
  (w.fx.scan instrument).elim w fun scan =>
    { w with
      index := w.index.scanInstrument instrument scan
      scans := fun tradeId =>
        if (w.index.byId tradeId).any (·.row.instrument = instrument) then some scan else w.scans tradeId }

/-- The scan of `runTick`. -/
def runTick (w : PricedIndex) (changedInstruments : List Instrument) : PricedIndex :=
  changedInstruments.foldl scanInstrument w

def reseedFloatingPnl (w : PricedIndex) : PricedIndex :=
  Instrument.all.foldl scanInstrument { w with index := w.index.resetFloatingPnl }

def addTrade (w : PricedIndex) (row : Trade) (accountRow : Option Account) : PricedIndex :=
  { w with index := w.index.addTrade row accountRow }

/-- Price an entry, which counts as a scan of its trade when the index holds it. -/
def applyTradePnl (w : PricedIndex) (ref : Nat) (scan : Scan) : PricedIndex :=
  match w.index.made[ref]? with
  | none => w
  | some row =>
    { w with
      index := w.index.applyTradePnl ref (scan.fastPnL row)
      scans :=
        if w.index.byId row.id = some ⟨ref, row⟩ then Function.update w.scans row.id (some scan)
        else w.scans }

/-- The entry that `addTrade` makes is the next one. -/
def addOpenTradeToIndex (w : PricedIndex) (row : Trade) (accountRow : Option Account) : PricedIndex :=
  let added := w.addTrade row accountRow
  (w.fx.scan row.instrument).elim added (added.applyTradePnl w.index.made.length)

def step (w : PricedIndex) : PricedAction → Option PricedIndex
  | .priceUpdate fx => some { w with fx := fx }
  | .runTick changedInstruments => some (w.runTick changedInstruments)
  | .addTrade row accountRow => some (w.addTrade row accountRow)
  | .addOpenTradeToIndex row accountRow => some (w.addOpenTradeToIndex row accountRow)
  | .applyTradePnl ref scan => some (w.applyTradePnl ref scan)
  | .removeTrade tradeId => some { w with index := w.index.removeTrade tradeId }
  | .addPending row accountRow => some { w with index := w.index.addPending row accountRow }
  | .removePending orderId => some { w with index := w.index.removePending orderId }
  | .upsertAccount row => some { w with index := w.index.upsertAccount row }
  | .removeAccount accountId => some { w with index := w.index.removeAccount accountId }
  | .reseedFloatingPnl => some w.reseedFloatingPnl

/-! ### What the totals should be -/

/-- The profit of an indexed trade at the last quote it was scanned at. -/
def scannedPnl (w : PricedIndex) (tradeId : Nat) : ℚ :=
  (w.index.byId tradeId).elim 0 fun entry => (w.scans tradeId).elim 0 fun scan => scan.fastPnL entry.row

/-- What the confirming step makes of it. -/
def confirmedPnl (w : PricedIndex) (tradeId : Nat) : ℚ :=
  (w.index.byId tradeId).elim 0 fun entry =>
    (w.scans tradeId).elim 0 fun scan => (scan.calculatePnL entry.row).dollars

/-- Every indexed trade was last scanned at the price that its instrument has now. -/
def SameQuotes (w : PricedIndex) : Prop :=
  ∀ tradeId, ∀ entry ∈ w.index.byId tradeId,
    (w.scans tradeId).map Scan.price = w.fx.cache entry.row.instrument

/-- Every indexed trade was last scanned at the rate that its instrument converts at now. -/
def SameRates (w : PricedIndex) : Prop :=
  ∀ tradeId, ∀ entry ∈ w.index.byId tradeId, ∀ scan ∈ w.scans tradeId,
    getUsdRateForInstrument w.fx entry.row.instrument = some scan.usdRate

structure FloatingExact (w : PricedIndex) : Prop where
  total : ∀ accountId, ∀ a ∈ w.index.byAccount accountId,
    a.floatingPnl = (a.tradeIds.map w.scannedPnl).sum
  reseed : w.SameQuotes → w.reseedFloatingPnl.index = w.index
  parity : ∀ fx direction openPrice closePrice lots instrument commission,
    ∀ rate ∈ getUsdRateForInstrument fx instrument,
      ∃ pnl ∈ calculatePnL fx direction openPrice closePrice lots instrument commission,
        |fastPnL direction openPrice closePrice lots instrument.contractSize commission.dollars rate
          - pnl.dollars| ≤ 1 / 200
  /-- The equity and the day's profit are both a sum of the floating profit and something else. -/
  missed : ∀ accountId, ∀ a ∈ w.index.byAccount accountId, ∀ base limit : ℚ,
    (base + (a.tradeIds.map w.confirmedPnl).sum ≤ limit →
      base + a.floatingPnl ≤ limit + a.tradeIds.length / 200) ∧
    (limit ≤ base + (a.tradeIds.map w.confirmedPnl).sum →
      limit - a.tradeIds.length / 200 ≤ base + a.floatingPnl)

/-- What keeps the index consistent, and no trade that has been scanned loses its profit: an entry of it
is made only together with a price, and a reseed finds one for it. -/
def Careful (w : PricedIndex) : PricedAction → Prop
  | .priceUpdate _ | .runTick _ => True
  | .addTrade row accountRow =>
    w.index.Careful (.addTrade row accountRow) ∧ w.scans row.id = none
  | .addOpenTradeToIndex row accountRow =>
    w.index.Careful (.addTrade row accountRow) ∧
      (w.scans row.id = none ∨ w.fx.scan row.instrument ≠ none)
  | .applyTradePnl ref scan =>
    ∀ row ∈ w.index.made[ref]?, w.index.Careful (.applyTradePnl ref (scan.fastPnL row))
  | .removeTrade tradeId => w.index.Careful (.removeTrade tradeId)
  | .addPending row accountRow => w.index.Careful (.addPending row accountRow)
  | .removePending orderId => w.index.Careful (.removePending orderId)
  | .upsertAccount row => w.index.Careful (.upsertAccount row)
  | .removeAccount accountId => w.index.Careful (.removeAccount accountId)
  | .reseedFloatingPnl => ∀ tradeId, ∀ entry ∈ w.index.byId tradeId,
      w.scans tradeId ≠ none → w.fx.scan entry.row.instrument ≠ none

/-! ### Parity -/

theorem abs_fastPnL_sub_calculatePnL_le (scan : Scan) (row : Trade) :
    |scan.fastPnL row - (scan.calculatePnL row).dollars| ≤ 1 / 200 := by
  rw [abs_sub_comm]
  exact abs_dollars_toCents_sub_le (scan.fastPnL row)

theorem parity (fx : FxSource) (direction : Direction) (openPrice closePrice lots : ℚ)
    (instrument : Instrument) (commission : Cents) {rate : ℚ}
    (hrate : getUsdRateForInstrument fx instrument = some rate) :
    ∃ pnl ∈ calculatePnL fx direction openPrice closePrice lots instrument commission,
      |fastPnL direction openPrice closePrice lots instrument.contractSize commission.dollars rate
        - pnl.dollars| ≤ 1 / 200 := by
  refine ⟨pnlAtRate direction openPrice closePrice lots instrument commission rate, ?_, ?_⟩
  · rw [Option.mem_def, calculatePnL, hrate, Option.map_some]
  · rw [abs_sub_comm]
    exact abs_dollars_toCents_sub_le _

/-- Half a cent for each trade is all that confirming can add or take away. -/
theorem abs_scanned_sub_confirmed_le (w : PricedIndex) (tradeIds : List Nat) :
    |(tradeIds.map w.scannedPnl).sum - (tradeIds.map w.confirmedPnl).sum| ≤ tradeIds.length / 200 := by
  induction tradeIds with
  | nil => simp
  | cons tradeId tradeIds ih =>
    have hone : |w.scannedPnl tradeId - w.confirmedPnl tradeId| ≤ 1 / 200 := by
      rw [scannedPnl, confirmedPnl]
      cases w.index.byId tradeId with
      | none => norm_num
      | some entry =>
        cases w.scans tradeId with
        | none => norm_num
        | some scan => exact abs_fastPnL_sub_calculatePnL_le scan entry.row
    rw [List.map_cons, List.sum_cons, List.map_cons, List.sum_cons, add_sub_add_comm, List.length_cons,
      Nat.cast_succ]
    calc |w.scannedPnl tradeId - w.confirmedPnl tradeId
          + ((tradeIds.map w.scannedPnl).sum - (tradeIds.map w.confirmedPnl).sum)|
        ≤ 1 / 200 + tradeIds.length / 200 := (abs_add_le _ _).trans (add_le_add hone ih)
      _ = (tradeIds.length + 1) / 200 := by ring

end PricedIndex

/-! ### One scan -/

namespace TradeIndex

/-- The same index up to the profits. -/
structure SameEntries (s s' : TradeIndex) : Prop where
  made : s'.made = s.made
  byId : s'.byId = s.byId
  byInstrument : s'.byInstrument = s.byInstrument
  pendingById : s'.pendingById = s.pendingById
  pendingByInstrument : s'.pendingByInstrument = s.pendingByInstrument
  accounts : ∀ accountId, ∃ floatingPnl : LoadedAccount → ℚ,
    s'.byAccount accountId
      = (s.byAccount accountId).map fun a => { a with floatingPnl := floatingPnl a }

namespace SameEntries

variable {s s' s'' : TradeIndex}

theorem refl (s : TradeIndex) : SameEntries s s where
  made := rfl
  byId := rfl
  byInstrument := rfl
  pendingById := rfl
  pendingByInstrument := rfl
  accounts _ := ⟨fun a => a.floatingPnl, Option.map_id'.symm⟩

theorem trans (hfirst : SameEntries s s') (hsecond : SameEntries s' s'') : SameEntries s s'' where
  made := hsecond.made.trans hfirst.made
  byId := hsecond.byId.trans hfirst.byId
  byInstrument := hsecond.byInstrument.trans hfirst.byInstrument
  pendingById := hsecond.pendingById.trans hfirst.pendingById
  pendingByInstrument := hsecond.pendingByInstrument.trans hfirst.pendingByInstrument
  accounts accountId := by
    obtain ⟨first, hfirst⟩ := hfirst.accounts accountId
    obtain ⟨second, hsecond⟩ := hsecond.accounts accountId
    refine ⟨fun a => second { a with floatingPnl := first a }, ?_⟩
    rw [hsecond, hfirst, Option.map_map]
    rfl

/-- Two consistent indexes that agree on the last profits agree on the totals. -/
theorem eq_of_lastPnl (hsame : SameEntries s s') (hcons : s.Consistent) (hcons' : s'.Consistent)
    (hlast : s'.lastPnl = s.lastPnl) : s' = s := by
  have hpnl : s'.pnlOf = s.pnlOf := by
    funext tradeId
    rw [pnlOf, pnlOf, hsame.byId, hlast]
  have haccounts : s'.byAccount = s.byAccount := by
    funext accountId
    obtain ⟨floatingPnl, haccount⟩ := hsame.accounts accountId
    cases ha : s.byAccount accountId with
    | none => rw [haccount, ha, Option.map_none]
    | some a =>
      rw [ha, Option.map_some] at haccount
      have htotal := (hcons.accounts accountId a ha).floatingPnl
      have htotal' : floatingPnl a = (a.tradeIds.map s'.pnlOf).sum :=
        (hcons'.accounts accountId _ haccount).floatingPnl
      rw [haccount, htotal', hpnl, ← htotal]
  obtain ⟨hmade, hbyId, hbyInstrument, hpendingById, hpendingByInstrument, _⟩ := hsame
  cases s
  cases s'
  dsimp only at hmade hbyId hbyInstrument hpendingById hpendingByInstrument haccounts hlast
  rw [hmade, hbyId, hbyInstrument, hpendingById, hpendingByInstrument, haccounts, hlast]

end SameEntries

end TradeIndex

namespace TradeIndex

variable {s : TradeIndex}

/-- The entry is the one that its trade is indexed by. -/
def Holds (s : TradeIndex) (ref : Nat) : Prop :=
  ∃ row, s.made[ref]? = some row ∧ s.byId row.id = some ⟨ref, row⟩

theorem Consistent.holds (hcons : s.Consistent) {tradeId : Nat} {entry : TradeEntry}
    (hentry : s.byId tradeId = some entry) : s.Holds entry.ref := by
  obtain ⟨rfl, hmade⟩ := hcons.entries tradeId entry hentry
  exact ⟨entry.row, hmade, hentry⟩

theorem applyTradePnl_sameEntries (s : TradeIndex) (ref : Nat) (pnl : ℚ) :
    SameEntries s (s.applyTradePnl ref pnl) := by
  rw [applyTradePnl]
  cases s.made[ref]? with
  | none => exact .refl s
  | some row =>
    refine ⟨rfl, rfl, rfl, rfl, rfl, fun accountId => ?_⟩
    rw [withAccount_byAccount]
    by_cases hid : accountId = row.accountId
    · rw [if_pos hid, hid]
      exact ⟨fun a => a.floatingPnl + (pnl - s.lastPnl ref), rfl⟩
    · rw [if_neg hid]
      exact ⟨fun a => a.floatingPnl, Option.map_id'.symm⟩

theorem resetFloatingPnl_sameEntries (s : TradeIndex) : SameEntries s s.resetFloatingPnl :=
  ⟨rfl, rfl, rfl, rfl, rfl, fun _ => ⟨fun _ => 0, rfl⟩⟩

theorem resetFloatingPnl_lastPnl_of_entry (hcons : s.Consistent) {tradeId : Nat} {entry : TradeEntry}
    (hentry : s.byId tradeId = some entry) : s.resetFloatingPnl.lastPnl entry.ref = 0 := by
  obtain ⟨rfl, hmade⟩ := hcons.entries tradeId entry hentry
  simp only [resetFloatingPnl, hmade]
  exact if_pos hentry

theorem resetFloatingPnl_lastPnl_of_not_holds {ref : Nat} (hunheld : ¬s.Holds ref) :
    s.resetFloatingPnl.lastPnl ref = s.lastPnl ref := by
  simp only [resetFloatingPnl]
  cases hrow : s.made[ref]? with
  | none => rfl
  | some row => exact if_neg fun hheld => hunheld ⟨row, hrow, hheld⟩

theorem applyTradePnl_lastPnl {ref : Nat} {row : Trade} (hrow : s.made[ref]? = some row) (pnl : ℚ) :
    (s.applyTradePnl ref pnl).lastPnl = Function.update s.lastPnl ref pnl := by
  rw [applyTradePnl, hrow]
  rfl

/-- What a scan of an instrument leaves as an entry's last profit. -/
def lastScanned (s : TradeIndex) (instrument : Instrument) (scan : Scan) (ref : Nat) : ℚ :=
  match s.made[ref]? with
  | none => s.lastPnl ref
  | some row =>
    if s.byInstrument instrument row.id = some ⟨ref, row⟩ then scan.fastPnL row else s.lastPnl ref

theorem scanTrade_spec (hcons : s.Consistent) (instrument : Instrument) (scan : Scan) (ref : Nat) :
    SameEntries s (scanTrade instrument scan s ref) ∧
      (scanTrade instrument scan s ref).Consistent ∧
      (scanTrade instrument scan s ref).lastPnl
        = Function.update s.lastPnl ref (s.lastScanned instrument scan ref) := by
  rw [scanTrade, lastScanned]
  cases hrow : s.made[ref]? with
  | none => exact ⟨.refl s, hcons, (Function.update_eq_self ..).symm⟩
  | some row =>
    dsimp only
    by_cases hbucket : s.byInstrument instrument row.id = some ⟨ref, row⟩
    · have hheld := ((hcons.byInstrument instrument row.id ⟨ref, row⟩).mp hbucket).1
      rw [if_pos hbucket, if_pos hbucket]
      refine ⟨applyTradePnl_sameEntries .., applyTradePnl_consistent hcons fun row' hrow' => ?_,
        applyTradePnl_lastPnl hrow _⟩
      obtain rfl : row = row' := Option.some.inj (hrow.symm.trans hrow')
      exact .inl hheld
    · rw [if_neg hbucket, if_neg hbucket]
      exact ⟨.refl s, hcons, (Function.update_eq_self ..).symm⟩

/-- By induction on how many entries the loop has passed. -/
theorem foldl_scanTrade_spec (hcons : s.Consistent) (instrument : Instrument) (scan : Scan) (n : Nat) :
    SameEntries s ((List.range n).foldl (scanTrade instrument scan) s) ∧
      ((List.range n).foldl (scanTrade instrument scan) s).Consistent ∧
      ((List.range n).foldl (scanTrade instrument scan) s).lastPnl = fun ref =>
        if ref < n then s.lastScanned instrument scan ref else s.lastPnl ref := by
  induction n with
  | zero => exact ⟨.refl s, hcons, rfl⟩
  | succ n ih =>
    obtain ⟨hsame, hconsistent, hlast⟩ := ih
    rw [List.range_succ, List.foldl_append, List.foldl_cons, List.foldl_nil]
    obtain ⟨hsame', hconsistent', hlast'⟩ := scanTrade_spec hconsistent instrument scan n
    refine ⟨hsame.trans hsame', hconsistent', ?_⟩
    have hnext : ((List.range n).foldl (scanTrade instrument scan) s).lastScanned instrument scan n
        = s.lastScanned instrument scan n := by
      rw [lastScanned, lastScanned, hsame.made, hsame.byInstrument, hlast]
      simp only [lt_irrefl, if_false]
    rw [hlast', hnext, hlast]
    funext ref
    rw [Function.update_apply]
    by_cases href : ref = n
    · rw [if_pos href, if_pos (href ▸ Nat.lt_succ_self ref), href]
    · rw [if_neg href]
      by_cases hbefore : ref < n
      · rw [if_pos hbefore, if_pos (Nat.lt_succ_of_lt hbefore)]
      · rw [if_neg hbefore, if_neg (by omega)]

theorem scanInstrument_spec (hcons : s.Consistent) (instrument : Instrument) (scan : Scan) :
    SameEntries s (s.scanInstrument instrument scan) ∧ (s.scanInstrument instrument scan).Consistent ∧
      (s.scanInstrument instrument scan).lastPnl = s.lastScanned instrument scan := by
  obtain ⟨hsame, hconsistent, hlast⟩ := foldl_scanTrade_spec hcons instrument scan s.made.length
  refine ⟨hsame, hconsistent, hlast.trans (funext fun ref => ?_)⟩
  by_cases href : ref < s.made.length
  · rw [if_pos href]
  · rw [if_neg href, lastScanned, List.getElem?_eq_none (not_lt.mp href)]

theorem lastScanned_of_entry (hcons : s.Consistent) {tradeId : Nat} {entry : TradeEntry}
    (hentry : s.byId tradeId = some entry) (instrument : Instrument) (scan : Scan) :
    s.lastScanned instrument scan entry.ref
      = if entry.row.instrument = instrument then scan.fastPnL entry.row else s.lastPnl entry.ref := by
  obtain ⟨rfl, hmade⟩ := hcons.entries tradeId entry hentry
  rw [lastScanned, hmade]
  dsimp only
  refine if_congr ?_ rfl rfl
  rw [hcons.byInstrument instrument entry.row.id ⟨entry.ref, entry.row⟩]
  exact and_iff_right hentry

theorem lastScanned_of_not_holds (hcons : s.Consistent) {ref : Nat} (hunheld : ¬s.Holds ref)
    (instrument : Instrument) (scan : Scan) : s.lastScanned instrument scan ref = s.lastPnl ref := by
  rw [lastScanned]
  cases hrow : s.made[ref]? with
  | none => rfl
  | some row =>
    refine if_neg fun hbucket => hunheld ⟨row, hrow, ?_⟩
    exact ((hcons.byInstrument instrument row.id ⟨ref, row⟩).mp hbucket).1

end TradeIndex

/-! ### Many scans -/

namespace PricedIndex

variable {w : PricedIndex}

/-- What scanning some instruments has done. -/
structure Scanned (instruments : List Instrument) (w w' : PricedIndex) : Prop where
  fx : w'.fx = w.fx
  entries : w.index.SameEntries w'.index
  consistent : w'.index.Consistent
  unheld : ∀ ref, ¬w.index.Holds ref → w'.index.lastPnl ref = w.index.lastPnl ref
  found : ∀ tradeId, ∀ entry ∈ w.index.byId tradeId, entry.row.instrument ∈ instruments →
    ∀ scan ∈ w.fx.scan entry.row.instrument,
      w'.index.lastPnl entry.ref = scan.fastPnL entry.row ∧ w'.scans tradeId = some scan
  skipped : ∀ tradeId, ∀ entry ∈ w.index.byId tradeId,
    entry.row.instrument ∉ instruments ∨ w.fx.scan entry.row.instrument = none →
      w'.index.lastPnl entry.ref = w.index.lastPnl entry.ref ∧ w'.scans tradeId = w.scans tradeId

theorem scanned_nil (hcons : w.index.Consistent) : Scanned [] w w where
  fx := rfl
  entries := .refl _
  consistent := hcons
  unheld _ _ := rfl
  found _ _ _ hmem := absurd hmem List.not_mem_nil
  skipped _ _ _ _ := ⟨rfl, rfl⟩

theorem scanned_scanInstrument (hcons : w.index.Consistent) (instrument : Instrument) :
    Scanned [instrument] w (w.scanInstrument instrument) := by
  rw [scanInstrument]
  cases hscan : w.fx.scan instrument with
  | none =>
    obtain ⟨hfx, hentries, hconsistent, hunheld, -, hskipped⟩ := scanned_nil hcons
    refine ⟨hfx, hentries, hconsistent, hunheld, fun tradeId entry _ hmem scan hfound => ?_,
      fun tradeId entry hentry _ => hskipped tradeId entry hentry (.inl List.not_mem_nil)⟩
    rw [List.mem_singleton.mp hmem, hscan] at hfound
    cases hfound
  | some scan =>
    obtain ⟨hsame, hconsistent, hlast⟩ := TradeIndex.scanInstrument_spec hcons instrument scan
    refine ⟨rfl, hsame, hconsistent, fun ref hunheld => ?_, fun tradeId entry hentry hmem found hfound => ?_,
      fun tradeId entry hentry hskip => ?_⟩
    · exact (congrFun hlast ref).trans (TradeIndex.lastScanned_of_not_holds hcons hunheld instrument scan)
    · have hinstrument := List.mem_singleton.mp hmem
      obtain rfl : scan = found := Option.some.inj (hscan.symm.trans (hinstrument ▸ hfound))
      refine ⟨(congrFun hlast entry.ref).trans ?_, if_pos ?_⟩
      · rw [TradeIndex.lastScanned_of_entry hcons hentry, if_pos hinstrument]
      · rw [hentry]
        exact decide_eq_true hinstrument
    · have hother : entry.row.instrument ≠ instrument := by
        rintro rfl
        obtain hnot | hnone := hskip
        · exact hnot List.mem_cons_self
        · rw [hscan] at hnone
          cases hnone
      refine ⟨(congrFun hlast entry.ref).trans ?_, if_neg ?_⟩
      · rw [TradeIndex.lastScanned_of_entry hcons hentry, if_neg hother]
      · rw [hentry]
        exact fun htest => hother (of_decide_eq_true htest)

theorem Scanned.holds_iff {instruments : List Instrument} {w' : PricedIndex}
    (hscanned : Scanned instruments w w') (ref : Nat) : w'.index.Holds ref ↔ w.index.Holds ref := by
  rw [TradeIndex.Holds, TradeIndex.Holds, hscanned.entries.made, hscanned.entries.byId]

/-- One more instrument at the front. -/
theorem Scanned.cons {instrument : Instrument} {instruments : List Instrument} {w' w'' : PricedIndex}
    (hfirst : Scanned [instrument] w w') (hrest : Scanned instruments w' w'') :
    Scanned (instrument :: instruments) w w'' := by
  have hfx := hfirst.fx
  have hbyId := hfirst.entries.byId
  refine ⟨hrest.fx.trans hfx, hfirst.entries.trans hrest.entries, hrest.consistent, fun ref hunheld => ?_,
    fun tradeId entry hentry hmem scan hscan => ?_, fun tradeId entry hentry hskip => ?_⟩
  · rw [hrest.unheld ref (mt (hfirst.holds_iff ref).mp hunheld), hfirst.unheld ref hunheld]
  · by_cases hlater : entry.row.instrument ∈ instruments
    · exact hrest.found tradeId entry (hbyId ▸ hentry) hlater scan (hfx ▸ hscan)
    · have hhere : entry.row.instrument = instrument :=
        (List.mem_cons.mp hmem).resolve_right hlater
      obtain ⟨hlast, hscans⟩ :=
        hfirst.found tradeId entry hentry (List.mem_singleton.mpr hhere) scan hscan
      obtain ⟨hkept, hkeptScans⟩ := hrest.skipped tradeId entry (hbyId ▸ hentry) (.inl hlater)
      exact ⟨hkept.trans hlast, hkeptScans.trans hscans⟩
  · have hskipFirst : entry.row.instrument ∉ [instrument] ∨ w.fx.scan entry.row.instrument = none :=
      hskip.imp_left fun hnot hmem =>
        hnot (List.mem_cons.mpr (.inl (List.mem_singleton.mp hmem)))
    have hskipRest : entry.row.instrument ∉ instruments ∨ w'.fx.scan entry.row.instrument = none :=
      hskip.imp (fun hnot hmem => hnot (List.mem_cons_of_mem instrument hmem)) fun hnone => hfx ▸ hnone
    obtain ⟨hlast, hscans⟩ := hfirst.skipped tradeId entry hentry hskipFirst
    obtain ⟨hkept, hkeptScans⟩ := hrest.skipped tradeId entry (hbyId ▸ hentry) hskipRest
    exact ⟨hkept.trans hlast, hkeptScans.trans hscans⟩

theorem scanned_runTick (hcons : w.index.Consistent) (instruments : List Instrument) :
    Scanned instruments w (w.runTick instruments) := by
  induction instruments generalizing w with
  | nil => exact scanned_nil hcons
  | cons instrument instruments ih =>
    have hfirst := scanned_scanInstrument hcons instrument
    exact hfirst.cons (ih hfirst.consistent)

/-! ### Last profits -/

/-- Every trade's last profit is the one at its last scan, and zero before the first one. -/
structure Priced (w : PricedIndex) : Prop where
  consistent : w.index.Consistent
  lastPnl : ∀ tradeId, ∀ entry ∈ w.index.byId tradeId,
    w.index.lastPnl entry.ref = (w.scans tradeId).elim 0 fun scan => scan.fastPnL entry.row

theorem Priced.pnlOf_eq (hpriced : w.Priced) : w.index.pnlOf = w.scannedPnl := by
  funext tradeId
  rw [TradeIndex.pnlOf, scannedPnl]
  cases hentry : w.index.byId tradeId with
  | none => rfl
  | some entry => exact hpriced.lastPnl tradeId entry hentry

theorem Priced.total (hpriced : w.Priced) {accountId : Nat} {a : LoadedAccount}
    (ha : w.index.byAccount accountId = some a) : a.floatingPnl = (a.tradeIds.map w.scannedPnl).sum := by
  rw [← hpriced.pnlOf_eq]
  exact (hpriced.consistent.accounts accountId a ha).floatingPnl

theorem Priced.runTick (hpriced : w.Priced) (instruments : List Instrument) :
    (w.runTick instruments).Priced := by
  have hscanned := scanned_runTick hpriced.consistent instruments
  refine ⟨hscanned.consistent, fun tradeId entry hentry => ?_⟩
  rw [hscanned.entries.byId] at hentry
  by_cases hskip : entry.row.instrument ∉ instruments ∨ w.fx.scan entry.row.instrument = none
  · obtain ⟨hlast, hscans⟩ := hscanned.skipped tradeId entry hentry hskip
    rw [hlast, hscans]
    exact hpriced.lastPnl tradeId entry hentry
  · rw [not_or, not_not] at hskip
    obtain ⟨scan, hscan⟩ := Option.ne_none_iff_exists'.mp hskip.2
    obtain ⟨hlast, hscans⟩ := hscanned.found tradeId entry hentry hskip.1 scan hscan
    rw [hlast, hscans, Option.elim_some]

/-- The state that `reseedFloatingPnl` starts its scan from. -/
def zeroed (w : PricedIndex) : PricedIndex := { w with index := w.index.resetFloatingPnl }

theorem scanned_reseedFloatingPnl (hcons : w.index.Consistent) :
    Scanned Instrument.all w.zeroed w.reseedFloatingPnl :=
  scanned_runTick (w := w.zeroed) (TradeIndex.resetFloatingPnl_consistent hcons) Instrument.all

/-- A reseed leaves the profit at the present price, and zero where there is none. -/
theorem reseedFloatingPnl_lastPnl (hcons : w.index.Consistent) {tradeId : Nat} {entry : TradeEntry}
    (hentry : w.index.byId tradeId = some entry) :
    w.reseedFloatingPnl.index.lastPnl entry.ref
        = (w.fx.scan entry.row.instrument).elim 0 (fun scan => scan.fastPnL entry.row) ∧
      w.reseedFloatingPnl.scans tradeId
        = (w.fx.scan entry.row.instrument).elim (w.scans tradeId) some := by
  have hscanned := scanned_reseedFloatingPnl hcons
  cases hscan : w.fx.scan entry.row.instrument with
  | none =>
    obtain ⟨hlast, hscans⟩ := hscanned.skipped tradeId entry hentry (.inr hscan)
    exact ⟨hlast.trans (TradeIndex.resetFloatingPnl_lastPnl_of_entry hcons hentry), hscans⟩
  | some scan => exact hscanned.found tradeId entry hentry (Instrument.mem_all _) scan hscan

theorem Priced.reseedFloatingPnl (hpriced : w.Priced)
    (havailable : ∀ tradeId, ∀ entry ∈ w.index.byId tradeId,
      w.scans tradeId ≠ none → w.fx.scan entry.row.instrument ≠ none) :
    w.reseedFloatingPnl.Priced := by
  have hscanned := scanned_reseedFloatingPnl hpriced.consistent
  refine ⟨hscanned.consistent, fun tradeId entry hentry => ?_⟩
  rw [hscanned.entries.byId] at hentry
  obtain ⟨hlast, hscans⟩ := reseedFloatingPnl_lastPnl hpriced.consistent hentry
  rw [hlast, hscans]
  cases hscan : w.fx.scan entry.row.instrument with
  | some scan => rfl
  | none =>
    have hunscanned : w.scans tradeId = none :=
      not_not.mp fun hscanned => havailable tradeId entry hentry hscanned hscan
    rw [Option.elim_none, Option.elim_none, hunscanned, Option.elim_none]

theorem scan_eq_of_same (hquotes : w.SameQuotes) (hrates : w.SameRates) {tradeId : Nat}
    {entry : TradeEntry} (hentry : w.index.byId tradeId = some entry) :
    w.fx.scan entry.row.instrument = w.scans tradeId := by
  have hquote := hquotes tradeId entry hentry
  rw [FxSource.scan, ← hquote]
  cases hscan : w.scans tradeId with
  | none => rfl
  | some scan =>
    rw [hrates tradeId entry hentry scan hscan]
    rfl

/-- At the quotes and rates of the last scans there is nothing to correct. -/
theorem Priced.reseed_eq (hpriced : w.Priced) (hquotes : w.SameQuotes) (hrates : w.SameRates) :
    w.reseedFloatingPnl.index = w.index := by
  have hcons := hpriced.consistent
  have hscanned := scanned_reseedFloatingPnl hcons
  have hsame : w.index.SameEntries w.reseedFloatingPnl.index :=
    (TradeIndex.resetFloatingPnl_sameEntries w.index).trans hscanned.entries
  refine hsame.eq_of_lastPnl hcons hscanned.consistent (funext fun ref => ?_)
  by_cases hheld : w.index.Holds ref
  · obtain ⟨row, _, hentry⟩ := hheld
    rw [(reseedFloatingPnl_lastPnl hcons hentry).1, scan_eq_of_same hquotes hrates hentry]
    exact (hpriced.lastPnl row.id ⟨ref, row⟩ hentry).symm
  · have hunheld : ¬w.zeroed.index.Holds ref := hheld
    exact (hscanned.unheld ref hunheld).trans (TradeIndex.resetFloatingPnl_lastPnl_of_not_holds hheld)

end PricedIndex

/-! ### Runs -/

namespace TradeIndex

variable {s s' s'' : TradeIndex}

/-- What is indexed afterwards was indexed before, with the same last profit. -/
def Survives (s s' : TradeIndex) : Prop :=
  ∀ tradeId, ∀ entry ∈ s'.byId tradeId, entry ∈ s.byId tradeId ∧ s'.lastPnl entry.ref = s.lastPnl entry.ref

theorem Survives.of_eq (hbyId : s'.byId = s.byId) (hlast : s'.lastPnl = s.lastPnl) : Survives s s' :=
  fun _ entry hentry => ⟨hbyId ▸ hentry, congrFun hlast entry.ref⟩

theorem Survives.trans (hfirst : Survives s s') (hsecond : Survives s' s'') : Survives s s'' := by
  intro tradeId entry hentry
  obtain ⟨hbetween, hlast⟩ := hsecond tradeId entry hentry
  obtain ⟨hbefore, hlast'⟩ := hfirst tradeId entry hbetween
  exact ⟨hbefore, hlast.trans hlast'⟩

theorem removeTrade_survives (hcons : s.Consistent) (tradeId : Nat) : Survives s (s.removeTrade tradeId) := by
  rw [removeTrade]
  cases hremoved : s.byId tradeId with
  | none => exact .of_eq rfl rfl
  | some removed =>
    have hkeeps : ∀ id, ∀ entry ∈ Function.update s.byId tradeId none id,
        entry ∈ s.byId id ∧ id ≠ tradeId := by
      intro id entry hentry
      rw [Option.mem_def, Function.update_apply] at hentry
      by_cases hid : id = tradeId
      · rw [if_pos hid] at hentry
        cases hentry
      · rw [if_neg hid] at hentry
        exact ⟨hentry, hid⟩
    dsimp only
    cases s.byAccount removed.row.accountId with
    | none => exact fun id entry hentry => ⟨(hkeeps id entry hentry).1, rfl⟩
    | some _ =>
      intro id entry hentry
      obtain ⟨hbefore, hid⟩ := hkeeps id entry hentry
      refine ⟨hbefore, Function.update_of_ne (fun href => hid ?_) ..⟩
      exact hcons.ref_inj hbefore hremoved href

theorem removePending_survives (s : TradeIndex) (orderId : Nat) :
    Survives s (s.removePending orderId) := by
  rw [removePending]
  cases s.pendingById orderId with
  | none => exact .of_eq rfl rfl
  | some _ => exact .of_eq rfl rfl

theorem foldl_survives {remove : TradeIndex → Nat → TradeIndex}
    (hconsistent : ∀ s : TradeIndex, s.Consistent → ∀ id, (remove s id).Consistent)
    (hremove : ∀ s : TradeIndex, s.Consistent → ∀ id, Survives s (remove s id)) (ids : List Nat)
    (hcons : s.Consistent) : Survives s (ids.foldl remove s) := by
  induction ids generalizing s with
  | nil => exact .of_eq rfl rfl
  | cons id ids ih => exact (hremove s hcons id).trans (ih (hconsistent s hcons id))

theorem removeAccount_survives (hcons : s.Consistent) (accountId : Nat) :
    Survives s (s.removeAccount accountId) := by
  rw [removeAccount]
  cases s.byAccount accountId with
  | none => exact .of_eq rfl rfl
  | some account =>
    have htrades := foldl_survives (fun _ h => removeTrade_consistent h)
      (fun _ h => removeTrade_survives h) account.tradeIds hcons
    have hmiddle := foldl_consistent (fun _ h => removeTrade_consistent h) account.tradeIds s hcons
    have hpending := foldl_survives (fun _ h => removePending_consistent h)
      (fun s _ => removePending_survives s) account.pendingIds hmiddle
    exact htrades.trans hpending

/-- The entry of a row that is added is the next one, and starts from zero. -/
theorem addTrade_spec (s : TradeIndex) (row : Trade) (accountRow : Option Account) :
    (s.addTrade row accountRow).made = s.made ++ [row] ∧
      (s.addTrade row accountRow).byId
        = Function.update s.byId row.id (some ⟨s.made.length, row⟩) ∧
      (s.addTrade row accountRow).lastPnl = Function.update s.lastPnl s.made.length 0 := by
  have hloaded : (accountRow.elim s s.upsertAccount).made = s.made ∧
      (accountRow.elim s s.upsertAccount).byId = s.byId ∧
      (accountRow.elim s s.upsertAccount).lastPnl = s.lastPnl := by
    cases accountRow <;> exact ⟨rfl, rfl, rfl⟩
  obtain ⟨hmade, hlast, hbyId, _⟩ := (accountRow.elim s s.upsertAccount).withdrawPrevious_rest row
  rw [hloaded.1] at hmade
  rw [hloaded.2.1] at hbyId
  rw [hloaded.2.2] at hlast
  simp only [addTrade, install, withAccount, hmade, hbyId, hlast, and_self]

end TradeIndex

namespace PricedIndex

variable {w : PricedIndex}

theorem Priced.survives (hpriced : w.Priced) {index : TradeIndex} (hcons : index.Consistent)
    (hsurvives : w.index.Survives index) : Priced { w with index := index } := by
  refine ⟨hcons, fun tradeId entry hentry => ?_⟩
  obtain ⟨hbefore, hlast⟩ := hsurvives tradeId entry hentry
  exact hlast.trans (hpriced.lastPnl tradeId entry hbefore)

/-- Adding a trade is right as far as it forgets the trade's last scan. -/
theorem Priced.addTrade (hpriced : w.Priced) {row : Trade} {accountRow : Option Account}
    (hcareful : w.index.Careful (.addTrade row accountRow)) :
    Priced { w.addTrade row accountRow with scans := Function.update w.scans row.id none } := by
  obtain ⟨hmade, hbyId, hlast⟩ := w.index.addTrade_spec row accountRow
  refine ⟨TradeIndex.step_consistent hpriced.consistent hcareful rfl, fun tradeId entry hentry => ?_⟩
  dsimp only [PricedIndex.addTrade] at hentry ⊢
  rw [hbyId, Option.mem_def, Function.update_apply] at hentry
  rw [hlast]
  by_cases hid : tradeId = row.id
  · rw [if_pos hid] at hentry
    obtain rfl := Option.some.inj hentry
    rw [hid, Function.update_self, Function.update_self, Option.elim_none]
  · rw [if_neg hid] at hentry
    have hold : entry.ref < w.index.made.length :=
      (List.getElem?_eq_some_iff.mp (hpriced.consistent.entries tradeId entry hentry).2).1
    rw [Function.update_of_ne hold.ne, Function.update_of_ne hid]
    exact hpriced.lastPnl tradeId entry hentry

theorem Priced.applyTradePnl (hpriced : w.Priced) {ref : Nat} {scan : Scan}
    (hcareful : ∀ row ∈ w.index.made[ref]?, w.index.Careful (.applyTradePnl ref (scan.fastPnL row))) :
    (w.applyTradePnl ref scan).Priced := by
  rw [PricedIndex.applyTradePnl]
  cases hrow : w.index.made[ref]? with
  | none => exact hpriced
  | some row =>
    have hcons := TradeIndex.step_consistent hpriced.consistent (hcareful row hrow) rfl
    refine ⟨hcons, fun tradeId entry hentry => ?_⟩
    dsimp only at hentry ⊢
    rw [(w.index.applyTradePnl_sameEntries ref _).byId] at hentry
    obtain ⟨hkey, hmade⟩ := hpriced.consistent.entries tradeId entry hentry
    rw [TradeIndex.applyTradePnl_lastPnl hrow, Function.update_apply]
    by_cases href : entry.ref = ref
    · -- the entry that is priced is the indexed one
      obtain rfl : row = entry.row := Option.some.inj (hrow.symm.trans (href ▸ hmade))
      have hheld : w.index.byId entry.row.id = some ⟨ref, entry.row⟩ := by
        rw [hkey, ← href]
        exact hentry
      rw [if_pos href, if_pos hheld, hkey, Function.update_self, Option.elim_some]
    · rw [if_neg href, hpriced.lastPnl tradeId entry hentry]
      split
      · rename_i hheld
        have hid : tradeId ≠ row.id := by
          rintro rfl
          exact href (congrArg TradeEntry.ref (Option.some.inj (hentry.symm.trans hheld)))
        rw [Function.update_of_ne hid]
      · rfl

theorem Priced.addOpenTradeToIndex (hpriced : w.Priced) {row : Trade} {accountRow : Option Account}
    (hcareful : w.index.Careful (.addTrade row accountRow))
    (hseeded : w.scans row.id = none ∨ w.fx.scan row.instrument ≠ none) :
    (w.addOpenTradeToIndex row accountRow).Priced := by
  have hadded := hpriced.addTrade hcareful
  rw [PricedIndex.addOpenTradeToIndex]
  cases hscan : w.fx.scan row.instrument with
  | none =>
    rw [← hseeded.resolve_right (not_not.mpr hscan), Function.update_eq_self] at hadded
    exact hadded
  | some scan =>
    obtain ⟨hmade, hbyId, _⟩ := w.index.addTrade_spec row accountRow
    have hrow : (w.addTrade row accountRow).index.made[w.index.made.length]? = some row := by
      rw [PricedIndex.addTrade, hmade, List.getElem?_concat_length]
    have hheld : (w.addTrade row accountRow).index.byId row.id = some ⟨w.index.made.length, row⟩ := by
      rw [PricedIndex.addTrade, hbyId, Function.update_self]
    have hholds : ∀ added ∈ (w.addTrade row accountRow).index.made[w.index.made.length]?,
        (w.addTrade row accountRow).index.Careful (.applyTradePnl w.index.made.length (scan.fastPnL added)) := by
      intro added hadded row' hrow'
      obtain rfl : row = row' := Option.some.inj (hrow.symm.trans hrow')
      exact .inl hheld
    have hpricedNow := hadded.applyTradePnl hholds
    rw [Option.elim_some, PricedIndex.applyTradePnl, hrow]
    rw [PricedIndex.applyTradePnl] at hpricedNow
    dsimp only at hpricedNow ⊢
    rw [hrow] at hpricedNow
    dsimp only at hpricedNow
    rw [if_pos hheld, Function.update_idem] at hpricedNow
    rw [if_pos hheld]
    exact hpricedNow

theorem Priced.step (hpriced : w.Priced) {action : PricedAction} {w' : PricedIndex}
    (hcareful : w.Careful action) (hstep : w.step action = some w') : w'.Priced := by
  have hcons := hpriced.consistent
  cases action with
  | priceUpdate fx =>
    cases hstep
    exact ⟨hcons, hpriced.lastPnl⟩
  | runTick instruments =>
    cases hstep
    exact hpriced.runTick instruments
  | addTrade row accountRow =>
    cases hstep
    have hadded := hpriced.addTrade hcareful.1
    rw [← hcareful.2, Function.update_eq_self] at hadded
    exact hadded
  | addOpenTradeToIndex row accountRow =>
    cases hstep
    exact hpriced.addOpenTradeToIndex hcareful.1 hcareful.2
  | applyTradePnl ref scan =>
    cases hstep
    exact hpriced.applyTradePnl hcareful
  | removeTrade tradeId =>
    cases hstep
    exact hpriced.survives (TradeIndex.removeTrade_consistent hcons tradeId)
      (TradeIndex.removeTrade_survives hcons tradeId)
  | addPending row accountRow =>
    cases hstep
    have hindex : w.index.Careful (.addPending row accountRow) := hcareful
    refine hpriced.survives (TradeIndex.step_consistent hcons hindex rfl) (.of_eq ?_ ?_)
    · cases accountRow <;> rfl
    · cases accountRow <;> rfl
  | removePending orderId =>
    cases hstep
    exact hpriced.survives (TradeIndex.removePending_consistent hcons orderId)
      (w.index.removePending_survives orderId)
  | upsertAccount row =>
    cases hstep
    exact hpriced.survives (TradeIndex.upsertAccount_consistent hcons hcareful) (.of_eq rfl rfl)
  | removeAccount accountId =>
    cases hstep
    exact hpriced.survives (TradeIndex.removeAccount_consistent hcons accountId)
      (TradeIndex.removeAccount_survives hcons accountId)
  | reseedFloatingPnl =>
    rw [PricedIndex.step, Option.some.injEq] at hstep
    subst hstep
    exact hpriced.reseedFloatingPnl hcareful

theorem priced_of_reach {start : FxSource} (hreach : Reach step Careful (· = boot start) w) : w.Priced := by
  refine hreach.invariant ?_ fun _ _ _ hpriced hcareful hstep => hpriced.step hcareful hstep
  rintro w rfl
  exact ⟨TradeIndex.empty_consistent, fun _ _ => nofun⟩

/-- Where every trade keeps the profit it was last scanned at, the totals are exact, and a reseed has
nothing to correct as long as the rates are as old as the quotes. -/
theorem floatingExact_of_reach {start : FxSource} (hreach : Reach step Careful (· = boot start) w)
    (hrates : w.SameQuotes → w.SameRates) : w.FloatingExact := by
  have hpriced := priced_of_reach hreach
  refine ⟨fun _ _ ha => hpriced.total ha, fun hquotes => hpriced.reseed_eq hquotes (hrates hquotes), ?_, ?_⟩
  · intro fx direction openPrice closePrice lots instrument commission rate hrate
    exact parity fx direction openPrice closePrice lots instrument commission hrate
  · intro accountId a ha base limit
    have hclose := abs_le.mp (w.abs_scanned_sub_confirmed_le a.tradeIds)
    rw [← hpriced.total ha] at hclose
    obtain ⟨hbelow, habove⟩ := hclose
    refine ⟨fun hbreached => ?_, fun hpassed => ?_⟩
    · linarith only [habove, hbreached]
    · linarith only [hbelow, hpassed]

end PricedIndex

namespace PricedIndex

/-- Dollar pairs only: everything at one price, and nothing to convert. -/
def flatMarket : FxSource := ⟨false, 39 / 5, quotedAt (221 / 200)⟩

/-- A trade that is seeded as it opens, and scanned again. -/
def seeded : List PricedAction :=
  [.addOpenTradeToIndex TradeIndex.longOne (some (sampleTerms.provision 1)), .runTick [.eurusd]]

theorem addOpenTradeToIndex_byId (w : PricedIndex) (row : Trade) (accountRow : Option Account) :
    (w.addOpenTradeToIndex row accountRow).index.byId
      = Function.update w.index.byId row.id (some ⟨w.index.made.length, row⟩) := by
  obtain ⟨hmade, hbyId, _⟩ := w.index.addTrade_spec row accountRow
  rw [addOpenTradeToIndex]
  cases w.fx.scan row.instrument with
  | none => exact hbyId
  | some scan =>
    rw [Option.elim_some, applyTradePnl, addTrade, hmade, List.getElem?_concat_length]
    exact (TradeIndex.applyTradePnl_sameEntries ..).byId.trans hbyId

theorem floatingExact_seeded : ∃ w a, run step (boot flatMarket) seeded = some w ∧
    w.index.byAccount 1 = some a ∧ a.tradeIds = [7] ∧ a.floatingPnl = 493 ∧ w.FloatingExact := by
  obtain ⟨w, hrun, htest⟩ := exists_of_run_any step (boot flatMarket) seeded
    (fun w => (w.index.byAccount 1).any fun a =>
      a.tradeIds = [7] ∧ a.floatingPnl = 493 ∧ ∀ scan ∈ w.scans 7, scan.usdRate = 1) (by decide +kernel)
  obtain ⟨a, ha, htest⟩ := (Option.any_eq_true _ _).mp htest
  obtain ⟨hids, hfloating, hrate⟩ := of_decide_eq_true htest
  have hopens : (boot flatMarket).Careful
      (.addOpenTradeToIndex TradeIndex.longOne (some (sampleTerms.provision 1))) := by
    refine ⟨⟨fun account _ => TradeIndex.empty_loadable account, fun previous hprevious => ?_⟩, .inl rfl⟩
    cases hprevious
  have hcareful : RunOk step Careful (boot flatMarket) seeded :=
    ⟨hopens, fun _ _ => ⟨trivial, fun _ _ => trivial⟩⟩
  have hboot : Reach step Careful (· = boot flatMarket) (boot flatMarket) := .init rfl
  have hreach := hboot.of_run hcareful hrun
  refine ⟨w, a, hrun, ha, hids, hfloating, floatingExact_of_reach hreach fun _ => ?_⟩
  intro tradeId entry hentry scan hscan
  cases hrun
  have hopened := (priced_of_reach hboot).step hopens rfl
  rw [(scanned_runTick hopened.consistent [.eurusd]).entries.byId, addOpenTradeToIndex_byId,
    Option.mem_def, Function.update_apply] at hentry
  by_cases hid : tradeId = TradeIndex.longOne.id
  · rw [hid] at hscan
    rw [hrate scan hscan]
    rfl
  · rw [if_neg hid] at hentry
    cases hentry

/-- A scanned trade that is indexed again drops out of the total. -/
def indexedAgain : List PricedAction :=
  [.addOpenTradeToIndex TradeIndex.longOne (some (sampleTerms.provision 1)),
    .addTrade TradeIndex.longOne none]

theorem indexedAgain_not_floatingExact : ∃ w a, run step (boot flatMarket) indexedAgain = some w ∧
    w.index.byAccount 1 = some a ∧ a.floatingPnl = 0 ∧ (a.tradeIds.map w.scannedPnl).sum = 493 ∧
    ¬w.FloatingExact := by
  obtain ⟨w, hrun, htest⟩ := exists_of_run_any step (boot flatMarket) indexedAgain
    (fun w => (w.index.byAccount 1).any fun a =>
      a.floatingPnl = 0 ∧ (a.tradeIds.map w.scannedPnl).sum = 493) (by decide +kernel)
  obtain ⟨a, ha, htest⟩ := (Option.any_eq_true _ _).mp htest
  obtain ⟨hfloating, hsum⟩ := of_decide_eq_true htest
  refine ⟨w, a, hrun, ha, hfloating, hsum, fun hexact => ?_⟩
  have htotal := hexact.total 1 a ha
  rw [hfloating, hsum] at htotal
  norm_num at htotal

/-- Pounds at a rate of their own, which a EURGBP trade converts at. -/
def poundsAt (rate : ℚ) : FxSource :=
  ⟨true, 39 / 5, fun instrument => if instrument = .gbpusd then some (quoteAt rate) else
    some (quoteAt (221 / 200))⟩

/-- The tick that moves GBPUSD leaves EURGBP where it was. -/
def rateMoves : List PricedAction :=
  [.addOpenTradeToIndex { TradeIndex.longOne with instrument := .eurgbp } (some (sampleTerms.provision 1)),
    .priceUpdate (poundsAt (3 / 2)), .runTick [.gbpusd]]

theorem reseed_moves_crossPair : ∃ w a a', run step (boot (poundsAt (5 / 4))) rateMoves = some w ∧
    w.fx.cache .eurgbp = (w.scans 7).map Scan.price ∧
    w.index.byAccount 1 = some a ∧ w.reseedFloatingPnl.index.byAccount 1 = some a' ∧
    a.floatingPnl = 618 ∧ a'.floatingPnl = 743 := by
  obtain ⟨w, hrun, htest⟩ := exists_of_run_any step (boot (poundsAt (5 / 4))) rateMoves
    (fun w => w.fx.cache .eurgbp = (w.scans 7).map Scan.price ∧
      (w.index.byAccount 1).any fun a => (w.reseedFloatingPnl.index.byAccount 1).any fun a' =>
        a.floatingPnl = 618 ∧ a'.floatingPnl = 743) (by decide +kernel)
  obtain ⟨hquote, htest⟩ := of_decide_eq_true htest
  obtain ⟨a, ha, htest⟩ := (Option.any_eq_true _ _).mp htest
  obtain ⟨a', ha', htest⟩ := (Option.any_eq_true _ _).mp htest
  obtain ⟨hbefore, hafter⟩ := of_decide_eq_true htest
  exact ⟨w, a, a', hrun, hquote, ha, ha', hbefore, hafter⟩

end PricedIndex

end PropFirm
