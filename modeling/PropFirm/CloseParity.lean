import PropFirm.AdminOverrides

/-!
# What the close paths book

Every path that closes a position at a price books what `calculatePnL` gives for the row, except the
two admin force closes: they take the gross profit without a dollar rate, round it to cents, and
subtract the commission afterwards. Without a usable price the paths that settle a position at all
book nothing, except the admin ones, which book the commission.
-/

namespace PropFirm

inductive ClosePath
  | closeTradeHandler
  | batchActionHandler (action : BatchTradeAction)
  | checkSLTP
  | closeTriggeredTrades
  | weekendClose
  | flatByClose
  | newsClose
  | settle (kind : SettleKind)
  | forceCloseOpenTradesForAccount
  | forceCloseTradeById
  deriving DecidableEq

def ClosePath.admin : ClosePath → Bool
  | forceCloseOpenTradesForAccount | forceCloseTradeById => true
  | _ => false

/-- The closings a statement writes. -/
def Stmt.closings : Stmt → List Closing
  | closeTrades closings _ _ => closings
  | splitTrade _ c _ _ => [c]
  | _ => []

def closingsIn (stmts : List Stmt) : List Closing := stmts.flatMap Stmt.closings

/-- The path, run where the row is `t`, closes it whole and books `pnl`: at the given close price, or
with no usable price. -/
inductive Books (fx : FxSource) (t : Trade) : ClosePath → Option ℚ → Cents → Prop
  | closeTradeHandler {db : Db} {closePrice minLotSize : ℚ} {partId now : Nat} {stmts : List Stmt}
      {c : Closing} (hrow : db.trade? t.id = some t)
      (hclose : closeTradeHandler fx db t.id none closePrice minLotSize partId now = some stmts)
      (hc : c ∈ closingsIn stmts) : Books fx t .closeTradeHandler (some closePrice) c.pnl
  | batchActionHandler {action : BatchTradeAction} {seen db : Db} {price : Quote} {now : Nat}
      {stmts : List Stmt} {c : Closing} (hrow : seen.trade? t.id = some t)
      (hclose : batchClose action fx seen db t.id price now = some stmts) (hc : c ∈ closingsIn stmts) :
    Books fx t (.batchActionHandler action) (some (price.closeSide t.direction)) c.pnl
  | checkSLTP {seen db : Db} {price : Quote} {minHoldSeconds now : Nat} {stmts : List Stmt}
      {c : Closing} (hrow : seen.trade? t.id = some t)
      (hclose : checkSLTP fx seen db t.id price minHoldSeconds now = some stmts)
      (hc : c ∈ closingsIn stmts) : Books fx t .checkSLTP c.closePrice c.pnl
  | closeTriggeredTrades {db : Db} {lockedRows : List Nat} {candidates : List SlTpCandidate}
      {minHoldSeconds now : Nat} {stmts : List Stmt} {c : Closing}
      (hclose : closeTriggeredTrades fx db lockedRows candidates minHoldSeconds now = some stmts)
      (hc : c ∈ closingsIn stmts) (hrow : c.trade = t) :
    Books fx t .closeTriggeredTrades c.closePrice c.pnl
  | weekendClose {seen db : Db} {price : Quote} {now : Nat} {stmts : List Stmt} {c : Closing}
      (hrow : seen.trade? t.id = some t)
      (hclose : weekendClose fx seen db t.id price now = some stmts) (hc : c ∈ closingsIn stmts) :
    Books fx t .weekendClose (some (price.closeSide t.direction)) c.pnl
  | flatByClose {seen db : Db} {price : Quote} {now : Nat} {stmts : List Stmt} {c : Closing}
      (hrow : seen.trade? t.id = some t)
      (hclose : flatByClose fx seen db t.id price now = some stmts) (hc : c ∈ closingsIn stmts) :
    Books fx t .flatByClose (some (price.closeSide t.direction)) c.pnl
  | newsClose {seen db : Db} {price : Quote} {now : Nat} {stmts : List Stmt} {c : Closing}
      (hrow : seen.trade? t.id = some t)
      (hclose : newsClose fx seen db t.id price now = some stmts) (hc : c ∈ closingsIn stmts) :
    Books fx t .newsClose (some (price.closeSide t.direction)) c.pnl
  | settle {s : Settling} {stmts : List Stmt} {c : Closing} (hclose : s.statements fx = some stmts)
      (hc : c ∈ closingsIn stmts) (hrow : c.trade = t) :
    Books fx t (.settle s.kind) ((s.prices t.instrument).map (·.closeSide t.direction)) c.pnl
  | forceCloseOpenTradesForAccount {db : Db} {prices : Instrument → Option Quote} {now : Nat}
      {c : Closing} (hc : c ∈ closingsIn (forceCloseOpenTradesForAccount db t.accountId prices now))
      (hrow : c.trade = t) :
    Books fx t .forceCloseOpenTradesForAccount ((prices t.instrument).map (·.closeSide t.direction))
      c.pnl
  | forceCloseTradeById {db : Db} {livePrice : Option Quote} {now : Nat} {stmts : List Stmt}
      {c : Closing} (hrow : db.trade? t.id = some t)
      (hclose : forceCloseTradeById db t.id livePrice now = some stmts) (hc : c ∈ closingsIn stmts) :
    Books fx t .forceCloseTradeById (livePrice.map (·.closeSide t.direction)) c.pnl

/-! ### One lemma for each kind of path -/

/-- The profit in dollars before commission, in the quote currency. -/
def Trade.gross (t : Trade) (openPrice closePrice : ℚ) : ℚ :=
  (match t.direction with
    | .buy => closePrice - openPrice
    | .sell => openPrice - closePrice) * t.lotSize * t.instrument.contractSize

theorem pnlAtRate_eq (t : Trade) (openPrice closePrice rate : ℚ) (commission : Cents) :
    pnlAtRate t.direction openPrice closePrice t.lotSize t.instrument commission rate
      = toCents (t.gross openPrice closePrice * rate - commission.dollars) := rfl

theorem calcTradePnl_eq (t : Trade) (openPrice closePrice : ℚ) :
    calcTradePnl t.direction openPrice closePrice t.lotSize t.instrument
      = toCents (t.gross openPrice closePrice) := by
  rw [calcTradePnl, pnlAtRate_eq, Cents.dollars_zero, mul_one, sub_zero]

variable {fx : FxSource} {t : Trade} {openPrice : ℚ}

/-- What a closing at a rate books. -/
def BooksAtRate (fx : FxSource) (t : Trade) (openPrice : ℚ) (price : Option ℚ) (pnl : Cents) : Prop :=
  match price with
  | none => pnl = 0
  | some p => ∃ rate, getUsdRateForInstrument fx t.instrument = some rate ∧
      pnl = toCents (t.gross openPrice p * rate - t.commission.dollars)

/-- What an admin's closing books. -/
def BooksUnconverted (t : Trade) (openPrice : ℚ) (price : Option ℚ) (pnl : Cents) : Prop :=
  pnl = toCents (t.gross openPrice ((price.filter (· ≠ 0)).getD openPrice)) - t.commission

theorem priceClosing_books (hopen : t.openPrice = some openPrice) {closePrice : ℚ} {reason : String}
    {c : Closing} (hprice : priceClosing fx t closePrice reason = some c) :
    c.trade = t ∧ c.closePrice = some closePrice ∧
      BooksAtRate fx t openPrice (some closePrice) c.pnl := by
  obtain ⟨_, pnl, hopen', hpnl, rfl⟩ := priceClosing_spec hprice
  obtain rfl := Option.some.inj (hopen.symm.trans hopen')
  obtain ⟨rate, hrate, rfl⟩ := Option.map_eq_some_iff.mp hpnl
  exact ⟨rfl, rfl, rate, hrate, pnlAtRate_eq ..⟩

theorem closeFromSnapshot_books (hopen : t.openPrice = some openPrice) {db : Db} {closePrice : ℚ}
    {reason : String} {now : Nat} {clearDeferred : Bool} {stmts : List Stmt} {c : Closing}
    (hclose : closeFromSnapshot fx db t closePrice reason now clearDeferred = some stmts)
    (hc : c ∈ closingsIn stmts) :
    c.closePrice = some closePrice ∧ BooksAtRate fx t openPrice (some closePrice) c.pnl := by
  obtain ⟨row, closing, _, _, hprice, rfl⟩ := closeFromSnapshot_spec hclose
  simp only [closingsIn, List.flatMap_cons, List.flatMap_nil, Stmt.closings, List.append_nil,
    List.mem_singleton] at hc
  rw [hc]
  exact (priceClosing_books hopen hprice).2

theorem seenOpenTrade_row {seen : Db} {trade : Trade} (hrow : seen.trade? t.id = some t)
    (hseen : seenOpenTrade seen t.id = some trade) : trade = t := by
  obtain ⟨htrade, _⟩ := seenOpenTrade_eq_some.mp hseen
  rw [hrow] at htrade
  exact (Option.some.inj htrade).symm

theorem marketClose_books (hopen : t.openPrice = some openPrice) {reason : String} {seen db : Db}
    {price : Quote} {now : Nat} {stmts : List Stmt} {c : Closing} (hrow : seen.trade? t.id = some t)
    (hclose : marketClose reason fx seen db t.id price now = some stmts) (hc : c ∈ closingsIn stmts) :
    BooksAtRate fx t openPrice (some (price.closeSide t.direction)) c.pnl := by
  simp only [marketClose, Option.bind_eq_bind, Option.bind_eq_some_iff] at hclose
  obtain ⟨trade, hseen, hclose⟩ := hclose
  obtain rfl := seenOpenTrade_row hrow hseen
  exact (closeFromSnapshot_books hopen hclose hc).2

theorem settlementFor_books (hopen : t.openPrice = some openPrice) {price : Option Quote}
    {reason : String} {c : Closing} (hsettle : settlementFor fx price reason t = some c) :
    BooksAtRate fx t openPrice (price.map (·.closeSide t.direction)) c.pnl := by
  cases price with
  | none =>
    simp only [settlementFor, hopen, Option.map_some, Option.some.injEq] at hsettle
    rw [← hsettle]
    rfl
  | some price => exact (priceClosing_books hopen hsettle).2.2

theorem expireTrade_books (hopen : t.openPrice = some openPrice) {s : Settling} {c : Closing}
    (hexpire : s.expireTrade fx t = some c) :
    BooksAtRate fx t openPrice ((s.prices t.instrument).map (·.closeSide t.direction)) c.pnl := by
  unfold Settling.expireTrade at hexpire
  cases hprice : s.prices t.instrument with
  | none =>
    rw [hprice] at hexpire
    cases hexpire
    rfl
  | some price =>
    rw [hprice] at hexpire
    exact (priceClosing_books hopen hexpire).2.2

/-- The whole position takes its whole commission. -/
theorem partialCommission_whole (hlots : 0 < t.lotSize) :
    partialCommission t t.lotSize = t.commission := by
  rw [partialCommission, div_self hlots.ne', mul_one, toCents_dollars]

theorem closeTradeHandler_books (hopen : t.openPrice = some openPrice) {db : Db}
    {closePrice minLotSize : ℚ} {partId now : Nat} {stmts : List Stmt} {c : Closing}
    (hrow : db.trade? t.id = some t)
    (hclose : closeTradeHandler fx db t.id none closePrice minLotSize partId now = some stmts)
    (hc : c ∈ closingsIn stmts) : BooksAtRate fx t openPrice (some closePrice) c.pnl := by
  obtain ⟨locked, closing, hseen, ⟨hpos, _⟩, _, hprice, hstmts⟩ := closeTradeHandler_spec hclose
  obtain rfl := seenOpenTrade_row hrow hseen
  rw [Option.getD_none] at hpos hprice
  rw [partialCommission_whole hpos] at hprice
  have hcc : c = closing := by
    obtain ⟨-, rfl⟩ | ⟨-, rfl⟩ := hstmts
    · simpa [closingsIn, Stmt.closings] using hc
    · simpa [closingsIn, Stmt.closings] using hc
  rw [hcc]
  exact (priceClosing_books hopen hprice).2.2

theorem checkSLTP_books (hopen : t.openPrice = some openPrice) {seen db : Db} {price : Quote}
    {minHoldSeconds now : Nat} {stmts : List Stmt} {c : Closing} (hrow : seen.trade? t.id = some t)
    (hclose : checkSLTP fx seen db t.id price minHoldSeconds now = some stmts)
    (hc : c ∈ closingsIn stmts) : BooksAtRate fx t openPrice c.closePrice c.pnl := by
  obtain ⟨trade, hseen, ⟨level, reason, rfl⟩ | ⟨_, closePrice, reason, hsnapshot⟩⟩ :=
    checkSLTP_eq_some hclose
  · simp [closingsIn, Stmt.closings] at hc
  · obtain rfl := seenOpenTrade_row hrow hseen
    obtain ⟨hat, hbooks⟩ := closeFromSnapshot_books hopen hsnapshot hc
    exact hat ▸ hbooks

theorem closeTriggeredTrades_books (hopen : t.openPrice = some openPrice) {db : Db}
    {lockedRows : List Nat} {candidates : List SlTpCandidate} {minHoldSeconds now : Nat}
    {stmts : List Stmt} {c : Closing}
    (hclose : closeTriggeredTrades fx db lockedRows candidates minHoldSeconds now = some stmts)
    (hc : c ∈ closingsIn stmts) (hrow : c.trade = t) : BooksAtRate fx t openPrice c.closePrice c.pnl := by
  obtain ⟨closings, hmap, rfl⟩ := closeTriggeredTrades_spec hclose
  have hmem : c ∈ closings := by simpa [closingsIn, Stmt.closings] using hc
  obtain ⟨candidate, _, hprice⟩ := List.exists_of_mem_mapM hmap hmem
  obtain rfl : candidate.trade = t := (priceClosing_eq_some hprice).1.symm.trans hrow
  obtain ⟨_, hat, hbooks⟩ := priceClosing_books hopen hprice
  exact hat ▸ hbooks

theorem closingsIn_statements {s : Settling} {stmts : List Stmt} (hstmts : s.statements fx = some stmts)
    {c : Closing} (hc : c ∈ closingsIn stmts) :
    s.kind ≠ .passAccount ∧ ∃ closings, s.closings fx = some closings ∧ c ∈ closings := by
  rcases Settling.statements_eq_some hstmts with ⟨_, rfl⟩ | ⟨hkind, closings, hclosings, rfl⟩
  · simp [closingsIn, Stmt.closings] at hc
  · refine ⟨hkind, closings, hclosings, ?_⟩
    rw [closingsIn, List.mem_flatMap] at hc
    obtain ⟨stmt, hstmt, hc⟩ := hc
    simp only [Settling.credit, List.mem_append, List.mem_cons, List.mem_map, List.not_mem_nil,
      or_false] at hstmt
    rcases hstmt with (⟨_, _, rfl⟩ | rfl | hcredit) | rfl | rfl
    · cases hc
    · exact hc
    · split at hcredit
      · cases hcredit
      · rw [List.mem_singleton] at hcredit
        rw [hcredit] at hc
        cases hc
    · cases hc
    · cases hc

theorem settle_books (hopen : t.openPrice = some openPrice) {s : Settling} {stmts : List Stmt}
    {c : Closing} (hstmts : s.statements fx = some stmts) (hc : c ∈ closingsIn stmts)
    (hrow : c.trade = t) :
    BooksAtRate fx t openPrice ((s.prices t.instrument).map (·.closeSide t.direction)) c.pnl := by
  obtain ⟨hkind, closings, hclosings, hmem⟩ := closingsIn_statements hstmts hc
  unfold Settling.closings at hclosings
  split at hclosings
  · rename_i hpass
    exact absurd hpass hkind
  · cases hclosings
    obtain ⟨trade, _, hexpire⟩ := List.mem_filterMap.mp hmem
    obtain rfl : trade = t := (Settling.expireTrade_eq_some hexpire).1.symm.trans hrow
    exact expireTrade_books hopen hexpire
  · obtain ⟨trade, _, hsettle⟩ := List.exists_of_mem_mapM hclosings hmem
    obtain rfl : trade = t := (settlementFor_eq_some hsettle).1.symm.trans hrow
    exact settlementFor_books hopen hsettle

theorem livePriceOr_eq (livePrice : Option Quote) (direction : Direction) (openPrice : ℚ) :
    livePriceOr livePrice direction openPrice
      = ((livePrice.map (·.closeSide direction)).filter (· ≠ 0)).getD openPrice := rfl

theorem forceCloseOpenTradesForAccount_books (hopen : t.openPrice = some openPrice) {db : Db}
    {accountId : Nat} {prices : Instrument → Option Quote} {now : Nat} {c : Closing}
    (hc : c ∈ closingsIn (forceCloseOpenTradesForAccount db accountId prices now))
    (hrow : c.trade = t) :
    BooksUnconverted t openPrice ((prices t.instrument).map (·.closeSide t.direction)) c.pnl := by
  unfold forceCloseOpenTradesForAccount at hc
  dsimp only at hc
  split at hc
  · cases hc
  · simp only [closingsIn, List.flatMap_cons, List.flatMap_nil, Stmt.closings, List.append_nil,
      List.mem_map] at hc
    obtain ⟨trade, _, rfl⟩ := hc
    obtain rfl : trade = t := hrow
    simp only [forceCloseClosing, hopen, Option.getD_some]
    rw [BooksUnconverted, calcTradePnl_eq, livePriceOr_eq]

theorem forceCloseTradeById_books (hopen : t.openPrice = some openPrice) {db : Db}
    {livePrice : Option Quote} {now : Nat} {stmts : List Stmt} {c : Closing}
    (hrow : db.trade? t.id = some t)
    (hclose : forceCloseTradeById db t.id livePrice now = some stmts) (hc : c ∈ closingsIn stmts) :
    BooksUnconverted t openPrice (livePrice.map (·.closeSide t.direction)) c.pnl := by
  obtain ⟨locked, price, hseen, hprice, rfl⟩ := forceCloseTradeById_spec hclose
  obtain rfl := seenOpenTrade_row hrow hseen
  rw [hopen, Option.some.injEq] at hprice
  subst hprice
  simp only [closingsIn, List.flatMap_cons, List.flatMap_nil, Stmt.closings, List.append_nil,
    List.mem_singleton] at hc
  rw [hc, BooksUnconverted, calcTradePnl_eq, livePriceOr_eq]

theorem Books.atRate (hopen : t.openPrice = some openPrice) {path : ClosePath} {price : Option ℚ}
    {pnl : Cents} (hbooks : Books fx t path price pnl) (hpath : path.admin = false) :
    BooksAtRate fx t openPrice price pnl := by
  cases hbooks with
  | closeTradeHandler hrow hclose hc => exact closeTradeHandler_books hopen hrow hclose hc
  | batchActionHandler hrow hclose hc =>
    simp only [batchClose, Option.bind_eq_bind, Option.bind_eq_some_iff, Option.guard_eq_some',
      exists_const] at hclose
    obtain ⟨trade, hseen, _, _, _, hclose⟩ := hclose
    obtain rfl := seenOpenTrade_row hrow hseen
    exact (closeFromSnapshot_books hopen hclose hc).2
  | checkSLTP hrow hclose hc => exact checkSLTP_books hopen hrow hclose hc
  | closeTriggeredTrades hclose hc hrow => exact closeTriggeredTrades_books hopen hclose hc hrow
  | weekendClose hrow hclose hc | flatByClose hrow hclose hc | newsClose hrow hclose hc =>
    exact marketClose_books hopen hrow hclose hc
  | settle hclose hc hrow => exact settle_books hopen hclose hc hrow
  | forceCloseOpenTradesForAccount | forceCloseTradeById => cases hpath

theorem Books.unconverted (hopen : t.openPrice = some openPrice) {path : ClosePath} {price : Option ℚ}
    {pnl : Cents} (hbooks : Books fx t path price pnl) (hpath : path.admin = true) :
    BooksUnconverted t openPrice price pnl := by
  cases hbooks with
  | forceCloseOpenTradesForAccount hc hrow =>
    exact forceCloseOpenTradesForAccount_books hopen hc hrow
  | forceCloseTradeById hrow hclose hc => exact forceCloseTradeById_books hopen hrow hclose hc
  | _ => cases hpath

/-! ### All paths together -/

/-- Whichever path closes the row at this price, it books the same. -/
def SameMoney (fx : FxSource) (t : Trade) (price : Option ℚ) : Prop :=
  ∀ path path' pnl pnl', Books fx t path price pnl → Books fx t path' price pnl' → pnl = pnl'

/-- At the instrument's dollar rate the gross profit comes, after the commission, to the same cents as
it does without a rate before the commission; without a price there is no commission. -/
def Trade.ConvertsAlike (fx : FxSource) (t : Trade) (openPrice : ℚ) (price : Option ℚ) : Prop :=
  match price with
  | some p => ∀ rate, getUsdRateForInstrument fx t.instrument = some rate →
      toCents (t.gross openPrice p * rate - t.commission.dollars)
        = toCents (t.gross openPrice (if p = 0 then openPrice else p)) - t.commission
  | none => t.commission = 0

theorem Trade.gross_self (t : Trade) (openPrice : ℚ) : t.gross openPrice openPrice = 0 := by
  unfold gross
  cases t.direction <;> simp

theorem booksUnconverted_some {p : ℚ} {pnl : Cents} : BooksUnconverted t openPrice (some p) pnl ↔
    pnl = toCents (t.gross openPrice (if p = 0 then openPrice else p)) - t.commission := by
  rw [BooksUnconverted, Option.filter_some]
  by_cases hzero : p = 0 <;> simp [hzero]

theorem booksUnconverted_none {pnl : Cents} :
    BooksUnconverted t openPrice none pnl ↔ pnl = -t.commission := by
  rw [BooksUnconverted, Option.filter_none, Option.getD_none, Trade.gross_self]
  simp [toCents]

theorem BooksAtRate.unique {price : Option ℚ} {pnl pnl' : Cents}
    (hbooks : BooksAtRate fx t openPrice price pnl) (hbooks' : BooksAtRate fx t openPrice price pnl') :
    pnl = pnl' := by
  cases price with
  | none => exact Eq.trans hbooks (Eq.symm hbooks')
  | some p =>
    obtain ⟨rate, hrate, rfl⟩ := hbooks
    obtain ⟨rate', hrate', rfl⟩ := hbooks'
    rw [hrate, Option.some.injEq] at hrate'
    rw [hrate']

theorem atRate_eq_unconverted {price : Option ℚ} (halike : t.ConvertsAlike fx openPrice price)
    {pnl pnl' : Cents} (hbooks : BooksAtRate fx t openPrice price pnl)
    (hbooks' : BooksUnconverted t openPrice price pnl') : pnl = pnl' := by
  cases price with
  | none =>
    have hnone : pnl = 0 := hbooks
    have hcommission : t.commission = 0 := halike
    rw [hnone, booksUnconverted_none.mp hbooks', hcommission, neg_zero]
  | some p =>
    obtain ⟨rate, hrate, rfl⟩ := hbooks
    rw [booksUnconverted_some.mp hbooks']
    exact halike rate hrate

/-- A database that holds one row. -/
def Db.holding (t : Trade) : Db :=
  { Db.initial Table.empty with trades := .single t }

theorem Db.trade?_holding (t : Trade) : (Db.holding t).trade? t.id = some t :=
  trade?_eq_some.mpr ⟨List.mem_singleton_self t, rfl⟩

theorem quoteAt_closeSide (p : ℚ) (direction : Direction) : (quoteAt p).closeSide direction = p := by
  cases direction <;> rfl

/-- An admin can close any open row, at a price or without one. -/
theorem exists_forceClose (fx : FxSource) (hstatus : t.status = .opened) (hopen : t.openPrice = some openPrice)
    (price : Option ℚ) : ∃ pnl, Books fx t .forceCloseTradeById price pnl := by
  have hseen : seenOpenTrade (Db.holding t) t.id = some t :=
    seenOpenTrade_eq_some.mpr ⟨Db.trade?_holding t, hstatus⟩
  have hclose : ∃ c, forceCloseTradeById (Db.holding t) t.id (price.map quoteAt) 0
      = some [.closeTrades [c] 0 false, .creditAccount t.accountId c.pnl] := by
    simp only [forceCloseTradeById, hseen, hopen, Option.bind_eq_bind, Option.bind_some]
    exact ⟨_, rfl⟩
  obtain ⟨c, hclose⟩ := hclose
  have hbooks : Books fx t .forceCloseTradeById ((price.map quoteAt).map (·.closeSide t.direction)) c.pnl :=
    .forceCloseTradeById (Db.trade?_holding t) hclose (by simp [closingsIn, Stmt.closings])
  have hmap : (price.map quoteAt).map (·.closeSide t.direction) = price := by
    cases price <;> simp [quoteAt_closeSide]
  rw [hmap] at hbooks
  exact ⟨_, hbooks⟩

/-- The weekend close closes any open row whose instrument has a rate. -/
theorem exists_weekendClose (hstatus : t.status = .opened) (hopen : t.openPrice = some openPrice)
    {rate : ℚ} (hrate : getUsdRateForInstrument fx t.instrument = some rate) (p : ℚ) :
    ∃ pnl, Books fx t .weekendClose (some p) pnl := by
  have hseen : seenOpenTrade (Db.holding t) t.id = some t :=
    seenOpenTrade_eq_some.mpr ⟨Db.trade?_holding t, hstatus⟩
  have hclose : ∃ c, weekendClose fx (Db.holding t) (Db.holding t) t.id (quoteAt p) 0
      = some [.closeTrades [c] 0 false, .creditAccount t.accountId c.pnl] := by
    simp only [weekendClose, marketClose, closeFromSnapshot, priceClosing, calculatePnL, hseen, hopen,
      hrate, hstatus, Db.trade?_holding, Option.bind_eq_bind, Option.bind_some, Option.map_some,
      guard_true, Option.pure_def]
    exact ⟨_, rfl⟩
  obtain ⟨c, hclose⟩ := hclose
  have hbooks := Books.weekendClose (Db.trade?_holding t) hclose
    (by simp [closingsIn, Stmt.closings] : c ∈ _)
  rw [quoteAt_closeSide] at hbooks
  exact ⟨_, hbooks⟩

/-- Failing an account settles any open row that has no price. -/
theorem exists_settle (fx : FxSource) (hopen : t.openPrice = some openPrice) :
    ∃ pnl, Books fx t (.settle .autoCloseAndFail) none pnl := by
  let s : Settling :=
    { kind := .autoCloseAndFail
      account := sampleTerms.provision t.accountId
      trades := [t]
      prices := fun _ => none
      startedAt := 0
      anchors := none
      finding := .unrecorded }
  have hclosings : s.closings fx = some [⟨t, some openPrice, 0, s.reason, none⟩] := by
    simp [s, Settling.closings, settlementFor, hopen]
  have hstmts : ∃ stmts, s.statements fx = some stmts ∧
      (⟨t, some openPrice, 0, s.reason, none⟩ : Closing) ∈ closingsIn stmts := by
    refine ⟨_, congrArg (Option.map _) hclosings, ?_⟩
    simp [closingsIn, Stmt.closings]
  obtain ⟨stmts, hstmts, hc⟩ := hstmts
  exact ⟨_, .settle hstmts hc rfl⟩

theorem SameMoney.convertsAlike (hstatus : t.status = .opened) (hopen : t.openPrice = some openPrice)
    {price : Option ℚ} (hsame : SameMoney fx t price) : t.ConvertsAlike fx openPrice price := by
  obtain ⟨pnl, hadmin⟩ := exists_forceClose fx hstatus hopen price
  have hunconverted := hadmin.unconverted hopen rfl
  cases price with
  | none =>
    obtain ⟨pnl', hsettle⟩ := exists_settle fx hopen
    have hzero : pnl' = 0 := hsettle.atRate hopen rfl
    have heq := hsame _ _ _ _ hadmin hsettle
    rw [booksUnconverted_none.mp hunconverted, hzero] at heq
    exact neg_eq_zero.mp heq
  | some p =>
    intro rate hrate
    obtain ⟨pnl', hweekend⟩ := exists_weekendClose hstatus hopen hrate p
    obtain ⟨rate', hrate', hpnl⟩ := hweekend.atRate hopen rfl
    rw [hrate, Option.some.injEq] at hrate'
    rw [hrate', ← hpnl, ← booksUnconverted_some.mp hunconverted]
    exact hsame _ _ _ _ hweekend hadmin

theorem sameMoney_of_convertsAlike (hopen : t.openPrice = some openPrice) {price : Option ℚ}
    (halike : t.ConvertsAlike fx openPrice price) : SameMoney fx t price := by
  intro path path' pnl pnl' hbooks hbooks'
  cases hpath : path.admin <;> cases hpath' : path'.admin
  · exact (hbooks.atRate hopen hpath).unique (hbooks'.atRate hopen hpath')
  · exact atRate_eq_unconverted halike (hbooks.atRate hopen hpath) (hbooks'.unconverted hopen hpath')
  · exact (atRate_eq_unconverted halike (hbooks'.atRate hopen hpath')
      (hbooks.unconverted hopen hpath)).symm
  · exact (hbooks.unconverted hopen hpath).trans (hbooks'.unconverted hopen hpath').symm

/-- All paths book the same money for a row exactly when conversion and rounding order make no
difference to it, and without a price exactly when it carries no commission. -/
theorem sameMoney_iff (hstatus : t.status = .opened) (hopen : t.openPrice = some openPrice)
    (price : Option ℚ) : SameMoney fx t price ↔ t.ConvertsAlike fx openPrice price :=
  ⟨fun hsame => hsame.convertsAlike hstatus hopen, sameMoney_of_convertsAlike hopen⟩

/-- The paths other than the admin's agree on every row. -/
theorem Books.eq_of_not_admin (hopen : t.openPrice = some openPrice) {path path' : ClosePath}
    {price : Option ℚ} {pnl pnl' : Cents} (hbooks : Books fx t path price pnl)
    (hbooks' : Books fx t path' price pnl') (hpath : path.admin = false) (hpath' : path'.admin = false) :
    pnl = pnl' :=
  (hbooks.atRate hopen hpath).unique (hbooks'.atRate hopen hpath')

/-- At a rate of one only a gross profit on half a cent can tell the paths apart, when the commission
turns its sign. -/
theorem convertsAlike_of_rate_one (hrate : getUsdRateForInstrument fx t.instrument = some 1) {p : ℚ}
    (hp : p ≠ 0) : t.ConvertsAlike fx openPrice (some p) ↔
      (IsTie (t.gross openPrice p * 100) →
        (0 < t.gross openPrice p * 100 ↔ 0 < ((-t.commission : ℤ) : ℚ) + t.gross openPrice p * 100)) := by
  have hcents : (t.gross openPrice p * 1 - t.commission.dollars) * 100
      = ((-t.commission : ℤ) : ℚ) + t.gross openPrice p * 100 := by
    rw [Cents.dollars]
    push_cast
    ring
  rw [← roundHalfAway_intCast_add]
  simp only [Trade.ConvertsAlike, hrate, Option.some.injEq, forall_eq', toCents, hcents, if_neg hp]
  constructor
  · intro h
    rw [h]
    ring
  · intro h
    rw [h]
    ring

/-- A long of one lot of EURUSD at 1.10, with a commission of 7 dollars. -/
def euroLong : Trade :=
  { sampleOrder.row 7 .opened with openPrice := some (11 / 10), openTime := some 0 }

theorem sameMoney_iff_euroLong : SameMoney noConversion euroLong (some (111 / 100)) := by
  refine (sameMoney_iff rfl rfl (some (111 / 100))).mpr ?_
  refine (convertsAlike_of_rate_one rfl (by norm_num)).mpr fun htie => ?_
  exact absurd htie (by decide +kernel)

/-- One lot of USDJPY bought at 150, with a commission of 7 dollars. -/
def yenLong : Trade := { euroLong with instrument := .usdjpy, openPrice := some 150 }

def yenAt150 : FxSource := ⟨true, 39 / 5, quotedAt 150⟩

/-- A yen a unit of profit on one lot of USDJPY is 659.67 dollars to every path but the admin's, which
books 99993 dollars; and a long without a price settles at nothing, except for the admin, who books
its commission. -/
theorem admin_books_other_money : ¬ SameMoney yenAt150 yenLong (some 151) ∧
    ¬ SameMoney noConversion euroLong none := by
  constructor
  · intro hsame
    have halike := hsame.convertsAlike rfl rfl (1 / 150) (by decide +kernel)
    exact absurd halike (by decide +kernel)
  · intro hsame
    have halike : euroLong.commission = 0 := hsame.convertsAlike rfl rfl
    exact absurd halike (by decide +kernel)

end PropFirm
