import PropFirm.Lib.Joins
import PropFirm.TradeTransactions
import PropFirm.TradingDays

/-!
# The screen of a payout request

One grouped query gives the screen its figures: it joins the account with its trades and with its payouts,
so that each trade appears once for each payout of the account and each payout once for each trade. The
counts and the sums are multiplied accordingly, and the request is flagged by what comes of it.
-/

namespace PropFirm

open Joins

/-- What the screen tells apart in the free text of `payouts.status`. -/
inductive ScreenedStatus
  | pending | approved | paid | other
  deriving DecidableEq

structure ScreenedPayout where
  accountId : Nat
  amountRequested : Option Cents
  status : ScreenedStatus
  deriving DecidableEq

/-- `ageDays` is the query's `account_age_days`. -/
structure ScreenedAccount where
  id : Nat
  accountSize : ℚ
  ageDays : Option ℚ

namespace ScreenedPayout

/-- Everything but a rejection counts towards the cumulative check. -/
def Counts (p : ScreenedPayout) : Prop := p.status ∈ [.pending, .approved, .paid]

instance : DecidablePred Counts := fun p => inferInstanceAs (Decidable (p.status ∈ _))

end ScreenedPayout

namespace Trade

def Closed (t : Trade) : Prop := t.status = .closed

def Won (t : Trade) : Prop := t.Closed ∧ ∃ pnl ∈ t.demoPnl, 0 < pnl

instance : DecidablePred Closed := fun t => inferInstanceAs (Decidable (t.status = .closed))

instance : DecidablePred Won := fun t => inferInstanceAs (Decidable (t.Closed ∧ _))

end Trade

structure ScreenFigures where
  totalClosedTrades : Nat
  winningTrades : Nat
  maxSingleTradePnl : Cents
  totalRealisedPnl : Cents
  totalPayoutsRequested : Cents
  deriving DecidableEq

/-- `SUM(p.amount_requested)` of the payouts that count. -/
def totalRequested (payouts : List ScreenedPayout) : Cents :=
  ((payouts.filter (·.Counts)).map fun p => p.amountRequested.getD 0).sum

/-- The aggregates over some rows; nulls are skipped, and an empty `MAX` or `SUM` is zero. -/
def screenFigures (trades : List Trade) (payouts : List ScreenedPayout) : ScreenFigures where
  totalClosedTrades := trades.countP (·.Closed)
  winningTrades := trades.countP (·.Won)
  maxSingleTradePnl := ((trades.filter (·.Closed)).filterMap Trade.demoPnl).max?.getD 0
  totalRealisedPnl := ((trades.filter (·.Closed)).map fun t => t.demoPnl.getD 0).sum
  totalPayoutsRequested := totalRequested payouts

/-- The rows of the group: the account, a trade of it or none, a payout of it or none. -/
def screenRows (account : ScreenedAccount) (trades : List Trade) (payouts : List ScreenedPayout) :
    List ((ScreenedAccount × Option Trade) × Option ScreenedPayout) :=
  leftJoin (leftJoin [account] trades fun a t => t.accountId = a.id) payouts
    fun row p => p.accountId = row.1.id

/-- The figures of the query. An aggregate skips the nulls of the rows that matched nothing. -/
def queriedFigures (account : ScreenedAccount) (trades : List Trade) (payouts : List ScreenedPayout) :
    ScreenFigures :=
  let rows := screenRows account trades payouts
  screenFigures (rows.filterMap fun row => row.1.2) (rows.filterMap Prod.snd)

/-- The reasons for a flag, with the figures they quote. -/
inductive FlagReason
  | cumulativePayouts (total : ℚ)
  | youngAccount (ageDays : ℚ)
  | fewWinningTrades (winningTrades : Nat)
  | largePayout (amount accountSize : ℚ)
  | singleTrade (maxTradePnl share : ℚ)
  | largeAverage (avgWinningTradePnl : ℚ)
  | highWinRate
  deriving DecidableEq

def flagReasons (account : ScreenedAccount) (amount : ℚ) (figures : ScreenFigures) : List FlagReason :=
  let accountAgeDays := account.ageDays.getD 999
  let total := figures.totalPayoutsRequested.dollars + amount
  let maxTradePnl := figures.maxSingleTradePnl.dollars
  let totalRealisedPnl := figures.totalRealisedPnl.dollars
  let avgWinningTradePnl :=
    if 0 < figures.winningTrades then totalRealisedPnl / figures.winningTrades else 0
  (if account.accountSize * (80 / 100) < total ∧ accountAgeDays < 30 then [.cumulativePayouts total] else []) ++
  (if accountAgeDays < 5 then [.youngAccount accountAgeDays] else []) ++
  (if figures.winningTrades < 5 then [.fewWinningTrades figures.winningTrades] else []) ++
  (if account.accountSize * (40 / 100) < amount then [.largePayout amount account.accountSize] else []) ++
  (if 0 < maxTradePnl ∧ 0 < totalRealisedPnl ∧ 1 / 2 < maxTradePnl / totalRealisedPnl then
    [.singleTrade maxTradePnl (maxTradePnl / totalRealisedPnl * 100)] else []) ++
  (if 3 ≤ figures.winningTrades ∧ account.accountSize * (15 / 100) < avgWinningTradePnl then
    [.largeAverage avgWinningTradePnl] else []) ++
  (if 0 < figures.totalClosedTrades ∧ figures.totalClosedTrades < 10 ∧
      (85 / 100 : ℚ) < figures.winningTrades / figures.totalClosedTrades then [.highWinRate] else [])

/-! ### The figures of the accounts -/

section Figures

variable (account : ScreenedAccount) (trades : List Trade) (payouts : List ScreenedPayout)

def tradesOfAccount : List Trade := trades.filter fun t => t.accountId = account.id

def payoutsOfAccount : List ScreenedPayout := payouts.filter fun p => p.accountId = account.id

def trueFigures : ScreenFigures :=
  screenFigures (tradesOfAccount account trades) (payoutsOfAccount account payouts)

/-- The screen counts what there is, and its flags are those of the true figures. -/
def ScreensTruly : Prop :=
  queriedFigures account trades payouts = trueFigures account trades payouts ∧
    ∀ amount, flagReasons account amount (queriedFigures account trades payouts)
      = flagReasons account amount (trueFigures account trades payouts)

/-- One side of the join at most has more than one row to multiply the other with. -/
def JoinsSingly : Prop :=
  ((payoutsOfAccount account payouts).length ≤ 1 ∨ ∀ t ∈ tradesOfAccount account trades, ¬t.Closed) ∧
    ((tradesOfAccount account trades).length ≤ 1 ∨ totalRequested (payoutsOfAccount account payouts) = 0)

end Figures

variable {account : ScreenedAccount} {trades : List Trade} {payouts : List ScreenedPayout}

theorem accountRow_of_mem {row : ScreenedAccount × Option Trade}
    (hrow : row ∈ leftJoin [account] trades fun a t => t.accountId = a.id) : row.1 = account := by
  have hmem := List.mem_map_of_mem (f := Prod.fst) hrow
  rw [map_fst_leftJoin, List.flatMap_singleton] at hmem
  exact (List.mem_replicate.mp hmem).2

theorem length_tradeRows (account : ScreenedAccount) (trades : List Trade) :
    (leftJoin [account] trades fun a t => t.accountId = a.id).length
      = max 1 (tradesOfAccount account trades).length := by
  rw [← List.length_map Prod.fst, map_fst_leftJoin, List.flatMap_singleton, List.length_replicate,
    List.countP_eq_length_filter]
  rfl

/-- Each trade of the account is there once for each payout of it. -/
theorem screenRows_trades (account : ScreenedAccount) (trades : List Trade) (payouts : List ScreenedPayout) :
    (screenRows account trades payouts).filterMap (fun row => row.1.2)
      = repeats (max 1 (payoutsOfAccount account payouts).length) (tradesOfAccount account trades) := by
  have hsides : (screenRows account trades payouts).filterMap (fun row => row.1.2)
      = ((screenRows account trades payouts).map Prod.fst).filterMap Prod.snd := by
    rw [List.filterMap_map]
    rfl
  have hrows : (screenRows account trades payouts).map Prod.fst
      = repeats (max 1 (payoutsOfAccount account payouts).length)
          (leftJoin [account] trades fun a t => t.accountId = a.id) := by
    rw [screenRows, map_fst_leftJoin]
    refine List.flatMap_congr fun row hrow => ?_
    rw [accountRow_of_mem hrow, List.countP_eq_length_filter]
    rfl
  rw [hsides, hrows, filterMap_repeats, filterMap_snd_leftJoin, List.flatMap_singleton]
  rfl

/-- All payouts of the account are there once for each trade of it. -/
theorem screenRows_payouts (account : ScreenedAccount) (trades : List Trade)
    (payouts : List ScreenedPayout) :
    (screenRows account trades payouts).filterMap Prod.snd
      = (List.replicate (max 1 (tradesOfAccount account trades).length)
          (payoutsOfAccount account payouts)).flatten := by
  have hrows : ∀ row ∈ leftJoin [account] trades fun a t => t.accountId = a.id,
      (payouts.filter fun p => p.accountId = row.1.id) = payoutsOfAccount account payouts := by
    intro row hrow
    rw [accountRow_of_mem hrow]
    rfl
  rw [screenRows, filterMap_snd_leftJoin, List.flatMap_congr hrows, ← length_tradeRows, List.flatMap_def,
    List.map_const']

/-- The figures of trades and payouts that come several times. -/
theorem screenFigures_repeated {c : ℕ} (hc : 0 < c) (d : ℕ) (trades : List Trade)
    (payouts : List ScreenedPayout) :
    screenFigures (repeats c trades) (List.replicate d payouts).flatten =
      let figures := screenFigures trades payouts
      { totalClosedTrades := c * figures.totalClosedTrades
        winningTrades := c * figures.winningTrades
        maxSingleTradePnl := figures.maxSingleTradePnl
        totalRealisedPnl := c • figures.totalRealisedPnl
        totalPayoutsRequested := d • figures.totalPayoutsRequested } := by
  have hpayouts : totalRequested (List.replicate d payouts).flatten = d • totalRequested payouts := by
    rw [totalRequested, List.filter_flatten, List.map_replicate, List.map_flatten, List.map_replicate, List.sum_flatten,
      List.map_replicate, List.sum_replicate]
    rfl
  rw [screenFigures, hpayouts, countP_repeats, countP_repeats, filter_repeats, filterMap_repeats,
    max?_repeats hc, sum_repeats]
  rfl

theorem queriedFigures_eq (account : ScreenedAccount) (trades : List Trade)
    (payouts : List ScreenedPayout) :
    queriedFigures account trades payouts =
      let figures := trueFigures account trades payouts
      let c := max 1 (payoutsOfAccount account payouts).length
      { totalClosedTrades := c * figures.totalClosedTrades
        winningTrades := c * figures.winningTrades
        maxSingleTradePnl := figures.maxSingleTradePnl
        totalRealisedPnl := c • figures.totalRealisedPnl
        totalPayoutsRequested :=
          max 1 (tradesOfAccount account trades).length • figures.totalPayoutsRequested } := by
  have hc : 0 < max 1 (payoutsOfAccount account payouts).length := lt_max_of_lt_left Nat.one_pos
  rw [queriedFigures, screenRows_trades, screenRows_payouts, screenFigures_repeated hc]
  rfl

theorem trueFigures_of_none_closed
    (hnone : ∀ t ∈ tradesOfAccount account trades, ¬t.Closed) :
    (trueFigures account trades payouts).totalClosedTrades = 0 ∧
      (trueFigures account trades payouts).winningTrades = 0 ∧
      (trueFigures account trades payouts).totalRealisedPnl = 0 := by
  have hfilter : (tradesOfAccount account trades).filter (·.Closed) = [] :=
    List.filter_eq_nil_iff.mpr fun t ht => by simpa using hnone t ht
  refine ⟨List.countP_eq_zero.mpr fun t ht => by simpa using hnone t ht,
    List.countP_eq_zero.mpr fun t ht => ?_, ?_⟩
  · simpa [Trade.Won] using fun hclosed => absurd hclosed (hnone t ht)
  · simp only [trueFigures, screenFigures, hfilter, List.map_nil, List.sum_nil]

private theorem max_one_mul_eq_self_iff {c n : ℕ} : max 1 c * n = n ↔ c ≤ 1 ∨ n = 0 := by
  constructor
  · intro heq
    obtain rfl | hpos := Nat.eq_zero_or_pos n
    · exact .inr rfl
    · have hone : max 1 c = 1 := Nat.eq_of_mul_eq_mul_right hpos (heq.trans (Nat.one_mul n).symm)
      exact .inl (max_eq_left_iff.mp hone)
  · rintro (hone | rfl)
    · rw [max_eq_left hone, Nat.one_mul]
    · exact Nat.mul_zero _

private theorem max_one_nsmul_eq_self_iff {c : ℕ} {x : Cents} : max 1 c • x = x ↔ c ≤ 1 ∨ x = 0 := by
  constructor
  · intro heq
    by_cases hzero : x = 0
    · exact .inr hzero
    · rw [nsmul_eq_mul] at heq
      have hone : ((max 1 c : ℕ) : Cents) = 1 := mul_right_cancel₀ hzero (heq.trans (one_mul x).symm)
      exact .inl (max_eq_left_iff.mp (Nat.cast_eq_one.mp hone))
  · rintro (hone | rfl)
    · rw [max_eq_left hone, one_nsmul]
    · exact nsmul_zero _

/-- The screen counts truly exactly when neither side of its join multiplies anything. -/
theorem screensTruly_iff (account : ScreenedAccount) (trades : List Trade) (payouts : List ScreenedPayout) :
    ScreensTruly account trades payouts ↔ JoinsSingly account trades payouts := by
  have hfigures : ScreensTruly account trades payouts ↔
      queriedFigures account trades payouts = trueFigures account trades payouts :=
    ⟨fun htruly => htruly.1, fun heq => ⟨heq, fun amount => by rw [heq]⟩⟩
  rw [hfigures, queriedFigures_eq]
  constructor
  · intro heq
    have hclosed := congrArg ScreenFigures.totalClosedTrades heq
    have hpayouts := congrArg ScreenFigures.totalPayoutsRequested heq
    refine ⟨(max_one_mul_eq_self_iff.mp hclosed).imp_right fun hnone t ht => ?_,
      max_one_nsmul_eq_self_iff.mp hpayouts⟩
    simpa using List.countP_eq_zero.mp hnone t ht
  · rintro ⟨htrades, hpayouts⟩
    have hcounts : (payoutsOfAccount account payouts).length ≤ 1 ∨
        (trueFigures account trades payouts).totalClosedTrades = 0 ∧
          (trueFigures account trades payouts).winningTrades = 0 ∧
          (trueFigures account trades payouts).totalRealisedPnl = 0 :=
      htrades.imp_right trueFigures_of_none_closed
    have hrequested : (tradesOfAccount account trades).length ≤ 1 ∨
        (trueFigures account trades payouts).totalPayoutsRequested = 0 := hpayouts
    dsimp only
    rw [max_one_mul_eq_self_iff.mpr (hcounts.imp_right fun h => h.1),
      max_one_mul_eq_self_iff.mpr (hcounts.imp_right fun h => h.2.1),
      max_one_nsmul_eq_self_iff.mpr (hcounts.imp_right fun h => h.2.2),
      max_one_nsmul_eq_self_iff.mpr hrequested]

/-- Three small wins and four rejected requests. -/
def threeWins : List Trade :=
  [1, 2, 3].map fun id =>
    { sampleOrder.row id .closed with
      openPrice := some 1, closeTime := some id, demoPnl := some 10000 }

def fourRejected : List ScreenedPayout := List.replicate 4 ⟨1, some 5000, .other⟩

/-- The screen takes them for twelve wins, and has nothing to say about them. -/
theorem threeWins_pass_as_twelve :
    (trueFigures ⟨1, 10000, some 40⟩ threeWins fourRejected).winningTrades = 3 ∧
      (queriedFigures ⟨1, 10000, some 40⟩ threeWins fourRejected).winningTrades = 12 ∧
      flagReasons ⟨1, 10000, some 40⟩ 100 (trueFigures ⟨1, 10000, some 40⟩ threeWins fourRejected)
        = [.fewWinningTrades 3, .highWinRate] ∧
      flagReasons ⟨1, 10000, some 40⟩ 100 (queriedFigures ⟨1, 10000, some 40⟩ threeWins fourRejected)
        = [] ∧
      ¬ScreensTruly ⟨1, 10000, some 40⟩ threeWins fourRejected := by
  have hqueried : (queriedFigures ⟨1, 10000, some 40⟩ threeWins fourRejected).winningTrades = 12 := by
    decide +kernel
  have htrue : (trueFigures ⟨1, 10000, some 40⟩ threeWins fourRejected).winningTrades = 3 := by
    decide +kernel
  refine ⟨htrue, hqueried, by decide +kernel, by decide +kernel, fun htruly => ?_⟩
  rw [htruly.1, htrue] at hqueried
  norm_num at hqueried

end PropFirm
