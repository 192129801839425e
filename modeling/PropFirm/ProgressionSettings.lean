import PropFirm.Lib.JsText
import PropFirm.Lib.SqlRows

/-!
# Numeric settings

The settings are texts. `normalizeProgressionSettings` reads a number and holds it between two bounds with
`Math.max` and `Math.min`, both of which hand a `NaN` on; `getTradingRules` takes its default for what is no
finite number. The limits of an account that is promoted without a model are the former.
-/

namespace PropFirm

open Sql

/-! ### Numbers of texts -/

/-- The digits before and after the point. -/
def mantissa (cs : List Char) : List Char × List Char :=
  (cs.takeWhile Char.isDigit,
    match cs.dropWhile Char.isDigit with
    | '.' :: cs => cs.takeWhile Char.isDigit
    | _ => [])

/-- The sign and what follows it, after leading white space. -/
def signAndRest (text : String) : Bool × List Char := takeSign (text.toList.dropWhile isJsSpace)

/-- `parseFloat`, with what is no finite number. -/
def parseFloatNumber (text : String) : Number :=
  let (negative, cs) := signAndRest text
  if "Infinity".toList <+: cs then .infinity negative
  else if mantissa cs = ([], []) then .nan
  else (parseFloat text).elim (.infinity negative) .finite

/-- `parseInt(text, 10)`. -/
def parseIntNumber (text : String) : Number :=
  let (negative, cs) := signAndRest text
  let digits := cs.takeWhile Char.isDigit
  if digits = [] then .nan
  else if doubleOverflow ≤ digitsValue digits then .infinity negative
  else .finite (if negative then -digitsValue digits else digitsValue digits)

/-- `Math.min(bound, x)`. -/
def mathMin (bound : ℚ) : Number → Number
  | .nan => .nan
  | .infinity negative => if negative then .infinity negative else .finite bound
  | .finite x => .finite (min bound x)

/-- `Math.max(bound, x)`. -/
def mathMax (bound : ℚ) : Number → Number
  | .nan => .nan
  | .infinity negative => if negative then .finite bound else .infinity negative
  | .finite x => .finite (max bound x)

/-! ### The progression settings -/

/-- What `normalizeProgressionSettings` is called with: rows of the store, or a map. -/
inductive SettingsInput
  | rows (rows : List (String × String))
  | map (settings : String → Option String)

namespace SettingsInput

/-- Of rows with one key the last one counts. -/
def get (input : SettingsInput) (key : String) : Option String :=
  match input with
  | .rows list => (list.reverse.find? fun row => row.1 = key).map Prod.snd
  | .map settings => settings key

/-- `settings[key] || fallback`. -/
def textOr (input : SettingsInput) (key fallback : String) : String := ((input.get key).filter (· ≠ "")).getD fallback

end SettingsInput

structure ProgressionSettings where
  phase2ProfitTargetPct : Number
  phase2MaxDrawdownPct : Number
  phase2DayLimit : Number
  fundedMaxDrawdownPct : Number
  phase1DrawdownType : String
  phase2DrawdownType : String
  fundedDrawdownType : String

def normalizeProgressionSettings (input : SettingsInput) : ProgressionSettings where
  phase2ProfitTargetPct :=
    mathMax (1 / 10) (mathMin 100 (parseFloatNumber (input.textOr "phase2_profit_target_pct" "5")))
  phase2MaxDrawdownPct :=
    mathMax (1 / 10) (mathMin 100 (parseFloatNumber (input.textOr "phase2_max_drawdown_pct" "10")))
  phase2DayLimit := mathMax 1 (mathMin 365 (parseIntNumber (input.textOr "phase2_day_limit" "30")))
  fundedMaxDrawdownPct :=
    mathMax (1 / 10) (mathMin 100 (parseFloatNumber (input.textOr "funded_max_drawdown_pct" "5")))
  phase1DrawdownType := input.textOr "phase1_drawdown_type" "trailing"
  phase2DrawdownType := input.textOr "phase2_drawdown_type" "trailing"
  fundedDrawdownType := input.textOr "funded_drawdown_type" "trailing"

/-! ### Accounts without a model -/

/-- The columns of the passed account that the next one takes over. -/
structure PassedAccount where
  userId : String
  accountSize : ℚ

/-- A row of `accounts` as it is inserted, with the end of the phase in milliseconds. -/
structure AccountInsert where
  userId : String
  accountType : String
  accountSize : ℚ
  profitTarget : Number
  maxDrawdownPct : Number
  phaseEndDate : Option ℤ
  accountUid : String

/-- `parseFloat((size * (pct / 100)).toFixed(2))`. -/
def profitTargetOf (accountSize : ℚ) : Number → Number
  | .finite pct => .finite (Number.round 2 (accountSize * (pct / 100)))
  | x => x

/-- The last millisecond of a day so many days on; an invalid date is none that the database takes. -/
def phaseEndDateOf (now : ℤ) : Number → Option ℤ
  | .finite days => some ((now / 86400000 + ⌊days⌋) * 86400000 + 86399999)
  | _ => none

/-- The row that the arguments of `buildPhase2InsertArgs` insert. -/
def insertPhase2 (acc : PassedAccount) (settings : ProgressionSettings) (now : ℤ) (accountUid : String) :
    Option AccountInsert := do
  let phaseEndDate ← phaseEndDateOf now settings.phase2DayLimit
  let profitTarget ← (profitTargetOf acc.accountSize settings.phase2ProfitTargetPct).fit 15 2
  let maxDrawdownPct ← settings.phase2MaxDrawdownPct.fit 5 2
  some ⟨acc.userId, "phase2", acc.accountSize, profitTarget, maxDrawdownPct, some phaseEndDate, accountUid⟩

/-- The row that the arguments of `buildFundedInsertArgs` insert. -/
def insertFunded (acc : PassedAccount) (settings : ProgressionSettings) (accountUid : String) :
    Option AccountInsert := do
  let maxDrawdownPct ← settings.fundedMaxDrawdownPct.fit 5 2
  some ⟨acc.userId, "funded", acc.accountSize, .finite 0, maxDrawdownPct, none, accountUid⟩

/-! ### The trading rules -/

structure TradingRules where
  minHoldSeconds : Number
  forexLotsPer1k : Number
  commodityLotsPer1k : Number
  minLotSize : Number
  maxTradesPer1k : Number
  maxOpenPositions : Number
  maxDailyTrades : Number
  maxNotionalMultiple : Number
  dynamicCommissionPerLot : Number
  commissionPerLotJson : Option String
  slippageSimulatorEnabled : Bool
  slippageMaxPipsAdverse : Number
  slippageMaxPipsAdverseJson : Option String
  weekendHoldingEnabled : Bool

def defaultTradingRules : TradingRules where
  minHoldSeconds := .finite 60
  forexLotsPer1k := .finite (1 / 10)
  commodityLotsPer1k := .finite (2 / 100)
  minLotSize := .finite (1 / 100)
  maxTradesPer1k := .finite 1
  maxOpenPositions := .finite 10
  maxDailyTrades := .finite 20
  maxNotionalMultiple := .finite 500
  dynamicCommissionPerLot := .finite 3
  commissionPerLotJson := none
  slippageSimulatorEnabled := false
  slippageMaxPipsAdverse := .finite 0
  slippageMaxPipsAdverseJson := none
  weekendHoldingEnabled := true

def finiteOr (value : Option Number) (fallback : Number) : Number :=
  match value with
  | some (.finite x) => .finite x
  | _ => fallback

/-- What the settings that are there make of the rules. -/
def resolveTradingRules (settings : String → Option String) : TradingRules :=
  let number := fun key => (settings key).map parseFloatNumber
  { minHoldSeconds := finiteOr (number "min_hold_seconds") defaultTradingRules.minHoldSeconds
    forexLotsPer1k := finiteOr (number "forex_lots_per_1k") defaultTradingRules.forexLotsPer1k
    commodityLotsPer1k := finiteOr (number "commodity_lots_per_1k") defaultTradingRules.commodityLotsPer1k
    minLotSize := finiteOr (number "min_lot_size") defaultTradingRules.minLotSize
    maxTradesPer1k := finiteOr (number "max_trades_per_1k") defaultTradingRules.maxTradesPer1k
    maxOpenPositions := finiteOr (number "max_open_positions") defaultTradingRules.maxOpenPositions
    maxDailyTrades := finiteOr (number "max_daily_trades") defaultTradingRules.maxDailyTrades
    maxNotionalMultiple := finiteOr (number "max_notional_multiple") defaultTradingRules.maxNotionalMultiple
    dynamicCommissionPerLot :=
      finiteOr (number "dynamic_commission_per_lot") defaultTradingRules.dynamicCommissionPerLot
    commissionPerLotJson := some ((settings "commission_per_lot_json").getD "\x7b\x7d")
    slippageSimulatorEnabled := ((settings "slippage_simulator_enabled").map fun value => decide (value = "true")).getD
      defaultTradingRules.slippageSimulatorEnabled
    slippageMaxPipsAdverse := finiteOr (number "slippage_max_pips_adverse") defaultTradingRules.slippageMaxPipsAdverse
    slippageMaxPipsAdverseJson := some ((settings "slippage_max_pips_adverse_json").getD "\x7b\x7d")
    weekendHoldingEnabled := ((settings "weekend_holding_enabled").map fun value => decide (value = "true")).getD
      defaultTradingRules.weekendHoldingEnabled }

/-- `_tradingRulesCache`, with the time in milliseconds. -/
structure CachedRules where
  value : TradingRules
  cachedAt : ℤ

/-- A call begins and may find fresh rules, a call that did not goes on with the settings it has read or
with the error, and an administrator changes a setting. -/
inductive RulesAction
  | begin (now : ℤ)
  | resolve (settings : Option (String → Option String)) (cachedAt : ℤ)
  | invalidate

/-- What is returned at the action, if anything, and the cache after it. -/
def getTradingRules (cache : Option CachedRules) : RulesAction → Option TradingRules × Option CachedRules
  | .begin now => ((cache.filter fun cached => now - cached.cachedAt < 30000).map CachedRules.value, cache)
  | .resolve (some settings) cachedAt =>
    (some (resolveTradingRules settings), some ⟨resolveTradingRules settings, cachedAt⟩)
  | .resolve none _ => (some defaultTradingRules, cache)
  | .invalidate => (none, none)

/-- All that is returned over the actions. -/
def returnedRules (cache : Option CachedRules) : List RulesAction → List TradingRules
  | [] => []
  | action :: actions =>
    (getTradingRules cache action).1.toList ++ returnedRules (getTradingRules cache action).2 actions

/-! ### Which texts are numbers -/

/-- The text has a number at its front. -/
def BeginsNumber (text : String) : Prop :=
  let cs := (signAndRest text).2
  "Infinity".toList <+: cs ∨ (∃ c ∈ cs.head?, c.isDigit = true) ∨
    cs.head? = some '.' ∧ ∃ c ∈ cs.tail.head?, c.isDigit = true

/-- The text has digits at its front. -/
def BeginsInteger (text : String) : Prop := ∃ c ∈ (signAndRest text).2.head?, c.isDigit = true

/-- The setting is missing or empty, or it begins with a number. -/
def SettingsInput.Readable (input : SettingsInput) (key : String) (Begins : String → Prop) : Prop :=
  ∀ text ∈ input.get key, text ≠ "" → Begins text

theorem takeWhile_isDigit_eq_nil_iff {cs : List Char} :
    cs.takeWhile Char.isDigit = [] ↔ ¬ ∃ c ∈ cs.head?, c.isDigit = true := by
  cases cs with
  | nil => simp
  | cons c cs =>
    rw [List.head?_cons, List.takeWhile_cons]
    split <;> simp_all

theorem mantissa_eq_nil_iff {cs : List Char} : mantissa cs = ([], []) ↔
    ¬ ((∃ c ∈ cs.head?, c.isDigit = true) ∨ cs.head? = some '.' ∧ ∃ c ∈ cs.tail.head?, c.isDigit = true) := by
  rw [mantissa, Prod.mk.injEq, takeWhile_isDigit_eq_nil_iff, not_or]
  refine and_congr_right fun hwhole => ?_
  have hdrop : cs.dropWhile Char.isDigit = cs := by
    have hsplit := List.takeWhile_append_dropWhile (p := Char.isDigit) (l := cs)
    rwa [takeWhile_isDigit_eq_nil_iff.mpr hwhole, List.nil_append] at hsplit
  rw [hdrop]
  split
  · rename_i cs
    rw [takeWhile_isDigit_eq_nil_iff]
    simp
  · rename_i hpoint
    refine iff_of_true rfl ?_
    rintro ⟨hhead, -⟩
    obtain ⟨rest, hrest⟩ := List.head?_eq_some_iff.mp hhead
    exact hpoint rest hrest

theorem parseFloatNumber_eq_nan_iff {text : String} : parseFloatNumber text = .nan ↔ ¬ BeginsNumber text := by
  rw [parseFloatNumber, BeginsNumber]
  dsimp only
  rw [not_or, ← mantissa_eq_nil_iff]
  split
  · rename_i hinfinity
    exact iff_of_false (fun h => by cases h) (fun h => h.1 hinfinity)
  · rename_i hinfinity
    split
    · rename_i hnone
      exact iff_of_true rfl ⟨hinfinity, hnone⟩
    · rename_i hsome
      refine iff_of_false ?_ (fun h => hsome h.2)
      cases parseFloat text <;> exact fun h => by cases h

theorem parseIntNumber_eq_nan_iff {text : String} : parseIntNumber text = .nan ↔ ¬ BeginsInteger text := by
  rw [parseIntNumber, BeginsInteger]
  dsimp only
  rw [← takeWhile_isDigit_eq_nil_iff]
  split
  · rename_i hnone
    exact iff_of_true rfl hnone
  · rename_i hsome
    refine iff_of_false ?_ hsome
    split <;> exact fun h => by cases h

/-! ### Bounds -/

/-- A finite number between two bounds. -/
def Within (low high : ℚ) (x : Number) : Prop := ∃ q, x = .finite q ∧ low ≤ q ∧ q ≤ high

/-- The bounds hold everything but a `NaN`. -/
theorem within_clamp_iff {low high : ℚ} (hbounds : low ≤ high) {x : Number} :
    Within low high (mathMax low (mathMin high x)) ↔ x ≠ .nan := by
  cases x with
  | nan =>
    refine iff_of_false ?_ (fun h => h rfl)
    rintro ⟨q, hq, -⟩
    cases hq
  | infinity negative =>
    refine iff_of_true ?_ (fun h => by cases h)
    cases negative with
    | true => exact ⟨low, rfl, le_rfl, hbounds⟩
    | false => exact ⟨max low high, rfl, le_max_left low high, max_le hbounds le_rfl⟩
  | finite x =>
    refine iff_of_true ?_ (fun h => by cases h)
    exact ⟨max low (min high x), rfl, le_max_left _ _, max_le hbounds (min_le_left high x)⟩

/-- A number compares with every bound, which a `NaN` does with none. -/
theorem Within.compares {low high : ℚ} {x : Number} (hx : Within low high x) (bound : ℚ) :
    x.exceeds bound = true ∨ x.below bound = true ∨ x = .finite bound := by
  obtain ⟨q, rfl, -, -⟩ := hx
  obtain hlt | heq | hgt := lt_trichotomy bound q
  · exact .inl (decide_eq_true hlt)
  · exact .inr (.inr (congrArg Number.finite heq.symm))
  · exact .inr (.inl (decide_eq_true hgt))

/-! ### The fields of the settings -/

/-- The numeric fields keep the bounds that are stated with them. -/
structure ProgressionSettings.Usable (settings : ProgressionSettings) : Prop where
  phase2ProfitTargetPct : Within (1 / 10) 100 settings.phase2ProfitTargetPct
  phase2MaxDrawdownPct : Within (1 / 10) 100 settings.phase2MaxDrawdownPct
  phase2DayLimit : Within 1 365 settings.phase2DayLimit
  fundedMaxDrawdownPct : Within (1 / 10) 100 settings.fundedMaxDrawdownPct

section Fields

variable {input : SettingsInput} {key fallback : String}

/-- A fallback that begins with a number leaves only the text that there is. -/
theorem begins_textOr_iff {Begins : String → Prop} (hfallback : Begins fallback) :
    Begins (input.textOr key fallback) ↔ input.Readable key Begins := by
  rw [SettingsInput.textOr, SettingsInput.Readable]
  cases input.get key with
  | none => exact iff_of_true hfallback fun text htext => by cases htext
  | some text =>
    by_cases hempty : text = ""
    · subst hempty
      refine iff_of_true hfallback ?_
      rintro _ ⟨⟩ hne
      exact absurd rfl hne
    · rw [Option.filter_some, if_pos (decide_eq_true hempty), Option.getD_some]
      constructor
      · rintro hbegins _ ⟨⟩ -
        exact hbegins
      · intro hreadable
        exact hreadable text rfl hempty

theorem within_float_iff {low high : ℚ} (hbounds : low ≤ high) (hfallback : BeginsNumber fallback) :
    Within low high (mathMax low (mathMin high (parseFloatNumber (input.textOr key fallback)))) ↔
      input.Readable key BeginsNumber := by
  rw [within_clamp_iff hbounds, ne_eq, parseFloatNumber_eq_nan_iff, not_not, begins_textOr_iff hfallback]

theorem within_int_iff {low high : ℚ} (hbounds : low ≤ high) (hfallback : BeginsInteger fallback) :
    Within low high (mathMax low (mathMin high (parseIntNumber (input.textOr key fallback)))) ↔
      input.Readable key BeginsInteger := by
  rw [within_clamp_iff hbounds, ne_eq, parseIntNumber_eq_nan_iff, not_not, begins_textOr_iff hfallback]

theorem phase2MaxDrawdownPct_iff :
    Within (1 / 10) 100 (normalizeProgressionSettings input).phase2MaxDrawdownPct ↔
      input.Readable "phase2_max_drawdown_pct" BeginsNumber :=
  within_float_iff (by norm_num) (.inr (.inl ⟨'1', by decide, rfl⟩))

theorem fundedMaxDrawdownPct_iff :
    Within (1 / 10) 100 (normalizeProgressionSettings input).fundedMaxDrawdownPct ↔
      input.Readable "funded_max_drawdown_pct" BeginsNumber :=
  within_float_iff (by norm_num) (.inr (.inl ⟨'5', by decide, rfl⟩))

theorem normalizeProgressionSettings_usable_iff : (normalizeProgressionSettings input).Usable ↔
    input.Readable "phase2_profit_target_pct" BeginsNumber ∧ input.Readable "phase2_max_drawdown_pct" BeginsNumber ∧
    input.Readable "phase2_day_limit" BeginsInteger ∧ input.Readable "funded_max_drawdown_pct" BeginsNumber := by
  have hprofit : Within (1 / 10) 100 (normalizeProgressionSettings input).phase2ProfitTargetPct ↔
      input.Readable "phase2_profit_target_pct" BeginsNumber :=
    within_float_iff (by norm_num) (.inr (.inl ⟨'5', by decide, rfl⟩))
  have hdays : Within 1 365 (normalizeProgressionSettings input).phase2DayLimit ↔
      input.Readable "phase2_day_limit" BeginsInteger :=
    within_int_iff (by norm_num) ⟨'3', by decide, rfl⟩
  rw [← hprofit, ← hdays, ← phase2MaxDrawdownPct_iff, ← fundedMaxDrawdownPct_iff]
  constructor
  · intro husable
    exact ⟨husable.phase2ProfitTargetPct, husable.phase2MaxDrawdownPct, husable.phase2DayLimit,
      husable.fundedMaxDrawdownPct⟩
  · rintro ⟨hprofit, hphase2, hdays, hfunded⟩
    exact ⟨hprofit, hphase2, hdays, hfunded⟩

end Fields

/-! ### The limit of a new account -/

/-- A limit that a loss can reach. -/
def PositiveLimit (x : Number) : Prop := ∃ q, x = .finite q ∧ 0 < q

/-- The column keeps a limit within the bounds, and a `NaN`. -/
theorem positiveLimit_fit_iff {limit stored : Number} (hlimit : limit = .nan ∨ Within (1 / 10) 100 limit)
    (hfit : limit.fit 5 2 = some stored) : PositiveLimit stored ↔ Within (1 / 10) 100 limit := by
  obtain rfl | hwithin := hlimit
  · obtain rfl := Option.some.inj hfit
    refine iff_of_false ?_ ?_
    · rintro ⟨q, hq, -⟩
      cases hq
    · rintro ⟨q, hq, -⟩
      cases hq
  · refine iff_of_true ?_ hwithin
    obtain ⟨q, rfl, hlow, -⟩ := hwithin
    rw [Number.fit] at hfit
    split at hfit
    · obtain rfl := Option.some.inj hfit
      refine ⟨_, rfl, ?_⟩
      have htenths : (10 : ℤ) ≤ roundHalfAway (q * 10 ^ 2) := by
        rw [← roundHalfAway_intCast (α := ℚ) 10]
        exact roundHalfAway_mono (by push_cast; linarith)
      have hpos : (0 : ℚ) < roundHalfAway (q * 10 ^ 2) := Int.cast_pos.mpr (by omega)
      exact div_pos hpos (by norm_num)
    · cases hfit

theorem nan_or_within_clamp {low high : ℚ} (hbounds : low ≤ high) (x : Number) :
    mathMax low (mathMin high x) = .nan ∨ Within low high (mathMax low (mathMin high x)) := by
  by_cases hnan : x = .nan
  · subst hnan
    exact .inl rfl
  · exact .inr ((within_clamp_iff hbounds).mpr hnan)

theorem insertPhase2_limit_iff {acc : PassedAccount} {input : SettingsInput} {now : ℤ} {accountUid : String}
    {row : AccountInsert} (h : insertPhase2 acc (normalizeProgressionSettings input) now accountUid = some row) :
    PositiveLimit row.maxDrawdownPct ↔ input.Readable "phase2_max_drawdown_pct" BeginsNumber := by
  obtain ⟨phaseEndDate, -, h⟩ := Option.bind_eq_some_iff.mp h
  obtain ⟨profitTarget, -, h⟩ := Option.bind_eq_some_iff.mp h
  obtain ⟨maxDrawdownPct, hfit, h⟩ := Option.bind_eq_some_iff.mp h
  obtain rfl := Option.some.inj h
  exact (positiveLimit_fit_iff (nan_or_within_clamp (by norm_num) _) hfit).trans phase2MaxDrawdownPct_iff

theorem insertFunded_limit_iff {acc : PassedAccount} {input : SettingsInput} {accountUid : String}
    {row : AccountInsert} (h : insertFunded acc (normalizeProgressionSettings input) accountUid = some row) :
    PositiveLimit row.maxDrawdownPct ↔ input.Readable "funded_max_drawdown_pct" BeginsNumber := by
  obtain ⟨maxDrawdownPct, hfit, h⟩ := Option.bind_eq_some_iff.mp h
  obtain rfl := Option.some.inj h
  exact (positiveLimit_fit_iff (nan_or_within_clamp (by norm_num) _) hfit).trans fundedMaxDrawdownPct_iff

/-! ### The rules are finite -/

def IsFinite (x : Number) : Prop := ∃ q, x = .finite q

structure TradingRules.Finite (rules : TradingRules) : Prop where
  minHoldSeconds : IsFinite rules.minHoldSeconds
  forexLotsPer1k : IsFinite rules.forexLotsPer1k
  commodityLotsPer1k : IsFinite rules.commodityLotsPer1k
  minLotSize : IsFinite rules.minLotSize
  maxTradesPer1k : IsFinite rules.maxTradesPer1k
  maxOpenPositions : IsFinite rules.maxOpenPositions
  maxDailyTrades : IsFinite rules.maxDailyTrades
  maxNotionalMultiple : IsFinite rules.maxNotionalMultiple
  dynamicCommissionPerLot : IsFinite rules.dynamicCommissionPerLot
  slippageMaxPipsAdverse : IsFinite rules.slippageMaxPipsAdverse

theorem isFinite_finiteOr {value : Option Number} {fallback : Number} (hfallback : IsFinite fallback) :
    IsFinite (finiteOr value fallback) := by
  cases value with
  | none => exact hfallback
  | some value =>
    cases value with
    | nan => exact hfallback
    | infinity negative => exact hfallback
    | finite x => exact ⟨x, rfl⟩

theorem defaultTradingRules_finite : defaultTradingRules.Finite := by
  constructor <;> exact ⟨_, rfl⟩

theorem resolveTradingRules_finite (settings : String → Option String) : (resolveTradingRules settings).Finite := by
  have hdefault := defaultTradingRules_finite
  constructor
  · exact isFinite_finiteOr hdefault.minHoldSeconds
  · exact isFinite_finiteOr hdefault.forexLotsPer1k
  · exact isFinite_finiteOr hdefault.commodityLotsPer1k
  · exact isFinite_finiteOr hdefault.minLotSize
  · exact isFinite_finiteOr hdefault.maxTradesPer1k
  · exact isFinite_finiteOr hdefault.maxOpenPositions
  · exact isFinite_finiteOr hdefault.maxDailyTrades
  · exact isFinite_finiteOr hdefault.maxNotionalMultiple
  · exact isFinite_finiteOr hdefault.dynamicCommissionPerLot
  · exact isFinite_finiteOr hdefault.slippageMaxPipsAdverse

/-- What an action returns is finite, and so is what it leaves in the cache. -/
theorem getTradingRules_finite {cache : Option CachedRules} (hcache : ∀ cached ∈ cache, cached.value.Finite)
    (action : RulesAction) : (∀ rules ∈ (getTradingRules cache action).1, rules.Finite) ∧
      ∀ cached ∈ (getTradingRules cache action).2, cached.value.Finite := by
  cases action with
  | begin now =>
    refine ⟨?_, hcache⟩
    intro rules hrules
    obtain ⟨cached, hcached, rfl⟩ := Option.map_eq_some_iff.mp hrules
    exact hcache cached (Option.filter_eq_some_iff.mp hcached).1
  | resolve settings cachedAt =>
    cases settings with
    | none =>
      refine ⟨?_, hcache⟩
      rintro _ ⟨⟩
      exact defaultTradingRules_finite
    | some settings =>
      constructor
      · rintro _ ⟨⟩
        exact resolveTradingRules_finite settings
      · rintro _ ⟨⟩
        exact resolveTradingRules_finite settings
  | invalidate =>
    constructor
    · rintro _ ⟨⟩
    · rintro _ ⟨⟩

theorem returnedRules_finite {cache : Option CachedRules} (hcache : ∀ cached ∈ cache, cached.value.Finite)
    (actions : List RulesAction) : ∀ rules ∈ returnedRules cache actions, rules.Finite := by
  induction actions generalizing cache with
  | nil => exact fun _ hrules => absurd hrules List.not_mem_nil
  | cons action actions ih =>
    obtain ⟨hreturned, hcache⟩ := getTradingRules_finite hcache action
    intro rules hrules
    obtain hnow | hlater := List.mem_append.mp hrules
    · exact hreturned rules (Option.mem_toList.mp hnow)
    · exact ih hcache rules hlater

/-- The bounds hold if every setting that is there begins with a number, and so does the limit of a new
account by its own setting. The trading rules are finite whatever the settings are. -/
theorem numericSettings_usable_iff (input : SettingsInput) :
    ((normalizeProgressionSettings input).Usable ↔
      input.Readable "phase2_profit_target_pct" BeginsNumber ∧ input.Readable "phase2_max_drawdown_pct" BeginsNumber ∧
      input.Readable "phase2_day_limit" BeginsInteger ∧ input.Readable "funded_max_drawdown_pct" BeginsNumber) ∧
    (∀ acc now accountUid row, insertPhase2 acc (normalizeProgressionSettings input) now accountUid = some row →
      (PositiveLimit row.maxDrawdownPct ↔ input.Readable "phase2_max_drawdown_pct" BeginsNumber)) ∧
    (∀ acc accountUid row, insertFunded acc (normalizeProgressionSettings input) accountUid = some row →
      (PositiveLimit row.maxDrawdownPct ↔ input.Readable "funded_max_drawdown_pct" BeginsNumber)) ∧
    (∀ actions, ∀ rules ∈ returnedRules none actions, rules.Finite) ∧
    ∀ low high x, Within low high x → ∀ bound, x.exceeds bound = true ∨ x.below bound = true ∨ x = .finite bound := by
  refine ⟨?_, ?_, ?_, ?_, ?_⟩
  · exact normalizeProgressionSettings_usable_iff
  · intro acc now accountUid row h
    exact insertPhase2_limit_iff h
  · intro acc accountUid row h
    exact insertFunded_limit_iff h
  · intro actions
    apply returnedRules_finite
    rintro _ ⟨⟩
  · intro low high x hx bound
    exact hx.compares bound

/-- A limit that is written out in words. -/
def wordSettings : SettingsInput := .rows [("phase2_max_drawdown_pct", "ten percent")]

theorem wordSettings_nan : (normalizeProgressionSettings wordSettings).phase2MaxDrawdownPct = .nan ∧
    ((insertPhase2 ⟨"u1", 50000⟩ (normalizeProgressionSettings wordSettings) 1785000000000 "P2-1").map
      AccountInsert.maxDrawdownPct) = some .nan ∧
    ∀ bound, Number.exceeds bound .nan = false ∧ Number.below bound .nan = false :=
  ⟨by decide +kernel, by decide +kernel, fun _ => ⟨rfl, rfl⟩⟩

end PropFirm
