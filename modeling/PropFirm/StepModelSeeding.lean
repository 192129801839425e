import Mathlib
import PropFirm.Lib.SqlRows
import PropFirm.Lib.Table
import PropFirm.Lib.Transition

/-!
# Challenge models and their seeds

Every process runs `ensureStepModelInfrastructure` before it first touches a challenge model: it inserts the
models and prices of the rules sheet, and where a row is there already it overwrites the columns it lists. The
administrator's routes change the same rows.

A model is held under its slug with its price rows under their account size, in place of the two ids that join
the tables. `updated_at` stands apart from the columns, since every statement stamps it.
-/

namespace PropFirm

open Sql
open Transition (Reach)

inductive ModelColumn
  | name | description | steps | isActive | displayOrder
  | profitTargetsPct | dailyDrawdownPct | maxDrawdownPct | drawdownType | drawdownLocksAtBreakeven
  | fundedMaxDrawdownPct | fundedDailyDrawdownPct | timeLimitsDays | consistencyRuleEnabled
  | consistencyMaxDayPct | minTradingDays | minDailyProfitPct
  | noMartingale | noGridTrading | noEaBots | noHedging
  | newsRestrictionEnabled | newsRestrictionMinutes | allowOvernight | allowWeekendHolding
  | profitSplitPct | scalingEnabled | scalingTargetPct | scalingMultiplier | scalingMaxAccountSize
  | freeRetries | maxLeverage
  | consistencyMaxDayPctByPhase | fundedDrawdownLocksAtPct | fundedMinTradingDaysForPayout
  | fundedPayoutMinNetProfitPct | fundedConsistencyMaxDayPct | payoutFrequency
  | scalingIncreasePerMilestonePct
  deriving DecidableEq

namespace ModelColumn

def type : ModelColumn → ColumnType
  | name | description | drawdownType | payoutFrequency => .text
  | steps | displayOrder | minTradingDays | newsRestrictionMinutes | scalingMaxAccountSize | freeRetries
  | maxLeverage | fundedMinTradingDaysForPayout => .integer
  | isActive | drawdownLocksAtBreakeven | consistencyRuleEnabled | noMartingale | noGridTrading | noEaBots
  | noHedging | newsRestrictionEnabled | allowOvernight | allowWeekendHolding | scalingEnabled => .boolean
  | profitTargetsPct | timeLimitsDays | consistencyMaxDayPctByPhase => .jsonb
  | dailyDrawdownPct | maxDrawdownPct | fundedMaxDrawdownPct | fundedDailyDrawdownPct | consistencyMaxDayPct
  | minDailyProfitPct | profitSplitPct | scalingTargetPct | scalingMultiplier => .numeric 5 2
  | fundedDrawdownLocksAtPct | fundedPayoutMinNetProfitPct | fundedConsistencyMaxDayPct
  | scalingIncreasePerMilestonePct => .number

/-- The defaults of the table's declaration; the seeds fill the columns without one. -/
def default : ModelColumn → Value
  | steps => .num (.finite 1)
  | displayOrder => .num (.finite 0)
  | isActive | consistencyRuleEnabled | noMartingale | noGridTrading | noEaBots | newsRestrictionEnabled
  | allowOvernight | allowWeekendHolding | scalingEnabled => .bool true
  | drawdownLocksAtBreakeven | noHedging => .bool false
  | profitTargetsPct => .json [some 10]
  | timeLimitsDays => .json [some 30]
  | dailyDrawdownPct | fundedDailyDrawdownPct => .num (.finite 3)
  | maxDrawdownPct | fundedMaxDrawdownPct => .num (.finite 4)
  | drawdownType => .text "eod_trailing"
  | consistencyMaxDayPct => .num (.finite 24)
  | minTradingDays | newsRestrictionMinutes => .num (.finite 5)
  | minDailyProfitPct => .num (.finite (1 / 2))
  | profitSplitPct => .num (.finite 100)
  | scalingTargetPct => .num (.finite 10)
  | scalingMultiplier => .num (.finite 2)
  | scalingMaxAccountSize => .num (.finite 200000)
  | freeRetries => .num (.finite 1)
  | maxLeverage => .num (.finite 20)
  | _ => .null

end ModelColumn

inductive PricingColumn
  | price | currency | isActive | isUnlimited | slotLimit
  deriving DecidableEq

namespace PricingColumn

def type : PricingColumn → ColumnType
  | price => .numeric 10 2
  | currency => .text
  | isActive | isUnlimited => .boolean
  | slotLimit => .integer

def default : PricingColumn → Value
  | currency => .text "USD"
  | isActive | isUnlimited => .bool true
  | price | slotLimit => .null

end PricingColumn

abbrev ModelRow := Row ModelColumn.type

abbrev PricingRow := Row PricingColumn.type

def ModelRow.defaults : ModelRow where
  get := ModelColumn.default
  typed c := by cases c <;> decide +kernel

def PricingRow.defaults : PricingRow where
  get := PricingColumn.default
  typed c := by cases c <;> decide +kernel

structure StepModelEntry where
  row : ModelRow
  pricing : ℕ → Option PricingRow
  updatedAt : ℕ

/-- The models by slug. -/
abbrev ChallengeModels := String → Option StepModelEntry

/-! ### The seeds -/

structure StepModelSeed where
  slug : String
  name : String
  description : String
  steps : ℕ
  displayOrder : ℕ
  profitTargetsPct : List ℚ
  dailyDrawdownPct : ℚ
  maxDrawdownPct : ℚ
  timeLimitsDays : List ℚ
  consistencyMaxDayPctByPhase : List ℚ
  consistencyMaxDayPct : ℚ
  minTradingDays : ℕ
  minDailyProfitPct : ℚ
  newsRestrictionMinutes : ℕ
  scalingTargetPct : ℚ
  scalingMultiplier : ℚ
  scalingMaxAccountSize : ℕ
  scalingIncreasePerMilestonePct : ℚ

def stepModelSeed : List StepModelSeed := [
  { slug := "1-step"
    name := "1-Step"
    description := "Single-phase evaluation: hit a 16% profit target within 45 days while staying inside a 4% trailing drawdown."
    steps := 1, displayOrder := 1
    profitTargetsPct := [16], dailyDrawdownPct := 2, maxDrawdownPct := 4
    timeLimitsDays := [45], consistencyMaxDayPctByPhase := [15], consistencyMaxDayPct := 15
    minTradingDays := 5, minDailyProfitPct := 3 / 4, newsRestrictionMinutes := 2
    scalingTargetPct := 6, scalingMultiplier := 2, scalingMaxAccountSize := 30000000
    scalingIncreasePerMilestonePct := 25 },
  { slug := "2-step"
    name := "2-Step"
    description := "Two-phase evaluation: 10% then 8% profit targets, 45 days per phase, 4% trailing drawdown."
    steps := 2, displayOrder := 2
    profitTargetsPct := [10, 8], dailyDrawdownPct := 2, maxDrawdownPct := 4
    timeLimitsDays := [45, 45], consistencyMaxDayPctByPhase := [15, 15], consistencyMaxDayPct := 15
    minTradingDays := 5, minDailyProfitPct := 3 / 4, newsRestrictionMinutes := 2
    scalingTargetPct := 6, scalingMultiplier := 2, scalingMaxAccountSize := 30000000
    scalingIncreasePerMilestonePct := 25 },
  { slug := "3-step"
    name := "3-Step"
    description := "Three-phase evaluation: 8%/6%/6% profit targets, 45 days per phase, 4% trailing drawdown."
    steps := 3, displayOrder := 3
    profitTargetsPct := [8, 6, 6], dailyDrawdownPct := 2, maxDrawdownPct := 4
    timeLimitsDays := [45, 45, 45], consistencyMaxDayPctByPhase := [15, 15, 15]
    consistencyMaxDayPct := 15
    minTradingDays := 5, minDailyProfitPct := 3 / 4, newsRestrictionMinutes := 2
    scalingTargetPct := 6, scalingMultiplier := 2, scalingMaxAccountSize := 30000000
    scalingIncreasePerMilestonePct := 25 }]

def accountSizes : List ℕ := [5000, 10000, 25000, 50000, 100000, 200000, 400000]

/-- The prices of a model, in the order of `accountSizes`. -/
def pricingSeed (slug : String) : List ℕ :=
  if slug = "1-step" then [7, 12, 22, 34, 49, 79, 99]
  else if slug = "2-step" then [5, 9, 17, 27, 39, 64, 79]
  else [4, 7, 13, 20, 29, 48, 59]

namespace StepModelSeed

/-- The columns that the insert's conflict clause lists. -/
def conflictSet (seed : StepModelSeed) : List (ModelColumn × Value) :=
  let num (x : ℚ) : Value := .num (.finite x)
  let json (xs : List ℚ) : Value := .json (xs.map some)
  [(.name, .text seed.name), (.description, .text seed.description), (.steps, num seed.steps),
    (.displayOrder, num seed.displayOrder), (.profitTargetsPct, json seed.profitTargetsPct),
    (.dailyDrawdownPct, num seed.dailyDrawdownPct), (.maxDrawdownPct, num seed.maxDrawdownPct),
    (.drawdownType, .text "trailing"), (.timeLimitsDays, json seed.timeLimitsDays),
    (.consistencyMaxDayPctByPhase, json seed.consistencyMaxDayPctByPhase),
    (.consistencyMaxDayPct, num seed.consistencyMaxDayPct), (.minTradingDays, num seed.minTradingDays),
    (.minDailyProfitPct, num seed.minDailyProfitPct),
    (.newsRestrictionMinutes, num seed.newsRestrictionMinutes),
    (.allowOvernight, .bool false), (.allowWeekendHolding, .bool false), (.profitSplitPct, num 100),
    (.scalingTargetPct, num seed.scalingTargetPct), (.scalingMultiplier, num seed.scalingMultiplier),
    (.scalingIncreasePerMilestonePct, num seed.scalingIncreasePerMilestonePct),
    (.scalingMaxAccountSize, num seed.scalingMaxAccountSize), (.fundedMaxDrawdownPct, num 4),
    (.fundedDailyDrawdownPct, num 2), (.fundedDrawdownLocksAtPct, num 2),
    (.fundedMinTradingDaysForPayout, num 10), (.fundedPayoutMinNetProfitPct, num 6),
    (.fundedConsistencyMaxDayPct, num 15), (.payoutFrequency, .text "on_demand"),
    (.noMartingale, .bool true), (.noGridTrading, .bool true), (.noEaBots, .bool true),
    (.noHedging, .bool true)]

/-- The columns that the insert itself fills. -/
def insertSet (seed : StepModelSeed) : List (ModelColumn × Value) :=
  (.isActive, .bool true) :: seed.conflictSet

end StepModelSeed

def pricingConflictSet (price : ℕ) : List (PricingColumn × Value) :=
  [(.price, .num (.finite price)), (.isActive, .bool true)]

def pricingInsertSet (price : ℕ) : List (PricingColumn × Value) :=
  [(.currency, .text "USD"), (.isUnlimited, .bool true)] ++ pricingConflictSet price

/-- `INSERT … ON CONFLICT … DO UPDATE`. -/
def upsertRow {C : Type} [DecidableEq C] {type : C → ColumnType} (defaults : Row type)
    (insert conflict : List (C × Value)) : Option (Row type) → Option (Row type)
  | none => defaults.update? insert
  | some row => row.update? conflict

/-- The seeding of one model's prices. -/
def upsertPricing (pricing : ℕ → Option PricingRow) : List (ℕ × ℕ) → Option (ℕ → Option PricingRow)
  | [] => some pricing
  | (size, price) :: rest =>
    (upsertRow PricingRow.defaults (pricingInsertSet price) (pricingConflictSet price) (pricing size)).bind
      fun row => upsertPricing (Function.update pricing size (some row)) rest

namespace ChallengeModels

def upsertModel (db : ChallengeModels) (now : ℕ) (seed : StepModelSeed) : Option ChallengeModels := do
  let existing := db seed.slug
  let row ← upsertRow ModelRow.defaults seed.insertSet seed.conflictSet (existing.map StepModelEntry.row)
  let pricing ← upsertPricing (existing.elim (fun _ => none) StepModelEntry.pricing)
    (accountSizes.zip (pricingSeed seed.slug))
  return Function.update db seed.slug (some ⟨row, pricing, now⟩)

/-- `CASE steps WHEN 1 THEN '1-step' … ELSE slug END`. -/
def plainSlug (slug : String) (m : StepModelEntry) : String :=
  if m.row.get .steps = .num (.finite 1) then "1-step"
  else if m.row.get .steps = .num (.finite 2) then "2-step"
  else if m.row.get .steps = .num (.finite 3) then "3-step"
  else slug

/-- One row of the rename; the slug is unique. -/
def renameModel (db : ChallengeModels) (slug : String) : Option ChallengeModels :=
  match db slug with
  | none => some db
  | some m =>
    let target := plainSlug slug m
    if target = slug then some db
    else if (db target).isSome then none
    else some (Function.update (Function.update db slug none) target (some m))

def renameLegacy (db : ChallengeModels) : Option ChallengeModels :=
  ["stellar", "fusion", "quantum"].foldlM renameModel db

/-- The statements of one run behind the declarations, when none of them fails. -/
def ensureStepModelInfrastructure (db : ChallengeModels) (now : ℕ) : Option ChallengeModels := do
  let db ← db.renameLegacy
  stepModelSeed.foldlM (fun db seed => db.upsertModel now seed) db

end ChallengeModels

/-! ### The administrator's routes -/

/-- The numbers of a body are what `parseFloat` and `parseInt` make of its fields. -/
structure PhaseBody where
  profitTargetPct : Option Number
  maxTimeLimitDays : Option Number
  consistencyRulePct : Option Number
  trailingMaxDrawdownPct : Option Number
  dailyLossLimitPct : Option Number
  minTradingDays : Option Number

structure ScalingBody where
  scalingEnabled : Option Bool
  scalingTargetPct : Option Number
  scalingMultiplier : Option Number
  scalingIncreasePerMilestonePct : Option Number
  scalingMaxAccountSize : Option Number

/-- `slotLimit` is `some none` for a limit to be cleared. -/
structure PricingBody where
  price : Number
  isActive : Option Bool
  isUnlimited : Option Bool
  slotLimit : Option (Option ℕ)

/-- `xs[i] = x` on a copy, stringified: a hole or a number that is not finite is `null`. -/
def setPhase (xs : List (Option ℚ)) (i : ℕ) (x : Number) : List (Option ℚ) :=
  let item := match x with
    | .finite q => some q
    | _ => none
  (xs ++ List.replicate (i + 1 - xs.length) none).set i item

/-- `Array.isArray(v) ? [...v] : []`, with the edited phase. -/
def phaseArray (v : Value) (i : ℕ) (x : Option Number) : Value :=
  let xs := match v with
    | .json items => items
    | _ => []
  .json (x.elim xs (setPhase xs i))

/-- `parseFloat` of a column's value. -/
def parsed : Value → Number
  | .num x => x
  | _ => .nan

/-- What a route sets in one row: the columns its body mentions, and the whole `SET` list. -/
structure ColumnEdit (C : Type) where
  mentioned : List C
  set : List (C × Value)

def given {C α : Type} (c : C) (x : Option α) : List C := if x.isSome then [c] else []

/-- `none` stands for an answer other than success. -/
def patchPhase (phaseIndex : ℕ) (body : PhaseBody) (row : ModelRow) : Option (ColumnEdit ModelColumn) :=
  if phaseIndex < 1 ∨ (parsed (row.get .steps)).below phaseIndex then none
  else
    let i := phaseIndex - 1
    some {
      mentioned := given .profitTargetsPct body.profitTargetPct ++
        given .timeLimitsDays body.maxTimeLimitDays ++
        given .consistencyMaxDayPctByPhase body.consistencyRulePct ++
        given .maxDrawdownPct body.trailingMaxDrawdownPct ++ given .dailyDrawdownPct body.dailyLossLimitPct ++
        given .minTradingDays body.minTradingDays
      set := [
        (.profitTargetsPct, phaseArray (row.get .profitTargetsPct) i body.profitTargetPct),
        (.timeLimitsDays, phaseArray (row.get .timeLimitsDays) i body.maxTimeLimitDays),
        (.consistencyMaxDayPctByPhase,
          phaseArray (row.get .consistencyMaxDayPctByPhase) i body.consistencyRulePct),
        (.maxDrawdownPct, body.trailingMaxDrawdownPct.elim (row.get .maxDrawdownPct) .num),
        (.dailyDrawdownPct, body.dailyLossLimitPct.elim (row.get .dailyDrawdownPct) .num),
        (.minTradingDays, body.minTradingDays.elim (row.get .minTradingDays) .num)] }

def patchScaling (body : ScalingBody) (row : ModelRow) : Option (ColumnEdit ModelColumn) :=
  let target := body.scalingTargetPct.getD (parsed (row.get .scalingTargetPct))
  let multiplier := body.scalingMultiplier.getD (parsed (row.get .scalingMultiplier))
  let increase := body.scalingIncreasePerMilestonePct.getD
    (if row.get .scalingIncreasePerMilestonePct = .null then .finite 0
      else parsed (row.get .scalingIncreasePerMilestonePct))
  let maxSize := body.scalingMaxAccountSize.getD (parsed (row.get .scalingMaxAccountSize))
  if target.exceeds 0 && multiplier.exceeds 1 && !increase.below 0 && maxSize.exceeds 0 then
    some {
      mentioned := given .scalingEnabled body.scalingEnabled ++
        given .scalingTargetPct body.scalingTargetPct ++
        given .scalingMultiplier body.scalingMultiplier ++
        given .scalingIncreasePerMilestonePct body.scalingIncreasePerMilestonePct ++
        given .scalingMaxAccountSize body.scalingMaxAccountSize
      set := [
        (.scalingEnabled, body.scalingEnabled.elim (row.get .scalingEnabled) .bool),
        (.scalingTargetPct, .num target), (.scalingMultiplier, .num multiplier),
        (.scalingIncreasePerMilestonePct, .num increase), (.scalingMaxAccountSize, .num maxSize)] }
  else none

def toggleStepModel (enabled : Bool) (_ : ModelRow) : Option (ColumnEdit ModelColumn) :=
  some ⟨[.isActive], [(.isActive, .bool enabled)]⟩

def slotValue : Option ℕ → Value
  | none => .null
  | some n => .num (.finite n)

def patchPricing (body : PricingBody) (row : PricingRow) : Option (ColumnEdit PricingColumn) :=
  let unlimited := body.isUnlimited.elim (row.get .isUnlimited) .bool
  let slotLimit := body.slotLimit.elim (row.get .slotLimit) slotValue
  if ¬body.price.IsFiniteNonneg ∨ unlimited ≠ .bool true ∧ slotLimit = .null then none
  else
    some {
      mentioned := .price :: given .isActive body.isActive ++ given .isUnlimited body.isUnlimited ++
        given .slotLimit body.slotLimit
      set := [
        (.price, .num body.price), (.isActive, body.isActive.elim (row.get .isActive) .bool),
        (.isUnlimited, unlimited), (.slotLimit, slotLimit)] }

/-! ### Runs -/

/-- A column of a model, or of the price of one of its account sizes. -/
inductive ModelCell
  | model (slug : String) (c : ModelColumn)
  | price (slug : String) (size : ℕ) (c : PricingColumn)
  deriving DecidableEq

def ChallengeModels.cell (db : ChallengeModels) : ModelCell → Option Value
  | .model slug c => (db slug).map fun m => m.row.get c
  | .price slug size c => (db slug).bind fun m => (m.pricing size).map fun row => row.get c

/-- What every run writes to a cell that is there. -/
def seedValue : ModelCell → Option Value
  | .model slug c => (stepModelSeed.find? fun seed => seed.slug = slug).bind fun seed => seed.conflictSet.lookup c
  | .price slug size c =>
    (stepModelSeed.find? fun seed => seed.slug = slug).bind fun seed =>
      ((accountSizes.zip (pricingSeed seed.slug)).lookup size).bind fun price => (pricingConflictSet price).lookup c

theorem ChallengeModels.cell_model (db : ChallengeModels) (slug : String) (c : ModelColumn) :
    db.cell (.model slug c) = (db slug).map fun m => m.row.get c := rfl

theorem ChallengeModels.cell_price (db : ChallengeModels) (slug : String) (size : ℕ) (c : PricingColumn) :
    db.cell (.price slug size c) = (db slug).bind fun m => (m.pricing size).map fun row => row.get c := rfl

theorem seedValue_model (slug : String) (c : ModelColumn) : seedValue (.model slug c) =
    (stepModelSeed.find? fun seed => seed.slug = slug).bind fun seed => seed.conflictSet.lookup c := rfl

theorem seedValue_price (slug : String) (size : ℕ) (c : PricingColumn) : seedValue (.price slug size c) =
    (stepModelSeed.find? fun seed => seed.slug = slug).bind fun seed =>
      ((accountSizes.zip (pricingSeed seed.slug)).lookup size).bind fun price =>
        (pricingConflictSet price).lookup c := rfl

/-- `edited` holds what the administrator last set a cell to, as it was stored. -/
structure SeededWorld where
  models : ChallengeModels
  edited : ModelCell → Option Value

inductive SeedingAction
  | ensure (now : ℕ)
  | toggle (slug : String) (enabled : Bool) (now : ℕ)
  | phase (slug : String) (phaseIndex : ℕ) (body : PhaseBody) (now : ℕ)
  | scaling (slug : String) (body : ScalingBody) (now : ℕ)
  | pricing (slug : String) (size : ℕ) (body : PricingBody)

namespace SeededWorld

def editModel (w : SeededWorld) (slug : String) (now : ℕ) (route : ModelRow → Option (ColumnEdit ModelColumn)) :
    Option SeededWorld := do
  let m ← w.models slug
  let edit ← route m.row
  let row ← m.row.update? edit.set
  return {
    models := Function.update w.models slug (some { m with row := row, updatedAt := now })
    edited := fun cell => match cell with
      | .model slug' c => if slug' = slug ∧ c ∈ edit.mentioned then some (row.get c) else w.edited cell
      | .price .. => w.edited cell }

def editPricing (w : SeededWorld) (slug : String) (size : ℕ)
    (route : PricingRow → Option (ColumnEdit PricingColumn)) : Option SeededWorld := do
  let m ← w.models slug
  let existing ← m.pricing size
  let edit ← route existing
  let row ← existing.update? edit.set
  return {
    models := Function.update w.models slug
      (some { m with pricing := Function.update m.pricing size (some row) })
    edited := fun cell => match cell with
      | .model .. => w.edited cell
      | .price slug' size' c =>
        if (slug' = slug ∧ size' = size) ∧ c ∈ edit.mentioned then some (row.get c) else w.edited cell }

def step (w : SeededWorld) : SeedingAction → Option SeededWorld
  | .ensure now => (w.models.ensureStepModelInfrastructure now).map fun models => { w with models }
  | .toggle slug enabled now => w.editModel slug now (toggleStepModel enabled)
  | .phase slug phaseIndex body now => w.editModel slug now (patchPhase phaseIndex body)
  | .scaling slug body now => w.editModel slug now (patchScaling body)
  | .pricing slug size body => w.editPricing slug size (patchPricing body)

/-- What some run has left, before any edit. -/
def Start (w : SeededWorld) : Prop :=
  (∃ db now, ChallengeModels.ensureStepModelInfrastructure db now = some w.models) ∧ ∀ k, w.edited k = none

/-- The next run keeps every edit, and the one after it changes no column. -/
def SurvivesRestart (w : SeededWorld) : Prop :=
  ∀ now, ∃ db, w.models.ensureStepModelInfrastructure now = some db ∧
    (∀ k v, w.edited k = some v → db.cell k = some v) ∧
    ∀ now', ∃ db', db.ensureStepModelInfrastructure now' = some db' ∧ ∀ k, db'.cell k = db.cell k

/-- Where the runs write, the administrator has set what they write. -/
def EditsAsSeeded (w : SeededWorld) : Prop := ∀ k v s, w.edited k = some v → seedValue k = some s → v = s

end SeededWorld

/-! ### What a run writes -/

def StepModelEntry.Complete (m : StepModelEntry) : Prop := ∀ size ∈ accountSizes, (m.pricing size).isSome

section Seeds

variable {seed : StepModelSeed} (hseed : seed ∈ stepModelSeed)

include hseed

theorem conflictSet_nodup : (seed.conflictSet.map Prod.fst).Nodup ∧ (seed.insertSet.map Prod.fst).Nodup := by
  fin_cases hseed <;> decide

theorem insertSet_fixed : ∀ a ∈ seed.insertSet, a.1.type.cast a.2 = some a.2 := by
  fin_cases hseed <;> decide +kernel

theorem pricing_fixed : ∀ entry ∈ accountSizes.zip (pricingSeed seed.slug),
    ∀ a ∈ pricingInsertSet entry.2, a.1.type.cast a.2 = some a.2 := by
  fin_cases hseed <;> decide +kernel

theorem pricing_sizes : (accountSizes.zip (pricingSeed seed.slug)).map Prod.fst = accountSizes := by
  fin_cases hseed <;> decide

end Seeds

section Upserts

variable {C : Type} [DecidableEq C] {type : C → ColumnType} {defaults : Row type} {insert conflict : List (C × Value)}

theorem upsertRow_isSome (existing : Option (Row type)) (hsub : conflict ⊆ insert)
    (hfixed : ∀ a ∈ insert, (type a.1).cast a.2 = some a.2) :
    (upsertRow defaults insert conflict existing).isSome := by
  cases existing with
  | none => exact Row.update?_isSome _ fun a ha => Option.isSome_of_eq_some (hfixed a ha)
  | some row => exact Row.update?_isSome _ fun a ha => Option.isSome_of_eq_some (hfixed a (hsub ha))

end Upserts

theorem pricingConflictSet_subset (price : ℕ) : pricingConflictSet price ⊆ pricingInsertSet price :=
  List.subset_append_right _ _

theorem pricingConflictSet_nodup (price : ℕ) : ((pricingConflictSet price).map Prod.fst).Nodup := by
  simp [pricingConflictSet]

theorem upsertPricing_spec {entries : List (ℕ × ℕ)} (hnodup : (entries.map Prod.fst).Nodup)
    (hfixed : ∀ entry ∈ entries, ∀ a ∈ pricingInsertSet entry.2, a.1.type.cast a.2 = some a.2)
    (pricing : ℕ → Option PricingRow) :
    ∃ pricing', upsertPricing pricing entries = some pricing' ∧
      (∀ size, (entries.lookup size).isSome → (pricing' size).isSome) ∧
      (∀ size, entries.lookup size = none → pricing' size = pricing size) ∧
      ∀ size row, pricing size = some row → ∃ row', pricing' size = some row' ∧ ∀ c, row'.get c =
        ((entries.lookup size).bind fun price => (pricingConflictSet price).lookup c).getD (row.get c) := by
  induction entries generalizing pricing with
  | nil => exact ⟨pricing, rfl, fun _ h => (Bool.false_ne_true h).elim, fun _ _ => rfl,
      fun _ row hrow => ⟨row, hrow, fun _ => rfl⟩⟩
  | cons entry entries ih =>
    obtain ⟨size, price⟩ := entry
    rw [List.map_cons, List.nodup_cons] at hnodup
    obtain ⟨hfresh, hnodup⟩ := hnodup
    have hrow := hfixed _ List.mem_cons_self
    have hsome : (upsertRow PricingRow.defaults _ _ (pricing size)).isSome :=
      upsertRow_isSome (pricing size) (pricingConflictSet_subset price) hrow
    obtain ⟨stored, hstored⟩ := Option.isSome_iff_exists.mp hsome
    obtain ⟨pricing', hrest, hthere, hother, hrows⟩ := ih hnodup
      (fun entry hentry => hfixed entry (List.mem_cons_of_mem _ hentry))
      (Function.update pricing size (some stored))
    have hnone : entries.lookup size = none := lookup_eq_none.mpr hfresh
    refine ⟨pricing', ?_, fun size' hsize' => ?_, fun size' hsize' => ?_, fun size' row hrow' => ?_⟩
    · rw [upsertPricing, hstored, Option.bind_some]
      exact hrest
    · by_cases hs : size' = size
      · rw [hs, hother size hnone, Function.update_self]
        rfl
      · rw [List.lookup_cons, beq_false_of_ne hs] at hsize'
        exact hthere size' hsize'
    · by_cases hs : size' = size
      · rw [hs, List.lookup_cons_self] at hsize'
        cases hsize'
      · rw [List.lookup_cons, beq_false_of_ne hs] at hsize'
        rw [hother size' hsize', Function.update_of_ne hs]
    · by_cases hs : size' = size
      · subst hs
        refine ⟨stored, by rw [hother size' hnone, Function.update_self], fun c => ?_⟩
        rw [hrow', upsertRow] at hstored
        rw [Row.update?_get hstored (pricingConflictSet_nodup price)
          (fun a ha => hrow a (pricingConflictSet_subset price ha)) c, List.lookup_cons_self]
        rfl
      · obtain ⟨row', hpricing', hget⟩ := hrows size' row ((Function.update_of_ne hs ..).trans hrow')
        refine ⟨row', hpricing', fun c => ?_⟩
        rw [hget c, List.lookup_cons, beq_false_of_ne hs]

/-- A run has gone over the model: each cell it writes has the seed's value, the others are as they were. -/
structure StepModelSeed.Reseeds (seed : StepModelSeed) (m m' : StepModelEntry) : Prop where
  row : ∀ c, m'.row.get c = (seed.conflictSet.lookup c).getD (m.row.get c)
  priced : ∀ size row, m.pricing size = some row → ∃ row', m'.pricing size = some row' ∧ ∀ c, row'.get c =
    (((accountSizes.zip (pricingSeed seed.slug)).lookup size).bind fun price =>
      (pricingConflictSet price).lookup c).getD (row.get c)
  unpriced : ∀ size, m.pricing size = none → size ∉ accountSizes → m'.pricing size = none

theorem lookup_sizes {seed : StepModelSeed} (hseed : seed ∈ stepModelSeed) (size : ℕ) :
    (accountSizes.zip (pricingSeed seed.slug)).lookup size = none ↔ size ∉ accountSizes := by
  rw [lookup_eq_none, pricing_sizes hseed]

namespace ChallengeModels

theorem upsertModel_spec (db : ChallengeModels) (now : ℕ) {seed : StepModelSeed} (hseed : seed ∈ stepModelSeed) :
    ∃ m', db.upsertModel now seed = some (Function.update db seed.slug (some m')) ∧ m'.Complete ∧
      ∀ m, db seed.slug = some m → seed.Reseeds m m' := by
  have hfixed := insertSet_fixed hseed
  have hsub : seed.conflictSet ⊆ seed.insertSet := List.subset_cons_self _ _
  have hsome : (upsertRow ModelRow.defaults _ _ ((db seed.slug).map StepModelEntry.row)).isSome :=
    upsertRow_isSome ((db seed.slug).map StepModelEntry.row) hsub hfixed
  obtain ⟨row, hrow⟩ := Option.isSome_iff_exists.mp hsome
  have hsizes : ((accountSizes.zip (pricingSeed seed.slug)).map Prod.fst).Nodup := by
    rw [pricing_sizes hseed]
    decide
  obtain ⟨pricing, hpricing, hthere, hother, hpriced⟩ := upsertPricing_spec hsizes (pricing_fixed hseed)
    ((db seed.slug).elim (fun _ => none) StepModelEntry.pricing)
  refine ⟨⟨row, pricing, now⟩, ?_, fun size hsize => hthere size ?_, fun m hm => ?_⟩
  · rw [upsertModel, hrow, hpricing]
    rfl
  · by_contra hnone
    exact (lookup_sizes hseed size).mp (Option.not_isSome_iff_eq_none.mp hnone) hsize
  · rw [hm] at hrow hother hpriced
    refine ⟨fun c => ?_, hpriced, fun size hnone hsize => ?_⟩
    · exact Row.update?_get hrow (conflictSet_nodup hseed).1 (fun a ha => hfixed a (hsub ha)) c
    · exact (hother size ((lookup_sizes hseed size).mpr hsize)).trans hnone

/-- What seeding does to the entry of a slug. -/
def SeedsEntry (before after : Option StepModelEntry) : Option StepModelSeed → Prop
  | none => after = before
  | some seed => ∃ m', after = some m' ∧ m'.Complete ∧ ∀ m, before = some m → seed.Reseeds m m'

theorem foldlM_upsertModel {seeds : List StepModelSeed} (hsub : seeds ⊆ stepModelSeed)
    (hnodup : (seeds.map StepModelSeed.slug).Nodup) (db : ChallengeModels) (now : ℕ) :
    ∃ db', seeds.foldlM (fun db seed => db.upsertModel now seed) db = some db' ∧
      ∀ slug, SeedsEntry (db slug) (db' slug) (seeds.find? fun seed => seed.slug = slug) := by
  induction seeds generalizing db with
  | nil => exact ⟨db, rfl, fun _ => rfl⟩
  | cons seed seeds ih =>
    rw [List.map_cons, List.nodup_cons] at hnodup
    obtain ⟨m', hstep, hcomplete, hreseeds⟩ := db.upsertModel_spec now (hsub List.mem_cons_self)
    obtain ⟨db', hrest, hentries⟩ := ih (fun s hs => hsub (List.mem_cons_of_mem seed hs)) hnodup.2
      (Function.update db seed.slug (some m'))
    refine ⟨db', by rw [List.foldlM_cons, hstep]; exact hrest, fun slug => ?_⟩
    have hentry := hentries slug
    by_cases hslug : seed.slug = slug
    · subst hslug
      have hnone : (seeds.find? fun s => s.slug = seed.slug) = none := by
        rw [List.find?_eq_none]
        intro s hs
        simpa using fun h : s.slug = seed.slug => hnodup.1 (h ▸ List.mem_map_of_mem hs)
      rw [hnone, Function.update_self] at hentry
      rw [List.find?_cons_of_pos (by simp)]
      exact ⟨m', hentry, hcomplete, hreseeds⟩
    · rw [List.find?_cons_of_neg (by simpa using hslug)]
      rwa [Function.update_of_ne (Ne.symm hslug)] at hentry

theorem seeds_nodup : (stepModelSeed.map StepModelSeed.slug).Nodup := by decide

/-- No model is left that the rename would move. -/
def Renamed (db : ChallengeModels) : Prop :=
  ∀ slug ∈ ["stellar", "fusion", "quantum"], ∀ m, db slug = some m → plainSlug slug m = slug

structure Settled (db : ChallengeModels) : Prop where
  renamed : db.Renamed
  complete : ∀ seed ∈ stepModelSeed, ∃ m, db seed.slug = some m ∧ m.Complete

theorem plainSlug_cases (slug : String) (m : StepModelEntry) :
    plainSlug slug m = slug ∨ plainSlug slug m ∈ ["1-step", "2-step", "3-step"] := by
  unfold plainSlug
  split_ifs
  · exact .inr (by decide)
  · exact .inr (by decide)
  · exact .inr (by decide)
  · exact .inl rfl

theorem renameModel_spec {db db' : ChallengeModels} {slug : String} (hrename : db.renameModel slug = some db') :
    (∀ m, db' slug = some m → plainSlug slug m = slug) ∧
      ∀ other, other ≠ slug → other ∉ ["1-step", "2-step", "3-step"] → db' other = db other := by
  unfold renameModel at hrename
  split at hrename
  · next hnone =>
    obtain rfl := Option.some.inj hrename
    refine ⟨fun m hm => ?_, fun _ _ _ => rfl⟩
    rw [hnone] at hm
    cases hm
  · next m hm =>
    dsimp only at hrename
    split_ifs at hrename with hplain htaken
    · obtain rfl := Option.some.inj hrename
      refine ⟨fun m' hm' => ?_, fun _ _ _ => rfl⟩
      obtain rfl := Option.some.inj (hm.symm.trans hm')
      exact hplain
    · obtain rfl := Option.some.inj hrename
      have htarget := (plainSlug_cases slug m).resolve_left hplain
      refine ⟨fun m' hm' => ?_, fun other hslug hother => ?_⟩
      · rw [Function.update_of_ne (Ne.symm hplain), Function.update_self] at hm'
        cases hm'
      · have hne : other ≠ plainSlug slug m := by
          rintro rfl
          exact hother htarget
        rw [Function.update_of_ne hne, Function.update_of_ne hslug]

theorem renameLegacy_renamed {db db' : ChallengeModels} (hrename : db.renameLegacy = some db') :
    db'.Renamed := by
  obtain ⟨db₁, hstellar, hrename⟩ := Option.bind_eq_some_iff.mp hrename
  obtain ⟨db₂, hfusion, hrename⟩ := Option.bind_eq_some_iff.mp hrename
  obtain ⟨db₃, hquantum, hrename⟩ := Option.bind_eq_some_iff.mp hrename
  obtain rfl := Option.some.inj hrename
  intro slug hslug m hm
  fin_cases hslug
  · rw [(renameModel_spec hquantum).2 "stellar" (by decide) (by decide),
      (renameModel_spec hfusion).2 "stellar" (by decide) (by decide)] at hm
    exact (renameModel_spec hstellar).1 m hm
  · rw [(renameModel_spec hquantum).2 "fusion" (by decide) (by decide)] at hm
    exact (renameModel_spec hfusion).1 m hm
  · exact (renameModel_spec hquantum).1 m hm

theorem Renamed.renameLegacy {db : ChallengeModels} (hrenamed : db.Renamed) : db.renameLegacy = some db := by
  have hkeep : ∀ slug ∈ ["stellar", "fusion", "quantum"], db.renameModel slug = some db := by
    intro slug hslug
    unfold renameModel
    split
    · rfl
    · next m hm => exact if_pos (hrenamed slug hslug m hm)
  rw [ChallengeModels.renameLegacy, List.foldlM_cons, hkeep _ (by decide), Option.bind_eq_bind, Option.bind_some,
    List.foldlM_cons, hkeep _ (by decide), Option.bind_eq_bind, Option.bind_some, List.foldlM_cons,
    hkeep _ (by decide)]
  rfl

/-- A run on what the rename left. -/
theorem ensure_entries {db : ChallengeModels} (hrenamed : db.Renamed) (now : ℕ) :
    ∃ db', db.ensureStepModelInfrastructure now = some db' ∧
      (∀ slug, SeedsEntry (db slug) (db' slug) (stepModelSeed.find? fun seed => seed.slug = slug)) ∧
      db'.Settled := by
  obtain ⟨db', hfold, hentries⟩ := foldlM_upsertModel (List.Subset.refl stepModelSeed) seeds_nodup db now
  refine ⟨db', ?_, hentries, fun slug hslug m hm => ?_, fun seed hseed => ?_⟩
  · rw [ensureStepModelInfrastructure, hrenamed.renameLegacy]
    exact hfold
  · have hentry := hentries slug
    have hnone : (stepModelSeed.find? fun seed => seed.slug = slug) = none := by
      fin_cases hslug <;> decide
    rw [hnone] at hentry
    exact hrenamed slug hslug m (hentry.symm.trans hm)
  · have hentry := hentries seed.slug
    rw [(List.find?_key_eq_some seeds_nodup).mpr ⟨hseed, rfl⟩] at hentry
    obtain ⟨m', hm', hcomplete, -⟩ := hentry
    exact ⟨m', hm', hcomplete⟩

theorem settled_of_ensure {db db' : ChallengeModels} {now : ℕ}
    (hensure : db.ensureStepModelInfrastructure now = some db') : db'.Settled := by
  obtain ⟨db₁, hrename, hfold⟩ := Option.bind_eq_some_iff.mp hensure
  have hrenamed := renameLegacy_renamed hrename
  obtain ⟨db₂, hensure₂, -, hsettled⟩ := ensure_entries hrenamed now
  rw [ensureStepModelInfrastructure, hrenamed.renameLegacy] at hensure₂
  obtain rfl := Option.some.inj (hensure₂.symm.trans hfold)
  exact hsettled

/-- On settled tables a run writes the seeds' values and nothing else. -/
theorem Settled.ensure {db : ChallengeModels} (hsettled : db.Settled) (now : ℕ) :
    ∃ db', db.ensureStepModelInfrastructure now = some db' ∧ db'.Settled ∧
      ∀ k, db'.cell k = (seedValue k).or (db.cell k) := by
  obtain ⟨db', hensure, hentries, hsettled'⟩ := ensure_entries hsettled.renamed now
  refine ⟨db', hensure, hsettled', fun k => ?_⟩
  cases k with
  | model slug c =>
    have hentry := hentries slug
    rw [cell_model, cell_model, seedValue_model]
    cases hfind : stepModelSeed.find? fun seed => seed.slug = slug with
    | none =>
      rw [hfind] at hentry
      rw [hentry]
      rfl
    | some seed =>
      rw [hfind] at hentry
      obtain ⟨hseed, rfl⟩ := (List.find?_key_eq_some seeds_nodup).mp hfind
      obtain ⟨m, hm, -⟩ := hsettled.complete seed hseed
      obtain ⟨m', hm', -, hreseeds⟩ := hentry
      rw [hm', hm, Option.map_some, Option.map_some, (hreseeds m hm).row c, Option.bind_some]
      cases seed.conflictSet.lookup c <;> rfl
  | price slug size c =>
    have hentry := hentries slug
    rw [cell_price, cell_price, seedValue_price]
    cases hfind : stepModelSeed.find? fun seed => seed.slug = slug with
    | none =>
      rw [hfind] at hentry
      rw [hentry]
      rfl
    | some seed =>
      rw [hfind] at hentry
      obtain ⟨hseed, rfl⟩ := (List.find?_key_eq_some seeds_nodup).mp hfind
      obtain ⟨m, hm, hcomplete⟩ := hsettled.complete seed hseed
      obtain ⟨m', hm', -, hreseeds⟩ := hentry
      rw [hm', hm, Option.bind_some, Option.bind_some, Option.bind_some]
      cases hrow : m.pricing size with
      | none =>
        have hsize : size ∉ accountSizes := fun h => by
          have := hcomplete size h
          rw [hrow] at this
          cases this
        rw [(hreseeds m hm).unpriced size hrow hsize, (lookup_sizes hseed size).mpr hsize]
        rfl
      | some row =>
        obtain ⟨row', hrow', hget⟩ := (hreseeds m hm).priced size row hrow
        rw [hrow', Option.map_some, Option.map_some, hget c]
        cases ((accountSizes.zip (pricingSeed seed.slug)).lookup size).bind
          fun price => (pricingConflictSet price).lookup c <;> rfl

end ChallengeModels

/-! ### What an edit writes -/

/-- An edit of a model sets each column once, a column that is asked for to no null, one that its body leaves
out to what the row has there, unless that is null, and never the steps. -/
structure ColumnEdit.Sound (edit : ColumnEdit ModelColumn) (row : ModelRow) : Prop where
  nodup : (edit.set.map Prod.fst).Nodup
  unmentioned : ∀ a ∈ edit.set, a.1 ∉ edit.mentioned → row.get a.1 = .null ∨ a.2 = row.get a.1
  listed : ∀ c ∈ edit.mentioned, ∃ v, (c, v) ∈ edit.set ∧ v ≠ .null
  steps : .steps ∉ edit.set.map Prod.fst

theorem not_mem_given {C α : Type} {c : C} {x : Option α} : c ∉ given c x ↔ x = none := by
  cases x <;> simp [given]

theorem mem_given {C α : Type} {c c' : C} {x : Option α} : c' ∈ given c x ↔ c' = c ∧ x.isSome := by
  cases x <;> simp [given]

theorem phaseArray_ne_null (v : Value) (i : ℕ) (x : Option Number) : phaseArray v i x ≠ .null := by
  intro h
  cases h

theorem phaseArray_none {v : Value} (htyped : ColumnType.jsonb.cast v = some v) (i : ℕ) :
    v = .null ∨ phaseArray v i none = v := by
  cases v with
  | null => exact .inl rfl
  | json items => exact .inr rfl
  | bool b => cases htyped
  | num x => cases htyped
  | text s => cases htyped

/-- A column of numbers is read as it is stored. -/
theorem num_parsed {t : ColumnType} {v : Value} (htyped : t.cast v = some v)
    (ht : t ≠ .boolean ∧ t ≠ .text ∧ t ≠ .jsonb) : v = .null ∨ .num (parsed v) = v := by
  cases v with
  | null => exact .inl rfl
  | num x => exact .inr rfl
  | bool b => exact absurd (Option.ite_some_none_eq_some.mp htyped).1 ht.1
  | text s => exact absurd (Option.ite_some_none_eq_some.mp htyped).1 ht.2.1
  | json items => exact absurd (Option.ite_some_none_eq_some.mp htyped).1 ht.2.2

theorem patchPhase_sound {phaseIndex : ℕ} {body : PhaseBody} {row : ModelRow} {edit : ColumnEdit ModelColumn}
    (hedit : patchPhase phaseIndex body row = some edit) : edit.Sound row := by
  unfold patchPhase at hedit
  split_ifs at hedit
  obtain rfl := Option.some.inj hedit
  refine ⟨by simp, fun a ha hnot => ?_, fun c hc => ?_, by simp⟩
  · simp only [List.mem_append, not_or] at hnot
    obtain ⟨⟨⟨⟨⟨hprofit, htime⟩, hconsistency⟩, hmax⟩, hdaily⟩, hdays⟩ := hnot
    fin_cases ha
    · rw [not_mem_given.mp hprofit]
      exact phaseArray_none (row.typed .profitTargetsPct) _
    · rw [not_mem_given.mp htime]
      exact phaseArray_none (row.typed .timeLimitsDays) _
    · rw [not_mem_given.mp hconsistency]
      exact phaseArray_none (row.typed .consistencyMaxDayPctByPhase) _
    · rw [not_mem_given.mp hmax]
      exact .inr rfl
    · rw [not_mem_given.mp hdaily]
      exact .inr rfl
    · rw [not_mem_given.mp hdays]
      exact .inr rfl
  · simp only [List.mem_append, mem_given] at hc
    rcases hc with ((((⟨rfl, h⟩ | ⟨rfl, h⟩) | ⟨rfl, h⟩) | ⟨rfl, h⟩) | ⟨rfl, h⟩) | ⟨rfl, h⟩
    · exact ⟨_, .head _, phaseArray_ne_null _ _ _⟩
    · exact ⟨_, .tail _ (.head _), phaseArray_ne_null _ _ _⟩
    · exact ⟨_, .tail _ (.tail _ (.head _)), phaseArray_ne_null _ _ _⟩
    all_goals
      obtain ⟨x, hx⟩ := Option.isSome_iff_exists.mp h
      exact ⟨.num x, by simp [hx], by simp⟩

theorem patchScaling_sound {body : ScalingBody} {row : ModelRow} {edit : ColumnEdit ModelColumn}
    (hedit : patchScaling body row = some edit) : edit.Sound row := by
  obtain ⟨-, rfl⟩ := Option.ite_some_none_eq_some.mp hedit
  refine ⟨by simp, fun a ha hnot => ?_, fun c hc => ?_, by simp⟩
  · simp only [List.mem_append, not_or] at hnot
    obtain ⟨⟨⟨⟨henabled, htarget⟩, hmultiplier⟩, hincrease⟩, hsize⟩ := hnot
    fin_cases ha
    · rw [not_mem_given.mp henabled]
      exact .inr rfl
    · rw [not_mem_given.mp htarget]
      exact num_parsed (row.typed .scalingTargetPct) (by decide)
    · rw [not_mem_given.mp hmultiplier]
      exact num_parsed (row.typed .scalingMultiplier) (by decide)
    · rw [not_mem_given.mp hincrease]
      by_cases hnull : row.get .scalingIncreasePerMilestonePct = .null
      · exact .inl hnull
      · rw [Option.getD_none, if_neg hnull]
        exact num_parsed (row.typed .scalingIncreasePerMilestonePct) (by decide)
    · rw [not_mem_given.mp hsize]
      exact num_parsed (row.typed .scalingMaxAccountSize) (by decide)
  · simp only [List.mem_append, mem_given] at hc
    rcases hc with (((⟨rfl, h⟩ | ⟨rfl, h⟩) | ⟨rfl, h⟩) | ⟨rfl, h⟩) | ⟨rfl, h⟩
    · obtain ⟨b, hb⟩ := Option.isSome_iff_exists.mp h
      exact ⟨.bool b, by simp [hb], by simp⟩
    · exact ⟨_, .tail _ (.head _), by simp⟩
    · exact ⟨_, .tail _ (.tail _ (.head _)), by simp⟩
    · exact ⟨_, .tail _ (.tail _ (.tail _ (.head _))), by simp⟩
    · exact ⟨_, .tail _ (.tail _ (.tail _ (.tail _ (.head _)))), by simp⟩

theorem toggleStepModel_sound {enabled : Bool} {row : ModelRow} {edit : ColumnEdit ModelColumn}
    (hedit : toggleStepModel enabled row = some edit) : edit.Sound row := by
  obtain rfl := Option.some.inj hedit
  refine ⟨by simp, fun a ha hnot => ?_, fun c hc => ?_, by simp⟩
  · obtain rfl := List.mem_singleton.mp ha
    exact absurd List.mem_cons_self hnot
  · obtain rfl := List.mem_singleton.mp hc
    exact ⟨.bool enabled, List.mem_cons_self, by simp⟩

theorem patchPricing_sound {body : PricingBody} {row : PricingRow} {edit : ColumnEdit PricingColumn}
    (hedit : patchPricing body row = some edit) :
    (edit.set.map Prod.fst).Nodup ∧ ∀ a ∈ edit.set, a.1 ∉ edit.mentioned → a.2 = row.get a.1 := by
  unfold patchPricing at hedit
  dsimp only at hedit
  split_ifs at hedit
  obtain rfl := Option.some.inj hedit
  refine ⟨by simp, fun a ha hnot => ?_⟩
  simp only [List.mem_append, List.mem_cons, not_or] at hnot
  obtain ⟨⟨⟨hprice, hactive⟩, hunlimited⟩, hslot⟩ := hnot
  fin_cases ha
  · exact absurd rfl hprice
  · rw [not_mem_given.mp hactive]
    rfl
  · rw [not_mem_given.mp hunlimited]
    rfl
  · rw [not_mem_given.mp hslot]
    rfl

namespace SeededWorld

/-- Where the runs do not write, a cell holds what the administrator last set it to. -/
structure Inv (w : SeededWorld) : Prop where
  settled : w.models.Settled
  kept : ∀ k v, w.edited k = some v → seedValue k = none → w.models.cell k = some v
  set : ∀ slug c v, w.edited (.model slug c) = some v → v ≠ .null

theorem Start.inv {w : SeededWorld} (hstart : w.Start) : w.Inv := by
  obtain ⟨⟨db, now, hensure⟩, hedited⟩ := hstart
  refine ⟨ChallengeModels.settled_of_ensure hensure, fun k v hk => ?_, fun slug c v hk => ?_⟩
  · rw [hedited] at hk
    cases hk
  · rw [hedited] at hk
    cases hk

theorem Inv.ensure {w : SeededWorld} (hinv : w.Inv) {now : ℕ} {db : ChallengeModels}
    (hensure : w.models.ensureStepModelInfrastructure now = some db) : Inv { w with models := db } := by
  obtain ⟨db', hensure', hsettled, hcell⟩ := hinv.settled.ensure now
  obtain rfl := Option.some.inj (hensure.symm.trans hensure')
  refine ⟨hsettled, fun k v hk hseed => ?_, hinv.set⟩
  rw [hcell k, hseed, Option.none_or]
  exact hinv.kept k v hk hseed

theorem editModel_eq_some {w w' : SeededWorld} {slug : String} {now : ℕ}
    {route : ModelRow → Option (ColumnEdit ModelColumn)} (hedit : w.editModel slug now route = some w') :
    ∃ m edit row, w.models slug = some m ∧ route m.row = some edit ∧ m.row.update? edit.set = some row ∧
      w'.models = Function.update w.models slug (some { m with row := row, updatedAt := now }) ∧
      (∀ slug' c, w'.edited (.model slug' c) =
        if slug' = slug ∧ c ∈ edit.mentioned then some (row.get c) else w.edited (.model slug' c)) ∧
      ∀ slug' size c, w'.edited (.price slug' size c) = w.edited (.price slug' size c) := by
  obtain ⟨m, hm, hedit⟩ := Option.bind_eq_some_iff.mp hedit
  obtain ⟨edit, hroute, hedit⟩ := Option.bind_eq_some_iff.mp hedit
  obtain ⟨row, hrow, hedit⟩ := Option.bind_eq_some_iff.mp hedit
  obtain rfl := Option.some.inj hedit
  exact ⟨m, edit, row, hm, hroute, hrow, rfl, fun _ _ => rfl, fun _ _ _ => rfl⟩

theorem editPricing_eq_some {w w' : SeededWorld} {slug : String} {size : ℕ}
    {route : PricingRow → Option (ColumnEdit PricingColumn)} (hedit : w.editPricing slug size route = some w') :
    ∃ m existing edit row, w.models slug = some m ∧ m.pricing size = some existing ∧
      route existing = some edit ∧ existing.update? edit.set = some row ∧
      w'.models = Function.update w.models slug
        (some { m with pricing := Function.update m.pricing size (some row) }) ∧
      (∀ slug' c, w'.edited (.model slug' c) = w.edited (.model slug' c)) ∧
      ∀ slug' size' c, w'.edited (.price slug' size' c) =
        if (slug' = slug ∧ size' = size) ∧ c ∈ edit.mentioned then some (row.get c)
        else w.edited (.price slug' size' c) := by
  obtain ⟨m, hm, hedit⟩ := Option.bind_eq_some_iff.mp hedit
  obtain ⟨existing, hexisting, hedit⟩ := Option.bind_eq_some_iff.mp hedit
  obtain ⟨edit, hroute, hedit⟩ := Option.bind_eq_some_iff.mp hedit
  obtain ⟨row, hrow, hedit⟩ := Option.bind_eq_some_iff.mp hedit
  obtain rfl := Option.some.inj hedit
  exact ⟨m, existing, edit, row, hm, hexisting, hroute, hrow, rfl, fun _ _ => rfl, fun _ _ _ => rfl⟩

/-- Replacing a model by one with the same steps and all its prices. -/
theorem settled_update {db : ChallengeModels} (hsettled : db.Settled) {slug : String} {m m' : StepModelEntry}
    (hm : db slug = some m) (hsteps : m'.row.get .steps = m.row.get .steps)
    (hpricing : ∀ size, (m.pricing size).isSome → (m'.pricing size).isSome) :
    ChallengeModels.Settled (Function.update db slug (some m')) := by
  constructor
  · intro slug' hslug' m₁ hm₁
    by_cases hs : slug' = slug
    · rw [hs, Function.update_self] at hm₁
      obtain rfl := Option.some.inj hm₁
      have hplain := hsettled.renamed slug' hslug' m (hs ▸ hm)
      unfold ChallengeModels.plainSlug at hplain ⊢
      rwa [hsteps]
    · rw [Function.update_of_ne hs] at hm₁
      exact hsettled.renamed slug' hslug' m₁ hm₁
  · intro seed hseed
    obtain ⟨m₁, hm₁, hcomplete⟩ := hsettled.complete seed hseed
    by_cases hs : seed.slug = slug
    · rw [hs, hm] at hm₁
      obtain rfl := Option.some.inj hm₁
      exact ⟨m', by rw [hs, Function.update_self], fun size hsize => hpricing size (hcomplete size hsize)⟩
    · exact ⟨m₁, by rw [Function.update_of_ne hs]; exact hm₁, hcomplete⟩

theorem Inv.editModel {w w' : SeededWorld} (hinv : w.Inv) {slug : String} {now : ℕ}
    {route : ModelRow → Option (ColumnEdit ModelColumn)}
    (hsound : ∀ row edit, route row = some edit → edit.Sound row)
    (hedit : w.editModel slug now route = some w') : w'.Inv := by
  obtain ⟨m, edit, row, hm, hroute, hrow, hmodels, hedited, hprices⟩ := editModel_eq_some hedit
  have hedit := hsound m.row edit hroute
  refine ⟨?_, fun k v hk hseed => ?_, fun slug' c v hk => ?_⟩
  · rw [hmodels]
    exact settled_update hinv.settled hm (Row.update?_get_of_not_mem hrow hedit.steps) fun size h => h
  · rw [hmodels]
    cases k with
    | price slug' size c =>
      rw [hprices] at hk
      have hkept := hinv.kept _ v hk hseed
      rw [ChallengeModels.cell_price] at hkept ⊢
      by_cases hs : slug' = slug
      · rw [hs, Function.update_self]
        rwa [hs, hm] at hkept
      · rwa [Function.update_of_ne hs]
    | model slug' c =>
      rw [hedited] at hk
      rw [ChallengeModels.cell_model]
      by_cases hs : slug' = slug
      · rw [hs, Function.update_self, Option.map_some]
        by_cases hc : c ∈ edit.mentioned
        · rwa [if_pos ⟨hs, hc⟩] at hk
        · rw [if_neg fun h => hc h.2] at hk
          have hkept := hinv.kept _ v hk hseed
          rw [ChallengeModels.cell_model, hs, hm, Option.map_some] at hkept
          have hget := Option.some.inj hkept
          have hnull : m.row.get c ≠ .null := hget ▸ hinv.set _ _ _ hk
          rw [← hget]
          exact congrArg some (Row.update?_get_of_same hrow hedit.nodup fun u hu =>
            (hedit.unmentioned _ hu hc).resolve_left hnull)
      · rw [if_neg fun h => hs h.1] at hk
        rw [Function.update_of_ne hs]
        exact hinv.kept _ v hk hseed
  · rw [hedited] at hk
    split_ifs at hk with hc
    · obtain rfl := Option.some.inj hk
      obtain ⟨v, hv, hnull⟩ := hedit.listed c hc.2
      exact ColumnType.cast_ne_null (Row.update?_get_of_mem hrow hedit.nodup hv) hnull
    · exact hinv.set slug' c v hk

theorem cell_price_update {db : ChallengeModels} {slug : String} {m : StepModelEntry} (hm : db slug = some m)
    (size : ℕ) (row : PricingRow) (slug' : String) (size' : ℕ) (c : PricingColumn) :
    ChallengeModels.cell (Function.update db slug
      (some { m with pricing := Function.update m.pricing size (some row) })) (.price slug' size' c) =
      if slug' = slug ∧ size' = size then some (row.get c) else db.cell (.price slug' size' c) := by
  rw [ChallengeModels.cell_price, ChallengeModels.cell_price]
  by_cases hslug : slug' = slug
  · subst hslug
    rw [Function.update_self, hm, Option.bind_some, Option.bind_some]
    by_cases hsize : size' = size
    · subst hsize
      rw [if_pos ⟨rfl, rfl⟩]
      exact congrArg _ (Function.update_self ..)
    · rw [if_neg fun h => hsize h.2]
      exact congrArg _ (Function.update_of_ne hsize ..)
  · rw [Function.update_of_ne hslug, if_neg fun h => hslug h.1]

theorem Inv.editPricing {w w' : SeededWorld} (hinv : w.Inv) {slug : String} {size : ℕ} {body : PricingBody}
    (hedit : w.editPricing slug size (patchPricing body) = some w') : w'.Inv := by
  obtain ⟨m, existing, edit, row, hm, hexisting, hroute, hrow, hmodels, hedited, hprices⟩ :=
    editPricing_eq_some hedit
  obtain ⟨hnodup, hkeep⟩ := patchPricing_sound hroute
  refine ⟨?_, fun k v hk hseed => ?_, fun slug' c v hk => hinv.set slug' c v (hedited slug' c ▸ hk)⟩
  · rw [hmodels]
    refine settled_update hinv.settled hm rfl fun size' h => ?_
    by_cases hs : size' = size
    · subst hs
      exact Option.isSome_of_eq_some (Function.update_self ..)
    · exact (congrArg _ (Function.update_of_ne hs ..)).trans h
  · rw [hmodels]
    cases k with
    | model slug' c =>
      rw [hedited] at hk
      have hkept := hinv.kept _ v hk hseed
      rw [ChallengeModels.cell_model] at hkept ⊢
      by_cases hs : slug' = slug
      · rw [hs, Function.update_self]
        rwa [hs, hm] at hkept
      · rwa [Function.update_of_ne hs]
    | price slug' size' c =>
      rw [hprices] at hk
      rw [cell_price_update hm]
      by_cases hs : slug' = slug ∧ size' = size
      · rw [if_pos hs]
        by_cases hc : c ∈ edit.mentioned
        · rwa [if_pos ⟨hs, hc⟩] at hk
        · rw [if_neg fun h => hc h.2] at hk
          have hkept := hinv.kept _ v hk hseed
          rw [ChallengeModels.cell_price, hs.1, hm, hs.2, Option.bind_some, hexisting, Option.map_some] at hkept
          rw [← hkept]
          exact congrArg some (Row.update?_get_of_same hrow hnodup fun u hu => hkeep _ hu hc)
      · rw [if_neg hs]
        rw [if_neg fun h => hs h.1] at hk
        exact hinv.kept _ v hk hseed

theorem Inv.step {w w' : SeededWorld} {a : SeedingAction} (hinv : w.Inv) (hstep : w.step a = some w') :
    w'.Inv := by
  cases a with
  | ensure now =>
    obtain ⟨db, hensure, rfl⟩ := Option.map_eq_some_iff.mp hstep
    exact hinv.ensure hensure
  | toggle slug enabled now => exact hinv.editModel (fun _ _ => toggleStepModel_sound) hstep
  | phase slug phaseIndex body now => exact hinv.editModel (fun _ _ => patchPhase_sound) hstep
  | scaling slug body now => exact hinv.editModel (fun _ _ => patchScaling_sound) hstep
  | pricing slug size body => exact hinv.editPricing hstep

theorem Inv.survivesRestart_iff {w : SeededWorld} (hinv : w.Inv) : w.SurvivesRestart ↔ w.EditsAsSeeded := by
  constructor
  · intro hsurvives k v s hk hseed
    obtain ⟨db, hensure, hkeeps, -⟩ := hsurvives 0
    obtain ⟨db', hensure', -, hcell⟩ := hinv.settled.ensure 0
    obtain rfl := Option.some.inj (hensure.symm.trans hensure')
    have hvalue := hkeeps k v hk
    rw [hcell k, hseed, Option.some_or] at hvalue
    exact (Option.some.inj hvalue).symm
  · intro hsame now
    obtain ⟨db, hensure, hsettled, hcell⟩ := hinv.settled.ensure now
    refine ⟨db, hensure, fun k v hk => ?_, fun now' => ?_⟩
    · rw [hcell k]
      cases hseed : seedValue k with
      | none => exact hinv.kept k v hk hseed
      | some s => rw [hsame k v s hk hseed, Option.some_or]
    · obtain ⟨db', hensure', -, hcell'⟩ := hsettled.ensure now'
      refine ⟨db', hensure', fun k => ?_⟩
      rw [hcell' k, hcell k]
      cases seedValue k <;> rfl

theorem reached_inv {w : SeededWorld} (hreach : Reach step (fun _ _ => True) Start w) : w.Inv :=
  Reach.invariant (fun _ => Start.inv) (fun _ _ _ hinv _ hstep => Inv.step hinv hstep) hreach

/-- After any number of edits and restarts, the next restart keeps every edit if and only if no edit differs
from the seed where the seed writes. -/
theorem survivesRestart_iff_editsAsSeeded {w : SeededWorld}
    (hreach : Reach step (fun _ _ => True) Start w) : w.SurvivesRestart ↔ w.EditsAsSeeded :=
  reached_inv hreach |>.survivesRestart_iff

/-! ### One scaling target -/

/-- What the first run leaves of empty tables. -/
def fresh : SeededWorld where
  models := (ChallengeModels.ensureStepModelInfrastructure (fun _ => none) 0).getD fun _ => none
  edited _ := none

theorem fresh_start : fresh.Start := by
  have hempty : ChallengeModels.Renamed fun _ => none := fun _ _ m hm => by cases hm
  obtain ⟨db, hensure, -⟩ := ChallengeModels.ensure_entries hempty 0
  refine ⟨⟨_, 0, hensure.trans ?_⟩, fun _ => rfl⟩
  rw [fresh, hensure, Option.getD_some]

def targetOfEight : ScalingBody := ⟨none, some (.finite 8), none, none, none⟩

/-- The milestone of the one-step model is set to eight percent, and the next start sets it back to six. -/
theorem scalingTarget_set_back : ¬∀ w, Reach step (fun _ _ => True) Start w → w.SurvivesRestart := by
  intro hall
  obtain ⟨w, hrun, htest⟩ := Transition.exists_of_run_any step fresh [.scaling "1-step" targetOfEight 1]
    (fun w => w.edited (.model "1-step" .scalingTargetPct) = some (.num (.finite 8))) (by decide +kernel)
  have hreach : Reach step (fun _ _ => True) Start w :=
    .of_run (.init fresh_start) (.of_forall fun _ _ _ => trivial) hrun
  have hsame := (reached_inv hreach).survivesRestart_iff.mp (hall w hreach) (.model "1-step" .scalingTargetPct)
    _ (.num (.finite 6)) (of_decide_eq_true htest) (by decide +kernel)
  exact absurd hsame (by decide)

/-- A model that is switched off stays off. -/
theorem toggle_survives : ∃ w, Transition.run step fresh [.toggle "1-step" false 1] = some w ∧
    w.edited (.model "1-step" .isActive) = some (.bool false) ∧ w.SurvivesRestart := by
  obtain ⟨w, hrun, htest⟩ := Transition.exists_of_run_any step fresh [.toggle "1-step" false 1]
    (fun w => w.edited (.model "1-step" .isActive) = some (.bool false)) (by decide +kernel)
  have hreach : Reach step (fun _ _ => True) Start w :=
    .of_run (.init fresh_start) (.of_forall fun _ _ _ => trivial) hrun
  refine ⟨w, hrun, of_decide_eq_true htest, (survivesRestart_iff_editsAsSeeded hreach).mpr ?_⟩
  obtain ⟨w', hstep, hlast⟩ := Option.bind_eq_some_iff.mp hrun
  obtain rfl := Option.some.inj hlast
  obtain ⟨m, edit, row, -, hroute, -, -, hedited, hprices⟩ := editModel_eq_some hstep
  obtain rfl := Option.some.inj hroute
  intro k v s hk hseed
  cases k with
  | price slug size c =>
    rw [hprices] at hk
    cases hk
  | model slug c =>
    rw [hedited] at hk
    split_ifs at hk with hc
    · obtain rfl := List.mem_singleton.mp hc.2
      rw [hc.1] at hseed
      cases hseed
    · cases hk

end SeededWorld

end PropFirm
