import PropFirm.Schema

/-!
# The drawdown limits in force

Each engine resolves the limits of an account for itself. A funded account with a challenge model
takes the model's funded columns, every other account takes the columns of its own row; the engines
differ in what they fall back to when a funded account has no model, and the event engine reads the
model through a cache that nothing invalidates. A setting that does not parse is a `NaN`, which is
`none` in a limit.
-/

namespace PropFirm

structure Limits where
  maxDrawdownPct : Option ℚ
  dailyDrawdownPct : Option ℚ
  drawdownLocksAtPct : Option ℚ
  deriving DecidableEq

def Account.columnLimits (acc : Account) : Limits :=
  ⟨some acc.maxDrawdownPct, acc.dailyDrawdownPct, none⟩

def StepModel.limits (model : StepModel) : Limits :=
  ⟨some model.fundedMaxDrawdownPct, some model.fundedDailyDrawdownPct, model.fundedDrawdownLocksAtPct⟩

/-- The slug a funded account's model is looked up by; an empty one is falsy. -/
def Account.fundedModelSlug (acc : Account) : Option String :=
  if acc.accountType = .funded then acc.challengeModelSlug.filter (· ≠ "") else none

def Account.fundedModel (db : Db) (acc : Account) : Option StepModel :=
  acc.fundedModelSlug.bind db.fetchStepModelBySlug

def Account.limitsWith (acc : Account) (model : Option StepModel) : Limits :=
  model.elim acc.columnLimits StepModel.limits

def checkFloatingDrawdownLimits (db : Db) (acc : Account) : Limits :=
  acc.limitsWith (acc.fundedModel db)

/-- `_fundedModelCache`: nothing for a slug never asked for, `some none` for one found missing. -/
abbrev FundedModelCache := String → Option (Option StepModel)

/-- What `resolveDrawdownSettings` finds for a slug. A lookup that throws is cached as missing. -/
def FundedModelCache.settings (cache : FundedModelCache) (db : Db) (lookupThrows : Bool)
    (slug : String) : Option StepModel :=
  match cache slug with
  | some settings => settings
  | none => if lookupThrows then none else db.fetchStepModelBySlug slug

/-- `resolveDrawdownSettings`: the limits stored on the index entry, and the cache afterwards. -/
def resolveDrawdownSettings (cache : FundedModelCache) (db : Db) (lookupThrows : Bool) (acc : Account) :
    FundedModelCache × Limits :=
  match acc.fundedModelSlug with
  | none => (cache, acc.columnLimits)
  | some slug =>
    let settings := cache.settings db lookupThrows slug
    (Function.update cache slug (some settings), acc.limitsWith settings)

/-- The platform settings the challenge engine reads, the percentage already clamped. -/
structure PlatformSettings where
  fundedMaxDrawdownPct : Option ℚ
  inactivityAutoFailEnabled : Bool
  inactivityFailDays : ℚ

def idlePlatform : PlatformSettings := ⟨some 10, false, 0⟩

def processAccountLimits (db : Db) (platform : PlatformSettings) (acc : Account) : Limits :=
  match acc.fundedModel db with
  | some model => model.limits
  | none =>
    { acc.columnLimits with
      maxDrawdownPct :=
        if acc.accountType = .funded then platform.fundedMaxDrawdownPct else some acc.maxDrawdownPct }

/-- The limits of `failAccount`'s re-check, which knows no daily limit. -/
def failAccountLimits (db : Db) (acc : Account) : ℚ × Option ℚ :=
  match acc.fundedModel db with
  | some model => (model.fundedMaxDrawdownPct, model.fundedDrawdownLocksAtPct)
  | none => (acc.maxDrawdownPct, none)

def LimitsAgree (cache : FundedModelCache) (db : Db) (lookupThrows : Bool) (platform : PlatformSettings)
    (acc : Account) : Prop :=
  let limits := checkFloatingDrawdownLimits db acc
  (resolveDrawdownSettings cache db lookupThrows acc).2 = limits ∧
    processAccountLimits db platform acc = limits ∧
    some (failAccountLimits db acc).1 = limits.maxDrawdownPct ∧
    (failAccountLimits db acc).2 = limits.drawdownLocksAtPct

instance (cache : FundedModelCache) (db : Db) (lookupThrows : Bool) (platform : PlatformSettings)
    (acc : Account) : Decidable (LimitsAgree cache db lookupThrows platform acc) :=
  inferInstanceAs (Decidable (_ ∧ _ ∧ _ ∧ _))

/-- What the event engine's cache holds for the account's model, or fetches now, limits the account
as the model row itself does. -/
def CacheCurrent (cache : FundedModelCache) (db : Db) (lookupThrows : Bool) (acc : Account) : Prop :=
  ∀ slug, acc.fundedModelSlug = some slug →
    acc.limitsWith (cache.settings db lookupThrows slug)
      = acc.limitsWith (db.fetchStepModelBySlug slug)

/-- A funded account without a model has the platform's maximum drawdown in its own column. -/
def ColumnMatchesPlatform (db : Db) (platform : PlatformSettings) (acc : Account) : Prop :=
  acc.accountType = .funded → acc.fundedModel db = none →
    platform.fundedMaxDrawdownPct = some acc.maxDrawdownPct

theorem resolveDrawdownSettings_eq_iff (cache : FundedModelCache) (db : Db) (lookupThrows : Bool)
    (acc : Account) :
    (resolveDrawdownSettings cache db lookupThrows acc).2 = checkFloatingDrawdownLimits db acc ↔
      CacheCurrent cache db lookupThrows acc := by
  unfold resolveDrawdownSettings checkFloatingDrawdownLimits CacheCurrent Account.fundedModel
  cases hslug : acc.fundedModelSlug with
  | none => simp [Account.limitsWith]
  | some slug => simp

theorem processAccountLimits_eq_iff (db : Db) (platform : PlatformSettings) (acc : Account) :
    processAccountLimits db platform acc = checkFloatingDrawdownLimits db acc ↔
      ColumnMatchesPlatform db platform acc := by
  unfold processAccountLimits checkFloatingDrawdownLimits ColumnMatchesPlatform
  cases hmodel : acc.fundedModel db with
  | some model => simp [Account.limitsWith]
  | none =>
    by_cases hfunded : acc.accountType = .funded
    · simp [Account.limitsWith, Account.columnLimits, hfunded]
    · simp [Account.limitsWith, Account.columnLimits, hfunded]

theorem failAccountLimits_eq (db : Db) (acc : Account) :
    some (failAccountLimits db acc).1 = (checkFloatingDrawdownLimits db acc).maxDrawdownPct ∧
      (failAccountLimits db acc).2 = (checkFloatingDrawdownLimits db acc).drawdownLocksAtPct := by
  unfold failAccountLimits checkFloatingDrawdownLimits
  cases acc.fundedModel db with
  | some model => exact ⟨rfl, rfl⟩
  | none => exact ⟨rfl, rfl⟩

/-- The engines enforce the same limits exactly when the event engine's cache is current and a funded
account without a model carries the platform's maximum drawdown. -/
theorem limitsAgree_iff (cache : FundedModelCache) (db : Db) (lookupThrows : Bool)
    (platform : PlatformSettings) (acc : Account) :
    LimitsAgree cache db lookupThrows platform acc ↔
      CacheCurrent cache db lookupThrows acc ∧ ColumnMatchesPlatform db platform acc := by
  unfold LimitsAgree
  dsimp only
  rw [resolveDrawdownSettings_eq_iff, processAccountLimits_eq_iff,
    and_iff_left (failAccountLimits_eq db acc)]

/-- A funded account without a model whose own column says 10%, on a platform that says 5%: the
challenge engine enforces 5%, everyone else 10%. And a funded account whose model was tightened from
8% to 4% after the event engine cached it. -/
theorem limits_disagree :
    ¬ LimitsAgree (fun _ => none) (Db.initial Table.empty) false ⟨some 5, false, 0⟩
        ({ sampleTerms with accountType := .funded }.provision 1) ∧
      ¬ LimitsAgree (fun _ => some (some ⟨"two-step", 8, 4, none⟩))
        (Db.initial ⟨[⟨"two-step", 4, 2, none⟩], by simp⟩) false ⟨some 10, false, 0⟩
        ({ sampleTerms with accountType := .funded, challengeModelSlug := some "two-step" }.provision 1) := by
  decide +kernel

end PropFirm
