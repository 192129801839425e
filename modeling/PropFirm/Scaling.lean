import Mathlib
import PropFirm.Ledger

/-!
# The scaling plan of funded accounts

Net trading profit earns milestones, a milestone each time the profit grows by a share of the starting
balance. `evaluateScalingPlan` compares the milestones earned with those claimed, under a lock of the account,
and for each new one injects capital through the ledger, as long as the balance stays under the largest size
of the model. The profit is what the balance has beyond the starting balance and all of the ledger, so that
an injection does not count as profit.
-/

namespace PropFirm

open Transition

/-- The scaling columns of a challenge model. The administrators' route takes only a positive size. -/
structure ScalingConfig where
  scalingEnabled : Bool
  scalingTargetPct : ℚ
  scalingMultiplier : ℚ
  scalingMaxAccountSize : ℤ
  scalingIncreasePerMilestonePct : ℚ
  maxPositive : 0 < scalingMaxAccountSize

/-- The scaling columns of an account. -/
structure ScalingColumns where
  scalingMultiplier : ℚ
  scalingMilestonesClaimed : Nat

structure ScalingInjection where
  accountId : Nat
  milestone : Nat
  balanceAfter : Cents
  maxAccountSize : ℤ

def ScalingInjection.entry (injection : ScalingInjection) : Nat × Nat :=
  (injection.accountId, injection.milestone)

/-- `claims` are the milestones that evaluations have claimed, and `injections` those they have injected
capital for, each with its account. -/
structure ScalingWorld where
  db : Db
  configs : String → Option ScalingConfig
  scaling : Nat → ScalingColumns
  claims : List (Nat × Nat)
  injections : List ScalingInjection

/-- What one evaluation is to write. -/
structure ScalingPlan where
  accountId : Nat
  milestonesEarned : Nat
  prevMilestones : Nat
  nextMultiplier : ℚ
  maxAccountSize : ℤ
  perMilestoneAmount : ℚ
  grants : List (Nat × Cents)

inductive ScalingAction
  | commit (stmts : List Stmt)
  | patchScaling (slug : String) (config : ScalingConfig)
  | evaluate (accountId : Nat)

namespace ScalingConfig

variable (config : ScalingConfig)

def perMilestoneAmount (startingBalance : Cents) : ℚ :=
  startingBalance.dollars * config.scalingIncreasePerMilestonePct / 100

def milestonesEarned (netProfitPct : ℚ) : Nat := ⌊netProfitPct / config.scalingTargetPct⌋₊

def nextMultiplier (startingBalance : Cents) (milestonesEarned : Nat) : ℚ :=
  let rawMultiplier := config.scalingMultiplier ^ milestonesEarned
  if 0 < config.scalingMaxAccountSize then
    min rawMultiplier (config.scalingMaxAccountSize / startingBalance.dollars)
  else rawMultiplier

/-- The milestones that capital is injected for, with the balance after each. The first that would take the
balance over the largest size ends the injections. -/
def grants (amount : ℚ) : Cents → List Nat → List (Nat × Cents)
  | _, [] => []
  | latestBalance, milestone :: milestones =>
    if 0 < config.scalingMaxAccountSize ∧ config.scalingMaxAccountSize < latestBalance.dollars + amount then
      []
    else
      let balanceAfter := toCents (latestBalance.dollars + amount)
      (milestone, balanceAfter) :: grants amount balanceAfter milestones

end ScalingConfig

namespace ScalingWorld

def netTradingProfit (db : Db) (acc : Account) : Cents :=
  acc.currentBalance - acc.startingBalance - db.adjustedBy acc.id

def netProfitPct (db : Db) (acc : Account) : ℚ :=
  (netTradingProfit db acc).dollars / acc.startingBalance.dollars * 100

/-- The milestones earned, when these are more than the claimed ones. -/
def milestonesDue (w : ScalingWorld) (config : ScalingConfig) (acc : Account) : Option Nat := do
  guard (config.scalingEnabled ∧ 0 < config.scalingTargetPct ∧ 1 < config.scalingMultiplier)
  guard (0 < acc.startingBalance)
  guard (0 < netProfitPct w.db acc)
  let earned := config.milestonesEarned (netProfitPct w.db acc)
  guard ((w.scaling acc.id).scalingMilestonesClaimed < earned)
  pure earned

def plan (w : ScalingWorld) (accountId : Nat) : Option ScalingPlan := do
  let acc ← w.db.account? accountId
  guard (acc.accountType = .funded)
  let slug ← acc.challengeModelSlug.filter (· ≠ "")
  let config ← w.configs slug
  let earned ← w.milestonesDue config acc
  let prev := (w.scaling accountId).scalingMilestonesClaimed
  let amount := config.perMilestoneAmount acc.startingBalance
  let grants :=
    if 0 < config.scalingIncreasePerMilestonePct then
      config.grants amount acc.currentBalance (List.range' (prev + 1) (earned - prev))
    else []
  pure ⟨accountId, earned, prev, config.nextMultiplier acc.startingBalance earned,
    config.scalingMaxAccountSize, amount, grants⟩

end ScalingWorld

namespace ScalingPlan

variable (p : ScalingPlan)

def statements : List Stmt :=
  p.grants.map fun _ => .adjustBalance p.accountId p.perMilestoneAmount false

def claims : List (Nat × Nat) :=
  (List.range' (p.prevMilestones + 1) (p.milestonesEarned - p.prevMilestones)).map (p.accountId, ·)

def injections : List ScalingInjection :=
  p.grants.map fun grant => ⟨p.accountId, grant.1, grant.2, p.maxAccountSize⟩

end ScalingPlan

namespace ScalingWorld

/-- `none` where nothing is due, and where a statement fails and the evaluation is rolled back. -/
def evaluateScalingPlan (w : ScalingWorld) (accountId : Nat) : Option ScalingWorld := do
  let p ← w.plan accountId
  let db ← execAll w.db p.statements
  pure { w with
    db := db
    scaling := Function.update w.scaling accountId ⟨p.nextMultiplier, p.milestonesEarned⟩
    claims := p.claims ++ w.claims
    injections := p.injections ++ w.injections }

/-- A committed transaction is a list of statements, whether it closes positions, pays out or adjusts. -/
def step (w : ScalingWorld) : ScalingAction → Option ScalingWorld
  | .commit stmts => (execAll w.db stmts).map fun db => { w with db := db }
  | .patchScaling slug config => some { w with configs := Function.update w.configs slug (some config) }
  | .evaluate accountId => some ((w.evaluateScalingPlan accountId).getD w)

/-- Every milestone of an account is claimed once and injects once, and no injection takes a balance over the
largest size. -/
structure ScalesOnce (w : ScalingWorld) : Prop where
  claimed : w.claims.Nodup
  injected : (w.injections.map ScalingInjection.entry).Nodup
  capped : ∀ injection ∈ w.injections, injection.balanceAfter.dollars ≤ injection.maxAccountSize

end ScalingWorld

/-! ### Injections into an account -/

theorem toCents_dollars_add_le (c : Cents) {x : ℚ} (hx : 0 ≤ x) :
    toCents (c.dollars + x) ≤ c + toCents x := by
  have hcents : c.dollars * 100 = ((c : ℤ) : ℚ) := div_mul_cancel₀ _ (by norm_num)
  rw [toCents, toCents, add_mul, hcents]
  exact roundHalfAway_intCast_add_le c (mul_nonneg hx (by norm_num))

section Injections

variable {db db' : Db} {stmts : List Stmt} {id id' : Nat} {amount : ℚ} {acc : Account}

theorem exec_adjustBalance (hexec : (Stmt.adjustBalance id amount false).exec db = some db') :
    toCents amount ≠ 0 ∧ (db.account? id).isSome = true ∧
      db'.accounts = db.accounts.updateAt id (Account.adjusted amount false) := by
  simp only [Stmt.exec] at hexec
  split at hexec
  · cases hexec
  · rename_i hzero
    obtain ⟨acc, hacc, rfl⟩ := Option.map_eq_some_iff.mp hexec
    exact ⟨hzero, by rw [hacc]; rfl, rfl⟩

theorem exec_adjustBalance_isSome (hzero : toCents amount ≠ 0) (hacc : (db.account? id).isSome = true) :
    ((Stmt.adjustBalance id amount false).exec db).isSome = true := by
  obtain ⟨acc, hacc⟩ := Option.isSome_iff_exists.mp hacc
  simp only [Stmt.exec]
  rw [if_neg hzero, hacc]
  rfl

/-- Injections go through when there are none, or when the amount does not round to nothing. -/
theorem execAll_adjustBalance_isSome (hstmts : ∀ stmt ∈ stmts, stmt = .adjustBalance id amount false)
    (hacc : (db.account? id).isSome = true) :
    (execAll db stmts).isSome = true ↔ stmts = [] ∨ toCents amount ≠ 0 := by
  constructor
  · intro hsome
    cases stmts with
    | nil => exact .inl rfl
    | cons stmt stmts =>
      obtain ⟨db', hexec⟩ := Option.isSome_iff_exists.mp hsome
      obtain ⟨mid, hstep, -⟩ := Option.bind_eq_some_iff.mp hexec
      rw [hstmts stmt List.mem_cons_self] at hstep
      exact .inr (exec_adjustBalance hstep).1
  · intro hok
    induction stmts generalizing db with
    | nil => rfl
    | cons stmt stmts ih =>
      have hzero : toCents amount ≠ 0 := hok.resolve_left (List.cons_ne_nil _ _)
      have hfirst := exec_adjustBalance_isSome hzero hacc
      obtain ⟨mid, hstep⟩ := Option.isSome_iff_exists.mp hfirst
      rw [← hstmts stmt List.mem_cons_self] at hstep
      rw [execAll, Transition.run, hstep]
      exact ih (fun s hs => hstmts s (List.mem_cons_of_mem _ hs)) (Stmt.exec_account_isSome hstep hacc)
        (.inr hzero)

/-- Injections leave the profit of the account where it is, or, where they are rounded, below. -/
theorem execAll_adjustBalance_self (hstmts : ∀ stmt ∈ stmts, stmt = .adjustBalance id amount false)
    (hamount : 0 ≤ amount) (hexec : execAll db stmts = some db') (hacc : db.account? id = some acc) :
    ∃ acc', db'.account? id = some acc' ∧ acc'.accountType = acc.accountType ∧
      acc'.challengeModelSlug = acc.challengeModelSlug ∧ acc'.startingBalance = acc.startingBalance ∧
      acc'.currentBalance - db'.adjustedBy id ≤ acc.currentBalance - db.adjustedBy id := by
  induction stmts generalizing db acc with
  | nil =>
    obtain rfl : db = db' := Option.some.inj hexec
    exact ⟨acc, hacc, rfl, rfl, rfl, le_rfl⟩
  | cons stmt stmts ih =>
    obtain ⟨mid, hstep, hrest⟩ := Option.bind_eq_some_iff.mp hexec
    rw [hstmts stmt List.mem_cons_self] at hstep
    have hid : acc.id = id := Db.account?_id hacc
    have hupdate : (Stmt.adjustBalance id amount false).accountUpdate acc
        = (Account.adjusted amount false).apply acc := if_pos hid
    have hmid := Stmt.exec_account? hstep hacc
    have hadjusted : mid.adjustedBy id = toCents amount + db.adjustedBy id := by
      rw [Stmt.exec_adjustedBy hstep, Stmt.adjusts, if_pos rfl]
    rw [hupdate] at hmid
    obtain ⟨acc', hacc', htype, hslug, hstart, hle⟩ :=
      ih (fun s hs => hstmts s (List.mem_cons_of_mem _ hs)) hrest hmid
    refine ⟨acc', hacc', htype, hslug, hstart, hle.trans ?_⟩
    have hround := toCents_dollars_add_le acc.currentBalance hamount
    rw [hadjusted]
    change toCents (acc.currentBalance.dollars + amount) - _ ≤ _
    linarith

/-- Injections into one account are no matter of another. -/
theorem execAll_adjustBalance_other (hstmts : ∀ stmt ∈ stmts, stmt = .adjustBalance id amount false)
    (hexec : execAll db stmts = some db') (hne : id' ≠ id) :
    db'.account? id' = db.account? id' ∧ db'.adjustedBy id' = db.adjustedBy id' := by
  induction stmts generalizing db with
  | nil =>
    obtain rfl : db = db' := Option.some.inj hexec
    exact ⟨rfl, rfl⟩
  | cons stmt stmts ih =>
    obtain ⟨mid, hstep, hrest⟩ := Option.bind_eq_some_iff.mp hexec
    rw [hstmts stmt List.mem_cons_self] at hstep
    obtain ⟨hacc, hadjusted⟩ := ih (fun s hs => hstmts s (List.mem_cons_of_mem _ hs)) hrest
    rw [hacc, hadjusted, Stmt.exec_adjustedBy hstep, Stmt.adjusts, if_neg hne, zero_add, Db.account?,
      (exec_adjustBalance hstep).2.2, Table.find?_updateAt]
    exact ⟨by simp [hne, Db.account?], rfl⟩

end Injections

namespace ScalingConfig

variable {config : ScalingConfig} {amount : ℚ} {balance : Cents} {milestones : List Nat}

theorem grants_prefix : ((config.grants amount balance milestones).map Prod.fst) <+: milestones := by
  induction milestones generalizing balance with
  | nil => exact List.prefix_rfl
  | cons milestone milestones ih =>
    rw [grants]
    split
    · exact List.nil_prefix
    · exact List.prefix_cons_inj milestone |>.mpr ih

/-- The balance after an injection is not over the largest size, which is a whole number of dollars. -/
theorem grants_capped :
    ∀ grant ∈ config.grants amount balance milestones, grant.2.dollars ≤ config.scalingMaxAccountSize := by
  induction milestones generalizing balance with
  | nil => rintro _ ⟨⟩
  | cons milestone milestones ih =>
    rw [grants]
    split
    · rintro _ ⟨⟩
    · rename_i hunder
      intro grant hgrant
      obtain rfl | hlater := List.mem_cons.mp hgrant
      · have hle : balance.dollars + amount ≤ config.scalingMaxAccountSize :=
          not_lt.mp fun hlt => hunder ⟨config.maxPositive, hlt⟩
        have hsize : Cents.dollars (config.scalingMaxAccountSize * 100) = config.scalingMaxAccountSize := by
          rw [Cents.dollars, Int.cast_mul]
          exact mul_div_cancel_right₀ _ (by norm_num)
        rw [← hsize] at hle ⊢
        have hround := toCents_mono hle
        rw [toCents_dollars] at hround
        exact Cents.dollars_le.mpr hround
      · exact ih grant hlater

theorem perMilestoneAmount_nonneg {startingBalance : Cents} (hstart : 0 < startingBalance)
    (hincrease : 0 < config.scalingIncreasePerMilestonePct) :
    0 ≤ config.perMilestoneAmount startingBalance := by
  have hdollars : 0 < startingBalance.dollars := by
    rw [← Cents.dollars_zero]
    exact Cents.dollars_lt.mpr hstart
  rw [perMilestoneAmount]
  positivity

end ScalingConfig

namespace ScalingWorld

variable {w w' : ScalingWorld} {config : ScalingConfig} {acc acc' : Account} {p : ScalingPlan}
  {a : ScalingAction} {accountId id earned : Nat}

/-! ### One evaluation -/

theorem milestonesDue_eq_some (hdue : w.milestonesDue config acc = some earned) :
    0 < config.scalingTargetPct ∧ 0 < acc.startingBalance ∧
      earned = config.milestonesEarned (netProfitPct w.db acc) ∧
      (w.scaling acc.id).scalingMilestonesClaimed < earned := by
  obtain ⟨_, hconfig, hdue⟩ := Option.bind_eq_some_iff.mp hdue
  obtain ⟨_, hstart, hdue⟩ := Option.bind_eq_some_iff.mp hdue
  obtain ⟨_, -, hdue⟩ := Option.bind_eq_some_iff.mp hdue
  obtain ⟨_, hmore, hdue⟩ := Option.bind_eq_some_iff.mp hdue
  obtain rfl := Option.some.inj hdue
  exact ⟨((Option.guard_eq_some' _).mp hconfig).2.1, (Option.guard_eq_some' _).mp hstart, rfl,
    (Option.guard_eq_some' _).mp hmore⟩

theorem plan_eq_some (hplan : w.plan accountId = some p) :
    ∃ acc slug config, w.db.account? accountId = some acc ∧ acc.accountType = .funded ∧
      acc.challengeModelSlug.filter (· ≠ "") = some slug ∧ w.configs slug = some config ∧
      w.milestonesDue config acc = some p.milestonesEarned ∧ p.accountId = accountId ∧
      p.prevMilestones = (w.scaling accountId).scalingMilestonesClaimed ∧
      p.maxAccountSize = config.scalingMaxAccountSize ∧
      p.perMilestoneAmount = config.perMilestoneAmount acc.startingBalance ∧
      p.grants = if 0 < config.scalingIncreasePerMilestonePct then
        config.grants p.perMilestoneAmount acc.currentBalance
          (List.range' (p.prevMilestones + 1) (p.milestonesEarned - p.prevMilestones)) else [] := by
  obtain ⟨acc, hacc, hplan⟩ := Option.bind_eq_some_iff.mp hplan
  obtain ⟨_, hfunded, hplan⟩ := Option.bind_eq_some_iff.mp hplan
  obtain ⟨slug, hslug, hplan⟩ := Option.bind_eq_some_iff.mp hplan
  obtain ⟨config, hconfig, hplan⟩ := Option.bind_eq_some_iff.mp hplan
  obtain ⟨earned, hdue, hplan⟩ := Option.bind_eq_some_iff.mp hplan
  obtain rfl := Option.some.inj hplan
  exact ⟨acc, slug, config, hacc, (Option.guard_eq_some' _).mp hfunded, hslug, hconfig, hdue, rfl, rfl, rfl,
    rfl, rfl⟩

theorem statements_eq :
    ∀ stmt ∈ p.statements, stmt = .adjustBalance p.accountId p.perMilestoneAmount false := by
  intro stmt hstmt
  obtain ⟨_, -, rfl⟩ := List.mem_map.mp hstmt
  rfl

/-- The milestones injected for are new ones, as are those claimed, and the former are among the latter. -/
theorem grants_new (hplan : w.plan accountId = some p) :
    (p.grants.map Prod.fst) <+: List.range' (p.prevMilestones + 1) (p.milestonesEarned - p.prevMilestones) ∧
      ∀ grant ∈ p.grants, grant.2.dollars ≤ p.maxAccountSize := by
  obtain ⟨acc, slug, config, -, -, -, -, -, -, -, hmax, -, hgrants⟩ := plan_eq_some hplan
  rw [hgrants, hmax]
  split
  · exact ⟨ScalingConfig.grants_prefix, ScalingConfig.grants_capped⟩
  · exact ⟨List.nil_prefix, by rintro _ ⟨⟩⟩

/-- The profit that is left once the injections are in does not earn more milestones. -/
theorem milestonesEarned_mono {db db' : Db} (htarget : 0 < config.scalingTargetPct)
    (hstart : 0 < acc.startingBalance) (hsame : acc'.startingBalance = acc.startingBalance)
    (hless : acc'.currentBalance - db'.adjustedBy acc'.id ≤ acc.currentBalance - db.adjustedBy acc.id) :
    config.milestonesEarned (netProfitPct db' acc') ≤ config.milestonesEarned (netProfitPct db acc) := by
  have hdollars : 0 < acc.startingBalance.dollars := by
    rw [← Cents.dollars_zero]
    exact Cents.dollars_lt.mpr hstart
  have hprofit : netTradingProfit db' acc' ≤ netTradingProfit db acc := by
    rw [netTradingProfit, netTradingProfit, hsame]
    linarith
  have hpct : netProfitPct db' acc' ≤ netProfitPct db acc := by
    rw [netProfitPct, netProfitPct, hsame]
    have := Cents.dollars_le.mpr hprofit
    gcongr
  rw [ScalingConfig.milestonesEarned, ScalingConfig.milestonesEarned]
  exact Nat.floor_mono (by gcongr)

theorem evaluate_eq_some (heval : w.evaluateScalingPlan accountId = some w') :
    ∃ p db, w.plan accountId = some p ∧ execAll w.db p.statements = some db ∧ w' = { w with
      db := db
      scaling := Function.update w.scaling accountId ⟨p.nextMultiplier, p.milestonesEarned⟩
      claims := p.claims ++ w.claims
      injections := p.injections ++ w.injections } := by
  obtain ⟨p, hplan, heval⟩ := Option.bind_eq_some_iff.mp heval
  obtain ⟨db, hexec, heval⟩ := Option.bind_eq_some_iff.mp heval
  exact ⟨p, db, hplan, hexec, (Option.some.inj heval).symm⟩

/-- An evaluation that has changed something leaves nothing to evaluate. -/
theorem evaluate_idle (heval : w.evaluateScalingPlan accountId = some w') :
    w'.evaluateScalingPlan accountId = none := by
  obtain ⟨p, db, hplan, hexec, rfl⟩ := evaluate_eq_some heval
  obtain ⟨acc, slug, config, hacc, -, hslug, hconfig, hdue, rfl, -, -, hamount, hgrants⟩ := plan_eq_some hplan
  obtain ⟨htarget, hstart, hearned, -⟩ := milestonesDue_eq_some hdue
  have hid : acc.id = p.accountId := Db.account?_id hacc
  have hkept : ∃ acc', db.account? p.accountId = some acc' ∧ acc'.accountType = acc.accountType ∧
      acc'.challengeModelSlug = acc.challengeModelSlug ∧ acc'.startingBalance = acc.startingBalance ∧
      acc'.currentBalance - db.adjustedBy p.accountId ≤ acc.currentBalance - w.db.adjustedBy p.accountId := by
    by_cases hincrease : 0 < config.scalingIncreasePerMilestonePct
    · refine execAll_adjustBalance_self statements_eq ?_ hexec hacc
      rw [hamount]
      exact ScalingConfig.perMilestoneAmount_nonneg hstart hincrease
    · rw [if_neg hincrease] at hgrants
      rw [ScalingPlan.statements, hgrants] at hexec
      obtain rfl : w.db = db := Option.some.inj hexec
      exact ⟨acc, hacc, rfl, rfl, rfl, le_rfl⟩
  obtain ⟨acc', hacc', -, hslug', hstart', hless⟩ := hkept
  have hid' : acc'.id = p.accountId := Db.account?_id hacc'
  have hprofit : acc'.currentBalance - db.adjustedBy acc'.id ≤
      acc.currentBalance - w.db.adjustedBy acc.id := by
    rw [hid', hid]
    exact hless
  refine Option.eq_none_iff_forall_ne_some.mpr fun w'' heval' => ?_
  obtain ⟨p', _, hplan', -, -⟩ := evaluate_eq_some heval'
  obtain ⟨acc'', slug', config', hacc'', -, hslug'', hconfig', hdue', -⟩ := plan_eq_some hplan'
  obtain rfl := Option.some.inj (hacc'.symm.trans hacc'')
  obtain rfl := Option.some.inj ((hslug' ▸ hslug'').symm.trans hslug)
  obtain rfl := Option.some.inj (hconfig'.symm.trans hconfig)
  obtain ⟨-, -, hearned', hmore⟩ := milestonesDue_eq_some hdue'
  have hclaimed : (Function.update w.scaling p.accountId ⟨p.nextMultiplier, p.milestonesEarned⟩ acc'.id)
      = ⟨p.nextMultiplier, p.milestonesEarned⟩ := by
    rw [hid']
    exact Function.update_self ..
  have hmono := milestonesEarned_mono htarget hstart hstart' hprofit
  dsimp only at hmore hearned'
  rw [hclaimed] at hmore
  dsimp only at hmore
  omega

/-- What a plan for an account is made from. -/
theorem plan_congr (hacc : w'.db.account? id = w.db.account? id)
    (hadjusted : w'.db.adjustedBy id = w.db.adjustedBy id) (hscaling : w'.scaling id = w.scaling id)
    (hconfigs : w'.configs = w.configs) : w'.plan id = w.plan id := by
  rw [plan, plan, hacc, hscaling, hconfigs]
  cases hfound : w.db.account? id with
  | none => rfl
  | some acc =>
    have hid : acc.id = id := Db.account?_id hfound
    have hdue : ∀ config, w'.milestonesDue config acc = w.milestonesDue config acc := by
      intro config
      simp only [milestonesDue, netProfitPct, netTradingProfit, hid, hadjusted, hscaling]
    simp only [Option.bind_eq_bind, Option.bind_some, hdue]

/-- An evaluation of another account leaves nothing to evaluate where there was nothing. -/
theorem evaluate_idle_other (hidle : w.evaluateScalingPlan id = none)
    (heval : w.evaluateScalingPlan accountId = some w') (hne : id ≠ accountId) :
    w'.evaluateScalingPlan id = none := by
  obtain ⟨p, db, hplan, hexec, hw'⟩ := evaluate_eq_some heval
  obtain ⟨_, _, _, -, -, -, -, -, hp, -⟩ := plan_eq_some hplan
  have hdb : w'.db = db := by rw [hw']
  have hconfigs : w'.configs = w.configs := by rw [hw']
  have hscaling : w'.scaling id = w.scaling id := by
    rw [hw']
    exact Function.update_of_ne hne ..
  rw [← hdb] at hexec
  obtain ⟨hacc, hadjusted⟩ := execAll_adjustBalance_other statements_eq hexec (hp ▸ hne)
  refine Option.eq_none_iff_forall_ne_some.mpr fun w'' heval' => ?_
  obtain ⟨p', db', hplan', hexec', -⟩ := evaluate_eq_some heval'
  rw [plan_congr hacc hadjusted hscaling hconfigs] at hplan'
  obtain ⟨acc, _, _, hfound, -, -, -, -, hp', -⟩ := plan_eq_some hplan'
  have hthere : (w.db.account? p'.accountId).isSome = true := by
    rw [hp', hfound]
    rfl
  have hthere' : (w'.db.account? p'.accountId).isSome = true := by
    rw [hp', hacc, hfound]
    rfl
  have hsome : (execAll w'.db p'.statements).isSome = true := by
    rw [hexec']
    rfl
  have hok := (execAll_adjustBalance_isSome statements_eq hthere).mpr
    ((execAll_adjustBalance_isSome statements_eq hthere').mp hsome)
  obtain ⟨db'', hdb⟩ := Option.isSome_iff_exists.mp hok
  rw [evaluateScalingPlan, hplan'] at hidle
  dsimp only [Option.bind_eq_bind, Option.bind_some] at hidle
  rw [hdb] at hidle
  cases hidle

def IsEvaluation : ScalingAction → Prop
  | .evaluate _ => True
  | .commit _ | .patchScaling _ _ => False

/-- Where there is nothing to evaluate, evaluations bring nothing about. -/
theorem run_idle {as : List ScalingAction} (hevals : ∀ a ∈ as, IsEvaluation a)
    (hidle : w.evaluateScalingPlan id = none) (hrun : run step w as = some w') :
    w'.evaluateScalingPlan id = none := by
  induction as generalizing w with
  | nil =>
    obtain rfl : w = w' := Option.some.inj hrun
    exact hidle
  | cons a as ih =>
    obtain ⟨mid, hstep, hrest⟩ := Option.bind_eq_some_iff.mp hrun
    refine ih (fun b hb => hevals b (List.mem_cons_of_mem _ hb)) ?_ hrest
    cases a with
    | commit stmts => exact (hevals _ List.mem_cons_self).elim
    | patchScaling slug config => exact (hevals _ List.mem_cons_self).elim
    | evaluate accountId =>
      obtain rfl := Option.some.inj hstep
      cases heval : w.evaluateScalingPlan accountId with
      | none => exact hidle
      | some next =>
        by_cases hid : id = accountId
        · rw [hid, heval] at hidle
          cases hidle
        · exact evaluate_idle_other hidle heval hid

/-- A second evaluation changes nothing, with other evaluations in between. -/
theorem second_evaluation {as : List ScalingAction} {w'' : ScalingWorld} (hevals : ∀ a ∈ as, IsEvaluation a)
    (hstep : w.step (.evaluate id) = some w') (hrun : run step w' as = some w'') :
    w''.step (.evaluate id) = some w'' := by
  obtain rfl := Option.some.inj hstep
  have hidle : ((w.evaluateScalingPlan id).getD w).evaluateScalingPlan id = none := by
    cases heval : w.evaluateScalingPlan id with
    | none => exact heval
    | some next => exact evaluate_idle heval
  rw [step, run_idle hevals hidle hrun]
  rfl

/-! ### Runs -/

/-- What has been claimed or injected for is counted in the column. -/
structure Counted (w : ScalingWorld) : Prop extends ScalesOnce w where
  claims : ∀ claim ∈ w.claims, claim.2 ≤ (w.scaling claim.1).scalingMilestonesClaimed
  entries : ∀ injection ∈ w.injections,
    injection.milestone ≤ (w.scaling injection.accountId).scalingMilestonesClaimed

theorem prev_lt_earned (hplan : w.plan accountId = some p) :
    p.accountId = accountId ∧ p.prevMilestones = (w.scaling accountId).scalingMilestonesClaimed ∧
      p.prevMilestones < p.milestonesEarned := by
  obtain ⟨acc, _, _, hacc, -, -, -, hdue, hp, hprev, -⟩ := plan_eq_some hplan
  obtain ⟨-, -, -, hmore⟩ := milestonesDue_eq_some hdue
  rw [Db.account?_id hacc, ← hprev] at hmore
  exact ⟨hp, hprev, hmore⟩

theorem claimed_mono_evaluate (heval : w.evaluateScalingPlan accountId = some w') (id : Nat) :
    (w.scaling id).scalingMilestonesClaimed ≤ (w'.scaling id).scalingMilestonesClaimed := by
  obtain ⟨p, db, hplan, -, rfl⟩ := evaluate_eq_some heval
  obtain ⟨-, hprev, hlt⟩ := prev_lt_earned hplan
  dsimp only
  by_cases hid : id = accountId
  · subst hid
    rw [Function.update_self, ← hprev]
    exact hlt.le
  · rw [Function.update_of_ne hid]

theorem claimed_mono (hstep : w.step a = some w') (id : Nat) :
    (w.scaling id).scalingMilestonesClaimed ≤ (w'.scaling id).scalingMilestonesClaimed := by
  cases a with
  | commit stmts =>
    obtain ⟨db, -, rfl⟩ := Option.map_eq_some_iff.mp hstep
    exact le_rfl
  | patchScaling slug config =>
    obtain rfl := Option.some.inj hstep
    exact le_rfl
  | evaluate accountId =>
    obtain rfl := Option.some.inj hstep
    cases heval : w.evaluateScalingPlan accountId with
    | none => exact le_rfl
    | some next => exact claimed_mono_evaluate heval id

theorem Counted.evaluate (hcounted : w.Counted) (heval : w.evaluateScalingPlan accountId = some w') :
    w'.Counted := by
  have hmono := claimed_mono_evaluate heval
  obtain ⟨p, db, hplan, hexec, rfl⟩ := evaluate_eq_some heval
  obtain ⟨rfl, hprev, hlt⟩ := prev_lt_earned hplan
  obtain ⟨hstart, hcapped⟩ := grants_new hplan
  have hnew : ∀ m ∈ List.range' (p.prevMilestones + 1) (p.milestonesEarned - p.prevMilestones),
      p.prevMilestones < m ∧ m ≤ p.milestonesEarned := by
    intro m hm
    rw [List.mem_range'_1] at hm
    omega
  have hgrant : ∀ grant ∈ p.grants, p.prevMilestones < grant.1 ∧ grant.1 ≤ p.milestonesEarned :=
    fun grant hgrant => hnew _ (hstart.subset (List.mem_map_of_mem hgrant))
  have hcolumn : (Function.update w.scaling p.accountId ⟨p.nextMultiplier, p.milestonesEarned⟩ p.accountId)
      = ⟨p.nextMultiplier, p.milestonesEarned⟩ := Function.update_self ..
  refine ⟨⟨?_, ?_, ?_⟩, ?_, ?_⟩
  · refine List.nodup_append.mpr ⟨?_, hcounted.claimed, ?_⟩
    · exact (List.nodup_range' ..).map fun m m' heq => (Prod.mk.inj heq).2
    · rintro claim hclaim old hold rfl
      obtain ⟨m, hm, rfl⟩ := List.mem_map.mp hclaim
      have hbefore := hcounted.claims _ hold
      have hafter := (hnew m hm).1
      dsimp only at hbefore
      omega
  · rw [List.map_append]
    refine List.nodup_append.mpr ⟨?_, hcounted.injected, ?_⟩
    · have hnodup : (p.grants.map Prod.fst).Nodup := (List.nodup_range' ..).sublist hstart.sublist
      rw [ScalingPlan.injections, List.map_map]
      refine List.Nodup.of_map Prod.snd ?_
      rw [List.map_map]
      exact hnodup
    · rintro entry hentry old hold rfl
      obtain ⟨injection, hinjection, rfl⟩ := List.mem_map.mp hentry
      obtain ⟨grant, hin, rfl⟩ := List.mem_map.mp hinjection
      obtain ⟨before, hbefore, heq⟩ := List.mem_map.mp hold
      obtain ⟨haccount, hmilestone⟩ := Prod.mk.inj heq
      have hle := hcounted.entries before hbefore
      have hafter := (hgrant grant hin).1
      rw [haccount, hmilestone] at hle
      dsimp only at hle
      omega
  · intro injection hinjection
    obtain hnow | hold := List.mem_append.mp hinjection
    · obtain ⟨grant, hin, rfl⟩ := List.mem_map.mp hnow
      exact hcapped grant hin
    · exact hcounted.capped injection hold
  · intro claim hclaim
    obtain hnow | hold := List.mem_append.mp hclaim
    · obtain ⟨m, hm, rfl⟩ := List.mem_map.mp hnow
      dsimp only
      rw [hcolumn]
      exact (hnew m hm).2
    · exact (hcounted.claims claim hold).trans (hmono claim.1)
  · intro injection hinjection
    obtain hnow | hold := List.mem_append.mp hinjection
    · obtain ⟨grant, hin, rfl⟩ := List.mem_map.mp hnow
      dsimp only
      rw [hcolumn]
      exact (hgrant grant hin).2
    · exact (hcounted.entries injection hold).trans (hmono injection.accountId)

theorem Counted.step (hcounted : w.Counted) (hstep : w.step a = some w') : w'.Counted := by
  cases a with
  | commit stmts =>
    obtain ⟨db, -, rfl⟩ := Option.map_eq_some_iff.mp hstep
    exact ⟨⟨hcounted.claimed, hcounted.injected, hcounted.capped⟩, hcounted.claims, hcounted.entries⟩
  | patchScaling slug config =>
    obtain rfl := Option.some.inj hstep
    exact ⟨⟨hcounted.claimed, hcounted.injected, hcounted.capped⟩, hcounted.claims, hcounted.entries⟩
  | evaluate accountId =>
    obtain rfl := Option.some.inj hstep
    cases heval : w.evaluateScalingPlan accountId with
    | none => exact hcounted
    | some next => exact hcounted.evaluate heval

/-- A scaling world in which no evaluation has been made. -/
def Unclaimed (w : ScalingWorld) : Prop := w.claims = [] ∧ w.injections = []

/-- A milestone for every 6% of profit, each of a quarter of the starting balance, up to 16,000 dollars. -/
def sampleScaling : ScalingConfig := ⟨true, 6, 2, 16000, 25, by decide⟩

def beforeFunding : ScalingWorld := ⟨.initial .empty, fun _ => none, fun _ => ⟨1, 0⟩, [], []⟩

/-- A funded account of 10,000 dollars makes 700 and is evaluated twice, then makes another 1,200; the capital
for the two milestones that are new by then would take it over the largest size. -/
def threeMilestones : List ScalingAction :=
  [.patchScaling "2-step" sampleScaling,
    .commit [.insertAccount
      ({ sampleTerms with accountType := .funded, challengeModelSlug := some "2-step" }.provision 1)],
    .commit [.creditAccount 1 70000], .evaluate 1, .evaluate 1,
    .commit [.creditAccount 1 120000], .evaluate 1]

end ScalingWorld

end PropFirm
