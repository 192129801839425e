import Mathlib
import PropFirm.Lib.Table
import PropFirm.Lib.Transition
import PropFirm.Schema

/-!
# Promotion of passed accounts

An account that passes gets a review, and an administrator who approves it creates the next account; one
may also pass an account and create the next one at once. What the next account is depends on
the challenge model and on the step the account is at: the review says it when the account passes, and the
approval works it out once more.

`checkFloatingDrawdown` and `confirmAccountEquityBatch` make up the account that they pass from a list of
columns in which `step_number` is not.
-/

namespace PropFirm

open Transition

/-- `phase1`, `phase2` and so on, and the types that are not on the way up. -/
inductive LadderType
  | phase (number : Nat)
  | funded
  | competition
  deriving DecidableEq

/-- A row of `challenge_models`. A number of days may be missing, or not be a number. -/
structure ChallengeModel where
  slug : String
  steps : Nat
  isActive : Bool
  timeLimitsDays : Nat → Option Nat

instance : Keyed ChallengeModel String := ⟨ChallengeModel.slug⟩

structure LadderAccount where
  id : Nat
  accountType : LadderType
  status : AccountStatus
  challengeModelSlug : Option String
  stepNumber : Option Nat
  parentAccountId : Option Nat
  deriving DecidableEq

instance : Keyed LadderAccount Nat := ⟨LadderAccount.id⟩

inductive ReviewStatus
  | pending
  | approved
  | rejected
  deriving DecidableEq

/-- A row of `account_promotion_reviews`. -/
structure PromotionReview where
  id : Nat
  sourceAccountId : Nat
  fromAccountType : LadderType
  targetAccountType : LadderType
  status : ReviewStatus
  createdAccountId : Option Nat
  deriving DecidableEq

instance : Keyed PromotionReview Nat := ⟨PromotionReview.id⟩

/-- `parseInt(stepModel.steps || 1)`. -/
def ChallengeModel.phases (model : ChallengeModel) : Nat := if model.steps = 0 then 1 else model.steps

/-- `parseInt(acc.step_number || 1)`. -/
def LadderAccount.currentStep (acc : LadderAccount) : Nat :=
  (acc.stepNumber.filter (· ≠ 0)).getD 1

structure PromotionTarget where
  targetAccountType : LadderType
  nextStep : Option Nat
  stepModel : Option ChallengeModel
  isFinalPromotion : Bool

/-- `LEGACY_LADDER`. -/
def ladderType : LadderType → Option LadderType
  | .phase 1 => some (.phase 2)
  | .phase 2 | .phase 3 => some .funded
  | .phase _ | .funded | .competition => none

def LadderAccount.stepModel (models : Table ChallengeModel) (acc : LadderAccount) : Option ChallengeModel :=
  (acc.challengeModelSlug.filter (· ≠ "")).bind models.find?

def resolvePromotionTarget (models : Table ChallengeModel) (acc : LadderAccount) : Option PromotionTarget :=
  match acc.stepModel models with
  | some model =>
    if acc.accountType = .funded then none
    else if acc.currentStep + 1 ≤ model.phases then
      some ⟨.phase (acc.currentStep + 1), some (acc.currentStep + 1), some model, false⟩
    else some ⟨.funded, none, some model, true⟩
  | none =>
    (ladderType acc.accountType).map fun target => match target with
      | .phase number => ⟨.phase number, some number, none, false⟩
      | other => ⟨other, none, none, true⟩

/-- The account that a promotion creates. A phase has an end date, for which the model has a number of days;
the next rung of an account without a model has none either. -/
def PromotionTarget.next (target : PromotionTarget) (acc : LadderAccount) (id : Nat) : Option LadderAccount :=
  match target.stepModel, target.nextStep with
  | some model, some nextStep => do
    guard (model.timeLimitsDays (nextStep - 1)).isSome
    pure ⟨id, target.targetAccountType, .active, some model.slug, some nextStep, some acc.id⟩
  | some model, none => some ⟨id, target.targetAccountType, .active, some model.slug, none, some acc.id⟩
  | none, _ => some ⟨id, target.targetAccountType, .active, none, none, none⟩

/-- `successions` are the accounts that have been created by promotions, each after the one it comes from. -/
structure PromotionWorld where
  models : Table ChallengeModel
  accounts : Table LadderAccount
  reviews : Table PromotionReview
  successions : List (Nat × Nat)

/-- `enginePass` is the challenge engine's, which reads the whole row, and `floatingPass` the trade
engine's. -/
inductive PromotionAction
  | openAccount (acc : LadderAccount)
  | setStatus (accountId : Nat) (status : AccountStatus)
  | enginePass (accountId reviewId : Nat)
  | floatingPass (accountId reviewId : Nat)
  | adminPass (accountId newAccountId : Nat)
  | approve (reviewId newAccountId : Nat)
  | reject (reviewId : Nat)
  | toggleModel (slug : String) (enabled : Bool)
  | editPhase (slug : String) (phaseIndex : Nat) (days : Option Nat)

def LadderAccount.withStatus (status : AccountStatus) : Table.Rewrite LadderAccount where
  apply a := { a with status := status }
  key_apply _ := rfl

namespace PromotionReview

def approvedWith (createdAccountId : Nat) : Table.Rewrite PromotionReview where
  apply r := { r with status := .approved, createdAccountId := some createdAccountId }
  key_apply _ := rfl

def asRejected : Table.Rewrite PromotionReview where
  apply r := { r with status := .rejected }
  key_apply _ := rfl

end PromotionReview

namespace ChallengeModel

def toggled (enabled : Bool) : Table.Rewrite ChallengeModel where
  apply m := { m with isActive := enabled }
  key_apply _ := rfl

/-- The days of one phase, for a phase that the model has. -/
def withDays (phaseIndex : Nat) (days : Option Nat) : Table.Rewrite ChallengeModel where
  apply m :=
    if 1 ≤ phaseIndex ∧ phaseIndex ≤ m.steps then
      { m with timeLimitsDays := Function.update m.timeLimitsDays (phaseIndex - 1) days }
    else m
  key_apply m := by
    split <;> rfl

end ChallengeModel

/-- The account as the trade engine has it. -/
def LadderAccount.engineView (acc : LadderAccount) : LadderAccount := { acc with stepNumber := none }

/-- The insert of a pending review; with one there already, only its trigger and its reason change. -/
def createPromotionReview (reviews : Table PromotionReview) (acc : LadderAccount) (target : PromotionTarget)
    (reviewId : Nat) : Option (Table PromotionReview) :=
  if reviews.rows.any fun r => r.sourceAccountId = acc.id ∧ r.status = .pending then some reviews
  else reviews.insert? ⟨reviewId, acc.id, acc.accountType, target.targetAccountType, .pending, none⟩

namespace PromotionWorld

variable (w : PromotionWorld)

/-- An engine passes an active account; without a promotion path there is no review and the pass is undone. -/
def pass (accountId reviewId : Nat) (view : LadderAccount → LadderAccount) : Option PromotionWorld := do
  let acc ← w.accounts.find? accountId
  guard (acc.status = .active)
  let target ← resolvePromotionTarget w.models (view acc)
  let reviews ← createPromotionReview w.reviews (view acc) target reviewId
  let accounts := w.accounts.updateAt accountId (LadderAccount.withStatus .passed)
  pure { w with accounts := accounts, reviews := reviews }

/-- `promotePassedAccount`. -/
def promote (acc : LadderAccount) (newAccountId : Nat) : Option PromotionWorld := do
  let target ← resolvePromotionTarget w.models acc
  let next ← target.next acc newAccountId
  let accounts ← w.accounts.insert? next
  pure { w with accounts := accounts, successions := (acc.id, newAccountId) :: w.successions }

def step (w : PromotionWorld) : PromotionAction → Option PromotionWorld
  | .openAccount acc => do
    guard (acc.status = .active)
    let accounts ← w.accounts.insert? acc
    pure { w with accounts := accounts }
  | .setStatus accountId status => do
    guard (status ≠ .passed)
    pure { w with accounts := w.accounts.updateAt accountId (LadderAccount.withStatus status) }
  | .enginePass accountId reviewId => w.pass accountId reviewId id
  | .floatingPass accountId reviewId => w.pass accountId reviewId LadderAccount.engineView
  | .adminPass accountId newAccountId => do
    let acc ← w.accounts.find? accountId
    guard (acc.status ≠ .passed)
    let accounts := w.accounts.updateAt accountId (LadderAccount.withStatus .passed)
    { w with accounts := accounts }.promote acc newAccountId
  | .approve reviewId newAccountId => do
    let review ← w.reviews.find? reviewId
    guard (review.status = .pending)
    let source ← w.accounts.find? review.sourceAccountId
    guard (source.status = .passed)
    let promoted ← w.promote source newAccountId
    let reviews := promoted.reviews.updateAt reviewId (PromotionReview.approvedWith newAccountId)
    pure { promoted with reviews := reviews }
  | .reject reviewId => do
    let review ← w.reviews.find? reviewId
    guard (review.status = .pending)
    pure { w with reviews := w.reviews.updateAt reviewId PromotionReview.asRejected }
  | .toggleModel slug enabled =>
    some { w with models := w.models.updateAt slug (ChallengeModel.toggled enabled) }
  | .editPhase slug phaseIndex days =>
    some { w with models := w.models.updateAt slug (ChallengeModel.withDays phaseIndex days) }

/-- The `k`-th account in a line of promotions. -/
def IsSuccessor : Nat → Nat → Nat → Prop
  | 0, a, b => a = b
  | k + 1, a, b => ∃ c, IsSuccessor k a c ∧ (c, b) ∈ w.successions

/-- The account has been promoted. -/
def Promoted (accountId : Nat) : Prop := accountId ∈ w.successions.map Prod.fst

instance (accountId : Nat) : Decidable (w.Promoted accountId) := inferInstanceAs (Decidable (_ ∈ _))

/-- What is to hold of promotions. -/
structure Rightful : Prop where
  once : (w.successions.map Prod.fst).Nodup
  approved : ∀ review ∈ w.reviews.rows, review.status = .approved →
    ∃ created, review.createdAccountId = some created.id ∧ w.accounts.find? created.id = some created ∧
      created.accountType = review.targetAccountType ∧ (review.sourceAccountId, created.id) ∈ w.successions
  ladder : ∀ root ∈ w.accounts.rows, ∀ model, root.stepModel w.models = some model →
    root.accountType = .phase 1 → root.stepNumber = some 1 → ∀ k, ∀ created ∈ w.accounts.rows,
      w.IsSuccessor k root.id created.id → k ≤ model.phases ∧
        created.accountType = if k < model.phases then .phase (k + 1) else .funded
  granted : ∀ review ∈ w.reviews.rows, review.status = .pending →
    ∀ source, w.accounts.find? review.sourceAccountId = some source → source.status = .passed →
      (∀ model, source.stepModel w.models = some model →
        ∀ step < model.phases, (model.timeLimitsDays step).isSome = true) →
      ∀ id, w.accounts.find? id = none → (w.step (.approve review.id id)).isSome = true

/-- An account passes that has not been promoted before, and an administrator passes one by hand only if no
review of it is waiting. The trade engine passes an account at its first step, or one whose model has no
second. -/
def PassesOnce (w : PromotionWorld) : PromotionAction → Prop
  | .enginePass accountId _ => ¬w.Promoted accountId
  | .floatingPass accountId _ => ¬w.Promoted accountId ∧ ∀ acc ∈ w.accounts.find? accountId,
      ∀ model ∈ acc.stepModel w.models, acc.currentStep = 1 ∨ model.phases = 1
  | .adminPass accountId _ => ¬w.Promoted accountId ∧
      ∀ review ∈ w.reviews.rows, review.sourceAccountId = accountId → review.status ≠ .pending
  | .openAccount _ | .setStatus _ _ | .approve _ _ | .reject _ | .toggleModel _ _ | .editPhase _ _ _ => True

end PromotionWorld

/-- What of an account decides its promotion, and stays as it is. -/
def LadderAccount.terms (acc : LadderAccount) : LadderType × Option Nat × Option String :=
  (acc.accountType, acc.stepNumber, acc.challengeModelSlug)

def PromotionTarget.terms (target : PromotionTarget) : LadderType × Option Nat × Option String :=
  (target.targetAccountType, target.stepModel.bind fun _ => target.nextStep,
    target.stepModel.map ChallengeModel.slug)

/-- The terms of the next account. -/
def nextTerms (models : Table ChallengeModel) (acc : LadderAccount) :
    Option (LadderType × Option Nat × Option String) :=
  (resolvePromotionTarget models acc).map PromotionTarget.terms

section Terms

variable {models : Table ChallengeModel} {model : ChallengeModel} {acc acc' source created : LadderAccount}
  {target : PromotionTarget} {id : Nat}

theorem phases_pos (model : ChallengeModel) : 0 < model.phases := by
  rw [ChallengeModel.phases]
  split <;> omega

theorem nextTerms_congr (hterms : acc.terms = acc'.terms) : nextTerms models acc = nextTerms models acc' := by
  obtain ⟨htype, hrest⟩ := Prod.mk.inj hterms
  obtain ⟨hstep, hslug⟩ := Prod.mk.inj hrest
  rw [nextTerms, nextTerms, resolvePromotionTarget, resolvePromotionTarget, LadderAccount.stepModel,
    LadderAccount.stepModel, LadderAccount.currentStep, LadderAccount.currentStep, htype, hstep, hslug]

/-- The account created is the one that was worked out. -/
theorem terms_of_next (hnext : target.next acc id = some created) :
    created.terms = target.terms ∧ created.id = id := by
  unfold PromotionTarget.next at hnext
  split at hnext
  · rename_i model nextStep hmodel hstep
    obtain ⟨_, -, hnext⟩ := Option.bind_eq_some_iff.mp hnext
    obtain rfl := Option.some.inj hnext
    rw [PromotionTarget.terms, hmodel, hstep]
    exact ⟨rfl, rfl⟩
  · rename_i model hmodel hstep
    obtain rfl := Option.some.inj hnext
    rw [PromotionTarget.terms, hmodel, hstep]
    exact ⟨rfl, rfl⟩
  · rename_i hmodel
    obtain rfl := Option.some.inj hnext
    rw [PromotionTarget.terms, hmodel]
    exact ⟨rfl, rfl⟩

/-- An edit that leaves the number of steps alone makes no difference to a promotion. -/
theorem nextTerms_updateAt {slug : String} {f : Table.Rewrite ChallengeModel}
    (hsteps : ∀ m, (f.apply m).steps = m.steps) :
    nextTerms (models.updateAt slug f) acc = nextTerms models acc := by
  have hmodel : acc.stepModel (models.updateAt slug f) = (acc.stepModel models).map
      fun m => if m.slug = slug then f.apply m else m := by
    rw [LadderAccount.stepModel, LadderAccount.stepModel]
    cases acc.challengeModelSlug.filter (· ≠ "") with
    | none => rfl
    | some s =>
      change (models.updateAt slug f).find? s = (models.find? s).map _
      rw [Table.find?_updateAt]
      refine Option.map_congr fun m hm => ?_
      rw [← (Table.find?_eq_some.mp hm).2]
      rfl
  rw [nextTerms, nextTerms, resolvePromotionTarget, resolvePromotionTarget, hmodel]
  cases acc.stepModel models with
  | none => rfl
  | some m =>
    have hslug : (if m.slug = slug then f.apply m else m).slug = m.slug := by
      split
      · exact f.key_apply m
      · rfl
    have hphases : (if m.slug = slug then f.apply m else m).phases = m.phases := by
      rw [ChallengeModel.phases, ChallengeModel.phases]
      split
      · rw [hsteps]
      · rfl
    dsimp only [Option.map_some]
    rw [hphases]
    split
    · rfl
    · split
      · exact congrArg (fun s => some (_, _, some s)) hslug
      · exact congrArg (fun s => some (_, _, some s)) hslug

/-- The trade engine makes out the same type for an account at its first step, and for one whose model has
only one. -/
theorem nextTerms_engineView
    (hstep : ∀ m ∈ acc.stepModel models, acc.currentStep = 1 ∨ m.phases = 1) :
    (nextTerms models acc.engineView).map Prod.fst = (nextTerms models acc).map Prod.fst := by
  have hmodel : acc.engineView.stepModel models = acc.stepModel models := rfl
  have hone : acc.engineView.currentStep = 1 := rfl
  have htype : acc.engineView.accountType = acc.accountType := rfl
  rw [nextTerms, nextTerms, resolvePromotionTarget, resolvePromotionTarget, hmodel, hone, htype]
  cases hfound : acc.stepModel models with
  | none => rfl
  | some m =>
    dsimp only
    obtain hfirst | hsingle := hstep m hfound
    · rw [hfirst]
    · have hpos : 0 < acc.currentStep := by
        rw [LadderAccount.currentStep]
        cases hnumber : acc.stepNumber.filter (· ≠ 0) with
        | none => exact one_pos
        | some n =>
          have hne := of_decide_eq_true (Option.filter_eq_some_iff.mp hnumber).2
          exact Nat.pos_of_ne_zero hne
      rw [if_neg (show ¬1 + 1 ≤ m.phases by omega), if_neg (show ¬acc.currentStep + 1 ≤ m.phases by omega)]

/-- The rung after one of a model. -/
theorem ladder_step (hmodel : source.stepModel models = some model) {k : Nat}
    (htype : source.accountType = .phase k) (hnext : nextTerms models source = some created.terms) :
    created.stepModel models = some model ∧
      (source.currentStep < model.phases ∧ created.accountType = .phase (source.currentStep + 1) ∧
        created.stepNumber = some (source.currentStep + 1) ∨
      model.phases ≤ source.currentStep ∧ created.accountType = .funded) := by
  have hslug : created.challengeModelSlug = some model.slug → created.stepModel models = some model := by
    intro hcreated
    obtain ⟨s, hs, hfind⟩ := Option.bind_eq_some_iff.mp hmodel
    obtain ⟨-, hne⟩ := Option.filter_eq_some_iff.mp hs
    obtain ⟨-, rfl⟩ := Table.find?_eq_some.mp hfind
    exact Option.bind_eq_some_iff.mpr ⟨_, Option.filter_eq_some_iff.mpr ⟨hcreated, hne⟩, hfind⟩
  rw [nextTerms, resolvePromotionTarget, hmodel, htype] at hnext
  dsimp only at hnext
  rw [if_neg LadderType.noConfusion] at hnext
  split at hnext
  · rename_i hlt
    obtain ⟨hcreated, hrest⟩ := Prod.mk.inj (Option.some.inj hnext)
    obtain ⟨hnumber, hname⟩ := Prod.mk.inj hrest
    exact ⟨hslug hname.symm, .inl ⟨hlt, hcreated.symm, hnumber.symm⟩⟩
  · rename_i hge
    obtain ⟨hcreated, hrest⟩ := Prod.mk.inj (Option.some.inj hnext)
    obtain ⟨-, hname⟩ := Prod.mk.inj hrest
    exact ⟨hslug hname.symm, .inr ⟨by omega, hcreated.symm⟩⟩

/-- The next account can be created when every phase of the model has its days. -/
theorem next_isSome (htarget : resolvePromotionTarget models acc = some target)
    (hdays : ∀ m, acc.stepModel models = some m → ∀ step < m.phases, (m.timeLimitsDays step).isSome = true)
    (id : Nat) : (target.next acc id).isSome = true := by
  rw [resolvePromotionTarget] at htarget
  split at htarget
  · rename_i m hmodel
    split at htarget
    · cases htarget
    split at htarget
    · rename_i hle
      obtain rfl := Option.some.inj htarget
      have hday : (m.timeLimitsDays acc.currentStep).isSome = true := hdays m hmodel _ hle
      rw [PromotionTarget.next]
      simp only [Nat.add_sub_cancel, hday, guard_true]
      rfl
    · obtain rfl := Option.some.inj htarget
      rfl
  · obtain ⟨_, -, rfl⟩ := Option.map_eq_some_iff.mp htarget
    split <;> rfl

theorem nextTerms_funded (hmodel : source.stepModel models = some model)
    (hfunded : source.accountType = .funded) : nextTerms models source = none := by
  rw [nextTerms, resolvePromotionTarget, hmodel, hfunded]
  rfl

end Terms

namespace PromotionWorld

/-- Rows are added and keep their terms. -/
def Extends (accounts accounts' : Table LadderAccount) : Prop :=
  ∀ id acc, accounts.find? id = some acc → ∃ acc', accounts'.find? id = some acc' ∧ acc'.terms = acc.terms

/-- The invariant. A review that is waiting is of an account not promoted yet, and names the next one. -/
structure Sound (w : PromotionWorld) : Prop where
  once : (w.successions.map Prod.fst).Nodup
  follows : ∀ s ∈ w.successions, ∃ source created, w.accounts.find? s.1 = some source ∧
    w.accounts.find? s.2 = some created ∧ nextTerms w.models source = some created.terms
  pending : ∀ review ∈ w.reviews.rows, review.status = .pending → ¬w.Promoted review.sourceAccountId ∧
    ∃ source, w.accounts.find? review.sourceAccountId = some source ∧
      (nextTerms w.models source).map Prod.fst = some review.targetAccountType
  single : ∀ review ∈ w.reviews.rows, ∀ review' ∈ w.reviews.rows, review.status = .pending →
    review'.status = .pending → review.sourceAccountId = review'.sourceAccountId → review.id = review'.id
  approved : ∀ review ∈ w.reviews.rows, review.status = .approved →
    ∃ created, review.createdAccountId = some created.id ∧ w.accounts.find? created.id = some created ∧
      created.accountType = review.targetAccountType ∧ (review.sourceAccountId, created.id) ∈ w.successions

variable {w w' : PromotionWorld} {accounts accounts' : Table LadderAccount} {acc : LadderAccount}
  {a : PromotionAction} {id accountId reviewId : Nat}

theorem extends_refl : Extends accounts accounts := fun _ acc hacc => ⟨acc, hacc, rfl⟩

theorem extends_withStatus (accounts : Table LadderAccount) (accountId : Nat) (status : AccountStatus) :
    Extends accounts (accounts.updateAt accountId (LadderAccount.withStatus status)) := by
  intro id acc hacc
  rw [Table.find?_updateAt, hacc]
  refine ⟨_, rfl, ?_⟩
  split <;> rfl

theorem extends_insert? (hinsert : accounts.insert? acc = some accounts') : Extends accounts accounts' := by
  intro id acc' hacc'
  obtain ⟨hfresh, -⟩ := Table.insert?_eq_some hinsert
  refine ⟨acc', ?_, rfl⟩
  obtain ⟨hmem, hid⟩ := Table.find?_eq_some.mp hacc'
  rw [Table.find?_of_insert? hinsert, if_neg (hid ▸ (hfresh acc' hmem).symm), hacc']

theorem id_of_find? (hacc : accounts.find? id = some acc) : acc.id = id := (Table.find?_eq_some.mp hacc).2

/-- What is created stays what it was created as. -/
theorem created_extends {created : LadderAccount} (hextends : Extends accounts accounts')
    (hcreated : accounts.find? created.id = some created) :
    ∃ created', accounts'.find? created'.id = some created' ∧ created'.id = created.id ∧
      created'.accountType = created.accountType := by
  obtain ⟨created', hcreated', hterms⟩ := hextends _ _ hcreated
  have hid : created'.id = created.id := id_of_find? hcreated'
  exact ⟨created', hid ▸ hcreated', hid, (Prod.mk.inj hterms).1⟩

/-- Changes to the accounts and the models that no promotion depends on. -/
theorem Sound.frame (hsound : w.Sound) (models : Table ChallengeModel)
    (hmodels : ∀ acc, nextTerms models acc = nextTerms w.models acc)
    (hextends : Extends w.accounts accounts) :
    Sound { w with models := models, accounts := accounts } where
  once := hsound.once
  follows s hs := by
    obtain ⟨source, created, hsource, hcreated, hnext⟩ := hsound.follows s hs
    obtain ⟨source', hsource', hterms⟩ := hextends _ _ hsource
    obtain ⟨created', hcreated', hterms'⟩ := hextends _ _ hcreated
    refine ⟨source', created', hsource', hcreated', ?_⟩
    change nextTerms models source' = _
    rw [hmodels, nextTerms_congr hterms, hterms', hnext]
  pending review hreview hpending := by
    obtain ⟨hnot, source, hsource, htarget⟩ := hsound.pending review hreview hpending
    obtain ⟨source', hsource', hterms⟩ := hextends _ _ hsource
    refine ⟨hnot, source', hsource', ?_⟩
    change (nextTerms models source').map _ = _
    rw [hmodels, nextTerms_congr hterms, htarget]
  single := hsound.single
  approved review hreview happroved := by
    obtain ⟨created, hid, hcreated, htype, hmem⟩ := hsound.approved review hreview happroved
    obtain ⟨created', hcreated', hid', htype'⟩ := created_extends hextends hcreated
    exact ⟨created', hid' ▸ hid, hcreated', htype'.trans htype, hid' ▸ hmem⟩

/-- A pass, when the engine makes the account out as it is. -/
theorem Sound.pass {view : LadderAccount → LadderAccount} (hsound : w.Sound) (hnot : ¬w.Promoted accountId)
    (hid : ∀ acc, (view acc).id = acc.id)
    (hview : ∀ acc, w.accounts.find? accountId = some acc →
      (nextTerms w.models (view acc)).map Prod.fst = (nextTerms w.models acc).map Prod.fst)
    (hpass : w.pass accountId reviewId view = some w') : w'.Sound := by
  obtain ⟨acc, hacc, hpass⟩ := Option.bind_eq_some_iff.mp hpass
  obtain ⟨_, -, hpass⟩ := Option.bind_eq_some_iff.mp hpass
  obtain ⟨target, htarget, hpass⟩ := Option.bind_eq_some_iff.mp hpass
  obtain ⟨reviews, hreviews, hpass⟩ := Option.bind_eq_some_iff.mp hpass
  obtain rfl := Option.some.inj hpass
  obtain rfl : acc.id = accountId := id_of_find? hacc
  have hpassed := hsound.frame w.models (fun _ => rfl) (extends_withStatus w.accounts acc.id .passed)
  rw [createPromotionReview, hid] at hreviews
  split at hreviews
  · obtain rfl := Option.some.inj hreviews
    exact hpassed
  rename_i hnone
  obtain ⟨-, hrows⟩ := Table.insert?_eq_some hreviews
  have hother : ∀ review ∈ w.reviews.rows, review.status = .pending → review.sourceAccountId ≠ acc.id := by
    intro review hreview hpending hsource
    exact hnone (List.any_eq_true.mpr ⟨review, hreview, decide_eq_true ⟨hsource, hpending⟩⟩)
  refine ⟨hpassed.once, hpassed.follows, fun review hreview hpending => ?_,
    fun review hreview review' hreview' hpending hpending' hsame => ?_, fun review hreview happroved => ?_⟩
  · obtain rfl | hold := List.mem_cons.mp (hrows ▸ hreview)
    · obtain ⟨acc', hacc', hterms⟩ := extends_withStatus w.accounts acc.id .passed _ _ hacc
      refine ⟨hnot, acc', hacc', ?_⟩
      change (nextTerms w.models acc').map _ = _
      rw [nextTerms_congr hterms, ← hview acc hacc, nextTerms, htarget]
      rfl
    · exact hpassed.pending review hold hpending
  · obtain rfl | hold := List.mem_cons.mp (hrows ▸ hreview)
    · obtain rfl | hold' := List.mem_cons.mp (hrows ▸ hreview')
      · rfl
      · exact absurd hsame.symm (hother review' hold' hpending')
    · obtain rfl | hold' := List.mem_cons.mp (hrows ▸ hreview')
      · exact absurd hsame (hother review hold hpending)
      · exact hsound.single review hold review' hold' hpending hpending' hsame
  · obtain rfl | hold := List.mem_cons.mp (hrows ▸ hreview)
    · cases happroved
    · exact hpassed.approved review hold happroved

/-- What a promotion of an account does. -/
theorem promote_eq_some {newAccountId : Nat} (hpromote : w.promote acc newAccountId = some w') :
    ∃ created accounts, created.id = newAccountId ∧ nextTerms w.models acc = some created.terms ∧
      w.accounts.insert? created = some accounts ∧
      w' = { w with accounts := accounts, successions := (acc.id, newAccountId) :: w.successions } := by
  obtain ⟨target, htarget, hpromote⟩ := Option.bind_eq_some_iff.mp hpromote
  obtain ⟨created, hcreated, hpromote⟩ := Option.bind_eq_some_iff.mp hpromote
  obtain ⟨accounts, haccounts, hpromote⟩ := Option.bind_eq_some_iff.mp hpromote
  obtain ⟨hterms, hid⟩ := terms_of_next hcreated
  exact ⟨created, accounts, hid, by rw [nextTerms, htarget, hterms]; rfl, haccounts,
    (Option.some.inj hpromote).symm⟩

/-- A promotion of an account that has had none, when the reviews of it are no longer waiting. -/
theorem Sound.promoted {created : LadderAccount} {reviews : Table PromotionReview} (hsound : w.Sound)
    (hacc : w.accounts.find? acc.id = some acc) (hnot : ¬w.Promoted acc.id)
    (hnext : nextTerms w.models acc = some created.terms)
    (hinsert : w.accounts.insert? created = some accounts)
    (hpending : ∀ review ∈ reviews.rows, review.status = .pending →
      review ∈ w.reviews.rows ∧ review.sourceAccountId ≠ acc.id)
    (happroved : ∀ review ∈ reviews.rows, review.status = .approved → review ∈ w.reviews.rows ∨
      review.createdAccountId = some created.id ∧ created.accountType = review.targetAccountType ∧
        review.sourceAccountId = acc.id) :
    Sound { w with
      accounts := accounts, reviews := reviews, successions := (acc.id, created.id) :: w.successions } := by
  have hextends : Extends w.accounts accounts := extends_insert? hinsert
  have hframe := hsound.frame w.models (fun _ => rfl) hextends
  have hcreated : accounts.find? created.id = some created := by
    rw [Table.find?_of_insert? hinsert]
    exact if_pos rfl
  refine ⟨List.nodup_cons.mpr ⟨hnot, hsound.once⟩, fun s hs => ?_, fun review hreview hwaiting => ?_,
    fun review hreview review' hreview' hwaiting hwaiting' => ?_, fun review hreview hdone => ?_⟩
  · obtain rfl | hold := List.mem_cons.mp hs
    · obtain ⟨acc', hacc', hterms⟩ := hextends _ _ hacc
      exact ⟨acc', created, hacc', hcreated, (nextTerms_congr hterms).trans hnext⟩
    · exact hframe.follows s hold
  · obtain ⟨hold, hne⟩ := hpending review hreview hwaiting
    obtain ⟨hnot', hrest⟩ := hframe.pending review hold hwaiting
    refine ⟨fun hmem => ?_, hrest⟩
    obtain heq | hbefore := List.mem_cons.mp hmem
    · exact hne heq
    · exact hnot' hbefore
  · exact hsound.single review (hpending review hreview hwaiting).1 review'
      (hpending review' hreview' hwaiting').1 hwaiting hwaiting'
  · obtain hold | ⟨hid, htype, hsource⟩ := happroved review hreview hdone
    · obtain ⟨created', hid, hcreated', htype, hmem⟩ := hframe.approved review hold hdone
      exact ⟨created', hid, hcreated', htype, List.mem_cons_of_mem _ hmem⟩
    · exact ⟨created, hid, hcreated, htype, hsource ▸ List.mem_cons_self⟩

/-- Reviews that are no longer waiting do no harm. -/
theorem Sound.settled {reviews : Table PromotionReview} (hsound : w.Sound)
    (hkept : ∀ review ∈ reviews.rows, review.status ≠ .rejected → review ∈ w.reviews.rows) :
    Sound { w with reviews := reviews } where
  once := hsound.once
  follows := hsound.follows
  pending review hreview hpending :=
    hsound.pending review (hkept review hreview (by rw [hpending]; rintro ⟨⟩)) hpending
  single review hreview review' hreview' hpending hpending' :=
    hsound.single review (hkept review hreview (by rw [hpending]; rintro ⟨⟩)) review'
      (hkept review' hreview' (by rw [hpending']; rintro ⟨⟩)) hpending hpending'
  approved review hreview happroved :=
    hsound.approved review (hkept review hreview (by rw [happroved]; rintro ⟨⟩)) happroved

theorem Sound.adminPass {newAccountId : Nat} (hsound : w.Sound)
    (honce : w.PassesOnce (.adminPass accountId newAccountId))
    (hstep : w.step (.adminPass accountId newAccountId) = some w') : w'.Sound := by
  obtain ⟨acc, hacc, hstep⟩ := Option.bind_eq_some_iff.mp hstep
  obtain ⟨_, -, hstep⟩ := Option.bind_eq_some_iff.mp hstep
  obtain rfl : acc.id = accountId := id_of_find? hacc
  obtain ⟨hnot, hwaiting⟩ := honce
  obtain ⟨created, accounts, rfl, hnext, hinsert, rfl⟩ := promote_eq_some hstep
  have hpassed := hsound.frame w.models (fun _ => rfl) (extends_withStatus w.accounts acc.id .passed)
  obtain ⟨acc', hacc', hterms⟩ := extends_withStatus w.accounts acc.id .passed _ _ hacc
  have hid : acc'.id = acc.id := id_of_find? hacc'
  rw [← hid] at hnot
  have hfound := Table.find?_eq_some.mpr ⟨(Table.find?_eq_some.mp hacc').1, rfl⟩
  have hpromoted := hpassed.promoted hfound hnot ((nextTerms_congr hterms).trans hnext) hinsert
    (fun review hreview hpending =>
      ⟨hreview, fun hsource => hwaiting review hreview (hsource.trans hid) hpending⟩)
    fun review hreview _ => .inl hreview
  rw [hid] at hpromoted
  exact hpromoted

theorem Sound.approve {newAccountId : Nat} (hsound : w.Sound)
    (hstep : w.step (.approve reviewId newAccountId) = some w') : w'.Sound := by
  obtain ⟨review, hreview, hstep⟩ := Option.bind_eq_some_iff.mp hstep
  obtain ⟨_, hpending, hstep⟩ := Option.bind_eq_some_iff.mp hstep
  obtain ⟨source, hsource, hstep⟩ := Option.bind_eq_some_iff.mp hstep
  obtain ⟨_, -, hstep⟩ := Option.bind_eq_some_iff.mp hstep
  obtain ⟨promoted, hpromote, hstep⟩ := Option.bind_eq_some_iff.mp hstep
  obtain rfl := Option.some.inj hstep
  obtain ⟨created, accounts, rfl, hnext, hinsert, rfl⟩ := promote_eq_some hpromote
  replace hpending : review.status = .pending := (Option.guard_eq_some' _).mp hpending
  obtain ⟨hmem, rfl⟩ := Table.find?_eq_some.mp hreview
  have hid : source.id = review.sourceAccountId := id_of_find? hsource
  obtain ⟨hnot, source', hsource', htarget⟩ := hsound.pending review hmem hpending
  obtain rfl := Option.some.inj (hsource.symm.trans hsource')
  rw [hnext] at htarget
  have htype : created.accountType = review.targetAccountType := Option.some.inj htarget
  refine hsound.promoted (hid ▸ hsource) (hid ▸ hnot) hnext hinsert (fun other hother hwaiting => ?_)
    fun other hother hdone => ?_
  · obtain ⟨before, hbefore, rfl⟩ := List.mem_map.mp hother
    split at hwaiting
    · cases hwaiting
    · rename_i hne
      rw [if_neg hne]
      refine ⟨hbefore, fun heq => hne (decide_eq_true ?_)⟩
      exact hsound.single before hbefore review hmem hwaiting hpending (heq.trans hid)
  · obtain ⟨before, hbefore, rfl⟩ := List.mem_map.mp hother
    split
    · rename_i heq
      obtain rfl : before = review :=
        List.inj_on_of_nodup_map w.reviews.nodup hbefore hmem (of_decide_eq_true heq)
      exact .inr ⟨rfl, htype, hid.symm⟩
    · exact .inl hbefore

theorem Sound.step (hsound : w.Sound) (honce : w.PassesOnce a) (hstep : w.step a = some w') : w'.Sound := by
  cases a with
  | openAccount acc =>
    obtain ⟨_, -, hstep⟩ := Option.bind_eq_some_iff.mp hstep
    obtain ⟨accounts, hinsert, hstep⟩ := Option.bind_eq_some_iff.mp hstep
    obtain rfl := Option.some.inj hstep
    exact hsound.frame w.models (fun _ => rfl) (extends_insert? hinsert)
  | setStatus accountId status =>
    obtain ⟨_, -, hstep⟩ := Option.bind_eq_some_iff.mp hstep
    obtain rfl := Option.some.inj hstep
    exact hsound.frame w.models (fun _ => rfl) (extends_withStatus w.accounts accountId status)
  | enginePass accountId reviewId => exact hsound.pass honce (fun _ => rfl) (fun _ _ => rfl) hstep
  | floatingPass accountId reviewId =>
    have hpass : w.pass accountId reviewId LadderAccount.engineView = some w' := hstep
    refine hsound.pass honce.1 ?_ ?_ hpass
    · exact fun _ => rfl
    · exact fun acc hacc => nextTerms_engineView (honce.2 acc hacc)
  | adminPass accountId newAccountId => exact hsound.adminPass honce hstep
  | approve reviewId newAccountId => exact hsound.approve hstep
  | reject reviewId =>
    obtain ⟨review, hreview, hstep⟩ := Option.bind_eq_some_iff.mp hstep
    obtain ⟨_, -, hstep⟩ := Option.bind_eq_some_iff.mp hstep
    obtain rfl := Option.some.inj hstep
    refine hsound.settled fun other hother hkept => ?_
    refine Table.mem_of_mem_update hother ?_
    rintro before rfl
    exact hkept rfl
  | toggleModel slug enabled =>
    obtain rfl := Option.some.inj hstep
    exact hsound.frame _ (fun _ => nextTerms_updateAt fun _ => rfl) extends_refl
  | editPhase slug phaseIndex days =>
    obtain rfl := Option.some.inj hstep
    refine hsound.frame _ (fun _ => nextTerms_updateAt fun m => ?_) extends_refl
    change (if _ then _ else _ : ChallengeModel).steps = _
    split <;> rfl

/-- Every account in the line of one that starts at the first phase is at the next rung of its model. -/
theorem Sound.rung {root : LadderAccount} {model : ChallengeModel} (hsound : w.Sound)
    (hroot : root ∈ w.accounts.rows) (hmodel : root.stepModel w.models = some model)
    (htype : root.accountType = .phase 1) (hstep : root.stepNumber = some 1) (k : Nat) :
    ∀ created ∈ w.accounts.rows, w.IsSuccessor k root.id created.id →
      created.stepModel w.models = some model ∧
        (k < model.phases ∧ created.accountType = .phase (k + 1) ∧ created.stepNumber = some (k + 1) ∨
          k = model.phases ∧ created.accountType = .funded) := by
  induction k with
  | zero =>
    intro created hcreated hsame
    obtain rfl : root = created := List.inj_on_of_nodup_map w.accounts.nodup hroot hcreated hsame
    exact ⟨hmodel, .inl ⟨phases_pos model, htype, hstep⟩⟩
  | succ k ih =>
    rintro created hcreated ⟨c, hc, hmem⟩
    obtain ⟨source, created', hsource, hcreated', hnext⟩ := hsound.follows _ hmem
    obtain ⟨hin, rfl⟩ := Table.find?_eq_some.mp hsource
    obtain ⟨hin', hid⟩ := Table.find?_eq_some.mp hcreated'
    obtain rfl : created' = created := List.inj_on_of_nodup_map w.accounts.nodup hin' hcreated hid
    obtain ⟨hmodel', ⟨hlt, hphase, hnumber⟩ | ⟨-, hfunded⟩⟩ := ih source hin hc
    · have hcurrent : source.currentStep = k + 1 := by
        rw [LadderAccount.currentStep, hnumber]
        rfl
      obtain ⟨hkept, hrung⟩ := ladder_step hmodel' hphase hnext
      rw [hcurrent] at hrung
      refine ⟨hkept, hrung.imp_right fun hlast => ⟨?_, hlast.2⟩⟩
      omega
    · rw [nextTerms_funded hmodel' hfunded] at hnext
      cases hnext

theorem Sound.granted {review : PromotionReview} {source : LadderAccount} (hsound : w.Sound)
    (hreview : review ∈ w.reviews.rows) (hpending : review.status = .pending)
    (hsource : w.accounts.find? review.sourceAccountId = some source) (hpassed : source.status = .passed)
    (hdays : ∀ model, source.stepModel w.models = some model →
      ∀ step < model.phases, (model.timeLimitsDays step).isSome = true)
    (hfresh : w.accounts.find? id = none) : (w.step (.approve review.id id)).isSome = true := by
  obtain ⟨-, source', hsource', htarget⟩ := hsound.pending review hreview hpending
  obtain rfl := Option.some.inj (hsource.symm.trans hsource')
  obtain ⟨terms, hterms, -⟩ := Option.map_eq_some_iff.mp htarget
  obtain ⟨target, htarget, -⟩ := Option.map_eq_some_iff.mp hterms
  obtain ⟨next, hnext⟩ := Option.isSome_iff_exists.mp (next_isSome htarget hdays id)
  have hid : next.id = id := (terms_of_next hnext).2
  rw [← hid] at hfresh
  obtain ⟨accounts, hinsert⟩ := Option.isSome_iff_exists.mp (Table.insert?_isSome hfresh)
  have hfind : w.reviews.find? review.id = some review := Table.find?_eq_some.mpr ⟨hreview, rfl⟩
  have hpromote : w.promote source id =
      some { w with accounts := accounts, successions := (source.id, id) :: w.successions } := by
    rw [promote, htarget]
    simp only [Option.bind_eq_bind, Option.bind_some, hnext, hinsert]
    rfl
  rw [PromotionWorld.step, hfind]
  simp only [Option.bind_eq_bind, Option.bind_some, hpending, guard_true, hsource, hpassed, hpromote]
  rfl

instance (w : PromotionWorld) (a : PromotionAction) : Decidable (w.PassesOnce a) :=
  match a with
  | .enginePass accountId _ => inferInstanceAs (Decidable ¬w.Promoted accountId)
  | .floatingPass accountId _ => inferInstanceAs (Decidable (¬w.Promoted accountId ∧
      ∀ acc ∈ w.accounts.find? accountId, ∀ model ∈ acc.stepModel w.models, _ ∨ _))
  | .adminPass accountId _ =>
    inferInstanceAs (Decidable (¬w.Promoted accountId ∧ ∀ review ∈ w.reviews.rows, _))
  | .openAccount _ | .setStatus _ _ | .approve _ _ | .reject _ | .toggleModel _ _ | .editPhase _ _ _ =>
    .isTrue trivial

def twoStep : ChallengeModel := ⟨"2-step", 2, true, fun step => if step < 2 then some 45 else none⟩

def beforePurchase : PromotionWorld := ⟨.single twoStep, .empty, .empty, []⟩

def purchased : LadderAccount := ⟨1, .phase 1, .active, some "2-step", some 1, none⟩

/-- The first phase is passed on the open profit, and the model's days are edited before the approval; the
second is passed with no trade open. -/
def twoPhases : List PromotionAction :=
  [.openAccount purchased, .floatingPass 1 1, .editPhase "2-step" 2 (some 60), .approve 1 2, .enginePass 2 2,
    .approve 2 3]

/-- The second phase is passed on the open profit as well. -/
def floatingSecondPhase : List PromotionAction :=
  [.openAccount purchased, .enginePass 1 1, .approve 1 2, .floatingPass 2 2, .approve 2 3]

end PromotionWorld

end PropFirm
