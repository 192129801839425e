import Mathlib
import PropFirm.ChallengeOrders
import PropFirm.Lib.Admission
import PropFirm.Lib.Transition

/-!
# The limits on purchases

The transaction of `POST /accounts/create` counts rows of `accounts` twice: the user's active evaluation
and funded accounts, under an advisory lock on the user and the size that he asks for, and the accounts
ever created of a model and a size, under a lock on these two. Locks are kept until the transaction ends,
and a count sees what has been committed by then.

The settings, the models and the pricing stay as they are. `hashtext` is a parameter, so that locks of
different texts may fall together.
-/

namespace PropFirm

open Admission Transition

/-- A row of `accounts` with the columns that are counted; a promotion and an administrator insert rows as
well as the route does. -/
structure PurchasedAccount where
  row : Account
  userId : Nat
  challengeModelId : Nat
  accountSize : Nat
  viaCreate : Bool
  deriving DecidableEq

instance : Keyed PurchasedAccount Nat := ⟨fun a => a.row.id⟩

namespace PurchasedAccount

/-- What the user's limit is about. -/
def Running (a : PurchasedAccount) : Prop :=
  a.row.status = .active ∧ a.row.accountType ∈ [AccountType.phase1, .phase2, .phase3, .funded]

instance : DecidablePred Running := fun _ => inferInstanceAs (Decidable (_ ∧ _))

def movedTo (status : AccountStatus) : Table.Rewrite PurchasedAccount where
  apply a := { a with row := { a.row with status := status } }
  key_apply _ := rfl

end PurchasedAccount

inductive PurchaseLock
  | advisory (first second : Int)
  | orderRow (orderId : Nat)
  deriving DecidableEq

structure PurchaseConfig where
  hashtext : String → Int
  userFound : Nat → Bool
  maxAccountsPerUser : Option Int
  fetchStepModelBySlug : String → Option EntryModel
  pricing : Nat → Nat → Option SlotRow

namespace PurchaseConfig

variable (cfg : PurchaseConfig)

def maxPerUser : Option Int := cfg.maxAccountsPerUser.filter (0 < ·)

def userLock (request : CreateRequest) : PurchaseLock :=
  .advisory (cfg.hashtext (toString request.userId)) request.accountSize

def slotLock (modelId accountSize : Nat) : PurchaseLock :=
  .advisory (cfg.hashtext "step_model_slot") (cfg.hashtext (toString modelId ++ ":" ++ toString accountSize))

end PurchaseConfig

/-- How far the transaction of a request has come. -/
inductive PurchaseStage
  | begun
  | locked
  | counted
  | ordered (order : ChallengeOrder) (model : EntryModel)
  | slotLocked (order : ChallengeOrder) (model : EntryModel)
  | admitted (order : ChallengeOrder) (model : EntryModel)

/-- The user's accounts have been counted. -/
def PurchaseStage.hasCounted : PurchaseStage → Bool
  | .begun | .locked => false
  | .counted | .ordered .. | .slotLocked .. | .admitted .. => true

/-- The next statement counts the user's accounts. -/
def PurchaseStage.countsNext : PurchaseStage → Bool
  | .locked => true
  | .begun | .counted | .ordered .. | .slotLocked .. | .admitted .. => false

/-- A request inside its transaction. -/
structure Purchase where
  request : CreateRequest
  stage : PurchaseStage

instance : Keyed Purchase Nat := ⟨fun p => p.request.claimId⟩

namespace Purchase

def atStage (stage : PurchaseStage) : Table.Rewrite Purchase where
  apply p := { p with stage := stage }
  key_apply _ := rfl

def held (cfg : PurchaseConfig) (p : Purchase) : List PurchaseLock :=
  match p.stage with
  | .begun => []
  | .locked | .counted => [cfg.userLock p.request]
  | .ordered order _ => [.orderRow order.id, cfg.userLock p.request]
  | .slotLocked order model | .admitted order model =>
    [cfg.slotLock model.id p.request.accountSize, .orderRow order.id, cfg.userLock p.request]

/-- Counted for the user, and neither committed nor given up. -/
def CountedFor (userId : Nat) (p : Purchase) : Prop := p.request.userId = userId ∧ p.stage.hasCounted

/-- Past the slot check of a model and a size. -/
def AdmittedTo (modelId accountSize : Nat) (p : Purchase) : Prop :=
  p.request.accountSize = accountSize ∧ ∃ order model, p.stage = .admitted order model ∧ model.id = modelId

theorem userLock_mem {cfg : PurchaseConfig} (p : Purchase) (hcounted : p.stage.hasCounted) :
    cfg.userLock p.request ∈ p.held cfg := by
  obtain ⟨request, stage⟩ := p
  cases stage with
  | begun | locked => cases hcounted
  | counted | ordered | slotLocked | admitted => simp [held]

/-- Requests between the slot check and their end hold the slot's lock. -/
theorem AdmittedTo.slotLock_mem {cfg : PurchaseConfig} {modelId accountSize : Nat} {p : Purchase}
    (hadmitted : p.AdmittedTo modelId accountSize) : cfg.slotLock modelId accountSize ∈ p.held cfg := by
  obtain ⟨rfl, order, model, hstage, rfl⟩ := hadmitted
  rw [held, hstage]
  exact List.mem_cons_self

end Purchase

structure PurchaseWorld where
  orders : Table ChallengeOrder
  accounts : Table PurchasedAccount
  requests : Table Purchase

/-- `proceed` is the next statement of a request's transaction, the last of which draws an id and the
clock; `fail` is an error in it, or the end of its process. -/
inductive PurchaseAction
  | begin (request : CreateRequest)
  | proceed (claimId accountId now : Nat)
  | fail (claimId : Nat)
  | insertElsewhere (account : PurchasedAccount)
  | leaveActive (accountId : Nat) (status : AccountStatus)

namespace PurchaseWorld

variable (cfg : PurchaseConfig) (w : PurchaseWorld)

def activeAccounts (userId : Nat) : Nat :=
  w.accounts.rows.countP fun a => a.userId = userId ∧ a.Running

def countUsedSlotsForModel (modelId accountSize : Nat) : Nat :=
  w.accounts.rows.countP fun a => a.challengeModelId = modelId ∧ a.accountSize = accountSize

/-- The user's active challenge accounts that the route has created. -/
def createdActive (userId : Nat) : Nat :=
  w.accounts.rows.countP fun a => a.viaCreate ∧ a.userId = userId ∧ a.Running

/-- The accounts that the route has created of a model and a size. -/
def created (modelId accountSize : Nat) : Nat :=
  w.accounts.rows.countP fun a => a.viaCreate ∧ a.challengeModelId = modelId ∧ a.accountSize = accountSize

/-- Nobody but the request itself holds the lock. -/
def Free (claimId : Nat) (lock : PurchaseLock) : Prop :=
  ∀ p ∈ w.requests.rows, lock ∈ p.held cfg → p.request.claimId = claimId

instance (claimId : Nat) (lock : PurchaseLock) : Decidable (w.Free cfg claimId lock) :=
  inferInstanceAs (Decidable (∀ p ∈ w.requests.rows, _))

def advance (claimId : Nat) (stage : PurchaseStage) : PurchaseWorld :=
  { w with requests := w.requests.updateAt claimId (Purchase.atStage stage) }

/-- `COMMIT` or `ROLLBACK`, with which the locks go. -/
def finish (claimId : Nat) : PurchaseWorld := { w with requests := w.requests.erase claimId }

/-- The row that a request inserts. -/
def newAccount (request : CreateRequest) (model : EntryModel) (accountId now : Nat) : PurchasedAccount where
  row := model.account accountId request.accountSize now
  userId := request.userId
  challengeModelId := model.id
  accountSize := request.accountSize
  viaCreate := true

/-- The next statement of a transaction; it waits while another has the lock it takes. -/
def proceed (p : Purchase) (accountId now : Nat) : Option PurchaseWorld :=
  let claimId := p.request.claimId
  match p.stage with
  | .begun =>
    if w.Free cfg claimId (cfg.userLock p.request) then some (w.advance claimId .locked) else none
  | .locked =>
    if ¬ cfg.userFound p.request.userId then some (w.finish claimId)
    else if ∃ limit ∈ cfg.maxPerUser, limit ≤ w.activeAccounts p.request.userId then
      some (w.finish claimId)
    else some (w.advance claimId .counted)
  | .counted =>
    match orderGates { OrderDb.empty with orders := w.orders } p.request with
    | .error _ => some (w.finish claimId)
    | .ok order =>
      if ¬ w.Free cfg claimId (.orderRow order.id) then none
      else match (order.challengeModelSlug.filter (· ≠ "")).bind cfg.fetchStepModelBySlug with
      | none => some (w.finish claimId)
      | some model => some (w.advance claimId (.ordered order model))
  | .ordered order model =>
    if w.Free cfg claimId (cfg.slotLock model.id p.request.accountSize) then
      some (w.advance claimId (.slotLocked order model))
    else none
  | .slotLocked order model =>
    match assertSlotAvailable (cfg.pricing model.id p.request.accountSize)
      (w.countUsedSlotsForModel model.id p.request.accountSize) with
    | .error _ => some (w.finish claimId)
    | .ok () => some (w.advance claimId (.admitted order model))
  | .admitted _ model =>
    (w.accounts.insert? (newAccount p.request model accountId now)).map fun accounts =>
      { w.finish claimId with accounts := accounts }

def step (cfg : PurchaseConfig) (w : PurchaseWorld) : PurchaseAction → Option PurchaseWorld
  | .begin request =>
    if request.accountSize ∉ stepModelAccountSizes then some w
    else (w.requests.insert? ⟨request, .begun⟩).map fun requests => { w with requests := requests }
  | .proceed claimId accountId now => do w.proceed cfg (← w.requests.find? claimId) accountId now
  | .fail claimId => some (w.finish claimId)
  | .insertElsewhere account =>
    (w.accounts.insert? { account with viaCreate := false }).map fun accounts =>
      { w with accounts := accounts }
  | .leaveActive accountId status =>
    if status = .active then none
    else some { w with accounts := w.accounts.updateAt accountId (PurchasedAccount.movedTo status) }

/-! ### What a statement does -/

/-- The statements that do not end the transaction. -/
inductive Advances (p : Purchase) : PurchaseStage → Prop
  | lockUser (hstage : p.stage = .begun) (hfree : w.Free cfg p.request.claimId (cfg.userLock p.request)) :
      Advances p .locked
  | countAccounts (hstage : p.stage = .locked)
      (hbelow : ∀ limit ∈ cfg.maxPerUser, (w.activeAccounts p.request.userId : Int) < limit) :
      Advances p .counted
  | lockOrder {order : ChallengeOrder} {model : EntryModel} (hstage : p.stage = .counted)
      (hfree : w.Free cfg p.request.claimId (.orderRow order.id)) : Advances p (.ordered order model)
  | lockSlot {order : ChallengeOrder} {model : EntryModel} (hstage : p.stage = .ordered order model)
      (hfree : w.Free cfg p.request.claimId (cfg.slotLock model.id p.request.accountSize)) :
      Advances p (.slotLocked order model)
  | checkSlot {order : ChallengeOrder} {model : EntryModel} (hstage : p.stage = .slotLocked order model)
      (hslot : assertSlotAvailable (cfg.pricing model.id p.request.accountSize)
        (w.countUsedSlotsForModel model.id p.request.accountSize) = .ok ()) :
      Advances p (.admitted order model)

variable {cfg w}

theorem proceed_cases {w' : PurchaseWorld} {p : Purchase} {accountId now : Nat}
    (hproceed : w.proceed cfg p accountId now = some w') :
    w' = w.finish p.request.claimId ∨
    (∃ stage, w.Advances cfg p stage ∧ w' = w.advance p.request.claimId stage) ∨
    ∃ order model accounts, p.stage = .admitted order model ∧
      w.accounts.insert? (newAccount p.request model accountId now) = some accounts ∧
      w' = { w.finish p.request.claimId with accounts := accounts } := by
  unfold proceed at hproceed
  dsimp only at hproceed
  split at hproceed
  next hstage =>
    split at hproceed
    · rename_i hfree
      exact .inr (.inl ⟨_, .lockUser hstage hfree, (Option.some.inj hproceed).symm⟩)
    · cases hproceed
  next hstage =>
    split at hproceed
    · exact .inl (Option.some.inj hproceed).symm
    split at hproceed
    · exact .inl (Option.some.inj hproceed).symm
    · rename_i hbelow
      push Not at hbelow
      exact .inr (.inl ⟨_, .countAccounts hstage hbelow, (Option.some.inj hproceed).symm⟩)
  next hstage =>
    split at hproceed
    · exact .inl (Option.some.inj hproceed).symm
    rename_i order _
    by_cases hfree : w.Free cfg p.request.claimId (.orderRow order.id)
    · rw [if_neg (not_not.mpr hfree)] at hproceed
      split at hproceed
      · exact .inl (Option.some.inj hproceed).symm
      · exact .inr (.inl ⟨_, .lockOrder hstage hfree, (Option.some.inj hproceed).symm⟩)
    · rw [if_pos hfree] at hproceed
      cases hproceed
  next order model hstage =>
    split at hproceed
    · rename_i hfree
      exact .inr (.inl ⟨_, .lockSlot hstage hfree, (Option.some.inj hproceed).symm⟩)
    · cases hproceed
  next order model hstage =>
    split at hproceed
    · exact .inl (Option.some.inj hproceed).symm
    · rename_i hslot
      exact .inr (.inl ⟨_, .checkSlot hstage hslot, (Option.some.inj hproceed).symm⟩)
  next order model hstage =>
    obtain ⟨accounts, hinsert, hw'⟩ := Option.map_eq_some_iff.mp hproceed
    exact .inr (.inr ⟨order, model, accounts, hstage, hinsert, hw'.symm⟩)

/-! ### The locks -/

theorem Free.eq {claimId holder : Nat} {lock : PurchaseLock} (hfree : w.Free cfg claimId lock)
    (hheld : w.requests.HasAt (fun p => lock ∈ p.held cfg) holder) : holder = claimId := by
  obtain ⟨p, hp, hlock⟩ := hheld
  obtain ⟨hmem, rfl⟩ := Table.find?_eq_some.mp hp
  exact hfree p hmem hlock

/-- A lock that a statement adds is free. -/
theorem Advances.held {p : Purchase} {stage : PurchaseStage} (hadvance : w.Advances cfg p stage)
    {lock : PurchaseLock} (hlock : lock ∈ ((Purchase.atStage stage).apply p).held cfg) :
    lock ∈ p.held cfg ∨ w.Free cfg p.request.claimId lock := by
  cases hadvance with
  | lockUser hstage hfree =>
    rw [List.mem_singleton.mp hlock]
    exact .inr hfree
  | countAccounts hstage hbelow =>
    rw [Purchase.held, hstage]
    exact .inl hlock
  | lockOrder hstage hfree | lockSlot hstage hfree =>
    rw [Purchase.held, hstage]
    rcases List.mem_cons.mp hlock with rfl | hlock
    · exact .inr hfree
    · exact .inl hlock
  | checkSlot hstage hslot =>
    rw [Purchase.held, hstage]
    exact .inl hlock

theorem locked_step {w' : PurchaseWorld} {a : PurchaseAction}
    (hlocked : Locked (Purchase.held cfg) w.requests) (hstep : step cfg w a = some w') :
    Locked (Purchase.held cfg) w'.requests := by
  cases a with
  | begin request =>
    dsimp only [step] at hstep
    split at hstep
    · exact Option.some.inj hstep ▸ hlocked
    obtain ⟨requests, hinsert, rfl⟩ := Option.map_eq_some_iff.mp hstep
    exact hlocked.insert hinsert rfl
  | proceed claimId accountId now =>
    obtain ⟨p, hp, hproceed⟩ := Option.bind_eq_some_iff.mp hstep
    obtain ⟨_, rfl⟩ := Table.find?_eq_some.mp hp
    obtain rfl | ⟨stage, hadvance, rfl⟩ | ⟨order, model, accounts, _, _, rfl⟩ := proceed_cases hproceed
    · exact hlocked.erase _
    · exact hlocked.update hp fun lock hlock => (hadvance.held hlock).imp_right fun hfree _ => hfree.eq
    · exact hlocked.erase _
  | fail claimId => exact Option.some.inj hstep ▸ hlocked.erase claimId
  | insertElsewhere account =>
    obtain ⟨accounts, _, rfl⟩ := Option.map_eq_some_iff.mp hstep
    exact hlocked
  | leaveActive accountId status =>
    dsimp only [step] at hstep
    split at hstep
    · cases hstep
    · exact Option.some.inj hstep ▸ hlocked

/-! ### The gates -/

/-- What a limit counts, and the requests that have passed its check. -/
structure Gate where
  counts : PurchasedAccount → Bool
  ticket : Purchase → Prop
  counts_elsewhere : ∀ a, a.viaCreate = false → counts a = false
  counts_moved : ∀ a status, status ≠ .active → counts ((PurchasedAccount.movedTo status).apply a) → counts a
  ticket_begun : ∀ request, ¬ ticket ⟨request, .begun⟩
  ticket_of_counts : ∀ p order model accountId now, p.stage = .admitted order model →
    counts (newAccount p.request model accountId now) → ticket p

namespace Gate

variable {g : Gate} {limit : Int}

def KeptBy (g : Gate) (limit : Int) (w : PurchaseWorld) : Prop :=
  Keeps g.counts g.ticket limit w.accounts w.requests

/-- A limit is kept by every step but, perhaps, one that passes its check. -/
theorem KeptBy.step {w' : PurchaseWorld} {a : PurchaseAction} (hkept : g.KeptBy limit w)
    (hgrant : ∀ p stage accountId now, a = .proceed p.request.claimId accountId now →
      w.requests.find? p.request.claimId = some p → w.Advances cfg p stage →
      g.ticket ((Purchase.atStage stage).apply p) →
      g.ticket p ∨ (∀ claimId, ¬ w.requests.HasAt g.ticket claimId) ∧
        (w.accounts.rows.countP g.counts : Int) < limit)
    (hstep : PurchaseWorld.step cfg w a = some w') : g.KeptBy limit w' := by
  cases a with
  | begin request =>
    dsimp only [PurchaseWorld.step] at hstep
    split at hstep
    · exact Option.some.inj hstep ▸ hkept
    obtain ⟨requests, hinsert, rfl⟩ := Option.map_eq_some_iff.mp hstep
    exact Keeps.insert_caller hkept hinsert (g.ticket_begun request)
  | proceed claimId accountId now =>
    obtain ⟨p, hp, hproceed⟩ := Option.bind_eq_some_iff.mp hstep
    obtain ⟨_, rfl⟩ := Table.find?_eq_some.mp hp
    obtain rfl | ⟨stage, hadvance, rfl⟩ | ⟨order, model, accounts, hstage, hinsert, rfl⟩ :=
      proceed_cases hproceed
    · exact Keeps.erase hkept _
    · exact Keeps.update_caller hkept hp (hgrant p stage accountId now rfl hp hadvance)
    · exact Keeps.join hkept hp hinsert (g.ticket_of_counts p order model accountId now hstage)
  | fail claimId => exact Option.some.inj hstep ▸ Keeps.erase hkept claimId
  | insertElsewhere account =>
    obtain ⟨accounts, hinsert, rfl⟩ := Option.map_eq_some_iff.mp hstep
    exact Keeps.insert_member hkept hinsert (g.counts_elsewhere _ rfl)
  | leaveActive accountId status =>
    dsimp only [PurchaseWorld.step] at hstep
    split at hstep
    · cases hstep
    rename_i hstatus
    obtain rfl := Option.some.inj hstep
    exact Keeps.update_members hkept fun a _ _ => g.counts_moved a status hstatus

end Gate

/-- The accounts the route has created of a model and a size. -/
def slotGate (modelId accountSize : Nat) : Gate where
  counts a := a.viaCreate ∧ a.challengeModelId = modelId ∧ a.accountSize = accountSize
  ticket := Purchase.AdmittedTo modelId accountSize
  counts_elsewhere a ha := by simp [ha]
  counts_moved a status _ hcounts := hcounts
  ticket_begun request hticket := by
    obtain ⟨_, order, model, hstage, _⟩ := hticket
    cases hstage
  ticket_of_counts p order model accountId now hstage hcounts := by
    obtain ⟨_, hmodel, hsize⟩ := of_decide_eq_true hcounts
    exact ⟨hsize, order, model, hstage, hmodel⟩

/-- A user's active challenge accounts that the route has created. -/
def userGate (userId : Nat) : Gate where
  counts a := a.viaCreate ∧ a.userId = userId ∧ a.Running
  ticket := Purchase.CountedFor userId
  counts_elsewhere a ha := by simp [ha]
  counts_moved a status hstatus hcounts := by
    obtain ⟨_, _, hactive, _⟩ := of_decide_eq_true hcounts
    exact absurd hactive hstatus
  ticket_begun request hticket := Bool.false_ne_true hticket.2
  ticket_of_counts p order model accountId now hstage hcounts := by
    obtain ⟨_, huser, _⟩ := of_decide_eq_true hcounts
    refine ⟨huser, ?_⟩
    rw [hstage]
    rfl

theorem createdActive_le_activeAccounts (w : PurchaseWorld) (userId : Nat) :
    w.createdActive userId ≤ w.activeAccounts userId :=
  List.countP_mono_left fun a _ ha => by
    simp only [decide_eq_true_eq] at ha ⊢
    exact ha.2

theorem created_le_countUsedSlotsForModel (w : PurchaseWorld) (modelId accountSize : Nat) :
    w.created modelId accountSize ≤ w.countUsedSlotsForModel modelId accountSize :=
  List.countP_mono_left fun a _ ha => by
    simp only [decide_eq_true_eq] at ha ⊢
    exact ha.2

/-- Room for one more of a limited slot. -/
theorem assertSlotAvailable_lt {row : SlotRow} {used : Nat} (hlimited : ¬ row.isUnlimited)
    (hslot : assertSlotAvailable (some row) used = .ok ()) : (used : Int) < row.slotLimit.getD 0 := by
  unfold assertSlotAvailable at hslot
  dsimp only at hslot
  split at hslot
  · cases hslot
  split at hslot
  · cases hslot
  · exact not_le.mp ‹_›

theorem slotGate_step {w' : PurchaseWorld} {a : PurchaseAction} {modelId accountSize : Nat} {row : SlotRow}
    (hlocked : Locked (Purchase.held cfg) w.requests) (hrow : cfg.pricing modelId accountSize = some row)
    (hlimited : ¬ row.isUnlimited)
    (hkept : (slotGate modelId accountSize).KeptBy (max 0 (row.slotLimit.getD 0)) w)
    (hstep : step cfg w a = some w') :
    (slotGate modelId accountSize).KeptBy (max 0 (row.slotLimit.getD 0)) w' := by
  refine hkept.step (fun p stage accountId now _ hp hadvance hticket => .inr ?_) hstep
  obtain ⟨rfl, order, model, rfl, rfl⟩ := hticket
  cases hadvance with
  | checkSlot hstage hslot =>
    constructor
    · -- another admitted request would hold the lock that this one has
      rintro claimId ⟨q, hq, hadmitted⟩
      have hlock : cfg.slotLock model.id p.request.accountSize ∈ p.held cfg := by
        rw [Purchase.held, hstage]
        exact List.mem_cons_self
      obtain rfl := hlocked.eq hp hlock hq hadmitted.slotLock_mem
      obtain ⟨_, order', model', hstage', _⟩ := hadmitted
      rw [hstage] at hstage'
      cases hstage'
    · have hle := created_le_countUsedSlotsForModel w model.id p.request.accountSize
      have hbelow := assertSlotAvailable_lt hlimited (hrow ▸ hslot)
      exact lt_max_of_lt_right (lt_of_le_of_lt (Int.ofNat_le.mpr hle) hbelow)

/-- A user's accounts are counted only while no request of his for another size is between its own count
and its end. -/
def CountsAlone (w : PurchaseWorld) : PurchaseAction → Prop
  | .proceed claimId _ _ =>
    ∀ p ∈ w.requests.rows, p.request.claimId = claimId → p.stage.countsNext →
      ∀ q ∈ w.requests.rows, q.request.userId = p.request.userId →
        q.request.accountSize ≠ p.request.accountSize → ¬ q.stage.hasCounted
  | .begin _ | .fail _ | .insertElsewhere _ | .leaveActive .. => True

instance (w : PurchaseWorld) : DecidablePred w.CountsAlone
  | .proceed .. => inferInstanceAs (Decidable (∀ p ∈ w.requests.rows, _))
  | .begin _ | .fail _ | .insertElsewhere _ | .leaveActive .. => isTrue trivial

theorem userGate_step {w' : PurchaseWorld} {a : PurchaseAction} {limit : Int}
    (hlocked : Locked (Purchase.held cfg) w.requests) (hlimit : limit ∈ cfg.maxPerUser) {userId : Nat}
    (hkept : (userGate userId).KeptBy limit w) (halone : w.CountsAlone a) (hstep : step cfg w a = some w') :
    (userGate userId).KeptBy limit w' := by
  refine hkept.step (fun p stage accountId now ha hp hadvance hticket => ?_) hstep
  subst ha
  cases hadvance with
  | lockUser hstage hfree => exact absurd hticket.2 Bool.false_ne_true
  | countAccounts hstage hbelow =>
    obtain ⟨rfl, _⟩ := hticket
    refine .inr ⟨?_, ?_⟩
    · rintro claimId ⟨q, hq, huser, hcounted⟩
      have hmem := (Table.find?_eq_some.mp hp).1
      have hqmem := (Table.find?_eq_some.mp hq).1
      by_cases hsize : q.request.accountSize = p.request.accountSize
      · -- for one size, both would hold the user's lock
        have hsame : cfg.userLock q.request = cfg.userLock p.request := by
          rw [PurchaseConfig.userLock, PurchaseConfig.userLock, hsize, huser]
          rfl
        have hlock : cfg.userLock p.request ∈ p.held cfg := by
          rw [Purchase.held, hstage]
          exact List.mem_cons_self
        obtain rfl := hlocked.eq hp hlock hq (hsame ▸ q.userLock_mem hcounted)
        rw [hstage] at hcounted
        cases hcounted
      · exact halone p hmem rfl (by rw [hstage]; rfl) q hqmem huser hsize hcounted
    · have hle := createdActive_le_activeAccounts w p.request.userId
      exact lt_of_le_of_lt (Int.ofNat_le.mpr hle) (hbelow limit hlimit)
  | lockOrder hstage hfree | lockSlot hstage hfree | checkSlot hstage hslot =>
    refine .inl ⟨hticket.1, ?_⟩
    rw [hstage]
    rfl

/-! ### Both limits -/

/-- Both limits are respected. A negative slot limit lets nobody in, as zero does. -/
structure WithinLimits (cfg : PurchaseConfig) (w : PurchaseWorld) : Prop where
  perUser : ∀ limit ∈ cfg.maxPerUser, ∀ userId, (w.createdActive userId : Int) ≤ limit
  perPricing : ∀ modelId accountSize row, cfg.pricing modelId accountSize = some row → ¬ row.isUnlimited →
    (w.created modelId accountSize : Int) ≤ max 0 (row.slotLimit.getD 0)

/-- No request is under way, and what there is respects the limits. -/
def Quiescent (cfg : PurchaseConfig) (w : PurchaseWorld) : Prop :=
  w.requests.rows = [] ∧ w.WithinLimits cfg

variable {ok : PurchaseWorld → PurchaseAction → Prop}

theorem reach_locked (hreach : Reach (step cfg) ok (Quiescent cfg) w) :
    Locked (Purchase.held cfg) w.requests := by
  apply hreach.invariant
  · exact fun s hs => .of_empty hs.1
  · exact fun _ _ _ hlocked _ hstep => locked_step hlocked hstep

/-- The slots of a model and a size are never oversold, whatever the requests do. -/
theorem created_le_slotLimit (hreach : Reach (step cfg) ok (Quiescent cfg) w) {modelId accountSize : Nat}
    {row : SlotRow} (hrow : cfg.pricing modelId accountSize = some row) (hlimited : ¬ row.isUnlimited) :
    (w.created modelId accountSize : Int) ≤ max 0 (row.slotLimit.getD 0) := by
  have hkept : (slotGate modelId accountSize).KeptBy (max 0 (row.slotLimit.getD 0)) w := by
    apply hreach.invariant_relative reach_locked
    · exact fun s hs => .of_empty hs.1 (hs.2.perPricing modelId accountSize row hrow hlimited)
    · exact fun s a s' hlocked hkept _ hstep => slotGate_step hlocked hrow hlimited hkept hstep
  exact hkept.le

theorem createdActive_le_limit (hreach : Reach (step cfg) CountsAlone (Quiescent cfg) w) {limit : Int}
    (hlimit : limit ∈ cfg.maxPerUser) (userId : Nat) : (w.createdActive userId : Int) ≤ limit := by
  have hkept : (userGate userId).KeptBy limit w := by
    apply hreach.invariant_relative reach_locked
    · exact fun s hs => .of_empty hs.1 (hs.2.perUser limit hlimit userId)
    · exact fun s a s' hlocked hkept halone hstep => userGate_step hlocked hlimit hkept halone hstep
  exact hkept.le

/-- Both limits hold in every run that counts a user's accounts alone. -/
theorem withinLimits_of_countsAlone (hreach : Reach (step cfg) CountsAlone (Quiescent cfg) w) :
    w.WithinLimits cfg where
  perUser _ hlimit := createdActive_le_limit hreach hlimit
  perPricing _ _ _ := created_le_slotLimit hreach

/-! ### A user who buys two sizes at once -/

def oneStep : EntryModel where
  id := 1
  slug := "1-step"
  profitTargetPct := 10
  timeLimitDays := 30
  consistencyMaxDayPct := none
  maxDrawdownPct := 10
  dailyDrawdownPct := none
  minTradingDays := none
  minDailyProfitPct := none

/-- One account a user, and slots without a limit. -/
def oneAccountEach : PurchaseConfig where
  hashtext text := text.length
  userFound _ := true
  maxAccountsPerUser := some 1
  fetchStepModelBySlug slug := if slug = "1-step" then some oneStep else none
  pricing _ _ := some ⟨true, true, none⟩

/-- User 7 has paid for an account of 5000 and one of 10000. -/
def twoOrders : PurchaseWorld where
  orders := ⟨[.prepaid 1 7 5000 "1-step", .prepaid 2 7 10000 "1-step"], by decide⟩
  accounts := .empty
  requests := .empty

theorem twoOrders_quiescent : twoOrders.Quiescent oneAccountEach :=
  ⟨rfl, fun limit hlimit userId => by
      have hpos : 0 < limit := of_decide_eq_true (Option.mem_filter_iff.mp hlimit).2
      exact hpos.le,
    fun _ _ _ _ _ => le_max_left _ _⟩

def buy (claimId orderId accountSize : Nat) : CreateRequest :=
  ⟨claimId, 7, toString claimId, some orderId, accountSize⟩

/-- Both requests count before either inserts. -/
def raceForTwo : List PurchaseAction :=
  [.begin (buy 1 1 5000), .begin (buy 2 2 10000), .proceed 1 0 0, .proceed 2 0 0, .proceed 1 0 0,
    .proceed 2 0 0, .proceed 1 0 0, .proceed 1 0 0, .proceed 1 0 0, .proceed 1 100 0, .proceed 2 0 0,
    .proceed 2 0 0, .proceed 2 0 0, .proceed 2 101 0]

theorem raceForTwo_exceeds_limit :
    ∃ w, twoOrders.Quiescent oneAccountEach ∧ run (step oneAccountEach) twoOrders raceForTwo = some w ∧
      ¬ w.WithinLimits oneAccountEach := by
  obtain ⟨w, hrun, htest⟩ := exists_of_run_any (step oneAccountEach) twoOrders raceForTwo
    (fun w => w.createdActive 7 = 2) (by decide +kernel)
  refine ⟨w, twoOrders_quiescent, hrun, fun hwithin => ?_⟩
  have hle := hwithin.perUser 1 (by decide) 7
  rw [of_decide_eq_true htest] at hle
  exact absurd hle (by decide)

/-- One request after the other. -/
def oneByOne : List PurchaseAction :=
  [.begin (buy 1 1 5000), .proceed 1 0 0, .proceed 1 0 0, .proceed 1 0 0, .proceed 1 0 0, .proceed 1 0 0,
    .proceed 1 100 0, .begin (buy 2 2 10000), .proceed 2 0 0, .proceed 2 0 0]

theorem oneByOne_withinLimits :
    ∃ w, run (step oneAccountEach) twoOrders oneByOne = some w ∧ w.createdActive 7 = 1 ∧
      w.WithinLimits oneAccountEach := by
  obtain ⟨w, hrun, htest⟩ := exists_of_run_any (step oneAccountEach) twoOrders oneByOne
    (fun w => w.createdActive 7 = 1) (by decide +kernel)
  have hok : RunOk (step oneAccountEach) CountsAlone twoOrders oneByOne := by decide +kernel
  exact ⟨w, hrun, of_decide_eq_true htest,
    withinLimits_of_countsAlone (.of_run (.init twoOrders_quiescent) hok hrun)⟩

end PurchaseWorld

end PropFirm
