import PropFirm.Lib.Guards
import PropFirm.Schema
import PropFirm.TradingDays

/-!
# Challenge orders, gift vouchers and the accounts they fund

`POST /accounts/orders` records what a trader buys, for himself or as a gift; a gift's value travels in a
voucher that its recipient redeems into an order of his own. `POST /accounts/create` turns a paid order
into an account: it takes a claim on the request's idempotency key, checks its gates in one transaction
and inserts the account. It writes the account into the order's metadata only after the commit, in an
update that may fail.

Emails are lower case, amounts of an order are whole cents, and the sequences' new ids are arguments.
-/

namespace PropFirm

/-- The statuses the program writes to `challenge_orders`, or reads from it. -/
inductive OrderStatus
  | pending | processing | paid | refunded | disputed | cancelled
  deriving DecidableEq, Repr

namespace OrderStatus

/-- The money has gone back. -/
def Reversed (status : OrderStatus) : Prop := status = .refunded ∨ status = .disputed

instance : DecidablePred Reversed := fun _ => inferInstanceAs (Decidable (_ ∨ _))

end OrderStatus

/-- `accountId` is the entry `POST /accounts/create` stamps into `metadata_json`. -/
structure ChallengeOrder where
  id : Nat
  userId : Nat
  accountSize : Nat
  amount : Nat
  status : OrderStatus
  challengeModelSlug : Option String
  providerReference : Option String
  isGift : Bool
  giftRecipientEmail : Option String
  accountId : Option Nat
  deriving DecidableEq

instance : Keyed ChallengeOrder Nat := ⟨ChallengeOrder.id⟩

inductive VoucherStatus
  | issued | claimed | expired | revoked
  deriving DecidableEq, Repr

structure GiftVoucher where
  code : String
  purchaserUserId : Nat
  orderId : Nat
  recipientEmail : String
  accountSize : Nat
  challengeModelSlug : String
  amountPaid : Nat
  status : VoucherStatus
  expiresAt : Option Nat
  claimedOrderId : Option Nat
  deriving DecidableEq

instance : Keyed GiftVoucher String := ⟨GiftVoucher.code⟩

/-- A row of `accounts` with its owner and, which no column keeps, the order and the idempotency claim
it was created under. -/
structure IssuedAccount where
  row : Account
  userId : Nat
  orderId : Nat
  claimId : Nat
  deriving DecidableEq

instance : Keyed IssuedAccount Nat := ⟨fun a => a.row.id⟩

/-- The commission row of an order; `order_id` is unique where it is set. -/
structure Commission where
  orderId : Nat
  referrerUserId : Nat
  amount : Cents
  nonneg : 0 ≤ amount
  deriving DecidableEq

instance : Keyed Commission Nat := ⟨Commission.orderId⟩

/-- An `adjusted` commission row carrying an order's marker. -/
structure Clawback where
  orderId : Nat
  referrerUserId : Nat
  amount : Cents
  deriving DecidableEq

/-- A row of `idempotency_requests` in the scope of account creation. -/
structure IdempotencyClaim where
  id : Nat
  userId : Nat
  key : String
  deriving DecidableEq

instance : Keyed IdempotencyClaim (Nat × String) := ⟨fun claim => (claim.userId, claim.key)⟩

structure OrderDb where
  orders : Table ChallengeOrder
  accounts : Table IssuedAccount
  vouchers : Table GiftVoucher
  commissions : Table Commission
  clawbacks : List Clawback
  claims : Table IdempotencyClaim

namespace OrderDb

def empty : OrderDb := ⟨.empty, .empty, .empty, .empty, [], .empty⟩

def order? (db : OrderDb) (id : Nat) : Option ChallengeOrder := db.orders.find? id

/-- The accounts created from an order. -/
def accountsOf (db : OrderDb) (orderId : Nat) : List IssuedAccount :=
  db.accounts.rows.filter fun a => a.orderId = orderId

/-- The vouchers issued for an order. -/
def vouchersOf (db : OrderDb) (orderId : Nat) : List GiftVoucher :=
  db.vouchers.rows.filter fun v => v.orderId = orderId

/-- What the affiliate keeps of an order: its commission and what has been clawed back of it. -/
def netCommission (db : OrderDb) (orderId : Nat) : Cents :=
  ((db.commissions.find? orderId).map Commission.amount).getD 0 +
    ((db.clawbacks.filter fun c => c.orderId = orderId).map Clawback.amount).sum

end OrderDb

/-! ### Row updates -/

namespace ChallengeOrder

/-- `provider_reference = COALESCE($2, provider_reference)`, where `$2` is always there. -/
def paidWith (reference : String) : Table.Rewrite ChallengeOrder where
  apply o := { o with status := .paid, providerReference := some reference }
  key_apply _ := rfl

def movedTo (status : OrderStatus) : Table.Rewrite ChallengeOrder where
  apply o := { o with status := status }
  key_apply _ := rfl

def referencing (reference : String) : Table.Rewrite ChallengeOrder where
  apply o := { o with providerReference := some reference }
  key_apply _ := rfl

def stampedWith (accountId : Nat) : Table.Rewrite ChallengeOrder where
  apply o := { o with accountId := some accountId }
  key_apply _ := rfl

/-- An order that a voucher has paid for. -/
def prepaid (id userId accountSize : Nat) (slug : String) : ChallengeOrder where
  id := id
  userId := userId
  accountSize := accountSize
  amount := 0
  status := .paid
  challengeModelSlug := some slug
  providerReference := none
  isGift := false
  giftRecipientEmail := none
  accountId := none

end ChallengeOrder

namespace GiftVoucher

def movedTo (status : VoucherStatus) : Table.Rewrite GiftVoucher where
  apply v := { v with status := status }
  key_apply _ := rfl

def claimedBy (orderId : Nat) : Table.Rewrite GiftVoucher where
  apply v := { v with status := .claimed, claimedOrderId := some orderId }
  key_apply _ := rfl

end GiftVoucher

def IssuedAccount.movedTo (status : AccountStatus) : Table.Rewrite IssuedAccount where
  apply a := { a with row := { a.row with status := status } }
  key_apply _ := rfl

/-! ### Gift vouchers -/

/-- What `issueGiftVoucherForOrder` draws and reads: a random code, the clock in seconds and the
`gift_voucher_expiry_days` setting. -/
structure VoucherDraw where
  code : String
  now : Nat
  expiryDays : Option Int

/-- `NOW() + expiryDays`, thirty days where the setting is missing or zero. -/
def voucherExpiry (now : Nat) (setting : Option Int) : Nat :=
  let days := setting.getD 0
  now + (max 1 (if days = 0 then 30 else days)).toNat * secondsPerDay

def issueGiftVoucherForOrder (db : OrderDb) (order : ChallengeOrder) (draw : VoucherDraw) :
    Option OrderDb :=
  if ¬ order.isGift then some db
  else match order.giftRecipientEmail.filter (· ≠ "") with
  | none => some db
  | some recipientEmail =>
    if db.vouchersOf order.id ≠ [] then some db
    else do
      let slug ← order.challengeModelSlug
      -- a code that is taken aborts the transaction, in which no retry can insert anything either
      let vouchers ← db.vouchers.insert?
        { code := draw.code
          purchaserUserId := order.userId
          orderId := order.id
          recipientEmail := recipientEmail
          accountSize := order.accountSize
          challengeModelSlug := slug
          amountPaid := order.amount
          status := .issued
          expiresAt := some (voucherExpiry draw.now draw.expiryDays)
          claimedOrderId := none }
      some { db with vouchers := vouchers }

/-- At most one voucher comes, and it is the order's. -/
theorem issueGiftVoucherForOrder_eq_some {db db' : OrderDb} {order : ChallengeOrder} {draw : VoucherDraw}
    (hissue : issueGiftVoucherForOrder db order draw = some db') :
    ∃ vouchers, db' = { db with vouchers := vouchers } ∧
      ∀ v ∈ vouchers.rows, v ∈ db.vouchers.rows ∨ v.orderId = order.id := by
  have hnothing : ∃ vouchers, db = { db with vouchers := vouchers } ∧
      ∀ v ∈ vouchers.rows, v ∈ db.vouchers.rows ∨ v.orderId = order.id :=
    ⟨db.vouchers, rfl, fun _ => .inl⟩
  unfold issueGiftVoucherForOrder at hissue
  split at hissue
  · exact Option.some.inj hissue ▸ hnothing
  split at hissue
  · exact Option.some.inj hissue ▸ hnothing
  split at hissue
  · exact Option.some.inj hissue ▸ hnothing
  simp only [Option.bind_eq_bind, Option.bind_eq_some_iff] at hissue
  obtain ⟨slug, _, vouchers, hinsert, hdb⟩ := hissue
  refine ⟨vouchers, (Option.some.inj hdb).symm, fun v hmem => ?_⟩
  rcases List.mem_cons.mp ((Table.insert?_eq_some hinsert).2 ▸ hmem) with rfl | hold
  · exact .inr rfl
  · exact .inl hold

structure VoucherRequest where
  code : String
  userEmail : String
  userId : Nat
  orderId : Nat
  now : Nat

inductive RedeemError
  | notFound
  | expired
  | notIssued
  | otherRecipient
  | modelUnavailable
  | orderKeyTaken
  deriving DecidableEq

/-- The new state beside the answer, because an expiry is committed. -/
def redeemGiftVoucher (db : OrderDb) (models : List String) (request : VoucherRequest) :
    OrderDb × Except RedeemError ChallengeOrder :=
  match db.vouchers.find? request.code with
  | none => (db, .error .notFound)
  | some voucher =>
    if voucher.status = .issued ∧ ∃ expiresAt ∈ voucher.expiresAt, expiresAt < request.now then
      ({ db with vouchers := db.vouchers.updateAt request.code (GiftVoucher.movedTo .expired) }, .error .expired)
    else if voucher.status ≠ .issued then (db, .error .notIssued)
    else if voucher.recipientEmail ≠ request.userEmail then (db, .error .otherRecipient)
    else if voucher.challengeModelSlug ∉ models then (db, .error .modelUnavailable)
    else
      let order := ChallengeOrder.prepaid request.orderId request.userId voucher.accountSize
        voucher.challengeModelSlug
      match db.orders.insert? order with
      | none => (db, .error .orderKeyTaken)
      | some orders =>
        let vouchers := db.vouchers.updateAt request.code (GiftVoucher.claimedBy order.id)
        ({ db with orders := orders, vouchers := vouchers }, .ok order)

/-- A redemption leaves everything, expires the voucher, or claims an issued one for a prepaid order. -/
theorem redeemGiftVoucher_cases (db : OrderDb) (models : List String) (request : VoucherRequest) :
    (redeemGiftVoucher db models request).1 = db ∨
    (redeemGiftVoucher db models request).1 =
      { db with vouchers := db.vouchers.updateAt request.code (GiftVoucher.movedTo .expired) } ∨
    ∃ voucher orders, db.vouchers.find? request.code = some voucher ∧ voucher.status = .issued ∧
      db.orders.insert? (.prepaid request.orderId request.userId voucher.accountSize
        voucher.challengeModelSlug) = some orders ∧
      (redeemGiftVoucher db models request).1 =
        { db with
          orders := orders
          vouchers := db.vouchers.updateAt request.code (GiftVoucher.claimedBy request.orderId) } := by
  unfold redeemGiftVoucher
  split
  · exact .inl rfl
  rename_i voucher hvoucher
  split
  · exact .inr (.inl rfl)
  split
  · exact .inl rfl
  rename_i hissued
  split
  · exact .inl rfl
  split
  · exact .inl rfl
  dsimp only
  split
  · exact .inl rfl
  · rename_i orders hinsert
    exact .inr (.inr ⟨voucher, orders, hvoucher, not_not.mp hissued, hinsert, rfl⟩)

/-- An administrator's `UPDATE … WHERE status = 'issued'`. -/
def revokeGiftVoucher (db : OrderDb) (code : String) : OrderDb :=
  { db with
    vouchers := db.vouchers.update (fun v => v.code = code ∧ v.status = .issued)
      (GiftVoucher.movedTo .revoked) }

/-! ### Placing an order -/

def stepModelAccountSizes : List Nat := [5000, 10000, 25000, 50000, 100000, 200000, 400000]

/-- An order as `POST /accounts/orders` prices it; a gift names its recipient. -/
structure ChallengeOrderRequest where
  id : Nat
  userId : Nat
  userEmail : String
  accountSize : Nat
  stepModel : String
  amount : Nat
  recipientEmail : Option String

def ChallengeOrderRequest.row (request : ChallengeOrderRequest) : ChallengeOrder where
  id := request.id
  userId := request.userId
  accountSize := request.accountSize
  amount := request.amount
  status := if request.amount = 0 then .paid else .pending
  challengeModelSlug := some request.stepModel
  providerReference := none
  isGift := request.recipientEmail.isSome
  giftRecipientEmail := request.recipientEmail
  accountId := none

/-- The insert of `POST /accounts/orders`; a free gift's voucher is issued in the same transaction. -/
def placeOrder (db : OrderDb) (request : ChallengeOrderRequest) (draw : VoucherDraw) : Option OrderDb :=
  if request.accountSize ∉ stepModelAccountSizes ∨ request.recipientEmail = some request.userEmail then
    none
  else do
    let orders ← db.orders.insert? request.row
    let db := { db with orders := orders }
    if request.amount = 0 then issueGiftVoucherForOrder db request.row draw else some db

/-- A placed order is a new row, and a voucher beside it is that of a paid order. -/
theorem placeOrder_eq_some {db db' : OrderDb} {request : ChallengeOrderRequest} {draw : VoucherDraw}
    (hplace : placeOrder db request draw = some db') :
    ∃ orders vouchers, db.orders.insert? request.row = some orders ∧
      db' = { db with orders := orders, vouchers := vouchers } ∧
      ∀ v ∈ vouchers.rows, v ∈ db.vouchers.rows ∨ request.row.status = .paid ∧ v.orderId = request.id := by
  unfold placeOrder at hplace
  split at hplace
  · cases hplace
  obtain ⟨orders, hinsert, hrest⟩ := Option.bind_eq_some_iff.mp hplace
  dsimp only at hrest
  split at hrest
  · rename_i hfree
    obtain ⟨vouchers, rfl, hvouchers⟩ := issueGiftVoucherForOrder_eq_some hrest
    exact ⟨orders, vouchers, hinsert, rfl, fun v hmem => (hvouchers v hmem).imp_right (⟨if_pos hfree, ·⟩)⟩
  · cases hrest
    exact ⟨orders, db.vouchers, hinsert, rfl, fun _ => .inl⟩

/-- `redeemUserScopedVoucherRow`: a competition or a season prize pays for the order. -/
def redeemPrize (db : OrderDb) (id userId accountSize : Nat) (slug : String) : Option OrderDb :=
  (db.orders.insert? (.prepaid id userId accountSize slug)).map fun orders => { db with orders := orders }

/-! ### Creating the account -/

/-- The columns of `challenge_models` an account is created with, those of its first phase. -/
structure EntryModel where
  id : Nat
  slug : String
  profitTargetPct : ℚ
  timeLimitDays : Nat
  consistencyMaxDayPct : Option ℚ
  maxDrawdownPct : ℚ
  dailyDrawdownPct : Option ℚ
  minTradingDays : Option Int
  minDailyProfitPct : Option ℚ

/-- The row `POST /accounts/create` inserts. -/
def EntryModel.account (model : EntryModel) (id accountSize now : Nat) : Account :=
  let size : Cents := accountSize * 100
  { AccountTerms.provision
      { accountType := .phase1
        challengeModelSlug := some model.slug
        startingBalance := size
        profitTarget := toCents (accountSize * (model.profitTargetPct / 100))
        maxDrawdownPct := model.maxDrawdownPct
        dailyDrawdownPct := model.dailyDrawdownPct
        minTradingDays := model.minTradingDays
        minDailyProfitPct := model.minDailyProfitPct
        consistencyMaxDayPct := model.consistencyMaxDayPct
        phaseEndDate :=
          some ((now / secondsPerDay + model.timeLimitDays) * secondsPerDay + (secondsPerDay - 1)) }
      id with
    eodPeakEquity := some size }

/-- A row of `challenge_model_pricing`. -/
structure SlotRow where
  isActive : Bool
  isUnlimited : Bool
  slotLimit : Option Int

inductive CreateError
  | invalidSize
  | userNotFound
  | accountLimit
  | orderRequired
  | orderNotFound
  | sizeMismatch
  | paymentNotCompleted (status : OrderStatus)
  | modelMissing
  | modelUnavailable
  | sizeLocked
  | slotsFull (limit : Int)
  | accountKeyTaken
  deriving DecidableEq

/-- A request that has won the claim `claimId` on its key. -/
structure CreateRequest where
  claimId : Nat
  userId : Nat
  key : String
  challengeOrderId : Option Nat
  accountSize : Nat

instance : Keyed CreateRequest Nat := ⟨CreateRequest.claimId⟩

/-- What the transaction reads besides the order: the user, his active evaluation and funded accounts,
the limit on them, the models, the pricing rows and the slots used. -/
structure CreateContext where
  accountId : Nat
  now : Nat
  userFound : Bool
  activeAccounts : Nat
  maxAccountsPerUser : Option Int
  fetchStepModelBySlug : String → Option EntryModel
  pricing : EntryModel → Nat → Option SlotRow
  usedSlots : EntryModel → Nat → Nat

/-- Zero, or nothing, is no limit. -/
def CreateContext.maxPerUser (ctx : CreateContext) : Option Int := ctx.maxAccountsPerUser.filter (0 < ·)

def assertSlotAvailable (row : Option SlotRow) (used : Nat) : Except CreateError Unit :=
  match row with
  | none => throw .sizeLocked
  | some row =>
    if ¬ row.isActive then throw .sizeLocked
    else if row.isUnlimited then pure ()
    else if row.slotLimit.getD 0 ≤ used then throw (.slotsFull (row.slotLimit.getD 0))
    else pure ()

/-- The order's own gates: it is the user's, of the size asked for, and paid. -/
def orderGates (db : OrderDb) (request : CreateRequest) : Except CreateError ChallengeOrder := do
  match request.challengeOrderId with
  | none => throw .orderRequired
  | some orderId =>
    match (db.order? orderId).filter (·.userId = request.userId) with
    | none => throw .orderNotFound
    | some order =>
      if order.accountSize ≠ request.accountSize then throw .sizeMismatch
      if order.status ≠ .paid then throw (.paymentNotCompleted order.status)
      pure order

/-- Every gate of `POST /accounts/create`, in its order. -/
def createGates (db : OrderDb) (ctx : CreateContext) (request : CreateRequest) :
    Except CreateError (ChallengeOrder × EntryModel) := do
  if request.accountSize ∉ stepModelAccountSizes then throw .invalidSize
  if ¬ ctx.userFound then throw .userNotFound
  if ∃ limit ∈ ctx.maxPerUser, limit ≤ ctx.activeAccounts then throw .accountLimit
  let order ← orderGates db request
  match order.challengeModelSlug.filter (· ≠ "") with
  | none => throw .modelMissing
  | some slug =>
    match ctx.fetchStepModelBySlug slug with
    | none => throw .modelUnavailable
    | some model =>
      assertSlotAvailable (ctx.pricing model request.accountSize) (ctx.usedSlots model request.accountSize)
      pure (order, model)

/-- The transaction of `POST /accounts/create`: what it commits, and the order and account of the
response. The order's row is left as it is. -/
def createAccount (db : OrderDb) (ctx : CreateContext) (request : CreateRequest) :
    Except CreateError (OrderDb × ChallengeOrder × IssuedAccount) := do
  let (order, model) ← createGates db ctx request
  let account : IssuedAccount :=
    { row := model.account ctx.accountId request.accountSize ctx.now
      userId := request.userId
      orderId := order.id
      claimId := request.claimId }
  match db.accounts.insert? account with
  | none => throw .accountKeyTaken
  | some accounts => pure ({ db with accounts := accounts }, order, account)

/-- The update after the commit. -/
def stampOrder (db : OrderDb) (orderId accountId : Nat) : OrderDb :=
  { db with orders := db.orders.updateAt orderId (ChallengeOrder.stampedWith accountId) }

/-- Winning a claim; without one the request is answered from the claim that is there, or refused. -/
def beginIdempotentRequest (db : OrderDb) (claimId userId : Nat) (key : String) : Option OrderDb :=
  if key = "" then none
  else (db.claims.insert? ⟨claimId, userId, key⟩).map fun claims => { db with claims := claims }

/-- `abandonIdempotentRequest`, and what the reaper does to a row that is old enough. -/
def abandonIdempotentRequest (db : OrderDb) (claimId : Nat) : OrderDb :=
  { db with claims := db.claims.delete fun claim => claim.id = claimId }

end PropFirm
