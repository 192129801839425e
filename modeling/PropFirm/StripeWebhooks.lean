import PropFirm.ChallengeOrders

/-!
# Checkout sessions and Stripe's webhook

`createChallengePaymentSession` opens a checkout session for an order that is not paid, as often as it is
asked to, and writes the session's id into the order. The webhook handles five kinds of events. Those of
a checkout session name their order in the metadata; a refund or a dispute is resolved through the
reference the order holds, which capturing the payment replaces by the payment intent.

A reversal reads its order without a lock and acts on what it has read: `findOrderForChargeEvent` and
`handleChargeReversal` are separate here, and the second one takes the row the first one has found.
-/

namespace PropFirm

inductive EventType
  | checkoutSessionCompleted
  | chargeRefunded
  | chargeDisputeCreated
  | chargeDisputeFundsWithdrawn
  | checkoutSessionExpired
  | checkoutSessionAsyncPaymentFailed
  | unhandled
  deriving DecidableEq, Repr

/-- The status a reversal gives its order. -/
def EventType.reversal : EventType → Option OrderStatus
  | chargeRefunded => some .refunded
  | chargeDisputeCreated | chargeDisputeFundsWithdrawn => some .disputed
  | _ => none

theorem EventType.reversal_reversed {type : EventType} {status : OrderStatus}
    (hreversal : type.reversal = some status) : status.Reversed := by
  cases type <;> cases hreversal
  · exact .inl rfl
  · exact .inr rfl
  · exact .inr rfl

/-- `orderId` is `metadata.order_id`, where the metadata's flow is `challenge_checkout`. -/
structure StripeEvent where
  id : String
  type : EventType
  orderId : Option Nat
  paymentIntent : Option String
  charge : Option String
  objectId : String
  deriving DecidableEq

namespace StripeEvent

/-- `payment_intent || charge || id`, by which a reversal is resolved. -/
def reference (event : StripeEvent) : String := (event.paymentIntent.or event.charge).getD event.objectId

/-- `payment_intent || id`, which a captured payment leaves in its order. -/
def providerPaymentId (event : StripeEvent) : String := event.paymentIntent.getD event.objectId

/-- Every id of Stripe's the event carries. -/
def ids (event : StripeEvent) : List String :=
  event.paymentIntent.toList ++ event.charge.toList ++ [event.objectId]

theorem reference_mem_ids (event : StripeEvent) : event.reference ∈ event.ids := by
  unfold reference ids
  cases event.paymentIntent <;> cases event.charge <;> simp

theorem providerPaymentId_mem_ids (event : StripeEvent) : event.providerPaymentId ∈ event.ids := by
  unfold providerPaymentId ids
  cases event.paymentIntent <;> simp

end StripeEvent

/-! ### Paying -/

/-- A commission rate; the tiers are checked to lie between 0 and 100 when they are written. -/
structure CommissionRate where
  pct : ℚ
  nonneg : 0 ≤ pct

structure Referral where
  referrerUserId : Nat
  emailVerified : Bool

/-- What `markChallengeOrderPaid` reads besides the order: the buyer's referral, whether the programme
runs, the rate of the referrer's tier, and the draw of a gift's voucher. -/
structure PaymentContext where
  referral : Option Referral
  programEnabled : Bool
  rate : CommissionRate
  draw : VoucherDraw

def commissionAmount (amount : Nat) (rate : CommissionRate) : Cents :=
  toCents ((amount : Cents).dollars * (rate.pct / 100))

theorem commissionAmount_nonneg (amount : Nat) (rate : CommissionRate) :
    0 ≤ commissionAmount amount rate := by
  have hamount : 0 ≤ (amount : Cents).dollars := by
    rw [← Cents.dollars_zero, Cents.dollars_le]
    exact Int.natCast_nonneg amount
  have hrate : 0 ≤ rate.pct / 100 := div_nonneg rate.nonneg (by norm_num)
  have hcents := toCents_mono (mul_nonneg hamount hrate)
  rwa [← Cents.dollars_zero, toCents_dollars] at hcents

/-- The commission of a referred buyer, `ON CONFLICT (order_id) DO NOTHING`. -/
def recordCommission (db : OrderDb) (ctx : PaymentContext) (order : ChallengeOrder) : OrderDb :=
  match ctx.referral.filter (·.emailVerified) with
  | none => db
  | some referral =>
    if ctx.programEnabled then
      let commissions := db.commissions.insert?
        ⟨order.id, referral.referrerUserId, commissionAmount order.amount ctx.rate,
          commissionAmount_nonneg order.amount ctx.rate⟩
      { db with commissions := commissions.getD db.commissions }
    else db

theorem recordCommission_eq (db : OrderDb) (ctx : PaymentContext) (order : ChallengeOrder) :
    ∃ commissions, recordCommission db ctx order = { db with commissions := commissions } ∧
      ∀ id, commissions.find? id = db.commissions.find? id ∨ id = order.id := by
  unfold recordCommission
  split
  · exact ⟨db.commissions, rfl, fun _ => .inl rfl⟩
  split
  · refine ⟨_, rfl, fun id => ?_⟩
    cases hinsert : db.commissions.insert? _ with
    | none => exact .inl rfl
    | some commissions =>
      rw [Option.getD_some, Table.find?_of_insert? hinsert]
      split
      · rename_i hid
        exact .inr hid.symm
      · exact .inl rfl
  · exact ⟨db.commissions, rfl, fun _ => .inl rfl⟩

/-- `none` where an insert fails, which rolls the transaction back. -/
def markChallengeOrderPaid (db : OrderDb) (ctx : PaymentContext) (orderId : Nat)
    (providerPaymentId : String) : Option OrderDb :=
  match db.order? orderId with
  | none => some db
  | some order =>
    if order.status.Reversed ∨ order.status = .cancelled then some db
    else do
      let f := ChallengeOrder.paidWith providerPaymentId
      let order := f.apply order
      let db ← issueGiftVoucherForOrder { db with orders := db.orders.updateAt orderId f } order ctx.draw
      some (recordCommission db ctx order)

/-- A completed session finds an order it may not pay, or pays it and adds to that order alone. -/
theorem markChallengeOrderPaid_eq_some {db db' : OrderDb} {ctx : PaymentContext} {orderId : Nat}
    {providerPaymentId : String} (hmark : markChallengeOrderPaid db ctx orderId providerPaymentId = some db') :
    (db' = db ∧ ∀ order ∈ db.order? orderId, order.status.Reversed ∨ order.status = .cancelled) ∨
    ∃ order vouchers commissions, db.order? orderId = some order ∧
      ¬ (order.status.Reversed ∨ order.status = .cancelled) ∧
      db' = { db with
        orders := db.orders.updateAt orderId (ChallengeOrder.paidWith providerPaymentId)
        vouchers := vouchers
        commissions := commissions } ∧
      (∀ v ∈ vouchers.rows, v ∈ db.vouchers.rows ∨ v.orderId = orderId) ∧
      ∀ id, commissions.find? id = db.commissions.find? id ∨ id = orderId := by
  unfold markChallengeOrderPaid at hmark
  split at hmark
  · rename_i hnone
    refine .inl ⟨(Option.some.inj hmark).symm, fun order horder => ?_⟩
    cases hnone.symm.trans horder
  rename_i order horder
  obtain rfl : order.id = orderId := (Table.find?_eq_some.mp horder).2
  split at hmark
  · rename_i hunpayable
    refine .inl ⟨(Option.some.inj hmark).symm, fun found hfound => ?_⟩
    cases horder.symm.trans hfound
    exact hunpayable
  rename_i hpayable
  obtain ⟨issued, hissue, hdb⟩ := Option.bind_eq_some_iff.mp hmark
  obtain ⟨vouchers, rfl, hvouchers⟩ := issueGiftVoucherForOrder_eq_some hissue
  obtain ⟨commissions, hrecord, hcommissions⟩ := recordCommission_eq _ ctx _
  exact .inr ⟨order, vouchers, commissions, horder, hpayable,
    (Option.some.inj hdb).symm.trans hrecord, hvouchers, hcommissions⟩

/-! ### Abandoning -/

def handleSessionAbandoned (db : OrderDb) (orderId : Nat) : OrderDb :=
  match db.order? orderId with
  | none => db
  | some order =>
    if order.status = .pending ∨ order.status = .processing then
      { db with orders := db.orders.updateAt orderId (ChallengeOrder.movedTo .cancelled) }
    else db

theorem handleSessionAbandoned_cases (db : OrderDb) (orderId : Nat) :
    handleSessionAbandoned db orderId = db ∨
    ∃ order, db.order? orderId = some order ∧ (order.status = .pending ∨ order.status = .processing) ∧
      handleSessionAbandoned db orderId =
        { db with orders := db.orders.updateAt orderId (ChallengeOrder.movedTo .cancelled) } := by
  unfold handleSessionAbandoned
  split
  · exact .inl rfl
  rename_i order horder
  split
  · rename_i hunpaid
    exact .inr ⟨order, horder, hunpaid, rfl⟩
  · exact .inl rfl

/-! ### Reversing -/

def findOrderForChargeEvent (db : OrderDb) (event : StripeEvent) : Option ChallengeOrder :=
  (event.orderId.bind db.order?).or
    ((db.orders.rows.filter fun o => o.providerReference = some event.reference).maxOn? ChallengeOrder.id)

/-- Locks the account the order names in its metadata, if it is active. -/
def freezeAccountsForOrder (db : OrderDb) (order : ChallengeOrder) : OrderDb :=
  match order.accountId with
  | none => db
  | some accountId =>
    { db with
      accounts := db.accounts.update (fun a => a.row.id = accountId ∧ a.row.status = .active)
        (IssuedAccount.movedTo .locked) }

def clawbackCommissionForOrder (db : OrderDb) (orderId : Nat) : OrderDb :=
  match (db.commissions.find? orderId).filter (0 < ·.amount) with
  | none => db
  | some earned =>
    if db.clawbacks.any (·.orderId = orderId) then db
    else { db with clawbacks := ⟨orderId, earned.referrerUserId, -earned.amount⟩ :: db.clawbacks }

/-- A clawback takes back what the commission has earned, and only once. -/
theorem clawbackCommissionForOrder_cases (db : OrderDb) (orderId : Nat) :
    (clawbackCommissionForOrder db orderId = db ∧ ∀ earned ∈ db.commissions.find? orderId,
      0 < earned.amount → ∃ taken ∈ db.clawbacks, taken.orderId = orderId) ∨
    ∃ earned, db.commissions.find? orderId = some earned ∧ 0 < earned.amount ∧
      (∀ taken ∈ db.clawbacks, taken.orderId ≠ orderId) ∧
      clawbackCommissionForOrder db orderId =
        { db with clawbacks := ⟨orderId, earned.referrerUserId, -earned.amount⟩ :: db.clawbacks } := by
  unfold clawbackCommissionForOrder
  split
  · rename_i hnone
    refine .inl ⟨rfl, fun earned hfind hpos => ?_⟩
    exact absurd (decide_eq_true hpos) (Option.filter_eq_none_iff.mp hnone earned hfind)
  rename_i earned hearned
  obtain ⟨hfind, hpos⟩ := Option.filter_eq_some_iff.mp hearned
  split
  · rename_i htaken
    obtain ⟨taken, hmem, hof⟩ := List.any_eq_true.mp htaken
    exact .inl ⟨rfl, fun _ _ _ => ⟨taken, hmem, of_decide_eq_true hof⟩⟩
  · rename_i hfirst
    refine .inr ⟨earned, hfind, of_decide_eq_true hpos, fun taken hmem hof => hfirst ?_, rfl⟩
    exact List.any_eq_true.mpr ⟨taken, hmem, decide_eq_true hof⟩

/-- What a reversal does with the order it has found. Only the status is read again. -/
def handleChargeReversal (db : OrderDb) (found : Option ChallengeOrder) (status : OrderStatus) : OrderDb :=
  match found with
  | none => db
  | some order =>
    match db.order? order.id with
    | none => db
    | some current =>
      if current.status.Reversed then db
      else
        let db := { db with orders := db.orders.updateAt order.id (ChallengeOrder.movedTo status) }
        clawbackCommissionForOrder (freezeAccountsForOrder db order) order.id

/-- What the webhook does for an event that is not a reversal. -/
def processSessionEvent (db : OrderDb) (event : StripeEvent) (payment : PaymentContext) : Option OrderDb :=
  match event.orderId with
  | none => some db
  | some orderId =>
    match event.type with
    | .checkoutSessionCompleted => markChallengeOrderPaid db payment orderId event.providerPaymentId
    | .checkoutSessionExpired | .checkoutSessionAsyncPaymentFailed => some (handleSessionAbandoned db orderId)
    | _ => some db

theorem processSessionEvent_eq_some {db db' : OrderDb} {event : StripeEvent} {payment : PaymentContext}
    (hprocess : processSessionEvent db event payment = some db') :
    db' = db ∨ ∃ orderId, event.orderId = some orderId ∧
      (markChallengeOrderPaid db payment orderId event.providerPaymentId = some db' ∨
        db' = handleSessionAbandoned db orderId) := by
  unfold processSessionEvent at hprocess
  split at hprocess
  · exact .inl (Option.some.inj hprocess).symm
  rename_i orderId horderId
  split at hprocess
  · exact .inr ⟨orderId, horderId, .inl hprocess⟩
  · exact .inr ⟨orderId, horderId, .inr (Option.some.inj hprocess).symm⟩
  · exact .inr ⟨orderId, horderId, .inr (Option.some.inj hprocess).symm⟩
  · exact .inl (Option.some.inj hprocess).symm

/-! ### Checkout sessions -/

inductive SessionError
  | orderNotFound
  | alreadyPaid
  deriving DecidableEq

/-- What has to hold before a session is opened at Stripe. -/
def checkoutGates (db : OrderDb) (orderId : Nat) (userId : Option Nat) : Except SessionError ChallengeOrder :=
  match (db.order? orderId).filter fun order => ∀ user ∈ userId, order.userId = user with
  | none => throw .orderNotFound
  | some order => if order.status = .paid then throw .alreadyPaid else pure order

/-- The update after the session is there. It looks at nothing but the order's id. -/
def recordSession (db : OrderDb) (orderId : Nat) (sessionId : String) : OrderDb :=
  { db with orders := db.orders.updateAt orderId (ChallengeOrder.referencing sessionId) }

end PropFirm
