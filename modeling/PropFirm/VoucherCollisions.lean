import PropFirm.Lib.AbortingTransaction
import PropFirm.StripeWebhooks

/-!
# A voucher code that is taken

`issueGiftVoucherForOrder` draws up to five codes, going on to the next one when the database reports that
a code is taken. It runs inside the transaction of its caller, the webhook that marks an order paid or the
request that places a free one, and sets no savepoint. Here these transactions are played statement by
statement.
-/

namespace PropFirm

open Aborting

/-- What `issueGiftVoucherForOrder` draws and reads: the codes one attempt after the other, the clock and
the `gift_voucher_expiry_days` setting. -/
structure GiftDraw where
  codes : ℕ → String
  now : ℕ
  expiryDays : Option ℤ

def GiftDraw.attempt (draw : GiftDraw) (n : ℕ) : VoucherDraw := ⟨draw.codes n, draw.now, draw.expiryDays⟩

/-- A row of `stripe_events`. -/
structure StripeEventRow where
  eventId : String
  processed : Bool
  deriving DecidableEq

instance : Keyed StripeEventRow String := ⟨StripeEventRow.eventId⟩

def StripeEventRow.stamped : Table.Rewrite StripeEventRow where
  apply row := { row with processed := true }
  key_apply _ := rfl

structure BillingStore where
  db : OrderDb
  events : Table StripeEventRow

namespace BillingStore

/-! ### The statements -/

def withDb (s : BillingStore) (db : OrderDb) : BillingStore := { s with db := db }

def insertVoucher (order : ChallengeOrder) (recipientEmail : String) (draw : VoucherDraw) (s : BillingStore) :
    Except SqlError (BillingStore × GiftVoucher) :=
  match order.challengeModelSlug with
  | none => .error .notNullViolation
  | some slug =>
    let voucher : GiftVoucher :=
      { code := draw.code
        purchaserUserId := order.userId
        orderId := order.id
        recipientEmail := recipientEmail
        accountSize := order.accountSize
        challengeModelSlug := slug
        amountPaid := order.amount
        status := .issued
        expiresAt := some (voucherExpiry draw.now draw.expiryDays)
        claimedOrderId := none }
    match s.db.vouchers.insert? voucher with
    | none => .error .uniqueViolation
    | some vouchers => .ok ({ s with db := { s.db with vouchers := vouchers } }, voucher)

/-- `UPDATE challenge_orders SET status = 'paid' … RETURNING *`. -/
def markPaid (orderId : ℕ) (providerPaymentId : String) (s : BillingStore) :
    BillingStore × Option ChallengeOrder :=
  match s.db.order? orderId with
  | none => (s, none)
  | some order =>
    if order.status.Reversed ∨ order.status = .cancelled then (s, none)
    else
      let f := ChallengeOrder.paidWith providerPaymentId
      ({ s with db := { s.db with orders := s.db.orders.updateAt orderId f } }, some (f.apply order))

/-- `INSERT INTO stripe_events … ON CONFLICT DO NOTHING RETURNING event_id`. -/
def claimEvent (eventId : String) (s : BillingStore) : BillingStore × Bool :=
  match s.events.insert? ⟨eventId, false⟩ with
  | none => (s, false)
  | some events => ({ s with events := events }, true)

def stampEvent (eventId : String) (s : BillingStore) : BillingStore :=
  { s with events := s.events.updateAt eventId StripeEventRow.stamped }

def insertOrder (order : ChallengeOrder) (s : BillingStore) : Except SqlError (BillingStore × Unit) :=
  match s.db.orders.insert? order with
  | none => .error .uniqueViolation
  | some orders => .ok ({ s with db := { s.db with orders := orders } }, ())

end BillingStore

open BillingStore

abbrev BillingClient := Client BillingStore

/-! ### The clients -/

/-- Five attempts; the answers of the two lookups go into the mail. -/
def issueGiftVoucherForOrderSql (order : ChallengeOrder) (draw : GiftDraw) : BillingClient (Option GiftVoucher) :=
  if ¬ order.isGift then pure none
  else match order.giftRecipientEmail.filter (· ≠ "") with
  | none => pure none
  | some recipientEmail => do
    let existing ← query fun s => (s, s.db.vouchersOf order.id)
    match existing with
    | voucher :: _ => pure (some voucher)
    | [] => do
      execute id
      execute id
      firstSuccess .uniqueViolation
        ((List.range 5).map fun n => statement (insertVoucher order recipientEmail (draw.attempt n)))

/-- Nothing is made of the answer about the voucher. -/
def markChallengeOrderPaidSql (ctx : PaymentContext) (draw : GiftDraw) (orderId : ℕ)
    (providerPaymentId : String) : BillingClient (Option ChallengeOrder) := do
  let paid ← query (markPaid orderId providerPaymentId)
  match paid with
  | none => pure none
  | some order => do
    -- the payment's row and the checkout session's
    execute id
    execute id
    if order.isGift then
      let _ ← issueGiftVoucherForOrderSql order draw
    execute fun s => s.withDb (recordCommission s.db ctx order)
    pure (some order)

def handleStripeEvent (event : StripeEvent) (ctx : PaymentContext) (draw : GiftDraw) : BillingClient Unit :=
  match event.type.reversal with
  | some status => do
    let found ← query fun s => (s, findOrderForChargeEvent s.db event)
    execute fun s => s.withDb (handleChargeReversal s.db found status)
  | none =>
    match event.orderId with
    | none => pure ()
    | some orderId =>
      match event.type with
      | .checkoutSessionCompleted => do
        let _ ← markChallengeOrderPaidSql ctx draw orderId event.providerPaymentId
      | .checkoutSessionExpired | .checkoutSessionAsyncPaymentFailed =>
        execute fun s => s.withDb (handleSessionAbandoned s.db orderId)
      | _ => pure ()

def processStripeWebhookEventSql (event : StripeEvent) (ctx : PaymentContext) (draw : GiftDraw) :
    BillingClient Unit :=
  if event.id = "" then handleStripeEvent event ctx draw
  else do
    let claimed ← query (claimEvent event.id)
    if claimed then
      handleStripeEvent event ctx draw
      execute (stampEvent event.id)

/-- `POST /accounts/orders` from its insert on; an order that costs nothing is paid when it is placed. -/
def placeOrderSql (request : ChallengeOrderRequest) (draw : GiftDraw) : BillingClient ChallengeOrder := do
  statement (insertOrder request.row)
  if request.amount = 0 ∧ request.row.isGift then
    let _ ← issueGiftVoucherForOrderSql request.row draw
  pure request.row

/-! ### A gift that is paid for -/

inductive GiftCheckout
  | webhook (event : StripeEvent) (ctx : PaymentContext)
  | freeOrder (request : ChallengeOrderRequest)

namespace GiftCheckout

def client (draw : GiftDraw) : GiftCheckout → BillingClient Unit
  | webhook event ctx => processStripeWebhookEventSql event ctx draw
  | freeOrder request => do
    let _ ← placeOrderSql request draw

/-- The payment is of this order, which is payable or not yet placed, by an event that is not on record. -/
def Of (s : BillingStore) (order : ChallengeOrder) : GiftCheckout → Prop
  | webhook event _ => event.type = .checkoutSessionCompleted ∧ s.events.find? event.id = none ∧
      event.orderId = some order.id ∧ ∃ unpaid, s.db.order? order.id = some unpaid ∧
        ¬ (unpaid.status.Reversed ∨ unpaid.status = .cancelled) ∧
        order = (ChallengeOrder.paidWith event.providerPaymentId).apply unpaid
  | freeOrder request => request.amount = 0 ∧ s.db.order? order.id = none ∧ order = request.row

/-- A gift as `POST /accounts/orders` writes one, without a voucher so far. -/
structure Due (p : GiftCheckout) (s : BillingStore) (order : ChallengeOrder) : Prop where
  of : p.Of s order
  gift : order.isGift = true
  recipient : ∃ email ∈ order.giftRecipientEmail, email ≠ ""
  model : order.challengeModelSlug.isSome
  unissued : s.db.vouchersOf order.id = []

/-- The payment's event is on record. -/
def Consumed (s : BillingStore) : GiftCheckout → Prop
  | webhook event _ => (s.events.find? event.id).isSome
  | freeOrder _ => False

/-- What the payment commits has the order paid and exactly one voucher for it, and an event that has
brought no voucher is not on record. -/
structure Survives (p : GiftCheckout) (draw : GiftDraw) (s : BillingStore) (order : ChallengeOrder) : Prop where
  paid : ∃ o, (transact (p.client draw) s).2.db.order? order.id = some o ∧ o.status = .paid
  issued : ((transact (p.client draw) s).2.db.vouchersOf order.id).length = 1
  unconsumed : (transact (p.client draw) s).2.db.vouchersOf order.id = [] →
    ¬ p.Consumed (transact (p.client draw) s).2

end GiftCheckout

/-! ### The voucher -/

section Voucher

variable {s : BillingStore} {order : ChallengeOrder} {draw : GiftDraw}

theorem insertVoucher_ok {email : String} (hmodel : order.challengeModelSlug.isSome)
    (hfresh : s.db.vouchers.find? (draw.codes 0) = none) :
    ∃ vouchers voucher, insertVoucher order email (draw.attempt 0) s
        = .ok ({ s with db := { s.db with vouchers := vouchers } }, voucher) ∧
      vouchers.rows = voucher :: s.db.vouchers.rows ∧ voucher.orderId = order.id := by
  obtain ⟨slug, hslug⟩ := Option.isSome_iff_exists.mp hmodel
  let voucher : GiftVoucher :=
    { code := draw.codes 0
      purchaserUserId := order.userId
      orderId := order.id
      recipientEmail := email
      accountSize := order.accountSize
      challengeModelSlug := slug
      amountPaid := order.amount
      status := .issued
      expiresAt := some (voucherExpiry draw.now draw.expiryDays)
      claimedOrderId := none }
  obtain ⟨vouchers, hinsert⟩ := Option.isSome_iff_exists.mp (Table.insert?_isSome (r := voucher) hfresh)
  refine ⟨vouchers, voucher, ?_, (Table.insert?_eq_some hinsert).2, rfl⟩
  simp only [insertVoucher, hslug, GiftDraw.attempt]
  rw [hinsert]

theorem insertVoucher_taken {email : String} {n : ℕ} (hmodel : order.challengeModelSlug.isSome)
    (htaken : s.db.vouchers.find? (draw.codes n) ≠ none) :
    insertVoucher order email (draw.attempt n) s = .error .uniqueViolation := by
  obtain ⟨slug, hslug⟩ := Option.isSome_iff_exists.mp hmodel
  simp only [insertVoucher, hslug, GiftDraw.attempt]
  split
  · rfl
  · rename_i vouchers hinsert
    have hfresh := (Table.insert?_eq_some hinsert).1
    exact absurd (Table.find?_eq_none.mpr hfresh) htaken

end Voucher

section Issue

variable {s : BillingStore} {order : ChallengeOrder} {draw : GiftDraw}

/-- The queries of `issueGiftVoucherForOrder` up to its loop. -/
theorem issue_apply (hgift : order.isGift = true) {email : String} (hemail : email ∈ order.giftRecipientEmail)
    (hne : email ≠ "") (hunissued : s.db.vouchersOf order.id = []) :
    issueGiftVoucherForOrderSql order draw ⟨s, false⟩
      = firstSuccess .uniqueViolation
          ((List.range 5).map fun n => statement (insertVoucher order email (draw.attempt n))) ⟨s, false⟩ := by
  have hrecipient : order.giftRecipientEmail.filter (· ≠ "") = some email := by
    rw [Option.filter_eq_some_iff]
    exact ⟨hemail, decide_eq_true hne⟩
  rw [issueGiftVoucherForOrderSql, if_neg (not_not.mpr hgift), hrecipient]
  dsimp only
  rw [bind_ok _ (query_apply _ _), hunissued]
  dsimp only
  rw [bind_ok _ (execute_apply _ _), bind_ok _ (execute_apply _ _)]
  rfl

theorem issue_fresh (hgift : order.isGift = true) (hrecipient : ∃ email ∈ order.giftRecipientEmail, email ≠ "")
    (hmodel : order.challengeModelSlug.isSome) (hunissued : s.db.vouchersOf order.id = [])
    (hfresh : s.db.vouchers.find? (draw.codes 0) = none) :
    ∃ vouchers voucher, issueGiftVoucherForOrderSql order draw ⟨s, false⟩
        = (.ok (some voucher), ⟨s.withDb { s.db with vouchers := vouchers }, false⟩) ∧
      vouchers.rows = voucher :: s.db.vouchers.rows ∧ voucher.orderId = order.id := by
  obtain ⟨email, hemail, hne⟩ := hrecipient
  obtain ⟨vouchers, voucher, hinsert, hrows, horder⟩ := @insertVoucher_ok _ _ _ email hmodel hfresh
  refine ⟨vouchers, voucher, ?_, hrows, horder⟩
  rw [issue_apply hgift hemail hne hunissued]
  exact firstSuccess_ok _ (statement_ok hinsert)

/-- A first code that is taken makes the second insert fail, and that error goes through. -/
theorem issue_taken (hgift : order.isGift = true) (hrecipient : ∃ email ∈ order.giftRecipientEmail, email ≠ "")
    (hmodel : order.challengeModelSlug.isSome) (hunissued : s.db.vouchersOf order.id = [])
    (htaken : s.db.vouchers.find? (draw.codes 0) ≠ none) :
    ∃ e, issueGiftVoucherForOrderSql order draw ⟨s, false⟩ = (.error e, ⟨s, true⟩) := by
  obtain ⟨email, hemail, hne⟩ := hrecipient
  rw [issue_apply hgift hemail hne hunissued]
  exact firstSuccess_of_failed (by decide) _ (insertVoucher_taken hmodel htaken)

end Issue

/-! ### The transactions -/

section Payment

variable {s : BillingStore} {order : ChallengeOrder} {draw : GiftDraw}

theorem markPaid_of_payable {unpaid : ChallengeOrder} {reference : String} {id : ℕ}
    (hunpaid : s.db.order? id = some unpaid) (hpayable : ¬ (unpaid.status.Reversed ∨ unpaid.status = .cancelled)) :
    markPaid id reference s = (s.withDb { s.db with
      orders := s.db.orders.updateAt id (ChallengeOrder.paidWith reference) },
        some ((ChallengeOrder.paidWith reference).apply unpaid)) := by
  rw [markPaid, hunpaid]
  exact if_neg hpayable

/-- The statements before the voucher's, and those after it. -/
theorem markChallengeOrderPaid_apply {unpaid : ChallengeOrder} {reference : String} {ctx : PaymentContext}
    (hunpaid : s.db.order? order.id = some unpaid)
    (hpayable : ¬ (unpaid.status.Reversed ∨ unpaid.status = .cancelled))
    (horder : order = (ChallengeOrder.paidWith reference).apply unpaid) (hgift : order.isGift = true) :
    markChallengeOrderPaidSql ctx draw order.id reference ⟨s, false⟩ =
      (issueGiftVoucherForOrderSql order draw >>= fun _ => do
        execute fun s => s.withDb (recordCommission s.db ctx order)
        pure (some order)) ⟨s.withDb { s.db with
          orders := s.db.orders.updateAt order.id (ChallengeOrder.paidWith reference) }, false⟩ := by
  rw [markChallengeOrderPaidSql, bind_ok _ (query_apply _ _), markPaid_of_payable hunpaid hpayable, ← horder]
  dsimp only
  rw [bind_ok _ (execute_apply _ _), bind_ok _ (execute_apply _ _), if_pos hgift]
  rfl

end Payment

/-- The payment's order is paid, and it has one voucher. -/
def Issued (s : BillingStore) (order : ChallengeOrder) : Prop :=
  s.db.order? order.id = some order ∧ (s.db.vouchersOf order.id).length = 1

theorem vouchersOf_cons {db : OrderDb} {vouchers : Table GiftVoucher} {voucher : GiftVoucher} {orderId : ℕ}
    (hrows : vouchers.rows = voucher :: db.vouchers.rows) (horder : voucher.orderId = orderId)
    (hunissued : db.vouchersOf orderId = []) :
    (vouchers.rows.filter fun v => v.orderId = orderId).length = 1 := by
  rw [hrows, List.filter_cons, if_pos (decide_eq_true horder)]
  exact congrArg (fun vs => List.length vs + 1) hunissued

section Handle

variable {s : BillingStore} {order unpaid : ChallengeOrder} {draw : GiftDraw} {event : StripeEvent}
  {ctx : PaymentContext}

theorem handleStripeEvent_apply (htype : event.type = .checkoutSessionCompleted)
    (hevent : event.orderId = some order.id) :
    handleStripeEvent event ctx draw = (do
      let _ ← markChallengeOrderPaidSql ctx draw order.id event.providerPaymentId) := by
  rw [handleStripeEvent, htype, hevent]
  rfl

variable (hunpaid : s.db.order? order.id = some unpaid)
  (hpayable : ¬ (unpaid.status.Reversed ∨ unpaid.status = .cancelled))
  (horder : order = (ChallengeOrder.paidWith event.providerPaymentId).apply unpaid)
  (hgift : order.isGift = true) (hrecipient : ∃ email ∈ order.giftRecipientEmail, email ≠ "")
  (hmodel : order.challengeModelSlug.isSome) (hunissued : s.db.vouchersOf order.id = [])
  (htype : event.type = .checkoutSessionCompleted) (hevent : event.orderId = some order.id)

include hunpaid hpayable horder hgift hrecipient hmodel hunissued htype hevent

theorem handle_fresh (hfresh : s.db.vouchers.find? (draw.codes 0) = none) :
    ∃ s', handleStripeEvent event ctx draw ⟨s, false⟩ = (.ok (), ⟨s', false⟩) ∧ Issued s' order := by
  let paid := s.withDb { s.db with
    orders := s.db.orders.updateAt order.id (ChallengeOrder.paidWith event.providerPaymentId) }
  obtain ⟨vouchers, voucher, hissue, hrows, hvoucher⟩ :=
    issue_fresh (s := paid) hgift hrecipient hmodel hunissued hfresh
  obtain ⟨commissions, hcommission, -⟩ :=
    recordCommission_eq { paid.db with vouchers := vouchers } ctx order
  refine ⟨paid.withDb { paid.db with vouchers := vouchers, commissions := commissions }, ?_, ?_, ?_⟩
  · have hmark : markChallengeOrderPaidSql ctx draw order.id event.providerPaymentId ⟨s, false⟩
        = (.ok (some order),
          ⟨paid.withDb { paid.db with vouchers := vouchers, commissions := commissions }, false⟩) := by
      rw [markChallengeOrderPaid_apply hunpaid hpayable horder hgift, bind_ok _ hissue,
        bind_ok _ (execute_apply _ _)]
      exact congrArg (fun db => (Except.ok (some order), Session.mk (paid.withDb db) false)) hcommission
    rw [handleStripeEvent_apply htype hevent]
    exact bind_ok _ hmark
  · change (s.db.orders.updateAt order.id _).find? order.id = some order
    rw [Table.find?_updateAt, show s.db.orders.find? order.id = some unpaid from hunpaid, Option.map_some,
      if_pos rfl, ← horder]
  · exact vouchersOf_cons hrows hvoucher hunissued

theorem handle_taken (htaken : s.db.vouchers.find? (draw.codes 0) ≠ none) :
    ∃ e session, handleStripeEvent event ctx draw ⟨s, false⟩ = (.error e, session) := by
  let paid := s.withDb { s.db with
    orders := s.db.orders.updateAt order.id (ChallengeOrder.paidWith event.providerPaymentId) }
  obtain ⟨e, hissue⟩ := issue_taken (s := paid) hgift hrecipient hmodel hunissued htaken
  refine ⟨e, ⟨paid, true⟩, ?_⟩
  rw [handleStripeEvent_apply htype hevent]
  refine bind_error _ ?_
  rw [markChallengeOrderPaid_apply hunpaid hpayable horder hgift]
  exact bind_error _ hissue

end Handle

section Process

variable {s : BillingStore} {order unpaid : ChallengeOrder} {draw : GiftDraw} {event : StripeEvent}
  {ctx : PaymentContext}

theorem claimEvent_of_fresh {eventId : String} (hfresh : s.events.find? eventId = none) :
    ∃ events, claimEvent eventId s = ({ s with events := events }, true) := by
  obtain ⟨events, hinsert⟩ :=
    Option.isSome_iff_exists.mp (Table.insert?_isSome (r := (⟨eventId, false⟩ : StripeEventRow)) hfresh)
  refine ⟨events, ?_⟩
  rw [claimEvent, hinsert]

theorem process_fresh (hof : (GiftCheckout.webhook event ctx).Of s order) (hgift : order.isGift = true)
    (hrecipient : ∃ email ∈ order.giftRecipientEmail, email ≠ "") (hmodel : order.challengeModelSlug.isSome)
    (hunissued : s.db.vouchersOf order.id = []) (hfresh : s.db.vouchers.find? (draw.codes 0) = none) :
    ∃ s', processStripeWebhookEventSql event ctx draw ⟨s, false⟩ = (.ok (), ⟨s', false⟩) ∧ Issued s' order := by
  obtain ⟨htype, hevent, hof⟩ := hof
  obtain ⟨horderId, unpaid, hunpaid, hpayable, horder⟩ := hof
  by_cases hid : event.id = ""
  · rw [processStripeWebhookEventSql, if_pos hid]
    exact handle_fresh hunpaid hpayable horder hgift hrecipient hmodel hunissued htype horderId hfresh
  · obtain ⟨events, hclaim⟩ := claimEvent_of_fresh hevent
    obtain ⟨s', hhandle, hissued⟩ := @handle_fresh { s with events := events } _ _ _ _ ctx hunpaid
      hpayable horder hgift hrecipient hmodel hunissued htype horderId hfresh
    refine ⟨stampEvent event.id s', ?_, hissued⟩
    rw [processStripeWebhookEventSql, if_neg hid, bind_ok _ (query_apply _ _), hclaim]
    dsimp only
    rw [if_pos rfl, bind_ok _ hhandle, execute_apply]

theorem process_taken (hof : (GiftCheckout.webhook event ctx).Of s order) (hgift : order.isGift = true)
    (hrecipient : ∃ email ∈ order.giftRecipientEmail, email ≠ "") (hmodel : order.challengeModelSlug.isSome)
    (hunissued : s.db.vouchersOf order.id = []) (htaken : s.db.vouchers.find? (draw.codes 0) ≠ none) :
    ∃ e session, processStripeWebhookEventSql event ctx draw ⟨s, false⟩ = (.error e, session) := by
  obtain ⟨htype, hevent, hof⟩ := hof
  obtain ⟨horderId, unpaid, hunpaid, hpayable, horder⟩ := hof
  by_cases hid : event.id = ""
  · rw [processStripeWebhookEventSql, if_pos hid]
    exact handle_taken hunpaid hpayable horder hgift hrecipient hmodel hunissued htype horderId htaken
  · obtain ⟨events, hclaim⟩ := claimEvent_of_fresh hevent
    obtain ⟨e, session, hhandle⟩ := @handle_taken { s with events := events } _ _ _ _ ctx hunpaid
      hpayable horder hgift hrecipient hmodel hunissued htype horderId htaken
    refine ⟨e, session, ?_⟩
    rw [processStripeWebhookEventSql, if_neg hid, bind_ok _ (query_apply _ _), hclaim]
    dsimp only
    rw [if_pos rfl]
    exact bind_error _ hhandle

end Process

section FreeOrder

variable {s : BillingStore} {order : ChallengeOrder} {draw : GiftDraw} {request : ChallengeOrderRequest}

theorem insertOrder_of_fresh (hfresh : s.db.order? order.id = none) :
    ∃ orders, insertOrder order s = .ok ({ s with db := { s.db with orders := orders } }, ()) ∧
      orders.find? order.id = some order := by
  obtain ⟨orders, hinsert⟩ := Option.isSome_iff_exists.mp (Table.insert?_isSome (r := order) hfresh)
  refine ⟨orders, ?_, ?_⟩
  · rw [insertOrder, hinsert]
  · rw [Table.find?_of_insert? hinsert]
    exact if_pos rfl

theorem placeOrder_fresh (hof : (GiftCheckout.freeOrder request).Of s order) (hgift : order.isGift = true)
    (hrecipient : ∃ email ∈ order.giftRecipientEmail, email ≠ "") (hmodel : order.challengeModelSlug.isSome)
    (hunissued : s.db.vouchersOf order.id = []) (hfresh : s.db.vouchers.find? (draw.codes 0) = none) :
    ∃ s', placeOrderSql request draw ⟨s, false⟩ = (.ok order, ⟨s', false⟩) ∧ Issued s' order := by
  obtain ⟨hamount, hnew, rfl⟩ := hof
  obtain ⟨orders, hinsert, hfind⟩ := insertOrder_of_fresh hnew
  let placed : BillingStore := { s with db := { s.db with orders := orders } }
  obtain ⟨vouchers, voucher, hissue, hrows, hvoucher⟩ :=
    issue_fresh (s := placed) hgift hrecipient hmodel hunissued hfresh
  refine ⟨placed.withDb { placed.db with vouchers := vouchers }, ?_, hfind, vouchersOf_cons hrows hvoucher hunissued⟩
  rw [placeOrderSql, bind_ok _ (statement_ok hinsert), if_pos ⟨hamount, hgift⟩]
  exact bind_ok _ hissue

theorem placeOrder_taken (hof : (GiftCheckout.freeOrder request).Of s order) (hgift : order.isGift = true)
    (hrecipient : ∃ email ∈ order.giftRecipientEmail, email ≠ "") (hmodel : order.challengeModelSlug.isSome)
    (hunissued : s.db.vouchersOf order.id = []) (htaken : s.db.vouchers.find? (draw.codes 0) ≠ none) :
    ∃ e session, placeOrderSql request draw ⟨s, false⟩ = (.error e, session) := by
  obtain ⟨hamount, hnew, rfl⟩ := hof
  obtain ⟨orders, hinsert, -⟩ := insertOrder_of_fresh hnew
  obtain ⟨e, hissue⟩ := issue_taken (s := { s with db := { s.db with orders := orders } }) hgift hrecipient
    hmodel hunissued htaken
  refine ⟨e, ⟨{ s with db := { s.db with orders := orders } }, true⟩, ?_⟩
  rw [placeOrderSql, bind_ok _ (statement_ok hinsert), if_pos ⟨hamount, hgift⟩]
  exact bind_error _ hissue

end FreeOrder

namespace GiftCheckout

variable {p : GiftCheckout} {s : BillingStore} {order : ChallengeOrder} {draw : GiftDraw}

theorem Due.paid (hdue : p.Due s order) : order.status = .paid := by
  obtain ⟨hof⟩ := hdue
  cases p with
  | webhook event ctx =>
    obtain ⟨-, -, -, unpaid, -, -, rfl⟩ := hof
    rfl
  | freeOrder request =>
    obtain ⟨hamount, -, rfl⟩ := hof
    exact if_pos hamount

theorem transact_of_fresh (hdue : p.Due s order) (hfresh : s.db.vouchers.find? (draw.codes 0) = none) :
    ∃ s', transact (p.client draw) s = (.ok (), s') ∧ Issued s' order := by
  obtain ⟨hof, hgift, hrecipient, hmodel, hunissued⟩ := hdue
  cases p with
  | webhook event ctx =>
    obtain ⟨s', hrun, hissued⟩ := process_fresh hof hgift hrecipient hmodel hunissued hfresh
    exact ⟨s', transact_ok hrun, hissued⟩
  | freeOrder request =>
    obtain ⟨s', hrun, hissued⟩ := placeOrder_fresh hof hgift hrecipient hmodel hunissued hfresh
    exact ⟨s', transact_ok (bind_ok _ hrun), hissued⟩

/-- The whole payment is rolled back. -/
theorem transact_of_taken (hdue : p.Due s order) (htaken : s.db.vouchers.find? (draw.codes 0) ≠ none) :
    ∃ e, transact (p.client draw) s = (.error e, s) := by
  obtain ⟨hof, hgift, hrecipient, hmodel, hunissued⟩ := hdue
  cases p with
  | webhook event ctx =>
    obtain ⟨e, session, hrun⟩ := @process_taken _ _ _ _ ctx hof hgift hrecipient hmodel hunissued htaken
    exact ⟨e, transact_error hrun⟩
  | freeOrder request =>
    obtain ⟨e, session, hrun⟩ := placeOrder_taken hof hgift hrecipient hmodel hunissued htaken
    exact ⟨e, transact_error (bind_error _ hrun)⟩

theorem Due.not_consumed (hdue : p.Due s order) : ¬ p.Consumed s := by
  obtain ⟨hof⟩ := hdue
  cases p with
  | webhook event ctx =>
    change ¬ (s.events.find? event.id).isSome = true
    rw [hof.2.1]
    exact Bool.false_ne_true
  | freeOrder request => exact id

/-- A payment without a voucher leaves its event to be delivered again. -/
theorem Due.unconsumed (hdue : p.Due s order)
    (hnone : (transact (p.client draw) s).2.db.vouchersOf order.id = []) :
    ¬ p.Consumed (transact (p.client draw) s).2 := by
  by_cases hfresh : s.db.vouchers.find? (draw.codes 0) = none
  · obtain ⟨s', hrun, -, hone⟩ := transact_of_fresh hdue hfresh
    rw [hrun] at hnone
    rw [hnone] at hone
    cases hone
  · obtain ⟨e, hrun⟩ := transact_of_taken hdue hfresh
    rw [hrun]
    exact hdue.not_consumed

end GiftCheckout

/-- A gift survives exactly when the first code drawn for it is not taken. -/
theorem gift_survives_iff {p : GiftCheckout} {s : BillingStore} {order : ChallengeOrder} {draw : GiftDraw}
    (hdue : p.Due s order) : p.Survives draw s order ↔ s.db.vouchers.find? (draw.codes 0) = none := by
  constructor
  · intro hsurvives
    by_contra htaken
    obtain ⟨e, hrun⟩ := GiftCheckout.transact_of_taken hdue htaken
    have hone := hsurvives.issued
    rw [hrun, hdue.unissued] at hone
    cases hone
  · intro hfresh
    obtain ⟨s', hrun, hpaid, hone⟩ := GiftCheckout.transact_of_fresh hdue hfresh
    refine ⟨?_, ?_, hdue.unconsumed⟩
    · rw [hrun]
      exact ⟨order, hpaid, hdue.paid⟩
    · rw [hrun]
      exact hone

/-! ### A free gift -/

namespace GiftExample

def request : ChallengeOrderRequest where
  id := 2
  userId := 7
  userEmail := "giver@example.com"
  accountSize := 25000
  stepModel := "two-step"
  amount := 0
  recipientEmail := some "friend@example.com"

def earlier : GiftVoucher where
  code := "GIFT-AAAAAAAA"
  purchaserUserId := 3
  orderId := 1
  recipientEmail := "other@example.com"
  accountSize := 25000
  challengeModelSlug := "two-step"
  amountPaid := 100
  status := .issued
  expiresAt := none
  claimedOrderId := none

def store : BillingStore where
  db :=
    { orders := ⟨[], by decide⟩
      vouchers := ⟨[earlier], by decide⟩
      accounts := ⟨[], by decide⟩
      commissions := ⟨[], by decide⟩
      clawbacks := []
      claims := ⟨[], by decide⟩ }
  events := ⟨[], by decide⟩

def codes : ℕ → String
  | 0 => "GIFT-AAAAAAAA"
  | _ => "GIFT-BBBBBBBB"

theorem due : (GiftCheckout.freeOrder request).Due store request.row where
  of := ⟨rfl, rfl, rfl⟩
  gift := rfl
  recipient := ⟨_, rfl, by decide⟩
  model := rfl
  unissued := rfl

end GiftExample

theorem gift_survives_example :
    (GiftCheckout.freeOrder GiftExample.request).Survives ⟨fun n => GiftExample.codes (n + 1), 0, none⟩
      GiftExample.store GiftExample.request.row :=
  (gift_survives_iff GiftExample.due).mpr (by decide)

/-- The second code is free, and nothing of the order stays. -/
theorem gift_lost_to_collision :
    ∃ (p : GiftCheckout) (s : BillingStore) (order : ChallengeOrder) (draw : GiftDraw), p.Due s order ∧
      s.db.vouchers.find? (draw.codes 1) = none ∧ ¬ p.Survives draw s order := by
  refine ⟨.freeOrder GiftExample.request, GiftExample.store, GiftExample.request.row,
    ⟨GiftExample.codes, 0, none⟩, GiftExample.due, by decide, ?_⟩
  intro hsurvives
  exact absurd hsurvives.issued (by decide)

end PropFirm
