import PropFirm.ChallengeOrders
import PropFirm.Lib.RowLocks
import PropFirm.Lib.Transition

/-!
# Redeeming vouchers

A voucher is a competition's or a referral season's prize to a user, or a gift to an email address. The
three kinds have tables of their own, and `POST /accounts/orders` looks a code up in one after the other:
a prize only among the caller's own, a gift by its code alone, each locking the row it finds. What then
happens to the row is decided on its locked version. A gift is issued for a paid gift order, by the
request that places a free one or by the webhook that reports the payment, which may come any number of
times and holds the order's row from its first update on.

The statements of a redemption and of a webhook are steps of their own here, and either may be rolled back
between any two. The advisory locks, which only make a request wait, are left out. Emails are trimmed and
lower case, and an account keeps the one it was registered with.
-/

namespace PropFirm

open Keyed (key)
open Transition

/-- The three tables, in the order they are tried. -/
inductive VoucherKind
  | competition | referralSeason | gift
  deriving DecidableEq

/-- The `user_id` of a prize, or the `recipient_email` of a gift. -/
inductive Recipient
  | user (id : Nat)
  | email (address : String)
  deriving DecidableEq

/-- A redeemed gift is `claimed`. -/
inductive VoucherState
  | issued | redeemed | expired | revoked
  deriving DecidableEq

/-- A row of one of the three tables. `purchaseId` is the order a gift was bought with, `redeemedOrderId`
and `redeemedAt` what its redemption writes. -/
structure Voucher where
  kind : VoucherKind
  code : String
  recipient : Recipient
  purchaseId : Option Nat
  accountSize : Nat
  challengeModelSlug : String
  status : VoucherState
  expiresAt : Option Nat
  redeemedOrderId : Option Nat
  redeemedAt : Option Nat
  deriving DecidableEq

/-- The code is unique in each table. -/
instance : Keyed Voucher (VoucherKind × String) := ⟨fun v => (v.kind, v.code)⟩

namespace Voucher

def movedTo (status : VoucherState) : Table.Rewrite Voucher where
  apply v := { v with status := status }
  key_apply _ := rfl

def redeemedBy (orderId now : Nat) : Table.Rewrite Voucher where
  apply v := { v with status := .redeemed, redeemedOrderId := some orderId, redeemedAt := some now }
  key_apply _ := rfl

def pastExpiry (v : Voucher) (now : Nat) : Prop := ∃ expiresAt ∈ v.expiresAt, expiresAt < now

instance (v : Voucher) (now : Nat) : Decidable (v.pastExpiry now) :=
  inferInstanceAs (Decidable (∃ expiresAt ∈ v.expiresAt, expiresAt < now))

/-- A row that is no longer issued never changes again. -/
def Follows (v v' : Voucher) : Prop := v' = v ∨ v.status = .issued

end Voucher

/-- A row of `challenge_orders`; `voucher` is the one its `paid_via` and metadata name. -/
structure VoucherOrder extends ChallengeOrder where
  voucher : Option (VoucherKind × String)
  deriving DecidableEq

instance : Keyed VoucherOrder Nat := ⟨fun o => o.id⟩

def VoucherOrder.movedTo (status : OrderStatus) : Table.Rewrite VoucherOrder where
  apply o := { o with status := status }
  key_apply _ := rfl

structure PlatformUser where
  id : Nat
  email : String
  emailVerified : Bool
  deriving DecidableEq

instance : Keyed PlatformUser Nat := ⟨PlatformUser.id⟩

def PlatformUser.verified : Table.Rewrite PlatformUser where
  apply u := { u with emailVerified := true }
  key_apply _ := rfl

/-- `looking` has the tables still to be searched; the later stages the kind of the row that is held, and
the order a redemption has inserted. -/
inductive RedemptionStage
  | looking (kinds : List VoucherKind)
  | locked (kind : VoucherKind)
  | expiring (kind : VoucherKind)
  | redeeming (kind : VoucherKind) (order : VoucherOrder)

def RedemptionStage.kind? : RedemptionStage → Option VoucherKind
  | .looking _ => none
  | .locked kind | .expiring kind | .redeeming kind _ => some kind

structure Redemption where
  userId : Nat
  email : String
  code : String
  startedAt : Nat
  stage : RedemptionStage

/-- The row the redemption holds. -/
def Redemption.holds (r : Redemption) : Option (VoucherKind × String) := r.stage.kind?.map (·, r.code)

/-- The transaction of `markChallengeOrderPaid`; `issued` is there once it has looked for a voucher of the
order, and has the one it inserts. -/
structure GiftPayment where
  orderId : Nat
  issued : Option (Option Voucher)

structure VoucherWorld where
  users : Table PlatformUser
  orders : Table VoucherOrder
  vouchers : Table Voucher
  held : Drafts Nat Voucher
  paying : Drafts Nat VoucherOrder
  redemptions : Nat → Option Redemption
  payments : Nat → Option GiftPayment
  clock : Nat

inductive VoucherAction
  | register (user : PlatformUser)
  | verifyEmail (userId : Nat)
  | placeOrder (request : ChallengeOrderRequest) (draw : VoucherDraw)
  | setOrderStatus (orderId : Nat) (status : OrderStatus)
  | beginPayment (paymentId orderId : Nat)
  | issueGift (paymentId : Nat) (draw : VoucherDraw)
  | commitPayment (paymentId : Nat)
  | rollbackPayment (paymentId : Nat)
  | issuePrize (kind : VoucherKind) (code : String) (userId accountSize : Nat) (slug : String)
      (expiresAt : Option Nat)
  | beginRedemption (redemptionId userId : Nat) (code : String)
  | lookUp (redemptionId : Nat)
  | redeem (redemptionId : Nat) (models : List String) (orderId : Nat)
  | commitRedemption (redemptionId : Nat)
  | rollbackRedemption (redemptionId : Nat)
  | revoke (code : String)
  | tick (seconds : Nat)

/-- The row `issueGiftVoucherForOrder` inserts, where the order is a gift to somebody. -/
def giftVoucher (order : VoucherOrder) (draw : VoucherDraw) : Option Voucher := do
  guard (order.isGift = true)
  let recipientEmail ← order.giftRecipientEmail.filter (· ≠ "")
  let slug ← order.challengeModelSlug
  some
    { kind := .gift
      code := draw.code
      recipient := .email recipientEmail
      purchaseId := some order.id
      accountSize := order.accountSize
      challengeModelSlug := slug
      status := .issued
      expiresAt := some (voucherExpiry draw.now draw.expiryDays)
      redeemedOrderId := none
      redeemedAt := none }

/-- The voucher is meant for the user. -/
def Voucher.Intended (v : Voucher) (users : Table PlatformUser) (userId : Nat) : Prop :=
  match v.recipient with
  | .user id => userId = id
  | .email address => ∃ u, users.find? userId = some u ∧ u.email = address

/-- The condition of the lookups: a prize must be the caller's. -/
def Voucher.found (v : Voucher) (userId : Nat) : Prop := v.kind = .gift ∨ v.recipient = .user userId

instance (v : Voucher) (userId : Nat) : Decidable (v.found userId) := inferInstanceAs (Decidable (_ ∨ _))

/-- The order a redemption inserts. -/
def Redemption.order (r : Redemption) (orderId : Nat) (v : Voucher) : VoucherOrder :=
  { ChallengeOrder.prepaid orderId r.userId v.accountSize v.challengeModelSlug with voucher := some (key v) }

namespace VoucherWorld

def setRedemption (w : VoucherWorld) (id : Nat) (r : Redemption) (stage : RedemptionStage) : VoucherWorld :=
  { w with redemptions := Function.update w.redemptions id (some { r with stage := stage }) }

def hold (w : VoucherWorld) (id : Nat) (v : Voucher) : VoucherWorld := { w with held := w.held.put id v }

def endRedemption (w : VoucherWorld) (id : Nat) : VoucherWorld :=
  { w with held := w.held.release id, redemptions := Function.update w.redemptions id none }

def endPayment (w : VoucherWorld) (id : Nat) : VoucherWorld :=
  { w with paying := w.paying.release id, payments := Function.update w.payments id none }

/-- The next lookup of a redemption; a code that is nobody's ends it. -/
def lookUp (w : VoucherWorld) (id : Nat) (r : Redemption) : Option VoucherWorld :=
  match r.stage with
  | .looking [] => some (w.endRedemption id)
  | .looking (kind :: kinds) =>
    match (w.vouchers.find? (kind, r.code)).filter fun v => v.found r.userId with
    | none => some (w.setRedemption id r (.looking kinds))
    | some v => do
      guard (w.held.free id (kind, r.code) = true)
      some ((w.hold id v).setRedemption id r (.locked kind))
  | .locked _ | .expiring _ | .redeeming .. => none

/-- `redeemUserScopedVoucherRow` and `redeemGiftVoucher` on the locked row. Every refusal but that of an
expired voucher rolls the transaction back. -/
def redeem (w : VoucherWorld) (id : Nat) (r : Redemption) (models : List String) (orderId : Nat) :
    Option VoucherWorld :=
  match r.stage with
  | .locked kind => do
    let v ← (w.held.view w.vouchers id).find? (kind, r.code)
    if v.status = .issued ∧ v.pastExpiry w.clock then
      some ((w.hold id ((Voucher.movedTo .expired).apply v)).setRedemption id r (.expiring kind))
    else if v.status ≠ .issued then some (w.endRedemption id)
    else if kind = .gift ∧ v.recipient ≠ .email r.email then some (w.endRedemption id)
    else if v.challengeModelSlug ∉ models then some (w.endRedemption id)
    else
      let order := r.order orderId v
      let redeemed := (Voucher.redeemedBy orderId r.startedAt).apply v
      some ((w.hold id redeemed).setRedemption id r (.redeeming kind order))
  | .looking _ | .expiring _ | .redeeming .. => none

def commitRedemption (w : VoucherWorld) (id : Nat) (r : Redemption) : Option VoucherWorld :=
  let published := { w with vouchers := w.held.view w.vouchers id }
  match r.stage with
  | .expiring _ => some (published.endRedemption id)
  | .redeeming _ order =>
    (w.orders.insert? order).map fun orders => { published with orders := orders }.endRedemption id
  | .looking _ | .locked _ => none

/-- The insert of a bought order, with the voucher of a free gift in the same transaction. -/
def placeOrder (w : VoucherWorld) (request : ChallengeOrderRequest) (draw : VoucherDraw) :
    Option VoucherWorld := do
  guard (request.accountSize ∈ stepModelAccountSizes ∧ request.recipientEmail ≠ some request.userEmail)
  let order : VoucherOrder := { request.row with voucher := none }
  let orders ← w.orders.insert? order
  match (if request.amount = 0 then giftVoucher order draw else none) with
  | none => some { w with orders := orders }
  | some v => (w.vouchers.insert? v).map fun vouchers => { w with orders := orders, vouchers := vouchers }

/-- The update `markChallengeOrderPaid` begins with. -/
def beginPayment (w : VoucherWorld) (paymentId orderId : Nat) : Option VoucherWorld := do
  guard ((w.payments paymentId).isNone ∧ w.paying.free paymentId orderId = true)
  let order ← w.orders.find? orderId
  guard (¬ order.status.Reversed ∧ order.status ≠ .cancelled)
  some { w with
    paying := w.paying.put paymentId ((VoucherOrder.movedTo .paid).apply order)
    payments := Function.update w.payments paymentId (some ⟨orderId, none⟩) }

/-- `issueGiftVoucherForOrder` on the webhook's path. -/
def issueGift (w : VoucherWorld) (paymentId : Nat) (p : GiftPayment) (draw : VoucherDraw) :
    Option VoucherWorld := do
  guard p.issued.isNone
  let order ← (w.paying.view w.orders paymentId).find? p.orderId
  let existing := w.vouchers.rows.any fun v => v.purchaseId = some p.orderId
  let issued := if existing then none else giftVoucher order draw
  some { w with payments := Function.update w.payments paymentId (some { p with issued := some issued }) }

def commitPayment (w : VoucherWorld) (paymentId : Nat) (p : GiftPayment) : Option VoucherWorld :=
  let published := { w with orders := w.paying.view w.orders paymentId }
  match p.issued with
  | none => none
  | some none => some (published.endPayment paymentId)
  | some (some v) =>
    (w.vouchers.insert? v).map fun vouchers => { published with vouchers := vouchers }.endPayment paymentId

def step (w : VoucherWorld) : VoucherAction → Option VoucherWorld
  | .register user => (w.users.insert? user).map fun users => { w with users := users }
  | .verifyEmail userId => some { w with users := w.users.updateAt userId PlatformUser.verified }
  | .placeOrder request draw => w.placeOrder request draw
  | .setOrderStatus orderId status =>
    if (w.paying orderId).isNone then
      some { w with orders := w.orders.updateAt orderId (VoucherOrder.movedTo status) }
    else none
  | .beginPayment paymentId orderId => w.beginPayment paymentId orderId
  | .issueGift paymentId draw => do
    let p ← w.payments paymentId
    w.issueGift paymentId p draw
  | .commitPayment paymentId => do
    let p ← w.payments paymentId
    w.commitPayment paymentId p
  | .rollbackPayment paymentId => some (w.endPayment paymentId)
  | .issuePrize kind code userId accountSize slug expiresAt =>
    if kind = .gift then none
    else
      (w.vouchers.insert?
        { kind := kind
          code := code
          recipient := .user userId
          purchaseId := none
          accountSize := accountSize
          challengeModelSlug := slug
          status := .issued
          expiresAt := expiresAt
          redeemedOrderId := none
          redeemedAt := none }).map fun vouchers => { w with vouchers := vouchers }
  | .beginRedemption redemptionId userId code => do
    guard (w.redemptions redemptionId).isNone
    let user ← w.users.find? userId
    guard (user.emailVerified = true)
    let r : Redemption :=
      { userId := user.id
        email := user.email
        code := code
        startedAt := w.clock
        stage := .looking [.competition, .referralSeason, .gift] }
    some { w with redemptions := Function.update w.redemptions redemptionId (some r) }
  | .lookUp redemptionId => do
    let r ← w.redemptions redemptionId
    w.lookUp redemptionId r
  | .redeem redemptionId models orderId => do
    let r ← w.redemptions redemptionId
    w.redeem redemptionId r models orderId
  | .commitRedemption redemptionId => do
    let r ← w.redemptions redemptionId
    w.commitRedemption redemptionId r
  | .rollbackRedemption redemptionId => some (w.endRedemption redemptionId)
  | .revoke code =>
    if (w.held (.gift, code)).isNone then
      let issued := fun v : Voucher => decide (key v = (.gift, code) ∧ v.status = .issued)
      some { w with vouchers := w.vouchers.update issued (Voucher.movedTo .revoked) }
    else none
  | .tick seconds => some { w with clock := w.clock + seconds }

/-! ### What holds between the statements -/

end VoucherWorld

/-- What a redemption has written over the row it holds. -/
def Redemption.DraftOf (r : Redemption) (users : Table PlatformUser) (v row : Voucher) : Prop :=
  match r.stage with
  | .looking _ => False
  | .locked _ => row = v ∧ v.found r.userId
  | .expiring _ => v.status = .issued ∧ row = (Voucher.movedTo .expired).apply v
  | .redeeming _ order =>
    v.status = .issued ∧ row = (Voucher.redeemedBy order.id r.startedAt).apply v ∧
      order.voucher = some (key v) ∧ order.amount = 0 ∧ v.Intended users order.userId ∧
        ∀ expiresAt ∈ v.expiresAt, r.startedAt ≤ expiresAt

/-- The row is redeemed into the order, by whom it is meant for and no later than it expires. -/
structure Voucher.Redeemed (v : Voucher) (users : Table PlatformUser) (o : VoucherOrder) : Prop where
  free : o.amount = 0
  status : v.status = .redeemed
  order : v.redeemedOrderId = some o.id
  intended : v.Intended users o.userId
  inTime : ∃ redeemedAt, v.redeemedAt = some redeemedAt ∧ ∀ expiresAt ∈ v.expiresAt, redeemedAt ≤ expiresAt

namespace VoucherWorld

variable {w w' : VoucherWorld}

structure Redeeming (w : VoucherWorld) : Prop where
  session : ∀ id r, w.redemptions id = some r →
    r.startedAt ≤ w.clock ∧ ∃ u, w.users.find? r.userId = some u ∧ u.email = r.email
  held : ∀ k d, w.held k = some d → ∃ r v, w.redemptions d.owner = some r ∧ r.holds = some k ∧
    w.vouchers.find? k = some v ∧ r.DraftOf w.users v d.row
  holding : ∀ id r k, w.redemptions id = some r → r.holds = some k → ∃ d, w.held k = some d ∧ d.owner = id
  redeemed : ∀ o ∈ w.orders.rows, ∀ k, o.voucher = some k →
    ∃ v, w.vouchers.find? k = some v ∧ v.Redeemed w.users o

structure Paying (w : VoucherWorld) : Prop where
  paying : ∀ orderId d, w.paying orderId = some d → ∃ p o, w.payments d.owner = some p ∧
    p.orderId = orderId ∧ w.orders.find? orderId = some o ∧ d.row = (VoucherOrder.movedTo .paid).apply o
  payment : ∀ id p, w.payments id = some p → ∃ d, w.paying p.orderId = some d ∧ d.owner = id
  issuing : ∀ id p v, w.payments id = some p → p.issued = some (some v) →
    v.purchaseId = some p.orderId ∧ ∀ v' ∈ w.vouchers.rows, v'.purchaseId ≠ some p.orderId
  bought : ∀ v ∈ w.vouchers.rows, ∀ orderId, v.purchaseId = some orderId → (w.orders.find? orderId).isSome
  oneGift : ∀ v ∈ w.vouchers.rows, ∀ v' ∈ w.vouchers.rows, v.purchaseId.isSome →
    v.purchaseId = v'.purchaseId → key v = key v'

/-- Every voucher there before is there after, unchanged if it was not issued any more. -/
def Forward (w w' : VoucherWorld) : Prop :=
  ∀ k v, w.vouchers.find? k = some v → ∃ v', w'.vouchers.find? k = some v' ∧ v.Follows v'

theorem Forward.of_eq (hvouchers : w'.vouchers = w.vouchers) : Forward w w' :=
  fun _ v hv => ⟨v, hvouchers ▸ hv, .inl rfl⟩

/-- Steps that leave the redemptions alone. -/
theorem Redeeming.frame (h : Redeeming w) (hredemptions : w'.redemptions = w.redemptions)
    (hheld : w'.held = w.held) (hclock : w.clock ≤ w'.clock)
    (husers : ∀ id u, w.users.find? id = some u → ∃ u', w'.users.find? id = some u' ∧ u'.email = u.email)
    (hvouchers : ∀ k v, w.vouchers.find? k = some v → w.held k ≠ none ∨ v.status ≠ .issued →
      w'.vouchers.find? k = some v)
    (horders : ∀ o' ∈ w'.orders.rows, ∀ k, o'.voucher = some k → ∃ o ∈ w.orders.rows, o.voucher = some k ∧
      o.id = o'.id ∧ o.userId = o'.userId ∧ o.amount = o'.amount) : Redeeming w' := by
  have hintended : ∀ {v : Voucher} {userId}, v.Intended w.users userId → v.Intended w'.users userId := by
    intro v userId hintended
    unfold Voucher.Intended at hintended ⊢
    cases hrecipient : v.recipient with
    | user id =>
      rw [hrecipient] at hintended
      exact hintended
    | email address =>
      rw [hrecipient] at hintended
      obtain ⟨u, hu, hemail⟩ := hintended
      obtain ⟨u', hu', hsame⟩ := husers _ u hu
      exact ⟨u', hu', hsame.trans hemail⟩
  refine ⟨?_, ?_, ?_, ?_⟩
  · intro id r hr
    obtain ⟨hstarted, u, hu, hemail⟩ := h.session id r (hredemptions ▸ hr)
    obtain ⟨u', hu', hsame⟩ := husers _ u hu
    exact ⟨hstarted.trans hclock, u', hu', hsame.trans hemail⟩
  · intro k d hd
    rw [hheld] at hd
    obtain ⟨r, v, hr, hholds, hv, hdraft⟩ := h.held k d hd
    refine ⟨r, v, hredemptions ▸ hr, hholds, hvouchers k v hv (.inl (by rw [hd]; nofun)), ?_⟩
    unfold Redemption.DraftOf at hdraft ⊢
    cases hstage : r.stage with
    | looking kinds | locked kind | expiring kind =>
      rw [hstage] at hdraft
      exact hdraft
    | redeeming kind order =>
      rw [hstage] at hdraft
      obtain ⟨hissued, hrow, hvoucher, hamount, hmeant, htime⟩ := hdraft
      exact ⟨hissued, hrow, hvoucher, hamount, hintended hmeant, htime⟩
  · intro id r k hr hholds
    rw [hheld]
    exact h.holding id r k (hredemptions ▸ hr) hholds
  · intro o' ho' k hvoucher
    obtain ⟨o, ho, hk, hid, huser, hamount⟩ := horders o' ho' k hvoucher
    obtain ⟨v, hv, hredeemed⟩ := h.redeemed o ho k hk
    refine ⟨v, hvouchers k v hv (.inr (by rw [hredeemed.status]; nofun)), hamount ▸ hredeemed.free,
      hredeemed.status, hid ▸ hredeemed.order, ?_, hredeemed.inTime⟩
    exact huser ▸ hintended hredeemed.intended

/-- Steps that leave the payments alone. -/
theorem Paying.frame (h : Paying w) (hpayments : w'.payments = w.payments) (hpaying : w'.paying = w.paying)
    (horders : ∀ orderId o, w.orders.find? orderId = some o → (w'.orders.find? orderId).isSome ∧
      (w.paying orderId ≠ none → w'.orders.find? orderId = some o))
    (hvouchers : ∀ v' ∈ w'.vouchers.rows, v'.purchaseId = none ∨
      ∃ v ∈ w.vouchers.rows, key v = key v' ∧ v.purchaseId = v'.purchaseId) : Paying w' := by
  refine ⟨?_, ?_, ?_, ?_, ?_⟩
  · intro orderId d hd
    rw [hpaying] at hd
    obtain ⟨p, o, hp, hid, ho, hrow⟩ := h.paying orderId d hd
    exact ⟨p, o, hpayments ▸ hp, hid, (horders orderId o ho).2 (by rw [hd]; nofun), hrow⟩
  · intro id p hp
    rw [hpaying]
    exact h.payment id p (hpayments ▸ hp)
  · intro id p v hp hissued
    obtain ⟨hpurchase, hnone⟩ := h.issuing id p v (hpayments ▸ hp) hissued
    refine ⟨hpurchase, fun v' hv' hsame => ?_⟩
    rcases hvouchers v' hv' with hprize | ⟨u, hu, _, hold⟩
    · rw [hprize] at hsame
      cases hsame
    · exact hnone u hu (hold.trans hsame)
  · intro v' hv' orderId hpurchase
    rcases hvouchers v' hv' with hprize | ⟨u, hu, _, hold⟩
    · rw [hprize] at hpurchase
      cases hpurchase
    · obtain ⟨o, ho⟩ := Option.isSome_iff_exists.mp (h.bought u hu orderId (hold.trans hpurchase))
      exact (horders orderId o ho).1
  · intro v hv v' hv' hsome hsame
    rcases hvouchers v hv with hprize | ⟨u, hu, hkey, hold⟩
    · rw [hprize] at hsome
      cases hsome
    rcases hvouchers v' hv' with hprize | ⟨u', hu', hkey', hold'⟩
    · rw [hsame, hprize] at hsome
      cases hsome
    rw [← hkey, ← hkey']
    exact h.oneGift u hu u' hu' (hold ▸ hsome) (hold.trans (hsame.trans hold'.symm))

/-! ### Redemptions -/

theorem update_eq_some {α : Type} {f : Nat → Option α} {id id' : Nat} {r : Option α} {r' : α}
    (hr' : Function.update f id r id' = some r') :
    (id' = id ∧ r = some r') ∨ (id' ≠ id ∧ f id' = some r') := by
  by_cases hsame : id' = id
  · subst hsame
    rw [Function.update_self] at hr'
    exact .inl ⟨rfl, hr'⟩
  · rw [Function.update_of_ne hsame] at hr'
    exact .inr ⟨hsame, hr'⟩

theorem Redeeming.endRedemption (h : Redeeming w) (id : Nat) : Redeeming (w.endRedemption id) where
  session := by
    intro id' r hr
    rcases update_eq_some hr with ⟨_, hnone⟩ | ⟨_, hr⟩
    · cases hnone
    · exact h.session id' r hr
  held := by
    intro k d hd
    obtain ⟨hd, hne⟩ := Drafts.release_eq_some.mp hd
    obtain ⟨r, v, hr, hrest⟩ := h.held k d hd
    have hkept : (w.endRedemption id).redemptions d.owner = some r := (Function.update_of_ne hne ..).trans hr
    exact ⟨r, v, hkept, hrest⟩
  holding := by
    intro id' r k hr hholds
    rcases update_eq_some hr with ⟨_, hnone⟩ | ⟨hne, hr⟩
    · cases hnone
    · obtain ⟨d, hd, howner⟩ := h.holding id' r k hr hholds
      exact ⟨d, Drafts.release_eq_some.mpr ⟨hd, howner ▸ hne⟩, howner⟩
  redeemed := h.redeemed

/-- A lookup finds nothing and goes on to the next table. -/
theorem Redeeming.goOn (h : Redeeming w) {id : Nat} {r : Redemption} (hr : w.redemptions id = some r)
    {kinds kinds' : List VoucherKind} (hstage : r.stage = .looking kinds) :
    Redeeming (w.setRedemption id r (.looking kinds')) where
  session := by
    intro id' r' hr'
    rcases update_eq_some hr' with ⟨rfl, hsame⟩ | ⟨_, hr'⟩
    · cases hsame
      exact h.session id' r hr
    · exact h.session id' r' hr'
  held := by
    intro k d hd
    obtain ⟨r', v, hr', hrest⟩ := h.held k d hd
    have hne : d.owner ≠ id := by
      intro howner
      obtain rfl := Option.some.inj (hr.symm.trans (howner ▸ hr'))
      have hholds := hrest.1
      simp [Redemption.holds, hstage, RedemptionStage.kind?] at hholds
    exact ⟨r', v, (Function.update_of_ne hne _ w.redemptions).trans hr', hrest⟩
  holding := by
    intro id' r' k hr' hholds
    rcases update_eq_some hr' with ⟨rfl, hsame⟩ | ⟨_, hr'⟩
    · cases hsame
      simp [Redemption.holds, RedemptionStage.kind?] at hholds
    · exact h.holding id' r' k hr' hholds
  redeemed := h.redeemed

/-- A redemption takes a row that is free, or writes the row it holds. -/
theorem Redeeming.hold (h : Redeeming w) {id : Nat} {r : Redemption} {stage : RedemptionStage}
    {k : VoucherKind × String} {v row : Voucher} (hr : w.redemptions id = some r)
    (hbefore : ∀ k', r.holds = some k' → k' = k) (hfree : w.held.free id k = true)
    (hv : w.vouchers.find? k = some v) (hkey : key row = k)
    (hholds : ({ r with stage := stage } : Redemption).holds = some k)
    (hdraft : ({ r with stage := stage } : Redemption).DraftOf w.users v row) :
    Redeeming ((w.hold id row).setRedemption id r stage) where
  session := by
    intro id' r' hr'
    rcases update_eq_some hr' with ⟨rfl, hsame⟩ | ⟨_, hr'⟩
    · cases hsame
      exact h.session id' r hr
    · exact h.session id' r' hr'
  held := by
    intro k' d hd
    rcases Drafts.put_eq_some hd with ⟨rfl, howner, hrow⟩ | ⟨hne, hd⟩
    · obtain ⟨owner, row', _⟩ := d
      dsimp only at howner hrow
      subst hkey howner hrow
      exact ⟨{ r with stage := stage }, v, Function.update_self .., hholds, hv, hdraft⟩
    · obtain ⟨r', v', hr', hholds', hrest⟩ := h.held k' d hd
      have howner : d.owner ≠ id := by
        intro howner
        obtain rfl := Option.some.inj (hr.symm.trans (howner ▸ hr'))
        exact hne (hkey.trans (hbefore k' hholds').symm)
      exact ⟨r', v', (Function.update_of_ne howner _ w.redemptions).trans hr', hholds', hrest⟩
  holding := by
    intro id' r' k' hr' hholds'
    rcases update_eq_some hr' with ⟨rfl, hsame⟩ | ⟨hne, hr'⟩
    · cases hsame
      obtain rfl := Option.some.inj (hholds.symm.trans hholds')
      exact ⟨⟨id', row, hkey⟩, dif_pos hkey, rfl⟩
    · obtain ⟨d, hd, howner⟩ := h.holding id' r' k' hr' hholds'
      exact ⟨d, Drafts.put_keeps (hkey ▸ hfree) hd (howner ▸ hne), howner⟩
  redeemed := h.redeemed

theorem Redeeming.lookUp (h : Redeeming w) {id : Nat} {r : Redemption} (hr : w.redemptions id = some r)
    (hlook : w.lookUp id r = some w') : Redeeming w' := by
  unfold VoucherWorld.lookUp at hlook
  split at hlook
  · cases hlook
    exact h.endRedemption id
  · rename_i kind kinds hstage
    split at hlook
    · cases hlook
      exact h.goOn hr hstage
    · rename_i v hfound
      simp only [Option.bind_eq_bind, Option.bind_eq_some_iff, Option.guard_eq_some', exists_const,
        Option.some.injEq] at hlook
      obtain ⟨hfree, rfl⟩ := hlook
      obtain ⟨hv, hmine⟩ := Option.filter_eq_some_iff.mp hfound
      have hnone : ∀ k', r.holds = some k' → k' = (kind, r.code) := by
        intro k' hholds
        simp [Redemption.holds, hstage, RedemptionStage.kind?] at hholds
      exact h.hold hr hnone hfree hv (Table.find?_eq_some.mp hv).2 rfl ⟨rfl, of_decide_eq_true hmine⟩
  all_goals cases hlook

/-- The row a redemption has locked, as it sees it. -/
theorem Redeeming.locked (h : Redeeming w) {id : Nat} {r : Redemption} {kind : VoucherKind}
    (hr : w.redemptions id = some r) (hstage : r.stage = .locked kind) :
    ∃ v, w.vouchers.find? (kind, r.code) = some v ∧ v.found r.userId ∧
      w.held.free id (kind, r.code) = true ∧ (w.held.view w.vouchers id).find? (kind, r.code) = some v := by
  have hholds : r.holds = some (kind, r.code) := by rw [Redemption.holds, hstage]; rfl
  obtain ⟨d, hd, howner⟩ := h.holding id r _ hr hholds
  obtain ⟨r', v, hr', _, hv, hdraft⟩ := h.held _ d hd
  obtain rfl := Option.some.inj (hr.symm.trans (howner ▸ hr'))
  rw [Redemption.DraftOf, hstage] at hdraft
  obtain ⟨hrow, hfound⟩ := hdraft
  refine ⟨v, hv, hfound, ?_, hrow ▸ Drafts.find?_view_of_own hv hd howner⟩
  rw [Drafts.free_iff]
  intro e he
  obtain rfl := Option.some.inj (hd.symm.trans he)
  exact howner

theorem Redeeming.redeem (h : Redeeming w) {id : Nat} {r : Redemption} {models : List String} {orderId : Nat}
    (hr : w.redemptions id = some r) (hredeem : w.redeem id r models orderId = some w') : Redeeming w' := by
  unfold VoucherWorld.redeem at hredeem
  split at hredeem
  · rename_i kind hstage
    obtain ⟨v, hv, hfound, hfree, hview⟩ := h.locked hr hstage
    have hbefore : ∀ k', r.holds = some k' → k' = (kind, r.code) := by
      intro k' hholds
      rw [Redemption.holds, hstage] at hholds
      exact (Option.some.inj hholds).symm
    have hkey : key v = (kind, r.code) := (Table.find?_eq_some.mp hv).2
    rw [hview] at hredeem
    dsimp only [Option.bind_eq_bind, Option.bind_some] at hredeem
    split at hredeem
    · rename_i hexpired
      cases hredeem
      exact h.hold hr hbefore hfree hv hkey rfl ⟨hexpired.1, rfl⟩
    rename_i hexpired
    split at hredeem
    · cases hredeem
      exact h.endRedemption id
    rename_i hstatus
    split at hredeem
    · cases hredeem
      exact h.endRedemption id
    rename_i hother
    split at hredeem
    · cases hredeem
      exact h.endRedemption id
    · cases hredeem
      have hissued : v.status = .issued := not_not.mp hstatus
      obtain ⟨hstarted, u, hu, hemail⟩ := h.session id r hr
      have hintended : v.Intended w.users r.userId := by
        unfold Voucher.Intended
        cases hrecipient : v.recipient with
        | user userId =>
          rcases hfound with hgift | huser
          · have hkind : kind = .gift := (congrArg Prod.fst hkey).symm.trans hgift
            exact absurd ⟨hkind, by rw [hrecipient]; nofun⟩ hother
          · exact (Recipient.user.inj (hrecipient.symm.trans huser)).symm
        | email address =>
          rcases hfound with hgift | huser
          · have hkind : kind = .gift := (congrArg Prod.fst hkey).symm.trans hgift
            have hmine : v.recipient = .email r.email := by
              by_contra hne
              exact hother ⟨hkind, hne⟩
            exact ⟨u, hu, hemail.trans (Recipient.email.inj (hrecipient.symm.trans hmine)).symm⟩
          · exact nomatch hrecipient.symm.trans huser
      have htime : ∀ expiresAt ∈ v.expiresAt, r.startedAt ≤ expiresAt := by
        intro expiresAt hexpires
        by_contra hlate
        have hpast : expiresAt < w.clock := by omega
        exact hexpired ⟨hissued, expiresAt, hexpires, hpast⟩
      exact h.hold hr hbefore hfree hv hkey rfl ⟨hissued, rfl, rfl, rfl, hintended, htime⟩
  all_goals cases hredeem

/-- A draft changes nothing but an issued voucher. -/
theorem draftOf_follows {r : Redemption} {users : Table PlatformUser} {v row : Voucher}
    (hdraft : r.DraftOf users v row) : v.Follows row := by
  unfold Redemption.DraftOf at hdraft
  cases hstage : r.stage with
  | looking kinds =>
    rw [hstage] at hdraft
    exact hdraft.elim
  | locked kind =>
    rw [hstage] at hdraft
    exact .inl hdraft.1
  | expiring kind | redeeming kind order =>
    rw [hstage] at hdraft
    exact .inr hdraft.1

/-- What a commit publishes of a voucher. -/
theorem Redeeming.published (h : Redeeming w) (id : Nat) {k : VoucherKind × String} {v : Voucher}
    (hv : w.vouchers.find? k = some v) :
    ∃ v', (w.held.view w.vouchers id).find? k = some v' ∧ v.Follows v' := by
  by_cases hown : ∃ d, w.held k = some d ∧ d.owner = id
  · obtain ⟨d, hd, howner⟩ := hown
    obtain ⟨r, u, _, _, hu, hdraft⟩ := h.held k d hd
    obtain rfl := Option.some.inj (hv.symm.trans hu)
    exact ⟨d.row, Drafts.find?_view_of_own hv hd howner, draftOf_follows hdraft⟩
  · exact ⟨v, (Drafts.find?_view_of_others fun d hd howner => hown ⟨d, hd, howner⟩).trans hv, .inl rfl⟩

theorem Redeeming.publish (h : Redeeming w) (id : Nat) {orders : Table VoucherOrder}
    (horders : ∀ o ∈ orders.rows, ∀ k, o.voucher = some k → o ∈ w.orders.rows ∨
      ∃ v, (w.held.view w.vouchers id).find? k = some v ∧ v.Redeemed w.users o) :
    Redeeming ({ w with vouchers := w.held.view w.vouchers id, orders := orders }.endRedemption id) where
  session := (h.endRedemption id).session
  held := by
    intro k d hd
    have hne := (Drafts.release_eq_some.mp hd).2
    obtain ⟨r, v, hr, hholds, hv, hdraft⟩ := (h.endRedemption id).held k d hd
    have hothers : ∀ e, w.held k = some e → e.owner ≠ id := by
      intro e he
      obtain rfl := Option.some.inj ((Drafts.release_eq_some.mp hd).1.symm.trans he)
      exact hne
    exact ⟨r, v, hr, hholds, (Drafts.find?_view_of_others hothers).trans hv, hdraft⟩
  holding := (h.endRedemption id).holding
  redeemed := by
    intro o ho k hvoucher
    rcases horders o ho k hvoucher with hold | hnew
    · obtain ⟨v, hv, hredeemed⟩ := h.redeemed o hold k hvoucher
      obtain ⟨v', hv', hsame | hissued⟩ := h.published id hv
      · exact ⟨v', hv', hsame ▸ hredeemed⟩
      · exact nomatch hredeemed.status.symm.trans hissued
    · exact hnew

theorem Redeeming.commitRedemption (h : Redeeming w) {id : Nat} {r : Redemption}
    (hr : w.redemptions id = some r) (hcommit : w.commitRedemption id r = some w') : Redeeming w' := by
  unfold VoucherWorld.commitRedemption at hcommit
  dsimp only at hcommit
  split at hcommit
  · cases hcommit
    exact h.publish id fun o ho _ _ => .inl ho
  · rename_i kind order hstage
    obtain ⟨orders, hinsert, rfl⟩ := Option.map_eq_some_iff.mp hcommit
    refine h.publish id fun o ho k hvoucher => ?_
    rw [(Table.insert?_eq_some hinsert).2] at ho
    rcases List.mem_cons.mp ho with rfl | hold
    · have hholds : r.holds = some (kind, r.code) := by rw [Redemption.holds, hstage]; rfl
      obtain ⟨d, hd, howner⟩ := h.holding id r _ hr hholds
      obtain ⟨r', v, hr', _, hv, hdraft⟩ := h.held _ d hd
      obtain rfl := Option.some.inj (hr.symm.trans (howner ▸ hr'))
      rw [Redemption.DraftOf, hstage] at hdraft
      obtain ⟨_, hrow, hkey, hamount, hintended, htime⟩ := hdraft
      have hk : key v = k := Option.some.inj (hkey.symm.trans hvoucher)
      have hvkey := (Table.find?_eq_some.mp hv).2
      refine .inr ⟨d.row, ?_, ?_⟩
      · rw [← hk, hvkey]
        exact Drafts.find?_view_of_own hv hd howner
      · rw [hrow]
        exact ⟨hamount, rfl, rfl, hintended, r.startedAt, rfl, htime⟩
    · exact .inl hold
  all_goals cases hcommit

theorem Redeeming.begin (h : Redeeming w) {id : Nat} {r : Redemption} (hnone : w.redemptions id = none)
    {kinds : List VoucherKind} (hstage : r.stage = .looking kinds) (hstarted : r.startedAt ≤ w.clock)
    (huser : ∃ u, w.users.find? r.userId = some u ∧ u.email = r.email) :
    Redeeming { w with redemptions := Function.update w.redemptions id (some r) } where
  session := by
    intro id' r' hr'
    rcases update_eq_some hr' with ⟨rfl, hsame⟩ | ⟨_, hr'⟩
    · cases hsame
      exact ⟨hstarted, huser⟩
    · exact h.session id' r' hr'
  held := by
    intro k d hd
    obtain ⟨r', v, hr', hrest⟩ := h.held k d hd
    have hne : d.owner ≠ id := by
      intro howner
      rw [howner, hnone] at hr'
      cases hr'
    exact ⟨r', v, (Function.update_of_ne hne ..).trans hr', hrest⟩
  holding := by
    intro id' r' k hr' hholds
    rcases update_eq_some hr' with ⟨rfl, hsame⟩ | ⟨_, hr'⟩
    · cases hsame
      simp [Redemption.holds, hstage, RedemptionStage.kind?] at hholds
    · exact h.holding id' r' k hr' hholds
  redeemed := h.redeemed

/-! ### Payments -/

theorem Paying.endPayment (h : Paying w) (id : Nat) : Paying (w.endPayment id) where
  paying := by
    intro orderId d hd
    obtain ⟨hd, hne⟩ := Drafts.release_eq_some.mp hd
    obtain ⟨p, o, hp, hrest⟩ := h.paying orderId d hd
    have hkept : (w.endPayment id).payments d.owner = some p := (Function.update_of_ne hne ..).trans hp
    exact ⟨p, o, hkept, hrest⟩
  payment := by
    intro id' p hp
    rcases update_eq_some hp with ⟨_, hnone⟩ | ⟨hne, hp⟩
    · cases hnone
    · obtain ⟨d, hd, howner⟩ := h.payment id' p hp
      exact ⟨d, Drafts.release_eq_some.mpr ⟨hd, howner ▸ hne⟩, howner⟩
  issuing := by
    intro id' p v hp hissued
    rcases update_eq_some hp with ⟨_, hnone⟩ | ⟨_, hp⟩
    · cases hnone
    · exact h.issuing id' p v hp hissued
  bought := h.bought
  oneGift := h.oneGift

theorem Paying.beginPayment (h : Paying w) {paymentId orderId : Nat}
    (hbegin : w.beginPayment paymentId orderId = some w') : Paying w' := by
  simp only [VoucherWorld.beginPayment, Option.bind_eq_bind, Option.bind_eq_some_iff, Option.guard_eq_some',
    exists_const, Option.some.injEq] at hbegin
  obtain ⟨⟨hunused, hfree⟩, o, ho, -, rfl⟩ := hbegin
  have hnone : w.payments paymentId = none := Option.isNone_iff_eq_none.mp hunused
  obtain ⟨hmem, hid⟩ := Table.find?_eq_some.mp ho
  have hkey : key ((VoucherOrder.movedTo .paid).apply o) = orderId := hid
  refine ⟨?_, ?_, ?_, h.bought, h.oneGift⟩
  · intro orderId' d hd
    rcases Drafts.put_eq_some hd with ⟨hkey', howner, hrow⟩ | ⟨_, hd⟩
    · obtain rfl : orderId = orderId' := hkey.symm.trans hkey'
      refine ⟨⟨orderId, none⟩, o, ?_, rfl, ho, hrow⟩
      rw [howner]
      exact Function.update_self ..
    · obtain ⟨p, o', hp, hrest⟩ := h.paying orderId' d hd
      have hne : d.owner ≠ paymentId := by
        intro howner
        rw [howner, hnone] at hp
        cases hp
      exact ⟨p, o', (Function.update_of_ne hne ..).trans hp, hrest⟩
  · intro id p hp
    rcases update_eq_some hp with ⟨rfl, hsame⟩ | ⟨hne, hp⟩
    · cases hsame
      exact ⟨⟨id, _, hkey⟩, dif_pos hkey, rfl⟩
    · obtain ⟨d, hd, howner⟩ := h.payment id p hp
      exact ⟨d, Drafts.put_keeps (hkey.symm ▸ hfree) hd (howner ▸ hne), howner⟩
  · intro id p v hp hissued
    rcases update_eq_some hp with ⟨_, hsame⟩ | ⟨_, hp⟩
    · cases hsame
      cases hissued
    · exact h.issuing id p v hp hissued

theorem giftVoucher_eq_some {order : VoucherOrder} {draw : VoucherDraw} {v : Voucher}
    (hgift : giftVoucher order draw = some v) : v.purchaseId = some order.id ∧ v.kind = .gift := by
  simp only [giftVoucher, Option.bind_eq_bind, Option.bind_eq_some_iff, Option.guard_eq_some', exists_const,
    Option.some.injEq] at hgift
  obtain ⟨_, _, _, _, _, rfl⟩ := hgift
  exact ⟨rfl, rfl⟩

theorem Paying.issueGift (h : Paying w) {paymentId : Nat} {p : GiftPayment} {draw : VoucherDraw}
    (hp : w.payments paymentId = some p) (hissue : w.issueGift paymentId p draw = some w') : Paying w' := by
  simp only [VoucherWorld.issueGift, Option.bind_eq_bind, Option.bind_eq_some_iff, Option.guard_eq_some',
    exists_const, Option.some.injEq] at hissue
  obtain ⟨_, order, horder, rfl⟩ := hissue
  have hid : order.id = p.orderId := (Table.find?_eq_some.mp horder).2
  refine ⟨?_, ?_, ?_, h.bought, h.oneGift⟩
  · intro orderId d hd
    obtain ⟨p', o, hp', hpid, hrest⟩ := h.paying orderId d hd
    by_cases howner : d.owner = paymentId
    · obtain rfl := Option.some.inj (hp.symm.trans (howner ▸ hp'))
      rw [howner]
      exact ⟨_, o, Function.update_self .., hpid, hrest⟩
    · exact ⟨p', o, (Function.update_of_ne howner ..).trans hp', hpid, hrest⟩
  · intro id p' hp'
    rcases update_eq_some hp' with ⟨rfl, hsame⟩ | ⟨_, hp'⟩
    · cases hsame
      exact h.payment id p hp
    · exact h.payment id p' hp'
  · intro id p' v hp' hissued
    rcases update_eq_some hp' with ⟨rfl, hsame⟩ | ⟨_, hp'⟩
    · cases hsame
      dsimp only at hissued
      have hgift := Option.some.inj hissued
      split at hgift
      · cases hgift
      · rename_i hnothing
        refine ⟨hid ▸ (giftVoucher_eq_some hgift).1, fun v' hv' hsame => hnothing ?_⟩
        exact List.any_eq_true.mpr ⟨v', hv', decide_eq_true hsame⟩
    · exact h.issuing id p' v hp' hissued

/-- The orders as a payment sees them are those committed, but for the status of its own. -/
theorem Paying.viewed (h : Paying w) (id : Nat) {o' : VoucherOrder}
    (ho' : o' ∈ (w.paying.view w.orders id).rows) :
    ∃ o ∈ w.orders.rows, o.voucher = o'.voucher ∧ o.id = o'.id ∧ o.userId = o'.userId ∧
      o.amount = o'.amount := by
  have hview : (w.paying.view w.orders id).find? o'.id = some o' := Table.find?_eq_some.mpr ⟨ho', rfl⟩
  rcases Drafts.find?_view_eq_some hview with ⟨o, d, ho, hd, _, hrow⟩ | ⟨ho, _⟩
  · obtain ⟨p, u, _, _, hu, hpaid⟩ := h.paying o'.id d hd
    obtain rfl := Option.some.inj (ho.symm.trans hu)
    rw [hpaid] at hrow
    exact ⟨o, (Table.find?_eq_some.mp ho).1, by rw [hrow]; exact ⟨rfl, rfl, rfl, rfl⟩⟩
  · exact ⟨o', (Table.find?_eq_some.mp ho).1, rfl, rfl, rfl, rfl⟩

theorem find?_view_isSome {id orderId : Nat} (hsome : (w.orders.find? orderId).isSome) :
    ((w.paying.view w.orders id).find? orderId).isSome := by
  rw [Drafts.find?_view, Option.isSome_map]
  exact hsome

/-- A payment commits: its order is published, and a voucher of that order, if any, is inserted. -/
theorem Paying.publish (h : Paying w) {id : Nat} {p : GiftPayment} (hp : w.payments id = some p)
    {vouchers : Table Voucher}
    (hvouchers : vouchers = w.vouchers ∨
      ∃ v, p.issued = some (some v) ∧ w.vouchers.insert? v = some vouchers) :
    Paying ({ w with orders := w.paying.view w.orders id, vouchers := vouchers }.endPayment id) := by
  have hnew : ∀ v' ∈ vouchers.rows, v' ∈ w.vouchers.rows ∨
      v'.purchaseId = some p.orderId ∧ ∀ u ∈ w.vouchers.rows, u.purchaseId ≠ some p.orderId := by
    intro v' hv'
    rcases hvouchers with rfl | ⟨v, hissued, hinsert⟩
    · exact .inl hv'
    · rw [(Table.insert?_eq_some hinsert).2] at hv'
      rcases List.mem_cons.mp hv' with rfl | hold
      · exact .inr (h.issuing id p _ hp hissued)
      · exact .inl hold
  refine ⟨?_, (h.endPayment id).payment, ?_, ?_, ?_⟩
  · intro orderId d hd
    obtain ⟨p', o, hp', hid, ho, hrow⟩ := (h.endPayment id).paying orderId d hd
    obtain ⟨hheld, hne⟩ := Drafts.release_eq_some.mp hd
    have hothers : ∀ e, w.paying orderId = some e → e.owner ≠ id := by
      intro e he
      obtain rfl := Option.some.inj (hheld.symm.trans he)
      exact hne
    exact ⟨p', o, hp', hid, (Drafts.find?_view_of_others hothers).trans ho, hrow⟩
  · intro id' p' v hp' hissued
    obtain ⟨hpurchase, hnone⟩ := (h.endPayment id).issuing id' p' v hp' hissued
    refine ⟨hpurchase, fun v' hv' hsame => ?_⟩
    rcases hnew v' hv' with hold | ⟨hown, _⟩
    · exact hnone v' hold hsame
    · rcases update_eq_some hp' with ⟨_, hgone⟩ | ⟨hne, hp'⟩
      · cases hgone
      · obtain ⟨d, hd, howner⟩ := h.payment id p hp
        obtain ⟨d', hd', howner'⟩ := h.payment id' p' hp'
        have hsameOrder : p.orderId = p'.orderId := Option.some.inj (hown.symm.trans hsame)
        exact hne (howner'.symm.trans ((Drafts.owner_unique hsameOrder hd hd').symm.trans howner))
  · intro v hv orderId hpurchase
    refine find?_view_isSome ?_
    rcases hnew v hv with hold | ⟨hown, _⟩
    · exact h.bought v hold orderId hpurchase
    · obtain ⟨d, hd, _⟩ := h.payment id p hp
      obtain ⟨_, o, _, _, ho, _⟩ := h.paying p.orderId d hd
      rw [← Option.some.inj (hown.symm.trans hpurchase), ho]
      rfl
  · intro v (hv : v ∈ vouchers.rows) v' (hv' : v' ∈ vouchers.rows) hsome hsame
    rcases hnew v hv with hold | ⟨hown, hfresh⟩
    · rcases hnew v' hv' with hold' | ⟨hown', hfresh'⟩
      · exact h.oneGift v hold v' hold' hsome hsame
      · exact absurd (hsame.trans hown') (hfresh' v hold)
    · rcases hnew v' hv' with hold' | ⟨hown', _⟩
      · exact absurd (hsame.symm.trans hown) (hfresh v' hold')
      · rcases hvouchers with rfl | ⟨u, _, hinsert⟩
        · exact absurd hown (hfresh v hv)
        · rw [(Table.insert?_eq_some hinsert).2] at hv hv'
          rcases List.mem_cons.mp hv with rfl | hold
          · rcases List.mem_cons.mp hv' with rfl | hold'
            · rfl
            · exact absurd hown' (hfresh v' hold')
          · exact absurd hown (hfresh v hold)

/-! ### One step -/

structure Inv (w : VoucherWorld) : Prop where
  redeeming : Redeeming w
  paying : Paying w

theorem find?_insert {ρ κ : Type} [Keyed ρ κ] [DecidableEq κ] {t t' : Table ρ} {r s : ρ} {k : κ}
    (hinsert : t.insert? r = some t') (hs : t.find? k = some s) : t'.find? k = some s := by
  obtain ⟨hmem, hkey⟩ := Table.find?_eq_some.mp hs
  have hne : key r ≠ k := fun h => (Table.insert?_eq_some hinsert).1 s hmem (hkey.trans h.symm)
  rw [Table.find?_of_insert? hinsert, if_neg hne]
  exact hs

theorem Forward.insert {v : Voucher} (hinsert : w.vouchers.insert? v = some w'.vouchers) : Forward w w' :=
  fun _ u hu => ⟨u, find?_insert hinsert hu, .inl rfl⟩

/-- Steps of the payments and of what is issued: no voucher that is there changes, and no order a voucher
paid for comes or goes. -/
theorem Redeeming.of_issue (h : Redeeming w) (hredemptions : w'.redemptions = w.redemptions)
    (hheld : w'.held = w.held) (husers : w'.users = w.users) (hclock : w'.clock = w.clock)
    (hvouchers : ∀ k v, w.vouchers.find? k = some v → w'.vouchers.find? k = some v)
    (horders : ∀ o' ∈ w'.orders.rows, ∀ k, o'.voucher = some k → ∃ o ∈ w.orders.rows, o.voucher = some k ∧
      o.id = o'.id ∧ o.userId = o'.userId ∧ o.amount = o'.amount) : Redeeming w' :=
  h.frame hredemptions hheld hclock.ge (fun _ u hu => ⟨u, husers ▸ hu, rfl⟩)
    (fun k v hv _ => hvouchers k v hv) horders

theorem Inv.placeOrder (hinv : Inv w) {request : ChallengeOrderRequest} {draw : VoucherDraw}
    (hplace : w.placeOrder request draw = some w') : Inv w' ∧ Forward w w' := by
  simp only [VoucherWorld.placeOrder, Option.bind_eq_bind, Option.bind_eq_some_iff, Option.guard_eq_some',
    exists_const] at hplace
  obtain ⟨-, orders, hinsert, hrest⟩ := hplace
  have hbought : ∀ o' ∈ orders.rows, ∀ k, o'.voucher = some k → ∃ o ∈ w.orders.rows, o.voucher = some k ∧
      o.id = o'.id ∧ o.userId = o'.userId ∧ o.amount = o'.amount := by
    intro o' ho' k hk
    rw [(Table.insert?_eq_some hinsert).2] at ho'
    rcases List.mem_cons.mp ho' with rfl | hold
    · cases hk
    · exact ⟨o', hold, hk, rfl, rfl, rfl⟩
  have hkept : ∀ orderId o, w.orders.find? orderId = some o → orders.find? orderId = some o :=
    fun _ _ ho => find?_insert hinsert ho
  split at hrest
  · cases hrest
    refine ⟨⟨hinv.redeeming.of_issue rfl rfl rfl rfl (fun _ _ hv => hv) hbought, ?_⟩, .of_eq rfl⟩
    refine hinv.paying.frame rfl rfl (fun orderId o ho => ?_) fun v hv => .inr ⟨v, hv, rfl, rfl⟩
    exact ⟨by rw [hkept orderId o ho]; rfl, fun _ => hkept orderId o ho⟩
  · rename_i v hgift
    obtain ⟨vouchers, hvouchers, rfl⟩ := Option.map_eq_some_iff.mp hrest
    have hpurchase : v.purchaseId = some request.row.id := by
      split at hgift
      · exact (giftVoucher_eq_some hgift).1
      · cases hgift
    have hunused : ∀ o, w.orders.find? request.row.id ≠ some o := by
      intro o ho
      obtain ⟨hmem, hid⟩ := Table.find?_eq_some.mp ho
      exact (Table.insert?_eq_some hinsert).1 o hmem hid
    have hfresh : ∀ u ∈ w.vouchers.rows, u.purchaseId ≠ some request.row.id := by
      intro u hu hsame
      obtain ⟨o, ho⟩ := Option.isSome_iff_exists.mp (hinv.paying.bought u hu _ hsame)
      exact hunused o ho
    have hrows := (Table.insert?_eq_some hvouchers).2
    refine ⟨⟨hinv.redeeming.of_issue rfl rfl rfl rfl (fun _ _ hu => find?_insert hvouchers hu) hbought, ?_⟩,
      .insert hvouchers⟩
    have h := hinv.paying
    refine ⟨?_, h.payment, ?_, ?_, ?_⟩
    · intro orderId d hd
      obtain ⟨p, o, hp, hid, ho, hrow⟩ := h.paying orderId d hd
      exact ⟨p, o, hp, hid, hkept orderId o ho, hrow⟩
    · intro id p u hp hissued
      obtain ⟨hown, hnone⟩ := h.issuing id p u hp hissued
      refine ⟨hown, fun v' (hv' : v' ∈ vouchers.rows) hsame => ?_⟩
      rcases List.mem_cons.mp (hrows ▸ hv') with rfl | hold
      · obtain ⟨d, hd, _⟩ := h.payment id p hp
        obtain ⟨_, o, _, _, ho, _⟩ := h.paying p.orderId d hd
        rw [← Option.some.inj (hpurchase.symm.trans hsame)] at ho
        exact hunused o ho
      · exact hnone v' hold hsame
    · intro u (hu : u ∈ vouchers.rows) orderId hown
      rcases List.mem_cons.mp (hrows ▸ hu) with rfl | hold
      · rw [← Option.some.inj (hpurchase.symm.trans hown)]
        have hnew := Table.find?_of_insert? hinsert request.row.id
        exact Option.isSome_iff_exists.mpr ⟨_, hnew.trans (if_pos rfl)⟩
      · obtain ⟨o, ho⟩ := Option.isSome_iff_exists.mp (h.bought u hold orderId hown)
        exact Option.isSome_iff_exists.mpr ⟨o, hkept orderId o ho⟩
    · intro u (hu : u ∈ vouchers.rows) u' (hu' : u' ∈ vouchers.rows) hsome hsame
      rcases List.mem_cons.mp (hrows ▸ hu) with rfl | hold
      · rcases List.mem_cons.mp (hrows ▸ hu') with rfl | hold'
        · rfl
        · exact absurd (hsame.symm.trans hpurchase) (hfresh u' hold')
      · rcases List.mem_cons.mp (hrows ▸ hu') with rfl | hold'
        · exact absurd (hsame.trans hpurchase) (hfresh u hold)
        · exact h.oneGift u hold u' hold' hsome hsame

theorem Inv.setOrderStatus (hinv : Inv w) {orderId : Nat} (status : OrderStatus)
    (hunheld : (w.paying orderId).isNone = true) :
    Inv { w with orders := w.orders.updateAt orderId (VoucherOrder.movedTo status) } := by
  refine ⟨hinv.redeeming.of_issue rfl rfl rfl rfl (fun _ _ hv => hv) ?_, ?_⟩
  · intro o' ho' k hk
    rcases Table.mem_updateAt ho' with hold | ⟨o, ho, _, rfl⟩
    · exact ⟨o', hold, hk, rfl, rfl, rfl⟩
    · exact ⟨o, ho, hk, rfl, rfl, rfl⟩
  · refine hinv.paying.frame rfl rfl (fun id o ho => ?_) fun v hv => .inr ⟨v, hv, rfl, rfl⟩
    refine ⟨by rw [Table.find?_updateAt, ho]; rfl, fun hheld => ?_⟩
    have hne : id ≠ orderId := by
      rintro rfl
      exact hheld (Option.isNone_iff_eq_none.mp hunheld)
    rw [Table.find?_updateAt, ho, Option.map_some, if_neg hne]

theorem Inv.commitPayment (hinv : Inv w) {id : Nat} {p : GiftPayment} (hp : w.payments id = some p)
    (hcommit : w.commitPayment id p = some w') : Inv w' ∧ Forward w w' := by
  unfold VoucherWorld.commitPayment at hcommit
  dsimp only at hcommit
  have horders : ∀ o' ∈ (w.paying.view w.orders id).rows, ∀ k, o'.voucher = some k → ∃ o ∈ w.orders.rows,
      o.voucher = some k ∧ o.id = o'.id ∧ o.userId = o'.userId ∧ o.amount = o'.amount := by
    intro o' ho' k hk
    obtain ⟨o, ho, hvoucher, hrest⟩ := hinv.paying.viewed id ho'
    exact ⟨o, ho, hvoucher.trans hk, hrest⟩
  split at hcommit
  · cases hcommit
  · cases hcommit
    exact ⟨⟨hinv.redeeming.of_issue rfl rfl rfl rfl (fun _ _ hv => hv) horders,
      hinv.paying.publish hp (.inl rfl)⟩, .of_eq rfl⟩
  · rename_i v hissued
    obtain ⟨vouchers, hinsert, rfl⟩ := Option.map_eq_some_iff.mp hcommit
    exact ⟨⟨hinv.redeeming.of_issue rfl rfl rfl rfl (fun _ _ hu => find?_insert hinsert hu) horders,
      hinv.paying.publish hp (.inr ⟨v, hissued, hinsert⟩)⟩, .insert hinsert⟩

/-- What a redemption leaves in the tables is the same set of vouchers, bought with the same orders. -/
theorem Redeeming.viewed (h : Redeeming w) (id : Nat) {v' : Voucher}
    (hv' : v' ∈ (w.held.view w.vouchers id).rows) :
    ∃ v ∈ w.vouchers.rows, key v = key v' ∧ v.purchaseId = v'.purchaseId := by
  have hview : (w.held.view w.vouchers id).find? (key v') = some v' := Table.find?_eq_some.mpr ⟨hv', rfl⟩
  rcases Drafts.find?_view_eq_some hview with ⟨v, d, hv, hd, _, hrow⟩ | ⟨hv, _⟩
  · obtain ⟨r, u, _, _, hu, hdraft⟩ := h.held _ d hd
    obtain rfl := Option.some.inj (hv.symm.trans hu)
    obtain ⟨hmem, hkey⟩ := Table.find?_eq_some.mp hv
    refine ⟨v, hmem, hkey, ?_⟩
    unfold Redemption.DraftOf at hdraft
    cases hstage : r.stage with
    | looking kinds =>
      rw [hstage] at hdraft
      exact hdraft.elim
    | locked kind =>
      rw [hstage] at hdraft
      rw [hrow, hdraft.1]
    | expiring kind =>
      rw [hstage] at hdraft
      rw [hrow, hdraft.2]
      rfl
    | redeeming kind order =>
      rw [hstage] at hdraft
      rw [hrow, hdraft.2.1]
      rfl
  · exact ⟨v', (Table.find?_eq_some.mp hv).1, rfl, rfl⟩

/-- Steps of a redemption before its commit touch nothing of a payment. -/
theorem Paying.of_redemption (h : Paying w) (hpayments : w'.payments = w.payments)
    (hpaying : w'.paying = w.paying) (horders : w'.orders = w.orders) (hvouchers : w'.vouchers = w.vouchers) :
    Paying w' :=
  h.frame hpayments hpaying (fun _ o ho => by rw [horders, ho]; exact ⟨rfl, fun _ => rfl⟩)
    fun v hv => .inr ⟨v, hvouchers ▸ hv, rfl, rfl⟩

theorem Inv.commitRedemption (hinv : Inv w) {id : Nat} {r : Redemption} (hr : w.redemptions id = some r)
    (hcommit : w.commitRedemption id r = some w') : Inv w' ∧ Forward w w' := by
  have hredeeming := hinv.redeeming.commitRedemption hr hcommit
  unfold VoucherWorld.commitRedemption at hcommit
  dsimp only at hcommit
  have hforward : ∀ k v, w.vouchers.find? k = some v →
      ∃ v', (w.held.view w.vouchers id).find? k = some v' ∧ v.Follows v' :=
    fun _ _ hv => hinv.redeeming.published id hv
  split at hcommit
  · cases hcommit
    refine ⟨⟨hredeeming, ?_⟩, hforward⟩
    exact hinv.paying.frame rfl rfl (fun _ o ho => ⟨Option.isSome_iff_exists.mpr ⟨o, ho⟩, fun _ => ho⟩)
      fun v hv => .inr (hinv.redeeming.viewed id hv)
  · obtain ⟨orders, hinsert, rfl⟩ := Option.map_eq_some_iff.mp hcommit
    refine ⟨⟨hredeeming, ?_⟩, hforward⟩
    refine hinv.paying.frame rfl rfl (fun orderId o ho => ?_) fun v hv => .inr (hinv.redeeming.viewed id hv)
    have hkept : orders.find? orderId = some o := find?_insert hinsert ho
    exact ⟨Option.isSome_iff_exists.mpr ⟨o, hkept⟩, fun _ => hkept⟩
  all_goals cases hcommit

theorem Inv.revoke (hinv : Inv w) {code : String} (hunheld : (w.held (.gift, code)).isNone = true)
    {issued : Voucher → Bool} (hissued : ∀ v, issued v = true ↔ key v = (.gift, code) ∧ v.status = .issued) :
    Inv { w with vouchers := w.vouchers.update issued (Voucher.movedTo .revoked) } ∧
      Forward w { w with vouchers := w.vouchers.update issued (Voucher.movedTo .revoked) } := by
  refine ⟨⟨?_, ?_⟩, ?_⟩
  · refine hinv.redeeming.frame rfl rfl le_rfl (fun _ u hu => ⟨u, hu, rfl⟩) (fun k v hv hkeep => ?_)
      fun o ho k hk => ⟨o, ho, hk, rfl, rfl, rfl⟩
    have hnot : ¬ issued v = true := by
      intro h
      obtain ⟨hkey, hstatus⟩ := (hissued v).mp h
      rcases hkeep with hheld | hdone
      · rw [← (Table.find?_eq_some.mp hv).2, hkey] at hheld
        exact hheld (Option.isNone_iff_eq_none.mp hunheld)
      · exact hdone hstatus
    rw [Table.find?_update, hv, Option.map_some, if_neg hnot]
  · refine hinv.paying.frame rfl rfl (fun _ o ho => ⟨Option.isSome_iff_exists.mpr ⟨o, ho⟩, fun _ => ho⟩)
      fun v' hv' => .inr ?_
    obtain ⟨v, hv, rfl⟩ := List.mem_map.mp hv'
    refine ⟨v, hv, ?_⟩
    split <;> exact ⟨rfl, rfl⟩
  · intro k v hv
    refine ⟨_, by rw [Table.find?_update, hv]; rfl, ?_⟩
    by_cases h : issued v = true
    · exact .inr ((hissued v).mp h).2
    · exact .inl (if_neg h)

theorem Inv.of_redemption (hinv : Inv w) (hredeeming : Redeeming w') (hpayments : w'.payments = w.payments)
    (hpaying : w'.paying = w.paying) (horders : w'.orders = w.orders) (hvouchers : w'.vouchers = w.vouchers) :
    Inv w' ∧ Forward w w' :=
  ⟨⟨hredeeming, hinv.paying.of_redemption hpayments hpaying horders hvouchers⟩, .of_eq hvouchers⟩

theorem Inv.of_payment (hinv : Inv w) (hpaying : Paying w') (hredemptions : w'.redemptions = w.redemptions)
    (hheld : w'.held = w.held) (husers : w'.users = w.users) (hclock : w'.clock = w.clock)
    (horders : w'.orders = w.orders) (hvouchers : w'.vouchers = w.vouchers) : Inv w' ∧ Forward w w' :=
  ⟨⟨hinv.redeeming.of_issue hredemptions hheld husers hclock (fun _ _ hv => hvouchers ▸ hv)
    fun o ho _ hk => ⟨o, horders ▸ ho, hk, rfl, rfl, rfl⟩, hpaying⟩, .of_eq hvouchers⟩

theorem Inv.users (hinv : Inv w) {users : Table PlatformUser}
    (husers : ∀ id u, w.users.find? id = some u → ∃ u', users.find? id = some u' ∧ u'.email = u.email) :
    Inv { w with users := users } ∧ Forward w { w with users := users } :=
  ⟨⟨hinv.redeeming.frame rfl rfl le_rfl husers (fun _ _ hv _ => hv)
      fun o ho _ hk => ⟨o, ho, hk, rfl, rfl, rfl⟩,
    hinv.paying.of_redemption rfl rfl rfl rfl⟩, .of_eq rfl⟩

theorem lookUp_frame {id : Nat} {r : Redemption} (hlook : w.lookUp id r = some w') :
    w'.payments = w.payments ∧ w'.paying = w.paying ∧ w'.orders = w.orders ∧ w'.vouchers = w.vouchers := by
  unfold VoucherWorld.lookUp at hlook
  split at hlook
  · cases hlook
    exact ⟨rfl, rfl, rfl, rfl⟩
  · split at hlook
    · cases hlook
      exact ⟨rfl, rfl, rfl, rfl⟩
    · obtain ⟨_, _, hsome⟩ := Option.bind_eq_some_iff.mp hlook
      cases hsome
      exact ⟨rfl, rfl, rfl, rfl⟩
  all_goals cases hlook

theorem redeem_frame {id : Nat} {r : Redemption} {models : List String} {orderId : Nat}
    (hredeem : w.redeem id r models orderId = some w') :
    w'.payments = w.payments ∧ w'.paying = w.paying ∧ w'.orders = w.orders ∧ w'.vouchers = w.vouchers := by
  unfold VoucherWorld.redeem at hredeem
  split at hredeem
  · obtain ⟨v, _, hrest⟩ := Option.bind_eq_some_iff.mp hredeem
    dsimp only at hrest
    split_ifs at hrest
    all_goals
      cases hrest
      exact ⟨rfl, rfl, rfl, rfl⟩
  all_goals cases hredeem

theorem Inv.step (hinv : Inv w) {action : VoucherAction} (hstep : w.step action = some w') :
    Inv w' ∧ Forward w w' := by
  cases action with
  | register user =>
    obtain ⟨users, hinsert, rfl⟩ := Option.map_eq_some_iff.mp hstep
    exact hinv.users fun id u hu => ⟨u, find?_insert hinsert hu, rfl⟩
  | verifyEmail userId =>
    cases hstep
    refine hinv.users fun id u hu => ⟨_, by rw [Table.find?_updateAt, hu]; rfl, ?_⟩
    dsimp only
    split <;> rfl
  | placeOrder request draw => exact hinv.placeOrder hstep
  | setOrderStatus orderId status =>
    obtain ⟨hunheld, rfl⟩ := Option.ite_some_none_eq_some.mp hstep
    exact ⟨hinv.setOrderStatus status hunheld, .of_eq rfl⟩
  | beginPayment paymentId orderId =>
    have hpaying := hinv.paying.beginPayment hstep
    simp only [VoucherWorld.step, VoucherWorld.beginPayment, Option.bind_eq_bind, Option.bind_eq_some_iff,
      Option.some.injEq] at hstep
    obtain ⟨_, _, _, _, _, _, rfl⟩ := hstep
    exact hinv.of_payment hpaying rfl rfl rfl rfl rfl rfl
  | issueGift paymentId draw =>
    obtain ⟨p, hp, hissue⟩ := Option.bind_eq_some_iff.mp hstep
    have hpaying := hinv.paying.issueGift hp hissue
    simp only [VoucherWorld.issueGift, Option.bind_eq_bind, Option.bind_eq_some_iff,
      Option.some.injEq] at hissue
    obtain ⟨_, _, _, _, rfl⟩ := hissue
    exact hinv.of_payment hpaying rfl rfl rfl rfl rfl rfl
  | commitPayment paymentId =>
    obtain ⟨p, hp, hcommit⟩ := Option.bind_eq_some_iff.mp hstep
    exact hinv.commitPayment hp hcommit
  | rollbackPayment paymentId =>
    cases hstep
    exact hinv.of_payment (hinv.paying.endPayment paymentId) rfl rfl rfl rfl rfl rfl
  | issuePrize kind code userId accountSize slug expiresAt =>
    simp only [VoucherWorld.step] at hstep
    split at hstep
    · cases hstep
    · obtain ⟨vouchers, hinsert, rfl⟩ := Option.map_eq_some_iff.mp hstep
      refine ⟨⟨hinv.redeeming.of_issue rfl rfl rfl rfl (fun _ _ hu => find?_insert hinsert hu)
        fun o ho _ hk => ⟨o, ho, hk, rfl, rfl, rfl⟩, ?_⟩, .insert hinsert⟩
      refine hinv.paying.frame rfl rfl (fun _ o ho => ⟨Option.isSome_iff_exists.mpr ⟨o, ho⟩, fun _ => ho⟩)
        fun v (hv : v ∈ vouchers.rows) => ?_
      rcases List.mem_cons.mp ((Table.insert?_eq_some hinsert).2 ▸ hv) with rfl | hold
      · exact .inl rfl
      · exact .inr ⟨v, hold, rfl, rfl⟩
  | beginRedemption redemptionId userId code =>
    simp only [VoucherWorld.step, Option.bind_eq_bind, Option.bind_eq_some_iff, Option.guard_eq_some',
      exists_const, Option.some.injEq] at hstep
    obtain ⟨hunused, u, hu, -, rfl⟩ := hstep
    have huser : ∃ u', w.users.find? u.id = some u' ∧ u'.email = u.email :=
      ⟨u, Table.find?_eq_some.mpr ⟨(Table.find?_eq_some.mp hu).1, rfl⟩, rfl⟩
    have hnone := Option.isNone_iff_eq_none.mp hunused
    exact hinv.of_redemption (hinv.redeeming.begin hnone rfl le_rfl huser) rfl rfl rfl rfl
  | lookUp redemptionId =>
    obtain ⟨r, hr, hlook⟩ := Option.bind_eq_some_iff.mp hstep
    obtain ⟨hpayments, hpaying, horders, hvouchers⟩ := lookUp_frame hlook
    exact hinv.of_redemption (hinv.redeeming.lookUp hr hlook) hpayments hpaying horders hvouchers
  | redeem redemptionId models orderId =>
    obtain ⟨r, hr, hredeem⟩ := Option.bind_eq_some_iff.mp hstep
    obtain ⟨hpayments, hpaying, horders, hvouchers⟩ := redeem_frame hredeem
    exact hinv.of_redemption (hinv.redeeming.redeem hr hredeem) hpayments hpaying horders hvouchers
  | commitRedemption redemptionId =>
    obtain ⟨r, hr, hcommit⟩ := Option.bind_eq_some_iff.mp hstep
    exact hinv.commitRedemption hr hcommit
  | rollbackRedemption redemptionId =>
    cases hstep
    exact hinv.of_redemption (hinv.redeeming.endRedemption redemptionId) rfl rfl rfl rfl
  | revoke code =>
    obtain ⟨hunheld, rfl⟩ := Option.ite_some_none_eq_some.mp hstep
    exact hinv.revoke hunheld fun v => by rw [decide_eq_true_eq]
  | tick seconds =>
    cases hstep
    refine ⟨⟨hinv.redeeming.frame rfl rfl (Nat.le_add_right ..) (fun _ u hu => ⟨u, hu, rfl⟩)
      (fun _ _ hv _ => hv) fun o ho _ hk => ⟨o, ho, hk, rfl, rfl, rfl⟩, ?_⟩, .of_eq rfl⟩
    exact hinv.paying.of_redemption rfl rfl rfl rfl

/-! ### Runs -/

/-- No order has been placed and no voucher issued. -/
structure Start (w : VoucherWorld) : Prop where
  orders : w.orders.rows = []
  vouchers : w.vouchers.rows = []
  held : ∀ k, w.held k = none
  paying : ∀ orderId, w.paying orderId = none
  redemptions : ∀ id, w.redemptions id = none
  payments : ∀ id, w.payments id = none

theorem Start.inv (hstart : Start w) : Inv w := by
  have horders : ∀ o, o ∉ w.orders.rows := fun o => hstart.orders ▸ List.not_mem_nil
  have hvouchers : ∀ v, v ∉ w.vouchers.rows := fun v => hstart.vouchers ▸ List.not_mem_nil
  refine ⟨⟨?_, ?_, ?_, ?_⟩, ⟨?_, ?_, ?_, ?_, ?_⟩⟩
  · exact fun id _ hr => nomatch (hstart.redemptions id).symm.trans hr
  · exact fun k _ hd => nomatch (hstart.held k).symm.trans hd
  · exact fun id _ _ hr => nomatch (hstart.redemptions id).symm.trans hr
  · exact fun o ho => absurd ho (horders o)
  · exact fun orderId _ hd => nomatch (hstart.paying orderId).symm.trans hd
  · exact fun id _ hp => nomatch (hstart.payments id).symm.trans hp
  · exact fun id _ _ hp => nomatch (hstart.payments id).symm.trans hp
  · exact fun v hv => absurd hv (hvouchers v)
  · exact fun v hv => absurd hv (hvouchers v)

/-- No two orders come from one voucher, and each from one redeemed for it in time by whom it is meant for;
a voucher that has expired or been revoked has none. No two gifts were bought with one order. -/
structure Sound (w : VoucherWorld) : Prop where
  oneOrder : ∀ o ∈ w.orders.rows, ∀ o' ∈ w.orders.rows, o.voucher.isSome → o.voucher = o'.voucher → o = o'
  redeemed : ∀ o ∈ w.orders.rows, ∀ k, o.voucher = some k →
    ∃ v ∈ w.vouchers.rows, key v = k ∧ v.Redeemed w.users o
  dead : ∀ v ∈ w.vouchers.rows, v.status = .expired ∨ v.status = .revoked →
    ∀ o ∈ w.orders.rows, o.voucher ≠ some (key v)
  oneGift : ∀ v ∈ w.vouchers.rows, ∀ v' ∈ w.vouchers.rows, v.purchaseId.isSome →
    v.purchaseId = v'.purchaseId → v = v'

theorem Inv.sound (hinv : Inv w) : Sound w where
  oneOrder := by
    intro o ho o' ho' hsome hsame
    obtain ⟨k, hk⟩ := Option.isSome_iff_exists.mp hsome
    obtain ⟨v, hv, hredeemed⟩ := hinv.redeeming.redeemed o ho k hk
    obtain ⟨v', hv', hredeemed'⟩ := hinv.redeeming.redeemed o' ho' k (hsame ▸ hk)
    obtain rfl := Option.some.inj (hv.symm.trans hv')
    have hid : o.id = o'.id := Option.some.inj (hredeemed.order.symm.trans hredeemed'.order)
    have hrow : w.orders.find? o.id = some o := Table.find?_eq_some.mpr ⟨ho, rfl⟩
    exact Option.some.inj (hrow.symm.trans (Table.find?_eq_some.mpr ⟨ho', hid.symm⟩))
  redeemed := by
    intro o ho k hk
    obtain ⟨v, hv, hredeemed⟩ := hinv.redeeming.redeemed o ho k hk
    obtain ⟨hmem, hkey⟩ := Table.find?_eq_some.mp hv
    exact ⟨v, hmem, hkey, hredeemed⟩
  dead := by
    intro v hv hdead o ho hk
    obtain ⟨v', hv', hredeemed⟩ := hinv.redeeming.redeemed o ho _ hk
    have hrow : w.vouchers.find? (key v) = some v := Table.find?_eq_some.mpr ⟨hv, rfl⟩
    obtain rfl := Option.some.inj (hrow.symm.trans hv')
    rw [hredeemed.status] at hdead
    rcases hdead with h | h <;> cases h
  oneGift := by
    intro v hv v' hv' hsome hsame
    have hkey := hinv.paying.oneGift v hv v' hv' hsome hsame
    have hrow : w.vouchers.find? (key v) = some v := Table.find?_eq_some.mpr ⟨hv, rfl⟩
    exact Option.some.inj (hrow.symm.trans (Table.find?_eq_some.mpr ⟨hv', hkey.symm⟩))

theorem Forward.trans {w'' : VoucherWorld} (h : Forward w w') (h' : Forward w' w'') : Forward w w'' := by
  intro k v hv
  obtain ⟨v', hv', hfollows⟩ := h k v hv
  obtain ⟨v'', hv'', hfollows'⟩ := h' k v' hv'
  refine ⟨v'', hv'', ?_⟩
  rcases hfollows with rfl | hissued
  · exact hfollows'
  · exact .inr hissued

theorem forward_of_run {actions : List VoucherAction} (hinv : Inv w) (hrun : run step w actions = some w') :
    Forward w w' := by
  induction actions generalizing w with
  | nil => exact .of_eq (congrArg vouchers (Option.some.inj hrun)).symm
  | cons action actions ih =>
    obtain ⟨mid, hstep, hrest⟩ := Option.bind_eq_some_iff.mp hrun
    obtain ⟨hmid, hforward⟩ := hinv.step hstep
    exact hforward.trans (ih hmid hrest)

theorem inv_of_reach (hreach : Reach step (fun _ _ => True) Start w) : Inv w :=
  Reach.invariant (fun _ => Start.inv) (fun _ _ _ hinv _ hstep => (hinv.step hstep).1) hreach

/-- Whatever is requested, issued, expired and revoked in whatever order, the vouchers are sound, and from
any state on a voucher that is no longer issued stays as it is. -/
theorem vouchersSound (hreach : Reach step (fun _ _ => True) Start w) :
    Sound w ∧ ∀ actions w', run step w actions = some w' → Forward w w' :=
  ⟨(inv_of_reach hreach).sound, fun _ _ hrun => forward_of_run (inv_of_reach hreach) hrun⟩

def emptyWorld : VoucherWorld :=
  ⟨.empty, .empty, .empty, .empty, .empty, fun _ => none, fun _ => none, 0⟩

/-- Two webhooks report the payment of a gift, whose code two accounts then try at once; the account it was
not sent to is refused on the locked row, and a third attempt finds the voucher redeemed. A prize expires. -/
def contendedGift : List VoucherAction :=
  [.register ⟨1, "buyer@mail", true⟩, .register ⟨2, "friend@mail", true⟩,
    .placeOrder ⟨1, 1, "buyer@mail", 10000, "two-step", 100, some "friend@mail"⟩ ⟨"GIFT-1", 0, none⟩,
    .beginPayment 1 1, .issueGift 1 ⟨"GIFT-1", 0, none⟩, .commitPayment 1,
    .beginPayment 2 1, .issueGift 2 ⟨"GIFT-2", 0, none⟩, .commitPayment 2,
    .beginRedemption 1 1 "GIFT-1", .beginRedemption 2 2 "GIFT-1",
    .lookUp 1, .lookUp 1, .lookUp 2, .lookUp 2, .lookUp 1, .redeem 1 ["two-step"] 7,
    .lookUp 2, .redeem 2 ["two-step"] 8, .commitRedemption 2,
    .beginRedemption 3 2 "GIFT-1", .lookUp 3, .lookUp 3, .lookUp 3, .redeem 3 ["two-step"] 9,
    .issuePrize .competition "COMP-1" 2 5000 "two-step" (some 10), .tick 20,
    .beginRedemption 4 2 "COMP-1", .lookUp 4, .redeem 4 ["two-step"] 10, .commitRedemption 4]

theorem contendedGift_sound :
    ∃ w, run step emptyWorld contendedGift = some w ∧
      w.vouchers.rows.map (fun v => (v.code, v.status, v.redeemedOrderId))
        = [("COMP-1", .expired, none), ("GIFT-1", .redeemed, some 8)] ∧
      w.orders.rows.map (fun o => (o.id, o.userId, o.amount)) = [(8, 2, 0), (1, 1, 100)] ∧ Sound w := by
  obtain ⟨w, hrun, htest⟩ := exists_of_run_any step emptyWorld contendedGift
    (fun w => decide (w.vouchers.rows.map (fun v => (v.code, v.status, v.redeemedOrderId))
        = [("COMP-1", .expired, none), ("GIFT-1", .redeemed, some 8)]) &&
      decide (w.orders.rows.map (fun o => (o.id, o.userId, o.amount)) = [(8, 2, 0), (1, 1, 100)]))
    (by decide +kernel)
  rw [Bool.and_eq_true, decide_eq_true_eq, decide_eq_true_eq] at htest
  have hstart : Start emptyWorld :=
    ⟨rfl, rfl, fun _ => rfl, fun _ => rfl, fun _ => rfl, fun _ => rfl⟩
  exact ⟨w, hrun, htest.1, htest.2,
    (vouchersSound (.of_run (.init hstart) (.of_forall fun _ _ _ => trivial) hrun)).1⟩

end VoucherWorld

end PropFirm
