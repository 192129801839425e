import Mathlib
import PropFirm.Lib.Transition
import PropFirm.OrderSystem

/-!
# The discount of a referred user's first purchase

`POST /accounts/orders` decides on the discount before its transaction begins: the user is referred, and none
of his orders is paid. It takes no lock, and the order is paid by a webhook at any later time, or is free and
paid from the start. Orders and their payments are those of the other modules; `discounted` are the orders
whose metadata say that the discount was applied.
-/

namespace PropFirm

open Transition

/-- The settings of the affiliate program; a missing percentage is zero. -/
structure ReferralSettings where
  affiliateProgramEnabled : Bool
  referredDiscountPct : ℚ

/-- `Math.round` of the price less the percentage, in cents; a negative amount is as free as none. -/
def discountedAmount (price : ℕ) (pct : ℚ) : ℕ := ⌊(price : ℚ) * (1 - pct / 100) + 1 / 2⌋.toNat

/-- A request that has decided on the discount. -/
structure DecidedRequest where
  request : ChallengeOrderRequest
  discounted : Bool

structure DiscountWorld where
  db : OrderDb
  referred : List ℕ
  discounted : List ℕ
  decided : List DecidedRequest

/-- `coupon` gives the amount a request's coupon leaves, or refuses the coupon. -/
inductive DiscountAction
  | refer (userId : ℕ)
  | decide (request : ChallengeOrderRequest) (settings : ReferralSettings)
  | place (n : ℕ) (coupon : ℕ → Option ℕ) (draw : VoucherDraw)
  | drop (n : ℕ)
  | pay (orderId : ℕ) (payment : PaymentContext) (providerPaymentId : String)
  | abandon (orderId : ℕ)
  | reverse (found : Option ChallengeOrder) (status : OrderStatus)
  | redeem (models : List String) (request : VoucherRequest)
  | prize (id userId accountSize : ℕ) (slug : String)

namespace DiscountWorld

/-- `SELECT 1 FROM challenge_orders WHERE user_id = $1 AND status = 'paid'`. -/
def PriorPaidOrder (w : DiscountWorld) (userId : ℕ) : Prop :=
  ∃ o ∈ w.db.orders.rows, o.userId = userId ∧ o.status = .paid

instance (w : DiscountWorld) (userId : ℕ) : Decidable (w.PriorPaidOrder userId) :=
  inferInstanceAs (Decidable (∃ o ∈ w.db.orders.rows, _))

/-- The amount of a request is the price of the model and the size. -/
def decideDiscount (w : DiscountWorld) (request : ChallengeOrderRequest) (settings : ReferralSettings) :
    DecidedRequest :=
  if settings.affiliateProgramEnabled ∧ request.userId ∈ w.referred ∧ ¬w.PriorPaidOrder request.userId ∧
      0 < settings.referredDiscountPct then
    ⟨{ request with amount := discountedAmount request.amount settings.referredDiscountPct }, true⟩
  else ⟨request, false⟩

/-- The transaction. -/
def placeDecided (w : DiscountWorld) (n : ℕ) (coupon : ℕ → Option ℕ) (draw : VoucherDraw) :
    Option DiscountWorld := do
  let entry ← w.decided[n]?
  let amount ← coupon entry.request.amount
  let db ← placeOrder w.db { entry.request with amount := amount } draw
  return {
    w with
    db := db
    discounted := if entry.discounted then entry.request.id :: w.discounted else w.discounted
    decided := w.decided.eraseIdx n }

def step (w : DiscountWorld) : DiscountAction → Option DiscountWorld
  | .refer userId => some { w with referred := userId :: w.referred }
  | .decide request settings => some { w with decided := w.decided ++ [w.decideDiscount request settings] }
  | .place n coupon draw => w.placeDecided n coupon draw
  | .drop n => some { w with decided := w.decided.eraseIdx n }
  | .pay orderId payment providerPaymentId =>
    (markChallengeOrderPaid w.db payment orderId providerPaymentId).map fun db => { w with db := db }
  | .abandon orderId => some { w with db := handleSessionAbandoned w.db orderId }
  | .reverse found status =>
    if status.Reversed then some { w with db := handleChargeReversal w.db found status } else none
  | .redeem models request => some { w with db := (redeemGiftVoucher w.db models request).1 }
  | .prize id userId accountSize slug =>
    (redeemPrize w.db id userId accountSize slug).map fun db => { w with db := db }

/-- An order that is paid and carries the discount. -/
def Spent (w : DiscountWorld) (o : ChallengeOrder) : Prop :=
  o ∈ w.db.orders.rows ∧ o.status = .paid ∧ o.id ∈ w.discounted

/-- At most one order of a user is paid and carries the discount. -/
def DiscountOnce (w : DiscountWorld) : Prop :=
  ∀ o o', w.Spent o → w.Spent o' → o.userId = o'.userId → o.id = o'.id

instance : DecidablePred DiscountOnce := fun w =>
  decidable_of_iff (∀ o ∈ w.db.orders.rows, ∀ o' ∈ w.db.orders.rows, o.status = .paid ∧ o.id ∈ w.discounted →
      o'.status = .paid ∧ o'.id ∈ w.discounted → o.userId = o'.userId → o.id = o'.id)
    ⟨fun h o o' ho ho' => h o ho.1 o' ho'.1 ho.2 ho'.2, fun h o ho o' ho' hs hs' => h o o' ⟨ho, hs⟩ ⟨ho', hs'⟩⟩

/-- The step gives a user's paid orders one with the discount: a free order that is placed, or the one that a
webhook finds payable. -/
def Spends (w : DiscountWorld) (userId orderId : ℕ) : DiscountAction → Prop
  | .place n coupon _ => ∃ entry ∈ w.decided[n]?, entry.discounted = true ∧
      coupon entry.request.amount = some 0 ∧ entry.request.userId = userId ∧ entry.request.id = orderId
  | .pay id _ _ => ∃ o ∈ w.db.order? id, ¬(o.status.Reversed ∨ o.status = .cancelled) ∧
      o.id ∈ w.discounted ∧ o.userId = userId ∧ o.id = orderId
  | _ => False

/-- The user has no other paid order with the discount when an order of his with it becomes paid. -/
def SpendsFirst (w : DiscountWorld) (a : DiscountAction) : Prop :=
  ∀ userId orderId, w.Spends userId orderId a → ∀ o, w.Spent o → o.userId = userId → o.id = orderId

/-- No order carries the discount yet, and no request has decided on it. -/
def Start (w : DiscountWorld) : Prop := w.discounted = [] ∧ w.decided = []

/-! ### One step -/

/-- Every order that carries the discount is there. -/
def Inv (w : DiscountWorld) : Prop := ∀ id ∈ w.discounted, ∃ o ∈ w.db.orders.rows, o.id = id

section Step

variable {w w' : DiscountWorld}

theorem Spent.unique {o o' : ChallengeOrder} (ho : w.Spent o) (ho' : w.Spent o') (hid : o.id = o'.id) : o = o' :=
  List.inj_on_of_nodup_map w.db.orders.nodup ho.1 ho'.1 hid

/-- A step by which no order comes to be spent. -/
theorem DiscountOnce.of_spent (honce : w.DiscountOnce) (hspent : ∀ o, w'.Spent o → w.Spent o) :
    w'.DiscountOnce := fun o o' ho ho' huser => honce o o' (hspent o ho) (hspent o' ho') huser

/-- A step by which one order does. -/
theorem once_iff_first (honce : w.DiscountOnce) {new : ChallengeOrder} (hnew : w'.Spent new)
    (hback : ∀ o, w'.Spent o → o = new ∨ w.Spent o) (hkept : ∀ o, w.Spent o → o.id ≠ new.id → w'.Spent o) :
    w'.DiscountOnce ↔ ∀ o, w.Spent o → o.userId = new.userId → o.id = new.id := by
  constructor
  · intro honce' o ho huser
    by_contra hid
    exact hid (honce' o new (hkept o ho hid) hnew huser)
  · intro hfirst o o' ho ho' huser
    rcases hback o ho with rfl | ho
    · rcases hback o' ho' with rfl | ho'
      · rfl
      · exact (hfirst o' ho' huser.symm).symm
    · rcases hback o' ho' with rfl | ho'
      · exact hfirst o ho huser
      · exact honce o o' ho ho' huser

theorem Inv.of_updateAt (hinv : w.Inv) {id : ℕ} {f : Table.Rewrite ChallengeOrder}
    (horders : w'.db.orders = w.db.orders.updateAt id f) (hdiscounted : w'.discounted = w.discounted) :
    w'.Inv := by
  intro i hi
  obtain ⟨o, ho, rfl⟩ := hinv i (hdiscounted ▸ hi)
  rw [horders]
  refine ⟨_, List.mem_map.mpr ⟨o, ho, rfl⟩, ?_⟩
  split
  · exact f.key_apply o
  · rfl

theorem Inv.of_insert (hinv : w.Inv) {row : ChallengeOrder} {orders : Table ChallengeOrder}
    (hinsert : w.db.orders.insert? row = some orders) (horders : w'.db.orders = orders)
    (hdiscounted : ∀ id ∈ w'.discounted, id = row.id ∨ id ∈ w.discounted) : w'.Inv := by
  intro i hi
  rw [horders, (Table.insert?_eq_some hinsert).2]
  rcases hdiscounted i hi with rfl | hi
  · exact ⟨row, List.mem_cons_self, rfl⟩
  · obtain ⟨o, ho, hid⟩ := hinv i hi
    exact ⟨o, List.mem_cons_of_mem _ ho, hid⟩

/-- What one step keeps: the invariant, and the property exactly where it spends first. -/
structure Keeps (w w' : DiscountWorld) (a : DiscountAction) : Prop where
  inv : w'.Inv
  once : w.DiscountOnce → (w'.DiscountOnce ↔ w.SpendsFirst a)

theorem Keeps.quiet {a : DiscountAction} (hinv : w'.Inv) (hspent : ∀ o, w'.Spent o → w.Spent o)
    (hnone : ∀ userId orderId, ¬w.Spends userId orderId a) : Keeps w w' a where
  inv := hinv
  once honce := iff_of_true (honce.of_spent hspent) fun userId orderId h => (hnone userId orderId h).elim

/-- An order is moved to a status that is not paid. -/
theorem Keeps.moved (hinv : w.Inv) {a : DiscountAction} {id : ℕ} {status : OrderStatus} (hstatus : status ≠ .paid)
    (horders : w'.db.orders = w.db.orders.updateAt id (ChallengeOrder.movedTo status))
    (hdiscounted : w'.discounted = w.discounted) (hnone : ∀ userId orderId, ¬w.Spends userId orderId a) :
    Keeps w w' a := by
  refine .quiet (hinv.of_updateAt horders hdiscounted) ?_ hnone
  rintro o ⟨hmem, hpaid, hid⟩
  rw [horders] at hmem
  refine ⟨Table.mem_of_mem_update hmem fun s hs => ?_, hpaid, hdiscounted ▸ hid⟩
  exact hstatus ((congrArg ChallengeOrder.status hs).trans hpaid)

/-- An order comes without the discount, under an id of its own. -/
theorem Keeps.inserted (hinv : w.Inv) {a : DiscountAction} {row : ChallengeOrder} {orders : Table ChallengeOrder}
    (hinsert : w.db.orders.insert? row = some orders) (horders : w'.db.orders = orders)
    (hdiscounted : w'.discounted = w.discounted) (hnone : ∀ userId orderId, ¬w.Spends userId orderId a) :
    Keeps w w' a := by
  refine .quiet (hinv.of_insert hinsert horders fun id hid => .inr (hdiscounted ▸ hid)) ?_ hnone
  rintro o ⟨hmem, hpaid, hid⟩
  obtain ⟨hfresh, hrows⟩ := Table.insert?_eq_some hinsert
  rw [horders, hrows] at hmem
  rw [hdiscounted] at hid
  rcases List.mem_cons.mp hmem with rfl | hmem
  · obtain ⟨old, hold, hsame⟩ := hinv _ hid
    exact absurd hsame (hfresh old hold)
  · exact ⟨hmem, hpaid, hid⟩

theorem keeps_pay (hinv : w.Inv) {orderId : ℕ} {payment : PaymentContext} {reference : String}
    (hstep : w.step (.pay orderId payment reference) = some w') : Keeps w w' (.pay orderId payment reference) := by
  obtain ⟨db, hmark, rfl⟩ := Option.map_eq_some_iff.mp hstep
  rcases markChallengeOrderPaid_eq_some hmark with ⟨rfl, hunpayable⟩ |
    ⟨order, vouchers, commissions, horder, hpayable, rfl, -, -⟩
  · refine .quiet hinv (fun _ ho => ho) fun userId id hspends => ?_
    obtain ⟨o, ho, hpayable, -⟩ := hspends
    exact hpayable (hunpayable o ho)
  obtain ⟨hmem, rfl⟩ := Table.find?_eq_some.mp horder
  have hrow : ∀ o, o ∈ (w.db.orders.updateAt (Keyed.key order) (ChallengeOrder.paidWith reference)).rows →
      o = (ChallengeOrder.paidWith reference).apply order ∨ o ∈ w.db.orders.rows := by
    intro o ho
    rcases Table.mem_updateAt ho with ho | ⟨o', ho', hkey, rfl⟩
    · exact .inr ho
    · rw [List.inj_on_of_nodup_map w.db.orders.nodup ho' hmem hkey]
      exact .inl rfl
  by_cases hdiscounted : order.id ∈ w.discounted
  · refine ⟨hinv.of_updateAt rfl rfl, fun honce => ?_⟩
    rw [@once_iff_first _ _ honce ((ChallengeOrder.paidWith reference).apply order)]
    · constructor
      · rintro hfirst userId orderId ⟨o, ho, -, -, rfl, rfl⟩
        obtain rfl := Option.some.inj (horder.symm.trans ho)
        exact hfirst
      · intro hfirst
        exact hfirst order.userId order.id ⟨order, horder, hpayable, hdiscounted, rfl, rfl⟩
    · refine ⟨List.mem_map.mpr ⟨order, hmem, ?_⟩, rfl, hdiscounted⟩
      rw [if_pos (decide_eq_true rfl)]
    · rintro o ⟨ho, hpaid, hdiscount⟩
      exact (hrow o ho).imp_right fun h => ⟨h, hpaid, hdiscount⟩
    · rintro o ⟨ho, hpaid, hdiscount⟩ hid
      refine ⟨List.mem_map.mpr ⟨o, ho, ?_⟩, hpaid, hdiscount⟩
      exact if_neg (ne_true_of_eq_false (decide_eq_false hid))
  · refine .quiet (hinv.of_updateAt rfl rfl) ?_ ?_
    · rintro o ⟨ho, hpaid, hdiscount⟩
      rcases hrow o ho with rfl | ho
      · exact (hdiscounted hdiscount).elim
      · exact ⟨ho, hpaid, hdiscount⟩
    · rintro userId id ⟨o, ho, -, hdiscount, -⟩
      obtain rfl := Option.some.inj (horder.symm.trans ho)
      exact hdiscounted hdiscount

theorem placeDecided_eq_some {n : ℕ} {coupon : ℕ → Option ℕ} {draw : VoucherDraw}
    (hplace : w.placeDecided n coupon draw = some w') :
    ∃ entry amount orders, w.decided[n]? = some entry ∧ coupon entry.request.amount = some amount ∧
      w.db.orders.insert? ({ entry.request with amount := amount }.row) = some orders ∧
      w'.db.orders = orders ∧
      w'.discounted = if entry.discounted then entry.request.id :: w.discounted else w.discounted := by
  obtain ⟨entry, hentry, hplace⟩ := Option.bind_eq_some_iff.mp hplace
  obtain ⟨amount, hamount, hplace⟩ := Option.bind_eq_some_iff.mp hplace
  obtain ⟨db, hdb, hplace⟩ := Option.bind_eq_some_iff.mp hplace
  obtain ⟨orders, vouchers, hinsert, rfl, -⟩ := placeOrder_eq_some hdb
  obtain rfl := Option.some.inj hplace
  exact ⟨entry, amount, orders, hentry, hamount, hinsert, rfl, rfl⟩

theorem keeps_place (hinv : w.Inv) {n : ℕ} {coupon : ℕ → Option ℕ} {draw : VoucherDraw}
    (hplace : w.placeDecided n coupon draw = some w') : Keeps w w' (.place n coupon draw) := by
  obtain ⟨entry, amount, orders, hentry, hamount, hinsert, horders, hdiscounted⟩ := placeDecided_eq_some hplace
  have hinv' : w'.Inv := by
    refine hinv.of_insert hinsert horders fun id hid => ?_
    rw [hdiscounted] at hid
    split at hid
    · exact List.mem_cons.mp hid
    · exact .inr hid
  obtain ⟨hfresh, hrows⟩ := Table.insert?_eq_some hinsert
  by_cases hspends : entry.discounted = true ∧ amount = 0
  · obtain ⟨hdiscount, rfl⟩ := hspends
    rw [if_pos hdiscount] at hdiscounted
    refine ⟨hinv', fun honce => ?_⟩
    rw [@once_iff_first _ _ honce { entry.request with amount := 0 }.row]
    · constructor
      · rintro hfirst userId orderId ⟨entry', hentry', -, -, rfl, rfl⟩
        obtain rfl := Option.some.inj (hentry.symm.trans hentry')
        exact hfirst
      · intro hfirst
        exact hfirst _ _ ⟨entry, hentry, hdiscount, hamount, rfl, rfl⟩
    · refine ⟨?_, rfl, ?_⟩
      · rw [horders, hrows]
        exact List.mem_cons_self
      · rw [hdiscounted]
        exact List.mem_cons_self
    · rintro o ⟨ho, hpaid, hid⟩
      rw [horders, hrows] at ho
      rw [hdiscounted] at hid
      rcases List.mem_cons.mp ho with rfl | ho
      · exact .inl rfl
      · refine .inr ⟨ho, hpaid, (List.mem_cons.mp hid).resolve_left fun h => ?_⟩
        exact hfresh o ho h
    · rintro o ⟨ho, hpaid, hid⟩ -
      refine ⟨?_, hpaid, ?_⟩
      · rw [horders, hrows]
        exact List.mem_cons_of_mem _ ho
      · rw [hdiscounted]
        exact List.mem_cons_of_mem _ hid
  · refine .quiet hinv' ?_ ?_
    · rintro o ⟨ho, hpaid, hid⟩
      rw [horders, hrows] at ho
      rw [hdiscounted] at hid
      rcases List.mem_cons.mp ho with rfl | ho
      · exfalso
        have hfree : amount = 0 := by
          by_contra hne
          rw [ChallengeOrderRequest.row, if_neg hne] at hpaid
          cases hpaid
        rw [if_neg fun h => hspends ⟨h, hfree⟩] at hid
        obtain ⟨old, hold, hsame⟩ := hinv _ hid
        exact hfresh old hold hsame
      · refine ⟨ho, hpaid, ?_⟩
        split at hid
        · exact (List.mem_cons.mp hid).resolve_left fun h => hfresh o ho h
        · exact hid
    · rintro userId id ⟨entry', hentry', hdiscount, hfree, -⟩
      obtain rfl := Option.some.inj (hentry.symm.trans hentry')
      exact hspends ⟨hdiscount, Option.some.inj (hamount.symm.trans hfree)⟩

theorem keeps_step (hinv : w.Inv) {a : DiscountAction} (hstep : w.step a = some w') : Keeps w w' a := by
  cases a with
  | refer userId =>
    obtain rfl := Option.some.inj hstep
    exact .quiet hinv (fun _ ho => ho) fun _ _ h => h
  | decide request settings =>
    obtain rfl := Option.some.inj hstep
    exact .quiet hinv (fun _ ho => ho) fun _ _ h => h
  | drop n =>
    obtain rfl := Option.some.inj hstep
    exact .quiet hinv (fun _ ho => ho) fun _ _ h => h
  | place n coupon draw => exact keeps_place hinv hstep
  | pay orderId payment reference => exact keeps_pay hinv hstep
  | abandon orderId =>
    obtain rfl := Option.some.inj hstep
    rcases handleSessionAbandoned_cases w.db orderId with hsame | ⟨order, -, -, hmoved⟩
    · rw [hsame]
      exact .quiet hinv (fun _ ho => ho) fun _ _ h => h
    · rw [hmoved]
      exact .moved hinv OrderStatus.noConfusion rfl rfl fun _ _ h => h
  | reverse found status =>
    obtain ⟨hreversed, rfl⟩ := Option.ite_some_none_eq_some.mp hstep
    rcases handleChargeReversal_cases w.db found status with ⟨hsame, -⟩ | ⟨order, current, -, -, -, hreverses⟩
    · rw [hsame]
      exact .quiet hinv (fun _ ho => ho) fun _ _ h => h
    · refine .moved hinv (fun hpaid => ?_) hreverses.orders rfl fun _ _ h => h
      rw [hpaid] at hreversed
      rcases hreversed with h | h <;> cases h
  | redeem models request =>
    obtain rfl := Option.some.inj hstep
    rcases redeemGiftVoucher_cases w.db models request with hsame | hexpired |
      ⟨voucher, orders, -, -, hinsert, hredeemed⟩
    · rw [hsame]
      exact .quiet hinv (fun _ ho => ho) fun _ _ h => h
    · rw [hexpired]
      exact .quiet hinv (fun _ ho => ho) fun _ _ h => h
    · rw [hredeemed]
      exact .inserted hinv hinsert rfl rfl fun _ _ h => h
  | prize id userId accountSize slug =>
    obtain ⟨db, hprize, rfl⟩ := Option.map_eq_some_iff.mp hstep
    obtain ⟨orders, hinsert, rfl⟩ := Option.map_eq_some_iff.mp hprize
    exact .inserted hinv hinsert rfl rfl fun _ _ h => h

end Step

def referredUser : DiscountWorld := ⟨.empty, [5], [], []⟩

open OrderWorld (sampleChallengeOrder sampleDraw samplePayment)

def decideOrder (id : ℕ) : DiscountAction := .decide (sampleChallengeOrder id 1200 none) ⟨true, 10⟩

def placeFirst : DiscountAction := .place 0 some sampleDraw

def payOrder (id : ℕ) : DiscountAction := .pay id samplePayment "pi"

/-- The second order is placed when the first one is paid. -/
def inTurn : List DiscountAction :=
  [decideOrder 1, placeFirst, payOrder 1, decideOrder 2, placeFirst, payOrder 2]

end DiscountWorld

end PropFirm
