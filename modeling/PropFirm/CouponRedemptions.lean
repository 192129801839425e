import PropFirm.Lib.JsText
import PropFirm.Lib.Sessions
import PropFirm.OrderSystem
import PropFirm.Statements

/-!
# Coupons

`POST /accounts/orders` checks a coupon and records its redemption in one transaction: an advisory lock
on the code, the coupon's row, the user's earlier redemption, then the order, the redemption and the
coupon's counter. Each query is a step of its own and may fail, and any number of requests run at once.
A request that waits for a lock is one whose query comes later; one that asks while somebody else holds
the lock has run into a timeout.
-/

namespace PropFirm

open Sessions

/-! ### Checking a coupon -/

inductive DiscountType
  | percent | fixed
  deriving DecidableEq

/-- A row of `coupon_codes`. -/
structure Coupon where
  id : ℕ
  code : String
  discountType : DiscountType
  discountValue : ℚ
  maxRedemptions : Option ℕ
  redemptionCount : ℕ
  minOrderAmount : Option ℚ
  expiresAt : Option ℕ
  isActive : Bool
  deriving DecidableEq

instance : Keyed Coupon ℕ := ⟨Coupon.id⟩

inductive CouponError
  | codeRequired | invalidCode | inactive | expired | limitReached | minimumOrder (amount : ℚ) | alreadyUsed
  deriving DecidableEq

structure CouponCheck where
  coupon : Coupon
  discountAmount : Cents
  finalAmount : Cents

namespace Coupon

def rawDiscount (c : Coupon) (amount : ℚ) : ℚ :=
  match c.discountType with
  | .percent => amount * (c.discountValue / 100)
  | .fixed => c.discountValue

/-- `Math.round(Math.max(0, Math.min(rawDiscount, amount)) * 100) / 100`. -/
def discountAmount (c : Coupon) (amount : Cents) : Cents :=
  jsRound (max 0 (min (c.rawDiscount amount.dollars) amount.dollars) * 100)

/-- `Math.round((amount - discountAmount) * 100) / 100`. -/
def finalAmount (c : Coupon) (amount : Cents) : Cents :=
  jsRound ((amount.dollars - (c.discountAmount amount).dollars) * 100)

/-- The checks on the coupon's row. -/
def error? (c : Coupon) (now : ℕ) (amount : Cents) : Option CouponError :=
  if ¬ c.isActive then some .inactive
  else if c.expiresAt.any (· < now) then some .expired
  else if c.maxRedemptions.any (· ≤ c.redemptionCount) then some .limitReached
  else (c.minOrderAmount.filter (amount.dollars < ·)).map .minimumOrder

def check (c : Coupon) (amount : Cents) : CouponCheck := ⟨c, c.discountAmount amount, c.finalAmount amount⟩

/-- The two amounts make up the whole, and neither is negative. -/
structure Splits (c : Coupon) (amount : Cents) : Prop where
  discount_nonneg : 0 ≤ c.discountAmount amount
  final_nonneg : 0 ≤ c.finalAmount amount
  final_le : c.finalAmount amount ≤ amount
  sum_eq : c.discountAmount amount + c.finalAmount amount = amount

end Coupon

theorem jsRound_intCast (n : ℤ) : jsRound n = n := by
  rw [jsRound, Int.floor_intCast_add]
  norm_num

theorem jsRound_mono {x y : ℚ} (hxy : x ≤ y) : jsRound x ≤ jsRound y :=
  Int.floor_mono (add_le_add_left hxy _)

namespace Coupon

theorem splits (c : Coupon) {amount : Cents} (hamount : 0 ≤ amount) : c.Splits amount := by
  have hdollars : amount.dollars * 100 = (amount : ℚ) := div_mul_cancel₀ _ (by norm_num)
  have hnonneg : 0 ≤ amount.dollars := div_nonneg (Int.cast_nonneg hamount) (by norm_num)
  have hlow : 0 ≤ c.discountAmount amount := by
    rw [← jsRound_intCast 0]
    refine jsRound_mono ?_
    push_cast
    exact mul_nonneg (le_max_left _ _) (by norm_num)
  have hhigh : c.discountAmount amount ≤ amount :=
    calc c.discountAmount amount
        ≤ jsRound (amount.dollars * 100) :=
          jsRound_mono (mul_le_mul_of_nonneg_right (max_le hnonneg (min_le_right _ _)) (by norm_num))
      _ = amount := hdollars ▸ jsRound_intCast amount
  have hfinal : c.finalAmount amount = amount - c.discountAmount amount := by
    rw [← jsRound_intCast (amount - c.discountAmount amount), finalAmount, sub_mul, hdollars, Cents.dollars,
      div_mul_cancel₀ _ (by norm_num), Int.cast_sub]
  exact ⟨hlow, by linarith, by linarith, by linarith⟩

end Coupon

/-! ### The transaction -/

/-- A row of `coupon_redemptions`, in which a coupon and a user come together at most once. -/
structure CouponRedemption where
  couponId : ℕ
  userId : ℕ
  orderId : ℕ
  discountAmount : Cents
  deriving DecidableEq

instance : Keyed CouponRedemption (ℕ × ℕ) := ⟨fun r => (r.couponId, r.userId)⟩

structure CouponStore where
  coupons : Table Coupon
  redemptions : Table CouponRedemption
  orders : OrderDb

namespace CouponStore

/-- `SELECT * FROM coupon_codes WHERE code = $1`. -/
def couponOf? (s : CouponStore) (code : String) : Option Coupon := s.coupons.rows.find? fun c => c.code = code

def redemptionsOf (s : CouponStore) (couponId : ℕ) : List CouponRedemption :=
  s.redemptions.rows.filter fun r => r.couponId = couponId

end CouponStore

def Coupon.counted : Table.Rewrite Coupon where
  apply c := { c with redemptionCount := c.redemptionCount + 1 }
  key_apply _ := rfl

inductive CouponWrite
  | insertOrder (request : ChallengeOrderRequest)
  | insertRedemption (redemption : CouponRedemption)
  | countRedemption (couponId : ℕ)
  | issueGift (request : ChallengeOrderRequest) (draw : VoucherDraw)

def CouponWrite.apply (s : CouponStore) : CouponWrite → Option CouponStore
  | insertOrder request => (s.orders.orders.insert? request.row).map fun orders =>
    { s with orders := { s.orders with orders := orders } }
  | insertRedemption redemption => (s.redemptions.insert? redemption).map fun redemptions =>
    { s with redemptions := redemptions }
  | countRedemption couponId => some { s with coupons := s.coupons.updateAt couponId Coupon.counted }
  | issueGift request draw => (issueGiftVoucherForOrder s.orders request.row draw).map fun orders =>
    { s with orders := orders }

/-- A request with its price before the coupon, the code as it was sent, and what the clock and the
database fill in. -/
structure CheckoutRequest where
  order : ChallengeOrderRequest
  rawCode : String
  now : ℕ
  draw : VoucherDraw

/-- The lock on a code's hash; a request without a code has its order to itself. -/
inductive CheckoutLock
  | code (hash : ℤ)
  | order (orderId : ℕ)
  deriving DecidableEq

/-- `toUpperCase` of JavaScript and `hashtext` of PostgreSQL. -/
structure CodeFunctions where
  toUpperCase : String → String
  hashtext : String → ℤ

abbrev CheckoutBody := Body CouponStore CouponWrite

section Transaction

variable (f : CodeFunctions)

def normalizeCode (code : String) : String := f.toUpperCase (jsTrim code)

/-- The last check: the user has no redemption of the coupon. -/
def Coupon.checkUser (c : Coupon) (userId : ℕ) (amount : Cents)
    (next : Except CouponError CouponCheck → CheckoutBody) : CheckoutBody :=
  .read fun s =>
    if (s.redemptions.find? (c.id, userId)).isSome then next (.error .alreadyUsed)
    else next (.ok (c.check amount))

def validateCouponForCheckout (code : String) (userId : ℕ) (amount : Cents) (now : ℕ)
    (next : Except CouponError CouponCheck → CheckoutBody) : CheckoutBody :=
  let normalized := normalizeCode f code
  if normalized = "" then next (.error .codeRequired)
  else .read fun s =>
    match s.couponOf? normalized with
    | none => next (.error .invalidCode)
    | some coupon =>
      match coupon.error? now amount with
      | some error => next (.error error)
      | none => coupon.checkUser userId amount next

namespace CheckoutRequest

def amount (r : CheckoutRequest) : Cents := r.order.amount

def couponCode (r : CheckoutRequest) : String := jsTrim r.rawCode

/-- The order with the amount that is left of it. -/
def charged (r : CheckoutRequest) : Option CouponCheck → ChallengeOrderRequest
  | none => r.order
  | some check => { r.order with amount := check.finalAmount.toNat }

def redemption (r : CheckoutRequest) (check : CouponCheck) : CouponRedemption :=
  ⟨check.coupon.id, r.order.userId, r.order.id, check.discountAmount⟩

def recordCouponRedemption (r : CheckoutRequest) (check : CouponCheck) : List (List CouponWrite) :=
  [[.insertRedemption (r.redemption check)], [.countRedemption check.coupon.id]]

/-- What a request writes once its coupon is valid or it has none; a free gift gets its voucher here. -/
def queries (r : CheckoutRequest) (check : Option CouponCheck) : List (List CouponWrite) :=
  [.insertOrder (r.charged check)] :: check.elim [] r.recordCouponRedemption ++
    if (r.charged check).amount = 0 ∧ r.order.recipientEmail.isSome then
      [[.issueGift (r.charged check) r.draw]]
    else []

/-- A coupon that is not valid ends in a rollback. -/
def proceed (r : CheckoutRequest) : Except CouponError CouponCheck → CheckoutBody
  | .error _ => .throw
  | .ok check => .writeAll (r.queries (some check)) .commit

def body (r : CheckoutRequest) : CheckoutBody :=
  if r.couponCode = "" then .writeAll (r.queries none) .commit
  else validateCouponForCheckout f r.couponCode r.order.userId r.amount r.now r.proceed

def transaction (r : CheckoutRequest) : Transaction CouponStore CouponWrite CheckoutLock where
  lock :=
    if r.couponCode = "" then .order r.order.id else .code (f.hashtext (f.toUpperCase r.couponCode))
  qualifies _ := true
  body := r.body f

end CheckoutRequest

abbrev CheckoutState := State CouponStore CouponWrite CheckoutLock CheckoutRequest

def checkoutStep : CheckoutState → Sessions.Action CheckoutRequest → Option CheckoutState :=
  Sessions.step CouponWrite.apply (CheckoutRequest.transaction f)

end Transaction

/-! ### What holds of the tables -/

/-- A coupon's counter is the number of its redemptions, which stays within its limit, and no user is
among them twice. -/
structure CouponStore.Sound (s : CouponStore) : Prop where
  counted : ∀ c ∈ s.coupons.rows, c.redemptionCount = (s.redemptionsOf c.id).length
  limited : ∀ c ∈ s.coupons.rows, ∀ limit ∈ c.maxRedemptions, (s.redemptionsOf c.id).length ≤ limit
  once : ∀ couponId, ((s.redemptionsOf couponId).map CouponRedemption.userId).Nodup

/-- The redemption is the request's: its discount is what the request's order costs less. -/
structure CheckoutRequest.Redeemed (r : CheckoutRequest) (s : CouponStore) (row : CouponRedemption) : Prop where
  user : row.userId = r.order.userId
  order : row.orderId = r.order.id
  split : ∃ c ∈ s.coupons.rows, ∃ o ∈ s.orders.orders.rows, c.id = row.couponId ∧ o.id = row.orderId ∧
    row.discountAmount = c.discountAmount r.amount ∧ o.amount = c.finalAmount r.amount ∧ c.Splits r.amount

/-! ### Where a request is -/

namespace CheckoutRequest

/-- The store says now what the coupon's row said to the request. -/
structure Accepts (f : CodeFunctions) (r : CheckoutRequest) (s : CouponStore) (c : Coupon) : Prop where
  coded : r.couponCode ≠ ""
  found : s.couponOf? (f.toUpperCase r.couponCode) = some c
  valid : c.error? r.now r.amount = none

/-- The request has found its coupon valid, and nothing has changed since. -/
structure Checked (f : CodeFunctions) (r : CheckoutRequest) (s : CouponStore) (check : CouponCheck) : Prop where
  accepts : r.Accepts f s check.coupon
  fresh : s.redemptions.find? (check.coupon.id, r.order.userId) = none
  amounts : check = check.coupon.check r.amount

/-- How far a request has come that holds its lock. -/
inductive Midway (f : CodeFunctions) (r : CheckoutRequest) (s : CouponStore) (rest : CheckoutBody)
    (writes : List CouponWrite) : Prop
  | unread (hcoded : r.couponCode ≠ "") (hrest : rest = r.body f) (hwrites : writes = [])
  | accepting {c : Coupon} (haccepts : r.Accepts f s c)
    (hrest : rest = c.checkUser r.order.userId r.amount r.proceed) (hwrites : writes = [])
  | writing {check : Option CouponCheck} {sent left : List (List CouponWrite)}
    (hcheck : ∀ k ∈ check, r.Checked f s k) (hnone : check = none ↔ r.couponCode = "")
    (hsplit : sent ++ left = r.queries check) (hrest : rest = .writeAll left .commit)
    (hwrites : writes = sent.flatten)
  | throwing (hrest : rest = .throw)

variable {f : CodeFunctions} {r r' : CheckoutRequest} {s s' : CouponStore} {rest rest' : CheckoutBody}
  {writes writes' : List CouponWrite}

/-- The code is trimmed before it is locked, so the check looks for the code that is locked. -/
theorem normalizeCode_couponCode (f : CodeFunctions) (r : CheckoutRequest) :
    normalizeCode f r.couponCode = f.toUpperCase r.couponCode := by
  rw [normalizeCode, couponCode, jsTrim_jsTrim]

theorem Midway.settled {check : Option CouponCheck} (hcheck : ∀ k ∈ check, r.Checked f s k)
    (hnone : check = none ↔ r.couponCode = "") : r.Midway f s (.writeAll (r.queries check) .commit) [] :=
  .writing hcheck hnone (List.nil_append _) rfl rfl

theorem Midway.locked (f : CodeFunctions) (r : CheckoutRequest) (s : CouponStore) :
    r.Midway f s (r.transaction f).body [] := by
  have hbody : (r.transaction f).body = r.body f := by rw [transaction]
  rw [hbody]
  by_cases hcode : r.couponCode = ""
  · rw [body, if_pos hcode]
    exact .settled (fun _ h => by cases h) (iff_of_true rfl hcode)
  · exact .unread hcode rfl rfl

theorem Midway.advance (hmidway : r.Midway f s rest writes)
    (hadvance : rest.advance CouponWrite.apply s writes = some (rest', writes')) :
    r.Midway f s rest' writes' := by
  cases hmidway with
  | unread hcoded hrest hwrites =>
    rw [hrest, hwrites, body, if_neg hcoded, validateCouponForCheckout, normalizeCode_couponCode] at hadvance
    split at hadvance
    · cases hadvance
    · obtain ⟨view, hview, rfl, rfl⟩ := Body.advance_read hadvance
      obtain rfl := Option.some.inj hview
      split
      · exact .throwing rfl
      · rename_i c hfound
        split
        · exact .throwing rfl
        · rename_i hvalid
          exact .accepting ⟨hcoded, hfound, hvalid⟩ rfl rfl
  | @accepting c haccepts hrest hwrites =>
    rw [hrest, hwrites] at hadvance
    obtain ⟨view, hview, rfl, rfl⟩ := Body.advance_read hadvance
    obtain rfl := Option.some.inj hview
    split
    · exact .throwing rfl
    · rename_i hfresh
      refine .settled ?_ (iff_of_false (Option.some_ne_none _) haccepts.coded)
      rintro _ ⟨rfl⟩
      exact ⟨haccepts, Option.not_isSome_iff_eq_none.mp hfresh, rfl⟩
  | @writing check sent left hcheck hnone hsplit hrest hwrites =>
    cases left with
    | nil =>
      rw [hrest] at hadvance
      cases hadvance
    | cons query left =>
      rw [hrest, Body.writeAll] at hadvance
      obtain ⟨rfl, rfl⟩ := Body.advance_write hadvance
      have hnext : (sent ++ [query]) ++ left = r.queries check := by
        rw [List.append_assoc, List.singleton_append, hsplit]
      refine .writing hcheck hnone hnext rfl ?_
      rw [hwrites, List.flatten_append, List.flatten_singleton]
  | throwing hrest =>
    rw [hrest] at hadvance
    cases hadvance

theorem Midway.committing (hmidway : r.Midway f s .commit writes) :
    ∃ check, (∀ k ∈ check, r.Checked f s k) ∧ (check = none ↔ r.couponCode = "") ∧
      writes = (r.queries check).flatten := by
  cases hmidway with
  | unread hcoded hrest _ =>
    rw [body, if_neg hcoded, validateCouponForCheckout] at hrest
    split at hrest <;> cases hrest
  | accepting _ hrest _ => cases hrest
  | @writing check sent left hcheck hnone hsplit hrest hwrites =>
    refine ⟨check, hcheck, hnone, ?_⟩
    cases left with
    | cons query left => cases hrest
    | nil => rw [hwrites, ← hsplit, List.append_nil]
  | throwing hrest => cases hrest

end CheckoutRequest

/-! ### What a commit does -/

theorem CouponWrite.apply_issueGift {s s' : CouponStore} {request : ChallengeOrderRequest} {draw : VoucherDraw}
    (happly : (CouponWrite.issueGift request draw).apply s = some s') :
    s'.coupons = s.coupons ∧ s'.redemptions = s.redemptions ∧ s'.orders.orders = s.orders.orders := by
  obtain ⟨orders, hissue, rfl⟩ := Option.map_eq_some_iff.mp happly
  obtain ⟨vouchers, rfl, _⟩ := issueGiftVoucherForOrder_eq_some hissue
  exact ⟨rfl, rfl, rfl⟩

namespace CheckoutRequest

/-- The order comes, and with a coupon its redemption and the count of it. -/
structure Effect (r : CheckoutRequest) (check : Option CouponCheck) (s s' : CouponStore) : Prop where
  coupons : s'.coupons = check.elim s.coupons fun k => s.coupons.updateAt k.coupon.id Coupon.counted
  redemptions : check.elim (some s.redemptions) (fun k => s.redemptions.insert? (r.redemption k))
    = some s'.redemptions
  orders : s'.orders.orders.rows = (r.charged check).row :: s.orders.orders.rows

variable {f : CodeFunctions} {r r' : CheckoutRequest} {s s' : CouponStore} {rest : CheckoutBody}
  {writes writes' : List CouponWrite}

/-- The statements up to the voucher of a free gift, which changes none of these tables. -/
theorem effect_of_run {check : Option CouponCheck}
    (hrun : Transition.run CouponWrite.apply s (r.queries check).flatten = some s') : r.Effect check s s' := by
  rw [queries, List.flatten_append, Transition.run_append] at hrun
  obtain ⟨t, hrecorded, hgift⟩ := Option.bind_eq_some_iff.mp hrun
  have hsame : s'.coupons = t.coupons ∧ s'.redemptions = t.redemptions ∧ s'.orders.orders = t.orders.orders := by
    split at hgift
    · obtain ⟨u, happly, hend⟩ := Option.bind_eq_some_iff.mp hgift
      obtain rfl := Option.some.inj hend
      exact CouponWrite.apply_issueGift happly
    · obtain rfl := Option.some.inj hgift
      exact ⟨rfl, rfl, rfl⟩
  obtain ⟨u, horder, hrest⟩ := Option.bind_eq_some_iff.mp hrecorded
  obtain ⟨orders, hinsert, rfl⟩ := Option.map_eq_some_iff.mp horder
  have hrows := (Table.insert?_eq_some hinsert).2
  cases check with
  | none =>
    obtain rfl := Option.some.inj hrest
    exact ⟨hsame.1, congrArg some hsame.2.1.symm, hsame.2.2 ▸ hrows⟩
  | some k =>
    obtain ⟨v, hredeem, hrest⟩ := Option.bind_eq_some_iff.mp hrest
    obtain ⟨redemptions, hredeemed, rfl⟩ := Option.map_eq_some_iff.mp hredeem
    obtain ⟨v, hcount, hrest⟩ := Option.bind_eq_some_iff.mp hrest
    obtain rfl := Option.some.inj hcount
    obtain rfl := Option.some.inj hrest
    refine ⟨hsame.1, ?_, hsame.2.2 ▸ hrows⟩
    rw [hsame.2.1]
    exact hredeemed

theorem Midway.commit (hmidway : r.Midway f s .commit writes)
    (hrun : Transition.run CouponWrite.apply s writes = some s') :
    ∃ check, (∀ k ∈ check, r.Checked f s k) ∧ (check = none ↔ r.couponCode = "") ∧ r.Effect check s s' := by
  obtain ⟨check, hcheck, hnone, rfl⟩ := hmidway.committing
  exact ⟨check, hcheck, hnone, effect_of_run hrun⟩

theorem Accepts.mem {c : Coupon} (haccepts : r.Accepts f s c) :
    c ∈ s.coupons.rows ∧ c.code = f.toUpperCase r.couponCode := by
  have hfound := haccepts.found
  rw [CouponStore.couponOf?] at hfound
  exact ⟨List.mem_of_find?_eq_some hfound, by simpa using List.find?_some hfound⟩

theorem couponOf?_counted {id : ℕ} (hcoupons : s'.coupons = s.coupons.updateAt id Coupon.counted) (code : String) :
    s'.couponOf? code = (s.couponOf? code).map fun c => if c.id = id then Coupon.counted.apply c else c := by
  rw [CouponStore.couponOf?, hcoupons, Table.updateAt, Table.rows_update, List.find?_map, CouponStore.couponOf?]
  have hcode : ∀ c : Coupon,
      (if decide (Keyed.key c = id) = true then Coupon.counted.apply c else c).code = c.code := by
    intro c
    split <;> rfl
  have hselect : ((fun c : Coupon => decide (c.code = code)) ∘ fun c =>
      if decide (Keyed.key c = id) = true then Coupon.counted.apply c else c) = fun c => decide (c.code = code) :=
    funext fun c => congrArg (fun x => decide (x = code)) (hcode c)
  rw [hselect]
  refine congrArg (Option.map · _) (funext fun c => ?_)
  simp only [decide_eq_true_eq]
  rfl

/-- What a request has found out about its coupon is still so after a commit under another lock. -/
theorem Accepts.frame {c : Coupon} (haccepts : r.Accepts f s c) {check : Option CouponCheck}
    (hcheck : ∀ k ∈ check, r'.Checked f s k) (heffect : r'.Effect check s s')
    (hlock : (r.transaction f).lock ≠ (r'.transaction f).lock) :
    r.Accepts f s' c ∧ ∀ userId, s.redemptions.find? (c.id, userId) = none →
      s'.redemptions.find? (c.id, userId) = none := by
  obtain ⟨hcoded, hfound, hvalid⟩ := haccepts
  cases check with
  | none =>
    have hcoupons : s'.coupons = s.coupons := heffect.coupons
    have hredemptions : s.redemptions = s'.redemptions := Option.some.inj heffect.redemptions
    rw [← hredemptions]
    refine ⟨⟨hcoded, ?_, hvalid⟩, fun _ h => h⟩
    rw [CouponStore.couponOf?, hcoupons]
    exact hfound
  | some k =>
    have hother := hcheck k rfl
    have hid : c.id ≠ k.coupon.id := by
      intro hid
      have hmem := Accepts.mem ⟨hcoded, hfound, hvalid⟩
      have hsame : c = k.coupon := List.inj_on_of_nodup_map s.coupons.nodup hmem.1 hother.accepts.mem.1 hid
      have hcodes : f.toUpperCase r.couponCode = f.toUpperCase r'.couponCode := by
        rw [← hmem.2, hsame, hother.accepts.mem.2]
      refine hlock ?_
      rw [transaction, if_neg hcoded, transaction, if_neg hother.accepts.coded, hcodes]
    refine ⟨⟨hcoded, ?_, hvalid⟩, fun userId hfresh => ?_⟩
    · rw [couponOf?_counted heffect.coupons, hfound, Option.map_some, if_neg hid]
    · have hkey : Keyed.key (r'.redemption k) ≠ (c.id, userId) := fun hkey => hid (Prod.mk.inj hkey).1.symm
      rw [Table.find?_of_insert? heffect.redemptions, if_neg hkey]
      exact hfresh

theorem Midway.frame (hmidway : r.Midway f s rest writes) (hother : r'.Midway f s .commit writes')
    (hlock : (r.transaction f).lock ≠ (r'.transaction f).lock)
    (hrun : Transition.run CouponWrite.apply s writes' = some s') : r.Midway f s' rest writes := by
  obtain ⟨check', hcheck', _, heffect⟩ := hother.commit hrun
  cases hmidway with
  | unread hcoded hrest hwrites => exact .unread hcoded hrest hwrites
  | accepting haccepts hrest hwrites =>
    exact .accepting (haccepts.frame hcheck' heffect hlock).1 hrest hwrites
  | writing hcheck hnone hsplit hrest hwrites =>
    refine .writing (fun k hk => ?_) hnone hsplit hrest hwrites
    obtain ⟨haccepts, hfresh, hamounts⟩ := hcheck k hk
    obtain ⟨haccepts', hkept⟩ := haccepts.frame hcheck' heffect hlock
    exact ⟨haccepts', hkept _ hfresh, hamounts⟩
  | throwing hrest => exact .throwing hrest

end CheckoutRequest

/-! ### What a commit keeps -/

theorem CouponStore.userIds_nodup (s : CouponStore) (couponId : ℕ) :
    ((s.redemptionsOf couponId).map CouponRedemption.userId).Nodup := by
  have hkeys : ((s.redemptionsOf couponId).map Keyed.key).Nodup :=
    s.redemptions.nodup.sublist (List.filter_sublist.map _)
  have hpairs : (s.redemptionsOf couponId).map Keyed.key
      = ((s.redemptionsOf couponId).map CouponRedemption.userId).map fun userId => (couponId, userId) := by
    rw [List.map_map]
    refine List.map_congr_left fun row hrow => ?_
    obtain rfl := of_decide_eq_true (List.mem_filter.mp hrow).2
    rfl
  rw [hpairs] at hkeys
  exact hkeys.of_map _

namespace CheckoutRequest

variable {f : CodeFunctions} {r r' : CheckoutRequest} {s s' : CouponStore} {check : Option CouponCheck}

theorem Effect.redemptionsOf {k : CouponCheck} (heffect : r.Effect (some k) s s') (couponId : ℕ) :
    s'.redemptionsOf couponId
      = if k.coupon.id = couponId then r.redemption k :: s.redemptionsOf couponId
        else s.redemptionsOf couponId := by
  rw [CouponStore.redemptionsOf, (Table.insert?_eq_some heffect.redemptions).2, List.filter_cons]
  simp only [decide_eq_true_eq]
  rfl

theorem Checked.below_limit {k : CouponCheck} (hchecked : r.Checked f s k) :
    ∀ limit ∈ k.coupon.maxRedemptions, k.coupon.redemptionCount < limit := by
  intro limit hlimit
  have hvalid := hchecked.accepts.valid
  rw [Coupon.error?, hlimit] at hvalid
  by_contra hreached
  have hany : (some limit).any (· ≤ k.coupon.redemptionCount) = true := decide_eq_true (not_lt.mp hreached)
  rw [if_pos hany] at hvalid
  split at hvalid
  · cases hvalid
  · split at hvalid <;> cases hvalid

/-- The coupon that is redeemed counts one more; the others stay as they are. -/
theorem Effect.coupon_cases {k : CouponCheck} (heffect : r.Effect (some k) s s') (hchecked : r.Checked f s k)
    {c : Coupon} (hc : c ∈ s'.coupons.rows) :
    (c ∈ s.coupons.rows ∧ k.coupon.id ≠ c.id) ∨ c = Coupon.counted.apply k.coupon := by
  have hcoupons : s'.coupons = s.coupons.updateAt k.coupon.id Coupon.counted := heffect.coupons
  rw [hcoupons, Table.updateAt, Table.rows_update] at hc
  obtain ⟨old, hold, rfl⟩ := List.mem_map.mp hc
  by_cases hid : Keyed.key old = k.coupon.id
  · rw [if_pos (decide_eq_true hid)]
    rw [List.inj_on_of_nodup_map s.coupons.nodup hold hchecked.accepts.mem.1 hid]
    exact .inr rfl
  · rw [if_neg (by simpa using hid)]
    exact .inl ⟨hold, fun h => hid h.symm⟩

theorem Effect.sound (heffect : r.Effect check s s') (hcheck : ∀ k ∈ check, r.Checked f s k)
    (hsound : s.Sound) : s'.Sound := by
  cases check with
  | none =>
    have hcoupons : s'.coupons = s.coupons := heffect.coupons
    have hredemptions : s.redemptions = s'.redemptions := Option.some.inj heffect.redemptions
    have hof : s'.redemptionsOf = s.redemptionsOf := by
      funext couponId
      rw [CouponStore.redemptionsOf, ← hredemptions, CouponStore.redemptionsOf]
    refine ⟨?_, ?_, s'.userIds_nodup⟩
    · rw [hcoupons, hof]
      exact hsound.counted
    · rw [hcoupons, hof]
      exact hsound.limited
  | some k =>
    have hchecked := hcheck k rfl
    have hold := hchecked.accepts.mem.1
    have hcount : (s'.redemptionsOf k.coupon.id).length = k.coupon.redemptionCount + 1 := by
      rw [heffect.redemptionsOf, if_pos rfl, List.length_cons, hsound.counted _ hold]
    refine ⟨fun c hc => ?_, fun c hc limit hlimit => ?_, s'.userIds_nodup⟩
    · rcases heffect.coupon_cases hchecked hc with ⟨hmem, hne⟩ | rfl
      · rw [heffect.redemptionsOf, if_neg hne]
        exact hsound.counted c hmem
      · exact hcount.symm
    · rcases heffect.coupon_cases hchecked hc with ⟨hmem, hne⟩ | rfl
      · rw [heffect.redemptionsOf, if_neg hne]
        exact hsound.limited c hmem limit hlimit
      · exact hcount.trans_le (hchecked.below_limit limit hlimit)

theorem Redeemed.mono {row : CouponRedemption} (hredeemed : r'.Redeemed s row)
    (heffect : r.Effect check s s') : r'.Redeemed s' row := by
  obtain ⟨huser, horder, c, hc, o, ho, hid, hplaced, hdiscount, hfinal, hsplits⟩ := hredeemed
  have ho' : o ∈ s'.orders.orders.rows := heffect.orders ▸ List.mem_cons_of_mem _ ho
  suffices hkept : c ∈ s'.coupons.rows ∨ Coupon.counted.apply c ∈ s'.coupons.rows by
    rcases hkept with hc' | hc'
    · exact ⟨huser, horder, c, hc', o, ho', hid, hplaced, hdiscount, hfinal, hsplits⟩
    · exact ⟨huser, horder, _, hc', o, ho', hid, hplaced, hdiscount, hfinal,
        hsplits.discount_nonneg, hsplits.final_nonneg, hsplits.final_le, hsplits.sum_eq⟩
  rw [heffect.coupons]
  cases check with
  | none => exact .inl hc
  | some k =>
    have hrow : (if decide (Keyed.key c = k.coupon.id) = true then Coupon.counted.apply c else c) ∈
        (s.coupons.updateAt k.coupon.id Coupon.counted).rows := List.mem_map_of_mem hc
    split at hrow
    · exact .inr hrow
    · exact .inl hrow

/-- The redemption a commit brings is the request's. -/
theorem Effect.redeemed {k : CouponCheck} (heffect : r.Effect (some k) s s') (hchecked : r.Checked f s k) :
    r.Redeemed s' (r.redemption k) := by
  have hsplits : k.coupon.Splits r.amount := k.coupon.splits (Int.natCast_nonneg _)
  have hcoupons : s'.coupons = s.coupons.updateAt k.coupon.id Coupon.counted := heffect.coupons
  have hc : Coupon.counted.apply k.coupon ∈ s'.coupons.rows := by
    rw [hcoupons]
    exact List.mem_map.mpr ⟨k.coupon, hchecked.accepts.mem.1, if_pos (decide_eq_true rfl)⟩
  have ho : (r.charged (some k)).row ∈ s'.orders.orders.rows := heffect.orders ▸ List.mem_cons_self
  have hfinal : k.finalAmount = k.coupon.finalAmount r.amount := congrArg CouponCheck.finalAmount hchecked.amounts
  refine ⟨rfl, rfl, _, hc, _, ho, rfl, rfl, congrArg CouponCheck.discountAmount hchecked.amounts, ?_,
    hsplits.discount_nonneg, hsplits.final_nonneg, hsplits.final_le, hsplits.sum_eq⟩
  change (k.finalAmount.toNat : ℤ) = k.coupon.finalAmount r.amount
  rw [hfinal]
  exact Int.toNat_of_nonneg hsplits.final_nonneg

end CheckoutRequest

/-! ### Runs -/

theorem checkout_guarded {f : CodeFunctions} {start : CheckoutState → Prop}
    (hstart : ∀ w, start w → ∃ s, w = .initial s) {w : CheckoutState}
    (hreach : Transition.Reach (checkoutStep f) (fun _ _ => True) start w) :
    Guarded (CheckoutRequest.transaction f) (fun r s rest writes => r.Midway f s rest writes) w :=
  guarded_of_reach (fun r s _ => .locked f r s) (fun _ _ _ _ _ _ hmid hadvance => hmid.advance hadvance)
    (fun _ _ _ _ _ _ _ hmid hother hlock hrun => hmid.frame hother hlock hrun) hstart hreach

/-- Every redemption since `s₀` is of a committed request, and every committed request with a code has
one. -/
structure CheckoutsSound (s₀ : CouponStore) (w : CheckoutState) : Prop where
  store : w.store.Sound
  redeemed : ∀ r ∈ w.committed, r.couponCode ≠ "" → ∃ row ∈ w.store.redemptions.rows, r.Redeemed w.store row
  recorded : ∀ row ∈ w.store.redemptions.rows,
    row ∈ s₀.redemptions.rows ∨ ∃ r ∈ w.committed, r.Redeemed w.store row

theorem CheckoutsSound.commit {f : CodeFunctions} {s₀ : CouponStore} {w w' : CheckoutState}
    (hsound : CheckoutsSound s₀ w) {r : CheckoutRequest} {check : Option CouponCheck}
    (hcheck : ∀ k ∈ check, r.Checked f w.store k) (hnone : check = none ↔ r.couponCode = "")
    (heffect : r.Effect check w.store w'.store) (hcommitted : w'.committed = r :: w.committed) :
    CheckoutsSound s₀ w' := by
  have hkept : ∀ row ∈ w.store.redemptions.rows, row ∈ w'.store.redemptions.rows := by
    intro row hrow
    cases check with
    | none => exact Option.some.inj heffect.redemptions ▸ hrow
    | some k => exact (Table.insert?_eq_some heffect.redemptions).2 ▸ List.mem_cons_of_mem _ hrow
  have hearlier : ∀ row, (∃ r ∈ w.committed, r.Redeemed w.store row) →
      ∃ r ∈ w'.committed, r.Redeemed w'.store row := by
    rintro row ⟨r', hr', hredeemed⟩
    exact ⟨r', hcommitted ▸ List.mem_cons_of_mem _ hr', hredeemed.mono heffect⟩
  refine ⟨heffect.sound hcheck hsound.store, fun r' hr' hcoded => ?_, fun row hrow => ?_⟩
  · rw [hcommitted] at hr'
    rcases List.mem_cons.mp hr' with rfl | hr'
    · obtain ⟨k, rfl⟩ := Option.ne_none_iff_exists'.mp fun h => hcoded (hnone.mp h)
      refine ⟨r'.redemption k, ?_, heffect.redeemed (hcheck k rfl)⟩
      exact (Table.insert?_eq_some heffect.redemptions).2 ▸ List.mem_cons_self
    · obtain ⟨row, hrow, hredeemed⟩ := hsound.redeemed r' hr' hcoded
      exact ⟨row, hkept row hrow, hredeemed.mono heffect⟩
  · cases check with
    | none =>
      have hrow' : row ∈ w.store.redemptions.rows := (Option.some.inj heffect.redemptions).symm ▸ hrow
      exact (hsound.recorded row hrow').imp_right (hearlier row)
    | some k =>
      rw [(Table.insert?_eq_some heffect.redemptions).2] at hrow
      rcases List.mem_cons.mp hrow with rfl | hrow
      · exact .inr ⟨r, hcommitted ▸ List.mem_cons_self, heffect.redeemed (hcheck k rfl)⟩
      · exact (hsound.recorded row hrow).imp_right (hearlier row)

/-- One redemption of ten percent is left to give. -/
def lastCoupon : Coupon where
  id := 1
  code := "SAVE10"
  discountType := .percent
  discountValue := 10
  maxRedemptions := some 1
  redemptionCount := 0
  minOrderAmount := none
  expiresAt := none
  isActive := true

def couponStore : CouponStore := ⟨.single lastCoupon, .empty, .empty⟩

open OrderWorld (sampleChallengeOrder sampleDraw)

def checkoutOf (id userId : ℕ) (rawCode : String) : CheckoutRequest where
  order := { sampleChallengeOrder id 15555 none with userId := userId }
  rawCode := rawCode
  now := 0
  draw := sampleDraw

/-- Capital letters, and a hash of few values. -/
def sampleCodeFunctions : CodeFunctions :=
  ⟨fun code => .ofList (code.toList.map Char.toUpper), fun code => code.toList.length⟩

/-- Two users send the last coupon in their own spelling; the second one gets the lock after the first. -/
def lastCouponRace : List (Sessions.Action CheckoutRequest) :=
  [.start 0 (checkoutOf 1 5 " save10"), .start 1 (checkoutOf 2 6 "Save10"), .query 0 .ok] ++
    List.replicate 6 (.query 0 .ok) ++ List.replicate 3 (.query 1 .ok)

end PropFirm
