import PropFirm.StripeWebhooks

/-!
# What the order operations leave standing

Every operation but a reversal keeps the orders there are, a reversed one as it is and a paid one paid, and
an active account, an issued voucher or a commission it adds belongs to an order that is paid in the end.
`Continues` says so once; the operations compose it from the tables they write.
-/

namespace PropFirm

namespace OrderDb

def Paid (db : OrderDb) (id : Nat) : Prop := ∃ order, db.order? id = some order ∧ order.status = .paid

def Reversed (db : OrderDb) (id : Nat) : Prop := ∃ order, db.order? id = some order ∧ order.status.Reversed

/-- Every reference an order holds is one of its own payment's ids. -/
def Owned (owner : String → Option Nat) (db : OrderDb) : Prop :=
  ∀ id order, db.order? id = some order → ∀ reference ∈ order.providerReference, owner reference = some id

variable {db : OrderDb} {id k : Nat} {order : ChallengeOrder}

theorem order?_rewrite_self (horder : db.order? id = some order) (f : Table.Rewrite ChallengeOrder) :
    order? { db with orders := db.orders.updateAt id f } id = some (f.apply order) := by
  refine (Table.find?_updateAt db.orders id f id).trans ?_
  rw [show db.orders.find? id = some order from horder, Option.map_some, if_pos rfl]

theorem eq_of_order?_rewrite_self {f : Table.Rewrite ChallengeOrder} {new : ChallengeOrder}
    (hnew : order? { db with orders := db.orders.updateAt id f } id = some new) :
    ∃ order, db.order? id = some order ∧ f.apply order = new := by
  obtain ⟨order, horder, happly⟩ :=
    Option.map_eq_some_iff.mp ((Table.find?_updateAt db.orders id f id).symm.trans hnew)
  exact ⟨order, horder, (if_pos rfl).symm.trans happly⟩

theorem order?_rewrite_other (db : OrderDb) (f : Table.Rewrite ChallengeOrder) (hk : k ≠ id) :
    order? { db with orders := db.orders.updateAt id f } k = db.order? k := by
  refine (Table.find?_updateAt db.orders id f k).trans ?_
  simp only [hk, if_false, Option.map_id']
  rfl

end OrderDb

open OrderDb

structure Continues (owner : String → Option Nat) (db db' : OrderDb) : Prop where
  kept : ∀ id order, db.order? id = some order → ∃ order', db'.order? id = some order' ∧
    order'.isGift = order.isGift ∧ (order.status.Reversed → order'.status = order.status) ∧
    (order.status = .paid → order'.status = .paid)
  reversed : ∀ id, db'.Reversed id → db.Reversed id
  owned : db.Owned owner → db'.Owned owner
  accounts : ∀ a' ∈ db'.accounts.rows, a'.row.status = .active →
    (∃ a ∈ db.accounts.rows, a.orderId = a'.orderId ∧ a.row.status = .active) ∨ db'.Paid a'.orderId
  vouchers : ∀ v' ∈ db'.vouchers.rows, v'.status = .issued →
    (∃ v ∈ db.vouchers.rows, v.orderId = v'.orderId ∧ v.status = .issued) ∨ db'.Paid v'.orderId
  commissions : ∀ id, db'.commissions.find? id = db.commissions.find? id ∨ db'.Paid id
  clawbacks : db'.clawbacks = db.clawbacks

namespace Continues

variable {owner : String → Option Nat} {db db' db'' : OrderDb}

theorem paid (h : Continues owner db db') {id : Nat} (hpaid : db.Paid id) : db'.Paid id := by
  obtain ⟨order, horder, hstatus⟩ := hpaid
  obtain ⟨order', horder', _, _, hstays⟩ := h.kept id order horder
  exact ⟨order', horder', hstays hstatus⟩

theorem stays_reversed (h : Continues owner db db') {id : Nat} (hreversed : db.Reversed id) :
    db'.Reversed id := by
  obtain ⟨order, horder, hstatus⟩ := hreversed
  obtain ⟨order', horder', _, hstays, _⟩ := h.kept id order horder
  exact ⟨order', horder', (hstays hstatus).symm ▸ hstatus⟩

protected theorem trans (h : Continues owner db db') (h' : Continues owner db' db'') :
    Continues owner db db'' where
  kept id order horder := by
    obtain ⟨order', horder', hgift, hreversed, hpaid⟩ := h.kept id order horder
    obtain ⟨order'', horder'', hgift', hreversed', hpaid'⟩ := h'.kept id order' horder'
    refine ⟨order'', horder'', hgift'.trans hgift, fun hwas => ?_, fun hwas => hpaid' (hpaid hwas)⟩
    exact (hreversed' (by rwa [hreversed hwas])).trans (hreversed hwas)
  reversed id hreversed := h.reversed id (h'.reversed id hreversed)
  owned howned := h'.owned (h.owned howned)
  accounts a hmem hactive := by
    rcases h'.accounts a hmem hactive with ⟨a', hmem', hof', hactive'⟩ | hpaid
    · rcases h.accounts a' hmem' hactive' with ⟨b, hmem'', hof'', hactive''⟩ | hpaid
      · exact .inl ⟨b, hmem'', hof''.trans hof', hactive''⟩
      · exact .inr (hof' ▸ h'.paid hpaid)
    · exact .inr hpaid
  vouchers v hmem hissued := by
    rcases h'.vouchers v hmem hissued with ⟨v', hmem', hof', hissued'⟩ | hpaid
    · rcases h.vouchers v' hmem' hissued' with ⟨u, hmem'', hof'', hissued''⟩ | hpaid
      · exact .inl ⟨u, hmem'', hof''.trans hof', hissued''⟩
      · exact .inr (hof' ▸ h'.paid hpaid)
    · exact .inr hpaid
  commissions id := by
    rcases h'.commissions id with hsame' | hpaid
    · rcases h.commissions id with hsame | hpaid
      · exact .inl (hsame'.trans hsame)
      · exact .inr (h'.paid hpaid)
    · exact .inr hpaid
  clawbacks := h'.clawbacks.trans h.clawbacks

/-- Tables written beside the orders. -/
theorem of_tables (horders : db'.orders = db.orders)
    (haccounts : ∀ a' ∈ db'.accounts.rows, a'.row.status = .active →
      (∃ a ∈ db.accounts.rows, a.orderId = a'.orderId ∧ a.row.status = .active) ∨ db.Paid a'.orderId)
    (hvouchers : ∀ v' ∈ db'.vouchers.rows, v'.status = .issued →
      (∃ v ∈ db.vouchers.rows, v.orderId = v'.orderId ∧ v.status = .issued) ∨ db.Paid v'.orderId)
    (hcommissions : ∀ id, db'.commissions.find? id = db.commissions.find? id ∨ db.Paid id)
    (hclawbacks : db'.clawbacks = db.clawbacks) : Continues owner db db' := by
  have hsame : ∀ id, db'.order? id = db.order? id := fun id => by rw [order?, horders, order?]
  have hpaid : ∀ {id}, db.Paid id → db'.Paid id := fun {id} => by
    rw [Paid, Paid, hsame]
    exact fun h => h
  refine ⟨fun id order horder => ?_, fun id hreversed => ?_, fun howned id order horder => ?_,
    fun a hmem hactive => (haccounts a hmem hactive).imp_right hpaid,
    fun v hmem hissued => (hvouchers v hmem hissued).imp_right hpaid,
    fun id => (hcommissions id).imp_right hpaid, hclawbacks⟩
  · exact ⟨order, (hsame id).trans horder, rfl, fun _ => rfl, fun h => h⟩
  · rwa [OrderDb.Reversed, hsame] at hreversed
  · exact howned id order ((hsame id).symm.trans horder)

protected theorem refl (db : OrderDb) : Continues owner db db :=
  .of_tables rfl (fun a hmem hactive => .inl ⟨a, hmem, rfl, hactive⟩)
    (fun v hmem hissued => .inl ⟨v, hmem, rfl, hissued⟩) (fun _ => .inl rfl) rfl

theorem of_claims (db : OrderDb) (claims : Table IdempotencyClaim) :
    Continues owner db { db with claims := claims } :=
  .of_tables rfl (fun a hmem hactive => .inl ⟨a, hmem, rfl, hactive⟩)
    (fun v hmem hissued => .inl ⟨v, hmem, rfl, hissued⟩) (fun _ => .inl rfl) rfl

/-- A new order that is not reversed and holds no reference. -/
theorem of_insertOrder {orders : Table ChallengeOrder} {order : ChallengeOrder}
    (hinsert : db.orders.insert? order = some orders) (hstatus : ¬ order.status.Reversed)
    (hreference : order.providerReference = none) :
    Continues owner db { db with orders := orders } := by
  have hfind : ∀ k, order? { db with orders := orders } k
      = if order.id = k then some order else db.order? k := Table.find?_of_insert? hinsert
  have hfresh : ∀ k old, db.order? k = some old → order.id ≠ k := by
    rintro k old hold rfl
    obtain ⟨hmem, hkey⟩ := Table.find?_eq_some.mp hold
    exact (Table.insert?_eq_some hinsert).1 old hmem hkey
  refine ⟨fun k old hold => ?_, fun k hreversed => ?_, fun howned k new hnew => ?_,
    fun a hmem hactive => .inl ⟨a, hmem, rfl, hactive⟩,
    fun v hmem hissued => .inl ⟨v, hmem, rfl, hissued⟩, fun _ => .inl rfl, rfl⟩
  · refine ⟨old, ?_, rfl, fun _ => rfl, fun h => h⟩
    rw [hfind, if_neg (hfresh k old hold)]
    exact hold
  · obtain ⟨new, hnew, hstatus'⟩ := hreversed
    rw [hfind] at hnew
    split at hnew
    · cases hnew
      exact absurd hstatus' hstatus
    · exact ⟨new, hnew, hstatus'⟩
  · rw [hfind] at hnew
    split at hnew
    · cases hnew
      intro reference hmem
      rw [hreference] at hmem
      cases hmem
    · exact howned k new hnew

/-- One order rewritten: neither into nor out of a reversal, nor away from being paid. -/
theorem of_updateOrder {id : Nat} {f : Table.Rewrite ChallengeOrder}
    (hgift : ∀ order, (f.apply order).isGift = order.isGift)
    (hstatus : ∀ order, db.order? id = some order → (f.apply order).status = order.status ∨
      ¬ order.status.Reversed ∧ ¬ (f.apply order).status.Reversed ∧
        (order.status = .paid → (f.apply order).status = .paid))
    (hreference : ∀ order, db.order? id = some order → (f.apply order).providerReference
      = order.providerReference ∨ ∀ reference ∈ (f.apply order).providerReference,
        owner reference = some id) :
    Continues owner db { db with orders := db.orders.updateAt id f } := by
  refine ⟨fun k order horder => ?_, fun k hreversed => ?_, fun howned k new hnew => ?_,
    fun a hmem hactive => .inl ⟨a, hmem, rfl, hactive⟩,
    fun v hmem hissued => .inl ⟨v, hmem, rfl, hissued⟩, fun _ => .inl rfl, rfl⟩
  · by_cases hk : k = id
    · subst hk
      refine ⟨f.apply order, order?_rewrite_self horder f, hgift order, fun hwas => ?_, fun hwas => ?_⟩
      · exact (hstatus order horder).resolve_right fun h => h.1 hwas
      · rcases hstatus order horder with hsame | ⟨_, _, hpaid⟩
        · exact hsame.trans hwas
        · exact hpaid hwas
    · exact ⟨order, (order?_rewrite_other db f hk).trans horder, rfl, fun _ => rfl, fun h => h⟩
  · obtain ⟨new, hnew, hwas⟩ := hreversed
    by_cases hk : k = id
    · subst hk
      obtain ⟨order, horder, rfl⟩ := eq_of_order?_rewrite_self hnew
      refine ⟨order, horder, ?_⟩
      rcases hstatus order horder with hsame | ⟨_, hnot, _⟩
      · rwa [hsame] at hwas
      · exact absurd hwas hnot
    · exact ⟨new, (order?_rewrite_other db f hk).symm.trans hnew, hwas⟩
  · by_cases hk : k = id
    · subst hk
      obtain ⟨order, horder, rfl⟩ := eq_of_order?_rewrite_self hnew
      rcases hreference order horder with hsame | hown
      · rw [hsame]
        exact howned k order horder
      · exact hown
    · exact howned k new ((order?_rewrite_other db f hk).symm.trans hnew)

/-- One account's status rewritten away from active. -/
theorem of_updateAccounts {p : IssuedAccount → Bool} {status : AccountStatus} (hstatus : status ≠ .active) :
    Continues owner db { db with accounts := db.accounts.update p (IssuedAccount.movedTo status) } := by
  refine .of_tables rfl (fun a hmem hactive => .inl ⟨a, ?_, rfl, hactive⟩)
    (fun v hmem hissued => .inl ⟨v, hmem, rfl, hissued⟩) (fun _ => .inl rfl) rfl
  refine Table.mem_of_mem_update hmem fun other hsame => hstatus ?_
  rw [← hactive, ← hsame]
  rfl

/-- Vouchers rewritten, none of them back to issued. -/
theorem of_updateVouchers {p : GiftVoucher → Bool} {f : Table.Rewrite GiftVoucher}
    (hstatus : ∀ v, (f.apply v).status ≠ .issued) :
    Continues owner db { db with vouchers := db.vouchers.update p f } := by
  refine .of_tables rfl (fun a hmem hactive => .inl ⟨a, hmem, rfl, hactive⟩)
    (fun v hmem hissued => .inl ⟨v, ?_, rfl, hissued⟩) (fun _ => .inl rfl) rfl
  exact Table.mem_of_mem_update hmem fun other hsame => hstatus other (hsame ▸ hissued)

/-- Vouchers and commissions come, all of one paid order. -/
theorem of_earned {orderId : Nat} {vouchers : Table GiftVoucher} {commissions : Table Commission}
    (hpaid : db.Paid orderId) (hvouchers : ∀ v ∈ vouchers.rows, v ∈ db.vouchers.rows ∨ v.orderId = orderId)
    (hcommissions : ∀ id, commissions.find? id = db.commissions.find? id ∨ id = orderId) :
    Continues owner db { db with vouchers := vouchers, commissions := commissions } := by
  refine .of_tables rfl (fun a hmem hactive => .inl ⟨a, hmem, rfl, hactive⟩) (fun v hmem hissued => ?_)
    (fun k => (hcommissions k).imp_right fun hk : k = orderId => hk ▸ hpaid) rfl
  rcases hvouchers v hmem with hold | hof
  · exact .inl ⟨v, hold, rfl, hissued⟩
  · exact .inr (hof ▸ hpaid)

end Continues

variable {owner : String → Option Nat} {db db' : OrderDb}

/-! ### Placing and redeeming -/

theorem ChallengeOrderRequest.row_not_reversed (request : ChallengeOrderRequest) : ¬ request.row.status.Reversed := by
  rw [ChallengeOrderRequest.row]
  split <;> exact of_decide_eq_false rfl

theorem paid_of_insert {orders : Table ChallengeOrder} {order : ChallengeOrder}
    (hinsert : db.orders.insert? order = some orders) (hstatus : order.status = .paid) :
    Paid { db with orders := orders } order.id :=
  ⟨order, (Table.find?_of_insert? hinsert order.id).trans (if_pos rfl), hstatus⟩

theorem placeOrder_continues {request : ChallengeOrderRequest} {draw : VoucherDraw}
    (hplace : placeOrder db request draw = some db') : Continues owner db db' := by
  obtain ⟨orders, vouchers, hinsert, rfl, hvouchers⟩ := placeOrder_eq_some hplace
  have hplaced : Continues owner db { db with orders := orders } :=
    .of_insertOrder hinsert request.row_not_reversed rfl
  refine hplaced.trans (.of_tables rfl (fun a hmem hactive => .inl ⟨a, hmem, rfl, hactive⟩)
    (fun v hmem hissued => ?_) (fun _ => .inl rfl) rfl)
  rcases hvouchers v hmem with hold | ⟨hpaid, hof⟩
  · exact .inl ⟨v, hold, rfl, hissued⟩
  · exact .inr (hof ▸ paid_of_insert hinsert hpaid)

theorem redeemPrize_continues {id userId accountSize : Nat} {slug : String}
    (hredeem : redeemPrize db id userId accountSize slug = some db') : Continues owner db db' := by
  obtain ⟨orders, hinsert, rfl⟩ := Option.map_eq_some_iff.mp hredeem
  exact .of_insertOrder hinsert (of_decide_eq_false rfl) rfl

theorem redeemGiftVoucher_continues (db : OrderDb) (models : List String) (request : VoucherRequest) :
    Continues owner db (redeemGiftVoucher db models request).1 := by
  rcases redeemGiftVoucher_cases db models request with hdb | hdb | ⟨_, orders, _, _, hinsert, hdb⟩
  · rw [hdb]
    exact .refl db
  · rw [hdb]
    exact .of_updateVouchers fun _ => nofun
  · have hclaimed : Continues owner db { db with orders := orders } :=
      .of_insertOrder hinsert (of_decide_eq_false rfl) rfl
    rw [hdb]
    exact hclaimed.trans (.of_updateVouchers fun _ => nofun)

theorem revokeGiftVoucher_continues (db : OrderDb) (code : String) :
    Continues owner db (revokeGiftVoucher db code) :=
  .of_updateVouchers fun _ => nofun

/-! ### Creating accounts -/

/-- The order's own gates ask for a paid order of the user's, of the size asked for, and nothing else. -/
theorem orderGates_eq_ok {request : CreateRequest} {order : ChallengeOrder} :
    orderGates db request = .ok order ↔ request.challengeOrderId = some order.id ∧
      db.order? order.id = some order ∧ order.userId = request.userId ∧
      order.accountSize = request.accountSize ∧ order.status = .paid := by
  unfold orderGates
  constructor
  · intro hgates
    cases hid : request.challengeOrderId with
    | none =>
      rw [hid] at hgates
      cases hgates
    | some orderId =>
      rw [hid] at hgates
      dsimp only at hgates
      cases horder : (db.order? orderId).filter (·.userId = request.userId) with
      | none =>
        rw [horder] at hgates
        cases hgates
      | some found =>
        rw [horder] at hgates
        simp only [Except.ite_throw_bind_eq_ok] at hgates
        obtain ⟨hsize, hstatus, hfound⟩ := hgates
        cases hfound
        obtain ⟨hfind, huser⟩ := Option.filter_eq_some_iff.mp horder
        have hkey : order.id = orderId := (Table.find?_eq_some.mp hfind).2
        exact ⟨congrArg some hkey.symm, hkey ▸ hfind, of_decide_eq_true huser, not_not.mp hsize,
          not_not.mp hstatus⟩
  · rintro ⟨hid, horder, huser, hsize, hpaid⟩
    have hmine : (db.order? order.id).filter (·.userId = request.userId) = some order :=
      Option.filter_eq_some_iff.mpr ⟨horder, decide_eq_true huser⟩
    rw [hid]
    dsimp only
    rw [hmine]
    simp only [Except.ite_throw_bind_eq_ok]
    exact ⟨not_not.mpr hsize, not_not.mpr hpaid, rfl⟩

theorem createGates_eq_ok {ctx : CreateContext} {request : CreateRequest} {order : ChallengeOrder}
    {model : EntryModel} (hgates : createGates db ctx request = .ok (order, model)) :
    orderGates db request = .ok order := by
  simp only [createGates, Except.ite_throw_bind_eq_ok] at hgates
  obtain ⟨_, _, _, hrest⟩ := hgates
  cases horder : orderGates db request with
  | error e =>
    rw [horder] at hrest
    cases hrest
  | ok found =>
    rw [horder] at hrest
    obtain ⟨_, hfound, hrest⟩ := Except.bind_eq_ok.mp hrest
    obtain rfl := Except.ok.inj hfound
    split at hrest
    · cases hrest
    split at hrest
    · cases hrest
    obtain ⟨_, _, hpair⟩ := Except.bind_eq_ok.mp hrest
    cases hpair
    rfl

theorem createAccount_eq_ok {ctx : CreateContext} {request : CreateRequest} {order : ChallengeOrder}
    {account : IssuedAccount} (hcreate : createAccount db ctx request = .ok (db', order, account)) :
    ∃ model accounts, createGates db ctx request = .ok (order, model) ∧
      db.accounts.insert? account = some accounts ∧ db' = { db with accounts := accounts } ∧
      account.row.status = .active ∧ account.orderId = order.id ∧ account.claimId = request.claimId := by
  obtain ⟨⟨found, model⟩, hgates, hrest⟩ := Except.bind_eq_ok.mp hcreate
  dsimp only at hrest
  split at hrest
  · cases hrest
  · rename_i accounts hinsert
    cases hrest
    exact ⟨model, accounts, hgates, hinsert, rfl, rfl, rfl, rfl⟩

theorem createAccount_continues {ctx : CreateContext} {request : CreateRequest} {order : ChallengeOrder}
    {account : IssuedAccount} (hcreate : createAccount db ctx request = .ok (db', order, account)) :
    Continues owner db db' := by
  obtain ⟨model, accounts, hgates, hinsert, rfl, _, hof, _⟩ := createAccount_eq_ok hcreate
  obtain ⟨_, horder, _, _, hpaid⟩ := orderGates_eq_ok.mp (createGates_eq_ok hgates)
  refine .of_tables rfl (fun a hmem hactive => ?_) (fun v hmem hissued => .inl ⟨v, hmem, rfl, hissued⟩)
    (fun _ => .inl rfl) rfl
  rcases List.mem_cons.mp ((Table.insert?_eq_some hinsert).2 ▸ hmem) with rfl | hold
  · exact .inr ⟨order, hof ▸ horder, hpaid⟩
  · exact .inl ⟨a, hold, rfl, hactive⟩

theorem stampOrder_continues (db : OrderDb) (orderId accountId : Nat) :
    Continues owner db (stampOrder db orderId accountId) :=
  .of_updateOrder (fun _ => rfl) (fun _ _ => .inl rfl) fun _ _ => .inl rfl

/-! ### The webhook -/

theorem recordSession_continues {orderId : Nat} {sessionId : String}
    (howner : owner sessionId = some orderId) : Continues owner db (recordSession db orderId sessionId) :=
  .of_updateOrder (fun _ => rfl) (fun _ _ => .inl rfl) fun _ _ => .inr fun reference hmem => by
    cases hmem
    exact howner

theorem handleSessionAbandoned_continues (db : OrderDb) (orderId : Nat) :
    Continues owner db (handleSessionAbandoned db orderId) := by
  rcases handleSessionAbandoned_cases db orderId with hdb | ⟨order, horder, hunpaid, hdb⟩
  · rw [hdb]
    exact .refl db
  · rw [hdb]
    refine .of_updateOrder (fun _ => rfl) (fun found hfound => .inr ?_) fun _ _ => .inl rfl
    cases horder.symm.trans hfound
    refine ⟨?_, of_decide_eq_false rfl, ?_⟩ <;> rcases hunpaid with h | h <;> rw [h]
    all_goals first | exact of_decide_eq_false rfl | exact nofun

/-- A payable order is paid in the end, and whatever the gift and the commission add is its own. -/
theorem markChallengeOrderPaid_continues {ctx : PaymentContext} {orderId : Nat} {providerPaymentId : String}
    (howner : owner providerPaymentId = some orderId)
    (hmark : markChallengeOrderPaid db ctx orderId providerPaymentId = some db') :
    Continues owner db db' ∧ ∀ order, db.order? orderId = some order → ¬ order.status.Reversed →
      order.status ≠ .cancelled → db'.Paid orderId := by
  rcases markChallengeOrderPaid_eq_some hmark with
    ⟨rfl, hunpayable⟩ | ⟨order, vouchers, commissions, horder, hpayable, rfl, hvouchers, hcommissions⟩
  · refine ⟨.refl db', fun order horder hreversed hcancelled => ?_⟩
    exact absurd (hunpayable order horder) (not_or.mpr ⟨hreversed, hcancelled⟩)
  · have hmarked : Continues owner db
        { db with orders := db.orders.updateAt orderId (ChallengeOrder.paidWith providerPaymentId) } := by
      refine .of_updateOrder (fun _ => rfl) (fun found hfound => .inr ?_) fun _ _ => .inr fun _ hmem => ?_
      · cases horder.symm.trans hfound
        exact ⟨fun h => hpayable (.inl h), of_decide_eq_false rfl, fun _ => rfl⟩
      · cases hmem
        exact howner
    have hpaid : Paid
        { db with orders := db.orders.updateAt orderId (ChallengeOrder.paidWith providerPaymentId) }
        orderId :=
      ⟨_, order?_rewrite_self horder (ChallengeOrder.paidWith providerPaymentId), rfl⟩
    have hearned : Continues owner _ _ := .of_earned hpaid hvouchers hcommissions
    exact ⟨hmarked.trans hearned, fun _ _ _ _ => hearned.paid hpaid⟩

theorem processSessionEvent_continues {event : StripeEvent} {payment : PaymentContext}
    (howner : ∀ orderId ∈ event.orderId, owner event.providerPaymentId = some orderId)
    (hprocess : processSessionEvent db event payment = some db') : Continues owner db db' := by
  rcases processSessionEvent_eq_some hprocess with rfl | ⟨orderId, horderId, hmark | rfl⟩
  · exact .refl db'
  · exact (markChallengeOrderPaid_continues (howner orderId horderId) hmark).1
  · exact handleSessionAbandoned_continues db orderId

/-! ### Reversals -/

theorem freezeAccountsForOrder_eq (db : OrderDb) (order : ChallengeOrder) :
    ∃ accounts, freezeAccountsForOrder db order = { db with accounts := accounts } ∧
      accounts.rows = db.accounts.rows.map fun a =>
        if order.accountId = some a.row.id ∧ a.row.status = .active then
          (IssuedAccount.movedTo .locked).apply a
        else a := by
  unfold freezeAccountsForOrder
  cases order.accountId with
  | none => exact ⟨db.accounts, rfl, by simp⟩
  | some accountId =>
    refine ⟨_, rfl, (Table.rows_update _ _ _).trans (List.map_congr_left fun a _ => ?_)⟩
    simp only [decide_eq_true_eq, Option.some.injEq, eq_comm (a := accountId)]

/-- A clawback writes nothing else, and depends on the commissions and the earlier clawbacks alone. -/
theorem clawbackCommissionForOrder_eq (db : OrderDb) (orders : Table ChallengeOrder)
    (accounts : Table IssuedAccount) (orderId : Nat) :
    clawbackCommissionForOrder { db with orders := orders, accounts := accounts } orderId =
      { db with
        orders := orders
        accounts := accounts
        clawbacks := (clawbackCommissionForOrder db orderId).clawbacks } := by
  unfold clawbackCommissionForOrder
  dsimp only
  split
  · rfl
  split <;> rfl

/-- What the reversal of an order writes, table by table. -/
structure Reverses (order : ChallengeOrder) (status : OrderStatus) (db db' : OrderDb) : Prop where
  orders : db'.orders = db.orders.updateAt order.id (ChallengeOrder.movedTo status)
  accounts : db'.accounts.rows = db.accounts.rows.map fun a =>
    if order.accountId = some a.row.id ∧ a.row.status = .active then
      (IssuedAccount.movedTo .locked).apply a
    else a
  vouchers : db'.vouchers = db.vouchers
  commissions : db'.commissions = db.commissions
  clawbacks : db'.clawbacks = (clawbackCommissionForOrder db order.id).clawbacks
  claims : db'.claims = db.claims

/-- A reversal does nothing, or it moves one order that was not reversed. -/
theorem handleChargeReversal_cases (db : OrderDb) (found : Option ChallengeOrder) (status : OrderStatus) :
    (handleChargeReversal db found status = db ∧
      ∀ order ∈ found, ∀ current, db.order? order.id = some current → current.status.Reversed) ∨
    ∃ order current, found = some order ∧ db.order? order.id = some current ∧
      ¬ current.status.Reversed ∧ Reverses order status db (handleChargeReversal db found status) := by
  cases found with
  | none => exact .inl ⟨rfl, nofun⟩
  | some order =>
    rw [handleChargeReversal]
    cases horder : db.order? order.id with
    | none =>
      refine .inl ⟨rfl, fun found hfound current hcurrent => ?_⟩
      cases hfound
      cases horder.symm.trans hcurrent
    | some current =>
      by_cases hreversed : current.status.Reversed
      · refine .inl ⟨if_pos hreversed, fun found hfound other hother => ?_⟩
        cases hfound
        cases horder.symm.trans hother
        exact hreversed
      · obtain ⟨accounts, hfreeze, hrows⟩ := freezeAccountsForOrder_eq
          { db with orders := db.orders.updateAt order.id (ChallengeOrder.movedTo status) } order
        have hmoved := (congrArg (clawbackCommissionForOrder · order.id) hfreeze).trans
          (clawbackCommissionForOrder_eq db _ accounts order.id)
        refine .inr ⟨order, current, rfl, horder, hreversed, ?_⟩
        dsimp only
        rw [if_neg hreversed, hmoved]
        exact ⟨rfl, hrows, rfl, rfl, rfl, rfl⟩

theorem Reverses.order?_eq {order : ChallengeOrder} {status : OrderStatus}
    (h : Reverses order status db db') (k : Nat) : db'.order? k
      = (db.order? k).map fun o => { o with status := if k = order.id then status else o.status } := by
  rw [order?, h.orders, Table.find?_updateAt]
  by_cases hk : k = order.id
  · simp only [hk, if_true]
    rfl
  · simp only [hk, if_false]
    rfl

theorem Reverses.reversed_self (h : Reverses order status db db') {current : ChallengeOrder}
    (hcurrent : db.order? order.id = some current) (hstatus : status.Reversed) :
    db'.Reversed order.id := by
  refine ⟨_, (h.order?_eq order.id).trans (congrArg _ hcurrent), ?_⟩
  simpa using hstatus

theorem Reverses.reversed_other (h : Reverses order status db db') {k : Nat} (hk : k ≠ order.id) :
    db'.Reversed k ↔ db.Reversed k := by
  rw [OrderDb.Reversed, h.order?_eq, OrderDb.Reversed]
  simp [hk]

/-- Each order after a reversal is as it was but for its status. -/
theorem handleChargeReversal_order? (db : OrderDb) (found : Option ChallengeOrder) (status : OrderStatus)
    (k : Nat) : ∃ f : ChallengeOrder → OrderStatus, (handleChargeReversal db found status).order? k
      = (db.order? k).map fun order => { order with status := f order } := by
  rcases handleChargeReversal_cases db found status with ⟨hsame, _⟩ | ⟨order, _, _, _, _, hmoved⟩
  · rw [hsame]
    exact ⟨ChallengeOrder.status, Option.map_id'.symm⟩
  · exact ⟨_, hmoved.order?_eq k⟩

theorem handleChargeReversal_kept {found : Option ChallengeOrder} {status : OrderStatus} {k : Nat}
    {order : ChallengeOrder} (horder : db.order? k = some order) :
    ∃ order', (handleChargeReversal db found status).order? k = some order' ∧
      order'.isGift = order.isGift := by
  obtain ⟨f, hf⟩ := handleChargeReversal_order? db found status k
  exact ⟨_, hf.trans (congrArg _ horder), rfl⟩

theorem handleChargeReversal_owned {found : Option ChallengeOrder} {status : OrderStatus}
    (howned : db.Owned owner) : (handleChargeReversal db found status).Owned owner := by
  intro k order' horder'
  obtain ⟨f, hf⟩ := handleChargeReversal_order? db found status k
  obtain ⟨order, horder, rfl⟩ := Option.map_eq_some_iff.mp (hf.symm.trans horder')
  exact howned k order horder

end PropFirm
