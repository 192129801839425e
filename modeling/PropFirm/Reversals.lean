import PropFirm.OrderSystem

/-!
# Reversals

A refund or a dispute has to end everything an order has led to: the accounts it funds, the commission it
has earned and the voucher it was sent as. What a reversal does is done for good, whatever comes later,
because every later operation asks for an order that is paid. Whether it does all of it depends on what it
finds: the order at all, the account in the order's metadata, and no voucher, since it never looks for one.
-/

namespace PropFirm

open Transition

namespace OrderDb

variable {db : OrderDb} {id : Nat}

instance (db : OrderDb) (id : Nat) : Decidable (db.Reversed id) :=
  decidable_of_iff (∃ order ∈ db.order? id, order.status.Reversed) Iff.rfl

/-- The order has nothing left that is worth anything. -/
structure Closed (db : OrderDb) (id : Nat) : Prop where
  accounts : ∀ a ∈ db.accountsOf id, a.row.status ≠ .active
  commission : db.netCommission id = 0
  vouchers : ∀ v ∈ db.vouchersOf id, v.status ≠ .issued

theorem not_paid_of_reversed (hreversed : db.Reversed id) : ¬ db.Paid id := by
  rintro ⟨order, horder, hpaid⟩
  obtain ⟨found, hfound, hstatus⟩ := hreversed
  cases horder.symm.trans hfound
  rw [hpaid] at hstatus
  exact absurd hstatus (of_decide_eq_false rfl)

end OrderDb

variable {owner : String → Option Nat} {db db' : OrderDb} {id : Nat}

/-- What is added later belongs to paid orders. -/
theorem Continues.closed (h : Continues owner db db') (hreversed : db'.Reversed id)
    (hclosed : db.Closed id) : db'.Closed id := by
  have hunpaid := OrderDb.not_paid_of_reversed hreversed
  refine ⟨fun a hmem hactive => ?_, ?_, fun v hmem hissued => ?_⟩
  · obtain ⟨ha, haof⟩ := List.mem_filter.mp hmem
    obtain rfl := of_decide_eq_true haof
    obtain ⟨old, hold, hof, hwas⟩ := (h.accounts a ha hactive).resolve_right hunpaid
    exact hclosed.accounts old (List.mem_filter.mpr ⟨hold, decide_eq_true hof⟩) hwas
  · rw [OrderDb.netCommission, (h.commissions id).resolve_right hunpaid, h.clawbacks]
    exact hclosed.commission
  · obtain ⟨hv, hvof⟩ := List.mem_filter.mp hmem
    obtain rfl := of_decide_eq_true hvof
    obtain ⟨old, hold, hof, hwas⟩ := (h.vouchers v hv hissued).resolve_right hunpaid
    exact hclosed.vouchers old (List.mem_filter.mpr ⟨hold, decide_eq_true hof⟩) hwas

/-! ### The clawback -/

/-- A first clawback takes back exactly what the commission has earned. -/
theorem clawbackCommissionForOrder_netCommission (hfirst : ∀ c ∈ db.clawbacks, c.orderId ≠ id) :
    (clawbackCommissionForOrder db id).netCommission id = 0 := by
  have hnone : db.clawbacks.filter (fun c => c.orderId = id) = [] :=
    List.filter_eq_nil_iff.mpr fun c hc => by simpa using hfirst c hc
  rcases clawbackCommissionForOrder_cases db id with ⟨hsame, htaken⟩ | ⟨earned, hfind, _, _, hdb⟩
  · rw [hsame, OrderDb.netCommission, hnone, List.map_nil, List.sum_nil, add_zero]
    cases hfind : db.commissions.find? id with
    | none => rfl
    | some c =>
      refine le_antisymm (not_lt.mp fun hpos => ?_) c.nonneg
      obtain ⟨taken, hmem, hof⟩ := htaken c hfind hpos
      exact hfirst taken hmem hof
  · rw [hdb]
    simp [OrderDb.netCommission, hfind, hnone]

theorem clawbackCommissionForOrder_other {k : Nat} (hk : k ≠ id) :
    (clawbackCommissionForOrder db id).netCommission k = db.netCommission k := by
  rcases clawbackCommissionForOrder_cases db id with ⟨hsame, _⟩ | ⟨_, _, _, _, hdb⟩
  · rw [hsame]
  · rw [hdb]
    simp [OrderDb.netCommission, hk.symm]

theorem clawbackCommissionForOrder_mem {c : Clawback}
    (hmem : c ∈ (clawbackCommissionForOrder db id).clawbacks) : c ∈ db.clawbacks ∨ c.orderId = id := by
  rcases clawbackCommissionForOrder_cases db id with ⟨hsame, _⟩ | ⟨_, _, _, _, hdb⟩
  · exact .inl (hsame ▸ hmem)
  · rw [hdb] at hmem
    rcases List.mem_cons.mp hmem with rfl | hold
    · exact .inr rfl
    · exact .inl hold

/-! ### A reversal that finds everything -/

/-- What a reversal is going to freeze and to leave is all there is: every active account of the order is
the one its metadata names, and no voucher of it is outstanding. -/
def OrderDb.Reversible (db : OrderDb) (id : Nat) (found : Option ChallengeOrder) : Prop :=
  ∃ order ∈ found,
    (∀ a ∈ db.accountsOf id, a.row.status = .active → order.accountId = some a.row.id) ∧
    ∀ v ∈ db.vouchersOf id, v.status ≠ .issued

instance (db : OrderDb) (id : Nat) (found : Option ChallengeOrder) : Decidable (db.Reversible id found) :=
  inferInstanceAs (Decidable (∃ order ∈ found, _ ∧ _))

variable {order : ChallengeOrder} {status : OrderStatus}

theorem Reverses.netCommission (h : Reverses order status db db') (k : Nat) :
    db'.netCommission k = (clawbackCommissionForOrder db order.id).netCommission k := by
  have hcommissions : (clawbackCommissionForOrder db order.id).commissions = db.commissions := by
    rcases clawbackCommissionForOrder_cases db order.id with ⟨hsame, _⟩ | ⟨_, _, _, _, hdb⟩
    · rw [hsame]
    · rw [hdb]
  rw [OrderDb.netCommission, OrderDb.netCommission, h.commissions, h.clawbacks, hcommissions]

theorem Reverses.vouchersOf (h : Reverses order status db db') (k : Nat) :
    db'.vouchersOf k = db.vouchersOf k := by
  rw [OrderDb.vouchersOf, h.vouchers, OrderDb.vouchersOf]

/-- An active account of an order was active before, and is not the one the order's metadata names. -/
theorem Reverses.active (h : Reverses order status db db') {k : Nat} {a : IssuedAccount}
    (hmem : a ∈ db'.accountsOf k) (hactive : a.row.status = .active) :
    a ∈ db.accountsOf k ∧ order.accountId ≠ some a.row.id := by
  obtain ⟨ha, hof⟩ := List.mem_filter.mp hmem
  obtain ⟨old, hold, rfl⟩ := List.mem_map.mp (h.accounts ▸ ha)
  by_cases hfrozen : order.accountId = some old.row.id ∧ old.row.status = .active
  · rw [if_pos hfrozen] at hactive
    cases hactive
  · rw [if_neg hfrozen] at hactive hof ⊢
    exact ⟨List.mem_filter.mpr ⟨hold, hof⟩, fun hstamped => hfrozen ⟨hstamped, hactive⟩⟩

/-- The order that moves: its active account is locked and its commission netted. -/
theorem Reverses.closed (h : Reverses order status db db')
    (hfirst : ∀ c ∈ db.clawbacks, c.orderId ≠ order.id)
    (hreversible : db.Reversible order.id (some order)) : db'.Closed order.id := by
  obtain ⟨_, hfound, hstamped, hvouchers⟩ := hreversible
  cases hfound
  refine ⟨fun a hmem hactive => ?_, ?_, ?_⟩
  · obtain ⟨hwas, hother⟩ := h.active hmem hactive
    exact hother (hstamped a hwas hactive)
  · rw [h.netCommission]
    exact clawbackCommissionForOrder_netCommission hfirst
  · rw [h.vouchersOf]
    exact hvouchers

theorem Reverses.closed_other (h : Reverses order status db db') {k : Nat} (hk : k ≠ order.id)
    (hclosed : db.Closed k) : db'.Closed k := by
  refine ⟨fun a hmem hactive => hclosed.accounts a (h.active hmem hactive).1 hactive, ?_, ?_⟩
  · rw [h.netCommission, clawbackCommissionForOrder_other hk]
    exact hclosed.commission
  · rw [h.vouchersOf]
    exact hclosed.vouchers

theorem Reverses.stays_reversed (h : Reverses order status db db') (hstatus : status.Reversed) {k : Nat}
    (hreversed : db.Reversed k) : db'.Reversed k := by
  by_cases hk : k = order.id
  · subst hk
    obtain ⟨current, hcurrent, _⟩ := hreversed
    exact h.reversed_self hcurrent hstatus
  · exact (h.reversed_other hk).mpr hreversed

namespace OrderWorld

variable {w w' : OrderWorld} {action : OrderAction} {n : Nat} {begun : BegunReversal}

/-- A reversed order is closed, and every event that reverses one has done so. -/
structure Final (owner : String → Option Nat) (w : OrderWorld) : Prop where
  closed : ∀ id, w.db.Reversed id → w.db.Closed id
  clawed : ∀ c ∈ w.db.clawbacks, w.db.Reversed c.orderId
  recorded : ∀ event ∈ w.processed, event.type.reversal.isSome →
    ∀ id ∈ event.order owner, w.db.Reversed id

/-- A reversal that is committed for an order not reversed before has found it, and everything the order
has led to. -/
def ReversesWhole (owner : String → Option Nat) (w : OrderWorld) : OrderAction → Prop
  | .reverse n => ∀ begun ∈ w.reversals[n]?, ∀ id ∈ begun.event.order owner, ¬ w.db.Reversed id →
      w.db.Reversible id begun.found
  | _ => True

theorem Final.of_continues (hfinal : w.Final owner) (hcontinues : Continues owner w.db w'.db)
    (hprocessed : ∀ event ∈ w'.processed, event.type.reversal.isSome → event ∈ w.processed) :
    w'.Final owner where
  closed id hreversed := hcontinues.closed hreversed (hfinal.closed id (hcontinues.reversed id hreversed))
  clawed c hmem := by
    rw [hcontinues.clawbacks] at hmem
    exact hcontinues.stays_reversed (hfinal.clawed c hmem)
  recorded event hmem hreversal id hid :=
    hcontinues.stays_reversed (hfinal.recorded event (hprocessed event hmem hreversal) hreversal id hid)

theorem Final.of_reverse (hfinal : w.Final owner) (htraced : w.Traced owner)
    (hbegun : begun ∈ w.reversals) (hwhole : ∀ id ∈ begun.event.order owner, ¬ w.db.Reversed id →
      w.db.Reversible id begun.found) : (w.commitReversal n begun).Final owner := by
  obtain ⟨hstatus, hfound, hexists⟩ := htraced.begun begun hbegun
  have hreversedStatus := EventType.reversal_reversed hstatus
  rcases handleChargeReversal_cases w.db begun.found begun.status with
    ⟨hsame, halready⟩ | ⟨order, current, hfoundEq, hcurrent, hnot, hmoved⟩
  · refine ⟨?_, ?_, ?_⟩ <;> simp only [commitReversal, hsame]
    · exact hfinal.closed
    · exact hfinal.clawed
    · refine List.forall_mem_cons.mpr ⟨fun _ id hid => ?_, hfinal.recorded⟩
      by_contra hnot
      obtain ⟨order, horder, _⟩ := hwhole id hid hnot
      obtain rfl : order.id = id := Option.some.inj ((hfound order horder).symm.trans hid)
      obtain ⟨current, hcurrent⟩ := hexists order.id hid
      exact hnot ⟨current, hcurrent, halready order horder current hcurrent⟩
  · have hid : begun.event.order owner = some order.id := hfound order hfoundEq
    have hbefore : ¬ w.db.Reversed order.id := by
      rintro ⟨found, hfind, hwas⟩
      cases hcurrent.symm.trans hfind
      exact hnot hwas
    have hfirst : ∀ c ∈ w.db.clawbacks, c.orderId ≠ order.id := by
      intro c hc hof
      exact hbefore (hof ▸ hfinal.clawed c hc)
    refine ⟨fun k hreversed => ?_, fun c hc => ?_, ?_⟩
    · by_cases hk : k = order.id
      · subst hk
        exact hmoved.closed hfirst (hfoundEq ▸ hwhole order.id hid hbefore)
      · exact hmoved.closed_other hk (hfinal.closed k ((hmoved.reversed_other hk).mp hreversed))
    · rcases clawbackCommissionForOrder_mem (hmoved.clawbacks ▸ hc) with hold | hnew
      · exact hmoved.stays_reversed hreversedStatus (hfinal.clawed c hold)
      · rw [hnew]
        exact hmoved.reversed_self hcurrent hreversedStatus
    · refine List.forall_mem_cons.mpr ⟨fun _ id hof => ?_, fun event hmem hreversal id hof => ?_⟩
      · cases hid.symm.trans hof
        exact hmoved.reversed_self hcurrent hreversedStatus
      · exact hmoved.stays_reversed hreversedStatus (hfinal.recorded event hmem hreversal id hof)

theorem step_final (htraced : w.Traced owner) (hfinal : w.Final owner)
    (hok : w.ReversesWhole owner action) (hstep : w.step owner action = some w') : w'.Final owner := by
  cases action with
  | reverse n =>
    obtain ⟨begun, hbegun, hnth, rfl⟩ := step_reverse hstep
    exact hfinal.of_reverse htraced hbegun (hok begun hnth)
  | deliver event payment =>
    refine hfinal.of_continues (step_continues htraced hstep nofun) fun other hmem hreversal => ?_
    obtain ⟨_, rfl | ⟨_, _, rfl⟩ | ⟨hnone, _, _, rfl⟩⟩ := step_deliver hstep
    · exact hmem
    · exact hmem
    · rcases List.mem_cons.mp hmem with rfl | hold
      · rw [hnone] at hreversal
        cases hreversal
      · exact hold
  | openSession orderId userId sessionId =>
    refine hfinal.of_continues (step_continues htraced hstep nofun) fun other hmem _ => ?_
    obtain ⟨_, _, _, _, rfl⟩ := step_openSession hstep
    exact hmem
  | _ =>
    refine hfinal.of_continues (step_continues htraced hstep nofun) fun other hmem _ => ?_
    obtain ⟨_, _, hprocessed⟩ := step_quiet hstep trivial
    exact hprocessed ▸ hmem

theorem empty_final : Final owner empty where
  closed _ h := by
    obtain ⟨_, horder, _⟩ := h
    cases horder
  clawed _ h := by cases h
  recorded _ h := by cases h

/-- A voucher that is not issued any more is refused to whoever brings its code. -/
theorem redeemGiftVoucher_refused {v : GiftVoucher} (hmem : v ∈ db.vouchers.rows)
    (hstatus : v.status ≠ .issued) (models : List String) {request : VoucherRequest}
    (hcode : request.code = v.code) : ∃ e, (redeemGiftVoucher db models request).2 = .error e := by
  have hfind : db.vouchers.find? request.code = some v := Table.find?_eq_some.mpr ⟨hmem, hcode.symm⟩
  refine ⟨.notIssued, ?_⟩
  simp only [redeemGiftVoucher, hfind, hstatus, false_and, if_false, ne_eq, not_false_eq_true, if_true]

/-- Where every reversal finds its order with all it has led to, a reversal is final. -/
theorem reached_reversalFinal (hreach : Reach (step owner) (ReversesWhole owner) (· = empty) w) :
    ∀ event ∈ w.processed, event.type.reversal.isSome → ∀ orderId ∈ event.order owner,
      (∃ order, w.db.order? orderId = some order ∧
        (order.status = .refunded ∨ order.status = .disputed)) ∧
      (∀ a ∈ w.db.accountsOf orderId, a.row.status ≠ .active) ∧
      w.db.netCommission orderId = 0 ∧
      ∀ v ∈ w.db.vouchersOf orderId, ∀ models request, request.code = v.code →
        ∃ e, (redeemGiftVoucher w.db models request).2 = .error e := by
  have hfinal : w.Final owner :=
    hreach.invariant_relative reached_traced (fun _ h => h ▸ empty_final)
      fun _ _ _ htraced hfinal hok hstep => step_final htraced hfinal hok hstep
  intro event hmem hreversal orderId horderId
  have hreversed := hfinal.recorded event hmem hreversal orderId horderId
  have hclosed := hfinal.closed orderId hreversed
  refine ⟨hreversed, hclosed.accounts, hclosed.commission, fun v hv models request hcode => ?_⟩
  exact redeemGiftVoucher_refused (List.mem_filter.mp hv).1 (hclosed.vouchers v hv) models hcode

instance (owner : String → Option Nat) (w : OrderWorld) : DecidablePred (w.ReversesWhole owner)
  | .reverse _ => inferInstanceAs (Decidable (∀ begun ∈ _, ∀ id ∈ _, _ → _))
  | .place .. | .prize .. | .redeem .. | .revoke _ | .openSession .. | .recordSession _ | .deliver .. |
    .create .. | .release _ | .rollBack _ | .claim .. | .drop _ | .stamp _ | .dropStamp _ | .settle .. =>
    isTrue trivial

/-- Order 1, with a session opened and recorded for it. -/
def opened (recipientEmail : Option String) : List OrderAction :=
  [.place (sampleChallengeOrder 1 9900 recipientEmail) sampleDraw, .openSession 1 (some 5) "cs_1", .recordSession 0]

def completed : OrderAction :=
  .deliver ⟨"evt_1", .checkoutSessionCompleted, some 1, some "pi_1", none, "cs_1"⟩ samplePayment

def created : List OrderAction := [.claim 5 "first" (some 1) 10000, .create 0 (sampleContext 1 0 none)]

def refundEvent : StripeEvent := ⟨"evt_2", .chargeRefunded, none, some "pi_1", none, "ch_1"⟩

def refunded : List OrderAction := [.deliver refundEvent samplePayment, .reverse 0]

/-- A refund of a paid order with its account, after which both events come once more. -/
def refundedWhole : List OrderAction :=
  opened none ++ completed :: created ++ .stamp 0 :: refunded ++ [completed, .deliver refundEvent samplePayment]

theorem reached_reversalFinal_refundedWhole :
    ∃ w, run (step fun _ => some 1) empty refundedWhole = some w ∧
      (w.db.accountsOf 1).map (fun a => a.row.status) = [.locked] ∧ (w.db.clawbacks.map Clawback.amount) = [-990] ∧
      ∃ order, w.db.order? 1 = some order ∧ (order.status = .refunded ∨ order.status = .disputed) := by
  obtain ⟨w, hrun, htest⟩ := exists_of_run_any (step fun _ => some 1) empty refundedWhole
    (fun w => refundEvent ∈ w.processed ∧ (w.db.accountsOf 1).map (fun a => a.row.status) = [.locked] ∧
      w.db.clawbacks.map Clawback.amount = [-990]) (by decide +kernel)
  obtain ⟨hprocessed, hlocked, hclawed⟩ := of_decide_eq_true htest
  have hreach : Reach (step fun _ => some 1) (ReversesWhole fun _ => some 1) (· = empty) w :=
    .of_run (.init rfl) (by decide +kernel) hrun
  exact ⟨w, hrun, hlocked, hclawed, (reached_reversalFinal hreach refundEvent hprocessed rfl 1 rfl).1⟩

/-- A gift whose voucher outlives the refund, a refund that comes before the payment is recorded, and an
account whose stamp has failed. -/
theorem reversal_incomplete :
    (∃ w order, run (step fun _ => some 1) empty (opened (some "friend") ++ completed :: refunded) = some w ∧
      refundEvent ∈ w.processed ∧
      (redeemGiftVoucher w.db ["two-step"] ⟨"GIFT-1", "friend", 6, 2, 0⟩).2 = .ok order) ∧
    (∃ w, run (step fun _ => some 1) empty (opened none ++ refunded ++ [completed]) = some w ∧
      refundEvent ∈ w.processed ∧ w.db.Paid 1) ∧
    ∃ w, run (step fun _ => some 1) empty (opened none ++ completed :: created ++ .dropStamp 0 :: refunded)
      = some w ∧ refundEvent ∈ w.processed ∧
      (w.db.accountsOf 1).map (fun a => a.row.status) = [.active] := by
  refine ⟨?_, ?_, ?_⟩
  · obtain ⟨w, hrun, htest⟩ := exists_of_run_any (step fun _ => some 1) empty
      (opened (some "friend") ++ completed :: refunded)
      (fun w => refundEvent ∈ w.processed ∧
        (redeemGiftVoucher w.db ["two-step"] ⟨"GIFT-1", "friend", 6, 2, 0⟩).2.toOption.isSome)
      (by decide +kernel)
    obtain ⟨hprocessed, hredeemed⟩ := of_decide_eq_true htest
    obtain ⟨order, horder⟩ := Option.isSome_iff_exists.mp hredeemed
    exact ⟨w, order, hrun, hprocessed, Except.toOption_eq_some.mp horder⟩
  · obtain ⟨w, hrun, htest⟩ := exists_of_run_any (step fun _ => some 1) empty
      (opened none ++ refunded ++ [completed])
      (fun w => refundEvent ∈ w.processed ∧ (w.db.order? 1).any (·.status = .paid)) (by decide +kernel)
    obtain ⟨hprocessed, hpaid⟩ := of_decide_eq_true htest
    obtain ⟨order, horder, hstatus⟩ := (Option.any_eq_true _ _).mp hpaid
    exact ⟨w, hrun, hprocessed, order, horder, of_decide_eq_true hstatus⟩
  · obtain ⟨w, hrun, htest⟩ := exists_of_run_any (step fun _ => some 1) empty
      (opened none ++ completed :: created ++ .dropStamp 0 :: refunded)
      (fun w => refundEvent ∈ w.processed ∧ (w.db.accountsOf 1).map (fun a => a.row.status) = [.active])
      (by decide +kernel)
    exact ⟨w, hrun, of_decide_eq_true htest⟩

end OrderWorld

end PropFirm
