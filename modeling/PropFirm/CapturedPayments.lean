import PropFirm.OrderSystem

/-!
# Captured payments

Several checkout sessions of one order share its status. A session that expires cancels an order that is
not paid; a session that completes pays any order but a reversed or a cancelled one; and a new session is
opened for any order that is not paid, a cancelled one included. A payment is honoured as long as it does
not meet a cancelled order.
-/

namespace PropFirm

open Transition

variable {owner : String → Option Nat} {db db' : OrderDb}

theorem Reverses.paid_or_reversed {order : ChallengeOrder} {status : OrderStatus}
    (h : Reverses order status db db') (hstatus : status.Reversed) {k : Nat}
    (hbefore : db.Paid k ∨ db.Reversed k) : db'.Paid k ∨ db'.Reversed k := by
  by_cases hk : k = order.id
  · obtain ⟨found, hfound⟩ : ∃ found, db.order? k = some found := by
      rcases hbefore with ⟨found, hfound, _⟩ | ⟨found, hfound, _⟩ <;> exact ⟨found, hfound⟩
    refine .inr ⟨_, (h.order?_eq k).trans (congrArg _ hfound), ?_⟩
    simpa [hk] using hstatus
  · rw [OrderDb.Paid, OrderDb.Reversed, h.order?_eq]
    simpa [hk, OrderDb.Paid, OrderDb.Reversed] using hbefore

namespace OrderWorld

variable {w w' : OrderWorld} {action : OrderAction} {n : Nat} {begun : BegunReversal}

/-- A completed session does not find its order cancelled. -/
def CapturesPayable (w : OrderWorld) : OrderAction → Prop
  | .deliver event _ => event.type = .checkoutSessionCompleted →
      ∀ id ∈ event.orderId, ∀ order ∈ w.db.order? id, order.status ≠ .cancelled
  | _ => True

/-- Whatever a completed session has paid for is paid, unless a reversal has come. -/
structure Honoured (owner : String → Option Nat) (w : OrderWorld) : Prop where
  captured : ∀ event ∈ w.processed, event.type = .checkoutSessionCompleted →
    ∀ id ∈ event.orderId, w.db.Paid id ∨ w.db.Reversed id
  reversed : ∀ id, w.db.Reversed id →
    ∃ event ∈ w.processed, event.type.reversal.isSome ∧ event.order owner = some id

theorem Honoured.of_continues (hhonoured : w.Honoured owner) (hcontinues : Continues owner w.db w'.db)
    (hkeeps : w.processed ⊆ w'.processed)
    (hnew : ∀ event ∈ w'.processed, event.type = .checkoutSessionCompleted → event ∈ w.processed ∨
      ∀ id ∈ event.orderId, w'.db.Paid id ∨ w'.db.Reversed id) : w'.Honoured owner where
  captured event hmem htype id hid := by
    rcases hnew event hmem htype with hold | hcaptured
    · exact (hhonoured.captured event hold htype id hid).imp hcontinues.paid hcontinues.stays_reversed
    · exact hcaptured id hid
  reversed id hreversed := by
    obtain ⟨event, hmem, hof⟩ := hhonoured.reversed id (hcontinues.reversed id hreversed)
    exact ⟨event, hkeeps hmem, hof⟩

/-- The order of a session that completes is paid in the end, or was reversed before. -/
theorem processSessionEvent_captured {event : StripeEvent} {payment : PaymentContext}
    (hgenuine : w.Genuine owner event) (hok : w.CapturesPayable (.deliver event payment))
    (hcontinues : Continues owner w.db db')
    (hprocess : processSessionEvent w.db event payment = some db')
    (htype : event.type = .checkoutSessionCompleted) {id : Nat} (hid : event.orderId = some id) :
    db'.Paid id ∨ db'.Reversed id := by
  obtain ⟨hids, hmetadata, hexists⟩ := hgenuine
  obtain ⟨order, horder⟩ := Option.isSome_iff_exists.mp (hexists id (hmetadata id hid))
  by_cases hreversed : order.status.Reversed
  · exact .inr (hcontinues.stays_reversed ⟨order, horder, hreversed⟩)
  · simp only [processSessionEvent, hid, htype] at hprocess
    have howner : owner event.providerPaymentId = some id :=
      (hids _ event.providerPaymentId_mem_ids).trans (hmetadata id hid)
    exact .inl ((markChallengeOrderPaid_continues howner hprocess).2 order horder hreversed
      (hok htype id hid order horder))

theorem Honoured.of_reverse (hhonoured : w.Honoured owner) (htraced : w.Traced owner)
    (hbegun : begun ∈ w.reversals) : (w.commitReversal n begun).Honoured owner := by
  obtain ⟨hstatus, hfound, _⟩ := htraced.begun begun hbegun
  have hcompleted : begun.event.type ≠ .checkoutSessionCompleted := by
    intro htype
    rw [htype] at hstatus
    cases hstatus
  rcases handleChargeReversal_cases w.db begun.found begun.status with
    ⟨hsame, _⟩ | ⟨order, current, hfoundEq, _, _, hmoved⟩
  · refine ⟨?_, fun id hreversed => ?_⟩ <;> simp only [commitReversal, hsame] at *
    · exact List.forall_mem_cons.mpr ⟨fun htype => absurd htype hcompleted, hhonoured.captured⟩
    · obtain ⟨event, hmem, hof⟩ := hhonoured.reversed id hreversed
      exact ⟨event, List.mem_cons_of_mem _ hmem, hof⟩
  · refine ⟨List.forall_mem_cons.mpr ⟨fun htype => absurd htype hcompleted, fun event hmem htype id hid =>
      hmoved.paid_or_reversed (EventType.reversal_reversed hstatus) (hhonoured.captured event hmem htype id hid)⟩,
      fun id hreversed => ?_⟩
    by_cases hid : id = order.id
    · subst hid
      exact ⟨begun.event, List.mem_cons_self, Option.isSome_of_eq_some hstatus, hfound order hfoundEq⟩
    · obtain ⟨event, hmem, hof⟩ := hhonoured.reversed id ((hmoved.reversed_other hid).mp hreversed)
      exact ⟨event, List.mem_cons_of_mem _ hmem, hof⟩

theorem step_honoured (htraced : w.Traced owner) (hhonoured : w.Honoured owner)
    (hok : w.CapturesPayable action) (hstep : w.step owner action = some w') : w'.Honoured owner := by
  cases action with
  | reverse n =>
    obtain ⟨begun, hbegun, _, rfl⟩ := step_reverse hstep
    exact hhonoured.of_reverse htraced hbegun
  | deliver event payment =>
    have hcontinues := step_continues htraced hstep nofun
    obtain ⟨hgenuine, rfl | ⟨_, _, rfl⟩ | ⟨_, db, hprocess, rfl⟩⟩ := step_deliver hstep
    · exact hhonoured
    · exact ⟨hhonoured.captured, hhonoured.reversed⟩
    · refine hhonoured.of_continues hcontinues (List.subset_cons_self _ _) fun other hmem htype => ?_
      rcases List.mem_cons.mp hmem with rfl | hold
      · exact .inr fun id hid =>
          processSessionEvent_captured hgenuine hok hcontinues hprocess htype hid
      · exact .inl hold
  | openSession orderId userId sessionId =>
    have hcontinues := step_continues htraced hstep nofun
    obtain ⟨_, _, _, _, rfl⟩ := step_openSession hstep
    exact hhonoured.of_continues hcontinues (List.Subset.refl _) fun _ hmem _ => .inl hmem
  | _ =>
    obtain ⟨_, _, hprocessed⟩ := step_quiet hstep trivial
    exact hhonoured.of_continues (step_continues htraced hstep nofun)
      (hprocessed ▸ List.Subset.refl _) fun _ hmem _ => .inl (hprocessed ▸ hmem)

theorem empty_honoured : Honoured owner empty where
  captured _ h := by cases h
  reversed _ h := by
    obtain ⟨_, horder, _⟩ := h
    cases horder

/-- Where no completed session meets a cancelled order, a captured payment that nobody takes back makes its
order one that an account can be created from. -/
theorem reached_captureHonoured (hreach : Reach (step owner) CapturesPayable (· = empty) w) :
    ∀ event ∈ w.processed, event.type = .checkoutSessionCompleted → ∀ orderId ∈ event.orderId,
      (∀ reversal ∈ w.processed, reversal.type.reversal.isSome → reversal.order owner ≠ some orderId) →
      ∃ order, w.db.order? orderId = some order ∧ order.status = .paid ∧
        ∀ request : CreateRequest, request.challengeOrderId = some orderId →
          request.userId = order.userId → request.accountSize = order.accountSize →
          orderGates w.db request = .ok order := by
  have hhonoured : w.Honoured owner :=
    hreach.invariant_relative reached_traced (fun _ h => h ▸ empty_honoured)
      fun _ _ _ htraced hhonoured hok hstep => step_honoured htraced hhonoured hok hstep
  intro event hmem htype orderId horderId hunreversed
  rcases hhonoured.captured event hmem htype orderId horderId with ⟨order, horder, hpaid⟩ | hreversed
  · obtain rfl : order.id = orderId := (Table.find?_eq_some.mp horder).2
    refine ⟨order, horder, hpaid, fun request hid huser hsize => ?_⟩
    exact orderGates_eq_ok.mpr ⟨hid, horder, huser.symm, hsize.symm, hpaid⟩
  · obtain ⟨reversal, hrev, htypeRev, hof⟩ := hhonoured.reversed orderId hreversed
    exact absurd hof (hunreversed reversal hrev htypeRev)

instance (w : OrderWorld) : DecidablePred w.CapturesPayable
  | .deliver _ _ => inferInstanceAs (Decidable (_ → ∀ id ∈ _, ∀ order ∈ _, _))
  | .place .. | .prize .. | .redeem .. | .revoke _ | .openSession .. | .recordSession _ | .reverse _ |
    .create .. | .release _ | .rollBack _ | .claim .. | .drop _ | .stamp _ | .dropStamp _ | .settle .. =>
    isTrue trivial

/-- Two sessions for order 1. -/
def twoSessions : List OrderAction :=
  [.place (sampleChallengeOrder 1 9900 none) sampleDraw, .openSession 1 (some 5) "cs_a", .recordSession 0,
    .openSession 1 (some 5) "cs_b", .recordSession 0]

def captureEvent : StripeEvent :=
  ⟨"evt_b", .checkoutSessionCompleted, some 1, some "pi_b", none, "cs_b"⟩

def expired : OrderAction :=
  .deliver ⟨"evt_a", .checkoutSessionExpired, some 1, none, none, "cs_a"⟩ samplePayment

/-- The second session is paid before the first one expires. -/
theorem reached_captureHonoured_twoSessions :
    ∃ w order, run (step fun _ => some 1) empty
        (twoSessions ++ [.deliver captureEvent samplePayment, expired]) = some w ∧
      w.db.order? 1 = some order ∧ order.status = .paid := by
  obtain ⟨w, hrun, htest⟩ := exists_of_run_any (step fun _ => some 1) empty
    (twoSessions ++ [.deliver captureEvent samplePayment, expired])
    (fun w => captureEvent ∈ w.processed ∧ ∀ event ∈ w.processed, event.type.reversal = none)
    (by decide +kernel)
  obtain ⟨hprocessed, hnone⟩ := of_decide_eq_true htest
  have hreach : Reach (step fun _ => some 1) CapturesPayable (· = empty) w :=
    .of_run (.init rfl) (by decide +kernel) hrun
  obtain ⟨order, horder, hpaid, _⟩ := reached_captureHonoured hreach captureEvent hprocessed rfl 1 rfl
    fun reversal hmem hreversal _ => by
      rw [hnone reversal hmem] at hreversal
      cases hreversal
  exact ⟨w, order, hrun, horder, hpaid⟩

/-- The first session expires before the second one is paid. -/
theorem capture_lost :
    ∃ w order, run (step fun _ => some 1) empty
        (twoSessions ++ [expired, .deliver captureEvent samplePayment]) = some w ∧
      captureEvent ∈ w.processed ∧ (∀ event ∈ w.processed, event.type.reversal = none) ∧
      w.db.order? 1 = some order ∧ order.status = .cancelled := by
  obtain ⟨w, hrun, htest⟩ := exists_of_run_any (step fun _ => some 1) empty
    (twoSessions ++ [expired, .deliver captureEvent samplePayment])
    (fun w => (captureEvent ∈ w.processed ∧ ∀ event ∈ w.processed, event.type.reversal = none) ∧
      (w.db.order? 1).any (·.status = .cancelled)) (by decide +kernel)
  obtain ⟨⟨hprocessed, hnone⟩, hcancelled⟩ := of_decide_eq_true htest
  obtain ⟨order, horder, hstatus⟩ := (Option.any_eq_true _ _).mp hcancelled
  exact ⟨w, order, hrun, hprocessed, hnone, horder, of_decide_eq_true hstatus⟩

end OrderWorld

end PropFirm
