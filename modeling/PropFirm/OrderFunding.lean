import PropFirm.OrderSystem

/-!
# One account for one order

Nothing in the database says that an order has been used: a creation asks for a paid order, and its own
gates leave the row as it is. What keeps a second account away is the idempotency key alone, and what keeps
an account away from a gift's buyer is that his client does not ask for one.
-/

namespace PropFirm

open Transition

/-- The order and the idempotency claim an account comes from. -/
def IssuedAccount.origin (a : IssuedAccount) : Nat × Nat := (a.orderId, a.claimId)

def OrderDb.origins (db : OrderDb) : List (Nat × Nat) := db.accounts.rows.map IssuedAccount.origin

/-! ### What leaves the accounts alone -/

/-- No account comes or goes, and no claim. -/
def AccountsKept (db db' : OrderDb) : Prop := db'.origins = db.origins ∧ db'.claims = db.claims

variable {db db' : OrderDb}

theorem placeOrder_accountsKept {request : ChallengeOrderRequest} {draw : VoucherDraw}
    (hplace : placeOrder db request draw = some db') : AccountsKept db db' := by
  obtain ⟨_, _, _, rfl, _⟩ := placeOrder_eq_some hplace
  exact ⟨rfl, rfl⟩

theorem redeemGiftVoucher_accountsKept (db : OrderDb) (models : List String) (request : VoucherRequest) :
    AccountsKept db (redeemGiftVoucher db models request).1 := by
  rcases redeemGiftVoucher_cases db models request with hdb | hdb | ⟨_, _, _, _, _, hdb⟩ <;> rw [hdb]
  all_goals exact ⟨rfl, rfl⟩

theorem processSessionEvent_accountsKept {event : StripeEvent} {payment : PaymentContext}
    (hprocess : processSessionEvent db event payment = some db') : AccountsKept db db' := by
  rcases processSessionEvent_eq_some hprocess with rfl | ⟨orderId, _, hmark | rfl⟩
  · exact ⟨rfl, rfl⟩
  · rcases markChallengeOrderPaid_eq_some hmark with ⟨rfl, _⟩ | ⟨_, _, _, _, _, rfl, _⟩ <;> exact ⟨rfl, rfl⟩
  · rcases handleSessionAbandoned_cases db orderId with hdb | ⟨_, _, _, hdb⟩ <;> rw [hdb] <;> exact ⟨rfl, rfl⟩

theorem handleChargeReversal_accountsKept (db : OrderDb) (found : Option ChallengeOrder)
    (status : OrderStatus) : AccountsKept db (handleChargeReversal db found status) := by
  rcases handleChargeReversal_cases db found status with ⟨hsame, _⟩ | ⟨_, _, _, _, _, hmoved⟩
  · rw [hsame]
    exact ⟨rfl, rfl⟩
  · refine ⟨?_, hmoved.claims⟩
    rw [OrderDb.origins, hmoved.accounts, List.map_map]
    refine List.map_congr_left fun a _ => ?_
    rw [Function.comp_apply]
    split <;> rfl

/-- Steps that are not about a creation request. -/
def OrderAction.Elsewhere : OrderAction → Prop
  | .claim .. | .create .. | .drop _ | .release _ => False
  | _ => True

namespace OrderWorld

variable {owner : String → Option Nat} {w w' : OrderWorld} {action : OrderAction}

theorem step_accountsKept (hstep : w.step owner action = some w') (helsewhere : action.Elsewhere) :
    AccountsKept w.db w'.db ∧ w'.requests = w.requests ∧ w'.nextClaim = w.nextClaim := by
  cases action with
  | claim userId key challengeOrderId accountSize => exact helsewhere.elim
  | create claimId ctx => exact helsewhere.elim
  | drop claimId => exact helsewhere.elim
  | release claimId => exact helsewhere.elim
  | place request draw =>
    obtain ⟨db, hplace, rfl⟩ := Option.map_eq_some_iff.mp hstep
    exact ⟨placeOrder_accountsKept hplace, rfl, rfl⟩
  | prize id userId accountSize slug =>
    obtain ⟨db, hredeem, rfl⟩ := Option.map_eq_some_iff.mp hstep
    obtain ⟨_, _, rfl⟩ := Option.map_eq_some_iff.mp hredeem
    exact ⟨⟨rfl, rfl⟩, rfl, rfl⟩
  | redeem models request =>
    cases hstep
    exact ⟨redeemGiftVoucher_accountsKept w.db models request, rfl, rfl⟩
  | openSession orderId userId sessionId =>
    obtain ⟨_, _, _, _, rfl⟩ := step_openSession hstep
    exact ⟨⟨rfl, rfl⟩, rfl, rfl⟩
  | deliver event payment =>
    obtain ⟨_, rfl | ⟨_, _, rfl⟩ | ⟨_, db, hprocess, rfl⟩⟩ := step_deliver hstep
    · exact ⟨⟨rfl, rfl⟩, rfl, rfl⟩
    · exact ⟨⟨rfl, rfl⟩, rfl, rfl⟩
    · exact ⟨processSessionEvent_accountsKept hprocess, rfl, rfl⟩
  | reverse n =>
    obtain ⟨begun, _, _, rfl⟩ := step_reverse hstep
    exact ⟨handleChargeReversal_accountsKept w.db begun.found begun.status, rfl, rfl⟩
  | recordSession n | stamp n =>
    obtain ⟨_, _, rfl⟩ := Option.map_eq_some_iff.mp hstep
    exact ⟨⟨rfl, rfl⟩, rfl, rfl⟩
  | settle accountId status =>
    obtain ⟨_, rfl⟩ := step_settle hstep
    refine ⟨⟨?_, rfl⟩, rfl, rfl⟩
    refine (List.map_map ..).trans (List.map_congr_left fun a _ => ?_)
    rw [Function.comp_apply]
    split <;> rfl
  | revoke code | rollBack n | dropStamp n =>
    cases hstep
    exact ⟨⟨rfl, rfl⟩, rfl, rfl⟩

/-! ### One account at most -/

/-- A request that still waits holds the claim of its key, and no account has been created under that
claim. No two accounts come from one order, and none from a gift. -/
structure Funded (w : OrderWorld) : Prop where
  held : ∀ request ∈ w.requests.rows, w.db.claims.find? (request.userId, request.key)
    = some ⟨request.claimId, request.userId, request.key⟩
  waiting : ∀ request ∈ w.requests.rows, request.claimId < w.nextClaim
  used : ∀ origin ∈ w.db.origins, origin.2 < w.nextClaim
  fresh : ∀ origin ∈ w.db.origins, ∀ request ∈ w.requests.rows, origin.2 ≠ request.claimId
  bought : ∀ origin ∈ w.db.origins, ∃ order, w.db.order? origin.1 = some order ∧ order.isGift = false
  single : (w.db.origins.map Prod.fst).Nodup

/-- A creation that passes the gates is for an order that is no gift and from which an account has been
created, if at all, under the claim that the request's own key still has; and no claim is deleted while
its request has not run. -/
def FundsOnce (w : OrderWorld) : OrderAction → Prop
  | .create claimId ctx => ∀ request ∈ w.requests.find? claimId,
      ∀ gated ∈ (createGates w.db ctx request).toOption, gated.1.isGift = false ∧
        ∀ a ∈ w.db.accountsOf gated.1.id,
          (w.db.claims.find? (request.userId, request.key)).map IdempotencyClaim.id = some a.claimId
  | .release claimId => ∀ request ∈ w.requests.rows, request.claimId ≠ claimId
  | _ => True

theorem Funded.of_accountsKept (hfunded : w.Funded) (htraced : w.Traced owner)
    (hstep : w.step owner action = some w') (hkept : AccountsKept w.db w'.db)
    (hrequests : w'.requests = w.requests) (hnext : w'.nextClaim = w.nextClaim) : w'.Funded where
  held request hmem := by
    rw [hrequests] at hmem
    rw [hkept.2]
    exact hfunded.held request hmem
  waiting request hmem := by
    rw [hrequests] at hmem
    rw [hnext]
    exact hfunded.waiting request hmem
  used origin hmem := by
    rw [hkept.1] at hmem
    rw [hnext]
    exact hfunded.used origin hmem
  fresh origin hmem := by
    rw [hkept.1] at hmem
    rw [hrequests]
    exact hfunded.fresh origin hmem
  bought origin hmem := by
    rw [hkept.1] at hmem
    obtain ⟨order, horder, hgift⟩ := hfunded.bought origin hmem
    obtain ⟨order', horder', hgift'⟩ := step_kept htraced hstep horder
    exact ⟨order', horder', hgift'.trans hgift⟩
  single := hkept.1 ▸ hfunded.single

/-- A request that no longer waits. -/
theorem Funded.of_drop (hfunded : w.Funded) (claimId : Nat) :
    Funded { w with requests := w.requests.delete fun r => r.claimId = claimId } where
  held request hmem := hfunded.held request (Table.mem_delete.mp hmem).1
  waiting request hmem := hfunded.waiting request (Table.mem_delete.mp hmem).1
  used := hfunded.used
  fresh origin horigin request hmem := hfunded.fresh origin horigin request (Table.mem_delete.mp hmem).1
  bought := hfunded.bought
  single := hfunded.single

theorem Funded.of_release (hfunded : w.Funded) {claimId : Nat}
    (hwaits : ∀ request ∈ w.requests.rows, request.claimId ≠ claimId) :
    Funded { w with db := abandonIdempotentRequest w.db claimId } where
  held request hmem := by
    obtain ⟨hclaim, hkey⟩ := Table.find?_eq_some.mp (hfunded.held request hmem)
    refine Table.find?_eq_some.mpr ⟨Table.mem_delete.mpr ⟨hclaim, ?_⟩, hkey⟩
    exact decide_eq_false (hwaits request hmem)
  waiting := hfunded.waiting
  used := hfunded.used
  fresh := hfunded.fresh
  bought := hfunded.bought
  single := hfunded.single

/-- A claim is won by a key that nobody holds, under a number nobody has had. -/
theorem Funded.of_claim (hfunded : w.Funded) {userId accountSize : Nat} {key : String}
    {challengeOrderId : Option Nat}
    (hstep : w.step owner (.claim userId key challengeOrderId accountSize) = some w') : w'.Funded := by
  obtain ⟨claims, requests, hclaim, hrequest, rfl⟩ := step_claim hstep
  have hrows := (Table.insert?_eq_some hrequest).2
  have hother := (Table.insert?_eq_some hclaim).1
  refine ⟨fun request hmem => ?_, fun request hmem => ?_, fun origin hmem => ?_,
    fun origin horigin request hmem => ?_, hfunded.bought, hfunded.single⟩
  · refine (Table.find?_of_insert? hclaim _).trans ?_
    rcases List.mem_cons.mp (hrows ▸ hmem) with rfl | hold
    · exact if_pos rfl
    · have hheld := hfunded.held request hold
      obtain ⟨hfound, hkey⟩ := Table.find?_eq_some.mp hheld
      exact (if_neg fun h => hother _ hfound (hkey.trans h.symm)).trans hheld
  · rcases List.mem_cons.mp (hrows ▸ hmem) with rfl | hold
    · exact Nat.lt_succ_self _
    · exact Nat.lt_succ_of_lt (hfunded.waiting request hold)
  · exact Nat.lt_succ_of_lt (hfunded.used origin hmem)
  · rcases List.mem_cons.mp (hrows ▸ hmem) with rfl | hold
    · exact (hfunded.used origin horigin).ne
    · exact hfunded.fresh origin horigin request hold

/-- The creation's own claim is the one on record under its key, so no account has used it. -/
theorem Funded.of_create (hfunded : w.Funded) {claimId : Nat} {ctx : CreateContext}
    (hok : w.FundsOnce (.create claimId ctx))
    (hstep : w.step owner (.create claimId ctx) = some w') : w'.Funded := by
  obtain ⟨request, hfind, rfl⟩ := Option.map_eq_some_iff.mp hstep
  obtain ⟨hmem, _⟩ := Table.find?_eq_some.mp hfind
  have hdropped := hfunded.of_drop request.claimId
  rcases w.runCreate_cases request ctx with hw | ⟨db, order, account, hcreate, hw⟩ <;> rw [hw]
  · exact hdropped
  obtain ⟨model, accounts, hgates, hinsert, rfl, _, hof, hclaim⟩ := createAccount_eq_ok hcreate
  obtain ⟨_, horder, _⟩ := orderGates_eq_ok.mp (createGates_eq_ok hgates)
  obtain ⟨hgift, hearlier⟩ := hok request hfind (order, model) (by rw [hgates]; rfl)
  have hunused : ∀ a ∈ w.db.accounts.rows, a.orderId ≠ order.id := by
    intro a ha haof
    have hown := hearlier a (List.mem_filter.mpr ⟨ha, decide_eq_true haof⟩)
    rw [hfunded.held request hmem] at hown
    exact hfunded.fresh a.origin (List.mem_map_of_mem ha) request hmem (Option.some.inj hown).symm
  have hrows : OrderDb.origins { w.db with accounts := accounts } = account.origin :: w.db.origins := by
    rw [OrderDb.origins, (Table.insert?_eq_some hinsert).2]
    rfl
  refine ⟨hdropped.held, hdropped.waiting, ?_, ?_, ?_, ?_⟩ <;> dsimp only <;> rw [hrows]
  · refine List.forall_mem_cons.mpr ⟨?_, hdropped.used⟩
    rw [IssuedAccount.origin, hclaim]
    exact hfunded.waiting request hmem
  · refine List.forall_mem_cons.mpr ⟨fun other hother hsame => ?_, hdropped.fresh⟩
    have hne := of_decide_eq_false (Table.mem_delete.mp hother).2
    exact hne (hsame.symm.trans hclaim)
  · exact List.forall_mem_cons.mpr ⟨⟨order, (congrArg w.db.order? hof).trans horder, hgift⟩, hdropped.bought⟩
  · rw [List.map_cons, List.nodup_cons]
    refine ⟨fun hused => ?_, hdropped.single⟩
    obtain ⟨origin, horigin, hsame⟩ := List.mem_map.mp hused
    obtain ⟨a, ha, rfl⟩ := List.mem_map.mp horigin
    exact hunused a ha (hsame.trans hof)

theorem step_funded (htraced : w.Traced owner) (hfunded : w.Funded) (hok : w.FundsOnce action)
    (hstep : w.step owner action = some w') : w'.Funded := by
  cases action with
  | claim userId key challengeOrderId accountSize => exact hfunded.of_claim hstep
  | create claimId ctx => exact hfunded.of_create hok hstep
  | drop claimId =>
    cases hstep
    exact hfunded.of_drop claimId
  | release claimId =>
    cases hstep
    exact hfunded.of_release hok
  | _ =>
    obtain ⟨hkept, hrequests, hnext⟩ := step_accountsKept hstep trivial
    exact hfunded.of_accountsKept htraced hstep hkept hrequests hnext

theorem Funded.accountsOf_length_le_one (hfunded : w.Funded) (orderId : Nat) :
    (w.db.accountsOf orderId).length ≤ 1 := by
  have hcount := List.nodup_iff_count_le_one.mp hfunded.single orderId
  rw [OrderDb.origins, List.map_map, List.count, List.countP_map, List.countP_eq_length_filter] at hcount
  refine (congrArg List.length (List.filter_congr fun a _ => ?_)).trans_le hcount
  rfl

/-- Where each creation that passes is the first one, no order funds a second account and no gift a first. -/
theorem reached_fundsOnce (hreach : Reach (step owner) FundsOnce (· = empty) w) :
    (∀ orderId, (w.db.accountsOf orderId).length ≤ 1) ∧
    ∀ orderId order, w.db.order? orderId = some order → order.isGift → w.db.accountsOf orderId = [] := by
  have hfunded : w.Funded := by
    refine hreach.invariant_relative reached_traced ?_ fun _ _ _ htraced hfunded hok hstep =>
      step_funded htraced hfunded hok hstep
    rintro _ rfl
    exact ⟨nofun, nofun, nofun, nofun, nofun, List.nodup_nil⟩
  refine ⟨hfunded.accountsOf_length_le_one, fun orderId order horder hgift => ?_⟩
  refine List.filter_eq_nil_iff.mpr fun a ha => ?_
  obtain ⟨bought, hbought, hnot⟩ := hfunded.bought a.origin (List.mem_map_of_mem ha)
  simp only [decide_eq_true_eq]
  rintro rfl
  cases horder.symm.trans hbought
  exact absurd hgift (ne_true_of_eq_false hnot)

instance (w : OrderWorld) : DecidablePred w.FundsOnce
  | .create _ _ => inferInstanceAs (Decidable (∀ request ∈ _, ∀ gated ∈ _, _ ∧ ∀ a ∈ _, _))
  | .release _ => inferInstanceAs (Decidable (∀ request ∈ _, _))
  | .place .. | .prize .. | .redeem .. | .revoke _ | .openSession .. | .recordSession _ | .deliver .. |
    .reverse _ | .rollBack _ | .claim .. | .drop _ | .stamp _ | .dropStamp _ | .settle .. => isTrue trivial

/-- A second request under another key, which the limit on the user's accounts refuses. -/
def limitedRetry : List OrderAction :=
  [.place (sampleChallengeOrder 1 0 none) sampleDraw, .claim 5 "first" (some 1) 10000,
    .create 0 (sampleContext 1 0 (some 1)), .claim 5 "second" (some 1) 10000,
    .create 1 (sampleContext 2 1 (some 1))]

theorem reached_fundsOnce_limitedRetry :
    ∃ w, run (step fun _ => none) empty limitedRetry = some w ∧ (w.db.accountsOf 1).length = 1 ∧
      ∀ orderId, (w.db.accountsOf orderId).length ≤ 1 := by
  obtain ⟨w, hrun, hone⟩ := exists_of_run_any (step fun _ => none) empty limitedRetry
    (fun w => (w.db.accountsOf 1).length = 1) (by decide +kernel)
  have hreach : Reach (step fun _ => none) FundsOnce (· = empty) w :=
    .of_run (.init rfl) (by decide +kernel) hrun
  exact ⟨w, hrun, of_decide_eq_true hone, (reached_fundsOnce hreach).1⟩

/-- Two keys for one order, and a gift's buyer asking for an account. -/
def unguardedRequests : List OrderAction :=
  [.place (sampleChallengeOrder 1 0 none) sampleDraw, .claim 5 "first" (some 1) 10000,
    .create 0 (sampleContext 1 0 none), .stamp 0, .claim 5 "second" (some 1) 10000,
    .create 1 (sampleContext 2 1 none), .place (sampleChallengeOrder 2 0 (some "friend")) sampleDraw,
    .claim 5 "gift" (some 2) 10000, .create 2 (sampleContext 3 2 none)]

theorem order_funds_two : ∃ w gift, run (step fun _ => none) empty unguardedRequests = some w ∧
    (w.db.accountsOf 1).length = 2 ∧
    w.db.order? 2 = some gift ∧ gift.isGift = true ∧ (w.db.accountsOf 2).map IssuedAccount.userId = [5] := by
  obtain ⟨w, hrun, htwice⟩ := exists_of_run_any (step fun _ => none) empty unguardedRequests
    (fun w => (w.db.order? 2).any fun gift => (w.db.accountsOf 1).length = 2 ∧ gift.isGift = true ∧
      (w.db.accountsOf 2).map IssuedAccount.userId = [5]) (by decide +kernel)
  obtain ⟨gift, hgift, htwice⟩ := (Option.any_eq_true _ _).mp htwice
  obtain ⟨htwo, hisGift, hbuyer⟩ := of_decide_eq_true htwice
  exact ⟨w, gift, hrun, htwo, hgift, hisGift, hbuyer⟩

end OrderWorld

end PropFirm
