import PropFirm.Lib.Transition
import PropFirm.OrderContinuity

/-!
# Orders, payments and account creation as a step system

Requests and events interleave. A transaction is one step, but for what runs outside of one: a creation
wins its idempotency claim, runs its transaction and stamps the order in three steps, of which the last
may fail; a checkout session is opened at Stripe before its id is written down; and a reversal reads its
order in one step and acts in another. Two deliveries of one event wait for each other.

`owner` says whose payment an id of Stripe's (of a session, a payment intent or a charge) belongs to;
`none` is a payment for something else. The webhook takes signed events only, so all ids of one event
belong together, and an order whose payment they are about exists.
-/

namespace PropFirm

open Transition

/-- A reversal under way: the status it is going to write and the order it has found. -/
structure BegunReversal where
  event : StripeEvent
  status : OrderStatus
  found : Option ChallengeOrder

/-- `requests` hold a claim and have not begun their transaction, `stamps` are the orders and accounts
whose update after the commit is outstanding, and `checkouts` the orders and sessions whose update after
the opening is. `processed` are the events committed, which `stripe_events` keeps by their ids. -/
structure OrderWorld where
  db : OrderDb
  requests : Table CreateRequest
  nextClaim : Nat
  stamps : List (Nat × Nat)
  checkouts : List (Nat × String)
  reversals : List BegunReversal
  processed : List StripeEvent

inductive OrderAction
  | place (request : ChallengeOrderRequest) (draw : VoucherDraw)
  | prize (id userId accountSize : Nat) (slug : String)
  | redeem (models : List String) (request : VoucherRequest)
  | revoke (code : String)
  | openSession (orderId : Nat) (userId : Option Nat) (sessionId : String)
  | recordSession (n : Nat)
  | deliver (event : StripeEvent) (payment : PaymentContext)
  | reverse (n : Nat)
  | rollBack (n : Nat)
  | claim (userId : Nat) (key : String) (challengeOrderId : Option Nat) (accountSize : Nat)
  | create (claimId : Nat) (ctx : CreateContext)
  | drop (claimId : Nat)
  | release (claimId : Nat)
  | stamp (n : Nat)
  | dropStamp (n : Nat)
  | settle (accountId : Nat) (status : AccountStatus)

/-- Steps that open nothing at Stripe and process no event. -/
def OrderAction.Quiet : OrderAction → Prop
  | .openSession .. | .deliver .. | .reverse _ => False
  | _ => True

/-- The order whose payment an event is about. -/
def StripeEvent.order (event : StripeEvent) (owner : String → Option Nat) : Option Nat :=
  owner event.objectId

namespace OrderWorld

def empty : OrderWorld := ⟨.empty, .empty, 0, [], [], [], []⟩

def Genuine (owner : String → Option Nat) (w : OrderWorld) (event : StripeEvent) : Prop :=
  (∀ id ∈ event.ids, owner id = event.order owner) ∧
    (∀ orderId ∈ event.orderId, event.order owner = some orderId) ∧
      ∀ orderId ∈ event.order owner, (w.db.order? orderId).isSome

instance (owner : String → Option Nat) (w : OrderWorld) (event : StripeEvent) :
    Decidable (w.Genuine owner event) := inferInstanceAs (Decidable (_ ∧ _ ∧ _))

/-- The event's id is on record. An event without an id is processed whenever it comes. -/
def Claimed (w : OrderWorld) (event : StripeEvent) : Prop :=
  event.id ≠ "" ∧ event.id ∈ w.processed.map StripeEvent.id

instance (w : OrderWorld) (event : StripeEvent) : Decidable (w.Claimed event) :=
  inferInstanceAs (Decidable (_ ∧ _))

/-- Another delivery of the event is being processed. -/
def InFlight (w : OrderWorld) (event : StripeEvent) : Prop :=
  event.id ≠ "" ∧ event.id ∈ w.reversals.map fun begun => begun.event.id

instance (w : OrderWorld) (event : StripeEvent) : Decidable (w.InFlight event) :=
  inferInstanceAs (Decidable (_ ∧ _))

/-- `processStripeWebhookEvent`, up to the point where a reversal has found its order. -/
def processStripeWebhookEvent (w : OrderWorld) (event : StripeEvent) (payment : PaymentContext) :
    Option OrderWorld :=
  if w.Claimed event then some w
  else match event.type.reversal with
  | some status =>
    let begun := ⟨event, status, findOrderForChargeEvent w.db event⟩
    some { w with reversals := begun :: w.reversals }
  | none => (processSessionEvent w.db event payment).map fun db =>
    { w with db := db, processed := event :: w.processed }

/-- The rest of a reversal, up to its commit. -/
def commitReversal (w : OrderWorld) (n : Nat) (begun : BegunReversal) : OrderWorld :=
  { w with
    db := handleChargeReversal w.db begun.found begun.status
    reversals := w.reversals.eraseIdx n
    processed := begun.event :: w.processed }

/-- The transaction of a request; a refusal leaves its claim on record. -/
def runCreate (w : OrderWorld) (request : CreateRequest) (ctx : CreateContext) : OrderWorld :=
  let requests := w.requests.delete fun r => r.claimId = request.claimId
  match createAccount w.db ctx request with
  | .error _ => { w with requests := requests }
  | .ok (db, order, account) =>
    { w with db := db, requests := requests, stamps := (order.id, account.row.id) :: w.stamps }

variable {owner : String → Option Nat}

def step (owner : String → Option Nat) (w : OrderWorld) : OrderAction → Option OrderWorld
  | .place request draw => (placeOrder w.db request draw).map fun db => { w with db := db }
  | .prize id userId accountSize slug =>
    (redeemPrize w.db id userId accountSize slug).map fun db => { w with db := db }
  | .redeem models request => some { w with db := (redeemGiftVoucher w.db models request).1 }
  | .revoke code => some { w with db := revokeGiftVoucher w.db code }
  | .openSession orderId userId sessionId =>
    if owner sessionId = some orderId then
      (checkoutGates w.db orderId userId).toOption.map fun order =>
        { w with checkouts := (order.id, sessionId) :: w.checkouts }
    else none
  | .recordSession n => w.checkouts[n]?.map fun (orderId, sessionId) =>
    { w with db := recordSession w.db orderId sessionId, checkouts := w.checkouts.eraseIdx n }
  | .deliver event payment =>
    if w.Genuine owner event ∧ ¬ w.InFlight event then w.processStripeWebhookEvent event payment
    else none
  | .reverse n => w.reversals[n]?.map (w.commitReversal n)
  | .rollBack n => some { w with reversals := w.reversals.eraseIdx n }
  | .claim userId key challengeOrderId accountSize => do
    let db ← beginIdempotentRequest w.db w.nextClaim userId key
    let requests ← w.requests.insert? ⟨w.nextClaim, userId, key, challengeOrderId, accountSize⟩
    some { w with db := db, requests := requests, nextClaim := w.nextClaim + 1 }
  | .create claimId ctx => (w.requests.find? claimId).map (w.runCreate · ctx)
  | .drop claimId => some { w with requests := w.requests.delete fun r => r.claimId = claimId }
  | .release claimId => some { w with db := abandonIdempotentRequest w.db claimId }
  | .stamp n => w.stamps[n]?.map fun (orderId, accountId) =>
    { w with db := stampOrder w.db orderId accountId, stamps := w.stamps.eraseIdx n }
  | .dropStamp n => some { w with stamps := w.stamps.eraseIdx n }
  | .settle accountId status =>
    if status = .active then none
    else
      let accounts := w.db.accounts.update (fun a => a.row.id = accountId ∧ a.row.status = .active)
        (IssuedAccount.movedTo status)
      some { w with db := { w.db with accounts := accounts } }

/-! ### What a step does to the tables -/

/-- References, open checkouts and reversals under way are about the order they are said to be about. -/
structure Traced (owner : String → Option Nat) (w : OrderWorld) : Prop where
  owned : w.db.Owned owner
  checkouts : ∀ checkout ∈ w.checkouts, owner checkout.2 = some checkout.1
  begun : ∀ begun ∈ w.reversals, begun.event.type.reversal = some begun.status ∧
    (∀ order ∈ begun.found, begun.event.order owner = some order.id) ∧
      ∀ orderId ∈ begun.event.order owner, ∃ order, w.db.order? orderId = some order

variable {w w' : OrderWorld} {action : OrderAction}

theorem step_deliver {event : StripeEvent} {payment : PaymentContext}
    (hstep : w.step owner (.deliver event payment) = some w') :
    w.Genuine owner event ∧ (w' = w ∨
      (∃ status, event.type.reversal = some status ∧ w' = { w with
        reversals := ⟨event, status, findOrderForChargeEvent w.db event⟩ :: w.reversals }) ∨
      event.type.reversal = none ∧ ∃ db, processSessionEvent w.db event payment = some db ∧
        w' = { w with db := db, processed := event :: w.processed }) := by
  simp only [step] at hstep
  split at hstep
  · rename_i hguard
    refine ⟨hguard.1, ?_⟩
    unfold processStripeWebhookEvent at hstep
    split at hstep
    · exact .inl (Option.some.inj hstep).symm
    split at hstep
    · rename_i status hreversal
      exact .inr (.inl ⟨status, hreversal, (Option.some.inj hstep).symm⟩)
    · rename_i hreversal
      obtain ⟨db, hprocess, rfl⟩ := Option.map_eq_some_iff.mp hstep
      exact .inr (.inr ⟨hreversal, db, hprocess, rfl⟩)
  · cases hstep

theorem step_claim {userId accountSize : Nat} {key : String} {challengeOrderId : Option Nat}
    (hstep : w.step owner (.claim userId key challengeOrderId accountSize) = some w') :
    ∃ claims requests, w.db.claims.insert? ⟨w.nextClaim, userId, key⟩ = some claims ∧
      w.requests.insert? ⟨w.nextClaim, userId, key, challengeOrderId, accountSize⟩ = some requests ∧
      w' = { w with
        db := { w.db with claims := claims }, requests := requests, nextClaim := w.nextClaim + 1 } := by
  simp only [step, Option.bind_eq_bind, Option.bind_eq_some_iff] at hstep
  obtain ⟨db, hbegin, requests, hrequest, hw⟩ := hstep
  unfold beginIdempotentRequest at hbegin
  split at hbegin
  · cases hbegin
  obtain ⟨claims, hclaim, rfl⟩ := Option.map_eq_some_iff.mp hbegin
  exact ⟨claims, requests, hclaim, hrequest, (Option.some.inj hw).symm⟩

theorem step_openSession {orderId : Nat} {userId : Option Nat} {sessionId : String}
    (hstep : w.step owner (.openSession orderId userId sessionId) = some w') :
    owner sessionId = some orderId ∧
      ∃ order, checkoutGates w.db orderId userId = .ok order ∧ order.id = orderId ∧
        w' = { w with checkouts := (orderId, sessionId) :: w.checkouts } := by
  simp only [step] at hstep
  split at hstep
  · rename_i howner
    obtain ⟨order, hgates, rfl⟩ := Option.map_eq_some_iff.mp hstep
    have hok := Except.toOption_eq_some.mp hgates
    have hid : order.id = orderId := by
      unfold checkoutGates at hok
      split at hok
      · cases hok
      · rename_i found hfound
        split at hok
        · cases hok
        · cases hok
          exact (Table.find?_eq_some.mp (Option.filter_eq_some_iff.mp hfound).1).2
    exact ⟨howner, order, hok, hid, by rw [hid]⟩
  · cases hstep

theorem step_settle {accountId : Nat} {status : AccountStatus}
    (hstep : w.step owner (.settle accountId status) = some w') :
    status ≠ .active ∧ w' = { w with db := { w.db with
      accounts := w.db.accounts.update (fun a => a.row.id = accountId ∧ a.row.status = .active)
        (IssuedAccount.movedTo status) } } := by
  simp only [step] at hstep
  split at hstep
  · cases hstep
  · rename_i hstatus
    exact ⟨hstatus, (Option.some.inj hstep).symm⟩

/-- A request is refused, or its account is created and its stamp outstanding. -/
theorem runCreate_cases (w : OrderWorld) (request : CreateRequest) (ctx : CreateContext) :
    w.runCreate request ctx =
      { w with requests := w.requests.delete fun r => r.claimId = request.claimId } ∨
    ∃ db order account, createAccount w.db ctx request = .ok (db, order, account) ∧
      w.runCreate request ctx =
        { w with
          db := db
          requests := w.requests.delete fun r => r.claimId = request.claimId
          stamps := (order.id, account.row.id) :: w.stamps } := by
  unfold runCreate
  cases hcreate : createAccount w.db ctx request with
  | error e => exact .inl rfl
  | ok result =>
    obtain ⟨db, order, account⟩ := result
    exact .inr ⟨db, order, account, rfl, rfl⟩

theorem step_continues (htraced : w.Traced owner) (hstep : w.step owner action = some w')
    (hreverse : ∀ n, action ≠ .reverse n) : Continues owner w.db w'.db := by
  cases action with
  | place request draw =>
    obtain ⟨db, hplace, rfl⟩ := Option.map_eq_some_iff.mp hstep
    exact placeOrder_continues hplace
  | prize id userId accountSize slug =>
    obtain ⟨db, hredeem, rfl⟩ := Option.map_eq_some_iff.mp hstep
    exact redeemPrize_continues hredeem
  | redeem models request =>
    cases hstep
    exact redeemGiftVoucher_continues w.db models request
  | revoke code =>
    cases hstep
    exact revokeGiftVoucher_continues w.db code
  | openSession orderId userId sessionId =>
    obtain ⟨_, _, _, _, rfl⟩ := step_openSession hstep
    exact .refl w.db
  | recordSession n =>
    obtain ⟨⟨orderId, sessionId⟩, hcheckout, rfl⟩ := Option.map_eq_some_iff.mp hstep
    exact recordSession_continues (htraced.checkouts _ (List.mem_of_getElem? hcheckout))
  | deliver event payment =>
    obtain ⟨⟨hids, hmetadata, _⟩, rfl | ⟨_, _, rfl⟩ | ⟨_, db, hprocess, rfl⟩⟩ := step_deliver hstep
    · exact .refl w'.db
    · exact .refl w.db
    · refine processSessionEvent_continues (fun orderId horder => ?_) hprocess
      rw [hids _ event.providerPaymentId_mem_ids]
      exact hmetadata orderId horder
  | reverse n => exact absurd rfl (hreverse n)
  | claim userId key challengeOrderId accountSize =>
    obtain ⟨claims, requests, _, _, rfl⟩ := step_claim hstep
    exact .of_claims w.db _
  | create claimId ctx =>
    obtain ⟨request, _, rfl⟩ := Option.map_eq_some_iff.mp hstep
    rcases w.runCreate_cases request ctx with hw | ⟨db, order, account, hcreate, hw⟩ <;> rw [hw]
    · exact .refl w.db
    · exact createAccount_continues hcreate
  | release claimId =>
    cases hstep
    exact .of_claims w.db _
  | stamp n =>
    obtain ⟨⟨orderId, accountId⟩, _, rfl⟩ := Option.map_eq_some_iff.mp hstep
    exact stampOrder_continues w.db orderId accountId
  | settle accountId status =>
    obtain ⟨hstatus, rfl⟩ := step_settle hstep
    exact .of_updateAccounts hstatus
  | rollBack n | drop n | dropStamp n =>
    cases hstep
    exact .refl w.db

theorem step_reverse {n : Nat} (hstep : w.step owner (.reverse n) = some w') :
    ∃ begun ∈ w.reversals, w.reversals[n]? = some begun ∧ w' = w.commitReversal n begun := by
  obtain ⟨begun, hbegun, rfl⟩ := Option.map_eq_some_iff.mp hstep
  exact ⟨begun, List.mem_of_getElem? hbegun, hbegun, rfl⟩

/-- Whatever a step does, it leaves every order, a gift or not. -/
theorem step_kept (htraced : w.Traced owner) (hstep : w.step owner action = some w') {id : Nat}
    {order : ChallengeOrder} (horder : w.db.order? id = some order) :
    ∃ order', w'.db.order? id = some order' ∧ order'.isGift = order.isGift := by
  by_cases hreverse : ∀ n, action ≠ .reverse n
  · obtain ⟨order', horder', hgift, _⟩ := (step_continues htraced hstep hreverse).kept id order horder
    exact ⟨order', horder', hgift⟩
  · push Not at hreverse
    obtain ⟨n, rfl⟩ := hreverse
    obtain ⟨begun, _, _, rfl⟩ := step_reverse hstep
    exact handleChargeReversal_kept horder

theorem empty_traced : Traced owner empty where
  owned _ _ h := by cases h
  checkouts _ h := by cases h
  begun _ h := by cases h

theorem step_quiet (hstep : w.step owner action = some w') (hquiet : action.Quiet) :
    w'.checkouts ⊆ w.checkouts ∧ w'.reversals ⊆ w.reversals ∧ w'.processed = w.processed := by
  have hrefl : w.checkouts ⊆ w.checkouts ∧ w.reversals ⊆ w.reversals ∧ w.processed = w.processed :=
    ⟨List.Subset.refl _, List.Subset.refl _, rfl⟩
  cases action with
  | openSession orderId userId sessionId => exact hquiet.elim
  | deliver event payment => exact hquiet.elim
  | reverse n => exact hquiet.elim
  | place request draw =>
    obtain ⟨_, _, rfl⟩ := Option.map_eq_some_iff.mp hstep
    exact hrefl
  | prize id userId accountSize slug =>
    obtain ⟨_, _, rfl⟩ := Option.map_eq_some_iff.mp hstep
    exact hrefl
  | stamp n =>
    obtain ⟨_, _, rfl⟩ := Option.map_eq_some_iff.mp hstep
    exact hrefl
  | recordSession n =>
    obtain ⟨_, _, rfl⟩ := Option.map_eq_some_iff.mp hstep
    exact ⟨List.eraseIdx_subset, List.Subset.refl _, rfl⟩
  | rollBack n =>
    cases hstep
    exact ⟨List.Subset.refl _, List.eraseIdx_subset, rfl⟩
  | claim userId key challengeOrderId accountSize =>
    obtain ⟨_, _, _, _, rfl⟩ := step_claim hstep
    exact hrefl
  | create claimId ctx =>
    obtain ⟨request, _, rfl⟩ := Option.map_eq_some_iff.mp hstep
    rcases w.runCreate_cases request ctx with hw | ⟨_, _, _, _, hw⟩ <;> rw [hw] <;> exact hrefl
  | settle accountId status =>
    obtain ⟨_, rfl⟩ := step_settle hstep
    exact hrefl
  | redeem models request | revoke code | drop claimId | release claimId | dropStamp n =>
    cases hstep
    exact hrefl

/-- What an event is resolved to is the order its payment is about. -/
theorem findOrderForChargeEvent_traced (howned : w.db.Owned owner) {event : StripeEvent}
    (hgenuine : w.Genuine owner event) {order : ChallengeOrder}
    (hfound : findOrderForChargeEvent w.db event = some order) : event.order owner = some order.id := by
  obtain ⟨hids, hmetadata, _⟩ := hgenuine
  rcases Option.or_eq_some_iff.mp hfound with hmeta | ⟨_, hreference⟩
  · obtain ⟨orderId, horderId, horder⟩ := Option.bind_eq_some_iff.mp hmeta
    rw [hmetadata orderId horderId]
    exact congrArg some (Table.find?_eq_some.mp horder).2.symm
  · obtain ⟨hmem, hholds⟩ := List.mem_filter.mp (List.maxOn?_mem hreference)
    rw [← hids _ event.reference_mem_ids]
    exact howned order.id order (Table.find?_eq_some.mpr ⟨hmem, rfl⟩) _ (of_decide_eq_true hholds)

theorem step_traced (htraced : w.Traced owner) (hstep : w.step owner action = some w') :
    w'.Traced owner := by
  have howned : w'.db.Owned owner := by
    by_cases hreverse : ∀ n, action ≠ .reverse n
    · exact (step_continues htraced hstep hreverse).owned htraced.owned
    · push Not at hreverse
      obtain ⟨n, rfl⟩ := hreverse
      obtain ⟨begun, _, _, rfl⟩ := step_reverse hstep
      exact handleChargeReversal_owned htraced.owned
  have hbegun : ∀ begun ∈ w.reversals, begun.event.type.reversal = some begun.status ∧
      (∀ order ∈ begun.found, begun.event.order owner = some order.id) ∧
        ∀ orderId ∈ begun.event.order owner, ∃ order, w'.db.order? orderId = some order := by
    intro begun hmem
    obtain ⟨hstatus, hfound, hexists⟩ := htraced.begun begun hmem
    refine ⟨hstatus, hfound, fun orderId horderId => ?_⟩
    obtain ⟨order, horder⟩ := hexists orderId horderId
    obtain ⟨order', horder', _⟩ := step_kept htraced hstep horder
    exact ⟨order', horder'⟩
  cases action with
  | openSession orderId userId sessionId =>
    obtain ⟨howner, _, _, _, rfl⟩ := step_openSession hstep
    exact ⟨howned, List.forall_mem_cons.mpr ⟨howner, htraced.checkouts⟩, hbegun⟩
  | deliver event payment =>
    obtain ⟨hgenuine, rfl | ⟨status, hstatus, rfl⟩ | ⟨_, db, _, rfl⟩⟩ := step_deliver hstep
    · exact htraced
    · refine ⟨howned, htraced.checkouts, List.forall_mem_cons.mpr ⟨⟨hstatus, ?_, ?_⟩, hbegun⟩⟩
      · exact fun order hfound => findOrderForChargeEvent_traced htraced.owned hgenuine hfound
      · exact fun orderId horderId => Option.isSome_iff_exists.mp (hgenuine.2.2 orderId horderId)
    · exact ⟨howned, htraced.checkouts, hbegun⟩
  | reverse n =>
    obtain ⟨begun, _, _, rfl⟩ := step_reverse hstep
    exact ⟨howned, htraced.checkouts, fun begun hmem => hbegun begun (List.eraseIdx_subset hmem)⟩
  | _ =>
    obtain ⟨hcheckouts, hreversals, _⟩ := step_quiet hstep trivial
    exact ⟨howned, fun checkout hmem => htraced.checkouts checkout (hcheckouts hmem),
      fun begun hmem => hbegun begun (hreversals hmem)⟩

/-! ### Sample requests -/

/-- An order for a ten thousand dollar evaluation, bought by the trader 5. -/
def sampleChallengeOrder (id amount : Nat) (recipientEmail : Option String) : ChallengeOrderRequest where
  id := id
  userId := 5
  userEmail := "buyer"
  accountSize := 10000
  stepModel := "two-step"
  amount := amount
  recipientEmail := recipientEmail

def sampleModel : EntryModel where
  id := 1
  slug := "two-step"
  profitTargetPct := 8
  timeLimitDays := 30
  consistencyMaxDayPct := none
  maxDrawdownPct := 10
  dailyDrawdownPct := some 5
  minTradingDays := none
  minDailyProfitPct := none

/-- The model is on offer without a limit; the user's own accounts may be limited. -/
def sampleContext (accountId activeAccounts : Nat) (maxAccountsPerUser : Option Int) : CreateContext where
  accountId := accountId
  now := 0
  userFound := true
  activeAccounts := activeAccounts
  maxAccountsPerUser := maxAccountsPerUser
  fetchStepModelBySlug slug := if slug = sampleModel.slug then some sampleModel else none
  pricing _ _ := some ⟨true, true, none⟩
  usedSlots _ _ := 0

def sampleDraw : VoucherDraw := ⟨"GIFT-1", 0, none⟩

/-- The buyer has been referred, at a rate of ten percent. -/
def samplePayment : PaymentContext := ⟨some ⟨9, true⟩, true, ⟨10, by norm_num⟩, sampleDraw⟩

theorem reached_traced {ok : OrderWorld → OrderAction → Prop}
    (hreach : Reach (step owner) ok (· = empty) w) : w.Traced owner :=
  hreach.invariant (fun _ h => h ▸ empty_traced) fun _ _ _ htraced _ hstep => step_traced htraced hstep

end OrderWorld

end PropFirm
