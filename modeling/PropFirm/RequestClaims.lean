import Mathlib
import PropFirm.ChallengeOrders
import PropFirm.Idempotency
import PropFirm.Payouts

/-!
# The claim of a request

The three money endpoints from their claim on. Account creation and trade opening claim their key outside
the transaction and complete it after the commit, and their error exits abandon it; a payout request does
all of it inside its transaction.

Which statements fail is given with the request, and so are the answers of the checks that come before the
claim of a payout or a trade.
-/

namespace PropFirm

open JsValue

/-- What the caller is told, the claims as they are then, and whether the transaction is committed. -/
structure Handled where
  answer : Answer
  claims : ClaimStore
  committed : Bool

def errorBody (message : String) : Json := .obj [("error", .str message)]

/-- What `beginIdempotentRequest` decides is answered, once the transaction is rolled back; a request that
has won its claim goes on. -/
def answerBegin (error inProgress : Answer) (rollback : Bool) (onClaim : Nat → ClaimStore → Handled) :
    Option BeginIdempotencyResult × ClaimStore → Handled
  | (none, s) => ⟨error, s, false⟩
  | (some .required, s) =>
    ⟨if rollback then ⟨400, errorBody "An Idempotency-Key header is required for this request."⟩ else error,
      s, false⟩
  | (some (.replay answer), s) => ⟨if rollback then answer else error, s, false⟩
  | (some .inProgress, s) => ⟨if rollback then inProgress else error, s, false⟩
  | (some (.claimed claimId), s) => onClaim claimId s

/-- The error exit of a request that has a claim outside its transaction. -/
def failWith (error : Answer) (abandon : Table.Reply) (claimId : Nat) (committed : Bool) (s : ClaimStore) :
    Handled :=
  ⟨error, s.abandonIdempotentRequest claimId abandon, committed⟩

/-- After the commit the claim is completed and the body sent. -/
def finishWith (error : Answer) (abandon : Table.Reply) (body : JsValue) (complete : Table.Reply)
    (claimId : Nat) (s : ClaimStore) : Handled :=
  match s.completeIdempotentRequest claimId 201 body complete with
  | (true, s) => ⟨⟨201, body.stringify.getD .null⟩, s, true⟩
  | (false, s) => failWith error abandon claimId true s

/-! ### Account creation -/

/-- The digits of a number below a million, grouped. -/
def toLocaleString (n : Nat) : String :=
  if n < 1000 then toString n
  else toString (n / 1000) ++ "," ++ String.ofList ((toString (1000 + n % 1000)).toList.drop 1)

def OrderStatus.text : OrderStatus → String
  | .pending => "pending"
  | .processing => "processing"
  | .paid => "paid"
  | .refunded => "refunded"
  | .disputed => "disputed"
  | .cancelled => "cancelled"

/-- What `RETURNING *` gives of the account, in its columns. -/
structure ReturnedAccount where
  id : String
  accountUid : String
  columns : List (String × JsValue)

/-- A request, what it finds, and which of its statements are answered. `transaction` has those up to the
refusal or the commit, and `rollback` the one before a refusal. -/
structure CreateCall where
  key : String
  now : Nat
  db : OrderDb
  ctx : CreateContext
  request : CreateRequest
  modelName : String
  row : ReturnedAccount
  infrastructure : Bool
  insert : Table.Reply
  select : Bool
  transaction : Bool
  rollback : Bool
  commit : Table.Reply
  complete : Table.Reply
  abandon : Table.Reply

namespace CreateCall

variable (call : CreateCall)

def claimKey : ClaimKey := ⟨.accountsCreate, call.key, call.request.userId⟩

def couldNotCreate : Answer := ⟨500, errorBody "Could not create account"⟩

/-- The refusals; the key of the new account is drawn until it is free. -/
def refusal : CreateError → Answer
  | .invalidSize =>
    ⟨400, errorBody ("Invalid account size. Choose one of: $" ++
      ", $".intercalate (stepModelAccountSizes.map toLocaleString))⟩
  | .userNotFound => ⟨404, errorBody "User not found"⟩
  | .accountLimit =>
    ⟨403, errorBody ("You already have an active challenge running. " ++
      "Complete or wait for it to finish before starting a new one.")⟩
  | .orderRequired =>
    ⟨402, .obj [("error", .str "A paid challenge order is required before creating this account."),
      ("requires_payment", .bool true)]⟩
  | .orderNotFound => ⟨404, errorBody "Challenge order not found."⟩
  | .sizeMismatch => ⟨400, errorBody "Challenge order account size does not match your selected size."⟩
  | .paymentNotCompleted status =>
    ⟨402, .obj [("error", .str "Challenge payment is not completed yet."), ("requires_payment", .bool true),
      ("order_status", .str status.text)]⟩
  | .modelMissing =>
    ⟨400, errorBody "This order is missing its challenge model. Please start a new challenge order."⟩
  | .modelUnavailable => ⟨400, errorBody "The challenge model for this order is no longer available."⟩
  | .slotsFull limit =>
    ⟨403, .obj [("error", .str ("All " ++ toString limit ++ " slots for the " ++ call.modelName ++ " $" ++
      toLocaleString call.request.accountSize ++ " account have been claimed.")), ("quota_full", .bool true)]⟩
  | .sizeLocked =>
    ⟨403, .obj [("error", .str ("The $" ++ toLocaleString call.request.accountSize ++ " " ++ call.modelName ++
      " account size is currently locked by the administrator.")), ("locked", .bool true)]⟩
  | .accountKeyTaken => couldNotCreate

/-- The id of an order is delivered as a string. -/
def responseBody (orderId : Nat) : JsValue :=
  .obj [("message", .str (call.modelName ++ " challenge account created successfully")),
    ("account_id", .str call.row.id), ("account_uid", .str call.row.accountUid),
    ("order_id", .str (toString orderId)), ("account", .obj call.row.columns)]

def fails : Nat → Bool → ClaimStore → Handled := failWith couldNotCreate call.abandon

/-- The update of the order's metadata, which comes first, does not matter. -/
def finish (claimId orderId : Nat) : ClaimStore → Handled :=
  finishWith couldNotCreate call.abandon (call.responseBody orderId) call.complete claimId

def onClaim (claimId : Nat) (s : ClaimStore) : Handled :=
  match createGates call.db call.ctx call.request with
  | .error .invalidSize => ⟨call.refusal .invalidSize, s, false⟩
  | .error e =>
    if call.transaction && call.rollback then ⟨call.refusal e, s, false⟩ else call.fails claimId false s
  | .ok (order, _) =>
    if call.transaction = false then call.fails claimId false s
    else match call.commit with
    | .ok => call.finish claimId order.id s
    | .lost => call.fails claimId true s
    | .failed => call.fails claimId false s

def handle (s : ClaimStore) : Handled :=
  if call.infrastructure then
    answerBegin couldNotCreate
      ⟨409, errorBody "This account creation request is already being processed."⟩ true call.onClaim
      (s.beginIdempotentRequest call.claimKey call.now call.insert call.select)
  else ⟨couldNotCreate, s, false⟩

end CreateCall

/-! ### Trade opening -/

/-- The row of the trade, whose id and account are strings. -/
structure ReturnedTrade where
  id : String
  accountId : String
  columns : List (String × JsValue)

/-- `early` is what is answered before the claim, and `sibling` the id of the other leg that a pending
order's response names; `afterCommit` has what is awaited between the commit and the completion. -/
structure OpenCall where
  key : String
  userId : Nat
  now : Nat
  early : Option Answer
  message : String
  row : ReturnedTrade
  sibling : Option (Option String)
  priceNotAvailable : Bool
  insert : Table.Reply
  select : Bool
  rollback : Bool
  transaction : Bool
  commit : Table.Reply
  afterCommit : Bool
  complete : Table.Reply
  abandon : Table.Reply

namespace OpenCall

variable (call : OpenCall)

def claimKey : ClaimKey := ⟨.tradesOpen, call.key, call.userId⟩

def couldNotOpen : Answer :=
  if call.priceNotAvailable then
    ⟨400, errorBody "This instrument is currently unavailable for your tenant feed."⟩
  else ⟨500, errorBody "Could not open trade"⟩

def responseBody : JsValue :=
  .obj ([("message", .str call.message), ("trade_id", .str call.row.id),
    ("account_id", .str call.row.accountId), ("trade", (JsValue.obj call.row.columns).toJsonValue)] ++
    (call.sibling.elim [] fun id => [("oco_sibling_trade_id", id.elim .null .str)]))

def fails : Nat → Bool → ClaimStore → Handled := failWith call.couldNotOpen call.abandon

def finish : Nat → ClaimStore → Handled :=
  finishWith call.couldNotOpen call.abandon call.responseBody call.complete

def onClaim (claimId : Nat) (s : ClaimStore) : Handled :=
  if call.transaction = false then call.fails claimId false s
  else match call.commit with
  | .ok => if call.afterCommit then call.finish claimId s else call.fails claimId true s
  | .lost => call.fails claimId true s
  | .failed => call.fails claimId false s

def handle (s : ClaimStore) : Handled :=
  match call.early with
  | some answer => ⟨answer, s, false⟩
  | none =>
    answerBegin call.couldNotOpen
      ⟨409, errorBody "This trade-open request is already being processed."⟩ call.rollback call.onClaim
      (s.beginIdempotentRequest call.claimKey call.now call.insert call.select)

end OpenCall

/-! ### Payout requests -/

/-- `screened` is the answer of the checks before the transaction, and `refusal` the texts of those in it;
`transaction` has the insert of the payout. -/
structure PayoutCall where
  key : String
  now : Nat
  screened : Option Answer
  db : PayoutDb
  request : PayoutRequest
  refusal : RequestError → Answer
  columns : List (String × JsValue)
  insert : Table.Reply
  select : Bool
  rollback : Bool
  transaction : Bool
  complete : Table.Reply
  commit : Table.Reply

namespace PayoutCall

variable (call : PayoutCall)

def claimKey : ClaimKey := ⟨.payoutsRequest, call.key, call.request.userId⟩

def couldNotSubmit : Answer := ⟨500, errorBody "Could not submit payout request"⟩

def responseBody : JsValue :=
  .obj [("message", .str "Payout request submitted successfully"), ("payout", .obj call.columns)]

/-- `before` has the claims as they were when the transaction began. -/
def onClaim (before : ClaimStore) (claimId : Nat) (s : ClaimStore) : Handled :=
  if call.transaction = false then ⟨couldNotSubmit, before, false⟩
  else match s.completeIdempotentRequest claimId 201 call.responseBody call.complete with
  | (false, _) => ⟨couldNotSubmit, before, false⟩
  | (true, s) =>
    match call.commit with
    | .ok => ⟨⟨201, call.responseBody.stringify.getD .null⟩, s, true⟩
    | .lost => ⟨couldNotSubmit, s, true⟩
    | .failed => ⟨couldNotSubmit, before, false⟩

/-- What is answered before the claim; a refusal in the transaction is rolled back first. -/
def early : Option Answer :=
  match call.screened, requestPayout call.db call.request with
  | some answer, _ => some answer
  | none, .error e => some (if call.rollback then call.refusal e else couldNotSubmit)
  | none, .ok _ => none

/-- A claim that is inserted and not heard of is rolled back. -/
def handle (s : ClaimStore) : Handled :=
  match call.early with
  | some answer => ⟨answer, s, false⟩
  | none =>
    match s.beginIdempotentRequest call.claimKey call.now call.insert call.select with
    | (none, _) => ⟨couldNotSubmit, s, false⟩
    | (some result, s') =>
      answerBegin couldNotSubmit ⟨409, errorBody "This payout request is already being processed."⟩
        call.rollback (call.onClaim s) (some result, s')

end PayoutCall

/-! ### The end of a claim -/

inductive MoneyRequest
  | create (call : CreateCall)
  | openTrade (call : OpenCall)
  | payout (call : PayoutCall)

/-- A claim is over: it is released, or completed with the answer of its request. -/
def Ended (s : ClaimStore) (key : ClaimKey) (answer : Answer) : Prop :=
  s.claims.find? key = none ∨ ∃ claim, s.claims.find? key = some claim ∧ claim.response = some answer

/-- The claim is over when its request is answered, and a retry is answered the same or runs again. -/
structure EndsClaim (key : ClaimKey) (h : Handled) : Prop where
  ended : Ended h.claims key h.answer
  retried : ∀ now, (∃ claimId, (h.claims.beginIdempotentRequest key now .ok true).1 = some (.claimed claimId)) ∨
    (h.claims.beginIdempotentRequest key now .ok true).1 = some (.replay h.answer)

namespace CreateCall

variable (call : CreateCall)

/-- A refusal is answered after the claim. -/
def Refuses : Prop :=
  match createGates call.db call.ctx call.request with
  | .error .invalidSize => True
  | .error _ => call.transaction ∧ call.rollback
  | .ok _ => False

/-- The account is committed and the claim completed. -/
def Completes : Prop :=
  match createGates call.db call.ctx call.request with
  | .error _ => False
  | .ok (order, _) => call.transaction ∧ call.commit = .ok ∧
    (call.responseBody order.id).jsonValueSchema.isSome ∧ call.complete = .ok

/-- The claim's insert is not answered with an error though it is done; and once it is claimed, the request
is not refused, and is completed or abandoned. -/
def SettlesClaim : Prop :=
  call.insert ≠ .lost ∧ (call.insert = .ok →
    ¬ call.Refuses ∧ (call.Completes ∨ call.abandon ≠ .failed))

end CreateCall

namespace OpenCall

variable (call : OpenCall)

def Completes : Prop :=
  call.transaction ∧ call.commit = .ok ∧ call.afterCommit ∧ call.complete = .ok

def SettlesClaim : Prop :=
  call.insert ≠ .lost ∧ (call.insert = .ok → call.Completes ∨ call.abandon ≠ .failed)

end OpenCall

namespace PayoutCall

variable (call : PayoutCall)

def Completes : Prop :=
  call.insert = .ok ∧ call.transaction ∧ call.responseBody.jsonValueSchema.isSome ∧ call.complete = .ok

/-- A transaction that is committed is not answered with an error. -/
def SettlesClaim : Prop := call.Completes → call.commit ≠ .lost

end PayoutCall

namespace MoneyRequest

def claimKey : MoneyRequest → ClaimKey
  | .create call => call.claimKey
  | .openTrade call => call.claimKey
  | .payout call => call.claimKey

def handle : MoneyRequest → ClaimStore → Handled
  | .create call => call.handle
  | .openTrade call => call.handle
  | .payout call => call.handle

/-- The request comes to its claim. -/
def ComesToClaim : MoneyRequest → Prop
  | .create call => call.infrastructure
  | .openTrade call => call.early = none
  | .payout call => call.early = none

def SettlesClaim : MoneyRequest → Prop
  | .create call => call.SettlesClaim
  | .openTrade call => call.SettlesClaim
  | .payout call => call.SettlesClaim

end MoneyRequest

/-- The request comes to its claim and its key is free. -/
structure BeginsClaim (request : MoneyRequest) (s : ClaimStore) : Prop where
  comes : request.ComesToClaim
  key : request.claimKey.idempotencyKey ≠ ""
  free : s.claims.find? request.claimKey = none

variable {s s' : ClaimStore} {key : ClaimKey} {answer : Answer} {claim : RequestClaim}

theorem endsClaim_iff {h : Handled} (hkey : key.idempotencyKey ≠ "") :
    EndsClaim key h ↔ Ended h.claims key h.answer := by
  constructor
  · exact EndsClaim.ended
  · intro hended
    refine ⟨hended, fun now => ?_⟩
    rcases hended with hfree | ⟨claim, hrow, hresponse⟩
    · obtain ⟨s', -, hbegin⟩ := ClaimStore.begin_of_free hkey hfree now true
      exact .inl ⟨h.claims.nextId, by rw [hbegin]; rfl⟩
    · rw [ClaimStore.begin_of_taken hkey hrow now, hresponse]
      exact .inr rfl

theorem not_ended_of_started (hrow : s.claims.find? key = some claim) (hstarted : claim.response = none) :
    ¬ Ended s key answer := by
  rintro (hfree | ⟨other, hother, hresponse⟩)
  · cases hrow.symm.trans hfree
  · obtain rfl := Option.some.inj (hrow.symm.trans hother)
    cases hstarted.symm.trans hresponse

theorem ended_of_completed (hrow : s.claims.find? key = some claim) (answer : Answer) :
    Ended (s.complete claim.id answer) key answer :=
  .inr ⟨_, ClaimStore.find?_complete hrow answer, rfl⟩

/-- After an error the claim is over if it is deleted, for it is not completed with the error. -/
theorem ended_abandon_iff (hrow : s.claims.find? key = some claim) (hother : claim.response ≠ some answer)
    (reply : Table.Reply) :
    Ended (s.abandonIdempotentRequest claim.id reply) key answer ↔ reply ≠ .failed := by
  by_cases hreply : reply = .failed
  · rw [ClaimStore.abandonIdempotentRequest, if_pos hreply]
    refine ⟨fun hended => ?_, fun hnot => absurd hreply hnot⟩
    rcases hended with hfree | ⟨found, hfound, hresponse⟩
    · cases hrow.symm.trans hfree
    · obtain rfl := Option.some.inj (hrow.symm.trans hfound)
      exact absurd hresponse hother
  · rw [ClaimStore.abandonIdempotentRequest, if_neg hreply]
    exact ⟨fun _ => hreply, fun _ => .inl (ClaimStore.find?_delete hrow)⟩

theorem ended_abandon_of_started (hrow : s.claims.find? key = some claim) (hstarted : claim.response = none)
    (reply : Table.Reply) :
    Ended (s.abandonIdempotentRequest claim.id reply) key answer ↔ reply ≠ .failed := by
  refine ended_abandon_iff hrow ?_ reply
  rw [hstarted]
  exact (Option.some_ne_none answer).symm

theorem ended_finishWith_iff (hrow : s.claims.find? key = some claim) (hstarted : claim.response = none)
    (error : Answer) (herror : error.status ≠ 201) (abandon : Table.Reply) (body : JsValue)
    (complete : Table.Reply) :
    Ended (finishWith error abandon body complete claim.id s).claims key
        (finishWith error abandon body complete claim.id s).answer ↔
      body.jsonValueSchema.isSome ∧ complete = .ok ∨ abandon ≠ .failed := by
  have hfails : Ended (s.abandonIdempotentRequest claim.id abandon) key error ↔ abandon ≠ .failed :=
    ended_abandon_of_started hrow hstarted abandon
  unfold finishWith ClaimStore.completeIdempotentRequest
  cases hbody : body.jsonValueSchema with
  | none => simpa [failWith] using hfails
  | some json =>
    cases complete with
    | ok =>
      simp only [Option.isSome_some, true_and, true_or, iff_true]
      rw [body.stringify_of_schema hbody]
      exact ended_of_completed hrow ⟨201, json⟩
    | lost =>
      have hcompleted : (⟨201, json⟩ : Answer) ≠ error := fun heq => herror (heq ▸ rfl)
      have habandon : Ended ((s.complete claim.id ⟨201, json⟩).abandonIdempotentRequest claim.id abandon) key
          error ↔ abandon ≠ .failed :=
        ended_abandon_iff (ClaimStore.find?_complete hrow ⟨201, json⟩)
          (fun heq => hcompleted (Option.some.inj heq)) abandon
      simpa [failWith] using habandon
    | failed => simpa [failWith] using hfails

namespace CreateCall

theorem ended_onClaim_iff (call : CreateCall) (hrow : s.claims.find? key = some claim)
    (hstarted : claim.response = none) :
    Ended (call.onClaim claim.id s).claims key (call.onClaim claim.id s).answer ↔
      ¬ call.Refuses ∧ (call.Completes ∨ call.abandon ≠ .failed) := by
  have hfails : Ended (s.abandonIdempotentRequest claim.id call.abandon) key couldNotCreate ↔
      call.abandon ≠ .failed :=
    ended_abandon_of_started hrow hstarted call.abandon
  have hrefused (answer : Answer) : ¬ Ended s key answer := not_ended_of_started hrow hstarted
  unfold onClaim Refuses Completes
  cases hgates : createGates call.db call.ctx call.request with
  | error e =>
    cases e with
    | invalidSize => simp [hrefused]
    | _ => cases htransaction : call.transaction <;> cases hrollback : call.rollback <;>
        simp [hrefused, fails, failWith, hfails]
  | ok opened =>
    obtain ⟨order, model⟩ := opened
    cases htransaction : call.transaction with
    | false => simpa [fails, failWith] using hfails
    | true =>
      cases hcommit : call.commit with
      | ok =>
        have hfinish := ended_finishWith_iff hrow hstarted couldNotCreate (by decide) call.abandon
          (call.responseBody order.id) call.complete
        simpa [finish] using hfinish
      | lost => simpa [fails, failWith] using hfails
      | failed => simpa [fails, failWith] using hfails

end CreateCall

/-- The claim is inserted, and it is heard of or not. -/
theorem ended_answerBegin_iff (hkey : key.idempotencyKey ≠ "") (hfree : s.claims.find? key = none)
    (now : Nat) (insert : Table.Reply) (select rollback : Bool) (error inProgress : Answer)
    {onClaim : Nat → ClaimStore → Handled} {settles : Prop}
    (hclaim : ∀ s' claim, s'.claims.find? key = some claim → claim.response = none →
      (Ended (onClaim claim.id s').claims key (onClaim claim.id s').answer ↔ settles)) :
    let h := answerBegin error inProgress rollback onClaim (s.beginIdempotentRequest key now insert select)
    Ended h.claims key h.answer ↔ insert ≠ .lost ∧ (insert = .ok → settles) := by
  intro h
  obtain ⟨s', hrow, hbegin⟩ := ClaimStore.begin_of_free hkey hfree now select
  have hh : h = answerBegin error inProgress rollback onClaim
    (s.beginIdempotentRequest key now insert select) := rfl
  rw [hbegin insert] at hh
  cases insert with
  | ok =>
    have hended := hclaim s' _ hrow rfl
    simpa [hh, answerBegin] using hended
  | lost =>
    have hstarted : ¬ Ended s' key error := not_ended_of_started hrow rfl
    simpa [hh, answerBegin] using hstarted
  | failed =>
    have hended : Ended s key error := .inl hfree
    simpa [hh, answerBegin] using hended

namespace OpenCall

theorem couldNotOpen_status (call : OpenCall) : call.couldNotOpen.status ≠ 201 := by
  unfold couldNotOpen
  split
  all_goals decide

theorem responseBody_accepted (call : OpenCall) : call.responseBody.jsonValueSchema.isSome := by
  rw [responseBody, jsonValueSchema, Option.isSome_map, schemaFields_isSome]
  intro field hfield
  rcases List.mem_append.mp hfield with hown | hsibling
  · simp only [List.mem_cons, List.not_mem_nil, or_false] at hown
    rcases hown with rfl | rfl | rfl | rfl
    · rfl
    · rfl
    · rfl
    · exact schema_toJsonValue _
  · cases hsib : call.sibling with
    | none =>
      rw [hsib] at hsibling
      exact absurd hsibling List.not_mem_nil
    | some id =>
      rw [hsib] at hsibling
      obtain rfl := List.mem_singleton.mp hsibling
      cases id with
      | none => rfl
      | some id => rfl

theorem ended_onClaim_iff (call : OpenCall) (hrow : s.claims.find? key = some claim)
    (hstarted : claim.response = none) :
    Ended (call.onClaim claim.id s).claims key (call.onClaim claim.id s).answer ↔
      call.Completes ∨ call.abandon ≠ .failed := by
  have hfails : Ended (s.abandonIdempotentRequest claim.id call.abandon) key call.couldNotOpen ↔
      call.abandon ≠ .failed :=
    ended_abandon_of_started hrow hstarted call.abandon
  unfold onClaim Completes
  cases htransaction : call.transaction with
  | false => simpa [fails, failWith] using hfails
  | true =>
    cases hcommit : call.commit with
    | ok =>
      cases hafter : call.afterCommit with
      | false => simpa [fails, failWith] using hfails
      | true =>
        have hfinish := ended_finishWith_iff hrow hstarted call.couldNotOpen call.couldNotOpen_status
          call.abandon call.responseBody call.complete
        simpa [finish, call.responseBody_accepted] using hfinish
    | lost => simpa [fails, failWith] using hfails
    | failed => simpa [fails, failWith] using hfails

end OpenCall

namespace PayoutCall

theorem ended_handle_iff (call : PayoutCall) (hearly : call.early = none)
    (hkey : call.claimKey.idempotencyKey ≠ "")
    (hfree : s.claims.find? call.claimKey = none) :
    Ended (call.handle s).claims call.claimKey (call.handle s).answer ↔ call.SettlesClaim := by
  obtain ⟨s', hrow, hbegin⟩ := ClaimStore.begin_of_free hkey hfree call.now call.select
  have hnothing (answer : Answer) : Ended s call.claimKey answer := .inl hfree
  unfold handle SettlesClaim Completes
  rw [hearly]
  simp only [hbegin call.insert]
  cases hinsert : call.insert with
  | failed => simp [hnothing]
  | lost => simp [hnothing]
  | ok =>
    simp only [reduceCtorEq, if_false, if_true, answerBegin, onClaim, true_and]
    cases htransaction : call.transaction with
    | false => simp [hnothing]
    | true =>
      rw [ClaimStore.completeIdempotentRequest]
      cases hbody : call.responseBody.jsonValueSchema with
      | none => simp [hnothing]
      | some json =>
        cases hcomplete : call.complete with
        | failed => simp [hnothing]
        | lost => simp [hnothing]
        | ok =>
          have hcompleted := ended_of_completed hrow ⟨201, json⟩
          cases hcommit : call.commit with
          | failed => simp [hnothing]
          | ok => simpa [call.responseBody.stringify_of_schema hbody] using hcompleted
          | lost =>
            have hwrong : ¬ Ended (s'.complete s.nextId ⟨201, json⟩) call.claimKey couldNotSubmit := by
              rintro (hgone | ⟨found, hfound, hresponse⟩)
              · cases hgone.symm.trans (ClaimStore.find?_complete hrow ⟨201, json⟩)
              · obtain rfl := Option.some.inj
                  ((ClaimStore.find?_complete hrow ⟨201, json⟩).symm.trans hfound)
                cases hresponse
            simpa using hwrong

end PayoutCall

theorem endsClaim_iff_settlesClaim {request : MoneyRequest} (hbegins : BeginsClaim request s) :
    EndsClaim request.claimKey (request.handle s) ↔ request.SettlesClaim := by
  obtain ⟨hcomes, hkey, hfree⟩ := hbegins
  rw [endsClaim_iff hkey]
  cases request with
  | create call =>
    have hinfrastructure : call.infrastructure = true := hcomes
    rw [MoneyRequest.handle, CreateCall.handle, if_pos hinfrastructure]
    exact ended_answerBegin_iff hkey hfree call.now call.insert call.select true CreateCall.couldNotCreate
      ⟨409, errorBody "This account creation request is already being processed."⟩
      fun s' claim hrow hstarted => call.ended_onClaim_iff hrow hstarted
  | openTrade call =>
    have hearly : call.early = none := hcomes
    rw [MoneyRequest.handle, OpenCall.handle, hearly]
    exact ended_answerBegin_iff hkey hfree call.now call.insert call.select call.rollback call.couldNotOpen
      ⟨409, errorBody "This trade-open request is already being processed."⟩
      fun s' claim hrow hstarted => call.ended_onClaim_iff hrow hstarted
  | payout call => exact call.ended_handle_iff hcomes hkey hfree

/-! ### A refusal that keeps its claim -/

def noClaims : ClaimStore := ⟨.empty, 0, fun _ hclaim => absurd hclaim List.not_mem_nil⟩

/-- The size is none of those offered; every statement is answered. -/
def refusedCreation : CreateCall where
  key := "retry-me"
  now := 0
  db := .empty
  ctx := ⟨1, 0, true, 0, none, fun _ => none, fun _ _ => none, fun _ _ => 0⟩
  request := ⟨0, 1, "retry-me", some 1, 7⟩
  modelName := "One Step"
  row := ⟨"1", "PF-1", []⟩
  infrastructure := true
  insert := .ok
  select := true
  transaction := true
  rollback := true
  commit := .ok
  complete := .ok
  abandon := .ok

theorem refusedCreation_keeps_claim : BeginsClaim (.create refusedCreation) noClaims ∧
    ¬ EndsClaim (MoneyRequest.create refusedCreation).claimKey
      ((MoneyRequest.create refusedCreation).handle noClaims) := by
  refine ⟨⟨rfl, by decide, rfl⟩, fun hends => ?_⟩
  have hrow : ((MoneyRequest.create refusedCreation).handle noClaims).claims.claims.find?
      (MoneyRequest.create refusedCreation).claimKey
      = some ⟨0, (MoneyRequest.create refusedCreation).claimKey, 0, none⟩ := by rfl
  exact not_ended_of_started hrow rfl hends.ended

/-- A position is opened although the commit's reply is lost, and the claim is released. -/
def releasedOpening : OpenCall where
  key := "retry-me"
  userId := 1
  now := 0
  early := none
  message := "Trade opened successfully"
  row := ⟨"7", "1", [("open_time", .date "2025-01-01T00:00:00.000Z")]⟩
  sibling := none
  priceNotAvailable := false
  insert := .ok
  select := true
  rollback := true
  transaction := true
  commit := .lost
  afterCommit := true
  complete := .ok
  abandon := .ok

theorem releasedOpening_endsClaim :
    EndsClaim (MoneyRequest.openTrade releasedOpening).claimKey
      ((MoneyRequest.openTrade releasedOpening).handle noClaims) := by
  have hbegins : BeginsClaim (.openTrade releasedOpening) noClaims := ⟨rfl, by decide, rfl⟩
  exact (endsClaim_iff_settlesClaim hbegins).mpr ⟨by decide, fun _ => .inr (by decide)⟩

end PropFirm
