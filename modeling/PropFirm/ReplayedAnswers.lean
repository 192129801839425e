import Mathlib
import PropFirm.OrderSystem
import PropFirm.PayoutRules
import PropFirm.RequestClaims

/-!
# Replayed answers

A request that has committed is told so, and whoever comes with its key later is told the same. The two
handlers that claim outside their transaction commit first and complete the claim then; the payout's
completes it first. A body is made of the row that was inserted: the trade's is turned into JSON value by
value, and the others are sent as the driver delivers them.
-/

namespace PropFirm

open ClaimStore JsValue Transition

namespace MoneyRequest

/-- The body of the answer, once the gates are passed. -/
def responseBody : MoneyRequest → Option JsValue
  | .create call =>
    (createGates call.db call.ctx call.request).toOption.map fun opened => call.responseBody opened.1.id
  | .openTrade call => some call.responseBody
  | .payout call => some call.responseBody

/-- The request is not refused before its claim, and the statements that decide it are answered. -/
def HearsOfClaim : MoneyRequest → Prop
  | .create call => call.infrastructure ∧ call.insert = .ok ∧ call.select
  | .openTrade call => call.early = none ∧ call.insert = .ok ∧ call.select ∧ call.rollback
  | .payout call => call.early = none ∧ call.insert = .ok ∧ call.select ∧ call.rollback

/-- From the commit on every statement is answered, and the account's columns hold JSON values. -/
def AnswersCommit : MoneyRequest → Prop
  | .create call => call.commit = .ok ∧ call.complete = .ok ∧
    ∀ column ∈ call.row.columns, (jsonValueSchema column.2).isSome
  | .openTrade call => call.commit = .ok ∧ call.afterCommit ∧ call.complete = .ok
  | .payout call => call.commit = .ok

end MoneyRequest

/-- The body is accepted, the caller gets it with a 201, and so does everybody who comes with the same key
within the retention period. -/
structure Replays (request : MoneyRequest) (h : Handled) : Prop where
  accepted : ∃ body, request.responseBody = some body ∧ body.jsonValueSchema = some h.answer.body
  created : h.answer.status = 201
  replayed : ∃ claim, h.claims.claims.find? request.claimKey = some claim ∧
    ∀ s', Reach ClaimStore.step (Spares claim) (· = h.claims) s' →
      ∀ later : MoneyRequest, later.claimKey = request.claimKey → later.HearsOfClaim →
        (later.handle s').answer = h.answer

variable {s : ClaimStore} {claim : RequestClaim} {answer : Answer}

/-- A later request finds the claim completed. -/
theorem handle_of_completed {later : MoneyRequest} (hkey : later.claimKey.idempotencyKey ≠ "")
    (hrow : s.claims.find? later.claimKey = some claim) (hresponse : claim.response = some answer)
    (hears : later.HearsOfClaim) : (later.handle s).answer = answer := by
  have hbegin (now : Nat) : s.beginIdempotentRequest later.claimKey now .ok true = (some (.replay answer), s) := by
    rw [begin_of_taken hkey hrow now, hresponse]
    rfl
  cases later with
  | create call =>
    obtain ⟨hinfrastructure, hinsert, hselect⟩ := hears
    have hcall := hbegin call.now
    rw [MoneyRequest.handle, CreateCall.handle, if_pos hinfrastructure, hinsert, hselect]
    rw [MoneyRequest.claimKey] at hcall
    rw [hcall]
    rfl
  | openTrade call =>
    obtain ⟨hearly, hinsert, hselect, hrollback⟩ := hears
    have hcall := hbegin call.now
    rw [MoneyRequest.claimKey] at hcall
    rw [MoneyRequest.handle, OpenCall.handle, hearly, hinsert, hselect, hrollback]
    simp only [hcall]
    rfl
  | payout call =>
    obtain ⟨hearly, hinsert, hselect, hrollback⟩ := hears
    have hcall := hbegin call.now
    rw [MoneyRequest.claimKey] at hcall
    rw [MoneyRequest.handle, PayoutCall.handle, hearly, hinsert, hselect, hrollback]
    simp only [hcall]
    rfl

theorem replays_of_completed {request : MoneyRequest} {h : Handled}
    (hkey : request.claimKey.idempotencyKey ≠ "") {body : JsValue} {json : Json}
    (hbody : request.responseBody = some body) (haccepted : body.jsonValueSchema = some json)
    (hanswer : h.answer = ⟨201, json⟩) (hrow : h.claims.claims.find? request.claimKey = some claim)
    (hresponse : claim.response = some ⟨201, json⟩) : Replays request h where
  accepted := ⟨body, hbody, haccepted.trans (hanswer ▸ rfl)⟩
  created := hanswer ▸ rfl
  replayed := by
    refine ⟨claim, hrow, fun s' hreach later hsame hears => ?_⟩
    obtain hclaimKey : claim.key = request.claimKey := (Table.find?_eq_some.mp hrow).2
    have hkept := find?_of_reach (hclaimKey ▸ hrow) (hresponse ▸ rfl) hreach
    rw [hanswer]
    refine handle_of_completed (hsame ▸ hkey) ?_ hresponse hears
    rw [hsame, ← hclaimKey]
    exact hkept

/-! ### Each handler -/

/-- Only a request that has won its claim commits. -/
theorem answerBegin_committed {key : ClaimKey} {now : Nat} {insert : Table.Reply} {select : Bool}
    {error inProgress : Answer} {rollback : Bool} {onClaim : Nat → ClaimStore → Handled}
    (hcommitted : (answerBegin error inProgress rollback onClaim
      (s.beginIdempotentRequest key now insert select)).committed = true) :
    key.idempotencyKey ≠ "" ∧ ∃ s', s'.claims.find? key = some ⟨s.nextId, key, now, none⟩ ∧
      answerBegin error inProgress rollback onClaim (s.beginIdempotentRequest key now insert select)
        = onClaim s.nextId s' := by
  cases hbegin : s.beginIdempotentRequest key now insert select with
  | mk result s' =>
    rw [hbegin] at hcommitted
    cases result with
    | none => cases hcommitted
    | some result =>
      cases result with
      | required => cases hcommitted
      | claimed claimId =>
        obtain ⟨hkey, -, rfl, hrow⟩ := begin_claimed hbegin
        exact ⟨hkey, s', hrow, rfl⟩
      | replay answer => cases hcommitted
      | inProgress => cases hcommitted

theorem finishWith_eq {body : JsValue} {json : Json} (haccepted : body.jsonValueSchema = some json)
    (error : Answer) (abandon : Table.Reply) (claimId : Nat) (s : ClaimStore) :
    finishWith error abandon body .ok claimId s = ⟨⟨201, json⟩, s.complete claimId ⟨201, json⟩, true⟩ := by
  unfold finishWith completeIdempotentRequest
  rw [haccepted, body.stringify_of_schema haccepted]
  rfl

theorem finishWith_answer {body : JsValue} {complete : Table.Reply}
    (hfails : ¬ (body.jsonValueSchema.isSome ∧ complete = .ok)) (error : Answer) (abandon : Table.Reply)
    (claimId : Nat) (s : ClaimStore) : (finishWith error abandon body complete claimId s).answer = error := by
  unfold finishWith completeIdempotentRequest
  cases hbody : body.jsonValueSchema with
  | none => rfl
  | some json =>
    cases complete with
    | ok => exact absurd ⟨hbody ▸ rfl, rfl⟩ hfails
    | lost => rfl
    | failed => rfl

theorem not_replays_of_error {request : MoneyRequest} {h : Handled} (error : Answer)
    (hstatus : error.status ≠ 201) (hanswer : h.answer = error) : ¬ Replays request h :=
  fun hreplays => hstatus (hanswer ▸ hreplays.created)

/-- A body is sent after the commit, outside the transaction. -/
theorem replays_finishWith_iff (request : MoneyRequest) (hkey : request.claimKey.idempotencyKey ≠ "")
    {body : JsValue} (hbody : request.responseBody = some body)
    (hrow : s.claims.find? request.claimKey = some claim) (error : Answer) (hstatus : error.status ≠ 201)
    (abandon complete : Table.Reply) :
    Replays request (finishWith error abandon body complete claim.id s) ↔
      body.jsonValueSchema.isSome ∧ complete = .ok := by
  by_cases hfinish : body.jsonValueSchema.isSome ∧ complete = .ok
  · refine iff_of_true ?_ hfinish
    obtain ⟨json, hjson⟩ := Option.isSome_iff_exists.mp hfinish.1
    rw [hfinish.2, finishWith_eq hjson]
    exact replays_of_completed hkey hbody hjson rfl (find?_complete hrow _) rfl
  · refine iff_of_false (not_replays_of_error error hstatus ?_) hfinish
    exact finishWith_answer hfinish error abandon claim.id s

namespace CreateCall

theorem responseBody_accepted_iff (call : CreateCall) (orderId : Nat) :
    (call.responseBody orderId).jsonValueSchema.isSome ↔
      ∀ column ∈ call.row.columns, (jsonValueSchema column.2).isSome := by
  have hcolumns : (jsonValueSchema (.obj call.row.columns)).isSome ↔
      ∀ column ∈ call.row.columns, (jsonValueSchema column.2).isSome := by
    rw [jsonValueSchema, Option.isSome_map, schemaFields_isSome]
  rw [responseBody, jsonValueSchema, Option.isSome_map, schemaFields_isSome, ← hcolumns]
  simp only [List.forall_mem_cons, List.not_mem_nil, false_imp_iff, implies_true, and_true]
  exact ⟨fun hall => hall.2.2.2.2, fun hall => ⟨rfl, rfl, rfl, rfl, hall⟩⟩

theorem handle_of_committed {call : CreateCall} (hcommitted : (call.handle s).committed = true) :
    call.claimKey.idempotencyKey ≠ "" ∧ ∃ s',
      s'.claims.find? call.claimKey = some ⟨s.nextId, call.claimKey, call.now, none⟩ ∧
        call.handle s = call.onClaim s.nextId s' := by
  unfold handle at hcommitted ⊢
  split at hcommitted
  · rename_i hinfrastructure
    rw [if_pos hinfrastructure]
    exact answerBegin_committed hcommitted
  · cases hcommitted

theorem replays_iff (call : CreateCall) (hcommitted : (call.handle s).committed = true) :
    Replays (.create call) (call.handle s) ↔ (MoneyRequest.create call).AnswersCommit := by
  obtain ⟨hkey, s', hrow, hhandle⟩ := handle_of_committed hcommitted
  rw [hhandle] at hcommitted ⊢
  unfold onClaim at hcommitted ⊢
  rw [MoneyRequest.AnswersCommit]
  cases hgates : createGates call.db call.ctx call.request with
  | error e =>
    rw [hgates] at hcommitted
    cases e with
    | invalidSize => cases hcommitted
    | _ =>
      dsimp only at hcommitted
      split at hcommitted
      all_goals cases hcommitted
  | ok opened =>
    obtain ⟨order, model⟩ := opened
    rw [hgates] at hcommitted
    dsimp only at hcommitted ⊢
    split at hcommitted
    · cases hcommitted
    rename_i htransaction
    rw [if_neg htransaction]
    cases hcommit : call.commit with
    | failed =>
      rw [hcommit] at hcommitted
      cases hcommitted
    | lost =>
      refine iff_of_false (not_replays_of_error couldNotCreate (by decide) rfl) fun hanswers => ?_
      cases hanswers.1
    | ok =>
      have hbody : (MoneyRequest.create call).responseBody = some (call.responseBody order.id) := by
        rw [MoneyRequest.responseBody, hgates]
        rfl
      refine (replays_finishWith_iff (.create call) hkey hbody hrow couldNotCreate (by decide) call.abandon
        call.complete).trans ?_
      rw [call.responseBody_accepted_iff order.id]
      exact ⟨fun hfinish => ⟨rfl, hfinish.2, hfinish.1⟩, fun hanswers => ⟨hanswers.2.2, hanswers.2.1⟩⟩

end CreateCall

namespace OpenCall

theorem handle_of_committed {call : OpenCall} (hcommitted : (call.handle s).committed = true) :
    call.claimKey.idempotencyKey ≠ "" ∧ ∃ s',
      s'.claims.find? call.claimKey = some ⟨s.nextId, call.claimKey, call.now, none⟩ ∧
        call.handle s = call.onClaim s.nextId s' := by
  unfold handle at hcommitted ⊢
  split at hcommitted
  · cases hcommitted
  · exact answerBegin_committed hcommitted

theorem replays_iff (call : OpenCall) (hcommitted : (call.handle s).committed = true) :
    Replays (.openTrade call) (call.handle s) ↔ (MoneyRequest.openTrade call).AnswersCommit := by
  obtain ⟨hkey, s', hrow, hhandle⟩ := handle_of_committed hcommitted
  have hfails (h : Handled) (hanswer : h.answer = call.couldNotOpen) : ¬ Replays (.openTrade call) h :=
    not_replays_of_error call.couldNotOpen call.couldNotOpen_status hanswer
  rw [hhandle] at hcommitted ⊢
  unfold onClaim at hcommitted ⊢
  rw [MoneyRequest.AnswersCommit]
  split at hcommitted
  · cases hcommitted
  rename_i htransaction
  rw [if_neg htransaction]
  cases hcommit : call.commit with
  | failed =>
    rw [hcommit] at hcommitted
    cases hcommitted
  | lost =>
    refine iff_of_false (hfails _ rfl) fun hanswers => ?_
    cases hanswers.1
  | ok =>
    cases hafter : call.afterCommit with
    | false =>
      refine iff_of_false (hfails _ rfl) fun hanswers => ?_
      cases hanswers.2.1
    | true =>
      refine (replays_finishWith_iff (.openTrade call) hkey rfl hrow call.couldNotOpen
        call.couldNotOpen_status call.abandon call.complete).trans ?_
      exact ⟨fun hfinish => ⟨rfl, rfl, hfinish.2⟩, fun hanswers => ⟨call.responseBody_accepted, hanswers.2.2⟩⟩

end OpenCall

namespace PayoutCall

theorem handle_of_committed {call : PayoutCall} (hcommitted : (call.handle s).committed = true) :
    call.claimKey.idempotencyKey ≠ "" ∧ ∃ s',
      s'.claims.find? call.claimKey = some ⟨s.nextId, call.claimKey, call.now, none⟩ ∧
        call.handle s = call.onClaim s s.nextId s' := by
  unfold handle at hcommitted ⊢
  split at hcommitted
  · cases hcommitted
  · split at hcommitted
    · cases hcommitted
    · rename_i result s' hbegin
      rw [← hbegin] at hcommitted ⊢
      exact answerBegin_committed hcommitted

theorem replays_iff (call : PayoutCall) (hcommitted : (call.handle s).committed = true) :
    Replays (.payout call) (call.handle s) ↔ (MoneyRequest.payout call).AnswersCommit := by
  obtain ⟨hkey, s', hrow, hhandle⟩ := handle_of_committed hcommitted
  rw [hhandle] at hcommitted ⊢
  unfold onClaim completeIdempotentRequest at hcommitted ⊢
  rw [MoneyRequest.AnswersCommit]
  split at hcommitted
  · cases hcommitted
  rename_i htransaction
  rw [if_neg htransaction]
  cases hbody : call.responseBody.jsonValueSchema with
  | none =>
    rw [hbody] at hcommitted
    cases hcommitted
  | some json =>
    rw [hbody] at hcommitted
    cases hcomplete : call.complete with
    | failed =>
      rw [hcomplete] at hcommitted
      cases hcommitted
    | lost =>
      rw [hcomplete] at hcommitted
      cases hcommitted
    | ok =>
      rw [hcomplete] at hcommitted
      cases hcommit : call.commit with
      | failed =>
        rw [hcommit] at hcommitted
        cases hcommitted
      | lost =>
        refine iff_of_false (not_replays_of_error couldNotSubmit (by decide) rfl) fun hanswers => ?_
        cases hanswers
      | ok =>
        refine iff_of_true ?_ rfl
        refine replays_of_completed hkey rfl hbody ?_ (find?_complete hrow ⟨201, json⟩) rfl
        rw [call.responseBody.stringify_of_schema hbody]
        rfl

end PayoutCall

/-- Until its payout is settled, a payout request that comes again is refused before its claim. -/
theorem payout_retry_refused {before after : PayoutDb} {request : PayoutRequest}
    (hrequest : requestPayout before request = .ok after) {later : PayoutCall} (hdb : later.db = after)
    (haccount : later.request.accountId = request.accountId) : ¬ (MoneyRequest.payout later).HearsOfClaim := by
  obtain ⟨-, acc, payouts, -, -, -, hinsert, rfl⟩ := requestPayout_eq_ok hrequest
  intro hears
  have hearly := hears.1
  unfold PayoutCall.early at hearly
  split at hearly
  · cases hearly
  · cases hearly
  · rename_i after' _ hlater
    obtain ⟨-, -, -, -, -, hnone, -, -⟩ := requestPayout_eq_ok hlater
    refine hnone request.row ?_ haccount.symm rfl
    rw [hdb, (Table.insert?_eq_some hinsert).2]
    exact List.mem_cons_self

/-- The account's columns have the date it was created at. -/
def datedCreation : CreateCall :=
  { refusedCreation with
    db := { OrderDb.empty with orders := .single (OrderWorld.sampleChallengeOrder 1 0 none).row }
    ctx := OrderWorld.sampleContext 1 0 none
    request := ⟨0, 5, "retry-me", some 1, 10000⟩
    row := ⟨"1", "PF-1", [("id", .str "1"), ("created_at", .date "2025-01-01T00:00:00.000Z")]⟩ }

def pendingPayout : PayoutCall where
  key := "retry-me"
  now := 0
  screened := none
  db := trader 1060000
  request := requestOf300
  refusal _ := ⟨400, errorBody "You already have a pending payout request"⟩
  columns := [("id", .str "7"), ("requested_at", .null)]
  insert := .ok
  select := true
  rollback := true
  transaction := true
  complete := .ok
  commit := .ok

def replayedOpening : OpenCall := { releasedOpening with commit := .ok }

end PropFirm
