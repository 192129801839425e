import Mathlib
import PropFirm.Lib.Leases
import PropFirm.Lib.Transition
import PropFirm.TradeTransactions

/-!
# Placing an order once

`POST /trades/open` wins a claim on the user's idempotency key, outside its transaction, before it
inserts. It completes the claim in a statement of its own after the commit, and its error exit abandons
the claim whatever the error came from. The reaper deletes claims by their age alone.

An attempt is a request that has won its claim: a transaction on the server's side and a handler on the
other. The server may still apply a commit whose handler has given up on the reply.
-/

namespace PropFirm

open Leases Transition

/-- A row of `idempotency_requests` in the scope of trade opening. A claim without a response is
`started`; the response names the trade. -/
structure OpenClaim where
  id : Nat
  actorId : Nat
  key : String
  createdAt : Nat
  response : Option Nat
  deriving DecidableEq

instance : Keyed OpenClaim (Nat × String) := ⟨fun claim => (claim.actorId, claim.key)⟩

/-- What a request inserts, with the ids it draws. -/
inductive Placement
  | market (id : Nat) (openPrice : ℚ) (now : Nat)
  | pending (leg : PendingLeg) (sibling : Option (PendingLeg × Nat))

def Placement.tradeId : Placement → Nat
  | market id _ _ => id
  | pending leg _ => leg.id

structure OpenRequest where
  userId : Nat
  idempotencyKey : String
  order : OrderRequest
  placement : Placement

def OpenRequest.transaction (request : OpenRequest) (db : Db) : Option (List Stmt) :=
  match request.placement with
  | .market id openPrice now => openTrade db request.order id openPrice now
  | .pending leg sibling => placePendingOrder db request.order leg sibling

inductive TxState
  | active
  | commitSent
  | applied
  | rolledBack
  deriving DecidableEq

/-- A handler transacts, works on after the commit, is in the error exit, or has ended. -/
inductive HandlerState
  | transacting
  | finishing
  | failing
  | gone
  deriving DecidableEq

structure OpenAttempt where
  request : OpenRequest
  claimId : Nat
  tx : TxState
  handler : HandlerState

def OpenAttempt.key (a : OpenAttempt) : Nat × String := (a.request.userId, a.request.idempotencyKey)

structure OpenWorld where
  db : Db
  claims : Table OpenClaim
  nextClaim : Nat
  attempts : List OpenAttempt

/-- A statement may be applied although its reply is lost (`answered`, `completed`), and one whose error
is swallowed may not be (`deleted`). `configured` is the reaper's age as the environment gives it. -/
inductive OpenAction
  | begin (request : OpenRequest) (now : Nat) (answered : Bool)
  | rollBack (attempt : Nat)
  | sendCommit (attempt : Nat)
  | applyCommit (attempt : Nat)
  | dropCommit (attempt : Nat)
  | receiveReply (attempt : Nat)
  | loseReply (attempt : Nat)
  | complete (attempt : Nat)
  | failAfterCommit (attempt : Nat) (completed : Bool)
  | abandon (attempt : Nat) (deleted : Bool)
  | crash (attempt : Nat)
  | reapStale (configured now : Nat)
  | reapExpired (configured now : Nat)

/-- `STALE_CLAIM_MS`. -/
def staleClaimMs (configured : Nat) : Nat :=
  max (60 * 1000) (if configured = 0 then 15 * 60 * 1000 else configured)

/-- `COMPLETED_RETENTION_MS`. -/
def completedRetentionMs (configured : Nat) : Nat :=
  max (60 * 60 * 1000) (if configured = 0 then 7 * 24 * 60 * 60 * 1000 else configured)

namespace OpenClaim

def isStale (claim : OpenClaim) (configured now : Nat) : Bool :=
  claim.response.isNone && claim.createdAt + staleClaimMs configured < now

def isExpired (claim : OpenClaim) (configured now : Nat) : Bool :=
  claim.response.isSome && claim.createdAt + completedRetentionMs configured < now

def completedWith (tradeId : Nat) : Table.Rewrite OpenClaim :=
  ⟨fun claim => { claim with response := some tradeId }, fun _ => rfl⟩

end OpenClaim

inductive BeginResult
  | required
  | claimed
  | replay (tradeId : Nat)
  | inProgress

namespace OpenWorld

def init (db : Db) : OpenWorld := ⟨db, .empty, 0, []⟩

def beginIdempotentRequest (claims : Table OpenClaim) (claim : OpenClaim) :
    BeginResult × Table OpenClaim :=
  if claim.key = "" then (.required, claims)
  else match claims.insert? claim with
  | some claims => (.claimed, claims)
  | none => match (claims.find? (claim.actorId, claim.key)).bind OpenClaim.response with
    | some tradeId => (.replay tradeId, claims)
    | none => (.inProgress, claims)

def completeIdempotentRequest (claims : Table OpenClaim) (claimId tradeId : Nat) : Table OpenClaim :=
  claims.update (fun claim => claim.id = claimId) (OpenClaim.completedWith tradeId)

def abandonIdempotentRequest (claims : Table OpenClaim) (claimId : Nat) : Table OpenClaim :=
  claims.delete fun claim => claim.id = claimId

/-- The claim a request comes for. -/
def newClaim (w : OpenWorld) (request : OpenRequest) (now : Nat) : OpenClaim :=
  ⟨w.nextClaim, request.userId, request.idempotencyKey, now, none⟩

/-- A request that has passed its checks comes for its claim; without one it is answered, and one that
does not hear of having won ends in the error exit without a claim to abandon. -/
def begin (w : OpenWorld) (request : OpenRequest) (now : Nat) (answered : Bool) : OpenWorld :=
  match beginIdempotentRequest w.claims (w.newClaim request now) with
  | (.claimed, claims) =>
    { w with
      claims := claims
      nextClaim := w.nextClaim + 1
      attempts := if answered then w.attempts ++ [⟨request, w.nextClaim, .active, .transacting⟩]
        else w.attempts }
  | _ => w

/-- The attempt at `k`, if its transaction and its handler are so. -/
def attempt? (w : OpenWorld) (k : Nat) (is : TxState → HandlerState → Bool) : Option OpenAttempt :=
  w.attempts[k]?.filter fun a => is a.tx a.handler

def put (w : OpenWorld) (k : Nat) (a : OpenAttempt) (tx : TxState) (handler : HandlerState) :
    OpenWorld :=
  { w with attempts := w.attempts.set k { a with tx := tx, handler := handler } }

def complete (w : OpenWorld) (a : OpenAttempt) : OpenWorld :=
  { w with claims := completeIdempotentRequest w.claims a.claimId a.request.placement.tradeId }

def applyCommit (w : OpenWorld) (k : Nat) (a : OpenAttempt) : Option OpenWorld := do
  let stmts ← a.request.transaction w.db
  let db ← execAll w.db stmts
  pure ({ w with db := db }.put k a .applied a.handler)

def step (w : OpenWorld) : OpenAction → Option OpenWorld
  | .begin request now answered => some (w.begin request now answered)
  | .rollBack k => (w.attempt? k fun tx handler => tx = .active ∧ handler = .transacting).map
    fun a => w.put k a .rolledBack .failing
  | .sendCommit k => (w.attempt? k fun tx handler => tx = .active ∧ handler = .transacting).map
    fun a => w.put k a .commitSent .transacting
  | .applyCommit k => (w.attempt? k fun tx _ => tx = .commitSent).bind (w.applyCommit k)
  | .dropCommit k => (w.attempt? k fun tx _ => tx = .commitSent).map
    fun a => w.put k a .rolledBack a.handler
  | .receiveReply k => (w.attempt? k fun tx handler => tx = .applied ∧ handler = .transacting).map
    fun a => w.put k a .applied .finishing
  | .loseReply k => (w.attempt? k fun tx handler => tx ≠ .active ∧ handler = .transacting).map
    fun a => w.put k a a.tx .failing
  | .complete k => (w.attempt? k fun _ handler => handler = .finishing).map
    fun a => (w.complete a).put k a a.tx .gone
  | .failAfterCommit k completed => (w.attempt? k fun _ handler => handler = .finishing).map
    fun a => (if completed then w.complete a else w).put k a a.tx .failing
  | .abandon k deleted => (w.attempt? k fun _ handler => handler = .failing).map fun a =>
    let claims := if deleted then abandonIdempotentRequest w.claims a.claimId else w.claims
    { w with claims := claims }.put k a a.tx .gone
  | .crash k => (w.attempt? k fun _ _ => true).map
    fun a => w.put k a (if a.tx = .active then .rolledBack else a.tx) .gone
  | .reapStale configured now =>
    some { w with claims := w.claims.delete fun claim => claim.isStale configured now }
  | .reapExpired configured now =>
    some { w with claims := w.claims.delete fun claim => claim.isExpired configured now }

/-- The orders committed for a user's key. -/
def committed (w : OpenWorld) (userId : Nat) (key : String) : List OpenAttempt :=
  w.attempts.filter fun a =>
    a.tx = .applied ∧ a.request.userId = userId ∧ a.request.idempotencyKey = key

def PlacesOnce (w : OpenWorld) : Prop := ∀ userId key, (w.committed userId key).length ≤ 1

/-- No claim that `p` selects is one whose order is committed or may yet be. -/
def Spares (w : OpenWorld) (p : OpenClaim → Bool) : Prop :=
  ∀ a ∈ w.attempts, a.tx ≠ .rolledBack → ∀ claim ∈ w.claims.rows, p claim = true →
    claim.id ≠ a.claimId

/-- A claim is abandoned only once its transaction is rolled back, and the reaper takes none whose order
is committed or may yet be. -/
def KeepsClaims (w : OpenWorld) : OpenAction → Prop
  | .abandon k true => ∀ a ∈ w.attempts[k]?, a.tx = .rolledBack
  | .reapStale configured now => w.Spares (·.isStale configured now)
  | .reapExpired configured now => w.Spares (·.isExpired configured now)
  | .begin _ _ _ | .rollBack _ | .sendCommit _ | .applyCommit _ | .dropCommit _ | .receiveReply _
  | .loseReply _ | .complete _ | .failAfterCommit _ _ | .abandon _ false | .crash _ => True

variable {w w' : OpenWorld} {k : Nat} {a : OpenAttempt} {tx : TxState} {handler : HandlerState}

/-! ### Attempts as holders of their claims -/

def lease (w : OpenWorld) (key : Nat × String) : Option Nat := (w.claims.find? key).map OpenClaim.id

/-- The attempts that have committed or may yet. -/
def holders (w : OpenWorld) : List ((Nat × String) × Nat) :=
  (w.attempts.filter fun a => a.tx ≠ .rolledBack).map fun a => (a.key, a.claimId)

structure Sound (w : OpenWorld) : Prop where
  leased : Leased w.lease w.holders
  distinct : (w.attempts.map OpenAttempt.claimId).Nodup
  drawn : ∀ a ∈ w.attempts, a.claimId < w.nextClaim

theorem mem_holders {h : (Nat × String) × Nat} :
    h ∈ w.holders ↔ ∃ a ∈ w.attempts, a.tx ≠ .rolledBack ∧ (a.key, a.claimId) = h := by
  simp [holders, and_assoc]

theorem attempt?_eq_some {is : TxState → HandlerState → Bool} (hat : w.attempt? k is = some a) :
    w.attempts[k]? = some a ∧ is a.tx a.handler = true :=
  Option.filter_eq_some_iff.mp hat

/-- Replacing one element by one that passes no test the old one fails. -/
theorem sublist_filter_map_set {α β : Type} {p : α → Bool} {f : α → β} {l : List α} {k : Nat} {a b : α}
    (hat : l[k]? = some a) (hp : p b = true → p a = true) (hf : f b = f a) :
    (((l.set k b).filter p).map f).Sublist ((l.filter p).map f) := by
  induction l generalizing k with
  | nil => exact List.Sublist.refl _
  | cons first rest ih =>
    cases k with
    | zero =>
      obtain rfl := Option.some.inj hat
      rw [List.set_cons_zero, List.filter_cons, List.filter_cons]
      by_cases hb : p b = true
      · rw [if_pos hb, if_pos (hp hb), List.map_cons, List.map_cons, hf]
      · rw [if_neg hb]
        split
        · exact List.sublist_cons_self _ _
        · exact List.Sublist.refl _
    | succ k =>
      rw [List.set_cons_succ, List.filter_cons, List.filter_cons]
      split
      · exact (ih hat).cons_cons _
      · exact ih hat

/-- A transaction rolled back stays so. -/
theorem Sound.put (hsound : w.Sound) (hat : w.attempts[k]? = some a)
    (htx : tx ≠ .rolledBack → a.tx ≠ .rolledBack) : (w.put k a tx handler).Sound where
  leased := hsound.leased.sublist (sublist_filter_map_set hat (by simpa using htx) rfl)
  distinct := by
    have hsub := sublist_filter_map_set (p := fun _ => true) (f := OpenAttempt.claimId)
      (b := { a with tx := tx, handler := handler }) hat (fun _ => rfl) rfl
    simp only [List.filter_true] at hsub
    exact hsound.distinct.sublist hsub
  drawn b hb := by
    rcases List.mem_or_eq_of_mem_set hb with hold | rfl
    · exact hsound.drawn b hold
    · exact hsound.drawn a (List.mem_of_getElem? hat)

theorem Sound.withClaims (hsound : w.Sound) {claims : Table OpenClaim}
    (hkept : ∀ h ∈ w.holders, (claims.find? h.1).map OpenClaim.id = w.lease h.1) :
    ({ w with claims := claims } : OpenWorld).Sound :=
  ⟨hsound.leased.keep hkept, hsound.distinct, hsound.drawn⟩

theorem Sound.complete (hsound : w.Sound) (a : OpenAttempt) : (w.complete a).Sound := by
  refine hsound.withClaims fun h _ => ?_
  rw [completeIdempotentRequest, Table.find?_update, Option.map_map, lease]
  refine congrArg (Option.map · _) (funext fun claim => ?_)
  rw [Function.comp_apply]
  split <;> rfl

/-- Deleting claims that nobody holds. -/
theorem Sound.delete (hsound : w.Sound) {p : OpenClaim → Bool} (hspares : w.Spares p) :
    ({ w with claims := w.claims.delete p } : OpenWorld).Sound := by
  refine hsound.withClaims fun h hh => ?_
  obtain ⟨claim, hclaim, hid⟩ := Option.map_eq_some_iff.mp (hsound.leased.held h hh)
  obtain ⟨hrow, hkey⟩ := Table.find?_eq_some.mp hclaim
  obtain ⟨a, ha, htx, rfl⟩ := mem_holders.mp hh
  have hkept : p claim = false := by
    by_contra hp
    exact hspares a ha htx claim hrow (by simpa using hp) hid
  rw [lease, hclaim, Table.find?_eq_some.mpr ⟨Table.mem_delete.mpr ⟨hrow, hkept⟩, hkey⟩]

theorem beginIdempotentRequest_claimed {claims claims' : Table OpenClaim} {claim : OpenClaim}
    (hbegin : beginIdempotentRequest claims claim = (.claimed, claims')) :
    claims.insert? claim = some claims' := by
  rw [beginIdempotentRequest] at hbegin
  split at hbegin
  · cases hbegin
  · split at hbegin
    · rename_i hinsert
      rw [hinsert, (Prod.mk.inj hbegin).2]
    · split at hbegin <;> cases hbegin

theorem Sound.begin (hsound : w.Sound) (request : OpenRequest) (now : Nat) (answered : Bool) :
    (w.begin request now answered).Sound := by
  rw [OpenWorld.begin]
  split
  · rename_i claims hbegin
    have hinsert := beginIdempotentRequest_claimed hbegin
    have hfind := Table.find?_of_insert? hinsert
    have hfree : w.lease (request.userId, request.idempotencyKey) = none := by
      rw [lease, Option.map_eq_none_iff]
      exact Table.find?_eq_none.mpr (Table.insert?_eq_some hinsert).1
    have hlease : ∀ key, (claims.find? key).map OpenClaim.id
        = if (request.userId, request.idempotencyKey) = key then some w.nextClaim else w.lease key := by
      intro key
      rw [hfind, apply_ite (Option.map OpenClaim.id)]
      rfl
    have hacquired := hsound.leased.acquire hfree hlease
    cases answered with
    | true =>
      refine ⟨?_, ?_, fun a ha => ?_⟩
      · have hholders : ∀ w' : OpenWorld, w'.attempts
            = w.attempts ++ [⟨request, w.nextClaim, .active, .transacting⟩] →
            w'.holders = w.holders ++ [((request.userId, request.idempotencyKey), w.nextClaim)] := by
          intro w' hattempts
          rw [holders, hattempts, List.filter_append, List.map_append]
          rfl
        rw [hholders _ rfl]
        exact hacquired
      · simp only [if_true, List.map_append, List.map_cons, List.map_nil]
        refine List.nodup_append.mpr ⟨hsound.distinct, List.nodup_singleton _, fun i hi j hj => ?_⟩
        obtain ⟨a, ha, rfl⟩ := List.mem_map.mp hi
        rw [List.mem_singleton.mp hj]
        exact (hsound.drawn a ha).ne
      · rcases List.mem_append.mp ha with hold | hnew
        · exact (hsound.drawn a hold).trans (Nat.lt_succ_self _)
        · rw [List.mem_singleton.mp hnew]
          exact Nat.lt_succ_self _
    | false =>
      refine ⟨hacquired.sublist (List.sublist_append_left _ _), hsound.distinct, fun a ha => ?_⟩
      exact (hsound.drawn a ha).trans (Nat.lt_succ_self _)
  · exact hsound

/-- Claims are told apart by their ids, so that an abandoned one is no other's. -/
theorem Sound.spares_of_rolledBack (hsound : w.Sound) (hat : w.attempts[k]? = some a)
    (htx : a.tx = .rolledBack) : w.Spares fun claim => claim.id = a.claimId := by
  intro b hb hlive claim _ hclaim hid
  have hsame : b.claimId = a.claimId := hid.symm.trans (of_decide_eq_true hclaim)
  have heq := List.inj_on_of_nodup_map hsound.distinct hb (List.mem_of_getElem? hat) hsame
  exact hlive (heq ▸ htx)

theorem Sound.step {action : OpenAction} (hsound : w.Sound) (hok : w.KeepsClaims action)
    (hstep : w.step action = some w') : w'.Sound := by
  cases action with
  | begin request now answered =>
    obtain rfl := Option.some.inj hstep
    exact hsound.begin request now answered
  | rollBack k =>
    obtain ⟨a, hat, rfl⟩ := Option.map_eq_some_iff.mp hstep
    exact hsound.put (attempt?_eq_some hat).1 fun h => absurd rfl h
  | sendCommit k =>
    obtain ⟨a, hat, rfl⟩ := Option.map_eq_some_iff.mp hstep
    obtain ⟨hget, his⟩ := attempt?_eq_some hat
    refine hsound.put hget fun _ htx => ?_
    simp [htx] at his
  | applyCommit k =>
    obtain ⟨a, hat, happly⟩ := Option.bind_eq_some_iff.mp hstep
    obtain ⟨hget, his⟩ := attempt?_eq_some hat
    rw [OpenWorld.applyCommit, Option.bind_eq_bind, Option.bind_eq_some_iff] at happly
    obtain ⟨stmts, _, happly⟩ := happly
    obtain ⟨db, _, hput⟩ := Option.bind_eq_some_iff.mp happly
    obtain rfl := Option.some.inj hput
    have hdb : ({ w with db := db } : OpenWorld).Sound :=
      ⟨hsound.leased, hsound.distinct, hsound.drawn⟩
    refine hdb.put hget fun _ htx => ?_
    simp [htx] at his
  | dropCommit k =>
    obtain ⟨a, hat, rfl⟩ := Option.map_eq_some_iff.mp hstep
    exact hsound.put (attempt?_eq_some hat).1 fun h => absurd rfl h
  | receiveReply k =>
    obtain ⟨a, hat, rfl⟩ := Option.map_eq_some_iff.mp hstep
    obtain ⟨hget, his⟩ := attempt?_eq_some hat
    refine hsound.put hget fun _ htx => ?_
    simp [htx] at his
  | loseReply k =>
    obtain ⟨a, hat, rfl⟩ := Option.map_eq_some_iff.mp hstep
    exact hsound.put (attempt?_eq_some hat).1 id
  | complete k =>
    obtain ⟨a, hat, rfl⟩ := Option.map_eq_some_iff.mp hstep
    exact (hsound.complete a).put (attempt?_eq_some hat).1 id
  | failAfterCommit k completed =>
    obtain ⟨a, hat, rfl⟩ := Option.map_eq_some_iff.mp hstep
    cases completed with
    | true => exact (hsound.complete a).put (attempt?_eq_some hat).1 id
    | false => exact hsound.put (attempt?_eq_some hat).1 id
  | abandon k deleted =>
    obtain ⟨a, hat, rfl⟩ := Option.map_eq_some_iff.mp hstep
    have hget := (attempt?_eq_some hat).1
    cases deleted with
    | true => exact (hsound.delete (hsound.spares_of_rolledBack hget (hok a hget))).put hget id
    | false => exact hsound.put hget id
  | crash k =>
    obtain ⟨a, hat, rfl⟩ := Option.map_eq_some_iff.mp hstep
    refine hsound.put (attempt?_eq_some hat).1 fun htx => ?_
    split at htx
    · exact absurd rfl htx
    · exact htx
  | reapStale configured now =>
    obtain rfl := Option.some.inj hstep
    exact hsound.delete hok
  | reapExpired configured now =>
    obtain rfl := Option.some.inj hstep
    exact hsound.delete hok

theorem Sound.init (db : Db) : (init db).Sound :=
  ⟨.nil _, List.nodup_nil, fun _ ha => absurd ha List.not_mem_nil⟩

theorem Sound.placesOnce (hsound : w.Sound) : w.PlacesOnce := by
  intro userId key
  have hsub : ((w.committed userId key).map OpenAttempt.key).Sublist (w.holders.map Prod.fst) := by
    rw [holders, List.map_map]
    refine List.Sublist.map _ ?_
    refine List.monotone_filter_right _ fun a ha => ?_
    simp only [decide_eq_true_eq] at ha ⊢
    simp [ha.1]
  have hall : (w.committed userId key).map OpenAttempt.key
      = List.replicate (w.committed userId key).length (userId, key) := by
    refine List.eq_replicate_iff.mpr ⟨List.length_map _, fun j hj => ?_⟩
    obtain ⟨a, ha, rfl⟩ := List.mem_map.mp hj
    obtain ⟨_, huser, hkey⟩ := of_decide_eq_true (List.mem_filter.mp ha).2
    rw [OpenAttempt.key, huser, hkey]
  have hnodup := hsound.leased.nodup.sublist hsub
  rw [hall, List.nodup_replicate] at hnodup
  exact hnodup

theorem reached_placesOnce {db : Db} (hreach : Reach step KeepsClaims (· = init db) w) :
    w.PlacesOnce := by
  refine Sound.placesOnce (hreach.invariant (fun _ hstart => ?_) fun _ _ _ hsound hok hstep =>
    hsound.step hok hstep)
  rw [hstart]
  exact .init db

instance (w : OpenWorld) (p : OpenClaim → Bool) : Decidable (w.Spares p) :=
  List.decidableBAll _ _

instance (w : OpenWorld) : ∀ action, Decidable (w.KeepsClaims action)
  | .abandon k true => inferInstanceAs (Decidable (∀ a ∈ w.attempts[k]?, a.tx = .rolledBack))
  | .reapStale _ _ | .reapExpired _ _ => inferInstanceAs (Decidable (w.Spares _))
  | .begin _ _ _ | .rollBack _ | .sendCommit _ | .applyCommit _ | .dropCommit _ | .receiveReply _
  | .loseReply _ | .complete _ | .failAfterCommit _ _ | .abandon _ false | .crash _ => .isTrue trivial

/-- Account 1 is active. -/
def openForTrading : Db :=
  { Db.initial .empty with accounts := .single (sampleTerms.provision 1) }

/-- The retried request draws another id. -/
def buyOneLot (id : Nat) : OpenRequest := ⟨1, "retry-me", sampleOrder, .market id (11 / 10) 0⟩

/-- An order placed, its claim completed and kept, and the request sent again. -/
def retriedAfterReply : List OpenAction :=
  [.begin (buyOneLot 7) 0 true, .sendCommit 0, .applyCommit 0, .receiveReply 0, .complete 0,
    .reapStale 0 1000000, .begin (buyOneLot 8) 1000000 true]

theorem reached_placesOnce_retriedAfterReply : ∃ w, run step (init openForTrading) retriedAfterReply
    = some w ∧ decide ((w.committed 1 "retry-me").length = 1) = true ∧ w.PlacesOnce := by
  obtain ⟨w, hrun, hone⟩ := exists_of_run_any step (init openForTrading) retriedAfterReply
    (fun w => decide ((w.committed 1 "retry-me").length = 1)) (by decide +kernel)
  have hok : RunOk step KeepsClaims (init openForTrading) retriedAfterReply := by decide +kernel
  exact ⟨w, hrun, hone, reached_placesOnce (.of_run (.init rfl) hok hrun)⟩

/-- The update that completes the claim fails after the commit, the error exit abandons the claim, and
the client sends the request again. -/
def retriedAfterError : List OpenAction :=
  [.begin (buyOneLot 7) 0 true, .sendCommit 0, .applyCommit 0, .receiveReply 0, .failAfterCommit 0 false,
    .abandon 0 true, .begin (buyOneLot 8) 1000 true, .sendCommit 1, .applyCommit 1]

theorem abandoned_claim_places_twice : ¬∀ w,
    Reach step (fun _ _ => True) (· = init openForTrading) w → w.PlacesOnce := by
  intro hall
  obtain ⟨w, hrun, htwo⟩ := exists_of_run_any step (init openForTrading) retriedAfterError
    (fun w => decide ((w.committed 1 "retry-me").length = 2)) (by decide +kernel)
  have hok : RunOk step (fun _ _ => True) (init openForTrading) retriedAfterError :=
    .of_forall fun _ _ _ => trivial
  have hone := hall w (.of_run (.init rfl) hok hrun) 1 "retry-me"
  rw [of_decide_eq_true htwo] at hone
  exact absurd hone (by decide)

end OpenWorld

end PropFirm
