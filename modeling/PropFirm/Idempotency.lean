import Mathlib
import PropFirm.Lib.Table
import PropFirm.Lib.Transition
import PropFirm.TradeIdempotency

/-!
# Idempotency claims

A request of a money endpoint wins a claim on its key, and completes it with its answer or abandons it. The
answer is stored as JSON, checked by a schema first; a value that comes from the database may be none, since
the driver delivers a timestamp as a date. Objects are taken up to the order of their keys, as `jsonb` is.
-/

namespace PropFirm

open Transition

inductive Json
  | null
  | bool (b : Bool)
  | num (q : ℚ)
  | str (s : String)
  | arr (items : List Json)
  | obj (fields : List (String × Json))

/-- A value as the handlers build it; a date is given by its ISO text, and `nonFinite` is a number that is
infinite or none. -/
inductive JsValue
  | undefined
  | null
  | bool (b : Bool)
  | num (q : ℚ)
  | nonFinite
  | str (s : String)
  | date (iso : String)
  | arr (items : List JsValue)
  | obj (fields : List (String × JsValue))

namespace JsValue

mutual

/-- What `jsonValueSchema` accepts of a value, a record's values and an array's items. -/
def jsonValueSchema : JsValue → Option Json
  | .null => some .null
  | .bool b => some (.bool b)
  | .num q => some (.num q)
  | .str s => some (.str s)
  | .arr items => (schemaItems items).map .arr
  | .obj fields => (schemaFields fields).map .obj
  | .undefined | .nonFinite | .date _ => none

def schemaItems : List JsValue → Option (List Json)
  | [] => some []
  | v :: vs => (jsonValueSchema v).bind fun j => (schemaItems vs).map (j :: ·)

def schemaFields : List (String × JsValue) → Option (List (String × Json))
  | [] => some []
  | (k, v) :: fields => (jsonValueSchema v).bind fun j => (schemaFields fields).map ((k, j) :: ·)

end

mutual

/-- `JSON.stringify`: nothing is written for `undefined`, and in an array `null`. -/
def stringify : JsValue → Option Json
  | .undefined => none
  | .null | .nonFinite => some .null
  | .bool b => some (.bool b)
  | .num q => some (.num q)
  | .str s | .date s => some (.str s)
  | .arr items => some (.arr (stringifyItems items))
  | .obj fields => some (.obj (stringifyFields fields))

def stringifyItems : List JsValue → List Json
  | [] => []
  | v :: vs => (stringify v).getD .null :: stringifyItems vs

def stringifyFields : List (String × JsValue) → List (String × Json)
  | [] => []
  | (k, v) :: fields =>
    match stringify v with
    | some j => (k, j) :: stringifyFields fields
    | none => stringifyFields fields

end

mutual

/-- `toJsonValue` of the trade routes. -/
def toJsonValue : JsValue → JsValue
  | .undefined => .str "undefined"
  | .nonFinite => .null
  | .date iso => .str iso
  | .arr items => .arr (toJsonItems items)
  | .obj fields => .obj (toJsonFields fields)
  | v => v

def toJsonItems : List JsValue → List JsValue
  | [] => []
  | v :: vs => toJsonValue v :: toJsonItems vs

def toJsonFields : List (String × JsValue) → List (String × JsValue)
  | [] => []
  | (_, .undefined) :: fields => toJsonFields fields
  | (k, v) :: fields => (k, toJsonValue v) :: toJsonFields fields

end

/-! What the schema accepts is written as it is. -/

mutual

theorem stringify_of_schema : ∀ (v : JsValue) {j : Json}, jsonValueSchema v = some j → stringify v = some j
  | .undefined, _, h | .nonFinite, _, h | .date _, _, h => by
    rw [jsonValueSchema] at h
    cases h
  | .null, _, h | .bool _, _, h | .num _, _, h | .str _, _, h => by
    rw [jsonValueSchema] at h
    rw [stringify, h]
  | .arr items, _, h => by
    rw [jsonValueSchema, Option.map_eq_some_iff] at h
    obtain ⟨js, hjs, rfl⟩ := h
    rw [stringify, stringifyItems_of_schema items hjs]
  | .obj fields, _, h => by
    rw [jsonValueSchema, Option.map_eq_some_iff] at h
    obtain ⟨js, hjs, rfl⟩ := h
    rw [stringify, stringifyFields_of_schema fields hjs]

theorem stringifyItems_of_schema : ∀ (vs : List JsValue) {js : List Json},
    schemaItems vs = some js → stringifyItems vs = js
  | [], _, h => Option.some.inj h
  | v :: vs, _, h => by
    rw [schemaItems, Option.bind_eq_some_iff] at h
    obtain ⟨j, hj, hrest⟩ := h
    obtain ⟨js, hjs, rfl⟩ := Option.map_eq_some_iff.mp hrest
    rw [stringifyItems, stringify_of_schema v hj, stringifyItems_of_schema vs hjs, Option.getD_some]

theorem stringifyFields_of_schema : ∀ (fields : List (String × JsValue)) {js : List (String × Json)},
    schemaFields fields = some js → stringifyFields fields = js
  | [], _, h => Option.some.inj h
  | (k, v) :: fields, _, h => by
    rw [schemaFields, Option.bind_eq_some_iff] at h
    obtain ⟨j, hj, hrest⟩ := h
    obtain ⟨js, hjs, rfl⟩ := Option.map_eq_some_iff.mp hrest
    rw [stringifyFields, stringify_of_schema v hj, stringifyFields_of_schema fields hjs]

end

theorem schemaFields_isSome {fields : List (String × JsValue)} :
    (schemaFields fields).isSome ↔ ∀ field ∈ fields, (jsonValueSchema field.2).isSome := by
  induction fields with
  | nil => exact ⟨fun _ _ h => absurd h List.not_mem_nil, fun _ => rfl⟩
  | cons field fields ih =>
    obtain ⟨k, v⟩ := field
    rw [List.forall_mem_cons, ← ih, schemaFields]
    cases jsonValueSchema v with
    | none => simp
    | some j => simp

/-! What `toJsonValue` gives is accepted. -/

mutual

theorem schema_toJsonValue : ∀ v : JsValue, (jsonValueSchema (toJsonValue v)).isSome
  | .undefined | .null | .bool _ | .num _ | .nonFinite | .str _ | .date _ => rfl
  | .arr items => by
    rw [toJsonValue, jsonValueSchema, Option.isSome_map]
    exact schemaItems_toJsonItems items
  | .obj fields => by
    rw [toJsonValue, jsonValueSchema, Option.isSome_map]
    exact schemaFields_toJsonFields fields

theorem schemaItems_toJsonItems : ∀ vs : List JsValue, (schemaItems (toJsonItems vs)).isSome
  | [] => rfl
  | v :: vs => by
    obtain ⟨j, hj⟩ := Option.isSome_iff_exists.mp (schema_toJsonValue v)
    obtain ⟨js, hjs⟩ := Option.isSome_iff_exists.mp (schemaItems_toJsonItems vs)
    rw [toJsonItems, schemaItems, hj, hjs]
    rfl

theorem schemaFields_toJsonFields : ∀ fields : List (String × JsValue),
    (schemaFields (toJsonFields fields)).isSome
  | [] => rfl
  | (k, v) :: fields => by
    have hrest := schemaFields_toJsonFields fields
    obtain ⟨js, hjs⟩ := Option.isSome_iff_exists.mp hrest
    obtain ⟨j, hj⟩ := Option.isSome_iff_exists.mp (schema_toJsonValue v)
    cases v with
    | undefined => exact hrest
    | _ =>
      rw [toJsonFields, schemaFields, hj, hjs]
      · rfl
      · rintro ⟨⟩

end

end JsValue

/-! ### The claims -/

structure Answer where
  status : Nat
  body : Json

/-- The strict scopes, in which a request without a key is refused. -/
inductive IdempotencyScope
  | tradesOpen | payoutsRequest | accountsCreate
  deriving DecidableEq

/-- What a claim is unique by; the key is the header as trimmed. -/
structure ClaimKey where
  scope : IdempotencyScope
  idempotencyKey : String
  actorId : Nat
  deriving DecidableEq

/-- A row of `idempotency_requests`. It is `started` until it has a response. -/
structure RequestClaim where
  id : Nat
  key : ClaimKey
  createdAt : Nat
  response : Option Answer

instance : Keyed RequestClaim ClaimKey := ⟨RequestClaim.key⟩

def RequestClaim.completedWith (answer : Answer) : Table.Rewrite RequestClaim :=
  ⟨fun claim => { claim with response := some answer }, fun _ => rfl⟩

namespace RequestClaim

def isStale (claim : RequestClaim) (configured now : Nat) : Bool :=
  claim.response.isNone && claim.createdAt + staleClaimMs configured < now

def isExpired (claim : RequestClaim) (configured now : Nat) : Bool :=
  claim.response.isSome && claim.createdAt + completedRetentionMs configured < now

end RequestClaim

/-- The claims, whose ids come from a sequence. -/
structure ClaimStore where
  claims : Table RequestClaim
  nextId : Nat
  drawn : ∀ claim ∈ claims.rows, claim.id < nextId

inductive BeginIdempotencyResult
  | required
  | claimed (claimId : Nat)
  | replay (answer : Answer)
  | inProgress

namespace ClaimStore

variable (s : ClaimStore)

def insert? (key : ClaimKey) (now : Nat) : Option ClaimStore :=
  match hinsert : s.claims.insert? ⟨s.nextId, key, now, none⟩ with
  | none => none
  | some claims =>
    some
      { claims := claims
        nextId := s.nextId + 1
        drawn := by
          intro claim hmem
          rw [(Table.insert?_eq_some hinsert).2] at hmem
          rcases List.mem_cons.mp hmem with rfl | hold
          · exact Nat.lt_succ_self _
          · exact (s.drawn claim hold).trans (Nat.lt_succ_self _) }

def complete (claimId : Nat) (answer : Answer) : ClaimStore where
  claims := s.claims.update (fun claim => claim.id = claimId) (RequestClaim.completedWith answer)
  nextId := s.nextId
  drawn := by
    intro claim hmem
    obtain ⟨old, hold, rfl⟩ := List.mem_map.mp hmem
    have hid := s.drawn old hold
    split
    · exact hid
    · exact hid

def delete (p : RequestClaim → Bool) : ClaimStore where
  claims := s.claims.delete p
  nextId := s.nextId
  drawn claim hmem := s.drawn claim (Table.mem_delete.mp hmem).1

/-- `insert` is the reply to the `INSERT`, and `select` whether the `SELECT` after a conflict is answered.
There is no result when it throws. -/
def beginIdempotentRequest (key : ClaimKey) (now : Nat) (insert : Table.Reply) (select : Bool) :
    Option BeginIdempotencyResult × ClaimStore :=
  if key.idempotencyKey = "" then (some .required, s)
  else if insert = .failed then (none, s)
  else match s.insert? key now with
  | some s' => (if insert = .ok then some (.claimed s.nextId) else none, s')
  | none =>
    if insert = .lost ∨ select = false then (none, s)
    else match (s.claims.find? key).bind RequestClaim.response with
    | some answer => (some (.replay answer), s)
    | none => (some .inProgress, s)

/-- Whether it returns, rather than throws, and the claims after it. -/
def completeIdempotentRequest (claimId responseStatus : Nat) (responseBody : JsValue) (reply : Table.Reply) :
    Bool × ClaimStore :=
  match responseBody.jsonValueSchema with
  | none => (false, s)
  | some body =>
    if reply = .failed then (false, s) else (reply = .ok, s.complete claimId ⟨responseStatus, body⟩)

/-- Every caller swallows its error. -/
def abandonIdempotentRequest (claimId : Nat) (reply : Table.Reply) : ClaimStore :=
  if reply = .failed then s else s.delete fun claim => claim.id = claimId

variable {s} {s' : ClaimStore} {key : ClaimKey}

theorem insert?_of_free (hfree : s.claims.find? key = none) (now : Nat) : ∃ s', s.insert? key now = some s' ∧
    s'.claims.find? key = some ⟨s.nextId, key, now, none⟩ := by
  obtain ⟨claims, hinsert⟩ := Option.isSome_iff_exists.mp
    (Table.insert?_isSome (r := (⟨s.nextId, key, now, none⟩ : RequestClaim)) hfree)
  unfold insert?
  split
  · rename_i hnone
    cases hnone.symm.trans hinsert
  · rename_i claims' hsome
    exact ⟨_, rfl, (Table.find?_of_insert? hsome key).trans (if_pos rfl)⟩

theorem insert?_eq_some {now : Nat} (hinsert : s.insert? key now = some s') :
    s.claims.insert? ⟨s.nextId, key, now, none⟩ = some s'.claims := by
  unfold insert? at hinsert
  split at hinsert
  · cases hinsert
  · rename_i claims hsome
    obtain rfl := Option.some.inj hinsert
    exact hsome

theorem insert?_of_taken {claim : RequestClaim} (hrow : s.claims.find? key = some claim) (now : Nat) :
    s.insert? key now = none := by
  cases hinsert : s.insert? key now with
  | none => rfl
  | some s' =>
    obtain ⟨hmem, hkey⟩ := Table.find?_eq_some.mp hrow
    exact absurd hkey ((Table.insert?_eq_some (insert?_eq_some hinsert)).1 claim hmem)

theorem find?_complete {claim : RequestClaim} (hrow : s.claims.find? key = some claim) (answer : Answer) :
    (s.complete claim.id answer).claims.find? key = some { claim with response := some answer } := by
  refine (Table.find?_update _ _ _ _).trans ?_
  rw [hrow, Option.map_some, if_pos (decide_eq_true rfl)]
  rfl

theorem find?_delete {claim : RequestClaim} (hrow : s.claims.find? key = some claim) :
    (s.delete fun c => c.id = claim.id).claims.find? key = none := by
  refine Table.find?_eq_none.mpr fun other hmem hkey => ?_
  obtain ⟨hold, hid⟩ := Table.mem_delete.mp hmem
  have hfound : s.claims.find? key = some other := Table.find?_eq_some.mpr ⟨hold, hkey⟩
  obtain rfl := Option.some.inj (hrow.symm.trans hfound)
  exact of_decide_eq_false hid rfl

/-- A request comes for a free key. -/
theorem begin_of_free (hkey : key.idempotencyKey ≠ "") (hfree : s.claims.find? key = none) (now : Nat)
    (select : Bool) :
    ∃ s', s'.claims.find? key = some ⟨s.nextId, key, now, none⟩ ∧ ∀ insert,
      s.beginIdempotentRequest key now insert select =
        if insert = .failed then (none, s)
        else (if insert = .ok then some (.claimed s.nextId) else none, s') := by
  obtain ⟨s', hinsert, hrow⟩ := insert?_of_free hfree now
  refine ⟨s', hrow, fun insert => ?_⟩
  rw [beginIdempotentRequest, if_neg hkey]
  split
  · rfl
  · rw [hinsert]

/-- A request comes for a key that is taken. -/
theorem begin_of_taken (hkey : key.idempotencyKey ≠ "") {claim : RequestClaim}
    (hrow : s.claims.find? key = some claim) (now : Nat) :
    s.beginIdempotentRequest key now .ok true =
      (some (claim.response.elim .inProgress .replay), s) := by
  rw [beginIdempotentRequest, if_neg hkey, if_neg Table.Reply.noConfusion, insert?_of_taken hrow now, hrow,
    Option.bind_some]
  cases hresponse : claim.response with
  | none => rfl
  | some answer => rfl

theorem begin_claimed {s' : ClaimStore} {now claimId : Nat} {insert : Table.Reply} {select : Bool}
    (hbegin : s.beginIdempotentRequest key now insert select = (some (.claimed claimId), s')) :
    key.idempotencyKey ≠ "" ∧ insert = .ok ∧ claimId = s.nextId ∧
      s'.claims.find? key = some ⟨s.nextId, key, now, none⟩ := by
  unfold beginIdempotentRequest at hbegin
  split at hbegin
  · cases hbegin
  rename_i hkey
  split at hbegin
  · cases hbegin
  split at hbegin
  · rename_i s'' hinsert
    obtain ⟨hresult, rfl⟩ := Prod.mk.inj hbegin
    split at hresult
    · rename_i hok
      cases hresult
      refine ⟨hkey, hok, rfl, ?_⟩
      exact (Table.find?_of_insert? (insert?_eq_some hinsert) key).trans (if_pos rfl)
    · cases hresult
  · split at hbegin
    · cases hbegin
    · split at hbegin
      all_goals cases hbegin

/-! ### What becomes of a completed claim -/

/-- A statement on the claims, by any request or by the reaper. -/
inductive Action
  | begin (key : ClaimKey) (now : Nat) (insert : Table.Reply) (select : Bool)
  | complete (claimId responseStatus : Nat) (responseBody : JsValue) (reply : Table.Reply)
  | abandon (claimId : Nat) (reply : Table.Reply)
  | reapStale (configured now : Nat)
  | reapExpired (configured now : Nat)

def step (s : ClaimStore) : Action → Option ClaimStore
  | .begin key now insert select => some (s.beginIdempotentRequest key now insert select).2
  | .complete claimId status body reply => some (s.completeIdempotentRequest claimId status body reply).2
  | .abandon claimId reply => some (s.abandonIdempotentRequest claimId reply)
  | .reapStale configured now => some (s.delete fun claim => claim.isStale configured now)
  | .reapExpired configured now => some (s.delete fun claim => claim.isExpired configured now)

/-- Requests complete and abandon their own claims, and the reaper comes within the retention period. -/
def Spares (claim : RequestClaim) (_ : ClaimStore) : Action → Prop
  | .complete claimId _ _ _ | .abandon claimId _ => claimId ≠ claim.id
  | .reapExpired configured now => claim.isExpired configured now = false
  | .begin .. | .reapStale .. => True

theorem find?_delete_of_not {claim : RequestClaim} {p : RequestClaim → Bool}
    (hrow : s.claims.find? key = some claim) (hp : p claim = false) :
    (s.delete p).claims.find? key = some claim := by
  obtain ⟨hmem, hkey⟩ := Table.find?_eq_some.mp hrow
  exact Table.find?_eq_some.mpr ⟨Table.mem_delete.mpr ⟨hmem, hp⟩, hkey⟩

theorem find?_begin {claim : RequestClaim} (hrow : s.claims.find? claim.key = some claim) (key : ClaimKey)
    (now : Nat) (insert : Table.Reply) (select : Bool) :
    (s.beginIdempotentRequest key now insert select).2.claims.find? claim.key = some claim := by
  unfold beginIdempotentRequest
  split
  · exact hrow
  split
  · exact hrow
  split
  · rename_i s' hinsert
    refine (Table.find?_of_insert? (insert?_eq_some hinsert) claim.key).trans ((if_neg ?_).trans hrow)
    rintro rfl
    cases (insert?_of_taken hrow now).symm.trans hinsert
  · split
    · exact hrow
    · split
      all_goals exact hrow

theorem find?_step {claim : RequestClaim} {a : Action} {s' : ClaimStore}
    (hrow : s.claims.find? claim.key = some claim) (hcompleted : claim.response.isSome)
    (hok : Spares claim s a) (hstep : s.step a = some s') : s'.claims.find? claim.key = some claim := by
  cases a with
  | begin key now insert select =>
    obtain rfl := Option.some.inj hstep
    exact find?_begin hrow key now insert select
  | complete claimId status body reply =>
    obtain rfl := Option.some.inj hstep
    unfold completeIdempotentRequest
    split
    · exact hrow
    split
    · exact hrow
    · refine (Table.find?_update _ _ _ _).trans ?_
      rw [hrow, Option.map_some, if_neg (by simpa using Ne.symm hok)]
  | abandon claimId reply =>
    obtain rfl := Option.some.inj hstep
    unfold abandonIdempotentRequest
    split
    · exact hrow
    · exact find?_delete_of_not hrow (decide_eq_false (Ne.symm hok))
  | reapStale configured now =>
    obtain rfl := Option.some.inj hstep
    refine find?_delete_of_not hrow ?_
    rw [RequestClaim.isStale, Option.isNone_eq_false_iff.mpr hcompleted, Bool.false_and]
  | reapExpired configured now =>
    obtain rfl := Option.some.inj hstep
    exact find?_delete_of_not hrow hok

/-- A claim that is completed stays as it is through the retention period. -/
theorem find?_of_reach {claim : RequestClaim} {s' : ClaimStore}
    (hrow : s.claims.find? claim.key = some claim) (hcompleted : claim.response.isSome)
    (hreach : Reach step (Spares claim) (· = s) s') : s'.claims.find? claim.key = some claim := by
  apply hreach.invariant
  · rintro t rfl
    exact hrow
  · exact fun t a t' ht hok hstep => find?_step ht hcompleted hok hstep

end ClaimStore

end PropFirm
