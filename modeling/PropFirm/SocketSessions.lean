import PropFirm.AccountUids
import PropFirm.Lib.IpAddresses
import PropFirm.Lib.Watchdog
import PropFirm.RealtimeFanout

/-!
# Sessions of sockets

A socket is let in by a handshake that checks its session, and the same checks are made again on a timer for
as long as it is open: one that finds the session revoked cuts the socket, one that cannot be made leaves it
alone. Meanwhile the client asks for rooms. Whether it may enter is looked up in the database, and requests
overlap each other and the checks.

The model is of one socket from its handshake on, with the database changing under it.
-/

namespace PropFirm

open Transition

/-! ### Identifiers and rooms -/

/-- Hexadecimal digits with hyphens after the eighth, twelfth, sixteenth and twentieth. -/
def isUuidShape (text : String) : Bool :=
  text.toList.length = 36 && (List.range 36).all fun i =>
    if i ∈ [8, 13, 18, 23] then text.toList[i]? = some '-' else text.toList[i]?.any IpAddresses.isHex

def isValidUUID (text : String) : Bool :=
  isUuidShape text && text.toList[14]?.any (fun c => '1' ≤ c && c ≤ '5') &&
    text.toList[19]?.any (fun c => c ∈ "89abAB".toList)

def adminRoom : String := "admin"

def chatRoom (id : ℕ) : String := "chat:" ++ Nat.repr id

/-- `legacyConversationIdSchema`. -/
def legacyConversationId (value : String) : Option ℕ :=
  (parseInt value.toList).bind fun id => if 0 < id then some id.toNat else none

/-! ### Sessions -/

structure UserSessionRow where
  tokenVersion : ℤ
  isBanned : Bool
  deriving DecidableEq

/-- `status` and `token_version` of a row of `platform_admins`. -/
structure AdminSessionRow where
  status : String
  tokenVersion : Option ℤ
  deriving DecidableEq

/-- What the queries of a socket would be answered with: a row of `users`, the value of `admin_token_version`,
a row of `platform_admins`, and the owner of a conversation. -/
structure SocketDb where
  users : String → Option UserSessionRow
  adminTokenVersion : Option String
  admins : String → Option AdminSessionRow
  chats : ℕ → Option String

/-- What `userClaimsSchema` lets through. -/
structure UserClaims where
  userId : String
  tv : Option ℤ
  uuid : isUuidShape userId = true

structure AdminClaims where
  adminId : Option String
  role : String
  atv : Option ℤ

/-- `socket.data`. -/
structure SocketData where
  userId : Option String
  tokenVersion : Option ℤ
  isAdmin : Bool
  adminTokenVersion : Option ℤ
  adminId : Option String
  uuid : ∀ id ∈ userId, isUuidShape id = true

def assertUserSessionValid (userId : String) (tokenVersion : Option ℤ) (db : SocketDb) : Except String Unit :=
  match db.users userId with
  | none => .error "User not found"
  | some user =>
    if user.isBanned then .error "Account suspended"
    else if tokenVersion.any (· < user.tokenVersion) then .error "Session expired"
    else .ok ()

/-- The first query of `assertAdminSessionValid`. -/
def assertAdminVersionValid (adminTokenVersion : Option ℤ) (db : SocketDb) : Except String Unit :=
  match db.adminTokenVersion.bind fun value => parseInt value.toList with
  | none => .ok ()
  | some serverVersion =>
    if adminTokenVersion.getD 0 < serverVersion then .error "Admin session expired" else .ok ()

/-- `token_version || 1`. -/
def AdminSessionRow.version (row : AdminSessionRow) : ℤ := (row.tokenVersion.filter (· ≠ 0)).getD 1

/-- The second query of `assertAdminSessionValid`, made for an admin that has a row. -/
def assertAdminRowValid (adminTokenVersion : Option ℤ) (adminId : String) (db : SocketDb) : Except String Unit :=
  match db.admins adminId with
  | none => .error "Platform admin not found"
  | some row =>
    if row.status ≠ "active" then .error "Platform admin account is inactive"
    else if adminTokenVersion.getD 0 < row.version then .error "Admin session expired"
    else .ok ()

/-- The queries that the handshake and each check make, in order. -/
def SocketData.checks (data : SocketData) : List (SocketDb → Except String Unit) :=
  (data.userId.toList.map fun id => assertUserSessionValid id data.tokenVersion) ++
    if data.isAdmin then
      assertAdminVersionValid data.adminTokenVersion ::
        data.adminId.toList.map (assertAdminRowValid data.adminTokenVersion)
    else []

theorem SocketData.length_checks (data : SocketData) : data.checks.length ≤ 3 := by
  unfold checks
  cases data.userId <;> cases data.adminId <;> cases data.isAdmin <;> simp

/-! ### The handshake -/

def builtInRoles : List String := ["super_admin", "kyc_reviewer", "support_agent", "risk_ops", "finance_ops"]

structure SocketConfig where
  fanout : FanoutConfig
  toLowerCase : String → String

/-- The claims of the tokens that were verified. -/
def decodedData (cfg : SocketConfig) (user : Option UserClaims) (admin : Option AdminClaims) :
    Except String SocketData :=
  let role (claims : AdminClaims) : String := cfg.toLowerCase (jsTrim claims.role)
  let admin := admin.filter fun claims => role claims = "admin" || builtInRoles.contains (role claims)
  if user.isNone && admin.isNone then .error "Unauthorized socket"
  else .ok {
    userId := user.map UserClaims.userId
    tokenVersion := user.bind UserClaims.tv
    isAdmin := admin.isSome
    adminTokenVersion := admin.bind AdminClaims.atv
    adminId := (admin.bind AdminClaims.adminId).filter (· ≠ "")
    uuid := by
      intro id hid
      obtain ⟨claims, -, rfl⟩ := Option.mem_map.mp hid
      exact claims.uuid }

/-- The rooms that the handshake joins. -/
def SocketData.rooms (data : SocketData) : Finset String :=
  (data.userId.elim ∅ fun id => {id, allPricesRoom}) ∪ if data.isAdmin then {adminRoom} else ∅

/-- One query after the other; `read i` is the database at query number `i`. -/
def runChecks (read : ℕ → SocketDb) (i : ℕ) : List (SocketDb → Except String Unit) → Except String Unit
  | [] => .ok ()
  | check :: checks => (check (read i)).bind fun _ => runChecks read (i + 1) checks

def socketAuthMiddleware (cfg : SocketConfig) (user : Option UserClaims) (admin : Option AdminClaims)
    (read : ℕ → SocketDb) : Except String SocketData :=
  (decodedData cfg user admin).bind fun data => (runChecks read 0 data.checks).map fun _ => data

theorem bind_eq_ok {ε α β : Type} {x : Except ε α} {f : α → Except ε β} {b : β} (hok : x.bind f = .ok b) :
    ∃ a, x = .ok a ∧ f a = .ok b := by
  cases x with
  | error _ => cases hok
  | ok a => exact ⟨a, rfl, hok⟩

theorem runChecks_ok {read : ℕ → SocketDb} {i : ℕ} {checks : List (SocketDb → Except String Unit)}
    (hok : runChecks read i checks = .ok ()) :
    ∀ (k : ℕ) (check : SocketDb → Except String Unit), checks[k]? = some check →
      check (read (i + k)) = .ok () := by
  induction checks generalizing i with
  | nil => simp
  | cons first checks ih =>
    obtain ⟨_, hfirst, hrest⟩ := bind_eq_ok hok
    intro k check hcheck
    cases k with
    | zero =>
      obtain rfl := Option.some.inj hcheck
      exact hfirst
    | succ k =>
      have hlater := ih hrest k check hcheck
      rwa [Nat.add_right_comm, Nat.add_assoc] at hlater

/-- The handshake lets in users and admins, and each of the checks that are made again later has passed. -/
theorem socketAuthMiddleware_ok {cfg : SocketConfig} {user : Option UserClaims} {admin : Option AdminClaims}
    {read : ℕ → SocketDb} {data : SocketData} (hok : socketAuthMiddleware cfg user admin read = .ok data) :
    (data.userId.isSome = true ∨ data.isAdmin = true) ∧
      ∀ (k : ℕ) (check : SocketDb → Except String Unit), data.checks[k]? = some check →
        check (read k) = .ok () := by
  obtain ⟨decoded, hdecoded, hok⟩ := bind_eq_ok hok
  obtain ⟨_, hchecks, hdata⟩ : ∃ u, runChecks read 0 decoded.checks = .ok u ∧ decoded = data := by
    cases hrun : runChecks read 0 decoded.checks with
    | error _ =>
      rw [hrun] at hok
      cases hok
    | ok u =>
      rw [hrun] at hok
      exact ⟨u, rfl, Except.ok.inj hok⟩
  subst hdata
  refine ⟨?_, fun k check hcheck => ?_⟩
  · simp only [decodedData] at hdecoded
    split at hdecoded
    · cases hdecoded
    · next hsome =>
      obtain rfl := Except.ok.inj hdecoded
      rw [Bool.and_eq_true, not_and_or, Option.isNone_iff_eq_none, Option.isNone_iff_eq_none] at hsome
      refine hsome.imp (fun huser => ?_) fun hadmin => ?_
      · rw [Option.isSome_map]
        exact Option.isSome_iff_ne_none.mpr huser
      · exact Option.isSome_iff_ne_none.mpr hadmin
  · have hpassed := runChecks_ok hchecks k check hcheck
    rwa [Nat.zero_add] at hpassed

/-! ### The socket -/

def sessionRevalidateMs : ℕ := 5 * 60 * 1000

/-- How late a timer may run, and how long a query may take. -/
structure SocketTiming where
  lag : ℕ
  latency : ℕ

def revalidation (t : SocketTiming) (data : SocketData) : Watchdog.Config SocketDb :=
  ⟨sessionRevalidateMs, t.lag, t.latency, data.checks.map fun check db => !(check db).isOk⟩

/-- What is looked up before a room is joined. -/
inductive RoomQuery
  | account (userId : String)
  | chat (conversationId : ℕ)
  deriving DecidableEq

namespace RoomQuery

def room : RoomQuery → String
  | account userId => userId
  | chat conversationId => chatRoom conversationId

def allows (data : SocketData) (db : SocketDb) : RoomQuery → Bool
  | account userId => (db.users userId).isSome
  | chat conversationId => (db.chats conversationId).any fun owner => data.isAdmin || data.userId = some owner

def refused : RoomQuery → String
  | account _ => "User room not found"
  | chat _ => "Unauthorized chat access"

/-- What is said when the query throws. -/
def failed : RoomQuery → String
  | account _ => "Unauthorized room join"
  | chat _ => "Could not join chat room"

end RoomQuery

/-- A handler that waits for its query. -/
structure PendingJoin where
  query : RoomQuery
  answer : Option Bool
  deriving DecidableEq

inductive SocketEmit
  | authError (error : String)
  | subscribedInstruments (subscribed : ℕ)
  | userTyping (room : String) (isTyping isAdmin : Bool) (userId : Option String)
  deriving DecidableEq

/-- `watch` has the clock, the database and the checks. -/
structure SocketState where
  watch : Watchdog.State SocketDb
  socket : FanoutSocket
  pending : List PendingJoin
  emitted : List SocketEmit

namespace SocketState

def db (s : SocketState) : SocketDb := s.watch.env

def connected (data : SocketData) (now : ℕ) (db : SocketDb) (firstDelay id : ℕ) : SocketState :=
  ⟨Watchdog.State.opened now db firstDelay, ⟨id, data.userId, data.rooms, none⟩, [], []⟩

def join (s : SocketState) (room : String) : SocketState :=
  { s with socket := { s.socket with rooms := insert room s.socket.rooms } }

def leave (s : SocketState) (room : String) : SocketState :=
  { s with socket := { s.socket with rooms := s.socket.rooms.erase room } }

def emit (s : SocketState) (message : SocketEmit) : SocketState := { s with emitted := s.emitted ++ [message] }

def ask (s : SocketState) (query : RoomQuery) : SocketState := { s with pending := s.pending ++ [⟨query, none⟩] }

/-- `io.to(room).emit` reaches the socket. -/
def Delivers (s : SocketState) (room : String) : Prop := s.watch.closed = false ∧ room ∈ s.socket.rooms

end SocketState

/-- What the client sends, and what becomes of a handler's query. -/
inductive SocketEvent
  | watch (event : Watchdog.Event SocketDb)
  | subscribeInstruments (instruments : Option (List String))
  | joinAccount (userId : String)
  | joinChat (conversationId : String)
  | leaveChat (conversationId : String)
  | typing (conversationId : String) (isTyping : Bool)
  | look (i : ℕ)
  | answer (i : ℕ)
  | fail (i : ℕ)

section Handlers

variable (cfg : SocketConfig) (data : SocketData) (s : SocketState)

def subscribeInstruments (instruments : Option (List String)) : SocketState :=
  let (socket, subscribed) := s.socket.setSocketSubscriptions cfg.fanout instruments
  { s with socket := socket }.emit (.subscribedInstruments subscribed)

/-- `userId` is `String(userId || '')`. -/
def joinAccount (userId : String) : SocketState :=
  let requested := jsTrim userId
  if requested = "" then s
  else if data.isAdmin then
    if requested = adminRoom then s.join requested
    else if isValidUUID requested then s.ask (.account requested)
    else s.emit (.authError "Unauthorized room join")
  else if data.userId = some requested then s.join requested
  else s.emit (.authError "Unauthorized room join")

def joinChat (conversationId : String) : SocketState :=
  match legacyConversationId conversationId with
  | none => s.emit (.authError "Invalid conversation id")
  | some id =>
    if data.isAdmin || data.userId.isSome then s.ask (.chat id)
    else s.emit (.authError "Unauthorized chat access")

def leaveChat (conversationId : String) : SocketState :=
  match legacyConversationId conversationId with
  | none => s
  | some id => s.leave (chatRoom id)

def typingStart (conversationId : String) (isTyping : Bool) : SocketState :=
  match legacyConversationId conversationId with
  | none => s
  | some id =>
    if chatRoom id ∈ s.socket.rooms then
      s.emit (.userTyping (chatRoom id) isTyping data.isAdmin (if data.isAdmin then none else data.userId))
    else s

/-- The handler goes on with what its query found. -/
def answerJoin (query : RoomQuery) (allowed : Bool) : SocketState :=
  if allowed then s.join query.room else s.emit (.authError query.refused)

end Handlers

/-- A socket that is closed hears no more of its client, but its handlers still finish. -/
def socketStep (cfg : SocketConfig) (t : SocketTiming) (data : SocketData) (s : SocketState) :
    SocketEvent → Option SocketState
  | .watch event => (Watchdog.step (revalidation t data) s.watch event).map fun watch => { s with watch := watch }
  | .subscribeInstruments instruments =>
    if s.watch.closed then none else some (subscribeInstruments cfg s instruments)
  | .joinAccount userId => if s.watch.closed then none else some (joinAccount data s userId)
  | .joinChat conversationId => if s.watch.closed then none else some (joinChat data s conversationId)
  | .leaveChat conversationId => if s.watch.closed then none else some (leaveChat s conversationId)
  | .typing conversationId isTyping =>
    if s.watch.closed then none else some (typingStart data s conversationId isTyping)
  | .look i => s.pending[i]?.bind fun join =>
    if join.answer = none then
      let answered : PendingJoin := { join with answer := some (join.query.allows data s.db) }
      some { s with pending := s.pending.eraseIdx i ++ [answered] }
    else none
  | .answer i => s.pending[i]?.bind fun join => join.answer.map fun allowed =>
    answerJoin { s with pending := s.pending.eraseIdx i } join.query allowed
  | .fail i => s.pending[i]?.map fun join =>
    { s with pending := s.pending.eraseIdx i }.emit (.authError join.query.failed)

/-! ### Who is in which room -/

theorem FanoutSocket.mem_rooms_setSocketSubscriptions {cfg : FanoutConfig} {socket : FanoutSocket}
    {instruments : Option (List String)} {room : String}
    (hroom : room ∈ (socket.setSocketSubscriptions cfg instruments).1.rooms) :
    room ∈ socket.rooms ∨ room = allPricesRoom ∨ ∃ instrument, room = priceRoom instrument := by
  have hmoved {left joined : List String}
      (hmem : room ∈ socket.rooms \ (left.map priceRoom).toFinset ∪ (joined.map priceRoom).toFinset) :
      room ∈ socket.rooms ∨ room = allPricesRoom ∨ ∃ instrument, room = priceRoom instrument := by
    rcases Finset.mem_union.mp hmem with hkept | hjoined
    · exact .inl (Finset.mem_sdiff.mp hkept).1
    · obtain ⟨instrument, -, rfl⟩ := List.mem_map.mp (List.mem_toFinset.mp hjoined)
      exact .inr (.inr ⟨instrument, rfl⟩)
  simp only [setSocketSubscriptions] at hroom
  split at hroom
  · rcases Finset.mem_insert.mp hroom with hall | hmem
    · exact .inr (.inl hall)
    · exact hmoved hmem
  · exact hmoved (Finset.mem_of_mem_erase hroom)

theorem isUuidShape_eq_false {text : String} {i : ℕ} {c : Char} (hi : i < 36) (hdigit : i ∉ [8, 13, 18, 23])
    (hc : text.toList[i]? = some c) (hhex : IpAddresses.isHex c = false) : isUuidShape text = false := by
  rw [isUuidShape, Bool.and_eq_false_iff]
  right
  rw [List.all_eq_false]
  refine ⟨i, List.mem_range.mpr hi, ?_⟩
  rw [if_neg hdigit, hc]
  simpa using hhex

theorem getElem?_append_text {before : String} (after : String) {i : ℕ} (hi : i < before.toList.length) :
    (before ++ after).toList[i]? = before.toList[i]? := by
  rw [String.toList_append]
  exact List.getElem?_append_left hi

theorem isUuidShape_priceRoom (instrument : String) : isUuidShape (priceRoom instrument) = false := by
  have hfirst : (priceRoom instrument).toList[0]? = some 'p' := getElem?_append_text instrument (by decide)
  exact isUuidShape_eq_false (by decide) (by decide) hfirst (by decide)

theorem isUuidShape_chatRoom (id : ℕ) : isUuidShape (chatRoom id) = false := by
  have hsecond : (chatRoom id).toList[1]? = some 'h' := getElem?_append_text (Nat.repr id) (by decide)
  exact isUuidShape_eq_false (by decide) (by decide) hsecond (by decide)

theorem isUuidShape_adminRoom : isUuidShape adminRoom = false := by decide

theorem chatRoom_injective : Function.Injective chatRoom := by
  intro id id' heq
  have hlist := congrArg String.toList heq
  rw [chatRoom, chatRoom, String.toList_append, String.toList_append] at hlist
  exact Nat.repr_injective (String.toList_injective (List.append_cancel_left hlist))

/-- What lets a socket be in a room; `seen` are the databases that it has lived through. -/
inductive Permitted (data : SocketData) (seen : List SocketDb) : String → Prop
  | own {userId : String} (huser : data.userId = some userId) : Permitted data seen userId
  | allPrices : Permitted data seen allPricesRoom
  | price (instrument : String) : Permitted data seen (priceRoom instrument)
  | admin (hadmin : data.isAdmin = true) : Permitted data seen adminRoom
  | trader {userId : String} (hadmin : data.isAdmin = true) (hvalid : isValidUUID userId = true)
      (hfound : ∃ db ∈ seen, (db.users userId).isSome = true) : Permitted data seen userId
  | chat {id : ℕ} (hallowed : ∃ db ∈ seen, (RoomQuery.chat id).allows data db = true) :
      Permitted data seen (chatRoom id)

/-- A conversation that there was at some moment, and that was the user's unless the socket is an admin's. -/
def Granted (data : SocketData) (seen : List SocketDb) (id : ℕ) : Prop :=
  ∃ db ∈ seen, ∃ owner, db.chats id = some owner ∧ (data.isAdmin = true ∨ data.userId = some owner)

section

variable {data : SocketData} {seen : List SocketDb} {room : String}

theorem Permitted.of_uuid (hpermitted : Permitted data seen room) (hshape : isUuidShape room = true) :
    data.userId = some room ∨ data.isAdmin = true ∧ ∃ db ∈ seen, (db.users room).isSome = true := by
  cases hpermitted with
  | own huser => exact .inl huser
  | allPrices => exact absurd hshape (by decide)
  | price instrument =>
    rw [isUuidShape_priceRoom] at hshape
    cases hshape
  | admin _ => exact absurd hshape (by decide)
  | trader hadmin _ hfound => exact .inr ⟨hadmin, hfound⟩
  | chat _ =>
    rw [isUuidShape_chatRoom] at hshape
    cases hshape

theorem isUuidShape_of_isValidUUID {userId : String} (hvalid : isValidUUID userId = true) :
    isUuidShape userId = true := by
  rw [isValidUUID, Bool.and_eq_true, Bool.and_eq_true] at hvalid
  exact hvalid.1.1

/-- A room that is no user's. -/
theorem Permitted.of_shared (hpermitted : Permitted data seen room) (hshape : isUuidShape room = false) :
    room = allPricesRoom ∨ (∃ instrument, room = priceRoom instrument) ∨ data.isAdmin = true ∧ room = adminRoom ∨
      ∃ id, room = chatRoom id ∧ ∃ db ∈ seen, (RoomQuery.chat id).allows data db = true := by
  cases hpermitted with
  | own huser =>
    rw [data.uuid _ huser] at hshape
    cases hshape
  | allPrices => exact .inl rfl
  | price instrument => exact .inr (.inl ⟨instrument, rfl⟩)
  | admin hadmin => exact .inr (.inr (.inl ⟨hadmin, rfl⟩))
  | trader _ hvalid _ =>
    rw [isUuidShape_of_isValidUUID hvalid] at hshape
    cases hshape
  | chat hallowed => exact .inr (.inr (.inr ⟨_, rfl, hallowed⟩))

theorem head_priceRoom (instrument : String) : (priceRoom instrument).toList[0]? = some 'p' :=
  getElem?_append_text instrument (by decide)

theorem head_chatRoom (id : ℕ) : (chatRoom id).toList[0]? = some 'c' := getElem?_append_text (Nat.repr id) (by decide)

theorem ne_of_head {room' : String} (hhead : room.toList[0]? ≠ room'.toList[0]?) : room ≠ room' :=
  fun heq => hhead (congrArg (fun text => text.toList[0]?) heq)

theorem Permitted.isAdmin (hpermitted : Permitted data seen adminRoom) : data.isAdmin = true := by
  rcases hpermitted.of_shared isUuidShape_adminRoom with hprices | ⟨instrument, hprice⟩ | hadmin | ⟨id, hchat, -⟩
  · exact absurd hprices (by decide)
  · refine absurd hprice (ne_of_head ?_)
    rw [head_priceRoom]
    decide
  · exact hadmin.1
  · refine absurd hchat (ne_of_head ?_)
    rw [head_chatRoom]
    decide

theorem granted_of_allows {id : ℕ} {db : SocketDb} (hdb : db ∈ seen)
    (hallows : (RoomQuery.chat id).allows data db = true) : Granted data seen id := by
  rw [RoomQuery.allows, Option.any_eq_true] at hallows
  obtain ⟨owner, howner, hmay⟩ := hallows
  rw [Bool.or_eq_true, decide_eq_true_eq] at hmay
  exact ⟨db, hdb, owner, howner, hmay⟩

theorem Permitted.granted {id : ℕ} (hpermitted : Permitted data seen (chatRoom id)) : Granted data seen id := by
  rcases hpermitted.of_shared (isUuidShape_chatRoom id) with
    hprices | ⟨instrument, hprice⟩ | hadmin | ⟨id', hchat, hallowed⟩
  · refine absurd hprices (ne_of_head ?_)
    rw [head_chatRoom]
    decide
  · refine absurd hprice (ne_of_head ?_)
    rw [head_priceRoom, head_chatRoom]
    decide
  · refine absurd hadmin.2 (ne_of_head ?_)
    rw [head_chatRoom]
    decide
  · obtain rfl := chatRoom_injective hchat
    obtain ⟨db, hdb, hallows⟩ := hallowed
    exact granted_of_allows hdb hallows

end

def RoomQuery.Askable (data : SocketData) : RoomQuery → Prop
  | .account userId => data.isAdmin = true ∧ isValidUUID userId = true
  | .chat _ => True

structure Confined (data : SocketData) (seen : List SocketDb) (s : SocketState) : Prop where
  db : s.db ∈ seen
  rooms : ∀ room ∈ s.socket.rooms, Permitted data seen room
  asked : ∀ join ∈ s.pending, join.query.Askable data
  answered : ∀ join ∈ s.pending, join.answer = some true → Permitted data seen join.query.room
  typed : ∀ room isTyping isAdmin userId, SocketEmit.userTyping room isTyping isAdmin userId ∈ s.emitted →
    Permitted data seen room

section

variable {cfg : SocketConfig} {t : SocketTiming} {data : SocketData} {seen : List SocketDb} {s s' : SocketState}
  {event : SocketEvent} {room : String} {query : RoomQuery}

theorem permitted_of_allows {db : SocketDb} (hasked : query.Askable data) (hdb : db ∈ seen)
    (hallows : query.allows data db = true) : Permitted data seen query.room := by
  cases query with
  | account userId => exact .trader hasked.1 hasked.2 ⟨db, hdb, hallows⟩
  | chat id => exact .chat ⟨db, hdb, hallows⟩

namespace Confined

theorem connected {db : SocketDb} (hdb : db ∈ seen) (now firstDelay id : ℕ) :
    Confined data seen (.connected data now db firstDelay id) where
  db := hdb
  rooms room hroom := by
    rcases Finset.mem_union.mp hroom with hown | hadmin
    · cases huser : data.userId with
      | none =>
        rw [huser] at hown
        cases Finset.notMem_empty room hown
      | some userId =>
        rw [huser] at hown
        rcases Finset.mem_insert.mp hown with rfl | hall
        · exact .own huser
        · obtain rfl := Finset.mem_singleton.mp hall
          exact .allPrices
    · split at hadmin
      · next hisAdmin =>
        obtain rfl := Finset.mem_singleton.mp hadmin
        exact .admin hisAdmin
      · cases Finset.notMem_empty room hadmin
  asked _ hjoin := absurd hjoin List.not_mem_nil
  answered _ hjoin := absurd hjoin List.not_mem_nil
  typed _ _ _ _ hmem := absurd hmem List.not_mem_nil

theorem withRooms (hconfined : Confined data seen s) {socket : FanoutSocket}
    (hrooms : ∀ room ∈ socket.rooms, Permitted data seen room) : Confined data seen { s with socket := socket } :=
  ⟨hconfined.db, hrooms, hconfined.asked, hconfined.answered, hconfined.typed⟩

theorem join (hconfined : Confined data seen s) (hroom : Permitted data seen room) :
    Confined data seen (s.join room) := by
  refine hconfined.withRooms fun room' hroom' => ?_
  rcases Finset.mem_insert.mp hroom' with rfl | hmem
  · exact hroom
  · exact hconfined.rooms room' hmem

theorem leave (hconfined : Confined data seen s) (room : String) : Confined data seen (s.leave room) :=
  hconfined.withRooms fun room' hroom' => hconfined.rooms room' (Finset.mem_of_mem_erase hroom')

theorem emit (hconfined : Confined data seen s) {message : SocketEmit}
    (hmessage : ∀ room isTyping isAdmin userId, message = .userTyping room isTyping isAdmin userId →
      Permitted data seen room) : Confined data seen (s.emit message) := by
  refine ⟨hconfined.db, hconfined.rooms, hconfined.asked, hconfined.answered, ?_⟩
  intro room isTyping isAdmin userId hmem
  rcases List.mem_append.mp hmem with hold | hnew
  · exact hconfined.typed room isTyping isAdmin userId hold
  · exact hmessage room isTyping isAdmin userId (List.mem_singleton.mp hnew).symm

theorem authError (hconfined : Confined data seen s) (error : String) :
    Confined data seen (s.emit (.authError error)) :=
  hconfined.emit fun _ _ _ _ heq => SocketEmit.noConfusion heq

theorem withPending (hconfined : Confined data seen s) {pending : List PendingJoin}
    (hasked : ∀ join ∈ pending, join.query.Askable data)
    (hanswered : ∀ join ∈ pending, join.answer = some true → Permitted data seen join.query.room) :
    Confined data seen { s with pending := pending } :=
  ⟨hconfined.db, hconfined.rooms, hasked, hanswered, hconfined.typed⟩

theorem ask (hconfined : Confined data seen s) (hquery : query.Askable data) : Confined data seen (s.ask query) := by
  refine hconfined.withPending (fun join hjoin => ?_) fun join hjoin hanswer => ?_
  · rcases List.mem_append.mp hjoin with hold | hnew
    · exact hconfined.asked join hold
    · obtain rfl := List.mem_singleton.mp hnew
      exact hquery
  · rcases List.mem_append.mp hjoin with hold | hnew
    · exact hconfined.answered join hold hanswer
    · obtain rfl := List.mem_singleton.mp hnew
      cases hanswer

theorem eraseIdx (hconfined : Confined data seen s) (i : ℕ) :
    Confined data seen { s with pending := s.pending.eraseIdx i } :=
  hconfined.withPending (fun join hjoin => hconfined.asked join (List.mem_of_mem_eraseIdx hjoin))
    fun join hjoin => hconfined.answered join (List.mem_of_mem_eraseIdx hjoin)

theorem subscribeInstruments (hconfined : Confined data seen s) (instruments : Option (List String)) :
    Confined data seen (subscribeInstruments cfg s instruments) := by
  refine emit (hconfined.withRooms fun room hroom => ?_) fun _ _ _ _ heq => SocketEmit.noConfusion heq
  rcases FanoutSocket.mem_rooms_setSocketSubscriptions hroom with hkept | rfl | ⟨instrument, rfl⟩
  · exact hconfined.rooms room hkept
  · exact .allPrices
  · exact .price instrument

theorem joinAccount (hconfined : Confined data seen s) (userId : String) :
    Confined data seen (joinAccount data s userId) := by
  simp only [PropFirm.joinAccount]
  split
  · exact hconfined
  split
  · next hadmin =>
    split
    · next hroom =>
      rw [hroom]
      exact hconfined.join (.admin hadmin)
    split
    · next hvalid => exact hconfined.ask ⟨hadmin, hvalid⟩
    · exact hconfined.authError _
  split
  · next huser => exact hconfined.join (.own huser)
  · exact hconfined.authError _

theorem joinChat (hconfined : Confined data seen s) (conversationId : String) :
    Confined data seen (joinChat data s conversationId) := by
  unfold PropFirm.joinChat
  split
  · exact hconfined.authError _
  split
  · exact hconfined.ask trivial
  · exact hconfined.authError _

theorem leaveChat (hconfined : Confined data seen s) (conversationId : String) :
    Confined data seen (leaveChat s conversationId) := by
  unfold PropFirm.leaveChat
  split
  · exact hconfined
  · exact hconfined.leave _

theorem typingStart (hconfined : Confined data seen s) (conversationId : String) (isTyping : Bool) :
    Confined data seen (typingStart data s conversationId isTyping) := by
  unfold PropFirm.typingStart
  split
  · exact hconfined
  split
  · next hroom =>
    refine hconfined.emit fun room _ _ _ heq => ?_
    obtain ⟨rfl, -⟩ := SocketEmit.userTyping.inj heq
    exact hconfined.rooms _ hroom
  · exact hconfined

theorem answerJoin (hconfined : Confined data seen s) {allowed : Bool}
    (hallowed : allowed = true → Permitted data seen query.room) :
    Confined data seen (answerJoin s query allowed) := by
  unfold PropFirm.answerJoin
  split
  · next htrue => exact hconfined.join (hallowed htrue)
  · exact hconfined.authError _

theorem ofOpen {next : SocketState} (hnext : Confined data seen next)
    (hstep : (if s.watch.closed then none else some next) = some s') : Confined data seen s' := by
  split at hstep
  · cases hstep
  · obtain rfl := Option.some.inj hstep
    exact hnext

theorem step (hconfined : Confined data seen s) (hchange : ∀ db, event = .watch (.change db) → db ∈ seen)
    (hstep : socketStep cfg t data s event = some s') : Confined data seen s' := by
  cases event with
  | watch event =>
    obtain ⟨watch, hwatch, rfl⟩ := Option.map_eq_some_iff.mp hstep
    have hdb : watch.env ∈ seen := Watchdog.env_of_change (p := fun db => db ∈ seen) hconfined.db
      (fun db hevent => hchange db (congrArg SocketEvent.watch hevent)) hwatch
    exact ⟨hdb, hconfined.rooms, hconfined.asked, hconfined.answered, hconfined.typed⟩
  | subscribeInstruments instruments => exact ofOpen (hconfined.subscribeInstruments instruments) hstep
  | joinAccount userId => exact ofOpen (hconfined.joinAccount userId) hstep
  | joinChat conversationId => exact ofOpen (hconfined.joinChat conversationId) hstep
  | leaveChat conversationId => exact ofOpen (hconfined.leaveChat conversationId) hstep
  | typing conversationId isTyping => exact ofOpen (hconfined.typingStart conversationId isTyping) hstep
  | look i =>
    obtain ⟨join, hjoin, hstep⟩ := Option.bind_eq_some_iff.mp hstep
    have hasked := hconfined.asked join (List.mem_of_getElem? hjoin)
    split at hstep
    · obtain rfl := Option.some.inj hstep
      have hothers := hconfined.eraseIdx i
      refine hconfined.withPending (fun join' hjoin' => ?_) fun join' hjoin' hanswer => ?_
      · rcases List.mem_append.mp hjoin' with hold | hnew
        · exact hothers.asked join' hold
        · obtain rfl := List.mem_singleton.mp hnew
          exact hasked
      · rcases List.mem_append.mp hjoin' with hold | hnew
        · exact hothers.answered join' hold hanswer
        · obtain rfl := List.mem_singleton.mp hnew
          exact permitted_of_allows hasked hconfined.db (Option.some.inj hanswer)
    · cases hstep
  | answer i =>
    obtain ⟨join, hjoin, hstep⟩ := Option.bind_eq_some_iff.mp hstep
    obtain ⟨allowed, hanswer, rfl⟩ := Option.map_eq_some_iff.mp hstep
    refine (hconfined.eraseIdx i).answerJoin fun htrue => ?_
    rw [htrue] at hanswer
    exact hconfined.answered join (List.mem_of_getElem? hjoin) hanswer
  | fail i =>
    obtain ⟨join, -, rfl⟩ := Option.map_eq_some_iff.mp hstep
    exact (hconfined.eraseIdx i).authError _

end Confined

def SocketEvent.watch? : SocketEvent → Option (Watchdog.Event SocketDb)
  | .watch event => some event
  | _ => none

def SocketEvent.change? : SocketEvent → Option SocketDb
  | .watch (.change db) => some db
  | _ => none

/-- The databases that a run has lived through. -/
def seenDbs (db : SocketDb) (events : List SocketEvent) : List SocketDb := db :: events.filterMap SocketEvent.change?

/-- A trader hears only of the own rooms and of conversations that were the trader's when asked; an admin hears
of traders and conversations that there were. -/
theorem socket_confined {db : SocketDb} {now firstDelay id : ℕ} {events : List SocketEvent}
    (hrun : run (socketStep cfg t data) (.connected data now db firstDelay id) events = some s) :
    (∀ userId, isUuidShape userId = true → s.Delivers userId →
      data.userId = some userId ∨ data.isAdmin = true ∧ ∃ db' ∈ seenDbs db events, (db'.users userId).isSome = true) ∧
    (s.Delivers adminRoom → data.isAdmin = true) ∧
    (∀ conversationId, s.Delivers (chatRoom conversationId) → Granted data (seenDbs db events) conversationId) ∧
    ∀ conversationId isTyping isAdmin userId,
      SocketEmit.userTyping (chatRoom conversationId) isTyping isAdmin userId ∈ s.emitted →
        Granted data (seenDbs db events) conversationId := by
  let ok (_ : SocketState) (event : SocketEvent) : Prop :=
    ∀ db', event = .watch (.change db') → db' ∈ seenDbs db events
  have hok : RunOk (socketStep cfg t data) ok (.connected data now db firstDelay id) events := by
    refine RunOk.of_forall fun event hevent _ db' heq => List.mem_cons_of_mem db ?_
    exact List.mem_filterMap.mpr ⟨event, hevent, by rw [heq]; rfl⟩
  have hconfined := run_invariant (Confined data (seenDbs db events))
    (fun _ _ _ hconfined hchange hstep => hconfined.step hchange hstep)
    (Confined.connected List.mem_cons_self now firstDelay id) hok hrun
  refine ⟨fun userId hshape hdelivers => ?_, fun hdelivers => ?_, fun conversationId hdelivers => ?_,
    fun conversationId isTyping isAdmin userId hmem => ?_⟩
  · exact (hconfined.rooms userId hdelivers.2).of_uuid hshape
  · exact (hconfined.rooms adminRoom hdelivers.2).isAdmin
  · exact (hconfined.rooms _ hdelivers.2).granted
  · exact (hconfined.typed _ _ _ _ hmem).granted

/-- A trader joins the room of conversation 7, and is not let into another trader's. -/
theorem socket_confined_ownChat : ∃ (data : SocketData) (db : SocketDb) (s : SocketState),
    run (socketStep ⟨⟨250, id⟩, id⟩ ⟨50, 200⟩ data) (.connected data 0 db 1000 1)
      [.joinChat "7", .joinAccount "9b2e", .look 0, .answer 0] = some s ∧
      s.emitted = [.authError "Unauthorized room join"] ∧ s.Delivers (chatRoom 7) ∧
        Granted data [db] 7 := by
  let trader : String := "5f0c7d2e-1a3b-4c5d-8e9f-0a1b2c3d4e5f"
  let data : SocketData := ⟨some trader, some 1, false, none, none, by decide +kernel⟩
  let db : SocketDb := ⟨fun _ => none, none, fun _ => none, fun id => if id = 7 then some trader else none⟩
  obtain ⟨s, hrun, htest⟩ := exists_of_run_any (socketStep ⟨⟨250, id⟩, id⟩ ⟨50, 200⟩ data)
    (.connected data 0 db 1000 1) [.joinChat "7", .joinAccount "9b2e", .look 0, .answer 0]
    (fun s => decide (s.emitted = [.authError "Unauthorized room join"] ∧ s.watch.closed = false ∧
      chatRoom 7 ∈ s.socket.rooms)) (by decide +kernel)
  obtain ⟨hemitted, hdelivers⟩ := of_decide_eq_true htest
  exact ⟨data, db, s, hrun, hemitted, hdelivers, (socket_confined hrun).2.2.1 7 hdelivers⟩

/-! ### How long a revoked session lasts -/

theorem watch_joinAccount (userId : String) : (joinAccount data s userId).watch = s.watch := by
  simp only [joinAccount]
  repeat' split
  all_goals rfl

theorem watch_joinChat (conversationId : String) : (joinChat data s conversationId).watch = s.watch := by
  unfold joinChat
  split
  · rfl
  split
  · rfl
  · rfl

theorem watch_leaveChat (conversationId : String) : (leaveChat s conversationId).watch = s.watch := by
  unfold leaveChat
  split
  · rfl
  · rfl

theorem watch_typingStart (conversationId : String) (isTyping : Bool) :
    (typingStart data s conversationId isTyping).watch = s.watch := by
  unfold typingStart
  split
  · rfl
  split
  · rfl
  · rfl

theorem watch_answerJoin (query : RoomQuery) (allowed : Bool) : (answerJoin s query allowed).watch = s.watch := by
  unfold answerJoin
  split
  · rfl
  · rfl

theorem watch_ofOpen {next : SocketState} (hnext : next.watch = s.watch)
    (hstep : (if s.watch.closed then none else some next) = some s') : s'.watch = s.watch := by
  split at hstep
  · cases hstep
  · obtain rfl := Option.some.inj hstep
    exact hnext

/-- Whatever the client does, clock, database and checks go their way. -/
theorem watch_step (hstep : socketStep cfg t data s event = some s') :
    (∃ watched, event = .watch watched ∧ Watchdog.step (revalidation t data) s.watch watched = some s'.watch) ∨
      event.watch? = none ∧ s'.watch = s.watch := by
  cases event with
  | watch watched =>
    obtain ⟨watch, hwatch, rfl⟩ := Option.map_eq_some_iff.mp hstep
    exact .inl ⟨watched, rfl, hwatch⟩
  | subscribeInstruments instruments =>
    have hsame : (subscribeInstruments cfg s instruments).watch = s.watch := rfl
    exact .inr ⟨rfl, watch_ofOpen hsame hstep⟩
  | joinAccount userId => exact .inr ⟨rfl, watch_ofOpen (watch_joinAccount userId) hstep⟩
  | joinChat conversationId => exact .inr ⟨rfl, watch_ofOpen (watch_joinChat conversationId) hstep⟩
  | leaveChat conversationId => exact .inr ⟨rfl, watch_ofOpen (watch_leaveChat conversationId) hstep⟩
  | typing conversationId isTyping =>
    exact .inr ⟨rfl, watch_ofOpen (watch_typingStart conversationId isTyping) hstep⟩
  | look i =>
    obtain ⟨join, -, hstep⟩ := Option.bind_eq_some_iff.mp hstep
    split at hstep
    · obtain rfl := Option.some.inj hstep
      exact .inr ⟨rfl, rfl⟩
    · cases hstep
  | answer i =>
    obtain ⟨join, -, hstep⟩ := Option.bind_eq_some_iff.mp hstep
    obtain ⟨allowed, -, rfl⟩ := Option.map_eq_some_iff.mp hstep
    exact .inr ⟨rfl, watch_answerJoin join.query allowed⟩
  | fail i =>
    obtain ⟨join, -, rfl⟩ := Option.map_eq_some_iff.mp hstep
    exact .inr ⟨rfl, rfl⟩

theorem run_watch {events : List SocketEvent} (hrun : run (socketStep cfg t data) s events = some s') :
    run (Watchdog.step (revalidation t data)) s.watch (events.filterMap SocketEvent.watch?) = some s'.watch := by
  induction events generalizing s with
  | nil =>
    obtain rfl := Option.some.inj hrun
    rfl
  | cons event events ih =>
    obtain ⟨next, hstep, hrest⟩ := Option.bind_eq_some_iff.mp hrun
    have hrest := ih hrest
    rcases watch_step hstep with ⟨watched, rfl, hwatched⟩ | ⟨hother, hsame⟩
    · exact Option.bind_eq_some_iff.mpr ⟨next.watch, hwatched, hrest⟩
    · rw [List.filterMap_cons_none hother, ← hsame]
      exact hrest

theorem mem_watched {watched : Watchdog.Event SocketDb} {events : List SocketEvent} :
    watched ∈ events.filterMap SocketEvent.watch? ↔ .watch watched ∈ events := by
  rw [List.mem_filterMap]
  constructor
  · rintro ⟨event, hevent, hwatch⟩
    cases event with
    | watch other =>
      obtain rfl := Option.some.inj hwatch
      exact hevent
    | _ => cases hwatch
  · intro hmem
    exact ⟨_, hmem, rfl⟩

/-- A session that is revoked for good is cut within the window, the lag and the time of three queries, as
long as the checks can be made; one that never is revoked is not cut. -/
theorem session_watched {db : SocketDb} {now firstDelay id : ℕ} {before after : List SocketEvent}
    (hdelay : firstDelay < sessionRevalidateMs)
    (hbefore : run (socketStep cfg t data) (.connected data now db firstDelay id) before = some s)
    (hafter : run (socketStep cfg t data) s after = some s') :
    (∀ check ∈ data.checks, (check s.db).isOk = false →
      (∀ db', .watch (.change db') ∈ after → (check db').isOk = false) → (∀ i, .watch (.fail i) ∉ after) →
      s.watch.now + sessionRevalidateMs + t.lag + 3 * t.latency < s'.watch.now → ∀ room, ¬ s'.Delivers room) ∧
    ((∀ check ∈ data.checks, ∀ db' ∈ seenDbs db (before ++ after), (check db').isOk = true) →
      .watch .leave ∉ before ++ after → s'.watch.closed = false) := by
  have hdue : firstDelay ≤ (revalidation t data).period := Nat.le_of_lt hdelay
  constructor
  · intro check hcheck hrevoked hstays hread hlate room hdelivers
    have hontime : Watchdog.OnTime (revalidation t data) s.watch :=
      (Watchdog.onTime_opened now db hdue).run (run_watch hbefore)
    obtain ⟨k, hk, rfl⟩ := List.mem_iff_getElem.mp hcheck
    have hprobe : (revalidation t data).probes[k]? = some fun db => !(data.checks[k] db).isOk := by
      show (data.checks.map fun check db => !(check db).isOk)[k]? = _
      rw [List.getElem?_map, List.getElem?_eq_getElem hk]
      rfl
    have hbad {db' : SocketDb} (hnot : (data.checks[k] db').isOk = false) : (!(data.checks[k] db').isOk) = true := by
      rw [hnot]
      rfl
    have hchange : ∀ db', .change db' ∈ after.filterMap SocketEvent.watch? → (!(data.checks[k] db').isOk) = true :=
      fun db' hmem => hbad (hstays db' (mem_watched.mp hmem))
    have hnofail : ∀ i, .fail i ∉ after.filterMap SocketEvent.watch? := fun i hmem => hread i (mem_watched.mp hmem)
    have hqueries : (k + 1) * t.latency ≤ 3 * t.latency :=
      Nat.mul_le_mul_right t.latency (hk.trans_le data.length_checks)
    have htime : s.watch.now + (revalidation t data).period + (revalidation t data).lag +
        (k + 1) * (revalidation t data).latency < s'.watch.now := by
      show s.watch.now + sessionRevalidateMs + t.lag + (k + 1) * t.latency < s'.watch.now
      omega
    have hclosed := Watchdog.closed_of_bad hontime hprobe (hbad hrevoked) hchange hnofail (run_watch hafter) htime
    rw [hdelivers.1] at hclosed
    cases hclosed
  · intro hvalid hleave
    have hrun : run (socketStep cfg t data) (.connected data now db firstDelay id) (before ++ after) = some s' := by
      rw [run_append, hbefore]
      exact hafter
    have hgood {db' : SocketDb} (hseen : db' ∈ seenDbs db (before ++ after)) :
        ∀ probe ∈ (revalidation t data).probes, probe db' = false := by
      intro probe hprobe
      obtain ⟨check, hcheck, rfl⟩ := List.mem_map.mp hprobe
      show (!(check db').isOk) = false
      rw [hvalid check hcheck db' hseen]
      rfl
    refine Watchdog.open_of_good (Watchdog.calm_opened now db firstDelay) (hgood List.mem_cons_self) ?_ ?_
      (run_watch hrun)
    · intro db' hmem
      refine hgood (List.mem_cons_of_mem db (List.mem_filterMap.mpr ?_))
      exact ⟨_, mem_watched.mp hmem, rfl⟩
    · exact fun hmem => hleave (mem_watched.mp hmem)

/-- A trader is banned right after a check was due; the next one, a window later, cuts the socket. -/
theorem session_watched_banned : ∃ (data : SocketData) (db : SocketDb) (s s' : SocketState),
    run (socketStep ⟨⟨250, id⟩, id⟩ ⟨50, 200⟩ data) (.connected data 0 db 1000 1)
      [.watch (.elapse 1000), .watch .fire, .watch (.look 0), .watch (.answer 0), .watch (.change
        ⟨fun _ => some ⟨1, true⟩, none, fun _ => none, fun _ => none⟩)] = some s ∧ s.Delivers allPricesRoom ∧
    run (socketStep ⟨⟨250, id⟩, id⟩ ⟨50, 200⟩ data) s
      [.watch (.elapse 300000), .watch .fire, .watch (.look 0), .watch (.answer 0), .watch (.elapse 1000)] =
        some s' ∧ ∀ room, ¬ s'.Delivers room := by
  let trader : String := "5f0c7d2e-1a3b-4c5d-8e9f-0a1b2c3d4e5f"
  let data : SocketData := ⟨some trader, some 1, false, none, none, by decide +kernel⟩
  let db : SocketDb := ⟨fun _ => some ⟨1, false⟩, none, fun _ => none, fun _ => none⟩
  let banned : SocketDb := ⟨fun _ => some ⟨1, true⟩, none, fun _ => none, fun _ => none⟩
  let step := socketStep ⟨⟨250, id⟩, id⟩ ⟨50, 200⟩ data
  let before : List SocketEvent :=
    [.watch (.elapse 1000), .watch .fire, .watch (.look 0), .watch (.answer 0), .watch (.change banned)]
  let after : List SocketEvent :=
    [.watch (.elapse 300000), .watch .fire, .watch (.look 0), .watch (.answer 0), .watch (.elapse 1000)]
  obtain ⟨s, hbefore, htest⟩ := exists_of_run_any step (.connected data 0 db 1000 1) before
    (fun s => decide (s.watch.now = 1000 ∧ (assertUserSessionValid trader (some 1) s.db).isOk = false ∧
      s.watch.closed = false ∧ allPricesRoom ∈ s.socket.rooms)) (by decide +kernel)
  obtain ⟨hnow, hrevoked, hdelivers⟩ := of_decide_eq_true htest
  obtain ⟨s', hboth, hend⟩ := exists_of_run_any step (.connected data 0 db 1000 1) (before ++ after)
    (fun s => decide (s.watch.now = 302000)) (by decide +kernel)
  have hend : s'.watch.now = 302000 := of_decide_eq_true hend
  rw [run_append, hbefore] at hboth
  have hcheck : assertUserSessionValid trader (some 1) ∈ data.checks := List.mem_singleton_self _
  have hlate : s.watch.now + sessionRevalidateMs + 50 + 3 * 200 < s'.watch.now := by
    rw [hnow, hend]
    decide
  exact ⟨data, db, s, s', hbefore, hdelivers, hboth,
    (session_watched (by decide) hbefore hboth).1 _ hcheck hrevoked (by simp [after]) (by simp [after]) hlate⟩

end

end PropFirm
