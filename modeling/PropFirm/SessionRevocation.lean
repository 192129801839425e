import Mathlib
import PropFirm.Lib.Timeline
import PropFirm.Lib.Transition

/-!
# Revoking a user's sessions

`authenticateToken` checks a token against the user's `token_version` and `is_banned`, which it takes from
two keys in Redis when the first of them is there, and from the database otherwise; what it read there it
writes to both keys. The keys expire each by itself. A password reset, a logout everywhere and a ban change
the row and then call `invalidateTokenCache`, which deletes both keys. The two commands of each of these
run one after the other, with those of other connections between them.

The model is of one user: the row, the keys and the tokens are the user's own.
-/

namespace PropFirm

open Timeline Transition

/-- The columns of `users` that are checked. -/
structure UserTokenStateRow where
  tokenVersion : Option Nat
  isBanned : Option Bool
  deriving DecidableEq

structure TokenData where
  tokenVersion : Nat
  isBanned : Bool
  deriving DecidableEq

namespace UserTokenStateRow

def data (row : UserTokenStateRow) : TokenData := ⟨row.tokenVersion.getD 1, row.isBanned = some true⟩

def version (row : UserTokenStateRow) : Nat := row.data.tokenVersion

def banned (row : UserTokenStateRow) : Bool := row.data.isBanned

end UserTokenStateRow

/-- How far a request has come: which key it has read, whether it has to read the row, and which key it has
written. -/
inductive AuthStage
  | reading
  | gotVersion (version : Option (Reading Nat))
  | missed
  | filled (data : Reading TokenData)
  | versionWritten (data : Reading TokenData)
  | deciding (data : TokenData)

/-- The row that a request is about to write to the keys was read at `moment` or later. -/
def AuthStage.ReadSince (moment : Nat) : AuthStage → Prop
  | .filled data | .versionWritten data => moment ≤ data.time
  | .reading | .gotVersion _ | .missed | .deciding _ => True

def AuthStage.foundVersion : AuthStage → Bool
  | .gotVersion version => version.isSome
  | .reading | .missed | .filled _ | .versionWritten _ | .deciding _ => false

/-- `floor` is the moment at which the last invalidation was called that had returned true when the request
started. -/
structure AuthRequest where
  tv : Option Nat
  floor : Nat
  stage : AuthStage

structure Acceptance where
  tv : Nat
  floor : Nat

/-- An invalidation that has not returned, and the moment it was called at. -/
structure Invalidation where
  since : Nat
  versionDeleted : Bool

/-- The row with its past, the two keys, and the requests and invalidations under way. Of either key
`cleared` is the moment that the latest invalidation to delete it was called at. -/
structure SessionWorld where
  past : List UserTokenStateRow
  row : UserTokenStateRow
  version : Option (Reading Nat)
  banned : Option (Reading Bool)
  versionCleared : Nat
  bannedCleared : Nat
  floor : Nat
  requests : List AuthRequest
  invalidations : List Invalidation
  accepted : List Acceptance

/-- A call fails when Redis does, and does nothing in a process that has no client of it. -/
inductive SessionAction
  | incrementVersion
  | setIsBanned (isBanned : Bool)
  | expireVersion
  | expireBanned
  | start (tv : Option Nat)
  | getVersion (request : Nat)
  | getBanned (request : Nat)
  | cacheUnavailable (request : Nat)
  | readRow (request : Nat)
  | setVersion (request : Nat)
  | setBanned (request : Nat)
  | cacheWriteFails (request : Nat)
  | decide (request : Nat)
  | invalidate
  | deleteVersion (invalidation : Nat)
  | deleteBanned (invalidation : Nat)
  | invalidationFails (invalidation : Nat)
  | invalidateWithoutClient

namespace SessionWorld

def boot (row : UserTokenStateRow) : SessionWorld := ⟨[], row, none, none, 0, 0, 0, [], [], []⟩

def history (w : SessionWorld) : List UserTokenStateRow := w.past ++ [w.row]

def now (w : SessionWorld) : Nat := w.past.length

def writeRow (w : SessionWorld) (row : UserTokenStateRow) : SessionWorld :=
  { w with past := w.past ++ [w.row], row := row }

def moveTo (w : SessionWorld) (k : Nat) (request : AuthRequest) (stage : AuthStage) : SessionWorld :=
  { w with requests := w.requests.set k { request with stage := stage } }

/-- What `getCachedTokenData` makes of the two keys. -/
def cachedStage (version : Option (Reading Nat)) (banned : Option (Reading Bool)) : AuthStage :=
  match version with
  | some version => .deciding ⟨version.value, banned.map Reading.value = some true⟩
  | none => .missed

def accepts (tv : Option Nat) (data : TokenData) : Option Nat :=
  if data.isBanned then none else tv.filter (data.tokenVersion ≤ ·)

def step (w : SessionWorld) : SessionAction → Option SessionWorld
  | .incrementVersion => some (w.writeRow { w.row with tokenVersion := some (w.row.version + 1) })
  | .setIsBanned isBanned => some (w.writeRow { w.row with isBanned := some isBanned })
  | .expireVersion => some { w with version := none }
  | .expireBanned => some { w with banned := none }
  | .start tv => some { w with requests := w.requests ++ [⟨tv, w.floor, .reading⟩] }
  | .getVersion k => w.requests[k]?.bind fun r => match r.stage with
    | .reading => some (w.moveTo k r (.gotVersion w.version))
    | _ => none
  | .getBanned k => w.requests[k]?.bind fun r => match r.stage with
    | .gotVersion version => some (w.moveTo k r (cachedStage version w.banned))
    | _ => none
  | .cacheUnavailable k => w.requests[k]?.bind fun r => match r.stage with
    | .reading | .gotVersion _ => some (w.moveTo k r .missed)
    | _ => none
  | .readRow k => w.requests[k]?.bind fun r => match r.stage with
    | .missed => some (w.moveTo k r (.filled ⟨w.row.data, w.now⟩))
    | _ => none
  | .setVersion k => w.requests[k]?.bind fun r => match r.stage with
    | .filled data =>
      let version := some ⟨data.value.tokenVersion, data.time⟩
      some ({ w with version := version }.moveTo k r (.versionWritten data))
    | _ => none
  | .setBanned k => w.requests[k]?.bind fun r => match r.stage with
    | .versionWritten data =>
      let banned := some ⟨data.value.isBanned, data.time⟩
      some ({ w with banned := banned }.moveTo k r (.deciding data.value))
    | _ => none
  | .cacheWriteFails k => w.requests[k]?.bind fun r => match r.stage with
    | .filled data | .versionWritten data => some (w.moveTo k r (.deciding data.value))
    | _ => none
  | .decide k => w.requests[k]?.bind fun r => match r.stage with
    | .deciding data => some { w with
        requests := w.requests.eraseIdx k
        accepted := (accepts r.tv data).toList.map (⟨·, r.floor⟩) ++ w.accepted }
    | _ => none
  | .invalidate => some { w with invalidations := w.invalidations ++ [⟨w.now, false⟩] }
  | .deleteVersion j => (w.invalidations[j]?.filter fun i => !i.versionDeleted).map fun i => { w with
      version := none
      versionCleared := max w.versionCleared i.since
      invalidations := w.invalidations.set j { i with versionDeleted := true } }
  | .deleteBanned j => (w.invalidations[j]?.filter fun i => i.versionDeleted).map fun i => { w with
      banned := none
      bannedCleared := max w.bannedCleared i.since
      floor := max w.floor i.since
      invalidations := w.invalidations.eraseIdx j }
  | .invalidationFails j => some { w with invalidations := w.invalidations.eraseIdx j }
  | .invalidateWithoutClient =>
    some { w with versionCleared := w.now, bannedCleared := w.now, floor := w.now }

/-- The token has at least the version of the row when the last invalidation known to have succeeded was
called, and the user was not banned all the time since then. -/
structure Rightful (history : List UserTokenStateRow) (a : Acceptance) : Prop where
  version : ∀ row ∈ history[a.floor]?, row.version ≤ a.tv
  notBanned : Since history a.floor fun row => row.banned = false

def Effective (w : SessionWorld) : Prop := ∀ a ∈ w.accepted, Rightful w.history a

/-- A key is written with data read since the last invalidation that deleted it was called; a request that
finds the version finds the ban too, if the user was banned all the time since its floor; and an
invalidation without a client finds no key that holds older data than the row. -/
def KeepsRevocation (w : SessionWorld) : SessionAction → Prop
  | .setVersion k => ∀ r ∈ w.requests[k]?, r.stage.ReadSince w.versionCleared
  | .setBanned k => ∀ r ∈ w.requests[k]?, r.stage.ReadSince w.bannedCleared
  | .getBanned k => w.banned = none → ∀ r ∈ w.requests[k]?, r.stage.foundVersion = true →
      Since w.history r.floor fun row => row.banned = false
  | .invalidateWithoutClient => (∀ r ∈ w.version, w.now ≤ r.time) ∧ ∀ r ∈ w.banned, w.now ≤ r.time
  | .incrementVersion | .setIsBanned _ | .expireVersion | .expireBanned | .start _ | .getVersion _
  | .cacheUnavailable _ | .readRow _ | .cacheWriteFails _ | .decide _ | .invalidate | .deleteVersion _
  | .deleteBanned _ | .invalidationFails _ => True

variable {w w' : SessionWorld} {k : Nat} {request : AuthRequest} {stage : AuthStage}

/-! ### What a request holds -/

/-- What a request has read is no older than its floor. -/
def Backed (history : List UserTokenStateRow) (floor : Nat) : AuthStage → Prop
  | .reading | .missed => True
  | .gotVersion version => ∀ r ∈ version, r.Of UserTokenStateRow.version history floor
  | .filled data | .versionWritten data => data.Of UserTokenStateRow.data history floor
  | .deciding data => Since history floor (fun row => row.version = data.tokenVersion) ∧
      (data.isBanned = false → Since history floor fun row => row.banned = false)

theorem Backed.append {history : List UserTokenStateRow} {floor : Nat}
    (hbacked : Backed history floor stage) (row : UserTokenStateRow) :
    Backed (history ++ [row]) floor stage := by
  cases stage with
  | reading => trivial
  | missed => trivial
  | gotVersion version => exact fun r hr => (hbacked r hr).append row
  | filled data => exact Reading.Of.append hbacked row
  | versionWritten data => exact Reading.Of.append hbacked row
  | deciding data => exact ⟨hbacked.1.append row, fun hfree => (hbacked.2 hfree).append row⟩

/-- Data read from the row is decided on as it is. -/
theorem backed_deciding {history : List UserTokenStateRow} {floor : Nat} {data : Reading TokenData}
    (hof : data.Of UserTokenStateRow.data history floor) :
    Backed history floor (.deciding data.value) := by
  refine ⟨(hof.map TokenData.tokenVersion).since, fun hfree => ?_⟩
  obtain ⟨row, hrow, hbanned⟩ := (hof.map TokenData.isBanned).since
  exact ⟨row, hrow, hbanned.trans hfree⟩

/-- The keys, when the ban is there or the user was free at some moment. -/
theorem backed_cachedStage {history : List UserTokenStateRow} {floor bannedFloor : Nat}
    {version : Option (Reading Nat)} {banned : Option (Reading Bool)} (hle : floor ≤ bannedFloor)
    (hversion : ∀ r ∈ version, r.Of UserTokenStateRow.version history floor)
    (hbanned : ∀ r ∈ banned, r.Of UserTokenStateRow.banned history bannedFloor)
    (hmissing : banned = none → ∀ r, version = some r →
      Since history floor fun row => row.banned = false) :
    Backed history floor (cachedStage version banned) := by
  cases version with
  | none => trivial
  | some v =>
    refine ⟨(hversion v rfl).since, fun hfree => ?_⟩
    cases banned with
    | none => exact hmissing rfl v rfl
    | some b =>
      obtain ⟨row, hrow, hb⟩ := ((hbanned b rfl).lower hle).since
      refine ⟨row, hrow, hb.trans ?_⟩
      cases hvalue : b.value with
      | false => rfl
      | true => simp [hvalue] at hfree

theorem rightful_of_accepts {history : List UserTokenStateRow} {floor tv : Nat} {data : TokenData}
    (hordered : history.Pairwise fun row row' => row.version ≤ row'.version)
    (hbacked : Backed history floor (.deciding data)) (haccepts : accepts request.tv data = some tv) :
    Rightful history ⟨tv, floor⟩ := by
  rw [accepts] at haccepts
  split at haccepts
  · cases haccepts
  · rename_i hfree
    have hle : data.tokenVersion ≤ tv := of_decide_eq_true (Option.filter_eq_some_iff.mp haccepts).2
    exact ⟨fun row hrow => (hbacked.1.le_of_ordered hordered row hrow).trans hle,
      hbacked.2 (Bool.eq_false_of_not_eq_true hfree)⟩

/-! ### What every step keeps -/

structure Sound (w : SessionWorld) : Prop where
  ordered : w.history.Pairwise fun row row' => row.version ≤ row'.version
  floorVersion : w.floor ≤ w.versionCleared
  floorBanned : w.floor ≤ w.bannedCleared
  versionNow : w.versionCleared ≤ w.now
  bannedNow : w.bannedCleared ≤ w.now
  version : ∀ r ∈ w.version, r.Of UserTokenStateRow.version w.history w.versionCleared
  banned : ∀ r ∈ w.banned, r.Of UserTokenStateRow.banned w.history w.bannedCleared
  requests : ∀ r ∈ w.requests, r.floor ≤ w.floor ∧ Backed w.history r.floor r.stage
  invalidations : ∀ i ∈ w.invalidations,
    i.since ≤ w.now ∧ (i.versionDeleted = true → i.since ≤ w.versionCleared)
  accepted : w.Effective

theorem Rightful.append {history : List UserTokenStateRow} {a : Acceptance}
    (hrightful : Rightful history a) (hfloor : a.floor < history.length) (row : UserTokenStateRow) :
    Rightful (history ++ [row]) a where
  version := by
    rw [List.getElem?_append_left hfloor]
    exact hrightful.version
  notBanned := hrightful.notBanned.append row

/-- A moment since which something was seen is one of the history. -/
theorem Rightful.floor_lt {history : List UserTokenStateRow} {a : Acceptance}
    (hrightful : Rightful history a) : a.floor < history.length := by
  obtain ⟨row, hrow, _⟩ := hrightful.notBanned
  by_contra hge
  rw [List.drop_eq_nil_of_le (Nat.le_of_not_lt hge)] at hrow
  cases hrow

theorem Sound.writeRow (hsound : w.Sound) (row : UserTokenStateRow) (hge : w.row.version ≤ row.version) :
    (w.writeRow row).Sound where
  ordered := by
    refine List.pairwise_append.mpr
      ⟨hsound.ordered, List.pairwise_singleton _ _, fun old hold new hnew => ?_⟩
    rw [List.mem_singleton.mp hnew]
    rcases List.mem_append.mp hold with hpast | hlast
    · have hlast := (List.pairwise_append.mp hsound.ordered).2.2 old hpast w.row List.mem_cons_self
      exact hlast.trans hge
    · exact List.mem_singleton.mp hlast ▸ hge
  floorVersion := hsound.floorVersion
  floorBanned := hsound.floorBanned
  versionNow := hsound.versionNow.trans (by simp [now, SessionWorld.writeRow])
  bannedNow := hsound.bannedNow.trans (by simp [now, SessionWorld.writeRow])
  version r hr := (hsound.version r hr).append row
  banned r hr := (hsound.banned r hr).append row
  requests r hr := ⟨(hsound.requests r hr).1, (hsound.requests r hr).2.append row⟩
  invalidations i hi := ⟨(hsound.invalidations i hi).1.trans (by simp [now, SessionWorld.writeRow]),
    (hsound.invalidations i hi).2⟩
  accepted a ha := (hsound.accepted a ha).append (hsound.accepted a ha).floor_lt row

theorem Sound.moveTo (hsound : w.Sound) (hat : w.requests[k]? = some request)
    (hbacked : Backed w.history request.floor stage) : (w.moveTo k request stage).Sound :=
  { hsound with
    requests := by
      intro r hr
      rcases List.mem_or_eq_of_mem_set hr with hold | rfl
      · exact hsound.requests r hold
      · exact ⟨(hsound.requests request (List.mem_of_getElem? hat)).1, hbacked⟩ }

theorem Sound.withVersion (hsound : w.Sound) {version : Option (Reading Nat)}
    (hversion : ∀ r ∈ version, r.Of UserTokenStateRow.version w.history w.versionCleared) :
    Sound { w with version := version } :=
  { hsound with version := hversion }

theorem Sound.withBanned (hsound : w.Sound) {banned : Option (Reading Bool)}
    (hbanned : ∀ r ∈ banned, r.Of UserTokenStateRow.banned w.history w.bannedCleared) :
    Sound { w with banned := banned } :=
  { hsound with banned := hbanned }

theorem Sound.backed (hsound : w.Sound) (hat : w.requests[k]? = some request) :
    Backed w.history request.floor request.stage :=
  (hsound.requests request (List.mem_of_getElem? hat)).2

theorem Sound.floor_le_now (hsound : w.Sound) (hat : w.requests[k]? = some request) :
    request.floor ≤ w.now :=
  ((hsound.requests request (List.mem_of_getElem? hat)).1.trans hsound.floorVersion).trans
    hsound.versionNow

theorem Sound.decide (hsound : w.Sound) {data : TokenData}
    (hbacked : Backed w.history request.floor (.deciding data)) :
    Sound { w with
      requests := w.requests.eraseIdx k
      accepted := (accepts request.tv data).toList.map (⟨·, request.floor⟩) ++ w.accepted } :=
  { hsound with
    requests := fun r hr => hsound.requests r (List.mem_of_mem_eraseIdx hr)
    accepted := by
      intro a ha
      rcases List.mem_append.mp ha with hnew | hold
      · obtain ⟨tv, htv, rfl⟩ := List.mem_map.mp hnew
        exact rightful_of_accepts hsound.ordered hbacked (Option.mem_toList.mp htv)
      · exact hsound.accepted a hold }

theorem Sound.deleteVersion (hsound : w.Sound) {j : Nat} {i : Invalidation}
    (hat : w.invalidations[j]? = some i) :
    Sound { w with
      version := none
      versionCleared := max w.versionCleared i.since
      invalidations := w.invalidations.set j { i with versionDeleted := true } } :=
  have hi := hsound.invalidations i (List.mem_of_getElem? hat)
  { hsound with
    floorVersion := hsound.floorVersion.trans (le_max_left _ _)
    versionNow := max_le hsound.versionNow hi.1
    version := fun r hr => by cases hr
    invalidations := by
      intro i' hi'
      rcases List.mem_or_eq_of_mem_set hi' with hold | rfl
      · exact ⟨(hsound.invalidations i' hold).1,
          fun hdeleted => ((hsound.invalidations i' hold).2 hdeleted).trans (le_max_left _ _)⟩
      · exact ⟨hi.1, fun _ => le_max_right _ _⟩ }

/-- An invalidation returns when both keys are deleted. -/
theorem Sound.deleteBanned (hsound : w.Sound) {j : Nat} {i : Invalidation}
    (hat : w.invalidations[j]? = some i) (hdeleted : i.versionDeleted = true) :
    Sound { w with
      banned := none
      bannedCleared := max w.bannedCleared i.since
      floor := max w.floor i.since
      invalidations := w.invalidations.eraseIdx j } :=
  have hi := hsound.invalidations i (List.mem_of_getElem? hat)
  { hsound with
    floorVersion := max_le hsound.floorVersion (hi.2 hdeleted)
    floorBanned := max_le_max_right _ hsound.floorBanned
    bannedNow := max_le hsound.bannedNow hi.1
    banned := fun r hr => by cases hr
    requests := fun r hr => ⟨(hsound.requests r hr).1.trans (le_max_left _ _), (hsound.requests r hr).2⟩
    invalidations := fun i' hi' => hsound.invalidations i' (List.mem_of_mem_eraseIdx hi') }

theorem Sound.invalidateWithoutClient (hsound : w.Sound) (hversion : ∀ r ∈ w.version, w.now ≤ r.time)
    (hbanned : ∀ r ∈ w.banned, w.now ≤ r.time) :
    Sound { w with versionCleared := w.now, bannedCleared := w.now, floor := w.now } :=
  { hsound with
    floorVersion := le_rfl
    floorBanned := le_rfl
    versionNow := le_rfl
    bannedNow := le_rfl
    version := fun r hr => (hsound.version r hr).raise (hversion r hr)
    banned := fun r hr => (hsound.banned r hr).raise (hbanned r hr)
    requests := fun r hr => by
      obtain ⟨hfloor, hbacked⟩ := hsound.requests r hr
      exact ⟨hfloor.trans (hsound.floorVersion.trans hsound.versionNow), hbacked⟩
    invalidations := fun i hi => by
      obtain ⟨hsince, _⟩ := hsound.invalidations i hi
      exact ⟨hsince, fun _ => hsince⟩ }

theorem Sound.step {a : SessionAction} (hsound : w.Sound) (hkeeps : w.KeepsRevocation a)
    (hstep : w.step a = some w') : w'.Sound := by
  cases a with
  | incrementVersion =>
    obtain rfl := Option.some.inj hstep
    exact hsound.writeRow _ (Nat.le_succ _)
  | setIsBanned isBanned =>
    obtain rfl := Option.some.inj hstep
    exact hsound.writeRow _ le_rfl
  | expireVersion =>
    obtain rfl := Option.some.inj hstep
    exact hsound.withVersion fun r hr => by cases hr
  | expireBanned =>
    obtain rfl := Option.some.inj hstep
    exact hsound.withBanned fun r hr => by cases hr
  | start tv =>
    obtain rfl := Option.some.inj hstep
    refine { hsound with requests := fun r hr => ?_ }
    rcases List.mem_append.mp hr with hold | hnew
    · exact hsound.requests r hold
    · rw [List.mem_singleton.mp hnew]
      exact ⟨le_rfl, trivial⟩
  | getVersion k =>
    obtain ⟨r, hat, hstep⟩ := Option.bind_eq_some_iff.mp hstep
    split at hstep
    · obtain rfl := Option.some.inj hstep
      have hfloor := (hsound.requests r (List.mem_of_getElem? hat)).1
      exact hsound.moveTo hat fun v hv => (hsound.version v hv).lower (hfloor.trans hsound.floorVersion)
    · cases hstep
  | getBanned k =>
    obtain ⟨r, hat, hstep⟩ := Option.bind_eq_some_iff.mp hstep
    split at hstep
    · rename_i version hstage
      obtain rfl := Option.some.inj hstep
      have hbacked := hsound.backed hat
      have hfloor := (hsound.requests r (List.mem_of_getElem? hat)).1.trans hsound.floorBanned
      rw [hstage] at hbacked
      refine hsound.moveTo hat (backed_cachedStage hfloor hbacked hsound.banned ?_)
      rintro hmissing v rfl
      exact hkeeps hmissing r hat (hstage ▸ rfl)
    · cases hstep
  | cacheUnavailable k =>
    obtain ⟨r, hat, hstep⟩ := Option.bind_eq_some_iff.mp hstep
    split at hstep
    · obtain rfl := Option.some.inj hstep
      exact hsound.moveTo hat trivial
    · obtain rfl := Option.some.inj hstep
      exact hsound.moveTo hat trivial
    · cases hstep
  | readRow k =>
    obtain ⟨r, hat, hstep⟩ := Option.bind_eq_some_iff.mp hstep
    split at hstep
    · obtain rfl := Option.some.inj hstep
      exact hsound.moveTo hat (Reading.of_last w.past w.row (hsound.floor_le_now hat))
    · cases hstep
  | setVersion k =>
    obtain ⟨r, hat, hstep⟩ := Option.bind_eq_some_iff.mp hstep
    split at hstep
    · rename_i data hstage
      obtain rfl := Option.some.inj hstep
      have hbacked := hsound.backed hat
      have hsince := hkeeps r hat
      rw [hstage] at hbacked hsince
      have hread : data.Of UserTokenStateRow.data w.history w.versionCleared :=
        Reading.Of.raise hbacked hsince
      refine (hsound.withVersion ?_).moveTo hat hbacked
      intro written hwritten
      obtain rfl := Option.some.inj hwritten
      exact hread.map TokenData.tokenVersion
    · cases hstep
  | setBanned k =>
    obtain ⟨r, hat, hstep⟩ := Option.bind_eq_some_iff.mp hstep
    split at hstep
    · rename_i data hstage
      obtain rfl := Option.some.inj hstep
      have hbacked := hsound.backed hat
      have hsince := hkeeps r hat
      rw [hstage] at hbacked hsince
      have hread : data.Of UserTokenStateRow.data w.history w.bannedCleared :=
        Reading.Of.raise hbacked hsince
      refine (hsound.withBanned ?_).moveTo hat (backed_deciding hbacked)
      intro written hwritten
      obtain rfl := Option.some.inj hwritten
      exact hread.map TokenData.isBanned
    · cases hstep
  | cacheWriteFails k =>
    obtain ⟨r, hat, hstep⟩ := Option.bind_eq_some_iff.mp hstep
    have hbacked := hsound.backed hat
    split at hstep
    · rename_i data hstage
      obtain rfl := Option.some.inj hstep
      rw [hstage] at hbacked
      exact hsound.moveTo hat (backed_deciding hbacked)
    · rename_i data hstage
      obtain rfl := Option.some.inj hstep
      rw [hstage] at hbacked
      exact hsound.moveTo hat (backed_deciding hbacked)
    · cases hstep
  | decide k =>
    obtain ⟨r, hat, hstep⟩ := Option.bind_eq_some_iff.mp hstep
    split at hstep
    · rename_i data hstage
      obtain rfl := Option.some.inj hstep
      exact hsound.decide (hstage ▸ hsound.backed hat)
    · cases hstep
  | invalidate =>
    obtain rfl := Option.some.inj hstep
    refine { hsound with invalidations := fun i hi => ?_ }
    rcases List.mem_append.mp hi with hold | hnew
    · exact hsound.invalidations i hold
    · rw [List.mem_singleton.mp hnew]
      exact ⟨le_rfl, fun h => by cases h⟩
  | deleteVersion j =>
    obtain ⟨i, hat, rfl⟩ := Option.map_eq_some_iff.mp hstep
    exact hsound.deleteVersion (Option.filter_eq_some_iff.mp hat).1
  | deleteBanned j =>
    obtain ⟨i, hat, rfl⟩ := Option.map_eq_some_iff.mp hstep
    obtain ⟨hat, hdeleted⟩ := Option.filter_eq_some_iff.mp hat
    exact hsound.deleteBanned hat hdeleted
  | invalidationFails j =>
    obtain rfl := Option.some.inj hstep
    exact { hsound with
      invalidations := fun i hi => hsound.invalidations i (List.mem_of_mem_eraseIdx hi) }
  | invalidateWithoutClient =>
    obtain rfl := Option.some.inj hstep
    exact hsound.invalidateWithoutClient hkeeps.1 hkeeps.2

theorem boot_sound (row : UserTokenStateRow) : (boot row).Sound where
  ordered := List.pairwise_singleton _ _
  floorVersion := le_rfl
  floorBanned := le_rfl
  versionNow := le_rfl
  bannedNow := le_rfl
  version _ hr := by cases hr
  banned _ hr := by cases hr
  requests _ hr := by cases hr
  invalidations _ hi := by cases hi
  accepted _ ha := by cases ha

/-- **Revocation.** Under the condition no request that starts after an invalidation has returned true
accepts a token older than the version the row had when it was called, or one of a user banned since. -/
theorem reached_effective {row : UserTokenStateRow}
    (hreach : Reach step KeepsRevocation (· = boot row) w) : w.Effective := by
  have hsound : w.Sound := by
    apply hreach.invariant
    · rintro _ rfl
      exact boot_sound row
    · exact fun _ _ _ hsound hkeeps hstep => hsound.step hkeeps hstep
  exact hsound.accepted

/-! ### A password reset -/

instance (moment : Nat) : DecidablePred (AuthStage.ReadSince moment)
  | .filled data | .versionWritten data => inferInstanceAs (Decidable (moment ≤ data.time))
  | .reading | .gotVersion _ | .missed | .deciding _ => .isTrue trivial

instance (w : SessionWorld) : ∀ a, Decidable (w.KeepsRevocation a)
  | .setVersion k =>
    inferInstanceAs (Decidable (∀ r ∈ w.requests[k]?, r.stage.ReadSince w.versionCleared))
  | .setBanned k =>
    inferInstanceAs (Decidable (∀ r ∈ w.requests[k]?, r.stage.ReadSince w.bannedCleared))
  | .getBanned k => inferInstanceAs (Decidable (w.banned = none → ∀ r ∈ w.requests[k]?,
      r.stage.foundVersion = true → Since w.history r.floor fun row => row.banned = false))
  | .invalidateWithoutClient =>
    inferInstanceAs (Decidable ((∀ r ∈ w.version, w.now ≤ r.time) ∧ ∀ r ∈ w.banned, w.now ≤ r.time))
  | .incrementVersion | .setIsBanned _ | .expireVersion | .expireBanned | .start _ | .getVersion _
  | .cacheUnavailable _ | .readRow _ | .cacheWriteFails _ | .decide _ | .invalidate | .deleteVersion _
  | .deleteBanned _ | .invalidationFails _ => .isTrue trivial

def freshUser : UserTokenStateRow := ⟨some 1, some false⟩

def authenticateMiss (tv : Nat) : List SessionAction :=
  [.start (some tv), .getVersion 0, .getBanned 0, .readRow 0, .setVersion 0, .setBanned 0, .decide 0]

def resetPassword : List SessionAction :=
  [.incrementVersion, .invalidate, .deleteVersion 0, .deleteBanned 0]

def authenticateHit (tv : Nat) : List SessionAction :=
  [.start (some tv), .getVersion 0, .getBanned 0, .decide 0]

/-- The old token passes before the reset and not after it, when the new one does. -/
def resetBetweenRequests : List SessionAction :=
  authenticateMiss 1 ++ resetPassword ++ authenticateMiss 2 ++ authenticateHit 1 ++ authenticateHit 2

theorem reached_effective_resetBetweenRequests : ∃ w,
    run step (boot freshUser) resetBetweenRequests = some w ∧
    w.accepted.map Acceptance.tv = [2, 2, 1] ∧ w.Effective := by
  obtain ⟨w, hrun, haccepted⟩ := exists_of_run_any step (boot freshUser) resetBetweenRequests
    (fun w => w.accepted.map Acceptance.tv = [2, 2, 1]) (by decide +kernel)
  have hok : RunOk step KeepsRevocation (boot freshUser) resetBetweenRequests := by decide +kernel
  exact ⟨w, hrun, of_decide_eq_true haccepted, reached_effective (.of_run (.init rfl) hok hrun)⟩

/-- A request reads the row before the reset and writes the keys after the reset has deleted them. -/
def filledLate : List SessionAction :=
  [.start (some 1), .getVersion 0, .getBanned 0, .readRow 0] ++ resetPassword ++
    [.setVersion 0, .setBanned 0, .decide 0] ++ authenticateHit 1

theorem revoked_token_accepted : ∃ w, run step (boot freshUser) filledLate = some w ∧
    w.accepted.head?.map Acceptance.floor = some 1 ∧ ¬w.Effective := by
  obtain ⟨w, hrun, hend⟩ := exists_of_run_any step (boot freshUser) filledLate
    (fun w => w.accepted.head?.map Acceptance.floor = some 1 ∧
      ∃ a ∈ w.accepted, ∃ row ∈ w.history[a.floor]?, ¬row.version ≤ a.tv) (by decide +kernel)
  obtain ⟨hfloor, a, ha, row, hrow, holder⟩ := of_decide_eq_true hend
  exact ⟨w, hrun, hfloor, fun heffective => holder ((heffective a ha).version row hrow)⟩

end SessionWorld

end PropFirm
