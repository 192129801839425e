import Mathlib
import PropFirm.Lib.Transition

/-!
# Backup codes of two-factor authentication

The codes of a user are one column, a list of hashes with a flag. `POST /2fa/validate` reads the list,
marks the first unused code that fits, and writes the whole list back in a statement of its own.
`POST /2fa/verify-setup` replaces the list by fresh codes and `POST /2fa/disable` clears it; each of them
decides by a row read before it writes. New codes are had by disabling and setting up again.
-/

namespace PropFirm

open Transition

structure BackupCode where
  hash : String
  used : Bool
  deriving DecidableEq

/-- The columns of `users` that two-factor authentication has; the secrets are encrypted texts. -/
structure TwoFactorUser where
  totpEnabled : Bool
  totpSecret : Option String
  totpTempSecret : Option String
  totpBackupCodes : Option (List BackupCode)

/-- A request that has read the row, with what it keeps of it. -/
inductive TwoFactorRequest
  | setup
  | verifySetup (tempSecret : String)
  | validate (token : String) (codes : Option (List BackupCode))
  | disable
  deriving DecidableEq

/-- `issued` are the hashes of the codes the user was last given, `drawn` those of all codes ever given,
and `accepted` those of the codes that requests were let in with. -/
structure TwoFactorWorld where
  user : TwoFactorUser
  requests : List TwoFactorRequest
  issued : Option (List String)
  drawn : List String
  accepted : List String

/-- Each request reads and then, if its code is right, writes. `totpValid` is what the authenticator
makes of the token when it is looked at. -/
inductive TwoFactorAction
  | readSetup
  | setup (request : Nat) (secret : String)
  | readVerifySetup
  | verifySetup (request : Nat) (liveSecret : String) (hashes : List String)
  | readValidate (token : String)
  | validate (request : Nat) (totpValid : Bool)
  | readDisable
  | disable (request : Nat)

def backupCount : Nat := 8

/-- The first unused code that fits, marked as used. `compare` is bcrypt's, on the input trimmed and in
upper case. The code's hash stands for its index. -/
def consumeBackupCode (compare : String → String → Bool) (userInput : String) :
    List BackupCode → Option (String × List BackupCode)
  | [] => none
  | code :: codes =>
    if !code.used && compare userInput code.hash then
      some (code.hash, { code with used := true } :: codes)
    else
      (consumeBackupCode compare userInput codes).map fun found => (found.1, code :: found.2)

namespace TwoFactorWorld

def boot : TwoFactorWorld := ⟨⟨false, none, none, none⟩, [], none, [], []⟩

def begin (w : TwoFactorWorld) (request : TwoFactorRequest) : TwoFactorWorld :=
  { w with requests := w.requests ++ [request] }

def finish (w : TwoFactorWorld) (k : Nat) (user : TwoFactorUser) : TwoFactorWorld :=
  { w with user := user, requests := w.requests.eraseIdx k }

/-- A salted hash is of one code only, so that no two codes share one. -/
def FreshHashes (w : TwoFactorWorld) (hashes : List String) : Prop :=
  hashes.Nodup ∧ ∀ hash ∈ hashes, hash ∉ w.drawn

instance (w : TwoFactorWorld) (hashes : List String) : Decidable (w.FreshHashes hashes) :=
  inferInstanceAs (Decidable (_ ∧ _))

def step (compare : String → String → Bool) (w : TwoFactorWorld) : TwoFactorAction → Option TwoFactorWorld
  | .readSetup => do
    guard (w.user.totpEnabled = false)
    pure (w.begin .setup)
  | .setup k secret => do
    guard (w.requests[k]? = some .setup)
    pure (w.finish k { w.user with totpTempSecret := some secret })
  | .readVerifySetup => do
    guard (w.user.totpEnabled = false)
    let tempSecret ← w.user.totpTempSecret
    pure (w.begin (.verifySetup tempSecret))
  | .verifySetup k liveSecret hashes => do
    guard (w.requests[k]?.any fun request => request matches .verifySetup _)
    guard (hashes.length = backupCount ∧ w.FreshHashes hashes)
    let user : TwoFactorUser := ⟨true, some liveSecret, none, some (hashes.map (⟨·, false⟩))⟩
    pure { w.finish k user with issued := some hashes, drawn := hashes ++ w.drawn }
  | .readValidate token => do
    guard (w.user.totpEnabled = true ∧ w.user.totpSecret.isSome)
    pure (w.begin (.validate token w.user.totpBackupCodes))
  | .validate k totpValid =>
    match w.requests[k]? with
    | some (.validate token codes) =>
      if totpValid then some (w.finish k w.user)
      else match codes.bind (consumeBackupCode compare token) with
        | none => some (w.finish k w.user)
        | some (hash, updated) =>
          let user := { w.user with totpBackupCodes := some updated }
          some { w.finish k user with accepted := hash :: w.accepted }
    | _ => none
  | .readDisable => do
    guard (w.user.totpEnabled = true)
    pure (w.begin .disable)
  | .disable k => do
    guard (w.requests[k]? = some .disable)
    pure { w.finish k ⟨false, none, none, none⟩ with issued := none }

/-- A code as it stands when the `accepted` ones are used. -/
def mark (accepted : List String) (hash : String) : BackupCode := ⟨hash, hash ∈ accepted⟩

/-- No code has let in two requests, and the user's codes are those last given, each one used exactly if it
has let a request in. -/
structure OnceEach (w : TwoFactorWorld) : Prop where
  once : w.accepted.Nodup
  intact : w.user.totpBackupCodes = w.issued.map (List.map (mark w.accepted))

/-- A request writes codes back over those it has read. -/
def KeepsCodes (compare : String → String → Bool) (w : TwoFactorWorld) : TwoFactorAction → Prop
  | .validate k false => ∀ token codes, w.requests[k]? = some (.validate token codes) →
      (codes.bind (consumeBackupCode compare token)).isSome = true → codes = w.user.totpBackupCodes
  | .validate _ true | .readSetup | .setup _ _ | .readVerifySetup | .verifySetup _ _ _ | .readValidate _
  | .readDisable | .disable _ => True

variable {compare : String → String → Bool} {w w' : TwoFactorWorld} {token hash : String}
  {issued accepted : List String} {updated : List BackupCode}

theorem mark_other {other : String} (hne : other ≠ hash) :
    mark (hash :: accepted) other = mark accepted other := by
  simp [mark, hne]

theorem map_mark_other {hashes : List String} (hfresh : hash ∉ hashes) :
    hashes.map (mark (hash :: accepted)) = hashes.map (mark accepted) :=
  List.map_congr_left fun _ hother => mark_other fun heq => hfresh (heq ▸ hother)

/-- Of codes that stand as they should, one that was not accepted is found, and it is the only one whose
mark changes. -/
theorem consumeBackupCode_marked (hnodup : issued.Nodup)
    (hfound : consumeBackupCode compare token (issued.map (mark accepted)) = some (hash, updated)) :
    hash ∈ issued ∧ hash ∉ accepted ∧ updated = issued.map (mark (hash :: accepted)) := by
  induction issued generalizing updated with
  | nil => cases hfound
  | cons first rest ih =>
    obtain ⟨hfirst, hrest⟩ := List.nodup_cons.mp hnodup
    rw [List.map_cons, consumeBackupCode] at hfound
    split at hfound
    · rename_i hfits
      obtain ⟨rfl, rfl⟩ := Prod.mk.inj (Option.some.inj hfound)
      have hunused : first ∉ accepted := by
        simpa [mark] using (Bool.and_eq_true_iff.mp hfits).1
      refine ⟨List.mem_cons_self, hunused, ?_⟩
      rw [List.map_cons]
      congr 1
      · simp [mark]
      · exact (map_mark_other hfirst).symm
    · obtain ⟨found, hlater, heq⟩ := Option.map_eq_some_iff.mp hfound
      obtain ⟨rfl, rfl⟩ := Prod.mk.inj heq
      obtain ⟨hmem, hunused, htail⟩ := ih hrest hlater
      refine ⟨List.mem_cons_of_mem _ hmem, hunused, ?_⟩
      have hne : first ≠ found.1 := fun heq => hfirst (heq ▸ hmem)
      rw [htail, List.map_cons, mark_other hne]

structure Sound (w : TwoFactorWorld) : Prop extends OnceEach w where
  distinct : ∀ hashes ∈ w.issued, hashes.Nodup
  issuedDrawn : ∀ hashes ∈ w.issued, ∀ hash ∈ hashes, hash ∈ w.drawn
  acceptedDrawn : ∀ hash ∈ w.accepted, hash ∈ w.drawn

/-- Whatever changes neither the codes nor what is known of them. -/
theorem Sound.of_codes (hsound : w.Sound) (hcodes : w'.user.totpBackupCodes = w.user.totpBackupCodes)
    (hissued : w'.issued = w.issued) (hdrawn : w'.drawn = w.drawn)
    (haccepted : w'.accepted = w.accepted) : w'.Sound where
  once := haccepted ▸ hsound.once
  intact := by
    rw [hcodes, hissued, haccepted]
    exact hsound.intact
  distinct := hissued ▸ hsound.distinct
  issuedDrawn := hissued ▸ hdrawn ▸ hsound.issuedDrawn
  acceptedDrawn := haccepted ▸ hdrawn ▸ hsound.acceptedDrawn

/-- Fresh codes are all unused, whatever was accepted before. -/
theorem Sound.verifySetup {hashes : List String} (hsound : w.Sound) (hfresh : w.FreshHashes hashes)
    (k : Nat) (liveSecret : String) :
    Sound { w.finish k ⟨true, some liveSecret, none, some (hashes.map (⟨·, false⟩))⟩ with
      issued := some hashes, drawn := hashes ++ w.drawn } where
  once := hsound.once
  intact := by
    refine congrArg some (List.map_congr_left fun hash hhash => ?_)
    have hunused : hash ∉ w.accepted := fun haccepted =>
      hfresh.2 hash hhash (hsound.acceptedDrawn hash haccepted)
    simp [mark, finish, hunused]
  distinct _ hissued := Option.some.inj hissued ▸ hfresh.1
  issuedDrawn _ hissued hash hhash := by
    obtain rfl := Option.some.inj hissued
    exact List.mem_append_left _ hhash
  acceptedDrawn hash haccepted := List.mem_append_right _ (hsound.acceptedDrawn hash haccepted)

/-- A code accepted from codes written back over themselves. -/
theorem Sound.accept (hsound : w.Sound)
    (hfound : w.user.totpBackupCodes.bind (consumeBackupCode compare token) = some (hash, updated))
    (k : Nat) :
    Sound { w.finish k { w.user with totpBackupCodes := some updated } with
      accepted := hash :: w.accepted } := by
  obtain ⟨codes, hcodes, hfound⟩ := Option.bind_eq_some_iff.mp hfound
  obtain ⟨issued, hissued, rfl⟩ := Option.map_eq_some_iff.mp (hsound.intact.symm.trans hcodes)
  obtain ⟨hmem, hunused, rfl⟩ := consumeBackupCode_marked (hsound.distinct issued hissued) hfound
  refine ⟨⟨List.nodup_cons.mpr ⟨hunused, hsound.once⟩, ?_⟩, hsound.distinct, hsound.issuedDrawn, ?_⟩
  · exact (congrArg (Option.map _) hissued).symm
  · intro other hother
    rcases List.mem_cons.mp hother with rfl | hold
    · exact hsound.issuedDrawn issued hissued other hmem
    · exact hsound.acceptedDrawn other hold

theorem Sound.step {a : TwoFactorAction} (hsound : w.Sound) (hkeeps : w.KeepsCodes compare a)
    (hstep : w.step compare a = some w') : w'.Sound := by
  cases a with
  | readSetup =>
    obtain ⟨_, _, hstep⟩ := Option.bind_eq_some_iff.mp hstep
    obtain rfl := Option.some.inj hstep
    exact hsound.of_codes rfl rfl rfl rfl
  | setup k secret =>
    obtain ⟨_, _, hstep⟩ := Option.bind_eq_some_iff.mp hstep
    obtain rfl := Option.some.inj hstep
    exact hsound.of_codes rfl rfl rfl rfl
  | readVerifySetup =>
    obtain ⟨_, _, hstep⟩ := Option.bind_eq_some_iff.mp hstep
    obtain ⟨_, _, hstep⟩ := Option.bind_eq_some_iff.mp hstep
    obtain rfl := Option.some.inj hstep
    exact hsound.of_codes rfl rfl rfl rfl
  | verifySetup k liveSecret hashes =>
    obtain ⟨_, _, hstep⟩ := Option.bind_eq_some_iff.mp hstep
    obtain ⟨_, hfresh, hstep⟩ := Option.bind_eq_some_iff.mp hstep
    obtain rfl := Option.some.inj hstep
    exact hsound.verifySetup ((Option.guard_eq_some' _).mp hfresh).2 k liveSecret
  | readValidate token =>
    obtain ⟨_, _, hstep⟩ := Option.bind_eq_some_iff.mp hstep
    obtain rfl := Option.some.inj hstep
    exact hsound.of_codes rfl rfl rfl rfl
  | validate k totpValid =>
    rw [TwoFactorWorld.step] at hstep
    split at hstep
    · rename_i token codes hrequest
      split at hstep
      · obtain rfl := Option.some.inj hstep
        exact hsound.of_codes rfl rfl rfl rfl
      · rename_i hinvalid
        obtain rfl := Bool.eq_false_of_not_eq_true hinvalid
        split at hstep
        · obtain rfl := Option.some.inj hstep
          exact hsound.of_codes rfl rfl rfl rfl
        · rename_i hash updated hfound
          obtain rfl := Option.some.inj hstep
          obtain rfl := hkeeps token codes hrequest (hfound ▸ rfl)
          exact hsound.accept hfound k
    · cases hstep
  | readDisable =>
    obtain ⟨_, _, hstep⟩ := Option.bind_eq_some_iff.mp hstep
    obtain rfl := Option.some.inj hstep
    exact hsound.of_codes rfl rfl rfl rfl
  | disable k =>
    obtain ⟨_, _, hstep⟩ := Option.bind_eq_some_iff.mp hstep
    obtain rfl := Option.some.inj hstep
    exact ⟨⟨hsound.once, rfl⟩, fun _ h => (by cases h), fun _ h => (by cases h), hsound.acceptedDrawn⟩

theorem boot_sound : boot.Sound :=
  ⟨⟨List.nodup_nil, rfl⟩, fun _ h => (by cases h), fun _ h => (by cases h), fun _ h => (by cases h)⟩

/-- **Backup codes.** If no request writes codes back over others than it has read, every code lets in at
most one request, and letting it in changes no other code. -/
theorem reached_onceEach (hreach : Reach (step compare) (KeepsCodes compare) (· = boot) w) :
    w.OnceEach := by
  have hsound : w.Sound := by
    apply hreach.invariant
    · rintro _ rfl
      exact boot_sound
    · exact fun _ _ _ hsound hkeeps hstep => hsound.step hkeeps hstep
  exact hsound.toOnceEach

/-! ### Eight codes -/

instance (w : TwoFactorWorld) : ∀ a, Decidable (w.KeepsCodes compare a)
  | .validate k false =>
    match hrequest : w.requests[k]? with
    | some (.validate token codes) =>
      decidable_of_iff ((codes.bind (consumeBackupCode compare token)).isSome = true →
          codes = w.user.totpBackupCodes)
        ⟨fun hkeeps _ _ heq => by
          rw [hrequest] at heq
          cases heq
          exact hkeeps, fun hkeeps => hkeeps _ _ hrequest⟩
    | some .setup | some (.verifySetup _) | some .disable | none =>
      .isTrue fun _ _ heq => by rw [hrequest] at heq; cases heq
  | .validate _ true | .readSetup | .setup _ _ | .readVerifySetup | .verifySetup _ _ _ | .readValidate _
  | .readDisable | .disable _ => .isTrue trivial

/-- Eight codes with their hashes. -/
def sampleCodes : List (String × String) :=
  [("A1B2C3D4E5", "$2b$10$abcdefghijklmnopqrstuunEPqm2q1Aop4beMtEEZy1obuq4FP/Y2"),
    ("0F9E8D7C6B", "$2b$10$abcdefghijklmnopqrstuOV3DK00vG00A/MjwsM5yqXt4jcToEcOi"),
    ("1122AABB33", "$2b$10$abcdefghijklmnopqrstueLny/BQWCjI08RskmG0UW9gRUPdygtWy"),
    ("44CCDD5566", "$2b$10$abcdefghijklmnopqrstu./smfKIqP/ghFR/7op1SrAWP.HPVsbQu"),
    ("77EEFF8899", "$2b$10$bcdefghijklmnopqrstuvun/G8.kxhY3vdHf9OsCZfk5OB47OWYoe"),
    ("1A2B3C4D5E", "$2b$10$bcdefghijklmnopqrstuvOGQMjXCHPnObx/s3MvfMgVfOX1jvzTyy"),
    ("6F7089A1B2", "$2b$10$bcdefghijklmnopqrstuveTqx0.9dElyqjrkMWi6WPnFG8NYqKvbi"),
    ("C3D4E5F607", "$2b$10$bcdefghijklmnopqrstuv.WenK.qT8rl0TjlyzaRtWaFvSXjbKTGm")]

def sampleCompare (userInput hash : String) : Bool := (userInput, hash) ∈ sampleCodes

/-- The user sets two-factor authentication up. -/
def setUp : List TwoFactorAction :=
  [.readSetup, .setup 0 "00:11", .readVerifySetup, .verifySetup 0 "22:33" (sampleCodes.map Prod.snd)]

def twoLogins : List TwoFactorAction :=
  setUp ++ [.readValidate "A1B2C3D4E5", .validate 0 false, .readValidate "1122AABB33",
    .readValidate "A1B2C3D4E5", .validate 1 false, .validate 0 false]

theorem reached_onceEach_twoLogins : ∃ w, run (step sampleCompare) boot twoLogins = some w ∧
    w.accepted.length = 2 ∧ w.OnceEach := by
  obtain ⟨w, hrun, htwo⟩ := exists_of_run_any (step sampleCompare) boot twoLogins
    (fun w => w.accepted.length = 2) (by decide +kernel)
  have hok : RunOk (step sampleCompare) (KeepsCodes sampleCompare) boot twoLogins := by decide +kernel
  exact ⟨w, hrun, of_decide_eq_true htwo, reached_onceEach (.of_run (.init rfl) hok hrun)⟩

/-- Two requests read the codes, each uses one of its own, and the first code is used again. -/
def crossedLogins : List TwoFactorAction :=
  setUp ++ [.readValidate "A1B2C3D4E5", .readValidate "1122AABB33", .validate 0 false, .validate 0 false,
    .readValidate "A1B2C3D4E5", .validate 0 false]

theorem code_accepted_twice : ∃ w, run (step sampleCompare) boot crossedLogins = some w ∧
    w.accepted.length = 3 ∧ ¬w.accepted.Nodup ∧ ¬w.OnceEach := by
  obtain ⟨w, hrun, hend⟩ := exists_of_run_any (step sampleCompare) boot crossedLogins
    (fun w => w.accepted.length = 3 ∧ ¬w.accepted.Nodup) (by decide +kernel)
  obtain ⟨hthree, htwice⟩ := of_decide_eq_true hend
  exact ⟨w, hrun, hthree, htwice, fun honce => htwice honce.once⟩

end TwoFactorWorld

end PropFirm
