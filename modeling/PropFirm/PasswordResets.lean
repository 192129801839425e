import PropFirm.Lib.InFlight
import PropFirm.Lib.Transition

/-!
# Password resets

`/forgot-password` stores the hash of a random token with the hour it is good for, and mails the token.
`/reset-password` reads the row, compares the token it was sent, and stores the new password, takes the token
away and raises `token_version`. The read and the write are two statements, so that requests with the same
token which have both read the row both reset the password. Once one of them has, the token is read by nobody
any more: what is left to happen with it is in the hands of the requests that hold it already.

The model is of one user. Hashes are salted, so that none is stored twice.
-/

namespace PropFirm

open Transition

structure BcryptFunctions where
  hash : String → ℕ → String
  compare : String → String → Bool

/-- The columns of `users` that the two routes read and write. -/
structure ResetRow where
  passwordHash : String
  resetToken : Option String
  resetTokenExpires : Option ℕ
  tokenVersion : Option ℕ
  deriving DecidableEq

namespace ResetRow

def version (row : ResetRow) : ℕ := row.tokenVersion.getD 1

/-- The update of `/forgot-password`. -/
def issue (row : ResetRow) (tokenHash : String) (expires : ℕ) : ResetRow :=
  { row with resetToken := some tokenHash, resetTokenExpires := some expires }

/-- The update of `/reset-password`. -/
def reset (row : ResetRow) (passwordHash : String) : ResetRow :=
  { row with
    passwordHash := passwordHash
    resetToken := none
    resetTokenExpires := none
    tokenVersion := some (row.version + 1) }

/-- A logout everywhere, a ban. -/
def revoke (row : ResetRow) : ResetRow := { row with tokenVersion := some (row.version + 1) }

end ResetRow

inductive ResetPhase
  | asked
  | read (user : ResetRow)
  | verified (tokenHash : String) (checkedAt : ℕ)
  deriving DecidableEq

/-- A request to `/reset-password` whose password is strong enough. -/
structure ResetJob where
  token : String
  newPassword : String
  phase : ResetPhase
  deriving DecidableEq

/-- A password that was stored, and by the right of which token. -/
structure PasswordReset where
  token : String
  tokenHash : String
  checkedAt : ℕ
  passwordHash : String
  deriving DecidableEq

/-- `issued` and `resets` record what was stored, and `revoked` how often the sessions were revoked otherwise. -/
structure ResetWorld where
  now : ℕ
  row : ResetRow
  jobs : List ResetJob
  replies : List (Except String String)
  issued : List (String × ℕ)
  resets : List PasswordReset
  revoked : ℕ

inductive ResetEvent
  | tick (d : ℕ)
  | revoke
  | forgot (token : String) (salt sentAt : ℕ)
  | ask (token newPassword : String)
  | read (i : ℕ)
  | check (i : ℕ)
  | write (i salt : ℕ) (heard : Bool)
  | fail (i : ℕ)

def resetTokenTtlMs : ℕ := 60 * 60 * 1000

/-- What `/reset-password` makes of the row that it has read: the hash that the token fits, or an answer. -/
def checkResetToken (b : BcryptFunctions) (now : ℕ) (token : String) (user : ResetRow) : Except String String :=
  match user.resetToken, user.resetTokenExpires with
  | some tokenHash, some expires =>
    if expires < now then .error "Reset link has expired. Please request a new one."
    else if b.compare token tokenHash then .ok tokenHash
    else .error "Invalid or expired reset link"
  | _, _ => .error "Invalid or expired reset link"

namespace ResetWorld

variable (b : BcryptFunctions)

def take (w : ResetWorld) (i : ℕ) : ResetWorld := { w with jobs := w.jobs.eraseIdx i }

def put (w : ResetWorld) (job : ResetJob) : ResetWorld := { w with jobs := w.jobs ++ [job] }

def answer (w : ResetWorld) (reply : Except String String) : ResetWorld := { w with replies := w.replies ++ [reply] }

/-- The hash and the hour count from `sentAt`, before the update. -/
def forgotten (w : ResetWorld) (tokenHash : String) (sentAt : ℕ) : ResetWorld :=
  { w with
    row := w.row.issue tokenHash (sentAt + resetTokenTtlMs)
    issued := w.issued ++ [(tokenHash, sentAt + resetTokenTtlMs)] }

def stored (w : ResetWorld) (done : PasswordReset) : ResetWorld :=
  { w with row := w.row.reset done.passwordHash, resets := w.resets ++ [done] }

def checked (w : ResetWorld) (i : ℕ) (job : ResetJob) (user : ResetRow) : ResetWorld :=
  match checkResetToken b w.now job.token user with
  | .ok tokenHash => (w.take i).put { job with phase := .verified tokenHash w.now }
  | .error error => (w.take i).answer (.error error)

def resetReply (heard : Bool) : Except String String :=
  if heard then .ok "Password reset successfully. You can now log in." else .error "Server error"

def step (w : ResetWorld) : ResetEvent → Option ResetWorld
  | .tick d => some { w with now := w.now + d }
  | .revoke => some { w with row := w.row.revoke, revoked := w.revoked + 1 }
  | .forgot token salt sentAt => if sentAt ≤ w.now then some (w.forgotten (b.hash token salt) sentAt) else none
  | .ask token newPassword => some (w.put ⟨token, newPassword, .asked⟩)
  | .read i => w.jobs[i]?.bind fun job =>
    if job.phase = .asked then some ((w.take i).put { job with phase := .read w.row }) else none
  | .check i => w.jobs[i]?.bind fun job =>
    match job.phase with
    | .read user => some (w.checked b i job user)
    | _ => none
  | .write i salt heard => w.jobs[i]?.bind fun job =>
    match job.phase with
    | .verified tokenHash checkedAt => some (((w.take i).stored
        ⟨job.token, tokenHash, checkedAt, b.hash job.newPassword salt⟩).answer (resetReply heard))
    | _ => none
  | .fail i => if i < w.jobs.length then some ((w.take i).answer (.error "Server error")) else none

/-- Before the first of the requests. -/
structure Start (w : ResetWorld) : Prop where
  token : w.row.resetToken = none
  jobs : w.jobs = []
  issued : w.issued = []
  resets : w.resets = []
  revoked : w.revoked = 0

/-- No token is hashed to a hash that was stored before. -/
def Salted (w : ResetWorld) : ResetEvent → Prop
  | .forgot token salt _ => ∀ e ∈ w.issued, e.1 ≠ b.hash token salt
  | _ => True

instance (w : ResetWorld) : ∀ event, Decidable (Salted b w event)
  | .forgot _ _ _ => inferInstanceAs (Decidable (∀ e ∈ w.issued, _))
  | .tick _ | .revoke | .ask _ _ | .read _ | .check _ | .write _ _ _ | .fail _ => isTrue trivial

variable {b} {w w' : ResetWorld} {event : ResetEvent} {job : ResetJob} {i : ℕ}

/-! ### What a step does -/

theorem step_read (hstep : step b w (.read i) = some w') : ∃ job, w.jobs[i]? = some job ∧ job.phase = .asked ∧
    w' = (w.take i).put { job with phase := .read w.row } := by
  obtain ⟨job, hjob, hstep⟩ := Option.bind_eq_some_iff.mp hstep
  split at hstep
  · next hphase => exact ⟨job, hjob, hphase, (Option.some.inj hstep).symm⟩
  · cases hstep

theorem step_check (hstep : step b w (.check i) = some w') :
    ∃ job user, w.jobs[i]? = some job ∧ job.phase = .read user ∧ w' = w.checked b i job user := by
  obtain ⟨job, hjob, hstep⟩ := Option.bind_eq_some_iff.mp hstep
  split at hstep
  · next user hphase => exact ⟨job, user, hjob, hphase, (Option.some.inj hstep).symm⟩
  · cases hstep

theorem step_write {salt : ℕ} {heard : Bool} (hstep : step b w (.write i salt heard) = some w') :
    ∃ job tokenHash checkedAt, w.jobs[i]? = some job ∧ job.phase = .verified tokenHash checkedAt ∧
      w' = ((w.take i).stored ⟨job.token, tokenHash, checkedAt, b.hash job.newPassword salt⟩).answer
        (resetReply heard) := by
  obtain ⟨job, hjob, hstep⟩ := Option.bind_eq_some_iff.mp hstep
  split at hstep
  · next tokenHash checkedAt hphase =>
    exact ⟨job, tokenHash, checkedAt, hjob, hphase, (Option.some.inj hstep).symm⟩
  · cases hstep

theorem step_fail (hstep : step b w (.fail i) = some w') : w' = (w.take i).answer (.error "Server error") := by
  rw [step] at hstep
  split at hstep
  · exact (Option.some.inj hstep).symm
  · cases hstep

theorem step_forgot {token : String} {salt sentAt : ℕ} (hstep : step b w (.forgot token salt sentAt) = some w') :
    w' = w.forgotten (b.hash token salt) sentAt := by
  rw [step] at hstep
  split at hstep
  · exact (Option.some.inj hstep).symm
  · cases hstep

/-- The token is let through only if it fits the hash that was read, which was not past its hour. -/
theorem checked_cases (w : ResetWorld) (i : ℕ) (job : ResetJob) (user : ResetRow) :
    (∃ tokenHash expires, user.resetToken = some tokenHash ∧ user.resetTokenExpires = some expires ∧
      w.now ≤ expires ∧ b.compare job.token tokenHash = true ∧
      w.checked b i job user = (w.take i).put { job with phase := .verified tokenHash w.now }) ∨
    ∃ error, w.checked b i job user = (w.take i).answer (.error error) := by
  unfold checked
  cases hcheck : checkResetToken b w.now job.token user with
  | error error => exact .inr ⟨error, rfl⟩
  | ok tokenHash =>
    left
    unfold checkResetToken at hcheck
    split at hcheck
    · next tokenHash' expires htoken hexpires =>
      split at hcheck
      · cases hcheck
      next hlate =>
      split at hcheck
      · next hfits =>
        obtain rfl := Except.ok.inj hcheck
        exact ⟨tokenHash', expires, htoken, hexpires, Nat.le_of_not_lt hlate, hfits, rfl⟩
      · cases hcheck
    · cases hcheck

/-! ### Every reset has its token -/

/-- The hash in a row was stored, with the expiry that stands beside it. -/
def Backed (issued : List (String × ℕ)) (user : ResetRow) : Prop :=
  ∀ tokenHash, user.resetToken = some tokenHash →
    ∃ expires, (tokenHash, expires) ∈ issued ∧ user.resetTokenExpires = some expires

/-- The token fits a hash that was stored and was good at that moment. -/
def Entitled (b : BcryptFunctions) (issued : List (String × ℕ)) (token tokenHash : String) (checkedAt : ℕ) : Prop :=
  b.compare token tokenHash = true ∧ ∃ expires, (tokenHash, expires) ∈ issued ∧ checkedAt ≤ expires

def JobSound (b : BcryptFunctions) (issued : List (String × ℕ)) (job : ResetJob) : Prop :=
  match job.phase with
  | .asked => True
  | .read user => Backed issued user
  | .verified tokenHash checkedAt => Entitled b issued job.token tokenHash checkedAt

/-- `version` and `password` are those of the row before the first reset. -/
structure Accounted (b : BcryptFunctions) (version : ℕ) (password : String) (w : ResetWorld) : Prop where
  row : Backed w.issued w.row
  jobs : ∀ job ∈ w.jobs, JobSound b w.issued job
  resets : ∀ done ∈ w.resets, Entitled b w.issued done.token done.tokenHash done.checkedAt
  version : w.row.version = version + w.resets.length + w.revoked
  password : w.row.passwordHash = (w.resets.getLast?.map PasswordReset.passwordHash).getD password
  spent : ∀ done ∈ w.resets, w.row.resetToken ≠ some done.tokenHash

variable {version : ℕ} {password : String} {issued issued' : List (String × ℕ)}

theorem Backed.mono {user : ResetRow} (hbacked : Backed issued user) (hsub : issued ⊆ issued') :
    Backed issued' user := by
  intro tokenHash htoken
  obtain ⟨expires, hmem, hexpires⟩ := hbacked tokenHash htoken
  exact ⟨expires, hsub hmem, hexpires⟩

theorem Entitled.mono {token tokenHash : String} {checkedAt : ℕ}
    (hentitled : Entitled b issued token tokenHash checkedAt) (hsub : issued ⊆ issued') :
    Entitled b issued' token tokenHash checkedAt := by
  obtain ⟨hfits, expires, hmem, hle⟩ := hentitled
  exact ⟨hfits, expires, hsub hmem, hle⟩

theorem JobSound.mono (hsound : JobSound b issued job) (hsub : issued ⊆ issued') : JobSound b issued' job := by
  unfold JobSound at hsound ⊢
  cases hphase : job.phase with
  | asked => trivial
  | read user =>
    rw [hphase] at hsound
    exact Backed.mono hsound hsub
  | verified tokenHash checkedAt =>
    rw [hphase] at hsound
    exact Entitled.mono hsound hsub

namespace Accounted

theorem start (hstart : Start w) : Accounted b w.row.version w.row.passwordHash w where
  row tokenHash htoken := by
    rw [hstart.token] at htoken
    cases htoken
  jobs job hjob := by
    rw [hstart.jobs] at hjob
    cases hjob
  resets done hdone := by
    rw [hstart.resets] at hdone
    cases hdone
  version := by rw [hstart.resets, hstart.revoked]; rfl
  password := by rw [hstart.resets]; rfl
  spent done hdone := by
    rw [hstart.resets] at hdone
    cases hdone

theorem take (haccounted : Accounted b version password w) (i : ℕ) : Accounted b version password (w.take i) :=
  { haccounted with jobs := fun job hjob => haccounted.jobs job (List.mem_of_mem_eraseIdx hjob) }

theorem put (haccounted : Accounted b version password w) (hjob : JobSound b w.issued job) :
    Accounted b version password (w.put job) := by
  refine { haccounted with jobs := fun job' hjob' => ?_ }
  rcases List.mem_append.mp hjob' with hold | hnew
  · exact haccounted.jobs job' hold
  · obtain rfl := List.mem_singleton.mp hnew
    exact hjob

theorem answer (haccounted : Accounted b version password w) (reply : Except String String) :
    Accounted b version password (w.answer reply) := { haccounted with }

theorem forgotten (haccounted : Accounted b version password w) {tokenHash : String}
    (hfresh : ∀ e ∈ w.issued, e.1 ≠ tokenHash) (sentAt : ℕ) :
    Accounted b version password (w.forgotten tokenHash sentAt) where
  row tokenHash' htoken := by
    obtain rfl := Option.some.inj htoken
    exact ⟨_, List.mem_append_right _ (List.mem_singleton_self _), rfl⟩
  jobs job hjob := (haccounted.jobs job hjob).mono (List.subset_append_left _ _)
  resets done hdone := (haccounted.resets done hdone).mono (List.subset_append_left _ _)
  version := haccounted.version
  password := haccounted.password
  spent done hdone heq := by
    obtain ⟨-, expires, hmem, -⟩ := haccounted.resets done hdone
    exact hfresh _ hmem (Option.some.inj heq).symm

theorem stored (haccounted : Accounted b version password w) {done : PasswordReset}
    (hdone : Entitled b w.issued done.token done.tokenHash done.checkedAt) :
    Accounted b version password (w.stored done) where
  row tokenHash htoken := by cases htoken
  jobs := haccounted.jobs
  resets done' hdone' := by
    rcases List.mem_append.mp hdone' with hold | hnew
    · exact haccounted.resets done' hold
    · obtain rfl := List.mem_singleton.mp hnew
      exact hdone
  version := by
    show w.row.version + 1 = version + (w.resets ++ [done]).length + w.revoked
    rw [haccounted.version, List.length_append, List.length_singleton]
    omega
  password := by
    show done.passwordHash = ((w.resets ++ [done]).getLast?.map PasswordReset.passwordHash).getD password
    rw [List.getLast?_concat]
    rfl
  spent _ _ heq := by cases heq

theorem step (haccounted : Accounted b version password w) (hsalted : Salted b w event)
    (hstep : ResetWorld.step b w event = some w') : Accounted b version password w' := by
  cases event with
  | tick d =>
    obtain rfl := Option.some.inj hstep
    exact { haccounted with }
  | revoke =>
    obtain rfl := Option.some.inj hstep
    refine { haccounted with version := ?_ }
    show w.row.version + 1 = version + w.resets.length + (w.revoked + 1)
    rw [haccounted.version]
    omega
  | forgot token salt sentAt =>
    obtain rfl := step_forgot hstep
    exact haccounted.forgotten hsalted sentAt
  | ask token newPassword =>
    obtain rfl := Option.some.inj hstep
    exact haccounted.put trivial
  | read i =>
    obtain ⟨job, -, -, rfl⟩ := step_read hstep
    exact (haccounted.take i).put haccounted.row
  | check i =>
    obtain ⟨job, user, hjob, hphase, rfl⟩ := step_check hstep
    have hsound := haccounted.jobs job (List.mem_of_getElem? hjob)
    rw [JobSound, hphase] at hsound
    rcases checked_cases (b := b) w i job user with
      ⟨tokenHash, expires, htoken, hexpires, hnow, hfits, hchecked⟩ | ⟨error, hchecked⟩
    · obtain ⟨expires', hmem, hsame⟩ := hsound tokenHash htoken
      obtain rfl := Option.some.inj (hexpires.symm.trans hsame)
      rw [hchecked]
      exact (haccounted.take i).put ⟨hfits, expires, hmem, hnow⟩
    · rw [hchecked]
      exact (haccounted.take i).answer _
  | write i salt heard =>
    obtain ⟨job, tokenHash, checkedAt, hjob, hphase, rfl⟩ := step_write hstep
    have hsound := haccounted.jobs job (List.mem_of_getElem? hjob)
    rw [JobSound, hphase] at hsound
    let done : PasswordReset := ⟨job.token, tokenHash, checkedAt, b.hash job.newPassword salt⟩
    have hdone : Entitled b w.issued done.token done.tokenHash done.checkedAt := hsound
    exact ((haccounted.take i).stored hdone).answer _
  | fail i =>
    obtain rfl := step_fail hstep
    exact (haccounted.take i).answer _

end Accounted

/-! ### A token that was used is with those that hold it -/

/-- The request has read the hash, and may yet reset the password by it. -/
def Holds (tokenHash : String) (job : ResetJob) : Bool :=
  match job.phase with
  | .asked => false
  | .read user => user.resetToken = some tokenHash
  | .verified held _ => held = tokenHash

/-- The resets by a hash, done and still possible for those that hold it. -/
def uses (tokenHash : String) (w : ResetWorld) : ℕ :=
  w.resets.countP (fun done => done.tokenHash = tokenHash) + w.jobs.countP (Holds tokenHash)

variable {tokenHash : String}

theorem uses_take_le (w : ResetWorld) (i : ℕ) : uses tokenHash (w.take i) ≤ uses tokenHash w :=
  Nat.add_le_add_left ((List.eraseIdx_sublist w.jobs i).countP_le) _

theorem uses_take (hjob : w.jobs[i]? = some job) :
    uses tokenHash w = uses tokenHash (w.take i) + if Holds tokenHash job = true then 1 else 0 := by
  rw [uses, InFlight.countP_eq hjob, ← Nat.add_assoc]
  rfl

theorem uses_put (w : ResetWorld) (job : ResetJob) :
    uses tokenHash (w.put job) = uses tokenHash w + if Holds tokenHash job = true then 1 else 0 := by
  show _ + (w.jobs ++ [job]).countP (Holds tokenHash) = _
  rw [List.countP_append, List.countP_singleton, ← Nat.add_assoc]
  rfl

/-- One that moves on holds what it held. -/
theorem uses_move (hjob : w.jobs[i]? = some job) {job' : ResetJob}
    (hholds : Holds tokenHash job' = true → Holds tokenHash job = true) :
    uses tokenHash ((w.take i).put job') ≤ uses tokenHash w := by
  rw [uses_put, uses_take hjob]
  refine Nat.add_le_add_left ?_ _
  split
  · next hnew => exact Nat.le_of_eq (if_pos (hholds hnew)).symm
  · exact Nat.zero_le _

theorem uses_stored (w : ResetWorld) (done : PasswordReset) :
    uses tokenHash (w.stored done) = uses tokenHash w + if done.tokenHash = tokenHash then 1 else 0 := by
  show (w.resets ++ [done]).countP _ + w.jobs.countP _ = _
  rw [List.countP_append, List.countP_singleton, uses]
  simp only [decide_eq_true_eq]
  omega

theorem resets_step (hstep : step b w event = some w') : ∀ done ∈ w.resets, done ∈ w'.resets := by
  intro done hdone
  cases event with
  | tick d =>
    obtain rfl := Option.some.inj hstep
    exact hdone
  | revoke =>
    obtain rfl := Option.some.inj hstep
    exact hdone
  | forgot token salt sentAt =>
    obtain rfl := step_forgot hstep
    exact hdone
  | ask token newPassword =>
    obtain rfl := Option.some.inj hstep
    exact hdone
  | read i =>
    obtain ⟨job, -, -, rfl⟩ := step_read hstep
    exact hdone
  | check i =>
    obtain ⟨job, user, -, -, rfl⟩ := step_check hstep
    rcases checked_cases (b := b) w i job user with ⟨_, _, -, -, -, -, hchecked⟩ | ⟨_, hchecked⟩
    · rw [hchecked]
      exact hdone
    · rw [hchecked]
      exact hdone
  | write i salt heard =>
    obtain ⟨_, _, _, -, -, rfl⟩ := step_write hstep
    exact List.mem_append_left _ hdone
  | fail i =>
    obtain rfl := step_fail hstep
    exact hdone

/-- Once it has been used and is no longer in the row, nobody comes to hold it. -/
theorem uses_step (hgone : w.row.resetToken ≠ some tokenHash) (hstep : step b w event = some w') :
    uses tokenHash w' ≤ uses tokenHash w := by
  cases event with
  | tick d =>
    obtain rfl := Option.some.inj hstep
    exact Nat.le_refl _
  | revoke =>
    obtain rfl := Option.some.inj hstep
    exact Nat.le_refl _
  | forgot token salt sentAt =>
    obtain rfl := step_forgot hstep
    exact Nat.le_refl _
  | ask token newPassword =>
    obtain rfl := Option.some.inj hstep
    rw [uses_put]
    exact Nat.le_refl _
  | read i =>
    obtain ⟨job, hjob, -, rfl⟩ := step_read hstep
    refine uses_move hjob fun hholds => ?_
    exact absurd (of_decide_eq_true hholds) hgone
  | check i =>
    obtain ⟨job, user, hjob, hphase, rfl⟩ := step_check hstep
    rcases checked_cases (b := b) w i job user with
      ⟨held, expires, htoken, -, -, -, hchecked⟩ | ⟨error, hchecked⟩
    · rw [hchecked]
      refine uses_move hjob fun hholds => ?_
      have hheld : held = tokenHash := of_decide_eq_true hholds
      rw [Holds, hphase]
      exact decide_eq_true (hheld ▸ htoken)
    · rw [hchecked]
      exact uses_take_le w i
  | write i salt heard =>
    obtain ⟨job, held, checkedAt, hjob, hphase, rfl⟩ := step_write hstep
    have hholds : Holds tokenHash job = decide (held = tokenHash) := by rw [Holds, hphase]
    show uses tokenHash ((w.take i).stored _) ≤ _
    rw [uses_stored, uses_take hjob, hholds]
    simp only [decide_eq_true_eq]
    exact Nat.le_refl _
  | fail i =>
    obtain rfl := step_fail hstep
    exact uses_take_le w i

/-- Every reset was done with a token that fits a hash stored for the user and not past its hour when it was
checked; the password is that of the last one, and the version counts them among the revocations. The resets
by a hash that has been used once are those done by then and at most those of the requests that held it. -/
theorem passwordResets {start : ResetWorld} {events : List ResetEvent} (hstart : Start start)
    (hreach : Reach (step b) (Salted b) (fun w => w = start) w) (hsalted : RunOk (step b) (Salted b) w events)
    (hrun : run (step b) w events = some w') :
    Accounted b start.row.version start.row.passwordHash w ∧ ∀ done ∈ w.resets,
      w'.resets.countP (fun later => later.tokenHash = done.tokenHash) ≤
        w.resets.countP (fun later => later.tokenHash = done.tokenHash) + w.jobs.countP (Holds done.tokenHash) := by
  have haccounted : Accounted b start.row.version start.row.passwordHash w := by
    apply hreach.invariant
    · rintro _ rfl
      exact .start hstart
    · exact fun _ _ _ haccounted hsalted hstep => haccounted.step hsalted hstep
  refine ⟨haccounted, fun done hdone => ?_⟩
  let inv (t : ResetWorld) : Prop := Accounted b start.row.version start.row.passwordHash t ∧ done ∈ t.resets ∧
    uses done.tokenHash t ≤ uses done.tokenHash w
  have hkept := run_invariant inv ?_ ⟨haccounted, hdone, Nat.le_refl _⟩ hsalted hrun
  · exact Nat.le_trans (Nat.le_add_right _ _) hkept.2.2
  · rintro t event t' ⟨haccounted, hdone, hle⟩ hsalted hstep
    exact ⟨haccounted.step hsalted hstep, resets_step hstep done hdone,
      Nat.le_trans (uses_step (haccounted.spent done hdone) hstep) hle⟩

/-- Two requests have read the row before either writes: the token resets the password twice. -/
theorem passwordResets_twice : ∃ (b : BcryptFunctions) (w w' : ResetWorld),
    w.resets.length = 1 ∧ w'.resets.length = 2 ∧ w.jobs.length = 1 ∧ Accounted b 1 "first" w ∧
    ∀ done ∈ w.resets, w'.resets.countP (fun later => later.tokenHash = done.tokenHash) ≤
        w.resets.countP (fun later => later.tokenHash = done.tokenHash) + w.jobs.countP (Holds done.tokenHash) := by
  let b : BcryptFunctions :=
    ⟨fun text salt => "$2b$" ++ Nat.repr salt ++ text, fun text hash => text.toList.isSuffixOf hash.toList⟩
  let start : ResetWorld := ⟨0, ⟨"first", none, none, some 1⟩, [], [], [], [], 0⟩
  let before : List ResetEvent := [.forgot "f3a9" 10 0, .ask "f3a9" "second", .ask "f3a9" "third", .read 0, .read 0,
    .check 0, .check 0, .write 0 11 true]
  have hbefore : RunOk (step b) (Salted b) start before := by decide +kernel
  obtain ⟨w, hw, htest⟩ := exists_of_run_any (step b) start before
    (fun w => decide (w.resets.length = 1 ∧ w.jobs.length = 1)) (by decide +kernel)
  obtain ⟨hresets, hjobs⟩ := of_decide_eq_true htest
  have hreach : Reach (step b) (Salted b) (fun w => w = start) w := Reach.of_run (.init rfl) hbefore hw
  obtain ⟨w', hboth, hend⟩ := exists_of_run_any (step b) start (before ++ [.write 0 12 true])
    (fun w => decide (w.resets.length = 2)) (by decide +kernel)
  rw [run_append, hw] at hboth
  have hafter : RunOk (step b) (Salted b) w [.write 0 12 true] := ⟨trivial, fun _ _ => trivial⟩
  exact ⟨b, w, w', hresets, of_decide_eq_true hend, hjobs,
    passwordResets ⟨rfl, rfl, rfl, rfl, rfl⟩ hreach hafter hboth⟩

end ResetWorld

end PropFirm
