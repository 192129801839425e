import Mathlib
import PropFirm.Lib.Table
import PropFirm.Lib.Transition

/-!
# The email queue

A worker recovers the jobs that have been sending for too long, claims a batch of the jobs that are due and
works through it: each mail is sent and the job marked by its id. Each of these is a statement of its own,
and any number of workers is at it.

Every statement carries the time that it reads, the database's or the worker's, and no order of these times
is assumed. A claim is logged when it is made; the log is not the code's.
-/

namespace PropFirm

open Transition

def EMAIL_RETRY_DELAYS_MS : List Nat := [60000, 5 * 60000, 15 * 60000, 60 * 60000]

def EMAIL_SENDING_STALE_MS : Nat := 15 * 60000

def computeRetryDelayMs (attemptCount : Nat) : Option Nat := EMAIL_RETRY_DELAYS_MS[attemptCount - 1]?

inductive EmailStatus
  | pending | sending | retry | sent | dead
  deriving DecidableEq

namespace EmailStatus

def Claimable (s : EmailStatus) : Prop := s = pending ∨ s = retry

def Final (s : EmailStatus) : Prop := s = sent ∨ s = dead

instance : DecidablePred Claimable := fun _ => inferInstanceAs (Decidable (_ ∨ _))

instance : DecidablePred Final := fun _ => inferInstanceAs (Decidable (_ ∨ _))

theorem Final.not_claimable {s : EmailStatus} (hfinal : s.Final) : ¬ s.Claimable := by
  rcases hfinal with rfl | rfl
  all_goals decide

end EmailStatus

structure EmailJob where
  id : Nat
  status : EmailStatus
  attemptCount : Nat
  scheduledFor : Nat
  lastAttemptAt : Option Nat
  lastError : Option String
  deriving DecidableEq

instance : Keyed EmailJob Nat := ⟨EmailJob.id⟩

namespace EmailJob

def stale (now : Nat) (j : EmailJob) : Bool :=
  j.status = .sending && j.lastAttemptAt.any fun last => last + EMAIL_SENDING_STALE_MS ≤ now

/-- The job is due and no other transaction has it locked. -/
def due (now : Nat) (locked : List Nat) (j : EmailJob) : Bool :=
  decide j.status.Claimable && decide (j.scheduledFor ≤ now) && j.id ∉ locked

def NotAfter (a b : EmailJob) : Prop :=
  a.scheduledFor < b.scheduledFor ∨ a.scheduledFor = b.scheduledFor ∧ a.id ≤ b.id

instance : DecidableRel NotAfter := fun _ _ => inferInstanceAs (Decidable (_ ∨ _))

def recovered : Table.Rewrite EmailJob where
  apply j :=
    { j with status := .retry, lastError := some (j.lastError.getD "Recovered stale sending job") }
  key_apply _ := rfl

def claimed (now : Nat) : Table.Rewrite EmailJob where
  apply j :=
    { j with status := .sending, attemptCount := j.attemptCount + 1, lastAttemptAt := some now }
  key_apply _ := rfl

def markedSent : Table.Rewrite EmailJob where
  apply j := { j with status := .sent, lastError := none }
  key_apply _ := rfl

/-- The attempts are those that the claim returned. -/
def markedRetry (attemptCount now : Nat) (error : String) : Table.Rewrite EmailJob where
  apply j :=
    { j with
      status := if (computeRetryDelayMs attemptCount).isSome then .retry else .dead
      lastError := some error
      scheduledFor := ((computeRetryDelayMs attemptCount).map (now + ·)).getD j.scheduledFor }
  key_apply _ := rfl

end EmailJob

/-- A claim as its worker knows it: the job and the attempts that the claim returned. -/
structure SendClaim where
  jobId : Nat
  attempt : Nat
  deriving DecidableEq

/-- A worker at a batch; `caught` when the current mail or its mark has thrown. -/
structure SendBatch where
  id : Nat
  current : SendClaim
  caught : Bool
  rest : List SendClaim

instance : Keyed SendBatch Nat := ⟨SendBatch.id⟩

namespace SendBatch

def jobIds (b : SendBatch) : List Nat := b.current.jobId :: b.rest.map SendClaim.jobId

def catches : Table.Rewrite SendBatch where
  apply b := { b with caught := true }
  key_apply _ := rfl

def takes (current : SendClaim) (rest : List SendClaim) : Table.Rewrite SendBatch where
  apply b := { b with current := current, caught := false, rest := rest }
  key_apply _ := rfl

end SendBatch

structure EmailWorld where
  jobs : Table EmailJob
  batches : Table SendBatch
  claimed : List SendClaim

inductive EmailAction
  | enqueue (id scheduledFor : Nat)
  | recover (now : Nat)
  | claim (batch now : Nat) (limit : ℤ) (locked : List Nat)
  | throws (batch : Nat)
  | markSent (batch : Nat) (reply : Table.Reply)
  | markRetry (batch now : Nat) (error : String) (reply : Table.Reply)
  | crash (batch : Nat)

/-- A limit that is no number or zero is ten. -/
def safeLimit (limit : ℤ) : Nat := (max 1 (min (if limit = 0 then 10 else limit) 100)).toNat

namespace EmailWorld

variable (w : EmailWorld)

def picked (now : Nat) (limit : ℤ) (locked : List Nat) : List EmailJob :=
  ((w.jobs.rows.filter (EmailJob.due now locked)).insertionSort EmailJob.NotAfter).take (safeLimit limit)

/-- The second statement of `claimPendingEmailJobs`. -/
def claim (batch now : Nat) (limit : ℤ) (locked : List Nat) : Option EmailWorld :=
  let jobs := w.picked now limit locked
  match jobs.map fun j => SendClaim.mk j.id (j.attemptCount + 1) with
  | [] => some w
  | current :: rest =>
    (w.batches.insert? ⟨batch, current, false, rest⟩).map fun batches =>
      { jobs := w.jobs.update (fun j => j.id ∈ jobs.map EmailJob.id) (EmailJob.claimed now)
        batches := batches
        claimed := current :: rest ++ w.claimed }

/-- The worker goes on to the next job of the batch. -/
def advance (b : SendBatch) : Table SendBatch :=
  match b.rest with
  | [] => w.batches.erase b.id
  | current :: rest => w.batches.updateAt b.id (SendBatch.takes current rest)

/-- An error in the `try` leads to the `catch`, and one in the `catch` ends the batch. -/
def mark (b : SendBatch) (f : Table.Rewrite EmailJob) (reply : Table.Reply) : EmailWorld where
  jobs := if reply = .failed then w.jobs else w.jobs.updateAt b.current.jobId f
  batches :=
    if reply = .ok then w.advance b
    else if b.caught then w.batches.erase b.id
    else w.batches.updateAt b.id SendBatch.catches
  claimed := w.claimed

def step (w : EmailWorld) : EmailAction → Option EmailWorld
  | .enqueue id scheduledFor =>
    (w.jobs.insert? ⟨id, .pending, 0, scheduledFor, none, none⟩).map fun jobs => { w with jobs := jobs }
  | .recover now => some { w with jobs := w.jobs.update (EmailJob.stale now) EmailJob.recovered }
  | .claim batch now limit locked => w.claim batch now limit locked
  | .throws batch => do
    let b ← w.batches.find? batch
    if b.caught then none else some { w with batches := w.batches.updateAt b.id SendBatch.catches }
  | .markSent batch reply => do
    let b ← w.batches.find? batch
    if b.caught then none else some (w.mark b EmailJob.markedSent reply)
  | .markRetry batch now error reply => do
    let b ← w.batches.find? batch
    some (w.mark b (EmailJob.markedRetry b.current.attempt now error) reply)
  | .crash batch => do
    let b ← w.batches.find? batch
    some { w with batches := w.batches.erase b.id }

/-! ### What a run keeps to -/

def claimsOf (id : Nat) : Nat := (w.claimed.map SendClaim.jobId).count id

def latestClaim (id : Nat) : Option SendClaim := w.claimed.find? fun c => c.jobId = id

/-- The claim whose outcome an action reports. -/
def reports : EmailAction → Option SendClaim
  | .markSent batch _ | .markRetry batch _ _ _ => (w.batches.find? batch).map SendBatch.current
  | .enqueue .. | .recover _ | .claim .. | .throws _ | .crash _ => none

/-- A job that is sent or dead stays so, and a report changes no job but by its latest claim. -/
structure StepSound (w : EmailWorld) (a : EmailAction) (w' : EmailWorld) : Prop where
  final : ∀ id j, w.jobs.find? id = some j → j.status.Final →
    w'.jobs.HasAt (fun j' => j'.status = j.status) id
  latest : ∀ c, w.reports a = some c → ∀ id, w'.jobs.find? id ≠ w.jobs.find? id → w.latestClaim id = some c

def AttemptsBounded : Prop := ∀ id, w.claimsOf id ≤ EMAIL_RETRY_DELAYS_MS.length + 1

/-- Nobody claims a job that a worker still has in its batch, none is recovered that has made its last
attempt, and no mark as sent is made and reported as failed. -/
def Orderly (w : EmailWorld) : EmailAction → Prop
  | .recover now => ∀ j ∈ w.jobs.rows, j.stale now → j.attemptCount ≤ EMAIL_RETRY_DELAYS_MS.length
  | .claim _ now limit locked => ∀ j ∈ w.picked now limit locked, ∀ b ∈ w.batches.rows, j.id ∉ b.jobIds
  | .markSent _ reply => reply ≠ .lost
  | .enqueue .. | .throws _ | .markRetry .. | .crash _ => True

instance (w : EmailWorld) : DecidablePred w.Orderly
  | .recover _ | .claim .. => inferInstanceAs (Decidable (∀ j ∈ _, _))
  | .markSent .. => inferInstanceAs (Decidable (_ ≠ _))
  | .enqueue .. | .throws _ | .markRetry .. | .crash _ => isTrue trivial

/-! ### Claims that are held -/

/-- What the job of a held claim is like; a claim whose worker has caught an error may have been marked
dead already. -/
def Keeps (c : SendClaim) (caught : Bool) (j : EmailJob) : Prop :=
  j.attemptCount = c.attempt ∧ (j.status = .sending ∨ j.status = .retry ∨
    caught = true ∧ j.status = .dead ∧ computeRetryDelayMs c.attempt = none)

def Holds (caught : Bool) (c : SendClaim) : Prop :=
  w.latestClaim c.jobId = some c ∧ w.jobs.HasAt (Keeps c caught) c.jobId

structure Inv : Prop where
  counted : ∀ id, w.claimsOf id = ((w.jobs.find? id).map EmailJob.attemptCount).getD 0
  bounded : ∀ id j, w.jobs.find? id = some j → j.attemptCount ≤ EMAIL_RETRY_DELAYS_MS.length + 1
  left : ∀ id j, w.jobs.find? id = some j → j.status.Claimable →
    j.attemptCount ≤ EMAIL_RETRY_DELAYS_MS.length
  current : ∀ k b, w.batches.find? k = some b → w.Holds b.caught b.current
  rest : ∀ k b, w.batches.find? k = some b → ∀ c ∈ b.rest, w.Holds false c
  nodup : ∀ k b, w.batches.find? k = some b → b.jobIds.Nodup
  apart : ∀ k b k' b', w.batches.find? k = some b → w.batches.find? k' = some b' → k ≠ k' →
    ∀ id ∈ b.jobIds, id ∉ b'.jobIds

variable {w}
variable {w' : EmailWorld} {a : EmailAction} {b : SendBatch} {c : SendClaim} {caught : Bool}

theorem Keeps.of_caught {j : EmailJob} (hkeeps : Keeps c caught j) : Keeps c true j :=
  ⟨hkeeps.1, hkeeps.2.imp_right (Or.imp_right fun hdead => ⟨rfl, hdead.2⟩)⟩

/-- What is claimed and the jobs of the claim stay the same. -/
theorem Holds.frame (hholds : w.Holds caught c) (hclaims : w'.latestClaim c.jobId = w.latestClaim c.jobId)
    (hjob : w'.jobs.find? c.jobId = w.jobs.find? c.jobId) : w'.Holds caught c := by
  refine ⟨hclaims.trans hholds.1, ?_⟩
  obtain ⟨j, hrow, hkeeps⟩ := hholds.2
  exact ⟨j, hjob.trans hrow, hkeeps⟩

/-- The batch that is left of another one: the current claim is done with, or still held. -/
structure Follows (jobs : Table EmailJob) (b b' : SendBatch) : Prop where
  ids : b'.jobIds.Sublist b.jobIds
  rest : b'.rest ⊆ b.rest
  current : b'.current ∈ b.rest ∧ b'.caught = false ∨
    b'.current = b.current ∧ jobs.HasAt (Keeps b.current b'.caught) b.current.jobId

/-- One batch goes on, and no job changes but the one it is at. -/
theorem Inv.settle (hinv : w.Inv) (hrow : w.batches.find? b.id = some b) {jobs : Table EmailJob}
    {batches : Table SendBatch} (hother : ∀ id ≠ b.current.jobId, jobs.find? id = w.jobs.find? id)
    (hself : ∀ j, w.jobs.find? b.current.jobId = some j → jobs.HasAt (fun j' =>
      j'.attemptCount = j.attemptCount ∧ (j'.status.Claimable →
        j.attemptCount ≤ EMAIL_RETRY_DELAYS_MS.length)) b.current.jobId)
    (hbatches : ∀ k b', batches.find? k = some b' →
      k ≠ b.id ∧ w.batches.find? k = some b' ∨ k = b.id ∧ Follows jobs b b') :
    Inv ⟨jobs, batches, w.claimed⟩ := by
  obtain ⟨-, j, hjob, -⟩ := hinv.current b.id b hrow
  obtain ⟨j', hjob', hattempts, hleft⟩ := hself j hjob
  have hframe {caught : Bool} {c : SendClaim} (hne : c.jobId ≠ b.current.jobId) (hholds : w.Holds caught c) :
      Holds ⟨jobs, batches, w.claimed⟩ caught c :=
    hholds.frame rfl (hother c.jobId hne)
  -- another batch has other jobs, and so has the rest of this one
  have hapart {k : Nat} {b' : SendBatch} (hk : k ≠ b.id) (hrow' : w.batches.find? k = some b') {id : Nat}
      (hid : id ∈ b'.jobIds) : id ≠ b.current.jobId := by
    rintro rfl
    exact hinv.apart k b' b.id b hrow' hrow hk _ hid List.mem_cons_self
  have hrest {c : SendClaim} (hc : c ∈ b.rest) : c.jobId ≠ b.current.jobId := by
    intro heq
    refine (List.nodup_cons.mp (hinv.nodup b.id b hrow)).1 ?_
    exact heq ▸ List.mem_map_of_mem hc
  constructor
  · intro id
    by_cases hid : id = b.current.jobId
    · subst hid
      refine (hinv.counted _).trans ?_
      simp only [hjob, hjob', Option.map_some, Option.getD_some, hattempts]
    · exact (hinv.counted id).trans (by rw [hother id hid])
  · intro id i hi
    by_cases hid : id = b.current.jobId
    · subst hid
      obtain rfl := Option.some.inj (hjob'.symm.trans hi)
      exact hattempts.le.trans (hinv.bounded _ j hjob)
    · exact hinv.bounded id i ((hother id hid).symm.trans hi)
  · intro id i hi hclaimable
    by_cases hid : id = b.current.jobId
    · subst hid
      obtain rfl := Option.some.inj (hjob'.symm.trans hi)
      exact hattempts.le.trans (hleft hclaimable)
    · exact hinv.left id i ((hother id hid).symm.trans hi) hclaimable
  · intro k b' hrow'
    rcases hbatches k b' hrow' with ⟨hk, hold⟩ | ⟨-, hfollows⟩
    · exact hframe (hapart hk hold List.mem_cons_self) (hinv.current k b' hold)
    · rcases hfollows.current with ⟨hmem, hcaught⟩ | ⟨heq, hkeeps⟩
      · exact hcaught ▸ hframe (hrest hmem) (hinv.rest b.id b hrow _ hmem)
      · rw [heq]
        exact ⟨(hinv.current b.id b hrow).1, hkeeps⟩
  · intro k b' hrow' c hc
    rcases hbatches k b' hrow' with ⟨hk, hold⟩ | ⟨-, hfollows⟩
    · refine hframe (hapart hk hold ?_) (hinv.rest k b' hold c hc)
      exact List.mem_cons_of_mem _ (List.mem_map_of_mem hc)
    · exact hframe (hrest (hfollows.rest hc)) (hinv.rest b.id b hrow c (hfollows.rest hc))
  · intro k b' hrow'
    rcases hbatches k b' hrow' with ⟨hk, hold⟩ | ⟨-, hfollows⟩
    · exact hinv.nodup k b' hold
    · exact (hinv.nodup b.id b hrow).sublist hfollows.ids
  · intro k b' k' b'' hrow' hrow'' hne id hid hid'
    rcases hbatches k b' hrow' with ⟨hk, hold⟩ | ⟨rfl, hfollows⟩
    · rcases hbatches k' b'' hrow'' with ⟨hk', hold'⟩ | ⟨rfl, hfollows'⟩
      · exact hinv.apart k b' k' b'' hold hold' hne id hid hid'
      · exact hinv.apart k b' b.id b hold hrow hne id hid (hfollows'.ids.subset hid')
    · rcases hbatches k' b'' hrow'' with ⟨hk', hold'⟩ | ⟨rfl, -⟩
      · exact hinv.apart b.id b k' b'' hrow hold' hne id (hfollows.ids.subset hid) hid'
      · exact hne rfl

theorem follows_of_erase {jobs : Table EmailJob} {k : Nat} {b' : SendBatch}
    (hrow' : (w.batches.erase b.id).find? k = some b') :
    k ≠ b.id ∧ w.batches.find? k = some b' ∨ k = b.id ∧ Follows jobs b b' :=
  .inl (Table.find?_erase_eq_some.mp hrow')

theorem follows_of_catches {jobs : Table EmailJob} (hrow : w.batches.find? b.id = some b)
    (hkeeps : jobs.HasAt (Keeps b.current true) b.current.jobId) {k : Nat} {b' : SendBatch}
    (hrow' : (w.batches.updateAt b.id SendBatch.catches).find? k = some b') :
    k ≠ b.id ∧ w.batches.find? k = some b' ∨ k = b.id ∧ Follows jobs b b' := by
  rw [Table.find?_updateAt] at hrow'
  by_cases hk : k = b.id
  · subst hk
    rw [hrow, Option.map_some, if_pos rfl] at hrow'
    obtain rfl := Option.some.inj hrow'
    exact .inr ⟨rfl, ⟨List.Sublist.refl _, List.Subset.refl _, .inr ⟨rfl, hkeeps⟩⟩⟩
  · simp only [if_neg hk, Option.map_id'] at hrow'
    exact .inl ⟨hk, hrow'⟩

theorem follows_of_advance {jobs : Table EmailJob} (hrow : w.batches.find? b.id = some b) {k : Nat}
    {b' : SendBatch} (hrow' : (w.advance b).find? k = some b') :
    k ≠ b.id ∧ w.batches.find? k = some b' ∨ k = b.id ∧ Follows jobs b b' := by
  unfold advance at hrow'
  split at hrow'
  next => exact follows_of_erase hrow'
  next current rest hrest =>
    rw [Table.find?_updateAt] at hrow'
    by_cases hk : k = b.id
    · subst hk
      rw [hrow, Option.map_some, if_pos rfl] at hrow'
      obtain rfl := Option.some.inj hrow'
      refine .inr ⟨rfl, ⟨?_, ?_, .inl ⟨?_, rfl⟩⟩⟩
      · rw [SendBatch.jobIds, SendBatch.jobIds, hrest]
        exact List.sublist_cons_self _ _
      · rw [hrest]
        exact List.subset_cons_self _ _
      · rw [hrest]
        exact List.mem_cons_self
    · simp only [if_neg hk, Option.map_id'] at hrow'
      exact .inl ⟨hk, hrow'⟩

/-- A worker marks the job it is at. -/
theorem Inv.mark (hinv : w.Inv) (hrow : w.batches.find? b.id = some b) {f : Table.Rewrite EmailJob}
    {reply : Table.Reply} (hattempts : ∀ j, (f.apply j).attemptCount = j.attemptCount)
    (hleft : ∀ j, j.attemptCount = b.current.attempt → (f.apply j).status.Claimable →
      j.attemptCount ≤ EMAIL_RETRY_DELAYS_MS.length)
    (hlost : reply = .lost → ∀ j, j.attemptCount = b.current.attempt → Keeps b.current true (f.apply j)) :
    (w.mark b f reply).Inv := by
  obtain ⟨-, j, hjob, hkeeps⟩ := hinv.current b.id b hrow
  have happlied : (w.jobs.updateAt b.current.jobId f).find? b.current.jobId = some (f.apply j) := by
    rw [Table.find?_updateAt, hjob, Option.map_some, if_pos rfl]
  apply hinv.settle hrow
  · intro id hid
    split
    · rfl
    · rw [Table.find?_updateAt]
      simp only [if_neg hid, Option.map_id']
  · intro j' hj'
    obtain rfl := Option.some.inj (hjob.symm.trans hj')
    split
    · exact ⟨j, hjob, rfl, hinv.left _ j hjob⟩
    · exact ⟨f.apply j, happlied, hattempts j, hleft j hkeeps.1⟩
  · intro k b' hrow'
    split at hrow'
    · exact follows_of_advance hrow hrow'
    rename_i hok
    split at hrow'
    · exact follows_of_erase hrow'
    refine follows_of_catches hrow ?_ hrow'
    split
    · exact ⟨j, hjob, hkeeps.of_caught⟩
    · rename_i hfailed
      refine ⟨f.apply j, happlied, hlost ?_ j hkeeps.1⟩
      cases reply with
      | ok => exact absurd rfl hok
      | lost => rfl
      | failed => exact absurd rfl hfailed

/-- A job with a delay left has made at most as many attempts as there are delays. -/
theorem le_of_computeRetryDelayMs {attemptCount : Nat} (hsome : (computeRetryDelayMs attemptCount).isSome) :
    attemptCount ≤ EMAIL_RETRY_DELAYS_MS.length := by
  obtain ⟨delayMs, hdelay⟩ := Option.isSome_iff_exists.mp hsome
  obtain ⟨hlt, -⟩ := List.getElem?_eq_some_iff.mp hdelay
  exact Nat.le_of_pred_lt hlt

theorem Inv.markSent (hinv : w.Inv) (hrow : w.batches.find? b.id = some b) {reply : Table.Reply}
    (hreply : reply ≠ .lost) : (w.mark b EmailJob.markedSent reply).Inv := by
  refine hinv.mark hrow (fun _ => rfl) (fun j _ hclaimable => ?_) fun hlost => absurd hlost hreply
  rcases hclaimable with h | h
  all_goals cases h

theorem Inv.markRetry (hinv : w.Inv) (hrow : w.batches.find? b.id = some b) {now : Nat} {error : String}
    {reply : Table.Reply} :
    (w.mark b (EmailJob.markedRetry b.current.attempt now error) reply).Inv := by
  apply hinv.mark hrow
  · exact fun _ => rfl
  · intro j hattempt hclaimable
    rw [hattempt]
    refine le_of_computeRetryDelayMs (of_not_not fun hnone => ?_)
    rw [EmailJob.markedRetry, if_neg hnone] at hclaimable
    rcases hclaimable with h | h
    all_goals cases h
  · intro _ j hattempt
    refine ⟨hattempt, .inr ?_⟩
    by_cases hsome : (computeRetryDelayMs b.current.attempt).isSome
    · exact .inl (if_pos hsome)
    · exact .inr ⟨rfl, if_neg hsome, Option.not_isSome_iff_eq_none.mp hsome⟩

/-! ### Claiming, recovering and enqueueing -/

theorem mem_picked {now : Nat} {limit : ℤ} {locked : List Nat} {j : EmailJob}
    (hmem : j ∈ w.picked now limit locked) : j ∈ w.jobs.rows ∧ j.status.Claimable := by
  have hsorted := List.mem_of_mem_take hmem
  rw [List.mem_insertionSort, List.mem_filter] at hsorted
  refine ⟨hsorted.1, ?_⟩
  have hdue := hsorted.2
  simp only [EmailJob.due, Bool.and_eq_true, decide_eq_true_eq] at hdue
  exact hdue.1.1

theorem nodup_picked (w : EmailWorld) (now : Nat) (limit : ℤ) (locked : List Nat) :
    ((w.picked now limit locked).map EmailJob.id).Nodup := by
  have hrows : ((w.jobs.rows.filter (EmailJob.due now locked)).map EmailJob.id).Nodup :=
    w.jobs.nodup.sublist (List.filter_sublist.map EmailJob.id)
  have hsorted := ((List.perm_insertionSort EmailJob.NotAfter
    (w.jobs.rows.filter (EmailJob.due now locked))).map EmailJob.id).nodup_iff.mpr hrows
  exact hsorted.sublist ((List.take_sublist _ _).map EmailJob.id)

/-- A job is claimed when it is picked. -/
theorem mem_picked_of_id {now : Nat} {limit : ℤ} {locked : List Nat} {id : Nat} {j : EmailJob}
    (hrow : w.jobs.find? id = some j) (hid : id ∈ (w.picked now limit locked).map EmailJob.id) :
    j ∈ w.picked now limit locked := by
  obtain ⟨i, hi, rfl⟩ := List.mem_map.mp hid
  have hfound : w.jobs.find? i.id = some i := Table.find?_eq_some.mpr ⟨(mem_picked hi).1, rfl⟩
  exact Option.some.inj (hrow.symm.trans hfound) ▸ hi

theorem Inv.recover (hinv : w.Inv) {now : Nat}
    (hok : ∀ j ∈ w.jobs.rows, j.stale now → j.attemptCount ≤ EMAIL_RETRY_DELAYS_MS.length) :
    Inv { w with jobs := w.jobs.update (EmailJob.stale now) EmailJob.recovered } := by
  have hfind (id : Nat) := Table.find?_update w.jobs (EmailJob.stale now) EmailJob.recovered id
  have hattempts (j : EmailJob) :
      (if j.stale now then EmailJob.recovered.apply j else j).attemptCount = j.attemptCount := by
    split
    all_goals rfl
  have hholds {caught : Bool} {c : SendClaim} (hc : w.Holds caught c) :
      Holds { w with jobs := w.jobs.update (EmailJob.stale now) EmailJob.recovered } caught c := by
    obtain ⟨j, hrow, hattempt, hstatus⟩ := hc.2
    refine ⟨hc.1, _, (hfind c.jobId).trans (by rw [hrow, Option.map_some]), (hattempts j).trans hattempt, ?_⟩
    split
    · exact .inr (.inl rfl)
    · exact hstatus
  refine ⟨fun id => ?_, fun id j' hrow => ?_, fun id j' hrow hclaimable => ?_,
    fun k b hrow => hholds (hinv.current k b hrow), fun k b hrow c hc => hholds (hinv.rest k b hrow c hc),
    hinv.nodup, hinv.apart⟩
  · refine (hinv.counted id).trans ?_
    simp only [hfind, Option.map_map]
    exact congrArg (Option.getD · 0) (Option.map_congr fun j _ => (hattempts j).symm)
  · obtain ⟨j, hj, rfl⟩ := Option.map_eq_some_iff.mp ((hfind id).symm.trans hrow)
    exact (hattempts j).le.trans (hinv.bounded id j hj)
  · obtain ⟨j, hj, rfl⟩ := Option.map_eq_some_iff.mp ((hfind id).symm.trans hrow)
    refine (hattempts j).le.trans ?_
    split at hclaimable
    · rename_i hstale
      exact hok j (Table.find?_eq_some.mp hj).1 hstale
    · exact hinv.left id j hj hclaimable

theorem Inv.enqueue (hinv : w.Inv) {id scheduledFor : Nat} {jobs : Table EmailJob}
    (hinsert : w.jobs.insert? ⟨id, .pending, 0, scheduledFor, none, none⟩ = some jobs) :
    Inv { w with jobs := jobs } := by
  have hfresh : w.jobs.find? id = none := Table.find?_eq_none.mpr (Table.insert?_eq_some hinsert).1
  have hfind (k : Nat) := Table.find?_of_insert? hinsert k
  have hholds {caught : Bool} {c : SendClaim} (hc : w.Holds caught c) :
      Holds { w with jobs := jobs } caught c := by
    refine hc.frame rfl ((hfind c.jobId).trans (if_neg ?_))
    rintro rfl
    obtain ⟨j, hrow, -⟩ := hc.2
    cases hfresh.symm.trans hrow
  refine ⟨fun k => ?_, fun k j hrow => ?_, fun k j hrow hclaimable => ?_,
    fun k b hrow => hholds (hinv.current k b hrow), fun k b hrow c hc => hholds (hinv.rest k b hrow c hc),
    hinv.nodup, hinv.apart⟩
  · refine (hinv.counted k).trans ?_
    rw [hfind k]
    split
    · rename_i hk
      obtain rfl : id = k := hk
      rw [hfresh]
      rfl
    · rfl
  all_goals
    rw [hfind k] at hrow
    split at hrow
  · obtain rfl := Option.some.inj hrow
    exact Nat.zero_le _
  · exact hinv.bounded k j hrow
  · obtain rfl := Option.some.inj hrow
    exact Nat.zero_le _
  · exact hinv.left k j hrow hclaimable

/-- What the claims of a batch do to the jobs and to the log. -/
structure Claims (w : EmailWorld) (now : Nat) (picked : List EmailJob) (w' : EmailWorld) : Prop where
  jobs : w'.jobs = w.jobs.update (fun j => j.id ∈ picked.map EmailJob.id) (EmailJob.claimed now)
  claimed : w'.claimed = (picked.map fun j => SendClaim.mk j.id (j.attemptCount + 1)) ++ w.claimed

namespace Claims

variable {now : Nat} {picked : List EmailJob}

theorem map_jobId (picked : List EmailJob) :
    (picked.map fun j => SendClaim.mk j.id (j.attemptCount + 1)).map SendClaim.jobId =
      picked.map EmailJob.id := by
  rw [List.map_map]
  rfl

theorem find?_of_mem (h : Claims w now picked w') {id : Nat} {j : EmailJob}
    (hrow : w.jobs.find? id = some j) (hid : id ∈ picked.map EmailJob.id) :
    w'.jobs.find? id = some ((EmailJob.claimed now).apply j) := by
  obtain rfl : j.id = id := (Table.find?_eq_some.mp hrow).2
  rw [h.jobs, Table.find?_update, hrow, Option.map_some, if_pos (decide_eq_true hid)]

theorem find?_of_not_mem (h : Claims w now picked w') {id : Nat} (hid : id ∉ picked.map EmailJob.id) :
    w'.jobs.find? id = w.jobs.find? id := by
  rw [h.jobs, Table.find?_update]
  cases hrow : w.jobs.find? id with
  | none => rfl
  | some j =>
    obtain rfl : j.id = id := (Table.find?_eq_some.mp hrow).2
    rw [Option.map_some, if_neg (by simpa using hid)]

theorem latestClaim_of_mem (h : Claims w now picked w') (hnodup : (picked.map EmailJob.id).Nodup)
    {j : EmailJob} (hmem : j ∈ picked) : w'.latestClaim j.id = some ⟨j.id, j.attemptCount + 1⟩ := by
  rw [latestClaim, h.claimed, List.find?_append]
  have hfound : (picked.map fun j => SendClaim.mk j.id (j.attemptCount + 1)).find? (fun c => c.jobId = j.id)
      = some ⟨j.id, j.attemptCount + 1⟩ :=
    (List.find?_key_eq_some (f := SendClaim.jobId) ((map_jobId picked).symm ▸ hnodup)).mpr
      ⟨List.mem_map_of_mem hmem, rfl⟩
  rw [hfound, Option.some_or]

theorem latestClaim_of_not_mem (h : Claims w now picked w') {id : Nat}
    (hid : id ∉ picked.map EmailJob.id) : w'.latestClaim id = w.latestClaim id := by
  rw [latestClaim, h.claimed, List.find?_append]
  have hnone : (picked.map fun j => SendClaim.mk j.id (j.attemptCount + 1)).find? (fun c => c.jobId = id)
      = none := by
    rw [List.find?_eq_none]
    intro c hc hjob
    refine hid ?_
    rw [← map_jobId]
    exact List.mem_map.mpr ⟨c, hc, of_decide_eq_true hjob⟩
  rw [hnone, Option.none_or, latestClaim]

theorem claimsOf (h : Claims w now picked w') (hnodup : (picked.map EmailJob.id).Nodup) (id : Nat) :
    w'.claimsOf id = (if id ∈ picked.map EmailJob.id then 1 else 0) + w.claimsOf id := by
  rw [EmailWorld.claimsOf, h.claimed, List.map_append, List.count_append, map_jobId, hnodup.count]
  rfl

end Claims

/-- Nobody holds a job that is claimed, and the claimed ones go to one new batch. -/
theorem Inv.claim (hinv : w.Inv) {now batch : Nat} {limit : ℤ} {locked : List Nat}
    (hok : ∀ j ∈ w.picked now limit locked, ∀ b ∈ w.batches.rows, j.id ∉ b.jobIds)
    (hclaim : w.claim batch now limit locked = some w') : w'.Inv := by
  unfold EmailWorld.claim at hclaim
  dsimp only at hclaim
  split at hclaim
  · obtain rfl := Option.some.inj hclaim
    exact hinv
  rename_i current rest hcons
  obtain ⟨batches, hinsert, rfl⟩ := Option.map_eq_some_iff.mp hclaim
  set picked := w.picked now limit locked with hpicked
  set w' : EmailWorld := ⟨w.jobs.update (fun j => j.id ∈ picked.map EmailJob.id) (EmailJob.claimed now),
    batches, current :: rest ++ w.claimed⟩ with hw'
  have hclaims : Claims w now picked w' := ⟨rfl, by rw [hcons]⟩
  have hnodup : (picked.map EmailJob.id).Nodup := nodup_picked w now limit locked
  have hnew : current.jobId :: rest.map SendClaim.jobId = picked.map EmailJob.id := by
    rw [← Claims.map_jobId, hcons, List.map_cons]
  have hnewHolds {c : SendClaim} (hc : c ∈ current :: rest) : w'.Holds false c := by
    rw [← hcons] at hc
    obtain ⟨j, hj, rfl⟩ := List.mem_map.mp hc
    refine ⟨hclaims.latestClaim_of_mem hnodup hj, (EmailJob.claimed now).apply j, ?_, rfl, .inl rfl⟩
    refine hclaims.find?_of_mem ?_ (List.mem_map_of_mem hj)
    exact Table.find?_eq_some.mpr ⟨(mem_picked hj).1, rfl⟩
  have hfree {k : Nat} {b : SendBatch} (hrow : w.batches.find? k = some b) {id : Nat}
      (hid : id ∈ b.jobIds) : id ∉ picked.map EmailJob.id := by
    intro hmem
    obtain ⟨j, hj, rfl⟩ := List.mem_map.mp hmem
    exact hok j hj b (Table.find?_eq_some.mp hrow).1 hid
  have holdHolds {caught : Bool} {c : SendClaim} (hid : c.jobId ∉ picked.map EmailJob.id)
      (hc : w.Holds caught c) : w'.Holds caught c :=
    hc.frame (hclaims.latestClaim_of_not_mem hid) (hclaims.find?_of_not_mem hid)
  have hrows {k : Nat} {b : SendBatch} (hrow : batches.find? k = some b) :
      k = batch ∧ b = ⟨batch, current, false, rest⟩ ∨ k ≠ batch ∧ w.batches.find? k = some b := by
    rw [Table.find?_of_insert? hinsert] at hrow
    split at hrow
    · rename_i hk
      exact .inl ⟨Eq.symm hk, (Option.some.inj hrow).symm⟩
    · rename_i hk
      exact .inr ⟨Ne.symm hk, hrow⟩
  constructor
  · intro id
    rw [hclaims.claimsOf hnodup]
    split
    · rename_i hid
      obtain ⟨j, hj, rfl⟩ := List.mem_map.mp hid
      have hrow : w.jobs.find? j.id = some j := Table.find?_eq_some.mpr ⟨(mem_picked hj).1, rfl⟩
      rw [hclaims.find?_of_mem hrow hid, hinv.counted, hrow]
      exact Nat.add_comm _ _
    · rename_i hid
      rw [hclaims.find?_of_not_mem hid, Nat.zero_add]
      exact hinv.counted id
  · intro id j' hrow'
    by_cases hid : id ∈ picked.map EmailJob.id
    · obtain ⟨j, hj, rfl⟩ := List.mem_map.mp hid
      have hrow : w.jobs.find? j.id = some j := Table.find?_eq_some.mpr ⟨(mem_picked hj).1, rfl⟩
      obtain rfl := Option.some.inj ((hclaims.find?_of_mem hrow hid).symm.trans hrow')
      exact Nat.succ_le_succ (hinv.left j.id j hrow (mem_picked hj).2)
    · exact hinv.bounded id j' ((hclaims.find?_of_not_mem hid).symm.trans hrow')
  · intro id j' hrow' hclaimable
    by_cases hid : id ∈ picked.map EmailJob.id
    · obtain ⟨j, hj, rfl⟩ := List.mem_map.mp hid
      have hrow : w.jobs.find? j.id = some j := Table.find?_eq_some.mpr ⟨(mem_picked hj).1, rfl⟩
      obtain rfl := Option.some.inj ((hclaims.find?_of_mem hrow hid).symm.trans hrow')
      rcases hclaimable with h | h
      all_goals cases h
    · exact hinv.left id j' ((hclaims.find?_of_not_mem hid).symm.trans hrow') hclaimable
  · intro k b hrow
    rcases hrows hrow with ⟨-, rfl⟩ | ⟨-, hold⟩
    · exact hnewHolds List.mem_cons_self
    · exact holdHolds (hfree hold List.mem_cons_self) (hinv.current k b hold)
  · intro k b hrow c hc
    rcases hrows hrow with ⟨-, rfl⟩ | ⟨-, hold⟩
    · exact hnewHolds (List.mem_cons_of_mem _ hc)
    · refine holdHolds (hfree hold ?_) (hinv.rest k b hold c hc)
      exact List.mem_cons_of_mem _ (List.mem_map_of_mem hc)
  · intro k b hrow
    rcases hrows hrow with ⟨-, rfl⟩ | ⟨-, hold⟩
    · exact (congrArg List.Nodup hnew).mpr hnodup
    · exact hinv.nodup k b hold
  · intro k b k' b' hrow hrow' hne id hid hid'
    rcases hrows hrow with ⟨rfl, rfl⟩ | ⟨-, hold⟩
    · rcases hrows hrow' with ⟨hk', -⟩ | ⟨-, hold'⟩
      · exact hne hk'.symm
      · exact hfree hold' hid' (hnew ▸ hid)
    · rcases hrows hrow' with ⟨-, rfl⟩ | ⟨-, hold'⟩
      · exact hfree hold hid (hnew ▸ hid')
      · exact hinv.apart k b k' b' hold hold' hne id hid hid'

theorem Inv.step (hinv : w.Inv) (hok : w.Orderly a) (hstep : w.step a = some w') : w'.Inv := by
  cases a with
  | enqueue id scheduledFor =>
    obtain ⟨jobs, hinsert, rfl⟩ := Option.map_eq_some_iff.mp hstep
    exact hinv.enqueue hinsert
  | recover now =>
    obtain rfl := Option.some.inj hstep
    exact hinv.recover hok
  | claim batch now limit locked => exact hinv.claim hok hstep
  | throws batch =>
    obtain ⟨b, hrow, hstep⟩ := Option.bind_eq_some_iff.mp hstep
    split at hstep
    · cases hstep
    obtain rfl := Option.some.inj hstep
    obtain rfl : b.id = batch := (Table.find?_eq_some.mp hrow).2
    obtain ⟨-, j, hjob, hkeeps⟩ := hinv.current b.id b hrow
    refine hinv.settle hrow (fun _ _ => rfl) (fun j hj => ⟨j, hj, rfl, hinv.left _ j hj⟩) fun k b' hrow' => ?_
    exact follows_of_catches hrow ⟨j, hjob, hkeeps.of_caught⟩ hrow'
  | markSent batch reply =>
    obtain ⟨b, hrow, hstep⟩ := Option.bind_eq_some_iff.mp hstep
    split at hstep
    · cases hstep
    obtain rfl := Option.some.inj hstep
    obtain rfl : b.id = batch := (Table.find?_eq_some.mp hrow).2
    exact hinv.markSent hrow hok
  | markRetry batch now error reply =>
    obtain ⟨b, hrow, hstep⟩ := Option.bind_eq_some_iff.mp hstep
    obtain rfl := Option.some.inj hstep
    obtain rfl : b.id = batch := (Table.find?_eq_some.mp hrow).2
    exact hinv.markRetry hrow
  | crash batch =>
    obtain ⟨b, hrow, hstep⟩ := Option.bind_eq_some_iff.mp hstep
    obtain rfl := Option.some.inj hstep
    obtain rfl : b.id = batch := (Table.find?_eq_some.mp hrow).2
    refine hinv.settle hrow (fun _ _ => rfl) (fun j hj => ⟨j, hj, rfl, hinv.left _ j hj⟩) fun k b' hrow' => ?_
    exact follows_of_erase hrow'

/-! ### Every step of an orderly run -/

theorem find?_mark_other (w : EmailWorld) (b : SendBatch) (f : Table.Rewrite EmailJob) (reply : Table.Reply)
    {id : Nat} (hid : id ≠ b.current.jobId) : (w.mark b f reply).jobs.find? id = w.jobs.find? id := by
  unfold mark
  dsimp only
  split
  · rfl
  · rw [Table.find?_updateAt]
    simp only [if_neg hid, Option.map_id']

theorem Inv.stepSound_mark (hinv : w.Inv) (hrow : w.batches.find? b.id = some b) {f : Table.Rewrite EmailJob}
    {reply : Table.Reply} (hreports : ∀ c, w.reports a = some c → c = b.current)
    (hfinal : ∀ j, Keeps b.current b.caught j → j.status.Final → (f.apply j).status = j.status) :
    w.StepSound a (w.mark b f reply) := by
  obtain ⟨hlatest, i, hi, hkeeps⟩ := hinv.current b.id b hrow
  constructor
  · intro id j hj hstatus
    by_cases hid : id = b.current.jobId
    · subst hid
      obtain rfl := Option.some.inj (hi.symm.trans hj)
      unfold EmailWorld.mark
      dsimp only
      split
      · exact ⟨i, hi, rfl⟩
      · exact (Table.hasAt_updateAt hi).mpr (.inl ⟨rfl, hfinal i hkeeps hstatus⟩)
    · exact ⟨j, (find?_mark_other w b f reply hid).trans hj, rfl⟩
  · intro c hc id hchanged
    obtain rfl := hreports c hc
    by_cases hid : id = b.current.jobId
    · exact hid ▸ hlatest
    · exact absurd (find?_mark_other w b f reply hid) hchanged

theorem find?_claim_of_final {now batch : Nat} {limit : ℤ} {locked : List Nat} {id : Nat} {j : EmailJob}
    (hclaim : w.claim batch now limit locked = some w') (hrow : w.jobs.find? id = some j)
    (hfinal : j.status.Final) : w'.jobs.find? id = some j := by
  unfold EmailWorld.claim at hclaim
  dsimp only at hclaim
  split at hclaim
  · obtain rfl := Option.some.inj hclaim
    exact hrow
  rename_i current rest hcons
  obtain ⟨batches, -, rfl⟩ := Option.map_eq_some_iff.mp hclaim
  have hclaims : Claims w now (w.picked now limit locked) ⟨w.jobs.update
      (fun j => j.id ∈ (w.picked now limit locked).map EmailJob.id) (EmailJob.claimed now),
      batches, current :: rest ++ w.claimed⟩ := ⟨rfl, by rw [hcons]⟩
  refine (hclaims.find?_of_not_mem fun hid => ?_).trans hrow
  exact hfinal.not_claimable (mem_picked (mem_picked_of_id hrow hid)).2

theorem Inv.stepSound (hinv : w.Inv) (hstep : w.step a = some w') : w.StepSound a w' := by
  cases a with
  | enqueue id scheduledFor =>
    obtain ⟨jobs, hinsert, rfl⟩ := Option.map_eq_some_iff.mp hstep
    refine ⟨fun k j hrow _ => ⟨j, (Table.find?_of_insert? hinsert k).trans ?_, rfl⟩, fun c hc => by cases hc⟩
    have hne : id ≠ k := by
      rintro rfl
      obtain ⟨hmem, hkey⟩ := Table.find?_eq_some.mp hrow
      exact (Table.insert?_eq_some hinsert).1 j hmem hkey
    exact (if_neg hne).trans hrow
  | recover now =>
    obtain rfl := Option.some.inj hstep
    refine ⟨fun id j hrow hfinal => ⟨j, ?_, rfl⟩, fun c hc => by cases hc⟩
    rw [Table.find?_update, hrow, Option.map_some, if_neg]
    intro hstale
    rw [EmailJob.stale, Bool.and_eq_true, decide_eq_true_eq] at hstale
    rcases hfinal with h | h
    all_goals cases hstale.1.symm.trans h
  | claim batch now limit locked =>
    exact ⟨fun id j hrow hfinal => ⟨j, find?_claim_of_final hstep hrow hfinal, rfl⟩, fun c hc => by cases hc⟩
  | throws batch =>
    obtain ⟨b, hrow, hstep⟩ := Option.bind_eq_some_iff.mp hstep
    split at hstep
    · cases hstep
    obtain rfl := Option.some.inj hstep
    exact ⟨fun id j hj _ => ⟨j, hj, rfl⟩, fun c hc => by cases hc⟩
  | markSent batch reply =>
    obtain ⟨b, hrow, hstep⟩ := Option.bind_eq_some_iff.mp hstep
    split at hstep
    · cases hstep
    rename_i hcaught
    obtain rfl := Option.some.inj hstep
    obtain rfl : b.id = batch := (Table.find?_eq_some.mp hrow).2
    refine hinv.stepSound_mark hrow (fun c hc => ?_) fun j hkeeps hfinal => ?_
    · exact (Option.some.inj ((congrArg (Option.map SendBatch.current) hrow).symm.trans hc)).symm
    · rcases hkeeps.2 with h | h | ⟨h, -, -⟩
      · rcases hfinal with h' | h'
        all_goals cases h.symm.trans h'
      · rcases hfinal with h' | h'
        all_goals cases h.symm.trans h'
      · exact absurd h hcaught
  | markRetry batch now error reply =>
    obtain ⟨b, hrow, hstep⟩ := Option.bind_eq_some_iff.mp hstep
    obtain rfl := Option.some.inj hstep
    obtain rfl : b.id = batch := (Table.find?_eq_some.mp hrow).2
    refine hinv.stepSound_mark hrow (fun c hc => ?_) fun j hkeeps hfinal => ?_
    · exact (Option.some.inj ((congrArg (Option.map SendBatch.current) hrow).symm.trans hc)).symm
    · rcases hkeeps.2 with h | h | ⟨-, hdead, hnone⟩
      · rcases hfinal with h' | h'
        all_goals cases h.symm.trans h'
      · rcases hfinal with h' | h'
        all_goals cases h.symm.trans h'
      · rw [hdead, EmailJob.markedRetry]
        exact if_neg (by rw [hnone]; decide)
  | crash batch =>
    obtain ⟨b, hrow, hstep⟩ := Option.bind_eq_some_iff.mp hstep
    obtain rfl := Option.some.inj hstep
    exact ⟨fun id j hj _ => ⟨j, hj, rfl⟩, fun c hc => by cases hc⟩

/-- The queue as it is created. -/
def created : EmailWorld := ⟨.empty, .empty, []⟩

theorem inv_created : created.Inv where
  counted _ := rfl
  bounded _ _ hrow := by cases hrow
  left _ _ hrow := by cases hrow
  current _ _ hrow := by cases hrow
  rest _ _ hrow := by cases hrow
  nodup _ _ hrow := by cases hrow
  apart _ _ _ _ hrow := by cases hrow

theorem sound_of_orderly (hreach : Reach step Orderly (· = created) w) :
    w.AttemptsBounded ∧ ∀ a w', w.step a = some w' → w.StepSound a w' := by
  have hinv : w.Inv := by
    apply hreach.invariant
    · rintro s rfl
      exact inv_created
    · exact fun s a s' hs hok hstep => hs.step hok hstep
  refine ⟨fun id => ?_, fun a w' hstep => hinv.stepSound hstep⟩
  rw [hinv.counted id]
  cases hrow : w.jobs.find? id with
  | none => exact Nat.zero_le _
  | some j => exact hinv.bounded id j hrow

/-! ### Late reports, lost replies and crashes -/

/-- One worker's mail is still under way when the job is recovered, and another one has sent it. -/
def reportsLate : List EmailAction :=
  [.enqueue 1 0, .recover 0, .claim 1 0 10 [], .recover EMAIL_SENDING_STALE_MS,
    .claim 2 EMAIL_SENDING_STALE_MS 10 [], .markSent 2 .ok]

/-- The job is marked sent and its worker learns of an error. -/
def losesReply : List EmailAction := [.enqueue 1 0, .claim 1 0 10 [], .markSent 1 .lost]

/-- Every worker crashes at its mail, and the next one recovers the job. -/
def crashesEachTime : List EmailAction :=
  .enqueue 1 0 :: (List.range 6).flatMap fun k =>
    [.recover (k * EMAIL_SENDING_STALE_MS), .claim k (k * EMAIL_SENDING_STALE_MS) 10 [], .crash k]

private theorem not_stepSound {w w' : EmailWorld} {a : EmailAction}
    (hsent : (w.jobs.find? 1).any fun j => j.status = .sent)
    (hretry : (w'.jobs.find? 1).any fun j => j.status = .retry) : ¬ w.StepSound a w' := by
  intro hsound
  obtain ⟨j, hj, hjsent⟩ := (Option.any_eq_true _ _).mp hsent
  obtain ⟨j', hj', hjretry⟩ := (Option.any_eq_true _ _).mp hretry
  obtain ⟨i, hi, hsame⟩ := hsound.final 1 j hj (.inl (of_decide_eq_true hjsent))
  obtain rfl := Option.some.inj (hj'.symm.trans hi)
  rw [of_decide_eq_true hjsent, of_decide_eq_true hjretry] at hsame
  cases hsame

theorem disorderly_runs_unsound :
    (∀ trace ∈ [reportsLate, losesReply], ∃ w w', run step created trace = some w ∧
      w.step (.markRetry 1 EMAIL_SENDING_STALE_MS "timeout" .ok) = some w' ∧
      ¬ w.StepSound (.markRetry 1 EMAIL_SENDING_STALE_MS "timeout" .ok) w') ∧
    ∃ w, run step created crashesEachTime = some w ∧ ¬ w.AttemptsBounded := by
  refine ⟨fun trace htrace => ?_, ?_⟩
  · have htest : (run step created trace).any (fun w =>
        ((w.jobs.find? 1).any fun j => j.status = .sent) &&
          (w.step (.markRetry 1 EMAIL_SENDING_STALE_MS "timeout" .ok)).any fun w' =>
            (w'.jobs.find? 1).any fun j => j.status = .retry) := by
      revert trace
      decide +kernel
    obtain ⟨w, hrun, hw⟩ := exists_of_run_any step created trace _ htest
    obtain ⟨hsent, hstep⟩ := Bool.and_eq_true_iff.mp hw
    obtain ⟨w', hw', hretry⟩ := (Option.any_eq_true _ _).mp hstep
    exact ⟨w, w', hrun, hw', not_stepSound hsent hretry⟩
  · obtain ⟨w, hrun, htest⟩ := exists_of_run_any step created crashesEachTime (fun w => w.claimsOf 1 = 6)
      (by decide +kernel)
    refine ⟨w, hrun, fun hbounded => ?_⟩
    have hle := hbounded 1
    rw [of_decide_eq_true htest] at hle
    exact absurd hle (by decide)

/-- A mail that fails once, is lost in a crash once, and is sent. -/
def sendsAtThird : List EmailAction :=
  [.enqueue 1 0, .claim 1 0 10 [], .markRetry 1 0 "timeout" .ok, .claim 2 60000 10 [], .crash 2,
    .recover 2000000, .claim 3 2000000 10 [], .markSent 3 .ok]

theorem sendsAtThird_sound : ∃ w, run step created sendsAtThird = some w ∧ w.claimsOf 1 = 3 ∧
    w.AttemptsBounded ∧ ∀ a w', w.step a = some w' → w.StepSound a w' := by
  obtain ⟨w, hrun, htest⟩ := exists_of_run_any step created sendsAtThird (fun w => w.claimsOf 1 = 3)
    (by decide +kernel)
  have hok : RunOk step Orderly created sendsAtThird := by decide +kernel
  exact ⟨w, hrun, of_decide_eq_true htest, sound_of_orderly (.of_run (.init rfl) hok hrun)⟩

end EmailWorld

end PropFirm
