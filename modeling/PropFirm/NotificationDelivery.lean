import Mathlib
import PropFirm.Lib.BatchQueue
import PropFirm.Lib.JsText
import PropFirm.Lib.Table

/-!
# Delivery of the admin's notifications

`processQueuedNotifications` takes the twenty oldest notifications that are due, delivers each to its
recipients and then writes its status. What throws leaves the status as it was. A run is given what may go
wrong in it: a lookup of the recipients, single recipients, the status write, or a crash.

Users are known by the 128 bits of their id. The log of deliveries is kept for the statements.
-/

namespace PropFirm

open BatchQueue Filter

structure NotifiedUser where
  id : ℕ
  email : Option String
  isBanned : Bool

instance : Keyed NotifiedUser ℕ := ⟨NotifiedUser.id⟩

inductive NotificationChannel
  | web
  | email
  | webhook
  | other (name : String)
  deriving DecidableEq

inductive NotificationStatus
  | queued
  | scheduled
  | sent
  | failed
  | cancelled
  | read
  deriving DecidableEq

/-- A row of `admin_notifications`, but for the columns a delivery writes. -/
structure AdminNotification where
  id : ℕ
  channel : NotificationChannel
  message : String
  audience : String
  scheduledFor : Option ℕ
  createdAt : ℕ
  deriving DecidableEq

instance : Keyed AdminNotification ℕ := ⟨AdminNotification.id⟩

/-- The columns `status` and `sent_at`. -/
structure NotificationState where
  status : NotificationStatus
  sentAt : Option ℕ

def NotificationStatus.Waiting (s : NotificationStatus) : Prop := s = queued ∨ s = scheduled

instance : DecidablePred NotificationStatus.Waiting := fun _ => inferInstanceAs (Decidable (_ ∨ _))

/-! ### A delivery -/

/-- A text of digits as a `uuid`, which has 32 of them; any other is a cast error. -/
def uuidOfDigits? (s : String) : Option ℕ :=
  if s.length = 32 then some (s.toList.foldl (fun id c => 16 * id + (c.toNat - '0'.toNat)) 0) else none

inductive ResolvedAs
  | all
  | singleUser
  | unresolvedSegment
  deriving DecidableEq

/-- `String(audience || 'all').trim()`. -/
def normalizedAudience (audience : String) : String := jsTrim (if audience = "" then "all" else audience)

/-- The recipients of an audience; the query for a numeric one casts it to a `uuid`, and may throw. -/
def resolveRecipients (users : Table NotifiedUser) (audience : String) :
    Option (List NotifiedUser × ResolvedAs) :=
  let normalized := normalizedAudience audience
  if normalized = "" ∨ normalized.toLower = "all" then
    some (users.rows.filter fun u => !u.isBanned, .all)
  else
    let result :=
      if isDigits normalized then (uuidOfDigits? normalized).map fun id => users.rows.filter fun u => u.id = id
      else some (users.rows.filter fun u => u.email.map String.toLower = some normalized.toLower)
    result.map fun rows => if rows = [] then ([], .unresolvedSegment) else (rows, .singleUser)

inductive DeliveryEnd
  | written
  | writeFails
  | crashes
  deriving DecidableEq

/-- What becomes of a delivery: whether the lookup of the recipients goes through, whom it reaches, and how it
ends. A crash may come before some are reached. -/
structure DeliveryPlan where
  lookupFails : Bool
  reaches : ℕ → Bool
  ending : DeliveryEnd

/-- Whom the delivery reaches, and the status it reports; nothing when it throws. -/
def deliverNotification (users : Table NotifiedUser) (n : AdminNotification) (plan : DeliveryPlan) :
    Option (List ℕ × NotificationStatus) :=
  if n.channel = .webhook then some ([], .failed)
  else if plan.lookupFails then none
  else
    (resolveRecipients users n.audience).map fun (recipients, resolvedAs) =>
      if resolvedAs = .unresolvedSegment then ([], .failed)
      else
        match n.channel with
        | .web =>
          (if n.message = "" then [] else (recipients.map NotifiedUser.id).filter plan.reaches, .sent)
        | .email =>
          let emailed := ((recipients.filter fun u => (u.email.filter (· ≠ "")).isSome).map NotifiedUser.id).filter
            plan.reaches
          (emailed, if emailed = [] then .failed else .sent)
        | _ => ([], .failed)

/-! ### A run -/

structure NotificationWorld where
  notifications : Table AdminNotification
  states : ℕ → NotificationState
  delivered : List (ℕ × ℕ)

/-- A run's time, the users there are, the order of rows created at the same time, and what happens to each
delivery. -/
structure NotificationRun where
  now : ℕ
  users : Table NotifiedUser
  tie : ℕ → ℕ
  plan : ℕ → DeliveryPlan

def batchSize : ℕ := 20

namespace NotificationWorld

/-- `status IN ('queued', 'scheduled') AND (scheduled_for IS NULL OR scheduled_for <= NOW())`. -/
def Due (w : NotificationWorld) (now : ℕ) (n : AdminNotification) : Prop :=
  (w.states n.id).status.Waiting ∧ ∀ t ∈ n.scheduledFor, t ≤ now

instance (w : NotificationWorld) (now : ℕ) : DecidablePred (w.Due now) := fun n =>
  match h : n.scheduledFor with
  | none => decidable_of_iff (w.states n.id).status.Waiting (by simp [Due, h])
  | some t => decidable_of_iff ((w.states n.id).status.Waiting ∧ t ≤ now) (by simp [Due, h])

/-- `ORDER BY created_at ASC`. -/
def Older (run : NotificationRun) (m n : AdminNotification) : Prop :=
  m.createdAt < n.createdAt ∨ m.createdAt = n.createdAt ∧ run.tie m.id ≤ run.tie n.id

instance (run : NotificationRun) : DecidableRel (Older run) := fun _ _ =>
  inferInstanceAs (Decidable (_ ∨ _ ∧ _))

instance (run : NotificationRun) : Std.Total (Older run) where
  total m n := by
    unfold Older
    omega

instance (run : NotificationRun) : IsTrans AdminNotification (Older run) where
  trans l m n := by
    unfold Older
    omega

def queue (w : NotificationWorld) (run : NotificationRun) : List AdminNotification :=
  (w.notifications.rows.filter fun n => w.Due run.now n).insertionSort (Older run)

def batch (w : NotificationWorld) (run : NotificationRun) : List AdminNotification := (w.queue run).take batchSize

/-- Deliver and write the status. -/
def attempt (run : NotificationRun) (w : NotificationWorld) (n : AdminNotification) : NotificationWorld :=
  match deliverNotification run.users n (run.plan n.id) with
  | none => w
  | some (reached, status) =>
    { w with
      delivered := w.delivered ++ reached.map fun userId => (n.id, userId)
      states :=
        if (run.plan n.id).ending = .written then
          Function.update w.states n.id
            ⟨status, if status = .sent then some run.now else (w.states n.id).sentAt⟩
        else w.states }

/-- What a run gets to before it crashes. -/
def attempted (run : NotificationRun) : List AdminNotification → List AdminNotification
  | [] => []
  | n :: rest => n :: if (run.plan n.id).ending = .crashes then [] else attempted run rest

def processQueuedNotifications (w : NotificationWorld) (run : NotificationRun) : NotificationWorld :=
  (attempted run (w.batch run)).foldl (attempt run) w

/-- The state before the `k`-th run. -/
def after (w : NotificationWorld) (runs : ℕ → NotificationRun) : ℕ → NotificationWorld
  | 0 => w
  | k + 1 => (after w runs k).processQueuedNotifications (runs k)

end NotificationWorld

namespace NotificationWorld

variable {w : NotificationWorld} {run : NotificationRun} {runs : ℕ → NotificationRun} {n m : AdminNotification}

/-! ### What is promised -/

def Attempted (w : NotificationWorld) (runs : ℕ → NotificationRun) (k : ℕ) : List AdminNotification :=
  attempted (runs k) ((w.after runs k).batch (runs k))

def AlwaysThrows (runs : ℕ → NotificationRun) (n : AdminNotification) : Prop :=
  ∀ k, deliverNotification (runs k).users n ((runs k).plan n.id) = none

/-- The attempt is one that writes the status. -/
def Completes (run : NotificationRun) (n : AdminNotification) : Prop :=
  (deliverNotification run.users n (run.plan n.id)).isSome ∧ (run.plan n.id).ending = .written

/-- Runs that do not crash keep coming, and a notification that does not always throw is completed when it is
attempted again and again. -/
structure Fair (w : NotificationWorld) (runs : ℕ → NotificationRun) : Prop where
  uncrashed : ∃ᶠ k in atTop, w.Attempted runs k = (w.after runs k).batch (runs k)
  completed : ∀ n ∈ w.notifications.rows, ¬AlwaysThrows runs n →
    (∃ᶠ k in atTop, n ∈ w.Attempted runs k) → ∃ k, n ∈ w.Attempted runs k ∧ Completes (runs k) n

/-- No recipient gets a notification twice. -/
def DeliversOnce (w : NotificationWorld) (runs : ℕ → NotificationRun) : Prop :=
  ∀ k, (w.after runs k).delivered.Nodup

/-- A waiting notification that comes due is attempted in some run. -/
def BlocksNone (w : NotificationWorld) (runs : ℕ → NotificationRun) : Prop :=
  w.Fair runs → ∀ n ∈ w.notifications.rows, (w.states n.id).status.Waiting →
    (∀ᶠ k in atTop, ∀ t ∈ n.scheduledFor, t ≤ (runs k).now) → ∃ k, n ∈ w.Attempted runs k

/-- The attempt reaches nobody or writes the status. -/
def WritesWhatItDelivers (run : NotificationRun) (n : AdminNotification) : Prop :=
  ∀ reached status, deliverNotification run.users n (run.plan n.id) = some (reached, status) →
    reached ≠ [] → (run.plan n.id).ending = .written

def WritesDelivered (w : NotificationWorld) (runs : ℕ → NotificationRun) : Prop :=
  ∀ k, ∀ n ∈ w.Attempted runs k, WritesWhatItDelivers (runs k) n

/-- The notifications that go before another one. -/
def Ahead (w : NotificationWorld) (n : AdminNotification) : Set AdminNotification :=
  {m | m ∈ w.notifications.rows ∧ m ≠ n ∧ m.createdAt ≤ n.createdAt}

/-- Fewer than a batch of those that always throw are ahead of any notification. -/
def LeavesRoom (w : NotificationWorld) (runs : ℕ → NotificationRun) : Prop :=
  ∀ n ∈ w.notifications.rows, (w.Ahead n ∩ {m | AlwaysThrows runs m}).ncard < batchSize

/-! ### One attempt and one run -/

theorem attempt_notifications : (attempt run w n).notifications = w.notifications := by
  unfold attempt
  split <;> rfl

theorem attempt_states_of_ne {id : ℕ} (hne : id ≠ n.id) : (attempt run w n).states id = w.states id := by
  unfold attempt
  split
  · rfl
  · dsimp only
    split
    · exact Function.update_of_ne hne _ _
    · rfl

theorem foldl_attempt_notifications (ns : List AdminNotification) :
    (ns.foldl (attempt run) w).notifications = w.notifications := by
  induction ns generalizing w with
  | nil => rfl
  | cons n ns ih =>
    rw [List.foldl_cons, ih]
    exact attempt_notifications

theorem foldl_attempt_states_of_not_mem {ns : List AdminNotification} {id : ℕ}
    (hid : id ∉ ns.map AdminNotification.id) : (ns.foldl (attempt run) w).states id = w.states id := by
  induction ns generalizing w with
  | nil => rfl
  | cons n ns ih =>
    rw [List.map_cons, List.mem_cons, not_or] at hid
    rw [List.foldl_cons, ih hid.2]
    exact attempt_states_of_ne hid.1

theorem attempted_sublist (ns : List AdminNotification) : (attempted run ns).Sublist ns := by
  induction ns with
  | nil => exact List.Sublist.refl _
  | cons n ns ih =>
    rw [attempted]
    split
    · exact (List.nil_sublist ns).cons_cons n
    · exact ih.cons_cons n

theorem mem_queue : n ∈ w.queue run ↔ n ∈ w.notifications.rows ∧ w.Due run.now n := by
  rw [queue, List.mem_insertionSort, List.mem_filter, decide_eq_true_iff]

theorem nodup_map_id_queue : ((w.queue run).map AdminNotification.id).Nodup := by
  have hrows : (w.notifications.rows.map AdminNotification.id).Nodup := w.notifications.nodup
  refine ((List.perm_insertionSort _ _).map AdminNotification.id).nodup_iff.mpr ?_
  exact hrows.sublist (List.filter_sublist.map _)

theorem batch_sublist : (w.batch run).Sublist (w.queue run) := List.take_sublist _ _

theorem mem_of_mem_attempted {k : ℕ} (hmem : n ∈ w.Attempted runs k) :
    n ∈ (w.after runs k).notifications.rows ∧ (w.after runs k).Due (runs k).now n :=
  mem_queue.mp (batch_sublist.subset ((attempted_sublist _).subset hmem))

theorem nodup_map_id_attempted (k : ℕ) : ((w.Attempted runs k).map AdminNotification.id).Nodup :=
  nodup_map_id_queue.sublist (((attempted_sublist _).trans batch_sublist).map _)

theorem after_succ (k : ℕ) :
    w.after runs (k + 1) = (w.Attempted runs k).foldl (attempt (runs k)) (w.after runs k) := rfl

@[simp] theorem after_notifications (k : ℕ) : (w.after runs k).notifications = w.notifications := by
  induction k with
  | zero => rfl
  | succ k ih => rw [after_succ, foldl_attempt_notifications, ih]

end NotificationWorld

/-! ### What a delivery reports -/

section Delivery

variable {users : Table NotifiedUser} {n : AdminNotification} {plan : DeliveryPlan} {reached : List ℕ}
  {status : NotificationStatus}

theorem resolveRecipients_sublist {recipients : List NotifiedUser} {resolvedAs : ResolvedAs} {audience : String}
    (hresolve : resolveRecipients users audience = some (recipients, resolvedAs)) :
    recipients.Sublist users.rows := by
  unfold resolveRecipients at hresolve
  dsimp only at hresolve
  split at hresolve
  · obtain ⟨rfl, -⟩ := Prod.mk.inj (Option.some.inj hresolve)
    exact List.filter_sublist
  · obtain ⟨rows, hrows, hpair⟩ := Option.map_eq_some_iff.mp hresolve
    split at hpair
    · obtain ⟨rfl, -⟩ := Prod.mk.inj hpair
      exact List.nil_sublist _
    · obtain ⟨rfl, -⟩ := Prod.mk.inj hpair
      split at hrows
      · obtain ⟨id, -, rfl⟩ := Option.map_eq_some_iff.mp hrows
        exact List.filter_sublist
      · rw [← Option.some.inj hrows]
        exact List.filter_sublist

/-- A delivery reaches each user once and reports that the notification is done with. -/
theorem deliverNotification_spec (hdeliver : deliverNotification users n plan = some (reached, status)) :
    reached.Nodup ∧ ¬status.Waiting := by
  have hdone : ∀ s : NotificationStatus, s = .failed ∨ s = .sent → ¬s.Waiting := by
    rintro s (rfl | rfl) <;> decide
  unfold deliverNotification at hdeliver
  split at hdeliver
  · obtain ⟨rfl, rfl⟩ := Prod.mk.inj (Option.some.inj hdeliver)
    exact ⟨List.nodup_nil, hdone _ (.inl rfl)⟩
  · split at hdeliver
    · cases hdeliver
    · obtain ⟨⟨recipients, resolvedAs⟩, hresolve, hpair⟩ := Option.map_eq_some_iff.mp hdeliver
      have hids : (recipients.map NotifiedUser.id).Nodup :=
        users.nodup.sublist ((resolveRecipients_sublist hresolve).map _)
      dsimp only at hpair
      split at hpair
      · obtain ⟨rfl, rfl⟩ := Prod.mk.inj hpair
        exact ⟨List.nodup_nil, hdone _ (.inl rfl)⟩
      · split at hpair
        · obtain ⟨rfl, rfl⟩ := Prod.mk.inj hpair
          refine ⟨?_, hdone _ (.inr rfl)⟩
          split
          · exact List.nodup_nil
          · exact hids.filter _
        · obtain ⟨rfl, rfl⟩ := Prod.mk.inj hpair
          refine ⟨(hids.sublist (List.filter_sublist.map _)).filter _, hdone _ ?_⟩
          split
          · exact .inl rfl
          · exact .inr rfl
        · obtain ⟨rfl, rfl⟩ := Prod.mk.inj hpair
          exact ⟨List.nodup_nil, hdone _ (.inl rfl)⟩

/-- An audience of digits is not an id, as the code has it, unless it has the length of a `uuid`. -/
theorem deliverNotification_of_digits (hchannel : n.channel ≠ .webhook)
    (hdigits : isDigits (normalizedAudience n.audience) = true) (hlength : (normalizedAudience n.audience).length ≠ 32)
    (hall : (normalizedAudience n.audience).toLower ≠ "all") : deliverNotification users n plan = none := by
  have hne : normalizedAudience n.audience ≠ "" := by
    intro hempty
    rw [hempty] at hdigits
    revert hdigits
    decide
  have hresolve : resolveRecipients users n.audience = none := by
    unfold resolveRecipients
    dsimp only
    rw [if_neg (not_or.mpr ⟨hne, hall⟩), if_pos hdigits, uuidOfDigits?, if_neg hlength]
    rfl
  rw [deliverNotification, if_neg hchannel, hresolve]
  split <;> rfl

end Delivery

namespace NotificationWorld

variable {w : NotificationWorld} {run : NotificationRun} {runs : ℕ → NotificationRun} {n m : AdminNotification}

/-! ### Once -/

/-- What was delivered is no longer waiting. -/
structure Accounted (w : NotificationWorld) : Prop where
  nodup : w.delivered.Nodup
  done : ∀ d ∈ w.delivered, ¬(w.states d.1).status.Waiting

theorem Accounted.attempt (hacc : w.Accounted) (hwaiting : (w.states n.id).status.Waiting)
    (hwrites : WritesWhatItDelivers run n) : (NotificationWorld.attempt run w n).Accounted := by
  unfold NotificationWorld.attempt
  cases hdeliver : deliverNotification run.users n (run.plan n.id) with
  | none => exact hacc
  | some report =>
    obtain ⟨reached, status⟩ := report
    obtain ⟨hreached, hstatus⟩ := deliverNotification_spec hdeliver
    have hold : ∀ d ∈ w.delivered, d.1 ≠ n.id := fun d hd heq => hacc.done d hd (heq ▸ hwaiting)
    constructor
    · refine List.nodup_append.mpr ⟨hacc.nodup, hreached.map fun a b h => (Prod.mk.inj h).2, ?_⟩
      rintro d hd _ hnew rfl
      obtain ⟨userId, -, rfl⟩ := List.mem_map.mp hnew
      exact hold _ hd rfl
    · intro d hd
      dsimp only at hd ⊢
      rcases List.mem_append.mp hd with hd | hd
      · split
        · rw [Function.update_of_ne (hold d hd)]
          exact hacc.done d hd
        · exact hacc.done d hd
      · obtain ⟨userId, huser, rfl⟩ := List.mem_map.mp hd
        rw [if_pos (hwrites reached status hdeliver (List.ne_nil_of_mem huser)), Function.update_self]
        exact hstatus

theorem Accounted.foldl_attempt {ns : List AdminNotification} (hacc : w.Accounted)
    (hnodup : (ns.map AdminNotification.id).Nodup) (hwaiting : ∀ n ∈ ns, (w.states n.id).status.Waiting)
    (hwrites : ∀ n ∈ ns, WritesWhatItDelivers run n) : (ns.foldl (NotificationWorld.attempt run) w).Accounted := by
  induction ns generalizing w with
  | nil => exact hacc
  | cons n ns ih =>
    rw [List.map_cons, List.nodup_cons] at hnodup
    have hn := hacc.attempt (hwaiting n List.mem_cons_self) (hwrites n List.mem_cons_self)
    refine ih hn hnodup.2 (fun m hm => ?_) fun m hm => hwrites m (List.mem_cons_of_mem n hm)
    have hne : m.id ≠ n.id := fun heq => hnodup.1 (heq ▸ List.mem_map_of_mem hm)
    rw [attempt_states_of_ne hne]
    exact hwaiting m (List.mem_cons_of_mem n hm)

theorem Accounted.after (hacc : w.Accounted) (hwrites : w.WritesDelivered runs) (k : ℕ) :
    (w.after runs k).Accounted := by
  induction k with
  | zero => exact hacc
  | succ k ih =>
    rw [after_succ]
    exact ih.foldl_attempt (nodup_map_id_attempted k) (fun n hn => (mem_of_mem_attempted hn).2.1)
      fun n hn => hwrites k n hn

/-! ### None is blocked -/

/-- A completed notification does not wait any more, and nothing makes it wait again. -/
theorem attempt_done (hdone : ¬(w.states m.id).status.Waiting) :
    ¬((attempt run w n).states m.id).status.Waiting := by
  by_cases hid : m.id = n.id
  · unfold attempt
    cases hdeliver : deliverNotification run.users n (run.plan n.id) with
    | none => exact hdone
    | some report =>
      obtain ⟨reached, status⟩ := report
      dsimp only
      split
      · rw [hid, Function.update_self]
        exact (deliverNotification_spec hdeliver).2
      · exact hdone
  · rwa [attempt_states_of_ne hid]

theorem foldl_attempt_done {ns : List AdminNotification} (hdone : ¬(w.states m.id).status.Waiting) :
    ¬((ns.foldl (attempt run) w).states m.id).status.Waiting := by
  induction ns generalizing w with
  | nil => exact hdone
  | cons n ns ih => exact ih (attempt_done hdone)

theorem attempt_completes (hcompletes : Completes run n) : ¬((attempt run w n).states n.id).status.Waiting := by
  obtain ⟨⟨reached, status⟩, hdeliver⟩ := Option.isSome_iff_exists.mp hcompletes.1
  rw [attempt, hdeliver]
  dsimp only
  rw [if_pos hcompletes.2, Function.update_self]
  exact (deliverNotification_spec hdeliver).2

theorem foldl_attempt_completes {ns : List AdminNotification} (hn : n ∈ ns) (hcompletes : Completes run n) :
    ¬((ns.foldl (attempt run) w).states n.id).status.Waiting := by
  obtain ⟨before, rest, rfl⟩ := List.append_of_mem hn
  rw [List.foldl_append, List.foldl_cons]
  exact foldl_attempt_done (attempt_completes hcompletes)

theorem after_done {k l : ℕ} (hle : k ≤ l) (hdone : ¬((w.after runs k).states n.id).status.Waiting) :
    ¬((w.after runs l).states n.id).status.Waiting := by
  induction l, hle using Nat.le_induction with
  | base => exact hdone
  | succ l _ ih =>
    rw [after_succ]
    exact foldl_attempt_done ih

theorem eventually_not_attempted {k : ℕ} (hn : n ∈ w.Attempted runs k) (hcompletes : Completes (runs k) n) :
    ∀ᶠ l in atTop, n ∉ w.Attempted runs l := by
  have hdone : ¬((w.after runs (k + 1)).states n.id).status.Waiting := foldl_attempt_completes hn hcompletes
  rw [eventually_atTop]
  exact ⟨k + 1, fun l hle hl => after_done hle hdone (mem_of_mem_attempted hl).2.1⟩

theorem after_waiting (hwaiting : (w.states n.id).status.Waiting)
    (hn : n ∈ w.notifications.rows) (hnever : ∀ k, n ∉ w.Attempted runs k) (k : ℕ) :
    ((w.after runs k).states n.id).status.Waiting := by
  induction k with
  | zero => exact hwaiting
  | succ k ih =>
    rw [after_succ, foldl_attempt_states_of_not_mem]
    · exact ih
    · intro hid
      obtain ⟨m, hm, heq⟩ := List.mem_map.mp hid
      have hrow := (mem_of_mem_attempted hm).1
      rw [after_notifications] at hrow
      exact hnever k (List.inj_on_of_nodup_map w.notifications.nodup hrow hn heq ▸ hm)

theorem ahead_finite (w : NotificationWorld) (n : AdminNotification) : (w.Ahead n).Finite :=
  w.notifications.rows.finite_toSet.subset fun _ hm => hm.1

theorem Older.createdAt_le (h : Older run m n) : m.createdAt ≤ n.createdAt := by
  unfold Older at h
  omega

/-- In a run that does not crash a due notification is attempted, or a whole batch ahead of it is. -/
theorem attempted_or_full {k : ℕ} (huncrashed : w.Attempted runs k = (w.after runs k).batch (runs k))
    (hn : n ∈ w.notifications.rows) (hdue : (w.after runs k).Due (runs k).now n) :
    n ∈ w.Attempted runs k ∨ (w.Attempted runs k).Nodup ∧ (w.Attempted runs k).length = batchSize ∧
      ∀ m ∈ w.Attempted runs k, m ∈ w.Ahead n := by
  have hsorted : ((w.after runs k).queue (runs k)).Pairwise (Older (runs k)) :=
    List.pairwise_insertionSort _ _
  have hqueue : n ∈ (w.after runs k).queue (runs k) := by
    rw [mem_queue, after_notifications]
    exact ⟨hn, hdue⟩
  refine or_iff_not_imp_left.mpr fun hnot => ⟨(nodup_map_id_attempted k).of_map, ?_⟩
  obtain ⟨hlength, holder⟩ :=
    (mem_take_or_full hsorted hqueue).resolve_left fun hmem => hnot (huncrashed ▸ hmem)
  refine ⟨huncrashed ▸ hlength, fun m hm => ⟨?_, fun heq => hnot (heq ▸ hm), ?_⟩⟩
  · have hkept : (w.after runs k).notifications = w.notifications := after_notifications k
    rw [← hkept]
    exact (mem_of_mem_attempted hm).1
  · have hbatch : m ∈ (w.after runs k).batch (runs k) := huncrashed ▸ hm
    exact (holder m hbatch).createdAt_le

theorem blocksNone (hroom : w.LeavesRoom runs) : w.BlocksNone runs := by
  intro hfair n hn hwaiting hdue
  by_contra hnever
  push Not at hnever
  have hruns : ∃ᶠ k in atTop, n ∈ w.Attempted runs k ∨ (w.Attempted runs k).Nodup ∧
      (w.Attempted runs k).length = batchSize ∧ ∀ m ∈ w.Attempted runs k, m ∈ w.Ahead n := by
    refine (hfair.uncrashed.and_eventually hdue).mono fun k hk => ?_
    exact attempted_or_full hk.1 hn ⟨after_waiting hwaiting hn hnever k, hk.2⟩
  have hleaves : ∀ m ∈ w.Ahead n \ {m | AlwaysThrows runs m}, ∀ᶠ k in atTop, m ∉ w.Attempted runs k := by
    intro m hm
    by_contra hoften
    obtain ⟨k, hk, hcompletes⟩ := hfair.completed m hm.1.1 hm.2 hoften
    exact hoften (eventually_not_attempted hk hcompletes)
  obtain ⟨k, hk⟩ := exists_mem_batch (ahead_finite w n) (hroom n hn) hruns hleaves
  exact hnever k hk

/-- A queue before anything is delivered. -/
def start (notifications : Table AdminNotification) (states : ℕ → NotificationState) : NotificationWorld where
  notifications := notifications
  states := states
  delivered := []

theorem accounted_start (notifications : Table AdminNotification) (states : ℕ → NotificationState) :
    (start notifications states).Accounted where
  nodup := List.nodup_nil
  done _ hd := absurd hd List.not_mem_nil

theorem deliversOnce_and_blocksNone (notifications : Table AdminNotification) (states : ℕ → NotificationState)
    (runs : ℕ → NotificationRun) :
    ((start notifications states).WritesDelivered runs → (start notifications states).DeliversOnce runs) ∧
      ((start notifications states).LeavesRoom runs → (start notifications states).BlocksNone runs) :=
  ⟨fun hwrites k => ((accounted_start notifications states).after hwrites k).nodup, blocksNone⟩

def allWaiting : ℕ → NotificationState := fun _ => ⟨.queued, none⟩

def oneUser : Table NotifiedUser := Table.single ⟨7, some "trader@example.com", false⟩

def runWith (plan : ℕ → DeliveryPlan) : NotificationRun where
  now := 100
  users := oneUser
  tie := id
  plan := plan

def smoothly : ℕ → DeliveryPlan := fun _ => ⟨false, fun _ => true, .written⟩

def oneNotification : Table AdminNotification := Table.single ⟨1, .web, "Maintenance tonight", "all", none, 1⟩

theorem oneNotification_smoothly :
    (start oneNotification allWaiting).DeliversOnce (fun _ => runWith smoothly) ∧
      (start oneNotification allWaiting).BlocksNone fun _ => runWith smoothly := by
  obtain ⟨honce, hblocks⟩ := deliversOnce_and_blocksNone oneNotification allWaiting fun _ => runWith smoothly
  refine ⟨honce fun k n _ _ _ _ _ => rfl, hblocks fun n hn => ?_⟩
  have hnone : (start oneNotification allWaiting).Ahead n = ∅ := by
    rw [Set.eq_empty_iff_forall_notMem]
    rintro m ⟨hm, hne, -⟩
    exact hne ((List.mem_singleton.mp hm).trans (List.mem_singleton.mp hn).symm)
  rw [hnone, Set.empty_inter, Set.ncard_empty]
  decide

/-- The first run crashes when the user is reached and before the status is written. -/
def crashThenRetry (k : ℕ) : NotificationRun :=
  runWith (if k = 0 then fun _ => ⟨false, fun _ => true, .crashes⟩ else smoothly)

/-- Twenty notifications to a numeric id, and then one to all. -/
def numericFirst : List AdminNotification :=
  (List.range 20).map fun i => ⟨i, .web, "Welcome", "12345", none, i⟩

def numericThenAll : Table AdminNotification where
  rows := numericFirst ++ [⟨20, .web, "Maintenance tonight", "all", none, 20⟩]
  nodup := by decide

theorem numericFirst_throws {users : Table NotifiedUser} {plan : DeliveryPlan} :
    ∀ n ∈ numericFirst, deliverNotification users n plan = none := by
  intro n hn
  obtain ⟨i, -, rfl⟩ := List.mem_map.mp hn
  have hdigits : isDigits (normalizedAudience "12345") = true := by decide +kernel
  have hlength : (normalizedAudience "12345").length ≠ 32 := by decide +kernel
  have hall : (normalizedAudience "12345").toLower ≠ "all" := by decide +kernel
  exact deliverNotification_of_digits (by simp) hdigits hlength hall

theorem foldl_attempt_of_throws {ns : List AdminNotification}
    (hthrows : ∀ n ∈ ns, deliverNotification run.users n (run.plan n.id) = none) :
    ns.foldl (attempt run) w = w := by
  induction ns with
  | nil => rfl
  | cons n ns ih =>
    have hn : attempt run w n = w := by
      rw [attempt, hthrows n List.mem_cons_self]
    rw [List.foldl_cons, hn]
    exact ih fun m hm => hthrows m (List.mem_cons_of_mem n hm)

theorem batch_numericThenAll : (start numericThenAll allWaiting).batch (runWith smoothly) = numericFirst := by
  decide +kernel

theorem attempted_numericFirst : attempted (runWith smoothly) numericFirst = numericFirst := by
  decide +kernel

/-- The queue never moves. -/
theorem after_numericThenAll (k : ℕ) :
    (start numericThenAll allWaiting).after (fun _ => runWith smoothly) k = start numericThenAll allWaiting := by
  induction k with
  | zero => rfl
  | succ k ih =>
    rw [after_succ, Attempted, ih, batch_numericThenAll, attempted_numericFirst]
    exact foldl_attempt_of_throws fun n hn => numericFirst_throws n hn

theorem attempted_numericThenAll (k : ℕ) :
    (start numericThenAll allWaiting).Attempted (fun _ => runWith smoothly) k = numericFirst := by
  rw [Attempted, after_numericThenAll, batch_numericThenAll, attempted_numericFirst]

theorem fair_numericThenAll : (start numericThenAll allWaiting).Fair fun _ => runWith smoothly where
  uncrashed := by
    refine Frequently.of_forall fun k => ?_
    rw [attempted_numericThenAll, after_numericThenAll, batch_numericThenAll]
  completed n _ hthrows hoften := by
    obtain ⟨k, hk⟩ := hoften.exists
    rw [attempted_numericThenAll] at hk
    exact absurd (fun _ => numericFirst_throws n hk) hthrows

theorem twiceDelivered_and_blocked :
    ¬(start oneNotification allWaiting).DeliversOnce crashThenRetry ∧
      ¬(start numericThenAll allWaiting).BlocksNone fun _ => runWith smoothly := by
  constructor
  · intro honce
    exact absurd (honce 2) (by decide +kernel)
  · intro hblocks
    have hlast : (⟨20, .web, "Maintenance tonight", "all", none, 20⟩ : AdminNotification) ∈ numericThenAll.rows :=
      List.mem_append_right _ List.mem_cons_self
    obtain ⟨k, hk⟩ := hblocks fair_numericThenAll _ hlast (.inl rfl)
      (Eventually.of_forall fun _ _ h => nomatch h)
    rw [attempted_numericThenAll] at hk
    revert hk
    decide +kernel

end NotificationWorld

end PropFirm
