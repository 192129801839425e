import Mathlib.Data.List.Basic
import PropFirm.Lib.SessionLocks
import PropFirm.Lib.Table
import PropFirm.Lib.Transition

/-!
# Scheduled jobs under advisory locks

Every process runs the same schedule, and a job runs on the one that gets its lock. The lock belongs to
the connection that took it, which the call keeps from `connect` to `release`. So a lock outlives its call
when the query that unlocks it fails or the answer to the one that took it is lost, and it goes before the
call when the connection is lost.

A connect may get an idle connection, open a new one, or fail; the size of the pool and the timeouts that
decide which are left out. `lockPair` is `getAdvisoryLockPair`, of which nothing is used.
-/

namespace PropFirm

open SessionLocks Transition

/-- What `withAdvisoryLock` comes to: true, false, or an error. -/
inductive JobOutcome
  | ran | skipped | threw
  deriving DecidableEq

inductive JobStage
  | connecting
  | locking (client : Nat)
  | running (client : Nat)
  | unlocking (client : Nat) (outcome : JobOutcome)
  | releasing (client : Nat) (outcome : JobOutcome)
  deriving DecidableEq

namespace JobStage

def client? : JobStage → Option Nat
  | connecting => none
  | locking client | running client | unlocking client _ | releasing client _ => some client

/-- From the lock on until it has been given back. -/
def holding : JobStage → Bool
  | running _ | unlocking _ _ => true
  | _ => false

end JobStage

/-- A call of `withAdvisoryLock`. -/
structure JobCall (π : Type*) where
  process : π
  name : String
  stage : JobStage
  deriving DecidableEq

/-- A client of a `directPool`, `connected` as long as the server has its session. -/
structure PoolClient (π : Type*) where
  process : π
  connected : Bool
  takenBy : Option Nat

/-- `leaked` counts the locks of a session that is still there, of which no call knows any more: an unlock
failed, or the answer to the query that took the lock was lost. It is a ghost. -/
structure LockWorld (π κ : Type*) where
  calls : Nat → Option (JobCall π)
  clients : Nat → Option (PoolClient π)
  locks : SessionLocks κ Nat
  leaked : κ → Nat → Nat
  answers : List (String × JobOutcome)

/-- What a call does next, and how the server replies. -/
inductive CallAction
  | connect (client : Nat)
  | openClient (client : Nat)
  | refuse
  | tryLock (reply : Table.Reply)
  | finish (threw : Bool)
  | unlock (reply : Table.Reply)
  | release

inductive LockAction (π : Type*)
  | start (call : Nat) (process : π) (name : String)
  | call (call : Nat) (a : CallAction)
  | lose (client : Nat)
  | reap (client : Nat)
  | crash (process : π)

namespace LockWorld

variable {π κ : Type*}

def initial : LockWorld π κ := ⟨fun _ => none, fun _ => none, SessionLocks.empty, fun _ _ => 0, []⟩

def setStage (w : LockWorld π κ) (n : Nat) (c : JobCall π) (stage : JobStage) : LockWorld π κ :=
  { w with calls := Function.update w.calls n (some { c with stage := stage }) }

def answer (w : LockWorld π κ) (n : Nat) (c : JobCall π) (outcome : JobOutcome) : LockWorld π κ :=
  { w with
    calls := Function.update w.calls n none
    answers := (c.name, outcome) :: w.answers }

def setClient (w : LockWorld π κ) (s : Nat) (client : Option (PoolClient π)) : LockWorld π κ :=
  { w with clients := Function.update w.clients s client }

/-- The server ends sessions. -/
def endSessions (w : LockWorld π κ) (ended : Nat → Bool) : LockWorld π κ :=
  { w with
    locks := w.locks.drop ended
    leaked := fun k s => if ended s then 0 else w.leaked k s }

def connected (w : LockWorld π κ) (s : Nat) : Bool := (w.clients s).any (·.connected)

/-- Whether the server carries the query out, of which the process may not learn. -/
def reaches (w : LockWorld π κ) (s : Nat) (reply : Table.Reply) : Bool := reply ≠ .failed && w.connected s

section Step

variable [DecidableEq κ]

def leak (w : LockWorld π κ) (k : κ) (s : Nat) : LockWorld π κ :=
  { w with leaked := fun j t => if j = k ∧ t = s then w.leaked j t + 1 else w.leaked j t }

/-- A lost session does not unlock, and needs not to; a failed unlock is only logged. -/
def unlocked (w : LockWorld π κ) (k : κ) (s : Nat) (reply : Table.Reply) : LockWorld π κ :=
  if w.reaches s reply then { w with locks := w.locks.unlock k s }
  else if w.connected s then w.leak k s
  else w

variable [DecidableEq π] (lockPair : String → κ)

def stepCall (w : LockWorld π κ) (n : Nat) (c : JobCall π) : JobStage → CallAction → Option (LockWorld π κ)
  | .connecting, .connect s =>
    (w.clients s).bind fun client =>
      if client.process = c.process ∧ client.takenBy = none then
        some ((w.setClient s (some { client with takenBy := some n })).setStage n c (.locking s))
      else none
  | .connecting, .openClient s =>
    if w.clients s = none then
      some ((w.setClient s (some ⟨c.process, true, some n⟩)).setStage n c (.locking s))
    else none
  | .connecting, .refuse => some (w.answer n c .threw)
  | .locking s, .tryLock reply =>
    if w.reaches s reply then
      match w.locks.tryLock (lockPair c.name) s with
      | some locks =>
        if reply = .ok then some ({ w with locks := locks }.setStage n c (.running s))
        -- `acquired` is still false
        else some (({ w with locks := locks }.leak (lockPair c.name) s).setStage n c (.releasing s .threw))
      | none => some (w.setStage n c (.releasing s (if reply = .ok then .skipped else .threw)))
    else some (w.setStage n c (.releasing s .threw))
  | .running s, .finish threw => some (w.setStage n c (.unlocking s (if threw then .threw else .ran)))
  | .unlocking s outcome, .unlock reply =>
    some ((w.unlocked (lockPair c.name) s reply).setStage n c (.releasing s outcome))
  | .releasing s outcome, .release =>
    (w.clients s).bind fun client =>
      some ((w.setClient s (if client.connected then some { client with takenBy := none } else none)).answer
        n c outcome)
  | _, _ => none

def step (w : LockWorld π κ) : LockAction π → Option (LockWorld π κ)
  | .start n process name =>
    if w.calls n = none then
      some { w with calls := Function.update w.calls n (some ⟨process, name, .connecting⟩) }
    else none
  | .call n a => (w.calls n).bind fun c => w.stepCall lockPair n c c.stage a
  | .lose s => (w.clients s).bind fun client =>
    some ((w.setClient s (some { client with connected := false })).endSessions (· = s))
  | .reap s => (w.clients s).bind fun client =>
    if client.takenBy = none then some ((w.setClient s none).endSessions (· = s)) else none
  | .crash process => some { w.endSessions fun s => (w.clients s).any (·.process = process) with
      calls := fun n => (w.calls n).filter (·.process ≠ process)
      clients := fun s => (w.clients s).filter (·.process ≠ process) }

end Step

/-! ### Calls and their clients -/

/-- A client is taken by the call that uses it, and by no other. -/
structure Paired (w : LockWorld π κ) : Prop where
  taken : ∀ n c s, w.calls n = some c → c.stage.client? = some s →
    ∃ client, w.clients s = some client ∧ client.takenBy = some n ∧ client.process = c.process
  inUse : ∀ s client n, w.clients s = some client → client.takenBy = some n →
    ∃ c, w.calls n = some c ∧ c.stage.client? = some s

/-- The call that uses a client which is still connected. -/
def userOf (w : LockWorld π κ) (s : Nat) : Option (JobCall π) :=
  (w.clients s).bind fun client => if client.connected then client.takenBy.bind w.calls else none

variable {w v : LockWorld π κ} {n s t : Nat} {c : JobCall π} {client : PoolClient π}

theorem userOf_eq_some (hclient : w.clients s = some client) (hconnected : client.connected = true)
    (htaken : client.takenBy = some n) : w.userOf s = w.calls n := by
  rw [userOf, hclient, Option.bind_some, if_pos hconnected, htaken, Option.bind_some]

theorem userOf_congr (hclient : v.clients t = w.clients t)
    (hcalls : ∀ client m, w.clients t = some client → client.takenBy = some m → v.calls m = w.calls m) :
    v.userOf t = w.userOf t := by
  rw [userOf, userOf, hclient]
  cases hc : w.clients t with
  | none => rfl
  | some client =>
    rw [Option.bind_some, Option.bind_some]
    cases htaken : client.takenBy with
    | none => rfl
    | some m => rw [Option.bind_some, Option.bind_some, hcalls client m hc htaken]

theorem userOf_of_not_taken (hclient : ∀ client, w.clients t = some client → client.takenBy = none) :
    w.userOf t = none := by
  rw [userOf]
  cases hc : w.clients t with
  | none => rfl
  | some client =>
    rw [Option.bind_some, hclient client hc, Option.bind_none, ite_self]

namespace Paired

/-- A call changes that has no client, before or after. -/
theorem updateCall (hpaired : w.Paired) (hclients : v.clients = w.clients) {call : Option (JobCall π)}
    (hcalls : v.calls = Function.update w.calls n call)
    (hold : ∀ c, w.calls n = some c → c.stage.client? = none)
    (hnew : ∀ c, call = some c → c.stage.client? = none) :
    v.Paired ∧ ∀ t, v.userOf t = w.userOf t := by
  have hother : ∀ t client m, w.clients t = some client → client.takenBy = some m → m ≠ n := by
    rintro t client m hclient htaken rfl
    obtain ⟨c, hc, hstage⟩ := hpaired.inUse t client m hclient htaken
    rw [hold c hc] at hstage
    cases hstage
  refine ⟨⟨fun m c t hc hstage => ?_, fun t client m hclient htaken => ?_⟩, fun t => ?_⟩
  · by_cases hm : m = n
    · rw [hcalls, hm, Function.update_self] at hc
      rw [hnew c hc] at hstage
      cases hstage
    · rw [hcalls, Function.update_of_ne hm] at hc
      rw [hclients]
      exact hpaired.taken m c t hc hstage
  · rw [hclients] at hclient
    rw [hcalls, Function.update_of_ne (hother t client m hclient htaken)]
    exact hpaired.inUse t client m hclient htaken
  · refine userOf_congr (congrFun hclients t) fun client m hclient htaken => ?_
    rw [hcalls, Function.update_of_ne (hother t client m hclient htaken)]

/-- A client changes and keeps its call and its process, or is in no use before and after. -/
theorem updateClient (hpaired : w.Paired) (hcalls : v.calls = w.calls) {client' : Option (PoolClient π)}
    (hclients : v.clients = Function.update w.clients s client') (hclient : w.clients s = some client)
    (hkept : (∃ b, client' = some { client with connected := b }) ∨ client.takenBy = none ∧ client' = none) :
    v.Paired ∧ ∀ t, t ≠ s → v.userOf t = w.userOf t := by
  refine ⟨⟨fun m c t hc hstage => ?_, fun t client₁ m hclient₁ htaken => ?_⟩, fun t ht => ?_⟩
  · rw [hcalls] at hc
    obtain ⟨client₁, hclient₁, htaken, hprocess⟩ := hpaired.taken m c t hc hstage
    by_cases ht : t = s
    · subst ht
      obtain rfl := Option.some.inj (hclient₁.symm.trans hclient)
      rcases hkept with ⟨b, rfl⟩ | ⟨hnone, -⟩
      · exact ⟨_, (congrFun hclients t).trans (Function.update_self _ _ _), htaken, hprocess⟩
      · rw [hnone] at htaken
        cases htaken
    · rw [hclients, Function.update_of_ne ht]
      exact ⟨client₁, hclient₁, htaken, hprocess⟩
  · rw [hcalls]
    by_cases ht : t = s
    · subst ht
      rw [hclients, Function.update_self] at hclient₁
      rcases hkept with ⟨b, rfl⟩ | ⟨-, rfl⟩
      · obtain rfl := Option.some.inj hclient₁
        exact hpaired.inUse t client m hclient htaken
      · cases hclient₁
    · rw [hclients, Function.update_of_ne ht] at hclient₁
      exact hpaired.inUse t client₁ m hclient₁ htaken
  · refine userOf_congr ?_ fun _ _ _ _ => congrFun hcalls _
    rw [hclients, Function.update_of_ne ht]

/-- A call and the client it has, had or gets change together. -/
theorem updateBoth (hpaired : w.Paired) {call : Option (JobCall π)} {client' : Option (PoolClient π)}
    (hcalls : v.calls = Function.update w.calls n call)
    (hclients : v.clients = Function.update w.clients s client')
    (hold : ∀ c t, w.calls n = some c → c.stage.client? = some t → t = s)
    (hfree : ∀ client m, w.clients s = some client → client.takenBy = some m → m = n)
    (hnew : (∃ c client, call = some c ∧ client' = some client ∧ c.stage.client? = some s ∧
        client.takenBy = some n ∧ client.process = c.process) ∨
      call = none ∧ ∀ client, client' = some client → client.takenBy = none) :
    v.Paired ∧ ∀ t, t ≠ s → v.userOf t = w.userOf t := by
  have hother : ∀ t client m, t ≠ s → w.clients t = some client → client.takenBy = some m → m ≠ n := by
    rintro t client m ht hclient htaken rfl
    obtain ⟨c, hc, hstage⟩ := hpaired.inUse t client m hclient htaken
    exact ht (hold c t hc hstage)
  have hcall : ∀ m, m ≠ n → v.calls m = w.calls m := fun m hm => by rw [hcalls, Function.update_of_ne hm]
  have hclient' : ∀ t, t ≠ s → v.clients t = w.clients t := fun t ht => by
    rw [hclients, Function.update_of_ne ht]
  have hcall' : v.calls n = call := by rw [hcalls, Function.update_self]
  have hclients' : v.clients s = client' := by rw [hclients, Function.update_self]
  refine ⟨⟨fun m c t hc hstage => ?_, fun t client m hclient htaken => ?_⟩, fun t ht => ?_⟩
  · by_cases hm : m = n
    · subst hm
      rw [hcall'] at hc
      rcases hnew with ⟨c₁, client₁, rfl, rfl, hstage₁, htaken₁, hprocess₁⟩ | ⟨rfl, -⟩
      · obtain rfl := Option.some.inj hc
        obtain rfl := Option.some.inj (hstage₁.symm.trans hstage)
        exact ⟨client₁, hclients', htaken₁, hprocess₁⟩
      · cases hc
    · rw [hcall m hm] at hc
      obtain ⟨client, hclient, htaken, hprocess⟩ := hpaired.taken m c t hc hstage
      have ht : t ≠ s := by
        rintro rfl
        exact hm (hfree client m hclient htaken)
      exact ⟨client, (hclient' t ht).trans hclient, htaken, hprocess⟩
  · by_cases ht : t = s
    · subst ht
      rw [hclients'] at hclient
      rcases hnew with ⟨c₁, client₁, rfl, rfl, hstage₁, htaken₁, -⟩ | ⟨-, hfree'⟩
      · obtain rfl := Option.some.inj hclient
        obtain rfl := Option.some.inj (htaken₁.symm.trans htaken)
        exact ⟨c₁, hcall', hstage₁⟩
      · rw [hfree' client hclient] at htaken
        cases htaken
    · rw [hclient' t ht] at hclient
      rw [hcall m (hother t client m ht hclient htaken)]
      exact hpaired.inUse t client m hclient htaken
  · exact userOf_congr (hclient' t ht) fun client m hclient htaken =>
      hcall m (hother t client m ht hclient htaken)

end Paired

theorem Paired.userOf_client (hpaired : w.Paired) (hcall : w.calls n = some c)
    (hstage : c.stage.client? = some s) : w.userOf s = if w.connected s then some c else none := by
  obtain ⟨client, hclient, htaken, -⟩ := hpaired.taken n c s hcall hstage
  rw [userOf, connected, hclient, Option.bind_some, Option.any_some, htaken, Option.bind_some, hcall]

/-- A call that keeps its client. -/
theorem Paired.setStage (hpaired : w.Paired) (hcall : w.calls n = some c) (hclient : c.stage.client? = some s)
    {stage : JobStage} (hstage : stage.client? = some s) (hcalls : v.calls = (w.setStage n c stage).calls)
    (hclients : v.clients = w.clients) :
    v.Paired ∧ (∀ t, t ≠ s → v.userOf t = w.userOf t) ∧
      v.userOf s = if w.connected s then some { c with stage := stage } else none := by
  obtain ⟨client, hc, htaken, hprocess⟩ := hpaired.taken n c s hcall hclient
  have hupdate : v.clients = Function.update w.clients s (some client) := by
    rw [hclients, ← hc, Function.update_eq_self]
  have hboth := hpaired.updateBoth hcalls hupdate
    (fun c' t hc' ht => by
      obtain rfl := Option.some.inj (hcall.symm.trans hc')
      exact Option.some.inj (ht.symm.trans hclient))
    (fun client' m hc' hm => by
      obtain rfl := Option.some.inj (hc.symm.trans hc')
      exact Option.some.inj (hm.symm.trans htaken))
    (.inl ⟨_, client, rfl, rfl, hstage, htaken, hprocess⟩)
  refine ⟨hboth.1, hboth.2, ?_⟩
  have hcall' : v.calls n = some { c with stage := stage } := by
    rw [hcalls]
    exact Function.update_self _ _ _
  rw [hboth.1.userOf_client hcall' hstage, connected, connected, hclients]

theorem connected_of_reaches {reply : Table.Reply} (hreaches : w.reaches s reply = true) :
    w.connected s = true :=
  (Bool.and_eq_true_iff.mp hreaches).2

/-- Two calls do not have one client. -/
theorem Paired.call_unique (hpaired : w.Paired) {n' : Nat} {c' : JobCall π} (hcall : w.calls n = some c)
    (hcall' : w.calls n' = some c') (hclient : c.stage.client? = some s) (hclient' : c'.stage.client? = some s) :
    n = n' := by
  obtain ⟨client, hc, htaken, -⟩ := hpaired.taken n c s hcall hclient
  obtain ⟨client', hc', htaken', -⟩ := hpaired.taken n' c' s hcall' hclient'
  obtain rfl := Option.some.inj (hc.symm.trans hc')
  exact Option.some.inj (htaken.symm.trans htaken')

section Locks

variable [DecidableEq κ] (lockPair : String → κ)

/-- The locks of a session that a call is under. -/
def inside (w : LockWorld π κ) (k : κ) (s : Nat) : Nat :=
  if (w.userOf s).any fun c => c.stage.holding && lockPair c.name = k then 1 else 0

theorem inside_congr (huser : v.userOf s = w.userOf s) (k : κ) :
    v.inside lockPair k s = w.inside lockPair k s := by
  rw [inside, inside, huser]

theorem inside_of_some (huser : w.userOf s = some c) (k : κ) :
    w.inside lockPair k s = if c.stage.holding ∧ lockPair c.name = k then 1 else 0 := by
  rw [inside, huser, Option.any_some]
  simp only [Bool.and_eq_true, decide_eq_true_eq]

theorem inside_eq_zero (huser : ∀ c, w.userOf s = some c → c.stage.holding = false) (k : κ) :
    w.inside lockPair k s = 0 := by
  cases hc : w.userOf s with
  | none => rw [inside, hc]; rfl
  | some c =>
    rw [inside_of_some lockPair hc, if_neg]
    rw [huser c hc]
    exact fun hboth => Bool.false_ne_true hboth.1

/-- The locks of a session are those of the call that uses it, and what earlier calls have left. -/
structure Sound (w : LockWorld π κ) : Prop where
  paired : w.Paired
  counted : ∀ k s, w.locks.times k s = w.leaked k s + w.inside lockPair k s

variable {lockPair}

/-- Only what becomes of `s` counts. -/
theorem Sound.of_others (hsound : w.Sound lockPair) (hpaired : v.Paired)
    (huser : ∀ t, t ≠ s → v.userOf t = w.userOf t)
    (hlocks : ∀ k t, t ≠ s → v.locks.times k t = w.locks.times k t)
    (hleaked : ∀ k t, t ≠ s → v.leaked k t = w.leaked k t)
    (hcounted : ∀ k, v.locks.times k s = v.leaked k s + v.inside lockPair k s) : v.Sound lockPair := by
  refine ⟨hpaired, fun k t => ?_⟩
  by_cases ht : t = s
  · rw [ht]
    exact hcounted k
  · rw [hlocks k t ht, hleaked k t ht, inside_congr lockPair (huser t ht)]
    exact hsound.counted k t

theorem Sound.setStage (hsound : w.Sound lockPair) (hcall : w.calls n = some c)
    (hclient : c.stage.client? = some s) {stage : JobStage} (hstage : stage.client? = some s)
    (hholding : stage.holding = c.stage.holding) : (w.setStage n c stage).Sound lockPair := by
  obtain ⟨hpaired, hothers, huser⟩ := hsound.paired.setStage hcall hclient hstage rfl rfl
  refine hsound.of_others hpaired hothers (fun _ _ _ => rfl) (fun _ _ _ => rfl) fun k => ?_
  have hold := hsound.paired.userOf_client hcall hclient
  refine (hsound.counted k s).trans (congrArg (w.leaked k s + ·) ?_)
  rw [inside, inside, hold, huser]
  by_cases hconnected : w.connected s
  · rw [if_pos hconnected, if_pos hconnected, Option.any_some, Option.any_some, hholding]
  · rw [if_neg hconnected, if_neg hconnected]

theorem Sound.locked (hsound : w.Sound lockPair) (hcall : w.calls n = some c)
    (hstage : c.stage = .locking s) (hconnected : w.connected s = true) {locks : SessionLocks κ Nat}
    (hlock : w.locks.tryLock (lockPair c.name) s = some locks) :
    ({ w with locks := locks }.setStage n c (.running s)).Sound lockPair := by
  have hclient : c.stage.client? = some s := by rw [hstage]; rfl
  obtain ⟨hpaired, hothers, huser⟩ := hsound.paired.setStage
    (v := { w with locks := locks }.setStage n c (.running s)) hcall hclient rfl rfl rfl
  refine hsound.of_others hpaired hothers (fun k t ht => ?_) (fun _ _ _ => rfl) fun k => ?_
  · refine (times_tryLock hlock k t).trans ?_
    rw [if_neg fun hboth => ht hboth.2, Nat.add_zero]
  · have hold := hsound.paired.userOf_client hcall hclient
    rw [if_pos hconnected] at hold huser
    have hcounted := hsound.counted k s
    rw [inside_of_some lockPair hold, hstage, if_neg fun hboth => Bool.false_ne_true hboth.1] at hcounted
    rw [inside_of_some lockPair huser]
    refine (times_tryLock hlock k s).trans ?_
    rw [hcounted]
    simp only [JobStage.holding, and_true, true_and, eq_comm (a := k)]
    rfl

/-- The session has the lock, and the call has not learned of it. -/
theorem Sound.lockedUnknown (hsound : w.Sound lockPair) (hcall : w.calls n = some c)
    (hstage : c.stage = .locking s) {locks : SessionLocks κ Nat}
    (hlock : w.locks.tryLock (lockPair c.name) s = some locks) (outcome : JobOutcome) :
    (({ w with locks := locks }.leak (lockPair c.name) s).setStage n c (.releasing s outcome)).Sound lockPair := by
  have hclient : c.stage.client? = some s := by rw [hstage]; rfl
  have hkept : (w.setStage n c (.releasing s outcome)).Sound lockPair :=
    hsound.setStage hcall hclient rfl (by rw [hstage]; rfl)
  refine hkept.of_others (s := s) ⟨hkept.paired.taken, hkept.paired.inUse⟩ (fun _ _ => rfl) (fun k t ht => ?_)
    (fun k t ht => ?_) fun k => ?_
  · refine (times_tryLock hlock k t).trans ?_
    rw [if_neg fun hboth => ht hboth.2, Nat.add_zero]
    rfl
  · exact if_neg fun hboth => ht hboth.2
  · have hcounted := hkept.counted k s
    change w.locks.times k s = w.leaked k s + _ at hcounted
    change locks.times k s = (if k = lockPair c.name ∧ s = s then w.leaked k s + 1 else w.leaked k s) +
      (w.setStage n c (.releasing s outcome)).inside lockPair k s
    rw [times_tryLock hlock k s, hcounted]
    split <;> omega

theorem Sound.unlocked (hsound : w.Sound lockPair) (hcall : w.calls n = some c) {outcome : JobOutcome}
    (hstage : c.stage = .unlocking s outcome) (reply : Table.Reply) :
    ((w.unlocked (lockPair c.name) s reply).setStage n c (.releasing s outcome)).Sound lockPair := by
  have hclient : c.stage.client? = some s := by rw [hstage]; rfl
  have hold := hsound.paired.userOf_client hcall hclient
  have hcalls : (w.unlocked (lockPair c.name) s reply).calls = w.calls := by
    rw [LockWorld.unlocked]; split <;> [rfl; (split <;> rfl)]
  have hclients : (w.unlocked (lockPair c.name) s reply).clients = w.clients := by
    rw [LockWorld.unlocked]; split <;> [rfl; (split <;> rfl)]
  obtain ⟨hpaired, hothers, huser⟩ := hsound.paired.setStage
    (v := (w.unlocked (lockPair c.name) s reply).setStage n c (.releasing s outcome)) hcall hclient rfl
    (by rw [LockWorld.setStage, hcalls]; rfl) hclients
  have hzero : ∀ k, ((w.unlocked (lockPair c.name) s reply).setStage n c (.releasing s outcome)).inside
      lockPair k s = 0 := by
    refine inside_eq_zero lockPair fun c' hc' => ?_
    rw [huser] at hc'
    split at hc'
    · rw [← Option.some.inj hc']
      rfl
    · cases hc'
  have hcounted := fun k => hsound.counted k s
  refine hsound.of_others hpaired hothers (fun k t ht => ?_) (fun k t ht => ?_) fun k => ?_
  · change (w.unlocked (lockPair c.name) s reply).locks.times k t = _
    rw [LockWorld.unlocked]
    split
    · rw [times_unlock, if_neg fun hboth => ht hboth.2, Nat.sub_zero]
    · split <;> rfl
  · change (w.unlocked (lockPair c.name) s reply).leaked k t = _
    rw [LockWorld.unlocked]
    split
    · rfl
    · split
      · exact if_neg fun hboth => ht hboth.2
      · rfl
  · rw [hzero k, Nat.add_zero]
    change (w.unlocked (lockPair c.name) s reply).locks.times k s =
      (w.unlocked (lockPair c.name) s reply).leaked k s
    rw [LockWorld.unlocked]
    by_cases hconnected : w.connected s
    · rw [if_pos hconnected] at hold
      have hinside := inside_of_some lockPair hold k
      rw [hstage] at hinside
      simp only [JobStage.holding, true_and, eq_comm (b := k)] at hinside
      split
      · rw [times_unlock, hcounted k, hinside]
        simp only [and_true]
        split <;> rfl
      · refine (hcounted k).trans ?_
        rw [hinside]
        simp only [LockWorld.leak, and_true]
        split <;> rfl
    · rw [if_neg fun hreaches => hconnected (connected_of_reaches hreaches), if_neg hconnected]
      rw [if_neg hconnected] at hold
      rw [hcounted k, inside, hold]
      rfl

theorem Sound.changed (hsound : w.Sound lockPair) (hpaired : v.Paired)
    (huser : ∀ t, t ≠ s → v.userOf t = w.userOf t) (hlocks : v.locks = w.locks) (hleaked : v.leaked = w.leaked)
    (hold : w.userOf s = none ∨ ∃ c, w.userOf s = some c ∧ c.stage.holding = false)
    (hnew : v.userOf s = none ∨ ∃ c, v.userOf s = some c ∧ c.stage.holding = false) : v.Sound lockPair := by
  have hzero : ∀ {u : LockWorld π κ}, (u.userOf s = none ∨ ∃ c, u.userOf s = some c ∧ c.stage.holding = false) →
      ∀ k, u.inside lockPair k s = 0 := by
    intro u huser
    refine inside_eq_zero lockPair fun c hc => ?_
    rcases huser with hnone | ⟨c', hc', hholding⟩
    · rw [hnone] at hc
      cases hc
    · obtain rfl := Option.some.inj (hc'.symm.trans hc)
      exact hholding
  refine hsound.of_others hpaired huser (fun k t _ => by rw [hlocks]) (fun k t _ => by rw [hleaked]) fun k => ?_
  rw [hlocks, hleaked, hzero hnew, ← hzero hold k]
  exact hsound.counted k s

/-- Whatever session ends loses its locks, leaked ones as well. -/
theorem Sound.ended (hsound : w.Sound lockPair) (hpaired : v.Paired) (ended : Nat → Bool)
    (hlocks : v.locks = w.locks.drop ended) (hleaked : v.leaked = fun k s => if ended s then 0 else w.leaked k s)
    (huser : ∀ t, v.userOf t = if ended t then none else w.userOf t) : v.Sound lockPair := by
  refine ⟨hpaired, fun k t => ?_⟩
  rw [hlocks, times_drop, hleaked]
  dsimp only
  by_cases hended : ended t
  · rw [if_pos hended, if_pos hended, inside, huser, if_pos hended]
    rfl
  · rw [if_neg hended, if_neg hended, inside_congr lockPair ((huser t).trans (if_neg hended))]
    exact hsound.counted k t

/-- A call gets a client that nobody uses, or a new one. -/
theorem Sound.connected (hsound : w.Sound lockPair) (hcall : w.calls n = some c) (hstage : c.stage = .connecting)
    (hfree : ∀ client, w.clients s = some client → client.takenBy = none) {client : PoolClient π}
    (htaken : client.takenBy = some n) (hprocess : client.process = c.process) :
    ((w.setClient s (some client)).setStage n c (.locking s)).Sound lockPair := by
  obtain ⟨hpaired, hothers⟩ := hsound.paired.updateBoth
    (v := (w.setClient s (some client)).setStage n c (.locking s)) rfl rfl
    (fun c' t hc' ht => by
      rw [← Option.some.inj (hcall.symm.trans hc'), hstage] at ht
      cases ht)
    (fun client' m hclient' hm => by
      rw [hfree client' hclient'] at hm
      cases hm)
    (.inl ⟨_, client, rfl, rfl, rfl, htaken, hprocess⟩)
  refine hsound.changed hpaired hothers rfl rfl (.inl (userOf_of_not_taken hfree)) ?_
  have huser := hpaired.userOf_client (n := n) (c := { c with stage := .locking s })
    (Function.update_self _ _ _) rfl
  rw [huser]
  split
  · exact .inr ⟨_, rfl, rfl⟩
  · exact .inl rfl

theorem Sound.released (hsound : w.Sound lockPair) (hcall : w.calls n = some c) {outcome : JobOutcome}
    (hstage : c.stage = .releasing s outcome) (hclient : w.clients s = some client) :
    ((w.setClient s (if client.connected then some { client with takenBy := none } else none)).answer n c
      outcome).Sound lockPair := by
  have hclient? : c.stage.client? = some s := by rw [hstage]; rfl
  obtain ⟨client', hclient', htaken, -⟩ := hsound.paired.taken n c s hcall hclient?
  obtain rfl := Option.some.inj (hclient'.symm.trans hclient)
  have hnobody : ∀ client'', (if client'.connected then some { client' with takenBy := none } else none) =
      some client'' → client''.takenBy = none := by
    intro client'' heq
    split at heq
    · rw [← Option.some.inj heq]
    · cases heq
  obtain ⟨hpaired, hothers⟩ := hsound.paired.updateBoth
    (v := (w.setClient s (if client'.connected then some { client' with takenBy := none } else none)).answer n c
      outcome) rfl rfl
    (fun c' t hc' ht => by
      rw [← Option.some.inj (hcall.symm.trans hc'), hclient?] at ht
      exact (Option.some.inj ht).symm)
    (fun client'' m hclient'' hm => by
      rw [← Option.some.inj (hclient.symm.trans hclient''), htaken] at hm
      exact (Option.some.inj hm).symm)
    (.inr ⟨rfl, hnobody⟩)
  refine hsound.changed hpaired hothers rfl rfl ?_ (.inl (userOf_of_not_taken fun client'' heq => ?_))
  · rw [hsound.paired.userOf_client hcall hclient?]
    split
    · exact .inr ⟨c, rfl, by rw [hstage]; rfl⟩
    · exact .inl rfl
  · refine hnobody client'' (Eq.trans ?_ heq)
    exact (Function.update_self s _ w.clients).symm

/-- A call without a client comes, or gives up. -/
theorem Sound.updateCall (hsound : w.Sound lockPair) {call : Option (JobCall π)}
    (hold : ∀ c, w.calls n = some c → c.stage.client? = none)
    (hnew : ∀ c, call = some c → c.stage.client? = none) (answers : List (String × JobOutcome)) :
    Sound lockPair { w with calls := Function.update w.calls n call, answers := answers } := by
  obtain ⟨hpaired, huser⟩ := hsound.paired.updateCall
    (v := { w with calls := Function.update w.calls n call, answers := answers }) rfl rfl hold hnew
  refine ⟨hpaired, fun k t => ?_⟩
  rw [inside_congr lockPair (huser t)]
  exact hsound.counted k t

theorem Sound.times_of_holding (hsound : w.Sound lockPair) (hcall : w.calls n = some c)
    (hclient : c.stage.client? = some s) (hholding : c.stage.holding = true) (hconnected : w.connected s = true) :
    w.locks.times (lockPair c.name) s = w.leaked (lockPair c.name) s + 1 := by
  have huser := hsound.paired.userOf_client hcall hclient
  rw [if_pos hconnected] at huser
  rw [hsound.counted, inside_of_some lockPair huser, if_pos ⟨hholding, rfl⟩]

theorem inside_eq_zero_iff (hpaired : w.Paired) (k : κ) (t : Nat) :
    w.inside lockPair k t = 0 ↔ ∀ m d, w.calls m = some d → d.stage.client? = some t → d.stage.holding = true →
      w.connected t = true → lockPair d.name ≠ k := by
  constructor
  · intro hzero m d hcall hclient hholding hconnected hlock
    have huser := hpaired.userOf_client hcall hclient
    rw [if_pos hconnected] at huser
    rw [inside_of_some lockPair huser, if_pos ⟨hholding, hlock⟩] at hzero
    cases hzero
  · intro hnobody
    cases huser : w.userOf t with
    | none =>
      rw [inside, huser]
      rfl
    | some d =>
      obtain ⟨client, hclient, hrest⟩ := Option.bind_eq_some_iff.mp huser
      split at hrest
      · next hconnected =>
        obtain ⟨m, htaken, hcall⟩ := Option.bind_eq_some_iff.mp hrest
        obtain ⟨d', hcall', hstage⟩ := hpaired.inUse t client m hclient htaken
        obtain rfl := Option.some.inj (hcall'.symm.trans hcall)
        rw [inside_of_some lockPair huser, if_neg]
        rintro ⟨hholding, hlock⟩
        refine hnobody m d' hcall hstage hholding ?_ hlock
        rw [connected, hclient]
        exact hconnected
      · cases hrest

variable [DecidableEq π]

theorem Sound.stepCall (hsound : w.Sound lockPair) (hcall : w.calls n = some c) {a : CallAction}
    (hstep : w.stepCall lockPair n c c.stage a = some v) : v.Sound lockPair := by
  unfold LockWorld.stepCall at hstep
  split at hstep
  · next s hstage =>
    obtain ⟨client, hclient, hrest⟩ := Option.bind_eq_some_iff.mp hstep
    split at hrest
    · next hfree =>
      obtain rfl := Option.some.inj hrest
      refine hsound.connected hcall hstage (fun client' hclient' => ?_) rfl hfree.1
      rw [← Option.some.inj (hclient.symm.trans hclient')]
      exact hfree.2
    · cases hrest
  · next s hstage =>
    split at hstep
    · next hnone =>
      obtain rfl := Option.some.inj hstep
      refine hsound.connected hcall hstage (fun client' hclient' => ?_) rfl rfl
      rw [hnone] at hclient'
      cases hclient'
    · cases hstep
  · next hstage =>
    obtain rfl := Option.some.inj hstep
    refine hsound.updateCall (fun c' hc' => ?_) (fun c' hc' => by cases hc') _
    rw [← Option.some.inj (hcall.symm.trans hc'), hstage]
    rfl
  · next s reply hstage =>
    have hclient : c.stage.client? = some s := by rw [hstage]; rfl
    have hwaiting : c.stage.holding = false := by rw [hstage]; rfl
    split at hstep
    · next hreaches =>
      split at hstep
      · next locks hlock =>
        split at hstep
        · obtain rfl := Option.some.inj hstep
          exact hsound.locked hcall hstage (connected_of_reaches hreaches) hlock
        · obtain rfl := Option.some.inj hstep
          exact hsound.lockedUnknown hcall hstage hlock .threw
      · obtain rfl := Option.some.inj hstep
        exact hsound.setStage hcall hclient rfl hwaiting.symm
    · obtain rfl := Option.some.inj hstep
      exact hsound.setStage hcall hclient rfl hwaiting.symm
  · next s threw hstage =>
    obtain rfl := Option.some.inj hstep
    exact hsound.setStage hcall (by rw [hstage]; rfl) rfl (by rw [hstage]; rfl)
  · next s outcome reply hstage =>
    obtain rfl := Option.some.inj hstep
    exact hsound.unlocked hcall hstage reply
  · next s outcome hstage =>
    obtain ⟨client, hclient, hrest⟩ := Option.bind_eq_some_iff.mp hstep
    obtain rfl := Option.some.inj hrest
    exact hsound.released hcall hstage hclient
  · cases hstep

theorem Sound.crash (hsound : w.Sound lockPair) (process : π)
    (hstep : w.step lockPair (.crash process) = some v) : v.Sound lockPair := by
  obtain rfl := Option.some.inj hstep
  refine hsound.ended ?_ (fun s => (w.clients s).any (·.process = process)) rfl rfl fun t => ?_
  · constructor
    · intro n c s hcall hstage
      obtain ⟨hc, hprocess⟩ := Option.filter_eq_some_iff.mp hcall
      obtain ⟨client, hclient, htaken, heq⟩ := hsound.paired.taken n c s hc hstage
      exact ⟨client, Option.filter_eq_some_iff.mpr ⟨hclient, by rw [heq]; exact hprocess⟩, htaken, heq⟩
    · intro s client n hclient htaken
      obtain ⟨hc, hprocess⟩ := Option.filter_eq_some_iff.mp hclient
      obtain ⟨c, hcall, hstage⟩ := hsound.paired.inUse s client n hc htaken
      obtain ⟨client', hclient', -, heq⟩ := hsound.paired.taken n c s hcall hstage
      obtain rfl := Option.some.inj (hclient'.symm.trans hc)
      exact ⟨c, Option.filter_eq_some_iff.mpr ⟨hcall, by rw [← heq]; exact hprocess⟩, hstage⟩
  · rw [userOf]
    dsimp only
    cases hclient : w.clients t with
    | none => rw [userOf, hclient]; rfl
    | some client =>
      rw [Option.filter_some, Option.any_some]
      by_cases hprocess : client.process = process
      · rw [if_neg (by simpa using hprocess), if_pos (decide_eq_true hprocess), Option.bind_none]
      · rw [if_pos (by simpa using hprocess), if_neg (by simpa using hprocess), userOf, hclient,
          Option.bind_some, Option.bind_some]
        cases htaken : client.takenBy with
        | none => rfl
        | some n =>
          obtain ⟨c, hcall, hstage⟩ := hsound.paired.inUse t client n hclient htaken
          obtain ⟨client', hclient', -, heq⟩ := hsound.paired.taken n c t hcall hstage
          obtain rfl := Option.some.inj (hclient'.symm.trans hclient)
          have hkept : (w.calls n).filter (·.process ≠ process) = w.calls n := by
            rw [hcall, Option.filter_some, if_pos (by rw [← heq]; simpa using hprocess)]
          rw [Option.bind_some, Option.bind_some, hkept]

theorem Sound.step {a : LockAction π} (hsound : w.Sound lockPair) (hstep : w.step lockPair a = some v) :
    v.Sound lockPair := by
  cases a with
  | start n process name =>
    rw [LockWorld.step] at hstep
    split at hstep
    · next hnone =>
      obtain rfl := Option.some.inj hstep
      refine hsound.updateCall (fun c hc => ?_) (fun c hc => ?_) _
      · rw [hnone] at hc
        cases hc
      · rw [← Option.some.inj hc]
        rfl
    · cases hstep
  | call n a =>
    obtain ⟨c, hcall, hrest⟩ := Option.bind_eq_some_iff.mp hstep
    exact hsound.stepCall hcall hrest
  | lose s =>
    obtain ⟨client, hclient, hrest⟩ := Option.bind_eq_some_iff.mp hstep
    obtain rfl := Option.some.inj hrest
    obtain ⟨hpaired, hothers⟩ := hsound.paired.updateClient
      (v := (w.setClient s (some { client with connected := false })).endSessions (· = s)) rfl rfl hclient
      (.inl ⟨false, rfl⟩)
    refine hsound.ended hpaired (· = s) rfl rfl fun t => ?_
    split
    · next ht =>
      rw [of_decide_eq_true ht, userOf]
      change (Function.update w.clients s _ s).bind _ = none
      rw [Function.update_self]
      rfl
    · next ht => exact hothers t fun heq => ht (decide_eq_true heq)
  | reap s =>
    obtain ⟨client, hclient, hrest⟩ := Option.bind_eq_some_iff.mp hstep
    split at hrest
    · next hfree =>
      obtain rfl := Option.some.inj hrest
      obtain ⟨hpaired, hothers⟩ := hsound.paired.updateClient
        (v := (w.setClient s none).endSessions (· = s)) rfl rfl hclient (.inr ⟨hfree, rfl⟩)
      refine hsound.ended hpaired (· = s) rfl rfl fun t => ?_
      split
      · next ht =>
        rw [of_decide_eq_true ht, userOf]
        change (Function.update w.clients s _ s).bind _ = none
        rw [Function.update_self]
        rfl
      · next ht => exact hothers t fun heq => ht (decide_eq_true heq)
    · cases hrest
  | crash process =>
    exact hsound.crash process hstep

theorem sound_of_reach {ok : LockWorld π κ → LockAction π → Prop}
    (hreach : Reach (LockWorld.step lockPair) ok (· = initial) w) : w.Sound lockPair := by
  refine hreach.invariant ?_ fun w a v hsound _ hstep => hsound.step hstep
  rintro w rfl
  refine ⟨⟨fun n c s hcall => ?_, fun s client n hclient => ?_⟩, fun k s => times_empty k s⟩
  · cases hcall
  · cases hclient

/-- Whatever the processes do and the server loses: of two calls under one lock, one has lost its connection. -/
theorem underOneLock {ok : LockWorld π κ → LockAction π → Prop}
    (hreach : Reach (LockWorld.step lockPair) ok (· = initial) w) {n' s' : Nat} {c' : JobCall π} (hne : n ≠ n')
    (hcall : w.calls n = some c) (hcall' : w.calls n' = some c') (hclient : c.stage.client? = some s)
    (hclient' : c'.stage.client? = some s') (hholding : c.stage.holding = true)
    (hholding' : c'.stage.holding = true) (hlock : lockPair c.name = lockPair c'.name) :
    w.connected s = false ∨ w.connected s' = false := by
  have hsound := sound_of_reach hreach
  by_contra hboth
  obtain ⟨hconnected, hconnected'⟩ := not_or.mp hboth
  have htimes := hsound.times_of_holding hcall hclient hholding (eq_true_of_ne_false hconnected)
  have htimes' := hsound.times_of_holding hcall' hclient' hholding' (eq_true_of_ne_false hconnected')
  rw [← hlock] at htimes'
  have hsame : s = s' := by
    refine times_exclusive (l := w.locks) (k := lockPair c.name) ?_ ?_
    · rw [htimes]
      exact Nat.succ_ne_zero _
    · rw [htimes']
      exact Nat.succ_ne_zero _
  rw [← hsame] at hclient'
  exact hne (hsound.paired.call_unique hcall hcall' hclient hclient')

/-- The connection of the first run is lost, and a second process gets the lock while the job goes on. -/
theorem underOneLock_afterLoss : ∃ w : LockWorld Nat String,
    w.connected 7 = false ∨ w.connected 8 = false := by
  obtain ⟨w, hrun, htest⟩ := exists_of_run_any (LockWorld.step id) (initial : LockWorld Nat String)
    [.start 0 0 "jobs:check_sltp", .call 0 (.openClient 7), .call 0 (.tryLock .ok), .lose 7,
      .start 1 1 "jobs:check_sltp", .call 1 (.openClient 8), .call 1 (.tryLock .ok)]
    (fun w => w.calls 0 = some ⟨0, "jobs:check_sltp", .running 7⟩ ∧
      w.calls 1 = some ⟨1, "jobs:check_sltp", .running 8⟩) (by decide)
  obtain ⟨hfirst, hsecond⟩ := of_decide_eq_true htest
  have hreach : Reach (LockWorld.step id) (fun _ _ => True) (· = initial) w :=
    .of_run (.init rfl) (.of_forall fun _ _ _ => trivial) hrun
  exact ⟨w, underOneLock hreach (by decide) hfirst hsecond rfl rfl rfl rfl rfl⟩

/-- A call gets the lock unless another connected call is under it, or has left it to a session that is still
there. -/
theorem lockGranted_iff {ok : LockWorld π κ → LockAction π → Prop}
    (hreach : Reach (LockWorld.step lockPair) ok (· = initial) w) (hcall : w.calls n = some c)
    (hstage : c.stage = .locking s) (hconnected : w.connected s = true)
    (hstep : w.step lockPair (.call n (.tryLock .ok)) = some v) :
    v.calls n = some { c with stage := .running s } ↔
      ∀ t, t ≠ s → w.leaked (lockPair c.name) t = 0 ∧
        ∀ m d, w.calls m = some d → d.stage.client? = some t → d.stage.holding = true → w.connected t = true →
          lockPair d.name ≠ lockPair c.name := by
  have hsound := sound_of_reach hreach
  have hfree : (w.locks.tryLock (lockPair c.name) s).isSome ↔
      ∀ t, t ≠ s → w.leaked (lockPair c.name) t = 0 ∧ w.inside lockPair (lockPair c.name) t = 0 := by
    rw [tryLock_isSome_iff]
    refine forall_congr' fun t => ?_
    rw [not_imp_comm, hsound.counted, Nat.add_eq_zero_iff]
  simp only [inside_eq_zero_iff hsound.paired] at hfree
  rw [← hfree]
  have hreaches : w.reaches s .ok = true := hconnected
  rw [LockWorld.step, hcall, Option.bind_some, hstage, LockWorld.stepCall, if_pos hreaches] at hstep
  split at hstep
  · next locks hlock =>
    rw [if_pos rfl] at hstep
    obtain rfl := Option.some.inj hstep
    rw [hlock]
    exact iff_of_true (Function.update_self _ _ _) rfl
  · next hlock =>
    obtain rfl := Option.some.inj hstep
    rw [hlock]
    refine iff_of_false (fun heq => ?_) Bool.false_ne_true
    have hstages := (Function.update_self _ _ _).symm.trans heq
    cases hstages

/-- The first run's unlock fails; its connection goes back to the pool, and no other process runs the job. -/
theorem lockGranted_iff_afterFailedUnlock : ∃ w v : LockWorld Nat String,
    w.step id (.call 1 (.tryLock .ok)) = some v ∧
      v.calls 1 ≠ some ⟨1, "jobs:check_sltp", .running 8⟩ := by
  obtain ⟨w, hrun, htest⟩ := exists_of_run_any (LockWorld.step id) (initial : LockWorld Nat String)
    [.start 0 0 "jobs:check_sltp", .call 0 (.openClient 7), .call 0 (.tryLock .ok), .call 0 (.finish false),
      .call 0 (.unlock .failed), .call 0 .release, .start 1 1 "jobs:check_sltp", .call 1 (.openClient 8)]
    (fun w => w.calls 1 = some ⟨1, "jobs:check_sltp", .locking 8⟩ ∧ w.connected 8 = true ∧
      w.leaked "jobs:check_sltp" 7 = 1 ∧ (w.step id (.call 1 (.tryLock .ok))).isSome) (by decide)
  obtain ⟨hcall, hconnected, hleaked, hsome⟩ := of_decide_eq_true htest
  obtain ⟨v, hstep⟩ := Option.isSome_iff_exists.mp hsome
  have hreach : Reach (LockWorld.step id) (fun _ _ => True) (· = initial) w :=
    .of_run (.init rfl) (.of_forall fun _ _ _ => trivial) hrun
  refine ⟨w, v, hstep, fun hgranted => ?_⟩
  have hfree := (lockGranted_iff hreach hcall rfl hconnected hstep).mp hgranted 7 (by decide)
  exact absurd (hleaked.symm.trans hfree.1) (by decide)

end Locks

end LockWorld

end PropFirm
