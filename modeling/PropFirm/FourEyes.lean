import PropFirm.AccountUids
import PropFirm.Lib.Sessions
import PropFirm.Lib.Utf16

/-!
# Four eyes

One admin asks for approvals, and others approve or reject. A decision is one transaction: it locks the
request, reads what was decided so far, stores the decision with the status it leads to, and appends to the
audit log. Any number of decisions run at once, every query may fail, and a commit may be done without the
client hearing of it. The handler catches an error of the audit query and goes on, but by then the
transaction is aborted and its commit a rollback: for the database the session has ended. Approvers are
told apart by the names they give.
-/

namespace PropFirm

open Sessions Transition

/-! ### Requests -/

inductive ApprovalDecision
  | approve | reject
  deriving DecidableEq

/-- An element of `approvals_json`. -/
structure ApprovalEntry where
  approver : String
  decision : ApprovalDecision
  comment : String
  time : ℕ
  deriving DecidableEq

inductive FourEyesStatus
  | pending | approved | rejected
  deriving DecidableEq

/-- A row of `admin_four_eyes_requests`. -/
structure FourEyesRequest where
  id : ℤ
  actionType : String
  targetType : String
  targetId : String
  requestedBy : String
  approvals : List ApprovalEntry
  requiredApprovals : ℤ
  status : FourEyesStatus
  decidedAt : Option ℕ
  deriving DecidableEq

instance : Keyed FourEyesRequest ℤ := ⟨FourEyesRequest.id⟩

/-- `String(value || fallback)`. -/
def bodyText (value : Option String) (fallback : String) : String := (value.filter (· ≠ "")).getD fallback

/-- The body of `POST /four-eyes/request`. -/
structure FourEyesForm where
  actionType : Option String
  targetType : Option String
  targetId : Option String
  requestedBy : Option String
  requiredApprovals : Option String
  deriving DecidableEq

def FourEyesForm.required (form : FourEyesForm) : ℤ :=
  let parsed := parseInt (form.requiredApprovals.getD "2").toList
  max 2 (min 5 ((parsed.filter (· ≠ 0)).getD 2))

def FourEyesForm.row? (form : FourEyesForm) (id : ℤ) : Option FourEyesRequest :=
  (form.actionType.filter fun text => 3 ≤ (Utf16.ofString (jsTrim text)).length).map fun text =>
    { id := id
      actionType := jsTrim text
      targetType := jsTrim (bodyText form.targetType "generic")
      targetId := jsTrim (form.targetId.getD "")
      requestedBy := jsTrim (bodyText form.requestedBy "admin")
      approvals := []
      requiredApprovals := form.required
      status := .pending
      decidedAt := none }

/-! ### Decisions -/

/-- A request to `POST /four-eyes/:id/decision`. -/
structure DecisionBody where
  id : String
  decision : Option String
  approver : Option String
  comment : Option String
  now : ℕ
  deriving DecidableEq

structure FourEyesDecision where
  requestId : ℤ
  entry : ApprovalEntry

/-- What is made of the body; the handler refuses everything else before its transaction. -/
def DecisionBody.decision? (b : DecisionBody) : Option FourEyesDecision :=
  (parseInt b.id.toList).bind fun id =>
    let text := (jsTrim (b.decision.getD "")).toLower
    let decision :=
      if text = "approve" then some ApprovalDecision.approve
      else if text = "reject" then some .reject
      else none
    decision.map fun decision =>
      ⟨id, jsTrim (bodyText b.approver "admin"), decision, jsTrim (b.comment.getD ""), b.now⟩

/-- The status after some decisions. -/
def statusAfter (required : ℤ) (approvals : List ApprovalEntry) : FourEyesStatus :=
  let approvedCount := approvals.countP fun a => a.decision = .approve
  let rejectedCount := approvals.countP fun a => a.decision = .reject
  let needed := max 2 (if required = 0 then 2 else required)
  if 0 < rejectedCount then .rejected else if needed ≤ approvedCount then .approved else .pending

/-- An entry of `admin_immutable_audit` about a decision, without its place in the chain. -/
structure FourEyesAudit where
  requestId : ℤ
  decision : ApprovalDecision
  approver : String
  resultingStatus : FourEyesStatus
  approvalsCount : ℕ
  deriving DecidableEq

structure FourEyesStore where
  requests : Table FourEyesRequest
  audit : List FourEyesAudit
  nextId : ℤ

inductive FourEyesWrite
  | insert (form : FourEyesForm)
  | update (id : ℤ) (approvals : List ApprovalEntry) (status : FourEyesStatus) (decidedAt : Option ℕ)
  | audit (entry : FourEyesAudit)

def recorded (approvals : List ApprovalEntry) (status : FourEyesStatus) (decidedAt : Option ℕ) :
    Table.Rewrite FourEyesRequest where
  apply r := { r with approvals := approvals, status := status, decidedAt := decidedAt }
  key_apply _ := rfl

def FourEyesWrite.apply (s : FourEyesStore) : FourEyesWrite → Option FourEyesStore
  | insert form => (form.row? s.nextId).bind fun row =>
      (s.requests.insert? row).map fun requests => { s with requests := requests, nextId := s.nextId + 1 }
  | update id approvals status decidedAt =>
    some { s with requests := s.requests.updateAt id (recorded approvals status decidedAt) }
  | audit entry => some { s with audit := s.audit ++ [entry] }

namespace FourEyesDecision

variable (d : FourEyesDecision) (r : FourEyesRequest)

def statusOf : FourEyesStatus := statusAfter r.requiredApprovals (r.approvals ++ [d.entry])

def update : FourEyesWrite :=
  .update d.requestId (r.approvals ++ [d.entry]) (d.statusOf r)
    (if d.statusOf r = .pending then none else some d.entry.time)

def audited : FourEyesAudit where
  requestId := d.requestId
  decision := d.entry.decision
  approver := d.entry.approver
  resultingStatus := d.statusOf r
  approvalsCount := (r.approvals ++ [d.entry]).length

def append : Body FourEyesStore FourEyesWrite := .write [.audit (d.audited r)] .commit

/-- From the `UPDATE` on. The audit call reads the end of the log before it appends. -/
def store : Body FourEyesStore FourEyesWrite := .write [d.update r] (.read fun _ => d.append r)

def body : Body FourEyesStore FourEyesWrite := .read fun s =>
  match s.requests.find? d.requestId with
  | none => .throw
  | some r =>
    if r.status ≠ .pending then .throw
    else if r.approvals.any fun a => a.approver = d.entry.approver then .throw
    else d.store r

end FourEyesDecision

inductive FourEyesCall
  | request (form : FourEyesForm)
  | decide (body : DecisionBody)
  deriving DecidableEq

def FourEyesCall.decision? : FourEyesCall → Option FourEyesDecision
  | request _ => none
  | decide body => body.decision?

inductive FourEyesLock
  | sequence
  | row (id : ℤ)
  deriving DecidableEq

/-- A request is one statement, so that no two of them are under way at once. -/
def FourEyesCall.transaction : FourEyesCall → Transaction FourEyesStore FourEyesWrite FourEyesLock
  | request form => ⟨.sequence, fun _ => true, .write [.insert form] .commit⟩
  | decide body => body.decision?.elim ⟨.sequence, fun _ => true, .throw⟩ fun d =>
      ⟨.row d.requestId, fun _ => true, d.body⟩

abbrev FourEyesState := Sessions.State FourEyesStore FourEyesWrite FourEyesLock FourEyesCall

def fourEyesStep : FourEyesState → Sessions.Action FourEyesCall → Option FourEyesState :=
  Sessions.step FourEyesWrite.apply FourEyesCall.transaction

def noFourEyes : FourEyesState := .initial ⟨Table.empty, [], 1⟩

/-! ### Inside a transaction -/

/-- What a decision has found out about its request, which it has locked. -/
structure FourEyesDecision.Accepts (d : FourEyesDecision) (s : FourEyesStore) (r : FourEyesRequest) : Prop where
  found : s.requests.find? d.requestId = some r
  pending : r.status = .pending
  fresh : d.entry.approver ∉ r.approvals.map ApprovalEntry.approver

namespace FourEyesCall

/-- What a session still has to do, and what it has written. -/
inductive Midway (s : FourEyesStore) (rest : Body FourEyesStore FourEyesWrite) (writes : List FourEyesWrite) :
    FourEyesCall → Prop
  | throwing {call : FourEyesCall} (hrest : rest = .throw) : Midway s rest writes call
  | requesting {form : FourEyesForm} (hrest : rest = .write [.insert form] .commit) (hwrites : writes = []) :
    Midway s rest writes (request form)
  | requested {form : FourEyesForm} (hrest : rest = .commit) (hwrites : writes = [.insert form]) :
    Midway s rest writes (request form)
  | unread {b : DecisionBody} {d : FourEyesDecision} (hd : b.decision? = some d) (hrest : rest = d.body)
    (hwrites : writes = []) : Midway s rest writes (decide b)
  | storing {b : DecisionBody} {d : FourEyesDecision} {r : FourEyesRequest} (hd : b.decision? = some d)
    (haccepts : d.Accepts s r) (hrest : rest = d.store r) (hwrites : writes = []) :
    Midway s rest writes (decide b)
  | stored {b : DecisionBody} {d : FourEyesDecision} {r : FourEyesRequest} (hd : b.decision? = some d)
    (haccepts : d.Accepts s r) (hrest : rest = .read fun _ => d.append r) (hwrites : writes = [d.update r]) :
    Midway s rest writes (decide b)
  | appending {b : DecisionBody} {d : FourEyesDecision} {r : FourEyesRequest} (hd : b.decision? = some d)
    (haccepts : d.Accepts s r) (hrest : rest = d.append r) (hwrites : writes = [d.update r]) :
    Midway s rest writes (decide b)
  | committing {b : DecisionBody} {d : FourEyesDecision} {r : FourEyesRequest} (hd : b.decision? = some d)
    (haccepts : d.Accepts s r) (hrest : rest = .commit)
    (hwrites : writes = [d.update r, .audit (d.audited r)]) : Midway s rest writes (decide b)

/-- What a commit brings. -/
inductive Effect (s s' : FourEyesStore) : FourEyesCall → Prop
  | requested {form : FourEyesForm} {row : FourEyesRequest} (hrow : form.row? s.nextId = some row)
    (hinsert : s.requests.insert? row = some s'.requests) (haudit : s'.audit = s.audit) : Effect s s' (request form)
  | decided {b : DecisionBody} {d : FourEyesDecision} {r : FourEyesRequest} (hd : b.decision? = some d)
    (haccepts : d.Accepts s r)
    (hrequests : s'.requests = s.requests.updateAt d.requestId (recorded (r.approvals ++ [d.entry])
      (d.statusOf r) (if d.statusOf r = .pending then none else some d.entry.time)))
    (haudit : s'.audit = s.audit ++ [d.audited r]) : Effect s s' (decide b)

variable {s s' : FourEyesStore} {rest rest' : Body FourEyesStore FourEyesWrite}
  {writes writes' : List FourEyesWrite} {call call' : FourEyesCall} {d : FourEyesDecision} {r : FourEyesRequest}

theorem midway_locked (call : FourEyesCall) (s : FourEyesStore) : call.Midway s call.transaction.body [] := by
  cases call with
  | request form => exact .requesting rfl rfl
  | decide b =>
    cases hd : b.decision? with
    | none => exact .throwing (by rw [transaction, hd]; rfl)
    | some d => exact .unread hd (by rw [transaction, hd]; rfl) rfl

theorem lock_decide {b : DecisionBody} (hd : b.decision? = some d) :
    (decide b).transaction.lock = .row d.requestId := by
  rw [transaction, hd]
  rfl

/-- The read of the locked row ends the transaction or finds a request that is pending. -/
theorem midway_read {b : DecisionBody} (hd : b.decision? = some d)
    (hadvance : d.body.advance FourEyesWrite.apply s [] = some (rest', writes')) :
    (decide b).Midway s rest' writes' := by
  obtain ⟨view, hview, hrest, rfl⟩ := Body.advance_read hadvance
  obtain rfl := Option.some.inj hview
  cases hfind : s.requests.find? d.requestId with
  | none =>
    rw [hfind] at hrest
    exact .throwing hrest
  | some r =>
    simp only [hfind] at hrest
    split at hrest
    · exact .throwing hrest
    · rename_i hpending
      split at hrest
      · exact .throwing hrest
      · rename_i hfresh
        have hnot : d.entry.approver ∉ r.approvals.map ApprovalEntry.approver := by
          simpa [List.any_eq_true] using hfresh
        exact .storing hd ⟨hfind, not_not.mp hpending, hnot⟩ hrest rfl

theorem Midway.advance (hmidway : call.Midway s rest writes)
    (hadvance : rest.advance FourEyesWrite.apply s writes = some (rest', writes')) :
    call.Midway s rest' writes' := by
  cases hmidway with
  | throwing hrest =>
    subst hrest
    cases hadvance
  | requesting hrest hwrites =>
    subst hrest hwrites
    obtain ⟨hrest, hwrites⟩ := Body.advance_write hadvance
    exact .requested hrest hwrites
  | requested hrest hwrites =>
    subst hrest
    cases hadvance
  | unread hd hrest hwrites =>
    subst hrest hwrites
    exact midway_read hd hadvance
  | storing hd haccepts hrest hwrites =>
    subst hrest hwrites
    obtain ⟨hrest, hwrites⟩ := Body.advance_write hadvance
    exact .stored hd haccepts hrest hwrites
  | stored hd haccepts hrest hwrites =>
    subst hrest
    obtain ⟨_, _, hrest, hwrites'⟩ := Body.advance_read hadvance
    exact .appending hd haccepts hrest (hwrites'.trans hwrites)
  | appending hd haccepts hrest hwrites =>
    subst hrest hwrites
    obtain ⟨hrest, hwrites⟩ := Body.advance_write hadvance
    exact .committing hd haccepts hrest hwrites
  | committing hd haccepts hrest hwrites =>
    subst hrest
    cases hadvance

theorem Midway.commit (hmidway : call.Midway s .commit writes)
    (hrun : run FourEyesWrite.apply s writes = some s') : call.Effect s s' := by
  cases hmidway with
  | throwing hrest => cases hrest
  | requesting hrest => cases hrest
  | unread hd hrest => cases hrest
  | storing hd haccepts hrest => cases hrest
  | stored hd haccepts hrest => cases hrest
  | appending hd haccepts hrest => cases hrest
  | requested hrest hwrites =>
    subst hwrites
    obtain ⟨view, hview, hrun⟩ := Option.bind_eq_some_iff.mp hrun
    obtain rfl := Option.some.inj hrun
    obtain ⟨row, hrow, hmap⟩ := Option.bind_eq_some_iff.mp hview
    obtain ⟨requests, hinsert, rfl⟩ := Option.map_eq_some_iff.mp hmap
    exact .requested hrow hinsert rfl
  | committing hd haccepts hrest hwrites =>
    subst hwrites
    obtain rfl := Option.some.inj hrun
    exact .decided hd haccepts rfl rfl

/-- A locked request is as it was found after a commit under another lock. -/
theorem accepts_frame (haccepts : d.Accepts s r) (heffect : call'.Effect s s')
    (hlock : FourEyesLock.row d.requestId ≠ call'.transaction.lock) : d.Accepts s' r := by
  refine ⟨?_, haccepts.pending, haccepts.fresh⟩
  cases heffect with
  | requested hrow hinsert haudit =>
    have hne := (Table.insert?_eq_some hinsert).1 r (Table.find?_eq_some.mp haccepts.found).1
    rw [(Table.find?_eq_some.mp haccepts.found).2] at hne
    rw [Table.find?_of_insert? hinsert, if_neg hne.symm]
    exact haccepts.found
  | decided hd hother hrequests haudit =>
    rw [lock_decide hd] at hlock
    have hne := fun hid => hlock (congrArg FourEyesLock.row hid)
    simp only [hrequests, Table.find?_updateAt, if_neg hne, Option.map_id', haccepts.found]

theorem Midway.frame (hmidway : call.Midway s rest writes) (hother : call'.Midway s .commit writes')
    (hlock : call.transaction.lock ≠ call'.transaction.lock)
    (hrun : run FourEyesWrite.apply s writes' = some s') : call.Midway s' rest writes := by
  have heffect := hother.commit hrun
  cases hmidway with
  | throwing hrest => exact .throwing hrest
  | requesting hrest hwrites => exact .requesting hrest hwrites
  | requested hrest hwrites => exact .requested hrest hwrites
  | unread hd hrest hwrites => exact .unread hd hrest hwrites
  | storing hd haccepts hrest hwrites =>
    exact .storing hd (accepts_frame haccepts heffect (lock_decide hd ▸ hlock)) hrest hwrites
  | stored hd haccepts hrest hwrites =>
    exact .stored hd (accepts_frame haccepts heffect (lock_decide hd ▸ hlock)) hrest hwrites
  | appending hd haccepts hrest hwrites =>
    exact .appending hd (accepts_frame haccepts heffect (lock_decide hd ▸ hlock)) hrest hwrites
  | committing hd haccepts hrest hwrites =>
    exact .committing hd (accepts_frame haccepts heffect (lock_decide hd ▸ hlock)) hrest hwrites

end FourEyesCall

/-! ### What a request tells -/

theorem statusAfter_eq_rejected {required : ℤ} {approvals : List ApprovalEntry} :
    statusAfter required approvals = .rejected ↔ ∃ a ∈ approvals, a.decision = .reject := by
  have hcount := List.countP_pos_iff (p := fun a : ApprovalEntry => decide (a.decision = .reject)) (l := approvals)
  simp only [decide_eq_true_eq] at hcount
  rw [statusAfter, ← hcount]
  by_cases hreject : 0 < approvals.countP fun a => a.decision = .reject
  · rw [if_pos hreject]
    exact iff_of_true rfl hreject
  · rw [if_neg hreject]
    refine iff_of_false ?_ hreject
    by_cases hneeded : max 2 (if required = 0 then 2 else required) ≤ approvals.countP fun a => a.decision = .approve
    · rw [if_pos hneeded]
      simp
    · rw [if_neg hneeded]
      simp

/-- Nobody has rejected, and as many as are needed have approved. -/
theorem statusAfter_eq_approved {required : ℤ} (hrequired : 2 ≤ required) {approvals : List ApprovalEntry} :
    statusAfter required approvals = .approved ↔
      required ≤ approvals.length ∧ ∀ a ∈ approvals, a.decision = .approve := by
  have hneeded : max 2 (if required = 0 then 2 else required) = required := by
    rw [if_neg (by omega)]
    omega
  rw [statusAfter, hneeded]
  by_cases hreject : 0 < approvals.countP fun a => a.decision = .reject
  · rw [if_pos hreject]
    obtain ⟨a, ha, hdecision⟩ := List.countP_pos_iff.mp hreject
    refine iff_of_false (by simp) fun hall => ?_
    rw [decide_eq_true_eq, hall.2 a ha] at hdecision
    cases hdecision
  · rw [if_neg hreject]
    have hall : ∀ a ∈ approvals, a.decision = .approve := by
      intro a ha
      cases hdecision : a.decision with
      | approve => rfl
      | reject => exact absurd (List.countP_pos_iff.mpr ⟨a, ha, decide_eq_true hdecision⟩) hreject
    have hlength : (approvals.countP fun a => a.decision = .approve) = approvals.length :=
      List.countP_eq_length.mpr fun a ha => decide_eq_true (hall a ha)
    rw [hlength]
    by_cases henough : required ≤ approvals.length
    · rw [if_pos henough]
      exact iff_of_true rfl ⟨henough, hall⟩
    · rw [if_neg henough]
      exact iff_of_false (by simp) fun h => henough h.1

/-- The audit entry of the decision in place `n`. -/
def auditAt (id required : ℤ) (decisions : List ApprovalEntry) (n : ℕ) (a : ApprovalEntry) : FourEyesAudit where
  requestId := id
  decision := a.decision
  approver := a.approver
  resultingStatus := statusAfter required (decisions.take (n + 1))
  approvalsCount := n + 1

/-- The request tells of these decisions, and the log has them all. -/
structure FourEyesRequest.Follows (r : FourEyesRequest) (decisions : List ApprovalEntry)
    (log : List FourEyesAudit) : Prop where
  required : 2 ≤ r.requiredApprovals
  approvals : r.approvals = decisions
  distinct : (decisions.map ApprovalEntry.approver).Nodup
  status : r.status = statusAfter r.requiredApprovals decisions
  undecided : ∀ n < decisions.length, statusAfter r.requiredApprovals (decisions.take n) = .pending
  decidedAt : r.decidedAt = none ↔ r.status = .pending
  logged : log = decisions.mapIdx (auditAt r.id r.requiredApprovals decisions)

/-- The decisions on a request, in the order of their commits. -/
def decisionsOn (committed : List FourEyesCall) (id : ℤ) : List ApprovalEntry :=
  committed.reverse.filterMap fun call =>
    (call.decision?.filter fun d => d.requestId = id).map FourEyesDecision.entry

def FourEyesStore.logOf (s : FourEyesStore) (id : ℤ) : List FourEyesAudit := s.audit.filter fun e => e.requestId = id

section Follows

variable {s s' : FourEyesStore} {d : FourEyesDecision} {r : FourEyesRequest} {decisions : List ApprovalEntry}
  {log : List FourEyesAudit}

theorem follows_row {form : FourEyesForm} {id : ℤ} (hrow : form.row? id = some r) : r.Follows [] [] := by
  obtain ⟨text, -, rfl⟩ := Option.map_eq_some_iff.mp hrow
  have hrequired : 2 ≤ form.required := le_max_left _ _
  refine ⟨hrequired, rfl, List.nodup_nil, ?_, ?_, iff_of_true rfl rfl, rfl⟩
  · have hneeded : ¬ max 2 (if form.required = 0 then 2 else form.required) ≤ 0 := by omega
    rw [statusAfter]
    exact (if_neg hneeded).symm
  · intro n hn
    exact absurd hn (Nat.not_lt_zero n)

theorem FourEyesRequest.Follows.decided (hfollows : r.Follows decisions log) (haccepts : d.Accepts s r) :
    ((recorded (r.approvals ++ [d.entry]) (d.statusOf r)
      (if d.statusOf r = .pending then none else some d.entry.time)).apply r).Follows
        (decisions ++ [d.entry]) (log ++ [d.audited r]) := by
  have hid : r.id = d.requestId := (Table.find?_eq_some.mp haccepts.found).2
  obtain rfl := hfollows.approvals
  refine ⟨hfollows.required, rfl, ?_, rfl, ?_, ?_, ?_⟩
  · rw [List.map_append]
    exact hfollows.distinct.append (List.nodup_singleton _) (List.disjoint_singleton.mpr haccepts.fresh)
  · intro n hn
    rw [List.length_append, List.length_singleton] at hn
    by_cases hlast : n < r.approvals.length
    · rw [List.take_append_of_le_length hlast.le]
      exact hfollows.undecided n hlast
    · obtain rfl : n = r.approvals.length := by omega
      rw [List.take_left]
      exact hfollows.status.symm.trans haccepts.pending
  · show (if d.statusOf r = .pending then none else some d.entry.time) = none ↔ d.statusOf r = .pending
    split <;> simp_all
  · rw [List.mapIdx_append, hfollows.logged]
    congr 1
    · refine List.mapIdx_eq_mapIdx_iff.mpr fun n hn => ?_
      show auditAt r.id r.requiredApprovals r.approvals n _ = auditAt r.id r.requiredApprovals _ n _
      rw [auditAt, auditAt, List.take_append_of_le_length hn]
    · show [d.audited r] = [auditAt r.id r.requiredApprovals (r.approvals ++ [d.entry]) (0 + r.approvals.length) d.entry]
      have hall : (r.approvals ++ [d.entry]).take (r.approvals.length + 1) = r.approvals ++ [d.entry] :=
        List.take_of_length_le (by simp)
      rw [auditAt, Nat.zero_add, hall, FourEyesDecision.audited, hid, List.length_append, List.length_singleton]
      rfl

end Follows

/-! ### Runs -/

/-- Every request tells of the committed decisions on it, and what is committed is on requests that exist. -/
structure FourEyesSound (w : FourEyesState) : Prop where
  follows : ∀ r ∈ w.store.requests.rows, r.Follows (decisionsOn w.committed r.id) (w.store.logOf r.id)
  decided : ∀ call ∈ w.committed, ∀ d, call.decision? = some d → ∃ r ∈ w.store.requests.rows, r.id = d.requestId
  logged : ∀ e ∈ w.store.audit, ∃ r ∈ w.store.requests.rows, r.id = e.requestId

theorem decisionsOn_cons (call : FourEyesCall) (committed : List FourEyesCall) (id : ℤ) :
    decisionsOn (call :: committed) id = decisionsOn committed id ++
      ((call.decision?.filter fun d => d.requestId = id).map FourEyesDecision.entry).toList := by
  rw [decisionsOn, List.reverse_cons, List.filterMap_append, decisionsOn, List.filterMap_cons]
  cases (call.decision?.filter fun d => d.requestId = id).map FourEyesDecision.entry <;> rfl

theorem decisionsOn_eq_nil {committed : List FourEyesCall} {id : ℤ}
    (hnone : ∀ call ∈ committed, ∀ d, call.decision? = some d → d.requestId ≠ id) : decisionsOn committed id = [] := by
  refine List.filterMap_eq_nil_iff.mpr fun call hcall => ?_
  rw [Option.map_eq_none_iff, Option.filter_eq_none_iff]
  intro d hd
  simpa using hnone call (List.mem_reverse.mp hcall) d hd

namespace FourEyesSound

variable {w w' : FourEyesState} {call : FourEyesCall}

theorem requested (hsound : FourEyesSound w) {form : FourEyesForm} {row : FourEyesRequest}
    (hrow : form.row? w.store.nextId = some row) (hinsert : w.store.requests.insert? row = some w'.store.requests)
    (haudit : w'.store.audit = w.store.audit) (hcommitted : w'.committed = .request form :: w.committed) :
    FourEyesSound w' := by
  obtain ⟨hfresh, hrows⟩ := Table.insert?_eq_some hinsert
  have hdecisions (id : ℤ) : decisionsOn w'.committed id = decisionsOn w.committed id := by
    rw [hcommitted, decisionsOn_cons]
    exact List.append_nil _
  have hlog (id : ℤ) : w'.store.logOf id = w.store.logOf id := by
    rw [FourEyesStore.logOf, haudit, FourEyesStore.logOf]
  have hold : ∀ id, (∃ r ∈ w.store.requests.rows, r.id = id) → ∃ r ∈ w'.store.requests.rows, r.id = id := by
    rintro id ⟨r, hr, hid⟩
    exact ⟨r, hrows ▸ List.mem_cons_of_mem row hr, hid⟩
  refine ⟨fun r hr => ?_, fun call hcall d hd => ?_, fun e he => ?_⟩
  · rw [hdecisions, hlog]
    rw [hrows] at hr
    rcases List.mem_cons.mp hr with rfl | hr
    · have hnone : decisionsOn w.committed r.id = [] := by
        refine decisionsOn_eq_nil fun call hcall d hd hid => ?_
        obtain ⟨r', hr', hid'⟩ := hsound.decided call hcall d hd
        exact hfresh r' hr' (hid'.trans hid)
      have hempty : w.store.logOf r.id = [] := by
        refine List.filter_eq_nil_iff.mpr fun e he hid => ?_
        obtain ⟨r', hr', hid'⟩ := hsound.logged e he
        exact hfresh r' hr' (hid'.trans (of_decide_eq_true hid))
      rw [hnone, hempty]
      exact follows_row hrow
    · exact hsound.follows r hr
  · rw [hcommitted] at hcall
    rcases List.mem_cons.mp hcall with rfl | hcall
    · cases hd
    · exact hold _ (hsound.decided call hcall d hd)
  · rw [haudit] at he
    exact hold _ (hsound.logged e he)

theorem decide (hsound : FourEyesSound w) {b : DecisionBody} {d : FourEyesDecision} {r : FourEyesRequest}
    (hd : b.decision? = some d) (haccepts : d.Accepts w.store r)
    (hrequests : w'.store.requests = w.store.requests.updateAt d.requestId (recorded (r.approvals ++ [d.entry])
      (d.statusOf r) (if d.statusOf r = .pending then none else some d.entry.time)))
    (haudit : w'.store.audit = w.store.audit ++ [d.audited r])
    (hcommitted : w'.committed = .decide b :: w.committed) : FourEyesSound w' := by
  have hdecision : (FourEyesCall.decide b).decision? = some d := hd
  obtain ⟨hmem, hid⟩ := Table.find?_eq_some.mp haccepts.found
  change r.id = d.requestId at hid
  have hdecisions (id : ℤ) : decisionsOn w'.committed id =
      decisionsOn w.committed id ++ if d.requestId = id then [d.entry] else [] := by
    rw [hcommitted, decisionsOn_cons, hdecision]
    by_cases h : d.requestId = id <;> simp [h]
  have hlog (id : ℤ) : w'.store.logOf id =
      w.store.logOf id ++ if d.requestId = id then [d.audited r] else [] := by
    rw [FourEyesStore.logOf, haudit, List.filter_append, FourEyesStore.logOf]
    by_cases h : d.requestId = id <;> simp [FourEyesDecision.audited, h]
  have hold : ∀ id, (∃ r ∈ w.store.requests.rows, r.id = id) → ∃ r ∈ w'.store.requests.rows, r.id = id := by
    rintro id ⟨r', hr', rfl⟩
    rw [hrequests]
    refine ⟨_, List.mem_map_of_mem hr', ?_⟩
    split <;> rfl
  have hrow : ∃ r ∈ w'.store.requests.rows, r.id = d.requestId := hold _ ⟨r, hmem, hid⟩
  refine ⟨fun r' hr' => ?_, fun call hcall d' hd' => ?_, fun e he => ?_⟩
  · rw [hrequests] at hr'
    obtain ⟨old, hold, rfl⟩ := List.mem_map.mp hr'
    by_cases hsame : Keyed.key old = d.requestId
    · obtain rfl : old = r :=
        List.inj_on_of_nodup_map w.store.requests.nodup hold hmem (hsame.trans hid.symm)
      rw [if_pos (decide_eq_true hsame), hdecisions, hlog]
      have hid' : d.requestId = old.id := hid.symm
      show FourEyesRequest.Follows _ (_ ++ if d.requestId = old.id then _ else _)
        (_ ++ if d.requestId = old.id then _ else _)
      rw [if_pos hid', if_pos hid']
      exact (hsound.follows old hold).decided haccepts
    · have hother : d.requestId ≠ old.id := fun h => hsame h.symm
      rw [if_neg (by simpa using hsame), hdecisions, hlog, if_neg hother, if_neg hother, List.append_nil,
        List.append_nil]
      exact hsound.follows old hold
  · rw [hcommitted] at hcall
    rcases List.mem_cons.mp hcall with rfl | hcall
    · rw [hdecision] at hd'
      exact Option.some.inj hd' ▸ hrow
    · exact hold _ (hsound.decided call hcall d' hd')
  · rw [haudit] at he
    rcases List.mem_append.mp he with he | he
    · exact hold _ (hsound.logged e he)
    · exact List.mem_singleton.mp he ▸ hrow

theorem commit (hsound : FourEyesSound w) (heffect : call.Effect w.store w'.store)
    (hcommitted : w'.committed = call :: w.committed) : FourEyesSound w' := by
  cases heffect with
  | requested hrow hinsert haudit => exact hsound.requested hrow hinsert haudit hcommitted
  | decided hd haccepts hrequests haudit => exact hsound.decide hd haccepts hrequests haudit hcommitted

end FourEyesSound

theorem fourEyes_guarded {w : FourEyesState} (hreach : Reach fourEyesStep (fun _ _ => True) (· = noFourEyes) w) :
    Guarded FourEyesCall.transaction (fun call s rest writes => call.Midway s rest writes) w :=
  guarded_of_reach (fun call s _ => call.midway_locked s) (fun _ _ _ _ _ _ hmid hadvance => hmid.advance hadvance)
    (fun _ _ _ _ _ _ _ hmid hother hlock hrun => hmid.frame hother hlock hrun) (fun _ hw => ⟨_, hw⟩) hreach

theorem fourEyes_sound {w : FourEyesState} (hreach : Reach fourEyesStep (fun _ _ => True) (· = noFourEyes) w) :
    FourEyesSound w := by
  refine hreach.invariant_relative fourEyes_guarded ?_ ?_
  · rintro w rfl
    exact ⟨fun _ h => absurd h List.not_mem_nil, fun _ h => absurd h List.not_mem_nil,
      fun _ h => absurd h List.not_mem_nil⟩
  · intro w a w' hguarded hsound _ hstep
    rcases step_store hstep with ⟨hstore, hcommitted⟩ | ⟨n, call, writes, hsession, hrun, hcommitted⟩
    · refine ⟨?_, ?_, ?_⟩
      · rw [hstore, hcommitted]
        exact hsound.follows
      · rw [hstore, hcommitted]
        exact hsound.decided
      · rw [hstore]
        exact hsound.logged
    · exact hsound.commit ((hguarded n call .commit writes hsession).2.commit hrun) hcommitted

/-- However decisions interleave and whatever fails: a request tells of the decisions that were committed on
it, by different approvers and none after it was decided; it is approved if as many as it requires have
approved and nobody has rejected; and the audit log has each of them with the status it led to. -/
theorem fourEyes_reached {w : FourEyesState} (hreach : Reach fourEyesStep (fun _ _ => True) (· = noFourEyes) w)
    {r : FourEyesRequest} (hr : r ∈ w.store.requests.rows) :
    r.Follows (decisionsOn w.committed r.id) (w.store.logOf r.id) ∧
      (r.status = .approved ↔
        r.requiredApprovals ≤ r.approvals.length ∧ ∀ a ∈ r.approvals, a.decision = .approve) ∧
      (r.status = .rejected ↔ ∃ a ∈ r.approvals, a.decision = .reject) := by
  have hfollows := (fourEyes_sound hreach).follows r hr
  refine ⟨hfollows, ?_, ?_⟩
  · rw [hfollows.status, hfollows.approvals]
    exact statusAfter_eq_approved hfollows.required
  · rw [hfollows.status, hfollows.approvals]
    exact statusAfter_eq_rejected

def promotionForm : FourEyesForm := ⟨some "raise_limit", none, some "7", some "ann", none⟩

def approvalBy (approver : String) (now : ℕ) : FourEyesCall :=
  .decide ⟨"1", some "Approve", some approver, none, now⟩

def queries (n : ℕ) (replies : List Table.Reply) : List (Sessions.Action FourEyesCall) :=
  replies.map fun reply => .query n reply

/-- The audit query of the first approval fails, it comes again, and the last commit is not heard of. -/
def approvedTwice : List (Sessions.Action FourEyesCall) :=
  [.start 0 (.request promotionForm)] ++ queries 0 [.ok, .ok, .ok] ++
    [.start 1 (approvalBy "bob" 10), .start 2 (approvalBy "eve" 20), .start 3 (approvalBy "bob" 30)] ++
    queries 1 [.ok, .ok, .ok, .ok, .failed] ++ queries 3 [.ok, .ok, .ok, .ok, .ok, .ok] ++
    queries 2 [.ok, .ok, .ok, .ok, .ok, .lost]

theorem fourEyes_reached_approvedTwice : ∃ w, run fourEyesStep noFourEyes approvedTwice = some w ∧
    ∃ r ∈ w.store.requests.rows, r.status = .approved ∧
      r.approvals = [⟨"bob", .approve, "", 30⟩, ⟨"eve", .approve, "", 20⟩] ∧
      r.Follows (decisionsOn w.committed r.id) (w.store.logOf r.id) := by
  obtain ⟨w, hrun, htest⟩ := exists_of_run_any fourEyesStep noFourEyes approvedTwice
    (fun w => ∃ r ∈ w.store.requests.rows, r.status = .approved ∧
      r.approvals = [⟨"bob", .approve, "", 30⟩, ⟨"eve", .approve, "", 20⟩]) (by decide +kernel)
  obtain ⟨r, hr, hstatus, happrovals⟩ := of_decide_eq_true htest
  have hreach : Reach fourEyesStep (fun _ _ => True) (· = noFourEyes) w :=
    .of_run (.init rfl) (.of_forall fun _ _ _ => trivial) hrun
  exact ⟨w, hrun, r, hr, hstatus, happrovals, (fourEyes_reached hreach hr).1⟩

end PropFirm
