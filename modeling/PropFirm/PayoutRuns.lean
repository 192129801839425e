import PropFirm.Payouts

/-!
# Payouts over time

Requests, approvals and rejections interleave with everything else that happens to the accounts, which
is left open except that the ledger only grows. Each call is one transaction, because it locks the
payout's row first. `payments` records the calls that paid.

The bulk route parses the id it is given before it looks the payout up: what such an id selects is the
parameter `lookup`, nothing at all where the column cannot hold the parsed number.
-/

namespace PropFirm

open Transition

/-- A call that paid, with the first approver its payout had on record. -/
structure Payment where
  payoutId : Nat
  accountId : Nat
  amount : Cents
  actor : String
  threshold : Option ℚ
  firstApprover : Option String
  deriving DecidableEq

def Payment.of (payout : Payout) (actor : String) (setting : Option ℚ) : Payment where
  payoutId := payout.id
  accountId := payout.accountId
  amount := payout.amountRequested
  actor := actor
  threshold := resolveDualApprovalThreshold setting
  firstApprover := payout.firstApproverAdminId

structure PayoutWorld where
  state : PayoutDb
  payments : List Payment

inductive PayoutAction
  | request (request : PayoutRequest)
  | approve (payoutId : Nat) (actor : String) (setting : Option ℚ) (transactionId : Option String)
  | reject (payoutId : Nat) (reason : Option String)
  | bulkApprove (rawId : Nat) (actor : String) (setting : Option ℚ) (transactionId : Option String)
  | bulkReject (rawId : Nat) (reason : String)
  | elsewhere (db : Db) (users : Table User) (terms : Table PayoutTerms)

namespace PayoutWorld

/-- One call of `approvePayout`; an error leaves the state as it was. -/
def approve (w : PayoutWorld) (payoutId : Nat) (actor : String) (setting : Option ℚ)
    (transactionId : Option String) : PayoutWorld :=
  match approvePayout w.state payoutId actor setting transactionId with
  | .error _ => w
  | .ok (state, .awaitingSecondApproval _ _) => { w with state := state }
  | .ok (state, .paid) =>
    { state := state
      payments :=
        ((w.state.payout? payoutId).map (Payment.of · actor setting)).toList ++ w.payments }

variable {lookup : Nat → Option Nat}

def step (lookup : Nat → Option Nat) (w : PayoutWorld) : PayoutAction → Option PayoutWorld
  | .request request => (requestPayout w.state request).toOption.map fun state => { w with state := state }
  | .approve payoutId actor setting transactionId => some (w.approve payoutId actor setting transactionId)
  | .reject payoutId reason => (rejectPayout w.state payoutId reason).map fun state =>
    { w with state := state }
  | .bulkApprove rawId actor setting transactionId => (lookup rawId).map fun payoutId =>
    w.approve payoutId actor setting transactionId
  | .bulkReject rawId reason => (lookup rawId).bind fun payoutId =>
    (bulkRejectPayout w.state payoutId reason).map fun state => { w with state := state }
  | .elsewhere db users terms =>
    if w.state.db.adjustments <:+ db.adjustments then
      some { w with state := { w.state with db := db, users := users, terms := terms } }
    else none

/-- Nothing has been paid yet. -/
def Started (w : PayoutWorld) : Prop :=
  w.payments = [] ∧ w.state.payoutDebits = [] ∧ ∀ payout ∈ w.state.payouts.rows, payout.status ≠ .paid

def paymentsOf (w : PayoutWorld) (payoutId : Nat) : List Payment :=
  w.payments.filter fun pay => pay.payoutId = payoutId

/-- The rows of the ledger that debit a payout. -/
def debitsOf (w : PayoutWorld) (payoutId : Nat) : List Adjustment :=
  (w.state.payoutDebits.filter fun debit => debit.payoutId = payoutId).map PayoutDebit.entry

/-- What has been paid out of an account. -/
def paidFrom (w : PayoutWorld) (accountId : Nat) : Cents :=
  ((w.payments.filter fun pay => pay.accountId = accountId).map Payment.amount).sum

/-- What a bulk rejection finds the payout's status to be. -/
def BulkRejects (lookup : Nat → Option Nat) (allowed : PayoutStatus → Prop) (w : PayoutWorld) :
    PayoutAction → Prop
  | .bulkReject rawId _ => ∀ payoutId ∈ lookup rawId, ∀ payout ∈ w.state.payout? payoutId,
      allowed payout.status
  | _ => True

/-! ### What every step keeps -/

/-- Each payment is one debit of one payout, whose row has had the statuses `after` ever since. -/
structure Settled (after : PayoutStatus → Prop) (w : PayoutWorld) : Prop where
  controlled : ∀ pay ∈ w.payments, Controlled pay.firstApprover pay.actor pay.threshold pay.amount
  distinct : (w.payments.map Payment.payoutId).Nodup
  debits : w.state.payoutDebits.map (fun d => (d.payoutId, d.entry.accountId, d.entry.amount))
    = w.payments.map fun pay => (pay.payoutId, pay.accountId, -pay.amount)
  rows : ∀ pay ∈ w.payments, ∃ payout ∈ w.state.payouts.rows, payout.id = pay.payoutId ∧
    payout.accountId = pay.accountId ∧ payout.amountRequested = pay.amount ∧ after payout.status
  paid : ∀ payout ∈ w.state.payouts.rows, payout.status = .paid →
    ∃ pay ∈ w.payments, pay.payoutId = payout.id
  ledger : ∀ debit ∈ w.state.payoutDebits, debit.entry ∈ w.state.db.adjustments

variable {after : PayoutStatus → Prop} {w w' : PayoutWorld} {payoutId : Nat}

theorem started_settled (hstart : w.Started) : w.Settled after := by
  obtain ⟨hpayments, hdebits, hunpaid⟩ := hstart
  refine ⟨?_, ?_, ?_, ?_, fun payout hmem hpaid => absurd hpaid (hunpaid payout hmem), ?_⟩ <;>
    simp [hpayments, hdebits]

/-- A step that pays nothing and moves one row between statuses. -/
theorem Settled.of_updates {state : PayoutDb} {status : Option PayoutStatus} (hset : w.Settled after)
    (hdb : w.state.db.adjustments ⊆ state.db.adjustments)
    (hdebits : state.payoutDebits = w.state.payoutDebits)
    (hrows : Updates w.state.payouts state.payouts payoutId status) (hunpaid : status ≠ some .paid)
    (hafter : ∀ payout ∈ w.state.payout? payoutId, after payout.status →
      after (status.getD payout.status)) : Settled after { w with state := state } := by
  obtain ⟨g, hmap, hg⟩ := hrows
  refine ⟨hset.controlled, hset.distinct, ?_, ?_, ?_, ?_⟩
  · rw [hdebits]
    exact hset.debits
  · intro pay hpay
    obtain ⟨payout, hmem, hid, haccount, hamount, hstatus⟩ := hset.rows pay hpay
    obtain ⟨⟨hid', haccount', hamount'⟩, hstatus'⟩ := hg payout
    refine ⟨g payout, hmap ▸ List.mem_map_of_mem hmem, hid'.trans hid, haccount'.trans haccount,
      hamount'.trans hamount, ?_⟩
    rw [hstatus']
    split
    · rename_i hthis
      exact hafter payout (PayoutDb.payout?_eq_some.mpr ⟨hmem, hthis⟩) hstatus
    · exact hstatus
  · intro payout hmem hpaid
    obtain ⟨old, hold, rfl⟩ := List.mem_map.mp (hmap ▸ hmem)
    obtain ⟨⟨hid, _⟩, hstatus⟩ := hg old
    rw [hstatus] at hpaid
    have hwas : old.status = .paid := by
      split at hpaid
      · cases status with
        | none => exact hpaid
        | some status => exact absurd (congrArg some hpaid) hunpaid
      · exact hpaid
    obtain ⟨pay, hpay, hof⟩ := hset.paid old hold hwas
    exact ⟨pay, hpay, hof.trans hid.symm⟩
  · intro debit hdebit
    rw [hdebits] at hdebit
    exact hdb (hset.ledger debit hdebit)

/-- A request adds a row that is pending. -/
theorem Settled.of_request {state : PayoutDb} {request : PayoutRequest} (hset : w.Settled after)
    (hrequest : requestPayout w.state request = .ok state) :
    Settled after { w with state := state } := by
  obtain ⟨_, _, payouts, _, _, _, hinsert, rfl⟩ := requestPayout_eq_ok hrequest
  have hrows := (Table.insert?_eq_some hinsert).2
  refine ⟨hset.controlled, hset.distinct, hset.debits, fun pay hpay => ?_, ?_, hset.ledger⟩
  · obtain ⟨payout, hmem, hof⟩ := hset.rows pay hpay
    exact ⟨payout, hrows ▸ List.mem_cons_of_mem _ hmem, hof⟩
  · intro payout hmem hpaid
    rcases List.mem_cons.mp (hrows ▸ hmem) with rfl | hold
    · cases hpaid
    · exact hset.paid payout hold hpaid

end PayoutWorld

theorem PaidOut.entry {s s' : PayoutDb} {payout : Payout} (hpaid : PaidOut s s' payout) :
    ∃ entry : Adjustment, entry.accountId = payout.accountId ∧
      entry.amount = -payout.amountRequested ∧
      s'.payoutDebits = ⟨payout.id, entry⟩ :: s.payoutDebits ∧
      s'.db.adjustments = entry :: s.db.adjustments := by
  have hlog := Stmt.exec_adjustments hpaid.debit
  have hdebits := hpaid.debits
  have hexec := hpaid.debit
  simp only [Stmt.exec] at hexec
  split at hexec
  · cases hexec
  obtain ⟨acc, hacc, _⟩ := Option.map_eq_some_iff.mp hexec
  rw [Stmt.recorded, hacc] at hlog hdebits
  refine ⟨_, rfl, ?_, hdebits, hlog⟩
  rw [← Cents.dollars_neg]
  exact toCents_dollars _

namespace PayoutWorld

variable {after : PayoutStatus → Prop} {w w' : PayoutWorld} {payoutId : Nat}

/-- A pending row is paid, and nothing had been paid for it before. -/
theorem Settled.of_paidOut {state : PayoutDb} {payout : Payout} {pay : Payment}
    (hset : w.Settled after) (hafter : after .paid) (hpending : ¬ after .pending)
    (hfound : w.state.payout? payoutId = some payout) (hstatus : payout.status = .pending)
    (hpaid : PaidOut w.state state payout) (hpay : ∃ actor setting, pay = .of payout actor setting)
    (hcontrol : Controlled pay.firstApprover pay.actor pay.threshold pay.amount) :
    Settled after ⟨state, pay :: w.payments⟩ := by
  obtain ⟨actor, setting, rfl⟩ := hpay
  obtain ⟨entry, haccount, hamount, hdebits, hlog⟩ := hpaid.entry
  obtain ⟨g, hmap, hg⟩ := hpaid.rows
  obtain ⟨hmem, _⟩ := PayoutDb.payout?_eq_some.mp hfound
  have hfresh : ∀ old ∈ w.payments, old.payoutId ≠ payout.id := by
    intro old hold hof
    obtain ⟨row, hrow, hid, _, _, hrowStatus⟩ := hset.rows old hold
    have hsame : row = payout :=
      List.inj_on_of_nodup_map w.state.payouts.nodup hrow hmem (hid.trans hof)
    rw [hsame, hstatus] at hrowStatus
    exact hpending hrowStatus
  refine ⟨List.forall_mem_cons.mpr ⟨hcontrol, hset.controlled⟩, ?_, ?_, ?_, ?_, ?_⟩
  · rw [List.map_cons, List.nodup_cons, List.mem_map]
    refine ⟨?_, hset.distinct⟩
    rintro ⟨old, hold, hof⟩
    exact hfresh old hold hof
  · rw [hdebits, List.map_cons, List.map_cons, hset.debits, haccount, hamount]
    rfl
  · rintro old hold
    rcases List.mem_cons.mp hold with rfl | hold
    · obtain ⟨⟨hid', haccount', hamount'⟩, hstatus'⟩ := hg payout
      refine ⟨g payout, hmap ▸ List.mem_map_of_mem hmem, hid', haccount', hamount', ?_⟩
      rw [hstatus', if_pos rfl]
      exact hafter
    · obtain ⟨row, hrow, hid, hrowAccount, hrowAmount, hrowStatus⟩ := hset.rows old hold
      obtain ⟨⟨hid', haccount', hamount'⟩, hstatus'⟩ := hg row
      refine ⟨g row, hmap ▸ List.mem_map_of_mem hrow, hid'.trans hid, haccount'.trans hrowAccount,
        hamount'.trans hrowAmount, ?_⟩
      have hother : row.id ≠ payout.id := fun h => hfresh old hold (hid.symm.trans h)
      rw [hstatus', if_neg hother]
      exact hrowStatus
  · intro row hrow hrowPaid
    obtain ⟨old, hold, rfl⟩ := List.mem_map.mp (hmap ▸ hrow)
    obtain ⟨⟨hid, _⟩, hrowStatus⟩ := hg old
    by_cases hthis : old.id = payout.id
    · exact ⟨_, List.mem_cons_self, (hid.trans hthis).symm⟩
    · rw [hrowStatus, if_neg hthis] at hrowPaid
      obtain ⟨pay, hpay, hof⟩ := hset.paid old hold hrowPaid
      exact ⟨pay, List.mem_cons_of_mem _ hpay, hof.trans hid.symm⟩
  · intro debit hdebit
    rw [hdebits] at hdebit
    rw [hlog]
    rcases List.mem_cons.mp hdebit with rfl | hold
    · exact List.mem_cons_self
    · exact List.mem_cons_of_mem _ (hset.ledger debit hold)

/-- A call refuses, or records a first approval, or pays a pending payout. -/
theorem approve_cases (w : PayoutWorld) (payoutId : Nat) (actor : String) (setting : Option ℚ)
    (transactionId : Option String) :
    w.approve payoutId actor setting transactionId = w ∨
      (∃ state, w.approve payoutId actor setting transactionId = { w with state := state } ∧
        state.db = w.state.db ∧ state.payoutDebits = w.state.payoutDebits ∧
        Updates w.state.payouts state.payouts payoutId none) ∨
      ∃ state payout, w.approve payoutId actor setting transactionId
          = ⟨state, Payment.of payout actor setting :: w.payments⟩ ∧
        w.state.payout? payoutId = some payout ∧ payout.status = .pending ∧
        PaidOut w.state state payout ∧
        Controlled payout.firstApproverAdminId actor (resolveDualApprovalThreshold setting)
          payout.amountRequested := by
  cases happrove : approvePayout w.state payoutId actor setting transactionId with
  | error e => exact .inl (by rw [approve, happrove])
  | ok result =>
    obtain ⟨state, outcome⟩ := result
    obtain ⟨payout, user, acc, hjoined, hpending, _, _, hcase⟩ := approvePayout_eq_ok happrove
    have hfound := PayoutDb.joined?_eq_some hjoined
    have hid : payout.id = payoutId := (PayoutDb.payout?_eq_some.mp hfound).2
    rcases hcase with ⟨hunpaid, hdb, hdebits, hrows⟩ | ⟨rfl, hpaid, hcontrol⟩
    · cases outcome with
      | paid => exact absurd rfl hunpaid
      | awaitingSecondApproval first threshold =>
        exact .inr (.inl ⟨state, by rw [approve, happrove], hdb, hdebits, hid ▸ hrows⟩)
    · refine .inr (.inr ⟨state, payout, ?_, hfound, hpending, hpaid, hcontrol⟩)
      rw [approve, happrove]
      simp only [hfound, Option.map_some, Option.toList_some, List.singleton_append]

theorem approve_settled {actor : String} {setting : Option ℚ} {transactionId : Option String}
    (hafter : after .paid) (hpending : ¬ after .pending) (hset : w.Settled after) :
    (w.approve payoutId actor setting transactionId).Settled after := by
  rcases w.approve_cases payoutId actor setting transactionId with
    hsame | ⟨state, hnext, hdb, hdebits, hrows⟩ | ⟨state, payout, hnext, hfound, hstatus, hpaid, hcontrol⟩
  · rw [hsame]
    exact hset
  · rw [hnext]
    exact hset.of_updates (by rw [hdb]; exact List.Subset.refl _) hdebits hrows nofun fun _ _ h => h
  · rw [hnext]
    exact hset.of_paidOut hafter hpending hfound hstatus hpaid ⟨actor, setting, rfl⟩ hcontrol

/-- The row a rejection writes, in either route. -/
theorem rejected_updates (t : Table Payout) (payoutId : Nat) (notes : String) :
    Updates t (t.updateAt payoutId (Payout.rejectedWith notes)) payoutId (some .rejected) :=
  .of_updateAt _ _ (fun _ => ⟨rfl, rfl, rfl⟩) fun _ => rfl

theorem rejectPayout_eq_some {s s' : PayoutDb} {reason : Option String}
    (hreject : rejectPayout s payoutId reason = some s') :
    ∃ payout, s.payout? payoutId = some payout ∧ payout.status = .pending ∧
      s'.db = s.db ∧ s'.payoutDebits = s.payoutDebits ∧
      Updates s.payouts s'.payouts payoutId (some .rejected) := by
  obtain ⟨⟨payout, user⟩, hjoined, hrest⟩ := Option.bind_eq_some_iff.mp hreject
  have hfound := PayoutDb.joined?_eq_some hjoined
  have hid : payout.id = payoutId := (PayoutDb.payout?_eq_some.mp hfound).2
  dsimp only at hrest
  split at hrest
  · cases hrest
  · rename_i hpending
    cases hrest
    exact ⟨payout, hfound, not_not.mp hpending, rfl, rfl, hid ▸ rejected_updates _ _ _⟩

theorem bulkRejectPayout_eq_some {s s' : PayoutDb} {reason : String}
    (hreject : bulkRejectPayout s payoutId reason = some s') :
    s'.db = s.db ∧ s'.payoutDebits = s.payoutDebits ∧
      Updates s.payouts s'.payouts payoutId (some .rejected) := by
  obtain ⟨⟨payout, user⟩, hjoined, hrest⟩ := Option.bind_eq_some_iff.mp hreject
  have hid : payout.id = payoutId := (PayoutDb.payout?_eq_some.mp (PayoutDb.joined?_eq_some hjoined)).2
  cases hrest
  exact ⟨rfl, rfl, hid ▸ rejected_updates _ _ _⟩

theorem step_settled {action : PayoutAction} (hafter : after .paid) (hpending : ¬ after .pending)
    (hbulk : BulkRejects lookup (fun status => after status → after .rejected) w action)
    (hset : w.Settled after) (hstep : w.step lookup action = some w') : w'.Settled after := by
  cases action with
  | request request =>
    obtain ⟨state, hrequest, rfl⟩ := Option.map_eq_some_iff.mp hstep
    exact hset.of_request (Except.toOption_eq_some.mp hrequest)
  | approve payoutId actor setting transactionId =>
    cases hstep
    exact approve_settled hafter hpending hset
  | bulkApprove rawId actor setting transactionId =>
    obtain ⟨payoutId, _, rfl⟩ := Option.map_eq_some_iff.mp hstep
    exact approve_settled hafter hpending hset
  | reject payoutId reason =>
    obtain ⟨state, hreject, rfl⟩ := Option.map_eq_some_iff.mp hstep
    obtain ⟨payout, hfound, hstatus, hdb, hdebits, hrows⟩ := rejectPayout_eq_some hreject
    refine hset.of_updates (by rw [hdb]; exact List.Subset.refl _) hdebits hrows nofun fun row hrow hrowAfter => ?_
    rw [hfound] at hrow
    cases hrow
    exact absurd (hstatus ▸ hrowAfter) hpending
  | bulkReject rawId reason =>
    obtain ⟨payoutId, hlookup, hrest⟩ := Option.bind_eq_some_iff.mp hstep
    obtain ⟨state, hreject, rfl⟩ := Option.map_eq_some_iff.mp hrest
    obtain ⟨hdb, hdebits, hrows⟩ := bulkRejectPayout_eq_some hreject
    refine hset.of_updates (by rw [hdb]; exact List.Subset.refl _) hdebits hrows nofun fun row hrow => ?_
    exact hbulk payoutId hlookup row hrow
  | elsewhere db users terms =>
    simp only [step] at hstep
    split at hstep
    · rename_i hgrows
      cases hstep
      exact ⟨hset.controlled, hset.distinct, hset.debits, hset.rows, hset.paid,
        fun debit hdebit => hgrows.subset (hset.ledger debit hdebit)⟩
    · cases hstep

/-! ### One debit, under dual control -/

/-- A payout has been paid never or once, and its debits are those of its payments. -/
theorem Settled.once {payout : Payout} (hset : w.Settled after)
    (hmem : payout ∈ w.state.payouts.rows) :
    (w.paymentsOf payout.id = [] ∧ w.debitsOf payout.id = [] ∧ payout.status ≠ .paid) ∨
      after payout.status ∧ ∃ pay entry, w.paymentsOf payout.id = [pay] ∧
        pay.accountId = payout.accountId ∧ pay.amount = payout.amountRequested ∧
        w.debitsOf payout.id = [entry] ∧ entry ∈ w.state.db.adjustments ∧
        entry.accountId = payout.accountId ∧ entry.amount = -payout.amountRequested := by
  have hids : w.state.payoutDebits.map PayoutDebit.payoutId = w.payments.map Payment.payoutId := by
    have hfst := congrArg (List.map Prod.fst) hset.debits
    rwa [List.map_map, List.map_map] at hfst
  by_cases hpaid : ∃ pay ∈ w.payments, pay.payoutId = payout.id
  · obtain ⟨pay, hpay, hof⟩ := hpaid
    obtain ⟨row, hrow, hid, haccount, hamount, hstatus⟩ := hset.rows pay hpay
    have hsame : row = payout :=
      List.inj_on_of_nodup_map w.state.payouts.nodup hrow hmem (hid.trans hof)
    rw [hsame] at haccount hamount hstatus
    have hpair : (pay.payoutId, pay.accountId, -pay.amount)
        ∈ w.state.payoutDebits.map fun d => (d.payoutId, d.entry.accountId, d.entry.amount) := by
      rw [hset.debits]
      exact List.mem_map_of_mem (f := fun p => (p.payoutId, p.accountId, -p.amount)) hpay
    obtain ⟨debit, hdebit, heq⟩ := List.mem_map.mp hpair
    obtain ⟨hdebitOf, hdebitAccount, hdebitAmount⟩ : debit.payoutId = pay.payoutId ∧
        debit.entry.accountId = pay.accountId ∧ debit.entry.amount = -pay.amount := by
      simpa only [Prod.mk.injEq] using heq
    have honly := List.filter_key_eq_singleton (f := PayoutDebit.payoutId)
      (hids ▸ hset.distinct) hdebit
    rw [hdebitOf, hof] at honly
    refine .inr ⟨hstatus, pay, debit.entry, ?_, haccount.symm, hamount.symm, ?_, hset.ledger debit hdebit,
      hdebitAccount.trans haccount.symm, by rw [hdebitAmount, hamount]⟩
    · rw [paymentsOf, ← hof]
      exact List.filter_key_eq_singleton hset.distinct hpay
    · rw [debitsOf, honly, List.map_singleton]
  · have hnone : ∀ debit ∈ w.state.payoutDebits, debit.payoutId ≠ payout.id := by
      intro debit hdebit hof
      have hpay := hids ▸ List.mem_map_of_mem (f := PayoutDebit.payoutId) hdebit
      obtain ⟨pay, hmemPay, hpayOf⟩ := List.mem_map.mp hpay
      exact hpaid ⟨pay, hmemPay, hpayOf.trans hof⟩
    refine .inl ⟨?_, ?_, fun hstatus => hpaid (hset.paid payout hmem hstatus)⟩
    · refine List.filter_eq_nil_iff.mpr fun pay hpay => ?_
      simpa using fun hof => hpaid ⟨pay, hpay, hof⟩
    · rw [debitsOf, List.map_eq_nil_iff, List.filter_eq_nil_iff]
      intro debit hdebit
      simpa using hnone debit hdebit

/-- A call moves a balance by what it records as paid from it. -/
theorem approve_balance (w : PayoutWorld) (payoutId : Nat) (actor : String) (setting : Option ℚ)
    (transactionId : Option String) {id : Nat} {acc : Account}
    (hacc : w.state.db.account? id = some acc) :
    ∃ acc', (w.approve payoutId actor setting transactionId).state.db.account? id = some acc' ∧
      acc'.currentBalance + (w.approve payoutId actor setting transactionId).paidFrom id
        = acc.currentBalance + w.paidFrom id := by
  rcases w.approve_cases payoutId actor setting transactionId with
    hsame | ⟨state, hnext, hdb, _, _⟩ | ⟨state, payout, hnext, _, _, hpaid, _⟩
  · rw [hsame]
    exact ⟨acc, hacc, rfl⟩
  · rw [hnext]
    exact ⟨acc, hdb ▸ hacc, rfl⟩
  · rw [hnext]
    refine ⟨_, Stmt.exec_account? hpaid.debit hacc, ?_⟩
    have hid : acc.id = id := (Db.account?_eq_some.mp hacc).2
    by_cases hthis : payout.accountId = id
    · have hbalance : ((Stmt.adjustBalance payout.accountId (-payout.amountRequested.dollars) true).accountUpdate
          acc).currentBalance = acc.currentBalance - payout.amountRequested := by
        rw [Stmt.accountUpdate, if_pos (hid.trans hthis.symm)]
        exact Cents.toCents_sub_dollars _ _
      rw [hbalance, paidFrom, List.filter_cons_of_pos (by simp [Payment.of, hthis]), List.map_cons,
        List.sum_cons]
      simp only [Payment.of, paidFrom]
      rw [← add_assoc, sub_add_cancel]
    · have hbalance : (Stmt.adjustBalance payout.accountId (-payout.amountRequested.dollars) true).accountUpdate
          acc = acc := by
        rw [Stmt.accountUpdate, if_neg fun h => hthis (h.symm.trans hid)]
      rw [hbalance, paidFrom, List.filter_cons_of_neg (by simp [Payment.of, hthis]), paidFrom]

/-- Whatever else happens, a payout is debited once when it is paid, under dual control. -/
theorem reached_singleDebit (hreach : Reach (step lookup) (fun _ _ => True) Started w) :
    (∀ pay ∈ w.payments, Controlled pay.firstApprover pay.actor pay.threshold pay.amount) ∧
    (∀ payout ∈ w.state.payouts.rows,
      (w.paymentsOf payout.id = [] ∧ w.debitsOf payout.id = [] ∧ payout.status ≠ .paid) ∨
        ∃ pay entry, w.paymentsOf payout.id = [pay] ∧ pay.amount = payout.amountRequested ∧
          w.debitsOf payout.id = [entry] ∧ entry ∈ w.state.db.adjustments ∧
          entry.accountId = payout.accountId ∧ entry.amount = -payout.amountRequested) ∧
    ∀ payoutId actor setting transactionId id acc, w.state.db.account? id = some acc →
      ∃ acc', (w.approve payoutId actor setting transactionId).state.db.account? id = some acc' ∧
        acc'.currentBalance + (w.approve payoutId actor setting transactionId).paidFrom id
          = acc.currentBalance + w.paidFrom id := by
  have hset : w.Settled (· ≠ .pending) := by
    refine hreach.invariant (fun _ hstart => started_settled hstart) fun s a s' hset _ hstep => ?_
    refine step_settled nofun (fun h => h rfl) ?_ hset hstep
    cases a with
    | bulkReject => exact fun _ _ _ _ _ => nofun
    | _ => trivial
  refine ⟨hset.controlled, fun payout hmem => ?_, fun _ _ _ _ _ _ hacc => w.approve_balance _ _ _ _ hacc⟩
  rcases hset.once hmem with hnone | ⟨_, pay, entry, hpay, _, hamount, hdebit⟩
  · exact .inl hnone
  · exact .inr ⟨pay, entry, hpay, hamount, hdebit⟩

/-- A funded account 600 above its start, with a payout of 500 waiting for approval. -/
def awaitingApproval : PayoutWorld where
  state := .awaiting
    { sampleTerms.provision 1 with accountType := .funded, currentBalance := 1060000 } 500
  payments := []

theorem awaitingApproval_started : awaitingApproval.Started :=
  ⟨rfl, rfl, fun _ hmem => List.mem_singleton.mp hmem ▸ nofun⟩

/-- The first approver asks twice and the second one pays, before and after which a call does nothing. -/
def dualApproval : List PayoutAction :=
  [.approve 7 "first" (some 400) none, .approve 7 "first" (some 400) none,
    .bulkApprove 7 "second" (some 400) none, .approve 7 "first" none none]

theorem reached_singleDebit_dualApproval :
    ∃ w, run (step some) awaitingApproval dualApproval = some w ∧
      w.payments.map Payment.actor = ["second"] ∧
      ∀ pay ∈ w.payments, Controlled pay.firstApprover pay.actor pay.threshold pay.amount := by
  obtain ⟨w, hrun, hactor⟩ := exists_of_run_any (step some) awaitingApproval dualApproval
    (fun w => w.payments.map Payment.actor = ["second"]) (by decide +kernel)
  have hreach : Reach (step some) (fun _ _ => True) Started w :=
    .of_run (.init awaitingApproval_started) (.of_forall fun _ _ _ => trivial) hrun
  exact ⟨w, hrun, of_decide_eq_true hactor, (reached_singleDebit hreach).1⟩

/-! ### The statuses -/

/-- A status stays, or leaves `pending` for good. -/
def Moves (status status' : PayoutStatus) : Prop :=
  status' = status ∨ status = .pending ∧ (status' = .paid ∨ status' = .rejected)

theorem moves_of_updates {t t' : Table Payout} {status : Option PayoutStatus}
    (hrows : Updates t t' payoutId status)
    (hmoves : ∀ payout ∈ t.rows, payout.id = payoutId →
      Moves payout.status (status.getD payout.status)) {payout : Payout} (hmem : payout ∈ t.rows) :
    ∃ payout' ∈ t'.rows, payout'.id = payout.id ∧ Moves payout.status payout'.status := by
  obtain ⟨g, hmap, hg⟩ := hrows
  obtain ⟨⟨hid, _⟩, hstatus⟩ := hg payout
  refine ⟨g payout, hmap ▸ List.mem_map_of_mem hmem, hid, ?_⟩
  rw [hstatus]
  split
  · rename_i hthis
    exact hmoves payout hmem hthis
  · exact .inl rfl

theorem approve_moves (w : PayoutWorld) (payoutId : Nat) (actor : String) (setting : Option ℚ)
    (transactionId : Option String) {payout : Payout} (hmem : payout ∈ w.state.payouts.rows) :
    ∃ payout' ∈ (w.approve payoutId actor setting transactionId).state.payouts.rows,
      payout'.id = payout.id ∧ Moves payout.status payout'.status := by
  rcases w.approve_cases payoutId actor setting transactionId with
    hsame | ⟨state, hnext, _, _, hrows⟩ | ⟨state, paying, hnext, hfound, hstatus, hpaid, _⟩
  · rw [hsame]
    exact ⟨payout, hmem, rfl, .inl rfl⟩
  · rw [hnext]
    exact moves_of_updates hrows (fun _ _ _ => .inl rfl) hmem
  · rw [hnext]
    refine moves_of_updates hpaid.rows (fun row hrow hid => ?_) hmem
    have hsame : row = paying := List.inj_on_of_nodup_map w.state.payouts.nodup hrow
      (PayoutDb.payout?_eq_some.mp hfound).1 hid
    rw [hsame]
    exact .inr ⟨hstatus, .inl rfl⟩

theorem step_moves {action : PayoutAction} (hbulk : BulkRejects lookup (· ≠ .paid) w action)
    (hstep : w.step lookup action = some w') {payout : Payout}
    (hmem : payout ∈ w.state.payouts.rows) :
    ∃ payout' ∈ w'.state.payouts.rows, payout'.id = payout.id ∧ Moves payout.status payout'.status := by
  cases action with
  | request request =>
    obtain ⟨state, hrequest, rfl⟩ := Option.map_eq_some_iff.mp hstep
    obtain ⟨_, _, payouts, _, _, _, hinsert, rfl⟩ :=
      requestPayout_eq_ok (Except.toOption_eq_some.mp hrequest)
    have hrows := (Table.insert?_eq_some hinsert).2
    exact ⟨payout, hrows ▸ List.mem_cons_of_mem _ hmem, rfl, .inl rfl⟩
  | approve payoutId actor setting transactionId =>
    cases hstep
    exact w.approve_moves _ _ _ _ hmem
  | bulkApprove rawId actor setting transactionId =>
    obtain ⟨payoutId, _, rfl⟩ := Option.map_eq_some_iff.mp hstep
    exact w.approve_moves _ _ _ _ hmem
  | reject payoutId reason =>
    obtain ⟨state, hreject, rfl⟩ := Option.map_eq_some_iff.mp hstep
    obtain ⟨rejecting, hfound, hstatus, _, _, hrows⟩ := rejectPayout_eq_some hreject
    refine moves_of_updates hrows (fun row hrow hid => ?_) hmem
    have hsame : row = rejecting := Option.some.inj
      ((PayoutDb.payout?_eq_some.mpr ⟨hrow, hid⟩).symm.trans hfound)
    rw [hsame]
    exact .inr ⟨hstatus, .inr rfl⟩
  | bulkReject rawId reason =>
    obtain ⟨payoutId, hlookup, hrest⟩ := Option.bind_eq_some_iff.mp hstep
    obtain ⟨state, hreject, rfl⟩ := Option.map_eq_some_iff.mp hrest
    obtain ⟨_, _, hrows⟩ := bulkRejectPayout_eq_some hreject
    refine moves_of_updates hrows (fun row hrow hid => ?_) hmem
    have hunpaid : row.status ≠ .paid :=
      hbulk payoutId hlookup row (PayoutDb.payout?_eq_some.mpr ⟨hrow, hid⟩)
    cases hstatus : row.status with
    | paid => exact absurd hstatus hunpaid
    | pending => exact .inr ⟨rfl, .inr rfl⟩
    | rejected => exact .inl rfl
  | elsewhere db users terms =>
    simp only [step] at hstep
    split at hstep
    · cases hstep
      exact ⟨payout, hmem, rfl, .inl rfl⟩
    · cases hstep

instance (allowed : PayoutStatus → Prop) [DecidablePred allowed] (w : PayoutWorld) :
    DecidablePred (BulkRejects lookup allowed w)
  | .bulkReject _ _ => inferInstanceAs (Decidable (∀ payoutId ∈ _, ∀ payout ∈ _, allowed _))
  | .request _ | .approve _ _ _ _ | .reject _ _ | .bulkApprove _ _ _ _ | .elsewhere _ _ _ =>
    isTrue trivial

/-- A bulk rejection that comes first, and the calls that then find nothing pending. -/
def rejectedFirst : List PayoutAction :=
  [.bulkReject 7 "documents missing", .approve 7 "first" none none, .bulkReject 7 "documents missing"]

/-- A bulk rejection that comes after the payment. -/
def rejectedAfterPaid : List PayoutAction :=
  [.approve 7 "first" none none, .bulkReject 7 "documents missing"]

end PayoutWorld

end PropFirm
