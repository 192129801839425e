import PropFirm.Lib.Guards
import PropFirm.PayoutEligibility
import PropFirm.Statements

/-!
# Payout requests and their approval

`POST /payouts/request` enforces its rules on the trader's account and inserts a pending row.
`approvePayout` is the one approval path of the single route and the bulk action: it locks the payout
and the account, evaluates the eligibility afresh, asks for a second approver above a threshold it reads
on every call, debits the account through its ledger with the drawdown anchor shifted, and marks the row
paid. Whatever it throws rolls its transaction back. A rejection is implemented twice, in a route that
looks at the status and in a bulk action that does not.
-/

namespace PropFirm

/-- The statuses the program writes to `payouts`. -/
inductive PayoutStatus
  | pending | paid | rejected
  deriving DecidableEq, Repr

structure User where
  id : Nat
  kycStatus : KycStatus
  deriving DecidableEq

instance : Keyed User Nat := ⟨User.id⟩

/-- The columns of `challenge_models` that gate a funded account's payouts; a null reads as zero. -/
structure PayoutTerms where
  slug : String
  fundedMinTradingDaysForPayout : Int
  fundedPayoutMinNetProfitPct : ℚ
  fundedConsistencyMaxDayPct : ℚ
  deriving DecidableEq

instance : Keyed PayoutTerms String := ⟨PayoutTerms.slug⟩

structure Payout where
  id : Nat
  userId : Nat
  accountId : Nat
  amountRequested : Cents
  amountPayable : Cents
  paymentMethod : String
  status : PayoutStatus
  transactionId : Option String
  adminNotes : Option String
  firstApproverAdminId : Option String
  secondApproverAdminId : Option String
  deriving DecidableEq

instance : Keyed Payout Nat := ⟨Payout.id⟩

/-- A ledger row whose metadata names a payout. -/
structure PayoutDebit where
  payoutId : Nat
  entry : Adjustment
  deriving DecidableEq

structure PayoutDb where
  db : Db
  users : Table User
  terms : Table PayoutTerms
  payouts : Table Payout
  payoutDebits : List PayoutDebit

namespace PayoutDb

def payout? (s : PayoutDb) (id : Nat) : Option Payout := s.payouts.find? id

def kycStatus (s : PayoutDb) (userId : Nat) : Option KycStatus :=
  (s.users.find? userId).map User.kycStatus

/-- A payout joined with its user. -/
def joined? (s : PayoutDb) (id : Nat) : Option (Payout × User) := do
  let payout ← s.payout? id
  let user ← s.users.find? payout.userId
  some (payout, user)

/-- The payout columns of the account's challenge model. -/
def payoutTerms (s : PayoutDb) (acc : Account) : Option PayoutTerms :=
  acc.challengeModelSlug.bind s.terms.find?

theorem payout?_eq_some {s : PayoutDb} {id : Nat} {payout : Payout} :
    s.payout? id = some payout ↔ payout ∈ s.payouts.rows ∧ payout.id = id :=
  Table.find?_eq_some

theorem joined?_eq_some {s : PayoutDb} {id : Nat} {payout : Payout} {user : User}
    (hjoined : s.joined? id = some (payout, user)) : s.payout? id = some payout := by
  simp only [joined?, Option.bind_eq_bind, Option.bind_eq_some_iff, Option.some.injEq,
    Prod.mk.injEq] at hjoined
  obtain ⟨_, hpayout, _, _, rfl, _⟩ := hjoined
  exact hpayout

end PayoutDb

/-! ### Row updates -/

namespace Payout

def firstApprovedBy (actor : String) : Table.Rewrite Payout where
  apply p := { p with firstApproverAdminId := some actor }
  key_apply _ := rfl

def secondApprovedBy (actor : String) : Table.Rewrite Payout where
  apply p := { p with secondApproverAdminId := some actor }
  key_apply _ := rfl

/-- `transaction_id = COALESCE($2, transaction_id)`. -/
def paidWith (transactionId : Option String) : Table.Rewrite Payout where
  apply p := { p with status := .paid, transactionId := transactionId.or p.transactionId }
  key_apply _ := rfl

def rejectedWith (notes : String) : Table.Rewrite Payout where
  apply p := { p with status := .rejected, adminNotes := some notes }
  key_apply _ := rfl

end Payout

/-! ### The request -/

/-- The refusals of `POST /payouts/request`, with the figures their messages quote. -/
inductive RequestError
  | accountNotFound
  | invalidAmount
  | belowMinimum
  | notFunded
  | kycNotApproved
  | notActive
  | openExposure
  | noProfit
  | aboveProfit (realizedProfit : ℚ)
  | tooFewTradingDays (required tradedOn : Int)
  | tooLittleProfit (requiredPct required realizedProfit : ℚ)
  | inconsistent (withdrawableNow held bestDayPct limitPct : ℚ)
  | alreadyPending
  | keyTaken
  deriving DecidableEq

/-- The gates of the funded stage, for an account whose model row is there. -/
def fundedStageGates (terms : PayoutTerms) (acc : Account) (closed : List Trade) (amount : ℚ) :
    Except RequestError Unit := do
  let realizedProfit := acc.realisedProfit.dollars
  if 0 < terms.fundedMinTradingDaysForPayout ∧
      (countTradingDays closed : Int) < terms.fundedMinTradingDaysForPayout then
    throw (.tooFewTradingDays terms.fundedMinTradingDaysForPayout (countTradingDays closed))
  let minProfitRequired := acc.startingBalance.dollars * (terms.fundedPayoutMinNetProfitPct / 100)
  if 0 < terms.fundedPayoutMinNetProfitPct ∧ realizedProfit < minProfitRequired then
    throw (.tooLittleProfit terms.fundedPayoutMinNetProfitPct minProfitRequired realizedProfit)
  let consistencyPct := terms.fundedConsistencyMaxDayPct
  let consistency := consistencyCheck closed acc.realisedProfit consistencyPct
  let withdrawableNow :=
    consistentWithdrawableProfit realizedProfit consistency.bestDayProfit consistencyPct
  if 0 < consistencyPct ∧ withdrawableNow < amount then
    throw (.inconsistent withdrawableNow (toCents (max 0 (realizedProfit - withdrawableNow))).dollars
      consistency.bestDayPct consistencyPct)

def amountGates (amount : ℚ) : Except RequestError Unit := do
  if amount ≤ 0 then throw .invalidAmount
  if amount < 50 then throw .belowMinimum

def accountGates (s : PayoutDb) (userId : Nat) (acc : Account) (amount : ℚ) :
    Except RequestError Unit := do
  if acc.accountType ≠ .funded then throw .notFunded
  if s.kycStatus userId ≠ some .approved then throw .kycNotApproved
  if acc.status ≠ .active then throw .notActive
  if s.db.tradesOf acc.id .opened ≠ [] ∨ s.db.tradesOf acc.id .pending ≠ [] then throw .openExposure
  let realizedProfit := acc.realisedProfit.dollars
  if realizedProfit ≤ 0 then throw .noProfit
  if realizedProfit < amount then throw (.aboveProfit realizedProfit)
  match s.payoutTerms acc with
  | none => pure ()
  | some terms => fundedStageGates terms acc (s.db.closedTrades acc.id) amount

structure PayoutRequest where
  payoutId : Nat
  userId : Nat
  accountId : Nat
  amountRequested : ℚ
  paymentMethod : String
  profitSharePct : ℚ

/-- The row a request inserts; its amounts are stored in cents. -/
def PayoutRequest.row (request : PayoutRequest) : Payout where
  id := request.payoutId
  userId := request.userId
  accountId := request.accountId
  amountRequested := toCents request.amountRequested
  amountPayable := toCents (request.amountRequested * (request.profitSharePct / 100))
  paymentMethod := request.paymentMethod
  status := .pending
  transactionId := none
  adminNotes := none
  firstApproverAdminId := none
  secondApproverAdminId := none

/-- `POST /payouts/request`; the key of the new row is fresh. -/
def requestPayout (s : PayoutDb) (request : PayoutRequest) : Except RequestError PayoutDb := do
  amountGates request.amountRequested
  match s.db.account? request.accountId with
  | none => throw .accountNotFound
  | some acc =>
    accountGates s request.userId acc request.amountRequested
    if s.payouts.rows.any fun p => p.accountId = request.accountId ∧ p.status = .pending then
      throw .alreadyPending
    match s.payouts.insert? request.row with
    | none => throw .keyTaken
    | some payouts => pure { s with payouts := payouts }

/-! ### The approval -/

inductive ApprovalError
  | payoutNotFound
  | notPending
  | accountNotFound
  | blocked (blocker : Blocker)
  | needsSecondApprover (threshold : ℚ)
  | adjustmentRefused
  deriving DecidableEq

inductive Approval
  | awaitingSecondApproval (firstApprover : String) (threshold : ℚ)
  | paid
  deriving DecidableEq

/-- The setting's number, if it has one; dual control is off without a positive one. -/
def resolveDualApprovalThreshold (setting : Option ℚ) : Option ℚ := setting.filter (0 < ·)

/-- The eligibility input of the approval path: everything it does not pass stays at its default. -/
def approvalInput (s : PayoutDb) (payout : Payout) (user : User) (acc : Account) : EligibilityInput where
  account := acc
  kycStatus := some user.kycStatus
  openTradeCount := (s.db.tradesOf acc.id .opened).length
  pendingOrderCount := (s.db.tradesOf acc.id .pending).length
  requestedAmount := some payout.amountRequested.dollars

/-- What dual control makes of a call. -/
inductive Control
  | awaiting (threshold : ℚ)
  | sameApprover (threshold : ℚ)
  | second
  | single

def dualControl (payout : Payout) (actor : String) (threshold : Option ℚ) : Control :=
  match threshold with
  | none => .single
  | some threshold =>
    if payout.amountRequested.dollars < threshold then .single
    else match payout.firstApproverAdminId.filter (· ≠ "") with
    | none => .awaiting threshold
    | some firstApprover => if firstApprover = actor then .sameApprover threshold else .second

/-- The debit and the row update that pay a payout. -/
def payPayout (s : PayoutDb) (payout : Payout) (transactionId : Option String) :
    Except ApprovalError (PayoutDb × Approval) :=
  let debit := Stmt.adjustBalance payout.accountId (-payout.amountRequested.dollars) true
  match debit.exec s.db with
  | none => .error .adjustmentRefused
  | some db =>
    .ok (
      { s with
        db := db
        payouts := s.payouts.updateAt payout.id (Payout.paidWith transactionId)
        payoutDebits := (debit.recorded s.db).map (⟨payout.id, ·⟩) ++ s.payoutDebits }, .paid)

def approvePayout (s : PayoutDb) (payoutId : Nat) (actor : String) (setting : Option ℚ)
    (transactionId : Option String) : Except ApprovalError (PayoutDb × Approval) :=
  match s.joined? payoutId with
  | none => .error .payoutNotFound
  | some (payout, user) =>
    if payout.status ≠ .pending then .error .notPending
    else match s.db.account? payout.accountId with
    | none => .error .accountNotFound
    | some acc =>
      match (evaluatePayoutEligibility (approvalInput s payout user acc)).blockers with
      | blocker :: _ => .error (.blocked blocker)
      | [] =>
        match dualControl payout actor (resolveDualApprovalThreshold setting) with
        | .awaiting threshold =>
          let payouts := s.payouts.updateAt payout.id (Payout.firstApprovedBy actor)
          .ok ({ s with payouts := payouts }, .awaitingSecondApproval actor threshold)
        | .sameApprover threshold => .error (.needsSecondApprover threshold)
        | .second =>
          let payouts := s.payouts.updateAt payout.id (Payout.secondApprovedBy actor)
          payPayout { s with payouts := payouts } payout transactionId
        | .single => payPayout s payout transactionId

/-! ### The rejections -/

/-- `POST /payouts/reject`. -/
def rejectPayout (s : PayoutDb) (payoutId : Nat) (reason : Option String) : Option PayoutDb := do
  let (payout, _) ← s.joined? payoutId
  if payout.status ≠ .pending then none
  else
    let notes := reason.getD "Rejected by admin"
    some { s with payouts := s.payouts.updateAt payout.id (Payout.rejectedWith notes) }

/-- The bulk `reject_payout` action. -/
def bulkRejectPayout (s : PayoutDb) (payoutId : Nat) (reason : String) : Option PayoutDb := do
  let (payout, _) ← s.joined? payoutId
  some { s with payouts := s.payouts.updateAt payout.id (Payout.rejectedWith reason) }

/-! ### What the operations do to the rows -/

def Payout.SameRequest (p q : Payout) : Prop :=
  q.id = p.id ∧ q.accountId = p.accountId ∧ q.amountRequested = p.amountRequested

/-- One row may have a new status, and every row is still the same request. -/
def Updates (t t' : Table Payout) (id : Nat) (status : Option PayoutStatus) : Prop :=
  ∃ g : Payout → Payout, t'.rows = t.rows.map g ∧
    ∀ p, p.SameRequest (g p) ∧ (g p).status = if p.id = id then status.getD p.status else p.status

theorem Updates.of_updateAt (t : Table Payout) (id : Nat) {f : Table.Rewrite Payout}
    {status : Option PayoutStatus} (hsame : ∀ p : Payout, p.SameRequest (f.apply p))
    (hstatus : ∀ p, (f.apply p).status = status.getD p.status) :
    Updates t (t.updateAt id f) id status := by
  refine ⟨_, Table.rows_update t _ f, fun p => ?_⟩
  have hkey : decide (Keyed.key p = id) = decide (p.id = id) := rfl
  rw [hkey]
  by_cases hid : p.id = id
  · simp only [hid, decide_true, if_true]
    exact ⟨hsame p, hstatus p⟩
  · simp only [hid, decide_false, Bool.false_eq_true, if_false]
    exact ⟨⟨rfl, rfl, rfl⟩, trivial⟩

theorem Updates.trans {t t' t'' : Table Payout} {id : Nat} {status : Option PayoutStatus}
    (hfirst : Updates t t' id none) (hsecond : Updates t' t'' id status) :
    Updates t t'' id status := by
  obtain ⟨g, hrows, hg⟩ := hfirst
  obtain ⟨g', hrows', hg'⟩ := hsecond
  refine ⟨g' ∘ g, by rw [hrows', hrows, List.map_map], fun p => ?_⟩
  obtain ⟨⟨hid, haccount, hamount⟩, hstatus⟩ := hg p
  obtain ⟨⟨hid', haccount', hamount'⟩, hstatus'⟩ := hg' (g p)
  refine ⟨⟨hid'.trans hid, haccount'.trans haccount, hamount'.trans hamount⟩, ?_⟩
  rw [Option.getD_none, ite_self] at hstatus
  rw [Function.comp_apply, hstatus', hid, hstatus]

/-- Everything an accepted request implies. -/
theorem requestPayout_eq_ok {s s' : PayoutDb} {request : PayoutRequest}
    (hrequest : requestPayout s request = .ok s') :
    amountGates request.amountRequested = .ok () ∧ ∃ acc payouts,
      s.db.account? request.accountId = some acc ∧
      accountGates s request.userId acc request.amountRequested = .ok () ∧
      (∀ p ∈ s.payouts.rows, p.accountId = request.accountId → p.status ≠ .pending) ∧
      s.payouts.insert? request.row = some payouts ∧ s' = { s with payouts := payouts } := by
  rw [requestPayout] at hrequest
  cases hamount : amountGates request.amountRequested with
  | error e =>
    rw [hamount] at hrequest
    cases hrequest
  | ok =>
    rw [hamount] at hrequest
    cases hacc : s.db.account? request.accountId with
    | none =>
      rw [hacc] at hrequest
      cases hrequest
    | some acc =>
      rw [hacc] at hrequest
      cases hgates : accountGates s request.userId acc request.amountRequested with
      | error e =>
        simp only [hgates] at hrequest
        cases hrequest
      | ok =>
        simp only [hgates] at hrequest
        by_cases hpending : s.payouts.rows.any fun p => p.accountId = request.accountId ∧ p.status = .pending
        · rw [if_pos hpending] at hrequest
          cases hrequest
        · rw [if_neg hpending] at hrequest
          cases hinsert : s.payouts.insert? request.row with
          | none =>
            rw [hinsert] at hrequest
            cases hrequest
          | some payouts =>
            rw [hinsert] at hrequest
            cases hrequest
            refine ⟨rfl, acc, payouts, rfl, hgates, fun p hp haccount hstatus => hpending ?_, rfl, rfl⟩
            exact List.any_eq_true.mpr ⟨p, hp, by simp [haccount, hstatus]⟩

/-- The debit has been executed and recorded, and the row is paid. -/
structure PaidOut (s s' : PayoutDb) (payout : Payout) : Prop where
  debit : (Stmt.adjustBalance payout.accountId (-payout.amountRequested.dollars) true).exec s.db
    = some s'.db
  debits : s'.payoutDebits =
    ((Stmt.adjustBalance payout.accountId (-payout.amountRequested.dollars) true).recorded s.db).map
      (⟨payout.id, ·⟩) ++ s.payoutDebits
  rows : Updates s.payouts s'.payouts payout.id (some .paid)

theorem payPayout_eq_ok {s s' : PayoutDb} {payout : Payout} {transactionId : Option String}
    {outcome : Approval} (hpay : payPayout s payout transactionId = .ok (s', outcome)) :
    PaidOut s s' payout ∧ outcome = .paid := by
  simp only [payPayout] at hpay
  cases hdebit : (Stmt.adjustBalance payout.accountId (-payout.amountRequested.dollars) true).exec s.db with
  | none =>
    rw [hdebit] at hpay
    cases hpay
  | some db =>
    rw [hdebit] at hpay
    cases hpay
    exact ⟨⟨hdebit, rfl, .of_updateAt _ _ (fun _ => ⟨rfl, rfl, rfl⟩) fun _ => rfl⟩, rfl⟩

/-- The threshold in force is not reached, or another admin has recorded the first approval. -/
def Controlled (firstApprover : Option String) (actor : String) (threshold : Option ℚ)
    (amount : Cents) : Prop :=
  ∀ limit ∈ threshold, limit ≤ amount.dollars → ∃ approver ∈ firstApprover, approver ≠ actor

/-- Where `dualControl` lets a call pay, the payment is under dual control. -/
theorem dualControl_controlled {payout : Payout} {actor : String} {threshold : Option ℚ}
    (hpays : dualControl payout actor threshold = .single ∨ dualControl payout actor threshold = .second) :
    Controlled payout.firstApproverAdminId actor threshold payout.amountRequested := by
  rintro limit hlimit hle
  cases hlimit
  simp only [dualControl, if_neg (not_lt.mpr hle)] at hpays
  cases hfirst : payout.firstApproverAdminId.filter (· ≠ "") with
  | none =>
    rw [hfirst] at hpays
    rcases hpays with hsingle | hsecond
    · cases hsingle
    · cases hsecond
  | some firstApprover =>
    refine ⟨firstApprover, (Option.filter_eq_some_iff.mp hfirst).1, fun hsame => ?_⟩
    simp only [hfirst, hsame, if_true, reduceCtorEq, or_self] at hpays

/-- Everything a successful approval implies. -/
theorem approvePayout_eq_ok {s s' : PayoutDb} {payoutId : Nat} {actor : String} {setting : Option ℚ}
    {transactionId : Option String} {outcome : Approval}
    (happrove : approvePayout s payoutId actor setting transactionId = .ok (s', outcome)) :
    ∃ payout user acc, s.joined? payoutId = some (payout, user) ∧ payout.status = .pending ∧
      s.db.account? payout.accountId = some acc ∧
      (evaluatePayoutEligibility (approvalInput s payout user acc)).blockers = [] ∧
      (outcome ≠ .paid ∧ s'.db = s.db ∧ s'.payoutDebits = s.payoutDebits ∧
          Updates s.payouts s'.payouts payout.id none ∨
        outcome = .paid ∧ PaidOut s s' payout ∧
          Controlled payout.firstApproverAdminId actor (resolveDualApprovalThreshold setting)
            payout.amountRequested) := by
  rw [approvePayout] at happrove
  cases hjoined : s.joined? payoutId with
  | none =>
    rw [hjoined] at happrove
    cases happrove
  | some joined =>
    obtain ⟨payout, user⟩ := joined
    rw [hjoined] at happrove
    dsimp only at happrove
    split at happrove
    · cases happrove
    rename_i hpending
    cases hacc : s.db.account? payout.accountId with
    | none =>
      rw [hacc] at happrove
      cases happrove
    | some acc =>
      rw [hacc] at happrove
      dsimp only at happrove
      split at happrove
      · cases happrove
      rename_i hblockers
      refine ⟨payout, user, acc, rfl, not_not.mp hpending, hacc, hblockers, ?_⟩
      cases hcontrol : dualControl payout actor (resolveDualApprovalThreshold setting) with
      | awaiting threshold =>
        rw [hcontrol] at happrove
        cases happrove
        exact .inl ⟨nofun, rfl, rfl, .of_updateAt _ _ (fun _ => ⟨rfl, rfl, rfl⟩) fun _ => rfl⟩
      | sameApprover threshold =>
        rw [hcontrol] at happrove
        cases happrove
      | single =>
        rw [hcontrol] at happrove
        obtain ⟨hpaid, hout⟩ := payPayout_eq_ok happrove
        exact .inr ⟨hout, hpaid, dualControl_controlled (.inl hcontrol)⟩
      | second =>
        rw [hcontrol] at happrove
        obtain ⟨hpaid, hout⟩ := payPayout_eq_ok happrove
        have happroved : Updates s.payouts
            (s.payouts.updateAt payout.id (Payout.secondApprovedBy actor)) payout.id none :=
          .of_updateAt _ _ (fun _ => ⟨rfl, rfl, rfl⟩) fun _ => rfl
        exact .inr ⟨hout, ⟨hpaid.debit, hpaid.debits, happroved.trans hpaid.rows⟩,
          dualControl_controlled (.inr hcontrol)⟩

/-- One account whose verified owner waits for a payout. -/
def PayoutDb.awaiting (acc : Account) (amountRequested : ℚ) : PayoutDb where
  db := { Db.initial Table.empty with accounts := .single acc }
  users := .single ⟨3, .approved⟩
  terms := Table.empty
  payouts := .single (PayoutRequest.row ⟨7, 3, acc.id, amountRequested, "bank", 80⟩)
  payoutDebits := []

theorem exists_of_approve_any (s : PayoutDb) (payoutId : Nat) (actor : String) (setting : Option ℚ)
    (transactionId : Option String) (p : PayoutDb → Bool)
    (htest : (approvePayout s payoutId actor setting transactionId).toOption.any
      (fun result => result.2 = .paid ∧ p result.1) = true) :
    ∃ s', approvePayout s payoutId actor setting transactionId = .ok (s', .paid) ∧ p s' = true := by
  obtain ⟨⟨s', outcome⟩, hpaid, htest⟩ := Except.exists_of_toOption_any htest
  obtain ⟨rfl, hp⟩ := of_decide_eq_true htest
  exact ⟨s', hpaid, hp⟩

end PropFirm
