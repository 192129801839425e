import Mathlib
import PropFirm.Lib.Table
import PropFirm.Lib.Transition
import PropFirm.PnlCalculator

/-!
# Payouts of affiliates

What an affiliate may still be paid is a sum over a ledger that commissions, clawbacks, manual adjustments
and payouts write to. A request is checked against that sum under an advisory lock of the affiliate. The
approval locks the request and posts a negative row for it. The rejection reads the request without a lock
and overwrites its status in a second statement.
-/

namespace PropFirm

open Transition

inductive AffiliatePayoutStatus
  | pending
  | paid
  | rejected
  deriving DecidableEq

/-- A row of `affiliate_payout_requests`. -/
structure AffiliatePayout where
  id : Nat
  affiliateUserId : Nat
  amountRequested : Cents
  positive : 0 < amountRequested
  paymentMethod : String
  paymentDetails : String
  status : AffiliatePayoutStatus
  adminNotes : Option String
  transactionId : Option String
  deriving DecidableEq

instance : Keyed AffiliatePayout Nat := ⟨AffiliatePayout.id⟩

namespace AffiliatePayout

def paidWith (transactionId : Option String) : Table.Rewrite AffiliatePayout where
  apply p := { p with status := .paid, transactionId := transactionId }
  key_apply _ := rfl

def rejectedFor (reason : Option String) : Table.Rewrite AffiliatePayout where
  apply p := { p with status := .rejected, adminNotes := reason }
  key_apply _ := rfl

end AffiliatePayout

inductive CommissionStatus
  | pending
  | available
  | paid
  | adjusted
  deriving DecidableEq

/-- A row of `affiliate_commissions`, in dollars. -/
structure CommissionRow where
  referrerUserId : Nat
  orderId : Option Nat
  commissionAmount : ℚ
  status : CommissionStatus
  payoutRequestId : Option Nat
  adjustmentNote : Option String
  deriving DecidableEq

/-- What a request asks for, rounded to cents; an amount that is not positive is refused at once. -/
structure AffiliatePayoutForm where
  userId : Nat
  amountRequested : Cents
  positive : 0 < amountRequested
  paymentMethod : String
  paymentDetails : String

/-- `requesting` are the requests that hold their affiliate's lock and are checked, `rejecting` the payouts
that a rejection has found pending. `left` are the balances that approvals have left. -/
structure AffiliateWorld where
  payouts : Table AffiliatePayout
  ledger : List CommissionRow
  requesting : List AffiliatePayoutForm
  rejecting : List Nat
  left : List ℚ

inductive AffiliateAction
  | checkRequest (form : AffiliatePayoutForm) (minPayout : Option ℚ)
  | insertRequest (requesting : Nat) (id : Nat)
  | abortRequest (requesting : Nat)
  | approve (payoutId : Nat) (transactionId : Option String)
  | readForRejection (payoutId : Nat)
  | reject (rejecting : Nat) (reason : Option String)
  | recordCommission (orderId referrerUserId : Nat) (amount : Cents)
  | clawback (orderId : Nat) (reason : String)
  | adjustBalance (userId : Nat) (amount : ℚ) (note : String)

def allowedPaymentMethods : List String :=
  ["usdt_trc20", "usdt_bep20", "usdt_erc20", "usdt_polygon", "btc", "ltc"]

def AffiliatePayoutForm.row (form : AffiliatePayoutForm) (id : Nat) : AffiliatePayout where
  id := id
  affiliateUserId := form.userId
  amountRequested := form.amountRequested
  positive := form.positive
  paymentMethod := form.paymentMethod
  paymentDetails := form.paymentDetails
  status := .pending
  adminNotes := none
  transactionId := none

/-- `SUM(commission_amount)` over the `available` and `adjusted` rows. -/
def availableBalance (ledger : List CommissionRow) (userId : Nat) : ℚ :=
  ((ledger.filter fun r => r.referrerUserId = userId ∧ (r.status = .available ∨ r.status = .adjusted)).map
    CommissionRow.commissionAmount).sum

/-- The row that `settleAffiliatePayoutAmount` posts. -/
def settlementRow (referrerUserId payoutRequestId : Nat) (amount : Cents) : CommissionRow where
  referrerUserId := referrerUserId
  orderId := none
  commissionAmount := -Cents.dollars |amount|
  status := .adjusted
  payoutRequestId := some payoutRequestId
  adjustmentNote := some s!"Payout settlement for request #{payoutRequestId}"

def adjustmentRow (referrerUserId : Nat) (amount : ℚ) (note : String) : CommissionRow :=
  ⟨referrerUserId, none, amount, .adjusted, none, some note⟩

def clawbackMarker (orderId : Nat) : String := s!"[clawback:order:{orderId}]"

/-- `adjustment_note LIKE '%marker%'`. -/
def CommissionRow.marked (row : CommissionRow) (marker : String) : Bool :=
  row.adjustmentNote.any fun note => decide (marker.toList <:+: note.toList)

/-- What a clawback posts: nothing when there is nothing earned or the marker is there. -/
def clawbackRows (ledger : List CommissionRow) (orderId : Nat) (reason : String) : List CommissionRow :=
  let marker := clawbackMarker orderId
  if ledger.any (·.marked marker) then []
  else (ledger.filter fun r => r.orderId = some orderId ∧ 0 < toCents r.commissionAmount).map fun r =>
    adjustmentRow r.referrerUserId (-(toCents r.commissionAmount).dollars) s!"{reason} {marker}"

namespace AffiliateWorld

def empty : AffiliateWorld := ⟨.empty, [], [], [], []⟩

def payout? (w : AffiliateWorld) (id : Nat) : Option AffiliatePayout := w.payouts.find? id

def available (w : AffiliateWorld) (userId : Nat) : ℚ := availableBalance w.ledger userId

/-- The gates of `POST /payouts/request`, the last five under the affiliate's lock. -/
def Requestable (w : AffiliateWorld) (form : AffiliatePayoutForm) (minPayout : ℚ) : Prop :=
  form.paymentMethod ∈ allowedPaymentMethods ∧ form.paymentDetails ≠ "" ∧
  (∀ other ∈ w.requesting, other.userId ≠ form.userId) ∧
  (∀ p ∈ w.payouts.rows, p.affiliateUserId = form.userId → p.status ≠ .pending) ∧
  minPayout ≤ w.available form.userId ∧ minPayout ≤ form.amountRequested.dollars ∧
  form.amountRequested.dollars ≤ w.available form.userId

instance (w : AffiliateWorld) (form : AffiliatePayoutForm) (minPayout : ℚ) :
    Decidable (w.Requestable form minPayout) :=
  inferInstanceAs (Decidable (_ ∧ _))

/-- The approval of a pending payout, in one transaction that holds its row. -/
def approve (w : AffiliateWorld) (payout : AffiliatePayout) (transactionId : Option String) :
    AffiliateWorld :=
  let row := settlementRow payout.affiliateUserId payout.id payout.amountRequested
  { w with
    payouts := w.payouts.updateAt payout.id (AffiliatePayout.paidWith transactionId)
    ledger := row :: w.ledger
    left := availableBalance (row :: w.ledger) payout.affiliateUserId :: w.left }

def pending? (w : AffiliateWorld) (payoutId : Nat) : Option AffiliatePayout :=
  (w.payout? payoutId).filter (·.status = .pending)

def post (w : AffiliateWorld) (rows : List CommissionRow) : AffiliateWorld :=
  { w with ledger := rows ++ w.ledger }

/-- An order has one commission row at most, and only a non-zero adjustment is taken. -/
def step (w : AffiliateWorld) : AffiliateAction → Option AffiliateWorld
  | .checkRequest form minPayout => do
    guard (w.Requestable form (minPayout.getD 50))
    pure { w with requesting := w.requesting ++ [form] }
  | .insertRequest k id => do
    let form ← w.requesting[k]?
    let payouts ← w.payouts.insert? (form.row id)
    pure { w with payouts := payouts, requesting := w.requesting.eraseIdx k }
  | .abortRequest k => some { w with requesting := w.requesting.eraseIdx k }
  | .approve payoutId transactionId => (w.pending? payoutId).map fun p => w.approve p transactionId
  | .readForRejection payoutId => (w.pending? payoutId).map fun p =>
    { w with rejecting := w.rejecting ++ [p.id] }
  | .reject k reason => w.rejecting[k]?.map fun payoutId => { w with
      payouts := w.payouts.updateAt payoutId (AffiliatePayout.rejectedFor reason)
      rejecting := w.rejecting.eraseIdx k }
  | .recordCommission orderId referrerUserId amount => do
    guard (∀ r ∈ w.ledger, r.orderId ≠ some orderId)
    pure (w.post [⟨referrerUserId, some orderId, amount.dollars, .available, none, none⟩])
  | .clawback orderId reason => some (w.post (clawbackRows w.ledger orderId reason))
  | .adjustBalance userId amount note => do
    guard (amount ≠ 0)
    pure (w.post [adjustmentRow userId amount note])

/-- Who the settlement rows of a payout are for, and what they take. -/
def settlements (ledger : List CommissionRow) (payoutId : Nat) : List (Nat × ℚ) :=
  (ledger.filter fun r => r.payoutRequestId = some payoutId).map fun r =>
    (r.referrerUserId, r.commissionAmount)

/-- What settles a payout: one row for its amount when it is paid, and none otherwise. -/
def AffiliatePayout.owes (payout : AffiliatePayout) : List (Nat × ℚ) :=
  if payout.status = .paid then [(payout.affiliateUserId, -payout.amountRequested.dollars)] else []

structure Settled (w : AffiliateWorld) : Prop where
  settled : ∀ id, settlements w.ledger id = (w.payout? id).elim [] AffiliatePayout.owes
  solvent : ∀ balance ∈ w.left, 0 ≤ balance

/-- Of a payout nothing but the status moves, and the status only from `pending`. -/
def MovesTo (w w' : AffiliateWorld) : Prop :=
  ∀ id, ∀ p ∈ w.payout? id, ∃ p' ∈ w'.payout? id, p'.affiliateUserId = p.affiliateUserId ∧
    p'.amountRequested = p.amountRequested ∧ (p'.status = p.status ∨ p.status = .pending)

/-- A rejection is written over a payout that is still pending, and an approval pays what the affiliate's
available balance covers. -/
def KeepsPayouts (w : AffiliateWorld) : AffiliateAction → Prop
  | .reject k _ => ∀ payoutId ∈ w.rejecting[k]?, (w.pending? payoutId).isSome = true
  | .approve payoutId _ => ∀ p ∈ w.payout? payoutId,
      p.amountRequested.dollars ≤ w.available p.affiliateUserId
  | .checkRequest _ _ | .insertRequest _ _ | .abortRequest _ | .readForRejection _
  | .recordCommission _ _ _ | .clawback _ _ | .adjustBalance _ _ _ => True

variable {w w' : AffiliateWorld} {a : AffiliateAction} {payoutId : Nat} {payout : AffiliatePayout}

/-! ### The ledger -/

theorem settlements_append (rows ledger : List CommissionRow) (id : Nat) :
    settlements (rows ++ ledger) id = settlements rows id ++ settlements ledger id := by
  rw [settlements, List.filter_append, List.map_append]
  rfl

/-- Rows that are not for a payout settle none. -/
theorem settlements_eq_nil {rows : List CommissionRow} (hfree : ∀ r ∈ rows, r.payoutRequestId = none)
    (id : Nat) : settlements rows id = [] := by
  rw [settlements, List.map_eq_nil_iff, List.filter_eq_nil_iff]
  intro r hr
  simp [hfree r hr]

theorem clawbackRows_free {ledger : List CommissionRow} {orderId : Nat} {reason : String} :
    ∀ r ∈ clawbackRows ledger orderId reason, r.payoutRequestId = none := by
  intro r hr
  rw [clawbackRows] at hr
  split at hr
  · cases hr
  · obtain ⟨_, _, rfl⟩ := List.mem_map.mp hr
    rfl

theorem settlements_settlementRow (referrerUserId id id' : Nat) (amount : Cents) :
    settlements [settlementRow referrerUserId id amount] id' =
      if id' = id then [(referrerUserId, -Cents.dollars |amount|)] else [] := by
  rw [settlements, List.filter_singleton]
  by_cases hid : id' = id
  · subst hid
    rw [if_pos rfl]
    simp [settlementRow]
  · rw [if_neg hid]
    simp [settlementRow, Ne.symm hid]

/-- A settlement takes the amount from the balance. -/
theorem availableBalance_settlementRow (ledger : List CommissionRow) (referrerUserId id : Nat)
    (amount : Cents) : availableBalance (settlementRow referrerUserId id amount :: ledger) referrerUserId =
      availableBalance ledger referrerUserId - Cents.dollars |amount| := by
  rw [availableBalance, List.filter_cons_of_pos (by simp [settlementRow]), List.map_cons, List.sum_cons,
    ← availableBalance, sub_eq_neg_add]
  rfl

/-! ### What a step does to the payouts -/

/-- A request, an approval and a rejection touch one payout each, and everything else touches none. -/
inductive Change (w w' : AffiliateWorld) : Prop
  | elsewhere (hpayouts : w'.payouts = w.payouts)
      (hledger : ∀ id, settlements w'.ledger id = settlements w.ledger id) (hleft : w'.left = w.left)
  | request (row : AffiliatePayout) (hinsert : w.payouts.insert? row = some w'.payouts)
      (hpending : row.status = .pending) (hledger : w'.ledger = w.ledger) (hleft : w'.left = w.left)
  | approve (payout : AffiliatePayout) (transactionId : Option String)
      (hat : w.payout? payout.id = some payout) (hpending : payout.status = .pending)
      (hcovered : payout.amountRequested.dollars ≤ w.available payout.affiliateUserId)
      (happrove : w' = w.approve payout transactionId)
  | reject (payout : AffiliatePayout) (reason : Option String) (hat : w.payout? payout.id = some payout)
      (hpending : payout.status = .pending)
      (hpayouts : w'.payouts = w.payouts.updateAt payout.id (AffiliatePayout.rejectedFor reason))
      (hledger : w'.ledger = w.ledger) (hleft : w'.left = w.left)

theorem pending?_eq_some (hpending : w.pending? payoutId = some payout) :
    w.payout? payoutId = some payout ∧ payout.id = payoutId ∧ payout.status = .pending := by
  obtain ⟨hfind, hstatus⟩ := Option.filter_eq_some_iff.mp hpending
  exact ⟨hfind, (Table.find?_eq_some.mp hfind).2, of_decide_eq_true hstatus⟩

theorem Change.post {rows : List CommissionRow} (hfree : ∀ r ∈ rows, r.payoutRequestId = none) :
    Change w (w.post rows) := by
  refine .elsewhere rfl (fun id => ?_) rfl
  rw [AffiliateWorld.post, settlements_append, settlements_eq_nil hfree, List.nil_append]

theorem step_change (hkeeps : w.KeepsPayouts a) (hstep : w.step a = some w') : Change w w' := by
  cases a with
  | checkRequest form minPayout =>
    obtain ⟨_, _, hstep⟩ := Option.bind_eq_some_iff.mp hstep
    obtain rfl := Option.some.inj hstep
    exact .elsewhere rfl (fun _ => rfl) rfl
  | insertRequest k id =>
    obtain ⟨form, _, hstep⟩ := Option.bind_eq_some_iff.mp hstep
    obtain ⟨payouts, hinsert, hstep⟩ := Option.bind_eq_some_iff.mp hstep
    obtain rfl := Option.some.inj hstep
    exact .request (form.row id) hinsert rfl rfl rfl
  | abortRequest k =>
    obtain rfl := Option.some.inj hstep
    exact .elsewhere rfl (fun _ => rfl) rfl
  | approve payoutId transactionId =>
    obtain ⟨payout, hpending, rfl⟩ := Option.map_eq_some_iff.mp hstep
    obtain ⟨hat, rfl, hstatus⟩ := pending?_eq_some hpending
    exact .approve payout transactionId hat hstatus (hkeeps payout hat) rfl
  | readForRejection payoutId =>
    obtain ⟨payout, _, rfl⟩ := Option.map_eq_some_iff.mp hstep
    exact .elsewhere rfl (fun _ => rfl) rfl
  | reject k reason =>
    obtain ⟨payoutId, hread, rfl⟩ := Option.map_eq_some_iff.mp hstep
    obtain ⟨payout, hpending⟩ := Option.isSome_iff_exists.mp (hkeeps payoutId hread)
    obtain ⟨hat, rfl, hstatus⟩ := pending?_eq_some hpending
    exact .reject payout reason hat hstatus rfl rfl rfl
  | recordCommission orderId referrerUserId amount =>
    obtain ⟨_, _, hstep⟩ := Option.bind_eq_some_iff.mp hstep
    obtain rfl := Option.some.inj hstep
    exact .post fun r hr => List.mem_singleton.mp hr ▸ rfl
  | clawback orderId reason =>
    obtain rfl := Option.some.inj hstep
    exact .post clawbackRows_free
  | adjustBalance userId amount note =>
    obtain ⟨_, _, hstep⟩ := Option.bind_eq_some_iff.mp hstep
    obtain rfl := Option.some.inj hstep
    exact .post fun r hr => List.mem_singleton.mp hr ▸ rfl

/-! ### What every run keeps -/

theorem approve_payout? (transactionId : Option String) (id : Nat) :
    (w.approve payout transactionId).payout? id = (w.payout? id).map fun p =>
      if id = payout.id then (AffiliatePayout.paidWith transactionId).apply p else p :=
  Table.find?_updateAt _ _ _ _

theorem Settled.approve (hsettled : w.Settled) {transactionId : Option String}
    (hat : w.payout? payout.id = some payout) (hpending : payout.status = .pending)
    (hcovered : payout.amountRequested.dollars ≤ w.available payout.affiliateUserId) :
    (w.approve payout transactionId).Settled := by
  have hamount : |payout.amountRequested| = payout.amountRequested := abs_of_pos payout.positive
  refine ⟨fun id => ?_, fun balance hbalance => ?_⟩
  · rw [approve_payout?, AffiliateWorld.approve, ← List.singleton_append, settlements_append,
      settlements_settlementRow, hamount, hsettled.settled id]
    by_cases hid : id = payout.id
    · subst hid
      simp [hat, AffiliatePayout.owes, AffiliatePayout.paidWith, hpending]
    · simp [hid]
  · rcases List.mem_cons.mp hbalance with rfl | hold
    · rw [availableBalance_settlementRow, hamount, sub_nonneg]
      exact hcovered
    · exact hsettled.solvent balance hold

theorem Settled.change (hsettled : w.Settled) (hchange : Change w w') : w'.Settled := by
  cases hchange with
  | elsewhere hpayouts hledger hleft =>
    refine ⟨fun id => ?_, hleft ▸ hsettled.solvent⟩
    rw [hledger, payout?, hpayouts]
    exact hsettled.settled id
  | request row hinsert hpending hledger hleft =>
    refine ⟨fun id => ?_, hleft ▸ hsettled.solvent⟩
    rw [hledger, payout?, Table.find?_of_insert? hinsert, hsettled.settled id]
    split
    · rename_i hid
      have hfresh : w.payout? id = none :=
        Table.find?_eq_none.mpr fun p hp => hid ▸ (Table.insert?_eq_some hinsert).1 p hp
      rw [hfresh, Option.elim_none, Option.elim_some, AffiliatePayout.owes, if_neg (by simp [hpending])]
    · rfl
  | approve payout transactionId hat hpending hcovered happrove =>
    exact happrove ▸ hsettled.approve hat hpending hcovered
  | reject payout reason hat hpending hpayouts hledger hleft =>
    refine ⟨fun id => ?_, hleft ▸ hsettled.solvent⟩
    rw [hledger, payout?, hpayouts, Table.find?_updateAt, hsettled.settled id]
    by_cases hid : id = payout.id
    · subst hid
      rw [← payout?, hat]
      simp [AffiliatePayout.owes, AffiliatePayout.rejectedFor, hpending]
    · simp [payout?, hid]

theorem MovesTo.refl (w : AffiliateWorld) : w.MovesTo w :=
  fun _ p hp => ⟨p, hp, rfl, rfl, .inl rfl⟩

theorem MovesTo.trans {w'' : AffiliateWorld} (hfirst : w.MovesTo w') (hsecond : w'.MovesTo w'') :
    w.MovesTo w'' := by
  intro id p hp
  obtain ⟨p', hp', huser', hamount', hstatus'⟩ := hfirst id p hp
  obtain ⟨p'', hp'', huser'', hamount'', hstatus''⟩ := hsecond id p' hp'
  refine ⟨p'', hp'', huser''.trans huser', hamount''.trans hamount', ?_⟩
  rcases hstatus' with hkept | hpending
  · rw [hkept] at hstatus''
    exact hstatus''
  · exact .inr hpending

/-- A payout that is pending is rewritten in its status and no others are. -/
theorem movesTo_of_updateAt {f : Table.Rewrite AffiliatePayout} (hat : w.payout? payout.id = some payout)
    (hpending : payout.status = .pending) (hpayouts : w'.payouts = w.payouts.updateAt payout.id f)
    (huser : ∀ p, (f.apply p).affiliateUserId = p.affiliateUserId)
    (hamount : ∀ p, (f.apply p).amountRequested = p.amountRequested) : w.MovesTo w' := by
  intro id p hp
  have hfind : w'.payout? id = (w.payout? id).map fun p => if id = payout.id then f.apply p else p := by
    rw [payout?, hpayouts, Table.find?_updateAt]
    rfl
  rw [Option.mem_def.mp hp, Option.map_some] at hfind
  refine ⟨_, hfind, ?_⟩
  split
  · rename_i hid
    subst hid
    obtain rfl := Option.some.inj (hat.symm.trans hp)
    exact ⟨huser _, hamount _, .inr hpending⟩
  · exact ⟨rfl, rfl, .inl rfl⟩

theorem Change.movesTo (hchange : Change w w') : w.MovesTo w' := by
  cases hchange with
  | elsewhere hpayouts hledger hleft =>
    intro id p hp
    rw [payout?, ← hpayouts, ← payout?] at hp
    exact ⟨p, hp, rfl, rfl, .inl rfl⟩
  | request row hinsert hpending hledger hleft =>
    intro id p hp
    obtain ⟨hmem, hid⟩ := Table.find?_eq_some.mp hp
    have hother : Keyed.key row ≠ id := fun hrow =>
      (Table.insert?_eq_some hinsert).1 p hmem (hid.trans hrow.symm)
    refine ⟨p, ?_, rfl, rfl, .inl rfl⟩
    rw [payout?, Table.find?_of_insert? hinsert, if_neg hother]
    exact hp
  | approve payout transactionId hat hpending hcovered happrove =>
    exact movesTo_of_updateAt hat hpending (congrArg payouts happrove) (fun _ => rfl) fun _ => rfl
  | reject payout reason hat hpending hpayouts hledger hleft =>
    exact movesTo_of_updateAt hat hpending hpayouts (fun _ => rfl) fun _ => rfl

/-- **Affiliate payouts.** Under the condition a payout has one settlement of its amount exactly if it is
paid, no approval leaves a negative balance, and from any state on payouts move from `pending` only. -/
theorem reached_settled (hreach : Reach step KeepsPayouts (· = empty) w) :
    w.Settled ∧ ∀ w', Reach step KeepsPayouts (· = w) w' → w.MovesTo w' := by
  constructor
  · refine hreach.invariant ?_ fun _ _ _ hsettled hkeeps hstep =>
      hsettled.change (step_change hkeeps hstep)
    rintro _ rfl
    exact ⟨fun _ => rfl, fun _ hbalance => by cases hbalance⟩
  · intro w' hlater
    refine hlater.invariant ?_ fun _ _ _ hmoves hkeeps hstep =>
      hmoves.trans (step_change hkeeps hstep).movesTo
    rintro _ rfl
    exact .refl _

/-! ### An affiliate with one commission -/

instance (w : AffiliateWorld) : ∀ a, Decidable (w.KeepsPayouts a)
  | .reject k _ =>
    inferInstanceAs (Decidable (∀ payoutId ∈ w.rejecting[k]?, (w.pending? payoutId).isSome = true))
  | .approve payoutId _ => inferInstanceAs (Decidable (∀ p ∈ w.payout? payoutId,
      p.amountRequested.dollars ≤ w.available p.affiliateUserId))
  | .checkRequest _ _ | .insertRequest _ _ | .abortRequest _ | .readForRejection _
  | .recordCommission _ _ _ | .clawback _ _ | .adjustBalance _ _ _ => .isTrue trivial

def sixtyDollars : AffiliatePayoutForm := ⟨1, 6000, by decide, "btc", "bc1q"⟩

/-- A commission of a hundred dollars, of which sixty are asked for. -/
def sixtyRequested : List AffiliateAction :=
  [.recordCommission 5 1 10000, .checkRequest sixtyDollars none, .insertRequest 0 8]

/-- The request is paid, the order is refunded, and what is added later is asked for and refused. -/
def paidThenRefunded : List AffiliateAction :=
  sixtyRequested ++ [.approve 8 (some "tx-1"), .clawback 5 "Order refunded", .clawback 5 "Order refunded",
    .adjustBalance 1 120 "Goodwill", .checkRequest sixtyDollars none, .insertRequest 0 9,
    .readForRejection 9, .reject 0 none]

theorem reached_settled_paidThenRefunded : ∃ w, run step empty paidThenRefunded = some w ∧
    (w.payout? 8).map AffiliatePayout.status = some .paid ∧
    (w.payout? 9).map AffiliatePayout.status = some .rejected ∧ w.available 1 = 60 ∧ w.Settled := by
  obtain ⟨w, hrun, hend⟩ := exists_of_run_any step empty paidThenRefunded
    (fun w => (w.payout? 8).map AffiliatePayout.status = some .paid ∧
      (w.payout? 9).map AffiliatePayout.status = some .rejected ∧ w.available 1 = 60) (by decide +kernel)
  obtain ⟨hpaid, hrejected, hleft⟩ := of_decide_eq_true hend
  have hok : RunOk step KeepsPayouts empty paidThenRefunded := by decide +kernel
  have hreach : Reach step KeepsPayouts (· = empty) w := .of_run (.init rfl) hok hrun
  exact ⟨w, hrun, hpaid, hrejected, hleft, (reached_settled hreach).1⟩

/-- A rejection has found the payout pending before the approval, and is written after it. -/
def rejectedOverPaid : List AffiliateAction :=
  sixtyRequested ++ [.readForRejection 8, .approve 8 (some "tx-1"), .reject 0 none]

/-- The order is refunded while the payout waits. -/
def refundedWhilePending : List AffiliateAction :=
  sixtyRequested ++ [.clawback 5 "Order refunded", .approve 8 (some "tx-1")]

theorem rejected_payout_settled :
    (∃ w, run step empty rejectedOverPaid = some w ∧
      (w.payout? 8).map AffiliatePayout.status = some .rejected ∧ settlements w.ledger 8 ≠ []) ∧
    ∃ w, run step empty refundedWhilePending = some w ∧ w.left = [-60] := by
  constructor
  · obtain ⟨w, hrun, hend⟩ := exists_of_run_any step empty rejectedOverPaid
      (fun w => (w.payout? 8).map AffiliatePayout.status = some .rejected ∧ settlements w.ledger 8 ≠ [])
      (by decide +kernel)
    exact ⟨w, hrun, of_decide_eq_true hend⟩
  · obtain ⟨w, hrun, hend⟩ := exists_of_run_any step empty refundedWhilePending
      (fun w => w.left = [-60]) (by decide +kernel)
    exact ⟨w, hrun, of_decide_eq_true hend⟩

end AffiliateWorld

end PropFirm
