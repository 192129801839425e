import Mathlib
import PropFirm.AffiliatePayouts
import PropFirm.Lib.Joins
import PropFirm.Lib.JsText

/-!
# The balance of an affiliate, for the affiliate and for the admin

The summary an affiliate sees sums the commissions of the affiliate. The list an admin sees joins the users
with their referrals and these with the commissions, on the user on both sides, so that every commission is
there once for each referral of the user. Counts are of distinct values, sums are not.
-/

namespace PropFirm

open Joins

structure AffiliateUser where
  id : Nat
  fullName : String
  email : String
  affiliateCode : Option String
  createdAt : Nat

instance : Keyed AffiliateUser Nat := ⟨AffiliateUser.id⟩

structure AffiliateReferral where
  id : Nat
  referrerUserId : Nat
  referredUserId : Nat

structure AffiliateCommission extends CommissionRow where
  referralId : Option Nat

structure AffiliateTier where
  tierRank : Nat
  label : Option String
  minReferrals : Nat
  commissionPct : ℚ
  isActive : Bool

/-- A referral's referrer is a user, by its foreign key. -/
structure AffiliateTables where
  users : Table AffiliateUser
  referrals : List AffiliateReferral
  commissions : List AffiliateCommission
  payouts : Table AffiliatePayout
  tiers : List AffiliateTier
  referrer_exists : ∀ r ∈ referrals, (users.find? r.referrerUserId).isSome

structure AffiliateSummary where
  affiliateCode : Option String
  totalReferrals : Nat
  payingReferrals : Nat
  lifetimeCommission : ℚ
  availableBalance : ℚ
  paidTotal : ℚ
  pendingPayoutAmount : ℚ
  currentTier : Option AffiliateTier
  nextTier : Option AffiliateTier
  allTiers : List AffiliateTier

structure AdminAffiliateRow where
  userId : Nat
  fullName : String
  email : String
  affiliateCode : Option String
  joinedAt : Nat
  totalReferrals : Nat
  payingReferrals : Nat
  lifetimeCommission : ℚ
  availableBalance : ℚ

structure AdminAffiliatePage where
  rows : List AdminAffiliateRow
  total : Nat
  page : Nat
  pageSize : Nat

/-- `commission_amount`, where a `FILTER` on the status lets the row through. -/
def AffiliateCommission.amountIf (p : CommissionStatus → Bool) (c : AffiliateCommission) : ℚ :=
  if p c.status then c.commissionAmount else 0

/-- `status IN ('available','adjusted')`. -/
def CommissionStatus.spendable : CommissionStatus → Bool
  | available | adjusted => true
  | pending | paid => false

namespace AffiliateTables

variable (t : AffiliateTables)

def referralsOf (userId : Nat) : List AffiliateReferral := t.referrals.filter (·.referrerUserId = userId)

def commissionsOf (userId : Nat) : List AffiliateCommission :=
  t.commissions.filter (·.referrerUserId = userId)

def sumOf (userId : Nat) (p : CommissionStatus → Bool) : ℚ :=
  ((t.commissionsOf userId).map (AffiliateCommission.amountIf p)).sum

/-! ### The affiliate's view -/

/-- Active tiers, by `min_referrals`. -/
def activeTiers : List AffiliateTier :=
  (t.tiers.filter (·.isActive)).mergeSort fun a b => a.minReferrals ≤ b.minReferrals

def fetchAffiliateSummary (userId : Nat) : AffiliateSummary :=
  let paying := ((t.referralsOf userId).filter fun ar =>
    t.commissions.any fun c => c.referralId = some ar.id ∧ c.orderId.isSome).length
  let reached := fun tier : AffiliateTier => decide (tier.minReferrals ≤ paying)
  { affiliateCode := (t.users.find? userId).bind AffiliateUser.affiliateCode
    totalReferrals := (t.referralsOf userId).length
    payingReferrals := paying
    lifetimeCommission := t.sumOf userId fun _ => true
    availableBalance := t.sumOf userId CommissionStatus.spendable
    paidTotal := t.sumOf userId (· = .paid)
    pendingPayoutAmount := ((t.payouts.rows.filter fun p => p.affiliateUserId = userId ∧
      p.status = .pending).map fun p => p.amountRequested.dollars).sum
    currentTier := (t.activeTiers.takeWhile reached).getLast?
    nextTier := (t.activeTiers.dropWhile reached).head?
    allTiers := t.activeTiers }

/-! ### The admin's view -/

/-- The rows of a user in `users JOIN affiliate_referrals LEFT JOIN affiliate_commissions`. -/
def groupOf (userId : Nat) : List (AffiliateReferral × Option AffiliateCommission) :=
  leftJoin (t.referralsOf userId) t.commissions fun _ c => c.referrerUserId = userId

def adminRow (u : AffiliateUser) : AdminAffiliateRow :=
  let group := t.groupOf u.id
  let sum := fun p => (group.map fun r => r.2.elim 0 (AffiliateCommission.amountIf p)).sum
  { userId := u.id
    fullName := u.fullName
    email := u.email
    affiliateCode := u.affiliateCode
    joinedAt := u.createdAt
    totalReferrals := (group.map fun r => r.1.referredUserId).dedup.length
    payingReferrals := (group.filterMap fun r =>
      r.2.bind fun c => if c.orderId.isSome then c.referralId else none).dedup.length
    lifetimeCommission := sum fun _ => true
    availableBalance := sum CommissionStatus.spendable }

/-- The users the search finds, by the `ILIKE` of the database, that have a referral. -/
def matching (ilike : String → String → Bool) (search : String) : List AffiliateUser :=
  let term := jsTrim search
  t.users.rows.filter fun u => (term = "" ∨ let pattern := "%" ++ term ++ "%"
    ilike u.fullName pattern ∨ ilike u.email pattern ∨ u.affiliateCode.any (ilike · pattern)) ∧
    t.groupOf u.id ≠ []

def fetchAllAffiliatesForAdmin (ilike : String → String → Bool) (search : String) (page pageSize : Nat) :
    AdminAffiliatePage :=
  let found := t.matching ilike search
  let rows := (found.map t.adminRow).mergeSort fun a b => b.lifetimeCommission ≤ a.lifetimeCommission
  { rows := (rows.drop ((max 1 page - 1) * pageSize)).take pageSize
    total := found.length
    page := page
    pageSize := pageSize }

/-- On no page of no search is the affiliate listed with other balances than the summary's. -/
def ListedAsSummarised (ilike : String → String → Bool) (userId : Nat) : Prop :=
  ∀ search page pageSize, ∀ row ∈ (t.fetchAllAffiliatesForAdmin ilike search page pageSize).rows,
    row.userId = userId →
      row.availableBalance = (t.fetchAffiliateSummary userId).availableBalance ∧
        row.lifetimeCommission = (t.fetchAffiliateSummary userId).lifetimeCommission

variable {t} {ilike : String → String → Bool} {userId : Nat}

/-- The join repeats every commission for every referral. -/
theorem sum_groupOf (userId : Nat) (p : CommissionStatus → Bool) :
    ((t.groupOf userId).map fun r => r.2.elim 0 (AffiliateCommission.amountIf p)).sum
      = (t.referralsOf userId).length * t.sumOf userId p := by
  rw [groupOf, sum_leftJoin_const, nsmul_eq_mul]
  rfl

theorem adminRow_availableBalance (u : AffiliateUser) : (t.adminRow u).availableBalance
    = (t.referralsOf u.id).length * (t.fetchAffiliateSummary u.id).availableBalance :=
  sum_groupOf u.id _

theorem adminRow_lifetimeCommission (u : AffiliateUser) : (t.adminRow u).lifetimeCommission
    = (t.referralsOf u.id).length * (t.fetchAffiliateSummary u.id).lifetimeCommission :=
  sum_groupOf u.id _

theorem groupOf_eq_nil : t.groupOf userId = [] ↔ t.referralsOf userId = [] := leftJoin_eq_nil

/-- What is listed are rows of users with a referral. -/
theorem exists_of_mem_rows {search : String} {page pageSize : Nat} {row : AdminAffiliateRow}
    (hrow : row ∈ (t.fetchAllAffiliatesForAdmin ilike search page pageSize).rows) :
    ∃ u, row = t.adminRow u ∧ t.referralsOf u.id ≠ [] := by
  have hsorted := List.mem_mergeSort.mp (List.mem_of_mem_drop (List.mem_of_mem_take hrow))
  obtain ⟨u, hu, rfl⟩ := List.mem_map.mp hsorted
  have hgroup := (of_decide_eq_true (List.mem_filter.mp hu).2).2
  exact ⟨u, rfl, fun hnone => hgroup (groupOf_eq_nil.mpr hnone)⟩

/-- An affiliate with a referral is on the first page of the search for nothing, when it is long enough. -/
theorem exists_mem_rows (hreferred : t.referralsOf userId ≠ []) :
    ∃ u pageSize, u.id = userId ∧ t.adminRow u ∈ (t.fetchAllAffiliatesForAdmin ilike "" 1 pageSize).rows := by
  obtain ⟨r, hr⟩ := List.exists_mem_of_ne_nil _ hreferred
  obtain ⟨hmem, hreferrer⟩ := List.mem_filter.mp hr
  obtain ⟨u, hu⟩ := Option.isSome_iff_exists.mp (t.referrer_exists r hmem)
  obtain ⟨hrow, hkey⟩ := Table.find?_eq_some.mp hu
  have hid : u.id = userId := hkey.trans (of_decide_eq_true hreferrer)
  have hfound : u ∈ t.matching ilike "" := by
    refine List.mem_filter.mpr ⟨hrow, decide_eq_true ⟨.inl ?_, ?_⟩⟩
    · rfl
    · rw [hid, ne_eq, groupOf_eq_nil]
      exact hreferred
  refine ⟨u, (t.matching ilike "").length, hid, ?_⟩
  have hsorted : t.adminRow u ∈ ((t.matching ilike "").map t.adminRow).mergeSort
      fun a b => decide (b.lifetimeCommission ≤ a.lifetimeCommission) :=
    List.mem_mergeSort.mpr (List.mem_map_of_mem hfound)
  unfold fetchAllAffiliatesForAdmin
  dsimp only
  rw [max_self, Nat.sub_self, Nat.zero_mul, List.drop_zero, List.take_of_length_le]
  · exact hsorted
  · rw [List.length_mergeSort, List.length_map]

/-- Admin and affiliate see the same balances exactly when the affiliate has at most one referral, or both
balances are zero. -/
theorem listedAsSummarised_iff (t : AffiliateTables) (ilike : String → String → Bool) (userId : Nat) :
    t.ListedAsSummarised ilike userId ↔
      (t.referralsOf userId).length ≤ 1 ∨
        t.sumOf userId CommissionStatus.spendable = 0 ∧ t.sumOf userId (fun _ => true) = 0 := by
  constructor
  · intro hlisted
    by_cases hreferred : t.referralsOf userId = []
    · exact .inl (by simp [hreferred])
    · obtain ⟨u, pageSize, rfl, hrow⟩ : ∃ u pageSize, u.id = userId ∧
          t.adminRow u ∈ (t.fetchAllAffiliatesForAdmin ilike "" 1 pageSize).rows := exists_mem_rows hreferred
      obtain ⟨havailable, hlifetime⟩ := hlisted "" 1 pageSize _ hrow rfl
      rw [adminRow_availableBalance] at havailable
      rw [adminRow_lifetimeCommission] at hlifetime
      by_cases hone : (t.referralsOf u.id).length ≤ 1
      · exact .inl hone
      · have hnot : ((t.referralsOf u.id).length : ℚ) ≠ 1 := by
          intro h
          exact hone (Nat.cast_eq_one.mp h).le
        have hzero : ∀ {x : ℚ}, ((t.referralsOf u.id).length : ℚ) * x = x → x = 0 := by
          intro x hx
          by_contra hx0
          exact hnot (mul_right_cancel₀ hx0 (hx.trans (one_mul x).symm))
        exact .inr ⟨hzero havailable, hzero hlifetime⟩
  · intro hcondition search page pageSize row hrow hid
    obtain ⟨u, rfl, hreferred⟩ := exists_of_mem_rows hrow
    obtain rfl : u.id = userId := hid
    rw [adminRow_availableBalance, adminRow_lifetimeCommission]
    rcases hcondition with hone | ⟨havailable, hlifetime⟩
    · have hlength : (t.referralsOf u.id).length = 1 :=
        le_antisymm hone (List.length_pos_of_ne_nil hreferred)
      rw [hlength, Nat.cast_one, one_mul, one_mul]
      exact ⟨rfl, rfl⟩
    · change _ * t.sumOf u.id _ = t.sumOf u.id _ ∧ _ * t.sumOf u.id _ = t.sumOf u.id _
      rw [havailable, hlifetime, mul_zero]
      exact ⟨rfl, rfl⟩

/-- User 1 has referred users 2 and 3 and earned 10 dollars. -/
def twoReferrals : AffiliateTables where
  users := ⟨[⟨1, "A", "a@example.com", some "AAAA", 0⟩], by simp⟩
  referrals := [⟨1, 1, 2⟩, ⟨2, 1, 3⟩]
  commissions := [⟨⟨1, some 7, 10, .available, none, none⟩, some 1⟩]
  payouts := Table.empty
  tiers := []
  referrer_exists := by decide

/-- The admin sees 20 dollars. -/
theorem twoReferrals_doubled : ¬ ∀ (t : AffiliateTables) (ilike : String → String → Bool) (userId : Nat),
    t.ListedAsSummarised ilike userId := by
  intro h
  have hlisted : ∃ row ∈ (twoReferrals.fetchAllAffiliatesForAdmin (fun _ _ => false) "" 1 20).rows,
      row.userId = 1 ∧ row.availableBalance = 20 := by decide +kernel
  obtain ⟨row, hrow, hid, hbalance⟩ := hlisted
  have hsummary : (twoReferrals.fetchAffiliateSummary 1).availableBalance = 10 := by decide +kernel
  have hsame := (h twoReferrals (fun _ _ => false) 1 "" 1 20 row hrow hid).1
  rw [hbalance, hsummary] at hsame
  exact absurd hsame (by decide)

end AffiliateTables

end PropFirm
