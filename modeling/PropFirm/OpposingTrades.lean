import Mathlib.Data.List.Dedup
import Mathlib.Data.List.Infix
import Mathlib.Data.List.Perm.Basic
import PropFirm.Lib.DisjointPicks
import PropFirm.Lib.Transition
import PropFirm.Schema

/-!
# Opposing trades

After the sweep over the accounts the challenge engine looks for traders that hold both sides of an
instrument. The first scan puts a review flag on the accounts of those who opened both sides within five
minutes of each other; the second locks the accounts of those who have both sides open in more than one
account, except where one of the accounts has a flag already whose reason speaks of opposing trades. The
reason of the first scan does.
-/

namespace PropFirm

open DisjointPicks Transition

/-- What the scans read and write of a row of `accounts`. -/
structure FlaggedAccount where
  id : ℕ
  userId : ℕ
  status : AccountStatus
  reviewFlagged : Bool
  reviewFlagReason : Option String
  deriving DecidableEq

instance : Keyed FlaggedAccount ℕ := ⟨FlaggedAccount.id⟩

/-- What they read of a row of `trades`, the times in milliseconds. -/
structure SidedTrade where
  accountId : ℕ
  instrument : String
  direction : Direction
  status : TradeStatus
  openTime : ℤ
  closeTime : Option ℤ

/-- A row of either scan. -/
structure OpposingGroup where
  userId : ℕ
  instrument : String
  accountIds : List ℕ
  deriving DecidableEq

structure AccountOwner where
  userId : ℕ
  status : AccountStatus

def owner? (accounts : Table FlaggedAccount) (id : ℕ) : Option AccountOwner :=
  (accounts.find? id).map fun account => ⟨account.userId, account.status⟩

/-- `trades t JOIN accounts a ON t.account_id = a.id`. -/
def joinedTrades (owner : ℕ → Option AccountOwner) (trades : List SidedTrade) : List (AccountOwner × SidedTrade) :=
  trades.filterMap fun trade => (owner trade.accountId).map fun owner => (owner, trade)

def groupKey (row : AccountOwner × SidedTrade) : ℕ × String := (row.1.userId, row.2.instrument)

/-- The groups of `GROUP BY a.user_id, t.instrument` that a condition on their rows keeps. -/
def groupsHaving (having : List (AccountOwner × SidedTrade) → Bool) (rows : List (AccountOwner × SidedTrade)) :
    List OpposingGroup :=
  (((rows.map groupKey).dedup).map fun key => (key, rows.filter fun row => groupKey row = key)).filterMap
    fun group => if having group.2 then some ⟨group.1.1, group.1.2, (group.2.map fun row => row.2.accountId).dedup⟩
      else none

def hasBothSides (rows : List (AccountOwner × SidedTrade)) : Bool :=
  rows.any (fun row => row.2.direction = .buy) && rows.any fun row => row.2.direction = .sell

/-- `close_time > NOW() - INTERVAL '24 hours'`. -/
def closedLastDay (now : ℤ) (trade : SidedTrade) : Bool :=
  trade.status = .closed && trade.closeTime.any fun closeTime => now - 24 * 60 * 60 * 1000 < closeTime

def rapidGroups (now : ℤ) (trades : List SidedTrade) (owner : ℕ → Option AccountOwner) : List OpposingGroup :=
  groupsHaving hasBothSides
    ((joinedTrades owner trades).filter fun row => closedLastDay now row.2 && row.1.status = .active)

def opposingGroups (trades : List SidedTrade) (owner : ℕ → Option AccountOwner) : List OpposingGroup :=
  groupsHaving (fun rows => 1 < (rows.map fun row => row.2.accountId).dedup.length && hasBothSides rows)
    ((joinedTrades owner trades).filter fun row => row.2.status = .opened && row.1.status = .active)

/-- `ILIKE '%opposing%'`. -/
def mentionsOpposing (reason : String) : Bool := "opposing".toList <:+: reason.toList.map Char.toLower

def FlaggedAccount.OpposingFlagged (account : FlaggedAccount) : Prop :=
  account.reviewFlagged = true ∧ account.reviewFlagReason.any mentionsOpposing

instance (account : FlaggedAccount) : Decidable account.OpposingFlagged := inferInstanceAs (Decidable (_ ∧ _))

inductive EnforcementAction
  | lockAccount | flagForReview
  deriving DecidableEq

def orAutomation (reason fallback : String) : String := if reason = "" then fallback else reason

def FlaggedAccount.enforced (action : EnforcementAction) (reason : String) : Table.Rewrite FlaggedAccount where
  apply account :=
    match action with
    | .lockAccount =>
      { account with
        status := if account.status = .active then .locked else account.status
        reviewFlagged := true
        reviewFlagReason := some (orAutomation reason "Locked by automation") }
    | .flagForReview =>
      { account with
        reviewFlagged := true
        reviewFlagReason :=
          match account.reviewFlagReason with
          | none | some "" => some (orAutomation reason "Flagged by automation")
          | some old => some (old ++ " | " ++ orAutomation reason "Flagged by automation") }
  key_apply _ := by cases action <;> rfl

def enforcementActionOf : String → Option EnforcementAction
  | "lock_account" => some .lockAccount
  | "flag_for_review" => some .flagForReview
  | _ => none

/-- Without a result it throws, after a rollback. -/
def applyAccountEnforcement (accounts : Table FlaggedAccount) (accountId : ℕ) (action reason : String) :
    Option (Table FlaggedAccount) :=
  (accounts.find? accountId).bind fun _ =>
    (enforcementActionOf action).map fun action => accounts.updateAt accountId (FlaggedAccount.enforced action reason)

/-- Which queries of a scan fail. -/
structure ScanFailures where
  flagQuery : OpposingGroup → Bool
  lock : OpposingGroup → ℕ → Bool
  flag : OpposingGroup → ℕ → Bool

/-- Enforcement on the accounts of a row, one after the other, errors only logged. -/
def enforceAll (fails : ℕ → Bool) (action reason : String) (accounts : Table FlaggedAccount) (ids : List ℕ) :
    Table FlaggedAccount :=
  ids.foldl (fun accounts id =>
    if fails id then accounts else (applyAccountEnforcement accounts id action reason).getD accounts) accounts

/-- The trades the rapid check looks at: the fifty that were closed last. -/
def recentTrades (now : ℤ) (trades : List SidedTrade) (owner : ℕ → Option AccountOwner) (g : OpposingGroup) :
    List SidedTrade :=
  ((((joinedTrades owner trades).filter fun row =>
    groupKey row = (g.userId, g.instrument) && closedLastDay now row.2).map Prod.snd).mergeSort
      fun t u => u.closeTime.getD 0 ≤ t.closeTime.getD 0).take 50

def rapidCount (trades : List SidedTrade) : ℕ :=
  ((trades.filter fun t => t.direction = .buy).product (trades.filter fun t => t.direction = .sell)).countP
    fun p => |p.1.openTime - p.2.openTime| < 5 * 60 * 1000

def isRapid (now : ℤ) (trades : List SidedTrade) (owner : ℕ → Option AccountOwner) (g : OpposingGroup) : Bool :=
  let recent := recentTrades now trades owner g
  4 ≤ recent.length && 2 ≤ rapidCount recent

def rapidReason (g : OpposingGroup) : String := "Rapid opposing trades detected on " ++ g.instrument

def flagReason (g : OpposingGroup) : String :=
  "Cross-account opposing trade detected on " ++ g.instrument ++ " — BUY and SELL open simultaneously across " ++
    toString g.accountIds.length ++ " accounts"

def detectRapidOpposingTrades (failures : ScanFailures) (now : ℤ) (trades : List SidedTrade)
    (accounts : Table FlaggedAccount) (g : OpposingGroup) : Table FlaggedAccount :=
  if isRapid now trades (owner? accounts) g then
    enforceAll (failures.flag g) "flag_for_review" (rapidReason g) accounts g.accountIds
  else accounts

def alreadyFlagged (failures : ScanFailures) (accounts : Table FlaggedAccount) (g : OpposingGroup) : Bool :=
  !failures.flagQuery g && accounts.rows.any fun account => account.id ∈ g.accountIds && account.OpposingFlagged

def detectOpposingTrades (failures : ScanFailures) (now : ℤ) (trades : List SidedTrade)
    (accounts : Table FlaggedAccount) (g : OpposingGroup) : Table FlaggedAccount :=
  if alreadyFlagged failures accounts g then accounts
  else
    detectRapidOpposingTrades failures now trades
      (enforceAll (failures.lock g) "lock_account" (flagReason g) accounts g.accountIds) g

/-- Both scans, with the rows of each in the order the database gives them. -/
def opposingScans (order : List OpposingGroup → List OpposingGroup) (failures : ScanFailures) (now : ℤ)
    (trades : List SidedTrade) (accounts : Table FlaggedAccount) : Table FlaggedAccount :=
  let flagged := (order (rapidGroups now trades (owner? accounts))).foldl
    (detectRapidOpposingTrades failures now trades) accounts
  (order (opposingGroups trades (owner? flagged))).foldl (detectOpposingTrades failures now trades) flagged

@[simp] theorem enforcementActionOf_lock : enforcementActionOf "lock_account" = some .lockAccount := rfl

@[simp] theorem enforcementActionOf_flag : enforcementActionOf "flag_for_review" = some .flagForReview := rfl

section Enforcement

variable {accounts : Table FlaggedAccount} {action reason : String} {act : EnforcementAction} {fails : ℕ → Bool}

theorem find?_applyAccountEnforcement (haction : enforcementActionOf action = some act) (id k : ℕ) :
    ((applyAccountEnforcement accounts id action reason).getD accounts).find? k =
      (accounts.find? k).map fun account =>
        if k = id then (FlaggedAccount.enforced act reason).apply account else account := by
  cases hfind : accounts.find? id with
  | none =>
    rw [applyAccountEnforcement, hfind, Option.bind_none, Option.getD_none]
    by_cases hk : k = id
    · rw [hk, hfind, Option.map_none]
    · simp [hk]
  | some account =>
    rw [applyAccountEnforcement, hfind, haction, Option.bind_some, Option.map_some, Option.getD_some,
      Table.find?_updateAt]

/-- Each account that is named is enforced as often as it is named and nothing fails. -/
theorem find?_enforceAll (haction : enforcementActionOf action = some act) (ids : List ℕ) (k : ℕ) :
    (enforceAll fails action reason accounts ids).find? k =
      (accounts.find? k).map (FlaggedAccount.enforced act reason).apply^[(ids.filter fun id => !fails id).count k] := by
  induction ids generalizing accounts with
  | nil => simp [enforceAll]
  | cons id ids ih =>
    rw [enforceAll, List.foldl_cons, ← enforceAll, ih]
    by_cases hfails : fails id
    · simp [hfails]
    · rw [if_neg hfails, find?_applyAccountEnforcement haction, Option.map_map,
        List.filter_cons_of_pos (by simpa using hfails), List.count_cons]
      refine congrArg (Option.map · _) (funext fun account => ?_)
      by_cases hk : k = id
      · subst hk
        simp [Function.iterate_succ]
      · simp [hk, Ne.symm hk]

variable {account : FlaggedAccount}

theorem enforced_userId (act : EnforcementAction) (n : ℕ) :
    ((FlaggedAccount.enforced act reason).apply^[n] account).userId = account.userId := by
  induction n generalizing account with
  | zero => rfl
  | succ n ih =>
    rw [Function.iterate_succ_apply, ih]
    cases act <;> rfl

def lockedIfActive (status : AccountStatus) : AccountStatus := if status = .active then .locked else status

theorem lockedIfActive_lockedIfActive (status : AccountStatus) :
    lockedIfActive (lockedIfActive status) = lockedIfActive status := by
  cases status <;> rfl

theorem locked_status (n : ℕ) :
    ((FlaggedAccount.enforced .lockAccount reason).apply^[n] account).status =
      if 0 < n then lockedIfActive account.status else account.status := by
  induction n generalizing account with
  | zero => rfl
  | succ n ih =>
    have hstep : ((FlaggedAccount.enforced .lockAccount reason).apply account).status =
        lockedIfActive account.status := rfl
    rw [Function.iterate_succ_apply, ih, hstep, lockedIfActive_lockedIfActive, ite_self, if_pos n.succ_pos]

theorem flagged_status (n : ℕ) :
    ((FlaggedAccount.enforced .flagForReview reason).apply^[n] account).status = account.status := by
  induction n generalizing account with
  | zero => rfl
  | succ n ih =>
    rw [Function.iterate_succ_apply, ih]
    rfl

theorem mentionsOpposing_append {reason : String} (before : String) (hreason : mentionsOpposing reason = true)
    (after : String) : mentionsOpposing (before ++ reason ++ after) = true := by
  obtain ⟨pre, post, hreason⟩ := of_decide_eq_true hreason
  refine decide_eq_true ⟨before.toList.map Char.toLower ++ pre, post ++ after.toList.map Char.toLower, ?_⟩
  rw [String.toList_append, String.toList_append, List.map_append, List.map_append, ← hreason]
  simp only [List.append_assoc]

/-- A reason that speaks of opposing trades is there afterwards, and one that was there is not lost. -/
theorem enforced_opposingFlagged (hreason : mentionsOpposing reason = true) (act : EnforcementAction) :
    ((FlaggedAccount.enforced act reason).apply account).OpposingFlagged := by
  have hne : reason ≠ "" := by
    rintro rfl
    exact absurd hreason (by decide)
  have horAutomation (fallback : String) : orAutomation reason fallback = reason := if_neg hne
  refine ⟨by cases act <;> rfl, ?_⟩
  cases act with
  | lockAccount =>
    change mentionsOpposing (orAutomation reason "Locked by automation") = true
    rwa [horAutomation]
  | flagForReview =>
    have hmerged (old : String) : mentionsOpposing (old ++ " | " ++ reason) = true := by
      have := mentionsOpposing_append (old ++ " | ") hreason ""
      rwa [String.append_empty] at this
    obtain ⟨id, userId, status, flagged, old⟩ := account
    simp only [FlaggedAccount.enforced, horAutomation]
    split
    · exact hreason
    · exact hreason
    · exact hmerged _

theorem iterate_opposingFlagged (hreason : mentionsOpposing reason = true) (act : EnforcementAction) (n : ℕ) :
    ((FlaggedAccount.enforced act reason).apply^[n] account).OpposingFlagged ↔
      account.OpposingFlagged ∨ 0 < n := by
  cases n with
  | zero => simp
  | succ n =>
    rw [Function.iterate_succ_apply']
    exact iff_of_true (enforced_opposingFlagged hreason act) (.inr n.succ_pos)

theorem hasAt_enforceAll (haction : enforcementActionOf action = some act)
    (hreason : mentionsOpposing reason = true) (ids : List ℕ) (k : ℕ) :
    (enforceAll fails action reason accounts ids).HasAt FlaggedAccount.OpposingFlagged k ↔
      accounts.HasAt FlaggedAccount.OpposingFlagged k ∨
        (accounts.find? k).isSome ∧ k ∈ ids ∧ fails k = false := by
  have hcount : 0 < (ids.filter fun id => !fails id).count k ↔ k ∈ ids ∧ fails k = false := by
    rw [List.count_pos_iff, List.mem_filter, Bool.not_eq_true']
  rw [Table.HasAt, find?_enforceAll haction, ← hcount]
  cases hfind : accounts.find? k with
  | none => simp [Table.HasAt, hfind]
  | some account => simp [Table.HasAt, hfind, iterate_opposingFlagged hreason act]

theorem owner?_enforceAll_flag (ids : List ℕ) :
    owner? (enforceAll fails "flag_for_review" reason accounts ids) = owner? accounts := by
  funext k
  rw [owner?, find?_enforceAll enforcementActionOf_flag, Option.map_map, owner?]
  refine congrArg (Option.map · _) (funext fun account => ?_)
  rw [Function.comp_apply, enforced_userId, flagged_status]

theorem owner?_enforceAll_lock (ids : List ℕ) (k : ℕ) :
    owner? (enforceAll fails "lock_account" reason accounts ids) k =
      (owner? accounts k).map fun owner =>
        if k ∈ ids ∧ fails k = false then { owner with status := lockedIfActive owner.status } else owner := by
  rw [owner?, find?_enforceAll enforcementActionOf_lock, Option.map_map, owner?, Option.map_map]
  refine congrArg (Option.map · _) (funext fun account => ?_)
  have hcount : 0 < (ids.filter fun id => !fails id).count k ↔ k ∈ ids ∧ fails k = false := by
    rw [List.count_pos_iff, List.mem_filter, Bool.not_eq_true']
  rw [Function.comp_apply, Function.comp_apply, enforced_userId, locked_status]
  by_cases hk : k ∈ ids ∧ fails k = false
  · rw [if_pos hk, if_pos (hcount.mpr hk)]
  · rw [if_neg hk, if_neg (mt hcount.mp hk)]

end Enforcement

theorem mentionsOpposing_rapidReason (g : OpposingGroup) : mentionsOpposing (rapidReason g) = true := by
  have hfixed : mentionsOpposing "Rapid opposing trades detected on " = true := by decide +kernel
  have := mentionsOpposing_append "" hfixed g.instrument
  rwa [String.empty_append] at this

theorem mentionsOpposing_flagReason (g : OpposingGroup) : mentionsOpposing (flagReason g) = true := by
  have hfixed : mentionsOpposing "Cross-account opposing trade detected on " = true := by decide +kernel
  have := mentionsOpposing_append "" hfixed (g.instrument ++ " — BUY and SELL open simultaneously across " ++
    toString g.accountIds.length ++ " accounts")
  rwa [String.empty_append, ← String.append_assoc, ← String.append_assoc, ← String.append_assoc] at this

section Scans

variable {accounts : Table FlaggedAccount} {failures : ScanFailures} {now : ℤ} {trades : List SidedTrade}

/-- The accounts of a row of a scan own a trade it joins. -/
theorem owner_of_mem_groupsHaving {having : List (AccountOwner × SidedTrade) → Bool}
    {p : AccountOwner × SidedTrade → Bool} {owner : ℕ → Option AccountOwner} {g : OpposingGroup}
    (hg : g ∈ groupsHaving having ((joinedTrades owner trades).filter p)) {k : ℕ} (hk : k ∈ g.accountIds) :
    ∃ row, p row = true ∧ owner k = some row.1 ∧ row.2.accountId = k := by
  obtain ⟨group, hgroup, hkept⟩ := List.mem_filterMap.mp hg
  obtain ⟨key, -, rfl⟩ := List.mem_map.mp hgroup
  split at hkept
  · obtain rfl := Option.some.inj hkept
    obtain ⟨row, hrow, rfl⟩ := List.mem_map.mp (List.mem_dedup.mp hk)
    obtain ⟨hjoined, hp⟩ := List.mem_filter.mp (List.mem_filter.mp hrow).1
    obtain ⟨trade, -, hrow⟩ := List.mem_filterMap.mp hjoined
    obtain ⟨o, howner, rfl⟩ := Option.map_eq_some_iff.mp hrow
    exact ⟨(o, trade), hp, howner, rfl⟩
  · cases hkept

theorem accountIds_ne_nil_of_mem_groupsHaving {having : List (AccountOwner × SidedTrade) → Bool}
    {rows : List (AccountOwner × SidedTrade)} {g : OpposingGroup} (hg : g ∈ groupsHaving having rows) :
    g.accountIds ≠ [] := by
  obtain ⟨group, hgroup, hkept⟩ := List.mem_filterMap.mp hg
  obtain ⟨key, hkey, rfl⟩ := List.mem_map.mp hgroup
  obtain ⟨row, hrow, rfl⟩ := List.mem_map.mp (List.mem_dedup.mp hkey)
  split at hkept
  · obtain rfl := Option.some.inj hkept
    refine List.ne_nil_of_mem (a := row.2.accountId) (List.mem_dedup.mpr (List.mem_map.mpr ⟨row, ?_, rfl⟩))
    exact List.mem_filter.mpr ⟨hrow, decide_eq_true rfl⟩
  · cases hkept

theorem isSome_find?_iff {k : ℕ} : (accounts.find? k).isSome ↔ (owner? accounts k).isSome := by
  rw [owner?, Option.isSome_map]

theorem owner?_detectRapidOpposingTrades (g : OpposingGroup) :
    owner? (detectRapidOpposingTrades failures now trades accounts g) = owner? accounts := by
  rw [detectRapidOpposingTrades]
  split
  · exact owner?_enforceAll_flag _
  · rfl

theorem hasAt_detectRapidOpposingTrades {g : OpposingGroup}
    (hexist : ∀ k ∈ g.accountIds, (owner? accounts k).isSome) (k : ℕ) :
    (detectRapidOpposingTrades failures now trades accounts g).HasAt FlaggedAccount.OpposingFlagged k ↔
      accounts.HasAt FlaggedAccount.OpposingFlagged k ∨
        isRapid now trades (owner? accounts) g = true ∧ k ∈ g.accountIds ∧ failures.flag g k = false := by
  rw [detectRapidOpposingTrades]
  by_cases hrapid : isRapid now trades (owner? accounts) g = true
  · rw [if_pos hrapid, hasAt_enforceAll enforcementActionOf_flag (mentionsOpposing_rapidReason g),
      isSome_find?_iff]
    exact or_congr_right ⟨fun h => ⟨hrapid, h.2⟩, fun h => ⟨hexist k h.2.1, h.2⟩⟩
  · rw [if_neg hrapid]
    exact (or_iff_left (fun h => hrapid h.1)).symm

/-- The first scan flags and does nothing else. -/
theorem rapidScan_spec {groups : List OpposingGroup}
    (hexist : ∀ g ∈ groups, ∀ k ∈ g.accountIds, (owner? accounts k).isSome) :
    owner? (groups.foldl (detectRapidOpposingTrades failures now trades) accounts) = owner? accounts ∧
      ∀ k, (groups.foldl (detectRapidOpposingTrades failures now trades) accounts).HasAt
          FlaggedAccount.OpposingFlagged k ↔
        accounts.HasAt FlaggedAccount.OpposingFlagged k ∨
          ∃ g ∈ groups, isRapid now trades (owner? accounts) g = true ∧ k ∈ g.accountIds ∧
            failures.flag g k = false := by
  induction groups generalizing accounts with
  | nil => simp
  | cons g groups ih =>
    have howner : owner? (detectRapidOpposingTrades failures now trades accounts g) = owner? accounts :=
      owner?_detectRapidOpposingTrades g
    rw [List.foldl_cons]
    obtain ⟨hrest, hflagged⟩ := ih (by rw [howner]; exact fun h hh => hexist h (List.mem_cons_of_mem _ hh))
    refine ⟨hrest.trans howner, fun k => ?_⟩
    rw [hflagged, hasAt_detectRapidOpposingTrades (hexist g List.mem_cons_self), howner, or_assoc,
      List.exists_mem_cons_iff]

theorem alreadyFlagged_iff {g : OpposingGroup} (hquery : failures.flagQuery g = false) :
    alreadyFlagged failures accounts g = true ↔
      ∃ k ∈ g.accountIds, accounts.HasAt FlaggedAccount.OpposingFlagged k := by
  rw [alreadyFlagged, hquery, Bool.not_false, Bool.true_and, List.any_eq_true]
  constructor
  · rintro ⟨account, hmem, hflagged⟩
    obtain ⟨hid, hflagged⟩ := Bool.and_eq_true_iff.mp hflagged
    exact ⟨account.id, of_decide_eq_true hid, account, Table.find?_eq_some.mpr ⟨hmem, rfl⟩,
      of_decide_eq_true hflagged⟩
  · rintro ⟨k, hk, account, hfind, hflagged⟩
    obtain ⟨hmem, rfl⟩ := Table.find?_eq_some.mp hfind
    exact ⟨account, hmem, Bool.and_eq_true_iff.mpr ⟨decide_eq_true hk, decide_eq_true hflagged⟩⟩

/-- A row none of whose accounts is flagged: all of them are locked and flagged. -/
theorem detectOpposingTrades_spec {g : OpposingGroup} (hlock : ∀ k, failures.lock g k = false)
    (hexist : ∀ k ∈ g.accountIds, (owner? accounts k).isSome) (hfree : alreadyFlagged failures accounts g = false) :
    (∀ k, owner? (detectOpposingTrades failures now trades accounts g) k =
      (owner? accounts k).map fun owner =>
        if k ∈ g.accountIds then { owner with status := lockedIfActive owner.status } else owner) ∧
      ∀ k, (detectOpposingTrades failures now trades accounts g).HasAt FlaggedAccount.OpposingFlagged k ↔
        accounts.HasAt FlaggedAccount.OpposingFlagged k ∨ k ∈ g.accountIds := by
  have howner (k : ℕ) : owner? (enforceAll (failures.lock g) "lock_account" (flagReason g) accounts g.accountIds) k =
      (owner? accounts k).map fun owner =>
        if k ∈ g.accountIds then { owner with status := lockedIfActive owner.status } else owner := by
    rw [owner?_enforceAll_lock]
    simp only [hlock k, and_true]
  rw [detectOpposingTrades, if_neg (by rw [hfree]; exact Bool.false_ne_true)]
  refine ⟨fun k => ?_, fun k => ?_⟩
  · rw [owner?_detectRapidOpposingTrades, howner]
  · rw [hasAt_detectRapidOpposingTrades (fun k hk => by rw [howner, Option.isSome_map]; exact hexist k hk),
      hasAt_enforceAll enforcementActionOf_lock (mentionsOpposing_flagReason g), isSome_find?_iff]
    constructor
    · rintro ((h | h) | h)
      · exact .inl h
      · exact .inr h.2.1
      · exact .inr h.2.1
    · rintro (h | h)
      · exact .inl (.inl h)
      · exact .inl (.inr ⟨hexist k h, h, hlock k⟩)

def OpposingGroup.members (g : OpposingGroup) : Set ℕ := {k | k ∈ g.accountIds}

/-- The second scan locks the rows that share no account with what is flagged or locked before them. -/
theorem opposingScan_spec {groups : List OpposingGroup} (hquery : ∀ g, failures.flagQuery g = false)
    (hlock : ∀ g k, failures.lock g k = false)
    (hexist : ∀ g ∈ groups, ∀ k ∈ g.accountIds, (owner? accounts k).isSome) :
    ∃ picked, Picks OpposingGroup.members {k | accounts.HasAt FlaggedAccount.OpposingFlagged k} groups picked ∧
      ∀ k, owner? (groups.foldl (detectOpposingTrades failures now trades) accounts) k =
        (owner? accounts k).map fun owner =>
          if ∃ g ∈ picked, k ∈ g.accountIds then { owner with status := lockedIfActive owner.status } else owner := by
  induction groups generalizing accounts with
  | nil => exact ⟨[], .nil _, by simp⟩
  | cons g groups ih =>
    have hrest := fun h hh => hexist h (List.mem_cons_of_mem g hh)
    rw [List.foldl_cons]
    cases hflagged : alreadyFlagged failures accounts g with
    | true =>
      obtain ⟨picked, hpicks, howner⟩ := ih hrest
      rw [detectOpposingTrades, if_pos hflagged]
      obtain ⟨k, hk, hat⟩ := (alreadyFlagged_iff (hquery g)).mp hflagged
      exact ⟨picked, .skip ⟨k, hk, hat⟩ hpicks, howner⟩
    | false =>
      obtain ⟨hstep, hat⟩ := @detectOpposingTrades_spec accounts failures now trades g (hlock g)
        (hexist g List.mem_cons_self) hflagged
      obtain ⟨picked, hpicks, howner⟩ := @ih (detectOpposingTrades failures now trades accounts g)
        (fun h hh k hk => by rw [hstep, Option.isSome_map]; exact hrest h hh k hk)
      refine ⟨g :: picked, .take ?_ ?_, fun k => ?_⟩
      · refine Set.disjoint_left.mpr fun k hk hflag => ?_
        exact Bool.false_ne_true (hflagged.symm.trans ((alreadyFlagged_iff (hquery g)).mpr ⟨k, hk, hflag⟩))
      · rwa [show {k | accounts.HasAt FlaggedAccount.OpposingFlagged k} ∪ g.members =
          {k | (detectOpposingTrades failures now trades accounts g).HasAt FlaggedAccount.OpposingFlagged k} from
            Set.ext fun k => (hat k).symm]
      · rw [howner, hstep, Option.map_map]
        refine congrArg (Option.map · _) (funext fun owner => ?_)
        simp only [Function.comp_apply, List.exists_mem_cons_iff]
        by_cases hfirst : k ∈ g.accountIds <;> by_cases hlater : ∃ h ∈ picked, k ∈ h.accountIds <;>
          simp [hfirst, hlater, lockedIfActive_lockedIfActive]

/-- The accounts that speak of opposing trades when the second scan starts. -/
def Shielded (failures : ScanFailures) (now : ℤ) (trades : List SidedTrade) (accounts : Table FlaggedAccount)
    (k : ℕ) : Prop :=
  accounts.HasAt FlaggedAccount.OpposingFlagged k ∨
    ∃ g ∈ rapidGroups now trades (owner? accounts), isRapid now trades (owner? accounts) g = true ∧
      k ∈ g.accountIds ∧ failures.flag g k = false

/-- What the scans lock: rows that share no account with each other nor with a flagged account, as many of
them as can be; a flag of the first scan counts. -/
theorem opposingScans_spec {order : List OpposingGroup → List OpposingGroup}
    (horder : ∀ groups, (order groups).Perm groups) (hquery : ∀ g, failures.flagQuery g = false)
    (hlock : ∀ g k, failures.lock g k = false) :
    ∃ picked : List OpposingGroup, picked.Sublist (order (opposingGroups trades (owner? accounts))) ∧
      picked.Pairwise (fun g h => g.accountIds.Disjoint h.accountIds) ∧
      (∀ g ∈ picked, ∀ k ∈ g.accountIds, ¬ Shielded failures now trades accounts k) ∧
      (∀ g ∈ opposingGroups trades (owner? accounts),
        ∃ k ∈ g.accountIds, Shielded failures now trades accounts k ∨ ∃ h ∈ picked, k ∈ h.accountIds) ∧
      ∀ k, ((opposingScans order failures now trades accounts).find? k).map FlaggedAccount.status =
        (accounts.find? k).map fun account =>
          if ∃ g ∈ picked, k ∈ g.accountIds then .locked else account.status := by
  have hmember {having : List (AccountOwner × SidedTrade) → Bool} {p : AccountOwner × SidedTrade → Bool} :
      ∀ g ∈ order (groupsHaving having ((joinedTrades (owner? accounts) trades).filter p)), ∀ k ∈ g.accountIds,
        (owner? accounts k).isSome := by
    intro g hg k hk
    obtain ⟨row, -, howner, -⟩ := owner_of_mem_groupsHaving ((horder _).mem_iff.mp hg) hk
    exact Option.isSome_of_eq_some howner
  obtain ⟨hsame, hflagged⟩ := @rapidScan_spec accounts failures now trades
    (order (rapidGroups now trades (owner? accounts))) hmember
  have hshielded : ∀ k, ((order (rapidGroups now trades (owner? accounts))).foldl
      (detectRapidOpposingTrades failures now trades) accounts).HasAt FlaggedAccount.OpposingFlagged k ↔
      Shielded failures now trades accounts k := by
    intro k
    simp only [hflagged, Shielded, (horder _).mem_iff]
  obtain ⟨picked, hpicks, howner⟩ := @opposingScan_spec
    ((order (rapidGroups now trades (owner? accounts))).foldl
      (detectRapidOpposingTrades failures now trades) accounts) failures now trades
    (order (opposingGroups trades (owner? accounts))) hquery hlock (by rw [hsame]; exact hmember)
  have hmem : ∀ g ∈ picked, g ∈ opposingGroups trades (owner? accounts) :=
    fun g hg => (horder _).mem_iff.mp (hpicks.sublist.subset hg)
  refine ⟨picked, hpicks.sublist, hpicks.pairwise_disjoint.imp fun h => ?_, fun g hg k hk hk' => ?_,
    fun g hg => ?_, fun k => ?_⟩
  · exact fun k hk hk' => Set.disjoint_left.mp h hk hk'
  · exact Set.disjoint_left.mp (hpicks.disjoint_taken g hg) hk ((hshielded k).mpr hk')
  · have hsome : ∀ g ∈ order (opposingGroups trades (owner? accounts)), g.members.Nonempty := fun g hg =>
      List.exists_mem_of_ne_nil _ (accountIds_ne_nil_of_mem_groupsHaving ((horder _).mem_iff.mp hg))
    obtain ⟨k, hk, h⟩ := hpicks.maximal hsome g ((horder _).mem_iff.mpr hg)
    exact ⟨k, hk, h.imp_left (hshielded k).mp⟩
  · have hstatus (accounts : Table FlaggedAccount) : (accounts.find? k).map FlaggedAccount.status =
        (owner? accounts k).map AccountOwner.status := by
      rw [owner?, Option.map_map]
      rfl
    rw [hstatus, opposingScans, hsame, howner, hsame, Option.map_map, owner?, Option.map_map]
    refine Option.map_congr fun account hfind => ?_
    by_cases hk : ∃ g ∈ picked, k ∈ g.accountIds
    · obtain ⟨g, hg, hkg⟩ := hk
      obtain ⟨row, hrow, hactive, -⟩ := owner_of_mem_groupsHaving (hmem g hg) hkg
      rw [owner?, hfind, Option.map_some] at hactive
      have hactive := Option.some.inj hactive
      have hstatus := (Bool.and_eq_true_iff.mp hrow).2
      rw [← hactive, decide_eq_true_eq] at hstatus
      rw [Function.comp_apply, Function.comp_apply, if_pos ⟨g, hg, hkg⟩, if_pos ⟨g, hg, hkg⟩]
      exact if_pos hstatus
    · rw [Function.comp_apply, Function.comp_apply, if_neg hk, if_neg hk]

end Scans

/-- Three accounts of a trader, the first with a gold and a euro position and the others each against one. -/
def sampleTrader : Table FlaggedAccount :=
  ⟨[⟨1, 7, .active, false, none⟩, ⟨2, 7, .active, false, none⟩, ⟨3, 7, .active, false, none⟩], by decide⟩

def sampleSides : List SidedTrade :=
  [⟨1, "XAUUSD", .buy, .opened, 0, none⟩, ⟨2, "XAUUSD", .sell, .opened, 0, none⟩,
    ⟨1, "EURUSD", .buy, .opened, 0, none⟩, ⟨3, "EURUSD", .sell, .opened, 0, none⟩]

def noFailures : ScanFailures := ⟨fun _ => false, fun _ _ => false, fun _ _ => false⟩

/-- The euro position stays open against the account that was locked for gold. -/
theorem opposingScans_spec_threeAccounts :
    ((opposingScans id noFailures 0 sampleSides sampleTrader).find? 1).map FlaggedAccount.status = some .locked ∧
    ((opposingScans id noFailures 0 sampleSides sampleTrader).find? 3).map FlaggedAccount.status = some .active ∧
    ∃ picked : List OpposingGroup, picked.Sublist (opposingGroups sampleSides (owner? sampleTrader)) ∧
      picked.Pairwise (fun g h => g.accountIds.Disjoint h.accountIds) ∧
      (∀ g ∈ picked, ∀ k ∈ g.accountIds, ¬ Shielded noFailures 0 sampleSides sampleTrader k) ∧
      (∀ g ∈ opposingGroups sampleSides (owner? sampleTrader),
        ∃ k ∈ g.accountIds, Shielded noFailures 0 sampleSides sampleTrader k ∨ ∃ h ∈ picked, k ∈ h.accountIds) ∧
      ∀ k, ((opposingScans id noFailures 0 sampleSides sampleTrader).find? k).map FlaggedAccount.status =
        (sampleTrader.find? k).map fun account =>
          if ∃ g ∈ picked, k ∈ g.accountIds then .locked else account.status :=
  ⟨by decide +kernel, by decide +kernel,
    opposingScans_spec (fun _ => List.Perm.refl _) (fun _ => rfl) (fun _ _ => rfl)⟩

section Run

structure ScanWorld where
  accounts : Table FlaggedAccount
  trades : List SidedTrade

/-- What reaches the two tables: trading, an admin's status change, an admin who takes the flag off, with a
new status where the account is restored, and the scans. -/
inductive ScanEvent
  | trading (trades : List SidedTrade)
  | setStatus (id : ℕ) (status : AccountStatus)
  | clearFlag (id : ℕ) (status : Option AccountStatus)
  | scans (order : List OpposingGroup → List OpposingGroup) (failures : ScanFailures) (now : ℤ)

def FlaggedAccount.withStatus (status : AccountStatus) : Table.Rewrite FlaggedAccount where
  apply account := { account with status := status }
  key_apply _ := rfl

def FlaggedAccount.unflagged (status : Option AccountStatus) : Table.Rewrite FlaggedAccount where
  apply account :=
    { account with status := status.getD account.status, reviewFlagged := false, reviewFlagReason := none }
  key_apply _ := rfl

def ScanWorld.step (w : ScanWorld) : ScanEvent → ScanWorld
  | .trading trades => { w with trades := trades }
  | .setStatus id status => { w with accounts := w.accounts.updateAt id (FlaggedAccount.withStatus status) }
  | .clearFlag id status => { w with accounts := w.accounts.updateAt id (FlaggedAccount.unflagged status) }
  | .scans order failures now => { w with accounts := opposingScans order failures now w.trades w.accounts }

def ScanWorld.run (w : ScanWorld) (events : List ScanEvent) : ScanWorld := events.foldl ScanWorld.step w

/-- No event takes the flag off the account, and no scan fails to learn of it. -/
def ScanEvent.KeepsFlag (id : ℕ) : ScanEvent → Prop
  | .trading _ | .setStatus _ _ => True
  | .clearFlag other _ => other ≠ id
  | .scans _ failures _ => ∀ g, failures.flagQuery g = false

/-- The status an event of the admins sets. -/
def ScanEvent.statusOf (id : ℕ) (status : AccountStatus) : ScanEvent → AccountStatus
  | .setStatus other new => if other = id then new else status
  | .trading _ | .clearFlag _ _ | .scans _ _ _ => status

variable {failures : ScanFailures} {now : ℤ} {trades : List SidedTrade} {id : ℕ}

/-- An account that is flagged, with its status. -/
def FlaggedWith (status : AccountStatus) (account : FlaggedAccount) : Prop :=
  account.OpposingFlagged ∧ account.status = status

variable {accounts : Table FlaggedAccount} {status : AccountStatus}

theorem hasAt_enforceAll_flag (fails : ℕ → Bool) {reason : String} (hreason : mentionsOpposing reason = true)
    (ids : List ℕ) (hflagged : accounts.HasAt (FlaggedWith status) id) :
    (enforceAll fails "flag_for_review" reason accounts ids).HasAt (FlaggedWith status) id := by
  obtain ⟨account, hfind, hflagged, hstatus⟩ := hflagged
  refine ⟨_, by rw [find?_enforceAll enforcementActionOf_flag, hfind, Option.map_some], ?_, ?_⟩
  · exact (iterate_opposingFlagged hreason _ _).mpr (.inl hflagged)
  · rw [flagged_status, hstatus]

theorem hasAt_detectRapid (g : OpposingGroup) (hflagged : accounts.HasAt (FlaggedWith status) id) :
    (detectRapidOpposingTrades failures now trades accounts g).HasAt (FlaggedWith status) id := by
  rw [detectRapidOpposingTrades]
  split
  · exact hasAt_enforceAll_flag _ (mentionsOpposing_rapidReason g) _ hflagged
  · exact hflagged

theorem hasAt_detectOpposing {g : OpposingGroup} (hquery : failures.flagQuery g = false)
    (hflagged : accounts.HasAt (FlaggedWith status) id) :
    (detectOpposingTrades failures now trades accounts g).HasAt (FlaggedWith status) id := by
  rw [detectOpposingTrades]
  split
  · exact hflagged
  · rename_i hfree
    obtain ⟨account, hfind, hflag, hstatus⟩ := hflagged
    -- the rows that are locked do not name the account
    have hnot : id ∉ g.accountIds := fun hid =>
      hfree ((alreadyFlagged_iff hquery).mpr ⟨id, hid, account, hfind, hflag⟩)
    refine hasAt_detectRapid g ⟨account, ?_, hflag, hstatus⟩
    have hcount : (g.accountIds.filter fun id => !failures.lock g id).count id = 0 :=
      List.count_eq_zero.mpr fun hid => hnot (List.mem_filter.mp hid).1
    rw [find?_enforceAll enforcementActionOf_lock, hfind, hcount]
    rfl

theorem ScanWorld.hasAt_step {w : ScanWorld} {e : ScanEvent} (hkeeps : e.KeepsFlag id)
    (hflagged : w.accounts.HasAt (FlaggedWith status) id) :
    (w.step e).accounts.HasAt (FlaggedWith (e.statusOf id status)) id := by
  cases e with
  | trading trades => exact hflagged
  | setStatus other new =>
    obtain ⟨account, hfind, hflag, hstatus⟩ := hflagged
    refine ⟨_, by rw [ScanWorld.step, Table.find?_updateAt, hfind, Option.map_some], ?_⟩
    by_cases hother : other = id
    · subst hother
      rw [if_pos rfl, ScanEvent.statusOf, if_pos rfl]
      exact ⟨hflag, rfl⟩
    · rw [if_neg (Ne.symm hother), ScanEvent.statusOf, if_neg hother]
      exact ⟨hflag, hstatus⟩
  | clearFlag other new =>
    obtain ⟨account, hfind, hflag, hstatus⟩ := hflagged
    refine ⟨account, ?_, hflag, hstatus⟩
    rw [ScanWorld.step, Table.find?_updateAt, hfind, Option.map_some, if_neg (Ne.symm hkeeps)]
  | scans order failures now =>
    have hrapid (groups : List OpposingGroup) (accounts : Table FlaggedAccount)
        (hflagged : accounts.HasAt (FlaggedWith status) id) :
        (groups.foldl (detectRapidOpposingTrades failures now w.trades) accounts).HasAt (FlaggedWith status) id := by
      induction groups generalizing accounts with
      | nil => exact hflagged
      | cons g groups ih => exact ih _ (hasAt_detectRapid g hflagged)
    have hopposing (groups : List OpposingGroup) (accounts : Table FlaggedAccount)
        (hflagged : accounts.HasAt (FlaggedWith status) id) :
        (groups.foldl (detectOpposingTrades failures now w.trades) accounts).HasAt (FlaggedWith status) id := by
      induction groups generalizing accounts with
      | nil => exact hflagged
      | cons g groups ih => exact ih _ (hasAt_detectOpposing (hkeeps g) hflagged)
    exact hopposing _ _ (hrapid _ _ hflagged)

end Run

def sampleFlagged : Table FlaggedAccount :=
  ⟨[⟨1, 7, .active, true, some "Rapid opposing trades detected on EURUSD"⟩, ⟨2, 7, .active, false, none⟩], by decide⟩

def sampleGold : List SidedTrade :=
  [⟨1, "XAUUSD", .buy, .opened, 0, none⟩, ⟨2, "XAUUSD", .sell, .opened, 0, none⟩]

end PropFirm
