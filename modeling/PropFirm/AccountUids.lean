import Mathlib.Data.List.Infix
import Mathlib.Data.Nat.Digits.Defs
import PropFirm.Lib.JsText
import PropFirm.Lib.SerialNumbers

/-!
# Account and trader numbers

The readable name of an account is a prefix that tells its phase and a number from the counter of its
category; that of a trader comes from one counter for all. Whoever makes an account takes the number in the
transaction that inserts it, or, at registration and when missing names are filled in at startup, outside of
one. The prefixes tell the categories apart for the account types that exist, also where a number has more
digits than it is padded to.
-/

namespace PropFirm

open SerialNumbers Transition

structure AccountIdInput where
  accountType : Option String
  challengeModelSlug : Option String

structure AccountIdCategory where
  category : String
  prefixText : String
  deriving DecidableEq

def accountUidPad : ℕ := 5

def stepsForModelSlug (challengeModelSlug : Option String) : ℕ :=
  if challengeModelSlug = some "1-step" then 1
  else if challengeModelSlug = some "3-step" then 3
  else 2

/-- `replace` with a text, which is taken out where it first stands. -/
def removeFirst (pattern : List Char) : List Char → List Char
  | [] => []
  | c :: cs => if pattern.isPrefixOf (c :: cs) then (c :: cs).drop pattern.length else c :: removeFirst pattern cs

/-- `parseInt` with radix 10, exact. -/
def parseInt (cs : List Char) : Option ℤ :=
  let (negative, rest) := takeSign (cs.dropWhile isJsSpace)
  let digits := rest.takeWhile Char.isDigit
  if digits = [] then none else some (if negative then -digitsValue digits else digitsValue digits)

def phaseNumber (type : String) : ℤ :=
  match parseInt (removeFirst "phase".toList type.toList) with
  | none | some 0 => 1
  | some n => n

def categoryFor (type : String) (steps : ℕ) : AccountIdCategory :=
  if type = "competition" then ⟨"competition", "C"⟩
  else if type = "funded" then ⟨s!"funded_{steps}step", s!"F{steps}-"⟩
  else if steps = 1 then ⟨"1step", "1S"⟩
  else
    let phase := phaseNumber type
    ⟨s!"{steps}step_phase{phase}", s!"{steps}SP{phase}"⟩

def resolveAccountIdCategory (input : AccountIdInput) : AccountIdCategory :=
  categoryFor (input.accountType.getD "").toLower (stepsForModelSlug input.challengeModelSlug)

def padStart (width n : ℕ) : List Char := (toString n).toList.leftpad width '0'

/-- The name that `generateAccountUid` makes of a number. -/
def accountUid (input : AccountIdInput) (seq : ℕ) : List Char :=
  (resolveAccountIdCategory input).prefixText.toList ++ padStart accountUidPad seq

def traderUid (seq : ℕ) : List Char := "TRADER-".toList ++ padStart 5 seq

/-! ### The names -/

theorem digitsValue_append (cs ds : List Char) :
    digitsValue (cs ++ ds) = ds.foldl (fun n c => 10 * n + (c.toNat - '0'.toNat)) (digitsValue cs) := by
  rw [digitsValue, List.foldl_append]
  rfl

theorem digitsValue_replicate (n : ℕ) : digitsValue (List.replicate n '0') = 0 := by
  induction n with
  | zero => rfl
  | succ n ih =>
    rw [List.replicate_succ', digitsValue_append, ih]
    rfl

theorem digitsValue_toDigits (n : ℕ) : digitsValue (Nat.toDigits 10 n) = n := by
  induction n using Nat.strongRecOn with
  | ind n ih =>
    have hdigit : ∀ d, d < 10 → (Nat.digitChar d).toNat - '0'.toNat = d := by decide
    by_cases hn : n < 10
    · rw [Nat.toDigits_of_lt_base hn, digitsValue, List.foldl_cons, List.foldl_nil, hdigit n hn]
      omega
    · rw [Nat.toDigits_of_base_le (by decide) (Nat.le_of_not_lt hn), digitsValue_append,
        ih (n / 10) (Nat.div_lt_self (by omega) (by decide)), List.foldl_cons, List.foldl_nil,
        hdigit _ (Nat.mod_lt n (by decide))]
      omega

theorem digitsValue_padStart (width n : ℕ) : digitsValue (padStart width n) = n := by
  rw [padStart, List.leftpad, digitsValue_append, digitsValue_replicate]
  change digitsValue n.repr.toList = n
  rw [Nat.toList_repr, digitsValue_toDigits]

/-- Padding does not run two numbers together, however long they are. -/
theorem padStart_injective (width : ℕ) : Function.Injective (padStart width) := by
  intro n m heq
  rw [← digitsValue_padStart width n, heq, digitsValue_padStart]

/-- The types that the code makes accounts of. -/
def accountTypes : List String := ["phase1", "phase2", "phase3", "funded", "competition"]

def accountCategories : List AccountIdCategory :=
  accountTypes.flatMap fun type => [1, 2, 3].map (categoryFor type)

/-- None of the prefixes starts another, and each belongs to one category. -/
theorem category_unique : ∀ c ∈ accountCategories, ∀ c' ∈ accountCategories,
    c.prefixText.toList <+: c'.prefixText.toList ∨ c.category = c'.category → c = c' := by
  decide +kernel

/-- The account is of a type that the code makes. -/
def HasAccountType (input : AccountIdInput) : Prop := ∃ type ∈ accountTypes, input.accountType = some type

instance : DecidablePred HasAccountType := fun input =>
  inferInstanceAs (Decidable (∃ type ∈ accountTypes, input.accountType = some type))

theorem steps_mem (slug : Option String) : stepsForModelSlug slug ∈ [1, 2, 3] := by
  unfold stepsForModelSlug
  split
  · decide
  · split <;> decide

theorem resolve_mem {input : AccountIdInput} (htype : HasAccountType input) :
    resolveAccountIdCategory input ∈ accountCategories := by
  obtain ⟨type, hmem, heq⟩ := htype
  have hlower : ∀ type ∈ accountTypes, type.toLower = type := by decide +kernel
  rw [resolveAccountIdCategory, heq, Option.getD_some, hlower type hmem]
  exact List.mem_flatMap.mpr ⟨type, hmem, List.mem_map_of_mem (steps_mem _)⟩

def accountKey (input : AccountIdInput) : String := (resolveAccountIdCategory input).category

theorem accountUid_separates : Separates accountKey accountUid HasAccountType := by
  intro i j v v' hi hj heq
  have hstarts (i : AccountIdInput) (v : ℕ) : (resolveAccountIdCategory i).prefixText.toList <+: accountUid i v :=
    List.prefix_append _ _
  have hcomparable : (resolveAccountIdCategory i).prefixText.toList <+: (resolveAccountIdCategory j).prefixText.toList ∨
      (resolveAccountIdCategory j).prefixText.toList <+: (resolveAccountIdCategory i).prefixText.toList :=
    List.prefix_or_prefix_of_prefix (hstarts i v) (heq ▸ hstarts j v')
  have hsame : resolveAccountIdCategory i = resolveAccountIdCategory j := by
    rcases hcomparable with hle | hle
    · exact category_unique _ (resolve_mem hi) _ (resolve_mem hj) (.inl hle)
    · exact (category_unique _ (resolve_mem hj) _ (resolve_mem hi) (.inl hle)).symm
  rw [accountUid, accountUid, hsame] at heq
  exact ⟨congrArg AccountIdCategory.category hsame, padStart_injective _ (List.append_cancel_left heq)⟩

theorem accountUid_of_key {i j : AccountIdInput} (v : ℕ) (hi : HasAccountType i) (hj : HasAccountType j)
    (hkey : accountKey i = accountKey j) : accountUid i v = accountUid j v := by
  rw [accountUid, accountUid, category_unique _ (resolve_mem hi) _ (resolve_mem hj) (.inr hkey)]

theorem traderUid_separates : Separates (fun _ : Unit => ()) (fun _ => traderUid) fun _ => True := by
  intro i j v v' _ _ heq
  exact ⟨rfl, padStart_injective _ (List.append_cancel_left heq)⟩

/-! ### The migration -/

abbrev UidRegistry := Registry String (List Char)

/-- What the migration does with the next account, the oldest first. -/
def recodeAccount (w : UidRegistry) (account : ℕ × AccountIdInput) : UidRegistry :=
  let next := w.committed (accountKey account.2) + 1
  { w with
    committed := Function.update w.committed (accountKey account.2) next
    rows := (account.1, accountUid account.2 next) :: w.rows }

/-- The accounts are numbered anew, and the counters go on from there. -/
def recodeAccountUids (accounts : List (ℕ × AccountIdInput)) : UidRegistry :=
  accounts.foldl recodeAccount Registry.initial

/-- The database when the accounts have been numbered. -/
def Recoded (w : UidRegistry) : Prop :=
  ∃ accounts : List (ℕ × AccountIdInput), (∀ account ∈ accounts, HasAccountType account.2) ∧
    w = recodeAccountUids accounts

theorem numbered_foldl {w : UidRegistry} (hnumbered : Numbered accountKey accountUid HasAccountType w)
    {accounts : List (ℕ × AccountIdInput)} (htypes : ∀ account ∈ accounts, HasAccountType account.2) :
    Numbered accountKey accountUid HasAccountType (accounts.foldl recodeAccount w) := by
  induction accounts generalizing w with
  | nil => exact hnumbered
  | cons account accounts ih =>
    refine ih ?_ fun account' hmem => htypes account' (List.mem_cons_of_mem _ hmem)
    exact hnumbered.number (htypes account List.mem_cons_self)

theorem Recoded.numbered {w : UidRegistry} (hrecoded : Recoded w) :
    Numbered accountKey accountUid HasAccountType w := by
  obtain ⟨accounts, htypes, rfl⟩ := hrecoded
  exact numbered_foldl Numbered.initial htypes

/-! ### Runs -/

/-- Whoever commits, rolls back or takes a number and drops it: no insert fails for its name, and two accounts
do not have one name. -/
theorem accountUids_distinct {w : UidRegistry}
    (hreach : Reach (Registry.step accountKey accountUid) (Allowed HasAccountType) Recoded w) :
    w.refused = 0 ∧ ∀ e ∈ w.rows, ∀ e' ∈ w.rows, e.2 = e'.2 → e.1 = e'.1 :=
  names_distinct (fun _ => Recoded.numbered) accountUid_separates (fun _ _ => id) hreach

/-- A purchase rolls back, a startup fills in a missing name, and the next purchase takes the number again. -/
theorem accountUids_distinct_afterRollback : ∃ w : UidRegistry,
    w.rows = [(13, "1S00002".toList), (12, "F2-00001".toList), (10, "1S00001".toList)] ∧ w.refused = 0 := by
  let oneStep : AccountIdInput := ⟨some "phase1", some "1-step"⟩
  let actions : List (Action AccountIdInput) := [.begin 1 true, .take 1 oneStep, .store 1 11, .begin 2 false,
    .take 2 ⟨some "funded", none⟩, .store 2 12, .abort 1, .begin 3 true, .take 3 oneStep, .store 3 13, .commit 3]
  obtain ⟨w, hrun, htest⟩ := exists_of_run_any (Registry.step accountKey accountUid)
    (recodeAccountUids [(10, oneStep)]) actions
    (fun w => w.rows = [(13, "1S00002".toList), (12, "F2-00001".toList), (10, "1S00001".toList)]) (by decide +kernel)
  have hstart : Recoded (recodeAccountUids [(10, oneStep)]) := ⟨_, by decide +kernel, rfl⟩
  have hok : RunOk (Registry.step accountKey accountUid) (Allowed HasAccountType)
      (recodeAccountUids [(10, oneStep)]) actions := by decide +kernel
  exact ⟨w, of_decide_eq_true htest, (accountUids_distinct (.of_run (.init hstart) hok hrun)).1⟩

/-- If names are only made by transactions that insert what they have made, the accounts of a category are
numbered up to its counter without gaps. -/
theorem accountUids_numbered {w : UidRegistry}
    (hreach : Reach (Registry.step accountKey accountUid) (Tidy HasAccountType) Recoded w) {input : AccountIdInput}
    (htype : HasAccountType input) (v : ℕ) :
    (∃ row, (row, accountUid input v) ∈ w.rows) ↔ 0 < v ∧ v ≤ w.committed (accountKey input) :=
  stored_iff (fun _ => Recoded.numbered) accountUid_separates (fun _ _ v hi hj => accountUid_of_key v hi hj) hreach
    htype v

/-- Two purchases at once: the second waits for the counter, which the first gives up. -/
theorem accountUids_numbered_afterRollback : ∃ w : UidRegistry,
    w.committed "1step" = 2 ∧ ∃ row, (row, "1S00002".toList) ∈ w.rows := by
  let oneStep : AccountIdInput := ⟨some "phase1", some "1-step"⟩
  let actions : List (Action AccountIdInput) := [.begin 1 true, .begin 2 true, .take 1 oneStep, .store 1 11,
    .abort 1, .take 2 oneStep, .store 2 12, .commit 2]
  obtain ⟨w, hrun, htest⟩ := exists_of_run_any (Registry.step accountKey accountUid)
    (recodeAccountUids [(10, oneStep)]) actions (fun w => w.committed "1step" = 2) (by decide +kernel)
  have hstart : Recoded (recodeAccountUids [(10, oneStep)]) := ⟨_, by decide +kernel, rfl⟩
  have hok : RunOk (Registry.step accountKey accountUid) (Tidy HasAccountType)
      (recodeAccountUids [(10, oneStep)]) actions := by decide +kernel
  have hcommitted : w.committed "1step" = 2 := of_decide_eq_true htest
  have hkey : accountKey oneStep = "1step" := by decide +kernel
  have hname : accountUid oneStep 2 = "1S00002".toList := by decide +kernel
  refine ⟨w, hcommitted, ?_⟩
  rw [← hname]
  refine (accountUids_numbered (.of_run (.init hstart) hok hrun) (by decide +kernel) 2).mpr ⟨by decide, ?_⟩
  rw [hkey, hcommitted]

theorem traderUids_distinct {w : Registry Unit (List Char)}
    (hreach : Reach (Registry.step (fun _ : Unit => ()) fun _ => traderUid) (fun _ _ => True)
      (· = Registry.initial) w) :
    w.refused = 0 ∧ ∀ e ∈ w.rows, ∀ e' ∈ w.rows, e.2 = e'.2 → e.1 = e'.1 := by
  refine names_distinct (fun w hw => ?_) traderUid_separates (fun _ a _ => ?_) hreach
  · rw [hw]
    exact Numbered.initial
  · cases a <;> trivial

end PropFirm
