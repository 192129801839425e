import PropFirm.Lib.InsertionMap
import PropFirm.TradeOverlap

/-!
# Which pairs of users are scored

`detectSimultaneousExecution` sorts trades into slots of time and scores only the pairs of users that meet
in five of them, while `overlapCoefficient` matches trades that are close in time, in one slot or not. A
pair that the score would report is reported when it meets in five slots.
-/

namespace PropFirm

def simultaneityWindowMs : ℤ := 5000

def minMatchedTrades : ℕ := 5

def simultaneityWeakThreshold : ℚ := 2 / 5

def maxTradeRows : ℕ := 50000

def maxCandidatePairs : ℕ := 3000

/-- The text of a uuid. -/
@[ext] structure UserIdText where
  val : String
  plain : '|' ∉ val.toList
  deriving DecidableEq

/-- A row of the query; a time that is not finite is `none`. -/
structure ExecutionRow where
  userId : UserIdText
  instrument : String
  direction : String
  openTime : Option ℤ

/-- `toUpperCase`, `toLowerCase`, and `Number(x.toFixed(3))`. -/
structure TextFunctions where
  toUpperCase : String → String
  toLowerCase : String → String
  threeDigits : ℚ → ℚ

structure SimultaneousFinding where
  userA : String
  userB : String
  overlap : ℚ
  matched : ℕ
  tradesA : ℕ
  tradesB : ℕ
  deriving DecidableEq

section Detection

variable (f : TextFunctions)

def ExecutionRow.trade (row : ExecutionRow) : Option LinkTrade :=
  row.openTime.map fun time => ⟨time, f.toUpperCase row.instrument, f.toLowerCase row.direction⟩

/-- The trades whose time is finite, with their users. -/
def linkTrades (rows : List ExecutionRow) : List (UserIdText × LinkTrade) :=
  rows.filterMap fun row => (row.trade f).map (Prod.mk row.userId)

def tradesByUser (rows : List ExecutionRow) : InsertionMap String (List LinkTrade) :=
  InsertionMap.groups (fun p => p.1.val) Prod.snd (linkTrades f rows)

def LinkTrade.slotKey (trade : LinkTrade) : String :=
  trade.instrument ++ "|" ++ trade.direction ++ "|" ++ toString (trade.time / simultaneityWindowMs)

def slotBuckets (rows : List ExecutionRow) : InsertionMap String (List UserIdText) :=
  InsertionMap.sets (fun p => p.2.slotKey) Prod.fst (linkTrades f rows)

def pairsFrom {α : Type} : List α → List (α × α)
  | [] => []
  | x :: xs => xs.map (Prod.mk x) ++ pairsFrom xs

def candidateKey (pair : UserIdText × UserIdText) : String :=
  if pair.1.val < pair.2.val then pair.1.val ++ "|" ++ pair.2.val else pair.2.val ++ "|" ++ pair.1.val

def candidateCounts (rows : List ExecutionRow) : InsertionMap String ℕ :=
  (slotBuckets f rows).values.foldl (fun counts users =>
    if users.length < 2 then counts
    else (pairsFrom users).foldl (fun counts pair =>
      counts.modify (candidateKey pair) fun held => held.getD 0 + 1) counts) .empty

/-- The candidates before there is a limit on their number. -/
def candidatePairs (rows : List ExecutionRow) : List (String × ℕ) :=
  (candidateCounts f rows).entries.filter fun e => minMatchedTrades ≤ e.2

def scorePair (byUser : InsertionMap String (List LinkTrade)) (key : String) : Option SimultaneousFinding :=
  match (key.toList.splitOn '|').map String.ofList with
  | userA :: userB :: _ =>
    let tradesA := (byUser.get? userA).getD []
    let tradesB := (byUser.get? userB).getD []
    let score := overlapCoefficient tradesA tradesB simultaneityWindowMs
    if score.matched < minMatchedTrades then none
    else if score.overlap < simultaneityWeakThreshold then none
    else some ⟨userA, userB, f.threeDigits score.overlap, score.matched, tradesA.length, tradesB.length⟩
  | _ => none

/-- The argument is what the query would find without its limit. -/
def detectSimultaneousExecution (rows : List ExecutionRow) : List SimultaneousFinding :=
  let rows := rows.take maxTradeRows
  let candidates := ((candidatePairs f rows).mergeSort fun x y => y.2 ≤ x.2).take maxCandidatePairs
  candidates.filterMap fun candidate => scorePair f (tradesByUser f rows) candidate.1

/-! ### What should be reported, and what meets -/

def tradesOf (rows : List ExecutionRow) (user : UserIdText) : List LinkTrade :=
  ((linkTrades f rows).filter fun p => p.1 = user).map Prod.snd

/-- The score the two users' trades would get. -/
def Reportable (rows : List ExecutionRow) (a b : UserIdText) : Prop :=
  minMatchedTrades ≤ (overlapCoefficient (tradesOf f rows a) (tradesOf f rows b) simultaneityWindowMs).matched ∧
  simultaneityWeakThreshold ≤
    (overlapCoefficient (tradesOf f rows a) (tradesOf f rows b) simultaneityWindowMs).overlap

def Reports (found : List SimultaneousFinding) (a b : UserIdText) : Prop :=
  ∃ finding ∈ found, finding.userA = a.val ∧ finding.userB = b.val ∨
    finding.userA = b.val ∧ finding.userB = a.val

def slotsOf (rows : List ExecutionRow) (user : UserIdText) : Finset String :=
  ((tradesOf f rows user).map LinkTrade.slotKey).toFinset

/-- The slots in which both users have traded the same. -/
def sharedSlots (rows : List ExecutionRow) (a b : UserIdText) : ℕ := (slotsOf f rows a ∩ slotsOf f rows b).card

/-- `ORDER BY t.open_time ASC`. -/
def ByOpenTime (rows : List ExecutionRow) : Prop :=
  rows.Pairwise fun r r' => ∀ time ∈ r.openTime, ∀ time' ∈ r'.openTime, time ≤ time'

end Detection

section Keys

variable {a b x y : UserIdText}

theorem split_joined (a b : UserIdText) :
    ((a.val ++ "|" ++ b.val).toList.splitOn '|').map String.ofList = [a.val, b.val] := by
  have htext : (a.val ++ "|" ++ b.val).toList = a.val.toList ++ '|' :: b.val.toList := by
    rw [String.toList_append, String.toList_append, List.append_assoc]
    rfl
  rw [htext, List.splitOn_append_cons_self_of_not_mem a.plain, List.splitOn_eq_singleton b.plain]
  rw [List.map_cons, List.map_cons, List.map_nil, String.ofList_toList, String.ofList_toList]

theorem joined_inj (h : a.val ++ "|" ++ b.val = x.val ++ "|" ++ y.val) : a = x ∧ b = y := by
  have hsplit := split_joined a b
  rw [h, split_joined] at hsplit
  obtain ⟨hax, hby⟩ := List.cons_eq_cons.mp hsplit
  exact ⟨UserIdText.ext hax.symm, UserIdText.ext (List.singleton_inj.mp hby).symm⟩

theorem candidateKey_of_lt (hlt : a.val < b.val) : candidateKey (a, b) = a.val ++ "|" ++ b.val := if_pos hlt

theorem candidateKey_comm (hne : a ≠ b) : candidateKey (b, a) = candidateKey (a, b) := by
  have hval : a.val ≠ b.val := fun h => hne (UserIdText.ext h)
  rw [candidateKey, candidateKey]
  obtain hlt | hlt := lt_or_gt_of_ne hval
  · rw [if_pos hlt, if_neg (lt_asymm hlt)]
  · rw [if_pos hlt, if_neg (lt_asymm hlt)]

theorem candidateKey_eq_iff (hne : a ≠ b) :
    candidateKey (x, y) = candidateKey (a, b) ↔ x = a ∧ y = b ∨ x = b ∧ y = a := by
  constructor
  · intro hkey
    rw [candidateKey, candidateKey] at hkey
    dsimp only at hkey
    split at hkey <;> split at hkey
    · exact .inl (joined_inj hkey)
    · exact .inr (joined_inj hkey)
    · exact .inr (joined_inj hkey).symm
    · exact .inl (joined_inj hkey).symm
  · rintro (⟨rfl, rfl⟩ | ⟨rfl, rfl⟩)
    · rfl
    · exact candidateKey_comm hne

end Keys

section Pairs

variable {a b : UserIdText}

theorem mem_pairsFrom {users : List UserIdText} {pair : UserIdText × UserIdText} (hnodup : users.Nodup)
    (hpair : pair ∈ pairsFrom users) : pair.1 ≠ pair.2 := by
  induction users with
  | nil => cases hpair
  | cons x xs ih =>
    obtain ⟨hx, hxs⟩ := List.nodup_cons.mp hnodup
    obtain hpair | hpair := List.mem_append.mp hpair
    · obtain ⟨y, hy, rfl⟩ := List.mem_map.mp hpair
      exact fun h : x = y => hx (h ▸ hy)
    · exact ih hxs hpair

/-- One of the users with each of the others. -/
theorem count_pairsWith {xs : List UserIdText} (x : UserIdText) (hnodup : xs.Nodup) (hne : a ≠ b)
    (hx : x ∉ xs) : ((xs.map (Prod.mk x)).map candidateKey).count (candidateKey (a, b))
      = if x = a ∧ b ∈ xs ∨ x = b ∧ a ∈ xs then 1 else 0 := by
  have hcount : ((xs.map (Prod.mk x)).map candidateKey).count (candidateKey (a, b))
      = xs.countP fun y => x = a ∧ y = b ∨ x = b ∧ y = a := by
    rw [List.count, List.countP_map, List.countP_map]
    refine List.countP_congr fun y _ => ?_
    rw [Function.comp_apply, Function.comp_apply, beq_iff_eq, decide_eq_true_eq]
    exact candidateKey_eq_iff hne
  rw [hcount]
  by_cases hxa : x = a
  · have hb : (xs.countP fun y => x = a ∧ y = b ∨ x = b ∧ y = a) = xs.count b := by
      refine List.countP_congr fun y hy => ?_
      have hya : y ≠ a := fun h => hx (hxa.trans h.symm ▸ hy)
      simp [hxa, hya]
    rw [hb, hnodup.count]
    simp [hxa, hne]
  · by_cases hxb : x = b
    · have ha : (xs.countP fun y => x = a ∧ y = b ∨ x = b ∧ y = a) = xs.count a := by
        refine List.countP_congr fun y _ => ?_
        simp [hxb, hne.symm]
      rw [ha, hnodup.count]
      simp [hxb, hne.symm]
    · simp [hxa, hxb]

theorem count_pairsFrom {users : List UserIdText} (hnodup : users.Nodup) (hne : a ≠ b) :
    ((pairsFrom users).map candidateKey).count (candidateKey (a, b)) = if a ∈ users ∧ b ∈ users then 1 else 0 := by
  induction users with
  | nil => rfl
  | cons x xs ih =>
    obtain ⟨hx, hxs⟩ := List.nodup_cons.mp hnodup
    rw [pairsFrom, List.map_append, List.count_append, count_pairsWith x hxs hne hx, ih hxs]
    simp only [List.mem_cons]
    by_cases hxa : x = a
    · subst hxa
      simp [hx, hne, hne.symm]
    · by_cases hxb : x = b
      · subst hxb
        simp [hx, hne, hne.symm]
      · simp [hxa, hxb, Ne.symm hxa, Ne.symm hxb]

end Pairs

section Candidates

variable {f : TextFunctions} {rows : List ExecutionRow} {a b : UserIdText}

theorem nodup_of_mem_slotBuckets {users : List UserIdText} (husers : users ∈ (slotBuckets f rows).values) :
    users.Nodup := by
  obtain ⟨key, hkey⟩ := InsertionMap.mem_values_iff.mp husers
  have hnodup := (InsertionMap.sets_spec (fun p => p.2.slotKey) Prod.fst (linkTrades f rows) key).1
  rw [show (InsertionMap.sets _ _ _).get? key = some users from hkey] at hnodup
  exact hnodup

/-- The nested loops count the keys of all pairs. -/
theorem candidateCounts_eq_tally (f : TextFunctions) (rows : List ExecutionRow) :
    candidateCounts f rows
      = .tally ((slotBuckets f rows).values.flatMap fun users => (pairsFrom users).map candidateKey) := by
  rw [candidateCounts, InsertionMap.tally, List.foldl_flatMap]
  refine congrArg (fun step => List.foldl step InsertionMap.empty (slotBuckets f rows).values) ?_
  funext counts users
  rw [List.foldl_map]
  split
  · rename_i hshort
    cases users with
    | nil => rfl
    | cons user users =>
      cases users with
      | nil => rfl
      | cons other users =>
        simp only [List.length_cons] at hshort
        omega
  · rfl

theorem sum_map_ite {α : Type} (p : α → Prop) [DecidablePred p] (xs : List α) :
    (xs.map fun x => if p x then 1 else 0).sum = xs.countP p := by
  induction xs with
  | nil => rfl
  | cons x xs ih =>
    rw [List.map_cons, List.sum_cons, ih, List.countP_cons, Nat.add_comm]
    simp

theorem count_candidateKeys (hne : a ≠ b) :
    ((slotBuckets f rows).values.flatMap fun users => (pairsFrom users).map candidateKey).count
      (candidateKey (a, b)) = sharedSlots f rows a b := by
  rw [List.count_flatMap]
  have hcounts : (slotBuckets f rows).values.map
        (List.count (candidateKey (a, b)) ∘ fun users => (pairsFrom users).map candidateKey)
      = (slotBuckets f rows).values.map fun users => if a ∈ users ∧ b ∈ users then 1 else 0 :=
    List.map_congr_left fun users husers => count_pairsFrom (nodup_of_mem_slotBuckets husers) hne
  rw [hcounts, sum_map_ite, slotBuckets, InsertionMap.countP_sets, sharedSlots, slotsOf, slotsOf, tradesOf,
    tradesOf, List.map_map, List.map_map]
  rfl

theorem mem_candidatePairs_iff {n : ℕ} (hne : a ≠ b) :
    (candidateKey (a, b), n) ∈ candidatePairs f rows ↔ sharedSlots f rows a b = n ∧ minMatchedTrades ≤ n := by
  rw [candidatePairs, List.mem_filter, InsertionMap.mem_entries_iff, candidateCounts_eq_tally, decide_eq_true_eq]
  refine and_congr_left fun hn => ?_
  rw [InsertionMap.get?_tally_eq_some ((Nat.zero_lt_succ 4).trans_le hn), count_candidateKeys hne]

/-- A candidate is the key of a pair of two users, the smaller one first. -/
theorem exists_of_mem_candidatePairs {candidate : String × ℕ} (hmem : candidate ∈ candidatePairs f rows) :
    ∃ a b : UserIdText, a.val < b.val ∧ candidate.1 = candidateKey (a, b) := by
  obtain ⟨key, n⟩ := candidate
  obtain ⟨hentry, hn⟩ := List.mem_filter.mp hmem
  have hpos : 0 < n := (Nat.zero_lt_succ 4).trans_le (of_decide_eq_true hn)
  rw [InsertionMap.mem_entries_iff, candidateCounts_eq_tally, InsertionMap.get?_tally_eq_some hpos] at hentry
  rw [← hentry, List.count_pos_iff, List.mem_flatMap] at hpos
  obtain ⟨users, husers, hkey⟩ := hpos
  obtain ⟨⟨x, y⟩, hpair, rfl⟩ := List.mem_map.mp hkey
  have hne : x ≠ y := mem_pairsFrom (nodup_of_mem_slotBuckets husers) hpair
  obtain hlt | hlt := lt_or_gt_of_ne fun h : x.val = y.val => hne (UserIdText.ext h)
  · exact ⟨x, y, hlt, rfl⟩
  · exact ⟨y, x, hlt, (candidateKey_comm hne).symm⟩

end Candidates

section Scores

variable {f : TextFunctions} {rows : List ExecutionRow} {a b : UserIdText}

theorem getD_tradesByUser (f : TextFunctions) (rows : List ExecutionRow) (a : UserIdText) :
    ((tradesByUser f rows).get? a.val).getD [] = tradesOf f rows a := by
  rw [tradesByUser, InsertionMap.getD_groups, tradesOf]
  refine congrArg (List.map Prod.snd) (List.filter_congr fun p _ => ?_)
  exact decide_eq_decide.mpr UserIdText.ext_iff.symm

theorem tradesOf_sorted (hsorted : ByOpenTime rows) (a : UserIdText) : TimeSorted (tradesOf f rows a) := by
  have htrades : (linkTrades f rows).Pairwise fun p q => p.2.time ≤ q.2.time := by
    refine List.Pairwise.filterMap _ (fun r r' hrows p hp q hq => ?_) hsorted
    obtain ⟨trade, htrade, rfl⟩ := Option.map_eq_some_iff.mp hp
    obtain ⟨trade', htrade', rfl⟩ := Option.map_eq_some_iff.mp hq
    obtain ⟨time, htime, rfl⟩ := Option.map_eq_some_iff.mp htrade
    obtain ⟨time', htime', rfl⟩ := Option.map_eq_some_iff.mp htrade'
    exact hrows time htime time' htime'
  refine List.Pairwise.map Prod.snd (fun p q h => h) ?_
  exact htrades.sublist List.filter_sublist

theorem scorePair_isSome_iff (hlt : a.val < b.val) :
    (∃ finding, scorePair f (tradesByUser f rows) (candidateKey (a, b)) = some finding) ↔
      Reportable f rows a b := by
  rw [candidateKey_of_lt hlt, scorePair, split_joined]
  dsimp only
  rw [getD_tradesByUser, getD_tradesByUser, Reportable]
  split
  · rename_i hfew
    exact iff_of_false (fun ⟨_, h⟩ => by cases h) fun h => absurd h.1 (not_le.mpr hfew)
  split
  · rename_i hfew hweak
    exact iff_of_false (fun ⟨_, h⟩ => by cases h) fun h => absurd h.2 (not_le.mpr hweak)
  · rename_i hfew hweak
    exact iff_of_true ⟨_, rfl⟩ ⟨not_lt.mp hfew, not_lt.mp hweak⟩

theorem users_of_scorePair {finding : SimultaneousFinding} (hlt : a.val < b.val)
    (hscore : scorePair f (tradesByUser f rows) (candidateKey (a, b)) = some finding) :
    finding.userA = a.val ∧ finding.userB = b.val := by
  rw [candidateKey_of_lt hlt, scorePair, split_joined] at hscore
  dsimp only at hscore
  split at hscore
  · cases hscore
  split at hscore
  · cases hscore
  · cases hscore
    exact ⟨rfl, rfl⟩

theorem Reportable.symm (hsorted : ByOpenTime rows) (hreportable : Reportable f rows a b) :
    Reportable f rows b a := by
  rw [Reportable, overlapCoefficient_comm _ (tradesOf_sorted hsorted a) (tradesOf_sorted hsorted b)]
  exact hreportable

theorem sharedSlots_comm (f : TextFunctions) (rows : List ExecutionRow) (a b : UserIdText) :
    sharedSlots f rows a b = sharedSlots f rows b a := by
  rw [sharedSlots, Finset.inter_comm, sharedSlots]

end Scores

section Reports

variable {f : TextFunctions} {rows : List ExecutionRow} {a b : UserIdText}

theorem mem_detect_iff {finding : SimultaneousFinding} (hrows : rows.length ≤ maxTradeRows)
    (hcandidates : (candidatePairs f rows).length ≤ maxCandidatePairs) :
    finding ∈ detectSimultaneousExecution f rows ↔
      ∃ candidate ∈ candidatePairs f rows, scorePair f (tradesByUser f rows) candidate.1 = some finding := by
  rw [detectSimultaneousExecution, List.take_of_length_le hrows]
  rw [List.take_of_length_le (by rwa [List.length_mergeSort]), List.mem_filterMap]
  simp only [List.mem_mergeSort]

theorem reports_iff_of_lt (hrows : rows.length ≤ maxTradeRows)
    (hcandidates : (candidatePairs f rows).length ≤ maxCandidatePairs) (hlt : a.val < b.val) :
    Reports (detectSimultaneousExecution f rows) a b ↔
      Reportable f rows a b ∧ minMatchedTrades ≤ sharedSlots f rows a b := by
  have hne : a ≠ b := fun h => hlt.ne (congrArg UserIdText.val h)
  constructor
  · rintro ⟨finding, hfinding, husers⟩
    obtain ⟨⟨key, n⟩, hcandidate, hscore⟩ := (mem_detect_iff hrows hcandidates).mp hfinding
    obtain ⟨x, y, hxy, rfl : key = candidateKey (x, y)⟩ := exists_of_mem_candidatePairs hcandidate
    obtain ⟨hx, hy⟩ := users_of_scorePair hxy hscore
    have hsame : x = a ∧ y = b := by
      obtain ⟨ha, hb⟩ | ⟨hb, ha⟩ := husers
      · exact ⟨UserIdText.ext (hx.symm.trans ha), UserIdText.ext (hy.symm.trans hb)⟩
      · rw [hx.symm.trans hb, hy.symm.trans ha] at hxy
        exact absurd hxy (lt_asymm hlt)
    obtain ⟨rfl, rfl⟩ := hsame
    obtain ⟨rfl, hn⟩ := (mem_candidatePairs_iff hne).mp hcandidate
    exact ⟨(scorePair_isSome_iff hlt).mp ⟨finding, hscore⟩, hn⟩
  · rintro ⟨hreportable, hshared⟩
    obtain ⟨finding, hscore⟩ := (scorePair_isSome_iff hlt).mpr hreportable
    have hcandidate := (@mem_candidatePairs_iff f rows _ _ _ hne).mpr ⟨rfl, hshared⟩
    exact ⟨finding, (mem_detect_iff hrows hcandidates).mpr ⟨_, hcandidate, hscore⟩,
      .inl (users_of_scorePair hlt hscore)⟩

theorem reports_comm {found : List SimultaneousFinding} : Reports found a b ↔ Reports found b a :=
  exists_congr fun _ => and_congr_right fun _ => or_comm

end Reports

/-- A pair that the score would report is reported exactly when it meets in five slots. -/
theorem reports_iff_sharedSlots {f : TextFunctions} {rows : List ExecutionRow} {a b : UserIdText}
    (hsorted : ByOpenTime rows) (hrows : rows.length ≤ maxTradeRows)
    (hcandidates : (candidatePairs f rows).length ≤ maxCandidatePairs) (hne : a ≠ b)
    (hreportable : Reportable f rows a b) :
    Reports (detectSimultaneousExecution f rows) a b ↔ minMatchedTrades ≤ sharedSlots f rows a b := by
  obtain hlt | hlt := lt_or_gt_of_ne fun h : a.val = b.val => hne (UserIdText.ext h)
  · rw [reports_iff_of_lt hrows hcandidates hlt, and_iff_right hreportable]
  · rw [reports_comm, reports_iff_of_lt hrows hcandidates hlt, and_iff_right (hreportable.symm hsorted),
      sharedSlots_comm]

/-! ### Two copied accounts -/

namespace CopiedTrades

def text : TextFunctions where
  toUpperCase s := .ofList (s.toList.map Char.toUpper)
  toLowerCase s := .ofList (s.toList.map Char.toLower)
  threeDigits x := x

def master : UserIdText := ⟨"master", by decide⟩

def copier : UserIdText := ⟨"copier", by decide⟩

/-- Five trades of the master, each copied a tenth of a second later. -/
def rows (stepMs : ℤ) : List ExecutionRow :=
  (List.range 5).flatMap fun n =>
    [⟨master, "EURUSD", "buy", some (stepMs * n)⟩, ⟨copier, "eurusd", "buy", some (stepMs * n + 100)⟩]

theorem rows_byOpenTime {stepMs : ℤ} (hstep : 100 ≤ stepMs) : ByOpenTime (rows stepMs) := by
  simp [ByOpenTime, rows, List.range_succ]
  omega

instance (f : TextFunctions) (rows : List ExecutionRow) (a b : UserIdText) : Decidable (Reportable f rows a b) :=
  inferInstanceAs (Decidable (_ ∧ _))

end CopiedTrades

open CopiedTrades in
theorem reports_minute_apart :
    Reports (detectSimultaneousExecution text (rows 60000)) copier master :=
  (reports_iff_sharedSlots (rows_byOpenTime (by decide)) (by decide) (by decide +kernel) (by decide)
    (by decide +kernel)).mpr (by decide +kernel)

/-- Within one slot five trades and their copies are a full overlap, and nothing is reported. -/
theorem burst_not_reported :
    ∃ (f : TextFunctions) (rows : List ExecutionRow) (a b : UserIdText), ByOpenTime rows ∧
      rows.length ≤ maxTradeRows ∧ (candidatePairs f rows).length ≤ maxCandidatePairs ∧ a ≠ b ∧
      Reportable f rows a b ∧ ¬ Reports (detectSimultaneousExecution f rows) a b := by
  refine ⟨CopiedTrades.text, CopiedTrades.rows 500, CopiedTrades.copier, CopiedTrades.master,
    CopiedTrades.rows_byOpenTime (by decide), by decide, by decide +kernel, by decide, by decide +kernel, ?_⟩
  have hnone : detectSimultaneousExecution CopiedTrades.text (CopiedTrades.rows 500) = [] := by decide +kernel
  rintro ⟨finding, hfinding, -⟩
  rw [hnone] at hfinding
  cases hfinding

end PropFirm
