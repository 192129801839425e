import Mathlib.Algebra.BigOperators.Group.List.Basic
import PropFirm.Lib.Doubles
import PropFirm.Lib.RecursiveQuery
import PropFirm.Lib.Transition

/-!
# The published pass rates

A purchase opens an account, and each promotion opens another one whose parent is the account that has
passed. The query behind `GET /pass-rates` takes the accounts without a parent, collects what descends from
each, and counts, for every challenge model, the evaluations that have come to a funded account and those
that have none and nothing active left.
-/

namespace PropFirm

open RecursiveQuery Relation Transition

/-- The columns of `accounts` that the query reads. -/
structure LineageRow where
  id : ℕ
  parent : Option ℕ
  accountType : String
  status : String
  modelSlug : Option String
  deriving DecidableEq

abbrev Lineages := List LineageRow

namespace LineageRow

/-- An evaluation as it was bought. -/
def isRoot (r : LineageRow) : Bool := r.parent = none && r.accountType ≠ "funded"

def slug (r : LineageRow) : String := r.modelSlug.getD "legacy"

end LineageRow

def roots (rows : Lineages) : Lineages := rows.filter LineageRow.isRoot

/-- The accounts that follow an account, under the root it belongs to. -/
def children (rows : Lineages) (l : ℕ × LineageRow) : List (ℕ × LineageRow) :=
  (rows.filter fun c => c.parent = some l.2.id).map fun c => (l.1, c)

def lineage (rows : Lineages) : Option (List (ℕ × LineageRow)) :=
  recursive (children rows) (rows.length + 1) ((roots rows).map fun r => (r.id, r))

structure EvaluationOutcome where
  slug : String
  reachedFunded : Bool
  evalStillActive : Bool

namespace EvaluationOutcome

def finished (o : EvaluationOutcome) : Bool := o.reachedFunded || !o.evalStillActive

def inProgress (o : EvaluationOutcome) : Bool := o.evalStillActive && !o.reachedFunded

end EvaluationOutcome

def outcome (lin : List (ℕ × LineageRow)) (root : LineageRow) : EvaluationOutcome where
  slug := root.slug
  reachedFunded := lin.any fun l => l.1 = root.id && l.2.accountType = "funded"
  evalStillActive := lin.any fun l => l.1 = root.id && (l.2.accountType ≠ "funded" && l.2.status = "active")

/-- `round((funded / finished) * 100, 1)`. -/
def passRate (finished funded : ℕ) : Option ℚ :=
  if 0 < finished then
    let percent := Doubles.nearestDouble (Doubles.nearestDouble (funded / finished) * 100)
    some (Doubles.nearestDouble (⌊Doubles.nearestDouble (percent * 10) + 1 / 2⌋ / 10))
  else none

structure PassTally where
  finished : ℕ
  funded : ℕ
  inProgress : ℕ
  deriving DecidableEq

def PassTally.passRate (t : PassTally) : Option ℚ := PropFirm.passRate t.finished t.funded

/-- `passRate` of each tally goes with it. -/
structure PassRates where
  models : List (String × PassTally)
  overall : PassTally
  deriving DecidableEq

def tally (outcomes : List EvaluationOutcome) : PassTally where
  finished := outcomes.countP EvaluationOutcome.finished
  funded := outcomes.countP EvaluationOutcome.reachedFunded
  inProgress := outcomes.countP EvaluationOutcome.inProgress

/-- `GROUP BY slug ORDER BY slug`. -/
def modelTallies (outcomes : List EvaluationOutcome) : List (String × PassTally) :=
  ((outcomes.map (·.slug)).dedup.mergeSort (· ≤ ·)).map fun slug =>
    (slug, tally (outcomes.filter fun o => o.slug = slug))

/-- The sums over the models. -/
def overallTally (models : List (String × PassTally)) : PassTally where
  finished := (models.map (·.2.finished)).sum
  funded := (models.map (·.2.funded)).sum
  inProgress := (models.map (·.2.inProgress)).sum

def computePassRates (rows : Lineages) : Option PassRates :=
  (lineage rows).map fun lin =>
    let models := modelTallies ((roots rows).map (outcome lin))
    ⟨models, overallTally models⟩

/-! ### How the accounts come about -/

inductive LineageAction
  | purchase (id : ℕ) (accountType : String) (modelSlug : Option String)
  | promote (parent id : ℕ) (accountType : String) (modelSlug : Option String)
  | setStatus (id : ℕ) (status : String)

def lineageStep (rows : Lineages) : LineageAction → Option Lineages
  | .purchase id accountType modelSlug =>
    if rows.all (·.id ≠ id) then some (rows ++ [⟨id, none, accountType, "active", modelSlug⟩]) else none
  | .promote parent id accountType modelSlug =>
    if rows.any (·.id = parent) && rows.all (·.id ≠ id) then
      some (rows ++ [⟨id, some parent, accountType, "active", modelSlug⟩])
    else none
  | .setStatus id status => some (rows.map fun r => if r.id = id then { r with status := status } else r)

/-- Every account comes after its parent. -/
structure Grown (rows : Lineages) : Prop where
  nodup : (rows.map (·.id)).Nodup
  parent : ∀ r ∈ rows, ∀ p, r.parent = some p → ∃ s ∈ rows, s.id = p
  depth : ∃ depth : ℕ → ℕ, ∀ r ∈ rows, depth r.id < rows.length ∧ ∀ p, r.parent = some p → depth p < depth r.id

theorem Grown.append {rows : Lineages} (hgrown : Grown rows) {r : LineageRow} (hfresh : ∀ s ∈ rows, s.id ≠ r.id)
    (hparent : ∀ p, r.parent = some p → ∃ s ∈ rows, s.id = p) : Grown (rows ++ [r]) := by
  obtain ⟨depth, hdepth⟩ := hgrown.depth
  refine ⟨?_, fun s hs p hp => ?_, Function.update depth r.id rows.length, fun s hs => ?_⟩
  · rw [List.map_append, List.map_singleton, List.nodup_append']
    refine ⟨hgrown.nodup, List.nodup_singleton _, List.disjoint_singleton.mpr fun hmem => ?_⟩
    obtain ⟨s, hs, heq⟩ := List.mem_map.mp hmem
    exact hfresh s hs heq
  · have hfound : ∃ t ∈ rows, t.id = p := by
      rcases List.mem_append.mp hs with hs | hs
      · exact hgrown.parent s hs p hp
      · exact hparent p (List.mem_singleton.mp hs ▸ hp)
    obtain ⟨t, ht, heq⟩ := hfound
    exact ⟨t, List.mem_append_left _ ht, heq⟩
  · have hold : ∀ t ∈ rows, Function.update depth r.id rows.length t.id = depth t.id := fun t ht =>
      Function.update_of_ne (hfresh t ht) _ _
    rw [List.length_append, List.length_singleton]
    rcases List.mem_append.mp hs with hs | hs
    · obtain ⟨hlt, hbelow⟩ := hdepth s hs
      rw [hold s hs]
      refine ⟨by omega, fun p hp => ?_⟩
      obtain ⟨t, ht, rfl⟩ := hgrown.parent s hs p hp
      rw [hold t ht]
      exact hbelow _ hp
    · rw [List.mem_singleton.mp hs, Function.update_self]
      refine ⟨Nat.lt_succ_self _, fun p hp => ?_⟩
      obtain ⟨t, ht, rfl⟩ := hparent p hp
      rw [hold t ht]
      exact (hdepth t ht).1

theorem Grown.step {rows rows' : Lineages} {a : LineageAction} (hgrown : Grown rows)
    (hstep : lineageStep rows a = some rows') : Grown rows' := by
  cases a with
  | purchase id accountType modelSlug =>
    rw [lineageStep] at hstep
    split at hstep
    · next hfresh =>
      obtain rfl := Option.some.inj hstep
      exact hgrown.append (fun s hs => of_decide_eq_true (List.all_eq_true.mp hfresh s hs)) fun p hp => by cases hp
    · cases hstep
  | promote parent id accountType modelSlug =>
    rw [lineageStep] at hstep
    split at hstep
    · next hboth =>
      obtain rfl := Option.some.inj hstep
      obtain ⟨hany, hfresh⟩ := Bool.and_eq_true_iff.mp hboth
      obtain ⟨s, hs, heq⟩ := List.any_eq_true.mp hany
      refine hgrown.append (fun s hs => of_decide_eq_true (List.all_eq_true.mp hfresh s hs)) fun p hp => ?_
      exact ⟨s, hs, (of_decide_eq_true heq).trans (Option.some.inj hp)⟩
    · cases hstep
  | setStatus id status =>
    obtain rfl := Option.some.inj hstep
    have hid : ∀ r : LineageRow, (if r.id = id then { r with status := status } else r).id = r.id := by
      intro r
      split <;> rfl
    have hparent : ∀ r : LineageRow, (if r.id = id then { r with status := status } else r).parent = r.parent := by
      intro r
      split <;> rfl
    obtain ⟨depth, hdepth⟩ := hgrown.depth
    refine ⟨?_, fun r hr p hp => ?_, depth, fun r hr => ?_⟩
    · rw [List.map_map]
      simpa only [Function.comp_def, hid] using hgrown.nodup
    · obtain ⟨old, hold, rfl⟩ := List.mem_map.mp hr
      rw [hparent] at hp
      obtain ⟨s, hs, heq⟩ := hgrown.parent old hold p hp
      exact ⟨_, List.mem_map_of_mem hs, (hid s).trans heq⟩
    · obtain ⟨old, hold, rfl⟩ := List.mem_map.mp hr
      rw [hid, hparent, List.length_map]
      exact hdepth old hold

theorem grown_of_reach {ok : Lineages → LineageAction → Prop} {rows : Lineages}
    (hreach : Reach lineageStep ok (· = []) rows) : Grown rows := by
  refine hreach.invariant ?_ fun _ _ _ hgrown _ hstep => hgrown.step hstep
  rintro rows rfl
  exact ⟨List.nodup_nil, fun r hr => absurd hr List.not_mem_nil, fun _ => 0, fun r hr => absurd hr List.not_mem_nil⟩

/-! ### What the query counts -/

/-- An account comes from another one by promotions. -/
def Descends (rows : Lineages) : LineageRow → LineageRow → Prop :=
  ReflTransGen fun x y => y ∈ rows ∧ y.parent = some x.id

/-- One of the accounts of an evaluation is funded. -/
def ReachedFunded (rows : Lineages) (root : LineageRow) : Prop :=
  ∃ r, Descends rows root r ∧ r.accountType = "funded"

def StillActive (rows : Lineages) (root : LineageRow) : Prop :=
  ∃ r, Descends rows root r ∧ r.accountType ≠ "funded" ∧ r.status = "active"

theorem children_reach {rows : Lineages} {x y : ℕ × LineageRow} :
    ReflTransGen (fun x y => y ∈ children rows x) x y ↔ x.1 = y.1 ∧ Descends rows x.2 y.2 := by
  have hchild : ∀ {x y : ℕ × LineageRow}, y ∈ children rows x ↔ x.1 = y.1 ∧ y.2 ∈ rows ∧ y.2.parent = some x.2.id := by
    rintro ⟨i, r⟩ ⟨j, c⟩
    simp [children, and_comm, and_assoc, eq_comm]
  constructor
  · intro hreach
    induction hreach with
    | refl => exact ⟨rfl, .refl⟩
    | tail _ hstep ih =>
      obtain ⟨hfst, hrest⟩ := hchild.mp hstep
      exact ⟨ih.1.trans hfst, ih.2.tail hrest⟩
  · rintro ⟨hfst, hdescends⟩
    obtain ⟨i, r⟩ := x
    obtain ⟨j, c⟩ := y
    obtain rfl : i = j := hfst
    change Descends rows r c at hdescends
    induction hdescends with
    | refl => exact .refl
    | tail _ hstep ih => exact ih.tail (hchild.mpr ⟨rfl, hstep⟩)

theorem lineage_isSome {rows : Lineages} (hgrown : Grown rows) : (lineage rows).isSome := by
  obtain ⟨depth, hdepth⟩ := hgrown.depth
  refine recursive_isSome (fun l => rows.length - depth l.2.id) (fun l => l.2 ∈ rows) (fun l hl c hc => ?_)
    fun l hl => ?_
  · obtain ⟨r, hr, rfl⟩ := List.mem_map.mp hc
    obtain ⟨hmem, hparent⟩ := List.mem_filter.mp hr
    obtain ⟨hlt, hbelow⟩ := hdepth r hmem
    have := hbelow _ (of_decide_eq_true hparent)
    exact ⟨hmem, by dsimp only; omega⟩
  · obtain ⟨r, hr, rfl⟩ := List.mem_map.mp hl
    exact ⟨(List.mem_filter.mp hr).1, Nat.lt_succ_of_le (Nat.sub_le _ _)⟩

theorem mem_lineage {rows : Lineages} (hgrown : Grown rows) {lin : List (ℕ × LineageRow)}
    (hlin : lineage rows = some lin) {root r : LineageRow} (hroot : root ∈ roots rows) :
    (root.id, r) ∈ lin ↔ Descends rows root r := by
  rw [mem_recursive_iff hlin]
  simp only [children_reach, List.mem_map]
  constructor
  · rintro ⟨-, ⟨root', hroot', rfl⟩, hid, hdescends⟩
    have hsame := List.inj_on_of_nodup_map hgrown.nodup (List.mem_filter.mp hroot').1 (List.mem_filter.mp hroot).1 hid
    exact hsame ▸ hdescends
  · exact fun hdescends => ⟨_, ⟨root, hroot, rfl⟩, rfl, hdescends⟩

theorem outcome_spec {rows : Lineages} (hgrown : Grown rows) {lin : List (ℕ × LineageRow)}
    (hlin : lineage rows = some lin) {root : LineageRow} (hroot : root ∈ roots rows) :
    ((outcome lin root).reachedFunded = true ↔ ReachedFunded rows root) ∧
      ((outcome lin root).evalStillActive = true ↔ StillActive rows root) := by
  have hany : ∀ p : LineageRow → Bool, (lin.any fun l => l.1 = root.id && p l.2) = true ↔
      ∃ r, Descends rows root r ∧ p r = true := by
    intro p
    rw [List.any_eq_true]
    constructor
    · rintro ⟨⟨i, r⟩, hl, hboth⟩
      obtain ⟨hi, hp⟩ := Bool.and_eq_true_iff.mp hboth
      obtain rfl : i = root.id := of_decide_eq_true hi
      exact ⟨r, (mem_lineage hgrown hlin hroot).mp hl, hp⟩
    · rintro ⟨r, hdescends, hp⟩
      refine ⟨(root.id, r), (mem_lineage hgrown hlin hroot).mpr hdescends, ?_⟩
      rw [hp, decide_eq_true rfl]
      rfl
  refine ⟨(hany fun r => r.accountType = "funded").trans ?_,
    (hany fun r => r.accountType ≠ "funded" && r.status = "active").trans ?_⟩
  · simp [ReachedFunded]
  · simp [StillActive]

/-! ### The sums -/

theorem sum_map_ite_eq_of_mem {κ : Type*} [DecidableEq κ] {keys : List κ} (hkeys : keys.Nodup) {x : κ} (hx : x ∈ keys)
    (c : ℕ) : (keys.map fun k => if k = x then c else 0).sum = c := by
  induction keys with
  | nil => cases hx
  | cons k keys ih =>
    obtain ⟨hfresh, hkeys⟩ := List.nodup_cons.mp hkeys
    rw [List.map_cons, List.sum_cons]
    by_cases hk : k = x
    · rw [if_pos hk, List.sum_eq_zero, Nat.add_zero]
      intro n hn
      obtain ⟨k', hk', rfl⟩ := List.mem_map.mp hn
      refine if_neg fun heq => hfresh ?_
      rwa [hk, ← heq]
    · rw [if_neg hk, Nat.zero_add, ih hkeys ((List.mem_cons.mp hx).resolve_left (Ne.symm hk))]

/-- A count is the sum of the counts of the classes, where every class is listed once. -/
theorem sum_countP_filter {α κ : Type*} [DecidableEq κ] (key : α → κ) (p : α → Bool) {keys : List κ}
    (hkeys : keys.Nodup) (items : List α) (hmem : ∀ a ∈ items, key a ∈ keys) :
    (keys.map fun k => (items.filter fun a => key a = k).countP p).sum = items.countP p := by
  induction items with
  | nil => simp
  | cons a items ih =>
    have hone := sum_map_ite_eq_of_mem hkeys (hmem a List.mem_cons_self) (if p a then 1 else 0)
    rw [List.countP_cons, ← ih fun b hb => hmem b (List.mem_cons_of_mem _ hb), ← hone, ← List.sum_map_add]
    refine congrArg List.sum (List.map_congr_left fun k _ => ?_)
    rw [List.filter_cons]
    by_cases hk : k = key a
    · rw [if_pos (decide_eq_true hk.symm), if_pos hk, List.countP_cons]
    · rw [if_neg (by simpa using Ne.symm hk), if_neg hk, Nat.add_zero]

theorem map_fst_modelTallies (outcomes : List EvaluationOutcome) :
    ((modelTallies outcomes).map (·.1)).Perm (outcomes.map (·.slug)).dedup := by
  rw [modelTallies, List.map_map]
  exact (List.map_id' _).symm ▸ List.mergeSort_perm _ _

theorem overallTally_modelTallies (outcomes : List EvaluationOutcome) :
    overallTally (modelTallies outcomes) = tally outcomes := by
  have hperm := List.mergeSort_perm (outcomes.map (·.slug)).dedup fun s s' => decide (s ≤ s')
  have hnodup := hperm.nodup_iff.mpr (List.nodup_dedup _)
  have hmem : ∀ o ∈ outcomes, o.slug ∈ (outcomes.map (·.slug)).dedup.mergeSort fun s s' => decide (s ≤ s') :=
    fun o ho => hperm.mem_iff.mpr (List.mem_dedup.mpr (List.mem_map_of_mem ho))
  rw [overallTally, modelTallies]
  simp only [List.map_map, Function.comp_def, tally, sum_countP_filter _ _ hnodup outcomes hmem]

/-! ### The rates -/

open Classical in
/-- The counts by the accounts themselves: of some evaluations, those that have come to a funded account or
have nothing active left, those of the first kind, and those that go on. -/
noncomputable def evaluationCounts (rows evaluations : Lineages) : PassTally where
  finished := evaluations.countP fun root => ReachedFunded rows root ∨ ¬ StillActive rows root
  funded := evaluations.countP fun root => ReachedFunded rows root
  inProgress := evaluations.countP fun root => StillActive rows root ∧ ¬ ReachedFunded rows root

theorem tally_outcomes {rows : Lineages} (hgrown : Grown rows) {lin : List (ℕ × LineageRow)}
    (hlin : lineage rows = some lin) {evaluations : Lineages} (hsub : ∀ root ∈ evaluations, root ∈ roots rows) :
    tally (evaluations.map (outcome lin)) = evaluationCounts rows evaluations := by
  have hfunded := fun root hroot => (outcome_spec hgrown hlin (hsub root hroot)).1
  have hactive := fun root hroot => (outcome_spec hgrown hlin (hsub root hroot)).2
  rw [tally, evaluationCounts, List.countP_map, List.countP_map, List.countP_map, PassTally.mk.injEq]
  refine ⟨List.countP_congr fun root hroot => ?_, List.countP_congr fun root hroot => ?_,
    List.countP_congr fun root hroot => ?_⟩
  · simp [EvaluationOutcome.finished, ← hfunded root hroot, ← hactive root hroot]
  · simp [← hfunded root hroot]
  · simp [EvaluationOutcome.inProgress, ← hfunded root hroot, ← hactive root hroot]

/-- An evaluation is finished or goes on, and the funded ones are finished. -/
theorem evaluationCounts_partition (rows evaluations : Lineages) :
    (evaluationCounts rows evaluations).finished + (evaluationCounts rows evaluations).inProgress =
        evaluations.length ∧
      (evaluationCounts rows evaluations).funded ≤ (evaluationCounts rows evaluations).finished := by
  classical
  constructor
  · rw [evaluationCounts,
      List.length_eq_countP_add_countP (fun root => ReachedFunded rows root ∨ ¬ StillActive rows root)]
    refine congrArg _ (List.countP_congr fun root _ => ?_)
    simp only [decide_eq_true_eq, not_or, not_not]
    tauto
  · refine List.countP_mono_left fun root _ hfunded => ?_
    simp only [decide_eq_true_eq] at hfunded ⊢
    exact .inl hfunded

/-- Whatever has been bought, promoted and closed: the query ends, every model stands there once with the
counts of its own evaluations, and the overall numbers are the counts of all of them. -/
theorem computePassRates_spec {ok : Lineages → LineageAction → Prop} {rows : Lineages}
    (hreach : Reach lineageStep ok (· = []) rows) :
    ∃ rates, computePassRates rows = some rates ∧
      (rates.models.map (·.1)).Nodup ∧
      (∀ slug, slug ∈ rates.models.map (·.1) ↔ ∃ root ∈ roots rows, root.slug = slug) ∧
      (∀ m ∈ rates.models, m.2 = evaluationCounts rows ((roots rows).filter fun root => root.slug = m.1)) ∧
      rates.overall = evaluationCounts rows (roots rows) ∧
      rates.overall.finished + rates.overall.inProgress = (roots rows).length ∧
      rates.overall.funded ≤ rates.overall.finished := by
  have hgrown := grown_of_reach hreach
  obtain ⟨lin, hlin⟩ := Option.isSome_iff_exists.mp (lineage_isSome hgrown)
  have hperm := map_fst_modelTallies ((roots rows).map (outcome lin))
  have hoverall :
      overallTally (modelTallies ((roots rows).map (outcome lin))) = evaluationCounts rows (roots rows) := by
    rw [overallTally_modelTallies, tally_outcomes hgrown hlin fun _ => id]
  refine ⟨⟨modelTallies ((roots rows).map (outcome lin)), _⟩, by rw [computePassRates, hlin]; rfl,
    hperm.nodup_iff.mpr (List.nodup_dedup _), fun slug => ?_, fun m hm => ?_, hoverall, ?_⟩
  · rw [hperm.mem_iff, List.mem_dedup, List.map_map]
    exact List.mem_map
  · obtain ⟨slug, -, rfl⟩ := List.mem_map.mp hm
    change tally (((roots rows).map (outcome lin)).filter fun o => o.slug = slug) = _
    rw [List.filter_map]
    exact tally_outcomes hgrown hlin fun root hroot => (List.mem_filter.mp hroot).1
  · change (overallTally _).finished + (overallTally _).inProgress = _ ∧
      (overallTally _).funded ≤ (overallTally _).finished
    rw [hoverall]
    exact evaluationCounts_partition rows (roots rows)

/-- One evaluation has come to a funded account in three steps, another one goes on. -/
theorem computePassRates_spec_twoPurchases : ∃ rows rates, computePassRates rows = some rates ∧
    (roots rows).map (·.id) = [1, 4] ∧ rates.overall.finished + rates.overall.inProgress = 2 := by
  obtain ⟨rows, hrun, htest⟩ := exists_of_run_any lineageStep []
    [.purchase 1 "phase1" (some "2-step"), .promote 1 2 "phase2" (some "2-step"), .setStatus 1 "passed",
      .purchase 4 "phase1" none, .promote 2 3 "funded" (some "2-step"), .setStatus 2 "passed"]
    (fun rows => (roots rows).map (·.id) = [1, 4]) (by decide +kernel)
  have hroots := of_decide_eq_true htest
  have hreach : Reach lineageStep (fun _ _ => True) (· = []) rows :=
    .of_run (.init rfl) (.of_forall fun _ _ _ => trivial) hrun
  obtain ⟨rates, hrates, -, -, -, -, htotal, -⟩ := computePassRates_spec hreach
  refine ⟨rows, rates, hrates, hroots, ?_⟩
  rw [htotal, ← List.length_map (·.id), hroots]
  rfl

end PropFirm
