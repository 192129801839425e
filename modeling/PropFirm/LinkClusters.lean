import Mathlib
import PropFirm.Lib.InsertionMap
import PropFirm.Lib.ParentForest

/-!
# Clusters of linked users

`buildClusters` joins the users of each pair in a map of parents, compressing paths as it goes, and reads
the clusters off the roots. They are the connected components of the graph of the pairs. The loops that
follow parents are given as many turns as the map has keys, and never need more.
-/

namespace PropFirm

open ParentForest

section Model

variable {κ : Type}

section Find

variable [DecidableEq κ]

/-- `while (parent.get(root) !== root)`. -/
def climbParents (parent : InsertionMap κ κ) : ℕ → κ → Option κ
  | 0, _ => none
  | fuel + 1, root =>
    match parent.get? root with
    | none => none
    | some next => if next = root then some root else climbParents parent fuel next

/-- `while (parent.get(cursor) !== root)`. -/
def compressPath (root : κ) : ℕ → InsertionMap κ κ → κ → Option (InsertionMap κ κ)
  | 0, _, _ => none
  | fuel + 1, parent, cursor =>
    match parent.get? cursor with
    | none => none
    | some next => if next = root then some parent else compressPath root fuel (parent.set cursor root) next

def findRoot (parent : InsertionMap κ κ) (x : κ) : Option (κ × InsertionMap κ κ) := do
  let parent := if x ∈ parent.keys then parent else parent.set x x
  let root ← climbParents parent parent.keys.length x
  let parent ← compressPath root parent.keys.length parent x
  some (root, parent)

def unionRoots (parent : InsertionMap κ κ) (a b : κ) : Option (InsertionMap κ κ) := do
  let (rootA, parent) ← findRoot parent a
  let (rootB, parent) ← findRoot parent b
  if rootA ≠ rootB then some (parent.set rootA rootB) else some parent

/-- An id counts as missing where it is falsy. -/
def Linking (isEmpty : κ → Bool) (pair : κ × κ) : Prop :=
  ¬ (isEmpty pair.1 = true ∨ isEmpty pair.2 = true ∨ pair.1 = pair.2)

instance (isEmpty : κ → Bool) (pair : κ × κ) : Decidable (Linking isEmpty pair) :=
  inferInstanceAs (Decidable (¬ _))

def buildParents (isEmpty : κ → Bool) (pairs : List (κ × κ)) : Option (InsertionMap κ κ) :=
  pairs.foldlM (fun parent pair =>
    if Linking isEmpty pair then unionRoots parent pair.1 pair.2 else some parent) .empty

def groupByRoot (nodes : List κ) (parent : InsertionMap κ κ) : Option (InsertionMap κ κ × InsertionMap κ (List κ)) :=
  nodes.foldlM (fun state node => do
    let (root, parent) ← findRoot state.1 node
    some (parent, state.2.modify root fun held => held.getD [] ++ [node])) (parent, .empty)

end Find

variable [LinearOrder κ]

def sortIds (ids : List κ) : List κ := ids.insertionSort (· ≤ ·)

def buildClusters (isEmpty : κ → Bool) (pairs : List (κ × κ)) : Option (List (List κ)) := do
  let parent ← buildParents isEmpty pairs
  let (_, groups) ← groupByRoot parent.keys parent
  some ((groups.values.filter fun members => 2 ≤ members.length).map sortIds)

/-- Over the digest and the texts of the ids. -/
def buildClusterKey (sha256 : String → String) (text : κ → String) (memberIds : List κ) : String :=
  sha256 ("|".intercalate ((sortIds memberIds).map text))

end Model

/-- The graph of the pairs that link. -/
def linkGraph {κ : Type} (isEmpty : κ → Bool) (pairs : List (κ × κ)) : SimpleGraph κ :=
  .fromRel fun a b => (a, b) ∈ pairs ∧ Linking isEmpty (a, b)

/-- The parent pointers, a node without one being its own parent. -/
def parentOf {κ : Type} [DecidableEq κ] (parent : InsertionMap κ κ) (x : κ) : κ := (parent.get? x).getD x

/-- The map of parents is a forest whose roots are given by `root`. -/
structure Forest {κ : Type} [DecidableEq κ] (parent : InsertionMap κ κ) (root : κ → κ) : Prop where
  closed : ∀ x ∈ parent.keys, parentOf parent x ∈ parent.keys
  climbs : ∀ x, ∃ n, Climb (parentOf parent) n x (root x)

section Find

variable {κ : Type} [DecidableEq κ] {parent : InsertionMap κ κ} {root : κ → κ} {x y r : κ} {n fuel : ℕ}

theorem get?_of_mem_keys (hx : x ∈ parent.keys) : parent.get? x = some (parentOf parent x) := by
  obtain ⟨next, hnext⟩ := Option.isSome_iff_exists.mp (InsertionMap.mem_keys_iff.mp hx)
  rw [parentOf, hnext]
  rfl

theorem parentOf_set (parent : InsertionMap κ κ) (x v : κ) :
    parentOf (parent.set x v) = Function.update (parentOf parent) x v := by
  funext y
  rw [parentOf, InsertionMap.get?_set, Function.update_apply]
  split
  · rfl
  · rfl

theorem keys_set_of_mem (hx : x ∈ parent.keys) (v : κ) : (parent.set x v).keys = parent.keys := by
  rw [InsertionMap.set, InsertionMap.keys_modify, if_pos hx]

theorem Forest.root_fixed (hforest : Forest parent root) (x : κ) : parentOf parent (root x) = root x := by
  obtain ⟨n, hx⟩ := hforest.climbs x
  exact hx.root_fixed

theorem Forest.root_mem (hforest : Forest parent root) (hx : x ∈ parent.keys) : root x ∈ parent.keys := by
  obtain ⟨n, hclimb⟩ := hforest.climbs x
  exact hclimb.root_mem hx hforest.closed

theorem Forest.root_of_not_mem (hforest : Forest parent root) (hx : x ∉ parent.keys) : root x = x := by
  obtain ⟨n, hclimb⟩ := hforest.climbs x
  have hnone : parent.get? x = none := by
    rw [← Option.not_isSome_iff_eq_none, ← InsertionMap.mem_keys_iff]
    exact hx
  have hself : Climb (parentOf parent) 0 x x := .root (by rw [parentOf, hnone]; rfl)
  exact (hclimb.unique hself).2

theorem climbParents_of_climb (hclosed : ∀ y ∈ parent.keys, parentOf parent y ∈ parent.keys)
    (hx : x ∈ parent.keys) (hclimb : Climb (parentOf parent) n x r) (hfuel : n < fuel) :
    climbParents parent fuel x = some r := by
  induction hclimb generalizing fuel with
  | root hroot =>
    obtain ⟨fuel, rfl⟩ := Nat.exists_eq_add_of_lt hfuel
    rw [climbParents, get?_of_mem_keys hx]
    exact if_pos hroot
  | step hne hrest ih =>
    obtain ⟨fuel, rfl⟩ := Nat.exists_eq_succ_of_ne_zero (Nat.ne_of_gt (Nat.zero_lt_of_lt hfuel))
    rw [climbParents, get?_of_mem_keys hx]
    dsimp only
    rw [if_neg hne]
    exact ih (hclosed _ hx) (Nat.succ_lt_succ_iff.mp hfuel)

/-- Pointing a node at its root leaves the forest as it is. -/
theorem Forest.compress (hforest : Forest parent root) (hx : x ∈ parent.keys) :
    Forest (parent.set x (root x)) root := by
  constructor
  · intro y hy
    rw [keys_set_of_mem hx] at hy ⊢
    rw [parentOf_set, Function.update_apply]
    split
    · exact hforest.root_mem hx
    · exact hforest.closed y hy
  · intro y
    obtain ⟨n, hclimbx⟩ := hforest.climbs x
    obtain ⟨m, hclimby⟩ := hforest.climbs y
    rw [parentOf_set]
    exact hclimbx.compress hclimby

theorem compressPath_spec (hforest : Forest parent root) (hx : x ∈ parent.keys)
    (hclimb : Climb (parentOf parent) n x r) (hpos : 0 < fuel) (hfuel : n ≤ fuel) :
    ∃ parent', compressPath r fuel parent x = some parent' ∧ Forest parent' root ∧ parent'.keys = parent.keys := by
  induction fuel generalizing parent x n with
  | zero => exact absurd hpos (lt_irrefl 0)
  | succ fuel ih =>
    obtain ⟨m, hroot⟩ := hforest.climbs x
    obtain ⟨-, rfl⟩ := hclimb.unique hroot
    rw [compressPath, get?_of_mem_keys hx]
    dsimp only
    by_cases hnext : parentOf parent x = root x
    · rw [if_pos hnext]
      exact ⟨parent, rfl, hforest, rfl⟩
    rw [if_neg hnext]
    obtain ⟨k, rfl, hpos', hne, hrest⟩ := hclimb.exists_step hnext
    have hmem : parentOf parent x ∈ (parent.set x (root x)).keys := by
      rw [keys_set_of_mem hx]
      exact hforest.closed x hx
    have hrest' : Climb (parentOf (parent.set x (root x))) k (parentOf parent x) (root x) := by
      rw [parentOf_set]
      exact (Climb.step hne hrest).update_of_lt hrest (Nat.lt_succ_self k) _
    obtain ⟨parent', hrun, hforest', hkeys⟩ :=
      ih (hforest.compress hx) hmem hrest' (by omega) (by omega)
    exact ⟨parent', hrun, hforest', hkeys.trans (keys_set_of_mem hx _)⟩

theorem Forest.insert (hforest : Forest parent root) (hx : x ∉ parent.keys) : Forest (parent.set x x) root := by
  have hself : parentOf (parent.set x x) = parentOf parent := by
    rw [parentOf_set, Function.update_eq_self_iff, ← hforest.root_of_not_mem hx, hforest.root_fixed]
  constructor
  · intro y hy
    rw [hself]
    rw [InsertionMap.set, InsertionMap.mem_keys_modify] at hy ⊢
    obtain rfl | hy := hy
    · have hfixed := hforest.root_fixed y
      rw [hforest.root_of_not_mem hx] at hfixed
      exact .inl hfixed
    · exact .inr (hforest.closed y hy)
  · intro y
    obtain ⟨n, hy⟩ := hforest.climbs y
    rw [hself]
    exact ⟨n, hy⟩

/-- `find` answers the root, adds the node it looks for, and changes no root. -/
theorem findRoot_spec (hforest : Forest parent root) (x : κ) :
    ∃ parent', findRoot parent x = some (root x, parent') ∧ Forest parent' root ∧
      parent'.keys = if x ∈ parent.keys then parent.keys else parent.keys ++ [x] := by
  obtain ⟨added, hadded, hforest₁, hkeys⟩ : ∃ added : InsertionMap κ κ,
      added = (if x ∈ parent.keys then parent else parent.set x x) ∧ Forest added root ∧
      added.keys = if x ∈ parent.keys then parent.keys else parent.keys ++ [x] := by
    refine ⟨_, rfl, ?_⟩
    split
    · exact ⟨hforest, rfl⟩
    · rename_i hx
      refine ⟨hforest.insert hx, ?_⟩
      rw [InsertionMap.set, InsertionMap.keys_modify, if_neg hx]
  have hmem : x ∈ added.keys := by
    rw [hkeys]
    split
    · assumption
    · exact List.mem_append_right _ (List.mem_singleton_self x)
  obtain ⟨n, hclimb⟩ := hforest₁.climbs x
  have hlt : n < added.keys.length := hclimb.lt_length hmem hforest₁.closed
  obtain ⟨parent', hcompress, hforest', hkeys'⟩ :=
    compressPath_spec hforest₁ hmem hclimb (Nat.zero_lt_of_lt hlt) hlt.le
  refine ⟨parent', ?_, hforest', hkeys'.trans hkeys⟩
  rw [findRoot, ← hadded, climbParents_of_climb hforest₁.closed hmem hclimb hlt, Option.bind_eq_bind,
    Option.bind_some, hcompress]
  rfl

end Find

section Union

variable {κ : Type} [DecidableEq κ] {parent : InsertionMap κ κ} {root : κ → κ} {a b : κ}

theorem Forest.mem_keys_iff {x : κ} {parent' : InsertionMap κ κ}
    (hkeys : parent'.keys = if x ∈ parent.keys then parent.keys else parent.keys ++ [x]) (k : κ) :
    k ∈ parent'.keys ↔ k = x ∨ k ∈ parent.keys := by
  rw [hkeys]
  split
  · rename_i hx
    constructor
    · exact Or.inr
    · rintro (rfl | hk)
      · exact hx
      · exact hk
  · rw [List.mem_append, List.mem_singleton, or_comm]

theorem Forest.attach (hforest : Forest parent root) (ha : a ∈ parent.keys) (hb : b ∈ parent.keys)
    (hne : root a ≠ root b) :
    Forest (parent.set (root a) (root b)) fun x => if root x = root a then root b else root x := by
  have hmem := hforest.root_mem ha
  constructor
  · intro y hy
    rw [keys_set_of_mem hmem] at hy ⊢
    rw [parentOf_set, Function.update_apply]
    split
    · exact hforest.root_mem hb
    · exact hforest.closed y hy
  · intro y
    obtain ⟨n, hy⟩ := hforest.climbs y
    rw [parentOf_set]
    exact hy.attach (hforest.root_fixed a) (hforest.root_fixed b) hne

/-- `union` moves the tree of the first id under the root of the second. -/
theorem unionRoots_spec (hforest : Forest parent root) (a b : κ) :
    ∃ parent', unionRoots parent a b = some parent' ∧
      Forest parent' (fun x => if root x = root a then root b else root x) ∧
      ∀ k, k ∈ parent'.keys ↔ k = a ∨ k = b ∨ k ∈ parent.keys := by
  obtain ⟨parent₁, hfind₁, hforest₁, hkeys₁⟩ := findRoot_spec hforest a
  obtain ⟨parent₂, hfind₂, hforest₂, hkeys₂⟩ := findRoot_spec hforest₁ b
  have hkeys : ∀ k, k ∈ parent₂.keys ↔ k = a ∨ k = b ∨ k ∈ parent.keys := by
    intro k
    rw [Forest.mem_keys_iff hkeys₂, Forest.mem_keys_iff hkeys₁]
    exact or_left_comm
  have hrun : unionRoots parent a b
      = if root a ≠ root b then some (parent₂.set (root a) (root b)) else some parent₂ := by
    rw [unionRoots, hfind₁, Option.bind_eq_bind, Option.bind_some]
    dsimp only
    rw [hfind₂, Option.bind_some]
  by_cases hne : root a ≠ root b
  · have ha : a ∈ parent₂.keys := (hkeys a).mpr (.inl rfl)
    have hb : b ∈ parent₂.keys := (hkeys b).mpr (.inr (.inl rfl))
    refine ⟨parent₂.set (root a) (root b), ?_, hforest₂.attach ha hb hne, fun k => ?_⟩
    · rw [hrun, if_pos hne]
    · rw [keys_set_of_mem (hforest₂.root_mem ha)]
      exact hkeys k
  · rw [not_not] at hne
    refine ⟨parent₂, ?_, ?_, hkeys⟩
    · rw [hrun, if_neg (not_not.mpr hne)]
    · have hsame : (fun x => if root x = root a then root b else root x) = root := by
        funext x
        split
        · rename_i hx
          rw [hx, hne]
        · rfl
      rw [hsame]
      exact hforest₂

end Union

section Components

variable {κ : Type} {isEmpty : κ → Bool} {pairs pairs' : List (κ × κ)} {pair : κ × κ} {x y : κ}

theorem linkGraph_adj : (linkGraph isEmpty pairs).Adj x y ↔
    x ≠ y ∧ ((x, y) ∈ pairs ∧ Linking isEmpty (x, y) ∨ (y, x) ∈ pairs ∧ Linking isEmpty (y, x)) :=
  SimpleGraph.fromRel_adj _ x y

theorem linking_comm (a b : κ) : Linking isEmpty (a, b) ↔ Linking isEmpty (b, a) := by
  rw [Linking, Linking]
  dsimp only
  rw [or_left_comm, eq_comm (a := a)]

theorem linkGraph_mono (hsub : pairs ⊆ pairs') :
    linkGraph isEmpty pairs ≤ linkGraph isEmpty pairs' := by
  intro x y hadj
  rw [linkGraph_adj] at hadj ⊢
  exact ⟨hadj.1, hadj.2.imp (And.imp_left (@hsub _)) (And.imp_left (@hsub _))⟩

/-- The same pairs, in another order, the other way round, or more often. -/
def SameLinks (pairs pairs' : List (κ × κ)) : Prop :=
  ∀ a b, (a, b) ∈ pairs ∨ (b, a) ∈ pairs ↔ (a, b) ∈ pairs' ∨ (b, a) ∈ pairs'

theorem SameLinks.linkGraph_eq (hsame : SameLinks pairs pairs') :
    linkGraph isEmpty pairs = linkGraph isEmpty pairs' := by
  ext x y
  rw [linkGraph_adj, linkGraph_adj, linking_comm y x, ← or_and_right, ← or_and_right, hsame x y]

/-- Two ids that are connected and different are each in a pair that links. -/
theorem exists_pair_of_reachable (hreachable : (linkGraph isEmpty pairs).Reachable x y) (hne : x ≠ y) :
    ∃ pair ∈ pairs, Linking isEmpty pair ∧ (x = pair.1 ∨ x = pair.2) := by
  rw [SimpleGraph.reachable_iff_reflTransGen] at hreachable
  obtain rfl | ⟨z, hadj, -⟩ := Relation.ReflTransGen.cases_head hreachable
  · exact absurd rfl hne
  · obtain ⟨-, ⟨hmem, hlinking⟩ | ⟨hmem, hlinking⟩⟩ := linkGraph_adj.mp hadj
    · exact ⟨_, hmem, hlinking, .inl rfl⟩
    · exact ⟨_, hmem, hlinking, .inr rfl⟩

theorem linkGraph_append_of_not (hnot : ¬ Linking isEmpty pair) :
    linkGraph isEmpty (pairs ++ [pair]) = linkGraph isEmpty pairs := by
  refine le_antisymm (fun x y hadj => ?_) (linkGraph_mono (List.subset_append_left _ _))
  have hkeep : ∀ {u v : κ}, (u, v) ∈ pairs ++ [pair] ∧ Linking isEmpty (u, v) →
      (u, v) ∈ pairs ∧ Linking isEmpty (u, v) := by
    rintro u v ⟨hmem, hlinks⟩
    obtain hmem | hmem := List.mem_append.mp hmem
    · exact ⟨hmem, hlinks⟩
    · rw [List.mem_singleton.mp hmem] at hlinks
      exact absurd hlinks hnot
  rw [linkGraph_adj] at hadj ⊢
  exact ⟨hadj.1, hadj.2.imp hkeep hkeep⟩

variable [DecidableEq κ]

/-- One more pair merges the classes of its ids. -/
theorem reachable_append {root : κ → κ}
    (hroot : ∀ x y, root x = root y ↔ (linkGraph isEmpty pairs).Reachable x y) (hlinking : Linking isEmpty pair)
    (x y : κ) :
    ((if root x = root pair.1 then root pair.2 else root x) = if root y = root pair.1 then root pair.2 else root y) ↔
      (linkGraph isEmpty (pairs ++ [pair])).Reachable x y := by
  have hold : ∀ {u v : κ}, root u = root v → (linkGraph isEmpty (pairs ++ [pair])).Reachable u v := by
    intro u v huv
    exact ((hroot u v).mp huv).mono (linkGraph_mono (List.subset_append_left _ _))
  have hne : pair.1 ≠ pair.2 := fun h => hlinking (.inr (.inr h))
  have hnew : (linkGraph isEmpty (pairs ++ [pair])).Reachable pair.1 pair.2 := by
    refine SimpleGraph.Adj.reachable (linkGraph_adj.mpr ⟨hne, .inl ⟨?_, hlinking⟩⟩)
    exact List.mem_append_right _ (List.mem_singleton_self pair)
  constructor
  · intro hsame
    split at hsame
    · rename_i hx
      split at hsame
      · rename_i hy
        exact hold (hx.trans hy.symm)
      · exact (hold hx).trans (hnew.trans (hold hsame))
    · split at hsame
      · rename_i hy
        exact (hold hsame).trans (hnew.symm.trans (hold hy.symm))
      · exact hold hsame
  · intro hreachable
    rw [SimpleGraph.reachable_iff_reflTransGen] at hreachable
    induction hreachable with
    | refl => rfl
    | @tail v w _ hadj ih =>
      rw [ih]
      have hpair : ∀ {u v : κ}, (u, v) ∈ pairs ++ [pair] → Linking isEmpty (u, v) →
          (if root u = root pair.1 then root pair.2 else root u)
            = if root v = root pair.1 then root pair.2 else root v := by
        intro u v hmem hlinks
        obtain hmem | hmem := List.mem_append.mp hmem
        · have huv : u ≠ v := fun h => hlinks (.inr (.inr h))
          have hadj : (linkGraph isEmpty pairs).Adj u v := linkGraph_adj.mpr ⟨huv, .inl ⟨hmem, hlinks⟩⟩
          rw [(hroot u v).mpr hadj.reachable]
        · obtain rfl := List.mem_singleton.mp hmem
          dsimp only
          rw [if_pos rfl]
          split
          · rfl
          · rfl
      obtain ⟨-, ⟨hmem, hlinks⟩ | ⟨hmem, hlinks⟩⟩ := linkGraph_adj.mp hadj
      · exact hpair hmem hlinks
      · exact (hpair hmem hlinks).symm

/-- The map of parents after all pairs: its roots are those of the components, its keys the ids that are linked. -/
theorem buildParents_spec (isEmpty : κ → Bool) (pairs : List (κ × κ)) :
    ∃ parent root, buildParents isEmpty pairs = some parent ∧ Forest parent root ∧
      (∀ x y, root x = root y ↔ (linkGraph isEmpty pairs).Reachable x y) ∧
      ∀ k, k ∈ parent.keys ↔ ∃ pair ∈ pairs, Linking isEmpty pair ∧ (k = pair.1 ∨ k = pair.2) := by
  induction pairs using List.reverseRecOn with
  | nil =>
    refine ⟨.empty, id, rfl, ⟨fun x hx => absurd hx List.not_mem_nil, fun x => ⟨0, .root rfl⟩⟩, fun x y => ?_, ?_⟩
    · constructor
      · rintro (rfl : x = y)
        exact .refl _
      · intro hreachable
        by_contra hne
        obtain ⟨pair, hmem, -⟩ := exists_pair_of_reachable hreachable hne
        cases hmem
    · intro k
      refine iff_of_false List.not_mem_nil ?_
      rintro ⟨pair, hmem, -⟩
      cases hmem
  | append_singleton pairs pair ih =>
    obtain ⟨parent, root, hrun, hforest, hroot, hkeys⟩ := ih
    have hsplit : buildParents isEmpty (pairs ++ [pair])
        = if Linking isEmpty pair then unionRoots parent pair.1 pair.2 else some parent := by
      rw [buildParents, List.foldlM_append, show pairs.foldlM _ _ = some parent from hrun]
      simp
    by_cases hlinking : Linking isEmpty pair
    · obtain ⟨parent', hunion, hforest', hkeys'⟩ := unionRoots_spec hforest pair.1 pair.2
      refine ⟨parent', _, ?_, hforest', reachable_append hroot hlinking, fun k => ?_⟩
      · rw [hsplit, if_pos hlinking, hunion]
      · rw [hkeys', hkeys]
        constructor
        · rintro (rfl | rfl | ⟨q, hq, hlinks, hk⟩)
          · exact ⟨pair, List.mem_append_right _ (List.mem_singleton_self _), hlinking, .inl rfl⟩
          · exact ⟨pair, List.mem_append_right _ (List.mem_singleton_self _), hlinking, .inr rfl⟩
          · exact ⟨q, List.mem_append_left _ hq, hlinks, hk⟩
        · rintro ⟨q, hq, hlinks, hk⟩
          obtain hq | hq := List.mem_append.mp hq
          · exact .inr (.inr ⟨q, hq, hlinks, hk⟩)
          · rw [List.mem_singleton.mp hq] at hk
            exact hk.imp id .inl
    · refine ⟨parent, root, ?_, hforest, ?_, fun k => ?_⟩
      · rw [hsplit, if_neg hlinking]
      · rw [linkGraph_append_of_not hlinking]
        exact hroot
      · rw [hkeys]
        constructor
        · rintro ⟨q, hq, hlinks, hk⟩
          exact ⟨q, List.mem_append_left _ hq, hlinks, hk⟩
        · rintro ⟨q, hq, hlinks, hk⟩
          obtain hq | hq := List.mem_append.mp hq
          · exact ⟨q, hq, hlinks, hk⟩
          · rw [List.mem_singleton.mp hq] at hlinks
            exact absurd hlinks hlinking

/-- Reading the roots changes none of them. -/
theorem groupByRoot_spec {parent : InsertionMap κ κ} {root : κ → κ} (hforest : Forest parent root)
    {nodes : List κ} (hnodes : nodes ⊆ parent.keys) :
    ∃ parent', groupByRoot nodes parent = some (parent', .groups root (fun node => node) nodes) := by
  have hloop : ∀ (nodes : List κ) (parent : InsertionMap κ κ) (groups : InsertionMap κ (List κ)),
      Forest parent root → nodes ⊆ parent.keys →
      ∃ parent', nodes.foldlM (fun state node => do
          let (root, parent) ← findRoot state.1 node
          some (parent, state.2.modify root fun held => held.getD [] ++ [node])) (parent, groups)
        = some (parent', nodes.foldl (fun groups node =>
            groups.modify (root node) fun held => held.getD [] ++ [node]) groups) := by
    intro nodes
    induction nodes with
    | nil => exact fun parent groups _ _ => ⟨parent, rfl⟩
    | cons node nodes ih =>
      intro parent groups hforest hnodes
      obtain ⟨parent₁, hfind, hforest₁, hkeys⟩ := findRoot_spec hforest node
      rw [if_pos (hnodes (List.mem_cons_self ..))] at hkeys
      obtain ⟨parent', hrun⟩ := ih parent₁ (groups.modify (root node) fun held => held.getD [] ++ [node]) hforest₁
        (hkeys ▸ fun k hk => hnodes (List.mem_cons_of_mem node hk))
      refine ⟨parent', ?_⟩
      rw [List.foldlM_cons, hfind]
      exact hrun
  exact hloop nodes parent .empty hforest hnodes

end Components

section Clusters

variable {κ : Type} [LinearOrder κ] {isEmpty : κ → Bool} {pairs : List (κ × κ)} {ids : List κ}

theorem sortIds_perm (ids : List κ) : (sortIds ids).Perm ids := List.perm_insertionSort (· ≤ ·) ids

theorem sortIds_sorted (ids : List κ) : (sortIds ids).Pairwise (· ≤ ·) := List.pairwise_insertionSort (· ≤ ·) ids

theorem sortIds_strict (hnodup : ids.Nodup) : (sortIds ids).Pairwise (· < ·) := by
  have hne : (sortIds ids).Nodup := (sortIds_perm ids).nodup_iff.mpr hnodup
  exact ((sortIds_sorted ids).and hne).imp fun hle => lt_of_le_of_ne hle.1 hle.2

/-- A strictly sorted list is told by its members. -/
theorem eq_of_strict {ids ids' : List κ} (hids : ids.Pairwise (· < ·)) (hids' : ids'.Pairwise (· < ·))
    (hmem : ∀ id, id ∈ ids ↔ id ∈ ids') : ids = ids' := by
  have hnodup : ids.Nodup := hids.imp fun h => h.ne
  have hnodup' : ids'.Nodup := hids'.imp fun h => h.ne
  refine List.Perm.eq_of_pairwise (fun a b _ _ hab hba => absurd hba (lt_asymm hab)) hids hids' ?_
  exact (List.perm_ext_iff_of_nodup hnodup hnodup').mpr hmem

/-- The members of a component, in order: a cluster as it should be. -/
def IsCluster (isEmpty : κ → Bool) (pairs : List (κ × κ)) (members : List κ) : Prop :=
  members.Pairwise (· < ·) ∧ 2 ≤ members.length ∧
    ∃ c : (linkGraph isEmpty pairs).ConnectedComponent, ∀ id, id ∈ members ↔ id ∈ c.supp

theorem buildClusters_spec (isEmpty : κ → Bool) (pairs : List (κ × κ)) :
    ∃ clusters, buildClusters isEmpty pairs = some clusters ∧ clusters.Nodup ∧
      ∀ members, members ∈ clusters ↔ IsCluster isEmpty pairs members := by
  obtain ⟨parent, root, hparents, hforest, hroot, hkeys⟩ := buildParents_spec isEmpty pairs
  obtain ⟨parent', hgroups⟩ := groupByRoot_spec hforest (List.Subset.refl parent.keys)
  let groups := InsertionMap.groups root (fun node => node) parent.keys
  have hclass : ∀ x : κ, x ∈ parent.keys →
      ∀ id, id ∈ parent.keys.filter (fun y => root y = root x) ↔
        id ∈ ((linkGraph isEmpty pairs).connectedComponentMk x).supp := by
    intro x hx id
    rw [List.mem_filter, decide_eq_true_eq, hroot, SimpleGraph.ConnectedComponent.mem_supp_iff,
      SimpleGraph.ConnectedComponent.eq]
    refine and_iff_right_of_imp fun hreachable => ?_
    by_cases hid : id = x
    · rw [hid]
      exact hx
    · exact (hkeys id).mpr (exists_pair_of_reachable hreachable hid)
  have hnodup : ∀ x : κ, (parent.keys.filter fun y => root y = root x).Nodup :=
    fun x => parent.nodup.sublist List.filter_sublist
  refine ⟨(groups.values.filter fun members => 2 ≤ members.length).map sortIds, ?_, ?_, fun members => ?_⟩
  · rw [buildClusters, hparents, Option.bind_eq_bind, Option.bind_some, hgroups]
    rfl
  · -- clusters of different roots share no member, and none is empty
    have hdisjoint := (InsertionMap.pairwise_values_groups root parent.keys).sublist
      (List.filter_sublist (p := fun members => decide (2 ≤ members.length)))
    refine List.pairwise_map.mpr (hdisjoint.imp_of_mem fun {members members'} hmem _ hdisj heq => ?_)
    have hlength := of_decide_eq_true (List.mem_filter.mp hmem).2
    obtain ⟨id, hid⟩ := List.exists_mem_of_length_pos (Nat.zero_lt_two.trans_le hlength)
    refine hdisj id hid ?_
    rw [← (sortIds_perm members').mem_iff, ← heq]
    exact (sortIds_perm members).mem_iff.mpr hid
  · rw [List.mem_map]
    constructor
    · rintro ⟨unsorted, hmem, rfl⟩
      obtain ⟨hmem, hlength⟩ := List.mem_filter.mp hmem
      obtain ⟨x, hx, hunsorted⟩ := InsertionMap.mem_values_groups.mp hmem
      rw [List.map_id'] at hunsorted
      rw [hunsorted] at hlength ⊢
      refine ⟨sortIds_strict (hnodup x), ?_, (linkGraph isEmpty pairs).connectedComponentMk x, fun id => ?_⟩
      · rw [(sortIds_perm _).length_eq]
        exact of_decide_eq_true hlength
      · rw [(sortIds_perm _).mem_iff]
        exact hclass x hx id
    · rintro ⟨hstrict, hlength, c, hmembers⟩
      match members, hstrict, hlength, hmembers with
      | x :: y :: rest, hstrict, hlength, hmembers =>
        have hxc := (hmembers x).mp (List.mem_cons_self ..)
        have hyc := (hmembers y).mp (List.mem_cons_of_mem x (List.mem_cons_self ..))
        rw [SimpleGraph.ConnectedComponent.mem_supp_iff] at hxc hyc
        have hne : x ≠ y := ((List.pairwise_cons.mp hstrict).1 y (List.mem_cons_self ..)).ne
        have hreachable := SimpleGraph.ConnectedComponent.eq.mp (hxc.trans hyc.symm)
        have hx : x ∈ parent.keys := (hkeys x).mpr (exists_pair_of_reachable hreachable hne)
        have hsorted : sortIds (parent.keys.filter fun y => root y = root x) = x :: y :: rest := by
          refine eq_of_strict (sortIds_strict (hnodup x)) hstrict fun id => ?_
          rw [(sortIds_perm _).mem_iff, hclass x hx, hxc]
          exact (hmembers id).symm
        refine ⟨parent.keys.filter fun y => root y = root x, List.mem_filter.mpr ⟨?_, ?_⟩, hsorted⟩
        · exact InsertionMap.mem_values_groups.mpr ⟨x, hx, (List.map_id' _).symm⟩
        · rw [decide_eq_true_eq, ← (sortIds_perm _).length_eq, hsorted]
          exact hlength

end Clusters

/-- The clusters are the components of the graph of the pairs, whatever the order of the pairs or of the ids
in them. -/
theorem buildClusters_components {κ : Type} [LinearOrder κ] (isEmpty : κ → Bool) (sha256 : String → String)
    (text : κ → String) (pairs : List (κ × κ)) :
    ∃ clusters, buildClusters isEmpty pairs = some clusters ∧ clusters.Nodup ∧
      (∀ members, members ∈ clusters ↔ IsCluster isEmpty pairs members) ∧
      ∀ pairs', SameLinks pairs pairs' → ∃ clusters', buildClusters isEmpty pairs' = some clusters' ∧
        (clusters'.map (buildClusterKey sha256 text)).Perm (clusters.map (buildClusterKey sha256 text)) := by
  obtain ⟨clusters, hrun, hnodup, hmem⟩ := buildClusters_spec isEmpty pairs
  refine ⟨clusters, hrun, hnodup, hmem, fun pairs' hsame => ?_⟩
  obtain ⟨clusters', hrun', hnodup', hmem'⟩ := buildClusters_spec isEmpty pairs'
  refine ⟨clusters', hrun', List.Perm.map _ ((List.perm_ext_iff_of_nodup hnodup' hnodup).mpr fun members => ?_)⟩
  rw [hmem', hmem, IsCluster, IsCluster, hsame.linkGraph_eq]

/-- A chain of three, and a pair that links nobody. -/
theorem buildClusters_components_example :
    ∃ clusters', buildClusters (· = "") [("c", "b"), ("", "q"), ("a", "b"), ("b", "a")] = some clusters' ∧
      (clusters'.map (buildClusterKey id id)).Perm ([["a", "b", "c"]].map (buildClusterKey id id)) := by
  obtain ⟨clusters, hrun, -, -, hother⟩ := buildClusters_components (fun id : String => decide (id = "")) id id
    [("a", "b"), ("b", "c"), ("", "q")]
  have hclusters : clusters = [["a", "b", "c"]] := by
    refine Option.some.inj (hrun.symm.trans ?_)
    decide +kernel
  rw [← hclusters]
  refine hother _ fun a b => ?_
  simp only [List.mem_cons, Prod.mk.injEq, List.not_mem_nil, or_false]
  grind

end PropFirm
