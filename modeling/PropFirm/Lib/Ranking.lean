import Mathlib.Data.List.MinMax
import Mathlib.Data.List.Nodup

/-!
# First rows of a partition

Rows are partitioned by a key and ranked inside their part. With distinct ranks every part has exactly one
first row. An update that gives the first rows new ranks leaves a part's first row in front exactly as long
as its new rank is below the second row's, and else puts the second row there.
-/

namespace Ranking

variable {ρ κ ι : Type*} [DecidableEq κ] [LinearOrder ι]

section Defs

variable (key : ρ → κ) (rank : ρ → ι) (rows : List ρ)

/-- `ROW_NUMBER() OVER (PARTITION BY key ORDER BY rank) = 1`. -/
def IsFirst (r : ρ) : Prop := ∀ s ∈ rows, key s = key r → rank r ≤ rank s

instance (r : ρ) : Decidable (IsFirst key rank rows r) := inferInstanceAs (Decidable (∀ s ∈ rows, _))

/-- The row of rank two in the part of the first row `f`. -/
def IsSecond (f g : ρ) : Prop :=
  g ∈ rows ∧ rank g ≠ rank f ∧ key g = key f ∧
    ∀ s ∈ rows, rank s ≠ rank f → key s = key f → rank g ≤ rank s

def firsts : List ρ := rows.filter fun r => IsFirst key rank rows r

/-- Only the first rows are rewritten. -/
def rewriteFirsts (f : ρ → ρ) : List ρ := rows.map fun r => if IsFirst key rank rows r then f r else r

end Defs

variable {key : ρ → κ} {rank : ρ → ι} {rows : List ρ} {f g r : ρ} {move : ρ → ρ}

theorem exists_first (hr : r ∈ rows) : ∃ f ∈ rows, key f = key r ∧ IsFirst key rank rows f := by
  have hmem : r ∈ rows.filter fun s => key s = key r := List.mem_filter.mpr ⟨hr, decide_eq_true rfl⟩
  cases hmin : (rows.filter fun s => key s = key r).argmin rank with
  | none =>
    rw [List.argmin_eq_none.mp hmin] at hmem
    exact absurd hmem List.not_mem_nil
  | some f =>
    obtain ⟨hf, hkey⟩ := List.mem_filter.mp (List.argmin_mem hmin)
    have hkey := of_decide_eq_true hkey
    refine ⟨f, hf, hkey, fun s hs hsame => ?_⟩
    exact List.le_of_mem_argmin (List.mem_filter.mpr ⟨hs, decide_eq_true (hsame.trans hkey)⟩) hmin

/-- A part with another row than its first has a second row. -/
theorem exists_second {s : ρ} (hs : s ∈ rows) (hrank : rank s ≠ rank f) (hkey : key s = key f) :
    ∃ g, IsSecond key rank rows f g := by
  have hmem : s ∈ rows.filter fun r => rank r ≠ rank f := List.mem_filter.mpr ⟨hs, decide_eq_true hrank⟩
  obtain ⟨g, hg, hsame, hfirst⟩ : ∃ g ∈ rows.filter fun r => rank r ≠ rank f, key g = key s ∧
    IsFirst key rank (rows.filter fun r => rank r ≠ rank f) g := exists_first hmem
  obtain ⟨hgrow, hgrank⟩ := List.mem_filter.mp hg
  refine ⟨g, hgrow, of_decide_eq_true hgrank, hsame.trans hkey, fun r hr hne hsame' => ?_⟩
  exact hfirst r (List.mem_filter.mpr ⟨hr, decide_eq_true hne⟩) (hsame'.trans (hsame.trans hkey).symm)

omit [DecidableEq κ] in
theorem IsFirst.unique (hranks : (rows.map rank).Nodup) (hf : f ∈ rows) (hg : g ∈ rows)
    (hfirst : IsFirst key rank rows f) (hfirst' : IsFirst key rank rows g) (hkey : key f = key g) : f = g :=
  List.inj_on_of_nodup_map hranks hf hg ((hfirst g hg hkey.symm).antisymm (hfirst' f hf hkey))

/-- A part keeps its first row and no other. -/
theorem filter_firsts (hranks : (rows.map rank).Nodup) (hf : f ∈ rows) (hfirst : IsFirst key rank rows f) :
    (firsts key rank rows).filter (fun r => key r = key f) = [f] := by
  have hmem : f ∈ (firsts key rank rows).filter fun r => key r = key f :=
    List.mem_filter.mpr ⟨List.mem_filter.mpr ⟨hf, decide_eq_true hfirst⟩, decide_eq_true rfl⟩
  have hall : ∀ r ∈ (firsts key rank rows).filter fun r => key r = key f, r = f := by
    intro r hr
    obtain ⟨hr, hkey⟩ := List.mem_filter.mp hr
    obtain ⟨hr, hrfirst⟩ := List.mem_filter.mp hr
    exact (of_decide_eq_true hrfirst).unique hranks hr hf hfirst (of_decide_eq_true hkey)
  have hnodup := ((List.Nodup.of_map rank hranks).filter fun r => decide (IsFirst key rank rows r)).filter
    fun r => decide (key r = key f)
  have hreplicate := List.eq_replicate_of_mem hall
  change ((firsts key rank rows).filter fun r => key r = key f).Nodup at hnodup
  rw [hreplicate, List.nodup_replicate] at hnodup
  have hlength := le_antisymm hnodup (List.length_pos_of_mem hmem)
  rw [hreplicate, hlength]
  rfl

theorem nodup_key_firsts (hranks : (rows.map rank).Nodup) : ((firsts key rank rows).map key).Nodup := by
  refine List.Nodup.map_on ?_ ((List.Nodup.of_map rank hranks).filter _)
  intro r hr s hs hkey
  obtain ⟨hr, hrfirst⟩ := List.mem_filter.mp hr
  obtain ⟨hs, hsfirst⟩ := List.mem_filter.mp hs
  exact (of_decide_eq_true hrfirst).unique hranks hr hs (of_decide_eq_true hsfirst) hkey

omit [DecidableEq κ] in
/-- Where no two rows have the same key, every row is first. -/
theorem isFirst_of_nodup_key (hkeys : (rows.map key).Nodup) (hr : r ∈ rows) : IsFirst key rank rows r :=
  fun _ hs hsame => (congrArg rank (List.inj_on_of_nodup_map hkeys hr hs hsame.symm)).le

/-! ### Moving the first rows -/

omit [DecidableEq κ] in
theorem not_isFirst_of_second (hf : IsFirst key rank rows f) (hfrow : f ∈ rows)
    (hsecond : IsSecond key rank rows f g) : ¬ IsFirst key rank rows g := fun hfirst =>
  hsecond.2.1 ((hfirst f hfrow hsecond.2.2.1.symm).antisymm (hf g hsecond.1 hsecond.2.2.1))

theorem mem_rewriteFirsts_second (hf : IsFirst key rank rows f) (hfrow : f ∈ rows)
    (hsecond : IsSecond key rank rows f g) : g ∈ rewriteFirsts key rank rows move :=
  List.mem_map.mpr ⟨g, hsecond.1, if_neg (not_isFirst_of_second hf hfrow hsecond)⟩

theorem mem_rewriteFirsts_first (hf : IsFirst key rank rows f) (hfrow : f ∈ rows) :
    move f ∈ rewriteFirsts key rank rows move :=
  List.mem_map.mpr ⟨f, hfrow, if_pos hf⟩

theorem key_rewriteFirsts (hkey : ∀ r, key (move r) = key r) (r : ρ) :
    key (if IsFirst key rank rows r then move r else r) = key r := by
  split
  · exact hkey r
  · rfl

theorem isFirst_moved (hranks : (rows.map rank).Nodup) (hkey : ∀ r, key (move r) = key r) (hfrow : f ∈ rows)
    (hf : IsFirst key rank rows f)
    (hbefore : ∀ g, IsSecond key rank rows f g → rank (move f) < rank g) :
    IsFirst key rank (rewriteFirsts key rank rows move) (move f) := by
  intro s' hs' hsame
  obtain ⟨s, hs, rfl⟩ := List.mem_map.mp hs'
  rw [key_rewriteFirsts hkey, hkey] at hsame
  by_cases hfirst : IsFirst key rank rows s
  · obtain rfl := hfirst.unique hranks hs hfrow hf hsame
    rw [if_pos hfirst]
  · rw [if_neg hfirst]
    have hother : rank s ≠ rank f := fun hrank => hfirst (List.inj_on_of_nodup_map hranks hs hfrow hrank ▸ hf)
    obtain ⟨g, hg⟩ := exists_second hs hother hsame
    exact (hbefore g hg).le.trans (hg.2.2.2 s hs hother hsame)

theorem isFirst_second (hranks : (rows.map rank).Nodup) (hkey : ∀ r, key (move r) = key r) (hfrow : f ∈ rows)
    (hf : IsFirst key rank rows f) (hsecond : IsSecond key rank rows f g) (hafter : rank g < rank (move f)) :
    IsFirst key rank (rewriteFirsts key rank rows move) g := by
  intro s' hs' hsame
  obtain ⟨s, hs, rfl⟩ := List.mem_map.mp hs'
  rw [key_rewriteFirsts hkey, hsecond.2.2.1] at hsame
  by_cases hfirst : IsFirst key rank rows s
  · obtain rfl := hfirst.unique hranks hs hfrow hf hsame
    rw [if_pos hfirst]
    exact hafter.le
  · rw [if_neg hfirst]
    have hother : rank s ≠ rank f := fun hrank => hfirst (List.inj_on_of_nodup_map hranks hs hfrow hrank ▸ hf)
    exact hsecond.2.2.2 s hs hother hsame

/-- New ranks that are distinct and not in use leave all ranks distinct. -/
theorem nodup_rewriteFirsts (hranks : (rows.map rank).Nodup)
    (hinj : ∀ r ∈ rows, ∀ s ∈ rows, rank (move r) = rank (move s) → r = s)
    (hfresh : ∀ r ∈ rows, ∀ s ∈ rows, rank (move r) ≠ rank s) :
    ((rewriteFirsts key rank rows move).map rank).Nodup := by
  rw [rewriteFirsts, List.map_map]
  refine List.Nodup.map_on ?_ (List.Nodup.of_map rank hranks)
  intro r hr s hs hsame
  simp only [Function.comp_apply] at hsame
  by_cases hfirst : IsFirst key rank rows r
  · rw [if_pos hfirst] at hsame
    by_cases hfirst' : IsFirst key rank rows s
    · rw [if_pos hfirst'] at hsame
      exact hinj r hr s hs hsame
    · rw [if_neg hfirst'] at hsame
      exact absurd hsame (hfresh r hr s hs)
  · rw [if_neg hfirst] at hsame
    by_cases hfirst' : IsFirst key rank rows s
    · rw [if_pos hfirst'] at hsame
      exact absurd hsame.symm (hfresh s hs r hr)
    · rw [if_neg hfirst'] at hsame
      exact List.inj_on_of_nodup_map hranks hr hs hsame

end Ranking
