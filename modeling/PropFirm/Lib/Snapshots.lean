import Mathlib

/-!
# Successive snapshots

A store is replaced as a whole, each time with a report of the keys that changed. A log holds the snapshots
and their reports, the newest first, and `start` is the state before the first one.

`Forward` says that no key ever gets an older value than it had in any earlier snapshot, with the snapshots
between them in which it has none. `Reported` says that each report names what changed between the two
snapshots around it; `count_reports` is its form for one key over the whole log.
-/

namespace Snapshots

variable {σ κ β τ : Type*}

def Forward [LE τ] (view : σ → κ → Option β) (stamp : β → τ) (snapshots : List σ) : Prop :=
  snapshots.Pairwise fun newer older =>
    ∀ k, ∀ value ∈ view newer k, ∀ value' ∈ view older k, stamp value' ≤ stamp value

def latest (start : σ) : List (σ × List κ) → σ
  | [] => start
  | (s, _) :: _ => s

/-- Each snapshot after the one it replaces, with its report. -/
def transitions (start : σ) : List (σ × List κ) → List (σ × σ × List κ)
  | [] => []
  | (s, report) :: log => (latest start log, s, report) :: transitions start log

def Reported (changed : σ → σ → κ → Prop) (start : σ) (log : List (σ × List κ)) : Prop :=
  ∀ t ∈ transitions start log, t.2.2.Nodup ∧ ∀ k, k ∈ t.2.2 ↔ changed t.1 t.2.1 k

variable {view : σ → κ → Option β} {stamp : β → τ} {changed : σ → σ → κ → Prop}
  {start s : σ} {log : List (σ × List κ)} {report : List κ}

theorem Forward.cons [LE τ] {snapshots : List σ} (hforward : Forward view stamp snapshots)
    (hs : ∀ older ∈ snapshots, ∀ k, ∀ value ∈ view s k, ∀ value' ∈ view older k, stamp value' ≤ stamp value) :
    Forward view stamp (s :: snapshots) :=
  List.pairwise_cons.mpr ⟨hs, hforward⟩

/-- To keep the snapshot there is does not go back. -/
theorem Forward.again [Preorder τ] {snapshots : List σ} (hforward : Forward view stamp (s :: snapshots)) :
    Forward view stamp (s :: s :: snapshots) := by
  refine hforward.cons fun older holder k value hvalue value' hvalue' => ?_
  rcases List.mem_cons.mp holder with rfl | holder
  · rw [Option.mem_unique hvalue hvalue']
  · exact (List.pairwise_cons.mp hforward).1 older holder k value hvalue value' hvalue'

theorem Reported.cons (hlog : Reported changed start log) (hnodup : report.Nodup)
    (hreport : ∀ k, k ∈ report ↔ changed (latest start log) s k) :
    Reported changed start ((s, report) :: log) := by
  intro t ht
  rcases List.mem_cons.mp ht with rfl | ht
  · exact ⟨hnodup, hreport⟩
  · exact hlog t ht

/-- Over the whole log a key is reported as often as it changed. -/
theorem count_reports [DecidableEq κ] [∀ s s', DecidablePred (changed s s')]
    (hlog : Reported changed start log) (k : κ) :
    (log.map fun entry => entry.2.count k).sum =
      (transitions start log).countP fun t => changed t.1 t.2.1 k := by
  induction log with
  | nil => rfl
  | cons entry log ih =>
    obtain ⟨s, report⟩ := entry
    obtain ⟨hnodup, hreport⟩ := hlog _ List.mem_cons_self
    have hrest := ih fun t ht => hlog t (List.mem_cons_of_mem _ ht)
    rw [List.map_cons, List.sum_cons, hrest, transitions, List.countP_cons, hnodup.count, Nat.add_comm]
    simp only [hreport, decide_eq_true_eq]

end Snapshots
