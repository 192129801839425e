import Mathlib.Data.Set.Basic

/-!
# Batched service of requests

Requests hand items to a worker, and the worker starts batches of them. A history records both, latest
event first. An item is outstanding while no batch started after it was handed over holds it, so that a
worker loses nothing as long as whatever is outstanding waits in its queue.
-/

namespace Batching

variable {α : Type*}

inductive Event (α : Type*)
  | passed (items : List α)
  | started (batch : List α)
  deriving DecidableEq

/-- The items handed over that no batch started since holds. -/
def Outstanding : List (Event α) → Set α
  | [] => ∅
  | .passed items :: earlier => {a | a ∈ items} ∪ Outstanding earlier
  | .started batch :: earlier => Outstanding earlier \ {a | a ∈ batch}

/-- Every item handed over is in a batch started later. -/
def Served (history : List (Event α)) : Prop :=
  ∀ later earlier items, history = later ++ .passed items :: earlier →
    ∀ a ∈ items, ∃ batch, .started batch ∈ later ∧ a ∈ batch

variable {history : List (Event α)} {items batch queue : List α} {a : α}

@[simp]
theorem mem_outstanding_passed :
    a ∈ Outstanding (.passed items :: history) ↔ a ∈ items ∨ a ∈ Outstanding history := Iff.rfl

@[simp]
theorem mem_outstanding_started :
    a ∈ Outstanding (.started batch :: history) ↔ a ∈ Outstanding history ∧ a ∉ batch := Iff.rfl

theorem mem_outstanding_iff :
    a ∈ Outstanding history ↔ ∃ later earlier items, history = later ++ .passed items :: earlier ∧
      a ∈ items ∧ ∀ batch, .started batch ∈ later → a ∉ batch := by
  induction history with
  | nil => simp [Outstanding]
  | cons event history ih =>
    constructor
    · cases event with
      | passed items =>
        rintro (hmem | hmem)
        · exact ⟨[], history, items, rfl, hmem, by simp⟩
        · obtain ⟨later, earlier, items', rfl, hitem, hnone⟩ := ih.mp hmem
          exact ⟨.passed items :: later, earlier, items', rfl, hitem, by simpa using hnone⟩
      | started batch =>
        rintro ⟨hmem, hbatch⟩
        obtain ⟨later, earlier, items', rfl, hitem, hnone⟩ := ih.mp hmem
        refine ⟨.started batch :: later, earlier, items', rfl, hitem, fun batch' hbatch' => ?_⟩
        rcases List.mem_cons.mp hbatch' with heq | hlater
        · rwa [Event.started.inj heq]
        · exact hnone batch' hlater
    · rintro ⟨later, earlier, items, hsplit, hitem, hnone⟩
      cases later with
      | nil =>
        obtain ⟨rfl, rfl⟩ := List.cons.inj hsplit
        exact .inl hitem
      | cons event' later =>
        obtain ⟨rfl, rfl⟩ := List.cons.inj hsplit
        have hmem := ih.mpr ⟨later, earlier, items, rfl, hitem, fun batch hbatch =>
          hnone batch (List.mem_cons_of_mem _ hbatch)⟩
        cases event with
        | passed items' => exact .inr hmem
        | started batch' => exact ⟨hmem, hnone batch' List.mem_cons_self⟩

/-- What was handed over and is in no later batch waits in the queue. -/
theorem served_or_mem_iff (queue : List α) :
    (∀ later earlier items, history = later ++ .passed items :: earlier →
        ∀ a ∈ items, (∃ batch, .started batch ∈ later ∧ a ∈ batch) ∨ a ∈ queue)
      ↔ ∀ a ∈ Outstanding history, a ∈ queue := by
  constructor
  · intro hserved a hmem
    obtain ⟨later, earlier, items, hsplit, hitem, hnone⟩ := mem_outstanding_iff.mp hmem
    rcases hserved later earlier items hsplit a hitem with ⟨batch, hbatch, ha⟩ | hqueue
    · exact absurd ha (hnone batch hbatch)
    · exact hqueue
  · intro hqueue later earlier items hsplit a hitem
    by_cases hstarted : ∃ batch, .started batch ∈ later ∧ a ∈ batch
    · exact .inl hstarted
    · push Not at hstarted
      exact .inr (hqueue a (mem_outstanding_iff.mpr ⟨later, earlier, items, hsplit, hitem, hstarted⟩))

theorem served_iff : Served history ↔ ∀ a, a ∉ Outstanding history := by
  have hiff := @served_or_mem_iff _ history []
  simpa only [Served, List.not_mem_nil, or_false] using hiff

/-- A batch that holds the whole queue serves everything. -/
theorem Served.of_started (hqueue : ∀ a ∈ Outstanding history, a ∈ batch) :
    Served (.started batch :: history) :=
  served_iff.mpr fun a hmem => hmem.2 (hqueue a hmem.1)

end Batching
