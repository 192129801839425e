import Mathlib.Data.List.Basic
import Mathlib.Order.Basic

/-!
# Readings of a state that moves on

A history lists the states that a store has gone through, the earliest first, so that a moment is an index
into it. A reading is a value together with the moment it was read at, however long it is kept or handed
around after that. A floor is a moment that no reading handed out from now on may be older than.
-/

namespace Timeline

variable {σ α β : Type*}

structure Reading (α : Type*) where
  value : α
  time : Nat
  deriving DecidableEq

/-- At some moment from `floor` on. -/
def Since (history : List σ) (floor : Nat) (p : σ → Prop) : Prop := ∃ s ∈ history.drop floor, p s

/-- What `view` showed at a moment from `floor` on. -/
def Reading.Of (view : σ → α) (history : List σ) (floor : Nat) (r : Reading α) : Prop :=
  floor ≤ r.time ∧ ∃ s ∈ history[r.time]?, view s = r.value

variable {history : List σ} {floor earlier : Nat} {p : σ → Prop} {view : σ → α} {r : Reading α}

instance [DecidablePred p] : Decidable (Since history floor p) :=
  inferInstanceAs (Decidable (∃ s ∈ history.drop floor, p s))

theorem Since.append (hsince : Since history floor p) (s : σ) : Since (history ++ [s]) floor p := by
  obtain ⟨s', hs', hp⟩ := hsince
  refine ⟨s', ?_, hp⟩
  rw [List.drop_append]
  exact List.mem_append_left _ hs'

theorem Since.lower (hsince : Since history floor p) (hle : earlier ≤ floor) : Since history earlier p := by
  obtain ⟨s, hs, hp⟩ := hsince
  exact ⟨s, List.drop_subset_drop_left history hle hs, hp⟩

theorem getElem?_append {n : Nat} {s : σ} (hs : s ∈ history[n]?) (s' : σ) :
    s ∈ (history ++ [s'])[n]? := by
  obtain ⟨hn, _⟩ := List.getElem?_eq_some_iff.mp hs
  exact (List.getElem?_append_left hn).trans hs

theorem Reading.Of.append (hof : r.Of view history floor) (s : σ) : r.Of view (history ++ [s]) floor := by
  obtain ⟨hle, s', hs', hview⟩ := hof
  exact ⟨hle, s', getElem?_append hs' s, hview⟩

theorem Reading.Of.lower (hof : r.Of view history floor) (hle : earlier ≤ floor) :
    r.Of view history earlier :=
  ⟨Nat.le_trans hle hof.1, hof.2⟩

theorem Reading.Of.raise {floor' : Nat} (hof : r.Of view history floor) (hle : floor' ≤ r.time) :
    r.Of view history floor' :=
  ⟨hle, hof.2⟩

/-- Part of what was read. -/
theorem Reading.Of.map (hof : r.Of view history floor) (f : α → β) :
    (⟨f r.value, r.time⟩ : Reading β).Of (fun s => f (view s)) history floor := by
  obtain ⟨hle, s, hs, hview⟩ := hof
  exact ⟨hle, s, hs, congrArg f hview⟩

theorem Reading.Of.since (hof : r.Of view history floor) :
    Since history floor fun s => view s = r.value := by
  obtain ⟨hle, s, hs, hview⟩ := hof
  refine ⟨s, List.mem_of_getElem? (i := r.time - floor) ?_, hview⟩
  rw [List.getElem?_drop, Nat.add_sub_cancel' hle]
  exact hs

/-- The latest state, read now. -/
theorem Reading.of_last (past : List σ) (s : σ) (hle : floor ≤ past.length) :
    (⟨view s, past.length⟩ : Reading α).Of view (past ++ [s]) floor :=
  ⟨hle, s, List.getElem?_concat_length, rfl⟩

/-- Of a key that never falls, a value seen since a moment is at least the one it had then. -/
theorem Since.le_of_ordered [Preorder α] {key : σ → α} {value : α}
    (hordered : history.Pairwise fun s s' => key s ≤ key s')
    (hsince : Since history floor fun s => key s = value) : ∀ s ∈ history[floor]?, key s ≤ value := by
  intro s hs
  obtain ⟨s', hs', rfl⟩ := hsince
  obtain ⟨hfloor, rfl⟩ := List.getElem?_eq_some_iff.mp hs
  have hdrop := hordered.sublist (List.drop_sublist floor history)
  rw [List.drop_eq_getElem_cons hfloor] at hs' hdrop
  rcases List.mem_cons.mp hs' with rfl | hlater
  · exact le_rfl
  · exact (List.pairwise_cons.mp hdrop).1 s' hlater

end Timeline
