import Mathlib.Data.List.Infix

/-!
# A log whose latest entries may still be withdrawn

A log is kept latest entry first. An entry is its writer's until the writer confirms or withdraws all it
wrote. As long as every entry is written on top of one that is confirmed or the same writer's, what is
confirmed is the log without some of its latest entries, and has every property that such an end of the
log inherits: that of being a chain, for one.
-/

namespace ProvisionalLog

variable {W β η : Type*}

/-- Each entry with its writer, if it is not confirmed. -/
abbrev Log (W β : Type*) := List (Option W × β)

def entries (log : Log W β) : List β := log.map Prod.snd

def confirmed (log : Log W β) : List β := (log.filter fun e => e.1.isNone).map Prod.snd

def confirm [DecidableEq W] (w : W) (log : Log W β) : Log W β :=
  log.map fun e => if e.1 = some w then (none, e.2) else e

def withdraw [DecidableEq W] (w : W) (log : Log W β) : Log W β := log.filter fun e => e.1 ≠ some w

/-- The entries that are not confirmed are one writer's, and the latest. -/
def Stacked (log : Log W β) : Prop :=
  ∃ (writer : Option W) (pending settled : List β),
    log = pending.map (Prod.mk writer) ++ settled.map (Prod.mk none)

/-- Every entry carries the tag of the one written before it, and the first one the tag `start`. -/
def Chained (prev tag : β → η) (start : η) : List β → Prop
  | [] => True
  | b :: log => prev b = (log.head?.map tag).getD start ∧ Chained prev tag start log

variable {log : Log W β} {prev tag : β → η} {start : η}

instance Chained.decidable [DecidableEq η] : DecidablePred (Chained prev tag start)
  | [] => .isTrue trivial
  | b :: log =>
    have := Chained.decidable log
    inferInstanceAs (Decidable (prev b = (log.head?.map tag).getD start ∧ _))

theorem Chained.suffix {l l' : List β} (hchain : Chained prev tag start l') (hend : l <:+ l') :
    Chained prev tag start l := by
  induction l' with
  | nil =>
    rw [List.eq_nil_of_suffix_nil hend]
    trivial
  | cons b l' ih =>
    rcases List.suffix_cons_iff.mp hend with rfl | hend
    · exact hchain
    · exact ih hchain.2 hend

theorem Stacked.nil : Stacked ([] : Log W β) := ⟨none, [], [], rfl⟩

/-- An entry goes on top of a confirmed one, or of one by the same writer. -/
theorem Stacked.push {w : W} (hstacked : Stacked log) (htop : ∀ e ∈ log.head?, e.1 = none ∨ e.1 = some w)
    (b : β) : Stacked ((some w, b) :: log) := by
  obtain ⟨writer, pending, settled, rfl⟩ := hstacked
  cases pending with
  | nil => exact ⟨some w, [b], settled, rfl⟩
  | cons p pending =>
    rcases htop (writer, p) rfl with hnone | hown
    · obtain rfl : writer = none := hnone
      exact ⟨some w, [b], p :: pending ++ settled, by rw [List.map_append]; rfl⟩
    · obtain rfl : writer = some w := hown
      exact ⟨some w, b :: p :: pending, settled, rfl⟩

theorem filter_stacked (p : Option W → Bool) (writer : Option W) (pending settled : List β)
    (hnone : p none = true) :
    (pending.map (Prod.mk writer) ++ settled.map (Prod.mk none)).filter (fun e => p e.1) =
      (if p writer then pending else []).map (Prod.mk writer) ++ settled.map (Prod.mk none) := by
  rw [List.filter_append, List.filter_map, List.filter_map]
  congr 1
  · by_cases hp : p writer = true
    · exact congrArg _ ((List.filter_eq_self.mpr fun _ _ => hp).trans (if_pos hp).symm)
    · exact congrArg _ ((List.filter_eq_nil_iff.mpr fun _ _ => hp).trans (if_neg hp).symm)
  · exact congrArg _ (List.filter_eq_self.mpr fun _ _ => hnone)

theorem entries_stacked (writer : Option W) (pending settled : List β) :
    entries (pending.map (Prod.mk writer) ++ settled.map (Prod.mk none)) = pending ++ settled := by
  simp [entries, Function.comp_def]

/-- What is confirmed is the log without some of its latest entries. -/
theorem Stacked.confirmed_suffix (hstacked : Stacked log) : confirmed log <:+ entries log := by
  obtain ⟨writer, pending, settled, rfl⟩ := hstacked
  rw [confirmed, filter_stacked _ _ _ _ rfl, ← entries, entries_stacked, entries_stacked]
  split
  · exact List.suffix_rfl
  · exact List.suffix_append _ _

variable [DecidableEq W]

theorem Stacked.withdraw (hstacked : Stacked log) (w : W) :
    Stacked (withdraw w log) ∧ entries (withdraw w log) <:+ entries log := by
  obtain ⟨writer, pending, settled, rfl⟩ := hstacked
  rw [ProvisionalLog.withdraw, filter_stacked (· ≠ some w) _ _ _ (by simp)]
  refine ⟨⟨writer, _, settled, rfl⟩, ?_⟩
  rw [entries_stacked, entries_stacked]
  split
  · exact List.suffix_rfl
  · exact List.suffix_append _ _

theorem entries_confirm (w : W) (log : Log W β) : entries (confirm w log) = entries log := by
  rw [entries, confirm, List.map_map]
  refine List.map_congr_left fun e _ => ?_
  dsimp only [Function.comp_apply]
  split <;> rfl

theorem Stacked.confirm (hstacked : Stacked log) (w : W) : Stacked (confirm w log) := by
  obtain ⟨writer, pending, settled, rfl⟩ := hstacked
  refine ⟨if writer = some w then none else writer, pending, settled, ?_⟩
  rw [ProvisionalLog.confirm, List.map_append, List.map_map, List.map_map]
  congr 1
  refine List.map_congr_left fun b _ => ?_
  dsimp only [Function.comp_apply]
  split <;> rfl

end ProvisionalLog
