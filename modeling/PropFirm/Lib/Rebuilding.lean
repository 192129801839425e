import PropFirm.Lib.DelayedWrites

/-!
# Rebuilding a replica under its writes

A replica is refilled from a snapshot of its source while the operations that keep it on the source go
on. Every change of the source leaves operations outstanding, which reach the replica later.

`Brackets` bounds the source on both sides: what the replica has for certain and what it may come to
have, each after the outstanding operations. A change of the source and an operation that lands keep the
bounds, whatever they are. New bounds need to be right at the keys without an outstanding operation only,
since on the others the operations decide.
-/

namespace DelayedWrites

variable {K : Type*}

def Op.perform : Op K → Set K → Set K
  | .put k, s => insert k s
  | .drop k, s => s \ {k}

/-- What operations leave of a set, the first of the list performed first. -/
def after (ops : List (Op K)) (s : Set K) : Set K := ops.foldl (fun s op => op.perform s) s

structure Brackets (lower source upper : Set K) (ops : List (Op K)) : Prop where
  sound : after ops lower ⊆ source
  complete : source ⊆ after ops upper

variable {lower lower' source upper upper' s t : Set K} {ops earlier later : List (Op K)}
  {op : Op K} {k : K}

theorem Op.perform_mono (op : Op K) (hsub : s ⊆ t) : op.perform s ⊆ op.perform t := by
  cases op with
  | put k => exact Set.insert_subset_insert hsub
  | drop k => exact Set.sdiff_subset_sdiff_left hsub

theorem Op.perform_union (op : Op K) (s t : Set K) : op.perform (s ∪ t) ⊆ op.perform s ∪ t := by
  cases op with
  | put k => exact Set.insert_union.symm.subset
  | drop k =>
    rw [perform, Set.union_sdiff_distrib]
    exact Set.union_subset_union_right _ Set.sdiff_subset

theorem after_mono (ops : List (Op K)) (hsub : s ⊆ t) : after ops s ⊆ after ops t := by
  induction ops generalizing s t with
  | nil => exact hsub
  | cons op ops ih => exact ih (op.perform_mono hsub)

theorem after_append (earlier later : List (Op K)) (s : Set K) :
    after (earlier ++ later) s = after later (after earlier s) :=
  List.foldl_append

theorem Op.mem_perform_of_ne (hne : op.key ≠ k) : k ∈ op.perform s ↔ k ∈ s := by
  cases op with
  | put l => exact or_iff_right (Ne.symm hne)
  | drop l => exact and_iff_left (Ne.symm hne)

theorem Op.mem_perform_key (op : Op K) (s t : Set K) : op.key ∈ op.perform s ↔ op.key ∈ op.perform t := by
  cases op with
  | put k => exact iff_of_true (.inl rfl) (.inl rfl)
  | drop k => exact iff_of_false (fun h => h.2 rfl) fun h => h.2 rfl

theorem mem_after_of_untouched (huntouched : ∀ op ∈ ops, op.key ≠ k) : k ∈ after ops s ↔ k ∈ s := by
  induction ops generalizing s with
  | nil => exact Iff.rfl
  | cons op ops ih =>
    obtain ⟨hop, hrest⟩ := List.forall_mem_cons.mp huntouched
    exact (ih hrest).trans (Op.mem_perform_of_ne hop)

/-- Where an operation is outstanding, the set it is performed on does not matter. -/
theorem mem_after_of_touched (htouched : ∃ op ∈ ops, op.key = k) : k ∈ after ops s ↔ k ∈ after ops t := by
  induction ops generalizing s t with
  | nil => simp at htouched
  | cons op ops ih =>
    by_cases hrest : ∃ op ∈ ops, op.key = k
    · exact ih hrest
    · have huntouched : ∀ op ∈ ops, op.key ≠ k := fun op hop hkey => hrest ⟨op, hop, hkey⟩
      have hkey : op.key = k := by
        obtain ⟨op', hop', hkey⟩ := htouched
        rcases List.mem_cons.mp hop' with rfl | hmem
        · exact hkey
        · exact absurd hkey (huntouched op' hmem)
      subst hkey
      exact (mem_after_of_untouched huntouched).trans
        ((op.mem_perform_key s t).trans (mem_after_of_untouched huntouched).symm)

/-- Operations on different keys commute. -/
theorem Op.perform_comm {op' : Op K} (hne : op'.key ≠ op.key) (s : Set K) :
    op.perform (op'.perform s) = op'.perform (op.perform s) := by
  ext l
  by_cases hl : op.key = l
  · have hl' : op'.key ≠ l := hl ▸ hne
    rw [mem_perform_of_ne hl', ← hl]
    exact op.mem_perform_key _ _
  · rw [mem_perform_of_ne hl]
    by_cases hl' : op'.key = l
    · rw [← hl']
      exact op'.mem_perform_key _ _
    · rw [mem_perform_of_ne hl', mem_perform_of_ne hl', mem_perform_of_ne hl]

/-- An operation may be performed ahead of those on other keys. -/
theorem after_first (hfirst : ∀ op' ∈ earlier, op'.key ≠ op.key) (s : Set K) :
    after (earlier ++ op :: later) s = after (earlier ++ later) (op.perform s) := by
  have hahead : op.perform (after earlier s) = after earlier (op.perform s) := by
    induction earlier generalizing s with
    | nil => rfl
    | cons op' earlier ih =>
      obtain ⟨hop', hrest⟩ := List.forall_mem_cons.mp hfirst
      rw [after, List.foldl_cons, ← after, ih hrest, Op.perform_comm hop', after, after, List.foldl_cons]
  rw [after_append, after_append, ← hahead]
  rfl

/-! ### Steps -/

theorem Brackets.mono (hbrackets : Brackets lower source upper ops) (hlower : lower' ⊆ lower)
    (hupper : upper ⊆ upper') : Brackets lower' source upper' ops where
  sound := (after_mono ops hlower).trans hbrackets.sound
  complete := hbrackets.complete.trans (after_mono ops hupper)

/-- The source changes by operations that are outstanding from then on. -/
theorem Brackets.change (hbrackets : Brackets lower source upper ops) (later : List (Op K)) :
    Brackets lower (after later source) upper (ops ++ later) := by
  constructor
  · rw [after_append]
    exact after_mono later hbrackets.sound
  · rw [after_append]
    exact after_mono later hbrackets.complete

/-- The first operation outstanding on its key lands. -/
theorem Brackets.land (hbrackets : Brackets lower source upper (earlier ++ op :: later))
    (hfirst : ∀ op' ∈ earlier, op'.key ≠ op.key) (hlower : lower' ⊆ op.perform lower)
    (hupper : op.perform upper ⊆ upper') : Brackets lower' source upper' (earlier ++ later) := by
  obtain ⟨hsound, hcomplete⟩ := hbrackets
  rw [after_first hfirst] at hsound hcomplete
  exact Brackets.mono ⟨hsound, hcomplete⟩ hlower hupper

/-- New bounds are judged at the keys on which nothing is outstanding. -/
theorem Brackets.rebound (hbrackets : Brackets lower source upper ops)
    (hlower : ∀ k ∈ lower', (∀ op ∈ ops, op.key ≠ k) → k ∈ source)
    (hupper : ∀ k ∈ source, (∀ op ∈ ops, op.key ≠ k) → k ∈ upper') :
    Brackets lower' source upper' ops where
  sound := by
    intro k hk
    by_cases htouched : ∃ op ∈ ops, op.key = k
    · exact hbrackets.sound ((mem_after_of_touched htouched).mp hk)
    · have huntouched : ∀ op ∈ ops, op.key ≠ k := fun op hop hkey => htouched ⟨op, hop, hkey⟩
      exact hlower k ((mem_after_of_untouched huntouched).mp hk) huntouched
  complete := by
    intro k hk
    by_cases htouched : ∃ op ∈ ops, op.key = k
    · exact (mem_after_of_touched htouched).mp (hbrackets.complete hk)
    · have huntouched : ∀ op ∈ ops, op.key ≠ k := fun op hop hkey => htouched ⟨op, hop, hkey⟩
      exact (mem_after_of_untouched huntouched).mpr (hupper k hk huntouched)

theorem Brackets.lower_settled (hbrackets : Brackets lower source upper ops) (hk : k ∈ lower)
    (huntouched : ∀ op ∈ ops, op.key ≠ k) : k ∈ source :=
  hbrackets.sound ((mem_after_of_untouched huntouched).mpr hk)

theorem Brackets.upper_settled (hbrackets : Brackets lower source upper ops) (hk : k ∈ source)
    (huntouched : ∀ op ∈ ops, op.key ≠ k) : k ∈ upper :=
  (mem_after_of_untouched huntouched).mp (hbrackets.complete hk)

end DelayedWrites
