import Mathlib.Logic.Function.Basic

/-!
# Locks held by sessions

A lock belongs to the session that took it and not to a transaction: the session may take it again, it
keeps it until it has given it back as often, and it loses all its locks when it ends. One session holds
a key at a time, whatever is done.
-/

/-- The holder of a key, who has taken it `again` more times than once. -/
structure SessionLock (S : Type*) where
  session : S
  again : Nat

abbrev SessionLocks (K S : Type*) := K → Option (SessionLock S)

namespace SessionLocks

variable {K S : Type*}

def empty : SessionLocks K S := fun _ => none

variable [DecidableEq S]

def timesBy (s : S) : Option (SessionLock S) → Nat
  | some h => if h.session = s then h.again + 1 else 0
  | none => 0

/-- How often `s` has taken `k`. -/
def times (l : SessionLocks K S) (k : K) (s : S) : Nat := timesBy s (l k)

/-- A session that ends loses its locks. -/
def drop (l : SessionLocks K S) (ended : S → Bool) : SessionLocks K S :=
  fun k => (l k).filter fun h => !ended h.session

variable [DecidableEq K]

/-- Refused when another session holds the key. -/
def tryLock (l : SessionLocks K S) (k : K) (s : S) : Option (SessionLocks K S) :=
  match l k with
  | none => some (Function.update l k (some ⟨s, 0⟩))
  | some h => if h.session = s then some (Function.update l k (some ⟨s, h.again + 1⟩)) else none

/-- Giving back what one does not hold changes nothing. -/
def unlock (l : SessionLocks K S) (k : K) (s : S) : SessionLocks K S :=
  match l k with
  | none => l
  | some h =>
    if h.session = s then
      Function.update l k (if h.again = 0 then none else some ⟨s, h.again - 1⟩)
    else l

variable {l l' : SessionLocks K S} {k k' : K} {s s' : S}

omit [DecidableEq K] in
theorem times_eq_zero_of_none (hnone : l k = none) (s : S) : l.times k s = 0 := by
  rw [times, hnone, timesBy]

omit [DecidableEq K] in
theorem times_of_some {h : SessionLock S} (hsome : l k = some h) (s : S) :
    l.times k s = if h.session = s then h.again + 1 else 0 := by
  rw [times, hsome, timesBy]

omit [DecidableEq K] in
@[simp] theorem times_empty (k : K) (s : S) : (empty : SessionLocks K S).times k s = 0 :=
  times_eq_zero_of_none rfl s

omit [DecidableEq K] in
/-- A key has one holder. -/
theorem times_exclusive (hheld : l.times k s ≠ 0) (hheld' : l.times k s' ≠ 0) : s = s' := by
  cases hlock : l k with
  | none => exact absurd (times_eq_zero_of_none hlock s) hheld
  | some h =>
    rw [times_of_some hlock] at hheld hheld'
    have hs : h.session = s := of_not_not fun hne => hheld (if_neg hne)
    have hs' : h.session = s' := of_not_not fun hne => hheld' (if_neg hne)
    exact hs.symm.trans hs'

omit [DecidableEq K] in
theorem times_drop (l : SessionLocks K S) (ended : S → Bool) (k : K) (s : S) :
    (l.drop ended).times k s = if ended s then 0 else l.times k s := by
  rw [times, drop, times]
  cases l k with
  | none => exact (ite_self 0).symm
  | some h =>
    rw [Option.filter_some]
    by_cases hs : h.session = s
    · subst hs
      by_cases hended : ended h.session
      · rw [if_neg (by simpa using hended), if_pos hended, timesBy]
      · rw [if_pos (by simpa using hended), if_neg hended]
    · rw [timesBy, if_neg hs, ite_self]
      split
      · rw [timesBy, if_neg hs]
      · rw [timesBy]

theorem times_update (h : Option (SessionLock S)) :
    times (Function.update l k h) k' s = if k' = k then timesBy s h else l.times k' s := by
  by_cases hk : k' = k
  · subst hk
    rw [if_pos rfl, times, Function.update_self]
  · rw [if_neg hk, times, times, Function.update_of_ne hk]

/-- A key can be taken unless somebody else holds it, and it is then held once more. -/
theorem tryLock_isSome_iff : (l.tryLock k s).isSome ↔ ∀ s', l.times k s' ≠ 0 → s' = s := by
  rw [tryLock]
  cases hlock : l k with
  | none => simp [times_eq_zero_of_none hlock]
  | some h =>
    dsimp only
    simp only [times_of_some hlock]
    by_cases hs : h.session = s
    · rw [if_pos hs]
      refine iff_of_true rfl fun s' hheld => ?_
      by_contra hne
      exact hheld (if_neg fun hs' => hne (hs'.symm.trans hs))
    · rw [if_neg hs]
      refine iff_of_false (by simp) fun hall => hs (hall h.session ?_)
      rw [if_pos rfl]
      exact Nat.succ_ne_zero _

theorem times_tryLock (hlock : l.tryLock k s = some l') (k' : K) (s' : S) :
    l'.times k' s' = l.times k' s' + if k' = k ∧ s' = s then 1 else 0 := by
  have hother : ∀ h, k' ≠ k → times (Function.update l k h) k' s' =
      l.times k' s' + if k' = k ∧ s' = s then 1 else 0 := by
    intro h hk
    rw [times_update, if_neg hk, if_neg fun hboth => hk hboth.1, Nat.add_zero]
  rw [tryLock] at hlock
  cases hholder : l k with
  | none =>
    rw [hholder] at hlock
    obtain rfl := Option.some.inj hlock
    by_cases hk : k' = k
    · rw [times_update, if_pos hk, hk, times_eq_zero_of_none hholder, timesBy]
      simp only [true_and, eq_comm (a := s), Nat.zero_add]
    · exact hother _ hk
  | some h =>
    simp only [hholder] at hlock
    split at hlock
    · next hs =>
      obtain rfl := Option.some.inj hlock
      by_cases hk : k' = k
      · rw [times_update, if_pos hk, hk, times_of_some hholder, timesBy, hs]
        simp only [true_and, eq_comm (a := s)]
        split
        · rfl
        · rfl
      · exact hother _ hk
    · cases hlock

theorem times_unlock (l : SessionLocks K S) (k k' : K) (s s' : S) :
    (l.unlock k s).times k' s' = l.times k' s' - if k' = k ∧ s' = s then 1 else 0 := by
  rw [unlock]
  cases hholder : l k with
  | none =>
    dsimp only
    by_cases hk : k' = k
    · rw [hk, times_eq_zero_of_none hholder, Nat.zero_sub]
    · rw [if_neg fun hboth => hk hboth.1, Nat.sub_zero]
  | some h =>
    dsimp only
    by_cases hs : h.session = s
    · rw [if_pos hs, times_update]
      by_cases hk : k' = k
      · rw [if_pos hk, hk, times_of_some hholder, hs]
        simp only [true_and, eq_comm (a := s')]
        by_cases hagain : h.again = 0
        · rw [if_pos hagain, timesBy, hagain]
          split <;> rfl
        · rw [if_neg hagain, timesBy]
          dsimp only
          split
          · omega
          · rfl
      · rw [if_neg hk, if_neg fun hboth => hk hboth.1, Nat.sub_zero]
    · rw [if_neg hs]
      split
      · next hboth =>
        rw [hboth.1, times_of_some hholder, if_neg fun heq => hs (heq.trans hboth.2)]
      · rfl

end SessionLocks
