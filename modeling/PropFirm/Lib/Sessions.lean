import Mathlib.Logic.Function.Basic
import PropFirm.Lib.Table
import PropFirm.Lib.Transition

/-!
# Database sessions

Transactions that run query by query, interleaved with any number of others. A transaction locks its
row, skipping what somebody else holds or what does not qualify, then reads and writes, and commits.
What it has written is its own until then: a query that fails, and a program that throws, end the
session and leave nothing behind. A client may lose the answer to a commit; it then sees an error for a
transaction that is done.

Whoever holds the lock stays the only one: an invariant of a session inside its transaction needs its
own queries and the commits under other locks, and nothing else.
-/

namespace Sessions

variable {σ ω κ τ : Type*}

/-- The queries of a transaction after its lock. A read sees the store with the session's own writes. -/
inductive Body (σ ω : Type*)
  | read (next : σ → Body σ ω)
  | write (ws : List ω) (next : Body σ ω)
  | throw
  | commit

/-- Write several times, one query each. -/
def Body.writeAll : List (List ω) → Body σ ω → Body σ ω
  | [], next => next
  | ws :: queries, next => .write ws (writeAll queries next)

/-- A transaction: the lock its first query takes, what the locked row must satisfy, and the rest. -/
structure Transaction (σ ω κ : Type*) where
  lock : κ
  qualifies : σ → Bool
  body : Body σ ω

inductive Session (σ ω : Type*)
  | begun
  | inside (rest : Body σ ω) (writes : List ω)

/-- The committed store, the sessions by their number, who holds a lock, and what has been committed, the
latest first. -/
structure State (σ ω κ τ : Type*) where
  store : σ
  sessions : Nat → Option (τ × Session σ ω)
  holder : κ → Option Nat
  committed : List τ

inductive Action (τ : Type*)
  | start (session : Nat) (call : τ)
  | query (session : Nat) (reply : Table.Reply)

namespace State

def initial (store : σ) : State σ ω κ τ := ⟨store, fun _ => none, fun _ => none, []⟩

/-- The end of a session, with its locks. -/
def finish (w : State σ ω κ τ) (n : Nat) : State σ ω κ τ :=
  { w with
    sessions := Function.update w.sessions n none
    holder := fun key => (w.holder key).filter (· ≠ n) }

def resume (w : State σ ω κ τ) (n : Nat) (call : τ) (session : Session σ ω) : State σ ω κ τ :=
  { w with sessions := Function.update w.sessions n (some (call, session)) }

end State

variable [DecidableEq κ] (apply : σ → ω → Option σ) (transaction : τ → Transaction σ ω κ)

/-- One query that succeeds: what is left to do and what has been written. -/
def Body.advance (store : σ) : Body σ ω → List ω → Option (Body σ ω × List ω)
  | read next, writes => (Transition.run apply store writes).map fun view => (next view, writes)
  | write ws next, writes =>
    (Transition.run apply store (writes ++ ws)).map fun _ => (next, writes ++ ws)
  | throw, _ => none
  | commit, _ => none

/-- The next query of a session, which may fail whatever it is. -/
def step (w : State σ ω κ τ) : Action τ → Option (State σ ω κ τ)
  | .start n call => if (w.sessions n).isSome then none else some (w.resume n call .begun)
  | .query n reply =>
    match w.sessions n with
    | none => none
    | some (call, .begun) =>
      let key := (transaction call).lock
      if reply = .ok ∧ (transaction call).qualifies w.store ∧ w.holder key = none then
        some { w.resume n call (.inside (transaction call).body []) with
          holder := Function.update w.holder key (some n) }
      else some (w.finish n)
    | some (call, .inside .commit writes) =>
      match Transition.run apply w.store writes with
      | some store =>
        if reply = .failed then some (w.finish n)
        else some { w.finish n with store := store, committed := call :: w.committed }
      | none => some (w.finish n)
    | some (call, .inside rest writes) =>
      match rest.advance apply w.store writes with
      | some (rest, writes) =>
        if reply = .ok then some (w.resume n call (.inside rest writes)) else some (w.finish n)
      | none => some (w.finish n)

variable {apply transaction} {w w' : State σ ω κ τ}

omit [DecidableEq κ] in
theorem Body.advance_read {store : σ} {next : σ → Body σ ω} {writes writes' : List ω} {rest : Body σ ω}
    (hadvance : (Body.read next).advance apply store writes = some (rest, writes')) :
    ∃ view, Transition.run apply store writes = some view ∧ rest = next view ∧ writes' = writes := by
  obtain ⟨view, hview, hnext⟩ := Option.map_eq_some_iff.mp hadvance
  obtain ⟨rfl, rfl⟩ := Prod.mk.inj hnext
  exact ⟨view, hview, rfl, rfl⟩

omit [DecidableEq κ] in
theorem Body.advance_write {store : σ} {ws writes writes' : List ω} {next rest : Body σ ω}
    (hadvance : (Body.write ws next).advance apply store writes = some (rest, writes')) :
    rest = next ∧ writes' = writes ++ ws := by
  obtain ⟨_, _, hnext⟩ := Option.map_eq_some_iff.mp hadvance
  obtain ⟨rfl, rfl⟩ := Prod.mk.inj hnext
  exact ⟨rfl, rfl⟩

/-- Everything a query can do: end its session, take the lock, go on, or commit. -/
theorem step_query_cases {n : Nat} {reply : Table.Reply}
    (hstep : step apply transaction w (.query n reply) = some w') :
    ∃ call session, w.sessions n = some (call, session) ∧
      (w' = w.finish n ∨
        (session = .begun ∧ (transaction call).qualifies w.store = true ∧
          w.holder (transaction call).lock = none ∧
          w' = { w.resume n call (.inside (transaction call).body []) with
            holder := Function.update w.holder (transaction call).lock (some n) }) ∨
        (∃ rest writes rest' writes', session = .inside rest writes ∧
          rest.advance apply w.store writes = some (rest', writes') ∧
          w' = w.resume n call (.inside rest' writes')) ∨
        ∃ writes store, session = .inside .commit writes ∧
          Transition.run apply w.store writes = some store ∧
          w' = { w.finish n with store := store, committed := call :: w.committed }) := by
  unfold step at hstep
  dsimp only at hstep
  split at hstep
  · cases hstep
  · rename_i call hsession
    refine ⟨call, _, hsession, ?_⟩
    split at hstep
    · rename_i hok
      exact .inr (.inl ⟨rfl, hok.2.1, hok.2.2, (Option.some.inj hstep).symm⟩)
    · exact .inl (Option.some.inj hstep).symm
  · rename_i call writes hsession
    refine ⟨call, _, hsession, ?_⟩
    split at hstep
    · rename_i store hrun
      split at hstep
      · exact .inl (Option.some.inj hstep).symm
      · exact .inr (.inr (.inr ⟨writes, store, rfl, hrun, (Option.some.inj hstep).symm⟩))
    · exact .inl (Option.some.inj hstep).symm
  · rename_i call rest writes _ hsession
    refine ⟨call, _, hsession, ?_⟩
    split at hstep
    · rename_i rest' writes' hadvance
      split at hstep
      · exact .inr (.inr (.inl ⟨rest, writes, rest', writes', rfl, hadvance, (Option.some.inj hstep).symm⟩))
      · exact .inl (Option.some.inj hstep).symm
    · exact .inl (Option.some.inj hstep).symm

/-- The store changes by commits only, and a commit applies what its session has written. -/
theorem step_store {a : Action τ} (hstep : step apply transaction w a = some w') :
    (w'.store = w.store ∧ w'.committed = w.committed) ∨
      ∃ n call writes, w.sessions n = some (call, .inside .commit writes) ∧
        Transition.run apply w.store writes = some w'.store ∧ w'.committed = call :: w.committed := by
  cases a with
  | start n call =>
    simp only [step] at hstep
    split at hstep
    · cases hstep
    · cases hstep
      exact .inl ⟨rfl, rfl⟩
  | query n reply =>
    obtain ⟨call, session, hsession, rfl | ⟨_, _, _, rfl⟩ | ⟨_, _, _, _, _, _, rfl⟩ |
      ⟨writes, store, rfl, hrun, rfl⟩⟩ := step_query_cases hstep
    · exact .inl ⟨rfl, rfl⟩
    · exact .inl ⟨rfl, rfl⟩
    · exact .inl ⟨rfl, rfl⟩
    · exact .inr ⟨n, call, writes, hsession, hrun, rfl⟩

/-- Whoever is inside a transaction holds its lock, and a property of such sessions. -/
def Guarded (transaction : τ → Transaction σ ω κ) (mid : τ → σ → Body σ ω → List ω → Prop)
    (w : State σ ω κ τ) : Prop :=
  ∀ n call rest writes, w.sessions n = some (call, .inside rest writes) →
    w.holder (transaction call).lock = some n ∧ mid call w.store rest writes

section Guarded

variable {mid : τ → σ → Body σ ω → List ω → Prop}

omit [DecidableEq κ] in
theorem Guarded.finish (hguarded : Guarded transaction mid w) (n : Nat) :
    Guarded transaction mid (w.finish n) := by
  intro m call rest writes hsession
  have hne : m ≠ n := by
    rintro rfl
    simp [State.finish] at hsession
  change Function.update w.sessions n none m = _ at hsession
  rw [Function.update_of_ne hne] at hsession
  obtain ⟨hholder, hmid⟩ := hguarded m call rest writes hsession
  refine ⟨?_, hmid⟩
  simp [State.finish, hholder, hne]

/-- An invariant of what goes on inside a transaction: it holds after the lock, every query of the session
keeps it, and so does every commit made under another lock. -/
theorem guarded_of_reach
    (hlocked : ∀ call store, (transaction call).qualifies store = true →
      mid call store (transaction call).body [])
    (hadvance : ∀ call store rest writes rest' writes', mid call store rest writes →
      rest.advance apply store writes = some (rest', writes') → mid call store rest' writes')
    (hframe : ∀ call call' store store' rest writes writes', mid call store rest writes →
      mid call' store .commit writes' → (transaction call).lock ≠ (transaction call').lock →
      Transition.run apply store writes' = some store' → mid call store' rest writes)
    {ok : State σ ω κ τ → Action τ → Prop} {start : State σ ω κ τ → Prop}
    (hstart : ∀ w, start w → ∃ store, w = .initial store)
    (hreach : Transition.Reach (step apply transaction) ok start w) : Guarded transaction mid w := by
  refine hreach.invariant ?_ ?_
  · intro w hw
    obtain ⟨store, rfl⟩ := hstart w hw
    intro n call rest writes hsession
    cases hsession
  · intro w a w' hguarded _ hstep
    cases a with
    | start n call =>
      simp only [step] at hstep
      split at hstep
      · cases hstep
      · cases hstep
        intro m call' rest writes hsession
        change Function.update w.sessions n _ m = _ at hsession
        by_cases hm : m = n
        · rw [hm, Function.update_self] at hsession
          cases hsession
        · rw [Function.update_of_ne hm] at hsession
          exact hguarded m call' rest writes hsession
    | query n reply =>
      obtain ⟨call, session, hn, rfl | ⟨rfl, hqualifies, hfree, rfl⟩ |
        ⟨rest, writes, rest', writes', rfl, hnext, rfl⟩ | ⟨writes, store, rfl, hrun, rfl⟩⟩ :=
        step_query_cases hstep
      · exact hguarded.finish n
      · intro m call' rest writes hsession
        change Function.update w.sessions n _ m = _ at hsession
        by_cases hm : m = n
        · rw [hm, Function.update_self] at hsession
          cases hsession
          rw [hm]
          exact ⟨Function.update_self _ _ _, hlocked call w.store hqualifies⟩
        · rw [Function.update_of_ne hm] at hsession
          obtain ⟨hholder, hmid⟩ := hguarded m call' rest writes hsession
          refine ⟨?_, hmid⟩
          have hne : (transaction call').lock ≠ (transaction call).lock := by
            intro hkey
            rw [hkey, hfree] at hholder
            cases hholder
          exact (Function.update_of_ne hne _ _).trans hholder
      · obtain ⟨hholder, hmid⟩ := hguarded n call rest writes hn
        intro m call' rest₁ writes₁ hsession
        change Function.update w.sessions n _ m = _ at hsession
        by_cases hm : m = n
        · rw [hm, Function.update_self] at hsession
          cases hsession
          rw [hm]
          exact ⟨hholder, hadvance call w.store rest writes rest' writes' hmid hnext⟩
        · rw [Function.update_of_ne hm] at hsession
          exact hguarded m call' rest₁ writes₁ hsession
      · obtain ⟨hholder, hmid⟩ := hguarded n call .commit writes hn
        intro m call' rest₁ writes₁ hsession
        obtain ⟨hholder', hmid'⟩ := hguarded.finish n m call' rest₁ writes₁ hsession
        have hne : (transaction call').lock ≠ (transaction call).lock := by
          intro hkey
          change (w.holder _).filter _ = _ at hholder'
          rw [hkey, hholder] at hholder'
          obtain ⟨hm, hne⟩ := Option.filter_eq_some_iff.mp hholder'
          exact of_decide_eq_true hne (Option.some.inj hm).symm
        exact ⟨hholder', hframe call' call w.store store rest₁ writes₁ writes hmid' hmid hne hrun⟩

/-- The locks of the committed calls are distinct, and no call that takes one of them qualifies any more. -/
structure SingleWinner (transaction : τ → Transaction σ ω κ) (w : State σ ω κ τ) : Prop where
  nodup : (w.committed.map fun call => (transaction call).lock).Nodup
  ended : ∀ call ∈ w.committed, ∀ call', (transaction call').lock = (transaction call).lock →
    (transaction call').qualifies w.store = false

/-- At most one call under a lock commits, where a commit leaves its row unqualified and no commit under
another lock changes that. -/
theorem SingleWinner.step (hwinner : SingleWinner transaction w) (hguarded : Guarded transaction mid w)
    (hqualifies : ∀ call store writes, mid call store .commit writes → (transaction call).qualifies store = true)
    (hends : ∀ call call' store store' writes, mid call store .commit writes →
      Transition.run apply store writes = some store' →
      ((transaction call').lock = (transaction call).lock ∨ (transaction call').qualifies store = false) →
      (transaction call').qualifies store' = false)
    {a : Action τ} (hstep : step apply transaction w a = some w') : SingleWinner transaction w' := by
  rcases step_store hstep with ⟨hstore, hcommitted⟩ | ⟨n, call, writes, hn, hrun, hcommitted⟩
  · constructor
    · rw [hcommitted]
      exact hwinner.nodup
    · rw [hcommitted, hstore]
      exact hwinner.ended
  · have hmid := (hguarded n call .commit writes hn).2
    have hnew : ∀ earlier ∈ w.committed, (transaction earlier).lock ≠ (transaction call).lock := by
      intro earlier hearlier hkey
      have hfalse := hwinner.ended earlier hearlier call hkey.symm
      rw [hqualifies call w.store writes hmid] at hfalse
      cases hfalse
    constructor
    · rw [hcommitted, List.map_cons, List.nodup_cons]
      refine ⟨fun hmem => ?_, hwinner.nodup⟩
      obtain ⟨earlier, hearlier, hkey⟩ := List.mem_map.mp hmem
      exact hnew earlier hearlier hkey
    · rw [hcommitted]
      intro earlier hearlier call' hkey
      refine hends call call' w.store w'.store writes hmid hrun ?_
      rcases List.mem_cons.mp hearlier with rfl | hearlier
      · exact .inl hkey
      · exact .inr (hwinner.ended earlier hearlier call' hkey)

end Guarded

end Sessions
