import Mathlib.Logic.Relation

/-!
# Guarded runs of a partial step function

A system is a partial function `step : σ → α → Option σ`, an action being refused when the result is
`none`. `Reach` collects the states of all finite runs whose every step meets a side condition `ok`
on the state it leaves and the action it takes, so that a property broken only by particular steps
can still be stated for every run without them. `run` executes a list of actions; it is the form in
which a concrete run is evaluated.
-/

namespace Transition

variable {σ α : Type*}

/-- The states reached from `start` by steps that all satisfy `ok`. -/
inductive Reach (step : σ → α → Option σ) (ok : σ → α → Prop) (start : σ → Prop) : σ → Prop
  | init {s : σ} (hstart : start s) : Reach step ok start s
  | next {s s' : σ} {a : α} (hreach : Reach step ok start s) (hok : ok s a)
      (hstep : step s a = some s') : Reach step ok start s'

/-- Execute a list of actions, refusing the run as soon as one of them is refused. -/
def run (step : σ → α → Option σ) : σ → List α → Option σ
  | s, [] => some s
  | s, a :: as => (step s a).bind fun s' => run step s' as

/-- Along the run of `as` from `s`, every step taken satisfies `ok`. -/
def RunOk (step : σ → α → Option σ) (ok : σ → α → Prop) : σ → List α → Prop
  | _, [] => True
  | s, a :: as => ok s a ∧ ∀ s', step s a = some s' → RunOk step ok s' as

/-- Along the run of `as` from `s`, every state passed satisfies `p`. -/
def Along (step : σ → α → Option σ) (p : σ → Prop) : σ → List α → Prop
  | s, [] => p s
  | s, a :: as => p s ∧ ∀ s', step s a = some s' → Along step p s' as

variable {step : σ → α → Option σ} {ok : σ → α → Prop} {start : σ → Prop}

/-- Where a step keeps `p` exactly when it is allowed, a run keeps it exactly when all its steps are. -/
theorem along_iff_runOk {inv p : σ → Prop} (hpreserve : ∀ s a s', inv s → step s a = some s' → inv s')
    (hexact : ∀ s a s', inv s → p s → step s a = some s' → (p s' ↔ ok s a)) {s s' : σ} {as : List α}
    (hinv : inv s) (hp : p s) (hrun : run step s as = some s') : Along step p s as ↔ RunOk step ok s as := by
  induction as generalizing s with
  | nil => exact iff_of_true hp trivial
  | cons a as ih =>
    obtain ⟨t, hstep, hrest⟩ := Option.bind_eq_some_iff.mp hrun
    have ht := hpreserve s a t hinv hstep
    have hone : ∀ {q : σ → Prop}, (∀ s', step s a = some s' → q s') ↔ q t := by
      intro q
      exact ⟨fun h => h t hstep, fun h s' hs' => Option.some.inj (hstep.symm.trans hs') ▸ h⟩
    unfold Along RunOk
    rw [hone, hone, and_iff_right hp]
    constructor
    · intro halong
      have hpt : p t := by
        cases as with
        | nil => exact halong
        | cons b bs => exact halong.1
      exact ⟨(hexact s a t hinv hp hstep).mp hpt, (ih ht hpt hrest).mp halong⟩
    · rintro ⟨hok, hall⟩
      exact (ih ht ((hexact s a t hinv hp hstep).mpr hok) hrest).mpr hall

/-- What holds initially and survives every allowed step holds in every state reached. -/
theorem Reach.invariant {inv : σ → Prop} (hinit : ∀ s, start s → inv s)
    (hpreserve : ∀ s a s', inv s → ok s a → step s a = some s' → inv s') {s : σ}
    (hreach : Reach step ok start s) : inv s := by
  induction hreach with
  | init hstart => exact hinit _ hstart
  | next _ hok hstep ih => exact hpreserve _ _ _ ih hok hstep

/-- Two invariants where the second one's step may rely on the first one. -/
theorem Reach.invariant_relative {base inv : σ → Prop}
    (hbase : ∀ {s}, Reach step ok start s → base s) (hinit : ∀ s, start s → inv s)
    (hpreserve : ∀ s a s', base s → inv s → ok s a → step s a = some s' → inv s') {s : σ}
    (hreach : Reach step ok start s) : inv s := by
  induction hreach with
  | init hstart => exact hinit _ hstart
  | next hreach hok hstep ih => exact hpreserve _ _ _ (hbase hreach) ih hok hstep

theorem run_invariant (inv : σ → Prop)
    (hpreserve : ∀ s a s', inv s → ok s a → step s a = some s' → inv s') {s s' : σ} {as : List α}
    (hinv : inv s) (hok : RunOk step ok s as) (hrun : run step s as = some s') : inv s' := by
  induction as generalizing s with
  | nil =>
    have hs : s = s' := Option.some.inj hrun
    exact hs ▸ hinv
  | cons a as ih =>
    rw [run, Option.bind_eq_some_iff] at hrun
    obtain ⟨t, hstep, hrest⟩ := hrun
    exact ih (hpreserve s a t hinv hok.1 hstep) (hok.2 t hstep) hrest

theorem RunOk.of_invariant (inv : σ → Prop) {s : σ} {as : List α} (hinv : inv s)
    (hpreserve : ∀ s, ∀ a ∈ as, ∀ s', inv s → step s a = some s' → inv s')
    (hok : ∀ a ∈ as, ∀ s, inv s → ok s a) : RunOk step ok s as := by
  induction as generalizing s with
  | nil => exact trivial
  | cons a as ih =>
    refine ⟨hok a List.mem_cons_self s hinv, fun s' hstep => ?_⟩
    exact ih (hpreserve s a List.mem_cons_self s' hinv hstep)
      (fun s b hb => hpreserve s b (List.mem_cons_of_mem a hb))
      fun b hb => hok b (List.mem_cons_of_mem a hb)

/-- A condition that follows from an invariant and another condition holds along every run of the other. -/
theorem RunOk.imp_of_invariant {ok' : σ → α → Prop} (inv : σ → Prop) {s : σ} {as : List α}
    (hok : RunOk step ok s as) (hinv : inv s)
    (hpreserve : ∀ s a s', inv s → ok s a → step s a = some s' → inv s')
    (himp : ∀ s a, inv s → ok s a → ok' s a) : RunOk step ok' s as := by
  induction as generalizing s with
  | nil => exact trivial
  | cons a as ih =>
    refine ⟨himp s a hinv hok.1, fun s' hstep => ?_⟩
    exact ih (hok.2 s' hstep) (hpreserve s a s' hinv hok.1 hstep)

/-- A condition on the actions alone holds along every run of them. -/
theorem RunOk.of_forall {s : σ} {as : List α} (hok : ∀ a ∈ as, ∀ s, ok s a) : RunOk step ok s as :=
  of_invariant (fun _ => True) trivial (fun _ _ _ _ _ _ => trivial) fun a ha s _ => hok a ha s

instance RunOk.decidable [∀ s a, Decidable (ok s a)] :
    ∀ (as : List α) (s : σ), Decidable (RunOk step ok s as)
  | [], _ => isTrue trivial
  | a :: as, s =>
    match hstep : step s a with
    | none =>
      decidable_of_iff (ok s a)
        ⟨fun hok => ⟨hok, fun s' h => by rw [hstep] at h; cases h⟩, fun h => h.1⟩
    | some t =>
      have := RunOk.decidable as t
      decidable_of_iff (ok s a ∧ RunOk step ok t as)
        ⟨fun h => ⟨h.1, fun s' h' => by rw [hstep] at h'; cases h'; exact h.2⟩,
          fun h => ⟨h.1, h.2 t hstep⟩⟩

instance Along.decidable {p : σ → Prop} [DecidablePred p] :
    ∀ (as : List α) (s : σ), Decidable (Along step p s as)
  | [], s => inferInstanceAs (Decidable (p s))
  | a :: as, s =>
    match hstep : step s a with
    | none =>
      decidable_of_iff (p s)
        ⟨fun hp => ⟨hp, fun s' h => by rw [hstep] at h; cases h⟩, fun h => h.1⟩
    | some t =>
      have := Along.decidable (p := p) as t
      decidable_of_iff (p s ∧ Along step p t as)
        ⟨fun h => ⟨h.1, fun s' h' => by rw [hstep] at h'; cases h'; exact h.2⟩,
          fun h => ⟨h.1, h.2 t hstep⟩⟩

theorem run_append (step : σ → α → Option σ) (s : σ) (as bs : List α) :
    run step s (as ++ bs) = (run step s as).bind fun t => run step t bs := by
  induction as generalizing s with
  | nil => rfl
  | cons a as ih =>
    rw [List.cons_append, run, run, Option.bind_assoc]
    exact congrArg _ (funext ih)

theorem exists_of_run_any (step : σ → α → Option σ) (s : σ) (as : List α) (p : σ → Bool)
    (htest : (run step s as).any p = true) :
    ∃ s', run step s as = some s' ∧ p s' = true := by
  rwa [Option.any_eq_true] at htest

theorem Reach.of_run {s s' : σ} {as : List α} (hreach : Reach step ok start s)
    (hok : RunOk step ok s as) (hrun : run step s as = some s') : Reach step ok start s' := by
  induction as generalizing s with
  | nil =>
    have hs : s = s' := Option.some.inj hrun
    exact hs ▸ hreach
  | cons a as ih =>
    rw [run, Option.bind_eq_some_iff] at hrun
    obtain ⟨t, hstep, hrest⟩ := hrun
    exact ih (.next hreach hok.1 hstep) (hok.2 t hstep) hrest

end Transition
