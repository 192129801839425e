import PropFirm.Lib.InFlight
import PropFirm.Lib.Transition

/-!
# Checks on a timer

Something is open and is checked again and again. When its timer runs a check starts that puts its questions
one after the other: a question is asked, looks at the environment at some later moment, and is answered
later still. A bad answer closes what is checked and stops the timer, a question that fails ends its check,
and checks overlap when answers are slow. The environment changes at any moment. Time goes on as long as
nothing is overdue: a timer runs `lag` late at most, and no question is open for longer than `latency`.

What has been bad since some moment is closed within a period of it, the lag, and the time of the questions
up to the one that tells. What was never bad is not closed by a check.
-/

namespace Watchdog

open Transition

variable {σ : Type*}

/-- A probe says whether what it looks at is bad. -/
structure Config (σ : Type*) where
  period : Nat
  lag : Nat
  latency : Nat
  probes : List (σ → Bool)

/-- A check whose question number `probe` is open; `seen` is what the question has found. -/
structure Check where
  probe : Nat
  asked : Nat
  seen : Option Bool
  deriving DecidableEq

structure State (σ : Type*) where
  now : Nat
  env : σ
  due : Option Nat
  checks : List Check
  closed : Bool
  deriving DecidableEq

inductive Event (σ : Type*)
  | elapse (d : Nat)
  | change (env : σ)
  | fire
  | look (i : Nat)
  | answer (i : Nat)
  | fail (i : Nat)
  | leave

/-- Opened at `now`, with the first check `delay` later. -/
def State.opened (now : Nat) (env : σ) (delay : Nat) : State σ := ⟨now, env, some (now + delay), [], false⟩

def State.close (s : State σ) : State σ := { s with due := none, closed := true }

/-- What becomes of a check whose question found nothing bad. -/
def Check.advance (c : Check) (probes now : Nat) : List Check :=
  if c.probe + 1 < probes then [⟨c.probe + 1, now, none⟩] else []

variable (cfg : Config σ)

def step (s : State σ) : Event σ → Option (State σ)
  | .elapse d =>
    if (∀ due ∈ s.due, s.now + d ≤ due + cfg.lag) ∧ ∀ c ∈ s.checks, s.now + d ≤ c.asked + cfg.latency then
      some { s with now := s.now + d }
    else none
  | .change env => some { s with env := env }
  | .fire => s.due.bind fun due =>
    if due ≤ s.now then
      let started := if cfg.probes = [] then [] else [⟨0, s.now, none⟩]
      some { s with due := some (s.now + cfg.period), checks := s.checks ++ started }
    else none
  | .look i => s.checks[i]?.bind fun c => cfg.probes[c.probe]?.bind fun probe =>
    if c.seen = none then
      some { s with checks := s.checks.eraseIdx i ++ [{ c with seen := some (probe s.env) }] }
    else none
  | .answer i => s.checks[i]?.bind fun c => c.seen.bind fun bad =>
    if bad then some { s with checks := s.checks.eraseIdx i }.close
    else some { s with checks := s.checks.eraseIdx i ++ c.advance cfg.probes.length s.now }
  | .fail i => if i < s.checks.length then some { s with checks := s.checks.eraseIdx i } else none
  | .leave => some s.close

variable {cfg} {s s' : State σ} {event : Event σ} {c c' : Check} {i since k : Nat} {probe : σ → Bool}

/-! ### What a step does -/

theorem step_elapse {d : Nat} (hstep : step cfg s (.elapse d) = some s') :
    (∀ due ∈ s.due, s.now + d ≤ due + cfg.lag) ∧ (∀ c ∈ s.checks, s.now + d ≤ c.asked + cfg.latency) ∧
      s' = { s with now := s.now + d } := by
  rw [step] at hstep
  split at hstep
  · next hok => exact ⟨hok.1, hok.2, (Option.some.inj hstep).symm⟩
  · cases hstep

theorem step_fire (hstep : step cfg s .fire = some s') : ∃ due ∈ s.due, due ≤ s.now ∧
    s' = { s with
      due := some (s.now + cfg.period)
      checks := s.checks ++ if cfg.probes = [] then [] else [⟨0, s.now, none⟩] } := by
  obtain ⟨due, hdue, hstep⟩ := Option.bind_eq_some_iff.mp hstep
  split at hstep
  · next hle => exact ⟨due, hdue, hle, (Option.some.inj hstep).symm⟩
  · cases hstep

theorem step_look (hstep : step cfg s (.look i) = some s') :
    ∃ c, s.checks[i]? = some c ∧ ∃ probe, cfg.probes[c.probe]? = some probe ∧ c.seen = none ∧
      s' = { s with checks := s.checks.eraseIdx i ++ [{ c with seen := some (probe s.env) }] } := by
  obtain ⟨c, hc, hstep⟩ := Option.bind_eq_some_iff.mp hstep
  obtain ⟨probe, hprobe, hstep⟩ := Option.bind_eq_some_iff.mp hstep
  split at hstep
  · next hseen => exact ⟨c, hc, probe, hprobe, hseen, (Option.some.inj hstep).symm⟩
  · cases hstep

theorem step_answer (hstep : step cfg s (.answer i) = some s') : ∃ c, s.checks[i]? = some c ∧
    (c.seen = some true ∧ s' = { s with checks := s.checks.eraseIdx i }.close ∨
      c.seen = some false ∧
        s' = { s with checks := s.checks.eraseIdx i ++ c.advance cfg.probes.length s.now }) := by
  obtain ⟨c, hc, hstep⟩ := Option.bind_eq_some_iff.mp hstep
  obtain ⟨bad, hseen, hstep⟩ := Option.bind_eq_some_iff.mp hstep
  refine ⟨c, hc, ?_⟩
  cases bad with
  | true => exact .inl ⟨hseen, (Option.some.inj hstep).symm⟩
  | false => exact .inr ⟨hseen, (Option.some.inj hstep).symm⟩

theorem step_fail (hstep : step cfg s (.fail i) = some s') :
    s' = { s with checks := s.checks.eraseIdx i } := by
  rw [step] at hstep
  split at hstep
  · exact (Option.some.inj hstep).symm
  · cases hstep

theorem eq_of_mem_advance {probes now : Nat} (hc' : c' ∈ c.advance probes now) : c' = ⟨c.probe + 1, now, none⟩ := by
  rw [Check.advance] at hc'
  split at hc'
  · exact List.mem_singleton.mp hc'
  · cases hc'

theorem env_step (hstep : step cfg s event = some s') : s'.env = s.env ∨ event = .change s'.env := by
  cases event with
  | elapse d =>
    obtain ⟨-, -, rfl⟩ := step_elapse hstep
    exact .inl rfl
  | change env =>
    obtain rfl := Option.some.inj hstep
    exact .inr rfl
  | fire =>
    obtain ⟨-, -, -, rfl⟩ := step_fire hstep
    exact .inl rfl
  | look i =>
    obtain ⟨-, -, -, -, -, rfl⟩ := step_look hstep
    exact .inl rfl
  | answer i =>
    obtain ⟨-, -, ⟨-, rfl⟩ | ⟨-, rfl⟩⟩ := step_answer hstep
    · exact .inl rfl
    · exact .inl rfl
  | fail i =>
    obtain rfl := step_fail hstep
    exact .inl rfl
  | leave =>
    obtain rfl := Option.some.inj hstep
    exact .inl rfl

/-- What every change keeps holds of the environment. -/
theorem env_of_change {p : σ → Prop} (hp : p s.env) (hchange : ∀ env, event = .change env → p env)
    (hstep : step cfg s event = some s') : p s'.env := by
  rcases env_step hstep with henv | hevent
  · rw [henv]
    exact hp
  · exact hchange _ hevent

theorem eq_of_mem_started {now : Nat} (hc : c ∈ if cfg.probes = [] then [] else [⟨0, now, none⟩]) :
    c = ⟨0, now, none⟩ := by
  split at hc
  · cases hc
  · exact List.mem_singleton.mp hc

/-! ### Nothing is overdue -/

structure OnTime (cfg : Config σ) (s : State σ) : Prop where
  due : ∀ due ∈ s.due, s.now ≤ due + cfg.lag
  asked : ∀ c ∈ s.checks, s.now ≤ c.asked + cfg.latency
  armed : s.closed = true ∨ ∃ due ∈ s.due, due ≤ s.now + cfg.period

theorem onTime_opened (now : Nat) (env : σ) {delay : Nat} (hdelay : delay ≤ cfg.period) :
    OnTime cfg (State.opened now env delay) where
  due due hdue := by
    obtain rfl := Option.some.inj hdue
    show now ≤ now + delay + cfg.lag
    omega
  asked c hc := absurd hc List.not_mem_nil
  armed := .inr ⟨now + delay, rfl, Nat.add_le_add_left hdelay now⟩

theorem OnTime.close (hontime : OnTime cfg s) : OnTime cfg s.close where
  due due hdue := absurd hdue (Option.not_mem_none due)
  asked := hontime.asked
  armed := .inl rfl

/-- Questions are put away or asked now. -/
theorem OnTime.withChecks (hontime : OnTime cfg s) {checks : List Check}
    (hchecks : ∀ c ∈ checks, (∃ c₀ ∈ s.checks, c.asked = c₀.asked) ∨ c.asked = s.now) :
    OnTime cfg { s with checks := checks } where
  due := hontime.due
  asked c hc := by
    rcases hchecks c hc with ⟨c₀, hc₀, hasked⟩ | hasked
    · rw [hasked]
      exact hontime.asked c₀ hc₀
    · show s.now ≤ c.asked + cfg.latency
      omega
  armed := hontime.armed

theorem OnTime.step (hontime : OnTime cfg s) (hstep : step cfg s event = some s') : OnTime cfg s' := by
  have hkept (i : Nat) : ∀ c ∈ s.checks.eraseIdx i, (∃ c₀ ∈ s.checks, c.asked = c₀.asked) ∨ c.asked = s.now :=
    fun c hc => .inl ⟨c, List.mem_of_mem_eraseIdx hc, rfl⟩
  cases event with
  | elapse d =>
    obtain ⟨hdue, hasked, rfl⟩ := step_elapse hstep
    refine ⟨hdue, hasked, hontime.armed.imp_right ?_⟩
    rintro ⟨due, hmem, hle⟩
    refine ⟨due, hmem, ?_⟩
    show due ≤ s.now + d + cfg.period
    omega
  | change env =>
    obtain rfl := Option.some.inj hstep
    exact ⟨hontime.due, hontime.asked, hontime.armed⟩
  | fire =>
    obtain ⟨due, -, -, rfl⟩ := step_fire hstep
    refine ⟨fun due hdue => ?_, fun c hc => ?_, .inr ⟨s.now + cfg.period, rfl, Nat.le_refl _⟩⟩
    · obtain rfl := Option.some.inj hdue
      show s.now ≤ s.now + cfg.period + cfg.lag
      omega
    · show s.now ≤ c.asked + cfg.latency
      rcases List.mem_append.mp hc with hc | hc
      · exact hontime.asked c hc
      · rw [eq_of_mem_started hc]
        exact Nat.le_add_right s.now cfg.latency
  | look i =>
    obtain ⟨c, hc, probe, -, -, rfl⟩ := step_look hstep
    refine hontime.withChecks fun c' hc' => ?_
    rcases List.mem_append.mp hc' with hc' | hc'
    · exact hkept i c' hc'
    · obtain rfl := List.mem_singleton.mp hc'
      exact .inl ⟨c, List.mem_of_getElem? hc, rfl⟩
  | answer i =>
    obtain ⟨c, hc, ⟨-, rfl⟩ | ⟨-, rfl⟩⟩ := step_answer hstep
    · exact (hontime.withChecks (hkept i)).close
    · refine hontime.withChecks fun c' hc' => ?_
      rcases List.mem_append.mp hc' with hc' | hc'
      · exact hkept i c' hc'
      · rw [eq_of_mem_advance hc']
        exact .inr rfl
  | fail i =>
    obtain rfl := step_fail hstep
    exact hontime.withChecks (hkept i)
  | leave =>
    obtain rfl := Option.some.inj hstep
    exact hontime.close

theorem OnTime.run {events : List (Event σ)} (hontime : OnTime cfg s)
    (hrun : Transition.run (Watchdog.step cfg) s events = some s') : OnTime cfg s' := by
  let ok (_ : State σ) (_ : Event σ) : Prop := True
  have hok : RunOk (Watchdog.step cfg) ok s events := RunOk.of_forall fun _ _ _ => trivial
  exact run_invariant (OnTime cfg) (fun _ _ _ hontime _ hstep => hontime.step hstep) hontime hok hrun

/-! ### What is bad is closed -/

/-- The next check is due within a period of `since`, or one is under way that has yet to put question `k`, or
was not answered well by it, and has lost no time. -/
def Closing (cfg : Config σ) (since k : Nat) (s : State σ) : Prop :=
  s.closed = true ∨ (∃ due ∈ s.due, due ≤ since + cfg.period) ∨ ∃ c ∈ s.checks, c.probe ≤ k ∧
    c.asked ≤ since + cfg.period + cfg.lag + c.probe * cfg.latency ∧ (c.probe = k → c.seen ≠ some false)

theorem OnTime.closing (hontime : OnTime cfg s) (k : Nat) : Closing cfg s.now k s :=
  hontime.armed.imp_right .inl

/-- While question `k` finds the environment bad. -/
theorem Closing.step (hclosing : Closing cfg since k s) (hontime : OnTime cfg s)
    (hprobe : cfg.probes[k]? = some probe) (hbad : probe s.env = true) (hread : ∀ i, event ≠ .fail i)
    (hstep : step cfg s event = some s') : Closing cfg since k s' := by
  cases event with
  | elapse d =>
    obtain ⟨-, -, rfl⟩ := step_elapse hstep
    exact hclosing
  | change env =>
    obtain rfl := Option.some.inj hstep
    exact hclosing
  | fire =>
    obtain ⟨due, hdue, hle, rfl⟩ := step_fire hstep
    rcases hclosing with hclosed | ⟨due', hdue', hsoon⟩ | ⟨c, hc, htold⟩
    · exact .inl hclosed
    · obtain rfl := Option.mem_unique hdue hdue'
      have hnow := hontime.due due hdue
      have hprobes : cfg.probes ≠ [] := by
        rintro hnil
        rw [hnil] at hprobe
        cases hprobe
      refine .inr (.inr ⟨⟨0, s.now, none⟩, ?_, Nat.zero_le k, ?_, fun _ => (Option.some_ne_none false).symm⟩)
      · rw [if_neg hprobes]
        exact List.mem_append_right _ (List.mem_singleton_self _)
      · show s.now ≤ since + cfg.period + cfg.lag + 0 * cfg.latency
        omega
    · exact .inr (.inr ⟨c, List.mem_append_left _ hc, htold⟩)
  | look i =>
    obtain ⟨c, hc, looking, hlooking, -, rfl⟩ := step_look hstep
    rcases hclosing with hclosed | hsoon | ⟨c', hc', hle, hasked, hseen⟩
    · exact .inl hclosed
    · exact .inr (.inl hsoon)
    · rcases (InFlight.mem_iff hc).mp hc' with rfl | hothers
      · refine .inr (.inr ⟨_, List.mem_append_right _ (List.mem_singleton_self _), hle, hasked, fun hk => ?_⟩)
        have hk : c'.probe = k := hk
        rw [hk, hprobe] at hlooking
        obtain rfl := Option.some.inj hlooking
        show some (probe s.env) ≠ some false
        rw [hbad]
        decide
      · exact .inr (.inr ⟨c', List.mem_append_left _ hothers, hle, hasked, hseen⟩)
  | answer i =>
    obtain ⟨c, hc, ⟨-, rfl⟩ | ⟨hgood, rfl⟩⟩ := step_answer hstep
    · exact .inl rfl
    rcases hclosing with hclosed | hsoon | ⟨c', hc', hle, hasked, hseen⟩
    · exact .inl hclosed
    · exact .inr (.inl hsoon)
    · rcases (InFlight.mem_iff hc).mp hc' with rfl | hothers
      · have hlt : c'.probe < k := Nat.lt_of_le_of_ne hle fun hk => hseen hk hgood
        have hk := (List.getElem?_eq_some_iff.mp hprobe).1
        have hnow := hontime.asked c' hc'
        refine .inr (.inr ⟨⟨c'.probe + 1, s.now, none⟩, ?_, hlt, ?_, fun _ => (Option.some_ne_none false).symm⟩)
        · rw [Check.advance, if_pos (by omega)]
          exact List.mem_append_right _ (List.mem_singleton_self _)
        · show s.now ≤ since + cfg.period + cfg.lag + (c'.probe + 1) * cfg.latency
          rw [Nat.add_mul]
          omega
      · exact .inr (.inr ⟨c', List.mem_append_left _ hothers, hle, hasked, hseen⟩)
  | fail i => exact absurd rfl (hread i)
  | leave =>
    obtain rfl := Option.some.inj hstep
    exact .inl rfl

theorem Closing.now_le (hclosing : Closing cfg since k s) (hontime : OnTime cfg s) (hopen : s.closed = false) :
    s.now ≤ since + cfg.period + cfg.lag + (k + 1) * cfg.latency := by
  rcases hclosing with hclosed | ⟨due, hdue, hsoon⟩ | ⟨c, hc, hle, hasked, -⟩
  · rw [hopen] at hclosed
    cases hclosed
  · have hnow := hontime.due due hdue
    omega
  · have hnow := hontime.asked c hc
    have hmul : (c.probe + 1) * cfg.latency ≤ (k + 1) * cfg.latency :=
      Nat.mul_le_mul_right _ (Nat.succ_le_succ hle)
    rw [Nat.add_mul] at hmul
    omega

/-- The environment is bad for question `k` and stays so, and no question fails: then it is closed in time. -/
theorem closed_of_bad {events : List (Event σ)} (hontime : OnTime cfg s) (hprobe : cfg.probes[k]? = some probe)
    (hbad : probe s.env = true) (hstays : ∀ env, .change env ∈ events → probe env = true)
    (hread : ∀ i, .fail i ∉ events) (hrun : run (step cfg) s events = some s')
    (hlate : s.now + cfg.period + cfg.lag + (k + 1) * cfg.latency < s'.now) : s'.closed = true := by
  let ok (_ : State σ) (event : Event σ) : Prop :=
    (∀ env, event = .change env → probe env = true) ∧ ∀ i, event ≠ .fail i
  have hok : RunOk (step cfg) ok s events := by
    refine RunOk.of_forall fun event hevent _ => ⟨?_, ?_⟩
    · rintro env rfl
      exact hstays env hevent
    · rintro i rfl
      exact hread i hevent
  have hkept := run_invariant (fun t => OnTime cfg t ∧ probe t.env = true ∧ Closing cfg s.now k t) ?_
    ⟨hontime, hbad, hontime.closing k⟩ hok hrun
  · obtain ⟨hontime', -, hclosing⟩ := hkept
    by_contra hopen
    have hle := hclosing.now_le hontime' (eq_false_of_ne_true hopen)
    omega
  · rintro t event t' ⟨hontime, hbad, hclosing⟩ ⟨hchange, hfail⟩ hstep
    exact ⟨hontime.step hstep, env_of_change hbad hchange hstep, hclosing.step hontime hprobe hbad hfail hstep⟩

/-! ### What is good stays open -/

structure Calm (s : State σ) : Prop where
  opened : s.closed = false
  unseen : ∀ c ∈ s.checks, c.seen ≠ some true

theorem calm_opened (now : Nat) (env : σ) (delay : Nat) : Calm (State.opened now env delay) :=
  ⟨rfl, fun _ hc => absurd hc List.not_mem_nil⟩

theorem Calm.withChecks (hcalm : Calm s) {checks : List Check}
    (hchecks : ∀ c ∈ checks, c ∈ s.checks ∨ c.seen ≠ some true) : Calm { s with checks := checks } :=
  ⟨hcalm.opened, fun c hc => (hchecks c hc).elim (hcalm.unseen c) id⟩

theorem Calm.step (hcalm : Calm s) (hgood : ∀ probe ∈ cfg.probes, probe s.env = false) (hstays : event ≠ .leave)
    (hstep : step cfg s event = some s') : Calm s' := by
  have hkept (i : Nat) : ∀ c ∈ s.checks.eraseIdx i, c ∈ s.checks ∨ c.seen ≠ some true :=
    fun c hc => .inl (List.mem_of_mem_eraseIdx hc)
  have hnone : (none : Option Bool) ≠ some true := (Option.some_ne_none true).symm
  cases event with
  | elapse d =>
    obtain ⟨-, -, rfl⟩ := step_elapse hstep
    exact ⟨hcalm.opened, hcalm.unseen⟩
  | change env =>
    obtain rfl := Option.some.inj hstep
    exact ⟨hcalm.opened, hcalm.unseen⟩
  | fire =>
    obtain ⟨-, -, -, rfl⟩ := step_fire hstep
    refine ⟨hcalm.opened, fun c hc => ?_⟩
    rcases List.mem_append.mp hc with hc | hc
    · exact hcalm.unseen c hc
    · rw [eq_of_mem_started hc]
      exact hnone
  | look i =>
    obtain ⟨c, -, probe, hprobe, -, rfl⟩ := step_look hstep
    refine hcalm.withChecks fun c' hc' => ?_
    rcases List.mem_append.mp hc' with hc' | hc'
    · exact hkept i c' hc'
    · obtain rfl := List.mem_singleton.mp hc'
      right
      show some (probe s.env) ≠ some true
      rw [hgood probe (List.mem_of_getElem? hprobe)]
      decide
  | answer i =>
    obtain ⟨c, hc, ⟨hseen, -⟩ | ⟨-, rfl⟩⟩ := step_answer hstep
    · exact absurd hseen (hcalm.unseen c (List.mem_of_getElem? hc))
    · refine hcalm.withChecks fun c' hc' => ?_
      rcases List.mem_append.mp hc' with hc' | hc'
      · exact hkept i c' hc'
      · rw [eq_of_mem_advance hc']
        exact .inr hnone
  | fail i =>
    obtain rfl := step_fail hstep
    exact hcalm.withChecks (hkept i)
  | leave => exact absurd rfl hstays

theorem open_of_good {events : List (Event σ)} (hcalm : Calm s) (hgood : ∀ probe ∈ cfg.probes, probe s.env = false)
    (hstays : ∀ env, .change env ∈ events → ∀ probe ∈ cfg.probes, probe env = false) (hleave : .leave ∉ events)
    (hrun : run (step cfg) s events = some s') : s'.closed = false := by
  let good (env : σ) : Prop := ∀ probe ∈ cfg.probes, probe env = false
  let ok (_ : State σ) (event : Event σ) : Prop := (∀ env, event = .change env → good env) ∧ event ≠ .leave
  have hok : RunOk (step cfg) ok s events := by
    refine RunOk.of_forall fun event hevent _ => ⟨?_, ?_⟩
    · rintro env rfl
      exact hstays env hevent
    · rintro rfl
      exact hleave hevent
  have hkept := run_invariant (fun t => Calm t ∧ good t.env) ?_ ⟨hcalm, hgood⟩ hok hrun
  · exact hkept.1.opened
  · rintro t event t' ⟨hcalm, hgood⟩ ⟨hchange, hstays⟩ hstep
    exact ⟨hcalm.step hgood hstays hstep, env_of_change (p := good) hgood hchange hstep⟩

end Watchdog
