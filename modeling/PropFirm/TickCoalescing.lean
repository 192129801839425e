import Mathlib
import PropFirm.Lib.Batching
import PropFirm.Lib.Transition

/-!
# Coalescing of price ticks

`onPriceTick` runs one `runTick` at a time. A call that finds one running leaves its instruments in
`_tickCoalesced` and returns, and the call that is running drains that set into further ticks until it
stays empty. The `finally` block behind the drain loop clears the set also when the tick threw, and
with it whatever arrived meanwhile.

A call past its guards is suspended at `await runTick`, in the loop or before it, so a state holds one
`Drain` for each. Other calls run while the tick does and between its settling and the resumption.
-/

namespace PropFirm

open Batching Transition

/-- What a suspended `onPriceTick` awaits. -/
inductive Drain
  | running
  | settled (threw : Bool)
  deriving DecidableEq

/-- The event path of one engine process. `history` records the calls of `onPriceTick` and the starts
of `runTick`. -/
structure PriceEngine where
  ready : Bool
  engineEnabled : Bool
  tickRunning : Bool
  tickCoalesced : Option (List String)
  drains : List Drain
  history : List (Event String)

inductive PriceAction
  | reconcileIndex
  | armEngine (initialized : Bool)
  | handlePriceTick (changed : List String)
  | settle (drain : Nat) (threw : Bool)
  | resume (drain : Nat)

namespace PriceEngine

def boot : PriceEngine := ⟨false, false, false, none, [], []⟩

/-- Add to a set that keeps the order of insertion. -/
def addAll (queued changed : List String) : List String :=
  changed.foldl (fun set instrument => if instrument ∈ set then set else set ++ [instrument]) queued

def onPriceTick (s : PriceEngine) (changed : List String) : PriceEngine :=
  if s.ready = false then s
  else if changed = [] then s
  else if s.tickRunning then
    { s with tickCoalesced := some (addAll (s.tickCoalesced.getD []) changed) }
  else
    { s with
      tickRunning := true
      drains := s.drains ++ [.running]
      history := .started changed :: s.history }

def handlePriceTick (s : PriceEngine) (changed : List String) : PriceEngine :=
  if changed = [] then s
  else if s.engineEnabled = false then s
  else { s with history := .passed changed :: s.history }.onPriceTick changed

/-- The `finally` block. -/
def finish (s : PriceEngine) (k : Nat) : PriceEngine :=
  { s with tickRunning := false, tickCoalesced := none, drains := s.drains.eraseIdx k }

/-- The drain loop after a tick that did not throw. -/
def drainNext (s : PriceEngine) (k : Nat) : PriceEngine :=
  match s.tickCoalesced with
  | some (instrument :: rest) =>
    { s with
      tickCoalesced := none
      drains := s.drains.set k .running
      history := .started (instrument :: rest) :: s.history }
  | _ => s.finish k

def step (s : PriceEngine) : PriceAction → Option PriceEngine
  | .reconcileIndex => some { s with ready := true }
  | .armEngine true => some { s with ready := true, engineEnabled := true }
  | .armEngine false => some { s with engineEnabled := false }
  | .handlePriceTick changed => some (s.handlePriceTick changed)
  | .settle k threw => do
    guard (s.drains[k]? = some .running)
    pure { s with drains := s.drains.set k (.settled threw) }
  | .resume k =>
    match s.drains[k]? with
    | some (.settled false) => some (s.drainNext k)
    | some (.settled true) => some (s.finish k)
    | _ => none

/-- The instruments in `_tickCoalesced`. -/
def queue (s : PriceEngine) : List String := s.tickCoalesced.getD []

/-- One tick executes at most, and what was passed to a call is in the changed set of a tick started
later, unless it waits in `_tickCoalesced` for the end of the one that runs. -/
structure LosesNothing (s : PriceEngine) : Prop where
  apart : s.drains.length ≤ 1
  included : ∀ later earlier changed, s.history = later ++ .passed changed :: earlier →
    ∀ instrument ∈ changed, (∃ batch, .started batch ∈ later ∧ instrument ∈ batch) ∨
      instrument ∈ s.queue
  atRest : s.drains = [] → Served s.history

/-- No tick throws while instruments wait for it. -/
def FailsAlone (s : PriceEngine) (a : PriceAction) : Prop :=
  ∀ k, a = .resume k → s.drains[k]? = some (.settled true) → s.queue = []

/-- What holds in every run. -/
structure Sound (s : PriceEngine) : Prop where
  armed : s.engineEnabled = true → s.ready = true
  drains : s.drains.length = s.tickRunning.toNat
  queued : s.tickRunning = false → s.tickCoalesced = none
  outstanding : ∀ instrument ∈ s.queue, instrument ∈ Outstanding s.history

variable {s s' : PriceEngine} {k : Nat} {changed : List String} {instrument : String}

theorem mem_addAll {queued : List String} :
    instrument ∈ addAll queued changed ↔ instrument ∈ queued ∨ instrument ∈ changed := by
  induction changed generalizing queued with
  | nil => simp [addAll]
  | cons first rest ih =>
    rw [addAll, List.foldl_cons, ← addAll, ih]
    split
    · rename_i hmem
      rw [List.mem_cons]
      constructor
      · rintro (hqueued | hrest)
        · exact .inl hqueued
        · exact .inr (.inr hrest)
      · rintro (hqueued | rfl | hrest)
        · exact .inl hqueued
        · exact .inl hmem
        · exact .inr hrest
    · rw [List.mem_append, List.mem_singleton, List.mem_cons, or_assoc]

theorem nodup_addAll {queued : List String} (changed : List String) (hqueued : queued.Nodup) :
    (addAll queued changed).Nodup := by
  induction changed generalizing queued with
  | nil => exact hqueued
  | cons first rest ih =>
    rw [addAll, List.foldl_cons, ← addAll]
    split
    · exact ih hqueued
    · next hnew => exact ih (List.nodup_append.mpr ⟨hqueued, List.nodup_singleton first, fun a ha b hb heq =>
        hnew (List.mem_singleton.mp hb ▸ heq ▸ ha)⟩)

/-- A call is ignored before anything is recorded, joins the set of the running tick, or starts one. -/
theorem Sound.handlePriceTick_cases (hsound : s.Sound) (changed : List String) :
    s.handlePriceTick changed = s ∨
      (s.tickRunning = true ∧ s.handlePriceTick changed =
        { s with
          tickCoalesced := some (addAll s.queue changed)
          history := .passed changed :: s.history }) ∨
      (s.tickRunning = false ∧ s.handlePriceTick changed =
        { s with
          tickRunning := true
          drains := s.drains ++ [.running]
          history := .started changed :: .passed changed :: s.history }) := by
  rw [handlePriceTick]
  split
  · exact .inl rfl
  · rename_i hchanged
    split
    · exact .inl rfl
    · rename_i henabled
      have hready : s.ready = true := hsound.armed (by simpa using henabled)
      rw [onPriceTick, if_neg (by simp [hready]), if_neg hchanged]
      cases hrunning : s.tickRunning with
      | true => exact .inr (.inl ⟨rfl, by simp [queue]⟩)
      | false => exact .inr (.inr ⟨rfl, by simp⟩)

/-- A settled tick hands the whole queue to the next one, or its call ends and clears the queue. -/
theorem resume_cases (hstep : s.step (.resume k) = some s') :
    ∃ threw, s.drains[k]? = some (.settled threw) ∧
      ((threw = true ∨ s.queue = []) ∧ s' = s.finish k ∨
        threw = false ∧ s.queue ≠ [] ∧ s' =
          { s with
            tickCoalesced := none
            drains := s.drains.set k .running
            history := .started s.queue :: s.history }) := by
  rw [step] at hstep
  split at hstep
  · rename_i hdrain
    refine ⟨false, hdrain, ?_⟩
    obtain rfl := Option.some.inj hstep
    rw [drainNext]
    split
    · rename_i first rest hqueue
      exact .inr ⟨rfl, by simp [queue, hqueue], by simp [queue, hqueue]⟩
    · rename_i hempty
      refine .inl ⟨.inr ?_, rfl⟩
      cases hqueue : s.tickCoalesced with
      | none => simp [queue, hqueue]
      | some queued =>
        cases queued with
        | nil => simp [queue, hqueue]
        | cons first rest => exact absurd hqueue (hempty first rest)
  · rename_i hdrain
    exact ⟨true, hdrain, .inl ⟨.inl rfl, (Option.some.inj hstep).symm⟩⟩
  · cases hstep

theorem settle_cases {threw : Bool} (hstep : s.step (.settle k threw) = some s') :
    s' = { s with drains := s.drains.set k (.settled threw) } := by
  rw [step, Option.bind_eq_bind, Option.bind_eq_some_iff] at hstep
  obtain ⟨_, _, hpure⟩ := hstep
  exact (Option.some.inj hpure).symm

/-! ### Every run -/

theorem Sound.boot : boot.Sound where
  armed henabled := by cases henabled
  drains := rfl
  queued _ := rfl
  outstanding _ hmem := by cases hmem

/-- A suspended call is the one that runs. -/
theorem Sound.running (hsound : s.Sound) {drain : Drain} (hdrain : s.drains[k]? = some drain) :
    s.tickRunning = true ∧ s.drains.length = 1 := by
  obtain ⟨hlt, _⟩ := List.getElem?_eq_some_iff.mp hdrain
  have hlength := hsound.drains
  cases hrunning : s.tickRunning with
  | true => exact ⟨rfl, by simpa [hrunning] using hlength⟩
  | false =>
    rw [hrunning, Bool.toNat_false] at hlength
    omega

theorem Sound.handlePriceTick (hsound : s.Sound) : (s.handlePriceTick changed).Sound := by
  rcases hsound.handlePriceTick_cases changed with heq | ⟨hrunning, heq⟩ | ⟨hidle, heq⟩
  · rwa [heq]
  · rw [heq]
    refine ⟨hsound.armed, hsound.drains, fun hidle => ?_, fun instrument hmem => ?_⟩
    · exact absurd (hrunning.symm.trans hidle) (by decide)
    · rcases mem_addAll.mp hmem with hqueue | hchanged
      · exact .inr (hsound.outstanding instrument hqueue)
      · exact .inl hchanged
  · have hnone := hsound.queued hidle
    rw [heq]
    refine ⟨hsound.armed, ?_, fun hidle => absurd hidle.symm Bool.false_ne_true,
      fun instrument hmem => ?_⟩
    · have hlength := hsound.drains
      rw [hidle, Bool.toNat_false] at hlength
      simp [hlength]
    · rw [queue, hnone] at hmem
      cases hmem

theorem Sound.resume (hsound : s.Sound) (hstep : s.step (.resume k) = some s') : s'.Sound := by
  obtain ⟨threw, hdrain, hcase⟩ := resume_cases hstep
  obtain ⟨hrunning, hlength⟩ := hsound.running hdrain
  rcases hcase with ⟨_, rfl⟩ | ⟨_, _, rfl⟩
  · have hlt := (List.getElem?_eq_some_iff.mp hdrain).1
    refine ⟨hsound.armed, ?_, fun _ => rfl, fun instrument hmem => by cases hmem⟩
    rw [finish, List.length_eraseIdx_of_lt hlt, hlength]
    rfl
  · refine ⟨hsound.armed, ?_, fun hidle => ?_, fun instrument hmem => by cases hmem⟩
    · rw [List.length_set]
      exact hsound.drains
    · exact absurd (hrunning.symm.trans hidle) (by decide)

theorem Sound.step {a : PriceAction} (hsound : s.Sound) (hstep : s.step a = some s') : s'.Sound := by
  cases a with
  | reconcileIndex =>
    obtain rfl := Option.some.inj hstep
    exact ⟨fun _ => rfl, hsound.drains, hsound.queued, hsound.outstanding⟩
  | armEngine initialized =>
    cases initialized with
    | true =>
      obtain rfl := Option.some.inj hstep
      exact ⟨fun _ => rfl, hsound.drains, hsound.queued, hsound.outstanding⟩
    | false =>
      obtain rfl := Option.some.inj hstep
      exact ⟨fun henabled => absurd henabled Bool.false_ne_true, hsound.drains, hsound.queued,
        hsound.outstanding⟩
  | handlePriceTick changed =>
    obtain rfl := Option.some.inj hstep
    exact hsound.handlePriceTick
  | settle k threw =>
    obtain rfl := settle_cases hstep
    refine ⟨hsound.armed, ?_, hsound.queued, hsound.outstanding⟩
    rw [List.length_set]
    exact hsound.drains
  | resume k => exact hsound.resume hstep

theorem reached_sound {ok : PriceEngine → PriceAction → Prop}
    (hreach : Reach step ok (· = PriceEngine.boot) s) : s.Sound :=
  hreach.invariant (fun _ hstart => hstart ▸ .boot) fun _ _ _ hsound _ hstep => hsound.step hstep

/-! ### Runs without a tick that fails while instruments wait -/

/-- Whatever no tick has started with since it was passed is in `_tickCoalesced`. -/
def Covered (s : PriceEngine) : Prop := ∀ instrument ∈ Outstanding s.history, instrument ∈ s.queue

theorem Covered.handlePriceTick (hcovered : s.Covered) (hsound : s.Sound) :
    (s.handlePriceTick changed).Covered := by
  rcases hsound.handlePriceTick_cases changed with heq | ⟨hrunning, heq⟩ | ⟨hidle, heq⟩
  · rwa [heq]
  · rw [heq]
    rintro instrument (hchanged | hmem)
    · exact mem_addAll.mpr (.inr hchanged)
    · exact mem_addAll.mpr (.inl (hcovered instrument hmem))
  · rw [heq]
    rintro instrument ⟨hchanged | hmem, hnot⟩
    · exact absurd hchanged hnot
    · exact hcovered instrument hmem

theorem Covered.resume (hcovered : s.Covered) (hok : s.FailsAlone (.resume k))
    (hstep : s.step (.resume k) = some s') : Served s'.history := by
  obtain ⟨threw, hdrain, hcase⟩ := resume_cases hstep
  rcases hcase with ⟨hcause, rfl⟩ | ⟨_, _, rfl⟩
  · have hempty : s.queue = [] := by
      rcases hcause with rfl | hempty
      · exact hok k rfl hdrain
      · exact hempty
    refine served_iff.mpr fun instrument hmem => ?_
    have hqueue := hcovered instrument hmem
    rw [hempty] at hqueue
    cases hqueue
  · exact .of_started hcovered

theorem Covered.step {a : PriceAction} (hcovered : s.Covered) (hsound : s.Sound)
    (hok : s.FailsAlone a) (hstep : s.step a = some s') : s'.Covered := by
  cases a with
  | reconcileIndex =>
    obtain rfl := Option.some.inj hstep
    exact hcovered
  | armEngine initialized =>
    cases initialized with
    | true =>
      obtain rfl := Option.some.inj hstep
      exact hcovered
    | false =>
      obtain rfl := Option.some.inj hstep
      exact hcovered
  | handlePriceTick changed =>
    obtain rfl := Option.some.inj hstep
    exact hcovered.handlePriceTick hsound
  | settle k threw =>
    obtain rfl := settle_cases hstep
    exact hcovered
  | resume k =>
    exact fun instrument hmem => absurd hmem (served_iff.mp (hcovered.resume hok hstep) instrument)

theorem reached_covered (hreach : Reach step FailsAlone (· = PriceEngine.boot) s) : s.Covered :=
  hreach.invariant_relative (fun h => (reached_sound h : Sound _))
    (fun _ hstart _ hmem => by subst hstart; cases hmem)
    fun _ _ _ hsound hcovered hok hstep => hcovered.step hsound hok hstep

/-- What waits is in the next tick: the step that takes up a settled call leaves nothing outstanding. -/
theorem reached_resume_served (hreach : Reach step FailsAlone (· = PriceEngine.boot) s)
    (hok : s.FailsAlone (.resume k)) (hstep : s.step (.resume k) = some s') : Served s'.history :=
  (reached_covered hreach).resume hok hstep

theorem losesNothing_iff (hsound : s.Sound) : s.LosesNothing ↔ s.Covered := by
  constructor
  · exact fun hloses => (served_or_mem_iff _).mp hloses.included
  · intro hcovered
    refine ⟨?_, (served_or_mem_iff _).mpr hcovered, fun hrest => served_iff.mpr fun instrument hmem => ?_⟩
    · rw [hsound.drains]
      exact Bool.toNat_le _
    · have hlength := hsound.drains
      have hqueue := hcovered instrument hmem
      cases hrunning : s.tickRunning with
      | true => simp [hrest, hrunning] at hlength
      | false =>
        rw [queue, hsound.queued hrunning] at hqueue
        cases hqueue

/-- A tick that throws while instruments wait for it loses them. -/
theorem resume_losesNothing_iff (hreach : Reach step FailsAlone (· = PriceEngine.boot) s)
    (hstep : s.step (.resume k) = some s') : s'.LosesNothing ↔ s.FailsAlone (.resume k) := by
  have hsound := reached_sound hreach
  rw [losesNothing_iff (hsound.resume hstep)]
  constructor
  · intro hcovered j hj hdrain
    obtain rfl := PriceAction.resume.inj hj
    obtain ⟨threw, hdrain', hcase⟩ := resume_cases hstep
    obtain rfl := Drain.settled.inj (Option.some.inj (hdrain.symm.trans hdrain'))
    rcases hcase with ⟨_, rfl⟩ | ⟨hthrew, _⟩
    · refine List.eq_nil_iff_forall_not_mem.mpr fun instrument hmem => ?_
      have hnone := hcovered instrument (hsound.outstanding instrument hmem)
      cases hnone
    · cases hthrew
  · intro hok instrument hmem
    exact absurd hmem (served_iff.mp ((reached_covered hreach).resume hok hstep) instrument)

theorem reached_losesNothing (hreach : Reach step FailsAlone (· = PriceEngine.boot) s) :
    s.LosesNothing :=
  (losesNothing_iff (reached_sound hreach)).mpr (reached_covered hreach)

instance (s : PriceEngine) (a : PriceAction) : Decidable (s.FailsAlone a) :=
  match a with
  | .resume k =>
    decidable_of_iff (s.drains[k]? = some (.settled true) → s.queue = [])
      ⟨fun h j hj => PriceAction.resume.inj hj ▸ h, fun h => h k rfl⟩
  | .reconcileIndex | .armEngine _ | .handlePriceTick _ | .settle _ _ => isTrue (by rintro k ⟨⟩)

/-- Gold moves while the tick of the euro runs, and the tick of gold throws alone. -/
theorem reached_losesNothing_drained :
    ∃ s, run step boot [.armEngine true, .handlePriceTick ["EURUSD"], .handlePriceTick ["XAUUSD"],
        .settle 0 false, .resume 0, .settle 0 true, .resume 0] = some s ∧
      decide (s.drains = []) = true ∧ s.LosesNothing := by
  obtain ⟨s, hrun, hrest⟩ := exists_of_run_any step boot [.armEngine true,
    .handlePriceTick ["EURUSD"], .handlePriceTick ["XAUUSD"], .settle 0 false, .resume 0,
    .settle 0 true, .resume 0] (fun s => decide (s.drains = [])) (by decide +kernel)
  have hok : RunOk step FailsAlone boot [.armEngine true, .handlePriceTick ["EURUSD"],
      .handlePriceTick ["XAUUSD"], .settle 0 false, .resume 0, .settle 0 true, .resume 0] := by
    decide +kernel
  exact ⟨s, hrun, hrest, reached_losesNothing (.of_run (.init rfl) hok hrun)⟩

/-- Gold moves while the tick of the euro runs and throws: no tick ever starts with it. -/
theorem failed_tick_drops_queue :
    ¬∀ s, Reach step (fun _ _ => True) (· = PriceEngine.boot) s → s.LosesNothing := by
  intro hall
  obtain ⟨s, hrun, hend⟩ := exists_of_run_any step boot [.armEngine true,
    .handlePriceTick ["EURUSD"], .handlePriceTick ["XAUUSD"], .settle 0 true, .resume 0]
    (fun s => decide (s.drains = [] ∧ s.history =
      [.passed ["XAUUSD"], .started ["EURUSD"], .passed ["EURUSD"]])) (by decide +kernel)
  obtain ⟨hrest, hhistory⟩ := of_decide_eq_true hend
  have hok : RunOk step (fun _ _ => True) boot [.armEngine true, .handlePriceTick ["EURUSD"],
      .handlePriceTick ["XAUUSD"], .settle 0 true, .resume 0] :=
    .of_forall fun _ _ _ => trivial
  have hserved := (hall s (.of_run (.init rfl) hok hrun)).atRest hrest
  obtain ⟨batch, hbatch, _⟩ := hserved [] _ ["XAUUSD"] hhistory "XAUUSD" List.mem_cons_self
  cases hbatch

end PriceEngine

end PropFirm
