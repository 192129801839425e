import Mathlib.Data.List.Basic
import Mathlib.Logic.Function.Basic
import Mathlib.Order.Nat
import PropFirm.Lib.Transition

/-!
# The lock after wrong codes

Each process keeps, for an address, how often a code from it was wrong, and a lock from the fifth time on.
The two endpoints ask before they read the account and compare the code, and count after it, so requests
that have been let in are counted even when the lock has come in between. An answer other than a wrong code
or a right one leaves the count alone. Times are in milliseconds.
-/

namespace PropFirm

open Transition

def maxAttempts : ℕ := 5

def lockDuration : ℕ := 15 * 60 * 1000

structure AttemptState where
  count : ℕ
  lockedUntil : Option ℕ
  deriving DecidableEq

/-- The entry when there is none. -/
def AttemptState.fresh : AttemptState := ⟨0, none⟩

inductive RateLimitState
  | blocked (remaining : ℕ)
  | letIn (count : ℕ)
  deriving DecidableEq

/-- The entry after the question, and the answer; minutes are rounded up. A lock that is over is forgotten. -/
def checkRateLimit (entry : AttemptState) (now : ℕ) : AttemptState × RateLimitState :=
  match entry.lockedUntil with
  | some lockedUntil =>
    if now < lockedUntil then (entry, .blocked ((lockedUntil - now + 59999) / 60000))
    else (.fresh, .letIn 0)
  | none => (entry, .letIn entry.count)

def recordFailure (entry : AttemptState) (now : ℕ) : AttemptState :=
  let count := entry.count + 1
  ⟨count, if maxAttempts ≤ count then some (now + lockDuration) else entry.lockedUntil⟩

namespace RateLimitState

/-- The requests that an answer lets in. -/
def admitted : RateLimitState → ℕ
  | blocked _ => 0
  | letIn _ => 1

end RateLimitState

/-- What a request does at an endpoint, under the key of its address. -/
inductive CodeEvent
  | ask (key : String)
  | wrong (key : String)
  | right (key : String)
  | otherwise (key : String)
  deriving DecidableEq

structure CodeAction where
  time : ℕ
  event : CodeEvent

/-- `inFlight` are the requests that have been let in and not been answered. -/
structure CodeWorld where
  now : ℕ
  attempts : String → AttemptState
  inFlight : String → ℕ

namespace CodeWorld

def initial : CodeWorld := ⟨0, fun _ => .fresh, fun _ => 0⟩

def put (w : CodeWorld) (time : ℕ) (key : String) (entry : AttemptState) (inFlight : ℕ) : CodeWorld :=
  ⟨time, Function.update w.attempts key entry, Function.update w.inFlight key inFlight⟩

/-- A request that was let in is answered, and leaves the entry. -/
def answer (w : CodeWorld) (time : ℕ) (key : String) (entry : AttemptState) : Option CodeWorld :=
  if w.inFlight key = 0 then none else some (w.put time key entry (w.inFlight key - 1))

def step (w : CodeWorld) (a : CodeAction) : Option CodeWorld :=
  if w.now ≤ a.time then
    match a.event with
    | .ask key =>
      let asked := checkRateLimit (w.attempts key) a.time
      some (w.put a.time key asked.1 (w.inFlight key + asked.2.admitted))
    | .wrong key => w.answer a.time key (recordFailure (w.attempts key) a.time)
    -- `clearAttempts`
    | .right key => w.answer a.time key .fresh
    | .otherwise key => w.answer a.time key (w.attempts key)
  else none

end CodeWorld

/-! ### An entry -/

namespace AttemptState

/-- The count is below the limit as long as there is no lock. -/
def Counted (entry : AttemptState) : Prop := entry.count < maxAttempts ↔ entry.lockedUntil = none

/-- How many codes can still be wrong before the time, when `inFlight` requests are let in now and never
more than `most`. -/
def budget (most stop : ℕ) (entry : AttemptState) (inFlight : ℕ) : ℕ :=
  match entry.lockedUntil with
  | none => maxAttempts - 1 - entry.count + most
  | some lockedUntil => if stop ≤ lockedUntil then inFlight else maxAttempts - 1 + most

variable {entry : AttemptState} {most stop inFlight : ℕ}

theorem fresh_counted : fresh.Counted := iff_of_true (by decide) rfl

theorem Counted.checkRateLimit (hcounted : entry.Counted) (now : ℕ) : (checkRateLimit entry now).1.Counted := by
  unfold PropFirm.checkRateLimit
  split
  · split
    · exact hcounted
    · exact fresh_counted
  · exact hcounted

theorem Counted.recordFailure (hcounted : entry.Counted) (now : ℕ) : (recordFailure entry now).Counted := by
  unfold PropFirm.recordFailure Counted
  dsimp only
  split
  · next hle => exact iff_of_false (Nat.not_lt_of_le hle) (Option.some_ne_none _)
  · next hlt => exact iff_of_true (Nat.lt_of_not_le hlt) (hcounted.mp (by omega))

theorem budget_le (hinFlight : inFlight ≤ most) : budget most stop entry inFlight ≤ maxAttempts - 1 + most := by
  unfold budget
  split
  · omega
  · split <;> omega

/-- While the lock holds nobody is let in, and when it is over the count starts again. -/
theorem budget_checkRateLimit {now : ℕ} (hnow : now < stop) :
    budget most stop (checkRateLimit entry now).1 (inFlight + (checkRateLimit entry now).2.admitted) ≤
      budget most stop entry inFlight := by
  unfold checkRateLimit
  split
  · next lockedUntil hlocked =>
    split
    · exact le_rfl
    · next hover =>
      rw [budget, budget, hlocked]
      dsimp only
      rw [if_neg (by omega)]
      exact le_rfl
  · next hfree =>
    rw [budget, budget, hfree]

/-- A wrong code is paid for: it raises the count, or it locks until the time, and then only those pay that
have been let in. -/
theorem budget_recordFailure {now : ℕ} (hcounted : entry.Counted) (hpos : 0 < inFlight) (hmost : inFlight ≤ most)
    (hstop : stop ≤ now + lockDuration) :
    budget most stop (recordFailure entry now) (inFlight - 1) + 1 ≤ budget most stop entry inFlight := by
  unfold recordFailure
  unfold Counted at hcounted
  dsimp only
  by_cases hlocks : maxAttempts ≤ entry.count + 1
  · rw [if_pos hlocks, budget]
    dsimp only
    rw [if_pos hstop, budget]
    split
    · omega
    · split <;> omega
  · have hfree : entry.lockedUntil = none := hcounted.mp (by omega)
    rw [if_neg hlocks, budget, budget, hfree]
    dsimp only
    omega

theorem budget_mono (most stop : ℕ) (entry : AttemptState) (inFlight : ℕ) :
    budget most stop entry (inFlight - 1) ≤ budget most stop entry inFlight := by
  unfold budget
  split
  · exact le_rfl
  · split <;> omega

end AttemptState

/-! ### Runs -/

namespace CodeWorld

variable {w v : CodeWorld} {a : CodeAction} {key : String} {most start : ℕ}

def Counted (w : CodeWorld) : Prop := ∀ key, (w.attempts key).Counted

/-- What is left for the key. -/
def budget (most stop : ℕ) (key : String) (w : CodeWorld) : ℕ := (w.attempts key).budget most stop (w.inFlight key)

theorem answer_eq_some {time : ℕ} {entry : AttemptState} (hanswer : w.answer time key entry = some v) :
    0 < w.inFlight key ∧ v = w.put time key entry (w.inFlight key - 1) := by
  unfold answer at hanswer
  split at hanswer
  · cases hanswer
  · next hpos => exact ⟨Nat.pos_of_ne_zero hpos, (Option.some.inj hanswer).symm⟩

theorem Counted.put (hcounted : w.Counted) {time inFlight : ℕ} {entry : AttemptState} (hentry : entry.Counted) :
    (w.put time key entry inFlight).Counted := by
  intro other
  change (Function.update w.attempts key entry other).Counted
  by_cases hother : other = key
  · rw [hother, Function.update_self]
    exact hentry
  · rw [Function.update_of_ne hother]
    exact hcounted other

theorem budget_put_self {stop time inFlight : ℕ} {entry : AttemptState} :
    (w.put time key entry inFlight).budget most stop key = entry.budget most stop inFlight := by
  unfold budget CodeWorld.put
  dsimp only
  rw [Function.update_self, Function.update_self]

theorem budget_put_of_ne {stop time inFlight : ℕ} {entry : AttemptState} {other : String} (hne : key ≠ other) :
    (w.put time other entry inFlight).budget most stop key = w.budget most stop key := by
  unfold budget CodeWorld.put
  dsimp only
  rw [Function.update_of_ne hne, Function.update_of_ne hne]

theorem Counted.step (hcounted : w.Counted) (hstep : w.step a = some v) : v.Counted := by
  unfold CodeWorld.step at hstep
  split at hstep
  · split at hstep
    · obtain rfl := Option.some.inj hstep
      exact hcounted.put ((hcounted _).checkRateLimit _)
    · obtain ⟨-, rfl⟩ := answer_eq_some hstep
      exact hcounted.put ((hcounted _).recordFailure _)
    · obtain ⟨-, rfl⟩ := answer_eq_some hstep
      exact hcounted.put AttemptState.fresh_counted
    · obtain ⟨-, rfl⟩ := answer_eq_some hstep
      exact hcounted.put (hcounted _)
  · cases hstep

/-- What a step takes from the budget of a key, if it is not its right code. -/
theorem budget_step (hcounted : w.Counted) (hstep : w.step a = some v) (hright : a.event ≠ .right key)
    (hmost : w.inFlight key ≤ most) (hstart : start ≤ a.time) (hstop : a.time < start + lockDuration) :
    (if a.event = .wrong key then 1 else 0) + v.budget most (start + lockDuration) key ≤
      w.budget most (start + lockDuration) key := by
  unfold CodeWorld.step at hstep
  split at hstep
  · split at hstep
    · next other hevent =>
      obtain rfl := Option.some.inj hstep
      rw [hevent, if_neg (by simp), Nat.zero_add]
      by_cases hother : key = other
      · rw [← hother, budget_put_self]
        exact AttemptState.budget_checkRateLimit hstop
      · rw [budget_put_of_ne hother]
    · next other hevent =>
      obtain ⟨hpos, rfl⟩ := answer_eq_some hstep
      by_cases hother : key = other
      · rw [hevent, ← hother, if_pos rfl, budget_put_self, Nat.add_comm]
        rw [← hother] at hpos
        exact AttemptState.budget_recordFailure (hcounted key) hpos hmost (by omega)
      · rw [hevent, if_neg (by simpa using Ne.symm hother), Nat.zero_add, budget_put_of_ne hother]
    · next other hevent =>
      obtain ⟨-, rfl⟩ := answer_eq_some hstep
      rw [hevent] at hright
      have hother : key ≠ other := fun heq => hright (by rw [heq])
      rw [hevent, if_neg (by simp), Nat.zero_add, budget_put_of_ne hother]
    · next other hevent =>
      obtain ⟨-, rfl⟩ := answer_eq_some hstep
      rw [hevent, if_neg (by simp), Nat.zero_add]
      by_cases hother : key = other
      · rw [← hother, budget_put_self]
        exact AttemptState.budget_mono _ _ _ _
      · rw [budget_put_of_ne hother]
  · cases hstep

/-- Within a quarter of an hour in which no code of an address is right, at most four of its codes are wrong
besides one for every request of it that is let in at a time. -/
theorem wrong_codes_le (hreach : Reach step (fun _ _ => True) (· = initial) w) {actions : List CodeAction}
    (hrun : run step w actions = some v)
    (hwindow : ∀ a ∈ actions, start ≤ a.time ∧ a.time < start + lockDuration)
    (hright : ∀ a ∈ actions, a.event ≠ .right key) (hmost : Along step (fun w => w.inFlight key ≤ most) w actions) :
    actions.countP (·.event = .wrong key) ≤ maxAttempts - 1 + most := by
  have hcounted : w.Counted := by
    refine hreach.invariant ?_ fun _ _ _ hcounted _ hstep => hcounted.step hstep
    rintro w rfl key
    exact AttemptState.fresh_counted
  clear hreach
  have hle : w.inFlight key ≤ most := by
    cases actions with
    | nil => exact hmost
    | cons a actions => exact hmost.1
  have hbudget : w.budget most (start + lockDuration) key ≤ maxAttempts - 1 + most := AttemptState.budget_le hle
  refine le_trans ?_ hbudget
  clear hle hbudget
  induction actions generalizing w with
  | nil => exact Nat.zero_le _
  | cons a actions ih =>
    obtain ⟨next, hstep, hrest⟩ := Option.bind_eq_some_iff.mp hrun
    obtain ⟨hstart, hstop⟩ := hwindow a List.mem_cons_self
    have hone := budget_step hcounted hstep (hright a List.mem_cons_self) hmost.1 hstart hstop
    have hmore := ih hrest (fun a ha => hwindow a (List.mem_cons_of_mem _ ha))
      (fun a ha => hright a (List.mem_cons_of_mem _ ha)) (hmost.2 next hstep) (hcounted.step hstep)
    rw [List.countP_cons]
    simp only [decide_eq_true_eq]
    omega

/-- Four wrong codes one after the other, and six more that were let in together. -/
def tenWrongCodes : List CodeAction :=
  (List.replicate 4 [⟨1000, .ask "203.0.113.7"⟩, ⟨1000, .wrong "203.0.113.7"⟩]).flatten ++
    List.replicate 6 ⟨2000, .ask "203.0.113.7"⟩ ++ List.replicate 6 ⟨3000, .wrong "203.0.113.7"⟩

theorem wrong_codes_le_attained : tenWrongCodes.countP (·.event = .wrong "203.0.113.7") = 10 ∧
    tenWrongCodes.countP (·.event = .wrong "203.0.113.7") ≤ maxAttempts - 1 + 6 := by
  obtain ⟨v, hrun, -⟩ := exists_of_run_any step initial tenWrongCodes (fun _ => true) (by decide)
  have hwindow : ∀ a ∈ tenWrongCodes, 0 ≤ a.time ∧ a.time < 0 + lockDuration := by decide
  refine ⟨by decide, wrong_codes_le (.init rfl) hrun hwindow (by decide) ?_⟩
  decide

end CodeWorld

end PropFirm
