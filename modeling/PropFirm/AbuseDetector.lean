import PropFirm.Lib.InsertionMap
import PropFirm.Lib.Transition
import Mathlib.Data.List.Sort

/-!
# The abuse detector

A process counts the requests of every address and starts again each minute. The request that goes over the
threshold still passes and puts its address into the map of blocked ones, where it stays for an hour. When
the map has grown beyond its limit, the next request that is not blocked takes out what has expired and,
if that is not enough, the fifth that expires first. Times are in milliseconds.
-/

namespace PropFirm

open Transition

def maxAbusiveIps : ℕ := 10000

def abusiveIpTtl : ℕ := 60 * 60 * 1000

def ipBlockThreshold : ℕ := 600

/-- The time when each address is free again. -/
abbrev AbusiveIps := InsertionMap String ℕ

def dropExpired (m : AbusiveIps) (now : ℕ) : AbusiveIps := m.filter fun e => !(e.2 < now)

/-- `sort` on the time, which leaves entries of one time in their order. -/
def oldestEntries (m : AbusiveIps) : List (String × ℕ) :=
  (m.entries.mergeSort fun e e' => e.2 ≤ e'.2).take (m.entries.length / 5)

def dropOldest (m : AbusiveIps) : AbusiveIps := m.filter fun e => e ∉ oldestEntries m

def trimAbusiveIps (m : AbusiveIps) (now : ℕ) : AbusiveIps :=
  if maxAbusiveIps < m.entries.length then
    let kept := dropExpired m now
    if maxAbusiveIps < kept.entries.length then dropOldest kept else kept
  else m

inductive AbuseEvent
  | request (ip : String)
  | resetCounts
  | cleanUp

structure AbuseAction where
  time : ℕ
  event : AbuseEvent

/-- `passed` counts the requests that have gone through. -/
structure AbuseWorld where
  now : ℕ
  abusive : AbusiveIps
  counts : String → ℕ
  passed : String → ℕ

namespace AbuseWorld

def initial : AbuseWorld := ⟨0, .empty, fun _ => 0, fun _ => 0⟩

/-- Blocked at the time. An address that is not is no longer in the map afterwards. -/
def blocked (w : AbuseWorld) (ip : String) (now : ℕ) : Bool := (w.abusive.get? ip).any (now ≤ ·)

def letThrough (w : AbuseWorld) (ip : String) (now : ℕ) : AbuseWorld :=
  let trimmed := trimAbusiveIps (w.abusive.filter (·.1 ≠ ip)) now
  let count := w.counts ip + 1
  { now := now
    abusive := if ipBlockThreshold < count then trimmed.set ip (now + abusiveIpTtl) else trimmed
    counts := Function.update w.counts ip count
    passed := Function.update w.passed ip (w.passed ip + 1) }

def step (w : AbuseWorld) (a : AbuseAction) : Option AbuseWorld :=
  if w.now ≤ a.time then
    match a.event with
    | .request ip => some (if w.blocked ip a.time then { w with now := a.time } else w.letThrough ip a.time)
    | .resetCounts => some { w with now := a.time, counts := fun _ => 0 }
    | .cleanUp => some { w with now := a.time, abusive := dropExpired w.abusive a.time }
  else none

end AbuseWorld

/-! ### The size of the map -/

theorem length_filter_le (m : AbusiveIps) (p : String × ℕ → Bool) :
    (m.filter p).entries.length ≤ m.entries.length :=
  List.length_filter_le _ _

theorem length_set_le (m : AbusiveIps) (ip : String) (time : ℕ) :
    (m.set ip time).entries.length ≤ m.entries.length + 1 := by
  have hkeys : (m.set ip time).keys = if ip ∈ m.keys then m.keys else m.keys ++ [ip] :=
    InsertionMap.keys_modify _ _ _
  have hlength := congrArg List.length hkeys
  rw [InsertionMap.keys, List.length_map] at hlength
  rw [hlength]
  split
  · rw [InsertionMap.keys, List.length_map]
    exact Nat.le_succ _
  · rw [List.length_append, InsertionMap.keys, List.length_map]
    exact le_rfl

/-- A fifth of the entries goes. -/
theorem length_dropOldest (m : AbusiveIps) :
    (dropOldest m).entries.length = m.entries.length - m.entries.length / 5 := by
  have hsorted := List.mergeSort_perm m.entries fun e e' => decide (e.2 ≤ e'.2)
  have hnodup : (m.entries.mergeSort fun e e' => decide (e.2 ≤ e'.2)).Nodup :=
    hsorted.nodup_iff.mpr (m.nodup.of_map _)
  rw [← List.take_append_drop (m.entries.length / 5) (m.entries.mergeSort _), List.nodup_append'] at hnodup
  have htaken : (oldestEntries m).filter (fun e => e ∉ oldestEntries m) = [] := by
    rw [List.filter_eq_nil_iff]
    exact fun e he => by simpa using he
  have hleft : ((m.entries.mergeSort fun e e' => decide (e.2 ≤ e'.2)).drop (m.entries.length / 5)).filter
      (fun e => e ∉ oldestEntries m) =
        (m.entries.mergeSort fun e e' => decide (e.2 ≤ e'.2)).drop (m.entries.length / 5) := by
    rw [List.filter_eq_self]
    exact fun e he => decide_eq_true fun hold => hnodup.2.2 hold he
  calc (dropOldest m).entries.length
      = ((m.entries.mergeSort fun e e' => decide (e.2 ≤ e'.2)).filter fun e => e ∉ oldestEntries m).length :=
        (hsorted.filter _).length_eq.symm
    _ = ((m.entries.mergeSort fun e e' => decide (e.2 ≤ e'.2)).drop (m.entries.length / 5)).length := by
        conv_lhs => rw [← List.take_append_drop (m.entries.length / 5)
          (m.entries.mergeSort fun e e' => decide (e.2 ≤ e'.2)), List.filter_append]
        exact congrArg List.length ((congrArg₂ _ htaken hleft).trans (List.nil_append _))
    _ = m.entries.length - m.entries.length / 5 := by rw [List.length_drop, hsorted.length_eq]

theorem length_trimAbusiveIps {m : AbusiveIps} (now : ℕ) (hlength : m.entries.length ≤ maxAbusiveIps + 1) :
    (trimAbusiveIps m now).entries.length ≤ maxAbusiveIps := by
  unfold trimAbusiveIps
  split
  · have hkept := length_filter_le m fun e => !(e.2 < now)
    dsimp only
    split
    · next hover =>
      have hdropped := length_dropOldest (dropExpired m now)
      change (dropExpired m now).entries.length ≤ _ at hkept
      unfold maxAbusiveIps at *
      omega
    · next hunder => exact Nat.le_of_not_lt hunder
  · next hunder => exact Nat.le_of_not_lt hunder

namespace AbuseWorld

variable {w v : AbuseWorld} {a : AbuseAction}

theorem length_letThrough {ip : String} {now : ℕ} (hlength : w.abusive.entries.length ≤ maxAbusiveIps + 1) :
    (w.letThrough ip now).abusive.entries.length ≤ maxAbusiveIps + 1 := by
  have htrimmed := length_trimAbusiveIps now ((length_filter_le w.abusive (·.1 ≠ ip)).trans hlength)
  unfold letThrough
  dsimp only
  split
  · exact (length_set_le _ _ _).trans (Nat.succ_le_succ htrimmed)
  · exact htrimmed.trans (Nat.le_succ _)

/-- However many addresses flood it, the map has at most one entry more than its limit. -/
theorem abusive_length_le {ok : AbuseWorld → AbuseAction → Prop} (hreach : Reach step ok (· = initial) w) :
    w.abusive.entries.length ≤ maxAbusiveIps + 1 := by
  induction hreach with
  | init hstart =>
    rw [hstart]
    exact Nat.zero_le _
  | next _ _ hstep ih =>
    unfold step at hstep
    split at hstep
    · split at hstep
      · obtain rfl := Option.some.inj hstep
        split
        · exact ih
        · exact length_letThrough ih
      · obtain rfl := Option.some.inj hstep
        exact ih
      · obtain rfl := Option.some.inj hstep
        exact (length_filter_le _ _).trans ih
    · cases hstep

/-- An address that has flooded it is one entry. -/
theorem abusive_length_le_flood : ∃ w : AbuseWorld, w.abusive.entries = [("203.0.113.7", 3661000)] ∧
    w.abusive.entries.length ≤ maxAbusiveIps + 1 := by
  obtain ⟨w, hrun, htest⟩ := exists_of_run_any step initial
    (List.replicate 602 ⟨61000, .request "203.0.113.7"⟩)
    (fun w => w.abusive.entries = [("203.0.113.7", 3661000)]) (by decide +kernel)
  have hreach : Reach step (fun _ _ => True) (· = initial) w :=
    .of_run (.init rfl) (.of_forall fun _ _ _ => trivial) hrun
  exact ⟨w, of_decide_eq_true htest, abusive_length_le hreach⟩

/-! ### The requests of a minute -/

variable {ip : String} {start base : ℕ}

/-- The requests that have passed are those that have been counted, and who has gone over the threshold is
blocked until an hour after the start. -/
structure Limited (ip : String) (start base : ℕ) (w : AbuseWorld) : Prop where
  passed : w.passed ip = base + w.counts ip
  counts_le : w.counts ip ≤ ipBlockThreshold + 1
  blocked : w.counts ip = ipBlockThreshold + 1 →
    ∃ expiresAt, w.abusive.get? ip = some expiresAt ∧ start + abusiveIpTtl ≤ expiresAt

theorem get?_filter_of_true {m : AbusiveIps} {p : String × ℕ → Bool} {expiresAt : ℕ}
    (hget : m.get? ip = some expiresAt) (hkeep : p (ip, expiresAt) = true) : (m.filter p).get? ip = some expiresAt :=
  InsertionMap.get?_filter_eq_some.mpr ⟨hget, hkeep⟩

theorem trimAbusiveIps_of_le {m : AbusiveIps} (now : ℕ) (hlength : m.entries.length ≤ maxAbusiveIps) :
    trimAbusiveIps m now = m :=
  if_neg (Nat.not_lt_of_le hlength)

theorem Limited.letThrough_other (hlimited : Limited ip start base w) {other : String} {now : ℕ} (hne : ip ≠ other)
    (hlength : w.abusive.entries.length ≤ maxAbusiveIps) : Limited ip start base (w.letThrough other now) := by
  have hcounts : (w.letThrough other now).counts ip = w.counts ip := Function.update_of_ne hne _ _
  have hpassed : (w.letThrough other now).passed ip = w.passed ip := Function.update_of_ne hne _ _
  refine ⟨by rw [hpassed, hcounts, hlimited.passed], hcounts ▸ hlimited.counts_le, fun hover => ?_⟩
  obtain ⟨expiresAt, hget, hlate⟩ := hlimited.blocked (hcounts ▸ hover)
  refine ⟨expiresAt, ?_, hlate⟩
  have hkept : (w.abusive.filter (·.1 ≠ other)).get? ip = some expiresAt :=
    get?_filter_of_true hget (decide_eq_true hne)
  unfold letThrough
  dsimp only
  rw [trimAbusiveIps_of_le now ((length_filter_le _ _).trans hlength)]
  split
  · rw [InsertionMap.get?_set, if_neg hne]
    exact hkept
  · exact hkept

theorem Limited.letThrough_self (hlimited : Limited ip start base w) {now : ℕ} (hfree : w.blocked ip now = false)
    (hstart : start ≤ now) (hend : now ≤ start + abusiveIpTtl) : Limited ip start base (w.letThrough ip now) := by
  have hcounts : (w.letThrough ip now).counts ip = w.counts ip + 1 := Function.update_self _ _ _
  have hpassed : (w.letThrough ip now).passed ip = w.passed ip + 1 := Function.update_self _ _ _
  have hunder : w.counts ip ≤ ipBlockThreshold := by
    refine Nat.le_of_lt_succ (lt_of_le_of_ne hlimited.counts_le fun hover => ?_)
    obtain ⟨expiresAt, hget, hlate⟩ := hlimited.blocked hover
    rw [AbuseWorld.blocked, hget, Option.any_some, decide_eq_false_iff_not] at hfree
    exact hfree (hend.trans hlate)
  refine ⟨by rw [hpassed, hcounts, hlimited.passed, Nat.add_assoc], by rw [hcounts]; exact Nat.succ_le_succ hunder,
    fun hover => ⟨now + abusiveIpTtl, ?_, Nat.add_le_add_right hstart _⟩⟩
  rw [hcounts] at hover
  unfold letThrough
  dsimp only
  rw [if_pos (by omega), InsertionMap.get?_set, if_pos rfl]

theorem Limited.step (hlimited : Limited ip start base w) (hstep : w.step a = some v)
    (hreset : a.event ≠ .resetCounts) (hstart : start ≤ a.time) (hend : a.time ≤ start + abusiveIpTtl)
    (hlength : w.abusive.entries.length ≤ maxAbusiveIps) : Limited ip start base v := by
  unfold AbuseWorld.step at hstep
  split at hstep
  · split at hstep
    · next other hevent =>
      obtain rfl := Option.some.inj hstep
      split
      · exact ⟨hlimited.passed, hlimited.counts_le, hlimited.blocked⟩
      · next hfree =>
        by_cases hother : ip = other
        · subst hother
          exact hlimited.letThrough_self (Bool.not_eq_true _ ▸ hfree) hstart hend
        · exact hlimited.letThrough_other hother hlength
    · next hevent => exact absurd hevent hreset
    · obtain rfl := Option.some.inj hstep
      refine ⟨hlimited.passed, hlimited.counts_le, fun hover => ?_⟩
      obtain ⟨expiresAt, hget, hlate⟩ := hlimited.blocked hover
      refine ⟨expiresAt, get?_filter_of_true hget ?_, hlate⟩
      simpa using hend.trans hlate
  · cases hstep

/-- From one reset of the counts to the next, and for an hour without one: no address passes more often than
the threshold and once more, as long as the map does not outgrow its limit. -/
theorem passed_le {u : AbuseWorld} (hreset : u.step ⟨start, .resetCounts⟩ = some w) {actions : List AbuseAction}
    (hrun : run AbuseWorld.step w actions = some v) (hnone : ∀ a ∈ actions, a.event ≠ .resetCounts)
    (hwindow : ∀ a ∈ actions, start ≤ a.time ∧ a.time ≤ start + abusiveIpTtl)
    (hlength : Along AbuseWorld.step (fun w => w.abusive.entries.length ≤ maxAbusiveIps) w actions) :
    v.passed ip ≤ w.passed ip + (ipBlockThreshold + 1) := by
  have hcounts : w.counts = fun _ => 0 := by
    unfold AbuseWorld.step at hreset
    split at hreset
    · rw [← Option.some.inj hreset]
    · cases hreset
  have hlimited : Limited ip start (w.passed ip) w := by
    refine ⟨?_, ?_, ?_⟩
    · rw [hcounts]
      rfl
    · rw [hcounts]
      exact Nat.zero_le _
    · rw [hcounts]
      exact fun hover => absurd hover (Nat.succ_ne_zero _).symm
  suffices hend : Limited ip start (w.passed ip) v by
    rw [hend.passed]
    exact Nat.add_le_add_left hend.counts_le _
  generalize w.passed ip = base at hlimited ⊢
  clear hreset hcounts
  induction actions generalizing w with
  | nil => exact Option.some.inj hrun ▸ hlimited
  | cons a actions ih =>
    obtain ⟨next, hstep, hrest⟩ := Option.bind_eq_some_iff.mp hrun
    obtain ⟨hstart, hend⟩ := hwindow a List.mem_cons_self
    exact ih hrest (fun a ha => hnone a (List.mem_cons_of_mem _ ha))
      (fun a ha => hwindow a (List.mem_cons_of_mem _ ha)) (hlength.2 next hstep)
      (hlimited.step hstep (hnone a List.mem_cons_self) hstart hend hlength.1)

/-- A flood of 700 requests in one second. -/
theorem passed_le_flood : ∃ v : AbuseWorld, v.passed "203.0.113.7" = 601 ∧
    v.passed "203.0.113.7" ≤ 0 + (ipBlockThreshold + 1) := by
  have hreset : initial.step ⟨60000, .resetCounts⟩ = some ⟨60000, .empty, fun _ => 0, fun _ => 0⟩ := rfl
  obtain ⟨v, hrun, htest⟩ := exists_of_run_any AbuseWorld.step ⟨60000, .empty, fun _ => 0, fun _ => 0⟩
    (List.replicate 700 ⟨61000, .request "203.0.113.7"⟩) (fun v => v.passed "203.0.113.7" = 601) (by decide +kernel)
  refine ⟨v, of_decide_eq_true htest, passed_le hreset hrun (fun a ha => ?_) (fun a ha => ?_) ?_⟩
  · rw [List.eq_of_mem_replicate ha]
    exact AbuseEvent.noConfusion
  · rw [List.eq_of_mem_replicate ha]
    decide
  · decide +kernel

end AbuseWorld

end PropFirm
