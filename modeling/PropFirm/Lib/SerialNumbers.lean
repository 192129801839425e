import Mathlib.Data.List.Nodup
import Mathlib.Logic.Function.Basic
import Mathlib.Order.Nat
import PropFirm.Lib.Transition

/-!
# Serial numbers

A counter is a row that every taker of a number writes. In a transaction the taker holds the row till it
ends, whoever else wants a number waits, and the numbers go back when it rolls back; outside of one, a
number is taken for good. From the number comes a name, and a name is stored in a row of a table where
names are unique. If names of different numbers differ, no store is ever refused; if every name is stored
in the transaction that took its number, the names of a counter are numbered without gaps.
-/

namespace SerialNumbers

open Transition

/-- `hand` is the name that has been made and not stored yet. -/
structure Taker (β : Type*) where
  inTransaction : Bool
  hand : Option β

/-- `held` has the transaction that has written a counter, and what it has written. `written` are the rows
of the transactions, by their taker; `refused` counts the stores that the unique names have refused. -/
structure Registry (κ β : Type*) where
  committed : κ → ℕ
  held : κ → Option (ℕ × ℕ)
  takers : ℕ → Option (Taker β)
  written : List (ℕ × ℕ × β)
  rows : List (ℕ × β)
  refused : ℕ

inductive Action (ι : Type*)
  | begin (n : ℕ) (inTransaction : Bool)
  | take (n : ℕ) (input : ι)
  | store (n : ℕ) (row : ℕ)
  | commit (n : ℕ)
  | abort (n : ℕ)
  | remove (row : ℕ)

def put {β : Type*} (rows : List (ℕ × β)) (row : ℕ) (b : β) : List (ℕ × β) :=
  (row, b) :: rows.filter (·.1 ≠ row)

/-- The rows of one transaction, of which the oldest is the last of the list. -/
def publish {β : Type*} (written : List (ℕ × ℕ × β)) (rows : List (ℕ × β)) : List (ℕ × β) :=
  written.foldr (fun e rows => put rows e.2.1 e.2.2) rows

namespace Registry

variable {ι κ β : Type*}

def initial : Registry κ β := ⟨fun _ => 0, fun _ => none, fun _ => none, [], [], 0⟩

/-- A row is numbered by hand, when nobody else is there. -/
def number [DecidableEq κ] (key : ι → κ) (name : ι → ℕ → β) (w : Registry κ β) (row : ℕ) (i : ι) : Registry κ β :=
  { w with
    committed := Function.update w.committed (key i) (w.committed (key i) + 1)
    rows := (row, name i (w.committed (key i) + 1)) :: w.rows }

/-- The counter as `n` sees it. -/
def visible (w : Registry κ β) (n : ℕ) (k : κ) : ℕ :=
  match w.held k with
  | some (m, v) => if m = n then v else w.committed k
  | none => w.committed k

def free (w : Registry κ β) (n : ℕ) (k : κ) : Bool := (w.held k).all (·.1 = n)

/-- The taker is gone, and with it what it has written. -/
def drop (w : Registry κ β) (n : ℕ) : Registry κ β :=
  { w with
    held := fun k => (w.held k).filter (·.1 ≠ n)
    takers := Function.update w.takers n none
    written := w.written.filter (·.1 ≠ n) }

def afterCommit (w : Registry κ β) (n : ℕ) : Registry κ β :=
  { w.drop n with
    committed := w.visible n
    rows := publish (w.written.filter (·.1 = n)) w.rows }

def setHand (w : Registry κ β) (n : ℕ) (t : Taker β) (hand : Option β) : Registry κ β :=
  { w with takers := Function.update w.takers n (some { t with hand := hand }) }

section Step

variable [DecidableEq κ] [DecidableEq β] (key : ι → κ) (name : ι → ℕ → β)

def afterTake (w : Registry κ β) (n : ℕ) (t : Taker β) (input : ι) : Registry κ β :=
  let next := w.visible n (key input) + 1
  let w' := w.setHand n t (some (name input next))
  if t.inTransaction then { w' with held := Function.update w.held (key input) (some (n, next)) }
  else { w' with committed := Function.update w.committed (key input) next }

/-- A store waits for the other transactions that have written the name. -/
def afterStore (w : Registry κ β) (n : ℕ) (t : Taker β) (row : ℕ) (b : β) : Option (Registry κ β) :=
  if w.written.any fun e => e.1 ≠ n && e.2.2 = b then none
  else if (w.rows.any fun e => e.1 ≠ row && e.2 = b) || w.written.any fun e => e.2.1 ≠ row && e.2.2 = b then
    some { w.drop n with refused := w.refused + 1 }
  else if t.inTransaction then some { w.setHand n t none with written := (n, row, b) :: w.written }
  else some { w.setHand n t none with rows := put w.rows row b }

def step (w : Registry κ β) : Action ι → Option (Registry κ β)
  | .begin n inTransaction =>
    if (w.takers n).isNone then
      some { w with takers := Function.update w.takers n (some ⟨inTransaction, none⟩) }
    else none
  | .take n input => (w.takers n).bind fun t =>
    if t.hand.isNone ∧ w.free n (key input) then some (w.afterTake key name n t input) else none
  | .store n row => (w.takers n).bind fun t => t.hand.bind fun b => w.afterStore n t row b
  | .commit n => (w.takers n).bind fun _ => some (w.afterCommit n)
  | .abort n => (w.takers n).bind fun _ => some (w.drop n)
  | .remove row => some { w with rows := w.rows.filter (·.1 ≠ row) }

end Step

end Registry

/-! ### Where a number is -/

inductive Place
  | hand (n : ℕ)
  | row (row : ℕ)

variable {ι κ β : Type*} {key : ι → κ} {name : ι → ℕ → β} {allowed : ι → Prop}

variable (key name allowed) in
/-- A name of a number that is not above the bound and has its place. -/
def Lies (place : κ → ℕ → Option Place) (bound : κ → ℕ) (p : Place) (b : β) : Prop :=
  ∃ i v, allowed i ∧ b = name i v ∧ 0 < v ∧ v ≤ bound (key i) ∧ place (key i) v = some p

theorem Lies.mono {place place' : κ → ℕ → Option Place} {bound bound' : κ → ℕ} {p : Place} {b : β}
    (hlies : Lies key name allowed place bound p b) (hbound : ∀ k, bound k ≤ bound' k)
    (hplace : ∀ k v, v ≤ bound k → place k v = some p → place' k v = some p) :
    Lies key name allowed place' bound' p b := by
  obtain ⟨i, v, hallowed, hb, hpos, hle, hp⟩ := hlies
  exact ⟨i, v, hallowed, hb, hpos, Nat.le_trans hle (hbound _), hplace _ _ hle hp⟩

variable (key name allowed) in
/-- Two allowed inputs make one name only from one number of one counter. -/
def Separates : Prop :=
  ∀ i j v v', allowed i → allowed j → name i v = name j v' → key i = key j ∧ v = v'

/-- A name is in one place. -/
theorem Lies.place_unique (hname : Separates key name allowed) {place : κ → ℕ → Option Place}
    {bound bound' : κ → ℕ} {p p' : Place} {b : β} (hlies : Lies key name allowed place bound p b)
    (hlies' : Lies key name allowed place bound' p' b) : p = p' := by
  obtain ⟨i, v, hi, rfl, -, -, hp⟩ := hlies
  obtain ⟨j, v', hj, heq, -, -, hp'⟩ := hlies'
  obtain ⟨hkey, rfl⟩ := hname i j v v' hi hj heq
  rw [hkey, hp'] at hp
  exact (Option.some.inj hp).symm

variable (key name allowed) in
structure Sound (w : Registry κ β) (place : κ → ℕ → Option Place) : Prop where
  held : ∀ k n v, w.held k = some (n, v) → w.committed k < v ∧ ∃ t, w.takers n = some t ∧ t.inTransaction = true
  placed : ∀ k v p, place k v = some p → v ≤ w.committed k ∨ ∃ n u, w.held k = some (n, u) ∧ v ≤ u
  hands : ∀ n t b, w.takers n = some t → t.hand = some b → Lies key name allowed place (w.visible n) (.hand n) b
  written : ∀ e ∈ w.written, Lies key name allowed place (w.visible e.1) (.row e.2.1) e.2.2
  rows : ∀ e ∈ w.rows, Lies key name allowed place w.committed (.row e.1) e.2
  refused : w.refused = 0

variable {w w₁ : Registry κ β} {place : κ → ℕ → Option Place} {n m r : ℕ} {t : Taker β} {b : β} {k : κ}

section Visible

theorem Registry.visible_of_not_held (hheld : ∀ v, w.held k ≠ some (n, v)) : w.visible n k = w.committed k := by
  rw [Registry.visible]
  cases hk : w.held k with
  | none => rfl
  | some e =>
    obtain ⟨m, v⟩ := e
    refine if_neg fun hm => hheld v ?_
    rw [hk, hm]

theorem Registry.visible_of_held {v : ℕ} (hheld : w.held k = some (n, v)) : w.visible n k = v := by
  rw [Registry.visible, hheld]
  exact if_pos rfl

theorem Sound.committed_le_visible (hsound : Sound key name allowed w place) (n : ℕ) (k : κ) :
    w.committed k ≤ w.visible n k := by
  by_cases hheld : ∃ v, w.held k = some (n, v)
  · obtain ⟨v, hv⟩ := hheld
    rw [Registry.visible_of_held hv]
    exact (hsound.held k n v hv).1.le
  · rw [Registry.visible_of_not_held fun v hv => hheld ⟨v, hv⟩]

/-- Who may write a counter sees as much of it as anyone. -/
theorem Sound.visible_le_of_free (hsound : Sound key name allowed w place) (hfree : w.free n k = true) (m : ℕ) :
    w.visible m k ≤ w.visible n k := by
  by_cases hheld : ∃ v, w.held k = some (m, v)
  · obtain ⟨v, hv⟩ := hheld
    rw [Registry.free, hv, Option.all_some, decide_eq_true_eq] at hfree
    rw [show m = n from hfree]
  · rw [Registry.visible_of_not_held fun v hv => hheld ⟨v, hv⟩]
    exact hsound.committed_le_visible n k

theorem Sound.fresh (hsound : Sound key name allowed w place) (hfree : w.free n k = true) :
    place k (w.visible n k + 1) = none := by
  cases hplace : place k (w.visible n k + 1) with
  | none => rfl
  | some p =>
    exfalso
    rcases hsound.placed k _ p hplace with hle | ⟨m, u, hheld, hle⟩
    · have := hsound.committed_le_visible n k
      omega
    · have := hsound.visible_le_of_free hfree m
      rw [Registry.visible_of_held hheld] at this
      omega

/-- A counter that is held by nobody is held by no taker outside of a transaction. -/
theorem Sound.held_eq_none (hsound : Sound key name allowed w place) (hfree : w.free n k = true)
    (htaker : w.takers n = some t) (houtside : t.inTransaction = false) : w.held k = none := by
  cases hheld : w.held k with
  | none => rfl
  | some e =>
    obtain ⟨m, v⟩ := e
    rw [Registry.free, hheld, Option.all_some, decide_eq_true_eq] at hfree
    obtain ⟨-, t', ht', hinside⟩ := hsound.held k m v hheld
    rw [show m = n from hfree, htaker] at ht'
    rw [← Option.some.inj ht', houtside] at hinside
    cases hinside

end Visible

/-! ### What a step does to it -/

/-- A taker without a hand comes, or its hand is emptied. -/
theorem Sound.emptyHand (hsound : Sound key name allowed w place)
    (htakers : w₁.takers = Function.update w.takers n (some ⟨t.inTransaction, none⟩))
    (hsame : ∀ t', w.takers n = some t' → t'.inTransaction = true → t.inTransaction = true)
    (hcommitted : w₁.committed = w.committed) (hheld : w₁.held = w.held) (hwritten : w₁.written = w.written)
    (hrows : w₁.rows = w.rows) (hrefused : w₁.refused = w.refused) : Sound key name allowed w₁ place := by
  have hvisible : w₁.visible = w.visible := by
    funext m k
    rw [Registry.visible, Registry.visible, hheld, hcommitted]
  refine ⟨fun k m v hk => ?_, ?_, fun m t' b ht' hb => ?_, ?_, ?_, hrefused.trans hsound.refused⟩
  · rw [hheld] at hk
    obtain ⟨hlt, t', ht', hinside⟩ := hsound.held k m v hk
    rw [hcommitted, htakers]
    refine ⟨hlt, ?_⟩
    by_cases hm : m = n
    · rw [hm, Function.update_self]
      exact ⟨_, rfl, hsame t' (hm ▸ ht') hinside⟩
    · rw [Function.update_of_ne hm]
      exact ⟨t', ht', hinside⟩
  · rw [hcommitted, hheld]
    exact hsound.placed
  · rw [htakers] at ht'
    rw [hvisible]
    by_cases hm : m = n
    · rw [hm, Function.update_self] at ht'
      rw [← Option.some.inj ht'] at hb
      cases hb
    · rw [Function.update_of_ne hm] at ht'
      exact hsound.hands m t' b ht' hb
  · rw [hwritten, hvisible]
    exact hsound.written
  · rw [hrows, hcommitted]
    exact hsound.rows

def setPlace [DecidableEq κ] (place : κ → ℕ → Option Place) (k : κ) (v : ℕ) (p : Place) : κ → ℕ → Option Place :=
  fun j u => if j = k ∧ u = v then some p else place j u

theorem setPlace_of_ne [DecidableEq κ] {p q : Place} {j : κ} {u v : ℕ} (hne : place k v ≠ some p)
    (hplace : place j u = some p) : setPlace place k v q j u = some p := by
  rw [setPlace, if_neg]
  · exact hplace
  · rintro ⟨rfl, rfl⟩
    exact hne hplace

theorem Sound.setPlace_placed [DecidableEq κ] (hsound : Sound key name allowed w place) {v : ℕ} {p q : Place}
    (hold : place k v = some p) : ∀ j u p', setPlace place k v q j u = some p' →
      u ≤ w.committed j ∨ ∃ n u', w.held j = some (n, u') ∧ u ≤ u' := by
  intro j u p' hplace
  rw [setPlace] at hplace
  split at hplace
  · next hboth =>
    rw [hboth.1, hboth.2]
    exact hsound.placed k v p hold
  · exact hsound.placed j u p' hplace

section Take

variable [DecidableEq κ] {i : ι}

theorem Sound.taken (hsound : Sound key name allowed w place) (hallowed : allowed i)
    (hfresh : place (key i) (w.visible n (key i) + 1) = none)
    (hcommitted : ∀ k, w.committed k ≤ w₁.committed k) (hvisible : ∀ m k, w.visible m k ≤ w₁.visible m k)
    (hnext : w₁.visible n (key i) = w.visible n (key i) + 1)
    (htakers : w₁.takers =
      Function.update w.takers n (some { t with hand := some (name i (w.visible n (key i) + 1)) }))
    (hwritten : w₁.written = w.written) (hrows : w₁.rows = w.rows) (hrefused : w₁.refused = w.refused)
    (hheld : ∀ k m v, w₁.held k = some (m, v) → w₁.committed k < v ∧
      ∃ t, w₁.takers m = some t ∧ t.inTransaction = true)
    (hplaced : ∀ k v, v ≤ w.committed k ∨ (∃ m u, w.held k = some (m, u) ∧ v ≤ u) ∨
      (k = key i ∧ v = w.visible n (key i) + 1) → v ≤ w₁.committed k ∨ ∃ m u, w₁.held k = some (m, u) ∧ v ≤ u) :
    Sound key name allowed w₁ (setPlace place (key i) (w.visible n (key i) + 1) (.hand n)) := by
  have hkept : ∀ {p : Place} {j : κ} {u : ℕ}, place j u = some p →
      setPlace place (key i) (w.visible n (key i) + 1) (.hand n) j u = some p := by
    intro p j u hplace
    refine setPlace_of_ne ?_ hplace
    rw [hfresh]
    exact (Option.some_ne_none p).symm
  refine ⟨hheld, fun k v p hplace => hplaced k v ?_, fun m t' b ht' hb => ?_, fun e he => ?_, fun e he => ?_,
    hrefused.trans hsound.refused⟩
  · rw [setPlace] at hplace
    split at hplace
    · next hboth => exact .inr (.inr hboth)
    · rcases hsound.placed k v p hplace with hle | hheld'
      · exact .inl hle
      · exact .inr (.inl hheld')
  · rw [htakers] at ht'
    by_cases hm : m = n
    · rw [hm, Function.update_self] at ht'
      rw [← Option.some.inj ht'] at hb
      rw [hm]
      exact ⟨i, _, hallowed, (Option.some.inj hb).symm, Nat.succ_pos _, hnext.ge, if_pos ⟨rfl, rfl⟩⟩
    · rw [Function.update_of_ne hm] at ht'
      exact (hsound.hands m t' b ht' hb).mono (hvisible m) fun _ _ _ => hkept
  · rw [hwritten] at he
    exact (hsound.written e he).mono (hvisible _) fun _ _ _ => hkept
  · rw [hrows] at he
    exact (hsound.rows e he).mono hcommitted fun _ _ _ => hkept

theorem Registry.afterTake_of_inTransaction (hinside : t.inTransaction = true) :
    w.afterTake key name n t i = { w.setHand n t (some (name i (w.visible n (key i) + 1))) with
      held := Function.update w.held (key i) (some (n, w.visible n (key i) + 1)) } :=
  if_pos hinside

theorem Sound.afterTake (hsound : Sound key name allowed w place) (hallowed : allowed i)
    (htaker : w.takers n = some t) (hfree : w.free n (key i) = true) :
    Sound key name allowed (w.afterTake key name n t i)
      (setPlace place (key i) (w.visible n (key i) + 1) (.hand n)) := by
  have hcommitted := hsound.committed_le_visible n (key i)
  have hholders : ∀ {k m v}, w.held k = some (m, v) → ∃ t', Function.update w.takers n
      (some { t with hand := some (name i (w.visible n (key i) + 1)) }) m = some t' ∧ t'.inTransaction = true := by
    intro k m v hk
    obtain ⟨-, t', ht', hinside⟩ := hsound.held k m v hk
    by_cases hm : m = n
    · rw [hm, Function.update_self]
      rw [hm, htaker] at ht'
      rw [← Option.some.inj ht'] at hinside
      exact ⟨_, rfl, hinside⟩
    · rw [Function.update_of_ne hm]
      exact ⟨t', ht', hinside⟩
  by_cases hinside : t.inTransaction = true
  · have heq : w.afterTake key name n t i = { w.setHand n t (some (name i (w.visible n (key i) + 1))) with
        held := Function.update w.held (key i) (some (n, w.visible n (key i) + 1)) } :=
      Registry.afterTake_of_inTransaction hinside
    have hself : (w.afterTake key name n t i).held (key i) = some (n, w.visible n (key i) + 1) := by
      rw [heq]
      exact Function.update_self _ _ _
    have htakers : (w.afterTake key name n t i).takers n =
        some { t with hand := some (name i (w.visible n (key i) + 1)) } := by
      rw [heq]
      exact Function.update_self _ _ _
    have hother : ∀ k, k ≠ key i → (w.afterTake key name n t i).held k = w.held k := by
      intro k hk
      rw [heq]
      exact Function.update_of_ne hk _ _
    have hsame : (w.afterTake key name n t i).committed = w.committed := by rw [heq]; rfl
    have hvisible : ∀ m k, k ≠ key i → (w.afterTake key name n t i).visible m k = w.visible m k := by
      intro m k hk
      rw [Registry.visible, Registry.visible, hother k hk, hsame]
    refine hsound.taken hallowed (hsound.fresh hfree) (fun k => by rw [hsame]) (fun m k => ?_)
      (Registry.visible_of_held hself) (by rw [heq]; rfl) (by rw [heq]; rfl) (by rw [heq]; rfl) (by rw [heq]; rfl)
      (fun k m v hk => ?_) fun k v hold => ?_
    · by_cases hk : k = key i
      · rw [hk]
        by_cases hm : m = n
        · rw [hm, Registry.visible_of_held hself]
          exact Nat.le_succ _
        · rw [Registry.visible_of_not_held fun v hv => hm ?_, Registry.visible_of_not_held fun v hv => hm ?_, hsame]
          · exact (Prod.mk.inj (Option.some.inj (hself.symm.trans hv))).1.symm
          · rw [Registry.free, hv, Option.all_some, decide_eq_true_eq] at hfree
            exact hfree
      · rw [hvisible m k hk]
    · rw [hsame]
      by_cases hk' : k = key i
      · rw [hk', hself] at hk
        obtain ⟨rfl, rfl⟩ := Prod.mk.inj (Option.some.inj hk)
        rw [hk']
        exact ⟨Nat.lt_succ_of_le hcommitted, _, htakers, hinside⟩
      · rw [hother k hk'] at hk
        rw [heq]
        exact ⟨(hsound.held k m v hk).1, hholders hk⟩
    · rw [hsame]
      rcases hold with hle | ⟨m, u, hk, hle⟩ | ⟨rfl, rfl⟩
      · exact .inl hle
      · refine .inr ?_
        by_cases hk' : k = key i
        · obtain rfl := hk'
          have hseen := hsound.visible_le_of_free hfree m
          rw [Registry.visible_of_held hk] at hseen
          exact ⟨n, _, hself, by omega⟩
        · exact ⟨m, u, (hother k hk').trans hk, hle⟩
      · exact .inr ⟨n, _, hself, le_rfl⟩
  · have heq : w.afterTake key name n t i = { w.setHand n t (some (name i (w.visible n (key i) + 1))) with
        committed := Function.update w.committed (key i) (w.visible n (key i) + 1) } := if_neg hinside
    have hnone := hsound.held_eq_none hfree htaker (Bool.not_eq_true _ ▸ hinside)
    have hself : (w.afterTake key name n t i).committed (key i) = w.visible n (key i) + 1 := by
      rw [heq]
      exact Function.update_self _ _ _
    have hother : ∀ k, k ≠ key i → (w.afterTake key name n t i).committed k = w.committed k := by
      intro k hk
      rw [heq]
      exact Function.update_of_ne hk _ _
    have hsame : (w.afterTake key name n t i).held = w.held := by rw [heq]; rfl
    have hgrows : ∀ k, w.committed k ≤ (w.afterTake key name n t i).committed k := by
      intro k
      by_cases hk : k = key i
      · rw [hk, hself]
        omega
      · rw [hother k hk]
    have hunheld : ∀ m, (w.afterTake key name n t i).visible m (key i) = w.visible n (key i) + 1 := by
      intro m
      rw [Registry.visible, hsame, hnone]
      exact hself
    refine hsound.taken hallowed (hsound.fresh hfree) hgrows (fun m k => ?_) (hunheld n) (by rw [heq]; rfl)
      (by rw [heq]; rfl) (by rw [heq]; rfl) (by rw [heq]; rfl) (fun k m v hk => ?_) fun k v hold => ?_
    · by_cases hk : k = key i
      · rw [hk, hunheld m]
        exact (hsound.visible_le_of_free hfree m).trans (Nat.le_succ _)
      · rw [Registry.visible, Registry.visible, hsame, hother k hk]
    · rw [hsame] at hk
      have hk' : k ≠ key i := by
        rintro rfl
        rw [hnone] at hk
        cases hk
      rw [hother k hk', heq]
      exact ⟨(hsound.held k m v hk).1, hholders hk⟩
    · rw [hsame]
      rcases hold with hle | hheld | ⟨rfl, rfl⟩
      · exact .inl (hle.trans (hgrows k))
      · exact .inr hheld
      · exact .inl hself.ge

end Take

theorem mem_put {rows : List (ℕ × β)} {e : ℕ × β} : e ∈ put rows r b ↔ e = (r, b) ∨ e ∈ rows ∧ e.1 ≠ r := by
  rw [put, List.mem_cons, List.mem_filter, decide_eq_true_eq]

section Store

variable [DecidableEq β]

/-- No store is refused, and none waits for another. -/
theorem Sound.afterStore_eq (hname : Separates key name allowed) (hsound : Sound key name allowed w place)
    (htaker : w.takers n = some t) (hhand : t.hand = some b) :
    w.afterStore n t r b = some (if t.inTransaction then
      { w.setHand n t none with written := (n, r, b) :: w.written }
    else { w.setHand n t none with rows := put w.rows r b }) := by
  have hlies := hsound.hands n t b htaker hhand
  have hwritten : ∀ e ∈ w.written, e.2.2 ≠ b := by
    rintro e he rfl
    cases hlies.place_unique hname (hsound.written e he)
  have hrows : ∀ e ∈ w.rows, e.2 ≠ b := by
    rintro e he rfl
    cases hlies.place_unique hname (hsound.rows e he)
  rw [Registry.afterStore, if_neg, if_neg]
  · split <;> rfl
  · simp only [Bool.or_eq_true, List.any_eq_true, Bool.and_eq_true, decide_eq_true_eq, not_or]
    exact ⟨fun hany => hrows _ hany.choose_spec.1 hany.choose_spec.2.2,
      fun hany => hwritten _ hany.choose_spec.1 hany.choose_spec.2.2⟩
  · simp only [List.any_eq_true, Bool.and_eq_true, decide_eq_true_eq]
    exact fun hany => hwritten _ hany.choose_spec.1 hany.choose_spec.2.2

theorem Sound.afterStore [DecidableEq κ] (hname : Separates key name allowed)
    (hsound : Sound key name allowed w place) (htaker : w.takers n = some t) (hhand : t.hand = some b)
    (hstore : w.afterStore n t r b = some w₁) : ∃ place₁, Sound key name allowed w₁ place₁ := by
  rw [hsound.afterStore_eq hname htaker hhand] at hstore
  obtain rfl := Option.some.inj hstore
  obtain ⟨i, v, hallowed, rfl, hpos, hle, hplace⟩ := hsound.hands n t b htaker hhand
  have hempty : Sound key name allowed (w.setHand n t none) place :=
    hsound.emptyHand rfl (fun t' ht' hinside => Option.some.inj (htaker.symm.trans ht') ▸ hinside) rfl rfl rfl rfl rfl
  have hkept : ∀ {p : Place} {j : κ} {u : ℕ}, p ≠ .hand n → place j u = some p →
      setPlace place (key i) v (.row r) j u = some p := by
    intro p j u hp hold
    refine setPlace_of_ne ?_ hold
    rw [hplace]
    exact fun heq => hp (Option.some.inj heq).symm
  have hnew : ∀ bound : κ → ℕ, v ≤ bound (key i) →
      Lies key name allowed (setPlace place (key i) v (.row r)) bound (.row r) (name i v) := fun bound hbound =>
    ⟨i, v, hallowed, rfl, hpos, hbound, if_pos ⟨rfl, rfl⟩⟩
  have hhands : ∀ m t' b, (w.setHand n t none).takers m = some t' → t'.hand = some b →
      Lies key name allowed (setPlace place (key i) v (.row r)) ((w.setHand n t none).visible m) (.hand m) b := by
    intro m t' b ht' hb
    have hm : m ≠ n := by
      rintro rfl
      have heq := (Function.update_self _ _ _).symm.trans ht'
      rw [← Option.some.inj heq] at hb
      cases hb
    exact (hempty.hands m t' b ht' hb).mono (fun _ => le_rfl) fun _ _ _ =>
      hkept fun heq => hm (Place.hand.inj heq)
  have hrow : ∀ {m : ℕ}, Place.row m ≠ .hand n := Place.noConfusion
  refine ⟨setPlace place (key i) v (.row r), ?_⟩
  split
  · refine ⟨hempty.held, hempty.setPlace_placed hplace, hhands, fun e he => ?_, fun e he => ?_, hempty.refused⟩
    · rcases List.mem_cons.mp he with rfl | he
      · exact hnew _ hle
      · exact (hempty.written e he).mono (fun _ => le_rfl) fun _ _ _ => hkept hrow
    · exact (hempty.rows e he).mono (fun _ => le_rfl) fun _ _ _ => hkept hrow
  · next houtside =>
    refine ⟨hempty.held, hempty.setPlace_placed hplace, hhands, fun e he => ?_, fun e he => ?_, hempty.refused⟩
    · exact (hempty.written e he).mono (fun _ => le_rfl) fun _ _ _ => hkept hrow
    · rcases mem_put.mp he with rfl | ⟨he, -⟩
      · refine hnew _ (hle.trans (Registry.visible_of_not_held fun u hu => houtside ?_).le)
        obtain ⟨-, t', ht', hinside⟩ := hsound.held _ _ _ hu
        rw [Option.some.inj (htaker.symm.trans ht')]
        exact hinside
      · exact (hempty.rows e he).mono (fun _ => le_rfl) fun _ _ _ => hkept hrow

end Store

section Drop

theorem Registry.held_drop {e : ℕ × ℕ} : (w.drop n).held k = some e ↔ w.held k = some e ∧ e.1 ≠ n := by
  rw [Registry.drop, Option.filter_eq_some_iff, decide_eq_true_eq]

theorem Registry.takers_drop (ht : (w.drop n).takers m = some t) : m ≠ n ∧ w.takers m = some t := by
  by_cases hm : m = n
  · rw [hm] at ht
    have hnone := (Function.update_self _ _ _).symm.trans ht
    cases hnone
  · exact ⟨hm, (Function.update_of_ne hm _ _).symm.trans ht⟩

/-- A transaction that goes away takes its numbers back. -/
theorem Registry.visible_drop (hm : m ≠ n) : (w.drop n).visible m = w.visible m := by
  funext k
  by_cases hheld : ∃ v, w.held k = some (m, v)
  · obtain ⟨v, hv⟩ := hheld
    rw [visible_of_held hv, visible_of_held (held_drop.mpr ⟨hv, hm⟩)]
  · rw [visible_of_not_held fun v hv => hheld ⟨v, hv⟩,
      visible_of_not_held fun v hv => hheld ⟨v, (held_drop.mp hv).1⟩]
    rfl

theorem Sound.drop_held (hsound : Sound key name allowed w place) {v : ℕ} (hheld : (w.drop n).held k = some (m, v)) :
    w.committed k < v ∧ m ≠ n ∧ ∃ t, (w.drop n).takers m = some t ∧ t.inTransaction = true := by
  obtain ⟨hk, hm⟩ := Registry.held_drop.mp hheld
  obtain ⟨hlt, t, ht, hinside⟩ := hsound.held k m v hk
  exact ⟨hlt, hm, t, (Function.update_of_ne hm _ _).trans ht, hinside⟩

theorem Sound.drop (hsound : Sound key name allowed w place) (n : ℕ) :
    ∃ place₁, Sound key name allowed (w.drop n) place₁ := by
  refine ⟨fun k v => if (w.held k).any (·.1 = n) ∧ w.committed k < v then none else place k v, ?_⟩
  have hkept : ∀ {p : Place} {j : κ} {u : ℕ}, (∀ v, w.held j = some (n, v) → u ≤ w.committed j) →
      place j u = some p → (if (w.held j).any (·.1 = n) ∧ w.committed j < u then none else place j u) = some p := by
    intro p j u hbound hold
    rw [if_neg, hold]
    rintro ⟨hany, hlt⟩
    obtain ⟨⟨m, v⟩, hv, hm⟩ := (Option.any_eq_true _ _).mp hany
    have hle := hbound v (by rw [hv, show m = n from of_decide_eq_true hm])
    omega
  have hvisible : ∀ {m : ℕ} {j : κ} {u : ℕ}, m ≠ n → u ≤ w.visible m j → ∀ v, w.held j = some (n, v) →
      u ≤ w.committed j := by
    intro m j u hm hu v hv
    rwa [Registry.visible_of_not_held fun v' hv' => hm ?_] at hu
    exact (Prod.mk.inj (Option.some.inj (hv'.symm.trans hv))).1
  refine ⟨fun k m v hheld => ?_, fun k v p hplace => ?_, fun m t b ht hb => ?_, fun e he => ?_, fun e he => ?_,
    hsound.refused⟩
  · obtain ⟨hlt, -, ht⟩ := hsound.drop_held hheld
    exact ⟨hlt, ht⟩
  · split at hplace
    · cases hplace
    · next hnot =>
      rcases hsound.placed k v p hplace with hle | ⟨m, u, hheld, hle⟩
      · exact .inl hle
      · by_cases hm : m = n
        · refine .inl (Nat.le_of_not_lt fun hlt => hnot ⟨?_, hlt⟩)
          rw [hheld, Option.any_some]
          exact decide_eq_true hm
        · exact .inr ⟨m, u, Registry.held_drop.mpr ⟨hheld, hm⟩, hle⟩
  · obtain ⟨hm, ht⟩ := Registry.takers_drop ht
    rw [Registry.visible_drop hm]
    exact (hsound.hands m t b ht hb).mono (fun _ => le_rfl) fun _ _ hu => hkept (hvisible hm hu)
  · obtain ⟨he, hm⟩ := List.mem_filter.mp he
    have hm : e.1 ≠ n := of_decide_eq_true hm
    rw [Registry.visible_drop hm]
    exact (hsound.written e he).mono (fun _ => le_rfl) fun _ _ hu => hkept (hvisible hm hu)
  · exact (hsound.rows e he).mono (fun _ => le_rfl) fun _ _ hu => hkept fun _ _ => hu

end Drop

section Commit

theorem mem_publish {ws : List (ℕ × ℕ × β)} {rows : List (ℕ × β)} {e : ℕ × β} (he : e ∈ publish ws rows) :
    e ∈ rows ∨ ∃ n, (n, e) ∈ ws := by
  induction ws with
  | nil => exact .inl he
  | cons first ws ih =>
    rcases mem_put.mp he with rfl | ⟨he, -⟩
    · exact .inr ⟨first.1, List.mem_cons_self⟩
    · rcases ih he with hrow | ⟨n, hmem⟩
      · exact .inl hrow
      · exact .inr ⟨n, List.mem_cons_of_mem _ hmem⟩

theorem Sound.afterCommit (hsound : Sound key name allowed w place) (n : ℕ) :
    Sound key name allowed (w.afterCommit n) place := by
  have hothers : ∀ {m : ℕ}, m ≠ n → ∀ k, w.visible m k ≤ (w.afterCommit n).visible m k := by
    intro m hm k
    by_cases hheld : ∃ v, w.held k = some (m, v)
    · obtain ⟨v, hv⟩ := hheld
      rw [Registry.visible_of_held hv,
        Registry.visible_of_held (w := w.afterCommit n) (Registry.held_drop.mpr ⟨hv, hm⟩)]
    · rw [Registry.visible_of_not_held fun v hv => hheld ⟨v, hv⟩, Registry.visible_of_not_held
        (w := w.afterCommit n) fun v hv => hheld ⟨v, (Registry.held_drop.mp hv).1⟩]
      exact hsound.committed_le_visible n k
  refine ⟨fun k m v hheld => ?_, fun k v p hplace => ?_, fun m t b ht hb => ?_, fun e he => ?_, fun e he => ?_,
    hsound.refused⟩
  · obtain ⟨hlt, hm, ht⟩ := hsound.drop_held hheld
    refine ⟨?_, ht⟩
    change w.visible n k < v
    rwa [Registry.visible_of_not_held fun u hu => hm ?_]
    exact (Prod.mk.inj (Option.some.inj ((Registry.held_drop.mp hheld).1.symm.trans hu))).1
  · rcases hsound.placed k v p hplace with hle | ⟨m, u, hheld, hle⟩
    · exact .inl (hle.trans (hsound.committed_le_visible n k))
    · by_cases hm : m = n
      · refine .inl (hle.trans_eq ?_)
        exact (Registry.visible_of_held (hm ▸ hheld)).symm
      · exact .inr ⟨m, u, Registry.held_drop.mpr ⟨hheld, hm⟩, hle⟩
  · obtain ⟨hm, ht⟩ := Registry.takers_drop ht
    exact (hsound.hands m t b ht hb).mono (hothers hm) fun _ _ _ => id
  · obtain ⟨he, hm⟩ := List.mem_filter.mp he
    exact (hsound.written e he).mono (hothers (of_decide_eq_true hm)) fun _ _ _ => id
  · rcases mem_publish he with he | ⟨m, he⟩
    · exact (hsound.rows e he).mono (hsound.committed_le_visible n) fun _ _ _ => id
    · obtain ⟨he, hm⟩ := List.mem_filter.mp he
      rw [← show m = n from of_decide_eq_true hm]
      exact hsound.written _ he

end Commit

/-- Every number is taken for an allowed input. -/
def Allowed (allowed : ι → Prop) (_ : Registry κ β) : Action ι → Prop
  | .take _ i => allowed i
  | _ => True

section Step

variable [DecidableEq κ] [DecidableEq β]

theorem Sound.step (hname : Separates key name allowed) (hsound : Sound key name allowed w place) {a : Action ι}
    (hallowed : Allowed allowed w a) (hstep : w.step key name a = some w₁) :
    ∃ place₁, Sound key name allowed w₁ place₁ := by
  cases a with
  | begin n inTransaction =>
    rw [Registry.step] at hstep
    split at hstep
    · next hnone =>
      obtain rfl := Option.some.inj hstep
      refine ⟨place, hsound.emptyHand (t := ⟨inTransaction, none⟩) rfl (fun t' ht' _ => ?_) rfl rfl rfl rfl rfl⟩
      rw [ht'] at hnone
      cases hnone
    · cases hstep
  | take n i =>
    obtain ⟨t, htaker, hrest⟩ := Option.bind_eq_some_iff.mp hstep
    split at hrest
    · next hfree =>
      obtain rfl := Option.some.inj hrest
      exact ⟨_, hsound.afterTake hallowed htaker hfree.2⟩
    · cases hrest
  | store n row =>
    obtain ⟨t, htaker, hrest⟩ := Option.bind_eq_some_iff.mp hstep
    obtain ⟨b, hhand, hstore⟩ := Option.bind_eq_some_iff.mp hrest
    exact hsound.afterStore hname htaker hhand hstore
  | commit n =>
    obtain ⟨t, htaker, hrest⟩ := Option.bind_eq_some_iff.mp hstep
    obtain rfl := Option.some.inj hrest
    exact ⟨place, hsound.afterCommit n⟩
  | abort n =>
    obtain ⟨t, htaker, hrest⟩ := Option.bind_eq_some_iff.mp hstep
    obtain rfl := Option.some.inj hrest
    exact hsound.drop n
  | remove row =>
    obtain rfl := Option.some.inj hstep
    exact ⟨place, hsound.held, hsound.placed, hsound.hands, hsound.written,
      fun e he => hsound.rows e (List.mem_filter.mp he).1, hsound.refused⟩

end Step

/-! ### No gaps -/

/-- Every name is stored in the transaction that has taken its number, in a row of its own, and it stays. -/
def Tidy (allowed : ι → Prop) (w : Registry κ β) : Action ι → Prop
  | .begin _ inTransaction => inTransaction = true
  | .take _ i => allowed i
  | .store _ row => (∀ e ∈ w.rows, e.1 ≠ row) ∧ ∀ e ∈ w.written, e.2.1 ≠ row
  | .commit n => (w.takers n).all (·.hand.isNone) = true
  | .abort _ => True
  | .remove _ => False

instance [DecidablePred allowed] (w : Registry κ β) : ∀ a : Action ι, Decidable (Allowed allowed w a)
  | .take _ i => inferInstanceAs (Decidable (allowed i))
  | .begin _ _ | .store _ _ | .commit _ | .abort _ | .remove _ => isTrue trivial

instance [DecidablePred allowed] (w : Registry κ β) : ∀ a : Action ι, Decidable (Tidy allowed w a)
  | .begin _ inTransaction => inferInstanceAs (Decidable (inTransaction = true))
  | .take _ i => inferInstanceAs (Decidable (allowed i))
  | .store _ row => inferInstanceAs (Decidable ((∀ e ∈ w.rows, e.1 ≠ row) ∧ ∀ e ∈ w.written, e.2.1 ≠ row))
  | .commit n => inferInstanceAs (Decidable ((w.takers n).all (·.hand.isNone) = true))
  | .abort _ => isTrue trivial
  | .remove _ => isFalse id

theorem Tidy.takesAllowed {a : Action ι} (htidy : Tidy allowed w a) : Allowed allowed w a := by
  cases a with
  | take n i => exact htidy
  | begin => trivial
  | store => trivial
  | commit => trivial
  | abort => trivial
  | remove => trivial

variable (key name allowed) in
/-- The number has been written by the transaction, or its name is in its hand. -/
def InUse (w : Registry κ β) (n : ℕ) (k : κ) (v : ℕ) : Prop :=
  ∃ j, allowed j ∧ key j = k ∧
    ((∃ row, (n, row, name j v) ∈ w.written) ∨ ∃ t, w.takers n = some t ∧ t.hand = some (name j v))

variable (key name allowed) in
structure Complete (w : Registry κ β) : Prop where
  inTransaction : ∀ n t, w.takers n = some t → t.inTransaction = true
  rows : ∀ k v, 0 < v → v ≤ w.committed k → ∃ j row, allowed j ∧ key j = k ∧ (row, name j v) ∈ w.rows
  pending : ∀ k n u v, w.held k = some (n, u) → w.committed k < v → v ≤ u → InUse key name allowed w n k v
  nodup : (w.written.map (·.2.1)).Nodup
  apart : ∀ e ∈ w.written, ∀ e' ∈ w.rows, e.2.1 ≠ e'.1

theorem mem_publish_of_row {ws : List (ℕ × ℕ × β)} {rows : List (ℕ × β)} {e : ℕ × β} (he : e ∈ rows)
    (hapart : ∀ e' ∈ ws, e'.2.1 ≠ e.1) : e ∈ publish ws rows := by
  induction ws with
  | nil => exact he
  | cons first ws ih =>
    refine mem_put.mpr (.inr ⟨ih fun e' he' => hapart e' (List.mem_cons_of_mem _ he'), ?_⟩)
    exact (hapart first List.mem_cons_self).symm

theorem mem_publish_of_written {ws : List (ℕ × ℕ × β)} {rows : List (ℕ × β)} {e : ℕ × ℕ × β} (he : e ∈ ws)
    (hnodup : (ws.map (·.2.1)).Nodup) : e.2 ∈ publish ws rows := by
  induction ws with
  | nil => cases he
  | cons first ws ih =>
    rw [List.map_cons, List.nodup_cons] at hnodup
    rcases List.mem_cons.mp he with rfl | he
    · exact mem_put.mpr (.inl rfl)
    · refine mem_put.mpr (.inr ⟨ih he hnodup.2, fun heq => hnodup.1 ?_⟩)
      rw [← heq]
      exact List.mem_map_of_mem he

theorem Complete.afterTake [DecidableEq κ] {i : ι} (hcomplete : Complete key name allowed w)
    (hallowed : allowed i) (htaker : w.takers n = some t) (hhand : t.hand = none) :
    Complete key name allowed (w.afterTake key name n t i) := by
  have hinside := hcomplete.inTransaction n t htaker
  rw [Registry.afterTake_of_inTransaction hinside]
  have hkept : ∀ {m k v}, InUse key name allowed w m k v → InUse key name allowed
      { w.setHand n t (some (name i (w.visible n (key i) + 1))) with
        held := Function.update w.held (key i) (some (n, w.visible n (key i) + 1)) } m k v := by
    rintro m k v ⟨j, hj, hkey, hwritten | ⟨t', ht', hb⟩⟩
    · exact ⟨j, hj, hkey, .inl hwritten⟩
    · refine ⟨j, hj, hkey, .inr ⟨t', ?_, hb⟩⟩
      refine (Function.update_of_ne (fun hm => ?_) _ _).trans ht'
      rw [hm, htaker] at ht'
      rw [← Option.some.inj ht', hhand] at hb
      cases hb
  refine ⟨fun m t' ht' => ?_, hcomplete.rows, fun k m u v hheld hlt hle => ?_, hcomplete.nodup, hcomplete.apart⟩
  · by_cases hm : m = n
    · rw [hm] at ht'
      have heq := (Function.update_self _ _ _).symm.trans ht'
      rw [← Option.some.inj heq]
      exact hinside
    · exact hcomplete.inTransaction m t' ((Function.update_of_ne hm _ _).symm.trans ht')
  · by_cases hk : k = key i
    · subst hk
      have heq := (Function.update_self _ _ _).symm.trans hheld
      obtain ⟨rfl, rfl⟩ := Prod.mk.inj (Option.some.inj heq)
      by_cases hv : v = w.visible n (key i) + 1
      · rw [hv]
        exact ⟨i, hallowed, rfl, .inr ⟨_, Function.update_self _ _ _, rfl⟩⟩
      · change w.committed (key i) < v at hlt
        by_cases hold : ∃ u, w.held (key i) = some (n, u)
        · obtain ⟨u, hu⟩ := hold
          rw [Registry.visible_of_held hu] at hv hle
          exact hkept (hcomplete.pending _ n u v hu hlt (by omega))
        · rw [Registry.visible_of_not_held fun u hu => hold ⟨u, hu⟩] at hv hle
          omega
    · exact hkept (hcomplete.pending k m u v ((Function.update_of_ne hk _ _).symm.trans hheld) hlt hle)

theorem Complete.afterStore [DecidableEq β] (hname : Separates key name allowed)
    (hcomplete : Complete key name allowed w) (hsound : Sound key name allowed w place) (htaker : w.takers n = some t) (hhand : t.hand = some b)
    (hrows : ∀ e ∈ w.rows, e.1 ≠ r) (hwritten : ∀ e ∈ w.written, e.2.1 ≠ r)
    (hstore : w.afterStore n t r b = some w₁) : Complete key name allowed w₁ := by
  have hinside := hcomplete.inTransaction n t htaker
  rw [hsound.afterStore_eq hname htaker hhand, if_pos hinside] at hstore
  obtain rfl := Option.some.inj hstore
  refine ⟨fun m t' ht' => ?_, hcomplete.rows, fun k m u v hheld hlt hle => ?_, ?_, fun e he => ?_⟩
  · by_cases hm : m = n
    · rw [hm] at ht'
      have heq := (Function.update_self _ _ _).symm.trans ht'
      rw [← Option.some.inj heq]
      exact hinside
    · exact hcomplete.inTransaction m t' ((Function.update_of_ne hm _ _).symm.trans ht')
  · obtain ⟨j, hj, hkey, ⟨row, hrow⟩ | ⟨t', ht', hb⟩⟩ := hcomplete.pending k m u v hheld hlt hle
    · exact ⟨j, hj, hkey, .inl ⟨row, List.mem_cons_of_mem _ hrow⟩⟩
    · by_cases hm : m = n
      · rw [hm, htaker] at ht'
        rw [← Option.some.inj ht', hhand] at hb
        refine ⟨j, hj, hkey, .inl ⟨r, ?_⟩⟩
        rw [hm, ← Option.some.inj hb]
        exact List.mem_cons_self
      · exact ⟨j, hj, hkey, .inr ⟨t', (Function.update_of_ne hm _ _).trans ht', hb⟩⟩
  · refine List.nodup_cons.mpr ⟨fun hmem => ?_, hcomplete.nodup⟩
    obtain ⟨e, he, heq⟩ := List.mem_map.mp hmem
    exact hwritten e he heq
  · rcases List.mem_cons.mp he with rfl | he
    · exact fun e' he' => (hrows e' he').symm
    · exact hcomplete.apart e he

theorem InUse.drop {v : ℕ} (hinUse : InUse key name allowed w m k v) (hm : m ≠ n) :
    InUse key name allowed (w.drop n) m k v := by
  obtain ⟨j, hj, hkey, ⟨row, hrow⟩ | ⟨t', ht', hb⟩⟩ := hinUse
  · exact ⟨j, hj, hkey, .inl ⟨row, List.mem_filter.mpr ⟨hrow, decide_eq_true hm⟩⟩⟩
  · exact ⟨j, hj, hkey, .inr ⟨t', (Function.update_of_ne hm _ _).trans ht', hb⟩⟩

theorem Complete.drop (hcomplete : Complete key name allowed w) (n : ℕ) : Complete key name allowed (w.drop n) := by
  refine ⟨fun m t ht => hcomplete.inTransaction m t (Registry.takers_drop ht).2, hcomplete.rows,
    fun k m u v hheld hlt hle => ?_, ?_, fun e he => hcomplete.apart e (List.mem_filter.mp he).1⟩
  · obtain ⟨hk, hm⟩ := Registry.held_drop.mp hheld
    exact (hcomplete.pending k m u v hk hlt hle).drop hm
  · exact hcomplete.nodup.sublist (List.filter_sublist.map _)

theorem Complete.afterCommit (hcomplete : Complete key name allowed w)
    (hempty : ∀ t, w.takers n = some t → t.hand = none) : Complete key name allowed (w.afterCommit n) := by
  have hnodup : ((w.written.filter (·.1 = n)).map (·.2.1)).Nodup :=
    hcomplete.nodup.sublist (List.filter_sublist.map _)
  refine ⟨(hcomplete.drop n).inTransaction, fun k v hpos hle => ?_, fun k m u v hheld hlt hle => ?_,
    (hcomplete.drop n).nodup, fun e he e' he' => ?_⟩
  · by_cases hold : v ≤ w.committed k
    · obtain ⟨j, row, hj, hkey, hmem⟩ := hcomplete.rows k v hpos hold
      refine ⟨j, row, hj, hkey, mem_publish_of_row hmem fun e he => ?_⟩
      exact hcomplete.apart e (List.mem_filter.mp he).1 _ hmem
    · change v ≤ w.visible n k at hle
      by_cases hheld : ∃ u, w.held k = some (n, u)
      · obtain ⟨u, hu⟩ := hheld
        rw [Registry.visible_of_held hu] at hle
        obtain ⟨j, hj, hkey, ⟨row, hrow⟩ | ⟨t', ht', hb⟩⟩ :=
          hcomplete.pending k n u v hu (Nat.lt_of_not_le hold) hle
        · refine ⟨j, row, hj, hkey, mem_publish_of_written (e := (n, row, name j v)) ?_ hnodup⟩
          exact List.mem_filter.mpr ⟨hrow, decide_eq_true rfl⟩
        · rw [hempty t' ht'] at hb
          cases hb
      · rw [Registry.visible_of_not_held fun u hu => hheld ⟨u, hu⟩] at hle
        exact absurd hle hold
  · obtain ⟨hk, hm⟩ := Registry.held_drop.mp hheld
    change w.visible n k < v at hlt
    rw [Registry.visible_of_not_held fun u' hu' =>
      hm (Prod.mk.inj (Option.some.inj (hk.symm.trans hu'))).1] at hlt
    exact (hcomplete.pending k m u v hk hlt hle).drop hm
  · obtain ⟨he, hm⟩ := List.mem_filter.mp he
    rcases mem_publish he' with he' | ⟨m, he'⟩
    · exact hcomplete.apart e he e' he'
    · obtain ⟨he', hm'⟩ := List.mem_filter.mp he'
      intro heq
      have hsame := List.inj_on_of_nodup_map hcomplete.nodup he he' heq
      rw [hsame] at hm
      exact of_decide_eq_true hm (of_decide_eq_true hm')

section Run

variable [DecidableEq κ] [DecidableEq β]

theorem Complete.step (hname : Separates key name allowed) (hcomplete : Complete key name allowed w)
    (hsound : Sound key name allowed w place) {a : Action ι} (htidy : Tidy allowed w a)
    (hstep : w.step key name a = some w₁) : Complete key name allowed w₁ := by
  cases a with
  | begin n inTransaction =>
    rw [Registry.step] at hstep
    split at hstep
    · next hnone =>
      obtain rfl := Option.some.inj hstep
      refine ⟨fun m t ht => ?_, hcomplete.rows, fun k m u v hheld hlt hle => ?_, hcomplete.nodup, hcomplete.apart⟩
      · by_cases hm : m = n
        · rw [hm] at ht
          have heq := (Function.update_self _ _ _).symm.trans ht
          rw [← Option.some.inj heq]
          exact htidy
        · exact hcomplete.inTransaction m t ((Function.update_of_ne hm _ _).symm.trans ht)
      · obtain ⟨j, hj, hkey, hwritten | ⟨t, ht, hb⟩⟩ := hcomplete.pending k m u v hheld hlt hle
        · exact ⟨j, hj, hkey, .inl hwritten⟩
        · refine ⟨j, hj, hkey, .inr ⟨t, (Function.update_of_ne (fun hm => ?_) _ _).trans ht, hb⟩⟩
          rw [← hm, ht] at hnone
          cases hnone
    · cases hstep
  | take n i =>
    obtain ⟨t, htaker, hrest⟩ := Option.bind_eq_some_iff.mp hstep
    split at hrest
    · next hfree =>
      obtain rfl := Option.some.inj hrest
      exact hcomplete.afterTake htidy htaker (Option.isNone_iff_eq_none.mp hfree.1)
    · cases hrest
  | store n row =>
    obtain ⟨t, htaker, hrest⟩ := Option.bind_eq_some_iff.mp hstep
    obtain ⟨b, hhand, hstore⟩ := Option.bind_eq_some_iff.mp hrest
    exact hcomplete.afterStore hname hsound htaker hhand htidy.1 htidy.2 hstore
  | commit n =>
    obtain ⟨t, htaker, hrest⟩ := Option.bind_eq_some_iff.mp hstep
    obtain rfl := Option.some.inj hrest
    refine hcomplete.afterCommit fun t ht => ?_
    rw [Tidy, ht, Option.all_some] at htidy
    exact Option.isNone_iff_eq_none.mp htidy
  | abort n =>
    obtain ⟨t, htaker, hrest⟩ := Option.bind_eq_some_iff.mp hstep
    obtain rfl := Option.some.inj hrest
    exact hcomplete.drop n
  | remove row => exact absurd htidy id

end Run

/-! ### Runs -/

variable (key name allowed) in
/-- Nobody is in the middle of anything, and the rows are numbered as far as the counters say. -/
structure Numbered (w : Registry κ β) : Prop where
  held : ∀ k, w.held k = none
  takers : ∀ n, w.takers n = none
  written : w.written = []
  sound : ∃ place, Sound key name allowed w place
  complete : Complete key name allowed w

theorem Numbered.initial : Numbered key name allowed (Registry.initial : Registry κ β) where
  held _ := rfl
  takers _ := rfl
  written := rfl
  sound := by
    refine ⟨fun _ _ => none, fun k n v hk => ?_, fun k v p hp => ?_, fun n t b ht => ?_, fun e he => ?_,
      fun e he => ?_, rfl⟩
    · cases hk
    · cases hp
    · cases ht
    · cases he
    · cases he
  complete := by
    refine ⟨fun n t ht => ?_, fun k v hpos hle => ?_, fun k n u v hheld => ?_, List.nodup_nil, fun e he => ?_⟩
    · cases ht
    · exact absurd hle (Nat.not_le_of_lt hpos)
    · cases hheld
    · cases he

section Run

variable [DecidableEq κ] [DecidableEq β] {i : ι}

omit [DecidableEq β] in
theorem Numbered.number (hnumbered : Numbered key name allowed w) (hallowed : allowed i) :
    Numbered key name allowed (w.number key name r i) := by
  obtain ⟨place, hsound⟩ := hnumbered.sound
  have hself : (w.number key name r i).committed (key i) = w.committed (key i) + 1 := Function.update_self _ _ _
  have hother : ∀ k, k ≠ key i → (w.number key name r i).committed k = w.committed k := fun k hk =>
    Function.update_of_ne hk _ _
  have hgrows : ∀ k, w.committed k ≤ (w.number key name r i).committed k := by
    intro k
    by_cases hk : k = key i
    · rw [hk, hself]
      exact Nat.le_succ _
    · rw [hother k hk]
  have hfresh : place (key i) (w.committed (key i) + 1) = none := by
    have hfree : w.free 0 (key i) = true := by rw [Registry.free, hnumbered.held]; rfl
    have := hsound.fresh hfree
    rwa [Registry.visible_of_not_held fun v hv => (Option.some_ne_none _).symm ((hnumbered.held _).symm.trans hv)]
      at this
  refine ⟨hnumbered.held, hnumbered.takers, hnumbered.written,
    ⟨setPlace place (key i) (w.committed (key i) + 1) (.row r), fun k n v hk => ?_, fun k v p hplace => ?_,
      fun n t b ht => ?_, fun e he => ?_, fun e he => ?_, hsound.refused⟩,
    fun n t ht => ?_, fun k v hpos hle => ?_, fun k n u v hheld => ?_, hnumbered.complete.nodup, fun e he => ?_⟩
  · cases (hnumbered.held k).symm.trans hk
  · rw [setPlace] at hplace
    split at hplace
    · next hboth =>
      rw [hboth.1, hboth.2]
      exact .inl hself.ge
    · rcases hsound.placed k v p hplace with hle | ⟨n, u, hk, -⟩
      · exact .inl (hle.trans (hgrows k))
      · cases (hnumbered.held k).symm.trans hk
  · cases (hnumbered.takers n).symm.trans ht
  · cases (hnumbered.written ▸ he : e ∈ [])
  · rcases List.mem_cons.mp he with rfl | he
    · exact ⟨i, _, hallowed, rfl, Nat.succ_pos _, hself.ge, if_pos ⟨rfl, rfl⟩⟩
    · refine (hsound.rows e he).mono hgrows fun _ _ _ hplace => setPlace_of_ne ?_ hplace
      rw [hfresh]
      exact (Option.some_ne_none _).symm
  · cases (hnumbered.takers n).symm.trans ht
  · have hold : v ≤ w.committed k →
        ∃ j row, allowed j ∧ key j = k ∧ (row, name j v) ∈ (w.number key name r i).rows := by
      intro hle
      obtain ⟨j, row, hj, hkey, hmem⟩ := hnumbered.complete.rows k v hpos hle
      exact ⟨j, row, hj, hkey, List.mem_cons_of_mem _ hmem⟩
    by_cases hk : k = key i
    · subst hk
      rw [hself] at hle
      rcases Nat.le_succ_iff.mp hle with hle | rfl
      · exact hold hle
      · exact ⟨i, r, hallowed, rfl, List.mem_cons_self⟩
    · rw [hother k hk] at hle
      exact hold hle
  · cases (hnumbered.held k).symm.trans hheld
  · cases (hnumbered.written ▸ he : e ∈ [])

variable {start : Registry κ β → Prop} (hstart : ∀ w, start w → Numbered key name allowed w)
include hstart

theorem sound_of_reach (hname : Separates key name allowed) {ok : Registry κ β → Action ι → Prop}
    (hok : ∀ w a, ok w a → Allowed allowed w a) (hreach : Reach (Registry.step key name) ok start w) :
    ∃ place, Sound key name allowed w place :=
  hreach.invariant (fun w hw => (hstart w hw).sound) fun _ _ _ hsound hthis hstep =>
    hsound.choose_spec.step hname (hok _ _ hthis) hstep

/-- Two rows do not have one name, and no store is refused. -/
theorem names_distinct (hname : Separates key name allowed) {ok : Registry κ β → Action ι → Prop}
    (hok : ∀ w a, ok w a → Allowed allowed w a) (hreach : Reach (Registry.step key name) ok start w) :
    w.refused = 0 ∧ ∀ e ∈ w.rows, ∀ e' ∈ w.rows, e.2 = e'.2 → e.1 = e'.1 := by
  obtain ⟨place, hsound⟩ := sound_of_reach hstart hname hok hreach
  refine ⟨hsound.refused, fun e he e' he' heq => ?_⟩
  exact Place.row.inj ((hsound.rows e he).place_unique hname (heq ▸ hsound.rows e' he'))

/-- The names of a counter that are stored are those of the numbers up to what it has. -/
theorem stored_iff (hname : Separates key name allowed)
    (hsame : ∀ i j v, allowed i → allowed j → key i = key j → name i v = name j v)
    (hreach : Reach (Registry.step key name) (Tidy allowed) start w) (hallowed : allowed i) (v : ℕ) :
    (∃ row, (row, name i v) ∈ w.rows) ↔ 0 < v ∧ v ≤ w.committed (key i) := by
  have hsound := fun {w} => sound_of_reach (w := w) hstart hname fun _ _ => Tidy.takesAllowed
  have hcomplete : Complete key name allowed w :=
    hreach.invariant_relative hsound (fun w hw => (hstart w hw).complete) fun _ _ _ hsound hcomplete htidy hstep =>
      hcomplete.step hname hsound.choose_spec htidy hstep
  constructor
  · rintro ⟨row, hmem⟩
    obtain ⟨place, hsound⟩ := hsound hreach
    obtain ⟨j, v', hj, heq, hpos, hle, -⟩ := hsound.rows _ hmem
    obtain ⟨hkey, rfl⟩ := hname i j v v' hallowed hj heq
    exact ⟨hpos, hkey ▸ hle⟩
  · rintro ⟨hpos, hle⟩
    obtain ⟨j, row, hj, hkey, hmem⟩ := hcomplete.rows (key i) v hpos hle
    rw [hsame j i v hj hallowed hkey] at hmem
    exact ⟨row, hmem⟩

end Run

end SerialNumbers
