import Mathlib.Data.List.Basic
import Mathlib.Logic.Function.Basic

/-!
# Records kept under changing keys

A vault keeps a ciphertext at each of its places. A place has a cipher, a current key, and a list of keys to
try with the current one first. A rotation finds out which key a record is under by trying them in turn,
and seals the plaintext again under the current key. What was last sealed at a place is not recorded
anywhere; it stays what it is as long as a place is only sealed again with what it holds.
-/

namespace SealedRecords

variable {L K I P C : Type*}

/-- A cipher that accepts the right key only. -/
structure Cipher (K I P C : Type*) where
  encrypt : K → I → P → C
  decrypt : K → C → Option P
  decrypt_encrypt : ∀ k i p, decrypt k (encrypt k i p) = some p
  key_unique : ∀ {k k' c p p'}, decrypt k c = some p → decrypt k' c = some p' → k = k'

/-- The first key that works, by its index, with what it gives. -/
def firstWorkingKey (attempt : K → Option P) : List K → Option (Nat × P)
  | [] => none
  | k :: ks =>
    match attempt k with
    | some p => some (0, p)
    | none => (firstWorkingKey attempt ks).map fun hit => (hit.1 + 1, hit.2)

/-- What is stored, the places where something is, and the key and plaintext last sealed at each. -/
structure Vault (L K P C : Type*) where
  stored : L → Option C
  places : List L
  listed : ∀ l, stored l ≠ none → l ∈ places
  meant : L → Option (K × P)

structure Keyring (L K I P C : Type*) where
  cipher : L → Cipher K I P C
  current : L → Option K
  candidates : L → List K

namespace Keyring

variable (ring : Keyring L K I P C)

def read (l : L) (k : K) (c : C) : Option P := (ring.cipher l).decrypt k c

/-- The key that a record is found to be under. -/
def hit (l : L) (c : C) : Option (Nat × P) :=
  firstWorkingKey (fun k => ring.read l k c) (ring.candidates l)

/-- The current key is there and is tried first. -/
def HasCurrent (l : L) : Prop := ∃ cur, ring.current l = some cur ∧ (ring.candidates l)[0]? = some cur

end Keyring

namespace Vault

/-- Write a plaintext to a place. -/
def sealAt [DecidableEq L] (v : Vault L K P C) (ring : Keyring L K I P C) (l : L) (k : K) (i : I) (p : P) :
    Vault L K P C where
  stored := Function.update v.stored l (some ((ring.cipher l).encrypt k i p))
  places := l :: v.places
  listed l' hstored := by
    by_cases hl : l' = l
    · exact hl ▸ List.mem_cons_self
    · rw [Function.update_of_ne hl] at hstored
      exact List.mem_cons_of_mem _ (v.listed l' hstored)
  meant := Function.update v.meant l (some (k, p))

def erase [DecidableEq L] (v : Vault L K P C) (l : L) : Vault L K P C where
  stored := Function.update v.stored l none
  places := v.places
  listed l' hstored := by
    by_cases hl : l' = l
    · rw [hl, Function.update_self] at hstored
      exact absurd rfl hstored
    · rw [Function.update_of_ne hl] at hstored
      exact v.listed l' hstored
  meant := Function.update v.meant l none

/-- Write to a place what is taken for its plaintext. -/
def resealAt [DecidableEq L] (v : Vault L K P C) (ring : Keyring L K I P C) (l : L) (k : K) (i : I) (p : P) :
    Vault L K P C :=
  { v.sealAt ring l k i p with meant := v.meant }

/-- Write back to a place what was found there. -/
def writeBack [DecidableEq L] (v : Vault L K P C) (l : L) (found : Option C) : Vault L K P C where
  stored := Function.update v.stored l found
  places := l :: v.places
  listed l' hstored := by
    by_cases hl : l' = l
    · exact hl ▸ List.mem_cons_self
    · rw [Function.update_of_ne hl] at hstored
      exact List.mem_cons_of_mem _ (v.listed l' hstored)
  meant := v.meant

/-- What the candidate keys find at a place. -/
def find (v : Vault L K P C) (ring : Keyring L K I P C) (l : L) : Option (Nat × P) :=
  (v.stored l).bind (ring.hit l)

/-- A plaintext that a candidate key gives for what is stored. -/
def Holds (v : Vault L K P C) (ring : Keyring L K I P C) (l : L) (p : P) : Prop :=
  ∃ c ∈ v.stored l, ∃ k ∈ ring.candidates l, ring.read l k c = some p

/-- Every record can be read with the key it was sealed with or with the current one, and one that a
candidate key reads is what was sealed. -/
structure Sound (v : Vault L K P C) (ring : Keyring L K I P C) : Prop where
  intact : ∀ l k p, v.meant l = some (k, p) →
    ∃ c ∈ v.stored l, ring.read l k c = some p ∨ ∃ cur ∈ ring.current l, ring.read l cur c = some p
  supplied : ∀ l k p, v.meant l = some (k, p) → k ∈ ring.candidates l
  known : ∀ l, ∀ c ∈ v.stored l, ∀ k ∈ ring.candidates l, ∀ p, ring.read l k c = some p →
    ∃ k', v.meant l = some (k', p)

/-- The record at a place can be read with the current key. -/
def CurrentAt (v : Vault L K P C) (ring : Keyring L K I P C) (l : L) : Prop :=
  ∀ k p, v.meant l = some (k, p) → ∃ c ∈ v.stored l, ∃ cur ∈ ring.current l, ring.read l cur c = some p

end Vault

variable {ring : Keyring L K I P C} {v v' : Vault L K P C} {l l' : L} {k k' cur : K} {i : I} {p q : P} {c : C}
  {n : Nat}

theorem firstWorkingKey_eq_some {attempt : K → Option P} {ks : List K}
    (hhit : firstWorkingKey attempt ks = some (n, p)) : ∃ k ∈ ks, attempt k = some p := by
  induction ks generalizing n with
  | nil => cases hhit
  | cons k ks ih =>
    rw [firstWorkingKey] at hhit
    split at hhit
    · rename_i hk
      obtain ⟨-, rfl⟩ := Prod.mk.inj (Option.some.inj hhit)
      exact ⟨k, List.mem_cons_self, hk⟩
    · obtain ⟨⟨n', p'⟩, hlater, heq⟩ := Option.map_eq_some_iff.mp hhit
      obtain ⟨-, rfl⟩ := Prod.mk.inj heq
      obtain ⟨k', hk', hp⟩ := ih hlater
      exact ⟨k', List.mem_cons_of_mem _ hk', hp⟩

/-- Index `0` is the first key's, and it is found whenever that key works. -/
theorem firstWorkingKey_zero {attempt : K → Option P} {ks : List K} (hfirst : ks[0]? = some k)
    (hhit : firstWorkingKey attempt ks = some (n, p)) :
    (n = 0 → attempt k = some p) ∧ (attempt k ≠ none → n = 0) := by
  cases ks with
  | nil => cases hfirst
  | cons k' ks =>
    obtain rfl : k' = k := Option.some.inj hfirst
    rw [firstWorkingKey] at hhit
    split at hhit
    · rename_i hk
      obtain ⟨rfl, rfl⟩ := Prod.mk.inj (Option.some.inj hhit)
      exact ⟨fun _ => hk, fun _ => rfl⟩
    · rename_i hk
      obtain ⟨⟨n', p'⟩, -, heq⟩ := Option.map_eq_some_iff.mp hhit
      obtain ⟨rfl, -⟩ := Prod.mk.inj heq
      exact ⟨fun hzero => absurd hzero (Nat.succ_ne_zero _), fun hworks => absurd hk hworks⟩

theorem Keyring.read_encrypt : ring.read l k ((ring.cipher l).encrypt k i p) = some p :=
  (ring.cipher l).decrypt_encrypt k i p

/-- A ciphertext has one plaintext, whichever keys it is read with. -/
theorem Keyring.read_unique (hread : ring.read l k c = some p) (hread' : ring.read l k' c = some q) :
    p = q := by
  obtain rfl := (ring.cipher l).key_unique hread hread'
  exact Option.some.inj (hread.symm.trans hread')

theorem Keyring.hit_read (hhit : ring.hit l c = some (n, p)) :
    ∃ k ∈ ring.candidates l, ring.read l k c = some p :=
  firstWorkingKey_eq_some hhit

/-- What can be read is what was sealed. -/
theorem Vault.Sound.meant_eq (hsound : v.Sound ring) (hstored : v.stored l = some c)
    (hread : ring.read l k c = some p) (hmeant : v.meant l = some (k', q)) : q = p := by
  obtain ⟨c', hc', hold | ⟨cur, -, hcur⟩⟩ := hsound.intact l k' q hmeant
  · obtain rfl := Option.some.inj (hstored.symm.trans hc')
    exact Keyring.read_unique hold hread
  · obtain rfl := Option.some.inj (hstored.symm.trans hc')
    exact Keyring.read_unique hcur hread

theorem Vault.holds_of_find (hfind : v.find ring l = some (n, p)) : v.Holds ring l p := by
  obtain ⟨c, hstored, hhit⟩ := Option.bind_eq_some_iff.mp hfind
  exact ⟨c, hstored, Keyring.hit_read hhit⟩

theorem Vault.Sound.current_of_not_stored (hsound : v.Sound ring) (hstored : v.stored l = none) :
    v.CurrentAt ring l := by
  intro k p hmeant
  obtain ⟨c, hc, -⟩ := hsound.intact l k p hmeant
  rw [hstored] at hc
  cases hc

/-- A record found under the current key. -/
theorem Vault.Sound.current_of_find (hsound : v.Sound ring) (hcur : ring.HasCurrent l)
    (hfind : v.find ring l = some (0, p)) : v.CurrentAt ring l := by
  obtain ⟨c, hstored, hhit⟩ := Option.bind_eq_some_iff.mp hfind
  obtain ⟨cur, hcurrent, hfirst⟩ := hcur
  have hread : ring.read l cur c = some p := (firstWorkingKey_zero hfirst hhit).1 rfl
  intro k q hmeant
  obtain rfl := hsound.meant_eq hstored hread hmeant
  exact ⟨c, hstored, cur, hcurrent, hread⟩

/-- A record that the current key reads is not found under another one. -/
theorem Vault.Sound.find_of_current (hsound : v.Sound ring) (hcur : ring.HasCurrent l)
    (hcurrent : v.CurrentAt ring l) (hfind : v.find ring l = some (n, p)) : n = 0 := by
  obtain ⟨c, hstored, hhit⟩ := Option.bind_eq_some_iff.mp hfind
  obtain ⟨cur, heq, hfirst⟩ := hcur
  obtain ⟨k, hk, hread⟩ := Keyring.hit_read hhit
  obtain ⟨k', hmeant⟩ := hsound.known l c hstored k hk p hread
  obtain ⟨c', hc', cur', hcur', hread'⟩ := hcurrent k' p hmeant
  obtain rfl := Option.some.inj (hstored.symm.trans hc')
  obtain rfl := Option.some.inj (heq.symm.trans hcur')
  refine (firstWorkingKey_zero hfirst hhit).2 ?_
  rw [hread']
  exact Option.some_ne_none p

/-- What is said of a place by what is stored and meant there. -/
theorem Vault.CurrentAt.congr (hcurrent : v.CurrentAt ring l) (hstored : v'.stored l = v.stored l)
    (hmeant : v'.meant l = v.meant l) : v'.CurrentAt ring l := by
  rw [Vault.CurrentAt, hstored, hmeant]
  exact hcurrent

variable [DecidableEq L]

/-! ### The writes -/

namespace Vault

theorem stored_sealAt :
    (v.sealAt ring l k i p).stored = Function.update v.stored l (some ((ring.cipher l).encrypt k i p)) := rfl

theorem meant_sealAt : (v.sealAt ring l k i p).meant = Function.update v.meant l (some (k, p)) := rfl

theorem stored_erase : (v.erase l).stored = Function.update v.stored l none := rfl

theorem meant_erase : (v.erase l).meant = Function.update v.meant l none := rfl

theorem stored_resealAt :
    (v.resealAt ring l k i p).stored = Function.update v.stored l (some ((ring.cipher l).encrypt k i p)) := rfl

end Vault

theorem Vault.Sound.sealAt (hsound : v.Sound ring) (hk : k ∈ ring.candidates l) :
    (v.sealAt ring l k i p).Sound ring where
  intact l' k' q hmeant := by
    by_cases hl : l' = l
    · subst hl
      rw [Vault.meant_sealAt, Function.update_self] at hmeant
      obtain ⟨rfl, rfl⟩ := Prod.mk.inj (Option.some.inj hmeant)
      exact ⟨_, Function.update_self .., .inl Keyring.read_encrypt⟩
    · rw [Vault.meant_sealAt, Function.update_of_ne hl] at hmeant
      rw [Vault.stored_sealAt, Function.update_of_ne hl]
      exact hsound.intact l' k' q hmeant
  supplied l' k' q hmeant := by
    by_cases hl : l' = l
    · subst hl
      rw [Vault.meant_sealAt, Function.update_self] at hmeant
      obtain ⟨rfl, rfl⟩ := Prod.mk.inj (Option.some.inj hmeant)
      exact hk
    · rw [Vault.meant_sealAt, Function.update_of_ne hl] at hmeant
      exact hsound.supplied l' k' q hmeant
  known l' c hc k₁ hk₁ q hread := by
    by_cases hl : l' = l
    · subst hl
      rw [Vault.stored_sealAt, Function.update_self] at hc
      obtain rfl := Option.some.inj hc
      obtain rfl := Keyring.read_unique Keyring.read_encrypt hread
      exact ⟨k, Function.update_self ..⟩
    · rw [Vault.stored_sealAt, Function.update_of_ne hl] at hc
      rw [Vault.meant_sealAt, Function.update_of_ne hl]
      exact hsound.known l' c hc k₁ hk₁ q hread

/-- Sealing under the current key leaves every record that was current so. -/
theorem Vault.current_sealAt (hcur : ring.current l = some k) (l' : L)
    (hcurrent : l' ≠ l → v.CurrentAt ring l') : (v.sealAt ring l k i p).CurrentAt ring l' := by
  by_cases hl : l' = l
  · subst hl
    intro k' q hmeant
    rw [Vault.meant_sealAt, Function.update_self] at hmeant
    obtain ⟨rfl, rfl⟩ := Prod.mk.inj (Option.some.inj hmeant)
    exact ⟨_, Function.update_self .., k, hcur, Keyring.read_encrypt⟩
  · exact (hcurrent hl).congr (Function.update_of_ne hl ..) (Function.update_of_ne hl ..)

theorem Vault.Sound.erase (hsound : v.Sound ring) : (v.erase l).Sound ring where
  intact l' k' q hmeant := by
    by_cases hl : l' = l
    · rw [hl, Vault.meant_erase, Function.update_self] at hmeant
      cases hmeant
    · rw [Vault.meant_erase, Function.update_of_ne hl] at hmeant
      rw [Vault.stored_erase, Function.update_of_ne hl]
      exact hsound.intact l' k' q hmeant
  supplied l' k' q hmeant := by
    by_cases hl : l' = l
    · rw [hl, Vault.meant_erase, Function.update_self] at hmeant
      cases hmeant
    · rw [Vault.meant_erase, Function.update_of_ne hl] at hmeant
      exact hsound.supplied l' k' q hmeant
  known l' c hc k' hk' q hread := by
    by_cases hl : l' = l
    · rw [hl, Vault.stored_erase, Function.update_self] at hc
      cases hc
    · rw [Vault.stored_erase, Function.update_of_ne hl] at hc
      rw [Vault.meant_erase, Function.update_of_ne hl]
      exact hsound.known l' c hc k' hk' q hread

theorem Vault.current_erase (l' : L) (hcurrent : l' ≠ l → v.CurrentAt ring l') :
    (v.erase l).CurrentAt ring l' := by
  by_cases hl : l' = l
  · intro k' q hmeant
    rw [hl, Vault.meant_erase, Function.update_self] at hmeant
    cases hmeant
  · exact (hcurrent hl).congr (Function.update_of_ne hl ..) (Function.update_of_ne hl ..)

/-- Sealing a record again, under the current key, with what it holds. -/
theorem Vault.Sound.resealAt (hsound : v.Sound ring) (hcur : ring.current l = some cur)
    (hholds : v.Holds ring l p) : (v.resealAt ring l cur i p).Sound ring where
  intact l' k' q hmeant := by
    obtain ⟨c, hstored, k, hk, hread⟩ := hholds
    by_cases hl : l' = l
    · subst hl
      obtain rfl := hsound.meant_eq hstored hread hmeant
      exact ⟨_, Function.update_self .., .inr ⟨cur, hcur, Keyring.read_encrypt⟩⟩
    · rw [Vault.stored_resealAt, Function.update_of_ne hl]
      exact hsound.intact l' k' q hmeant
  supplied := hsound.supplied
  known l' c' hc' k' hk' q hread' := by
    obtain ⟨c, hstored, k, hk, hread⟩ := hholds
    by_cases hl : l' = l
    · subst hl
      rw [Vault.stored_resealAt, Function.update_self] at hc'
      obtain rfl := Option.some.inj hc'
      obtain rfl := Keyring.read_unique Keyring.read_encrypt hread'
      exact hsound.known l' c hstored k hk p hread
    · rw [Vault.stored_resealAt, Function.update_of_ne hl] at hc'
      exact hsound.known l' c' hc' k' hk' q hread'

theorem Vault.Sound.current_resealAt (hsound : v.Sound ring) (hcur : ring.current l = some cur)
    (hholds : v.Holds ring l p) (l' : L) (hcurrent : l' ≠ l → v.CurrentAt ring l') :
    (v.resealAt ring l cur i p).CurrentAt ring l' := by
  obtain ⟨c, hstored, k, hk, hread⟩ := hholds
  by_cases hl : l' = l
  · subst hl
    intro k' q hmeant
    obtain rfl := hsound.meant_eq hstored hread hmeant
    exact ⟨_, Function.update_self .., cur, hcur, Keyring.read_encrypt⟩
  · exact (hcurrent hl).congr (Function.update_of_ne hl ..) rfl

/-- A place still holds what it held, once this is sealed again under a candidate key. -/
theorem Vault.Holds.resealAt (hholds : v.Holds ring l' q) (hholds' : v.Holds ring l p)
    (hcur : cur ∈ ring.candidates l) : (v.resealAt ring l cur i p).Holds ring l' q := by
  obtain ⟨c, hc, k, hk, hread⟩ := hholds
  by_cases hl : l' = l
  · subst hl
    obtain ⟨c', hc', k', hk', hread'⟩ := hholds'
    obtain rfl := Option.some.inj (hc.symm.trans hc')
    obtain rfl := Keyring.read_unique hread hread'
    exact ⟨_, Function.update_self .., cur, hcur, Keyring.read_encrypt⟩
  · exact ⟨c, (Function.update_of_ne hl ..).trans hc, k, hk, hread⟩

theorem Vault.stored_writeBack (l : L) : (v.writeBack l (v.stored l)).stored = v.stored :=
  Function.update_eq_self l v.stored

end SealedRecords
