import Mathlib.Data.Multiset.MapFold
import Mathlib.Order.Bounds.Basic

/-!
# Maximum matchings between two collections

The members of either side count with their multiplicity, and a matching is a collection of pairs that
uses each of them at most once. A maximum matching of both sides can be built from the members of one side
one after the other: one that fits nobody is passed over, and one that fits somebody takes the partner
that it would be worst to leave to others.
-/

namespace Matching

variable {α β : Type*} {R : α → β → Prop}

structure IsMatching (R : α → β → Prop) (A : Multiset α) (B : Multiset β) (s : Multiset (α × β)) : Prop where
  left : s.map Prod.fst ≤ A
  right : s.map Prod.snd ≤ B
  fits : ∀ p ∈ s, R p.1 p.2

def sizes (R : α → β → Prop) (A : Multiset α) (B : Multiset β) : Set ℕ :=
  {n | ∃ s, IsMatching R A B s ∧ s.card = n}

/-- The size of a maximum matching. -/
def IsMaximum (R : α → β → Prop) (A : Multiset α) (B : Multiset β) (n : ℕ) : Prop := IsGreatest (sizes R A B) n

namespace IsMatching

variable {A : Multiset α} {B : Multiset β} {s : Multiset (α × β)} {a : α} {b : β}

theorem card_le_left (hs : IsMatching R A B s) : s.card ≤ A.card := by
  rw [← Multiset.card_map Prod.fst s]
  exact Multiset.card_le_card hs.left

theorem swap (hs : IsMatching R A B s) : IsMatching (flip R) B A (s.map Prod.swap) where
  left := by
    rw [Multiset.map_map]
    exact hs.right
  right := by
    rw [Multiset.map_map]
    exact hs.left
  fits p hp := by
    obtain ⟨q, hq, rfl⟩ := Multiset.mem_map.mp hp
    exact hs.fits q hq

theorem cons (hs : IsMatching R A B s) (hfits : R a b) : IsMatching R (a ::ₘ A) (b ::ₘ B) ((a, b) ::ₘ s) where
  left := by
    rw [Multiset.map_cons]
    exact Multiset.cons_le_cons a hs.left
  right := by
    rw [Multiset.map_cons]
    exact Multiset.cons_le_cons b hs.right
  fits p hp := by
    obtain rfl | hp := Multiset.mem_cons.mp hp
    · exact hfits
    · exact hs.fits p hp

theorem mono {A' : Multiset α} {B' : Multiset β} (hs : IsMatching R A B s) (hA : A ≤ A') (hB : B ≤ B') :
    IsMatching R A' B' s :=
  ⟨hs.left.trans hA, hs.right.trans hB, hs.fits⟩

theorem of_cons {p : α × β} (hs : IsMatching R A B (p ::ₘ s)) :
    p.1 ::ₘ s.map Prod.fst ≤ A ∧ p.2 ::ₘ s.map Prod.snd ≤ B ∧ R p.1 p.2 ∧ ∀ q ∈ s, R q.1 q.2 := by
  have hleft := hs.left
  have hright := hs.right
  rw [Multiset.map_cons] at hleft hright
  exact ⟨hleft, hright, hs.fits p (Multiset.mem_cons_self p s),
    fun q hq => hs.fits q (Multiset.mem_cons_of_mem hq)⟩

/-- Nobody's partner is lost when `a` and `b` go: if they had other partners, these two fit together. -/
theorem exists_rest (hs : IsMatching R (a ::ₘ A) (b ::ₘ B) s)
    (hexchange : ∀ a' ∈ A, ∀ b' ∈ B, R a b' → R a' b → R a' b') :
    ∃ t, IsMatching R A B t ∧ s.card ≤ t.card + 1 := by
  by_cases ha : a ∈ s.map Prod.fst
  · obtain ⟨p, hp, hpa⟩ := Multiset.mem_map.mp ha
    obtain ⟨t, rfl⟩ := Multiset.exists_cons_of_mem hp
    obtain ⟨hleft, hright, hpfits, htfits⟩ := hs.of_cons
    rw [hpa] at hleft hpfits
    rw [Multiset.card_cons]
    have htleft := (Multiset.cons_le_cons_iff a).mp hleft
    by_cases hpb : p.2 = b
    · rw [hpb] at hright
      exact ⟨t, ⟨htleft, (Multiset.cons_le_cons_iff b).mp hright, htfits⟩, le_rfl⟩
    by_cases hb : b ∈ t.map Prod.snd
    · obtain ⟨q, hq, hqb⟩ := Multiset.mem_map.mp hb
      obtain ⟨u, rfl⟩ := Multiset.exists_cons_of_mem hq
      rw [Multiset.map_cons] at htleft hright
      rw [hqb, Multiset.cons_swap] at hright
      have huright := (Multiset.cons_le_cons_iff b).mp hright
      have hqfits := htfits q (Multiset.mem_cons_self q u)
      rw [hqb] at hqfits
      have hnew : R q.1 p.2 :=
        hexchange q.1 (Multiset.mem_of_le htleft (Multiset.mem_cons_self _ _)) p.2
          (Multiset.mem_of_le huright (Multiset.mem_cons_self _ _)) hpfits hqfits
      refine ⟨(q.1, p.2) ::ₘ u, ⟨?_, ?_, fun r hr => ?_⟩, ?_⟩
      · rw [Multiset.map_cons]
        exact htleft
      · rw [Multiset.map_cons]
        exact huright
      · obtain rfl | hr := Multiset.mem_cons.mp hr
        · exact hnew
        · exact htfits r (Multiset.mem_cons_of_mem hr)
      · rw [Multiset.card_cons, Multiset.card_cons]
    · have hnot : b ∉ p.2 ::ₘ t.map Prod.snd := by
        rw [Multiset.mem_cons]
        rintro (rfl | hmem)
        · exact hpb rfl
        · exact hb hmem
      have htright := (Multiset.le_cons_of_notMem hnot).mp hright
      exact ⟨t, ⟨htleft, (Multiset.le_cons_self _ _).trans htright, htfits⟩, le_rfl⟩
  · have hleft := (Multiset.le_cons_of_notMem ha).mp hs.left
    by_cases hb : b ∈ s.map Prod.snd
    · obtain ⟨q, hq, hqb⟩ := Multiset.mem_map.mp hb
      obtain ⟨u, rfl⟩ := Multiset.exists_cons_of_mem hq
      obtain ⟨-, hright, -, hufits⟩ := hs.of_cons
      rw [hqb] at hright
      rw [Multiset.map_cons] at hleft
      refine ⟨u, ⟨(Multiset.le_cons_self _ _).trans hleft, (Multiset.cons_le_cons_iff b).mp hright, hufits⟩, ?_⟩
      rw [Multiset.card_cons]
    · exact ⟨s, ⟨hleft, (Multiset.le_cons_of_notMem hb).mp hs.right, hs.fits⟩, Nat.le_succ _⟩

end IsMatching

namespace IsMaximum

variable {A : Multiset α} {B : Multiset β} {n m : ℕ} {a : α} {b : β}

theorem unique (hn : IsMaximum R A B n) (hm : IsMaximum R A B m) : n = m := IsGreatest.unique hn hm

theorem le_card_left (hn : IsMaximum R A B n) : n ≤ A.card := by
  obtain ⟨⟨s, hs, rfl⟩, -⟩ := hn
  exact hs.card_le_left

theorem flip (hn : IsMaximum R A B n) : IsMaximum (flip R) B A n := by
  obtain ⟨⟨s, hs, rfl⟩, hmax⟩ := hn
  refine ⟨⟨s.map Prod.swap, hs.swap, Multiset.card_map _ _⟩, ?_⟩
  rintro m ⟨t, ht, rfl⟩
  exact hmax ⟨t.map Prod.swap, ht.swap, Multiset.card_map _ _⟩

theorem le_card_right (hn : IsMaximum R A B n) : n ≤ B.card := hn.flip.le_card_left

theorem nil (R : α → β → Prop) (B : Multiset β) : IsMaximum R 0 B 0 := by
  refine ⟨⟨0, ⟨le_rfl, Multiset.zero_le B, fun p hp => absurd hp (Multiset.notMem_zero p)⟩, rfl⟩, ?_⟩
  rintro m ⟨s, hs, rfl⟩
  exact hs.card_le_left

/-- A member that fits nobody. -/
theorem pass (hn : IsMaximum R A B n) (hnobody : ∀ b ∈ B, ¬ R a b) : IsMaximum R (a ::ₘ A) B n := by
  obtain ⟨⟨s, hs, rfl⟩, hmax⟩ := hn
  refine ⟨⟨s, hs.mono (Multiset.le_cons_self A a) le_rfl, rfl⟩, ?_⟩
  rintro m ⟨t, ht, rfl⟩
  have hnot : a ∉ t.map Prod.fst := by
    intro ha
    obtain ⟨p, hp, rfl⟩ := Multiset.mem_map.mp ha
    exact hnobody p.2 (Multiset.mem_of_le ht.right (Multiset.mem_map_of_mem _ hp)) (ht.fits p hp)
  exact hmax ⟨t, ⟨(Multiset.le_cons_of_notMem hnot).mp ht.left, ht.right, ht.fits⟩, rfl⟩

/-- A member and a partner that could be exchanged for any other of its partners. -/
theorem pair (hn : IsMaximum R A B n) (hfits : R a b)
    (hexchange : ∀ a' ∈ A, ∀ b' ∈ B, R a b' → R a' b → R a' b') :
    IsMaximum R (a ::ₘ A) (b ::ₘ B) (n + 1) := by
  obtain ⟨⟨s, hs, rfl⟩, hmax⟩ := hn
  refine ⟨⟨(a, b) ::ₘ s, hs.cons hfits, Multiset.card_cons _ _⟩, ?_⟩
  rintro m ⟨t, ht, rfl⟩
  obtain ⟨u, hu, hcard⟩ := ht.exists_rest hexchange
  exact hcard.trans (Nat.add_le_add_right (hmax ⟨u, hu, rfl⟩) 1)

end IsMaximum

end Matching
