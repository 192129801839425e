import PropFirm.Lib.ProvisionalLog

/-!
# What a chain of hashes commits to

Entries, latest first, each carrying the tag of the one before it. If entries of one tag are related, and
have the same predecessor's tag, then two chains are related all the way down from entries of one tag. So
what stands in one chain of the entries of another is a beginning of it, and whatever is new stands on top.
-/

namespace HashChain

open ProvisionalLog

variable {β γ η : Type*} {prev tag : β → η} {prev' tag' : γ → η} {start : η} {R : β → γ → Prop}
  {log : List β} {table : List γ}

/-- The tag that an entry carries is the first one or another entry's. -/
theorem prev_eq_or (hchain : Chained prev tag start log) {b : β} (hb : b ∈ log) :
    prev b = start ∨ ∃ c ∈ log, prev b = tag c := by
  induction log with
  | nil => cases hb
  | cons c log ih =>
    obtain ⟨hlink, hchain⟩ := hchain
    obtain rfl | hb := List.mem_cons.mp hb
    · cases log with
      | nil => exact .inl hlink
      | cons c log => exact .inr ⟨c, List.mem_cons_of_mem _ (List.mem_cons_self ..), hlink⟩
    · obtain hstart | ⟨c, hc, hprev⟩ := ih hchain hb
      · exact .inl hstart
      · exact .inr ⟨c, List.mem_cons_of_mem _ hc, hprev⟩

/-- From two entries of one tag down the chains are related, and equally long. -/
theorem forall₂_of_tag_eq {b : β} {c : γ} (hlog : Chained prev tag start (b :: log))
    (htable : Chained prev' tag' start (c :: table)) (htag : tag b = tag' c)
    (hstart : ∀ d ∈ b :: log, tag d ≠ start) (hstart' : ∀ d ∈ c :: table, tag' d ≠ start)
    (hrelated : ∀ d ∈ b :: log, ∀ e ∈ c :: table, tag d = tag' e → prev d = prev' e ∧ R d e) :
    List.Forall₂ R (b :: log) (c :: table) := by
  induction log generalizing b c table with
  | nil =>
    obtain ⟨hprev, hR⟩ := hrelated b (List.mem_cons_self ..) c (List.mem_cons_self ..) htag
    cases table with
    | nil => exact .cons hR .nil
    | cons e table =>
      have hfirst : start = tag' e := hlog.1.symm.trans (hprev.trans htable.1)
      exact absurd hfirst.symm (hstart' e (List.mem_cons_of_mem _ (List.mem_cons_self ..)))
  | cons d log ih =>
    obtain ⟨hprev, hR⟩ := hrelated b (List.mem_cons_self ..) c (List.mem_cons_self ..) htag
    cases table with
    | nil =>
      have hfirst : tag d = start := hlog.1.symm.trans (hprev.trans htable.1)
      exact absurd hfirst (hstart d (List.mem_cons_of_mem _ (List.mem_cons_self ..)))
    | cons e table =>
      have hnext : tag d = tag' e := hlog.1.symm.trans (hprev.trans htable.1)
      refine .cons hR (ih hlog.2 htable.2 hnext ?_ ?_ ?_)
      · exact fun d' hd => hstart d' (List.mem_cons_of_mem _ hd)
      · exact fun e' he => hstart' e' (List.mem_cons_of_mem _ he)
      · exact fun d' hd e' he => hrelated d' (List.mem_cons_of_mem _ hd) e' (List.mem_cons_of_mem _ he)

/-- A chain over another one: entries of new tags, on top of a beginning of the other. -/
theorem exists_common (hlog : Chained prev tag start log) (htable : Chained prev' tag' start table)
    (hstart : ∀ d ∈ log, tag d ≠ start) (hstart' : ∀ d ∈ table, tag' d ≠ start)
    (hrelated : ∀ d ∈ log, ∀ e ∈ table, tag d = tag' e → prev d = prev' e ∧ R d e) :
    ∃ fresh common kept, table = fresh ++ common ∧ kept <:+ log ∧ List.Forall₂ R kept common ∧
      ∀ e ∈ fresh, ∀ d ∈ log, tag d ≠ tag' e := by
  induction table with
  | nil => exact ⟨[], [], [], rfl, List.nil_suffix, .nil, fun e he => absurd he List.not_mem_nil⟩
  | cons e table ih =>
    by_cases hknown : ∃ d ∈ log, tag d = tag' e
    · obtain ⟨d, hd, htag⟩ := hknown
      obtain ⟨newer, older, rfl⟩ := List.append_of_mem hd
      have hend : d :: older <:+ newer ++ d :: older := List.suffix_append _ _
      refine ⟨[], e :: table, d :: older, rfl, hend, ?_, fun e he => absurd he List.not_mem_nil⟩
      apply forall₂_of_tag_eq (hlog.suffix hend) htable htag
      · exact fun d' hd' => hstart d' (hend.subset hd')
      · exact hstart'
      · exact fun d' hd' => hrelated d' (hend.subset hd')
    · obtain ⟨fresh, common, kept, rfl, hkept, hR, hfresh⟩ := ih htable.2
        (fun e' he => hstart' e' (List.mem_cons_of_mem _ he))
        (fun d hd e' he => hrelated d hd e' (List.mem_cons_of_mem _ he))
      refine ⟨e :: fresh, common, kept, rfl, hkept, hR, ?_⟩
      intro e' he d hd htag
      obtain rfl | he := List.mem_cons.mp he
      · exact hknown ⟨d, hd, htag⟩
      · exact hfresh e' he d hd htag

/-- Being a chain is a matter of the tags and of what is carried. -/
theorem chained_of_forall₂ (hR : List.Forall₂ (fun b c => prev b = prev' c ∧ tag b = tag' c) log table)
    (hlog : Chained prev tag start log) : Chained prev' tag' start table := by
  induction hR with
  | nil => trivial
  | @cons b c log table hbc hR ih =>
    refine ⟨?_, ih hlog.2⟩
    rw [← hbc.1, hlog.1]
    cases hR with
    | nil => rfl
    | cons hde _ => exact hde.2

end HashChain
