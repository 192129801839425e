import Mathlib

/-!
# Addresses of the Internet Protocol and their texts

An address of version 4 is four octets, one of version 6 eight groups of sixteen bits; one of version 6 that
maps one of version 4 is that one. The texts are dotted quads, and groups joined by colons, of which a double
colon stands for one or more that are zero; the last two groups may be written as a dotted quad.
-/

namespace IpAddresses

inductive Address
  | v4 (a b c d : Fin 256)
  | v6 (groups : List.Vector (Fin 65536) 8)
  deriving DecidableEq

namespace Address

/-- `::ffff:0:0/96` are the addresses of version 4. -/
def ofGroups (groups : List.Vector (Fin 65536) 8) : Address :=
  match groups.toList with
  | [0, 0, 0, 0, 0, 65535, high, low] =>
    v4 (Fin.ofNat 256 (high / 256)) (Fin.ofNat 256 high) (Fin.ofNat 256 (low / 256)) (Fin.ofNat 256 low)
  | _ => v6 groups

/-- Loopback, link-local, private or shared, and unspecified addresses. -/
def Local : Address → Prop
  | v4 a b _ _ => a = 127 ∨ a = 0 ∨ a = 10 ∨ a = 169 ∧ b = 254 ∨ a = 192 ∧ b = 168 ∨
      a = 172 ∧ 16 ≤ b ∧ b ≤ 31 ∨ a = 100 ∧ 64 ≤ b ∧ b ≤ 127
  | v6 groups => groups.toList = [0, 0, 0, 0, 0, 0, 0, 1] ∨ groups.toList = [0, 0, 0, 0, 0, 0, 0, 0] ∨
      (0xfe80 ≤ groups.head ∧ groups.head ≤ 0xfebf) ∨ (0xfc00 ≤ groups.head ∧ groups.head ≤ 0xfdff)

instance : DecidablePred Local
  | v4 _ _ _ _ => inferInstanceAs (Decidable (_ ∨ _))
  | v6 _ => inferInstanceAs (Decidable (_ ∨ _))

/-- The first 24 bits are the same, or the first 48. -/
def SameNetwork : Address → Address → Prop
  | v4 a b c _, v4 a' b' c' _ => a = a' ∧ b = b' ∧ c = c'
  | v6 groups, v6 groups' => groups.toList.take 3 = groups'.toList.take 3
  | _, _ => False

end Address

/-! ### Reading -/

def isHex (c : Char) : Bool := c ∈ "0123456789abcdefABCDEF".toList

def hexValue (c : Char) : ℕ :=
  if c.isDigit then c.toNat - '0'.toNat else c.toLower.toNat - 'a'.toNat + 10

def decimalValue (digits : List Char) : ℕ := digits.foldl (fun n c => 10 * n + (c.toNat - '0'.toNat)) 0

/-- Up to three digits. -/
def readOctet (cs : List Char) : Option (Fin 256) :=
  if cs ≠ [] ∧ cs.length ≤ 3 ∧ cs.all Char.isDigit ∧ decimalValue cs < 256 then some (Fin.ofNat 256 (decimalValue cs))
  else none

def readQuad (cs : List Char) : Option (Fin 256 × Fin 256 × Fin 256 × Fin 256) :=
  match cs.splitOn '.' with
  | [p, q, r, s] => do
    let a ← readOctet p
    let b ← readOctet q
    let c ← readOctet r
    let d ← readOctet s
    some (a, b, c, d)
  | _ => none

/-- Up to four digits. -/
def readGroup (cs : List Char) : Option (Fin 65536) :=
  if cs ≠ [] ∧ cs.length ≤ 4 ∧ cs.all isHex then
    some (Fin.ofNat 65536 (cs.foldl (fun n c => 16 * n + hexValue c) 0))
  else none

/-- Groups, where the last ones may be a dotted quad. -/
def readGroups (atEnd : Bool) : List (List Char) → Option (List (Fin 65536))
  | [] => some []
  | [p] =>
    if atEnd ∧ '.' ∈ p then
      (readQuad p).map fun quad => [Fin.ofNat 65536 (quad.1 * 256 + quad.2.1),
        Fin.ofNat 65536 (quad.2.2.1 * 256 + quad.2.2.2)]
    else (readGroup p).map ([·])
  | p :: ps => do
    let group ← readGroup p
    let groups ← readGroups atEnd ps
    some (group :: groups)

/-- What stands on one side of a double colon may be empty. -/
def readSide (atEnd : Bool) (cs : List Char) : Option (List (Fin 65536)) :=
  if cs = [] then some [] else readGroups atEnd (cs.splitOn ':')

/-- The pieces between double colons, from the left. -/
def splitDouble : List Char → List (List Char)
  | ':' :: ':' :: cs => [] :: splitDouble cs
  | c :: cs => (splitDouble cs).modifyHead (c :: ·)
  | [] => [[]]

def readIPv6 (cs : List Char) : Option (List.Vector (Fin 65536) 8) :=
  match splitDouble cs with
  | [all] => (readSide true all).bind fun groups => if h : groups.length = 8 then some ⟨groups, h⟩ else none
  | [front, back] => do
    let head ← readSide false front
    let tail ← readSide true back
    if h : head.length + tail.length < 8 then
      some ⟨head ++ List.replicate (8 - (head.length + tail.length)) 0 ++ tail, by
        rw [List.length_append, List.length_append, List.length_replicate]
        omega⟩
    else none
  | _ => none

def isPort : List Char → Bool
  | ':' :: digits => !digits.isEmpty && digits.all Char.isDigit
  | _ => false

/-- What stands in brackets, with or without a port after them. -/
def bracketHost? : List Char → Option (List Char)
  | '[' :: cs =>
    match cs.span (· ≠ ']') with
    | (host, ']' :: rest) => if rest = [] ∨ isPort rest then some host else none
    | _ => none
  | _ => none

/-- What stands before a colon and a port. -/
def portHost? (cs : List Char) : Option (List Char) :=
  let (host, rest) := cs.span (· ≠ ':')
  if isPort rest then some host else none

def readIPv4 (cs : List Char) : Option Address :=
  (readQuad cs).map fun quad => .v4 quad.1 quad.2.1 quad.2.2.1 quad.2.2.2

/-- An address of version 6, in brackets where a port follows, or of version 4, with or without a port. -/
def readAddress (cs : List Char) : Option Address :=
  match bracketHost? cs with
  | some host => (readIPv6 host).map .ofGroups
  | none =>
    match portHost? cs with
    | some host => readIPv4 host
    | none => (readIPv4 cs).or ((readIPv6 cs).map .ofGroups)

/-! ### The pieces of a text -/

theorem splitDouble_ne_nil (cs : List Char) : splitDouble cs ≠ [] := by
  induction cs using splitDouble.induct with
  | case1 cs ih => rw [splitDouble]; exact List.cons_ne_nil _ _
  | case2 c cs hc ih =>
    rw [splitDouble]
    · rw [ne_eq, ← List.length_eq_zero_iff, List.length_modifyHead, List.length_eq_zero_iff]
      exact ih
    · exact hc
  | case3 => exact List.cons_ne_nil _ _

theorem intercalate_splitDouble (cs : List Char) : [':', ':'].intercalate (splitDouble cs) = cs := by
  induction cs using splitDouble.induct with
  | case1 cs ih =>
    rw [splitDouble, List.intercalate_cons_of_ne_nil (splitDouble_ne_nil cs), ih]
    rfl
  | case2 c cs hc ih =>
    rw [splitDouble]
    · obtain ⟨piece, pieces, hpieces⟩ := List.exists_cons_of_ne_nil (splitDouble_ne_nil cs)
      rw [hpieces] at ih ⊢
      rw [List.modifyHead_cons, List.intercalate_cons_cons_left, ih]
    · exact hc
  | case3 => rfl

/-- What keeps the colons keeps the pieces. -/
theorem splitDouble_map {f : Char → Char} (hf : ∀ c, f c = ':' ↔ c = ':') (cs : List Char) :
    splitDouble (cs.map f) = (splitDouble cs).map (List.map f) := by
  induction cs using splitDouble.induct with
  | case1 cs ih =>
    have hcolon := (hf ':').mpr rfl
    rw [List.map_cons, List.map_cons, hcolon, splitDouble, ih, splitDouble]
    rfl
  | case2 c cs hc ih =>
    rw [List.map_cons, splitDouble, splitDouble, ih]
    · cases splitDouble cs <;> rfl
    · exact hc
    · intro cs' hfc hcs
      cases cs with
      | nil => cases hcs
      | cons c' cs =>
        obtain ⟨hc', hcs⟩ := List.cons_eq_cons.mp hcs
        exact hc cs ((hf c).mp hfc) (by rw [(hf c').mp hc'])
  | case3 => rfl

theorem splitOn_map {f : Char → Char} {sep : Char} (hf : ∀ c, f c = sep ↔ c = sep) (cs : List Char) :
    (cs.map f).splitOn sep = (cs.splitOn sep).map (List.map f) := by
  induction cs with
  | nil => rfl
  | cons c cs ih =>
    rw [List.map_cons, List.splitOn_cons_eq_if_modifyHead, List.splitOn_cons_eq_if_modifyHead, ih]
    simp only [beq_iff_eq, hf]
    split
    · rfl
    · cases List.splitOn sep cs <;> rfl

theorem length_splitOn (sep : Char) (cs : List Char) : (cs.splitOn sep).length = cs.count sep + 1 := by
  induction cs with
  | nil => rfl
  | cons c cs ih =>
    rw [List.splitOn_cons_eq_if_modifyHead, List.count_cons]
    split
    · rw [List.length_cons, ih]
    · rw [List.length_modifyHead, ih, Nat.add_zero]

theorem mem_intercalate {sep piece : List Char} {pieces : List (List Char)} {c : Char} (hpiece : piece ∈ pieces)
    (hc : c ∈ piece) : c ∈ sep.intercalate pieces := by
  induction pieces with
  | nil => cases hpiece
  | cons first pieces ih =>
    by_cases hnil : pieces = []
    · subst hnil
      rw [List.mem_singleton] at hpiece
      rwa [List.intercalate_singleton, ← hpiece]
    · rw [List.intercalate_cons_of_ne_nil hnil, List.mem_append, List.mem_append]
      obtain rfl | hpiece := List.mem_cons.mp hpiece
      · exact .inl (.inl hc)
      · exact .inr (ih hpiece)

theorem mem_or_of_mem_intercalate {sep : List Char} {pieces : List (List Char)} {c : Char}
    (hc : c ∈ sep.intercalate pieces) : c ∈ sep ∨ ∃ piece ∈ pieces, c ∈ piece := by
  induction pieces with
  | nil => cases hc
  | cons first pieces ih =>
    by_cases hnil : pieces = []
    · subst hnil
      rw [List.intercalate_singleton] at hc
      exact .inr ⟨first, List.mem_cons_self .., hc⟩
    · rw [List.intercalate_cons_of_ne_nil hnil, List.mem_append, List.mem_append] at hc
      obtain (hc | hc) | hc := hc
      · exact .inr ⟨first, List.mem_cons_self .., hc⟩
      · exact .inl hc
      · obtain hsep | ⟨piece, hpiece, hc⟩ := ih hc
        · exact .inl hsep
        · exact .inr ⟨piece, List.mem_cons_of_mem _ hpiece, hc⟩

theorem mem_of_mem_splitOn {sep c : Char} {cs piece : List Char} (hpiece : piece ∈ cs.splitOn sep) (hc : c ∈ piece) :
    c ∈ cs := by
  rw [← @List.intercalate_splitOn _ cs _ _ sep]
  exact mem_intercalate hpiece hc

theorem exists_of_forall₂_left {β γ : Type*} {R : β → γ → Prop} {l : List β} {l' : List γ} (h : List.Forall₂ R l l')
    {b : β} (hb : b ∈ l) : ∃ c ∈ l', R b c := by
  induction h with
  | nil => cases hb
  | cons hR _ ih =>
    obtain rfl | hb := List.mem_cons.mp hb
    · exact ⟨_, List.mem_cons_self .., hR⟩
    · obtain ⟨c, hc, hR⟩ := ih hb
      exact ⟨c, List.mem_cons_of_mem _ hc, hR⟩

/-! ### Groups -/

theorem digitChar_hexValue {c : Char} (hc : isHex c = true) :
    hexValue c < 16 ∧ Nat.digitChar (hexValue c) = c.toLower := by
  have hall : ("0123456789abcdefABCDEF".toList.all fun c =>
      decide (hexValue c < 16 ∧ Nat.digitChar (hexValue c) = c.toLower)) = true := by
    decide
  exact of_decide_eq_true (List.all_eq_true.mp hall c (of_decide_eq_true hc))

/-- A group with its leading zeros. -/
def groupText (group : Fin 65536) : List Char :=
  [group.val / 4096, group.val / 256 % 16, group.val / 16 % 16, group.val % 16].map Nat.digitChar

theorem digitChar_inj {m n : ℕ} (hm : m < 16) (hn : n < 16) (h : Nat.digitChar m = Nat.digitChar n) : m = n := by
  have hall : ∀ m n : Fin 16, Nat.digitChar m = Nat.digitChar n → m = n := by decide
  exact Fin.mk.inj (hall ⟨m, hm⟩ ⟨n, hn⟩ h)

theorem groupText_injective : Function.Injective groupText := by
  intro group group' h
  simp only [groupText, List.map_cons, List.map_nil, List.cons.injEq, and_true] at h
  obtain ⟨h3, h2, h1, h0⟩ := h
  have hlt := group.isLt
  have hlt' := group'.isLt
  have h3 := digitChar_inj (by omega) (by omega) h3
  have h2 := digitChar_inj (by omega) (by omega) h2
  have h1 := digitChar_inj (by omega) (by omega) h1
  have h0 := digitChar_inj (by omega) (by omega) h0
  exact Fin.ext (by omega)

/-- Of texts of one length. -/
theorem flatten_groupText_inj {groups groups' : List (Fin 65536)} :
    (groups.map groupText).flatten = (groups'.map groupText).flatten ↔ groups = groups' := by
  constructor
  · intro h
    induction groups generalizing groups' with
    | nil =>
      cases groups' with
      | nil => rfl
      | cons group' groups' => cases h
    | cons group groups ih =>
      cases groups' with
      | nil => cases h
      | cons group' groups' =>
        rw [List.map_cons, List.flatten_cons, List.map_cons, List.flatten_cons] at h
        obtain ⟨hfirst, hrest⟩ := List.append_inj h rfl
        rw [groupText_injective hfirst, ih hrest]
  · rintro rfl
    rfl

theorem groupText_ofNat {d₃ d₂ d₁ d₀ : ℕ} (h₃ : d₃ < 16) (h₂ : d₂ < 16) (h₁ : d₁ < 16) (h₀ : d₀ < 16) :
    groupText (Fin.ofNat 65536 (16 * (16 * (16 * d₃ + d₂) + d₁) + d₀)) = [d₃, d₂, d₁, d₀].map Nat.digitChar := by
  have hval : (Fin.ofNat 65536 (16 * (16 * (16 * d₃ + d₂) + d₁) + d₀)).val =
      16 * (16 * (16 * d₃ + d₂) + d₁) + d₀ := Nat.mod_eq_of_lt (by omega)
  rw [groupText, hval]
  congr 1
  simp only [List.cons.injEq, and_true]
  omega

/-- A group that is read is its text, padded and in lower case. -/
theorem readGroup_eq_some {cs : List Char} {group : Fin 65536} (h : readGroup cs = some group) :
    (cs ≠ [] ∧ ∀ c ∈ cs, isHex c = true) ∧ (cs.map Char.toLower).leftpad 4 '0' = groupText group := by
  rw [readGroup] at h
  split at h
  · rename_i hcs
    obtain ⟨hnil, hlength, hhex⟩ := hcs
    rw [List.all_eq_true] at hhex
    refine ⟨⟨hnil, hhex⟩, ?_⟩
    cases h
    have hzero : (0 : ℕ) < 16 := by decide
    have hdigit : Nat.digitChar 0 = '0' := rfl
    rcases cs with _ | ⟨c₁, _ | ⟨c₂, _ | ⟨c₃, _ | ⟨c₄, _ | ⟨c₅, cs⟩⟩⟩⟩⟩
    · exact absurd rfl hnil
    · simp only [List.forall_mem_cons] at hhex
      obtain ⟨h₁, hc₁⟩ := digitChar_hexValue hhex.1
      have htext := groupText_ofNat hzero hzero hzero h₁
      simpa [List.leftpad, hdigit, hc₁] using htext.symm
    · simp only [List.forall_mem_cons] at hhex
      obtain ⟨h₁, hc₁⟩ := digitChar_hexValue hhex.1
      obtain ⟨h₂, hc₂⟩ := digitChar_hexValue hhex.2.1
      have htext := groupText_ofNat hzero hzero h₁ h₂
      simpa [List.leftpad, hdigit, hc₁, hc₂] using htext.symm
    · simp only [List.forall_mem_cons] at hhex
      obtain ⟨h₁, hc₁⟩ := digitChar_hexValue hhex.1
      obtain ⟨h₂, hc₂⟩ := digitChar_hexValue hhex.2.1
      obtain ⟨h₃, hc₃⟩ := digitChar_hexValue hhex.2.2.1
      have htext := groupText_ofNat hzero h₁ h₂ h₃
      simpa [List.leftpad, hdigit, hc₁, hc₂, hc₃] using htext.symm
    · simp only [List.forall_mem_cons] at hhex
      obtain ⟨h₁, hc₁⟩ := digitChar_hexValue hhex.1
      obtain ⟨h₂, hc₂⟩ := digitChar_hexValue hhex.2.1
      obtain ⟨h₃, hc₃⟩ := digitChar_hexValue hhex.2.2.1
      obtain ⟨h₄, hc₄⟩ := digitChar_hexValue hhex.2.2.2.1
      have htext := groupText_ofNat h₁ h₂ h₃ h₄
      simpa [List.leftpad, hc₁, hc₂, hc₃, hc₄] using htext.symm
    · simp only [List.length_cons] at hlength
      omega
  · cases h

theorem readGroups_eq_some {atEnd : Bool} {pieces : List (List Char)} {groups : List (Fin 65536)}
    (hplain : ∀ piece ∈ pieces, '.' ∉ piece) (h : readGroups atEnd pieces = some groups) :
    List.Forall₂ (fun piece group => readGroup piece = some group) pieces groups := by
  induction pieces generalizing groups with
  | nil =>
    cases h
    exact .nil
  | cons piece pieces ih =>
    obtain ⟨hfirst, hplain⟩ := List.forall_mem_cons.mp hplain
    cases pieces with
    | nil =>
      rw [readGroups, if_neg (fun hdot => hfirst hdot.2)] at h
      obtain ⟨group, hgroup, rfl⟩ := Option.map_eq_some_iff.mp h
      exact .cons hgroup .nil
    | cons next pieces =>
      obtain ⟨group, hgroup, h⟩ := Option.bind_eq_some_iff.mp h
      obtain ⟨rest, hrest, h⟩ := Option.bind_eq_some_iff.mp h
      cases h
      exact .cons hgroup (ih hplain hrest)

theorem length_le_of_readGroups {atEnd : Bool} {pieces : List (List Char)} {groups : List (Fin 65536)}
    (h : readGroups atEnd pieces = some groups) : groups.length ≤ pieces.length + 1 := by
  induction pieces generalizing groups with
  | nil =>
    cases h
    exact Nat.zero_le _
  | cons piece pieces ih =>
    cases pieces with
    | nil =>
      rw [readGroups] at h
      split at h
      · obtain ⟨quad, -, rfl⟩ := Option.map_eq_some_iff.mp h
        exact le_rfl
      · obtain ⟨group, -, rfl⟩ := Option.map_eq_some_iff.mp h
        exact Nat.le_succ _
    | cons next pieces =>
      obtain ⟨group, hgroup, h⟩ := Option.bind_eq_some_iff.mp h
      obtain ⟨rest, hrest, h⟩ := Option.bind_eq_some_iff.mp h
      cases h
      have := ih hrest
      simp only [List.length_cons] at this ⊢
      omega

/-- The two ways of writing eight groups. -/
theorem readIPv6_eq_some {cs : List Char} {groups : List.Vector (Fin 65536) 8} (h : readIPv6 cs = some groups) :
    (splitDouble cs = [cs] ∧ readGroups true (cs.splitOn ':') = some groups.toList) ∨
    ∃ front back head tail, splitDouble cs = [front, back] ∧ readSide false front = some head ∧
      readSide true back = some tail ∧ head.length + tail.length < 8 ∧
      groups.toList = head ++ List.replicate (8 - (head.length + tail.length)) 0 ++ tail := by
  have hjoined := intercalate_splitDouble cs
  rw [readIPv6] at h
  split at h
  · rename_i all hsplit
    rw [hsplit, List.intercalate_singleton] at hjoined
    subst hjoined
    obtain ⟨list, hlist, h⟩ := Option.bind_eq_some_iff.mp h
    split at h
    · rename_i hlength
      cases h
      refine .inl ⟨hsplit, ?_⟩
      rw [readSide] at hlist
      split at hlist
      · cases hlist
        exact absurd hlength (by decide)
      · exact hlist
    · cases h
  · rename_i front back hsplit
    obtain ⟨head, hhead, h⟩ := Option.bind_eq_some_iff.mp h
    obtain ⟨tail, htail, h⟩ := Option.bind_eq_some_iff.mp h
    split at h
    · rename_i hlength
      cases h
      exact .inr ⟨front, back, head, tail, hsplit, hhead, htail, hlength, rfl⟩
    · cases h
  · cases h

/-- There are two colons at least. -/
theorem two_le_count_of_readIPv6 {cs : List Char} {groups : List.Vector (Fin 65536) 8}
    (h : readIPv6 cs = some groups) : 2 ≤ cs.count ':' := by
  obtain ⟨-, hgroups⟩ | ⟨front, back, -, -, hsplit, -⟩ := readIPv6_eq_some h
  · have hlength := length_le_of_readGroups hgroups
    rw [length_splitOn, groups.toList_length] at hlength
    omega
  · rw [← intercalate_splitDouble cs, hsplit, List.intercalate_cons_cons, List.intercalate_singleton,
      List.count_append, List.count_append]
    have htwo : List.count ':' [':', ':'] = 2 := rfl
    omega

theorem readGroups_filter {atEnd : Bool} {cs : List Char} {groups : List (Fin 65536)} (hplain : '.' ∉ cs)
    (h : readGroups atEnd (cs.splitOn ':') = some groups) :
    List.Forall₂ (fun piece group => readGroup piece = some group) ((cs.splitOn ':').filter (· ≠ [])) groups := by
  have hread := readGroups_eq_some (fun piece hpiece hdot => hplain (mem_of_mem_splitOn hpiece hdot)) h
  rwa [List.filter_eq_self.mpr]
  intro piece hpiece
  rw [decide_eq_true_eq]
  rintro rfl
  obtain ⟨group, -, hgroup⟩ := exists_of_forall₂_left hread hpiece
  exact (readGroup_eq_some hgroup).1.1 rfl

/-- The pieces of a side, apart from one that is empty because the side is. -/
theorem readSide_eq_some {atEnd : Bool} {cs : List Char} {groups : List (Fin 65536)} (hplain : '.' ∉ cs)
    (h : readSide atEnd cs = some groups) :
    List.Forall₂ (fun piece group => readGroup piece = some group) ((cs.splitOn ':').filter (· ≠ [])) groups := by
  rw [readSide] at h
  split at h
  · rename_i hnil
    subst hnil
    cases h
    exact .nil
  · exact readGroups_filter hplain h

theorem isHex_of_readOctet {cs : List Char} {octet : Fin 256} (h : readOctet cs = some octet) :
    ∀ c ∈ cs, isHex c = true := by
  rw [readOctet] at h
  split at h
  · rename_i hcs
    intro c hc
    have hdigit := List.all_eq_true.mp hcs.2.2.1 c hc
    rw [Char.isDigit, Bool.and_eq_true, decide_eq_true_eq, decide_eq_true_eq] at hdigit
    have hlow : 48 ≤ c.toNat := UInt32.le_iff_toNat_le.mp hdigit.1
    have hhigh : c.toNat ≤ 57 := UInt32.le_iff_toNat_le.mp hdigit.2
    rw [← Char.ofNat_toNat c]
    interval_cases c.toNat <;> decide
  · cases h

theorem readQuad_eq_some {cs : List Char} {quad : Fin 256 × Fin 256 × Fin 256 × Fin 256} (h : readQuad cs = some quad) :
    ∃ p q r s, cs.splitOn '.' = [p, q, r, s] ∧ readOctet p = some quad.1 ∧ readOctet q = some quad.2.1 ∧
      readOctet r = some quad.2.2.1 ∧ readOctet s = some quad.2.2.2 := by
  rw [readQuad] at h
  split at h
  · rename_i p q r s hsplit
    obtain ⟨a, ha, h⟩ := Option.bind_eq_some_iff.mp h
    obtain ⟨b, hb, h⟩ := Option.bind_eq_some_iff.mp h
    obtain ⟨c, hc, h⟩ := Option.bind_eq_some_iff.mp h
    obtain ⟨d, hd, h⟩ := Option.bind_eq_some_iff.mp h
    cases h
    exact ⟨p, q, r, s, hsplit, ha, hb, hc, hd⟩
  · cases h

theorem isHex_of_readQuad {cs : List Char} {quad : Fin 256 × Fin 256 × Fin 256 × Fin 256}
    (h : readQuad cs = some quad) :
    ∀ c ∈ cs, isHex c = true ∨ c = '.' := by
  obtain ⟨p, q, r, s, hsplit, hp, hq, hr, hs⟩ := readQuad_eq_some h
  intro c hc
  rw [← @List.intercalate_splitOn _ cs _ _ '.', hsplit] at hc
  obtain hsep | ⟨piece, hpiece, hmem⟩ := mem_or_of_mem_intercalate hc
  · exact .inr (List.mem_singleton.mp hsep)
  · have hall : ∀ piece ∈ [p, q, r, s], ∀ c ∈ piece, isHex c = true := by
      simp only [List.forall_mem_cons, List.not_mem_nil, false_implies, implies_true, and_true]
      exact ⟨isHex_of_readOctet hp, isHex_of_readOctet hq, isHex_of_readOctet hr, isHex_of_readOctet hs⟩
    exact .inl (hall piece hpiece c hmem)

theorem isHex_of_readGroups {atEnd : Bool} {pieces : List (List Char)} {groups : List (Fin 65536)}
    (h : readGroups atEnd pieces = some groups) : ∀ piece ∈ pieces, ∀ c ∈ piece, isHex c = true ∨ c = '.' := by
  induction pieces generalizing groups with
  | nil => exact fun _ hpiece => absurd hpiece List.not_mem_nil
  | cons piece pieces ih =>
    cases pieces with
    | nil =>
      rw [List.forall_mem_singleton]
      rw [readGroups] at h
      split at h
      · obtain ⟨quad, hquad, -⟩ := Option.map_eq_some_iff.mp h
        exact isHex_of_readQuad hquad
      · obtain ⟨group, hgroup, -⟩ := Option.map_eq_some_iff.mp h
        exact fun c hc => .inl ((readGroup_eq_some hgroup).1.2 c hc)
    | cons next pieces =>
      obtain ⟨group, hgroup, h⟩ := Option.bind_eq_some_iff.mp h
      obtain ⟨rest, hrest, -⟩ := Option.bind_eq_some_iff.mp h
      exact List.forall_mem_cons.mpr ⟨fun c hc => .inl ((readGroup_eq_some hgroup).1.2 c hc), ih hrest⟩

theorem isHex_of_readSide {atEnd : Bool} {cs : List Char} {groups : List (Fin 65536)}
    (h : readSide atEnd cs = some groups) : ∀ c ∈ cs, isHex c = true ∨ c = '.' ∨ c = ':' := by
  rw [readSide] at h
  split at h
  · rename_i hnil
    subst hnil
    exact fun _ hc => absurd hc List.not_mem_nil
  · intro c hc
    rw [← @List.intercalate_splitOn _ cs _ _ ':'] at hc
    obtain hsep | ⟨piece, hpiece, hmem⟩ := mem_or_of_mem_intercalate hc
    · exact .inr (.inr (List.mem_singleton.mp hsep))
    · exact (isHex_of_readGroups h piece hpiece c hmem).imp_right .inl

/-- All is digits, colons and dots. -/
theorem isHex_of_readIPv6 {cs : List Char} {groups : List.Vector (Fin 65536) 8} (h : readIPv6 cs = some groups) :
    ∀ c ∈ cs, isHex c = true ∨ c = '.' ∨ c = ':' := by
  obtain ⟨-, hgroups⟩ | ⟨front, back, head, tail, hsplit, hhead, htail, -⟩ := readIPv6_eq_some h
  · have hne : cs ≠ [] := by
      rintro rfl
      exact absurd (two_le_count_of_readIPv6 h) (by decide)
    have hside : readSide true cs = some groups.toList := (if_neg hne).trans hgroups
    exact isHex_of_readSide hside
  · intro c hc
    rw [← intercalate_splitDouble cs, hsplit] at hc
    obtain hsep | ⟨piece, hpiece, hmem⟩ := mem_or_of_mem_intercalate hc
    · exact .inr (.inr (by simpa using hsep))
    · obtain hpiece | hpiece := List.mem_cons.mp hpiece
      · rw [hpiece] at hmem
        exact isHex_of_readSide hhead c hmem
      · rw [List.mem_singleton.mp hpiece] at hmem
        exact isHex_of_readSide htail c hmem

/-! ### Mapped addresses -/

theorem eq_of_toLower_eq {c d : Char} (hc : c.toLower = d) (hd : d.isLower = false) : c = d := by
  by_cases hupper : c.isUpper = true
  · have hlower := Char.isLower_toLower_eq_isAlpha c
    rw [hc, hd, Char.isAlpha, hupper] at hlower
    cases hlower
  · rw [← hc, Char.toLower_eq_of_not_isUpper hupper]

theorem eq_or_of_toLower_eq_f {c : Char} (hc : c.toLower = 'f') : c = 'f' ∨ c = 'F' := by
  by_cases hupper : c.isUpper = true
  · rw [Char.isUpper, decide_eq_true_eq] at hupper
    have hlow : 65 ≤ c.toNat := UInt32.le_iff_toNat_le.mp hupper.1
    have hhigh : c.toNat ≤ 90 := UInt32.le_iff_toNat_le.mp hupper.2
    rw [← Char.ofNat_toNat c] at hc ⊢
    revert hc
    interval_cases c.toNat <;> decide
  · rw [Char.toLower_eq_of_not_isUpper hupper] at hc
    exact .inl hc

theorem splitDouble_eq_singleton {cs : List Char} (h : ':' ∉ cs) : splitDouble cs = [cs] := by
  induction cs with
  | nil => rfl
  | cons c cs ih =>
    rw [splitDouble, ih (fun hmem => h (List.mem_cons_of_mem _ hmem))]
    · rfl
    · rintro cs' rfl -
      exact h (List.mem_cons_self ..)

theorem splitDouble_single {u v : List Char} (hu : ':' ∉ u) (hv : ':' ∉ v) :
    splitDouble (u ++ ':' :: v) = [u ++ ':' :: v] := by
  induction u with
  | nil =>
    rw [List.nil_append, splitDouble, splitDouble_eq_singleton hv]
    · rfl
    · rintro v' - rfl
      exact hv (List.mem_cons_self ..)
  | cons c u ih =>
    rw [List.cons_append, splitDouble, ih (fun hmem => hu (List.mem_cons_of_mem _ hmem))]
    · rfl
    · rintro v' rfl -
      exact hu (List.mem_cons_self ..)

theorem ofGroups_mapped (quad : Fin 256 × Fin 256 × Fin 256 × Fin 256) {groups : List.Vector (Fin 65536) 8}
    (hgroups : groups.toList = [0, 0, 0, 0, 0, 65535, Fin.ofNat 65536 (quad.1 * 256 + quad.2.1),
      Fin.ofNat 65536 (quad.2.2.1 * 256 + quad.2.2.2)]) :
    Address.ofGroups groups = .v4 quad.1 quad.2.1 quad.2.2.1 quad.2.2.2 := by
  have hparts : ∀ m n : Fin 256, Fin.ofNat 256 ((Fin.ofNat 65536 (m * 256 + n)).val / 256) = m ∧
      Fin.ofNat 256 (Fin.ofNat 65536 (m * 256 + n)).val = n := by
    intro m n
    have hval : (Fin.ofNat 65536 (m.val * 256 + n.val)).val = m.val * 256 + n.val := Nat.mod_eq_of_lt (by omega)
    rw [hval]
    constructor
    · refine Fin.ext ?_
      change (m.val * 256 + n.val) / 256 % 256 = m.val
      omega
    · refine Fin.ext ?_
      change (m.val * 256 + n.val) % 256 = n.val
      omega
  rw [Address.ofGroups, hgroups]
  exact congr (congr (congr (congrArg Address.v4 (hparts _ _).1) (hparts _ _).2) (hparts _ _).1) (hparts _ _).2

/-- An address of version 4 as a dotted quad after `::ffff:`. -/
theorem readIPv6_mapped {start cs : List Char}
    (hstart : start.map Char.toLower = [':', ':', 'f', 'f', 'f', 'f', ':']) (hdot : '.' ∈ cs) (hcolon : ':' ∉ cs) :
    (readIPv6 (start ++ cs)).map .ofGroups = readIPv4 cs := by
  have hlength : start.length = 7 := by rw [← List.length_map, hstart]; rfl
  obtain ⟨c₁, c₂, f₁, f₂, f₃, f₄, c₃, rfl⟩ : ∃ c₁ c₂ f₁ f₂ f₃ f₄ c₃, start = [c₁, c₂, f₁, f₂, f₃, f₄, c₃] := by
    rcases start with _ | ⟨c₁, _ | ⟨c₂, _ | ⟨f₁, _ | ⟨f₂, _ | ⟨f₃, _ | ⟨f₄, _ | ⟨c₃, _ | ⟨c₄, start⟩⟩⟩⟩⟩⟩⟩⟩ <;>
      simp_all
  simp only [List.map_cons, List.map_nil] at hstart
  obtain ⟨hc₁, hstart⟩ := List.cons_eq_cons.mp hstart
  obtain ⟨hc₂, hstart⟩ := List.cons_eq_cons.mp hstart
  obtain ⟨hf₁, hstart⟩ := List.cons_eq_cons.mp hstart
  obtain ⟨hf₂, hstart⟩ := List.cons_eq_cons.mp hstart
  obtain ⟨hf₃, hstart⟩ := List.cons_eq_cons.mp hstart
  obtain ⟨hf₄, hstart⟩ := List.cons_eq_cons.mp hstart
  obtain ⟨hc₃, -⟩ := List.cons_eq_cons.mp hstart
  obtain rfl := eq_of_toLower_eq hc₁ rfl
  obtain rfl := eq_of_toLower_eq hc₂ rfl
  obtain rfl := eq_of_toLower_eq hc₃ rfl
  have hgroup : readGroup [f₁, f₂, f₃, f₄] = some 65535 ∧ ':' ∉ [f₁, f₂, f₃, f₄] := by
    obtain rfl | rfl := eq_or_of_toLower_eq_f hf₁ <;> obtain rfl | rfl := eq_or_of_toLower_eq_f hf₂ <;>
      obtain rfl | rfl := eq_or_of_toLower_eq_f hf₃ <;> obtain rfl | rfl := eq_or_of_toLower_eq_f hf₄ <;>
      decide +kernel
  obtain ⟨hgroup, hplain⟩ := hgroup
  have hsplit : splitDouble ([':', ':', f₁, f₂, f₃, f₄, ':'] ++ cs) = [[], [f₁, f₂, f₃, f₄] ++ ':' :: cs] := by
    change [] :: splitDouble ([f₁, f₂, f₃, f₄] ++ ':' :: cs) = _
    rw [splitDouble_single hplain hcolon]
  have hpieces : ([f₁, f₂, f₃, f₄] ++ ':' :: cs).splitOn ':' = [[f₁, f₂, f₃, f₄], cs] := by
    rw [List.splitOn_append_cons_self_of_not_mem hplain, List.splitOn_eq_singleton hcolon]
  have hback : readSide true ([f₁, f₂, f₃, f₄] ++ ':' :: cs) = (readQuad cs).map fun quad =>
      [65535, Fin.ofNat 65536 (quad.1 * 256 + quad.2.1), Fin.ofNat 65536 (quad.2.2.1 * 256 + quad.2.2.2)] := by
    rw [readSide, if_neg (List.append_ne_nil_of_right_ne_nil _ (List.cons_ne_nil _ _)), hpieces, readGroups,
      hgroup, readGroups, if_pos (And.intro rfl hdot)]
    · cases readQuad cs <;> rfl
    · exact fun h => by cases h
  rw [readIPv4, readIPv6]
  simp only [hsplit, hback]
  cases readQuad cs with
  | none => rfl
  | some quad => exact congrArg some (ofGroups_mapped quad rfl)

end IpAddresses
