import PropFirm.Lib.IpAddresses
import PropFirm.Lib.JsText
import PropFirm.Lib.SeparatedFields

/-!
# The subnet of a request

`cleanIp` strips from the address of a request what proxies write around it, and `getIpSubnet` takes the
network of what is left, by its text. It is canonical where the text says the same as the address does: not
for mapped addresses in groups, not for dotted quads in brackets or at the end of groups, and not for texts
that the loose test for version 6 lets through.
-/

namespace PropFirm

open IpAddresses SeparatedFields

/-! ### `requestIp.ts` -/

/-- The text matches `^\d{1,3}(?:\.\d{1,3}){3}$`. -/
def isDotted (value : List Char) : Bool :=
  let parts := value.splitOn '.'
  parts.length = 4 && parts.all fun part => !part.isEmpty && part.length ≤ 3 && part.all Char.isDigit

/-- `^::ffff:(…)$`, whatever the case. -/
def mappedHost? (value : List Char) : Option (List Char) :=
  if (value.take 7).map Char.toLower = [':', ':', 'f', 'f', 'f', 'f', ':'] ∧ isDotted (value.drop 7) then
    some (value.drop 7)
  else none

/-- `^(…):\d+$`. -/
def portedHost? (value : List Char) : Option (List Char) := (portHost? value).filter isDotted

/-- `^\[([0-9a-f:.]+)\](?::\d+)?$`, whatever the case. -/
def bracketedHost? (value : List Char) : Option (List Char) :=
  (bracketHost? value).filter fun host => !host.isEmpty && host.all fun c => isHex c || c = '.' || c = ':'

def cleanIp (raw : String) : Option (List Char) :=
  let value := (jsTrim raw).toList
  if value = [] then none
  else
    let value := (mappedHost? value).getD value
    let value := (portedHost? value).getD value
    some ((bracketedHost? value).getD value)

def isIPv4 (value : List Char) : Bool :=
  let parts := value.splitOn '.'
  parts.length = 4 && parts.all fun part =>
    (!part.isEmpty && part.length ≤ 3 && part.all Char.isDigit) && decimalValue part ≤ 255

/-- Loose: digits and colons only, at least two colons. -/
def isIPv6 (value : List Char) : Bool :=
  !value.isEmpty && value.all (fun c => isHex c || c = ':') && 2 ≤ value.count ':'

/-- `split(':').filter(Boolean)`. -/
def nonEmptyGroups (value : List Char) : List (List Char) := (value.splitOn ':').filter (· ≠ [])

/-- The eight groups, padded. -/
def expandIPv6 (value : List Char) : Option (List (List Char)) :=
  match splitDouble (value.map Char.toLower) with
  | [all] =>
    let head := nonEmptyGroups all
    if head.length ≠ 8 then none else some (head.map (List.leftpad 4 '0'))
  | [front, back] =>
    let head := nonEmptyGroups front
    let tail := nonEmptyGroups back
    if 8 < head.length + tail.length then none
    else some ((head ++ List.replicate (8 - (head.length + tail.length)) ['0'] ++ tail).map (List.leftpad 4 '0'))
  | _ => none

/-- Of the octets as numbers. -/
def ipv4Subnet (value : List Char) : Option String :=
  match (value.splitOn '.').map decimalValue with
  | a :: b :: c :: _ =>
    if a = 127 ∨ a = 0 ∨ a = 10 then none
    else if a = 169 ∧ b = 254 then none
    else if a = 192 ∧ b = 168 then none
    else if a = 172 ∧ 16 ≤ b ∧ b ≤ 31 then none
    else if a = 100 ∧ 64 ≤ b ∧ b ≤ 127 then none
    else some (toString a ++ "." ++ toString b ++ "." ++ toString c ++ ".0/24")
  | _ => none

/-- Loopback, unspecified, link-local and unique-local groups. -/
def excludedGroups (first joined : List Char) : Bool :=
  joined = List.replicate 31 '0' ++ ['1'] || joined = List.replicate 32 '0' ||
    (first.take 2 = ['f', 'e'] && ((first.drop 2).head?.any fun c => c ∈ ['8', '9', 'a', 'b'])) ||
    (first.head? = some 'f' && ((first.drop 1).head?.any fun c => c ∈ ['c', 'd']))

def ipv6Subnet (groups : List (List Char)) : Option String :=
  match groups with
  | first :: second :: third :: _ =>
    if excludedGroups first groups.flatten then none
    else some (.ofList (first ++ ':' :: second ++ ':' :: third ++ "::/48".toList))
  | _ => none

def subnetOf (value : List Char) : Option String :=
  if value = "unknown".toList then none
  else if isIPv4 value then ipv4Subnet value
  else if isIPv6 value then (expandIPv6 value).bind ipv6Subnet
  else none

def getIpSubnet (raw : String) : Option String := (cleanIp raw).bind subnetOf

/-! ### What a subnet should be -/

def networkText : Address → String
  | .v4 a b c _ => toString a.val ++ "." ++ toString b.val ++ "." ++ toString c.val ++ ".0/24"
  | .v6 groups => .ofList (groupText (groups.get 0) ++ ':' :: groupText (groups.get 1) ++ ':' ::
      groupText (groups.get 2) ++ "::/48".toList)

/-- The network of an address, unless it is a local one. -/
def subnet? (address : Address) : Option String := if address.Local then none else some (networkText address)

/-- Hosts of version 6 whose subnet is not that of their address, or that are none and have one. -/
inductive MisreadIPv6 (host : List Char) : Prop
  /-- Groups that end with a dotted quad. -/
  | dotted (groups : List.Vector (Fin 65536) 8) (hdot : '.' ∈ host) (hread : readIPv6 host = some groups)
      (hpublic : ¬ (Address.ofGroups groups).Local)
  /-- A mapped address in groups. -/
  | mapped (groups : List.Vector (Fin 65536) 8) (hplain : '.' ∉ host) (hread : readIPv6 host = some groups)
      (hmapped : Address.ofGroups groups ≠ .v6 groups)
  /-- Long groups, stray colons, or a double colon for no group. -/
  | malformed (first second third : List Char) (rest : List (List Char)) (hloose : isIPv6 host = true)
      (hread : readIPv6 host = none) (hgroups : expandIPv6 host = some (first :: second :: third :: rest))
      (hkept : excludedGroups first (first :: second :: third :: rest).flatten = false)

/-- A public dotted quad in brackets, or a host of version 6 other than `::ffff:` and a quad. -/
def Misread (value : List Char) : Prop :=
  (∃ host ∈ bracketHost? value, ∃ address ∈ readIPv4 host, ¬ address.Local) ∨
    mappedHost? value = none ∧ MisreadIPv6 ((bracketHost? value).getD value)

/-! ### Version 4 -/

theorem readOctet_eq (part : List Char) : readOctet part =
    if ((!part.isEmpty && part.length ≤ 3 && part.all Char.isDigit) && decimalValue part ≤ 255) = true then
      some (Fin.ofNat 256 (decimalValue part))
    else none := by
  rw [readOctet]
  refine if_congr ?_ rfl rfl
  simp only [Bool.and_eq_true, Bool.not_eq_true', List.isEmpty_eq_false_iff, decide_eq_true_eq, and_assoc,
    Nat.lt_succ_iff]

theorem local_v4_iff {a b c d : Fin 256} : (Address.v4 a b c d).Local ↔ a.val = 127 ∨ a.val = 0 ∨ a.val = 10 ∨
    a.val = 169 ∧ b.val = 254 ∨ a.val = 192 ∧ b.val = 168 ∨ a.val = 172 ∧ 16 ≤ b.val ∧ b.val ≤ 31 ∨
    a.val = 100 ∧ 64 ≤ b.val ∧ b.val ≤ 127 := by
  simp only [Address.Local, Fin.ext_iff, Fin.le_def]
  rfl

theorem isIPv4_of_readIPv4 {value : List Char} {address : Address} (h : readIPv4 value = some address) :
    isIPv4 value = true ∧ ipv4Subnet value = subnet? address := by
  obtain ⟨quad, hquad, rfl⟩ := Option.map_eq_some_iff.mp h
  obtain ⟨p, q, r, s, hsplit, hp, hq, hr, hs⟩ := readQuad_eq_some hquad
  have hoctet : ∀ {part octet}, readOctet part = some octet →
      ((!part.isEmpty && part.length ≤ 3 && part.all Char.isDigit) && decimalValue part ≤ 255) = true ∧
        decimalValue part = octet.val := by
    intro part octet hread
    rw [readOctet_eq] at hread
    split at hread
    · rename_i hpart
      cases hread
      refine ⟨hpart, (Nat.mod_eq_of_lt ?_).symm⟩
      exact Nat.lt_succ_of_le (of_decide_eq_true (Bool.and_eq_true_iff.mp hpart).2)
    · cases hread
  obtain ⟨hp, hp'⟩ := hoctet hp
  obtain ⟨hq, hq'⟩ := hoctet hq
  obtain ⟨hr, hr'⟩ := hoctet hr
  obtain ⟨hs, -⟩ := hoctet hs
  constructor
  · rw [isIPv4, hsplit]
    simp only [List.all_cons, List.all_nil, hp, hq, hr, hs, List.length_cons, List.length_nil]
    rfl
  · rw [ipv4Subnet, hsplit, List.map_cons, List.map_cons, List.map_cons, hp', hq', hr', subnet?]
    simp only [local_v4_iff, ite_or]
    rfl

theorem readIPv4_of_isIPv4 {value : List Char} (h : isIPv4 value = true) :
    ∃ address, readIPv4 value = some address := by
  rw [isIPv4, Bool.and_eq_true, decide_eq_true_eq] at h
  obtain ⟨p, q, r, s, hsplit⟩ := List.length_eq_four.mp h.1
  have hoctet : ∀ part ∈ [p, q, r, s], readOctet part = some (Fin.ofNat 256 (decimalValue part)) := by
    intro part hpart
    rw [readOctet_eq]
    exact if_pos (List.all_eq_true.mp h.2 part (hsplit ▸ hpart))
  simp only [List.forall_mem_cons] at hoctet
  obtain ⟨hp, hq, hr, hs, -⟩ := hoctet
  rw [readIPv4, readQuad]
  simp only [hsplit, hp, hq, hr, hs]
  exact ⟨_, rfl⟩

theorem isHex_of_readIPv4 {value : List Char} {address : Address} (h : readIPv4 value = some address) :
    ∀ c ∈ value, isHex c = true ∨ c = '.' := by
  obtain ⟨quad, hquad, -⟩ := Option.map_eq_some_iff.mp h
  exact isHex_of_readQuad hquad

/-- There is a dot, and no colon. -/
theorem dot_mem_of_isDotted {value : List Char} (h : isDotted value = true) :
    '.' ∈ value ∧ ∀ c ∈ value, c.isDigit = true ∨ c = '.' := by
  rw [isDotted, Bool.and_eq_true, decide_eq_true_eq] at h
  obtain ⟨hlength, hparts⟩ := h
  constructor
  · rw [length_splitOn] at hlength
    exact List.count_pos_iff.mp (by omega)
  · intro c hc
    rw [← @List.intercalate_splitOn _ value _ _ '.'] at hc
    obtain hsep | ⟨part, hpart, hmem⟩ := mem_or_of_mem_intercalate hc
    · exact .inr (List.mem_singleton.mp hsep)
    · have hdigits := (Bool.and_eq_true_iff.mp (List.all_eq_true.mp hparts part hpart)).2
      exact .inl (List.all_eq_true.mp hdigits c hmem)

theorem isDotted_of_readIPv4 {value : List Char} {address : Address} (h : readIPv4 value = some address) :
    isDotted value = true := by
  obtain ⟨hfour, -⟩ := isIPv4_of_readIPv4 h
  rw [isIPv4, Bool.and_eq_true] at hfour
  rw [isDotted, Bool.and_eq_true]
  refine ⟨hfour.1, List.all_eq_true.mpr fun part hpart => ?_⟩
  exact (Bool.and_eq_true_iff.mp (List.all_eq_true.mp hfour.2 part hpart)).1

/-! ### Version 6 -/

theorem leftpad_readGroups {pieces : List (List Char)} {groups : List (Fin 65536)}
    (h : List.Forall₂ (fun piece group => readGroup piece = some group) pieces groups) :
    (pieces.map (List.map Char.toLower)).map (List.leftpad 4 '0') = groups.map groupText := by
  induction h with
  | nil => rfl
  | cons hread _ ih =>
    rw [List.map_cons, List.map_cons, List.map_cons, ih, (readGroup_eq_some hread).2]

theorem toLower_eq_colon_iff (c : Char) : c.toLower = ':' ↔ c = ':' := by
  constructor
  · intro hc
    exact eq_of_toLower_eq hc rfl
  · rintro rfl
    rfl

theorem nonEmptyGroups_toLower (side : List Char) :
    nonEmptyGroups (side.map Char.toLower) = (nonEmptyGroups side).map (List.map Char.toLower) := by
  rw [nonEmptyGroups, nonEmptyGroups, splitOn_map toLower_eq_colon_iff, List.filter_map]
  congr 2
  funext piece
  rw [Function.comp_apply, decide_eq_decide, ne_eq, ne_eq, List.map_eq_nil_iff]

/-- What is an address is expanded to its groups. -/
theorem expandIPv6_of_readIPv6 {host : List Char} {groups : List.Vector (Fin 65536) 8} (hplain : '.' ∉ host)
    (h : readIPv6 host = some groups) : expandIPv6 host = some (groups.toList.map groupText) := by
  rw [expandIPv6, splitDouble_map toLower_eq_colon_iff]
  obtain ⟨hsplit, hgroups⟩ | ⟨front, back, head, tail, hsplit, hhead, htail, hlength, hlist⟩ := readIPv6_eq_some h
  · have hread : List.Forall₂ _ (nonEmptyGroups host) groups.toList := readGroups_filter hplain hgroups
    rw [hsplit]
    have hlength : (nonEmptyGroups (host.map Char.toLower)).length = 8 := by
      rw [nonEmptyGroups_toLower, List.length_map, hread.length_eq, groups.toList_length]
    simp only [List.map_cons, List.map_nil]
    rw [if_neg (not_not.mpr hlength), nonEmptyGroups_toLower, leftpad_readGroups hread]
  · have hjoined := intercalate_splitDouble host
    rw [hsplit] at hjoined
    have hfront : '.' ∉ front := fun hdot => hplain (hjoined ▸ mem_intercalate (List.mem_cons_self ..) hdot)
    have hback : '.' ∉ back := fun hdot =>
      hplain (hjoined ▸ mem_intercalate (List.mem_cons_of_mem _ (List.mem_singleton.mpr rfl)) hdot)
    have hreadHead : List.Forall₂ _ (nonEmptyGroups front) head := readSide_eq_some hfront hhead
    have hreadTail : List.Forall₂ _ (nonEmptyGroups back) tail := readSide_eq_some hback htail
    have hheadLength : (nonEmptyGroups (front.map Char.toLower)).length = head.length := by
      rw [nonEmptyGroups_toLower, List.length_map, hreadHead.length_eq]
    have htailLength : (nonEmptyGroups (back.map Char.toLower)).length = tail.length := by
      rw [nonEmptyGroups_toLower, List.length_map, hreadTail.length_eq]
    rw [hsplit]
    simp only [List.map_cons, List.map_nil, hheadLength, htailLength]
    rw [if_neg (by omega), hlist, nonEmptyGroups_toLower, nonEmptyGroups_toLower, List.map_append, List.map_append,
      List.map_append, List.map_append, List.map_replicate, List.map_replicate, leftpad_readGroups hreadHead,
      leftpad_readGroups hreadTail]
    rfl

/-- A digit of a group is a character if it is that character's value. -/
theorem digitChar_eq_iff {n m : ℕ} {c : Char} (hn : n < 16) (hm : m < 16) (hc : Nat.digitChar m = c) :
    Nat.digitChar n = c ↔ n = m := by
  constructor
  · intro h
    exact digitChar_inj hn hm (h.trans hc.symm)
  · rintro rfl
    exact hc

/-- `[89ab]` or `[cd]` after what the digits before are. -/
theorem excludedGroups_eq (groups : List.Vector (Fin 65536) 8) :
    excludedGroups (groupText groups.head) (groups.toList.map groupText).flatten = true ↔
      (Address.v6 groups).Local := by
  have hlast : List.replicate 31 '0' ++ ['1'] = ([0, 0, 0, 0, 0, 0, 0, 1].map groupText).flatten := by decide
  have hzero : List.replicate 32 '0' = ([0, 0, 0, 0, 0, 0, 0, 0].map groupText).flatten := by decide
  have hlt := groups.head.isLt
  have hf := @digitChar_eq_iff (groups.head.val / 4096) 15 'f' (by omega) (by decide) rfl
  have he := @digitChar_eq_iff (groups.head.val / 256 % 16) 14 'e' (by omega) (by decide) rfl
  have hc := @digitChar_eq_iff (groups.head.val / 256 % 16) 12 'c' (by omega) (by decide) rfl
  have hd := @digitChar_eq_iff (groups.head.val / 256 % 16) 13 'd' (by omega) (by decide) rfl
  have h8 := @digitChar_eq_iff (groups.head.val / 16 % 16) 8 '8' (by omega) (by decide) rfl
  have h9 := @digitChar_eq_iff (groups.head.val / 16 % 16) 9 '9' (by omega) (by decide) rfl
  have ha := @digitChar_eq_iff (groups.head.val / 16 % 16) 10 'a' (by omega) (by decide) rfl
  have hb := @digitChar_eq_iff (groups.head.val / 16 % 16) 11 'b' (by omega) (by decide) rfl
  rw [excludedGroups, hlast, hzero, Address.Local]
  simp only [Bool.or_eq_true, decide_eq_true_eq, flatten_groupText_inj, or_assoc]
  simp only [Bool.and_eq_true, decide_eq_true_eq, groupText, List.map_cons, List.map_nil, List.take_succ_cons,
    List.take_zero, List.drop_succ_cons, List.drop_zero,
    List.head?_cons, Option.any_some, List.cons.injEq, and_true, List.mem_cons, List.not_mem_nil, or_false,
    Option.some.injEq, hf, he, hc, hd, h8, h9, ha, hb]
  refine or_congr_right (or_congr_right (or_congr ?_ ?_))
  · rw [Fin.le_def, Fin.le_def]
    change _ ↔ 0xfe80 ≤ groups.head.val ∧ groups.head.val ≤ 0xfebf
    omega
  · rw [Fin.le_def, Fin.le_def]
    change _ ↔ 0xfc00 ≤ groups.head.val ∧ groups.head.val ≤ 0xfdff
    omega

theorem exists_toList_eq (groups : List.Vector (Fin 65536) 8) :
    ∃ rest, groups.toList = groups.get 0 :: groups.get 1 :: groups.get 2 :: rest := by
  obtain ⟨list, hlength⟩ := groups
  obtain ⟨g₀, list, rfl⟩ := List.exists_cons_of_length_eq_add_one hlength
  obtain ⟨g₁, list, rfl⟩ := List.exists_cons_of_length_eq_add_one (Nat.succ.inj hlength)
  obtain ⟨g₂, list, rfl⟩ := List.exists_cons_of_length_eq_add_one (Nat.succ.inj (Nat.succ.inj hlength))
  exact ⟨list, rfl⟩

theorem ipv6Subnet_groupText (groups : List.Vector (Fin 65536) 8) :
    ipv6Subnet (groups.toList.map groupText) = subnet? (.v6 groups) := by
  have hexcluded := excludedGroups_eq groups
  obtain ⟨rest, hlist⟩ := exists_toList_eq groups
  rw [hlist, ← List.Vector.get_zero] at hexcluded
  rw [hlist, subnet?]
  exact if_congr hexcluded rfl rfl

/-! ### Networks -/

theorem subnet?_eq_none_iff {address : Address} : subnet? address = none ↔ address.Local := by
  rw [subnet?]
  split
  · rename_i hlocal
    exact iff_of_true rfl hlocal
  · rename_i hpublic
    exact iff_of_false (Option.some_ne_none _) hpublic

theorem subnet?_of_not_local {address : Address} (hpublic : ¬ address.Local) :
    subnet? address = some (networkText address) := if_neg hpublic

theorem dot_not_mem_toString (n : ℕ) : '.' ∉ (toString n).toList := by
  intro hdot
  have hdigit := Nat.isDigit_of_mem_toDigits (by decide) (by decide) (Nat.toList_repr ▸ hdot)
  exact absurd hdigit (by decide)

theorem toString_octet_inj {m n : Fin 256} (h : toString m.val = toString n.val) : m = n :=
  Fin.ext (Nat.repr_injective h)

theorem v4Text_inj {a b c a' b' c' : Fin 256}
    (h : toString a.val ++ "." ++ toString b.val ++ "." ++ toString c.val ++ ".0/24" =
      toString a'.val ++ "." ++ toString b'.val ++ "." ++ toString c'.val ++ ".0/24") : a = a' ∧ b = b' ∧ c = c' := by
  have hlist := congrArg String.toList h
  simp only [String.toList_append, show ".".toList = ['.'] from rfl,
    show ".0/24".toList = '.' :: "0/24".toList from rfl,
    List.append_assoc, List.cons_append, List.nil_append] at hlist
  obtain ⟨ha, hlist⟩ := (append_inj (dot_not_mem_toString _) (dot_not_mem_toString _)).mp hlist
  obtain ⟨hb, hlist⟩ := (append_inj (dot_not_mem_toString _) (dot_not_mem_toString _)).mp hlist
  obtain ⟨hc, -⟩ := (append_inj (dot_not_mem_toString _) (dot_not_mem_toString _)).mp hlist
  exact ⟨toString_octet_inj (String.toList_inj.mp ha), toString_octet_inj (String.toList_inj.mp hb),
    toString_octet_inj (String.toList_inj.mp hc)⟩

/-- There is a dot in the text of a network of version 4 only. -/
theorem dot_not_mem_groupText (group : Fin 65536) : '.' ∉ groupText group := by
  have hall : ∀ n : Fin 16, Nat.digitChar n ≠ '.' := by decide
  have hlt := group.isLt
  intro hdot
  obtain ⟨d, hd, hdigit⟩ := List.mem_map.mp hdot
  have hd16 : d < 16 := by
    simp only [List.mem_cons, List.not_mem_nil, or_false] at hd
    omega
  exact hall ⟨d, hd16⟩ hdigit

theorem subnet?_v6_ne_v4 {groups : List.Vector (Fin 65536) 8} {a b c d : Fin 256}
    (hpublic : ¬ (Address.v6 groups).Local) : subnet? (.v6 groups) ≠ subnet? (.v4 a b c d) := by
  intro h
  rw [subnet?_of_not_local hpublic] at h
  by_cases hlocal : (Address.v4 a b c d).Local
  · rw [subnet?_eq_none_iff.mpr hlocal] at h
    cases h
  · rw [subnet?_of_not_local hlocal] at h
    have hlist := congrArg String.toList (Option.some.inj h)
    have hdot : '.' ∈ (toString a.val ++ "." ++ toString b.val ++ "." ++ toString c.val ++ ".0/24").toList := by
      simp [String.toList_append]
    change _ = (toString a.val ++ "." ++ toString b.val ++ "." ++ toString c.val ++ ".0/24").toList at hlist
    rw [← hlist, networkText, String.toList_ofList] at hdot
    simp [dot_not_mem_groupText] at hdot

theorem take_three (groups : List.Vector (Fin 65536) 8) :
    groups.toList.take 3 = [groups.get 0, groups.get 1, groups.get 2] := by
  obtain ⟨rest, hlist⟩ := exists_toList_eq groups
  rw [hlist]
  rfl

theorem v6Text_inj {groups groups' : List.Vector (Fin 65536) 8} :
    networkText (.v6 groups) = networkText (.v6 groups') ↔ groups.toList.take 3 = groups'.toList.take 3 := by
  rw [take_three, take_three, networkText, networkText]
  constructor
  · intro h
    have hlist := String.ofList_injective h
    simp only [List.append_assoc, List.cons_append] at hlist
    obtain ⟨h₀, hlist⟩ := List.append_inj hlist rfl
    obtain ⟨h₁, hlist⟩ := List.append_inj (List.cons_eq_cons.mp hlist).2 rfl
    obtain ⟨h₂, -⟩ := List.append_inj (List.cons_eq_cons.mp hlist).2 rfl
    rw [groupText_injective h₀, groupText_injective h₁, groupText_injective h₂]
  · intro h
    obtain ⟨h₀, h⟩ := List.cons_eq_cons.mp h
    obtain ⟨h₁, h⟩ := List.cons_eq_cons.mp h
    rw [h₀, h₁, (List.cons_eq_cons.mp h).1]

theorem subnet?_eq_iff {address address' : Address} (hpublic : ¬ address.Local) (hpublic' : ¬ address'.Local) :
    subnet? address = subnet? address' ↔ address.SameNetwork address' := by
  cases address with
  | v4 a b c d =>
    cases address' with
    | v4 a' b' c' d' =>
      rw [subnet?_of_not_local hpublic, subnet?_of_not_local hpublic', Option.some_inj]
      constructor
      · intro h
        exact v4Text_inj h
      · rintro ⟨rfl, rfl, rfl⟩
        rfl
    | v6 groups' => exact iff_of_false (subnet?_v6_ne_v4 hpublic').symm id
  | v6 groups =>
    cases address' with
    | v4 a' b' c' d' => exact iff_of_false (subnet?_v6_ne_v4 hpublic) id
    | v6 groups' =>
      rw [subnet?_of_not_local hpublic, subnet?_of_not_local hpublic', Option.some_inj]
      exact v6Text_inj

/-! ### What is read of a host -/

theorem isIPv6_of_readIPv6 {host : List Char} {groups : List.Vector (Fin 65536) 8} (hplain : '.' ∉ host)
    (h : readIPv6 host = some groups) : isIPv6 host = true := by
  have hcount := two_le_count_of_readIPv6 h
  have hne : host ≠ [] := by
    rintro rfl
    exact absurd hcount (by decide)
  have hall : host.all (fun c => isHex c || c = ':') = true := by
    rw [List.all_eq_true]
    intro c hc
    obtain hhex | rfl | rfl := isHex_of_readIPv6 h c hc
    · rw [hhex, Bool.true_or]
    · exact absurd hc hplain
    · rfl
  rw [isIPv6, hall, decide_eq_true hcount, List.isEmpty_eq_false_iff.mpr hne]
  rfl

/-- A character that is neither a digit of a group nor a colon. -/
theorem not_isIPv6_of_mem {host : List Char} {c : Char} (hc : c ∈ host) (hout : (isHex c || c = ':') = false) :
    isIPv6 host = false := by
  rw [Bool.eq_false_iff]
  intro h
  rw [isIPv6, Bool.and_eq_true, Bool.and_eq_true] at h
  exact Bool.false_ne_true (hout.symm.trans (List.all_eq_true.mp h.1.2 c hc))

theorem not_isIPv6_of_dot {host : List Char} (hdot : '.' ∈ host) : isIPv6 host = false :=
  not_isIPv6_of_mem hdot (by decide)

/-- A character that is neither a digit nor a dot. -/
theorem readIPv4_eq_none_of_mem {host : List Char} {c : Char} (hc : c ∈ host)
    (hout : ¬ (isHex c = true ∨ c = '.')) : readIPv4 host = none := by
  by_contra hne
  obtain ⟨address, haddress⟩ := Option.ne_none_iff_exists'.mp hne
  exact hout (isHex_of_readIPv4 haddress c hc)

theorem readIPv6_eq_none_of_count {host : List Char} (hcount : host.count ':' < 2) : readIPv6 host = none := by
  by_contra hne
  obtain ⟨groups, hgroups⟩ := Option.ne_none_iff_exists'.mp hne
  have htwo := two_le_count_of_readIPv6 hgroups
  omega

theorem readIPv6_eq_none_of_readIPv4 {host : List Char} {address : Address} (h : readIPv4 host = some address) :
    readIPv6 host = none := by
  refine readIPv6_eq_none_of_count ?_
  have hcolon : ':' ∉ host := by
    intro hcolon
    rw [readIPv4_eq_none_of_mem hcolon (by decide)] at h
    cases h
  rw [List.count_eq_zero.mpr hcolon]
  exact Nat.zero_lt_two

theorem unknown_not_read : readIPv4 "unknown".toList = none ∧ isIPv6 "unknown".toList = false := by
  decide +kernel

/-- Of a host that is an address of version 4. -/
theorem subnetOf_of_readIPv4 {value : List Char} {address : Address} (h : readIPv4 value = some address) :
    subnetOf value = subnet? address := by
  obtain ⟨hfour, hsubnet⟩ := isIPv4_of_readIPv4 h
  have hknown : value ≠ "unknown".toList := by
    rintro rfl
    rw [unknown_not_read.1] at h
    cases h
  rw [subnetOf, if_neg hknown, if_pos hfour, hsubnet]

/-- Of one that is none. -/
theorem subnetOf_of_readIPv4_eq_none {value : List Char} (h : readIPv4 value = none) :
    subnetOf value = if isIPv6 value then (expandIPv6 value).bind ipv6Subnet else none := by
  have hfour : ¬ isIPv4 value = true := by
    intro hfour
    obtain ⟨address, haddress⟩ := readIPv4_of_isIPv4 hfour
    rw [h] at haddress
    cases haddress
  rw [subnetOf]
  split
  · rename_i hunknown
    rw [hunknown, unknown_not_read.2]
    rfl
  · rfl

/-- What is neither read nor taken for groups is not misread. -/
theorem not_misreadIPv6 {host : List Char} (hsix : readIPv6 host = none) (hloose : isIPv6 host = false) :
    ¬ MisreadIPv6 host := by
  rintro (⟨groups, -, hread, -⟩ | ⟨groups, -, hread, -⟩ | ⟨first, second, third, rest, hloose', -, -, -⟩)
  · rw [hsix] at hread
    cases hread
  · rw [hsix] at hread
    cases hread
  · rw [hloose] at hloose'
    cases hloose'

/-- A mapped address in groups has the network of its first groups. -/
theorem not_local_of_mapped {groups : List.Vector (Fin 65536) 8} (hmapped : Address.ofGroups groups ≠ .v6 groups) :
    ¬ (Address.v6 groups).Local ∧ ∃ a b c d, Address.ofGroups groups = .v4 a b c d := by
  rw [Address.ofGroups] at hmapped ⊢
  split at hmapped
  · rename_i high low hlist
    refine ⟨?_, _, _, _, _, rfl⟩
    have hhead : groups.head = 0 := by
      obtain ⟨list, hlength⟩ := groups
      cases hlist
      rfl
    rw [Address.Local, hlist, hhead]
    rintro (h | h | h | h)
    · cases h
    · cases h
    · exact absurd h.1 (by decide)
    · exact absurd h.1 (by decide)
  · exact absurd rfl hmapped

/-- Hosts with a dot are no groups to the code. -/
theorem dotted_eq_iff {host : List Char} (hdot : '.' ∈ host) :
    none = ((readIPv6 host).map .ofGroups).bind subnet? ↔ ¬ MisreadIPv6 host := by
  cases hread : readIPv6 host with
  | none => exact iff_of_true rfl (not_misreadIPv6 hread (not_isIPv6_of_dot hdot))
  | some groups =>
    rw [Option.map_some, Option.bind_some, eq_comm, subnet?_eq_none_iff]
    constructor
    · intro hlocal
      rintro (⟨groups', -, hread', hpublic⟩ | ⟨groups', hplain, -, -⟩ | ⟨first, second, third, rest, -, hread', -, -⟩)
      · rw [hread] at hread'
        cases hread'
        exact hpublic hlocal
      · exact hplain hdot
      · rw [hread] at hread'
        cases hread'
    · intro hnot
      by_contra hpublic
      exact hnot (.dotted groups hdot hread hpublic)

/-- Hosts that are eight groups. -/
theorem groups_eq_iff {host : List Char} {groups : List.Vector (Fin 65536) 8} (hplain : '.' ∉ host)
    (hread : readIPv6 host = some groups) :
    subnet? (.v6 groups) = subnet? (.ofGroups groups) ↔ ¬ MisreadIPv6 host := by
  by_cases hmapped : Address.ofGroups groups = .v6 groups
  · rw [hmapped]
    refine iff_of_true rfl ?_
    rintro (⟨groups', hdot, -, -⟩ | ⟨groups', -, hread', hmapped'⟩ | ⟨first, second, third, rest, -, hread', -, -⟩)
    · exact hplain hdot
    · rw [hread] at hread'
      cases hread'
      exact hmapped' hmapped
    · rw [hread] at hread'
      cases hread'
  · obtain ⟨hpublic, a, b, c, d, hquad⟩ := not_local_of_mapped hmapped
    rw [hquad]
    exact iff_of_false (subnet?_v6_ne_v4 hpublic) (not_not.mpr (.mapped groups hplain hread hmapped))

theorem ipv6Subnet_eq_none {groups : List (List Char)}
    (hfew : ¬ ∃ first second third rest, groups = first :: second :: third :: rest) : ipv6Subnet groups = none := by
  rcases groups with _ | ⟨first, _ | ⟨second, _ | ⟨third, rest⟩⟩⟩
  · rfl
  · rfl
  · rfl
  · exact absurd ⟨first, second, third, rest, rfl⟩ hfew

/-- Hosts that are no address. -/
theorem loose_eq_iff {host : List Char} (hplain : '.' ∉ host) (hread : readIPv6 host = none) :
    (if isIPv6 host then (expandIPv6 host).bind ipv6Subnet else none) = none ↔ ¬ MisreadIPv6 host := by
  have hmisread : MisreadIPv6 host ↔ isIPv6 host = true ∧ ∃ first second third rest,
      expandIPv6 host = some (first :: second :: third :: rest) ∧
        excludedGroups first (first :: second :: third :: rest).flatten = false := by
    constructor
    · rintro (⟨groups, hdot, -, -⟩ | ⟨groups, -, hread', -⟩ | ⟨first, second, third, rest, hloose, -, hgroups, hkept⟩)
      · exact absurd hdot hplain
      · rw [hread] at hread'
        cases hread'
      · exact ⟨hloose, first, second, third, rest, hgroups, hkept⟩
    · rintro ⟨hloose, first, second, third, rest, hgroups, hkept⟩
      exact .malformed first second third rest hloose hread hgroups hkept
  rw [hmisread]
  cases hloose : isIPv6 host with
  | false => exact iff_of_true rfl fun h => Bool.false_ne_true h.1
  | true =>
    rw [if_pos rfl]
    cases hgroups : expandIPv6 host with
    | none =>
      refine iff_of_true rfl ?_
      rintro ⟨-, first, second, third, rest, h, -⟩
      cases h
    | some groups =>
      rw [Option.bind_some]
      by_cases hthree : ∃ first second third rest, groups = first :: second :: third :: rest
      · obtain ⟨first, second, third, rest, rfl⟩ := hthree
        rw [ipv6Subnet]
        cases hkept : excludedGroups first (first :: second :: third :: rest).flatten with
        | true =>
          refine iff_of_true rfl ?_
          rintro ⟨-, first', second', third', rest', h, hkept'⟩
          cases h
          rw [hkept] at hkept'
          cases hkept'
        | false =>
          refine iff_of_false (Option.some_ne_none _) (not_not.mpr ?_)
          exact ⟨rfl, first, second, third, rest, rfl, hkept⟩
      · refine iff_of_true (ipv6Subnet_eq_none hthree) ?_
        rintro ⟨-, first, second, third, rest, h, -⟩
        exact hthree ⟨first, second, third, rest, Option.some.inj h⟩

/-- Where it is no address of version 4. -/
theorem subnetOf_eq_iff {host : List Char} (hfour : readIPv4 host = none) :
    subnetOf host = ((readIPv6 host).map .ofGroups).bind subnet? ↔ ¬ MisreadIPv6 host := by
  rw [subnetOf_of_readIPv4_eq_none hfour]
  by_cases hdot : '.' ∈ host
  · rw [not_isIPv6_of_dot hdot, if_neg Bool.false_ne_true]
    exact dotted_eq_iff hdot
  · cases hread : readIPv6 host with
    | none => exact loose_eq_iff hdot hread
    | some groups =>
      rw [isIPv6_of_readIPv6 hdot hread, if_pos rfl, expandIPv6_of_readIPv6 hdot hread, Option.bind_some,
        ipv6Subnet_groupText]
      exact groups_eq_iff hdot hread

/-! ### What is stripped -/

theorem portHost?_eq_some {cs host : List Char} (h : portHost? cs = some host) :
    host <+: cs ∧ cs.count ':' = 1 := by
  rw [portHost?, List.span_eq_takeWhile_dropWhile] at h
  dsimp only at h
  split at h
  · rename_i hport
    cases h
    have hhost : ':' ∉ cs.takeWhile fun c => decide (c ≠ ':') := by
      intro hmem
      have hne := List.mem_takeWhile_imp hmem
      exact absurd hne (by decide)
    refine ⟨List.takeWhile_prefix _, ?_⟩
    have hsplit := List.takeWhile_append_dropWhile (p := fun c => decide (c ≠ ':')) (l := cs)
    rw [← hsplit, List.count_append, List.count_eq_zero.mpr hhost, Nat.zero_add]
    generalize cs.dropWhile (fun c => decide (c ≠ ':')) = rest at hport
    rw [isPort.eq_def] at hport
    split at hport
    · rename_i digits
      rw [List.count_cons_self, List.count_eq_zero.mpr]
      intro hmem
      exact absurd (List.all_eq_true.mp (Bool.and_eq_true_iff.mp hport).2 ':' hmem) (by decide)
    · cases hport
  · cases h

theorem head?_of_bracketHost? {cs host : List Char} (h : bracketHost? cs = some host) : cs.head? = some '[' := by
  rw [bracketHost?.eq_def] at h
  split at h
  · rfl
  · cases h

theorem not_mem_of_isDotted {host : List Char} (h : isDotted host = true) {c : Char}
    (hout : ¬ (c.isDigit = true ∨ c = '.')) : c ∉ host := by
  intro hc
  exact hout ((dot_mem_of_isDotted h).2 c hc)

theorem isDotted_strips {host : List Char} (h : isDotted host = true) :
    portedHost? host = none ∧ bracketHost? host = none := by
  constructor
  · rw [portedHost?, Option.filter_eq_none_iff]
    intro start hstart
    obtain ⟨-, hcount⟩ := portHost?_eq_some hstart
    have hcolon : ':' ∈ host := List.count_pos_iff.mp (by omega)
    exact absurd hcolon (not_mem_of_isDotted h (by decide))
  · by_contra hne
    obtain ⟨start, hstart⟩ := Option.ne_none_iff_exists'.mp hne
    have hmem := List.mem_of_mem_head? (head?_of_bracketHost? hstart)
    exact absurd hmem (not_mem_of_isDotted h (by decide))

/-- Of a host with dots only an address of version 4 has a subnet. -/
theorem subnetOf_of_isDotted {host : List Char} (h : isDotted host = true) :
    subnetOf host = (readIPv4 host).bind subnet? := by
  cases hfour : readIPv4 host with
  | none =>
    rw [subnetOf_of_readIPv4_eq_none hfour, not_isIPv6_of_dot (dot_mem_of_isDotted h).1]
    rfl
  | some address => rw [subnetOf_of_readIPv4 hfour, Option.bind_some]

theorem mappedHost?_eq_some {value host : List Char} (h : mappedHost? value = some host) :
    ∃ start, value = start ++ host ∧ start.map Char.toLower = [':', ':', 'f', 'f', 'f', 'f', ':'] ∧
      isDotted host = true := by
  rw [mappedHost?] at h
  split at h
  · rename_i hform
    cases h
    exact ⟨value.take 7, (List.take_append_drop 7 value).symm, hform⟩
  · cases h

/-- What `cleanIp` leaves. -/
def stripped (value : List Char) : List Char :=
  let value := (mappedHost? value).getD value
  let value := (portedHost? value).getD value
  (bracketedHost? value).getD value

theorem getIpSubnet_eq (raw : String) : getIpSubnet raw = subnetOf (stripped (jsTrim raw).toList) := by
  rw [getIpSubnet, cleanIp]
  generalize (jsTrim raw).toList = value
  dsimp only
  split
  · rename_i hempty
    have hnothing : subnetOf (stripped []) = none := by decide +kernel
    rw [hempty, hnothing]
    rfl
  · rw [Option.bind_some, stripped]

/-- `::ffff:` and a dotted quad. -/
theorem mapped_eq {value host : List Char} (h : mappedHost? value = some host) :
    subnetOf (stripped value) = (readAddress value).bind subnet? ∧ ¬ Misread value := by
  obtain ⟨start, rfl, hstart, hdotted⟩ := mappedHost?_eq_some h
  obtain ⟨hdot, -⟩ := dot_mem_of_isDotted hdotted
  obtain ⟨hported, hbracket⟩ := isDotted_strips hdotted
  have hcolon : ':' ∉ host := not_mem_of_isDotted hdotted (by decide)
  have hstripped : stripped (start ++ host) = host := by
    rw [stripped]
    simp only [h, Option.getD_some, hported, Option.getD_none, bracketedHost?, hbracket, Option.filter_none]
  have hhead : (start ++ host).head? = some ':' := by
    cases start with
    | nil => cases hstart
    | cons c start =>
      rw [List.map_cons] at hstart
      rw [List.cons_append, List.head?_cons, eq_of_toLower_eq (List.cons_eq_cons.mp hstart).1 rfl]
  have hunbracketed : bracketHost? (start ++ host) = none := by
    by_contra hne
    obtain ⟨inside, hinside⟩ := Option.ne_none_iff_exists'.mp hne
    rw [head?_of_bracketHost? hinside] at hhead
    cases hhead
  have hstartColons : start.count ':' = 3 := by
    have hsame : (fun c : Char => c == ':') ∘ Char.toLower = fun c : Char => c == ':' := by
      funext c
      rw [Function.comp_apply, Bool.eq_iff_iff, beq_iff_eq, beq_iff_eq, toLower_eq_colon_iff]
    have hmap := congrArg (List.count ':') hstart
    rw [List.count_eq_countP, List.countP_map, hsame] at hmap
    exact hmap
  have hunported : portHost? (start ++ host) = none := by
    by_contra hne
    obtain ⟨before, hbefore⟩ := Option.ne_none_iff_exists'.mp hne
    have hcount := (portHost?_eq_some hbefore).2
    rw [List.count_append, hstartColons] at hcount
    omega
  have hnotFour : readIPv4 (start ++ host) = none :=
    readIPv4_eq_none_of_mem (List.mem_of_mem_head? hhead) (by decide)
  have hread : readAddress (start ++ host) = readIPv4 host := by
    rw [readAddress, hunbracketed]
    dsimp only
    rw [hunported]
    dsimp only
    rw [hnotFour, Option.none_or, readIPv6_mapped hstart hdot hcolon]
  rw [hstripped, hread]
  refine ⟨subnetOf_of_isDotted hdotted, ?_⟩
  rintro (⟨inside, hinside, -⟩ | ⟨hform, -⟩)
  · rw [hunbracketed] at hinside
    cases hinside
  · rw [h] at hform
    cases hform

/-- Nothing else is stripped before a bracket. -/
theorem bracket_strips {value : List Char} (hhead : value.head? = some '[') :
    mappedHost? value = none ∧ portedHost? value = none := by
  obtain ⟨rest, rfl⟩ := List.head?_eq_some_iff.mp hhead
  constructor
  · rw [mappedHost?]
    refine if_neg fun hform => ?_
    exact absurd (List.cons_eq_cons.mp hform.1).1 (by decide)
  · rw [portedHost?, Option.filter_eq_none_iff]
    intro start hstart hdotted
    obtain ⟨hstarts, -⟩ := portHost?_eq_some hstart
    cases start with
    | nil => exact absurd hdotted (by decide)
    | cons c start =>
      obtain rfl := (List.cons_prefix_cons.mp hstarts).1
      exact absurd (List.mem_cons_self ..) (not_mem_of_isDotted hdotted (by decide))

/-- What the pattern of the brackets takes for a host. -/
def isHostText (host : List Char) : Bool := !host.isEmpty && host.all fun c => isHex c || c = '.' || c = ':'

theorem isHostText_of_forall {host : List Char} (hne : host ≠ [])
    (hall : ∀ c ∈ host, isHex c = true ∨ c = '.' ∨ c = ':') : isHostText host = true := by
  rw [isHostText, List.isEmpty_eq_false_iff.mpr hne, Bool.not_false, Bool.true_and, List.all_eq_true]
  intro c hc
  obtain hhex | rfl | rfl := hall c hc
  · rw [hhex]
    rfl
  · rfl
  · rfl

/-- What is no text of a host is neither read nor taken for groups. -/
theorem nothing_of_not_isHostText {host : List Char} (hclass : ¬ isHostText host = true) :
    readIPv4 host = none ∧ readIPv6 host = none ∧ isIPv6 host = false := by
  refine ⟨?_, ?_, ?_⟩
  · by_contra hne
    obtain ⟨address, haddress⟩ := Option.ne_none_iff_exists'.mp hne
    have hdot := (dot_mem_of_isDotted (isDotted_of_readIPv4 haddress)).1
    refine hclass (isHostText_of_forall (List.ne_nil_of_mem hdot) fun c hc => ?_)
    exact (isHex_of_readIPv4 haddress c hc).imp_right .inl
  · by_contra hne
    obtain ⟨groups, hgroups⟩ := Option.ne_none_iff_exists'.mp hne
    refine hclass (isHostText_of_forall ?_ (isHex_of_readIPv6 hgroups))
    rintro rfl
    exact absurd (two_le_count_of_readIPv6 hgroups) (by decide)
  · rw [Bool.eq_false_iff]
    intro hsix
    rw [isIPv6, Bool.and_eq_true, Bool.and_eq_true] at hsix
    refine hclass (isHostText_of_forall ?_ fun c hc => ?_)
    · rintro rfl
      exact absurd hsix.1.1 (by decide)
    · have hchar := List.all_eq_true.mp hsix.1.2 c hc
      rw [Bool.or_eq_true, decide_eq_true_eq] at hchar
      exact hchar.imp_right .inr

/-- A host in brackets. -/
theorem bracketed_eq_iff {value host : List Char} (h : bracketHost? value = some host) :
    subnetOf (stripped value) = (readAddress value).bind subnet? ↔ ¬ Misread value := by
  have hhead := head?_of_bracketHost? h
  have hmem : '[' ∈ value := List.mem_of_mem_head? hhead
  obtain ⟨hunmapped, hunported⟩ := bracket_strips hhead
  have hread : readAddress value = (readIPv6 host).map .ofGroups := by rw [readAddress, h]
  have hmisread : Misread value ↔ (∃ address ∈ readIPv4 host, ¬ address.Local) ∨ MisreadIPv6 host := by
    rw [Misread, h, Option.getD_some, hunmapped]
    simp
  rw [hread, hmisread]
  by_cases hclass : isHostText host = true
  · have hstripped : stripped value = host := by
      rw [stripped]
      simp only [hunmapped, hunported, Option.getD_none, bracketedHost?, h]
      rw [Option.filter_some, ← isHostText, if_pos hclass, Option.getD_some]
    rw [hstripped]
    cases hfour : readIPv4 host with
    | none =>
      rw [subnetOf_eq_iff hfour]
      refine not_congr (iff_of_eq ?_)
      simp
    | some address =>
      have hdot := (dot_mem_of_isDotted (isDotted_of_readIPv4 hfour)).1
      have hnot : ¬ MisreadIPv6 host :=
        (dotted_eq_iff hdot).mp (by rw [readIPv6_eq_none_of_readIPv4 hfour]; rfl)
      rw [subnetOf_of_readIPv4 hfour, readIPv6_eq_none_of_readIPv4 hfour, Option.map_none, Option.bind_none,
        subnet?_eq_none_iff, or_iff_left hnot]
      simp
  · have hstripped : stripped value = value := by
      rw [stripped]
      simp only [hunmapped, hunported, Option.getD_none, bracketedHost?, h]
      rw [Option.filter_some, ← isHostText, if_neg hclass, Option.getD_none]
    have hfourValue : readIPv4 value = none := readIPv4_eq_none_of_mem hmem (by decide)
    have hloose : isIPv6 value = false := not_isIPv6_of_mem hmem (by decide)
    obtain ⟨hfourHost, hsixHost, hlooseHost⟩ := nothing_of_not_isHostText hclass
    have hnot := not_misreadIPv6 hsixHost hlooseHost
    rw [hstripped, subnetOf_of_readIPv4_eq_none hfourValue, hloose, hsixHost, hfourHost, or_iff_left hnot]
    refine iff_of_true rfl ?_
    rintro ⟨address, haddress, -⟩
    cases haddress

/-- A host with a port. -/
theorem ported_eq {value host : List Char} (hunmapped : mappedHost? value = none)
    (hunbracketed : bracketHost? value = none) (hport : portHost? value = some host) :
    subnetOf (stripped value) = (readAddress value).bind subnet? ∧ ¬ MisreadIPv6 value := by
  have hread : readAddress value = readIPv4 host := by
    rw [readAddress, hunbracketed]
    dsimp only
    rw [hport]
  have hcount := (portHost?_eq_some hport).2
  have hcolon : ':' ∈ value := List.count_pos_iff.mp (by omega)
  have hloose : isIPv6 value = false := by
    rw [isIPv6, decide_eq_false (by omega), Bool.and_false]
  refine ⟨?_, not_misreadIPv6 (readIPv6_eq_none_of_count (by omega)) hloose⟩
  rw [hread]
  by_cases hdotted : isDotted host = true
  · obtain ⟨-, hbracket⟩ := isDotted_strips hdotted
    have hstripped : stripped value = host := by
      rw [stripped]
      simp only [hunmapped, Option.getD_none, portedHost?, hport]
      rw [Option.filter_some, if_pos hdotted, Option.getD_some, bracketedHost?, hbracket]
      rfl
    rw [hstripped]
    exact subnetOf_of_isDotted hdotted
  · have hstripped : stripped value = value := by
      rw [stripped]
      simp only [hunmapped, Option.getD_none, portedHost?, hport]
      rw [Option.filter_some, if_neg hdotted, Option.getD_none, bracketedHost?, hunbracketed]
      rfl
    have hhost : readIPv4 host = none := by
      by_contra hne
      obtain ⟨address, haddress⟩ := Option.ne_none_iff_exists'.mp hne
      exact hdotted (isDotted_of_readIPv4 haddress)
    rw [hstripped, subnetOf_of_readIPv4_eq_none (readIPv4_eq_none_of_mem hcolon (by decide)), hloose, hhost]
    rfl

/-- An address of version 4, with or without a port, or a host of version 6. -/
theorem plain_eq_iff {value : List Char} (hunmapped : mappedHost? value = none)
    (hunbracketed : bracketHost? value = none) :
    subnetOf (stripped value) = (readAddress value).bind subnet? ↔ ¬ Misread value := by
  have hmisread : Misread value ↔ MisreadIPv6 value := by
    rw [Misread, hunbracketed, hunmapped]
    simp
  rw [hmisread]
  cases hport : portHost? value with
  | some host =>
    obtain ⟨hsame, hnot⟩ := ported_eq hunmapped hunbracketed hport
    exact iff_of_true hsame hnot
  | none =>
    have hread : readAddress value = (readIPv4 value).or ((readIPv6 value).map .ofGroups) := by
      rw [readAddress, hunbracketed]
      dsimp only
      rw [hport]
    have hstripped : stripped value = value := by
      rw [stripped]
      simp only [hunmapped, portedHost?, hport, bracketedHost?, hunbracketed, Option.filter_none, Option.getD_none]
    rw [hread, hstripped]
    cases hfour : readIPv4 value with
    | none => rw [Option.none_or, subnetOf_eq_iff hfour]
    | some address =>
      have hdot := (dot_mem_of_isDotted (isDotted_of_readIPv4 hfour)).1
      refine iff_of_true (subnetOf_of_readIPv4 hfour) ?_
      exact (dotted_eq_iff hdot).mp (by rw [readIPv6_eq_none_of_readIPv4 hfour]; rfl)

/-- The subnet is the network of the address that the text is, unless it is misread. Networks are none of
local addresses only, and tell the others by their first bits. -/
theorem getIpSubnet_canonical_iff (raw : String) :
    (getIpSubnet raw = (readAddress (jsTrim raw).toList).bind subnet? ↔ ¬ Misread (jsTrim raw).toList) ∧
    (∀ address, subnet? address = none ↔ address.Local) ∧
    ∀ address address' : Address, ¬ address.Local → ¬ address'.Local →
      (subnet? address = subnet? address' ↔ address.SameNetwork address') := by
  refine ⟨?_, ?_, ?_⟩
  · rw [getIpSubnet_eq]
    generalize (jsTrim raw).toList = value
    cases hmapped : mappedHost? value with
    | some host =>
      obtain ⟨hsame, hnot⟩ := mapped_eq hmapped
      exact iff_of_true hsame hnot
    | none =>
      cases hbracket : bracketHost? value with
      | some host => exact bracketed_eq_iff hbracket
      | none => exact plain_eq_iff hmapped hbracket
  · intro address
    exact subnet?_eq_none_iff
  · intro address address' hpublic hpublic'
    exact subnet?_eq_iff hpublic hpublic'

/-- One address as a quad, as a mapped one in groups, and in brackets; and texts that are none. -/
theorem subnets_differ :
    getIpSubnet "203.0.113.7" = some "203.0.113.0/24" ∧ getIpSubnet "::ffff:203.0.113.7" = some "203.0.113.0/24" ∧
    getIpSubnet "::ffff:cb00:7107" = some "0000:0000:0000::/48" ∧ getIpSubnet "[::ffff:203.0.113.7]:443" = none ∧
    getIpSubnet "::ffff:c633:6407" = getIpSubnet "::ffff:cb00:7107" ∧
    readAddress "::ffff:cb00:7107".toList = readAddress "203.0.113.7".toList ∧
    readAddress "2001:db8:::1".toList = none ∧ getIpSubnet "2001:db8:::1" = some "2001:0db8:0000::/48" := by
  decide +kernel

end PropFirm
