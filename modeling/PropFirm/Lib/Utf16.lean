import Mathlib.Data.List.Basic

/-!
# Texts of UTF-16 code units

A text may hold a surrogate without its other half. Reading the text, as an encoder to UTF-8 does, puts the
replacement character in its place; the rest is read unit by unit or pair by pair, so that a unit that is no
surrogate cuts the reading in two.
-/

namespace Utf16

def isHigh (u : UInt16) : Bool := 0xD800 ≤ u && u ≤ 0xDBFF

def isLow (u : UInt16) : Bool := 0xDC00 ≤ u && u ≤ 0xDFFF

/-- The character of a unit on its own. -/
def unitChar (u : UInt16) : Char := if isHigh u || isLow u then Char.ofNat 0xFFFD else Char.ofNat u.toNat

def pairChar (u v : UInt16) : Char := Char.ofNat (0x10000 + (u.toNat - 0xD800) * 0x400 + (v.toNat - 0xDC00))

def decode : List UInt16 → List Char
  | [] => []
  | [u] => [unitChar u]
  | u :: v :: rest => if isHigh u && isLow v then pairChar u v :: decode rest else unitChar u :: decode (v :: rest)

/-- The text of characters of the first plane that are no surrogates. -/
def ofString (s : String) : List UInt16 := s.toList.map fun c => c.toNat.toUInt16

theorem decode_cons {u : UInt16} (hu : isHigh u = false) (rest : List UInt16) :
    decode (u :: rest) = unitChar u :: decode rest := by
  cases rest with
  | nil => rfl
  | cons v rest => rw [decode, hu, Bool.false_and, if_neg Bool.false_ne_true]

/-- A unit that is no surrogate ends what is before it. -/
theorem decode_append_cons {sep : UInt16} (hhigh : isHigh sep = false) (hlow : isLow sep = false)
    (a b : List UInt16) : decode (a ++ sep :: b) = decode a ++ unitChar sep :: decode b := by
  induction a using decode.induct with
  | case1 => exact decode_cons hhigh b
  | case2 u =>
    have hpair : ¬ (isHigh u && isLow sep) = true := by rw [hlow, Bool.and_false]; exact Bool.false_ne_true
    have hsplit : decode (u :: sep :: b) = unitChar u :: decode (sep :: b) := by rw [decode.eq_def]; exact if_neg hpair
    rw [List.singleton_append, hsplit, decode_cons hhigh]
    rfl
  | case3 u v rest hpair ih =>
    change decode (u :: v :: (rest ++ sep :: b)) = _
    rw [decode, if_pos hpair, ih, decode, if_pos hpair]
    rfl
  | case4 u v rest hpair ih =>
    change decode (u :: v :: (rest ++ sep :: b)) = _
    change decode (v :: (rest ++ sep :: b)) = _ at ih
    rw [decode, if_neg hpair, ih, decode, if_neg hpair]
    rfl

end Utf16
