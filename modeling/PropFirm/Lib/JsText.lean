import Mathlib.Data.List.DropRight
import Mathlib.Data.Rat.Defs
import Mathlib.Algebra.Order.Field.Rat

/-!
# Texts as JavaScript and PostgreSQL read them
-/

namespace PropFirm

/-- White space and line ends of `String.prototype.trim`. -/
def isJsSpace (c : Char) : Bool :=
  c.toNat ∈ [9, 10, 11, 12, 13, 32, 160, 5760, 8232, 8233, 8239, 8287, 12288, 65279] ∨
    8192 ≤ c.toNat ∧ c.toNat ≤ 8202

/-- `String.prototype.trim`. -/
def jsTrim (s : String) : String :=
  String.ofList ((s.toList.dropWhile isJsSpace).reverse.dropWhile isJsSpace).reverse

/-- Trimming again trims nothing more. -/
@[simp] theorem jsTrim_jsTrim (s : String) : jsTrim (jsTrim s) = jsTrim s := by
  let left := s.toList.dropWhile isJsSpace
  have hleft : ∀ hpos : 0 < (left.rdropWhile isJsSpace).length,
      ¬ isJsSpace (left.rdropWhile isJsSpace)[0] = true := by
    intro hpos
    have hstarts := List.rdropWhile_prefix isJsSpace left
    rw [hstarts.getElem]
    exact List.dropWhile_get_zero_not _ _ (hpos.trans_le hstarts.length_le)
  have hfixed : (left.rdropWhile isJsSpace).dropWhile isJsSpace = left.rdropWhile isJsSpace :=
    List.dropWhile_eq_self_iff.mpr hleft
  have hagain := List.rdropWhile_idempotent isJsSpace left
  change String.ofList (((String.ofList (left.rdropWhile isJsSpace)).toList.dropWhile isJsSpace).rdropWhile
    isJsSpace) = String.ofList (left.rdropWhile isJsSpace)
  rw [String.toList_ofList, hfixed, hagain]

/-- The text matches `^\d+$`. -/
def isDigits (s : String) : Bool := !s.isEmpty && s.toList.all Char.isDigit

/-! ### Numbers -/

def digitsValue (digits : List Char) : ℕ := digits.foldl (fun n c => 10 * n + (c.toNat - '0'.toNat)) 0

/-- A sign in front, and what follows it. -/
def takeSign : List Char → Bool × List Char
  | '-' :: cs => (true, cs)
  | '+' :: cs => (false, cs)
  | cs => (false, cs)

/-- The exponent that a decimal literal ends with; one without digits is not part of it. -/
def takeExponent : List Char → ℤ
  | 'e' :: cs | 'E' :: cs =>
    let (negative, cs) := takeSign cs
    let exponent := digitsValue (cs.takeWhile Char.isDigit)
    if negative then -exponent else exponent
  | _ => 0

/-- From where on a number is an infinity: the middle between the largest double and what would be the
next one. -/
def doubleOverflow : ℚ := 2 ^ 1024 - 2 ^ 970

/-- `parseFloat` up to rounding: the longest decimal literal after leading white space. `none` is a `NaN`
or an infinity. -/
def parseFloat (s : String) : Option ℚ :=
  let (negative, cs) := takeSign (s.toList.dropWhile isJsSpace)
  let whole := cs.takeWhile Char.isDigit
  let (fraction, rest) := match cs.dropWhile Char.isDigit with
    | '.' :: cs => (cs.takeWhile Char.isDigit, cs.dropWhile Char.isDigit)
    | cs => ([], cs)
  if whole = [] ∧ fraction = [] then none
  else
    let size : ℚ := digitsValue (whole ++ fraction) * 10 ^ (takeExponent rest - fraction.length)
    if doubleOverflow ≤ size then none
    else some (if negative then -size else size)

example : parseFloat " -12.50e1 usd" = some (-125) := by decide +kernel

/-- A value as the conversions to a number see it: `text` is any other value by its `String(value)`, and
a number is absent when it is a `NaN` or an infinity. -/
inductive NumericInput
  | nullish
  | number (x : Option ℚ)
  | text (s : String)

namespace NumericInput

/-- The finite number a value is read as, if there is one. -/
def toFinite? : NumericInput → Option ℚ
  | nullish => none
  | number x => x
  | text s => parseFloat s

/-- The fallback stands for anything that is no finite number. -/
def toNum (value : NumericInput) (fallback : ℚ) : ℚ := value.toFinite?.getD fallback

/-- Present, and no number. -/
def Malformed (value : NumericInput) : Prop := value ≠ nullish ∧ value.toFinite? = none

end NumericInput

end PropFirm
