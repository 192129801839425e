import Mathlib.Data.List.Basic

/-!
# The size of an uploaded image

The size of a certificate template is read from the header of the file: from the first chunk of a PNG, and
from the frame header of a JPEG, before which there are other segments. The walk over them looks at ten bytes
at a time and stops when there are fewer. It steps over a byte that is no marker, and over two bytes at a
marker that has no length, one of which is the fill byte, so that it sees the marker behind an even number of
fill bytes.
-/

namespace PropFirm

inductive ImageFormat
  | png | jpeg
  deriving DecidableEq

structure ImageSize where
  width : ℕ
  height : ℕ
  format : ImageFormat
  deriving DecidableEq

def readUInt16BE (high low : UInt8) : ℕ := high.toNat * 256 + low.toNat

def readUInt32BE (b₃ b₂ b₁ b₀ : UInt8) : ℕ := readUInt16BE b₃ b₂ * 65536 + readUInt16BE b₁ b₀

def pngSignature : List UInt8 := [0x89, 0x50, 0x4e, 0x47, 0x0d, 0x0a, 0x1a, 0x0a]

/-- `IHDR` -/
def headerChunkType : List UInt8 := [0x49, 0x48, 0x44, 0x52]

def readPngDimensions (buffer : List UInt8) : Option ImageSize :=
  if buffer.length < 24 then none
  else if buffer.take 8 ≠ pngSignature then none
  else if (buffer.drop 12).take 4 ≠ headerChunkType then none
  else match buffer.drop 16 with
    | w₃ :: w₂ :: w₁ :: w₀ :: h₃ :: h₂ :: h₁ :: h₀ :: _ =>
      some ⟨readUInt32BE w₃ w₂ w₁ w₀, readUInt32BE h₃ h₂ h₁ h₀, .png⟩
    | _ => none

/-- Fill bytes and the markers without a length. -/
def isStandalone (marker : UInt8) : Bool := marker = 0xff || (0xd0 ≤ marker && marker ≤ 0xd9)

/-- The numbers of the frame headers, less three that are no frame headers. -/
def isFrameHeader (marker : UInt8) : Bool :=
  (0xc0 ≤ marker && marker ≤ 0xcf) && (marker ≠ 0xc4 && marker ≠ 0xc8 && marker ≠ 0xcc)

/-- The loop on the bytes from the offset on; it needs no more rounds than there are bytes. -/
def walkSegments : ℕ → List UInt8 → Option ImageSize
  | fuel + 1, first :: marker :: l₁ :: l₀ :: precision :: h₁ :: h₀ :: w₁ :: w₀ :: more :: rest =>
    let tail := l₁ :: l₀ :: precision :: h₁ :: h₀ :: w₁ :: w₀ :: more :: rest
    if first ≠ 0xff then walkSegments fuel (marker :: tail)
    else if isStandalone marker then walkSegments fuel tail
    else if readUInt16BE l₁ l₀ < 2 then none
    else if isFrameHeader marker then some ⟨readUInt16BE w₁ w₀, readUInt16BE h₁ h₀, .jpeg⟩
    else walkSegments fuel (tail.drop (readUInt16BE l₁ l₀))
  | _, _ => none

def readJpegDimensions : List UInt8 → Option ImageSize
  | 0xff :: 0xd8 :: rest => walkSegments rest.length rest
  | _ => none

def readImageDimensions (buffer : List UInt8) : Option ImageSize :=
  readPngDimensions buffer <|> readJpegDimensions buffer

/-! ### The files that are read -/

/-- What may stand before the frame header. -/
inductive JpegItem
  | skipped (byte : UInt8)
  | standalone (marker : UInt8)
  | segment (marker l₁ l₀ : UInt8) (payload : List UInt8)

namespace JpegItem

def bytes : JpegItem → List UInt8
  | skipped byte => [byte]
  | standalone marker => [0xff, marker]
  | segment marker l₁ l₀ payload => 0xff :: marker :: l₁ :: l₀ :: payload

/-- A segment counts the two bytes of its length, too. -/
def Valid : JpegItem → Prop
  | skipped byte => byte ≠ 0xff
  | standalone marker => isStandalone marker = true
  | segment marker l₁ l₀ payload =>
    isStandalone marker = false ∧ isFrameHeader marker = false ∧ readUInt16BE l₁ l₀ = payload.length + 2

end JpegItem

/-- A frame header as far as it is looked at. -/
structure JpegFrame where
  marker : UInt8
  l₁ : UInt8
  l₀ : UInt8
  precision : UInt8
  h₁ : UInt8
  h₀ : UInt8
  w₁ : UInt8
  w₀ : UInt8
  components : UInt8

namespace JpegFrame

def bytes (f : JpegFrame) : List UInt8 :=
  [0xff, f.marker, f.l₁, f.l₀, f.precision, f.h₁, f.h₀, f.w₁, f.w₀, f.components]

structure Valid (f : JpegFrame) : Prop where
  marker : isFrameHeader f.marker = true
  length : 2 ≤ readUInt16BE f.l₁ f.l₀

def size (f : JpegFrame) : ImageSize := ⟨readUInt16BE f.w₁ f.w₀, readUInt16BE f.h₁ f.h₀, .jpeg⟩

end JpegFrame

theorem not_standalone_of_frameHeader {marker : UInt8} (hframe : isFrameHeader marker = true) :
    isStandalone marker = false := by
  simp only [isFrameHeader, Bool.and_eq_true, decide_eq_true_eq, UInt8.le_iff_toNat_le] at hframe
  simp only [isStandalone, Bool.or_eq_false_iff, Bool.and_eq_false_iff, decide_eq_false_iff_not,
    UInt8.le_iff_toNat_le, ← UInt8.toNat_inj]
  have hlow : (0xd0 : UInt8).toNat = 0xd0 := rfl
  have hhigh : (0xcf : UInt8).toNat = 0xcf := rfl
  have htop : (0xff : UInt8).toNat = 0xff := rfl
  omega

theorem walkSegments_frame {f : JpegFrame} (hf : f.Valid) {fuel : ℕ} (rest : List UInt8) :
    walkSegments (fuel + 1) (f.bytes ++ rest) = some f.size := by
  change walkSegments (fuel + 1) (0xff :: f.marker :: f.l₁ :: f.l₀ :: f.precision :: f.h₁ :: f.h₀ :: f.w₁ :: f.w₀ ::
    f.components :: rest) = _
  rw [walkSegments, if_neg (not_not.mpr rfl),
    if_neg (ne_true_of_eq_false (not_standalone_of_frameHeader hf.marker)), if_neg (Nat.not_lt_of_le hf.length),
    if_pos hf.marker]
  rfl

theorem exists_cons {n : ℕ} {bytes : List UInt8} (hlength : n + 1 ≤ bytes.length) :
    ∃ b rest, bytes = b :: rest ∧ n ≤ rest.length := by
  obtain ⟨b, rest, rfl⟩ := List.exists_cons_of_length_pos (Nat.lt_of_lt_of_le (Nat.succ_pos n) hlength)
  exact ⟨b, rest, rfl, Nat.le_of_succ_le_succ hlength⟩

theorem exists_three {n : ℕ} {bytes : List UInt8} (hlength : n + 3 ≤ bytes.length) :
    ∃ b₁ b₂ b₃ rest, bytes = b₁ :: b₂ :: b₃ :: rest ∧ n ≤ rest.length := by
  obtain ⟨b₁, rest₁, rfl, hlength₁⟩ := exists_cons hlength
  obtain ⟨b₂, rest₂, rfl, hlength₂⟩ := exists_cons hlength₁
  obtain ⟨b₃, rest₃, rfl, hlength₃⟩ := exists_cons hlength₂
  exact ⟨b₁, b₂, b₃, rest₃, rfl, hlength₃⟩

theorem exists_six {bytes : List UInt8} (hlength : 6 ≤ bytes.length) :
    ∃ precision h₁ h₀ w₁ w₀ components rest, bytes = precision :: h₁ :: h₀ :: w₁ :: w₀ :: components :: rest := by
  obtain ⟨precision, h₁, h₀, middle, rfl, hmiddle⟩ := exists_three hlength
  obtain ⟨w₁, w₀, components, rest, rfl, -⟩ := exists_three hmiddle
  exact ⟨precision, h₁, h₀, w₁, w₀, components, rest, rfl⟩

/-- One round at something that is no frame header. -/
theorem walkSegments_succ {fuel : ℕ} {first marker l₁ l₀ : UInt8} {bytes : List UInt8} (hlength : 6 ≤ bytes.length)
    (hframe : first = 0xff → isFrameHeader marker = false) :
    walkSegments (fuel + 1) (first :: marker :: l₁ :: l₀ :: bytes) =
      if first ≠ 0xff then walkSegments fuel (marker :: l₁ :: l₀ :: bytes)
      else if isStandalone marker then walkSegments fuel (l₁ :: l₀ :: bytes)
      else if readUInt16BE l₁ l₀ < 2 then none
      else walkSegments fuel ((l₁ :: l₀ :: bytes).drop (readUInt16BE l₁ l₀)) := by
  obtain ⟨precision, h₁, h₀, w₁, w₀, components, rest, rfl⟩ := exists_six hlength
  rw [walkSegments]
  by_cases hfirst : first = 0xff
  · rw [if_neg (not_not.mpr hfirst), if_neg (not_not.mpr hfirst), if_neg (ne_true_of_eq_false (hframe hfirst))]
  · rw [if_pos hfirst, if_pos hfirst]

theorem walkSegments_item {item : JpegItem} (hitem : item.Valid) {fuel : ℕ} {rest : List UInt8}
    (hlength : 10 ≤ rest.length) : walkSegments (fuel + 1) (item.bytes ++ rest) = walkSegments fuel rest := by
  cases item with
  | skipped byte =>
    obtain ⟨marker, l₁, l₀, bytes, rfl, hbytes⟩ := exists_three hlength
    exact (walkSegments_succ (by omega) fun heq => absurd heq hitem).trans (if_pos hitem)
  | standalone marker =>
    obtain ⟨l₁, l₀, next, bytes, rfl, hbytes⟩ := exists_three hlength
    have hframe : isFrameHeader marker = false := eq_false_of_ne_true fun hframe =>
      Bool.false_ne_true ((not_standalone_of_frameHeader hframe).symm.trans hitem)
    refine (walkSegments_succ (Nat.le_succ_of_le (by omega)) fun _ => hframe).trans ?_
    rw [if_neg (not_not.mpr rfl)]
    exact if_pos hitem
  | segment marker l₁ l₀ payload =>
    obtain ⟨hstandalone, hframe, hcount⟩ := hitem
    have hround : 6 ≤ (payload ++ rest).length := by
      rw [List.length_append]
      omega
    refine (walkSegments_succ hround fun _ => hframe).trans ?_
    rw [if_neg (not_not.mpr rfl), if_neg (ne_true_of_eq_false hstandalone), hcount, if_neg (by omega)]
    rw [List.drop_succ_cons, List.drop_succ_cons, List.drop_left]

theorem length_le_length_flatMap_bytes (items : List JpegItem) :
    items.length ≤ (items.flatMap JpegItem.bytes).length := by
  have hpos : ∀ item : JpegItem, 0 < item.bytes.length := by
    intro item
    cases item <;> exact Nat.succ_pos _
  induction items with
  | nil => exact Nat.zero_le _
  | cons item items ih =>
    have := hpos item
    rw [List.flatMap_cons, List.length_append, List.length_cons]
    omega

theorem walkSegments_items {items : List JpegItem} (hitems : ∀ item ∈ items, item.Valid) {f : JpegFrame}
    (hf : f.Valid) (rest : List UInt8) {fuel : ℕ} (hfuel : items.length < fuel) :
    walkSegments fuel (items.flatMap JpegItem.bytes ++ (f.bytes ++ rest)) = some f.size := by
  induction items generalizing fuel with
  | nil =>
    obtain ⟨fuel, rfl⟩ := Nat.exists_eq_succ_of_ne_zero (Nat.ne_of_gt hfuel)
    exact walkSegments_frame hf rest
  | cons item items ih =>
    obtain ⟨fuel, rfl⟩ := Nat.exists_eq_succ_of_ne_zero (Nat.ne_zero_of_lt hfuel)
    rw [List.flatMap_cons, List.append_assoc, walkSegments_item (hitems item List.mem_cons_self)]
    · exact ih (fun item hitem => hitems item (List.mem_cons_of_mem _ hitem)) (Nat.lt_of_succ_lt_succ hfuel)
    · rw [List.length_append, List.length_append, show f.bytes.length = 10 from rfl]
      omega

/-- What the walk returns is the size in a frame header that follows on items. -/
theorem walkSegments_sound {fuel : ℕ} {bytes : List UInt8} {size : ImageSize}
    (hwalk : walkSegments fuel bytes = some size) :
    ∃ (items : List JpegItem) (f : JpegFrame) (rest : List UInt8), (∀ item ∈ items, item.Valid) ∧ f.Valid ∧
      bytes = items.flatMap JpegItem.bytes ++ (f.bytes ++ rest) ∧ size = f.size := by
  induction fuel generalizing bytes with
  | zero => cases hwalk
  | succ fuel ih =>
    have hitem : ∀ (item : JpegItem) {more : List UInt8}, item.Valid → walkSegments fuel more = some size →
        ∃ (items : List JpegItem) (f : JpegFrame) (rest : List UInt8), (∀ item ∈ items, item.Valid) ∧ f.Valid ∧
          item.bytes ++ more = items.flatMap JpegItem.bytes ++ (f.bytes ++ rest) ∧ size = f.size := by
      intro item more hvalid hmore
      obtain ⟨items, f, rest, hitems, hf, rfl, hsize⟩ := ih hmore
      refine ⟨item :: items, f, rest, fun item' hmem => ?_, hf, ?_, hsize⟩
      · rcases List.mem_cons.mp hmem with rfl | hmem
        · exact hvalid
        · exact hitems item' hmem
      · rw [List.flatMap_cons, List.append_assoc]
    unfold walkSegments at hwalk
    split at hwalk
    · next _ _ fuel' first marker l₁ l₀ precision h₁ h₀ w₁ w₀ components rest heq =>
      obtain rfl : fuel = fuel' := Nat.succ.inj heq
      dsimp only at hwalk
      split at hwalk
      · next hfirst => exact hitem (.skipped first) hfirst hwalk
      · next hfirst =>
        obtain rfl : first = 0xff := not_not.mp hfirst
        split at hwalk
        · next hstandalone => exact hitem (.standalone marker) hstandalone hwalk
        · next hstandalone =>
          split at hwalk
          · cases hwalk
          · next hlength =>
            split at hwalk
            · next hframe =>
              refine ⟨[], ⟨marker, l₁, l₀, precision, h₁, h₀, w₁, w₀, components⟩, rest, fun item hmem => ?_,
                ⟨hframe, Nat.le_of_not_lt hlength⟩, rfl, (Option.some.inj hwalk).symm⟩
              cases hmem
            · next hframe =>
              generalize hmore : precision :: h₁ :: h₀ :: w₁ :: w₀ :: components :: rest = more at hwalk ⊢
              obtain ⟨n, hn⟩ := Nat.exists_eq_add_of_le' (Nat.le_of_not_lt hlength)
              rw [hn, List.drop_succ_cons, List.drop_succ_cons] at hwalk
              have hdrop : n ≤ more.length := by
                by_contra hover
                rw [List.drop_eq_nil_of_le (by omega)] at hwalk
                cases fuel <;> cases hwalk
              rw [← List.take_append_drop n more]
              refine hitem (.segment marker l₁ l₀ (more.take n)) ⟨eq_false_of_ne_true hstandalone,
                eq_false_of_ne_true hframe, ?_⟩ hwalk
              rw [hn, List.length_take_of_le hdrop]
    · cases hwalk

/-- The files that are read as a JPEG, with the size that is read: the marker of the start, whole segments, fill
bytes in pairs and bytes that are no marker in any order, and a frame header. -/
theorem readJpegDimensions_eq_some_iff {buffer : List UInt8} {size : ImageSize} :
    readJpegDimensions buffer = some size ↔
      ∃ (items : List JpegItem) (f : JpegFrame) (rest : List UInt8), (∀ item ∈ items, item.Valid) ∧ f.Valid ∧
        buffer = [0xff, 0xd8] ++ (items.flatMap JpegItem.bytes ++ (f.bytes ++ rest)) ∧ size = f.size := by
  constructor
  · intro hread
    unfold readJpegDimensions at hread
    split at hread
    · next rest =>
      obtain ⟨items, f, rest, hitems, hf, rfl, hsize⟩ := walkSegments_sound hread
      exact ⟨items, f, rest, hitems, hf, rfl, hsize⟩
    · cases hread
  · rintro ⟨items, f, rest, hitems, hf, rfl, rfl⟩
    refine walkSegments_items hitems hf rest ?_
    change items.length < (items.flatMap JpegItem.bytes ++ (f.bytes ++ rest)).length
    have hcount := length_le_length_flatMap_bytes items
    rw [List.length_append, List.length_append, show f.bytes.length = 10 from rfl]
    omega

/-- The first chunk of a PNG as far as it is looked at. -/
structure PngHeader where
  chunkLength : List UInt8
  w₃ : UInt8
  w₂ : UInt8
  w₁ : UInt8
  w₀ : UInt8
  h₃ : UInt8
  h₂ : UInt8
  h₁ : UInt8
  h₀ : UInt8
  length_chunkLength : chunkLength.length = 4

namespace PngHeader

def sizeBytes (p : PngHeader) : List UInt8 := [p.w₃, p.w₂, p.w₁, p.w₀, p.h₃, p.h₂, p.h₁, p.h₀]

def size (p : PngHeader) : ImageSize :=
  ⟨readUInt32BE p.w₃ p.w₂ p.w₁ p.w₀, readUInt32BE p.h₃ p.h₂ p.h₁ p.h₀, .png⟩

end PngHeader

theorem readPngDimensions_eq_some_iff {buffer : List UInt8} {size : ImageSize} :
    readPngDimensions buffer = some size ↔
      ∃ (p : PngHeader) (rest : List UInt8),
        buffer = pngSignature ++ (p.chunkLength ++ (headerChunkType ++ (p.sizeBytes ++ rest))) ∧ size = p.size := by
  constructor
  · intro hread
    unfold readPngDimensions at hread
    split at hread
    · cases hread
    · next hlength =>
      split at hread
      · cases hread
      · next hsignature =>
        split at hread
        · cases hread
        · next hchunk =>
          split at hread
          · next w₃ w₂ w₁ w₀ h₃ h₂ h₁ h₀ rest hsize =>
            refine ⟨⟨(buffer.drop 8).take 4, w₃, w₂, w₁, w₀, h₃, h₂, h₁, h₀, ?_⟩, rest, ?_,
              (Option.some.inj hread).symm⟩
            · rw [List.length_take, List.length_drop]
              omega
            · rw [← not_not.mp hsignature, ← not_not.mp hchunk]
              change buffer = buffer.take 8 ++ ((buffer.drop 8).take 4 ++ ((buffer.drop 12).take 4 ++
                w₃ :: w₂ :: w₁ :: w₀ :: h₃ :: h₂ :: h₁ :: h₀ :: rest))
              rw [← hsize, show buffer.drop 16 = (buffer.drop 12).drop 4 by rw [List.drop_drop],
                List.take_append_drop, show buffer.drop 12 = (buffer.drop 8).drop 4 by rw [List.drop_drop],
                List.take_append_drop, List.take_append_drop]
          · cases hread
  · rintro ⟨p, rest, rfl, rfl⟩
    obtain ⟨chunkLength, w₃, w₂, w₁, w₀, h₃, h₂, h₁, h₀, hlength⟩ := p
    obtain ⟨a, b, c, rest', rfl, hrest'⟩ := exists_three (show 1 + 3 ≤ chunkLength.length by omega)
    obtain ⟨d, rest'', rfl, -⟩ := exists_cons hrest'
    obtain rfl : rest'' = [] := List.eq_nil_of_length_eq_zero (by simpa using hlength)
    rfl

/-- One fill byte hides the frame header behind it, and two do not. -/
example :
    readImageDimensions ([0xff, 0xd8] ++ 0xff :: [0xff, 0xc0, 0, 11, 8, 2, 0, 3, 0, 1, 17, 0]) = none ∧
      readImageDimensions ([0xff, 0xd8] ++ 0xff :: 0xff :: [0xff, 0xc0, 0, 11, 8, 2, 0, 3, 0, 1, 17, 0]) =
        some ⟨768, 512, .jpeg⟩ := by
  decide +kernel

end PropFirm
