import Mathlib.Data.List.Basic

/-!
# Tables as comma-separated text

The cells of a row are separated by commas and the rows by line breaks. A cell between quotes may contain
anything, a quote being doubled, and a cell without them has neither quotes, commas nor line feeds. The
reader takes a line feed for a line break, with or without a carriage return before it, so that it does not
see a carriage return at the end of the last cell of a row when there are no quotes.
-/

namespace Csv

/-- A cell, and whether it stands between quotes. -/
structure Field where
  quoted : Bool
  text : List Char

def escape (cs : List Char) : List Char := cs.flatMap fun c => if c = '"' then ['"', '"'] else [c]

namespace Field

def write (f : Field) : List Char := if f.quoted then '"' :: (escape f.text ++ ['"']) else f.text

def isSpecial (c : Char) : Bool := c = '"' || c = ',' || c = '\n'

/-- It can be told where the cell ends. -/
def Valid (f : Field) : Prop := f.quoted = true ∨ ∀ c ∈ f.text, isSpecial c = false

end Field

def writeRow (row : List Field) : List Char := [','].intercalate (row.map Field.write)

def writeTable (lineBreak : List Char) (rows : List (List Field)) : List Char :=
  lineBreak.intercalate (rows.map writeRow)

/-! ### The reader -/

/-- Where the reader is in a cell. -/
inductive Mode
  | start | plain | quoted | closing | closingReturn
  deriving DecidableEq

structure Reader where
  mode : Mode
  cell : List Char
  row : List (List Char)
  rows : List (List (List Char))

namespace Reader

def initial : Reader := ⟨.start, [], [], []⟩

def push (s : Reader) (mode : Mode) (c : Char) : Reader := { s with mode := mode, cell := s.cell ++ [c] }

def endCell (s : Reader) : Reader := { s with mode := .start, cell := [], row := s.row ++ [s.cell] }

def endRow (s : Reader) (cell : List Char) : Reader := ⟨.start, [], [], s.rows ++ [s.row ++ [cell]]⟩

def dropReturn (cell : List Char) : List Char := if cell.getLast? = some '\r' then cell.dropLast else cell

def readPlain (s : Reader) (c : Char) : Option Reader :=
  if c = '"' then none
  else if c = ',' then some s.endCell
  else if c = '\n' then some (s.endRow (dropReturn s.cell))
  else some (s.push .plain c)

def read (s : Reader) (c : Char) : Option Reader :=
  match s.mode with
  | .start => if c = '"' then some { s with mode := .quoted } else s.readPlain c
  | .plain => s.readPlain c
  | .quoted => if c = '"' then some { s with mode := .closing } else some (s.push .quoted c)
  | .closing =>
    if c = '"' then some (s.push .quoted c)
    else if c = ',' then some s.endCell
    else if c = '\n' then some (s.endRow s.cell)
    else if c = '\r' then some { s with mode := .closingReturn }
    else none
  | .closingReturn => if c = '\n' then some (s.endRow s.cell) else none

/-- A line break at the end starts no row. -/
def finish (s : Reader) : Option (List (List (List Char))) :=
  match s.mode with
  | .start => some (if s.row = [] then s.rows else (s.endRow s.cell).rows)
  | .plain | .closing => some (s.endRow s.cell).rows
  | .quoted | .closingReturn => none

end Reader

def readTable (text : List Char) : Option (List (List (List Char))) :=
  (text.foldlM Reader.read .initial).bind Reader.finish

/-! ### What it has read -/

variable {row : List (List Char)} {rows : List (List (List Char))} {cell cs : List Char} {f : Field}

/-- The reader at the end of a cell. -/
def afterCell (f : Field) (row : List (List Char)) (rows : List (List (List Char))) : Reader :=
  ⟨if f.quoted then .closing else if f.text = [] then .start else .plain, f.text, row, rows⟩

theorem read_quoted {c : Char} (hc : c ≠ '"') :
    Reader.read ⟨.quoted, cell, row, rows⟩ c = some ⟨.quoted, cell ++ [c], row, rows⟩ :=
  if_neg hc

theorem readPlain_of_ordinary {s : Reader} {c : Char} (hc : Field.isSpecial c = false) :
    s.readPlain c = some (s.push .plain c) := by
  simp only [Field.isSpecial, Bool.or_eq_false_iff, decide_eq_false_iff_not] at hc
  rw [Reader.readPlain, if_neg hc.1.1, if_neg hc.1.2, if_neg hc.2]

theorem foldlM_escape : (escape cs).foldlM Reader.read ⟨.quoted, cell, row, rows⟩ =
    some ⟨.quoted, cell ++ cs, row, rows⟩ := by
  induction cs generalizing cell with
  | nil => simp [escape]
  | cons c cs ih =>
    have hfirst : (if c = '"' then ['"', '"'] else [c]).foldlM Reader.read ⟨.quoted, cell, row, rows⟩ =
        some ⟨.quoted, cell ++ [c], row, rows⟩ := by
      by_cases hc : c = '"'
      · subst hc
        rfl
      · rw [if_neg hc, List.foldlM_cons, read_quoted hc]
        rfl
    rw [escape, List.flatMap_cons, List.foldlM_append, hfirst, List.append_cons cell c cs]
    exact ih

theorem foldlM_plain (hcs : ∀ c ∈ cs, Field.isSpecial c = false) :
    cs.foldlM Reader.read ⟨.plain, cell, row, rows⟩ = some ⟨.plain, cell ++ cs, row, rows⟩ := by
  induction cs generalizing cell with
  | nil => simp
  | cons c cs ih =>
    have hfirst : Reader.read ⟨.plain, cell, row, rows⟩ c = some ⟨.plain, cell ++ [c], row, rows⟩ :=
      readPlain_of_ordinary (hcs c List.mem_cons_self)
    rw [List.foldlM_cons, hfirst, List.append_cons cell c cs]
    exact ih fun d hd => hcs d (List.mem_cons_of_mem _ hd)

theorem foldlM_write (hvalid : f.Valid) :
    f.write.foldlM Reader.read ⟨.start, [], row, rows⟩ = some (afterCell f row rows) := by
  rw [Field.write, afterCell]
  by_cases hquoted : f.quoted = true
  · rw [if_pos hquoted, if_pos hquoted, List.foldlM_cons]
    change (escape f.text ++ ['"']).foldlM Reader.read ⟨.quoted, [], row, rows⟩ = _
    rw [List.foldlM_append, foldlM_escape]
    rfl
  · rw [if_neg hquoted, if_neg hquoted]
    have hplain := hvalid.resolve_left hquoted
    cases htext : f.text with
    | nil => rfl
    | cons c cs =>
      rw [htext] at hplain
      have hc := hplain c List.mem_cons_self
      have hfirst : Reader.read ⟨.start, [], row, rows⟩ c = some ⟨.plain, [c], row, rows⟩ := by
        rw [Reader.read]
        dsimp only
        rw [if_neg, readPlain_of_ordinary hc]
        · rfl
        · rintro rfl
          cases hc
      rw [if_neg (List.cons_ne_nil _ _), List.foldlM_cons, hfirst]
      exact foldlM_plain fun d hd => hplain d (List.mem_cons_of_mem _ hd)

/-- What is read of the last cell of a row when a row follows. -/
def Field.shown (lineBreak : List Char) (f : Field) : List Char :=
  if f.quoted || lineBreak ≠ ['\n'] then f.text else Reader.dropReturn f.text

theorem read_comma : (afterCell f row rows).read ',' = some ⟨.start, [], row ++ [f.text], rows⟩ := by
  rw [afterCell]
  split
  · rfl
  · split <;> rfl

theorem read_lineFeed :
    (afterCell f row rows).read '\n' = some ⟨.start, [], [], rows ++ [row ++ [f.shown ['\n']]]⟩ := by
  rw [afterCell, Field.shown]
  by_cases hquoted : f.quoted = true
  · rw [if_pos hquoted, hquoted]
    rfl
  · rw [if_neg hquoted, eq_false_of_ne_true hquoted]
    split <;> rfl

theorem read_return :
    ['\r', '\n'].foldlM Reader.read (afterCell f row rows) =
      some ⟨.start, [], [], rows ++ [row ++ [f.shown ['\r', '\n']]]⟩ := by
  have hshown : f.shown ['\r', '\n'] = f.text := if_pos (by simp)
  rw [afterCell, hshown]
  by_cases hquoted : f.quoted = true
  · rw [if_pos hquoted]
    rfl
  · rw [if_neg hquoted]
    have hdrop : Reader.dropReturn (f.text ++ ['\r']) = f.text := by
      rw [Reader.dropReturn, List.getLast?_concat, if_pos rfl, List.dropLast_concat]
    have hplain : Reader.readPlain ⟨.plain, f.text ++ ['\r'], row, rows⟩ '\n' =
        some ⟨.start, [], [], rows ++ [row ++ [Reader.dropReturn (f.text ++ ['\r'])]]⟩ := rfl
    rw [hdrop] at hplain
    rw [← hplain]
    split <;> rfl

/-! ### Round trip -/

/-- The reader at the end of a row, which has a cell. -/
theorem foldlM_writeRow {fields : List Field} (hvalid : ∀ f ∈ fields, f.Valid) {f : Field} (hf : f.Valid) :
    (writeRow (fields ++ [f])).foldlM Reader.read ⟨.start, [], row, rows⟩ =
      some (afterCell f (row ++ fields.map (·.text)) rows) := by
  induction fields generalizing row with
  | nil =>
    rw [List.map_nil, List.append_nil, List.nil_append, writeRow, List.map_singleton, List.intercalate_singleton]
    exact foldlM_write hf
  | cons g fields ih =>
    have hsplit : writeRow (g :: fields ++ [f]) = g.write ++ ',' :: writeRow (fields ++ [f]) := by
      rw [writeRow, writeRow, List.cons_append, List.map_cons]
      cases fields with
      | nil => rfl
      | cons h fields => rfl
    rw [hsplit, List.foldlM_append, foldlM_write (hvalid g List.mem_cons_self)]
    change (',' :: writeRow (fields ++ [f])).foldlM Reader.read (afterCell g row rows) = _
    rw [List.foldlM_cons, read_comma]
    refine (ih fun h hh => hvalid h (List.mem_cons_of_mem _ hh)).trans ?_
    rw [List.map_cons, List.append_assoc]
    rfl

/-- A row whose cells can be told apart. It has some, and is not one empty cell without quotes. -/
structure Readable (row : List Field) : Prop where
  valid : ∀ f ∈ row, f.Valid
  seen : ∃ fields f, row = fields ++ [f] ∧ (fields = [] → f.quoted = true ∨ f.text ≠ [])

/-- What is read of a row when another one follows. -/
def shownRow (lineBreak : List Char) (row : List Field) : List (List Char) :=
  row.dropLast.map Field.text ++ (row.getLast?.map (Field.shown lineBreak)).toList

/-- What is read of a table. -/
def shownTable (lineBreak : List Char) (table : List (List Field)) : List (List (List Char)) :=
  table.dropLast.map (shownRow lineBreak) ++ (table.getLast?.map (·.map Field.text)).toList

theorem foldlM_lineBreak {lineBreak : List Char} (hbreak : lineBreak = ['\n'] ∨ lineBreak = ['\r', '\n']) :
    lineBreak.foldlM Reader.read (afterCell f row rows) =
      some ⟨.start, [], [], rows ++ [row ++ [f.shown lineBreak]]⟩ := by
  rcases hbreak with rfl | rfl
  · rw [List.foldlM_cons, read_lineFeed]
    rfl
  · exact read_return

theorem finish_afterCell (hseen : row = [] → f.quoted = true ∨ f.text ≠ []) :
    (afterCell f row rows).finish = some (rows ++ [row ++ [f.text]]) := by
  rw [afterCell]
  by_cases hquoted : f.quoted = true
  · rw [if_pos hquoted]
    rfl
  · rw [if_neg hquoted]
    by_cases htext : f.text = []
    · rw [if_pos htext, Reader.finish]
      dsimp only
      rw [if_neg fun hrow => (hseen hrow).elim hquoted (· htext)]
      rfl
    · rw [if_neg htext]
      rfl

theorem foldlM_writeTable {lineBreak : List Char} (hbreak : lineBreak = ['\n'] ∨ lineBreak = ['\r', '\n'])
    {table : List (List Field)} (htable : table ≠ []) (hreadable : ∀ r ∈ table, Readable r) :
    ((writeTable lineBreak table).foldlM Reader.read ⟨.start, [], [], rows⟩).bind Reader.finish =
      some (rows ++ shownTable lineBreak table) := by
  induction table generalizing rows with
  | nil => exact absurd rfl htable
  | cons r table ih =>
    have hr := hreadable r List.mem_cons_self
    obtain ⟨fields, f, rfl, hseen⟩ := hr.seen
    have hrow : (writeRow (fields ++ [f])).foldlM Reader.read ⟨.start, [], [], rows⟩ =
        some (afterCell f (fields.map (·.text)) rows) :=
      foldlM_writeRow (fun g hg => hr.valid g (List.mem_append_left _ hg))
        (hr.valid f (List.mem_append_right _ (List.mem_singleton_self f)))
    cases table with
    | nil =>
      rw [writeTable, List.map_singleton, List.intercalate_singleton, hrow, Option.bind_some,
        finish_afterCell fun hnil => hseen (List.map_eq_nil_iff.mp hnil)]
      simp [shownTable]
    | cons r' table =>
      have hsplit : writeTable lineBreak ((fields ++ [f]) :: r' :: table) =
          writeRow (fields ++ [f]) ++ (lineBreak ++ writeTable lineBreak (r' :: table)) := by
        rw [writeTable, writeTable, List.map_cons, List.map_cons, List.intercalate_cons_cons]
        rw [List.append_assoc]
      rw [hsplit, List.foldlM_append, hrow]
      change ((lineBreak ++ _).foldlM Reader.read (afterCell f _ rows)).bind Reader.finish = _
      rw [List.foldlM_append, foldlM_lineBreak hbreak]
      refine (ih (List.cons_ne_nil _ _) fun r hr => hreadable r (List.mem_cons_of_mem _ hr)).trans ?_
      simp [shownTable, shownRow]

/-- What is written is read back, up to carriage returns at the end of a row. -/
theorem readTable_writeTable {lineBreak : List Char} (hbreak : lineBreak = ['\n'] ∨ lineBreak = ['\r', '\n'])
    {table : List (List Field)} (htable : table ≠ []) (hreadable : ∀ r ∈ table, Readable r) :
    readTable (writeTable lineBreak table) = some (shownTable lineBreak table) :=
  foldlM_writeTable hbreak htable hreadable

/-! ### Carriage returns -/

theorem Field.shown_eq_iff {lineBreak : List Char} :
    f.shown lineBreak = f.text ↔ f.quoted = true ∨ lineBreak ≠ ['\n'] ∨ f.text.getLast? ≠ some '\r' := by
  rw [shown]
  by_cases hkept : (f.quoted || lineBreak ≠ ['\n']) = true
  · rw [if_pos hkept]
    simp only [Bool.or_eq_true, decide_eq_true_eq] at hkept
    exact iff_of_true rfl (hkept.imp_right .inl)
  · rw [if_neg hkept]
    simp only [Bool.or_eq_true, decide_eq_true_eq, not_or] at hkept
    rw [or_iff_right hkept.1, or_iff_right hkept.2, Reader.dropReturn]
    split
    · next hlast =>
      refine iff_of_false (fun heq => ?_) (not_not.mpr hlast)
      have hlength := congrArg List.length heq
      rw [List.length_dropLast] at hlength
      have hne : f.text ≠ [] := by
        intro hnil
        rw [hnil] at hlast
        cases hlast
      have := List.length_pos_of_ne_nil hne
      omega
    · next hlast => exact iff_of_true rfl hlast

theorem shownRow_eq_iff {lineBreak : List Char} {r : List Field} :
    shownRow lineBreak r = r.map Field.text ↔ ∀ f, r.getLast? = some f → f.shown lineBreak = f.text := by
  rcases List.eq_nil_or_concat r with rfl | ⟨fields, f, rfl⟩
  · simp [shownRow]
  · simp [shownRow]

theorem shownTable_eq_iff {lineBreak : List Char} {table : List (List Field)} :
    shownTable lineBreak table = table.map (·.map Field.text) ↔
      ∀ r ∈ table.dropLast, ∀ f, r.getLast? = some f → f.shown lineBreak = f.text := by
  rcases List.eq_nil_or_concat table with rfl | ⟨init, last, rfl⟩
  · simp [shownTable]
  · simp only [shownTable, List.concat_eq_append, List.dropLast_concat, List.getLast?_concat, Option.map_some,
      Option.toList_some, List.map_append, List.map_singleton, List.append_cancel_right_eq, List.map_inj_left]
    exact forall₂_congr fun r _ => shownRow_eq_iff

end Csv
