import PropFirm.Lib.Csv

/-!
# The downloads

An export of the admin area puts a cell between quotes only when it has to, and separates the rows by line
feeds. A trader's trades, on the server, and the tables that a page has at hand are downloaded with all cells
between quotes, where a cell that a spreadsheet would take for a formula gets an apostrophe in front.
-/

namespace PropFirm

open Csv

structure CsvColumn (ρ : Type*) where
  header : String
  value : ρ → Option String

/-- `escapeValue`; a missing value is empty. -/
def escapeValue (value : Option String) : Field :=
  let normalized := (value.getD "").toList
  ⟨normalized.any Field.isSpecial, normalized⟩

def exportRow {ρ : Type*} (columns : List (CsvColumn ρ)) (row : ρ) : List (Option String) := columns.map (·.value row)

/-- The header and the rows as they should be read back. -/
def exportTable {ρ : Type*} (rows : List ρ) (columns : List (CsvColumn ρ)) : List (List (Option String)) :=
  columns.map (fun c => some c.header) :: rows.map (exportRow columns)

def serializeCsv {ρ : Type*} (rows : List ρ) (columns : List (CsvColumn ρ)) : List Char :=
  writeTable ['\n'] ((exportTable rows columns).map (·.map escapeValue))

def isFormulaStart (c : Char) : Bool := c = '=' || c = '+' || c = '-' || c = '@' || c = '\t' || c = '\r'

/-- What the quotes are put around, which is escaped before it is looked at. -/
def safeText (text : List Char) : List Char :=
  if (escape text).head?.any isFormulaStart then '\'' :: escape text else escape text

def csvSafeValue (text : List Char) : List Char := '"' :: (safeText text ++ ['"'])

/-- The content of `downloadCSV` with a line feed, and of the trade export with a carriage return too. -/
def csvContent (lineBreak : List Char) (headers : List (List Char)) (rows : List (List (List Char))) : List Char :=
  lineBreak.intercalate ((headers :: rows).map fun row => [','].intercalate (row.map csvSafeValue))

/-! ### Cells with an apostrophe -/

/-- What a reader sees of a cell. -/
def shownText (text : List Char) : List Char := if text.head?.any isFormulaStart then '\'' :: text else text

theorem head?_escape (text : List Char) : (escape text).head? = text.head? := by
  cases text with
  | nil => rfl
  | cons c cs =>
    rw [escape, List.flatMap_cons]
    split
    · next hc =>
      rw [hc]
      rfl
    · rfl

/-- The cell as it is written. -/
def safeField (text : List Char) : Field := ⟨true, shownText text⟩

theorem csvSafeValue_eq_write (text : List Char) : csvSafeValue text = (safeField text).write := by
  rw [safeField, csvSafeValue, Field.write, if_pos rfl, safeText, shownText, head?_escape]
  split <;> rfl

/-- No cell that is read back is taken for a formula. -/
theorem shownText_safe (text : List Char) : (shownText text).head?.any isFormulaStart = false := by
  rw [shownText]
  split
  · rfl
  · next hplain => simpa using hplain

/-! ### Round trips -/

/-- Whatever is in the cells: the download is read back with every cell in its place, after an apostrophe where
it would be taken for a formula. -/
theorem readTable_csvContent {lineBreak : List Char} (hbreak : lineBreak = ['\n'] ∨ lineBreak = ['\r', '\n'])
    {headers : List (List Char)} {rows : List (List (List Char))} (hheaders : headers ≠ [])
    (hrows : ∀ row ∈ rows, row ≠ []) :
    readTable (csvContent lineBreak headers rows) = some ((headers :: rows).map (·.map shownText)) ∧
      ∀ row ∈ (headers :: rows).map (·.map shownText), ∀ cell ∈ row, cell.head?.any isFormulaStart = false := by
  constructor
  · have hcontent : csvContent lineBreak headers rows =
        writeTable lineBreak ((headers :: rows).map (·.map safeField)) := by
      rw [csvContent, writeTable, List.map_map]
      refine congrArg _ (List.map_congr_left fun row _ => ?_)
      rw [Function.comp_apply, writeRow, List.map_map]
      exact congrArg _ (List.map_congr_left fun text _ => csvSafeValue_eq_write text)
    have hquoted : shownTable lineBreak ((headers :: rows).map (·.map safeField)) =
        ((headers :: rows).map (·.map safeField)).map (·.map Field.text) := by
      refine shownTable_eq_iff.mpr fun r hr f hf => ?_
      obtain ⟨row, -, rfl⟩ := List.mem_map.mp ((List.dropLast_sublist _).subset hr)
      obtain ⟨text, -, rfl⟩ := List.mem_map.mp (List.mem_of_getLast? hf)
      exact Field.shown_eq_iff.mpr (.inl rfl)
    rw [hcontent, readTable_writeTable hbreak (by simp), hquoted, List.map_map]
    · simp only [Function.comp_def, List.map_map, safeField]
    · intro r hr
      obtain ⟨row, hrow, rfl⟩ := List.mem_map.mp hr
      have hne : row ≠ [] := by
        rcases List.mem_cons.mp hrow with rfl | hrow
        · exact hheaders
        · exact hrows row hrow
      obtain ⟨init, last, rfl⟩ := (List.eq_nil_or_concat row).resolve_left hne
      refine ⟨fun f hf => ?_, init.map safeField, safeField last, by simp,
        fun _ => .inl rfl⟩
      obtain ⟨text, -, rfl⟩ := List.mem_map.mp hf
      exact .inl rfl
  · rintro row hrow cell hcell
    obtain ⟨row, -, rfl⟩ := List.mem_map.mp hrow
    obtain ⟨text, -, rfl⟩ := List.mem_map.mp hcell
    exact shownText_safe text

/-- A close reason that a spreadsheet would run, and one with a line break. -/
theorem readTable_csvContent_formula :
    readTable (csvContent ['\r', '\n'] ["Close Reason".toList, "P&L".toList]
      [["=HYPERLINK(\"x\")".toList, "1,5".toList], ["a\nb".toList, "-2".toList]]) =
    some [["Close Reason".toList, "P&L".toList], ["'=HYPERLINK(\"x\")".toList, "1,5".toList],
      ["a\nb".toList, "'-2".toList]] :=
  (readTable_csvContent (.inr rfl) (by decide) (by decide)).1.trans (by decide +kernel)

/-- A cell that stands without quotes and has a carriage return at its end. -/
def EndsInReturn (value : Option String) : Prop :=
  (value.getD "").toList.any Field.isSpecial = false ∧ (value.getD "").toList.getLast? = some '\r'

/-- An export of two columns or more is read back unless a row other than the last one ends in a carriage
return that is not between quotes. -/
theorem readTable_serializeCsv {ρ : Type*} {rows : List ρ} {columns : List (CsvColumn ρ)}
    (hcolumns : 2 ≤ columns.length) :
    readTable (serializeCsv rows columns) =
        some ((exportTable rows columns).map (·.map fun value => (value.getD "").toList)) ↔
      ∀ cells ∈ (exportTable rows columns).dropLast, ∀ value, cells.getLast? = some value → ¬ EndsInReturn value := by
  have hlength : ∀ cells ∈ exportTable rows columns, 2 ≤ cells.length := by
    intro cells hcells
    rcases List.mem_cons.mp hcells with rfl | hcells
    · rwa [List.length_map]
    · obtain ⟨row, -, rfl⟩ := List.mem_map.mp hcells
      rwa [exportRow, List.length_map]
  have htexts : (exportTable rows columns).map (·.map fun value => (value.getD "").toList) =
      ((exportTable rows columns).map (·.map escapeValue)).map (·.map Field.text) := by
    simp only [List.map_map, Function.comp_def, escapeValue]
  rw [serializeCsv, readTable_writeTable (.inl rfl) (by simp [exportTable]), Option.some_inj, htexts,
    shownTable_eq_iff, ← List.map_dropLast]
  · rw [List.forall_mem_map]
    refine forall₂_congr fun cells _ => ?_
    rw [List.getLast?_map]
    constructor
    · intro hshown value hvalue hends
      have hfield := Field.shown_eq_iff.mp (hshown _ (by rw [hvalue]; rfl))
      rcases hfield with hquoted | hbreak | hlast
      · rw [escapeValue, hends.1] at hquoted
        cases hquoted
      · exact hbreak rfl
      · exact hlast hends.2
    · intro hends f hf
      obtain ⟨value, hvalue, rfl⟩ := Option.map_eq_some_iff.mp hf
      refine Field.shown_eq_iff.mpr ?_
      by_contra hnone
      obtain ⟨hquoted, hrest⟩ := not_or.mp hnone
      exact hends value hvalue ⟨eq_false_of_ne_true hquoted, not_not.mp (not_or.mp hrest).2⟩
  · intro r hr
    obtain ⟨cells, hcells, rfl⟩ := List.mem_map.mp hr
    have htwo := hlength cells hcells
    rcases List.eq_nil_or_concat cells with rfl | ⟨init, last, rfl⟩
    · exact absurd htwo (by decide)
    · refine ⟨fun f hf => ?_, init.map escapeValue, escapeValue last, by simp, fun hnil => ?_⟩
      · obtain ⟨value, -, rfl⟩ := List.mem_map.mp hf
        by_cases hspecial : (value.getD "").toList.any Field.isSpecial = true
        · exact .inl hspecial
        · refine .inr fun c hc => eq_false_of_ne_true fun hspecial' => hspecial ?_
          exact List.any_eq_true.mpr ⟨c, hc, hspecial'⟩
      · rw [List.map_eq_nil_iff.mp hnil] at htwo
        exact absurd htwo (by simp)

def payoutNotes : List (CsvColumn (String × String)) :=
  [⟨"id", fun row => some row.1⟩, ⟨"notes", fun row => some row.2⟩]

/-- A note that ends in a carriage return, with a row after it. -/
theorem readTable_serializeCsv_return :
    readTable (serializeCsv [("7", "paid\r"), ("8", "")] payoutNotes) ≠
      some [["id".toList, "notes".toList], ["7".toList, "paid\r".toList], ["8".toList, []]] := by
  intro hread
  have hiff := @readTable_serializeCsv (String × String) [("7", "paid\r"), ("8", "")] payoutNotes (by decide)
  refine hiff.mp (hread.trans (by decide +kernel)) [some "7", some "paid\r"] (by decide) (some "paid\r") rfl ?_
  exact ⟨by decide, by decide⟩

end PropFirm
