import Dbx.Csv.Import

/-!
# What an import reads of an export

A sheet of strings and NULLs that is written and read back under default options keeps its rows in
number and order. NULL comes back as NULL, and so does the string that is the literal of NULL: the
reader does not say whether a field was in quotes. Every other string that a spreadsheet would not
take for a formula comes back as it was. A sheet without rows is refused.

## Main results

* `Sheet.records_text`: the records of a written sheet
* `Sheet.readBack_eq`, `Sheet.readBack_nil`: what an import reads of a sheet with rows, and of one
  without
* `recovered_readBack`: the cells of a sheet come back
-/

namespace Dbx.Csv

open Text Rfc4180 Json List

/-- Columns, and rows with a cell for each column: a string or NULL. -/
structure Sheet where
  columns : List Text
  rows : List (List (Option Text))
  columns_ne : columns ≠ []
  rows_width : ∀ row ∈ rows, row.length = columns.length

namespace Sheet

def text (sheet : Sheet) : Text :=
  formatCsv sheet.columns (sheet.rows.map (·.map cellValue))

def titles (sheet : Sheet) : List Text := sheet.columns.map fun title => formulaGuard title ++ title

/-- A sheet written and read under default options, with a limit on the rows that are kept. -/
def readBack (toLowercase : Text → Text) (sheet : Sheet) (previewLimit : Nat) :
    Except String ParsedImportFile := do
  let config ← effectiveDelimitedConfig .csv {}
  parseCsvReader toLowercase config previewLimit sheet.text

/-- The values that the rows of a sheet come back as. -/
def readRows (sheet : Sheet) : List (List Value) :=
  sheet.rows.map (·.map fun cell => csvValueWithConfig (cellText cell) defaultConfig)

/-- Every row comes back, with its cells. -/
def Lossless (toLowercase : Text → Text) (sheet : Sheet) : Prop :=
  ∀ previewLimit, sheet.rows.length ≤ previewLimit →
    ∃ file, sheet.readBack toLowercase previewLimit = .ok file ∧
      file.totalRows = sheet.rows.length ∧ file.rows = sheet.rows.map (·.map cellValue)

end Sheet

/-- The value a cell comes back as: NULL for NULL and for the literal of NULL, and the string for
every other one without a guard. -/
def Recovered : Option Text → Value → Prop
  | none, value => value = .null
  | some s, value =>
    (s = defaultCsvNullLiteral → value = .null) ∧
      (s ≠ defaultCsvNullLiteral → formulaGuard s = [] → value = .string s)

namespace Sheet

variable (sheet : Sheet)

theorem written_titles :
    List.Forall₂ (Written ',') (sheet.columns.map (csvField · .all)) sheet.titles := by
  rw [titles, forall₂_map_left_iff, forall₂_map_right_iff, forall₂_same]
  intro title _
  exact written_csvField title

theorem written_row (row : List (Option Text)) :
    List.Forall₂ (Written ',')
      ((row.map cellValue).map fun cell => csvValueWithQuoteMode cell .all false
        (csvNullLiteral defaultCsvNullLiteral)) (row.map cellText) := by
  rw [map_map, forall₂_map_left_iff, forall₂_map_right_iff, forall₂_same]
  intro cell _
  exact written_cell cell

/-- The lines of the rows. -/
theorem records_rows :
    records ',' (['\n'].intercalate ((sheet.rows.map (·.map cellValue)).map
      (queryResultCsvRow · .all (csvNullLiteral defaultCsvNullLiteral)))) =
      sheet.rows.map (·.map cellText) := by
  have hrows : List.Forall₂ (List.Forall₂ (Written ','))
      (sheet.rows.map fun row => (row.map cellValue).map fun cell =>
        csvValueWithQuoteMode cell .all false (csvNullLiteral defaultCsvNullLiteral))
      (sheet.rows.map (·.map cellText)) := by
    rw [forall₂_map_left_iff, forall₂_map_right_iff, forall₂_same]
    intro row _
    exact written_row row
  have hlines := records_lines hrows ?_ (by decide) (by decide)
  · rwa [map_map] at hlines ⊢
  · -- a row has a cell for each column, and there is one
    intro line hline
    obtain ⟨row, hrow, rfl⟩ := List.mem_map.mp hline
    have hlength := sheet.rows_width row hrow
    have hcolumns := length_pos_of_ne_nil sheet.columns_ne
    apply ne_nil_of_length_pos
    rw [length_map, length_map]
    omega

/-- **The records of a written sheet** are its titles and its rows. -/
theorem records_text :
    records ',' sheet.text = sheet.titles :: sheet.rows.map (·.map cellText) := by
  have htitles : sheet.columns.map (csvField · .all) ≠ [] := by simpa using sheet.columns_ne
  obtain ⟨mode, before, value, hends, hbefore, hread⟩ := records_row sheet.written_titles htitles
    (by decide) (.inl rfl) [] ('\n' :: ['\n'].intercalate ((sheet.rows.map (·.map cellValue)).map
      (queryResultCsvRow · .all (csvNullLiteral defaultCsvNullLiteral))))
  rw [text, formatCsv, formatCsvWithOptions, records, hread,
    recordsFrom_lineEnd hends (by decide), hbefore, records_rows, nil_append]

variable {toLowercase : Text → Text}

theorem titleColumns_titles_ne : titleColumns toLowercase sheet.titles ≠ [] := by
  apply ne_nil_of_length_pos
  rw [length_titleColumns, titles, length_map]
  exact length_pos_of_ne_nil sheet.columns_ne

/-- What the loop of an import reads of a written sheet. -/
theorem readRecords_text (previewLimit : Nat) :
    readRecords toLowercase defaultConfig previewLimit true 0 ⟨[], [], 0⟩ (records ',' sheet.text) =
      ⟨titleColumns toLowercase sheet.titles, sheet.readRows.take previewLimit,
        sheet.rows.length⟩ := by
  have hlength : (titleColumns toLowercase sheet.titles).length = sheet.columns.length := by
    rw [length_titleColumns, titles, length_map]
  have hrows : (sheet.rows.map (·.map cellText)).map
      (delimitedRecordToRow · sheet.columns.length defaultConfig) = sheet.readRows := by
    rw [map_map]
    apply map_congr_left
    intro row hrow
    have hwidth : (row.map cellText).length = sheet.columns.length := by
      rw [length_map, sheet.rows_width row hrow]
    rw [Function.comp_apply, ← hwidth, delimitedRecordToRow_eq, map_map]
    rfl
  have hdata := @readRecords_data toLowercase previewLimit true
    (sheet.rows.map (·.map cellText)) 1 ⟨titleColumns toLowercase sheet.titles, [], 0⟩ le_rfl
    sheet.titleColumns_titles_ne (.inl rfl)
  have htitle : defaultConfig.rowRange.titleRow = some (0 + 1) := rfl
  rw [records_text, readRecords, if_pos htitle, hdata]
  simp [hlength, hrows]

/-- An import of a written sheet, after its loop. -/
theorem readBack_unfold (previewLimit : Nat) :
    sheet.readBack toLowercase previewLimit = if sheet.rows.length = 0 then
        .error "Import file has no data rows in the selected row range"
      else .ok ⟨titleColumns toLowercase sheet.titles, sheet.readRows.take previewLimit,
        sheet.rows.length⟩ := by
  have hread : readRecords toLowercase defaultConfig previewLimit true 0 ⟨[], [], 0⟩
      (records defaultConfig.delimiter sheet.text) = _ := sheet.readRecords_text previewLimit
  have hcolumns : ¬ (titleColumns toLowercase sheet.titles).isEmpty := by
    simpa using sheet.titleColumns_titles_ne
  have hparse : sheet.readBack toLowercase previewLimit =
    parseCsvReader toLowercase defaultConfig previewLimit sheet.text := rfl
  rw [hparse, parseCsvReader, parseCsvReaderInner, hread]
  simp only [if_neg hcolumns]

/-- **What an import reads of a sheet with rows.** -/
theorem readBack_eq (hrows : sheet.rows ≠ []) (previewLimit : Nat) :
    sheet.readBack toLowercase previewLimit = .ok ⟨titleColumns toLowercase sheet.titles,
      sheet.readRows.take previewLimit, sheet.rows.length⟩ := by
  rw [readBack_unfold, if_neg (by simpa using hrows)]

theorem readBack_nil (hrows : sheet.rows = []) (previewLimit : Nat) :
    sheet.readBack toLowercase previewLimit =
      .error "Import file has no data rows in the selected row range" := by
  rw [readBack_unfold, if_pos (by simp [hrows])]

end Sheet

/-- A cell comes back as the value it is to come back as. -/
theorem recovered_cell (cell : Option Text) :
    Recovered cell (csvValueWithConfig (cellText cell) defaultConfig) := by
  cases cell with
  | none => rfl
  | some s =>
    have hvalue := csvValueWithConfig_formulaGuard s
    constructor
    · intro hs
      rw [cellText, hvalue, if_pos hs]
    · intro hs hguard
      rw [cellText, hvalue, if_neg hs, hguard, nil_append]

/-- **The cells of a sheet come back.** A sheet with rows is read with as many, and cell by cell
NULL comes back as NULL, the literal of NULL as NULL, and every other string without a guard as
itself. A sheet without rows is refused. -/
theorem recovered_readBack (toLowercase : Text → Text) (sheet : Sheet) (previewLimit : Nat) :
    (sheet.rows = [] → sheet.readBack toLowercase previewLimit =
      .error "Import file has no data rows in the selected row range") ∧
    (sheet.rows ≠ [] → ∃ file, sheet.readBack toLowercase previewLimit = .ok file ∧
      file.totalRows = sheet.rows.length ∧
      List.Forall₂ (List.Forall₂ Recovered) (sheet.rows.take previewLimit) file.rows) := by
  constructor
  · intro hrows
    exact sheet.readBack_nil hrows previewLimit
  · intro hrows
    refine ⟨_, sheet.readBack_eq hrows previewLimit, rfl, ?_⟩
    rw [Sheet.readRows, ← map_take, forall₂_map_right_iff, forall₂_same]
    intro row _
    rw [forall₂_map_right_iff, forall₂_same]
    intro cell _
    exact recovered_cell cell

/-- A sheet with a NULL, an empty string, and a string with quotes and a line end. -/
def orders : Sheet where
  columns := ["id".toList, "note".toList]
  rows := [[some "7".toList, none], [some [], some "say \"hi\",\nthen go".toList]]
  columns_ne := by simp
  rows_width := by simp

theorem recovered_readBack_orders :
    orders.rows ≠ [] ∧ ∃ file, orders.readBack toAsciiLowercase 10 = .ok file ∧ file.totalRows = 2 ∧
      List.Forall₂ (List.Forall₂ Recovered) (orders.rows.take 10) file.rows :=
  have hrows : orders.rows ≠ [] := by simp [orders]
  ⟨hrows, (recovered_readBack toAsciiLowercase orders 10).2 hrows⟩

/-- A sheet of one cell. -/
def oneCell (cell : Text) : Sheet where
  columns := ["id".toList]
  rows := [[some cell]]
  columns_ne := by simp
  rows_width := by simp

/-- A string that looks like a formula comes back with the guard of the export, and the literal of
NULL comes back as NULL. -/
theorem not_lossless_formula_literal : ¬ (oneCell "=1+1".toList).Lossless toAsciiLowercase ∧
    ¬ (oneCell defaultCsvNullLiteral).Lossless toAsciiLowercase := by
  -- what the only cell comes back as
  have hcell (cell : Text) (h : (oneCell cell).Lossless toAsciiLowercase) :
      (if cell = defaultCsvNullLiteral then .null else .string (formulaGuard cell ++ cell)) =
        Value.string cell := by
    obtain ⟨file, hread, -, hrows⟩ := h 1 (Nat.le_refl 1)
    rw [(oneCell cell).readBack_eq (by simp [oneCell]) 1] at hread
    obtain rfl := Except.ok.inj hread
    rw [← csvValueWithConfig_formulaGuard]
    exact (List.cons.inj (List.cons.inj hrows).1).1
  constructor
  · intro h
    have hback := hcell _ h
    rw [if_neg (by decide)] at hback
    exact absurd (Value.string.inj hback) (by decide)
  · intro h
    have hback := hcell _ h
    rw [if_pos rfl] at hback
    cases hback

end Dbx.Csv
