import Dbx.Csv.Export
import Mathlib.Data.List.Nodup
import Mathlib.Data.List.Perm.Subperm
import Mathlib.Data.Nat.Find

/-!
# Reading CSV

An import takes the records of a file for the titles of columns and for rows of cells, by the
numbers of the records. A field that is the literal of NULL gives NULL, every other one a string.

## Main results

* `csvValueWithConfig_cellText`: the value a written cell comes back as
* `uniqueImportHeaders_nodup`: the titles name columns with different names
* `readRecords_data`: what is read of records with data
-/

namespace Dbx.Csv

open Text Rfc4180 Json List

/-- `TableImportSourceFormat`. -/
inductive TableImportSourceFormat
  | csv
  | tsv
  | delimited
  | json
  | excel
  | sql
  | parquet
  deriving DecidableEq, Repr

/-- `TableImportParseOptions`, as far as texts with delimiters depend on it. -/
structure TableImportParseOptions where
  delimiter : Option Text := none
  decimalSeparator : Option Text := none
  hasHeader : Option Bool := none
  titleRow : Option Nat := none
  dataStartRow : Option Nat := none
  lastDataRow : Option Nat := none
  trimValues : Option Bool := some false
  emptyStringAsNull : Option Bool := some true
  nullLiteral : Option Text := none
  deriving DecidableEq, Repr

/-- `ImportRowRange`. -/
structure ImportRowRange where
  titleRow : Option Nat
  dataStartRow : Nat
  lastDataRow : Option Nat
  deriving DecidableEq, Repr

/-- `DelimitedParseConfig`. -/
structure DelimitedParseConfig where
  delimiter : Char
  decimalSeparator : Char
  trimValues : Bool
  emptyStringAsNull : Bool
  nullLiteral : Option Text
  rowRange : ImportRowRange
  deriving DecidableEq, Repr

/-- `effective_delimited_null_literal`. -/
def effectiveDelimitedNullLiteral : Option Text → Option Text
  | none => some defaultCsvNullLiteral
  | some raw => csvNullLiteral raw

/-- `effective_import_row_range`. -/
def effectiveImportRowRange (options : TableImportParseOptions) : Except String ImportRowRange :=
  let titleRow := match options.titleRow with
    | some 0 => none
    | some row => some row
    | none => if options.hasHeader.getD true then some 1 else none
  let dataStartRow := options.dataStartRow.getD (titleRow.elim 1 (· + 1))
  let lastDataRow := options.lastDataRow.filter (0 < ·)
  if dataStartRow = 0 then .error "Data start row must be at least 1"
  else if titleRow.any (dataStartRow ≤ ·) then
    .error "Title row must be before the data start row"
  else if lastDataRow.any (· < dataStartRow) then
    .error "Last data row must be 0 or not less than the data start row"
  else .ok ⟨titleRow, dataStartRow, lastDataRow⟩

/-- The delimiter of a source format, where no other one is chosen. -/
def defaultDelimiter : TableImportSourceFormat → Char
  | .tsv => '\t'
  | _ => ','

/-- The delimiter that is in effect. -/
def effectiveDelimiter (sourceFormat : TableImportSourceFormat) :
    Option Text → Except String Char
  | none => .ok (defaultDelimiter sourceFormat)
  | some value =>
    if value.isEmpty then .ok (defaultDelimiter sourceFormat)
    else if value ∈ ["\\t".toList, "tab".toList, "TAB".toList] then .ok '\t'
    else match value with
      | [c] =>
        if c.utf8Size = 1 then .ok c else .error "Delimiter must be a single-byte character"
      | _ => .error "Delimiter must be a single-byte character"

/-- The decimal separator that is in effect. -/
def effectiveDecimalSeparator : Option Text → Except String Char
  | none => .ok '.'
  | some value =>
    if value = ['.'] then .ok '.'
    else if value = [','] then .ok ','
    else .error "Decimal separator must be '.' or ','"

/-- `effective_delimited_config`. -/
def effectiveDelimitedConfig (sourceFormat : TableImportSourceFormat)
    (options : TableImportParseOptions) : Except String DelimitedParseConfig := do
  let delimiter ← effectiveDelimiter sourceFormat options.delimiter
  let nullLiteral := effectiveDelimitedNullLiteral options.nullLiteral
  let decimalSeparator ← effectiveDecimalSeparator options.decimalSeparator
  let rowRange ← effectiveImportRowRange options
  return {
    delimiter
    decimalSeparator
    trimValues := options.trimValues.getD false
    -- with a literal of NULL, an empty field is an empty string
    emptyStringAsNull := nullLiteral.isNone && options.emptyStringAsNull.getD true
    nullLiteral
    rowRange }

/-- `unwrap_csv_force_text`: older exports wrote `="…"` around times. -/
def unwrapCsvForceText (value : Text) : Text :=
  match (stripPrefix ['=', '"'] value).bind (stripSuffix ['"']) with
  | some inner => if '"' ∈ inner then value else inner
  | none => value

/-- An exponent, or nothing. -/
def isExponentOrEmpty : Text → Bool
  | [] => true
  | e :: rest =>
    let digits := if rest.head? = some '+' || rest.head? = some '-' then rest.drop 1 else rest
    (e = 'e' || e = 'E') && !digits.isEmpty && digits.all Char.isDigit

/-- `COMMA_DECIMAL`: a number with a decimal comma. -/
def isCommaDecimal (value : Text) : Bool :=
  let unsigned := if value.head? = some '+' || value.head? = some '-' then value.drop 1 else value
  let whole := unsigned.takeWhile Char.isDigit
  match unsigned.dropWhile Char.isDigit with
  | ',' :: fraction =>
    (!whole.isEmpty || fraction.head?.any Char.isDigit) &&
      isExponentOrEmpty (fraction.dropWhile Char.isDigit)
  | rest => !whole.isEmpty && isExponentOrEmpty rest

/-- `csv_value_with_config`. -/
def csvValueWithConfig (value : Text) (config : DelimitedParseConfig) : Value :=
  let value := unwrapCsvForceText (if config.trimValues then trim value else value)
  if config.nullLiteral = some value then .null
  else if config.emptyStringAsNull && value.isEmpty then .null
  else if config.decimalSeparator = ',' && ',' ∈ value && isCommaDecimal value then
    .string (replaceChar ',' ['.'] value)
  else .string value

def generatedColumn (index : Nat) : Text := "column_".toList ++ (toString (index + 1)).toList

/-- `normalize_header`. -/
def normalizeHeader (value : Text) (index : Nat) : Text :=
  let trimmed := trim value
  if trimmed.isEmpty then generatedColumn index else trimmed

section Headers

variable (toLowercase : Text → Text)

/-- The loop of `unique_import_headers` for one title: the name with the first suffix that makes it
a new one, and the suffix to go on with. As many names as are taken and one more are tried. -/
def uniqueImportHeader (seen : List Text) (header : Text) : Nat → Nat → Text × Nat
  | 0, suffix => (header, suffix)
  | fuel + 1, suffix =>
    let candidate := if suffix = 0 then header else header ++ '_' :: (toString suffix).toList
    if toLowercase candidate ∈ seen then uniqueImportHeader seen header fuel (suffix + 1)
    else (candidate, suffix + 1)

/-- `unique_import_headers`, from the names that are taken and the suffixes to go on with. -/
def uniqueImportHeadersFrom (seen : List Text) (nextSuffix : Text → Nat) :
    List Text → List Text
  | [] => []
  | header :: headers =>
    let key := toLowercase header
    let unique := uniqueImportHeader toLowercase seen header (seen.length + 1) (nextSuffix key)
    unique.1 :: uniqueImportHeadersFrom (toLowercase unique.1 :: seen)
      (fun other => if other = key then unique.2 else nextSuffix other) headers

/-- `unique_import_headers`. -/
def uniqueImportHeaders (headers : List Text) : List Text :=
  uniqueImportHeadersFrom toLowercase [] (fun _ => 0) headers

/-- The columns that a record of titles names. -/
def titleColumns (record : List Text) : List Text :=
  uniqueImportHeaders toLowercase
    (record.mapIdx fun index header =>
      normalizeHeader (header.dropWhile (·.toNat == 0xFEFF)) index)

/-- `delimited_record_to_row`. -/
def delimitedRecordToRow (record : List Text) (columnsLen : Nat) (config : DelimitedParseConfig) :
    List Value :=
  (List.range columnsLen).map fun index =>
    (record[index]?).elim .null (csvValueWithConfig · config)

/-- `ParsedImportFile`, and what is read of one. -/
structure ParsedImportFile where
  columns : List Text
  rows : List (List Value)
  totalRows : Nat

/-- The loop of `parse_csv_reader_inner`, behind a number of records. -/
def readRecords (config : DelimitedParseConfig) (previewLimit : Nat) (countAllRows : Bool) :
    Nat → ParsedImportFile → List (List Text) → ParsedImportFile
  | _, file, [] => file
  | index, file, record :: records =>
    let rowNumber := index + 1
    if config.rowRange.titleRow = some rowNumber then
      readRecords config previewLimit countAllRows rowNumber
        { file with columns := titleColumns toLowercase record } records
    else if rowNumber < config.rowRange.dataStartRow then
      readRecords config previewLimit countAllRows rowNumber file records
    else if config.rowRange.lastDataRow.any (· < rowNumber) then file
    else
      let columns := if file.columns.isEmpty then (List.range record.length).map generatedColumn
        else file.columns
      let rows := if file.rows.length < previewLimit then
          file.rows ++ [delimitedRecordToRow record columns.length config]
        else file.rows
      let file := { columns, rows, totalRows := file.totalRows + 1 }
      if !countAllRows && previewLimit ≤ rows.length then file
      else readRecords config previewLimit countAllRows rowNumber file records

/-- `parse_csv_reader_inner`, of the records that the reader gives. -/
def parseCsvReaderInner (config : DelimitedParseConfig) (previewLimit : Nat)
    (countAllRows : Bool) (records : List (List Text)) : Except String ParsedImportFile :=
  let file := readRecords toLowercase config previewLimit countAllRows 0 ⟨[], [], 0⟩ records
  if file.columns.isEmpty then .error "Import file has no columns in the selected row range"
  else if file.totalRows = 0 then
    .error "Import file has no data rows in the selected row range"
  else .ok file

/-- `parse_csv_reader`: every row is counted, and rows are kept up to a limit. -/
def parseCsvReader (config : DelimitedParseConfig) (previewLimit : Nat) (text : Text) :
    Except String ParsedImportFile :=
  parseCsvReaderInner toLowercase config previewLimit true (records config.delimiter text)

end Headers

/-- The default configuration of an import. -/
def defaultConfig : DelimitedParseConfig where
  delimiter := ','
  decimalSeparator := '.'
  trimValues := false
  emptyStringAsNull := false
  nullLiteral := some defaultCsvNullLiteral
  rowRange := ⟨some 1, 2, none⟩

/-! ## The value of a field -/

/-- Only what starts with an equals sign is unwrapped. -/
theorem unwrapCsvForceText_of_head {value : Text} (h : value.head? ≠ some '=') :
    unwrapCsvForceText value = value := by
  have hnone : stripPrefix ['=', '"'] value = none := by
    rw [stripPrefix_eq_none]
    rintro ⟨rest, rfl⟩
    exact h rfl
  rw [unwrapCsvForceText, hnone]
  rfl

theorem formulaGuard_eq (value : Text) : formulaGuard value = ['\''] ∨ formulaGuard value = [] := by
  unfold formulaGuard
  repeat' split
  all_goals simp

/-- No written string starts with an equals sign. -/
theorem head_formulaGuard_append (value : Text) :
    (formulaGuard value ++ value).head? ≠ some '=' := by
  rcases formulaGuard_eq value with hguard | hguard
  · simp [hguard]
  · -- without a guard the string itself does not start with one
    intro hhead
    rw [hguard, head?_eq_some_iff] at hhead
    obtain ⟨rest, rfl⟩ := hhead
    cases hguard

/-- A written string is the literal of NULL only where the string is. -/
theorem formulaGuard_append_eq_literal {value : Text} :
    formulaGuard value ++ value = defaultCsvNullLiteral ↔ value = defaultCsvNullLiteral := by
  have hliteral : formulaGuard defaultCsvNullLiteral = [] := by decide
  constructor
  · intro h
    rcases formulaGuard_eq value with hguard | hguard
    · rw [hguard] at h
      cases h
    · rwa [hguard] at h
  · rintro rfl
    rw [hliteral, nil_append]

/-- **The value a written string comes back as**: NULL for the literal of NULL, and otherwise the
string with its guard. -/
theorem csvValueWithConfig_formulaGuard (value : Text) :
    csvValueWithConfig (formulaGuard value ++ value) defaultConfig =
      if value = defaultCsvNullLiteral then .null else .string (formulaGuard value ++ value) := by
  have hunwrap := unwrapCsvForceText_of_head (head_formulaGuard_append value)
  by_cases hvalue : value = defaultCsvNullLiteral
  · subst hvalue
    rfl
  · have hne : defaultCsvNullLiteral ≠ formulaGuard value ++ value := fun h =>
      hvalue (formulaGuard_append_eq_literal.mp h.symm)
    simp [csvValueWithConfig, defaultConfig, hunwrap, hvalue, hne]

/-! ## The names of the columns -/

section Names

variable {toLowercase : Text → Text}

/-- A title with a suffix, and without one where it is zero. -/
def suffixed (header : Text) (suffix : Nat) : Text :=
  if suffix = 0 then header else header ++ '_' :: (toString suffix).toList

/-- The search ends at the first name that is free. -/
theorem uniqueImportHeader_eq {seen : List Text} {header : Text} {suffix n fuel : Nat}
    (hfree : toLowercase (suffixed header (suffix + n)) ∉ seen)
    (htaken : ∀ m < n, toLowercase (suffixed header (suffix + m)) ∈ seen) (hfuel : n < fuel) :
    uniqueImportHeader toLowercase seen header fuel suffix =
      (suffixed header (suffix + n), suffix + n + 1) := by
  induction n generalizing suffix fuel with
  | zero =>
    obtain ⟨fuel, rfl⟩ := Nat.exists_eq_succ_of_ne_zero hfuel.ne'
    exact if_neg hfree
  | succ n ih =>
    obtain ⟨fuel, rfl⟩ := Nat.exists_eq_succ_of_ne_zero (Nat.ne_zero_of_lt hfuel)
    have hnext : uniqueImportHeader toLowercase seen header (fuel + 1) suffix =
        uniqueImportHeader toLowercase seen header fuel (suffix + 1) :=
      if_pos (htaken 0 n.succ_pos)
    rw [hnext, ih _ _ (Nat.lt_of_succ_lt_succ hfuel), Nat.add_right_comm, Nat.add_assoc]
    · rwa [Nat.add_right_comm, Nat.add_assoc]
    · intro m hm
      rw [Nat.add_right_comm, Nat.add_assoc]
      exact htaken (m + 1) (Nat.succ_lt_succ hm)

section Suffixes

variable (hsuffix : ∀ header (n : Nat), toLowercase (header ++ '_' :: (toString n).toList) =
  toLowercase header ++ '_' :: (toString n).toList)
include hsuffix

theorem suffixed_injective (header : Text) :
    Function.Injective fun n => toLowercase (suffixed header n) := by
  intro m n h
  simp only [suffixed] at h
  split at h <;> split at h
  · omega
  · rw [hsuffix] at h
    simp at h
  · rw [hsuffix] at h
    simp at h
  · rw [hsuffix, hsuffix, append_cancel_left_eq, cons_inj_right] at h
    simpa using congrArg (Nat.ofDigitChars 10 · 0) h

/-- Among as many names as are taken and one more, one is free. -/
theorem exists_free (seen : List Text) (header : Text) (suffix : Nat) :
    ∃ n ≤ seen.length, toLowercase (suffixed header (suffix + n)) ∉ seen ∧
      ∀ m < n, toLowercase (suffixed header (suffix + m)) ∈ seen := by
  have hsome : ∃ n, n ≤ seen.length ∧ toLowercase (suffixed header (suffix + n)) ∉ seen := by
    by_contra! htaken
    have hnodup : ((range (seen.length + 1)).map fun n =>
        toLowercase (suffixed header (suffix + n))).Nodup :=
      Nodup.map ((suffixed_injective hsuffix header).comp (add_right_injective suffix)) nodup_range
    have hsubset : ((range (seen.length + 1)).map fun n =>
        toLowercase (suffixed header (suffix + n))) ⊆ seen := by
      rw [subset_def, forall_mem_map]
      exact fun n hn => htaken n (Nat.lt_succ_iff.mp (mem_range.mp hn))
    have hle := (hnodup.subperm hsubset).length_le
    rw [length_map, length_range] at hle
    omega
  obtain ⟨hle, hfree⟩ := Nat.find_spec hsome
  refine ⟨Nat.find hsome, hle, hfree, fun m hm => ?_⟩
  by_contra hmem
  exact Nat.find_min hsome hm ⟨hm.le.trans hle, hmem⟩

theorem uniqueImportHeadersFrom_spec {seen : List Text} (hseen : seen.Nodup)
    (nextSuffix : Text → Nat) (headers : List Text) :
    ((uniqueImportHeadersFrom toLowercase seen nextSuffix headers).map toLowercase ++ seen).Nodup ∧
      Forall₂ (fun header name => ∃ n, name = suffixed header n) headers
        (uniqueImportHeadersFrom toLowercase seen nextSuffix headers) := by
  induction headers generalizing seen nextSuffix with
  | nil => exact ⟨hseen, .nil⟩
  | cons header headers ih =>
    obtain ⟨n, hle, hfree, htaken⟩ :=
      exists_free hsuffix seen header (nextSuffix (toLowercase header))
    have hname := uniqueImportHeader_eq hfree htaken (Nat.lt_succ_of_le hle)
    rw [uniqueImportHeadersFrom, hname]
    obtain ⟨hnodup, hnames⟩ := ih (nodup_cons.mpr ⟨hfree, hseen⟩) _
    exact ⟨perm_middle.nodup_iff.mp hnodup, .cons ⟨_, rfl⟩ hnames⟩

/-- **The names of the columns differ, whatever the titles are**: the search for each ends at the
first suffix whose name is free, of which there is one up to the number of the names that are taken,
and the names are the titles, with or without a number. -/
theorem uniqueImportHeaders_nodup (headers : List Text) :
    (∀ seen header suffix, ∃ n ≤ seen.length,
        toLowercase (suffixed header (suffix + n)) ∉ seen ∧
        (∀ m < n, toLowercase (suffixed header (suffix + m)) ∈ seen) ∧
        ∀ fuel, n < fuel → uniqueImportHeader toLowercase seen header fuel suffix =
          (suffixed header (suffix + n), suffix + n + 1)) ∧
      (uniqueImportHeaders toLowercase headers).length = headers.length ∧
      ((uniqueImportHeaders toLowercase headers).map toLowercase).Nodup ∧
      Forall₂ (fun header name => ∃ n, name = suffixed header n) headers
        (uniqueImportHeaders toLowercase headers) := by
  obtain ⟨hnodup, hnames⟩ := uniqueImportHeadersFrom_spec hsuffix nodup_nil (fun _ => 0) headers
  rw [append_nil] at hnodup
  refine ⟨fun seen header suffix => ?_, hnames.length_eq.symm, hnodup, hnames⟩
  obtain ⟨n, hle, hfree, htaken⟩ := exists_free hsuffix seen header suffix
  exact ⟨n, hle, hfree, htaken, fun _ hfuel => uniqueImportHeader_eq hfree htaken hfuel⟩

end Suffixes

theorem uniqueImportHeaders_nodup_ascii :
    uniqueImportHeaders toAsciiLowercase ["a".toList, "A_1".toList, "A".toList] =
        ["a".toList, "A_1".toList, "A_2".toList] ∧
      ((uniqueImportHeaders toAsciiLowercase ["a".toList, "A_1".toList, "A".toList]).map
        toAsciiLowercase).Nodup := by
  refine ⟨by decide, (uniqueImportHeaders_nodup (fun header n => ?_) _).2.2.1⟩
  have hlower (c : Char) : c.isDigit → c.toLower = c :=
    forall_toLower (Q := fun c d => c.isDigit → d = c) (by decide) (fun _ _ _ => rfl) c
  have hdigits : ∀ c ∈ Nat.toDigits 10 n, c.toLower = id c := fun c hc =>
    hlower c (Nat.isDigit_of_mem_toDigits (by omega) (by omega) hc)
  simp [toAsciiLowercase, map_congr_left hdigits]

end Names

/-! ## The rows of a file -/

section Rows

variable {toLowercase : Text → Text}

theorem length_uniqueImportHeadersFrom (seen : List Text) (nextSuffix : Text → Nat)
    (headers : List Text) :
    (uniqueImportHeadersFrom toLowercase seen nextSuffix headers).length = headers.length := by
  induction headers generalizing seen nextSuffix with
  | nil => rfl
  | cons header headers ih => rw [uniqueImportHeadersFrom, length_cons, ih, length_cons]

theorem length_titleColumns (record : List Text) :
    (titleColumns toLowercase record).length = record.length := by
  rw [titleColumns, uniqueImportHeaders, length_uniqueImportHeadersFrom, length_mapIdx]

theorem delimitedRecordToRow_eq (record : List Text) (config : DelimitedParseConfig) :
    delimitedRecordToRow record record.length config =
      record.map (csvValueWithConfig · config) := by
  apply ext_getElem
  · simp [delimitedRecordToRow]
  · intro i _ hi
    have hi : i < record.length := by simpa using hi
    simp [delimitedRecordToRow, getElem?_eq_getElem hi]

/-- **What is read of records with data**: each is counted, or those up to the limit, and rows are
kept up to the limit. -/
theorem readRecords_data (previewLimit : Nat) (countAllRows : Bool) (records : List (List Text))
    {index : Nat} {file : ParsedImportFile} (hindex : 1 ≤ index) (hcolumns : file.columns ≠ [])
    (hopen : countAllRows ∨ file.rows.length < previewLimit) :
    readRecords toLowercase defaultConfig previewLimit countAllRows index file records =
      { file with
        rows := file.rows ++ (records.map
          (delimitedRecordToRow · file.columns.length defaultConfig)).take
            (previewLimit - file.rows.length)
        totalRows := file.totalRows + if countAllRows then records.length
          else min records.length (previewLimit - file.rows.length) } := by
  induction records generalizing index file with
  | nil => simp [readRecords]
  | cons record records ih =>
    have htitle : defaultConfig.rowRange.titleRow ≠ some (index + 1) := by
      rintro ⟨⟩
      omega
    have hstart : ¬ index + 1 < defaultConfig.rowRange.dataStartRow := by
      change ¬ index + 1 < 2
      omega
    have hlast : ¬ defaultConfig.rowRange.lastDataRow.any (· < index + 1) := Bool.false_ne_true
    have hkept : ¬ file.columns.isEmpty := by simpa using hcolumns
    simp only [readRecords, if_neg htitle, if_neg hstart, if_neg hlast, if_neg hkept]
    by_cases hroom : file.rows.length < previewLimit
    · obtain ⟨k, hk⟩ : ∃ k, previewLimit - file.rows.length = k + 1 := ⟨_, (by omega :
        previewLimit - file.rows.length = previewLimit - file.rows.length - 1 + 1)⟩
      rw [if_pos hroom, hk, length_cons]
      split
      · -- the record fills the preview
        next hstop =>
        obtain ⟨hcount, hfull⟩ : countAllRows = false ∧ previewLimit ≤ file.rows.length + 1 := by
          simpa using hstop
        obtain rfl : k = 0 := by omega
        simp [hcount]
      · next hgo =>
        have hgo : countAllRows ∨ file.rows.length + 1 < previewLimit := by
          simpa [Decidable.imp_iff_not_or] using hgo
        have hrest := @ih (index + 1) ⟨file.columns, file.rows ++ [delimitedRecordToRow record
          file.columns.length defaultConfig], file.totalRows + 1⟩ (by omega) hcolumns
          (by simpa using hgo)
        rw [hrest]
        have hk' : previewLimit - (file.rows.length + 1) = k := by omega
        cases countAllRows
        · simp only [length_append, length_singleton, hk', append_assoc,
            singleton_append, Bool.false_eq_true, if_false]
          congr 1
          omega
        · simp only [length_append, length_singleton, hk', append_assoc, singleton_append, if_true]
          congr 1
          omega
    · -- rows are only counted
      have hcount : countAllRows := by
        rcases hopen with hcount | hroom'
        · exact hcount
        · exact absurd hroom' hroom
      subst hcount
      have hfull : previewLimit - file.rows.length = 0 := by omega
      have hrest := @ih (index + 1) ⟨file.columns, file.rows, file.totalRows + 1⟩ (by omega)
        hcolumns (.inl rfl)
      rw [if_neg hroom, if_neg (by simp), hrest]
      simp only [hfull, take_zero, append_nil, if_true, length_cons]
      congr 1
      omega

end Rows

end Dbx.Csv
