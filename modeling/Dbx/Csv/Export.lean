import Dbx.Json.Value
import Dbx.Rfc4180.Reader

/-!
# Writing CSV

A query result is written with its columns in the first line and each row in a line of its own.
Strings are put in quotes, and those that a spreadsheet would take for a formula get an apostrophe
before them. NULL is written as a literal without quotes, so that it differs from an empty string.
-/

namespace Dbx.Csv

open Text Rfc4180 Json List

/-- `CsvQuoteMode`. -/
inductive CsvQuoteMode
  | all
  | necessary
  deriving DecidableEq, Repr

/-- `DEFAULT_CSV_NULL_LITERAL`. -/
def defaultCsvNullLiteral : Text := ['\\', 'N']

/-- `csv_null_literal`. -/
def csvNullLiteral (raw : Text) : Option Text := if raw.isEmpty then none else some raw

/-- `FORMULA_TRIGGER_BYTES`. -/
def formulaTriggerBytes : List Char := ['=', '+', '-', '@', '\t', '\r']

/-- `EXCEL_SIGNIFICANT_DIGIT_LIMIT`. -/
def excelSignificantDigitLimit : Nat := 15

/-- `at_sign_begins_excel_formula`. -/
def atSignBeginsExcelFormula (rest : Text) : Bool := rest.head?.any fun c => c.toNat < 128

/-- `is_excel_exact_decimal_literal`. -/
def isExcelExactDecimalLiteral (value : Text) : Bool :=
  let digits := if value.head? = some '+' || value.head? = some '-' then value.drop 1 else value
  let validDigits (part : Text) : Bool := !part.isEmpty && part.all Char.isDigit
  let valid := match splitOnce '.' digits with
    | some (whole, fraction) => validDigits whole && validDigits fraction
    | none => validDigits digits
  -- zeros count once a digit other than zero has appeared in either part
  valid && ((digits.filter (· != '.')).dropWhile (· == '0')).length ≤ excelSignificantDigitLimit

/-- `needs_formula_guard`. -/
def needsFormulaGuard (value : Text) : Bool :=
  match value.dropWhile (· == ' ') with
  | [] => false
  | c :: rest =>
    if c = '-' && isExcelExactDecimalLiteral rest then false
    else if c = '@' && !atSignBeginsExcelFormula rest then false
    else c ∈ formulaTriggerBytes

/-- What `push_formula_guard` writes before a value. -/
def formulaGuard (value : Text) : Text :=
  if value.head? = some '\'' then
    if (value.drop 1).head? = some '\'' || needsFormulaGuard (value.drop 1) then ['\''] else []
  else if needsFormulaGuard value then ['\''] else []

/-- `push_csv_escaped_content`. -/
def csvEscapedContent (value : Text) : Text := replaceChar '"' ['"', '"'] value

/-- `csv_field_needs_quotes`. -/
def csvFieldNeedsQuotes (value : Text) : Bool :=
  value.any fun c => c = ',' || c = '"' || c = '\n' || c = '\r'

/-- `push_csv_field`. -/
def csvField (value : Text) (quoteMode : CsvQuoteMode) : Text :=
  if quoteMode = .all || csvFieldNeedsQuotes value then
    '"' :: formulaGuard value ++ csvEscapedContent value ++ ['"']
  else formulaGuard value ++ value

/-- `push_csv_text_value`. -/
def csvTextValue (value : Value) : Text :=
  '"' :: (match value with
    | .null => []
    | .string s => formulaGuard s ++ csvEscapedContent s
    | .bool b => stringify (.bool b)
    | .number n => n.digits
    | other => csvEscapedContent (stringify other)) ++ ['"']

/-- `push_csv_value_with_quote_mode`, where the value has no literal of its own. -/
def csvPlainValue (value : Value) (quoteMode : CsvQuoteMode) (quoteNull : Bool) : Text :=
  match quoteMode, value with
  | .all, .null => if quoteNull then csvTextValue .null else []
  | .all, value => csvTextValue value
  | .necessary, .null => []
  | .necessary, .string s => csvField s .necessary
  | .necessary, .bool b => stringify (.bool b)
  | .necessary, .number n => n.digits
  | .necessary, other => csvField (stringify other) .necessary

/-- `push_csv_value_with_quote_mode`. -/
def csvValueWithQuoteMode (value : Value) (quoteMode : CsvQuoteMode) (quoteNull : Bool)
    (nullLiteral : Option Text) : Text :=
  match value, nullLiteral with
  -- the literal stays bare, as other readers take a quoted one for a string
  | .null, some literal => csvField literal .necessary
  | value, _ => csvPlainValue value quoteMode quoteNull

/-- `push_query_result_csv_row_with_options`. -/
def queryResultCsvRow (row : List Value) (quoteMode : CsvQuoteMode) (nullLiteral : Option Text) :
    Text :=
  [','].intercalate (row.map fun cell => csvValueWithQuoteMode cell quoteMode false nullLiteral)

/-- `format_csv_with_options`. -/
def formatCsvWithOptions (columns : List Text) (rows : List (List Value))
    (quoteMode : CsvQuoteMode) (nullLiteral : Option Text) : Text :=
  [','].intercalate (columns.map (csvField · quoteMode)) ++ '\n' ::
    ['\n'].intercalate (rows.map (queryResultCsvRow · quoteMode nullLiteral))

/-- A query result written under default options. -/
def formatCsv (columns : List Text) (rows : List (List Value)) : Text :=
  formatCsvWithOptions columns rows .all (csvNullLiteral defaultCsvNullLiteral)

/-- The guard has no quotes, so that it stays as it is among quotes. -/
theorem csvEscapedContent_formulaGuard (value : Text) :
    formulaGuard value ++ csvEscapedContent value =
      csvEscapedContent (formulaGuard value ++ value) := by
  have hguard : csvEscapedContent (formulaGuard value) = formulaGuard value := by
    unfold formulaGuard
    repeat' split
    all_goals rfl
  rw [csvEscapedContent, csvEscapedContent, replaceChar, replaceChar, flatMap_append]
  exact congrArg (· ++ _) hguard.symm

/-- A column is read back with its guard. -/
theorem written_csvField (value : Text) :
    Written ',' (csvField value .all) (formulaGuard value ++ value) := by
  have hquote : csvField value .all = quote (formulaGuard value ++ value) := by
    rw [csvField, cons_append, csvEscapedContent_formulaGuard]
    rfl
  rw [hquote]
  exact .quoted _

/-- A cell that is a string or NULL. -/
def cellValue : Option Text → Value
  | none => .null
  | some s => .string s

/-- What a reader takes a cell for. -/
def cellText : Option Text → Text
  | none => defaultCsvNullLiteral
  | some s => formulaGuard s ++ s

/-- **A cell is read back as its text with the guard, or as the literal of NULL.** -/
theorem written_cell (cell : Option Text) :
    Written ',' (csvValueWithQuoteMode (cellValue cell) .all false
      (csvNullLiteral defaultCsvNullLiteral)) (cellText cell) := by
  cases cell with
  | none => exact .bare (by decide) (by decide)
  | some s => exact written_csvField s

/-! ## Taking the guard off -/

/-- `strip_formula_guard`. -/
def stripFormulaGuard (value : Text) : Text :=
  if value.head? = some '\'' &&
      ((value.drop 1).head? = some '\'' || needsFormulaGuard (value.drop 1)) then value.drop 1
  else value

theorem stripFormulaGuard_append (value : Text) :
    stripFormulaGuard (formulaGuard value ++ value) = value := by
  unfold formulaGuard
  split
  · next hquote =>
    -- a literal apostrophe is doubled exactly where one would be taken off
    split
    · simp [stripFormulaGuard, hquote]
    · next hplain => exact if_neg fun h => hplain (Bool.and_eq_true_iff.mp h).2
  · next hquote =>
    split
    · next hneeds => simp [stripFormulaGuard, hneeds]
    · simp [stripFormulaGuard, hquote]

/-- Digits, perhaps with one point that has digits on both sides, within the limit. -/
def isUnsignedDecimal (text : Text) : Bool :=
  text.all (fun c => c.isDigit || c = '.') && text.count '.' ≤ 1 &&
    text.head?.any Char.isDigit && text.getLast?.any Char.isDigit &&
    ((text.filter (· != '.')).dropWhile (· == '0')).length ≤ excelSignificantDigitLimit

/-- A text that a spreadsheet does not evaluate: behind its blanks no trigger, a number with a minus
sign, or an at sign with nothing to bind to. -/
def isInert (value : Text) : Bool :=
  match value.dropWhile (· == ' ') with
  | [] => true
  | c :: rest => c ∉ formulaTriggerBytes || (c = '-' && isUnsignedDecimal rest) ||
      (c = '@' && !atSignBeginsExcelFormula rest)

def hasSign (text : Text) : Bool := text.head? = some '+' || text.head? = some '-'

/-- A minus sign before a number that has a sign. -/
def isTwiceSigned (value : Text) : Bool :=
  match value.dropWhile (· == ' ') with
  | '-' :: rest => hasSign rest && isExcelExactDecimalLiteral rest
  | _ => false

theorem isUnsignedDecimal_of_literal {text : Text} (hsign : hasSign text = false)
    (h : isExcelExactDecimalLiteral text) : isUnsignedDecimal text := by
  unfold isExcelExactDecimalLiteral at h
  rw [← hasSign, hsign] at h
  simp only [Bool.false_eq_true, if_false, Bool.and_eq_true] at h
  obtain ⟨hvalid, hlimit⟩ := h
  -- a part of the literal has digits only, and at least one
  have hdigits {part : Text} (hpart : (!part.isEmpty && part.all Char.isDigit) = true) :
      part.all (fun c => c.isDigit || c = '.') ∧ part.count '.' = 0 ∧
        (∃ first, part.head? = some first ∧ first.isDigit) ∧
        ∃ last, part.getLast? = some last ∧ last.isDigit := by
    obtain ⟨hne, hpart⟩ := Bool.and_eq_true_iff.mp hpart
    rw [all_eq_true] at hpart
    have hne : part ≠ [] := by simpa using hne
    refine ⟨List.all_eq_true.mpr fun c hc => by simp [hpart c hc], ?_, ?_, ?_⟩
    · exact count_eq_zero_of_not_mem fun hmem => absurd (hpart '.' hmem) (by decide)
    · exact ⟨_, head?_eq_some_head hne, hpart _ (head_mem hne)⟩
    · exact ⟨_, getLast?_eq_some_getLast hne, hpart _ (getLast_mem hne)⟩
  rw [isUnsignedDecimal, Bool.and_eq_true]
  refine ⟨?_, hlimit⟩
  split at hvalid
  · next whole fraction hsplit =>
    obtain ⟨rfl, -⟩ := splitOnce_eq_some.mp hsplit
    rw [Bool.and_eq_true] at hvalid
    obtain ⟨hwhole, hcount, ⟨first, hfirst, hdigit⟩, -⟩ := hdigits hvalid.1
    obtain ⟨hfraction, hcount', -, last, hlast, hdigit'⟩ := hdigits hvalid.2
    simp [hwhole, hfraction, hcount, hcount', hfirst, hdigit, getLast?_cons, hlast, hdigit',
      -all_eq_true]
  · obtain ⟨hall, hcount, ⟨first, hfirst, hdigit⟩, last, hlast, hdigit'⟩ := hdigits hvalid
    simp [hall, hcount, hfirst, hdigit, hlast, hdigit', -all_eq_true]

theorem not_isUnsignedDecimal_of_hasSign {text : Text} (h : hasSign text) :
    isUnsignedDecimal text = false := by
  simp only [hasSign, Bool.or_eq_true, decide_eq_true_eq, head?_eq_some_iff] at h
  obtain ⟨rest, rfl⟩ | ⟨rest, rfl⟩ := h
  · rfl
  · rfl

variable {value : Text}

theorem isInert_iff_of_not_needsFormulaGuard (h : needsFormulaGuard value = false) :
    isInert value ↔ isTwiceSigned value = false := by
  unfold needsFormulaGuard at h
  unfold isInert isTwiceSigned
  cases hrest : value.dropWhile (· == ' ') with
  | nil => simp
  | cons c rest =>
    rw [hrest] at h
    by_cases hminus : c = '-'
    · subst hminus
      have hliteral : isExcelExactDecimalLiteral rest := by
        by_contra hnot
        simp [hnot, formulaTriggerBytes] at h
      cases hsign : hasSign rest with
      | true => simp [hsign, hliteral, not_isUnsignedDecimal_of_hasSign hsign, formulaTriggerBytes]
      | false => simp [hsign, isUnsignedDecimal_of_literal hsign hliteral]
    · have hinert : c ∉ formulaTriggerBytes ∨ c = '@' ∧ atSignBeginsExcelFormula rest = false := by
        by_contra hnot
        rw [not_or] at hnot
        simp [hminus, hnot] at h
      simpa [hminus] using hinert

theorem needsFormulaGuard_eq_false (h : formulaGuard value = []) :
    needsFormulaGuard value = false := by
  unfold formulaGuard at h
  split at h
  · next hquote =>
    obtain ⟨rest, rfl⟩ := List.head?_eq_some_iff.mp hquote
    rfl
  · split at h
    · cases h
    · next hneeds => simpa using hneeds

theorem formulaGuard_of_isTwiceSigned (h : isTwiceSigned value) :
    formulaGuard value = [] := by
  unfold isTwiceSigned at h
  split at h
  · next rest hrest =>
    have hneeds : needsFormulaGuard value = false := by
      simp [needsFormulaGuard, hrest, (Bool.and_eq_true_iff.mp h).2]
    have hquote : value.head? ≠ some '\'' := by
      rintro hquote
      obtain ⟨after, rfl⟩ := List.head?_eq_some_iff.mp hquote
      cases hrest
    simp [formulaGuard, hquote, hneeds]
  · cases h

/-- **The guard can be taken off again, and what has none is inert**, unless it is a number with two
signs. -/
theorem formulaGuard_sound_iff (value : Text) :
    (stripFormulaGuard (formulaGuard value ++ value) = value ∧
      (formulaGuard value = [] → isInert value = true)) ↔ isTwiceSigned value = false := by
  constructor
  · rintro ⟨-, hinert⟩
    by_contra htwice
    have hguard := formulaGuard_of_isTwiceSigned (by simpa using htwice)
    exact htwice ((isInert_iff_of_not_needsFormulaGuard
      (needsFormulaGuard_eq_false hguard)).mp (hinert hguard))
  · intro htwice
    refine ⟨stripFormulaGuard_append value, fun hguard => ?_⟩
    exact (isInert_iff_of_not_needsFormulaGuard (needsFormulaGuard_eq_false hguard)).mpr htwice

theorem not_isInert_twoSigns : formulaGuard "-+5".toList = [] ∧ isInert "-+5".toList = false := by
  decide

end Dbx.Csv
