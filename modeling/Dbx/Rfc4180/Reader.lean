import Mathlib.Data.List.Forall2
import Dbx.Text.Basic

/-!
# Reading comma-separated values

A reader takes a text for records of fields. A field in quotes holds any characters, with quotes
doubled; quotes within another field stand for themselves. Records end at line ends, and lines
without any character are skipped.

## Main definitions

* `Mode`, `move`: where a reader stands, and what it does with a character
* `records`: the records of a text
* `quote`: a field in quotes
* `Written`: a text is a field that is read back as a value

## Main results

* `records_written`: a written field is read as its value
* `records_row`: a line of written fields is read as one record
* `records_lines`: lines of written fields are read as their records
-/

namespace Dbx.Rfc4180

open List

/-- Where a reader stands. -/
inductive Mode
  | startRecord
  | startField
  | inField
  | inQuotes
  | quoteInQuotes
  deriving DecidableEq, Repr

/-- What a reader does with a character. -/
inductive Move
  | skip
  | openQuotes
  | closeQuotes
  | copy
  | copyQuoted
  | endField
  | endRecord
  deriving DecidableEq, Repr

def isTerminator (c : Char) : Bool := c = '\n' || c = '\r'

/-- What a reader does with a character that ends a field, or with another one. -/
def moveAtEnd (delimiter c : Char) (otherwise : Move) : Move :=
  if c = delimiter then .endField else if isTerminator c then .endRecord else otherwise

/-- What a reader does with a character where it stands. -/
def move (delimiter : Char) (mode : Mode) (c : Char) : Move :=
  match mode with
  | .startRecord =>
    if isTerminator c then .skip
    else if c = '"' then .openQuotes
    else moveAtEnd delimiter c .copy
  | .startField => if c = '"' then .openQuotes else moveAtEnd delimiter c .copy
  | .inField => moveAtEnd delimiter c .copy
  | .inQuotes => if c = '"' then .closeQuotes else .copyQuoted
  | .quoteInQuotes => if c = '"' then .copyQuoted else moveAtEnd delimiter c .copy

/-- The records of a text, of which a part of a field and some fields are read. -/
def recordsFrom (delimiter : Char) : Mode → Text → List Text → Text → List (List Text)
  | .startRecord, _, _, [] => []
  | _, field, record, [] => [record ++ [field]]
  | mode, field, record, c :: rest =>
    match move delimiter mode c with
    | .skip => recordsFrom delimiter .startRecord field record rest
    | .openQuotes => recordsFrom delimiter .inQuotes field record rest
    | .closeQuotes => recordsFrom delimiter .quoteInQuotes field record rest
    | .copy => recordsFrom delimiter .inField (field ++ [c]) record rest
    | .copyQuoted => recordsFrom delimiter .inQuotes (field ++ [c]) record rest
    | .endField => recordsFrom delimiter .startField [] (record ++ [field]) rest
    | .endRecord => (record ++ [field]) :: recordsFrom delimiter .startRecord [] [] rest

def records (delimiter : Char) (text : Text) : List (List Text) :=
  recordsFrom delimiter .startRecord [] [] text

def quote (value : Text) : Text := '"' :: Text.replaceChar '"' ['"', '"'] value ++ ['"']

/-- A text is a field that is read back as a value: in quotes, or bare and of plain characters. -/
inductive Written (delimiter : Char) : Text → Text → Prop
  | quoted (value : Text) : Written delimiter (quote value) value
  | bare {value : Text} : value ≠ [] →
    (∀ c ∈ value, c ≠ '"' ∧ c ≠ delimiter ∧ isTerminator c = false) →
      Written delimiter value value

variable {delimiter : Char}

def Mode.starts (mode : Mode) : Prop := mode = .startRecord ∨ mode = .startField

/-- The reader has read a field, if nothing of it follows. -/
def Mode.ends (mode : Mode) : Prop := mode = .inField ∨ mode = .quoteInQuotes

attribute [local simp] recordsFrom moveAtEnd move

/-- In quotes everything is copied, and doubled quotes once. -/
theorem recordsFrom_quoted (delimiter : Char) (read value : Text) (record : List Text)
    (rest : Text) :
    recordsFrom delimiter .inQuotes read record
        (Text.replaceChar '"' ['"', '"'] value ++ '"' :: rest) =
      recordsFrom delimiter .quoteInQuotes (read ++ value) record rest := by
  induction value generalizing read with
  | nil => simp [Text.replaceChar]
  | cons c value ih =>
    have ih := ih (read ++ [c])
    simp only [Text.replaceChar, flatMap_cons, append_assoc] at ih ⊢
    by_cases hc : c = '"'
    · subst hc
      simpa using ih
    · simpa [hc] using ih

/-- Plain characters are copied. -/
theorem recordsFrom_plain (read value : Text) (record : List Text) (rest : Text)
    (h : ∀ c ∈ value, c ≠ '"' ∧ c ≠ delimiter ∧ isTerminator c = false) :
    recordsFrom delimiter .inField read record (value ++ rest) =
      recordsFrom delimiter .inField (read ++ value) record rest := by
  induction value generalizing read with
  | nil => simp
  | cons c value ih =>
    obtain ⟨-, hdelimiter, hterminator⟩ := h c mem_cons_self
    have ih := ih (read ++ [c]) fun c hc => h c (mem_cons_of_mem _ hc)
    simpa [hdelimiter, hterminator] using ih

variable {mode : Mode}

/-- **A written field is read as its value.** -/
theorem records_written {text value : Text} (hmode : mode.starts)
    (h : Written delimiter text value) (record : List Text) (rest : Text) :
    ∃ mode' : Mode, mode'.ends ∧ recordsFrom delimiter mode [] record (text ++ rest) =
      recordsFrom delimiter mode' value record rest := by
  cases h with
  | quoted value =>
    refine ⟨.quoteInQuotes, .inr rfl, ?_⟩
    have hread := recordsFrom_quoted delimiter [] value record rest
    have hterminator : isTerminator '"' = false := rfl
    rcases hmode with rfl | rfl
    · simpa [quote, hterminator] using hread
    · simpa [quote] using hread
  | bare hne hplain =>
    refine ⟨.inField, .inl rfl, ?_⟩
    obtain ⟨c, value, rfl⟩ := exists_cons_of_ne_nil hne
    obtain ⟨hc, hdelimiter, hterminator⟩ := hplain c mem_cons_self
    have hread := recordsFrom_plain [c] value record rest fun d hd =>
      hplain d (mem_cons_of_mem _ hd)
    rcases hmode with rfl | rfl
    · simpa [hc, hdelimiter, hterminator] using hread
    · simpa [hc, hdelimiter, hterminator] using hread

theorem recordsFrom_end (hmode : mode.ends) (field : Text) (record : List Text) :
    recordsFrom delimiter mode field record [] = [record ++ [field]] := by
  rcases hmode with rfl | rfl
  · rfl
  · rfl

theorem recordsFrom_delimiter (hmode : mode.ends) (hquote : delimiter ≠ '"')
    (field : Text) (record : List Text) (rest : Text) :
    recordsFrom delimiter mode field record (delimiter :: rest) =
      recordsFrom delimiter .startField [] (record ++ [field]) rest := by
  rcases hmode with rfl | rfl
  · simp
  · simp [hquote]

theorem recordsFrom_lineEnd (hmode : mode.ends) (hdelimiter : delimiter ≠ '\n')
    (field : Text) (record : List Text) (rest : Text) :
    recordsFrom delimiter mode field record ('\n' :: rest) =
      (record ++ [field]) :: records delimiter rest := by
  have hterminator : isTerminator '\n' := rfl
  rcases hmode with rfl | rfl
  · simp [hterminator, hdelimiter.symm, records]
  · simp [hterminator, hdelimiter.symm, records]

/-- **A line of written fields is read as one record**, from a field of it on. What follows the
line is read behind its last field. -/
theorem records_row {texts values : List Text} (h : List.Forall₂ (Written delimiter) texts values)
    (hne : texts ≠ []) (hquote : delimiter ≠ '"') (hmode : mode.starts)
    (record : List Text) (rest : Text) :
    ∃ (mode' : Mode) (before : List Text) (value : Text), mode'.ends ∧
      before ++ [value] = record ++ values ∧
      recordsFrom delimiter mode [] record ([delimiter].intercalate texts ++ rest) =
        recordsFrom delimiter mode' value before rest := by
  induction h generalizing mode record with
  | nil => exact absurd rfl hne
  | @cons text value texts values hfield htail ih =>
    cases texts with
    | nil =>
      cases htail
      obtain ⟨mode', hends, hread⟩ := records_written hmode hfield record rest
      exact ⟨mode', record, value, hends, rfl, by rwa [intercalate_singleton]⟩
    | cons next texts =>
      -- the delimiter behind the field ends it, and the next one is at the start of a field
      obtain ⟨mode', hends, hread⟩ := records_written hmode hfield record
        (delimiter :: ([delimiter].intercalate (next :: texts) ++ rest))
      obtain ⟨last, before, value', hlast, hbefore, htailRead⟩ :=
        ih (by simp) (.inr rfl) (record ++ [value])
      refine ⟨last, before, value', hlast, by simpa using hbefore, ?_⟩
      rw [intercalate_cons_cons, append_assoc, append_assoc, singleton_append,
        hread, recordsFrom_delimiter hends hquote, htailRead]

/-- **Lines of written fields are read as their records.** -/
theorem records_lines {lines rows : List (List Text)}
    (h : List.Forall₂ (List.Forall₂ (Written delimiter)) lines rows)
    (hne : ∀ line ∈ lines, line ≠ []) (hquote : delimiter ≠ '"') (hline : delimiter ≠ '\n') :
    records delimiter (['\n'].intercalate (lines.map ([delimiter].intercalate ·))) = rows := by
  induction h with
  | nil => rfl
  | @cons line row lines rows hrow htail ih =>
    have hlineNe : line ≠ [] := hne line mem_cons_self
    cases lines with
    | nil =>
      cases htail
      obtain ⟨mode, before, value, hends, hbefore, hread⟩ :=
        records_row hrow hlineNe hquote (.inl rfl) [] []
      rw [append_nil] at hread
      rw [map_cons, map_nil, intercalate_singleton, records, hread, recordsFrom_end hends, hbefore,
        nil_append]
    | cons next lines =>
      obtain ⟨mode, before, value, hends, hbefore, hread⟩ := records_row hrow hlineNe hquote
        (.inl rfl) [] ('\n' :: ['\n'].intercalate ((next :: lines).map ([delimiter].intercalate ·)))
      have ih := ih fun other hother => hne other (mem_cons_of_mem _ hother)
      rw [map_cons] at hread ih
      rw [map_cons, map_cons, intercalate_cons_cons, append_assoc,
        singleton_append, records, hread, recordsFrom_lineEnd hends hline, hbefore, ih,
        nil_append]

end Dbx.Rfc4180
