import Dbx.Import.Batches

/-!
# Import and editor cut a SQL Server script at the same lines

The import reads a script with the lexical rules of SQL Server. The editor masks it with the generic
scanner, which knows backticks, dollar quotes, backslash escapes and nested comments, and does not
know identifiers in brackets. Where the script has none of what the two read differently, their
automata run in step, and both cut the script at the same `GO` lines.
-/

namespace Dbx.Import

open Text Sql
open List hiding splitOn

variable (unicode : Unicode)

/-- The character and what follows it in its line mean the same to both automata. -/
def Plain (state : SqlServerLexicalState) (c : Char) (rest : Text) : Prop :=
  let next := rest.head?
  match state with
  | .normal =>
    c ≠ '\x60' ∧ ¬(c = '\\' ∧ (next = some '\'' ∨ next = some '"')) ∧
      ¬(c = '/' ∧ next = some '*' ∧ (rest.drop 1).head? = some '/') ∧
      dollarQuoteTagAtStr (c :: rest) = none
  | .singleQuote => ¬(c = '\\' ∧ next = some '\'')
  | .doubleQuote => ¬(c = '\\' ∧ next = some '"')
  | .bracketIdentifier =>
    c ≠ '\'' ∧ c ≠ '"' ∧ c ≠ '\x60' ∧ ¬(c = '-' ∧ next = some '-') ∧ ¬(c = '/' ∧ next = some '*') ∧
      dollarQuoteTagAtStr (c :: rest) = none
  | .lineComment => True
  | .blockComment => ¬(c = '/' ∧ next = some '*')

instance (state : SqlServerLexicalState) (c : Char)
    (rest : Text) : Decidable (Plain state c rest) :=
  match state with
  | .normal => inferInstanceAs (Decidable (_ ∧ _))
  | .singleQuote => inferInstanceAs (Decidable (¬_))
  | .doubleQuote => inferInstanceAs (Decidable (¬_))
  | .bracketIdentifier => inferInstanceAs (Decidable (_ ∧ _))
  | .lineComment => inferInstanceAs (Decidable True)
  | .blockComment => inferInstanceAs (Decidable (¬_))

attribute [local simp] SqlDialectProfile.sqlServer goBatches

namespace Scanner

def code (previous : Option Char) : SqlScanner := { profile := .sqlServer, previous }

def single (previous : Option Char) : SqlScanner :=
  { profile := .sqlServer, inSingleQuote := true, singleQuoteEscapeString := true, previous }

def double (previous : Option Char) : SqlScanner :=
  { profile := .sqlServer, inDoubleQuote := true, previous }

def line (previous : Option Char) : SqlScanner :=
  { profile := .sqlServer, inLineComment := true, previous }

def block (previous : Option Char) : SqlScanner :=
  { profile := .sqlServer, blockCommentDepth := 1, previous }

variable {unicode}

variable {previous : Option Char} {c : Char} {behind rest : Text}

open SqlScanner

attribute [local simp] OracleQQuoteState.isOpen SqlScanner.step SqlScanner.toggleQuotes code

theorem step_code (hbacktick : c ≠ '\x60') (htag : dollarQuoteTagAtStr (c :: rest) = none)
    (hescape : previous = some '\\' → c ≠ '\'' ∧ c ≠ '"') :
    (code previous).step unicode behind c rest =
      if c = '-' ∧ rest.head? = some '-' then line (some c)
      else if c = '/' ∧ rest.head? = some '*' then block none
      else if c = '\'' then single (some c)
      else if c = '"' then double (some c)
      else code (some c) := by
  by_cases hdash : c = '-' ∧ rest.head? = some '-'
  · obtain ⟨rfl, hnext⟩ := hdash
    simp [line, hnext]
  by_cases hslash : c = '/' ∧ rest.head? = some '*'
  · obtain ⟨rfl, hnext⟩ := hslash
    simp [block, hnext]
  have hstep : (code previous).step unicode behind c rest =
      { (code previous).toggleQuotes unicode behind c with previous := some c } := by
    simp [htag, hslash, hdash]
  rw [hstep, if_neg hdash, if_neg hslash]
  by_cases hsingle : c = '\''
  · have hprevious : previous ≠ some '\\' := fun h => (hescape h).1 hsingle
    simp [single, hsingle, hprevious]
  by_cases hdouble : c = '"'
  · have hprevious : previous ≠ some '\\' := fun h => (hescape h).2 hdouble
    simp [double, hdouble, hprevious]
  · simp [hsingle, hdouble, hbacktick]

theorem step_single (hescape : previous = some '\\' → c ≠ '\'') :
    (single previous).step unicode behind c rest =
      if c = '\'' then code (some c) else single (some c) := by
  by_cases hsingle : c = '\''
  · have hprevious : previous ≠ some '\\' := fun h => hescape h hsingle
    simp [step, single, hsingle, hprevious]
  · simp [step, single, hsingle]

theorem step_double (hescape : previous = some '\\' → c ≠ '"') :
    (double previous).step unicode behind c rest =
      if c = '"' then code (some c) else double (some c) := by
  by_cases hdouble : c = '"'
  · have hprevious : previous ≠ some '\\' := fun h => hescape h hdouble
    simp [double, hdouble, hprevious]
  · simp [double, hdouble]

theorem step_line (previous : Option Char) (behind : Text) (c : Char) (rest : Text) :
    (line previous).step unicode behind c rest =
      if c = '\n' then code (some c) else line (some c) := by
  by_cases hc : c = '\n' <;> simp [line, hc]

theorem step_block (hnested : previous = some '/' → c ≠ '*') :
    (block previous).step unicode behind c rest =
      if previous = some '*' ∧ c = '/' then code (some c) else block (some c) := by
  by_cases hclose : previous = some '*' ∧ c = '/'
  · obtain ⟨rfl, rfl⟩ := hclose
    simp [block]
  · simp only [SqlScanner.step, block]
    grind

end Scanner

open Scanner

/-- The import's state, the number of characters it has consumed already, and the editor's scanner
belong together before a text. -/
inductive InStep : SqlServerLexicalState → Nat → Text → SqlScanner → Prop
  | normal {previous rest} (h : previous = some '\\' → rest.head? ≠ some '\'' ∧ rest.head? ≠
      some '"') :
    InStep .normal 0 rest (code previous)
  | singleQuote {previous rest} (h : previous = some '\\' → rest.head? ≠ some '\'') :
    InStep .singleQuote 0 rest (single previous)
  | doubleQuote {previous rest} (h : previous = some '\\' → rest.head? ≠ some '"') :
    InStep .doubleQuote 0 rest (double previous)
  | bracketIdentifier {previous rest} : InStep .bracketIdentifier 0 rest (code previous)
  | lineComment {previous rest} : InStep .lineComment 0 rest (line previous)
  | blockComment {previous rest} (hopen : previous = some '/' → rest.head? ≠ some '*')
    (hclose : previous = some '*' → rest.head? ≠ some '/') :
    InStep .blockComment 0 rest (block previous)
  -- between the two characters of a doubled quote, of an opener or of a closer
  | singlePair {rest} : InStep .singleQuote 1 ('\'' :: rest) (code (some '\''))
  | doublePair {rest} : InStep .doubleQuote 1 ('"' :: rest) (code (some '"'))
  | bracketPair {rest} : InStep .bracketIdentifier 1 (']' :: rest) (code (some ']'))
  | lineOpen {rest} : InStep .lineComment 1 ('-' :: rest) (line (some '-'))
  | blockOpen {rest} (h : rest.head? ≠ some '/') :
    InStep .blockComment 1 ('*' :: rest) (block none)
  | blockClose {rest} : InStep .normal 1 ('/' :: rest) (block (some '*'))

variable {state : SqlServerLexicalState} {skip : Nat} {scanner : SqlScanner} {c : Char}
  {rest : Text}

theorem dollarQuoteTagAtStr_of_ne (h : c ≠ '$') : dollarQuoteTagAtStr (c :: rest) = none := by
  simp [dollarQuoteTagAtStr, h]

theorem InStep.consumed (behind : Text) (h : InStep state (skip + 1) (c :: rest) scanner) :
    InStep state skip rest (scanner.step unicode behind c rest) := by
  cases h with
  | singlePair =>
    exact .singleQuote (by simp)
  | doublePair =>
    exact .doubleQuote (by simp)
  | bracketPair =>
    exact .bracketIdentifier
  | lineOpen =>
    exact .lineComment
  | blockOpen h =>
    exact .blockComment (by simp) fun _ => h
  | blockClose =>
    exact .normal (by simp)

open SqlServerLexicalState

/-- The end of something quoted, or the first character of a doubled end. -/
theorem InStep.close {quote : Char} (hquote : quote ≠ '\\')
    (hpair : ∀ rest, InStep state 1 (quote :: rest) (code (some quote))) (rest : Text) :
    InStep (state.close quote rest.head?).1 (state.close quote rest.head?).2 rest
      (code (some quote)) := by
  by_cases hnext : rest.head? = some quote
  · obtain ⟨rest, rfl⟩ := head?_eq_some_iff.mp hnext
    simpa [SqlServerLexicalState.close] using hpair rest
  · simp only [SqlServerLexicalState.close, hnext, if_false]
    exact .normal (by simp [hquote])

theorem InStep.advance (behind : Text) (h : InStep state 0 (c :: rest) scanner)
    (hline : c ≠ '\n') (hplain : Plain state c rest) :
    InStep (state.step c rest.head?).1 (state.step c rest.head?).2 rest
      (scanner.step unicode behind c rest) := by
  cases h with
  | normal h =>
    obtain ⟨hbacktick, hescape, hslash, htag⟩ := hplain
    rw [step_code hbacktick htag (by simpa using h)]
    -- the openers, in the order of the source
    by_cases hsingle : c = '\''
    · subst hsingle
      exact .singleQuote (by simp)
    by_cases hdouble : c = '"'
    · subst hdouble
      exact .doubleQuote (by simp)
    by_cases hbracket : c = '['
    · subst hbracket
      exact .bracketIdentifier
    by_cases hdash : c = '-' ∧ rest.head? = some '-'
    · obtain ⟨rfl, hnext⟩ := hdash
      obtain ⟨rest, rfl⟩ := head?_eq_some_iff.mp hnext
      exact .lineOpen
    by_cases hopen : c = '/' ∧ rest.head? = some '*'
    · obtain ⟨rfl, hnext⟩ := hopen
      obtain ⟨rest, rfl⟩ := head?_eq_some_iff.mp hnext
      exact .blockOpen (by simpa using hslash)
    · rw [if_neg hsingle]
      simp only [step, hsingle, hdouble, hbracket, Bool.and_eq_true,
        decide_eq_true_eq, hdash, hopen, if_false]
      exact .normal (by simpa [not_or] using hescape)
  | singleQuote h =>
    rw [step_single (by simpa using h)]
    by_cases hquote : c = '\''
    · subst hquote
      exact .close (by decide) (fun _ => .singlePair) rest
    · simp only [step, hquote, if_false]
      exact .singleQuote (by simpa [Plain] using hplain)
  | doubleQuote h =>
    rw [step_double (by simpa using h)]
    by_cases hquote : c = '"'
    · subst hquote
      exact .close (by decide) (fun _ => .doublePair) rest
    · simp only [step, hquote, if_false]
      exact .doubleQuote (by simpa [Plain] using hplain)
  | bracketIdentifier =>
    obtain ⟨hsingle, hdouble, hbacktick, hdash, hopen, htag⟩ := hplain
    rw [step_code hbacktick htag fun _ => ⟨hsingle, hdouble⟩, if_neg hdash, if_neg hopen,
      if_neg hsingle, if_neg hdouble]
    by_cases hbracket : c = ']'
    · subst hbracket
      exact .close (by decide) (fun _ => .bracketPair) rest
    · simp only [step, hbracket, if_false]
      exact .bracketIdentifier
  | lineComment =>
    rw [step_line, if_neg hline]
    exact .lineComment
  | blockComment hopen hclose =>
    rw [step_block (by simpa using hopen)]
    by_cases hstar : c = '*' ∧ rest.head? = some '/'
    · obtain ⟨rfl, hnext⟩ := hstar
      obtain ⟨rest, rfl⟩ := head?_eq_some_iff.mp hnext
      rw [if_neg (by simp)]
      exact .blockClose
    · have hinside : ¬(‹Option Char› = some '*' ∧ c = '/') := fun h => hclose h.1 (by simp [h.2])
      simp only [step, Bool.and_eq_true, decide_eq_true_eq, hstar, if_false, hinside]
      exact .blockComment (by simpa [Plain] using hplain) (by simpa using hstar)

/-- Behind a line, the text ends or the line does. -/
def EndsLine (tail : Text) : Prop := tail = [] ∨ ∃ rest, tail = '\n' :: rest

variable {tail : Text}

theorem EndsLine.head? (h : EndsLine tail) (hc : c ≠ '\n') : tail.head? ≠ some c := by
  obtain rfl | ⟨rest, rfl⟩ := h
  · simp
  · simpa using hc.symm

theorem EndsLine.head?_append (h : EndsLine tail) (hc : c ≠ '\n')
    (line : Text) : (line ++ tail).head? = some c ↔ line.head? = some c := by
  cases line with
  | nil => simpa using h.head? hc
  | cons d line => simp

theorem endsLine_tailText (lines : List Text) : EndsLine (tailText lines) := by
  cases lines with
  | nil => exact .inl rfl
  | cons line lines => exact .inr ⟨_, rfl⟩

variable {line : Text}

/-- A dollar tag does not go beyond its line. -/
theorem EndsLine.dollarQuoteTagAtStr (h : EndsLine tail)
    (htag : dollarQuoteTagAtStr (c :: line) = none) :
    Sql.dollarQuoteTagAtStr (c :: (line ++ tail)) = none := by
  by_cases hc : c = '$'
  · simp only [Sql.dollarQuoteTagAtStr, if_pos hc, Option.bind_eq_none_iff] at htag ⊢
    rintro ⟨name, after⟩ hsplit
    rw [if_neg]
    intro hname
    obtain ⟨happend, hmem⟩ := splitOnce_eq_some.mp hsplit
    -- the tag ends in the line, or its name holds the end of the line
    have hdollar : ∀ rest, tail ≠ '$' :: rest := by
      rintro rest rfl
      exact h.head? (by decide) rfl
    rcases append_eq_append_iff.mp happend with ⟨extra, rfl, htail⟩ | ⟨extra, rfl, htail⟩
    · cases extra with
      | nil => exact hdollar _ htail
      | cons d extra =>
        have hd : d = '\n' := by
          by_contra hne
          exact h.head? hne (by rw [htail]; rfl)
        rw [all_eq_true] at hname
        have hnewline := hname '\n' (by simp [hd])
        exact absurd hnewline (by decide)
    · cases extra with
      | nil => exact hdollar _ htail.symm
      | cons d extra =>
        obtain ⟨rfl, -⟩ : '$' = d ∧ after = extra ++ tail := by simpa using htail
        exact absurd (htag (name, extra) (splitOnce_eq_some.mpr ⟨rfl, hmem⟩))
          (by simp only [hname]; simp)
  · exact dollarQuoteTagAtStr_of_ne hc

/-- What is plain in its line is plain in the text. -/
theorem EndsLine.plain (h : EndsLine tail)
    (hplain : Plain state c line) : Plain state c (line ++ tail) := by
  have hclose : (line ++ tail).head? = some '*' ∧ ((line ++ tail).drop 1).head? = some '/' →
      line.head? = some '*' ∧ (line.drop 1).head? = some '/' := by
    rintro ⟨hstar, hslash⟩
    cases line with
    | nil => exact absurd hstar (h.head? (by decide))
    | cons d line => exact ⟨by simpa using hstar, (h.head?_append (by decide) line).mp hslash⟩
  cases state with
  | normal =>
    obtain ⟨hbacktick, hescape, hslash, htag⟩ := hplain
    refine ⟨hbacktick, ?_, fun hopen => hslash ⟨hopen.1, hclose hopen.2⟩,
      h.dollarQuoteTagAtStr htag⟩
    rwa [h.head?_append (by decide), h.head?_append (by decide)]
  | singleQuote =>
    show ¬(c = '\\' ∧ (line ++ tail).head? = some '\'')
    rwa [h.head?_append (by decide)]
  | doubleQuote =>
    show ¬(c = '\\' ∧ (line ++ tail).head? = some '"')
    rwa [h.head?_append (by decide)]
  | bracketIdentifier =>
    obtain ⟨hsingle, hdouble, hbacktick, hdash, hopen, htag⟩ := hplain
    refine ⟨hsingle, hdouble, hbacktick, ?_, ?_, h.dollarQuoteTagAtStr htag⟩
    · rwa [h.head?_append (by decide)]
    · rwa [h.head?_append (by decide)]
  | lineComment => trivial
  | blockComment =>
    show ¬(c = '/' ∧ (line ++ tail).head? = some '*')
    rwa [h.head?_append (by decide)]

theorem InStep.skip_eq_zero (h : InStep state skip tail scanner) (htail : EndsLine tail) :
    skip = 0 := by
  cases h with
  | singlePair | doublePair | bracketPair | lineOpen | blockOpen | blockClose =>
    exact absurd rfl (htail.head? (by decide))
  | _ => rfl

theorem step_endsLine (h : EndsLine tail) : state.step c tail.head? = state.step c none := by
  obtain rfl | ⟨rest, rfl⟩ := h
  · rfl
  · cases state <;> simp [step, close]

/-- The automata stay in step through a plain line. -/
theorem InStep.steps (htail : EndsLine tail) (hline : '\n' ∉ line) (behind : Text)
    (h : InStep state skip (line ++ tail) scanner) (hplain : lexer.Along Plain skip state line) :
    InStep (lexer.run skip state line).1 0 tail (scanner.steps unicode behind line tail) := by
  induction line generalizing state skip scanner behind with
  | nil =>
    obtain rfl := h.skip_eq_zero htail
    simpa [SqlScanner.steps] using h
  | cons c line ih =>
    have hrest : '\n' ∉ line := fun hmem => hline (mem_cons_of_mem c hmem)
    cases skip with
    | succ skip => exact ih hrest _ (h.consumed unicode behind) hplain
    | zero =>
      have hc : c ≠ '\n' := fun heq => hline (by simp [heq])
      rw [cons_append] at h
      have hnext := h.advance unicode behind hc (htail.plain hplain.1)
      have hpeek : state.step c (line ++ tail).head? = state.step c line.head? := by
        cases line with
        | nil => exact step_endsLine htail
        | cons d line => rfl
      rw [hpeek] at hnext
      exact ih hrest _ hnext hplain.2

/-- The automata stay in step at the end of a line. -/
theorem InStep.newline (behind : Text) (h : InStep state 0 ('\n' :: rest) scanner) :
    InStep state.endLine 0 rest (scanner.step unicode behind '\n' rest) := by
  cases h with
  | normal =>
    exact .normal (by simp)
  | singleQuote =>
    exact .singleQuote (by simp)
  | doubleQuote =>
    exact .doubleQuote (by simp)
  | bracketIdentifier =>
    exact .bracketIdentifier
  | lineComment =>
    exact .normal (by simp)
  | blockComment =>
    rw [step_block fun _ => by decide, if_neg (by simp)]
    exact .blockComment (by simp) (by simp)

theorem InStep.profile (h : InStep state skip rest scanner) : scanner.profile = .sqlServer := by
  cases h <;> rfl

theorem InStep.isMasked (h : InStep state 0 rest scanner) (hbracket : state ≠ .bracketIdentifier) :
    scanner.isMasked = false ↔ state = .normal := by
  cases h <;> simp_all [SqlScanner.isMasked, code, single, double,
    line, block, OracleQQuoteState.isOpen]

/-- The second form of a separator never occurs: it would end in a blank. -/
theorem isGoLine_eq (line : Text) : isGoLine line = isGo line := by
  unfold isGoLine isGo
  cases hgo : "go ".toList.isPrefixOf (toAsciiLowercase (trim line)) with
  | false => simp only [hgo, Bool.false_and, Bool.or_false]
  | true =>
    have hlength : 2 < (trim line).length := by
      have hle := (List.isPrefixOf_iff_prefix.mp hgo).length_le
      rw [toAsciiLowercase, length_map] at hle
      exact hle
    -- the last character stands behind the `go`, so the rest is not blank
    have hrest : trim ((trim line).drop 2) ≠ [] := by
      intro hnil
      obtain ⟨text, last, hlast⟩ : ∃ text last, trim line = text ++ [last] :=
        ⟨_, _, (dropLast_append_getLast (ne_nil_of_length_pos (by omega))).symm⟩
      have hkept : isWhitespace last = false := trimEndMatches_eq_concat hlast
      have hmem : last ∈ (trim line).drop 2 := by
        rw [hlast, drop_append_of_le_length (by simp [hlast] at hlength; omega)]
        simp
      simp [blank_of_trim_eq_nil hnil last hmem] at hkept
    simp [hrest]

def joined (lines : List Text) : Text := lines.flatMap fun line => line ++ ['\n']

/-- Every line is plain, and no separator stands in brackets. -/
def PlainLines : SqlServerLexicalState → List Text → Prop
  | _, [] => True
  | state, line :: lines =>
    (isGo line → state ≠ .bracketIdentifier) ∧
      if state = .normal ∧ isGo line then PlainLines .normal lines
      else lexer.Along Plain 0 state line ∧ PlainLines (lexLine state line) lines

instance instDecidablePlainLines : ∀ state lines, Decidable (PlainLines state lines)
  | _, [] => .isTrue trivial
  | state, line :: lines =>
    have := instDecidablePlainLines .normal lines
    have := instDecidablePlainLines (lexLine state line) lines
    inferInstanceAs (Decidable (_ ∧ ite _ _ _))

theorem pushBatchRange_newline (text : Text) :
    pushBatchRange (text ++ ['\n']) = pushBatchRange text := by
  have hblank : ∀ c ∈ ['\n'], isWhitespace c := by decide
  rw [pushBatchRange, pushBatchRange, executableSql_eq rfl, executableSql_eq rfl,
    trimEnd_append_blank _ hblank]

theorem InStep.separates
    (h : InStep state 0 rest scanner) (hbracket : isGo line → state ≠ .bracketIdentifier) :
    (scanner.profile.supportsGoBatchSeparator && !scanner.isMasked && isGoLine line) =
      decide (state = .normal ∧ isGo line) := by
  rw [h.profile, isGoLine_eq]
  by_cases hgo : isGo line
  · have hmasked := h.isMasked (hbracket hgo)
    simp [hgo, ← hmasked]
  · simp [hgo]

theorem joined_concat (lines : List Text) (line : Text) :
    joined (lines ++ [line]) = joined lines ++ line ++ ['\n'] := by
  simp [joined]

theorem InStep.separator {rest rest' : Text} (behind : Text) (h : InStep .normal 0 rest scanner) :
    InStep .normal 0 rest' (scanner.step unicode behind '\n' rest') := by
  cases h with
  | normal => exact InStep.newline unicode behind (.normal fun _ => ⟨by simp, by simp⟩)

variable {lines : List Text}

/-- **The editor's batches.** On plain lines, the ranges are the executable texts between the
separators of the import. -/
theorem splitSqlBatchLines_eq (behind : Text) (current : List Text)
    (hlines : ∀ l ∈ line :: lines, '\n' ∉ l) (h : InStep state 0 (line ++ tailText lines) scanner)
    (hplain : PlainLines state (line :: lines)) :
    splitSqlBatchLines unicode scanner behind (joined current) (line :: lines) =
      (goBatches state current (line :: lines)).flatMap fun batch =>
        pushBatchRange (joined batch) := by
  induction lines generalizing state scanner behind current line with
  | nil =>
    rw [splitSqlBatchLines, goBatches]
    simp only [h.separates hplain.1, decide_eq_true_eq]
    split
    · simp [splitSqlBatchLines, joined]
    · simp only [splitSqlBatchLines, goBatches, tailText, flatMap_nil, take_nil,
        append_nil, flatMap_cons, joined_concat, pushBatchRange_newline]
  | cons next lines ih =>
    obtain ⟨hline, hmore⟩ := forall_mem_cons.mp hlines
    obtain ⟨hbracket, hrest⟩ := hplain
    rw [splitSqlBatchLines, goBatches]
    simp only [h.separates hbracket, decide_eq_true_eq]
    -- a separator ends the batch in both, and the scanner starts afresh behind it
    by_cases hgo : state = .normal ∧ isGo line
    · simp only [if_pos hgo] at hrest ⊢
      obtain ⟨rfl, -⟩ := hgo
      have hstep : InStep .normal 0 (next ++ tailText lines) _ :=
        h.separator unicode (line.reverse ++ behind)
      rw [flatMap_cons, ← ih (['\n'] ++ (line.reverse ++ behind)) [] hmore hstep hrest]
      rfl
    · simp only [if_neg hgo] at hrest ⊢
      have hscanned := h.steps unicode (endsLine_tailText _) hline behind hrest.1
      have hstep : InStep (lexLine state line) 0 _ _ :=
        hscanned.newline unicode (line.reverse ++ behind)
      rw [← ih (['\n'] ++ (line.reverse ++ behind)) (current ++ [line]) hmore hstep hrest.2,
        joined_concat]
      rfl

/-- A batch without the blanks around it and its leading comments. -/
def bareSql (text : Text) : Text := leadingFrom {} isWhitespace 0 .between (trimEnd text)

theorem leadingFrom_blank_append {w : Text} (h : ∀ c ∈ w, isWhitespace c) (text : Text) :
    leadingFrom {} isWhitespace 0 .between (w ++ text) =
      leadingFrom {} isWhitespace 0 .between text := by
  induction w with
  | nil => rfl
  | cons c w ih =>
    obtain ⟨hc, hw⟩ := forall_mem_cons.mp h
    simp [leadingFrom, hc, ih hw]

@[simp] theorem bareSql_trim (text : Text) : bareSql (trim text) = bareSql text := by
  obtain ⟨w, hw, heq⟩ := trimEnd_eq_append_trim text
  have htrimmed : trimEnd (trim text) = trim text := rdropWhile_idempotent _ _
  rw [bareSql, bareSql, heq, htrimmed, leadingFrom_blank_append hw]

/-- The end of a trimmed text is trimmed. -/
theorem trimEnd_suffix {text part : Text} (h : part <:+ trimEnd text) : trimEnd part = part := by
  obtain ⟨before, heq⟩ := h
  rcases eq_nil_or_concat part with rfl | ⟨part, c, rfl⟩
  · rfl
  rw [concat_eq_append, ← append_assoc] at heq
  rw [concat_eq_append]
  exact trimEndMatches_eq_self (trimEndMatches_eq_concat heq.symm)

theorem bareSql_leadingExecutableSql (text : Text) :
    bareSql (leadingExecutableSql {} (trimEnd text)) = bareSql text := by
  rw [bareSql, leadingExecutableSql, trimEnd_suffix (leadingFrom_suffix ..),
    leadingFrom_leadingFrom, bareSql]

def isBlankLine (line : Text) : Bool := line.all isWhitespace

/-- Between the first and the last line with text, no line ends in a carriage return. -/
def HasNoInnerCr (batch : List Text) : Prop :=
  ∀ line ∈ ((batch.dropWhile isBlankLine).rdropWhile isBlankLine).dropLast, withoutCr line = line

instance (batch : List Text) : Decidable (HasNoInnerCr batch) :=
  inferInstanceAs (Decidable (∀ _ ∈ _, _))

theorem joined_append (a b : List Text) : joined (a ++ b) = joined a ++ joined b := by
  simp [joined]

theorem collected_append (a b : List Text) : collected (a ++ b) = collected a ++ collected b := by
  simp [collected]

theorem blank_joined (h : ∀ line ∈ lines, isBlankLine line) :
    ∀ c ∈ joined lines, isWhitespace c := by
  intro c hc
  obtain ⟨line, hline, hmem⟩ := mem_flatMap.mp hc
  rcases mem_append.mp hmem with hmem | hmem
  · exact all_eq_true.mp (h line hline) c hmem
  · rw [mem_singleton.mp hmem]
    decide

theorem blank_collected (h : ∀ line ∈ lines, isBlankLine line) :
    ∀ c ∈ collected lines, isWhitespace c := by
  intro c hc
  obtain ⟨line, hline, hmem⟩ := mem_flatMap.mp hc
  refine blank_joined h c (mem_flatMap.mpr ⟨line, hline, ?_⟩)
  rcases mem_append.mp hmem with hmem | hmem
  · exact mem_append_left _ ((List.rdropWhile_prefix _ _).subset hmem)
  · exact mem_append_right _ hmem

variable {batch : List Text}

/-- Carriage returns at the ends of lines show only inside of a batch. -/
theorem trim_collected (h : HasNoInnerCr batch) : trim (collected batch) = trim (joined batch) := by
  -- blank lines at either end are trimmed with all that is on them
  obtain ⟨lead, core, trail, rfl, hlead, htrail, hcore⟩ :
      ∃ lead core trail, batch = lead ++ (core ++ trail) ∧ (∀ line ∈ lead, isBlankLine line) ∧
        (∀ line ∈ trail, isBlankLine line) ∧ ∀ line ∈ core.dropLast, withoutCr line = line := by
    refine ⟨batch.takeWhile isBlankLine, _, (batch.dropWhile isBlankLine).rtakeWhile isBlankLine,
      ?_,
      fun line hline => mem_takeWhile_imp hline, fun line hline =>
        mem_rtakeWhile_imp hline, h⟩
    rw [rdropWhile_append_rtakeWhile, takeWhile_append_dropWhile]
  rw [collected_append, joined_append, trim_blank_append (blank_collected hlead),
    trim_blank_append (blank_joined hlead), collected_append, joined_append,
    trim_append_blank _ (blank_collected htrail), trim_append_blank _ (blank_joined htrail)]
  rcases eq_nil_or_concat core with rfl | ⟨init, last, rfl⟩
  · rfl
  rw [concat_eq_append, dropLast_concat] at hcore
  -- between them only the last line may have lost a carriage return
  have hinit : collected init = joined init := by
    refine flatMap_congr fun line hline => ?_
    rw [hcore line hline]
  obtain ⟨crs, hcrs, hlast⟩ := withoutCr_append last
  have hblank : ∀ c ∈ crs ++ ['\n'], isWhitespace c := by
    intro c hc
    rcases mem_append.mp hc with hc | hc
    · rw [hcrs c hc]
      decide
    · rw [mem_singleton.mp hc]
      decide
  have hcollected : collected [last] = withoutCr last ++ ['\n'] := by simp [collected]
  have hjoined : joined [last] = withoutCr last ++ (crs ++ ['\n']) := by
    rw [← append_assoc, ← hlast]
    simp [joined]
  rw [concat_eq_append, collected_append, joined_append, hinit, hcollected, hjoined,
    ← append_assoc, ← append_assoc, trim_append_blank _ hblank,
    trim_append_blank _ (by decide)]

def scriptLines (script : Text) : List Text := splitOn (· = '\n') script

theorem newline_not_mem_scriptLines (script : Text) : ∀ line ∈ scriptLines script, '\n' ∉ line := by
  unfold scriptLines
  induction script with
  | nil => simp [splitOn]
  | cons c script ih =>
    rw [splitOn]
    split
    · simpa using ih
    · next hc =>
      cases hlines : splitOn (· = '\n') script with
      | nil => exact absurd hlines (splitOn_ne_nil _ _)
      | cons line lines =>
        rw [hlines] at ih
        have hne : '\n' ≠ c := fun heq => hc (by simp [← heq])
        simpa [forall_mem_cons, hne] using ih

theorem joined_scriptLines (script : Text) : joined (scriptLines script) = script ++ ['\n'] := by
  unfold scriptLines
  induction script with
  | nil => rfl
  | cons c script ih =>
    rw [splitOn]
    split
    · next hc =>
      have heq : c = '\n' := by simpa using hc
      simp [joined, heq, ← ih]
    · cases hlines : splitOn (· = '\n') script with
      | nil => exact absurd hlines (splitOn_ne_nil _ _)
      | cons line lines => simpa [joined, hlines] using ih

def HasCode (batch : List Text) : Prop := leadingExecutableSql {} (trimEnd (joined batch)) ≠ []

instance (batch : List Text) : Decidable (HasCode batch) := inferInstanceAs (Decidable (_ ≠ _))

/-- The batches of a script, as lines between the separators of the import. -/
def scriptBatches (script : Text) : List (List Text) := goBatches .normal [] (scriptLines script)

/-- A script that import and editor read alike. -/
structure PlainScript (script : Text) : Prop where
  /-- Both automata read every character alike. -/
  lines : PlainLines .normal (scriptLines script)
  /-- The import removes no carriage return inside of a batch. -/
  crs : ∀ batch ∈ scriptBatches script, HasNoInnerCr batch
  /-- There is no separator, or no batch holds only comments and some batch holds code. -/
  code : (scriptBatches script).length = 1 ∨
    (∀ batch ∈ scriptBatches script, trim (joined batch) ≠ [] → HasCode batch) ∧
      ∃ batch ∈ scriptBatches script, HasCode batch

/-- The batches of the import and of the editor are the same, bare of what leads them. -/
def BatchesAgree (chunks : List Text) : Prop :=
  (importBatches chunks).map bareSql = (splitSqlBatches unicode chunks.flatten).map bareSql

theorem pushBatchRange_eq (batch : List Text) :
    pushBatchRange (joined batch) =
      if HasCode batch then [leadingExecutableSql {} (trimEnd (joined batch))] else [] := by
  rw [pushBatchRange, executableSql_eq rfl]
  by_cases h : HasCode batch
  · have hne : (leadingExecutableSql {} (trimEnd (joined batch))).isEmpty = false := by
      simpa [HasCode] using h
    simp [h, hne]
  · have hnil : leadingExecutableSql {} (trimEnd (joined batch)) = [] := by simpa [HasCode] using h
    simp [h, hnil]

/-- The ranges of the editor on a plain script. -/
theorem splitSqlBatchRanges_eq {script : Text} (h : PlainScript script) :
    splitSqlBatchRanges unicode .sqlServer script =
      (scriptBatches script).flatMap fun batch => pushBatchRange (joined batch) := by
  have hplain := h.lines
  have hnewline := newline_not_mem_scriptLines script
  rw [scriptBatches]
  change splitSqlBatchLines unicode _ [] [] (scriptLines script) = _
  cases hlines : scriptLines script with
  | nil => exact absurd hlines (splitOn_ne_nil _ _)
  | cons line lines =>
    rw [hlines] at hplain hnewline
    exact splitSqlBatchLines_eq unicode [] [] hnewline (.normal (by simp)) hplain

theorem goBatches_ne_nil (state : SqlServerLexicalState) (current lines : List Text) :
    goBatches state current lines ≠ [] := by
  induction lines generalizing state current with
  | nil => simp
  | cons line lines ih =>
    rw [goBatches]
    split
    · simp
    · exact ih _ _

/-- Without a separator, the only batch is the whole script. -/
theorem goBatches_eq_singleton {current lines batch : List Text}
    (h : goBatches state current lines = [batch]) : batch = current ++ lines := by
  induction lines generalizing state current with
  | nil => simpa [eq_comm] using h
  | cons line lines ih =>
    rw [goBatches] at h
    split at h
    · simp [goBatches_ne_nil] at h
    · simpa using ih h

/-- A batch with code, or without text, is the same to both. -/
theorem map_bareSql_emitted (hcr : HasNoInnerCr batch)
    (hcode : trim (joined batch) ≠ [] → HasCode batch) :
    (emitted (collected batch)).map bareSql = (pushBatchRange (joined batch)).map bareSql := by
  rw [emitted, trim_collected hcr, pushBatchRange_eq]
  by_cases hblank : trim (joined batch) = []
  · have hnone : ¬HasCode batch := by
      have htrimmed : trimEnd (joined batch) = [] :=
        rdropWhile_eq_nil_iff.mpr (blank_of_trim_eq_nil hblank)
      simp [HasCode, htrimmed, leadingExecutableSql, leadingFrom]
    rw [if_neg hnone]
    simp [hblank]
  · rw [if_pos (hcode hblank)]
    simp [hblank, bareSql_leadingExecutableSql]

/-- **Import and editor agree.** On a script that both read alike, the batches of the import, for
every cut of the script into chunks, are those of the editor. -/
theorem batchesAgree_of_plain {chunks : List Text} (h : PlainScript chunks.flatten) :
    BatchesAgree unicode chunks := by
  have hranges := splitSqlBatchRanges_eq unicode h
  rw [BatchesAgree, importBatches_eq, ← scriptLines, ← scriptBatches, splitSqlBatches, hranges]
  by_cases hcode : ∃ batch ∈ scriptBatches chunks.flatten, HasCode batch
  · have hall : ∀ batch ∈ scriptBatches chunks.flatten, trim (joined batch) ≠ [] →
      HasCode batch := by
      rcases h.code with hone | hall
      · obtain ⟨only, honly⟩ := length_eq_one_iff.mp hone
        simp only [honly, mem_singleton, forall_eq, exists_eq_left] at hcode ⊢
        exact fun _ => hcode
      · exact hall.1
    -- some range is left, so the editor takes the ranges
    have hne : ((scriptBatches chunks.flatten).flatMap
        fun batch => pushBatchRange (joined batch)).isEmpty = false := by
      obtain ⟨batch, hbatch, hbatchCode⟩ := hcode
      simp only [isEmpty_eq_false_iff, ne_eq, flatMap_eq_nil_iff, not_forall]
      exact ⟨batch, hbatch, by simp [pushBatchRange_eq, hbatchCode]⟩
    simp only [hne, Bool.false_eq_true, if_false, map_flatMap]
    exact flatMap_congr fun batch hbatch =>
      map_bareSql_emitted (h.crs batch hbatch) (hall batch hbatch)
  · -- nothing to execute: the editor takes the whole script
    obtain ⟨only, honly⟩ : ∃ only, scriptBatches chunks.flatten = [only] := by
      rcases h.code with hone | hall
      · exact length_eq_one_iff.mp hone
      · exact absurd hall.2 hcode
    have hwhole : joined only = chunks.flatten ++ ['\n'] := by
      rw [goBatches_eq_singleton honly, nil_append, joined_scriptLines]
    have hnone : pushBatchRange (joined only) = [] := by
      rw [pushBatchRange_eq, if_neg fun hcode' => hcode ⟨only, by simp [honly], hcode'⟩]
    have htrim : trim (collected only) = trim chunks.flatten := by
      rw [trim_collected (h.crs only (by simp [honly])), hwhole, trim_append_blank _ (by decide)]
    simp [honly, hnone, emitted, htrim]

/-- A script in two chunks, with a bracketed identifier and a string. -/
theorem batchesAgree_twoChunks :
    BatchesAgree .ascii ["SELECT [a b]\nG".toList, "O\r\n-- next\nSELECT 'it''s'".toList] :=
  batchesAgree_of_plain .ascii ⟨by decide +kernel, by decide +kernel, by decide +kernel⟩

/-- **Import and editor disagree.** An apostrophe in brackets opens a string for the editor, which
then does not see the separator: the import runs two batches and the editor one. -/
theorem batches_disagree :
    importBatches ["SELECT [it's]\nGO\nSELECT 2".toList] =
        ["SELECT [it's]".toList, "SELECT 2".toList] ∧
      splitSqlBatches .ascii "SELECT [it's]\nGO\nSELECT 2".toList =
        ["SELECT [it's]\nGO\nSELECT 2".toList] ∧
      ¬BatchesAgree .ascii ["SELECT [it's]\nGO\nSELECT 2".toList] := by
  refine ⟨by decide +kernel, by decide +kernel, ?_⟩
  unfold BatchesAgree
  decide +kernel

end Dbx.Import
