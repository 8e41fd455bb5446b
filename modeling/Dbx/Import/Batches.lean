import Dbx.Sql.Batches

/-!
# The batch splitter of the SQL file import

A SQL Server script is imported from a stream of chunks. The splitter cuts it into lines, follows
the lexical state through the lines, and ends a batch at a `GO` line in code.
-/

namespace Dbx.Import

open Text Sql List

/-- `SqlServerLexicalState`. -/
inductive SqlServerLexicalState
  | normal
  | singleQuote
  | doubleQuote
  | bracketIdentifier
  | lineComment
  | blockComment
  deriving DecidableEq, Repr

namespace SqlServerLexicalState

/-- Behind the closing character of a quoted part: a doubled one stays inside. -/
def close (state : SqlServerLexicalState) (closer : Char) (peek : Option Char) :
    SqlServerLexicalState × Nat :=
  if peek = some closer then (state, 1) else (.normal, 0)

/-- The state behind a character in a line, and how many characters are consumed with it. -/
def step (state : SqlServerLexicalState) (c : Char) (peek : Option Char) :
    SqlServerLexicalState × Nat :=
  match state with
  | .normal =>
    if c = '\'' then (.singleQuote, 0)
    else if c = '"' then (.doubleQuote, 0)
    else if c = '[' then (.bracketIdentifier, 0)
    else if c = '-' && peek = some '-' then (.lineComment, 1)
    else if c = '/' && peek = some '*' then (.blockComment, 1)
    else (.normal, 0)
  | .singleQuote => if c = '\'' then close .singleQuote '\'' peek else (.singleQuote, 0)
  | .doubleQuote => if c = '"' then close .doubleQuote '"' peek else (.doubleQuote, 0)
  | .bracketIdentifier => if c = ']' then close .bracketIdentifier ']' peek else
      (.bracketIdentifier, 0)
  | .lineComment => (.lineComment, 0)
  | .blockComment => if c = '*' && peek = some '/' then (.normal, 1) else (.blockComment, 0)

/-- The state behind the end of a line. -/
def endLine : SqlServerLexicalState → SqlServerLexicalState
  | .lineComment => .normal
  | state => state

end SqlServerLexicalState

/-- The line ends a batch where it stands in code. -/
def isGo (line : Text) : Bool := eqIgnoreAsciiCase (trim line) "go".toList

/-- `SqlServerBatchSplitter`. -/
structure SqlServerBatchSplitter where
  batch : Text := []
  partialLine : Text := []
  lexicalState : SqlServerLexicalState := .normal
  flushSemicolons : Bool := false
  deriving DecidableEq, Repr

namespace SqlServerBatchSplitter

variable (s : SqlServerBatchSplitter)

/-- `push_batch`. -/
def pushBatch : SqlServerBatchSplitter × List Text :=
  let batch := trim s.batch
  ({ s with batch := [], lexicalState := .normal }, if batch.isEmpty then [] else [batch])

/-- The loop of `push_line` over the characters of a line. -/
def lineLoop : Stepper SqlServerBatchSplitter Text where
  step s c rest :=
    let (state, consumed) := s.lexicalState.step c rest.head?
    let pushed := { s with batch := s.batch ++ c :: rest.take consumed, lexicalState := state }
    if s.lexicalState = .normal ∧ c = ';' ∧ s.flushSemicolons ∧
        !startsWithSqlserverModuleDdl (s.batch ++ [c]) then
      (pushed.pushBatch.1, 0, pushed.pushBatch.2)
    else (pushed, consumed, [])

/-- `push_line`. -/
def pushLine (line : Text) : SqlServerBatchSplitter × List Text :=
  if s.lexicalState = .normal ∧ isGo line then s.pushBatch
  else
    let (s, batches) := lineLoop.run 0 s line
    ({ s with batch := s.batch ++ ['\n'], lexicalState := s.lexicalState.endLine }, batches)

/-- `push_line` for one line after the other. -/
def pushLines : SqlServerBatchSplitter → List Text → SqlServerBatchSplitter × List Text
  | s, [] => (s, [])
  | s, line :: lines =>
    let (s, batches) := s.pushLine (trimEndMatches (· = '\r') line)
    let (s, more) := pushLines s lines
    (s, batches ++ more)

/-- `push_chunk`. -/
def pushChunk (chunk : Text) : SqlServerBatchSplitter × List Text :=
  let lines := splitOn (· = '\n') (s.partialLine ++ chunk)
  let (s, batches) := { s with partialLine := [] }.pushLines lines.dropLast
  ({ s with partialLine := lines.getLastD [] }, batches)

/-- `finish`. -/
def finish : List Text :=
  let (s, batches) := if s.partialLine.isEmpty then (s, [])
    else { s with partialLine := [] }.pushLines [s.partialLine]
  batches ++ s.pushBatch.2

/-- `push_chunk` for one chunk after the other, and `finish`. -/
def pushChunks : SqlServerBatchSplitter → List Text → List Text
  | s, [] => s.finish
  | s, chunk :: chunks =>
    let (s, batches) := s.pushChunk chunk
    batches ++ pushChunks s chunks

end SqlServerBatchSplitter

open SqlServerBatchSplitter

/-- The batches of a SQL Server script that is imported from a stream of chunks. -/
def importBatches (chunks : List Text) : List Text := pushChunks {} chunks

/-- The lexical state through the characters of a line, each of which is given out with whether it
stands in code. -/
def lexer : Stepper SqlServerLexicalState (Char × Bool) where
  step state c rest :=
    ((state.step c rest.head?).1, (state.step c rest.head?).2,
      (c :: rest.take (state.step c rest.head?).2).map (·, decide (state = .normal)))

def lexLine (state : SqlServerLexicalState) (line : Text) : SqlServerLexicalState :=
  (lexer.run 0 state line).1.endLine

/-- The lines between the separators, behind the lines of the current batch. -/
def goBatches : SqlServerLexicalState → List Text → List Text → List (List Text)
  | _, current, [] => [current]
  | state, current, line :: lines =>
    if state = .normal ∧ isGo line then current :: goBatches .normal [] lines
    else goBatches (lexLine state line) (current ++ [line]) lines

/-- The line without the carriage returns at its end. -/
def withoutCr (line : Text) : Text := trimEndMatches (· = '\r') line

/-- The text that the splitter collects from lines. -/
def collected (lines : List Text) : Text := lines.flatMap fun line => withoutCr line ++ ['\n']

def emitted (text : Text) : List Text := if (trim text).isEmpty then [] else [trim text]

variable (state : SqlServerLexicalState) (line : Text)

open SqlServerLexicalState

theorem step_cr (c : Char) : state.step c (some '\r') = state.step c none := by
  cases state <;> simp [step, close]

theorem run_cr (skip : Nat) (state : SqlServerLexicalState) {crs : Text}
    (h : ∀ c ∈ crs, c = '\r') : (lexer.run skip state crs).1 = state := by
  induction crs generalizing skip with
  | nil => simp
  | cons c crs ih =>
    obtain ⟨rfl, hcrs⟩ := List.forall_mem_cons.mp h
    cases skip with
    | succ skip => exact ih skip hcrs
    | zero =>
      rw [Stepper.run_cons]
      have hstep : (state.step '\r' crs.head?) = (state, 0) := by
        cases state <;> simp [step]
      simp only [lexer, hstep]
      exact ih 0 hcrs

/-- Carriage returns at the end of a line do not change the lexical state. -/
theorem run_append_cr (skip : Nat) (state : SqlServerLexicalState) (line : Text) {crs : Text}
    (h : ∀ c ∈ crs, c = '\r') :
    (lexer.run skip state (line ++ crs)).1 = (lexer.run skip state line).1 := by
  induction line generalizing skip state with
  | nil => simpa using run_cr skip state h
  | cons c line ih =>
    cases skip with
    | succ skip => exact ih skip state
    | zero =>
      have hstep : state.step c (line ++ crs).head? = state.step c line.head? := by
        cases line with
        | cons d line => rfl
        | nil =>
          cases crs with
          | nil => rfl
          | cons d crs =>
            obtain rfl : d = '\r' := h d (by simp)
            exact step_cr state c
      rw [cons_append, Stepper.run_cons]
      simp only [lexer, hstep]
      exact ih _ _

theorem withoutCr_append : ∃ crs, (∀ c ∈ crs, c = '\r') ∧ line = withoutCr line ++ crs := by
  refine ⟨line.rtakeWhile (· = '\r'), fun c hc => ?_, ?_⟩
  · simpa using mem_rtakeWhile_imp hc
  · exact List.rdropWhile_append_rtakeWhile.symm

theorem run_withoutCr : (lexer.run 0 state (withoutCr line)).1 = (lexer.run 0 state line).1 := by
  obtain ⟨crs, hcrs, hline⟩ := withoutCr_append line
  conv_rhs => rw [hline]
  exact (run_append_cr 0 state _ hcrs).symm

theorem trim_withoutCr : trim (withoutCr line) = trim line := by
  obtain ⟨crs, hcrs, hline⟩ := withoutCr_append line
  conv_rhs => rw [hline]
  refine (trim_append_blank _ fun c hc => ?_).symm
  rw [hcrs c hc]
  decide

theorem isGo_withoutCr : isGo (withoutCr line) = isGo line := by
  rw [isGo, trim_withoutCr, isGo]

namespace SqlServerBatchSplitter

variable {s : SqlServerBatchSplitter}

/-- Without flushing, the loop over a line collects it and follows the lexical state. -/
theorem lineLoop_run (hflush : s.flushSemicolons = false) (skip : Nat) (line : Text) :
    lineLoop.run skip s line =
      ({ s with
        batch := s.batch ++ line.drop skip
        lexicalState := (lexer.run skip s.lexicalState line).1 }, []) := by
  induction line generalizing skip s with
  | nil => simp
  | cons c line ih =>
    cases skip with
    | succ skip => exact ih hflush skip
    | zero =>
      have hstep : lineLoop.step s c line =
          ({ s with
            batch := s.batch ++ c :: line.take (s.lexicalState.step c line.head?).2
            lexicalState := (s.lexicalState.step c line.head?).1 },
            (s.lexicalState.step c line.head?).2, []) := by
        simp [lineLoop, hflush]
      rw [Stepper.run_cons, hstep]
      rw [ih]
      · simp [lexer, Stepper.run_cons]
      · exact hflush

theorem pushLine_withoutCr (hflush : s.flushSemicolons = false) (line : Text) :
    s.pushLine (withoutCr line) = if s.lexicalState = .normal ∧ isGo line then s.pushBatch
      else ({ s with
          batch := s.batch ++ (withoutCr line ++ ['\n'])
          lexicalState := lexLine s.lexicalState line }, []) := by
  rw [pushLine, isGo_withoutCr, lineLoop_run hflush, run_withoutCr]
  simp [lexLine]

theorem pushLines_append (s : SqlServerBatchSplitter) (lines more : List Text) :
    s.pushLines (lines ++ more) =
      (((s.pushLines lines).1.pushLines more).1,
        (s.pushLines lines).2 ++ ((s.pushLines lines).1.pushLines more).2) := by
  induction lines generalizing s with
  | nil => simp [pushLines]
  | cons line lines ih => simp [pushLines, ih]

theorem pushLine_partialLine (s : SqlServerBatchSplitter) (line : Text) :
    (s.pushLine line).1.partialLine = s.partialLine := by
  have hstep : ∀ {t : SqlServerBatchSplitter} {c rest}, t.partialLine = s.partialLine →
      (lineLoop.step t c rest).1.partialLine = s.partialLine := by
    intro t c rest ht
    simp only [lineLoop]
    split <;> exact ht
  have hrun := Stepper.run_invariant
    (I := fun t : SqlServerBatchSplitter => t.partialLine = s.partialLine) hstep 0 line rfl
  unfold pushLine
  split
  · rfl
  · exact hrun

theorem pushLines_partialLine (s : SqlServerBatchSplitter) (lines : List Text) :
    (s.pushLines lines).1.partialLine = s.partialLine := by
  induction lines generalizing s with
  | nil => rfl
  | cons line lines ih => simp only [pushLines, ih, pushLine_partialLine]

theorem drained (h : s.partialLine = []) : { s with partialLine := [] } = s := by
  obtain ⟨_, _, _, _⟩ := s
  subst h
  rfl

/-- Chunks may be joined. -/
theorem pushChunk_append (s : SqlServerBatchSplitter) (a b : Text) :
    s.pushChunk (a ++ b) =
      (((s.pushChunk a).1.pushChunk b).1,
        (s.pushChunk a).2 ++ ((s.pushChunk a).1.pushChunk b).2) := by
  have hsplit := splitOn_append (· = '\n') (s.partialLine ++ a) b
  rw [append_assoc] at hsplit
  have hkept := drained (pushLines_partialLine { s with partialLine := [] }
    (splitOn (· = '\n') (s.partialLine ++ a)).dropLast)
  simp only [pushChunk, hsplit]
  rw [dropLast_append_of_ne_nil (splitOn_ne_nil _ _), pushLines_append, hkept,
    getLastD_eq_getLast?, getLastD_eq_getLast?,
    getLast?_append_of_ne_nil _ (splitOn_ne_nil _ _), getLastD_eq_getLast?]

/-- Every cut of the script into chunks gives the same batches. -/
theorem pushChunks_flatten (flush : Bool) (chunks : List Text) :
    pushChunks { flushSemicolons := flush } chunks =
      pushChunks { flushSemicolons := flush } [chunks.flatten] := by
  have hjoin : ∀ (a : Text) (chunks : List Text),
      pushChunks { flushSemicolons := flush } (a :: chunks) =
        pushChunks { flushSemicolons := flush } [a ++ chunks.flatten] := by
    intro a chunks
    induction chunks generalizing a with
    | nil => simp
    | cons b chunks ih =>
      rw [flatten_cons, ← append_assoc, ← ih]
      simp only [pushChunks, pushChunk_append, append_assoc]
  cases chunks with
  | nil => rfl
  | cons chunk chunks => exact hjoin chunk chunks

/-- A script is read as its lines are, the last one if there is something on it. -/
theorem pushChunks_lines (flush : Bool) (chunks : List Text) {lines : List Text} {last : Text}
    (hlines : splitOn (· = '\n') chunks.flatten = lines ++ [last]) :
    let read := pushLines { flushSemicolons := flush }
      (if last.isEmpty then lines else lines ++ [last])
    pushChunks { flushSemicolons := flush } chunks = read.2 ++ emitted read.1.batch := by
  have hkept := drained (pushLines_partialLine { flushSemicolons := flush } lines)
  rw [pushChunks_flatten]
  simp only [pushChunks, pushChunk, finish, nil_append, hlines, dropLast_concat, getLastD_concat]
  split
  · rfl
  · rw [hkept, pushLines_append, append_assoc]
    rfl

/-- The batches of a script are those between its separators. -/
theorem pushLines_emitted (current : List Text)
    (hflush : s.flushSemicolons = false) (hbatch : s.batch = collected current)
    (lines : List Text) :
    (s.pushLines lines).2 ++ emitted (s.pushLines lines).1.batch =
      (goBatches s.lexicalState current lines).flatMap fun batch => emitted (collected batch) := by
  induction lines generalizing s current with
  | nil => simp [pushLines, goBatches, hbatch]
  | cons line lines ih =>
    simp only [pushLines, goBatches]
    rw [show trimEndMatches (· = '\r') line = withoutCr line from rfl, pushLine_withoutCr hflush]
    split
    · have hrest := ih [] (s := s.pushBatch.1) hflush rfl
      rw [append_assoc, hrest, flatMap_cons]
      simp only [pushBatch, emitted, hbatch]
    · rw [nil_append]
      rw [ih (current ++ [line])]
      · exact hflush
      · simp [hbatch, collected]

end SqlServerBatchSplitter

/-- An empty last line shows in no batch. -/
theorem goBatches_append_nil (current lines : List Text) :
    ((goBatches state current (lines ++ [[]])).flatMap fun batch => emitted (collected batch)) =
      (goBatches state current lines).flatMap fun batch => emitted (collected batch) := by
  induction lines generalizing state current with
  | nil =>
    have hgo : isGo [] = false := by decide
    have hblank : ∀ c ∈ ['\n'], isWhitespace c := by decide
    have hcollected : collected (current ++ [[]]) = collected current ++ ['\n'] := by
      simp [collected, withoutCr, trimEndMatches]
    simp [goBatches, hgo, hcollected, emitted, trim_append_blank _ hblank]
  | cons line lines ih =>
    simp only [cons_append, goBatches]
    split
    · rw [flatMap_cons, flatMap_cons, ih]
    · exact ih _ _

/-- **The import's batches.** However a script is cut into chunks, its batches are what is collected
between the separators. -/
theorem importBatches_eq (chunks : List Text) :
    importBatches chunks = (goBatches .normal [] (splitOn (· = '\n') chunks.flatten)).flatMap
        fun batch => emitted (collected batch) := by
  obtain ⟨lines, last, hlines⟩ :
      ∃ lines last, splitOn (· = '\n') chunks.flatten = lines ++ [last] :=
    ⟨_, _, (dropLast_append_getLast (splitOn_ne_nil _ _)).symm⟩
  rw [importBatches, pushChunks_lines false chunks hlines, pushLines_emitted [] rfl rfl, hlines]
  split
  · next hlast =>
    obtain rfl : last = [] := by simpa using hlast
    exact (goBatches_append_nil _ _ _).symm
  · rfl

/-! ### Cuts -/

/-- The lines of a script. A line feed at its end starts no line. -/
def linesRead (script : Text) : List Text :=
  let lines := splitOn (· = '\n') script
  if (lines.getLastD []).isEmpty then lines.dropLast else lines

/-- The lines, each with the lexical state in which it starts. -/
def lineStates : SqlServerLexicalState → List Text → List (SqlServerLexicalState × Text)
  | _, [] => []
  | state, line :: lines => (state, line) :: lineStates (lexLine state line) lines

/-- A `GO` line that starts in code. -/
def isSeparator (line : SqlServerLexicalState × Text) : Bool := line.1 = .normal && isGo line.2

/-- Characters, with whether they stand in code. -/
abbrev Marked := List (Char × Bool)

def marked (lines : List (SqlServerLexicalState × Text)) : Marked :=
  lines.flatMap fun line => (lexer.run 0 line.1 (withoutCr line.2)).2 ++ [('\n', false)]

def textOf (piece : Marked) : Text := piece.map Prod.fst

/-- A piece that ends where the splitter flushes: at a semicolon in code, and outside the body of a
module. -/
structure EndsAtFlush (flush : Bool) (piece : Marked) : Prop where
  flushes : flush
  semicolon : piece.getLast? = some (';', true)
  module : startsWithSqlserverModuleDdl (textOf piece) = false

/-- A separator is code as a whole. -/
theorem lexLine_go {line : Text} (h : isGo line) : lexLine .normal line = .normal := by
  -- the line has blanks and the two letters
  have hplain : ∀ c ∈ line, c ∉ ['\'', '"', '[', '-', '/'] := by
    intro c hc hspecial
    have hblank : ∀ c ∈ ['\'', '"', '[', '-', '/'], isWhitespace c = false ∧
        c.toLower ∉ "go".toList.map Char.toLower := by
      decide
    have htrim : c ∈ trim line := mem_trim hc (hblank c hspecial).1
    have hletter : c.toLower ∈ (trim line).map Char.toLower := mem_map_of_mem htrim
    rw [beq_iff_eq.mp h] at hletter
    exact (hblank c hspecial).2 hletter
  have hrun : (lexer.run 0 .normal line).1 = .normal := by
    clear h
    induction line with
    | nil => rfl
    | cons c line ih =>
      obtain ⟨hc, hline⟩ := forall_mem_cons.mp hplain
      have hstep : lexer.step .normal c line = (.normal, 0, [(c, true)]) := by
        simp only [mem_cons, not_or] at hc
        simp [lexer, SqlServerLexicalState.step, hc]
      rw [Stepper.run_cons, hstep]
      exact ih hline
  rw [lexLine, hrun]
  rfl

namespace SqlServerBatchSplitter

variable {s : SqlServerBatchSplitter} {current : Marked}

/-- The loop over a line cuts it at semicolons. -/
theorem lineLoop_cuts (hbatch : s.batch = textOf current) (skip : Nat) (line : Text) :
    ∃ (pieces : List Marked) (rest : Marked),
      lineLoop.run skip s line =
        ({ s with
          batch := textOf rest
          lexicalState := (lexer.run skip s.lexicalState line).1 },
          pieces.flatMap (emitted ∘ textOf)) ∧
      pieces.flatten ++ rest = current ++ (lexer.run skip s.lexicalState line).2 ∧
      ∀ piece ∈ pieces, EndsAtFlush s.flushSemicolons piece := by
  induction line generalizing skip s current with
  | nil => exact ⟨[], current, by simp [← hbatch], by simp, nofun⟩
  | cons c line ih =>
    cases skip with
    | succ skip => exact ih hbatch skip
    | zero =>
      by_cases hflush : s.lexicalState = .normal ∧ c = ';' ∧ s.flushSemicolons ∧
          !startsWithSqlserverModuleDdl (s.batch ++ [c])
      · -- the piece ends with the semicolon
        obtain ⟨hstate, rfl, hflushes, hmodule⟩ := hflush
        have hstep : lineLoop.step s ';' line =
            ({ s with batch := [], lexicalState := .normal }, 0, emitted (s.batch ++ [';'])) := by
          have hmodule : startsWithSqlserverModuleDdl (s.batch ++ [';']) = false := by
            simpa using hmodule
          simp only [lineLoop, hstate, hflushes, hmodule, SqlServerLexicalState.step]
          rfl
        have hlex : lexer.step s.lexicalState ';' line = (.normal, 0, [(';', true)]) := by
          simp [lexer, hstate, SqlServerLexicalState.step]
        have hnext : ({ s with batch := [], lexicalState := .normal } :
          SqlServerBatchSplitter).batch = textOf ([] : Marked) := rfl
        obtain ⟨pieces, rest, hrun, hflatten, hends⟩ := ih hnext 0
        rw [Stepper.run_cons, Stepper.run_cons, hstep, hlex, hrun]
        refine ⟨(current ++ [(';', true)]) :: pieces, rest, ?_, ?_, ?_⟩
        · simp [hbatch, textOf]
        · simp [hflatten]
        · refine forall_mem_cons.mpr ⟨⟨hflushes, by simp, ?_⟩, hends⟩
          simpa [textOf, hbatch] using hmodule
      · have hstep : lineLoop.step s c line =
            ({ s with
              batch := s.batch ++ c :: line.take (s.lexicalState.step c line.head?).2
              lexicalState := (s.lexicalState.step c line.head?).1 },
              (s.lexicalState.step c line.head?).2, []) := by
          simp only [lineLoop, if_neg hflush]
        have hnext : s.batch ++ c :: line.take (s.lexicalState.step c line.head?).2 =
            textOf (current ++ (lexer.step s.lexicalState c line).2.2) := by
          simp [textOf, hbatch, lexer, Function.comp_def]
        obtain ⟨pieces, rest, hrun, hflatten, hends⟩ := ih (s := { s with
          batch := s.batch ++ c :: line.take (s.lexicalState.step c line.head?).2
          lexicalState := (s.lexicalState.step c line.head?).1 }) hnext
            (s.lexicalState.step c line.head?).2
        rw [Stepper.run_cons, Stepper.run_cons, hstep, hrun]
        refine ⟨pieces, rest, rfl, ?_, hends⟩
        rw [hflatten, append_assoc]
        rfl

theorem modifyHead_nil_append {α : Type} (groups : List (List α)) :
    groups.modifyHead ([] ++ ·) = groups := by
  cases groups <;> rfl

theorem flatten_nil_append_marked : ([] : List Marked).flatten ++ [] = marked [] := rfl

/-- The lines are cut at separators, and the lines between them at semicolons. -/
theorem pushLines_cuts {group : List (SqlServerLexicalState × Text)} {pieces : List Marked}
    (hbatch : s.batch = textOf current) (hgroup : pieces.flatten ++ current = marked group)
    (hpieces : ∀ piece ∈ pieces, EndsAtFlush s.flushSemicolons piece) (lines : List Text) :
    ∃ (last : List Marked) (cuts : List (List Marked)),
      (s.pushLines lines).2 ++ emitted (s.pushLines lines).1.batch =
        (last ++ cuts.flatten).flatMap (emitted ∘ textOf) ∧
      ((pieces ++ last) :: cuts).map flatten =
        (((lineStates s.lexicalState lines).splitOnP isSeparator).modifyHead (group ++ ·)).map
          marked ∧
      ∀ cut ∈ (pieces ++ last) :: cuts, ∀ piece ∈ cut.dropLast,
        EndsAtFlush s.flushSemicolons piece := by
  induction lines generalizing s current group pieces with
  | nil =>
    refine ⟨[current], [], ?_, ?_, ?_⟩
    · simp [pushLines, hbatch]
    · simp [lineStates, hgroup]
    · simpa using hpieces
  | cons line lines ih =>
    have hpush : s.pushLines (line :: lines) =
        (((s.pushLine (withoutCr line)).1.pushLines lines).1,
          (s.pushLine (withoutCr line)).2 ++
            ((s.pushLine (withoutCr line)).1.pushLines lines).2) := rfl
    rw [hpush, lineStates, splitOnP_cons_eq_if_modifyHead, append_assoc]
    -- a separator ends the cut; any other line is cut at its semicolons, and its rest is carried on
    by_cases hgo : s.lexicalState = .normal ∧ isGo line
    · have hline : s.pushLine (withoutCr line) = s.pushBatch := by
        rw [pushLine, isGo_withoutCr, if_pos hgo]
      have hseparator : isSeparator (s.lexicalState, line) := by simpa [isSeparator] using hgo
      have hnext : s.pushBatch.1.batch = textOf ([] : Marked) := rfl
      obtain ⟨last, cuts, hout, hflatten, hends⟩ := ih hnext flatten_nil_append_marked nofun
      rw [hline, if_pos hseparator, hgo.1, lexLine_go hgo.2]
      refine ⟨[current], last :: cuts, ?_, ?_, ?_⟩
      · rw [hout]
        simp [pushBatch, hbatch, emitted]
      · rw [map_cons, flatten_concat, hgroup, modifyHead_cons, append_nil, map_cons]
        exact congrArg _ (hflatten.trans (congrArg _ (modifyHead_nil_append _)))
      · refine forall_mem_cons.mpr ⟨?_, hends⟩
        rwa [dropLast_concat]
    · have hseparator : ¬ isSeparator (s.lexicalState, line) := by simpa [isSeparator] using hgo
      obtain ⟨more, rest, hrun, hmore, hmoreEnds⟩ := lineLoop_cuts hbatch 0 (withoutCr line)
      have hline : s.pushLine (withoutCr line) =
          ({ s with
            batch := textOf (rest ++ [('\n', false)])
            lexicalState := lexLine s.lexicalState line }, more.flatMap (emitted ∘ textOf)) := by
        rw [pushLine, isGo_withoutCr, if_neg hgo, hrun]
        simp [textOf, lexLine, run_withoutCr]
      have hnext : (pieces ++ more).flatten ++ (rest ++ [('\n', false)]) =
          marked (group ++ [(s.lexicalState, line)]) := by
        rw [flatten_append, append_assoc, ← append_assoc more.flatten, hmore, ← append_assoc,
          ← append_assoc, hgroup]
        simp [marked]
      rw [hline, if_neg hseparator]
      obtain ⟨last, cuts, hout, hflatten, hends⟩ := ih (s := { s with
        batch := textOf (rest ++ [('\n', false)])
        lexicalState := lexLine s.lexicalState line }) rfl hnext
          (forall_mem_append.mpr ⟨hpieces, hmoreEnds⟩)
      refine ⟨more ++ last, cuts, ?_, ?_, ?_⟩
      · rw [append_assoc, hout]
        exact flatMap_append.symm
      · rw [← append_assoc, hflatten]
        cases (lineStates (lexLine s.lexicalState line) lines).splitOnP isSeparator <;> simp
      · rwa [← append_assoc]

end SqlServerBatchSplitter

end Dbx.Import
