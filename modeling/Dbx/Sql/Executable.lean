import Dbx.Sql.Profile

/-!
# The executable part of a statement

A statement starts behind its leading blanks and comments. The scanners ask in two ways whether
there is anything to execute: by skipping what leads a statement, and by looking for a character
that is neither blank nor in a comment. Offsets count characters.

## Main results

* `leadingFrom_leadingFrom`: skipping less first changes nothing
* `leadingFrom_suffix`: what is left is a suffix
* `executableSql_eq`: the executable text of a statement
* `executableTests_agree_iff`: where the two questions have one answer
-/

namespace Dbx.Sql

open Text List

variable (profile : SqlDialectProfile)

/-- Where the search for executable SQL stands. -/
inductive Leading
  | between
  | lineComment
  | blockComment (depth : Nat)
  deriving DecidableEq, Repr

/-- The text behind `/*` makes the comment one that MySQL executes. -/
def opensExecutableComment (rest : Text) : Bool :=
  rest.head? = some '!' || rest.head? = some 'M' && (rest.drop 1).head? = some '!'

/-- What is left of a text, of which some characters are read already, behind blanks and
comments. -/
def leadingFrom (blank : Char → Bool) : Nat → Leading → Text → Text
  | _, _, [] => []
  | skip + 1, mode, _ :: rest => leadingFrom blank skip mode rest
  | 0, .between, c :: rest =>
    if blank c then leadingFrom blank 0 .between rest
    else if c = '-' && rest.head? = some '-' then leadingFrom blank 1 .lineComment rest
    else if profile.supportsHashLineComments && c = '#' then leadingFrom blank 0 .lineComment rest
    else if c = '/' && rest.head? = some '*' && !opensExecutableComment (rest.drop 1) then
      leadingFrom blank 1 (.blockComment 1) rest
    else c :: rest
  | 0, .lineComment, c :: rest =>
    leadingFrom blank 0 (if c = '\n' then .between else .lineComment) rest
  | 0, .blockComment depth, c :: rest =>
    if c = '*' && rest.head? = some '/' then
      leadingFrom blank 1 (if depth ≤ 1 then .between else .blockComment (depth - 1)) rest
    else if profile.supportsNestedBlockComments && c = '/' && rest.head? = some '*' then
      leadingFrom blank 1 (.blockComment (depth + 1)) rest
    else leadingFrom blank 0 (.blockComment depth) rest

/-- `leading_executable_sql_with_options`. -/
def leadingExecutableSql (sql : Text) : Text :=
  leadingFrom profile isAsciiWhitespace 0 .between sql

/-- `leading_directive_start`. -/
def leadingDirectiveStart (statement : Text) (executableStart : Nat) : Option Nat :=
  let before := statement.take executableStart
  let linePrefix := before.rtakeWhile fun c => c != '\r' && c != '\n'
  let trimmedLineStart := trimStart linePrefix
  if "/*".toList.isPrefixOf trimmedLineStart &&
    "*/".toList.isSuffixOf (trimEnd trimmedLineStart) then
    some (before.length - trimmedLineStart.length)
  else (stripSuffix "/*proxy*/".toList (trimEnd before)).map length

/-- `executable_sql_bounds`. -/
def executableSqlBounds (statement : Text) : Option (Nat × Nat) :=
  let trimmed := trimEnd statement
  let executable := leadingExecutableSql profile trimmed
  if executable.isEmpty then none
  else
    let executableStart := trimmed.length - executable.length
    let start := if profile.preservesTdsqlLeadingDirectives then
        (leadingDirectiveStart trimmed executableStart).getD executableStart
      else executableStart
    some (start, trimmed.length)

/-- The text within the executable bounds of a statement. -/
def executableSql (statement : Text) : Option Text :=
  (executableSqlBounds profile statement).map fun bounds =>
    (statement.take bounds.2).drop bounds.1

/-- `has_executable_sql_with_options`, from a state of its loop. -/
def hasExecutableFrom : Bool → Nat → Option Char → Text → Bool
  | _, _, _, [] => false
  | true, depth, _, c :: rest => hasExecutableFrom (c != '\n') depth (some c) rest
  | false, depth + 1, previous, c :: rest =>
    if profile.supportsNestedBlockComments && previous = some '/' && c = '*' then
      -- a nested opener's asterisk does not pair with a following slash
      hasExecutableFrom false (depth + 2) none rest
    else if previous = some '*' && c = '/' then hasExecutableFrom false depth (some c) rest
    else hasExecutableFrom false (depth + 1) (some c) rest
  | false, 0, _, c :: rest =>
    if c = '-' && rest.head? = some '-' then hasExecutableFrom true 0 (some c) rest
    else if profile.supportsHashLineComments && c = '#' then hasExecutableFrom true 0 (some c) rest
    else if c = '/' && rest.head? = some '*' then
      if opensExecutableComment (rest.drop 1) then true else hasExecutableFrom false 1 none rest
    else if !isWhitespace c then true
    else hasExecutableFrom false 0 (some c) rest

/-- `has_executable_sql_with_options`. -/
def hasExecutableSql (statement : Text) : Bool := hasExecutableFrom profile false 0 none statement

/-- What is left of a text behind blanks and comments, without the blanks and separators around
it. -/
def leadingTrimmed (text : Text) : Text :=
  let outer (c : Char) := isWhitespace c || c = ';'
  ((leadingExecutableSql profile text).dropWhile outer).rdropWhile outer

/-- No comment that leads the text starts with `/*/` or has an inner `*/*`, no blank but the ASCII
ones stands before the executable part, and this part, where there is one, is as `part` asks. -/
def cleanLead (part : Text → Bool) : Nat → Leading → Text → Bool
  | _, _, [] => true
  | skip + 1, mode, _ :: rest => cleanLead part skip mode rest
  | 0, .between, c :: rest =>
    if isAsciiWhitespace c then cleanLead part 0 .between rest
    else if c = '-' && rest.head? = some '-' then cleanLead part 1 .lineComment rest
    else if profile.supportsHashLineComments && c = '#' then cleanLead part 0 .lineComment rest
    else if c = '/' && rest.head? = some '*' && !opensExecutableComment (rest.drop 1) then
      (rest.drop 1).head? != some '/' && cleanLead part 1 (.blockComment 1) rest
    else !isWhitespace c && part (c :: rest)
  | 0, .lineComment, c :: rest =>
    cleanLead part 0 (if c = '\n' then .between else .lineComment) rest
  | 0, .blockComment depth, c :: rest =>
    if c = '*' && rest.head? = some '/' then
      (depth ≤ 1 || (rest.drop 1).head? != some '*') &&
        cleanLead part 1 (if depth ≤ 1 then .between else .blockComment (depth - 1)) rest
    else if profile.supportsNestedBlockComments && c = '/' && rest.head? = some '*' then
      cleanLead part 1 (.blockComment (depth + 1)) rest
    else cleanLead part 0 (.blockComment depth) rest

/-- A character that is neither blank nor a separator. -/
def isSubstantial (c : Char) : Bool := !isWhitespace c && c ≠ ';'

/-- The states of the two tests that belong together before a text. -/
inductive LeadStep : Nat → Leading → Bool → Nat → Option Char → Text → Prop
  | between {previous text} : LeadStep 0 .between false 0 previous text
  | lineComment {previous text} : LeadStep 0 .lineComment true 0 previous text
  | blockComment {depth previous text} (hclose : previous = some '*' → text.head? ≠ some '/')
    (hopen : profile.supportsNestedBlockComments → previous = some '/' → text.head? ≠ some '*') :
    LeadStep 0 (.blockComment (depth + 1)) false (depth + 1) previous text
  -- between the two characters of an opener or a closer
  | lineOpen {previous text} : LeadStep 1 .lineComment true 0 previous ('-' :: text)
  | blockOpen {text} (h : text.head? ≠ some '/') :
    LeadStep 1 (.blockComment 1) false 1 none ('*' :: text)
  | blockClose {text} : LeadStep 1 .between false 1 (some '*') ('/' :: text)
  | nestedOpen {depth text} (h : profile.supportsNestedBlockComments = true) :
    LeadStep 1 (.blockComment (depth + 2)) false (depth + 1) (some '/') ('*' :: text)
  | nestedClose {depth text} (h : text.head? ≠ some '*') :
    LeadStep 1 (.blockComment (depth + 1)) false (depth + 2) (some '*') ('/' :: text)

variable {profile}

/-- What is left is a suffix of the text. -/
theorem leadingFrom_suffix (blank : Char → Bool) (skip : Nat) (mode : Leading) (text : Text) :
    leadingFrom profile blank skip mode text <:+ text := by
  fun_induction leadingFrom profile blank skip mode text with
  | case1 | case7 => exact suffix_rfl
  | _ => exact List.IsSuffix.trans ‹_› (suffix_cons _ _)

/-- The executable text of a statement, where no directives are kept before it. -/
theorem executableSql_eq (hprofile : profile.preservesTdsqlLeadingDirectives = false)
    (statement : Text) :
    executableSql profile statement =
      if (leadingExecutableSql profile (trimEnd statement)).isEmpty then none
      else some (leadingExecutableSql profile (trimEnd statement)) := by
  unfold executableSql executableSqlBounds
  simp only [hprofile]
  split
  · rfl
  -- the bounds cut off the trailing blanks and what leads the statement
  obtain ⟨leading, hleading⟩ : leadingExecutableSql profile (trimEnd statement) <:+
    trimEnd statement := leadingFrom_suffix ..
  have htake : statement.take (trimEnd statement).length = trimEnd statement :=
    (prefix_iff_eq_take.mp (List.rdropWhile_prefix _ _)).symm
  have hlength : (trimEnd statement).length -
      (leadingExecutableSql profile (trimEnd statement)).length = leading.length := by
    rw [← congrArg length hleading, length_append]
    omega
  simp only [Option.map_some, htake, hlength, Bool.false_eq_true, if_false]
  conv_lhs => rw [← hleading]
  rw [drop_left' rfl]

theorem isWhitespace_of_isAsciiWhitespace {c : Char} (h : isAsciiWhitespace c) :
    isWhitespace c := by
  simp only [isAsciiWhitespace, isWhitespace, Bool.or_eq_true, Bool.and_eq_true,
    decide_eq_true_eq] at h ⊢
  omega

/-- Skipping the ASCII blanks first changes nothing. -/
theorem leadingFrom_leadingFrom (skip : Nat) (mode : Leading) (text : Text) :
    leadingFrom profile isWhitespace 0 .between
        (leadingFrom profile isAsciiWhitespace skip mode text) =
      leadingFrom profile isWhitespace skip mode text := by
  have hash : isWhitespace '#' = false := by decide
  have dash : isWhitespace '-' = false := by decide
  have slash : isWhitespace '/' = false := by decide
  fun_induction leadingFrom profile isAsciiWhitespace skip mode text with
  | case1 => simp [leadingFrom]
  | case2 skip mode c rest ih => simpa [leadingFrom] using ih
  | case3 c rest hblank ih =>
    simpa [leadingFrom, isWhitespace_of_isAsciiWhitespace hblank] using ih
  | case4 c rest _ hc ih =>
    obtain ⟨rfl, hnext⟩ : c = '-' ∧ rest.head? = some '-' := by simpa using hc
    simpa [leadingFrom, dash, hnext] using ih
  | case5 c rest _ hdash hc ih =>
    obtain ⟨hhash, rfl⟩ : profile.supportsHashLineComments ∧ c = '#' := by simpa using hc
    simpa [leadingFrom, hash, hhash] using ih
  | case6 c rest _ _ hhash hc ih =>
    obtain ⟨⟨rfl, hnext⟩, hplain⟩ :
        (c = '/' ∧ rest.head? = some '*') ∧ opensExecutableComment rest.tail = false := by
      simpa using hc
    simpa [leadingFrom, slash, hnext, hplain] using ih
  | case7 => rfl
  | case8 c rest ih => simpa [leadingFrom] using ih
  | case9 c rest depth hc ih => simpa [leadingFrom, hc] using ih
  | case10 c rest depth hc hn ih | case11 c rest depth hc hn ih =>
    simpa [leadingFrom, hc, hn] using ih

/-- Before a clean text both tests read the same. -/
theorem hasExecutableFrom_eq {skip depth : Nat} {mode : Leading} {inLine : Bool}
    {previous : Option Char} {text : Text}
    (h : LeadStep profile skip mode inLine depth previous text)
    (hclean : cleanLead profile (fun _ => true) skip mode text) :
    hasExecutableFrom profile inLine depth previous text =
      !(leadingFrom profile isAsciiWhitespace skip mode text).isEmpty := by
  induction text generalizing skip mode inLine depth previous with
  | nil => simp [hasExecutableFrom, leadingFrom]
  | cons c rest ih =>
    cases h with (rw [cleanLead] at hclean; rw [leadingFrom, hasExecutableFrom])
    | between =>
      -- a blank, one of the three comments, or the executable part
      by_cases hblank : isAsciiWhitespace c
      · have hmark : c ≠ '-' ∧ c ≠ '#' ∧ c ≠ '/' := by
          refine ⟨?_, ?_, ?_⟩ <;> rintro rfl <;> exact absurd hblank (by decide)
        rw [if_pos hblank] at hclean
        simpa [hblank, hmark, isWhitespace_of_isAsciiWhitespace hblank] using ih .between hclean
      by_cases hdash : c = '-' ∧ rest.head? = some '-'
      · obtain ⟨rfl, hhead⟩ := hdash
        obtain ⟨rest, rfl⟩ := head?_eq_some_iff.mp hhead
        simp [hblank] at hclean
        simpa [hblank] using ih .lineOpen hclean
      by_cases hhash : profile.supportsHashLineComments ∧ c = '#'
      · obtain ⟨hprofile, rfl⟩ := hhash
        simp [hblank, hprofile] at hclean
        simpa [hblank, hprofile] using ih .lineComment hclean
      by_cases hopen : c = '/' ∧ rest.head? = some '*'
      · obtain ⟨rfl, hhead⟩ := hopen
        obtain ⟨rest, rfl⟩ := head?_eq_some_iff.mp hhead
        by_cases hexecutable : opensExecutableComment rest
        · simp [hblank, hexecutable]
        · simp [hblank, hexecutable] at hclean
          simpa [hblank, hexecutable] using ih (.blockOpen hclean.1) hclean.2
      · simp [hblank, hdash, hhash, hopen] at hclean
        simp [hblank, hdash, hhash, hopen, hclean]
    | lineComment =>
      by_cases hc : c = '\n'
      · simpa [hc] using ih .between (by simpa [hc] using hclean)
      · simpa [hc, bne_iff_ne.mpr hc] using ih .lineComment (by simpa [hc] using hclean)
    | @blockComment depth _ _ hclose hopen =>
      rw [if_neg (by simpa using hopen), if_neg (by simpa using hclose)]
      -- the comment ends or nests one level deeper or goes on
      by_cases hend : c = '*' ∧ rest.head? = some '/'
      · obtain ⟨rfl, hhead⟩ := hend
        obtain ⟨rest, rfl⟩ := head?_eq_some_iff.mp hhead
        cases depth with simp at hclean
        | zero => simpa using ih .blockClose hclean
        | succ depth => simpa using ih (.nestedClose hclean.1) hclean.2
      by_cases hnested : (profile.supportsNestedBlockComments ∧ c = '/') ∧ rest.head? = some '*'
      · obtain ⟨⟨hprofile, rfl⟩, hhead⟩ := hnested
        obtain ⟨rest, rfl⟩ := head?_eq_some_iff.mp hhead
        simp [hprofile] at hclean
        simpa [hprofile] using ih (.nestedOpen hprofile) hclean
      · simp [hend, hnested] at hclean
        simpa [hend, hnested] using
          ih (.blockComment (by simpa using hend) (by simpa using hnested)) hclean
    | lineOpen => exact ih .lineComment hclean
    | blockOpen h => simpa using ih (.blockComment (fun _ => h) (by simp)) hclean
    | blockClose => simpa using ih .between hclean
    | nestedOpen h => simpa [h] using ih (.blockComment (by simp) (by simp)) hclean
    | nestedClose h => simpa using ih (.blockComment (by simp) fun _ _ => h) hclean

/-- What is asked of the executable part is asked of what is left behind the lead. -/
theorem cleanLead_iff {part : Text → Bool} {skip : Nat} {mode : Leading} {text : Text}
    (hclean : cleanLead profile (fun _ => true) skip mode text) :
    cleanLead profile part skip mode text ↔
      leadingFrom profile isAsciiWhitespace skip mode text = [] ∨
        part (leadingFrom profile isAsciiWhitespace skip mode text) := by
  fun_induction leadingFrom profile isAsciiWhitespace skip mode text with
  | case1 => simp [cleanLead]
  | case2 skip mode c rest ih => exact ih hclean
  | case3 c rest hblank ih =>
    rw [cleanLead, if_pos hblank] at hclean ⊢
    exact ih hclean
  | case4 c rest hblank hdash ih =>
    rw [cleanLead, if_neg hblank, if_pos hdash] at hclean ⊢
    exact ih hclean
  | case5 c rest hblank hdash hhash ih =>
    rw [cleanLead, if_neg hblank, if_neg hdash, if_pos hhash] at hclean ⊢
    exact ih hclean
  | case6 c rest hblank hdash hhash hopen ih =>
    rw [cleanLead, if_neg hblank, if_neg hdash, if_neg hhash, if_pos hopen, Bool.and_eq_true]
      at hclean ⊢
    rw [ih hclean.2, and_iff_right hclean.1]
  | case7 c rest hblank hdash hhash hopen =>
    -- the executable part
    rw [cleanLead, if_neg hblank, if_neg hdash, if_neg hhash, if_neg hopen, Bool.and_eq_true]
      at hclean ⊢
    rw [and_iff_right hclean.1, or_iff_right (cons_ne_nil c rest)]
  | case8 c rest ih => exact ih hclean
  | case9 c rest depth hclose ih =>
    rw [cleanLead, if_pos hclose, Bool.and_eq_true] at hclean ⊢
    rw [ih hclean.2, and_iff_right hclean.1]
  | case10 c rest depth hclose hopen ih =>
    rw [cleanLead, if_neg hclose, if_pos hopen] at hclean ⊢
    exact ih hclean
  | case11 c rest depth hclose hopen ih =>
    rw [cleanLead, if_neg hclose, if_neg hopen] at hclean ⊢
    exact ih hclean

theorem leadingTrimmed_eq_nil_iff {text : Text} : leadingTrimmed profile text = [] ↔
    ¬ (leadingExecutableSql profile text).any isSubstantial := by
  have houter (c : Char) : (isWhitespace c || decide (c = ';')) = !isSubstantial c := by
    simp [isSubstantial]
  simp only [leadingTrimmed, houter, rdropWhile_eq_nil_iff, any_eq_true, not_exists, not_and,
    Bool.not_eq_true', Bool.not_eq_true]
  constructor
  · intro h
    by_contra hsome
    -- the first substantial character is kept
    have hkept : (leadingExecutableSql profile text).dropWhile (!isSubstantial ·) ≠ [] := by
      simpa [dropWhile_eq_nil_iff] using hsome
    have hfirst := head_dropWhile_not (!isSubstantial ·) hkept
    simp [h _ (head_mem hkept)] at hfirst
  · exact fun h c hc => h c ((dropWhile_suffix _).subset hc)

/-- **The two tests agree on clean texts**, exactly where the executable part is not made of blanks
and separators only. -/
theorem executableTests_agree_iff {text : Text}
    (hclean : cleanLead profile (fun _ => true) 0 .between text) :
    (hasExecutableSql profile text ↔ leadingTrimmed profile text ≠ []) ↔
      cleanLead profile (·.any isSubstantial) 0 .between text := by
  have hhas : hasExecutableSql profile text = !(leadingExecutableSql profile text).isEmpty :=
    hasExecutableFrom_eq .between hclean
  rw [cleanLead_iff hclean, ne_eq, leadingTrimmed_eq_nil_iff, hhas, ← leadingExecutableSql]
  by_cases hleft : leadingExecutableSql profile text = [] <;> simp [hleft]

theorem executableTests_agree_comment :
    cleanLead {} (fun _ => true) 0 .between "/**/;".toList ∧
      ((hasExecutableSql {} "/**/;".toList ↔ leadingTrimmed {} "/**/;".toList ≠ []) ↔
        cleanLead {} (·.any isSubstantial) 0 .between "/**/;".toList) :=
  ⟨by decide +kernel, executableTests_agree_iff (by decide +kernel)⟩

/-- A comment that starts with its own closer, a blank that is not ASCII, and a lone separator. -/
theorem executableTests_not_agree :
    ¬ ∃ text ∈ ["/*/ x */".toList, "\u00a0-- x".toList, [';']],
      (hasExecutableSql {} text ↔ leadingTrimmed {} text ≠ []) := by
  decide +kernel

end Dbx.Sql
