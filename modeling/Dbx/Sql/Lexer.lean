import Dbx.Lexing.Stepper
import Dbx.Sql.Profile

/-!
# The lexical structure of a dialect

The reading of an SQL text by the rules that a dialect profile gives: which characters are code, and
which stand in a comment, a string or a quoted identifier. It is the yardstick for the scanners and
the literal formatter, which all know the dialects in their own ways.

A quote inside a string is doubled, or escaped by a backslash in the strings that have escapes.

## Main definitions

* `Mode`, `Piece`, `lexer`: the lexer of a profile
-/

namespace Dbx.Sql

open Text

variable (unicode : Unicode) (profile : SqlDialectProfile)

/-- What the lexer is in: code, a string, an identifier with its quote, or a comment. -/
inductive Mode
  | code
  | string (escapes : Bool)
  | identifier (quote : Char)
  | lineComment
  | blockComment (depth : Nat)
  | dollar (tag : Text)
  | qQuote (closer : Char)
  deriving DecidableEq, Repr

/-- What the lexer finds: a character of code, or a part of something else. -/
inductive Piece
  | code (c : Char)
  | literal
  | comment
  deriving DecidableEq, Repr

/-- A state of the lexer: its mode, and the text it has read, backwards. -/
structure LexState where
  mode : Mode
  behind : Text
  deriving DecidableEq, Repr

def LexState.start : LexState := ⟨.code, []⟩

variable (s : LexState)

/-- The state in another mode after the next characters. -/
def LexState.to (mode : Mode) (read : Text) : LexState :=
  ⟨mode, read.reverse ++ s.behind⟩

/-- `ends_with_escape_string_prefix`, of a text read backwards. -/
def endsWithEscapeStringPrefix : Text → Bool
  | c :: before => (c = 'E' || c = 'e') && !before.head?.any unicode.isIdentifierContinueChar
  | [] => false

/-- `ends_with_oracle_q_quote_prefix`, of a text read backwards. -/
def endsWithOracleQQuotePrefix : Text → Bool
  | c :: before =>
    let before := match before with
      | 'n' :: before | 'N' :: before => before
      | before => before
    (c = 'q' || c = 'Q') && !before.head?.any unicode.isIdentifierContinueChar
  | [] => false

/-- `oracle_q_quote_closer`. -/
def oracleQQuoteCloser : Char → Option Char
  | '[' => some ']'
  | '\x7b' => some '\x7d'
  | '(' => some ')'
  | '<' => some '>'
  | '\'' | ' ' | '\t' | '\n' | '\r' => none
  | c => some c

/-- `dash_dash_starts_line_comment`. -/
def dashDashStartsLineComment (charAfterDashes : Option Char) : Bool :=
  !profile.requiresWhitespaceAfterLineCommentDashes ||
    charAfterDashes.all fun c => isWhitespace c || isControl c

/-- The rest of a dollar-quote tag, behind its first letter. -/
def dollarTagEnd : Text → Option Text
  | [] => none
  | c :: rest =>
    if c = '$' then some ['$']
    else if c.isAlphanum || c = '_' then (dollarTagEnd rest).map (c :: ·)
    else none

/-- `dollar_quote_tag_at`, behind its first `$`: the rest of the tag. -/
def dollarQuoteTag : Text → Option Text
  | [] => none
  | c :: rest =>
    if c = '$' then some ['$']
    else if c.isAlpha || c = '_' then (dollarTagEnd rest).map (c :: ·)
    else none

/-- The opening of a q-quoted literal, behind its quote. -/
def openQQuote (rest : Text) : LexState × Nat × List Piece :=
  match rest with
  | [] => (s.to (.string false) ['\''], 0, [.literal])
  | opening :: _ =>
    match oracleQQuoteCloser opening with
    | some closer => (s.to (.qQuote closer) ['\'', opening], 1, [.literal])
    | none => (s.to .code ['\'', opening], 1, [.literal])

/-- A step of the lexer in code. -/
def codeStep (c : Char) (rest : Text) : LexState × Nat × List Piece :=
  let next := rest.head?
  if c = '\'' then
    if profile.supportsOracleQQuotes && endsWithOracleQQuotePrefix unicode s.behind then
      openQQuote s rest
    else
      let escapes := profile.supportsBackslashEscapedQuotes ||
        profile.supportsPostgresEscapeStrings && endsWithEscapeStringPrefix unicode s.behind
      (s.to (.string escapes) [c], 0, [.literal])
  else if c = '"' || c = '\x60' && profile.supportsBacktickIdentifiers then
    (s.to (.identifier c) [c], 0, [.literal])
  else if c = '-' && next = some '-' && dashDashStartsLineComment profile (rest.drop 1).head? then
    (s.to .lineComment ['-', '-'], 1, [.comment])
  else if c = '#' && profile.supportsHashLineComments then
    (s.to .lineComment [c], 0, [.comment])
  else if c = '/' && next = some '*' then
    (s.to (.blockComment 0) ['/', '*'], 1, [.comment])
  else
    -- a `$` behind a character of an identifier belongs to the identifier
    let opensTag := c = '$' && profile.supportsDollarQuotedStrings &&
      !s.behind.head?.any unicode.isIdentifierContinueChar
    match if opensTag then dollarQuoteTag rest else none with
    | some tag => (s.to (.dollar ('$' :: tag)) ('$' :: tag), tag.length, [.literal])
    | none => (s.to .code [c], 0, [.code c])

/-- A step inside quotes, where a backslash may escape the next character. -/
def quotedStep (quote : Char) (escapes : Bool) (c : Char) (rest : Text) :
    LexState × Nat × List Piece :=
  let next := rest.take 1
  if c = '\\' && escapes then (s.to s.mode (c :: next), next.length, [.literal])
  else if c = quote then
    if next = [quote] then (s.to s.mode [c, quote], 1, [.literal])
    else (s.to .code [c], 0, [.literal])
  else (s.to s.mode [c], 0, [.literal])

/-- A step inside a block comment. -/
def blockCommentStep (depth : Nat) (c : Char) (rest : Text) : LexState × Nat × List Piece :=
  let next := rest.head?
  if c = '*' && next = some '/' then
    let mode := match depth with
      | 0 => .code
      | depth + 1 => .blockComment depth
    (s.to mode ['*', '/'], 1, [.comment])
  else if c = '/' && next = some '*' && profile.supportsNestedBlockComments then
    (s.to (.blockComment (depth + 1)) ['/', '*'], 1, [.comment])
  else (s.to s.mode [c], 0, [.comment])

/-- A step of the lexer. -/
def lexStep (c : Char) (rest : Text) : LexState × Nat × List Piece :=
  match s.mode with
  | .code => codeStep unicode profile s c rest
  | .string escapes => quotedStep s '\'' escapes c rest
  | .identifier quote =>
    quotedStep s quote (quote = '"' && profile.supportsBackslashEscapedQuotes) c rest
  | .lineComment => (s.to (if c = '\n' then .code else .lineComment) [c], 0, [.comment])
  | .blockComment depth => blockCommentStep profile s depth c rest
  | .dollar tag =>
    if tag.isPrefixOf (c :: rest) then (s.to .code tag, tag.length - 1, [.literal])
    else (s.to s.mode [c], 0, [.literal])
  | .qQuote closer =>
    if c = closer && rest.head? = some '\'' then (s.to .code [c, '\''], 1, [.literal])
    else (s.to s.mode [c], 0, [.literal])

def lexer : Stepper LexState Piece where
  step := lexStep unicode profile

/-! ## Tags -/

variable {text tag : Text}

theorem isPrefix_dollarTagEnd (h : dollarTagEnd text = some tag) :
    tag <+: text := by
  induction text generalizing tag with
  | nil => cases h
  | cons d text ih =>
    rw [dollarTagEnd] at h
    split at h
    · next heq =>
      cases h
      simp [heq]
    · split at h
      · obtain ⟨tail, htail, rfl⟩ := Option.map_eq_some_iff.mp h
        exact List.cons_prefix_cons.mpr ⟨rfl, ih htail⟩
      · cases h

/-- A tag is read as its rest is, but does not start with a digit. -/
theorem dollarQuoteTag_eq (text : Text) :
    dollarQuoteTag text = if text.head?.any Char.isDigit then none else dollarTagEnd text := by
  cases text with
  | nil => rfl
  | cons c rest =>
    rw [dollarQuoteTag, dollarTagEnd, List.head?_cons]
    by_cases hdigit : c.isDigit
    · have hdollar : c ≠ '$' := by
        rintro rfl
        exact absurd hdigit (by decide)
      have hunder : c ≠ '_' := by
        rintro rfl
        exact absurd hdigit (by decide)
      have halpha : c.isAlpha = false := by
        rw [← Bool.not_eq_true, isAlpha_iff]
        change (decide (c.val ≥ '0'.val) && decide (c.val ≤ '9'.val)) at hdigit
        rw [Bool.and_eq_true, decide_eq_true_eq, decide_eq_true_eq] at hdigit
        have hrange : 48 ≤ c.toNat ∧ c.toNat ≤ 57 := hdigit
        omega
      simp [hdigit, hdollar, hunder, halpha]
    · simp [hdigit, Char.isAlphanum]

theorem dollarTagEnd_of_dollarQuoteTag (h : dollarQuoteTag text = some tag) :
    dollarTagEnd text = some tag := by
  rw [dollarQuoteTag_eq] at h
  exact (Option.ite_none_left_eq_some.mp h).2

end Dbx.Sql
