import Dbx.Lexing.Stepper
import Dbx.Sql.Profile

/-!
# Read-only Cypher

A Neo4j query runs on a read-only connection when a scanner has found no word in it that writes. The
scanner leaves comments and quoted text out, and allows such words as the names of properties,
labels, parameters and map keys. It is compared here with the tokens that Cypher itself reads.

## Main results

* `scanner_run_eq`: without such backslashes the scanner reads the tokens of the query
* `exposes_iff`: the check of the scanner finds exactly the keywords
* `no_keyword_of_isProven`: no unsafe keyword occurs in a query proven read-only
-/

namespace Dbx.Cypher

open Text List

/-- `UNSAFE_WORDS`. -/
def unsafeWords : List Text :=
  ["CREATE".toList, "INSERT".toList, "MERGE".toList, "SET".toList, "REMOVE".toList,
    "DELETE".toList, "DETACH".toList, "DROP".toList, "ALTER".toList, "RENAME".toList,
    "GRANT".toList, "REVOKE".toList, "DENY".toList, "CALL".toList, "FOREACH".toList,
    "LOAD".toList, "START".toList, "STOP".toList, "TERMINATE".toList]

/-- The words with which a read starts. -/
def readWords : List Text :=
  ["MATCH".toList, "OPTIONAL".toList, "RETURN".toList, "WITH".toList, "UNWIND".toList,
    "SHOW".toList, "EXPLAIN".toList, "PROFILE".toList]

/-- A piece of a query. Words are in upper case, since keywords are read without regard to case. -/
inductive Token
  | word (text : Text)
  /-- `.`, `:` or `$`. -/
  | sign (c : Char)
  | quoted
  | symbol
  | separator
  deriving DecidableEq, Repr

section Scanners

variable (unicode : Sql.Unicode)

/-- The word that starts with a character, and the number of its further characters. -/
def wordAt (c : Char) (rest : Text) : Text × Nat :=
  let more := rest.takeWhile fun d => unicode.isAlphanumeric d || d = '_'
  (toAsciiUppercase (c :: more), more.length)

/-- The number of characters and the tokens of what is neither a comment nor quoted. -/
def plainStep (c : Char) (rest : Text) : Nat × List Token :=
  if c = ';' then (0, [.separator])
  else if c.isAlpha || c = '_' then
    ((wordAt unicode c rest).2, [.word (wordAt unicode c rest).1])
  else if c = '.' || c = ':' || c = '$' then (0, [.sign c])
  else if !isWhitespace c then (0, [.symbol])
  else (0, [])

/-! ### The scanner -/

/-- The loop the scanner is in. -/
inductive ScanMode
  | words
  | lineComment
  | blockComment
  | quoted (quote : Char)
  deriving DecidableEq, Repr

/-- The loop of the scanner, and whether it has returned `false`; what it reads after that has no
effect. -/
structure Scan where
  mode : ScanMode
  rejected : Bool
  deriving DecidableEq, Repr

/-- One turn of the loop in which the scanner is. -/
def Scan.step (s : Scan) (c : Char) (rest : Text) : Scan × Nat × List Token :=
  match s.mode with
  | .words =>
    if c = '/' && rest.head? = some '/' then ({ s with mode := .lineComment }, 1, [])
    else if c = '/' && rest.head? = some '*' then ({ s with mode := .blockComment }, 1, [])
    else if c = '\'' || c = '"' || c = '\x60' then ({ s with mode := .quoted c }, 0, [])
    else (s, plainStep unicode c rest)
  | .lineComment =>
    -- the end of the line is read as white space
    if c = '\n' || c = '\r' then ({ s with mode := .words }, 0, []) else (s, 0, [])
  | .blockComment =>
    if c = '/' && rest.head? = some '*' then ({ s with rejected := true }, 0, [])
    else if c = '*' && rest.head? = some '/' then ({ s with mode := .words }, 1, [])
    else (s, 0, [])
  | .quoted quote =>
    if c = '\\' then (s, 1, [])
    else if c = quote then
      if rest.head? = some quote then (s, 1, []) else ({ s with mode := .words }, 0, [.quoted])
    else (s, 0, [])

/-- The scanner of `is_proven_read_only_cypher`. -/
def scanner : Stepper Scan Token where
  step s c rest := s.step unicode c rest

/-- The statements between the separators. -/
def statements : List Token → List (List Token)
  | [] => [[]]
  | .separator :: rest => [] :: statements rest
  | token :: rest => (statements rest).modifyHead (token :: ·)

/-- A token after which a word is a name. -/
def Token.namesNext : Option Token → Bool
  | some (.sign c) => c = '.' || c = ':' || c = '$'
  | _ => false

/-- An unsafe word occurs that neither follows a sign nor precedes a colon, behind a token. -/
def exposesFrom : Option Token → List Token → Bool
  | _, [] => false
  | previous, token :: rest =>
    (match token with
      | .word text => unsafeWords.contains text && !Token.namesNext previous &&
        rest.head? ≠ some (.sign ':')
      | _ => false) || exposesFrom (some token) rest

/-- What the scanner requires of a statement. -/
def isReadStatement (words : List Token) : Bool :=
  (match words.head? with
    | some (.word first) => readWords.contains first &&
      (first = "SHOW".toList || words.contains (.word "RETURN".toList))
    | _ => false) && !exposesFrom none words

/-- What is made of the scanner at the end of a query, and of the tokens it has read. -/
def provesReadOnly (final : Scan × List Token) : Bool :=
  if final.1.rejected then false
  else
    match final.1.mode with
    | .blockComment | .quoted _ => false
    | .words | .lineComment =>
      let nonempty := (statements final.2).filter (!·.isEmpty)
      !nonempty.isEmpty && nonempty.all isReadStatement

/-- `is_proven_read_only_cypher`. -/
def isProvenReadOnlyCypher (source : Text) : Bool :=
  if containsText source "\\u".toList then false
  else provesReadOnly ((scanner unicode).run 0 ⟨.words, false⟩ source)

/-! ### The tokens of Cypher -/

/-- What Cypher is reading. -/
inductive LexMode
  | code
  | lineComment
  | blockComment
  | string (quote : Char)
  /-- A name between backticks. -/
  | name
  deriving DecidableEq, Repr

/-- One step of Cypher's lexer. A backslash escapes in strings only, and a backtick name ends at a
backtick that is not doubled. A string that starts right where another of its kind ends is taken
together with it. -/
def LexMode.step (mode : LexMode) (c : Char) (rest : Text) : LexMode × Nat × List Token :=
  match mode with
  | .code =>
    if c = '/' && rest.head? = some '/' then (.lineComment, 1, [])
    else if c = '/' && rest.head? = some '*' then (.blockComment, 1, [])
    else if c = '\'' || c = '"' then (.string c, 0, [])
    else if c = '\x60' then (.name, 0, [])
    else (.code, plainStep unicode c rest)
  | .lineComment => if c = '\n' || c = '\r' then (.code, 0, []) else (.lineComment, 0, [])
  | .blockComment =>
    if c = '*' && rest.head? = some '/' then (.code, 1, []) else (.blockComment, 0, [])
  | .string quote =>
    if c = '\\' then (.string quote, 1, [])
    else if c = quote then
      if rest.head? = some quote then (.string quote, 1, []) else (.code, 0, [.quoted])
    else (.string quote, 0, [])
  | .name =>
    if c = '\x60' then
      if rest.head? = some '\x60' then (.name, 1, []) else (.code, 0, [.quoted])
    else (.name, 0, [])

def lexer : Stepper LexMode Token where
  step mode c rest := mode.step unicode c rest

def lex (source : Text) : List Token := ((lexer unicode).run 0 .code source).2

/-- The unsafe word `text` occurs among the tokens as a keyword: not as the name of a property
(behind a dot), of a label (behind a colon), of a parameter (behind a dollar sign) or of a map key
(before a colon). -/
def Keyword (tokens : List Token) (text : Text) : Prop :=
  ∃ before after, tokens = before ++ .word text :: after ∧ text ∈ unsafeWords ∧
    (∀ c ∈ ['.', ':', '$'], before.getLast? ≠ some (.sign c)) ∧ after.head? ≠ some (.sign ':')

/-- Within a backtick name the scanner does not skip a backtick behind a backslash. -/
def PlainEscape (s : Scan) (c : Char) (rest : Text) : Prop :=
  s.mode = .quoted '\x60' → c = '\\' → rest.head? ≠ some '\x60'

instance (s : Scan) (c : Char) (rest : Text) : Decidable (PlainEscape s c rest) :=
  inferInstanceAs (Decidable (_ → _ → _))

/-- In no backtick name, read with the scanner's escapes, a backslash stands before a backtick. -/
def EscapesPlainly (source : Text) : Prop :=
  (scanner unicode).Along PlainEscape 0 ⟨.words, false⟩ source

end Scanners

/-! ### The scanner reads the tokens of the query -/

variable {unicode : Sql.Unicode}

/-- What Cypher is reading in a loop of the scanner. -/
def ScanMode.lexMode : ScanMode → LexMode
  | .words => .code
  | .lineComment => .lineComment
  | .blockComment => .blockComment
  | .quoted quote => if quote = '\x60' then .name else .string quote

/-- The scanner and the lexer before a text: they are in step, or the scanner skips a character of
a backtick name that the lexer reads and that is not a backtick. -/
inductive InStep : Nat → Scan → Nat → LexMode → Text → Prop
  | same {skip : Nat} {s : Scan} {text : Text} : InStep skip s skip s.mode.lexMode text
  | skipped {s : Scan} {text : Text} (hmode : s.mode = .quoted '\x60')
      (hhead : text.head? ≠ some '\x60') : InStep 1 s 0 .name text

attribute [local simp] ScanMode.lexMode statements

/-- One step in which both consume the same. -/
theorem lexMode_step {s : Scan} {c : Char} {rest : Text} (h : s.mode = .quoted '\x60' → c ≠ '\\') :
    s.mode.lexMode.step unicode c rest =
      ((s.step unicode c rest).1.mode.lexMode, (s.step unicode c rest).2) := by
  obtain ⟨mode, rejected⟩ := s
  cases mode with
  | words =>
    simp only [ScanMode.lexMode, LexMode.step, Scan.step]
    -- a quote opens a string or a name
    split
    · rfl
    split
    · rfl
    by_cases hname : c = '\x60'
    · subst hname
      simp
    · by_cases hquote : c = '\'' ∨ c = '"'
      · have hq : (decide (c = '\'') || decide (c = '"')) := by simpa using hquote
        simp [hq, hname]
      · have hq : (decide (c = '\'') || decide (c = '"')) = false := by simpa using hquote
        simp [hq, hname]
  | lineComment =>
    simp only [ScanMode.lexMode, LexMode.step, Scan.step]
    split <;> rfl
  | blockComment =>
    by_cases hopen : c = '/' ∧ rest.head? = some '*'
    · -- a rejected opener is an ordinary part of the comment
      obtain ⟨rfl, hhead⟩ := hopen
      simp [LexMode.step, Scan.step, hhead]
    · by_cases hclose : c = '*' ∧ rest.head? = some '/'
      · simp [LexMode.step, Scan.step, hclose]
      · simp [LexMode.step, Scan.step, hopen, hclose]
  | quoted quote =>
    by_cases hname : quote = '\x60'
    · subst hname
      have hc : c ≠ '\\' := h rfl
      simp only [ScanMode.lexMode, LexMode.step, Scan.step, hc, if_false, if_true]
      split
      · split <;> simp
      · simp
    · simp only [ScanMode.lexMode, LexMode.step, Scan.step, hname, if_false]
      split
      · simp [hname]
      · split
        · split <;> simp [hname]
        · simp [hname]

theorem InStep.advance {skip skip' : Nat} {s : Scan} {mode : LexMode} {c : Char} {rest : Text}
    (h : InStep skip s skip' mode (c :: rest)) (hplain : skip = 0 → PlainEscape s c rest) :
    InStep ((scanner unicode).advance skip s c rest).1 ((scanner unicode).advance skip s c rest).2.1
        ((lexer unicode).advance skip' mode c rest).1
        ((lexer unicode).advance skip' mode c rest).2.1 rest ∧
      ((scanner unicode).advance skip s c rest).2.2 =
        ((lexer unicode).advance skip' mode c rest).2.2 := by
  cases h with
  | same =>
    cases skip with
    | succ skip => exact ⟨.same, rfl⟩
    | zero =>
      by_cases hescape : s.mode = .quoted '\x60' ∧ c = '\\'
      · -- the scanner skips what is behind the backslash, the lexer does not
        obtain ⟨hmode, rfl⟩ := hescape
        have hhead := hplain rfl hmode rfl
        simp only [Stepper.advance, scanner, lexer, Scan.step, hmode, ScanMode.lexMode,
          LexMode.step, if_true]
        exact ⟨.skipped hmode hhead, rfl⟩
      · have hstep : s.mode.lexMode.step unicode c rest = _ :=
          lexMode_step fun hmode hc => hescape ⟨hmode, hc⟩
        simp only [Stepper.advance, scanner, lexer, hstep]
        exact ⟨.same, trivial⟩
  | skipped hmode hhead =>
    have hc : c ≠ '\x60' := by simpa using hhead
    simp only [Stepper.advance, lexer, LexMode.step, hc, if_false]
    refine ⟨?_, trivial⟩
    have hname : LexMode.name = s.mode.lexMode := by simp [hmode]
    rw [hname]
    exact .same

/-- **The scanner reads the tokens of the query**, where no backslash stands before a backtick in a
backtick name. -/
theorem scanner_run_eq {source : Text} (h : EscapesPlainly unicode source) :
    ((scanner unicode).run 0 ⟨.words, false⟩ source).2 = lex unicode source :=
  (Stepper.run_lockstep rfl (by rintro _ _ _ _ rfl rfl; rfl)
    (fun hrel hplain => hrel.advance hplain) (InStep.same) h).2

/-! ### The check finds the keywords -/

theorem getLast?_cons_or {α : Type} (a : α) (l : List α) (b : Option α) :
    (a :: l).getLast?.or b = l.getLast?.or (some a) := by
  rw [getLast?_cons]
  cases l.getLast? <;> rfl

variable (tokens : List Token) (previous : Option Token)

/-- The check finds exactly the keywords behind a token. -/
theorem exposesFrom_iff :
    exposesFrom previous tokens ↔ ∃ text before after,
      tokens = before ++ .word text :: after ∧ text ∈ unsafeWords ∧
        Token.namesNext (before.getLast?.or previous) = false ∧
        after.head? ≠ some (.sign ':') := by
  induction tokens generalizing previous with
  | nil => simp [exposesFrom]
  | cons token rest ih =>
    simp only [exposesFrom, Bool.or_eq_true, ih]
    constructor
    · -- the word is the first token, or one behind it
      rintro (hhere | ⟨text, before, after, rfl, htext, hnames, hhead⟩)
      · cases token with
        | word text =>
          obtain ⟨⟨htext, hnames⟩, hhead⟩ : (text ∈ unsafeWords ∧
              Token.namesNext previous = false) ∧ rest.head? ≠ some (.sign ':') := by
            simpa using hhere
          exact ⟨text, [], rest, rfl, htext, by simpa using hnames, hhead⟩
        | sign _ | quoted | symbol | separator => simp at hhere
      · exact ⟨text, token :: before, after, rfl, htext, by rwa [getLast?_cons_or], hhead⟩
    · rintro ⟨text, before, after, heq, htext, hnames, hhead⟩
      -- the token that may name the word is the last one that was passed
      cases before with
      | nil =>
        obtain ⟨rfl, rfl⟩ : token = .word text ∧ rest = after := by simpa using heq
        left
        have hnames : Token.namesNext previous = false := by simpa using hnames
        simp [htext, hnames, hhead]
      | cons first before =>
        obtain ⟨rfl, rfl⟩ : token = first ∧ rest = before ++ .word text :: after := by
          simpa using heq
        rw [getLast?_cons_or] at hnames
        exact .inr ⟨text, before, after, rfl, htext, hnames, hhead⟩

theorem namesNext_eq_false {token : Option Token} :
    Token.namesNext token = false ↔ ∀ c ∈ ['.', ':', '$'], token ≠ some (.sign c) := by
  cases token with
  | none => simp [Token.namesNext]
  | some token =>
    cases token with
    | sign c => simp [Token.namesNext, and_assoc]
    | word _ | quoted | symbol | separator => simp [Token.namesNext]

/-- The check of the scanner finds exactly the keywords. -/
theorem exposes_iff : exposesFrom none tokens ↔ ∃ text, Keyword tokens text := by
  simp only [exposesFrom_iff, Option.or_none, namesNext_eq_false, Keyword]

theorem exposesFrom_separator : exposesFrom (some .separator) tokens = exposesFrom none tokens := by
  cases tokens <;> rfl

theorem statements_ne_nil : statements tokens ≠ [] := by
  fun_induction statements tokens with
  | case1 | case2 => simp
  | case3 token rest _ ih => simpa [modifyHead_eq_nil_iff] using ih

/-- The first statement starts with a colon when the tokens do. -/
theorem head?_statements {first : List Token} {more : List (List Token)}
    (h : statements tokens = first :: more) :
    first.head? = some (.sign ':') ↔ tokens.head? = some (.sign ':') := by
  cases tokens with
  | nil =>
    obtain ⟨rfl, rfl⟩ : first = [] ∧ more = [] := by simpa [eq_comm] using h
    simp
  | cons token rest =>
    by_cases htoken : token = .separator
    · subst htoken
      obtain ⟨rfl, -⟩ : first = [] ∧ more = statements rest := by
        simpa [eq_comm] using h
      simp
    · rw [statements] at h
      · obtain ⟨first', more', hrest⟩ := exists_cons_of_ne_nil (statements_ne_nil rest)
        obtain ⟨rfl, -⟩ : first = token :: first' ∧ more = more' := by
          simpa [hrest, eq_comm] using h
        simp
      · exact htoken

/-- A query exposes an unsafe word when one of its statements does. -/
theorem exposesFrom_statements
    {first : List Token} {more : List (List Token)} (h : statements tokens = first :: more) :
    exposesFrom previous tokens = (exposesFrom previous first || more.any (exposesFrom none)) := by
  induction tokens generalizing previous first more with
  | nil =>
    obtain ⟨rfl, rfl⟩ : first = [] ∧ more = [] := by simpa [eq_comm] using h
    rfl
  | cons token rest ih =>
    obtain ⟨first', more', hrest⟩ := exists_cons_of_ne_nil (statements_ne_nil rest)
    by_cases htoken : token = .separator
    · subst htoken
      obtain ⟨rfl, rfl⟩ : first = [] ∧ more = statements rest := by
        simpa [eq_comm] using h
      simp only [exposesFrom, exposesFrom_separator, ih none hrest, hrest, any_cons,
        Bool.false_or]
    · rw [statements] at h
      · obtain ⟨rfl, rfl⟩ : first = token :: first' ∧ more = more' := by
          simpa [hrest, eq_comm] using h
        have hhead := head?_statements rest hrest
        simp only [exposesFrom, ih _ hrest, Bool.or_assoc, ne_eq, hhead]
      · exact htoken

/-- **A query proven read-only has no unsafe keyword**, where no backslash stands before a backtick
in a backtick name. -/
theorem no_keyword_of_isProven {source : Text} (hplain : EscapesPlainly unicode source) :
    isProvenReadOnlyCypher unicode source = true → ∀ text, ¬ Keyword (lex unicode source) text := by
  intro hproven text hkeyword
  rw [← scanner_run_eq hplain] at hkeyword
  set tokens := ((scanner unicode).run 0 ⟨.words, false⟩ source).2 with htokens
  -- every statement with a token in it passes the check, so none of them exposes a word
  have hall : ((statements tokens).filter (!·.isEmpty)).all isReadStatement = true := by
    unfold isProvenReadOnlyCypher provesReadOnly at hproven
    simp only [← htokens] at hproven
    repeat' split at hproven
    all_goals simp_all
  have hsafe : ∀ words ∈ statements tokens, exposesFrom none words = false := by
    intro words hwords
    cases words with
    | nil => rfl
    | cons token words =>
      have hread := all_eq_true.mp hall (token :: words) (by simp [hwords])
      simp only [isReadStatement, Bool.and_eq_true, Bool.not_eq_true'] at hread
      exact hread.2
  obtain ⟨first, more, hstatements⟩ := exists_cons_of_ne_nil (statements_ne_nil tokens)
  have hexposed := (exposes_iff tokens).mpr ⟨text, hkeyword⟩
  rw [exposesFrom_statements tokens none hstatements, Bool.or_eq_true, any_eq_true] at hexposed
  rcases hexposed with hfirst | ⟨words, hwords, hmore⟩
  · simp [hsafe first (by simp [hstatements])] at hfirst
  · simp [hsafe words (by simp [hstatements, hwords])] at hmore

/-- A read with unsafe words in a backtick name, a string and a property. -/
def readQuery : Text := "MATCH (n:\x60a\\SET\x60) WHERE n.set = 'x\\' SET' RETURN n".toList

theorem no_keyword_readQuery : isProvenReadOnlyCypher .ascii readQuery = true ∧
      ∀ text, ¬ Keyword (lex .ascii readQuery) text := by
  have hproven : isProvenReadOnlyCypher .ascii readQuery = true := by decide +kernel
  have hplain : EscapesPlainly .ascii readQuery := by
    unfold EscapesPlainly
    decide +kernel
  exact ⟨hproven, no_keyword_of_isProven hplain hproven⟩

/-- A write behind a backtick name that ends in a backslash. -/
def hiddenWrite : Text := "MATCH (n:\x60a\\\x60) SET n.p = 1 // \x60\nRETURN n".toList

/-- **A write is proven read-only**: the scanner takes the backtick behind the backslash as part of
the name, and the rest of the line with it. -/
theorem keyword_hiddenWrite : isProvenReadOnlyCypher .ascii hiddenWrite = true ∧
      ∃ text, Keyword (lex .ascii hiddenWrite) text :=
  ⟨by decide +kernel, (exposes_iff _).mp (by decide +kernel)⟩

end Dbx.Cypher
