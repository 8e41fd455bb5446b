import Dbx.Grid.Literal
import Dbx.Sql.Closed

/-!
# What the literals of grid cells say

The formatter of grid cells keeps its own lists of the database types that read a backslash as an
escape. Here its literals are read by the lexer of the database type: they should be closed, and a
text that is only quoted should be denoted by its literal.
-/

namespace Dbx.Grid

open Text Sql List

/-! ## Denotations -/

/-- What a backslash and a letter stand for: in the MySQL family `\Z` and `\0` are control
characters, and where there is no `\Z` a character has its code behind `\x`. -/
inductive EscapeTable
  | mysql
  | hex
  | plain
  deriving DecidableEq, Repr

/-- The character behind a backslash, and the number of characters that spell it. -/
def unescape : EscapeTable → Text → Option (Char × Nat)
  | .mysql, 'Z' :: _ => some (subControl, 1)
  | .hex, 'x' :: a :: b :: _ => some (Char.ofNat (16 * hexDigitValue a + hexDigitValue b), 3)
  | .mysql, '0' :: _ | .hex, '0' :: _ => some (Char.ofNat 0, 1)
  | _, c :: _ => some (c, 1)
  | _, [] => none

/-- The text denoted by a string that starts behind its quote and ends with the text. -/
def decode (escapes : Bool) (table : EscapeTable) : Nat → Text → Option Text
  | _, [] => none
  | skip + 1, _ :: rest => decode escapes table skip rest
  | 0, c :: rest =>
    if c = '\'' then
      if rest.isEmpty then some []
      else if rest.head? = some '\'' then (decode escapes table 1 rest).map ('\'' :: ·)
      else none
    else if c = '\\' && escapes then
      (unescape table rest).bind fun (d, length) =>
        (decode escapes table length rest).map (d :: ·)
    else (decode escapes table 0 rest).map (c :: ·)

/-- The escapes of the strings of a database type. -/
def escapeTable : DatabaseType → EscapeTable
  | .mysql | .doris | .starRocks | .manticoreSearch | .goldendb => .mysql
  | .clickHouse | .snowflake => .hex
  | _ => .plain

open SqlDialectProfile

/-- The text denoted by a string literal: an ordinary one, one of national characters, or, where
the database type has them, an escape string. -/
def stringValue (databaseType : DatabaseType) (literal : Text) : Option Text :=
  let profile := forDatabaseType databaseType
  let ordinary := decode profile.supportsBackslashEscapedQuotes (escapeTable databaseType) 0
  match literal with
  | '\'' :: rest => ordinary rest
  | 'N' :: '\'' :: rest => ordinary rest
  | 'E' :: '\'' :: rest =>
    if profile.supportsPostgresEscapeStrings then decode true .hex 0 rest else none
  | _ => none

theorem decode_drop (escapes : Bool) (table : EscapeTable) (skip : Nat) (text : Text) :
    decode escapes table skip text = decode escapes table 0 (text.drop skip) := by
  induction text generalizing skip with
  | nil => simp [decode]
  | cons c rest ih =>
    cases skip with
    | zero => rfl
    | succ skip => exact ih skip

section Decode

variable {escapes : Bool} {table : EscapeTable} {rest : Text} {c : Char}

theorem decode_char (hquote : c ≠ '\'') (hbackslash : c = '\\' → escapes = false) :
    decode escapes table 0 (c :: rest) = (decode escapes table 0 rest).map (c :: ·) := by
  have hescape : (decide (c = '\\') && escapes) = false := by
    rw [Bool.and_eq_false_iff, decide_eq_false_iff_not, or_iff_not_imp_left, not_not]
    exact hbackslash
  simp [decode, hquote, hescape]

theorem decode_doubled :
    decode escapes table 0 ('\'' :: '\'' :: rest) = (decode escapes table 0 rest).map ('\'' :: ·) :=
  rfl

theorem decode_escaped {d : Char} {length : Nat} (h : unescape table rest = some (d, length)) :
    decode true table 0 ('\\' :: rest) = (decode true table 0 (rest.drop length)).map (d :: ·) := by
  rw [← decode_drop]
  simp [decode, h]

/-- Without escapes every backslash of a string is denoted. With escapes that stand for themselves,
at least two backslashes are spent for each that is denoted. -/
theorem count_decode_plain {text value : Text} (h : decode escapes .plain 0 text = some value) :
    if escapes then 2 * value.count '\\' ≤ text.count '\\'
    else value.count '\\' = text.count '\\' := by
  suffices hskip : ∀ skip value, decode escapes .plain skip text = some value →
      if escapes then 2 * value.count '\\' ≤ (text.drop skip).count '\\'
      else value.count '\\' = (text.drop skip).count '\\' from hskip 0 value h
  clear h value
  induction text with
  | nil => simp [decode]
  | cons c rest ih =>
    intro skip value h
    cases skip with
    | succ skip => exact ih skip value h
    | zero =>
      rw [decode] at h
      rw [drop_zero]
      split at h
      · next hquote =>
        subst hquote
        split at h
        · next hempty =>
          cases h
          rw [isEmpty_iff.mp hempty]
          cases escapes <;> decide
        split at h
        · next hdoubled =>
          obtain ⟨value', hvalue, rfl⟩ := Option.map_eq_some_iff.mp h
          obtain ⟨rest, rfl⟩ := head?_eq_some_iff.mp hdoubled
          simpa using ih 1 value' hvalue
        · cases h
      split at h
      · next hescape =>
        -- the escaped character is denoted, and the backslash before it is not
        cases rest with
        | nil => simp [unescape] at h
        | cons d rest =>
          obtain ⟨value', hvalue, rfl⟩ := Option.map_eq_some_iff.mp h
          have hrest := ih 1 value' hvalue
          rw [Bool.and_eq_true] at hescape
          rw [if_pos hescape.2, drop_one] at hrest
          rw [if_pos hescape.2, count_cons, count_cons, count_cons]
          split <;> simp_all <;> omega
      · next hescape =>
        obtain ⟨value', hvalue, rfl⟩ := Option.map_eq_some_iff.mp h
        have hrest := ih 0 value' hvalue
        rw [count_cons, count_cons]
        cases escapes with
        | false => simpa using hrest
        | true =>
          have hne : c ≠ '\\' := by simpa using hescape
          simpa [hne] using hrest

end Decode

/-! ## Escaping -/

/-- The function works on each character by itself. -/
def Charwise (f : Text → Text) : Prop := ∀ text, f text = text.flatMap fun c => f [c]

theorem Charwise.id : Charwise fun text => text := by
  intro text
  simp

theorem Charwise.replaceChar (c : Char) (t : Text) {f : Text → Text} (hf : Charwise f) :
    Charwise fun text => replaceChar c t (f text) := by
  intro text
  dsimp only
  rw [hf text, Text.replaceChar, flatMap_assoc]
  rfl

/-- The text with its backslashes and quotes doubled. -/
abbrev doubleMarks (text : Text) : Text :=
  replaceChar '\'' "''".toList (replaceChar '\\' "\\\\".toList text)

theorem charwise_doubled : Charwise doubleMarks :=
  (Charwise.id.replaceChar '\\' "\\\\".toList).replaceChar '\'' "''".toList

theorem charwise_escapeText (databaseType : Option DatabaseType) :
    Charwise (escapeText databaseType) := by
  unfold escapeText
  split
  · exact (Charwise.id.replaceChar '\\' _).replaceChar '\'' _
  · split
    · exact Charwise.id.replaceChar '\'' _
    · unfold escapeGridSubControl
      split
      case h_7 => exact charwise_doubled
      all_goals exact (charwise_doubled.replaceChar _ _).replaceChar subControl _

/-- The text stands for one character inside a string: it does not end the string, and it denotes
the character. -/
structure Spells (unicode : Unicode) (profile : SqlDialectProfile) (escapes : Bool)
    (table : EscapeTable) (text : Text) (c : Char) : Prop where
  inside : Inside unicode profile escapes text
  denotes : ∀ rest, decode escapes table 0 (text ++ rest) =
    (decode escapes table 0 rest).map (c :: ·)

namespace Spells

variable {unicode : Unicode} {profile : SqlDialectProfile} {escapes : Bool} {table : EscapeTable}
  {c : Char}

theorem char (hquote : c ≠ '\'') (hbackslash : c = '\\' → escapes = false) :
    Spells unicode profile escapes table [c] c :=
  ⟨Inside.char hquote hbackslash, fun _ => decode_char hquote hbackslash⟩

theorem doubled : Spells unicode profile escapes table ['\'', '\''] '\'' :=
  ⟨Inside.doubled, fun _ => decode_doubled⟩

/-- An escape: a backslash and the characters that spell `c` behind it. -/
theorem escaped {d : Char} {t : Text} (ht : ∀ c ∈ t, c ≠ '\'' ∧ c ≠ '\\')
    (h : ∀ rest, unescape table (d :: (t ++ rest)) = some (c, t.length + 1)) :
    Spells unicode profile true table ('\\' :: d :: t) c := by
  refine ⟨?_, fun rest => ?_⟩
  · have hinside : Inside unicode profile true (['\\', d] ++ t) :=
      Inside.escaped.append (Inside.plain ht)
    exact hinside
  · rw [cons_append, cons_append, decode_escaped (h rest), drop_succ_cons, drop_left]

/-- A text is spelt by the spellings of its characters. -/
theorem flatMap {f : Char → Text} {text : Text}
    (h : ∀ c ∈ text, Spells unicode profile escapes table (f c) c) :
    Inside unicode profile escapes (text.flatMap f) ∧
      decode escapes table 0 (text.flatMap f ++ ['\'']) = some text := by
  refine ⟨Inside.flatMap fun c hc => (h c hc).inside, ?_⟩
  induction text with
  | nil => rfl
  | cons c text ih =>
    rw [forall_mem_cons] at h
    rw [flatMap_cons, append_assoc, h.1.denotes, ih h.2]
    rfl

end Spells

theorem doubled_cases (c : Char) :
    (c = '\\' ∧ doubleMarks [c] = ['\\', '\\']) ∨
      (c = '\'' ∧ doubleMarks [c] = ['\'', '\'']) ∨
      (c ≠ '\\' ∧ c ≠ '\'' ∧ doubleMarks [c] = [c]) := by
  by_cases hbackslash : c = '\\'
  · exact .inl ⟨hbackslash, by subst hbackslash; decide⟩
  · by_cases hquote : c = '\''
    · exact .inr (.inl ⟨hquote, by subst hquote; decide⟩)
    · exact .inr (.inr ⟨hbackslash, hquote, by simp [replaceChar, hbackslash, hquote]⟩)

section EscapeText

variable {unicode : Unicode} {profile : SqlDialectProfile} {table : EscapeTable}

theorem unescape_backslash (rest : Text) : unescape table ('\\' :: rest) = some ('\\', 1) := by
  cases table <;> rfl

/-- Doubled backslashes and quotes, in strings with escapes. -/
theorem spells_doubled (c : Char) : Spells unicode profile true table (doubleMarks [c]) c := by
  obtain ⟨rfl, heq⟩ | ⟨rfl, heq⟩ | ⟨hbackslash, hquote, heq⟩ := doubled_cases c
  · exact .escaped (by simp) unescape_backslash
  · exact .doubled
  · rw [heq]
    exact .char hquote fun h => absurd h hbackslash

/-- Doubled backslashes and quotes with the control characters escaped. -/
theorem spells_subControl {subEscape : Text}
    (hnul : Spells unicode profile true table "\\0".toList (Char.ofNat 0))
    (hsub : Spells unicode profile true table subEscape subControl) (c : Char) :
    Spells unicode profile true table
      (replaceChar subControl subEscape (replaceChar (Char.ofNat 0) "\\0".toList (doubleMarks [c])))
      c := by
  by_cases hzero : c = Char.ofNat 0
  · subst hzero
    exact hnul
  by_cases hcontrol : c = subControl
  · subst hcontrol
    have heq : replaceChar subControl subEscape (replaceChar (Char.ofNat 0) "\\0".toList
        (doubleMarks [subControl])) =
          subEscape ++ [] := rfl
    rw [heq, append_nil]
    exact hsub
  -- neither control character is in the spelling of another character
  have hspelt : Spells unicode profile true table _ c := spells_doubled c
  obtain ⟨rfl, heq⟩ | ⟨rfl, heq⟩ | ⟨hbackslash, hquote, heq⟩ := doubled_cases c
  · exact hspelt
  · exact hspelt
  · rw [heq] at hspelt ⊢
    simpa [replaceChar, hzero, hcontrol] using hspelt

end EscapeText

/-- The database types whose escaping differs from what their lexer reads: the formatter doubles
the backslashes of the first four, which have no escapes, and keeps those of the others, which
have. -/
def mismatchedTypes : List DatabaseType :=
  [.firebird, .duckDb, .argo, .transwarp, .sqlite, .rqlite, .turso, .cloudflareD1, .sqlServer]

/-- A database type reads a backslash in an ordinary string as an escape. -/
def readsEscapes (databaseType : DatabaseType) : Bool :=
  (forDatabaseType databaseType).supportsBackslashEscapedQuotes

variable {db : DatabaseType}

theorem readsEscapes_of_keeps (h : (isSqliteLiteralDatabase (some db) ||
      keepsLiteralBackslashes (some db)))
    (hmatched : db ∉ mismatchedTypes) : readsEscapes db = false := by
  revert h hmatched
  cases db <;> decide

theorem readsEscapes_of_doubles (h : (isSqliteLiteralDatabase (some db) ||
      keepsLiteralBackslashes (some db)) = false)
    (hmatched : db ∉ mismatchedTypes) (hpostgres : db ≠ .postgres) :
    readsEscapes db := by
  revert h hmatched hpostgres
  cases db <;> decide

/-- Where control characters are escaped, the strings have escapes. -/
theorem spells_escapeGridSubControl {unicode : Unicode} (c : Char) (hescapes : readsEscapes db) :
    Spells unicode (forDatabaseType db) true (escapeTable db)
      (escapeGridSubControl (some db) (doubleMarks [c])) c := by
  unfold escapeGridSubControl
  split
  case h_7 => exact spells_doubled c
  case h_5 | h_6 =>
    next heq =>
    cases heq
    exact spells_subControl (.escaped (by simp) fun _ => rfl) (.escaped (by decide) fun _ => rfl) c
  all_goals
    next heq =>
    cases heq
    exact spells_subControl (.escaped (by simp) fun _ => rfl) (.escaped (by simp) fun _ => rfl) c

theorem escapeGridSubControl_of_not_readsEscapes (text : Text)
    (hescapes : readsEscapes db = false) :
    escapeGridSubControl (some db) text = text := by
  unfold escapeGridSubControl
  split
  case h_7 => rfl
  all_goals
    next heq =>
    cases heq
    exact absurd hescapes (by decide)

/-- Of a database type that matches its lexer, or for a character that is not a backslash, the
escaped character spells the character. -/
theorem spells_escapeText {unicode : Unicode} {c : Char}
    (h : db ∈ mismatchedTypes ∨ db = .postgres → c ≠ '\\') :
    Spells unicode (forDatabaseType db) (readsEscapes db)
      (escapeTable db) (escapeText (some db) [c]) c := by
  unfold escapeText
  split
  · next hneo4j =>
    cases hneo4j
    by_cases hbackslash : c = '\\'
    · subst hbackslash
      exact .escaped (by simp) fun _ => rfl
    by_cases hquote : c = '\''
    · subst hquote
      exact .escaped (by simp) fun _ => rfl
    · simpa [replaceChar, hbackslash, hquote] using .char hquote fun heq => absurd heq hbackslash
  split
  · next hkeeps =>
    by_cases hquote : c = '\''
    · subst hquote
      exact .doubled
    · have hspelt : Spells unicode (forDatabaseType db) (readsEscapes db) (escapeTable db) [c] c :=
        .char hquote fun hbackslash => readsEscapes_of_keeps hkeeps fun hmem =>
          h (.inl hmem) hbackslash
      simpa [replaceChar, hquote] using hspelt
  · next hdoubles =>
    cases hescapes : readsEscapes db with
    | true => exact spells_escapeGridSubControl c hescapes
    | false =>
      -- the type reads no escapes although its backslashes are doubled: there is none to double
      have hne : c ≠ '\\' := by
        apply h
        by_contra hmatched
        rw [not_or] at hmatched
        have htrue := readsEscapes_of_doubles (by simpa using hdoubles) hmatched.1 hmatched.2
        rw [hescapes] at htrue
        exact Bool.false_ne_true htrue
      rw [escapeGridSubControl_of_not_readsEscapes _ hescapes]
      change Spells _ _ _ _ (doubleMarks [c]) c
      obtain ⟨hbackslash, -⟩ | ⟨rfl, heq⟩ | ⟨hbackslash, hquote, heq⟩ := doubled_cases c
      · exact absurd hbackslash hne
      · exact .doubled
      · rw [heq]
        exact .char hquote fun heq => absurd heq hbackslash

/-! ## Quoted texts -/

section Quoted

variable {unicode : Unicode} {db : DatabaseType} {text : Text}

/-- The literal of a text is closed, and it denotes the text where it is one string. -/
structure Quoted (unicode : Unicode) (databaseType : DatabaseType) (text literal : Text) :
    Prop where
  closed : Closed unicode (forDatabaseType databaseType) LexState.start literal
  denotes : (databaseType = .sqlServer → '\r' ∉ text ∧ '\n' ∉ text) →
    stringValue databaseType literal = some text

/-- An ordinary string literal. -/
theorem quoted_escapeText (h : db ∈ mismatchedTypes ∨ db = .postgres → '\\' ∉ text) :
    Quoted unicode db text ('\'' :: (escapeText (some db) text ++ ['\''])) := by
  have hspelt : ∀ c ∈ text, Spells unicode (forDatabaseType db) (readsEscapes db) (escapeTable db)
      (escapeText (some db) [c]) c := by
    intro c hc
    exact spells_escapeText fun hmem heq => h hmem (heq ▸ hc)
  obtain ⟨hinside, hdecode⟩ := Spells.flatMap hspelt
  rw [← charwise_escapeText] at hinside hdecode
  refine ⟨?_, fun _ => hdecode⟩
  exact (closed_quoted rfl hinside (by simp)).mpr (closed_nil.mpr rfl)

/-- A PostgreSQL escape string. -/
theorem quoted_escapeString :
    Quoted unicode .postgres text ("E'".toList ++ (replaceChar subControl "\\x1A".toList
      (doubleMarks text) ++ "'".toList)) := by
  have hcharwise := charwise_doubled.replaceChar subControl "\\x1A".toList
  have hspelt : ∀ c ∈ text, Spells unicode (forDatabaseType .postgres) true .hex
      (replaceChar subControl "\\x1A".toList (doubleMarks [c])) c := by
    intro c _
    by_cases hcontrol : c = subControl
    · subst hcontrol
      exact .escaped (by decide) fun _ => rfl
    have hc : Spells unicode (forDatabaseType .postgres) true .hex _ c :=
      spells_doubled c
    obtain ⟨rfl, heq⟩ | ⟨rfl, heq⟩ | ⟨-, -, heq⟩ := doubled_cases c
    · exact hc
    · exact hc
    · rw [heq] at hc ⊢
      simpa [replaceChar, hcontrol] using hc
  obtain ⟨hinside, hdecode⟩ := Spells.flatMap hspelt
  rw [← hcharwise] at hinside hdecode
  refine ⟨?_, fun _ => hdecode⟩
  have hopen : Closed unicode (forDatabaseType .postgres) ⟨.code, []⟩
      ('E' :: '\'' :: (replaceChar subControl "\\x1A".toList (doubleMarks text) ++ ['\''])) := by
    rw [closed_char (by decide), closed_openEscapeQuote rfl, hinside, closed_endQuote (by simp),
      closed_nil]
  exact hopen

/-! ### SQL Server -/

/-- The characters of the parts are characters of the text. -/
theorem mem_of_mem_sqlserverParts {segment part : Text} (h : part ∈ sqlserverParts segment text)
    {c : Char} (hc : c ∈ part) : c ∈ segment ∨ c ∈ text := by
  induction text generalizing segment with
  | nil =>
    rw [sqlserverParts] at h
    split at h
    · cases h
    · rw [mem_singleton.mp h] at hc
      exact .inl hc
  | cons d rest ih =>
    rw [sqlserverParts] at h
    split at h
    · rcases mem_append.mp h with hmem | hmem
      · split at hmem
        · cases hmem
        · rw [mem_singleton.mp hmem] at hc
          exact .inl hc
      · rcases mem_cons.mp hmem with rfl | hmem
        · rw [mem_singleton.mp hc]
          exact .inr mem_cons_self
        · exact .inr (mem_cons_of_mem _ ((ih hmem).resolve_left (by simp)))
    · rcases ih h with hmem | hmem
      · rcases mem_append.mp hmem with hmem | hmem
        · exact .inl hmem
        · rw [mem_singleton.mp hmem]
          exact .inr mem_cons_self
      · exact .inr (mem_cons_of_mem _ hmem)

open SelfContained

theorem selfContained_sqlserverPart (h : '\\' ∉ text) :
    SelfContained unicode .sqlServer (sqlserverPart text) := by
  have hbody : Inside unicode .sqlServer true (replaceChar '\'' "''".toList text) := by
    refine Inside.flatMap fun c hc => ?_
    split
    · exact Inside.doubled
    · next hquote => exact Inside.char hquote fun heq => absurd (heq ▸ hc) h
  unfold sqlserverPart
  split
  · exact word (by decide)
  · exact word (by decide)
  · exact quoted [] 'N' (by simp) rfl rfl hbody

theorem closed_intercalate {profile : SqlDialectProfile} {parts : List Text}
    (h : ∀ part ∈ parts, SelfContained unicode profile part) (behind : Text) :
    Closed unicode profile ⟨.code, behind⟩ (intercalate " + ".toList parts) := by
  induction parts generalizing behind with
  | nil => exact closed_nil.mpr rfl
  | cons part parts ih =>
    rw [forall_mem_cons] at h
    cases parts with
    | nil =>
      rw [intercalate_singleton, ← append_nil part, h.1 behind [] (by simp), closed_nil]
    | cons next parts =>
      rw [intercalate_cons_cons, append_assoc, h.1 _ _ (by simp), closed_word (by decide)]
      exact ih h.2 _

/-- A text without line breaks has one part. -/
theorem sqlserverParts_of_noLineBreak {segment : Text} (hreturn : '\r' ∉ text)
    (hnewline : '\n' ∉ text) (hne : segment ++ text ≠ []) :
    sqlserverParts segment text = [segment ++ text] := by
  induction text generalizing segment with
  | nil =>
    rw [append_nil] at hne
    simp [sqlserverParts, hne]
  | cons c rest ih =>
    rw [mem_cons, not_or] at hreturn hnewline
    have hbreak : (decide (c = '\r') || decide (c = '\n')) = false := by
      simp [Ne.symm hreturn.1, Ne.symm hnewline.1]
    rw [sqlserverParts, if_neg (by simp [hbreak]), ih hreturn.2 hnewline.2 (by simp)]
    simp

theorem formatSqlserverUnicodeLiteral_of_noLineBreak (hreturn : '\r' ∉ text)
    (hnewline : '\n' ∉ text) (hne : text ≠ []) :
    formatSqlserverUnicodeLiteral text =
      'N' :: '\'' :: (replaceChar '\'' "''".toList text ++ ['\'']) := by
  have hpart : sqlserverPart text =
      "N'".toList ++ replaceChar '\'' "''".toList text ++ "'".toList := by
    unfold sqlserverPart
    split
    · exact absurd mem_cons_self hreturn
    · exact absurd mem_cons_self hnewline
    · rfl
  unfold formatSqlserverUnicodeLiteral
  rw [sqlserverParts_of_noLineBreak hreturn hnewline (by simpa using hne)]
  simp [hpart]

/-- An SQL Server literal of a text without a backslash. -/
theorem quoted_sqlserver (h : '\\' ∉ text) :
    Quoted unicode .sqlServer text (formatSqlserverUnicodeLiteral text) := by
  refine ⟨?_, fun hbreaks => ?_⟩
  · have hparts : ∀ part ∈ (sqlserverParts [] text).map sqlserverPart,
        SelfContained unicode .sqlServer part := by
      intro part hpart
      obtain ⟨raw, hraw, rfl⟩ := mem_map.mp hpart
      refine selfContained_sqlserverPart fun hmem => h ?_
      exact (mem_of_mem_sqlserverParts hraw hmem).resolve_left (by simp)
    unfold formatSqlserverUnicodeLiteral
    dsimp only
    split
    · exact (quoted [] 'N' (by simp) rfl rfl Inside.nil).closed
    -- a long text of several parts starts with an anchor of the wide type
    refine closed_intercalate (fun part hpart => ?_) []
    rcases mem_append.mp hpart with hanchor | hpart
    · split at hanchor
      · rw [mem_singleton.mp hanchor]
        exact (quoted "CAST(".toList 'N' (by decide) rfl rfl Inside.nil).append
            (word (by decide)) (by decide) (by decide)
      · cases hanchor
    · exact hparts part hpart
  · -- without line breaks there is one part, which doubles the quotes
    obtain ⟨hreturn, hnewline⟩ := hbreaks rfl
    cases text with
    | nil => rfl
    | cons c rest =>
      have hspelt : ∀ d ∈ c :: rest, Spells unicode .sqlServer true .plain
          (if d = '\'' then "''".toList else [d]) d := by
        intro d hd
        split
        · next hquote => exact hquote ▸ .doubled
        · next hquote => exact .char hquote fun heq => absurd (heq ▸ hd) h
      rw [formatSqlserverUnicodeLiteral_of_noLineBreak hreturn hnewline (by simp)]
      exact (Spells.flatMap hspelt).2

/-- The literal of a text that is only quoted, where its backslashes are read as they are
written. -/
theorem quoted_quoteLiteral (h : db ∈ mismatchedTypes → '\\' ∉ text) :
    Quoted unicode db text (quoteLiteral (some db) text) := by
  unfold quoteLiteral
  split
  · next hescape =>
    rw [Bool.and_eq_true, decide_eq_true_eq, Option.some.injEq] at hescape
    obtain rfl := hescape.1
    exact quoted_escapeString
  split
  · next hserver =>
    cases hserver
    exact quoted_sqlserver (h (by decide))
  · next hpostgres _ =>
    refine quoted_escapeText fun hmem hbackslash => ?_
    rcases hmem with hmem | rfl
    · exact h hmem hbackslash
    · exact hpostgres (by simp [hbackslash])

theorem count_replaceChar (c d : Char) (t text : Text) : (replaceChar c t text).count d =
    text.count c * t.count d + if c = d then 0 else text.count d := by
  induction text with
  | nil => simp [replaceChar]
  | cons e text ih =>
    rw [replaceChar, flatMap_cons, count_append, ← replaceChar, ih]
    by_cases hec : e = c
    · subst hec
      by_cases hed : e = d <;> simp [hed, Nat.succ_mul] <;> omega
    · by_cases hcd : c = d
      · simp [hcd ▸ hec, hcd]
      · simp [hec, hcd, count_cons]
        omega

/-- Of a mismatched type, no literal denotes a text with a backslash. -/
theorem stringValue_mismatched (hmem : db ∈ mismatchedTypes) (hbackslash : '\\' ∈ text)
    (hbreaks : db = .sqlServer → '\r' ∉ text ∧ '\n' ∉ text) :
    stringValue db (quoteLiteral (some db) text) ≠ some text := by
  have hpos : 0 < text.count '\\' := count_pos_iff.mpr hbackslash
  have hquotes : (replaceChar '\'' "''".toList text ++ ['\'']).count '\\' = text.count '\\' := by
    simp [count_replaceChar]
  have hdoubled : (doubleMarks text ++ ['\'']).count '\\' = 2 * text.count '\\' := by
    simp [count_replaceChar]
    omega
  -- either the literal has twice the backslashes of the text and none is an escape, or it has those
  -- of the text and at least half of them are escapes
  have hnone : decode false .plain 0 (doubleMarks text ++ ['\'']) ≠ some text := by
    intro hvalue
    have hcount : text.count '\\' = _ := count_decode_plain hvalue
    omega
  have hhalf : decode true .plain 0 (replaceChar '\'' "''".toList text ++ ['\'']) ≠ some text := by
    intro hvalue
    have hcount : 2 * text.count '\\' ≤ _ := count_decode_plain hvalue
    omega
  simp only [mismatchedTypes, mem_cons, not_mem_nil, or_false] at hmem
  rcases hmem with rfl | rfl | rfl | rfl | rfl | rfl | rfl | rfl | rfl
  · exact hnone
  · exact hnone
  · exact hnone
  · exact hnone
  · exact hhalf
  · exact hhalf
  · exact hhalf
  · exact hhalf
  · obtain ⟨hreturn, hnewline⟩ := hbreaks rfl
    have hliteral := formatSqlserverUnicodeLiteral_of_noLineBreak hreturn hnewline
      (ne_nil_of_mem hbackslash)
    have hserver : quoteLiteral (some .sqlServer) text = formatSqlserverUnicodeLiteral text := rfl
    rw [hserver, hliteral]
    exact hhalf

end Quoted

end Dbx.Grid
