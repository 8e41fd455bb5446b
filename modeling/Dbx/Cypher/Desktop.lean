import Dbx.Cypher.ReadOnly

/-!
# Read-only Cypher on the desktop

The desktop decides with a scanner of its own which queries are read-only, and is to decide as the
backend does. Its scanner has the same loops, but reads the UTF-16 units of the query, with the
character classes and the case mapping of JavaScript. Both matter outside quotes and comments only.

## Main results

* `desktopScanner_run`: the two scanners read the same keywords and signs
* `isProvenReadOnlyCypherDesktop_eq`: the desktop and the backend decide alike
-/

namespace Dbx.Cypher

open Text List

/-- The class `[\p{L}\p{N}]` of JavaScript, and `toUpperCase`, character by character. -/
structure Js where
  isAlphanumeric : Char → Bool
  toUpperCase : Char → Text
  isAlphanumeric_ascii : ∀ c : Char, c.toNat < 128 → isAlphanumeric c = c.isAlphanum
  toUpperCase_ascii : ∀ c : Char, c.toNat < 128 → toUpperCase c = [c.toUpper]

/-- The UTF-16 units of a text. A unit of a surrogate pair is in no class, as is U+FFFD. -/
def units (source : Text) : Text :=
  source.flatMap fun c => if c.toNat < 0x10000 then [c] else ['�', '�']

variable (js : Js)

def desktopWordAt (c : Char) (rest : Text) : Text × Nat :=
  let more := rest.takeWhile fun d => js.isAlphanumeric d || d = '_'
  ((c :: more).flatMap js.toUpperCase, more.length)

def desktopPlainStep (c : Char) (rest : Text) : Nat × List Token :=
  if c = ';' then (0, [.separator])
  else if c.isAlpha || c = '_' then
    ((desktopWordAt js c rest).2, [.word (desktopWordAt js c rest).1])
  else if c = '.' || c = ':' || c = '$' then (0, [.sign c])
  else if !isJsSpace c then (0, [.symbol])
  else (0, [])

/-- One turn of the loop. In comments and quoted text it is the same as on the backend. -/
def Scan.desktopStep (s : Scan) (c : Char) (rest : Text) : Scan × Nat × List Token :=
  match s.mode with
  | .words =>
    if c = '/' && rest.head? = some '/' then ({ s with mode := .lineComment }, 1, [])
    else if c = '/' && rest.head? = some '*' then ({ s with mode := .blockComment }, 1, [])
    else if c = '\'' || c = '"' || c = '\x60' then ({ s with mode := .quoted c }, 0, [])
    else (s, desktopPlainStep js c rest)
  | .lineComment | .blockComment | .quoted _ => s.step .ascii c rest

def desktopScanner : Stepper Scan Token where
  step s c rest := s.desktopStep js c rest

/-- `isProvenReadOnlyCypher` of the desktop. -/
def isProvenReadOnlyCypherDesktop (source : Text) : Bool :=
  if containsText (units source) "\\u".toList then false
  else provesReadOnly ((desktopScanner js).run 0 ⟨.words, false⟩ (units source))

variable (unicode : Sql.Unicode)

/-- A character that both scanners take for the same. Of its upper cases a keyword has both or
none. -/
structure Alike (c : Char) : Prop where
  unit : c.toNat < 0x10000
  word : js.isAlphanumeric c = unicode.isAlphanumeric c
  space : isJsSpace c = isWhitespace c
  upper : js.toUpperCase c = [c.toUpper] ∨
    128 ≤ c.toUpper.toNat ∧ ∃ d ∈ js.toUpperCase c, 128 ≤ d.toNat

instance (c : Char) : Decidable (Alike js unicode c) :=
  -- only the characters of the upper case are looked at
  have : Decidable (∃ d ∈ js.toUpperCase c, 128 ≤ d.toNat) := List.decidableBEx _ _
  decidable_of_iff (_ ∧ _ ∧ _ ∧ _) ⟨fun ⟨unit, word, space, upper⟩ => ⟨unit, word, space, upper⟩,
    fun ⟨unit, word, space, upper⟩ => ⟨unit, word, space, upper⟩⟩

/-- The characters that a turn reads outside quotes and comments are the same to both scanners. -/
def ReadsAlike (s : Scan) (c : Char) (rest : Text) : Prop :=
  s.mode = .words → ∀ d ∈ c :: rest.take (s.step unicode c rest).2.1, Alike js unicode d

instance (s : Scan) (c : Char) (rest : Text) : Decidable (ReadsAlike js unicode s c rest) :=
  inferInstanceAs (Decidable (_ → _))

/-- Every character outside quotes and comments is the same to both scanners. -/
def PlainlyAlike (source : Text) : Prop :=
  (scanner unicode).Along (ReadsAlike js unicode) 0 ⟨.words, false⟩ source

instance (source : Text) : Decidable (PlainlyAlike js unicode source) :=
  inferInstanceAs (Decidable (Stepper.Along _ _ _ _ _))

variable {js unicode} {c q : Char} {rest source : Text} {s : Scan}

/-! ### Units -/

theorem units_cons (hc : c.toNat < 0x10000) : units (c :: rest) = c :: units rest := by
  rw [units, flatMap_cons, if_pos hc]
  rfl

theorem units_cons_pair (hc : ¬ c.toNat < 0x10000) :
    units (c :: rest) = '�' :: '�' :: units rest := by
  rw [units, flatMap_cons, if_neg hc]
  rfl

/-- A text and its units start with the same ASCII character. -/
theorem head?_units (hq : q.toNat < 128) : (units source).head? = some q ↔
    source.head? = some q := by
  cases source with
  | nil => rfl
  | cons c rest =>
    by_cases hc : c.toNat < 0x10000
    · rw [units_cons hc]
      rfl
    · rw [units_cons_pair hc, head?_cons, head?_cons, Option.some_inj, Option.some_inj]
      constructor
      · rintro rfl
        exact absurd hq (by decide)
      · rintro rfl
        omega

theorem containsText_units (source : Text) :
    containsText (units source) "\\u".toList = containsText source "\\u".toList := by
  -- the two characters of the escape are one unit each
  have hcons (c : Char) (rest : Text) : containsText (c :: rest) "\\u".toList =
      (decide (c = '\\') && decide (rest.head? = some 'u') ||
        containsText rest "\\u".toList) := by
    have hprefix : "\\u".toList.isPrefixOf (c :: rest) =
        (decide (c = '\\') && decide (rest.head? = some 'u')) := by
      cases rest with
      | nil => simp [List.isPrefixOf]
      | cons d rest => simp [List.isPrefixOf, eq_comm, Bool.beq_eq_decide_eq]
    rw [containsText, tails_cons, any_cons, hprefix]
    rfl
  induction source with
  | nil => rfl
  | cons c rest ih =>
    by_cases hc : c.toNat < 0x10000
    · rw [units_cons hc, hcons, hcons, ih, decide_eq_decide.mpr (head?_units (by decide))]
    · have hne : c ≠ '\\' := by
        rintro rfl
        exact hc (by decide)
      rw [units_cons_pair hc, hcons, hcons, hcons, ih]
      simp [hne]

/-! ### Turns -/

/-- The further characters of a word are the same in the units. -/
theorem takeWhile_units {p p' : Char → Bool}
    (hmore : ∀ d ∈ rest.takeWhile p, d.toNat < 0x10000 ∧ p' d = p d)
    (hnext : ∀ d ∈ (rest.dropWhile p).head?, d.toNat < 0x10000 ∧ p' d = p d) :
    (units rest).takeWhile p' = rest.takeWhile p := by
  induction rest with
  | nil => rfl
  | cons d rest ih =>
    cases hd : p d with
    | true =>
      rw [takeWhile_cons_of_pos hd, forall_mem_cons] at hmore
      rw [dropWhile_cons_of_pos hd] at hnext
      have hd' : p' d = true := hmore.1.2.trans hd
      rw [units_cons hmore.1.1, takeWhile_cons_of_pos hd, takeWhile_cons_of_pos hd',
        ih hmore.2 hnext]
    | false =>
      have hnot : ¬ p d := by simp [hd]
      rw [dropWhile_cons_of_neg hnot] at hnext
      obtain ⟨hunit, hsame⟩ := hnext d rfl
      rw [units_cons hunit, takeWhile_cons_of_neg hnot, takeWhile_cons_of_neg (by simp [hsame, hd])]

/-! ### Keywords -/

/-- The words that are looked for. -/
def keywords : List Text := unsafeWords ++ readWords

/-- The token, with nothing left of a word that is not looked for. -/
def Token.keyword : Token → Token
  | .word text => .word (if text ∈ keywords then text else [])
  | token => token

/-- The tokens that are read, as far as keywords go. -/
def keywordsRead (final : Scan × List Token) : Scan × List Token :=
  (final.1, final.2.map Token.keyword)

theorem keyword_eq_word {text : Text} (h : text ∈ keywords) (token : Token) :
    token.keyword = .word text ↔ token = .word text := by
  have hnil : text ≠ [] := by
    rintro rfl
    exact absurd h (by decide)
  cases token with
  | word other =>
    rw [Token.keyword, Token.word.injEq, Token.word.injEq]
    split
    · rfl
    · next hother => exact ⟨fun heq => absurd heq.symm hnil, fun heq => absurd (heq ▸ h) hother⟩
  | sign c => simp [Token.keyword]
  | quoted => simp [Token.keyword]
  | symbol => simp [Token.keyword]
  | separator => simp [Token.keyword]

theorem contains_map_keyword {text : Text} (h : text ∈ keywords) (tokens : List Token) :
    (tokens.map Token.keyword).contains (.word text) = tokens.contains (.word text) := by
  rw [Bool.eq_iff_iff, contains_iff_mem, contains_iff_mem, mem_map]
  constructor
  · rintro ⟨token, hmem, heq⟩
    rwa [← (keyword_eq_word h token).mp heq]
  · exact fun hmem => ⟨_, hmem, (keyword_eq_word h _).mpr rfl⟩

theorem contains_keyword {words : List Text} (h : words ⊆ keywords) (text : Text) :
    words.contains (if text ∈ keywords then text else []) = words.contains text := by
  have hnil : [] ∉ words := fun hmem => absurd (h hmem) (by decide)
  split
  · rfl
  · next hnot =>
    have htext : text ∉ words := fun hmem => hnot (h hmem)
    rw [contains_eq_mem, contains_eq_mem, decide_eq_decide]
    exact iff_of_false hnil htext

theorem namesNext_map_keyword (token : Option Token) :
    Token.namesNext (token.map Token.keyword) = Token.namesNext token := by
  rcases token with _ | (_ | _ | _ | _ | _) <;> rfl

theorem head?_map_keyword (tokens : List Token) :
    (tokens.map Token.keyword).head? = some (.sign ':') ↔ tokens.head? = some (.sign ':') := by
  rcases tokens with _ | ⟨_ | _ | _ | _ | _, tokens⟩ <;> simp [Token.keyword]

theorem exposesFrom_map_keyword (previous : Option Token) (tokens : List Token) :
    exposesFrom (previous.map Token.keyword) (tokens.map Token.keyword) =
      exposesFrom previous tokens := by
  induction tokens generalizing previous with
  | nil => rfl
  | cons token tokens ih =>
    have hrest := ih (some token)
    cases token with
    | word text =>
      simp only [map_cons, exposesFrom, ← hrest, namesNext_map_keyword, Token.keyword, ne_eq,
        head?_map_keyword, Option.map_some,
        contains_keyword (subset_append_left unsafeWords readWords)]
    | sign c | quoted | symbol | separator => exact hrest

theorem isReadStatement_map_keyword (words : List Token) :
    isReadStatement (words.map Token.keyword) = isReadStatement words := by
  have hmem : "RETURN".toList ∈ keywords := by decide
  have hreturn := contains_map_keyword hmem words
  rw [isReadStatement, isReadStatement, ← exposesFrom_map_keyword none words, hreturn]
  rcases words with _ | ⟨_ | _ | _ | _ | _, words⟩
  · rfl
  · next text =>
    have hmem : "SHOW".toList ∈ keywords := by decide
    have hshow := keyword_eq_word hmem (.word text)
    simp only [Token.keyword, Token.word.injEq] at hshow
    simp only [map_cons, head?_cons, Token.keyword, hshow,
      contains_keyword (subset_append_right unsafeWords readWords), Option.map_none]
  all_goals rfl

theorem statements_map_keyword (tokens : List Token) :
    statements (tokens.map Token.keyword) = (statements tokens).map (·.map Token.keyword) := by
  induction tokens with
  | nil => rfl
  | cons token tokens ih =>
    cases token with
    | separator => exact congrArg (_ :: ·) ih
    | word text | sign c | quoted | symbol =>
      simp only [map_cons, Token.keyword, statements, ih]
      cases statements tokens with
      | nil => rfl
      | cons first more => rfl

/-- What is decided depends on the keywords. -/
theorem provesReadOnly_keywordsRead (final : Scan × List Token) :
    provesReadOnly (keywordsRead final) = provesReadOnly final := by
  have hempty : ((!·.isEmpty) ∘ map Token.keyword) = fun words : List Token => !words.isEmpty := by
    funext words
    rw [Function.comp_apply, isEmpty_map]
  have hread : isReadStatement ∘ map Token.keyword = isReadStatement :=
    funext isReadStatement_map_keyword
  simp only [provesReadOnly, keywordsRead, statements_map_keyword, filter_map, hempty,
    isEmpty_map, all_map, hread]

/-- The words that are looked for are in ASCII. -/
theorem keyword_of_not_ascii {text : Text} (h : ∃ d ∈ text, 128 ≤ d.toNat) :
    Token.keyword (.word text) = .word [] := by
  have hascii : ∀ text ∈ keywords, ∀ d ∈ text, d.toNat < 128 := by decide
  obtain ⟨d, hd, hbound⟩ := h
  have hnot : text ∉ keywords := fun htext => absurd (hascii text htext d hd) (by omega)
  rw [Token.keyword, if_neg hnot]

/-- Both upper cases of a word are the same keyword, or none. -/
theorem keyword_toUpperCase {text : Text} (h : ∀ d ∈ text, Alike js unicode d) :
    Token.keyword (.word (text.flatMap js.toUpperCase)) =
      .keyword (.word (toAsciiUppercase text)) := by
  by_cases hsame : ∀ d ∈ text, js.toUpperCase d = [d.toUpper]
  · rw [flatMap_congr hsame, toAsciiUppercase, map_eq_flatMap]
  · push Not at hsame
    obtain ⟨d, hd, hne⟩ := hsame
    obtain ⟨hbound, e, he, hbound'⟩ := (h d hd).upper.resolve_left hne
    rw [toAsciiUppercase, keyword_of_not_ascii ⟨e, mem_flatMap.mpr ⟨d, hd, he⟩, hbound'⟩,
      keyword_of_not_ascii ⟨d.toUpper, mem_map_of_mem hd, hbound⟩]

/-- A word is read alike, if its characters and the one behind it are. -/
theorem desktopWordAt_eq
    (hword : ∀ d ∈ c :: rest.take (wordAt unicode c rest).2, Alike js unicode d)
    (hnext : ∀ d ∈ (rest.drop (wordAt unicode c rest).2).head?, Alike js unicode d) :
    (desktopWordAt js c (units rest)).2 = (wordAt unicode c rest).2 ∧
      Token.keyword (.word (desktopWordAt js c (units rest)).1) =
        .keyword (.word (wordAt unicode c rest).1) := by
  have hclass (d : Char) (h : Alike js unicode d) : d.toNat < 0x10000 ∧
      (js.isAlphanumeric d || d = '_') = (unicode.isAlphanumeric d || d = '_') :=
    ⟨h.unit, by rw [h.word]⟩
  -- the word, and what is behind it
  obtain ⟨more, hmore⟩ : ∃ more, rest.takeWhile (fun d => unicode.isAlphanumeric d || d = '_') =
    more := ⟨_, rfl⟩
  have hparts := takeWhile_append_dropWhile
    (p := fun d => unicode.isAlphanumeric d || d = '_') (l := rest)
  have htake : rest.take more.length = more := by
    rw [← hparts, hmore, take_left]
  have hdrop : rest.drop more.length =
      rest.dropWhile fun d => unicode.isAlphanumeric d || d = '_' := by
    conv_lhs => rw [← hparts, hmore, drop_left]
  simp only [wordAt, hmore, htake, hdrop] at hword hnext
  have hsame : (units rest).takeWhile (fun d => js.isAlphanumeric d || d = '_') = more := by
    rw [← hmore]
    exact takeWhile_units (fun d hd => hclass d (hword d (mem_cons_of_mem c (hmore ▸ hd))))
      fun d hd => hclass d (hnext d hd)
  simp only [desktopWordAt, wordAt, hmore, hsame, true_and]
  exact keyword_toUpperCase hword

/-- The quote of the scanner is an ASCII character. -/
def Scan.QuotesAscii (s : Scan) : Prop := ∀ quote, s.mode = .quoted quote → quote.toNat < 128

theorem Scan.QuotesAscii.step (h : s.QuotesAscii) (c : Char) (rest : Text) :
    (s.step unicode c rest).1.QuotesAscii := by
  obtain ⟨mode, rejected⟩ := s
  cases mode with
  | words =>
    simp only [Scan.step]
    split
    · rintro quote ⟨⟩
    split
    · rintro quote ⟨⟩
    split
    · next hquote =>
      rintro quote ⟨⟩
      simp only [Bool.or_eq_true, decide_eq_true_eq] at hquote
      rcases hquote with (rfl | rfl) | rfl
      all_goals decide
    · exact h
  | lineComment | blockComment | quoted quote =>
    simp only [Scan.step]
    repeat' split
    all_goals first
      | exact h
      | rintro quote ⟨⟩

/-- In quotes and comments nothing is made of a character outside ASCII. -/
theorem step_of_not_ascii (hquotes : s.QuotesAscii) (hmode : s.mode ≠ .words)
    (hc : 128 ≤ c.toNat) (rest : Text) : s.step unicode c rest = (s, 0, []) := by
  have hne {d : Char} (hd : d.toNat < 128) : c ≠ d := by
    rintro rfl
    omega
  obtain ⟨mode, rejected⟩ := s
  cases mode with
  | words => exact absurd rfl hmode
  | lineComment | blockComment => simp [Scan.step, hne]
  | quoted quote => simp [Scan.step, hne, hne (hquotes quote rfl)]

/-- In quotes and comments a turn is the same on the units. -/
theorem desktopStep_units (hquotes : s.QuotesAscii) (hmode : s.mode ≠ .words) :
    s.desktopStep js c (units rest) = s.step unicode c rest := by
  have hhead {q : Char} (hq : q.toNat < 128) := @head?_units q rest hq
  obtain ⟨mode, rejected⟩ := s
  cases mode with
  | words => exact absurd rfl hmode
  | lineComment => rfl
  | blockComment => simp [Scan.desktopStep, Scan.step, hhead]
  | quoted quote => simp [Scan.desktopStep, Scan.step, hhead (hquotes quote rfl)]

/-- Outside them it is the same as far as keywords go. -/
theorem desktopStep_words (hmode : s.mode = .words)
    (hword : ∀ d ∈ c :: rest.take (s.step unicode c rest).2.1, Alike js unicode d)
    (hnext : (s.step unicode c rest).1.mode = .words →
      ∀ d ∈ (rest.drop (s.step unicode c rest).2.1).head?, Alike js unicode d) :
    (s.desktopStep js c (units rest)).1 = (s.step unicode c rest).1 ∧
      (s.desktopStep js c (units rest)).2.1 = (s.step unicode c rest).2.1 ∧
      (s.desktopStep js c (units rest)).2.2.map Token.keyword =
        (s.step unicode c rest).2.2.map Token.keyword := by
  have hhead {q : Char} (hq : q.toNat < 128) := @head?_units q rest hq
  have hspace := (hword c mem_cons_self).space
  obtain ⟨mode, rejected⟩ := s
  obtain rfl : mode = .words := hmode
  simp only [Scan.desktopStep, Scan.step, hhead (show '/'.toNat < 128 by decide),
    hhead (show '*'.toNat < 128 by decide)] at hword hnext ⊢
  split
  · exact ⟨rfl, rfl, rfl⟩
  split
  · exact ⟨rfl, rfl, rfl⟩
  split
  · exact ⟨rfl, rfl, rfl⟩
  rw [if_neg ‹_›, if_neg ‹_›, if_neg ‹_›] at hword hnext
  simp only [plainStep, desktopPlainStep, hspace, true_and, true_implies] at hword hnext ⊢
  split
  · exact ⟨rfl, rfl⟩
  split
  · rw [if_neg ‹_›, if_pos ‹_›] at hword hnext
    obtain ⟨hlength, hkeyword⟩ := desktopWordAt_eq hword hnext
    exact ⟨hlength, congrArg ([·]) hkeyword⟩
  · exact ⟨rfl, rfl⟩

/-- What is consumed is one unit a character, or one character in quotes. -/
def Skips (skip : Nat) (s : Scan) (source : Text) : Prop :=
  (∀ c ∈ source.take skip, c.toNat < 0x10000) ∨ skip = 1 ∧ s.mode ≠ .words

theorem skips_zero (s : Scan) (source : Text) : Skips 0 s source := .inl nofun

theorem skips_step (hmode : s.mode ≠ .words) (c : Char) (rest : Text) :
    Skips (s.step unicode c rest).2.1 (s.step unicode c rest).1 rest := by
  obtain ⟨mode, rejected⟩ := s
  cases mode with
  | words => exact absurd rfl hmode
  | lineComment =>
    simp only [Scan.step]
    split <;> exact skips_zero _ _
  | blockComment =>
    simp only [Scan.step]
    split
    · exact skips_zero _ _
    split
    · next hclose =>
      simp only [Bool.and_eq_true, decide_eq_true_eq, head?_eq_some_iff] at hclose
      obtain ⟨-, rest, rfl⟩ := hclose
      exact .inl (by simp)
    · exact skips_zero _ _
  | quoted quote =>
    simp only [Scan.step]
    split
    · exact .inr ⟨rfl, ScanMode.noConfusion⟩
    split
    · split
      · exact .inr ⟨rfl, ScanMode.noConfusion⟩
      · exact skips_zero _ _
    · exact skips_zero _ _

/-- In quotes and comments nothing is made of a unit of a pair. -/
theorem desktopScanner_run_unit (hquotes : s.QuotesAscii) (hmode : s.mode ≠ .words) :
    (desktopScanner js).run 0 s ('�' :: rest) = (desktopScanner js).run 0 s rest := by
  apply Stepper.run_cons_silent
  have hsilent : s.step .ascii '�' rest = (s, 0, []) :=
    step_of_not_ascii hquotes hmode (by decide) rest
  obtain ⟨mode, rejected⟩ := s
  cases mode with
  | words => exact absurd rfl hmode
  | lineComment | blockComment | quoted quote => exact hsilent

theorem keywordsRead_append {a b : Scan × List Token} {out out' : List Token}
    (h : keywordsRead a = keywordsRead b) (hout : out.map Token.keyword = out'.map Token.keyword) :
    keywordsRead (a.1, out ++ a.2) = keywordsRead (b.1, out' ++ b.2) := by
  obtain ⟨hstate, htokens⟩ := Prod.mk.inj h
  rw [keywordsRead, keywordsRead, map_append, map_append, hstate, htokens, hout]

/-- **The scanners read alike.** From the same loop they read the same keywords and signs. -/
theorem desktopScanner_run {skip : Nat} (hquotes : s.QuotesAscii) (hskips : Skips skip s source)
    (h : (scanner unicode).Along (ReadsAlike js unicode) skip s source) :
    keywordsRead ((desktopScanner js).run skip s (units source)) =
      keywordsRead ((scanner unicode).run skip s source) := by
  induction source generalizing skip s with
  | nil => rw [show units [] = [] from rfl, Stepper.run_nil, Stepper.run_nil]
  | cons c rest ih =>
    cases skip with
    | succ skip =>
      by_cases hc : c.toNat < 0x10000
      · rw [units_cons hc]
        refine ih hquotes ?_ h
        rcases hskips with hall | ⟨hone, -⟩
        · exact .inl fun d hd => hall d (mem_cons_of_mem c hd)
        · obtain rfl : skip = 0 := by omega
          exact skips_zero s rest
      · -- the second unit of the pair is read as text of the quotes
        obtain hall | ⟨hone, hmode⟩ := hskips
        · exact absurd (hall c mem_cons_self) hc
        · obtain rfl : skip = 0 := by omega
          rw [units_cons_pair hc]
          exact (congrArg keywordsRead (desktopScanner_run_unit hquotes hmode)).trans
            (ih hquotes (skips_zero s rest) h)
    | zero =>
      obtain ⟨hreads, hrest⟩ := h
      by_cases hmode : s.mode = .words
      · have hword := hreads hmode
        have hnext (hwords : (s.step unicode c rest).1.mode = .words) :
            ∀ d ∈ (rest.drop (s.step unicode c rest).2.1).head?, Alike js unicode d := by
          -- the next turn is at that character
          intro d hd
          obtain ⟨rest', hrest'⟩ := head?_eq_some_iff.mp hd
          have hturn := (Stepper.along_drop _ _ _).mp hrest
          exact (hrest' ▸ hturn).1 hwords d mem_cons_self
        obtain ⟨hstate, hskip, htokens⟩ := desktopStep_words hmode hword hnext
        have hrun := ih (hquotes.step c rest)
          (.inl fun d hd => (hword d (mem_cons_of_mem c hd)).unit) hrest
        rw [units_cons (hword c mem_cons_self).unit, Stepper.run_cons, Stepper.run_cons]
        refine keywordsRead_append (Eq.trans ?_ hrun) htokens
        exact congrArg keywordsRead (congrArg₂ (fun skip s => (desktopScanner js).run skip s _)
          hskip hstate)
      · have hrun := ih (hquotes.step c rest) (skips_step hmode c rest) hrest
        by_cases hc : c.toNat < 0x10000
        · have hstep : (desktopScanner js).step s c (units rest) = s.step unicode c rest :=
            desktopStep_units hquotes hmode
          rw [units_cons hc, Stepper.run_cons, Stepper.run_cons, hstep]
          exact keywordsRead_append hrun rfl
        · have hsilent : s.step unicode c rest = (s, 0, []) :=
            step_of_not_ascii hquotes hmode (by omega) rest
          rw [hsilent] at hrun
          rw [units_cons_pair hc, desktopScanner_run_unit hquotes hmode,
            desktopScanner_run_unit hquotes hmode, hrun]
          exact congrArg keywordsRead (Stepper.run_cons_silent hsilent).symm

/-- **The desktop decides as the backend does**, if every character outside quotes and comments is
the same to both. -/
theorem isProvenReadOnlyCypherDesktop_eq (h : PlainlyAlike js unicode source) :
    isProvenReadOnlyCypherDesktop js source = isProvenReadOnlyCypher unicode source := by
  have hquotes : Scan.QuotesAscii ⟨.words, false⟩ := fun _ hmode => ScanMode.noConfusion hmode
  have hrun := desktopScanner_run hquotes (skips_zero _ source) h
  rw [isProvenReadOnlyCypherDesktop, isProvenReadOnlyCypher, containsText_units,
    ← provesReadOnly_keywordsRead, hrun, provesReadOnly_keywordsRead]

theorem ne_longS (h : c.toNat < 128) : c ≠ 'ſ' := by
  rintro rfl
  exact absurd h (by decide)

/-- JavaScript, with the long s as the only letter outside ASCII. -/
def longS : Js where
  isAlphanumeric c := c.isAlphanum || c = 'ſ'
  toUpperCase c := if c = 'ſ' then ['S'] else [c.toUpper]
  isAlphanumeric_ascii c h := by simp [ne_longS h]
  toUpperCase_ascii c h := by simp [ne_longS h]

/-- The name of a person is quoted text, and is read alike whatever its letters are. -/
theorem desktop_quotedName :
    isProvenReadOnlyCypherDesktop longS "MATCH (n) WHERE n.name = 'Joſé 😀' RETURN n".toList =
      isProvenReadOnlyCypher .ascii "MATCH (n) WHERE n.name = 'Joſé 😀' RETURN n".toList :=
  isProvenReadOnlyCypherDesktop_eq (by decide +kernel)

/-- The backend's classes, with the same letters. -/
def longSUnicode : Sql.Unicode := ⟨longS.isAlphanumeric, longS.isAlphanumeric_ascii⟩

/-- `INſERT` is an unsafe word on the desktop, and no keyword on the backend. -/
theorem desktop_ne_longS :
    isProvenReadOnlyCypherDesktop longS "MATCH (n) INſERT RETURN n".toList = false ∧
      isProvenReadOnlyCypher longSUnicode "MATCH (n) INſERT RETURN n".toList = true := by
  decide +kernel

end Dbx.Cypher
