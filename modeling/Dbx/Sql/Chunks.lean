import Dbx.Sql.Splitter

/-!
# Chunks of a script

The splitter looks ahead in a chunk: for the rest of a dollar tag, for the asterisk of a comment,
and for the character behind two dashes. Where no such look is cut off by the end of a chunk, the
statements do not depend on how the script is cut.
-/

namespace Dbx.Sql.SqlStatementSplitter

open Text List
open Nat (zero_le)

variable {τ : Type} (unicode : Unicode) (rules : BlockRules τ)

/-- The splitter is in no literal and no comment. -/
def scansCode (s : SqlStatementSplitter τ) : Bool :=
  s.dollarQuoteTag.isNone && !s.inLineComment && s.blockCommentDepth = 0 &&
    !s.oracleQQuote.isOpen && s.unquoted

def inCode (s : SqlStatementSplitter τ) : Bool := s.pendingPsqlCommand.isNone && s.scansCode

/-- The character is the second of two dashes that open a comment or not, with what follows. -/
def EndsInDashes (s : SqlStatementSplitter τ) (c : Char) : Prop :=
  s.previous = some '-' ∧ c = '-' ∧ s.profile.requiresWhitespaceAfterLineCommentDashes

/-- The active delimiter ends with the character. -/
def endsAt (s : SqlStatementSplitter τ) (c : Char) : Bool :=
  (s.customDelimiter.any fun delimiter => delimiter.isSuffixOf (s.buffer ++ [c])) &&
    !(s.keep [c]).onDelimiterLine

section

variable (more : Text) (s : SqlStatementSplitter τ) (c : Char) (rest : Text)

def ClosingTagUncut : Prop :=
  ∀ tag ∈ s.dollarQuoteTag, tag <+: c :: (rest ++ more) → tag <+: c :: rest

/-- No opening dollar tag is cut. -/
def OpeningTagUncut : Prop :=
  s.inCode → s.profile.supportsDollarQuotedStrings → s.customDelimiter = none →
    s.onDelimiterLine = false →
    dollarQuoteTagAt (c :: (rest ++ more)) = dollarQuoteTagAt (c :: rest)

/-- A comment that is cut between its slash and its asterisk goes on without a slash, and no
delimiter ends at the slash. -/
def CommentOpenerUncut : Prop :=
  s.inCode → rest = [] → c = '/' → more.head? = some '*' →
    (more.drop 1).head? ≠ some '/' ∧ s.endsAt '/' = false

/-- No delimiter ends at dashes that turn out to open no comment. -/
def DashesUncut : Prop :=
  s.inCode → rest = [] → s.EndsInDashes c → more ≠ [] →
    dashDashStartsLineComment s.profile more.head? = false → s.endsAt '-' = false

/-- The step at `c` sees in the `rest` of the chunk what it would see with `more` behind it. -/
structure CutSafe : Prop where
  closesTag : ClosingTagUncut more s c rest
  opensTag : OpeningTagUncut more s c rest
  opensComment : CommentOpenerUncut more s c rest
  dashes : DashesUncut more s c rest

instance : Decidable (s.EndsInDashes c) := inferInstanceAs (Decidable (_ ∧ _))

instance : Decidable (ClosingTagUncut more s c rest) :=
  match h : s.dollarQuoteTag with
  | none => .isTrue fun tag htag => by simp [h] at htag
  | some tag =>
    decidable_of_iff (tag <+: c :: (rest ++ more) → tag <+: c :: rest)
      (by simp [ClosingTagUncut, h])

instance : Decidable (OpeningTagUncut more s c rest) := inferInstanceAs (Decidable (_ → _))

instance : Decidable (CommentOpenerUncut more s c rest) := inferInstanceAs (Decidable (_ → _))

instance : Decidable (DashesUncut more s c rest) := inferInstanceAs (Decidable (_ → _))

instance : Decidable (CutSafe more s c rest) :=
  decidable_of_iff
    (ClosingTagUncut more s c rest ∧ OpeningTagUncut more s c rest ∧
      CommentOpenerUncut more s c rest ∧ DashesUncut more s c rest)
    ⟨fun h => ⟨h.1, h.2.1, h.2.2.1, h.2.2.2⟩, fun h => ⟨h.1, h.2, h.3, h.4⟩⟩

end

/-- No end of a chunk hides anything. -/
def ChunksSafe : SqlStatementSplitter τ → List Text → Prop
  | _, [] => True
  | s, chunk :: chunks =>
    (scanner unicode rules).Along (CutSafe chunks.flatten) 0 (s.resume chunk) chunk ∧
      ChunksSafe (s.pushChunkWithControl unicode rules chunk).1 chunks

instance instDecidableChunksSafe : ∀ (s : SqlStatementSplitter τ) chunks,
    Decidable (s.ChunksSafe unicode rules chunks)
  | _, [] => .isTrue trivial
  | s, chunk :: chunks =>
    have := instDecidableChunksSafe (s.pushChunkWithControl unicode rules chunk).1 chunks
    inferInstanceAs (Decidable (_ ∧ _))

variable {unicode rules} {s : SqlStatementSplitter τ} {c : Char} {rest more : Text}

theorem inCode_iff : s.inCode ↔ s.pendingPsqlCommand = none ∧ s.dollarQuoteTag = none ∧
    s.inLineComment = false ∧ s.blockCommentDepth = 0 ∧ s.oracleQQuote.isOpen = false ∧
    s.unquoted := by
  simp [inCode, scansCode, and_assoc]

/-! ### What a step consumes -/

variable {tag : Text}

theorem isPrefix_dollarQuoteTagAt {text tag : Text} (h : dollarQuoteTagAt text = some tag) :
    tag <+: text := by
  cases text with
  | nil => cases h
  | cons d text =>
    rw [dollarQuoteTagAt] at h
    split at h
    · next heq =>
      obtain ⟨tail, htail, rfl⟩ := Option.map_eq_some_iff.mp h
      have hend := dollarTagEnd_of_dollarQuoteTag htail
      exact List.cons_prefix_cons.mpr ⟨heq.symm, isPrefix_dollarTagEnd hend⟩
    · cases h

theorem dollarQuoteTagAt_of_ne (h : c ≠ '$') : dollarQuoteTagAt (c :: rest) = none := by
  simp [dollarQuoteTagAt, h]

theorem dollarStep_consumes (tag : Text) : (s.dollarStep tag c rest).2 ≤ rest.length := by
  unfold dollarStep
  split
  · next h =>
    have hle := (List.isPrefixOf_iff_prefix.mp h).length_le
    simp only [length_cons] at hle
    omega
  · exact zero_le _

theorem openDollarQuote_consumes {opened : SqlStatementSplitter τ × Nat}
    (h : s.openDollarQuote rules (dollarQuoteTagAt (c :: rest)) = some opened) :
    opened.2 ≤ rest.length := by
  cases htag : dollarQuoteTagAt (c :: rest) with
  | none => simp [htag, openDollarQuote] at h
  | some tag =>
    have hle := (isPrefix_dollarQuoteTagAt htag).length_le
    simp only [htag, openDollarQuote] at h
    split at h <;> cases h
    simp only [length_cons] at hle
    omega

/-- A step consumes no more than the chunk has. -/
theorem chunkStep_consumes : (s.chunkStep unicode rules c rest).2.1 ≤ rest.length := by
  unfold chunkStep
  split
  · split <;> exact zero_le _
  split
  · exact zero_le _
  unfold scanStep
  split
  · exact dollarStep_consumes _
  split
  · exact zero_le _
  split
  · exact zero_le _
  split
  · exact zero_le _
  split
  · next opened h =>
    split at h
    · unfold openStep at h
      split at h
      · cases h
        exact zero_le _
      · exact openDollarQuote_consumes h
    · cases h
  · exact zero_le _

/-! ### What a step sees -/

/-- The lookahead at the end of a chunk that another character behind it changes. -/
theorem openMark_none_eq (hslash : ¬(c = '/' ∧ more.head? = some '*')) (hdash : ¬s.EndsInDashes c) :
    s.openMark unicode c more.head? = s.openMark unicode c none := by
  unfold openMark
  by_cases hdashes : s.previous = some '-' ∧ c = '-'
  · have hplain : s.profile.requiresWhitespaceAfterLineCommentDashes = false := by
      simpa using fun h => hdash ⟨hdashes.1, hdashes.2, h⟩
    simp [dashDashStartsLineComment, hplain, hdashes]
  · simp [hdashes, hslash]

theorem openMark_append (hlook : rest = [] → ¬(c = '/' ∧ more.head? = some '*') ∧
      ¬s.EndsInDashes c) :
    s.openMark unicode c (rest ++ more).head? = s.openMark unicode c rest.head? := by
  cases rest with
  | nil => exact openMark_none_eq (hlook rfl).1 (hlook rfl).2
  | cons d rest => rfl

theorem dollarStep_append (h : tag <+: c :: (rest ++ more) → tag <+: c :: rest) :
    s.dollarStep tag c (rest ++ more) = s.dollarStep tag c rest := by
  have hiff : tag.isPrefixOf (c :: (rest ++ more)) = tag.isPrefixOf (c :: rest) := by
    rw [Bool.eq_iff_iff, isPrefixOf_iff_prefix, isPrefixOf_iff_prefix]
    exact ⟨h, fun h' => h'.trans (prefix_append (c :: rest) more)⟩
  rw [dollarStep, dollarStep, hiff]

theorem openDollarQuote_append
    (h : s.profile.supportsDollarQuotedStrings → s.customDelimiter = none →
      s.onDelimiterLine = false →
      dollarQuoteTagAt (c :: (rest ++ more)) = dollarQuoteTagAt (c :: rest)) :
    s.openDollarQuote rules (dollarQuoteTagAt (c :: (rest ++ more))) =
      s.openDollarQuote rules (dollarQuoteTagAt (c :: rest)) := by
  by_cases hopen : s.profile.supportsDollarQuotedStrings && s.customDelimiter.isNone &&
      !s.onDelimiterLine
  · simp only [Bool.and_eq_true, Option.isNone_iff_eq_none, Bool.not_eq_true'] at hopen
    rw [h hopen.1.1 hopen.1.2 hopen.2]
  · -- no tag is recognised here, cut or not
    have hclosed : ∀ tag, s.openDollarQuote rules tag = none := by
      intro tag
      cases tag with
      | none => rfl
      | some tag => rw [openDollarQuote, if_neg hopen]
    rw [hclosed, hclosed]

/-- A step whose lookahead is not cut off does not see the end of the chunk. -/
theorem chunkStep_append (hsafe : CutSafe more s c rest)
    (hlook : s.inCode → rest = [] → ¬(c = '/' ∧ more.head? = some '*') ∧ ¬s.EndsInDashes c) :
    s.chunkStep unicode rules c (rest ++ more) = s.chunkStep unicode rules c rest := by
  unfold chunkStep
  cases hpsql : s.pendingPsqlCommand with
  | some command => rfl
  | none =>
    dsimp only
    split
    · rfl
    unfold scanStep
    cases htag : s.dollarQuoteTag with
    | some tag =>
      dsimp only
      rw [dollarStep_append (hsafe.closesTag tag htag)]
    | none =>
      dsimp only
      split
      · rfl
      next hline =>
      split
      · rfl
      next hblock =>
      split
      · rfl
      next hquote =>
      -- in code a step looks ahead for what may open there
      by_cases hunquoted : s.unquoted
      · have hcode : s.inCode := inCode_iff.mpr
          ⟨hpsql, htag, by simpa using hline, by simpa using hblock, by simpa using hquote,
            hunquoted⟩
        have hopen : s.openStep unicode rules c (rest ++ more) =
          s.openStep unicode rules c rest := by
          rw [openStep, openStep, openMark_append (hlook hcode),
            openDollarQuote_append (hsafe.opensTag hcode)]
        rw [hopen]
      · rw [if_neg hunquoted, if_neg hunquoted]

/-! ### The pending dashes -/

theorem keepSemicolon_pending (complete : Bool) (h : s.pendingMysqlLineCommentDashes = false) :
    (s.keepSemicolon rules complete).1.pendingMysqlLineCommentDashes = false := by
  unfold keepSemicolon
  split
  · rfl
  · exact h

theorem endControlFlowBatch_pending :
    (s.endControlFlowBatch rules).1.pendingMysqlLineCommentDashes = false := by
  unfold endControlFlowBatch
  split
  · rfl
  · split_ifs <;> rfl

section Pending

variable (h : s.pendingMysqlLineCommentDashes = false)

include h in
theorem semicolonStep_pending :
    (s.semicolonStep rules).1.pendingMysqlLineCommentDashes = false := by
  unfold semicolonStep
  dsimp only
  generalize (if s.postgresDollarQuotedRoutine then (false, s.oracleBlock)
    else rules.keepsBlockTogether s.oracleBlock s.profile s.buffer) = tracked
  split
  · exact h
  split
  · exact h
  split
  · split
    · rfl
    · exact h
  split
  · exact keepSemicolon_pending _ h
  split
  · exact keepSemicolon_pending _ h
  split
  · exact keepSemicolon_pending _ h
  split
  · split
    · exact endControlFlowBatch_pending
    · exact h
  · rfl

include h in
theorem keepStep_pending :
    (s.keepStep unicode rules c).1.pendingMysqlLineCommentDashes = false := by
  unfold keepStep
  split
  · next toggled htoggled =>
    unfold toggleQuote at htoggled
    split_ifs at htoggled
    all_goals
      cases htoggled
      exact h
  · split
    · exact semicolonStep_pending h
    · exact h

include h in
theorem plainStep_pending :
    (s.plainStep unicode rules c).1.pendingMysqlLineCommentDashes = false := by
  have hkept : (s.keepStep unicode rules c).1.pendingMysqlLineCommentDashes = false :=
    keepStep_pending h
  unfold plainStep
  dsimp only
  split
  · split
    · next ended hended =>
      split at hended
      · unfold lineStep at hended
        dsimp only at hended
        split at hended
        · cases hended
          exact hkept
        split at hended
        · obtain ⟨delimiter, -, rfl⟩ := Option.map_eq_some_iff.mp hended
          exact hkept
        · cases hended
      · cases hended
    · unfold delimiterStep
      split
      · split
        · rfl
        · exact hkept
      · exact hkept
  · exact hkept

variable {opened : SqlStatementSplitter τ}

include h in
theorem openMark_pending {next : Option Char} (hnext : ¬s.EndsInDashes c ∨ next ≠ none)
    (hopen : s.openMark unicode c next = some opened) :
    opened.pendingMysqlLineCommentDashes = false := by
  unfold openMark at hopen
  split_ifs at hopen with _ hpending
  · cases hopen
    exact h
  · simp only [Bool.and_eq_true, decide_eq_true_eq, Option.isNone_iff_eq_none] at hpending
    rcases hnext with hne | hne
    · exact absurd ⟨hpending.1.1.1, hpending.1.1.2, hpending.1.2⟩ hne
    · exact absurd hpending.2 hne
  all_goals
    cases hopen
    exact h

include h in
/-- Only dashes at the end of a chunk are left pending. -/
theorem scanStep_pending (hlast : (s.scansCode → ¬s.EndsInDashes c) ∨ rest ≠ []) :
    (s.scanStep unicode rules c rest).1.pendingMysqlLineCommentDashes = false := by
  unfold scanStep
  cases htag : s.dollarQuoteTag with
  | some tag =>
    dsimp only
    unfold dollarStep
    split <;> exact h
  | none =>
    dsimp only
    split
    · exact h
    next hline =>
    split
    · unfold blockCommentStep
      split_ifs <;> exact h
    next hblock =>
    split
    · exact h
    next hquote =>
    split
    · next opened hopened =>
      split at hopened
      · next hunquoted =>
        unfold openStep at hopened
        split at hopened
        · next mark hmark =>
          cases hopened
          -- dashes are left pending where a comment may open
          have hcode : s.scansCode := by
            simp_all [scansCode]
          exact openMark_pending h (hlast.imp (fun hnot => hnot hcode) (by simp)) hmark
        · unfold openDollarQuote at hopened
          split at hopened
          · split at hopened <;> cases hopened
            exact h
          · cases hopened
      · cases hopened
    · exact plainStep_pending h

include h in
theorem run_plainScanner_pending {command : Text} (hlast : command.getLast? ≠ some '-')
    (skip : Nat) :
    ((plainScanner unicode rules).run skip s command).1.pendingMysqlLineCommentDashes = false := by
  induction command generalizing skip s with
  | nil => simpa using h
  | cons c command ih =>
    have hcommand : command.getLast? ≠ some '-' := by
      cases command with
      | nil => simp
      | cons d command => simpa using hlast
    cases skip with
    | succ skip => exact ih h hcommand skip
    | zero =>
      refine ih (scanStep_pending h ?_) hcommand _
      cases command with
      | nil => exact .inl fun _ hdashes => hlast (by simp [hdashes.2.1])
      | cons d command => exact .inr (by simp)

include h in
theorem resume_of_not_pending (chunk : Text) : s.resume chunk = s := by
  simp [resume, h]

include h in
theorem finishPsqlCommand_pending {command : Text} (hlast : command.getLast? ≠ some '-') :
    (s.finishPsqlCommand unicode rules command).1.pendingMysqlLineCommentDashes = false := by
  unfold finishPsqlCommand
  dsimp only
  split
  · exact h
  · refine run_plainScanner_pending ?_ hlast 0
    rw [resume_of_not_pending]
    · exact h
    · exact h

include h in
@[inherit_doc scanStep_pending]
theorem chunkStep_pending (hlast : (s.inCode → ¬s.EndsInDashes c) ∨ rest ≠ []) :
    (s.chunkStep unicode rules c rest).1.pendingMysqlLineCommentDashes = false := by
  unfold chunkStep
  split
  · split
    · next hc =>
      exact finishPsqlCommand_pending h (by simp [hc])
    · exact h
  · next hpsql =>
    split
    · exact h
    · refine scanStep_pending h (hlast.imp_left fun hnot hcode => hnot ?_)
      simp [inCode, hpsql, hcode]

end Pending

/-! ### Steps at the end of a chunk that see less -/

theorem plainStep_eq_read (hcode : s.inCode) (hends : s.endsAt c = false)
    (hc : c ≠ '\'' ∧ c ≠ '"' ∧ c ≠ '\x60' ∧ c ≠ ';' ∧ c ≠ '\n') :
    s.plainStep unicode rules c = (s.read [c], []) := by
  obtain ⟨-, htag, -, -, -, hunquoted⟩ := inCode_iff.mp hcode
  obtain ⟨hsingle, hdouble, hbacktick, hsemicolon, hnewline⟩ := hc
  have hkept : s.keepStep unicode rules c = (s.keep [c], []) := by
    simp [keepStep, toggleQuote, hsingle, hdouble, hbacktick, hsemicolon]
  have hdelimiter : (s.keep [c]).delimiterStep rules = (s.keep [c], []) := by
    unfold delimiterStep
    cases hcustom : s.customDelimiter with
    | none => simp [keep, hcustom]
    | some delimiter =>
      have hfalse : (delimiter.isSuffixOf (s.buffer ++ [c]) && !(s.keep [c]).onDelimiterLine) =
          false := by simpa [endsAt, hcustom] using hends
      have hsame : (s.keep [c]).customDelimiter = some delimiter := hcustom
      simp only [hsame]
      rw [if_neg]
      rw [Bool.not_eq_true]
      exact hfalse
  have hreads : (s.keep [c]).unquoted && (s.keep [c]).dollarQuoteTag.isNone := by
    simp [keep, unquoted, htag] at hunquoted ⊢
    exact hunquoted
  rw [plainStep, hkept]
  simp only [hreads, if_true, if_neg hnewline, hdelimiter]
  rfl

attribute [local simp] startsPsqlCommand chunkStep scanStep

theorem chunkStep_of_openMark (hcode : s.inCode) (hc : c ≠ '\\')
    (hopen : s.openMark unicode c rest.head? = some opened) :
    s.chunkStep unicode rules c rest = (opened, 0, []) := by
  obtain ⟨hpsql, htag, hline, hblock, hquote, hunquoted⟩ := inCode_iff.mp hcode
  simp [hpsql, hc, htag, hline, hblock, hquote, hunquoted, openStep, hopen]

theorem chunkStep_of_plain (hcode : s.inCode) (hc : c ≠ '\\') (hdollar : c ≠ '$')
    (hopen : s.openMark unicode c rest.head? = none) :
    s.chunkStep unicode rules c rest =
      ((s.plainStep unicode rules c).1, 0, (s.plainStep unicode rules c).2) := by
  obtain ⟨hpsql, htag, hline, hblock, hquote, hunquoted⟩ := inCode_iff.mp hcode
  simp [hpsql, hc, htag, hline, hblock, hquote, hunquoted, openStep, hopen,
    dollarQuoteTagAt_of_ne hdollar, openDollarQuote]

variable (unicode rules) in
/-- The statements from a state on, to the end of the script. -/
def outcome (s : SqlStatementSplitter τ) (text : Text) : List SqlStatementWithControl :=
  ((scanner unicode rules).run 0 s text).2 ++
    ((scanner unicode rules).run 0 s text).1.finishWithControl unicode rules

theorem outcome_cons {s' : SqlStatementSplitter τ}
    (h : s.chunkStep unicode rules c rest = (s', 0, [])) :
    s.outcome unicode rules (c :: rest) = s'.outcome unicode rules rest := by
  have hstep : (scanner unicode rules).step s c rest = (s', 0, []) := h
  rw [outcome, Stepper.run_cons_one hstep]
  rfl

theorem finishWithControl_previous (h : s.pendingPsqlCommand = none) (previous : Option Char) :
    { s with previous }.finishWithControl unicode rules = s.finishWithControl unicode rules := by
  simp only [finishWithControl, h]
  rfl

theorem chunkStep_of_block (hpsql : s.pendingPsqlCommand = none) (htag : s.dollarQuoteTag = none)
    (hline : s.inLineComment = false) (hblock : 0 < s.blockCommentDepth) :
    s.chunkStep unicode rules c rest = (s.blockCommentStep c, 0, []) := by
  have hdepth : s.blockCommentDepth ≠ 0 := by omega
  simp [hpsql, hdepth, htag, hline, hblock]

attribute [local simp] openMark read

/-- A comment cut between its slash and its asterisk: the splitter is in it one character later. -/
theorem outcome_cut_comment (hcode : s.inCode) (hslash : more.head? ≠ some '/') :
    (s.openBlockComment '/').outcome unicode rules ('*' :: more) =
      (s.read ['/']).outcome unicode rules ('*' :: more) := by
  obtain ⟨hpsql, htag, hline, hblock, hquote, hunquoted⟩ := inCode_iff.mp hcode
  have hread : (s.read ['/']).inCode :=
    inCode_iff.mpr ⟨hpsql, htag, hline, hblock, hquote, hunquoted⟩
  set late := (s.read ['/']).openBlockComment '*' with hlate
  have hwhole : (s.openBlockComment '/').outcome unicode rules ('*' :: more) =
      { late with previous := some '*' }.outcome unicode rules more := by
    refine outcome_cons ?_
    rw [chunkStep_of_block (s := s.openBlockComment '/') hpsql htag hline Nat.one_pos]
    simp [blockCommentStep, openBlockComment, keep, hlate]
  have hcut : (s.read ['/']).outcome unicode rules ('*' :: more) =
      late.outcome unicode rules more := by
    refine outcome_cons (chunkStep_of_openMark hread (by decide) ?_)
    simp [hlate]
  rw [hwhole, hcut]
  cases more with
  | nil => exact finishWithControl_previous (s := late) hpsql _
  | cons d more =>
    have hd : d ≠ '/' := by simpa using hslash
    have hstep : ∀ previous : Option Char, previous = some '*' ∨ previous = none →
        { late with previous }.outcome unicode rules (d :: more) =
          (late.read [d]).outcome unicode rules more := by
      intro previous hprevious
      refine outcome_cons ?_
      rw [chunkStep_of_block (s := { late with previous }) hpsql htag hline Nat.one_pos]
      rcases hprevious with rfl | rfl <;> simp [blockCommentStep, hd]
    exact (hstep _ (.inl rfl)).trans (hstep none (.inr rfl)).symm

/-- Dashes cut from what follows them: the next chunk decides. -/
theorem outcome_cut_dashes (hcode : s.inCode) (hpending : s.pendingMysqlLineCommentDashes = false)
    (hdashes : s.EndsInDashes c) {d : Char}
    (hends : dashDashStartsLineComment s.profile (some d) = false → s.endsAt '-' = false) :
    ∃ left, s.chunkStep unicode rules c [] = (left, 0, []) ∧
      s.chunkStep unicode rules c (d :: more) = (left.resume (d :: more), 0, []) := by
  obtain ⟨hprevious, rfl, hrequires⟩ := hdashes
  obtain ⟨hpsql, htag, hline, hblock, hquote, hunquoted⟩ := inCode_iff.mp hcode
  refine ⟨{ s.read ['-'] with pendingMysqlLineCommentDashes := true },
    chunkStep_of_openMark hcode (by decide) ?_, ?_⟩
  · simp [hprevious, hrequires]
  · cases hstarts : dashDashStartsLineComment s.profile (some d) with
    | true =>
      have hopen : s.openMark unicode '-' (d :: more).head? =
          some { s.read ['-'] with inLineComment := true } := by
        simp [hprevious, hstarts]
      rw [chunkStep_of_openMark hcode (by decide) hopen]
      simp [resume, hstarts, hpending]
    | false =>
      have hopen : s.openMark unicode '-' (d :: more).head? = none := by
        simp [hstarts]
      rw [chunkStep_of_plain hcode (by decide) (by decide) hopen,
        plainStep_eq_read hcode (hends hstarts) (by decide)]
      simp [resume, hstarts, hpending, hline]

variable {chunk : Text}

/-- **A cut that hides nothing.** The statements of a chunk and of the script behind it are those of
the chunk joined with it. -/
theorem run_append_of_safe (hmore : more ≠ []) {skip : Nat}
    (hskip : skip ≤ chunk.length) (hpending : s.pendingMysqlLineCommentDashes = false)
    (hsafe : (scanner unicode rules).Along (CutSafe more) skip s chunk) :
    ((scanner unicode rules).run skip s (chunk ++ more)).2 ++
        ((scanner unicode rules).run skip s (chunk ++ more)).1.finishWithControl unicode rules =
      ((scanner unicode rules).run skip s chunk).2 ++
        (((scanner unicode rules).run skip s chunk).1.resume more).outcome unicode rules more := by
  induction chunk generalizing skip s with
  | nil =>
    obtain rfl : skip = 0 := by simpa using hskip
    simp [outcome, resume_of_not_pending hpending]
  | cons c chunk ih =>
    cases skip with
    | succ skip => exact ih (by simpa using hskip) hpending hsafe
    | zero =>
      obtain ⟨hstep, hrest⟩ := hsafe
      -- the cut lies between the two characters that open a block comment
      by_cases hslash : s.inCode ∧ chunk = [] ∧ c = '/' ∧ more.head? = some '*'
      · obtain ⟨hcode, rfl, rfl, hstar⟩ := hslash
        obtain ⟨hnext, hends⟩ := hstep.opensComment hcode rfl rfl hstar
        obtain ⟨more, rfl⟩ := List.head?_eq_some_iff.mp hstar
        have hwhole : s.chunkStep unicode rules '/' ('*' :: more) =
          (s.openBlockComment '/', 0, []) :=
          chunkStep_of_openMark hcode (by decide) (by simp)
        have hcut : s.chunkStep unicode rules '/' [] = (s.read ['/'], 0, []) := by
          rw [chunkStep_of_plain hcode (by decide) (by decide) (by simp),
            plainStep_eq_read hcode hends (by decide)]
        have hleft : (s.read ['/']).resume ('*' :: more) = s.read ['/'] :=
          resume_of_not_pending (s := s.read ['/']) hpending _
        have hplain : more.head? ≠ some '/' := hnext
        have hrun : (scanner unicode rules).run 0 s ['/'] = (s.read ['/'], []) :=
          Stepper.run_cons_one (S := scanner unicode rules) hcut
        rw [hrun, hleft, ← outcome_cut_comment hcode hplain]
        exact outcome_cons hwhole
      -- the cut lies behind dashes, which stay pending until the next chunk
      by_cases hdash : s.inCode ∧ chunk = [] ∧ s.EndsInDashes c
      · obtain ⟨hcode, rfl, hdashes⟩ := hdash
        obtain ⟨d, more, rfl⟩ := exists_cons_of_ne_nil hmore
        obtain ⟨left, hcut, hwhole⟩ : ∃ left, s.chunkStep unicode rules c [] = (left, 0, []) ∧
            s.chunkStep unicode rules c (d :: more) = (left.resume (d :: more), 0, []) :=
          outcome_cut_dashes hcode hpending hdashes (hstep.dashes hcode rfl hdashes hmore)
        have hrun : (scanner unicode rules).run 0 s [c] = (left, []) :=
          Stepper.run_cons_one (S := scanner unicode rules) hcut
        rw [hrun]
        exact outcome_cons hwhole
      · -- anywhere else the step is the same with and without what follows
        have hlook : s.inCode → chunk = [] → ¬(c = '/' ∧ more.head? = some '*') ∧
          ¬s.EndsInDashes c :=
          fun hcode hnil => ⟨fun h => hslash ⟨hcode, hnil, h⟩, fun h => hdash ⟨hcode, hnil, h⟩⟩
        have hsame : (scanner unicode rules).step s c (chunk ++ more) =
            (scanner unicode rules).step s c chunk := chunkStep_append hstep hlook
        have hleft : ((scanner unicode rules).step s c chunk).1.pendingMysqlLineCommentDashes =
            false := by
          refine chunkStep_pending hpending ?_
          by_cases hnil : chunk = []
          · exact .inl fun hcode => (hlook hcode hnil).2
          · exact .inr hnil
        rw [cons_append, Stepper.run_cons, Stepper.run_cons, hsame, append_assoc, append_assoc]
        exact congrArg (_ ++ ·) (ih chunkStep_consumes hleft hrest)

theorem resume_append (h : chunk ≠ []) : s.resume (chunk ++ more) = s.resume chunk := by
  obtain ⟨c, chunk, rfl⟩ := exists_cons_of_ne_nil h
  rfl

theorem resume_pending (h : chunk ≠ []) :
    (s.resume chunk).pendingMysqlLineCommentDashes = false := by
  unfold resume
  split
  · rfl
  · next hnot => simpa [h] using hnot

/-- **Chunk invariance.** When no end of a chunk hides anything, the statements of the chunks are
those of the script pushed whole. -/
theorem pushChunks_of_safe {chunks : List Text} (h : ChunksSafe unicode rules s chunks) :
    s.pushChunks unicode rules chunks = s.pushChunks unicode rules [chunks.flatten] := by
  induction chunks generalizing s with
  | nil => simp [pushChunks, pushChunkWithControl, resume]
  | cons chunk chunks ih =>
    obtain ⟨hchunk, hchunks⟩ := h
    rw [pushChunks, ih hchunks]
    change ((scanner unicode rules).run 0 (s.resume chunk) chunk).2 ++
        (((scanner unicode rules).run 0 (s.resume chunk) chunk).1.resume chunks.flatten).outcome
          unicode rules chunks.flatten =
      (s.resume (chunk ++ chunks.flatten)).outcome unicode rules (chunk ++ chunks.flatten)
    by_cases hnil : chunk = []
    · simp [hnil, resume]
    by_cases hlast : chunks.flatten = []
    · simp [hlast, resume, outcome]
    · rw [resume_append hnil]
      exact (run_append_of_safe hlast (zero_le _) (resume_pending hnil) hchunk).symm

/-- A MySQL script cut in a comment opener, between dashes and a blank, and in a string. -/
theorem pushChunks_threeCuts :
    (withOptions BlockRules.none (.forDatabaseType .mysql)).pushChunks .ascii .none
        ["SELECT 1 /".toList, "* a; */ + 2; --".toList, " b;\nSELECT 'c".toList, "d;';".toList] =
      (withOptions BlockRules.none (.forDatabaseType .mysql)).pushChunks .ascii .none
        ["SELECT 1 /* a; */ + 2; -- b;\nSELECT 'cd;';".toList] :=
  pushChunks_of_safe (by decide +kernel)

/-- **The cut shows.** A chunk that ends inside of a dollar tag hides the tag: the semicolon in the
dollar-quoted string ends the statement. -/
theorem pushChunks_cut_in_tag :
    (withOptions BlockRules.none (.forDatabaseType .postgres)).pushChunks .ascii .none
        ["SELECT $".toList, "$a;b$$".toList] =
        [⟨"SELECT $$a".toList, false⟩, ⟨"b$$".toList, false⟩] ∧
      (withOptions BlockRules.none (.forDatabaseType .postgres)).pushChunks .ascii .none
        ["SELECT $$a;b$$".toList] = [⟨"SELECT $$a;b$$".toList, false⟩] := by
  constructor <;> decide +kernel

end Dbx.Sql.SqlStatementSplitter
