import Dbx.Sql.Lexer

/-!
# Closed texts

A text is closed in a state of the lexer when it is read to its end in code, and neither a comment
nor a statement separator stands in its code. A closed text can be put into a statement without
changing how the rest of the statement is read.

The lemmas read a text from its left end: each says what is left to be shown behind some
characters.

## Main results

* `closed_word`: characters that open nothing
* `closed_quoted`: a string literal
* `SelfContained.quoted`, `SelfContained.append`: expressions with literals in them
-/

namespace Dbx.Sql

open List

variable {unicode : Unicode} {profile : SqlDialectProfile} {s : LexState}

/-- The text is read to its end in code, with no comment and no statement separator in it. -/
def Closed (unicode : Unicode) (profile : SqlDialectProfile) (s : LexState) (text : Text) : Prop :=
  ((lexer unicode profile).run 0 s text).1.mode = .code ∧
    ∀ piece ∈ ((lexer unicode profile).run 0 s text).2, piece ≠ .comment ∧ piece ≠ .code ';'

instance (text : Text) : Decidable (Closed unicode profile s text) :=
  inferInstanceAs (Decidable (_ ∧ _))

/-- The text is read inside a string, and what follows it as well. -/
def Inside (unicode : Unicode) (profile : SqlDialectProfile) (escapes : Bool) (text : Text) :
    Prop :=
  ∀ behind rest, Closed unicode profile ⟨.string escapes, behind⟩ (text ++ rest) ↔
    Closed unicode profile ⟨.string escapes, text.reverse ++ behind⟩ rest

theorem closed_nil : Closed unicode profile s [] ↔ s.mode = .code := by
  simp [Closed]

theorem closed_cons {s' : LexState} {c : Char} {rest : Text} {skip : Nat} {out : List Piece}
    (h : lexStep unicode profile s c rest = (s', skip, out))
    (hout : ∀ piece ∈ out, piece ≠ .comment ∧ piece ≠ .code ';') :
    Closed unicode profile s (c :: rest) ↔ Closed unicode profile s' (rest.drop skip) := by
  have hstep : (lexer unicode profile).step s c rest = (s', skip, out) := h
  unfold Closed
  rw [Stepper.run_cons, hstep, Stepper.run_drop]
  rw [forall_mem_append, and_iff_right hout]

theorem closed_cons_literal {s' : LexState} {c : Char} {rest : Text} {skip : Nat}
    (h : lexStep unicode profile s c rest = (s', skip, [.literal])) :
    Closed unicode profile s (c :: rest) ↔ Closed unicode profile s' (rest.drop skip) :=
  closed_cons h (by simp)

/-! ## Inside a string -/

attribute [local simp] LexState.to lexStep quotedStep codeStep

namespace Inside

variable {escapes : Bool} {c : Char} {text : Text}

theorem nil : Inside unicode profile escapes [] := by
  intro behind rest
  rfl

theorem append {t : Text} (htext : Inside unicode profile escapes text)
    (ht : Inside unicode profile escapes t) : Inside unicode profile escapes (text ++ t) := by
  intro behind rest
  rw [append_assoc, htext, ht, reverse_append, append_assoc]

theorem flatMap {f : Char → Text} (h : ∀ c ∈ text, Inside unicode profile escapes (f c)) :
    Inside unicode profile escapes (text.flatMap f) := by
  induction text with
  | nil => exact nil
  | cons c text ih =>
    rw [forall_mem_cons] at h
    exact append h.1 (ih h.2)

/-- A character that neither ends the string nor escapes the next one. -/
theorem char (hquote : c ≠ '\'') (hbackslash : c = '\\' → escapes = false) :
    Inside unicode profile escapes [c] := by
  intro behind rest
  have hstep : lexStep unicode profile ⟨.string escapes, behind⟩ c rest =
      (⟨.string escapes, c :: behind⟩, 0, [.literal]) := by
    have hescape : (decide (c = '\\') && escapes) = false := by
      rw [Bool.and_eq_false_iff, decide_eq_false_iff_not, or_iff_not_imp_left, not_not]
      exact hbackslash
    simp [hescape, hquote]
  exact closed_cons_literal hstep

theorem doubled : Inside unicode profile escapes ['\'', '\''] := by
  intro behind rest
  have hstep : lexStep unicode profile ⟨.string escapes, behind⟩ '\'' ('\'' :: rest) =
      (⟨.string escapes, '\'' :: '\'' :: behind⟩, 1, [.literal]) := by
    simp
  exact closed_cons_literal hstep

theorem escaped : Inside unicode profile true ['\\', c] := by
  intro behind rest
  have hstep : lexStep unicode profile ⟨.string true, behind⟩ '\\' (c :: rest) =
      (⟨.string true, c :: '\\' :: behind⟩, 1, [.literal]) := by
    simp
  exact closed_cons_literal hstep

theorem plain (h : ∀ c ∈ text, c ≠ '\'' ∧ c ≠ '\\') : Inside unicode profile escapes text := by
  have htext : text.flatMap (fun c => [c]) = text := by
    simp
  rw [← htext]
  exact flatMap fun c hc => char (h c hc).1 fun heq => absurd heq (h c hc).2

end Inside

/-! ## Code -/

/-- The characters that open something or separate statements, perhaps with others. -/
def openers : List Char := ['\'', '"', '\x60', '-', '#', '/', '$', ';']

/-- The characters that open nothing and separate nothing, whatever follows them. -/
def opensNothing (c : Char) : Bool := !openers.contains c

/-- A class of characters that has none of the openers opens nothing. -/
theorem opensNothing_of_class {p : Char → Bool} (hp : openers.all (fun c => !p c)) {c : Char}
    (hc : p c) : opensNothing c := by
  unfold opensNothing
  rw [Bool.not_eq_true', ← Bool.not_eq_true, contains_iff_mem]
  intro hmem
  have hnot := List.all_eq_true.mp hp c hmem
  rw [hc] at hnot
  exact Bool.false_ne_true hnot

variable {behind rest : Text} {c : Char}

theorem closed_char (h : opensNothing c) : Closed unicode profile ⟨.code, behind⟩ (c :: rest) ↔
      Closed unicode profile ⟨.code, c :: behind⟩ rest := by
  simp only [opensNothing, openers, contains_cons, contains_nil, Bool.or_false, Bool.not_or,
    Bool.and_eq_true, Bool.not_eq_true', beq_eq_false_iff_ne] at h
  obtain ⟨hquote, hdouble, hbacktick, hdash, hhash, hslash, hdollar, hseparator⟩ := h
  have hstep : lexStep unicode profile ⟨.code, behind⟩ c rest =
      (⟨.code, c :: behind⟩, 0, [.code c]) := by
    simp [hquote, hdouble, hbacktick, hdash, hhash, hslash, hdollar]
  exact closed_cons hstep (by simp [hseparator])

/-- Characters that open nothing. -/
theorem closed_word {word : Text} (h : ∀ c ∈ word, opensNothing c) :
    Closed unicode profile ⟨.code, behind⟩ (word ++ rest) ↔
      Closed unicode profile ⟨.code, word.reverse ++ behind⟩ rest := by
  induction word generalizing behind with
  | nil => rfl
  | cons c word ih =>
    rw [forall_mem_cons] at h
    rw [cons_append, closed_char h.1, ih h.2, reverse_cons, append_assoc, singleton_append]

theorem closed_dash (h : rest.head? ≠ some '-') :
    Closed unicode profile ⟨.code, behind⟩ ('-' :: rest) ↔
      Closed unicode profile ⟨.code, '-' :: behind⟩ rest := by
  have hstep : lexStep unicode profile ⟨.code, behind⟩ '-' rest =
      (⟨.code, '-' :: behind⟩, 0, [.code '-']) := by
    simp [h]
  exact closed_cons hstep (by simp)

/-! ## Strings -/

/-- The quote that ends a string. -/
theorem closed_endQuote {escapes : Bool} (h : rest.head? ≠ some '\'') :
    Closed unicode profile ⟨.string escapes, behind⟩ ('\'' :: rest) ↔
      Closed unicode profile ⟨.code, '\'' :: behind⟩ rest := by
  have hnext : rest.take 1 ≠ ['\''] := by
    cases rest with
    | nil => simp
    | cons d rest => simpa using h
  have hstep : lexStep unicode profile ⟨.string escapes, behind⟩ '\'' rest =
      (⟨.code, '\'' :: behind⟩, 0, [.literal]) := by
    simp [hnext]
  exact closed_cons_literal hstep

/-- The text before a quote ends in no letter that introduces another kind of string. -/
def introducesNothing (behind : Text) : Bool :=
  !behind.head?.any ['q', 'Q', 'e', 'E'].contains

/-- A quote that opens an ordinary string. -/
theorem closed_openQuote (h : introducesNothing behind) :
    Closed unicode profile ⟨.code, behind⟩ ('\'' :: rest) ↔ Closed unicode profile
        ⟨.string profile.supportsBackslashEscapedQuotes, '\'' :: behind⟩ rest := by
  have hintroducer : endsWithOracleQQuotePrefix unicode behind = false ∧
      endsWithEscapeStringPrefix unicode behind = false := by
    cases behind with
    | nil => exact ⟨rfl, rfl⟩
    | cons c behind =>
      simp only [introducesNothing, head?_cons, Option.any_some, contains_cons,
        contains_nil, Bool.or_false, Bool.not_or, Bool.and_eq_true, Bool.not_eq_true',
        beq_eq_false_iff_ne] at h
      obtain ⟨hq, hQ, he, hE⟩ := h
      exact ⟨by simp [endsWithOracleQQuotePrefix, hq, hQ],
        by simp [endsWithEscapeStringPrefix, he, hE]⟩
  have hstep : lexStep unicode profile ⟨.code, behind⟩ '\'' rest =
      (⟨.string profile.supportsBackslashEscapedQuotes, '\'' :: behind⟩, 0, [.literal]) := by
    simp [hintroducer.1, hintroducer.2]
  exact closed_cons_literal hstep

theorem closed_openEscapeQuote (hescape : profile.supportsPostgresEscapeStrings) :
    Closed unicode profile ⟨.code, ['E']⟩ ('\'' :: rest) ↔
      Closed unicode profile ⟨.string true, ['\'', 'E']⟩ rest := by
  have hstep : lexStep unicode profile ⟨.code, ['E']⟩ '\'' rest =
      (⟨.string true, ['\'', 'E']⟩, 0, [.literal]) := by
    simp [endsWithOracleQQuotePrefix, endsWithEscapeStringPrefix, hescape]
  exact closed_cons_literal hstep

/-- **A string literal.** -/
theorem closed_quoted {body : Text} (hbehind : introducesNothing behind)
    (hbody : Inside unicode profile profile.supportsBackslashEscapedQuotes body)
    (hrest : rest.head? ≠ some '\'') :
    Closed unicode profile ⟨.code, behind⟩ ('\'' :: (body ++ '\'' :: rest)) ↔
      Closed unicode profile ⟨.code, '\'' :: (body.reverse ++ '\'' :: behind)⟩ rest := by
  rw [closed_openQuote hbehind, hbody, closed_endQuote hrest]

theorem closed_of_opensNothing {word : Text} (h : ∀ c ∈ word, opensNothing c) :
    Closed unicode profile ⟨.code, behind⟩ word := by
  rw [← append_nil word, closed_word h, closed_nil]

/-! ## Expressions -/

/-- The text is read in code, and what follows it as well, unless a quote follows. -/
def SelfContained (unicode : Unicode) (profile : SqlDialectProfile) (text : Text) : Prop :=
  ∀ behind rest, rest.head? ≠ some '\'' → (Closed unicode profile ⟨.code, behind⟩ (text ++ rest) ↔
    Closed unicode profile ⟨.code, text.reverse ++ behind⟩ rest)

namespace SelfContained

variable {text t : Text}

theorem closed (h : SelfContained unicode profile text) :
    Closed unicode profile ⟨.code, behind⟩ text := by
  rw [← append_nil text, h behind [] (by simp), closed_nil]

theorem word (h : ∀ c ∈ text, opensNothing c) : SelfContained unicode profile text :=
  fun _ _ _ => closed_word h

/-- A word and a string literal behind it. -/
theorem quoted (word : Text) (last : Char) {body : Text}
    (hword : ∀ c ∈ word, opensNothing c) (hlast : opensNothing last)
    (hintroduces : introducesNothing [last])
    (hbody : Inside unicode profile profile.supportsBackslashEscapedQuotes body) :
    SelfContained unicode profile (word ++ last :: '\'' :: (body ++ ['\''])) := by
  intro behind rest hrest
  have hbehind : introducesNothing (last :: (word.reverse ++ behind)) := hintroduces
  have hread : Closed unicode profile ⟨.code, behind⟩
      (word ++ last :: '\'' :: (body ++ '\'' :: rest)) ↔ Closed unicode profile
          ⟨.code, '\'' :: (body.reverse ++ '\'' :: last :: (word.reverse ++ behind))⟩ rest := by
    rw [closed_word hword, closed_char hlast, closed_quoted hbehind hbody hrest]
  simpa using hread

theorem append (htext : SelfContained unicode profile text) (ht : SelfContained unicode profile t)
    (hne : t ≠ []) (hquote : t.head? ≠ some '\'') : SelfContained unicode profile (text ++ t) := by
  intro behind rest hrest
  have hnext : (t ++ rest).head? ≠ some '\'' := by
    rwa [head?_append_of_ne_nil _ hne]
  rw [append_assoc, htext _ _ hnext, ht _ _ hrest, reverse_append, append_assoc]

end SelfContained

end Dbx.Sql
