import Mathlib.Data.List.Infix

/-!
# Glob patterns over bytes

The patterns that a key-value server matches its keys against: `*` for any bytes, `?` for any byte,
a class in brackets for one of some bytes, and a backslash before a byte that stands for itself. A
class that is not closed goes to the end of the pattern.

## Main definitions

* `Token`, `tokens`: the tokens of a pattern
* `Matches`: the bytes that a pattern matches

## Main results

* `tokens_append`: bytes that stand for themselves
* `matches_literals_append`: what a pattern matches that starts with them
* `matches_all_iff`: a pattern with a final `*` matches the bytes with a given start, and only
  those, if and only if they stand for themselves in it
-/

namespace Dbx.Glob

open List

/-- The bytes with a meaning in patterns. -/
def backslash : UInt8 := 92
@[inherit_doc backslash] def asterisk : UInt8 := 42
@[inherit_doc backslash] def question : UInt8 := 63
@[inherit_doc backslash] def leftBracket : UInt8 := 91
@[inherit_doc backslash] def rightBracket : UInt8 := 93
@[inherit_doc backslash] def caret : UInt8 := 94
@[inherit_doc backslash] def dash : UInt8 := 45

/-- The bytes that do not stand for themselves outside of a class. -/
def specials : List UInt8 := [backslash, asterisk, question, leftBracket]

/-- A byte as a signed number: the ranges of a class are compared so. -/
def signed (byte : UInt8) : Int := if byte.toNat < 128 then byte.toNat else byte.toNat - 256

/-- A class of bytes. -/
structure ByteClass where
  negate : Bool := false
  chars : List UInt8 := []
  ranges : List (Int × Int) := []
  deriving DecidableEq, Repr

namespace ByteClass

def add (cls : ByteClass) (byte : UInt8) : ByteClass := { cls with chars := cls.chars ++ [byte] }

/-- The class with a range more, whose ends are given in any order. -/
def addRange (cls : ByteClass) (a b : UInt8) : ByteClass :=
  { cls with ranges := cls.ranges ++ [(min (signed a) (signed b), max (signed a) (signed b))] }

/-- The byte is in the class. -/
def accepts (cls : ByteClass) (byte : UInt8) : Bool :=
  (byte ∈ cls.chars || cls.ranges.any fun range =>
    range.1 ≤ signed byte && signed byte ≤ range.2) != cls.negate

end ByteClass

/-- A token of a pattern. -/
inductive Token
  | literal (byte : UInt8)
  | any
  | oneOf (cls : ByteClass)
  | star
  deriving DecidableEq, Repr

/-- What the reading of a pattern is in: nothing, behind a backslash, behind the bracket that opens
a class, in a class, behind a backslash in a class, behind a byte of a class that may start a range,
or behind the dash of a range. -/
inductive Mode
  | plain
  | escaped
  | opening
  | inside (cls : ByteClass)
  | quoted (cls : ByteClass)
  | pending (cls : ByteClass) (start : UInt8)
  | range (cls : ByteClass) (start : UInt8)
  deriving DecidableEq, Repr

/-- A byte of a class. -/
def insideStep (cls : ByteClass) (c : UInt8) : Mode × List Token :=
  if c = rightBracket then (.plain, [.oneOf cls])
  else if c = backslash then (.quoted cls, [])
  else (.pending cls c, [])

/-- A byte of a pattern. -/
def step : Mode → UInt8 → Mode × List Token
  | .plain, c =>
    if c = backslash then (.escaped, [])
    else if c = asterisk then (.plain, [.star])
    else if c = question then (.plain, [.any])
    else if c = leftBracket then (.opening, [])
    else (.plain, [.literal c])
  | .escaped, c => (.plain, [.literal c])
  | .opening, c => if c = caret then (.inside { negate := true }, []) else insideStep {} c
  | .inside cls, c => insideStep cls c
  | .quoted cls, c => (.inside (cls.add c), [])
  | .pending cls start, c =>
    if c = dash then (.range cls start, []) else insideStep (cls.add start) c
  | .range cls start, c => (.inside (cls.addRange start c), [])

/-- The tokens at the end of a pattern. -/
def finish : Mode → List Token
  | .plain => []
  | .escaped => [.literal backslash]
  | .opening => [.oneOf {}]
  | .inside cls => [.oneOf cls]
  | .quoted cls => [.oneOf (cls.add backslash)]
  | .pending cls start => [.oneOf (cls.add start)]
  | .range cls start => [.oneOf ((cls.add start).add dash)]

/-- The tokens of a pattern. -/
def tokens : Mode → List UInt8 → List Token
  | mode, [] => finish mode
  | mode, c :: rest => (step mode c).2 ++ tokens (step mode c).1 rest

/-- The byte is one that a token matches. -/
def Token.accepts : Token → UInt8 → Bool
  | .literal b, byte => byte = b
  | .any, _ => true
  | .oneOf cls, byte => cls.accepts byte
  | .star, _ => false

/-- The tokens match all of the bytes. -/
def Matches : List Token → List UInt8 → Bool
  | [], bytes => bytes.isEmpty
  | .star :: rest, bytes => bytes.tails.any (Matches rest)
  | token :: rest, bytes =>
    match bytes with
    | [] => false
    | byte :: bytes => token.accepts byte && Matches rest bytes

/-! ## Bytes that stand for themselves -/

variable {bytes : List UInt8}

/-- The tokens of bytes that stand for themselves. -/
theorem tokens_append (h : ∀ byte ∈ bytes, byte ∉ specials) (more : List UInt8) :
    tokens .plain (bytes ++ more) = bytes.map .literal ++ tokens .plain more := by
  induction bytes with
  | nil => rfl
  | cons byte bytes ih =>
    rw [forall_mem_cons] at h
    have hstep : step .plain byte = (.plain, [.literal byte]) := by
      have hbyte := h.1
      simp only [specials, mem_cons, not_mem_nil, or_false, not_or] at hbyte
      simp [step, hbyte]
    rw [cons_append, tokens, hstep, ih h.2]
    rfl

theorem tokens_escaped (byte : UInt8) (more : List UInt8) :
    tokens .plain (backslash :: byte :: more) = .literal byte :: tokens .plain more := rfl

attribute [local simp] Matches

theorem matches_cons_of_ne_star {token : Token} (h : token ≠ .star) (rest : List Token)
    (bytes : List UInt8) : Matches (token :: rest) bytes ↔
      ∃ byte more, bytes = byte :: more ∧ token.accepts byte ∧ Matches rest more := by
  cases bytes with
  | nil | cons byte more =>
    cases token with
    | star => exact absurd rfl h
    | literal b => simp
    | any => simp
    | oneOf cls => simp

theorem matches_star (rest : List Token) (bytes : List UInt8) :
    Matches (.star :: rest) bytes ↔ ∃ tail, tail <:+ bytes ∧ Matches rest tail := by
  simp [mem_tails]

/-- **What a pattern matches** that starts with bytes that stand for themselves. -/
theorem matches_literals_append (start : List UInt8) (rest : List Token) (bytes : List UInt8) :
    Matches (start.map .literal ++ rest) bytes ↔
      ∃ more, bytes = start ++ more ∧ Matches rest more := by
  induction start generalizing bytes with
  | nil => simp
  | cons byte start ih =>
    have hne : Token.literal byte ≠ .star := Token.noConfusion
    rw [map_cons, cons_append, matches_cons_of_ne_star hne]
    simp only [ih, Token.accepts, decide_eq_true_eq]
    constructor
    · rintro ⟨_, _, rfl, rfl, more, rfl, hmore⟩
      exact ⟨more, rfl, hmore⟩
    · rintro ⟨more, rfl, hmore⟩
      exact ⟨byte, _, rfl, rfl, more, rfl, hmore⟩

theorem matches_final_star (bytes : List UInt8) : Matches [.star] bytes := by
  rw [matches_star]
  exact ⟨[], nil_suffix, rfl⟩

/-- Bytes that stand for themselves and a final `*` match the bytes that start with them. -/
theorem matches_start_iff {start : List UInt8} (h : ∀ byte ∈ start, byte ∉ specials)
    (bytes : List UInt8) :
    Matches (tokens .plain (start ++ [asterisk])) bytes ↔ start <+: bytes := by
  rw [tokens_append h, matches_literals_append]
  constructor
  · rintro ⟨more, rfl, -⟩
    exact prefix_append start more
  · rintro ⟨more, rfl⟩
    exact ⟨more, rfl, matches_final_star more⟩

/-! ## Patterns without wildcards -/

/-- The bytes with a backslash taken away before each byte that it escapes. -/
def unescape : List UInt8 → List UInt8
  | c :: d :: rest => if c = backslash then d :: unescape rest else c :: unescape (d :: rest)
  | bytes => bytes

/-- A pattern without wildcards is read as the bytes it escapes. -/
theorem tokens_of_exact {pattern : List UInt8}
    (h : ∀ byte ∈ pattern, byte = backslash ∨ byte ∉ specials) :
    tokens .plain pattern = (unescape pattern).map .literal := by
  have hone {c : UInt8} (hc : c = backslash ∨ c ∉ specials) (hne : c ≠ backslash)
      (rest : List UInt8) : tokens .plain (c :: rest) = .literal c :: tokens .plain rest :=
    tokens_append (forall_mem_singleton.mpr (hc.resolve_left hne)) rest
  induction pattern using unescape.induct with
  | case1 d rest ih =>
    rw [tokens_escaped, ih fun byte hbyte => h byte (by simp [hbyte])]
    rfl
  | case2 c d rest hc ih =>
    rw [forall_mem_cons] at h
    rw [hone h.1 hc, ih h.2, unescape, if_neg hc]
    rfl
  | case3 bytes hshort =>
    match bytes with
    | [] => rfl
    | [c] =>
      by_cases hc : c = backslash
      · rw [hc]
        rfl
      · rw [hone (h c (by simp)) hc]
        rfl
    | c :: d :: rest => exact absurd rfl (hshort c d rest)

theorem matches_exact_iff {pattern : List UInt8}
    (h : ∀ byte ∈ pattern, byte = backslash ∨ byte ∉ specials) (bytes : List UInt8) :
    Matches (tokens .plain pattern) bytes ↔ bytes = unescape pattern := by
  have hall := matches_literals_append (unescape pattern) [] bytes
  rw [append_nil] at hall
  rw [tokens_of_exact h, hall]
  simp

theorem length_unescape_le (bytes : List UInt8) : (unescape bytes).length ≤ bytes.length := by
  induction bytes using unescape.induct with
  | case1 d rest ih =>
    rw [unescape, if_pos rfl, length_cons, length_cons, length_cons]
    omega
  | case2 c d rest hc ih =>
    rw [unescape, if_neg hc, length_cons]
    exact Nat.succ_le_succ ih
  | case3 bytes hshort =>
    rw [unescape]
    exact hshort

/-- A backslash stands for itself only at the end. -/
theorem unescape_eq_self_iff (bytes : List UInt8) :
    unescape bytes = bytes ↔ backslash ∉ bytes.dropLast := by
  induction bytes using unescape.induct with
  | case1 d rest ih =>
    have hlength := length_unescape_le rest
    have hne : unescape (backslash :: d :: rest) ≠ backslash :: d :: rest := by
      intro heq
      have hlengths := congrArg length heq
      rw [unescape, if_pos rfl, length_cons, length_cons, length_cons] at hlengths
      omega
    simp [hne]
  | case2 c d rest hc ih =>
    rw [unescape, if_neg hc, cons.injEq, ih]
    simp [Ne.symm hc]
  | case3 bytes hshort =>
    match bytes with
    | [] | [c] => simp [unescape]
    | c :: d :: rest => exact absurd rfl (hshort c d rest)

/-! ## How many bytes a pattern takes -/

/-- The number of the tokens that match one byte. -/
def size (list : List Token) : Nat := list.countP (· ≠ .star)

/-- What is left to read of a token that has been started. -/
def Mode.debt : Mode → Nat
  | .plain => 0
  | _ => 1

@[simp] theorem size_append (list more : List Token) : size (list ++ more) =
    size list + size more :=
  countP_append

theorem size_insideStep (cls : ByteClass) (c : UInt8) :
    size (insideStep cls c).2 + (insideStep cls c).1.debt = 1 := by
  unfold insideStep
  split
  · rfl
  split
  · rfl
  · rfl

/-- A byte completes or starts one token at most. -/
theorem size_step (mode : Mode) (c : UInt8) : size (step mode c).2 + (step mode c).1.debt ≤ 1 := by
  cases mode with
  | plain =>
    simp only [step]
    repeat' split
    all_goals first
      | exact Nat.le_of_eq rfl
      | exact Nat.zero_le 1
  | escaped | quoted cls | range cls start => exact Nat.le_of_eq rfl
  | opening | pending cls start =>
    simp only [step]
    split
    · exact Nat.le_of_eq rfl
    · exact Nat.le_of_eq (size_insideStep _ c)
  | inside cls => exact Nat.le_of_eq (size_insideStep cls c)

theorem size_finish (mode : Mode) : size (finish mode) = mode.debt := by
  cases mode with
  | plain | escaped | opening | inside cls | quoted cls | pending cls start | range cls start => rfl

/-- A pattern with a final `*` takes as many bytes as it has before it, at most, and a token that is
open takes one of them. -/
theorem size_tokens (mode : Mode) (bytes : List UInt8) :
    size (tokens mode (bytes ++ [asterisk])) ≤ max bytes.length mode.debt := by
  induction bytes generalizing mode with
  | nil =>
    by_cases hmode : mode = .plain
    · subst hmode
      exact Nat.le_refl _
    · have hdebt : mode.debt = 1 := by
        cases mode with
        | plain => exact absurd rfl hmode
        | _ => rfl
      rw [nil_append, tokens, tokens, size_append, size_finish, hdebt]
      exact size_step mode asterisk
  | cons c bytes ih =>
    have hstep := size_step mode c
    have hrest := ih (step mode c).1
    rw [cons_append, tokens, size_append, length_cons]
    omega

/-- What a pattern matches can be cut down to the bytes that it takes. -/
theorem exists_matches_of_size {list : List Token}
    (h : Matches list bytes) : ∃ least, Matches list least ∧ least.length = size list := by
  induction list generalizing bytes with
  | nil => exact ⟨[], rfl, rfl⟩
  | cons token list ih =>
    by_cases hstar : token = .star
    · subst hstar
      obtain ⟨tail, -, htail⟩ := (matches_star list bytes).mp h
      obtain ⟨least, hleast, hlength⟩ := ih htail
      refine ⟨least, (matches_star list least).mpr ⟨least, suffix_rfl, hleast⟩, ?_⟩
      rw [hlength]
      simp [size]
    · obtain ⟨byte, more, -, haccepts, hmore⟩ := (matches_cons_of_ne_star hstar list bytes).mp h
      obtain ⟨least, hleast, hlength⟩ := ih hmore
      refine ⟨byte :: least, ?_, ?_⟩
      · exact (matches_cons_of_ne_star hstar list _).mpr ⟨byte, least, rfl, haccepts, hleast⟩
      · rw [length_cons, hlength]
        simp [size, hstar]

/-! ## Patterns for a start -/

/-- The first byte that does not stand for itself. -/
theorem exists_first_special (h : ¬ ∀ byte ∈ bytes, byte ∉ specials) :
    ∃ before c more, bytes = before ++ c :: more ∧ (∀ byte ∈ before, byte ∉ specials) ∧
      c ∈ specials := by
  induction bytes with
  | nil => exact absurd nofun h
  | cons byte bytes ih =>
    by_cases hbyte : byte ∈ specials
    · exact ⟨[], byte, bytes, rfl, nofun, hbyte⟩
    · rw [forall_mem_cons, not_and] at h
      obtain ⟨before, c, more, rfl, hbefore, hc⟩ := ih (h hbyte)
      exact ⟨byte :: before, c, more, rfl, forall_mem_cons.mpr ⟨hbyte, hbefore⟩, hc⟩

/-- A pattern that starts with a byte with a meaning does not match the bytes that start as it is
written, and only those. -/
theorem not_matches_special {c : UInt8} (hc : c ∈ specials) (more : List UInt8) :
    ¬ ∀ bytes, Matches (tokens .plain (c :: (more ++ [asterisk]))) bytes ↔ c :: more <+: bytes := by
  intro h
  have hself := (h (c :: more)).mpr prefix_rfl
  have hsize : (c :: more).length ≤ size (tokens .plain (c :: (more ++ [asterisk]))) := by
    obtain ⟨least, hleast, hlength⟩ := exists_matches_of_size hself
    exact hlength ▸ ((h least).mp hleast).length_le
  rw [length_cons, tokens, size_append] at hsize
  have hrest := size_tokens (step .plain c).1 more
  simp only [specials, mem_cons, not_mem_nil, or_false] at hc
  rcases hc with rfl | rfl | rfl | rfl
  · -- a backslash takes the byte behind it
    have hstep : step .plain backslash = (.escaped, []) := rfl
    rw [hstep] at hsize hrest
    cases more with
    | nil => exact absurd hself (by decide)
    | cons d more =>
      simp only [Mode.debt, size, countP_nil, length_cons] at hsize hrest
      omega
  · have hstep : step .plain asterisk = (.plain, [.star]) := rfl
    rw [hstep] at hsize hrest
    have hstar : size [.star] = 0 := rfl
    simp only [Mode.debt, hstar] at hsize hrest
    omega
  · -- any other byte can stand in the place of the question mark
    have hany : tokens .plain (question :: (more ++ [asterisk])) =
      .any :: tokens .plain (more ++ [asterisk]) := rfl
    have hne : Token.any ≠ .star := Token.noConfusion
    rw [hany, matches_cons_of_ne_star hne] at hself
    obtain ⟨_, _, heq, -, hmore⟩ := hself
    obtain ⟨rfl, rfl⟩ := cons_eq_cons.mp heq
    have hother := (h (asterisk :: more)).mp
      (by rw [hany, matches_cons_of_ne_star hne]; exact ⟨_, _, rfl, rfl, hmore⟩)
    exact absurd (cons_prefix_cons.mp hother).1 (by decide)
  · have hstep : step .plain leftBracket = (.opening, []) := rfl
    rw [hstep] at hsize hrest
    cases more with
    | nil => exact absurd hself (by decide)
    | cons d more =>
      simp only [Mode.debt, size, countP_nil, length_cons] at hsize hrest
      omega

/-- **A pattern with a final `*` matches the bytes that start as it is written, and only those, if
and only if all bytes before it stand for themselves.** -/
theorem matches_all_iff (start : List UInt8) :
    (∀ bytes, Matches (tokens .plain (start ++ [asterisk])) bytes ↔ start <+: bytes) ↔
      ∀ byte ∈ start, byte ∉ specials := by
  refine ⟨fun h => ?_, fun h => matches_start_iff h⟩
  by_contra hspecial
  obtain ⟨before, c, more, rfl, hbefore, hc⟩ := exists_first_special hspecial
  refine not_matches_special hc more fun bytes => ?_
  have hall := h (before ++ bytes)
  rw [append_assoc, tokens_append hbefore, matches_literals_append, prefix_append_right_inj] at hall
  rw [← hall]
  constructor
  · intro hbytes
    exact ⟨bytes, rfl, hbytes⟩
  · rintro ⟨others, heq, hothers⟩
    rwa [append_cancel_left heq]

end Dbx.Glob
