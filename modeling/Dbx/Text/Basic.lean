import Mathlib.Algebra.GroupWithZero.Nat
import Mathlib.Data.List.DropRight
import Mathlib.Data.List.Infix
import Mathlib.Data.Option.Basic

/-!
# Texts

A text is a list of characters. The operations are those of Rust's `str` and `char` that the
development uses, under their names: character classes, letter case, trimming, prefix and suffix
removal, searching, and cutting at a separator.

## Main definitions

* `isWhitespace`, `isAsciiWhitespace`, `isControl`: the character classes
* `trimStart`, `trimEnd`, `trim`, `trimMatches`, `trimEndMatches`: trimming
* `stripPrefix`, `stripSuffix`, `splitOnce`, `splitOn`: removal of a prefix or a suffix, and cutting
  at a separator
* `lines`, `splitWhitespace`: the lines and the words of a text
* `utf8`, `fromUtf8`: the bytes of a text, and the text of bytes

## Main results

* `stripPrefix_eq_some`: what is left after a prefix
* `head_dropWhile_not`, `trimEndMatches_eq_concat`: a trimmed text neither starts nor ends with a
  trimmed character
* `splitOn_append`: the pieces of a text that goes on
* `trim_blank_append`, `trim_append_blank`: blanks around a text do not show in it trimmed
* `mem_utf8_iff`: the ASCII characters of a text and its bytes
-/

namespace Dbx

open List
open String (utf8EncodeChar)

abbrev Text := List Char

namespace Text

/-- A property of the members of a list is decided by going through the list. -/
instance (priority := 2000) decidableForallMem {α : Type} (p : α → Prop) [DecidablePred p]
    (list : List α) : Decidable (∀ a ∈ list, p a) := decidableBAll p list

/-- So is whether a text is among some. -/
instance (priority := 2000) decidableMem (text : Text) (list : List Text) :
    Decidable (text ∈ list) := instDecidableMemOfLawfulBEq text list

/-- The characters with the Unicode property `White_Space`. -/
def isWhitespace (c : Char) : Bool :=
  (0x09 ≤ c.toNat && c.toNat ≤ 0x0D) || c.toNat = 0x20 || c.toNat = 0x85 || c.toNat = 0xA0 ||
    c.toNat = 0x1680 || (0x2000 ≤ c.toNat && c.toNat ≤ 0x200A) || c.toNat = 0x2028 ||
    c.toNat = 0x2029 || c.toNat = 0x202F || c.toNat = 0x205F || c.toNat = 0x3000

/-- The characters that JavaScript takes for white space. -/
def isJsSpace (c : Char) : Bool := (isWhitespace c && c.toNat != 0x85) || c.toNat = 0xFEFF

/-- Space, tab, line feed, form feed and carriage return. -/
def isAsciiWhitespace (c : Char) : Bool :=
  c.toNat = 0x20 || c.toNat = 0x09 || c.toNat = 0x0A || c.toNat = 0x0C || c.toNat = 0x0D

/-- The characters of the general category `Cc`. -/
def isControl (c : Char) : Bool :=
  c.toNat < 0x20 || (0x7F ≤ c.toNat && c.toNat < 0xA0)

def isAsciiControl (c : Char) : Bool :=
  c.toNat < 0x20 || c.toNat = 0x7F

/-- Equality of texts up to the case of ASCII letters. -/
def eqIgnoreAsciiCase (s t : Text) : Bool :=
  s.map Char.toLower == t.map Char.toLower

/-- `to_ascii_lowercase`. -/
def toAsciiLowercase (s : Text) : Text := s.map Char.toLower

/-- `to_ascii_uppercase`. -/
def toAsciiUppercase (s : Text) : Text := s.map Char.toUpper

/-- The text contains `t`. -/
def containsText (s t : Text) : Bool := s.tails.any t.isPrefixOf

/-- The text with every `c` replaced by `t`. -/
def replaceChar (c : Char) (t s : Text) : Text := s.flatMap fun d => if d = c then t else [d]

def byteLen (s : Text) : Nat := (s.map Char.utf8Size).sum

/-- The parts of the text before and from a byte offset, where a character starts there. -/
def splitAtByte : Nat → Text → Option (Text × Text)
  | 0, s => some ([], s)
  | _ + 1, [] => none
  | n + 1, c :: s =>
    if c.utf8Size ≤ n + 1 then
      (splitAtByte (n + 1 - c.utf8Size) s).map fun parts => (c :: parts.1, parts.2)
    else none

def charAtByte (n : Nat) (s : Text) : Option Char :=
  (splitAtByte n s).bind fun parts => parts.2.head?

/-- `is_ascii_hexdigit`. -/
def isHexDigit (c : Char) : Bool :=
  c.isDigit || ('a' ≤ c && c ≤ 'f') || ('A' ≤ c && c ≤ 'F')

def trimStart (s : Text) : Text := s.dropWhile isWhitespace

/-- The text without its trailing characters that satisfy `p`. -/
def trimEndMatches (p : Char → Bool) (s : Text) : Text := s.rdropWhile p

def trimEnd (s : Text) : Text := trimEndMatches isWhitespace s

/-- The text without its surrounding white space. -/
def trim (s : Text) : Text := trimEnd (trimStart s)

/-- The text without its leading and trailing characters that satisfy `p`. -/
def trimMatches (p : Char → Bool) (s : Text) : Text := trimEndMatches p (s.dropWhile p)

/-- What is left of `s` after the prefix `p`. -/
def stripPrefix (p s : Text) : Option Text :=
  if p.isPrefixOf s then some (s.drop p.length) else none

/-- What is left of `s` before the suffix `p`. -/
def stripSuffix (p s : Text) : Option Text :=
  if p.isSuffixOf s then some (s.take (s.length - p.length)) else none

/-- The parts of `s` before and after the first `c`. -/
def splitOnce (c : Char) : Text → Option (Text × Text)
  | [] => none
  | d :: s =>
    if d = c then some ([], s) else (splitOnce c s).map fun parts => (d :: parts.1, parts.2)

/-- The pieces of `s` between the characters that satisfy `p`. -/
def splitOn (p : Char → Bool) : Text → List Text
  | [] => [[]]
  | c :: s =>
    if p c then [] :: splitOn p s
    else match splitOn p s with
      | [] => [[c]]
      | piece :: pieces => (c :: piece) :: pieces

/-- `str::lines`: without the line ends, and without a last empty line. A carriage return belongs to
the line end only before a line feed. -/
def lines (content : Text) : List Text :=
  let pieces := splitOn (· = '\n') content
  (pieces.dropLast.map fun line => (stripSuffix ['\r'] line).getD line) ++
    (pieces.getLast?.filter (· ≠ [])).toList

/-- `str::split_whitespace`. -/
def splitWhitespace (text : Text) : List Text := (splitOn isWhitespace text).filter (· ≠ [])

/-! ## Letter case -/

variable {c : Char}

theorem isAlpha_iff : c.isAlpha ↔
    (65 ≤ c.toNat ∧ c.toNat ≤ 90) ∨ (97 ≤ c.toNat ∧ c.toNat ≤ 122) := by
  change (decide (c.val ≥ 'A'.val ∧ c.val ≤ 'Z'.val) ||
    decide (c.val ≥ 'a'.val) && decide (c.val ≤ 'z'.val)) ↔ _
  rw [Bool.or_eq_true, Bool.and_eq_true, decide_eq_true_eq, decide_eq_true_eq, decide_eq_true_eq]
  exact Iff.rfl

theorem forall_ascii {P : Char → Prop} (h : ∀ n, n < 128 → P (Char.ofNat n))
    (hc : c.toNat < 128) : P c := by
  have hchar := h c.toNat hc
  rwa [Char.ofNat_toNat] at hchar

/-- Only ASCII letters have another case. -/
theorem toLower_of_not_ascii (h : 128 ≤ c.toNat) : c.toLower = c := by
  unfold Char.toLower
  split
  · next hupper =>
    have hz : c.toNat ≤ 90 := hupper.2
    omega
  · rfl

theorem forall_toLower {Q : Char → Char → Prop}
    (hascii : ∀ n, n < 128 → Q (Char.ofNat n) (Char.ofNat n).toLower)
    (hother : ∀ c : Char, 128 ≤ c.toNat → Q c c) (c : Char) : Q c c.toLower := by
  by_cases hc : c.toNat < 128
  · exact forall_ascii (P := fun c => Q c c.toLower) hascii hc
  · rw [toLower_of_not_ascii (by omega)]
    exact hother c (by omega)

/-! ## Cutting -/

variable {r s : Text}

theorem stripPrefix_eq_some {p s r : Text} : stripPrefix p s = some r ↔ s = p ++ r := by
  unfold stripPrefix
  split
  · next h =>
    obtain ⟨t, rfl⟩ := isPrefixOf_iff_prefix.mp h
    simp [eq_comm]
  · next h =>
    simp only [reduceCtorEq, false_iff]
    rintro rfl
    exact h (List.isPrefixOf_iff_prefix.mpr (prefix_append p r))

theorem stripPrefix_eq_none {p s : Text} : stripPrefix p s = none ↔ ¬ p <+: s := by
  simp [stripPrefix]

@[simp] theorem stripPrefix_append (p r : Text) : stripPrefix p (p ++ r) = some r :=
  stripPrefix_eq_some.mpr rfl

/-- The parts before and after the first `c`. -/
theorem splitOnce_eq_some {s before after : Text} :
    splitOnce c s = some (before, after) ↔ s = before ++ c :: after ∧ c ∉ before := by
  induction s generalizing before with
  | nil => simp [splitOnce]
  | cons d s ih =>
    rw [splitOnce]
    split
    · next heq =>
      subst heq
      cases before with
      | nil => simp [eq_comm]
      | cons e before => simp +contextual
    · next hne =>
      cases before with
      | nil => simp [hne]
      | cons e before =>
        have hparts : ∀ parts : Text × Text,
            (d :: parts.1, parts.2) = (e :: before, after) ↔ d = e ∧ parts = (before, after) := by
          rintro ⟨x, y⟩
          simp [and_assoc]
        simp only [Option.map_eq_some_iff, hparts, exists_eq_right_right, ih]
        simp only [cons_append, cons.injEq, mem_cons, not_or]
        constructor
        · rintro ⟨⟨rfl, hmem⟩, rfl⟩
          exact ⟨⟨rfl, rfl⟩, fun h => hne h.symm, hmem⟩
        · rintro ⟨⟨rfl, rfl⟩, -, hmem⟩
          exact ⟨⟨rfl, hmem⟩, rfl⟩

theorem splitOn_ne_nil (p : Char → Bool) (s : Text) : splitOn p s ≠ [] := by
  cases s with
  | nil => simp [splitOn]
  | cons c s =>
    simp only [splitOn]
    split
    · simp
    · split <;> simp

variable {p : Char → Bool}

/-- A trimmed text does not start with a trimmed character. -/
theorem head_dropWhile_not (h : s.dropWhile p = c :: r) : p c = false := by
  have hne : s.dropWhile p ≠ [] := by simp [h]
  simpa [h] using List.head_dropWhile_not p hne

/-- A text trimmed at its end does not end with a trimmed character. -/
theorem trimEndMatches_eq_concat (h : trimEndMatches p s = r ++ [c]) : p c = false := by
  unfold trimEndMatches rdropWhile at h
  rw [reverse_eq_iff, reverse_concat] at h
  exact head_dropWhile_not h

theorem trimEndMatches_subset (p : Char → Bool) (s : Text) : trimEndMatches p s ⊆ s := by
  intro c hc
  exact mem_reverse.mp ((dropWhile_sublist p).subset (mem_reverse.mp hc))

theorem trim_subset (s : Text) : trim s ⊆ s := fun _ hc =>
  (dropWhile_sublist isWhitespace).subset (trimEndMatches_subset isWhitespace _ hc)

theorem trimEndMatches_eq_self (h : p c = false) : trimEndMatches p (s ++ [c]) = s ++ [c] := by
  simp [trimEndMatches, h]

theorem splitOn_eq_singleton (h : ∀ c ∈ s, p c = false) : splitOn p s = [s] := by
  induction s with
  | nil => rfl
  | cons c s ih =>
    rw [splitOn, h c mem_cons_self, ih fun d hd => h d (mem_cons_of_mem _ hd)]
    rfl

theorem splitOn_append_cons (h : ∀ c ∈ s, p c = false) (hc : p c) (t : Text) :
    splitOn p (s ++ c :: t) = s :: splitOn p t := by
  induction s with
  | nil => simp [splitOn, hc]
  | cons d s ih =>
    rw [cons_append, splitOn, h d mem_cons_self, ih fun e he => h e (mem_cons_of_mem _ he)]
    rfl

/-- The pieces of a longer text: the last piece of the shorter one goes on. -/
theorem splitOn_append (p : Char → Bool) (s t : Text) :
    splitOn p (s ++ t) = (splitOn p s).dropLast ++ splitOn p ((splitOn p s).getLastD [] ++ t) := by
  induction s with
  | nil => simp [splitOn]
  | cons c s ih =>
    rw [cons_append, splitOn, splitOn]
    split
    · rw [ih, dropLast_cons_of_ne_nil (splitOn_ne_nil p s)]
      congr 3
      cases h : splitOn p s with
      | nil => exact absurd h (splitOn_ne_nil p s)
      | cons piece pieces => rfl
    · next hc =>
      cases h : splitOn p s with
      | nil => exact absurd h (splitOn_ne_nil p s)
      | cons piece pieces =>
        rw [ih, h]
        cases pieces with
        | nil => simp [splitOn, hc]
        | cons piece' pieces => simp

variable {w : Text}

theorem trimEnd_append_blank (s : Text) (h : ∀ c ∈ w, isWhitespace c) :
    trimEnd (s ++ w) = trimEnd s := by
  rw [trimEnd, trimEndMatches, rdropWhile, reverse_append, dropWhile_append_of_pos]
  · rfl
  · simpa using h

theorem trimEnd_append {s t : Text} (h : trimEnd t ≠ []) : trimEnd (s ++ t) = s ++ trimEnd t := by
  unfold trimEnd trimEndMatches rdropWhile at *
  rw [reverse_append, dropWhile_append, if_neg (by simpa using h), reverse_append, reverse_reverse]

/-- The text is blank when nothing is left of it. -/
theorem blank_of_trim_eq_nil (h : trim s = []) : ∀ c ∈ s, isWhitespace c := by
  have hblank : ∀ c ∈ trimStart s, isWhitespace c := by
    simpa [trim, trimEnd, trimEndMatches, rdropWhile_eq_nil_iff] using h
  cases hs : trimStart s with
  | nil => simpa [trimStart] using hs
  | cons c r =>
    have hc : isWhitespace c := hblank c (by simp [hs])
    simp [head_dropWhile_not hs] at hc

/-- Trimming takes blanks only. -/
theorem mem_trim (hc : c ∈ s) (h : isWhitespace c = false) : c ∈ trim s := by
  have hstart : c ∈ trimStart s := by
    rw [← takeWhile_append_dropWhile (p := isWhitespace) (l := s), mem_append] at hc
    refine hc.resolve_left fun htaken => ?_
    simp [mem_takeWhile_imp htaken] at h
  rw [← rdropWhile_append_rtakeWhile (p := isWhitespace) (l := trimStart s), mem_append] at hstart
  refine hstart.resolve_right fun htaken => ?_
  simp [mem_rtakeWhile_imp htaken] at h

theorem trim_of_blank (h : ∀ c ∈ s, isWhitespace c) : trim s = [] := by
  have hnil : trimStart s = [] := by simpa [trimStart] using h
  simp [trim, hnil, trimEnd, trimEndMatches]

/-- A text that neither starts nor ends with a blank is trimmed. -/
theorem trim_eq_self (hhead : ∀ c, s.head? = some c → isWhitespace c = false)
    (hlast : ∀ c, s.getLast? = some c → isWhitespace c = false) : trim s = s := by
  have hstart : trimStart s = s := by
    cases s with
    | nil => rfl
    | cons c s => exact dropWhile_cons_of_neg (by rw [hhead c rfl]; exact Bool.false_ne_true)
  rw [trim, hstart, trimEnd, trimEndMatches, rdropWhile_eq_self_iff]
  intro hne
  rw [hlast _ (getLast?_eq_some_getLast hne)]
  exact Bool.false_ne_true

/-- Trimming leaves a text without blanks as it is. -/
theorem trim_of_not_blank (h : ∀ c ∈ s, isWhitespace c = false) : trim s = s :=
  trim_eq_self (fun c hc => h c (mem_of_head? hc)) fun c hc => h c (mem_of_getLast? hc)

/-- Trimming at the end leaves the leading blanks. -/
theorem trimEnd_eq_append_trim (s : Text) :
    ∃ w, (∀ c ∈ w, isWhitespace c) ∧ trimEnd s = w ++ trim s := by
  by_cases h : trim s = []
  · refine ⟨[], by simp, ?_⟩
    rw [h, append_nil, trimEnd, trimEndMatches, rdropWhile_eq_nil_iff]
    exact blank_of_trim_eq_nil h
  · refine ⟨s.takeWhile isWhitespace, fun c hc => mem_takeWhile_imp hc, ?_⟩
    conv_lhs => rw [← takeWhile_append_dropWhile (p := isWhitespace) (l := s)]
    exact trimEnd_append h

/-- Leading blanks do not show in a trimmed text. -/
theorem trim_blank_append (h : ∀ c ∈ w, isWhitespace c) (s : Text) : trim (w ++ s) = trim s := by
  rw [trim, trim, trimStart, dropWhile_append_of_pos h, trimStart]

/-- Trailing blanks do not show in a trimmed text. -/
theorem trim_append_blank (s : Text) (h : ∀ c ∈ w, isWhitespace c) : trim (s ++ w) = trim s := by
  by_cases hs : trimStart s = []
  · have hblank : ∀ c ∈ s, isWhitespace c := by simpa [trimStart] using hs
    rw [trim_blank_append hblank, trim_of_blank h, trim_of_blank hblank]
  · rw [trim, trimStart, dropWhile_append, if_neg (by simpa [trimStart] using hs)]
    exact trimEnd_append_blank _ h

/-! ## UTF-8 -/

def utf8 (text : Text) : List UInt8 := text.flatMap utf8EncodeChar

@[simp] theorem utf8_nil : utf8 [] = [] := rfl

theorem utf8_cons (c : Char) (text : Text) : utf8 (c :: text) = utf8EncodeChar c ++ utf8 text :=
  flatMap_cons

@[simp] theorem utf8_append (text more : Text) : utf8 (text ++ more) = utf8 text ++ utf8 more :=
  flatMap_append

/-- An ASCII character is one byte. -/
theorem utf8EncodeChar_ascii (h : c.toNat < 128) :
    utf8EncodeChar c = [UInt8.ofNat c.toNat] := by
  have hle : c.val.toNat ≤ 127 := Nat.le_of_lt_succ h
  unfold utf8EncodeChar
  rw [if_pos hle]
  rfl

theorem toNat_ofNat_of_lt {n : Nat} (h : n < 256) : (UInt8.ofNat n).toNat = n := by
  exact Nat.mod_eq_of_lt h

/-- The bytes of every other character are not ASCII characters. -/
theorem le_of_mem_utf8EncodeChar (h : 128 ≤ c.toNat) {byte : UInt8}
    (hbyte : byte ∈ utf8EncodeChar c) : 128 ≤ byte.toNat := by
  have hgt : ¬ c.val.toNat ≤ 127 := Nat.not_le_of_lt h
  unfold utf8EncodeChar at hbyte
  rw [if_neg hgt] at hbyte
  split at hbyte
  · simp only [mem_cons, not_mem_nil, or_false] at hbyte
    rcases hbyte with rfl | rfl
    all_goals
      rw [toNat_ofNat_of_lt (by omega)]
      omega
  · split at hbyte
    · simp only [mem_cons, not_mem_nil, or_false] at hbyte
      rcases hbyte with rfl | rfl | rfl
      all_goals
        rw [toNat_ofNat_of_lt (by omega)]
        omega
    · simp only [mem_cons, not_mem_nil, or_false] at hbyte
      rcases hbyte with rfl | rfl | rfl | rfl
      all_goals
        rw [toNat_ofNat_of_lt (by omega)]
        omega

/-- A byte below 128 of a text is the code of one of its characters. -/
theorem mem_utf8_iff (h : c.toNat < 128) (text : Text) :
    UInt8.ofNat c.toNat ∈ utf8 text ↔ c ∈ text := by
  constructor
  · intro hmem
    obtain ⟨d, hd, hbyte⟩ := mem_flatMap.mp hmem
    by_cases hascii : d.toNat < 128
    · rw [utf8EncodeChar_ascii hascii, mem_singleton] at hbyte
      have hcode := congrArg UInt8.toNat hbyte
      rw [toNat_ofNat_of_lt (by omega), toNat_ofNat_of_lt (by omega)] at hcode
      rwa [Char.toNat_inj.mp hcode]
    · have hle := le_of_mem_utf8EncodeChar (Nat.le_of_not_lt hascii) hbyte
      rw [toNat_ofNat_of_lt (by omega)] at hle
      omega
  · intro hmem
    refine mem_flatMap.mpr ⟨c, hmem, ?_⟩
    rw [utf8EncodeChar_ascii h]
    exact mem_singleton_self _

/-- `str::from_utf8`. -/
def fromUtf8 (bytes : List UInt8) : Option Text := bytes.toByteArray.utf8Decode?.map Array.toList

theorem toByteArray_injective : Function.Injective (List.toByteArray : List UInt8 → ByteArray) := by
  intro bytes bytes' h
  simpa using congrArg (·.data.toList) h

/-- Bytes are read as the text that they are the bytes of. -/
theorem fromUtf8_eq_some_iff {bytes : List UInt8} {text : Text} :
    fromUtf8 bytes = some text ↔ utf8 text = bytes := by
  unfold fromUtf8
  constructor
  · intro h
    obtain ⟨chars, hchars, rfl⟩ := Option.map_eq_some_iff.mp h
    have hencode := @ByteArray.utf8Encode_get_utf8Decode? bytes.toByteArray (by rw [hchars]; rfl)
    simp only [hchars, Option.get_some] at hencode
    exact toByteArray_injective hencode
  · rintro rfl
    have hdecode : (utf8 text).toByteArray.utf8Decode? = some text.toArray := utf8Decode?_utf8Encode
    rw [hdecode]
    rfl

/-- Bytes below 128 are a text. -/
theorem utf8_map_ofNat {bytes : List UInt8} (h : ∀ byte ∈ bytes, byte.toNat < 128) :
    utf8 (bytes.map fun byte => Char.ofNat byte.toNat) = bytes := by
  induction bytes with
  | nil => rfl
  | cons byte bytes ih =>
    rw [forall_mem_cons] at h
    have hcode : (Char.ofNat byte.toNat).toNat = byte.toNat := by
      rw [Char.ofNat, dif_pos (.inl (by omega))]
      rfl
    rw [map_cons, utf8_cons, ih h.2, utf8EncodeChar_ascii (by omega), hcode, UInt8.ofNat_toNat]
    rfl

end Text

end Dbx
