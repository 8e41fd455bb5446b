import Dbx.Grid.Quoting

/-!
# Faithful grid literals

The literal of a grid cell is closed, and denotes the cell where it is quoted only, unless the cell
contains what the formatter does not expect: a lone `b'` in a bit column, a quote in an Oracle date,
or a backslash where the formatter and the lexer disagree about escapes.

## Main definitions

* `WrittenFaithfully`: the literal of a cell is closed and denotes the cell
* `Safe`: the cells without anything unexpected

## Main results

* `closed_bitLiteral`, `closed_convertedLiteral`: conversions give closed literals
* `writtenFaithfully_iff`: the cells that are written faithfully
-/

namespace Dbx.Grid

open Text Sql List
open Option (bind_eq_some_iff map_eq_some_iff)
open Bool (and_eq_true_iff and_eq_true)
open Char (isDigit)

variable {c : Char}

section Conversions

variable {unicode : Unicode} {profile : SqlDialectProfile} {text literal : Text}

theorem opensNothing_isDigit (h : c.isDigit) : opensNothing c :=
  opensNothing_of_class (by decide) h

theorem opensNothing_isHexDigit (h : isHexDigit c) : opensNothing c :=
  opensNothing_of_class (by decide) h

variable {escapes : Bool}

open Inside

theorem inside_of_class {p : Char → Bool} (hquote : p '\'' = false) (hbackslash : p '\\' = false)
    (h : ∀ c ∈ text, p c) : Inside unicode profile escapes text := by
  refine plain fun c hc => ?_
  have hp := h c hc
  constructor <;> rintro rfl <;> simp_all

theorem inside_hex (h : text.all isHexDigit) : Inside unicode profile escapes text :=
  inside_of_class (p := isHexDigit) rfl rfl (all_eq_true.mp h)

/-! ## Bits -/

/-- A bit-string literal. -/
theorem closed_bits (h : (text.all fun c => c = '0' || c = '1')) :
    Closed unicode profile .start ("b'".toList ++ text ++ "'".toList) := by
  have hbody : Inside unicode profile profile.supportsBackslashEscapedQuotes text :=
    inside_of_class (by decide) (by decide) (all_eq_true.mp h)
  exact (SelfContained.quoted [] 'b' (by simp) rfl rfl hbody).closed

theorem closed_digits {behind : Text} (h : text.all isDigit) :
    Closed unicode profile ⟨.code, behind⟩ text :=
  closed_of_opensNothing fun c hc => opensNothing_isDigit (all_eq_true.mp h c hc)

theorem closed_prefixedBits (h : prefixedBits text = some (some literal)) :
    Closed unicode profile .start literal := by
  unfold prefixedBits at h
  split at h
  · split at h
    · cases h
    · dsimp only at h
      split at h <;> cases h
      next hbits =>
        exact closed_bits (and_eq_true_iff.mp hbits).2
  · cases h

theorem closed_formatMysqlBitLiteralText (h : formatMysqlBitLiteralText text =
    some (some literal)) :
    Closed unicode profile .start literal := by
  unfold formatMysqlBitLiteralText at h
  dsimp only at h
  split at h
  · cases h
    exact closed_digits rfl
  split at h
  · cases h
    exact closed_digits rfl
  split at h
  · next hdigits =>
    split at h
    · next hbits =>
      cases h
      exact closed_bits (and_eq_true_iff.mp hbits).2
    · cases h
      exact closed_digits (and_eq_true_iff.mp hdigits).1
  · exact closed_prefixedBits h

theorem closed_formatKingbaseBitLiteralText
    (h : formatKingbaseBitLiteralText text = some (some literal)) :
    Closed unicode profile .start literal := by
  unfold formatKingbaseBitLiteralText at h
  dsimp only at h
  split at h
  · cases h
    have hone : "b'1'".toList = "b'".toList ++ ['1'] ++ "'".toList := by decide +kernel
    rw [hone]
    exact closed_bits rfl
  split at h
  · cases h
    have hzero : "b'0'".toList = "b'".toList ++ ['0'] ++ "'".toList := by decide +kernel
    rw [hzero]
    exact closed_bits rfl
  split at h
  · next hbits =>
    cases h
    exact closed_bits (and_eq_true_iff.mp hbits).2
  · exact closed_prefixedBits h

variable {columnInfo : Option DataGridColumnInfo} {db : Option DatabaseType}

/-- A bit literal is closed. -/
theorem closed_bitLiteral {identifierQuote : Option Text}
    (h : bitLiteral db columnInfo identifierQuote text = some (some literal)) :
    Closed unicode profile .start literal := by
  obtain ⟨kingbase, hkingbase, h⟩ := bind_eq_some_iff.mp h
  cases kingbase with
  | some bits =>
    cases h
    split at hkingbase
    · exact closed_formatKingbaseBitLiteralText hkingbase
    · cases hkingbase
  | none =>
    dsimp only at h
    split at h
    · exact closed_formatMysqlBitLiteralText h
    · cases h

/-! ## Binary literals -/

theorem closed_single {body : Text}
    (hbody : Inside unicode profile profile.supportsBackslashEscapedQuotes body) :
    Closed unicode profile .start ('\'' :: body ++ ['\'']) :=
  (closed_quoted rfl hbody (by simp)).mpr (closed_nil.mpr rfl)

theorem toNat_lt_of_isHexDigit (h : isHexDigit c) : c.toNat < 128 := by
  simp only [isHexDigit, isDigit, Bool.or_eq_true, and_eq_true, decide_eq_true_eq,
    Char.le_def, UInt32.le_iff_toNat_le, ge_iff_le] at h
  change (48 ≤ c.toNat ∧ c.toNat ≤ 57 ∨ 97 ≤ c.toNat ∧ c.toNat ≤ 102) ∨
    65 ≤ c.toNat ∧ c.toNat ≤ 70 at h
  omega

theorem isHexDigit_toLower (h : isHexDigit c) : isHexDigit c.toLower := by
  have hall : ∀ n, n < 128 → isHexDigit (Char.ofNat n) →
      isHexDigit (Char.ofNat n).toLower := by decide
  exact forall_ascii (P := fun c => isHexDigit c → isHexDigit c.toLower) hall
    (toNat_lt_of_isHexDigit h) h

theorem inside_uuid (h : ∀ c ∈ text, isHexDigit c ∨ c = '-') :
    Inside unicode profile escapes text := by
  refine inside_of_class (p := fun c => isHexDigit c || c = '-') (by decide) (by decide) ?_
  simpa using h

theorem mem_isUuidText (h : isUuidText text) (hc : c ∈ text) : isHexDigit c ∨ c = '-' := by
  obtain ⟨i, hi⟩ := mem_iff_getElem?.mp hc
  have hall := all_eq_true.mp h (c, i) (mem_zipIdx_iff_getElem?.mpr hi)
  dsimp only at hall
  split at hall
  · exact .inr (of_decide_eq_true hall)
  · exact .inl hall

theorem mem_groupUuid (hc : c ∈ groupUuid text) : c ∈ text ∨ c = '-' := by
  unfold groupUuid at hc
  simp only [mem_append, mem_cons, cons_append, append_assoc] at hc
  rcases hc with hc | rfl | hc | rfl | hc | rfl | hc | rfl | hc
  · exact .inl (mem_of_mem_take hc)
  · exact .inr rfl
  · exact .inl (mem_of_mem_drop (mem_of_mem_take hc))
  · exact .inr rfl
  · exact .inl (mem_of_mem_drop (mem_of_mem_take hc))
  · exact .inr rfl
  · exact .inl (mem_of_mem_drop (mem_of_mem_take hc))
  · exact .inr rfl
  · exact .inl (mem_of_mem_drop hc)

theorem closed_formatHexUuidLiteral (h : formatHexUuidLiteral text = some literal) :
    Closed unicode profile .start literal := by
  obtain ⟨hex, -, h⟩ := bind_eq_some_iff.mp h
  split at h
  · next huuid =>
    cases h
    simp only [and_eq_true] at huuid
    exact closed_single (inside_uuid fun c hc => mem_isUuidText huuid.2 hc)
  · split at h <;> cases h
    next hdigits =>
      rw [and_eq_true] at hdigits
      refine closed_single (inside_uuid fun c hc => ?_)
      refine (mem_groupUuid hc).imp_left fun hmem => ?_
      obtain ⟨d, hd, rfl⟩ := mem_map.mp hmem
      exact isHexDigit_toLower (all_eq_true.mp hdigits.2 d hd)

theorem closed_zeroX (h : text.all isHexDigit) :
    Closed unicode profile .start ("0x".toList ++ text) := by
  refine closed_of_opensNothing fun c hc => ?_
  rcases mem_append.mp hc with hc | hc
  · have hzeroX : ∀ c ∈ "0x".toList, opensNothing c := by decide
    exact hzeroX c hc
  · exact opensNothing_isHexDigit (all_eq_true.mp h c hc)

theorem closed_formatMysqlBinaryLiteralText (h : formatMysqlBinaryLiteralText text = some literal) :
    Closed unicode profile .start literal := by
  obtain ⟨hex, hprefix, h⟩ := bind_eq_some_iff.mp h
  split at h <;> cases h
  next hdigits =>
    split
    · exact (SelfContained.quoted [] 'X' (by simp) rfl rfl nil).closed
    · rw [stripPrefix_eq_some.mp hprefix]
      exact closed_zeroX hdigits

theorem closed_formatSqlserverBinaryLiteralText
    (h : formatSqlserverBinaryLiteralText text = some literal) :
    Closed unicode profile .start literal := by
  obtain ⟨hex, -, h⟩ := bind_eq_some_iff.mp h
  split at h <;> cases h
  next hdigits =>
    exact closed_zeroX (and_eq_true_iff.mp hdigits).2

/-- A call with two strings. -/
theorem closed_call {name mask : Text} (hname : ∀ c ∈ name, opensNothing c)
    (htext : Inside unicode profile profile.supportsBackslashEscapedQuotes text)
    (hmask : Inside unicode profile profile.supportsBackslashEscapedQuotes mask) :
    Closed unicode profile .start (name ++ '(' :: '\'' :: (text ++ ['\'']) ++
      (",".toList ++ ' ' :: '\'' :: (mask ++ ['\''])) ++ [')']) :=
  (((SelfContained.quoted _ '(' hname rfl rfl htext).append
    (SelfContained.quoted _ ' ' (by decide) rfl rfl hmask) (by simp) (by simp)).append
    (.word (by decide)) (by simp) (by simp)).closed

theorem closed_formatPostgresBinaryLiteralText
    (h : formatPostgresBinaryLiteralText text = some literal) :
    Closed unicode profile .start literal := by
  obtain ⟨hex, -, h⟩ := bind_eq_some_iff.mp h
  split at h <;> cases h
  next hdigits =>
    have hname : ∀ c ∈ "decode".toList, opensNothing c := by decide
    have hformat {escapes : Bool} : Inside unicode profile escapes "hex".toList :=
      plain (by decide)
    simpa using closed_call hname (inside_hex (and_eq_true_iff.mp hdigits).2) hformat

theorem closed_formatOracleRawLiteralText (h : formatOracleRawLiteralText text = some literal) :
    Closed unicode profile .start literal := by
  obtain ⟨hex, -, h⟩ := bind_eq_some_iff.mp h
  split at h <;> cases h
  next hdigits =>
    have hfirst : SelfContained unicode profile
        ("HEXTORAW".toList ++ '(' :: '\'' :: (hex ++ ['\''])) :=
      .quoted _ '(' (by decide) rfl rfl
        (inside_hex (and_eq_true_iff.mp hdigits).2)
    have hcall : Closed unicode profile .start _ :=
      (hfirst.append (t := [')']) (.word (by decide)) (by simp) (by simp)).closed
    simpa [doubleMarks] using hcall

/-! ## Numbers -/

theorem dropSign_spec (text : Text) :
    ∃ sign, (sign = [] ∨ sign = ['+'] ∨ sign = ['-']) ∧ text = sign ++ dropSign text := by
  unfold dropSign
  split
  · exact ⟨['+'], .inr (.inl rfl), rfl⟩
  · exact ⟨['-'], .inr (.inr rfl), rfl⟩
  · exact ⟨[], .inl rfl, rfl⟩

theorem closed_sign {behind rest sign : Text} (hsign : sign = [] ∨ sign = ['+'] ∨ sign = ['-'])
    (hrest : rest.head? ≠ some '-') :
    Closed unicode profile ⟨.code, behind⟩ (sign ++ rest) ↔
      Closed unicode profile ⟨.code, sign.reverse ++ behind⟩ rest := by
  rcases hsign with rfl | rfl | rfl
  · rfl
  · exact closed_char rfl
  · exact closed_dash hrest

theorem head?_ne_dash_of_digits (h : text.all isDigit) : text.head? ≠ some '-' := by
  cases text with
  | nil => simp
  | cons c text =>
    rintro ⟨⟩
    rw [all_cons, and_eq_true] at h
    exact absurd h.1 (by decide)

theorem closed_showI64 (value : Int) : Closed unicode profile .start (showI64 value) := by
  have hdigits : ∀ n, (Nat.toDigits 10 n).all isDigit := fun n =>
    all_eq_true.mpr fun c hc => Nat.isDigit_of_mem_toDigits (by omega) (by omega) hc
  cases value with
  | ofNat n => exact closed_digits (hdigits n)
  | negSucc n =>
    exact (closed_dash (head?_ne_dash_of_digits (hdigits _))).mpr (closed_digits (hdigits _))

/-- A decimal text is a sequence of digits and points, and an exponent. -/
theorem decimalParts_spec (text : Text) : ∃ mantissa, (∀ c ∈ mantissa, c.isDigit ∨ c = '.') ∧
      text = mantissa ++ (decimalParts text).exponent ∧
      (mantissa = [] → (decimalParts text).integer = [] ∧ (decimalParts text).fraction = []) := by
  have hdigits : ∀ t : Text, ∀ c ∈ t.takeWhile isDigit, c.isDigit ∨ c = '.' :=
    fun t c hc => .inl (mem_takeWhile_imp hc)
  unfold decimalParts
  dsimp only
  split
  · next rest hrest =>
    refine ⟨text.takeWhile isDigit ++ '.' :: rest.takeWhile isDigit, ?_, ?_, by simp⟩
    · intro c hc
      rw [mem_append, mem_cons] at hc
      rcases hc with hc | rfl | hc
      · exact hdigits text c hc
      · exact .inr rfl
      · exact hdigits rest c hc
    · rw [append_assoc, cons_append, takeWhile_append_dropWhile, ← hrest,
        takeWhile_append_dropWhile]
  · refine ⟨text.takeWhile isDigit, hdigits text, ?_, fun h => ⟨h, rfl⟩⟩
    rw [takeWhile_append_dropWhile]

/-- A numeric literal is closed: a dash in it comes first or behind the `e`, and a digit or a point
follows it. -/
theorem closed_numericLiteral (h : isNumericLiteral text) :
    Closed unicode profile .start text := by
  unfold isNumericLiteral at h
  rw [and_eq_true, and_eq_true] at h
  obtain ⟨⟨hsome, hexponent⟩, -⟩ := h
  obtain ⟨sign, hsign, htext⟩ := dropSign_spec text
  obtain ⟨mantissa, hmantissa, hbody, hempty⟩ := decimalParts_spec (dropSign text)
  have hword : ∀ c ∈ mantissa, opensNothing c := by
    intro c hc
    rcases hmantissa c hc with hdigit | rfl
    · exact opensNothing_isDigit hdigit
    · rfl
  have hne : mantissa ≠ [] := by
    intro hnil
    rw [(hempty hnil).1, (hempty hnil).2] at hsome
    exact Bool.false_ne_true hsome
  have hhead : (dropSign text).head? ≠ some '-' := by
    rw [hbody, head?_append_of_ne_nil _ hne]
    intro hdash
    exact absurd (hword '-' (mem_of_mem_head? hdash)) (by decide)
  -- the sign, the mantissa and the exponent, in this order
  rw [htext]
  unfold LexState.start
  rw [closed_sign hsign hhead, hbody, closed_word hword]
  generalize (decimalParts (dropSign text)).exponent = exponent at hexponent
  cases exponent with
  | nil => exact closed_nil.mpr rfl
  | cons c rest =>
    rw [isExponent, and_eq_true, and_eq_true, Bool.or_eq_true, decide_eq_true_eq,
      decide_eq_true_eq] at hexponent
    obtain ⟨⟨hletter, -⟩, hdigits⟩ := hexponent
    have hopens : opensNothing c := by
      rcases hletter with rfl | rfl <;> rfl
    obtain ⟨sign', hsign', hrest⟩ := dropSign_spec rest
    rw [closed_char hopens, hrest, closed_sign hsign' (head?_ne_dash_of_digits hdigits)]
    exact closed_digits hdigits

/-! ## Conversions -/

theorem convertWhen_eq_some {applies : Bool} {convert : Text → Option Text}
    (h : convertWhen applies convert text = some literal) :
    applies ∧ convert text = some literal := by
  unfold convertWhen at h
  split at h
  · next happlies => exact ⟨happlies, h⟩
  · cases h

/-- A literal converted before the check for an empty text is closed. -/
theorem closed_convertedLiteral (h : convertedLiteral db columnInfo text = some literal) :
    Closed unicode profile .start literal := by
  simp only [convertedLiteral, Option.orElse_eq_orElse, Option.orElse_eq_or,
    Option.or_eq_some_iff] at h
  rcases h with h | ⟨-, h | ⟨-, h | ⟨-, h | ⟨-, h | ⟨-, h | ⟨-, h | ⟨-, h⟩⟩⟩⟩⟩⟩⟩
  · obtain ⟨value, -, rfl⟩ := map_eq_some_iff.mp (convertWhen_eq_some h).2
    exact closed_showI64 value
  · exact closed_formatHexUuidLiteral (convertWhen_eq_some h).2
  · exact closed_formatMysqlBinaryLiteralText (convertWhen_eq_some h).2
  · exact closed_formatSqlserverBinaryLiteralText (convertWhen_eq_some h).2
  · exact closed_formatPostgresBinaryLiteralText (convertWhen_eq_some h).2
  · exact closed_formatOracleRawLiteralText (convertWhen_eq_some h).2
  · obtain ⟨hnumeric, hliteral⟩ := convertWhen_eq_some h
    cases hliteral
    exact closed_numericLiteral (and_eq_true_iff.mp hnumeric).2
  · obtain ⟨b, -, rfl⟩ := map_eq_some_iff.mp (convertWhen_eq_some h).2
    unfold formatManticoreBool
    refine closed_of_opensNothing ?_
    split <;> cases b <;> decide

/-! ## Oracle temporal literals -/

theorem inside_noQuote (h : '\'' ∉ text) : Inside unicode profile false text := by
  have hchars : text.flatMap (fun c => [c]) = text := by simp
  rw [← hchars]
  exact Inside.flatMap fun c hc => char (fun heq => h (heq ▸ hc)) fun _ => rfl

theorem closed_oracleConversion (hescapes : profile.supportsBackslashEscapedQuotes = false)
    {name mask : Text} (hname : ∀ c ∈ name, opensNothing c) (htext : '\'' ∉ text)
    (hmask : '\'' ∉ mask) :
    Closed unicode profile .start (oracleConversion name text mask) := by
  simpa [oracleConversion] using
    closed_call hname (hescapes ▸ inside_noQuote htext) (hescapes ▸ inside_noQuote hmask)

def NoQuotes (parts : Rfc3339Parts) : Prop :=
  '\'' ∉ parts.date ∧ '\'' ∉ parts.time ∧ '\'' ∉ parts.fraction.getD [] ∧ '\'' ∉ parts.zone

theorem splitAtByte_eq_some {n : Nat} {before after : Text}
    (h : splitAtByte n text = some (before, after)) : text = before ++ after := by
  induction text generalizing n before with
  | nil =>
    cases n with
    | zero =>
      cases h
      rfl
    | succ n => cases h
  | cons c text ih =>
    cases n with
    | zero =>
      cases h
      rfl
    | succ n =>
      rw [splitAtByte] at h
      split at h
      · obtain ⟨parts, hparts, heq⟩ := map_eq_some_iff.mp h
        cases heq
        rw [cons_append, ← ih hparts]
      · cases h

theorem splitDateTime_noQuote {date time rest : Text} (hquote : '\'' ∉ text)
    (h : splitDateTime text = some (date, time, rest)) :
    '\'' ∉ date ∧ '\'' ∉ time ∧ '\'' ∉ rest := by
  unfold splitDateTime at h
  split at h
  · cases h
  split at h
  · cases h
  split at h
  · cases h
  obtain ⟨⟨_, after⟩, hdate, h⟩ := bind_eq_some_iff.mp h
  obtain ⟨⟨_, _⟩, htime, h⟩ := bind_eq_some_iff.mp h
  cases h
  rw [splitAtByte_eq_some hdate, mem_append, not_or] at hquote
  have hafter : '\'' ∉ after.drop 1 := fun hmem => hquote.2 (mem_of_mem_drop hmem)
  rw [splitAtByte_eq_some htime, mem_append, not_or] at hafter
  exact ⟨hquote.1, hafter⟩

variable {parts : Rfc3339Parts}

theorem regexLikeRfc3339_noQuotes (hquote : '\'' ∉ text)
    (h : regexLikeRfc3339 text = some parts) : NoQuotes parts := by
  unfold regexLikeRfc3339 at h
  split at h
  · cases h
  obtain ⟨⟨date, time, rest⟩, hsplit, h⟩ := bind_eq_some_iff.mp h
  obtain ⟨hdate, htime, hrest⟩ := splitDateTime_noQuote hquote hsplit
  obtain ⟨⟨fraction, zone⟩, hfraction, h⟩ := bind_eq_some_iff.mp h
  have hparts : '\'' ∉ fraction.getD [] ∧ '\'' ∉ zone := by
    unfold splitFraction at hfraction
    split at hfraction
    · next rest' =>
      rw [mem_cons, not_or] at hrest
      dsimp only at hfraction
      split at hfraction <;> cases hfraction
      refine ⟨?_, fun hmem => hrest.2 ((dropWhile_suffix _).mem hmem)⟩
      rw [Option.getD_some, mem_cons, not_or]
      exact ⟨hrest.1, fun hmem => hrest.2 ((takeWhile_sublist _).mem hmem)⟩
    · cases hfraction
      exact ⟨by simp, hrest⟩
  dsimp only at h
  split at h <;> cases h
  exact ⟨hdate, htime, hparts⟩

theorem regexLikeLocalDatetime_noQuotes (hquote : '\'' ∉ text)
    (h : regexLikeLocalDatetime text = some parts) : NoQuotes parts := by
  unfold regexLikeLocalDatetime at h
  split at h
  · cases h
    have hmidnight : '\'' ∉ "00:00:00".toList := by decide
    exact ⟨hquote, hmidnight, by simp, by simp⟩
  split at h
  · cases h
  obtain ⟨⟨date, time, rest⟩, hsplit, h⟩ := bind_eq_some_iff.mp h
  obtain ⟨hdate, htime, hrest⟩ := splitDateTime_noQuote hquote hsplit
  dsimp only at h
  split at h
  · split at h <;> cases h
    exact ⟨hdate, htime, hrest, by simp⟩
  · cases h
    exact ⟨hdate, htime, by simp, by simp⟩
  · cases h

theorem normalizedZone_noQuote {zone normalized : Text} (hquote : '\'' ∉ zone)
    (h : normalizedZone zone = some normalized) : '\'' ∉ normalized := by
  unfold normalizedZone at h
  split at h
  · cases h
    exact hquote
  split at h
  · split at h <;> cases h
    simp only [mem_cons, not_or] at hquote ⊢
    exact ⟨hquote.1, by decide, hquote.2.1, by decide, hquote.2.2.2⟩
  · cases h

/-- The parts of an Oracle temporal text without a quote have none. -/
theorem regexLikeOracleTemporal_noQuotes (hquote : '\'' ∉ text)
    (h : regexLikeOracleTemporal text = some parts) : NoQuotes parts := by
  unfold regexLikeOracleTemporal at h
  split at h
  · next hrfc =>
    cases h
    exact regexLikeRfc3339_noQuotes hquote hrfc
  split at h
  · next datetime zone hzone =>
    obtain ⟨⟨before, after⟩, hsplit, hnormalized⟩ := bind_eq_some_iff.mp hzone
    obtain ⟨normalized, hnormalized, heq⟩ := map_eq_some_iff.mp hnormalized
    cases heq
    obtain ⟨reversed, hreversed, heq⟩ := map_eq_some_iff.mp hsplit
    cases heq
    have hboth : '\'' ∉ reversed.1 ∧ '\'' ∉ reversed.2 := by
      rw [← mem_reverse, (splitOnce_eq_some.mp hreversed).1] at hquote
      simp only [mem_append, mem_cons, not_or] at hquote
      exact ⟨hquote.1, hquote.2.2⟩
    obtain ⟨local_, hlocal, rfl⟩ := map_eq_some_iff.mp h
    obtain ⟨hdate, htime, hfraction, -⟩ :=
      regexLikeLocalDatetime_noQuotes (by simpa using hboth.2) hlocal
    exact ⟨hdate, htime, hfraction, normalizedZone_noQuote (by simpa using hboth.1) hnormalized⟩
  · exact regexLikeLocalDatetime_noQuotes hquote h

/-- An Oracle temporal literal of parts without quotes is closed. -/
theorem closed_oracleTemporalLiteral (hescapes : profile.supportsBackslashEscapedQuotes = false)
    {kind : OracleTemporalKind} (h : NoQuotes parts) :
    Closed unicode profile .start (oracleTemporalLiteral kind parts) := by
  obtain ⟨hdate, htime, hfraction, hzone⟩ := h
  have hseconds : '\'' ∉ parts.date ++ ' ' :: parts.time := by
    simp [hdate, htime]
  have hdatetime : '\'' ∉ parts.date ++ ' ' :: parts.time ++ parts.fraction.getD [] := by
    rw [mem_append, not_or]
    exact ⟨hseconds, hfraction⟩
  have hmask : ∀ hasFraction, '\'' ∉ oracleTimestampFormatMask hasFraction := by
    decide
  -- a date, a timestamp, and a timestamp with a time zone
  unfold oracleTemporalLiteral
  split
  · split
    · have hliteral : SelfContained unicode profile ("DATE".toList ++ ' ' :: '\'' ::
          (parts.date ++ ['\''])) :=
        .quoted _ ' ' (by decide) rfl rfl (hescapes ▸ inside_noQuote hdate)
      have hclosed : Closed unicode profile .start _ := hliteral.closed
      simpa using hclosed
    · exact closed_oracleConversion hescapes (by decide) hseconds (by decide)
  · exact closed_oracleConversion hescapes (by decide) hdatetime (hmask _)
  · split
    · exact closed_oracleConversion hescapes (by decide) hdatetime (hmask _)
    · refine closed_oracleConversion hescapes (by decide) ?_ ?_
      · have hsuffix : '\'' ∉ oracleTimezoneSuffix parts.zone := by
          unfold oracleTimezoneSuffix
          split
          · decide
          · exact hzone
        rw [mem_append, mem_cons, not_or, not_or]
        exact ⟨hdatetime, by decide, hsuffix⟩
      · rw [mem_append, not_or]
        exact ⟨hmask _, by decide⟩

end Conversions

/-! ## Cells -/

section Cells

variable (unicode : Unicode) (context : LiteralContext) (databaseType : DatabaseType)
  (columnInfo : Option DataGridColumnInfo) (identifierQuote : Option Text) (text : Text)

/-- A bit literal is tried for the column. -/
def isBitTyped : Bool :=
  columnTypeIs columnInfo isBitColumnType &&
    (databaseType = .kingbase || isMysqlDatetimeLiteralDatabase (some databaseType))

/-- The cell is quoted as it is: no conversion applies to it. -/
def Unconverted : Prop :=
  bitLiteral (some databaseType) columnInfo identifierQuote text = some none ∧
    convertedLiteral (some databaseType) columnInfo text = none ∧
    (text = [] ∨ wrappedLiteral (some databaseType) columnInfo text = none ∧
      literalText context (some databaseType) columnInfo text = text)

open SqlDialectProfile

/-- The formatter returns a literal, the literal is closed, and where it is a single string for a
text that is not converted, it denotes the text. The literal of an SQL Server text with a line break
is a sum of several strings. -/
def WrittenFaithfully : Prop :=
  ∃ literal, formatGridSqlLiteral context (some databaseType) columnInfo identifierQuote text =
      some literal ∧
    Closed unicode (forDatabaseType databaseType) LexState.start literal ∧
    (Unconverted context databaseType columnInfo identifierQuote text →
      (databaseType = .sqlServer → '\r' ∉ text ∧ '\n' ∉ text) →
      stringValue databaseType literal = some text)

/-- The text of the cell is written as an Oracle temporal literal. -/
def isOracleTemporal : Bool :=
  isOracleTemporalLiteralDatabase (some databaseType) &&
    (formatOracleTemporalLiteral text (columnInfo.map (·.dataType))).isSome

/-- The cell has nothing that the formatter does not expect: it is no lone `b'` in a bit column,
it has no quote where it is an Oracle date, and it has no backslash where it is quoted for a
database type that reads backslashes in another way. -/
structure Safe : Prop where
  bits : isBitTyped databaseType columnInfo = true → toAsciiLowercase (trim text) ≠ ['b', '\'']
  temporal : isOracleTemporal databaseType columnInfo text = true → '\'' ∉ text
  backslashes : databaseType ∈ mismatchedTypes →
    bitLiteral (some databaseType) columnInfo identifierQuote text = some none →
    convertedLiteral (some databaseType) columnInfo text = none →
    wrappedLiteral (some databaseType) columnInfo text = none →
    '\\' ∉ literalText context (some databaseType) columnInfo text

variable {unicode context databaseType columnInfo identifierQuote text} {db : DatabaseType}

/-! ### Bit columns -/

theorem eq_quote_of_toLower (h : c.toLower = '\'') : c = '\'' := by
  exact forall_toLower (Q := fun c d => d = '\'' → c = '\'') (by decide) (fun _ _ h => h) c h

variable {trimmed : Text}

theorem eq_of_lower (h : toAsciiLowercase trimmed = ['b', '\'']) : ∃ c, trimmed = [c, '\''] := by
  obtain ⟨c, d, rfl⟩ : ∃ c d, trimmed = [c, d] := by
    have hlength : trimmed.length = 2 := by
      rw [← length_map Char.toLower, ← toAsciiLowercase, h]
      rfl
    exact length_eq_two.mp hlength
  have hd : d.toLower = '\'' := by simpa [toAsciiLowercase] using (cons.inj h).2
  exact ⟨c, by rw [eq_quote_of_toLower hd]⟩

/-- The slice of the bits panics for a lone `b'` only. -/
theorem prefixedBits_eq_none :
    prefixedBits trimmed = none ↔ toAsciiLowercase trimmed = ['b', '\''] := by
  unfold prefixedBits
  constructor
  · intro h
    split at h
    · next hbits =>
      split at h
      · next hlength =>
        rw [and_eq_true] at hbits
        obtain ⟨rest, hrest⟩ := isPrefixOf_iff_prefix.mp hbits.1
        have hlower : (toAsciiLowercase trimmed).length = trimmed.length := length_map _
        rw [← hrest] at hlower ⊢
        have hnil : rest = [] := by
          rw [length_append] at hlower
          have htwo : "b'".toList.length = 2 := by decide
          exact eq_nil_of_length_eq_zero (by omega)
        rw [hnil]
        decide
      · dsimp only at h
        split at h <;> cases h
    · cases h
  · intro h
    obtain ⟨c, rfl⟩ := eq_of_lower h
    rw [h]
    rfl

theorem not_lower_of_word {trimmed word : Text} (h : eqIgnoreAsciiCase trimmed word)
    (hword : toAsciiLowercase word ≠ ['b', '\'']) : toAsciiLowercase trimmed ≠ ['b', '\''] := by
  have hlower : toAsciiLowercase trimmed = toAsciiLowercase word := eq_of_beq h
  rwa [hlower]

theorem not_lower_of_all {p : Char → Bool} (h : trimmed.all p)
    (hquote : p '\'' = false) : toAsciiLowercase trimmed ≠ ['b', '\''] := by
  intro hlower
  obtain ⟨c, rfl⟩ := eq_of_lower hlower
  rw [all_cons, all_cons, hquote, Bool.false_and, Bool.and_false] at h
  exact Bool.false_ne_true h

theorem formatMysqlBitLiteralText_eq_none :
    formatMysqlBitLiteralText text = none ↔ toAsciiLowercase (trim text) = ['b', '\''] := by
  unfold formatMysqlBitLiteralText
  dsimp only
  split
  · next h => simpa using not_lower_of_word h (by decide)
  split
  · next h => simpa using not_lower_of_word h (by decide)
  split
  · next h =>
    have hne := not_lower_of_all (and_eq_true_iff.mp h).1 rfl
    split <;> simpa using hne
  · exact prefixedBits_eq_none

theorem formatKingbaseBitLiteralText_eq_none :
    formatKingbaseBitLiteralText text = none ↔ toAsciiLowercase (trim text) = ['b', '\''] := by
  unfold formatKingbaseBitLiteralText
  dsimp only
  split
  · next h => simpa using not_lower_of_word h (by decide)
  split
  · next h => simpa using not_lower_of_word h (by decide)
  split
  · next h => simpa using not_lower_of_all (and_eq_true_iff.mp h).2 (by decide)
  · exact prefixedBits_eq_none

/-- The formatter panics for a lone `b'` in a bit column. -/
theorem bitLiteral_eq_none : bitLiteral (some db) columnInfo identifierQuote text = none ↔
      isBitTyped db columnInfo ∧ toAsciiLowercase (trim text) = ['b', '\''] := by
  unfold bitLiteral isBitTyped
  dsimp only
  cases columnTypeIs columnInfo isBitColumnType with
  | false => simp
  | true =>
    by_cases hkingbase : db = .kingbase
    · subst hkingbase
      rw [Option.bind_eq_none_iff, ← formatKingbaseBitLiteralText_eq_none]
      simp only [decide_true, Bool.true_or, Bool.and_true, true_and]
      constructor
      · intro h
        by_contra hsome
        obtain ⟨bit, hbit⟩ := Option.ne_none_iff_exists'.mp hsome
        have hnone := h bit hbit
        cases bit with
        | some literal => cases hnone
        | none =>
          -- the MySQL reading panics for the text for which the Kingbase reading panics
          dsimp only at hnone
          split at hnone
          · rw [formatMysqlBitLiteralText_eq_none, ← formatKingbaseBitLiteralText_eq_none] at hnone
            exact hsome hnone
          · cases hnone
      · intro h bit hbit
        rw [h] at hbit
        cases hbit
    · rw [if_neg (by simpa using hkingbase)]
      simp only [Option.some.injEq, hkingbase, decide_false, Bool.false_and, Bool.or_false,
        Bool.and_true, Bool.false_or, Bool.true_and]
      split
      · next h => simpa [h] using formatMysqlBitLiteralText_eq_none
      · next h => simp [h]

/-! ### Calls -/

theorem readsEscapes_of_mysqlDatetime (h : isMysqlDatetimeLiteralDatabase (some db)) :
    (forDatabaseType db).supportsBackslashEscapedQuotes := by
  revert h
  cases db <;> decide

theorem not_readsEscapes_of_oracleTemporal (h : isOracleTemporalLiteralDatabase (some db)) :
    (forDatabaseType db).supportsBackslashEscapedQuotes = false := by
  revert h
  cases db <;> decide

/-- A call of a geometry function, or an Oracle temporal literal of a text without a quote, is
closed. -/
theorem closed_wrappedLiteral {literal : Text}
    (hquote : isOracleTemporal db columnInfo text → '\'' ∉ text)
    (h : wrappedLiteral (some db) columnInfo text = some literal) :
    Closed unicode (forDatabaseType db) .start literal := by
  simp only [wrappedLiteral, Option.orElse_eq_orElse, Option.orElse_eq_or,
    Option.or_eq_some_iff] at h
  rcases h with h | ⟨-, h⟩
  · -- a geometry, whose text is written with all marks doubled
    obtain ⟨happlies, hliteral⟩ := convertWhen_eq_some h
    cases hliteral
    have hescapes := readsEscapes_of_mysqlDatetime (and_eq_true_iff.mp happlies).1
    have hbody : Inside unicode (forDatabaseType db) true (doubleMarks text) := by
      have hspelt : ∀ c, Spells unicode (forDatabaseType db) true .plain
          (doubleMarks [c]) c := spells_doubled
      have hinside := Inside.flatMap fun c (_ : c ∈ text) => (hspelt c).inside
      rwa [← charwise_doubled] at hinside
    have hcall : Closed unicode (forDatabaseType db) .start _ :=
      ((SelfContained.quoted "ST_GeomFromText".toList '(' (by decide) rfl rfl
        (hescapes ▸ hbody)).append (t := [')']) (.word (by decide)) (by simp)
          (by simp)).closed
    simpa [doubleMarks] using hcall
  · obtain ⟨happlies, hliteral⟩ := convertWhen_eq_some h
    have hnoQuote : '\'' ∉ text := by
      refine hquote ?_
      rw [isOracleTemporal, happlies, hliteral]
      rfl
    obtain ⟨kind, -, hliteral⟩ := bind_eq_some_iff.mp hliteral
    obtain ⟨parts, hparts, hliteral⟩ := bind_eq_some_iff.mp hliteral
    cases hliteral
    exact closed_oracleTemporalLiteral (not_readsEscapes_of_oracleTemporal happlies)
      (regexLikeOracleTemporal_noQuotes hnoQuote hparts)

/-! ### Faithful literals -/

theorem literalText_mismatched (hmem : db ∈ mismatchedTypes) (hserver : db ≠ .sqlServer) :
    literalText context (some db) columnInfo text = text := by
  have hother : db ≠ .tdengine ∧ isMysqlDatetimeLiteralDatabase (some db) = false := by
    revert hmem
    cases db <;> decide
  simp [literalText, hother.1, hother.2, hserver]

theorem formatText_eq_quoteLiteral (hne : text ≠ [])
    (hconverted : convertedLiteral (some db) columnInfo text = none)
    (hwrapped : wrappedLiteral (some db) columnInfo text = none) :
    formatText context (some db) columnInfo text = quoteLiteral (some db)
        (literalText context (some db) columnInfo text) := by
  rw [formatText, hconverted]
  rw [if_neg (by simpa using hne), hwrapped]

theorem quoteLiteral_nil :
    quoteLiteral (some db) [] =
      if some db = some .sqlServer then "N''".toList else "''".toList := by
  have hescape : escapeText (some db) [] = [] := charwise_escapeText _ []
  unfold quoteLiteral
  rw [if_neg (by simp), hescape]
  rfl

/-- A cell with nothing unexpected is written faithfully. -/
theorem writtenFaithfully_of_safe (h : Safe context db columnInfo identifierQuote text) :
    WrittenFaithfully unicode context db columnInfo identifierQuote text := by
  obtain ⟨bit, hbit⟩ : ∃ bit, bitLiteral (some db) columnInfo identifierQuote text = some bit := by
    refine Option.ne_none_iff_exists'.mp fun hnone => ?_
    obtain ⟨htyped, hlower⟩ := bitLiteral_eq_none.mp hnone
    exact h.bits htyped hlower
  refine ⟨_, by rw [formatGridSqlLiteral, hbit, Option.map_some], ?_⟩
  cases bit with
  | some literal =>
    refine ⟨closed_bitLiteral hbit, fun hunconverted => ?_⟩
    have hnone := hunconverted.1
    rw [hbit] at hnone
    cases hnone
  | none =>
    -- the conversions are tried in the order of the source, and the text is quoted if none applies
    cases hconverted : convertedLiteral (some db) columnInfo text with
    | some literal =>
      rw [formatText, hconverted]
      refine ⟨closed_convertedLiteral hconverted, fun hunconverted => ?_⟩
      have hnone := hunconverted.2.1
      rw [hconverted] at hnone
      cases hnone
    | none =>
      by_cases hempty : text = []
      · subst hempty
        have hformat : formatText context (some db) columnInfo [] = quoteLiteral (some db) [] := by
          rw [formatText, hconverted, quoteLiteral_nil]
          rfl
        rw [hformat]
        have hquoted : Quoted unicode db [] (quoteLiteral (some db) []) :=
          quoted_quoteLiteral fun _ => by simp
        exact ⟨hquoted.closed, fun _ => hquoted.denotes⟩
      cases hwrapped : wrappedLiteral (some db) columnInfo text with
      | some literal =>
        have hformat : formatText context (some db) columnInfo text = literal := by
          rw [formatText, hconverted]
          rw [if_neg (by simpa using hempty), hwrapped]
        rw [hformat]
        refine ⟨closed_wrappedLiteral h.temporal hwrapped, fun hunconverted => ?_⟩
        have hnone := (hunconverted.2.2.resolve_left hempty).1
        rw [hwrapped] at hnone
        cases hnone
      | none =>
        rw [formatText_eq_quoteLiteral hempty hconverted hwrapped]
        have hquoted : Quoted unicode db (literalText context (some db) columnInfo text)
            (quoteLiteral (some db)
              (literalText context (some db) columnInfo text)) :=
          quoted_quoteLiteral fun hmem => h.backslashes hmem hbit hconverted hwrapped
        refine ⟨hquoted.closed, fun hunconverted => ?_⟩
        have hsame := (hunconverted.2.2.resolve_left hempty).2
        rw [hsame] at hquoted ⊢
        exact hquoted.denotes

/-- A cell that is written faithfully has nothing unexpected, unless it is an Oracle temporal text
or its SQL Server literal is converted or a sum of strings: such literals may be closed by
chance. -/
theorem safe_of_writtenFaithfully (htemporal : isOracleTemporal db columnInfo text = false)
    (hserver : db = .sqlServer → ('\r' ∉ text ∧ '\n' ∉ text) ∧
      literalText context (some db) columnInfo text = text)
    (h : WrittenFaithfully unicode context db columnInfo identifierQuote text) :
    Safe context db columnInfo identifierQuote text := by
  obtain ⟨literal, hformat, -, hdenotes⟩ := h
  refine ⟨fun htyped hlower => ?_, fun hcontra => ?_, ?_⟩
  · rw [formatGridSqlLiteral, bitLiteral_eq_none.mpr ⟨htyped, hlower⟩] at hformat
    cases hformat
  · rw [htemporal] at hcontra
    cases hcontra
  · intro hmem hbit hconverted hwrapped
    have hsame : literalText context (some db) columnInfo text = text := by
      by_cases heq : db = .sqlServer
      · exact (hserver heq).2
      · exact literalText_mismatched hmem heq
    rw [hsame]
    intro hbackslash
    have hne : text ≠ [] := ne_nil_of_mem hbackslash
    rw [formatGridSqlLiteral, hbit, Option.map_some,
      formatText_eq_quoteLiteral hne hconverted hwrapped, hsame, Option.some.injEq] at hformat
    have hvalue := hdenotes ⟨hbit, hconverted, .inr ⟨hwrapped, hsame⟩⟩ fun heq => (hserver heq).1
    rw [← hformat] at hvalue
    exact stringValue_mismatched hmem hbackslash (fun heq => (hserver heq).1) hvalue

/-- **Which cells are written faithfully.** Those with nothing unexpected are; and outside of Oracle
temporal columns and of SQL Server texts with conversions or line breaks no others are. -/
theorem writtenFaithfully_iff (unicode : Unicode) (context : LiteralContext)
    (databaseType : DatabaseType) (columnInfo : Option DataGridColumnInfo)
    (identifierQuote : Option Text) (text : Text) :
    (Safe context databaseType columnInfo identifierQuote text →
      WrittenFaithfully unicode context databaseType columnInfo identifierQuote text) ∧
    (isOracleTemporal databaseType columnInfo text = false →
      (databaseType = .sqlServer → ('\r' ∉ text ∧ '\n' ∉ text) ∧
        literalText context (some databaseType) columnInfo text = text) →
      (WrittenFaithfully unicode context databaseType columnInfo identifierQuote text ↔
        Safe context databaseType columnInfo identifierQuote text)) :=
  ⟨writtenFaithfully_of_safe, fun htemporal hserver =>
    ⟨safe_of_writtenFaithfully htemporal hserver, writtenFaithfully_of_safe⟩⟩

end Cells

/-! ## Three cells -/

/-- A machine in the time zone of Greenwich, without the normalization of SQL Server texts. -/
def plainContext : LiteralContext where
  localTimezoneOffsetSuffix _ := "+00:00".toList
  normalizeSqlserverTemporalLiteral _ _ := none

def typedColumn (dataType : String) : Option DataGridColumnInfo :=
  some ⟨['c'], dataType.toList, true, none⟩

theorem writtenFaithfully_duckDb :
    WrittenFaithfully Unicode.ascii plainContext .duckDb (typedColumn "varchar") none
      "it's".toList := by
  refine (writtenFaithfully_iff _ _ _ _ _ _).1 ⟨?_, ?_, fun _ _ _ _ => ?_⟩
  · exact fun htyped => absurd htyped (by decide +kernel)
  · exact fun htemporal => absurd htemporal (by decide +kernel)
  · decide +kernel

/-- A path in a DuckDB column gets twice its backslashes, a date of an Oracle column ends its string
and comments out the rest of the statement, and a lone `b'` in a MySQL bit column panics. -/
theorem cells_not_writtenFaithfully :
    ¬ WrittenFaithfully Unicode.ascii plainContext .duckDb (typedColumn "varchar") none
        "C:\\tmp".toList ∧
      ¬ WrittenFaithfully Unicode.ascii plainContext .oracle (typedColumn "date") none
        "'--x-00-00T00:00:00Z".toList ∧
      ¬ WrittenFaithfully Unicode.ascii plainContext .mysql (typedColumn "bit(8)") none
        "b'".toList := by
  refine ⟨?_, ?_, ?_⟩
  · rintro ⟨literal, hformat, -, hdenotes⟩
    have hliteral : formatGridSqlLiteral plainContext (some .duckDb) (typedColumn "varchar") none
        "C:\\tmp".toList = some "'C:\\\\tmp'".toList := by decide +kernel
    rw [hliteral] at hformat
    cases hformat
    have hvalue := hdenotes ⟨by decide +kernel, by decide +kernel, .inr (by decide +kernel)⟩ nofun
    exact absurd hvalue (by decide +kernel)
  · rintro ⟨literal, hformat, hclosed, -⟩
    have hliteral : formatGridSqlLiteral plainContext (some .oracle) (typedColumn "date") none
        "'--x-00-00T00:00:00Z".toList = some "DATE ''--x-00-00'".toList := by decide +kernel
    rw [hliteral] at hformat
    cases hformat
    exact absurd hclosed (by decide +kernel)
  · rintro ⟨literal, hformat, -⟩
    have hpanic : formatGridSqlLiteral plainContext (some .mysql) (typedColumn "bit(8)") none
        "b'".toList = none := by decide +kernel
    rw [hpanic] at hformat
    cases hformat

end Dbx.Grid
