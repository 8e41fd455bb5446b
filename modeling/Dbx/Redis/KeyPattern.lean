import Dbx.Encoding.Base64
import Dbx.Redis.Subtree

/-!
# Matching keys in the desktop

The desktop matches keys against patterns by itself, with a matcher that reads a key once and, where
a token fails, goes back to the last `*` and lets it take one byte more. Going back to earlier stars
is never needed: whatever they could take, the last one can take as well.

## Main definitions

* `parseRedisGlobClass`, `redisGlobTokens`: the tokens of a pattern
* `matchLoop`, `createRedisKeyPatternMatcher`: the matcher
* `redisBytesToDisplay`, `redisKeyInfo`: the shown and the raw form of a key

## Main results

* `matches_redisGlobTokens`: the tokens mean what the pattern does
* `matchLoop_eq_true_iff`: what the loop decides, from any point of it
* `createRedisKeyPatternMatcher_eq`: the matcher accepts what the pattern matches
* `keyBytes_redisKeyInfo`: a loaded row is matched by the key of the server that it shows
* `keptRows_eq`: the browser and the server agree on what is left of a group
-/

namespace Dbx.Redis

open Text Glob List

/-! ## Tokens -/

/-- The loop of `parseRedisGlobClass`: the class, and what follows it. -/
def parseRedisGlobClass (cls : ByteClass) : List UInt8 → ByteClass × List UInt8
  | [] => (cls, [])
  | value :: rest =>
    if value = rightBracket then (cls, rest)
    else match rest with
      | [] => (cls.add value, [])
      | second :: rest =>
        if value = backslash then parseRedisGlobClass (cls.add second) rest
        else match rest with
          | [] => parseRedisGlobClass (cls.add value) [second]
          | third :: rest =>
            if second = dash then parseRedisGlobClass (cls.addRange value third) rest
            else parseRedisGlobClass (cls.add value) (second :: third :: rest)

/-- `parseRedisGlobClass`, behind the bracket. -/
def parseClass : List UInt8 → ByteClass × List UInt8
  | 94 :: rest => parseRedisGlobClass { negate := true } rest
  | rest => parseRedisGlobClass {} rest

theorem length_parseRedisGlobClass (cls : ByteClass) (bytes : List UInt8) :
    (parseRedisGlobClass cls bytes).2.length ≤ bytes.length := by
  fun_induction parseRedisGlobClass cls bytes <;> simp_all <;> omega

variable (list : List Token) (bytes : List UInt8)

theorem length_parseClass : (parseClass bytes).2.length ≤ bytes.length := by
  unfold parseClass
  split
  · exact (length_parseRedisGlobClass _ _).trans (Nat.le_succ _)
  · exact length_parseRedisGlobClass _ _

/-- `redisGlobTokens`, behind tokens of which the last one is a star or is not. -/
def redisGlobTokens (star : Bool) : List UInt8 → List Token
  | [] => []
  | value :: rest =>
    if value = backslash && !rest.isEmpty then
      .literal (rest.headD 0) :: redisGlobTokens false rest.tail
    else if value = asterisk then
      if star then redisGlobTokens true rest else .star :: redisGlobTokens true rest
    else if value = question then .any :: redisGlobTokens false rest
    else if value = leftBracket then
      .oneOf (parseClass rest).1 :: redisGlobTokens false (parseClass rest).2
    else .literal value :: redisGlobTokens false rest
termination_by bytes => bytes.length
decreasing_by
  all_goals simp only [length_cons, length_tail, Nat.lt_succ_iff]
  all_goals first | exact length_parseClass rest | omega

theorem tokens_inside_cons {value : UInt8} (hvalue : value ≠ rightBracket)
    (hslash : value ≠ backslash) (cls : ByteClass) (rest : List UInt8) :
    tokens (.inside cls) (value :: rest) = tokens (.pending cls value) rest := by
  simp [tokens, step, insideStep, hvalue, hslash]

theorem tokens_pending_cons {second : UInt8} (hdash : second ≠ dash) (cls : ByteClass)
    (value : UInt8) (rest : List UInt8) :
    tokens (.pending cls value) (second :: rest) =
      tokens (.inside (cls.add value)) (second :: rest) := by
  simp [tokens, step, hdash]

/-- The rest of a class and what follows it. -/
theorem tokens_inside (cls : ByteClass) (bytes : List UInt8) :
    tokens (.inside cls) bytes = .oneOf (parseRedisGlobClass cls bytes).1 ::
      tokens .plain (parseRedisGlobClass cls bytes).2 := by
  fun_induction parseRedisGlobClass cls bytes with
  | case1 cls | case2 cls rest => rfl
  | case3 cls value hvalue =>
    by_cases hslash : value = backslash
    · rw [hslash]
      rfl
    · exact tokens_inside_cons hvalue hslash cls []
  | case4 cls second rest hvalue ih => exact ih
  | case5 cls value hvalue second hslash ih =>
    rw [← ih, tokens_inside_cons hvalue hslash]
    by_cases hdash : second = dash
    · -- a dash at the end of the pattern makes no range
      rw [hdash]
      rfl
    · exact tokens_pending_cons hdash cls value []
  | case6 cls value hvalue hslash third rest ih =>
    rw [← ih, tokens_inside_cons hvalue hslash]
    rfl
  | case7 cls value hvalue second hslash third rest hdash ih =>
    rw [← ih, tokens_inside_cons hvalue hslash, tokens_pending_cons hdash]

theorem tokens_opening :
    tokens .opening bytes = .oneOf (parseClass bytes).1 :: tokens .plain (parseClass bytes).2 := by
  unfold parseClass
  split
  · exact tokens_inside _ _
  · next hcaret =>
    rw [← tokens_inside]
    cases bytes with
    | nil => rfl
    | cons c rest =>
      have hc : c ≠ caret := fun h => hcaret rest (h ▸ rfl)
      simp [tokens, step, hc]

theorem matches_cons_congr {list list' : List Token} (h : Matches list = Matches list')
    (token : Token) : Matches (token :: list) = Matches (token :: list') := by
  funext bytes
  cases token <;> simp [Matches, h]

theorem matches_star_star : Matches (.star :: .star :: list) = Matches (.star :: list) := by
  funext bytes
  rw [Bool.eq_iff_iff, matches_star, matches_star]
  constructor
  · rintro ⟨tail, htail, hmatch⟩
    obtain ⟨last, hlast, hmatch⟩ := (matches_star list tail).mp hmatch
    exact ⟨last, hlast.trans htail, hmatch⟩
  · rintro ⟨tail, htail, hmatch⟩
    exact ⟨bytes, suffix_refl bytes, (matches_star list bytes).mpr ⟨tail, htail, hmatch⟩⟩

/-- A star that was read before. -/
def starBefore (star : Bool) (list : List Token) : List Token :=
  if star then .star :: list else list

theorem matches_starBefore_congr {list list' : List Token} (h : Matches list = Matches list')
    (star : Bool) : Matches (starBefore star list) = Matches (starBefore star list') := by
  cases star with
  | false => exact h
  | true => exact matches_cons_congr h .star

/-- **The tokens mean what the pattern does**, also behind a star. -/
theorem matches_redisGlobTokens (star : Bool) (pattern : List UInt8) :
    Matches (starBefore star (redisGlobTokens star pattern)) =
      Matches (starBefore star (tokens .plain pattern)) := by
  fun_induction redisGlobTokens star pattern with
  | case1 star => rfl
  | case2 star value rest hslash ih =>
    obtain ⟨hvalue, hrest⟩ := Bool.and_eq_true_iff.mp hslash
    -- an escaped byte is a literal in both
    obtain rfl : value = backslash := by simpa using hvalue
    cases rest with
    | nil => cases hrest
    | cons byte rest => exact matches_starBefore_congr (matches_cons_congr ih _) star
  | case3 rest hslash ih => exact ih.trans (matches_star_star _).symm
  | case4 star rest hstar hslash ih =>
    rw [Bool.not_eq_true] at hstar
    subst hstar
    exact ih
  | case5 star rest hslash hstar ih => exact matches_starBefore_congr (matches_cons_congr ih _) star
  | case6 star rest hslash hstar hany ih =>
    have hclass : tokens .plain (leftBracket :: rest) = _ := tokens_opening rest
    rw [hclass]
    exact matches_starBefore_congr (matches_cons_congr ih _) star
  | case7 star value rest hslash hstar hany hclass ih =>
    -- a backslash at the end of the pattern stands for itself
    have htokens : tokens .plain (value :: rest) = .literal value :: tokens .plain rest := by
      by_cases hvalue : value = backslash
      · obtain rfl : rest = [] := by simpa [hvalue] using hslash
        rw [hvalue]
        rfl
      · exact @tokens_append [value] (by simp [specials, hvalue, hstar, hany, hclass]) rest
    rw [htokens]
    exact matches_starBefore_congr (matches_cons_congr ih _) star

/-! ## The loop -/

/-- The loop of the matcher, by the tokens and the bytes that are left, and those behind the last
star. -/
def matchLoop (list : List Token) (bytes : List UInt8) (star : Option (List Token × List UInt8)) :
    Bool :=
  match bytes with
  | [] => (list.dropWhile (· = .star)).isEmpty
  | byte :: more =>
    if list.head?.any (·.accepts byte) then matchLoop list.tail more star
    else if list.head? = some .star then
      matchLoop list.tail (byte :: more) (some (list.tail, byte :: more))
    else match star with
      | some (starList, starBytes) =>
        matchLoop starList starBytes.tail (some (starList, starBytes.tail))
      | none => false
termination_by ((star.elim (bytes.length + 1) fun kept => max kept.2.length bytes.length),
  list.length)
decreasing_by
  · cases list <;> cases star <;> simp_all [Prod.lex_def]
    omega
  · cases list <;> cases star <;> simp_all [Prod.lex_def]
    omega
  · simp [Prod.lex_def]
    omega

/-- Tokens other than stars take one byte each. -/
theorem exists_of_matches_append {read list : List Token} (hread : .star ∉ read)
    {bytes : List UInt8} (h : Matches (read ++ list) bytes) :
    ∃ taken rest, bytes = taken ++ rest ∧ taken.length = read.length ∧
      Matches list rest := by
  induction read generalizing bytes with
  | nil => exact ⟨[], bytes, rfl, rfl, h⟩
  | cons token read ih =>
    rw [mem_cons, not_or] at hread
    obtain ⟨byte, more, rfl, -, hmore⟩ :=
      (matches_cons_of_ne_star (Ne.symm hread.1) _ _).mp h
    obtain ⟨taken, rest, rfl, hlength, hrest⟩ := ih hread.2 hmore
    exact ⟨byte :: taken, rest, rfl, congrArg (· + 1) hlength, hrest⟩

/-- Since the last star as many tokens were read as bytes, and none of them was a star. -/
def Since (list : List Token) (bytes : List UInt8) (kept : List Token × List UInt8) : Prop :=
  ∃ read taken, kept = (read ++ list, taken ++ bytes) ∧ read.length = taken.length ∧ .star ∉ read

/-- What the tokens behind the last star match, they match with a rest of what is left. -/
theorem Since.exists_rest {list : List Token} {bytes : List UInt8} {kept : List Token × List UInt8}
    (h : Since list bytes kept) {tail : List UInt8} (htail : tail <:+ kept.2)
    (hmatch : Matches kept.1 tail) :
    ∃ rest, rest <:+ bytes ∧ Matches list rest := by
  obtain ⟨read, taken, rfl, hlength, hread⟩ := h
  obtain ⟨first, rest, rfl, hfirst, hrest⟩ := exists_of_matches_append hread hmatch
  have hle := htail.length_le
  simp only [length_append] at hle
  exact ⟨rest, suffix_of_suffix_length_le ((suffix_append first rest).trans htail)
    (suffix_append taken bytes) (by omega), hrest⟩

theorem exists_suffix_iff {P : List UInt8 → Prop} :
    (∃ tail, tail <:+ bytes ∧ P tail) ↔ P bytes ∨ ∃ tail, tail <:+ bytes.tail ∧ P tail := by
  cases bytes with
  | nil => simp
  | cons byte bytes => simp [suffix_cons_iff, or_and_right, exists_or]

theorem matches_nil_iff : Matches list [] ↔ (list.dropWhile (· = .star)).isEmpty := by
  induction list with
  | nil => simp [Matches]
  | cons token list ih =>
    by_cases hstar : token = .star
    · subst hstar
      simp [matches_star, ih]
    · simp [matches_cons_of_ne_star hstar, hstar]

theorem not_matches_of_head {list : List Token} {byte : UInt8} {more : List UInt8}
    (haccepts : ¬ list.head?.any (·.accepts byte)) (hstar : ¬ list.head? = some .star) :
    ¬ Matches list (byte :: more) := by
  cases list with
  | nil => simp [Matches]
  | cons token list =>
    have hne : token ≠ .star := fun h => hstar (h ▸ rfl)
    simp only [head?_cons, Option.any_some] at haccepts
    simp [matches_cons_of_ne_star hne, haccepts]

/-- **What the loop decides**: whether the tokens match the bytes, or those behind the last star a
shorter rest of the bytes there. -/
theorem matchLoop_eq_true_iff
    (star : Option (List Token × List UInt8)) (h : ∀ kept ∈ star, Since list bytes kept) :
    matchLoop list bytes star ↔ Matches list bytes ∨
      ∃ kept ∈ star, ∃ tail, tail <:+ kept.2.tail ∧ Matches kept.1 tail := by
  fun_induction matchLoop list bytes star with
  | case1 list star =>
    rw [← matches_nil_iff]
    refine ⟨.inl, fun hor => hor.elim id ?_⟩
    rintro ⟨kept, hkept, tail, htail, hmatch⟩
    obtain ⟨rest, hrest, hmatch⟩ :=
      (h kept hkept).exists_rest (htail.trans (tail_suffix _)) hmatch
    rwa [List.suffix_nil.mp hrest] at hmatch
  | case2 list star byte more haccepts ih =>
    cases list with
    | nil => cases haccepts
    | cons token rest =>
      have hne : token ≠ .star := by
        rintro rfl
        cases haccepts
      rw [ih, matches_cons_of_ne_star hne]
      · simp_all
      · intro kept hkept
        obtain ⟨read, taken, rfl, hlength, hread⟩ := h kept hkept
        refine ⟨read ++ [token], taken ++ [byte], by simp, by simp [hlength], ?_⟩
        simp [hread, Ne.symm hne]
  | case3 list star byte more haccepts hstar ih =>
    obtain ⟨rest, rfl⟩ := List.head?_eq_some_iff.mp hstar
    -- the earlier star has nothing to offer that this one has not
    have hkept : (∃ kept ∈ star, ∃ tail, tail <:+ kept.2.tail ∧ Matches kept.1 tail) →
        Matches (.star :: rest) (byte :: more) := by
      rintro ⟨kept, hkept, tail, htail, hmatch⟩
      obtain ⟨tail, htail, hmatch⟩ :=
        (h kept hkept).exists_rest (htail.trans (tail_suffix _)) hmatch
      obtain ⟨last, hlast, hmatch⟩ := (matches_star rest tail).mp hmatch
      exact (matches_star rest _).mpr ⟨last, hlast.trans htail, hmatch⟩
    rw [ih, or_iff_left_of_imp hkept, matches_star, exists_suffix_iff]
    · simp
    · rintro _ ⟨⟩
      exact ⟨[], [], rfl, rfl, not_mem_nil⟩
  | case4 list byte more haccepts hstar starList starBytes ih =>
    rw [ih, or_iff_right (not_matches_of_head haccepts hstar)]
    · have hsplit := exists_suffix_iff (P := (Matches starList ·)) starBytes.tail
      simpa using hsplit.symm
    · rintro _ ⟨⟩
      exact ⟨[], [], rfl, rfl, not_mem_nil⟩
  | case5 list byte more haccepts hstar =>
    simp [not_matches_of_head haccepts hstar]

/-- The loop with the tokens of a pattern decides whether the pattern matches. -/
theorem matchLoop_redisGlobTokens (pattern : Text) :
    matchLoop (redisGlobTokens false (utf8 pattern)) bytes none = MatchesPattern pattern bytes := by
  have htokens : Matches (redisGlobTokens false (utf8 pattern)) bytes = _ :=
    congrFun (matches_redisGlobTokens false (utf8 pattern)) bytes
  rw [Bool.eq_iff_iff, matchLoop_eq_true_iff _ _ _ (by simp), htokens]
  simp [MatchesPattern, starBefore]

/-- The bytes that a key is matched by: those of the raw key where its shown form has escapes. -/
def keyBytes (atob : Text → Option (List UInt8)) (value : Text) (keyRaw : Option Text) :
    Option (List UInt8) :=
  match keyRaw.filter (· ≠ []) with
  | some raw => if '\\' ∈ value then atob raw else some (utf8 value)
  | none => some (utf8 value)

theorem keyBytes_some (atob : Text → Option (List UInt8)) (value raw : Text) :
    keyBytes atob value (some raw) =
      if raw ≠ [] ∧ '\\' ∈ value then atob raw else some (utf8 value) := by
  cases raw <;> simp [keyBytes, Option.filter]

/-- `createRedisKeyPatternMatcher`. -/
def createRedisKeyPatternMatcher (atob : Text → Option (List UInt8)) (pattern value : Text)
    (keyRaw : Option Text) : Bool :=
  match keyBytes atob value keyRaw with
  | none => false
  | some bytes => matchLoop (redisGlobTokens false (utf8 pattern)) bytes none

/-- **The matcher accepts a key exactly if the pattern matches its bytes.** -/
theorem createRedisKeyPatternMatcher_eq (atob : Text → Option (List UInt8)) (pattern value : Text)
    (keyRaw : Option Text) :
    createRedisKeyPatternMatcher atob pattern value keyRaw =
      (keyBytes atob value keyRaw).any (MatchesPattern pattern) := by
  unfold createRedisKeyPatternMatcher
  cases keyBytes atob value keyRaw with
  | none => rfl
  | some bytes => exact matchLoop_redisGlobTokens bytes pattern

/-! ## The rows of the browser -/

/-- `text.replace('\\', "\\\\")`, for one character. -/
def escapeChar (c : Char) : Text := if c = '\\' then ['\\', '\\'] else [c]

/-- A byte of a key that is no text. -/
def escapeByte (byte : UInt8) : Text :=
  if byte = backslash then ['\\', '\\']
  else if 0x20 ≤ byte.toNat ∧ byte.toNat ≤ 0x7e then [Char.ofNat byte.toNat]
  else ['\\', 'x', Nat.digitChar (byte.toNat / 16), Nat.digitChar (byte.toNat % 16)]

/-- `redis_bytes_to_display`. -/
def redisBytesToDisplay (bytes : List UInt8) : Text :=
  match fromUtf8 bytes with
  | some text => text.flatMap escapeChar
  | none => bytes.flatMap escapeByte

/-- The fields of a `RedisKeyInfo` that the matcher reads. -/
structure KeyRow where
  keyDisplay : Text
  keyRaw : Text
  deriving DecidableEq, Repr

/- `STANDARD.encode` of the driver, and `atob` of the desktop. -/
variable (base64 : Base64.Codec UInt8)

/-- The row of a key of the server; the raw form is `redis_key_bytes_to_raw`. -/
def redisKeyInfo (key : Key) : KeyRow := ⟨redisBytesToDisplay key, base64.encode key⟩

theorem flatMap_escapeChar {text : Text} (h : '\\' ∉ text.flatMap escapeChar) :
    text.flatMap escapeChar = text := by
  have hescape : ∀ c ∈ text, escapeChar c = [c] := by
    intro c hc
    refine if_neg ?_
    rintro rfl
    exact h (mem_flatMap.mpr ⟨_, hc, mem_cons_self⟩)
  rw [flatMap_congr hescape]
  exact flatMap_singleton' text

theorem lt_of_not_mem_escapeByte {byte : UInt8} (h : '\\' ∉ escapeByte byte) :
    byte.toNat < 128 := by
  unfold escapeByte at h
  split at h
  · exact absurd mem_cons_self h
  · split at h
    · omega
    · exact absurd mem_cons_self h

/-- **A shown key without escapes is the key.** Bytes that are no text have one of at least 128,
which is shown with an escape. -/
theorem utf8_redisBytesToDisplay {key : Key} (h : '\\' ∉ redisBytesToDisplay key) :
    utf8 (redisBytesToDisplay key) = key := by
  unfold redisBytesToDisplay at h ⊢
  cases htext : fromUtf8 key with
  | some text =>
    rw [htext] at h
    exact (congrArg utf8 (flatMap_escapeChar h)).trans (fromUtf8_eq_some_iff.mp htext)
  | none =>
    rw [htext] at h
    have hascii : ∀ byte ∈ key, byte.toNat < 128 := fun byte hbyte =>
      lt_of_not_mem_escapeByte fun hslash => h (mem_flatMap.mpr ⟨byte, hbyte, hslash⟩)
    rw [fromUtf8_eq_some_iff.mpr (utf8_map_ofNat hascii)] at htext
    cases htext

/-- **A loaded row is matched by the key of the server that it shows.** -/
theorem keyBytes_redisKeyInfo (key : Key) :
    keyBytes base64.decode (redisKeyInfo base64 key).keyDisplay
      (some (redisKeyInfo base64 key).keyRaw) = some key := by
  have hdecode := base64.decode_encode key
  rw [redisKeyInfo, keyBytes_some]
  by_cases hslash : '\\' ∈ redisBytesToDisplay key
  · -- only the empty key has an empty raw form, and it has no escapes
    have hraw : base64.encode key ≠ [] := by
      intro hnil
      rw [hnil, ← base64.encode_nil, base64.decode_encode] at hdecode
      rw [← Option.some.inj hdecode] at hslash
      exact absurd hslash (by decide)
    rw [if_pos ⟨hraw, hslash⟩, hdecode]
  · rw [if_neg fun h => hslash h.2, utf8_redisBytesToDisplay hslash]

example : redisKeyInfo Base64.standard (utf8 "session:".toList ++ [255, 92]) =
    ⟨"session:\\xff\\\\".toList, "c2Vzc2lvbjr/XA==".toList⟩ := by
  decide +kernel

/-- The rows that `deleteGroupSubtree` keeps. -/
def keptRows (atob : Text → Option (List UInt8)) (pattern : Text) (rows : List KeyRow) :
    List KeyRow :=
  rows.filter fun row => !createRedisKeyPatternMatcher atob pattern row.keyDisplay (some row.keyRaw)

/-- **The browser keeps the rows of the keys that are left** when the server has deleted a group,
whatever the pattern of the group matches and whatever bytes the loaded keys have. -/
theorem keptRows_eq {pattern : Text} {keys : Finset Key} {answers : List ScanPage}
    {loaded : List Key} (hstar : '*' ∈ pattern) (hrun : ScanRun pattern keys answers)
    (hloaded : ∀ key ∈ loaded, key ∈ keys) :
    ∃ left count, deleteKeysByPattern pattern 0 (keys, 0) answers = some (left, count) ∧
      keptRows base64.decode pattern (loaded.map (redisKeyInfo base64)) =
        (loaded.filter (· ∈ left)).map (redisKeyInfo base64) := by
  refine ⟨_, _, deleteKeysByPattern_eq hstar hrun, ?_⟩
  rw [keptRows, filter_map]
  refine congrArg (map _) (filter_congr fun key hkey => ?_)
  simp [createRedisKeyPatternMatcher, keyBytes_redisKeyInfo, matchLoop_redisGlobTokens,
    hloaded key hkey]

/-- A group with a key that is no text and one with a backslash, and a key beside it. -/
def sessionKeys : List Key :=
  [utf8 "session:".toList ++ [255, 92], utf8 "session:a\\b".toList, utf8 "user:1".toList]

theorem keptRows_eq_sessions :
    ∃ left count,
      deleteKeysByPattern "session:*".toList 0 (sessionKeys.toFinset, 0)
        [⟨0, sessionKeys.filter (MatchesPattern "session:*".toList)⟩] = some (left, count) ∧
      keptRows Base64.standard.decode "session:*".toList
          (sessionKeys.map (redisKeyInfo Base64.standard)) =
        (sessionKeys.filter (· ∈ left)).map (redisKeyInfo Base64.standard) :=
  keptRows_eq Base64.standard (by decide) (scanRun_once "session:*".toList sessionKeys)
    fun _ => mem_toFinset.mpr

end Dbx.Redis
