import Dbx.Text.Basic
import Mathlib.Data.Finset.Card
import Dbx.Glob.Pattern

/-!
# Deleting a group of keys

A group in the key browser is the set of the keys with a common start. The desktop writes a pattern
for it, and the driver deletes what the server finds with the pattern, page by page.

The segments of the group are escaped in the pattern, the separator between them is not.
-/

namespace Dbx.Redis

open Text Glob List

abbrev Key := List UInt8

/-! ## Patterns -/

/-- `escapeRedisGlobText`. -/
def escapeRedisGlobText (value : Text) (fuzzy : Bool) : Text :=
  let escaped : List Char := if fuzzy then ['\\', '[', ']'] else ['\\', '*', '?', '[', ']']
  value.flatMap fun c => if c ∈ escaped then ['\\', c] else [c]

/-- `redisGroupSubtreePattern`. -/
def redisGroupSubtreePattern (pathSegments : List Text) (separator : Text) : Text :=
  separator.intercalate (pathSegments.map (escapeRedisGlobText · false)) ++ separator ++ ['*']

def MatchesPattern (pattern : Text) (key : Key) : Bool :=
  Matches (tokens .plain (utf8 pattern)) key

/-- The start that the keys of a group have in common. -/
def subtreeStart (pathSegments : List Text) (separator : Text) : Text :=
  separator.intercalate pathSegments ++ separator

/-- **A key of a group**: it starts with the segments joined by the separator and the separator. -/
def InSubtree (pathSegments : List Text) (separator : Text) (key : Key) : Prop :=
  utf8 (subtreeStart pathSegments separator) <+: key

instance (pathSegments : List Text) (separator : Text) :
    DecidablePred (InSubtree pathSegments separator) :=
  fun _ => inferInstanceAs (Decidable (_ <+: _))

/-! ## The loop -/

/-- An answer to `SCAN`: the next cursor, and some keys. -/
structure ScanPage where
  cursor : Nat
  keys : List Key
  deriving DecidableEq, Repr

/-- `scan_keys_batch_inner` with one iteration and without types, for the answer that the server
gives to `SCAN`. A pattern without wildcards is looked up instead. -/
def scanKeysBatchInner (keys : Finset Key) (cursor : Nat) (pattern : Text) (answer : ScanPage) :
    ScanPage :=
  let isExactMatch := '*' ∉ pattern && '?' ∉ pattern && '[' ∉ pattern
  if cursor = 0 && isExactMatch && !pattern.isEmpty then
    ⟨0, if utf8 pattern ∈ keys then [utf8 pattern] else []⟩
  else answer

variable (state : Finset Key × Nat)

/-- `delete_keys`: the keys that are left, and the number of the deleted ones added to a number. -/
def deleteKeys (batch : List Key) : Finset Key × Nat :=
  (state.1 \ batch.toFinset, state.2 + (state.1 ∩ batch.toFinset).card)

/-- The parts of a list with a bounded length. -/
def chunks {α : Type} (size : Nat) : Nat → List α → List (List α)
  | 0, _ => []
  | _ + 1, [] => []
  | fuel + 1, list => list.take size :: chunks size fuel (list.drop size)

/-- `DELETE_KEYS_BY_PATTERN_DELETE_BATCH`. -/
def deleteKeysByPatternDeleteBatch : Nat := 512

def deletePage (keys : List Key) : Finset Key × Nat :=
  (chunks deleteKeysByPatternDeleteBatch keys.length keys).foldl deleteKeys state

/-- The loop of `delete_keys_by_pattern`, over the answers to `SCAN`; it does not end before the
server has answered with the cursor zero. -/
def deleteKeysByPattern (pattern : Text) :
    Nat → Finset Key × Nat → List ScanPage → Option (Finset Key × Nat)
  | _, _, [] => none
  | cursor, state, answer :: answers =>
    let page := scanKeysBatchInner state.1 cursor pattern answer
    let state := deletePage state page.keys
    if page.cursor = 0 then some state else deleteKeysByPattern pattern page.cursor state answers

/-! ## The server -/

def returned (answers : List ScanPage) : Finset Key := (answers.map (·.keys)).flatten.toFinset

/-- Every answer has keys that are present and match the pattern, and the last one, and only it, has
the cursor zero. -/
def Answers (pattern : Text) : Finset Key → List ScanPage → Prop
  | _, [] => False
  | keys, answer :: answers =>
    (∀ key ∈ answer.keys, key ∈ keys ∧ MatchesPattern pattern key = true) ∧
      if answer.cursor = 0 then answers = []
      else Answers pattern (keys \ answer.keys.toFinset) answers

/-- **A run of `SCAN`**, during which only its keys are deleted: every key that matches and stays
present to its end is returned at least once. -/
structure ScanRun (pattern : Text) (keys : Finset Key) (answers : List ScanPage) : Prop where
  answered : Answers pattern keys answers
  complete : ∀ key ∈ keys, MatchesPattern pattern key = true → key ∈ keys \ returned answers →
    key ∈ returned answers

/-! ## What the loop deletes -/

theorem flatten_chunks {α : Type} {size : Nat} (hsize : 0 < size) {fuel : Nat} {list : List α}
    (hfuel : list.length ≤ fuel) : (chunks size fuel list).flatten = list := by
  induction fuel generalizing list with
  | zero => rw [eq_nil_of_length_eq_zero (Nat.le_zero.mp hfuel)]; rfl
  | succ fuel ih =>
    cases list with
    | nil => rfl
    | cons first list =>
      have hlength : ((first :: list).drop size).length ≤ fuel := by
        rw [length_drop]
        omega
      rw [chunks, flatten_cons, ih hlength, take_append_drop]
      exact nofun

/-- Deleting keys in batches. -/
theorem foldl_deleteKeys (batches : List (List Key)) (state : Finset Key × Nat) :
    batches.foldl deleteKeys state =
      (state.1 \ batches.flatten.toFinset,
        state.2 + (state.1 ∩ batches.flatten.toFinset).card) := by
  induction batches generalizing state with
  | nil => simp
  | cons batch batches ih =>
    rw [foldl_cons, ih, flatten_cons, toFinset_append]
    refine Prod.ext ?_ ?_
    · simp only [deleteKeys, sdiff_sdiff, Finset.sup_eq_union]
    · have hsplit : state.1 ∩ (batch.toFinset ∪ batches.flatten.toFinset) =
          (state.1 ∩ batch.toFinset) ∪ ((state.1 \ batch.toFinset) ∩ batches.flatten.toFinset) := by
        ext key
        simp only [Finset.mem_inter, Finset.mem_union, Finset.mem_sdiff]
        tauto
      have hdisjoint : Disjoint (state.1 ∩ batch.toFinset)
          ((state.1 \ batch.toFinset) ∩ batches.flatten.toFinset) := by
        rw [Finset.disjoint_left]
        intro key hkey hother
        exact (Finset.mem_sdiff.mp (Finset.mem_inter.mp hother).1).2 (Finset.mem_inter.mp hkey).2
      simp only [deleteKeys]
      rw [hsplit, Finset.card_union_of_disjoint hdisjoint, Nat.add_assoc]

theorem deletePage_eq (keys : List Key) : deletePage state keys = deleteKeys state keys := by
  rw [deletePage, foldl_deleteKeys, flatten_chunks (by decide) (Nat.le_refl _)]
  rfl

variable {answers : List ScanPage} {pattern : Text}

/-- The loop deletes the keys of the answers, page by page. -/
theorem deleteKeysByPattern_of_answers (hstar : '*' ∈ pattern) {cursor : Nat}
    {state : Finset Key × Nat} (h : Answers pattern state.1 answers) :
    deleteKeysByPattern pattern cursor state answers =
      some ((answers.map (·.keys)).foldl deleteKeys state) := by
  induction answers generalizing cursor state with
  | nil => exact h.elim
  | cons answer answers ih =>
    have hscan : scanKeysBatchInner state.1 cursor pattern answer = answer := by
      simp [scanKeysBatchInner, hstar]
    obtain ⟨-, hrest⟩ := h
    rw [deleteKeysByPattern, hscan, deletePage_eq, map_cons]
    split
    · next hzero =>
      rw [if_pos hzero] at hrest
      rw [hrest]
      rfl
    · next hmore =>
      rw [if_neg hmore] at hrest
      exact ih hrest

/-- The keys of the answers are keys that match. -/
theorem Answers.mem {keys : Finset Key}
    (h : Answers pattern keys answers) {key : Key} (hkey : key ∈ returned answers) :
    key ∈ keys ∧ MatchesPattern pattern key := by
  induction answers generalizing keys with
  | nil => exact h.elim
  | cons answer answers ih =>
    obtain ⟨hkeys, hrest⟩ := h
    rw [returned, map_cons, flatten_cons, mem_toFinset, mem_append] at hkey
    rcases hkey with hkey | hkey
    · exact hkeys key hkey
    · split at hrest
      · subst hrest
        cases hkey
      · obtain ⟨hmem, hmatch⟩ := ih hrest (mem_toFinset.mpr hkey)
        exact ⟨(Finset.mem_sdiff.mp hmem).1, hmatch⟩

/-- **The loop deletes the keys that the pattern matches**, and returns their number. -/
theorem deleteKeysByPattern_eq (hstar : '*' ∈ pattern) {keys : Finset Key}
    (h : ScanRun pattern keys answers) :
    deleteKeysByPattern pattern 0 (keys, 0) answers =
      some (keys.filter (¬ MatchesPattern pattern ·),
        (keys.filter (MatchesPattern pattern ·)).card) := by
  have hreturned : ∀ key ∈ keys, key ∈ returned answers ↔ MatchesPattern pattern key := by
    intro key hkey
    refine ⟨fun hmem => (h.answered.mem hmem).2, fun hmatch => ?_⟩
    by_contra hmem
    exact hmem (h.complete key hkey hmatch (Finset.mem_sdiff.mpr ⟨hkey, hmem⟩))
  have hleft : keys \ returned answers = keys.filter (¬ MatchesPattern pattern ·) := by
    ext key
    rw [Finset.mem_sdiff, Finset.mem_filter]
    exact and_congr_right fun hkey => not_congr (hreturned key hkey)
  have hdeleted : keys ∩ returned answers = keys.filter (MatchesPattern pattern ·) := by
    ext key
    rw [Finset.mem_inter, Finset.mem_filter]
    exact and_congr_right fun hkey => hreturned key hkey
  rw [deleteKeysByPattern_of_answers hstar h.answered, foldl_deleteKeys, ← hleft, ← hdeleted,
    Nat.zero_add]
  rfl

/-! ## What the pattern of a group matches -/

/-- The characters that do not stand for themselves in a pattern. -/
def globChars : List Char := ['\\', '*', '?', '[']

/-- A text stands for itself in a pattern if and only if its characters do. -/
theorem plain_utf8_iff (text : Text) :
    (∀ byte ∈ utf8 text, byte ∉ specials) ↔ ∀ c ∈ text, c ∉ globChars := by
  have hchars : specials = globChars.map fun c => UInt8.ofNat c.toNat := rfl
  have hascii : ∀ c ∈ globChars, c.toNat < 128 := by decide
  constructor
  · intro h c hc hglob
    refine h _ ((mem_utf8_iff (hascii c hglob) text).mpr hc) ?_
    rw [hchars]
    exact mem_map_of_mem hglob
  · intro h byte hbyte hspecial
    rw [hchars] at hspecial
    obtain ⟨c, hglob, rfl⟩ := mem_map.mp hspecial
    exact h c ((mem_utf8_iff (hascii c hglob) text).mp hbyte) hglob

/-- An escaped text stands for itself. -/
theorem tokens_escape (value : Text) (more : List UInt8) :
    tokens .plain (utf8 (escapeRedisGlobText value false) ++ more) =
      (utf8 value).map .literal ++ tokens .plain more := by
  induction value with
  | nil => rfl
  | cons c value ih =>
    have hcons : escapeRedisGlobText (c :: value) false =
        (if c ∈ ['\\', '*', '?', '[', ']'] then ['\\', c] else [c]) ++
          escapeRedisGlobText value false := rfl
    rw [hcons, utf8_append, append_assoc, utf8_cons, map_append, append_assoc, ← ih]
    split
    · next hc =>
      have hascii : c.toNat < 128 := by
        simp only [mem_cons, not_mem_nil, or_false] at hc
        rcases hc with rfl | rfl | rfl | rfl | rfl
        all_goals decide
      rw [utf8_cons, utf8_cons, utf8EncodeChar_ascii hascii, utf8_nil]
      exact tokens_escaped _ _
    · next hc =>
      have hplain : ∀ d ∈ [c], d ∉ globChars := by
        rintro d hd hglob
        rw [mem_singleton.mp hd] at hglob
        exact hc (mem_append_left [']'] hglob)
      have htokens := tokens_append ((plain_utf8_iff [c]).mpr hplain)
      rw [utf8_cons, utf8_nil, append_nil] at htokens ⊢
      exact htokens _

variable {pathSegments : List Text} {separator : Text}

/-- The pattern of a group, if the separator stands for itself. -/
theorem tokens_subtreePattern (hseparator : ∀ c ∈ separator, c ∉ globChars)
    (hne : pathSegments ≠ []) :
    tokens .plain (utf8 (redisGroupSubtreePattern pathSegments separator)) =
      (utf8 (subtreeStart pathSegments separator)).map .literal ++ [.star] := by
  have hplain := tokens_append ((plain_utf8_iff separator).mpr hseparator)
  rw [redisGroupSubtreePattern, subtreeStart]
  induction pathSegments with
  | nil => exact absurd rfl hne
  | cons segment segments ih =>
    cases segments with
    | nil =>
      simp only [map_cons, map_nil, intercalate_singleton, utf8_append,
        append_assoc, tokens_escape, hplain, map_append]
      rfl
    | cons next segments =>
      have hrest := ih (cons_ne_nil _ _)
      simp only [map_cons, intercalate_cons_cons, utf8_append, append_assoc,
        map_append, tokens_escape, hplain] at hrest ⊢
      rw [hrest]

/-- The pattern of a group matches its keys, if the separator stands for itself. -/
theorem matchesPattern_iff (hseparator : ∀ c ∈ separator, c ∉ globChars)
    (hne : pathSegments ≠ []) (key : Key) :
    MatchesPattern (redisGroupSubtreePattern pathSegments separator) key ↔
      InSubtree pathSegments separator key := by
  rw [MatchesPattern, tokens_subtreePattern hseparator hne, matches_literals_append]
  constructor
  · rintro ⟨more, rfl, -⟩
    exact prefix_append _ _
  · rintro ⟨more, rfl⟩
    exact ⟨more, rfl, matches_final_star more⟩

theorem star_mem_pattern (pathSegments : List Text) (separator : Text) :
    '*' ∈ redisGroupSubtreePattern pathSegments separator :=
  mem_append_right _ (mem_singleton_self _)

/-- **Deleting a group.** -/
def DeletesSubtree (pathSegments : List Text) (separator : Text) : Prop :=
  ∀ (keys : Finset Key) (answers : List ScanPage),
    ScanRun (redisGroupSubtreePattern pathSegments separator) keys answers →
      deleteKeysByPattern (redisGroupSubtreePattern pathSegments separator) 0 (keys, 0) answers =
        some (keys.filter (¬ InSubtree pathSegments separator ·),
          (keys.filter (InSubtree pathSegments separator ·)).card)

/-- A server that answers at once, with all keys that match. -/
theorem scanRun_once (pattern : Text) (present : List Key) :
    ScanRun pattern present.toFinset [⟨0, present.filter (MatchesPattern pattern)⟩] := by
  refine ⟨⟨fun key hkey => ?_, (if_pos rfl).mpr rfl⟩, fun key hkey hmatch _ => ?_⟩
  · obtain ⟨hpresent, hmatch⟩ := mem_filter.mp hkey
    exact ⟨mem_toFinset.mpr hpresent, hmatch⟩
  · simpa [returned, hmatch] using hkey

/-- The pattern matches the keys of a group where the group is deleted. -/
theorem DeletesSubtree.matchesPattern_iff (h : DeletesSubtree pathSegments separator) (key : Key) :
    MatchesPattern (redisGroupSubtreePattern pathSegments separator) key ↔
      InSubtree pathSegments separator key := by
  have hrun := scanRun_once (redisGroupSubtreePattern pathSegments separator) [key]
  have hdeleted := h [key].toFinset _ hrun
  rw [deleteKeysByPattern_eq (star_mem_pattern pathSegments separator) hrun] at hdeleted
  have hleft := (Prod.mk.inj (Option.some.inj hdeleted)).1
  have hmem := Finset.ext_iff.mp hleft key
  simp only [Finset.mem_filter, mem_toFinset, mem_singleton, true_and] at hmem
  exact not_iff_not.mp hmem

/-- **Deleting a group of keys.** For every list of segments the keys of the group, and only those,
are deleted and counted if and only if no character of the separator has a meaning in patterns. -/
theorem subtree_deleted_iff (separator : Text) :
    (∀ pathSegments : List Text, pathSegments ≠ [] → DeletesSubtree pathSegments separator) ↔
      ∀ c ∈ separator, c ∉ globChars := by
  constructor
  · intro h
    have hpattern : redisGroupSubtreePattern [[]] separator = separator ++ ['*'] := rfl
    have hstart : subtreeStart [[]] separator = separator := rfl
    rw [← plain_utf8_iff, ← matches_all_iff]
    intro bytes
    have hiff := (h [[]] (cons_ne_nil _ _)).matchesPattern_iff bytes
    rw [MatchesPattern, hpattern, utf8_append, InSubtree, hstart] at hiff
    exact hiff
  · intro hseparator pathSegments hne keys answers hrun
    rw [deleteKeysByPattern_eq (star_mem_pattern pathSegments separator) hrun]
    simp only [Redis.matchesPattern_iff hseparator hne]

/-- With a separator that is a wildcard a key is deleted that is not in the group. -/
theorem not_deletesSubtree_star : ¬ DeletesSubtree ["user".toList] ['*'] := by
  intro h
  have hiff := h.matchesPattern_iff (utf8 "users".toList)
  have hmatch : MatchesPattern (redisGroupSubtreePattern ["user".toList] ['*'])
      (utf8 "users".toList) = true := by decide +kernel
  exact absurd (hiff.mp hmatch) (by decide +kernel)

/-! ## Looking up a key -/

theorem exact_utf8 {pattern : Text} (h : '*' ∉ pattern ∧ '?' ∉ pattern ∧ '[' ∉ pattern) :
    ∀ byte ∈ utf8 pattern, byte = backslash ∨ byte ∉ specials := by
  intro byte hbyte
  refine or_iff_not_imp_left.mpr fun hslash hspecial => ?_
  simp only [specials, mem_cons, not_mem_nil, or_false] at hspecial
  rcases hspecial with rfl | rfl | rfl | rfl
  · exact hslash rfl
  · exact h.1 ((mem_utf8_iff (by decide) pattern).mp hbyte)
  · exact h.2.1 ((mem_utf8_iff (by decide) pattern).mp hbyte)
  · exact h.2.2 ((mem_utf8_iff (by decide) pattern).mp hbyte)

/-- **A pattern without wildcards.** Looking it up finds the keys that match it, in every key set,
if and only if it has no backslash before its last byte. -/
theorem scanKeysBatchInner_exact_iff {pattern : Text} (hne : pattern ≠ [])
    (h : '*' ∉ pattern ∧ '?' ∉ pattern ∧ '[' ∉ pattern) :
    (∀ (keys : Finset Key) (answer : ScanPage) (key : Key),
      key ∈ (scanKeysBatchInner keys 0 pattern answer).keys ↔
        key ∈ keys ∧ MatchesPattern pattern key = true) ↔
      backslash ∉ (utf8 pattern).dropLast := by
  have hfound (keys : Finset Key) (answer : ScanPage) (key : Key) :
      key ∈ (scanKeysBatchInner keys 0 pattern answer).keys ↔ key ∈ keys ∧ key = utf8 pattern := by
    have hlookup : scanKeysBatchInner keys 0 pattern answer =
        ⟨0, if utf8 pattern ∈ keys then [utf8 pattern] else []⟩ := by
      simp [scanKeysBatchInner, hne, h]
    rw [hlookup]
    by_cases hmem : utf8 pattern ∈ keys
    · simp +contextual [hmem]
    · simp only [hmem, if_false, not_mem_nil, false_iff, not_and]
      rintro hkey rfl
      exact hmem hkey
  simp only [hfound, MatchesPattern, matches_exact_iff (exact_utf8 h)]
  rw [← unescape_eq_self_iff]
  constructor
  · intro hall
    -- a key set with the looked up key only
    have hself := hall {utf8 pattern} ⟨0, []⟩ (utf8 pattern)
    exact (hself.mp ⟨Finset.mem_singleton_self _, rfl⟩).2.symm
  · intro heq keys answer key
    rw [heq]

theorem scanKeysBatchInner_exact_user :
    utf8 "user".toList ∈ (scanKeysBatchInner {utf8 "user".toList} 0 "user".toList ⟨0, []⟩).keys ↔
      utf8 "user".toList ∈ ({utf8 "user".toList} : Finset Key) ∧
        MatchesPattern "user".toList (utf8 "user".toList) = true :=
  (scanKeysBatchInner_exact_iff (by decide) (by decide)).mpr (by decide) _ _ _

theorem not_found_escaped :
    (scanKeysBatchInner {utf8 "ab".toList} 0 "a\\b".toList ⟨0, []⟩).keys = [] ∧
      MatchesPattern "a\\b".toList (utf8 "ab".toList) = true := by
  decide

end Dbx.Redis
