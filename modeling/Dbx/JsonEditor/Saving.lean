import Dbx.JsonEditor.Decoded

/-!
# Saving a decoded text

What is saved for an edited text has its value when no edit does harm by cutting an escape. A
backslash and what belongs to it are one piece, and its units are all said to begin where the piece
begins: where an unchanged stretch ends inside a piece, the part before the end is lost, and where
it begins inside a piece, the part before the beginning is written again.

## Main results

* `Piece.Reads`, `reads_of_mem_pieces`: a piece is read like what is shown for it
* `readFrom_writeOps`: what is written is read like the edited text
* `saves_of_cutsHarmless`: what is saved has the value of the edited text
-/

namespace Dbx.JsonEditor

open Diff List

/-! ## A piece is read like what is shown for it -/

/-- Where what is shown can be read, the piece is read alike. -/
def Piece.Reads (piece : Piece) : Prop :=
  ∀ r r', readFrom (some r) piece.shown = some r' → readFrom (some r) piece.raw = some r'

open Piece

theorem reads_copied (text : Units) : (copied text).Reads := fun _ _ h => h

variable {code : Nat} {digits text : Units}

open UInt16

variable (h : parseHex digits = some code)

include h

/-- A unicode escape in a string is read as its unit. -/
theorem readFrom_escape {tokens : List Token} :
    readFrom (some ⟨.string text, tokens⟩) (92 :: 117 :: digits) =
      some ⟨.string (text ++ [ofNat code]), tokens⟩ := by
  unfold parseHex at h
  split at h
  · next a b c d =>
    simp only [Option.bind_eq_bind, Option.bind_eq_some_iff] at h
    obtain ⟨a', ha, b', hb, c', hc, d', hd, ⟨⟩⟩ := h
    simp [readFrom_cons, Reading.read, ha, hb, hc, hd]
  · cases h

/-- The bound of four digits. -/
theorem lt_of_parseHex : code < 65536 := by
  have hdigit : ∀ {c : UInt16} {value : Nat}, hexDigit c = some value → value < 16 := by
    intro c value hvalue
    unfold hexDigit isDigit at hvalue
    simp only [Bool.and_eq_true, decide_eq_true_eq, le_iff_toNat_le, reduceToNat] at hvalue
    split at hvalue
    · cases hvalue
      omega
    split at hvalue
    · cases hvalue
      omega
    · split at hvalue <;> cases hvalue
      omega
  unfold parseHex at h
  split at h
  · simp only [Option.bind_eq_bind, Option.bind_eq_some_iff] at h
    obtain ⟨a', ha, b', hb, c', hc, d', hd, ⟨⟩⟩ := h
    have ha' := hdigit ha
    have hb' := hdigit hb
    have hc' := hdigit hc
    have hd' := hdigit hd
    omega
  · cases h

/-- A decoded unit can be read in strings only, where its escape can be read as well. -/
theorem readFrom_decoded {r r' : Reading} (hcode : 128 ≤ code)
    (hread : readFrom (some r) [ofNat code] = some r') :
    readFrom (some r) (92 :: 117 :: digits) = some r' := by
  have hlt := lt_of_parseHex h
  have hunit : 128 ≤ (ofNat code).toNat := by
    rw [toNat_ofNat', Nat.mod_eq_of_lt hlt]
    exact hcode
  rw [readFrom_cons, readFrom_nil] at hread
  obtain ⟨text, hmode, rfl⟩ := read_nonAscii hunit hread
  obtain ⟨mode, tokens⟩ := r
  subst hmode
  exact readFrom_escape h

omit h

theorem lowSurrogate_eq_some {low : Nat} (h : lowSurrogate text = some low) :
    ∃ digits, text = 92 :: 117 :: digits ∧ parseHex digits = some low ∧ 0xdc00 ≤ low ∧
      low ≤ 0xdfff := by
  unfold lowSurrogate at h
  split at h
  · next digits =>
    rw [Option.filter_eq_some_iff] at h
    simp only [decide_eq_true_eq] at h
    exact ⟨digits, rfl, h.1, h.2⟩
  · cases h

theorem fromCodePoint_pair {high low : Nat} (hhigh : 0xd800 ≤ high ∧ high ≤ 0xdbff)
    (hlow : 0xdc00 ≤ low ∧ low ≤ 0xdfff) :
    fromCodePoint (0x10000 + (high - 0xd800) * 0x400 + (low - 0xdc00)) =
      [ofNat high, ofNat low] := by
  have hfirst : 0xd800 + (0x10000 + (high - 0xd800) * 0x400 + (low - 0xdc00) - 0x10000) / 0x400 =
      high := by omega
  have hsecond : 0xdc00 + (0x10000 + (high - 0xd800) * 0x400 + (low - 0xdc00) - 0x10000) % 0x400 =
      low := by omega
  rw [fromCodePoint, if_neg (by omega), hfirst, hsecond]

theorem reads_unicodePiece {digits low : Units} (h : parseHex digits = some code) :
    (unicodePiece (92 :: 117 :: digits) code low).Reads := by
  unfold unicodePiece
  split
  · next value hvalue =>
    -- two escapes, shown as the two units of one character
    split at hvalue
    · next hhigh =>
      obtain ⟨digits', rfl, hlow, hrange⟩ := lowSurrogate_eq_some hvalue
      intro r r' hread
      rw [fromCodePoint_pair hhigh hrange] at hread
      obtain ⟨middle, hfirst, hsecond⟩ :=
        @exists_readFrom (some r) [ofNat code] [ofNat value] r' hread
      show readFrom (some r) ((92 :: 117 :: digits) ++ (92 :: 117 :: digits')) = some r'
      rw [readFrom_append, readFrom_decoded h (by omega) hfirst]
      exact readFrom_decoded hlow (by omega) hsecond
    · cases hvalue
  · split
    · exact reads_copied _
    · split
      · next hcode => exact fun r r' hread => readFrom_decoded h hcode hread
      · exact reads_copied _

theorem reads_pieceAt (inString : Bool) (c : UInt16) (rest : Units) :
    (pieceAt inString c rest).1.Reads := by
  unfold pieceAt
  split
  · exact reads_copied _
  split
  · exact reads_copied _
  split
  · next hbackslash =>
    subst hbackslash
    unfold escapePiece
    split
    · exact reads_copied _
    next next rest =>
    split
    · exact reads_copied _
    · next code hcode =>
      split at hcode
      · next hnext =>
        subst hnext
        exact reads_unicodePiece hcode
      · cases hcode
  · exact reads_copied _

/-- **A piece is read like what is shown for it.** -/
theorem reads_of_mem_pieces {inString : Bool} {skip : Nat} {piece : Piece}
    (h : piece ∈ piecesFrom inString skip text) : piece.Reads := by
  induction text generalizing inString skip with
  | nil => cases skip <;> cases h
  | cons c rest ih =>
    cases skip with
    | succ skip => exact ih h
    | zero =>
      rcases List.mem_cons.mp h with rfl | hlater
      · exact reads_pieceAt inString c rest
      · exact ih hlater

/-- Pieces are read like what is shown for them. -/
theorem readFrom_raw {list : List Piece} (h : ∀ piece ∈ list, piece.Reads) {r r' : Reading}
    (hread : readFrom (some r) (list.flatMap shown) = some r') :
    readFrom (some r) (list.flatMap raw) = some r' := by
  induction list generalizing r with
  | nil => exact hread
  | cons piece list ih =>
    rw [flatMap_cons] at hread ⊢
    obtain ⟨middle, hfirst, hrest⟩ := exists_readFrom hread
    rw [readFrom_append, h piece mem_cons_self r middle hfirst]
    exact ih (fun other hother => h other (mem_cons_of_mem _ hother)) hrest

/-! ## Places in what is shown -/

/-- The pieces that are complete before a place. -/
def whole : List Piece → Nat → List Piece
  | [], _ => []
  | piece :: rest, place =>
    if place < piece.shown.length then [] else piece :: whole rest (place - piece.shown.length)

/-- The part of a piece before a place that cuts it. -/
def headOf : List Piece → Nat → Units
  | [], _ => []
  | piece :: rest, place =>
    if place < piece.shown.length then piece.shown.take place
    else headOf rest (place - piece.shown.length)

section Places

variable {list : List Piece} {i j : Nat}

theorem take_shown (h : i ≤ (list.flatMap shown).length) :
    (list.flatMap shown).take i = (whole list i).flatMap shown ++ headOf list i := by
  induction list generalizing i with
  | nil => simp [whole, headOf]
  | cons piece list ih =>
    rw [flatMap_cons, length_append] at h
    rw [flatMap_cons, whole, headOf]
    split
    · next hcut => rw [take_append_of_le_length hcut.le, flatMap_nil, nil_append]
    · next hwhole =>
      rw [take_append, take_of_length_le (by omega), ih (by omega), flatMap_cons, append_assoc]

theorem whole_le (h : i ≤ j) : whole list i <+: whole list j := by
  induction list generalizing i j with
  | nil => exact prefix_rfl
  | cons piece list ih =>
    rw [whole, whole]
    split
    · exact nil_prefix
    · rw [if_neg (by omega)]
      exact (prefix_cons_inj piece).mpr (ih (by omega))

theorem whole_prefix_list (list : List Piece) (i : Nat) : whole list i <+: list := by
  induction list generalizing i with
  | nil => exact prefix_rfl
  | cons first list ih =>
    rw [whole]
    split
    · exact nil_prefix
    · exact (prefix_cons_inj first).mpr (ih _)

/-- The offset of a place is where the piece begins that it cuts, or that it stands before. -/
theorem getD_offsetsFrom (start : Nat) (h : i ≤ (list.flatMap shown).length) :
    (offsetsFrom start list ++ [start + (list.flatMap raw).length]).getD i 0 =
      start + ((whole list i).flatMap raw).length := by
  induction list generalizing start i with
  | nil =>
    obtain rfl : i = 0 := Nat.le_zero.mp h
    rfl
  | cons piece list ih =>
    rw [flatMap_cons, length_append] at h
    rw [offsetsFrom, whole, append_assoc]
    split
    · next hcut =>
      rw [getD_append _ _ _ _ (by rwa [length_map]), getD_eq_getElem _ _ (by simpa)]
      simp
    · next hwhole =>
      rw [getD_append_right _ _ _ _ (by rw [length_map]; omega), length_map,
        flatMap_cons, flatMap_cons, length_append, length_append,
        ← Nat.add_assoc, ← Nat.add_assoc]
      exact ih (start + piece.raw.length) (by omega)

/-- The pieces between two places, the first of which may be cut by the first place. -/
def between (list : List Piece) (i j : Nat) : List Piece :=
  (whole list j).drop (whole list i).length

theorem whole_append_between (h : i ≤ j) : whole list i ++ between list i j = whole list j := by
  obtain ⟨more, hmore⟩ := @whole_le list i j h
  rw [between, ← hmore, drop_left]

theorem mem_of_mem_between {piece : Piece} (h : piece ∈ between list i j) : piece ∈ list :=
  (whole_prefix_list list j).subset (mem_of_mem_drop h)

/-- A stretch of what is shown, with the part of a piece that it lacks at its beginning. -/
theorem headOf_append_slice (h : i ≤ j) (hj : j ≤ (list.flatMap shown).length) :
    headOf list i ++ slice (list.flatMap shown) i j =
      (between list i j).flatMap shown ++ headOf list j := by
  have hsplit := @slice_append _ (list.flatMap shown) 0 i j (Nat.zero_le i) h
  have hzero : ∀ k, slice (list.flatMap shown) 0 k = (list.flatMap shown).take k :=
    fun k => drop_zero
  rw [hzero, hzero, take_shown (h.trans hj), take_shown hj, ← whole_append_between h,
    flatMap_append, append_assoc, append_assoc] at hsplit
  exact append_cancel_left hsplit

/-- The raw text between the offsets of two places. -/
theorem slice_raw (h : i ≤ j) (hj : j ≤ (list.flatMap shown).length) :
    slice (list.flatMap raw) ((offsetsFrom 0 list ++ [(list.flatMap raw).length]).getD i 0)
      ((offsetsFrom 0 list ++ [(list.flatMap raw).length]).getD j 0) =
      (between list i j).flatMap raw := by
  have hoffset : ∀ k ≤ (list.flatMap shown).length,
      (offsetsFrom 0 list ++ [(list.flatMap raw).length]).getD k 0 =
        ((whole list k).flatMap raw).length := by
    intro k hk
    have hgetD := getD_offsetsFrom 0 hk
    rwa [Nat.zero_add, Nat.zero_add] at hgetD
  obtain ⟨later, hlater⟩ := whole_prefix_list list j
  rw [hoffset i (h.trans hj), hoffset j hj, slice]
  have hraw : list.flatMap raw = (whole list j).flatMap raw ++ later.flatMap raw := by
    rw [← flatMap_append, hlater]
  rw [hraw, take_left' rfl, ← whole_append_between h, flatMap_append, drop_left' rfl]

end Places

/-! ## Edits that cut pieces -/

/-- Where an unchanged stretch ends inside a piece, what comes before its end in the piece is not
written; where the next one begins inside a piece, what comes before its beginning is written. With
what is inserted between them, both must be read alike from where the cut piece begins. -/
def cutsHarmless (list : List Piece) (draft : Units) :
    Option Reading → Units → Units → List Op → Prop
  | r, head, inserted, [] => readFrom r (head ++ inserted) = readFrom r inserted
  | r, head, inserted, op :: ops =>
    match op.kind with
    | .delete => cutsHarmless list draft r head inserted ops
    | .insert => cutsHarmless list draft r head (inserted ++ slice draft op.bFrom op.bTo) ops
    | .equal =>
      readFrom r (head ++ inserted) = readFrom r (inserted ++ headOf list op.aFrom) ∧
        cutsHarmless list draft
          (readFrom r (inserted ++ (between list op.aFrom op.aTo).flatMap shown))
          (headOf list op.aTo) [] ops

/-- No edit does harm by cutting an escape. -/
def CutsHarmless (raw draft : Units) : Prop :=
  cutsHarmless (pieces raw) draft (some {}) [] [] (diffText ((pieces raw).flatMap shown) draft)

instance decidableCutsHarmless (list : List Piece) (draft : Units) :
    ∀ r head inserted ops, Decidable (cutsHarmless list draft r head inserted ops)
  | _, _, _, [] => inferInstanceAs (Decidable (_ = _))
  | r, head, inserted, op :: ops => by
    unfold cutsHarmless
    have hrest := fun r head inserted => decidableCutsHarmless list draft r head inserted ops
    cases op.kind with
    | equal => exact inferInstanceAs (Decidable (_ ∧ _))
    | delete => exact hrest _ _ _
    | insert => exact hrest _ _ _

instance (raw draft : Units) : Decidable (CutsHarmless raw draft) :=
  decidableCutsHarmless _ _ _ _ _ _

section Writing

variable {list : List Piece} {draft : Units}

theorem slice_self (text : Units) (i : Nat) : slice text i i = [] := by
  rw [slice, drop_eq_nil_iff, length_take]
  exact Nat.min_le_left _ _

/-- **What is written is read like the edited text.** The induction is on the edits; the reading is
that of the pieces before the one that the last unchanged stretch has cut. -/
theorem readFrom_writeOps (hreads : ∀ piece ∈ list, piece.Reads) {ops : List Op} {start : Nat}
    {head inserted : Units} {r last : Reading}
    (hcovers : Covers (list.flatMap shown) draft start ops draft.length)
    (hcuts : cutsHarmless list draft (some r) head inserted ops)
    (hread : readFrom (some r) (head ++ inserted ++ slice draft start draft.length) = some last) :
    readFrom (some r) (inserted ++ ops.flatMap (writeOp (list.flatMap raw) draft
      (offsetsFrom 0 list ++ [(list.flatMap raw).length]))) = some last := by
  induction ops generalizing start head inserted r with
  | nil =>
    obtain rfl : start = draft.length := hcovers
    rw [slice_self, append_nil] at hread
    have hcuts : readFrom (some r) (head ++ inserted) = readFrom (some r) inserted := hcuts
    rw [hcuts] at hread
    rwa [flatMap_nil, append_nil]
  | cons op ops ih =>
    obtain ⟨kind, aFrom, aTo, bFrom, bTo⟩ := op
    obtain ⟨hfrom, ⟨ha, hlength, hb, hlength', hsame⟩, hrest⟩ := hcovers
    simp only at hfrom ha hlength hb hlength' hsame hrest
    subst hfrom
    rw [← slice_append hb hlength'] at hread
    rw [flatMap_cons]
    cases kind with
    | delete =>
      subst hsame
      rw [slice_self] at hread
      exact ih hrest hcuts hread
    | insert =>
      have hwritten := ih hrest hcuts (by
        rw [← hread]
        simp only [append_assoc])
      rw [append_assoc] at hwritten
      exact hwritten
    | equal =>
      obtain ⟨halike, hcuts⟩ := hcuts
      rw [← hsame, readFrom_append, halike, ← readFrom_append] at hread
      -- the stretch completes the piece that was cut before it, and cuts the last one it reaches
      have htext : inserted ++ headOf list aFrom ++
          (slice (list.flatMap shown) aFrom aTo ++ slice draft bTo draft.length) =
          (inserted ++ (between list aFrom aTo).flatMap shown) ++
            (headOf list aTo ++ slice draft bTo draft.length) := by
        rw [append_assoc, ← append_assoc (headOf list aFrom), headOf_append_slice ha hlength]
        simp only [append_assoc]
      rw [htext] at hread
      obtain ⟨middle, hmiddle, hlater⟩ := exists_readFrom hread
      rw [hmiddle] at hcuts
      have hwritten := ih hrest hcuts (by rwa [append_nil])
      obtain ⟨first, hfirst, hpieces⟩ := exists_readFrom hmiddle
      -- whole pieces are copied from the file, and read as they are shown
      have hraw := readFrom_raw (fun piece hpiece =>
        hreads piece (mem_of_mem_between hpiece)) hpieces
      have hwrite : writeOp (list.flatMap raw) draft
          (offsetsFrom 0 list ++ [(list.flatMap raw).length]) ⟨.equal, aFrom, aTo, bFrom, bTo⟩ =
          (between list aFrom aTo).flatMap raw := slice_raw ha hlength
      rw [hwrite, readFrom_append, hfirst, readFrom_append, hraw]
      exact hwritten

end Writing

theorem readFrom_mapDisplayToRaw {raw draft : Units} {last : Reading}
    (hcuts : CutsHarmless raw draft)
    (hread : readFrom (some {}) draft = some last) :
    readFrom (some {}) (mapDisplayToRaw raw draft) = some last := by
  have hreads : ∀ piece ∈ pieces raw, piece.Reads := fun piece => reads_of_mem_pieces
  unfold mapDisplayToRaw
  simp only
  split
  · next hshown =>
    rw [hshown] at hread
    have hraw := readFrom_raw hreads hread
    rwa [pieces_raw] at hraw
  · have hslice : slice draft 0 draft.length = draft := by
      rw [slice, take_length, drop_zero]
    have hwritten := readFrom_writeOps hreads (covers_diffText _ draft) hcuts (by
      rw [hslice]
      exact hread)
    rw [pieces_raw, nil_append] at hwritten
    exact hwritten

/-- **What is saved has the value of the edited text**, when no edit does harm by cutting an escape;
and an unedited text is saved as it was. -/
theorem saves_of_cutsHarmless {raw draft : Units} {value : Tree} (hdraft : parse draft = some value)
    (hcuts : CutsHarmless raw draft) :
    parse (mapDisplayToRaw raw draft) = some value ∧
      mapDisplayToRaw raw (decodeJsonSource raw).display = raw := by
  constructor
  · obtain ⟨last, hlast⟩ := exists_readFrom_of_parse hdraft
    rw [parse_congr ((readFrom_mapDisplayToRaw hcuts hlast).trans hlast.symm)]
    exact hdraft
  · exact if_pos rfl

/-- The text `["\u00e9\n",30]`. -/
def shownNumber : Units := units "[\"\\u00e9\\n\",30]"

/-- It is shown with the character, and a digit is edited. -/
def editedNumber : Units := units "[\"é\\n\",31]"

theorem saves_editedNumber :
    parse (mapDisplayToRaw shownNumber editedNumber) =
        some (.array [.string [233, 10], .number [51, 49]]) ∧
      mapDisplayToRaw shownNumber (decodeJsonSource shownNumber).display = shownNumber :=
  saves_of_cutsHarmless (by rfl) (by decide +kernel)

/-- The text `"a\nb"`, and its line feed edited to a tabulator: the backslash is lost. -/
theorem not_saves_editedEscape : parse (units "\"a\\nb\"") = some (.string [97, 10, 98]) ∧
      parse (units "\"a\\tb\"") = some (.string [97, 9, 98]) ∧
      parse (mapDisplayToRaw (units "\"a\\nb\"") (units "\"a\\tb\"")) =
        some (.string [97, 116, 98]) := by
  refine ⟨by rfl, by rfl, ?_⟩
  have hsaved : mapDisplayToRaw (units "\"a\\nb\"") (units "\"a\\tb\"") =
      units "\"atb\"" := by decide +kernel
  rw [hsaved]
  rfl

end Dbx.JsonEditor
