import Dbx.Diff.Myers
import Dbx.JsonEditor.Grammar

/-!
# The decoded view of a JSON text

An editor shows a JSON text with the unicode escapes in its strings replaced by the characters they
stand for, where these are beyond ASCII. The text is cut into pieces, each with what is shown for
it. When an edited text is saved, it is compared with what was shown: what is unchanged is taken
from the raw text, by the offsets at which its pieces begin, and what is inserted is kept.
-/

namespace Dbx.JsonEditor

/-! ## Decoding -/

/-- A piece of a text, and what is shown for it. -/
structure Piece where
  raw : Units
  shown : Units
  deriving DecidableEq, Repr

def Piece.copied (text : Units) : Piece := ⟨text, text⟩

/-- The value of four hexadecimal digits. -/
def parseHex : Units → Option Nat
  | [a, b, c, d] => do
    let a ← hexDigit a
    let b ← hexDigit b
    let c ← hexDigit c
    let d ← hexDigit d
    return ((a * 16 + b) * 16 + c) * 16 + d
  | _ => none

/-- `String.fromCodePoint`. -/
def fromCodePoint (code : Nat) : Units :=
  if code < 0x10000 then [UInt16.ofNat code]
  else [UInt16.ofNat (0xd800 + (code - 0x10000) / 0x400),
    UInt16.ofNat (0xdc00 + (code - 0x10000) % 0x400)]

/-- The low surrogate that the text escapes. -/
def lowSurrogate (text : Units) : Option Nat :=
  match text with
  | 92 :: 117 :: digits => (parseHex digits).filter fun low => 0xdc00 ≤ low ∧ low ≤ 0xdfff
  | _ => none

/-- The piece of a unicode escape: its text, its code, and what follows it. -/
def unicodePiece (escape : Units) (code : Nat) (low : Units) : Piece :=
  match if 0xd800 ≤ code ∧ code ≤ 0xdbff then lowSurrogate low else none with
  | some value =>
    ⟨escape ++ low, fromCodePoint (0x10000 + (code - 0xd800) * 0x400 + (value - 0xdc00))⟩
  | none =>
    if 0xd800 ≤ code ∧ code ≤ 0xdfff then .copied escape
    else if 0x80 ≤ code then ⟨escape, [UInt16.ofNat code]⟩
    else .copied escape

/-- The piece behind a backslash in a string. -/
def escapePiece (c : UInt16) : Units → Piece
  | [] => .copied [c]
  | next :: rest =>
    match if next = 117 then parseHex (rest.take 4) else none with
    | none => .copied [c, next]
    | some code => unicodePiece (c :: next :: rest.take 4) code ((rest.drop 4).take 6)

/-- The piece at a unit, and whether a string goes on behind it. -/
def pieceAt (inString : Bool) (c : UInt16) (rest : Units) : Piece × Bool :=
  if !inString then (.copied [c], c = 34)
  else if c = 34 then (.copied [c], false)
  else if c = 92 then (escapePiece c rest, true)
  else (.copied [c], true)

/-- The pieces of a text of which a number of units is taken already. -/
def piecesFrom : Bool → Nat → Units → List Piece
  | _, _, [] => []
  | inString, skip + 1, _ :: rest => piecesFrom inString skip rest
  | inString, 0, c :: rest =>
    let next := pieceAt inString c rest
    next.1 :: piecesFrom next.2 (next.1.raw.length - 1) rest

def pieces (text : Units) : List Piece := piecesFrom false 0 text

/-- The offsets of what is shown: each unit is said to begin with its piece. -/
def offsetsFrom : Nat → List Piece → List Nat
  | _, [] => []
  | start, piece :: rest =>
    piece.shown.map (fun _ => start) ++ offsetsFrom (start + piece.raw.length) rest

/-- `JsonUnicodeDecodedSource`. -/
structure DecodedSource where
  display : Units
  displayToRaw : List Nat
  deriving DecidableEq, Repr

/-- `decodeJsonSource`. -/
def decodeJsonSource (text : Units) : DecodedSource :=
  ⟨(pieces text).flatMap Piece.shown, offsetsFrom 0 (pieces text) ++ [text.length]⟩

/-! ## Differences -/

def isHighSurrogate (c : UInt16) : Bool := 0xd800 ≤ c && c ≤ 0xdbff

def isLowSurrogate (c : UInt16) : Bool := 0xdc00 ≤ c && c ≤ 0xdfff

/-- `splitCodePoints`. -/
def splitCodePoints : Units → List Units
  | [] => []
  | [c] => [[c]]
  | c :: d :: rest =>
    if isHighSurrogate c && isLowSurrogate d then [c, d] :: splitCodePoints rest
    else [c] :: splitCodePoints (d :: rest)

/-- `offsets`: where a code point begins. -/
def offset (points : List Units) (index : Nat) : Nat := (points.take index).flatten.length

/-- `MAX_DIFF_UNITS`. -/
def maxDiffUnits : Nat := 200000

/-- `MAX_DIFF_DISTANCE`. -/
def maxDiffDistance : Nat := 2000

open Diff List

/-- The edits of the middle, when what both texts begin and end with is taken away. -/
def middleOps (source target : List Units) (start sourceEnd targetEnd : Nat) : List Op :=
  let midA := slice source start sourceEnd
  let midB := slice target start targetEnd
  if midA = [] ∧ midB = [] then []
  else
    match if midA.length + midB.length ≤ maxDiffUnits then myersDiff maxDiffDistance midA midB
      else none with
    | none => [⟨.delete, start, sourceEnd, start, start⟩, ⟨.insert, start, start, start, targetEnd⟩]
    | some ops => ops.map fun op =>
        ⟨op.kind, start + op.aFrom, start + op.aTo, start + op.bFrom, start + op.bTo⟩

/-- The edits, by code points. -/
def pointOps (source target : List Units) : List Op :=
  let start := commonPrefix source target
  let same := commonPrefix (source.drop start).reverse (target.drop start).reverse
  let sourceEnd := source.length - same
  let targetEnd := target.length - same
  (if 0 < start then [⟨.equal, 0, start, 0, start⟩] else []) ++
    middleOps source target start sourceEnd targetEnd ++
    (if 0 < same then [⟨.equal, sourceEnd, source.length, targetEnd, target.length⟩] else [])

/-- An edit by units. -/
def scale (source target : List Units) (op : Op) : Op :=
  ⟨op.kind, offset source op.aFrom, offset source op.aTo, offset target op.bFrom,
    offset target op.bTo⟩

/-- `diffText`. -/
def diffText (a b : Units) : List Op :=
  let source := splitCodePoints a
  let target := splitCodePoints b
  (pointOps source target).map (scale source target)

/-! ## Saving -/

/-- What is written for an edit. -/
def writeOp (raw draft : Units) (displayToRaw : List Nat) (op : Op) : Units :=
  match op.kind with
  | .equal => slice raw (displayToRaw.getD op.aFrom 0) (displayToRaw.getD op.aTo 0)
  | .delete => []
  | .insert => slice draft op.bFrom op.bTo

/-- `mapDisplayToRaw`. -/
def mapDisplayToRaw (raw draft : Units) : Units :=
  let decoded := decodeJsonSource raw
  if draft = decoded.display then raw
  else (diffText decoded.display draft).flatMap (writeOp raw draft decoded.displayToRaw)

/-! ## The pieces of a text -/

theorem unicodePiece_raw {escape low : Units} {code : Nat} :
    (unicodePiece escape code low).raw <+: escape ++ low ∧
      escape <+: (unicodePiece escape code low).raw := by
  unfold unicodePiece
  split
  · exact ⟨prefix_rfl, prefix_append escape low⟩
  · split
    · exact ⟨prefix_append escape low, prefix_rfl⟩
    · split
      · exact ⟨prefix_append escape low, prefix_rfl⟩
      · exact ⟨prefix_append escape low, prefix_rfl⟩

/-- A piece is the beginning of the text from its unit on. -/
theorem pieceAt_raw (inString : Bool) (c : UInt16) (rest : Units) :
    ∃ more, (pieceAt inString c rest).1.raw = c :: more ∧ more <+: rest := by
  have hone : ∃ more, (Piece.copied [c]).raw = c :: more ∧ more <+: rest :=
    ⟨[], rfl, nil_prefix⟩
  unfold pieceAt
  split
  · exact hone
  split
  · exact hone
  split
  · unfold escapePiece
    split
    · exact hone
    next next rest =>
    split
    · exact ⟨[next], rfl, ⟨rest, rfl⟩⟩
    next code hcode =>
    -- an escape of four digits takes the second half of a pair with it
    obtain ⟨⟨later, hlater⟩, ⟨low, hlow⟩⟩ := @unicodePiece_raw (c :: next :: rest.take 4)
      ((rest.drop 4).take 6) code
    refine ⟨next :: rest.take 4 ++ low, ?_, ?_⟩
    · rw [← hlow]
      rfl
    · rw [← hlow, append_assoc] at hlater
      obtain ⟨-, hrest⟩ := append_inj hlater rfl
      refine ⟨later ++ (rest.drop 4).drop 6, ?_⟩
      have hsplit : rest = rest.take 4 ++ ((rest.drop 4).take 6 ++ (rest.drop 4).drop 6) := by
        rw [take_append_drop, take_append_drop]
      nth_rewrite 3 [hsplit]
      rw [← hrest]
      simp
  · exact hone

/-- **The pieces are the text.** -/
theorem piecesFrom_raw (inString : Bool) (skip : Nat) (text : Units) :
    (piecesFrom inString skip text).flatMap Piece.raw = text.drop skip := by
  induction text generalizing inString skip with
  | nil => cases skip <;> rfl
  | cons c rest ih =>
    cases skip with
    | succ skip => exact ih inString skip
    | zero =>
      obtain ⟨more, hraw, ⟨later, rfl⟩⟩ := pieceAt_raw inString c rest
      rw [piecesFrom, flatMap_cons, ih, hraw]
      simp

theorem pieces_raw (text : Units) : (pieces text).flatMap Piece.raw = text :=
  piecesFrom_raw false 0 text

/-! ## The differences cover the text -/

theorem flatten_splitCodePoints (text : Units) : (splitCodePoints text).flatten = text := by
  induction text using splitCodePoints.induct with
  | case1 | case2 c => rfl
  | case3 c d rest hpair ih =>
    rw [splitCodePoints, if_pos hpair, flatten_cons, ih]
    rfl
  | case4 c d rest hpair ih =>
    rw [splitCodePoints, if_neg hpair, flatten_cons, ih]
    rfl

variable (points : List Units)

theorem take_offset (index : Nat) :
    points.flatten.take (offset points index) = (points.take index).flatten := by
  have hsplit : points.flatten = (points.take index).flatten ++ (points.drop index).flatten := by
    rw [← flatten_append, take_append_drop]
  rw [hsplit]
  exact take_left' rfl

theorem offset_le (index : Nat) : offset points index ≤ points.flatten.length := by
  have hsplit : points.flatten = (points.take index).flatten ++ (points.drop index).flatten := by
    rw [← flatten_append, take_append_drop]
  rw [hsplit, length_append]
  exact Nat.le_add_right _ _

theorem take_eq_take_append_slice {points : List Units} {i j : Nat} (h : i ≤ j) :
    points.take j = points.take i ++ slice points i j := by
  have htake : points.take i = (points.take j).take i := by
    rw [take_take, Nat.min_eq_left h]
  rw [htake]
  exact (take_append_drop i (points.take j)).symm

theorem offset_mono {i j : Nat} (h : i ≤ j) : offset points i ≤ offset points j := by
  unfold offset
  rw [take_eq_take_append_slice h, flatten_append, length_append]
  exact Nat.le_add_right _ _

theorem slice_offset {i j : Nat} (h : i ≤ j) :
    slice points.flatten (offset points i) (offset points j) = (slice points i j).flatten := by
  rw [slice, take_offset, take_eq_take_append_slice h, flatten_append]
  exact drop_left' rfl

theorem fits_scale {source target : List Units} {op : Op} (h : op.Fits source target) :
    (scale source target op).Fits source.flatten target.flatten := by
  obtain ⟨kind, aFrom, aTo, bFrom, bTo⟩ := op
  obtain ⟨ha, -, hb, -, hsame⟩ := h
  refine ⟨offset_mono source ha, offset_le source aTo, offset_mono target hb,
    offset_le target bTo, ?_⟩
  cases kind with
  | equal =>
    simp only [scale] at hsame ⊢
    rw [slice_offset source ha, slice_offset target hb, hsame]
  | delete => exact congrArg (offset target) hsame
  | insert => exact congrArg (offset source) hsame

section Points

variable {source target : List Units} {start sourceEnd targetEnd : Nat}

/-- The edits of the middle lead over it. -/
theorem spans_middleOps (hstart : commonPrefix (source.drop start) (target.drop start) = 0)
    (hsource : sourceEnd ≤ source.length) (htarget : targetEnd ≤ target.length)
    (ha : start ≤ sourceEnd) (hb : start ≤ targetEnd) :
    Spans source target (start, start) (middleOps source target start sourceEnd targetEnd)
      (sourceEnd, targetEnd) := by
  unfold middleOps
  simp only
  split
  · next hempty =>
    have hlength := congrArg List.length hempty.1
    have hlength' := congrArg List.length hempty.2
    rw [length_slice hsource, length_nil] at hlength
    rw [length_slice htarget, length_nil] at hlength'
    exact Prod.ext (by omega) (by omega)
  · split
    · -- the search gave up: the middle is deleted and inserted as a whole
      refine ⟨fun _ => rfl, rfl, ⟨ha, hsource, le_rfl, hb.trans htarget, rfl⟩,
        fun h => absurd rfl h, rfl, ?_, rfl⟩
      exact ⟨le_rfl, ha.trans hsource, hb, htarget, rfl⟩
    · next ops hops =>
      split at hops
      · have hmid : commonPrefix (slice source start sourceEnd) (slice target start targetEnd) =
            0 := by
          rw [slice, slice, drop_take, drop_take]
          exact commonPrefix_take hstart _ _
        have hspans := (myersDiff_script hmid hops).spans
        rw [length_slice hsource, length_slice htarget] at hspans
        -- the edits were found in the middle, and count from its start
        have hshift := hspans.map (g := (start + ·)) (k := (start + ·)) fun op hop =>
          ⟨hop.shift hsource htarget ha hb, rfl⟩
        rwa [Prod.map_apply, Prod.map_apply, Nat.add_sub_cancel' ha,
          Nat.add_sub_cancel' hb] at hshift
      · cases hops

theorem drop_eq_drop_of_reverse {same : Nat} (hsource : start + same ≤ source.length)
    (htarget : start + same ≤ target.length)
    (h : (source.drop start).reverse.take same = (target.drop start).reverse.take same) :
    source.drop (source.length - same) = target.drop (target.length - same) := by
  rw [take_reverse, take_reverse, reverse_inj, drop_drop, drop_drop, length_drop, length_drop] at h
  have hleft : start + (source.length - start - same) = source.length - same := by omega
  have hright : start + (target.length - start - same) = target.length - same := by omega
  rwa [hleft, hright] at h

/-- The edits by code points lead over both texts. -/
theorem spans_pointOps (source target : List Units) :
    Spans source target (0, 0) (pointOps source target) (source.length, target.length) := by
  unfold pointOps
  simp only
  have hprefix := take_commonPrefix source target
  obtain ⟨ha, hb⟩ := commonPrefix_le source target
  have hdrop := commonPrefix_drop source target
  generalize commonPrefix source target = start at *
  have hsuffix := take_commonPrefix (source.drop start).reverse (target.drop start).reverse
  obtain ⟨ha', hb'⟩ := commonPrefix_le (source.drop start).reverse (target.drop start).reverse
  generalize commonPrefix (source.drop start).reverse (target.drop start).reverse = same at *
  rw [length_reverse, length_drop] at ha' hb'
  have hends := drop_eq_drop_of_reverse (by omega) (by omega) hsuffix
  have hfirst : Spans source target (0, 0)
      (if 0 < start then [⟨.equal, 0, start, 0, start⟩] else []) (start, start) := by
    split
    · exact (Script.singleton ⟨Nat.zero_le _, ha, Nat.zero_le _, hb, hprefix⟩).spans
    · exact Prod.ext (by omega) (by omega)
  have hmiddle : Spans source target (start, start)
      (middleOps source target start (source.length - same) (target.length - same))
      (source.length - same, target.length - same) :=
    spans_middleOps hdrop (by omega) (by omega) (by omega) (by omega)
  refine (hfirst.append hmiddle).append ?_
  split
  · refine (Script.singleton ⟨Nat.sub_le _ _, le_rfl, Nat.sub_le _ _, le_rfl, ?_⟩).spans
    simp only [slice, take_length]
    exact hends
  · exact Prod.ext (by omega) (by omega)

end Points

/-- **The differences lead over both texts.** -/
theorem spans_diffText (a b : Units) : Spans a b (0, 0) (diffText a b) (a.length, b.length) := by
  have hlast (text : Units) :
      offset (splitCodePoints text) (splitCodePoints text).length = text.length := by
    rw [offset, take_length, flatten_splitCodePoints]
  have hspans := (spans_pointOps (splitCodePoints a) (splitCodePoints b)).map
    (g := offset (splitCodePoints a)) (k := offset (splitCodePoints b)) fun op hop =>
      ⟨fits_scale hop, rfl⟩
  rwa [Prod.map_apply, Prod.map_apply, hlast, hlast, flatten_splitCodePoints,
    flatten_splitCodePoints] at hspans

theorem covers_diffText (a b : Units) : Covers a b 0 (diffText a b) b.length :=
  (spans_diffText a b).covers

/-- **The differences are exact**: what they keep and delete is the first text, what they keep and
insert is the second, and what they keep is in both. -/
theorem diffText_exact (a b : Units) :
    (diffText a b).flatMap (fun op =>
        if op.kind = .insert then [] else slice a op.aFrom op.aTo) = a ∧
      (diffText a b).flatMap (fun op =>
        if op.kind = .delete then [] else slice b op.bFrom op.bTo) = b ∧
      ∀ op ∈ diffText a b, op.kind = .equal →
        slice a op.aFrom op.aTo = slice b op.bFrom op.bTo := by
  obtain ⟨-, -, hkept, hwritten, hfits⟩ := (spans_diffText a b).parts
  rw [hkept, hwritten, slice, slice, take_length, take_length]
  refine ⟨rfl, rfl, fun op hop hkind => ?_⟩
  obtain ⟨-, -, -, -, hsame⟩ := hfits op hop
  rwa [hkind] at hsame

end Dbx.JsonEditor
