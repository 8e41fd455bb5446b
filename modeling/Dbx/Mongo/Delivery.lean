import Dbx.Mongo.Batches
import Dbx.Mongo.RoundTrip

/-!
# Delivery of an archive

An archive that is streamed without an error is a sequence of segments, each behind a header that
names a collection of the prelude; the segments of several collections may alternate. Each
collection has one last header, behind all its segments, with the checksum of its documents.

## Main definitions

* `Segment`, `Explains`: an archive as segments
* `Sound`: the segments agree with the digests and the last headers

## Main results

* `streamLoop_spec`: a stream without an error is explained by segments
* `Sound.exists_last`: each collection has one last header, with its checksum
* `archive_roundTrip`: what is packed is streamed back, and what is delivered is what the archive
  holds
-/

namespace Dbx.Mongo

open Text List

variable {C : Codec}

/-- A segment of documents, or the last header of a collection. -/
inductive Segment
  | data (header : Bytes) (index : Nat) (documents : List Bytes)
  | last (header : Bytes) (index : Nat) (checksum : UInt64)
  deriving DecidableEq, Repr

namespace Segment

/-- The collection. -/
def index : Segment → Nat
  | .data _ index _ => index
  | .last _ index _ => index

/-- It is the last header of a collection. -/
def isLast : Segment → Bool
  | .data _ _ _ => false
  | .last _ _ _ => true

/-- The documents of a collection. -/
def documentsOf (collection : Nat) : Segment → List Bytes
  | .data _ index documents => if index = collection then documents else []
  | .last _ _ _ => []

/-- The frames of the archive. -/
def frames : Segment → List Frame
  | .data header _ documents => .document header :: documents.map .document ++ [.terminator]
  | .last header _ _ => [.document header, .terminator]

/-- The events of the stream. -/
def events (target : Nat → Nat) : Segment → List StreamEvent
  | .data _ index documents => documents.map (.document (target index))
  | .last _ index _ => [.ended (target index)]

end Segment

/-- The header names the collection. -/
def Names (catalog : Catalog C) (header : Document) (index : Nat) : Prop :=
  ∃ database name, header.getStr "db" = some database ∧ header.getStr "collection" = some name ∧
    catalog.find C (database, name) = some index

/-- What the header of a segment says. -/
def Segment.Headed (catalog : Catalog C) : Segment → Prop
  | .data bytes index _ => ∃ header, C.fromSlice bytes = .ok header ∧ Names catalog header index ∧
      header.getBool "EOF" = some false
  | .last bytes index checksum => ∃ header crc, C.fromSlice bytes = .ok header ∧
      Names catalog header index ∧ header.getBool "EOF" = some true ∧
      header.getI64 "CRC" = some crc ∧ crc.toUInt64 = checksum

def closed (list : List Frame) : Frames := list.foldr .next .done

def Progress.close (progress : Progress C) (index : Nat) : Progress C :=
  { progress with finished := fun i => i = index || progress.finished i }

/-- The segments agree with the digests, no segment follows the last header of its collection, and
no last header is missing. -/
def Sound (catalog : Catalog C) : Progress C → List Segment → Prop
  | progress, [] => ∀ index, index < catalog.entries.length → progress.finished index = true
  | progress, .data _ index documents :: segments => progress.finished index = false ∧
      Sound catalog (progress.setDigest index (documents.foldl C.update (progress.digests index)))
        segments
  | progress, .last _ index checksum :: segments => progress.finished index = false ∧
      C.finalize (progress.digests index) = checksum ∧ Sound catalog (progress.close index) segments

open Segment

/-- The segments explain the frames and the events of a stream. -/
structure Explains (catalog : Catalog C) (progress : Progress C) (input : Frames)
    (events : List StreamEvent) (segments : List Segment) : Prop where
  input_eq : input = closed (segments.flatMap Segment.frames)
  headed : ∀ segment ∈ segments, segment.Headed catalog
  events_eq : events = segments.flatMap (Segment.events (catalog.target C))
  sound : Sound catalog progress segments

/-! ## What one frame does -/

/-- What a step of the stream can be. -/
inductive StepSpec (catalog : Catalog C) (progress : Progress C) :
    Mode → Frame → Mode → Progress C → List StreamEvent → Prop
  | opens {bytes : Bytes} {header : Document} {index : Nat} (hread : C.fromSlice bytes = .ok header)
      (hnames : Names catalog header index) (hopen : progress.finished index = false)
      (heof : header.getBool "EOF" = some false) :
      StepSpec catalog progress .header (.document bytes) (.segment index) progress []
  | announces {bytes : Bytes} {header : Document} {index : Nat} {crc : Int64}
      (hread : C.fromSlice bytes = .ok header) (hnames : Names catalog header index)
      (hopen : progress.finished index = false) (heof : header.getBool "EOF" = some true)
      (hcrc : header.getI64 "CRC" = some crc) :
      StepSpec catalog progress .header (.document bytes) (.closing index crc.toUInt64) progress []
  | closes {index : Nat} {checksum : UInt64}
      (hchecksum : C.finalize (progress.digests index) = checksum) :
      StepSpec catalog progress (.closing index checksum) .terminator .header (progress.close index)
        [.ended (catalog.target C index)]
  | reads {index : Nat} {bytes : Bytes} :
      StepSpec catalog progress (.segment index) (.document bytes) (.segment index)
        (progress.setDigest index (C.update (progress.digests index) bytes))
        [.document (catalog.target C index) bytes]
  | leaves {index : Nat} :
      StepSpec catalog progress (.segment index) .terminator .header progress []

variable {header : Document} {rest : Frames} {count : Nat}

section Stream

variable {catalog : Catalog C} {progress progress' : Progress C} {mode mode' : Mode} {frame : Frame}
  {events : List StreamEvent}

theorem stringOf_ok {key : String} {text : Text}
    (h : stringOf header key = .ok text) : header.getStr key = some text := by
  unfold stringOf at h
  split at h <;> cases h
  next found hfound =>
    exact hfound

theorem openSegment_ok {index : Nat} {eof : Bool} {checksum : UInt64}
    (h : openSegment C catalog progress header = .ok (index, eof, checksum)) :
    Names catalog header index ∧ progress.finished index = false ∧ header.getBool "EOF" = some eof ∧
      ∃ crc, header.getI64 "CRC" = some crc ∧ crc.toUInt64 = checksum := by
  obtain ⟨database, hdatabase, h⟩ := bind_eq_ok_iff.mp h
  obtain ⟨name, hname, h⟩ := bind_eq_ok_iff.mp h
  split at h
  · cases h
  next found hfind =>
  split at h
  · cases h
  next hopen =>
  obtain ⟨kind, hkind, h⟩ := bind_eq_ok_iff.mp h
  cases h
  unfold headerKind at hkind
  split at hkind
  · cases hkind
  · cases hkind
  next eof' crc heof hcrc =>
  split at hkind <;> cases hkind
  exact ⟨⟨database, name, stringOf_ok hdatabase, stringOf_ok hname, hfind⟩,
    Bool.eq_false_iff.mpr hopen, heof, crc, hcrc, rfl⟩

/-- **What one frame does.** -/
theorem streamStep_spec (h : streamStep C catalog progress mode frame =
    .ok (mode', progress', events)) :
    StepSpec catalog progress mode frame mode' progress' events := by
  cases mode with
  | header =>
    simp only [streamStep] at h
    simp only [bind_eq_ok_iff] at h
    obtain ⟨-, -, header, hheader, ⟨index, eof, checksum⟩, hsegment, h⟩ := h
    -- a header opens a segment, or announces the end of its collection
    obtain ⟨hnames, hopen, heof, crc, hcrc, rfl⟩ := openSegment_ok hsegment
    cases frame with
    | terminator => cases hheader
    | document bytes =>
      cases eof with
      | true =>
        cases h
        exact .announces hheader hnames hopen heof hcrc
      | false =>
        cases h
        exact .opens hheader hnames hopen heof
  | closing index checksum =>
    cases frame with
    | terminator =>
      obtain ⟨_, hclose, h⟩ := bind_eq_ok_iff.mp h
      cases h
      unfold closeSegment at hclose
      split at hclose
      · next hchecksum => exact .closes hchecksum
      · cases hclose
    | document bytes =>
      obtain ⟨_, -, h⟩ := bind_eq_ok_iff.mp h
      cases h
  | segment index =>
    cases frame with
    | terminator =>
      cases h
      exact .leaves
    | document bytes =>
      simp only [streamStep] at h
      split at h <;> cases h
      exact .reads

/-! ## What a whole stream does -/

/-- What a stream without an error is, where the loops stand. -/
def Spec (catalog : Catalog C) (progress : Progress C) (input : Frames)
    (events : List StreamEvent) :
    Mode → Prop
  | .header => ∃ segments, Explains catalog progress input events segments
  | .segment index => ∃ (documents : List Bytes) (rest : Frames) (later : List StreamEvent)
      (segments : List Segment),
      input = (documents.map Frame.document).foldr .next (.next .terminator rest) ∧
      events = documents.map (.document (catalog.target C index)) ++ later ∧
      Explains catalog
        (progress.setDigest index (documents.foldl C.update (progress.digests index))) rest later
        segments
  | .closing index checksum => ∃ rest later segments, input = .next .terminator rest ∧
      events = .ended (catalog.target C index) :: later ∧
      C.finalize (progress.digests index) = checksum ∧
      Explains catalog (progress.close index) rest later segments

/-- The stream ends behind the last header of each collection. -/
theorem missing_ok (h : missing C catalog progress = .ok ()) :
    ∀ index, index < catalog.entries.length → progress.finished index := by
  unfold missing at h
  split at h
  · cases h
  next hnone =>
  intro index hindex
  rw [find?_eq_none] at hnone
  have hmem : (catalog.entries[index], index) ∈ catalog.entries.zipIdx :=
    mk_mem_zipIdx_iff_getElem?.mpr (getElem?_eq_getElem hindex)
  simpa using hnone _ hmem

/-- A step, and what the rest of the stream is. -/
theorem StepSpec.spec {later : List StreamEvent}
    (hstep : StepSpec catalog progress mode frame mode' progress' events)
    (hrest : Spec catalog progress' rest later mode') :
    Spec catalog progress (.next frame rest) (events ++ later) mode := by
  cases hstep with
  | @opens bytes header index hread hnames hopen heof =>
    obtain ⟨documents, rest, later, segments, rfl, rfl, hexplains⟩ := hrest
    refine ⟨.data bytes index documents :: segments, ?_, ?_, ?_, hopen, hexplains.sound⟩
    · simp [hexplains.input_eq, closed, Segment.frames]
    · exact forall_mem_cons.mpr ⟨⟨_, hread, hnames, heof⟩, hexplains.headed⟩
    · simp [hexplains.events_eq, Segment.events]
  | @announces bytes header index crc hread hnames hopen heof hcrc =>
    obtain ⟨rest, later, segments, rfl, rfl, hchecksum, hexplains⟩ := hrest
    refine ⟨.last bytes index crc.toUInt64 :: segments, ?_, ?_, ?_, hopen, hchecksum,
      hexplains.sound⟩
    · simp [hexplains.input_eq, closed, Segment.frames]
    · exact forall_mem_cons.mpr ⟨⟨_, _, hread, hnames, heof, hcrc, rfl⟩, hexplains.headed⟩
    · simp [hexplains.events_eq, Segment.events]
  | closes hchecksum =>
    obtain ⟨segments, hexplains⟩ := hrest
    exact ⟨rest, later, segments, rfl, rfl, hchecksum, hexplains⟩
  | @reads index bytes =>
    obtain ⟨documents, rest, later, segments, rfl, rfl, hexplains⟩ := hrest
    rw [setDigest_digests, setDigest_setDigest] at hexplains
    exact ⟨bytes :: documents, rest, later, segments, rfl, rfl, hexplains⟩
  | leaves =>
    obtain ⟨segments, hexplains⟩ := hrest
    refine ⟨[], rest, later, segments, rfl, rfl, ?_⟩
    rwa [foldl_nil, setDigest_self]

variable {check : Check}

/-- **A stream without an error is explained by segments.** -/
theorem streamLoop_spec {input : Frames}
    (h : streamLoop C catalog check count progress mode input = (events, .ok ())) :
    Spec catalog progress input events mode := by
  induction input generalizing count progress mode events with
  | done =>
    rw [Prod.mk.injEq] at h
    obtain ⟨rfl, h⟩ := h
    obtain ⟨_, -, h⟩ := bind_eq_ok_iff.mp h
    cases mode with
    | header => exact ⟨[], rfl, by simp, rfl, missing_ok h⟩
    | segment index | closing index checksum => cases h
  | failed e =>
    rw [Prod.mk.injEq] at h
    obtain ⟨-, h⟩ := h
    obtain ⟨_, -, h⟩ := bind_eq_ok_iff.mp h
    cases h
  | next frame rest ih =>
    rw [streamLoop] at h
    split at h
    · cases h
    next mode' progress' first hstep =>
    obtain ⟨_, -, hstep⟩ := bind_eq_ok_iff.mp hstep
    rw [Prod.mk.injEq] at h
    obtain ⟨rfl, hlater⟩ := h
    exact (streamStep_spec hstep).spec (ih (Prod.ext rfl hlater))

end Stream

variable {input : Bytes}

/-- The bytes of an input that ends behind its frames. -/
theorem bytes_of_closed {list : List Frame} (h : frames C input = closed list) :
    input = list.flatMap Frame.bytes := by
  induction list generalizing input with
  | nil => exact frames_eq_done h
  | cons frame list ih =>
    obtain ⟨rest, rfl, hrest, -⟩ := frames_eq_next h
    rw [ih hrest]
    rfl

/-! ## The last headers -/

section Sound

variable {catalog : Catalog C} {progress : Progress C} {segments : List Segment} {index : Nat}

/-- No segment follows the last header of its collection. -/
theorem Sound.none_after (h : Sound catalog progress segments)
    (hfinished : progress.finished index) : ∀ segment ∈ segments, segment.index ≠ index := by
  induction segments generalizing progress with
  | nil => simp
  | cons segment segments ih =>
    have hother : ∀ other, progress.finished other = false → other ≠ index := by
      rintro other hopen rfl
      rw [hfinished] at hopen
      cases hopen
    cases segment with
    | data header other documents =>
      exact forall_mem_cons.mpr ⟨hother other h.1, ih h.2 hfinished⟩
    | last header other checksum =>
      refine forall_mem_cons.mpr ⟨hother other h.1, ih h.2.2 ?_⟩
      show (decide (index = other) || progress.finished index)
      rw [hfinished, Bool.or_true]

/-- The one last header of a collection: what stands before it holds its documents, and nothing of
the collection stands behind it. -/
structure EndsWith (C : Codec) (segments : List Segment) (index : Nat) (digest : C.Digest)
    (before : List Segment) (header : Bytes) (checksum : UInt64) (after : List Segment) : Prop where
  split : segments = before ++ .last header index checksum :: after
  first : ∀ segment ∈ before, segment.isLast = true → segment.index ≠ index
  final : ∀ segment ∈ after, segment.index ≠ index
  checksum_eq : C.finalize ((before.flatMap (Segment.documentsOf index)).foldl C.update digest) =
    checksum

/-- **Each collection has one last header, with the checksum of its documents.** -/
theorem Sound.exists_last (h : Sound catalog progress segments)
    (hindex : index < catalog.entries.length) (hopen : progress.finished index = false) :
    ∃ before header checksum after,
      EndsWith C segments index (progress.digests index) before header checksum after := by
  induction segments generalizing progress with
  | nil =>
    have hfinished : progress.finished index := h index hindex
    rw [hopen] at hfinished
    cases hfinished
  | cons segment segments ih =>
    cases segment with
    | data header other documents =>
      -- the documents of the segment go into the checksum of their collection
      obtain ⟨before, header', checksum, after, hends⟩ := ih h.2 hopen
      refine ⟨.data header other documents :: before, header', checksum, after, ?_,
        forall_mem_cons.mpr ⟨nofun, hends.first⟩, hends.final, ?_⟩
      · rw [hends.split]
        rfl
      · rw [← hends.checksum_eq, flatMap_cons, foldl_append]
        congr 2
        by_cases heq : other = index
        · subst heq
          rw [setDigest_digests, Segment.documentsOf, if_pos rfl]
        · rw [Segment.documentsOf, if_neg heq]
          exact (if_neg (Ne.symm heq)).symm
    | last header other checksum =>
      by_cases heq : other = index
      · subst heq
        -- this header is the last one, and its collection has no segment behind it
        refine ⟨[], header, checksum, segments, rfl, by simp, ?_, h.2.1⟩
        refine h.2.2.none_after ?_
        show (decide (other = other) || progress.finished other)
        rw [decide_eq_true rfl, Bool.true_or]
      · have hopen' : (progress.close other).finished index = false := by
          show (decide (index = other) || progress.finished index) = false
          rw [hopen, Bool.or_false, decide_eq_false (Ne.symm heq)]
        obtain ⟨before, header', checksum', after, hends⟩ := ih h.2.2 hopen'
        refine ⟨.last header other checksum :: before, header', checksum', after, ?_,
          forall_mem_cons.mpr ⟨fun _ => heq, hends.first⟩, hends.final, ?_⟩
        · rw [hends.split]
          rfl
        · rw [← hends.checksum_eq]
          rfl

end Sound

/-! ## The prelude of an archive -/

theorem addEntry_ok {found found' : Prelude C} (h : addEntry C found header = .ok found') :
    ∃ entry, found'.entries = found.entries ++ [entry] ∧
      namespaceOf C entry ∉ found.entries.map (namespaceOf C) := by
  simp only [addEntry, bind_eq_ok_iff] at h
  obtain ⟨database, -, -, -, name, -, json, -, -, -, metadata, -, -, -, _, hname, -, -, _, hfresh,
    h⟩ := h
  cases h
  refine ⟨_, rfl, ?_⟩
  rw [require_eq_ok_iff, decide_eq_true_eq] at hname
  rw [require_eq_ok_iff, Bool.not_eq_true', Bool.eq_false_iff, Ne, contains_iff_mem] at hfresh
  rw [namespaceOf, hname]
  exact hfresh

/-- The loop over the prelude stops behind its terminator, with distinct collections. -/
theorem inspectLoop_ok {count count' : Nat} {found found' : Prelude C}
    {later rest : Frames} (hinput : frames C input = later)
    (hnodup : (found.entries.map (namespaceOf C)).Nodup)
    (h : inspectLoop C check count found later = .ok (found', count', rest)) :
    (∃ data, data <:+ input ∧ rest = frames C data) ∧
      (found'.entries.map (namespaceOf C)).Nodup := by
  induction later generalizing count found input with
  | done | failed e =>
    obtain ⟨_, -, h⟩ := bind_eq_ok_iff.mp h
    cases h
  | next frame later ih =>
    obtain ⟨data, rfl, hdata, -⟩ := frames_eq_next hinput
    cases frame with
    | terminator =>
      obtain ⟨_, -, h⟩ := bind_eq_ok_iff.mp h
      cases h
      exact ⟨⟨data, suffix_append _ _, hdata.symm⟩, hnodup⟩
    | document bytes =>
      simp only [inspectLoop, bind_eq_ok_iff] at h
      obtain ⟨-, -, -, -, header, -, next, hnext, h⟩ := h
      obtain ⟨entry, hentries, hfresh⟩ := addEntry_ok hnext
      have hnodup' : (next.entries.map (namespaceOf C)).Nodup := by
        rw [hentries, map_append, map_singleton, ← concat_eq_append]
        exact hnodup.concat hfresh
      obtain ⟨⟨data', hsuffix, hrest⟩, hlast⟩ := ih hdata hnodup' h
      exact ⟨⟨data', hsuffix.trans (suffix_append _ _), hrest⟩, hlast⟩

/-- **The prelude names distinct collections, and the data stand behind it.** -/
theorem inspect_ok {entries : List C.Collection}
    (h : inspect C check input = .ok (entries, count, rest)) :
    (∃ data, data <:+ input ∧ rest = frames C data) ∧ (entries.map (namespaceOf C)).Nodup := by
  simp only [inspect, bind_eq_ok_iff] at h
  obtain ⟨-, -, -, -, ⟨header, later⟩, hheader, -, -, ⟨found, count', rest'⟩, hloop, h⟩ := h
  cases h
  cases hframes : frames C (input.drop 4) with
  | done | failed e =>
    rw [hframes] at hheader
    cases hheader
  | next frame later' =>
    simp only [hframes, readDocument, bind_eq_ok_iff] at hheader
    obtain ⟨-, -, _, -, hheader⟩ := hheader
    cases hheader
    obtain ⟨data, hdata, hlater, -⟩ := frames_eq_next hframes
    obtain ⟨⟨data', hsuffix, hrest⟩, hnodup⟩ := inspectLoop_ok hlater (by simp) hloop
    refine ⟨⟨data', ?_, hrest⟩, hnodup⟩
    refine (hsuffix.trans ?_).trans (drop_suffix 4 input)
    rw [hdata]
    exact suffix_append _ _

/-! ## What the caller sees -/

/-- The collection of an event. -/
def StreamEvent.index : StreamEvent → Nat
  | .document index _ => index
  | .ended index => index

/-- The document of an event, for a collection. -/
def StreamEvent.documentsOf (collection : Nat) : StreamEvent → List Bytes
  | .document index bytes => if index = collection then [bytes] else []
  | .ended _ => []

/-- The collection of an event. -/
def Event.index : Event → Nat
  | .batch index _ => index
  | .ended index => index

/-- The documents of a batch, for a collection. -/
def Event.documentsOf (collection : Nat) : Event → List Bytes
  | .batch index documents => if index = collection then documents else []
  | .ended _ => []

/-- The events of a collection are its documents in their order, and then one end. -/
structure Streamed (events : List StreamEvent) (collection : Nat) (documents : List Bytes) :
    Prop where
  documents_eq : events.flatMap (StreamEvent.documentsOf collection) = documents
  ended : ∃ before after, events = before ++ .ended collection :: after ∧
    .ended collection ∉ before ∧ ∀ event ∈ after, event.index ≠ collection

/-- The batches of a collection hold its documents in their order, and its one end follows them. -/
structure Delivered (events : List Event) (collection : Nat) (documents : List Bytes) : Prop where
  documents_eq : events.flatMap (Event.documentsOf collection) = documents
  ended : ∃ before after, events = before ++ .ended collection :: after ∧
    .ended collection ∉ before ∧ ∀ event ∈ after, event.index ≠ collection

/-- The events of a segment, where some collections are sent to. -/
def Segment.routed (route : Nat → Option Nat) (segment : Segment) : List StreamEvent :=
  match route segment.index with
  | none => []
  | some collection => segment.events fun _ => collection

theorem Segment.events_eq_routed (target : Nat → Nat) (segment : Segment) :
    segment.events target = segment.routed fun index => some (target index) := by
  cases segment with
  | data header index documents | last header index checksum => rfl

/-- The selected events of a segment. -/
theorem Segment.filterMap_events (target : Nat → Nat) (indices : List (Option Nat))
    (segment : Segment) :
    (segment.events target).filterMap (select indices) =
      segment.routed fun index => (indices[target index]?).join := by
  unfold routed
  cases segment with
  | data header index documents | last header index checksum =>
    cases hroute : (indices[target index]?).join with
    | none | some collection =>
      simp [Segment.events, Segment.index, select, hroute, Function.comp_def]

variable {segment : Segment}

section Routed

variable {route : Nat → Option Nat} {segments : List Segment} {index collection : Nat}

/-- An event goes where its collection is sent to, and an end comes from a last header. -/
theorem Segment.mem_routed {event : StreamEvent} (h : event ∈ segment.routed route) :
    route segment.index = some event.index ∧ (event = .ended event.index → segment.isLast) := by
  unfold routed at h
  split at h
  · cases h
  next found hroute =>
  rw [hroute]
  cases segment with
  | data header other documents =>
    obtain ⟨bytes, -, rfl⟩ := mem_map.mp h
    refine ⟨rfl, ?_⟩
    intro hended
    cases hended
  | last header other checksum =>
    rw [mem_singleton.mp h]
    exact ⟨rfl, fun _ => rfl⟩

theorem Segment.documentsOf_of_ne (h : segment.index ≠ index) : segment.documentsOf index = [] := by
  cases segment with
  | data header other documents => exact if_neg h
  | last header other checksum => rfl

theorem flatMap_documentsOf (index : Nat) (documents : List Bytes) :
    (documents.map (StreamEvent.document index)).flatMap (StreamEvent.documentsOf collection) =
      if index = collection then documents else [] := by
  induction documents with
  | nil => simp
  | cons bytes documents ih =>
    rw [map_cons, flatMap_cons, ih, StreamEvent.documentsOf]
    split
    · rfl
    · rfl

/-- The documents of a collection in a segment, where no other collection is sent to its place. -/
theorem Segment.routed_documentsOf (hroute : route index = some collection)
    (hinjective : route segment.index = some collection → segment.index = index) :
    (segment.routed route).flatMap (StreamEvent.documentsOf collection) =
      segment.documentsOf index := by
  by_cases heq : segment.index = index
  · have hown : route segment.index = some collection := by rw [heq, hroute]
    rw [routed, hown]
    cases segment with
    | data header other documents =>
      show (documents.map _).flatMap _ = if other = index then documents else []
      rw [flatMap_documentsOf, if_pos rfl]
      exact (if_pos heq).symm
    | last header other checksum => rfl
  · rw [documentsOf_of_ne heq, flatMap_eq_nil_iff]
    intro event hevent
    have hindex : event.index ≠ collection := by
      intro h
      obtain ⟨hfound, -⟩ := mem_routed hevent
      rw [h] at hfound
      exact heq (hinjective hfound)
    cases event with
    | document other bytes => exact if_neg hindex
    | ended other => rfl

/-- **A collection is streamed as its segments hold it.** -/
theorem EndsWith.streamed {digest : C.Digest} {before after : List Segment} {header : Bytes}
    {checksum : UInt64} (h : EndsWith C segments index digest before header checksum after)
    (hroute : route index = some collection)
    (hinjective : ∀ segment ∈ segments,
      route segment.index = some collection → segment.index = index) :
    Streamed (segments.flatMap (routed route)) collection
      (segments.flatMap (Segment.documentsOf index)) := by
  constructor
  · -- no other collection is routed to the same place
    rw [flatMap_assoc]
    refine flatMap_congr ?_
    intro segment hsegment
    exact routed_documentsOf hroute (hinjective segment hsegment)
  · have hlast : (last header index checksum).routed route = [.ended collection] := by
      rw [routed, show route (last header index checksum).index = _ from hroute]
      rfl
    refine ⟨before.flatMap (routed route), after.flatMap (routed route), ?_, ?_, ?_⟩
    · rw [h.split, flatMap_append, flatMap_cons, hlast]
      rfl
    · intro hmem
      obtain ⟨segment, hsegment, hevent⟩ := mem_flatMap.mp hmem
      obtain ⟨hfound, hend⟩ := mem_routed hevent
      refine h.first segment hsegment (hend rfl) (hinjective segment ?_ hfound)
      rw [h.split]
      exact mem_append_left _ hsegment
    · rintro event hmem rfl
      obtain ⟨segment, hsegment, hevent⟩ := mem_flatMap.mp hmem
      obtain ⟨hfound, -⟩ := mem_routed hevent
      refine h.final segment hsegment (hinjective segment ?_ hfound)
      rw [h.split]
      exact mem_append_right _ (mem_cons_of_mem _ hsegment)

end Routed

/-! ## Batches -/

section Batched

variable {sent : List Event} {collection limit : Nat} {documents : List Bytes}

theorem Event.unbatch_documentsOf (event : Event) :
    event.unbatch.flatMap (StreamEvent.documentsOf collection) = event.documentsOf collection := by
  cases event with
  | batch index documents => exact flatMap_documentsOf index documents
  | ended index => rfl

/-- An end that is read is sent on its own. -/
theorem unbatch_split {before after : List StreamEvent}
    (h : unbatch sent = before ++ .ended collection :: after) :
    ∃ first second, sent = first ++ .ended collection :: second ∧ unbatch first = before ∧
      unbatch second = after := by
  induction sent generalizing before with
  | nil => simp at h
  | cons event sent ih =>
    cases event with
    | batch index documents =>
      obtain ⟨later, rfl, hrest⟩ : ∃ later, before = documents.map (.document index) ++ later ∧
          unbatch sent = later ++ .ended collection :: after := by
        rcases append_eq_append_iff.mp h with ⟨later, hbefore, hrest⟩ | ⟨later, hbatch, hrest⟩
        · exact ⟨later, hbefore, hrest⟩
        · -- the end is not a document of the batch
          cases later with
          | nil => exact ⟨[], by simpa [Event.unbatch] using hbatch.symm, hrest.symm⟩
          | cons event later =>
            obtain ⟨rfl, -⟩ := cons.inj hrest
            have hmem : .ended collection ∈ Event.unbatch (.batch index documents) := by
              simp [hbatch]
            simp [Event.unbatch] at hmem
      obtain ⟨first, second, rfl, rfl, hsecond⟩ := ih hrest
      exact ⟨.batch index documents :: first, second, rfl, rfl, hsecond⟩
    | ended index =>
      cases before with
      | nil =>
        cases h
        exact ⟨[], sent, rfl, rfl, rfl⟩
      | cons event before =>
        obtain ⟨rfl, hrest⟩ := cons.inj h
        obtain ⟨first, second, rfl, hfirst, hsecond⟩ := ih hrest
        exact ⟨.ended index :: first, second, rfl, by rw [← hfirst]; rfl, hsecond⟩

/-- **Batches deliver what they hold.** -/
theorem Streamed.delivered (h : Streamed (unbatch sent) collection documents)
    (hwithin : ∀ event ∈ sent, WithinLimits limit event) : Delivered sent collection documents := by
  constructor
  · rw [← h.documents_eq, unbatch, flatMap_assoc]
    refine flatMap_congr ?_
    intro event _
    exact event.unbatch_documentsOf.symm
  · obtain ⟨before, after, hsplit, hbefore, hafter⟩ := h.ended
    obtain ⟨first, second, rfl, rfl, rfl⟩ := unbatch_split hsplit
    refine ⟨first, second, rfl, ?_, ?_⟩
    · intro hmem
      exact hbefore (mem_flatMap.mpr ⟨_, hmem, mem_singleton.mpr rfl⟩)
    · rintro event hevent rfl
      cases event with
      | batch index documents =>
        obtain ⟨hne, -⟩ := hwithin (.batch index documents) (by simp [hevent])
        obtain ⟨bytes, rest, rfl⟩ := exists_cons_of_ne_nil hne
        refine hafter (.document index bytes) ?_ rfl
        exact mem_flatMap.mpr ⟨_, hevent, by simp [Event.unbatch]⟩
      | ended index =>
        exact hafter (.ended index)
          (mem_flatMap.mpr ⟨_, hevent, mem_singleton.mpr rfl⟩) rfl

end Batched

/-! ## Where collections are sent to -/

section Catalog

variable {catalog : Catalog C} {expected selected entries : List C.Collection} {index : Nat}

theorem catalogOf_ok (h : catalogOf C expected entries = .ok catalog) :
    catalog.entries = entries ∧ entries.mapM (expectedIndex C expected) = .ok catalog.mapped := by
  obtain ⟨_, -, h⟩ := bind_eq_ok_iff.mp h
  obtain ⟨mapped, hmapped, h⟩ := bind_eq_ok_iff.mp h
  cases h
  exact ⟨rfl, hmapped⟩

variable {entry : C.Collection}

theorem expectedIndex_ok (h : expectedIndex C expected entry = .ok index) :
    ∃ found, expected[index]? = some found ∧ namespaceOf C found = namespaceOf C entry := by
  unfold expectedIndex at h
  split at h
  · cases h
  next found hfound =>
  split at h
  · cases h
  next other hother =>
  simp only [bind_eq_ok_iff] at h
  obtain ⟨-, -, -, -, -, -, h⟩ := h
  cases h
  obtain ⟨hlength, hname, -⟩ := findIdx?_eq_some_iff_getElem.mp hfound
  refine ⟨expected[index], getElem?_eq_getElem hlength, ?_⟩
  simpa using hname

theorem Catalog.target_namespace (h : catalogOf C expected entries = .ok catalog)
    (hentry : entries[index]? = some entry) :
    ∃ found, expected[catalog.target C index]? = some found ∧
      namespaceOf C found = namespaceOf C entry := by
  obtain ⟨-, hmapped⟩ := catalogOf_ok h
  obtain ⟨target, htarget, hexpected⟩ := mapM_ok_getElem? hmapped hentry
  have heq : catalog.target C index = target := by rw [Catalog.target, htarget, Option.getD_some]
  rw [heq]
  exact expectedIndex_ok hexpected

theorem indices_namespace {target collection : Nat} {found : C.Collection}
    (hfound : expected[target]? = some found)
    (h : ((indices C expected selected)[target]?).join = some collection) :
    ∃ entry, selected[collection]? = some entry ∧ namespaceOf C entry = namespaceOf C found := by
  rw [indices, getElem?_map, hfound, Option.map_some] at h
  obtain ⟨hlength, hname, -⟩ := findIdx?_eq_some_iff_getElem.mp h
  rw [Bool.and_eq_true, decide_eq_true_eq] at hname
  exact ⟨_, getElem?_eq_getElem hlength, hname.1⟩

/-- A header names a collection of the prelude. -/
theorem Segment.Headed.index_lt (h : segment.Headed catalog) :
    segment.index < catalog.entries.length := by
  have hnames : ∃ header, Names catalog header segment.index := by
    cases segment with
    | data bytes index documents => exact h.imp fun _ hheader => hheader.2.1
    | last bytes index checksum => exact h.imp fun _ ⟨_, hheader⟩ => hheader.2.1
  obtain ⟨header, database, name, -, -, hfind⟩ := hnames
  exact (findIdx?_eq_some_iff_getElem.mp hfind).1

end Catalog

/-! ## Whole archives -/

/-- The documents of a collection in the order of the archive. -/
def documentsOf (segments : List Segment) (index : Nat) : List Bytes :=
  segments.flatMap (Segment.documentsOf index)

/-- The archive: its prelude, whose collections have distinct names, and behind it its segments;
each collection of the prelude has one last header, with the checksum of its documents. -/
structure Consists (C : Codec) (check : Check) (expected : List C.Collection) (input : Bytes)
    (catalog : Catalog C) (segments : List Segment) : Prop where
  found : ∃ count data, inspect C check input = .ok (catalog.entries, count, frames C data) ∧
    data <:+ input ∧ data = (segments.flatMap Segment.frames).flatMap Frame.bytes
  expects : catalogOf C expected catalog.entries = .ok catalog
  nodup : (catalog.entries.map (namespaceOf C)).Nodup
  headed : ∀ segment ∈ segments, segment.Headed catalog
  last : ∀ index < catalog.entries.length, ∃ before header checksum after,
    EndsWith C segments index C.digest before header checksum after

/-- **What an archive that is streamed without an error consists of.** -/
theorem stream_ok {expected : List C.Collection}
    {events : List StreamEvent} (h : stream C check expected input = (events, .ok ())) :
    ∃ catalog segments, Consists C check expected input catalog segments ∧
      events = segments.flatMap (Segment.events (catalog.target C)) := by
  unfold stream at h
  split at h
  · cases h
  next catalog count rest hfound =>
  obtain ⟨⟨entries, count', rest'⟩, hinspect, hfound⟩ := bind_eq_ok_iff.mp hfound
  obtain ⟨catalog', hcatalog, hfound⟩ := bind_eq_ok_iff.mp hfound
  cases hfound
  obtain ⟨hentries, -⟩ := catalogOf_ok hcatalog
  subst hentries
  obtain ⟨⟨data, hsuffix, rfl⟩, hnodup⟩ := inspect_ok hinspect
  obtain ⟨segments, hexplains⟩ := streamLoop_spec h
  have hdata := bytes_of_closed hexplains.input_eq
  refine ⟨catalog, segments, ⟨⟨count, data, hinspect, hsuffix, hdata⟩, hcatalog, hnodup,
    hexplains.headed, ?_⟩, hexplains.events_eq⟩
  intro index hindex
  exact hexplains.sound.exists_last hindex rfl

namespace Consists

variable {check : Check} {expected selected : List C.Collection} {input : Bytes}
  {catalog : Catalog C} {segments : List Segment} {index : Nat}

variable (h : Consists C check expected input catalog segments)

include h

/-- A collection is streamed to its place, as no other one is sent there. -/
theorem streamed_routed (route : Nat → Option Nat) (places : List C.Collection) {collection : Nat}
    (hroute : ∀ index entry collection, catalog.entries[index]? = some entry →
      route index = some collection →
      ∃ found, places[collection]? = some found ∧ namespaceOf C found = namespaceOf C entry)
    (hindex : index < catalog.entries.length) (hown : route index = some collection) :
    Streamed (segments.flatMap (routed route)) collection (documentsOf segments index) := by
  obtain ⟨before, header, checksum, after, hends⟩ := h.last index hindex
  refine hends.streamed hown fun segment hsegment hother => ?_
  have hlt := (h.headed segment hsegment).index_lt
  obtain ⟨found, hplace, hname⟩ := hroute index _ collection (getElem?_eq_getElem hindex) hown
  obtain ⟨found', hplace', hname'⟩ :=
    hroute segment.index _ collection (getElem?_eq_getElem hlt) hother
  rw [hplace] at hplace'
  cases hplace'
  exact index_of_namespace h.nodup hlt hindex (hname'.symm.trans hname)

/-- Each collection is streamed to the place where the caller expects it. -/
theorem streamed (hindex : index < catalog.entries.length) :
    Streamed (segments.flatMap (Segment.events (catalog.target C))) (catalog.target C index)
      (documentsOf segments index) := by
  have hevents : segments.flatMap (Segment.events (catalog.target C)) =
      segments.flatMap (routed fun index => some (catalog.target C index)) := by
    refine flatMap_congr ?_
    intro segment _
    exact segment.events_eq_routed _
  rw [hevents]
  refine h.streamed_routed _ expected ?_ hindex rfl
  rintro other entry collection hentry ⟨⟩
  exact Catalog.target_namespace h.expects hentry

/-- Each selected collection is streamed to the place where it is selected. -/
theorem streamed_select {collection : Nat} (hindex : index < catalog.entries.length)
    (hselected : ((indices C expected selected)[catalog.target C index]?).join = some collection) :
    Streamed ((segments.flatMap (Segment.events (catalog.target C))).filterMap
      (select (indices C expected selected))) collection (documentsOf segments index) := by
  have hevents : (segments.flatMap (Segment.events (catalog.target C))).filterMap
      (select (indices C expected selected)) = segments.flatMap (routed fun index =>
        ((indices C expected selected)[catalog.target C index]?).join) := by
    rw [filterMap_flatMap]
    refine flatMap_congr ?_
    intro segment _
    exact segment.filterMap_events _ _
  rw [hevents]
  refine h.streamed_routed _ selected ?_ hindex hselected
  intro other entry place hentry hplace
  obtain ⟨found, hfound, hname⟩ := Catalog.target_namespace h.expects hentry
  obtain ⟨chosen, hchosen, hname'⟩ := indices_namespace hfound hplace
  exact ⟨chosen, hchosen, hname'.trans hname⟩

omit h

end Consists

/-- **What is packed is streamed back, and what is delivered is what the archive holds.**

The archive of a list of collections is streamed as, for each of them, its documents in order and
then its end. An archive whose stream succeeds, however its segments alternate, consists of a
prelude and of segments such that each collection of the prelude has one last header with the
checksum of its documents; each collection is streamed with its documents in the order of the
archive, and then its one end. Those that are selected are sent so too, in batches within the
limits. -/
theorem archive_roundTrip (C : Codec) :
    (∀ (sources : List (Source C)) (serverVersion toolVersion : Text),
      (C.toVec (archiveHeader serverVersion toolVersion)).length ≤ maxDocument →
      sources.length ≤ 100000 →
      (sources.map fun source => byteLen source.json).sum ≤ 128 * 1024 * 1024 →
      (sources.map fun source => namespaceOf C source.entry).Nodup →
      ∃ packed, pack C (sources.map Source.entry) serverVersion toolVersion (fun _ => never) =
          .ok packed ∧
        stream C never (previews sources) packed =
          (sources.zipIdx.flatMap fun source => source.1.events source.2, .ok ())) ∧
    (∀ (check : Check) (expected : List C.Collection) (input : Bytes) (events : List StreamEvent),
      stream C check expected input = (events, .ok ()) →
      ∃ catalog segments, Consists C check expected input catalog segments ∧
        ∀ index < catalog.entries.length,
          Streamed events (catalog.target C index) (documentsOf segments index)) ∧
    (∀ (check : Check) (expected selected : List C.Collection) (input : Bytes)
      (accepts : List Event → Bool) (batchSize : Nat) (objcheck : Bool) (sent : List Event),
      produce C accepts { limit := max batchSize 1, objcheck }
        (archiveFeed C check expected selected input) = (sent, .ok ()) →
      ∃ catalog segments, Consists C check expected input catalog segments ∧
        (∀ event ∈ sent, WithinLimits (max batchSize 1) event) ∧
        ∀ index < catalog.entries.length, ∀ collection,
          ((indices C expected selected)[catalog.target C index]?).join = some collection →
          Delivered sent collection (documentsOf segments index)) := by
  refine ⟨?_, ?_, ?_⟩
  · intro sources serverVersion toolVersion hheader hcount hbytes hnodup
    exact ⟨_, pack_eq sources hheader, stream_archive hheader hcount hbytes hnodup⟩
  · intro check expected input events h
    obtain ⟨catalog, segments, hconsists, rfl⟩ := stream_ok h
    exact ⟨catalog, segments, hconsists, fun index hindex => hconsists.streamed hindex⟩
  · intro check expected selected input accepts batchSize objcheck sent h
    have hlimit : 0 < max batchSize 1 := by omega
    obtain ⟨hread, hsent, hwithin⟩ := produce_spec hlimit h
    -- the events are read to their end, so the stream has succeeded
    have hstream : stream C check expected input = ((stream C check expected input).1, .ok ()) :=
      Prod.ext rfl hread
    obtain ⟨catalog, segments, hconsists, hevents⟩ := stream_ok hstream
    refine ⟨catalog, segments, hconsists, hwithin, ?_⟩
    intro index hindex collection hselected
    refine Streamed.delivered ?_ hwithin
    rw [hsent]
    show Streamed ((stream C check expected input).1.filterMap _) collection _
    rw [hevents]
    exact hconsists.streamed_select hindex hselected

/-- A document with a number. -/
def numbered (n : Int32) : Bytes := written [("n", .int32 n)]

/-- A collection of a shop. -/
def shopEntry (name : Text) (numbers : List Int32) : plainCodec.Collection :=
  ⟨"shop".toList, ⟨(), [], none, name, "collection".toList⟩,
    some (numbers.map numbered).flatten, .ofNat numbers.length⟩

/-- A segment header has its length whatever checksum it holds. -/
theorem length_segmentHeader (entry : plainCodec.Collection) (eof : Bool) (checksum : Int64) :
    (written (segmentHeader plainCodec entry eof checksum)).length =
      (written (segmentHeader plainCodec entry eof 0)).length := by
  have hword : (wordCode.encode checksum).length = (wordCode.encode 0).length := by
    show (leBytes 8 _).length = (leBytes 8 _).length
    rw [length_leBytes, length_leBytes]
  simp [written, segmentHeader, documentCode, valueCode, PrefixCode.list, PrefixCode.encodeList,
    PrefixCode.prod, PrefixCode.retract, PrefixCode.sum, hword]

/-- A collection of the shop can be packed, if its name is accepted and what is written of it is no
longer than documents may be. -/
def shopSource (name : Text) (numbers : List Int32)
    (hname : validate plainCodec (shopEntry name numbers).metadata = .ok ())
    (hkept : fromJson plainCodec "collection".toList name =
      .ok (shopEntry name numbers).metadata)
    (hprelude : (written (preludeHeader plainCodec (shopEntry name numbers)
      "collection".toList)).length ≤ maxDocument)
    (hheader : ∀ eof, (written (segmentHeader plainCodec (shopEntry name numbers) eof 0)).length ≤
      maxDocument)
    (hnumbers : ∀ n ∈ numbers, (numbered n).length ≤ maxDocument) : Source plainCodec where
  entry := shopEntry name numbers
  json := "collection".toList
  documents := numbers.map numbered
  database_valid := by
    show validateDatabase "shop".toList = .ok ()
    decide +kernel
  metadata_valid := hname
  json_eq := by rfl
  json_ne := by decide +kernel
  json_kept := hkept
  prelude_fits := hprelude
  headers_fit eof checksum :=
    (length_segmentHeader (shopEntry name numbers) eof checksum).trans_le (hheader eof)
  view_empty := nofun
  file_eq _ := rfl
  documents_readable := by
    rw [forall_mem_map]
    intro n hn
    refine ⟨measured_written (hnumbers n hn), plainCodec.fromBytes_toVec _, ?_⟩
    exact ⟨_, plainCodec.fromSlice_toVec [("n", .int32 n)]⟩

def itemsSource : Source plainCodec :=
  shopSource "items".toList [1, 2] (by decide +kernel) rfl (by decide +kernel)
    (by decide +kernel) (by decide +kernel)

def ordersSource : Source plainCodec :=
  shopSource "orders".toList [3] (by decide +kernel) rfl (by decide +kernel) (by decide +kernel)
    (by decide +kernel)

/-- Two collections, which the caller selects in the other order. -/
theorem archive_roundTrip_shop :
    let expected := [itemsSource.preview, ordersSource.preview]
    let selected := [ordersSource.preview, itemsSource.preview]
    ∃ packed catalog segments,
      pack plainCodec [itemsSource.entry, ordersSource.entry] "8.0".toList "1.0".toList
        (fun _ => never) = .ok packed ∧
      stream plainCodec never expected packed =
        ([.document 0 (numbered 1), .document 0 (numbered 2), .ended 0,
          .document 1 (numbered 3), .ended 1], .ok ()) ∧
      Consists plainCodec never expected packed catalog segments ∧
      ∀ index < catalog.entries.length, ∀ collection,
        ((indices plainCodec expected selected)[catalog.target plainCodec index]?).join =
          some collection →
        Delivered [.batch 1 [numbered 1, numbered 2], .ended 1, .batch 0 [numbered 3], .ended 0]
          collection (documentsOf segments index) := by
  intro expected selected
  obtain ⟨hpacked, -, hdelivered⟩ := archive_roundTrip plainCodec
  obtain ⟨packed, hpack, hstream⟩ := hpacked [itemsSource, ordersSource] "8.0".toList "1.0".toList
    (by decide +kernel) (by decide) (by decide +kernel) (by decide +kernel)
  have hstream : stream plainCodec never expected packed =
      ([.document 0 (numbered 1), .document 0 (numbered 2), .ended 0,
        .document 1 (numbered 3), .ended 1], .ok ()) := hstream
  have hproduce : produce plainCodec (fun _ => true) { limit := max 1000 1, objcheck := true }
      (archiveFeed plainCodec never expected selected packed) =
        ([.batch 1 [numbered 1, numbered 2], .ended 1, .batch 0 [numbered 3], .ended 0],
          .ok ()) := by
    rw [archiveFeed, hstream]
    decide +kernel
  obtain ⟨catalog, segments, hconsists, -, hsent⟩ :=
    hdelivered never _ _ packed (fun _ => true) 1000 true _ hproduce
  exact ⟨packed, catalog, segments, hpack, hstream, hconsists, hsent⟩

end Dbx.Mongo
