import Dbx.Mongo.Archive

/-!
# Packing and streaming

What `pack` writes is read back by `inspect` and `stream`: the collections in their order, and for
each collection its documents followed by its end.

## Main definitions

* `Source`: a collection that can be packed, with its documents

## Main results

* `frames_document`, `frames_terminator`: reading what was written
* `frames_eq_next`, `frames_eq_done`: what was read is what the input holds
* `pack_eq`: the archive that is written
* `inspect_archive`, `stream_archive`: the archive is read back
-/

namespace Dbx.Mongo

open Text List

variable {C : Codec}

/-! ## Frames -/

theorem fromLeBytes_terminator : fromLeBytes 255 255 255 255 = -1 := by decide

@[simp] theorem frames_nil : frames C [] = .done := by
  rw [frames]
  rfl

variable {input : Bytes} {frame : Frame}

theorem frames_of_read {input rest : Bytes} (h : readRawFrame C input = .ok (some (frame, rest))) :
    frames C input = .next frame (frames C rest) := by
  rw [frames]
  split
  · next herror => cases h.symm.trans herror
  · next hnone => cases h.symm.trans hnone
  next hsome =>
  cases h.symm.trans hsome
  rfl

/-- A terminator is read back. -/
theorem frames_terminator (rest : Bytes) :
    frames C (terminator ++ rest) = .next .terminator (frames C rest) :=
  frames_of_read rfl

/-- **A document is read back.** -/
theorem frames_document {bytes : Bytes} (hmeasured : Measured bytes)
    (hvalid : C.fromBytes bytes = .ok ()) (rest : Bytes) :
    frames C (bytes ++ rest) = .next (.document bytes) (frames C rest) := by
  apply frames_of_read
  match bytes, hmeasured with
  | a :: b :: c :: d :: tail, ⟨hlength, hmin, hmax⟩ =>
    have hterminator : [a, b, c, d] ≠ terminator := by
      intro heq
      cases heq
      rw [fromLeBytes_terminator] at hlength
      omega
    have hbounds : (fromLeBytes a b c d < 5 || (maxDocument : Int) < fromLeBytes a b c d) =
      false := by
      simp only [Bool.or_eq_false_iff, decide_eq_false_iff_not]
      omega
    have hsize : (fromLeBytes a b c d).toNat - 4 = tail.length := by
      omega
    simp only [cons_append, readRawFrame, if_neg hterminator, hbounds, Bool.false_eq_true,
      if_false, hsize, length_append, take_left, drop_left, hvalid]
    rw [if_neg (by omega)]

/-- **What was read is what the input holds.** -/
theorem frames_eq_next {later : Frames} (h : frames C input = .next frame later) :
    ∃ rest, input = frame.bytes ++ rest ∧ frames C rest = later ∧ frame.Readable C := by
  rw [frames] at h
  split at h
  · cases h
  · cases h
  next hread =>
  cases h
  obtain ⟨hinput, hreadable⟩ := readRawFrame_spec hread
  exact ⟨_, hinput, rfl, hreadable⟩

theorem frames_eq_done (h : frames C input = .done) : input = [] := by
  rw [frames] at h
  split at h
  · cases h
  · next hread =>
    unfold readRawFrame at hread
    split at hread
    · rfl
    · split at hread <;> try cases hread
      simp only at hread
      split at hread <;> try cases hread
      split at hread <;> try cases hread
      split at hread <;> cases hread
    · cases hread
  · cases h

/-! ## Collections that can be packed -/

/-- A collection with its documents, whose metadata the JSON keeps and whose headers and documents
are within the limits. A view has no documents. -/
structure Source (C : Codec) where
  entry : C.Collection
  json : Text
  documents : List Bytes
  database_valid : validateDatabase entry.database = .ok ()
  metadata_valid : validate C entry.metadata = .ok ()
  json_eq : toJson C entry.metadata = .ok json
  json_ne : json ≠ []
  json_kept : fromJson C json entry.metadata.collectionName = .ok entry.metadata
  prelude_fits : (C.toVec (preludeHeader C entry json)).length ≤ maxDocument
  headers_fit : ∀ eof checksum,
    (C.toVec (segmentHeader C entry eof checksum)).length ≤ maxDocument
  view_empty : isView entry.metadata = true → documents = []
  file_eq : isView entry.metadata = false → entry.file = some documents.flatten
  documents_readable : ∀ bytes ∈ documents,
    Measured bytes ∧ C.fromBytes bytes = .ok () ∧ ∃ document, C.fromSlice bytes = .ok document

variable (source : Source C)

namespace Source

/-- The collection as `inspect` finds it. -/
def preview : C.Collection :=
  ⟨source.entry.database, source.entry.metadata, none, 0⟩

def digest (source : Source C) : C.Digest := source.documents.foldl C.update C.digest

def prelude : Bytes := C.toVec (preludeHeader C source.entry source.json)

def header (eof : Bool) (checksum : Int64) : Bytes :=
  C.toVec (segmentHeader C source.entry eof checksum)

/-- The data that is written for the collection. -/
def data : Bytes :=
  (if source.documents = [] then []
    else source.header false 0 ++ source.documents.flatten ++ terminator) ++
    source.header true (C.finalize source.digest).toInt64 ++ terminator

/-- The events that the collection is streamed with. -/
def events (index : Nat) : List StreamEvent :=
  source.documents.map (.document index) ++ [.ended index]

end Source

open Source

/-- The archive of a list of collections. -/
def archive (sources : List (Source C)) (serverVersion toolVersion : Text) : Bytes :=
  magic ++ C.toVec (archiveHeader serverVersion toolVersion) ++
    (sources.map prelude).flatten ++ terminator ++ (sources.map data).flatten

/-! ## Writing -/

theorem writeDocument_of_fits {document : Document} (h : (C.toVec document).length ≤ maxDocument) :
    writeDocument C document = .ok (C.toVec document) := by
  exact if_neg (Nat.not_lt_of_le h)

def never : Check := fun _ => .ok ()

/-- The frames of a file of documents. -/
theorem frames_flatten {documents : List Bytes}
    (h : ∀ bytes ∈ documents, Measured bytes ∧ C.fromBytes bytes = .ok ()) (rest : Bytes) :
    frames C (documents.flatten ++ rest) =
      documents.foldr (fun bytes later => .next (.document bytes) later) (frames C rest) := by
  induction documents with
  | nil => rfl
  | cons bytes documents ih =>
    obtain ⟨hmeasured, hvalid⟩ := h bytes (by simp)
    rw [flatten_cons, append_assoc, frames_document hmeasured hvalid, foldr_cons,
      ih fun other hother => h other (mem_cons_of_mem _ hother)]

theorem frames_documents (rest : Bytes) : frames C (source.documents.flatten ++ rest) =
    source.documents.foldr (fun bytes later => .next (.document bytes) later) (frames C rest) :=
  frames_flatten (fun bytes hbytes => ⟨(source.documents_readable bytes hbytes).1,
    (source.documents_readable bytes hbytes).2.1⟩) rest

theorem packDocuments_of_readable {entry : C.Collection}
    (hfits : (C.toVec (segmentHeader C entry false 0)).length ≤ maxDocument)
    {documents : List Bytes}
    (h : ∀ bytes ∈ documents, ∃ document, C.fromSlice bytes = .ok document)
    (count : Nat) (digest : C.Digest) (opened : Bool) :
    packDocuments C entry never count digest opened
        (documents.foldr (fun bytes later => .next (.document bytes) later) .done) =
      .ok ((if documents = [] || opened then [] else C.toVec (segmentHeader C entry false 0)) ++
        documents.flatten, documents.foldl C.update digest, opened || documents ≠ []) := by
  induction documents generalizing count digest opened with
  | nil => simp [packDocuments, never]
  | cons bytes documents ih =>
    obtain ⟨document, hdocument⟩ := h bytes (by simp)
    have ih := ih (fun other hother => h other (mem_cons_of_mem _ hother)) (count + 1)
      (C.update digest bytes) true
    simp only [foldr_cons, packDocuments, never, checkFrame, hdocument,
      writeDocument_of_fits hfits, ok_bind, pure_eq, ih]
    cases opened with
    | true | false => simp

theorem packPrelude_source : packPrelude C never source.entry = .ok source.prelude := by
  simp only [packPrelude, never, source.json_eq, ok_bind, writeDocument_of_fits source.prelude_fits]
  rfl

/-- The data of a collection is written. -/
theorem packData_source : packData C source.entry never = .ok source.data := by
  have hheader : ∀ eof checksum, writeDocument C (segmentHeader C source.entry eof checksum) =
      .ok (source.header eof checksum) := fun eof checksum =>
    writeDocument_of_fits (source.headers_fit eof checksum)
  cases hview : isView source.entry.metadata with
  | true =>
    -- the checksum of a view is that of no documents
    have hdocuments := source.view_empty hview
    have hdigest : source.digest = C.digest := by rw [digest, hdocuments]; rfl
    simp only [packData, never, ok_bind, hview, if_true, hheader, pure_eq,
      data, hdocuments, hdigest, C.finalize_digest, nil_append]
    rfl
  | false =>
    have hframes := frames_documents source []
    rw [append_nil, frames_nil] at hframes
    have hdocuments := packDocuments_of_readable (source.headers_fit false 0)
      (fun bytes hbytes => (source.documents_readable bytes hbytes).2.2) 1 C.digest false
    simp only [packData, hview, source.file_eq hview, hframes, hdocuments, hheader, ok_bind,
      pure_eq, data, digest, never, Bool.false_eq_true, if_false]
    by_cases hnil : source.documents = []
    · simp [hnil]
    · simp [hnil, header]

/-- **The archive that is written.** -/
theorem pack_eq (sources : List (Source C)) {serverVersion toolVersion : Text}
    (hfits : (C.toVec (archiveHeader serverVersion toolVersion)).length ≤ maxDocument) :
    pack C (sources.map entry) serverVersion toolVersion (fun _ => never) =
      .ok (archive sources serverVersion toolVersion) := by
  have hprelude : ((sources.map entry).zipIdx.mapM fun entry =>
      packPrelude C never entry.1) = .ok (sources.map prelude) :=
    mapM_zipIdx_ok (fun source _ _ => packPrelude_source source) 0
  have hdata : ((sources.map entry).zipIdx.mapM fun entry =>
      packData C entry.1 never) = .ok (sources.map data) :=
    mapM_zipIdx_ok (fun source _ _ => packData_source source) 0
  simp only [pack, writeDocument_of_fits hfits, hprelude, hdata, ok_bind, pure_eq, archive]

/-! ## Reading the prelude -/

theorem fromSlice_frame (document : Document) :
    checkFrame C (.document (C.toVec document)) = .ok () ∧
      documentOf C (.document (C.toVec document)) = .ok document := by
  constructor
  · rw [checkFrame, C.fromSlice_toVec]
  · rw [documentOf, C.fromSlice_toVec]

theorem frames_toVec {document : Document} (h : (C.toVec document).length ≤ maxDocument)
    (rest : Bytes) :
    frames C (C.toVec document ++ rest) = .next (.document (C.toVec document)) (frames C rest) :=
  frames_document (C.measured_toVec document h) (C.fromBytes_toVec document) rest

open Document

attribute [local simp] lookup_cons stringOf Prod.map pure_eq ok_bind preview require

/-- The prelude document of a collection is accepted. -/
theorem addEntry_source {found : Prelude C} (hcount : found.entries.length < 100000)
    (hbytes : found.metadataBytes + byteLen source.json ≤ 128 * 1024 * 1024)
    (hfresh : namespaceOf C source.entry ∉ found.entries.map (namespaceOf C)) :
    addEntry C found (preludeHeader C source.entry source.json) =
      .ok ⟨found.entries ++ [source.preview], found.metadataBytes + byteLen source.json⟩ := by
  have hdb : stringOf (preludeHeader C source.entry source.json) "db" =
      .ok source.entry.database := by
    simp [getStr, preludeHeader]
  have hname : stringOf (preludeHeader C source.entry source.json) "collection" =
      .ok source.entry.metadata.collectionName := by
    simp [getStr, preludeHeader]
  have hjson : stringOf (preludeHeader C source.entry source.json) "metadata" =
    .ok source.json := by
    simp [getStr, preludeHeader]
  have htype : (preludeHeader C source.entry source.json).getStr "type" ≠
      some "timeseries".toList := by
    have hlookup : (preludeHeader C source.entry source.json).getStr "type" =
        some (if isView source.entry.metadata then "view".toList else []) := by
      simp [getStr, preludeHeader]
    rw [hlookup]
    split <;> decide +kernel
  have hlimit : (!(100000 ≤ found.entries.length ||
      128 * 1024 * 1024 < found.metadataBytes + byteLen source.json)) := by
    simp only [Bool.not_eq_true', Bool.or_eq_false_iff, decide_eq_false_iff_not]
    omega
  have hcontains : (!(found.entries.map (namespaceOf C)).contains
      (source.entry.database, source.entry.metadata.collectionName)) := by
    rw [Bool.not_eq_true', Bool.eq_false_iff, Ne, contains_iff_mem]
    exact hfresh
  have hempty : source.json.isEmpty = false := by simpa using source.json_ne
  -- every check of the prelude passes, in the order of the source
  simp only [addEntry, metadataOf, hdb, hname, hjson, source.database_valid, hlimit, hempty,
    source.json_kept, source.metadata_valid, hcontains, ok_bind, pure_eq,
    Bool.false_eq_true, if_false, require, if_true, decide_true, decide_eq_true htype]
  rfl

/-- The loop over the prelude. -/
theorem inspectLoop_sources (sources : List (Source C)) (rest : Bytes) (count : Nat)
    {found : Prelude C} (hcount : found.entries.length + sources.length ≤ 100000)
    (hbytes : found.metadataBytes + (sources.map fun source => byteLen source.json).sum ≤
      128 * 1024 * 1024)
    (hfresh : (found.entries.map (namespaceOf C) ++
      sources.map fun source => namespaceOf C source.entry).Nodup) :
    inspectLoop C never count found
        (frames C ((sources.map prelude).flatten ++ (terminator ++ rest))) =
      .ok (⟨found.entries ++ sources.map preview,
        found.metadataBytes + (sources.map fun source => byteLen source.json).sum⟩,
        count + sources.length + 1, frames C rest) := by
  induction sources generalizing count found with
  | nil =>
    simp only [map_nil, flatten_nil, nil_append, frames_terminator, inspectLoop, never]
    simp
  | cons source sources ih =>
    simp only [length_cons, map_cons, sum_cons] at hcount hbytes hfresh
    rw [map_cons, flatten_cons, append_assoc, prelude,
      frames_toVec source.prelude_fits, inspectLoop]
    -- the namespaces differ
    have hnew : namespaceOf C source.entry ∉ found.entries.map (namespaceOf C) := by
      intro hmem
      exact disjoint_of_nodup_append hfresh hmem (by simp)
    have hentry := addEntry_source source (by omega) (by omega) hnew
    obtain ⟨hcheck, hdocument⟩ := fromSlice_frame (C := C)
      (preludeHeader C source.entry source.json)
    simp only [never, hcheck, hdocument, hentry, ok_bind]
    rw [ih (count + 1)]
    iterate 3
      · simp
        omega
    · simpa [namespaceOf] using hfresh

def previews (sources : List (Source C)) : List C.Collection := sources.map preview

variable {sources : List (Source C)} {serverVersion toolVersion : Text}
  (hheader : (C.toVec (archiveHeader serverVersion toolVersion)).length ≤ maxDocument)
  (hcount : sources.length ≤ 100000)
  (hbytes : (sources.map fun source => byteLen source.json).sum ≤ 128 * 1024 * 1024)
  (hnodup : (sources.map fun source => namespaceOf C source.entry).Nodup)

section Archive

include hheader hcount hbytes hnodup

/-- **The collections of an archive are found.** -/
theorem inspect_archive :
    inspect C never (archive sources serverVersion toolVersion) =
      .ok (previews sources, 1 + sources.length + 1, frames C (sources.map data).flatten) := by
  have htake : (archive sources serverVersion toolVersion).take 4 = magic := by
    simp [archive, magic]
  have hdrop : (archive sources serverVersion toolVersion).drop 4 =
      C.toVec (archiveHeader serverVersion toolVersion) ++
        ((sources.map prelude).flatten ++ (terminator ++ (sources.map data).flatten)) := by
    simp [archive, magic]
  have hlength : 4 ≤ (archive sources serverVersion toolVersion).length := by
    simp [archive, magic]
  have hversion : (archiveHeader serverVersion toolVersion).getStr "version" =
      some "0.1".toList := by
    simp [getStr, archiveHeader]
  obtain ⟨hcheck, hdocument⟩ := fromSlice_frame (C := C) (archiveHeader serverVersion toolVersion)
  have hloop := @inspectLoop_sources C sources (sources.map data).flatten 1 {}
    (by simpa using hcount) (by simpa using hbytes) (by simpa using hnodup)
  simp [inspect, decide_eq_true hlength, htake, hdrop, frames_toVec hheader, readDocument, hcheck,
    hdocument, hversion, hloop, previews]

end Archive

/-! ## Reading the data -/

variable {index : Nat}

section Stream

variable {catalog : Catalog C} {progress progress' : Progress C} {mode mode' : Mode} {count : Nat}

theorem streamLoop_next {events : List StreamEvent} (rest : Frames)
    (h : streamStep C catalog progress mode frame = .ok (mode', progress', events)) :
    streamLoop C catalog never count progress mode (.next frame rest) =
      (streamLoop C catalog never (count + 1) progress' mode' rest).map (events ++ ·) id := by
  have hcheck : mode.check never count = .ok () := by
    cases mode <;> rfl
  rw [streamLoop, hcheck]
  simp only [ok_bind, h, Prod.map, id]

/-- The catalog knows the collection at the index. -/
structure Catalog.Knows (catalog : Catalog C) (source : Source C) (index : Nat) : Prop where
  find : catalog.find C (namespaceOf C source.entry) = some index
  target : catalog.target C index = index
  view : catalog.isView C index = Mongo.isView source.entry.metadata

theorem openSegment_header {source : Source C} (hknows : catalog.Knows source index)
    (hopen : progress.finished index = false) {eof : Bool} {checksum : Int64}
    (hchecksum : eof = false → checksum = 0) :
    openSegment C catalog progress (segmentHeader C source.entry eof checksum) =
      .ok (index, eof, checksum.toUInt64) := by
  have hdb : stringOf (segmentHeader C source.entry eof checksum) "db" =
      .ok source.entry.database := by
    simp [getStr, segmentHeader]
  have hname : stringOf (segmentHeader C source.entry eof checksum) "collection" =
      .ok source.entry.metadata.collectionName := by
    simp [getStr, segmentHeader]
  have heof : (segmentHeader C source.entry eof checksum).getBool "EOF" = some eof := by
    simp [getBool, segmentHeader]
  have hcrc : (segmentHeader C source.entry eof checksum).getI64 "CRC" = some checksum := by
    simp [getI64, segmentHeader]
  have hfind := hknows.find
  rw [namespaceOf] at hfind
  have hplain : (!eof && checksum.toUInt64 ≠ 0) = false := by
    cases eof with
    | true => rfl
    | false =>
      rw [hchecksum rfl]
      decide
  have hkind : headerKind (segmentHeader C source.entry eof checksum) =
      .ok (eof, checksum.toUInt64) := by
    simp only [headerKind, heof, hcrc, hplain, Bool.false_eq_true, if_false]
  simp only [openSegment, hdb, hname, hfind, hopen, hkind, ok_bind, pure_eq, Bool.false_eq_true,
    if_false]

theorem streamStep_header {source : Source C} (hknows : catalog.Knows source index)
    (hopen : progress.finished index = false) {eof : Bool} {checksum : Int64}
    (hchecksum : eof = false → checksum = 0) :
    streamStep C catalog progress .header (.document (source.header eof checksum)) =
      .ok (if eof then .closing index checksum.toUInt64 else .segment index, progress, []) := by
  obtain ⟨hcheck, hdocument⟩ := fromSlice_frame (C := C) (segmentHeader C source.entry eof checksum)
  simp only [streamStep, header, hcheck, hdocument, ok_bind, pure_eq,
    openSegment_header hknows hopen hchecksum]
  cases eof <;> rfl

/-- The progress with another digest of a collection. -/
def Progress.setDigest (progress : Progress C) (index : Nat) (digest : C.Digest) : Progress C :=
  { progress with digests := fun i => if i = index then digest else progress.digests i }

open Progress

theorem setDigest_self (progress : Progress C) (index : Nat) :
    progress.setDigest index (progress.digests index) = progress := by
  unfold setDigest
  congr
  funext i
  split
  · next h => rw [h]
  · rfl

theorem setDigest_setDigest (progress : Progress C) (index : Nat) (digest digest' : C.Digest) :
    (progress.setDigest index digest).setDigest index digest' =
      progress.setDigest index digest' := by
  unfold setDigest
  congr
  funext i
  simp only
  split <;> rfl

theorem setDigest_digests (progress : Progress C) (index : Nat) (digest : C.Digest) :
    (progress.setDigest index digest).digests index = digest :=
  if_pos rfl

/-- The documents of a segment. -/
theorem streamLoop_documents (hview : catalog.isView C index = false)
    (documents : List Bytes) (rest : Frames) (count : Nat) (progress : Progress C) :
    ∃ count', streamLoop C catalog never count progress (.segment index)
        (documents.foldr (fun bytes later => .next (.document bytes) later)
          (.next .terminator rest)) =
      (streamLoop C catalog never count' (progress.setDigest index
        (documents.foldl C.update (progress.digests index))) .header rest).map
          (documents.map (.document (catalog.target C index)) ++ ·) id := by
  induction documents generalizing count progress with
  | nil =>
    refine ⟨count + 1, ?_⟩
    simp only [foldr_nil, foldl_nil, setDigest_self, map_nil]
    exact streamLoop_next rest rfl
  | cons bytes documents ih =>
    obtain ⟨count', hlater⟩ := ih (count + 1)
      (progress.setDigest index (C.update (progress.digests index) bytes))
    refine ⟨count', ?_⟩
    have hstep : streamStep C catalog progress (.segment index) (.document bytes) =
        .ok (.segment index, progress.setDigest index (C.update (progress.digests index) bytes),
          [.document (catalog.target C index) bytes]) := by
      simp only [streamStep, hview, Bool.false_eq_true, if_false, pure_eq]
      rfl
    rw [setDigest_digests, setDigest_setDigest] at hlater
    rw [foldr_cons, streamLoop_next _ hstep, hlater]
    simp

/-- A collection has been read: its digest, and that it is finished. -/
def Progress.finish (progress : Progress C) (source : Source C) (index : Nat) : Progress C where
  digests i := if i = index then source.digest else progress.digests i
  finished i := i = index || progress.finished i

theorem frames_header (eof : Bool) (checksum : Int64) (rest : Bytes) :
    frames C (source.header eof checksum ++ rest) =
      .next (.document (source.header eof checksum)) (frames C rest) :=
  frames_toVec (source.headers_fit eof checksum) rest

/-- The last header of a collection, behind its documents. -/
theorem streamLoop_last (hknows : catalog.Knows source index)
    (hopen : progress.finished index = false) (hdigest : progress.digests index = source.digest)
    (rest : Bytes) (count : Nat) :
    streamLoop C catalog never count progress .header
        (frames C (source.header true (C.finalize source.digest).toInt64 ++ (terminator ++ rest))) =
      (streamLoop C catalog never (count + 1 + 1) (progress.finish source index) .header
        (frames C rest)).map (.ended index :: ·) id := by
  have hheader : streamStep C catalog progress .header
      (.document (source.header true (C.finalize source.digest).toInt64)) =
        .ok (.closing index (C.finalize source.digest), progress, []) := by
    rw [streamStep_header hknows hopen (by simp), if_pos rfl, UInt64.toUInt64_toInt64]
  have hfinish : progress.finish source index =
      { progress with finished := fun i => i = index || progress.finished i } := by
    unfold finish
    congr
    funext i
    split
    · next h => rw [h, hdigest]
    · rfl
  have hclose : streamStep C catalog progress (.closing index (C.finalize source.digest))
      .terminator = .ok (.header, progress.finish source index, [.ended index]) := by
    simp only [streamStep, closeSegment, hdigest, if_true, ok_bind, pure_eq, hknows.target, hfinish]
  rw [frames_header, frames_terminator, streamLoop_next _ hheader, streamLoop_next _ hclose]
  rfl

/-- **One collection is read back.** -/
theorem streamLoop_source (hknows : catalog.Knows source index)
    (hfresh : progress.digests index = C.digest) (hopen : progress.finished index = false)
    (rest : Bytes) (count : Nat) :
    ∃ count', streamLoop C catalog never count progress .header (frames C (source.data ++ rest)) =
      (streamLoop C catalog never count' (progress.finish source index) .header
        (frames C rest)).map (source.events index ++ ·) id := by
  by_cases hnil : source.documents = []
  · have hdigest : progress.digests index = source.digest := by
      rw [hfresh, digest, hnil]
      rfl
    refine ⟨count + 1 + 1, ?_⟩
    -- a collection without documents has its last header only
    rw [data, if_pos hnil, nil_append, append_assoc,
      streamLoop_last source hknows hopen hdigest, events, hnil]
    rfl
  · -- a view has no documents
    have hview : catalog.isView C index = false := by
      rw [hknows.view, Bool.eq_false_iff]
      exact fun hview => hnil (source.view_empty hview)
    have hheader : streamStep C catalog progress .header (.document (source.header false 0)) =
        .ok (.segment index, progress, []) :=
      streamStep_header hknows hopen (fun _ => rfl)
    obtain ⟨count', hdocuments⟩ := streamLoop_documents hview source.documents
      (frames C (source.header true (C.finalize source.digest).toInt64 ++ (terminator ++ rest)))
      (count + 1) progress
    have hset : progress.setDigest index (source.documents.foldl C.update
      (progress.digests index)) = progress.setDigest index source.digest := by
      rw [hfresh]
      rfl
    have hfinish : (progress.setDigest index source.digest).finish source index =
        progress.finish source index := by
      unfold setDigest finish
      congr
      funext i
      simp only
      split <;> rfl
    have hopen' : (progress.setDigest index source.digest).finished index = false := hopen
    refine ⟨count' + 1 + 1, ?_⟩
    rw [data, if_neg hnil]
    simp only [append_assoc]
    rw [frames_header, streamLoop_next _ hheader, frames_documents, frames_terminator,
      hdocuments, hset, streamLoop_last source hknows hopen' (if_pos rfl), hfinish, hknows.target]
    simp [events]

/-- **The collections are read back, in their order.** -/
theorem streamLoop_sources (sources : List (Source C)) (start : Nat)
    (hknows : ∀ index (h : index < sources.length), catalog.Knows sources[index] (start + index))
    (hfresh : ∀ index, start ≤ index → progress.digests index = C.digest)
    (hopen : ∀ index, progress.finished index = decide (index < start)) (count : Nat) :
    ∃ count' progress' : _, (∀ index, progress'.finished index =
      decide (index < start + sources.length)) ∧
      streamLoop C catalog never count progress .header (frames C (sources.map data).flatten) =
        (streamLoop C catalog never count' progress' .header .done).map
          ((sources.zipIdx start).flatMap (fun source => source.1.events source.2) ++ ·) id := by
  induction sources generalizing start progress count with
  | nil => exact ⟨count, progress, by simpa using hopen, by simp⟩
  | cons source sources ih =>
    obtain ⟨count', hsource⟩ := streamLoop_source source (hknows 0 (by simp))
      (hfresh start (Nat.le_refl _)) (by rw [hopen]; simp)
      (sources.map data).flatten count
    have hknows' : ∀ index (h : index < sources.length),
        catalog.Knows sources[index] (start + 1 + index) := by
      intro index h
      have hnext := hknows (index + 1) (by simpa using h)
      rwa [show start + (index + 1) = start + 1 + index by omega] at hnext
    -- the collections before this one are finished, those behind it are untouched
    have hfresh' : ∀ index, start + 1 ≤ index →
        (progress.finish source (start + 0)).digests index = C.digest := by
      intro index hle
      exact (if_neg (by omega)).trans (hfresh index (by omega))
    have hopen' : ∀ index, (progress.finish source (start + 0)).finished index =
        decide (index < start + 1) := by
      intro index
      show (decide (index = start + 0) || progress.finished index) = _
      rw [hopen, ← Bool.decide_or]
      congr 1
      exact propext (by omega)
    obtain ⟨count'', progress'', hfinished, hrest⟩ := ih (start + 1) hknows' hfresh' hopen' count'
    refine ⟨count'', progress'', ?_, ?_⟩
    · intro index
      rw [hfinished, length_cons]
      congr 1
      exact propext (by omega)
    · rw [map_cons, flatten_cons, hsource, hrest]
      simp

end Stream

/-! ## The catalog -/

theorem index_of_namespace {entries : List C.Collection} {other : Nat}
    (hnodup : (entries.map (namespaceOf C)).Nodup) (hother : other < entries.length)
    (hindex : index < entries.length)
    (h : namespaceOf C entries[other] = namespaceOf C entries[index]) : other = index := by
  refine (getElem?_inj (by simpa using hother) hnodup).mp ?_
  simp [getElem?_eq_getElem hother, getElem?_eq_getElem hindex, h]

theorem find_of_nodup {entries : List C.Collection} (hnodup : (entries.map (namespaceOf C)).Nodup)
    (h : index < entries.length) :
    (entries.findIdx? fun entry => namespaceOf C entry = namespaceOf C entries[index]) =
      some index := by
  rw [findIdx?_eq_some_iff_getElem]
  refine ⟨h, by simp, ?_⟩
  intro other hother heq
  exact hother.ne (index_of_namespace hnodup (hother.trans h) h (by simpa using heq))

section Archive

include hnodup

theorem previews_nodup : ((previews sources).map (namespaceOf C)).Nodup := by
  simpa [previews, namespaceOf, Function.comp_def] using hnodup

/-- The collections are where the caller expects them. -/
theorem catalogOf_previews :
    catalogOf C (previews sources) (previews sources) =
      .ok ⟨previews sources, range' 0 (previews sources).length⟩ := by
  have hmapped : (previews sources).mapM (expectedIndex C (previews sources)) =
      .ok (range' 0 (previews sources).length) := by
    apply mapM_range_ok
    intro index hi
    have hsource : index < sources.length := by simpa [previews] using hi
    have hjson : toJson C ((previews sources)[index]).metadata = .ok (sources[index]).json := by
      simpa [previews] using (sources[index]).json_eq
    unfold expectedIndex
    rw [find_of_nodup (previews_nodup hnodup) hi]
    simp [getElem?_eq_getElem hi, hjson]
  simp [catalogOf, hmapped]

theorem previews_knows (h : index < sources.length) :
    (⟨previews sources, range' 0 (previews sources).length⟩ : Catalog C).Knows
      sources[index] (0 + index) := by
  have hi : index < (previews sources).length := by simpa [previews] using h
  have hentry : (previews sources)[index] = (sources[index]).preview := by simp [previews]
  refine ⟨?_, ?_, ?_⟩
  · have hfind := find_of_nodup (previews_nodup hnodup) hi
    rw [hentry] at hfind
    rw [Nat.zero_add]
    exact hfind
  · simp [Catalog.target, previews, h]
  · simp [Catalog.isView, getElem?_eq_getElem hi, hentry]

include hheader hcount hbytes

/-- **What is packed is streamed back**: for each collection its documents in order, and then its
end. -/
theorem stream_archive :
    stream C never (previews sources) (archive sources serverVersion toolVersion) =
      (sources.zipIdx.flatMap fun source => source.1.events source.2, .ok ()) := by
  have hinspect := inspect_archive hheader hcount hbytes hnodup
  have hloop := @streamLoop_sources C ⟨previews sources, range' 0 (previews sources).length⟩ {}
    sources 0 (fun index h => previews_knows hnodup h) (fun _ _ => rfl) (by simp)
    (1 + sources.length + 1)
  obtain ⟨count', progress', hfinished, hloop⟩ := hloop
  -- every collection has had its last header
  have hmissing : missing C ⟨previews sources, range' 0 (previews sources).length⟩ progress' =
      .ok () := by
    unfold missing
    have hnone : ((previews sources).zipIdx.find? fun entry => !progress'.finished entry.2) =
      none := by
      rw [find?_eq_none]
      rintro ⟨entry, index⟩ hmem
      have hindex : index < (previews sources).length := snd_lt_of_mem_zipIdx hmem
      rw [hfinished]
      simpa [previews] using hindex
    rw [hnone]
  have hend : streamLoop C ⟨previews sources, range' 0 (previews sources).length⟩ never count'
      progress' .header .done = ([], .ok ()) := by
    rw [streamLoop]
    simp only [Mode.check, never, streamEnd, hmissing, ok_bind]
  simp [stream, hinspect, catalogOf_previews hnodup, hloop, hend, id]

end Archive

end Dbx.Mongo
