import Dbx.Encoding.PrefixCode
import Dbx.Result.Basic
import Dbx.Text.Basic

/-!
# MongoDB archives

An archive is a magic number, a header, one prelude document for each collection, and a terminator;
then segments of documents, each with a header that names its collection, and for each collection a
last header with the checksum of its documents. Segments of several collections may alternate.

Documents carry their length in their first four bytes, so an archive is read frame by frame. BSON,
the JSON of the metadata and the checksum are parameters.

## Main definitions

* `Codec`: BSON, the metadata and the checksum
* `readRawFrame`, `frames`: an archive as a sequence of frames
* `inspect`: the collections of the prelude
* `stream`: the documents and the ends of the collections, in the order of the archive
* `pack`: the archive of a list of collections
* `plainCodec`: a codec
-/

namespace Dbx.Mongo

open Text List
open String (ofList)

abbrev Bytes := List UInt8

/-- `MAX_DOCUMENT`. -/
def maxDocument : Nat := 16 * 1024 * 1024

/-- `TERMINATOR`. -/
def terminator : Bytes := [255, 255, 255, 255]

/-- `MAGIC`, as the archive holds it. -/
def magic : Bytes := [0x6d, 0xe2, 0x99, 0x81]

/-- The values in the headers of an archive. -/
inductive Value
  | str (text : Text)
  | bool (value : Bool)
  | int32 (value : Int32)
  | int64 (value : Int64)
  | other (code : Nat)
  deriving DecidableEq, Repr

abbrev Document := List (String × Value)

namespace Document

/-- `get_str`. -/
def getStr (document : Document) (key : String) : Option Text :=
  match document.lookup key with
  | some (.str text) => some text
  | _ => none

/-- `get_bool`. -/
def getBool (document : Document) (key : String) : Option Bool :=
  match document.lookup key with
  | some (.bool value) => some value
  | _ => none

/-- `get_i64`. -/
def getI64 (document : Document) (key : String) : Option Int64 :=
  match document.lookup key with
  | some (.int64 value) => some value
  | _ => none

end Document

/-- `CollectionMetadata`. -/
structure CollectionMetadata (Options Index : Type) where
  options : Options
  indexes : List Index
  uuid : Option Text
  collectionName : Text
  kind : Text

/-- The number in the first four bytes of a document. -/
def leNat : UInt8 → UInt8 → UInt8 → UInt8 → Nat
  | a, b, c, d => a.toNat + 256 * b.toNat + 65536 * c.toNat + 16777216 * d.toNat

/-- `i32::from_le_bytes`. -/
def fromLeBytes (a b c d : UInt8) : Int :=
  if leNat a b c d < 2 ^ 31 then leNat a b c d else (leNat a b c d : Int) - 2 ^ 32

/-- The first four bytes hold the length, which is within the limits. -/
def Measured : Bytes → Prop
  | a :: b :: c :: d :: rest =>
    fromLeBytes a b c d = rest.length + 4 ∧ 5 ≤ rest.length + 4 ∧ rest.length + 4 ≤ maxDocument
  | _ => False

/-- What is not under the repository: BSON, the extended JSON of the metadata, the options that the
driver knows, and the checksum. A document of a permitted size is written with its length, and read
back; the checksum of nothing is zero. -/
structure Codec where
  Options : Type
  Index : Type
  Digest : Type
  toVec : Document → Bytes
  fromSlice : Bytes → Except String Document
  fromBytes : Bytes → Except String Unit
  printMetadata : CollectionMetadata Options Index → Except String Text
  parseMetadata : Text → Text → Except String (CollectionMetadata Options Index)
  noOptions : Options
  optionKeys : Options → List Text
  optionStr : Options → Text → Option Text
  knownOptions : Options → Except String (List Text)
  indexHasKey : Index → Bool
  indexHasName : Index → Bool
  digest : Digest
  update : Digest → Bytes → Digest
  finalize : Digest → UInt64
  fromSlice_toVec : ∀ document, fromSlice (toVec document) = .ok document
  fromBytes_toVec : ∀ document, fromBytes (toVec document) = .ok ()
  measured_toVec : ∀ document, (toVec document).length ≤ maxDocument → Measured (toVec document)
  finalize_digest : finalize digest = 0

/-- `PreparedCollection`, with the content of the file at its path. -/
structure PreparedCollection (Options Index : Type) where
  database : Text
  metadata : CollectionMetadata Options Index
  file : Option Bytes
  documents : UInt64

variable (C : Codec)

/-! ## Metadata -/

abbrev Codec.Metadata := CollectionMetadata C.Options C.Index

abbrev Codec.Collection := PreparedCollection C.Options C.Index

/-- `validate_database`. -/
def validateDatabase (name : Text) : Except String Unit :=
  if name.isEmpty || 63 < byteLen name ||
      name.any (fun c => isControl c || " /\\.\"$*<>:|?".toList.contains c) then
    .error "Invalid MongoDB database name"
  else if name = "admin".toList || name = "config".toList || name = "local".toList then
    .error ("Internal MongoDB databases and user/role migration are not supported by " ++
      "database dump/restore")
  else .ok ()

/-- `validate_collection`. -/
def validateCollection (name : Text) : Except String Unit :=
  if name.isEmpty || name.contains '\x00' || name.contains '$' ||
      ("system.".toList.isPrefixOf name && name != "system.js".toList) then
    .error ("Unsupported MongoDB collection name: " ++ ofList name)
  else .ok ()

section Metadata

variable {C}

/-- `is_view`. -/
def isView (metadata : C.Metadata) : Bool := metadata.kind = "view".toList

variable (C)

/-- `CollectionMetadata::empty`. -/
def emptyMetadata (name : Text) : C.Metadata :=
  ⟨C.noOptions, [], none, name, "collection".toList⟩

/-- The options that are allowed though the driver does not know them. -/
def toleratedOptions : List Text := ["autoIndexId".toList, "recordIdsReplicated".toList]

/-- `validate`. -/
def validate (metadata : C.Metadata) : Except String Unit := do
  let name := ofList metadata.collectionName
  validateCollection metadata.collectionName
  let known ← (C.knownOptions metadata.options).mapError
    fun e => "Invalid collection options for " ++ name ++ ": " ++ e
  match (C.optionKeys metadata.options).find? fun key => key ∉ known && key ∉ toleratedOptions with
  | some key =>
    throw ("Unsupported collection option for " ++ name ++ ": " ++ ofList key)
  | none => pure ()
  if metadata.kind = "timeseries".toList ||
      (C.optionKeys metadata.options).contains "timeseries".toList ||
      (C.optionKeys metadata.options).contains "encryptedFields".toList then
    throw (name ++ ": time-series and encrypted collection dumps require server-specific " ++
      "restore support")
  if metadata.kind ≠ "collection".toList && metadata.kind ≠ "view".toList then
    throw ("Unsupported collection type: " ++ ofList metadata.kind)
  if isView metadata then
    if C.optionStr metadata.options "viewOn".toList = none then
      throw (name ++ ": view metadata is missing viewOn")
    if !metadata.indexes.isEmpty then throw "View metadata cannot contain indexes"
  for index in metadata.indexes do
    if !C.indexHasKey index then throw "Index metadata is missing key"
    if !C.indexHasName index then throw "Index metadata is missing name"

/-- The defaults that `from_json` fills in. -/
def withDefaults (metadata : C.Metadata) (name : Text) : C.Metadata :=
  let collectionName := if metadata.collectionName.isEmpty then name else metadata.collectionName
  let kind := if metadata.kind.isEmpty then
      if (C.optionKeys metadata.options).contains "viewOn".toList then "view".toList
      else "collection".toList
    else metadata.kind
  { metadata with collectionName, kind }

/-- `from_json`. -/
def fromJson (json name : Text) : Except String C.Metadata := do
  let metadata ← C.parseMetadata json name
  let metadata := withDefaults C metadata name
  validate C metadata
  return metadata

/-- `to_json`. -/
def toJson (metadata : C.Metadata) : Except String Text := do
  let json ← C.printMetadata metadata
  if maxDocument < byteLen json then throw "Collection metadata exceeds 16 MiB"
  return json

end Metadata

/-! ## Frames -/

/-- `Frame`, but for the end of the input. -/
inductive Frame
  | terminator
  | document (bytes : Bytes)
  deriving DecidableEq, Repr

/-- The bytes of a frame. -/
def Frame.bytes : Frame → Bytes
  | .terminator => Mongo.terminator
  | .document bytes => bytes

/-- `read_raw_frame`: the frame and the input behind it, and nothing at the end of the input. -/
def readRawFrame (input : Bytes) : Except String (Option (Frame × Bytes)) :=
  match input with
  | [] => .ok none
  | a :: b :: c :: d :: rest =>
    if [a, b, c, d] = terminator then .ok (some (.terminator, rest))
    else
      let length := fromLeBytes a b c d
      if length < 5 || (maxDocument : Int) < length then
        .error ("Invalid BSON frame length: " ++ toString length)
      else if rest.length < length.toNat - 4 then
        .error "Truncated BSON document: failed to fill whole buffer"
      else
        let bytes := a :: b :: c :: d :: rest.take (length.toNat - 4)
        match C.fromBytes bytes with
        | .error e => .error ("Invalid BSON document: " ++ e)
        | .ok () => .ok (some (.document bytes, rest.drop (length.toNat - 4)))
  | _ => .error "Truncated BSON header: failed to fill whole buffer"

/-- The frames of an input: it ends, or a frame cannot be read. -/
inductive Frames
  | done
  | failed (error : String)
  | next (frame : Frame) (rest : Frames)

/-- What a frame that was read is known to be. -/
def Frame.Readable (C : Codec) : Frame → Prop
  | .terminator => True
  | .document bytes => Measured bytes ∧ C.fromBytes bytes = .ok ()

variable {C} {input rest : Bytes} {frame : Frame}

theorem readRawFrame_spec
    (h : readRawFrame C input = .ok (some (frame, rest))) :
    input = frame.bytes ++ rest ∧ frame.Readable C := by
  unfold readRawFrame at h
  split at h
  · cases h
  · next a b c d tail =>
    split at h
    · next hterminator =>
      cases h
      refine ⟨?_, trivial⟩
      rw [Frame.bytes, ← hterminator]
      rfl
    · simp only at h
      split at h
      · cases h
      next hbounds =>
      split at h
      · cases h
      next hlength =>
      split at h <;> cases h
      next hvalid =>
        simp only [Bool.or_eq_true, decide_eq_true_eq, not_or] at hbounds
        have htake : (tail.take ((fromLeBytes a b c d).toNat - 4)).length =
            (fromLeBytes a b c d).toNat - 4 := length_take_of_le (by omega)
        refine ⟨by simp [Frame.bytes], ⟨?_, ?_, ?_⟩, hvalid⟩ <;> omega
  · cases h

variable (C)

theorem readRawFrame_length (h : readRawFrame C input = .ok (some (frame, rest))) :
    rest.length < input.length := by
  obtain ⟨rfl, hreadable⟩ := readRawFrame_spec h
  have hne : frame.bytes ≠ [] := by
    cases frame with
    | terminator => exact cons_ne_nil _ _
    | document bytes =>
      rintro (rfl : bytes = [])
      exact hreadable.1
  rw [length_append]
  exact Nat.lt_add_of_pos_left (length_pos_iff.mpr hne)

/-- Reading an input to its end. -/
def frames (input : Bytes) : Frames :=
  match h : readRawFrame C input with
  | .error e => .failed e
  | .ok none => .done
  | .ok (some (frame, rest)) =>
    have := readRawFrame_length C h
    .next frame (frames rest)
termination_by input.length

/-- The deep check of `read_frame`. -/
def checkFrame : Frame → Except String Unit
  | .terminator => .ok ()
  | .document bytes =>
    match C.fromSlice bytes with
    | .ok _ => .ok ()
    | .error e => .error ("Invalid BSON document: " ++ e)

/-- `document`. -/
def documentOf : Frame → Except String Document
  | .document bytes => C.fromSlice bytes
  | .terminator => .error "Expected an archive BSON header"

/-- The document of a frame that `read_frame` reads. -/
def readDocument : Frames → Except String (Document × Frames)
  | .done => .error "Expected an archive BSON header"
  | .failed e => .error e
  | .next frame rest => do
    checkFrame C frame
    let document ← documentOf C frame
    return (document, rest)

/-- `string`. -/
def stringOf (document : Document) (key : String) : Except String Text :=
  match document.getStr key with
  | some text => .ok text
  | none => .error ("Archive header is missing " ++ key)

/-! ## The prelude -/

def namespaceOf (entry : C.Collection) : Text × Text :=
  (entry.database, entry.metadata.collectionName)

/-- What `inspect` has found. -/
structure Prelude where
  entries : List C.Collection := []
  metadataBytes : Nat := 0

/-- The metadata of a prelude document: an empty text stands for a collection without options. -/
def metadataOf (json name : Text) : Except String C.Metadata :=
  if json.isEmpty then .ok (emptyMetadata C name) else fromJson C json name

/-- The body of the loop of `inspect`, for a header. -/
def addEntry (found : Prelude C) (header : Document) : Except String (Prelude C) := do
  let database ← stringOf header "db"
  validateDatabase database
  let name ← stringOf header "collection"
  let json ← stringOf header "metadata"
  let metadataBytes := found.metadataBytes + byteLen json
  require (!(100000 ≤ found.entries.length || 128 * 1024 * 1024 < metadataBytes))
    "Archive metadata exceeds the supported limit"
  let metadata ← metadataOf C json name
  validate C metadata
  require (metadata.collectionName = name) "Archive namespace does not match collection metadata"
  require (header.getStr "type" ≠ some "timeseries".toList)
    "Time-series archives require server-specific restore support"
  require (!(found.entries.map (namespaceOf C)).contains (database, name))
    "Duplicate archive namespace"
  return ⟨found.entries ++ [⟨database, metadata, none, 0⟩], metadataBytes⟩

/-- Cancellation: the answer of `check` with the number of frames read so far. -/
abbrev Check := Nat → Except String Unit

/-- The loop of `inspect`. -/
def inspectLoop (check : Check) (count : Nat) (found : Prelude C) :
    Frames → Except String (Prelude C × Nat × Frames)
  | .done => do
    check count
    throw "Expected an archive BSON header"
  | .failed e => do
    check count
    throw e
  | .next .terminator rest => do
    check count
    return (found, count + 1, rest)
  | .next (.document bytes) rest => do
    check count
    checkFrame C (.document bytes)
    let header ← documentOf C (.document bytes)
    let found ← addEntry C found header
    inspectLoop check (count + 1) found rest

/-- `inspect`: the collections, and what follows the prelude. -/
def inspect (check : Check) (input : Bytes) :
    Except String (List C.Collection × Nat × Frames) := do
  require (4 ≤ input.length) "Invalid MongoDB archive: failed to fill whole buffer"
  require (input.take 4 = magic) "Not a MongoDB --archive file"
  let (header, rest) ← readDocument C (frames C (input.drop 4))
  require (header.getStr "version" = some "0.1".toList) "Unsupported MongoDB archive version"
  let (found, count, rest) ← inspectLoop C check 1 {} rest
  return (found.entries, count, rest)

/-! ## The stream -/

/-- `StreamEvent`. -/
inductive StreamEvent
  | document (index : Nat) (bytes : Bytes)
  | ended (index : Nat)
  deriving DecidableEq, Repr

/-- What is known before the loop of `stream`: the collections of the prelude, and where the caller
expects them. -/
structure Catalog where
  entries : List C.Collection
  mapped : List Nat

def Catalog.find (catalog : Catalog C) (namespaceName : Text × Text) : Option Nat :=
  catalog.entries.findIdx? fun entry => namespaceOf C entry = namespaceName

/-- Where the caller expects a collection. -/
def expectedIndex (expected : List C.Collection) (entry : C.Collection) : Except String Nat :=
  match expected.findIdx? fun e => namespaceOf C e = namespaceOf C entry with
  | none => .error "Archive metadata changed after preview"
  | some index =>
    match expected[index]? with
    | none => .error "Archive metadata changed after preview"
    | some e => do
      let json ← toJson C e.metadata
      let json' ← toJson C entry.metadata
      require (json = json') "Archive metadata changed after preview"
      return index

/-- The first part of `stream`. -/
def catalogOf (expected entries : List C.Collection) : Except String (Catalog C) := do
  require (entries.length = expected.length) "Archive metadata changed after preview"
  let mapped ← entries.mapM (expectedIndex C expected)
  return ⟨entries, mapped⟩

/-- The digests of the collections, and those whose last header was read. -/
structure Progress where
  digests : Nat → C.Digest := fun _ => C.digest
  finished : Nat → Bool := fun _ => false

/-- Whether a header is the last of its collection, and its checksum. -/
def headerKind (header : Document) : Except String (Bool × UInt64) :=
  match header.getBool "EOF", header.getI64 "CRC" with
  | none, _ => .error "Archive header is missing EOF"
  | some _, none => .error "Archive header is missing CRC"
  | some eof, some checksum =>
    if !eof && checksum.toUInt64 ≠ 0 then .error "Non-EOF archive header contains a checksum"
    else .ok (eof, checksum.toUInt64)

/-- A header of the stream: its collection, and what it says. -/
def openSegment (catalog : Catalog C) (progress : Progress C) (header : Document) :
    Except String (Nat × Bool × UInt64) := do
  let database ← stringOf header "db"
  let name ← stringOf header "collection"
  match catalog.find C (database, name) with
  | none => .error "Unknown namespace in archive data"
  | some index =>
    if progress.finished index then .error "Archive contains data after namespace EOF"
    else return (index, ← headerKind header)

def displayName (entry : C.Collection) : String :=
  ofList entry.database ++ "." ++ ofList entry.metadata.collectionName

/-- The last header of a collection is correct. -/
def closeSegment (catalog : Catalog C) (progress : Progress C) (index : Nat) (checksum : UInt64) :
    Except String Unit :=
  if C.finalize (progress.digests index) = checksum then .ok ()
  else .error ("Archive checksum mismatch: " ++
    ((catalog.entries[index]?.map (displayName C)).getD ""))

def Catalog.target (catalog : Catalog C) (index : Nat) : Nat := (catalog.mapped[index]?).getD 0

def Catalog.isView (catalog : Catalog C) (index : Nat) : Bool :=
  (catalog.entries[index]?.map fun entry => Mongo.isView entry.metadata).getD false

/-- The collection has no last header. -/
def missing (catalog : Catalog C) (progress : Progress C) : Except String Unit :=
  match catalog.entries.zipIdx.find? fun entry => !progress.finished entry.2 with
  | some (entry, _) => .error ("Missing archive EOF: " ++ displayName C entry)
  | none => .ok ()

/-- Where the loops of `stream` stand. -/
inductive Mode
  /-- The outer loop, before a header. -/
  | header
  /-- The inner loop, in a segment of the collection. -/
  | segment (index : Nat)
  /-- Behind the last header of the collection. -/
  | closing (index : Nat) (checksum : UInt64)
  deriving DecidableEq, Repr

/-- One frame in the loops of `stream`. -/
def streamStep (catalog : Catalog C) (progress : Progress C) (mode : Mode) (frame : Frame) :
    Except String (Mode × Progress C × List StreamEvent) :=
  match mode, frame with
  | .header, frame => do
    checkFrame C frame
    let header ← documentOf C frame
    let (index, eof, checksum) ← openSegment C catalog progress header
    if eof then return (.closing index checksum, progress, [])
    return (.segment index, progress, [])
  | .closing index checksum, .terminator => do
    closeSegment C catalog progress index checksum
    let progress := { progress with finished := fun i => i = index || progress.finished i }
    return (.header, progress, [.ended (catalog.target C index)])
  | .closing _ _, .document bytes => do
    checkFrame C (.document bytes)
    throw "Invalid archive EOF terminator"
  | .segment index, .document bytes => do
    if catalog.isView C index then throw "Archive contains BSON documents for a view"
    let digest := C.update (progress.digests index) bytes
    let progress := { progress with
      digests := fun i => if i = index then digest else progress.digests i }
    return (.segment index, progress, [.document (catalog.target C index) bytes])
  | .segment _, .terminator => return (.header, progress, [])

/-- The end of the input in the loops of `stream`. -/
def streamEnd (catalog : Catalog C) (progress : Progress C) : Mode → Except String Unit
  | .header => missing C catalog progress
  | .closing _ _ => .error "Invalid archive EOF terminator"
  | .segment _ => .error "Truncated archive namespace segment"

/-- Cancellation is looked for before a header and before a document. -/
def Mode.check (check : Check) (count : Nat) : Mode → Except String Unit
  | .closing _ _ => .ok ()
  | _ => check count

/-- The loops of `stream`: the events, and how it ended. -/
def streamLoop (catalog : Catalog C) (check : Check) :
    Nat → Progress C → Mode → Frames → List StreamEvent × Except String Unit
  | count, progress, mode, .done =>
    ([], do mode.check check count; streamEnd C catalog progress mode)
  | count, _, mode, .failed e => ([], do mode.check check count; throw e)
  | count, progress, mode, .next frame rest =>
    match (do mode.check check count; streamStep C catalog progress mode frame) with
    | .error e => ([], .error e)
    | .ok (mode, progress, events) =>
      let later := streamLoop catalog check (count + 1) progress mode rest
      (events ++ later.1, later.2)

/-- `stream`, as the events that it emits. -/
def stream (check : Check) (expected : List C.Collection) (input : Bytes) :
    List StreamEvent × Except String Unit :=
  match (do
    let (entries, count, rest) ← inspect C check input
    let catalog ← catalogOf C expected entries
    return (catalog, count, rest) : Except String (Catalog C × Nat × Frames)) with
  | .error e => ([], .error e)
  | .ok (catalog, count, rest) => streamLoop C catalog check count {} .header rest

/-! ## Packing -/

/-- `write_document`. -/
def writeDocument (document : Document) : Except String Bytes :=
  let bytes := C.toVec document
  if maxDocument < bytes.length then
    .error "Archive metadata exceeds the BSON document limit"
  else .ok bytes

/-- The header of an archive. -/
def archiveHeader (serverVersion toolVersion : Text) : Document :=
  [("concurrent_collections", .int32 1), ("version", .str "0.1".toList),
    ("server_version", .str serverVersion), ("tool_version", .str ("DBX ".toList ++ toolVersion))]

/-- The prelude document of a collection. -/
def preludeHeader (entry : C.Collection) (json : Text) : Document :=
  [("db", .str entry.database), ("collection", .str entry.metadata.collectionName),
    ("metadata", .str json), ("size", .int64 entry.documents.toInt64),
    ("type", .str (if isView entry.metadata then "view".toList else []))]

/-- A header of the data of a collection. -/
def segmentHeader (entry : C.Collection) (eof : Bool) (checksum : Int64) : Document :=
  [("db", .str entry.database), ("collection", .str entry.metadata.collectionName),
    ("EOF", .bool eof), ("CRC", .int64 checksum)]

/-- The loop of `pack` over the documents of a file. -/
def packDocuments (entry : C.Collection) (check : Check) :
    Nat → C.Digest → Bool → Frames → Except String (Bytes × C.Digest × Bool)
  | count, digest, opened, .done => do
    check count
    return ([], digest, opened)
  | count, _, _, .failed e => do
    check count
    throw e
  | count, _, _, .next .terminator _ => do
    check count
    throw "Unexpected terminator in BSON file"
  | count, digest, opened, .next (.document bytes) rest => do
    check count
    checkFrame C (.document bytes)
    let opening ← if opened then pure [] else writeDocument C (segmentHeader C entry false 0)
    let (later, digest, opened) ←
      packDocuments entry check (count + 1) (C.update digest bytes) true rest
    return (opening ++ bytes ++ later, digest, opened)

/-- The data of one collection. -/
def packData (entry : C.Collection) (check : Check) : Except String Bytes := do
  check 0
  if isView entry.metadata then
    let header ← writeDocument C (segmentHeader C entry true 0)
    return header ++ terminator
  match entry.file with
  | none => throw "Missing collection BSON file"
  | some file =>
    let (data, digest, opened) ← packDocuments C entry check 1 C.digest false (frames C file)
    let closing ← writeDocument C (segmentHeader C entry true (C.finalize digest).toInt64)
    return data ++ (if opened then terminator else []) ++ closing ++ terminator

/-- The prelude document of one collection. -/
def packPrelude (check : Check) (entry : C.Collection) : Except String Bytes := do
  check 0
  let json ← toJson C entry.metadata
  writeDocument C (preludeHeader C entry json)

/-- `pack`. Each collection has its own answers of `check`. -/
def pack (entries : List C.Collection) (serverVersion toolVersion : Text)
    (check : Nat → Check) : Except String Bytes := do
  let header ← writeDocument C (archiveHeader serverVersion toolVersion)
  let prelude ← entries.zipIdx.mapM fun entry => packPrelude C (check entry.2) entry.1
  let data ← entries.zipIdx.mapM fun entry => packData C entry.1 (check (entries.length + entry.2))
  return magic ++ header ++ prelude.flatten ++ terminator ++ data.flatten

/-! ## A codec

What is assumed of BSON, of the metadata and of the checksum is met by plain code: documents are
written in a prefix code behind their length, and the metadata is the kind of the collection. -/

open PrefixCode

/-- Words of 64 bits. -/
def wordCode : PrefixCode Int64 :=
  (fixed 8).retract (fun w => ⟨w.toUInt64.toNat, w.toUInt64.toNat_lt⟩)
    (fun n => (UInt64.ofNat n).toInt64) (by
      intro w
      show (UInt64.ofNat w.toUInt64.toNat).toInt64 = w
      rw [UInt64.ofNat_toNat]
      rfl)

/-- Words of 32 bits. -/
def shortCode : PrefixCode Int32 :=
  (fixed 4).retract (fun w => ⟨w.toUInt32.toNat, w.toUInt32.toNat_lt⟩)
    (fun n => (UInt32.ofNat n).toInt32) (by
      intro w
      show (UInt32.ofNat w.toUInt32.toNat).toInt32 = w
      rw [UInt32.ofNat_toNat]
      rfl)

/-- The values of a document. -/
def valueCode : PrefixCode Value :=
  (char.list.sum (unary.sum (shortCode.sum (wordCode.sum unary)))).retract
    (fun
      | .str text => .inl text
      | .bool value => .inr (.inl value.toNat)
      | .int32 value => .inr (.inr (.inl value))
      | .int64 value => .inr (.inr (.inr (.inl value)))
      | .other code => .inr (.inr (.inr (.inr code))))
    (fun
      | .inl text => .str text
      | .inr (.inl value) => .bool (value != 0)
      | .inr (.inr (.inl value)) => .int32 value
      | .inr (.inr (.inr (.inl value))) => .int64 value
      | .inr (.inr (.inr (.inr code))) => .other code)
    (by
      intro value
      cases value with
      | bool value => cases value <;> rfl
      | _ => rfl)

/-- Documents. -/
def documentCode : PrefixCode Document :=
  ((char.list.retract String.toList String.ofList fun _ => String.ofList_toList).prod
    valueCode).list

def written (document : Document) : Bytes :=
  leBytes 4 ((documentCode.encode document).length + 4) ++ documentCode.encode document

/-- The document that was written. -/
def reread (bytes : Bytes) : Except String Document :=
  match documentCode.decode (bytes.drop 4) with
  | some (document, []) => .ok document
  | _ => .error "not a document"

theorem reread_written (document : Document) : reread (written document) = .ok document := by
  have hdrop : (written document).drop 4 = documentCode.encode document ++ [] := by
    rw [append_nil, written, drop_left' (length_leBytes 4 _)]
  rw [reread, hdrop, documentCode.decode_encode]

open UInt8

theorem fromLeBytes_ofNat {n : Nat} (h : n < 2 ^ 31) :
    fromLeBytes (ofNat n) (ofNat (n / 256)) (ofNat (n / 256 / 256))
      (ofNat (n / 256 / 256 / 256)) = n := by
  have hvalue : leNat (ofNat n) (ofNat (n / 256)) (ofNat (n / 256 / 256))
      (ofNat (n / 256 / 256 / 256)) = n := by
    simp only [leNat, toNat_ofNat']
    omega
  rw [fromLeBytes, hvalue, if_pos h]

/-- A document holds its length. -/
theorem measured_written {document : Document} (h : (written document).length ≤ maxDocument) :
    Measured (written document) := by
  have hpos : 0 < (documentCode.encode document).length :=
    Nat.lt_of_le_of_lt (Nat.zero_le _) (length_lt_encodeList _ document)
  rw [written, length_append, length_leBytes] at h
  have hlimit : maxDocument < 2 ^ 31 := by decide
  have hlength := @fromLeBytes_ofNat ((documentCode.encode document).length + 4) (by omega)
  refine ⟨?_, ?_, ?_⟩
  · rw [hlength]
    rfl
  · show 5 ≤ (documentCode.encode document).length + 4
    omega
  · show (documentCode.encode document).length + 4 ≤ maxDocument
    omega

/-- **The codec**, with a checksum that depends on all bytes. -/
def plainCodec : Codec where
  Options := Unit
  Index := Unit
  Digest := UInt64
  toVec := written
  fromSlice := reread
  fromBytes bytes := (reread bytes).map fun _ => ()
  printMetadata metadata := .ok metadata.kind
  parseMetadata json name := .ok ⟨(), [], none, name, json⟩
  noOptions := ()
  optionKeys _ := []
  optionStr _ _ := none
  knownOptions _ := .ok []
  indexHasKey _ := true
  indexHasName _ := true
  digest := 0
  update digest bytes := bytes.foldl (fun digest byte => digest * 31 + byte.toUInt64) digest
  finalize digest := digest
  fromSlice_toVec := reread_written
  fromBytes_toVec document := by
    rw [reread_written]
    rfl
  measured_toVec _ h := measured_written h
  finalize_digest := rfl

end Dbx.Mongo
