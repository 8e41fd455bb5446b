import Mathlib.Data.List.ModifyLast
import Dbx.Text.Basic

/-!
# Writing an export in parts

`SplitZipExportWriter` writes the units of an SQL export into the parts of an archive. Before a unit
is written it is checked whether the unit still fits into the part that is open; if not, the next
part is started first. At the end a manifest lists the parts in their order.

The archive keeps what is written into it, under the names it is given.
-/

namespace Dbx.Export

open Text List

abbrev Bytes := List UInt8

/-- An entry of an archive: its name, the size that the archive declares for it, and its content. -/
structure Entry where
  name : Text
  size : Nat
  content : Bytes
  deriving DecidableEq

/-- The entries of an archive, in the order in which they were written. -/
abbrev Archive := List Entry

/-! ## The size and the names of the parts -/

/-- `MIN_SPLIT_PART_MAX_MB`. -/
def minSplitPartMaxMb : Nat := 1
/-- `MAX_SPLIT_PART_MAX_MB`. -/
def maxSplitPartMaxMb : Nat := 4096

/-- `clamp_split_part_max_mb`. -/
def clampSplitPartMaxMb (value : Nat) : Nat := max minSplitPartMaxMb (min value maxSplitPartMaxMb)

/-- `split_part_max_bytes`. -/
def splitPartMaxBytes (maxMb : Nat) : Nat := clampSplitPartMaxMb maxMb * 1024 * 1024

def isPlain (c : Char) : Bool := c.isAlphanum || c = '-' || c = '_' || c = '.'

/-- `sanitize_zip_entry_component`. -/
def sanitizeZipEntryComponent (value : Text) : Text :=
  let sanitized := value.map fun c => if isPlain c then c else '_'
  let trimmed := trimMatches (· = '_') sanitized
  if trimmed.isEmpty then "export".toList else trimmed

/-- The name of a part: `{stem}-part-{n}.{extension}`. -/
def partName (stem extension : Text) (index : Nat) : Text :=
  stem ++ "-part-".toList ++ Nat.toDigits 10 index ++ '.' :: extension

/-! ## The writer -/

def manifestName : Text := "manifest.json".toList

def manifestFormat : Text := "dbx-sql-export-parts-v1".toList

/-- `SplitExportManifest`. -/
structure SplitExportManifest where
  format : Text
  generatedAt : Text
  sourceFileName : Text
  partMaxBytes : Nat
  totalParts : Nat
  parts : List Text
  deriving DecidableEq

/-- `SplitZipExportWriter`. The last entry of `zip` is open for writing. -/
structure SplitZipExportWriter where
  zip : Archive
  partMaxBytes : Nat
  currentPartBytes : Nat
  partIndex : Nat
  partStem : Text
  partExtension : Text
  partNames : List Text

/-- `write_all` to the open entry. -/
def Entry.write (entry : Entry) (bytes : Bytes) : Entry :=
  { entry with size := entry.size + bytes.length, content := entry.content ++ bytes }

namespace SplitZipExportWriter

/-- `start_next_part`. -/
def startNextPart (writer : SplitZipExportWriter) : SplitZipExportWriter :=
  let name := partName writer.partStem writer.partExtension (writer.partIndex + 1)
  { writer with
    zip := writer.zip ++ [{ name := name, size := 0, content := [] }]
    partIndex := writer.partIndex + 1
    partNames := writer.partNames ++ [name]
    currentPartBytes := 0 }

/-- `create`. -/
def create (maxMb : Nat) (partStem partExtension : Text) : SplitZipExportWriter :=
  startNextPart
    { zip := []
      partMaxBytes := splitPartMaxBytes maxMb
      currentPartBytes := 0
      partIndex := 0
      partStem := sanitizeZipEntryComponent partStem
      partExtension := sanitizeZipEntryComponent partExtension
      partNames := [] }

/-- `write_sql_unit`. -/
def writeSqlUnit (writer : SplitZipExportWriter) (unit : Bytes) : SplitZipExportWriter :=
  let writer :=
    if 0 < writer.currentPartBytes ∧ writer.partMaxBytes < writer.currentPartBytes + unit.length
    then writer.startNextPart else writer
  { writer with
    zip := writer.zip.modifyLast (Entry.write · unit)
    currentPartBytes := writer.currentPartBytes + unit.length }

/-- `finish`, with the manifest encoded by `encode`. -/
def finish (encode : SplitExportManifest → Bytes) (sourceFileName generatedAt : Text)
    (writer : SplitZipExportWriter) : Archive :=
  let manifest := encode
    { format := manifestFormat
      generatedAt := generatedAt
      sourceFileName := sourceFileName
      partMaxBytes := writer.partMaxBytes
      totalParts := writer.partIndex
      parts := writer.partNames }
  writer.zip ++ [{ name := manifestName, size := manifest.length, content := manifest }]

end SplitZipExportWriter

open SplitZipExportWriter

/-- The archive of an export: its units are written one after the other. -/
def exportUnits (encode : SplitExportManifest → Bytes) (maxMb : Nat) (stem : Text)
    (sourceFileName generatedAt : Text) (units : List Bytes) : Archive :=
  (units.foldl SplitZipExportWriter.writeSqlUnit
    (create maxMb stem "sql".toList)).finish encode sourceFileName generatedAt

/-! ## How the units lie in the parts -/

/-- The part is at most as large as configured, or holds a single unit that is not empty. -/
def FitsPart (partMaxBytes : Nat) (group : List Bytes) : Prop :=
  group.flatten.length ≤ partMaxBytes ∨ (group.filter (· ≠ [])).length ≤ 1

/-- The entries of the parts that hold some groups of units, numbered from `start`. -/
def partEntries (stem extension : Text) (start : Nat) (groups : List (List Bytes)) : Archive :=
  (groups.zipIdx start).map fun group =>
    { name := partName stem extension group.2
      size := group.1.flatten.length
      content := group.1.flatten }

theorem partEntries_concat (stem extension : Text) (start : Nat) (groups : List (List Bytes))
    (group : List Bytes) :
    partEntries stem extension start (groups ++ [group]) =
      partEntries stem extension start groups ++
        [{ name := partName stem extension (start + groups.length)
           size := group.flatten.length
           content := group.flatten }] := by
  simp [partEntries, zipIdx_append]

/-- The writer has written the groups, of which the last one is in the part that is open. -/
structure Wrote (maxMb : Nat) (stem extension : Text) (writer : SplitZipExportWriter)
    (groups : List (List Bytes)) (current : List Bytes) : Prop where
  zip : writer.zip = partEntries stem extension 1 (groups ++ [current])
  partMaxBytes : writer.partMaxBytes = splitPartMaxBytes maxMb
  currentPartBytes : writer.currentPartBytes = current.flatten.length
  partIndex : writer.partIndex = groups.length + 1
  partStem : writer.partStem = stem
  partExtension : writer.partExtension = extension
  partNames : writer.partNames =
    (partEntries stem extension 1 (groups ++ [current])).map Entry.name
  fits : ∀ group ∈ groups ++ [current], FitsPart (splitPartMaxBytes maxMb) group

variable {maxMb : Nat} {stem extension : Text} {writer : SplitZipExportWriter}
  {groups : List (List Bytes)} {current : List Bytes}

theorem fitsPart_nil (partMaxBytes : Nat) : FitsPart partMaxBytes [] := .inl (Nat.zero_le _)

theorem wrote_create (maxMb : Nat) (stem extension : Text) :
    Wrote maxMb (sanitizeZipEntryComponent stem) (sanitizeZipEntryComponent extension)
      (create maxMb stem extension) [] [] where
  zip := rfl
  partMaxBytes := rfl
  currentPartBytes := rfl
  partIndex := rfl
  partStem := rfl
  partExtension := rfl
  partNames := rfl
  fits := by
    intro group hgroup
    rw [nil_append, mem_singleton] at hgroup
    rw [hgroup]
    exact fitsPart_nil _

variable (h : Wrote maxMb stem extension writer groups current)

include h

theorem Wrote.startNextPart :
    Wrote maxMb stem extension writer.startNextPart (groups ++ [current]) [] where
  __ := h
  zip := by
    rw [partEntries_concat, SplitZipExportWriter.startNextPart, h.zip, h.partStem, h.partExtension,
      h.partIndex]
    simp [Nat.add_comm]
  currentPartBytes := rfl
  partIndex := by simp [SplitZipExportWriter.startNextPart, h.partIndex]
  partNames := by
    rw [partEntries_concat, SplitZipExportWriter.startNextPart, h.partNames, h.partStem,
      h.partExtension, h.partIndex]
    simp [Nat.add_comm]
  fits := by
    intro group hgroup
    rcases mem_append.mp hgroup with hgroup | hgroup
    · exact h.fits group hgroup
    · rw [mem_singleton.mp hgroup]
      exact fitsPart_nil _

/-- The unit is appended to the part that is open. -/
theorem Wrote.append {unit : Bytes}
    (hfits : FitsPart (splitPartMaxBytes maxMb) (current ++ [unit])) :
    Wrote maxMb stem extension
      { writer with
        zip := writer.zip.modifyLast (Entry.write · unit)
        currentPartBytes := writer.currentPartBytes + unit.length }
      groups (current ++ [unit]) where
  __ := h
  zip := by
    rw [h.zip, partEntries_concat, partEntries_concat, modifyLast_concat]
    simp [Entry.write]
  currentPartBytes := by simp [h.currentPartBytes]
  partNames := by simp only [h.partNames, partEntries_concat, map_append, map_singleton]
  fits := by
    intro group hgroup
    rcases mem_append.mp hgroup with hgroup | hgroup
    · exact h.fits group (mem_append_left _ hgroup)
    · rwa [mem_singleton.mp hgroup]

/-- **One unit** goes as a whole into the part that is open or into the next one. -/
theorem Wrote.writeSqlUnit (unit : Bytes) :
    ∃ groups' current', Wrote maxMb stem extension (writer.writeSqlUnit unit) groups' current' ∧
      (groups' ++ [current']).flatten = (groups ++ [current]).flatten ++ [unit] := by
  by_cases hfull : 0 < writer.currentPartBytes ∧
      writer.partMaxBytes < writer.currentPartBytes + unit.length
  · refine ⟨groups ++ [current], [unit], ?_, by simp⟩
    rw [SplitZipExportWriter.writeSqlUnit, if_pos hfull]
    refine h.startNextPart.append (.inr ?_)
    by_cases hunit : unit = [] <;> simp [hunit]
  refine ⟨groups, current ++ [unit], ?_, by simp⟩
  rw [SplitZipExportWriter.writeSqlUnit, if_neg hfull]
  refine h.append ?_
  rw [h.currentPartBytes, h.partMaxBytes] at hfull
  -- the part stays open if the unit fits, or if there are only empty units in it
  rcases Nat.eq_zero_or_pos current.flatten.length with hempty | hpos
  · right
    have hnone : ∀ u ∈ current, u = [] := by
      simpa [flatten_eq_nil_iff] using length_eq_zero_iff.mp hempty
    have hfilter : current.filter (· ≠ []) = [] := by
      rw [filter_eq_nil_iff]
      intro u hu
      simp [hnone u hu]
    rw [filter_append, hfilter]
    by_cases hunit : unit = [] <;> simp [hunit]
  · left
    have hle := not_and.mp hfull hpos
    simpa using hle

/-- **A whole export**: its units lie in the parts, one group of them after the other. -/
theorem Wrote.foldl_writeSqlUnit (units : List Bytes) :
    ∃ groups' current',
      Wrote maxMb stem extension (units.foldl .writeSqlUnit writer)
        groups' current' ∧
      (groups' ++ [current']).flatten = (groups ++ [current]).flatten ++ units := by
  induction units generalizing writer groups current with
  | nil => exact ⟨groups, current, h, by simp⟩
  | cons unit units ih =>
    obtain ⟨groups₁, current₁, h₁, hflatten₁⟩ := h.writeSqlUnit unit
    obtain ⟨groups₂, current₂, h₂, hflatten₂⟩ := ih h₁
    refine ⟨groups₂, current₂, h₂, ?_⟩
    rw [hflatten₂, hflatten₁, append_assoc, singleton_append]

omit h

/-- The archive holds the groups of units in its parts, and a manifest that lists the parts. -/
structure Grouping (encode : SplitExportManifest → Bytes) (maxMb : Nat) (stem : Text)
    (sourceFileName generatedAt : Text) (groups : List (List Bytes)) (archive : Archive) :
    Prop where
  ne_nil : groups ≠ []
  archive_eq :
    let parts := partEntries (sanitizeZipEntryComponent stem) "sql".toList 1 groups
    let manifest := encode
      { format := manifestFormat
        generatedAt := generatedAt
        sourceFileName := sourceFileName
        partMaxBytes := splitPartMaxBytes maxMb
        totalParts := groups.length
        parts := parts.map Entry.name }
    archive = parts ++
      [{ name := manifestName, size := manifest.length, content := manifest }]
  fits : ∀ group ∈ groups, FitsPart (splitPartMaxBytes maxMb) group

/-- **No unit is split over two parts**, the parts hold the units in their order, and each part is
at most as large as configured or holds a single unit that is not empty. -/
theorem exists_grouping (encode : SplitExportManifest → Bytes) (maxMb : Nat) (stem : Text)
    (sourceFileName generatedAt : Text) (units : List Bytes) :
    ∃ groups, groups.flatten = units ∧ Grouping encode maxMb stem sourceFileName generatedAt groups
        (exportUnits encode maxMb stem sourceFileName generatedAt units) := by
  obtain ⟨groups, current, h, hflatten⟩ :=
    (wrote_create maxMb stem "sql".toList).foldl_writeSqlUnit units
  refine ⟨groups ++ [current], by simpa using hflatten, by simp, ?_, h.fits⟩
  have hextension : sanitizeZipEntryComponent "sql".toList = "sql".toList := by decide
  rw [hextension] at h
  simp only [exportUnits, finish, h.zip, h.partMaxBytes, h.partIndex,
    h.partNames, length_append, length_singleton]

end Dbx.Export
