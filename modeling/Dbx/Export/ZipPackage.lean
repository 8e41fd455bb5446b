import Dbx.Encoding.PrefixCode
import Dbx.Export.SplitZip
import Dbx.Keyed.Table
import Dbx.Result.Basic

/-!
# Importing an export that was written in parts

`extract_sql_file_zip_package` reads the manifest of an archive, checks the parts that it lists, and
writes each part to a file whose name starts with its number. It refuses archives that are larger
than some limits, of which the writer of exports knows nothing.

## Main results

* `validatePartName_partName`: the names that the writer gives to parts are accepted
* `extractedName_inj`: parts are extracted to different files
* `exported_importable`: an export is imported again exactly if it is within the limits, and its
  parts are then the groups of units that the writer made
-/

namespace Dbx.Export

open Text List Nat

/-! ## The reader -/

/-- `SQL_FILE_ZIP_MAX_PARTS`. -/
def sqlFileZipMaxParts : Nat := 10000
/-- `SQL_FILE_ZIP_MAX_MANIFEST_BYTES`. -/
def sqlFileZipMaxManifestBytes : Nat := 1024 * 1024
/-- `SQL_FILE_ZIP_MAX_TOTAL_BYTES`. -/
def sqlFileZipMaxTotalBytes : Nat := 4 * 1024 * 1024 * 1024
/-- `SQL_FILE_ZIP_MAX_PART_BYTES`. -/
def sqlFileZipMaxPartBytes : Nat := 1024 * 1024 * 1024

/-- `SqlZipManifest`. -/
structure SqlZipManifest where
  format : Text
  sourceFileName : Text
  parts : List Text
  deriving DecidableEq

/-- `SqlFileZipPackage`. -/
structure SqlFileZipPackage where
  sourceFileName : Text
  partNames : List Text
  totalBytes : Nat
  deriving DecidableEq

/-- `Component`, of a path without a Windows prefix. -/
inductive Component
  | rootDir
  | curDir
  | parentDir
  | normal (name : Text)
  deriving DecidableEq

/-- `is_absolute`. -/
def isAbsolute (path : Text) : Bool := path.head? = some '/'

/-- `components`: a `.` counts at the start only, and empty pieces do not count. -/
def components (path : Text) : List Component :=
  (if isAbsolute path then [.rootDir] else []) ++
    (splitOn (· = '/') path).zipIdx.filterMap fun piece =>
      if piece.1 = [] then none
      else if piece.1 = ['.'] then if piece.2 = 0 then some .curDir else none
      else if piece.1 = ['.', '.'] then some .parentDir
      else some (.normal piece.1)

/-- `Component::Normal(_)`. -/
def Component.isNormal : Component → Bool
  | normal _ => true
  | _ => false

/-- `validate_part_name`. -/
def validatePartName (name : Text) : Except Text Unit :=
  require
    (!((trim name).isEmpty || !".sql".toList.isSuffixOf name || isAbsolute name ||
      (components name).any fun component => !component.isNormal))
    ("Unsafe SQL ZIP manifest part: ".toList ++ name)

/-- `by_name`. -/
def byName (archive : Archive) (name : Text) : Option Entry :=
  archive.find? fun entry => entry.name = name

/-- `is_dir`. -/
def Entry.isDir (entry : Entry) : Bool :=
  entry.name.getLast? = some '/' || entry.name.getLast? = some '\\'

/-- `ok_or`. -/
def okOr {α : Type} (found : Option α) (message : Text) : Except Text α :=
  match found with
  | some value => .ok value
  | none => .error message

/-- `read_zip_entry`. -/
def readZipEntry (archive : Archive) (name : Text) (maxBytes : Nat) : Except Text Bytes := do
  let entry ← okOr (byName archive name) ("SQL ZIP package is missing ".toList ++ name)
  require (!(entry.isDir || decide (maxBytes < entry.size)))
    ("SQL ZIP package ".toList ++ name ++ " exceeds limits".toList)
  let bytes := entry.content.take (maxBytes + 1)
  require (bytes.length = entry.size)
    ("SQL ZIP ".toList ++ name ++ " does not match its declared size".toList)
  return bytes

/-- What `inspect_sql_file_zip_package` does with one part, from the parts that were seen and the
bytes that were counted before. -/
def inspectPart (archive : Archive) (state : List Text × Nat) (part : Text) :
    Except Text (List Text × Nat) := do
  validatePartName part
  require (decide (part ∉ state.1)) ("SQL ZIP manifest contains duplicate part: ".toList ++ part)
  let entry ← okOr (byName archive part)
    ("SQL ZIP package is missing manifest part: ".toList ++ part)
  require (!(entry.isDir || decide (sqlFileZipMaxPartBytes < entry.size)))
    ("SQL ZIP part exceeds limits: ".toList ++ part)
  let totalBytes := state.2 + entry.size
  require (decide (totalBytes < 2 ^ 64)) "SQL ZIP package size overflow".toList
  require (decide (totalBytes ≤ sqlFileZipMaxTotalBytes))
    "SQL ZIP package exceeds total extracted size limit".toList
  return (state.1 ++ [part], totalBytes)

/-- `inspect_sql_file_zip_package`, with the manifest decoded by `decode`. -/
def inspectSqlFileZipPackage (decode : Bytes → Except Text SqlZipManifest) (archive : Archive) :
    Except Text SqlFileZipPackage := do
  let manifestBytes ← readZipEntry archive manifestName sqlFileZipMaxManifestBytes
  let manifest ← decode manifestBytes
  require (manifest.format = manifestFormat) "Unsupported SQL ZIP package format".toList
  require (!(manifest.parts.isEmpty || decide (sqlFileZipMaxParts < manifest.parts.length)))
    "SQL ZIP manifest has an invalid number of parts".toList
  let inspected ← manifest.parts.foldlM (inspectPart archive) ([], 0)
  return {
    sourceFileName := manifest.sourceFileName
    partNames := manifest.parts
    totalBytes := inspected.2 }

/-- The contents of files, by their names in the destination. -/
abbrev Files := Text → Option Bytes

/-- The name of the file of a part: its number in five digits or more, and its name. -/
def extractedName (number : Nat) (part : Text) : Text :=
  (toDigits 10 number).leftpad 5 '0' ++ '-' :: part

open Function

/-- One part is copied into its file, and no more than the bytes that are declared and one. -/
def extractPart (archive : Archive) (files : Files) (part : Text × Nat) : Except Text Files := do
  let entry ← okOr (byName archive part.1)
    ("SQL ZIP package is missing manifest part: ".toList ++ part.1)
  let copied := entry.content.take (entry.size + 1)
  require (copied.length = entry.size) ("Failed to fully extract SQL part: ".toList ++ part.1)
  return update files (extractedName (part.2 + 1) part.1) (some copied)

/-- `extract_sql_file_zip_package`. -/
def extractSqlFileZipPackage (decode : Bytes → Except Text SqlZipManifest) (archive : Archive)
    (files : Files) : Except Text (SqlFileZipPackage × Files) := do
  let package ← inspectSqlFileZipPackage decode archive
  let files ← package.partNames.zipIdx.foldlM (extractPart archive) files
  return (package, files)

/-- `extracted_sql_zip_paths`. -/
def extractedSqlZipPaths (package : SqlFileZipPackage) : List Text :=
  package.partNames.zipIdx.map fun part => extractedName (part.2 + 1) part.1

/-! ## The limits -/

/-- The entries of an archive besides the manifest. -/
def partsOf (archive : Archive) : List Entry :=
  archive.filter fun entry => entry.name ≠ manifestName

/-- The archive is within the limits of the reader. -/
structure WithinLimits (archive : Archive) : Prop where
  manifest : ∀ entry ∈ archive, entry.name = manifestName →
    entry.size ≤ sqlFileZipMaxManifestBytes
  parts : (partsOf archive).length ≤ sqlFileZipMaxParts
  part : ∀ entry ∈ partsOf archive, entry.size ≤ sqlFileZipMaxPartBytes
  total : ((partsOf archive).map Entry.size).sum ≤ sqlFileZipMaxTotalBytes

/-! ## Names -/

variable {m n : Nat}

theorem toDigits_inj (h : toDigits 10 m = toDigits 10 n) : m = n := by
  rw [← ofDigitChars_ten_toDigits (n := m), h, ofDigitChars_ten_toDigits]

theorem ofDigitChars_replicate_zero (count : Nat) :
    ofDigitChars 10 (replicate count '0') 0 = 0 := by
  induction count with
  | zero => rfl
  | succ count ih => exact ih

theorem ofDigitChars_leftpad (n : Nat) :
    ofDigitChars 10 ((toDigits 10 n).leftpad 5 '0') 0 = n := by
  rw [leftpad, ofDigitChars_append, ofDigitChars_replicate_zero,
    ofDigitChars_ten_toDigits]

variable {c : Char}

theorem mem_leftpad_ne_dash (h : c ∈ (toDigits 10 n).leftpad 5 '0') : c ≠ '-' := by
  rw [leftpad, mem_append] at h
  rcases h with h | h
  · rw [eq_of_mem_replicate h]
    decide
  · rintro rfl
    exact absurd (isDigit_of_mem_toDigits (by omega) (by omega) h) (by decide)

/-- **Parts are extracted to different files**, whatever their names are. -/
theorem extractedName_inj {part other : Text}
    (h : extractedName m part = extractedName n other) : m = n := by
  -- the number stands in front of the first dash
  have hsplit (k : Nat) (name : Text) : (extractedName k name).takeWhile (· ≠ '-') =
      (toDigits 10 k).leftpad 5 '0' := by
    rw [extractedName, takeWhile_append_of_pos]
    · simp
    · intro c hc
      simpa using mem_leftpad_ne_dash hc
  rw [← ofDigitChars_leftpad m, ← hsplit m part, h, hsplit, ofDigitChars_leftpad]

theorem partName_inj {stem extension : Text}
    (h : partName stem extension m = partName stem extension n) : m = n := by
  simp only [partName, append_assoc, append_cancel_left_eq] at h
  exact toDigits_inj (append_cancel_right h)

theorem isPlain_of_mem_sanitize {value : Text}
    (h : c ∈ sanitizeZipEntryComponent value) : isPlain c := by
  simp only [sanitizeZipEntryComponent] at h
  split at h
  · revert c
    decide
  -- trimming only drops characters
  have hmem : c ∈ value.map fun c => if isPlain c then c else '_' :=
    (dropWhile_suffix _).subset ((List.rdropWhile_prefix _ _).subset h)
  obtain ⟨d, -, rfl⟩ := mem_map.mp hmem
  by_cases hd : isPlain d
  · rwa [if_pos hd]
  · rw [if_neg hd]
    decide

theorem isPlain_of_mem_partName {stem : Text} {index : Nat}
    (h : c ∈ partName (sanitizeZipEntryComponent stem) "sql".toList index) : isPlain c := by
  simp only [partName, mem_append] at h
  rcases h with ((h | h) | h) | h
  · exact isPlain_of_mem_sanitize h
  · revert c
    decide
  · have hdigit : c.isDigit := isDigit_of_mem_toDigits (by omega) (by omega) h
    simp [isPlain, Char.isAlphanum, hdigit]
  · revert c
    decide

theorem sql_isSuffixOf_partName (stem : Text) (index : Nat) :
    ".sql".toList <:+ partName stem "sql".toList index :=
  ⟨stem ++ "-part-".toList ++ toDigits 10 index, by simp [partName]⟩

variable {name : Text}

theorem isAbsolute_eq_false (hslash : ∀ c ∈ name, decide (c = '/') = false) :
    isAbsolute name = false := by
  rw [isAbsolute, decide_eq_false_iff_not]
  intro hhead
  simpa using hslash '/' (mem_of_mem_head? hhead)

/-- A name without a slash is one component of a path. -/
theorem components_eq_singleton (hslash : ∀ c ∈ name, decide (c = '/') = false)
    (hlength : 2 < name.length) : components name = [.normal name] := by
  have hne (short : Text) (hshort : short.length ≤ 2) : name ≠ short := by
    rintro rfl
    omega
  rw [components, isAbsolute_eq_false hslash, splitOn_eq_singleton hslash]
  simp [hne [], hne ['.'], hne ['.', '.']]

/-- Names of plain characters with the right suffix are accepted. -/
theorem validatePartName_of_plain (hplain : ∀ c ∈ name, isPlain c)
    (hsuffix : ['.', 's', 'q', 'l'] <:+ name) : validatePartName name = .ok () := by
  have hslash : ∀ c ∈ name, decide (c = '/') = false := by
    intro c hc
    rw [decide_eq_false_iff_not]
    rintro rfl
    exact absurd (hplain _ hc) (by decide)
  have htrim : (trim name).isEmpty = false := by
    rw [Bool.eq_false_iff, ne_eq, List.isEmpty_iff]
    intro hempty
    have hblank := blank_of_trim_eq_nil hempty 'l' (hsuffix.subset (by decide))
    exact absurd hblank (by decide)
  have hlength : 4 ≤ name.length := hsuffix.length_le
  have hends : ".sql".toList.isSuffixOf name := isSuffixOf_iff_suffix.mpr hsuffix
  rw [validatePartName, htrim, hends, isAbsolute_eq_false hslash,
    components_eq_singleton hslash (by omega)]
  rfl

/-- **The names that the writer gives to parts are accepted.** -/
theorem validatePartName_partName (stem : Text) (index : Nat) :
    validatePartName (partName (sanitizeZipEntryComponent stem) "sql".toList index) = .ok () :=
  validatePartName_of_plain (fun _ hc => isPlain_of_mem_partName hc) (sql_isSuffixOf_partName _ _)

/-! ## Reading what was written -/

/-- The parts of an archive that the reader finds, under names that it accepts. -/
structure Listed (archive : Archive) (parts : List Entry) : Prop where
  nodup : (parts.map Entry.name).Nodup
  valid : ∀ entry ∈ parts, validatePartName entry.name = .ok ()
  found : ∀ entry ∈ parts, byName archive entry.name = some entry
  file : ∀ entry ∈ parts, entry.isDir = false
  whole : ∀ entry ∈ parts, entry.content.length = entry.size

variable {entry : Entry}

theorem Listed.tail {archive : Archive} {parts : List Entry}
    (h : Listed archive (entry :: parts)) : Listed archive parts where
  nodup := (nodup_cons.mp h.nodup).2
  valid other hother := h.valid other (mem_cons_of_mem _ hother)
  found other hother := h.found other (mem_cons_of_mem _ hother)
  file other hother := h.file other (mem_cons_of_mem _ hother)
  whole other hother := h.whole other (mem_cons_of_mem _ hother)

variable {α β : Type}

@[simp]
theorem okOr_some_bind (value : α) (message : Text) (f : α → Except Text β) :
    okOr (some value) message >>= f = f value :=
  rfl

@[simp]
theorem require_true_bind {ε β : Type} (message : ε) (f : Unit → Except ε β) :
    require true message >>= f = f () :=
  rfl

section Parts

variable {archive : Archive} {parts : List Entry}

/-- One part is accepted if it and the bytes so far are within the limits. -/
theorem inspectPart_eq_ok_iff {seen : List Text} {total : Nat}
    {state : List Text × Nat} (h : Listed archive (entry :: parts)) (hseen : entry.name ∉ seen) :
    inspectPart archive (seen, total) entry.name = .ok state ↔
      entry.size ≤ sqlFileZipMaxPartBytes ∧ total + entry.size ≤ sqlFileZipMaxTotalBytes ∧
        (seen ++ [entry.name], total + entry.size) = state := by
  have hmem : entry ∈ entry :: parts := mem_cons_self ..
  have hoverflow : sqlFileZipMaxTotalBytes < 2 ^ 64 := by decide
  simp only [inspectPart, bind_eq_ok_iff, require_eq_ok_iff, h.valid entry hmem,
    h.found entry hmem, okOr, Except.ok.injEq, h.file entry hmem, pure, Except.pure,
    exists_eq_left', exists_const, Bool.false_or, Bool.not_eq_true', decide_eq_false_iff_not,
    decide_eq_true_eq, not_lt, hseen, not_false_eq_true, true_and]
  constructor
  · rintro ⟨hpart, -, htotal, hstate⟩
    exact ⟨hpart, htotal, hstate⟩
  · rintro ⟨hpart, htotal, hstate⟩
    exact ⟨hpart, lt_of_le_of_lt htotal hoverflow, htotal, hstate⟩

variable (h : Listed archive parts)

include h

/-- **The parts are accepted** if each of them and all together are within the limits. -/
theorem foldlM_inspectPart_eq_ok_iff {seen : List Text} {total : Nat}
    {state : List Text × Nat} (hseen : ∀ entry ∈ parts, entry.name ∉ seen)
    (htotal : total ≤ sqlFileZipMaxTotalBytes) :
    (parts.map Entry.name).foldlM (inspectPart archive) (seen, total) = .ok state ↔
      (∀ entry ∈ parts, entry.size ≤ sqlFileZipMaxPartBytes) ∧
      total + (parts.map Entry.size).sum ≤ sqlFileZipMaxTotalBytes ∧
      (seen ++ parts.map Entry.name, total + (parts.map Entry.size).sum) = state := by
  induction parts generalizing seen total with
  | nil => simp [pure, Except.pure, htotal]
  | cons entry parts ih =>
    have hhead : entry.name ∉ seen := hseen entry (mem_cons_self ..)
    -- the names of the parts differ, so the next one has not been seen
    have hrest : ∀ other ∈ parts, other.name ∉ seen ++ [entry.name] := by
      intro other hother hmem
      rcases mem_append.mp hmem with hmem | hmem
      · exact hseen other (mem_cons_of_mem _ hother) hmem
      · have hnot := (nodup_cons.mp h.nodup).1
        rw [← mem_singleton.mp hmem] at hnot
        exact hnot (mem_map_of_mem hother)
    rw [map_cons, foldlM_cons, bind_eq_ok_iff]
    constructor
    · rintro ⟨state₁, hstate₁, hfold⟩
      obtain ⟨hpart, hsum, rfl⟩ := (inspectPart_eq_ok_iff h hhead).mp hstate₁
      obtain ⟨hparts, hsums, rfl⟩ := (ih h.tail hrest hsum).mp hfold
      refine ⟨forall_mem_cons.mpr ⟨hpart, hparts⟩, ?_, ?_⟩
      · rwa [map_cons, sum_cons, ← add_assoc]
      · simp [add_assoc]
    · rintro ⟨hparts, hsums, rfl⟩
      rw [map_cons, sum_cons, ← add_assoc] at hsums
      have hsum : total + entry.size ≤ sqlFileZipMaxTotalBytes :=
        le_trans (le_add_right _ _) hsums
      refine ⟨_, (inspectPart_eq_ok_iff h hhead).mpr ⟨hparts entry (by simp), hsum, rfl⟩, ?_⟩
      refine (ih h.tail hrest hsum).mpr ⟨fun other hother => ?_, hsums, by simp [add_assoc]⟩
      exact hparts other (mem_cons_of_mem _ hother)

/-- The files of parts, numbered from `start`, and their contents. -/
def extractedFiles (start : Nat) (parts : List Entry) : List (Text × Bytes) :=
  (parts.zipIdx start).map fun part => (extractedName (part.2 + 1) part.1.name, part.1.content)

theorem extractPart_eq_ok (hmem : entry ∈ parts) (files : Files) (index : Nat) :
    extractPart archive files (entry.name, index) =
      .ok (update files (extractedName (index + 1) entry.name) (some entry.content)) := by
  have htake : entry.content.take (entry.size + 1) = entry.content := by
    rw [take_of_length_le]
    rw [h.whole entry hmem]
    exact le_succ _
  simp only [extractPart, h.found entry hmem, okOr_some_bind, htake, h.whole entry hmem,
    decide_true, require_true_bind, pure, Except.pure]

/-- **The extraction does not fail**, and writes the parts one after the other. -/
theorem foldlM_extractPart (files : Files) (start : Nat) :
    ((parts.map Entry.name).zipIdx start).foldlM (extractPart archive) files =
      .ok ((extractedFiles start parts).foldl
        (fun files file => update files file.1 (some file.2)) files) := by
  induction parts generalizing files start with
  | nil => rfl
  | cons entry parts ih =>
    rw [map_cons, zipIdx_cons, foldlM_cons, extractPart_eq_ok h (mem_cons_self ..)]
    exact ih h.tail _ _

omit h

end Parts

/-- Files with different names hold what was written to them last. -/
theorem map_foldl_update {written : List (Text × Bytes)} (h : (written.map Prod.fst).Nodup)
    (files : Files) :
    (written.map Prod.fst).map
        (written.foldl (fun files file => update files file.1 (some file.2)) files) =
      written.map fun file => some file.2 := by
  -- the last file is not written over, and the others are where they were before it
  induction written using reverseRecOn with
  | nil => rfl
  | append_singleton written file ih =>
    rw [map_append, nodup_append] at h
    obtain ⟨hnodup, -, hdisjoint⟩ := h
    have hbefore : ∀ name ∈ written.map Prod.fst, name ≠ file.1 := fun name hname =>
      hdisjoint name hname file.1 (by simp)
    rw [foldl_append, map_append, map_append, map_append, ← ih hnodup]
    congr 1
    · exact map_congr_left fun name hname => update_of_ne (hbefore name hname) _ _
    · simp

theorem map_zipIdx_fst (l : List α) (start : Nat) (f : α → β) :
    ((l.zipIdx start).map fun p => f p.1) = l.map f := by
  conv_rhs => rw [← zipIdx_map_fst start l, map_map]
  rfl

theorem nodup_map_zipIdx (l : List α) (start : Nat) {f : α × Nat → β}
    (h : ∀ p q, f p = f q → p.2 = q.2) : ((l.zipIdx start).map f).Nodup := by
  have hindices : ((l.zipIdx start).map Prod.snd).Nodup := by
    rw [zipIdx_map_snd]
    exact nodup_range'
  rw [nodup_iff_pairwise_ne, pairwise_map] at hindices ⊢
  exact hindices.imp fun hne heq => hne (h _ _ heq)

theorem nodup_extractedFiles (start : Nat) (parts : List Entry) :
    ((extractedFiles start parts).map Prod.fst).Nodup := by
  rw [extractedFiles, map_map]
  exact nodup_map_zipIdx _ _ fun p q hname => succ.inj (extractedName_inj hname)

/-! ## The archive of an export -/

section Exported

variable {encode : SplitExportManifest → Bytes} {maxMb : Nat}
  {stem sourceFileName generatedAt : Text} {groups : List (List Bytes)} {archive : Archive}

theorem getLast?_partName (stem : Text) (index : Nat) :
    (partName stem "sql".toList index).getLast? = some 'l' := by
  obtain ⟨front, hfront⟩ := sql_isSuffixOf_partName stem index
  rw [← hfront, getLast?_append]
  rfl

theorem mem_partEntries {start : Nat} {extension : Text}
    (h : entry ∈ partEntries stem extension start groups) :
    (∃ index, entry.name = partName stem extension index) ∧ entry.content.length = entry.size := by
  obtain ⟨group, -, rfl⟩ := mem_map.mp h
  exact ⟨⟨group.2, rfl⟩, rfl⟩

theorem nodup_partEntries (stem extension : Text) (start : Nat) (groups : List (List Bytes)) :
    ((partEntries stem extension start groups).map Entry.name).Nodup := by
  rw [partEntries, map_map]
  exact nodup_map_zipIdx _ _ fun p q hname => partName_inj hname

theorem name_ne_manifest {start : Nat} (h : entry ∈ partEntries stem "sql".toList start groups) :
    entry.name ≠ manifestName := by
  obtain ⟨⟨index, hname⟩, -⟩ := mem_partEntries h
  intro hmanifest
  have hlast := getLast?_partName stem index
  rw [← hname, hmanifest] at hlast
  exact absurd hlast (by decide)

theorem readZipEntry_eq_ok_iff {maxBytes : Nat} {bytes : Bytes}
    (hfound : byName archive name = some entry) (hfile : entry.isDir = false)
    (hwhole : entry.content.length = entry.size) :
    readZipEntry archive name maxBytes = .ok bytes ↔
      entry.size ≤ maxBytes ∧ entry.content = bytes := by
  simp only [readZipEntry, hfound, okOr_some_bind, hfile, Bool.false_or, bind_eq_ok_iff,
    require_eq_ok_iff, Bool.not_eq_true', decide_eq_false_iff_not, not_lt, exists_const, pure,
    Except.pure, Except.ok.injEq, decide_eq_true_eq]
  constructor
  · rintro ⟨hsize, -, hbytes⟩
    refine ⟨hsize, ?_⟩
    rwa [take_of_length_le (by omega)] at hbytes
  · rintro ⟨hsize, hbytes⟩
    have htake : entry.content.take (maxBytes + 1) = entry.content :=
      take_of_length_le (by omega)
    exact ⟨hsize, by rw [htake, hwhole], htake.trans hbytes⟩

variable (h : Grouping encode maxMb stem sourceFileName generatedAt groups archive)

include h

/-- The names of an archive are told apart. -/
theorem Grouping.nodup : (archive.map Entry.name).Nodup := by
  rw [h.archive_eq, map_append, nodup_append]
  refine ⟨nodup_partEntries _ _ _ _, nodup_singleton _, ?_⟩
  intro name hname manifest hmanifest
  obtain ⟨entry, hentry, rfl⟩ := mem_map.mp hname
  rw [map_singleton, mem_singleton] at hmanifest
  rw [hmanifest]
  exact name_ne_manifest hentry

theorem Grouping.byName_eq_some (hentry : entry ∈ archive) :
    byName archive entry.name = some entry := by
  let table : Keyed.Table Entry.name := ⟨archive, h.nodup⟩
  exact table.find_eq_some_iff.mpr ⟨hentry, rfl⟩

theorem Grouping.partsOf_eq : partsOf archive =
    partEntries (sanitizeZipEntryComponent stem) "sql".toList 1 groups := by
  rw [partsOf, h.archive_eq, filter_append, filter_eq_self.mpr]
  · simp
  · intro entry hentry
    simpa using name_ne_manifest hentry

theorem Grouping.map_content : (partsOf archive).map Entry.content = groups.map flatten := by
  rw [h.partsOf_eq, partEntries, map_map]
  exact map_zipIdx_fst _ _ flatten

/-- **What is written is listed**: the reader finds every part, under a name that it accepts. -/
theorem Grouping.listed : Listed archive (partsOf archive) := by
  have hname : ∀ entry ∈ partsOf archive,
      (∃ index, entry.name = partName (sanitizeZipEntryComponent stem) "sql".toList index) ∧
        entry.content.length = entry.size := by
    intro entry hentry
    rw [h.partsOf_eq] at hentry
    exact mem_partEntries hentry
  refine ⟨h.nodup.sublist (filter_sublist.map _), fun entry hentry => ?_, fun entry hentry => ?_,
    fun entry hentry => ?_, fun entry hentry => (hname entry hentry).2⟩
  · obtain ⟨⟨index, heq⟩, -⟩ := hname entry hentry
    rw [heq]
    exact validatePartName_partName stem index
  · exact h.byName_eq_some (mem_of_mem_filter hentry)
  · obtain ⟨⟨index, heq⟩, -⟩ := hname entry hentry
    rw [Entry.isDir, heq, getLast?_partName]
    decide

theorem Grouping.exists_manifest :
    ∃ manifest : SplitExportManifest, archive = partsOf archive ++
        [⟨manifestName, (encode manifest).length, encode manifest⟩] ∧
      manifest.format = manifestFormat ∧ manifest.sourceFileName = sourceFileName ∧
      manifest.parts = (partsOf archive).map Entry.name := by
  rw [h.partsOf_eq]
  exact ⟨_, h.archive_eq, rfl, rfl, rfl⟩

variable {decode : Bytes → Except Text SqlZipManifest}
  (hcodec : ∀ manifest, decode (encode manifest) =
    .ok ⟨manifest.format, manifest.sourceFileName, manifest.parts⟩)

include hcodec

/-- **The checks pass exactly within the limits.** -/
theorem Grouping.inspect_eq_ok_iff {package : SqlFileZipPackage} :
    inspectSqlFileZipPackage decode archive = .ok package ↔ WithinLimits archive ∧
        { sourceFileName := sourceFileName
          partNames := (partsOf archive).map Entry.name
          totalBytes := ((partsOf archive).map Entry.size).sum } = package := by
  obtain ⟨manifest, harchive, hformat, hsource, hparts⟩ := h.exists_manifest
  have hmem : (⟨manifestName, (encode manifest).length, encode manifest⟩ : Entry) ∈ archive := by
    rw [harchive]
    exact mem_append_right _ (mem_singleton_self _)
  have hfile : (⟨manifestName, (encode manifest).length, encode manifest⟩ : Entry).isDir =
      false := by
    show (decide (manifestName.getLast? = some '/') ||
      decide (manifestName.getLast? = some '\\')) = false
    decide
  have hread (bytes : Bytes) :
      readZipEntry archive manifestName sqlFileZipMaxManifestBytes = .ok bytes ↔
        (encode manifest).length ≤ sqlFileZipMaxManifestBytes ∧ encode manifest = bytes :=
    readZipEntry_eq_ok_iff (h.byName_eq_some hmem) hfile rfl
  have hinspect (state : List Text × Nat) :
      ((partsOf archive).map Entry.name).foldlM (inspectPart archive) ([], 0) = .ok state ↔ _ :=
    foldlM_inspectPart_eq_ok_iff h.listed (fun _ _ => not_mem_nil) (zero_le _)
  have hnonempty : ((partsOf archive).map Entry.name).isEmpty = false := by
    rw [h.partsOf_eq]
    simpa [partEntries] using h.ne_nil
  -- the checks of the inspection, one after the other
  simp only [inspectSqlFileZipPackage, bind_eq_ok_iff, hread, require_eq_ok_iff, exists_const,
    pure, Except.pure, Except.ok.injEq]
  constructor
  · -- the manifest that is decoded is the one that the export wrote
    rintro ⟨bytes, ⟨hsize, rfl⟩, decoded, hdecode, -, hcount, inspected, hfold, rfl⟩
    rw [hcodec, hparts, hsource, Except.ok.injEq] at hdecode
    subst hdecode
    obtain ⟨hpart, htotal, rfl⟩ := (hinspect inspected).mp hfold
    rw [hnonempty] at hcount
    rw [zero_add] at htotal
    refine ⟨⟨?_, by simpa using hcount, hpart, htotal⟩, by simp⟩
    intro entry hentry hname
    rw [inj_on_of_nodup_map h.nodup hentry hmem hname]
    exact hsize
  · rintro ⟨hlimits, rfl⟩
    have hfold := (hinspect _).mpr ⟨hlimits.part, by simpa using hlimits.total, rfl⟩
    rw [← hparts] at hfold
    refine ⟨_, ⟨hlimits.manifest _ hmem rfl, rfl⟩, _, hcodec manifest, ?_, ?_, _, hfold, ?_⟩
    · simpa using hformat
    · rw [hparts, hnonempty]
      simpa using hlimits.parts
    · simp [hsource, hparts]

/-- **The import succeeds exactly within the limits**, and the files of the parts then hold the
groups of units. -/
theorem Grouping.extract_eq_ok_iff (files : Files) :
    ((∃ result, extractSqlFileZipPackage decode archive files = .ok result) ↔
        WithinLimits archive) ∧
      ∀ package written, extractSqlFileZipPackage decode archive files = .ok (package, written) →
        (extractedSqlZipPaths package).map written =
          groups.map fun group => some group.flatten := by
  constructor
  · constructor
    · rintro ⟨result, hresult⟩
      obtain ⟨package, hpackage, -⟩ := bind_eq_ok_iff.mp hresult
      exact ((h.inspect_eq_ok_iff hcodec).mp hpackage).1
    · intro hlimits
      have hinspect := (h.inspect_eq_ok_iff hcodec).mpr ⟨hlimits, rfl⟩
      simp only [extractSqlFileZipPackage, bind_eq_ok_iff]
      exact ⟨_, _, hinspect, _, foldlM_extractPart h.listed files 0, rfl⟩
  · intro package written hresult
    obtain ⟨package', hpackage, hrest⟩ := bind_eq_ok_iff.mp hresult
    obtain ⟨written', hwritten, hpure⟩ := bind_eq_ok_iff.mp hrest
    cases hpure
    obtain ⟨-, rfl⟩ := (h.inspect_eq_ok_iff hcodec).mp hpackage
    rw [foldlM_extractPart h.listed files 0, Except.ok.injEq] at hwritten
    subst hwritten
    -- the paths that are returned are those that were written, in the same order
    have hpaths : extractedSqlZipPaths
        { sourceFileName := sourceFileName
          partNames := (partsOf archive).map Entry.name
          totalBytes := ((partsOf archive).map Entry.size).sum } =
        (extractedFiles 0 (partsOf archive)).map Prod.fst := by
      simp [extractedSqlZipPaths, extractedFiles, zipIdx_map, comp_def]
    have hcontents : (extractedFiles 0 (partsOf archive)).map (fun file => some file.2) =
        ((partsOf archive).map Entry.content).map some := by
      rw [extractedFiles, map_map, map_map]
      exact map_zipIdx_fst _ _ fun entry : Entry => some entry.content
    rw [hpaths, map_foldl_update (nodup_extractedFiles _ _), hcontents, h.map_content, map_map]
    rfl

end Exported

/-- **An export is imported again**, exactly if it is within the limits of the reader. The parts of
the archive hold the units in their order, no unit is split over two parts, and each part is at most
as large as configured or holds a single unit that is not empty; after the import the files of the
parts, in the order of the manifest, hold the same. -/
theorem exported_importable (encode : SplitExportManifest → Bytes)
    (decode : Bytes → Except Text SqlZipManifest)
    (hcodec : ∀ manifest, decode (encode manifest) =
      .ok ⟨manifest.format, manifest.sourceFileName, manifest.parts⟩)
    (maxMb : Nat) (stem sourceFileName generatedAt : Text) (units : List Bytes) (files : Files) :
    let archive := exportUnits encode maxMb stem sourceFileName generatedAt units
    ∃ groups : List (List Bytes), groups.flatten = units ∧
      (∀ group ∈ groups, FitsPart (splitPartMaxBytes maxMb) group) ∧
      (partsOf archive).map Entry.content = groups.map flatten ∧
      ((∃ result, extractSqlFileZipPackage decode archive files = .ok result) ↔
        WithinLimits archive) ∧
      ∀ package written, extractSqlFileZipPackage decode archive files = .ok (package, written) →
        (extractedSqlZipPaths package).map written =
          groups.map fun group => some group.flatten := by
  intro archive
  obtain ⟨groups, hunits, h⟩ := exists_grouping encode maxMb stem sourceFileName generatedAt units
  exact ⟨groups, hunits, h.fits, h.map_content, h.extract_eq_ok_iff hcodec files⟩

/-! ## Manifests in a plain code -/

def manifestCode : PrefixCode (Text × Text × List Text) :=
  PrefixCode.char.list.prod (PrefixCode.char.list.prod PrefixCode.char.list.list)

def encodePlain (manifest : SplitExportManifest) : Bytes :=
  manifestCode.encode (manifest.format, manifest.sourceFileName, manifest.parts)

/-- Reading a manifest in the plain code. -/
def decodePlain (bytes : Bytes) : Except Text SqlZipManifest :=
  match manifestCode.decode bytes with
  | some ((format, sourceFileName, parts), _) => .ok ⟨format, sourceFileName, parts⟩
  | none => .error "Invalid SQL ZIP manifest".toList

theorem decodePlain_encodePlain (manifest : SplitExportManifest) :
    decodePlain (encodePlain manifest) =
      .ok ⟨manifest.format, manifest.sourceFileName, manifest.parts⟩ := by
  have hdecode := manifestCode.decode_encode
    (manifest.format, manifest.sourceFileName, manifest.parts) []
  rw [append_nil] at hdecode
  rw [decodePlain, encodePlain, hdecode]

/-- An export of two units is imported again. -/
theorem exported_importable_twoUnits :
    ∃ result, extractSqlFileZipPackage decodePlain
      (exportUnits encodePlain 1 "db".toList "db.sql".toList [] [[83, 59], [84, 59]])
      (fun _ => none) = .ok result := by
  obtain ⟨-, -, -, -, haccepted, -⟩ := exported_importable encodePlain decodePlain
    decodePlain_encodePlain 1 "db".toList "db.sql".toList [] [[83, 59], [84, 59]] fun _ => none
  refine haccepted.mpr ⟨?_, ?_, ?_, ?_⟩
  all_goals decide +kernel

/-- A unit that is larger than the reader allows for a part is written, and not read again. -/
theorem not_importable_largeUnit :
    ¬ ∃ result, extractSqlFileZipPackage decodePlain
      (exportUnits encodePlain 4096 "db".toList "db.sql".toList []
        [replicate (sqlFileZipMaxPartBytes + 1) 0])
      (fun _ => none) = .ok result := by
  generalize hunit : replicate (sqlFileZipMaxPartBytes + 1) (0 : UInt8) = unit
  have hlarge : sqlFileZipMaxPartBytes < unit.length := by
    rw [← hunit, length_replicate]
    exact lt_succ_self _
  obtain ⟨groups, hunits, h⟩ :=
    exists_grouping encodePlain 4096 "db".toList "db.sql".toList [] [unit]
  rw [(h.extract_eq_ok_iff decodePlain_encodePlain _).1]
  intro hlimits
  -- the part with the unit is too large
  obtain ⟨group, hgroup, hmem⟩ := mem_flatten.mp (hunits ▸ mem_singleton_self unit)
  obtain ⟨entry, hentry, hcontent⟩ := mem_map.mp
    (h.map_content ▸ mem_map_of_mem (f := flatten) hgroup)
  have hsize := hlimits.part entry hentry
  rw [← h.listed.whole entry hentry, hcontent] at hsize
  have hle : unit.length ≤ group.flatten.length := (sublist_flatten_of_mem hmem).length_le
  omega

end Dbx.Export
