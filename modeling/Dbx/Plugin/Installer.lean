import Dbx.Faulty.Program
import Dbx.Text.Basic

/-!
# The plugin installer

A plugin lives in a container with a directory for each version and a record for each activation.
The newest record names the active version. An older, flat container holds the plugin itself, and is
migrated by the first installation, which stores it under its version, or under a name made from a
hash where its version is no semantic one.

Every call of the file system is a step at a site of its own, that may fail, or at which the process
may die. Renames are atomic; the removal of a directory may be left half done.

## Main definitions

* `Container`, `Store`: what is on disk
* `resolveActivePluginDir`: the active version
* `writeActivationRecord`, `migrateLegacyContainer`, `prunePluginHistory`
* `installBytesLocked`, `rollbackLocked`: the operations
-/

namespace Dbx.Plugin

open Text Faulty Faulty.Program

/-! ## What is on disk -/

/-- `PluginManifest`, with the fields that identify a version. -/
structure Manifest where
  id : Text
  version : Text
  deriving DecidableEq, Repr

/-- A directory with a plugin: the manifest, if the file is there and can be parsed, whether the
file is there, and whether all files of the plugin are. -/
structure Payload where
  manifest : Option Manifest
  hasManifest : Bool
  intact : Bool
  present : manifest.isSome → hasManifest = true
  deriving DecidableEq, Repr

/-- What a removal leaves that is cut off, with the manifest or without it. -/
def Payload.torn (payload : Payload) (keepsManifest : Bool) : Payload :=
  if keepsManifest then { payload with intact := false }
  else { manifest := none, hasManifest := false, intact := false, present := nofun }

/-- A directory under `versions`: that of a version, or a copy of it that is being replaced. -/
inductive Dir
  | version (version : Text)
  | replaced (version : Text) (suffix : Nat)
  deriving DecidableEq, Repr

/-- `PluginActivationRecord`, with the fields that are read back here. -/
structure Record where
  sequence : Nat
  version : Text
  previousVersion : Option Text
  deriving DecidableEq, Repr

/-- A container: the plugin in it if it is a flat one, the directories and the records. -/
structure Container where
  flat : Option Payload
  dirs : List (Dir × Payload)
  records : List Record
  deriving DecidableEq, Repr

/-- The container of a plugin, and the flat container that is being migrated. -/
structure Store where
  container : Container
  staged : Option Container
  deriving DecidableEq, Repr

def Container.empty : Container := { flat := none, dirs := [], records := [] }

variable (c : Container) (dir : Dir)

namespace Container

def payload : Option Payload := c.dirs.lookup dir

def remove : Container :=
  { c with dirs := c.dirs.filter fun entry => entry.1 ≠ dir }

def put (payload : Payload) : Container :=
  { c with dirs := (dir, payload) :: (c.remove dir).dirs }

/-- A directory is renamed. -/
def move (source target : Dir) : Container :=
  match c.payload source with
  | none => c
  | some payload => (c.remove source).put target payload

/-- A directory is half removed. -/
def tear (keepsManifest : Bool) : Container :=
  match c.payload dir with
  | none => c
  | some payload => c.put dir (payload.torn keepsManifest)

/-- `read_latest_activation`. -/
def readLatestActivation : Option Record :=
  c.records.foldl
    (fun latest record =>
      if latest.all fun current => current.sequence < record.sequence then some record else latest)
    none

end Container

def Store.edit (f : Container → Container) (s : Store) : Store :=
  { s with container := f s.container }

/-! ## Versions -/

/-- What the installer is given by its environment: whether `Version::parse` accepts a text, which
is then what `to_string` writes, the first characters of the hash of a text, and which versions the
application can run. -/
structure Env where
  isVersion : Text → Bool
  sha256Start : Text → Text
  compatible : Payload → Bool

/-- `LEGACY_STORAGE_VERSION_PREFIX`. -/
def legacyStorageVersionStart : Text := "0.0.0-legacy.".toList

/-- `is_legacy_storage_version`. -/
def isLegacyStorageVersion (version : Text) : Bool :=
  (stripPrefix legacyStorageVersionStart version).any fun rest =>
    rest.length = 12 && rest.all isHexDigit

variable (env : Env)

/-- The name that a flat container gets as a version. -/
def Env.storageVersion (version : Text) : Text :=
  if env.isVersion version then version else legacyStorageVersionStart ++ env.sha256Start version

/-- What `resolve_active_plugin_dir` finds. -/
inductive Resolution
  | missing
  | invalid
  | incomplete
  | found (payload : Payload)
  deriving DecidableEq, Repr

/-- `resolve_active_plugin_dir`. -/
def resolveActivePluginDir (env : Env) (c : Container) : Resolution :=
  match c.flat with
  | some payload => .found payload
  | none =>
    match c.readLatestActivation with
    | none => .missing
    | some record =>
      if env.isVersion record.version then
        match c.payload (.version record.version) with
        | some payload => if payload.hasManifest then .found payload else .incomplete
        | none => .incomplete
      else .invalid

/-! ## Sites -/

/-- The record of a migration, or that of an installation or a rollback. -/
inductive Phase
  | migration
  | activation
  deriving DecidableEq, Repr

/-- The calls in `write_activation_record`. -/
inductive RecordCall
  | createDirectory
  | writeTemporary
  | rename
  | syncDirectory
  deriving DecidableEq, Repr

/-- The calls of the file system. -/
inductive Site
  | prepare
  | stageLegacy
  | scaffold
  | record (phase : Phase) (call : RecordCall)
  | placeLegacy
  | dropContainer
  | restoreLegacy
  | createDirectories
  | readCurrent
  | moveAside
  | place
  | removeNew
  | restore
  | removeReplaced
  | pruneVersion (dir : Dir)
  | syncVersions
  | pruneRecord (record : Record)
  | syncRecords
  deriving DecidableEq, Repr

/-- A program of the installer. A directory that is half removed keeps its manifest or not. -/
abbrev Install := Program Site Bool Store Text

/-- A call that changes nothing that is read back. -/
def touch (site : Site) : Install Unit := atomic site "io".toList id

/-! ## The operations -/

/-- `u64::saturating_add`, for the next sequence. -/
def nextSequence (sequence : Nat) : Nat := min (sequence + 1) (2 ^ 64 - 1)

open Store

/-- `write_activation_record`. -/
def writeActivationRecord (phase : Phase) (record : Record) : Install Unit := do
  touch (.record phase .createDirectory)
  touch (.record phase .writeTemporary)
  atomic (.record phase .rename) "io".toList
    (edit fun c => { c with records := c.records ++ [record] })
  touch (.record phase .syncDirectory)

/-- The record and the plugin of a flat container come to their places. -/
def placeLegacyContainer (version : Text) (payload : Payload) : Install Unit := do
  touch .scaffold
  writeActivationRecord .migration { sequence := 1, version := version, previousVersion := none }
  atomic .placeLegacy "io".toList fun s =>
    { container := s.container.put (.version version) payload, staged := none }

/-- The flat container comes back. The directory has to be gone for that. -/
def undoMigration : Install Unit := do
  let dropped ← attempt (step .dropContainer "io".toList (edit fun _ => .empty)
    fun _ => edit fun c => { c with records := [] })
  match dropped with
  | .error _ => fail "Failed to migrate legacy plugin".toList
  | .ok _ => do
    let _ ← attempt (atomic .restoreLegacy "io".toList fun s =>
      { container := s.staged.getD s.container, staged := none })
    fail "Failed to migrate legacy plugin".toList

/-- `migrate_legacy_container`. -/
def migrateLegacyContainer : Install Unit := do
  let s ← get
  match s.container.flat with
  | none => pure ()
  | some payload =>
    match payload.manifest with
    | none => fail "Failed to parse legacy plugin".toList
    | some manifest => do
      atomic .stageLegacy "Failed to stage legacy plugin".toList
        fun s => { container := .empty, staged := some s.container }
      let migration ← attempt (placeLegacyContainer (env.storageVersion manifest.version) payload)
      match migration with
      | .ok _ => pure ()
      | .error _ => undoMigration

/-- The records that `prune_plugin_history` keeps: the newest one of every version that is kept. -/
def keepsRecord (retained : List Text) (records : List Record) (record : Record) : Bool :=
  decide (record.version ∈ retained) &&
    records.all fun other => other.version ≠ record.version || other.sequence ≤ record.sequence

/-- `prune_plugin_history`. -/
def prunePluginHistory (current : Record) : Install Unit := do
  let retained := current.version :: current.previousVersion.toList
  let s ← get
  forEach (s.container.dirs.map Prod.fst) fun dir =>
    if dir ∈ retained.map Dir.version then pure ()
    else step (.pruneVersion dir) "io".toList (edit (·.remove dir))
      fun keeps => edit (·.tear dir keeps)
  touch .syncVersions
  let s ← get
  forEach s.container.records fun record =>
    if keepsRecord retained s.container.records record then pure ()
    else atomic (.pruneRecord record) "io".toList
      (edit fun c => { c with records := c.records.filter (· ≠ record) })
  touch .syncRecords

/-- A package that is installed: what it holds, whether it is installed for development, and what
the checks before and behind the migration say about it. -/
structure Package where
  manifest : Manifest
  development : Bool
  refusal : Option Text
  continuity : Record → Option Text

/-- What a package installs. -/
def Package.payload (package : Package) : Payload where
  manifest := some package.manifest
  hasManifest := true
  intact := true
  present _ := rfl

/-- `version_dir_is_usable`. -/
def versionDirIsUsable (c : Container) (pluginId version : Text) : Bool :=
  ((c.payload (.version version)).bind Payload.manifest).any fun manifest =>
    manifest.id = pluginId && (manifest.version = version || isLegacyStorageVersion version)

/-- The first copy that is not there yet. -/
def freshReplaced (c : Container) (version : Text) : Dir :=
  (((List.range (c.dirs.length + 1)).map (Dir.replaced version)).find? fun dir =>
    c.payload dir = none).getD (.replaced version c.dirs.length)

/-- The version that a rollback is to go back to. -/
def previousVersionOf (c : Container) (package : Package) : Option Text :=
  (c.readLatestActivation.bind fun record =>
    if record.version = package.manifest.version then record.previousVersion
    else some record.version).filter fun previous =>
      previous ≠ package.manifest.version && versionDirIsUsable c package.manifest.id previous

/-- A directory that is in the way is renamed. -/
def setAside (version : Text) : Install (Option Dir) := do
  let s ← get
  if (s.container.payload (.version version)).isSome then do
    let copy := freshReplaced s.container version
    atomic .moveAside "Failed to prepare plugin replacement".toList
      (edit (·.move (.version version) copy))
    pure (some copy)
  else pure none

/-- The copy comes back, if the directory of the version is free. -/
def restoreReplaced (version : Text) (replaced : Option Dir) : Install Unit := do
  let s ← get
  match replaced with
  | none => pure ()
  | some copy =>
    if s.container.payload (.version version) = none then do
      let _ ← attempt (atomic .restore "io".toList (edit (·.move copy (.version version))))
      pure ()
    else pure ()

/-- The copy is not needed any more. -/
def removeReplaced (replaced : Option Dir) : Install Unit :=
  match replaced with
  | none => pure ()
  | some copy => step .removeReplaced "io".toList (edit (·.remove copy))
      fun keeps => edit (·.tear copy keeps)

/-- The new version is taken back. -/
def removeNew (version : Text) : Install Unit :=
  step .removeNew "io".toList (edit (·.remove (.version version)))
    fun keeps => edit (·.tear (.version version) keeps)

/-- The new version is taken back, and the copy of the old one comes back. -/
def takeBack (version : Text) (replaced : Option Dir) (message : Text) : Install Unit := do
  let _ ← attempt (removeNew version)
  restoreReplaced version replaced
  fail message

/-- The new version is at its place, and becomes the active one. -/
def recordPackage (record : Record) (replaced : Option Dir) : Install Unit := do
  let written ← attempt (writeActivationRecord .activation record)
  match written with
  | .error message => takeBack record.version replaced message
  | .ok _ => do
    let _ ← attempt (removeReplaced replaced)
    let _ ← attempt (prunePluginHistory record)
    pure ()

/-- The record of a new version. -/
def Package.record (package : Package) (c : Container) : Record where
  sequence := c.readLatestActivation.elim 1 fun record => nextSequence record.sequence
  version := package.manifest.version
  previousVersion := previousVersionOf c package

/-- What `install_bytes_locked` does behind its checks. -/
def activatePackage (package : Package) : Install Unit := do
  let s ← get
  let replaced ← setAside package.manifest.version
  let placed ← attempt (atomic .place "Failed to store plugin".toList
    (edit (·.put (.version package.manifest.version) package.payload)))
  match placed with
  | .error message => do
    restoreReplaced package.manifest.version replaced
    fail message
  | .ok _ => recordPackage (package.record s.container) replaced

/-- What `install_bytes_locked` does behind the migration. -/
def installMigrated (package : Package) : Install Unit := do
  touch .createDirectories
  touch .readCurrent
  let s ← get
  match s.container.readLatestActivation with
  | none => activatePackage package
  | some record =>
    match package.continuity record with
    | some message => fail message
    | none =>
      if !package.development && record.version = package.manifest.version &&
          versionDirIsUsable s.container package.manifest.id package.manifest.version then
        fail "is already installed".toList
      else activatePackage package

/-- `install_bytes_locked`. -/
def installBytesLocked (package : Package) : Install Unit := do
  touch .prepare
  match package.refusal with
  | some message => fail message
  | none =>
    if env.isVersion package.manifest.version then do
      migrateLegacyContainer env
      installMigrated package
    else fail "Plugin version is invalid".toList

/-- `rollback_locked`. -/
def rollbackLocked (pluginId : Text) : Install Unit := do
  touch .readCurrent
  let s ← get
  match s.container.readLatestActivation with
  | none => fail "does not have an active version".toList
  | some current =>
    match current.previousVersion with
    | none => fail "does not have a rollback version".toList
    | some previous =>
      match s.container.payload (.version previous) with
      | none => fail "Rollback version is incomplete".toList
      | some payload =>
        if payload.manifest = some { id := pluginId, version := previous } ∧
            env.compatible payload then do
          let record : Record :=
            { sequence := nextSequence current.sequence, version := previous
              previousVersion := some current.version }
          writeActivationRecord .activation record
          let _ ← attempt (prunePluginHistory record)
          pure ()
        else fail "Rollback version does not match plugin".toList

end Dbx.Plugin
