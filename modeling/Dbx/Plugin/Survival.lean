import Dbx.Plugin.Recovery
import Dbx.Transition.Basic

/-!
# The active version of a plugin survives

Whatever fails in an installation or a rollback, and wherever the process dies, the plugin still
resolves to a complete version: the one that was active, or the new one. An operation that returns
an error leaves the active version as it was.

There are exceptions. The sync of the records behind the rename of a new record may fail: then the
operation is undone as if the record were not there. The directory of the active version is moved
aside before the new one is put to its place. A flat container is moved away before its record and
its plugin are at their places, and the name that it gets may be no semantic version, which only the
next resolution finds out. And a new version that is taken back may be left in part, with its
manifest.

## Main results

* `ensures_installBytesLocked`, `ensures_rollbackLocked`: the operations
* `active_survives`: every run whose operations meet tolerable faults only
-/

namespace Dbx.Plugin

open Text Faulty Faulty.Program

/-! ## What an operation leaves -/

/-- A complete version resolves, or nothing is installed. -/
def Works (env : Env) (c : Container) (found : Resolution) : Prop :=
  (∃ p, c.flat = some p ∧ p.hasManifest = true ∧ p.intact = true ∧ found = .found p) ∨
    ∃ cur, Stands env c cur ∧ found = resolution cur

/-- The version that was active or the new one resolves, and after an error the one that was
active. -/
def Leaves (env : Env) (found : Resolution) (new : Option Payload)
    (outcome : Outcome Text Unit) (c : Container) : Prop :=
  ∃ found', Works env c found' ∧ (found' = found ∨ ∃ p, new = some p ∧ found' = .found p) ∧
    ((∃ message, outcome = .failed message) → found' = found)

variable {env : Env} {c c' : Container} {cur : Option (Record × Payload)} {found : Resolution}
  {new : Payload}
  {wanted : Option Payload} {outcome : Outcome Text Unit} {faults : Site → Option (Fault Bool)}
  {s : Store} {record : Record}

theorem Works.resolve (h : Works env c found) : resolveActivePluginDir env c = found := by
  rcases h with ⟨p, hflat, -, -, rfl⟩ | ⟨cur, hstands, rfl⟩
  · rw [resolveActivePluginDir, hflat]
  · exact hstands.resolve

theorem Works.complete (h : Works env c found) (hne : found ≠ .missing) :
    ∃ p, found = .found p ∧ p.intact := by
  rcases h with ⟨p, -, -, hintact, rfl⟩ | ⟨_ | ⟨r, p⟩, hstands, rfl⟩
  · exact ⟨p, rfl, hintact⟩
  · exact absurd rfl hne
  · exact ⟨p, rfl, Holds.intact hstands⟩

theorem Works.leaves (h : Works env c found) : Leaves env found wanted outcome c :=
  ⟨found, h, .inl rfl, fun _ => rfl⟩

theorem Stands.leaves (h : Stands env c cur) : Leaves env (resolution cur) wanted outcome c :=
  Works.leaves (.inr ⟨cur, h, rfl⟩)

theorem Holds.leaves (h : Holds env c record new) (hended : ∀ message, outcome ≠ .failed message) :
    Leaves env found (some new) outcome c :=
  ⟨.found new, .inr ⟨some (record, new), h, rfl⟩, .inr ⟨new, rfl, rfl⟩,
    fun ⟨message, hfailed⟩ => absurd hfailed (hended message)⟩

theorem Restored.stands (h : Restored c c') (hrecords : c'.records = c.records)
    (hstands : Stands env c cur) : Stands env c' cur := by
  rcases cur with _ | ⟨r, p⟩
  · exact ⟨h.flat.trans hstands.1, hrecords ▸ hstands.2⟩
  · refine ⟨Holds.valid hstands, h.flat.trans (Holds.flat hstands),
      hrecords ▸ Holds.latest hstands, ?_, hstands.hasManifest, hstands.intact,
      fun v q hv hq => ?_⟩
    · rw [h.payload]
      exact hstands.active
    · exact hstands.previous v q hv (h.payload v ▸ hq)

/-! ## Activation -/

/-- The faults that the activation of a version gets over, by the record that is the newest one. -/
structure Tolerable (active : Option Record) (v : Text) (faults : Site → Option (Fault Bool)) :
    Prop where
  sequence : ∀ r, active = some r → r.sequence + 1 < 2 ^ 64
  sync : (∀ r, active = some r → r.version ≠ v) →
    ¬ Fails (faults (.record .activation .syncDirectory))
  place : ∀ r, active = some r → r.version = v → ¬ Dies (faults .place)
  restore : ∀ r, active = some r → r.version = v →
    Fails (faults .place) ∨ (∃ call, Fails (faults (.record .activation call))) →
      faults .restore = none
  remove : ∀ r, active = some r → r.version = v →
    (∃ call, Fails (faults (.record .activation call))) → faults .removeNew = none
  previous : ∀ r, active = some r → r.previousVersion = some v →
    (∃ call, Fails (faults (.record .activation call))) → ¬ LeavesManifest (faults .removeNew)

theorem lt_nextSequence {n : Nat} (h : n + 1 < 2 ^ 64) : n < nextSequence n := by
  rw [nextSequence]
  omega

/-- The version that a rollback is to go back to is another one, and complete. -/
theorem Stands.previousVersionOf (h : Stands env c cur) {package : Package} {w : Text}
    (hw : previousVersionOf c package = some w) :
    w ≠ package.manifest.version ∧ env.isVersion w ∧
      ∀ q, c.payload (.version w) = some q → q.manifest ≠ none → q.intact := by
  rw [Plugin.previousVersionOf, Option.filter_eq_some_iff, readLatestActivation_eq, h.latest] at hw
  obtain ⟨hbind, husable⟩ := hw
  rw [Bool.and_eq_true] at husable
  refine ⟨of_decide_eq_true husable.1, ?_⟩
  rcases cur with _ | ⟨r, p⟩
  · cases hbind
  simp only [Option.map_some, Option.bind_some] at hbind
  split at hbind
  · exact ⟨(Holds.valid h).previous w hbind, fun q hq hm => h.previous w q hbind hq hm⟩
  · obtain rfl := Option.some.inj hbind
    refine ⟨(Holds.valid h).version, fun q hq _ => ?_⟩
    obtain rfl := Option.some.inj ((Holds.active h).symm.trans hq)
    exact h.intact

variable {p : Payload}

section Activation

variable {package : Package} {replaced : Option Dir}
  {Q : Outcome Text Unit → Store → Prop}

/-- A version with the new record is active, in a container whose other versions are the old
ones. -/
theorem Stands.recorded (h : Stands env c cur) (hversion : env.isVersion package.manifest.version)
    (hsequence : ∀ r, cur.map Prod.fst = some r → r.sequence + 1 < 2 ^ 64)
    {c₁ : Container} {cur₁ : Option (Record × Payload)} (hst : Stands env c₁ cur₁)
    (hcur : cur₁.map Prod.fst = cur.map Prod.fst) (hother : ∀ w, w ≠ package.manifest.version →
      c₁.payload (.version w) = c.payload (.version w))
    (hp : c₁.payload (.version package.manifest.version) = some p) (hm : p.hasManifest)
    (hi : p.intact) :
    Holds env { c₁ with records := c₁.records ++ [package.record c] } (package.record c) p := by
  refine hst.activate ⟨hversion, fun w hw => (h.previousVersionOf hw).2.1⟩ (fun r q hr => ?_) hp hm
    hi fun w q hw hq => ?_
  · have hlatest : cur.map Prod.fst = some r := by rw [← hcur, hr]; rfl
    rw [Package.record, readLatestActivation_eq, h.latest, hlatest]
    exact lt_nextSequence (hsequence r hlatest)
  · obtain ⟨hne, -, hsound⟩ := h.previousVersionOf hw
    exact hsound q (hother w hne ▸ hq)

def Store.placed (s : Store) (package : Package) : Store :=
  s.edit (·.put (.version package.manifest.version) package.payload)

theorem payload_placed (s : Store) (package : Package) :
    (s.placed package).container.payload (.version package.manifest.version) =
      some package.payload := by
  simp [Store.placed, Store.edit]

theorem Aside.placed (package : Package)
    (h : Aside c s.container package.manifest.version replaced) :
    Aside c (s.placed package).container package.manifest.version replaced :=
  h.at rfl fun d hd => by simp [Store.placed, Store.edit, hd]

/-- **The record of a new version** makes it the active one, or the version is taken back. -/
theorem ensures_recordPackage (hcopy : ∀ d, replaced = some d → ∃ v n, d = .replaced v n)
    (hholds : Holds env (s.activated record).container record new) (hdied : Q .died s)
    (hactive : ∀ outcome s', (∀ message, outcome ≠ .failed message) →
      Holds env s'.container record new → Q outcome s')
    (hback : ∀ call s', Fails (faults (.record .activation call)) →
      (call ≠ .syncDirectory ∧ s' = s ∨ call = .syncDirectory ∧ s' = s.activated record) →
      Ensures (takeBack record.version replaced "io".toList) faults s' Q) :
    Ensures (recordPackage record replaced) faults s Q := by
  have hremove : Keeps (fun s => Holds env s.container record new) (removeReplaced replaced)
      faults := by
    rcases replaced with _ | d
    · exact .pure ()
    · obtain ⟨v, n, rfl⟩ := hcopy d rfl
      exact keeps_remove _ (by simp)
  rw [recordPackage, ensures_bind, ensures_attempt]
  refine ensures_writeActivationRecord .activation ?_
    (fun _ _ => ⟨hdied, hactive _ _ (fun _ hfailed => by cases hfailed) hholds⟩)
    (fun call hne hfails => hback call s hfails (.inl ⟨hne, rfl⟩))
    fun hfails => hback _ _ hfails (.inr ⟨rfl, rfl⟩)
  -- the end is no error, since the failures of the cleaning are caught
  have hclean := hremove.attempt.bind
    (fun _ => keeps_prunePluginHistory.attempt.bind fun _ => .pure ()) _ hholds
  have hnever : NeverFails (attempt (removeReplaced replaced) >>= fun _ =>
      attempt (prunePluginHistory record) >>= fun _ => pure ()) faults :=
    (NeverFails.attempt _).bind fun _ => (NeverFails.attempt _).bind fun _ => .pure ()
  exact hactive _ _ (hnever _) hclean

/-- **Another version than the active one.** -/
theorem ensures_activatePackage_other (h : Stands env s.container cur)
    (hpackage : env.isVersion package.manifest.version)
    (ht : Tolerable (cur.map Prod.fst) package.manifest.version faults)
    (hne : ∀ r p, cur = some (r, p) → r.version ≠ package.manifest.version) :
    Ensures (activatePackage package) faults s fun outcome s' =>
      Leaves env (resolution cur) (some package.payload) outcome s'.container := by
  have hnot (r : Record) (hr : cur.map Prod.fst = some r) :
      r.version ≠ package.manifest.version := by
    obtain ⟨⟨r', p⟩, hcur, rfl⟩ := Option.map_eq_some_iff.mp hr
    exact hne r' p hcur
  rw [activatePackage, ensures_get_bind, ensures_bind]
  refine (ensures_setAside _).mono fun outcome s₁ hs₁ => ?_
  rcases outcome with replaced | _ | _
  · obtain ⟨haside, hgone, hrecords⟩ := hs₁
    have hstands : Stands env s₁.container cur :=
      h.elsewhere _ hne haside.flat hrecords haside.other fun _ q hq => by simp [hgone] at hq
    have hplaced := haside.placed package
    have hpayload := payload_placed s₁ package
    have hstands' : Stands env (s₁.placed package).container cur := by
      refine h.elsewhere _ hne hplaced.flat hrecords hplaced.other fun _ q hq _ => .inl ?_
      rw [← Option.some.inj (hpayload.symm.trans hq)]
      rfl
    dsimp only
    rw [ensures_bind, ensures_attempt, ensures_atomic]
    refine ⟨fun _ => ?_, fun _ _ => ?_, fun _ _ => hstands.leaves⟩
    · -- the version is in place: its record decides which one is active
      refine ensures_recordPackage (fun d hd => ⟨_, (haside.copied d hd).1⟩)
        (h.recorded hpackage ht.sequence hstands' rfl hplaced.other hpayload rfl rfl)
        hstands'.leaves (fun outcome s' hended hholds => hholds.leaves hended)
        fun call s' hfails hcall => ?_
      -- before the rename of the record the version is taken back; a failed sync comes too late
      rcases hcall with ⟨-, rfl⟩ | ⟨rfl, -⟩
      · refine (ensures_takeBack hplaced hpayload rfl _).mono fun outcome s₂ htaken => ?_
        refine (h.elsewhere _ hne htaken.flat (htaken.records.trans hrecords) htaken.other
          ?_).leaves
        rintro ⟨r, p, rfl, hprevious⟩
        exact htaken.sound (ht.previous r rfl hprevious ⟨call, hfails⟩)
      · exact absurd hfails (ht.sync hnot)
    · dsimp only
      rw [ensures_bind]
      refine (ensures_restoreReplaced haside).mono fun outcome s₂ hs₂ => ?_
      -- the version could not be put in place, and the copy comes back
      have hstands₂ : Stands env s₂.container cur := by
        rcases hs₂.1 with rfl | ⟨hrestored, hrecords₂⟩
        · exact hstands
        · exact hrestored.stands (hrecords₂.trans hrecords) h
      rcases outcome with _ | _ | _ <;> exact hstands₂.leaves
  · obtain rfl := hs₁
    exact h.leaves
  · obtain rfl := hs₁
    exact h.leaves

/-- **The active version again.** -/
theorem ensures_activatePackage_active {r : Record} (h : Holds env s.container r p)
    (hpackage : env.isVersion package.manifest.version)
    (ht : Tolerable (some r) package.manifest.version faults)
    (hversion : r.version = package.manifest.version) :
    Ensures (activatePackage package) faults s fun outcome s' =>
      Leaves env (.found p) (some package.payload) outcome s'.container := by
  have hst : Stands env s.container (some (r, p)) := h
  rw [activatePackage, ensures_get_bind, ensures_bind]
  refine (ensures_setAside _).mono fun outcome s₁ hs₁ => ?_
  rcases outcome with replaced | _ | _
  · obtain ⟨haside, hgone, hrecords⟩ := hs₁
    have hplaced := haside.placed package
    have hpayload := payload_placed s₁ package
    have hnew : Stands env (s₁.placed package).container (some (r, package.payload)) := by
      refine ⟨h.valid, hplaced.flat.trans h.flat, ?_, hversion ▸ hpayload, rfl, rfl,
        fun w q hw hq hm => ?_⟩
      · exact (congrArg newest hrecords).trans h.latest
      · by_cases hwv : w = package.manifest.version
        · rw [hwv, hpayload] at hq
          rw [← Option.some.inj hq]
          rfl
        · exact h.previous w q hw (hplaced.other w hwv ▸ hq) hm
    dsimp only
    rw [ensures_bind, ensures_attempt, ensures_atomic]
    refine ⟨fun _ => ?_, fun torn hfault => ?_, fun torn hfault => ?_⟩
    · refine ensures_recordPackage (fun d hd => ⟨_, (haside.copied d hd).1⟩)
        (hst.recorded hpackage ht.sequence hnew rfl hplaced.other hpayload rfl rfl)
        (Holds.leaves hnew nofun) (fun outcome s' hended hholds => hholds.leaves hended)
        fun call s' hfails hcall => ?_
      -- whatever fails, the copy comes back
      have hremove := ht.remove r rfl hversion ⟨call, hfails⟩
      have hrestore := ht.restore r rfl hversion (.inr ⟨call, hfails⟩)
      rcases hcall with ⟨-, rfl⟩ | ⟨-, rfl⟩
      · refine (ensures_takeBack hplaced hpayload rfl _).mono fun outcome s₂ htaken => ?_
        obtain ⟨-, hrestored⟩ := htaken.restored hremove hrestore
        exact (hrestored.stands (htaken.records.trans hrecords) hst).leaves
      have haside' : Aside s.container (Store.activated (package.record s.container)
          (s₁.placed package)).container
          package.manifest.version replaced := hplaced.at rfl fun _ _ => rfl
      refine (ensures_takeBack haside' hpayload rfl _).mono fun outcome s₂ htaken => ?_
      obtain ⟨-, hrestored⟩ := htaken.restored hremove hrestore
      -- the record is there, and names the version that is back
      have hold : Stands env { s₂.container with records := s.container.records } (some (r, p)) :=
        Restored.stands ⟨hrestored.flat, hrestored.payload⟩ rfl hst
      have hholds : Holds env { s₂.container with
          records := s.container.records ++ [package.record s.container] }
          (package.record s.container) p :=
        hst.recorded hpackage ht.sequence hold rfl (fun w _ => hrestored.payload w)
          ((hrestored.payload _).trans (hversion ▸ h.active)) h.hasManifest h.intact
      have hrecords₂ : s₂.container.records =
          s.container.records ++ [package.record s.container] := by
        rw [htaken.records]
        exact congrArg (· ++ _) hrecords
      rw [← hrecords₂] at hholds
      have hback : Stands env s₂.container (some (package.record s.container, p)) := hholds
      exact hback.leaves
    · dsimp only
      rw [ensures_bind]
      refine (ensures_restoreReplaced haside).mono fun outcome s₂ hs₂ => ?_
      obtain ⟨rfl, hrestored, hrecords₂⟩ :=
        hs₂.2.1 (ht.restore r rfl hversion (.inl ⟨torn, hfault⟩)) hgone
      exact (hrestored.stands (hrecords₂.trans hrecords) hst).leaves
    · exact absurd ⟨torn, hfault⟩ (ht.place r rfl hversion)
  · obtain rfl := hs₁
    exact hst.leaves
  · obtain rfl := hs₁
    exact hst.leaves

/-- **The activation of a package.** -/
theorem ensures_activatePackage (h : Stands env s.container cur)
    (hpackage : env.isVersion package.manifest.version)
    (ht : Tolerable (cur.map Prod.fst) package.manifest.version faults) :
    Ensures (activatePackage package) faults s fun outcome s' =>
      Leaves env (resolution cur) (some package.payload) outcome s'.container := by
  by_cases hactive : ∃ r p, cur = some (r, p) ∧ r.version = package.manifest.version
  · obtain ⟨r, p, rfl, hversion⟩ := hactive
    exact ensures_activatePackage_active h hpackage ht hversion
  · exact ensures_activatePackage_other h hpackage ht fun r p hcur hversion =>
      hactive ⟨r, p, hcur, hversion⟩

end Activation

/-! ## Migration -/

/-- Any call of a migration behind the first rename fails. -/
def MigrationFails (faults : Site → Option (Fault Bool)) : Prop :=
  Fails (faults .scaffold) ∨ (∃ call, Fails (faults (.record .migration call))) ∨
    Fails (faults .placeLegacy)

/-- The migrations that are got over: the plugin is stored under the name of a version, once the
container is moved away the process does not die, and if anything fails the container comes back. -/
structure Migrates (env : Env) (p : Payload) (faults : Site → Option (Fault Bool)) : Prop where
  named : ∀ manifest, p.manifest = some manifest →
    env.isVersion (env.storageVersion manifest.version)
  alive : ¬ Dies (faults .scaffold) ∧ (∀ call, ¬ Dies (faults (.record .migration call))) ∧
    ¬ Dies (faults .placeLegacy)
  restored : MigrationFails faults → faults .dropContainer = none ∧ faults .restoreLegacy = none

/-- The record of a migrated container. -/
def legacyRecord (env : Env) (manifest : Manifest) : Record where
  sequence := 1
  version := env.storageVersion manifest.version
  previousVersion := none

theorem ensures_placeLegacyContainer {manifest : Manifest} (hparsed : p.manifest = some manifest)
    (hempty : s.container = .empty) (hintact : p.intact) (hm : Migrates env p faults) :
    Ensures (placeLegacyContainer (env.storageVersion manifest.version) p) faults s
      fun outcome s' =>
        match outcome with
        | .done _ => Holds env s'.container (legacyRecord env manifest) p
        | .failed _ => s'.staged = s.staged ∧ MigrationFails faults
        | .died => False := by
  obtain ⟨hscaffold, hrecord, hplace⟩ := hm.alive
  rw [placeLegacyContainer, ensures_bind]
  refine ensures_touch (fun _ => ?_) (fun hfails => ⟨rfl, .inl hfails⟩) hscaffold
  rw [ensures_bind]
  refine ensures_writeActivationRecord .migration ?_ (fun call hdies => absurd hdies (hrecord call))
    (fun call _ hfails => ⟨rfl, .inr (.inl ⟨call, hfails⟩)⟩)
    fun hfails => ⟨rfl, .inr (.inl ⟨_, hfails⟩)⟩
  rw [ensures_atomic]
  refine ⟨fun _ => ?_, fun torn hfault => ⟨rfl, .inr (.inr ⟨torn, hfault⟩)⟩,
    fun torn hfault => hplace ⟨torn, hfault⟩⟩
  refine ⟨⟨hm.named manifest hparsed, nofun⟩, ?_, ?_, Container.payload_put.trans (if_pos rfl),
    p.present (by simp [hparsed]), hintact, nofun⟩
  · show s.container.flat = none
    rw [hempty]
    rfl
  · show newest (s.container.records ++ [_]) = _
    rw [hempty]
    rfl

theorem ensures_undoMigration (hstaged : s.staged = some c) (hdrop : faults .dropContainer = none)
    (hrestore : faults .restoreLegacy = none) :
    Ensures undoMigration faults s fun outcome s' =>
      (∃ message, outcome = .failed message) ∧ s'.container = c := by
  rw [undoMigration, ensures_bind, ensures_attempt, ensures_step]
  refine ⟨fun _ => ?_, fun _ hfault => by simp [hdrop] at hfault,
    fun _ hfault => by simp [hdrop] at hfault⟩
  dsimp only
  rw [ensures_bind, ensures_attempt, ensures_atomic]
  refine ⟨fun _ => ⟨⟨_, rfl⟩, ?_⟩, fun _ hfault => by simp [hrestore] at hfault,
    fun _ hfault => by simp [hrestore] at hfault⟩
  show s.staged.getD _ = c
  rw [hstaged]
  rfl

/-- **A flat container is migrated or left as it was.** -/
theorem ensures_migrateLegacyContainer
    (hflat : s.container.flat = some p) (hintact : p.intact) (hm : Migrates env p faults) :
    Ensures (migrateLegacyContainer env) faults s fun outcome s' =>
      match outcome with
      | .done _ => ∃ manifest, p.manifest = some manifest ∧
          Holds env s'.container (legacyRecord env manifest) p
      | _ => s'.container = s.container := by
  rw [migrateLegacyContainer, ensures_get_bind, hflat]
  dsimp only
  rcases hparsed : p.manifest with _ | manifest
  · exact rfl
  rw [ensures_bind, ensures_atomic]
  refine ⟨fun _ => ?_, fun _ _ => rfl, fun _ _ => rfl⟩
  rw [ensures_bind, ensures_attempt]
  refine (ensures_placeLegacyContainer hparsed rfl hintact hm).mono fun outcome s₁ hs₁ => ?_
  rcases outcome with _ | _ | _
  · exact ⟨manifest, rfl, hs₁⟩
  · obtain ⟨hstaged, hfails⟩ := hs₁
    obtain ⟨hdrop, hrestore⟩ := hm.restored hfails
    refine (ensures_undoMigration hstaged hdrop hrestore).mono fun outcome s₂ hs₂ => ?_
    obtain ⟨⟨message, rfl⟩, hcontainer⟩ := hs₂
    exact hcontainer
  · exact hs₁.elim

/-! ## The operations -/

section Operations

variable {package : Package}

/-- The newest record, and the one that a flat container is going to have. -/
def activeRecord (env : Env) (c : Container) : Option Record :=
  match c.flat with
  | some p => p.manifest.map (legacyRecord env)
  | none => c.readLatestActivation

theorem ensures_installMigrated (h : Stands env s.container cur)
    (hpackage : env.isVersion package.manifest.version)
    (ht : Tolerable (cur.map Prod.fst) package.manifest.version faults) :
    Ensures (installMigrated package) faults s fun outcome s' =>
      Leaves env (resolution cur) (some package.payload) outcome s'.container := by
  rw [installMigrated, ensures_bind]
  refine ensures_touch (fun _ => ?_) (fun _ => h.leaves) fun _ => h.leaves
  rw [ensures_bind]
  refine ensures_touch (fun _ => ?_) (fun _ => h.leaves) fun _ => h.leaves
  rw [ensures_get_bind]
  rcases s.container.readLatestActivation with _ | record
  · exact ensures_activatePackage h hpackage ht
  dsimp only
  rcases package.continuity record with _ | message
  · dsimp only
    split
    · exact h.leaves
    · exact ensures_activatePackage h hpackage ht
  · exact h.leaves

/-- **An installation** leaves the active version or the new one, and the active one after an
error. -/
theorem ensures_installBytesLocked (h : Works env s.container found)
    (hm : ∀ p, s.container.flat = some p → Migrates env p faults)
    (ht : Tolerable (activeRecord env s.container) package.manifest.version faults) :
    Ensures (installBytesLocked env package) faults s fun outcome s' =>
      Leaves env found (some package.payload) outcome s'.container := by
  rw [installBytesLocked, ensures_bind]
  refine ensures_touch (fun _ => ?_) (fun _ => h.leaves) fun _ => h.leaves
  rcases package.refusal with _ | message
  swap
  · exact h.leaves
  dsimp only
  split
  swap
  · exact h.leaves
  · next hpackage =>
    rw [ensures_bind]
    rcases h with ⟨p, hflat, hmanifest, hintact, rfl⟩ | ⟨cur, hstands, rfl⟩
    · -- a flat container is migrated first, and its plugin is active then
      have hworks : Works env s.container (.found p) := .inl ⟨p, hflat, hmanifest, hintact, rfl⟩
      refine (ensures_migrateLegacyContainer hflat hintact (hm p hflat)).mono
        fun outcome s₁ hs₁ => ?_
      rcases outcome with _ | _ | _
      · obtain ⟨manifest, hparsed, hholds⟩ := hs₁
        have hst : Stands env s₁.container (some (legacyRecord env manifest, p)) := hholds
        rw [activeRecord, hflat] at ht
        refine ensures_installMigrated hst hpackage ?_
        simpa [hparsed] using ht
      · exact (hs₁ ▸ hworks).leaves
      · exact (hs₁ ▸ hworks).leaves
    · rw [migrateLegacyContainer, ensures_get_bind, hstands.flat]
      rw [activeRecord, hstands.flat] at ht
      exact ensures_installMigrated hstands hpackage (hstands.latest ▸ ht)

/-- What a rollback goes back to. -/
def rollbackTarget (c : Container) : Option Payload := do
  let record ← c.readLatestActivation
  let previous ← record.previousVersion
  c.payload (.version previous)

/-- The record of a rollback makes the version before the active one, which is complete. -/
theorem Holds.rolledBack {r : Record} {p q : Payload} {previous : Text} (h : Holds env c r q)
    (hsequence : r.sequence + 1 < 2 ^ 64) (hprevious : r.previousVersion = some previous)
    (hpayload : c.payload (.version previous) = some p) (hmanifest : p.manifest.isSome) :
    Holds env
      { c with records := c.records ++ [⟨nextSequence r.sequence, previous, some r.version⟩] }
      ⟨nextSequence r.sequence, previous, some r.version⟩ p := by
  have hst : Stands env c (some (r, q)) := h
  have hintact := h.previous previous p hprevious hpayload (Option.isSome_iff_ne_none.mp hmanifest)
  have hvalid : Record.Valid env ⟨nextSequence r.sequence, previous, some r.version⟩ := by
    refine ⟨h.valid.previous previous hprevious, ?_⟩
    rintro _ ⟨⟩
    exact h.valid.version
  refine hst.activate hvalid (fun x y hxy => ?_) hpayload (p.present hmanifest) hintact
    fun w x hw hx _ => ?_
  · cases hxy
    exact lt_nextSequence hsequence
  · obtain rfl := Option.some.inj hw
    obtain rfl := Option.some.inj (h.active.symm.trans hx)
    exact h.intact

/-- Records and pruning leave a flat container a flat one. -/
theorem keeps_flat (p : Payload) (record : Record) :
    Keeps (fun s => s.container.flat = some p)
      (writeActivationRecord .activation record >>= fun _ =>
        attempt (prunePluginHistory record) >>= fun _ => pure ()) faults := by
  refine .bind (.bind (keeps_touch _) fun _ => .bind (keeps_touch _) fun _ => .bind
    (.step (fun _ hs => hs) fun _ _ hs => hs) fun _ => keeps_touch _) fun _ => ?_
  refine .bind (.attempt ?_) fun _ => .pure ()
  refine .get_bind fun s _ => .bind (.forEach fun dir _ => ?_) fun _ => .bind (keeps_touch _)
    fun _ => .get_bind fun s' _ => .bind (.forEach fun x _ => ?_) fun _ => keeps_touch _
  · split
    · exact .pure ()
    · exact .step (fun _ hs => hs) fun keeps s hs => (Container.flat_tear keeps).trans hs
  · split
    · exact .pure ()
    · exact .step (fun _ hs => hs) fun _ _ hs => hs

/-- **A rollback** leaves the active version or the one before it, and the active one after an
error. -/
theorem ensures_rollbackLocked {pluginId : Text} (h : Works env s.container found)
    (hsync : ¬ Fails (faults (.record .activation .syncDirectory)))
    (hsequence : ∀ r, s.container.readLatestActivation = some r → r.sequence + 1 < 2 ^ 64) :
    Ensures (rollbackLocked env pluginId) faults s fun outcome s' =>
      Leaves env found (rollbackTarget s.container) outcome s'.container := by
  rw [rollbackLocked, ensures_bind]
  refine ensures_touch (fun _ => ?_) (fun _ => h.leaves) fun _ => h.leaves
  rw [ensures_get_bind]
  rcases hlatest : s.container.readLatestActivation with _ | current
  · exact h.leaves
  dsimp only
  rcases hprevious : current.previousVersion with _ | previous
  · exact h.leaves
  dsimp only
  rcases hpayload : s.container.payload (.version previous) with _ | p
  · exact h.leaves
  dsimp only
  split
  swap
  · exact h.leaves
  next hmatches =>
  have htarget : rollbackTarget s.container = some p := by
    simp [rollbackTarget, hlatest, hprevious, hpayload]
  rw [htarget]
  rcases h with ⟨q, hflat, hmanifest, hintact, rfl⟩ | ⟨cur, hstands, rfl⟩
  · -- a flat container resolves to its plugin, whatever the records say
    refine (keeps_flat q _ s hflat).mono fun outcome s' hs' => ?_
    exact Works.leaves (.inl ⟨q, hs', hmanifest, hintact, rfl⟩)
  rcases cur with _ | ⟨r, q⟩
  · rw [readLatestActivation_eq, hstands.2] at hlatest
    cases hlatest
  obtain rfl : r = current := by
    rw [readLatestActivation_eq, Holds.latest hstands] at hlatest
    exact Option.some.inj hlatest
  -- the versions change places in the new record
  have hholds := Holds.rolledBack hstands (hsequence r hlatest) hprevious hpayload
    (by simp [hmatches.1])
  rw [ensures_bind]
  refine ensures_writeActivationRecord .activation ?_
    (fun _ _ => ⟨hstands.leaves, Holds.leaves hholds nofun⟩) (fun _ _ _ => hstands.leaves)
    fun hfails => absurd hfails hsync
  have hkeeps : Keeps (fun s => Holds env s.container
      ⟨nextSequence r.sequence, previous, some r.version⟩ p) (attempt (prunePluginHistory
      ⟨nextSequence r.sequence, previous, some r.version⟩) >>= fun _ => pure ()) faults :=
    keeps_prunePluginHistory.attempt.bind fun _ => .pure ()
  have hnever : NeverFails (attempt (prunePluginHistory
      ⟨nextSequence r.sequence, previous, some r.version⟩) >>= fun _ => pure ()) faults :=
    (NeverFails.attempt _).bind fun _ => .pure ()
  exact Holds.leaves (hkeeps _ hholds) (hnever _)

end Operations

/-! ## Runs -/

/-- The operations on a plugin. -/
inductive Operation
  | install (package : Package)
  | rollback (pluginId : Text)

/-- An operation, with the calls at which it fails or the process dies. -/
structure Action where
  operation : Operation
  faults : Site → Option (Fault Bool)

/-- What an operation is to make the active version. -/
def Operation.target (c : Container) : Operation → Option Payload
  | .install package => some package.payload
  | .rollback _ => rollbackTarget c

/-- An operation is carried out as far as its faults let it. -/
def perform (env : Env) (s : Store) (a : Action) : Outcome Text Unit × Store :=
  match a.operation with
  | .install package => installBytesLocked env package a.faults s
  | .rollback pluginId => rollbackLocked env pluginId a.faults s

def next (env : Env) (s : Store) (a : Action) : Option Store := some (perform env s a).2

/-- The faults that an operation gets over. -/
def Tolerates (env : Env) (s : Store) (a : Action) : Prop :=
  match a.operation with
  | .install package => (∀ p, s.container.flat = some p → Migrates env p a.faults) ∧
      Tolerable (activeRecord env s.container) package.manifest.version a.faults
  | .rollback _ => ¬ Fails (a.faults (.record .activation .syncDirectory)) ∧
      ∀ r, s.container.readLatestActivation = some r → r.sequence + 1 < 2 ^ 64

/-- The plugin resolves to what it did or to what the operation is to make the active version, after
an error to what it did, and to a complete version if it resolved at all. -/
def Kept (env : Env) (s : Store) (a : Action) : Prop :=
  let before := resolveActivePluginDir env s.container
  let after := resolveActivePluginDir env (perform env s a).2.container
  (after = before ∨ ∃ p, a.operation.target s.container = some p ∧ after = .found p) ∧
    ((∃ message, (perform env s a).1 = .failed message) → after = before) ∧
    (after ≠ .missing → ∃ p, after = .found p ∧ p.intact = true)

theorem leaves_perform {a : Action} (h : Works env s.container found) (ht : Tolerates env s a) :
    Leaves env found (a.operation.target s.container) (perform env s a).1
      (perform env s a).2.container := by
  obtain ⟨operation, faults⟩ := a
  cases operation with
  | install package => exact ensures_installBytesLocked h ht.1 ht.2
  | rollback pluginId => exact ensures_rollbackLocked h ht.1 ht.2

/-- **The active version survives** every run of operations whose faults are tolerable. -/
theorem active_survives (env : Env) (s : Store) (as : List Action)
    (h : ∃ found, Works env s.container found)
    (ht : Transition.Along (next env) (Tolerates env) s as) :
    Transition.Along (next env) (Kept env) s as := by
  refine Transition.Along.of_invariant (I := fun s => ∃ found, Works env s.container found)
    (fun s a s' hs ha hs' => ?_) (fun s a hs ha => ?_) as s h ht
  · obtain ⟨found, hworks⟩ := hs
    obtain ⟨found', hworks', -⟩ := leaves_perform hworks ha
    cases hs'
    exact ⟨found', hworks'⟩
  · obtain ⟨found, hworks⟩ := hs
    obtain ⟨found', hworks', hor, hfailed⟩ := leaves_perform hworks ha
    rw [Kept, hworks.resolve, hworks'.resolve]
    exact ⟨hor, hfailed, hworks'.complete⟩

/-! ### Runs with a fault -/

/-- A number without leading zeros. -/
def isNumericIdentifier (text : Text) : Bool :=
  !text.isEmpty && text.all Char.isDigit && (text.length = 1 || text.head? ≠ some '0')

/-- An identifier behind a dash; if it is a number, it has no leading zeros. -/
def isPrereleaseIdentifier (text : Text) : Bool :=
  !text.isEmpty && text.all (fun c => c.isAlphanum || c = '-') &&
    (text.any (!·.isDigit) || isNumericIdentifier text)

/-- A semantic version without build metadata, its numbers not bounded. -/
def isSemanticVersion (text : Text) : Bool :=
  let (core, prerelease) :=
    ((splitOnce '-' text).map fun (core, rest) => (core, some rest)).getD (text, none)
  (splitOn (· = '.') core).length = 3 && (splitOn (· = '.') core).all isNumericIdentifier &&
    prerelease.all fun rest => (splitOn (· = '.') rest).all isPrereleaseIdentifier

/-- SHA-256, of which the runs below need one value. -/
def sha256StartAt (version : Text) : Text :=
  if version = "v0.6.0".toList then "070533466467".toList else "not computed".toList

def plainEnv : Env where
  isVersion := isSemanticVersion
  sha256Start := sha256StartAt
  compatible _ := true

/-- A package for development, which may be installed again. -/
def packageOf (version : Text) : Package where
  manifest := { id := "p".toList, version := version }
  development := true
  refusal := none
  continuity _ := none

/-- The first version is active. -/
def installed : Store where
  container :=
    { flat := none, dirs := [(.version "1.0.0".toList, (packageOf "1.0.0".toList).payload)]
      records := [⟨1, "1.0.0".toList, none⟩] }
  staged := none

/-- A version is in a flat container. -/
def flatInstalled (version : Text) : Store where
  container := { Container.empty with flat := some (packageOf version).payload }
  staged := none

def faultAt (site : Site) (fault : Fault Bool) (other : Site) : Option (Fault Bool) :=
  if other = site then some fault else none

theorem works_installed :
    Works plainEnv installed.container (.found (packageOf "1.0.0".toList).payload) :=
  .inr ⟨some (⟨1, "1.0.0".toList, none⟩, (packageOf "1.0.0".toList).payload),
    ⟨⟨by decide +kernel, nofun⟩, rfl, by decide, by decide, rfl, rfl, nofun⟩, rfl⟩

/-- An update whose record cannot be renamed, and then one in which the process dies. -/
theorem active_survives_update :
    Transition.Along (next plainEnv) (Kept plainEnv) installed
      [⟨.install (packageOf "1.1.0".toList), faultAt (.record .activation .rename) (.fails none)⟩,
        ⟨.install (packageOf "1.1.0".toList), faultAt .place (.dies none)⟩] := by
  have hactive : activeRecord plainEnv installed.container = some ⟨1, "1.0.0".toList, none⟩ := by
    decide
  refine active_survives plainEnv installed _ ⟨_, works_installed⟩ ⟨⟨nofun, ?_⟩, ?_⟩
  · rw [hactive]
    constructor <;> simp [faultAt, Fails, packageOf]
  · rintro s' ⟨⟩
    have hback : (perform plainEnv installed ⟨.install (packageOf "1.1.0".toList),
        faultAt (.record .activation .rename) (.fails none)⟩).2.container =
        installed.container := by decide +kernel
    refine ⟨?_, fun _ _ => trivial⟩
    rw [Tolerates, hback, hactive]
    refine ⟨nofun, ?_⟩
    constructor <;> simp [faultAt, Fails, packageOf]

/-- An update whose record is there, though its sync fails. -/
def unsyncedUpdate : Action where
  operation := .install (packageOf "1.1.0".toList)
  faults := faultAt (.record .activation .syncDirectory) (.fails none)

/-- The active version is installed again, and the process dies between two renames. -/
def cutReinstall : Action where
  operation := .install (packageOf "1.0.0".toList)
  faults := faultAt .place (.dies none)

/-- A flat container is migrated, and the process dies behind the first rename. -/
def cutMigration : Action where
  operation := .install (packageOf "1.1.0".toList)
  faults := faultAt .scaffold (.dies none)

/-- An update that fails behind the migration. -/
def failedUpdate : Action where
  operation := .install (packageOf "1.1.0".toList)
  faults := faultAt .createDirectories (.fails none)

/-- What no longer resolves is not kept. -/
theorem not_kept {a : Action} (hbefore : resolveActivePluginDir env s.container = .found p)
    (hafter : resolveActivePluginDir env (perform env s a).2.container = found)
    (hlost : ∀ p, found ≠ .found p) : ¬ Kept env s a := by
  rintro ⟨hsame | ⟨p', -, hnew⟩, -⟩
  · exact hlost p (hafter.symm.trans (hsame.trans hbefore))
  · exact hlost p' (hafter.symm.trans hnew)

/-- **The active version is lost** if the sync of a new record fails, if the process dies in a
reinstallation or in a migration, and if an update fails behind the migration of a plugin whose
hashed name is no semantic version. -/
theorem active_lost : ¬ Kept plainEnv installed unsyncedUpdate ∧
    ¬ Kept plainEnv installed cutReinstall ∧
    ¬ Kept plainEnv (flatInstalled "1.0.0".toList) cutMigration ∧
    ¬ Kept plainEnv (flatInstalled "v0.6.0".toList) failedUpdate := by
  have hafter : resolveActivePluginDir plainEnv
        (perform plainEnv installed unsyncedUpdate).2.container = .incomplete ∧
      resolveActivePluginDir plainEnv
        (perform plainEnv installed cutReinstall).2.container = .incomplete ∧
      resolveActivePluginDir plainEnv
        (perform plainEnv (flatInstalled "1.0.0".toList) cutMigration).2.container = .missing ∧
      resolveActivePluginDir plainEnv
        (perform plainEnv (flatInstalled "v0.6.0".toList) failedUpdate).2.container = .invalid := by
    decide +kernel
  obtain ⟨hunsynced, hreinstall, hmigration, hupdate⟩ := hafter
  have hinstalled : resolveActivePluginDir plainEnv installed.container =
      .found (packageOf "1.0.0".toList).payload := works_installed.resolve
  exact ⟨not_kept hinstalled hunsynced nofun, not_kept hinstalled hreinstall nofun,
    not_kept rfl hmigration nofun, not_kept rfl hupdate nofun⟩

end Dbx.Plugin
