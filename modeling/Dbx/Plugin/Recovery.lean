import Dbx.Plugin.Installer

/-!
# The steps of the plugin installer

What each part of the installer leaves on disk, whatever fails in it and wherever the process dies.

## Main results

* `Stands.elsewhere`, `Stands.activate`: what leaves the active version alone, and what changes it
* `ensures_writeActivationRecord`: the record is there or not
* `keeps_prunePluginHistory`: pruning leaves the active version and its predecessor alone
* `ensures_setAside`, `ensures_restoreReplaced`, `ensures_takeBack`: a replacement
-/

namespace Dbx.Plugin

open Text Faulty Faulty.Program List

/-! ## Directories and records -/

namespace Container

variable {c : Container} {dir other : Dir} {p : Payload} {r x : Record}

theorem lookup_filter_ne (dirs : List (Dir × Payload)) :
    (dirs.filter fun entry => entry.1 ≠ dir).lookup other =
      if other = dir then none else dirs.lookup other := by
  induction dirs with
  | nil => simp
  | cons entry dirs ih =>
    obtain ⟨name, payload⟩ := entry
    by_cases hname : name = dir
    · rw [filter_cons_of_neg (by simp [hname]), ih]
      by_cases hother : other = dir
      · rw [if_pos hother, if_pos hother]
      · have hbeq : (other == name) = false := beq_eq_false_iff_ne.mpr (hname ▸ hother)
        rw [if_neg hother, if_neg hother, lookup_cons, hbeq]
    · rw [filter_cons_of_pos (by simp [hname]), lookup_cons, lookup_cons, ih]
      by_cases hother : other = name
      · simp [hother, hname]
      · simp [beq_eq_false_iff_ne.mpr hother]

@[simp]
theorem payload_remove : (c.remove dir).payload other =
    if other = dir then none else c.payload other :=
  lookup_filter_ne c.dirs

@[simp]
theorem payload_put : (c.put dir p).payload other =
    if other = dir then some p else c.payload other := by
  by_cases hother : other = dir
  · simp [payload, put, hother]
  · have hbeq : (other == dir) = false := beq_eq_false_iff_ne.mpr hother
    have hrest : (c.remove dir).payload other = c.payload other := by simp [hother]
    simpa [payload, put, lookup_cons, hbeq, hother] using hrest

@[simp]
theorem payload_tear (keeps : Bool) : (c.tear dir keeps).payload other =
    if other = dir then (c.payload dir).map (·.torn keeps) else c.payload other := by
  rw [tear]
  rcases hdir : c.payload dir with _ | q
  · by_cases hother : other = dir <;> simp [hother, hdir]
  · simp

variable {target : Dir}

theorem payload_move (hdir : c.payload dir = some p) :
    (c.move dir target).payload other =
      if other = target then some p else if other = dir then none else c.payload other := by
  rw [move, hdir]
  simp

@[simp]
theorem flat_tear (keeps : Bool) : (c.tear dir keeps).flat = c.flat := by
  rw [tear]
  split <;> rfl

@[simp]
theorem records_tear (keeps : Bool) : (c.tear dir keeps).records = c.records := by
  rw [tear]
  split <;> rfl

@[simp]
theorem flat_move : (c.move dir target).flat = c.flat := by
  rw [move]
  split <;> rfl

@[simp]
theorem records_move : (c.move dir target).records = c.records := by
  rw [move]
  split <;> rfl

end Container

open Container

def newest (records : List Record) : Option Record :=
  ({ empty with records := records }).readLatestActivation

theorem readLatestActivation_eq (c : Container) : c.readLatestActivation = newest c.records := rfl

section Newest

variable {records : List Record} {r x : Record}

theorem newest_append : newest (records ++ [x]) =
    if (newest records).all fun current => current.sequence < x.sequence then some x
    else newest records := by
  rw [newest, readLatestActivation, foldl_append]
  rfl

theorem eq_nil_of_newest (h : newest records = none) : records = [] := by
  induction records using reverseRecOn with
  | nil => rfl
  | append_singleton records x _ =>
    rw [newest_append] at h
    split at h
    · cases h
    · next hall => simp [h] at hall

/-- The newest record is one of them, and no other one is newer. -/
theorem newest_spec (h : newest records = some r) :
    r ∈ records ∧ ∀ x ∈ records, x.sequence ≤ r.sequence := by
  induction records using reverseRecOn generalizing r with
  | nil => cases h
  | append_singleton records x ih =>
    rw [newest_append] at h
    split at h
    · next hall =>
      obtain rfl := Option.some.inj h
      refine ⟨by simp, fun y hy => ?_⟩
      rcases mem_append.mp hy with hy | hy
      · rcases hold : newest records with _ | current
        · simp [eq_nil_of_newest hold] at hy
        · have hlt : current.sequence < x.sequence := by simpa [hold] using hall
          exact ((ih hold).2 y hy).trans hlt.le
      · rw [mem_singleton.mp hy]
    · next hall =>
      obtain ⟨hmem, hmax⟩ := ih h
      refine ⟨mem_append_left _ hmem, fun y hy => ?_⟩
      rcases mem_append.mp hy with hy | hy
      · exact hmax y hy
      · rw [mem_singleton.mp hy]
        simpa [h] using hall

/-- The newest record stays the newest one if another one is removed. -/
theorem newest_filter (h : newest records = some r) (hne : x ≠ r) :
    newest (records.filter (· ≠ x)) = some r := by
  induction records using reverseRecOn generalizing r with
  | nil => cases h
  | append_singleton records y ih =>
    rw [newest_append] at h
    rw [filter_append]
    by_cases hy : y = x
    · have hold : newest records = some r := by
        split at h
        · exact absurd (hy.symm.trans (Option.some.inj h)) hne
        · exact h
      simpa [hy] using ih hold hne
    · have hkeep : [y].filter (· ≠ x) = [y] := by simp [hy]
      rw [hkeep, newest_append]
      split at h
      · next hall =>
        obtain rfl := Option.some.inj h
        refine if_pos ?_
        -- the record is newer than all before it, so also than those that stay
        rcases hfiltered : newest (records.filter (· ≠ x)) with _ | z
        · rfl
        have hz := mem_of_mem_filter (newest_spec hfiltered).1
        rcases hold : newest records with _ | current
        · simp [eq_nil_of_newest hold] at hz
        · have hlt : current.sequence < y.sequence := by simpa [hold] using hall
          have hle := (newest_spec hold).2 z hz
          simpa using hle.trans_lt hlt
      · next hall =>
        rw [ih h hne]
        refine if_neg ?_
        simpa [h] using hall

end Newest

/-! ## The active version -/

/-- The versions that a record names can be parsed. -/
structure Record.Valid (env : Env) (r : Record) : Prop where
  version : env.isVersion r.version
  previous : ∀ v, r.previousVersion = some v → env.isVersion v

/-- A complete version is active. The version that a rollback may go back to is complete too, unless
its manifest is gone. -/
structure Holds (env : Env) (c : Container) (r : Record) (p : Payload) : Prop where
  valid : r.Valid env
  flat : c.flat = none
  latest : newest c.records = some r
  active : c.payload (.version r.version) = some p
  hasManifest : p.hasManifest = true
  intact : p.intact = true
  previous : ∀ v q, r.previousVersion = some v → c.payload (.version v) = some q →
    q.manifest ≠ none → q.intact = true

/-- The active version of a container that is not a flat one, if there is any. -/
def Stands (env : Env) (c : Container) : Option (Record × Payload) → Prop
  | none => c.flat = none ∧ newest c.records = none
  | some (r, p) => Holds env c r p

/-- What an active version resolves to. -/
def resolution : Option (Record × Payload) → Resolution
  | none => .missing
  | some (_, p) => .found p

section Stands

variable {env : Env} {c c' : Container} {cur : Option (Record × Payload)} {record : Record}
  {new : Payload}

variable (h : Stands env c cur)

include h

theorem Stands.resolve : resolveActivePluginDir env c = resolution cur := by
  rcases cur with _ | ⟨r, p⟩
  · obtain ⟨hflat, hlatest⟩ := h
    rw [resolveActivePluginDir, hflat, readLatestActivation_eq, hlatest]
    rfl
  · rw [resolveActivePluginDir, h.flat, readLatestActivation_eq, h.latest]
    simp [h.valid.version, h.active, h.hasManifest, resolution]

theorem Stands.flat : c.flat = none := by
  rcases cur with _ | ⟨r, p⟩
  · exact h.1
  · exact Holds.flat h

theorem Stands.latest : newest c.records = cur.map Prod.fst := by
  rcases cur with _ | ⟨r, p⟩
  · exact h.2
  · exact Holds.latest h

/-- What happens elsewhere leaves the active version alone. -/
theorem Stands.elsewhere (v : Text)
    (hne : ∀ r p, cur = some (r, p) → r.version ≠ v) (hflat : c'.flat = c.flat)
    (hrecords : c'.records = c.records)
    (hother : ∀ w, w ≠ v → c'.payload (.version w) = c.payload (.version w))
    (hsound : (∃ r p, cur = some (r, p) ∧ r.previousVersion = some v) → ∀ q,
      c'.payload (.version v) = some q → q.manifest ≠ none →
        q.intact ∨ c.payload (.version v) = some q) : Stands env c' cur := by
  rcases cur with _ | ⟨r, p⟩
  · exact ⟨hflat.trans h.1, hrecords ▸ h.2⟩
  refine ⟨Holds.valid h, hflat.trans (Holds.flat h), hrecords ▸ Holds.latest h, ?_, h.hasManifest,
    h.intact, ?_⟩
  · rw [hother _ (hne r p rfl)]
    exact h.active
  · intro w q hw hq hmanifest
    by_cases hwv : w = v
    · subst hwv
      rcases hsound ⟨r, p, rfl, hw⟩ q hq hmanifest with hintact | hold
      · exact hintact
      · exact h.previous w q hw hold hmanifest
    · exact h.previous w q hw (hother w hwv ▸ hq) hmanifest

/-- A newer record makes its version the active one. -/
theorem Stands.activate (hvalid : record.Valid env)
    (hnewer : ∀ r p, cur = some (r, p) → r.sequence < record.sequence)
    (hpayload : c.payload (.version record.version) = some new)
    (hmanifest : new.hasManifest) (hintact : new.intact)
    (hprevious : ∀ v q, record.previousVersion = some v → c.payload (.version v) = some q →
      q.manifest ≠ none → q.intact) :
    Holds env { c with records := c.records ++ [record] } record new := by
  refine ⟨hvalid, h.flat, ?_, hpayload, hmanifest, hintact, hprevious⟩
  show newest (c.records ++ [record]) = some record
  rw [newest_append, h.latest, if_pos]
  rcases cur with _ | ⟨r, p⟩
  · rfl
  · simpa using hnewer r p rfl

omit h

end Stands

/-! ## The helpers -/

def Fails (fault : Option (Fault Bool)) : Prop := ∃ torn, fault = some (.fails torn)

def Dies (fault : Option (Fault Bool)) : Prop := ∃ torn, fault = some (.dies torn)

theorem ensures_touch {faults : Site → Option (Fault Bool)} {site : Site} {s : Store}
    {Q : Outcome Text Unit → Store → Prop} (hdone : faults site = none → Q (.done ()) s)
    (hfailed : Fails (faults site) → Q (.failed "io".toList) s)
    (hdied : Dies (faults site) → Q .died s) : Ensures (touch site) faults s Q := by
  rw [touch, ensures_atomic]
  exact ⟨hdone, fun torn hfault => hfailed ⟨torn, hfault⟩, fun torn hfault => hdied ⟨torn, hfault⟩⟩

open Store

def Store.activated (record : Record) : Store → Store :=
  edit fun c => { c with records := c.records ++ [record] }

section Helpers

variable {env : Env} {faults : Site → Option (Fault Bool)} {s : Store} {record : Record}
  {p : Payload} {Q : Outcome Text Unit → Store → Prop}

/-- **The record is there or not**: a failure in front of its rename leaves it out, and one of the
sync leaves it in. -/
theorem ensures_writeActivationRecord (phase : Phase) (hdone : Q (.done ()) (s.activated record))
    (hdied : ∀ call, Dies (faults (.record phase call)) → Q .died s ∧ Q .died (s.activated record))
    (hfailed : ∀ call, call ≠ .syncDirectory → Fails (faults (.record phase call)) →
      Q (.failed "io".toList) s)
    (hsync : Fails (faults (.record phase .syncDirectory)) →
      Q (.failed "io".toList) (s.activated record)) :
    Ensures (writeActivationRecord phase record) faults s Q := by
  rw [writeActivationRecord, ensures_bind]
  refine ensures_touch (fun _ => ?_) (hfailed _ (by decide)) fun hdies => (hdied _ hdies).1
  rw [ensures_bind]
  refine ensures_touch (fun _ => ?_) (hfailed _ (by decide)) fun hdies => (hdied _ hdies).1
  rw [ensures_bind, ensures_atomic]
  refine ⟨fun _ => ?_, fun torn hfault => hfailed _ (by decide) ⟨torn, hfault⟩,
    fun torn hfault => (hdied _ ⟨torn, hfault⟩).1⟩
  exact ensures_touch (fun _ => hdone) hsync fun hdies => (hdied _ hdies).2

theorem keeps_touch {I : Store → Prop} (site : Site) : Keeps I (touch site) faults :=
  .step (fun _ hs => hs) fun _ _ hs => hs

/-- A directory that is neither that of the active version nor that of its predecessor. -/
theorem Holds.of_other {c c' : Container} {dir : Dir} (h : Holds env c record p)
    (hdir : dir ∉ (record.version :: record.previousVersion.toList).map Dir.version)
    (hflat : c'.flat = c.flat) (hrecords : c'.records = c.records)
    (hother : ∀ other, other ≠ dir → c'.payload other = c.payload other) :
    Holds env c' record p := by
  have hversion (v : Text) (hv : v ∈ record.version :: record.previousVersion.toList) :
      c'.payload (.version v) = c.payload (.version v) :=
    hother _ fun heq => hdir (heq ▸ mem_map_of_mem hv)
  refine ⟨h.valid, hflat.trans h.flat, hrecords ▸ h.latest, ?_, h.hasManifest, h.intact, ?_⟩
  · rw [hversion _ (by simp)]
    exact h.active
  · intro v q hv hq
    rw [hversion v (by simp [hv])] at hq
    exact h.previous v q hv hq

theorem keeps_remove (site : Site) {dir : Dir}
    (hdir : dir ∉ (record.version :: record.previousVersion.toList).map Dir.version) :
    Keeps (fun s => Holds env s.container record p) (step site "io".toList
      (edit (·.remove dir)) fun keeps => edit (·.tear dir keeps)) faults := by
  refine .step (fun s' hs' => ?_) fun keeps s' hs' => ?_
  · exact hs'.of_other hdir rfl rfl fun other hne => by simp [edit, hne]
  · exact hs'.of_other hdir (by simp [edit]) (by simp [edit]) fun other hne => by simp [edit, hne]

/-- **Pruning** leaves the active version and its predecessor alone, however it ends. -/
theorem keeps_prunePluginHistory :
    Keeps (fun s => Holds env s.container record p) (prunePluginHistory record) faults := by
  refine .get_bind fun s _ => .bind (.forEach fun dir _ => ?_) fun _ => ?_
  · split
    · exact .pure ()
    · next hretained => exact keeps_remove _ hretained
  · refine .bind (keeps_touch _) fun _ => .get_bind fun s hs => .bind (.forEach fun x _ => ?_)
      fun _ => keeps_touch _
    split
    · exact .pure ()
    next hkeeps =>
    -- the newest record is kept
    have hne : x ≠ record := by
      rintro rfl
      refine hkeeps ?_
      rw [keepsRecord, Bool.and_eq_true]
      refine ⟨by simp, all_eq_true.mpr fun other hother => ?_⟩
      simp [(newest_spec hs.latest).2 other hother]
    refine .step (fun s' hs' => ?_) fun _ _ hs' => hs'
    exact ⟨hs'.valid, hs'.flat, newest_filter hs'.latest hne, hs'.active, hs'.hasManifest,
      hs'.intact, hs'.previous⟩

/-- The directory of a version is out of the way, and its copy is there. -/
structure Aside (c c₁ : Container) (v : Text) (replaced : Option Dir) : Prop where
  flat : c₁.flat = c.flat
  other : ∀ w, w ≠ v → c₁.payload (.version w) = c.payload (.version w)
  copied : ∀ d, replaced = some d → (∃ n, d = .replaced v n) ∧
    c₁.payload d = c.payload (.version v) ∧ (c.payload (.version v)).isSome
  free : replaced = none → c.payload (.version v) = none

variable {c c₁ c₂ : Container} {v : Text} {replaced : Option Dir}

theorem Aside.at (h : Aside c c₁ v replaced) (hflat : c₂.flat = c₁.flat)
    (hother : ∀ d, d ≠ .version v → c₂.payload d = c₁.payload d) : Aside c c₂ v replaced := by
  refine ⟨hflat.trans h.flat, fun w hw => ?_, fun d hd => ?_, h.free⟩
  · rw [hother _ (by simpa using hw), h.other w hw]
  · obtain ⟨⟨n, hn⟩, hcopy, hsome⟩ := h.copied d hd
    exact ⟨⟨n, hn⟩, by rw [hother d (by simp [hn]), hcopy], hsome⟩

theorem ensures_setAside (v : Text) :
    Ensures (setAside v) faults s fun outcome s' =>
      match outcome with
      | .done replaced => Aside s.container s'.container v replaced ∧
          s'.container.payload (.version v) = none ∧ s'.container.records = s.container.records
      | _ => s' = s := by
  rw [setAside, ensures_get_bind]
  split
  · next hsome =>
    obtain ⟨q, hq⟩ := Option.isSome_iff_exists.mp hsome
    -- whichever name is found, it is the name of a copy
    obtain ⟨n, hn⟩ : ∃ n, freshReplaced s.container v = .replaced v n := by
      rw [freshReplaced]
      rcases hfound : ((range (s.container.dirs.length + 1)).map (Dir.replaced v)).find?
        fun dir => s.container.payload dir = none with _ | d
      · exact ⟨_, rfl⟩
      · obtain ⟨n, -, rfl⟩ := mem_map.mp (mem_of_find?_eq_some hfound)
        exact ⟨n, rfl⟩
    have hmove (other : Dir) :
        (s.container.move (.version v) (freshReplaced s.container v)).payload other =
          if other = freshReplaced s.container v then some q
          else if other = .version v then none else s.container.payload other :=
      payload_move hq
    have haside : Aside s.container (s.container.move (.version v) (freshReplaced s.container v)) v
        (some (freshReplaced s.container v)) := by
      refine ⟨flat_move, fun w hw => ?_, fun d hd => ?_, nofun⟩
      · rw [hmove]
        simp [hn, hw]
      · obtain rfl := Option.some.inj hd
        exact ⟨⟨n, hn⟩, by simp [hmove, hq], hsome⟩
    rw [ensures_bind, ensures_atomic]
    refine ⟨fun _ => ensures_pure.mpr ⟨haside, ?_, records_move⟩, fun _ _ => rfl, fun _ _ => rfl⟩
    show (s.container.move (.version v) (freshReplaced s.container v)).payload _ = none
    rw [hmove]
    simp [hn]
  · next hnone =>
    have hfree : s.container.payload (.version v) = none := by simpa using hnone
    have haside : Aside s.container s.container v none :=
      ⟨rfl, fun _ _ => rfl, nofun, fun _ => hfree⟩
    exact ensures_pure.mpr ⟨haside, hfree, rfl⟩

/-- The versions are where they were. -/
structure Restored (c c' : Container) : Prop where
  flat : c'.flat = c.flat
  payload : ∀ w, c'.payload (.version w) = c.payload (.version w)

variable (h : Aside c s.container v replaced)

include h

/-- A copy comes back or the store stays as it is. -/
theorem ensures_restoreReplaced :
    Ensures (restoreReplaced v replaced) faults s fun outcome s' =>
      (s' = s ∨ Restored c s'.container ∧ s'.container.records = s.container.records) ∧
      (faults .restore = none → s.container.payload (.version v) = none →
        outcome = .done () ∧ Restored c s'.container ∧
          s'.container.records = s.container.records) ∧
      ∀ message, outcome ≠ .failed message := by
  rw [restoreReplaced, ensures_get_bind]
  rcases replaced with _ | d
  · -- nothing was set aside, so the version was not there before
    have hback (hnone : s.container.payload (.version v) = none) : Restored c s.container := by
      refine ⟨h.flat, fun w => ?_⟩
      by_cases hw : w = v
      · rw [hw, hnone, h.free rfl]
      · exact h.other w hw
    exact ⟨.inl rfl, fun _ hnone => ⟨rfl, hback hnone, rfl⟩, fun _ => nofun⟩
  · obtain ⟨⟨n, rfl⟩, hcopy, hsome⟩ := h.copied d rfl
    obtain ⟨q, hq⟩ := Option.isSome_iff_exists.mp hsome
    have hback : Restored c (s.container.move (.replaced v n) (.version v)) := by
      refine ⟨flat_move.trans h.flat, fun w => ?_⟩
      rw [payload_move (hcopy.trans hq)]
      by_cases hw : w = v
      · simp [hw, hq]
      · simp [hw, h.other w hw]
    simp only
    split
    · rw [ensures_bind, ensures_attempt, ensures_atomic]
      refine ⟨fun _ => ?_, fun _ hfault => ?_, fun _ hfault => ?_⟩
      · refine ⟨.inr ⟨hback, records_move⟩, fun _ _ => ⟨rfl, hback, ?_⟩, fun _ => by simp⟩
        exact records_move
      · exact ⟨.inl rfl, fun hnone => by simp [hnone] at hfault, fun _ => by simp⟩
      · exact ⟨.inl rfl, fun hnone => by simp [hnone] at hfault, fun _ => by simp⟩
    · -- the new version is still in its place, and the copy stays aside
      next hbusy => exact ⟨.inl rfl, fun _ hnone => absurd hnone hbusy, fun _ => by simp⟩

/-- A removal that is cut off leaves the manifest. -/
def LeavesManifest (fault : Option (Fault Bool)) : Prop :=
  fault = some (.fails (some true)) ∨ fault = some (.dies (some true))

/-- What is left of a new version that was taken back: the old version is there, or the directory is
gone, or it holds the new version, as a whole or without its manifest. -/
structure TakenBack (faults : Site → Option (Fault Bool)) (c : Container) (v : Text)
    (records : List Record) (message : Text) (outcome : Outcome Text Unit) (c' : Container) :
    Prop where
  flat : c'.flat = c.flat
  records : c'.records = records
  other : ∀ w, w ≠ v → c'.payload (.version w) = c.payload (.version w)
  sound : ¬ LeavesManifest (faults .removeNew) → ∀ q, c'.payload (.version v) = some q →
    q.manifest ≠ none → q.intact = true ∨ c.payload (.version v) = some q
  ended : outcome ≠ .done ()
  restored : faults .removeNew = none → faults .restore = none →
    outcome = .failed message ∧ Restored c c'

/-- A copy comes back, or the directory is left as it is. -/
theorem ensures_restoreReplaced_fail {message : Text}
    (hsound : ¬ LeavesManifest (faults .removeNew) → ∀ q,
      s.container.payload (.version v) = some q → q.manifest ≠ none → q.intact)
    (hgone : faults .removeNew = none → s.container.payload (.version v) = none) :
    Ensures (restoreReplaced v replaced >>= fun _ => fail message) faults s fun outcome s' =>
      TakenBack faults c v s.container.records message outcome s'.container := by
  rw [ensures_bind]
  refine (ensures_restoreReplaced h).mono fun outcome s' hs' => ?_
  obtain ⟨hor, hback, hnever⟩ := hs'
  have hleft (result : Outcome Text Unit) (hended : result ≠ .done ())
      (hfailed : outcome = .done () → result = .failed message) :
      TakenBack faults c v s.container.records message result s'.container := by
    have hrestored (hremove : faults .removeNew = none) (hrestore : faults .restore = none) :
        result = .failed message ∧ Restored c s'.container := by
      obtain ⟨hdone, hrestored, -⟩ := hback hrestore (hgone hremove)
      exact ⟨hfailed hdone, hrestored⟩
    rcases hor with rfl | ⟨hor, hrecords⟩
    · exact ⟨h.flat, rfl, h.other, fun hnot q hq hm => .inl (hsound hnot q hq hm), hended,
        hrestored⟩
    · exact ⟨hor.flat, hrecords, fun w _ => hor.payload w,
        fun _ q hq _ => .inr (hor.payload v ▸ hq), hended, hrestored⟩
  rcases outcome with _ | error | _
  · exact hleft _ nofun fun _ => rfl
  · exact absurd rfl (hnever error)
  · exact hleft _ nofun nofun

/-- **Taking a new version back** ends with an error or a death. -/
theorem ensures_takeBack {new : Payload}
    (hnew : s.container.payload (.version v) = some new) (hintact : new.intact)
    (message : Text) :
    Ensures (takeBack v replaced message) faults s fun outcome s' =>
      TakenBack faults c v s.container.records message outcome s'.container := by
  have hkeep (q : Payload) (hq : s.container.payload (.version v) = some q) : q.intact := by
    obtain rfl := Option.some.inj (hnew.symm.trans hq)
    exact hintact
  have htear (keeps : Bool) : Aside c (s.container.tear (.version v) keeps) v replaced :=
    h.at (by simp) fun d hd => by simp [hd]
  -- without its manifest the rest of the new version is not taken for a version
  have htorn (keeps : Bool) (hnot : keeps → False) (q : Payload)
      (hq : (s.container.tear (.version v) keeps).payload (.version v) = some q)
      (hm : q.manifest ≠ none) : q.intact := by
    obtain rfl : keeps = false := by simpa using hnot
    simp only [payload_tear, hnew, if_true, Option.map_some, Option.some.injEq] at hq
    simp [← hq, Payload.torn] at hm
  rw [takeBack, ensures_bind, ensures_attempt, removeNew, ensures_step]
  refine ⟨fun _ => ?_, fun torn hfault => ?_, fun torn hfault => ?_⟩
  · have hgone : (s.edit (·.remove (.version v))).container.payload (.version v) = none := by
      simp [edit]
    have haside : Aside c (s.edit (·.remove (.version v))).container v replaced :=
      h.at rfl fun d hd => by simp [edit, hd]
    exact ensures_restoreReplaced_fail haside (fun _ q hq => by simp [hgone] at hq) fun _ => hgone
  · have hsome (hnone : faults .removeNew = none) : False := by simp [hnone] at hfault
    rcases torn with _ | keeps
    · exact ensures_restoreReplaced_fail h (fun _ q hq _ => hkeep q hq) fun hnone =>
        (hsome hnone).elim
    have hrecords : (s.edit (·.tear (.version v) keeps)).container.records =
      s.container.records := records_tear keeps
    have haside : Aside c (s.edit (·.tear (.version v) keeps)).container v replaced := htear keeps
    rw [← hrecords]
    exact ensures_restoreReplaced_fail haside
      (fun hnot => htorn keeps fun htrue => hnot (.inl (htrue ▸ hfault)))
      fun hnone => (hsome hnone).elim
  · have hsome (hnone : faults .removeNew = none) : False := by simp [hnone] at hfault
    rcases torn with _ | keeps
    · exact ⟨h.flat, rfl, h.other, fun _ q hq _ => .inl (hkeep q hq), nofun,
        fun hnone => (hsome hnone).elim⟩
    · exact ⟨(htear keeps).flat, records_tear keeps, (htear keeps).other,
        fun hnot q hq hm => .inl (htorn keeps (fun htrue => hnot (.inr (htrue ▸ hfault))) q hq hm),
        nofun, fun hnone => (hsome hnone).elim⟩

omit h

end Helpers

end Dbx.Plugin
