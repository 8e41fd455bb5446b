import Mathlib.Data.Char
import Mathlib.Data.List.Lex
import Mathlib.Data.List.Sort
import Mathlib.Data.List.Dedup
import Dbx.Keyed.Table
import Dbx.Text.Basic

/-!
# The state calibrator

A baseline of schema objects is compared with two later states of them, the source and the target.
`reconcile_three_way` joins the three by a composed text key and says for each key what became of
the object; `build_rebase_plan` turns that into the objects of a new baseline, and into the
conflicts that somebody has to look at.

A change is lost where the plan neither proposes it nor lists the object as a conflict. This happens
to an object that one side changes and the other side deletes: a deletion on one side drops the
object, whatever the other side did to it.

## Main results

* `reconcileThreeWay_counts`: the counts of a reconciliation are exact
* `rebase_keeps_changes`: every object appears in exactly one reconciliation, and the plan keeps the
  changes to objects that the other side did not delete
-/

namespace Dbx.Schema.Calibrator

open Text List

/-! ## Objects -/

/-- `ObjectKind`. -/
inductive ObjectKind
  | table
  | view
  | function
  | sequence
  | rule
  | permission
  deriving DecidableEq, Repr

/-- `as_str`. -/
def ObjectKind.asStr : ObjectKind → Text
  | table => "table".toList
  | view => "view".toList
  | function => "function".toList
  | sequence => "sequence".toList
  | rule => "rule".toList
  | permission => "permission".toList

/-- `ObjectDefinition`. -/
structure ObjectDefinition where
  kind : ObjectKind
  name : Text
  schema : Option Text
  definition : Text
  deriving DecidableEq, Repr

namespace ObjectDefinition

/-- `key`. -/
def key (object : ObjectDefinition) : Text :=
  match object.schema with
  | some schema => object.kind.asStr ++ '.' :: schema ++ '.' :: object.name
  | none => object.kind.asStr ++ '.' :: object.name

def triple (object : ObjectDefinition) : ObjectKind × Option Text × Text :=
  (object.kind, object.schema, object.name)

end ObjectDefinition

/-- `replace("\r\n", "\n")`. -/
def replaceCrlf : Text → Text
  | '\r' :: '\n' :: rest => '\n' :: replaceCrlf rest
  | c :: rest => c :: replaceCrlf rest
  | [] => []

/-- `normalize_definition`: the words of every line, with one blank between two of them. -/
def normalizeDefinition (definition : Text) : Text :=
  ['\n'].intercalate <| (splitOn (· = '\n') (replaceCrlf definition)).map fun line =>
    [' '].intercalate (splitWhitespace line)

/-- The map that `collect` makes of the objects under their keys: the last object of a key stays. -/
def byKey (objects : List ObjectDefinition) (key : Text) : Option ObjectDefinition :=
  objects.reverse.find? fun object => object.key = key

/-! ## Reconciliation -/

/-- `ObjectReconciliationStatus`. -/
inductive ObjectReconciliationStatus
  | synced
  | sourceDrifted
  | targetDrifted
  | bothDriftedIdentical
  | bothDriftedConflict
  | deletedInSource
  | deletedInTarget
  | newInSource
  | newInTarget
  | newInBoth
  | baselineOnly
  deriving DecidableEq, Repr

/-- `ObjectReconciliation`, with the drift score in hundredths. -/
structure ObjectReconciliation where
  objectKey : Text
  kind : ObjectKind
  name : Text
  status : ObjectReconciliationStatus
  baselineFingerprint : Option Text
  sourceFingerprint : Option Text
  targetFingerprint : Option Text
  sourceDefinition : Option Text
  targetDefinition : Option Text
  driftScore : Nat
  deriving DecidableEq, Repr

/-- `ReconciliationResult`. -/
structure ReconciliationResult where
  totalObjects : Nat
  syncedCount : Nat
  driftedCount : Nat
  conflictCount : Nat
  objectReconciliations : List ObjectReconciliation
  deriving DecidableEq, Repr

/-- `DRIFT_NONE`. -/
def driftNone : Nat := 0
/-- `DRIFT_SINGLE_SIDE`. -/
def driftSingleSide : Nat := 33
/-- `DRIFT_IDENTICAL_CHANGE`. -/
def driftIdenticalChange : Nat := 50
/-- `DRIFT_DELETED`. -/
def driftDeleted : Nat := 66
/-- `DRIFT_STALE_BASELINE`. -/
def driftStaleBaseline : Nat := 80
/-- `DRIFT_CONFLICT`. -/
def driftConflict : Nat := 100

/-- `classify_reconciliation`, from the fingerprints in the baseline, the source and the target. -/
def classifyReconciliation :
    Option Text → Option Text → Option Text → ObjectReconciliationStatus × Nat
  | some b, some s, some t =>
    if b = s ∧ s = t then (.synced, driftNone)
    else if b = s ∧ s ≠ t then (.targetDrifted, driftSingleSide)
    else if b = t ∧ s ≠ t then (.sourceDrifted, driftSingleSide)
    else if s = t ∧ b ≠ s then (.bothDriftedIdentical, driftIdenticalChange)
    else (.bothDriftedConflict, driftConflict)
  | some _, none, some _ => (.deletedInSource, driftDeleted)
  | some _, some _, none => (.deletedInTarget, driftDeleted)
  | some _, none, none => (.baselineOnly, driftStaleBaseline)
  | none, some s, some t =>
    if s = t then (.newInBoth, driftNone) else (.bothDriftedConflict, driftConflict)
  | none, some _, none => (.newInSource, driftNone)
  | none, none, some _ => (.newInTarget, driftNone)
  | none, none, none => (.synced, driftNone)

/-- One more reconciliation, counted by its status. -/
def ReconciliationResult.push (result : ReconciliationResult) (rec : ObjectReconciliation) :
    ReconciliationResult :=
  let pushed := { result with objectReconciliations := result.objectReconciliations ++ [rec] }
  match rec.status with
  | .synced | .newInBoth => { pushed with syncedCount := result.syncedCount + 1 }
  | .bothDriftedConflict =>
    { pushed with
      driftedCount := result.driftedCount + 1
      conflictCount := result.conflictCount + 1 }
  | _ => { pushed with driftedCount := result.driftedCount + 1 }

open ObjectDefinition

/-- The keys of the three maps, each once and in their order. -/
def allKeys (baseline source target : List ObjectDefinition) : List Text :=
  ((baseline ++ source ++ target).map ObjectDefinition.key).dedup.insertionSort (· ≤ ·)

section Digest

variable (digest : Text → Text)

/-- `object_fingerprint`, with the hexadecimal SHA-256 as `digest`. -/
def objectFingerprint (definition : Text) : Text := digest (normalizeDefinition definition)

/-- What became of the objects that the baseline, the source and the target hold under a key. -/
def reconcileObject (key : Text) (b s t : Option ObjectDefinition) : ObjectReconciliation :=
  let fingerprint (object : Option ObjectDefinition) : Option Text :=
    object.map fun o => objectFingerprint digest o.definition
  let classified := classifyReconciliation (fingerprint b) (fingerprint s) (fingerprint t)
  let known := (b.or s).or t
  { objectKey := key
    kind := (known.map kind).getD .table
    name := (known.map name).getD []
    status := classified.1
    baselineFingerprint := fingerprint b
    sourceFingerprint := fingerprint s
    targetFingerprint := fingerprint t
    sourceDefinition := s.map definition
    targetDefinition := t.map definition
    driftScore := classified.2 }

/-- `reconcile_three_way`. -/
def reconcileThreeWay (baseline source target : List ObjectDefinition) : ReconciliationResult :=
  let keys := allKeys baseline source target
  keys.foldl
    (fun result key =>
      result.push <|
        reconcileObject digest key (byKey baseline key) (byKey source key) (byKey target key))
    { totalObjects := keys.length
      syncedCount := 0
      driftedCount := 0
      conflictCount := 0
      objectReconciliations := [] }

/-! ## The plan -/

/-- `RebaseResolution`. -/
inductive RebaseResolution
  | acceptSource
  | acceptTarget
  | acceptBaseline
  | manualReview
  deriving DecidableEq, Repr

/-- `ConflictItem`. -/
structure ConflictItem where
  objectKey : Text
  resolution : RebaseResolution
  baselineFingerprint : Option Text
  sourceFingerprint : Option Text
  targetFingerprint : Option Text
  deriving DecidableEq, Repr

/-- `RebasePlan`. -/
structure RebasePlan where
  conflicts : List ConflictItem
  proposedObjects : List ObjectDefinition
  requiresManualReview : Bool
  deriving DecidableEq, Repr

namespace RebasePlan

/-- The object that was found, if any, is proposed. -/
def propose (plan : RebasePlan) (object : Option ObjectDefinition) : RebasePlan :=
  { plan with proposedObjects := plan.proposedObjects ++ object.toList }

/-- The object is listed as a conflict. -/
def conflict (plan : RebasePlan) (rec : ObjectReconciliation) (resolution : RebaseResolution) :
    RebasePlan :=
  { plan with
    conflicts := plan.conflicts ++
      [{ objectKey := rec.objectKey
         resolution := resolution
         baselineFingerprint := rec.baselineFingerprint
         sourceFingerprint := rec.sourceFingerprint
         targetFingerprint := rec.targetFingerprint }] }

/-- The object is listed as a conflict that nobody but a user resolves. -/
def review (plan : RebasePlan) (rec : ObjectReconciliation) : RebasePlan :=
  { plan.conflict rec .manualReview with requiresManualReview := true }

/-- What a reconciliation adds to the plan. -/
def visit (autoResolve : Bool) (source target : List ObjectDefinition) (plan : RebasePlan)
    (rec : ObjectReconciliation) : RebasePlan :=
  let inSource := byKey source rec.objectKey
  let inTarget := byKey target rec.objectKey
  match rec.status with
  | .synced | .bothDriftedIdentical => plan.propose (inSource.or inTarget)
  | .targetDrifted =>
    if autoResolve then (plan.propose inTarget).conflict rec .acceptTarget else plan.review rec
  | .sourceDrifted =>
    if autoResolve then (plan.propose inSource).conflict rec .acceptSource else plan.review rec
  | .bothDriftedConflict => plan.review rec
  | .newInBoth | .newInSource => plan.propose inSource
  | .newInTarget => plan.propose inTarget
  -- deleted on one side at least
  | .deletedInSource | .deletedInTarget => plan
  | .baselineOnly => plan

end RebasePlan

/-- `build_rebase_plan`. -/
def buildRebasePlan (baseline source target : List ObjectDefinition) (autoResolve : Bool) :
    RebasePlan :=
  (reconcileThreeWay digest baseline source target).objectReconciliations.foldl
    (RebasePlan.visit autoResolve source target)
    { conflicts := [], proposedObjects := [], requiresManualReview := false }

end Digest

/-! ## What is not to be lost -/

/-- The object differs from the one of the baseline, or the baseline has none. -/
def ObjectDefinition.IsChanged (baseline : List ObjectDefinition) (object : ObjectDefinition) :
    Prop :=
  ∀ b ∈ baseline, b.triple = object.triple →
    normalizeDefinition b.definition ≠ normalizeDefinition object.definition

/-- The object is in the baseline, and the other side no longer has it. -/
def ObjectDefinition.IsDeleted (baseline other : List ObjectDefinition)
    (object : ObjectDefinition) : Prop :=
  (∃ b ∈ baseline, b.triple = object.triple) ∧ ∀ o ∈ other, o.triple ≠ object.triple

/-- The plan proposes the object with its definition, or lists the object as a conflict. -/
def RebasePlan.Keeps (plan : RebasePlan) (object : ObjectDefinition) : Prop :=
  (∃ proposed ∈ plan.proposedObjects, proposed.triple = object.triple ∧
    normalizeDefinition proposed.definition = normalizeDefinition object.definition) ∨
  ∃ item ∈ plan.conflicts, item.objectKey = object.key

instance (baseline : List ObjectDefinition) (object : ObjectDefinition) :
    Decidable (object.IsChanged baseline) :=
  inferInstanceAs (Decidable (∀ b ∈ baseline, _ → _))

instance (baseline other : List ObjectDefinition) (object : ObjectDefinition) :
    Decidable (object.IsDeleted baseline other) :=
  inferInstanceAs (Decidable (_ ∧ _))

instance (plan : RebasePlan) (object : ObjectDefinition) : Decidable (plan.Keeps object) :=
  inferInstanceAs (Decidable (_ ∨ _))

/-- The objects of the three sets are told apart by their keys. -/
structure KeysApart (baseline source target : List ObjectDefinition) : Prop where
  baseline_nodup : (baseline.map ObjectDefinition.triple).Nodup
  source_nodup : (source.map ObjectDefinition.triple).Nodup
  target_nodup : (target.map ObjectDefinition.triple).Nodup
  triple_eq : ∀ o ∈ baseline ++ source ++ target, ∀ p ∈ baseline ++ source ++ target,
    o.key = p.key → o.triple = p.triple

/-- The digest tells the normalized definitions of the objects apart. -/
def DigestApart (digest : Text → Text) (objects : List ObjectDefinition) : Prop :=
  ∀ o ∈ objects, ∀ p ∈ objects,
    objectFingerprint digest o.definition = objectFingerprint digest p.definition →
      normalizeDefinition o.definition = normalizeDefinition p.definition

/-! ## The objects under a key -/

variable {objects : List ObjectDefinition} {key : Text}

variable {o : ObjectDefinition}

/-- **What a key finds**, among objects of which no two have the same key. -/
theorem byKey_eq_some_iff (h : (objects.map ObjectDefinition.key).Nodup) :
    byKey objects key = some o ↔ o ∈ objects ∧ o.key = key := by
  have hrows : (objects.reverse.map ObjectDefinition.key).Nodup := by
    rw [map_reverse]
    exact nodup_reverse.mpr h
  let table : Keyed.Table ObjectDefinition.key := ⟨objects.reverse, hrows⟩
  rw [← mem_reverse]
  exact table.find_eq_some_iff

theorem byKey_eq_none_iff : byKey objects key = none ↔ ∀ o ∈ objects, o.key ≠ key := by
  simp [byKey, find?_eq_none]

theorem nodup_keys {objects all : List ObjectDefinition} (hsub : objects ⊆ all)
    (hkeys : ∀ o ∈ all, ∀ p ∈ all, o.key = p.key → o.triple = p.triple)
    (h : (objects.map ObjectDefinition.triple).Nodup) :
    (objects.map ObjectDefinition.key).Nodup := by
  rw [nodup_iff_pairwise_ne, pairwise_map] at h ⊢
  refine h.imp_of_mem fun ho hp hne hkey => ?_
  exact hne (hkeys _ (hsub ho) _ (hsub hp) hkey)

theorem key_eq_of_triple_eq {o p : ObjectDefinition} (h : o.triple = p.triple) : o.key = p.key := by
  obtain ⟨hkind, hschema, hname⟩ : o.kind = p.kind ∧ o.schema = p.schema ∧ o.name = p.name := by
    simpa [ObjectDefinition.triple] using h
  simp only [ObjectDefinition.key, hkind, hschema, hname]

theorem mem_allKeys {baseline source target : List ObjectDefinition} :
    key ∈ allKeys baseline source target ↔ ∃ o ∈ baseline ++ source ++ target, o.key = key := by
  rw [allKeys, mem_insertionSort, mem_dedup, mem_map]

theorem nodup_allKeys (baseline source target : List ObjectDefinition) :
    (allKeys baseline source target).Nodup :=
  (perm_insertionSort _ _).nodup_iff.mpr (nodup_dedup _)

/-! ## The reconciliations of a run -/

variable (result : ReconciliationResult)

@[simp]
theorem objectReconciliations_push (rec : ObjectReconciliation) :
    (result.push rec).objectReconciliations = result.objectReconciliations ++ [rec] := by
  simp only [ReconciliationResult.push]
  split <;> rfl

@[simp]
theorem totalObjects_push (rec : ObjectReconciliation) :
    (result.push rec).totalObjects = result.totalObjects := by
  simp only [ReconciliationResult.push]
  split <;> rfl

theorem objectReconciliations_foldl_push {α : Type} (f : α → ObjectReconciliation) (keys : List α)
    (result : ReconciliationResult) :
    (keys.foldl (fun result key => result.push (f key)) result).objectReconciliations =
      result.objectReconciliations ++ keys.map f := by
  induction keys generalizing result with
  | nil => simp
  | cons key keys ih =>
    rw [foldl_cons, ih, objectReconciliations_push, append_assoc]
    rfl

variable {digest : Text → Text} {baseline source target : List ObjectDefinition}

theorem objectReconciliations_reconcileThreeWay :
    (reconcileThreeWay digest baseline source target).objectReconciliations =
      (allKeys baseline source target).map fun key =>
        reconcileObject digest key (byKey baseline key) (byKey source key) (byKey target key) := by
  rw [reconcileThreeWay, objectReconciliations_foldl_push]
  rfl

/-- The status is counted as synced. -/
def ObjectReconciliationStatus.isSynced (status : ObjectReconciliationStatus) : Bool :=
  status = .synced || status = .newInBoth

/-- The counts agree with the reconciliations that were pushed. -/
structure Counted : Prop where
  synced : result.syncedCount = result.objectReconciliations.countP (·.status.isSynced)
  drifted : result.driftedCount = result.objectReconciliations.countP (!·.status.isSynced)
  conflicts : result.conflictCount =
    result.objectReconciliations.countP (·.status = .bothDriftedConflict)

theorem Counted.push {result : ReconciliationResult} (h : Counted result)
    (rec : ObjectReconciliation) : Counted (result.push rec) := by
  obtain ⟨hsynced, hdrifted, hconflicts⟩ := h
  constructor
  all_goals
    rw [objectReconciliations_push, countP_append, countP_singleton]
    simp only [ReconciliationResult.push]
    split <;> simp_all [ObjectReconciliationStatus.isSynced]

section Counts

variable (digest)

def fingerprintOf (object : Option ObjectDefinition) : Option Text :=
  object.map fun o => objectFingerprint digest o.definition

/-- Source and target have the object alike, and the baseline too if it has the object. -/
def InSync (b s t : Option ObjectDefinition) : Prop :=
  s.isSome ∧ fingerprintOf digest s = fingerprintOf digest t ∧
    (b.isSome → fingerprintOf digest b = fingerprintOf digest s)

/-- Source and target have the object with two definitions, and the baseline has neither. -/
def InConflict (b s t : Option ObjectDefinition) : Prop :=
  s.isSome ∧ t.isSome ∧ fingerprintOf digest s ≠ fingerprintOf digest t ∧
    fingerprintOf digest b ≠ fingerprintOf digest s ∧
    fingerprintOf digest b ≠ fingerprintOf digest t

instance (b s t : Option ObjectDefinition) : Decidable (InSync digest b s t) :=
  inferInstanceAs (Decidable (_ ∧ _))

instance (b s t : Option ObjectDefinition) : Decidable (InConflict digest b s t) :=
  inferInstanceAs (Decidable (_ ∧ _))

variable {digest} {b s t : Option ObjectDefinition}

/-- The classification, for a key that one of the three has. -/
theorem isSynced_reconcileObject (hknown : (b.or s).or t ≠ none) :
    (reconcileObject digest key b s t).status.isSynced ↔ InSync digest b s t := by
  rcases b with _ | b <;> rcases s with _ | s <;> rcases t with _ | t <;>
    simp_all [reconcileObject, classifyReconciliation, InSync, fingerprintOf,
      ObjectReconciliationStatus.isSynced] <;> grind

theorem status_reconcileObject_eq_conflict :
    (reconcileObject digest key b s t).status = .bothDriftedConflict ↔
      InConflict digest b s t := by
  rcases b with _ | b <;> rcases s with _ | s <;> rcases t with _ | t <;>
    simp [reconcileObject, classifyReconciliation, InConflict, fingerprintOf] <;> grind

end Counts

theorem filter_objectKey_eq (h : key ∈ allKeys baseline source target) :
    ((reconcileThreeWay digest baseline source target).objectReconciliations.filter
        fun rec => rec.objectKey = key) =
      [reconcileObject digest key (byKey baseline key) (byKey source key) (byKey target key)] := by
  rw [objectReconciliations_reconcileThreeWay, filter_map]
  have hfilter : (allKeys baseline source target).filter (fun k => decide (k = key)) = [key] := by
    rw [filter_eq, count_eq_one_of_mem (nodup_allKeys _ _ _) h, replicate_one]
  change ((allKeys baseline source target).filter (fun k => decide (k = key))).map _ = _
  rw [hfilter, map_singleton]

/-! ## The plan only grows -/

namespace RebasePlan

/-- The later plan has the proposals and the conflicts of the earlier one. -/
structure Within (plan later : RebasePlan) : Prop where
  proposed : plan.proposedObjects ⊆ later.proposedObjects
  conflicts : plan.conflicts ⊆ later.conflicts

theorem Within.refl (plan : RebasePlan) : plan.Within plan :=
  ⟨.refl _, .refl _⟩

theorem Within.trans {p q r : RebasePlan} (h : p.Within q) (h' : q.Within r) : p.Within r :=
  ⟨List.Subset.trans h.proposed h'.proposed, List.Subset.trans h.conflicts h'.conflicts⟩

theorem within_propose (plan : RebasePlan) (object : Option ObjectDefinition) :
    plan.Within (plan.propose object) :=
  ⟨subset_append_left _ _, .refl _⟩

theorem within_conflict (plan : RebasePlan) (rec : ObjectReconciliation)
    (resolution : RebaseResolution) : plan.Within (plan.conflict rec resolution) :=
  ⟨.refl _, subset_append_left _ _⟩

theorem within_review (plan : RebasePlan) (rec : ObjectReconciliation) :
    plan.Within (plan.review rec) :=
  ⟨.refl _, subset_append_left _ _⟩

theorem within_visit (autoResolve : Bool) (plan : RebasePlan) (rec : ObjectReconciliation) :
    plan.Within (plan.visit autoResolve source target rec) := by
  simp only [visit]
  cases rec.status with
  | synced | bothDriftedIdentical | newInBoth | newInSource | newInTarget =>
    exact within_propose _ _
  | targetDrifted | sourceDrifted =>
    cases autoResolve with
    | true => exact (within_propose _ _).trans (within_conflict _ _ _)
    | false => exact within_review _ _
  | bothDriftedConflict => exact within_review _ _
  | deletedInSource | deletedInTarget | baselineOnly => exact Within.refl _

variable {rec : ObjectReconciliation}

/-- What a reconciliation adds to a plan is in the plan at the end. -/
theorem exists_visit_within (autoResolve : Bool) {recs : List ObjectReconciliation}
    (h : rec ∈ recs) (plan : RebasePlan) :
    ∃ before, (visit autoResolve source target before rec).Within
      (recs.foldl (visit autoResolve source target) plan) := by
  have hgrows (plan : RebasePlan) (recs : List ObjectReconciliation) :
      plan.Within (recs.foldl (visit autoResolve source target) plan) :=
    foldlRecOn _ _ (Within.refl plan) fun later hlater rec _ =>
      hlater.trans (within_visit autoResolve later rec)
  obtain ⟨recs₁, recs₂, rfl⟩ := append_of_mem h
  refine ⟨recs₁.foldl (visit autoResolve source target) plan, ?_⟩
  rw [foldl_append]
  exact hgrows _ _

variable {plan : RebasePlan}

theorem Keeps.of_within {plan later : RebasePlan} (h : plan.Keeps o)
    (hwithin : plan.Within later) : later.Keeps o := by
  rcases h with ⟨proposed, hmem, hsame⟩ | ⟨item, hmem, hkey⟩
  · exact .inl ⟨proposed, hwithin.proposed hmem, hsame⟩
  · exact .inr ⟨item, hwithin.conflicts hmem, hkey⟩

theorem keeps_propose {o p : ObjectDefinition} (htriple : p.triple = o.triple)
    (hdefinition : normalizeDefinition p.definition = normalizeDefinition o.definition) :
    (plan.propose (some p)).Keeps o :=
  .inl ⟨p, by simp [propose], htriple, hdefinition⟩

theorem keeps_conflict (h : rec.objectKey = o.key) (resolution : RebaseResolution) :
    (plan.conflict rec resolution).Keeps o :=
  .inr ⟨_, mem_append_right _ (mem_singleton_self _), h⟩

theorem keeps_review (h : rec.objectKey = o.key) : (plan.review rec).Keeps o :=
  .inr ⟨_, mem_append_right _ (mem_singleton_self _), h⟩

end RebasePlan

/-! ## No change is lost -/

/-- What differs from the baseline on one side at least is the same change on both or a drift. -/
theorem classify_of_ne {b : Option Text} {s t : Text}
    (h : ∀ old, b = some old → old ≠ s ∨ old ≠ t) :
    let status := (classifyReconciliation b (some s) (some t)).1
    s = t ∧ (status = .bothDriftedIdentical ∨ status = .newInBoth) ∨
      status = .targetDrifted ∨ status = .sourceDrifted ∨ status = .bothDriftedConflict := by
  rcases b with _ | old
  · by_cases hst : s = t <;> simp [classifyReconciliation, hst]
  · have hne := h old rfl
    by_cases hst : s = t
    · have hold : old ≠ t := by simpa [hst] using hne
      simp [classifyReconciliation, hst, hold]
    · by_cases hs : old = s
      · simp [classifyReconciliation, hs, hst]
      · by_cases ht : old = t <;> simp [classifyReconciliation, hs, hst, ht, Ne.symm hst]

section Visit

variable {autoResolve : Bool} {plan : RebasePlan} {o p : ObjectDefinition}
  {rec : ObjectReconciliation}

variable (hkey : rec.objectKey = o.key)

include hkey

/-- A drift that is not the same on both sides is listed as a conflict. -/
theorem keeps_visit_of_drifted (h : rec.status = .targetDrifted ∨ rec.status = .sourceDrifted ∨
      rec.status = .bothDriftedConflict) :
    (plan.visit autoResolve source target rec).Keeps o := by
  rcases h with h | h | h <;> simp only [RebasePlan.visit, h]
  · cases autoResolve with
    | true => exact RebasePlan.keeps_conflict hkey _
    | false => exact RebasePlan.keeps_review hkey
  · cases autoResolve with
    | true => exact RebasePlan.keeps_conflict hkey _
    | false => exact RebasePlan.keeps_review hkey
  · exact RebasePlan.keeps_review hkey

theorem keeps_visit_of_source (hp : byKey source o.key = some p) (htriple : p.triple = o.triple)
    (hdefinition : normalizeDefinition p.definition = normalizeDefinition o.definition)
    (h : rec.status = .bothDriftedIdentical ∨ rec.status = .newInBoth ∨ rec.status = .newInSource) :
    (plan.visit autoResolve source target rec).Keeps o := by
  rcases h with h | h | h <;> simp only [RebasePlan.visit, h, hkey, hp, Option.some_or]
  all_goals exact RebasePlan.keeps_propose htriple hdefinition

theorem keeps_visit_of_newInTarget
    (ho : byKey target o.key = some o) (h : rec.status = .newInTarget) :
    (plan.visit autoResolve source target rec).Keeps o := by
  simp only [RebasePlan.visit, h, hkey, ho]
  exact RebasePlan.keeps_propose rfl rfl

omit hkey

/-- **The plan keeps a change** of an object that both sides have. Where both made the same change,
the source's text of it is proposed. -/
theorem keeps_visit_of_both {b : Option ObjectDefinition} {s t : ObjectDefinition}
    (hs : byKey source o.key = some s)
    (hsame : objectFingerprint digest s.definition = objectFingerprint digest t.definition →
      s.triple = o.triple ∧ normalizeDefinition s.definition = normalizeDefinition o.definition)
    (hchanged : ∀ p, b = some p →
      objectFingerprint digest p.definition ≠ objectFingerprint digest s.definition ∨
        objectFingerprint digest p.definition ≠ objectFingerprint digest t.definition) :
    (plan.visit autoResolve source target
      (reconcileObject digest o.key b (some s) (some t))).Keeps o := by
  have hne (old : Text) (hold : b.map (fun p => objectFingerprint digest p.definition) = some old) :
      old ≠ objectFingerprint digest s.definition ∨
        old ≠ objectFingerprint digest t.definition := by
    obtain ⟨p, hp, rfl⟩ := Option.map_eq_some_iff.mp hold
    exact hchanged p hp
  rcases classify_of_ne hne with ⟨heq, hstatus⟩ | hstatus
  · obtain ⟨htriple, hdefinition⟩ := hsame heq
    exact keeps_visit_of_source rfl hs htriple hdefinition (hstatus.imp_right .inl)
  · exact keeps_visit_of_drifted rfl hstatus

end Visit

section Apart

variable (hapart : KeysApart baseline source target)
include hapart

theorem KeysApart.byKey_baseline :
    byKey baseline key = some o ↔ o ∈ baseline ∧ o.key = key := by
  refine byKey_eq_some_iff (nodup_keys (fun p hp => ?_) hapart.triple_eq hapart.baseline_nodup)
  simp [hp]

theorem KeysApart.byKey_source :
    byKey source key = some o ↔ o ∈ source ∧ o.key = key := by
  refine byKey_eq_some_iff (nodup_keys (fun p hp => ?_) hapart.triple_eq hapart.source_nodup)
  simp [hp]

theorem KeysApart.byKey_target :
    byKey target key = some o ↔ o ∈ target ∧ o.key = key := by
  refine byKey_eq_some_iff (nodup_keys (fun p hp => ?_) hapart.triple_eq hapart.target_nodup)
  simp [hp]

variable {o : ObjectDefinition} (ho : o ∈ baseline ++ source ++ target)
include ho

omit hapart in
theorem reconcileObject_mem (digest : Text → Text) :
    reconcileObject digest o.key (byKey baseline o.key) (byKey source o.key) (byKey target o.key) ∈
      (reconcileThreeWay digest baseline source target).objectReconciliations := by
  rw [objectReconciliations_reconcileThreeWay]
  exact mem_map.mpr ⟨o.key, mem_allKeys.mpr ⟨o, ho, rfl⟩, rfl⟩

theorem KeysApart.fingerprint_ne (hdigest : DigestApart digest (baseline ++ source ++ target))
    (hchanged : o.IsChanged baseline) {p : ObjectDefinition}
    (hp : byKey baseline o.key = some p) :
    objectFingerprint digest p.definition ≠ objectFingerprint digest o.definition := by
  obtain ⟨hmem, hkey⟩ := hapart.byKey_baseline.mp hp
  have hall : p ∈ baseline ++ source ++ target := by simp [hmem]
  intro hfingerprint
  exact hchanged p hmem (hapart.triple_eq p hall o ho hkey) (hdigest p hall o ho hfingerprint)

variable {other : List ObjectDefinition}

/-- A side that did not delete an object of the baseline has something under its key. -/
theorem KeysApart.isSome_of_not_deleted
    (hdeleted : ¬ o.IsDeleted baseline other) (h : (byKey baseline o.key).isSome) :
    (byKey other o.key).isSome := by
  obtain ⟨p, hp⟩ := Option.isSome_iff_exists.mp h
  obtain ⟨hmem, hkey⟩ := hapart.byKey_baseline.mp hp
  have hall : p ∈ baseline ++ source ++ target := by simp [hmem]
  by_contra hnone
  rw [Option.not_isSome_iff_eq_none, byKey_eq_none_iff] at hnone
  refine hdeleted ⟨⟨p, hmem, hapart.triple_eq p hall o ho hkey⟩, fun q hq htriple => ?_⟩
  exact hnone q hq (key_eq_of_triple_eq htriple)

/-- What is known under the key of an object has its triple. -/
theorem KeysApart.exists_known :
    ∃ p, ((byKey baseline o.key).or (byKey source o.key)).or (byKey target o.key) = some p ∧
      p.triple = o.triple := by
  rcases hknown : ((byKey baseline o.key).or (byKey source o.key)).or (byKey target o.key)
    with _ | p
  · simp only [Option.or_eq_none_iff, byKey_eq_none_iff] at hknown
    obtain ⟨⟨hb, hs⟩, ht⟩ := hknown
    simp only [mem_append] at ho
    rcases ho with (ho | ho) | ho
    · cases hb o ho rfl
    · cases hs o ho rfl
    · cases ht o ho rfl
  · have hp : p ∈ baseline ++ source ++ target ∧ p.key = o.key := by
      simp only [Option.or_eq_some_iff, hapart.byKey_baseline, hapart.byKey_source,
        hapart.byKey_target] at hknown
      simp only [mem_append]
      tauto
    exact ⟨p, rfl, hapart.triple_eq p hp.1 o ho hp.2⟩

/-- The plan keeps the changes of a side to objects that the other side did not delete. -/
theorem KeysApart.keeps (hdigest : DigestApart digest (baseline ++ source ++ target))
    (autoResolve : Bool) (hchanged : o.IsChanged baseline)
    (hdeleted : ¬ o.IsDeleted baseline other)
    (hside : o ∈ source ∧ other = target ∨ o ∈ target ∧ other = source) :
    (buildRebasePlan digest baseline source target autoResolve).Keeps o := by
  obtain ⟨before, hwithin⟩ := RebasePlan.exists_visit_within autoResolve
    (reconcileObject_mem ho digest)
    { conflicts := [], proposedObjects := [], requiresManualReview := false }
  -- what the visit of the key proposes is not taken back by the later ones
  refine RebasePlan.Keeps.of_within ?_ hwithin
  have hkept := hapart.isSome_of_not_deleted ho hdeleted
  have hne {p : ObjectDefinition} (hp : byKey baseline o.key = some p) :=
    hapart.fingerprint_ne ho hdigest hchanged hp
  rcases hside with ⟨hs, rfl⟩ | ⟨ht, rfl⟩
  · have hfound : byKey source o.key = some o := hapart.byKey_source.mpr ⟨hs, rfl⟩
    rw [hfound]
    rcases ht : byKey other o.key with _ | q
    · have hnew : byKey baseline o.key = none := by simpa [ht] using hkept
      rw [hnew]
      exact keeps_visit_of_source rfl hfound rfl rfl (.inr (.inr rfl))
    · exact keeps_visit_of_both hfound (fun _ => ⟨rfl, rfl⟩) fun p hp => .inl (hne hp)
  · have hfound : byKey target o.key = some o := hapart.byKey_target.mpr ⟨ht, rfl⟩
    rw [hfound]
    rcases hs : byKey other o.key with _ | p
    · have hnew : byKey baseline o.key = none := by simpa [hs] using hkept
      rw [hnew]
      exact keeps_visit_of_newInTarget rfl hfound rfl
    · obtain ⟨hmem, hkey⟩ := hapart.byKey_source.mp hs
      have hall : p ∈ baseline ++ other ++ target := by simp [hmem]
      exact keeps_visit_of_both hs
        (fun heq => ⟨hapart.triple_eq p hall o ho hkey, hdigest p hall o ho heq⟩)
        fun p hp => .inr (hne hp)

end Apart

/-- **A rebase keeps the changes.** Where no two objects with different triples compose the same
key, every object of the three sets appears in exactly one reconciliation; and where one side
changed an object of the baseline that the other side did not delete, or created an object, the plan
proposes the new definition or lists the object as a conflict. -/
theorem rebase_keeps_changes (digest : Text → Text)
    (baseline source target : List ObjectDefinition) (autoResolve : Bool)
    (hapart : KeysApart baseline source target)
    (hdigest : DigestApart digest (baseline ++ source ++ target)) :
    (∀ o ∈ baseline ++ source ++ target, ∃ rec,
      ((reconcileThreeWay digest baseline source target).objectReconciliations.filter
        fun rec => rec.objectKey = o.key) = [rec] ∧
      rec.kind = o.kind ∧ rec.name = o.name ∧
      (o ∈ baseline → rec.baselineFingerprint = some (objectFingerprint digest o.definition)) ∧
      (o ∈ source → rec.sourceDefinition = some o.definition) ∧
      (o ∈ target → rec.targetDefinition = some o.definition)) ∧
    (∀ o ∈ source, o.IsChanged baseline → ¬ o.IsDeleted baseline target →
      (buildRebasePlan digest baseline source target autoResolve).Keeps o) ∧
    (∀ o ∈ target, o.IsChanged baseline → ¬ o.IsDeleted baseline source →
      (buildRebasePlan digest baseline source target autoResolve).Keeps o) := by
  refine ⟨fun o ho => ?_, fun o ho hchanged hdeleted => ?_, fun o ho hchanged hdeleted => ?_⟩
  · -- the one reconciliation under the key is about the object
    obtain ⟨p, hp, htriple⟩ := hapart.exists_known ho
    obtain ⟨hkind, -, hname⟩ : p.kind = o.kind ∧ p.schema = o.schema ∧ p.name = o.name := by
      simpa [ObjectDefinition.triple] using htriple
    refine ⟨_, filter_objectKey_eq (mem_allKeys.mpr ⟨o, ho, rfl⟩), ?_, ?_, fun h => ?_,
      fun h => ?_, fun h => ?_⟩
    · simp [reconcileObject, hp, hkind]
    · simp [reconcileObject, hp, hname]
    · simp [reconcileObject, hapart.byKey_baseline.mpr ⟨h, rfl⟩]
    · simp [reconcileObject, hapart.byKey_source.mpr ⟨h, rfl⟩]
    · simp [reconcileObject, hapart.byKey_target.mpr ⟨h, rfl⟩]
  · exact hapart.keeps (by simp [ho]) hdigest autoResolve hchanged hdeleted (.inl ⟨ho, rfl⟩)
  · exact hapart.keeps (by simp [ho]) hdigest autoResolve hchanged hdeleted (.inr ⟨ho, rfl⟩)

/-- A table `t` without a schema. -/
def tableT (definition : String) : ObjectDefinition :=
  { kind := .table, name := ['t'], schema := none, definition := definition.toList }

/-- Both sides change the table of the baseline, each in its own way. -/
theorem rebase_keeps_changes_twoDrifts :
    (buildRebasePlan id [tableT "id INT"] [tableT "id BIGINT"] [tableT "id TEXT"] true).Keeps
        (tableT "id BIGINT") ∧
      (buildRebasePlan id [tableT "id INT"] [tableT "id BIGINT"] [tableT "id TEXT"] true).Keeps
        (tableT "id TEXT") := by
  have hapart : KeysApart [tableT "id INT"] [tableT "id BIGINT"] [tableT "id TEXT"] :=
    { baseline_nodup := nodup_singleton _
      source_nodup := nodup_singleton _
      target_nodup := nodup_singleton _
      triple_eq := by decide +kernel }
  have hkeeps := rebase_keeps_changes id _ _ _ true hapart fun _ _ _ _ h => h
  refine ⟨hkeeps.2.1 _ (mem_singleton_self _) ?_ ?_, hkeeps.2.2 _ (mem_singleton_self _) ?_ ?_⟩
  all_goals decide +kernel

/-- The source changes the table, the target deletes it: the plan neither proposes the change nor
lists a conflict. -/
theorem not_keeps_changedAndDeleted : (tableT "id BIGINT").IsChanged [tableT "id INT"] ∧
      ¬ (buildRebasePlan id [tableT "id INT"] [tableT "id BIGINT"] [] true).Keeps
        (tableT "id BIGINT") := by
  decide +kernel

end Dbx.Schema.Calibrator
