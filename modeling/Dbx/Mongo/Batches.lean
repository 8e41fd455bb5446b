import Dbx.Mongo.Archive

/-!
# Batches

The documents that are read go to the database in batches, each of one collection, limited by a
number of documents and by a number of bytes. A batch is sent when the next document belongs to
another collection or does not fit, when it is full, and before the end of a collection is
announced.

## Main results

* `Filled.push`, `Filled.finish`: what is read is sent or in the batch
* `produce_spec`: what is sent is what was read, in batches within the limits
-/

namespace Dbx.Mongo

/-- `BATCH_BYTES`. -/
def batchBytes : Nat := 8 * 1024 * 1024

/-- `Event`. -/
inductive Event
  | batch (index : Nat) (documents : List Bytes)
  | ended (index : Nat)
  deriving DecidableEq, Repr

/-- `Batcher`, with the events that went through its channel. -/
structure Batcher where
  index : Nat := 0
  documents : List Bytes := []
  bytes : Nat := 0
  limit : Nat
  objcheck : Bool
  sent : List Event := []
  deriving Repr

variable (C : Codec)

/-- A step of the batcher, and whether it failed. -/
abbrev Outcome := Batcher × Except String Unit

/-- One step after another. -/
def Outcome.andThen (outcome : Outcome) (next : Batcher → Outcome) : Outcome :=
  match outcome.2 with
  | .ok () => next outcome.1
  | .error e => (outcome.1, .error e)

/-- `checked_document`. -/
def checkedDocument (bytes : Bytes) (objcheck : Bool) : Except String Bytes :=
  match C.fromBytes bytes with
  | .error e => .error ("Invalid BSON document: " ++ e)
  | .ok () =>
    if objcheck then
      match C.fromSlice bytes with
      | .error e => .error ("Invalid BSON document: " ++ e)
      | .ok _ => .ok bytes
    else .ok bytes

namespace Batcher

variable (accepts : List Event → Bool)

variable (b : Batcher)

/-- `blocking_send`: the receiver takes the event, or is gone. -/
def send (event : Event) : Outcome :=
  if accepts b.sent then ({ b with sent := b.sent ++ [event] }, .ok ())
  else (b, .error "MongoDB dump/restore cancelled")

/-- `flush`. -/
def flush : Outcome :=
  if b.documents.isEmpty then (b, .ok ())
  else { b with documents := [], bytes := 0 }.send accepts (.batch b.index b.documents)

/-- `push`, behind the first flush. -/
def add (index : Nat) (bytes : Bytes) : Outcome :=
  let b := { b with index }
  match checkedDocument C bytes b.objcheck with
  | .error e => (b, .error e)
  | .ok document =>
    let b := { b with bytes := b.bytes + document.length, documents := b.documents ++ [document] }
    if b.limit ≤ b.documents.length then b.flush accepts else (b, .ok ())

/-- `push`. -/
def push (index : Nat) (bytes : Bytes) : Outcome :=
  if index ≠ b.index ∨ batchBytes < b.bytes + bytes.length then
    (b.flush accepts).andThen fun b => b.add C accepts index bytes
  else b.add C accepts index bytes

/-- `end`. -/
def finish (index : Nat) : Outcome :=
  (b.flush accepts).andThen fun b => b.send accepts (.ended index)

/-- What is done with what is read. -/
def handle : StreamEvent → Outcome
  | .document index bytes => b.push C accepts index bytes
  | .ended index => b.finish accepts index

/-- What is read is handled until something fails. -/
def deliver (b : Batcher) : List StreamEvent → Outcome
  | [] => (b, .ok ())
  | event :: events => (b.handle C accepts event).andThen fun b => deliver b events

end Batcher

/-! ## What is read -/

/-- Where the selected collections are: views have no data to restore. -/
def indices (expected entries : List C.Collection) : List (Option Nat) :=
  expected.map fun original =>
    entries.findIdx? fun e => namespaceOf C e = namespaceOf C original && !isView e.metadata

/-- The event for the selected collection, if it is selected. -/
def select (indices : List (Option Nat)) : StreamEvent → Option StreamEvent
  | .document index bytes => ((indices[index]?).join).map fun target => .document target bytes
  | .ended index => ((indices[index]?).join).map .ended

/-- The events of an archive for the selected collections. -/
def archiveFeed (check : Check) (expected entries : List C.Collection) (input : Bytes) :
    List StreamEvent × Except String Unit :=
  let streamed := stream C check expected input
  (streamed.1.filterMap (select (indices C expected entries)), streamed.2)

/-- The first error of two results. -/
def firstError : Except String Unit → Except String Unit → Except String Unit
  | .error e, _ => .error e
  | .ok (), result => result

/-- `produce`, for what is read: the events that are sent, and the result. What is left in the batch
is sent even when reading failed. -/
def produce (accepts : List Event → Bool) (b : Batcher)
    (feed : List StreamEvent × Except String Unit) : List Event × Except String Unit :=
  let delivered := b.deliver C accepts feed.1
  let flushed := delivered.1.flush accepts
  (flushed.1.sent, firstError (firstError delivered.2 feed.2) flushed.2)

/-! ## The batches hold what was read -/

/-- The documents of an event, one by one. -/
def Event.unbatch : Event → List StreamEvent
  | .batch index documents => documents.map (.document index)
  | .ended index => [.ended index]

def unbatch (events : List Event) : List StreamEvent := events.flatMap Event.unbatch

@[simp] theorem unbatch_nil : unbatch [] = [] := rfl

@[simp] theorem unbatch_append (events later : List Event) :
    unbatch (events ++ later) = unbatch events ++ unbatch later :=
  List.flatMap_append

@[simp] theorem unbatch_singleton (event : Event) : unbatch [event] = event.unbatch := by
  simp [unbatch]

def sizeOf (documents : List Bytes) : Nat := (documents.map List.length).sum

/-- The batch holds documents, not more than the limits allow; a single document may be larger. -/
def WithinLimits (limit : Nat) : Event → Prop
  | .batch _ documents =>
    documents ≠ [] ∧ documents.length ≤ limit ∧
      (sizeOf documents ≤ batchBytes ∨ documents.length = 1)
  | .ended _ => True

/-- What was read is sent or in the batch, and both are within the limits. -/
structure Holds (limit : Nat) (b : Batcher) (read : List StreamEvent) : Prop where
  limit_eq : b.limit = limit
  read_eq : unbatch b.sent ++ b.documents.map (.document b.index) = read
  within : ∀ event ∈ b.sent, WithinLimits limit event
  bytes_eq : b.bytes = sizeOf b.documents
  length_le : b.documents.length ≤ limit
  fits : sizeOf b.documents ≤ batchBytes ∨ b.documents.length = 1

/-- There is room for one more document between two steps. -/
structure Filled (limit : Nat) (b : Batcher) (read : List StreamEvent) : Prop
    extends Holds limit b read where
  room : b.documents.length < limit

section Steps

variable {C} {accepts : List Event → Bool} {limit : Nat} {b b' : Batcher} {read : List StreamEvent}

theorem Batcher.send_ok {event : Event} (h : b.send accepts event = (b', .ok ())) :
    b' = { b with sent := b.sent ++ [event] } := by
  unfold Batcher.send at h
  split at h <;> cases h
  rfl

theorem andThen_ok {outcome : Outcome} {next : Batcher → Outcome}
    (h : outcome.andThen next = (b', .ok ())) :
    ∃ b, outcome = (b, .ok ()) ∧ next b = (b', .ok ()) := by
  obtain ⟨b, result⟩ := outcome
  cases result with
  | ok value => exact ⟨b, rfl, h⟩
  | error e => cases h

/-- The batch is empty after a flush. -/
theorem Holds.flush (h : Holds limit b read) (hlimit : 0 < limit)
    (hflush : b.flush accepts = (b', .ok ())) : Filled limit b' read ∧ b'.documents = [] := by
  unfold Batcher.flush at hflush
  split at hflush
  · next hempty =>
    cases hflush
    have hnil : b.documents = [] := List.isEmpty_iff.mp hempty
    exact ⟨⟨h, by rwa [hnil]⟩, hnil⟩
  next hempty =>
  have hne : b.documents ≠ [] := fun hnil => hempty (by rw [hnil]; rfl)
  have hsent := Batcher.send_ok hflush
  subst hsent
  refine ⟨⟨⟨h.limit_eq, ?_, ?_, rfl, Nat.zero_le _, .inl (Nat.zero_le _)⟩, hlimit⟩, rfl⟩
  · rw [← h.read_eq]
    simp [Event.unbatch]
  · intro event hevent
    rcases List.mem_append.mp hevent with hbefore | hlast
    · exact h.within event hbefore
    · rw [List.mem_singleton] at hlast
      subst hlast
      exact ⟨hne, h.length_le, h.fits⟩

theorem checkedDocument_ok {bytes document : Bytes} {objcheck : Bool}
    (h : checkedDocument C bytes objcheck = .ok document) : document = bytes := by
  unfold checkedDocument at h
  split at h
  · cases h
  split at h
  · split at h <;> cases h
    rfl
  · cases h
    rfl

variable (h : Filled limit b read)

include h

/-- A document is added to an empty batch, or to one of its collection where it fits. -/
theorem Filled.add {index : Nat} {bytes : Bytes}
    (hfits : b.documents = [] ∨ index = b.index ∧ b.bytes + bytes.length ≤ batchBytes)
    (hadd : b.add C accepts index bytes = (b', .ok ())) :
    Filled limit b' (read ++ [.document index bytes]) := by
  have hlimit : 0 < limit := Nat.lt_of_le_of_lt (Nat.zero_le _) h.room
  unfold Batcher.add at hadd
  simp only at hadd
  split at hadd
  · cases hadd
  next document hdocument =>
  have heq := checkedDocument_ok hdocument
  subst heq
  -- the document is added first, and the batch is sent if it is full then
  have hholds : Holds limit { b with
      index, bytes := b.bytes + document.length, documents := b.documents ++ [document] }
      (read ++ [.document index document]) := by
    refine ⟨h.limit_eq, ?_, h.within, ?_, ?_, ?_⟩
    · rw [← h.read_eq]
      rcases hfits with hnil | ⟨rfl, -⟩
      · simp [hnil]
      · simp
    · simp [h.bytes_eq, sizeOf]
    · rw [List.length_append]
      exact h.room
    · rcases hfits with hnil | ⟨-, hle⟩
      · exact .inr (by simp [hnil])
      · refine .inl ?_
        rw [h.bytes_eq] at hle
        simpa [sizeOf] using hle
  split at hadd
  · exact (hholds.flush hlimit hadd).1
  · next hroom =>
    cases hadd
    refine ⟨hholds, ?_⟩
    rw [← h.limit_eq]
    exact Nat.lt_of_not_le hroom

/-- **A document that is read is sent or in the batch.** -/
theorem Filled.push {index : Nat} {bytes : Bytes}
    (hpush : b.push C accepts index bytes = (b', .ok ())) :
    Filled limit b' (read ++ [.document index bytes]) := by
  have hlimit : 0 < limit := Nat.lt_of_le_of_lt (Nat.zero_le _) h.room
  unfold Batcher.push at hpush
  split at hpush
  · obtain ⟨flushed, hflush, hadd⟩ := andThen_ok hpush
    obtain ⟨hfilled, hnil⟩ := h.toHolds.flush hlimit hflush
    exact hfilled.add (.inl hnil) hadd
  · next hstays =>
    rw [not_or, not_not, Nat.not_lt] at hstays
    exact h.add (.inr hstays) hpush

/-- **The end of a collection is sent behind its documents.** -/
theorem Filled.finish {index : Nat} (hfinish : b.finish accepts index = (b', .ok ())) :
    Filled limit b' (read ++ [.ended index]) := by
  have hlimit : 0 < limit := Nat.lt_of_le_of_lt (Nat.zero_le _) h.room
  obtain ⟨flushed, hflush, hsend⟩ := andThen_ok hfinish
  obtain ⟨hfilled, hnil⟩ := h.toHolds.flush hlimit hflush
  have hsent := Batcher.send_ok hsend
  subst hsent
  refine ⟨⟨hfilled.limit_eq, ?_, ?_, hfilled.bytes_eq, hfilled.length_le, hfilled.fits⟩,
    hfilled.room⟩
  · have hread := hfilled.read_eq
    rw [← hread]
    simp [hnil, Event.unbatch]
  · intro event hevent
    rcases List.mem_append.mp hevent with hbefore | hlast
    · exact hfilled.within event hbefore
    · rw [List.mem_singleton] at hlast
      subst hlast
      trivial

theorem Filled.handle {event : StreamEvent}
    (hhandle : b.handle C accepts event = (b', .ok ())) : Filled limit b' (read ++ [event]) := by
  cases event with
  | document index bytes => exact h.push hhandle
  | ended index => exact h.finish hhandle

theorem Filled.deliver {events : List StreamEvent}
    (hdeliver : b.deliver C accepts events = (b', .ok ())) : Filled limit b' (read ++ events) := by
  induction events generalizing b read with
  | nil =>
    cases hdeliver
    simpa using h
  | cons event events ih =>
    obtain ⟨next, hhandle, hrest⟩ := andThen_ok hdeliver
    have hfilled := ih (h.handle hhandle) hrest
    rwa [List.append_assoc] at hfilled

omit h

/-- **What is sent is what was read, in batches within the limits.** -/
theorem produce_spec {feed : List StreamEvent × Except String Unit} {sent : List Event}
    (hlimit : 0 < limit) {objcheck : Bool}
    (h : produce C accepts { limit, objcheck } feed = (sent, .ok ())) :
    feed.2 = .ok () ∧ unbatch sent = feed.1 ∧ ∀ event ∈ sent, WithinLimits limit event := by
  have hinit : Filled limit { limit, objcheck } [] :=
    ⟨⟨rfl, rfl, by simp, rfl, Nat.zero_le _, .inl (Nat.zero_le _)⟩, hlimit⟩
  unfold produce at h
  generalize hdelivered : Batcher.deliver C accepts { limit, objcheck } feed.1 = delivered at h
  obtain ⟨filled, result⟩ := delivered
  simp only at h
  generalize hflushed : filled.flush accepts = flushed at h
  obtain ⟨last, result'⟩ := flushed
  simp only [Prod.mk.injEq] at h
  obtain ⟨rfl, hresult⟩ := h
  -- no step has failed
  cases result with
  | error e => cases hresult
  | ok value =>
    cases hfeed : feed.2 with
    | error e =>
      rw [hfeed] at hresult
      cases hresult
    | ok value' =>
      rw [hfeed] at hresult
      cases result' with
      | error e => cases hresult
      | ok value'' =>
        have hfilled := hinit.deliver hdelivered
        obtain ⟨hlast, hnil⟩ := hfilled.toHolds.flush hlimit hflushed
        have hread := hlast.read_eq
        rw [hnil] at hread
        exact ⟨rfl, by simpa using hread, hlast.within⟩

end Steps

end Dbx.Mongo
