import Dbx.Encoding.Base64
import Dbx.Transition.Basic
import Mathlib.Data.Fintype.Basic

/-!
# Provisioning of the secret key

The key that encrypts the stored secrets lies in a file of the managed data directory. A process
that finds no file makes a key, creates the file, writes the key in base64 and reads it back; a
process that finds the file, or loses the race to create it, reads it, and reads again while the
file does not hold a key. Creation is atomic, but the bytes of the creator appear in the file
little by little. Every access to the file is one action, so a run is any interleaving of the
accesses of any number of processes. Base64 without padding and Argon2id are parameters, of which
the one has laws.

## Main results

* `readKeyFile_encode`, `readKeyFile_part`: the whole file gives the key it was written from, a
  part of it a passphrase
* `Inv.step`: every step that reads no part of a key keeps the invariant
* `agreed_of_readsWhole`: runs without reads of a part of a key end in agreement
-/

namespace Dbx.Secret

open Text Transition List
open Base64 (NoPad urlSafeNoPad)

/-- `SecretCodec`: a key of 32 bytes. -/
structure SecretCodec where
  key : List (Fin 256)
  length_key : key.length = 32
  deriving DecidableEq, Repr

def SecretCodec.ofBytes (bytes : List (Fin 256)) : Option SecretCodec :=
  if h : bytes.length = 32 then some ⟨bytes, h⟩ else none

/-- The value of a hexadecimal digit. -/
def hexDigit (c : Char) : Option (Fin 16) :=
  if '0' ≤ c ∧ c ≤ '9' then some (Fin.ofNat 16 (c.toNat - '0'.toNat))
  else if 'a' ≤ c ∧ c ≤ 'f' then some (Fin.ofNat 16 (c.toNat - 'a'.toNat + 10))
  else if 'A' ≤ c ∧ c ≤ 'F' then some (Fin.ofNat 16 (c.toNat - 'A'.toNat + 10))
  else none

/-- `u8::from_str_radix` of two characters, to base 16; the first may be a sign. -/
def hexByte (c d : Char) : Option (Fin 256) :=
  if c = '+' then (hexDigit d).map fun low => ⟨low.val, by omega⟩
  else (hexDigit c).bind fun high =>
    (hexDigit d).map fun low => ⟨high.val * 16 + low.val, by omega⟩

/-- The bytes of pairs of hexadecimal digits. -/
def hexBytes : Text → Option (List (Fin 256))
  | c :: d :: rest => (hexByte c d).bind fun byte => (hexBytes rest).map (byte :: ·)
  | [_] => none
  | [] => some []

section Material

/- The base64 library, and Argon2id with the parameters and the salt of the source. -/
variable (base64 : NoPad) (argon2 : Text → Except String SecretCodec)

/-- `from_passphrase`. -/
def fromPassphrase (passphrase : Text) : Except String SecretCodec :=
  if passphrase.isEmpty then .error "secret key cannot be empty" else argon2 passphrase

/-- `from_key_material`. -/
def fromKeyMaterial (value : Text) : Except String SecretCodec :=
  match (base64.decode value).bind SecretCodec.ofBytes with
  | some codec => .ok codec
  | none =>
    if value.all (·.toNat < 128) && value.length = 64 then
      match (hexBytes value).bind SecretCodec.ofBytes with
      | some codec => .ok codec
      | none => .error "invalid hex key"
    else fromPassphrase argon2 value

/-- What the path of the key file names. -/
inductive Entry
  | absent
  | symlink
  | directory
  | file (content : Text)
  deriving DecidableEq, Repr

/-- `read_key_file` of the managed key file. The entry is never replaced once it is there, so its
metadata and its content are read in one step. -/
def readKeyFile : Entry → Except String SecretCodec
  | .absent | .symlink | .directory => .error "KEY_FILE_UNAVAILABLE"
  | .file content =>
    (fromKeyMaterial base64 argon2 (trim content)).mapError fun _ => "SECRET_KEY_INVALID"

end Material

/-- Where a process stands in `resolve_managed_data_dir`. -/
inductive Phase
  | start
  /-- `create_managed_key`: there was no file. -/
  | creating
  /-- `write_key_file` has created the file. -/
  | writing (codec : SecretCodec)
  /-- The whole key is written and is read back. -/
  | verifying
  /-- The file could not be created or written. -/
  | lost
  /-- `read_key_file_with_retry`, at an attempt. -/
  | reading (attempt : Nat)
  | done (result : Except String SecretCodec)
  deriving Repr

/-- The key file, who created it with which key, and the processes. -/
structure State (P : Type) where
  entry : Entry
  creator : Option (P × SecretCodec)
  phase : P → Phase

/-- The steps of a process. -/
inductive Action (P : Type)
  /-- A call other than those below fails, such as the creation of the directory. -/
  | ioError (p : P)
  | inspect (p : P)
  | create (p : P) (codec : SecretCodec)
  | write (p : P) (count : Nat)
  | sync (p : P)
  | writeError (p : P)
  | recheck (p : P)
  | read (p : P)

variable {P : Type} [DecidableEq P]

def State.setPhase (s : State P) (p : P) (phase : Phase) : State P :=
  { s with phase := Function.update s.phase p phase }

/-- The effect of an action, where the process can take it; `allowCreate` says which processes may
create a key. -/
def step (base64 : NoPad) (argon2 : Text → Except String SecretCodec) (allowCreate : P → Bool)
    (s : State P) : Action P → Option (State P)
  | .ioError p =>
    match s.phase p with
    | .start | .creating => some (s.setPhase p (.done (.error "KEY_FILE_UNAVAILABLE")))
    | _ => none
  | .inspect p =>
    match s.phase p, s.entry with
    | .start, .symlink => some (s.setPhase p (.done (.error "KEY_FILE_UNAVAILABLE")))
    | .start, .absent =>
      if allowCreate p then some (s.setPhase p .creating)
      else some (s.setPhase p (.done (.error "MISSING_MANAGED_KEY")))
    | .start, .directory =>
      -- `secure_managed_key_permissions` refuses what is not a file
      if allowCreate p then some (s.setPhase p (.done (.error "KEY_FILE_UNAVAILABLE")))
      else some (s.setPhase p (.reading 0))
    | .start, .file _ => some (s.setPhase p (.reading 0))
    | _, _ => none
  | .create p codec =>
    match s.phase p, s.entry with
    | .creating, .absent =>
      some { s.setPhase p (.writing codec) with entry := .file [], creator := some (p, codec) }
    | .creating, _ => some (s.setPhase p .lost)
    | _, _ => none
  | .write p count =>
    match s.phase p, s.entry with
    | .writing codec, .file content =>
      some { s with entry := .file ((base64.encode codec.key).take (content.length + count)) }
    | _, _ => none
  | .sync p =>
    match s.phase p, s.entry with
    | .writing codec, .file content =>
      if content = base64.encode codec.key then some (s.setPhase p .verifying) else none
    | _, _ => none
  | .writeError p =>
    match s.phase p with
    | .writing _ => some (s.setPhase p .lost)
    | _ => none
  | .recheck p =>
    match s.phase p, s.entry with
    | .lost, .symlink | .lost, .absent =>
      some (s.setPhase p (.done (.error "KEY_FILE_UNAVAILABLE")))
    | .lost, _ => some (s.setPhase p (.reading 0))
    | _, _ => none
  | .read p =>
    match s.phase p with
    | .verifying => some (s.setPhase p (.done (readKeyFile base64 argon2 s.entry)))
    | .reading attempt =>
      match readKeyFile base64 argon2 s.entry with
      | .ok codec => some (s.setPhase p (.done (.ok codec)))
      | .error error =>
        let retryable := attempt < 19 && error = "SECRET_KEY_INVALID" && s.entry ≠ .absent
        some (s.setPhase p (if retryable then .reading (attempt + 1) else .done (.error error)))
    | _ => none

def State.init : State P := ⟨.absent, none, fun _ => .start⟩

/-- Every process whose resolution returned a key has the key of the process that created the
file. -/
def Agreed (s : State P) : Prop :=
  ∀ p codec, s.phase p = .done (.ok codec) → ∃ creator, s.creator = some (creator, codec)

/-- A file is empty or holds all 43 characters of an encoded key. -/
def Entry.Whole : Entry → Prop
  | .file content => content = [] ∨ content.length = 43
  | _ => True

/-- A read finds no part of a key. -/
def ReadsWhole (s : State P) : Action P → Prop
  | .read _ => s.entry.Whole
  | _ => True

/-! ### Reading the key file -/

section Read

variable {base64 : NoPad} {argon2 : Text → Except String SecretCodec} {codec : SecretCodec}

theorem ofBytes_key (codec : SecretCodec) : SecretCodec.ofBytes codec.key = some codec := by
  simp [SecretCodec.ofBytes, codec.length_key]

theorem length_encode_key (base64 : NoPad) (codec : SecretCodec) :
    (base64.encode codec.key).length = 43 := by
  rw [base64.length_encode, codec.length_key]

/-- The whole file gives the key it was written from. -/
theorem readKeyFile_encode (codec : SecretCodec) :
    readKeyFile base64 argon2 (.file (base64.encode codec.key)) = .ok codec := by
  have htrim : trim (base64.encode codec.key) = base64.encode codec.key :=
    trim_of_not_blank fun _ => base64.not_isWhitespace_of_mem_encode
  simp [readKeyFile, fromKeyMaterial, htrim, base64.decode_encode, ofBytes_key, Except.mapError]

/-- A part of the key is taken as a passphrase. -/
theorem readKeyFile_part {count : Nat} (hpos : 0 < count) (hlt : count < 43) :
    readKeyFile base64 argon2 (.file ((base64.encode codec.key).take count)) =
      (argon2 ((base64.encode codec.key).take count)).mapError fun _ => "SECRET_KEY_INVALID" := by
  set part := (base64.encode codec.key).take count with hpart
  have hlength : part.length = count := by
    rw [length_take, length_encode_key]
    omega
  have htrim : trim part = part := trim_of_not_blank fun c hc =>
    base64.not_isWhitespace_of_mem_encode (mem_of_mem_take hc)
  -- too short to decode to 32 bytes, and to be 64 hexadecimal digits
  have hdecode : (base64.decode part).bind SecretCodec.ofBytes = none := by
    rw [Option.bind_eq_none_iff]
    intro bytes hbytes
    have hbound := base64.length_of_decode hbytes
    rw [SecretCodec.ofBytes, dif_neg]
    omega
  have hhex : part.length ≠ 64 := by omega
  have hne : part ≠ [] := by
    rintro h
    simp [h] at hlength
    omega
  simp [readKeyFile, fromKeyMaterial, htrim, hdecode, hhex, fromPassphrase, hne]

/-- An empty file is no passphrase. -/
theorem readKeyFile_nil : readKeyFile base64 argon2 (.file []) = .error "SECRET_KEY_INVALID" := by
  have hdecode : base64.decode [] = some [] := by
    conv_lhs => rw [← base64.encode_nil]
    exact base64.decode_encode []
  simp [readKeyFile, fromKeyMaterial, show trim [] = [] from rfl, hdecode, SecretCodec.ofBytes,
    fromPassphrase, Except.mapError]

/-- What a read that finds no part of a key can return. -/
theorem readKeyFile_take {count : Nat} {found : SecretCodec}
    (hwhole : (base64.encode codec.key).take count = [] ∨
      ((base64.encode codec.key).take count).length = 43)
    (h : readKeyFile base64 argon2 (.file ((base64.encode codec.key).take count)) = .ok found) :
    found = codec := by
  rcases hwhole with hempty | hlength
  · rw [hempty, readKeyFile_nil] at h
    cases h
  · rw [length_take] at hlength
    rw [take_of_length_le (by rw [length_encode_key]; omega), readKeyFile_encode] at h
    cases h
    rfl

end Read

/-! ### The invariant -/

/-- The file holds a part of the creator's key, only the creator writes, and the keys agree. -/
structure Inv (base64 : NoPad) (s : State P) : Prop where
  absent : s.creator = none → s.entry = .absent
  file : ∀ p codec, s.creator = some (p, codec) →
    ∃ count, s.entry = .file ((base64.encode codec.key).take count)
  writing : ∀ p codec, s.phase p = .writing codec → s.creator = some (p, codec)
  agreed : Agreed s

variable {base64 : NoPad} {argon2 : Text → Except String SecretCodec} {allowCreate : P → Bool}
  {s s' : State P}

omit [DecidableEq P] in
theorem Inv.init : Inv base64 (.init : State P) where
  absent _ := rfl
  file := by simp [State.init]
  writing := by simp [State.init]
  agreed := by simp [Agreed, State.init]

attribute [local simp] State.setPhase

/-- A process moves on without a write, and with no key but the creator's. -/
theorem Inv.setPhase (h : Inv base64 s) (p : P) {phase : Phase}
    (hwriting : ∀ codec, phase ≠ .writing codec)
    (hdone : ∀ codec, phase = .done (.ok codec) → ∃ creator, s.creator = some (creator, codec)) :
    Inv base64 (s.setPhase p phase) where
  __ := h
  writing p' codec hphase := by
    by_cases hp : p' = p
    · subst hp
      exact absurd (by simpa using hphase) (hwriting codec)
    · exact h.writing p' codec (by simpa [hp] using hphase)
  agreed p' codec hphase := by
    by_cases hp : p' = p
    · subst hp
      exact hdone codec (by simpa using hphase)
    · exact h.agreed p' codec (by simpa [hp] using hphase)

omit [DecidableEq P] in
/-- A read that finds no part of a key returns the creator's. -/
theorem Inv.read (h : Inv base64 s) (hwhole : s.entry.Whole) {codec : SecretCodec}
    (hread : readKeyFile base64 argon2 s.entry = .ok codec) :
    ∃ creator, s.creator = some (creator, codec) := by
  cases hcreator : s.creator with
  | none =>
    rw [h.absent hcreator] at hread
    cases hread
  | some creator =>
    obtain ⟨count, hentry⟩ := h.file creator.1 creator.2 hcreator
    rw [hentry] at hread hwhole
    rw [readKeyFile_take hwhole hread]
    exact ⟨creator.1, rfl⟩

/-- **Every step that reads no part of a key keeps the invariant.** -/
theorem Inv.step {a : Action P} (h : Inv base64 s) (hwhole : ReadsWhole s a)
    (hstep : step base64 argon2 allowCreate s a = some s') : Inv base64 s' := by
  cases a with (simp only [Secret.step] at hstep; try split at hstep <;> try cases hstep)
  | ioError p | writeError p | recheck p => exact h.setPhase p (by simp) (by simp)
  | inspect p =>
    first
      | exact h.setPhase p (by simp) (by simp)
      | split at hstep <;> cases hstep <;> exact h.setPhase p (by simp) (by simp)
  | create p codec =>
    first
      | next hentry =>
        -- no file, so no creator, so no process has returned a key
        have hnone : s.creator = none := by
          cases hcreator : s.creator with
          | none => rfl
          | some creator =>
            obtain ⟨count, hfile⟩ := h.file creator.1 creator.2 hcreator
            simp [hentry] at hfile
        refine ⟨by simp, ?_, fun p' codec' hphase => ?_, fun p' codec' hphase => ?_⟩
        · rintro _ _ ⟨⟩
          exact ⟨0, rfl⟩
        · by_cases hp : p' = p
          · subst hp
            simpa using hphase
          · have := h.writing p' codec' (by simpa [hp] using hphase)
            simp [hnone] at this
        · by_cases hp : p' = p
          · subst hp
            simp at hphase
          · have := h.agreed p' codec' (by simpa [hp] using hphase)
            simp [hnone] at this
      | exact h.setPhase p (by simp) (by simp)
  | write p count =>
    next codec content hphase hentry =>
      have hcreator := h.writing p codec hphase
      refine ⟨fun hnone => ?_, fun p' codec' hsome => ?_, h.writing, h.agreed⟩
      · simp [hcreator] at hnone
      · obtain ⟨rfl, rfl⟩ : p = p' ∧ codec = codec' := by simpa [hcreator] using hsome
        exact ⟨_, rfl⟩
  | sync p =>
    split at hstep <;> cases hstep
    exact h.setPhase p (by simp) (by simp)
  | read p =>
    first
      | exact h.setPhase p (by simp) fun codec hdone => h.read hwhole (by simpa using hdone)
      | split at hstep <;> cases hstep
        · next hread =>
          refine h.setPhase p (by simp) ?_
          rintro _ ⟨⟩
          exact h.read hwhole hread
        · refine h.setPhase p ?_ ?_ <;> intro codec <;> split <;> simp

/-- **The processes agree on the creator's key**: in every run of any number of processes in which
no read finds a part of a key in the file, every process whose resolution returns a key returns the
key of the process that created the file. -/
theorem agreed_of_readsWhole (as : List (Action P))
    (hwhole : Along (step base64 argon2 allowCreate) ReadsWhole State.init as)
    (hrun : run (step base64 argon2 allowCreate) State.init as = some s) : Agreed s :=
  (Along.run_invariant (I := Inv base64) (fun _ _ _ h hw hs => h.step hw hs) as _ s Inv.init hwhole
    hrun).agreed

/-! ### Checking a run -/

instance : (entry : Entry) → Decidable entry.Whole
  | .file content => inferInstanceAs (Decidable (content = [] ∨ content.length = 43))
  | .absent | .symlink | .directory => isTrue trivial

instance (s : State P) : (a : Action P) → Decidable (ReadsWhole s a)
  | .read _ => inferInstanceAs (Decidable s.entry.Whole)
  | .ioError _ | .inspect _ | .create .. | .write .. | .sync _ | .writeError _ | .recheck _ =>
    isTrue trivial

/-- The key that a process has returned. -/
def Phase.key : Phase → Option SecretCodec
  | .done (.ok codec) => some codec
  | _ => none

omit [DecidableEq P] in
theorem agreed_iff (s : State P) :
    Agreed s ↔ ∀ p, ∀ codec ∈ (s.phase p).key, s.creator.map Prod.snd = some codec := by
  have hkey (p : P) (codec : SecretCodec) :
      codec ∈ (s.phase p).key ↔ s.phase p = .done (.ok codec) := by
    unfold Phase.key
    split <;> simp_all
  simp [Agreed, hkey]

instance [Fintype P] (s : State P) : Decidable (Agreed s) := decidable_of_iff' _ (agreed_iff s)

def zeroCodec : SecretCodec := ⟨replicate 32 0, by decide⟩

/-- What Argon2id makes of the passphrase `A`, with the parameters and the salt of the source. -/
def argon2OfA : SecretCodec :=
  ⟨[74, 102, 220, 35, 133, 65, 28, 110, 223, 40, 52, 60, 26, 151, 183, 200, 237, 144, 129, 58, 167,
    99, 125, 108, 30, 132, 196, 199, 164, 30, 251, 163], by decide⟩

/-- Argon2id, of which the runs below need one value. -/
def argon2At (passphrase : Text) : Except String SecretCodec :=
  if passphrase = "A".toList then .ok argon2OfA else .error "not computed"

theorem readKeyFile_part_one :
    readKeyFile urlSafeNoPad argon2At (.file ((urlSafeNoPad.encode zeroCodec.key).take 1)) =
      .ok argon2OfA :=
  (readKeyFile_part (by decide) (by decide)).trans (by decide +kernel)

/-- Two processes that may create a key. -/
abbrev twoProcesses : State Bool → Action Bool → Option (State Bool) :=
  step urlSafeNoPad argon2At fun _ => true

/-- A process creates the key; another finds the file still empty, and reads again. -/
def readAfterWrite : List (Action Bool) :=
  [.inspect false, .create false zeroCodec, .inspect true, .read true, .write false 20,
    .write false 23, .sync false, .read true, .read false]

theorem agreed_readAfterWrite :
    Along twoProcesses ReadsWhole State.init readAfterWrite ∧
      ∀ s ∈ run twoProcesses State.init readAfterWrite, Agreed s :=
  have hwhole : Along twoProcesses ReadsWhole State.init readAfterWrite := by
    decide +kernel
  ⟨hwhole, fun _ hrun => agreed_of_readsWhole readAfterWrite hwhole hrun⟩

/-- The same, but the other process reads when the first character is there. -/
def readDuringWrite : List (Action Bool) :=
  [.inspect false, .create false zeroCodec, .write false 1, .inspect true, .read true,
    .write false 42, .sync false, .read false]

/-- **A part of the key is taken for a passphrase**: the second process returns the key that is
derived from the first character of the file. -/
theorem not_agreed_readDuringWrite :
    ¬ ∀ s ∈ run twoProcesses State.init readDuringWrite, Agreed s := by
  decide +kernel

end Dbx.Secret
