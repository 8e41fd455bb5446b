import Dbx.Lexing.Reader
import Mathlib.Algebra.Group.Nat.Defs

/-!
# Geometries in well-known binary

`parse_wkb_geometry` reads a geometry from bytes: a header with the byte order, the type and the
dimensions, and what the type asks for. The members of a multi-geometry have headers of their own.
Member points must declare the dimensions of the geometry around them. Member lines and polygons
may declare others; their coordinates are kept, and printed behind the suffix of the geometry
around them.

A coordinate is the number of its bits, and the nesting is bounded by a number that is as large as
wanted. What the headers declare is read from the bytes a second time, by a reader that skips the
coordinates and builds no geometry.

## Main definitions

* `parseWkbGeometry`, `decodeWkbGeometry`: the decoder
* `readHeaders`, `HeadersAgree`: what the headers declare for the coordinates behind them

## Main results

* `lockstep_parseWkbGeometry`: both readers get equally far, and the headers give the lengths
* `decodeWkbGeometry_consistent_iff`: the printed suffixes fit where the headers agree
-/

namespace Dbx.Wkb

open List Reader

/-- `WkbDimensions`. -/
structure WkbDimensions where
  hasZ : Bool
  hasM : Bool
  deriving DecidableEq, Repr

/-- `suffix`. -/
def WkbDimensions.suffix : WkbDimensions → String
  | ⟨false, false⟩ => ""
  | ⟨true, false⟩ => " Z"
  | ⟨false, true⟩ => " M"
  | ⟨true, true⟩ => " ZM"

/-- `coordinate_len`. -/
def WkbDimensions.coordinateLen (dims : WkbDimensions) : Nat :=
  2 + dims.hasZ.toNat + dims.hasM.toNat

/-- The components that a suffix stands for: two, and one for each letter. -/
def components (suffix : String) : Nat := 2 + suffix.toList.countP Char.isAlpha

theorem components_suffix (dims : WkbDimensions) : components dims.suffix = dims.coordinateLen := by
  obtain ⟨hasZ, hasM⟩ := dims
  cases hasZ <;> cases hasM <;> rfl

/-- A coordinate tuple. -/
abbrev Coords := List Nat

/-- `WkbGeometry`. -/
inductive WkbGeometry
  | point (dims : WkbDimensions) (coords : Option Coords)
  | lineString (dims : WkbDimensions) (points : List Coords)
  | polygon (dims : WkbDimensions) (rings : List (List Coords))
  | multiPoint (dims : WkbDimensions) (points : List (Option Coords))
  | multiLineString (dims : WkbDimensions) (lines : List (List Coords))
  | multiPolygon (dims : WkbDimensions) (polygons : List (List (List Coords)))
  | geometryCollection (dims : WkbDimensions) (geometries : List WkbGeometry)

/-! ## The decoder -/

/-- `WkbReader`, by the bytes that are left. -/
abbrev WkbReader := StateT (List UInt8) Option

/-- `read_array`. -/
def readArray (n : Nat) : WkbReader (List UInt8) := fun raw =>
  if n ≤ raw.length then some (raw.take n, raw.drop n) else none

/-- `WkbEndian`. -/
inductive WkbEndian
  | big
  | little
  deriving DecidableEq, Repr

variable (endian : WkbEndian) (dims : WkbDimensions)

/-- `read_u32` and `read_f64`, as numbers of 4 and 8 bytes. -/
def readNat (n : Nat) (endian : WkbEndian) : WkbReader Nat := do
  let bytes ← readArray n
  let bytes := match endian with
    | .big => bytes
    | .little => bytes.reverse
  return bytes.foldl (fun value byte => value * 256 + byte.toNat) 0

/-- `is_nan`, of the bits of a coordinate. -/
def isNan (bits : Nat) : Bool := bits / 2 ^ 52 % 2 ^ 11 = 2 ^ 11 - 1 && bits % 2 ^ 52 ≠ 0

/-- `parse_wkb_dimensions`. -/
def parseWkbDimensions (typeWord : Nat) : Nat × WkbDimensions × Bool :=
  let baseType := typeWord % 2 ^ 29
  let hasZ := typeWord.testBit 31
  let hasM := typeWord.testBit 30
  let hasSrid := typeWord.testBit 29
  if baseType ≥ 3000 then (baseType - 3000, ⟨true, true⟩, hasSrid)
  else if baseType ≥ 2000 then (baseType - 2000, ⟨hasZ, true⟩, hasSrid)
  else if baseType ≥ 1000 then (baseType - 1000, ⟨true, hasM⟩, hasSrid)
  else (baseType, ⟨hasZ, hasM⟩, hasSrid)

/-- The header of a geometry. -/
def readHeader : WkbReader (WkbEndian × Nat × WkbDimensions × Bool) := do
  let endian ← match ← readArray 1 with
    | [0] => pure WkbEndian.big
    | [1] => pure .little
    | _ => failure
  return (endian, parseWkbDimensions (← readNat 4 endian))

def readCoords : WkbReader Coords := many (readNat 8 endian) dims.coordinateLen

def pointOf (coords : Coords) : Option Coords := if coords.all isNan then none else some coords

/-- The SRID of a member point, which is not kept. -/
def skipSrid (hasSrid : Bool) : WkbReader Unit := do
  if hasSrid then discard (readNat 4 endian)

/-- `read_wkb_point_coords`. -/
def readWkbPointCoords : WkbReader (Option Coords) := do
  let (endian, baseType, parsedDims, hasSrid) ← readHeader
  if baseType = 1 ∧ parsedDims = dims then
    skipSrid endian hasSrid
    return pointOf (← readCoords endian parsedDims)
  else failure

def readCounted {α : Type} (read : WkbReader α) : WkbReader (List α) := do
  many read (← readNat 4 endian)

/-- `parse_wkb_points`. -/
def parseWkbPoints : WkbReader (List Coords) := readCounted endian (readCoords endian dims)

/-- The SRID of a geometry; without the bytes for it there is none. -/
def readSrid (hasSrid : Bool) : WkbReader (Option Nat) := fun raw =>
  match hasSrid, readNat 4 endian raw with
  | true, some (value, rest) => some (if value = 0 then none else some value, rest)
  | _, _ => some (none, raw)

/-- The points of a member line. The dimensions of the member are dropped here. -/
def WkbGeometry.line : WkbGeometry → Option (List Coords)
  | .lineString _ points => some points
  | _ => none

/-- The rings of a member polygon. The dimensions of the member are dropped here. -/
def WkbGeometry.rings : WkbGeometry → Option (List (List Coords))
  | .polygon _ rings => some rings
  | _ => none

/-- A member that has to be a line or a polygon. -/
def readPart {α : Type} (member : WkbReader WkbGeometry) (part : WkbGeometry → Option α) :
    WkbReader α := do
  match part (← member) with
  | some value => return value
  | none => failure

/-- What follows the header of a geometry, given how its members are read. -/
def readBody (member : WkbReader WkbGeometry) : Nat → WkbReader WkbGeometry
  | 1 => (.point dims ∘ pointOf) <$> readCoords endian dims
  | 2 => .lineString dims <$> parseWkbPoints endian dims
  | 3 => .polygon dims <$> readCounted endian (parseWkbPoints endian dims)
  | 4 => .multiPoint dims <$> readCounted endian (readWkbPointCoords dims)
  | 5 => .multiLineString dims <$> readCounted endian (readPart member WkbGeometry.line)
  | 6 => .multiPolygon dims <$> readCounted endian (readPart member WkbGeometry.rings)
  | 7 => .geometryCollection dims <$> readCounted endian member
  | _ => failure

/-- `parse_wkb_geometry`. -/
def parseWkbGeometry : Nat → WkbReader (WkbGeometry × Option Nat)
  | 0 => failure
  | nesting + 1 => do
    let (endian, baseType, dims, hasSrid) ← readHeader
    let srid ← readSrid endian hasSrid
    let geometry ← readBody endian dims (Prod.fst <$> parseWkbGeometry nesting) baseType
    return (geometry, srid)

/-- The tree and the SRID of `decode_wkb_geometry`, from which it prints the text. -/
def decodeWkbGeometry (nesting : Nat) (raw : List UInt8) : Option (WkbGeometry × Option Nat) :=
  (parseWkbGeometry nesting raw).bind fun (parsed, rest) =>
    if rest.isEmpty then some parsed else none

/-! ## What is printed -/

mutual

/-- The places of coordinate tuples in a geometry, each with the dimensions whose suffix `to_wkt`
prints for it; a point may be empty. -/
def WkbGeometry.places : WkbGeometry → List (WkbDimensions × Option Coords)
  | .point dims coords => [(dims, coords)]
  | .lineString dims points => points.map fun coords => (dims, some coords)
  | .polygon dims rings => rings.flatten.map fun coords => (dims, some coords)
  | .multiPoint dims points => points.map fun coords => (dims, coords)
  | .multiLineString dims lines => lines.flatten.map fun coords => (dims, some coords)
  | .multiPolygon dims polygons => polygons.flatten.flatten.map fun coords => (dims, some coords)
  | .geometryCollection _ geometries => placesOf geometries

def placesOf : List WkbGeometry → List (WkbDimensions × Option Coords)
  | [] => []
  | geometry :: geometries => geometry.places ++ placesOf geometries

end

/-- **Every tuple has the components of the suffix that is printed for it.** -/
def WkbGeometry.Consistent (geometry : WkbGeometry) : Prop :=
  ∀ place ∈ geometry.places, ∀ coords ∈ place.2, coords.length = components place.1.suffix

instance (geometry : WkbGeometry) : Decidable geometry.Consistent :=
  inferInstanceAs (Decidable (∀ _ ∈ _, _))

/-! ## What the headers declare -/

/-- What the headers say of a coordinate tuple: the dimensions of the geometry that is printed
around it, and those of the header in front of it. -/
structure Declared where
  printed : WkbDimensions
  own : WkbDimensions
  deriving DecidableEq, Repr

/-- The bytes of a tuple are skipped. -/
def skipTuple (printed own : WkbDimensions) : WkbReader Declared := do
  let _ ← readArray (8 * own.coordinateLen)
  return ⟨printed, own⟩

/-- The header of a member point, with its coordinates skipped. -/
def skipPoint : WkbReader Declared := do
  let (endian, _, own, hasSrid) ← readHeader
  skipSrid endian hasSrid
  skipTuple dims own

/-- The tuples of a member, printed behind the suffix of the geometry around it. -/
def inside (members : List Declared) : List Declared := members.map ({ · with printed := dims })

/-- What the headers behind the first one declare, given how those of a member are read. -/
def readHeadersBody (member : WkbReader (List Declared)) : Nat → WkbReader (List Declared)
  | 1 => (fun declared => [declared]) <$> skipTuple dims dims
  | 2 => readCounted endian (skipTuple dims dims)
  | 3 => flatten <$> readCounted endian (readCounted endian (skipTuple dims dims))
  | 4 => readCounted endian (skipPoint dims)
  | 5 | 6 => flatten <$> readCounted endian (inside dims <$> member)
  | 7 => flatten <$> readCounted endian member
  | _ => failure

/-- What the headers declare for each of the coordinate tuples. -/
def readHeaders : Nat → WkbReader (List Declared)
  | 0 => failure
  | nesting + 1 => do
    let (endian, baseType, dims, hasSrid) ← readHeader
    let _ ← readSrid endian hasSrid
    readHeadersBody endian dims (readHeaders nesting) baseType

/-- **The headers agree**: wherever there are coordinates, the header in front of them declares as
many dimensions as that of the geometry that is printed around them. -/
def HeadersAgree (nesting : Nat) (raw : List UInt8) : Prop :=
  ∀ headers ∈ readHeaders nesting raw, ∀ declared ∈ headers.1,
    declared.own.coordinateLen = declared.printed.coordinateLen

instance (nesting : Nat) (raw : List UInt8) : Decidable (HeadersAgree nesting raw) :=
  inferInstanceAs (Decidable (∀ _ ∈ readHeaders nesting raw, ∀ _ ∈ _, _))

/-! ## Both readers -/

/-- A tuple has the length that the header in front of it declares. -/
def Fits (place : WkbDimensions × Option Coords) (declared : Declared) : Prop :=
  place.1 = declared.printed ∧ match place.2 with
    | some coords => coords.length = declared.own.coordinateLen
    | none => declared.own = declared.printed

variable {endian dims}

theorem readArray_eq_some {n : Nat} {raw bytes rest : List UInt8}
    (h : readArray n raw = some (bytes, rest)) : n ≤ raw.length ∧ rest = raw.drop n := by
  unfold readArray at h
  split at h
  · cases h
    exact ⟨‹_›, rfl⟩
  · cases h

theorem readNat_eq_some {n value : Nat} {raw rest : List UInt8}
    (h : readNat n endian raw = some (value, rest)) : n ≤ raw.length ∧ rest = raw.drop n := by
  obtain ⟨bytes, rest', hread, hvalue⟩ := bind_eq_some_iff.mp h
  cases hvalue
  exact readArray_eq_some hread

/-- The numbers that are read one by one take up as many bytes. -/
theorem many_readNat_eq_some {m n : Nat} {raw rest : List UInt8} {values : List Nat}
    (h : many (readNat m endian) n raw = some (values, rest)) :
    values.length = n ∧ m * n ≤ raw.length ∧ rest = raw.drop (m * n) := by
  induction n generalizing raw values with
  | zero =>
    cases h
    simp
  | succ n ih =>
    obtain ⟨value, rest₁, hfirst, h⟩ := bind_eq_some_iff.mp h
    obtain ⟨more, rest₂, hmore, h⟩ := bind_eq_some_iff.mp h
    cases h
    obtain ⟨hle, rfl⟩ := readNat_eq_some hfirst
    obtain ⟨hlength, hle', rfl⟩ := ih hmore
    rw [length_drop] at hle'
    rw [drop_drop, Nat.mul_succ, Nat.add_comm (m * n) m]
    exact ⟨congrArg (· + 1) hlength, by omega, rfl⟩

/-- The coordinates of a tuple are skipped with their bytes. -/
theorem lockstep_readCoords (printed : WkbDimensions) :
    Lockstep (fun coords declared => coords.length = dims.coordinateLen ∧
      declared = ⟨printed, dims⟩) (readCoords endian dims) (skipTuple printed dims) := by
  intro raw coords rest h
  obtain ⟨hlength, hle, rfl⟩ := many_readNat_eq_some h
  have hskip : readArray (8 * dims.coordinateLen) raw = some (_, _) := if_pos hle
  exact ⟨_, bind_eq_some_iff.mpr ⟨_, _, hskip, rfl⟩, hlength, rfl⟩

theorem lockstep_readCounted {α β : Type} {R : α → β → Prop} {read : WkbReader α}
    {skim : WkbReader β} (h : Lockstep R read skim) :
    Lockstep (Forall₂ R) (readCounted endian read) (readCounted endian skim) :=
  (Lockstep.refl _).bind fun n _ hn => hn ▸ h.many n

/-- A tuple of a line or a ring. -/
theorem lockstep_tuple :
    Lockstep (fun coords => Fits (dims, some coords)) (readCoords endian dims)
      (skipTuple dims dims) :=
  fun raw coords rest h => by
    obtain ⟨declared, hskip, hlength, rfl⟩ := lockstep_readCoords dims raw coords rest h
    exact ⟨_, hskip, rfl, hlength⟩

theorem fits_pointOf {coords : Coords} (h : coords.length = dims.coordinateLen) :
    Fits (dims, pointOf coords) ⟨dims, dims⟩ := by
  unfold pointOf
  split
  · exact ⟨rfl, rfl⟩
  · exact ⟨rfl, h⟩

theorem lockstep_readWkbPointCoords :
    Lockstep (fun coords => Fits (dims, coords)) (readWkbPointCoords dims) (skipPoint dims) := by
  refine (Lockstep.refl readHeader).bind fun header _ heq => heq ▸ ?_
  obtain ⟨endian, baseType, own, hasSrid⟩ := header
  dsimp only
  split
  · next hmember =>
    -- a member point declares the dimensions of the geometry around it
    obtain ⟨-, rfl⟩ := hmember
    refine (Lockstep.refl _).bind fun _ _ _ => ?_
    intro raw coords rest h
    obtain ⟨tuple, rest', hread, h⟩ := bind_eq_some_iff.mp h
    cases h
    obtain ⟨declared, hskip, hlength, rfl⟩ := lockstep_readCoords own raw tuple _ hread
    exact ⟨_, hskip, fits_pointOf hlength⟩
  · exact .failure

/-- A member whose tuples are taken out of it, to be printed behind another suffix. -/
theorem lockstep_readPart {α : Type} {member : WkbReader WkbGeometry}
    {skim : WkbReader (List Declared)} {part : WkbGeometry → Option α} (tuples : α → List Coords)
    (h : Lockstep (fun geometry => Forall₂ Fits geometry.places) member skim)
    (hpart : ∀ geometry value, part geometry = some value → ∃ own,
      geometry.places = (tuples value).map fun coords => (own, some coords)) :
    Lockstep (fun value => Forall₂ Fits ((tuples value).map fun coords => (dims, some coords)))
      (readPart member part) (inside dims <$> skim) := by
  change Lockstep _ (member >>= _) (skim >>= fun declared => pure (inside dims declared))
  refine h.bind fun geometry declared hfits => ?_
  cases hvalue : part geometry with
  | none => exact .failure
  | some value =>
    refine .pure ?_
    obtain ⟨own, hplaces⟩ := hpart geometry value hvalue
    rw [hplaces, forall₂_map_left_iff] at hfits
    rw [inside, forall₂_map_left_iff, forall₂_map_right_iff]
    exact hfits.imp fun coords declared hfit => ⟨rfl, hfit.2⟩

theorem forall₂_flatten_map {α : Type} {values : List α} {tuples : α → List Coords}
    {headers : List (List Declared)}
    (h : Forall₂ (fun value => Forall₂ Fits ((tuples value).map fun coords => (dims, some coords)))
      values headers) :
    Forall₂ Fits ((values.map tuples).flatten.map fun coords => (dims, some coords))
      headers.flatten := by
  rw [map_flatten, map_map]
  exact rel_flatten (forall₂_map_left_iff.mpr h)

theorem placesOf_eq (geometries : List WkbGeometry) :
    placesOf geometries = (geometries.map WkbGeometry.places).flatten := by
  induction geometries with
  | nil => rfl
  | cons geometry geometries ih => rw [placesOf, ih, map_cons, flatten_cons]

/-- **What follows a header**, whatever it declares. -/
theorem lockstep_readBody {member : WkbReader WkbGeometry} {skim : WkbReader (List Declared)}
    (h : Lockstep (fun geometry => Forall₂ Fits geometry.places) member skim) (baseType : Nat) :
    Lockstep (fun geometry => Forall₂ Fits geometry.places) (readBody endian dims member baseType)
      (readHeadersBody endian dims skim baseType) := by
  unfold readBody readHeadersBody
  -- the types in the order of the match: what is read is what the headers declare
  split
  · refine (lockstep_readCoords dims).map ?_
    rintro coords _ ⟨hlength, rfl⟩
    exact .cons (fits_pointOf hlength) .nil
  · exact (lockstep_readCounted lockstep_tuple).map_left fun points headers hfits =>
      forall₂_map_left_iff.mpr hfits
  · refine (lockstep_readCounted (lockstep_readCounted lockstep_tuple)).map
      fun rings headers hfits => ?_
    rw [WkbGeometry.places, ← map_id rings]
    exact forall₂_flatten_map (hfits.imp fun _ _ hring => forall₂_map_left_iff.mpr hring)
  · exact (lockstep_readCounted lockstep_readWkbPointCoords).map_left fun points headers hfits =>
      forall₂_map_left_iff.mpr hfits
  · refine (lockstep_readCounted (lockstep_readPart id h ?_)).map
      fun lines headers hfits => ?_
    · intro geometry points hline
      cases geometry <;> cases hline
      exact ⟨_, rfl⟩
    · rw [WkbGeometry.places, ← map_id lines]
      exact forall₂_flatten_map hfits
  · refine (lockstep_readCounted (lockstep_readPart flatten h ?_)).map
      fun polygons headers hfits => ?_
    · intro geometry rings hrings
      cases geometry <;> cases hrings
      exact ⟨_, rfl⟩
    · rw [WkbGeometry.places, flatten_flatten]
      exact forall₂_flatten_map hfits
  · refine (lockstep_readCounted h).map fun geometries headers hfits => ?_
    rw [WkbGeometry.places, placesOf_eq]
    exact rel_flatten (forall₂_map_left_iff.mpr hfits)
  · exact .failure

/-- **Both readers get equally far**, and every tuple has the length that the header in front of it
declares. -/
theorem lockstep_parseWkbGeometry (nesting : Nat) :
    Lockstep (fun parsed => Forall₂ Fits parsed.1.places) (parseWkbGeometry nesting)
      (readHeaders nesting) := by
  induction nesting with
  | zero => exact .failure
  | succ nesting ih =>
    refine (Lockstep.refl readHeader).bind fun header _ heq => heq ▸ ?_
    obtain ⟨endian, baseType, dims, hasSrid⟩ := header
    refine (Lockstep.refl _).bind fun srid _ _ => ?_
    have hmember : Lockstep (fun geometry => Forall₂ Fits geometry.places)
        (Prod.fst <$> parseWkbGeometry nesting) (readHeaders nesting) :=
      ih.map_left fun _ _ hfits => hfits
    change Lockstep _ ((fun geometry => (geometry, srid)) <$> _) _
    exact (lockstep_readBody hmember baseType).map_left fun _ _ hfits => hfits

theorem Fits.iff {place : WkbDimensions × Option Coords} {declared : Declared}
    (h : Fits place declared) :
    (∀ coords ∈ place.2, coords.length = components place.1.suffix) ↔
      declared.own.coordinateLen = declared.printed.coordinateLen := by
  obtain ⟨printed, _ | coords⟩ := place
  · obtain ⟨-, hsame⟩ := h
    simp [show declared.own = declared.printed from hsame]
  · obtain ⟨rfl, hlength⟩ := h
    simp [components_suffix, show coords.length = declared.own.coordinateLen from hlength]

/-- **The tuples of an accepted geometry have the components of the printed suffixes exactly if the
headers in its bytes agree.** -/
theorem decodeWkbGeometry_consistent_iff (nesting : Nat) (raw : List UInt8) :
    ∀ decoded ∈ decodeWkbGeometry nesting raw,
      (decoded.1.Consistent ↔ HeadersAgree nesting raw) := by
  intro decoded hdecoded
  obtain ⟨⟨parsed, rest⟩, hparse, hend⟩ := Option.bind_eq_some_iff.mp hdecoded
  obtain ⟨headers, hheaders, hfits⟩ := lockstep_parseWkbGeometry nesting raw parsed rest hparse
  obtain rfl : parsed = decoded := by
    dsimp only at hend
    split at hend
    · exact Option.some.inj hend
    · cases hend
  have hagree : HeadersAgree nesting raw ↔ ∀ declared ∈ headers,
      declared.own.coordinateLen = declared.printed.coordinateLen := by
    simp [HeadersAgree, hheaders]
  rw [hagree, WkbGeometry.Consistent]
  clear hagree hheaders
  generalize parsed.1.places = places at hfits
  induction hfits with
  | nil => simp
  | cons hfit _ ih =>
    rw [forall_mem_cons, forall_mem_cons]
    exact and_congr hfit.iff ih

/-- A little-endian MULTILINESTRING with one member, a line with a type word and one point of `n`
components, which are all zero. -/
def oneLine (typeWord : List UInt8) (n : Nat) : List UInt8 :=
  [1, 5, 0, 0, 0, 1, 0, 0, 0] ++ 1 :: typeWord ++ [1, 0, 0, 0] ++ replicate (8 * n) 0

theorem consistent_oneLine :
    ∃ decoded ∈ decodeWkbGeometry 2 (oneLine [2, 0, 0, 0] 2),
      decoded.1.places.length = 1 ∧ decoded.1.Consistent :=
  ⟨_, Option.mem_def.mpr rfl, rfl,
    (decodeWkbGeometry_consistent_iff 2 (oneLine [2, 0, 0, 0] 2) _ rfl).mpr (by decide)⟩

/-- The line declares a third dimension, for which the MULTILINESTRING prints no suffix. -/
theorem not_consistent_oneLine :
    ∃ decoded ∈ decodeWkbGeometry 2 (oneLine [0xEA, 3, 0, 0] 3), ¬ decoded.1.Consistent :=
  ⟨_, Option.mem_def.mpr rfl, by decide⟩

end Dbx.Wkb
