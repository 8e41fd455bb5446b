import Dbx.Sql.Splitter

/-!
# Control commands of psql

`preprocess_psql_control_commands` blanks the lines of a script that are commands for psql and
change nothing in the database. The editor names positions of the cursor in the script by UTF-16
offsets, so what is blanked keeps its number of UTF-16 units, and the blanks in it stay.

## Main results

* `aligned_blankLine`: blanking a line keeps the units aligned
* `preprocessPsqlControlCommands_offsets`: the offsets of the script stay what they are
-/

namespace Dbx.Sql

open Text
open List hiding splitOn

variable (unicode : Unicode)

/-- The UTF-16 units of a text. -/
def utf16 (text : Text) : List Nat :=
  text.flatMap fun c =>
    if c.toNat < 0x10000 then [c.toNat]
    else [0xd800 + (c.toNat - 0x10000) / 0x400, 0xdc00 + (c.toNat - 0x10000) % 0x400]

/-- The line with a space for each UTF-16 unit that is not a blank. -/
def blankLine (line : Text) : Text :=
  line.flatMap fun c => if isWhitespace c then [c] else replicate (utf16 [c]).length ' '

/-- The loop of `preprocess_psql_control_commands` over the lines: the lines, each with the command
it is recognised as. The scanner does not see a command. -/
def controlLines : SqlScanner → Text → List Text → List (Text × Option PsqlControlCommand)
  | _, _, [] => []
  | scanner, behind, line :: lines =>
    let rest := tailText lines
    let command := if scanner.isMasked then none else parseIgnorablePsqlControlCommand (trim line)
    let scanned := if command.isSome then scanner else scanner.steps unicode behind line rest
    let behind := line.reverse ++ behind
    let scanned := if rest.isEmpty then scanned else scanned.step unicode behind '\n' (rest.drop 1)
    (line, command) :: controlLines scanned (rest.take 1 ++ behind) lines

/-- The lines of a script. -/
def scriptLines (sql : Text) (profile : SqlDialectProfile) :
    List (Text × Option PsqlControlCommand) :=
  controlLines unicode { profile } [] (splitOn (· = '\n') sql)

def writtenLine (line : Text × Option PsqlControlCommand) : Text :=
  if line.2.isSome then blankLine line.1 else line.1

/-- `preprocess_psql_control_commands`. -/
def preprocessPsqlControlCommands (sql : Text) (profile : SqlDialectProfile) : Text × Bool :=
  let lines := scriptLines unicode sql profile
  ((tailText (lines.map writtenLine)).drop 1, lines.any fun line => line.2 = some .onErrorStop)

/-- Which units of a line and of the line break before it are in a recognised command. -/
def commandUnits (line : Text × Option PsqlControlCommand) : List Bool :=
  false :: replicate (utf16 line.1).length line.2.isSome

/-- The units of line feeds and carriage returns. -/
def lineBreaks : List Nat := [10, 13]

/-- Written units and those of the source agree in their line breaks, and where nothing is marked
as blanked. -/
inductive Aligned : List Nat → List Nat → List Bool → Prop
  | nil : Aligned [] [] []
  | cons {u v : Nat} {blanked : Bool} {written source : List Nat} {marks : List Bool}
      (hsame : blanked = false → u = v) (hbreak : ∀ b ∈ lineBreaks, u = b ↔ v = b)
      (hrest : Aligned written source marks) :
      Aligned (u :: written) (v :: source) (blanked :: marks)

theorem Aligned.append {written source written' source' : List Nat} {marks marks' : List Bool}
    (h : Aligned written source marks) (h' : Aligned written' source' marks') :
    Aligned (written ++ written') (source ++ source') (marks ++ marks') := by
  induction h with
  | nil => exact h'
  | cons hsame hbreak _ ih => exact .cons hsame hbreak ih

theorem aligned_self (units : List Nat) (mark : Bool) :
    Aligned units units (replicate units.length mark) := by
  induction units with
  | nil => exact .nil
  | cons u units ih => exact .cons (fun _ => rfl) (fun _ _ => Iff.rfl) ih

/-- Spaces are aligned with units that are no line breaks. -/
theorem aligned_spaces {units : List Nat} (h : ∀ u ∈ units, u ∉ lineBreaks) :
    Aligned (replicate units.length 32) units (replicate units.length true) := by
  induction units with
  | nil => exact .nil
  | cons u units ih =>
    obtain ⟨hu, hunits⟩ := forall_mem_cons.mp h
    refine .cons nofun (fun b hb => ?_) (ih hunits)
    have hspace : 32 ∉ lineBreaks := by decide
    exact iff_of_false (fun h => hspace (h ▸ hb)) fun h => hu (h ▸ hb)

/-- A character that is no blank has no line break among its units. -/
theorem not_mem_lineBreaks {c : Char} (hc : isWhitespace c = false) :
    ∀ u ∈ utf16 [c], u ∉ lineBreaks := by
  intro u hu
  have hblank : ∀ n ∈ lineBreaks, isWhitespace (Char.ofNat n) := by decide
  simp only [utf16, flatMap_singleton] at hu
  split at hu
  · obtain rfl := mem_singleton.mp hu
    intro hmem
    have h := hblank _ hmem
    rw [Char.ofNat_toNat] at h
    exact Bool.false_ne_true (hc.symm.trans h)
  · simp only [lineBreaks, mem_cons, not_mem_nil, or_false] at hu ⊢
    omega

theorem utf16_append (s t : Text) : utf16 (s ++ t) = utf16 s ++ utf16 t := flatMap_append

theorem utf16_spaces (n : Nat) : utf16 (replicate n ' ') = replicate n 32 := by
  induction n with
  | zero => rfl
  | succ n ih => exact congrArg (32 :: ·) ih

/-- Blanking a line keeps its units aligned. -/
theorem aligned_blankLine (line : Text) :
    Aligned (utf16 (blankLine line)) (utf16 line) (replicate (utf16 line).length true) := by
  induction line with
  | nil => exact .nil
  | cons c line ih =>
    have hcons : blankLine (c :: line) = blankLine [c] ++ blankLine line := by simp [blankLine]
    have hunits : utf16 (c :: line) = utf16 [c] ++ utf16 line := utf16_append [c] line
    rw [hcons, utf16_append, hunits, length_append, ← replicate_append_replicate]
    refine .append ?_ ih
    cases hc : isWhitespace c with
    | true => simpa [blankLine, hc] using aligned_self (utf16 [c]) true
    | false => simpa [blankLine, hc, utf16_spaces] using aligned_spaces (not_mem_lineBreaks hc)

/-- So does writing the lines. -/
theorem aligned_lines (lines : List (Text × Option PsqlControlCommand)) :
    Aligned (utf16 (tailText (lines.map writtenLine))) (utf16 (tailText (lines.map Prod.fst)))
      (lines.flatMap commandUnits) := by
  induction lines with
  | nil => exact .nil
  | cons line lines ih =>
    have hline : Aligned (utf16 (writtenLine line)) (utf16 line.1)
        (replicate (utf16 line.1).length line.2.isSome) := by
      cases hcommand : line.2 with
      | none => simpa [writtenLine, hcommand] using aligned_self (utf16 line.1) false
      | some command => simpa [writtenLine, hcommand] using aligned_blankLine line.1
    rw [map_cons, map_cons, tailText, tailText, flatMap_cons, flatMap_cons,
      utf16_append, utf16_append]
    exact .append (.cons (fun _ => rfl) (fun _ _ => Iff.rfl) hline) ih

theorem tailText_splitOn (sql : Text) : tailText (splitOn (· = '\n') sql) = '\n' :: sql := by
  induction sql with
  | nil => rfl
  | cons c sql ih =>
    rw [splitOn]
    split
    · simp_all [tailText]
    · obtain ⟨line, lines, hlines⟩ := exists_cons_of_ne_nil (splitOn_ne_nil (· = '\n') sql)
      simp_all [tailText]

theorem map_fst_controlLines (scanner : SqlScanner) (behind : Text) (lines : List Text) :
    (controlLines unicode scanner behind lines).map Prod.fst = lines := by
  induction lines generalizing scanner behind with
  | nil => rfl
  | cons line lines ih => simp [controlLines, ih]

/-- Aligned units, offset by offset. -/
theorem Aligned.pointwise {written source : List Nat} {marks : List Bool}
    (h : Aligned written source marks) : written.length = source.length ∧ ∀ i : Nat,
      (marks[i]? ≠ some true → written[i]? = source[i]?) ∧
        ∀ b ∈ lineBreaks, written[i]? = some b ↔ source[i]? = some b := by
  induction h with
  | nil => simp
  | cons hsame hbreak _ ih =>
    refine ⟨congrArg (· + 1) ih.1, fun i => ?_⟩
    cases i with
    | zero => simpa using ⟨hsame, hbreak⟩
    | succ i => simpa using ih.2 i

/-- **Offsets stay.** The script that is left has as many UTF-16 units as the script, its line
breaks at the same offsets, and the same units outside of the recognised commands. -/
theorem preprocessPsqlControlCommands_offsets (sql : Text) (profile : SqlDialectProfile) :
    let output := (preprocessPsqlControlCommands unicode sql profile).1
    let inCommand := ((scriptLines unicode sql profile).flatMap commandUnits).drop 1
    (utf16 output).length = (utf16 sql).length ∧ ∀ i : Nat,
      (inCommand[i]? ≠ some true → (utf16 output)[i]? = (utf16 sql)[i]?) ∧
        ∀ b ∈ lineBreaks, (utf16 output)[i]? = some b ↔ (utf16 sql)[i]? = some b := by
  have h := aligned_lines (scriptLines unicode sql profile)
  rw [scriptLines, map_fst_controlLines, tailText_splitOn, ← scriptLines] at h
  rw [preprocessPsqlControlCommands]
  -- the line break before the first line is not part of the script
  cases hlines : scriptLines unicode sql profile with
  | nil =>
    rw [hlines] at h
    cases h.pointwise.1
  | cons line lines =>
    rw [hlines] at h
    cases h with
    | cons _ _ hrest => exact hrest.pointwise

end Dbx.Sql
