import Dbx.Backup.Schedule

/-!
# The paths of backup files

`render_template` makes the directory and the file names of a run from templates with placeholders.
Names that are arbitrary texts are put in as segments, in which no character is left that a path
gives a meaning to, and every component of the result is made a segment again.

The texts of the time and of the run's id are given; they do not start with a separator.

## Main results

* `segment_proper`: a segment is a component of its own under the rules of Unix and of Windows
* `isReserved_segment`: which segments Windows takes for devices
* `renderTemplate_inside`: a rendered path lies strictly inside of the destination
-/

namespace Dbx.Backup

open Text List

/-- A name without the characters that a path gives a meaning to. -/
def cleaned (value : Text) : Text :=
  trimEndMatches (fun c => c = '.' || c = ' ') <| trim <| value.map fun c =>
    if isControl c || "\\/:*?\"<>|".toList.contains c then '_' else c

/-- The name of a device of Windows, with or without an extension. -/
def isReserved (name : Text) : Bool :=
  let first := toAsciiUppercase (name.takeWhile (· ≠ '.'))
  first ∈ ["CON", "PRN", "AUX", "NUL"].map String.toList ||
    byteLen first = 4 && first.take 3 ∈ ["COM", "LPT"].map String.toList &&
      (first.drop 3).any fun c => '1' ≤ c && c ≤ '9'

/-- A name as a component of a path. -/
def segment (value : Text) : Text :=
  let name := if cleaned value = [] then "database".toList else cleaned value
  if isReserved name then name ++ ['_'] else name

/-- `str::replace`. Of a match that has been replaced some characters are still ahead. -/
def replaceAll (pattern by' : Text) : Nat → Text → Text
  | _, [] => []
  | 0, c :: s =>
    if pattern.isPrefixOf (c :: s) then by' ++ replaceAll pattern by' (pattern.length - 1) s
    else c :: replaceAll pattern by' 0 s
  | ahead + 1, _ :: s => replaceAll pattern by' ahead s

/-- A text starts with a character that is no separator. -/
def Leads (text : Text) : Prop := ∃ c rest, text = c :: rest ∧ isSlash c = false

/-- A text of digits, hexadecimal digits and dashes, as far as paths are concerned. -/
abbrev Stamp : Type := { text : Text // Leads text }

/-- `BackupRun`, with the first characters of its id, and with the date and the time it was started
at, if that and the time zone can be read. -/
structure NamedRun where
  scheduleName : Text
  runId : Stamp
  started : Except String (Stamp × Stamp)

/-- The template with its placeholders replaced, but for that of the database. -/
def NamedRun.fill (run : NamedRun) (started : Stamp × Stamp) (template : Text) : Text :=
  replaceAll "\x7brunId\x7d".toList run.runId 0 <|
    replaceAll "\x7btimestamp\x7d".toList started.2 0 <|
    replaceAll "\x7bdate\x7d".toList started.1 0 <|
    replaceAll "\x7bschedule\x7d".toList (segment run.scheduleName) 0 template

def renderTemplate (template : Text) (run : NamedRun) (database : Text) (directory : Bool) :
    Except String Text := do
  validateTemplate template directory
  let rendered := run.fill (← run.started) template
  if directory then
    return ['/'].intercalate (((splitOn isSlash rendered).filter (· ≠ [])).map segment)
  else if containsText template "\x7bdatabase\x7d".toList then
    return segment (replaceAll "\x7bdatabase\x7d".toList (segment database) 0 rendered)
  else return segment rendered ++ ("__".toList ++ segment database)

/-! ## Paths -/

/-- Whose rules hold for paths. -/
inductive Platform
  | unix
  | windows
  deriving DecidableEq

namespace Platform

def isSeparator : Platform → Char → Bool
  | unix, c => c = '/'
  | windows, c => isSlash c

/-- The name that a component stands for: Windows drops the dots and blanks at its end. -/
def component : Platform → Text → Text
  | unix, part => part
  | windows, part => trimEndMatches (fun c => c = '.' || c = ' ') part

/-- A path starts with a separator, or on Windows with a drive. -/
def isAbsolute (platform : Platform) (path : Text) : Bool :=
  let first := (splitOn platform.isSeparator path).headD []
  first.isEmpty || platform = windows && first.contains ':'

/-- Where a path leads to from a directory. -/
def resolve (platform : Platform) (directory : List Text) (path : Text) : List Text :=
  let parts := splitOn platform.isSeparator path
  if platform.isAbsolute path then parts
  else parts.foldl (fun there part =>
    if part = [] ∨ part = ".".toList then there
    else if part = "..".toList then there.dropLast
    else there ++ [platform.component part]) directory

end Platform

/-- A component that every platform takes as it is. -/
structure Proper (part : Text) : Prop where
  ne_nil : part ≠ []
  plain : ∀ c ∈ part, isSlash c = false ∧ c ≠ ':'
  last : ∀ c, part.getLast? = some c → c ≠ '.' ∧ c ≠ ' '

theorem Proper.component_eq {part : Text} (h : Proper part) (platform : Platform) :
    platform.component part = part := by
  cases platform with
  | unix => rfl
  | windows =>
    obtain ⟨init, c, rfl⟩ := (eq_nil_or_concat' part).resolve_left h.ne_nil
    have hlast := h.last c (by simp)
    exact trimEndMatches_eq_self (by simp [hlast])

theorem Proper.append {a b : Text} (ha : ∀ c ∈ a, isSlash c = false ∧ c ≠ ':') (hb : Proper b) :
    Proper (a ++ b) where
  ne_nil := by simp [hb.ne_nil]
  plain c hc := (mem_append.1 hc).elim (ha c) (hb.plain c)
  last c hc := hb.last c (by rwa [getLast?_append_of_ne_nil _ hb.ne_nil] at hc)

theorem cleaned_proper {value : Text} (h : cleaned value ≠ []) : Proper (cleaned value) where
  ne_nil := h
  plain c hc := by
    obtain ⟨d, -, rfl⟩ := mem_map.1 (trim_subset _ (trimEndMatches_subset _ _ hc))
    split_ifs with hd
    · decide
    · simp [isSlash] at hd ⊢
      tauto
  last c hc := by
    obtain ⟨r, hr⟩ := getLast?_eq_some_iff.1 hc
    simpa using trimEndMatches_eq_concat hr

theorem segment_proper (value : Text) : Proper (segment value) := by
  have hname : Proper (if cleaned value = [] then "database".toList else cleaned value) := by
    split_ifs with hempty
    · exact ⟨by decide, by decide, by simp⟩
    · exact cleaned_proper hempty
  unfold segment
  generalize (if cleaned value = [] then _ else _) = name at hname ⊢
  dsimp only
  split_ifs
  · exact .append hname.plain ⟨by decide, by decide, by simp⟩
  · exact hname

/-- The part of a name that may be that of a device. -/
theorem isReserved_eq (name : Text) :
    isReserved name = isReserved (name.takeWhile (· ≠ '.')) := by
  have htwice : (name.takeWhile (· ≠ '.')).takeWhile (· ≠ '.') = name.takeWhile (· ≠ '.') := by
    rw [takeWhile_takeWhile]
    simp
  rw [isReserved, isReserved, htwice]

/-- No name of a device ends with an underscore. -/
theorem isReserved_append_underscore {name : Text} (hdot : '.' ∉ name) (h : isReserved name) :
    isReserved (name ++ ['_']) = false := by
  have hall : ∀ c ∈ name, decide (c ≠ '.') := by
    intro c hc
    simpa using fun heq : c = '.' => hdot (heq ▸ hc)
  have hfirst : (name ++ ['_']).takeWhile (· ≠ '.') = name ++ ['_'] := by
    rw [takeWhile_append_of_pos hall]
    rfl
  have hupper : toAsciiUppercase (name ++ ['_']) = toAsciiUppercase name ++ ['_'] := map_append
  unfold isReserved at h ⊢
  rw [takeWhile_eq_self_iff.mpr hall] at h
  rw [hfirst, hupper]
  generalize toAsciiUppercase name = first at h ⊢
  dsimp only at h ⊢
  have hlong : byteLen (first ++ ['_']) = byteLen first + 1 := by
    rw [byteLen, map_append, sum_append]
    rfl
  have hnone : first ++ ['_'] ∉ ["CON", "PRN", "AUX", "NUL"].map String.toList := by
    intro hmem
    have hlast : some '_' ∈ (["CON", "PRN", "AUX", "NUL"].map String.toList).map getLast? :=
      mem_map.mpr ⟨_, hmem, getLast?_concat⟩
    exact absurd hlast (by decide)
  rw [Bool.or_eq_true, decide_eq_true_eq] at h
  rw [decide_eq_false hnone, Bool.false_or, hlong]
  rcases h with hmem | hport
  · -- the names of three letters make one of four that is no port
    have hthree : ∀ device ∈ ["CON", "PRN", "AUX", "NUL"].map String.toList,
        (device ++ ['_']).take 3 ∉ ["COM", "LPT"].map String.toList := by decide
    rw [decide_eq_false (hthree first hmem), Bool.and_false, Bool.false_and]
  · rw [Bool.and_eq_true, Bool.and_eq_true, decide_eq_true_eq] at hport
    simp [hport.1.1]

/-- The underscore behind the name of a device helps where the name has no extension: with one,
the part in front of the first dot stays what it was. -/
theorem isReserved_segment {value : Text} :
    isReserved (segment value) ↔ isReserved (cleaned value) ∧ '.' ∈ cleaned value := by
  have hdatabase : isReserved "database".toList = false := by decide
  have hnil : isReserved [] = false := by decide
  unfold segment
  by_cases hempty : cleaned value = []
  · simp only [hempty, if_true, hdatabase, hnil, Bool.false_eq_true, if_false, false_and]
  simp only [hempty, if_false]
  generalize cleaned value = name
  split
  · next hname =>
    rw [and_iff_right hname]
    by_cases hdot : '.' ∈ name
    · have hfirst : (name ++ ['_']).takeWhile (· ≠ '.') = name.takeWhile (· ≠ '.') := by
        rw [takeWhile_append, if_neg]
        intro hlength
        have hall := takeWhile_eq_self_iff.mp
          ((takeWhile_sublist (l := name) (· ≠ '.')).eq_of_length hlength)
        simpa using hall '.' hdot
      rw [isReserved_eq, hfirst, ← isReserved_eq]
      exact iff_of_true hname hdot
    · rw [isReserved_append_underscore hdot hname]
      exact iff_of_false Bool.false_ne_true hdot
  · next hname => simp [hname]

theorem Proper.leads {part : Text} (h : Proper part) : Leads part := by
  obtain ⟨c, rest, rfl⟩ := exists_cons_of_ne_nil h.ne_nil
  exact ⟨c, rest, rfl, (h.plain c mem_cons_self).1⟩

theorem Leads.replaceAll {pattern by' s : Text} (hs : Leads s) (hby : Leads by') :
    Leads (replaceAll pattern by' 0 s) := by
  obtain ⟨c, s, rfl, hc⟩ := hs
  obtain ⟨d, by', rfl, hd⟩ := hby
  rw [Backup.replaceAll]
  split_ifs
  · exact ⟨d, _, rfl, hd⟩
  · exact ⟨c, _, rfl, hc⟩

theorem Leads.fill {s : Text} (hs : Leads s) (run : NamedRun) (started : Stamp × Stamp) :
    Leads (run.fill started s) := by
  have hschedule := (segment_proper run.scheduleName).leads
  exact (((hs.replaceAll hschedule).replaceAll started.1.2).replaceAll started.2.2).replaceAll
    run.runId.2

theorem leads_of_validateTemplate {template : Text} {u : Unit}
    (h : validateTemplate template true = .ok u) : Leads template := by
  obtain ⟨_, hbounded, h⟩ := bind_eq_ok_iff.1 h
  rw [if_pos rfl, ensure_eq_ok_iff] at h
  simp only [Bool.not_eq_true', Bool.or_eq_false_iff] at h
  cases template with
  | nil => cases hbounded
  | cons c rest => exact ⟨c, rest, rfl, h.1.1.1⟩

/-! ## Components -/

theorem Proper.ne_dots {part : Text} (h : Proper part) :
    part ≠ ".".toList ∧ part ≠ "..".toList := by
  constructor <;> rintro rfl <;> exact absurd rfl (h.last '.' rfl).1

variable {parts : List Text} {p : Char → Bool}

theorem splitOn_intercalate (hp : p '/') (hne : parts ≠ [])
    (hparts : ∀ part ∈ parts, ∀ c ∈ part, p c = false) :
    splitOn p (['/'].intercalate parts) = parts := by
  induction parts with
  | nil => exact absurd rfl hne
  | cons part parts ih =>
    have hpart := hparts part mem_cons_self
    rcases parts with _ | ⟨next, parts⟩
    · rw [intercalate_singleton, Text.splitOn_eq_singleton hpart]
    · rw [intercalate_cons_cons, append_assoc, singleton_append, splitOn_append_cons hpart hp,
        ih (by simp) fun q hq => hparts q (mem_cons_of_mem _ hq)]

/-- **Proper components** lead strictly inside. -/
theorem resolve_proper (platform : Platform) (hne : parts ≠ [])
    (hparts : ∀ part ∈ parts, Proper part) :
    platform.isAbsolute (['/'].intercalate parts) = false ∧
      splitOn platform.isSeparator (['/'].intercalate parts) = parts ∧
      ∀ directory, platform.resolve directory (['/'].intercalate parts) = directory ++ parts := by
  have hplain : ∀ part ∈ parts, ∀ c ∈ part, platform.isSeparator c = false := by
    intro part hpart c hc
    have hslash := ((hparts part hpart).plain c hc).1
    cases platform
    · exact (Bool.or_eq_false_iff.1 hslash).1
    · exact hslash
  have hsplit : splitOn platform.isSeparator (['/'].intercalate parts) = parts :=
    splitOn_intercalate (by cases platform <;> rfl) hne hplain
  have habsolute : platform.isAbsolute (['/'].intercalate parts) = false := by
    rw [Platform.isAbsolute, hsplit]
    obtain ⟨part, rest, rfl⟩ := exists_cons_of_ne_nil hne
    have hpart := hparts part mem_cons_self
    simpa [hpart.ne_nil] using fun _ hc => (hpart.plain ':' hc).2 rfl
  refine ⟨habsolute, hsplit, fun directory => ?_⟩
  rw [Platform.resolve, hsplit, habsolute, if_neg Bool.false_ne_true]
  clear hsplit habsolute hne hplain
  induction parts generalizing directory with
  | nil => simp
  | cons part parts ih =>
    have hpart := hparts part mem_cons_self
    rw [foldl_cons, if_neg (not_or.2 ⟨hpart.ne_nil, hpart.ne_dots.1⟩), if_neg hpart.ne_dots.2,
      hpart.component_eq, ih (fun q hq => hparts q (mem_cons_of_mem _ hq))]
    simp

variable {template database rendered : Text}

theorem exists_proper {run : NamedRun} {directory : Bool}
    (h : renderTemplate template run database directory = .ok rendered) :
    ∃ parts, parts ≠ [] ∧ (∀ part ∈ parts, Proper part) ∧ ['/'].intercalate parts = rendered ∧
      (directory = false → Proper rendered) := by
  obtain ⟨_, hvalid, h⟩ := bind_eq_ok_iff.1 h
  obtain ⟨started, -, h⟩ := bind_eq_ok_iff.1 h
  cases directory with
  | false =>
    have hrendered : Proper rendered := by
      rw [if_neg Bool.false_ne_true] at h
      split_ifs at h <;> rw [← Except.ok.inj h]
      · exact segment_proper _
      · exact .append (segment_proper _).plain (.append (by decide) (segment_proper database))
    exact ⟨[rendered], by simp, by simpa, by simp, fun _ => hrendered⟩
  | true =>
    refine ⟨_, ?_, ?_, Except.ok.inj h, nofun⟩
    · obtain ⟨c, s, hs, hc⟩ := (leads_of_validateTemplate hvalid).fill run started
      rw [hs, Text.splitOn, if_neg (by simp [hc])]
      split <;> simp
    · simp only [mem_map]
      rintro _ ⟨part, -, rfl⟩
      exact segment_proper part

/-- **A rendered path lies strictly inside of the destination**, under the rules of Unix and of
Windows, and the name of a file is one component. -/
theorem renderTemplate_inside {run : NamedRun}
    {directory : Bool} (h : renderTemplate template run database directory = .ok rendered)
    (platform : Platform) :
    platform.isAbsolute rendered = false ∧
      (∀ part ∈ splitOn platform.isSeparator rendered,
        part ≠ [] ∧ part ≠ ".".toList ∧ part ≠ "..".toList) ∧
      (directory = false → ∀ c ∈ rendered, isSlash c = false) ∧
      ∀ destination, ∃ parts, parts ≠ [] ∧
        platform.resolve destination rendered = destination ++ parts := by
  obtain ⟨parts, hne, hproper, rfl, hfile⟩ := exists_proper h
  obtain ⟨habsolute, hsplit, hresolve⟩ := resolve_proper platform hne hproper
  refine ⟨habsolute, fun part hpart => ?_, fun hdirectory c hc => ((hfile hdirectory).plain c hc).1,
    fun destination => ⟨parts, hne, hresolve destination⟩⟩
  rw [hsplit] at hpart
  exact ⟨(hproper part hpart).ne_nil, (hproper part hpart).ne_dots⟩

/-- A schedule whose name would be a way out on Windows. -/
theorem renderTemplate_inside_daily :
    ∃ parts, parts ≠ [] ∧ Platform.windows.resolve ["backups".toList] "daily/.._.._C_x".toList =
      ["backups".toList] ++ parts := by
  let stamp : Stamp := ⟨"20260101".toList, _, _, rfl, by decide⟩
  have h : renderTemplate "daily/\x7bschedule\x7d".toList
    ⟨"..\\..\\C:x. ".toList, stamp, .ok (stamp, stamp)⟩ [] true = .ok "daily/.._.._C_x".toList := by
    decide
  exact (renderTemplate_inside h .windows).2.2.2 _

end Dbx.Backup
