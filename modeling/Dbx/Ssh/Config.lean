import Dbx.Text.Basic

/-!
# SSH client configuration

The loader reads `Host` blocks of an OpenSSH client configuration line by line. A `Host` line adds
an entry for each of its aliases, and a later line sets a field of every entry that has one of the
aliases of its block, also of entries that earlier blocks have added. An alias is then looked up as
the first entry that has it. OpenSSH uses the first value it finds, while an assignment here
replaces what an earlier line has set: the value that is used is the last one.

`Include` lines are not followed, as in text that stands on its own.
-/

namespace Dbx.Ssh

open Text List

/-- `SshConfigHostEntry`. -/
structure Entry where
  hostAlias : Text
  hostName : Option Text
  port : Option Nat
  user : Option Text
  identityFile : Option Text
  identityFiles : List Text
  identitiesOnly : Bool
  proxyJump : Option Text
  proxyCommand : Option Text
  deriving DecidableEq, Repr

/-- `SshConfigHostEntry::new`. -/
def Entry.new (hostAlias : Text) : Entry :=
  ⟨hostAlias, none, none, none, none, [], false, none, none⟩

/-- The assignments of a block. -/
inductive Setting
  | hostName (value : Text)
  | port (value : Nat)
  | user (value : Text)
  | identityFile (value : Text)
  | identitiesOnly (value : Bool)
  | proxyCommand (value : Text)
  | proxyJump (value : Text)
  deriving DecidableEq, Repr

/-- What an assignment does to an entry. -/
def Setting.apply (entry : Entry) : Setting → Entry
  | .hostName value => { entry with hostName := some value }
  | .port value => { entry with port := some value }
  | .user value => { entry with user := some value }
  | .identityFile value =>
    { entry with identityFile := some value, identityFiles := entry.identityFiles ++ [value] }
  | .identitiesOnly value => { entry with identitiesOnly := value }
  | .proxyCommand value => { entry with proxyCommand := some value }
  | .proxyJump value => { entry with proxyJump := some value }

/-- What a line says. -/
inductive Directive
  | host (aliases : List Text)
  | matchHost (aliases : List Text)
  | set (setting : Setting)
  | includes (value : Text)
  | other
  deriving DecidableEq, Repr

/-! ### Reading a line -/

/-- `strip_comment`. -/
def stripComment (line : Text) : Text := line.takeWhile (· ≠ '#')

/-- `split_directive`: the keyword and the value of a line. -/
def splitDirective (line : Text) : Option (Text × Text) :=
  let line := trim line
  let separates (c : Char) : Bool := isWhitespace c || c = '='
  let keyword := line.takeWhile fun c => !separates c
  let value := trim ((line.dropWhile fun c => !separates c).dropWhile separates)
  if line.any separates && !keyword.isEmpty && !value.isEmpty then some (keyword, value) else none

/-- `str::parse::<u16>`. -/
def parseU16 (text : Text) : Option Nat :=
  let digits := (stripPrefix ['+'] text).getD text
  if digits.isEmpty || !digits.all Char.isDigit then none
  else
    let n := Nat.ofDigitChars 10 digits 0
    if n < 2 ^ 16 then some n else none

/-- `parse_yes_no`. -/
def parseYesNo (value : Text) : Option Bool :=
  if eqIgnoreAsciiCase value ['y', 'e', 's'] then some true
  else if eqIgnoreAsciiCase value ['n', 'o'] then some false
  else none

def isLiteral (hostAlias : Text) : Bool := '*' ∉ hostAlias && '?' ∉ hostAlias

/-- `match_host_aliases`. -/
def matchHostAliases (value : Text) : Option (List Text) :=
  match splitWhitespace value with
  | criterion :: rest =>
    let aliases := rest.filter isLiteral
    if eqIgnoreAsciiCase criterion "host".toList && !aliases.isEmpty then some aliases else none
  | [] => none

/-- The first hop of a `ProxyJump` line, where it is a plain alias. -/
def firstHop (value : Text) : Option Text :=
  let hop := trim ((splitOn (· = ',') value).headD [])
  if hop.isEmpty || '@' ∈ hop || ':' ∈ hop then none else some hop

def assign {α : Type} (setting : α → Setting) (value : Option α) : Directive :=
  (value.map fun v => Directive.set (setting v)).getD .other

/-- The directive of a keyword, in lower case, and a value. -/
def directiveOf (keyword value : Text) : Directive :=
  if keyword = "include".toList then .includes value
  else if keyword = "host".toList then .host ((splitWhitespace value).filter isLiteral)
  else if keyword = "match".toList then .matchHost ((matchHostAliases value).getD [])
  else if keyword = "hostname".toList then .set (.hostName value)
  else if keyword = "port".toList then assign .port (parseU16 value)
  else if keyword = "user".toList then .set (.user value)
  else if keyword = "identityfile".toList then .set (.identityFile value)
  else if keyword = "identitiesonly".toList then assign .identitiesOnly (parseYesNo value)
  else if keyword = "proxycommand".toList then .set (.proxyCommand value)
  else if keyword = "proxyjump".toList then assign .proxyJump (firstHop value)
  else .other

/-- What a line says. -/
def directive (line : Text) : Directive :=
  match splitDirective (trim (stripComment line)) with
  | some (keyword, value) => directiveOf (toAsciiLowercase keyword) value
  | none => .other

def directives (content : Text) : List Directive := (lines content).map directive

/-! ### The loader -/

/-- `SshConfigLoader`. -/
structure Loader where
  entries : List Entry
  currentAliases : List Text
  matchEntries : List Entry
  currentIsMatch : Bool
  deriving DecidableEq, Repr

/-- `SshConfigLoader::new`. -/
def Loader.new : Loader := ⟨[], [], [], false⟩

/-- The entry after an assignment, which applies if it has an alias of the current block. -/
def Loader.update (loader : Loader) (setting : Setting) (entry : Entry) : Entry :=
  if entry.hostAlias ∈ loader.currentAliases then setting.apply entry else entry

/-- `set_current_field`. -/
def Loader.setCurrentField (loader : Loader) (setting : Setting) : Loader :=
  if loader.currentIsMatch then
    { loader with matchEntries := loader.matchEntries.map (loader.update setting) }
  else { loader with entries := loader.entries.map (loader.update setting) }

/-- The entry of an alias of a `Match` line, unless there is one. -/
def addMatchEntry (entries : List Entry) (hostAlias : Text) : List Entry :=
  if entries.any (·.hostAlias = hostAlias) then entries else entries ++ [.new hostAlias]

/-- One line of `parse_lines`. -/
def Loader.step (loader : Loader) : Directive → Loader
  | .host aliases =>
    { loader with entries := loader.entries ++ aliases.map Entry.new
                  currentAliases := aliases
                  currentIsMatch := false }
  | .matchHost aliases =>
    { loader with currentAliases := aliases
                  matchEntries := aliases.foldl addMatchEntry loader.matchEntries
                  currentIsMatch := true }
  | .set setting => loader.setCurrentField setting
  | .includes _ => loader
  | .other => loader

/-- What a `Match` block adds to the entry of its alias. -/
def Entry.enrich (entry condition : Entry) : Entry :=
  { entry with
    hostName := entry.hostName.or condition.hostName
    port := entry.port.or condition.port
    user := entry.user.or condition.user
    proxyCommand := entry.proxyCommand.or condition.proxyCommand
    proxyJump := entry.proxyJump.or condition.proxyJump
    identitiesOnly := entry.identitiesOnly || condition.identitiesOnly
    identityFiles := condition.identityFiles.foldl
      (fun files file => if file ∈ files then files else files ++ [file]) entry.identityFiles
    identityFile := entry.identityFile.or condition.identityFile }

/-- The `Match` block of an alias is folded into its first entry, or becomes one. -/
def mergeMatchEntry (entries : List Entry) (condition : Entry) : List Entry :=
  match entries.findIdx? (·.hostAlias = condition.hostAlias) with
  | some i => entries.modify i (·.enrich condition)
  | none => entries ++ [condition]

open Loader

/-- `parse_ssh_config`. -/
def parse (content : Text) : List Entry :=
  let loader := (directives content).foldl Loader.step Loader.new
  loader.matchEntries.foldl mergeMatchEntry loader.entries

def find (entries : List Entry) (hostAlias : Text) : Option Entry :=
  entries.find? (·.hostAlias = hostAlias)

/-! ### The values of a field -/

/-- The fields of which OpenSSH uses the first value. -/
inductive Field
  | hostName
  | port
  | user
  | proxyJump
  | proxyCommand
  deriving DecidableEq, Repr

/-- A value of a field. -/
inductive Value
  | text (value : Text)
  | number (value : Nat)
  deriving DecidableEq, Repr

/-- The value of a field in an entry. -/
def Entry.value (field : Field) (entry : Entry) : Option Value :=
  match field with
  | .hostName => entry.hostName.map .text
  | .port => entry.port.map .number
  | .user => entry.user.map .text
  | .proxyJump => entry.proxyJump.map .text
  | .proxyCommand => entry.proxyCommand.map .text

/-- The value that an assignment gives to a field. -/
def Setting.value (field : Field) (setting : Setting) : Option Value :=
  match field, setting with
  | .hostName, .hostName value => some (.text value)
  | .port, .port value => some (.number value)
  | .user, .user value => some (.text value)
  | .proxyJump, .proxyJump value => some (.text value)
  | .proxyCommand, .proxyCommand value => some (.text value)
  | _, _ => none

/-- The assignments of the blocks of an alias, where the aliases of the current block are given. -/
def settingsFor (hostAlias : Text) : List Text → List Directive → List Setting
  | _, [] => []
  | current, d :: ds =>
    match d with
    | .host aliases => settingsFor hostAlias aliases ds
    | .set setting =>
      if hostAlias ∈ current then setting :: settingsFor hostAlias current ds
      else settingsFor hostAlias current ds
    | _ => settingsFor hostAlias current ds

/-- The values that the lines of a text give to a field of an alias, in their order. -/
def valuesFor (content hostAlias : Text) (field : Field) : List Value :=
  (settingsFor hostAlias [] (directives content)).filterMap (Setting.value field)

/-- The value of the first line that applies, which is the one OpenSSH uses. -/
def firstValue (content hostAlias : Text) (field : Field) : Option Value :=
  (valuesFor content hostAlias field).head?

def lastValue (content hostAlias : Text) (field : Field) : Option Value :=
  (valuesFor content hostAlias field).getLast?

/-- The value of a field that is used for an alias. -/
def used (entries : List Entry) (hostAlias : Text) (field : Field) : Option Value :=
  (find entries hostAlias).bind (Entry.value field)

/-- The line is no `Match` and no `Include` line. -/
def Directive.IsPlain : Directive → Prop
  | .matchHost _ | .includes _ => False
  | _ => True

instance : (d : Directive) → Decidable d.IsPlain
  | .matchHost _ | .includes _ => .isFalse id
  | .host _ | .set _ | .other => .isTrue trivial

/-- The text is made of `Host` blocks, without `Match` and `Include` lines. -/
def HostBlocks (content : Text) : Prop := ∀ d ∈ directives content, d.IsPlain

/-! ### The last value is used -/

theorem Setting.apply_alias (entry : Entry) (setting : Setting) :
    (setting.apply entry).hostAlias = entry.hostAlias := by
  cases setting <;> rfl

theorem Setting.value_apply (field : Field) (entry : Entry) (setting : Setting) :
    (setting.apply entry).value field = (setting.value field).or (entry.value field) := by
  cases setting <;> cases field <;> rfl

theorem find_map (entries : List Entry) (hostAlias : Text) {f : Entry → Entry}
    (hf : ∀ e, (f e).hostAlias = e.hostAlias) :
    find (entries.map f) hostAlias = (find entries hostAlias).map f := by
  have hsame : ((fun e : Entry => decide (e.hostAlias = hostAlias)) ∘ f) =
      fun e => decide (e.hostAlias = hostAlias) := by
    funext e
    simp [hf e]
  rw [find, find, find?_map, hsame]

theorem find_append (entries more : List Entry) (hostAlias : Text) :
    find (entries ++ more) hostAlias = (find entries hostAlias).or (find more hostAlias) :=
  find?_append

theorem value_find_new (aliases : List Text) (hostAlias : Text) (field : Field) :
    (find (aliases.map .new) hostAlias).bind (Entry.value field) = none := by
  cases hfind : find (aliases.map .new) hostAlias with
  | none => rfl
  | some entry =>
    obtain ⟨name, -, rfl⟩ := List.mem_map.mp (mem_of_find?_eq_some hfind)
    cases field <;> rfl

theorem find_new_ne_none {aliases : List Text} {hostAlias : Text} (h : hostAlias ∈ aliases) :
    find (aliases.map .new) hostAlias ≠ none := by
  intro hnone
  have hnot := List.find?_eq_none.mp hnone (.new hostAlias) (mem_map_of_mem h)
  simp [Entry.new] at hnot

/-- What the loader keeps while it reads `Host` blocks: the aliases of the block have entries. -/
structure Loader.Plain (loader : Loader) : Prop where
  currentIsMatch : loader.currentIsMatch = false
  matchEntries : loader.matchEntries = []
  current : ∀ hostAlias ∈ loader.currentAliases, find loader.entries hostAlias ≠ none

theorem Loader.Plain.new : Loader.new.Plain := ⟨rfl, rfl, by simp [Loader.new]⟩

theorem Loader.update_alias (loader : Loader) (setting : Setting) (entry : Entry) :
    (loader.update setting entry).hostAlias = entry.hostAlias := by
  unfold update
  split
  · exact setting.apply_alias entry
  · rfl

variable {loader : Loader}

theorem Loader.step_set_of_plain (h : loader.Plain) (setting : Setting) :
    loader.step (.set setting) =
      { loader with entries := loader.entries.map (loader.update setting) } := by
  simp [Loader.step, setCurrentField, h.currentIsMatch]

/-- A line of a `Host` block keeps it a plain reading. -/
theorem Loader.Plain.step (h : loader.Plain) {d : Directive} (hd : d.IsPlain) :
    (loader.step d).Plain := by
  cases d with
  | host aliases =>
    refine ⟨rfl, h.matchEntries, ?_⟩
    intro hostAlias halias
    show find (loader.entries ++ aliases.map .new) hostAlias ≠ none
    rw [find_append]
    intro hnone
    exact find_new_ne_none halias (Option.or_eq_none_iff.mp hnone).2
  | set setting =>
    rw [step_set_of_plain h]
    refine ⟨h.currentIsMatch, h.matchEntries, ?_⟩
    intro hostAlias halias
    show find (loader.entries.map (loader.update setting)) hostAlias ≠ none
    rw [find_map _ _ (loader.update_alias setting)]
    simpa using h.current hostAlias halias
  | matchHost aliases | includes value => exact hd.elim
  | other => exact h

theorem getLast?_filterMap_cons {α β : Type} (f : α → Option β) (a : α) (l : List α) :
    ((a :: l).filterMap f).getLast? = (l.filterMap f).getLast?.or (f a) := by
  cases hf : f a with
  | none => simp [hf]
  | some b => cases hl : (l.filterMap f).getLast? <;> simp [hf, getLast?_cons, hl]

/-- The value in use after some more lines: the last one they give, or the one before. -/
theorem used_foldl (h : loader.Plain) {ds : List Directive}
    (hds : ∀ d ∈ ds, d.IsPlain) (hostAlias : Text) (field : Field) :
    used (ds.foldl .step loader).entries hostAlias field =
      ((settingsFor hostAlias loader.currentAliases ds).filterMap (Setting.value field)).getLast?.or
        (used loader.entries hostAlias field) := by
  induction ds generalizing loader with
  | nil => rfl
  | cons d ds ih =>
    have hd := hds d (mem_cons_self ..)
    rw [foldl_cons, ih (h.step hd) fun e he => hds e (mem_cons_of_mem _ he)]
    cases d with
    | host aliases =>
      -- new entries stand behind the old ones and have no values yet
      have hused : used (loader.step (.host aliases)).entries hostAlias field =
          used loader.entries hostAlias field := by
        show (find (loader.entries ++ aliases.map .new) hostAlias).bind _ = _
        rw [find_append]
        cases hfind : find loader.entries hostAlias with
        | none => simpa [used, hfind] using value_find_new aliases hostAlias field
        | some entry => simp [used, hfind]
      rw [hused]
      rfl
    | set setting =>
      rw [step_set_of_plain h]
      have hfind : find (loader.entries.map (loader.update setting)) hostAlias =
          (find loader.entries hostAlias).map (loader.update setting) :=
        find_map _ _ (loader.update_alias setting)
      by_cases halias : hostAlias ∈ loader.currentAliases
      · -- the entry of the alias is there, and the assignment replaces its value
        obtain ⟨entry, hentry⟩ := Option.ne_none_iff_exists'.mp (h.current hostAlias halias)
        have hname : entry.hostAlias = hostAlias := by simpa using find?_some hentry
        simp only [settingsFor, if_pos halias, getLast?_filterMap_cons, used, hfind, hentry,
          Option.map_some, Option.bind_some, update, hname, setting.value_apply,
          Option.or_assoc]
      · have hsame : used (loader.entries.map (loader.update setting)) hostAlias field =
            used loader.entries hostAlias field := by
          cases hentry : find loader.entries hostAlias with
          | none => simp [used, hfind, hentry]
          | some entry =>
            have hname : entry.hostAlias = hostAlias := by simpa using find?_some hentry
            simp [used, hfind, hentry, update, hname, halias]
        simp only [settingsFor, if_neg halias, hsame]
    | matchHost aliases | includes value => exact hd.elim
    | other => rfl

/-- A reading of `Host` blocks stays plain. -/
theorem Loader.Plain.foldl (h : loader.Plain) {ds : List Directive}
    (hds : ∀ d ∈ ds, d.IsPlain) : (ds.foldl .step loader).Plain := by
  induction ds generalizing loader with
  | nil => exact h
  | cons d ds ih =>
    apply ih (h.step (hds d (mem_cons_self ..)))
    intro e he
    exact hds e (mem_cons_of_mem _ he)

/-- **The value that is used for an alias is the last one given.** -/
theorem used_parse {content : Text} (h : HostBlocks content) (hostAlias : Text) (field : Field) :
    used (parse content) hostAlias field = lastValue content hostAlias field := by
  have hplain := Loader.Plain.new.foldl h
  have hparse : parse content = ((directives content).foldl .step Loader.new).entries := by
    simp [parse, hplain.matchEntries]
  rw [hparse, used_foldl .new h hostAlias field]
  simp [lastValue, valuesFor, used, find, Loader.new]

end Dbx.Ssh
