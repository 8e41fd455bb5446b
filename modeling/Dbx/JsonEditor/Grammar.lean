import Mathlib.Data.UInt

/-!
# JSON texts

JSON texts as sequences of UTF-16 code units: a reader that takes one unit after the other and
collects tokens, and an automaton with a stack that builds the value from the tokens. The strings of
a value are code units, and numbers keep their digits.
-/

namespace Dbx.JsonEditor

abbrev Units := List UInt16

/-- The units of a text of characters that are one unit each. -/
def units (text : String) : Units := text.toList.map fun c => UInt16.ofNat c.toNat

/-! ## Tokens -/

/-- A token: a bracket, comma or colon, a string, or anything else without blanks. -/
inductive Token
  | mark (unit : UInt16)
  | word (text : Units)
  | string (text : Units)
  deriving DecidableEq, Repr

/-- Where the reader is. -/
inductive Mode
  | outside (word : Units)
  | string (text : Units)
  | escape (text : Units)
  /-- In a unicode escape, with the number of digits to come and the value of those read. -/
  | hex (text : Units) (left : Nat) (value : Nat)
  deriving DecidableEq, Repr

/-- Where the reader is, and the tokens behind it. -/
structure Reading where
  mode : Mode := .outside []
  tokens : List Token := []
  deriving DecidableEq, Repr

def flush (word : Units) : List Token := if word = [] then [] else [.word word]

/-- `{`, `}`, `[`, `]`, `,` and `:`. -/
def isMark (c : UInt16) : Bool := [123, 125, 91, 93, 44, 58].contains c

/-- Space, tabulator, line feed and carriage return. -/
def isBlank (c : UInt16) : Bool := [32, 9, 10, 13].contains c

def isDigit (c : UInt16) : Bool := 48 ≤ c && c ≤ 57

/-- The letters, digits and signs of numbers and literal names. -/
def isWordUnit (c : UInt16) : Bool :=
  isDigit c || (97 ≤ c && c ≤ 122) || (65 ≤ c && c ≤ 90) || [43, 45, 46].contains c

/-- The value of a hexadecimal digit. -/
def hexDigit (c : UInt16) : Option Nat :=
  if isDigit c then some (c.toNat - 48)
  else if 97 ≤ c && c ≤ 102 then some (c.toNat - 87)
  else if 65 ≤ c && c ≤ 70 then some (c.toNat - 55)
  else none

def shortEscape (c : UInt16) : Option UInt16 :=
  [(34, 34), (92, 92), (47, 47), (98, 8), (102, 12), (110, 10), (114, 13), (116, 9)].lookup c

/-- One unit is read. -/
def Reading.read (r : Reading) (c : UInt16) : Option Reading :=
  match r.mode with
  | .outside word =>
    if c = 34 then some ⟨.string [], r.tokens ++ flush word⟩
    else if isMark c then some ⟨.outside [], r.tokens ++ flush word ++ [.mark c]⟩
    else if isBlank c then some ⟨.outside [], r.tokens ++ flush word⟩
    else if isWordUnit c then some ⟨.outside (word ++ [c]), r.tokens⟩
    else none
  | .string text =>
    if c = 34 then some ⟨.outside [], r.tokens ++ [.string text]⟩
    else if c = 92 then some ⟨.escape text, r.tokens⟩
    else if c < 32 then none
    else some ⟨.string (text ++ [c]), r.tokens⟩
  | .escape text =>
    if c = 117 then some ⟨.hex text 4 0, r.tokens⟩
    else (shortEscape c).map fun unit => ⟨.string (text ++ [unit]), r.tokens⟩
  | .hex text left value => (hexDigit c).map fun digit =>
    if left = 1 then ⟨.string (text ++ [UInt16.ofNat (value * 16 + digit)]), r.tokens⟩
    else ⟨.hex text (left - 1) (value * 16 + digit), r.tokens⟩

def readFrom (r : Option Reading) (text : Units) : Option Reading :=
  r.bind (text.foldlM Reading.read)

/-- The tokens of a text. -/
def tokens (text : Units) : Option (List Token) :=
  (readFrom (some {}) text).bind fun r =>
    match r.mode with
    | .outside word => some (r.tokens ++ flush word)
    | _ => none

@[simp] theorem readFrom_nil (r : Option Reading) : readFrom r [] = r := by
  cases r <;> rfl

/-- Reading a text after another. -/
theorem readFrom_append (r : Option Reading) (text more : Units) :
    readFrom r (text ++ more) = readFrom (readFrom r text) more := by
  cases r with
  | none => rfl
  | some r =>
    unfold readFrom
    rw [Option.bind_some, List.foldlM_append]
    rfl

theorem readFrom_cons (r : Reading) (c : UInt16) (text : Units) :
    readFrom (some r) (c :: text) = readFrom (r.read c) text := by
  unfold readFrom
  rw [Option.bind_some]
  rfl

/-- What is read up to a point, when more is read. -/
theorem exists_readFrom {r : Option Reading} {text more : Units} {last : Reading}
    (h : readFrom r (text ++ more) = some last) :
    ∃ middle, readFrom r text = some middle ∧ readFrom (some middle) more = some last := by
  rw [readFrom_append] at h
  cases hmiddle : readFrom r text with
  | none =>
    rw [hmiddle] at h
    cases h
  | some middle =>
    rw [hmiddle] at h
    exact ⟨middle, rfl, h⟩

/-! ## Units beyond ASCII -/

theorem isWordUnit_lt {c : UInt16} (h : isWordUnit c) : c.toNat < 128 := by
  unfold isWordUnit isDigit at h
  simp only [Bool.or_eq_true, Bool.and_eq_true, decide_eq_true_eq, List.contains_iff_mem,
    List.mem_cons, List.not_mem_nil, or_false, UInt16.le_iff_toNat_le] at h
  have hlast : ∀ last : UInt16, last.toNat < 128 → c.toNat ≤ last.toNat → c.toNat < 128 :=
    fun last hlast hle => Nat.lt_of_le_of_lt hle hlast
  rcases h with ((⟨-, h⟩ | ⟨-, h⟩) | ⟨-, h⟩) | rfl | rfl | rfl
  · exact hlast 57 (by decide) h
  · exact hlast 122 (by decide) h
  · exact hlast 90 (by decide) h
  · decide
  · decide
  · decide

/-- **Units beyond ASCII stand in strings.** -/
theorem read_nonAscii {r r' : Reading} {c : UInt16} (hc : 128 ≤ c.toNat) (h : r.read c = some r') :
    ∃ text, r.mode = .string text ∧ r' = ⟨.string (text ++ [c]), r.tokens⟩ := by
  have hne : ∀ ascii : UInt16, ascii.toNat < 128 → c ≠ ascii := by
    rintro ascii hlt rfl
    omega
  have hlist : ∀ list : List UInt16, (list.all fun ascii => ascii.toNat < 128) →
      list.contains c = false := by
    intro list hlist
    rw [Bool.eq_false_iff, Ne, List.contains_iff_mem]
    exact fun hmem => hne c (of_decide_eq_true (List.all_eq_true.mp hlist c hmem)) rfl
  unfold Reading.read at h
  split at h
  · -- no unit beyond ASCII stands outside of strings
    have hword : isWordUnit c = false := by
      rw [Bool.eq_false_iff]
      exact fun hword => hne c (isWordUnit_lt hword) rfl
    rw [if_neg (hne 34 (by decide)), isMark, hlist _ (by decide), isBlank, hlist _ (by decide),
      hword]
      at h
    cases h
  · next text hmode =>
    have hcontrol : ¬ c < 32 := by
      intro hlt
      have hlt' : c.toNat < 32 := UInt16.lt_iff_toNat_lt.mp hlt
      omega
    rw [if_neg (hne 34 (by decide)), if_neg (hne 92 (by decide)), if_neg hcontrol] at h
    cases h
    exact ⟨text, hmode, rfl⟩
  · next text hmode =>
    have hshort : shortEscape c = none := by
      have hbeq : ∀ ascii : UInt16, ascii.toNat < 128 → (c == ascii) = false := by
        intro ascii hlt
        rw [beq_eq_false_iff_ne]
        exact hne ascii hlt
      simp [shortEscape, List.lookup_cons, hbeq]
    rw [if_neg (hne 117 (by decide)), hshort] at h
    cases h
  · next text left value hmode =>
    have hdigit : hexDigit c = none := by
      have hle : ∀ ascii : UInt16, ascii.toNat < 128 → decide (c ≤ ascii) = false := by
        intro ascii hlt
        rw [decide_eq_false_iff_not, UInt16.le_iff_toNat_le]
        omega
      simp [hexDigit, isDigit, hle]
    rw [hdigit] at h
    cases h

/-! ## Values -/

/-- The value of a text. -/
inductive Tree
  | null
  | bool (value : Bool)
  | number (digits : Units)
  | string (text : Units)
  | array (items : List Tree)
  | object (members : List (Units × Tree))
  deriving Repr

def isDigits (text : Units) : Bool := text ≠ [] && text.all isDigit

/-- The exponent of a number, which may be missing. -/
def isExponent : Units → Bool
  | [] => true
  | e :: rest =>
    (e = 101 || e = 69) && isDigits (if rest.head? = some 43 || rest.head? = some 45 then rest.tail
      else rest)

/-- What follows the integer part of a number. -/
def isFraction : Units → Bool
  | 46 :: rest => (rest.head?.map isDigit).getD false && isExponent (rest.dropWhile isDigit)
  | rest => isExponent rest

/-- A number without its sign. -/
def isUnsigned : Units → Bool
  | [] => false
  | first :: rest =>
    if first = 48 then isFraction rest else isDigit first && isFraction (rest.dropWhile isDigit)

/-- The value of a word. -/
def atom (word : Units) : Option Tree :=
  if word = units "null" then some .null
  else if word = units "true" then some (.bool true)
  else if word = units "false" then some (.bool false)
  else if isUnsigned (if word.head? = some 45 then word.tail else word) then some (.number word)
  else none

/-- What is built around a value. -/
inductive Frame
  | items (done : List Tree)
  | members (done : List (Units × Tree))
  | member (done : List (Units × Tree)) (key : Units)
  deriving Repr

/-- What may come next. -/
inductive Place
  /-- A value, or the end of an empty array. -/
  | value (closable : Bool)
  /-- A name, or the end of an empty object. -/
  | key (closable : Bool)
  | colon (key : Units)
  /-- A comma, or the end of an array or object. -/
  | after
  | done (value : Tree)
  deriving Repr

/-- The automaton. -/
structure Parsing where
  stack : List Frame := []
  place : Place := .value false
  deriving Repr

/-- A value is complete. -/
def put (value : Tree) : List Frame → Option Parsing
  | [] => some ⟨[], .done value⟩
  | .items done :: stack => some ⟨.items (done ++ [value]) :: stack, .after⟩
  | .member done key :: stack => some ⟨.members (done ++ [(key, value)]) :: stack, .after⟩
  | .members _ :: _ => none

/-- One token is taken. -/
def Parsing.step (p : Parsing) (token : Token) : Option Parsing :=
  match p.place, token with
  | .value _, .word word => (atom word).bind fun value => put value p.stack
  | .value _, .string text => put (.string text) p.stack
  | .value closable, .mark c =>
    if c = 91 then some ⟨.items [] :: p.stack, .value true⟩
    else if c = 123 then some ⟨.members [] :: p.stack, .key true⟩
    else if c = 93 && closable then
      match p.stack with
      | .items done :: stack => put (.array done) stack
      | _ => none
    else none
  | .key _, .string key => some ⟨p.stack, .colon key⟩
  | .key closable, .mark c =>
    if c = 125 && closable then
      match p.stack with
      | .members done :: stack => put (.object done) stack
      | _ => none
    else none
  | .colon key, .mark c =>
    if c = 58 then
      match p.stack with
      | .members done :: stack => some ⟨.member done key :: stack, .value false⟩
      | _ => none
    else none
  | .after, .mark c =>
    match p.stack with
    | .items done :: stack =>
      if c = 44 then some ⟨.items done :: stack, .value false⟩
      else if c = 93 then put (.array done) stack
      else none
    | .members done :: stack =>
      if c = 44 then some ⟨.members done :: stack, .key false⟩
      else if c = 125 then put (.object done) stack
      else none
    | _ => none
  | _, _ => none

/-- The value of a text, if it is valid. -/
def parse (text : Units) : Option Tree :=
  (tokens text).bind fun tokens =>
    (tokens.foldlM Parsing.step {}).bind fun p =>
      match p.place with
      | .done value => some value
      | _ => none

theorem parse_congr {text text' : Units}
    (h : readFrom (some {}) text = readFrom (some {}) text') : parse text = parse text' := by
  rw [parse, tokens, h]
  rfl

theorem exists_readFrom_of_parse {text : Units} {value : Tree} (h : parse text = some value) :
    ∃ last, readFrom (some {}) text = some last := by
  cases hread : readFrom (some {}) text with
  | none =>
    rw [parse, tokens, hread] at h
    cases h
  | some last => exact ⟨last, rfl⟩

end Dbx.JsonEditor
