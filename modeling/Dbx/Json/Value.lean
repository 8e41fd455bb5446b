import Dbx.Text.Basic

/-!
# JSON values

The cells of a query result are JSON values. Numbers keep the digits they were read with, and
objects keep the order of their members but compare without regard to it. The compact text of a
value escapes control characters.

## Main definitions

* `JsonType V`: what the development uses of a type of JSON values
* `Value`, `stringify`, `Value.eq`: the values, their text and their equality

## Main results

* `not_mem_stringify`: no text has a unit separator
-/

namespace Dbx

open List

/-- The character that separates the texts of values. -/
def Json.unitSeparator : Char := Char.ofNat 0x1F

/-- A type of JSON values: the null value, equality, and the compact text. Equality is an
equivalence, values with one text are equal, and no text has a unit separator. -/
structure JsonType (V : Type) where
  null : V
  eq : V → V → Bool
  stringify : V → Text
  eq_refl : ∀ a, eq a a = true
  eq_symm : ∀ a b, eq a b = true → eq b a = true
  eq_trans : ∀ a b c, eq a b = true → eq b c = true → eq a c = true
  eq_of_stringify : ∀ a b, stringify a = stringify b → eq a b = true
  separator : ∀ a, Json.unitSeparator ∉ stringify a

namespace Json

/-- The characters of numbers. -/
def numberChars : Text := "0123456789+-.eE".toList

/-- A number, by the text it was read from. -/
structure Number where
  digits : Text
  digits_ne : digits ≠ []
  digits_json : ∀ c ∈ digits, c ∈ numberChars
  deriving DecidableEq, Repr

/-- `serde_json::Value`. -/
inductive Value
  | null
  | bool (b : Bool)
  | number (n : Number)
  | string (s : Text)
  | array (items : List Value)
  | object (members : List (Text × Value))

/-- The member of an object with a name. -/
def member (name : Text) : List (Text × Value) → Option Value
  | [] => none
  | (name', value) :: members => if name' = name then some value else member name members

mutual

/-- `Value::eq`: objects are equal when they have the same members. -/
def Value.eq : Value → Value → Bool
  | .null, .null => true
  | .bool a, .bool b => a = b
  | .number a, .number b => a = b
  | .string a, .string b => a = b
  | .array as, .array bs => eqItems as bs
  | .object as, .object bs => as.length = bs.length && eqMembers as bs
  | _, _ => false

/-- Equality of arrays. -/
def eqItems : List Value → List Value → Bool
  | [], [] => true
  | a :: as, b :: bs => a.eq b && eqItems as bs
  | _, _ => false

/-- The members are members of another object. -/
def eqMembers : List (Text × Value) → List (Text × Value) → Bool
  | [], _ => true
  | (name, a) :: as, bs => (member name bs).any (a.eq ·) && eqMembers as bs

end

def hexDigit (n : Nat) : Char := "0123456789abcdef".toList.getD n '0'

/-- The escape of a character in a string. -/
def escapeChar (c : Char) : Text :=
  if c = '"' then "\\\"".toList
  else if c = '\\' then "\\\\".toList
  else if c.toNat = 8 then "\\b".toList
  else if c.toNat = 9 then "\\t".toList
  else if c.toNat = 10 then "\\n".toList
  else if c.toNat = 12 then "\\f".toList
  else if c.toNat = 13 then "\\r".toList
  else if c.toNat < 32 then "\\u00".toList ++ [hexDigit (c.toNat / 16), hexDigit (c.toNat % 16)]
  else [c]

def stringifyString (s : Text) : Text := '"' :: s.flatMap escapeChar ++ ['"']

mutual

/-- `serde_json::to_string`. -/
def stringify : Value → Text
  | .null => "null".toList
  | .bool true => "true".toList
  | .bool false => "false".toList
  | .number n => n.digits
  | .string s => stringifyString s
  | .array items => '[' :: stringifyItems true items ++ [']']
  | .object members => '\x7b' :: stringifyMembers true members ++ ['\x7d']

/-- The items of an array, the first one without a comma. -/
def stringifyItems (first : Bool) : List Value → Text
  | [] => []
  | item :: items => (if first then [] else [',']) ++ stringify item ++ stringifyItems false items

/-- The members of an object, the first one without a comma. -/
def stringifyMembers (first : Bool) : List (Text × Value) → Text
  | [] => []
  | (name, value) :: members =>
    (if first then [] else [',']) ++ stringifyString name ++ ':' :: stringify value ++
      stringifyMembers false members

end

theorem hexDigit_ne (n : Nat) : hexDigit n ≠ unitSeparator := by
  have hdigits : ∀ i : Fin 16, hexDigit i ≠ unitSeparator := by decide
  by_cases h : n < 16
  · exact hdigits ⟨n, h⟩
  · have hnone : "0123456789abcdef".toList[n]? = none := getElem?_eq_none (by simpa using h)
    rw [hexDigit, List.getD, hnone]
    decide

theorem not_mem_escapeChar (c : Char) : unitSeparator ∉ escapeChar c := by
  have hhigh := hexDigit_ne (c.toNat / 16)
  have hlow := hexDigit_ne (c.toNat % 16)
  have hplain (h : ¬ c.toNat < 32) : unitSeparator ≠ c := by
    rintro rfl
    exact h (by decide)
  unfold escapeChar
  repeat' split
  all_goals first
    | decide
    | skip
  · simp only [mem_append, mem_cons, not_mem_nil, or_false, not_or]
    exact ⟨by decide, hhigh.symm, hlow.symm⟩
  · simpa using hplain ‹_›

theorem not_mem_stringifyString (s : Text) : unitSeparator ∉ stringifyString s := by
  simp only [stringifyString, mem_append, mem_cons, mem_flatMap,
    not_mem_nil, or_false, not_or, not_exists, not_and]
  exact ⟨⟨by decide, fun c _ => not_mem_escapeChar c⟩, by decide⟩

mutual

/-- **A text has no unit separator**, whatever its strings contain. -/
theorem not_mem_stringify : ∀ value, unitSeparator ∉ stringify value
  | .null => by decide
  | .bool true => by decide
  | .bool false => by decide
  | .number n => fun h => absurd (n.digits_json _ h) (by decide)
  | .string s => not_mem_stringifyString s
  | .array items => by
    have hitems := not_mem_stringifyItems true items
    simp only [stringify, mem_append, mem_cons, not_mem_nil, or_false, not_or]
    exact ⟨⟨by decide, hitems⟩, by decide⟩
  | .object members => by
    have hmembers := not_mem_stringifyMembers true members
    simp only [stringify, mem_append, mem_cons, not_mem_nil, or_false, not_or]
    exact ⟨⟨by decide, hmembers⟩, by decide⟩

theorem not_mem_stringifyItems : ∀ (first : Bool) (items : List Value),
    unitSeparator ∉ stringifyItems first items
  | _, [] => by simp [stringifyItems]
  | first, item :: items => by
    have hitem := not_mem_stringify item
    have hitems := not_mem_stringifyItems false items
    have hcomma : unitSeparator ∉ if first then [] else [','] := by cases first <;> decide
    simp only [stringifyItems, mem_append, not_or]
    exact ⟨⟨hcomma, hitem⟩, hitems⟩

theorem not_mem_stringifyMembers : ∀ (first : Bool) (members : List (Text × Value)),
    unitSeparator ∉ stringifyMembers first members
  | _, [] => by simp [stringifyMembers]
  | first, (name, value) :: members => by
    have hname := not_mem_stringifyString name
    have hvalue := not_mem_stringify value
    have hmembers := not_mem_stringifyMembers false members
    have hcomma : unitSeparator ∉ if first then [] else [','] := by cases first <;> decide
    simp only [stringifyMembers, mem_append, mem_cons, not_or]
    exact ⟨⟨⟨hcomma, hname⟩, by decide, hvalue⟩, hmembers⟩

end

end Json

end Dbx
