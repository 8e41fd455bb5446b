import Mathlib.Data.UInt

/-!
# Prefix codes

A prefix code writes values as bytes such that a value is read back in front of any other bytes.
Codes of pairs, alternatives and lists are built from codes of their parts.

## Main definitions

* `PrefixCode`: a code and what makes it one
* `PrefixCode.fixed`, `PrefixCode.unary`, `PrefixCode.char`: numbers and characters
* `PrefixCode.prod`, `PrefixCode.sum`, `PrefixCode.list`, `PrefixCode.retract`: composed codes

## Main results

* `leValue_leBytes`: the bytes of a number, little end first, hold it up to their width
* `PrefixCode.decodeList_encodeList`: a list is read back
-/

namespace Dbx

/-- Values are written as bytes, and read back in front of others. -/
structure PrefixCode (α : Type) where
  encode : α → List UInt8
  decode : List UInt8 → Option (α × List UInt8)
  decode_encode : ∀ value rest, decode (encode value ++ rest) = some (value, rest)

/-- The lowest bytes of a number. -/
def leBytes : Nat → Nat → List UInt8
  | 0, _ => []
  | width + 1, n => UInt8.ofNat n :: leBytes width (n / 256)

/-- The number that bytes hold. -/
def leValue : List UInt8 → Nat
  | [] => 0
  | byte :: rest => byte.toNat + 256 * leValue rest

@[simp] theorem length_leBytes (width n : Nat) : (leBytes width n).length = width := by
  induction width generalizing n with
  | zero => rfl
  | succ width ih => rw [leBytes, List.length_cons, ih]

theorem leValue_leBytes (width n : Nat) : leValue (leBytes width n) = n % 256 ^ width := by
  induction width generalizing n with
  | zero => rw [Nat.pow_zero, Nat.mod_one, leBytes, leValue]
  | succ width ih =>
    rw [leBytes, leValue, ih, Nat.pow_succ, Nat.mul_comm (256 ^ width), Nat.mod_mul]
    rfl

namespace PrefixCode

open List

variable {α β : Type}

/-- A number of a fixed width. -/
def fixed (width : Nat) : PrefixCode (Fin (256 ^ width)) where
  encode n := leBytes width n
  decode input := if width ≤ input.length then
      some (⟨leValue (input.take width) % 256 ^ width, Nat.mod_lt _ (Nat.pow_pos (by decide))⟩,
        input.drop width)
    else none
  decode_encode n rest := by
    have htake : (leBytes width n ++ rest).take width = leBytes width n :=
      take_left' (length_leBytes width n)
    have hdrop : (leBytes width n ++ rest).drop width = rest :=
      drop_left' (length_leBytes width n)
    have hvalue : leValue (leBytes width n) % 256 ^ width = n := by
      rw [leValue_leBytes, Nat.mod_mod, Nat.mod_eq_of_lt n.isLt]
    simp [htake, hdrop, hvalue]

/-- A number of any size. -/
def decodeUnary : List UInt8 → Option (Nat × List UInt8)
  | [] => none
  | byte :: rest =>
    if byte = 0 then some (0, rest) else (decodeUnary rest).map fun read => (read.1 + 1, read.2)

theorem decodeUnary_replicate (n : Nat) (rest : List UInt8) :
    decodeUnary (replicate n 1 ++ 0 :: rest) = some (n, rest) := by
  induction n with
  | zero => rfl
  | succ n ih =>
    rw [replicate_succ, cons_append, decodeUnary, ih]
    rfl

/-- A number of any size. -/
def unary : PrefixCode Nat where
  encode n := replicate n 1 ++ [0]
  decode := decodeUnary
  decode_encode n rest := by
    rw [append_assoc]
    exact decodeUnary_replicate n rest

variable (code : PrefixCode α)

/-- Values that are found in others. -/
def retract (f : β → α) (g : α → β) (h : ∀ value, g (f value) = value) : PrefixCode β where
  encode value := code.encode (f value)
  decode input := (code.decode input).map fun read => (g read.1, read.2)
  decode_encode value rest := by
    rw [code.decode_encode, Option.map_some, h]

/-- Two values. -/
def prod (first : PrefixCode α) (second : PrefixCode β) : PrefixCode (α × β) where
  encode value := first.encode value.1 ++ second.encode value.2
  decode input := do
    let (a, input) ← first.decode input
    let (b, input) ← second.decode input
    return ((a, b), input)
  decode_encode value rest := by
    simp only [append_assoc, first.decode_encode, Option.bind_eq_bind, Option.bind_some,
      second.decode_encode]
    rfl

/-- One of two values. -/
def sum (left : PrefixCode α) (right : PrefixCode β) : PrefixCode (α ⊕ β) where
  encode
    | .inl a => 0 :: left.encode a
    | .inr b => 1 :: right.encode b
  decode
    | [] => none
    | byte :: input =>
      if byte = 0 then (left.decode input).map fun read => (.inl read.1, read.2)
      else (right.decode input).map fun read => (.inr read.1, read.2)
  decode_encode value rest := by
    cases value with
    | inl a => simp [left.decode_encode]
    | inr b => simp [right.decode_encode]

/-- A mark stands before each value, and another behind the last. -/
def encodeList (code : PrefixCode α) : List α → List UInt8
  | [] => [0]
  | value :: values => 1 :: (code.encode value ++ encodeList code values)

/-- A list is read while there is fuel. -/
def decodeList (code : PrefixCode α) : Nat → List UInt8 → Option (List α × List UInt8)
  | 0, _ => none
  | _ + 1, [] => none
  | fuel + 1, byte :: input =>
    if byte = 0 then some ([], input)
    else do
      let (value, input) ← code.decode input
      let (values, input) ← decodeList code fuel input
      return (value :: values, input)

theorem length_lt_encodeList (values : List α) :
    values.length < (code.encodeList values).length := by
  induction values with
  | nil => simp [encodeList]
  | cons value values ih =>
    simp only [encodeList, length_cons, length_append]
    omega

/-- **A list is read back.** -/
theorem decodeList_encodeList (values : List α) (rest : List UInt8)
    {fuel : Nat} (hfuel : values.length < fuel) :
    code.decodeList fuel (code.encodeList values ++ rest) = some (values, rest) := by
  induction values generalizing fuel with
  | nil =>
    cases fuel with
    | zero => omega
    | succ fuel => rfl
  | cons value values ih =>
    cases fuel with
    | zero => simp at hfuel
    | succ fuel =>
      rw [length_cons, Nat.add_lt_add_iff_right] at hfuel
      rw [encodeList, cons_append, append_assoc, decodeList]
      simp only [code.decode_encode, Option.bind_eq_bind, Option.bind_some, ih hfuel]
      rfl

/-- A list of values. -/
def list : PrefixCode (List α) where
  encode := code.encodeList
  decode input := code.decodeList input.length input
  decode_encode values rest := by
    refine code.decodeList_encodeList values rest ?_
    rw [length_append]
    have hlength := code.length_lt_encodeList values
    omega

def char : PrefixCode Char :=
  (fixed 4).retract (fun c => ⟨c.toNat, c.val.toNat_lt⟩) (fun n => Char.ofNat n) Char.ofNat_toNat

end PrefixCode

end Dbx
