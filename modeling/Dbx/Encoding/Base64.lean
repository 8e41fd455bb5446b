import Dbx.Text.Basic

/-!
# Base64

Bytes as text, and the laws that a program relies on when it writes bytes with one library and
reads them with another. Base64 without padding keeps them: three bytes are four characters, and
what is left over takes one character more than it has bytes. Its decoder accepts only what an
encoder writes, so the unused bits of the last character are zero.

## Main definitions

* `Codec`: an encoding that can be read back
* `NoPad`: an encoding without padding and blanks
* `encode`, `decode`: base64, by groups of three bytes
* `urlSafeNoPad`, `standard`: the encodings of the two alphabets

## Main results

* `decode_encode`: an encoding decodes to its bytes
* `length_of_decode`: the length of a text that decodes to bytes
* `not_isWhitespace_of_mem_encode`: an encoding has no blanks
-/

namespace Dbx.Base64

/-- **An encoding of bytes as text**: what it writes is read back. -/
structure Codec (Byte : Type) where
  encode : List Byte → Text
  decode : Text → Option (List Byte)
  encode_nil : encode [] = []
  decode_encode (bytes : List Byte) : decode (encode bytes) = some bytes

/-- **An encoding without padding**: no blanks are written, and the length of a text gives the
number of its bytes. -/
structure NoPad extends Codec (Fin 256) where
  length_of_decode {text : Text} {bytes : List (Fin 256)} (h : decode text = some bytes) :
    text.length = (4 * bytes.length + 2) / 3
  not_isWhitespace_of_mem_encode {bytes : List (Fin 256)} {c : Char} (h : c ∈ encode bytes) :
    Text.isWhitespace c = false

theorem NoPad.length_encode (codec : NoPad) (bytes : List (Fin 256)) :
    (codec.encode bytes).length = (4 * bytes.length + 2) / 3 :=
  codec.length_of_decode (codec.decode_encode bytes)

inductive Alphabet
  | standard
  | urlSafe

/-- The last two characters of an alphabet. -/
def Alphabet.lastChars : Alphabet → Text
  | .standard => ['+', '/']
  | .urlSafe => ['-', '_']

/-- The characters of an alphabet, in order. -/
def Alphabet.chars (alphabet : Alphabet) : Text :=
  "ABCDEFGHIJKLMNOPQRSTUVWXYZabcdefghijklmnopqrstuvwxyz0123456789".toList ++ alphabet.lastChars

variable (alphabet : Alphabet)

def charOf (sextet : Fin 64) : Char := alphabet.chars.getD sextet '_'

def sextetOf (c : Char) : Option (Fin 64) :=
  (List.finRange 64).find? fun i => charOf alphabet i = c

/-- The groups of six bits of some bytes, the last one filled up with zeros. -/
def toSextets : List (Fin 256) → List (Fin 64)
  | a :: b :: c :: rest =>
    ⟨a / 4, by omega⟩ :: ⟨a % 4 * 16 + b / 16, by omega⟩ :: ⟨b % 16 * 4 + c / 64, by omega⟩ ::
      ⟨c % 64, by omega⟩ :: toSextets rest
  | [a, b] => [⟨a / 4, by omega⟩, ⟨a % 4 * 16 + b / 16, by omega⟩, ⟨b % 16 * 4, by omega⟩]
  | [a] => [⟨a / 4, by omega⟩, ⟨a % 4 * 16, by omega⟩]
  | [] => []

/-- The bytes of groups of six bits, where the bits left over are zeros. -/
def ofSextets : List (Fin 64) → Option (List (Fin 256))
  | p :: q :: r :: s :: rest =>
    (ofSextets rest).map fun bytes =>
      ⟨p * 4 + q / 16, by omega⟩ :: ⟨q % 16 * 16 + r / 4, by omega⟩ :: ⟨r % 4 * 64 + s, by omega⟩ ::
        bytes
  | [p, q, r] =>
    if r.val % 4 = 0 then some [⟨p * 4 + q / 16, by omega⟩, ⟨q % 16 * 16 + r / 4, by omega⟩]
    else none
  | [p, q] => if q.val % 16 = 0 then some [⟨p * 4 + q / 16, by omega⟩] else none
  | [_] => none
  | [] => some []

def encode (bytes : List (Fin 256)) : Text := (toSextets bytes).map (charOf alphabet)

def decode (text : Text) : Option (List (Fin 256)) :=
  (text.mapM (sextetOf alphabet)).bind ofSextets

theorem sextetOf_charOf : ∀ sextet, sextetOf alphabet (charOf alphabet sextet) = some sextet := by
  cases alphabet <;> decide +kernel

variable (sextets : List (Fin 64)) (bytes : List (Fin 256))

theorem mapM_sextetOf_map :
    (sextets.map (charOf alphabet)).mapM (sextetOf alphabet) = some sextets := by
  induction sextets with
  | nil => rfl
  | cons sextet sextets ih => simp [sextetOf_charOf, ih]

theorem ofSextets_toSextets : ofSextets (toSextets bytes) = some bytes := by
  -- one group of three bytes at a time; the arithmetic is that of quotients and remainders
  fun_induction toSextets bytes with
  | case1 a b c rest ih =>
    simp only [ofSextets, ih, Option.map_some, Option.some.injEq, List.cons.injEq, and_true,
      Fin.ext_iff]
    omega
  | case2 a b =>
    have hzero : b.val % 16 * 4 % 4 = 0 := by omega
    simp only [ofSextets, hzero, if_true, Option.some.injEq, List.cons.injEq, and_true, Fin.ext_iff]
    omega
  | case3 a =>
    have hzero : a.val % 4 * 16 % 16 = 0 := by omega
    simp only [ofSextets, hzero, if_true, Option.some.injEq, List.cons.injEq, and_true, Fin.ext_iff]
    omega
  | case4 => rfl

/-- An encoding decodes to its bytes. -/
theorem decode_encode : decode alphabet (encode alphabet bytes) = some bytes := by
  rw [decode, encode, mapM_sextetOf_map]
  exact ofSextets_toSextets bytes

theorem length_of_ofSextets :
    ∀ bytes, ofSextets sextets = some bytes → sextets.length = (4 * bytes.length + 2) / 3 := by
  fun_induction ofSextets sextets with
  | case1 p q r s rest ih =>
    intro bytes h
    obtain ⟨rest', hrest, rfl⟩ := Option.map_eq_some_iff.mp h
    simp only [List.length_cons, ih rest' hrest]
    omega
  | case2 | case4 | case7 =>
    intro bytes h
    cases h
    simp
  | case3 | case5 | case6 =>
    intro bytes h
    cases h

theorem length_of_mapM {α β : Type} {f : α → Option β} :
    ∀ {xs : List α} {ys : List β}, xs.mapM f = some ys → xs.length = ys.length
  | [], ys, h => by
    obtain rfl : ys = [] := by simpa using h.symm
    rfl
  | x :: xs, ys, h => by
    simp only [List.mapM_cons, Option.bind_eq_bind, Option.bind_eq_some_iff, Option.pure_def,
      Option.some.injEq] at h
    obtain ⟨y, -, ys', hys', rfl⟩ := h
    simp [length_of_mapM hys']

variable {alphabet}

/-- The length of a text that decodes to some bytes. -/
theorem length_of_decode {text : Text} {bytes : List (Fin 256)}
    (h : decode alphabet text = some bytes) : text.length = (4 * bytes.length + 2) / 3 := by
  obtain ⟨sextets, hsextets, hbytes⟩ := Option.bind_eq_some_iff.mp h
  rw [length_of_mapM hsextets, length_of_ofSextets sextets bytes hbytes]

theorem charOf_spec : ∀ sextet,
    Text.isWhitespace (charOf alphabet sextet) = false ∧ charOf alphabet sextet ≠ '=' := by
  cases alphabet <;> decide +kernel

variable {bytes : List (Fin 256)} {c : Char}

/-- An encoding has no blanks. -/
theorem not_isWhitespace_of_mem_encode (h : c ∈ encode alphabet bytes) :
    Text.isWhitespace c = false := by
  obtain ⟨sextet, -, rfl⟩ := List.mem_map.mp h
  exact (charOf_spec sextet).1

theorem ne_of_mem_encode (h : c ∈ encode alphabet bytes) : c ≠ '=' := by
  obtain ⟨sextet, -, rfl⟩ := List.mem_map.mp h
  exact (charOf_spec sextet).2

/-- `URL_SAFE_NO_PAD`. -/
def urlSafeNoPad : NoPad where
  encode := encode .urlSafe
  decode := decode .urlSafe
  encode_nil := rfl
  decode_encode := decode_encode .urlSafe
  length_of_decode := length_of_decode
  not_isWhitespace_of_mem_encode := not_isWhitespace_of_mem_encode

/-! ## Padding -/

/-- A text filled up to a multiple of four characters. -/
def pad (text : Text) : Text := text ++ List.replicate ((4 - text.length % 4) % 4) '='

theorem rdropWhile_pad {text : Text} (h : '=' ∉ text) : (pad text).rdropWhile (· = '=') = text := by
  rw [pad, List.rdropWhile, List.reverse_append, List.reverse_replicate,
    List.dropWhile_append_of_pos (by simp)]
  refine (congrArg List.reverse (List.dropWhile_eq_self_iff.mpr fun hpos => ?_)).trans
    text.reverse_reverse
  have hmem := List.mem_reverse.mp (List.getElem_mem hpos)
  rw [decide_eq_true_eq]
  intro heq
  exact h (heq ▸ hmem)

/-- `STANDARD`, with a decoder that leaves the number of the padding characters open. -/
def standard : Codec UInt8 where
  encode bytes := pad (encode .standard (bytes.map UInt8.toFin))
  decode text := (decode .standard (text.rdropWhile (· = '='))).map (·.map UInt8.ofFin)
  encode_nil := rfl
  decode_encode bytes := by
    rw [rdropWhile_pad fun h => ne_of_mem_encode h rfl, decode_encode, Option.map_some,
      List.map_map]
    exact congrArg some (List.map_id'' (fun _ => rfl) bytes)

end Dbx.Base64
