import Dbx.Json.Value
import Mathlib.Data.List.Perm.Subperm

/-!
# Equality and text of JSON values

Objects compare without regard to the order of their members, so the equality of values is an
equivalence where no object has two members of one name, as in a map. The text of a value shows the
value: its first character tells the kind, and it ends where the text of another value cannot go on.

## Main definitions

* `Value.wellFormed`: no object has two members of one name
* `SerdeValue`, `serdeJson`: the well-formed values, and these as a `JsonType`

## Main results

* `Value.eq_refl`, `Value.eq_symm`, `Value.eq_trans`: equality is an equivalence
* `stringify_injective`: values with one text are the same
-/

namespace Dbx.Json

open List

/-! ## Equality -/

mutual

/-- No object has two members of one name. -/
def Value.wellFormed : Value → Bool
  | .array items => wellFormedItems items
  | .object members => decide (members.map Prod.fst).Nodup && wellFormedMembers members
  | _ => true

def wellFormedItems : List Value → Bool
  | [] => true
  | item :: items => item.wellFormed && wellFormedItems items

def wellFormedMembers : List (Text × Value) → Bool
  | [] => true
  | (_, value) :: members => value.wellFormed && wellFormedMembers members

end

variable {members as bs : List (Text × Value)} {name : Text} {value : Value}

theorem wellFormed_of_mem (h : wellFormedMembers members) (hmem : (name, value) ∈ members) :
    value.wellFormed := by
  induction members with
  | nil => cases hmem
  | cons first members ih =>
    rw [wellFormedMembers, Bool.and_eq_true] at h
    rcases mem_cons.mp hmem with rfl | hmem
    · exact h.1
    · exact ih h.2 hmem

theorem mem_of_member (h : member name members = some value) : (name, value) ∈ members := by
  induction members with
  | nil => cases h
  | cons first members ih =>
    rw [member] at h
    split at h
    · next hname =>
      cases h
      rw [← hname]
      exact mem_cons_self
    · exact mem_cons_of_mem _ (ih h)

theorem member_of_mem (hnodup : (members.map Prod.fst).Nodup) (hmem : (name, value) ∈ members) :
    member name members = some value := by
  induction members with
  | nil => cases hmem
  | cons first members ih =>
    rw [map_cons, nodup_cons] at hnodup
    rw [member]
    rcases mem_cons.mp hmem with rfl | hmem
    · rw [if_pos rfl]
    · rw [if_neg, ih hnodup.2 hmem]
      exact fun heq => hnodup.1 (heq ▸ mem_map_of_mem hmem)

/-- Every member is equal to a member of the same name. -/
theorem eqMembers_iff :
    eqMembers as bs ↔ ∀ name a, (name, a) ∈ as → ∃ b, member name bs = some b ∧ a.eq b := by
  induction as with
  | nil => simp [eqMembers]
  | cons first as ih =>
    rw [eqMembers, Bool.and_eq_true, ih, Option.any_eq_true]
    constructor
    · rintro ⟨hfirst, hrest⟩ name a hmem
      rcases mem_cons.mp hmem with rfl | hmem
      · exact hfirst
      · exact hrest name a hmem
    · intro h
      exact ⟨h _ _ mem_cons_self, fun name a hmem => h name a (mem_cons_of_mem _ hmem)⟩

mutual

theorem Value.eq_refl : ∀ a : Value, a.wellFormed → a.eq a
  | .null, _ => by rw [Value.eq]
  | .bool b, _ => by simp [Value.eq]
  | .number n, _ => by simp [Value.eq]
  | .string s, _ => by simp [Value.eq]
  | .array items, h => by
    rw [Value.eq]
    exact eqItems_refl items h
  | .object members, h => by
    rw [Value.wellFormed, Bool.and_eq_true, decide_eq_true_eq] at h
    rw [Value.eq, Bool.and_eq_true, eqMembers_iff]
    refine ⟨decide_eq_true rfl, fun name a hmem => ⟨a, member_of_mem h.1 hmem, ?_⟩⟩
    exact members_refl members h.2 name a hmem

theorem eqItems_refl : ∀ items : List Value, wellFormedItems items → eqItems items items
  | [], _ => by rw [eqItems]
  | item :: items, h => by
    rw [wellFormedItems, Bool.and_eq_true] at h
    rw [eqItems, Bool.and_eq_true]
    exact ⟨item.eq_refl h.1, eqItems_refl items h.2⟩

theorem members_refl : ∀ members : List (Text × Value), wellFormedMembers members →
    ∀ name a, (name, a) ∈ members → a.eq a
  | [], _ => by simp
  | (first, value) :: members, h => by
    rw [wellFormedMembers, Bool.and_eq_true] at h
    intro name a hmem
    rcases mem_cons.mp hmem with heq | hmem
    · cases heq
      exact value.eq_refl h.1
    · exact members_refl members h.2 name a hmem

end

mutual

theorem Value.eq_trans : ∀ a b c : Value, a.eq b → b.eq c → a.eq c
  | .null, b, c, hab, hbc => by cases b <;> cases c <;> simp_all [Value.eq]
  | .bool x, b, c, hab, hbc => by cases b <;> cases c <;> simp_all [Value.eq]
  | .number x, b, c, hab, hbc => by cases b <;> cases c <;> simp_all [Value.eq]
  | .string x, b, c, hab, hbc => by cases b <;> cases c <;> simp_all [Value.eq]
  | .array as, .array bs, .array cs, hab, hbc => by
    rw [Value.eq] at hab hbc ⊢
    exact eqItems_trans as bs cs hab hbc
  | .object as, .object bs, .object cs, hab, hbc => by
    rw [Value.eq, Bool.and_eq_true, decide_eq_true_eq, eqMembers_iff] at hab hbc ⊢
    refine ⟨hab.1.trans hbc.1, fun name a hmem => ?_⟩
    obtain ⟨b, hb, hab'⟩ := hab.2 name a hmem
    obtain ⟨c, hc, hbc'⟩ := hbc.2 name b (mem_of_member hb)
    exact ⟨c, hc, members_trans as name a hmem b c hab' hbc'⟩

theorem eqItems_trans : ∀ as bs cs : List Value, eqItems as bs → eqItems bs cs → eqItems as cs
  | [], [], [], _, _ => by rw [eqItems]
  | a :: as, b :: bs, c :: cs, hab, hbc => by
    rw [eqItems, Bool.and_eq_true] at hab hbc ⊢
    exact ⟨a.eq_trans b c hab.1 hbc.1, eqItems_trans as bs cs hab.2 hbc.2⟩

theorem members_trans : ∀ (as : List (Text × Value)) (name : Text) (a : Value), (name, a) ∈ as →
    ∀ b c : Value, a.eq b → b.eq c → a.eq c
  | (_, value) :: as, name, a, hmem => by
    rcases mem_cons.mp hmem with heq | hmem
    · cases heq
      exact value.eq_trans
    · exact members_trans as name a hmem

end

mutual

theorem Value.eq_symm : ∀ a b : Value, a.wellFormed → b.wellFormed → a.eq b → b.eq a
  | .null, b, _, _, h => by cases b <;> simp_all [Value.eq]
  | .bool x, b, _, _, h => by cases b <;> simp_all [Value.eq]
  | .number x, b, _, _, h => by cases b <;> simp_all [Value.eq]
  | .string x, b, _, _, h => by cases b <;> simp_all [Value.eq]
  | .array as, .array bs, ha, hb, h => by
    rw [Value.eq] at h ⊢
    exact eqItems_symm as bs ha hb h
  | .object as, .object bs, ha, hb, h => by
    rw [Value.wellFormed, Bool.and_eq_true, decide_eq_true_eq] at ha hb
    rw [Value.eq, Bool.and_eq_true, decide_eq_true_eq, eqMembers_iff] at h ⊢
    refine ⟨h.1.symm, fun name b hmem => ?_⟩
    -- as many names as there are in the one object are in the other, so they are all its names
    have hsubset : as.map Prod.fst ⊆ bs.map Prod.fst := by
      rw [subset_def, forall_mem_map]
      rintro ⟨name, a⟩ hmem
      obtain ⟨b, hb', -⟩ := h.2 name a hmem
      exact mem_map.mpr ⟨(name, b), mem_of_member hb', rfl⟩
    have hperm : as.map Prod.fst ~ bs.map Prod.fst :=
      (subperm_of_subset ha.1 hsubset).perm_of_length_le (by simp [h.1])
    obtain ⟨⟨_, a⟩, hmemA, rfl⟩ := mem_map.mp (hperm.mem_iff.mpr (mem_map_of_mem hmem))
    obtain ⟨b', hb', hab⟩ := h.2 _ a hmemA
    rw [member_of_mem hb.1 hmem] at hb'
    cases hb'
    refine ⟨a, member_of_mem ha.1 hmemA, ?_⟩
    exact members_symm as ha.2 _ a hmemA b (wellFormed_of_mem hb.2 hmem) hab

theorem eqItems_symm : ∀ as bs : List Value, wellFormedItems as → wellFormedItems bs →
    eqItems as bs → eqItems bs as
  | [], [], _, _, _ => by rw [eqItems]
  | a :: as, b :: bs, ha, hb, h => by
    rw [wellFormedItems, Bool.and_eq_true] at ha hb
    rw [eqItems, Bool.and_eq_true] at h ⊢
    exact ⟨a.eq_symm b ha.1 hb.1 h.1, eqItems_symm as bs ha.2 hb.2 h.2⟩

theorem members_symm : ∀ as : List (Text × Value), wellFormedMembers as → ∀ name a,
    (name, a) ∈ as → ∀ b : Value, b.wellFormed → a.eq b → b.eq a
  | (_, value) :: as, h, name, a, hmem => by
    rw [wellFormedMembers, Bool.and_eq_true] at h
    rcases mem_cons.mp hmem with heq | hmem
    · cases heq
      exact fun b => value.eq_symm b h.1
    · exact members_symm as h.2 name a hmem

end

/-! ## Texts -/

/-- The character behind an escape. -/
def unescape : Char → Char
  | 'b' => Char.ofNat 8
  | 't' => Char.ofNat 9
  | 'n' => Char.ofNat 10
  | 'f' => Char.ofNat 12
  | 'r' => Char.ofNat 13
  | c => c

def hexValue (c : Char) : Nat := "0123456789abcdef".toList.idxOf c

/-- A character of a string, as it is read from its text. -/
def readChar : Text → Option (Char × Text)
  | '\\' :: 'u' :: _ :: _ :: high :: low :: rest =>
    some (Char.ofNat (16 * hexValue high + hexValue low), rest)
  | '\\' :: c :: rest => some (unescape c, rest)
  | '"' :: _ => none
  | c :: rest => some (c, rest)
  | [] => none

/-- A character of a string is read back. -/
theorem readChar_escapeChar (c : Char) (rest : Text) :
    readChar (escapeChar c ++ rest) = some (c, rest) := by
  have hcode : ∀ n, c.toNat = n → Char.ofNat n = c := by
    rintro _ rfl
    exact c.ofNat_toNat
  unfold escapeChar
  split
  · next h => rw [h]; rfl
  split
  · next h => rw [h]; rfl
  split
  · next h => rw [← hcode 8 h]; rfl
  split
  · next h => rw [← hcode 9 h]; rfl
  split
  · next h => rw [← hcode 10 h]; rfl
  split
  · next h => rw [← hcode 12 h]; rfl
  split
  · next h => rw [← hcode 13 h]; rfl
  split
  · next hlow =>
    -- the two digits of a control character give its code back
    have hhex : ∀ n : Fin 32,
        16 * hexValue (hexDigit (n / 16)) + hexValue (hexDigit (n % 16)) = n := by decide
    show some (Char.ofNat _, rest) = _
    rw [hhex ⟨c.toNat, hlow⟩, c.ofNat_toNat]
  · next hquote hslash _ _ _ _ _ _ =>
    rw [singleton_append, readChar]
    · exact fun _ _ _ _ _ h _ => hslash h
    · exact fun _ _ h _ => hslash h
    · exact hquote

/-- A string is shown by its text, whatever comes behind. -/
theorem stringifyString_append_inj {s s' r r' : Text}
    (h : stringifyString s ++ r = stringifyString s' ++ r') : s = s' ∧ r = r' := by
  have hbody : ∀ {s s' : Text}, s.flatMap escapeChar ++ '"' :: r =
      s'.flatMap escapeChar ++ '"' :: r' → s = s' ∧ r = r' := by
    intro s
    -- the first character is read from both texts, and a quote is none
    induction s with
    | nil =>
      intro s' h
      cases s' with
      | nil => exact ⟨rfl, (cons.inj h).2⟩
      | cons c s' =>
        have hread := congrArg readChar h
        rw [flatMap_cons, append_assoc, readChar_escapeChar] at hread
        cases hread
    | cons c s ih =>
      intro s' h
      have hread := congrArg readChar h
      rw [flatMap_cons, append_assoc, readChar_escapeChar] at hread
      cases s' with
      | nil => cases hread
      | cons c' s' =>
        rw [flatMap_cons, append_assoc, readChar_escapeChar] at hread
        obtain ⟨rfl, hrest⟩ := Prod.mk.inj (Option.some.inj hread)
        obtain ⟨rfl, rfl⟩ := ih hrest
        exact ⟨rfl, rfl⟩
  refine hbody ?_
  simpa [stringifyString] using h

/-- The kinds of values. -/
inductive Kind
  | null
  | bool
  | number
  | string
  | array
  | object
  deriving DecidableEq

def Value.kind : Value → Kind
  | .null => .null
  | .bool _ => .bool
  | .number _ => .number
  | .string _ => .string
  | .array _ => .array
  | .object _ => .object

/-- The kind of the values whose texts start with a character. -/
def kindOf (c : Char) : Option Kind :=
  if c = 'n' then some .null
  else if c = 't' ∨ c = 'f' then some .bool
  else if c ∈ numberChars then some .number
  else if c = '"' then some .string
  else if c = '[' then some .array
  else if c = '\x7b' then some .object
  else none

theorem kindOf_stringify (a : Value) (r : Text) :
    (stringify a ++ r).head?.bind kindOf = some a.kind := by
  cases a with
  | bool b => cases b <;> rfl
  | number n =>
    have hdigits : ∀ c ∈ numberChars, kindOf c = some .number := by decide
    obtain ⟨c, rest, hn⟩ := exists_cons_of_ne_nil n.digits_ne
    rw [stringify, hn]
    exact hdigits c (n.digits_json c (hn ▸ mem_cons_self))
  | null | string | array | object => rfl

theorem kind_eq {a b : Value} {r r' : Text} (h : stringify a ++ r = stringify b ++ r') :
    a.kind = b.kind := by
  have hkind := kindOf_stringify a r
  rw [h, kindOf_stringify] at hkind
  exact (Option.some.inj hkind).symm

/-- A number in front of the text would not go on in it. -/
def Ends (r : Text) : Prop := ∀ c ∈ r.head?, c ∉ numberChars

theorem digits_append_inj {n n' : Number} {r r' : Text} (hr : Ends r) (hr' : Ends r')
    (h : n.digits ++ r = n'.digits ++ r') : n = n' ∧ r = r' := by
  -- the digits are the longest part of the text that is made of them
  have hsplit : ∀ (n : Number) {r : Text}, Ends r →
      (n.digits ++ r).span (· ∈ numberChars) = (n.digits, r) := by
    intro n r hr
    rw [span_eq_takeWhile_dropWhile, takeWhile_append_of_pos, dropWhile_append_of_pos]
    · cases r with
      | nil => simp
      | cons c r => simp [hr c rfl]
    · simpa using n.digits_json
    · simpa using n.digits_json
  have heq := hsplit n hr
  rw [h, hsplit n' hr', Prod.mk.injEq] at heq
  obtain ⟨digits, hne, hjson⟩ := n
  obtain ⟨digits', hne', hjson'⟩ := n'
  simp only at heq
  obtain ⟨rfl, rfl⟩ := heq
  exact ⟨rfl, rfl⟩

theorem ends_items (items : List Value) (r : Text) :
    Ends (stringifyItems false items ++ ']' :: r) := by
  cases items <;> rintro c ⟨⟩ <;> decide

theorem ends_members (members : List (Text × Value)) (r : Text) :
    Ends (stringifyMembers false members ++ '\x7d' :: r) := by
  cases members <;> rintro c ⟨⟩ <;> decide

/-- The text of an array that goes on is not at its end. -/
theorem stringifyItems_ne (first : Bool) (item : Value) (items : List Value) (r r' : Text) :
    stringifyItems first (item :: items) ++ ']' :: r ≠ stringifyItems first [] ++ ']' :: r' := by
  intro h
  cases first with
  | false => cases h
  | true =>
    have hkind := kindOf_stringify item (stringifyItems false items ++ ']' :: r)
    simp only [stringifyItems, if_true, nil_append, append_assoc] at h
    rw [h] at hkind
    cases hkind

mutual

theorem stringify_append_inj : ∀ (a b : Value) (r r' : Text), Ends r → Ends r' →
    stringify a ++ r = stringify b ++ r' → a = b ∧ r = r'
  | .null, b, r, r', _, _, h => by
    cases b with
    | null => exact ⟨rfl, append_cancel_left h⟩
    -- the first characters tell the kinds of values apart
    | _ => exact nomatch kind_eq h
  | .bool x, b, r, r', _, _, h => by
    cases b with
    | bool y => cases x <;> cases y <;> simp_all [stringify]
    | _ => exact nomatch kind_eq h
  | .number n, b, r, r', hr, hr', h => by
    cases b with
    | number n' =>
      obtain ⟨rfl, rfl⟩ := digits_append_inj hr hr' h
      exact ⟨rfl, rfl⟩
    | _ => exact nomatch kind_eq h
  | .string s, b, r, r', _, _, h => by
    cases b with
    | string s' =>
      obtain ⟨rfl, rfl⟩ := stringifyString_append_inj h
      exact ⟨rfl, rfl⟩
    | _ => exact nomatch kind_eq h
  | .array items, b, r, r', _, _, h => by
    cases b with
    | array items' =>
      obtain ⟨rfl, rfl⟩ := stringifyItems_append_inj items items' true r r'
        (by simpa [stringify] using h)
      exact ⟨rfl, rfl⟩
    | _ => exact nomatch kind_eq h
  | .object members, b, r, r', _, _, h => by
    cases b with
    | object members' =>
      obtain ⟨rfl, rfl⟩ := stringifyMembers_append_inj members members' true r r'
        (by simpa [stringify] using h)
      exact ⟨rfl, rfl⟩
    | _ => exact nomatch kind_eq h

theorem stringifyItems_append_inj : ∀ (items items' : List Value) (first : Bool) (r r' : Text),
    stringifyItems first items ++ ']' :: r = stringifyItems first items' ++ ']' :: r' →
      items = items' ∧ r = r'
  | [], [], _, _, _, h => ⟨rfl, (cons.inj h).2⟩
  | [], item' :: items', first, r, r', h => absurd h.symm (stringifyItems_ne first item' items' _ _)
  | item :: items, [], first, r, r', h => absurd h (stringifyItems_ne first item items _ _)
  | item :: items, item' :: items', first, r, r', h => by
    simp only [stringifyItems, append_assoc, append_cancel_left_eq] at h
    obtain ⟨rfl, hrest⟩ :=
      stringify_append_inj item item' _ _ (ends_items items r) (ends_items items' r') h
    obtain ⟨rfl, rfl⟩ := stringifyItems_append_inj items items' false r r' hrest
    exact ⟨rfl, rfl⟩

theorem stringifyMembers_append_inj : ∀ (members members' : List (Text × Value)) (first : Bool)
    (r r' : Text),
    stringifyMembers first members ++ '\x7d' :: r =
        stringifyMembers first members' ++ '\x7d' :: r' →
      members = members' ∧ r = r'
  | [], [], _, _, _, h => ⟨rfl, (cons.inj h).2⟩
  | [], _ :: _, first, r, r', h => by cases first <;> cases h
  | _ :: _, [], first, r, r', h => by cases first <;> cases h
  | (name, value) :: members, (name', value') :: members', first, r, r', h => by
    simp only [stringifyMembers, append_assoc, append_cancel_left_eq] at h
    obtain ⟨rfl, hvalue⟩ := stringifyString_append_inj h
    obtain ⟨rfl, hrest⟩ := stringify_append_inj value value' _ _ (ends_members members r)
      (ends_members members' r') (cons.inj hvalue).2
    obtain ⟨rfl, rfl⟩ := stringifyMembers_append_inj members members' false r r' hrest
    exact ⟨rfl, rfl⟩

end

/-- **Values with one text are the same.** -/
theorem stringify_injective : Function.Injective stringify := by
  intro a b h
  have hends : Ends [] := nofun
  exact (stringify_append_inj a b [] [] hends hends (by rw [h])).1

/-- The values of `serde_json`, whose objects are maps. -/
abbrev SerdeValue : Type := { value : Value // value.wellFormed }

def serdeJson : JsonType SerdeValue where
  null := ⟨.null, rfl⟩
  eq a b := a.1.eq b.1
  stringify a := stringify a.1
  eq_refl a := a.1.eq_refl a.2
  eq_symm a b := a.1.eq_symm b.1 a.2 b.2
  eq_trans a b c := a.1.eq_trans b.1 c.1
  eq_of_stringify a _ h := stringify_injective h ▸ a.1.eq_refl a.2
  separator a := not_mem_stringify a.1

end Dbx.Json
