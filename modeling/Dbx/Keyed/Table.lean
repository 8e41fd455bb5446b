import Mathlib.Data.List.Nodup

/-!
# Tables with a primary key

A table is a list of rows of which no two have the same key. Inserting a row whose key is taken is
refused, and updates keep the keys, so that no operation makes two rows of one key.

## Main definitions

* `Table key`: a table of rows with the key `key`
* `Table.find`, `Table.insert`, `Table.update`, `Table.erase`, `Table.upsert`: reading and writing

## Main results

* `Table.eq_of_key_eq`: a key determines its row
* `Table.find_eq_some_iff`: what a key finds
* `Table.mem_insert`, `Table.mem_update`, `Table.mem_erase`, `Table.mem_upsert`: the rows after a
  write
* `Table.find_update`: what a key finds after an update
-/

namespace Dbx.Keyed

open List

variable {κ ρ : Type} [DecidableEq κ] {key : ρ → κ}

/-- Rows of which no two have the same key. -/
structure Table (key : ρ → κ) where
  rows : List ρ
  nodup : (rows.map key).Nodup

namespace Table

instance [DecidableEq ρ] : DecidableEq (Table key) := fun t u =>
  decidable_of_iff (t.rows = u.rows) ⟨fun h => by cases t; cases u; cases h; rfl, congrArg rows⟩

def empty (key : ρ → κ) : Table key := ⟨[], nodup_nil⟩

def find (t : Table key) (k : κ) : Option ρ := t.rows.find? fun r => key r = k

/-- One more row, unless its key is taken. -/
def insert (t : Table key) (row : ρ) : Option (Table key) :=
  if h : key row ∈ t.rows.map key then none
  else some ⟨t.rows ++ [row], by
    rw [map_append, nodup_append]
    refine ⟨t.nodup, nodup_singleton _, fun k hk l hl => ?_⟩
    rintro rfl
    exact h (List.mem_singleton.mp hl ▸ hk)⟩

/-- The rows that meet a condition are changed, except for their keys. -/
def update (t : Table key) (p : ρ → Bool) (f : ρ → ρ) (hf : ∀ r, key (f r) = key r) : Table key :=
  ⟨t.rows.map fun r => if p r then f r else r, by
    have hkey : (key ∘ fun r => if p r then f r else r) = key := by
      funext r
      by_cases hp : p r <;> simp [hp, hf]
    rw [map_map, hkey]
    exact t.nodup⟩

def erase (t : Table key) (p : ρ → Bool) : Table key :=
  ⟨t.rows.filter fun r => !p r, t.nodup.sublist (List.filter_sublist.map key)⟩

/-- One more row, or a change of the row that has its key. -/
def upsert (t : Table key) (row : ρ) (f : ρ → ρ) (hf : ∀ r, key (f r) = key r) : Table key :=
  (t.insert row).getD (t.update (fun r => key r = key row) f hf)

variable {r : ρ}

omit [DecidableEq κ] in
theorem eq_of_key_eq (t : Table key) {r s : ρ} (hr : r ∈ t.rows) (hs : s ∈ t.rows)
    (h : key r = key s) : r = s :=
  inj_on_of_nodup_map t.nodup hr hs h

variable {k : κ}

theorem find_eq_some_iff (t : Table key) : t.find k = some r ↔ r ∈ t.rows ∧ key r = k := by
  constructor
  · intro h
    exact ⟨mem_of_find?_eq_some h, by simpa using find?_some h⟩
  · rintro ⟨hr, rfl⟩
    -- some row has the key, and the key determines it
    have hsome : (t.find (key r)).isSome := List.find?_isSome.mpr ⟨r, hr, by simp⟩
    obtain ⟨s, hs⟩ := Option.isSome_iff_exists.mp hsome
    have hkey : key s = key r := by simpa using find?_some hs
    rw [hs, t.eq_of_key_eq (mem_of_find?_eq_some hs) hr hkey]

variable {row : ρ}

theorem insert_eq_some_iff (t u : Table key) :
    t.insert row = some u ↔ (∀ r ∈ t.rows, key r ≠ key row) ∧ u.rows = t.rows ++ [row] := by
  obtain ⟨rows, hnodup⟩ := u
  unfold insert
  split
  case isTrue h =>
    obtain ⟨r, hr, hkey⟩ := List.mem_map.mp h
    simp only [reduceCtorEq, false_iff, not_and]
    exact fun hfree => (hfree r hr hkey).elim
  case isFalse h =>
    have hfree : ∀ r ∈ t.rows, key r ≠ key row := fun r hr hkey =>
      h (List.mem_map.mpr ⟨r, hr, hkey⟩)
    simp only [Option.some.injEq, mk.injEq]
    exact ⟨fun heq => ⟨hfree, heq.symm⟩, fun hrows => hrows.2.symm⟩

theorem mem_insert {t u : Table key} (h : t.insert row = some u) :
    r ∈ u.rows ↔ r ∈ t.rows ∨ r = row := by
  simp [((insert_eq_some_iff t u).mp h).2]

section Update

variable (t : Table key) (p : ρ → Bool) (f : ρ → ρ) (hf : ∀ r, key (f r) = key r)

omit [DecidableEq κ] in
theorem mem_update : r ∈ (t.update p f hf).rows ↔ ∃ s ∈ t.rows, (if p s then f s else s) = r := by
  simp [update]

theorem find_update (k : κ) :
    (t.update p f hf).find k = (t.find k).map fun r => if p r then f r else r := by
  have hkey : ((fun r => decide (key r = k)) ∘ fun r => if p r then f r else r) =
      fun r => decide (key r = k) := by
    funext r
    by_cases hp : p r <;> simp [hp, hf]
  simp only [find, update, find?_map, hkey]

end Update

variable {t : Table key}

omit [DecidableEq κ] in
theorem mem_erase {p : ρ → Bool} :
    r ∈ (t.erase p).rows ↔ r ∈ t.rows ∧ p r = false := by
  simp [erase]

/-- Erasing rows of other keys leaves what a key finds. -/
theorem find_erase_of_not {p : ρ → Bool}
    (h : ∀ r, key r = k → p r = false) : (t.erase p).find k = t.find k := by
  simp only [find, erase, find?_filter]
  congr 1
  funext r
  by_cases hk : key r = k
  · simp [hk, h r hk]
  · simp [hk]

/-- An insert or update of the row of a key changes what this key finds, and no other. -/
theorem find_upsert_of_ne (t : Table key) {f : ρ → ρ} {hf : ∀ r, key (f r) = key r}
    (h : k ≠ key row) : (t.upsert row f hf).find k = t.find k := by
  unfold upsert
  cases hinsert : t.insert row with
  | none =>
    rw [Option.getD_none, find_update]
    cases hfind : t.find k with
    | none => rfl
    | some r =>
      obtain ⟨-, rfl⟩ := t.find_eq_some_iff.mp hfind
      simp [h]
  | some u =>
    have hrows := ((insert_eq_some_iff t u).mp hinsert).2
    simp [find, hrows, h.symm]

/-- The rows after an insert or update: those of other keys, and the new or changed one. -/
theorem mem_upsert {f : ρ → ρ} {hf : ∀ r, key (f r) = key r} (h : r ∈ (t.upsert row f hf).rows) :
    r ∈ t.rows ∧ key r ≠ key row ∨ r = row ∨ ∃ s ∈ t.rows, key s = key row ∧ f s = r := by
  unfold upsert at h
  cases hinsert : t.insert row with
  | none =>
    rw [hinsert, Option.getD_none, mem_update] at h
    obtain ⟨s, hs, rfl⟩ := h
    by_cases hkey : key s = key row
    · exact .inr (.inr ⟨s, hs, hkey, by simp [hkey]⟩)
    · exact .inl (by simpa [hkey] using hs)
  | some u =>
    rw [hinsert, Option.getD_some, mem_insert hinsert] at h
    rcases h with hr | rfl
    · exact .inl ⟨hr, ((insert_eq_some_iff t u).mp hinsert).1 r hr⟩
    · exact .inr (.inl rfl)

end Table

end Dbx.Keyed
