import Dbx.Sql.Profile
import Mathlib.Data.List.Nodup

/-!
# The column aliases of a sorted query

A sorted query wraps the statement into a table with an alias for each result column. The `n`-th
column with the same base gets the alias `base_n`, which is not compared with the bases of the other
columns.
-/

namespace Dbx.Query.Aliases

open List Text Sql Function

variable (unicode : Unicode)

def fallbackAlias (index : Nat) : Text := "column_".toList ++ Nat.toDigits 10 (index + 1)

/-- `normalize_alias_base`; `is_safe_alias_char` is the test of the scanners. -/
def normalizeAliasBase (column : Text) (index : Nat) : Text :=
  let compact := ['_'].intercalate (splitWhitespace column)
  if !compact.isEmpty && compact.all unicode.isIdentifierContinueChar then compact
  else
    let safe := trimMatches (· = '_')
      (compact.map fun c => if unicode.isIdentifierContinueChar c then c else '_')
    if safe.isEmpty then fallbackAlias index else safe

/-- Each base with its count in `seen`. -/
def counted (seen : Text → Nat) : List Text → List (Text × Nat)
  | [] => []
  | base :: bases =>
    (base, seen base + 1) :: counted (update seen base (seen base + 1)) bases

def numbered : Text × Nat → Text
  | (base, count) => if count = 1 then base else base ++ '_' :: Nat.toDigits 10 count

def aliasBases (columns : List Text) : List Text :=
  columns.mapIdx fun index column => normalizeAliasBase unicode column index

def buildDerivedColumnAliases (columns : List Text) : List Text :=
  (counted (fun _ => 0) (aliasBases unicode columns)).map numbered

def useDerivedColumnAliases (databaseType : Option DatabaseType) : Bool :=
  databaseType ∉ [DatabaseType.argo, .hive, .impala, .mysql, .goldendb, .clickHouse, .doris,
    .sqlite, .duckDb, .dameng, .oracle, .oceanbaseOracle, .sapHana, .iris].map some

/-- `sort_alias` of `build_sorted_query_sql`. -/
def sortAlias (databaseType : Option DatabaseType) (columns : List Text) (index : Nat)
    (column : Text) : Text :=
  let aliases := buildDerivedColumnAliases unicode columns
  if useDerivedColumnAliases databaseType then
    (aliases[index]?.or ((columns.idxOf? column).bind (aliases[·]?))).getD (fallbackAlias index)
  else columns[index]?.getD column

/-- No base is a numbered alias of another one. -/
def Apart (bases : List Text) : Prop :=
  ∀ base ∈ bases, ∀ count ≤ bases.count base, 2 ≤ count → numbered (base, count) ∉ bases

instance (bases : List Text) : Decidable (Apart bases) :=
  inferInstanceAs (Decidable (∀ base ∈ bases, _))

variable {seen : Text → Nat} {base base' : Text} {count count' : Nat} {bases : List Text}

theorem mem_counted : (base, count) ∈ counted seen bases ↔
    seen base < count ∧ count ≤ seen base + bases.count base := by
  induction bases generalizing seen with
  | nil => simp [counted]
  | cons first bases ih =>
    rw [counted, mem_cons, ih]
    by_cases h : base = first
    · subst h
      simp
      omega
    · simp [h, count_cons_of_ne (Ne.symm h)]

theorem nodup_counted : (counted seen bases).Nodup := by
  induction bases generalizing seen with
  | nil => exact nodup_nil
  | cons first bases ih => simp [counted, mem_counted, ih]

theorem numbered_inj (h : 2 ≤ count) (h' : 2 ≤ count')
    (heq : numbered (base, count) = numbered (base', count')) : base = base' ∧ count = count' := by
  have hnot (n : Nat) : '_' ∉ (Nat.toDigits 10 n).reverse := fun hmem => absurd
    (Nat.isDigit_of_mem_toDigits (by omega) (by omega) (mem_reverse.mp hmem)) (by decide)
  rw [numbered, numbered, if_neg (by omega), if_neg (by omega)] at heq
  -- the last underscore stands before the count
  have hreverse := congrArg (splitOnce '_' ∘ reverse) heq
  simp only [comp_apply, reverse_append, reverse_cons, append_assoc, singleton_append] at hreverse
  rw [splitOnce_eq_some.mpr ⟨rfl, hnot count⟩, splitOnce_eq_some.mpr ⟨rfl, hnot count'⟩] at hreverse
  obtain ⟨hdigits, hbase⟩ := Prod.mk.inj (Option.some.inj hreverse)
  refine ⟨reverse_injective hbase, ?_⟩
  have hcount := congrArg (Nat.ofDigitChars 10 · 0) (reverse_injective hdigits)
  simpa using hcount

/-- **When the aliases are different.** -/
theorem nodup_aliases_iff : ((counted (fun _ => 0) bases).map numbered).Nodup ↔ Apart bases := by
  rw [nodup_map_iff_inj_on nodup_counted]
  constructor
  · intro hinj base hbase count hle htwo hmem
    have hfirst : (numbered (base, count), 1) ∈ counted (fun _ => 0) bases :=
      mem_counted.mpr ⟨by omega, by simpa using hmem⟩
    have hcounted : (base, count) ∈ counted (fun _ => 0) bases :=
      mem_counted.mpr ⟨by omega, by simpa using hle⟩
    have heq := hinj _ hfirst _ hcounted (by simp [numbered])
    simp at heq
    omega
  · rintro hapart ⟨base, count⟩ hmem ⟨base', count'⟩ hmem' heq
    rw [mem_counted, Nat.zero_add] at hmem hmem'
    have hbase := count_pos_iff.mp (Nat.lt_of_lt_of_le hmem.1 hmem.2)
    have hbase' := count_pos_iff.mp (Nat.lt_of_lt_of_le hmem'.1 hmem'.2)
    rcases Nat.lt_or_eq_of_le hmem.1 with htwo | rfl <;>
      rcases Nat.lt_or_eq_of_le hmem'.1 with htwo' | rfl
    · obtain ⟨rfl, rfl⟩ := numbered_inj htwo htwo' heq
      rfl
    · change numbered (base, count) = base' at heq
      exact absurd (heq ▸ hbase') (hapart base hbase count hmem.2 htwo)
    · change base = numbered (base', count') at heq
      exact absurd (heq ▸ hbase) (hapart base' hbase' count' hmem'.2 htwo')
    · exact congrArg (·, 1) heq

theorem length_counted : (counted seen bases).length = bases.length := by
  induction bases generalizing seen with
  | nil => rfl
  | cons first bases ih => simp [counted, ih]

theorem nodup_iff_denotes {aliases : List Text} : aliases.Nodup ↔
    ∀ index < aliases.length, ∀ j, aliases[j]? = aliases[index]? ↔ j = index := by
  refine ⟨fun h index hlt j => ?_, fun h => nodup_iff_getElem?_ne_getElem?.mpr ?_⟩
  · rw [eq_comm, getElem?_inj hlt h, eq_comm]
  · intro i j hij hlt heq
    exact absurd ((h j hlt i).mp heq) (Nat.ne_of_lt hij)

/-- **A result is sorted by the chosen column**, whichever it is, exactly where no base is a
numbered alias of another one. -/
theorem sorts_iff (columns : List Text) {databaseType : Option DatabaseType}
    (huse : useDerivedColumnAliases databaseType) :
    ((buildDerivedColumnAliases unicode columns).Nodup ↔ Apart (aliasBases unicode columns)) ∧
    ((∀ index < columns.length, ∀ column j, (buildDerivedColumnAliases unicode columns)[j]? =
      some (sortAlias unicode databaseType columns index column) ↔ j = index) ↔
        Apart (aliasBases unicode columns)) := by
  refine ⟨nodup_aliases_iff, ?_⟩
  have hlength : (buildDerivedColumnAliases unicode columns).length = columns.length := by
    simp [buildDerivedColumnAliases, length_counted, aliasBases]
  have halias (index : Nat) (hlt : index < columns.length) (column : Text) :
      some (sortAlias unicode databaseType columns index column) =
        (buildDerivedColumnAliases unicode columns)[index]? := by
    rw [← hlength] at hlt
    simp [sortAlias, huse, getElem?_eq_getElem hlt]
  refine Iff.trans ?_ nodup_aliases_iff
  change _ ↔ (buildDerivedColumnAliases unicode columns).Nodup
  rw [nodup_iff_denotes, hlength]
  refine forall₂_congr fun index hlt => ?_
  simp only [halias index hlt, forall_const]

theorem sorts_twice : (buildDerivedColumnAliases .ascii
    ["id".toList, "id".toList, "total price".toList]).Nodup :=
  (@sorts_iff .ascii _ (some .postgres) rfl).1.mpr (by decide +kernel)

/-- The third column gets the name of the second one. -/
theorem not_sorts_suffixed : useDerivedColumnAliases (some .postgres) ∧
    buildDerivedColumnAliases .ascii ["a".toList, "a_2".toList, "a".toList] =
      ["a".toList, "a_2".toList, "a_2".toList] ∧
    sortAlias .ascii (some .postgres) ["a".toList, "a_2".toList, "a".toList] 2 "a".toList =
      "a_2".toList := by
  decide +kernel

end Dbx.Query.Aliases
