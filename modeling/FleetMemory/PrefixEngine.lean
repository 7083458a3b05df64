/-
This file gives the search engine the installed store has, as far as the code relies on
it: a namespace prefix is matched by `LIKE` against the dotted namespaces, a metadata
filter exactly, and the rows are ranked by a fixed order of their places.
-/

import FleetMemory.Like
import FleetMemory.Store
import Mathlib.Data.Finset.Sort
import Mathlib.Data.List.Lex
import Mathlib.Data.Prod.Lex
import Mathlib.Data.String.Basic

namespace FleetMemory

namespace PrefixEngine

/-- A namespace as the text its rows carry. -/
def dotted (namespaceParts : List String) : String :=
  Text.join '.' namespaceParts

/-- The dotted namespace extends the prefix, under `LIKE`. -/
def extendsPrefix (namespacePrefix namespaceParts : List String) : Bool :=
  Like.like (dotted namespaceParts) (dotted namespacePrefix ++ "%")

/-- The record carries every value the filter asks for. -/
def matchesFilter (filter : List (String × String)) (value : StoredValue) : Bool :=
  filter.all fun entry => value.metadata entry.1 == some entry.2

/-- The scope's prefix and filter match the row. -/
def selects (scope : Scope) (place : Place) (value : StoredValue) : Bool :=
  extendsPrefix scope.namespacePrefix place.namespaceParts && matchesFilter scope.filter value

instance : LinearOrder Place :=
  LinearOrder.lift' (fun place => toLex (place.namespaceParts, place.key)) fun first second same => by
    cases first
    cases second
    simpa using same

/-- The row at a place, when it is stored and selected. -/
def row (score : Scope → Place → StoredValue → Option ℚ) (scope : Scope) (store : Store)
    (place : Place) : Option Item :=
  (store.lookup place).bind fun value =>
    if selects scope place value then some ⟨place, value, score scope place value⟩ else none

theorem row_eq_some {score : Scope → Place → StoredValue → Option ℚ} {scope : Scope}
    {store : Store} {place : Place} {item : Item} :
    row score scope store place = some item ↔ item.place = place ∧
      store.lookup place = some item.value ∧ selects scope place item.value = true ∧
      item.score = score scope place item.value := by
  unfold row
  cases stored : store.lookup place with
  | none => simp
  | some value =>
    obtain ⟨itemPlace, itemValue, itemScore⟩ := item
    simp only [Option.bind_some, Option.ite_none_right_eq_some, Option.some.injEq, Item.mk.injEq]
    constructor
    · rintro ⟨selected, rfl, rfl, rfl⟩
      exact ⟨rfl, rfl, selected, rfl⟩
    · rintro ⟨rfl, rfl, selected, rfl⟩
      exact ⟨selected, rfl, rfl, rfl⟩

/-- The characters of a namespace's text are plain when those of its identifiers are. -/
theorem plain_of_mem_dotted {namespaceParts : List String}
    (simple : ∀ part ∈ namespaceParts, ∀ character ∈ part.toList, Like.plain character = true)
    {character : Char} (member : character ∈ (dotted namespaceParts).toList) :
    Like.plain character = true := by
  rcases Text.mem_join member with rfl | ⟨part, inside, here⟩
  · decide
  · exact simple part inside character here

/-- A namespace of plain identifiers is extended by every namespace below it. -/
theorem extendsPrefix_append {namespaceParts more : List String} (nonempty : namespaceParts ≠ [])
    (simple : ∀ part ∈ namespaceParts, ∀ character ∈ part.toList, Like.plain character = true) :
    extendsPrefix namespaceParts (namespaceParts ++ more) = true := by
  obtain ⟨rest, extended⟩ : ∃ rest, (dotted (namespaceParts ++ more)).toList =
      (dotted namespaceParts).toList ++ rest := by
    cases more with
    | nil => exact ⟨[], by simp⟩
    | cons next others => exact ⟨_, Text.toList_join_append '.' nonempty (List.cons_ne_nil _ _)⟩
  have accepted := Like.accepts_self_append (dotted namespaceParts).toList
    (fun character => plain_of_mem_dotted simple) rest
  rw [extendsPrefix, Like.like, String.toList_append, extended]
  exact accepted

/-- The characters of a valid identifier are plain. -/
theorem plain_of_validPart {part : String} (valid : validPart part = true) :
    ∀ character ∈ part.toList, Like.plain character = true := by
  intro character here
  have lower : Text.lowerWord character = true := by
    simp only [validPart, Text.fullMatch, Bool.and_eq_true, List.all_eq_true] at valid
    exact valid.2 character here
  by_contra special
  simp only [Like.plain, Bool.and_eq_true, bne_iff_ne, not_and_or, not_not] at special
  rcases special with rfl | rfl
  · exact absurd lower (by decide)
  · exact absurd lower (by decide)

/-- A namespace of valid identifiers extends itself. -/
theorem extendsPrefix_self {namespaceParts : List String}
    (valid : ∀ part ∈ namespaceParts, validPart part = true) :
    extendsPrefix namespaceParts namespaceParts = true := by
  have self := Like.accepts_self_append (dotted namespaceParts).toList
    (fun character => plain_of_mem_dotted fun part member => plain_of_validPart (valid part member))
    []
  rw [List.append_nil] at self
  rw [extendsPrefix, Like.like, String.toList_append]
  exact self

end PrefixEngine

open PrefixEngine in
/-- The engine, for a scoring of rows. -/
def prefixEngine (score : Scope → Place → StoredValue → Option ℚ) : SearchEngine where
  selects := selects
  score := score
  ranking scope store := (store.keys.sort (· ≤ ·)).filterMap (row score scope store)
  ranking_nodup scope store := by
    rw [List.map_filterMap]
    refine List.Nodup.filterMap ?_ (Finset.sort_nodup _ _)
    intro first second place firstRow secondRow
    obtain ⟨one, oneRow, rfl⟩ := Option.map_eq_some_iff.mp firstRow
    obtain ⟨two, twoRow, same⟩ := Option.map_eq_some_iff.mp secondRow
    rw [← (row_eq_some.mp oneRow).1, ← (row_eq_some.mp twoRow).1, same]
  mem_ranking scope store item := by
    rw [List.mem_filterMap]
    constructor
    · rintro ⟨place, _, found⟩
      obtain ⟨rfl, rest⟩ := row_eq_some.mp found
      exact rest
    · intro stored
      refine ⟨item.place, ?_, row_eq_some.mpr ⟨rfl, stored⟩⟩
      rw [Finset.mem_sort, Finmap.mem_keys, ← Finmap.lookup_isSome, stored.1]
      rfl
  selects_own place value valid := by
    rw [selects, Bool.and_eq_true]
    exact ⟨extendsPrefix_self valid, rfl⟩

theorem prefixEngine_selects_iff {score : Scope → Place → StoredValue → Option ℚ} {scope : Scope}
    {place : Place} {value : StoredValue} :
    (prefixEngine score).selects scope place value = true ↔
      PrefixEngine.extendsPrefix scope.namespacePrefix place.namespaceParts = true ∧
        PrefixEngine.matchesFilter scope.filter value = true :=
  Bool.and_eq_true_iff

/-- The engine selects no row whose namespace does not extend the prefix. -/
theorem prefixEngine_selects_eq_false {score : Scope → Place → StoredValue → Option ℚ}
    {scope : Scope} {place : Place}
    (apart : PrefixEngine.extendsPrefix scope.namespacePrefix place.namespaceParts = false)
    (value : StoredValue) : (prefixEngine score).selects scope place value = false := by
  rw [← Bool.not_eq_true, prefixEngine_selects_iff, apart]
  exact fun extended => Bool.noConfusion extended.1

/-- The places of a listing are the stored places whose namespace extends the prefix, in order. -/
theorem places_of_prefixEngine (score : Scope → Place → StoredValue → Option ℚ)
    (namespaceParts : List String) (store : Store) :
    ((prefixEngine score).ranking (listing namespaceParts) store).map Item.place =
      (store.keys.sort (· ≤ ·)).filter fun place =>
        PrefixEngine.extendsPrefix namespaceParts place.namespaceParts := by
  show ((store.keys.sort (· ≤ ·)).filterMap (PrefixEngine.row score _ store)).map Item.place = _
  rw [List.map_filterMap, ← List.filterMap_eq_filter]
  refine List.filterMap_congr fun place member => ?_
  obtain ⟨value, stored⟩ := mem_keys_iff.mp ((Finset.mem_sort _).mp member)
  have selected : PrefixEngine.selects (listing namespaceParts) place value =
      PrefixEngine.extendsPrefix namespaceParts place.namespaceParts := Bool.and_true _
  rw [PrefixEngine.row, stored, Option.bind_some, selected, Option.guard]
  split <;> rfl

end FleetMemory
