/-
This file is a small library of grouping: rows are taken in order, each into the group of
its key, and a key keeps the place it first came up at, as in an ordered dict of
accumulators. Each key has one group, and it is what the rows of that key alone make.
-/

import FleetMemory.Distinct
import Mathlib.Data.List.Induction
import Mathlib.Data.List.Nodup
import Mathlib.Data.List.Perm.Basic

namespace Grouping

variable {Key Row Group : Type} [DecidableEq Key]

/-! ### One update -/

/-- Change the group of a key. A key without one gets the fresh group changed. -/
def update (key : Key) (fresh : Group) (change : Group → Group) :
    List (Key × Group) → List (Key × Group)
  | [] => [(key, change fresh)]
  | entry :: rest =>
    if entry.1 = key then (key, change entry.2) :: rest else entry :: update key fresh change rest

section

variable {key : Key} {fresh : Group} {change : Group → Group} {groups : List (Key × Group)}

theorem keys_update : (update key fresh change groups).map Prod.fst =
    if key ∈ groups.map Prod.fst then groups.map Prod.fst else groups.map Prod.fst ++ [key] := by
  induction groups with
  | nil => rfl
  | cons entry rest inductionHypothesis =>
    rw [update]
    by_cases same : entry.1 = key
    · rw [if_pos same, if_pos (by simp [same]), List.map_cons, List.map_cons, same]
    · have head : key ≠ entry.1 := fun equal => same equal.symm
      rw [if_neg same, List.map_cons, inductionHypothesis, List.map_cons]
      simp only [List.mem_cons, head, false_or]
      split <;> rfl

theorem nodup_keys_update (distinct : (groups.map Prod.fst).Nodup) :
    ((update key fresh change groups).map Prod.fst).Nodup := by
  rw [keys_update]
  split
  · exact distinct
  · rename_i absent
    rw [List.nodup_append_comm]
    exact List.nodup_cons.mpr ⟨absent, distinct⟩

/-- The groups of the other keys stay. -/
theorem mem_update_other {entry : Key × Group} (different : entry.1 ≠ key) :
    entry ∈ update key fresh change groups ↔ entry ∈ groups := by
  have apart : ∀ group, entry ≠ (key, group) := fun group same => different (congrArg Prod.fst same)
  induction groups with
  | nil => simp [update, apart]
  | cons head rest inductionHypothesis =>
    rw [update]
    by_cases same : head.1 = key
    · have notHead : entry ≠ head := fun equal => different (equal ▸ same)
      simp [if_pos same, apart, notHead]
    · simp [if_neg same, inductionHypothesis]

/-- The key's group is changed from the one it had. -/
theorem mem_update_self {before after : Group} (distinct : (groups.map Prod.fst).Nodup)
    (present : (key, before) ∈ groups) :
    (key, after) ∈ update key fresh change groups ↔ after = change before := by
  induction groups with
  | nil => cases present
  | cons head rest inductionHypothesis =>
    obtain ⟨absent, later⟩ := List.nodup_cons.mp (List.map_cons ▸ distinct)
    have notLater : ∀ {group : Group}, head.1 = key → (key, group) ∉ rest := fun same member =>
      absent (same ▸ List.mem_map_of_mem (f := Prod.fst) member)
    rw [update]
    rcases List.mem_cons.mp present with same | inside
    · obtain rfl := same
      simp [notLater rfl]
    · have different : head.1 ≠ key := fun same => notLater same inside
      have notHead : (key, after) ≠ head := fun same => different (congrArg Prod.fst same).symm
      rw [if_neg different, List.mem_cons, inductionHypothesis later inside]
      exact or_iff_right notHead

/-- A key that had no group has the fresh one, changed. -/
theorem mem_update_fresh {after : Group} (absent : key ∉ groups.map Prod.fst) :
    (key, after) ∈ update key fresh change groups ↔ after = change fresh := by
  induction groups with
  | nil => simp [update]
  | cons head rest inductionHypothesis =>
    obtain ⟨different, later⟩ := not_or.mp (List.mem_cons.not.mp (List.map_cons ▸ absent))
    have notHead : (key, after) ≠ head := fun same => different (congrArg Prod.fst same)
    rw [update, if_neg fun same => different same.symm, List.mem_cons, inductionHypothesis later]
    exact or_iff_right notHead

end

/-! ### The groups of a list of rows -/

variable (key : Row → Key) (fresh : Row → Group) (add : Group → Row → Group)

/-- Take a row into its group. -/
def take (groups : List (Key × Group)) (row : Row) : List (Key × Group) :=
  update (key row) (fresh row) (fun group => add group row) groups

/-- The groups the rows make. -/
def grouped (rows : List Row) : List (Key × Group) :=
  rows.foldl (take key fresh add) []

/-- The rows of a key. -/
def rowsOf (rows : List Row) (wanted : Key) : List Row :=
  rows.filter fun row => key row = wanted

/-- What the rows of one key make. -/
def groupOf : List Row → Option Group
  | [] => none
  | first :: rest => some ((first :: rest).foldl add (fresh first))

theorem groupOf_concat (rows : List Row) (row : Row) :
    groupOf fresh add (rows ++ [row]) =
      some (add ((groupOf fresh add rows).getD (fresh row)) row) := by
  cases rows with
  | nil => rfl
  | cons first rest => simp [groupOf]

theorem groupOf_eq_none {rows : List Row} : groupOf fresh add rows = none ↔ rows = [] := by
  cases rows <;> simp [groupOf]

theorem grouped_concat (rows : List Row) (row : Row) :
    grouped key fresh add (rows ++ [row]) = take key fresh add (grouped key fresh add rows) row := by
  rw [grouped, List.foldl_append]
  rfl

theorem rowsOf_concat (rows : List Row) (row : Row) (wanted : Key) :
    rowsOf key (rows ++ [row]) wanted =
      if key row = wanted then rowsOf key rows wanted ++ [row] else rowsOf key rows wanted := by
  rw [rowsOf, List.filter_append, List.filter_singleton]
  by_cases same : key row = wanted
  · rw [if_pos same, decide_eq_true same]
    rfl
  · rw [if_neg same, decide_eq_false same]
    exact List.append_nil _

theorem nodup_keys_grouped (rows : List Row) :
    ((grouped key fresh add rows).map Prod.fst).Nodup := by
  induction rows using List.reverseRecOn with
  | nil => exact List.nodup_nil
  | append_singleton rest row inductionHypothesis =>
    rw [grouped_concat]
    exact nodup_keys_update inductionHypothesis

/-- The keys come in the order in which they first come up. -/
theorem keys_grouped (rows : List Row) :
    (grouped key fresh add rows).map Prod.fst = Distinct.distinctBy id (rows.map key) := by
  induction rows using List.reverseRecOn with
  | nil => rfl
  | append_singleton rest row inductionHypothesis =>
    rw [grouped_concat, take, keys_update, inductionHypothesis, List.map_append, List.map_singleton,
      Distinct.distinctBy_concat, List.map_id, id]

/-- A key's group is what the rows of that key make. -/
theorem mem_grouped {rows : List Row} {wanted : Key} {group : Group} :
    (wanted, group) ∈ grouped key fresh add rows ↔
      groupOf fresh add (rowsOf key rows wanted) = some group := by
  induction rows using List.reverseRecOn generalizing group with
  | nil => simp [grouped, rowsOf, groupOf]
  | append_singleton rest row inductionHypothesis =>
    rw [grouped_concat, take, rowsOf_concat]
    by_cases same : key row = wanted
    · rw [if_pos same, groupOf_concat, same]
      cases earlier : groupOf fresh add (rowsOf key rest wanted) with
      | none =>
        have absent : wanted ∉ (grouped key fresh add rest).map Prod.fst := by
          rintro member
          obtain ⟨⟨_, found⟩, present, rfl⟩ := List.mem_map.mp member
          rw [inductionHypothesis.mp present] at earlier
          cases earlier
        rw [mem_update_fresh absent, Option.getD_none, Option.some.injEq, eq_comm]
      | some before =>
        rw [mem_update_self (nodup_keys_grouped key fresh add rest) (inductionHypothesis.mpr earlier),
          Option.getD_some, Option.some.injEq, eq_comm]
    · have different : wanted ≠ key row := fun equal => same equal.symm
      rw [if_neg same, mem_update_other different, inductionHypothesis]

/-- A key has a group when there is a row of it. -/
theorem exists_mem_grouped {rows : List Row} {row : Row} (member : row ∈ rows) :
    ∃ group, (key row, group) ∈ grouped key fresh add rows := by
  have inside : row ∈ rowsOf key rows (key row) := List.mem_filter.mpr ⟨member, by simp⟩
  cases made : groupOf fresh add (rowsOf key rows (key row)) with
  | none =>
    rw [(groupOf_eq_none fresh add).mp made] at inside
    cases inside
  | some group => exact ⟨group, (mem_grouped key fresh add).mpr made⟩

/-! ### Lists of rows -/

section

variable {rows others : List Row}

/-- The rows of each key, in their order. -/
def listed (rows : List Row) : List (Key × List Row) :=
  grouped key (fun _ => []) (fun group row => group ++ [row]) rows

theorem groupOf_list (rows : List Row) :
    groupOf (fun _ => []) (fun group row => group ++ [row]) rows =
      if rows = [] then none else some rows := by
  induction rows using List.reverseRecOn with
  | nil => rfl
  | append_singleton rest row inductionHypothesis =>
    have filled : rest ++ [row] ≠ [] := List.append_ne_nil_of_right_ne_nil _ (List.cons_ne_nil _ _)
    rw [groupOf_concat, inductionHypothesis, if_neg filled]
    by_cases empty : rest = []
    · rw [if_pos empty, empty]
      rfl
    · rw [if_neg empty]
      rfl

theorem mem_listed {wanted : Key} {group : List Row} :
    (wanted, group) ∈ listed key rows ↔ group = rowsOf key rows wanted ∧ group ≠ [] := by
  rw [listed, mem_grouped, groupOf_list]
  split
  · rename_i empty
    rw [empty]
    exact ⟨fun impossible => (by cases impossible), fun both => absurd both.1 both.2⟩
  · rename_i filled
    rw [Option.some.injEq, eq_comm]
    exact ⟨fun same => ⟨same, same ▸ filled⟩, And.left⟩

theorem mem_keys_listed {wanted : Key} :
    wanted ∈ (listed key rows).map Prod.fst ↔ ∃ row ∈ rows, key row = wanted := by
  constructor
  · rintro member
    obtain ⟨⟨_, group⟩, present, rfl⟩ := List.mem_map.mp member
    obtain ⟨rfl, filled⟩ := (mem_listed key).mp present
    obtain ⟨row, inside⟩ := List.exists_mem_of_ne_nil _ filled
    obtain ⟨member, same⟩ := List.mem_filter.mp inside
    exact ⟨row, member, of_decide_eq_true same⟩
  · rintro ⟨row, member, rfl⟩
    obtain ⟨group, present⟩ := exists_mem_grouped key (fun _ => []) (fun group row => group ++ [row])
      member
    exact List.mem_map.mpr ⟨_, present, rfl⟩

/-- What is made of the groups is made of the rows of each key. -/
theorem flatMap_listed {Made : Type} (make : List Row → List Made) (rows : List Row) :
    ((listed key rows).flatMap fun entry => make entry.2) =
      ((listed key rows).map Prod.fst).flatMap fun wanted => make (rowsOf key rows wanted) := by
  rw [List.flatMap_map]
  refine List.flatMap_congr fun entry member => ?_
  rw [((mem_listed key).mp member).1]

/-- Rows in another order have the same keys. -/
theorem keys_listed_perm (perm : rows.Perm others) :
    ((listed key rows).map Prod.fst).Perm ((listed key others).map Prod.fst) := by
  refine (List.perm_ext_iff_of_nodup (nodup_keys_grouped key _ _ rows)
    (nodup_keys_grouped key _ _ others)).mpr fun wanted => ?_
  rw [← listed, ← listed, mem_keys_listed, mem_keys_listed]
  exact exists_congr fun row => and_congr_left fun _ => perm.mem_iff

/-- What is made of each group comes to the same for rows in another order, when it does for the
rows of each key. -/
theorem flatMap_listed_perm {Made : Type} {make : List Row → List Made} (perm : rows.Perm others)
    (alike : ∀ wanted, (make (rowsOf key rows wanted)).Perm (make (rowsOf key others wanted))) :
    ((listed key rows).flatMap fun entry => make entry.2).Perm
      ((listed key others).flatMap fun entry => make entry.2) := by
  rw [flatMap_listed, flatMap_listed]
  exact (keys_listed_perm key perm).flatMap fun wanted _ => alike wanted

end

end Grouping
