/-
This file is a small library on the rows of a list with distinct keys: the first row of
each key, in order. A loop that collects rows one by one, skipping a key it has seen,
computes it, and collecting more rows only extends the result.
-/

import Mathlib.Data.Finset.Card
import Mathlib.Data.List.Infix
import Mathlib.Data.List.Nodup

namespace Distinct

variable {Row Key : Type} [DecidableEq Key] (key : Row → Key)

/-- The first row of each key, in order. -/
def distinctBy (rows : List Row) : List Row :=
  rows.eraseDupsBy fun row earlier => key row == key earlier

@[simp] theorem distinctBy_nil : distinctBy key ([] : List Row) = [] := rfl

theorem loop_append (rows more kept : List Row) :
    List.eraseDupsBy.loop (fun row earlier => key row == key earlier) (rows ++ more) kept =
      List.eraseDupsBy.loop (fun row earlier => key row == key earlier) more
        (List.eraseDupsBy.loop (fun row earlier => key row == key earlier) rows kept).reverse := by
  induction rows generalizing kept with
  | nil => simp [List.eraseDupsBy.loop]
  | cons row rest inductionHypothesis =>
    rw [List.cons_append, List.eraseDupsBy.loop, List.eraseDupsBy.loop]
    split
    · exact inductionHypothesis kept
    · exact inductionHypothesis (row :: kept)

/-- A row is kept when its key is new. -/
theorem distinctBy_concat (rows : List Row) (row : Row) :
    distinctBy key (rows ++ [row]) =
      if key row ∈ (distinctBy key rows).map key then distinctBy key rows
      else distinctBy key rows ++ [row] := by
  have collected := loop_append key rows [row] []
  change distinctBy key (rows ++ [row]) = List.eraseDupsBy.loop
    (fun row earlier => key row == key earlier) [row] (distinctBy key rows).reverse at collected
  rw [collected, List.eraseDupsBy.loop]
  by_cases seen : key row ∈ (distinctBy key rows).map key
  · have found : ((distinctBy key rows).reverse.any fun earlier => key row == key earlier) = true := by
      obtain ⟨earlier, member, same⟩ := List.mem_map.mp seen
      exact List.any_eq_true.mpr ⟨earlier, List.mem_reverse.mpr member, by simp [same]⟩
    rw [if_pos seen, found]
    simp [List.eraseDupsBy.loop]
  · have missing : ((distinctBy key rows).reverse.any fun earlier => key row == key earlier) = false := by
      rw [List.any_eq_false]
      intro earlier member same
      refine seen (List.mem_map.mpr ⟨earlier, List.mem_reverse.mp member, ?_⟩)
      exact (beq_iff_eq.mp same).symm
    rw [if_neg seen, missing]
    simp [List.eraseDupsBy.loop]

/-- Rows are kept in their order. -/
theorem distinctBy_sublist (rows : List Row) : List.Sublist (distinctBy key rows) rows := by
  induction rows using List.reverseRecOn with
  | nil => exact List.Sublist.refl _
  | append_singleton rest last inductionHypothesis =>
    rw [distinctBy_concat]
    split
    · exact inductionHypothesis.trans (List.sublist_append_left _ _)
    · exact inductionHypothesis.append (List.Sublist.refl _)

/-- No key is kept twice. -/
theorem nodup_distinctBy (rows : List Row) : ((distinctBy key rows).map key).Nodup := by
  induction rows using List.reverseRecOn with
  | nil => exact List.nodup_nil
  | append_singleton rest last inductionHypothesis =>
    rw [distinctBy_concat]
    split
    · exact inductionHypothesis
    · rename_i fresh
      rw [List.map_append, List.map_singleton]
      exact inductionHypothesis.append (List.nodup_singleton _) (by simpa using fresh)

/-- More rows only extend what is kept. -/
theorem distinctBy_prefix (rows more : List Row) :
    distinctBy key rows <+: distinctBy key (rows ++ more) := by
  induction more using List.reverseRecOn with
  | nil => rw [List.append_nil]
  | append_singleton rest last inductionHypothesis =>
    rw [← List.append_assoc, distinctBy_concat]
    split
    · exact inductionHypothesis
    · exact inductionHypothesis.trans (List.prefix_append _ _)

/-- The first row is kept first. -/
theorem exists_distinctBy_cons (row : Row) (rows : List Row) :
    ∃ others, distinctBy key (row :: rows) = row :: others := by
  obtain ⟨others, same⟩ := distinctBy_prefix key [row] rows
  exact ⟨others, same.symm⟩

/-- The kept rows have the keys of all rows. -/
theorem mem_map_distinctBy {rows : List Row} {name : Key} :
    name ∈ (distinctBy key rows).map key ↔ name ∈ rows.map key := by
  induction rows using List.reverseRecOn with
  | nil => simp
  | append_singleton rest last inductionHypothesis =>
    rw [distinctBy_concat, List.map_append, List.mem_append, ← inductionHypothesis]
    split
    · rename_i seen
      constructor
      · exact Or.inl
      · rintro (earlier | here)
        · exact earlier
        · rw [List.map_singleton, List.mem_singleton] at here
          exact here ▸ seen
    · rw [List.map_append, List.mem_append]

/-- As many rows are kept as there are keys. -/
theorem length_distinctBy (rows : List Row) :
    (distinctBy key rows).length = (rows.map key).toFinset.card := by
  rw [← List.length_map key, ← List.toFinset_card_of_nodup (nodup_distinctBy key rows)]
  congr 1
  ext name
  rw [List.mem_toFinset, List.mem_toFinset, mem_map_distinctBy]

/-- The rows kept first are those whose key is new and has few others before it. -/
theorem mem_take_distinctBy {rows : List Row} {limit : Nat} {row : Row} :
    row ∈ (distinctBy key rows).take limit ↔ ∃ before after, rows = before ++ row :: after ∧
      key row ∉ before.map key ∧ (before.map key).toFinset.card < limit := by
  induction rows using List.reverseRecOn with
  | nil => simp
  | append_singleton rest last inductionHypothesis =>
    have earlier : row ∈ (distinctBy key rest).take limit → ∃ before after,
        rest ++ [last] = before ++ row :: after ∧ key row ∉ before.map key ∧
          (before.map key).toFinset.card < limit := by
      intro member
      obtain ⟨before, after, rfl, fresh, few⟩ := inductionHypothesis.mp member
      exact ⟨before, after ++ [last], by simp, fresh, few⟩
    have split {before after : List Row} (whole : rest ++ [last] = before ++ row :: after) :
        (after = [] ∧ before = rest ∧ row = last) ∨
          ∃ others, after = others ++ [last] ∧ rest = before ++ row :: others := by
      rcases List.eq_nil_or_concat' after with rfl | ⟨others, final, rfl⟩
      · obtain ⟨same, final⟩ := List.append_inj' whole rfl
        exact Or.inl ⟨rfl, same.symm, (List.singleton_inj.mp final).symm⟩
      · have whole : rest ++ [last] = (before ++ row :: others) ++ [final] := by simpa using whole
        obtain ⟨same, final⟩ := List.append_inj' whole rfl
        exact Or.inr ⟨others, by rw [List.singleton_inj.mp final], same⟩
    rw [distinctBy_concat]
    by_cases seen : key last ∈ (distinctBy key rest).map key
    · rw [if_pos seen]
      refine ⟨earlier, ?_⟩
      rintro ⟨before, after, whole, fresh, few⟩
      rcases split whole with ⟨rfl, rfl, rfl⟩ | ⟨others, rfl, rfl⟩
      · exact absurd (mem_map_distinctBy key |>.mp seen) fresh
      · exact inductionHypothesis.mpr ⟨before, others, rfl, fresh, few⟩
    · rw [if_neg seen, List.take_append, List.mem_append]
      constructor
      · rintro (here | final)
        · exact earlier here
        · obtain ⟨room, same⟩ : (distinctBy key rest).length < limit ∧ row = last := by
            have some_room : limit - (distinctBy key rest).length ≠ 0 := by
              intro none
              rw [none, List.take_zero] at final
              cases final
            exact ⟨by omega, List.mem_singleton.mp (List.mem_of_mem_take final)⟩
          rw [length_distinctBy] at room
          subst same
          exact ⟨rest, [], rfl, fun member => seen ((mem_map_distinctBy key).mpr member), room⟩
      · rintro ⟨before, after, whole, fresh, few⟩
        rcases split whole with ⟨rfl, rfl, rfl⟩ | ⟨others, rfl, rfl⟩
        · right
          rw [← length_distinctBy] at few
          rw [List.take_of_length_le (by simp; omega)]
          exact List.mem_singleton_self _
        · exact Or.inl (inductionHypothesis.mpr ⟨before, others, rfl, fresh, few⟩)

/-- The kept rows are those whose key is new. -/
theorem mem_distinctBy {rows : List Row} {row : Row} :
    row ∈ distinctBy key rows ↔ ∃ before after, rows = before ++ row :: after ∧
      key row ∉ before.map key := by
  have whole : (distinctBy key rows).take (rows.length + 1) = distinctBy key rows :=
    List.take_of_length_le ((distinctBy_sublist key rows).length_le.trans (Nat.le_succ _))
  rw [← whole, mem_take_distinctBy]
  refine exists_congr fun before => exists_congr fun after => ?_
  refine ⟨fun ⟨same, fresh, _⟩ => ⟨same, fresh⟩, fun ⟨same, fresh⟩ => ⟨same, fresh, ?_⟩⟩
  have shorter : before.length < rows.length + 1 := by
    rw [same, List.length_append]
    omega
  refine lt_of_le_of_lt (List.toFinset_card_le _) ?_
  rwa [List.length_map]

/-- Later rows are kept when their key is new after the earlier ones too. -/
theorem mem_distinctBy_append {rows more : List Row} {row : Row} :
    row ∈ distinctBy key (rows ++ more) ↔ row ∈ distinctBy key rows ∨
      row ∈ distinctBy key more ∧ ∀ other ∈ rows, key other ≠ key row := by
  simp only [mem_distinctBy]
  constructor
  · rintro ⟨before, after, whole, fresh⟩
    rcases List.append_eq_append_iff.mp whole with ⟨middle, rfl, rfl⟩ | ⟨middle, rfl, rest⟩
    · rw [List.map_append, List.mem_append, not_or] at fresh
      refine Or.inr ⟨⟨middle, after, rfl, fresh.2⟩, fun other member same => fresh.1 ?_⟩
      exact List.mem_map.mpr ⟨other, member, same⟩
    · cases middle with
      | nil =>
        rw [List.append_nil]
        exact Or.inr ⟨⟨[], after, rest.symm, by simp⟩, fun other member same =>
          fresh (List.mem_map.mpr ⟨other, member, same⟩)⟩
      | cons head middle =>
        obtain ⟨rfl, -⟩ := List.cons.inj rest
        exact Or.inl ⟨before, middle, rfl, fresh⟩
  · rintro (⟨before, after, rfl, fresh⟩ | ⟨⟨before, after, rfl, fresh⟩, unseen⟩)
    · exact ⟨before, after ++ more, by simp, fresh⟩
    · refine ⟨rows ++ before, after, by simp, ?_⟩
      rw [List.map_append, List.mem_append, not_or]
      refine ⟨fun seen => ?_, fresh⟩
      obtain ⟨other, member, same⟩ := List.mem_map.mp seen
      exact unseen other member same

/-- Rows with distinct keys are all kept. -/
theorem distinctBy_eq_self {rows : List Row} (nodup : (rows.map key).Nodup) :
    distinctBy key rows = rows := by
  refine (distinctBy_sublist key rows).eq_of_length ?_
  rw [length_distinctBy, List.toFinset_card_of_nodup nodup, List.length_map]

/-- All rows are kept exactly when no two of them share a key. -/
theorem forall_mem_distinctBy_iff {rows : List Row} :
    (∀ row ∈ rows, row ∈ distinctBy key rows) ↔
      ∀ first ∈ rows, ∀ second ∈ rows, key first = key second → first = second := by
  constructor
  · intro kept first firstIn second secondIn same
    exact List.inj_on_of_nodup_map (nodup_distinctBy key rows) (kept first firstIn)
      (kept second secondIn) same
  · intro apart row member
    obtain ⟨before, after, whole, fresh⟩ := List.eq_append_cons_of_mem member
    refine (mem_distinctBy key).mpr ⟨before, after, whole, fun seen => ?_⟩
    obtain ⟨other, earlier, same⟩ := List.mem_map.mp seen
    obtain rfl := apart other (by rw [whole]; simp [earlier]) row member same
    exact fresh earlier

/-- Once enough rows are kept, more rows do not change the first ones. -/
theorem take_distinctBy_append {rows more : List Row} {limit : Nat}
    (enough : limit ≤ (distinctBy key rows).length) :
    (distinctBy key (rows ++ more)).take limit = (distinctBy key rows).take limit := by
  obtain ⟨rest, same⟩ := distinctBy_prefix key rows more
  rw [← same, List.take_append_of_le_length enough]

end Distinct
