/-
This file is a small library on loops that gather rows from a ranking: they scan its first rows,
skip those that are not accepted or whose key they have seen, and stop with enough of them. A
ranking orders rows of equal score as it likes. The file says which rows such a loop gathers
under some order of the ties, which it gathers under every order, and when the best of what
several loops gather does not depend on the ties at all.
-/

import FleetMemory.Distinct
import Mathlib.Data.Finset.Card
import Mathlib.Data.List.Flatten
import Mathlib.Data.List.Sort
import Mathlib.Tactic.Tauto

namespace Gather

open Distinct

/-- What loops have in common: how they score a row and name it, how many rows they scan and how
many they gather. -/
structure Rules (Row Key Score : Type) where
  score : Row → Score
  key : Row → Key
  bound : Nat
  limit : Nat

namespace Rules

variable {Row Key Score : Type} [DecidableEq Key] (rules : Rules Row Key Score)
  (accepts : Row → Bool)

/-- What a loop gathers from a ranking. -/
def gather (ranking : List Row) : List Row :=
  (distinctBy rules.key ((ranking.take rules.bound).filter accepts)).take rules.limit

/-- The keys of the accepted rows. -/
def keys (rows : List Row) : Finset Key :=
  ((rows.filter accepts).map rules.key).toFinset

/-! ### Which rows are gathered -/

/-- A loop gathers a row it comes to after the given ones. -/
structure Reaches (before : List Row) (row : Row) : Prop where
  accepted : accepts row = true
  scanned : before.length < rules.bound
  fresh : rules.key row ∉ rules.keys accepts before
  room : (rules.keys accepts before).card < rules.limit

variable {rules accepts}

theorem mem_keys {rows : List Row} {name : Key} :
    name ∈ rules.keys accepts rows ↔ ∃ row ∈ rows, accepts row = true ∧ rules.key row = name := by
  simp [keys, and_assoc]

theorem keys_mono {rows others : List Row} (inside : ∀ row ∈ rows, row ∈ others) :
    rules.keys accepts rows ⊆ rules.keys accepts others := by
  intro name member
  obtain ⟨row, listed, accepted, named⟩ := mem_keys.mp member
  exact mem_keys.mpr ⟨row, inside row listed, accepted, named⟩

/-- A row is reached more easily after fewer rows. -/
theorem Reaches.mono {before fewer : List Row} {row : Row}
    (reaches : rules.Reaches accepts before row) (shorter : fewer.length ≤ before.length)
    (inside : ∀ other ∈ fewer, other ∈ before) : rules.Reaches accepts fewer row :=
  ⟨reaches.accepted, shorter.trans_lt reaches.scanned,
    fun seen => reaches.fresh (keys_mono inside seen),
    (Finset.card_le_card (keys_mono inside)).trans_lt reaches.room⟩

/-- What a loop gathers are the rows it reaches. -/
theorem mem_gather {ranking : List Row} {row : Row} :
    row ∈ rules.gather accepts ranking ↔
      ∃ before after, ranking = before ++ row :: after ∧ rules.Reaches accepts before row := by
  rw [gather, mem_take_distinctBy]
  constructor
  · rintro ⟨before, after, whole, fresh, room⟩
    obtain ⟨front, rest, taken, rfl, following⟩ := List.filter_eq_append_iff.mp whole
    obtain ⟨skipped, others, rfl, rejected, accepted, -⟩ := List.filter_eq_cons_iff.mp following
    have none_skipped : rules.keys accepts (front ++ skipped) = ((front.filter accepts).map
        rules.key).toFinset := by
      have nothing : skipped.filter accepts = [] := List.filter_eq_nil_iff.mpr rejected
      rw [keys, List.filter_append, nothing, List.append_nil]
    refine ⟨front ++ skipped, others ++ ranking.drop rules.bound, ?_, accepted, ?_, ?_, ?_⟩
    · conv_lhs => rw [← List.take_append_drop rules.bound ranking, taken]
      simp
    · have within := List.length_take_le rules.bound ranking
      rw [taken] at within
      simp only [List.length_append, List.length_cons] at within ⊢
      omega
    · rw [none_skipped, List.mem_toFinset]
      exact fresh
    · rw [none_skipped]
      exact room
  · rintro ⟨before, after, rfl, accepted, scanned, fresh, room⟩
    refine ⟨before.filter accepts,
      (after.take (rules.bound - before.length - 1)).filter accepts, ?_, ?_, room⟩
    · rw [List.take_append, List.take_of_length_le scanned.le]
      obtain ⟨more, same⟩ : ∃ more, rules.bound - before.length = more + 1 :=
        ⟨rules.bound - before.length - 1, by omega⟩
      rw [same, List.take_succ_cons, List.filter_append, List.filter_cons_of_pos accepted]
      simp
    · rwa [keys, List.mem_toFinset] at fresh

/-- The gathered rows have distinct keys. -/
theorem nodup_map_gather (ranking : List Row) :
    ((rules.gather accepts ranking).map rules.key).Nodup := by
  rw [gather, List.map_take]
  exact (nodup_distinctBy rules.key _).sublist (List.take_sublist _ _)

theorem accepted_of_mem_gather {ranking : List Row} {row : Row}
    (member : row ∈ rules.gather accepts ranking) : accepts row = true := by
  obtain ⟨before, after, -, reaches⟩ := mem_gather.mp member
  exact reaches.accepted

theorem mem_of_mem_gather {ranking : List Row} {row : Row}
    (member : row ∈ rules.gather accepts ranking) : row ∈ ranking := by
  obtain ⟨before, after, rfl, -⟩ := mem_gather.mp member
  simp

/-! ### Orders of the ties -/

variable [LinearOrder Score]

variable (rules) in
/-- Rows listed best first, with the ties in any order. -/
structure Ranks (rows ranking : List Row) : Prop where
  perm : ranking.Perm rows
  sorted : ranking.Pairwise fun first second => rules.score second ≤ rules.score first

variable (rules accepts) in
/-- Some order of the ties gathers the row: it is reached after the rows that score better. -/
def Reachable (rows : List Row) (row : Row) : Prop :=
  row ∈ rows ∧ rules.Reaches accepts
    (rows.filter fun other => decide (rules.score row < rules.score other)) row

variable (rules accepts) in
/-- Every order of the ties gathers the row: even the rows that score as well leave room for it. -/
structure Certain (rows : List Row) (row : Row) : Prop where
  listed : row ∈ rows
  accepted : accepts row = true
  scanned : (rows.filter fun other => decide (rules.score row ≤ rules.score other)).length ≤
    rules.bound
  alone : ∀ other ∈ rows, accepts other = true → rules.score row ≤ rules.score other →
    rules.key other = rules.key row → other = row
  room : (rules.keys accepts
    (rows.filter fun other => decide (rules.score row ≤ rules.score other))).card ≤ rules.limit

variable (rules accepts) in
/-- The rows that can come before every accepted row of a key. -/
noncomputable def ahead (rows : List Row) (name : Key) (row : Row) : List Row :=
  rows.filter fun other => decide (rules.score row < rules.score other ∨
    (rules.score row = rules.score other ∧ ¬(accepts other = true ∧ rules.key other = name)))

variable (rules accepts) in
/-- Every order of the ties gathers some row of the key. -/
def KeyCertain (rows : List Row) (name : Key) : Prop :=
  ∃ row ∈ rows, rules.key row = name ∧ rules.Reaches accepts (rules.ahead accepts rows name row) row

variable (rules) in
/-- The order that puts some rows behind the others of their score. -/
def delayed (late : Row → Bool) (rows : List Row) : List Row :=
  rows.mergeSort fun first second => decide (rules.score second < rules.score first) ||
    (decide (rules.score first = rules.score second) && (!late first || late second))

omit [DecidableEq Key] in
theorem sorted_delayed (late : Row → Bool) (rows : List Row) :
    (rules.delayed late rows).Pairwise fun first second =>
      rules.score second < rules.score first ∨ (rules.score first = rules.score second ∧
        (late first = true → late second = true)) := by
  refine (List.pairwise_mergeSort ?_ ?_ rows).imp fun {first second} comes => ?_
  · intro first second third firstly secondly
    simp only [Bool.or_eq_true, Bool.and_eq_true, decide_eq_true_eq, Bool.not_eq_true'] at *
    rcases firstly with above | ⟨same, early⟩
    · rcases secondly with more | ⟨equal, -⟩
      · exact Or.inl (more.trans above)
      · exact Or.inl (equal ▸ above)
    · rcases secondly with more | ⟨equal, later⟩
      · exact Or.inl (same ▸ more)
      · refine Or.inr ⟨same.trans equal, ?_⟩
        rcases early with first_early | second_late
        · exact Or.inl first_early
        · rcases later with second_early | third_late
          · rw [second_late] at second_early
            cases second_early
          · exact Or.inr third_late
  · intro first second
    simp only [Bool.or_eq_true, Bool.and_eq_true, decide_eq_true_eq, Bool.not_eq_true']
    rcases lt_trichotomy (rules.score first) (rules.score second) with below | same | above
    · exact Or.inr (Or.inl below)
    · cases late first <;> cases late second <;> simp [same]
    · exact Or.inl (Or.inl above)
  · simp only [Bool.or_eq_true, Bool.and_eq_true, decide_eq_true_eq, Bool.not_eq_true'] at comes
    rcases comes with above | ⟨same, early | late_second⟩
    · exact Or.inl above
    · exact Or.inr ⟨same, fun late_first => by rw [early] at late_first; cases late_first⟩
    · exact Or.inr ⟨same, fun _ => late_second⟩

omit [DecidableEq Key] in
theorem ranks_delayed (late : Row → Bool) (rows : List Row) :
    rules.Ranks rows (rules.delayed late rows) := by
  refine ⟨List.mergeSort_perm _ _, (sorted_delayed late rows).imp fun {first second} comes => ?_⟩
  rcases comes with above | ⟨same, -⟩
  · exact above.le
  · exact same.ge

omit [DecidableEq Key] in
/-- As many rows of a ranking meet a condition as rows that are ranked. -/
theorem Ranks.length_filter {rows ranking : List Row} (ranks : rules.Ranks rows ranking)
    (condition : Row → Bool) :
    (ranking.filter condition).length = (rows.filter condition).length :=
  (ranks.perm.filter condition).length_eq

/-- A row some order gathers is reachable. -/
theorem Ranks.reachable {rows ranking : List Row} {row : Row} (ranks : rules.Ranks rows ranking)
    (member : row ∈ rules.gather accepts ranking) : rules.Reachable accepts rows row := by
  obtain ⟨before, after, rfl, reaches⟩ := mem_gather.mp member
  have none_after : (row :: after).filter
      (fun other => decide (rules.score row < rules.score other)) = [] := by
    refine List.filter_eq_nil_iff.mpr fun other listed => ?_
    have sorted := (List.pairwise_append.mp ranks.sorted).2.1
    rw [decide_eq_true_eq, not_lt]
    rcases List.mem_cons.mp listed with rfl | later
    · exact le_refl _
    · exact (List.pairwise_cons.mp sorted).1 other later
  refine ⟨ranks.perm.mem_iff.mp (by simp), reaches.mono ?_ ?_⟩
  · rw [← ranks.length_filter, List.filter_append, none_after, List.append_nil]
    exact List.length_filter_le _ _
  · intro other better
    obtain ⟨listed, above⟩ := List.mem_filter.mp better
    rcases List.mem_append.mp (ranks.perm.mem_iff.mpr listed) with here | later
    · exact here
    · exact absurd above (List.filter_eq_nil_iff.mp none_after other later)

/-- A reachable row is gathered by an order. -/
theorem Reachable.exists_ranks {rows : List Row} {row : Row}
    (reachable : rules.Reachable accepts rows row) :
    ∃ ranking, rules.Ranks rows ranking ∧ row ∈ rules.gather accepts ranking := by
  classical
  -- the row comes first among those of its score
  have ranks : rules.Ranks rows (rules.delayed (fun other => decide (other ≠ row)) rows) :=
    ranks_delayed _ rows
  have sorted := @sorted_delayed _ _ _ rules _ (fun other => decide (other ≠ row)) rows
  obtain ⟨before, after, whole, absent⟩ :=
    List.eq_append_cons_of_mem (ranks.perm.mem_iff.mpr reachable.1)
  rw [whole] at ranks sorted
  have above : ∀ other ∈ before, rules.score row < rules.score other := by
    intro other earlier
    rcases (List.pairwise_append.mp sorted).2.2 other earlier row List.mem_cons_self with
      above | ⟨-, late⟩
    · exact above
    · have different : other ≠ row := fun same => absent (same ▸ earlier)
      simp [different] at late
  refine ⟨_, ranks, mem_gather.mpr ⟨before, after, rfl, reachable.2.mono ?_ ?_⟩⟩
  · rw [← ranks.length_filter, List.filter_append, List.filter_eq_self.mpr (by simpa using above)]
    simp
  · intro other earlier
    exact List.mem_filter.mpr ⟨ranks.perm.mem_iff.mp (by simp [earlier]),
      by simpa using above other earlier⟩

omit [DecidableEq Key] in
/-- A row that comes first in a ranking scores at least as well as what comes later. -/
theorem Ranks.score_le {rows before after : List Row} {row other : Row}
    (ranks : rules.Ranks rows (before ++ row :: after)) (earlier : other ∈ before) :
    rules.score row ≤ rules.score other :=
  (List.pairwise_append.mp ranks.sorted).2.2 other earlier row List.mem_cons_self

/-- A certain row is gathered by every order. -/
theorem Certain.mem_gather {rows ranking : List Row} {row : Row}
    (certain : rules.Certain accepts rows row) (ranks : rules.Ranks rows ranking) :
    row ∈ rules.gather accepts ranking := by
  obtain ⟨before, after, rfl, absent⟩ :=
    List.eq_append_cons_of_mem (ranks.perm.mem_iff.mpr certain.listed)
  have listed {other : Row} (earlier : other ∈ before) : other ∈ rows :=
    ranks.perm.mem_iff.mp (by simp [earlier])
  have inside : ∀ other ∈ before ++ [row],
      other ∈ rows.filter fun other => decide (rules.score row ≤ rules.score other) := by
    intro other member
    rcases List.mem_append.mp member with earlier | last
    · exact List.mem_filter.mpr ⟨listed earlier, by simpa using ranks.score_le earlier⟩
    · obtain rfl := List.mem_singleton.mp last
      exact List.mem_filter.mpr ⟨certain.listed, by simp⟩
  have fresh : rules.key row ∉ rules.keys accepts before := by
    intro seen
    obtain ⟨other, earlier, accepted, named⟩ := mem_keys.mp seen
    exact absent (certain.alone other (listed earlier) accepted (ranks.score_le earlier) named ▸
      earlier)
  refine Rules.mem_gather.mpr ⟨before, after, rfl, certain.accepted, ?_, fresh, ?_⟩
  · have all : (before ++ [row]).filter
        (fun other => decide (rules.score row ≤ rules.score other)) = before ++ [row] :=
      List.filter_eq_self.mpr fun other member => (List.mem_filter.mp (inside other member)).2
    have counted := ranks.length_filter
      fun other => decide (rules.score row ≤ rules.score other)
    have split : before ++ row :: after = (before ++ [row]) ++ after := by simp
    rw [split, List.filter_append, all] at counted
    have within := certain.scanned
    rw [← counted] at within
    simp only [List.length_append, List.length_singleton] at within
    omega
  · have more : insert (rules.key row) (rules.keys accepts before) ⊆ rules.keys accepts
        (rows.filter fun other => decide (rules.score row ≤ rules.score other)) := by
      refine Finset.insert_subset ?_ (keys_mono fun other earlier => inside other (by simp [earlier]))
      exact mem_keys.mpr ⟨row, inside row (by simp), certain.accepted, rfl⟩
    have counted := Finset.card_le_card more
    rw [Finset.card_insert_of_notMem fresh] at counted
    exact counted.trans certain.room

/-- A row that is not certain is left out by an order. -/
theorem exists_ranks_not_mem {rows : List Row} {row : Row} (nodup : rows.Nodup)
    (uncertain : ¬rules.Certain accepts rows row) :
    ∃ ranking, rules.Ranks rows ranking ∧ row ∉ rules.gather accepts ranking := by
  classical
  -- the row comes last among those of its score
  have ranks : rules.Ranks rows (rules.delayed (fun other => decide (other = row)) rows) :=
    ranks_delayed _ rows
  have sorted := @sorted_delayed _ _ _ rules _ (fun other => decide (other = row)) rows
  refine ⟨_, ranks, fun member => uncertain ?_⟩
  obtain ⟨before, after, whole, reaches⟩ := Rules.mem_gather.mp member
  rw [whole] at ranks sorted
  have distinct := ranks.perm.nodup_iff.mpr nodup
  have below : ∀ other ∈ after, ¬rules.score row ≤ rules.score other := by
    intro other later
    rcases (List.pairwise_cons.mp (List.pairwise_append.mp sorted).2.1).1 other later with
      above | ⟨-, late⟩
    · exact not_le.mpr above
    · have same : other = row := by simpa using late
      subst same
      exact absurd later (List.nodup_cons.mp (List.nodup_append.mp distinct).2.1).1
  have inside {other : Row} (listed : other ∈ rows)
      (reached : rules.score row ≤ rules.score other) : other ∈ before ∨ other = row := by
    rcases List.mem_append.mp (ranks.perm.mem_iff.mpr listed) with earlier | here
    · exact Or.inl earlier
    · rcases List.mem_cons.mp here with same | later
      · exact Or.inr same
      · exact absurd reached (below other later)
  refine ⟨ranks.perm.mem_iff.mp (by simp), reaches.accepted, ?_, ?_, ?_⟩
  · have none_after : after.filter
        (fun other => decide (rules.score row ≤ rules.score other)) = [] :=
      List.filter_eq_nil_iff.mpr fun other later => by simpa using below other later
    rw [← ranks.length_filter, List.filter_append, List.filter_cons_of_pos (by simp), none_after,
      List.length_append, List.length_singleton]
    exact Nat.succ_le_of_lt ((List.length_filter_le _ _).trans_lt reaches.scanned)
  · intro other listed accepted reached named
    rcases inside listed reached with earlier | same
    · exact absurd (mem_keys.mpr ⟨other, earlier, accepted, named⟩) reaches.fresh
    · exact same
  · have fewer : rules.keys accepts
        (rows.filter fun other => decide (rules.score row ≤ rules.score other)) ⊆
          insert (rules.key row) (rules.keys accepts before) := by
      intro name member
      obtain ⟨other, kept, accepted, named⟩ := mem_keys.mp member
      obtain ⟨listed, reached⟩ := List.mem_filter.mp kept
      rcases inside listed (by simpa using reached) with earlier | rfl
      · exact Finset.mem_insert_of_mem (mem_keys.mpr ⟨other, earlier, accepted, named⟩)
      · exact Finset.mem_insert.mpr (Or.inl named.symm)
    exact (Finset.card_le_card fewer).trans
      ((Finset.card_insert_le _ _).trans (Nat.succ_le_of_lt reaches.room))

/-- A certain key has a row in what every order gathers. -/
theorem KeyCertain.exists_mem {rows ranking : List Row} {name : Key}
    (certain : rules.KeyCertain accepts rows name) (ranks : rules.Ranks rows ranking) :
    ∃ row ∈ rules.gather accepts ranking, rules.key row = name := by
  classical
  obtain ⟨row, listed, named, reaches⟩ := certain
  -- the first accepted row of the key
  have some_row : ∃ other ∈ ranking, accepts other = true ∧ rules.key other = name :=
    ⟨row, ranks.perm.mem_iff.mpr listed, reaches.accepted, named⟩
  obtain ⟨before, first, after, rfl, ⟨accepted, ofKey⟩, earliest⟩ :
      ∃ before first after, ranking = before ++ first :: after ∧
        (accepts first = true ∧ rules.key first = name) ∧
        ∀ other ∈ before, ¬(accepts other = true ∧ rules.key other = name) := by
    have exists_first : (ranking.find? fun other =>
        accepts other && decide (rules.key other = name)).isSome = true :=
      List.find?_isSome.mpr (by simpa using some_row)
    obtain ⟨first, found⟩ := Option.isSome_iff_exists.mp exists_first
    obtain ⟨holds, before, after, whole, none_before⟩ := List.find?_eq_some_iff_append.mp found
    exact ⟨before, first, after, whole, by simpa using holds,
      fun other earlier both => by simpa [both.1, both.2] using none_before other earlier⟩
  have from_first : rules.score row ≤ rules.score first := by
    rcases List.mem_append.mp (ranks.perm.mem_iff.mpr listed) with earlier | here
    · exact absurd ⟨reaches.accepted, named⟩ (earliest row earlier)
    · rcases List.mem_cons.mp here with same | later
      · exact (congrArg rules.score same).le
      · exact (List.pairwise_cons.mp (List.pairwise_append.mp ranks.sorted).2.1).1 row later
  have inside : ∀ other ∈ before, other ∈ rules.ahead accepts rows name row := by
    intro other earlier
    refine List.mem_filter.mpr ⟨ranks.perm.mem_iff.mp (by simp [earlier]), ?_⟩
    rcases (from_first.trans (ranks.score_le earlier)).lt_or_eq with above | same
    · exact decide_eq_true (Or.inl above)
    · exact decide_eq_true (Or.inr ⟨same, earliest other earlier⟩)
  have all : before.filter (fun other => decide (rules.score row < rules.score other ∨
      (rules.score row = rules.score other ∧ ¬(accepts other = true ∧ rules.key other = name)))) =
        before :=
    List.filter_eq_self.mpr fun other earlier => (List.mem_filter.mp (inside other earlier)).2
  have shorter : before.length ≤ (rules.ahead accepts rows name row).length := by
    rw [ahead, ← ranks.length_filter, List.filter_append, all, List.length_append]
    exact Nat.le_add_right _ _
  have reached := reaches.mono shorter inside
  refine ⟨first, Rules.mem_gather.mpr ⟨before, after, rfl, accepted, reached.scanned, ?_,
    reached.room⟩, ofKey⟩
  rw [ofKey, ← named]
  exact reached.fresh

/-- A key that is not certain is left out by an order. -/
theorem exists_ranks_avoiding {rows : List Row} {name : Key}
    (uncertain : ¬rules.KeyCertain accepts rows name) :
    ∃ ranking, rules.Ranks rows ranking ∧
      ∀ row ∈ rules.gather accepts ranking, rules.key row ≠ name := by
  -- the accepted rows of the key come last among those of their score
  have ranks : rules.Ranks rows (rules.delayed
      (fun other => accepts other && decide (rules.key other = name)) rows) :=
    ranks_delayed _ rows
  have sorted := @sorted_delayed _ _ _ rules _
    (fun other => accepts other && decide (rules.key other = name)) rows
  refine ⟨_, ranks, fun row member named => uncertain ?_⟩
  obtain ⟨before, after, whole, reaches⟩ := Rules.mem_gather.mp member
  rw [whole] at ranks sorted
  refine ⟨row, ranks.perm.mem_iff.mp (by simp), named, ?_⟩
  have behind : ∀ other ∈ after, ¬(rules.score row < rules.score other ∨
      (rules.score row = rules.score other ∧ ¬(accepts other = true ∧ rules.key other = name))) := by
    rintro other later comes
    rcases (List.pairwise_cons.mp (List.pairwise_append.mp sorted).2.1).1 other later with
      above | ⟨same, late⟩
    · rcases comes with better | ⟨equal, -⟩
      · exact absurd better above.not_gt
      · exact absurd equal above.ne'
    · rcases comes with better | ⟨-, other_key⟩
      · exact absurd same better.ne
      · exact other_key (by simpa using late (by simp [reaches.accepted, named]))
  have none_behind : (row :: after).filter (fun other => decide (rules.score row < rules.score other ∨
      (rules.score row = rules.score other ∧
        ¬(accepts other = true ∧ rules.key other = name)))) = [] := by
    refine List.filter_eq_nil_iff.mpr fun other listed => ?_
    rcases List.mem_cons.mp listed with rfl | later
    · simp [reaches.accepted, named]
    · simpa using behind other later
  refine reaches.mono ?_ fun other earlier => ?_
  · rw [ahead, ← ranks.length_filter, List.filter_append, none_behind, List.append_nil]
    exact List.length_filter_le _ _
  · obtain ⟨listed, comes⟩ := List.mem_filter.mp earlier
    rcases List.mem_append.mp (ranks.perm.mem_iff.mpr listed) with here | later
    · exact here
    · exact absurd comes (List.filter_eq_nil_iff.mp none_behind other later)

end Rules

/-! ### The best rows -/

/-- The first rows in the order of a comparison. -/
def best {Row : Type} (comes : Row → Row → Bool) (count : Nat) (rows : List Row) : List Row :=
  (rows.mergeSort comes).take count

/-- Enough contenders come before the row. -/
def Beaten {Row : Type} (comes : Row → Row → Bool) (count : Nat) (contends : Row → Prop)
    (row : Row) : Prop :=
  ∃ others : List Row, others.Nodup ∧ others.length = count ∧
    ∀ other ∈ others, contends other ∧ comes other row = true ∧ other ≠ row

theorem Beaten.mono {Row : Type} {comes : Row → Row → Bool} {count : Nat}
    {contends more : Row → Prop} {row : Row} (beaten : Beaten comes count contends row)
    (wider : ∀ other, contends other → more other) : Beaten comes count more row := by
  obtain ⟨others, nodup, enough, before⟩ := beaten
  exact ⟨others, nodup, enough, fun other member =>
    ⟨wider other (before other member).1, (before other member).2⟩⟩

/-- A comparison that puts any two rows of a kind in one order. -/
structure Compares {Row : Type} (comes : Row → Row → Bool) (kind : Row → Prop) : Prop where
  trans : ∀ first second third, comes first second = true → comes second third = true →
    comes first third = true
  total : ∀ first second, (comes first second || comes second first) = true
  antisymm : ∀ first second, kind first → kind second → comes first second = true →
    comes second first = true → first = second

section

variable {Row : Type} {comes : Row → Row → Bool} {count : Nat} {kind : Row → Prop}
  {rows others : List Row} {row : Row}

theorem best_sublist : List.Sublist (best comes count rows) (rows.mergeSort comes) :=
  List.take_sublist _ _

theorem mem_of_mem_best (member : row ∈ best comes count rows) : row ∈ rows :=
  List.mem_mergeSort.mp (best_sublist.subset member)

theorem nodup_best (nodup : rows.Nodup) : (best comes count rows).Nodup :=
  ((List.mergeSort_perm rows comes).nodup_iff.mpr nodup).sublist best_sublist

theorem length_best (enough : count ≤ rows.length) : (best comes count rows).length = count := by
  rw [best, List.length_take, List.length_mergeSort, min_eq_left enough]

/-- A best row comes before every row that is not. -/
theorem comes_of_mem_best (compares : Compares comes kind) (member : row ∈ best comes count rows)
    {other : Row} (listed : other ∈ rows) (left_out : other ∉ best comes count rows) :
    comes row other = true := by
  have sorted := List.pairwise_mergeSort compares.trans compares.total rows
  rw [← List.take_append_drop count (rows.mergeSort comes)] at sorted
  refine (List.pairwise_append.mp sorted).2.2 row member other ?_
  have both : other ∈ rows.mergeSort comes := List.mem_mergeSort.mpr listed
  rw [← List.take_append_drop count (rows.mergeSort comes)] at both
  exact (List.mem_append.mp both).resolve_left left_out

/-- The best rows are those that are not beaten. -/
theorem mem_best (compares : Compares comes kind) (ofKind : ∀ row ∈ rows, kind row)
    (nodup : rows.Nodup) :
    row ∈ best comes count rows ↔ row ∈ rows ∧ ¬Beaten comes count (· ∈ rows) row := by
  have sorted := List.pairwise_mergeSort compares.trans compares.total rows
  have distinct := (List.mergeSort_perm rows comes).nodup_iff.mpr nodup
  constructor
  · intro member
    refine ⟨mem_of_mem_best member, ?_⟩
    rintro ⟨others, othersNodup, enough, before⟩
    -- those that come before a best row are best rows too
    have inside : ∀ other ∈ row :: others, other ∈ best comes count rows := by
      intro other listed
      rcases List.mem_cons.mp listed with rfl | earlier
      · exact member
      · obtain ⟨there, comesBefore, different⟩ := before other earlier
        by_contra left_out
        exact different (compares.antisymm other row (ofKind other there)
          (ofKind row (mem_of_mem_best member)) comesBefore
          (comes_of_mem_best compares member there left_out))
    have fresh : row ∉ others := fun again => (before row again).2.2 rfl
    have within := ((List.nodup_cons.mpr ⟨fresh, othersNodup⟩).subperm inside).length_le
    rw [List.length_cons, enough] at within
    have cut : (best comes count rows).length ≤ count := List.length_take_le _ _
    omega
  · rintro ⟨listed, unbeaten⟩
    by_contra left_out
    by_cases enough : count ≤ rows.length
    · refine unbeaten ⟨best comes count rows, nodup_best nodup, length_best enough, ?_⟩
      intro other member
      exact ⟨mem_of_mem_best member, comes_of_mem_best compares member listed left_out,
        fun same => left_out (same ▸ member)⟩
    · refine left_out ?_
      rw [best, List.take_of_length_le (by rw [List.length_mergeSort]; omega)]
      exact List.mem_mergeSort.mpr listed

/-- The same best rows are listed in the same order. -/
theorem best_congr (compares : Compares comes kind) (ofKind : ∀ row ∈ rows, kind row)
    (nodup : rows.Nodup) (othersNodup : others.Nodup)
    (same : ∀ row, row ∈ best comes count rows ↔ row ∈ best comes count others) :
    best comes count rows = best comes count others := by
  have sorted (list : List Row) : (best comes count list).Pairwise (comes · · = true) :=
    (List.pairwise_mergeSort compares.trans compares.total list).sublist best_sublist
  refine List.Perm.eq_of_pairwise ?_ (sorted rows) (sorted others)
    ((List.perm_ext_iff_of_nodup (nodup_best nodup) (nodup_best othersNodup)).mpr same)
  intro first second firstMember secondMember
  exact compares.antisymm first second (ofKind first (mem_of_mem_best firstMember))
    (ofKind second (mem_of_mem_best ((same second).mpr secondMember)))

end

namespace Rules

variable {Row Key Score : Type} [DecidableEq Key] [LinearOrder Score] {rules : Rules Row Key Score}
  {accepts : Row → Bool}

/-! ### Several loops -/

section

variable {Index : Type} (rules) (accepting : Index → Row → Bool)

/-- What several loops gather, without the rows whose key an earlier loop has gathered. -/
def merge (indices : List Index) (rankings : Index → List Row) : List Row :=
  distinctBy rules.key
    (indices.flatMap fun index => rules.gather (accepting index) (rankings index))

/-- Some orders of the ties merge the row: a loop can gather it, and no earlier one is certain to
gather its key. -/
def MayMerge (indices : List Index) (rows : Index → List Row) (row : Row) : Prop :=
  ∃ front index back, indices = front ++ index :: back ∧
    rules.Reachable (accepting index) (rows index) row ∧
    ∀ earlier ∈ front, ¬rules.KeyCertain (accepting earlier) (rows earlier) (rules.key row)

/-- Every order of the ties merges the row: a loop is certain to gather it, and no earlier one can
gather its key. -/
def MustMerge (indices : List Index) (rows : Index → List Row) (row : Row) : Prop :=
  ∃ front index back, indices = front ++ index :: back ∧
    rules.Certain (accepting index) (rows index) row ∧
    ∀ earlier ∈ front, ∀ other, rules.Reachable (accepting earlier) (rows earlier) other →
      rules.key other ≠ rules.key row

variable {rules accepting} {indices : List Index} {rows rankings : Index → List Row} {row : Row}

omit [LinearOrder Score] in
theorem mem_merge : row ∈ rules.merge accepting indices rankings ↔
    ∃ front index back, indices = front ++ index :: back ∧
      row ∈ rules.gather (accepting index) (rankings index) ∧
      ∀ earlier ∈ front, ∀ other ∈ rules.gather (accepting earlier) (rankings earlier),
        rules.key other ≠ rules.key row := by
  induction indices with
  | nil => simp [merge]
  | cons first rest inductionHypothesis =>
    have split : row ∈ rules.merge accepting (first :: rest) rankings ↔
        row ∈ rules.gather (accepting first) (rankings first) ∨
          row ∈ rules.merge accepting rest rankings ∧
            ∀ other ∈ rules.gather (accepting first) (rankings first),
              rules.key other ≠ rules.key row := by
      rw [merge, List.flatMap_cons, mem_distinctBy_append, distinctBy_eq_self _ (nodup_map_gather _)]
      simp [merge]
    rw [split, inductionHypothesis]
    constructor
    · rintro (here | ⟨⟨front, index, back, rfl, later, fresh⟩, unseen⟩)
      · exact ⟨[], first, rest, rfl, here, by simp⟩
      · refine ⟨first :: front, index, back, rfl, later, ?_⟩
        intro earlier member
        rcases List.mem_cons.mp member with rfl | inFront
        · exact unseen
        · exact fresh earlier inFront
    · rintro ⟨front, index, back, whole, gathered, fresh⟩
      cases front with
      | nil =>
        obtain ⟨rfl, rfl⟩ := List.cons.inj whole
        exact Or.inl gathered
      | cons head front =>
        obtain ⟨rfl, rfl⟩ := List.cons.inj whole
        exact Or.inr ⟨⟨front, index, back, rfl, gathered,
          fun earlier member => fresh earlier (List.mem_cons_of_mem _ member)⟩,
          fresh _ List.mem_cons_self⟩

omit [LinearOrder Score] in
theorem nodup_merge : (rules.merge accepting indices rankings).Nodup :=
  (nodup_distinctBy rules.key _).of_map _

/-- What an order of the ties merges may be merged. -/
theorem mayMerge_of_mem (ranks : ∀ index ∈ indices, rules.Ranks (rows index) (rankings index))
    (member : row ∈ rules.merge accepting indices rankings) :
    rules.MayMerge accepting indices rows row := by
  obtain ⟨front, index, back, rfl, gathered, fresh⟩ := mem_merge.mp member
  refine ⟨front, index, back, rfl, (ranks index (by simp)).reachable gathered, ?_⟩
  intro earlier inFront certain
  obtain ⟨other, there, named⟩ := certain.exists_mem (ranks earlier (by simp [inFront]))
  exact fresh earlier inFront other there named

/-- What must be merged is merged by every order of the ties. -/
theorem mem_merge_of_must (ranks : ∀ index ∈ indices, rules.Ranks (rows index) (rankings index))
    (must : rules.MustMerge accepting indices rows row) :
    row ∈ rules.merge accepting indices rankings := by
  obtain ⟨front, index, back, rfl, certain, unreachable⟩ := must
  refine mem_merge.mpr ⟨front, index, back, rfl, certain.mem_gather (ranks index (by simp)), ?_⟩
  intro earlier inFront other there
  exact unreachable earlier inFront other ((ranks earlier (by simp [inFront])).reachable there)

/-- What may be merged is merged by an order of the ties. -/
theorem MayMerge.exists_ranks (nodup : indices.Nodup)
    (sorted : ∀ index ∈ indices, ∃ ranking, rules.Ranks (rows index) ranking)
    (may : rules.MayMerge accepting indices rows row) :
    ∃ rankings : Index → List Row, (∀ index ∈ indices, rules.Ranks (rows index) (rankings index)) ∧
      row ∈ rules.merge accepting indices rankings := by
  classical
  obtain ⟨front, index, back, rfl, reachable, uncertain⟩ := may
  obtain ⟨reaching, ranked, gathered⟩ := reachable.exists_ranks
  have avoiding (earlier : Index) (inFront : earlier ∈ front) :
      ∃ ranking, rules.Ranks (rows earlier) ranking ∧
        ∀ other ∈ rules.gather (accepting earlier) ranking, rules.key other ≠ rules.key row :=
    exists_ranks_avoiding (uncertain earlier inFront)
  choose! avoids avoidsRanked avoided using avoiding
  choose! other otherRanked using sorted
  have apart : index ∉ front := fun inFront => by
    have parts := (List.nodup_append.mp nodup).2.2 index inFront index List.mem_cons_self
    exact parts rfl
  obtain ⟨chosen, chosen_eq⟩ : ∃ chosen : Index → List Row, chosen = fun each =>
      if each = index then reaching else if each ∈ front then avoids each else other each := ⟨_, rfl⟩
  have at_index : chosen index = reaching := by rw [chosen_eq]; exact if_pos rfl
  have at_front {earlier : Index} (inFront : earlier ∈ front) : chosen earlier = avoids earlier := by
    rw [chosen_eq]
    exact (if_neg fun same : earlier = index => apart (same ▸ inFront)).trans (if_pos inFront)
  refine ⟨chosen, fun each member => ?_, mem_merge.mpr ⟨front, index, back, rfl, ?_, ?_⟩⟩
  · by_cases same : each = index
    · rw [same, at_index]
      exact ranked
    · by_cases inFront : each ∈ front
      · rw [at_front inFront]
        exact avoidsRanked each inFront
      · have kept : chosen each = other each := by
          rw [chosen_eq]
          exact (if_neg same).trans (if_neg inFront)
        rw [kept]
        exact otherRanked each member
  · rwa [at_index]
  · intro earlier inFront
    rw [at_front inFront]
    exact avoided earlier inFront

/-- A row of one loop that need not be merged is left out by an order of the ties. -/
theorem exists_ranks_of_not_must (nodup : indices.Nodup)
    (distinct : ∀ index ∈ indices, (rows index).Nodup)
    (sorted : ∀ index ∈ indices, ∃ ranking, rules.Ranks (rows index) ranking)
    (apart : ∀ first ∈ indices, ∀ second ∈ indices, row ∈ rows first → row ∈ rows second →
      accepting first row = true → accepting second row = true → first = second)
    (uncertain : ¬rules.MustMerge accepting indices rows row) :
    ∃ rankings : Index → List Row, (∀ index ∈ indices, rules.Ranks (rows index) (rankings index)) ∧
      row ∉ rules.merge accepting indices rankings := by
  classical
  choose! other otherRanked using sorted
  by_cases here : row ∈ rules.merge accepting indices other
  · obtain ⟨front, index, back, rfl, gathered, fresh⟩ := mem_merge.mp here
    have inside : index ∈ front ++ index :: back := by simp
    have listed {each : Index} {ranking : List Row} (ranked : rules.Ranks (rows each) ranking)
        (there : row ∈ rules.gather (accepting each) ranking) : row ∈ rows each :=
      ranked.perm.mem_iff.mp (mem_of_mem_gather there)
    have own := listed (otherRanked index inside) gathered
    have accepted := accepted_of_mem_gather gathered
    -- one loop's ties are reordered
    have reordered {changed : Index} {ranking : List Row}
        (ranked : rules.Ranks (rows changed) ranking) (each : Index)
        (member : each ∈ front ++ index :: back) :
        rules.Ranks (rows each) (Function.update other changed ranking each) := by
      by_cases same : each = changed
      · subst same
        rw [Function.update_self]
        exact ranked
      · rw [Function.update_of_ne same]
        exact otherRanked each member
    by_cases certain : rules.Certain (accepting index) (rows index) row
    · -- an earlier loop gathers the key first
      obtain ⟨earlier, inFront, before, reachable, named⟩ : ∃ earlier ∈ front, ∃ before,
          rules.Reachable (accepting earlier) (rows earlier) before ∧
            rules.key before = rules.key row := by
        by_contra none_before
        refine uncertain ⟨front, index, back, rfl, certain, ?_⟩
        intro earlier inFront before reachable named
        exact none_before ⟨earlier, inFront, before, reachable, named⟩
      obtain ⟨ranking, ranked, reached⟩ := reachable.exists_ranks
      refine ⟨_, reordered ranked, fun member => ?_⟩
      obtain ⟨front', index', back', whole, gathered', fresh'⟩ := mem_merge.mp member
      have inside' : index' ∈ front ++ index :: back := by rw [whole]; simp
      obtain rfl : index = index' := apart index inside index' inside' own
        (listed (reordered ranked index' inside') gathered') accepted
        (accepted_of_mem_gather gathered')
      have distinct_indices := List.nodup_middle.mp nodup
      have outside := (List.nodup_cons.mp distinct_indices).1
      rw [List.mem_append, not_or] at outside
      rw [List.append_cons_inj_of_notMem outside.1 outside.2] at whole
      obtain ⟨rfl, -, -⟩ := whole
      refine fresh' earlier inFront before ?_ named
      rw [Function.update_self]
      exact reached
    · -- the loop leaves the row out
      obtain ⟨ranking, ranked, missing⟩ := exists_ranks_not_mem (distinct index inside) certain
      refine ⟨_, reordered ranked, fun member => ?_⟩
      obtain ⟨front', index', back', whole, gathered', -⟩ := mem_merge.mp member
      have inside' : index' ∈ front ++ index :: back := by rw [whole]; simp
      obtain rfl : index = index' := apart index inside index' inside' own
        (listed (reordered ranked index' inside') gathered') accepted
        (accepted_of_mem_gather gathered')
      rw [Function.update_self] at gathered'
      exact missing gathered'
  · exact ⟨other, otherRanked, here⟩

variable {comes : Row → Row → Bool} {count : Nat}

/-- When every contender that is not beaten must be merged, the best merged rows are the contenders
that are not beaten. -/
theorem mem_best_merge
    (compares : Compares comes fun row => ∃ index ∈ indices, row ∈ rows index ∧
      accepting index row = true)
    (settled : ∀ row, rules.MayMerge accepting indices rows row →
      rules.MustMerge accepting indices rows row ∨
        Beaten comes count (rules.MayMerge accepting indices rows) row)
    (ranks : ∀ index ∈ indices, rules.Ranks (rows index) (rankings index)) :
    row ∈ best comes count (rules.merge accepting indices rankings) ↔
      rules.MayMerge accepting indices rows row ∧
        ¬Beaten comes count (rules.MayMerge accepting indices rows) row := by
  classical
  have kind_of_may (other : Row) (may : rules.MayMerge accepting indices rows other) :
      ∃ index ∈ indices, other ∈ rows index ∧ accepting index other = true := by
    obtain ⟨front, index, back, rfl, reachable, -⟩ := may
    exact ⟨index, by simp, reachable.1, reachable.2.accepted⟩
  have merged_kind : ∀ other ∈ rules.merge accepting indices rankings,
      ∃ index ∈ indices, other ∈ rows index ∧ accepting index other = true :=
    fun other member => kind_of_may other (mayMerge_of_mem ranks member)
  rw [mem_best compares merged_kind nodup_merge]
  constructor
  · rintro ⟨member, unbeaten⟩
    refine ⟨mayMerge_of_mem ranks member, fun beaten => unbeaten ?_⟩
    -- the best contenders must be merged, so they beat the row among the merged rows as well
    obtain ⟨contenders, contenders_eq⟩ : ∃ contenders : List Row, contenders =
        ((indices.flatMap rows).filter fun other =>
          decide (rules.MayMerge accepting indices rows other)).dedup := ⟨_, rfl⟩
    have contends (other : Row) :
        other ∈ contenders ↔ rules.MayMerge accepting indices rows other := by
      rw [contenders_eq, List.mem_dedup, List.mem_filter, decide_eq_true_eq,
        and_iff_right_of_imp fun may => ?_]
      obtain ⟨index, inside, listed, -⟩ := kind_of_may other may
      exact List.mem_flatMap.mpr ⟨index, inside, listed⟩
    have distinct : contenders.Nodup := by
      rw [contenders_eq]
      exact List.nodup_dedup _
    have ofKind : ∀ other ∈ contenders, ∃ index ∈ indices, other ∈ rows index ∧
        accepting index other = true :=
      fun other listed => kind_of_may other ((contends other).mp listed)
    have best_iff (other : Row) : other ∈ best comes count contenders ↔
        rules.MayMerge accepting indices rows other ∧
          ¬Beaten comes count (rules.MayMerge accepting indices rows) other := by
      rw [mem_best compares ofKind distinct, contends]
      simp only [contends]
    have listed : row ∈ contenders := (contends row).mpr (mayMerge_of_mem ranks member)
    have left_out : row ∉ best comes count contenders := fun there => ((best_iff row).mp there).2 beaten
    obtain ⟨others, nodup, enough, before⟩ := beaten
    have long : count ≤ contenders.length := by
      rw [← enough]
      exact (nodup.subperm fun other inside => (contends other).mpr (before other inside).1).length_le
    refine ⟨best comes count contenders, nodup_best distinct, length_best long, ?_⟩
    intro other top
    have standing := (best_iff other).mp top
    exact ⟨mem_merge_of_must ranks ((settled other standing.1).resolve_right standing.2),
      comes_of_mem_best compares top listed left_out, fun same => left_out (same ▸ top)⟩
  · rintro ⟨may, unbeaten⟩
    refine ⟨mem_merge_of_must ranks ((settled row may).resolve_right unbeaten), fun beaten => ?_⟩
    exact unbeaten (beaten.mono fun other member => mayMerge_of_mem ranks member)

/-- The best merged rows are the same in every order of the ties exactly when each row that may be
merged must be merged or is beaten. -/
theorem best_merge_constant_iff
    (compares : Compares comes fun row => ∃ index ∈ indices, row ∈ rows index ∧
      accepting index row = true)
    (nodup : indices.Nodup) (distinct : ∀ index ∈ indices, (rows index).Nodup)
    (sorted : ∀ index ∈ indices, rules.Ranks (rows index) (rows index))
    (apart : ∀ row, ∀ first ∈ indices, ∀ second ∈ indices, row ∈ rows first → row ∈ rows second →
      accepting first row = true → accepting second row = true → first = second) :
    (∀ rankings : Index → List Row,
        (∀ index ∈ indices, rules.Ranks (rows index) (rankings index)) →
          best comes count (rules.merge accepting indices rankings) =
            best comes count (rules.merge accepting indices rows)) ↔
      ∀ row, rules.MayMerge accepting indices rows row →
        rules.MustMerge accepting indices rows row ∨
          Beaten comes count (rules.MayMerge accepting indices rows) row := by
  have merged_kind {rankings : Index → List Row}
      (ranks : ∀ index ∈ indices, rules.Ranks (rows index) (rankings index)) :
      ∀ row ∈ rules.merge accepting indices rankings,
        ∃ index ∈ indices, row ∈ rows index ∧ accepting index row = true := by
    intro row member
    obtain ⟨front, index, back, rfl, reachable, -⟩ := mayMerge_of_mem ranks member
    exact ⟨index, by simp, reachable.1, reachable.2.accepted⟩
  constructor
  · intro constant row may
    by_contra unsettled
    rw [not_or] at unsettled
    have some_order : ∀ index ∈ indices, ∃ ranking, rules.Ranks (rows index) ranking :=
      fun index inside => ⟨_, sorted index inside⟩
    obtain ⟨with_row, withRanks, merged⟩ := may.exists_ranks nodup some_order
    obtain ⟨without, withoutRanks, missing⟩ :=
      exists_ranks_of_not_must nodup distinct some_order (apart row) unsettled.1
    have top : row ∈ best comes count (rules.merge accepting indices with_row) := by
      refine (mem_best compares (merged_kind withRanks) nodup_merge).mpr ⟨merged, fun beaten => ?_⟩
      exact unsettled.2 (beaten.mono fun other member => mayMerge_of_mem withRanks member)
    rw [constant with_row withRanks, ← constant without withoutRanks] at top
    exact missing (mem_of_mem_best top)
  · intro settled rankings ranks
    refine best_congr compares (merged_kind ranks) nodup_merge nodup_merge fun row => ?_
    rw [mem_best_merge compares settled ranks, mem_best_merge compares settled sorted]

end

/-! ### Loops with room for every row -/

section

variable {Index : Type} {accepting : Index → Row → Bool} {indices : List Index}
  {rankings : Index → List Row} {comes : Row → Row → Bool} {count : Nat}

/-- The rows the loops accept, one loop after another. -/
def acceptedRows (accepting : Index → Row → Bool) (indices : List Index)
    (rankings : Index → List Row) : List Row :=
  indices.flatMap fun index => (rankings index).filter (accepting index)

omit [LinearOrder Score] in
theorem gather_sublist (index : Index) :
    List.Sublist (rules.gather (accepting index) (rankings index))
      ((rankings index).filter (accepting index)) :=
  ((List.take_sublist _ _).trans (distinctBy_sublist rules.key _)).trans
    ((List.take_sublist _ _).filter _)

omit [LinearOrder Score] in
theorem flatMap_gather_sublist (indices : List Index) :
    List.Sublist (indices.flatMap fun index => rules.gather (accepting index) (rankings index))
      (acceptedRows accepting indices rankings) :=
  List.Sublist.flatMap_right indices fun index _ => gather_sublist index

omit [LinearOrder Score] in
/-- A loop with room keeps all it accepts when no two of these rows share a key. -/
theorem mem_gather_of_room {index : Index} {row : Row}
    (scanned : (rankings index).length ≤ rules.bound)
    (room : ((rankings index).filter (accepting index)).length ≤ rules.limit)
    (apart : ∀ first ∈ (rankings index).filter (accepting index),
      ∀ second ∈ (rankings index).filter (accepting index),
        rules.key first = rules.key second → first = second)
    (member : row ∈ (rankings index).filter (accepting index)) :
    row ∈ rules.gather (accepting index) (rankings index) := by
  rw [gather, List.take_of_length_le scanned,
    List.take_of_length_le ((distinctBy_sublist rules.key _).length_le.trans room)]
  exact (forall_mem_distinctBy_iff rules.key).mpr apart row member

omit [LinearOrder Score] in
/-- Loops with room for every row merge all they accept, and the best of these leave none out,
exactly when no two accepted rows share a key. -/
theorem best_merge_complete_iff
    (scanned : ∀ index ∈ indices, (rankings index).length ≤ rules.bound)
    (room : (acceptedRows accepting indices rankings).length ≤ rules.limit)
    (enough : (acceptedRows accepting indices rankings).length ≤ count) :
    (∀ row ∈ acceptedRows accepting indices rankings,
        row ∈ best comes count (rules.merge accepting indices rankings)) ↔
      ∀ first ∈ acceptedRows accepting indices rankings,
        ∀ second ∈ acceptedRows accepting indices rankings,
          rules.key first = rules.key second → first = second := by
  constructor
  · intro complete first firstIn second secondIn same
    exact List.inj_on_of_nodup_map (nodup_distinctBy rules.key _)
      (mem_of_mem_best (complete first firstIn)) (mem_of_mem_best (complete second secondIn)) same
  · intro apart row accepted
    have part {index : Index} (inside : index ∈ indices) :
        (rankings index).filter (accepting index) ⊆ acceptedRows accepting indices rankings :=
      fun other member => List.mem_flatMap.mpr ⟨index, inside, member⟩
    have short {index : Index} (inside : index ∈ indices) :
        ((rankings index).filter (accepting index)).length ≤ rules.limit := by
      have listed : (rankings index).filter (accepting index) ∈
          indices.map fun index => (rankings index).filter (accepting index) :=
        List.mem_map.mpr ⟨index, inside, rfl⟩
      exact (List.sublist_flatten_of_mem listed).length_le.trans room
    have merged : row ∈ rules.merge accepting indices rankings := by
      refine (forall_mem_distinctBy_iff rules.key).mpr ?_ row ?_
      · intro first firstIn second secondIn
        exact apart first ((flatMap_gather_sublist indices).subset firstIn) second
          ((flatMap_gather_sublist indices).subset secondIn)
      · obtain ⟨index, inside, member⟩ := List.mem_flatMap.mp accepted
        refine List.mem_flatMap.mpr ⟨index, inside, mem_gather_of_room (scanned index inside)
          (short inside) (fun first firstIn second secondIn => ?_) member⟩
        exact apart first (part inside firstIn) second (part inside secondIn)
    have fits : (rules.merge accepting indices rankings).length ≤ count :=
      ((distinctBy_sublist rules.key _).length_le.trans
        (flatMap_gather_sublist indices).length_le).trans enough
    rw [best, List.take_of_length_le (by rwa [List.length_mergeSort]), List.mem_mergeSort]
    exact merged

end

end Rules

end Gather
