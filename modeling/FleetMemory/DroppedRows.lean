/-
This file says what dropping rows from a ranking changes. The lookup of a successor stops at
the first row that declares the key, so it changes exactly when a leading declarer can go and
the next one names another successor. The search of a partition looks at 1024 rows, so it
changes only when rows that can go spend that bound.
-/

import FleetMemory.Retrieval
import FleetMemory.Supersession

namespace FleetMemory

open StoreProgram Distinct

/-! ### The lookup of a successor -/

/-- The successor the first declarer names, if it names one that is not empty. -/
def firstMark (declarers : List Item) : Option String :=
  (declarers.head?.bind fun item => item.value.naturalKey).filter fun successor => successor != ""

/-- Whichever of the rows that can go are gone, the first declarer names the same successor. -/
def MarkSettled (canGo : Place → Prop) (declarers : List Item) : Prop :=
  ∀ dropped rest, declarers = dropped ++ rest → (∀ row ∈ dropped, canGo row.place) →
    firstMark rest = firstMark declarers

/-- A record is marked for the successor its first declarer names. -/
theorem markFound_firstDeclaring (value : StoredValue) (naturalKey : String) (rows : List Item) :
    markFound value (firstDeclaring naturalKey rows) =
      (firstMark (rows.filter (declaring naturalKey))).elim value value.markedBy := by
  rw [firstDeclaring, firstMark, List.head?_filter]
  cases (rows.find? (declaring naturalKey)).bind fun item => item.value.naturalKey with
  | none => rfl
  | some successor =>
    by_cases empty : successor = ""
    · simp [markFound, empty, Option.filter]
    · simp [markFound, empty, Option.filter]

/-- Records that were not marked before are marked alike for one successor only. -/
theorem elim_markedBy_inj {value : StoredValue} (unmarked : value.supersededBy = none)
    {first second : Option String}
    (same : first.elim value value.markedBy = second.elim value value.markedBy) :
    first = second := by
  have marks (found : Option String) : (found.elim value value.markedBy).supersededBy = found := by
    cases found with
    | none => exact unmarked
    | some successor => rfl
  rw [← marks first, same, marks second]

/-- Dropping rows that can go leaves a settled mark. -/
theorem MarkSettled.firstMark_filter {canGo : Place → Prop} {declarers : List Item}
    (settled : MarkSettled canGo declarers) {keep : Item → Bool}
    (gone : ∀ row ∈ declarers, keep row = false → canGo row.place) :
    firstMark (declarers.filter keep) = firstMark declarers := by
  have first : (declarers.filter keep).head? =
      (declarers.dropWhile fun row => !keep row).head? := by
    rw [List.head?_filter, List.find?_eq_head?_dropWhile_not]
  rw [firstMark, first]
  refine settled (declarers.takeWhile fun row => !keep row) _ List.takeWhile_append_dropWhile.symm
    fun row member => gone row ((List.takeWhile_prefix _).subset member) ?_
  simpa using List.mem_takeWhile_imp member

/-- A first declarer that stays settles the mark. -/
theorem markSettled_of_head {canGo : Place → Prop} {first : Item} {rest : List Item}
    (stays : ¬canGo first.place) : MarkSettled canGo (first :: rest) := by
  intro dropped kept split gone
  cases dropped with
  | nil => rw [split, List.nil_append]
  | cons row others =>
    obtain ⟨rfl, -⟩ := List.cons.inj split
    exact absurd (gone first List.mem_cons_self) stays

/-! ### The search of a partition -/

section

variable (runtime : Runtime) (request : SearchRequest) (payloadType : Option String)

/-- The matches of different keys among the rows a partition search looks at. -/
def scannedMatches (rows : List Item) : List Item :=
  distinctBy Item.key
    ((rows.take maxScannedPerPartition).filter (passes runtime request payloadType))

/-- The rows that can go leave the scan bound alone: all rows are looked at, or ten matches are
found, or those that last hold no other matches within the bound, which for a caller who insists
on substance has to be reached by them too. -/
def ScanSettled (canGo : Place → Prop) (rows : List Item) : Prop :=
  rows.length ≤ maxScannedPerPartition ∨
    rankedResultLimit ≤ (scannedMatches runtime request payloadType rows).length ∨
    ∀ lasts : Item → Bool, (∀ row ∈ rows, lasts row = true ↔ ¬canGo row.place) →
      if request.requireSubstantive = true then
        maxScannedPerPartition < (rows.filter lasts).length ∧
          (scannedMatches runtime request payloadType (rows.filter lasts)).length <
            rankedResultLimit
      else scannedMatches runtime request payloadType (rows.filter lasts) =
        scannedMatches runtime request payloadType rows

end

section

variable {runtime : Runtime} {request : SearchRequest} {payloadType : Option String}
  {canGo : Place → Prop} {rows : List Item} {keep : Item → Bool}

/-- Dropping rows that are not looked for only brings more of the others within a bound. -/
theorem filter_take_prefix {Row : Type} {wanted keep : Row → Bool} {rows : List Row}
    (kept : ∀ row ∈ rows, wanted row = true → keep row = true) (bound : Nat) :
    (rows.take bound).filter wanted <+: ((rows.filter keep).take bound).filter wanted := by
  induction rows generalizing bound with
  | nil => exact List.prefix_refl _
  | cons row rest inductionHypothesis =>
    have following := inductionHypothesis fun other member =>
      kept other (List.mem_cons_of_mem _ member)
    cases bound with
    | zero => exact List.nil_prefix
    | succ bound =>
      by_cases keeps : keep row = true
      · rw [List.filter_cons_of_pos keeps, List.take_succ_cons, List.take_succ_cons,
          List.filter_cons, List.filter_cons]
        split
        · exact List.cons_prefix_cons.mpr ⟨rfl, following bound⟩
        · exact following bound
      · have unwanted : ¬wanted row = true := fun looked =>
          keeps (kept row List.mem_cons_self looked)
        rw [List.filter_cons_of_neg keeps, List.take_succ_cons, List.filter_cons_of_neg unwanted]
        exact (following bound).trans
          ((List.take_prefix_take_left (Nat.le_succ bound)).filter wanted)

theorem scannedMatches_filter
    (kept : ∀ row ∈ rows, passes runtime request payloadType row = true → keep row = true) :
    scannedMatches runtime request payloadType rows <+:
      scannedMatches runtime request payloadType (rows.filter keep) := by
  obtain ⟨more, extended⟩ := filter_take_prefix kept maxScannedPerPartition
  rw [scannedMatches, scannedMatches, ← extended]
  exact distinctBy_prefix Item.key _ _

theorem partitionAnswer_eq (rows : List Item) :
    partitionAnswer runtime request payloadType rows =
      if request.requireSubstantive = true ∧ maxScannedPerPartition < rows.length ∧
          (scannedMatches runtime request payloadType rows).length < rankedResultLimit then
        .raised (.runtimeError "filtered search incomplete at candidate scan bound")
      else .returned ((scannedMatches runtime request payloadType rows).take rankedResultLimit) :=
  rfl

/-- Rows that are all looked at come to the same matches without those that are no match. -/
theorem scannedMatches_of_short (short : rows.length ≤ maxScannedPerPartition)
    (kept : ∀ row ∈ rows, passes runtime request payloadType row = true → keep row = true) :
    scannedMatches runtime request payloadType (rows.filter keep) =
      scannedMatches runtime request payloadType rows := by
  rw [scannedMatches, scannedMatches, List.take_of_length_le short,
    List.take_of_length_le ((List.length_filter_le keep rows).trans short), List.filter_filter]
  refine congrArg _ (List.filter_congr fun row member => ?_)
  by_cases passed : passes runtime request payloadType row = true
  · simp [passed, kept row member passed]
  · simp [passed]

/-- The rows that last are those that last when some that can go are gone. -/
theorem filter_lasting {lasts : Item → Bool}
    (stays : ∀ row ∈ rows, lasts row = true → keep row = true) :
    (rows.filter keep).filter lasts = rows.filter lasts := by
  rw [List.filter_filter]
  refine List.filter_congr fun row member => ?_
  by_cases here : lasts row = true
  · simp [here, stays row member here]
  · simp [here]

/-- A row that can go and is no match drops out of a settled search without a trace. -/
theorem ScanSettled.partitionAnswer_filter
    (settled : ScanSettled runtime request payloadType canGo rows)
    (foreign : ∀ row ∈ rows, canGo row.place → passes runtime request payloadType row = false)
    (gone : ∀ row ∈ rows, keep row = false → canGo row.place) :
    partitionAnswer runtime request payloadType (rows.filter keep) =
      partitionAnswer runtime request payloadType rows := by
  classical
  have lasting (row : Item) (member : row ∈ rows)
      (passed : passes runtime request payloadType row = true) : ¬canGo row.place := fun goes => by
    rw [foreign row member goes] at passed
    cases passed
  have stays (row : Item) (member : row ∈ rows) (lasts : ¬canGo row.place) : keep row = true := by
    by_contra dropped
    exact lasts (gone row member (by simpa using dropped))
  have kept (row : Item) (member : row ∈ rows)
      (passed : passes runtime request payloadType row = true) : keep row = true :=
    stays row member (lasting row member passed)
  have fewer := List.length_filter_le keep rows
  obtain ⟨more, extended⟩ := scannedMatches_filter kept
  rw [partitionAnswer_eq, partitionAnswer_eq]
  rcases settled with short | full | settled
  · -- All rows are looked at, with and without those that go.
    rw [scannedMatches_of_short short kept,
      if_neg fun all => not_lt.mpr (fewer.trans short) all.2.1,
      if_neg fun all => not_lt.mpr short all.2.1]
  · -- The ten matches are found before any row that moves up.
    have still : rankedResultLimit ≤
        (scannedMatches runtime request payloadType (rows.filter keep)).length := by
      rw [← extended, List.length_append]
      exact full.trans (Nat.le_add_right _ _)
    rw [if_neg fun all => not_lt.mpr still all.2.2, if_neg fun all => not_lt.mpr full all.2.2,
      ← extended, List.take_append_of_le_length full]
  · -- What is found lies between what all rows and what the lasting rows come to.
    have decides := settled (fun row => decide ¬canGo row.place) fun row _ => decide_eq_true_iff
    rw [← filter_lasting fun row member here => stays row member (of_decide_eq_true here)] at decides
    have below := @scannedMatches_filter runtime request payloadType (rows.filter keep)
      (fun row => decide ¬canGo row.place) fun row member passed =>
        decide_eq_true (lasting row (List.mem_of_mem_filter member) passed)
    by_cases insists : request.requireSubstantive = true
    · rw [if_pos insists] at decides
      have long := decides.1.trans_le (List.length_filter_le _ _)
      have few := below.length_le.trans_lt decides.2
      have fewest : (scannedMatches runtime request payloadType rows).length <
          rankedResultLimit := by
        rw [← extended, List.length_append] at few
        exact (Nat.le_add_right _ _).trans_lt few
      rw [if_pos ⟨insists, long, few⟩, if_pos ⟨insists, long.trans_le fewer, fewest⟩]
    · rw [if_neg insists] at decides
      rw [decides] at below
      have same := (scannedMatches_filter kept).eq_of_length_le below.length_le
      rw [if_neg fun all => insists all.1, if_neg fun all => insists all.1, ← same]

/-- A partition's answer stays when the rows that can go are gone only if its search is settled. -/
theorem scanSettled_of_partitionAnswer
    (same : ∀ lasts : Item → Bool, (∀ row ∈ rows, lasts row = true ↔ ¬canGo row.place) →
      partitionAnswer runtime request payloadType (rows.filter lasts) =
        partitionAnswer runtime request payloadType rows) :
    ScanSettled runtime request payloadType canGo rows := by
  by_cases short : rows.length ≤ maxScannedPerPartition
  · exact Or.inl short
  by_cases full : rankedResultLimit ≤ (scannedMatches runtime request payloadType rows).length
  · exact Or.inr (Or.inl full)
  refine Or.inr (Or.inr fun lasts stays => ?_)
  have answers := same lasts stays
  rw [partitionAnswer_eq, partitionAnswer_eq] at answers
  by_cases insists : request.requireSubstantive = true
  · rw [if_pos (show _ ∧ _ ∧ _ from ⟨insists, not_le.mp short, not_le.mp full⟩)] at answers
    rw [if_pos insists]
    split at answers
    · rename_i raised
      exact raised.2
    · cases answers
  · rw [if_neg fun all => insists all.1, if_neg fun all => insists all.1] at answers
    rw [if_neg insists]
    have taken := Outcome.returned.inj answers
    rw [List.take_of_length_le (not_le.mp full).le] at taken
    have few := congrArg List.length taken
    rw [List.length_take] at few
    rwa [List.take_of_length_le (by omega)] at taken

end

end FleetMemory
