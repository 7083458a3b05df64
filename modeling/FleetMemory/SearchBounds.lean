/-
This file bounds the page loop of a partition search against a store that may answer with
anything: pages too short, empty or longer than was asked for. A full page brings the offset on
by what was asked for, and any other page is the last one, so the calls left are counted by the
rows left below the scan bound.
-/

import FleetMemory.Retrieval

namespace FleetMemory

open StoreProgram Distinct

/-! ### Pages -/

/-- The rows of an answer the loop looks at, one logical page of them. -/
def lookedAt (exchange : SearchQuery × List Item) : List Item :=
  exchange.2.take (exchange.1.limit - exchange.1.offset)

/-- How many pages are left below the scan bound, the last of them perhaps a smaller one. -/
def pagesLeft (offset : Nat) : Nat :=
  (maxScannedPerPartition - offset + 9) / logicalPageSize

/-- A full page is one page less to read. -/
theorem pagesLeft_page {offset : Nat} (left : offset < maxScannedPerPartition) :
    pagesLeft (offset + min logicalPageSize (maxScannedPerPartition - offset)) + 1 ≤
      pagesLeft offset := by
  simp only [pagesLeft, maxScannedPerPartition, logicalPageSize] at left ⊢
  omega

theorem pagesLeft_pos {offset : Nat} (left : offset < maxScannedPerPartition) :
    0 < pagesLeft offset := by
  have page := pagesLeft_page left
  omega

/-! ### The loop -/

section

variable (runtime : Runtime) (request : SearchRequest) (payloadType : Option String)

/-- How the loop ends from where it stands: it makes no more than so many calls, none of them for
more rows than the scan bound, and looks at no more rows than that with those before. What it
returns is collected from these rows. -/
structure EndsWithin (rows : List Item) (calls : Nat)
    (transcript : Program.Transcript SearchQuery Item PyError (List Item)) : Prop where
  calls : transcript.searched.length ≤ calls
  limits : ∀ exchange ∈ transcript.searched, exchange.1.limit ≤ maxScannedPerPartition
  looked : (rows ++ transcript.searched.flatMap lookedAt).length ≤ maxScannedPerPartition
  ended : transcript.outcome = .returned (collected runtime request payloadType
        (rows ++ transcript.searched.flatMap lookedAt)) ∨
      request.requireSubstantive = true ∧ transcript.outcome =
        .raised (.runtimeError "filtered search incomplete at candidate scan bound")

variable {runtime request payloadType} {rows : List Item} {calls : Nat} {answers : Nat → List Item}

/-- The loop returns what it has collected. -/
theorem endsWithin_returned (bounded : rows.length ≤ maxScannedPerPartition) :
    EndsWithin runtime request payloadType rows calls
      ⟨[], .returned (collected runtime request payloadType rows)⟩ where
  calls := Nat.zero_le _
  limits := by simp
  looked := by simpa using bounded
  ended := Or.inl (by simp)

/-- The loop ends at the scan bound. -/
theorem endsWithin_scanBoundReached (bounded : rows.length ≤ maxScannedPerPartition) :
    EndsWithin runtime request payloadType rows calls
      ((scanBoundReached request (collected runtime request payloadType rows)).transcript
        answers) := by
  by_cases insists : request.requireSubstantive = true
  · have raised : (scanBoundReached request (collected runtime request payloadType rows)).transcript
        answers =
          ⟨[], .raised (.runtimeError "filtered search incomplete at candidate scan bound")⟩ := by
      rw [scanBoundReached, if_pos insists]
      rfl
    rw [raised]
    exact ⟨Nat.zero_le _, by simp, by simpa using bounded, Or.inr ⟨insists, rfl⟩⟩
  · rw [scanBoundReached, if_neg insists]
    exact endsWithin_returned bounded

/-- One more call before the loop ends. -/
theorem EndsWithin.call {page : SearchQuery × List Item}
    {transcript : Program.Transcript SearchQuery Item PyError (List Item)}
    (rest : EndsWithin runtime request payloadType (rows ++ lookedAt page) calls transcript)
    (limit : page.1.limit ≤ maxScannedPerPartition) :
    EndsWithin runtime request payloadType rows (calls + 1)
      ⟨page :: transcript.searched, transcript.outcome⟩ := by
  have whole : rows ++ (page :: transcript.searched).flatMap lookedAt =
      rows ++ lookedAt page ++ transcript.searched.flatMap lookedAt := by
    rw [List.flatMap_cons, List.append_assoc]
  refine ⟨Nat.succ_le_succ rest.calls, ?_, ?_, ?_⟩
  · intro exchange member
    rcases List.mem_cons.mp member with rfl | later
    · exact limit
    · exact rest.limits exchange later
  · rw [whole]
    exact rest.looked
  · rw [whole]
    exact rest.ended

theorem EndsWithin.mono {more : Nat}
    {transcript : Program.Transcript SearchQuery Item PyError (List Item)}
    (ends : EndsWithin runtime request payloadType rows calls transcript) (le : calls ≤ more) :
    EndsWithin runtime request payloadType rows more transcript :=
  { ends with calls := ends.calls.trans le }

/-- A page brings the offset on, and a full one leaves one page less to read. -/
theorem length_page (fetched : List Item) (left : rows.length < maxScannedPerPartition) :
    (rows ++ fetched.take (min logicalPageSize (maxScannedPerPartition - rows.length))).length ≤
        maxScannedPerPartition ∧
      (min logicalPageSize (maxScannedPerPartition - rows.length) ≤
          (fetched.take (min logicalPageSize (maxScannedPerPartition - rows.length))).length →
        pagesLeft (rows ++ fetched.take
          (min logicalPageSize (maxScannedPerPartition - rows.length))).length + 1 ≤
            pagesLeft rows.length) := by
  have short := List.length_take_le (min logicalPageSize (maxScannedPerPartition - rows.length))
    fetched
  rw [List.length_append]
  constructor
  · omega
  · intro full
    rw [le_antisymm short full]
    exact pagesLeft_page left

/-- From any page on, the loop ends within the pages left, if it may read one page more. -/
theorem endsWithin_searchLoop (pages : Nat) (exhausted : Bool)
    (bounded : rows.length ≤ maxScannedPerPartition) (begins : 0 < pages)
    (enough : exhausted = false → pagesLeft rows.length < pages) :
    EndsWithin runtime request payloadType rows (if exhausted then 0 else pagesLeft rows.length)
      ((searchLoop runtime request payloadType pages (collected runtime request payloadType rows)
        rows.length exhausted).transcript answers) := by
  induction pages generalizing rows exhausted answers with
  | zero => exact absurd begins (lt_irrefl 0)
  | succ pages inductionHypothesis =>
    rw [searchLoop]
    by_cases going : (decide ((collected runtime request payloadType rows).length <
        rankedResultLimit) && !exhausted) = true
    · obtain ⟨room, rfl⟩ : (collected runtime request payloadType rows).length <
          rankedResultLimit ∧ exhausted = false := by simpa using going
      rw [if_pos going, if_neg Bool.false_ne_true]
      by_cases reached : maxScannedPerPartition ≤ rows.length
      · rw [if_pos reached]
        exact endsWithin_scanBoundReached bounded
      · rw [if_neg reached]
        have left : rows.length < maxScannedPerPartition := not_le.mp reached
        have fuel := enough rfl
        obtain ⟨within, fewer⟩ := length_page (answers 0) left
        obtain ⟨others, counted⟩ := Nat.exists_eq_add_one.mpr (pagesLeft_pos left)
        rw [counted] at fuel fewer ⊢
        have limit : rows.length + min logicalPageSize (maxScannedPerPartition - rows.length) ≤
            maxScannedPerPartition := by omega
        generalize min logicalPageSize (maxScannedPerPartition - rows.length) = logicalSize
          at within fewer limit ⊢
        rw [Program.transcript_search_bind]
        have looked : lookedAt (⟨partitionScope request payloadType, rows.length + logicalSize,
            rows.length⟩, answers 0) = (answers 0).take logicalSize := by
          rw [lookedAt, Nat.add_sub_cancel_left]
        refine EndsWithin.call ?_ limit
        dsimp only
        rw [looked, scanPage_collected rows _ room, ← List.length_append]
        generalize ended : ((decide ((answers 0).length < _) && decide ((answers 0).length ≤ _)) ||
          decide (((answers 0).take logicalSize).length < logicalSize)) = exhausted
        have full : exhausted = false → logicalSize ≤ ((answers 0).take logicalSize).length := by
          rintro rfl
          simpa using (Bool.or_eq_false_iff.mp ended).2
        split
        · exact endsWithin_scanBoundReached within
        · refine (inductionHypothesis exhausted within (by omega) ?_).mono ?_
          · intro more
            have less := fewer (full more)
            omega
          · cases exhausted with
            | true => exact Nat.zero_le _
            | false => exact Nat.le_of_succ_le_succ (fewer (full rfl))
    · rw [if_neg going]
      exact endsWithin_returned bounded

end

/-! ### The search of a partition -/

/-- How the search of a partition ends: it makes at most 103 calls, none of them for more than 1024
rows, and looks at 1024 rows at most. It returns ten items at most, with different keys, collected
from those rows, or it raises for a caller who insists on matches. -/
structure PartitionSearchEnds (runtime : Runtime) (request : SearchRequest)
    (payloadType : Option String)
    (transcript : Program.Transcript SearchQuery Item PyError (List Item)) : Prop where
  calls : transcript.searched.length ≤ 103
  limits : ∀ exchange ∈ transcript.searched, exchange.1.limit ≤ 1024
  looked : (transcript.searched.flatMap lookedAt).length ≤ 1024
  ended : (∃ items, transcript.outcome = .returned items ∧ items.length ≤ 10 ∧
        (items.map Item.key).Nodup ∧ items = collected runtime request payloadType
          (transcript.searched.flatMap lookedAt)) ∨
      request.requireSubstantive = true ∧ transcript.outcome =
        .raised (.runtimeError "filtered search incomplete at candidate scan bound")

/-- The collected items are ten at most and have different keys. -/
theorem collected_bounds (runtime : Runtime) (request : SearchRequest)
    (payloadType : Option String) (rows : List Item) :
    (collected runtime request payloadType rows).length ≤ 10 ∧
      ((collected runtime request payloadType rows).map Item.key).Nodup := by
  refine ⟨List.length_take_le _ _, ?_⟩
  rw [collected, List.map_take]
  exact (nodup_distinctBy Item.key _).sublist (List.take_sublist _ _)

/-- The search of a partition ends against any store, whatever lists its searches answer. -/
theorem searchPartition_ends (runtime : Runtime) (request : SearchRequest)
    (payloadType : Option String) (answers : Nat → List Item) :
    PartitionSearchEnds runtime request payloadType
      ((searchPartition runtime request payloadType).transcript answers) := by
  have ends : EndsWithin runtime request payloadType [] 103
      ((searchPartition runtime request payloadType).transcript answers) :=
    endsWithin_searchLoop (maxScannedPerPartition + 1) false (Nat.zero_le _) (Nat.succ_pos _)
      fun _ => by decide
  refine ⟨ends.calls, ends.limits, ends.looked, ends.ended.imp_left fun returned => ?_⟩
  exact ⟨_, returned, (collected_bounds runtime request payloadType _).1,
    (collected_bounds runtime request payloadType _).2, rfl⟩

end FleetMemory
