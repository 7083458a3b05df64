/-
This file says when a search depends on how the store orders rows of equal score. The tie-break
on the natural key comes after each partition has been cut, so a search is deterministic exactly
when every row that could be among the ten best is gathered whatever the order of the ties.
-/

import FleetMemory.Gather
import FleetMemory.PrefixEngine
import FleetMemory.Retrieval
import Mathlib.Algebra.Order.Ring.Unbundled.Rat

namespace FleetMemory

open StoreProgram Distinct Gather

/-- How the partition searches score and name a row, how many they scan and how many they gather. -/
def searchRules : Rules Item String ℚ where
  score := scoreOf
  key := Item.key
  bound := maxScannedPerPartition
  limit := rankedResultLimit

/-- The rows of a partition, as the engine ranks them. -/
def partitionRows (engine : SearchEngine) (store : Store) (request : SearchRequest)
    (payloadType : Option String) : List Item :=
  engine.ranking (partitionScope request payloadType) store

/-- The rows past the scan bound could hold matches the caller insists on. -/
def Incomplete (runtime : Runtime) (request : SearchRequest) (payloadType : Option String)
    (rows : List Item) : Prop :=
  request.requireSubstantive = true ∧ maxScannedPerPartition < rows.length ∧
    (distinctBy Item.key ((rows.take maxScannedPerPartition).filter
      (passes runtime request payloadType))).length < rankedResultLimit

/-- The error of a search that is incomplete. -/
def scanBoundError : PyError :=
  .runtimeError "filtered search incomplete at candidate scan bound"

section

variable {runtime : Runtime} {engine other : SearchEngine} {store : Store} {request : SearchRequest}
  {payloadType : Option String} {rows : List Item}

/-! ### The search as a merge -/

/-- What the partitions give, one after another: all that is gathered, unless a partition is
incomplete. -/
noncomputable def gathered (runtime : Runtime) (engine : SearchEngine) (store : Store)
    (request : SearchRequest) (types : List (Option String)) : Outcome PyError (List Item) :=
  open Classical in
  if ∃ payloadType ∈ types,
      Incomplete runtime request payloadType (partitionRows engine store request payloadType) then
    .raised scanBoundError
  else .returned (types.flatMap fun payloadType =>
    searchRules.gather (passes runtime request payloadType)
      (partitionRows engine store request payloadType))

theorem run_searchPartitions_gathered (types : List (Option String)) :
    (searchPartitions runtime request types).run (storeWorld engine) store =
      (gathered runtime engine store request types, store) := by
  classical
  induction types with
  | nil =>
    rw [gathered, if_neg (by simp)]
    rfl
  | cons payloadType rest inductionHypothesis =>
    rw [searchPartitions, Program.run_bind,
      run_searchPartition (cutsPages_storeWorld engine store _)]
    by_cases incomplete : Incomplete runtime request payloadType
        (partitionRows engine store request payloadType)
    · have raised : partitionAnswer runtime request payloadType
          (engine.ranking (partitionScope request payloadType) store) = .raised scanBoundError :=
        if_pos incomplete
      rw [raised, gathered, if_pos ⟨payloadType, List.mem_cons_self, incomplete⟩]
    · have returned : partitionAnswer runtime request payloadType
          (engine.ranking (partitionScope request payloadType) store) =
            .returned (searchRules.gather (passes runtime request payloadType)
              (partitionRows engine store request payloadType)) :=
        if_neg incomplete
      rw [returned]
      dsimp only
      rw [Program.run_bind, inductionHypothesis, gathered, gathered]
      by_cases later : ∃ payloadType ∈ rest,
          Incomplete runtime request payloadType (partitionRows engine store request payloadType)
      · obtain ⟨other, member, fails⟩ := later
        rw [if_pos ⟨other, member, fails⟩,
          if_pos ⟨other, List.mem_cons_of_mem _ member, fails⟩]
      · have none_fails : ¬∃ other ∈ payloadType :: rest,
            Incomplete runtime request other (partitionRows engine store request other) := by
          rintro ⟨other, member, fails⟩
          rcases List.mem_cons.mp member with rfl | inRest
          · exact incomplete fails
          · exact later ⟨other, inRest, fails⟩
        rw [if_neg later, if_neg none_fails]
        rfl

/-- A row a partition of the request accepts passes the filters of the search. -/
theorem keeps_of_passes (partition : payloadType ∈ partitions request) {item : Item}
    (passed : passes runtime request payloadType item = true) : keeps runtime request item = true := by
  simp only [passes, Bool.and_eq_true] at passed
  obtain ⟨⟨⟨⟨project, ofType⟩, tags⟩, current⟩, -⟩ := passed
  have types : matchesPayloadTypes item request.payloadTypes = true := by
    unfold partitions at partition
    split at partition
    · rename_i every
      rw [matchesPayloadTypes, if_pos every]
    · rename_i some_type
      obtain ⟨name, requested, rfl⟩ := List.mem_map.mp partition
      have listed : name ∈ request.payloadTypes :=
        List.mem_dedup.mp (List.mem_mergeSort.mp requested)
      rw [Option.all_some, matchesPayloadTypes, if_neg (by simp)] at ofType
      rw [matchesPayloadTypes, if_neg some_type]
      cases found : extractPayloadType (item.value.naturalKey.getD "") with
      | none =>
        rw [found] at ofType
        cases ofType
      | some itemType =>
        rw [found] at ofType
        have same : itemType = name := by simpa using ofType
        simpa [same] using listed
  simp only [keeps, project, types, tags, current, Bool.and_true]

/-- A search raises when one of its partitions is incomplete. -/
theorem run_search_of_incomplete (partition : payloadType ∈ partitions request)
    (incomplete : Incomplete runtime request payloadType
      (partitionRows engine store request payloadType)) :
    (search runtime request).run (storeWorld engine) store = (.raised scanBoundError, store) := by
  rw [search, Program.run_bind, run_searchPartitions_gathered, gathered,
    if_pos ⟨payloadType, partition, incomplete⟩]

/-- A search returns the ten best rows its partitions merge to when none is incomplete. -/
theorem run_search_of_complete (complete : ∀ payloadType ∈ partitions request,
      ¬Incomplete runtime request payloadType (partitionRows engine store request payloadType)) :
    (search runtime request).run (storeWorld engine) store =
      (.returned (best sortsBefore rankedResultLimit (searchRules.merge (passes runtime request)
        (partitions request) (partitionRows engine store request))), store) := by
  have none_incomplete : ¬∃ payloadType ∈ partitions request, Incomplete runtime request payloadType
      (partitionRows engine store request payloadType) := by
    rintro ⟨payloadType, partition, incomplete⟩
    exact complete payloadType partition incomplete
  rw [search, Program.run_bind, run_searchPartitions_gathered, gathered, if_neg none_incomplete]
  dsimp only
  rw [Program.run_pure, List.filter_eq_self.mpr]
  · rfl
  · intro item member
    obtain ⟨payloadType, partition, inside⟩ := List.mem_flatMap.mp member
    exact keeps_of_passes partition (Rules.accepted_of_mem_gather inside)

/-! ### The order of the ties -/

/-- No two records have the same natural key. -/
def DistinctNaturalKeys (store : Store) : Prop :=
  ∀ place value otherPlace otherValue, store.lookup place = some value →
    store.lookup otherPlace = some otherValue →
      value.naturalKey.getD "" = otherValue.naturalKey.getD "" → place = otherPlace

/-- Another engine ranks the rows of every partition of the request as this one does, with the ties
in any order. -/
def RanksAlike (engine other : SearchEngine) (store : Store) (request : SearchRequest) : Prop :=
  ∀ payloadType ∈ partitions request,
    searchRules.Ranks (partitionRows engine store request payloadType)
      (partitionRows other store request payloadType)

/-- Some order of the ties lets the search return or drop the row. -/
def MayReach (runtime : Runtime) (engine : SearchEngine) (store : Store) (request : SearchRequest) :
    Item → Prop :=
  searchRules.MayMerge (passes runtime request) (partitions request)
    (partitionRows engine store request)

/-- Every order of the ties lets the search return or drop the row. -/
def MustReach (runtime : Runtime) (engine : SearchEngine) (store : Store) (request : SearchRequest) :
    Item → Prop :=
  searchRules.MustMerge (passes runtime request) (partitions request)
    (partitionRows engine store request)

/-- The ties do not matter. Either some partition is incomplete whatever their order, or none is and
every row the search may reach is one it must reach, or ten such rows sort before it. -/
def TiesSettled (runtime : Runtime) (engine : SearchEngine) (store : Store)
    (request : SearchRequest) : Prop :=
  (∃ payloadType ∈ partitions request, ∀ ranking,
      searchRules.Ranks (partitionRows engine store request payloadType) ranking →
        Incomplete runtime request payloadType ranking) ∨
    (∀ payloadType ∈ partitions request, ∀ ranking,
      searchRules.Ranks (partitionRows engine store request payloadType) ranking →
        ¬Incomplete runtime request payloadType ranking) ∧
    ∀ item, MayReach runtime engine store request item →
      MustReach runtime engine store request item ∨
        Beaten sortsBefore rankedResultLimit (MayReach runtime engine store request) item

theorem nodup_partitions (request : SearchRequest) : (partitions request).Nodup := by
  unfold partitions
  split
  · exact List.nodup_singleton _
  · refine List.Nodup.map (Option.some_injective _) ?_
    exact (List.mergeSort_perm _ _).nodup_iff.mpr (List.nodup_dedup _)

theorem partitionScope_injective (request : SearchRequest) :
    Function.Injective (partitionScope request) := by
  intro first second same
  have prefixes := congrArg Scope.namespacePrefix same
  simp only [partitionScope, List.append_cancel_left_eq] at prefixes
  cases first <;> cases second <;> simp_all

/-- A row is accepted by one partition only. -/
theorem eq_of_passes {first second : Option String} {item : Item}
    (firstPartition : first ∈ partitions request) (secondPartition : second ∈ partitions request)
    (passesFirst : passes runtime request first item = true)
    (passesSecond : passes runtime request second item = true) : first = second := by
  have named {payloadType : Option String} (partition : payloadType ∈ partitions request)
      (some_type : request.payloadTypes ≠ [])
      (passed : passes runtime request payloadType item = true) :
      payloadType = extractPayloadType (item.value.naturalKey.getD "") := by
    rw [partitions, if_neg some_type] at partition
    obtain ⟨name, -, rfl⟩ := List.mem_map.mp partition
    simp only [passes, Bool.and_eq_true, Option.all_some, matchesPayloadTypes] at passed
    obtain ⟨⟨⟨⟨-, ofType⟩, -⟩, -⟩, -⟩ := passed
    rw [if_neg (by simp)] at ofType
    cases found : extractPayloadType (item.value.naturalKey.getD "") with
    | none =>
      rw [found] at ofType
      cases ofType
    | some itemType =>
      rw [found] at ofType
      have same : itemType = name := by simpa using ofType
      rw [same]
  by_cases every : request.payloadTypes = []
  · rw [partitions, if_pos every, List.mem_singleton] at firstPartition secondPartition
    rw [firstPartition, secondPartition]
  · rw [named firstPartition every passesFirst, named secondPartition every passesSecond]

theorem sortsBefore_iff {first second : Item} :
    sortsBefore first second = true ↔ scoreOf second < scoreOf first ∨
      (scoreOf first = scoreOf second ∧
        first.value.naturalKey.getD "" ≤ second.value.naturalKey.getD "") := by
  unfold sortsBefore
  split
  · rename_i same
    simp [same]
  · rename_i different
    simp [different]

/-- A row of a partition is a stored record, with the score of its scope. -/
theorem stored_of_mem_partitionRows {item : Item}
    (listed : item ∈ partitionRows engine store request payloadType) :
    store.lookup item.place = some item.value ∧
      item.score = engine.score (partitionScope request payloadType) item.place item.value := by
  obtain ⟨stored, -, scored⟩ := (engine.mem_ranking _ _ _).mp listed
  exact ⟨stored, scored⟩

/-- Two rows that partitions accept at one place are the same row. -/
theorem eq_of_place_eq {first second : Item} {firstType secondType : Option String}
    (firstIn : firstType ∈ partitions request) (secondIn : secondType ∈ partitions request)
    (firstListed : first ∈ partitionRows engine store request firstType)
    (secondListed : second ∈ partitionRows engine store request secondType)
    (firstPassed : passes runtime request firstType first = true)
    (secondPassed : passes runtime request secondType second = true)
    (same : first.place = second.place) : first = second := by
  obtain ⟨firstPlace, firstValue, firstScore⟩ := first
  obtain ⟨secondPlace, secondValue, secondScore⟩ := second
  obtain ⟨firstStored, firstScored⟩ := stored_of_mem_partitionRows firstListed
  obtain ⟨secondStored, secondScored⟩ := stored_of_mem_partitionRows secondListed
  dsimp only at same firstStored firstScored secondStored secondScored
  subst same
  obtain rfl := Option.some.inj (firstStored.symm.trans secondStored)
  -- the filters do not look at the score
  have passedAlso : passes runtime request secondType ⟨firstPlace, firstValue, firstScore⟩ = true :=
    secondPassed
  rw [firstScored, secondScored, eq_of_passes firstIn secondIn firstPassed passedAlso]

/-- The sort key orders the rows of a store with distinct natural keys. -/
theorem compares_sortsBefore (distinct : DistinctNaturalKeys store) :
    Compares sortsBefore fun item => ∃ payloadType ∈ partitions request,
      item ∈ partitionRows engine store request payloadType ∧
        passes runtime request payloadType item = true where
  trans first second third firstly secondly := by
    rw [sortsBefore_iff] at firstly secondly ⊢
    rcases firstly with above | ⟨same, earlier⟩
    · rcases secondly with more | ⟨equal, -⟩
      · exact Or.inl (more.trans above)
      · exact Or.inl (equal ▸ above)
    · rcases secondly with more | ⟨equal, later⟩
      · exact Or.inl (same ▸ more)
      · exact Or.inr ⟨same.trans equal, earlier.trans later⟩
  total first second := by
    rw [Bool.or_eq_true, sortsBefore_iff, sortsBefore_iff]
    rcases lt_trichotomy (scoreOf first) (scoreOf second) with below | same | above
    · exact Or.inr (Or.inl below)
    · exact (le_total (first.value.naturalKey.getD "") (second.value.naturalKey.getD "")).imp
        (fun earlier => Or.inr ⟨same, earlier⟩) (fun later => Or.inr ⟨same.symm, later⟩)
    · exact Or.inl (Or.inl above)
  antisymm := by
    rintro first second ⟨firstType, firstIn, firstListed, firstPassed⟩
      ⟨secondType, secondIn, secondListed, secondPassed⟩ firstly secondly
    obtain ⟨firstStored, -⟩ := stored_of_mem_partitionRows firstListed
    obtain ⟨secondStored, -⟩ := stored_of_mem_partitionRows secondListed
    rw [sortsBefore_iff] at firstly secondly
    have named : first.value.naturalKey.getD "" = second.value.naturalKey.getD "" := by
      rcases firstly with above | ⟨same, earlier⟩
      · rcases secondly with below | ⟨equal, -⟩
        · exact absurd below above.not_gt
        · exact absurd equal above.ne
      · rcases secondly with below | ⟨-, later⟩
        · exact absurd same below.ne
        · exact le_antisymm earlier later
    exact eq_of_place_eq firstIn secondIn firstListed secondListed firstPassed secondPassed
      (distinct _ _ _ _ firstStored secondStored named)

open Classical in
/-- The engine with the rows of a store's partitions ranked in another order. -/
noncomputable def reranked (engine : SearchEngine) (store : Store) (request : SearchRequest)
    (rankings : Option String → List Item)
    (perm : ∀ payloadType ∈ partitions request,
      (rankings payloadType).Perm (partitionRows engine store request payloadType)) :
    SearchEngine where
  selects := engine.selects
  score := engine.score
  ranking scope other :=
    if reorders : other = store ∧ ∃ payloadType ∈ partitions request,
        scope = partitionScope request payloadType then rankings reorders.2.choose
    else engine.ranking scope other
  ranking_nodup scope other := by
    split
    · rename_i reorders
      obtain ⟨inside, same⟩ := reorders.2.choose_spec
      rw [((perm _ inside).map Item.place).nodup_iff]
      exact engine.ranking_nodup _ _
    · exact engine.ranking_nodup scope other
  mem_ranking scope other item := by
    split
    · rename_i reorders
      obtain ⟨inside, same⟩ := reorders.2.choose_spec
      rw [(perm _ inside).mem_iff, partitionRows, ← same, reorders.1]
      exact engine.mem_ranking scope store item
    · exact engine.mem_ranking scope other item
  selects_own := engine.selects_own

theorem partitionRows_reranked {rankings : Option String → List Item}
    (perm : ∀ payloadType ∈ partitions request,
      (rankings payloadType).Perm (partitionRows engine store request payloadType))
    (partition : payloadType ∈ partitions request) :
    partitionRows (reranked engine store request rankings perm) store request payloadType =
      rankings payloadType := by
  have reorders : store = store ∧ ∃ other ∈ partitions request,
      partitionScope request payloadType = partitionScope request other :=
    ⟨rfl, payloadType, partition, rfl⟩
  rw [partitionRows, reranked]
  dsimp only
  rw [dif_pos reorders]
  congr 1
  exact (partitionScope_injective request reorders.2.choose_spec.2).symm

/-- Any orders of the ties are those of an engine. -/
theorem exists_ranksAlike {rankings : Option String → List Item}
    (ranks : ∀ payloadType ∈ partitions request,
      searchRules.Ranks (partitionRows engine store request payloadType) (rankings payloadType)) :
    ∃ other, RanksAlike engine other store request ∧ ∀ payloadType ∈ partitions request,
      partitionRows other store request payloadType = rankings payloadType := by
  have rows (payloadType : Option String) (partition : payloadType ∈ partitions request) :=
    partitionRows_reranked (fun each inside => (ranks each inside).perm) partition
  refine ⟨reranked engine store request rankings fun each inside => (ranks each inside).perm, ?_, rows⟩
  intro payloadType partition
  rw [rows payloadType partition]
  exact ranks payloadType partition

theorem merge_congr {first second : Option String → List Item}
    (same : ∀ payloadType ∈ partitions request, first payloadType = second payloadType) :
    searchRules.merge (passes runtime request) (partitions request) first =
      searchRules.merge (passes runtime request) (partitions request) second := by
  unfold Rules.merge
  refine congrArg _ (List.flatMap_congr fun payloadType partition => ?_)
  rw [same payloadType partition]

theorem nodup_partitionRows : (partitionRows engine store request payloadType).Nodup :=
  (engine.ranking_nodup _ _).of_map _

/-- The merged rows do not depend on the ties exactly when each row that may be reached must be
reached or is beaten. -/
theorem best_merge_alike_iff (distinct : DistinctNaturalKeys store)
    (sorted : RanksAlike engine engine store request) :
    (∀ rankings : Option String → List Item,
        (∀ payloadType ∈ partitions request,
          searchRules.Ranks (partitionRows engine store request payloadType)
            (rankings payloadType)) →
        best sortsBefore rankedResultLimit
            (searchRules.merge (passes runtime request) (partitions request) rankings) =
          best sortsBefore rankedResultLimit (searchRules.merge (passes runtime request)
            (partitions request) (partitionRows engine store request))) ↔
      ∀ item, MayReach runtime engine store request item →
        MustReach runtime engine store request item ∨
          Beaten sortsBefore rankedResultLimit (MayReach runtime engine store request) item :=
  Rules.best_merge_constant_iff (compares_sortsBefore distinct) (nodup_partitions request)
    (fun _ _ => nodup_partitionRows) sorted
    fun _ _ firstIn _ secondIn _ _ firstPassed secondPassed =>
      eq_of_passes firstIn secondIn firstPassed secondPassed

/-- When the ties do not matter, every engine that ranks alike gives the same answer. -/
theorem run_search_of_settled (distinct : DistinctNaturalKeys store)
    (sorted : RanksAlike engine engine store request)
    (settled : TiesSettled runtime engine store request)
    (alike : RanksAlike engine other store request) :
    (search runtime request).run (storeWorld other) store =
      (search runtime request).run (storeWorld engine) store := by
  rcases settled with ⟨payloadType, partition, incomplete⟩ | ⟨complete, reaches⟩
  · rw [run_search_of_incomplete partition (incomplete _ (alike payloadType partition)),
      run_search_of_incomplete partition (incomplete _ (sorted payloadType partition))]
  · rw [run_search_of_complete fun payloadType partition =>
        complete payloadType partition _ (alike payloadType partition),
      run_search_of_complete fun payloadType partition =>
        complete payloadType partition _ (sorted payloadType partition),
      (best_merge_alike_iff distinct sorted).mpr reaches _ alike]

/-- When every engine that ranks alike gives the same answer, the ties do not matter. -/
theorem settled_of_constant (distinct : DistinctNaturalKeys store)
    (sorted : RanksAlike engine engine store request)
    (constant : ∀ other, RanksAlike engine other store request →
      (search runtime request).run (storeWorld other) store =
        (search runtime request).run (storeWorld engine) store) :
    TiesSettled runtime engine store request := by
  classical
  by_cases raises : ∃ payloadType ∈ partitions request,
      Incomplete runtime request payloadType (partitionRows engine store request payloadType)
  · obtain ⟨failing, partition, incomplete⟩ := raises
    have raised := run_search_of_incomplete partition incomplete
    -- orders that complete every partition would return
    by_contra unsettled
    have completes : ∀ payloadType ∈ partitions request, ∃ ranking,
        searchRules.Ranks (partitionRows engine store request payloadType) ranking ∧
          ¬Incomplete runtime request payloadType ranking := by
      intro payloadType inside
      by_contra always
      refine unsettled (Or.inl ⟨payloadType, inside, fun ranking ranks => ?_⟩)
      by_contra complete
      exact always ⟨ranking, ranks, complete⟩
    choose! rankings ranks complete using completes
    obtain ⟨other, alike, rows⟩ := exists_ranksAlike ranks
    have completed : ∀ payloadType ∈ partitions request, ¬Incomplete runtime request payloadType
        (partitionRows other store request payloadType) := fun payloadType inside =>
      (rows payloadType inside).symm ▸ complete payloadType inside
    have returned := run_search_of_complete completed
    rw [constant other alike, raised] at returned
    cases (Prod.mk.inj returned).1
  · have complete : ∀ payloadType ∈ partitions request,
        ¬Incomplete runtime request payloadType (partitionRows engine store request payloadType) :=
      fun payloadType inside incomplete => raises ⟨payloadType, inside, incomplete⟩
    have returned := run_search_of_complete complete
    have never : ∀ payloadType ∈ partitions request, ∀ ranking,
        searchRules.Ranks (partitionRows engine store request payloadType) ranking →
          ¬Incomplete runtime request payloadType ranking := by
      intro payloadType inside ranking ranks incomplete
      have updated : ∀ each ∈ partitions request,
          searchRules.Ranks (partitionRows engine store request each)
            (Function.update (partitionRows engine store request) payloadType ranking each) := by
        intro each member
        by_cases same : each = payloadType
        · subst same
          rw [Function.update_self]
          exact ranks
        · rw [Function.update_of_ne same]
          exact sorted each member
      obtain ⟨other, alike, rows⟩ := exists_ranksAlike updated
      have here := rows payloadType inside
      rw [Function.update_self] at here
      have raised := run_search_of_incomplete inside (here.symm ▸ incomplete)
      rw [constant other alike, returned] at raised
      cases (Prod.mk.inj raised).1
    refine Or.inr ⟨never, (best_merge_alike_iff distinct sorted).mp fun rankings ranks => ?_⟩
    obtain ⟨other, alike, rows⟩ := exists_ranksAlike ranks
    have completed : ∀ payloadType ∈ partitions request, ¬Incomplete runtime request payloadType
        (partitionRows other store request payloadType) := fun payloadType inside =>
      (rows payloadType inside).symm ▸ never payloadType inside _ (ranks payloadType inside)
    have reordered := run_search_of_complete completed
    rw [constant other alike, returned, merge_congr rows] at reordered
    exact (Outcome.returned.inj (Prod.mk.inj reordered).1).symm

/-- A search gives the same answer for all engines that rank alike, whatever they make of the ties,
exactly when the ties do not matter. -/
theorem search_deterministic_iff (runtime : Runtime) (engine : SearchEngine) (store : Store)
    (request : SearchRequest) (distinct : DistinctNaturalKeys store)
    (sorted : RanksAlike engine engine store request) :
    (∀ other, RanksAlike engine other store request →
        (search runtime request).run (storeWorld other) store =
          (search runtime request).run (storeWorld engine) store) ↔
      TiesSettled runtime engine store request :=
  ⟨settled_of_constant distinct sorted,
    fun settled _ alike => run_search_of_settled distinct sorted settled alike⟩

end

/-! ### Records of one score -/

section Sample

/-- The identifiers of records of project `a` that no query ranks: one more than a search returns. -/
def shelfIdentifiers : List String :=
  ["A", "B", "C", "D", "E", "F", "G", "H", "I", "J", "K"]

def shelfRuntime : Runtime :=
  .ofTables [] [] []

def shelfPlace (identifier : String) : Place where
  namespaceParts := ["fleet_memory", "a", "adr"]
  key := shelfRuntime.uuid5 ("adr:a:" ++ identifier)

def shelfRecord (identifier : String) : StoredValue where
  content := "\x7b\x7d"
  payloadType := some "adr"
  naturalKey := some ("adr:a:" ++ identifier)
  project := some "a"
  identifier := some identifier

/-- The store that holds the records. -/
def shelf (identifiers : List String) : Store :=
  identifiers.foldr (fun identifier store =>
    store.insert (shelfPlace identifier) (shelfRecord identifier)) ∅

/-- A search for the records of the type, without a query. -/
def shelfRequest : SearchRequest :=
  { project := "a", payloadTypes := ["adr"], tokenBudget := 1000 }

def shelfEngine : SearchEngine :=
  prefixEngine fun _ _ _ => none

theorem shelfPlace_injective : Function.Injective shelfPlace := by
  intro first second same
  have keys : "adr:a:" ++ first = "adr:a:" ++ second := congrArg Place.key same
  exact String.append_right_inj _ |>.mp keys

theorem lookup_shelf {identifiers : List String} {place : Place} {value : StoredValue} :
    (shelf identifiers).lookup place = some value ↔
      ∃ identifier ∈ identifiers, place = shelfPlace identifier ∧ value = shelfRecord identifier := by
  induction identifiers with
  | nil => simp [shelf]
  | cons first rest inductionHypothesis =>
    have step : (shelf (first :: rest)).lookup place =
        if place = shelfPlace first then some (shelfRecord first) else (shelf rest).lookup place :=
      lookup_insert _ _ _ _
    rw [step]
    by_cases here : place = shelfPlace first
    · subst here
      rw [if_pos rfl]
      constructor
      · rintro ⟨rfl⟩
        exact ⟨first, List.mem_cons_self, rfl, rfl⟩
      · rintro ⟨identifier, -, same, rfl⟩
        rw [shelfPlace_injective same]
    · rw [if_neg here, inductionHypothesis]
      simp [here]

theorem distinctNaturalKeys_shelf (identifiers : List String) :
    DistinctNaturalKeys (shelf identifiers) := by
  intro place value otherPlace otherValue stored otherStored same
  obtain ⟨first, -, rfl, rfl⟩ := lookup_shelf.mp stored
  obtain ⟨second, -, rfl, rfl⟩ := lookup_shelf.mp otherStored
  have keys : "adr:a:" ++ first = "adr:a:" ++ second := same
  rw [String.append_right_inj _ |>.mp keys]

/-- Rows without a score are tied in any order. -/
theorem ranksAlike_shelfEngine (store : Store) (request : SearchRequest) :
    RanksAlike shelfEngine shelfEngine store request := by
  intro payloadType _
  refine ⟨List.Perm.refl _, List.pairwise_of_forall_mem_list fun first listed second listed' => ?_⟩
  have none_first : first.score = none := (stored_of_mem_partitionRows listed).2
  have none_second : second.score = none := (stored_of_mem_partitionRows listed').2
  simp [searchRules, scoreOf, none_first, none_second]

def shelfItem (identifier : String) : Item where
  place := shelfPlace identifier
  value := shelfRecord identifier
  score := none

/-- The rows of the partition are the records. -/
theorem mem_partitionRows_shelf {item : Item} :
    item ∈ partitionRows shelfEngine (shelf shelfIdentifiers) shelfRequest (some "adr") ↔
      ∃ identifier ∈ shelfIdentifiers, item = shelfItem identifier := by
  have selected : ∀ identifier ∈ shelfIdentifiers,
      PrefixEngine.selects (partitionScope shelfRequest (some "adr")) (shelfPlace identifier)
        (shelfRecord identifier) = true := by
    decide +kernel
  constructor
  · intro listed
    obtain ⟨stored, scored⟩ := stored_of_mem_partitionRows listed
    obtain ⟨identifier, inside, place, value⟩ := lookup_shelf.mp stored
    exact ⟨identifier, inside, by cases item; simp_all [shelfItem, shelfEngine, prefixEngine]⟩
  · rintro ⟨identifier, inside, rfl⟩
    exact (shelfEngine.mem_ranking _ _ _).mpr
      ⟨lookup_shelf.mpr ⟨identifier, inside, rfl, rfl⟩, selected identifier inside, rfl⟩

theorem partitions_shelfRequest : partitions shelfRequest = [some "adr"] := by
  simp [partitions, shelfRequest]

theorem partition_shelfRequest {front back : List (Option String)} {payloadType : Option String}
    (whole : partitions shelfRequest = front ++ payloadType :: back) :
    some "adr" = payloadType := by
  have member : payloadType ∈ partitions shelfRequest := by rw [whole]; simp
  rw [partitions_shelfRequest, List.mem_singleton] at member
  exact member.symm

/-- The record that sorts first may be left out, since eleven tie. -/
theorem not_tiesSettled_shelf :
    ¬TiesSettled shelfRuntime shelfEngine (shelf shelfIdentifiers) shelfRequest := by
  have accepted : ∀ identifier ∈ shelfIdentifiers,
      passes shelfRuntime shelfRequest (some "adr") (shelfItem identifier) = true := by
    decide +kernel
  rintro (⟨payloadType, partition, incomplete⟩ | ⟨-, reaches⟩)
  · cases (incomplete _ (ranksAlike_shelfEngine _ _ payloadType partition)).1
  · have first : shelfItem "A" ∈
        partitionRows shelfEngine (shelf shelfIdentifiers) shelfRequest (some "adr") :=
      mem_partitionRows_shelf.mpr ⟨"A", by decide, rfl⟩
    have unscored : ∀ item ∈
        partitionRows shelfEngine (shelf shelfIdentifiers) shelfRequest (some "adr"),
        scoreOf item = 0 := by
      intro item listed
      obtain ⟨identifier, -, rfl⟩ := mem_partitionRows_shelf.mp listed
      rfl
    have may : MayReach shelfRuntime shelfEngine (shelf shelfIdentifiers) shelfRequest
        (shelfItem "A") := by
      refine ⟨[], some "adr", [], partitions_shelfRequest, ⟨first, ?_⟩, by simp⟩
      have none_better : (partitionRows shelfEngine (shelf shelfIdentifiers) shelfRequest
          (some "adr")).filter (fun other => decide
            (searchRules.score (shelfItem "A") < searchRules.score other)) = [] := by
        refine List.filter_eq_nil_iff.mpr fun other listed => ?_
        rw [decide_eq_true_eq]
        change ¬scoreOf (shelfItem "A") < scoreOf other
        rw [unscored _ first, unscored other listed]
        exact lt_irrefl 0
      rw [none_better]
      exact ⟨accepted "A" (by decide), by decide, by simp [Rules.keys], by decide⟩
    rcases reaches (shelfItem "A") may with
      ⟨front, payloadType, back, whole, certain, -⟩ | ⟨others, -, enough, before⟩
    · -- eleven keys do not fit into ten
      obtain rfl := partition_shelfRequest whole
      have all_keys : (shelfIdentifiers.map fun identifier => (shelfPlace identifier).key).toFinset ⊆
          searchRules.keys (passes shelfRuntime shelfRequest (some "adr"))
            ((partitionRows shelfEngine (shelf shelfIdentifiers) shelfRequest (some "adr")).filter
              fun other => decide
                (searchRules.score (shelfItem "A") ≤ searchRules.score other)) := by
        intro key member
        obtain ⟨identifier, inside, rfl⟩ := List.mem_map.mp (List.mem_toFinset.mp member)
        refine Rules.mem_keys.mpr ⟨shelfItem identifier, List.mem_filter.mpr
          ⟨mem_partitionRows_shelf.mpr ⟨identifier, inside, rfl⟩, ?_⟩,
          accepted identifier inside, rfl⟩
        exact decide_eq_true (le_refl (0 : ℚ))
      have eleven : (shelfIdentifiers.map fun identifier =>
          (shelfPlace identifier).key).toFinset.card = 11 := by
        decide +kernel
      have fits := (Finset.card_le_card all_keys).trans certain.room
      rw [eleven] at fits
      exact absurd fits (by decide)
    · -- no other record sorts before it
      have smallest : ∀ identifier ∈ shelfIdentifiers,
          sortsBefore (shelfItem identifier) (shelfItem "A") = true → identifier = "A" := by
        decide +kernel
      obtain ⟨other, listed⟩ : ∃ other, other ∈ others :=
        List.exists_mem_of_length_pos (by rw [enough]; decide)
      obtain ⟨⟨front, payloadType, back, whole, reachable, -⟩, earlier, different⟩ :=
        before other listed
      obtain rfl := partition_shelfRequest whole
      obtain ⟨identifier, inside, rfl⟩ := mem_partitionRows_shelf.mp reachable.1
      exact different (congrArg shelfItem (smallest identifier inside earlier))

/-- Two engines may list the same eleven records of one score, and the search returns other
records. -/
theorem search_differs_of_ties :
    ∃ other, DistinctNaturalKeys (shelf shelfIdentifiers) ∧
      RanksAlike shelfEngine shelfEngine (shelf shelfIdentifiers) shelfRequest ∧
      RanksAlike shelfEngine other (shelf shelfIdentifiers) shelfRequest ∧
      (search shelfRuntime shelfRequest).run (storeWorld other) (shelf shelfIdentifiers) ≠
        (search shelfRuntime shelfRequest).run (storeWorld shelfEngine) (shelf shelfIdentifiers) := by
  have distinct := distinctNaturalKeys_shelf shelfIdentifiers
  have sorted := ranksAlike_shelfEngine (shelf shelfIdentifiers) shelfRequest
  by_contra same
  refine not_tiesSettled_shelf (settled_of_constant distinct sorted fun other alike => ?_)
  by_contra different
  exact same ⟨other, distinct, sorted, alike, different⟩

/-- What decides whether the search of the shelf is deterministic. -/
theorem search_deterministic_iff_shelf :
    (∀ other, RanksAlike shelfEngine other (shelf shelfIdentifiers) shelfRequest →
        (search shelfRuntime shelfRequest).run (storeWorld other) (shelf shelfIdentifiers) =
          (search shelfRuntime shelfRequest).run (storeWorld shelfEngine) (shelf shelfIdentifiers)) ↔
      TiesSettled shelfRuntime shelfEngine (shelf shelfIdentifiers) shelfRequest :=
  search_deterministic_iff shelfRuntime shelfEngine (shelf shelfIdentifiers) shelfRequest
    (distinctNaturalKeys_shelf _) (ranksAlike_shelfEngine _ _)

end Sample

end FleetMemory
