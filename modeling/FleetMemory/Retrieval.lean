/-
This file models the retrieval core: the filters a search applies to the rows the store
ranks, the page loop that reads one partition of a namespace through them, and the search
that merges the partitions. It proves that the page loop computes the plain filter: the
first ten distinct rows, in rank order, among the first 1024 rows that pass, whichever of
the store's two ways of cutting a page is in use.
-/

import FleetMemory.Store
import FleetMemory.Distinct
import Mathlib.Data.String.Basic

namespace FleetMemory

open StoreProgram Distinct

/-! ### Requests and filters -/

/-- `SearchRequest`. -/
structure SearchRequest where
  project : String
  payloadTypes : List String := []
  domainTags : List String := []
  query : Option String := none
  tokenBudget : Int
  includeSuperseded : Bool := false
  requireSubstantive : Bool := false
deriving DecidableEq, Repr

/-- `item.key`. -/
def Item.key (item : Item) : String :=
  item.place.key

/-- `_extract_payload_type`: the first segment, which a split always has. -/
def extractPayloadType (naturalKey : String) : Option String :=
  (Text.split ':' naturalKey).head?

/-- `_matches_project`. -/
def matchesProject (item : Item) (project : String) : Bool :=
  item.place.namespaceParts[1]? == some project

/-- `_matches_payload_types`. -/
def matchesPayloadTypes (item : Item) (payloadTypes : List String) : Bool :=
  if payloadTypes = [] then true
  else match extractPayloadType (item.value.naturalKey.getD "") with
    | some itemType => payloadTypes.contains itemType
    | none => false

variable (runtime : Runtime)

/-- `_item_domain_tags`. The writers store no tags outside the content. -/
def itemDomainTags (item : Item) : List PyValue :=
  match runtime.loads item.value.content with
  | .ok (.dict parsed) =>
    match PyDict.get parsed "domain_tags" with
    | some (.list nested) => nested
    | _ => []
  | _ => []

/-- `_matches_domain_tags`. -/
def matchesDomainTags (item : Item) (domainTags : List String) : Bool :=
  if domainTags = [] then true
  else domainTags.any fun tag => (itemDomainTags runtime item).any fun
    | .str itemTag => itemTag == tag
    | _ => false

/-- A field holds usable prose. -/
def usable : Option PyValue → Bool
  | some (.str text) => !Text.blank text
  | _ => false

/-- `_has_substantive_content`. -/
def hasSubstantiveContent (item : Item) : Bool :=
  match runtime.loads item.value.content with
  | .ok (.dict payload) =>
    let payloadType := match item.value.payloadType with
      | some stored => if stored = "" then extractPayloadType (item.value.naturalKey.getD "")
          else some stored
      | none => extractPayloadType (item.value.naturalKey.getD "")
    if payloadType = some "build_outcome" then
      usable (PyDict.get payload "approach") || usable (PyDict.get payload "lessons")
    else if payloadType = some "document" then usable (PyDict.get payload "content")
    else false
  | _ => false

/-- `_is_superseded`. -/
def isSuperseded (item : Item) : Bool :=
  item.value.marked

/-! ### One partition -/

/-- `_RANKED_RESULT_LIMIT`. -/
def rankedResultLimit : Nat := 10

/-- `_LOGICAL_PAGE_SIZE`. -/
def logicalPageSize : Nat := 10

/-- `_MAX_SCANNED_PER_PARTITION`. -/
def maxScannedPerPartition : Nat := 1024

/-- What a partition's searches look through. -/
def partitionScope (request : SearchRequest) (payloadType : Option String) : Scope where
  namespacePrefix := ["fleet_memory", request.project] ++ payloadType.toList
  query := request.query
  filter := ("project", request.project) ::
    (payloadType.map fun name => ("payload_type", name)).toList

/-- The row passes the filters of a partition. -/
def passes (request : SearchRequest) (payloadType : Option String) (item : Item) : Bool :=
  matchesProject item request.project &&
    (payloadType.all fun name => matchesPayloadTypes item [name]) &&
    matchesDomainTags runtime item request.domainTags &&
    (request.includeSuperseded || !isSuperseded item) &&
    (!request.requireSubstantive || hasSubstantiveContent runtime item)

/-- The rows of a page, collected until ten are accepted. The keys seen are those of the accepted
rows. -/
def scanPage (request : SearchRequest) (payloadType : Option String) (accepted : List Item) :
    List Item → List Item
  | [] => accepted
  | item :: rest =>
    if passes runtime request payloadType item && !(accepted.map Item.key).contains item.key then
      if (accepted ++ [item]).length ≥ rankedResultLimit then accepted ++ [item]
      else scanPage request payloadType (accepted ++ [item]) rest
    else scanPage request payloadType accepted rest

/-- `_scan_bound_reached`. -/
def scanBoundReached (request : SearchRequest) (accepted : List Item) : StoreM (List Item) :=
  if request.requireSubstantive then
    lift (.error (.runtimeError "filtered search incomplete at candidate scan bound"))
  else return accepted

/-- The page loop of `_search_partition`, run for at most the given number of pages. -/
def searchLoop (request : SearchRequest) (payloadType : Option String) :
    Nat → List Item → Nat → Bool → StoreM (List Item)
  | 0, _, _, _ => Program.ofOutcome .hung
  | pages + 1, accepted, offset, exhausted =>
    if accepted.length < rankedResultLimit && !exhausted then
      if maxScannedPerPartition ≤ offset then scanBoundReached request accepted
      else do
        let logicalSize := min logicalPageSize (maxScannedPerPartition - offset)
        let requestLimit := offset + logicalSize
        let fetched ← Program.search
          { scope := partitionScope request payloadType, limit := requestLimit, offset }
        let page := fetched.take logicalSize
        let accepted := scanPage runtime request payloadType accepted page
        let exhausted := (fetched.length < requestLimit && fetched.length ≤ logicalSize) ||
          page.length < logicalSize
        if maxScannedPerPartition ≤ offset + page.length &&
            accepted.length < rankedResultLimit && !exhausted then
          scanBoundReached request accepted
        else searchLoop request payloadType pages accepted (offset + page.length) exhausted
    else return accepted

/-- `_search_partition`. A page takes at least one row or is the last, so no more pages than rows
to scan are read. -/
def searchPartition (request : SearchRequest) (payloadType : Option String) :
    StoreM (List Item) :=
  searchLoop runtime request payloadType (maxScannedPerPartition + 1) [] 0 false

/-! ### The search -/

/-- `item.score or 0.0`. -/
def scoreOf (item : Item) : ℚ :=
  item.score.getD 0

/-- `_sort_key(first) <= _sort_key(second)`. -/
def sortsBefore (first second : Item) : Bool :=
  if scoreOf first = scoreOf second then
    decide (first.value.naturalKey.getD "" ≤ second.value.naturalKey.getD "")
  else decide (scoreOf second < scoreOf first)

/-- The partitions a search reads: one for each requested type, in order, or the whole project. -/
def partitions (request : SearchRequest) : List (Option String) :=
  if request.payloadTypes = [] then [none]
  else (request.payloadTypes.dedup.mergeSort fun first second => decide (first ≤ second)).map some

def searchPartitions (request : SearchRequest) : List (Option String) → StoreM (List Item)
  | [] => return []
  | payloadType :: rest => do
    let results ← searchPartition runtime request payloadType
    let others ← searchPartitions request rest
    return results ++ others

/-- The filters a search applies once more to the merged partitions. -/
def keeps (request : SearchRequest) (item : Item) : Bool :=
  matchesProject item request.project && matchesPayloadTypes item request.payloadTypes &&
    matchesDomainTags runtime item request.domainTags &&
    (request.includeSuperseded || !isSuperseded item)

/-- `search`. -/
def search (request : SearchRequest) : StoreM (List Item) := do
  let rawResults ← searchPartitions runtime request (partitions request)
  let filteredResults := rawResults.filter (keeps runtime request)
  return ((distinctBy Item.key filteredResults).mergeSort sortsBefore).take rankedResultLimit

/-! ### The page loop computes the plain filter -/

/-- The first ten distinct rows that pass. -/
def collected (request : SearchRequest) (payloadType : Option String) (rows : List Item) :
    List Item :=
  (distinctBy Item.key (rows.filter (passes runtime request payloadType))).take rankedResultLimit

/-- How a partition search ends on a ranking: it raises when the rows past the scan bound could
hold matches the caller insists on, and otherwise returns the first ten distinct matches. -/
def partitionAnswer (request : SearchRequest) (payloadType : Option String) (rows : List Item) :
    Outcome PyError (List Item) :=
  if request.requireSubstantive = true ∧ maxScannedPerPartition < rows.length ∧
      (distinctBy Item.key ((rows.take maxScannedPerPartition).filter
        (passes runtime request payloadType))).length < rankedResultLimit then
    .raised (.runtimeError "filtered search incomplete at candidate scan bound")
  else .returned (collected runtime request payloadType (rows.take maxScannedPerPartition))

/-- A store whose searches cut their page out of one ranking, as long as the limit reaches past
the offset. -/
def CutsPages {State : Type} (world : World Place StoredValue SearchQuery Item State)
    (state : State) (scope : Scope) (rows : List Item) : Prop :=
  ∀ limit offset, offset ≤ limit →
    world.search state { scope, limit, offset } = (rows.drop offset).take limit

variable {runtime} {request : SearchRequest} {payloadType : Option String}

theorem length_collected_lt {rows : List Item} :
    (collected runtime request payloadType rows).length < rankedResultLimit ↔
      (distinctBy Item.key (rows.filter (passes runtime request payloadType))).length <
        rankedResultLimit := by
  rw [collected, List.length_take]
  omega

/-- Below ten rows nothing was cut off. -/
theorem collected_eq_of_length_lt {rows : List Item}
    (room : (collected runtime request payloadType rows).length < rankedResultLimit) :
    collected runtime request payloadType rows =
      distinctBy Item.key (rows.filter (passes runtime request payloadType)) :=
  List.take_of_length_le (length_collected_lt.mp room).le

/-- Once ten rows are collected, later rows change nothing. -/
theorem collected_append {rows : List Item}
    (full : rankedResultLimit ≤ (collected runtime request payloadType rows).length)
    (more : List Item) :
    collected runtime request payloadType (rows ++ more) =
      collected runtime request payloadType rows := by
  rw [collected, List.filter_append]
  exact take_distinctBy_append Item.key (not_lt.mp fun room => absurd full
    (not_le.mpr (length_collected_lt.mpr room)))

/-- Scanning a page extends what is collected to the page's rows. -/
theorem scanPage_collected (rows page : List Item)
    (room : (collected runtime request payloadType rows).length < rankedResultLimit) :
    scanPage runtime request payloadType (collected runtime request payloadType rows) page =
      collected runtime request payloadType (rows ++ page) := by
  induction page generalizing rows with
  | nil => rw [scanPage, List.append_nil]
  | cons item rest inductionHypothesis =>
    have next : rows ++ item :: rest = (rows ++ [item]) ++ rest := by simp
    have kept := collected_eq_of_length_lt room
    by_cases accepted : passes runtime request payloadType item = true ∧
        item.key ∉ (collected runtime request payloadType rows).map Item.key
    · have extended : distinctBy Item.key ((rows ++ [item]).filter
          (passes runtime request payloadType)) =
            collected runtime request payloadType rows ++ [item] := by
        rw [List.filter_append, List.filter_singleton, accepted.1, cond_true, distinctBy_concat,
          ← kept, if_neg accepted.2]
      have whole : collected runtime request payloadType (rows ++ [item]) =
          collected runtime request payloadType rows ++ [item] := by
        rw [collected, extended]
        exact List.take_of_length_le (by simpa using Nat.succ_le_of_lt room)
      rw [scanPage, if_pos (by simpa using accepted), next]
      split
      · rename_i full
        rw [collected_append (by rw [whole]; exact full), whole]
      · rename_i short
        rw [← whole]
        exact inductionHypothesis _ (by rw [whole]; exact not_le.mp short)
    · have same : collected runtime request payloadType (rows ++ [item]) =
          collected runtime request payloadType rows := by
        by_cases passed : passes runtime request payloadType item = true
        · have seen : item.key ∈ (collected runtime request payloadType rows).map Item.key := by
            by_contra fresh
            exact accepted ⟨passed, fresh⟩
          rw [collected, List.filter_append, List.filter_singleton, passed, cond_true,
            distinctBy_concat, ← kept, if_pos seen]
          exact List.take_of_length_le room.le
        · simp [collected, passed]
      rw [scanPage, if_neg (by simpa using accepted), next, ← same]
      exact inductionHypothesis _ (by rw [same]; exact room)

/-- Where the page loop stands: it has read the first `offset` rows, all of them when it is
exhausted, and stops before the scan bound only with ten rows or none left. -/
structure Scanned (runtime : Runtime) (request : SearchRequest) (payloadType : Option String)
    (rows : List Item) (offset : Nat) (exhausted : Bool) : Prop where
  inside : offset ≤ rows.length
  bounded : offset ≤ maxScannedPerPartition
  ended : exhausted = true → rows.length ≤ offset
  unfinished : exhausted = false →
    (collected runtime request payloadType (rows.take offset)).length < rankedResultLimit →
      offset < maxScannedPerPartition

/-- The collected rows are the answer when ten are collected or no row is left. -/
theorem partitionAnswer_of_done {rows : List Item} {offset : Nat}
    (bounded : offset ≤ maxScannedPerPartition)
    (done : rankedResultLimit ≤
        (collected runtime request payloadType (rows.take offset)).length ∨
      rows.length ≤ offset) :
    partitionAnswer runtime request payloadType rows =
      .returned (collected runtime request payloadType (rows.take offset)) := by
  have same : collected runtime request payloadType (rows.take maxScannedPerPartition) =
      collected runtime request payloadType (rows.take offset) := by
    rcases done with full | ended
    · have split : rows.take maxScannedPerPartition = rows.take offset ++
          (rows.drop offset).take (maxScannedPerPartition - offset) := by
        rw [← List.take_add, Nat.add_sub_cancel' bounded]
      rw [split, collected_append full]
    · rw [List.take_of_length_le ended, List.take_of_length_le (ended.trans bounded)]
  rw [partitionAnswer, same, if_neg]
  rintro ⟨_, long, few⟩
  rcases done with full | ended
  · rw [← length_collected_lt, same] at few
    omega
  · omega

/-- The scan bound is reached with rows left and fewer than ten collected: the caller who insists
on matches gets an error, another gets what was found. -/
theorem run_scanBoundReached {State : Type} {world : World Place StoredValue SearchQuery Item State}
    {state : State} {rows : List Item} (left : maxScannedPerPartition < rows.length)
    (few : (collected runtime request payloadType (rows.take maxScannedPerPartition)).length <
      rankedResultLimit) :
    (scanBoundReached request
        (collected runtime request payloadType (rows.take maxScannedPerPartition))).run world state =
      (partitionAnswer runtime request payloadType rows, state) := by
  have fewer := length_collected_lt.mp few
  by_cases insists : request.requireSubstantive = true
  · rw [scanBoundReached, if_pos insists, partitionAnswer, if_pos ⟨insists, left, fewer⟩]
    rfl
  · rw [scanBoundReached, if_neg insists, partitionAnswer, if_neg (fun all => insists all.1)]
    rfl

theorem take_append_page (rows : List Item) (offset size : Nat) :
    rows.take offset ++ (rows.drop offset).take size =
      rows.take (offset + ((rows.drop offset).take size).length) := by
  rw [← List.take_add, List.take_eq_take_iff, List.length_take, List.length_drop]
  omega

/-- The page loop, from any place it can stand at, ends with the partition's answer. -/
theorem run_searchLoop {State : Type} {world : World Place StoredValue SearchQuery Item State}
    {state : State} {rows : List Item}
    (cuts : CutsPages world state (partitionScope request payloadType) rows)
    (pages offset : Nat) (exhausted : Bool)
    (scanned : Scanned runtime request payloadType rows offset exhausted)
    (enough : (if exhausted then 0 else maxScannedPerPartition - offset) < pages) :
    (searchLoop runtime request payloadType pages
        (collected runtime request payloadType (rows.take offset)) offset exhausted).run world state =
      (partitionAnswer runtime request payloadType rows, state) := by
  induction pages generalizing offset exhausted with
  | zero => omega
  | succ pages inductionHypothesis =>
    rw [searchLoop]
    by_cases goes : (collected runtime request payloadType (rows.take offset)).length <
        rankedResultLimit ∧ exhausted = false
    · obtain ⟨room, rfl⟩ := goes
      have below := scanned.unfinished rfl room
      have inside := scanned.inside
      obtain ⟨size, size_eq⟩ : ∃ size, size = min logicalPageSize (maxScannedPerPartition - offset) :=
        ⟨_, rfl⟩
      have sized : 1 ≤ size ∧ size ≤ 10 ∧ offset + size ≤ maxScannedPerPartition ∧
          (size < 10 → offset + size = maxScannedPerPartition) := by
        rw [size_eq, logicalPageSize]
        omega
      rw [if_pos (by simpa using room), if_neg (not_le.mpr below), ← size_eq, Program.run_bind,
        Program.run_search, cuts (offset + size) offset (Nat.le_add_right _ _)]
      dsimp only
      rw [List.take_take, min_eq_left (Nat.le_add_left size offset), scanPage_collected _ _ room,
        take_append_page]
      simp only [List.length_take, List.length_drop]
      obtain ⟨read, read_eq⟩ : ∃ read, read = min size (rows.length - offset) := ⟨_, rfl⟩
      obtain ⟨ended, ended_eq⟩ : ∃ ended, ended =
          (decide (min (offset + size) (rows.length - offset) < offset + size) &&
            decide (min (offset + size) (rows.length - offset) ≤ size) ||
              decide (min size (rows.length - offset) < size)) := ⟨_, rfl⟩
      have ended_iff : ended = true ↔ (min (offset + size) (rows.length - offset) < offset + size ∧
          min (offset + size) (rows.length - offset) ≤ size) ∨
            min size (rows.length - offset) < size := by
        simp [ended_eq]
      have open_iff : ended = false ↔ ¬(ended = true) := by simp
      rw [← ended_eq, ← read_eq]
      by_cases bound : maxScannedPerPartition ≤ offset + read ∧
          (collected runtime request payloadType (rows.take (offset + read))).length <
            rankedResultLimit ∧ ended = false
      · obtain ⟨reached, few, still⟩ := bound
        have whole : offset + read = maxScannedPerPartition := by omega
        rw [if_pos (by simp [reached, few, still]), whole]
        rw [whole] at few
        refine run_scanBoundReached ?_ few
        rw [open_iff, ended_iff] at still
        rw [maxScannedPerPartition] at *
        omega
      · rw [if_neg (by simpa [and_assoc] using bound)]
        refine inductionHypothesis (offset + read) ended ⟨?_, ?_, ?_, ?_⟩ ?_
        · omega
        · omega
        · intro done
          rw [ended_iff] at done
          omega
        · intro still few
          by_contra reached
          exact bound ⟨not_lt.mp reached, few, still⟩
        · split
          · rw [if_neg (by simp)] at enough
            omega
          · rename_i still
            rw [ended_iff] at still
            rw [if_neg (by simp)] at enough
            omega
    · rw [if_neg (by simpa using goes), Program.run_pure]
      rw [partitionAnswer_of_done scanned.bounded]
      by_cases full : rankedResultLimit ≤
          (collected runtime request payloadType (rows.take offset)).length
      · exact Or.inl full
      · refine Or.inr (scanned.ended ?_)
        by_contra open_
        exact goes ⟨not_le.mp full, by simpa using open_⟩

/-- On a store that cuts its pages out of a ranking, a partition search ends with the ranking's
answer. -/
theorem run_searchPartition {State : Type} {world : World Place StoredValue SearchQuery Item State}
    {state : State} {rows : List Item}
    (cuts : CutsPages world state (partitionScope request payloadType) rows) :
    (searchPartition runtime request payloadType).run world state =
      (partitionAnswer runtime request payloadType rows, state) := by
  have start : collected runtime request payloadType (rows.take 0) = [] := rfl
  rw [searchPartition, ← start]
  refine run_searchLoop cuts _ 0 false ⟨Nat.zero_le _, Nat.zero_le _, ?_, ?_⟩ (by simp)
  · rintro ⟨⟩
  · intro _ _
    rw [maxScannedPerPartition]
    omega

/-- The installed store, which takes its candidates from a search's limit and ignores the offset:
it answers with the rows from the offset on, below `2 * limit + 1`. -/
def installedWorld (ranking : Scope → List Item) :
    World Place StoredValue SearchQuery Item Unit where
  get _ _ := none
  search _ query := ((ranking query.scope).take
    (min (query.offset + query.limit) (2 * query.limit + 1))).drop query.offset
  put state _ _ := state

theorem cutsPages_installedWorld (ranking : Scope → List Item) (scope : Scope) :
    CutsPages (installedWorld ranking) () scope (ranking scope) := by
  intro limit offset reaches
  change ((ranking scope).take (min (offset + limit) (2 * limit + 1))).drop offset = _
  rw [min_eq_left (by omega), List.drop_take, Nat.add_sub_cancel_left]

/-- The partition search over the installed store is the plain filter of the first 1024 rows: it
returns the first ten of distinct keys that pass, and raises exactly when the request insists on
substantive content, rows lie past the scan bound and fewer than ten were found before it. -/
theorem searchPartition_eq_plainFilter (runtime : Runtime) (ranking : Scope → List Item)
    (request : SearchRequest) (payloadType : Option String) :
    let rows := ranking (partitionScope request payloadType)
    let found := distinctBy Item.key ((rows.take 1024).filter (passes runtime request payloadType))
    (searchPartition runtime request payloadType).run (installedWorld ranking) () =
      (if request.requireSubstantive = true ∧ 1024 < rows.length ∧ found.length < 10 then
        .raised (.runtimeError "filtered search incomplete at candidate scan bound")
      else .returned (found.take 10), ()) :=
  run_searchPartition (cutsPages_installedWorld ranking _)

/-- Every store pages the same way as far as the partition search asks. -/
theorem cutsPages_storeWorld (engine : SearchEngine) (store : Store) (scope : Scope) :
    CutsPages (storeWorld engine) store scope (engine.ranking scope store) := by
  intro limit offset reaches
  rw [storeWorld_search]
  unfold window
  split
  · rfl
  · dsimp only
    rw [List.drop_take, List.take_take, min_eq_left (by omega)]

/-! ### What a search returns -/

/-- Only ranked rows are collected. -/
theorem mem_of_mem_collected {rows : List Item} {item : Item}
    (member : item ∈ collected runtime request payloadType rows) : item ∈ rows :=
  (List.mem_filter.mp ((distinctBy_sublist Item.key _).subset (List.mem_of_mem_take member))).1

theorem mem_of_partitionAnswer {rows items : List Item}
    (answer : partitionAnswer runtime request payloadType rows = .returned items) {item : Item}
    (member : item ∈ items) : item ∈ rows := by
  unfold partitionAnswer at answer
  split at answer
  · cases answer
  · obtain rfl := Outcome.returned.inj answer
    exact List.mem_of_mem_take (mem_of_mem_collected member)

variable (runtime request) in
/-- Reading the partitions returns stored rows and leaves the store alone. -/
theorem run_searchPartitions (engine : SearchEngine) (types : List (Option String)) (store : Store) :
    ∃ outcome, (searchPartitions runtime request types).run (storeWorld engine) store =
        (outcome, store) ∧
      ∀ items, outcome = .returned items → ∀ item ∈ items,
        store.lookup item.place = some item.value := by
  induction types with
  | nil =>
    refine ⟨.returned [], rfl, ?_⟩
    rintro items ⟨rfl⟩ item member
    cases member
  | cons payloadType rest inductionHypothesis =>
    obtain ⟨outcome, ran, stored⟩ := inductionHypothesis
    rw [searchPartitions, Program.run_bind,
      run_searchPartition (cutsPages_storeWorld engine store _)]
    cases answer : partitionAnswer runtime request payloadType
        (engine.ranking (partitionScope request payloadType) store) with
    | returned results =>
      dsimp only
      rw [Program.run_bind, ran]
      cases outcome with
      | returned others =>
        refine ⟨_, rfl, ?_⟩
        rintro items ⟨rfl⟩ item member
        rcases List.mem_append.mp member with here | later
        · exact ((engine.mem_ranking _ _ _).mp (mem_of_partitionAnswer answer here)).1
        · exact stored others rfl item later
      | raised error => exact ⟨_, rfl, by rintro items ⟨⟩⟩
      | hung => exact ⟨_, rfl, by rintro items ⟨⟩⟩
    | raised error => exact ⟨_, rfl, by rintro items ⟨⟩⟩
    | hung => exact ⟨_, rfl, by rintro items ⟨⟩⟩

/-- Partitions whose rankings answer alike in two stores are read alike. -/
theorem run_searchPartitions_eq {engine : SearchEngine} {first second : Store}
    {types : List (Option String)}
    (same : ∀ payloadType ∈ types,
      partitionAnswer runtime request payloadType
          (engine.ranking (partitionScope request payloadType) first) =
        partitionAnswer runtime request payloadType
          (engine.ranking (partitionScope request payloadType) second)) :
    ((searchPartitions runtime request types).run (storeWorld engine) first).1 =
      ((searchPartitions runtime request types).run (storeWorld engine) second).1 := by
  induction types with
  | nil => rfl
  | cons payloadType rest inductionHypothesis =>
    have following := inductionHypothesis fun other member =>
      same other (List.mem_cons_of_mem _ member)
    rw [searchPartitions, Program.run_bind, Program.run_bind,
      run_searchPartition (cutsPages_storeWorld engine first _),
      run_searchPartition (cutsPages_storeWorld engine second _),
      same payloadType List.mem_cons_self]
    cases partitionAnswer runtime request payloadType
        (engine.ranking (partitionScope request payloadType) second) with
    | returned results =>
      exact Program.run_bind_of_quiet following fun _ => Program.uses_pure _
    | raised error => rfl
    | hung => rfl

/-- A search ends the same over two stores whose rankings answer its partitions alike. -/
theorem run_search_eq {engine : SearchEngine} {first second : Store}
    (same : ∀ payloadType ∈ partitions request,
      partitionAnswer runtime request payloadType
          (engine.ranking (partitionScope request payloadType) first) =
        partitionAnswer runtime request payloadType
          (engine.ranking (partitionScope request payloadType) second)) :
    ((search runtime request).run (storeWorld engine) first).1 =
      ((search runtime request).run (storeWorld engine) second).1 :=
  Program.run_bind_of_quiet (run_searchPartitions_eq same) fun _ => Program.uses_pure _

/-- A search that returns has returned stored rows that pass its filters. -/
theorem mem_of_run_search {engine : SearchEngine} {store after : Store} {items : List Item}
    (returned : (search runtime request).run (storeWorld engine) store = (.returned items, after))
    {item : Item} (member : item ∈ items) :
    store.lookup item.place = some item.value ∧ keeps runtime request item = true := by
  obtain ⟨outcome, ran, stored⟩ :=
    run_searchPartitions runtime request engine (partitions request) store
  rw [search, Program.run_bind, ran] at returned
  cases outcome with
  | returned rawResults =>
    obtain rfl := Outcome.returned.inj (Prod.mk.inj returned).1
    have sorted := List.mem_mergeSort.mp (List.mem_of_mem_take member)
    obtain ⟨raw, kept⟩ := List.mem_filter.mp ((distinctBy_sublist Item.key _).subset sorted)
    exact ⟨stored rawResults rfl item raw, kept⟩
  | raised error => cases (Prod.mk.inj returned).1
  | hung => cases (Prod.mk.inj returned).1

/-- A request that leaves the filters at their defaults. -/
structure SearchRequest.Plain (request : SearchRequest) : Prop where
  payloadTypes : request.payloadTypes = []
  domainTags : request.domainTags = []
  includeSuperseded : request.includeSuperseded = false
  requireSubstantive : request.requireSubstantive = false

variable (runtime) in
/-- A row that is ranked first, belongs to the project and is not superseded passes every filter
of a plain request. -/
theorem run_search_of_first {engine : SearchEngine} {store : Store} {item : Item}
    {rest : List Item} (plain : request.Plain)
    (ranked : engine.ranking (partitionScope request none) store = item :: rest)
    (project : matchesProject item request.project = true) (current : item.value.marked = false) :
    ∃ items, (search runtime request).run (storeWorld engine) store = (.returned items, store) ∧
      item ∈ items := by
  have passed : passes runtime request none item = true := by
    simp [passes, project, matchesDomainTags, plain.domainTags, isSuperseded, current,
      plain.requireSubstantive]
  have kept : keeps runtime request item = true := by
    simp [keeps, project, matchesPayloadTypes, plain.payloadTypes, matchesDomainTags,
      plain.domainTags, isSuperseded, current]
  obtain ⟨others, first⟩ := exists_distinctBy_cons Item.key item
    ((rest.take (maxScannedPerPartition - 1)).filter (passes runtime request none))
  have collects : collected runtime request none ((item :: rest).take maxScannedPerPartition) =
      item :: others.take (rankedResultLimit - 1) := by
    rw [maxScannedPerPartition, List.take_succ_cons, collected, List.filter_cons_of_pos passed,
      show rankedResultLimit = (rankedResultLimit - 1) + 1 from rfl]
    exact congrArg (List.take _) first
  have answer : partitionAnswer runtime request none (item :: rest) =
      .returned (item :: others.take (rankedResultLimit - 1)) := by
    rw [partitionAnswer, if_neg (by simp [plain.requireSubstantive]), collects]
  have whole : (searchPartitions runtime request [none]).run (storeWorld engine) store =
      (.returned (item :: others.take (rankedResultLimit - 1)), store) := by
    rw [searchPartitions, Program.run_bind,
      run_searchPartition (cutsPages_storeWorld engine store _), ranked, answer]
    dsimp only
    rw [searchPartitions, Program.run_bind, Program.run_pure]
    simp
  rw [search, partitions, if_pos plain.payloadTypes, Program.run_bind, whole]
  refine ⟨_, rfl, ?_⟩
  rw [List.filter_cons_of_pos kept]
  obtain ⟨more, again⟩ := exists_distinctBy_cons Item.key item
    ((others.take (rankedResultLimit - 1)).filter (keeps runtime request))
  have few : ((distinctBy Item.key (item :: (others.take (rankedResultLimit - 1)).filter
      (keeps runtime request))).mergeSort sortsBefore).length ≤ rankedResultLimit := by
    rw [List.length_mergeSort]
    refine (distinctBy_sublist Item.key _).length_le.trans ?_
    rw [List.length_cons]
    have within := (List.length_filter_le (keeps runtime request)
      (others.take (rankedResultLimit - 1))).trans (List.length_take_le _ _)
    exact Nat.succ_le_succ within
  rw [List.take_of_length_le few, List.mem_mergeSort, again]
  exact List.mem_cons_self

/-- A search that does not ask for superseded records returns none. -/
theorem not_marked_of_run_search {engine : SearchEngine} {store after : Store} {items : List Item}
    (default : request.includeSuperseded = false)
    (returned : (search runtime request).run (storeWorld engine) store = (.returned items, after))
    {item : Item} (member : item ∈ items) : item.value.marked = false := by
  have kept := (mem_of_run_search returned member).2
  simp only [keeps, isSuperseded, default, Bool.false_or, Bool.and_eq_true] at kept
  simpa using kept.2

end FleetMemory
