/-
This file models the role defaults of retrieval: a seat's harness searches with its own tag
and its own payload types. It proves how far the request it gets is confined by them. A row
passes the tag filter with any of the tags asked for, so every further tag lets rows of other
seats in. The allowlist is cut down to the registered types before the request is built, and
the request of an empty list is one for every type.
-/

import FleetMemory.Envelopes
import FleetMemory.JsonText
import FleetMemory.SearchCompleteness
import FleetMemory.SearchTools
import Mathlib.Data.Set.Finite.Basic

namespace FleetMemory

open StoreProgram Transitions DeterministicWriter

/-! ### Requests over any registry -/

namespace SearchRequest

/-- `validate_payload_types`, with the names of the registry. -/
def validatePayloadTypesIn (registry : List String) (request : SearchRequest) : List FieldError :=
  let unknownTypes := request.payloadTypes.filter fun payloadType => !registry.contains payloadType
  if unknownTypes = [] then []
  else [valueErrorAt "payload_types" ("Unknown payload type(s) " ++ quotedList unknownTypes ++
    ": not found in PAYLOAD_REGISTRY. Valid types: " ++ String.intercalate ", "
      (registry.mergeSort fun first second => decide (first ≤ second)))]

/-- `SearchRequest(…)`, with the names of the registry. -/
def validateIn (registry : List String) (request : SearchRequest) : Except PyError SearchRequest :=
  let fieldErrors := request.validateProjectIdentifier ++
    request.validatePayloadTypesIn registry ++ request.validateDomainTags ++
    request.validateTokenBudget
  let errors := if fieldErrors = [] then request.validateQueryOrFilterRequired else fieldErrors
  if errors = [] then .ok request else .error (.validation "SearchRequest" errors)

/-- `list(PAYLOAD_REGISTRY)`. -/
def registeredTypes : List String :=
  payloadRegistry.map PayloadClass.payloadType

/-- Over the registry of the payload classes, this is the check of every request. -/
theorem validateIn_registeredTypes (request : SearchRequest) :
    request.validateIn registeredTypes = request.validate := by
  have same : (fun payloadType => !registeredTypes.contains payloadType) =
      fun payloadType => !registered payloadType := by
    funext payloadType
    rw [registeredTypes, registered, List.contains_eq_any_beq, List.any_map]
    exact congrArg not (List.any_congr rfl fun cls => Bool.beq_comm)
  have types : request.validatePayloadTypesIn registeredTypes = request.validatePayloadTypes := by
    rw [validatePayloadTypesIn, validatePayloadTypes, same]
    rfl
  rw [validateIn, validate, types]

/-- A request that passed is the one that was checked, and its project and its types passed. -/
theorem validateIn_eq_ok {registry : List String} {request validated : SearchRequest}
    (valid : request.validateIn registry = .ok validated) :
    validated = request ∧ projectPattern request.project = true := by
  simp only [validateIn, ite_eq_iff, Except.ok.injEq, reduceCtorEq, and_false, or_false] at valid
  obtain ⟨accepted, same⟩ := valid
  refine ⟨same.symm, ?_⟩
  by_contra refused
  have error : request.validateProjectIdentifier ≠ [] := by
    rw [validateProjectIdentifier, if_neg refused]
    exact List.cons_ne_nil _ _
  simp [error] at accepted

end SearchRequest

/-! ### The defaults of the seats -/

/-- `RoleRetrievalDefault`. -/
structure RoleRetrievalDefault where
  tokenBudget : Int
  payloadTypes : List String := []
deriving DecidableEq, Repr

/-- `ROLE_RETRIEVAL_DEFAULTS`. -/
def roleRetrievalDefaults : List (String × RoleRetrievalDefault) :=
  [("product-owner", ⟨4000, ["adr", "planning_outcome", "spec_survival", "document"]⟩),
    ("architect", ⟨4000, ["adr", "pattern", "build_outcome"]⟩),
    ("coach", ⟨2500, ["build_outcome", "review_report", "warning"]⟩),
    ("qa-verifier", ⟨1500, ["live_verdict", "build_outcome"]⟩),
    ("player", ⟨6000, []⟩)]

/-- `role_tag`. -/
def roleTag (role : String) : String :=
  "role:" ++ role

/-- The keyword arguments of `role_scoped_search_request`. -/
structure RoleArguments where
  query : Option String := none
  tokenBudget : Option Int := none
  payloadTypes : Option (List String) := none
  domainTags : Option (List String) := none
  crossRole : Bool := false
  includeSuperseded : Bool := false

namespace RoleArguments

variable (arguments : RoleArguments)

/-- The allowlist of a call: the explicit types, or the seat's own. -/
def allowlist (default : RoleRetrievalDefault) : List String :=
  arguments.payloadTypes.getD default.payloadTypes

/-- The tags of a call: the extra ones, with the seat's own unless the call reads across seats. -/
def tags (role : String) : List String :=
  let tags := arguments.domainTags.getD []
  if arguments.crossRole then tags
  else if tags.contains (roleTag role) then tags
  else tags ++ [roleTag role]

/-- The request a call builds. -/
def request (registry : List String) (default : RoleRetrievalDefault) (role project : String) :
    SearchRequest where
  project := project
  payloadTypes := (arguments.allowlist default).filter registry.contains
  domainTags := arguments.tags role
  query := arguments.query
  tokenBudget := arguments.tokenBudget.getD default.tokenBudget
  includeSuperseded := arguments.includeSuperseded

end RoleArguments

/-- `role_scoped_search_request`. A role that is no seat is a `KeyError`. -/
def roleScopedSearchRequest (runtime : Runtime) (registry : List String) (role project : String)
    (arguments : RoleArguments) : Except PyError SearchRequest :=
  match roleRetrievalDefaults.lookup role with
  | none => .error (.other (runtime.repr role))
  | some default => (arguments.request registry default role project).validateIn registry

/-- A request that was built is that of the seat's default. -/
theorem roleScopedSearchRequest_eq_ok {runtime : Runtime} {registry : List String}
    {role project : String} {arguments : RoleArguments} {request : SearchRequest}
    (built : roleScopedSearchRequest runtime registry role project arguments = .ok request) :
    ∃ default, roleRetrievalDefaults.lookup role = some default ∧
      request = arguments.request registry default role project ∧
        projectPattern project = true := by
  unfold roleScopedSearchRequest at built
  split at built
  · cases built
  · rename_i default known
    obtain ⟨same, pattern⟩ := SearchRequest.validateIn_eq_ok built
    exact ⟨default, known, same, pattern⟩

/-- The seat's own tag is among the tags of a call that does not read across seats. -/
theorem roleTag_mem_tags {arguments : RoleArguments} (own : arguments.crossRole = false)
    (role : String) : roleTag role ∈ arguments.tags role := by
  rw [RoleArguments.tags, own, if_neg Bool.false_ne_true]
  split
  · rename_i listed
    exact List.contains_iff_mem.mp listed
  · exact List.mem_append_right _ (List.mem_singleton_self _)

/-- The tags of a call that does not read across seats are the extra ones and the seat's own. -/
theorem mem_tags {arguments : RoleArguments} (own : arguments.crossRole = false) {role tag : String} :
    tag ∈ arguments.tags role ↔ tag ∈ arguments.domainTags.getD [] ∨ tag = roleTag role := by
  rw [RoleArguments.tags, own, if_neg Bool.false_ne_true]
  split
  · rename_i listed
    refine ⟨Or.inl, fun either => either.elim id ?_⟩
    rintro rfl
    exact List.contains_iff_mem.mp listed
  · rw [List.mem_append, List.mem_singleton]

/-! ### A search that finds something -/

section

variable {runtime : Runtime} {engine : SearchEngine} {store : Store} {request : SearchRequest}

/-- A partition that lists a row that passes gives the search something to return. -/
theorem exists_mem_run_search {payloadType : Option String} {item : Item}
    (default : request.requireSubstantive = false) (partition : payloadType ∈ partitions request)
    (listed : item ∈ partitionRows engine store request payloadType)
    (few : (partitionRows engine store request payloadType).length ≤ maxScannedPerPartition)
    (passed : passes runtime request payloadType item = true) :
    ∃ items found, (search runtime request).run (storeWorld engine) store =
      (.returned items, store) ∧ found ∈ items := by
  have ran := @run_search_of_complete runtime engine store request
    fun _ _ incomplete => absurd incomplete.1 (by simp [default])
  have gathers : searchRules.gather (passes runtime request payloadType)
      (partitionRows engine store request payloadType) ≠ [] := by
    have accepted : item ∈ (partitionRows engine store request payloadType).filter
        (passes runtime request payloadType) := List.mem_filter.mpr ⟨listed, passed⟩
    obtain ⟨first, rest, rows⟩ := List.exists_cons_of_ne_nil (List.ne_nil_of_mem accepted)
    obtain ⟨others, distinct⟩ := Distinct.exists_distinctBy_cons searchRules.key first rest
    have bounded : (partitionRows engine store request payloadType).take searchRules.bound =
        partitionRows engine store request payloadType := List.take_of_length_le few
    rw [Gather.Rules.gather, bounded, rows, distinct]
    exact List.cons_ne_nil _ _
  have merges : searchRules.merge (passes runtime request) (partitions request)
      (partitionRows engine store request) ≠ [] := by
    obtain ⟨gathered, inside⟩ := List.exists_mem_of_ne_nil _ gathers
    have among : gathered ∈ (partitions request).flatMap fun index =>
        searchRules.gather (passes runtime request index)
          (partitionRows engine store request index) :=
      List.mem_flatMap.mpr ⟨payloadType, partition, inside⟩
    obtain ⟨first, rest, rows⟩ := List.exists_cons_of_ne_nil (List.ne_nil_of_mem among)
    obtain ⟨others, distinct⟩ := Distinct.exists_distinctBy_cons searchRules.key first rest
    rw [Gather.Rules.merge, rows, distinct]
    exact List.cons_ne_nil _ _
  obtain ⟨merged, among⟩ := List.exists_mem_of_ne_nil _ merges
  obtain ⟨found, rest, ranked⟩ := List.exists_cons_of_ne_nil
    (List.ne_nil_of_mem (@List.mem_mergeSort _ sortsBefore _ _ |>.mpr among))
  refine ⟨_, found, ran, ?_⟩
  rw [Gather.best, ranked]
  exact List.mem_cons_self

/-- A current record of the project, of a type and a tag the request asks for, is something the
search returns. -/
theorem exists_mem_run_search_of_stored {score : Scope → Place → StoredValue → Option ℚ}
    {payloadType key : String} {value : StoredValue}
    (default : request.requireSubstantive = false)
    (simple : ∀ part ∈ ["fleet_memory", request.project, payloadType], ∀ character ∈ part.toList,
      Like.plain character = true)
    (stored : store.lookup ⟨["fleet_memory", request.project, payloadType], key⟩ = some value)
    (few : store.keys.card ≤ maxScannedPerPartition) (inProject : value.project = some request.project)
    (ofType : value.payloadType = some payloadType)
    (named : extractPayloadType (value.naturalKey.getD "") = some payloadType)
    (current : value.marked = false)
    (requested : request.payloadTypes = [] ∨ payloadType ∈ request.payloadTypes)
    (tagged : ∀ item : Item, item.value = value →
      matchesDomainTags runtime item request.domainTags = true) :
    ∃ items found, (search runtime request).run (storeWorld (prefixEngine score)) store =
      (.returned items, store) ∧ found ∈ items := by
  have listed {partition : Option String} (partOf : partition = none ∨ partition = some payloadType) :
      (⟨⟨["fleet_memory", request.project, payloadType], key⟩, value,
        score (partitionScope request partition)
          ⟨["fleet_memory", request.project, payloadType], key⟩ value⟩ : Item) ∈
        partitionRows (prefixEngine score) store request partition := by
    refine ((prefixEngine score).mem_ranking _ _ _).mpr ⟨stored, prefixEngine_selects_iff.mpr ?_, rfl⟩
    rcases partOf with rfl | rfl
    · refine ⟨@PrefixEngine.extendsPrefix_append ["fleet_memory", request.project] [payloadType]
        (by simp) fun part member => simple part (by simp at member; simp; tauto), ?_⟩
      simp [PrefixEngine.matchesFilter, partitionScope, StoredValue.metadata, inProject]
    · refine ⟨@PrefixEngine.extendsPrefix_append
        ["fleet_memory", request.project, payloadType] [] (by simp) simple, ?_⟩
      simp [PrefixEngine.matchesFilter, partitionScope, StoredValue.metadata, inProject, ofType]
  have passed {partition : Option String} (item : Item)
      (place : item.place = ⟨["fleet_memory", request.project, payloadType], key⟩)
      (record : item.value = value) (partOf : partition = none ∨ partition = some payloadType) :
      passes runtime request partition item = true := by
    have types : (partition.all fun name => matchesPayloadTypes item [name]) = true := by
      rcases partOf with rfl | rfl
      · rfl
      · simp [matchesPayloadTypes, record, named]
    simp [passes, matchesProject, place, types, tagged item record, isSuperseded, record, current,
      default]
  have fewRows (partition : Option String) :
      (partitionRows (prefixEngine score) store request partition).length ≤
        maxScannedPerPartition :=
    (length_ranking_le _ _ _).trans few
  rcases requested with every | asked
  · exact exists_mem_run_search default (by rw [partitions, if_pos every]; simp)
      (listed (Or.inl rfl)) (fewRows none) (passed _ rfl rfl (Or.inl rfl))
  · have partition : some payloadType ∈ partitions request := by
      rw [partitions, if_neg (List.ne_nil_of_mem asked)]
      exact List.mem_map_of_mem (List.mem_mergeSort.mpr (List.mem_dedup.mpr asked))
    exact exists_mem_run_search default partition (listed (Or.inr rfl)) (fewRows _)
      (passed _ rfl rfl (Or.inr rfl))

end

/-! ### Projects of requests -/

/-- A character of a project a request may name stands in an identifier, or is a line feed. -/
theorem mem_project_cases {project : String} (pattern : projectPattern project = true)
    {character : Char} (member : character ∈ project.toList) :
    Text.lowerWord character = true ∨ character = '\n' := by
  simp only [projectPattern, Text.fullMatch, Text.chomp, Bool.and_eq_true, List.all_eq_true]
    at pattern
  by_cases ended : project.toList.getLast? = some '\n'
  · rw [if_pos ended, String.toList_ofList] at pattern
    obtain ⟨front, whole⟩ := List.getLast?_eq_some_iff.mp ended
    rw [whole, List.dropLast_concat] at pattern
    rw [whole] at member
    rcases List.mem_append.mp member with inFront | last
    · exact Or.inl (pattern.2 character inFront)
    · exact Or.inr (List.mem_singleton.mp last)
  · rw [if_neg ended] at pattern
    exact Or.inl (pattern.2 character member)

/-- No such project has a character that is none of these. -/
theorem not_mem_project {project : String} (pattern : projectPattern project = true)
    {character : Char} (other : Text.lowerWord character = false) (notEnd : character ≠ '\n') :
    character ∉ project.toList := by
  intro member
  rcases mem_project_cases pattern member with lower | ended
  · rw [lower] at other
    cases other
  · exact notEnd ended

theorem plain_of_projectPattern {project : String} (pattern : projectPattern project = true) :
    ∀ character ∈ project.toList, Like.plain character = true := by
  intro character member
  have notMany := @not_mem_project project pattern '%' (by decide) (by decide)
  have notEscape := @not_mem_project project pattern '\\' (by decide) (by decide)
  simp only [Like.plain, Bool.and_eq_true, bne_iff_ne]
  exact ⟨fun same => notMany (same ▸ member), fun same => notEscape (same ▸ member)⟩

/-! ### The allowlist -/

/-- Every row a search returns for the request is of a type in the allowlist. -/
def KeepsTo (runtime : Runtime) (request : SearchRequest) (allowlist : List String) : Prop :=
  ∀ (engine : SearchEngine) (store after : Store) (items : List Item),
    (search runtime request).run (storeWorld engine) store = (.returned items, after) →
      ∀ item ∈ items, ∃ payloadType ∈ allowlist,
        extractPayloadType (item.value.naturalKey.getD "") = some payloadType

/-- `json.loads` reads some text as an object with the given domain tag. -/
def ReadsTags (runtime : Runtime) : Prop :=
  ∀ tag : String, ∃ text parsed, runtime.loads text = .ok (.dict parsed) ∧
    PyDict.get parsed "domain_tags" = some (.list [.str tag])

/-- A record of a type, with the content of a text. -/
def typedRecord (payloadType project text : String) : StoredValue where
  content := text
  payloadType := some payloadType
  naturalKey := some (payloadType ++ ":" ++ project ++ ":" ++ "x")
  project := some project
  identifier := some "x"

/-- A name that is not in a list. -/
theorem exists_fresh_type (names : List String) :
    ∃ payloadType : String, payloadType ∉ names ∧ ∀ character ∈ payloadType.toList,
      character = 'a' := by
  have injective : Function.Injective fun count : Nat =>
      String.ofList (List.replicate count 'a') := by
    intro first second same
    have lists := String.ofList_inj.mp same
    simpa using congrArg List.length lists
  obtain ⟨_, ⟨count, rfl⟩, fresh⟩ :=
    (Set.infinite_range_of_injective injective).exists_notMem_finset names.toFinset
  refine ⟨_, fun member => fresh (List.mem_toFinset.mpr member), fun character member => ?_⟩
  rw [String.toList_ofList] at member
  exact List.eq_of_mem_replicate member

/-- The type in a natural key. -/
theorem extractPayloadType_key {payloadType project identifier : String}
    (type : ':' ∉ payloadType.toList) (inProject : ':' ∉ project.toList)
    (plain : ':' ∉ identifier.toList) :
    extractPayloadType (payloadType ++ ":" ++ project ++ ":" ++ identifier) = some payloadType := by
  have parts : Text.split ':' (payloadType ++ ":" ++ project ++ ":" ++ identifier) =
      [payloadType, project, identifier] := Text.split_three type inProject plain
  rw [extractPayloadType, parts]
  rfl

/-- An allowlist without a registered type lets rows of every type in. -/
theorem not_keepsTo_of_unregistered {runtime : Runtime} {registry : List String}
    {role project : String} {arguments : RoleArguments} {default : RoleRetrievalDefault}
    (pattern : projectPattern project = true) (reads : ReadsTags runtime)
    (none_registered : ∀ payloadType ∈ arguments.allowlist default, payloadType ∉ registry) :
    ¬KeepsTo runtime (arguments.request registry default role project)
      (arguments.allowlist default) := by
  intro keeps
  have every : (arguments.request registry default role project).payloadTypes = [] := by
    refine List.filter_eq_nil_iff.mpr fun payloadType member => ?_
    simpa using none_registered payloadType member
  obtain ⟨payloadType, fresh, letters⟩ := exists_fresh_type (arguments.allowlist default)
  obtain ⟨text, parsed, read, tagged⟩ := reads ((arguments.tags role).head?.getD "")
  have free : ':' ∉ payloadType.toList := fun member => absurd (letters _ member) (by decide)
  have named : extractPayloadType (payloadType ++ ":" ++ project ++ ":" ++ "x") =
      some payloadType :=
    extractPayloadType_key free (not_mem_project pattern (by decide) (by decide)) (by decide)
  have simple : ∀ part ∈ ["fleet_memory", project, payloadType], ∀ character ∈ part.toList,
      Like.plain character = true := by
    intro part member
    simp only [List.mem_cons, List.not_mem_nil, or_false] at member
    rcases member with rfl | rfl | rfl
    · exact List.all_eq_true.mp (by decide)
    · exact plain_of_projectPattern pattern
    · intro character here
      rw [letters character here]
      decide
  have tagsPass : ∀ item : Item, item.value = typedRecord payloadType project text →
      matchesDomainTags runtime item (arguments.tags role) = true := by
    intro item record
    cases tags : arguments.tags role with
    | nil => rfl
    | cons tag rest =>
      rw [tags] at tagged
      have itemTags : itemDomainTags runtime item = [.str tag] := by
        rw [itemDomainTags, record, typedRecord, read]
        dsimp only
        rw [tagged]
        rfl
      simp [matchesDomainTags, itemTags]
  obtain ⟨items, item, ran, member⟩ := @exists_mem_run_search_of_stored runtime
    ((∅ : Store).insert ⟨["fleet_memory", project, payloadType], "k"⟩
      (typedRecord payloadType project text))
    (arguments.request registry default role project) (fun _ _ _ => none) payloadType "k"
    (typedRecord payloadType project text) rfl simple lookup_insert_self
    ((card_keys_insert_le _ _ _).trans (by decide)) rfl rfl named rfl (Or.inl every) tagsPass
  obtain ⟨listed, inList, ofItem⟩ := keeps _ _ _ _ ran item member
  have stored := (mem_of_run_search ran member).1
  rw [lookup_insert] at stored
  split at stored
  · rw [← Option.some.inj stored] at ofItem
    obtain rfl := Option.some.inj (named.symm.trans ofItem)
    exact fresh inList
  · cases stored

/-- A call keeps to its allowlist exactly when one of the types in it is registered. -/
theorem allowlist_kept_iff (runtime : Runtime) (registry : List String) (role project : String)
    (arguments : RoleArguments) (default : RoleRetrievalDefault) (request : SearchRequest)
    (known : roleRetrievalDefaults.lookup role = some default)
    (built : roleScopedSearchRequest runtime registry role project arguments = .ok request)
    (reads : ReadsTags runtime) :
    KeepsTo runtime request (arguments.allowlist default) ↔
      ∃ payloadType ∈ arguments.allowlist default, payloadType ∈ registry := by
  obtain ⟨found, knownAlso, rfl, pattern⟩ := roleScopedSearchRequest_eq_ok built
  obtain rfl := Option.some.inj (known.symm.trans knownAlso)
  constructor
  · intro keeps
    by_contra none_registered
    push Not at none_registered
    exact not_keepsTo_of_unregistered pattern reads none_registered keeps
  · rintro ⟨listed, inList, inRegistry⟩ engine store after items ran item member
    have kept := (mem_of_run_search ran member).2
    have asked : listed ∈ (arguments.request registry default role project).payloadTypes :=
      List.mem_filter.mpr ⟨inList, by simpa using inRegistry⟩
    simp only [keeps, Bool.and_eq_true, matchesPayloadTypes,
      if_neg (List.ne_nil_of_mem asked)] at kept
    obtain ⟨⟨⟨-, ofType⟩, -⟩, -⟩ := kept
    cases found : extractPayloadType (item.value.naturalKey.getD "") with
    | none =>
      rw [found] at ofType
      cases ofType
    | some payloadType =>
      rw [found] at ofType
      exact ⟨payloadType, (List.mem_filter.mp (List.contains_iff_mem.mp ofType)).1, rfl⟩

/-! ### The seat's tag -/

/-- A call of the typed writer leaves a store, whichever of its store calls fail. -/
def TypedStep (writer : DeterministicWriter) (before : Store) (request : WriteRequest)
    (after : Store) : Prop :=
  ∃ engine faults, after =
    ((writer.write request.payload request.episodeMeta).runFaulty (storeWorld engine) faults
      before).2

/-- Every row a search returns for the request, of any store the typed writer left, carries the
seat's tag. -/
def ConfinedTo (runtime : Runtime) (role : String) (request : SearchRequest) : Prop :=
  ∀ (pages : Nat) (requests : List WriteRequest) (store : Store),
    Run (TypedStep ⟨runtime, pages⟩) ∅ requests store →
      ∀ (engine : SearchEngine) (after : Store) (items : List Item),
        (search runtime request).run (storeWorld engine) store = (.returned items, after) →
          ∀ item ∈ items, PyValue.str (roleTag role) ∈ itemDomainTags runtime item

/-- A value of a field's type. -/
def FieldSpec.blank (spec : FieldSpec) : PyValue :=
  match spec.type with
  | .str => .str ""
  | .int => .int 0
  | .optionalStr => .none
  | .optionalStrList => .none

/-- The fields of an instance of a class that carries one tag. -/
def taggedFields (cls : PayloadClass) (project tag : String) : PayloadFields where
  payloadType := cls.payloadType
  project := project
  identifier := "x"
  domainTags := [tag]
  sourceRef := ""
  version := 1
  supersedes := []
  own := cls.fields.map fun spec => (spec.name, spec.blank)

/-- A payload of the class that carries one tag. -/
def taggedPayload (cls : PayloadClass) {project : String} (valid : validPart project = true)
    (tag : String) : Payload where
  toPayloadFields := taggedFields cls project tag
  valid :=
    { payloadType := cls.colonFree
      project := Text.fullMatch_word_of_lowerWord valid
      identifier := by show Text.fullMatch Text.word "x" = true; decide
      distinct := List.nodup_nil
      shaped := by simp [taggedFields]
      notItself := by simp [taggedFields] }

/-- A project that a request may name and a payload may have is an identifier. -/
theorem validPart_of_word {project : String} (pattern : projectPattern project = true)
    (word : Text.fullMatch Text.word project = true) : validPart project = true := by
  simp only [validPart, Text.fullMatch, Bool.and_eq_true, List.all_eq_true] at word ⊢
  refine ⟨word.1, fun character member => ?_⟩
  rcases mem_project_cases pattern member with lower | rfl
  · exact lower
  · exact absurd (word.2 _ member) (by decide)

/-- Every place is in a project a payload may have. -/
def WordProjects (store : Store) : Prop :=
  ∀ place value, store.lookup place = some value → ∀ project,
    place.namespaceParts[1]? = some project → Text.fullMatch Text.word project = true

theorem keptByWrite_wordProjects (writer : DeterministicWriter) (payload : Payload) :
    KeptByWrite writer payload WordProjects where
  put store version episodeMeta found words place value stored := by
    rw [lookup_insert] at stored
    split at stored
    · rename_i here
      rintro project inProject
      rw [here] at inProject
      obtain rfl := Option.some.inj inProject
      exact payload.valid.project
    · exact words place value stored
  mark store place value words found other otherValue stored := by
    rw [lookup_insert] at stored
    split at stored
    · rename_i here
      rw [here]
      exact words place value found
    · exact words other otherValue stored

/-- The typed writer files records in such projects only. -/
theorem wordProjects_of_run {writer : DeterministicWriter} {requests : List WriteRequest}
    {store : Store} (run : Run (TypedStep writer) ∅ requests store) : WordProjects store := by
  refine run.invariant WordProjects (fun _ _ stored => by cases stored) ?_
  rintro before request after words ⟨engine, faults, rfl⟩
  exact Program.runFaulty_of_sustains (sustains_write
    (keptByWrite_wordProjects writer request.payload) request.episodeMeta words) words faults

section

variable {runtime : Runtime} {engine : SearchEngine} {cls : PayloadClass} {project tag : String}

/-- A tagged payload of a registered class is accepted. -/
theorem accepts_taggedPayload (registeredClass : cls ∈ payloadRegistry)
    (valid : validPart project = true) : Accepts (taggedPayload cls valid tag) := by
  have ofClass : registered cls.payloadType = true ∧ validPart cls.payloadType = true :=
    (by decide : ∀ cls ∈ payloadRegistry, registered cls.payloadType = true ∧
      validPart cls.payloadType = true) cls registeredClass
  refine ⟨ofClass.1, fun part member => ?_⟩
  have parts : part ∈ ["fleet_memory", project, cls.payloadType] := member
  simp only [List.mem_cons, List.not_mem_nil, or_false] at parts
  rcases parts with rfl | rfl | rfl
  · decide
  · exact valid
  · exact ofClass.2

/-- The record of a payload that is written first. -/
theorem lookup_written_first (writer : DeterministicWriter) {payload : Payload}
    (none_declared : payload.supersedes = []) :
    (writer.written engine payload none ∅).lookup (writer.recordPlace payload) =
      some (storedValue payload (contentHash writer.runtime payload) 1 none) := by
  rw [written, lookup_markAll, lookup_upserted, if_pos ⟨puts_empty _ _, rfl⟩, none_declared,
    putValue, successorOf_eq_none fun place value stored _ => by cases stored]
  simp [markFound, nextVersion]

/-- The tags of a record of a tagged payload, where `json.loads` gives its dump back. -/
theorem itemDomainTags_tagged (valid : validPart project = true) {item : Item} {hash : String}
    {version : Int} {episodeMeta : Option EpisodeMeta}
    (reads : ReadsBack runtime (taggedFields cls project tag).modelDump)
    (record : item.value = storedValue (taggedPayload cls valid tag) hash version episodeMeta) :
    itemDomainTags runtime item = [.str tag] := by
  obtain ⟨parsed, read, same⟩ := reads
  have content : item.value.content =
      Json.dumps (.dict (taggedFields cls project tag).modelDump) := by
    rw [record]
    rfl
  have listed : PyDict.get parsed "domain_tags" = some (.list [.str tag]) :=
    (same "domain_tags").trans rfl
  rw [itemDomainTags, content, read]
  dsimp only
  rw [listed]

end

/-- A record that carries an extra tag is returned, where its class is asked for. -/
theorem exists_returned_of_extra {runtime : Runtime} {role project tag : String}
    {arguments : RoleArguments} {default : RoleRetrievalDefault} (own : arguments.crossRole = false)
    (pattern : projectPattern project = true) (valid : validPart project = true)
    {cls : PayloadClass} (registeredClass : cls ∈ payloadRegistry)
    (requested :
      (arguments.request SearchRequest.registeredTypes default role project).payloadTypes = [] ∨
        cls.payloadType ∈
          (arguments.request SearchRequest.registeredTypes default role project).payloadTypes)
    (reads : ReadsBack runtime (taggedFields cls project tag).modelDump)
    (extra : tag ∈ arguments.domainTags.getD []) :
    ∃ engine store items item,
      Run (TypedStep ⟨runtime, 1⟩) ∅ [⟨taggedPayload cls valid tag, none⟩] store ∧
      (search runtime (arguments.request SearchRequest.registeredTypes default role project)).run
        (storeWorld engine) store = (.returned items, store) ∧
      item ∈ items ∧ item.value.naturalKey = some (taggedPayload cls valid tag).naturalKey ∧
      itemDomainTags runtime item = [.str tag] := by
  let writer : DeterministicWriter := ⟨runtime, 1⟩
  let payload := taggedPayload cls valid tag
  let engine := prefixEngine fun _ _ _ => none
  let store := writer.written engine payload none ∅
  have accepts : Accepts payload := accepts_taggedPayload registeredClass valid
  have wrote : WriteStep writer engine ∅ ⟨payload, none⟩ store :=
    writeStep_of_accepts accepts (show 0 < forwardPage * 1 by decide)
  have run : Run (TypedStep writer) ∅ [⟨payload, none⟩] store := by
    refine Run.single ⟨engine, [], ?_⟩
    rw [Program.runFaulty_nil, show _ = _ from wrote]
  have stored : store.lookup (writer.recordPlace payload) =
      some (storedValue payload (contentHash runtime payload) 1 none) :=
    lookup_written_first writer rfl
  have simple : ∀ part ∈ ["fleet_memory", project, cls.payloadType], ∀ character ∈ part.toList,
      Like.plain character = true :=
    fun part member => PrefixEngine.plain_of_validPart (accepts.2 part member)
  have named : extractPayloadType payload.naturalKey = some cls.payloadType :=
    @extractPayloadType_key cls.payloadType project "x" cls.colonFree
      (not_mem_project pattern (by decide) (by decide)) (by decide)
  have tagged (item : Item)
      (record : item.value = storedValue payload (contentHash runtime payload) 1 none) :
      matchesDomainTags runtime item (arguments.tags role) = true := by
    have asked : tag ∈ arguments.tags role := (mem_tags own).mpr (Or.inl extra)
    rw [matchesDomainTags, if_neg (List.ne_nil_of_mem asked), List.any_eq_true]
    exact ⟨tag, asked, by simp [itemDomainTags_tagged valid reads record]⟩
  obtain ⟨items, item, ran, member⟩ := @exists_mem_run_search_of_stored runtime store
    (arguments.request SearchRequest.registeredTypes default role project) (fun _ _ _ => none)
    cls.payloadType (recordIdentity runtime payload.naturalKey) _ rfl simple stored
    (card_keys_written.trans (by decide)) rfl rfl named rfl requested tagged
  have found := (mem_of_run_search ran member).1
  have here : item.value = storedValue payload (contentHash runtime payload) 1 none := by
    rw [place_of_written_empty found] at found
    exact Option.some.inj (found.symm.trans stored)
  exact ⟨engine, store, items, item, run, ran, member, by rw [here]; rfl,
    itemDomainTags_tagged valid reads here⟩

/-- An extra tag that is not the seat's own lets rows of other seats in. -/
theorem not_confinedTo_of_extra {runtime : Runtime} {role project tag : String}
    {arguments : RoleArguments} {default : RoleRetrievalDefault} (own : arguments.crossRole = false)
    (pattern : projectPattern project = true) (valid : validPart project = true)
    (reads : ∀ cls ∈ payloadRegistry, ∀ tag,
      ReadsBack runtime (taggedFields cls project tag).modelDump)
    (extra : tag ∈ arguments.domainTags.getD []) (other : tag ≠ roleTag role) :
    ¬ConfinedTo runtime role
      (arguments.request SearchRequest.registeredTypes default role project) := by
  intro confined
  obtain ⟨cls, registeredClass, requested⟩ : ∃ cls ∈ payloadRegistry,
      (arguments.request SearchRequest.registeredTypes default role project).payloadTypes = [] ∨
        cls.payloadType ∈
          (arguments.request SearchRequest.registeredTypes default role project).payloadTypes := by
    cases types : (arguments.request SearchRequest.registeredTypes default role
        project).payloadTypes with
    | nil => exact ⟨ADRPayload, by simp [payloadRegistry], Or.inl rfl⟩
    | cons first rest =>
      have asked : first ∈ (arguments.request SearchRequest.registeredTypes default role
          project).payloadTypes := by
        rw [types]
        exact List.mem_cons_self
      obtain ⟨cls, registeredClass, rfl⟩ := List.mem_map.mp
        (List.contains_iff_mem.mp (List.mem_filter.mp asked).2)
      exact ⟨cls, registeredClass, Or.inr List.mem_cons_self⟩
  obtain ⟨engine, store, items, item, run, ran, member, -, tags⟩ := exists_returned_of_extra own
    pattern valid registeredClass requested (reads cls registeredClass tag) extra
  have carries := confined 1 _ store run engine store items ran item member
  rw [tags, List.mem_singleton] at carries
  exact other (PyValue.str.inj carries).symm

/-- A request without an opt-out is confined to the rows of its seat exactly when every extra tag is
the seat's own, or the project is none a record can be stored under. -/
theorem confinedTo_iff (runtime : Runtime) (role project : String) (arguments : RoleArguments)
    (request : SearchRequest) (own : arguments.crossRole = false)
    (built : roleScopedSearchRequest runtime SearchRequest.registeredTypes role project arguments =
      .ok request)
    (reads : ∀ cls ∈ payloadRegistry, ∀ tag,
      ReadsBack runtime (taggedFields cls project tag).modelDump) :
    ConfinedTo runtime role request ↔
      (∀ tag ∈ arguments.domainTags.getD [], tag = roleTag role) ∨ validPart project = false := by
  obtain ⟨default, known, rfl, pattern⟩ := roleScopedSearchRequest_eq_ok built
  constructor
  · intro confined
    by_contra widened
    push Not at widened
    obtain ⟨⟨tag, extra, other⟩, notInvalid⟩ := widened
    exact not_confinedTo_of_extra own pattern (by simpa using notInvalid) reads extra other confined
  · intro condition pages requests store run engine after items ran item member
    obtain ⟨stored, kept⟩ := mem_of_run_search ran member
    simp only [keeps, Bool.and_eq_true] at kept
    obtain ⟨⟨⟨inProject, -⟩, tagged⟩, -⟩ := kept
    rcases condition with ownOnly | invalid
    · change matchesDomainTags runtime item (arguments.tags role) = true at tagged
      rw [matchesDomainTags, if_neg (List.ne_nil_of_mem (roleTag_mem_tags own role)),
        List.any_eq_true] at tagged
      obtain ⟨tag, asked, matched⟩ := tagged
      obtain rfl : tag = roleTag role := ((mem_tags own).mp asked).elim (ownOnly tag) id
      obtain ⟨itemTag, listed, same⟩ := List.any_eq_true.mp matched
      cases itemTag with
      | str text =>
        obtain rfl : text = roleTag role := by simpa using same
        exact listed
      | _ => cases same
    · -- no record stands in a project that is no identifier
      rw [matchesProject, beq_iff_eq] at inProject
      have words := wordProjects_of_run run item.place item.value stored project inProject
      rw [validPart_of_word pattern words] at invalid
      cases invalid

/-! ### Two seats -/

section Sample

/-- The functions over the reader of JSON. -/
def readingRuntime : Runtime :=
  { Runtime.ofTables [] [] [] with loads := Json.load PyFloat.mk }

theorem readsTags_readingRuntime : ReadsTags readingRuntime := by
  intro tag
  obtain ⟨parsed, read, same⟩ := @readsBack_of_load readingRuntime
    [("domain_tags", .list [.str tag])] rfl (by simp) (by simpa using flat_texts [tag]) rfl
  exact ⟨_, parsed, read, (same _).trans rfl⟩

theorem instanceOf_taggedFields (cls : PayloadClass) (project tag : String) :
    (taggedFields cls project tag).InstanceOf cls where
  payloadType := rfl
  own := by
    refine List.forall₂_map_right_iff.mpr (List.forall₂_same.mpr fun spec _ => ⟨rfl, ?_⟩)
    unfold FieldSpec.Holds FieldSpec.blank
    cases spec.type with
    | str => exact ⟨"", rfl⟩
    | int => exact ⟨0, rfl⟩
    | optionalStr => exact Or.inl rfl
    | optionalStrList => exact Or.inl rfl

theorem readsBack_taggedFields : ∀ cls ∈ payloadRegistry, ∀ tag,
    ReadsBack readingRuntime (taggedFields cls "a" tag).modelDump := by
  intro cls registeredClass tag
  refine readsBack_modelDump rfl registeredClass (instanceOf_taggedFields cls "a" tag)
    ((shortIntegers_modelDump_iff _).mpr ⟨?_, fun entry member => ?_⟩)
  · show FewDigits 1
    decide +kernel
  obtain ⟨spec, -, rfl⟩ := List.mem_map.mp member
  show Json.shortIntegers spec.blank = true
  unfold FieldSpec.blank
  split
  · rfl
  · decide +kernel
  · rfl
  · rfl

/-- A coach that asks for nothing but its query reads its own rows. -/
theorem confinedTo_coach :
    ∃ request, roleScopedSearchRequest readingRuntime SearchRequest.registeredTypes "coach" "a"
        { query := some "q" } = .ok request ∧
      ConfinedTo readingRuntime "coach" request := by
  refine ⟨_, rfl, ?_⟩
  exact (confinedTo_iff readingRuntime "coach" "a" { query := some "q" } _ rfl rfl
    readsBack_taggedFields).mpr (Or.inl (by decide))

/-- A build outcome of the project that carries the tag of an area, and no seat's. -/
def areaOutcome : Payload :=
  @taggedPayload BuildOutcomePayload "a" (by decide) "area:x"

/-- A coach that narrows its search to the area reads the build outcome, which is no row of its
seat. -/
theorem coach_with_area_not_confined :
    ∃ request, roleScopedSearchRequest readingRuntime SearchRequest.registeredTypes "coach" "a"
        { query := some "q", domainTags := some ["area:x"] } = .ok request ∧
      (∃ engine store items item,
        Run (TypedStep ⟨readingRuntime, 1⟩) ∅ [⟨areaOutcome, none⟩] store ∧
        (search readingRuntime request).run (storeWorld engine) store = (.returned items, store) ∧
        item ∈ items ∧ item.value.naturalKey = some "build_outcome:a:x" ∧
        itemDomainTags readingRuntime item = [.str "area:x"]) ∧
      ¬ConfinedTo readingRuntime "coach" request := by
  refine ⟨_, rfl, ?_, ?_⟩
  · exact @exists_returned_of_extra readingRuntime "coach" "a" "area:x"
      { query := some "q", domainTags := some ["area:x"] } _ rfl (by decide) (by decide)
      BuildOutcomePayload (by simp [payloadRegistry]) (by decide)
      (readsBack_taggedFields _ (by simp [payloadRegistry]) _) (by decide)
  · exact @not_confinedTo_of_extra readingRuntime "coach" "a" "area:x"
      { query := some "q", domainTags := some ["area:x"] } _ rfl (by decide) (by decide)
      readsBack_taggedFields (by decide) (by decide)

/-- A verifier keeps to its own types, of which one is registered. -/
theorem allowlist_kept_verifier :
    ∃ request, roleScopedSearchRequest readingRuntime SearchRequest.registeredTypes "qa-verifier"
        "a" {} = .ok request ∧
      KeepsTo readingRuntime request ["live_verdict", "build_outcome"] := by
  refine ⟨_, rfl, ?_⟩
  exact (allowlist_kept_iff readingRuntime SearchRequest.registeredTypes "qa-verifier" "a" {}
    ⟨1500, ["live_verdict", "build_outcome"]⟩ _ (by decide) rfl readsTags_readingRuntime).mpr
      ⟨"build_outcome", by decide, by decide⟩

/-- A verifier that asks for verdicts alone, which are not registered, reads every type. -/
theorem allowlist_of_verdicts_not_kept :
    ∃ request, roleScopedSearchRequest readingRuntime SearchRequest.registeredTypes "qa-verifier"
        "a" { payloadTypes := some ["live_verdict"] } = .ok request ∧
      ¬KeepsTo readingRuntime request ["live_verdict"] := by
  refine ⟨_, rfl, ?_⟩
  exact @not_keepsTo_of_unregistered readingRuntime SearchRequest.registeredTypes "qa-verifier" "a"
    { payloadTypes := some ["live_verdict"] } ⟨1500, ["live_verdict", "build_outcome"]⟩
    (by decide) readsTags_readingRuntime (by decide)

end Sample

end FleetMemory
