/-
This file models the search tools of the memory service: the checks a search request
passes, the assembly of ranked results into one block within a token budget, and the two
tools over the retrieval core. What a search tool asks the store is bounded by the scopes
of its request's partitions.
-/

import FleetMemory.Doors
import FleetMemory.Payloads
import FleetMemory.Retrieval
import FleetMemory.Tools

namespace FleetMemory

open StoreProgram

/-! ### Requests -/

/-- The arguments of a search tool. -/
structure SearchArguments where
  project : String
  query : Option String := none
  payloadTypes : Option (List String) := none
  domainTags : Option (List String) := none
  tokenBudget : Option Int := none
  includeSuperseded : Bool := false

/-- `[a-zA-Z0-9_-]`. -/
def tagCharacter (character : Char) : Bool :=
  Text.word character || character == '-'

/-- `_PROJECT_PATTERN.match`: `$` also matches before a line feed at the end. -/
def projectPattern (project : String) : Bool :=
  Text.fullMatch Text.lowerWord (Text.chomp project)

/-- `_DOMAIN_TAG_PATTERN.match`. -/
def domainTagPattern (tag : String) : Bool :=
  match Text.split ':' (Text.chomp tag) with
  | [name] => Text.fullMatch tagCharacter name
  | [name, value] => Text.fullMatch tagCharacter name && Text.fullMatch tagCharacter value
  | _ => false

/-- What a validator raises, as pydantic reports it. -/
def valueErrorAt (loc reason : String) : FieldError :=
  ⟨loc, "Value error, " ++ reason⟩

/-- Texts in quotes, separated by commas. -/
def quotedList (texts : List String) : String :=
  String.intercalate ", " (texts.map fun text => "'" ++ text ++ "'")

namespace SearchRequest

/-- `validate_project_identifier`. -/
def validateProjectIdentifier (request : SearchRequest) : List FieldError :=
  if projectPattern request.project then []
  else [valueErrorAt "project" ("Project identifier '" ++ request.project ++
    "' must use underscores only (match ^[a-z0-9_]+$, no hyphens)")]

/-- `validate_payload_types`. -/
def validatePayloadTypes (request : SearchRequest) : List FieldError :=
  let unknownTypes := request.payloadTypes.filter fun payloadType => !registered payloadType
  if unknownTypes = [] then []
  else [valueErrorAt "payload_types" ("Unknown payload type(s) " ++ quotedList unknownTypes ++
    ": not found in PAYLOAD_REGISTRY. Valid types: " ++ String.intercalate ", "
      ((payloadRegistry.map PayloadClass.payloadType).mergeSort fun first second =>
        decide (first ≤ second)))]

/-- `validate_domain_tags`. -/
def validateDomainTags (request : SearchRequest) : List FieldError :=
  let malformedTags := request.domainTags.filter fun tag => !domainTagPattern tag
  if malformedTags = [] then []
  else [valueErrorAt "domain_tags" ("Malformed domain tag(s) " ++ quotedList malformedTags ++
    ": tags must contain only letters, digits, underscore, or hyphen " ++
    "(no quotes, operators, or injection characters)")]

/-- `validate_token_budget`. -/
def validateTokenBudget (request : SearchRequest) : List FieldError :=
  if request.tokenBudget < 0 then [valueErrorAt "token_budget"
    ("token_budget must not be negative, got " ++ toString request.tokenBudget)]
  else []

/-- `validate_query_or_filter_required`, which runs on a model whose fields passed. -/
def validateQueryOrFilterRequired (request : SearchRequest) : List FieldError :=
  if request.query = none ∧ request.payloadTypes = [] ∧ request.domainTags = [] then
    [valueErrorAt "" "A query or at least one filter (payload_types or domain_tags) is required"]
  else []

/-- `SearchRequest(…)`. -/
def validate (request : SearchRequest) : Except PyError SearchRequest :=
  let fieldErrors := request.validateProjectIdentifier ++ request.validatePayloadTypes ++
    request.validateDomainTags ++ request.validateTokenBudget
  let errors := if fieldErrors = [] then request.validateQueryOrFilterRequired else fieldErrors
  if errors = [] then .ok request else .error (.validation "SearchRequest" errors)

theorem validate_eq_ok {request validated : SearchRequest} (valid : request.validate = .ok validated) :
    validated = request ∧ projectPattern request.project = true := by
  rw [validate] at valid
  generalize fieldErrors_eq : request.validateProjectIdentifier ++ request.validatePayloadTypes ++
    request.validateDomainTags ++ request.validateTokenBudget = fieldErrors at valid
  cases fieldErrors with
  | nil =>
    have accepted : request.validateProjectIdentifier = [] := by
      simp only [List.append_eq_nil_iff] at fieldErrors_eq
      exact fieldErrors_eq.1.1.1
    refine ⟨?_, ?_⟩
    · rw [if_pos rfl] at valid
      split at valid
      · exact (Except.ok.inj valid).symm
      · cases valid
    · by_contra refused
      rw [validateProjectIdentifier, if_neg refused] at accepted
      cases accepted
  | cons error others =>
    simp at valid

end SearchRequest

/-- `DEFAULT_TOKEN_BUDGET`. -/
def defaultTokenBudget : Int := 2000

/-- The request the search tools build from their arguments. -/
def SearchArguments.request (arguments : SearchArguments) (requireSubstantive : Bool) :
    SearchRequest where
  project := arguments.project
  query := arguments.query
  payloadTypes := arguments.payloadTypes.getD []
  domainTags := arguments.domainTags.getD []
  tokenBudget := arguments.tokenBudget.getD defaultTokenBudget
  includeSuperseded := arguments.includeSuperseded
  requireSubstantive := requireSubstantive

/-! ### Assembly -/

variable (runtime : Runtime)

/-- `AssemblyResult`. -/
structure AssemblyResult where
  contextBlock : String
  coverageScore : ℚ
  contributingTypes : Finset String
  tokensUsed : Nat

/-- `_measure_tokens`. -/
def measureTokens (text : String) : Except PyError Nat :=
  (runtime.encode text).map List.length

/-- Add each item's content that still fits the budget to the block. -/
def packItems (tokenBudget : Int) (includedItems : List Item) (currentBlock : String) :
    List Item → Except PyError (List Item × String)
  | [] => .ok (includedItems, currentBlock)
  | item :: rest =>
    let content := item.value.content
    if content = "" then packItems tokenBudget includedItems currentBlock rest
    else do
      let candidateBlock :=
        if currentBlock = "" then content else currentBlock ++ "\n\n" ++ content
      let candidateTokens ← measureTokens runtime candidateBlock
      if (candidateTokens : Int) ≤ tokenBudget then
        packItems tokenBudget (includedItems ++ [item]) candidateBlock rest
      else packItems tokenBudget includedItems currentBlock rest

/-- The payload types of the included items, those that are not empty. -/
def contributingTypes (includedItems : List Item) : Finset String :=
  (includedItems.filterMap fun item =>
    (extractPayloadType (item.value.naturalKey.getD "")).filter fun name => name ≠ "").toFinset

/-- `assemble_context`. -/
def assembleContext (rankedResults : List Item) (tokenBudget : Int) :
    Except PyError AssemblyResult :=
  if tokenBudget = 0 ∨ rankedResults = [] then .ok ⟨"", 0, ∅, 0⟩
  else do
    let (includedItems, currentBlock) ← packItems runtime tokenBudget [] "" rankedResults
    let tokensUsed ← if currentBlock = "" then pure 0 else measureTokens runtime currentBlock
    let coverageScore : ℚ := if tokenBudget > 0 then tokensUsed / tokenBudget else 0
    return ⟨currentBlock, coverageScore, contributingTypes includedItems, tokensUsed⟩

/-! ### The tools -/

/-- `memory_search`. -/
def memorySearch (arguments : SearchArguments) (allowedProjects : Option (List String)) :
    StoreM (ToolResult AssemblyResult) :=
  toolSafe runtime do
    lift (checkDoorProject arguments.project allowedProjects)
    let request ← lift (arguments.request false).validate
    let results ← search runtime request
    lift (assembleContext runtime results request.tokenBudget)

/-- One entry of what `memory_search_items` returns. -/
structure SearchedItem where
  naturalKey : Option String
  content : String
  score : Option ℚ
deriving DecidableEq, Repr

/-- `memory_search_items`. -/
def memorySearchItems (arguments : SearchArguments) (requireSubstantive : Bool)
    (allowedProjects : Option (List String)) : StoreM (ToolResult (List SearchedItem)) :=
  toolSafe runtime do
    lift (checkDoorProject arguments.project allowedProjects)
    let request ← lift (arguments.request requireSubstantive).validate
    let results ← search runtime request
    return results.map fun item => ⟨item.value.naturalKey, item.value.content, item.score⟩

/-! ### What the tools ask the store -/

/-- The call searches one of the request's partitions. -/
def AsksPartition (request : SearchRequest) : Call Place StoredValue SearchQuery → Prop
  | .asearch query => ∃ payloadType ∈ partitions request,
      query.scope = partitionScope request payloadType
  | _ => False

/-- The call searches the partition of one type. -/
def AsksType (request : SearchRequest) (payloadType : Option String) :
    Call Place StoredValue SearchQuery → Prop
  | .asearch query => query.scope = partitionScope request payloadType
  | _ => False

variable {runtime} {request : SearchRequest}

theorem uses_lift {Result : Type} {allowed : Call Place StoredValue SearchQuery → Prop}
    (computed : Except PyError Result) : (lift computed).Uses allowed := by
  cases computed <;> trivial

theorem uses_toolSafe {Value : Type} {allowed : Call Place StoredValue SearchQuery → Prop}
    {tool : StoreM Value} (uses : tool.Uses allowed) : (toolSafe runtime tool).Uses allowed :=
  Program.uses_tryCatch (Program.uses_bind uses fun _ => trivial) fun _ => trivial

theorem uses_searchLoop (payloadType : Option String) (pages : Nat) (accepted : List Item)
    (offset : Nat) (exhausted : Bool) :
    (searchLoop runtime request payloadType pages accepted offset exhausted).Uses
      (AsksType request payloadType) := by
  have bounded (accepted : List Item) :
      (scanBoundReached request accepted).Uses (AsksType request payloadType) := by
    unfold scanBoundReached
    split
    · exact uses_lift _
    · exact Program.uses_pure _
  induction pages generalizing accepted offset exhausted with
  | zero => exact Program.uses_ofOutcome _
  | succ pages inductionHypothesis =>
    rw [searchLoop]
    split
    · split
      · exact bounded accepted
      · refine Program.uses_bind (Program.uses_search rfl) fun fetched => ?_
        dsimp only
        split
        · exact bounded _
        · exact inductionHypothesis _ _ _
    · exact Program.uses_pure _

theorem uses_searchPartitions (types : List (Option String))
    (within : ∀ payloadType ∈ types, payloadType ∈ partitions request) :
    (searchPartitions runtime request types).Uses (AsksPartition request) := by
  induction types with
  | nil => exact Program.uses_pure _
  | cons payloadType rest inductionHypothesis =>
    have here := within payloadType List.mem_cons_self
    have following := inductionHypothesis fun other member =>
      within other (List.mem_cons_of_mem _ member)
    refine Program.uses_bind ?_ fun _ => Program.uses_bind following fun _ => Program.uses_pure _
    refine Program.uses_mono ?_ (uses_searchLoop payloadType _ _ _ _)
    rintro (place | query | ⟨place, value⟩) asks
    · exact asks.elim
    · exact ⟨payloadType, here, asks⟩
    · exact asks.elim

/-- A search asks the store for the partitions of its request only. -/
theorem uses_search : (search runtime request).Uses (AsksPartition request) :=
  Program.uses_bind (uses_searchPartitions _ fun _ member => member) fun _ => Program.uses_pure _

end FleetMemory
