/-
This file models the backward-edge payloads: six payload classes that are written but not
registered, with nested models, maps, floats and timestamps among their fields. It says what the
relay and the writer do with an instance once its class has an entry in the registry. The publisher
renders an instance in JSON mode; the writer renders it in Python mode, where a timestamp is a
`datetime`, which `json.dumps` refuses.
-/

import FleetMemory.Envelopes
import FleetMemory.JsonText

namespace FleetMemory

open StoreProgram DeterministicWriter RelayService

/-! ### Field types -/

/-- A datetime, as the text a model's JSON dump has for it. -/
structure Timestamp where
  text : String
deriving DecidableEq, Repr

/-- What an own field holds: a value of a kind JSON has, or a datetime. -/
inductive OwnValue where
  | native (value : PyValue)
  | datetime (value : Timestamp)
deriving Repr

/-- A plain model inside a payload. -/
structure InlineModel where
  className : String
  fields : List FieldSpec
deriving DecidableEq

/-- `class AssumptionDisposition`. -/
def AssumptionDisposition : InlineModel where
  className := "AssumptionDisposition"
  fields := [⟨"assumption_id", .str⟩, ⟨"text", .optionalStr⟩, ⟨"confidence", .str⟩,
    ⟨"disposition", .str⟩, ⟨"edit_delta", .optionalStr⟩, ⟨"edit_delta_ref", .optionalStr⟩,
    ⟨"notes", .optionalStr⟩]

/-- `class AssertionResult`. -/
def AssertionResult : InlineModel where
  className := "AssertionResult"
  fields := [⟨"id", .str⟩, ⟨"gate_id", .str⟩, ⟨"status", .str⟩, ⟨"disposition", .optionalStr⟩,
    ⟨"evidence_ref", .optionalStr⟩]

/-- The annotation of an own field: one the registered classes have, or one of the further kinds. -/
inductive EdgeFieldType where
  | shared (type : FieldType)
  | strList
  | optionalInt
  | bool (default : Bool)
  | optionalStrMap
  | floatMap
  | models (model : InlineModel)
  | datetime
  | optionalDatetime
deriving DecidableEq

/-- An own field of a backward-edge class. -/
structure EdgeFieldSpec where
  name : String
  type : EdgeFieldType
deriving DecidableEq

/-! ### Field checks -/

/-- The conversions pydantic makes for the further kinds, or the messages of its refusals. -/
structure Conversions where
  laxFloat : PyValue → Except String PyFloat
  laxBool : PyValue → Except String Bool
  laxDatetime : PyValue → Except String Timestamp

/-- Check a value by a conversion. -/
def converted {α : Type} (convert : PyValue → Except String α) (name : String) (value : PyValue) :
    Checked α :=
  (convert value).mapError fun msg => [⟨name, msg⟩]

/-- An optional field: `None`, or a value that is checked. -/
def optionalValue {α : Type} (none? : α) (check : PyValue → Checked α) : PyValue → Checked α
  | .none => .ok none?
  | value => check value

def mapEntries {α : Type} (name : String) (check : String → PyValue → Checked α) :
    PyDict → Checked (List (String × α))
  | [] => .ok []
  | (key, value) :: rest =>
    (Checked.both (check (name ++ "." ++ key) value) (mapEntries name check rest)).map fun parts =>
      (key, parts.1) :: parts.2

/-- A `dict[str, …]` field. A dict is kept in the order of its keys: nothing here depends on the
order it was built in. -/
def mapValue {α : Type} (name : String) (check : String → PyValue → Checked α) :
    PyValue → Checked (List (String × α))
  | .dict entries => (mapEntries name check entries).map Json.sortByKey
  | _ => .error [⟨name, "Input should be a valid dictionary"⟩]

/-- An instance of an inline model, with the errors of its fields under its place. -/
def InlineModel.check (runtime : Runtime) (model : InlineModel) (place : String) :
    PyValue → Checked PyDict
  | .dict entries => (checkFields.ownFields runtime entries model.fields).mapError
      (List.map fun error => ⟨place ++ "." ++ error.loc, error.msg⟩)
  | _ => .error [⟨place, "Input should be a valid dictionary or instance of " ++ model.className⟩]

def modelItems (runtime : Runtime) (model : InlineModel) (name : String) :
    Nat → List PyValue → Checked (List PyDict)
  | _, [] => .ok []
  | index, item :: rest =>
    (Checked.both (model.check runtime (name ++ "." ++ toString index) item)
      (modelItems runtime model name (index + 1) rest)).map fun parts => parts.1 :: parts.2

/-- A `list[…]` field of inline models. -/
def modelListValue (runtime : Runtime) (model : InlineModel) (name : String) :
    PyValue → Checked (List PyDict)
  | .list items => modelItems runtime model name 0 items
  | _ => .error [⟨name, "Input should be a valid list"⟩]

/-- A dict of values. -/
def dictOf {α : Type} (value : α → PyValue) (entries : List (String × α)) : PyValue :=
  .dict (entries.map fun entry => (entry.1, value entry.2))

section

variable (runtime : Runtime) (conversions : Conversions)

/-- Check the field in the data. -/
def EdgeFieldSpec.checkIn (spec : EdgeFieldSpec) (data : PyDict) : Checked OwnValue :=
  match spec.type with
  | .shared type => (FieldSpec.checkIn runtime ⟨spec.name, type⟩ data).map .native
  | .strList => (field spec.name none (strListValue spec.name) data).map fun texts =>
      .native (.list (texts.map .str))
  | .optionalInt => (field spec.name (some .none)
      (optionalValue .none fun value => (intValue runtime spec.name value).map .int) data).map .native
  | .bool default => (field spec.name (some default)
      (converted conversions.laxBool spec.name) data).map fun value => .native (.bool value)
  | .optionalStrMap => (field spec.name (some .none)
      (optionalValue .none fun value => (mapValue spec.name strValue value).map (dictOf .str))
      data).map .native
  | .floatMap => (field spec.name none
      (mapValue spec.name (converted conversions.laxFloat)) data).map fun entries =>
        .native (dictOf .float entries)
  | .models model => (field spec.name none
      (modelListValue runtime model spec.name) data).map fun rows => .native (.list (rows.map .dict))
  | .datetime => (field spec.name none
      (converted conversions.laxDatetime spec.name) data).map .datetime
  | .optionalDatetime => field spec.name (some (.native .none))
      (optionalValue (.native .none) fun value =>
        (converted conversions.laxDatetime spec.name value).map .datetime) data

def edgeFields (data : PyDict) : List EdgeFieldSpec → Checked (List (String × OwnValue))
  | [] => .ok []
  | spec :: rest =>
    (Checked.both (spec.checkIn runtime conversions data) (edgeFields data rest)).map
      fun (value, others) => (spec.name, value) :: others

end

/-! ### Instances -/

/-- The fields of an instance: those of `BasePayload`, and the class's own. -/
structure EdgeFields where
  base : PayloadFields
  own : List (String × OwnValue)
deriving Repr

/-- The value in a dump of mode `"json"`. -/
def OwnValue.json : OwnValue → PyValue
  | native value => value
  | datetime value => .str value.text

/-- The value in a dump of mode `"python"`, if `json.dumps` renders it. -/
def OwnValue.python? : OwnValue → Option PyValue
  | native value => some value
  | datetime _ => none

namespace EdgeFields

/-- `natural_key`. -/
def naturalKey (fields : EdgeFields) : String :=
  fields.base.naturalKey

/-- The own fields as `model_dump(mode="json")` has them. -/
def jsonOwn (fields : EdgeFields) : PyDict :=
  fields.own.map fun entry => (entry.1, entry.2.json)

/-- The own fields as `model_dump()` has them, if `json.dumps` renders them all. -/
def pythonOwn? (fields : EdgeFields) : Option PyDict :=
  fields.own.mapM fun (entry : String × OwnValue) =>
    entry.2.python?.map fun value => (entry.1, value)

/-- An own field that is no datetime; `None` when the class has no such field. -/
def get (fields : EdgeFields) (name : String) : PyValue :=
  (PyDict.get fields.jsonOwn name).getD .none

end EdgeFields

/-! ### Validators -/

/-- A model validator: the text of the `ValueError` it raises, if it raises one. -/
abbrev EdgeValidator := Runtime → EdgeFields → Option String

/-- The characters of a seat in `_ROLE_TAG_PATTERN`. -/
def seatCharacter (character : Char) : Bool :=
  Text.word character || character == '-'

/-- `_ROLE_TAG_PATTERN.match(tag)`. The end it looks for may be followed by a line feed. -/
def isRoleTag (tag : String) : Bool :=
  match List.dropPrefix? tag.toList "role:".toList with
  | some seat => Text.fullMatch seatCharacter (String.ofList seat) ||
      seat.getLast? == some '\n' && Text.fullMatch seatCharacter (String.ofList seat.dropLast)
  | none => false

/-- `_has_role_tag`. -/
def hasRoleTag (domainTags : List String) : Bool :=
  domainTags.any isRoleTag

/-- `RoleAttributedPayload._require_role_tag`, of a class of the given name. -/
def requireRoleTag (className : String) : EdgeValidator := fun runtime fields =>
  if hasRoleTag fields.base.domainTags then none
  else some (className ++ " is role-attributable (D-WS4-6) and requires at least one " ++
    "'role:<seat>' domain tag (e.g. 'role:product-owner'); got domain_tags=" ++
    runtime.reprList fields.base.domainTags)

/-- `f"{value}"` of an integer field, and the length of a list field. -/
def integerOf : PyValue → Int
  | .int value => value
  | _ => 0

def itemsOf : PyValue → List PyValue
  | .list items => items
  | _ => []

/-- `self.name == text`. -/
def isText (text : String) : PyValue → Bool
  | .str other => other == text
  | _ => false

def isNone : PyValue → Bool
  | .none => true
  | _ => false

/-- `assumption.disposition != "accepted"`. -/
def notAccepted : PyValue → Bool
  | .dict entries => !isText "accepted" ((PyDict.get entries "disposition").getD .none)
  | _ => true

/-- `PlanningOutcomePayload._validate_assumptions`. -/
def validateAssumptions : EdgeValidator := fun _ fields =>
  let assumptions := itemsOf (fields.get "assumptions")
  let assumptionCount := integerOf (fields.get "assumption_count")
  if (assumptions.length : Int) ≠ assumptionCount then
    some ("assumption_count=" ++ toString assumptionCount ++ " must equal len(assumptions)=" ++
      toString assumptions.length ++ " (§4.1)")
  else if assumptions.any notAccepted && !(fields.get "trace_ref").truthy then
    some ("trace_ref is required whenever any assumption disposition != 'accepted' " ++
      "(§4.1): the preference-pair base is otherwise unrecoverable")
  else none

/-- The text of a string field. -/
def textOf : PyValue → String
  | .str text => text
  | _ => ""

/-- `ApprovalDecisionPayload._validate_gate`. -/
def validateGate : EdgeValidator := fun runtime fields =>
  let decision := textOf (fields.get "decision")
  if !((fields.get "correlation_id").truthy || (fields.get "feat_id").truthy ||
      (fields.get "task_id").truthy) then
    some ("approval_decision requires at least one of " ++
      "\x7bcorrelation_id, feat_id, task_id\x7d (§4.2 join obligation)")
  else if decision ∈ ["approved", "rejected", "revise"] ∧ !(fields.get "approver").truthy then
    some ("approver is required when decision=" ++ runtime.repr decision ++
      " (LPA-19: the observed responder, §4.2)")
  else if decision ∈ ["timed_out", "escalated"] ∧ !isNone (fields.get "approver") then
    some ("approver MUST be None when decision=" ++ runtime.repr decision ++ " — there is no " ++
      "observed responder, and echoing config is forbidden (LPA-19, §4.2)")
  else if isText "planning_assumptions" (fields.get "gate_kind") && isNone (fields.get "cycle") then
    some ("cycle is required for gate_kind='planning_assumptions' (§4.2): " ++
      "the cyclic gate would otherwise collapse decisions onto one natural key")
  else none

/-! ### The classes -/

/-- A backward-edge class: its type name, which has no colon, its own fields, and its validators, in
the order they run. -/
structure EdgeClass where
  className : String
  payloadType : String
  fields : List EdgeFieldSpec
  validators : List EdgeValidator
  colonFree : ':' ∉ payloadType.toList := by decide

/-- `class PlanningOutcomePayload`. -/
def PlanningOutcomePayload : EdgeClass where
  className := "PlanningOutcomePayload"
  payloadType := "planning_outcome"
  fields := [⟨"correlation_id", .shared .str⟩, ⟨"feat_id", .shared .optionalStr⟩,
    ⟨"originator", .shared .str⟩, ⟨"mode", .shared .str⟩, ⟨"terminal_state", .shared .str⟩,
    ⟨"assumption_count", .shared .int⟩, ⟨"assumptions", .models AssumptionDisposition⟩,
    ⟨"proposal_refs", .shared .optionalStrList⟩, ⟨"spec_ref", .shared .optionalStr⟩,
    ⟨"approval_cycles_used", .optionalInt⟩, ⟨"started_at", .datetime⟩,
    ⟨"duration_seconds", .shared .int⟩, ⟨"trace_ref", .shared .optionalStr⟩]
  validators := [requireRoleTag "PlanningOutcomePayload", validateAssumptions]

/-- `class ApprovalDecisionPayload`. -/
def ApprovalDecisionPayload : EdgeClass where
  className := "ApprovalDecisionPayload"
  payloadType := "approval_decision"
  fields := [⟨"correlation_id", .shared .optionalStr⟩, ⟨"gate_id", .shared .str⟩,
    ⟨"gate_kind", .shared .str⟩, ⟨"approver", .shared .optionalStr⟩, ⟨"decision", .shared .str⟩,
    ⟨"latency_seconds", .shared .int⟩, ⟨"cycle", .optionalInt⟩,
    ⟨"escalated_to", .shared .optionalStr⟩, ⟨"task_id", .shared .optionalStr⟩,
    ⟨"feat_id", .shared .optionalStr⟩, ⟨"request_ref", .shared .optionalStr⟩]
  validators := [validateGate]

/-- `class DeployRecordPayload`. -/
def DeployRecordPayload : EdgeClass where
  className := "DeployRecordPayload"
  payloadType := "deploy_record"
  fields := [⟨"correlation_id", .shared .str⟩, ⟨"feat_id", .shared .optionalStr⟩,
    ⟨"task_id", .shared .optionalStr⟩, ⟨"deploy_run_id", .shared .str⟩, ⟨"env_id", .shared .str⟩,
    ⟨"status", .shared .str⟩, ⟨"artifact_digest", .shared .optionalStr⟩,
    ⟨"image_digests", .optionalStrMap⟩, ⟨"deploy_record_ref", .shared .str⟩,
    ⟨"deploy_profile_ref", .shared .optionalStr⟩, ⟨"runbook_ref", .shared .optionalStr⟩,
    ⟨"hosts", .shared .optionalStrList⟩, ⟨"reservation_resource", .shared .optionalStr⟩,
    ⟨"failed_step", .shared .optionalStr⟩, ⟨"duration_seconds", .optionalInt⟩]
  validators := []

/-- `class LiveVerdictPayload`. -/
def LiveVerdictPayload : EdgeClass where
  className := "LiveVerdictPayload"
  payloadType := "live_verdict"
  fields := [⟨"correlation_id", .shared .str⟩, ⟨"feat_id", .shared .optionalStr⟩,
    ⟨"task_id", .shared .optionalStr⟩, ⟨"run_id", .shared .str⟩, ⟨"env_id", .shared .str⟩,
    ⟨"verdict", .shared .str⟩, ⟨"gate_ids", .strList⟩, ⟨"assertions", .models AssertionResult⟩,
    ⟨"evidence_index_ref", .shared .str⟩, ⟨"app_url", .shared .optionalStr⟩,
    ⟨"attempt", .shared .int⟩, ⟨"leak_sweep_findings", .optionalInt⟩]
  validators := []

/-- `class GradingOutcomePayload`. -/
def GradingOutcomePayload : EdgeClass where
  className := "GradingOutcomePayload"
  payloadType := "grading_outcome"
  fields := [⟨"suite_id", .shared .str⟩, ⟨"suite_frozen_sha", .shared .str⟩,
    ⟨"model_id", .shared .str⟩, ⟨"checkpoint_id", .shared .str⟩,
    ⟨"dataset_sha", .shared .optionalStr⟩, ⟨"adapter_ref", .shared .optionalStr⟩,
    ⟨"gguf_digest", .shared .optionalStr⟩, ⟨"llama_swap_entry", .shared .optionalStr⟩,
    ⟨"per_criterion_scores", .floatMap⟩, ⟨"verdict", .shared .str⟩,
    ⟨"pre_registered_disposition_ref", .shared .str⟩, ⟨"rollout_count", .optionalInt⟩,
    ⟨"voided", .bool false⟩, ⟨"voided_reason", .shared .optionalStr⟩]
  validators := [requireRoleTag "GradingOutcomePayload"]

/-- `class SpecSurvivalPayload`. -/
def SpecSurvivalPayload : EdgeClass where
  className := "SpecSurvivalPayload"
  payloadType := "spec_survival"
  fields := [⟨"spec_id", .shared .str⟩, ⟨"correlation_id", .shared .str⟩,
    ⟨"survival_state", .shared .str⟩, ⟨"spec_ref", .shared .str⟩, ⟨"planned_at", .datetime⟩,
    ⟨"build_status", .shared .optionalStr⟩, ⟨"build_outcome_ref", .shared .optionalStr⟩,
    ⟨"built_at", .optionalDatetime⟩, ⟨"acceptance_verdict", .shared .optionalStr⟩,
    ⟨"live_verdict_ref", .shared .optionalStr⟩, ⟨"accepted_at", .optionalDatetime⟩,
    ⟨"edges_present", .strList⟩]
  validators := [requireRoleTag "SpecSurvivalPayload"]

/-- `BACKWARD_EDGE_PAYLOADS`. -/
def backwardEdgePayloads : List EdgeClass :=
  [PlanningOutcomePayload, ApprovalDecisionPayload, DeployRecordPayload, LiveVerdictPayload,
    GradingOutcomePayload, SpecSurvivalPayload]

namespace EdgeClass

variable (runtime : Runtime) (conversions : Conversions) (cls : EdgeClass)

/-- The class as `BasePayload` sees it: without its own fields. -/
def baseClass : PayloadClass where
  className := cls.className
  payloadType := cls.payloadType
  fields := []
  colonFree := cls.colonFree

/-- The text of the `ValueError` the first of its validators raises, if one raises. -/
def refusal (fields : EdgeFields) : Option String :=
  cls.validators.findSome? fun validator => validator runtime fields

/-- Check the fields, and then the model as a whole. -/
def checkFields (data : PyDict) : Checked EdgeFields := do
  let (base, own) ← Checked.both (FleetMemory.checkFields runtime cls.baseClass data)
    (edgeFields runtime conversions data cls.fields)
  match cls.refusal runtime { base, own } with
  | none => .ok { base, own }
  | some text => .error [⟨"", "Value error, " ++ text⟩]

/-- `BasePayload.__init__(**data)`. -/
def initFields (data : PyDict) : Except PyError EdgeFields := do
  raiseIf (data.get "self").isSome
    (.typeError "BasePayload.__init__() got multiple values for argument 'self'")
  validateIdentifierIn data "project"
  validateIdentifierIn data "identifier"
  let normalized ← normalizeSupersedes data
  let fields ← (cls.checkFields runtime conversions normalized).mapError (.validation cls.className)
  raiseIf (fields.naturalKey ∈ fields.base.supersedes)
    (.supersessionValidation ("Payload cannot supersede itself: '" ++ fields.naturalKey ++
      "' appears in supersedes list") (some fields.naturalKey))
  return fields

end EdgeClass

/-! ### Payloads -/

section

variable {runtime : Runtime} {conversions : Conversions} {cls : EdgeClass} {data : PyDict}
  {fields : EdgeFields}

theorem EdgeClass.checkFields_eq_ok
    (checked : cls.checkFields runtime conversions data = .ok fields) :
    FleetMemory.checkFields runtime cls.baseClass data = .ok fields.base ∧
      edgeFields runtime conversions data cls.fields = .ok fields.own ∧
        cls.refusal runtime fields = none := by
  obtain ⟨⟨base, own⟩, parts, accepted⟩ := except_bind_eq_ok.mp checked
  obtain ⟨baseChecked, ownChecked⟩ := Checked.both_eq_ok.mp parts
  dsimp only at accepted
  split at accepted
  · rename_i accepts
    obtain rfl := Except.ok.inj accepted
    exact ⟨baseChecked, ownChecked, accepts⟩
  · cases accepted

theorem EdgeClass.checkFields_of_accepted
    (base : FleetMemory.checkFields runtime cls.baseClass data = .ok fields.base)
    (own : edgeFields runtime conversions data cls.fields = .ok fields.own)
    (accepted : cls.refusal runtime fields = none) :
    cls.checkFields runtime conversions data = .ok fields := by
  have both : Checked.both (.ok fields.base) (.ok fields.own) = .ok (fields.base, fields.own) := rfl
  rw [EdgeClass.checkFields, base, own, both, except_ok_bind]
  dsimp only
  rw [accepted]

/-- What passed a construction: the checks of the model, in data whose other fields are the given
ones, and those made before and after them. -/
theorem EdgeClass.initFields_eq_ok (built : cls.initFields runtime conversions data = .ok fields) :
    fields.base.Valid ∧ ∃ normalized, normalizeSupersedes data = .ok normalized ∧
      cls.checkFields runtime conversions normalized = .ok fields := by
  unfold EdgeClass.initFields at built
  obtain ⟨_, _, built⟩ := except_bind_eq_ok.mp built
  obtain ⟨_, projectChecked, built⟩ := except_bind_eq_ok.mp built
  obtain ⟨_, identifierChecked, built⟩ := except_bind_eq_ok.mp built
  obtain ⟨normalized, done, built⟩ := except_bind_eq_ok.mp built
  obtain ⟨checkedFields, checked, built⟩ := except_bind_eq_ok.mp built
  obtain ⟨_, itself, built⟩ := except_bind_eq_ok.mp built
  obtain rfl : checkedFields = fields := Except.ok.inj built
  have passed := except_mapError_eq_ok.mp checked
  exact ⟨valid_of_checked projectChecked identifierChecked done (checkFields_eq_ok passed).1
    (raiseIf_eq_ok.mp itself), normalized, done, passed⟩

end

/-- An instance of a backward-edge class: fields that passed the checks of `BasePayload`. -/
@[ext]
structure EdgePayload extends EdgeFields where
  valid : base.Valid

/-- `payload_model(**data)`. -/
def EdgeClass.init (runtime : Runtime) (conversions : Conversions) (cls : EdgeClass)
    (data : PyDict) : Except PyError EdgePayload :=
  match built : cls.initFields runtime conversions data with
  | .ok fields => .ok { toEdgeFields := fields, valid := (EdgeClass.initFields_eq_ok built).1 }
  | .error error => .error error

namespace EdgePayload

variable (payload : EdgePayload)

/-- The payload a dump renders, with the own fields as the dump has them. -/
def rendered (own : PyDict) : Payload where
  toPayloadFields := { payload.base with own }
  valid := ⟨payload.valid.payloadType, payload.valid.project, payload.valid.identifier,
    payload.valid.distinct, payload.valid.shaped, payload.valid.notItself⟩

/-- The payload as `model_dump(mode="json")` renders it. -/
def json : Payload :=
  payload.rendered payload.jsonOwn

/-- The payload as `model_dump()` renders it, if `json.dumps` takes the dump. -/
def python? : Option Payload :=
  payload.pythonOwn?.map payload.rendered

end EdgePayload

/-! ### With the class in the registry -/

/-- `json.dumps` of a dump that holds a datetime. -/
def notSerializable : PyError :=
  .typeError "Object of type datetime is not JSON serializable"

/-- `write`, with the class in the registry. The content hash is the first to render the payload. -/
def DeterministicWriter.writeEdge (writer : DeterministicWriter) (cls : EdgeClass)
    (payload : EdgePayload) (episodeMeta : Option EpisodeMeta) : StoreM Unit := do
  lift (raiseIf (payload.base.payloadType ≠ cls.payloadType ∧
      registered payload.base.payloadType = false)
    (.valueError ("Payload type '" ++ payload.base.payloadType ++ "' is not a recognized payload " ++
      "type. Only registered BasePayload subclasses can be written.")))
  lift (validateNamespace (recordNamespace payload.json))
  match payload.python? with
  | some rendered => writer.upsert rendered episodeMeta
  | none => lift (.error notSerializable)

namespace RelayService

variable (service : RelayService) (conversions : Conversions) (cls : EdgeClass)

/-- `payload_model(**json.loads(body))`. -/
def edgeOf (body : String) : Except PyError EdgePayload := do
  let payloadDict ← service.parseBody body
  match payloadDict.entries? with
  | some entries => cls.init service.runtime conversions entries
  | none => .error (.typeError ("fleet_memory.payloads.backward_edge." ++ cls.className ++
      "() argument after ** must be a mapping, not " ++ payloadDict.typeName))

/-- The routing of `ingest`, with the class in the registry: an episode of its type is written, and
any other goes where it went before. -/
def routeWith (episode : MemoryEpisodeV1) : StoreM Unit :=
  if episode.contentFormat = "json" ∧ episode.payloadType = some cls.payloadType then do
    let payload ← lift (service.edgeOf conversions cls episode.body)
    service.writer.writeEdge cls payload (some (episodeMetaOf episode))
  else service.route episode

/-- `ingest`, with the class in the registry. -/
def ingestWith (episode : MemoryEpisodeV1) : StoreM Unit :=
  Program.tryCatch (service.routeWith conversions cls episode) fun error =>
    lift (.error (service.ingestError error))

end RelayService

end FleetMemory
