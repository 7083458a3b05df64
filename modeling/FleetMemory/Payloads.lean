/-
This file models the typed payloads: the field checks of the payload classes, the checks
a payload's construction makes before and after them, and the registry of types. A
`Payload` is a value that passed every check, so what the checks promise holds of every
payload the rest of the code handles.
-/

import FleetMemory.Errors

namespace FleetMemory

/-! ### Field checks -/

/-- A value, or all the errors found, in the order of the fields. -/
abbrev Checked (α : Type) := Except (List FieldError) α

namespace Checked

/-- Check two fields; the errors of both are reported. -/
def both {α β : Type} : Checked α → Checked β → Checked (α × β)
  | .ok first, .ok second => .ok (first, second)
  | .error errors, .ok _ => .error errors
  | .ok _, .error errors => .error errors
  | .error errors, .error others => .error (errors ++ others)

theorem both_eq_ok {α β : Type} {first : Checked α} {second : Checked β} {values : α × β} :
    both first second = .ok values ↔ first = .ok values.1 ∧ second = .ok values.2 := by
  obtain ⟨one, two⟩ := values
  cases first <;> cases second <;> simp [both]

end Checked

/-- A `str` field. -/
def strValue (name : String) : PyValue → Checked String
  | .str text => .ok text
  | _ => .error [⟨name, "Input should be a valid string"⟩]

/-- An `int` field. -/
def intValue (runtime : Runtime) (name : String) (value : PyValue) : Checked Int :=
  match runtime.laxInt value with
  | .ok number => .ok number
  | .error msg => .error [⟨name, msg⟩]

def strItems (name : String) : List PyValue → Checked (List String)
  | [] => .ok []
  | item :: rest =>
    (Checked.both (strValue name item) (strItems name rest)).map fun parts => parts.1 :: parts.2

/-- A `list[str]` field. -/
def strListValue (name : String) : PyValue → Checked (List String)
  | .list items => strItems name items
  | _ => .error [⟨name, "Input should be a valid list"⟩]

/-- A field of a model: its value in the data, or its default, or an error when it has none. -/
def field {α : Type} (name : String) (default? : Option α) (check : PyValue → Checked α)
    (data : PyDict) : Checked α :=
  match data.get name with
  | some value => check value
  | none =>
    match default? with
    | some value => .ok value
    | none => .error [⟨name, "Field required"⟩]

theorem strValue_eq_ok {name : String} {value : PyValue} {text : String}
    (checked : strValue name value = .ok text) : value = .str text := by
  cases value with
  | str other => simpa [strValue] using checked
  | _ => simp [strValue] at checked

theorem strItems_eq_ok {name : String} {items : List PyValue} {texts : List String}
    (checked : strItems name items = .ok texts) : items = texts.map .str := by
  induction items generalizing texts with
  | nil =>
    obtain rfl : [] = texts := by simpa [strItems] using checked
    rfl
  | cons item rest inductionHypothesis =>
    obtain ⟨⟨text, others⟩, parts, rfl⟩ := except_map_eq_ok.mp checked
    obtain ⟨head, tail⟩ := Checked.both_eq_ok.mp parts
    rw [strValue_eq_ok head, inductionHypothesis tail]
    rfl

theorem strListValue_eq_ok {name : String} {value : PyValue} {texts : List String}
    (checked : strListValue name value = .ok texts) : value = .list (texts.map .str) := by
  cases value with
  | list items => rw [strItems_eq_ok checked]
  | _ => simp [strListValue] at checked

/-- A required field that passed is in the data and passed its check. -/
theorem field_required {α : Type} {name : String} {check : PyValue → Checked α} {data : PyDict}
    {result : α} (checked : field name none check data = .ok result) :
    ∃ value, data.get name = some value ∧ check value = .ok result := by
  unfold field at checked
  cases found : data.get name with
  | none => simp [found] at checked
  | some value => exact ⟨value, rfl, by simpa [found] using checked⟩

/-- A field with a default that passed has its default or passed its check. -/
theorem field_default {α : Type} {name : String} {default result : α}
    {check : PyValue → Checked α} {data : PyDict}
    (checked : field name (some default) check data = .ok result) :
    (data.get name = none ∧ result = default) ∨
      ∃ value, data.get name = some value ∧ check value = .ok result := by
  unfold field at checked
  cases found : data.get name with
  | none =>
    left
    rw [found] at checked
    exact ⟨rfl, (Except.ok.inj checked).symm⟩
  | some value => exact Or.inr ⟨value, rfl, by simpa [found] using checked⟩

/-! ### Payload classes -/

/-- The annotation of a payload class's own field. -/
inductive FieldType where
  | str
  | int
  | optionalStr
  | optionalStrList
deriving DecidableEq, Repr

/-- A payload class's own field: `name: type`, with `= None` when it is optional. -/
structure FieldSpec where
  name : String
  type : FieldType
deriving DecidableEq, Repr

namespace FieldSpec

/-- Check the field in the data. -/
def checkIn (runtime : Runtime) (spec : FieldSpec) (data : PyDict) : Checked PyValue :=
  match spec.type with
  | .str => (field spec.name none (strValue spec.name) data).map .str
  | .int => (field spec.name none (intValue runtime spec.name) data).map .int
  | .optionalStr => field spec.name (some .none)
      (fun
        | .none => .ok .none
        | value => (strValue spec.name value).map .str) data
  | .optionalStrList => field spec.name (some .none)
      (fun
        | .none => .ok .none
        | value => (strListValue spec.name value).map fun texts => .list (texts.map .str)) data

end FieldSpec

/-- A concrete payload class: its type name, which has no colon, and its own fields. -/
structure PayloadClass where
  className : String
  payloadType : String
  fields : List FieldSpec
  colonFree : ':' ∉ payloadType.toList := by decide

/-- `class ADRPayload`. -/
def ADRPayload : PayloadClass where
  className := "ADRPayload"
  payloadType := "adr"
  fields := [⟨"decision", .str⟩, ⟨"status", .str⟩, ⟨"title", .optionalStr⟩,
    ⟨"context", .optionalStr⟩, ⟨"consequences", .optionalStr⟩,
    ⟨"alternatives", .optionalStrList⟩]

/-- `class ReviewReportPayload`. -/
def ReviewReportPayload : PayloadClass where
  className := "ReviewReportPayload"
  payloadType := "review_report"
  fields := [⟨"verdict", .str⟩]

/-- `class BuildOutcomePayload`. -/
def BuildOutcomePayload : PayloadClass where
  className := "BuildOutcomePayload"
  payloadType := "build_outcome"
  fields := [⟨"status", .str⟩, ⟨"duration_seconds", .int⟩, ⟨"task_id", .optionalStr⟩,
    ⟨"lessons", .optionalStr⟩, ⟨"approach", .optionalStr⟩]

/-- `class PatternPayload`. -/
def PatternPayload : PayloadClass where
  className := "PatternPayload"
  payloadType := "pattern"
  fields := [⟨"pattern_name", .str⟩, ⟨"category", .str⟩]

/-- `class WarningPayload`. -/
def WarningPayload : PayloadClass where
  className := "WarningPayload"
  payloadType := "warning"
  fields := [⟨"severity", .str⟩, ⟨"message", .str⟩]

/-- `class SeedModulePayload`. -/
def SeedModulePayload : PayloadClass where
  className := "SeedModulePayload"
  payloadType := "seed_module"
  fields := [⟨"module_path", .str⟩]

/-- `class DocumentPayload`. -/
def DocumentPayload : PayloadClass where
  className := "DocumentPayload"
  payloadType := "document"
  fields := [⟨"content", .optionalStr⟩]

/-- `PAYLOAD_REGISTRY`: the classes, each under its type name. -/
def payloadRegistry : List PayloadClass :=
  [ADRPayload, ReviewReportPayload, BuildOutcomePayload, PatternPayload, WarningPayload,
    SeedModulePayload, DocumentPayload]

/-- `name in PAYLOAD_REGISTRY`. -/
def registered (payloadType : String) : Bool :=
  payloadRegistry.any fun cls => cls.payloadType == payloadType

/-- `get_model_for_type`. A name that cannot be hashed fails the lookup itself. -/
def getModelForType (payloadType : PyValue) : Except PyError PayloadClass :=
  match payloadType with
  | .str name =>
    match payloadRegistry.find? fun cls => cls.payloadType == name with
    | some cls => .ok cls
    | none => .error (.unknownPayloadType payloadType)
  | other =>
    if other.unhashable then .error (.typeError ("unhashable type: '" ++ other.typeName ++ "'"))
    else .error (.unknownPayloadType other)

/-! ### Payloads -/

/-- The fields of a payload instance. -/
structure PayloadFields where
  payloadType : String
  project : String
  identifier : String
  domainTags : List String
  sourceRef : String
  version : Int
  supersedes : List String
  own : PyDict
deriving Repr

namespace PayloadFields

/-- `natural_key`. -/
def naturalKey (fields : PayloadFields) : String :=
  fields.payloadType ++ ":" ++ fields.project ++ ":" ++ fields.identifier

/-- `model_dump()`. -/
def modelDump (fields : PayloadFields) : PyDict :=
  [("project", .str fields.project), ("identifier", .str fields.identifier),
    ("domain_tags", .list (fields.domainTags.map .str)), ("source_ref", .str fields.sourceRef),
    ("version", .int fields.version), ("supersedes", .list (fields.supersedes.map .str))] ++
    fields.own ++ [("natural_key", .str fields.naturalKey)]

/-- What the construction of a payload establishes. -/
structure Valid (fields : PayloadFields) : Prop where
  payloadType : ':' ∉ fields.payloadType.toList
  project : Text.fullMatch Text.word fields.project = true
  identifier : Text.fullMatch Text.word fields.identifier = true
  distinct : fields.supersedes.Nodup
  shaped : ∀ ref ∈ fields.supersedes, (Text.split ':' ref).length = 3
  notItself : fields.naturalKey ∉ fields.supersedes

end PayloadFields

/-- `_validate_identifier`. A truthy value that is not a string reaches the pattern, which raises. -/
def validateIdentifier (fieldName : String) (value : PyValue) : Except PyError Unit :=
  if value.truthy then
    match value with
    | .str text =>
      if Text.fullMatch Text.word text then .ok ()
      else .error (.identifierValidation fieldName value)
    | other => .error (.typeError
        ("expected string or bytes-like object, got '" ++ other.typeName ++ "'"))
  else .error (.identifierValidation fieldName value)

/-- `if name in data: _validate_identifier(name, data[name])`. -/
def validateIdentifierIn (data : PyDict) (name : String) : Except PyError Unit :=
  match data.get name with
  | some value => validateIdentifier name value
  | none => .ok ()

/-- What `for ref in supersedes` runs over. -/
def iterate : PyValue → Except PyError (List PyValue)
  | .list items => .ok items
  | .str text => .ok (text.toList.map fun character => .str (String.singleton character))
  | .dict entries => .ok (entries.map fun entry => .str entry.1)
  | other => .error (.typeError ("'" ++ other.typeName ++ "' object is not iterable"))

/-- Whether a ref was seen. Only strings are compared: the first ref that is not a string raises
below, whether or not it was collapsed into an equal one. -/
def seenBefore (seen : List PyValue) : PyValue → Bool
  | .str text => seen.any fun
      | .str other => other == text
      | _ => false
  | _ => false

/-- Collapse duplicates while preserving order. -/
def collapse (seen : List PyValue) : List PyValue → Except PyError (List PyValue)
  | [] => .ok seen
  | ref :: rest =>
    if ref.unhashable then .error (.typeError ("unhashable type: '" ++ ref.typeName ++ "'"))
    else if seenBefore seen ref then collapse seen rest
    else collapse (seen ++ [ref]) rest

/-- Every ref has three segments. -/
def validateRefs : List PyValue → Except PyError (List String)
  | [] => .ok []
  | .str ref :: rest =>
    if (Text.split ':' ref).length = 3 then (validateRefs rest).map (ref :: ·)
    else .error (.supersessionValidation
      ("Supersession reference '" ++ ref ++ "' is not a valid natural key: expected 3 " ++
        "colon-separated segments, got " ++ toString (Text.split ':' ref).length) (some ref))
  | other :: _ => .error (.attributeError
      ("'" ++ other.typeName ++ "' object has no attribute 'split'"))

/-- Validate and normalize `supersedes` in the data. -/
def normalizeSupersedes (data : PyDict) : Except PyError PyDict :=
  match data.get "supersedes" with
  | some value =>
    if value.truthy then do
      let refs ← iterate value
      let unique ← collapse [] refs
      let texts ← validateRefs unique
      return data.set "supersedes" (.list (texts.map .str))
    else .ok data
  | none => .ok data

/-- Check the fields of `BasePayload`, then the class's own. -/
def checkFields (runtime : Runtime) (cls : PayloadClass) (data : PyDict) : Checked PayloadFields :=
  (Checked.both (field "project" none (strValue "project") data) <|
    Checked.both (field "identifier" none (strValue "identifier") data) <|
    Checked.both (field "domain_tags" (some []) (strListValue "domain_tags") data) <|
    Checked.both (field "source_ref" none (strValue "source_ref") data) <|
    Checked.both (field "version" (some 1) (intValue runtime "version") data) <|
    Checked.both (field "supersedes" (some []) (strListValue "supersedes") data)
      (ownFields cls.fields)).map
    fun (project, identifier, domainTags, sourceRef, version, supersedes, own) =>
      { payloadType := cls.payloadType, project, identifier, domainTags, sourceRef, version,
        supersedes, own }
where
  ownFields : List FieldSpec → Checked PyDict
    | [] => .ok []
    | spec :: rest =>
      (Checked.both (spec.checkIn runtime data) (ownFields rest)).map fun (value, others) =>
        (spec.name, value) :: others

/-- `BasePayload.__init__(**data)`. -/
def initFields (runtime : Runtime) (cls : PayloadClass) (data : PyDict) :
    Except PyError PayloadFields := do
  raiseIf (data.get "self").isSome
    (.typeError "BasePayload.__init__() got multiple values for argument 'self'")
  validateIdentifierIn data "project"
  validateIdentifierIn data "identifier"
  let normalized ← normalizeSupersedes data
  let fields ← (checkFields runtime cls normalized).mapError (.validation cls.className)
  raiseIf (fields.naturalKey ∈ fields.supersedes)
    (.supersessionValidation ("Payload cannot supersede itself: '" ++ fields.naturalKey ++
      "' appears in supersedes list") (some fields.naturalKey))
  return fields

/-! ### What construction establishes -/

/-- Two refs are not the same string. -/
def Apart (first second : PyValue) : Prop :=
  ∀ text, first = .str text → second ≠ .str text

theorem apart_of_seenBefore {seen : List PyValue} {ref : PyValue}
    (fresh : seenBefore seen ref = false) : ∀ earlier ∈ seen, Apart earlier ref := by
  rintro earlier member text rfl rfl
  rw [seenBefore, List.any_eq_false] at fresh
  exact fresh _ member (beq_self_eq_true text)

theorem collapse_apart {refs seen unique : List PyValue}
    (collapsed : collapse seen refs = .ok unique) (apart : seen.Pairwise Apart) :
    unique.Pairwise Apart := by
  induction refs generalizing seen with
  | nil =>
    obtain rfl : seen = unique := by simpa [collapse] using collapsed
    exact apart
  | cons ref rest inductionHypothesis =>
    rw [collapse] at collapsed
    split at collapsed
    · cases collapsed
    · split at collapsed
      · exact inductionHypothesis collapsed apart
      · rename_i fresh
        refine inductionHypothesis collapsed (List.pairwise_append.mpr ⟨apart, by simp, ?_⟩)
        intro earlier member later single
        obtain rfl := List.mem_singleton.mp single
        exact apart_of_seenBefore (by simpa using fresh) earlier member

theorem validateRefs_eq_ok {refs : List PyValue} {texts : List String}
    (validated : validateRefs refs = .ok texts) :
    refs = texts.map .str ∧ ∀ ref ∈ texts, (Text.split ':' ref).length = 3 := by
  induction refs generalizing texts with
  | nil =>
    obtain rfl : [] = texts := by simpa [validateRefs] using validated
    simp
  | cons head rest inductionHypothesis =>
    cases head with
    | str ref =>
      rw [validateRefs] at validated
      split at validated
      · rename_i shaped
        obtain ⟨others, following, rfl⟩ := except_map_eq_ok.mp validated
        obtain ⟨rest_eq, others_shaped⟩ := inductionHypothesis following
        refine ⟨by rw [rest_eq, List.map_cons], ?_⟩
        intro other member
        rcases List.mem_cons.mp member with rfl | later
        · exact shaped
        · exact others_shaped other later
      · cases validated
    | _ => simp [validateRefs] at validated

/-- A list of strings is apart exactly when no string repeats. -/
theorem nodup_of_apart {texts : List String} (apart : (texts.map PyValue.str).Pairwise Apart) :
    texts.Nodup := by
  rw [List.pairwise_map] at apart
  exact apart.imp fun {first second} separate same => separate first rfl (by rw [same])

/-- Normalizing leaves the data alone, or puts a list of distinct three-segment refs in it. -/
theorem normalizeSupersedes_eq_ok {data normalized : PyDict}
    (done : normalizeSupersedes data = .ok normalized) :
    (normalized = data ∧ ∀ value, data.get "supersedes" = some value → value.truthy = false) ∨
      ∃ texts : List String, normalized = data.set "supersedes" (.list (texts.map .str)) ∧
        texts.Nodup ∧ ∀ ref ∈ texts, (Text.split ':' ref).length = 3 := by
  unfold normalizeSupersedes at done
  cases found : data.get "supersedes" with
  | none =>
    rw [found] at done
    exact Or.inl ⟨(Except.ok.inj done).symm, fun value impossible => by cases impossible⟩
  | some value =>
    rw [found] at done
    by_cases truthy : value.truthy = true
    · simp only [truthy, if_true] at done
      obtain ⟨refs, _, done⟩ := except_bind_eq_ok.mp done
      obtain ⟨unique, collapsed, done⟩ := except_bind_eq_ok.mp done
      obtain ⟨texts, validated, done⟩ := except_bind_eq_ok.mp done
      obtain ⟨unique_eq, shaped⟩ := validateRefs_eq_ok validated
      rw [unique_eq] at collapsed
      refine Or.inr ⟨texts, (Except.ok.inj done).symm, ?_, shaped⟩
      exact nodup_of_apart (collapse_apart collapsed List.Pairwise.nil)
    · simp only [truthy] at done
      refine Or.inl ⟨(Except.ok.inj done).symm, ?_⟩
      rintro _ ⟨rfl⟩
      simpa using truthy

theorem normalizeSupersedes_get_other {data normalized : PyDict} {name : String}
    (done : normalizeSupersedes data = .ok normalized) (different : name ≠ "supersedes") :
    normalized.get name = data.get name := by
  rcases normalizeSupersedes_eq_ok done with ⟨rfl, _⟩ | ⟨texts, rfl, _⟩
  · rfl
  · exact PyDict.get_set_other data _ different

/-- An identifier that passed its check and is a string is made of word characters. -/
theorem validateIdentifierIn_str {data : PyDict} {name text : String}
    (checked : validateIdentifierIn data name = .ok ())
    (found : data.get name = some (.str text)) : Text.fullMatch Text.word text = true := by
  simp only [validateIdentifierIn, found, validateIdentifier] at checked
  split at checked
  · split at checked
    · assumption
    · cases checked
  · cases checked

/-- The string fields a payload is built from stand in the data. -/
theorem checkFields_eq_ok {runtime : Runtime} {cls : PayloadClass} {data : PyDict}
    {fields : PayloadFields} (checked : checkFields runtime cls data = .ok fields) :
    fields.payloadType = cls.payloadType ∧ data.get "project" = some (.str fields.project) ∧
      data.get "identifier" = some (.str fields.identifier) ∧
      ((data.get "supersedes" = none ∧ fields.supersedes = []) ∨
        data.get "supersedes" = some (.list (fields.supersedes.map .str))) := by
  obtain ⟨⟨project, identifier, domainTags, sourceRef, version, supersedes, own⟩, all, rfl⟩ :=
    except_map_eq_ok.mp checked
  simp only [Checked.both_eq_ok] at all
  obtain ⟨projectChecked, identifierChecked, _, _, _, supersedesChecked, _⟩ := all
  obtain ⟨projectValue, projectFound, projectOk⟩ := field_required projectChecked
  obtain ⟨identifierValue, identifierFound, identifierOk⟩ := field_required identifierChecked
  refine ⟨rfl, ?_, ?_, ?_⟩
  · rw [projectFound, strValue_eq_ok projectOk]
  · rw [identifierFound, strValue_eq_ok identifierOk]
  · rcases field_default supersedesChecked with ⟨absent, rfl⟩ | ⟨value, found, valueOk⟩
    · exact Or.inl ⟨absent, rfl⟩
    · exact Or.inr (by rw [found, strListValue_eq_ok valueOk])

theorem map_str_injective {first second : List String}
    (same : first.map PyValue.str = second.map PyValue.str) : first = second :=
  List.map_injective_iff.mpr (fun _ _ equal => PyValue.str.inj equal) same

/-- The list read back from the normalized data has distinct refs of three segments. -/
theorem supersedes_valid {data normalized : PyDict} {supersedes : List String}
    (done : normalizeSupersedes data = .ok normalized)
    (read : (normalized.get "supersedes" = none ∧ supersedes = []) ∨
      normalized.get "supersedes" = some (.list (supersedes.map .str))) :
    supersedes.Nodup ∧ ∀ ref ∈ supersedes, (Text.split ':' ref).length = 3 := by
  rcases read with ⟨_, rfl⟩ | found
  · simp
  · rcases normalizeSupersedes_eq_ok done with ⟨rfl, falsy⟩ | ⟨texts, rfl, distinct, shaped⟩
    · have empty : supersedes = [] := by simpa [PyValue.truthy] using falsy _ found
      simp [empty]
    · rw [PyDict.get_set_self] at found
      obtain rfl := map_str_injective (PyValue.list.inj (Option.some.inj found))
      exact ⟨distinct, shaped⟩

/-- Fields that passed the checks made before and after those of the model are valid. -/
theorem valid_of_checked {runtime : Runtime} {cls : PayloadClass} {data normalized : PyDict}
    {fields : PayloadFields} (projectChecked : validateIdentifierIn data "project" = .ok ())
    (identifierChecked : validateIdentifierIn data "identifier" = .ok ())
    (done : normalizeSupersedes data = .ok normalized)
    (checked : checkFields runtime cls normalized = .ok fields)
    (itself : fields.naturalKey ∉ fields.supersedes) : fields.Valid := by
  obtain ⟨type, project, identifier, supersedes⟩ := checkFields_eq_ok checked
  rw [normalizeSupersedes_get_other done (by decide)] at project identifier
  have refs : fields.supersedes.Nodup ∧
      ∀ ref ∈ fields.supersedes, (Text.split ':' ref).length = 3 :=
    supersedes_valid done supersedes
  refine ⟨?_, validateIdentifierIn_str projectChecked project,
    validateIdentifierIn_str identifierChecked identifier, refs.1, refs.2, itself⟩
  rw [type]
  exact cls.colonFree

/-- What construction returns is valid, and passed the checks of the model. -/
theorem initFields_eq_ok {runtime : Runtime} {cls : PayloadClass} {data : PyDict}
    {fields : PayloadFields} (built : initFields runtime cls data = .ok fields) :
    fields.Valid ∧ ∃ normalized, normalizeSupersedes data = .ok normalized ∧
      checkFields runtime cls normalized = .ok fields := by
  unfold initFields at built
  obtain ⟨_, _, built⟩ := except_bind_eq_ok.mp built
  obtain ⟨_, projectChecked, built⟩ := except_bind_eq_ok.mp built
  obtain ⟨_, identifierChecked, built⟩ := except_bind_eq_ok.mp built
  obtain ⟨normalized, done, built⟩ := except_bind_eq_ok.mp built
  obtain ⟨checkedFields, checked, built⟩ := except_bind_eq_ok.mp built
  obtain ⟨_, itself, built⟩ := except_bind_eq_ok.mp built
  obtain rfl : checkedFields = fields := Except.ok.inj built
  have passed := except_mapError_eq_ok.mp checked
  exact ⟨valid_of_checked projectChecked identifierChecked done passed (raiseIf_eq_ok.mp itself),
    normalized, done, passed⟩

/-- A payload instance: fields that passed every check of their construction. -/
structure Payload extends PayloadFields where
  valid : toPayloadFields.Valid

theorem split_naturalKey (payload : Payload) :
    Text.split ':' payload.naturalKey =
      [payload.payloadType, payload.project, payload.identifier] :=
  Text.split_three payload.valid.payloadType
    (Text.not_mem_of_fullMatch payload.valid.project (by decide))
    (Text.not_mem_of_fullMatch payload.valid.identifier (by decide))

theorem identifier_of_naturalKey {one other : Payload} (same : one.naturalKey = other.naturalKey) :
    one.identifier = other.identifier := by
  have parts := congrArg (Text.split ':') same
  rw [split_naturalKey, split_naturalKey] at parts
  simp only [List.cons.injEq] at parts
  exact parts.2.2.1

/-- `payload_model(**data)`. -/
def PayloadClass.init (runtime : Runtime) (cls : PayloadClass) (data : PyDict) :
    Except PyError Payload :=
  match built : initFields runtime cls data with
  | .ok fields => .ok { toPayloadFields := fields, valid := (initFields_eq_ok built).1 }
  | .error error => .error error

theorem init_eq_ok {runtime : Runtime} {cls : PayloadClass} {data : PyDict} {payload : Payload}
    (built : cls.init runtime data = .ok payload) :
    initFields runtime cls data = .ok payload.toPayloadFields := by
  unfold PayloadClass.init at built
  split at built
  · rename_i fields done
    rw [done, ← Except.ok.inj built]
  · cases built

/-- A payload carries the type of its class. -/
theorem init_payloadType {runtime : Runtime} {cls : PayloadClass} {data : PyDict}
    {payload : Payload} (built : cls.init runtime data = .ok payload) :
    payload.payloadType = cls.payloadType := by
  obtain ⟨_, _, _, checked⟩ := initFields_eq_ok (init_eq_ok built)
  exact (checkFields_eq_ok checked).1

/-- A type name is looked up among the registered classes. -/
theorem getModelForType_mem {payloadType : PyValue} {cls : PayloadClass}
    (found : getModelForType payloadType = .ok cls) : cls ∈ payloadRegistry := by
  unfold getModelForType at found
  split at found
  · split at found
    · rename_i here
      rw [← Except.ok.inj found]
      exact List.mem_of_find?_eq_some here
    · cases found
  · split at found <;> cases found

end FleetMemory
