/-
This file models the envelope a typed payload is published in, and proves that the relay
reads the payload back from it: the body renders every field, the constructor's checks
pass on a payload that passed them once, and the keys it does not know are ignored. An
envelope of a payload that is stored already leaves the payload's record as it is. An
integer too long to convert has no text, and a payload that holds one has no envelope.
-/

import FleetMemory.JsonText
import FleetMemory.Pairings
import FleetMemory.PrefixEngine
import FleetMemory.RelayService

namespace FleetMemory

open StoreProgram DeterministicWriter RelayService

/-! ### Envelopes -/

section

variable (runtime : Runtime)

/-- `_derive_episode_id`. -/
def deriveEpisodeId (naturalKey : String) : String :=
  "ep-" ++ String.ofList ((runtime.sha256 naturalKey).toList.take 16)

/-- `build_envelope`, as the relay receives it, of a payload whose integers have texts. -/
def buildEnvelope (payload : Payload) : MemoryEpisodeV1 where
  episodeId := deriveEpisodeId runtime payload.naturalKey
  projectId := payload.project
  episodeType := payload.payloadType
  contentFormat := "json"
  body := Json.dumps (.dict payload.modelDump)
  payloadType := some payload.payloadType
  sourceRef := some payload.sourceRef

/-- `build_envelope`, with the error of a payload that has no JSON text. -/
def renderedEnvelope (payload : Payload) : Except PyError MemoryEpisodeV1 := do
  let _ ← Json.dumped (.dict payload.modelDump) (Json.dumps (.dict payload.modelDump))
  return buildEnvelope runtime payload

/-- `json.loads` gives back a dict that `json.dumps` rendered: one with the same values under the
same names. -/
def ReadsBack (entries : PyDict) : Prop :=
  ∃ parsed, runtime.loads (Json.dumps (.dict entries)) = .ok (.dict parsed) ∧
    ∀ name, PyDict.get parsed name = PyDict.get entries name

/-- An `int` field takes an integer as it is. -/
def TakesIntegers : Prop :=
  ∀ number, runtime.laxInt (.int number) = .ok number

end

/-! ### Instances of the payload classes -/

/-- The values an own field of a class holds once it was checked. -/
def FieldSpec.Holds (spec : FieldSpec) (value : PyValue) : Prop :=
  match spec.type with
  | .str => ∃ text, value = .str text
  | .int => ∃ number, value = .int number
  | .optionalStr => value = .none ∨ ∃ text, value = .str text
  | .optionalStrList => value = .none ∨ ∃ texts : List String, value = .list (texts.map .str)

/-- The payload is an instance of the class: it has the class's type, and the class's own fields, in
their order, with values of their types. -/
structure PayloadFields.InstanceOf (fields : PayloadFields) (cls : PayloadClass) : Prop where
  payloadType : fields.payloadType = cls.payloadType
  own : List.Forall₂ (fun (spec : FieldSpec) (entry : String × PyValue) =>
    entry.1 = spec.name ∧ spec.Holds entry.2) cls.fields fields.own

/-- The names of the fields every payload has. -/
def baseNames : List String :=
  ["project", "identifier", "domain_tags", "source_ref", "version", "supersedes"]

/-- The class's own fields have names of their own. -/
def PayloadClass.WellNamed (cls : PayloadClass) : Prop :=
  (baseNames ++ cls.fields.map FieldSpec.name ++ ["natural_key", "self"]).Nodup

instance (cls : PayloadClass) : Decidable cls.WellNamed :=
  inferInstanceAs (Decidable (List.Nodup _))

section

variable {runtime : Runtime} {cls : PayloadClass} {data : PyDict}

theorem wellNamed_of_mem (registered : cls ∈ payloadRegistry) : cls.WellNamed := by
  simp only [payloadRegistry, List.mem_cons, List.not_mem_nil, or_false] at registered
  rcases registered with rfl | rfl | rfl | rfl | rfl | rfl | rfl <;> decide

/-- A registered type name is resolved to its class. -/
theorem getModelForType_of_mem (registered : cls ∈ payloadRegistry) :
    getModelForType (.str cls.payloadType) = .ok cls := by
  simp only [payloadRegistry, List.mem_cons, List.not_mem_nil, or_false] at registered
  rcases registered with rfl | rfl | rfl | rfl | rfl | rfl | rfl <;> rfl

/-! ### Construction gives instances -/

theorem checkIn_eq_ok {spec : FieldSpec} {value : PyValue}
    (checked : spec.checkIn runtime data = .ok value) : spec.Holds value := by
  unfold FieldSpec.checkIn at checked
  unfold FieldSpec.Holds
  cases type : spec.type with
  | str =>
    simp only [type] at checked ⊢
    obtain ⟨text, _, rfl⟩ := except_map_eq_ok.mp checked
    exact ⟨text, rfl⟩
  | int =>
    simp only [type] at checked ⊢
    obtain ⟨number, _, rfl⟩ := except_map_eq_ok.mp checked
    exact ⟨number, rfl⟩
  | optionalStr =>
    simp only [type] at checked ⊢
    rcases field_default checked with ⟨_, rfl⟩ | ⟨given, _, passed⟩
    · exact Or.inl rfl
    · split at passed
      · exact Or.inl (Except.ok.inj passed).symm
      · obtain ⟨text, _, rfl⟩ := except_map_eq_ok.mp passed
        exact Or.inr ⟨text, rfl⟩
  | optionalStrList =>
    simp only [type] at checked ⊢
    rcases field_default checked with ⟨_, rfl⟩ | ⟨given, _, passed⟩
    · exact Or.inl rfl
    · split at passed
      · exact Or.inl (Except.ok.inj passed).symm
      · obtain ⟨texts, _, rfl⟩ := except_map_eq_ok.mp passed
        exact Or.inr ⟨texts, rfl⟩

theorem ownFields_eq_ok {specs : List FieldSpec} {own : PyDict}
    (checked : checkFields.ownFields runtime data specs = .ok own) :
    List.Forall₂ (fun (spec : FieldSpec) (entry : String × PyValue) =>
      entry.1 = spec.name ∧ spec.Holds entry.2) specs own := by
  induction specs generalizing own with
  | nil =>
    obtain rfl := Except.ok.inj checked
    exact .nil
  | cons spec rest inductionHypothesis =>
    obtain ⟨⟨value, others⟩, parts, rfl⟩ := except_map_eq_ok.mp checked
    obtain ⟨first, following⟩ := Checked.both_eq_ok.mp parts
    exact .cons ⟨rfl, checkIn_eq_ok first⟩ (inductionHypothesis following)

/-- What a class constructs is an instance of it. -/
theorem instanceOf_init {payload : Payload} (built : cls.init runtime data = .ok payload) :
    payload.InstanceOf cls := by
  obtain ⟨_, _, _, checked⟩ := initFields_eq_ok (init_eq_ok built)
  obtain ⟨⟨project, identifier, domainTags, sourceRef, version, supersedes, own⟩, all, same⟩ :=
    except_map_eq_ok.mp checked
  rw [← same]
  simp only [Checked.both_eq_ok] at all
  exact ⟨rfl, ownFields_eq_ok all.2.2.2.2.2.2⟩

/-! ### Reading the dump of an instance -/

theorem names_of_instance {fields : PayloadFields} (instanceOf : fields.InstanceOf cls) :
    fields.own.map Prod.fst = cls.fields.map FieldSpec.name :=
  (Pairings.map_eq_map instanceOf.own fun _ _ _ conforms => conforms.1.symm).symm

theorem names_of_modelDump {fields : PayloadFields} (instanceOf : fields.InstanceOf cls) :
    fields.modelDump.map Prod.fst =
      baseNames ++ cls.fields.map FieldSpec.name ++ ["natural_key"] := by
  rw [PayloadFields.modelDump, List.map_append, List.map_append, names_of_instance instanceOf]
  rfl

/-- The dump has every name once. -/
theorem nodup_modelDump {fields : PayloadFields} (registered : cls ∈ payloadRegistry)
    (instanceOf : fields.InstanceOf cls) : (fields.modelDump.map Prod.fst).Nodup := by
  rw [names_of_modelDump instanceOf]
  refine (wellNamed_of_mem registered).sublist ?_
  rw [List.append_sublist_append_left]
  exact .cons_cons _ (.cons _ .slnil)

/-! ### Dumps the reader gives back -/

/-- The value has no dict in it, and no float. -/
def Flat (value : PyValue) : Prop :=
  Json.Plain PyFloat.mk value ∧ Json.canonical value = value

theorem flat_texts (texts : List String) : Flat (.list (texts.map .str)) :=
  ⟨Json.plain_strs PyFloat.mk texts, Json.canonical_strs texts⟩

theorem flat_of_holds {spec : FieldSpec} {value : PyValue} (holds : spec.Holds value) :
    Flat value := by
  unfold FieldSpec.Holds at holds
  cases type : spec.type with
  | str =>
    simp only [type] at holds
    obtain ⟨text, rfl⟩ := holds
    exact ⟨.str text, rfl⟩
  | int =>
    simp only [type] at holds
    obtain ⟨number, rfl⟩ := holds
    exact ⟨.int number, rfl⟩
  | optionalStr =>
    simp only [type] at holds
    rcases holds with rfl | ⟨text, rfl⟩
    · exact ⟨.none, rfl⟩
    · exact ⟨.str text, rfl⟩
  | optionalStrList =>
    simp only [type] at holds
    rcases holds with rfl | ⟨texts, rfl⟩
    · exact ⟨.none, rfl⟩
    · exact flat_texts texts

/-- A dump has plain values where the class's own fields do. -/
theorem plain_modelDump {fields : PayloadFields}
    (own : ∀ entry ∈ fields.own, Json.Plain PyFloat.mk entry.2) :
    ∀ entry ∈ fields.modelDump, Json.Plain PyFloat.mk entry.2 := by
  intro entry member
  simp only [PayloadFields.modelDump, List.cons_append, List.nil_append, List.mem_cons,
    List.mem_append, List.not_mem_nil, or_false] at member
  rcases member with rfl | rfl | rfl | rfl | rfl | rfl | inside | rfl
  · exact .str _
  · exact .str _
  · exact Json.plain_strs _ fields.domainTags
  · exact .str _
  · exact .int _
  · exact Json.plain_strs _ fields.supersedes
  · exact own entry inside
  · exact .str _

theorem flat_modelDump {fields : PayloadFields} (instanceOf : fields.InstanceOf cls) :
    ∀ entry ∈ fields.modelDump, Flat entry.2 := by
  have own : ∀ entry ∈ fields.own, Flat entry.2 := by
    intro entry member
    obtain ⟨spec, -, -, holds⟩ := Pairings.exists_of_mem_right instanceOf.own member
    exact flat_of_holds holds
  intro entry member
  refine ⟨plain_modelDump (fun other inside => (own other inside).1) entry member, ?_⟩
  simp only [PayloadFields.modelDump, List.cons_append, List.nil_append, List.mem_cons,
    List.mem_append, List.not_mem_nil, or_false] at member
  rcases member with rfl | rfl | rfl | rfl | rfl | rfl | inside | rfl
  · rfl
  · rfl
  · exact Json.canonical_strs fields.domainTags
  · rfl
  · rfl
  · exact Json.canonical_strs fields.supersedes
  · exact (own entry inside).2
  · rfl

theorem shortIntegers_texts (texts : List String) :
    Json.shortIntegers (.list (texts.map .str)) = true := by
  rw [Json.shortIntegers, Json.shortItems_iff]
  intro item member
  obtain ⟨text, -, rfl⟩ := List.mem_map.mp member
  rfl

/-- Only the version and the class's own fields may hold an integer without a text. -/
theorem shortIntegers_modelDump_iff (fields : PayloadFields) :
    Json.shortIntegers (.dict fields.modelDump) = true ↔
      FewDigits fields.version ∧ ∀ entry ∈ fields.own, Json.shortIntegers entry.2 = true := by
  have tags := shortIntegers_texts fields.domainTags
  have superseded := shortIntegers_texts fields.supersedes
  have str (text : String) : Json.shortIntegers (.str text) = true := rfl
  have version : Json.shortIntegers (.int fields.version) = true ↔ FewDigits fields.version := by
    rw [Json.shortIntegers, decide_eq_true_iff]
  rw [Json.shortIntegers, Json.shortEntries_iff]
  simp only [PayloadFields.modelDump, List.forall_mem_append, List.forall_mem_cons, tags, superseded,
    str, version, List.not_mem_nil, false_implies, implies_true, and_true, true_and]

/-- A dict of flat values whose integers have texts is read back. -/
theorem readsBack_of_load {entries : PyDict} (reader : runtime.loads = Json.load PyFloat.mk)
    (distinct : (entries.map Prod.fst).Nodup) (flat : ∀ entry ∈ entries, Flat entry.2)
    (short : Json.shortIntegers (.dict entries) = true) : ReadsBack runtime entries := by
  refine ⟨Json.sortByKey (Json.canonicalEntries entries), ?_, fun name => ?_⟩
  · rw [reader]
    exact Json.load_dumps (.dict entries distinct fun entry member => (flat entry member).1) short
  · rw [Json.get_canonicalEntries distinct]
    cases found : PyDict.get entries name with
    | none => rfl
    | some value => exact congrArg some (flat (name, value) (PyDict.mem_of_get found)).2

/-- The dump of an instance whose integers have texts is read back. -/
theorem readsBack_modelDump {fields : PayloadFields}
    (reader : runtime.loads = Json.load PyFloat.mk) (registered : cls ∈ payloadRegistry)
    (instanceOf : fields.InstanceOf cls)
    (short : Json.shortIntegers (.dict fields.modelDump) = true) :
    ReadsBack runtime fields.modelDump :=
  readsBack_of_load reader (nodup_modelDump registered instanceOf) (flat_modelDump instanceOf) short

/-! ### The fields of a dump pass their checks -/

/-- A field that is in the data is checked there. -/
theorem field_of_get {α : Type} {name : String} {default? : Option α} {check : PyValue → Checked α}
    {value : PyValue} (found : data.get name = some value) :
    field name default? check data = check value := by
  unfold field
  rw [found]

theorem strListValue_map (name : String) (texts : List String) :
    strListValue name (.list (texts.map .str)) = .ok texts := by
  show strItems name (texts.map .str) = .ok texts
  induction texts with
  | nil => rfl
  | cons text rest inductionHypothesis =>
    rw [List.map_cons, strItems, inductionHypothesis]
    rfl

/-- A value of the field's type passes its check. -/
theorem checkIn_of_holds {spec : FieldSpec} {value : PyValue} (takes : TakesIntegers runtime)
    (holds : spec.Holds value) (found : data.get spec.name = some value) :
    spec.checkIn runtime data = .ok value := by
  unfold FieldSpec.Holds at holds
  unfold FieldSpec.checkIn
  cases type : spec.type with
  | str =>
    simp only [type] at holds ⊢
    obtain ⟨text, rfl⟩ := holds
    rw [field_of_get found]
    rfl
  | int =>
    simp only [type] at holds ⊢
    obtain ⟨number, rfl⟩ := holds
    rw [field_of_get found, intValue, takes]
    rfl
  | optionalStr =>
    simp only [type] at holds ⊢
    rw [field_of_get found]
    rcases holds with rfl | ⟨text, rfl⟩
    · rfl
    · rfl
  | optionalStrList =>
    simp only [type] at holds ⊢
    rw [field_of_get found]
    rcases holds with rfl | ⟨texts, rfl⟩
    · rfl
    · show (strListValue spec.name (.list (texts.map .str))).map _ = _
      rw [strListValue_map]
      rfl

theorem ownFields_of_get {specs : List FieldSpec} {own : PyDict} (takes : TakesIntegers runtime)
    (conforms : List.Forall₂ (fun (spec : FieldSpec) (entry : String × PyValue) =>
      entry.1 = spec.name ∧ spec.Holds entry.2) specs own)
    (found : ∀ entry ∈ own, data.get entry.1 = some entry.2) :
    checkFields.ownFields runtime data specs = .ok own := by
  induction conforms with
  | nil => rfl
  | @cons spec entry rest others head _ inductionHypothesis =>
    obtain ⟨named, holds⟩ := head
    have here := found entry List.mem_cons_self
    rw [named] at here
    rw [checkFields.ownFields, checkIn_of_holds takes holds here,
      inductionHypothesis fun other member => found other (List.mem_cons_of_mem _ member), ← named]
    rfl

/-- Distinct refs of three segments stay as they are. -/
theorem collapse_of_nodup {seen texts : List String} (distinct : (seen ++ texts).Nodup) :
    collapse (seen.map .str) (texts.map .str) = .ok ((seen ++ texts).map .str) := by
  induction texts generalizing seen with
  | nil => rw [List.map_nil, collapse, List.append_nil]
  | cons text rest inductionHypothesis =>
    have fresh : seenBefore (seen.map .str) (.str text) = false := by
      rw [seenBefore, List.any_eq_false]
      rintro _ member
      obtain ⟨other, inside, rfl⟩ := List.mem_map.mp member
      have different : other ≠ text := by
        rintro rfl
        exact (List.nodup_append.mp distinct).2.2 other inside other List.mem_cons_self rfl
      simpa using different
    have next := @inductionHypothesis (seen ++ [text]) (by simpa using distinct)
    rw [List.map_cons, collapse, if_neg (by simp [PyValue.unhashable]), fresh]
    simpa using next

theorem validateRefs_of_shaped {texts : List String}
    (shaped : ∀ ref ∈ texts, (Text.split ':' ref).length = 3) :
    validateRefs (texts.map .str) = .ok texts := by
  induction texts with
  | nil => rfl
  | cons text rest inductionHypothesis =>
    rw [List.map_cons, validateRefs, if_pos (shaped text List.mem_cons_self),
      inductionHypothesis fun ref member => shaped ref (List.mem_cons_of_mem _ member)]
    rfl

/-- Normalizing a valid list of refs leaves every value of the data. -/
theorem normalizeSupersedes_of_valid {texts : List String}
    (found : data.get "supersedes" = some (.list (texts.map .str))) (distinct : texts.Nodup)
    (shaped : ∀ ref ∈ texts, (Text.split ':' ref).length = 3) :
    ∃ normalized, normalizeSupersedes data = .ok normalized ∧
      ∀ name, normalized.get name = data.get name := by
  rw [normalizeSupersedes, found]
  dsimp only
  split
  · have unique : collapse [] (texts.map .str) = .ok (texts.map .str) :=
      @collapse_of_nodup [] texts distinct
    refine ⟨data.set "supersedes" (.list (texts.map .str)), ?_, fun name => ?_⟩
    · show (iterate (.list (texts.map .str)) >>= _) = _
      rw [iterate]
      show (collapse [] (texts.map .str) >>= _) = _
      rw [unique]
      show (validateRefs (texts.map .str) >>= _) = _
      rw [validateRefs_of_shaped shaped]
      rfl
    · by_cases same : name = "supersedes"
      · rw [same, PyDict.get_set_self, found]
      · exact PyDict.get_set_other data _ same
  · exact ⟨data, rfl, fun _ => rfl⟩

theorem validateIdentifier_of_fullMatch {name text : String}
    (word : Text.fullMatch Text.word text = true) : validateIdentifier name (.str text) = .ok () := by
  have nonempty : text.isEmpty = false := by
    by_contra empty
    rw [Bool.not_eq_false, String.isEmpty_iff] at empty
    rw [empty] at word
    cases word
  rw [validateIdentifier, if_pos (by rw [PyValue.truthy, nonempty]; rfl)]
  exact if_pos word

theorem validateIdentifierIn_of_get {name text : String}
    (found : data.get name = some (.str text)) (word : Text.fullMatch Text.word text = true) :
    validateIdentifierIn data name = .ok () := by
  rw [validateIdentifierIn, found]
  exact validateIdentifier_of_fullMatch word

theorem base_mem_modelDump (fields : PayloadFields) :
    ("project", .str fields.project) ∈ fields.modelDump ∧
      ("identifier", .str fields.identifier) ∈ fields.modelDump ∧
      ("domain_tags", .list (fields.domainTags.map .str)) ∈ fields.modelDump ∧
      ("source_ref", .str fields.sourceRef) ∈ fields.modelDump ∧
      ("version", .int fields.version) ∈ fields.modelDump ∧
      ("supersedes", .list (fields.supersedes.map .str)) ∈ fields.modelDump := by
  simp [PayloadFields.modelDump]

/-- The checks take the fields of `BasePayload` back from any dict that holds them, and the class's own
fields as the dict has them. -/
theorem checkFields_of_get {fields : PayloadFields} (takes : TakesIntegers runtime)
    (read : ∀ entry ∈ [("project", PyValue.str fields.project),
      ("identifier", .str fields.identifier),
      ("domain_tags", .list (fields.domainTags.map .str)), ("source_ref", .str fields.sourceRef),
      ("version", .int fields.version), ("supersedes", .list (fields.supersedes.map .str))],
      data.get entry.1 = some entry.2)
    (own : checkFields.ownFields runtime data cls.fields = .ok fields.own)
    (type : fields.payloadType = cls.payloadType) :
    checkFields runtime cls data = .ok fields := by
  simp only [List.mem_cons, List.not_mem_nil, or_false, forall_eq_or_imp, forall_eq] at read
  obtain ⟨project, identifier, domainTags, sourceRef, version, supersedes⟩ := read
  rw [checkFields, own, field_of_get project, field_of_get identifier, field_of_get domainTags,
    field_of_get sourceRef, field_of_get version, field_of_get supersedes, strListValue_map,
    strListValue_map, intValue, takes, ← type]
  rfl

/-- The constructor takes an instance's fields back from any dict that holds them. -/
theorem initFields_of_dump {payload : Payload} (registered : cls ∈ payloadRegistry)
    (instanceOf : payload.InstanceOf cls) (takes : TakesIntegers runtime)
    (same : ∀ name, data.get name = PyDict.get payload.modelDump name) :
    initFields runtime cls data = .ok payload.toPayloadFields := by
  have names := names_of_modelDump instanceOf
  have wellNamed := wellNamed_of_mem registered
  have distinct := nodup_modelDump registered instanceOf
  have found {name : String} {value : PyValue} (member : (name, value) ∈ payload.modelDump) :
      data.get name = some value := by
    rw [same, PyDict.get_of_mem distinct member]
  have noSelf : data.get "self" = none := by
    rw [same]
    refine PyDict.get_of_not_mem fun member => ?_
    rw [names] at member
    have apart := List.nodup_append.mp wellNamed
    rcases List.mem_append.mp member with early | late
    · exact apart.2.2 "self" early "self" (by simp) rfl
    · exact absurd late (by decide)
  obtain ⟨project, identifier, _, _, _, supersedes⟩ := base_mem_modelDump payload.toPayloadFields
  obtain ⟨normalized, normalizes, kept⟩ := normalizeSupersedes_of_valid (found supersedes)
    payload.valid.distinct payload.valid.shaped
  have read {name : String} {value : PyValue} (member : (name, value) ∈ payload.modelDump) :
      normalized.get name = some value := by
    rw [kept, found member]
  have own : checkFields.ownFields runtime normalized cls.fields = .ok payload.own :=
    ownFields_of_get takes instanceOf.own fun entry member =>
      read (List.mem_append_left _ (List.mem_append_right _ member))
  have fields : checkFields runtime cls normalized = .ok payload.toPayloadFields :=
    checkFields_of_get takes (fun _ member => read (List.mem_append_left _
      (List.mem_append_left _ member))) own instanceOf.payloadType
  unfold initFields
  rw [noSelf, raiseIf, if_neg (by simp)]
  show (validateIdentifierIn data "project" >>= _) = _
  rw [validateIdentifierIn_of_get (found project) payload.valid.project]
  show (validateIdentifierIn data "identifier" >>= _) = _
  rw [validateIdentifierIn_of_get (found identifier) payload.valid.identifier]
  show (normalizeSupersedes data >>= _) = _
  rw [normalizes]
  show ((checkFields runtime cls normalized).mapError _ >>= _) = _
  rw [fields]
  show (raiseIf _ _ >>= _) = _
  rw [raiseIf, if_neg payload.valid.notItself]
  rfl

theorem init_of_initFields {payload : Payload}
    (built : initFields runtime cls data = .ok payload.toPayloadFields) :
    cls.init runtime data = .ok payload := by
  unfold PayloadClass.init
  split
  · rename_i fields done
    rw [built] at done
    obtain rfl := Except.ok.inj done
    rfl
  · rename_i error raised
    rw [built] at raised
    cases raised

end

/-! ### The relay reads the envelope back -/

section

variable {service : RelayService} {engine : SearchEngine} {payload : Payload} {cls : PayloadClass}
  {store : Store}

/-- The relay reads the payload an envelope was built from. -/
theorem payloadOf_buildEnvelope (registered : cls ∈ payloadRegistry)
    (instanceOf : payload.InstanceOf cls) (takes : TakesIntegers service.runtime)
    (reads : ReadsBack service.runtime payload.modelDump) :
    service.payloadOf (buildEnvelope service.runtime payload) = .ok payload := by
  obtain ⟨parsed, loads, same⟩ := reads
  have resolved : getModelForType (.str payload.payloadType) = .ok cls := by
    rw [instanceOf.payloadType, getModelForType_of_mem registered]
  have body : service.parseBody (buildEnvelope service.runtime payload).body = .ok (.dict parsed) := by
    rw [parseBody, buildEnvelope, loads]
  show (service.parseBody (buildEnvelope service.runtime payload).body >>= _) = _
  rw [body]
  show (getModelForType (.str payload.payloadType) >>= _) = _
  rw [resolved]
  exact init_of_initFields (initFields_of_dump registered instanceOf takes same)

/-- A key a payload supersedes has another store key than the payload's. -/
def NotMarkedByItself (runtime : Runtime) (payload : Payload) : Prop :=
  ∀ key ∈ payload.supersedes, runtime.uuid5 key ≠ runtime.uuid5 payload.naturalKey

/-- An envelope of a payload whose content is stored leaves the payload's record as it is. -/
theorem lookup_ingest_of_stored
    (built : service.payloadOf (buildEnvelope service.runtime payload) = .ok payload)
    (apart : NotMarkedByItself service.runtime payload)
    (stored : ¬service.writer.Puts payload store) :
    ((service.ingest (buildEnvelope service.runtime payload)).run (storeWorld engine) store).2.lookup
        (service.writer.recordPlace payload) =
      store.lookup (service.writer.recordPlace payload) := by
  by_cases accepts : Accepts payload
  · rw [run_ingest_of_stored rfl built accepts stored, lookup_markAll]
    have unmarked : ¬∃ key ∈ payload.supersedes,
        keyPlace service.runtime key = some (service.writer.recordPlace payload) := by
      rintro ⟨key, member, named⟩
      exact apart key member (key_of_keyPlace named).symm
    simp [unmarked]
  · rw [run_ingest_of_not_accepts rfl built accepts]

/-- The envelope that was rendered is that of a payload whose integers have texts. -/
theorem renderedEnvelope_eq_ok {runtime : Runtime} {envelope : MemoryEpisodeV1} :
    renderedEnvelope runtime payload = .ok envelope ↔
      Json.shortIntegers (.dict payload.modelDump) = true ∧
        buildEnvelope runtime payload = envelope := by
  unfold renderedEnvelope Json.dumped
  split
  · rename_i short
    exact ⟨fun done => ⟨short, Except.ok.inj done⟩, fun same => congrArg Except.ok same.2⟩
  · rename_i long
    refine ⟨fun done => ?_, fun same => absurd same.1 long⟩
    cases done

theorem returns_renderedEnvelope {runtime : Runtime} :
    Returns (renderedEnvelope runtime payload) ↔
      Json.shortIntegers (.dict payload.modelDump) = true := by
  refine ⟨fun ⟨envelope, done⟩ => (renderedEnvelope_eq_ok.mp done).1, fun short => ?_⟩
  exact ⟨buildEnvelope runtime payload, renderedEnvelope_eq_ok.mpr ⟨short, rfl⟩⟩

/-- An instance of a registered payload type has an envelope exactly when its integers have texts.
From its envelope every instance is read back, with the same natural key, supersedes and content
hash; and where the instance's content is stored already, the ingest of its envelope leaves its
record as it is. -/
theorem envelope_round_trip (service : RelayService) (engine : SearchEngine) (cls : PayloadClass)
    (payload : Payload) (registered : cls ∈ payloadRegistry) (instanceOf : payload.InstanceOf cls)
    (reader : service.runtime.loads = Json.load PyFloat.mk) (takes : TakesIntegers service.runtime)
    (apart : NotMarkedByItself service.runtime payload) :
    (Returns (renderedEnvelope service.runtime payload) ↔
        Json.shortIntegers (.dict payload.modelDump) = true) ∧
      ∀ envelope, renderedEnvelope service.runtime payload = .ok envelope →
        (∃ parsed, service.payloadOf envelope = .ok parsed ∧
            parsed = payload ∧ parsed.naturalKey = payload.naturalKey ∧
            parsed.supersedes = payload.supersedes ∧
            contentHash service.runtime parsed = contentHash service.runtime payload) ∧
          ∀ (store : Store) (value : StoredValue),
            store.lookup (service.writer.recordPlace payload) = some value →
            value.contentHash = some (contentHash service.runtime payload) →
              ((service.ingest envelope).run (storeWorld engine) store).2.lookup
                (service.writer.recordPlace payload) = some value := by
  refine ⟨returns_renderedEnvelope, fun envelope rendered => ?_⟩
  obtain ⟨short, rfl⟩ := renderedEnvelope_eq_ok.mp rendered
  have built := payloadOf_buildEnvelope registered instanceOf takes
    (readsBack_modelDump reader registered instanceOf short)
  refine ⟨⟨payload, built, rfl, rfl, rfl, rfl⟩, fun store value stored same => ?_⟩
  rw [← stored]
  refine lookup_ingest_of_stored built apart fun puts => puts ?_
  rw [stored, Option.bind_some, same]
  rfl

end

/-! ### A build outcome in its envelope -/

section Sample

/-- The fields of a build outcome with lessons. -/
def lessonsOutcome : Payload where
  toPayloadFields := {
    payloadType := "build_outcome", project := "a", identifier := "T", domainTags := ["task"],
    sourceRef := "s", version := 1, supersedes := [],
    own := [("status", .str "ok"), ("duration_seconds", .int 1), ("task_id", .none),
      ("lessons", .str "café"), ("approach", .none)] }
  valid := ⟨by decide, by decide, by decide, by decide, by decide, by decide⟩

/-- The functions on the key and the content of the build outcome, over the reader of JSON. -/
def lessonsRuntime : Runtime :=
  { Runtime.ofTables [("build_outcome:a:T", "211020bb-18ce-5195-bc88-723c1d72fd9f")]
      [("build_outcome:a:T", "dc8fb930e16adaafb61b9be27af85610f0dc57255d77e5dab79af60a0d483d13"),
        (content, "4236753bf124ad8942ac1b64bea2686aec2f078a7a9ed05c05f5f420131462b6")] [] with
    loads := Json.load PyFloat.mk }
where
  content : String :=
    "\x7b\"approach\":null,\"domain_tags\":[\"task\"],\"duration_seconds\":1," ++
      "\"identifier\":\"T\",\"lessons\":\"caf\\u00e9\"," ++
      "\"natural_key\":\"build_outcome:a:T\",\"project\":\"a\",\"source_ref\":\"s\"," ++
      "\"status\":\"ok\",\"supersedes\":[],\"task_id\":null\x7d"

def lessonsService : RelayService where
  writer := ⟨lessonsRuntime, 1⟩
  settings := ⟨1000, ⟨"0.15"⟩⟩

theorem instanceOf_lessonsOutcome : lessonsOutcome.InstanceOf BuildOutcomePayload where
  payloadType := rfl
  own := .cons ⟨rfl, _, rfl⟩ (.cons ⟨rfl, _, rfl⟩ (.cons ⟨rfl, Or.inl rfl⟩
    (.cons ⟨rfl, Or.inr ⟨_, rfl⟩⟩ (.cons ⟨rfl, Or.inl rfl⟩ .nil))))

theorem readsBack_lessonsOutcome : ReadsBack lessonsRuntime lessonsOutcome.modelDump :=
  readsBack_modelDump rfl (by simp [payloadRegistry]) instanceOf_lessonsOutcome (by decide +kernel)

/-- The build outcome is read back, and stays as it is stored. -/
theorem envelope_round_trip_lessonsOutcome :
    (Returns (renderedEnvelope lessonsRuntime lessonsOutcome) ↔
        Json.shortIntegers (.dict lessonsOutcome.modelDump) = true) ∧
      ∀ envelope, renderedEnvelope lessonsRuntime lessonsOutcome = .ok envelope →
        (∃ parsed, lessonsService.payloadOf envelope = .ok parsed ∧
            parsed = lessonsOutcome ∧ parsed.naturalKey = lessonsOutcome.naturalKey ∧
            parsed.supersedes = lessonsOutcome.supersedes ∧
            contentHash lessonsRuntime parsed = contentHash lessonsRuntime lessonsOutcome) ∧
          ∀ (store : Store) (value : StoredValue),
            store.lookup (lessonsService.writer.recordPlace lessonsOutcome) = some value →
            value.contentHash = some (contentHash lessonsRuntime lessonsOutcome) →
              ((lessonsService.ingest envelope).run (storeWorld (prefixEngine fun _ _ _ => none))
                store).2.lookup (lessonsService.writer.recordPlace lessonsOutcome) = some value :=
  envelope_round_trip lessonsService (prefixEngine fun _ _ _ => none) BuildOutcomePayload
    lessonsOutcome (by simp [payloadRegistry]) instanceOf_lessonsOutcome rfl (fun _ => rfl)
    (fun _ member => by cases member)

/-- The build outcome in a version of 4301 digits. -/
def wideOutcome : Payload where
  toPayloadFields := { lessonsOutcome.toPayloadFields with version := 10 ^ 4300 }
  valid := ⟨by decide, by decide, by decide, by decide, by decide, by decide⟩

theorem instanceOf_wideOutcome : wideOutcome.InstanceOf BuildOutcomePayload where
  payloadType := rfl
  own := instanceOf_lessonsOutcome.own

/-- It is accepted by its class, and has no envelope to read it back from. -/
theorem not_returns_wideOutcome :
    BuildOutcomePayload ∈ payloadRegistry ∧ wideOutcome.InstanceOf BuildOutcomePayload ∧
      BuildOutcomePayload.init lessonsRuntime wideOutcome.modelDump = .ok wideOutcome ∧
        renderedEnvelope lessonsRuntime wideOutcome = .error tooManyDigits := by
  have registered : BuildOutcomePayload ∈ payloadRegistry := by simp [payloadRegistry]
  refine ⟨registered, instanceOf_wideOutcome, ?_, ?_⟩
  · exact init_of_initFields
      (initFields_of_dump registered instanceOf_wideOutcome (fun _ => rfl) fun _ => rfl)
  · have long : Json.shortIntegers (.dict wideOutcome.modelDump) = false := by decide +kernel
    rw [renderedEnvelope, Json.dumped, long]
    rfl

end Sample

end FleetMemory
