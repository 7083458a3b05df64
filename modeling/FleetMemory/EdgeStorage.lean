/-
This file proves which instances of the backward-edge classes are stored once their class has an
entry in the registry. A class whose fields hold no datetime is read back from every dump of an
instance, the one the publisher renders and the one the writer stores. An instance with a datetime is
read from its envelope and refused by the writer, before any store call.
-/

import FleetMemory.BackwardEdges

namespace FleetMemory

open StoreProgram DeterministicWriter RelayService

/-! ### Instances of the classes -/

/-- An inline model as a dump has it: its fields in their order, with values of their types. -/
def InlineModel.Conforms (model : InlineModel) (row : PyDict) : Prop :=
  List.Forall₂ (fun (spec : FieldSpec) (entry : String × PyValue) =>
    entry.1 = spec.name ∧ spec.Holds entry.2) model.fields row

/-- The values an own field holds once it was checked. -/
def EdgeFieldSpec.Holds (spec : EdgeFieldSpec) (value : OwnValue) : Prop :=
  match spec.type with
  | .shared type => ∃ plain, value = .native plain ∧ FieldSpec.Holds ⟨spec.name, type⟩ plain
  | .strList => ∃ texts : List String, value = .native (.list (texts.map .str))
  | .optionalInt => value = .native .none ∨ ∃ number, value = .native (.int number)
  | .bool _ => ∃ truth, value = .native (.bool truth)
  | .optionalStrMap => value = .native .none ∨
      ∃ entries, Json.Ordered entries ∧ value = .native (dictOf .str entries)
  | .floatMap => ∃ entries, Json.Ordered entries ∧ value = .native (dictOf .float entries)
  | .models model => ∃ rows : List PyDict, (∀ row ∈ rows, model.Conforms row) ∧
      value = .native (.list (rows.map .dict))
  | .datetime => ∃ moment, value = .datetime moment
  | .optionalDatetime => value = .native .none ∨ ∃ moment, value = .datetime moment

/-- The own fields of a class, in their order, with values of their types. -/
def OwnFieldsOf (specs : List EdgeFieldSpec) (own : List (String × OwnValue)) : Prop :=
  List.Forall₂ (fun (spec : EdgeFieldSpec) (entry : String × OwnValue) =>
    entry.1 = spec.name ∧ spec.Holds entry.2) specs own

/-- The fields are those of an instance of the class: it has the class's type and fields, and its
validators raise nothing. -/
structure EdgeFields.InstanceOf (runtime : Runtime) (fields : EdgeFields) (cls : EdgeClass) :
    Prop where
  payloadType : fields.base.payloadType = cls.payloadType
  baseOwn : fields.base.own = []
  own : OwnFieldsOf cls.fields fields.own
  accepted : cls.refusal runtime fields = none

/-- The dicts among the values of the data have each key once, as in Python. -/
def KeysApart (data : PyDict) : Prop :=
  ∀ name entries, data.get name = some (.dict entries) → (entries.map Prod.fst).Nodup

section

variable {runtime : Runtime} {conversions : Conversions} {cls : EdgeClass} {data : PyDict}

theorem mapEntries_eq_ok {α : Type} {name : String} {check : String → PyValue → Checked α}
    {entries : PyDict} {values : List (String × α)}
    (checked : mapEntries name check entries = .ok values) :
    values.map Prod.fst = entries.map Prod.fst := by
  induction entries generalizing values with
  | nil =>
    obtain rfl := Except.ok.inj checked
    rfl
  | cons entry rest inductionHypothesis =>
    obtain ⟨⟨first, others⟩, parts, rfl⟩ := except_map_eq_ok.mp checked
    rw [List.map_cons, List.map_cons, inductionHypothesis (Checked.both_eq_ok.mp parts).2]

/-- A checked dict stands in the order of its keys. -/
theorem mapValue_eq_ok {α : Type} {name : String} {check : String → PyValue → Checked α}
    {value : PyValue} {values : List (String × α)}
    (apart : ∀ entries, value = .dict entries → (entries.map Prod.fst).Nodup)
    (checked : mapValue name check value = .ok values) : Json.Ordered values := by
  cases value with
  | dict entries =>
    obtain ⟨unsorted, mapped, rfl⟩ := except_map_eq_ok.mp checked
    refine Json.ordered_sortByKey ?_
    rw [mapEntries_eq_ok mapped]
    exact apart entries rfl
  | _ => cases checked

theorem modelItems_eq_ok {model : InlineModel} {name : String} {index : Nat} {items : List PyValue}
    {rows : List PyDict} (checked : modelItems runtime model name index items = .ok rows) :
    ∀ row ∈ rows, model.Conforms row := by
  induction items generalizing index rows with
  | nil =>
    obtain rfl := Except.ok.inj checked
    simp
  | cons item rest inductionHypothesis =>
    obtain ⟨⟨first, others⟩, parts, rfl⟩ := except_map_eq_ok.mp checked
    obtain ⟨here, later⟩ := Checked.both_eq_ok.mp parts
    intro row member
    rcases List.mem_cons.mp member with rfl | inside
    · cases item with
      | dict entries => exact ownFields_eq_ok (except_mapError_eq_ok.mp here)
      | _ => cases here
    · exact inductionHypothesis later row inside

theorem optionalValue_eq_ok {α : Type} {none? result : α} {check : PyValue → Checked α}
    {value : PyValue} (checked : optionalValue none? check value = .ok result) :
    result = none? ∨ check value = .ok result := by
  unfold optionalValue at checked
  split at checked
  · exact Or.inl (Except.ok.inj checked).symm
  · exact Or.inr checked

/-- A field that passed holds a value of its type. -/
theorem holds_of_checkIn {spec : EdgeFieldSpec} {value : OwnValue} (apart : KeysApart data)
    (checked : spec.checkIn runtime conversions data = .ok value) : spec.Holds value := by
  unfold EdgeFieldSpec.checkIn at checked
  unfold EdgeFieldSpec.Holds
  cases type : spec.type with
  | shared type =>
    simp only [type] at checked ⊢
    obtain ⟨plain, passed, rfl⟩ := except_map_eq_ok.mp checked
    exact ⟨plain, rfl, checkIn_eq_ok passed⟩
  | strList =>
    simp only [type] at checked ⊢
    obtain ⟨texts, _, rfl⟩ := except_map_eq_ok.mp checked
    exact ⟨texts, rfl⟩
  | optionalInt =>
    simp only [type] at checked ⊢
    obtain ⟨plain, passed, rfl⟩ := except_map_eq_ok.mp checked
    rcases field_default passed with ⟨_, rfl⟩ | ⟨given, _, passed⟩
    · exact Or.inl rfl
    · rcases optionalValue_eq_ok passed with rfl | passed
      · exact Or.inl rfl
      · obtain ⟨number, _, rfl⟩ := except_map_eq_ok.mp passed
        exact Or.inr ⟨number, rfl⟩
  | bool default =>
    simp only [type] at checked ⊢
    obtain ⟨truth, _, rfl⟩ := except_map_eq_ok.mp checked
    exact ⟨truth, rfl⟩
  | optionalStrMap =>
    simp only [type] at checked ⊢
    obtain ⟨plain, passed, rfl⟩ := except_map_eq_ok.mp checked
    rcases field_default passed with ⟨_, rfl⟩ | ⟨given, found, passed⟩
    · exact Or.inl rfl
    · rcases optionalValue_eq_ok passed with rfl | passed
      · exact Or.inl rfl
      · obtain ⟨entries, mapped, rfl⟩ := except_map_eq_ok.mp passed
        refine Or.inr ⟨entries, mapValue_eq_ok (fun others same => ?_) mapped, rfl⟩
        exact apart spec.name others (by rw [found, same])
  | floatMap =>
    simp only [type] at checked ⊢
    obtain ⟨entries, passed, rfl⟩ := except_map_eq_ok.mp checked
    obtain ⟨given, found, mapped⟩ := field_required passed
    refine ⟨entries, mapValue_eq_ok (fun others same => ?_) mapped, rfl⟩
    exact apart spec.name others (by rw [found, same])
  | models model =>
    simp only [type] at checked ⊢
    obtain ⟨rows, passed, rfl⟩ := except_map_eq_ok.mp checked
    obtain ⟨given, _, listed⟩ := field_required passed
    refine ⟨rows, ?_, rfl⟩
    cases given with
    | list items => exact modelItems_eq_ok listed
    | _ => cases listed
  | datetime =>
    simp only [type] at checked ⊢
    obtain ⟨moment, _, rfl⟩ := except_map_eq_ok.mp checked
    exact ⟨moment, rfl⟩
  | optionalDatetime =>
    simp only [type] at checked ⊢
    rcases field_default checked with ⟨_, rfl⟩ | ⟨given, _, passed⟩
    · exact Or.inl rfl
    · rcases optionalValue_eq_ok passed with rfl | passed
      · exact Or.inl rfl
      · obtain ⟨moment, _, rfl⟩ := except_map_eq_ok.mp passed
        exact Or.inr ⟨moment, rfl⟩

theorem edgeFields_eq_ok {specs : List EdgeFieldSpec} {own : List (String × OwnValue)}
    (apart : KeysApart data) (checked : edgeFields runtime conversions data specs = .ok own) :
    OwnFieldsOf specs own := by
  induction specs generalizing own with
  | nil =>
    obtain rfl := Except.ok.inj checked
    exact .nil
  | cons spec rest inductionHypothesis =>
    obtain ⟨⟨value, others⟩, parts, rfl⟩ := except_map_eq_ok.mp checked
    obtain ⟨first, following⟩ := Checked.both_eq_ok.mp parts
    exact .cons ⟨rfl, holds_of_checkIn apart first⟩ (inductionHypothesis following)

/-- What a class constructs is an instance of it. -/
theorem edgeInstanceOf_init {payload : EdgePayload} (apart : KeysApart data)
    (built : cls.init runtime conversions data = .ok payload) :
    payload.InstanceOf runtime cls := by
  unfold EdgeClass.init at built
  split at built
  · rename_i fields done
    obtain rfl := Except.ok.inj built
    obtain ⟨_, normalized, normalizes, checked⟩ := EdgeClass.initFields_eq_ok done
    obtain ⟨base, own, accepted⟩ := EdgeClass.checkFields_eq_ok checked
    have kept : KeysApart normalized := by
      intro name entries found
      rcases normalizeSupersedes_eq_ok normalizes with ⟨rfl, _⟩ | ⟨texts, rfl, _⟩
      · exact apart name entries found
      · by_cases same : name = "supersedes"
        · rw [same, PyDict.get_set_self] at found
          cases Option.some.inj found
        · rw [PyDict.get_set_other data _ same] at found
          exact apart name entries found
    refine ⟨(FleetMemory.checkFields_eq_ok base).1, ?_, edgeFields_eq_ok kept own, accepted⟩
    obtain ⟨⟨project, identifier, domainTags, sourceRef, version, supersedes, own⟩, all, same⟩ :=
      except_map_eq_ok.mp base
    simp only [Checked.both_eq_ok] at all
    rw [← same]
    exact (Except.ok.inj all.2.2.2.2.2.2).symm
  · cases built

end

/-! ### Reading a dump back -/

/-- `json.loads` gives back a dict that `json.dumps` rendered, with the entries of every dict in it in
the order of their keys. -/
def ReadsCanonical (runtime : Runtime) (entries : PyDict) : Prop :=
  runtime.loads (Json.dumps (.dict entries)) = .ok (Json.canonical (.dict entries))

/-- A `float` and a `bool` field take a value of their type as it is. -/
structure Conversions.TakesOwn (conversions : Conversions) : Prop where
  float : ∀ value, conversions.laxFloat (.float value) = .ok value
  bool : ∀ value, conversions.laxBool (.bool value) = .ok value

/-- A `datetime` field takes a moment back from the text its JSON dump has for it. -/
def Conversions.ReadsMoment (conversions : Conversions) (moment : Timestamp) : Prop :=
  conversions.laxDatetime (.str moment.text) = .ok moment

/-- Every moment an own field holds is read back. -/
def Conversions.ReadsMoments (conversions : Conversions) (own : List (String × OwnValue)) : Prop :=
  ∀ entry ∈ own, ∀ moment, entry.2 = .datetime moment → conversions.ReadsMoment moment

/-- The fields of the inline models of a field have names of their own. -/
def EdgeFieldSpec.WellNamed (spec : EdgeFieldSpec) : Prop :=
  match spec.type with
  | .models model => (model.fields.map FieldSpec.name).Nodup
  | _ => True

instance (spec : EdgeFieldSpec) : Decidable spec.WellNamed := by
  unfold EdgeFieldSpec.WellNamed
  split <;> infer_instance

/-- The class's own fields have names of their own, and so have those of its inline models. -/
def EdgeClass.WellNamed (cls : EdgeClass) : Prop :=
  (baseNames ++ cls.fields.map EdgeFieldSpec.name ++ ["natural_key", "self"]).Nodup ∧
    ∀ spec ∈ cls.fields, spec.WellNamed

instance (cls : EdgeClass) : Decidable cls.WellNamed :=
  inferInstanceAs (Decidable (List.Nodup _ ∧ ∀ _ ∈ _, _))

/-- No field of the class holds a datetime. -/
def EdgeClass.Undated (cls : EdgeClass) : Prop :=
  ∀ spec ∈ cls.fields, spec.type ≠ .datetime ∧ spec.type ≠ .optionalDatetime

instance (cls : EdgeClass) : Decidable cls.Undated :=
  inferInstanceAs (Decidable (∀ _ ∈ _, _))

/-- A dict in the order of its keys, with values JSON has no order in, is canonical. -/
theorem canonical_dictOf {α : Type} {value : α → PyValue} {entries : List (String × α)}
    (leaf : ∀ content, Json.canonical (value content) = value content)
    (ordered : Json.Ordered entries) :
    Json.canonical (dictOf value entries) = dictOf value entries := by
  have same : Json.canonicalEntries (entries.map fun entry => (entry.1, value entry.2)) =
      entries.map fun entry => (entry.1, value entry.2) := by
    rw [Json.canonicalEntries_eq, List.map_map]
    exact List.map_congr_left fun entry _ => by rw [Function.comp_apply, leaf]
  rw [dictOf, Json.canonical, same, Json.sortByKey_map, Json.sortByKey_of_ordered ordered]

theorem plain_dictOf {α : Type} {floatOf : String → PyFloat} {value : α → PyValue}
    {entries : List (String × α)} (ordered : Json.Ordered entries)
    (leaf : ∀ entry ∈ entries, Json.Plain floatOf (value entry.2)) :
    Json.Plain floatOf (dictOf value entries) := by
  refine .dict _ ?_ fun entry member => ?_
  · rw [List.map_map]
    exact List.pairwise_map.mpr (ordered.imp fun before => before.ne)
  · obtain ⟨known, inside, rfl⟩ := List.mem_map.mp member
    exact leaf known inside

section

variable {runtime : Runtime} {conversions : Conversions} {cls : EdgeClass} {data : PyDict}

theorem mapValue_dictOf {α : Type} {name : String} {check : String → PyValue → Checked α}
    {value : α → PyValue} (takes : ∀ place content, check place (value content) = .ok content)
    {entries : List (String × α)} (ordered : Json.Ordered entries) :
    mapValue name check (dictOf value entries) = .ok entries := by
  have mapped (entries : List (String × α)) :
      mapEntries name check (entries.map fun entry => (entry.1, value entry.2)) = .ok entries := by
    induction entries with
    | nil => rfl
    | cons entry rest inductionHypothesis =>
      rw [List.map_cons, mapEntries, takes, inductionHypothesis]
      rfl
  rw [dictOf, mapValue, mapped]
  exact congrArg Except.ok (Json.sortByKey_of_ordered ordered)

/-- An inline model is read from its canonical dump. -/
theorem check_canonical {model : InlineModel} {row : PyDict} (takes : TakesIntegers runtime)
    (distinct : (model.fields.map FieldSpec.name).Nodup) (conforms : model.Conforms row)
    (place : String) : model.check runtime place (Json.canonical (.dict row)) = .ok row := by
  have names : model.fields.map FieldSpec.name = row.map Prod.fst :=
    Pairings.map_eq_map conforms fun _ _ _ here => here.1.symm
  have apart : (row.map Prod.fst).Nodup := by rwa [← names]
  rw [Json.canonical, InlineModel.check, ownFields_of_get takes conforms]
  · rfl
  · intro entry member
    obtain ⟨spec, _, _, holds⟩ := Pairings.exists_of_mem_right conforms member
    rw [Json.get_canonicalEntries apart, PyDict.get_of_mem apart member, Option.map_some,
      (flat_of_holds holds).2]

theorem modelItems_canonical {model : InlineModel} {rows : List PyDict}
    (takes : TakesIntegers runtime) (distinct : (model.fields.map FieldSpec.name).Nodup)
    (conform : ∀ row ∈ rows, model.Conforms row) (name : String) (index : Nat) :
    modelItems runtime model name index (rows.map fun row => Json.canonical (.dict row)) =
      .ok rows := by
  induction rows generalizing index with
  | nil => rfl
  | cons row rest inductionHypothesis =>
    rw [List.map_cons, modelItems,
      check_canonical takes distinct (conform row List.mem_cons_self),
      inductionHypothesis fun other member => conform other (List.mem_cons_of_mem _ member)]
    rfl

/-- A value of the field's type passes its check, as a dump has it. -/
theorem edge_checkIn_of_holds {spec : EdgeFieldSpec} {value : OwnValue}
    (takes : TakesIntegers runtime) (takesOwn : conversions.TakesOwn)
    (reads : ∀ moment, value = .datetime moment → conversions.ReadsMoment moment)
    (wellNamed : spec.WellNamed) (holds : spec.Holds value)
    (found : data.get spec.name = some (Json.canonical value.json)) :
    spec.checkIn runtime conversions data = .ok value := by
  unfold EdgeFieldSpec.Holds at holds
  unfold EdgeFieldSpec.WellNamed at wellNamed
  unfold EdgeFieldSpec.checkIn
  cases type : spec.type with
  | shared type =>
    simp only [type] at holds ⊢
    obtain ⟨plain, rfl, holds⟩ := holds
    rw [OwnValue.json, (flat_of_holds holds).2] at found
    rw [checkIn_of_holds takes holds found]
    rfl
  | strList =>
    simp only [type] at holds ⊢
    obtain ⟨texts, rfl⟩ := holds
    rw [OwnValue.json, Json.canonical_strs] at found
    rw [field_of_get found, strListValue_map]
    rfl
  | optionalInt =>
    simp only [type] at holds ⊢
    rw [field_of_get found]
    rcases holds with rfl | ⟨number, rfl⟩
    · rfl
    · show ((intValue runtime spec.name (.int number)).map PyValue.int).map _ = _
      rw [intValue, takes]
      rfl
  | bool default =>
    simp only [type] at holds ⊢
    obtain ⟨truth, rfl⟩ := holds
    rw [field_of_get found, converted, OwnValue.json, Json.canonical, takesOwn.bool]
    rfl
  | optionalStrMap =>
    simp only [type] at holds ⊢
    rw [field_of_get found]
    rcases holds with rfl | ⟨entries, ordered, rfl⟩
    · rfl
    · have mapped : mapValue spec.name strValue (dictOf .str entries) = .ok entries :=
        mapValue_dictOf (fun place text => show strValue place (.str text) = .ok text from rfl) ordered
      rw [OwnValue.json, canonical_dictOf (fun _ => rfl) ordered]
      show ((mapValue spec.name strValue (dictOf .str entries)).map (dictOf .str)).map _ = _
      rw [mapped]
      rfl
  | floatMap =>
    simp only [type] at holds ⊢
    obtain ⟨entries, ordered, rfl⟩ := holds
    rw [field_of_get found, OwnValue.json, canonical_dictOf (fun _ => rfl) ordered,
      mapValue_dictOf _ ordered]
    · rfl
    · intro place content
      rw [converted, takesOwn.float]
      rfl
  | models model =>
    simp only [type] at holds wellNamed ⊢
    obtain ⟨rows, conform, rfl⟩ := holds
    have listed : Json.canonical (.list (rows.map .dict)) =
        .list (rows.map fun row => Json.canonical (.dict row)) := by
      rw [Json.canonical, Json.canonicalItems_eq, List.map_map]
      rfl
    rw [field_of_get found, OwnValue.json, listed, modelListValue,
      modelItems_canonical takes wellNamed conform]
    rfl
  | datetime =>
    simp only [type] at holds ⊢
    obtain ⟨moment, rfl⟩ := holds
    have read := reads moment rfl
    rw [field_of_get found, converted, OwnValue.json, Json.canonical, read]
    rfl
  | optionalDatetime =>
    simp only [type] at holds ⊢
    rw [field_of_get found]
    rcases holds with rfl | ⟨moment, rfl⟩
    · rfl
    · have read := reads moment rfl
      show ((converted conversions.laxDatetime spec.name (.str moment.text)).map _) = _
      rw [converted, read]
      rfl

/-- Every own field is of a kind JSON has. -/
def Native (own : List (String × OwnValue)) : Prop :=
  ∀ entry ∈ own, ∃ value, entry.2 = .native value

theorem native_of_undated {own : List (String × OwnValue)} (undated : cls.Undated)
    (conforms : OwnFieldsOf cls.fields own) : Native own := by
  intro entry member
  obtain ⟨spec, listed, _, holds⟩ :
      ∃ spec ∈ cls.fields, entry.1 = spec.name ∧ spec.Holds entry.2 :=
    Pairings.exists_of_mem_right conforms member
  obtain ⟨notDatetime, notOptional⟩ := undated spec listed
  unfold EdgeFieldSpec.Holds at holds
  cases type : spec.type with
  | datetime => exact absurd type notDatetime
  | optionalDatetime => exact absurd type notOptional
  | shared type =>
    simp only [type] at holds
    obtain ⟨plain, same, _⟩ := holds
    exact ⟨plain, same⟩
  | strList | bool default =>
    simp only [type] at holds
    obtain ⟨content, same⟩ := holds
    exact ⟨_, same⟩
  | floatMap | models model =>
    simp only [type] at holds
    obtain ⟨content, _, same⟩ := holds
    exact ⟨_, same⟩
  | optionalInt =>
    simp only [type] at holds
    rcases holds with same | ⟨number, same⟩
    · exact ⟨_, same⟩
    · exact ⟨_, same⟩
  | optionalStrMap =>
    simp only [type] at holds
    rcases holds with same | ⟨entries, _, same⟩
    · exact ⟨_, same⟩
    · exact ⟨_, same⟩

theorem readsMoments_of_native {own : List (String × OwnValue)} (native : Native own) :
    conversions.ReadsMoments own := by
  intro entry member moment dated
  obtain ⟨value, plain⟩ := native entry member
  rw [plain] at dated
  cases dated

theorem edgeFields_of_get {specs : List EdgeFieldSpec} {own : List (String × OwnValue)}
    (takes : TakesIntegers runtime) (takesOwn : conversions.TakesOwn)
    (moments : conversions.ReadsMoments own) (wellNamed : ∀ spec ∈ specs, spec.WellNamed)
    (conforms : OwnFieldsOf specs own)
    (found : ∀ entry ∈ own, data.get entry.1 = some (Json.canonical entry.2.json)) :
    edgeFields runtime conversions data specs = .ok own := by
  unfold OwnFieldsOf at conforms
  induction conforms with
  | nil => rfl
  | @cons spec entry rest others head _ inductionHypothesis =>
    obtain ⟨named, holds⟩ := head
    have here := found entry List.mem_cons_self
    rw [named] at here
    rw [edgeFields, edge_checkIn_of_holds takes takesOwn (moments entry List.mem_cons_self)
        (wellNamed _ List.mem_cons_self) holds here,
      inductionHypothesis (fun other member => moments other (List.mem_cons_of_mem _ member))
        (fun other member => wellNamed other (List.mem_cons_of_mem _ member))
        fun other member => found other (List.mem_cons_of_mem _ member), ← named]
    rfl

theorem edge_wellNamed_of_mem (member : cls ∈ backwardEdgePayloads) : cls.WellNamed := by
  simp only [backwardEdgePayloads, List.mem_cons, List.not_mem_nil, or_false] at member
  rcases member with rfl | rfl | rfl | rfl | rfl | rfl <;> decide

theorem names_of_json {payload : EdgePayload} (instanceOf : payload.InstanceOf runtime cls) :
    payload.json.modelDump.map Prod.fst =
      baseNames ++ cls.fields.map EdgeFieldSpec.name ++ ["natural_key"] := by
  have own : payload.jsonOwn.map Prod.fst = cls.fields.map EdgeFieldSpec.name := by
    rw [EdgeFields.jsonOwn, List.map_map]
    exact (Pairings.map_eq_map instanceOf.own fun _ _ _ here => here.1.symm).symm
  rw [PayloadFields.modelDump, List.map_append, List.map_append, ← own]
  rfl

theorem nodup_json {payload : EdgePayload} (member : cls ∈ backwardEdgePayloads)
    (instanceOf : payload.InstanceOf runtime cls) :
    (payload.json.modelDump.map Prod.fst).Nodup := by
  rw [names_of_json instanceOf]
  refine (edge_wellNamed_of_mem member).1.sublist ?_
  rw [List.append_sublist_append_left]
  exact .cons_cons _ (.cons _ .slnil)

/-- The floats of a dict are read as themselves. -/
def OwnValue.ReadableFloats (value : OwnValue) : Prop :=
  ∀ entries, value = .native (.dict entries) →
    ∀ name number, (name, .float number) ∈ entries → Json.IsFloat PyFloat.mk number

theorem plain_of_conforms {model : InlineModel} {row : PyDict}
    (distinct : (model.fields.map FieldSpec.name).Nodup) (conforms : model.Conforms row) :
    Json.Plain PyFloat.mk (.dict row) := by
  have names : model.fields.map FieldSpec.name = row.map Prod.fst :=
    Pairings.map_eq_map conforms fun _ _ _ here => here.1.symm
  refine .dict row (names ▸ distinct) fun entry member => ?_
  obtain ⟨spec, -, -, holds⟩ := Pairings.exists_of_mem_right conforms member
  exact (flat_of_holds holds).1

/-- A dump has a plain value for every own field with readable floats. -/
theorem plain_of_edgeHolds {spec : EdgeFieldSpec} {value : OwnValue} (wellNamed : spec.WellNamed)
    (holds : spec.Holds value) (readable : value.ReadableFloats) :
    Json.Plain PyFloat.mk value.json := by
  unfold EdgeFieldSpec.Holds at holds
  unfold EdgeFieldSpec.WellNamed at wellNamed
  cases type : spec.type with
  | shared type =>
    simp only [type] at holds
    obtain ⟨plain, rfl, holds⟩ := holds
    exact (flat_of_holds holds).1
  | strList =>
    simp only [type] at holds
    obtain ⟨texts, rfl⟩ := holds
    exact Json.plain_strs _ texts
  | optionalInt =>
    simp only [type] at holds
    rcases holds with rfl | ⟨number, rfl⟩
    · exact .none
    · exact .int number
  | bool default =>
    simp only [type] at holds
    obtain ⟨truth, rfl⟩ := holds
    exact .bool truth
  | optionalStrMap =>
    simp only [type] at holds
    rcases holds with rfl | ⟨entries, ordered, rfl⟩
    · exact .none
    · exact plain_dictOf ordered fun entry _ => .str entry.2
  | floatMap =>
    simp only [type] at holds
    obtain ⟨entries, ordered, rfl⟩ := holds
    exact plain_dictOf ordered fun entry inside =>
      .float entry.2 (readable _ rfl entry.1 entry.2 (List.mem_map.mpr ⟨entry, inside, rfl⟩))
  | models model =>
    simp only [type] at holds wellNamed
    obtain ⟨rows, conform, rfl⟩ := holds
    refine .list _ fun item inside => ?_
    obtain ⟨row, listed, rfl⟩ := List.mem_map.mp inside
    exact plain_of_conforms wellNamed (conform row listed)
  | datetime =>
    simp only [type] at holds
    obtain ⟨moment, rfl⟩ := holds
    exact .str moment.text
  | optionalDatetime =>
    simp only [type] at holds
    rcases holds with rfl | ⟨moment, rfl⟩
    · exact .none
    · exact .str moment.text

/-- The reader gives back the dump of every instance with readable floats whose integers have
texts. -/
theorem readsCanonical_of_load {payload : EdgePayload}
    (reader : runtime.loads = Json.load PyFloat.mk) (member : cls ∈ backwardEdgePayloads)
    (instanceOf : payload.InstanceOf runtime cls)
    (readable : ∀ entry ∈ payload.own, entry.2.ReadableFloats)
    (short : Json.shortIntegers (.dict payload.json.modelDump) = true) :
    ReadsCanonical runtime payload.json.modelDump := by
  have own : ∀ entry ∈ payload.jsonOwn, Json.Plain PyFloat.mk entry.2 := by
    intro entry inside
    obtain ⟨field, listed, rfl⟩ := List.mem_map.mp inside
    obtain ⟨spec, known, -, holds⟩ := Pairings.exists_of_mem_right instanceOf.own listed
    exact plain_of_edgeHolds ((edge_wellNamed_of_mem member).2 spec known) holds
      (readable field listed)
  unfold ReadsCanonical
  rw [reader]
  exact Json.load_dumps (.dict _ (nodup_json member instanceOf) (plain_modelDump own)) short

/-- A class takes an instance back from its JSON dump, as `json.loads` reads it. -/
theorem edge_init_of_dump {payload : EdgePayload} (member : cls ∈ backwardEdgePayloads)
    (instanceOf : payload.InstanceOf runtime cls) (takes : TakesIntegers runtime)
    (takesOwn : conversions.TakesOwn) (moments : conversions.ReadsMoments payload.own) :
    cls.init runtime conversions
      (Json.sortByKey (Json.canonicalEntries payload.json.modelDump)) = .ok payload := by
  obtain ⟨data, loaded⟩ :
      ∃ data : PyDict, Json.sortByKey (Json.canonicalEntries payload.json.modelDump) = data :=
    ⟨_, rfl⟩
  rw [loaded]
  have names := names_of_json instanceOf
  have wellNamed := edge_wellNamed_of_mem member
  have distinct := nodup_json member instanceOf
  have noSelf : data.get "self" = none := by
    rw [← loaded, Json.get_canonicalEntries distinct, Option.map_eq_none_iff]
    refine PyDict.get_of_not_mem fun inside => ?_
    rw [names] at inside
    have apart := List.nodup_append.mp wellNamed.1
    rcases List.mem_append.mp inside with early | late
    · exact apart.2.2 "self" early "self" (by simp) rfl
    · exact absurd late (by decide)
  have found {name : String} {value : PyValue} (inside : (name, value) ∈ payload.json.modelDump) :
      data.get name = some (Json.canonical value) := by
    rw [← loaded, Json.get_canonicalEntries distinct, PyDict.get_of_mem distinct inside,
      Option.map_some]
  obtain ⟨project, identifier, domainTags, sourceRef, version, supersedes⟩ :=
    base_mem_modelDump payload.json.toPayloadFields
  have refs := found supersedes
  rw [Json.canonical_strs] at refs
  obtain ⟨normalized, normalizes, kept⟩ := normalizeSupersedes_of_valid refs
    payload.valid.distinct payload.valid.shaped
  have base : FleetMemory.checkFields runtime cls.baseClass normalized = .ok payload.base := by
    refine checkFields_of_get takes (fun entry inside => ?_) ?_ instanceOf.payloadType
    · rw [kept, found (List.mem_append_left _ (List.mem_append_left _ inside))]
      simp only [List.mem_cons, List.not_mem_nil, or_false] at inside
      rcases inside with rfl | rfl | rfl | rfl | rfl | rfl
      · rfl
      · rfl
      · exact congrArg some (Json.canonical_strs _)
      · rfl
      · rfl
      · exact congrArg some (Json.canonical_strs _)
    · rw [instanceOf.baseOwn]
      rfl
  have own : edgeFields runtime conversions normalized cls.fields = .ok payload.own :=
    edgeFields_of_get takes takesOwn moments wellNamed.2 instanceOf.own fun entry inside => by
        rw [kept]
        exact found (List.mem_append_left _ (List.mem_append_right _
          (List.mem_map.mpr ⟨entry, inside, rfl⟩)))
  have fields : cls.checkFields runtime conversions normalized = .ok payload.toEdgeFields :=
    EdgeClass.checkFields_of_accepted base own instanceOf.accepted
  have built : cls.initFields runtime conversions data = .ok payload.toEdgeFields := by
    unfold EdgeClass.initFields
    rw [noSelf, raiseIf, if_neg (by simp)]
    show (validateIdentifierIn data "project" >>= _) = _
    rw [validateIdentifierIn_of_get (found project) payload.valid.project]
    show (validateIdentifierIn data "identifier" >>= _) = _
    rw [validateIdentifierIn_of_get (found identifier) payload.valid.identifier]
    show (normalizeSupersedes data >>= _) = _
    rw [normalizes]
    show ((cls.checkFields runtime conversions normalized).mapError _ >>= _) = _
    rw [fields]
    show (raiseIf _ _ >>= _) = _
    have itself : payload.naturalKey ∉ payload.base.supersedes := payload.valid.notItself
    rw [raiseIf, if_neg itself]
    rfl
  unfold EdgeClass.init
  split
  · rename_i other done
    rw [built] at done
    obtain rfl := Except.ok.inj done
    rfl
  · rename_i error raised
    rw [built] at raised
    cases raised

end

/-! ### Storing an instance -/

section

variable {service : RelayService} {conversions : Conversions} {engine : SearchEngine}
  {cls : EdgeClass} {payload : EdgePayload} {store : Store}

/-- An instance is read back from the text of its JSON dump. -/
theorem edgeOf_dump (member : cls ∈ backwardEdgePayloads)
    (instanceOf : payload.InstanceOf service.runtime cls) (takes : TakesIntegers service.runtime)
    (takesOwn : conversions.TakesOwn) (moments : conversions.ReadsMoments payload.own)
    (reads : ReadsCanonical service.runtime payload.json.modelDump) :
    service.edgeOf conversions cls (Json.dumps (.dict payload.json.modelDump)) = .ok payload := by
  have body : service.parseBody (Json.dumps (.dict payload.json.modelDump)) =
      .ok (.dict (Json.sortByKey (Json.canonicalEntries payload.json.modelDump))) := by
    rw [parseBody, reads, Json.canonical]
  show (service.parseBody _ >>= _) = _
  rw [body]
  exact edge_init_of_dump member instanceOf takes takesOwn moments

theorem mapM_python (own : List (String × OwnValue)) (native : Native own) :
    (own.mapM fun (entry : String × OwnValue) =>
      entry.2.python?.map fun value => (entry.1, value)) =
        some (own.map fun entry => (entry.1, entry.2.json)) := by
  induction own with
  | nil => rfl
  | cons entry rest inductionHypothesis =>
    obtain ⟨value, plain⟩ := native entry List.mem_cons_self
    rw [List.mapM_cons,
      inductionHypothesis fun other member => native other (List.mem_cons_of_mem _ member),
      List.map_cons, plain]
    rfl

/-- `model_dump()` of an instance without datetimes is its dump of mode `"json"`. -/
theorem python?_of_native (native : Native payload.own) : payload.python? = some payload.json := by
  rw [EdgePayload.python?, EdgeFields.pythonOwn?, mapM_python _ native]
  rfl

/-- `json.dumps` does not take the dump of an instance that holds a datetime. -/
theorem python?_of_datetime {entry : String × OwnValue} {moment : Timestamp}
    (member : entry ∈ payload.own) (dated : entry.2 = .datetime moment) :
    payload.python? = none := by
  rw [EdgePayload.python?, EdgeFields.pythonOwn?, Option.map_eq_none_iff]
  generalize payload.own = own at member
  induction own with
  | nil => cases member
  | cons other rest inductionHypothesis =>
    rw [List.mapM_cons]
    rcases List.mem_cons.mp member with rfl | later
    · rw [dated]
      rfl
    · rw [inductionHypothesis later]
      cases other.2.python? <;> rfl

theorem datetime_of_edgeFields {runtime : Runtime} {data : PyDict} {specs : List EdgeFieldSpec}
    {own : List (String × OwnValue)} (checked : edgeFields runtime conversions data specs = .ok own)
    {spec : EdgeFieldSpec} (member : spec ∈ specs) (dated : spec.type = .datetime) :
    ∃ entry ∈ own, ∃ moment, entry.2 = .datetime moment := by
  induction specs generalizing own with
  | nil => cases member
  | cons first rest inductionHypothesis =>
    obtain ⟨⟨value, others⟩, parts, rfl⟩ := except_map_eq_ok.mp checked
    obtain ⟨here, following⟩ := Checked.both_eq_ok.mp parts
    rcases List.mem_cons.mp member with rfl | later
    · simp only [EdgeFieldSpec.checkIn, dated] at here
      obtain ⟨moment, _, same⟩ := except_map_eq_ok.mp here
      exact ⟨_, List.mem_cons_self, moment, same.symm⟩
    · obtain ⟨entry, inside, holds⟩ := inductionHypothesis following later
      exact ⟨entry, List.mem_cons_of_mem _ inside, holds⟩

/-- What a class with a required datetime constructs is refused by `json.dumps`. -/
theorem python?_of_init {runtime : Runtime} {data : PyDict} {spec : EdgeFieldSpec}
    (member : spec ∈ cls.fields) (dated : spec.type = .datetime)
    (built : cls.init runtime conversions data = .ok payload) : payload.python? = none := by
  unfold EdgeClass.init at built
  split at built
  · rename_i fields done
    obtain ⟨_, normalized, _, checked⟩ := EdgeClass.initFields_eq_ok done
    obtain ⟨entry, inside, moment, holds⟩ :=
      datetime_of_edgeFields (EdgeClass.checkFields_eq_ok checked).2.1 member dated
    rw [← Except.ok.inj built]
    exact python?_of_datetime inside holds
  · cases built

/-- A backward-edge class with a datetime has a required one. -/
theorem required_of_dated (member : cls ∈ backwardEdgePayloads) (dated : ¬cls.Undated) :
    ∃ spec ∈ cls.fields, spec.type = .datetime := by
  simp only [backwardEdgePayloads, List.mem_cons, List.not_mem_nil, or_false] at member
  rcases member with rfl | rfl | rfl | rfl | rfl | rfl
  · exact ⟨⟨"started_at", .datetime⟩, by decide, rfl⟩
  · exact absurd (by decide) dated
  · exact absurd (by decide) dated
  · exact absurd (by decide) dated
  · exact absurd (by decide) dated
  · exact ⟨⟨"planned_at", .datetime⟩, by decide, rfl⟩

variable (service conversions engine cls) in
/-- The ingest of an episode of the class's type reads the body, writes what it reads, and sorts what
that raises. -/
theorem run_ingestWith {episode : MemoryEpisodeV1} (json : episode.contentFormat = "json")
    (typed : episode.payloadType = some cls.payloadType) (store : Store) :
    (service.ingestWith conversions cls episode).run (storeWorld engine) store =
      let run := (lift (service.edgeOf conversions cls episode.body) >>= fun payload =>
        service.writer.writeEdge cls payload (some (episodeMetaOf episode))).run
          (storeWorld engine) store
      (run.1.mapFault service.ingestError, run.2) := by
  have routed : service.routeWith conversions cls episode =
      (lift (service.edgeOf conversions cls episode.body) >>= fun payload =>
        service.writer.writeEdge cls payload (some (episodeMetaOf episode))) :=
    if_pos ⟨json, typed⟩
  rw [← routed]
  exact Program.run_tryCatch_translate _ _ _

/-- A write whose dump holds a datetime raises before any store call. -/
theorem run_writeEdge_of_datetime {writer : DeterministicWriter} {episodeMeta : Option EpisodeMeta}
    (unrendered : payload.python? = none) :
    ∃ error, (writer.writeEdge cls payload episodeMeta).run (storeWorld engine) store =
      (.raised error, store) := by
  unfold writeEdge
  rw [unrendered]
  cases raiseIf (payload.base.payloadType ≠ cls.payloadType ∧
      registered payload.base.payloadType = false) _ with
  | error error => exact ⟨error, rfl⟩
  | ok done =>
    cases validateNamespace (recordNamespace payload.json) with
    | error error => exact ⟨error, rfl⟩
    | ok done => exact ⟨notSerializable, rfl⟩

/-- The ingest of an instance of a class with datetimes raises, and leaves the store as it is. -/
theorem run_ingestWith_of_dated {episode : MemoryEpisodeV1} (member : cls ∈ backwardEdgePayloads)
    (dated : ¬cls.Undated) (json : episode.contentFormat = "json")
    (typed : episode.payloadType = some cls.payloadType) (store : Store) :
    ∃ error, (service.ingestWith conversions cls episode).run (storeWorld engine) store =
      (.raised error, store) := by
  obtain ⟨spec, inside, required⟩ := required_of_dated member dated
  rw [run_ingestWith service conversions engine cls json typed]
  cases parsed : service.edgeOf conversions cls episode.body with
  | error error => exact ⟨service.ingestError error, rfl⟩
  | ok payload =>
    obtain ⟨value, _, built⟩ := except_bind_eq_ok.mp parsed
    have unrendered : payload.python? = none := by
      split at built
      · exact python?_of_init inside required built
      · cases built
    obtain ⟨error, raises⟩ := @run_writeEdge_of_datetime engine cls payload store service.writer
      (some (episodeMetaOf episode)) unrendered
    refine ⟨service.ingestError error, ?_⟩
    rw [lift_ok_bind, raises]
    rfl

/-- The project of the payload is a namespace segment exactly when its whole namespace is valid. -/
theorem validateNamespace_json (member : cls ∈ backwardEdgePayloads)
    (typed : payload.base.payloadType = cls.payloadType) :
    validateNamespace (recordNamespace payload.json) = .ok () ↔
      validPart payload.base.project = true := by
  have validType : validPart payload.base.payloadType = true := by
    rw [typed]
    simp only [backwardEdgePayloads, List.mem_cons, List.not_mem_nil, or_false] at member
    rcases member with rfl | rfl | rfl | rfl | rfl | rfl <;> decide
  rw [validateNamespace_eq_ok]
  constructor
  · intro valid
    exact valid payload.base.project (by simp [recordNamespace, EdgePayload.json, EdgePayload.rendered])
  · intro valid part inside
    simp only [recordNamespace, List.mem_cons, List.not_mem_nil, or_false] at inside
    rcases inside with rfl | rfl | rfl
    · decide
    · exact valid
    · exact validType

/-- The ingest of an instance of a class without datetimes writes the instance as the writer writes
any payload, unless its project is no namespace segment. -/
theorem run_ingestWith_of_undated (member : cls ∈ backwardEdgePayloads) (undated : cls.Undated)
    (instanceOf : payload.InstanceOf service.runtime cls) (takes : TakesIntegers service.runtime)
    (takesOwn : conversions.TakesOwn)
    (reads : ReadsCanonical service.runtime payload.json.modelDump)
    (room : store.keys.card < forwardPage * service.writer.pages) :
    let episode := buildEnvelope service.runtime payload.json
    let run := (service.ingestWith conversions cls episode).run (storeWorld engine) store
    (validPart payload.base.project = true ∧ run = (.returned (),
        service.writer.written engine payload.json (some (episodeMetaOf episode)) store)) ∨
      (validPart payload.base.project = false ∧ ∃ error, run = (.raised error, store)) := by
  intro episode run
  have typed : episode.payloadType = some cls.payloadType := congrArg some instanceOf.payloadType
  have native : Native payload.own := native_of_undated undated instanceOf.own
  have parsed : service.edgeOf conversions cls episode.body = .ok payload :=
    edgeOf_dump member instanceOf takes takesOwn (readsMoments_of_native native) reads
  have known : ∀ error, raiseIf (payload.base.payloadType ≠ cls.payloadType ∧
      registered payload.base.payloadType = false) error = .ok () :=
    fun error => raiseIf_neg fun unknown => unknown.1 instanceOf.payloadType
  have written : run = _ := run_ingestWith service conversions engine cls rfl typed store
  rw [parsed, lift_ok_bind, writeEdge, known, lift_ok_bind,
    python?_of_native native] at written
  have valid := @validateNamespace_json cls payload member instanceOf.payloadType
  cases checked : validateNamespace (recordNamespace payload.json) with
  | ok done =>
    rw [checked, lift_ok_bind, (run_upsert service.writer engine payload.json _ store).resolve_right
      fun hung => hung.2.2 ((length_ranking_le engine _ store).trans_lt room)] at written
    exact Or.inl ⟨valid.mp checked, written⟩
  | error error =>
    rw [checked, lift_error_bind] at written
    refine Or.inr ⟨?_, service.ingestError error, written⟩
    rw [checked] at valid
    simpa using valid

/-- An instance that holds a datetime is read from its envelope; the ingest then fails as a transient
failure, and leaves the store as it is. -/
theorem run_ingestWith_of_datetime (member : cls ∈ backwardEdgePayloads)
    (instanceOf : payload.InstanceOf service.runtime cls) (takes : TakesIntegers service.runtime)
    (takesOwn : conversions.TakesOwn) (moments : conversions.ReadsMoments payload.own)
    (reads : ReadsCanonical service.runtime payload.json.modelDump)
    (valid : validPart payload.base.project = true) {entry : String × OwnValue}
    {moment : Timestamp} (inside : entry ∈ payload.own) (dated : entry.2 = .datetime moment) :
    (service.ingestWith conversions cls (buildEnvelope service.runtime payload.json)).run
        (storeWorld engine) store =
      (.raised (.transientIngest ("Unexpected error during ingest: " ++
        "Object of type datetime is not JSON serializable")), store) := by
  have typed : (buildEnvelope service.runtime payload.json).payloadType = some cls.payloadType :=
    congrArg some instanceOf.payloadType
  have parsed : service.edgeOf conversions cls (buildEnvelope service.runtime payload.json).body =
      .ok payload :=
    edgeOf_dump member instanceOf takes takesOwn moments reads
  have known : ∀ error, raiseIf (payload.base.payloadType ≠ cls.payloadType ∧
      registered payload.base.payloadType = false) error = .ok () :=
    fun error => raiseIf_neg fun unknown => unknown.1 instanceOf.payloadType
  rw [run_ingestWith service conversions engine cls rfl typed, parsed, lift_ok_bind, writeEdge, known,
    lift_ok_bind, (validateNamespace_json member instanceOf.payloadType).mpr valid, lift_ok_bind,
    python?_of_datetime inside dated]
  rfl

end

/-! ### When an instance is stored -/

section

variable {writer : DeterministicWriter} {engine : SearchEngine} {payload : Payload}
  {episodeMeta : Option EpisodeMeta} {store : Store}

/-- After a write the payload's record has the payload's content, or the content it had when no record
was put. -/
theorem content_written :
    ∃ value, (writer.written engine payload episodeMeta store).lookup (writer.recordPlace payload) =
        some value ∧
      ((writer.Puts payload store ∧ value.content = Json.dumps (.dict payload.modelDump)) ∨
        (¬writer.Puts payload store ∧ ∃ existing,
          store.lookup (writer.recordPlace payload) = some existing ∧
            value.content = existing.content)) := by
  rw [written, lookup_markAll, lookup_upserted]
  by_cases puts : writer.Puts payload store
  · rw [if_pos ⟨puts, rfl⟩, Option.map_some]
    refine ⟨_, rfl, Or.inl ⟨puts, ?_⟩⟩
    rw [← @content_putValue writer engine payload episodeMeta store]
    split <;> rfl
  · rw [if_neg fun both => puts both.1]
    obtain ⟨existing, stored, _⟩ := Option.bind_eq_some_iff.mp (not_not.mp puts)
    rw [stored, Option.map_some]
    refine ⟨_, rfl, Or.inr ⟨puts, existing, rfl, ?_⟩⟩
    split <;> rfl

/-- A write gives no other record a natural key. -/
theorem naturalKey_written_other {place : Place} (other : place ≠ writer.recordPlace payload) :
    ((writer.written engine payload episodeMeta store).lookup place).map (·.naturalKey) =
      (store.lookup place).map (·.naturalKey) := by
  rw [written, lookup_markAll, lookup_upserted, if_neg fun both => other both.2, Option.map_map]
  refine congrFun (congrArg Option.map (funext fun value => ?_)) _
  rw [Function.comp_apply]
  split <;> rfl

end

section

variable (service : RelayService) (conversions : Conversions) (engine : SearchEngine)
  (cls : EdgeClass) (payload : EdgePayload) (store : Store)

/-- With the class in the registry, the ingest of the payload's envelope returns; it leaves exactly
one record under the payload's natural key, and gives no record elsewhere a natural key it had not;
and the class rebuilds the payload from the record's content. -/
def IngestStores : Prop :=
  let run := (service.ingestWith conversions cls (buildEnvelope service.runtime payload.json)).run
    (storeWorld engine) store
  run.1 = .returned () ∧
    (∃! value, run.2.lookup (service.writer.recordPlace payload.json) = some value) ∧
    (∀ place ≠ service.writer.recordPlace payload.json,
      (run.2.lookup place).map (·.naturalKey) = (store.lookup place).map (·.naturalKey)) ∧
    ∀ value, run.2.lookup (service.writer.recordPlace payload.json) = some value →
      ∃ rebuilt, service.edgeOf conversions cls value.content = .ok rebuilt ∧
        rebuilt.naturalKey = payload.naturalKey ∧ rebuilt.toEdgeFields = payload.toEdgeFields

end

/-- With its class in the registry, an instance is stored and can be rebuilt from its record exactly
when its class has no datetime, its project is a namespace segment, and no record of the same content
hash stands that it cannot be rebuilt from. -/
theorem ingestStores_iff (service : RelayService) (conversions : Conversions) (engine : SearchEngine)
    (cls : EdgeClass) (payload : EdgePayload) (store : Store) (member : cls ∈ backwardEdgePayloads)
    (instanceOf : payload.InstanceOf service.runtime cls) (takes : TakesIntegers service.runtime)
    (takesOwn : conversions.TakesOwn)
    (reads : ReadsCanonical service.runtime payload.json.modelDump)
    (room : store.keys.card < forwardPage * service.writer.pages) :
    IngestStores service conversions engine cls payload store ↔
      cls.Undated ∧ validPart payload.base.project = true ∧
        (service.writer.Puts payload.json store ∨
          ∃ value, store.lookup (service.writer.recordPlace payload.json) = some value ∧
            service.edgeOf conversions cls value.content = .ok payload) := by
  by_cases undated : cls.Undated
  · have parsed : service.edgeOf conversions cls (Json.dumps (.dict payload.json.modelDump)) =
        .ok payload :=
      edgeOf_dump member instanceOf takes takesOwn
        (readsMoments_of_native (native_of_undated undated instanceOf.own)) reads
    rcases run_ingestWith_of_undated member undated instanceOf takes takesOwn reads room with
      ⟨valid, run⟩ | ⟨invalid, error, run⟩
    · obtain ⟨record, stored, holds⟩ := @content_written service.writer engine payload.json
        (some (episodeMetaOf (buildEnvelope service.runtime payload.json))) store
      refine ⟨fun stores => ⟨undated, valid, ?_⟩, fun stands => ?_⟩
      · obtain ⟨_, _, _, rebuilds⟩ := stores
        rcases holds with ⟨puts, _⟩ | ⟨_, existing, stood, same⟩
        · exact Or.inl puts
        · obtain ⟨rebuilt, built, _, alike⟩ := rebuilds record (by rw [run]; exact stored)
          obtain rfl : rebuilt = payload :=
            EdgePayload.ext (congrArg EdgeFields.base alike) (congrArg EdgeFields.own alike)
          exact Or.inr ⟨existing, stood, by rw [← same]; exact built⟩
      · unfold IngestStores
        rw [run]
        refine ⟨rfl, ⟨record, stored, fun other found => ?_⟩, fun place other => ?_, ?_⟩
        · exact (Option.some.inj (stored.symm.trans found)).symm
        · exact naturalKey_written_other other
        · intro value found
          obtain rfl : record = value := Option.some.inj (stored.symm.trans found)
          refine ⟨payload, ?_, rfl, rfl⟩
          rcases holds with ⟨_, same⟩ | ⟨kept, existing, stood, same⟩
          · rw [same]
            exact parsed
          · obtain ⟨value, found, rebuilt⟩ := stands.2.2.resolve_left kept
            obtain rfl : existing = value := Option.some.inj (stood.symm.trans found)
            rw [same]
            exact rebuilt
    · refine ⟨fun stores => ?_, fun stands => ?_⟩
      · have returned := stores.1
        rw [run] at returned
        cases returned
      · rw [stands.2.1] at invalid
        cases invalid
  · have typed : (buildEnvelope service.runtime payload.json).payloadType = some cls.payloadType :=
      congrArg some instanceOf.payloadType
    obtain ⟨error, run⟩ := @run_ingestWith_of_dated service conversions engine cls _ member undated
      rfl typed store
    refine ⟨fun stores => ?_, fun stands => absurd stands.1 undated⟩
    have returned := stores.1
    rw [run] at returned
    cases returned

section Sample

/-- The conversions on values of the fields' own types, and on the texts of datetimes. -/
def ownConversions : Conversions where
  laxFloat
    | .float value => .ok value
    | _ => .error "Input should be a valid number"
  laxBool
    | .bool value => .ok value
    | _ => .error "Input should be a valid boolean"
  laxDatetime
    | .str text => .ok ⟨text⟩
    | _ => .error "Input should be a valid datetime"

theorem takesOwn_ownConversions : ownConversions.TakesOwn where
  float _ := rfl
  bool _ := rfl

/-- A graded run of a suite. -/
def gradedRun : EdgePayload where
  base := {
    payloadType := "grading_outcome", project := "fleet_evals",
    identifier := "po_heldout_idea_f36a866abc12", domainTags := ["role:coach"],
    sourceRef := "runs/2026-07-07/po-heldout.json", version := 1, supersedes := [], own := [] }
  own := [("suite_id", .native (.str "po-heldout-idea")),
    ("suite_frozen_sha", .native (.str "f36a866")), ("model_id", .native (.str "gemma4-po")),
    ("checkpoint_id", .native (.str "f36a866abc12")), ("dataset_sha", .native .none),
    ("adapter_ref", .native .none), ("gguf_digest", .native .none),
    ("llama_swap_entry", .native .none),
    ("per_criterion_scores", .native (dictOf .float [("clarity", ⟨"4.0"⟩), ("coverage", ⟨"3.5"⟩)])),
    ("verdict", .native (.str "pass")),
    ("pre_registered_disposition_ref", .native (.str "fleet-evals/RESULTS/po-heldout.md")),
    ("rollout_count", .native (.int 6)), ("voided", .native (.bool false)),
    ("voided_reason", .native .none)]
  valid := ⟨by decide, by decide, by decide, by decide, by decide, by decide⟩

/-- A spec that was issued, with the time it was planned at. -/
def issuedSpec : EdgePayload where
  base := {
    payloadType := "spec_survival", project := "study_tutor", identifier := "feat_spl_042",
    domainTags := ["role:product-owner"], sourceRef := "planning_runs/cid-123", version := 1,
    supersedes := [], own := [] }
  own := [("spec_id", .native (.str "FEAT-SPL-042")), ("correlation_id", .native (.str "cid-123")),
    ("survival_state", .native (.str "spec_issued")),
    ("spec_ref", .native (.str "feature_spec_inputs/cid-123.md")),
    ("planned_at", .datetime ⟨"2026-07-07T10:00:00Z"⟩), ("build_status", .native .none),
    ("build_outcome_ref", .native .none), ("built_at", .native .none),
    ("acceptance_verdict", .native .none), ("live_verdict_ref", .native .none),
    ("accepted_at", .native .none), ("edges_present", .native (.list [.str "spec"]))]
  valid := ⟨by decide, by decide, by decide, by decide, by decide, by decide⟩

/-- The service on the keys and the dumps of the two. -/
def edgeService : RelayService where
  writer := ⟨runtime, 1⟩
  settings := ⟨1000, ⟨"0.15"⟩⟩
where
  semantic (payload : Payload) : String :=
    Json.dumps (.dict (payload.modelDump.filter fun entry => entry.1 != "version"))
  runtime : Runtime :=
    { Runtime.ofTables
        [(gradedRun.naturalKey, "e2cd41c6-afd8-5e5e-9f30-af9d96ec8a6e"),
          (issuedSpec.naturalKey, "b1198eff-7dc3-5c51-8d1c-5833dcb05bda")]
        [(gradedRun.naturalKey, "ea2e28dc27e11f79eb9d32792e0429c6dada6ba6f0252e4c652d669a96611c2a"),
          (issuedSpec.naturalKey, "aa4fdf6e3536b2c38341515b96aa9ff47827a9e4a4aefd0c5e775bd1edab47af"),
          (semantic gradedRun.json,
            "5b18673c0efb0a1663b94f9341c013893cafb221ca31ace5b08c9ac91ccdfe10")] [] with
      loads := Json.load PyFloat.mk }

theorem instanceOf_gradedRun : gradedRun.InstanceOf edgeService.runtime GradingOutcomePayload where
  payloadType := rfl
  baseOwn := rfl
  own :=
    .cons ⟨rfl, _, rfl, _, rfl⟩ <| .cons ⟨rfl, _, rfl, _, rfl⟩ <| .cons ⟨rfl, _, rfl, _, rfl⟩ <|
    .cons ⟨rfl, _, rfl, _, rfl⟩ <| .cons ⟨rfl, _, rfl, Or.inl rfl⟩ <|
    .cons ⟨rfl, _, rfl, Or.inl rfl⟩ <| .cons ⟨rfl, _, rfl, Or.inl rfl⟩ <|
    .cons ⟨rfl, _, rfl, Or.inl rfl⟩ <|
    .cons ⟨rfl, [("clarity", ⟨"4.0"⟩), ("coverage", ⟨"3.5"⟩)], List.pairwise_pair.mpr (by decide), rfl⟩ <|
    .cons ⟨rfl, _, rfl, _, rfl⟩ <| .cons ⟨rfl, _, rfl, _, rfl⟩ <| .cons ⟨rfl, Or.inr ⟨_, rfl⟩⟩ <|
    .cons ⟨rfl, _, rfl⟩ <| .cons ⟨rfl, _, rfl, Or.inl rfl⟩ .nil
  accepted := by decide

theorem instanceOf_issuedSpec : issuedSpec.InstanceOf edgeService.runtime SpecSurvivalPayload where
  payloadType := rfl
  baseOwn := rfl
  own :=
    .cons ⟨rfl, _, rfl, _, rfl⟩ <| .cons ⟨rfl, _, rfl, _, rfl⟩ <| .cons ⟨rfl, _, rfl, _, rfl⟩ <|
    .cons ⟨rfl, _, rfl, _, rfl⟩ <| .cons ⟨rfl, _, rfl⟩ <| .cons ⟨rfl, _, rfl, Or.inl rfl⟩ <|
    .cons ⟨rfl, _, rfl, Or.inl rfl⟩ <| .cons ⟨rfl, Or.inl rfl⟩ <|
    .cons ⟨rfl, _, rfl, Or.inl rfl⟩ <| .cons ⟨rfl, _, rfl, Or.inl rfl⟩ <|
    .cons ⟨rfl, Or.inl rfl⟩ <| .cons ⟨rfl, ["spec"], rfl⟩ .nil
  accepted := by decide

/-- The scores of the graded run are read as themselves. -/
theorem readableFloats_gradedRun : ∀ entry ∈ gradedRun.own, entry.2.ReadableFloats := by
  intro entry member entries same name number inside
  simp only [gradedRun, dictOf, List.map_cons, List.map_nil, List.mem_cons, List.not_mem_nil,
    or_false] at member
  rcases member with rfl | rfl | rfl | rfl | rfl | rfl | rfl | rfl | rfl | rfl | rfl | rfl | rfl | rfl
    <;> cases same
  simp only [List.mem_cons, Prod.mk.injEq, PyValue.float.injEq, List.not_mem_nil, or_false] at inside
  rcases inside with ⟨-, rfl⟩ | ⟨-, rfl⟩
  · have spelled : "4.0".toList = ['4'] ++ '.' :: ['0'] := by decide
    exact Json.isFloat_of_point spelled
      ⟨by simp, List.forall_mem_singleton.mpr (by decide), by simp⟩ (by simp)
      (List.forall_mem_singleton.mpr (by decide))
  · have spelled : "3.5".toList = ['3'] ++ '.' :: ['5'] := by decide
    exact Json.isFloat_of_point spelled
      ⟨by simp, List.forall_mem_singleton.mpr (by decide), by simp⟩ (by simp)
      (List.forall_mem_singleton.mpr (by decide))

theorem readsCanonical_gradedRun :
    ReadsCanonical edgeService.runtime gradedRun.json.modelDump :=
  readsCanonical_of_load rfl (by simp [backwardEdgePayloads]) instanceOf_gradedRun
    readableFloats_gradedRun (by decide +kernel)

theorem readsCanonical_issuedSpec :
    ReadsCanonical edgeService.runtime issuedSpec.json.modelDump := by
  refine readsCanonical_of_load rfl (by simp [backwardEdgePayloads]) instanceOf_issuedSpec
    (fun entry member entries same => ?_) (by decide +kernel)
  simp only [issuedSpec, List.mem_cons, List.not_mem_nil, or_false] at member
  rcases member with rfl | rfl | rfl | rfl | rfl | rfl | rfl | rfl | rfl | rfl | rfl | rfl
    <;> cases same

/-- The graded run is stored, since nothing stands in an empty store. -/
theorem ingestStores_iff_gradedRun :
    IngestStores edgeService ownConversions (prefixEngine fun _ _ _ => none) GradingOutcomePayload
        gradedRun ∅ ↔
      GradingOutcomePayload.Undated ∧ validPart gradedRun.base.project = true ∧
        (edgeService.writer.Puts gradedRun.json ∅ ∨
          ∃ value, (∅ : Store).lookup (edgeService.writer.recordPlace gradedRun.json) = some value ∧
            edgeService.edgeOf ownConversions GradingOutcomePayload value.content = .ok gradedRun) :=
  ingestStores_iff edgeService ownConversions (prefixEngine fun _ _ _ => none)
    GradingOutcomePayload gradedRun ∅ (by simp [backwardEdgePayloads]) instanceOf_gradedRun
    (fun _ => rfl) takesOwn_ownConversions readsCanonical_gradedRun (by decide)

/-- The issued spec is read from its envelope, and is not stored: the ingest fails as a transient
failure. -/
theorem not_ingestStores_issuedSpec :
    issuedSpec.InstanceOf edgeService.runtime SpecSurvivalPayload ∧
      (edgeService.ingestWith ownConversions SpecSurvivalPayload
          (buildEnvelope edgeService.runtime issuedSpec.json)).run
          (storeWorld (prefixEngine fun _ _ _ => none)) ∅ =
        (.raised (.transientIngest ("Unexpected error during ingest: " ++
          "Object of type datetime is not JSON serializable")), ∅) ∧
      ¬IngestStores edgeService ownConversions (prefixEngine fun _ _ _ => none)
        SpecSurvivalPayload issuedSpec ∅ := by
  have planned : ("planned_at", .datetime ⟨"2026-07-07T10:00:00Z"⟩) ∈ issuedSpec.own := by
    simp [issuedSpec]
  have fails : (edgeService.ingestWith ownConversions SpecSurvivalPayload
      (buildEnvelope edgeService.runtime issuedSpec.json)).run
        (storeWorld (prefixEngine fun _ _ _ => none)) ∅ = _ :=
    run_ingestWith_of_datetime (by simp [backwardEdgePayloads]) instanceOf_issuedSpec
      (fun _ => rfl) takesOwn_ownConversions (fun _ _ _ _ => rfl) readsCanonical_issuedSpec
      (by decide) planned rfl
  refine ⟨instanceOf_issuedSpec, fails, fun stores => ?_⟩
  cases (congrArg Prod.fst fails).symm.trans stores.1

end Sample

end FleetMemory
