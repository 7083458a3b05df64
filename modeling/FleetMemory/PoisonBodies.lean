/-
This file proves which bodies a structured ingest takes for poison. A body from which no
payload of its type is built fails before any store call, and what it raises is decided by
the first check that fails: the syntax, the type name, the identifiers, the fields and the
namespace are parked, while a value that is no object, a key that names the receiver, an
identifier of another type and every fault of the superseded references are redelivered.
-/

import FleetMemory.ProjectFrame

namespace FleetMemory

open StoreProgram

variable {Result Other : Type}

/-! ### Computations that only fail as poison -/

/-- Whatever the computation raises is parked. -/
def OnlyParked (computed : Except PyError Result) : Prop :=
  ∀ error, computed = .error error → error.parked = true

@[simp] theorem onlyParked_ok (result : Result) :
    OnlyParked (.ok result : Except PyError Result) := by
  intro error impossible
  cases impossible

@[simp] theorem onlyParked_error (error : PyError) :
    OnlyParked (.error error : Except PyError Result) ↔ error.parked = true := by
  simp [OnlyParked]

/-- A sequence only fails as poison when its first part does, and the rest on what that returns. -/
theorem onlyParked_bind {computed : Except PyError Result} {next : Result → Except PyError Other} :
    OnlyParked (computed >>= next) ↔
      OnlyParked computed ∧ ∀ result, computed = .ok result → OnlyParked (next result) := by
  cases computed with
  | ok result => simp [except_ok_bind]
  | error error => simp [except_error_bind]

theorem onlyParked_raiseIf {condition : Prop} [Decidable condition] {error : PyError} :
    OnlyParked (raiseIf condition error) ↔ (condition → error.parked = true) := by
  unfold raiseIf
  split <;> simp [*]

/-! ### The identifiers -/

/-- The identifier's value can be matched: it is missing, falsy or a string. -/
def Matchable (data : PyDict) (name : String) : Prop :=
  ∀ value, data.get name = some value → value.truthy = true → ∃ text, value = .str text

/-- The identifier's value is missing or a string of word characters. -/
def WordIn (data : PyDict) (name : String) : Prop :=
  ∀ value, data.get name = some value → value.truthy = true ∧
    ∃ text, value = .str text ∧ Text.fullMatch Text.word text = true

theorem validateIdentifierIn_eq_ok {data : PyDict} {name : String} {done : Unit} :
    validateIdentifierIn data name = .ok done ↔ WordIn data name := by
  unfold validateIdentifierIn WordIn
  cases found : data.get name with
  | none => simp
  | some value =>
    simp only [Option.some.injEq, forall_eq']
    unfold validateIdentifier
    split
    · rename_i truthy
      cases value with
      | str text => by_cases matched : Text.fullMatch Text.word text = true <;> simp [truthy, matched]
      | _ => simp
    · rename_i falsy
      simp [falsy]

theorem onlyParked_validateIdentifierIn {data : PyDict} {name : String} :
    OnlyParked (validateIdentifierIn data name) ↔ Matchable data name := by
  unfold validateIdentifierIn Matchable
  cases found : data.get name with
  | none => simp
  | some value =>
    simp only [Option.some.injEq, forall_eq']
    unfold validateIdentifier
    split
    · rename_i truthy
      cases value with
      | str text =>
        by_cases matched : Text.fullMatch Text.word text = true <;> simp [matched, PyError.parked]
      | _ => simp [PyError.parked, truthy]
    · rename_i falsy
      simp [falsy, PyError.parked]

/-! ### The superseded references -/

/-- The reference is a string of three segments. -/
def ShapedRef (ref : PyValue) : Prop :=
  ∃ text, ref = .str text ∧ (Text.split ':' text).length = 3

/-- `supersedes` is missing or falsy, or runs over strings of three segments. -/
def ShapedSupersedes (data : PyDict) : Prop :=
  ∀ value, data.get "supersedes" = some value → value.truthy = true →
    ∃ refs, iterate value = .ok refs ∧ ∀ ref ∈ refs, ShapedRef ref

/-- Collapsing keeps every reference once. -/
theorem mem_collapse {refs seen unique : List PyValue} (collapsed : collapse seen refs = .ok unique)
    (ref : PyValue) : ref ∈ unique ↔ ref ∈ seen ∨ ref ∈ refs := by
  induction refs generalizing seen with
  | nil =>
    obtain rfl : seen = unique := by simpa [collapse] using collapsed
    simp
  | cons first rest inductionHypothesis =>
    rw [collapse] at collapsed
    split at collapsed
    · cases collapsed
    · split at collapsed
      · rename_i before
        have among : first ∈ seen := by
          cases first with
          | str text =>
            obtain ⟨earlier, member, same⟩ := List.any_eq_true.mp before
            cases earlier <;> simp_all
          | _ => simp [seenBefore] at before
        rw [inductionHypothesis collapsed, List.mem_cons]
        constructor
        · exact Or.imp_right Or.inr
        · rintro (early | rfl | late)
          · exact Or.inl early
          · exact Or.inl among
          · exact Or.inr late
      · rw [inductionHypothesis collapsed, List.mem_append, List.mem_singleton, List.mem_cons,
          or_assoc]

theorem exists_collapse {refs : List PyValue} (hashable : ∀ ref ∈ refs, ref.unhashable = false)
    (seen : List PyValue) : ∃ unique, collapse seen refs = .ok unique := by
  induction refs generalizing seen with
  | nil => exact ⟨seen, rfl⟩
  | cons first rest inductionHypothesis =>
    obtain ⟨firstHashable, restHashable⟩ := List.forall_mem_cons.mp hashable
    rw [collapse, if_neg (by simp [firstHashable])]
    split
    · exact inductionHypothesis restHashable seen
    · exact inductionHypothesis restHashable (seen ++ [first])

theorem exists_validateRefs_iff {refs : List PyValue} :
    (∃ texts, validateRefs refs = .ok texts) ↔ ∀ ref ∈ refs, ShapedRef ref := by
  constructor
  · rintro ⟨texts, validated⟩ ref member
    obtain ⟨rfl, shaped⟩ := validateRefs_eq_ok validated
    obtain ⟨text, among, rfl⟩ := List.mem_map.mp member
    exact ⟨text, rfl, shaped text among⟩
  · intro shaped
    induction refs with
    | nil => exact ⟨[], rfl⟩
    | cons first rest inductionHypothesis =>
      obtain ⟨⟨text, rfl, three⟩, restShaped⟩ := List.forall_mem_cons.mp shaped
      obtain ⟨texts, validated⟩ := inductionHypothesis restShaped
      exact ⟨text :: texts, by rw [validateRefs, if_pos three, validated]; rfl⟩

/-- The references are accepted exactly when each is a string of three segments. -/
theorem exists_normalizeSupersedes_iff {data : PyDict} :
    (∃ normalized, normalizeSupersedes data = .ok normalized) ↔ ShapedSupersedes data := by
  unfold normalizeSupersedes ShapedSupersedes
  cases found : data.get "supersedes" with
  | none => simp
  | some value =>
    by_cases truthy : value.truthy = true
    · simp only [truthy, if_true, Option.some.injEq, forall_eq', forall_const]
      constructor
      · rintro ⟨normalized, done⟩
        obtain ⟨refs, iterated, done⟩ := except_bind_eq_ok.mp done
        obtain ⟨unique, collapsed, done⟩ := except_bind_eq_ok.mp done
        obtain ⟨texts, validated, done⟩ := except_bind_eq_ok.mp done
        refine ⟨refs, iterated, fun ref member => ?_⟩
        exact exists_validateRefs_iff.mp ⟨texts, validated⟩ ref
          ((mem_collapse collapsed ref).mpr (Or.inr member))
      · rintro ⟨refs, iterated, shaped⟩
        obtain ⟨unique, collapsed⟩ := @exists_collapse refs (by
          intro ref member
          obtain ⟨text, rfl, _⟩ := shaped ref member
          rfl) []
        have uniqueShaped : ∀ ref ∈ unique, ShapedRef ref := by
          intro ref member
          rcases (mem_collapse collapsed ref).mp member with impossible | among
          · cases impossible
          · exact shaped ref among
        obtain ⟨texts, validated⟩ := exists_validateRefs_iff.mpr uniqueShaped
        exact ⟨_, by rw [iterated, except_ok_bind, collapsed, except_ok_bind, validated]; rfl⟩
    · simp [truthy]

theorem not_parked_of_iterate {value : PyValue} {error : PyError}
    (raised : iterate value = .error error) : error.parked = false := by
  cases value with
  | list items => cases raised
  | str text => cases raised
  | dict entries => cases raised
  | _ => rw [← Except.error.inj raised]; rfl

theorem not_parked_of_collapse {refs seen : List PyValue} {error : PyError}
    (raised : collapse seen refs = .error error) : error.parked = false := by
  induction refs generalizing seen with
  | nil => cases raised
  | cons first rest inductionHypothesis =>
    rw [collapse] at raised
    split at raised
    · rw [← Except.error.inj raised]
      rfl
    · split at raised
      · exact inductionHypothesis raised
      · exact inductionHypothesis raised

theorem not_parked_of_validateRefs {refs : List PyValue} {error : PyError}
    (raised : validateRefs refs = .error error) : error.parked = false := by
  induction refs with
  | nil => cases raised
  | cons first rest inductionHypothesis =>
    cases first with
    | str text =>
      rw [validateRefs] at raised
      split at raised
      · cases others : validateRefs rest with
        | ok texts => rw [others] at raised; cases raised
        | error other =>
          rw [others] at raised
          exact inductionHypothesis (others.trans raised)
      · rw [← Except.error.inj raised]
        rfl
    | _ => rw [← Except.error.inj raised]; rfl

/-- No fault of the references is parked. -/
theorem not_parked_of_normalizeSupersedes {data : PyDict} {error : PyError}
    (raised : normalizeSupersedes data = .error error) : error.parked = false := by
  unfold normalizeSupersedes at raised
  split at raised
  · split at raised
    · rcases except_bind_eq_error.mp raised with raised | ⟨refs, _, raised⟩
      · exact not_parked_of_iterate raised
      rcases except_bind_eq_error.mp raised with raised | ⟨unique, _, raised⟩
      · exact not_parked_of_collapse raised
      rcases except_bind_eq_error.mp raised with raised | ⟨texts, _, raised⟩
      · exact not_parked_of_validateRefs raised
      · cases raised
    · cases raised
  · cases raised

theorem onlyParked_normalizeSupersedes {data : PyDict} :
    OnlyParked (normalizeSupersedes data) ↔ ShapedSupersedes data := by
  rw [← exists_normalizeSupersedes_iff]
  cases done : normalizeSupersedes data with
  | ok normalized => simp
  | error error => simp [not_parked_of_normalizeSupersedes done]

/-! ### The payload -/

section

variable {runtime : Runtime} {cls : PayloadClass}

/-- The first check the data fails, if any, raises what is parked: the data has no key for the
receiver, the identifiers can be matched, and when these match, the references are well formed and
the fields, when they pass, do not make the payload supersede itself. -/
def PoisonData (runtime : Runtime) (cls : PayloadClass) (data : PyDict) : Prop :=
  data.get "self" = none ∧ Matchable data "project" ∧
    (WordIn data "project" → Matchable data "identifier" ∧
      (WordIn data "identifier" → ShapedSupersedes data ∧
        ∀ normalized, normalizeSupersedes data = .ok normalized → ∀ fields,
          checkFields runtime cls normalized = .ok fields → fields.naturalKey ∉ fields.supersedes))

theorem onlyParked_checkFields (data : PyDict) :
    OnlyParked ((checkFields runtime cls data).mapError (.validation cls.className)) := by
  cases checkFields runtime cls data with
  | ok fields => exact onlyParked_ok fields
  | error errors => exact (onlyParked_error _).mpr rfl

theorem onlyParked_initFields {data : PyDict} :
    OnlyParked (initFields runtime cls data) ↔ PoisonData runtime cls data := by
  have last (fields : PayloadFields) :
      OnlyParked (pure fields : Except PyError PayloadFields) := onlyParked_ok fields
  unfold initFields PoisonData
  simp only [onlyParked_bind, onlyParked_raiseIf, raiseIf_eq_ok, onlyParked_validateIdentifierIn,
    validateIdentifierIn_eq_ok, onlyParked_normalizeSupersedes, onlyParked_checkFields,
    except_mapError_eq_ok, PyError.parked, last, forall_const, implies_true, true_and, and_true]
  cases data.get "self" <;> simp

theorem init_eq_error_iff {data : PyDict} {error : PyError} :
    cls.init runtime data = .error error ↔ initFields runtime cls data = .error error := by
  unfold PayloadClass.init
  split <;> rename_i built <;> simp [built]

end

/-! ### The bodies that are parked -/

namespace RelayService

variable (service : RelayService) (episode : MemoryEpisodeV1)

/-- The first check the episode fails, if any, raises what is parked: its payload type is missing,
its body is not JSON, its type is unknown, or its body is an object whose data is checked so. -/
def PoisonBody : Prop :=
  ∀ payloadType, episode.payloadType = some payloadType →
    match service.runtime.loads episode.body with
    | .error (.decode _) => True
    | .error (.value _) => False
    | .ok value => ∀ cls, getModelForType (.str payloadType) = .ok cls →
        ∃ data, value.entries? = some data ∧ PoisonData service.runtime cls data

variable {service episode}

theorem onlyParked_getModelForType (name : String) :
    OnlyParked (getModelForType (.str name)) := by
  unfold getModelForType
  dsimp only
  split
  · exact onlyParked_ok _
  · exact (onlyParked_error _).mpr rfl

theorem onlyParked_buildPayload {cls : PayloadClass} {value : PyValue} :
    OnlyParked (service.buildPayload cls value) ↔
      ∃ data, value.entries? = some data ∧ PoisonData service.runtime cls data := by
  unfold buildPayload
  split
  · rename_i data mapping
    simp only [mapping, Option.some.injEq, exists_eq_left', ← onlyParked_initFields]
    simp only [OnlyParked, init_eq_error_iff]
  · rename_i notMapping
    simp [notMapping, PyError.parked]

/-- What keeps an episode from its payload is parked exactly for a poison body. -/
theorem onlyParked_payloadOf :
    OnlyParked (service.payloadOf episode) ↔ service.PoisonBody episode := by
  unfold payloadOf PoisonBody
  cases typed : episode.payloadType with
  | none => simp [PyError.parked]
  | some payloadType =>
    simp only [onlyParked_bind, Option.some.injEq, forall_eq']
    unfold parseBody
    cases service.runtime.loads episode.body with
    | error failure => cases failure <;> simp [PyError.parked]
    | ok value =>
      simp [onlyParked_getModelForType, onlyParked_buildPayload]

/-- A built payload whose project is no namespace segment is parked before any store call. -/
theorem ingestJson_of_invalid {payload : Payload} (built : service.payloadOf episode = .ok payload)
    (invalid : validPart payload.project = false) :
    ∃ error, error.parked = true ∧ service.ingestJson episode = lift (.error error) := by
  obtain ⟨invalidParts, refused⟩ := @DeterministicWriter.write_of_invalid_namespace service.writer
    payload (some (episodeMetaOf episode)) (payloadOf_eq_ok built).1 payload.project
    (by simp [DeterministicWriter.recordNamespace]) invalid
  exact ⟨_, rfl, by rw [ingestJson, built, lift_ok_bind, refused]⟩

/-- An episode that yields no payload, or one of an invalid project, fails before any store call,
and it is parked exactly for a poison body: the first check that fails decides. -/
theorem ingest_poison_iff (json : episode.contentFormat = "json")
    (unstorable : ∀ payload, service.payloadOf episode = .ok payload →
      validPart payload.project = false) :
    (∃ error, service.ingest episode = lift (.error error)) ∧
    ((∃ reason detail, service.ingest episode = lift (.error (.poisonEpisode reason detail))) ↔
      service.PoisonBody episode) := by
  have ends : ∃ error, service.route episode = lift (.error error) ∧
      (error.parked = true ↔ service.PoisonBody episode) := by
    rw [route_of_json json]
    cases outcome : service.payloadOf episode with
    | error error =>
      refine ⟨error, by rw [ingestJson, outcome, lift_error_bind], ?_⟩
      rw [← onlyParked_payloadOf, outcome, onlyParked_error]
    | ok payload =>
      obtain ⟨error, parked, raised⟩ := ingestJson_of_invalid outcome (unstorable payload outcome)
      refine ⟨error, raised, iff_of_true parked ?_⟩
      rw [← onlyParked_payloadOf, outcome]
      exact onlyParked_ok payload
  obtain ⟨error, routed, parks⟩ := ends
  have raises : service.ingest episode = lift (.error (service.ingestError error)) := by
    rw [ingest, routed]
    rfl
  refine ⟨⟨_, raises⟩, ?_⟩
  rw [raises, ← parks, ← ingestError_eq_poison_iff]
  exact exists_congr fun reason => exists_congr fun detail => lift_error_inj

end RelayService

namespace Sample

/-- An ADR that supersedes what is no natural key. -/
def malformedBody : String :=
  "\x7b\"project\": \"a\", \"identifier\": \"D\", \"source_ref\": \"s\", \"decision\": \"d\", " ++
    "\"status\": \"accepted\", \"supersedes\": [\"x\"]\x7d"

def bodiesService : RelayService where
  writer := ⟨.ofTables [] [] [("\x7b\x7d", .dict []), (malformedBody,
    .dict [("project", .str "a"), ("identifier", .str "D"), ("source_ref", .str "s"),
      ("decision", .str "d"), ("status", .str "accepted"), ("supersedes", .list [.str "x"])])], 1⟩
  settings := ⟨1000, ⟨"0.15"⟩⟩

def adrEpisode (body : String) : MemoryEpisodeV1 where
  episodeId := "e"
  projectId := "a"
  episodeType := "adr"
  contentFormat := "json"
  body := body
  payloadType := some "adr"

/-- An object without the fields of its type. -/
theorem ingest_poison_iff_empty :
    ∃ reason detail, bodiesService.ingest (adrEpisode "\x7b\x7d") =
      lift (.error (.poisonEpisode reason detail)) := by
  have fieldless (fields : PayloadFields) :
      checkFields bodiesService.runtime ADRPayload [] ≠ .ok fields := by
    intro checked
    cases (checkFields_eq_ok checked).2.1
  refine (RelayService.ingest_poison_iff rfl ?_).2.mpr ?_
  · rintro payload ⟨⟩
  · rintro payloadType ⟨⟩ cls ⟨⟩
    refine ⟨[], rfl, rfl, ?_, fun _ => ⟨?_, fun _ => ⟨?_, fun normalized done fields checked => ?_⟩⟩⟩
    · rintro value ⟨⟩
    · rintro value ⟨⟩
    · rintro value ⟨⟩
    · obtain rfl : ([] : PyDict) = normalized := Except.ok.inj done
      exact absurd checked (fieldless fields)

/-- A malformed reference is redelivered. -/
theorem not_ingest_poison_malformed :
    (∃ message invalidRef, bodiesService.payloadOf (adrEpisode malformedBody) =
        .error (.supersessionValidation message invalidRef)) ∧
      (∃ message, bodiesService.ingest (adrEpisode malformedBody) =
        lift (.error (.transientIngest message))) ∧
      ¬∃ reason detail, bodiesService.ingest (adrEpisode malformedBody) =
        lift (.error (.poisonEpisode reason detail)) := by
  have raised : bodiesService.payloadOf (adrEpisode malformedBody) =
      .error (.supersessionValidation ("Supersession reference 'x' is not a valid natural key: " ++
        "expected 3 colon-separated segments, got 1") (some "x")) := by
    rfl
  have ingested : ∃ message, bodiesService.ingest (adrEpisode malformedBody) =
      lift (.error (.transientIngest message)) :=
    ⟨_, rfl⟩
  refine ⟨⟨_, _, raised⟩, ingested, ?_⟩
  obtain ⟨message, ingested⟩ := ingested
  rintro ⟨reason, detail, poison⟩
  rw [ingested, lift_error_inj] at poison
  cases poison

end Sample

end FleetMemory
