/-
This file models a reindex run over the documents that were walked: each is classified and
parsed, candidates with the same identifier are resolved, and the winners are published
with the lessons that are stored for them. A run returns a report exactly when no document
raises outside the parser, and then every document has one fate in the report.
-/

import FleetMemory.Envelopes
import FleetMemory.TaskDocuments

namespace FleetMemory

open StoreProgram DeterministicWriter PosixPath

/-! ### Documents -/

/-- An entry of a report's list of skipped or unparseable documents. -/
structure ReportEntry where
  path : String
  reason : String

/-- `_Candidate`. -/
structure Candidate where
  relativePath : String
  title : Option String
  payload : Payload
  kind : String

namespace Candidate

abbrev identifier (candidate : Candidate) : String := candidate.payload.identifier

/-- The entry of the candidate when it is skipped. -/
def skippedFor (candidate : Candidate) (reason : String) : ReportEntry :=
  ⟨candidate.relativePath, reason⟩

end Candidate

/-- What the loop over the documents makes of one. -/
inductive Examined where
  | skipped (entry : ReportEntry)
  | unparseable (entry : ReportEntry)
  | candidate (candidate : Candidate)

namespace Examined

def skipped? : Examined → Option ReportEntry
  | skipped entry => some entry
  | _ => none

def unparseable? : Examined → Option ReportEntry
  | unparseable entry => some entry
  | _ => none

def candidate? : Examined → Option Candidate
  | candidate parsed => some parsed
  | _ => none

end Examined

section

variable (runtime : Runtime) (yaml : YamlLibrary) (manifest : CorpusManifest)

/-- The title of a candidate: `str` of the front matter's title, unless it has none. -/
def titleOf (frontmatter : YamlDict) : Except PyError (Option String) :=
  match frontmatter.get "title" with
  | none => .ok none
  | some .none => .ok none
  | some title => (yaml.str title).map some

/-- One pass of the loop over the documents. The parser's exceptions are caught, the others are
not. -/
def examine (doc : CorpusDocument) : Except PyError Examined := do
  let classification ← classifyDocument yaml manifest doc
  match classification.skipReason with
  | some reason => return .skipped ⟨doc.relativePath, reason⟩
  | none =>
    let frontmatter := classification.frontmatter.getD []
    match parseCompletedTask runtime yaml doc frontmatter with
    | .error error =>
      return .unparseable ⟨doc.relativePath, "Parser error: " ++ error.text runtime⟩
    | .ok (.unparseable reason) => return .unparseable ⟨doc.relativePath, reason⟩
    | .ok (.parsed payload) =>
      let title ← titleOf yaml frontmatter
      return .candidate ⟨doc.relativePath, title, payload,
        orDefault classification.kind "build_outcome"⟩

/-! ### Collisions -/

/-- The second path is deeper than the first, or as deep and greater. -/
def deeper (first second : Candidate) : Bool :=
  let depth (candidate : Candidate) : Nat := (parts candidate.relativePath).length
  depth first < depth second ||
    (depth first == depth second && first.relativePath < second.relativePath)

/-- The first of the deepest candidates, and the others in their order: the best one so far stands
between those before it and those after it. -/
def deepest (before : List Candidate) (winner : Candidate) (after : List Candidate) :
    List Candidate → Candidate × List Candidate
  | [] => (winner, before ++ after)
  | candidate :: rest =>
    if deeper winner candidate then deepest (before ++ winner :: after) candidate [] rest
    else deepest before winner (after ++ [candidate]) rest

/-- The candidates that go on to be published, and the entries of the others. -/
structure Resolved where
  winners : List Candidate
  skipped : List ReportEntry

/-- Resolve the candidates with one identifier. -/
def resolveGroup (group : List Candidate) : Resolved :=
  match group with
  | [] => ⟨[], []⟩
  | [only] => ⟨[only], []⟩
  | first :: rest =>
    if rest.any fun candidate => candidate.title != first.title then
      let paths := (group.map Candidate.relativePath).mergeSort fun one other => decide (one ≤ other)
      ⟨[], group.map fun candidate => candidate.skippedFor
        ("id collision across distinct tasks: " ++ runtime.reprList paths)⟩
    else
      let (winner, others) := deepest [] first [] rest
      ⟨[winner], others.map fun candidate => candidate.skippedFor
        ("id collision (same task): shadowed by deeper path " ++ winner.relativePath)⟩

/-- `by_identifier.setdefault(candidate.payload.identifier, []).append(candidate)`. -/
def addToGroup (groups : List (String × List Candidate)) (candidate : Candidate) :
    List (String × List Candidate) :=
  match groups with
  | [] => [(candidate.identifier, [candidate])]
  | (identifier, group) :: rest =>
    if identifier = candidate.identifier then (identifier, group ++ [candidate]) :: rest
    else (identifier, group) :: addToGroup rest candidate

/-- The candidates by their identifiers, in the order these first occur. -/
def byIdentifier (candidates : List Candidate) : List (String × List Candidate) :=
  candidates.foldl addToGroup []

/-- `_resolve_collisions`. -/
def resolveCollisions (candidates : List Candidate) : Resolved :=
  let resolved := (byIdentifier candidates).map fun entry => resolveGroup runtime entry.2
  ⟨resolved.flatMap Resolved.winners, resolved.flatMap Resolved.skipped⟩

/-! ### Publishing -/

end

/-- `payload.model_copy(update={"lessons": lessons})`. -/
def Payload.withLessons (payload : Payload) (lessons : PyValue) : Payload where
  toPayloadFields := { payload.toPayloadFields with own := payload.own.set "lessons" lessons }
  valid := ⟨payload.valid.payloadType, payload.valid.project, payload.valid.identifier,
    payload.valid.distinct, payload.valid.shaped, payload.valid.notItself⟩

section

variable (runtime : Runtime)

/-- The lessons in the content of a stored record, if there are any. -/
def storedLessons (content : String) : Except PyError (Option PyValue) :=
  if content.isEmpty then .ok none
  else
    match runtime.loads content with
    | .error (.decode _) => .ok none
    | .error (.value text) => .error (.valueError text)
    | .ok (.dict existingPayload) =>
      .ok ((PyDict.get existingPayload "lessons").filter PyValue.truthy)
    | .ok other => .error (.attributeError
      ("'" ++ other.typeName ++ "' object has no attribute 'get'"))

/-- `_preserve_existing_lessons`. -/
def preserveExistingLessons (payload : Payload) : StoreM Payload :=
  match PyDict.get payload.own "lessons" with
  | some .none => do
    match ← Program.get ⟨recordNamespace payload, recordIdentity runtime payload.naturalKey⟩ with
    | none => return payload
    | some existing =>
      match ← lift (storedLessons runtime existing.content) with
      | none => return payload
      | some existingLessons => return payload.withLessons existingLessons
  | _ => return payload

/-- A publisher: it returns nothing, or the reason it skips a payload. -/
abbrev PublisherFn := Payload → StoreM (Option String)

/-- What the loop over the winners has gathered. -/
structure Published where
  skipped : List ReportEntry
  publishedNaturalKeys : List String
  perKindCounts : List (String × Nat)

/-- `counts[kind] = counts.get(kind, 0) + 1`. -/
def countKind (kind : String) : List (String × Nat) → List (String × Nat)
  | [] => [(kind, 1)]
  | (other, count) :: rest =>
    if other = kind then (other, count + 1) :: rest else (other, count) :: countKind kind rest

/-- The payload a winner goes out with: its lessons are preserved when there is a store. -/
def outgoingPayload (preserving : Bool) (payload : Payload) : StoreM Payload :=
  if preserving then preserveExistingLessons runtime payload else return payload

/-- Publish a payload, or count it when there is no publisher. -/
def publishOrCount (publisher : Option PublisherFn) (payload : Payload) :
    StoreM (Option String) :=
  match publisher with
  | some publish => publish payload
  | none => return none

/-- Record what became of a winner. -/
def Published.record (done : Published) (candidate : Candidate) (naturalKey : String) :
    Option String → Published
  | some reason => { done with skipped := done.skipped ++ [candidate.skippedFor reason] }
  | none => { done with
      publishedNaturalKeys := done.publishedNaturalKeys ++ [naturalKey]
      perKindCounts := countKind candidate.kind done.perKindCounts }

/-- One pass of the loop over the winners. -/
def publishWinner (publisher : Option PublisherFn) (preserving : Bool) (done : Published)
    (candidate : Candidate) : StoreM Published := do
  let payload ← outgoingPayload runtime preserving candidate.payload
  let skipReason ← publishOrCount publisher payload
  return done.record candidate payload.naturalKey skipReason

/-- The loop over the winners. -/
def publishWinners (publisher : Option PublisherFn) (preserving : Bool) (done : Published) :
    List Candidate → StoreM Published
  | [] => return done
  | candidate :: rest => do
    let next ← publishWinner runtime publisher preserving done candidate
    publishWinners publisher preserving next rest

structure RunReport where
  walkedCount : Nat
  publishedCount : Nat
  skippedCount : Nat
  unparseableCount : Nat
  perKindCounts : List (String × Nat)
  publishedNaturalKeys : List String
  skipped : List ReportEntry
  unparseable : List ReportEntry

/-- `reindex_corpus` over the documents its walk yields. There is no publisher in a census, and the
lessons are preserved when there is a store. -/
def reindexCorpus (yaml : YamlLibrary) (manifest : CorpusManifest) (publisher : Option PublisherFn)
    (preserving : Bool) (docs : List CorpusDocument) : StoreM RunReport := do
  let examined ← lift (docs.mapM (examine runtime yaml manifest))
  let unparseable := examined.filterMap Examined.unparseable?
  let resolved := resolveCollisions runtime (examined.filterMap Examined.candidate?)
  let done ← publishWinners runtime publisher preserving
    ⟨examined.filterMap Examined.skipped? ++ resolved.skipped, [], []⟩ resolved.winners
  return {
    walkedCount := docs.length
    publishedCount := done.publishedNaturalKeys.length
    skippedCount := done.skipped.length
    unparseableCount := unparseable.length
    perKindCounts := done.perKindCounts
    publishedNaturalKeys := done.publishedNaturalKeys
    skipped := done.skipped
    unparseable }

end

/-! ### What a candidate's payload is -/

/-- The payload of a completed task: a build outcome of the corpus's project that supersedes
nothing, with lessons that are not empty or without any. -/
structure TaskOutcome (payload : Payload) : Prop where
  instanceOf : payload.InstanceOf BuildOutcomePayload
  project : payload.project = "guardkit"
  supersedes : payload.supersedes = []
  lessons : PyDict.get payload.own "lessons" = some .none ∨
    ∃ text, PyDict.get payload.own "lessons" = some (.str text) ∧ text.isEmpty = false

/-- The value of an own field is what its check made of the data. -/
theorem get_ownFields {runtime : Runtime} {data own : PyDict} {specs : List FieldSpec}
    {spec : FieldSpec} (checked : checkFields.ownFields runtime data specs = .ok own)
    (member : spec ∈ specs) (distinct : (specs.map FieldSpec.name).Nodup) :
    ∃ value, own.get spec.name = some value ∧ spec.checkIn runtime data = .ok value := by
  induction specs generalizing own with
  | nil => cases member
  | cons first rest inductionHypothesis =>
    obtain ⟨⟨value, others⟩, parts, rfl⟩ := except_map_eq_ok.mp checked
    obtain ⟨here, following⟩ := Checked.both_eq_ok.mp parts
    obtain ⟨fresh, distinctRest⟩ := List.nodup_cons.mp distinct
    rw [PyDict.get_cons]
    rcases List.mem_cons.mp member with rfl | later
    · exact ⟨value, if_pos rfl, here⟩
    · obtain ⟨other, found, checks⟩ := inductionHypothesis following later distinctRest
      refine ⟨other, ?_, checks⟩
      rw [if_neg, found]
      intro same
      exact fresh (List.mem_map.mpr ⟨spec, later, same⟩)

theorem taskOutcome_of_init {runtime : Runtime} {identifier sourceRef : String}
    {lessons : Option String} {domainTags : List String} {payload : Payload}
    (nonempty : ∀ text, lessons = some text → text.isEmpty = false)
    (built : BuildOutcomePayload.init runtime
      (outcomeArguments identifier sourceRef lessons domainTags) = .ok payload) :
    TaskOutcome payload := by
  have instanceOf := instanceOf_init built
  obtain ⟨_, normalized, normalizes, checked⟩ := initFields_eq_ok (init_eq_ok built)
  obtain rfl : outcomeArguments identifier sourceRef lessons domainTags = normalized :=
    Except.ok.inj normalizes
  obtain ⟨_, project, _, supersedes⟩ := checkFields_eq_ok checked
  refine ⟨instanceOf, ?_, ?_, ?_⟩
  · exact (PyValue.str.inj (Option.some.inj project)).symm
  · rcases supersedes with ⟨_, none⟩ | found
    · exact none
    · cases found
  · obtain ⟨⟨_, _, _, _, _, _, own⟩, all, same⟩ := except_map_eq_ok.mp checked
    simp only [Checked.both_eq_ok] at all
    obtain ⟨value, found, checks⟩ := @get_ownFields _ _ _ _ ⟨"lessons", .optionalStr⟩
      all.2.2.2.2.2.2 (by decide) (by decide)
    rw [← same, found]
    cases lessons with
    | none =>
      left
      rw [← Except.ok.inj checks]
    | some text =>
      right
      exact ⟨text, by rw [← Except.ok.inj checks], nonempty text rfl⟩

/-- What the parser returns is such a payload. -/
theorem taskOutcome_of_parsed {runtime : Runtime} {yaml : YamlLibrary} {doc : CorpusDocument}
    {frontmatter : YamlDict} {payload : Payload}
    (parsed : parseCompletedTask runtime yaml doc frontmatter = .ok (.parsed payload)) :
    TaskOutcome payload := by
  unfold parseCompletedTask at parsed
  split at parsed
  · cases parsed
  · split at parsed
    · cases parsed
    · obtain ⟨status, _, parsed⟩ := except_bind_eq_ok.mp parsed
      split at parsed
      · cases parsed
      · obtain ⟨identifier, _, parsed⟩ := except_bind_eq_ok.mp parsed
        obtain ⟨tags, _, parsed⟩ := except_bind_eq_ok.mp parsed
        dsimp only at parsed
        split at parsed
        · rename_i built
          obtain rfl := ParseResult.parsed.inj (Except.ok.inj parsed)
          exact taskOutcome_of_init (fun text => Markdown.extractLessons_ne_empty) built
        · cases parsed
        · cases parsed

/-! ### What is carried forward -/

section

variable {runtime : Runtime} {engine : SearchEngine} {store : Store} {payload : Payload}

/-- The payload with the lessons that are stored for it, if it has none of its own. -/
def preserved (runtime : Runtime) (payload : Payload) (store : Store) : Except PyError Payload :=
  match PyDict.get payload.own "lessons" with
  | some .none =>
    match store.lookup ⟨recordNamespace payload, recordIdentity runtime payload.naturalKey⟩ with
    | none => .ok payload
    | some existing => (storedLessons runtime existing.content).map fun
        | none => payload
        | some existingLessons => payload.withLessons existingLessons
  | _ => .ok payload

/-- A payload without lessons gets those that are read from its record. -/
theorem preserved_of_stored {existing : StoredValue} {lessons : Option PyValue}
    (own : PyDict.get payload.own "lessons" = some .none)
    (stored : store.lookup ⟨recordNamespace payload, recordIdentity runtime payload.naturalKey⟩ =
      some existing)
    (read : storedLessons runtime existing.content = .ok lessons) :
    preserved runtime payload store = .ok (lessons.elim payload payload.withLessons) := by
  unfold preserved
  rw [own]
  dsimp only
  rw [stored]
  dsimp only
  rw [read]
  cases lessons with
  | none => rfl
  | some lessons => rfl

theorem run_preserveExistingLessons :
    (preserveExistingLessons runtime payload).run (storeWorld engine) store =
      (.ofExcept (preserved runtime payload store), store) := by
  unfold preserveExistingLessons preserved
  split
  · rw [Program.run_bind, Program.run_get]
    show Program.run _ (match store.lookup _ with | none => _ | some _ => _) store = _
    cases store.lookup ⟨recordNamespace payload, recordIdentity runtime payload.naturalKey⟩ with
    | none => rfl
    | some existing =>
      show Program.run _ (lift (storedLessons runtime existing.content) >>= _) store =
        (.ofExcept ((storedLessons runtime existing.content).map _), store)
      cases storedLessons runtime existing.content with
      | error error => rfl
      | ok lessons => cases lessons <;> rfl
  · rfl

/-- Lessons that are read from a record are not empty. -/
theorem truthy_of_storedLessons {content : String} {lessons : PyValue}
    (read : storedLessons runtime content = .ok (some lessons)) : lessons.truthy = true := by
  unfold storedLessons at read
  split at read
  · cases read
  · split at read
    · cases read
    · cases read
    · exact (Option.filter_eq_some_iff.mp (Except.ok.inj read)).2
    · cases read

/-- Carrying lessons forward changes nothing but the lessons of a payload without any. -/
theorem preserved_eq_ok {outgoing : Payload} (kept : preserved runtime payload store = .ok outgoing) :
    outgoing = payload ∨ PyDict.get payload.own "lessons" = some .none ∧
      ∃ lessons, lessons.truthy = true ∧ outgoing = payload.withLessons lessons := by
  unfold preserved at kept
  split at kept
  · rename_i own
    split at kept
    · exact Or.inl (Except.ok.inj kept).symm
    · obtain ⟨lessons, read, rfl⟩ := except_map_eq_ok.mp kept
      cases lessons with
      | none => exact Or.inl rfl
      | some existingLessons =>
        exact Or.inr ⟨own, existingLessons, truthy_of_storedLessons read, rfl⟩
  · exact Or.inl (Except.ok.inj kept).symm

theorem naturalKey_of_preserved {outgoing : Payload}
    (kept : preserved runtime payload store = .ok outgoing) :
    outgoing.naturalKey = payload.naturalKey := by
  rcases preserved_eq_ok kept with rfl | ⟨_, lessons, _, rfl⟩
  · rfl
  · rfl

/-- The records of build outcomes are as the writer leaves them: the content of each is the dump of
a build outcome, and `json.loads` reads it back. -/
def WriterFormat (runtime : Runtime) (store : Store) : Prop :=
  ∀ place value project, store.lookup place = some value →
    place.namespaceParts = ["fleet_memory", project, "build_outcome"] →
      ∃ payload : Payload, payload.InstanceOf BuildOutcomePayload ∧
        value.content = Json.dumps (.dict payload.modelDump) ∧ ReadsBack runtime payload.modelDump

theorem dumps_dict_ne_empty (entries : PyDict) : (Json.dumps (.dict entries)).isEmpty = false := by
  rw [Bool.eq_false_iff, ne_eq, String.isEmpty_iff]
  intro empty
  have lists := congrArg String.toList empty
  simp [Json.dumps] at lists

theorem get_lessons_of_modelDump (fields : PayloadFields) :
    PyDict.get fields.modelDump "lessons" = PyDict.get fields.own "lessons" := by
  simp [PayloadFields.modelDump, PyDict.get, List.lookup_append, List.lookup_cons]

/-- The lessons of a record whose content is the dump of a build outcome are the outcome's. -/
theorem storedLessons_of_dump {outcome : Payload}
    (reads : ReadsBack runtime outcome.modelDump) :
    storedLessons runtime (Json.dumps (.dict outcome.modelDump)) =
      .ok ((PyDict.get outcome.own "lessons").filter PyValue.truthy) := by
  obtain ⟨parsed, loads, same⟩ := reads
  rw [storedLessons, dumps_dict_ne_empty, if_neg (by simp), loads]
  show Except.ok ((PyDict.get parsed "lessons").filter PyValue.truthy) = _
  rw [same, get_lessons_of_modelDump]

end

end FleetMemory
