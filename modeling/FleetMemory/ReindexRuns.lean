/-
This file proves that reindexing is idempotent and keeps lessons. The relay ingests each
published episode before the next winner is read. A winner that went out once settles: its
stored lessons are read back into the payload that was written, so the same content is
sent again and the writer leaves the record. Runs that were broken off are then made up
for by one whole run, and no run takes lessons from a record that has some.
-/

import FleetMemory.ReindexAccounting
import FleetMemory.Settling

namespace FleetMemory

open StoreProgram DeterministicWriter

/-! ### Runs -/

/-- `MAX_EPISODE_BODY_BYTES`. -/
def maxEpisodeBodyBytes : Nat := 900 * 1024

/-- The size of the body an envelope of the payload has. -/
def bodyBytes (payload : Payload) : Nat :=
  (Json.dumps (.dict payload.modelDump)).utf8ByteSize

/-- `ReindexPublisher.publish`, with the relay that ingests what is published. -/
def relayPublisher (service : RelayService) : PublisherFn := fun payload =>
  if bodyBytes payload ≥ maxEpisodeBodyBytes then
    return some ("payload body " ++ toString (bodyBytes payload) ++
      " bytes exceeds MAX_EPISODE_BODY_BYTES (" ++ toString maxEpisodeBodyBytes ++ ")")
  else do
    service.ingest (buildEnvelope service.runtime payload)
    return none

section

variable (service : RelayService) (yaml : YamlLibrary) (manifest : CorpusManifest)
  (docs : List CorpusDocument)

/-- A whole run over the corpus. -/
def completeRun : StoreM RunReport :=
  reindexCorpus service.runtime yaml manifest (some (relayPublisher service)) true docs

/-- A run that is broken off when so many of its winners went out. -/
def interruptedRun (count : Nat) : StoreM Published := do
  let examined ← lift (docs.mapM (examine service.runtime yaml manifest))
  let resolved := resolveCollisions service.runtime (examined.filterMap Examined.candidate?)
  publishWinners service.runtime (some (relayPublisher service)) true
    ⟨examined.filterMap Examined.skipped? ++ resolved.skipped, [], []⟩
    (resolved.winners.take count)

/-- The winners of a run; a run that is aborted has none. -/
def winnersOf (runtime : Runtime) : List Candidate :=
  match docs.mapM (examine runtime yaml manifest) with
  | .ok examined => (resolveCollisions runtime (examined.filterMap Examined.candidate?)).winners
  | .error _ => []

end

/-! ### Winners have places of their own -/

section

variable {runtime : Runtime}

/-- The groups have distinct identifiers, and each candidate stands in the group of its own. -/
structure Grouped (groups : List (String × List Candidate)) : Prop where
  distinct : (groups.map Prod.fst).Nodup
  named : ∀ entry ∈ groups, ∀ candidate ∈ entry.2, candidate.identifier = entry.1

theorem mem_keys_addToGroup {groups : List (String × List Candidate)} {candidate : Candidate}
    {identifier : String} (member : identifier ∈ (addToGroup groups candidate).map Prod.fst) :
    identifier = candidate.identifier ∨ identifier ∈ groups.map Prod.fst := by
  induction groups with
  | nil => exact Or.inl (by simpa [addToGroup] using member)
  | cons entry rest inductionHypothesis =>
    obtain ⟨key, group⟩ := entry
    rw [addToGroup] at member
    split at member
    · exact Or.inr member
    · rcases List.mem_cons.mp member with rfl | later
      · exact Or.inr List.mem_cons_self
      · exact (inductionHypothesis later).imp_right (List.mem_cons_of_mem _)

theorem Grouped.addToGroup {groups : List (String × List Candidate)} (grouped : Grouped groups)
    (candidate : Candidate) : Grouped (addToGroup groups candidate) := by
  induction groups with
  | nil =>
    refine ⟨by simp [FleetMemory.addToGroup], ?_⟩
    intro entry member other inside
    rw [List.mem_singleton.mp member] at inside ⊢
    rw [List.mem_singleton.mp inside]
  | cons entry rest inductionHypothesis =>
    obtain ⟨key, group⟩ := entry
    have rests : Grouped rest :=
      ⟨(List.nodup_cons.mp grouped.distinct).2, fun entry member =>
        grouped.named entry (List.mem_cons_of_mem _ member)⟩
    rw [FleetMemory.addToGroup]
    split
    · rename_i same
      refine ⟨grouped.distinct, ?_⟩
      intro entry member other inside
      rcases List.mem_cons.mp member with rfl | later
      · rcases List.mem_append.mp inside with before | here
        · exact grouped.named (key, group) List.mem_cons_self other before
        · rw [List.mem_singleton.mp here]
          exact same.symm
      · exact rests.named entry later other inside
    · rename_i different
      have next := inductionHypothesis rests
      refine ⟨List.nodup_cons.mpr ⟨fun member => ?_, next.distinct⟩, ?_⟩
      · rcases mem_keys_addToGroup member with same | earlier
        · exact different same
        · exact (List.nodup_cons.mp grouped.distinct).1 earlier
      · intro entry member other inside
        rcases List.mem_cons.mp member with rfl | later
        · exact grouped.named (key, group) List.mem_cons_self other inside
        · exact next.named entry later other inside

theorem grouped_byIdentifier (candidates : List Candidate) : Grouped (byIdentifier candidates) := by
  have run : ∀ groups, Grouped groups → Grouped (candidates.foldl addToGroup groups) := by
    induction candidates with
    | nil => exact fun groups grouped => grouped
    | cons candidate rest inductionHypothesis =>
      exact fun groups grouped => inductionHypothesis _ (grouped.addToGroup candidate)
  exact run [] ⟨List.nodup_nil, by simp⟩

/-- A group has one winner at most. -/
theorem winners_of_group (group : List Candidate) :
    (resolveGroup runtime group).winners.length ≤ 1 := by
  unfold resolveGroup
  split
  · exact Nat.zero_le 1
  · exact le_rfl
  · split
    · exact Nat.zero_le 1
    · exact le_rfl

/-- The winners have distinct identifiers. -/
theorem nodup_identifiers (candidates : List Candidate) :
    ((resolveCollisions runtime candidates).winners.map Candidate.identifier).Nodup := by
  have sublists : ∀ groups : List (String × List Candidate),
      (∀ entry ∈ groups, ∀ candidate ∈ entry.2, candidate.identifier = entry.1) →
        (((groups.map fun entry => resolveGroup runtime entry.2).flatMap Resolved.winners).map
          Candidate.identifier).Sublist (groups.map Prod.fst) := by
    intro groups named
    induction groups with
    | nil => exact .slnil
    | cons entry rest inductionHypothesis =>
      have rests := inductionHypothesis fun other member =>
        named other (List.mem_cons_of_mem _ member)
      have here : ((resolveGroup runtime entry.2).winners.map Candidate.identifier).Sublist
          [entry.1] := by
        have few := @winners_of_group runtime entry.2
        obtain ⟨_, _, perm⟩ := @resolveGroup_perm runtime entry.2
        cases won : (resolveGroup runtime entry.2).winners with
        | nil => exact List.nil_sublist _
        | cons winner others =>
          rw [won, List.length_cons] at few
          obtain rfl : others = [] := List.length_eq_zero_iff.mp (by omega)
          have inside : winner ∈ entry.2 :=
            perm.subset (List.mem_append_left _ (by rw [won]; exact List.mem_cons_self))
          rw [List.map_singleton, named entry List.mem_cons_self winner inside]
      rw [List.map_cons, List.flatMap_cons, List.map_append, List.map_cons]
      exact here.append rests
  have grouped := grouped_byIdentifier candidates
  exact grouped.distinct.sublist (sublists (byIdentifier candidates) grouped.named)

end

/-! ### The payload a winner goes out with -/

/-- Replacing an own field of an instance by a value of its type leaves an instance. -/
theorem forall₂_set {specs : List FieldSpec} {own : PyDict} {name : String} {value : PyValue}
    (conforms : List.Forall₂ (fun (spec : FieldSpec) (entry : String × PyValue) =>
      entry.1 = spec.name ∧ spec.Holds entry.2) specs own)
    (named : name ∈ specs.map FieldSpec.name)
    (holds : ∀ spec ∈ specs, spec.name = name → spec.Holds value) :
    List.Forall₂ (fun (spec : FieldSpec) (entry : String × PyValue) =>
      entry.1 = spec.name ∧ spec.Holds entry.2) specs (own.set name value) := by
  induction conforms with
  | nil => cases named
  | @cons spec entry rest others here later inductionHypothesis =>
    rw [PyDict.set]
    split
    · rename_i same
      have own : spec.name = name := here.1.symm.trans same
      exact .cons ⟨own.symm, holds spec List.mem_cons_self own⟩ later
    · rename_i different
      refine .cons here (inductionHypothesis ?_ fun other member =>
        holds other (List.mem_cons_of_mem _ member))
      rcases List.mem_cons.mp named with same | further
      · exact absurd (here.1.trans same.symm) different
      · exact further

theorem get_lessons_withLessons (payload : Payload) (lessons : PyValue) :
    PyDict.get (payload.withLessons lessons).own "lessons" = some lessons :=
  PyDict.get_set_self payload.own "lessons" lessons

/-- A task's payload stays one when it carries stored lessons. -/
theorem TaskOutcome.withLessons {payload : Payload} (outcome : TaskOutcome payload) {text : String}
    (nonempty : text.isEmpty = false) : TaskOutcome (payload.withLessons (.str text)) where
  instanceOf := ⟨outcome.instanceOf.payloadType, forall₂_set outcome.instanceOf.own (by decide) (by
    intro spec member named
    simp only [BuildOutcomePayload, List.mem_cons, List.not_mem_nil, or_false] at member
    rcases member with rfl | rfl | rfl | rfl | rfl
    · exact absurd named (by decide)
    · exact absurd named (by decide)
    · exact absurd named (by decide)
    · exact Or.inr ⟨text, rfl⟩
    · exact absurd named (by decide))⟩
  project := outcome.project
  supersedes := outcome.supersedes
  lessons := Or.inr ⟨text, get_lessons_withLessons payload _, nonempty⟩

section

variable {runtime : Runtime} {engine : SearchEngine} {store start : Store} {payload : Payload}

/-- An own field of an instance has a value of its type. -/
theorem get_own_of_instance {specs : List FieldSpec} {own : PyDict} {spec : FieldSpec}
    (conforms : List.Forall₂ (fun (spec : FieldSpec) (entry : String × PyValue) =>
      entry.1 = spec.name ∧ spec.Holds entry.2) specs own)
    (member : spec ∈ specs) (distinct : (specs.map FieldSpec.name).Nodup) :
    ∃ value, own.get spec.name = some value ∧ spec.Holds value := by
  induction conforms with
  | nil => cases member
  | @cons first entry rest others here _ inductionHypothesis =>
    obtain ⟨fresh, distinctRest⟩ := List.nodup_cons.mp distinct
    rw [PyDict.get_cons]
    rcases List.mem_cons.mp member with rfl | later
    · exact ⟨entry.2, if_pos here.1.symm, here.2⟩
    · rw [if_neg]
      · exact inductionHypothesis later distinctRest
      · intro same
        exact fresh (List.mem_map.mpr ⟨spec, later, same.trans here.1⟩)

/-- The lessons of a build outcome are a text or none. -/
theorem lessons_of_instance (instanceOf : payload.InstanceOf BuildOutcomePayload) :
    PyDict.get payload.own "lessons" = some .none ∨
      ∃ text, PyDict.get payload.own "lessons" = some (.str text) := by
  obtain ⟨value, found, holds⟩ :=
    @get_own_of_instance _ _ ⟨"lessons", .optionalStr⟩ instanceOf.own (by decide) (by decide)
  rcases holds with rfl | ⟨text, rfl⟩
  · exact Or.inl found
  · exact Or.inr ⟨text, found⟩

/-- What a task's payload goes out with is a task's payload. -/
theorem taskOutcome_of_preserved {outgoing : Payload} (outcome : TaskOutcome payload)
    (format : WriterFormat runtime store)
    (kept : preserved runtime payload store = .ok outgoing) : TaskOutcome outgoing := by
  unfold preserved at kept
  split at kept
  · split at kept
    · rw [← Except.ok.inj kept]
      exact outcome
    · rename_i existing stored
      obtain ⟨other, instanceOf, content, reads⟩ := format _ existing payload.project stored
        (by rw [recordNamespace, outcome.instanceOf.payloadType]; rfl)
      rw [content, storedLessons_of_dump reads] at kept
      rcases lessons_of_instance instanceOf with none_stored | ⟨text, found⟩
      · rw [none_stored] at kept
        rw [← Except.ok.inj kept]
        exact outcome
      · rw [found] at kept
        cases empty : text.isEmpty with
        | true =>
          rw [← Except.ok.inj kept]
          simp only [Option.filter, PyValue.truthy, empty]
          exact outcome
        | false =>
          rw [← Except.ok.inj kept]
          simp only [Option.filter, PyValue.truthy, empty]
          exact outcome.withLessons empty
  · rw [← Except.ok.inj kept]
    exact outcome

theorem preserved_congr {other : Store}
    (same : store.lookup ⟨recordNamespace payload, recordIdentity runtime payload.naturalKey⟩ =
      other.lookup ⟨recordNamespace payload, recordIdentity runtime payload.naturalKey⟩) :
    preserved runtime payload store = preserved runtime payload other := by
  unfold preserved
  rw [same]

/-- The payload a winner goes out with in a run from a store. -/
def outgoing (runtime : Runtime) (start : Store) (winner : Candidate) : Payload :=
  match preserved runtime winner.payload start with
  | .ok payload => payload
  | .error _ => winner.payload

end

/-! ### A winner settles -/

/-- What the runs from a store rest on: the store is in the writer's format and has room, and the
winners are tasks' payloads that are read back, with identities of their own. -/
structure ReindexRun.Setting (service : RelayService) (start : Store) (winners : List Candidate) :
    Prop where
  takes : TakesIntegers service.runtime
  format : WriterFormat service.runtime start
  room : start.keys.card + winners.length < forwardPage * service.writer.pages
  outcomes : ∀ winner ∈ winners, TaskOutcome winner.payload
  reads : ∀ winner ∈ winners,
    ReadsBack service.runtime (outgoing service.runtime start winner).modelDump
  apart : ∀ one ∈ winners, ∀ other ∈ winners,
    service.writer.recordPlace one.payload = service.writer.recordPlace other.payload →
      one = other

/-- A store the runs from a start reach: a winner's record is as at the start, or has the content of
the payload the winner goes out with. -/
structure ReindexRun.Reached (service : RelayService) (start : Store) (winners : List Candidate)
    (store : Store) : Prop where
  records : ∀ winner ∈ winners,
    store.lookup (service.writer.recordPlace winner.payload) =
        start.lookup (service.writer.recordPlace winner.payload) ∨
      ∃ value, store.lookup (service.writer.recordPlace winner.payload) = some value ∧
        value.content = Json.dumps (.dict (outgoing service.runtime start winner).modelDump)
  others : ∀ place, (∀ winner ∈ winners, place ≠ service.writer.recordPlace winner.payload) →
    store.lookup place = start.lookup place

/-- The store after a winner went out. -/
def afterWinner (service : RelayService) (engine : SearchEngine) (start : Store) (store : Store)
    (winner : Candidate) : Store :=
  let payload := outgoing service.runtime start winner
  if bodyBytes payload ≥ maxEpisodeBodyBytes then store
  else service.writer.upserted engine payload
    (some (episodeMetaOf (buildEnvelope service.runtime payload))) store

/-- A winner is settled in a store: it is too large to go out, or its content is stored. -/
def SettledIn (service : RelayService) (start : Store) (winner : Candidate) (store : Store) :
    Prop :=
  bodyBytes (outgoing service.runtime start winner) ≥ maxEpisodeBodyBytes ∨
    ¬service.writer.Puts (outgoing service.runtime start winner) store

instance (service : RelayService) (start : Store) (winner : Candidate) (store : Store) :
    Decidable (SettledIn service start winner store) :=
  inferInstanceAs (Decidable (_ ∨ _))

namespace ReindexRun

variable {service : RelayService} {engine : SearchEngine} {start store : Store}
  {winners : List Candidate} {winner : Candidate}

theorem recordPlace_outgoing (runtime : Runtime) (writer : DeterministicWriter) :
    writer.recordPlace (outgoing runtime start winner) = writer.recordPlace winner.payload := by
  unfold outgoing
  cases kept : preserved runtime winner.payload start with
  | error error => rfl
  | ok payload =>
    rcases preserved_eq_ok kept with rfl | ⟨_, lessons, _, rfl⟩
    · rfl
    · rfl

theorem Setting.preserved_start (setting : Setting service start winners)
    (member : winner ∈ winners) :
    preserved service.runtime winner.payload start =
      .ok (outgoing service.runtime start winner) := by
  obtain ⟨payload, kept⟩ := preserved_of_format setting.format
    (setting.outcomes winner member).instanceOf.payloadType
  rw [outgoing, kept]

theorem Setting.taskOutcome (setting : Setting service start winners) (member : winner ∈ winners) :
    TaskOutcome (outgoing service.runtime start winner) :=
  taskOutcome_of_preserved (setting.outcomes winner member) setting.format
    (setting.preserved_start member)

/-- In every store that is reached, a winner goes out with the same payload. -/
theorem Setting.preserved_reached (setting : Setting service start winners)
    (reached : Reached service start winners store) (member : winner ∈ winners) :
    preserved service.runtime winner.payload store =
      .ok (outgoing service.runtime start winner) := by
  have atStart := setting.preserved_start member
  rcases reached.records winner member with same | ⟨value, stored, content⟩
  · rw [← atStart]
    exact preserved_congr same
  · have lookup : store.lookup ⟨recordNamespace winner.payload,
        recordIdentity service.runtime winner.payload.naturalKey⟩ = some value := stored
    have read := storedLessons_of_dump (setting.reads winner member)
    rcases preserved_eq_ok atStart with same | ⟨own, lessons, truthy, same⟩
    · unfold preserved
      split
      · rename_i own
        rw [lookup]
        dsimp only
        rw [content, read, same, own]
        rfl
      · rw [same]
    · unfold preserved
      rw [own]
      dsimp only
      rw [lookup]
      dsimp only
      rw [content, read, same, get_lessons_withLessons, Option.filter, if_pos truthy]
      rfl

theorem reached_start : Reached service start winners start where
  records _ _ := Or.inl rfl
  others _ _ := rfl

/-- What stands at a place after a winner went out. -/
theorem lookup_afterWinner (place : Place) :
    (afterWinner service engine start store winner).lookup place =
      if ¬SettledIn service start winner store ∧
          place = service.writer.recordPlace winner.payload then
        some (service.writer.putValue engine (outgoing service.runtime start winner)
          (some (episodeMetaOf (buildEnvelope service.runtime
            (outgoing service.runtime start winner)))) store)
      else store.lookup place := by
  unfold afterWinner SettledIn
  dsimp only
  split
  · rename_i large
    rw [if_neg fun both => both.1 (Or.inl large)]
  · rename_i small
    rw [lookup_upserted, recordPlace_outgoing]
    by_cases puts : service.writer.Puts (outgoing service.runtime start winner) store
    · simp [small, puts]
    · simp [puts]

/-- A winner that is settled leaves the store as it is. -/
theorem afterWinner_of_settled (settled : SettledIn service start winner store) :
    afterWinner service engine start store winner = store := by
  apply Finmap.ext_lookup
  intro place
  rw [lookup_afterWinner, if_neg fun both => both.1 settled]

/-- A winner is settled when it went out. -/
theorem settledIn_afterWinner :
    SettledIn service start winner (afterWinner service engine start store winner) := by
  by_cases settled : SettledIn service start winner store
  · rwa [afterWinner_of_settled settled]
  · refine Or.inr fun puts => puts ?_
    rw [recordPlace_outgoing, lookup_afterWinner, if_pos ⟨settled, rfl⟩, Option.bind_some,
      contentHash_putValue]

/-- A winner stays settled when another one goes out. -/
theorem Setting.settledIn_kept (setting : Setting service start winners) {other : Candidate}
    (member : winner ∈ winners) (inside : other ∈ winners)
    (settled : SettledIn service start winner store) :
    SettledIn service start winner (afterWinner service engine start store other) := by
  by_cases same : service.writer.recordPlace winner.payload =
      service.writer.recordPlace other.payload
  · obtain rfl := setting.apart winner member other inside same
    rwa [afterWinner_of_settled settled]
  · refine settled.imp_right fun stored puts => stored ?_
    unfold DeterministicWriter.Puts at puts ⊢
    rwa [recordPlace_outgoing, lookup_afterWinner, if_neg fun both => same both.2,
      ← recordPlace_outgoing service.runtime service.writer] at puts

theorem Setting.reached_afterWinner (setting : Setting service start winners)
    (reached : Reached service start winners store) (member : winner ∈ winners) :
    Reached service start winners (afterWinner service engine start store winner) where
  records := by
    intro other inside
    rw [lookup_afterWinner]
    split
    · rename_i put
      obtain rfl := setting.apart other inside winner member put.2
      exact Or.inr ⟨_, rfl, content_putValue⟩
    · exact reached.records other inside
  others := by
    intro place outside
    rw [lookup_afterWinner, if_neg fun both => outside winner member both.2]
    exact reached.others place outside

/-- Winners settle. -/
theorem Setting.settles (setting : Setting service start winners) :
    Settling.Settles (afterWinner service engine start) (Reached service start winners)
      (SettledIn service start) winners where
  keeps _ member _ reached := setting.reached_afterWinner reached member
  still _ _ _ _ settled := afterWinner_of_settled settled
  reached _ _ _ _ := settledIn_afterWinner
  kept _ member _ inside _ _ settled := setting.settledIn_kept member inside settled

/-! ### What a run leaves -/

/-- A store that is reached has room for one more record. -/
theorem Setting.room_reached (setting : Setting service start winners)
    (reached : Reached service start winners store) :
    store.keys.card < forwardPage * service.writer.pages := by
  have few : store.keys ⊆ start.keys ∪
      (winners.map fun winner => service.writer.recordPlace winner.payload).toFinset := by
    intro place member
    obtain ⟨value, stored⟩ := mem_keys_iff.mp member
    by_cases outside : ∀ winner ∈ winners, place ≠ service.writer.recordPlace winner.payload
    · rw [reached.others place outside] at stored
      exact Finset.mem_union_left _ (mem_keys_iff.mpr ⟨value, stored⟩)
    · push Not at outside
      obtain ⟨winner, inside, rfl⟩ := outside
      exact Finset.mem_union_right _
        (List.mem_toFinset.mpr (List.mem_map.mpr ⟨winner, inside, rfl⟩))
  calc store.keys.card
      ≤ _ := Finset.card_le_card few
    _ ≤ start.keys.card + (winners.map fun winner =>
          service.writer.recordPlace winner.payload).toFinset.card := Finset.card_union_le _ _
    _ ≤ start.keys.card + winners.length :=
        Nat.add_le_add_left ((List.toFinset_card_le _).trans_eq (List.length_map _)) _
    _ < _ := setting.room

theorem accepts_of_taskOutcome {payload : Payload} (outcome : TaskOutcome payload) :
    Accepts payload := by
  constructor
  · rw [outcome.instanceOf.payloadType]
    decide
  · rw [recordNamespace, outcome.project, outcome.instanceOf.payloadType]
    decide

/-- What is published is ingested, unless it is too large. -/
theorem Setting.run_relayPublisher (setting : Setting service start winners)
    (reached : Reached service start winners store) (member : winner ∈ winners) :
    ∃ skipReason, (relayPublisher service (outgoing service.runtime start winner)).run
      (storeWorld engine) store =
        (.returned skipReason, afterWinner service engine start store winner) := by
  have outcome := setting.taskOutcome member
  have parsed := @payloadOf_buildEnvelope service _ _ (by simp [payloadRegistry])
    outcome.instanceOf setting.takes (setting.reads winner member)
  unfold relayPublisher afterWinner
  dsimp only
  split
  · exact ⟨_, rfl⟩
  · have ingested := @RelayService.run_ingest_of_accepts service engine _ _ store rfl parsed
      (accepts_of_taskOutcome outcome) (setting.room_reached reached)
    rw [written, outcome.supersedes] at ingested
    rw [Program.run_bind, ingested]
    exact ⟨none, rfl⟩

/-- A winner that goes out leaves the store `afterWinner` says. -/
theorem Setting.run_publishWinner (setting : Setting service start winners)
    (reached : Reached service start winners store) (member : winner ∈ winners)
    (done : Published) :
    ∃ next, (publishWinner service.runtime (some (relayPublisher service)) true done winner).run
      (storeWorld engine) store =
        (.returned next, afterWinner service engine start store winner) := by
  have reads : (outgoingPayload service.runtime true winner.payload).run (storeWorld engine)
      store = (.returned (outgoing service.runtime start winner), store) := by
    rw [outgoingPayload, if_pos rfl, run_preserveExistingLessons,
      setting.preserved_reached reached member]
    rfl
  obtain ⟨skipReason, publishes⟩ :=
    @Setting.run_relayPublisher service engine start store winners winner setting reached member
  exact ⟨_, run_publishWinner_of reads publishes⟩

/-- Winners that go out one after the other leave the store of their steps. -/
theorem Setting.run_publishWinners (setting : Setting service start winners) {more : List Candidate}
    (reached : Reached service start winners store) (fewer : more ⊆ winners) (done : Published) :
    ((publishWinners service.runtime (some (relayPublisher service)) true done more).run
      (storeWorld engine) store).2 = more.foldl (afterWinner service engine start) store := by
  induction more generalizing done store with
  | nil => rfl
  | cons winner rest inductionHypothesis =>
    have member := fewer List.mem_cons_self
    obtain ⟨next, first⟩ := @Setting.run_publishWinner service engine start store winners winner
      setting reached member done
    rw [publishWinners, Program.run_bind, first, List.foldl_cons]
    dsimp only
    exact inductionHypothesis (setting.reached_afterWinner reached member)
      (fun later inside => fewer (List.mem_cons_of_mem winner inside)) next

/-! ### Lessons -/

/-- The content of a record has lessons that are not empty. -/
def HasLessons (runtime : Runtime) (value : StoredValue) : Prop :=
  ∃ entries lessons, runtime.loads value.content = .ok (.dict entries) ∧
    PyDict.get entries "lessons" = some lessons ∧ lessons.truthy = true

theorem hasLessons_of_dump {runtime : Runtime} {value : StoredValue} {payload : Payload}
    (reads : ReadsBack runtime payload.modelDump)
    (content : value.content = Json.dumps (.dict payload.modelDump)) :
    HasLessons runtime value ↔
      ∃ lessons, PyDict.get payload.own "lessons" = some lessons ∧ lessons.truthy = true := by
  obtain ⟨parsed, loads, same⟩ := reads
  have read : PyDict.get parsed "lessons" = PyDict.get payload.own "lessons" := by
    rw [same, get_lessons_of_modelDump]
  constructor
  · rintro ⟨entries, lessons, loaded, found, truthy⟩
    rw [content, loads] at loaded
    obtain rfl := PyValue.dict.inj (Except.ok.inj loaded)
    exact ⟨lessons, by rw [← read, found], truthy⟩
  · rintro ⟨lessons, found, truthy⟩
    exact ⟨parsed, lessons, by rw [content, loads], by rw [read, found], truthy⟩

/-- A winner goes out with lessons when the record at its place has some. -/
theorem Setting.lessons_outgoing (setting : Setting service start winners)
    (reached : Reached service start winners store) (member : winner ∈ winners) {value : StoredValue}
    (stored : store.lookup (service.writer.recordPlace winner.payload) = some value)
    (has : HasLessons service.runtime value) :
    ∃ lessons, PyDict.get (outgoing service.runtime start winner).own "lessons" = some lessons ∧
      lessons.truthy = true := by
  rcases reached.records winner member with same | ⟨other, found, content⟩
  · have outcome := setting.outcomes winner member
    rw [stored] at same
    obtain ⟨payload, _, content, reads⟩ := setting.format _ value winner.payload.project same.symm
      (by rw [recordPlace, recordNamespace, outcome.instanceOf.payloadType]; rfl)
    obtain ⟨lessons, found, truthy⟩ := (hasLessons_of_dump reads content).mp has
    have atStart : start.lookup ⟨recordNamespace winner.payload,
        recordIdentity service.runtime winner.payload.naturalKey⟩ = some value := same.symm
    rcases outcome.lessons with own | ⟨text, own, nonempty⟩
    · have carried : outgoing service.runtime start winner = winner.payload.withLessons lessons := by
        rw [outgoing, preserved, own]
        dsimp only
        rw [atStart]
        dsimp only
        rw [content, storedLessons_of_dump reads, found, Option.filter, if_pos truthy]
        rfl
      exact ⟨lessons, by rw [carried, get_lessons_withLessons], truthy⟩
    · have kept : outgoing service.runtime start winner = winner.payload := by
        rw [outgoing, preserved, own]
      refine ⟨.str text, by rw [kept, own], ?_⟩
      rw [PyValue.truthy, nonempty]
      rfl
  · rw [stored] at found
    obtain rfl := Option.some.inj found
    exact (hasLessons_of_dump (setting.reads winner member) content).mp has

/-- A record with lessons still has some when a winner went out. -/
theorem Setting.lessons_afterWinner (setting : Setting service start winners)
    (reached : Reached service start winners store) (member : winner ∈ winners) {place : Place}
    (has : ∃ value, store.lookup place = some value ∧ HasLessons service.runtime value) :
    ∃ value, (afterWinner service engine start store winner).lookup place = some value ∧
      HasLessons service.runtime value := by
  obtain ⟨value, stored, lessons⟩ := has
  rw [lookup_afterWinner]
  split
  · rename_i put
    rw [put.2] at stored
    refine ⟨_, rfl, (hasLessons_of_dump (setting.reads winner member) ?_).mpr
      (setting.lessons_outgoing reached member stored lessons)⟩
    exact content_putValue
  · exact ⟨value, stored, lessons⟩

theorem Setting.lessons_foldl (setting : Setting service start winners) {more : List Candidate}
    (reached : Reached service start winners store) (fewer : more ⊆ winners) {place : Place}
    (has : ∃ value, store.lookup place = some value ∧ HasLessons service.runtime value) :
    ∃ value, (more.foldl (afterWinner service engine start) store).lookup place = some value ∧
      HasLessons service.runtime value := by
  induction more generalizing store with
  | nil => exact has
  | cons winner rest inductionHypothesis =>
    have member := fewer List.mem_cons_self
    rw [List.foldl_cons]
    exact inductionHypothesis (setting.reached_afterWinner reached member)
      (fun later inside => fewer (List.mem_cons_of_mem winner inside))
      (setting.lessons_afterWinner reached member has)

theorem Setting.lessons_brokenOff (setting : Setting service start winners)
    (reached : Reached service start winners store) (counts : List Nat) {place : Place}
    (has : ∃ value, store.lookup place = some value ∧ HasLessons service.runtime value) :
    ∃ value, (Settling.Settles.brokenOff (afterWinner service engine start) winners store
      counts).lookup place = some value ∧ HasLessons service.runtime value := by
  induction counts generalizing store with
  | nil => exact has
  | cons count rest inductionHypothesis =>
    have fewer : winners.take count ⊆ winners := List.take_subset count winners
    exact inductionHypothesis
      (((setting.settles).sublist fewer).invariant_foldl reached)
      (setting.lessons_foldl reached fewer has)

end ReindexRun

/-! ### Whole and broken-off runs -/

section

variable {service : RelayService} {yaml : YamlLibrary} {manifest : CorpusManifest}
  {docs : List CorpusDocument} {engine : SearchEngine} {start store : Store}

/-- The winners have natural keys of their own. -/
theorem nodup_naturalKeys (runtime : Runtime) (candidates : List Candidate) :
    ((resolveCollisions runtime candidates).winners.map
      fun winner => winner.payload.naturalKey).Nodup := by
  have distinct := @nodup_identifiers runtime candidates
  refine (List.Nodup.of_map _ distinct).map_on ?_
  intro one member other inside same
  exact List.inj_on_of_nodup_map distinct member inside (identifier_of_naturalKey same)

/-- What the winners of a corpus satisfy. -/
theorem setting_of_winners (takes : TakesIntegers service.runtime)
    (format : WriterFormat service.runtime start)
    (room : start.keys.card + (winnersOf yaml manifest docs service.runtime).length <
      forwardPage * service.writer.pages)
    (reads : ∀ winner ∈ winnersOf yaml manifest docs service.runtime,
      ReadsBack service.runtime (outgoing service.runtime start winner).modelDump)
    (apart : ∀ one ∈ winnersOf yaml manifest docs service.runtime,
      ∀ other ∈ winnersOf yaml manifest docs service.runtime,
        service.runtime.uuid5 one.payload.naturalKey =
            service.runtime.uuid5 other.payload.naturalKey →
          one.payload.naturalKey = other.payload.naturalKey) :
    ReindexRun.Setting service start (winnersOf yaml manifest docs service.runtime) := by
  have outcomes : ∀ winner ∈ winnersOf yaml manifest docs service.runtime,
      TaskOutcome winner.payload := by
    intro winner member
    unfold winnersOf at member
    split at member
    · rename_i examined all
      exact taskOutcome_of_winner (except_mapM_eq_ok.mp all) member
    · cases member
  have distinct : ((winnersOf yaml manifest docs service.runtime).map
      Candidate.identifier).Nodup := by
    unfold winnersOf
    split
    · exact nodup_identifiers _
    · exact List.nodup_nil
  refine ⟨takes, format, room, outcomes, reads, ?_⟩
  intro one member other inside same
  have keys := apart one member other inside (congrArg Place.key same)
  exact List.inj_on_of_nodup_map distinct member inside (identifier_of_naturalKey keys)

/-- The store after a whole run. -/
def afterComplete (service : RelayService) (yaml : YamlLibrary) (manifest : CorpusManifest)
    (docs : List CorpusDocument) (engine : SearchEngine) (store : Store) : Store :=
  ((completeRun service yaml manifest docs).run (storeWorld engine) store).2

/-- The store after runs that were broken off, each after a number of its winners. -/
def afterInterrupted (service : RelayService) (yaml : YamlLibrary) (manifest : CorpusManifest)
    (docs : List CorpusDocument) (engine : SearchEngine) (store : Store) (counts : List Nat) :
    Store :=
  counts.foldl (fun reached count =>
    ((interruptedRun service yaml manifest docs count).run (storeWorld engine) reached).2) store

theorem state_of_bind_pure {Result Other : Type} (program : StoreM Result)
    (transform : Result → Other) :
    ((program >>= fun result => pure (transform result)).run (storeWorld engine) store).2 =
      (program.run (storeWorld engine) store).2 := by
  rw [Program.run_bind]
  cases program.run (storeWorld engine) store with
  | mk outcome after => cases outcome <;> rfl

theorem winnersOf_of_ok {examined : List Examined}
    (all : docs.mapM (examine service.runtime yaml manifest) = .ok examined) :
    winnersOf yaml manifest docs service.runtime =
      (resolveCollisions service.runtime (examined.filterMap Examined.candidate?)).winners := by
  rw [winnersOf, all]

theorem winnersOf_of_error {error : PyError}
    (raised : docs.mapM (examine service.runtime yaml manifest) = .error error) :
    winnersOf yaml manifest docs service.runtime = [] := by
  rw [winnersOf, raised]

section

variable
  (setting : ReindexRun.Setting service start (winnersOf yaml manifest docs service.runtime))
  (reached : ReindexRun.Reached service start (winnersOf yaml manifest docs service.runtime) store)

include setting reached

/-- A whole run lets every winner go out. -/
theorem afterComplete_eq :
    afterComplete service yaml manifest docs engine store =
      (winnersOf yaml manifest docs service.runtime).foldl (afterWinner service engine start)
        store := by
  unfold afterComplete completeRun reindexCorpus
  cases all : docs.mapM (examine service.runtime yaml manifest) with
  | error error =>
    rw [winnersOf_of_error all]
    rfl
  | ok examined =>
    rw [lift_ok_bind]
    dsimp only
    rw [state_of_bind_pure, ← winnersOf_of_ok all]
    exact setting.run_publishWinners reached (List.Subset.refl _) _

/-- A run that is broken off lets its first winners go out. -/
theorem run_interruptedRun (count : Nat) :
    ((interruptedRun service yaml manifest docs count).run (storeWorld engine) store).2 =
      ((winnersOf yaml manifest docs service.runtime).take count).foldl
        (afterWinner service engine start) store := by
  unfold interruptedRun
  cases all : docs.mapM (examine service.runtime yaml manifest) with
  | error error =>
    rw [winnersOf_of_error all, List.take_nil]
    rfl
  | ok examined =>
    rw [lift_ok_bind]
    dsimp only
    rw [← winnersOf_of_ok all]
    exact setting.run_publishWinners reached (List.take_subset count _) _

theorem afterInterrupted_eq (counts : List Nat) :
    afterInterrupted service yaml manifest docs engine store counts =
      Settling.Settles.brokenOff (afterWinner service engine start)
        (winnersOf yaml manifest docs service.runtime) store counts := by
  unfold afterInterrupted Settling.Settles.brokenOff
  induction counts generalizing store with
  | nil => rfl
  | cons count rest inductionHypothesis =>
    have fewer := List.take_subset count (winnersOf yaml manifest docs service.runtime)
    rw [List.foldl_cons, List.foldl_cons, run_interruptedRun setting reached count]
    exact inductionHypothesis ((setting.settles.sublist fewer).invariant_foldl reached)

end

end

/-- A whole run after any broken-off runs ends in the store of a whole run from the start, one more
whole run changes nothing, and a record that has lessons after some of the runs has lessons after
any more of them. -/
theorem reindex_idempotent (service : RelayService) (yaml : YamlLibrary)
    (manifest : CorpusManifest) (docs : List CorpusDocument) (engine : SearchEngine)
    (start : Store) (takes : TakesIntegers service.runtime)
    (format : WriterFormat service.runtime start)
    (room : start.keys.card + (winnersOf yaml manifest docs service.runtime).length <
      forwardPage * service.writer.pages)
    (reads : ∀ winner ∈ winnersOf yaml manifest docs service.runtime,
      ReadsBack service.runtime (outgoing service.runtime start winner).modelDump)
    (apart : ∀ one ∈ winnersOf yaml manifest docs service.runtime,
      ∀ other ∈ winnersOf yaml manifest docs service.runtime,
        service.runtime.uuid5 one.payload.naturalKey =
            service.runtime.uuid5 other.payload.naturalKey →
          one.payload.naturalKey = other.payload.naturalKey) :
    let complete := afterComplete service yaml manifest docs engine
    let interrupted := afterInterrupted service yaml manifest docs engine start
    (∀ counts, complete (interrupted counts) = complete start) ∧
      complete (complete start) = complete start ∧
      ∀ counts more place value, (interrupted counts).lookup place = some value →
        ReindexRun.HasLessons service.runtime value →
          (∃ kept, (interrupted (counts ++ more)).lookup place = some kept ∧
            ReindexRun.HasLessons service.runtime kept) ∧
          ∃ kept, (complete (interrupted (counts ++ more))).lookup place = some kept ∧
            ReindexRun.HasLessons service.runtime kept := by
  have setting := setting_of_winners takes format room reads apart
  have settles := @ReindexRun.Setting.settles service engine start _ setting
  have initially := @ReindexRun.reached_start service start
    (winnersOf yaml manifest docs service.runtime)
  have reached (counts : List Nat) := settles.invariant_brokenOff initially counts
  dsimp only
  refine ⟨fun counts => ?_, ?_, ?_⟩
  · rw [afterInterrupted_eq setting initially, afterComplete_eq setting (reached counts),
      afterComplete_eq setting initially]
    exact settles.foldl_brokenOff initially counts
  · rw [afterComplete_eq setting initially,
      afterComplete_eq setting (settles.invariant_foldl initially)]
    exact settles.foldl_foldl initially
  · intro counts more place value stored has
    have split : afterInterrupted service yaml manifest docs engine start (counts ++ more) =
        Settling.Settles.brokenOff (afterWinner service engine start)
          (winnersOf yaml manifest docs service.runtime)
          (afterInterrupted service yaml manifest docs engine start counts) more := by
      rw [afterInterrupted_eq setting initially, afterInterrupted_eq setting initially]
      exact List.foldl_append
    rw [split]
    rw [afterInterrupted_eq setting initially] at stored ⊢
    have later := settles.invariant_brokenOff (reached counts) more
    have kept := @ReindexRun.Setting.lessons_brokenOff service engine start _ _ setting
      (reached counts) more place ⟨value, stored, has⟩
    refine ⟨kept, ?_⟩
    rw [afterComplete_eq setting later]
    exact setting.lessons_foldl later (List.Subset.refl _) kept

section Sample

/-- A completed task without lessons. -/
def plainTask : CorpusDocument where
  path := "docs/T.md"
  text := "---\nid: T\nstatus: completed\n---\n# T\n"

/-- The front matter of the task. -/
def plainFrontmatter : YamlDict :=
  [(.str "id", .str "T"), (.str "status", .str "completed")]

/-- The YAML library on the text of the front matter. -/
def plainYaml : YamlLibrary where
  safeLoad _ := .ok (.dict plainFrontmatter)
  format _ := .ok ""

/-- The build outcome of the task. -/
def plainOutcome : Payload where
  toPayloadFields := {
    payloadType := "build_outcome", project := "guardkit", identifier := "T",
    domainTags := ["task", "fm-status:completed"], sourceRef := "docs/T.md", version := 1,
    supersedes := [],
    own := [("status", .str "success"), ("duration_seconds", .int 0), ("task_id", .str "T"),
      ("lessons", .none), ("approach", .none)] }
  valid := ⟨by decide, by decide, by decide, by decide, by decide, by decide⟩

/-- The candidate the task is examined to. -/
def plainCandidate : Candidate where
  relativePath := "docs/T.md"
  title := none
  payload := plainOutcome
  kind := "build_outcome"

/-- The functions on the key and the contents of the build outcome, with stored lessons and without,
over the reader of JSON. -/
def plainRuntime : Runtime :=
  { Runtime.ofTables [("build_outcome:guardkit:T", "e48b644e-3e25-52d6-b925-9b4a3fd08d89")]
      [("build_outcome:guardkit:T",
          "95372492bb308fda12e0903c8ae61c103908d971cadbad01a231fc4b6513cf31"),
        (content "\"caf\\u00e9\"",
          "6d0d0d84d590354fa3a96703e7e600ddc9f558c3ced6214cdda4c7d062fe0357"),
        (content "null", "64c75e6700c7dbe8ea4e0b58a4522ade107193a50bda58a23149e7f182e2ff36")] [] with
    loads := Json.load PyFloat.mk }
where
  content (lessons : String) : String :=
    "\x7b\"approach\":null,\"domain_tags\":[\"task\",\"fm-status:completed\"]," ++
      "\"duration_seconds\":0,\"identifier\":\"T\",\"lessons\":" ++ lessons ++ "," ++
      "\"natural_key\":\"build_outcome:guardkit:T\",\"project\":\"guardkit\"," ++
      "\"source_ref\":\"docs/T.md\",\"status\":\"success\",\"supersedes\":[]," ++
      "\"task_id\":\"T\"\x7d"

def plainService : RelayService where
  writer := ⟨plainRuntime, 1⟩
  settings := ⟨1000, ⟨"0.15"⟩⟩

/-- The build outcome with the lessons that are stored for it. -/
def distilledOutcome : Payload :=
  plainOutcome.withLessons (.str "café")

/-- A store that holds it. -/
def distilledStore : Store :=
  (∅ : Store).insert (plainService.writer.recordPlace distilledOutcome)
    (storedValue distilledOutcome (contentHash plainRuntime distilledOutcome) 1 none)

theorem instanceOf_plainOutcome : plainOutcome.InstanceOf BuildOutcomePayload where
  payloadType := rfl
  own := .cons ⟨rfl, _, rfl⟩ (.cons ⟨rfl, _, rfl⟩ (.cons ⟨rfl, Or.inr ⟨_, rfl⟩⟩
    (.cons ⟨rfl, Or.inl rfl⟩ (.cons ⟨rfl, Or.inl rfl⟩ .nil))))

theorem taskOutcome_plainOutcome : TaskOutcome plainOutcome :=
  ⟨instanceOf_plainOutcome, rfl, rfl, Or.inl rfl⟩

theorem taskOutcome_distilledOutcome : TaskOutcome distilledOutcome :=
  taskOutcome_plainOutcome.withLessons (by decide)

theorem readsBack_distilledOutcome : ReadsBack plainRuntime distilledOutcome.modelDump :=
  readsBack_modelDump rfl (by simp [payloadRegistry]) taskOutcome_distilledOutcome.instanceOf
    (by decide +kernel)

theorem writerFormat_distilledStore : WriterFormat plainRuntime distilledStore := by
  intro place value project stored _
  rw [distilledStore, lookup_insert] at stored
  split at stored
  · obtain rfl := Option.some.inj stored
    exact ⟨distilledOutcome, taskOutcome_distilledOutcome.instanceOf, rfl,
      readsBack_distilledOutcome⟩
  · cases stored

theorem examine_plainTask :
    examine plainRuntime plainYaml CorpusManifest.slashManifest plainTask =
      .ok (.candidate plainCandidate) := by
  have resolved : CorpusManifest.slashManifest.resolveKind plainTask.relativePath =
      some ("build_outcome", "reindex") := by decide +kernel
  have block : (Markdown.frontmatterBlock plainTask.text).isSome = true := by decide +kernel
  obtain ⟨content, found⟩ := Option.isSome_iff_exists.mp block
  have extracted : plainYaml.extractFrontmatter plainTask.text =
      .ok (.dict plainFrontmatter) := by
    rw [YamlLibrary.extractFrontmatter, found]
    rfl
  have stripped : Text.strip "completed" = "completed" := by decide +kernel
  have status : plainYaml.statusOf plainFrontmatter = .ok "completed" := by
    show Except.ok (Text.strip "completed") = _
    rw [stripped]
  have terminal : "completed".toLower ∈ terminalStatuses := by decide +kernel
  have classified : classifyDocument plainYaml CorpusManifest.slashManifest plainTask =
      .ok { kind := some "build_outcome", frontmatter := some plainFrontmatter,
            skipReason := none } := by
    rw [classifyDocument_of_id resolved extracted (by decide) (by decide), status, Except.map,
      if_neg (not_not.mpr terminal)]
  have lessons : Markdown.extractLessons plainTask.text = none := by decide +kernel
  have parsed : parseCompletedTask plainRuntime plainYaml plainTask plainFrontmatter =
      .ok (.parsed plainOutcome) := by
    have identifier : sanitizeIdentifier "T" = "T" := by decide +kernel
    have path : plainTask.relativePath = "docs/T.md" := by decide +kernel
    have id : plainFrontmatter.get "id" = some (.str "T") := rfl
    have built : BuildOutcomePayload.init plainRuntime (outcomeArguments "T" "docs/T.md" none
        ["task", "fm-status:completed"]) = .ok plainOutcome := rfl
    have text : plainYaml.str (.str "T") = .ok "T" := rfl
    have tags : normalizeTags plainYaml (plainFrontmatter.get "tags") = .ok [] := rfl
    rw [parseCompletedTask, id]
    dsimp only
    rw [if_neg (by decide), status]
    dsimp only [bind, Except.bind]
    rw [if_neg (not_not.mpr terminal), text, tags]
    dsimp only
    rw [identifier, path, lessons]
    have joined : "fm-status:" ++ "completed" = "fm-status:completed" := by decide
    rw [joined]
    rw [List.nil_append, built]
    rfl
  rw [examine_of_publishable classified, parsed]
  rfl

theorem winnersOf_plainTask :
    winnersOf plainYaml CorpusManifest.slashManifest [plainTask] plainRuntime =
      [plainCandidate] := by
  have all : [plainTask].mapM (examine plainRuntime plainYaml CorpusManifest.slashManifest) =
      .ok [.candidate plainCandidate] := by
    rw [List.mapM_cons, examine_plainTask]
    rfl
  rw [winnersOf, all]
  rfl

theorem outgoing_plainCandidate :
    outgoing plainRuntime distilledStore plainCandidate = distilledOutcome := by
  have stored : distilledStore.lookup ⟨recordNamespace plainOutcome,
      recordIdentity plainRuntime plainOutcome.naturalKey⟩ =
        some (storedValue distilledOutcome (contentHash plainRuntime distilledOutcome) 1 none) :=
    lookup_insert_self
  have kept : preserved plainRuntime plainOutcome distilledStore = .ok distilledOutcome :=
    preserved_of_stored rfl stored (storedLessons_of_dump readsBack_distilledOutcome)
  have same : plainCandidate.payload = plainOutcome := rfl
  rw [outgoing, same, kept]

/-- A run over the task keeps the lessons that are stored for it. -/
theorem reindex_idempotent_plainTask :
    let complete := afterComplete plainService plainYaml CorpusManifest.slashManifest [plainTask]
      (prefixEngine fun _ _ _ => none)
    let interrupted := afterInterrupted plainService plainYaml CorpusManifest.slashManifest
      [plainTask] (prefixEngine fun _ _ _ => none) distilledStore
    (∀ counts, complete (interrupted counts) = complete distilledStore) ∧
      complete (complete distilledStore) = complete distilledStore ∧
      ∀ counts more place value, (interrupted counts).lookup place = some value →
        ReindexRun.HasLessons plainService.runtime value →
          (∃ kept, (interrupted (counts ++ more)).lookup place = some kept ∧
            ReindexRun.HasLessons plainService.runtime kept) ∧
          ∃ kept, (complete (interrupted (counts ++ more))).lookup place = some kept ∧
            ReindexRun.HasLessons plainService.runtime kept := by
  have winners : winnersOf plainYaml CorpusManifest.slashManifest [plainTask]
      plainService.runtime = [plainCandidate] := winnersOf_plainTask
  refine reindex_idempotent plainService plainYaml CorpusManifest.slashManifest [plainTask]
    (prefixEngine fun _ _ _ => none) distilledStore (fun _ => rfl) writerFormat_distilledStore ?_
    ?_ ?_
  · rw [winners]
    decide
  · intro winner member
    rw [winners] at member
    rw [List.mem_singleton.mp member]
    show ReadsBack plainRuntime (outgoing plainRuntime distilledStore plainCandidate).modelDump
    rw [outgoing_plainCandidate]
    exact readsBack_distilledOutcome
  · intro one member other inside _
    rw [winners] at member inside
    rw [List.mem_singleton.mp member, List.mem_singleton.mp inside]

end Sample

end FleetMemory
