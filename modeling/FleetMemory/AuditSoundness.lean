/-
This file proves when the audit of a reindex run is sound. The messages of the run are
ingested, dead-lettered or lost in any order, over whatever records and dead letters
earlier runs left. The audit asks for a record or a dead letter under each key and not
what they hold, so what an earlier run left stands in for a message that was lost.
-/

import FleetMemory.ReindexAudit

namespace FleetMemory

open StoreProgram DeterministicWriter

/-! ### A run reports every key once -/

section

variable {runtime : Runtime} {engine : SearchEngine} {publisher : Option PublisherFn}
  {preserving : Bool}

theorem naturalKey_of_outgoingPayload {payload outgoing : Payload} {store after : Store}
    (returned : (outgoingPayload runtime preserving payload).run (storeWorld engine) store =
      (.returned outgoing, after)) : outgoing.naturalKey = payload.naturalKey := by
  unfold outgoingPayload at returned
  cases preserving with
  | false =>
    obtain ⟨same, _⟩ := Prod.mk.inj returned
    rw [Outcome.returned.inj same]
  | true =>
    rw [if_pos rfl, run_preserveExistingLessons] at returned
    cases kept : preserved runtime payload store with
    | error error => simp [kept, Outcome.ofExcept] at returned
    | ok found =>
      rw [kept] at returned
      obtain rfl := Outcome.returned.inj (Prod.mk.inj returned).1
      exact naturalKey_of_preserved kept

/-- What a loop over winners reports as published are keys of winners, in their order. -/
theorem publishedNaturalKeys_of_publishWinners {winners : List Candidate} {done last : Published}
    {store after : Store}
    (returned : (publishWinners runtime publisher preserving done winners).run (storeWorld engine)
      store = (.returned last, after)) :
    ∃ keys, last.publishedNaturalKeys = done.publishedNaturalKeys ++ keys ∧
      keys.Sublist (winners.map fun winner => winner.payload.naturalKey) := by
  induction winners generalizing done store with
  | nil =>
    obtain rfl := Outcome.returned.inj (Prod.mk.inj returned).1
    exact ⟨[], (List.append_nil _).symm, .slnil⟩
  | cons winner rest inductionHypothesis =>
    rw [publishWinners, Program.run_bind, publishWinner, Program.run_bind] at returned
    cases reads : (outgoingPayload runtime preserving winner.payload).run (storeWorld engine)
        store with
    | mk outcome middle =>
      cases outcome with
      | raised error => simp [reads] at returned
      | hung => simp [reads] at returned
      | returned outgoing =>
        rw [reads] at returned
        dsimp only at returned
        rw [Program.run_bind] at returned
        cases publishes : (publishOrCount publisher outgoing).run (storeWorld engine) middle with
        | mk answer later =>
          cases answer with
          | raised error => simp [publishes] at returned
          | hung => simp [publishes] at returned
          | returned skipReason =>
            rw [publishes] at returned
            obtain ⟨keys, gathered, sublist⟩ := inductionHypothesis returned
            cases skipReason with
            | some reason => exact ⟨keys, gathered, sublist.cons _⟩
            | none =>
              refine ⟨winner.payload.naturalKey :: keys, ?_, sublist.cons_cons _⟩
              rw [gathered, Published.record, naturalKey_of_outgoingPayload reads]
              simp

/-- The report of a run names every key once. -/
theorem nodup_publishedNaturalKeys {yaml : YamlLibrary} {manifest : CorpusManifest}
    {docs : List CorpusDocument} {report : RunReport} {store after : Store}
    (reported : (reindexCorpus runtime yaml manifest publisher preserving docs).run
      (storeWorld engine) store = (.returned report, after)) :
    report.publishedNaturalKeys.Nodup := by
  unfold reindexCorpus at reported
  cases all : docs.mapM (examine runtime yaml manifest) with
  | error error => simp [all, run_lift_error] at reported
  | ok examined =>
    rw [all, lift_ok_bind, Program.run_bind] at reported
    cases looped : (publishWinners runtime publisher preserving
        ⟨examined.filterMap Examined.skipped? ++ (resolveCollisions runtime
          (examined.filterMap Examined.candidate?)).skipped, [], []⟩
        (resolveCollisions runtime (examined.filterMap Examined.candidate?)).winners).run
          (storeWorld engine) store with
    | mk outcome later =>
      rw [looped] at reported
      cases outcome with
      | raised error => cases (Prod.mk.inj reported).1
      | hung => cases (Prod.mk.inj reported).1
      | returned last =>
        obtain rfl := Outcome.returned.inj (Prod.mk.inj reported).1
        obtain ⟨keys, gathered, sublist⟩ := publishedNaturalKeys_of_publishWinners looped
        dsimp only
        rw [gathered, List.nil_append]
        exact (nodup_naturalKeys _ _).sublist sublist

end

/-! ### What becomes of the messages of a run -/

/-- A message that was lost, and what stood under its key when it was. -/
structure LostMessage where
  payload : Payload
  standing : Option StoredValue

/-- The store and the dead-letter queue while the messages of a run are handled: the payloads of
those that wait, and of those that were dead-lettered and lost. -/
structure Aftermath where
  store : Store
  dlq : List DlqMessage
  waiting : List Payload
  deadLettered : List Payload
  lost : List LostMessage

/-- What may happen to a message. -/
inductive Handling where
  | failed (payload : Payload) (faults : List (Option PyError))
  | ingested (payload : Payload)
  | deadLettered (payload : Payload)
  | lost (payload : Payload)

/-- The payloads that wait besides the ones of a key. -/
def Aftermath.others (state : Aftermath) (payload : Payload) : List Payload :=
  state.waiting.filter fun other => other.naturalKey ≠ payload.naturalKey

/-- The messages that wait, in the order they are handled in: a delivery of one may fail, whichever
of its store calls fail; its ingest may return; its dead-letter record may be published; and it may
be lost. -/
inductive Handles (service : RelayService) (engine : SearchEngine) (settings : HandlerSettings) :
    Aftermath → Handling → Aftermath → Prop
  | failed {state : Aftermath} {payload : Payload} {faults : List (Option PyError)} {after : Store}
      {outcome : Outcome PyError Unit} (waits : payload ∈ state.waiting)
      (ended : (service.ingest (buildEnvelope service.runtime payload)).runFaulty
        (storeWorld engine) faults state.store = (outcome, after))
      (unfinished : outcome ≠ .returned ()) :
      Handles service engine settings state (.failed payload faults) { state with store := after }
  | ingested {state : Aftermath} {payload : Payload} {after : Store}
      (waits : payload ∈ state.waiting)
      (returned : (service.ingest (buildEnvelope service.runtime payload)).run
        (storeWorld engine) state.store = (.returned (), after)) :
      Handles service engine settings state (.ingested payload)
        { state with store := after, waiting := state.others payload }
  | deadLettered {state : Aftermath} {payload : Payload} {reason : String}
      {detail : Option String} {exhaustion : Option Exhaustion}
      (waits : payload ∈ state.waiting) :
      Handles service engine settings state (.deadLettered payload)
        { state with
          dlq := state.dlq ++ [(dlqRecord settings (buildEnvelope service.runtime payload) reason
            detail exhaustion).message]
          waiting := state.others payload
          deadLettered := state.deadLettered ++ [payload] }
  | lost {state : Aftermath} {payload : Payload} (waits : payload ∈ state.waiting) :
      Handles service engine settings state (.lost payload)
        { state with
          waiting := state.others payload
          lost := state.lost ++
            [⟨payload, state.store.lookup (service.writer.recordPlace payload)⟩] }

/-- The state in which the payloads of a run have been published, over what earlier runs left. -/
def Aftermath.published (store : Store) (dlq : List DlqMessage) (payloads : List Payload) :
    Aftermath where
  store
  dlq
  waiting := payloads
  deadLettered := []
  lost := []

/-! ### Soundness of the audit -/

section

variable (service : RelayService) (settings : HandlerSettings) (keys : List String)

/-- The audit's question to the dead-letter client. -/
def onDlq (dlq : List DlqMessage) : String → Bool :=
  checkEpisodeOnDlq service.runtime settings.dlqSubject dlq keys

/-- The result of the audit over a state. -/
def auditOf (engine : SearchEngine) (state : Aftermath) : Outcome PyError AuditResult × Store :=
  (auditPublishedEpisodes service.runtime (onDlq service settings keys state.dlq) keys).run
    (storeWorld engine) state.store

/-- A report of the audit that accounts for everything is right: each payload's content is stored,
or a payload of its key was dead-lettered in the run. -/
def AuditSound (engine : SearchEngine) (payloads : List Payload) (state : Aftermath) : Prop :=
  ∀ result store, auditOf service settings keys engine state = (.returned result, store) →
    result.is100PercentAccounted = true →
      ∀ payload ∈ payloads,
        (∃ value, state.store.lookup (service.writer.recordPlace payload) = some value ∧
            value.contentHash = some (contentHash service.runtime payload)) ∨
          ∃ dead ∈ state.deadLettered, dead.naturalKey = payload.naturalKey

/-- Every message that was lost is reported as unaccounted for. -/
def LossesReported (engine : SearchEngine) (state : Aftermath) : Prop :=
  ∀ result store, auditOf service settings keys engine state = (.returned result, store) →
    ∀ message ∈ state.lost, message.payload.naturalKey ∈ result.unaccountedEpisodes

/-- No record stood under the key of a lost message, and no dead letter under its episode id. -/
def LeftNothing (state : Aftermath) (message : LostMessage) : Prop :=
  message.standing = none ∧
    onDlq service settings keys state.dlq
      (deriveEpisodeId service.runtime message.payload.naturalKey) = false

/-- The content of a lost message stood under its key already. -/
def StoodAlready (message : LostMessage) : Prop :=
  (message.standing.bind (·.contentHash)) = some (contentHash service.runtime message.payload)

end

/-! ### What is known while messages are handled -/

/-- What is known of a run's messages: one that waits no more was ingested and its content is
stored, or it was dead-lettered, or it was lost, and then its record still has the content that stood
when it was. -/
structure Accounted (service : RelayService) (settings : HandlerSettings) (payloads : List Payload)
    (state : Aftermath) : Prop where
  waiting : state.waiting ⊆ payloads
  settled : ∀ payload ∈ payloads, payload ∈ state.waiting ∨
    contentAt state.store (service.writer.recordPlace payload) =
        some (some (contentHash service.runtime payload)) ∨
      payload ∈ state.deadLettered ∨ ∃ message ∈ state.lost, message.payload = payload
  dead : ∀ payload ∈ state.deadLettered, payload ∈ payloads ∧ payload ∉ state.waiting ∧
    ∃ reason detail exhaustion, (dlqRecord settings (buildEnvelope service.runtime payload) reason
      detail exhaustion).message ∈ state.dlq
  lost : ∀ message ∈ state.lost, message.payload ∈ payloads ∧ message.payload ∉ state.waiting ∧
    contentAt state.store (service.writer.recordPlace message.payload) =
      message.standing.map (·.contentHash)
  apart : ∀ message ∈ state.lost, message.payload ∉ state.deadLettered

namespace Accounted

variable {service : RelayService} {engine : SearchEngine} {settings : HandlerSettings}
  {payloads : List Payload} {state next : Aftermath} {payload : Payload}

theorem mem_others {other : Payload} : other ∈ state.others payload ↔
    other ∈ state.waiting ∧ other.naturalKey ≠ payload.naturalKey := by
  rw [Aftermath.others, List.mem_filter, decide_eq_true_eq]

theorem published (store : Store) (dlq : List DlqMessage) :
    Accounted service settings payloads (.published store dlq payloads) where
  waiting := List.Subset.refl payloads
  settled _ member := Or.inl member
  dead _ member := by cases member
  lost _ member := by cases member
  apart _ member := by cases member

section

variable (publishable : Publishable service.runtime payloads)
  (distinct : (payloads.map fun payload => payload.naturalKey).Nodup)
  (accounted : Accounted service settings payloads state) (waits : payload ∈ state.waiting)

include publishable distinct accounted waits

/-- The record of another payload keeps its content. -/
theorem contentAt_kept {after : Store} {other : Payload}
    (same : SameElsewhere (service.writer.recordPlace payload) state.store after)
    (inside : other ∈ payloads) (different : other ≠ payload) :
    contentAt after (service.writer.recordPlace other) =
      contentAt state.store (service.writer.recordPlace other) := by
  have member := accounted.waiting waits
  refine same _ fun here => different ?_
  exact List.inj_on_of_nodup_map distinct inside member
    ((recordPlace_eq_iff service.writer (publishable.apart _ inside _ member)).mp here)

theorem failed {after : Store}
    (same : SameElsewhere (service.writer.recordPlace payload) state.store after) :
    Accounted service settings payloads { state with store := after } where
  waiting := accounted.waiting
  settled := by
    intro other inside
    by_cases here : other = payload
    · rw [here]
      exact Or.inl waits
    · rw [contentAt_kept publishable distinct accounted waits same inside here]
      exact accounted.settled other inside
  dead := accounted.dead
  lost := by
    intro message member
    obtain ⟨inside, left, standing⟩ := accounted.lost message member
    refine ⟨inside, left, ?_⟩
    rw [contentAt_kept publishable distinct accounted waits same inside
      fun here => left (by rwa [here])]
    exact standing
  apart := accounted.apart

omit publishable in
/-- Another payload that waits still does when a payload waits no more. -/
theorem settled_others {other : Payload} (inside : other ∈ payloads) (different : other ≠ payload)
    (before : other ∈ state.waiting) : other ∈ state.others payload := by
  refine mem_others.mpr ⟨before, fun same => different ?_⟩
  exact List.inj_on_of_nodup_map distinct inside (accounted.waiting waits) same

theorem ingested {after : Store}
    (same : SameElsewhere (service.writer.recordPlace payload) state.store after)
    (stored : contentAt after (service.writer.recordPlace payload) =
      some (some (contentHash service.runtime payload))) :
    Accounted service settings payloads
      { state with store := after, waiting := state.others payload } where
  waiting _ member := accounted.waiting (mem_others.mp member).1
  settled := by
    intro other inside
    by_cases here : other = payload
    · rw [here]
      exact Or.inr (Or.inl stored)
    · rw [contentAt_kept publishable distinct accounted waits same inside here]
      exact (accounted.settled other inside).imp_left
        (settled_others distinct accounted waits inside here)
  dead := by
    intro other member
    obtain ⟨inside, left, record⟩ := accounted.dead other member
    exact ⟨inside, fun again => left (mem_others.mp again).1, record⟩
  lost := by
    intro message member
    obtain ⟨inside, left, standing⟩ := accounted.lost message member
    refine ⟨inside, fun again => left (mem_others.mp again).1, ?_⟩
    rw [contentAt_kept publishable distinct accounted waits same inside
      fun here => left (by rwa [here])]
    exact standing
  apart := accounted.apart

omit publishable in
theorem deadLettered (reason : String) (detail : Option String) (exhaustion : Option Exhaustion) :
    Accounted service settings payloads
      { state with
        dlq := state.dlq ++ [(dlqRecord settings (buildEnvelope service.runtime payload) reason
          detail exhaustion).message]
        waiting := state.others payload
        deadLettered := state.deadLettered ++ [payload] } where
  waiting _ member := accounted.waiting (mem_others.mp member).1
  settled := by
    intro other inside
    by_cases here : other = payload
    · exact Or.inr (Or.inr (Or.inl (List.mem_append_right _ (List.mem_singleton.mpr here))))
    · rcases accounted.settled other inside with before | stored | dead | lost
      · exact Or.inl (settled_others distinct accounted waits inside here before)
      · exact Or.inr (Or.inl stored)
      · exact Or.inr (Or.inr (Or.inl (List.mem_append_left _ dead)))
      · exact Or.inr (Or.inr (Or.inr lost))
  dead := by
    intro other member
    rcases List.mem_append.mp member with earlier | here
    · obtain ⟨inside, left, reason, detail, exhaustion, record⟩ := accounted.dead other earlier
      exact ⟨inside, fun again => left (mem_others.mp again).1, reason, detail, exhaustion,
        List.mem_append_left _ record⟩
    · obtain rfl := List.mem_singleton.mp here
      exact ⟨accounted.waiting waits, fun again => (mem_others.mp again).2 rfl, reason, detail,
        exhaustion, List.mem_append_right _ (List.mem_singleton_self _)⟩
  lost := by
    intro message member
    obtain ⟨inside, left, standing⟩ := accounted.lost message member
    exact ⟨inside, fun again => left (mem_others.mp again).1, standing⟩
  apart := by
    intro message member both
    rcases List.mem_append.mp both with earlier | here
    · exact accounted.apart message member earlier
    · rw [← List.mem_singleton.mp here] at waits
      exact (accounted.lost message member).2.1 waits

omit publishable in
theorem lostMessage :
    Accounted service settings payloads
      { state with
        waiting := state.others payload
        lost := state.lost ++
          [⟨payload, state.store.lookup (service.writer.recordPlace payload)⟩] } where
  waiting _ member := accounted.waiting (mem_others.mp member).1
  settled := by
    intro other inside
    by_cases here : other = payload
    · exact Or.inr (Or.inr (Or.inr ⟨_, List.mem_append_right _ (List.mem_singleton_self _),
        here.symm⟩))
    · rcases accounted.settled other inside with before | stored | dead | ⟨message, member, same⟩
      · exact Or.inl (settled_others distinct accounted waits inside here before)
      · exact Or.inr (Or.inl stored)
      · exact Or.inr (Or.inr (Or.inl dead))
      · exact Or.inr (Or.inr (Or.inr ⟨message, List.mem_append_left _ member, same⟩))
  dead := by
    intro other member
    obtain ⟨inside, left, record⟩ := accounted.dead other member
    exact ⟨inside, fun again => left (mem_others.mp again).1, record⟩
  lost := by
    intro message member
    rcases List.mem_append.mp member with earlier | here
    · obtain ⟨inside, left, standing⟩ := accounted.lost message earlier
      exact ⟨inside, fun again => left (mem_others.mp again).1, standing⟩
    · rw [List.mem_singleton.mp here]
      exact ⟨accounted.waiting waits, fun again => (mem_others.mp again).2 rfl, rfl⟩
  apart := by
    intro message member dead
    rcases List.mem_append.mp member with earlier | here
    · exact accounted.apart message earlier dead
    · rw [List.mem_singleton.mp here] at dead
      exact (accounted.dead payload dead).2.1 waits

end

/-- Whatever happens to a message, the messages stay accounted for. -/
theorem handles {handling : Handling} (publishable : Publishable service.runtime payloads)
    (distinct : (payloads.map fun payload => payload.naturalKey).Nodup)
    (accounted : Accounted service settings payloads state)
    (event : Handles service engine settings state handling next) :
    Accounted service settings payloads next := by
  cases event with
  | @failed payload faults after outcome waits ended unfinished =>
    have built := publishable.payloadOf (accounted.waiting waits)
    have same := @sameElsewhere_ingest service engine payload state.store _ rfl built faults
    rw [ended] at same
    exact accounted.failed publishable distinct waits same
  | @ingested payload after waits returned =>
    have built := publishable.payloadOf (accounted.waiting waits)
    have same := @sameElsewhere_ingest service engine payload state.store _ rfl built []
    rw [Program.runFaulty_nil, returned] at same
    obtain ⟨value, stored, hash⟩ := @lookup_written_self service.writer engine payload
      (some (episodeMetaOf (buildEnvelope service.runtime payload))) state.store
    refine accounted.ingested publishable distinct waits same ?_
    rw [run_ingest_returned rfl built returned, contentAt, stored, Option.map_some, hash]
    rfl
  | deadLettered waits => exact accounted.deadLettered distinct waits _ _ _
  | lost waits => exact accounted.lostMessage distinct waits

end Accounted

/-! ### When the audit is sound -/

section

variable {service : RelayService} {engine : SearchEngine} {settings : HandlerSettings}
  {payloads : List Payload} {state : Aftermath} {keys : List String}

theorem namespaceForKey_naturalKey (payload : Payload) :
    namespaceForKey payload.naturalKey = some (recordNamespace payload) := by
  rw [namespaceForKey, split_naturalKey]
  rfl

theorem stored_naturalKey_iff (payload : Payload) (store : Store) :
    Stored service.runtime store payload.naturalKey ↔
      contentAt store (service.writer.recordPlace payload) ≠ none := by
  rw [Stored, show keyPlace service.runtime payload.naturalKey = _ from
    @keyPlace_naturalKey service.writer payload, Option.bind_some, contentAt,
    ne_eq, Option.map_eq_none_iff, Option.isSome_iff_ne_none]

/-- The audit returns the payloads' keys that are unaccounted for. -/
theorem auditOf_eq (engine : SearchEngine) (named : payloads.map (fun payload => payload.naturalKey)
    = keys) : ∃ result, auditOf service settings keys engine state = (.returned result, state.store) ∧
      result.unaccountedEpisodes = (keys.filter fun key => Unaccounted service.runtime
        (onDlq service settings keys state.dlq) state.store key) ∧
      result.unaccountedCount = result.unaccountedEpisodes.length := by
  have shaped : ∀ key ∈ keys, (namespaceForKey key).isSome = true := by
    intro key member
    rw [← named] at member
    obtain ⟨payload, _, rfl⟩ := List.mem_map.mp member
    rw [namespaceForKey_naturalKey]
    rfl
  rw [auditOf, auditPublishedEpisodes, Program.run_bind, run_auditKeys keys shaped]
  exact ⟨_, rfl, rfl, rfl⟩

/-- The audit accounts for everything exactly when no payload's key is unaccounted for. -/
theorem accounts_iff {result : AuditResult} {store : Store}
    (named : payloads.map (fun payload => payload.naturalKey) = keys)
    (audited : auditOf service settings keys engine state = (.returned result, store)) :
    result.is100PercentAccounted = true ↔ ∀ payload ∈ payloads, ¬Unaccounted service.runtime
      (onDlq service settings keys state.dlq) state.store payload.naturalKey := by
  obtain ⟨found, returned, episodes, count⟩ := @auditOf_eq service settings payloads state keys
    engine named
  rw [returned] at audited
  obtain rfl := Outcome.returned.inj (Prod.mk.inj audited).1
  rw [AuditResult.is100PercentAccounted, beq_iff_eq, count, List.length_eq_zero_iff, episodes,
    List.filter_eq_nil_iff, ← named]
  simp

theorem mem_unaccountedEpisodes {result : AuditResult} {store : Store} {payload : Payload}
    (named : payloads.map (fun payload => payload.naturalKey) = keys)
    (audited : auditOf service settings keys engine state = (.returned result, store))
    (member : payload ∈ payloads) :
    payload.naturalKey ∈ result.unaccountedEpisodes ↔ Unaccounted service.runtime
      (onDlq service settings keys state.dlq) state.store payload.naturalKey := by
  obtain ⟨found, returned, episodes, _⟩ := @auditOf_eq service settings payloads state keys engine
    named
  rw [returned] at audited
  obtain rfl := Outcome.returned.inj (Prod.mk.inj audited).1
  have inside : payload.naturalKey ∈ keys := by
    rw [← named]
    exact List.mem_map_of_mem member
  rw [episodes, List.mem_filter, decide_eq_true_eq]
  exact and_iff_right inside

/-- A dead letter of a payload is found under its episode id. -/
theorem onDlq_of_record {payload : Payload} {dlq : List DlqMessage} {reason : String}
    {detail : Option String} {exhaustion : Option Exhaustion}
    (named : payloads.map (fun payload => payload.naturalKey) = keys) (member : payload ∈ payloads)
    (published : (dlqRecord settings (buildEnvelope service.runtime payload) reason detail
      exhaustion).message ∈ dlq) :
    onDlq service settings keys dlq (deriveEpisodeId service.runtime payload.naturalKey) = true := by
  have project : payload.project ∈ auditProjects keys := by
    rw [← named]
    refine List.mem_filterMap.mpr ⟨payload.naturalKey, List.mem_map_of_mem member, ?_⟩
    rw [split_naturalKey]
  have id : parseEpisodeId service.runtime (dlqRecord settings
      (buildEnvelope service.runtime payload) reason detail exhaustion).message =
        some (deriveEpisodeId service.runtime payload.naturalKey) := by
    have truthy : PyValue.truthy (.str (deriveEpisodeId service.runtime payload.naturalKey)) =
        true := by
      simp [PyValue.truthy, deriveEpisodeId]
    rw [parseEpisodeId]
    exact if_pos truthy
  refine List.any_eq_true.mpr ⟨payload.project, project, List.contains_iff_mem.mpr ?_⟩
  refine List.mem_filterMap.mpr ⟨_, List.mem_filter.mpr ⟨published, ?_⟩, id⟩
  exact beq_self_eq_true _

/-- A lost message is unaccounted for exactly when nothing stood under its key. -/
theorem Accounted.unaccounted_iff (accounted : Accounted service settings payloads state)
    {message : LostMessage} (member : message ∈ state.lost) :
    Unaccounted service.runtime (onDlq service settings keys state.dlq) state.store
        message.payload.naturalKey ↔ LeftNothing service settings keys state message := by
  rw [Unaccounted, LeftNothing, stored_naturalKey_iff, (accounted.lost message member).2.2, not_not,
    Option.map_eq_none_iff]

/-- A payload that no longer waits and was not lost is accounted for. -/
theorem Accounted.not_unaccounted (accounted : Accounted service settings payloads state)
    (named : payloads.map (fun payload => payload.naturalKey) = keys) (handled : state.waiting = [])
    {payload : Payload} (member : payload ∈ payloads)
    (kept : ∀ message ∈ state.lost, message.payload ≠ payload) :
    ¬Unaccounted service.runtime (onDlq service settings keys state.dlq) state.store
      payload.naturalKey := by
  rintro ⟨missing, noDeadLetter⟩
  rcases accounted.settled payload member with waits | stored | dead | ⟨message, lost, same⟩
  · rw [handled] at waits
    cases waits
  · refine missing ((stored_naturalKey_iff payload state.store).mpr ?_)
    rw [stored]
    exact Option.some_ne_none _
  · obtain ⟨_, _, reason, detail, exhaustion, record⟩ := accounted.dead payload dead
    rw [onDlq_of_record named member record] at noDeadLetter
    cases noDeadLetter
  · exact kept message lost same

section

variable (accounted : Accounted service settings payloads state)
  (named : payloads.map (fun payload => payload.naturalKey) = keys) (handled : state.waiting = [])

include accounted named handled

/-- Where every lost message left something that stands in for it, the audit accounts for
everything. -/
theorem Accounted.full {result : AuditResult} {store : Store}
    (audited : auditOf service settings keys engine state = (.returned result, store))
    (allLeft : ¬∃ message ∈ state.lost, LeftNothing service settings keys state message) :
    result.is100PercentAccounted = true := by
  refine (accounts_iff named audited).mpr fun payload member unaccounted => ?_
  refine accounted.not_unaccounted named handled member ?_ unaccounted
  rintro message lost rfl
  exact allLeft ⟨message, lost, (accounted.unaccounted_iff lost).mp unaccounted⟩

omit named handled in
/-- A right report that accounts for everything means that the lost contents stood already. -/
theorem Accounted.stoodAlready {result : AuditResult} {store : Store}
    (audited : auditOf service settings keys engine state = (.returned result, store))
    (full : result.is100PercentAccounted = true)
    (distinct : (payloads.map fun payload => payload.naturalKey).Nodup)
    (sound : AuditSound service settings keys engine payloads state) {message : LostMessage}
    (lost : message ∈ state.lost) : StoodAlready service message := by
  obtain ⟨inside, _, standing⟩ := accounted.lost message lost
  rcases sound result store audited full message.payload inside with
    ⟨value, stored, hash⟩ | ⟨dead, member, same⟩
  · rw [contentAt, stored, Option.map_some, hash] at standing
    obtain ⟨stood, found, content⟩ := Option.map_eq_some_iff.mp standing.symm
    rw [StoodAlready, found, Option.bind_some, content]
  · have equal : dead = message.payload :=
      List.inj_on_of_nodup_map distinct (accounted.dead dead member).1 inside same
    rw [equal] at member
    exact absurd member (accounted.apart message lost)

omit handled in
/-- A lost message that left nothing is reported, so the report does not account for everything. -/
theorem Accounted.sound_of_left {message : LostMessage} (lost : message ∈ state.lost)
    (left : LeftNothing service settings keys state message) :
    AuditSound service settings keys engine payloads state := by
  intro result store audited full payload member
  exact absurd ((accounted.unaccounted_iff lost).mpr left)
    ((accounts_iff named audited).mp full message.payload (accounted.lost message lost).1)

omit named in
/-- Where the lost contents stood already, every content is stored or dead-lettered. -/
theorem Accounted.sound_of_stood (stood : ∀ message ∈ state.lost, StoodAlready service message) :
    AuditSound service settings keys engine payloads state := by
  intro result store audited full payload member
  rcases accounted.settled payload member with waits | stored | dead | ⟨message, lost, rfl⟩
  · rw [handled] at waits
    cases waits
  · exact Or.inl (Option.map_eq_some_iff.mp stored)
  · exact Or.inr ⟨payload, dead, rfl⟩
  · obtain ⟨value, found, content⟩ := Option.bind_eq_some_iff.mp (stood message lost)
    have standing := (accounted.lost message lost).2.2
    rw [found, Option.map_some, content] at standing
    exact Or.inl (Option.map_eq_some_iff.mp standing)

omit handled in
theorem Accounted.lossesReported_iff :
    LossesReported service settings keys engine state ↔
      ∀ message ∈ state.lost, LeftNothing service settings keys state message := by
  obtain ⟨result, audited, _⟩ := @auditOf_eq service settings payloads state keys engine named
  constructor
  · intro reported message lost
    have inside := (accounted.lost message lost).1
    exact (accounted.unaccounted_iff lost).mp
      ((mem_unaccountedEpisodes named audited inside).mp (reported result _ audited message lost))
  · intro left other store otherAudited message lost
    have inside := (accounted.lost message lost).1
    exact (mem_unaccountedEpisodes named otherAudited inside).mpr
      ((accounted.unaccounted_iff lost).mpr (left message lost))

end

end

/-- A report of the audit over the messages of a run, all of which were handled, is right exactly
when some lost message left nothing to stand in for it, or the content of every lost message stood
already; and every lost message is reported exactly when none of them left anything. -/
theorem audit_sound_iff (service : RelayService) (engine : SearchEngine)
    (settings : HandlerSettings) (yaml : YamlLibrary) (manifest : CorpusManifest)
    (publisher : Option PublisherFn) (preserving : Bool) (docs : List CorpusDocument)
    (before after : Store) (report : RunReport)
    (reported : (reindexCorpus service.runtime yaml manifest publisher preserving docs).run
      (storeWorld engine) before = (.returned report, after))
    (payloads : List Payload)
    (published : payloads.map (fun payload => payload.naturalKey) = report.publishedNaturalKeys)
    (publishable : Publishable service.runtime payloads)
    (store : Store) (dlq : List DlqMessage) (handlings : List Handling) (final : Aftermath)
    (run : Transitions.Run (Handles service engine settings) (.published store dlq payloads)
      handlings final) (handled : final.waiting = []) :
    let keys := report.publishedNaturalKeys
    (AuditSound service settings keys engine payloads final ↔
      (∃ message ∈ final.lost, LeftNothing service settings keys final message) ∨
        ∀ message ∈ final.lost, StoodAlready service message) ∧
    (LossesReported service settings keys engine final ↔
      ∀ message ∈ final.lost, LeftNothing service settings keys final message) := by
  intro keys
  have distinct : (payloads.map fun payload => payload.naturalKey).Nodup := by
    rw [published]
    exact nodup_publishedNaturalKeys reported
  have accounted : Accounted service settings payloads final :=
    run.invariant _ (Accounted.published store dlq) fun _ _ _ known event =>
      Accounted.handles publishable distinct known event
  obtain ⟨result, audited, _⟩ := @auditOf_eq service settings payloads final keys engine published
  refine ⟨⟨fun sound => ?_, ?_⟩, accounted.lossesReported_iff published⟩
  · by_cases left : ∃ message ∈ final.lost, LeftNothing service settings keys final message
    · exact Or.inl left
    · have full := accounted.full published handled audited left
      exact Or.inr fun message lost =>
        accounted.stoodAlready audited full distinct sound lost
  · rintro (⟨message, lost, left⟩ | stood)
    · exact accounted.sound_of_left published lost left
    · exact accounted.sound_of_stood handled stood

/-! ### A lost message over an earlier record -/

section Sample

/-- The relay's settings. -/
def plainSettings : HandlerSettings where
  maxDeliver := 5
  dlqSubject := "memory.dlq"

/-- The report of a run over the task. -/
def plainReport : RunReport where
  walkedCount := 1
  publishedCount := 1
  skippedCount := 0
  unparseableCount := 0
  perKindCounts := [("build_outcome", 1)]
  publishedNaturalKeys := ["build_outcome:guardkit:T"]
  skipped := []
  unparseable := []

/-- A run without a store publishes the task's payload as it is. -/
theorem run_reindexCorpus_plainTask (store : Store) :
    (reindexCorpus plainRuntime plainYaml CorpusManifest.slashManifest (some acceptingPublisher)
      false [plainTask]).run (storeWorld (prefixEngine fun _ _ _ => none)) store =
        (.returned plainReport, store) := by
  rw [reindexCorpus, List.mapM_cons, examine_plainTask]
  rfl

/-- The store and the queue after the message of a payload was lost. -/
def afterLoss (payload : Payload) : Aftermath where
  store := distilledStore
  dlq := []
  waiting := []
  deadLettered := []
  lost := [⟨payload, distilledStore.lookup (plainService.writer.recordPlace payload)⟩]

theorem run_afterLoss (payload : Payload) :
    Transitions.Run (Handles plainService (prefixEngine fun _ _ _ => none) plainSettings)
      (.published distilledStore [] [payload]) [.lost payload] (afterLoss payload) := by
  have event := @Handles.lost plainService (prefixEngine fun _ _ _ => none) plainSettings
    (.published distilledStore [] [payload]) payload (List.mem_singleton_self payload)
  have alone : (Aftermath.published distilledStore [] [payload]).others payload = [] := by
    simp [Aftermath.others, Aftermath.published]
  rw [alone] at event
  exact .single event

/-- The message of the task's payload is lost, and the audit takes the record that an earlier run
left for it. -/
theorem not_auditSound_plainOutcome :
    (reindexCorpus plainRuntime plainYaml CorpusManifest.slashManifest (some acceptingPublisher)
        false [plainTask]).run (storeWorld (prefixEngine fun _ _ _ => none)) distilledStore =
          (.returned plainReport, distilledStore) ∧
      [plainOutcome].map (fun payload => payload.naturalKey) = plainReport.publishedNaturalKeys ∧
      Transitions.Run (Handles plainService (prefixEngine fun _ _ _ => none) plainSettings)
        (.published distilledStore [] [plainOutcome]) [.lost plainOutcome]
        (afterLoss plainOutcome) ∧
      ¬AuditSound plainService plainSettings plainReport.publishedNaturalKeys
        (prefixEngine fun _ _ _ => none) [plainOutcome] (afterLoss plainOutcome) := by
  have stored : distilledStore.lookup (plainService.writer.recordPlace plainOutcome) =
      some (storedValue distilledOutcome (contentHash plainRuntime distilledOutcome) 1 none) :=
    lookup_insert_self
  have keys : [plainOutcome].map (fun payload => payload.naturalKey) =
      plainReport.publishedNaturalKeys := by decide
  refine ⟨run_reindexCorpus_plainTask distilledStore, keys, run_afterLoss plainOutcome, ?_⟩
  intro sound
  obtain ⟨result, audited, _⟩ := @auditOf_eq plainService plainSettings [plainOutcome]
    (afterLoss plainOutcome) plainReport.publishedNaturalKeys (prefixEngine fun _ _ _ => none) keys
  have full : result.is100PercentAccounted = true := by
    refine (accounts_iff keys audited).mpr ?_
    rintro payload member ⟨missing, _⟩
    rw [List.mem_singleton.mp member] at missing
    refine missing ((stored_naturalKey_iff plainOutcome distilledStore).mpr ?_)
    rw [contentAt, stored]
    exact Option.some_ne_none _
  rcases sound result _ audited full plainOutcome (List.mem_singleton_self _) with
    ⟨value, found, hash⟩ | ⟨dead, member, _⟩
  · rw [show (afterLoss plainOutcome).store.lookup _ = _ from stored] at found
    rw [← Option.some.inj found] at hash
    have different : contentHash plainRuntime distilledOutcome ≠
        contentHash plainRuntime plainOutcome := by decide +kernel
    exact different (Option.some.inj hash)
  · cases member

/-- A payload whose content stood already is lost. -/
theorem audit_sound_iff_distilledOutcome :
    (AuditSound plainService plainSettings plainReport.publishedNaturalKeys
        (prefixEngine fun _ _ _ => none) [distilledOutcome] (afterLoss distilledOutcome) ↔
      (∃ message ∈ (afterLoss distilledOutcome).lost, LeftNothing plainService plainSettings
        plainReport.publishedNaturalKeys (afterLoss distilledOutcome) message) ∨
        ∀ message ∈ (afterLoss distilledOutcome).lost, StoodAlready plainService message) ∧
    (LossesReported plainService plainSettings plainReport.publishedNaturalKeys
        (prefixEngine fun _ _ _ => none) (afterLoss distilledOutcome) ↔
      ∀ message ∈ (afterLoss distilledOutcome).lost, LeftNothing plainService plainSettings
        plainReport.publishedNaturalKeys (afterLoss distilledOutcome) message) := by
  refine audit_sound_iff plainService (prefixEngine fun _ _ _ => none) plainSettings plainYaml
    CorpusManifest.slashManifest (some acceptingPublisher) false [plainTask] distilledStore
    distilledStore plainReport (run_reindexCorpus_plainTask distilledStore) [distilledOutcome]
    (by decide) ⟨fun _ => rfl, ?_, ?_, ?_⟩ distilledStore [] [.lost distilledOutcome]
    (afterLoss distilledOutcome) (run_afterLoss distilledOutcome) rfl
  · intro payload member
    rw [List.mem_singleton.mp member]
    exact ⟨BuildOutcomePayload, by simp [payloadRegistry],
      taskOutcome_distilledOutcome.instanceOf⟩
  · intro payload member
    rw [List.mem_singleton.mp member]
    exact readsBack_distilledOutcome
  · intro one member other inside _
    rw [List.mem_singleton.mp member, List.mem_singleton.mp inside]

end Sample

end FleetMemory
