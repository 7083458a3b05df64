/-
This file models the relay at work on its stream: messages are published while others are
delivered, a delivery may be cut short at any store call, its answer may not reach the stream, and
the stream delivers what was not answered again, up to a number of times. It proves what becomes
of every message in every run: what was acked is stored for good, what was parked has its record,
and a message is lost only where the broker refused the record or the last delivery was cut short.
-/

import Mathlib.Algebra.GroupWithZero.Nat
import FleetMemory.Envelopes
import FleetMemory.ProseIngest
import FleetMemory.RelayHandler
import FleetMemory.SustainedWrites
import FleetMemory.FaultyWrites
import FleetMemory.Transitions

namespace FleetMemory

open StoreProgram DeterministicWriter RelayService Transitions

/-! ### The stream and the relay -/

/-- A message on the stream: its episode, how often it was delivered, and where it stands. -/
structure StreamEntry where
  episode : MemoryEpisodeV1
  delivered : Nat
  fate : Fate

/-- The messages of the stream in the order they were published, the store, and what the handler
left outside. -/
structure RelayState where
  entries : List StreamEntry
  store : Store
  effects : Effects

/-- How a delivery goes: the search engine as it ranks meanwhile, the store calls that fail, how
`broker.publish` and the progress marker's call end, and whether the handler's answer reaches the
stream. -/
structure RelayDelivery where
  engine : SearchEngine
  faults : List (Option PyError)
  publish : Except PyError Unit
  marker : Option (Except PyError Unit)
  answered : Bool

/-- What happens next: a message is published, or the message at an index is delivered and the
handler ends, or the process is stopped after some store calls of its ingest. -/
inductive RelayEvent where
  | published (episode : MemoryEpisodeV1)
  | handled (index : Nat) (delivery : RelayDelivery)
  | killed (index : Nat) (engine : SearchEngine) (faults : List (Option PyError)) (calls : Nat)

namespace RelayEvent

/-- The episode that is published. -/
def episode? : RelayEvent → Option MemoryEpisodeV1
  | published episode => some episode
  | handled _ _ => none
  | killed _ _ _ _ => none

/-- The index of the message that is delivered. -/
def index? : RelayEvent → Option Nat
  | published _ => none
  | handled index _ => some index
  | killed index _ _ _ => some index

/-- A message is delivered. -/
def delivers (event : RelayEvent) : Bool :=
  event.index?.isSome

/-- The message at the index is delivered, and the handler's answer reaches the stream. -/
def answers (index : Nat) : RelayEvent → Prop
  | published _ => False
  | handled other delivery => other = index ∧ delivery.answered = true
  | killed _ _ _ _ => False

/-- The message at the index is delivered, and the broker refuses what is published meanwhile. -/
def refuses (index : Nat) : RelayEvent → Prop
  | published _ => False
  | handled other delivery => other = index ∧ ∃ refusal, delivery.publish = .error refusal
  | killed _ _ _ _ => False

/-- The message at the index is delivered, and no answer to it reaches the stream. -/
def cutsShort (index : Nat) : RelayEvent → Prop
  | published _ => False
  | handled other delivery => other = index ∧ delivery.answered = false
  | killed other _ _ _ => other = index

end RelayEvent

/-- How an ingest that ended ended. -/
def endOf : Outcome PyError Unit → Option (Except PyError Unit)
  | .returned result => some (.ok result)
  | .raised error => some (.error error)
  | .hung => none

/-- Where a message stands whose delivery was not answered: it is delivered again, unless this was
the last time. -/
def unanswered (maxDeliver : Int) (number : Nat) : Fate :=
  if LastDelivery maxDeliver number then .dropped else .pending

section

variable (runtime : Runtime) (settings : HandlerSettings) (service : RelayService)

/-- What the handler meets at a delivery. -/
def RelayDelivery.message (delivery : RelayDelivery) (number : Nat) (ingest : Except PyError Unit) :
    Message where
  numDelivered := .ok number
  ingest
  publish := delivery.publish
  marker := delivery.marker

/-- The steps of the relay and its stream. One message is handled at a time. -/
inductive RelayStep : RelayState → RelayEvent → RelayState → Prop
  | published {state : RelayState} (episode : MemoryEpisodeV1) :
      RelayStep state (.published episode)
        { state with entries := state.entries ++ [⟨episode, 0, .pending⟩] }
  | handled {state : RelayState} {index : Nat} {entry : StreamEntry} {delivery : RelayDelivery}
      {outcome : Outcome PyError Unit} {ingest : Except PyError Unit} {store : Store}
      {answer : Except Signal Unit} {effects : Effects}
      (found : state.entries[index]? = some entry) (pending : entry.fate = .pending)
      (ran : (service.ingest entry.episode).runFaulty (storeWorld delivery.engine) delivery.faults
        state.store = (outcome, store))
      (ended : endOf outcome = some ingest)
      (handles : handled runtime settings entry.episode
        (delivery.message (entry.delivered + 1) ingest) state.effects = (answer, effects)) :
      RelayStep state (.handled index delivery)
        { entries := state.entries.set index ⟨entry.episode, entry.delivered + 1,
            if delivery.answered then settle settings.maxDeliver (entry.delivered + 1) answer
            else unanswered settings.maxDeliver (entry.delivered + 1)⟩
          store
          effects }
  | killed {state : RelayState} {index : Nat} {entry : StreamEntry} (engine : SearchEngine)
      (faults : List (Option PyError)) (calls : Nat)
      (found : state.entries[index]? = some entry) (pending : entry.fate = .pending) :
      RelayStep state (.killed index engine faults calls)
        { state with
          entries := state.entries.set index ⟨entry.episode, entry.delivered + 1,
            unanswered settings.maxDeliver (entry.delivered + 1)⟩
          store := (service.ingest entry.episode).stopAfter (storeWorld engine) calls faults
            state.store }

end

/-! ### What an ingest stores -/

/-- The episode has this text stored at this place: its payload's, or one of its chunks'. -/
inductive Tells (service : RelayService) (episode : MemoryEpisodeV1) : Place → String → Prop
  | record {payload : Payload} (json : episode.contentFormat = "json")
      (built : service.payloadOf episode = .ok payload) :
      Tells service episode (service.writer.recordPlace payload)
        (Json.dumps (.dict payload.modelDump))
  | chunk {chunks : List Chunk} {chunk : Chunk} (prose : IsProse episode)
      (cut : service.chunksOf episode = .returned chunks) (member : chunk ∈ chunks) :
      Tells service episode
        (chunkPlace service.runtime episode.episodeId chunk.project chunk.index) chunk.text

/-- The value at the place holds what the episode tells there: its payload, by the hash of its
content, or the text of one of its chunks. -/
inductive Carries (service : RelayService) (episode : MemoryEpisodeV1) : Place → StoredValue → Prop
  | record {payload : Payload} {value : StoredValue} (json : episode.contentFormat = "json")
      (built : service.payloadOf episode = .ok payload)
      (same : value.contentHash = some (contentHash service.runtime payload)) :
      Carries service episode (service.writer.recordPlace payload) value
  | chunk {chunks : List Chunk} {chunk : Chunk} {value : StoredValue} (prose : IsProse episode)
      (cut : service.chunksOf episode = .returned chunks) (member : chunk ∈ chunks)
      (same : value.content = chunk.text) :
      Carries service episode
        (chunkPlace service.runtime episode.episodeId chunk.project chunk.index) value

/-- Every place the episode has a text for holds what it tells, or what another of the episodes
tells there that was delivered in one of the events. -/
def Kept (service : RelayService) (episodes : List MemoryEpisodeV1) (events : List RelayEvent)
    (episode : MemoryEpisodeV1) (store : Store) : Prop :=
  ∀ place text, Tells service episode place text → ∃ value, store.lookup place = some value ∧
    (Carries service episode place value ∨ ∃ event ∈ events, ∃ index other,
      event.index? = some index ∧ episodes[index]? = some other ∧ Carries service other place value)

/-- The values have the same content. -/
def SameContent (first second : StoredValue) : Prop :=
  first.content = second.content ∧ first.contentHash = second.contentHash

/-- Nothing that stood in the first store is gone, and what stands in the second has its content from
the first or from one of the episodes. -/
structure GrownFrom (service : RelayService) (episodes : List MemoryEpisodeV1)
    (first second : Store) : Prop where
  filled : ∀ place, (first.lookup place).isSome = true → (second.lookup place).isSome = true
  sourced : ∀ place value, second.lookup place = some value →
    (∃ old, first.lookup place = some old ∧ SameContent old value) ∨
      ∃ episode ∈ episodes, Tells service episode place value.content ∧
        Carries service episode place value

section

variable {service : RelayService} {engine : SearchEngine} {episode : MemoryEpisodeV1}
  {episodes : List MemoryEpisodeV1} {start first second store : Store}

theorem SameContent.refl (value : StoredValue) : SameContent value value :=
  ⟨rfl, rfl⟩

theorem Carries.congr {place : Place} {value other : StoredValue}
    (told : Carries service episode place value) (same : SameContent value other) :
    Carries service episode place other := by
  cases told with
  | record json built hash => exact .record json built (same.2.symm.trans hash)
  | chunk prose cut member content => exact .chunk prose cut member (same.1.symm.trans content)

/-- A value that holds what a structured episode tells has the hash of its payload. -/
theorem Carries.contentHash_of_json {place : Place} {value : StoredValue} {payload : Payload}
    (told : Carries service episode place value) (json : episode.contentFormat = "json")
    (built : service.payloadOf episode = .ok payload) :
    value.contentHash = some (contentHash service.runtime payload) := by
  cases told with
  | record _ other same =>
    obtain rfl := Except.ok.inj (other.symm.trans built)
    exact same
  | chunk prose _ _ _ =>
    rcases prose with format | format <;> simp [format] at json

theorem GrownFrom.refl (service : RelayService) (episodes : List MemoryEpisodeV1) (store : Store) :
    GrownFrom service episodes store store where
  filled _ filled := filled
  sourced _ value stored := Or.inl ⟨value, stored, .refl value⟩

theorem GrownFrom.mono {more : List MemoryEpisodeV1} (within : episodes ⊆ more)
    (grown : GrownFrom service episodes first second) : GrownFrom service more first second where
  filled := grown.filled
  sourced place value stored := (grown.sourced place value stored).imp_right
    fun ⟨episode, member, own⟩ => ⟨episode, within member, own⟩

theorem GrownFrom.trans {third : Store} (earlier : GrownFrom service episodes first second)
    (later : GrownFrom service episodes second third) : GrownFrom service episodes first third where
  filled place filled := later.filled place (earlier.filled place filled)
  sourced place value stored := by
    rcases later.sourced place value stored with ⟨old, stood, same⟩ | own
    · rcases earlier.sourced place old stood with
        ⟨older, stands, before⟩ | ⟨episode, member, tells, holds⟩
      · exact Or.inl ⟨older, stands, before.1.trans same.1, before.2.trans same.2⟩
      · exact Or.inr ⟨episode, member, same.1 ▸ tells, holds.congr same⟩
    · exact Or.inr own

/-- A put of what the episode tells, or of a content that stands there, keeps the store grown. -/
theorem GrownFrom.insert {place : Place} {value : StoredValue}
    (grown : GrownFrom service [episode] start store)
    (own : Tells service episode place value.content ∧ Carries service episode place value ∨
      ∃ old, store.lookup place = some old ∧ SameContent old value) :
    GrownFrom service [episode] start (store.insert place value) := by
  refine grown.trans ⟨fun other filled => ?_, fun other found stored => ?_⟩
  · rw [lookup_insert]
    split
    · rfl
    · exact filled
  · rw [lookup_insert] at stored
    split at stored
    · rename_i here
      obtain rfl := Option.some.inj stored
      subst here
      exact own.symm.imp_right fun own => ⟨episode, List.mem_singleton_self _, own⟩
    · exact Or.inl ⟨found, stored, .refl found⟩

theorem sameContent_markFound (value : StoredValue) (found : Option String) :
    SameContent value (markFound value found) :=
  ⟨(markFound_keeps (·.content) (fun _ _ => rfl) value found).symm,
    (markFound_keeps (·.contentHash) (fun _ _ => rfl) value found).symm⟩

/-- A write of the episode's payload keeps the store grown at each of its puts. -/
theorem keptByWrite_grown {payload : Payload} (json : episode.contentFormat = "json")
    (built : service.payloadOf episode = .ok payload) :
    KeptByWrite service.writer payload (GrownFrom service [episode] start) where
  put store version episodeMeta found grown := by
    obtain ⟨content, hash⟩ := sameContent_markFound (storedValue payload
      (contentHash service.writer.runtime payload) version episodeMeta) found
    refine grown.insert (Or.inl ⟨?_, .record json built hash.symm⟩)
    rw [← content]
    exact Tells.record json built
  mark store place value grown stored := grown.insert (Or.inr ⟨value, stored, .refl value⟩)

theorem sustains_lift {Result : Type} {invariant : Store → Prop}
    (computed : Except PyError Result) :
    (lift computed).Sustains (storeWorld engine) invariant store := by
  cases computed <;> trivial

/-- The chunk writer keeps the store grown at each of its puts. -/
theorem sustains_writeChunks_grown {episodeMeta : Option EpisodeMeta} {chunks written : List Chunk}
    (prose : IsProse episode) (cut : service.chunksOf episode = .returned chunks)
    (within : written ⊆ chunks) (grown : GrownFrom service [episode] start store) :
    (writeChunks service.runtime episode.episodeId episodeMeta written).Sustains (storeWorld engine)
      (GrownFrom service [episode] start) store := by
  induction written generalizing store with
  | nil => trivial
  | cons chunk rest inductionHypothesis =>
    obtain ⟨member, others⟩ := List.cons_subset.mp within
    rw [writeChunks]
    refine Program.sustains_bind (sustains_lift _) grown fun _ after grown => ?_
    have put : GrownFrom service [episode] start (after.insert
        (chunkPlace service.runtime episode.episodeId chunk.project chunk.index)
        (chunkValue episode.episodeId episodeMeta chunk)) :=
      grown.insert (Or.inl ⟨.chunk prose cut member, .chunk prose cut member rfl⟩)
    exact Program.sustains_put_bind put (inductionHypothesis others put)

variable (service engine episode store) in
/-- Whichever calls fail, an ingest keeps the store grown at each of its puts. -/
theorem sustains_ingest :
    (service.ingest episode).Sustains (storeWorld engine) (GrownFrom service [episode] store)
      store := by
  have grown := GrownFrom.refl service [episode] store
  refine Program.sustains_tryCatch ?_ grown fun _ _ _ => sustains_lift _
  by_cases json : episode.contentFormat = "json"
  · rw [route_of_json json, ingestJson]
    cases built : service.payloadOf episode with
    | error error => exact sustains_lift (.error error)
    | ok payload => exact sustains_write (keptByWrite_grown json built) _ grown
  · by_cases prose : IsProse episode
    · rw [route_of_prose prose, ingestProse]
      cases cut : service.chunksOf episode with
      | returned chunks =>
        exact sustains_writeChunks_grown prose cut (List.Subset.refl chunks) grown
      | raised error => trivial
      | hung => trivial
    · rw [route_of_other json prose]
      exact sustains_lift _

/-- A chunk writer that returns has stored the chunks. -/
theorem storeChunks_of_returned {runtime : Runtime} {episodeId : String}
    {episodeMeta : Option EpisodeMeta} {chunks : List Chunk} {faults : List (Option PyError)}
    {after : Store}
    (returned : (writeChunks runtime episodeId episodeMeta chunks).runFaulty (storeWorld engine)
      faults store = (.returned (), after)) :
    after = storeChunks runtime episodeId episodeMeta chunks store := by
  induction chunks generalizing faults store with
  | nil => exact (Prod.mk.inj returned).2.symm
  | cons chunk rest inductionHypothesis =>
    rw [writeChunks] at returned
    cases valid : validateNamespace ["fleet_memory", chunk.project, "chunk"] with
    | error error =>
      rw [valid, lift_error_bind] at returned
      cases (Prod.mk.inj returned).1
    | ok done =>
      rw [valid, lift_ok_bind, Program.runFaulty_put_bind] at returned
      cases fate : faults.headD none with
      | some fault =>
        rw [fate] at returned
        cases (Prod.mk.inj returned).1
      | none =>
        rw [fate] at returned
        exact inductionHypothesis returned

/-- A write that returns leaves the payload's record with the hash of its content. -/
theorem contentHash_leaves (writer : DeterministicWriter) (call : WriteCall) (store : Store) :
    ∃ value, (call.leaves writer store).lookup (writer.recordPlace call.payload) = some value ∧
      value.contentHash = some (contentHash writer.runtime call.payload) := by
  have found : ∃ value, (if writer.Puts call.payload store ∧
        writer.recordPlace call.payload = writer.recordPlace call.payload then
        some (call.putValue writer store)
      else store.lookup (writer.recordPlace call.payload)) = some value ∧
        value.contentHash = some (contentHash writer.runtime call.payload) := by
    by_cases puts : writer.Puts call.payload store
    · rw [if_pos ⟨puts, rfl⟩]
      exact ⟨_, rfl, markFound_keeps (·.contentHash) (fun _ _ => rfl) _ _⟩
    · rw [if_neg fun both => puts both.1]
      rw [Puts, ne_eq, not_not] at puts
      exact Option.bind_eq_some_iff.mp puts
  obtain ⟨value, stored, hash⟩ := found
  rw [lookup_leaves, stored, Option.map_some]
  refine ⟨_, rfl, ?_⟩
  split
  · exact hash
  · exact hash

/-- An ingest that returns has stored all that the episode tells. -/
theorem kept_of_returned {faults : List (Option PyError)} {after : Store}
    (returned : (service.ingest episode).runFaulty (storeWorld engine) faults store =
      (.returned (), after)) : Kept service episodes [] episode after := by
  rw [runFaulty_ingest] at returned
  obtain ⟨outcome, same⟩ := Prod.mk.inj returned
  rw [Outcome.mapFault_eq_returned] at outcome
  have routed : (service.route episode).runFaulty (storeWorld engine) faults store =
      (.returned (), after) := Prod.ext outcome same
  rintro place text (⟨json, built⟩ | ⟨prose, cut, member⟩)
  · rename_i payload
    rw [route_of_json json, ingestJson, built, lift_ok_bind] at routed
    obtain ⟨_, left⟩ := @leaves_of_callStep service.writer store after
      ⟨payload, some (episodeMetaOf episode), engine, faults⟩ routed
    rw [left]
    obtain ⟨value, stored, hash⟩ := contentHash_leaves service.writer
      ⟨payload, some (episodeMetaOf episode), engine, faults⟩ store
    exact ⟨value, stored, Or.inl (.record json built hash)⟩
  · rename_i chunks chunk
    rw [route_of_prose prose, ingestProse, cut] at routed
    rw [storeChunks_of_returned routed]
    obtain ⟨value, stored⟩ := Option.isSome_iff_exists.mp
      (@lookup_storeChunks_mem service.runtime episode.episodeId (some (episodeMetaOf episode))
        chunks store chunk member)
    refine ⟨value, stored, Or.inl ?_⟩
    rcases lookup_storeChunks_cases stored with ⟨other, inside, here, rfl⟩ | ⟨-, elsewhere⟩
    · rw [here]
      exact .chunk prose cut inside rfl
    · exact absurd rfl (elsewhere chunk member)

/-- What an episode tells stays kept through an event that leaves the store grown from the episode
it delivers. -/
theorem Kept.later {events : List RelayEvent} {event : RelayEvent}
    {news more : List MemoryEpisodeV1} (kept : Kept service episodes events episode first)
    (within : episodes <+: more) (grown : GrownFrom service news first second)
    (delivered : ∀ other ∈ news, ∃ index, event.index? = some index ∧ more[index]? = some other) :
    Kept service more (events ++ [event]) episode second := by
  intro place text tells
  obtain ⟨old, stood, holds⟩ := kept place text tells
  obtain ⟨value, stored⟩ := Option.isSome_iff_exists.mp
    (grown.filled place (Option.isSome_iff_exists.mpr ⟨old, stood⟩))
  refine ⟨value, stored, ?_⟩
  rcases grown.sourced place value stored with ⟨same, found, content⟩ | ⟨other, member, -, own⟩
  · obtain rfl := Option.some.inj (stood.symm.trans found)
    rcases holds with holds | ⟨before, happened, index, other, delivers, listed, holds⟩
    · exact Or.inl (holds.congr content)
    · obtain ⟨rest, rfl⟩ := within
      refine Or.inr ⟨before, List.mem_append_left _ happened, index, other, delivers, ?_,
        holds.congr content⟩
      rw [List.getElem?_append_left (List.getElem?_eq_some_iff.mp listed).1]
      exact listed
  · obtain ⟨index, delivers, listed⟩ := delivered other member
    exact Or.inr ⟨event, List.mem_append_right _ (List.mem_singleton_self _), index, other, delivers,
      listed, own⟩

end

/-! ### What the handler does with a message -/

/-- The dead-letter record is about the episode, and goes to its project's subject. -/
def IsRecordOf (settings : HandlerSettings) (episode : MemoryEpisodeV1) (record : DlqRecord) :
    Prop :=
  record.subject = settings.dlqSubject ++ "." ++ episode.projectId ∧
    record.episodeId = episode.episodeId ∧ record.projectId = episode.projectId

/-- The ways the handler ends, with what they leave in the dead letters. -/
inductive HandlerEnds (settings : HandlerSettings) (episode : MemoryEpisodeV1) (message : Message)
    (effects : Effects) : Except Signal Unit → Effects → Prop
  | acked {after : Effects} (returned : message.ingest = .ok ())
      (same : after.deadLettered = effects.deadLettered) :
      HandlerEnds settings episode message effects (.ok ()) after
  | nacked {after : Effects} {error : PyError} (failed : message.ingest = .error error)
      (retried : ¬Parks settings message error) (same : after.deadLettered = effects.deadLettered) :
      HandlerEnds settings episode message effects (.error .nackMessage) after
  | parked {after : Effects} {record : DlqRecord} (about : IsRecordOf settings episode record)
      (added : after.deadLettered = effects.deadLettered ++ [record]) :
      HandlerEnds settings episode message effects (.error .rejectMessage) after
  | refused {after : Effects} {refusal : PyError} (refuses : message.publish = .error refusal)
      (same : after.deadLettered = effects.deadLettered) :
      HandlerEnds settings episode message effects (.error (.raised refusal)) after

section

variable {runtime : Runtime} {settings : HandlerSettings} {episode : MemoryEpisodeV1}
  {message : Message} {effects : Effects}

/-- Parking publishes the record and terminates, or ends in what the broker raised. -/
theorem handlerEnds_park (reason : String) (detail : Option String)
    (exhaustion : Option Exhaustion) :
    HandlerEnds settings episode message effects
      ((park settings episode message reason detail exhaustion).run.run effects).1
      ((park settings episode message reason detail exhaustion).run.run effects).2 := by
  have split : (park settings episode message reason detail exhaustion).run.run effects = _ :=
    run_handlerM_bind _ _
  rw [split, publishDlq]
  cases published : message.publish with
  | error refusal => exact .refused published rfl
  | ok done =>
    dsimp only
    rw [show (modify _ : HandlerM Unit).run.run effects = (.ok (), _) from rfl]
    dsimp only
    rw [run_handlerM_bind]
    obtain ⟨notes, ran⟩ := @run_record message _ "dlq"
    rw [ran]
    exact .parked ⟨rfl, rfl, rfl⟩ rfl

variable (runtime settings episode message effects) in
/-- The handler ends in one of its ways. -/
theorem handlerEnds_handled : HandlerEnds settings episode message effects
    (handled runtime settings episode message effects).1
    (handled runtime settings episode message effects).2 := by
  cases ended : message.ingest with
  | ok done =>
    obtain ⟨acks, same⟩ := @handled_of_returned runtime settings episode message effects ended
    rw [acks]
    exact .acked ended same
  | error error =>
    by_cases parks : Parks settings message error
    · obtain ⟨reason, detail, exhaustion, ran⟩ :=
        @handled_of_parks runtime settings episode message effects error ended parks
      rw [ran]
      exact handlerEnds_park reason detail exhaustion
    · obtain ⟨nacks, same⟩ :=
        @handled_of_not_parks runtime settings episode message effects error ended parks
      rw [nacks]
      exact .nacked ended parks same

end

/-! ### Every message is accounted for -/

/-- Where a message of a run stands, and why: it is still on the stream with deliveries left; it was
acked, and all it tells was stored then and is kept since; it was terminated with its dead-letter
record, or because the broker refused the record; or its last delivery was cut short. -/
inductive AccountedFor (settings : HandlerSettings) (service : RelayService)
    (events : List RelayEvent) (state : RelayState) (index : Nat) (entry : StreamEntry) : Prop
  | pending (here : entry.fate = .pending) (left : ¬LastDelivery settings.maxDeliver entry.delivered)
  | acked (here : entry.fate = .acked) {past since : List RelayEvent} {ack : RelayEvent}
      (happened : events = past ++ ack :: since) (answers : ack.answers index)
      (kept : Kept service (state.entries.map StreamEntry.episode) since entry.episode state.store)
  | parked (here : entry.fate = .terminated) {record : DlqRecord}
      (recorded : record ∈ state.effects.deadLettered)
      (about : IsRecordOf settings entry.episode record)
  | refused (here : entry.fate = .terminated) {event : RelayEvent} (happened : event ∈ events)
      (refuses : event.refuses index)
  | cutShort (here : entry.fate = .dropped) {event : RelayEvent} (happened : event ∈ events)
      (cuts : event.cutsShort index) (last : LastDelivery settings.maxDeliver entry.delivered)

/-- The books of a run: the stream holds what was published, in order, each message is accounted for
and was delivered no more often than allowed, each dead-letter record is about a published message,
and the store has grown by what was published alone. -/
structure RelayAccounts (settings : HandlerSettings) (service : RelayService) (start : Store)
    (events : List RelayEvent) (state : RelayState) : Prop where
  published : state.entries.map StreamEntry.episode = events.filterMap RelayEvent.episode?
  deliveries : (state.entries.map StreamEntry.delivered).sum = events.countP RelayEvent.delivers
  limited : 0 < settings.maxDeliver → ∀ entry ∈ state.entries,
    (entry.delivered : Int) ≤ settings.maxDeliver
  accounted : ∀ index entry, state.entries[index]? = some entry →
    AccountedFor settings service events state index entry
  records : ∀ record ∈ state.effects.deadLettered, ∃ entry ∈ state.entries,
    IsRecordOf settings entry.episode record
  grown : GrownFrom service (state.entries.map StreamEntry.episode) start state.store

section

variable {runtime : Runtime} {settings : HandlerSettings} {service : RelayService}
  {entries : List StreamEntry} {index : Nat} {entry : StreamEntry}

/-- A message that is delivered once more is the same message, with one delivery more. -/
theorem delivered_again (found : entries[index]? = some entry) (fate : Fate) :
    (entries.set index ⟨entry.episode, entry.delivered + 1, fate⟩).map StreamEntry.episode =
        entries.map StreamEntry.episode ∧
      ((entries.set index ⟨entry.episode, entry.delivered + 1, fate⟩).map
        StreamEntry.delivered).sum = (entries.map StreamEntry.delivered).sum + 1 := by
  induction entries generalizing index with
  | nil => cases found
  | cons first rest inductionHypothesis =>
    cases index with
    | zero =>
      obtain rfl := Option.some.inj found
      refine ⟨rfl, ?_⟩
      simp only [List.set_cons_zero, List.map_cons, List.sum_cons]
      omega
    | succ index =>
      obtain ⟨episodes, counts⟩ := @inductionHypothesis index found
      simp only [List.set_cons_succ, List.map_cons, List.sum_cons, episodes, counts]
      exact ⟨trivial, by omega⟩

/-- What is known of a message stays known as the run goes on. -/
theorem AccountedFor.later {events : List RelayEvent} {state next : RelayState} {event : RelayEvent}
    {news : List MemoryEpisodeV1}
    (accounted : AccountedFor settings service events state index entry)
    (recorded : state.effects.deadLettered ⊆ next.effects.deadLettered)
    (within : state.entries.map StreamEntry.episode <+: next.entries.map StreamEntry.episode)
    (grown : GrownFrom service news state.store next.store)
    (delivered : ∀ other ∈ news, ∃ position, event.index? = some position ∧
      (next.entries.map StreamEntry.episode)[position]? = some other) :
    AccountedFor settings service (events ++ [event]) next index entry := by
  cases accounted with
  | pending here left => exact .pending here left
  | @acked here past since ack happened answers kept =>
    have longer : events ++ [event] = past ++ ack :: (since ++ [event]) := by
      rw [happened, List.append_assoc]
      rfl
    exact .acked here longer answers (kept.later within grown delivered)
  | parked here member about => exact .parked here (recorded member) about
  | refused here happened refuses => exact .refused here (List.mem_append_left _ happened) refuses
  | cutShort here happened cuts last =>
    exact .cutShort here (List.mem_append_left _ happened) cuts last

/-- A delivery was the last one, or leaves the message on the stream. -/
theorem accounted_unanswered {events : List RelayEvent} {state : RelayState} {event : RelayEvent}
    (cuts : event.cutsShort index) (number : Nat) (episode : MemoryEpisodeV1) :
    AccountedFor settings service (events ++ [event]) state index
      ⟨episode, number, unanswered settings.maxDeliver number⟩ := by
  by_cases last : LastDelivery settings.maxDeliver number
  · exact .cutShort (if_pos last) (List.mem_append_right _ (List.mem_singleton_self event)) cuts
      last
  · exact .pending (if_neg last) last

/-- A message stays within its deliveries when one that is pending is delivered. -/
theorem limited_again (bounded : 0 < settings.maxDeliver)
    (left : ¬LastDelivery settings.maxDeliver entry.delivered) :
    ((entry.delivered + 1 : Nat) : Int) ≤ settings.maxDeliver := by
  unfold LastDelivery at left
  omega

/-- The books are kept when a message is delivered, once it is known where that message stands. -/
theorem RelayAccounts.delivered {start : Store} {events : List RelayEvent} {state : RelayState}
    {event : RelayEvent} {fate : Fate} {store : Store} {effects : Effects}
    (accounts : RelayAccounts settings service start events state)
    (found : state.entries[index]? = some entry) (pending : entry.fate = .pending)
    (silent : event.episode? = none) (delivers : event.index? = some index)
    (grown : GrownFrom service [entry.episode] state.store store)
    (recorded : effects.deadLettered = state.effects.deadLettered ∨
      ∃ record, IsRecordOf settings entry.episode record ∧
        effects.deadLettered = state.effects.deadLettered ++ [record])
    (stands : AccountedFor settings service (events ++ [event])
      ⟨state.entries.set index ⟨entry.episode, entry.delivered + 1, fate⟩, store, effects⟩ index
      ⟨entry.episode, entry.delivered + 1, fate⟩) :
    RelayAccounts settings service start (events ++ [event])
      ⟨state.entries.set index ⟨entry.episode, entry.delivered + 1, fate⟩, store, effects⟩ := by
  obtain ⟨episodes, counts⟩ := delivered_again found fate
  have member : entry ∈ state.entries := List.mem_of_getElem? found
  have subset : state.effects.deadLettered ⊆ effects.deadLettered := by
    rcases recorded with same | ⟨record, _, added⟩
    · rw [same]
      exact List.Subset.refl _
    · rw [added]
      exact List.subset_append_left _ _
  have about : ∀ {record : DlqRecord} {known : StreamEntry}, known ∈ state.entries →
      IsRecordOf settings known.episode record →
        ∃ entry' ∈ state.entries.set index ⟨entry.episode, entry.delivered + 1, fate⟩,
          IsRecordOf settings entry'.episode record := by
    intro record known inside isRecord
    have listed : known.episode ∈ (state.entries.set index
        ⟨entry.episode, entry.delivered + 1, fate⟩).map StreamEntry.episode := by
      rw [episodes]
      exact List.mem_map_of_mem inside
    obtain ⟨other, here, same⟩ := List.mem_map.mp listed
    exact ⟨other, here, same ▸ isRecord⟩
  have listed : (state.entries.map StreamEntry.episode)[index]? = some entry.episode := by
    rw [List.getElem?_map, found]
    rfl
  refine ⟨?_, ?_, fun bounded other here => ?_, fun position other here => ?_, fun record here => ?_,
    ?_⟩
  · rw [episodes, accounts.published, List.filterMap_append, List.filterMap_cons_none silent]
    exact (List.append_nil _).symm
  · have once : event.delivers = true := Option.isSome_iff_exists.mpr ⟨index, delivers⟩
    rw [counts, accounts.deliveries, List.countP_append, List.countP_singleton, if_pos once]
  · rcases List.mem_or_eq_of_mem_set here with known | rfl
    · exact accounts.limited bounded other known
    · cases accounts.accounted index entry found with
      | pending _ left => exact limited_again bounded left
      | acked gone => simp [pending] at gone
      | parked gone => simp [pending] at gone
      | refused gone => simp [pending] at gone
      | cutShort gone => simp [pending] at gone
  · by_cases same : index = position
    · subst same
      rw [List.getElem?_set_self (List.getElem?_eq_some_iff.mp found).1] at here
      obtain rfl := Option.some.inj here
      exact stands
    · rw [List.getElem?_set_ne same] at here
      refine (accounts.accounted position other here).later subset
        (by rw [episodes]) grown fun told inside => ⟨index, delivers, ?_⟩
      rw [episodes, List.mem_singleton.mp inside]
      exact listed
  · rcases recorded with same | ⟨added, isRecord, appended⟩
    · obtain ⟨known, inside, isRecord⟩ := accounts.records record (same ▸ here)
      exact about inside isRecord
    · rcases List.mem_append.mp (appended ▸ here) with old | new
      · obtain ⟨known, inside, isRecord⟩ := accounts.records record old
        exact about inside isRecord
      · obtain rfl := List.mem_singleton.mp new
        exact about member isRecord
  · rw [episodes]
    refine accounts.grown.trans (grown.mono fun episode inside => ?_)
    rw [List.mem_singleton.mp inside]
    exact List.mem_map_of_mem member

/-- Every step keeps the books. -/
theorem RelayAccounts.step {start : Store} {events : List RelayEvent} {state next : RelayState}
    {event : RelayEvent} (accounts : RelayAccounts settings service start events state)
    (step : RelayStep runtime settings service state event next) :
    RelayAccounts settings service start (events ++ [event]) next := by
  cases step with
  | published episode =>
    refine ⟨?_, ?_, fun bounded entry here => ?_, fun index entry found => ?_, fun record here => ?_,
      ?_⟩
    · rw [List.map_append, List.filterMap_append, accounts.published]
      rfl
    · rw [List.map_append, List.sum_append, List.countP_append, accounts.deliveries]
      rfl
    · rcases List.mem_append.mp here with known | new
      · exact accounts.limited bounded entry known
      · rw [List.mem_singleton.mp new]
        exact bounded.le
    · rw [List.getElem?_append] at found
      split at found
      · refine (accounts.accounted index entry found).later (List.Subset.refl _) ?_
          (.refl service [] state.store) fun _ inside => absurd inside List.not_mem_nil
        rw [List.map_append]
        exact List.prefix_append _ _
      · have same := List.mem_singleton.mp (List.mem_of_getElem? found)
        rw [same]
        exact .pending rfl fun last => absurd last.2 (not_le.mpr last.1)
    · obtain ⟨known, inside, isRecord⟩ := accounts.records record here
      exact ⟨known, List.mem_append_left _ inside, isRecord⟩
    · refine accounts.grown.mono ?_
      rw [List.map_append]
      exact List.subset_append_left _ _
  | @handled index entry delivery outcome ingest store answer effects found pending ran ended
      handles =>
    have grown : GrownFrom service [entry.episode] state.store store := by
      have sustained := Program.runFaulty_of_sustains
        (sustains_ingest service delivery.engine entry.episode state.store)
        (GrownFrom.refl _ _ _) delivery.faults
      rwa [ran] at sustained
    have ways := handlerEnds_handled runtime settings entry.episode
      (delivery.message (entry.delivered + 1) ingest) state.effects
    rw [handles] at ways
    dsimp only at ways
    refine accounts.delivered found pending rfl rfl grown ?_ ?_
    · cases ways with
      | acked _ same => exact Or.inl same
      | nacked _ _ same => exact Or.inl same
      | parked about added => exact Or.inr ⟨_, about, added⟩
      | refused _ same => exact Or.inl same
    · by_cases answered : delivery.answered = true
      · rw [if_pos answered]
        cases ways with
        | acked returned _ =>
          refine .acked rfl rfl ⟨rfl, answered⟩ ?_
          cases outcome with
          | returned done => exact kept_of_returned ran
          | raised error =>
            rw [show ingest = .error error from (Option.some.inj ended).symm] at returned
            cases returned
          | hung => cases ended
        | nacked _ retried _ =>
          have more : ¬LastDelivery settings.maxDeliver (entry.delivered + 1) :=
            fun last => retried (Or.inr last.2)
          exact .pending (if_neg more) more
        | parked about added =>
          refine .parked rfl ?_ about
          rw [added]
          exact List.mem_append_right _ (List.mem_singleton_self _)
        | refused refuses _ =>
          exact .refused rfl (List.mem_append_right _ (List.mem_singleton_self _))
            ⟨rfl, _, refuses⟩
      · rw [if_neg answered]
        exact @accounted_unanswered _ _ _ _ _ (.handled index delivery)
          ⟨rfl, Bool.eq_false_of_not_eq_true answered⟩ _ _
  | @killed index entry engine faults calls found pending =>
    have grown : GrownFrom service [entry.episode] state.store
        ((service.ingest entry.episode).stopAfter (storeWorld engine) calls faults state.store) :=
      Program.stopAfter_of_sustains (sustains_ingest service engine entry.episode state.store)
        (GrownFrom.refl _ _ _) calls faults
    exact accounts.delivered found pending rfl rfl grown (Or.inl rfl)
      (@accounted_unanswered _ _ _ _ _ (.killed index engine faults calls) rfl _ _)

/-- A run cannot deliver more than the deliveries its messages have. -/
theorem RelayAccounts.deliveries_le {start : Store} {events : List RelayEvent} {state : RelayState}
    (accounts : RelayAccounts settings service start events state)
    (limit : 0 < settings.maxDeliver) :
    (events.countP RelayEvent.delivers : Int) ≤
      settings.maxDeliver * (events.filterMap RelayEvent.episode?).length := by
  have bounded : ∀ entries : List StreamEntry,
      (∀ entry ∈ entries, (entry.delivered : Int) ≤ settings.maxDeliver) →
        ((entries.map StreamEntry.delivered).sum : Int) ≤
          settings.maxDeliver * entries.length := by
    intro entries limited
    induction entries with
    | nil => simp
    | cons entry rest inductionHypothesis =>
      have first := limited entry List.mem_cons_self
      have others := inductionHypothesis fun other member =>
        limited other (List.mem_cons_of_mem _ member)
      rw [List.map_cons, List.sum_cons, List.length_cons, Int.natCast_add, Int.natCast_add,
        Int.natCast_one, Int.mul_add, Int.mul_one]
      omega
  rw [← accounts.deliveries, ← accounts.published, List.length_map]
  exact bounded _ (accounts.limited limit)

end

/-- A build outcome is published, the process is stopped in the first delivery of it, and the second
goes through. -/
def stoppedOnce : List RelayEvent :=
  [.published (buildEnvelope lessonsRuntime lessonsOutcome), .killed 0 plainEngine [] 0,
    .handled 0 ⟨plainEngine, [], .ok (), none, true⟩]

end FleetMemory
