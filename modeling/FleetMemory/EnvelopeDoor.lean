/-
This file models the tool that takes a published envelope without the bus: the envelope is
checked, the bus's own limits are applied to it, and the relay's ingest runs on it. It
proves that a caller who retries as long as the bus redelivers is answered what becomes of
the same message on the stream, and leaves the store the stream leaves.
-/

import FleetMemory.BackwardEdges
import FleetMemory.DoorTools
import FleetMemory.RelayStream

namespace FleetMemory

open StoreProgram

/-! ### The check of an envelope -/

/-- What pydantic does of an envelope: the `isoformat()` of a time or the message of its refusal,
and `model_dump_json()`. -/
structure EnvelopeLibrary where
  laxDatetime : PyValue → Except String String
  modelDumpJson : MemoryEpisodeV1 → String

/-- `ingest_hints`. -/
def hintsValue : PyValue → Checked (Option PyDict)
  | .none => .ok none
  | .dict entries => .ok (some entries)
  | _ => .error [⟨"ingest_hints", "Input should be a valid dictionary"⟩]

/-- The name an envelope has its project under: the alias counts where the field's own name is
missing. -/
def projectKey (envelope : PyDict) : String :=
  if (envelope.get "project_id").isNone ∧ (envelope.get "project").isSome then "project"
  else "project_id"

/-- `MAX_ENVELOPE_BYTES`. -/
def maxEnvelopeBytes : Nat := 921600

/-- `SUBJECT_TOKEN_RE`. -/
def subjectToken (text : String) : Bool :=
  match text.toList with
  | [] => false
  | first :: rest => first.isAlphanum &&
      rest.all fun character => character.isAlphanum || character = '-' || character = '_'

section

variable (library : EnvelopeLibrary)

/-- `MemoryEpisodeV1.model_validate`. -/
def MemoryEpisodeV1.check (envelope : PyDict) : Checked MemoryEpisodeV1 :=
  let text (name : String) := field name none (strValue name) envelope
  let textOrNone (name : String) :=
    field name (some none) (optionalValue none fun value => (strValue name value).map some) envelope
  let timeOrNone (name : String) := field name (some none)
    (optionalValue none fun value => (converted library.laxDatetime name value).map some) envelope
  (Checked.both (text "episode_id")
    (Checked.both (text (projectKey envelope))
      (Checked.both (text "episode_type")
        (Checked.both (text "content_format")
          (Checked.both (text "body")
            (Checked.both (textOrNone "payload_type")
              (Checked.both (textOrNone "source_ref")
                (Checked.both (textOrNone "name")
                  (Checked.both (textOrNone "source")
                    (Checked.both (timeOrNone "occurred_at")
                      (Checked.both (timeOrNone "published_at")
                        (field "ingest_hints" (some none) hintsValue envelope)))))))))))).map
    fun ⟨episodeId, projectId, episodeType, contentFormat, body, payloadType, sourceRef, name,
        source, occurredAt, publishedAt, ingestHints⟩ =>
      { episodeId, projectId, episodeType, contentFormat, body, payloadType, sourceRef, name,
        source, occurredAt, publishedAt, ingestHints }

/-- A refusal of the caller's envelope. -/
def clientError (message : String) : ToolResult PyDict :=
  { isError := true, errorType := some "client", message }

/-- The refusal of a field that is no plain subject token. -/
def tokenRefusal (fieldName : String) : ToolResult PyDict :=
  clientError (fieldName ++ " must be a plain subject token (letters, digits, '-' and '_', " ++
    "starting with a letter or digit), as the bus requires")

/-- What `memory_publish_envelope` does before it ingests. -/
def takeEnvelope (runtime : Runtime) (envelope : PyDict) :
    Except (ToolResult PyDict) MemoryEpisodeV1 :=
  match MemoryEpisodeV1.check library envelope with
  | .error (first :: _) => .error (clientError (sanitizeMessage runtime
      ("Field '" ++ first.loc ++ "' " ++ first.msg)))
  | .error [] => .error (clientError (sanitizeMessage runtime "Envelope validation failed"))
  | .ok episode =>
    let size := (library.modelDumpJson episode).utf8ByteSize
    if maxEnvelopeBytes < size then
      .error (clientError ("the envelope is " ++ toString size ++ " bytes, over the " ++
        toString maxEnvelopeBytes ++
        " byte limit the bus keeps; chunk the content before sending it"))
    else if subjectToken episode.projectId = false then .error (tokenRefusal "project_id")
    else if subjectToken episode.episodeType = false then .error (tokenRefusal "episode_type")
    else .ok episode

/-! ### The tool -/

/-- What a caller reads of a poison episode. -/
def poisonMessage (reason : String) : Option String → String
  | none => reason
  | some detail => if detail = "" then reason else reason ++ " (" ++ detail ++ ")"

/-- The answer for what an ingest raises. -/
def envelopeFailure (runtime : Runtime) : PyError → Outcome PyError (ToolResult PyDict)
  | .poisonEpisode reason detail =>
    .returned (clientError (sanitizeMessage runtime (poisonMessage reason detail)))
  | .transientIngest message => .returned
      { isError := true, errorType := some "infrastructure",
        message := sanitizeMessage runtime message }
  | error => .raised error

/-- The answer for an episode that was ingested. -/
def ingestedAnswer (episode : MemoryEpisodeV1) : ToolResult PyDict :=
  { isError := false, value := some [("episode_id", .str episode.episodeId)] }

/-- `memory_publish_envelope`. -/
def memoryPublishEnvelope (service : RelayService) (envelope : PyDict) :
    StoreM (ToolResult PyDict) :=
  match takeEnvelope library service.runtime envelope with
  | .error refusal => Program.ofOutcome (.returned refusal)
  | .ok episode => Program.tryCatch
      (service.ingest episode >>= fun _ => Program.ofOutcome (.returned (ingestedAnswer episode)))
      fun error => Program.ofOutcome (envelopeFailure service.runtime error)

/-! ### A message offered again and again -/

/-- What a message meets when it is offered once: how the store ranks and which of its calls fail,
and how the broker and the marker behave, which the relay alone calls. -/
structure Offer where
  engine : SearchEngine
  faults : List (Option PyError)
  publish : Except PyError Unit
  marker : Option (Except PyError Unit)

section

variable (settings : HandlerSettings) (service : RelayService)

/-- The message on the stream: it is delivered until it leaves the stream. An ingest that does not
end leaves nothing to settle. -/
def overBus (episode : MemoryEpisodeV1) :
    List Offer → StreamState → Store → Option StreamState × Store
  | [], state, store => (some state, store)
  | offer :: rest, state, store =>
    if state.fate = .pending then
      let ran := (service.ingest episode).runFaulty (storeWorld offer.engine) offer.faults store
      match endOf ran.1 with
      | none => (none, ran.2)
      | some ended => overBus episode rest (deliver service.runtime settings episode state
          ⟨ended, offer.publish, offer.marker⟩) ran.2
    else (some state, store)

/-- Where a message stands for a caller who was given these answers and tries as often as the bus
delivers: an infrastructure error is retried, any other answer is the last. -/
def standing (maxDeliver : Int) (answers : List (ToolResult PyDict)) : Fate :=
  match answers.getLast? with
  | none => .pending
  | some answer =>
    if answer.isError = false then .acked
    else if answer.errorType = some "client" ∨ maxDeliver ≤ answers.length then .terminated
    else .pending

/-- The same envelope given to the tool until the caller has its last answer. -/
def throughDoor (envelope : PyDict) :
    List Offer → List (ToolResult PyDict) → Store → Option (List (ToolResult PyDict)) × Store
  | [], answers, store => (some answers, store)
  | offer :: rest, answers, store =>
    if standing settings.maxDeliver answers = .pending then
      match (memoryPublishEnvelope library service envelope).runFaulty (storeWorld offer.engine)
        offer.faults store with
      | (.returned answer, after) => throughDoor envelope rest (answers ++ [answer]) after
      | (.raised _, after) => (none, after)
      | (.hung, after) => (none, after)
    else (some answers, store)

end

end

/-- What a dead-letter record says of the failure: the poison, or the last error of an episode
whose deliveries are used up. -/
def DlqRecord.failure (record : DlqRecord) : String :=
  match record.exhaustion with
  | none => poisonMessage record.reason record.detail
  | some _ => record.detail.getD ""

/-- The answers of a caller and the message on the stream agree: as many answers as deliveries and
the same standing. A message that was terminated has one dead-letter record, which says of the
failure what the last answer says, unless the broker refused it; no other message has one. -/
structure Agrees (runtime : Runtime) (settings : HandlerSettings) (episode : MemoryEpisodeV1)
    (offers : List Offer) (answers : List (ToolResult PyDict)) (state : StreamState) : Prop where
  delivered : state.delivered = answers.length
  fate : state.fate = standing settings.maxDeliver answers
  value : state.fate = .acked → answers.getLast? = some (ingestedAnswer episode)
  records : (state.effects.deadLettered = [] ∧ (state.fate = .terminated →
      ∃ offer ∈ offers, ∃ refusal, offer.publish = .error refusal)) ∨
    ∃ entry answer, state.effects.deadLettered = [entry] ∧ state.fate = .terminated ∧
      IsRecordOf settings episode entry ∧ answers.getLast? = some answer ∧
        answer.message = sanitizeMessage runtime entry.failure

/-! ### One offer -/

section

variable {library : EnvelopeLibrary} {settings : HandlerSettings} {service : RelayService}
  {envelope : PyDict} {episode : MemoryEpisodeV1} {offer : Offer} {store : Store}

/-- A refused envelope is answered without a store call, as the caller's error. -/
theorem takeEnvelope_eq_error {runtime : Runtime} {refusal : ToolResult PyDict}
    (refused : takeEnvelope library runtime envelope = .error refusal) :
    refusal.isError = true ∧ refusal.errorType = some "client" := by
  rw [takeEnvelope] at refused
  split at refused
  · obtain rfl := Except.error.inj refused
    exact ⟨rfl, rfl⟩
  · obtain rfl := Except.error.inj refused
    exact ⟨rfl, rfl⟩
  · dsimp only at refused
    split_ifs at refused
    all_goals
      obtain rfl := Except.error.inj refused
      exact ⟨rfl, rfl⟩

/-- The tool on an envelope that is taken: the ingest, with its end answered. -/
theorem runFaulty_memoryPublishEnvelope
    (taken : takeEnvelope library service.runtime envelope = .ok episode) (engine : SearchEngine)
    (faults : List (Option PyError)) (store : Store) :
    (memoryPublishEnvelope library service envelope).runFaulty (storeWorld engine) faults store =
      ((((service.ingest episode).runFaulty (storeWorld engine) faults store).1 >>=
          fun _ => .returned (ingestedAnswer episode)).recover (envelopeFailure service.runtime),
        ((service.ingest episode).runFaulty (storeWorld engine) faults store).2) := by
  rw [memoryPublishEnvelope, taken]
  dsimp only
  change (Program.tryCatch (service.ingest episode >>= fun _ =>
      Program.done (.returned (ingestedAnswer episode)))
    fun error => Program.done (envelopeFailure service.runtime error)).runFaulty _ _ _ = _
  rw [Program.runFaulty_tryCatch_done, Program.runFaulty_bind_done]

theorem standing_concat (maxDeliver : Int) (answers : List (ToolResult PyDict))
    (answer : ToolResult PyDict) : standing maxDeliver (answers ++ [answer]) =
      if answer.isError = false then .acked
      else if answer.errorType = some "client" ∨ maxDeliver ≤ (answers.length + 1 : Nat) then
        .terminated
      else .pending := by
  rw [standing, List.getLast?_concat, List.length_append, List.length_singleton]

/-- A message that is parked is terminated, and has its record unless the broker refuses it. -/
theorem settle_park {message : Message} {effects : Effects} (maxDeliver : Int) (number : Nat)
    (reason : String) (detail : Option String) (exhaustion : Option Exhaustion) :
    settle maxDeliver number
        ((park settings episode message reason detail exhaustion).run.run effects).1 =
          .terminated ∧
      ((∃ refusal, message.publish = .error refusal ∧
          ((park settings episode message reason detail exhaustion).run.run
            effects).2.deadLettered = effects.deadLettered) ∨
        ∃ entry, IsRecordOf settings episode entry ∧ entry.reason = reason ∧
          entry.detail = detail ∧ entry.exhaustion = exhaustion ∧
            ((park settings episode message reason detail exhaustion).run.run
              effects).2.deadLettered = effects.deadLettered ++ [entry]) := by
  have split : (park settings episode message reason detail exhaustion).run.run effects = _ :=
    run_handlerM_bind _ _
  rw [split, publishDlq]
  cases published : message.publish with
  | error refusal => exact ⟨rfl, Or.inl ⟨refusal, rfl, rfl⟩⟩
  | ok done =>
    dsimp only
    rw [show (modify _ : HandlerM Unit).run.run effects = (.ok (), _) from rfl]
    dsimp only
    rw [run_handlerM_bind]
    obtain ⟨notes, ran⟩ := @run_record message _ "dlq"
    rw [ran]
    exact ⟨rfl, Or.inr ⟨_, ⟨rfl, rfl, rfl⟩, rfl, rfl, rfl, rfl⟩⟩

section

variable {runtime : Runtime} {offers : List Offer} {answers : List (ToolResult PyDict)}
  {state : StreamState}

theorem Agrees.unrecorded (agree : Agrees runtime settings episode offers answers state)
    (pending : state.fate = .pending) : state.effects.deadLettered = [] := by
  rcases agree.records with ⟨none_left, -⟩ | ⟨entry, answer, -, terminated, -⟩
  · exact none_left
  · rw [pending] at terminated
    cases terminated

/-- A delivery whose ingest returns is acked, and the caller is told so. -/
theorem Agrees.returned (agree : Agrees runtime settings episode offers answers state)
    (pending : state.fate = .pending) (offer : Offer) :
    Agrees runtime settings episode offers (answers ++ [ingestedAnswer episode])
      (deliver runtime settings episode state ⟨.ok (), offer.publish, offer.marker⟩) := by
  have ended := @handled_of_returned runtime settings episode
    (Attempt.message ⟨.ok (), offer.publish, offer.marker⟩ (state.delivered + 1)) state.effects rfl
  rw [deliver, if_pos pending]
  refine ⟨?_, ?_, fun _ => List.getLast?_concat, Or.inl ⟨?_, ?_⟩⟩
  · simp [agree.delivered]
  · rw [standing_concat]
    dsimp only
    rw [ended.1]
    rfl
  · exact ended.2.trans (agree.unrecorded pending)
  · dsimp only
    rw [ended.1]
    rintro ⟨⟩

/-- A delivery that parks the message ends it, and the caller is told what the record says. -/
theorem Agrees.parked (agree : Agrees runtime settings episode offers answers state)
    (pending : state.fate = .pending) (offer : Offer) (member : offer ∈ offers)
    {ingest : Except PyError Unit} {answer : ToolResult PyDict} {reason : String}
    {detail : Option String} {exhaustion : Option Exhaustion}
    (parks : handled runtime settings episode
        (Attempt.message ⟨ingest, offer.publish, offer.marker⟩ (state.delivered + 1))
          state.effects =
      (park settings episode
        (Attempt.message ⟨ingest, offer.publish, offer.marker⟩ (state.delivered + 1)) reason detail
          exhaustion).run.run state.effects)
    (stands : standing settings.maxDeliver (answers ++ [answer]) = .terminated)
    (told : ∀ entry : DlqRecord, entry.reason = reason → entry.detail = detail →
      entry.exhaustion = exhaustion → answer.message = sanitizeMessage runtime entry.failure) :
    Agrees runtime settings episode offers (answers ++ [answer])
      (deliver runtime settings episode state ⟨ingest, offer.publish, offer.marker⟩) := by
  obtain ⟨settled, left⟩ := @settle_park settings episode
    (Attempt.message ⟨ingest, offer.publish, offer.marker⟩ (state.delivered + 1)) state.effects
    settings.maxDeliver (state.delivered + 1) reason detail exhaustion
  rw [deliver, if_pos pending]
  dsimp only
  rw [parks]
  refine ⟨?_, settled.trans stands.symm, ?_, ?_⟩
  · simp [agree.delivered]
  · dsimp only
    rw [settled]
    rintro ⟨⟩
  · rcases left with ⟨refusal, refuses, same⟩ | ⟨entry, about, isReason, isDetail, isLast, added⟩
    · exact Or.inl ⟨same.trans (agree.unrecorded pending),
        fun _ => ⟨offer, member, refusal, refuses⟩⟩
    · rw [agree.unrecorded pending, List.nil_append] at added
      exact Or.inr ⟨entry, answer, added, settled, about, List.getLast?_concat,
        told entry isReason isDetail isLast⟩

/-- A delivery that neither acks nor parks the message leaves it pending, and the caller is to try
again. -/
theorem Agrees.redelivered (agree : Agrees runtime settings episode offers answers state)
    (pending : state.fate = .pending) (offer : Offer) {error : PyError} {answer : ToolResult PyDict}
    (retried : ¬Parks settings (Attempt.message ⟨.error error, offer.publish, offer.marker⟩
      (state.delivered + 1)) error)
    (more : ¬settings.maxDeliver ≤ (state.delivered + 1 : Nat))
    (waits : standing settings.maxDeliver (answers ++ [answer]) = .pending) :
    Agrees runtime settings episode offers (answers ++ [answer])
      (deliver runtime settings episode state ⟨.error error, offer.publish, offer.marker⟩) := by
  have ended := @handled_of_not_parks runtime settings episode
    (Attempt.message ⟨.error error, offer.publish, offer.marker⟩ (state.delivered + 1))
    state.effects _ rfl retried
  have settled : settle settings.maxDeliver (state.delivered + 1) (.error .nackMessage) =
      .pending := if_neg fun last => more last.2
  rw [deliver, if_pos pending]
  dsimp only
  refine ⟨?_, ?_, ?_, Or.inl ⟨ended.2.trans (agree.unrecorded pending), ?_⟩⟩
  · simp [agree.delivered]
  · dsimp only
    rw [ended.1, settled, waits]
  · dsimp only
    rw [ended.1, settled]
    rintro ⟨⟩
  · dsimp only
    rw [ended.1, settled]
    rintro ⟨⟩

/-- A delivery whose ingest fails is parked or redelivered, and the caller is told which. -/
theorem Agrees.failed (agree : Agrees runtime settings episode offers answers state)
    (pending : state.fate = .pending) (offer : Offer) (member : offer ∈ offers) {error : PyError}
    {answer : ToolResult PyDict} (answered : envelopeFailure runtime error = .returned answer) :
    Agrees runtime settings episode offers (answers ++ [answer])
      (deliver runtime settings episode state ⟨.error error, offer.publish, offer.marker⟩) := by
  cases error with
  | poisonEpisode reason detail =>
    obtain rfl := Outcome.returned.inj answered
    refine agree.parked pending offer member rfl ?_ fun entry isReason isDetail isLast => ?_
    · rw [standing_concat]
      rfl
    · rw [DlqRecord.failure, isLast, isReason, isDetail]
      rfl
  | transientIngest text =>
    obtain rfl := Outcome.returned.inj answered
    obtain ⟨message, message_eq⟩ : ∃ message, message =
      Attempt.message ⟨.error (.transientIngest text), offer.publish, offer.marker⟩
        (state.delivered + 1) := ⟨_, rfl⟩
    have counts : deliveryCount message = (state.delivered + 1 : Nat) := by
      rw [message_eq]
      rfl
    by_cases exhausted : settings.maxDeliver ≤ (state.delivered + 1 : Nat)
    · have parks : handled runtime settings episode message state.effects =
          (park settings episode message "max_deliver_exhausted" (some text)
            (some ⟨"transient_ingest_error", deliveryCount message, settings.maxDeliver⟩)).run.run
              state.effects := by
        rw [← counts] at exhausted
        have routed : routeTransient settings episode message text "transient_ingest_error" =
            park settings episode message "max_deliver_exhausted" (some text)
              (some ⟨"transient_ingest_error", deliveryCount message, settings.maxDeliver⟩) :=
          if_pos exhausted
        rw [← routed, message_eq]
        rfl
      rw [message_eq] at parks
      refine agree.parked pending offer member parks ?_ fun entry isReason isDetail isLast => ?_
      · rw [standing_concat, if_neg (by simp), if_pos]
        exact Or.inr (agree.delivered ▸ exhausted)
      · rw [DlqRecord.failure, isLast, isDetail]
        rfl
    · have retried : ¬Parks settings message (.transientIngest text) := by
        rintro (poison | used)
        · cases poison
        · rw [counts] at used
          exact exhausted used
      rw [message_eq] at retried
      refine agree.redelivered pending offer retried exhausted ?_
      rw [standing_concat, if_neg (by simp), if_neg]
      rw [← agree.delivered]
      exact fun last => last.elim (by simp) exhausted
  | _ => cases answered

/-- A pending message that is offered once more: the stream delivers it, and the tool answers what
that delivery comes to, or neither ends. -/
theorem Agrees.step (taken : takeEnvelope library service.runtime envelope = .ok episode)
    (agree : Agrees service.runtime settings episode offers answers state)
    (pending : state.fate = .pending) (offer : Offer) (member : offer ∈ offers) (store : Store) :
    ∃ after,
      ((service.ingest episode).runFaulty (storeWorld offer.engine) offer.faults store =
          (.hung, after) ∧
        (memoryPublishEnvelope library service envelope).runFaulty (storeWorld offer.engine)
          offer.faults store = (.hung, after)) ∨
      ∃ outcome ended answer,
        (service.ingest episode).runFaulty (storeWorld offer.engine) offer.faults store =
          (outcome, after) ∧ endOf outcome = some ended ∧
        (memoryPublishEnvelope library service envelope).runFaulty (storeWorld offer.engine)
          offer.faults store = (.returned answer, after) ∧
        Agrees service.runtime settings episode offers (answers ++ [answer]) (deliver
          service.runtime settings episode state ⟨ended, offer.publish, offer.marker⟩) := by
  rw [runFaulty_memoryPublishEnvelope taken]
  have sorts := RelayService.runFaulty_ingest_raised service offer.engine episode offer.faults store
  generalize (service.ingest episode).runFaulty (storeWorld offer.engine) offer.faults store = ran
    at sorts ⊢
  obtain ⟨outcome, after⟩ := ran
  refine ⟨after, ?_⟩
  cases outcome with
  | hung => exact Or.inl ⟨rfl, rfl⟩
  | returned done =>
    exact Or.inr ⟨_, .ok (), ingestedAnswer episode, rfl, rfl, rfl, agree.returned pending offer⟩
  | raised error =>
    obtain ⟨answer, answered⟩ : ∃ answer,
        envelopeFailure service.runtime error = .returned answer := by
      rcases sorts after error rfl with poison | transient
      · cases error with
        | poisonEpisode reason detail => exact ⟨_, rfl⟩
        | _ => cases poison
      · cases error with
        | transientIngest text => exact ⟨_, rfl⟩
        | _ => cases transient
    refine Or.inr ⟨_, .error error, answer, rfl, rfl, ?_,
      agree.failed pending offer member answered⟩
    exact Prod.ext answered rfl

/-- From answers and a message that agree, the tool and the stream stay together. -/
theorem throughDoor_follows (taken : takeEnvelope library service.runtime envelope = .ok episode)
    {rest : List Offer} (among : ∀ offer ∈ rest, offer ∈ offers)
    (agree : Agrees service.runtime settings episode offers answers state) (store : Store) :
    (throughDoor library settings service envelope rest answers store).2 =
        (overBus settings service episode rest state store).2 ∧
      Option.Rel (Agrees service.runtime settings episode offers)
        (throughDoor library settings service envelope rest answers store).1
        (overBus settings service episode rest state store).1 := by
  induction rest generalizing answers state store with
  | nil => exact ⟨rfl, .some agree⟩
  | cons offer rest inductionHypothesis =>
    rw [throughDoor, overBus, ← agree.fate]
    by_cases pending : state.fate = .pending
    · rw [if_pos pending, if_pos pending]
      obtain ⟨after, ⟨hung, hangs⟩ | ⟨outcome, ended, answer, ran, ends, answered, agrees⟩⟩ :=
        agree.step taken pending offer (among offer List.mem_cons_self) store
      · rw [hung, hangs]
        exact ⟨rfl, .none⟩
      · rw [ran, answered]
        dsimp only
        rw [ends]
        exact inductionHypothesis (fun other member => among other (List.mem_cons_of_mem _ member))
          agrees after
    · rw [if_neg pending, if_neg pending]
      exact ⟨rfl, .some agree⟩

end

/-- An envelope the tool takes is one the bus could have carried. -/
theorem takeEnvelope_eq_ok {runtime : Runtime}
    (taken : takeEnvelope library runtime envelope = .ok episode) :
    MemoryEpisodeV1.check library envelope = .ok episode ∧
      (library.modelDumpJson episode).utf8ByteSize ≤ maxEnvelopeBytes ∧
      subjectToken episode.projectId = true ∧ subjectToken episode.episodeType = true := by
  rw [takeEnvelope] at taken
  split at taken
  · cases taken
  · cases taken
  · rename_i checked
    dsimp only at taken
    split_ifs at taken with large project type
    obtain rfl := Except.ok.inj taken
    exact ⟨checked, not_lt.mp large, by simpa using project, by simpa using type⟩

end

/-- An envelope that the tool refuses is answered as the caller's error and calls no store. One it
takes keeps the bus's limits, and a caller who tries as often as the bus delivers is answered, try
by try, what becomes of the message on the stream, and leaves the store the stream leaves, whatever
calls fail on the way. -/
theorem door_follows_bus (library : EnvelopeLibrary) (settings : HandlerSettings)
    (service : RelayService) (envelope : PyDict) :
    (∀ refusal, takeEnvelope library service.runtime envelope = .error refusal →
      refusal.isError = true ∧ refusal.errorType = some "client" ∧ ∀ engine faults store,
        (memoryPublishEnvelope library service envelope).runFaulty (storeWorld engine) faults
          store = (.returned refusal, store)) ∧
    ∀ episode, takeEnvelope library service.runtime envelope = .ok episode →
      ((library.modelDumpJson episode).utf8ByteSize ≤ maxEnvelopeBytes ∧
        subjectToken episode.projectId = true ∧ subjectToken episode.episodeType = true) ∧
      ∀ (offers : List Offer) (store : Store),
        (throughDoor library settings service envelope offers [] store).2 =
            (overBus settings service episode offers .initial store).2 ∧
          Option.Rel (Agrees service.runtime settings episode offers)
            (throughDoor library settings service envelope offers [] store).1
            (overBus settings service episode offers .initial store).1 := by
  refine ⟨fun refusal refused => ?_, fun episode taken =>
    ⟨(takeEnvelope_eq_ok taken).2, fun offers store => ?_⟩⟩
  · refine ⟨(takeEnvelope_eq_error refused).1, (takeEnvelope_eq_error refused).2,
      fun engine faults store => ?_⟩
    rw [memoryPublishEnvelope, refused]
    rfl
  · refine throughDoor_follows taken (fun _ member => member) ⟨rfl, rfl, ?_, Or.inl ⟨rfl, ?_⟩⟩ store
    · rintro ⟨⟩
    · rintro ⟨⟩

/-- The envelope of a text of two chunks. -/
def textEnvelope : PyDict :=
  [("episode_id", .str "e"), ("project", .str "a"), ("episode_type", .str "document"),
    ("content_format", .str "text"), ("body", .str "a1b2"), ("name", .none)]

/-- The store loses its connection at the second chunk, and is there again at the next try. -/
def reconnected : List Offer :=
  [⟨plainEngine, [none, some (.connectionError "reset by peer")], .ok (), none⟩,
    ⟨plainEngine, [], .ok (), none⟩]

/-- The relay that cuts every two tokens. -/
def textService : RelayService where
  writer := chunkingWriter
  settings := ⟨2, ⟨"0.0"⟩⟩

/-- The envelopes here hold no times, and are small. -/
def smallEnvelopes : EnvelopeLibrary where
  laxDatetime _ := .error ""
  modelDumpJson _ := ""

/-- The ingest that loses its connection. -/
theorem ingest_disconnected : ∃ text middle,
    (textService.ingest (textCall "a1b2" []).episode).runFaulty (storeWorld plainEngine)
      [none, some (.connectionError "reset by peer")] ∅ =
        (.raised (.transientIngest text), middle) := by
  have cut : textService.chunksOf (textCall "a1b2" []).episode =
      .returned [⟨0, "a1", none, "a"⟩, ⟨1, "b2", none, "a"⟩] := chunks_longer []
  rw [RelayService.runFaulty_ingest, RelayService.route_of_prose (Or.inr rfl),
    RelayService.ingestProse, cut]
  exact ⟨_, _, rfl⟩

/-- The ingest after it stores both chunks. -/
theorem ingest_reconnected (store : Store) : ∃ after,
    (textService.ingest (textCall "a1b2" []).episode).runFaulty (storeWorld plainEngine) [] store =
        (.returned (), after) ∧
      after.lookup (chunkPlace chunkRuntime "e" "a" 1) =
        some ((textCall "a1b2" []).record ⟨1, "b2", none, "a"⟩) := by
  obtain ⟨stored, left, _, complete⟩ := ingest_of_prose chunkingWriter plainEngine store
    (by decide) (isOf_textCall "a1b2" [])
  have returned : ((textCall "a1b2" []).ingest chunkingWriter plainEngine store).1 = .returned () :=
    ingest_returned (by decide) (isOf_textCall _ _) (chunks_longer []) rfl
  have cut := complete returned
  obtain rfl := Outcome.returned.inj ((chunks_longer []).symm.trans cut)
  refine ⟨_, Prod.ext returned left, ?_⟩
  exact lookup_storeChunks_index distinctKeys_chunkRuntime (numbered_chunks cut) rfl

/-- A caller whose first try fails at the second chunk tries again, as the bus redelivers: the second
try is answered as ingested where the message is acked, and both chunks are stored. -/
theorem door_follows_bus_reconnected :
    ∃ answers state store,
      throughDoor smallEnvelopes ⟨2, "memory.dlq"⟩ textService textEnvelope reconnected [] ∅ =
        (some answers, store) ∧
      overBus ⟨2, "memory.dlq"⟩ textService (textCall "a1b2" []).episode reconnected .initial ∅ =
        (some state, store) ∧
      answers.map ToolResult.errorType = [some "infrastructure", none] ∧
      state.delivered = 2 ∧ state.fate = .acked ∧
      store.lookup (chunkPlace chunkRuntime "e" "a" 1) =
        some ((textCall "a1b2" []).record ⟨1, "b2", none, "a"⟩) := by
  have taken : takeEnvelope smallEnvelopes textService.runtime textEnvelope =
      .ok (textCall "a1b2" []).episode := rfl
  obtain ⟨text, middle, lost⟩ := ingest_disconnected
  obtain ⟨after, gone, stored⟩ := ingest_reconnected middle
  have through : throughDoor smallEnvelopes ⟨2, "memory.dlq"⟩ textService textEnvelope reconnected
      [] ∅ =
        (some [{ isError := true, errorType := some "infrastructure",
                 message := sanitizeMessage chunkRuntime text },
          ingestedAnswer (textCall "a1b2" []).episode], after) := by
    rw [reconnected, throughDoor, if_pos (show standing _ [] = .pending from rfl),
      runFaulty_memoryPublishEnvelope taken, lost]
    change throughDoor _ _ _ _ _ [_] middle = _
    rw [throughDoor, if_pos (show standing _ _ = .pending from rfl),
      runFaulty_memoryPublishEnvelope taken, gone]
    rfl
  obtain ⟨stores, agree⟩ := ((door_follows_bus smallEnvelopes ⟨2, "memory.dlq"⟩ textService
    textEnvelope).2 _ taken).2 reconnected ∅
  rw [through] at stores agree
  generalize overBus _ _ _ reconnected _ _ = bus at stores agree
  obtain ⟨state, store⟩ := bus
  cases agree with
  | some agrees =>
    exact ⟨_, _, after, through, congrArg _ stores.symm, rfl, agrees.delivered, agrees.fate, stored⟩

end FleetMemory
