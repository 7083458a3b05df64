/-
This file models the stream handler and what becomes of a message it handles: each
delivery runs the ingest, and its outcome is turned into an ack, a redelivery, or a
dead-letter record and a termination. It proves that a message is never acked without an
ingest that returned, and that it is lost exactly when the delivery that decides it meets
a broker that refuses the dead-letter record.
-/

import FleetMemory.RelayService

namespace FleetMemory

/-! ### The handler -/

/-- What leaves the handler in place of a return. -/
inductive Signal where
  | nackMessage
  | rejectMessage
  | raised (error : PyError)

/-- The extra fields of an exhausted episode's dead-letter record. -/
structure Exhaustion where
  failureMode : String
  deliveryCount : Int
  maxDeliver : Int
deriving DecidableEq, Repr

/-- A dead-letter record and the subject it is published under. -/
structure DlqRecord where
  subject : String
  episodeId : String
  projectId : String
  reason : String
  detail : Option String
  contentFormat : String
  payloadType : Option String
  exhaustion : Option Exhaustion
deriving DecidableEq, Repr

/-- The handler's settings: `_MAX_DELIVER` and `_DLQ_SUBJECT`. -/
structure HandlerSettings where
  maxDeliver : Int
  dlqSubject : String

/-- What the handler meets at one delivery: the delivery count in the metadata, how
`service.ingest` and `broker.publish` end, and how the progress marker's call ends, if one is
set. -/
structure Message where
  numDelivered : Except PyError Int
  ingest : Except PyError Unit
  publish : Except PyError Unit
  marker : Option (Except PyError Unit)

/-- What the handler leaves outside: the dead-letter records the broker accepted, and the notes on
the progress marker. -/
structure Effects where
  deadLettered : List DlqRecord
  recorded : List String

abbrev HandlerM := ExceptT Signal (StateM Effects)

section

variable (runtime : Runtime) (settings : HandlerSettings) (episode : MemoryEpisodeV1)
  (message : Message)

/-- `_record_ingest` and `_record_message`: what the marker raises is swallowed. -/
def record (disposition : String) : HandlerM Unit :=
  match message.marker with
  | some (.ok _) => modify fun effects =>
      { effects with recorded := effects.recorded ++ [disposition] }
  | some (.error _) => return ()
  | none => return ()

/-- `_delivery_count`. -/
def deliveryCount : Int :=
  match message.numDelivered with
  | .ok count => count
  | .error _ => 0

/-- `_publish_dlq`. -/
def publishDlq (reason : String) (detail : Option String) (exhaustion : Option Exhaustion) :
    HandlerM Unit :=
  match message.publish with
  | .ok _ => modify fun effects => { effects with deadLettered := effects.deadLettered ++
      [{ subject := settings.dlqSubject ++ "." ++ episode.projectId
         episodeId := episode.episodeId
         projectId := episode.projectId
         reason
         detail
         contentFormat := episode.contentFormat
         payloadType := episode.payloadType
         exhaustion }] }
  | .error error => throw (.raised error)

/-- `_route_transient`. -/
def routeTransient (lastError failureMode : String) : HandlerM Unit := do
  let numDelivered := deliveryCount message
  if settings.maxDeliver ≤ numDelivered then do
    publishDlq settings episode message "max_deliver_exhausted" (some lastError)
      (some ⟨failureMode, numDelivered, settings.maxDeliver⟩)
    record message "dlq"
    throw .rejectMessage
  else do
    record message "nak"
    throw .nackMessage

/-- `handle_memory_episode`, with the service set. -/
def handleMemoryEpisode : HandlerM Unit := do
  match message.ingest with
  | .ok _ => record message "ingest"
  | .error (.poisonEpisode reason detail) =>
    publishDlq settings episode message reason detail none
    record message "dlq"
    throw .rejectMessage
  | .error (.transientIngest text) =>
    routeTransient settings episode message text "transient_ingest_error"
  | .error error =>
    routeTransient settings episode message (error.text runtime) "unenumerated_exception"

/-- The handler's end and effects. -/
def handled (effects : Effects) : Except Signal Unit × Effects :=
  (handleMemoryEpisode runtime settings episode message).run.run effects

end

/-! ### What one delivery does -/

section

variable {runtime : Runtime} {settings : HandlerSettings} {episode : MemoryEpisodeV1}
  {message : Message} {effects : Effects}

/-- A failure of this kind is not redelivered: it is poison, or the deliveries are exhausted. -/
def Parks (settings : HandlerSettings) (message : Message) (error : PyError) : Prop :=
  error.isPoison = true ∨ settings.maxDeliver ≤ deliveryCount message

theorem run_handlerM_bind {Result Other : Type} (first : HandlerM Result)
    (next : Result → HandlerM Other) :
    (first >>= next).run.run effects =
      match first.run.run effects with
      | (.ok result, after) => (next result).run.run after
      | (.error signal, after) => (.error signal, after) := by
  show (ExceptT.bindCont next (first.run.run effects).1).run (first.run.run effects).2 = _
  rcases first.run.run effects with ⟨ended, after⟩
  cases ended <;> rfl

theorem run_record (disposition : String) :
    ∃ notes, (record message disposition).run.run effects =
      (.ok (), { effects with recorded := notes }) := by
  unfold record
  cases message.marker with
  | none => exact ⟨_, rfl⟩
  | some call => cases call <;> exact ⟨_, rfl⟩

/-- An ingest that returns is acked. -/
theorem handled_of_returned (returned : message.ingest = .ok ()) :
    (handled runtime settings episode message effects).1 = .ok () ∧
      (handled runtime settings episode message effects).2.deadLettered =
        effects.deadLettered := by
  obtain ⟨notes, ran⟩ := @run_record message effects "ingest"
  rw [handled, handleMemoryEpisode, returned]
  exact ⟨congrArg Prod.fst ran, congrArg (fun run => run.2.deadLettered) ran⟩

/-- Publish the dead-letter record and terminate. -/
def park (settings : HandlerSettings) (episode : MemoryEpisodeV1) (message : Message)
    (reason : String) (detail : Option String) (exhaustion : Option Exhaustion) :
    HandlerM Unit := do
  publishDlq settings episode message reason detail exhaustion
  record message "dlq"
  throw .rejectMessage

/-- A parked failure ends in a termination and a record, or in what the broker raised. -/
theorem run_park (reason : String) (detail : Option String) (exhaustion : Option Exhaustion) :
    let run := (park settings episode message reason detail exhaustion).run.run effects
    (message.publish = .ok () → run.1 = .error .rejectMessage ∧
        ∃ entry, entry.episodeId = episode.episodeId ∧
          run.2.deadLettered = effects.deadLettered ++ [entry]) ∧
      ∀ refusal, message.publish = .error refusal → run.1 = .error (.raised refusal) ∧
        run.2.deadLettered = effects.deadLettered := by
  intro run
  have split : run = _ := run_handlerM_bind _ _
  cases published : message.publish with
  | ok done =>
    refine ⟨fun _ => ?_, by simp⟩
    rw [split, publishDlq, published]
    dsimp only
    rw [show (modify _ : HandlerM Unit).run.run effects = (.ok (), _) from rfl]
    dsimp only
    rw [run_handlerM_bind]
    obtain ⟨notes, ran⟩ := @run_record message _ "dlq"
    rw [ran]
    exact ⟨rfl, _, rfl, rfl⟩
  | error refusal =>
    refine ⟨by simp, ?_⟩
    rintro _ ⟨rfl⟩
    rw [split, publishDlq, published]
    exact ⟨rfl, rfl⟩

/-- A failure that is parked. -/
theorem handled_of_parks {error : PyError} (failed : message.ingest = .error error)
    (parks : Parks settings message error) :
    ∃ reason detail exhaustion, handled runtime settings episode message effects =
      (park settings episode message reason detail exhaustion).run.run effects := by
  have routed : ∀ lastError failureMode, settings.maxDeliver ≤ deliveryCount message →
      routeTransient settings episode message lastError failureMode =
        park settings episode message "max_deliver_exhausted" (some lastError)
          (some ⟨failureMode, deliveryCount message, settings.maxDeliver⟩) := by
    intro lastError failureMode exhausted
    exact if_pos exhausted
  unfold handled handleMemoryEpisode
  rw [failed]
  rcases parks with poison | exhausted
  · cases error with
    | poisonEpisode reason detail => exact ⟨reason, detail, none, rfl⟩
    | _ => cases poison
  · cases error with
    | poisonEpisode reason detail => exact ⟨reason, detail, none, rfl⟩
    | _ => exact ⟨_, _, _, by dsimp only; rw [routed _ _ exhausted]⟩

/-- A failure that is not parked is redelivered. -/
theorem handled_of_not_parks {error : PyError} (failed : message.ingest = .error error)
    (retried : ¬Parks settings message error) :
    (handled runtime settings episode message effects).1 = .error .nackMessage ∧
      (handled runtime settings episode message effects).2.deadLettered =
        effects.deadLettered := by
  have routed : ∀ lastError failureMode,
      routeTransient settings episode message lastError failureMode =
        (do record message "nak"; throw .nackMessage) := by
    intro lastError failureMode
    exact if_neg fun exhausted => retried (Or.inr exhausted)
  have nacked : ((do record message "nak"; throw .nackMessage : HandlerM Unit).run.run effects).1 =
        .error .nackMessage ∧
      ((do record message "nak"; throw .nackMessage : HandlerM Unit).run.run
        effects).2.deadLettered = effects.deadLettered := by
    rw [run_handlerM_bind]
    obtain ⟨notes, ran⟩ := @run_record message effects "nak"
    rw [ran]
    exact ⟨rfl, rfl⟩
  unfold handled handleMemoryEpisode
  rw [failed]
  cases error with
  | poisonEpisode reason detail => exact absurd (Or.inl rfl) retried
  | _ =>
    dsimp only
    rw [routed]
    exact nacked

end

/-! ### A message on the stream -/

/-- How the ingest, the broker and the marker behave at one delivery. -/
structure Attempt where
  ingest : Except PyError Unit
  publish : Except PyError Unit
  marker : Option (Except PyError Unit)

/-- The message of a delivery, whose metadata counts the deliveries. -/
def Attempt.message (attempt : Attempt) (number : Nat) : Message where
  numDelivered := .ok number
  ingest := attempt.ingest
  publish := attempt.publish
  marker := attempt.marker

/-- Where a message stands. -/
inductive Fate where
  | pending
  | acked
  | terminated
  | dropped
deriving DecidableEq, Repr

/-- The stream has delivered a message as often as it does. It takes a number that is not positive
for no limit. -/
def LastDelivery (maxDeliver : Int) (number : Nat) : Prop :=
  0 < maxDeliver ∧ maxDeliver ≤ number

instance (maxDeliver : Int) (number : Nat) : Decidable (LastDelivery maxDeliver number) :=
  inferInstanceAs (Decidable (_ ∧ _))

/-- What the stream does with the handler's end: a nak is redelivered unless it was the last
delivery, and whatever else leaves the handler terminates the message. -/
def settle (maxDeliver : Int) (number : Nat) : Except Signal Unit → Fate
  | .ok _ => .acked
  | .error .nackMessage => if LastDelivery maxDeliver number then .dropped else .pending
  | .error .rejectMessage => .terminated
  | .error (.raised _) => .terminated

/-- A message after some deliveries: their number, where it stands, whether an ingest of it
returned, and the handler's effects. -/
structure StreamState where
  delivered : Nat
  fate : Fate
  ingested : Bool
  effects : Effects

/-- A message that was not delivered yet. -/
def StreamState.initial : StreamState where
  delivered := 0
  fate := .pending
  ingested := false
  effects := ⟨[], []⟩

section

variable (runtime : Runtime) (settings : HandlerSettings) (episode : MemoryEpisodeV1)

/-- Deliver the message once more, if it is still on the stream. -/
def deliver (state : StreamState) (attempt : Attempt) : StreamState :=
  if state.fate = .pending then
    let number := state.delivered + 1
    let run := handled runtime settings episode (attempt.message number) state.effects
    { delivered := number
      fate := settle settings.maxDeliver number run.1
      ingested := state.ingested || attempt.ingest.toBool
      effects := run.2 }
  else state

/-- Deliver the message until it leaves the stream or the attempts are used up. -/
def deliverAll (attempts : List Attempt) (state : StreamState) : StreamState :=
  attempts.foldl (deliver runtime settings episode) state

/-- A message that left the stream was ingested or has a dead-letter record. -/
def NotLost (state : StreamState) : Prop :=
  state.fate ≠ .pending → state.ingested = true ∨
    ∃ entry ∈ state.effects.deadLettered, entry.episodeId = episode.episodeId

/-- A delivery that acks the message is one whose ingest returned. -/
def AckedOnReturn (attempts : List Attempt) : Prop :=
  ∀ earlier attempt later, attempts = earlier ++ attempt :: later →
    (deliverAll runtime settings episode earlier .initial).fate = .pending →
      (deliverAll runtime settings episode (earlier ++ [attempt]) .initial).fate = .acked →
        attempt.ingest = .ok ()

end

/-- The failures that are redelivered as long as deliveries are left. -/
def Attempt.retried (attempt : Attempt) : Bool :=
  match attempt.ingest with
  | .ok _ => false
  | .error error => !error.isPoison

/-- The delivery that decides the message, the first that is no retried failure or the last one,
returns from its ingest or finds the broker accepting. -/
def DecidedSafely (maxDeliver : Int) : Nat → List Attempt → Prop
  | _, [] => True
  | number, attempt :: rest =>
    if attempt.retried = true ∧ (number : Int) < maxDeliver then
      DecidedSafely maxDeliver (number + 1) rest
    else attempt.ingest = .ok () ∨ attempt.publish = .ok ()

section

variable {runtime : Runtime} {settings : HandlerSettings} {episode : MemoryEpisodeV1}
  {state : StreamState} {attempt : Attempt}

/-- A message that left the stream is not delivered. -/
theorem deliverAll_of_left (left : state.fate ≠ .pending) (attempts : List Attempt) :
    deliverAll runtime settings episode attempts state = state := by
  induction attempts with
  | nil => rfl
  | cons attempt rest inductionHypothesis =>
    rw [deliverAll, List.foldl_cons, deliver, if_neg left]
    exact inductionHypothesis

theorem ingest_of_retried (retried : attempt.retried = true) :
    ∃ error, attempt.ingest = .error error ∧ error.isPoison = false := by
  unfold Attempt.retried at retried
  split at retried
  · cases retried
  · exact ⟨_, by assumption, by simpa using retried⟩

/-- A retried failure leaves the message on the stream and no record behind. -/
theorem deliver_of_retried (pending : state.fate = .pending) (retried : attempt.retried = true)
    (left : ((state.delivered + 1 : Nat) : Int) < settings.maxDeliver) :
    ∃ effects, effects.deadLettered = state.effects.deadLettered ∧
      deliver runtime settings episode state attempt =
        ⟨state.delivered + 1, .pending, state.ingested, effects⟩ := by
  obtain ⟨error, failed, recoverable⟩ := ingest_of_retried retried
  have notParked : ¬Parks settings (attempt.message (state.delivered + 1)) error := by
    rintro (poison | exhausted)
    · rw [recoverable] at poison
      cases poison
    · exact absurd left (not_lt.mpr exhausted)
  obtain ⟨nacked, same⟩ := @handled_of_not_parks runtime settings episode
    (attempt.message (state.delivered + 1)) state.effects error failed notParked
  refine ⟨_, same, ?_⟩
  rw [deliver, if_pos pending]
  have more : ¬LastDelivery settings.maxDeliver (state.delivered + 1) :=
    fun last => absurd left (not_lt.mpr last.2)
  simp only [nacked, settle, if_neg more, failed, Except.toBool, Bool.or_false]

/-- Any other delivery takes the message off the stream, and loses it unless its ingest returned or
the broker accepted its record. -/
theorem deliver_of_decides (pending : state.fate = .pending)
    (decides : ¬(attempt.retried = true ∧
      ((state.delivered + 1 : Nat) : Int) < settings.maxDeliver))
    (untouched : state.ingested = false) (unrecorded : state.effects.deadLettered = []) :
    (deliver runtime settings episode state attempt).fate ≠ .pending ∧
      (NotLost episode (deliver runtime settings episode state attempt) ↔
        attempt.ingest = .ok () ∨ attempt.publish = .ok ()) := by
  rw [deliver, if_pos pending]
  cases ended : attempt.ingest with
  | ok done =>
    obtain ⟨acked, _⟩ := @handled_of_returned runtime settings episode
      (attempt.message (state.delivered + 1)) state.effects ended
    simp [acked, settle, NotLost, Except.toBool]
  | error error =>
    have parks : Parks settings (attempt.message (state.delivered + 1)) error := by
      by_contra retried
      simp only [Parks, not_or, Bool.not_eq_true, not_le] at retried
      exact decides ⟨by simp [Attempt.retried, ended, retried.1], retried.2⟩
    obtain ⟨reason, detail, exhaustion, ran⟩ := @handled_of_parks runtime settings episode
      (attempt.message (state.delivered + 1)) state.effects error ended parks
    obtain ⟨accepted, refused⟩ := @run_park settings episode
      (attempt.message (state.delivered + 1)) state.effects reason detail exhaustion
    cases published : attempt.publish with
    | ok done =>
      obtain ⟨rejected, entry, ofEpisode, kept⟩ := accepted published
      simp [ran, rejected, settle, NotLost, kept, ofEpisode]
    | error refusal =>
      obtain ⟨escaped, kept⟩ := refused refusal published
      simp [ran, escaped, settle, NotLost, kept, untouched, unrecorded, Except.toBool]

/-- A delivery acks the message only when its ingest returned. -/
theorem ingest_of_acked (pending : state.fate = .pending)
    (acked : (deliver runtime settings episode state attempt).fate = .acked) :
    attempt.ingest = .ok () := by
  rw [deliver, if_pos pending] at acked
  cases ended : attempt.ingest with
  | ok done => rfl
  | error error =>
    by_cases parks : Parks settings (attempt.message (state.delivered + 1)) error
    · obtain ⟨reason, detail, exhaustion, ran⟩ := @handled_of_parks runtime settings episode
        (attempt.message (state.delivered + 1)) state.effects error ended parks
      obtain ⟨accepted, refused⟩ := @run_park settings episode
        (attempt.message (state.delivered + 1)) state.effects reason detail exhaustion
      cases published : attempt.publish with
      | ok done => simp [ran, (accepted published).1, settle] at acked
      | error refusal => simp [ran, (refused refusal published).1, settle] at acked
    · have nacked := (@handled_of_not_parks runtime settings episode
        (attempt.message (state.delivered + 1)) state.effects error ended parks).1
      simp only [nacked, settle] at acked
      split at acked <;> cases acked

/-- From a message that left nothing behind yet, it is not lost exactly when it is decided safely. -/
theorem notLost_deliverAll_iff {attempts : List Attempt} (pending : state.fate = .pending)
    (untouched : state.ingested = false) (unrecorded : state.effects.deadLettered = []) :
    NotLost episode (deliverAll runtime settings episode attempts state) ↔
      DecidedSafely settings.maxDeliver (state.delivered + 1) attempts := by
  induction attempts generalizing state with
  | nil => simp [deliverAll, NotLost, pending, DecidedSafely]
  | cons attempt rest inductionHypothesis =>
    rw [deliverAll, List.foldl_cons, DecidedSafely]
    split
    · rename_i retried
      obtain ⟨effects, same, next⟩ := deliver_of_retried pending retried.1 retried.2
      rw [next]
      exact inductionHypothesis rfl untouched (same.trans unrecorded)
    · rename_i decides
      obtain ⟨left, lost⟩ := deliver_of_decides pending decides untouched unrecorded
      rw [show List.foldl _ _ rest = _ from deliverAll_of_left left rest]
      exact lost

end

/-- A message is neither lost nor acked without an ingest exactly when the delivery that decides it
returns from its ingest or finds the broker accepting, whatever the others do. -/
theorem no_message_lost_iff (runtime : Runtime) (settings : HandlerSettings)
    (episode : MemoryEpisodeV1) (attempts : List Attempt) :
    (NotLost episode (deliverAll runtime settings episode attempts .initial) ∧
        AckedOnReturn runtime settings episode attempts) ↔
      DecidedSafely settings.maxDeliver 1 attempts := by
  have acked : AckedOnReturn runtime settings episode attempts := by
    intro earlier attempt later _ pending acked
    rw [deliverAll, List.foldl_append] at acked
    exact ingest_of_acked pending acked
  rw [and_iff_left acked]
  exact notLost_deliverAll_iff rfl rfl rfl

/-- The first of five deliveries is poison and the broker refuses the record: the message is
terminated, and neither ingested nor recorded. -/
theorem poison_lost_when_dlq_refuses :
    ∃ episode, (deliverAll (.ofTables [] [] []) ⟨5, "memory.dlq"⟩ episode
        [⟨.error (.poisonEpisode "unparseable json body" none),
          .error (.connectionError "connection closed"), none⟩] .initial).fate = .terminated ∧
      ¬NotLost episode (deliverAll (.ofTables [] [] []) ⟨5, "memory.dlq"⟩ episode
        [⟨.error (.poisonEpisode "unparseable json body" none),
          .error (.connectionError "connection closed"), none⟩] .initial) := by
  refine ⟨{ episodeId := "e", projectId := "a", episodeType := "adr", contentFormat := "json",
            body := "not json", payloadType := some "adr" }, rfl, fun kept => ?_⟩
  rcases kept (by decide) with ingested | ⟨entry, member, _⟩
  · cases ingested
  · cases member

end FleetMemory
