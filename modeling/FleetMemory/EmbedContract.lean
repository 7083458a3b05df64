/-
This file proves the contract of the embedding client against any service. Each batch is posted
once, or twice when its first answer was a server error, and what becomes of it is decided by
its last answer alone. A run over all batches returns one vector for each text, or raises one
of the client's own errors, and the last answer received decides which.
-/

import FleetMemory.Embedding
import FleetMemory.RelayService

namespace FleetMemory

namespace Embedding

/-! ### What the answers come to -/

/-- The status of an answer, if one was received. -/
def Answer.status? : Answer → Option Int
  | .response statusCode _ => some statusCode
  | .raised _ => none

/-- A status 5xx. -/
def IsServerError (statusCode : Int) : Prop :=
  500 ≤ statusCode ∧ statusCode < 600

instance (statusCode : Int) : Decidable (IsServerError statusCode) :=
  inferInstanceAs (Decidable (_ ∧ _))

/-- A vector of the given number of finite numbers. -/
def Sound (embedDims : Int) (embedding : EmbedVector) : Prop :=
  (embedding.length : Int) = embedDims ∧ ∀ value ∈ embedding, isFiniteNumber value = true

/-- A response item holds a vector. -/
def Carries (item : PyValue) (embedding : EmbedVector) : Prop :=
  ∃ entries : PyDict, item = .dict entries ∧ entries.get "embedding" = some (.list embedding)

/-- An answer holds the vectors, in the order of its items. -/
def Answers (answer : Answer) (embeddings : List EmbedVector) : Prop :=
  ∃ (data : PyDict) (responseItems : List PyValue), answer = .response 200 (.ok (.dict data)) ∧
    data.get "data" = some (.list responseItems) ∧
      List.Forall₂ Carries responseItems embeddings

section

variable {format : PyValue → String} {url : String} {settings : EmbedSettings}
  {texts : List String} {item : PyValue} {itemIndex : Nat} {embedding : EmbedVector}
  {embeddings : List EmbedVector} {answer : Answer} {error : EmbedError}

theorem getD_eq_list {found : Option PyValue} {items : List PyValue} :
    found.getD .none = .list items ↔ found = some (.list items) := by
  cases found <;> simp

theorem itemVector_ok (vector : itemVector url item itemIndex = .ok embedding) :
    Carries item embedding ∧ ∀ value ∈ embedding, isFiniteNumber value = true := by
  unfold itemVector at vector
  split at vector
  · split at vector
    · rename_i entries _ _ holds
      split at vector
      · cases vector
      · rename_i finite
        obtain rfl := Except.ok.inj vector
        refine ⟨⟨entries, rfl, getD_eq_list.mp holds⟩, ?_⟩
        simpa using finite
    · cases vector
  · cases vector

theorem itemVector_error (fails : itemVector url item itemIndex = .error error) :
    ∃ message, error = malformed url message := by
  unfold itemVector at fails
  split at fails
  · split at fails
    · split at fails
      · exact ⟨_, (Except.error.inj fails).symm⟩
      · cases fails
    · exact ⟨_, (Except.error.inj fails).symm⟩
  · exact ⟨_, (Except.error.inj fails).symm⟩

theorem itemVectors_ok {items : List PyValue}
    (vectors : itemVectors url items itemIndex = .ok embeddings) :
    List.Forall₂ Carries items embeddings ∧
      ∀ embedding ∈ embeddings, ∀ value ∈ embedding, isFiniteNumber value = true := by
  induction items generalizing itemIndex embeddings with
  | nil =>
    obtain rfl := Except.ok.inj vectors
    exact ⟨.nil, by simp⟩
  | cons item rest inductionHypothesis =>
    obtain ⟨embedding, here, later⟩ := except_bind_eq_ok.mp vectors
    obtain ⟨others, there, built⟩ := except_bind_eq_ok.mp later
    obtain rfl := Except.ok.inj built
    obtain ⟨carries, finite⟩ := itemVector_ok here
    obtain ⟨carriesRest, finiteRest⟩ := inductionHypothesis there
    exact ⟨.cons carries carriesRest, List.forall_mem_cons.mpr ⟨finite, finiteRest⟩⟩

theorem itemVectors_error {items : List PyValue}
    (fails : itemVectors url items itemIndex = .error error) :
    ∃ message, error = malformed url message := by
  induction items generalizing itemIndex with
  | nil => cases fails
  | cons item rest inductionHypothesis =>
    rcases except_bind_eq_error.mp fails with here | ⟨embedding, _, later⟩
    · exact itemVector_error here
    · rcases except_bind_eq_error.mp later with there | ⟨_, _, built⟩
      · exact inductionHypothesis there
      · cases built

theorem checkDimensions_ok {checked : List EmbedVector}
    (passes : checkDimensions settings embeddings = .ok checked) :
    checked = embeddings ∧ ∀ embedding ∈ embeddings, (embedding.length : Int) = settings.embedDims := by
  unfold checkDimensions at passes
  split at passes
  · cases passes
  · rename_i none_other
    exact ⟨(Except.ok.inj passes).symm, by simpa using none_other⟩

/-- Vectors are read from an answer only if it has one for each text, all of them sound. -/
theorem readAnswer_ok (read : readAnswer format url settings texts answer = .ok embeddings) :
    Answers answer embeddings ∧ embeddings.length = texts.length ∧
      ∀ embedding ∈ embeddings, Sound settings.embedDims embedding := by
  unfold readAnswer at read
  split at read
  · cases read
  · rename_i statusCode body
    split at read
    · cases read
    · rename_i status
      obtain rfl : statusCode = 200 := not_not.mp status
      unfold bodyVectors at read
      split at read
      · cases read
      · split at read
        · rename_i data _ responseItems listed
          split at read
          · cases read
          · rename_i cardinality
            obtain ⟨vectors, loop, checked⟩ := except_bind_eq_ok.mp read
            obtain ⟨rfl, dims⟩ := checkDimensions_ok checked
            obtain ⟨carries, finite⟩ := itemVectors_ok loop
            refine ⟨⟨data, responseItems, rfl, getD_eq_list.mp listed, carries⟩, ?_, ?_⟩
            · rw [← carries.length_eq]
              exact not_not.mp cardinality
            · exact fun embedding member => ⟨dims embedding member, finite embedding member⟩
        · cases read
      · cases read

/-- A status other than 200 is an error of the service, and one of the request exactly when the
service will refuse the request again. -/
theorem statusError_sorts (statusCode : Int) (body : Except String PyValue) :
    (isDeterministicClientError statusCode = true →
      (statusError format url statusCode body).IsRequest) ∧
    (isDeterministicClientError statusCode = false →
      (statusError format url statusCode body).IsService) ∧
    (statusError format url statusCode body).serviceStatus = some statusCode := by
  unfold statusError
  cases isDeterministicClientError statusCode with
  | true => exact ⟨fun _ => trivial, nofun, rfl⟩
  | false => exact ⟨nofun, fun _ => trivial, rfl⟩

/-- A body of status 200 is refused as malformed or for its dimensions. -/
theorem bodyVectors_error {body : Except String PyValue}
    (fails : bodyVectors url settings texts body = .error error) :
    (∃ message, error = malformed url message) ∨
      ∃ actual, error = .dimension actual settings.embedDims := by
  unfold bodyVectors at fails
  split at fails
  · exact Or.inl ⟨_, (Except.error.inj fails).symm⟩
  · split at fails
    · split at fails
      · exact Or.inl ⟨_, (Except.error.inj fails).symm⟩
      · rcases except_bind_eq_error.mp fails with loop | ⟨vectors, _, checked⟩
        · exact Or.inl (itemVectors_error loop)
        · unfold checkDimensions at checked
          split at checked
          · exact Or.inr ⟨_, (Except.error.inj checked).symm⟩
          · cases checked
    · exact Or.inl ⟨_, (Except.error.inj fails).symm⟩
  · exact Or.inl ⟨_, (Except.error.inj fails).symm⟩

theorem isRetried_iff : isRetried error = true ↔
    ∃ statusCode, error.serviceStatus = some statusCode ∧ IsServerError statusCode := by
  unfold isRetried
  cases error.serviceStatus with
  | none => simp
  | some statusCode => simp [IsServerError]

/-- An answer that was received and is refused: by one of the client's own errors, for a second
time exactly at a status 5xx, as a request error exactly at a status that will not change. -/
theorem readAnswer_response_error {statusCode : Int} {body : Except String PyValue}
    (fails : readAnswer format url settings texts (.response statusCode body) = .error error) :
    error.IsOwn ∧ (isRetried error = true ↔ IsServerError statusCode) ∧
      (isDeterministicClientError statusCode = true → error.IsRequest) ∧
      (statusCode ≠ 200 → isDeterministicClientError statusCode = false → error.IsService) := by
  rw [readAnswer] at fails
  split at fails
  · obtain rfl := Except.error.inj fails
    obtain ⟨request, service, status⟩ := @statusError_sorts format url statusCode body
    refine ⟨?_, ?_, request, fun _ => service⟩
    · unfold statusError
      dsimp only
      split <;> trivial
    · rw [isRetried_iff, status]
      simp
  · rename_i same
    obtain rfl : statusCode = 200 := not_not.mp same
    have unretried : isRetried error = false ∧ error.IsOwn := by
      rcases bodyVectors_error fails with ⟨message, rfl⟩ | ⟨actual, rfl⟩ <;>
        exact ⟨rfl, trivial⟩
    refine ⟨unretried.2, ?_, fun client => absurd client (by decide), fun other => absurd rfl other⟩
    rw [unretried.1]
    decide

end

/-! ### The attempts of one batch -/

/-- The posts of one batch, the last of them decisive: one, or a second behind a server error. -/
inductive Attempts (request : EmbedRequest) : List Exchange → Answer → Prop where
  | once {answer : Answer} (settled : ∀ statusCode, answer.status? = some statusCode →
      ¬IsServerError statusCode) : Attempts request [⟨request, answer⟩] answer
  | twice {first last : Answer} {statusCode : Int} (received : first.status? = some statusCode)
      (again : IsServerError statusCode) : Attempts request [⟨request, first⟩, ⟨request, last⟩] last

section

variable (format : PyValue → String) (url : String) (settings : EmbedSettings)
  (service : EmbedService)

/-- A batch comes to what its last answer is read as. -/
theorem embedRequestWithOne5xxRetry_attempts (texts : List String) (log : List Exchange) :
    ∃ sent last, Attempts ⟨settings.embedModel, texts⟩ sent last ∧
      embedRequestWithOne5xxRetry format url settings service texts log =
        (readAnswer format url settings texts last, log ++ sent) := by
  let request : EmbedRequest := ⟨settings.embedModel, texts⟩
  let first := service log request
  have one : embedRequest format url settings service texts log =
      (readAnswer format url settings texts first, log ++ [⟨request, first⟩]) := rfl
  rw [embedRequestWithOne5xxRetry, one]
  cases read : readAnswer format url settings texts first with
  | ok embeddings =>
    refine ⟨[⟨request, first⟩], first, .once fun statusCode received => ?_, by rw [read]⟩
    obtain ⟨⟨data, items, answered, _⟩, _⟩ := readAnswer_ok read
    rw [answered] at received
    obtain rfl := Option.some.inj received
    decide
  | error error =>
    dsimp only
    by_cases retried : isRetried error = true
    · rw [if_pos retried]
      let second := service (log ++ [⟨request, first⟩]) request
      have two : embedRequest format url settings service texts (log ++ [⟨request, first⟩]) =
          (readAnswer format url settings texts second,
            log ++ [⟨request, first⟩] ++ [⟨request, second⟩]) := rfl
      rw [List.append_assoc, List.singleton_append] at two
      refine ⟨[⟨request, first⟩, ⟨request, second⟩], second, ?_, two⟩
      cases answered : first with
      | raised fault =>
        rw [answered] at read
        obtain rfl := Except.error.inj read
        cases retried
      | response statusCode body =>
        rw [answered] at read
        have again := (readAnswer_response_error read).2.1.mp retried
        exact @Attempts.twice request (.response statusCode body) second statusCode rfl again
    · rw [if_neg retried]
      refine ⟨[⟨request, first⟩], first, .once fun statusCode received => ?_, by rw [read]⟩
      cases answered : first with
      | raised fault =>
        rw [answered] at received
        cases received
      | response code body =>
        rw [answered] at read received
        obtain rfl := Option.some.inj received
        exact fun again => retried ((readAnswer_response_error read).2.1.mpr again)

/-- A run over batches: the attempts of each, up to the first that fails, and what they come
to. -/
inductive Exchanged : List (List String) → List (List Exchange) →
    Except EmbedError (List EmbedVector) → Prop where
  | finished : Exchanged [] [] (.ok [])
  | served {batch : List String} {rest : List (List String)} {sent : List Exchange}
      {later : List (List Exchange)} {last : Answer} {embeddings : List EmbedVector}
      {outcome : Except EmbedError (List EmbedVector)}
      (attempts : Attempts ⟨settings.embedModel, batch⟩ sent last)
      (read : readAnswer format url settings batch last = .ok embeddings)
      (next : Exchanged rest later outcome) :
      Exchanged (batch :: rest) (sent :: later) (outcome.map (embeddings ++ ·))
  | failed {batch : List String} {rest : List (List String)} {sent : List Exchange} {last : Answer}
      {error : EmbedError} (attempts : Attempts ⟨settings.embedModel, batch⟩ sent last)
      (read : readAnswer format url settings batch last = .error error) :
      Exchanged (batch :: rest) [sent] (.error error)

/-- The loop over the batches is such a run. -/
theorem embedBatches_exchanged (batches : List (List String)) (embeddings : List EmbedVector)
    (log : List Exchange) :
    ∃ sent outcome, Exchanged format url settings batches sent outcome ∧
      embedBatches format url settings service batches embeddings log =
        (outcome.map (embeddings ++ ·), log ++ sent.flatten) := by
  induction batches generalizing embeddings log with
  | nil => exact ⟨[], .ok [], .finished, by simp [embedBatches, Except.map]⟩
  | cons batch rest inductionHypothesis =>
    obtain ⟨sent, last, attempts, ran⟩ :=
      embedRequestWithOne5xxRetry_attempts format url settings service batch log
    rw [embedBatches, ran]
    cases read : readAnswer format url settings batch last with
    | error error =>
      exact ⟨[sent], .error error, .failed attempts read, by simp [Except.map]⟩
    | ok vectors =>
      obtain ⟨later, outcome, next, loop⟩ :=
        inductionHypothesis (embeddings ++ vectors) (log ++ sent)
      refine ⟨sent :: later, _, .served attempts read next, ?_⟩
      dsimp only
      rw [loop, List.flatten_cons, List.append_assoc]
      cases outcome with
      | error error => rfl
      | ok others => simp [Except.map]

variable {format url settings service} {batches : List (List String)}
  {sent : List (List Exchange)} {outcome : Except EmbedError (List EmbedVector)}

/-- The attempts of a run are those of its first batches. -/
theorem Exchanged.attempts (run : Exchanged format url settings batches sent outcome) :
    ∃ tried, tried <+: batches ∧ List.Forall₂ (fun batch exchanges =>
      ∃ last, Attempts ⟨settings.embedModel, batch⟩ exchanges last) tried sent := by
  induction run with
  | finished => exact ⟨[], List.nil_prefix, .nil⟩
  | @served batch rest sent later last embeddings outcome attempts read next inductionHypothesis =>
    obtain ⟨tried, first, each⟩ := inductionHypothesis
    exact ⟨batch :: tried, List.cons_prefix_cons.mpr ⟨rfl, first⟩, .cons ⟨last, attempts⟩ each⟩
  | @failed batch rest sent last error attempts read =>
    exact ⟨[batch], List.cons_prefix_cons.mpr ⟨rfl, List.nil_prefix⟩,
      .cons ⟨last, attempts⟩ .nil⟩

/-- The last answer to a batch is among its exchanges. -/
theorem Attempts.exists_exchange {request : EmbedRequest} {exchanges : List Exchange}
    {last : Answer} (attempts : Attempts request exchanges last) :
    ⟨request, last⟩ ∈ exchanges := by
  cases attempts <;> simp

/-- An exchange of a batch was answered 5xx or is decisive. -/
theorem Attempts.answer_cases {request : EmbedRequest} {exchanges : List Exchange}
    {last : Answer} (attempts : Attempts request exchanges last) {exchange : Exchange}
    (member : exchange ∈ exchanges) :
    exchange.answer = last ∨
      ∃ statusCode, exchange.answer.status? = some statusCode ∧ IsServerError statusCode := by
  cases attempts with
  | once => exact Or.inl (by rw [List.mem_singleton.mp member])
  | twice received again =>
    rcases List.mem_cons.mp member with rfl | single
    · exact Or.inr ⟨_, received, again⟩
    · exact Or.inl (by rw [List.mem_singleton.mp single])

/-- A run that returns has served each batch with the vectors of one of its answers. -/
theorem Exchanged.served_each (run : Exchanged format url settings batches sent outcome)
    {embeddings : List EmbedVector} (returned : outcome = .ok embeddings) :
    (∀ embedding ∈ embeddings, Sound settings.embedDims embedding) ∧
      ∃ groups, groups.flatten = embeddings ∧
        List.Forall₂ (fun batch group => group.length = batch.length ∧
          ∃ exchange ∈ sent.flatten, exchange.request = ⟨settings.embedModel, batch⟩ ∧
            Answers exchange.answer group) batches groups := by
  induction run generalizing embeddings with
  | finished =>
    obtain rfl := Except.ok.inj returned
    exact ⟨by simp, [], rfl, .nil⟩
  | @served batch rest sent later last vectors outcome attempts read next inductionHypothesis =>
    obtain ⟨others, ended, rfl⟩ := except_map_eq_ok.mp returned
    obtain ⟨soundRest, groups, rfl, each⟩ := inductionHypothesis ended
    obtain ⟨answers, length, sound⟩ := readAnswer_ok read
    refine ⟨List.forall_mem_append.mpr ⟨sound, soundRest⟩, vectors :: groups, rfl,
      .cons ⟨length, ⟨_, last⟩, List.mem_append_left _ attempts.exists_exchange, rfl, answers⟩
        (each.imp ?_)⟩
    rintro other group ⟨length, exchange, among, rest⟩
    exact ⟨length, exchange, List.mem_append_right _ among, rest⟩
  | failed => cases returned

/-- Groups of the batches' lengths come to the batches' length. -/
theorem length_flatten_of_groups {groups : List (List EmbedVector)}
    (each : List.Forall₂ (fun batch group => group.length = batch.length) batches groups) :
    groups.flatten.length = batches.flatten.length := by
  induction each with
  | nil => rfl
  | cons here _ inductionHypothesis =>
    rw [List.flatten_cons, List.flatten_cons, List.length_append, List.length_append, here,
      inductionHypothesis]

/-- An exchange of a run was answered 5xx, served its batch, or ended the run. -/
theorem Exchanged.exchange_cases (run : Exchanged format url settings batches sent outcome)
    {exchange : Exchange} (member : exchange ∈ sent.flatten) :
    (∃ statusCode, exchange.answer.status? = some statusCode ∧ IsServerError statusCode) ∨
      (∃ batch embeddings, readAnswer format url settings batch exchange.answer = .ok embeddings) ∨
      ∃ batch error, readAnswer format url settings batch exchange.answer = .error error ∧
        outcome = .error error := by
  induction run with
  | finished => cases member
  | @served batch rest sent later last vectors outcome attempts read next inductionHypothesis =>
    rcases List.mem_append.mp member with here | there
    · rcases attempts.answer_cases here with rfl | again
      · exact Or.inr (Or.inl ⟨batch, vectors, read⟩)
      · exact Or.inl again
    · rcases inductionHypothesis there with again | served | ⟨other, error, fails, ended⟩
      · exact Or.inl again
      · exact Or.inr (Or.inl served)
      · exact Or.inr (Or.inr ⟨other, error, fails, by rw [ended]; rfl⟩)
  | @failed batch rest sent last error attempts read =>
    rw [List.flatten_singleton] at member
    rcases attempts.answer_cases member with rfl | again
    · exact Or.inr (Or.inr ⟨batch, error, read, rfl⟩)
    · exact Or.inl again

/-- A status that is neither a success nor a server error ends the run. -/
theorem Exchanged.decisive (run : Exchanged format url settings batches sent outcome)
    {exchange : Exchange} {statusCode : Int} (member : exchange ∈ sent.flatten)
    (received : exchange.answer.status? = some statusCode) (other : statusCode ≠ 200)
    (settled : ¬IsServerError statusCode) :
    ∃ batch error, readAnswer format url settings batch exchange.answer = .error error ∧
      outcome = .error error := by
  rcases run.exchange_cases member with ⟨code, same, again⟩ | ⟨batch, vectors, read⟩ | fails
  · rw [received] at same
    obtain rfl := Option.some.inj same
    exact absurd again settled
  · obtain ⟨⟨data, items, answered, _⟩, _⟩ := readAnswer_ok read
    rw [answered] at received
    exact absurd (Option.some.inj received).symm other
  · exact fails

/-- Two posts in a row lie behind a batch's, or its last answer is one of theirs. -/
theorem Attempts.two_cases {request : EmbedRequest} {exchanges later before after : List Exchange}
    {last : Answer} (attempts : Attempts request exchanges last) {first second : Exchange}
    (posts : exchanges ++ later = before ++ first :: second :: after) :
    (∃ between, later = between ++ first :: second :: after) ∨ last = first.answer ∨
      last = second.answer := by
  cases attempts with
  | once =>
    cases before with
    | nil => exact Or.inr (Or.inl (by rw [← (List.cons.inj posts).1]))
    | cons other between => exact Or.inl ⟨between, (List.cons.inj posts).2⟩
  | twice =>
    match before, posts with
    | [], posts =>
      exact Or.inr (Or.inr (by rw [← (List.cons.inj (List.cons.inj posts).2).1]))
    | [_], posts =>
      exact Or.inr (Or.inl (by rw [← (List.cons.inj (List.cons.inj posts).2).1]))
    | _ :: _ :: between, posts =>
      exact Or.inl ⟨between, (List.cons.inj (List.cons.inj posts).2).2⟩

/-- A second server error in a row ends the run. -/
theorem Exchanged.ends_of_two (run : Exchanged format url settings batches sent outcome)
    {before after : List Exchange} {first second : Exchange}
    (posts : sent.flatten = before ++ first :: second :: after)
    (fails : ∀ exchange ∈ [first, second], ∃ statusCode,
      exchange.answer.status? = some statusCode ∧ IsServerError statusCode) :
    ∃ batch answer statusCode error, answer.status? = some statusCode ∧ IsServerError statusCode ∧
      readAnswer format url settings batch answer = .error error ∧ outcome = .error error := by
  have failed {answer : Answer} (one : answer = first.answer ∨ answer = second.answer) :
      ∃ statusCode, answer.status? = some statusCode ∧ IsServerError statusCode := by
    rcases one with rfl | rfl
    · exact fails first (by simp)
    · exact fails second (by simp)
  induction run generalizing before with
  | finished => simp at posts
  | @served batch rest sent later last vectors outcome attempts read next inductionHypothesis =>
    rcases attempts.two_cases posts with ⟨between, behind⟩ | last_fails
    · obtain ⟨other, answer, statusCode, error, received, again, refused, ended⟩ :=
        inductionHypothesis behind
      exact ⟨other, answer, statusCode, error, received, again, refused, by rw [ended]; rfl⟩
    · obtain ⟨statusCode, received, again⟩ := failed last_fails
      obtain ⟨⟨data, items, answered, _⟩, _⟩ := readAnswer_ok read
      rw [answered] at received
      obtain rfl := Option.some.inj received
      exact absurd again (by decide)
  | @failed batch rest sent last error attempts read =>
    rw [List.flatten_singleton, ← List.append_nil sent] at posts
    rcases attempts.two_cases posts with ⟨between, behind⟩ | last_fails
    · simp at behind
    · obtain ⟨statusCode, received, again⟩ := failed last_fails
      exact ⟨batch, last, statusCode, error, received, again, read, rfl⟩

end

/-! ### The contract -/

section

variable {format : PyValue → String} {url : String} {settings : EmbedSettings}
  {texts : List String} {error : EmbedError}

theorem embedHandler_isOwn (error : EmbedError) : (embedHandler url settings error).IsOwn := by
  cases error with
  | transport fault => cases fault <;> trivial
  | _ => trivial

theorem embedHandler_of_isOwn (own : error.IsOwn) : embedHandler url settings error = error := by
  cases error with
  | transport => exact own.elim
  | _ => rfl

/-- What an answer with a status is refused by reaches the caller, as the status says. -/
theorem handled_of_status {answer : Answer} {statusCode : Int}
    (received : answer.status? = some statusCode)
    (fails : readAnswer format url settings texts answer = .error error) :
    (isDeterministicClientError statusCode = true → (embedHandler url settings error).IsRequest) ∧
      (statusCode ≠ 200 → isDeterministicClientError statusCode = false →
        (embedHandler url settings error).IsService) := by
  cases answer with
  | raised fault => cases received
  | response code body =>
    obtain rfl := Option.some.inj received
    obtain ⟨own, _, sorts⟩ := readAnswer_response_error fails
    rwa [embedHandler_of_isOwn own]

end

/-- The contract of `embed` for its texts: what it returned or raised, and the exchanges it made. -/
structure Contract (settings : EmbedSettings) (texts : List String)
    (outcome : Except EmbedError (List EmbedVector)) (log : List Exchange) : Prop where
  /-- One sound vector for each text, batch for batch as an answer to the batch lists them. -/
  vectors : ∀ embeddings, outcome = .ok embeddings →
    embeddings.length = texts.length ∧ (∀ embedding ∈ embeddings, Sound settings.embedDims embedding) ∧
      ∃ groups, groups.flatten = embeddings ∧
        List.Forall₂ (fun batch group => group.length = batch.length ∧ ∃ exchange ∈ log,
          exchange.request = ⟨settings.embedModel, batch⟩ ∧ Answers exchange.answer group)
          (packBatches texts settings.embedMaxBatchTokens) groups
  /-- Nothing but the client's own errors. -/
  errors : ∀ error, outcome = .error error → error.IsOwn
  /-- Each batch is posted once, or twice behind a server error. -/
  attempts : ∃ tried sent, tried <+: packBatches texts settings.embedMaxBatchTokens ∧
    sent.flatten = log ∧ List.Forall₂ (fun batch exchanges =>
      ∃ last, Attempts ⟨settings.embedModel, batch⟩ exchanges last) tried sent
  /-- A status that will not change is a request error. -/
  refused : ∀ exchange ∈ log, ∀ statusCode, exchange.answer.status? = some statusCode →
    400 ≤ statusCode → statusCode < 500 → statusCode ≠ 408 → statusCode ≠ 429 →
      ∃ error, outcome = .error error ∧ error.IsRequest
  /-- A time-out or a full queue at the service is a service error. -/
  busy : ∀ exchange ∈ log, ∀ statusCode, exchange.answer.status? = some statusCode →
    statusCode = 408 ∨ statusCode = 429 → ∃ error, outcome = .error error ∧ error.IsService
  /-- A second server error in a row is a service error. -/
  unavailable : ∀ before first second after, log = before ++ first :: second :: after →
    (∀ exchange ∈ [first, second], ∃ statusCode,
      exchange.answer.status? = some statusCode ∧ IsServerError statusCode) →
    ∃ error, outcome = .error error ∧ error.IsService

/-- A call is the run over the batches, with the handler around it. -/
theorem embed_exchanged (format : PyValue → String) (settings : EmbedSettings)
    (service : EmbedService) (texts : List String) :
    ∃ sent outcome, Exchanged format (normalizeEmbedUrl settings.embedUrl) settings
        (packBatches texts settings.embedMaxBatchTokens) sent outcome ∧
      embed format settings service texts =
        (outcome.mapError (embedHandler (normalizeEmbedUrl settings.embedUrl) settings),
          sent.flatten) := by
  obtain ⟨sent, outcome, run, ran⟩ :=
    embedBatches_exchanged format (normalizeEmbedUrl settings.embedUrl) settings service
      (packBatches texts settings.embedMaxBatchTokens) [] []
  refine ⟨sent, outcome, run, ?_⟩
  rw [embed]
  split
  · rename_i empty
    obtain rfl := List.isEmpty_iff.mp empty
    have none_packed : packBatches [] settings.embedMaxBatchTokens = [] := rfl
    rw [none_packed] at run
    cases run
    rfl
  · dsimp only
    rw [ran]
    cases outcome <;> rfl

/-- Whatever the service answers, the client keeps its contract. -/
theorem embed_contract (format : PyValue → String) (settings : EmbedSettings)
    (service : EmbedService) (texts : List String) :
    Contract settings texts (embed format settings service texts).1
      (embed format settings service texts).2 := by
  obtain ⟨sent, outcome, run, ended⟩ := embed_exchanged format settings service texts
  have packed := packed_packBatches settings.embedMaxBatchTokens_pos texts
  have raises {error : EmbedError} (failed : outcome = .error error) :
      outcome.mapError (embedHandler (normalizeEmbedUrl settings.embedUrl) settings) =
        .error (embedHandler (normalizeEmbedUrl settings.embedUrl) settings error) := by
    rw [failed]
    rfl
  rw [ended]
  constructor
  case vectors =>
    intro embeddings returned
    obtain ⟨sound, groups, rfl, each⟩ := run.served_each (except_mapError_eq_ok.mp returned)
    refine ⟨?_, sound, groups, rfl, each⟩
    rw [length_flatten_of_groups (each.imp fun _ _ served => served.1), packed.whole,
      List.length_map]
  case errors =>
    intro error raised
    cases outcome with
    | ok embeddings => cases raised
    | error fault =>
      obtain rfl := Except.error.inj raised
      exact embedHandler_isOwn fault
  case attempts =>
    obtain ⟨tried, first, each⟩ := run.attempts
    exact ⟨tried, sent, first, rfl, each⟩
  case refused =>
    intro exchange member statusCode received low high notTimeout notBusy
    have client : isDeterministicClientError statusCode = true := by
      simp [isDeterministicClientError, low, high, notTimeout, notBusy]
    obtain ⟨batch, error, fails, failed⟩ := run.decisive member received (by omega)
      (fun again => absurd again.1 (by omega))
    exact ⟨_, raises failed, (handled_of_status received fails).1 client⟩
  case busy =>
    intro exchange member statusCode received busy
    obtain ⟨batch, error, fails, failed⟩ := run.decisive member received (by omega)
      (fun again => absurd again.1 (by omega))
    refine ⟨_, raises failed, (handled_of_status received fails).2 (by omega) ?_⟩
    rcases busy with rfl | rfl <;> rfl
  case unavailable =>
    intro before first second after posts fails
    obtain ⟨batch, answer, statusCode, error, received, again, refused, failed⟩ :=
      run.ends_of_two posts fails
    have bounds : 500 ≤ statusCode := again.1
    refine ⟨_, raises failed, (handled_of_status received refused).2 (by omega) ?_⟩
    simp [isDeterministicClientError]
    omega

/-! ### What the relay makes of it -/

/-- An episode whose embedding was refused for good is parked, and one whose embedding may yet
succeed is redelivered. -/
theorem ingestError_toPyError (relay : RelayService) {error : EmbedError} :
    (error.IsRequest → (relay.ingestError error.toPyError).isPoison = true) ∧
      (error.IsService → (relay.ingestError error.toPyError).isTransient = true) := by
  constructor
  · intro request
    cases error with
    | request message url statusCode errorType => cases errorType <;> rfl
    | _ => exact request.elim
  · intro service
    cases error with
    | service message url statusCode => rfl
    | _ => exact service.elim

end Embedding

end FleetMemory
