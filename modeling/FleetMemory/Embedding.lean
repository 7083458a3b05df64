/-
This file models the embedding client: texts are packed into batches within a token budget,
each batch is posted to the service, and what comes back is checked and sorted into the four
errors the client raises. The service is not part of the repository. It is a parameter that may
answer each request as it likes, whatever was exchanged before.
-/

import FleetMemory.Errors
import FleetMemory.Packing

namespace FleetMemory

/-! ### Packing -/

namespace Embedding

/-- `_CHARS_PER_TOKEN`. -/
def charsPerToken : Nat := 4

/-- `_estimate_tokens`. -/
def estimateTokens (text : String) : Nat :=
  max 1 ((text.length + (charsPerToken - 1)) / charsPerToken)

/-- `text[:max_batch_tokens * _CHARS_PER_TOKEN]`. -/
def truncated (maxBatchTokens : Nat) (text : String) : String :=
  String.ofList (text.toList.take (maxBatchTokens * charsPerToken))

/-- An input as it is sent: one over the budget is cut. -/
def fitted (maxBatchTokens : Nat) (text : String) : String :=
  if maxBatchTokens < estimateTokens text then truncated maxBatchTokens text else text

/-- The loop of `_pack_batches`, from the batches and the current batch with its tokens. -/
def packFrom (maxBatchTokens : Nat) :
    List String → List (List String) → List String → Nat → List (List String)
  | [], batches, current, _ => if current.isEmpty then batches else batches ++ [current]
  | text :: rest, batches, current, currentTokens =>
    let text := fitted maxBatchTokens text
    let estimate := estimateTokens text
    if !current.isEmpty && maxBatchTokens < currentTokens + estimate then
      packFrom maxBatchTokens rest (batches ++ [current]) [text] estimate
    else packFrom maxBatchTokens rest batches (current ++ [text]) (currentTokens + estimate)

/-- `_pack_batches`. -/
def packBatches (texts : List String) (maxBatchTokens : Nat) : List (List String) :=
  packFrom maxBatchTokens texts [] [] 0

section

variable {maxBatchTokens : Nat}

theorem length_truncated (text : String) :
    (truncated maxBatchTokens text).length = min (maxBatchTokens * charsPerToken) text.length := by
  rw [truncated, ← String.length_toList, String.toList_ofList, List.length_take,
    String.length_toList]

/-- A text within the budget has no more characters than the budget has. -/
theorem estimateTokens_le_iff (positive : 1 ≤ maxBatchTokens) (text : String) :
    estimateTokens text ≤ maxBatchTokens ↔ text.length ≤ maxBatchTokens * charsPerToken := by
  rw [estimateTokens, charsPerToken]
  omega

/-- An input is cut to its first characters, those that fit. -/
theorem fitted_eq_truncated (positive : 1 ≤ maxBatchTokens) (text : String) :
    fitted maxBatchTokens text = truncated maxBatchTokens text := by
  unfold fitted
  split
  · rfl
  · rename_i within
    have short := (estimateTokens_le_iff positive text).mp (not_lt.mp within)
    rw [truncated, List.take_of_length_le (by rwa [String.length_toList]), String.ofList_toList]

theorem estimateTokens_fitted_le (positive : 1 ≤ maxBatchTokens) (text : String) :
    estimateTokens (fitted maxBatchTokens text) ≤ maxBatchTokens := by
  rw [fitted_eq_truncated positive, estimateTokens_le_iff positive, length_truncated]
  exact min_le_left _ _

/-- The loop packs the texts it is given behind those it has taken. -/
theorem packed_packFrom (positive : 1 ≤ maxBatchTokens) {taken current : List String}
    {batches : List (List String)}
    (filling : Packing.Filling estimateTokens maxBatchTokens taken batches current)
    (texts : List String) :
    Packing.Packed estimateTokens maxBatchTokens (taken ++ texts.map (truncated maxBatchTokens))
      (packFrom maxBatchTokens texts batches current (Packing.load estimateTokens current)) := by
  induction texts generalizing taken batches current with
  | nil =>
    rw [List.map_nil, List.append_nil, packFrom]
    simpa [Packing.close, List.isEmpty_iff] using filling.packed
  | cons text rest inductionHypothesis =>
    have small := estimateTokens_fitted_le positive text
    rw [List.map_cons, ← fitted_eq_truncated positive, List.append_cons, packFrom]
    by_cases overflows : (!current.isEmpty && decide (maxBatchTokens <
        Packing.load estimateTokens current + estimateTokens (fitted maxBatchTokens text))) = true
    · rw [if_pos overflows]
      simp only [Bool.and_eq_true, Bool.not_eq_true', List.isEmpty_eq_false_iff,
        decide_eq_true_eq] at overflows
      exact inductionHypothesis (filling.flush overflows.1 overflows.2 small)
    · rw [if_neg overflows, ← Packing.load_concat]
      refine inductionHypothesis (filling.add ?_)
      by_cases empty : current = []
      · rw [empty]
        simpa [Packing.load] using small
      · simpa [empty] using overflows

end

/-- The truncated inputs are packed. -/
theorem packed_packBatches {maxBatchTokens : Nat} (positive : 1 ≤ maxBatchTokens)
    (texts : List String) :
    Packing.Packed estimateTokens maxBatchTokens (texts.map (truncated maxBatchTokens))
      (packBatches texts maxBatchTokens) :=
  packed_packFrom positive Packing.filling_nil texts

/-- The batches hold the inputs in order, each cut to its first characters. No batch is empty or
over the budget, and none had room for the first text of the one behind it. -/
theorem packBatches_packed (texts : List String) (maxBatchTokens : Nat)
    (positive : 1 ≤ maxBatchTokens) :
    Packing.Packed estimateTokens maxBatchTokens
      (texts.map fun text => String.ofList (text.toList.take (4 * maxBatchTokens)))
      (packBatches texts maxBatchTokens) := by
  have packed := packed_packBatches positive texts
  have cut : truncated maxBatchTokens =
      fun text => String.ofList (text.toList.take (4 * maxBatchTokens)) := by
    funext text
    rw [truncated, charsPerToken, Nat.mul_comm]
  rwa [cut] at packed

/-- A text of nine characters is cut to a budget of two tokens, and fills its batch. -/
theorem packBatches_packed_two :
    packBatches ["abcd", "ef", "abcdefghi"] 2 = [["abcd", "ef"], ["abcdefgh"]] ∧
      Packing.Packed estimateTokens 2 ["abcd", "ef", "abcdefgh"] [["abcd", "ef"], ["abcdefgh"]] :=
  ⟨by decide, packBatches_packed ["abcd", "ef", "abcdefghi"] 2 (by decide)⟩

/-! ### Settings and errors -/

/-- The embedding settings. -/
structure EmbedSettings where
  embedUrl : String
  embedModel : String
  embedDims : Int
  embedTimeoutS : PyFloat
  embedMaxBatchTokens : Nat
  embedMaxBatchTokens_pos : 1 ≤ embedMaxBatchTokens

/-- What the HTTP client raises: `httpx.ReadTimeout`, `httpx.ConnectTimeout`, or another exception,
as `type(e).__name__` and `str(e)`. -/
inductive TransportError where
  | readTimeout
  | connectTimeout
  | other (className text : String)

/-- What the code raises: its own four errors, each with what its constructor is given, or an
exception of the HTTP client. -/
inductive EmbedError where
  | dimension (actual expected : Int)
  | timeout (url : String) (timeoutS : PyFloat)
  | service (message : String) (url : Option String) (statusCode : Option Int)
  | request (message : String) (url : Option String) (statusCode : Option Int)
      (errorType : Option String)
  | transport (error : TransportError)

namespace EmbedError

/-- `text` if it is a string that is not empty. -/
def nonempty (text : Option String) : Option String :=
  text.filter fun text => !text.isEmpty

/-- The text of an `EmbedServiceError`. -/
def serviceText (message : String) (url : Option String) (statusCode : Option Int) : String :=
  "Embedding service error: " ++ message ++
    (match statusCode with
      | some code => " (HTTP " ++ toString code ++ ")"
      | none => "") ++
    match url with
      | some url => " - " ++ url
      | none => ""

/-- `str(error)`. -/
def text : EmbedError → String
  | dimension actual expected => "Embedding dimension mismatch: got " ++ toString actual ++
      " dimensions, expected " ++ toString expected
  | timeout url timeoutS =>
    "Embedding service request timed out after " ++ timeoutS.repr ++ "s: " ++ url
  | service message url statusCode => serviceText message url statusCode
  | request message url statusCode errorType =>
    match nonempty errorType with
    | some errorType => serviceText (message ++ " [" ++ errorType ++ "]") url statusCode
    | none => serviceText message url statusCode
  | transport .readTimeout => ""
  | transport .connectTimeout => ""
  | transport (.other _ text) => text

/-- The error as the store raises it to the writer that put a value to embed. -/
def toPyError (error : EmbedError) : PyError :=
  match error with
  | dimension actual expected => .embedDimension actual expected
  | timeout _ _ => .embedTimeout error.text
  | service _ _ _ => .embedService error.text
  | request _ _ statusCode errorType => .embedRequest error.text statusCode errorType
  | transport _ => .other error.text

/-- One of the errors the client documents. -/
def IsOwn : EmbedError → Prop
  | transport _ => False
  | _ => True

/-- An `EmbedServiceError` that is no `EmbedRequestError`. -/
def IsService : EmbedError → Prop
  | service _ _ _ => True
  | _ => False

/-- An `EmbedRequestError`. -/
def IsRequest : EmbedError → Prop
  | request _ _ _ _ => True
  | _ => False

/-- `error.status_code` of an `EmbedServiceError`. -/
def serviceStatus : EmbedError → Option Int
  | service _ _ statusCode => statusCode
  | request _ _ statusCode _ => statusCode
  | _ => none

end EmbedError

/-! ### One request -/

/-- The body of a request. -/
structure EmbedRequest where
  model : String
  input : List String

/-- What a post comes to: a status with the body as `response.json()` reads it, or as the text of
what that raises, or what the HTTP client raises. -/
inductive Answer where
  | response (statusCode : Int) (body : Except String PyValue)
  | raised (error : TransportError)

/-- A post and its answer. -/
structure Exchange where
  request : EmbedRequest
  answer : Answer

/-- The service, behind the HTTP client: how it answers the next request after an exchange. -/
abbrev EmbedService := List Exchange → EmbedRequest → Answer

/-- A vector of an answer, its numbers as they were read. -/
abbrev EmbedVector := List PyValue

/-- `_is_deterministic_client_error`. -/
def isDeterministicClientError (statusCode : Int) : Bool :=
  400 ≤ statusCode && statusCode < 500 && !(statusCode == 408 || statusCode == 429)

/-- `_normalize_embed_url`. -/
def normalizeEmbedUrl (baseUrl : String) : String :=
  let baseUrl := (baseUrl.toList.reverse.dropWhile (· == '/')).reverse
  if "/v1".toList.isSuffixOf baseUrl then String.ofList baseUrl ++ "/embeddings"
  else if "/v1/embeddings".toList.isSuffixOf baseUrl then String.ofList baseUrl
  else String.ofList baseUrl ++ "/v1/embeddings"

/-- `math.isfinite(value)` of a number that is no bool. An integer that rounds beyond the floats
raises `OverflowError`, which the caller takes for not finite. -/
def isFiniteNumber : PyValue → Bool
  | .int value => value.natAbs < 2 ^ 1024 - 2 ^ 970
  | .float value => value.repr != "nan" && value.repr != "inf" && value.repr != "-inf"
  | _ => false

section

variable (format : PyValue → String)

/-- `str(value)`, if it is not `None`. -/
def textOf (value : PyValue) : Option String :=
  match value with
  | .none => none
  | value => some (format value)

/-- `_parse_embed_error`: the error type and the error message. -/
def parseEmbedError (body : Except String PyValue) : Option String × Option String :=
  match body with
  | .ok (.dict body) =>
    match (PyDict.get body "error").getD .none with
    | .dict err =>
      let message := (PyDict.get err "message").getD .none
      (textOf format ((PyDict.get err "type").getD .none),
        textOf format (if message.truthy then message else (PyDict.get err "code").getD .none))
    | .str err => (none, some err)
    | _ => (none, none)
  | _ => (none, none)

variable (url : String)

/-- The error of a status other than 200. -/
def statusError (statusCode : Int) (body : Except String PyValue) : EmbedError :=
  let (errorType, errorMessage) := parseEmbedError format body
  let message := EmbedError.nonempty errorMessage
  if isDeterministicClientError statusCode then
    .request (message.getD "embedding service rejected the request") (some url) (some statusCode)
      errorType
  else .service (message.getD "HTTP error from embedding service") (some url) (some statusCode)

/-- An `EmbedServiceError` without a status. -/
def malformed (message : String) : EmbedError :=
  .service message (some url) none

/-- The vector of a response item. -/
def itemVector (item : PyValue) (itemIndex : Nat) : Except EmbedError EmbedVector :=
  match item with
  | .dict entries =>
    match (PyDict.get entries "embedding").getD .none with
    | .list embedding =>
      match embedding.findIdx? fun value => !isFiniteNumber value with
      | some valueIndex => .error (malformed url ("Embedding response item " ++ toString itemIndex ++
          " vector value " ++ toString valueIndex ++ " must be a finite number"))
      | none => .ok embedding
    | _ => .error (malformed url ("Embedding response item " ++ toString itemIndex ++
        " has no vector list"))
  | _ => .error (malformed url ("Embedding response item " ++ toString itemIndex ++
      " must be an object"))

/-- The loop over the response items. -/
def itemVectors : List PyValue → Nat → Except EmbedError (List EmbedVector)
  | [], _ => .ok []
  | item :: rest, itemIndex => do
    let embedding ← itemVector url item itemIndex
    let embeddings ← itemVectors rest (itemIndex + 1)
    return embedding :: embeddings

variable (settings : EmbedSettings)

/-- The check of the dimensions. -/
def checkDimensions (embeddings : List EmbedVector) : Except EmbedError (List EmbedVector) :=
  match embeddings.find? fun embedding => (embedding.length : Int) != settings.embedDims with
  | some embedding => .error (.dimension embedding.length settings.embedDims)
  | none => .ok embeddings

/-- The vectors of a body that was answered with status 200. -/
def bodyVectors (texts : List String) (body : Except String PyValue) :
    Except EmbedError (List EmbedVector) :=
  match body with
  | .error text => .error (malformed url ("Malformed JSON response: " ++ text))
  | .ok (.dict data) =>
    match (PyDict.get data "data").getD .none with
    | .list responseItems =>
      if responseItems.length ≠ texts.length then
        .error (malformed url "Embedding response cardinality does not match input count")
      else do
        let embeddings ← itemVectors url responseItems 0
        checkDimensions settings embeddings
    | _ => .error (malformed url "Embedding response 'data' must be a list")
  | .ok _ => .error (malformed url "Embedding response must be a JSON object")

/-- What `_embed_request` makes of the answer to its post. -/
def readAnswer (texts : List String) : Answer → Except EmbedError (List EmbedVector)
  | .raised error => .error (.transport error)
  | .response statusCode body =>
    if statusCode ≠ 200 then .error (statusError format url statusCode body)
    else bodyVectors url settings texts body

variable (service : EmbedService)

/-- `_embed_request`, with the exchanges before it and behind it. -/
def embedRequest (texts : List String) (log : List Exchange) :
    Except EmbedError (List EmbedVector) × List Exchange :=
  let request : EmbedRequest := ⟨settings.embedModel, texts⟩
  let answer := service log request
  (readAnswer format url settings texts answer, log ++ [⟨request, answer⟩])

/-- The error is an `EmbedServiceError` of a status 5xx. -/
def isRetried (error : EmbedError) : Bool :=
  match error.serviceStatus with
  | some status => 500 ≤ status && status < 600
  | none => false

/-- `_embed_request_with_one_5xx_retry`. -/
def embedRequestWithOne5xxRetry (texts : List String) (log : List Exchange) :
    Except EmbedError (List EmbedVector) × List Exchange :=
  match embedRequest format url settings service texts log with
  | (.ok embeddings, log) => (.ok embeddings, log)
  | (.error error, log) =>
    if isRetried error then embedRequest format url settings service texts log
    else (.error error, log)

/-! ### All batches -/

/-- The loop over the batches, from the embeddings gathered so far. -/
def embedBatches :
    List (List String) → List EmbedVector → List Exchange →
      Except EmbedError (List EmbedVector) × List Exchange
  | [], embeddings, log => (.ok embeddings, log)
  | batch :: rest, embeddings, log =>
    match embedRequestWithOne5xxRetry format url settings service batch log with
    | (.ok vectors, log) => embedBatches rest (embeddings ++ vectors) log
    | (.error error, log) => (.error error, log)

/-- The `except` clauses of `embed`. -/
def embedHandler : EmbedError → EmbedError
  | .transport .readTimeout => .timeout url settings.embedTimeoutS
  | .transport .connectTimeout => .timeout url settings.embedTimeoutS
  | .transport (.other className text) =>
    .service ("Unexpected error: " ++ className ++ ": " ++ text) (some url) none
  | error => error

/-- `embed`, with the exchanges it made. -/
def embed (texts : List String) : Except EmbedError (List EmbedVector) × List Exchange :=
  if texts.isEmpty then (.ok [], [])
  else
    let url := normalizeEmbedUrl settings.embedUrl
    let batches := packBatches texts settings.embedMaxBatchTokens
    let (embeddings, log) := embedBatches format url settings service batches [] []
    (embeddings.mapError (embedHandler url settings), log)

end

end Embedding

end FleetMemory
