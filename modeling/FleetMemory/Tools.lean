/-
This file models the tool layer the memory service offers its clients: the wrapper that
turns what a tool raises into a structured result, and the tool that declares a
supersession.
-/

import FleetMemory.Supersession

namespace FleetMemory

open StoreProgram

/-! ### Structured results -/

/-- `ToolResult`. -/
structure ToolResult (Value : Type) where
  isError : Bool
  errorType : Option String := none
  message : String := ""
  value : Option Value := none

variable (runtime : Runtime)

/-- `_sanitize_message`. -/
def sanitizeMessage (message : String) : String :=
  let message := runtime.sub "postgresql://[^\\s]+" "[DATABASE_DSN_REDACTED]" message
  let message := runtime.sub "https?://[^\\s]+" "[URL_REDACTED]" message
  let message := runtime.sub "\\b[\\w.-]+:\\d\x7b2,5\x7d\\b" "[HOST_PORT_REDACTED]" message
  runtime.sub "/([\\w.-]+/)*[\\w.-]+\\.(key|pem|crt|token)" "[FILE_PATH_REDACTED]" message

/-- `_map_exception_to_result`. -/
def mapExceptionToResult {Value : Type} (error : PyError) : ToolResult Value :=
  let infrastructure (message : String) : ToolResult Value :=
    { isError := true, errorType := some "infrastructure", message }
  match error with
  | .embedTimeout _ => infrastructure "The operation is temporarily unavailable"
  | error =>
    if error.isTimeoutError then infrastructure "The memory store is unavailable"
    else if error.isEmbedServiceError then
      infrastructure "The operation is temporarily unavailable"
    else if error.isValueError then
      { isError := true, errorType := some "client",
        message := sanitizeMessage runtime (error.text runtime) }
    else infrastructure ("An unexpected error occurred: " ++
      sanitizeMessage runtime (error.text runtime))

/-- `tool_safe`. -/
def toolSafe {Value : Type} (tool : StoreM Value) : StoreM (ToolResult Value) :=
  Program.tryCatch (do return { isError := false, value := some (← tool) })
    fun error => return mapExceptionToResult runtime error

theorem mapExceptionToResult_isError {Value : Type} (error : PyError) :
    (mapExceptionToResult runtime error : ToolResult Value).isError = true := by
  unfold mapExceptionToResult
  dsimp only
  split
  · rfl
  · repeat' split
    all_goals rfl

/-- A tool that returns is answered with its value, and one that raises with an error result. -/
def toolAnswer {Value : Type} (runtime : Runtime) (outcome : Outcome PyError Value) :
    Outcome PyError (ToolResult Value) :=
  (outcome >>= fun value => .returned { isError := false, value := some value }).recover
    fun error => .returned (mapExceptionToResult runtime error)

theorem runFaulty_toolSafe {Value : Type} (runtime : Runtime) {engine : SearchEngine}
    {faults : List (Option PyError)} {store : Store} (tool : StoreM Value) :
    (toolSafe runtime tool).runFaulty (storeWorld engine) faults store =
      (toolAnswer runtime (tool.runFaulty (storeWorld engine) faults store).1,
        (tool.runFaulty (storeWorld engine) faults store).2) := by
  change (Program.tryCatch (tool >>= fun value => Program.done
      (.returned { isError := false, value := some value }))
    fun error => Program.done (.returned (mapExceptionToResult runtime error))).runFaulty _ _ _ = _
  rw [Program.runFaulty_tryCatch_done, Program.runFaulty_bind_done]
  rfl

/-! ### Declaring a supersession -/

/-- `_validate_natural_key`. -/
def validateNaturalKey (key : String) : Bool :=
  (Text.split ':' key).length == 3 && (Text.split ':' key).all fun segment => !segment.isEmpty

/-- Every predecessor's key is validated, in order. -/
def validatePredecessors : List String → Except PyError Unit
  | [] => .ok ()
  | key :: rest => do
    raiseIf (validateNaturalKey key = false) (.valueError ("Predecessor '" ++ key ++
      "' is not a valid memory key: expected format type:project:identifier"))
    validatePredecessors rest

/-- The checks `memory_supersede` makes before it touches the store. -/
def validateSupersession (successorKey : String) (predecessorKeys : List String) :
    Except PyError Unit := do
  raiseIf (predecessorKeys = []) (.valueError "At least one predecessor is required")
  raiseIf (validateNaturalKey successorKey = false) (.valueError ("Successor '" ++ successorKey ++
    "' is not a valid memory key: expected format type:project:identifier"))
  validatePredecessors predecessorKeys
  raiseIf (successorKey ∈ predecessorKeys) (.valueError "A memory cannot supersede itself")

/-- `memory_supersede`, without its `tool_safe` wrapper. -/
def supersede (successorKey : String) (predecessorKeys : List String) : StoreM String := do
  lift (validateSupersession successorKey predecessorKeys)
  applySupersessions runtime successorKey predecessorKeys
  let plural := if predecessorKeys.length = 1 then "predecessor" else "predecessors"
  return "Marked " ++ toString predecessorKeys.length ++ " " ++ plural ++ " as superseded by " ++
    successorKey

/-- `memory_supersede`. -/
def memorySupersede (successorKey : String) (predecessorKeys : List String) :
    StoreM (ToolResult String) :=
  toolSafe runtime (supersede runtime successorKey predecessorKeys)

variable {runtime}

theorem validatePredecessors_eq_ok {keys : List String} (valid : validatePredecessors keys = .ok ()) :
    ∀ key ∈ keys, validateNaturalKey key = true := by
  induction keys with
  | nil => simp
  | cons first rest inductionHypothesis =>
    obtain ⟨_, checked, following⟩ := except_bind_eq_ok.mp valid
    intro key member
    rcases List.mem_cons.mp member with rfl | later
    · simpa using raiseIf_eq_ok.mp checked
    · exact inductionHypothesis following key later

/-- Supersessions that pass the checks name natural keys of three segments. -/
theorem shaped_of_validateSupersession {successorKey : String} {predecessorKeys : List String}
    (valid : validateSupersession successorKey predecessorKeys = .ok ()) :
    ∀ key ∈ predecessorKeys, (Text.split ':' key).length = 3 := by
  obtain ⟨_, _, valid⟩ := except_bind_eq_ok.mp valid
  obtain ⟨_, _, valid⟩ := except_bind_eq_ok.mp valid
  obtain ⟨_, predecessors, _⟩ := except_bind_eq_ok.mp valid
  intro key member
  have checked := validatePredecessors_eq_ok predecessors key member
  simp only [validateNaturalKey, Bool.and_eq_true, beq_iff_eq] at checked
  exact checked.1

/-- A declaration reports success exactly when it passes the checks, and marks the stored
predecessors then; otherwise it leaves the store alone. -/
theorem run_memorySupersede (engine : SearchEngine) (successorKey : String)
    (predecessorKeys : List String) (store : Store) :
    ∃ result, (memorySupersede runtime successorKey predecessorKeys).run (storeWorld engine) store =
        (.returned result, if result.isError then store
          else markAll runtime successorKey predecessorKeys store) ∧
      (result.isError = false ↔ validateSupersession successorKey predecessorKeys = .ok ()) := by
  rw [memorySupersede, toolSafe, Program.run_tryCatch, supersede, Program.run_bind]
  cases valid : validateSupersession successorKey predecessorKeys with
  | ok done =>
    rw [lift_ok_bind, Program.run_bind,
      run_applySupersessions _ _ (shaped_of_validateSupersession valid)]
    exact ⟨_, rfl, by simp⟩
  | error error =>
    rw [lift_error_bind, run_lift_error]
    refine ⟨mapExceptionToResult runtime error, ?_, ?_⟩
    · rw [mapExceptionToResult_isError]
      rfl
    · rw [mapExceptionToResult_isError]
      simp

end FleetMemory
