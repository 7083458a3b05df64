/-
This file models the tool that writes a typed payload, with the checks a sandbox's door
adds to it, and the requests a door serves. A write through a door is refused without a
store call, or writes a build outcome that supersedes nothing on one of the door's own
projects.
-/

import FleetMemory.SearchTools
import FleetMemory.Writer

namespace FleetMemory

open StoreProgram DeterministicWriter

/-- `SANDBOX_REFUSAL`. -/
def sandboxRefusal : String :=
  "the sandbox's memory door accepts only build outcomes that replace nothing, " ++
    "and never on the factory's own shelves (" ++ String.intercalate ", " reservedProjects ++ ")"

/-- A `ValidationError` is reported by its first entry. -/
def readableError : PyError → PyError
  | .validation _ (first :: _) => .valueError ("Field '" ++ first.loc ++ "' " ++ first.msg)
  | .validation _ [] => .valueError "Payload validation failed"
  | error => error

/-- The payload `memory_write_payload` builds from the dict it is given. -/
def payloadToWrite (runtime : Runtime) (payloadDict : PyDict) : Except PyError Payload :=
  match payloadDict.get "payload_type" with
  | none => .error (.valueError
      "payload_type is required: every write must specify a registered payload type")
  | some payloadType => do
    let modelClass ← getModelForType payloadType
    (modelClass.init runtime payloadDict).mapError readableError

/-- The narrow door's check of the validated record. -/
def checkSandbox (payload : Payload) : Except PyError Unit :=
  raiseIf (payload.payloadType ≠ "build_outcome" ∨ payload.supersedes ≠ [] ∨
    payload.project.toLower ∈ reservedProjects) (.valueError sandboxRefusal)

/-- What `memory_write_payload` does before it calls the writer. -/
def checkedPayload (runtime : Runtime) (payloadDict : PyDict) (sandbox : Bool)
    (allowedProjects : Option (List String)) : Except PyError Payload := do
  let payload ← payloadToWrite runtime payloadDict
  if sandbox then checkSandbox payload
  checkDoorProject payload.project allowedProjects
  return payload

/-- `memory_write_payload`. -/
def memoryWritePayload (writer : DeterministicWriter) (payloadDict : PyDict) (sandbox : Bool)
    (allowedProjects : Option (List String)) : StoreM (ToolResult String) :=
  toolSafe writer.runtime do
    let payload ← lift (checkedPayload writer.runtime payloadDict sandbox allowedProjects)
    writer.write payload none
    return payload.naturalKey

/-! ### Doors -/

/-- A request made through a door. -/
inductive DoorRequest where
  | search (arguments : SearchArguments)
  | searchItems (arguments : SearchArguments) (requireSubstantive : Bool)
  | write (payloadDict : PyDict)

/-- What a door answers. -/
inductive DoorAnswer where
  | block (result : ToolResult AssemblyResult)
  | items (result : ToolResult (List SearchedItem))
  | written (result : ToolResult String)

namespace SandboxDoor

variable (door : SandboxDoor) (writer : DeterministicWriter)

/-- The door serves a request by its tool, for the door's projects only. -/
def answer : DoorRequest → StoreM DoorAnswer
  | .search arguments => do
    return .block (← memorySearch writer.runtime arguments (some door.projects))
  | .searchItems arguments requireSubstantive => do
    return .items (← memorySearchItems writer.runtime arguments requireSubstantive
      (some door.projects))
  | .write payloadDict => do
    return .written (← memoryWritePayload writer payloadDict true (some door.projects))

/-- The search request the door runs for a request of its client, if it runs one. -/
def searchRequest? : DoorRequest → Option SearchRequest
  | .search arguments => request? arguments false
  | .searchItems arguments requireSubstantive => request? arguments requireSubstantive
  | .write _ => none
where
  request? (arguments : SearchArguments) (requireSubstantive : Bool) : Option SearchRequest :=
    if arguments.project ∈ door.projects then
      (arguments.request requireSubstantive).validate.toOption
    else none

/-- The payload the door writes for a request of its client, if it writes one. -/
def payload? : DoorRequest → Option Payload
  | .write payloadDict =>
    (checkedPayload writer.runtime payloadDict true (some door.projects)).toOption
  | _ => none

end SandboxDoor

/-- Serve one request over a store. -/
def serve (writer : DeterministicWriter) (engine : SearchEngine) (door : SandboxDoor)
    (request : DoorRequest) (store : Store) : Outcome PyError DoorAnswer × Store :=
  (door.answer writer request).run (storeWorld engine) store

/-! ### What a door asks the store -/

section

variable {door : SandboxDoor} {writer : DeterministicWriter} {engine : SearchEngine}
  {request : DoorRequest}

theorem toOption_eq_some {Fault Result : Type} {computed : Except Fault Result} {result : Result} :
    computed.toOption = some result ↔ computed = .ok result := by
  cases computed <;> simp [Except.toOption]

/-- A payload a door writes is a build outcome that supersedes nothing, of one of its projects. -/
theorem checkedPayload_eq_ok {runtime : Runtime} {payloadDict : PyDict}
    {allowedProjects : Option (List String)} {payload : Payload}
    (checked : checkedPayload runtime payloadDict true allowedProjects = .ok payload) :
    payload.payloadType = "build_outcome" ∧ payload.supersedes = [] ∧
      payload.project.toLower ∉ reservedProjects ∧
      ∀ projects, allowedProjects = some projects → payload.project ∈ projects := by
  obtain ⟨built, _, checked⟩ := except_bind_eq_ok.mp checked
  obtain ⟨_, sandboxed, checked⟩ := except_bind_eq_ok.mp checked
  obtain ⟨_, served, checked⟩ := except_bind_eq_ok.mp checked
  obtain rfl := Except.ok.inj checked
  have accepted := raiseIf_eq_ok.mp sandboxed
  simp only [not_or, not_not] at accepted
  refine ⟨accepted.1, accepted.2.1, accepted.2.2, ?_⟩
  rintro projects rfl
  exact checkDoorProject_eq_ok.mp served

/-- A search tool asks the store for the partitions of its request, if its request passes. -/
theorem uses_searchTool {Value : Type} {arguments : SearchArguments} {requireSubstantive : Bool}
    (rest : SearchRequest → List Item → StoreM Value)
    (quiet : ∀ validated results, (rest validated results).Uses fun _ => False) :
    (toolSafe writer.runtime do
      lift (checkDoorProject arguments.project (some door.projects))
      let validated ← lift (arguments.request requireSubstantive).validate
      let results ← search writer.runtime validated
      rest validated results).Uses fun call => ∃ validated,
        SandboxDoor.searchRequest?.request? door arguments requireSubstantive = some validated ∧
          AsksPartition validated call := by
  refine uses_toolSafe ?_
  cases served : checkDoorProject arguments.project (some door.projects) with
  | error error =>
    rw [lift_error_bind]
    exact uses_lift _
  | ok done =>
    rw [lift_ok_bind]
    cases valid : (arguments.request requireSubstantive).validate with
    | error error =>
      rw [lift_error_bind]
      exact uses_lift _
    | ok validated =>
      rw [lift_ok_bind]
      refine Program.uses_bind (Program.uses_mono (fun call asks => ⟨validated, ?_, asks⟩)
        uses_search) fun results => Program.uses_mono (fun _ impossible => impossible.elim)
          (quiet validated results)
      rw [SandboxDoor.searchRequest?.request?, if_pos (checkDoorProject_eq_ok.mp served), valid]
      rfl

/-- A door that does not write asks for the partitions of its search request only. -/
theorem uses_answer (reads : ∀ payloadDict, request ≠ .write payloadDict) :
    (door.answer writer request).Uses fun call => ∃ validated,
      door.searchRequest? request = some validated ∧ AsksPartition validated call := by
  cases request with
  | search arguments =>
    exact Program.uses_bind (uses_searchTool _ fun _ _ => uses_lift _) fun _ => Program.uses_pure _
  | searchItems arguments requireSubstantive =>
    exact Program.uses_bind (uses_searchTool _ fun _ _ => Program.uses_pure _)
      fun _ => Program.uses_pure _
  | write payloadDict => exact absurd rfl (reads payloadDict)

/-- A search tool answers alike over two stores whose rankings answer its partitions alike. -/
theorem run_searchTool_eq {Value : Type} {arguments : SearchArguments} {requireSubstantive : Bool}
    {first second : Store} (rest : SearchRequest → List Item → StoreM Value)
    (quiet : ∀ validated results, (rest validated results).Uses fun _ => False)
    (same : ∀ validated,
      SandboxDoor.searchRequest?.request? door arguments requireSubstantive = some validated →
      ∀ payloadType ∈ partitions validated,
        partitionAnswer writer.runtime validated payloadType
            (engine.ranking (partitionScope validated payloadType) first) =
          partitionAnswer writer.runtime validated payloadType
            (engine.ranking (partitionScope validated payloadType) second)) :
    let tool := toolSafe writer.runtime do
      lift (checkDoorProject arguments.project (some door.projects))
      let validated ← lift (arguments.request requireSubstantive).validate
      let results ← search writer.runtime validated
      rest validated results
    (tool.run (storeWorld engine) first).1 = (tool.run (storeWorld engine) second).1 := by
  refine Program.run_tryCatch_of_quiet
    (Program.run_bind_of_quiet ?_ fun _ => Program.uses_pure _) fun _ => Program.uses_pure _
  cases served : checkDoorProject arguments.project (some door.projects) with
  | error error => rw [lift_error_bind, run_lift_error, run_lift_error]
  | ok done =>
    rw [lift_ok_bind]
    cases valid : (arguments.request requireSubstantive).validate with
    | error error => rw [lift_error_bind, run_lift_error, run_lift_error]
    | ok validated =>
      rw [lift_ok_bind]
      refine Program.run_bind_of_quiet (run_search_eq (same validated ?_)) (quiet validated)
      rw [SandboxDoor.searchRequest?.request?, if_pos (checkDoorProject_eq_ok.mp served), valid]
      rfl

/-- A door answers a search alike over two stores whose rankings answer its partitions alike. -/
theorem serve_read_eq {first second : Store}
    (reads : ∀ payloadDict, request ≠ .write payloadDict)
    (same : ∀ validated, door.searchRequest? request = some validated →
      ∀ payloadType ∈ partitions validated,
        partitionAnswer writer.runtime validated payloadType
            (engine.ranking (partitionScope validated payloadType) first) =
          partitionAnswer writer.runtime validated payloadType
            (engine.ranking (partitionScope validated payloadType) second)) :
    (serve writer engine door request first).1 = (serve writer engine door request second).1 := by
  cases request with
  | search arguments =>
    exact Program.run_bind_of_quiet (run_searchTool_eq _ (fun _ _ => uses_lift _) same)
      fun _ => Program.uses_pure _
  | searchItems arguments requireSubstantive =>
    exact Program.run_bind_of_quiet (run_searchTool_eq _ (fun _ _ => Program.uses_pure _) same)
      fun _ => Program.uses_pure _
  | write payloadDict => exact absurd rfl (reads payloadDict)

/-- A write the checks refuse is answered without a store call. -/
theorem serve_write_refused {payloadDict : PyDict} {error : PyError}
    (refused : checkedPayload writer.runtime payloadDict true (some door.projects) = .error error)
    (store : Store) :
    serve writer engine door (.write payloadDict) store =
      (.returned (.written (mapExceptionToResult writer.runtime error)), store) := by
  rw [serve, SandboxDoor.answer, memoryWritePayload, refused, lift_error_bind]
  rfl

/-- A payload the writer does not accept is answered without a store call. -/
theorem serve_write_of_not_accepts {payloadDict : PyDict} {payload : Payload}
    (checked : checkedPayload writer.runtime payloadDict true (some door.projects) = .ok payload)
    (refused : ¬Accepts payload) :
    ∃ error, ∀ store, serve writer engine door (.write payloadDict) store =
      (.returned (.written (mapExceptionToResult writer.runtime error)), store) := by
  obtain ⟨error, raises⟩ := write_of_not_accepts writer none refused
  refine ⟨error, fun store => ?_⟩
  rw [serve, SandboxDoor.answer, memoryWritePayload, checked, lift_ok_bind, raises,
    lift_error_bind]
  rfl

/-- An accepted write is answered with the natural key, and leaves the written store. -/
theorem serve_write_of_accepts {payloadDict : PyDict} {payload : Payload} {store : Store}
    (checked : checkedPayload writer.runtime payloadDict true (some door.projects) = .ok payload)
    (accepts : Accepts payload)
    (room : (engine.ranking (listing (recordNamespace payload)) store).length <
      forwardPage * writer.pages) :
    serve writer engine door (.write payloadDict) store =
      (.returned (.written { isError := false, value := some payload.naturalKey }),
        writer.written engine payload none store) := by
  have returned : (writer.write payload none >>= fun _ => (return payload.naturalKey)).run
      (storeWorld engine) store = (.returned payload.naturalKey,
        writer.written engine payload none store) := by
    rw [Program.run_bind, run_write_of_accepts accepts room]
    rfl
  rw [serve, SandboxDoor.answer, memoryWritePayload, checked, lift_ok_bind, toolSafe,
    Program.run_bind, Program.run_tryCatch, Program.run_bind, returned]
  rfl

end

end FleetMemory
