/-
This file models the narrow doors of the memory service: the setting that lists them, and
the check a door makes before it serves a project. A setting that is read gives every
door its own port and its own projects, none of them a shelf of the factory.
-/

import FleetMemory.Errors
import Mathlib.Data.List.Pairwise

namespace FleetMemory

/-- `RESERVED_PROJECTS`. -/
def reservedProjects : List String :=
  ["guardkit", "guardkitfactory", "forge", "fleet_memory", "nats_core", "specialist_agent",
    "jarvis", "office_manager", "ai_transition", "software_factory"]

/-- `DOOR_PROJECT_REFUSAL`. -/
def doorProjectRefusal : String :=
  "this sandbox's memory door does not serve that project"

/-- One door: the port it listens on and the only projects it serves. -/
structure SandboxDoor where
  port : Nat
  projects : List String
deriving DecidableEq, Repr

/-- A refusal of the setting. -/
def doorsError (reason : String) : PyError :=
  .valueError ("FLEET_MEMORY_MCP_SANDBOX_DOORS: " ++ reason)

/-- `_PROJECT_NAME.fullmatch`. -/
def projectName (name : String) : Bool :=
  Text.fullMatch Text.lowerWord name

/-- `_PORT.fullmatch`. -/
def portText (text : String) : Bool :=
  Text.fullMatch Char.isDigit text && text.length ≤ 5

/-- `int(text)` of a text of digits. -/
def decimal (text : String) : Nat :=
  text.toList.foldl (fun number digit => 10 * number + (digit.toNat - '0'.toNat)) 0

section

variable (runtime : Runtime)

/-- Read the port of an entry. -/
def parsePort (mainPort : Int) (seenPorts : List Nat) (text : String) : Except PyError Nat := do
  raiseIf (¬(portText text = true ∧ 1 ≤ decimal text ∧ decimal text ≤ 65535))
    (doorsError (runtime.repr text ++ " is not a port number"))
  let port := decimal text
  raiseIf ((port : Int) = mainPort)
    (doorsError ("port " ++ toString port ++ " is the main server's own port"))
  raiseIf (port ∈ seenPorts) (doorsError ("port " ++ toString port ++ " is listed twice"))
  return port

/-- Check the projects of an entry, one after another. -/
def checkProjects (seenProjects : List String) : List String → Except PyError Unit
  | [] => .ok ()
  | name :: rest => do
    raiseIf (projectName name = false) (doorsError (runtime.repr name ++
      " is not a project name (lower-case letters, digits and '_' only)"))
    raiseIf (name.toLower ∈ reservedProjects) (doorsError (runtime.repr name ++
      " is a factory shelf and cannot be on a sandbox door"))
    raiseIf (name ∈ seenProjects) (doorsError ("project " ++ runtime.repr name ++
      " is listed more than once; a project belongs to one door and one sandbox only"))
    checkProjects (name :: seenProjects) rest

/-- Read one entry, after the doors before it. -/
def parseDoor (mainPort : Int) (doors : List SandboxDoor) (entry : String) :
    Except PyError SandboxDoor := do
  let (portText, separator, projectsText) := Text.partition ':' entry
  raiseIf (entry = "" ∨ separator = false) (doorsError
    ("each entry must be '<port>:<project>|<project>', not " ++ runtime.repr entry))
  let port ← parsePort runtime mainPort (doors.map SandboxDoor.port) (Text.strip portText)
  let projects := (Text.split '|' projectsText).map Text.strip
  raiseIf (projects = [] ∨ "" ∈ projects) (doorsError ("the door on port " ++ toString port ++
    " has an empty project name; list at least one project, separated by '|'"))
  checkProjects runtime (doors.flatMap SandboxDoor.projects) projects
  return { port, projects }

def parseEntries (mainPort : Int) (doors : List SandboxDoor) :
    List String → Except PyError (List SandboxDoor)
  | [] => .ok doors
  | entry :: rest => do
    let door ← parseDoor runtime mainPort doors (Text.strip entry)
    parseEntries mainPort (doors ++ [door]) rest

/-- `parse_sandbox_doors`. -/
def parseSandboxDoors (value : String) (mainPort : Int) : Except PyError (List SandboxDoor) :=
  if Text.blank value then .ok []
  else parseEntries runtime mainPort [] (Text.split ',' value)

end

/-- `check_door_project`. Without a list, every project is served. -/
def checkDoorProject (project : String) (allowedProjects : Option (List String)) :
    Except PyError Unit :=
  match allowedProjects with
  | none => .ok ()
  | some projects => raiseIf (project ∉ projects) (.valueError doorProjectRefusal)

/-! ### What a setting that is read gives -/

/-- The doors have distinct ports and share no project, and each serves projects that searches
accept and that are no shelf of the factory. -/
structure DoorsApart (doors : List SandboxDoor) : Prop where
  ports : doors.Pairwise fun first second => first.port ≠ second.port
  projects : doors.Pairwise fun first second => first.projects.Disjoint second.projects
  nonempty : ∀ door ∈ doors, door.projects ≠ []
  named : ∀ door ∈ doors, ∀ name ∈ door.projects, projectName name = true
  unreserved : ∀ door ∈ doors, ∀ name ∈ door.projects, name.toLower ∉ reservedProjects

section

variable {runtime : Runtime} {mainPort : Int} {doors : List SandboxDoor} {door : SandboxDoor}

theorem checkProjects_eq_ok {seen names : List String}
    (checked : checkProjects runtime seen names = .ok ()) :
    ∀ name ∈ names, projectName name = true ∧ name.toLower ∉ reservedProjects ∧ name ∉ seen := by
  induction names generalizing seen with
  | nil => simp
  | cons first rest inductionHypothesis =>
    obtain ⟨_, named, checked⟩ := except_bind_eq_ok.mp checked
    obtain ⟨_, unreserved, checked⟩ := except_bind_eq_ok.mp checked
    obtain ⟨_, fresh, checked⟩ := except_bind_eq_ok.mp checked
    intro name member
    rcases List.mem_cons.mp member with rfl | later
    · exact ⟨by simpa using raiseIf_eq_ok.mp named, raiseIf_eq_ok.mp unreserved,
        raiseIf_eq_ok.mp fresh⟩
    · obtain ⟨lower, free, unseen⟩ := inductionHypothesis checked name later
      exact ⟨lower, free, fun earlier => unseen (List.mem_cons_of_mem _ earlier)⟩

theorem parsePort_eq_ok {seen : List Nat} {text : String} {port : Nat}
    (parsed : parsePort runtime mainPort seen text = .ok port) : port ∉ seen := by
  obtain ⟨_, _, parsed⟩ := except_bind_eq_ok.mp parsed
  obtain ⟨_, _, parsed⟩ := except_bind_eq_ok.mp parsed
  obtain ⟨_, fresh, parsed⟩ := except_bind_eq_ok.mp parsed
  obtain rfl := Except.ok.inj parsed
  exact raiseIf_eq_ok.mp fresh

/-- A door that is read is apart from the doors before it. -/
theorem parseDoor_eq_ok {entry : String}
    (parsed : parseDoor runtime mainPort doors entry = .ok door) :
    door.port ∉ doors.map SandboxDoor.port ∧ door.projects ≠ [] ∧
      ∀ name ∈ door.projects, projectName name = true ∧ name.toLower ∉ reservedProjects ∧
        name ∉ doors.flatMap SandboxDoor.projects := by
  unfold parseDoor at parsed
  obtain ⟨_, _, parsed⟩ := except_bind_eq_ok.mp parsed
  obtain ⟨port, portParsed, parsed⟩ := except_bind_eq_ok.mp parsed
  obtain ⟨_, listed, parsed⟩ := except_bind_eq_ok.mp parsed
  obtain ⟨_, checked, parsed⟩ := except_bind_eq_ok.mp parsed
  obtain rfl := Except.ok.inj parsed
  exact ⟨parsePort_eq_ok portParsed, fun empty => raiseIf_eq_ok.mp listed (Or.inl empty),
    checkProjects_eq_ok checked⟩

theorem doorsApart_concat (apart : DoorsApart doors)
    (port : door.port ∉ doors.map SandboxDoor.port) (nonempty : door.projects ≠ [])
    (checked : ∀ name ∈ door.projects, projectName name = true ∧
      name.toLower ∉ reservedProjects ∧ name ∉ doors.flatMap SandboxDoor.projects) :
    DoorsApart (doors ++ [door]) := by
  have one_of (other : SandboxDoor) (member : other ∈ doors ++ [door]) :
      other ∈ doors ∨ other = door := by
    simpa using member
  constructor
  · refine List.pairwise_append.mpr ⟨apart.ports, by simp, fun other member last single => ?_⟩
    obtain rfl := List.mem_singleton.mp single
    exact fun same => port (List.mem_map.mpr ⟨other, member, same⟩)
  · refine List.pairwise_append.mpr ⟨apart.projects, by simp, fun other member last single => ?_⟩
    obtain rfl := List.mem_singleton.mp single
    intro name theirs ours
    exact (checked name ours).2.2 (List.mem_flatMap.mpr ⟨other, member, theirs⟩)
  · intro other member
    rcases one_of other member with earlier | rfl
    · exact apart.nonempty other earlier
    · exact nonempty
  · intro other member name inside
    rcases one_of other member with earlier | rfl
    · exact apart.named other earlier name inside
    · exact (checked name inside).1
  · intro other member name inside
    rcases one_of other member with earlier | rfl
    · exact apart.unreserved other earlier name inside
    · exact (checked name inside).2.1

theorem doorsApart_nil : DoorsApart [] :=
  ⟨.nil, .nil, by simp, by simp, by simp⟩

theorem doorsApart_parseEntries {entries : List String} {result : List SandboxDoor}
    (apart : DoorsApart doors) (parsed : parseEntries runtime mainPort doors entries = .ok result) :
    DoorsApart result := by
  induction entries generalizing doors with
  | nil =>
    obtain rfl := Except.ok.inj parsed
    exact apart
  | cons entry rest inductionHypothesis =>
    obtain ⟨door, doorParsed, parsed⟩ := except_bind_eq_ok.mp parsed
    obtain ⟨port, nonempty, checked⟩ := parseDoor_eq_ok doorParsed
    exact inductionHypothesis (doorsApart_concat apart port nonempty checked) parsed

/-- The doors of a setting that is read are apart. -/
theorem doorsApart_parseSandboxDoors {value : String}
    (parsed : parseSandboxDoors runtime value mainPort = .ok doors) : DoorsApart doors := by
  unfold parseSandboxDoors at parsed
  split at parsed
  · obtain rfl := Except.ok.inj parsed
    exact doorsApart_nil
  · exact doorsApart_parseEntries doorsApart_nil parsed

/-- A project belongs to one door. -/
theorem DoorsApart.eq_of_project (apart : DoorsApart doors) {other : SandboxDoor}
    (member : door ∈ doors) (otherMember : other ∈ doors) {name : String}
    (serves : name ∈ door.projects) (otherServes : name ∈ other.projects) : door = other := by
  by_contra different
  have symmetric : Std.Symm fun first second : SandboxDoor =>
      first.projects.Disjoint second.projects := ⟨fun _ _ separate _ here there => separate there here⟩
  exact apart.projects.forall member otherMember different serves otherServes

theorem checkDoorProject_eq_ok {project : String} {projects : List String} :
    checkDoorProject project (some projects) = .ok () ↔ project ∈ projects := by
  rw [checkDoorProject, raiseIf_eq_ok, not_not]

end

example : (parseSandboxDoors (.ofTables [] [] []) "8006:proj_a|proj_b, 8007:proj_c" 8000).toOption =
    some [⟨8006, ["proj_a", "proj_b"]⟩, ⟨8007, ["proj_c"]⟩] := by
  decide +kernel

end FleetMemory
