/-
This file compares the checks a project name meets: those of the typed writer, of a search
request and of the setting of the narrow doors. The writer and the doors match a whole name, the
request matches up to a line feed at the end. So they accept the same names, reserved ones aside,
but for a name with one line feed behind it, which can be searched and never written.
-/

import FleetMemory.DoorRendering
import FleetMemory.Envelopes
import FleetMemory.SearchTools
import FleetMemory.Writer

namespace FleetMemory

open DeterministicWriter

/-! ### The checks -/

/-- The typed writer accepts a payload with the project: it can be built, and its namespace is
valid. -/
def Writable (runtime : Runtime) (project : String) : Prop :=
  ∃ cls ∈ payloadRegistry, ∃ data payload, cls.init runtime data = .ok payload ∧
    payload.project = project ∧ validateNamespace (recordNamespace payload) = .ok ()

/-- A search request accepts the project. -/
def Searchable (project : String) : Prop :=
  ∃ request : SearchRequest, request.project = project ∧ request.validate = .ok request

/-- A door may list the project. -/
def Listable (runtime : Runtime) (mainPort : Int) (project : String) : Prop :=
  ∃ value doors, parseSandboxDoors runtime value mainPort = .ok doors ∧
    ∃ door ∈ doors, project ∈ door.projects

/-- The checks agree on a name, if it is not a reserved one. -/
structure NameAgreed (runtime : Runtime) (mainPort : Int) (project : String) : Prop where
  searched : Writable runtime project ↔ Searchable project
  listed : project ∉ reservedProjects →
    (Writable runtime project ↔ Listable runtime mainPort project)

/-! ### What each of them accepts -/

section

variable {runtime : Runtime} {mainPort : Int} {project : String}

/-- The data of a document of a project. -/
def documentData (project : String) : PyDict :=
  [("project", .str project), ("identifier", .str "a"), ("source_ref", .str "")]

theorem initFields_documentData (valid : validPart project = true) :
    ∃ fields, initFields runtime DocumentPayload (documentData project) = .ok fields ∧
      fields.payloadType = "document" ∧ fields.project = project := by
  refine ⟨⟨"document", project, "a", [], "", 1, [], [("content", .none)]⟩, ?_, rfl, rfl⟩
  show (validateIdentifierIn (documentData project) "project" >>= _) = _
  rw [validateIdentifierIn_of_get rfl (Text.fullMatch_word_of_lowerWord valid)]
  show (validateIdentifierIn (documentData project) "identifier" >>= _) = _
  rw [@validateIdentifierIn_of_get (documentData project) "identifier" "a" rfl (by decide)]
  rfl

/-- What is written has a valid project, and every valid project can be written. -/
theorem writable_iff : Writable runtime project ↔ validPart project = true := by
  constructor
  · rintro ⟨_, _, _, payload, _, rfl, valid⟩
    exact validateNamespace_eq_ok.mp valid _ (by simp [recordNamespace])
  · intro valid
    obtain ⟨fields, built, type, same⟩ := @initFields_documentData runtime project valid
    refine ⟨DocumentPayload, by simp [payloadRegistry], documentData project,
      ⟨fields, (initFields_eq_ok built).1⟩, init_of_initFields built, same, ?_⟩
    refine validateNamespace_eq_ok.mpr fun part member => ?_
    simp only [recordNamespace, type, same, List.mem_cons, List.not_mem_nil, or_false] at member
    rcases member with rfl | rfl | rfl
    · decide
    · exact valid
    · decide

theorem searchable_iff : Searchable project ↔ projectPattern project = true := by
  constructor
  · rintro ⟨request, rfl, valid⟩
    exact (SearchRequest.validate_eq_ok valid).2
  · intro accepted
    refine ⟨{ project, query := some "", tokenBudget := 0 }, rfl, ?_⟩
    rw [SearchRequest.validate, SearchRequest.validateProjectIdentifier, if_pos accepted]
    rfl

/-- `$` also matches before one line feed at the end. -/
theorem projectPattern_iff : projectPattern project = true ↔
    validPart project = true ∨ ∃ name, validPart name = true ∧ project = name ++ "\n" := by
  rw [projectPattern, Text.chomp]
  constructor
  · split
    · rename_i feed
      intro valid
      refine Or.inr ⟨String.ofList project.toList.dropLast, valid, String.toList_inj.mp ?_⟩
      simpa using (List.dropLast_append_getLast? _ feed).symm
    · exact Or.inl
  · rintro (valid | ⟨name, valid, rfl⟩)
    · rw [if_neg]
      · exact valid
      · intro feed
        exact Text.not_mem_of_fullMatch valid (by decide) (List.mem_of_mem_getLast? feed)
    · rw [if_pos (by simp)]
      simpa [validPart] using valid

/-- A project on a door is a lower-case name that is not reserved, and each of these may be. -/
theorem listable_iff : Listable runtime mainPort project ↔
    projectName project = true ∧ project ∉ reservedProjects := by
  constructor
  · rintro ⟨value, doors, parsed, door, inside, member⟩
    have servable := servable_parseSandboxDoors parsed
    exact ⟨servable.named door inside project member, servable.unreserved door inside project member⟩
  · rintro ⟨named, unreserved⟩
    obtain ⟨port, inRange⟩ : ∃ port : Nat, 1 ≤ port ∧ port ≤ 65535 ∧ (port : Int) ≠ mainPort := by
      by_cases taken : mainPort = 1
      · exact ⟨2, by decide, by decide, by omega⟩
      · exact ⟨1, by decide, by decide, by omega⟩
    have servable : Servable mainPort [⟨port, [project]⟩] := by
      refine ⟨List.pairwise_singleton _ _, ?_, ?_, ?_, List.pairwise_singleton _ _, ?_, ?_⟩
      · simpa using inRange
      · simp
      · simp
      · simpa using named
      · simpa using unreserved
    have rendering : Rendering [⟨port, [project]⟩] (toString port ++ ":" ++ project) := by
      refine ⟨[toString port ++ ":" ++ project], .cons ?_ .nil, (Text.join_singleton _ _).symm⟩
      exact ⟨toString port, [project], [project], Text.padded_self _, List.Perm.refl _,
        .cons (Text.padded_self _) .nil, by rw [Text.join_singleton]⟩
    obtain ⟨results, parsed, sames⟩ := parseSandboxDoors_of_rendering servable rendering
    cases sames with
    | @cons _ door _ _ same _ =>
      exact ⟨_, _, parsed, door, List.mem_cons_self, same.2.mem_iff.mp List.mem_cons_self⟩

/-- A name followed by a line feed is searched and not written. -/
theorem not_nameAgreed_of_feed {name : String} (valid : validPart name = true) :
    ¬NameAgreed runtime mainPort (name ++ "\n") := by
  intro agreed
  have written := writable_iff.mp (agreed.searched.mpr
    (searchable_iff.mpr (projectPattern_iff.mpr (Or.inr ⟨name, valid, rfl⟩))))
  exact @Text.not_mem_of_fullMatch _ _ '\n' written (by decide) (by simp)

end

/-- The checks of the writer, the search request and the doors agree on a project exactly when it
is no valid name with one line feed behind it. -/
theorem nameAgreed_iff (runtime : Runtime) (mainPort : Int) (project : String) :
    NameAgreed runtime mainPort project ↔
      ¬∃ name, validPart name = true ∧ project = name ++ "\n" := by
  constructor
  · rintro agreed ⟨name, valid, rfl⟩
    exact not_nameAgreed_of_feed valid agreed
  · intro noFeed
    refine ⟨?_, fun unreserved => ?_⟩
    · rw [writable_iff, searchable_iff, projectPattern_iff, or_iff_left noFeed]
    · exact writable_iff.trans (listable_iff.trans (and_iff_left unreserved)).symm

/-- `a` and a line feed can be searched, and neither be written nor listed. -/
theorem searchable_line_feed :
    Searchable "a\n" ∧ ¬Writable (.ofTables [] [] []) "a\n" ∧
      ¬NameAgreed (.ofTables [] [] []) 8000 "a\n" :=
  ⟨searchable_iff.mpr (by decide), fun written => absurd (writable_iff.mp written) (by decide),
    @not_nameAgreed_of_feed _ _ "a" (by decide)⟩

end FleetMemory
