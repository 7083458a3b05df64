/-
This file proves that the setting of the narrow doors is read safely and without loss. What is
read is a list of doors a server may open, and every such list is read back from any of its
renderings, whatever the order of the projects and the white space.
-/

import FleetMemory.Doors
import FleetMemory.Pairings
import Mathlib.Data.List.Nodup

namespace FleetMemory

/-- The doors a server may open: their ports are distinct port numbers other than its own, and
their projects, some for each door, are distinct lower-case names that are no shelves of the
factory. -/
structure Servable (mainPort : Int) (doors : List SandboxDoor) : Prop where
  ports : doors.Pairwise fun first second => first.port ≠ second.port
  inRange : ∀ door ∈ doors, 1 ≤ door.port ∧ door.port ≤ 65535 ∧ (door.port : Int) ≠ mainPort
  nonempty : ∀ door ∈ doors, door.projects ≠ []
  distinct : ∀ door ∈ doors, door.projects.Nodup
  projects : doors.Pairwise fun first second => first.projects.Disjoint second.projects
  named : ∀ door ∈ doors, ∀ name ∈ door.projects, projectName name = true
  unreserved : ∀ door ∈ doors, ∀ name ∈ door.projects, name ∉ reservedProjects

/-- A text writes a door when it is `<port>:<project>|<project>`, with the projects in any order
and white space around the port and the names. The white space around the port and behind the
last name is also that around the entry. -/
def Renders (door : SandboxDoor) (entry : String) : Prop :=
  ∃ (port : String) (names padded : List String), Text.Padded (toString door.port) port ∧
    names.Perm door.projects ∧ List.Forall₂ Text.Padded names padded ∧
    entry = port ++ ":" ++ Text.join '|' padded

/-- A text writes doors when it is their entries, separated by commas. -/
def Rendering (doors : List SandboxDoor) (text : String) : Prop :=
  ∃ entries, List.Forall₂ Renders doors entries ∧ text = Text.join ',' entries

/-- The same door: the port is the same, and the projects are up to their order. -/
def SandboxDoor.Same (first second : SandboxDoor) : Prop :=
  first.port = second.port ∧ first.projects.Perm second.projects

/-! ### Names and ports -/

theorem decimal_toString (number : Nat) : decimal (toString number) = number := by
  have digits : (toString number).toList = Nat.toDigits 10 number := Nat.toList_repr
  rw [decimal, digits]
  exact Nat.ofDigitChars_ten_toDigits

theorem toString_ne_nil (number : Nat) : (toString number).toList ≠ [] := by
  have digits : (toString number).toList = Nat.toDigits 10 number := Nat.toList_repr
  rw [digits]
  exact Nat.toDigits_ne_nil

theorem portText_toString {port : Nat} (small : port ≤ 65535) : portText (toString port) = true := by
  have short : (toString port).length ≤ 5 :=
    (Nat.length_repr_le_iff (by decide)).mpr (lt_of_le_of_lt small (by decide))
  simp only [portText, Text.fullMatch, Bool.and_eq_true, Bool.not_eq_true', List.isEmpty_eq_false_iff,
    List.all_eq_true, decide_eq_true_eq]
  exact ⟨⟨toString_ne_nil port, fun _ member => Text.isDigit_of_mem_numeral member⟩, short⟩

theorem isSpace_of_mem_projectName {name : String} (named : projectName name = true)
    {character : Char} (member : character ∈ name.toList) : Text.isSpace character = false := by
  simp only [projectName, Text.fullMatch, Bool.and_eq_true, List.all_eq_true] at named
  have code := Text.code_of_lowerWord (named.2 character member)
  exact Text.isSpace_eq_false_of_code (by omega) (by omega)

/-! ### What is read can be served -/

section

variable {runtime : Runtime} {mainPort : Int} {doors : List SandboxDoor} {door : SandboxDoor}

theorem parsePort_inRange {seen : List Nat} {text : String} {port : Nat}
    (parsed : parsePort runtime mainPort seen text = .ok port) :
    1 ≤ port ∧ port ≤ 65535 ∧ (port : Int) ≠ mainPort := by
  obtain ⟨_, number, parsed⟩ := except_bind_eq_ok.mp parsed
  obtain ⟨_, other, parsed⟩ := except_bind_eq_ok.mp parsed
  obtain ⟨_, _, parsed⟩ := except_bind_eq_ok.mp parsed
  obtain rfl := Except.ok.inj parsed
  have range := (not_not.mp (raiseIf_eq_ok.mp number)).2
  exact ⟨range.1, range.2, raiseIf_eq_ok.mp other⟩

theorem checkProjects_nodup {seen names : List String}
    (checked : checkProjects runtime seen names = .ok ()) : names.Nodup := by
  induction names generalizing seen with
  | nil => exact List.nodup_nil
  | cons first rest inductionHypothesis =>
    obtain ⟨_, _, checked⟩ := except_bind_eq_ok.mp checked
    obtain ⟨_, _, checked⟩ := except_bind_eq_ok.mp checked
    obtain ⟨_, _, checked⟩ := except_bind_eq_ok.mp checked
    refine List.nodup_cons.mpr ⟨fun again => ?_, inductionHypothesis checked⟩
    exact (checkProjects_eq_ok checked first again).2.2 List.mem_cons_self

/-- What one door that is read is on its own. -/
theorem parseDoor_alone {entry : String}
    (parsed : parseDoor runtime mainPort doors entry = .ok door) :
    (1 ≤ door.port ∧ door.port ≤ 65535 ∧ (door.port : Int) ≠ mainPort) ∧ door.projects.Nodup := by
  unfold parseDoor at parsed
  obtain ⟨_, _, parsed⟩ := except_bind_eq_ok.mp parsed
  obtain ⟨port, portParsed, parsed⟩ := except_bind_eq_ok.mp parsed
  obtain ⟨_, _, parsed⟩ := except_bind_eq_ok.mp parsed
  obtain ⟨_, checked, parsed⟩ := except_bind_eq_ok.mp parsed
  obtain rfl := Except.ok.inj parsed
  exact ⟨parsePort_inRange portParsed, checkProjects_nodup checked⟩

theorem parseEntries_alone {entries : List String} {result : List SandboxDoor}
    (before : ∀ door ∈ doors, (1 ≤ door.port ∧ door.port ≤ 65535 ∧ (door.port : Int) ≠ mainPort) ∧
      door.projects.Nodup)
    (parsed : parseEntries runtime mainPort doors entries = .ok result) :
    ∀ door ∈ result, (1 ≤ door.port ∧ door.port ≤ 65535 ∧ (door.port : Int) ≠ mainPort) ∧
      door.projects.Nodup := by
  induction entries generalizing doors with
  | nil =>
    obtain rfl := Except.ok.inj parsed
    exact before
  | cons entry rest inductionHypothesis =>
    obtain ⟨next, nextParsed, parsed⟩ := except_bind_eq_ok.mp parsed
    refine inductionHypothesis (fun door member => ?_) parsed
    rcases List.mem_append.mp member with earlier | last
    · exact before door earlier
    · obtain rfl := List.mem_singleton.mp last
      exact parseDoor_alone nextParsed

/-- The doors of a setting that is read may be opened. -/
theorem servable_parseSandboxDoors {value : String}
    (parsed : parseSandboxDoors runtime value mainPort = .ok doors) : Servable mainPort doors := by
  have apart := doorsApart_parseSandboxDoors parsed
  have alone : ∀ door ∈ doors, (1 ≤ door.port ∧ door.port ≤ 65535 ∧ (door.port : Int) ≠ mainPort) ∧
      door.projects.Nodup := by
    unfold parseSandboxDoors at parsed
    split at parsed
    · obtain rfl := Except.ok.inj parsed
      simp
    · exact parseEntries_alone (by simp) parsed
  refine ⟨apart.ports, fun door member => (alone door member).1, apart.nonempty,
    fun door member => (alone door member).2, apart.projects, apart.named, ?_⟩
  intro door member name inside reserved
  have unreserved := apart.unreserved door member name inside
  rw [Text.toLower_of_fullMatch (apart.named door member name inside)] at unreserved
  exact unreserved reserved

/-! ### What is refused is refused with a `ValueError` -/

/-- A computation fails with refusals of the setting only. -/
def Refuses {Result : Type} (computed : Except PyError Result) : Prop :=
  ∀ error, computed = .error error → ∃ reason, error = doorsError reason

theorem refuses_ok {Result : Type} (result : Result) :
    Refuses (.ok result : Except PyError Result) := by
  intro error failed
  cases failed

theorem refuses_raiseIf (condition : Prop) [Decidable condition] (reason : String) :
    Refuses (raiseIf condition (doorsError reason)) := by
  intro error failed
  unfold raiseIf at failed
  split at failed
  · exact ⟨reason, (Except.error.inj failed).symm⟩
  · cases failed

theorem Refuses.bind {Result Other : Type} {computed : Except PyError Result}
    {next : Result → Except PyError Other} (first : Refuses computed)
    (rest : ∀ result, Refuses (next result)) : Refuses (computed >>= next) := by
  intro error failed
  cases computed with
  | error raised =>
    obtain rfl : raised = error := Except.error.inj failed
    exact first raised rfl
  | ok result => exact rest result error failed

theorem refuses_parsePort (seen : List Nat) (text : String) :
    Refuses (parsePort runtime mainPort seen text) :=
  (refuses_raiseIf _ _).bind fun _ => (refuses_raiseIf _ _).bind fun _ =>
    (refuses_raiseIf _ _).bind fun _ => refuses_ok _

theorem refuses_checkProjects (seen names : List String) :
    Refuses (checkProjects runtime seen names) := by
  induction names generalizing seen with
  | nil => exact refuses_ok ()
  | cons first rest inductionHypothesis =>
    exact (refuses_raiseIf _ _).bind fun _ => (refuses_raiseIf _ _).bind fun _ =>
      (refuses_raiseIf _ _).bind fun _ => inductionHypothesis _

theorem refuses_parseDoor (entry : String) : Refuses (parseDoor runtime mainPort doors entry) :=
  (refuses_raiseIf _ _).bind fun _ => (refuses_parsePort _ _).bind fun _ =>
    (refuses_raiseIf _ _).bind fun _ => (refuses_checkProjects _ _).bind fun _ => refuses_ok _

theorem refuses_parseEntries (entries : List String) :
    Refuses (parseEntries runtime mainPort doors entries) := by
  induction entries generalizing doors with
  | nil => exact refuses_ok doors
  | cons entry rest inductionHypothesis =>
    exact (refuses_parseDoor _).bind fun _ => inductionHypothesis

theorem refuses_parseSandboxDoors (value : String) :
    Refuses (parseSandboxDoors runtime value mainPort) := by
  unfold parseSandboxDoors
  split
  · exact refuses_ok []
  · exact refuses_parseEntries _

/-! ### A rendering is read back -/

theorem parsePort_of_toString {seen : List Nat} {port : Nat}
    (inRange : 1 ≤ port ∧ port ≤ 65535 ∧ (port : Int) ≠ mainPort) (fresh : port ∉ seen) :
    parsePort runtime mainPort seen (toString port) = .ok port := by
  obtain ⟨positive, small, other⟩ := inRange
  have number := decimal_toString port
  rw [parsePort, raiseIf_neg (not_not.mpr
    ⟨portText_toString small, by rw [number]; exact positive, by rw [number]; exact small⟩)]
  simp only [number]
  rw [raiseIf_neg other, raiseIf_neg fresh]
  rfl

theorem checkProjects_of_fresh {seen names : List String} (distinct : names.Nodup)
    (good : ∀ name ∈ names, projectName name = true ∧ name.toLower ∉ reservedProjects)
    (fresh : ∀ name ∈ names, name ∉ seen) : checkProjects runtime seen names = .ok () := by
  induction names generalizing seen with
  | nil => rfl
  | cons first rest inductionHypothesis =>
    obtain ⟨outside, distinct⟩ := List.nodup_cons.mp distinct
    obtain ⟨named, unreserved⟩ := good first List.mem_cons_self
    rw [checkProjects, raiseIf_neg (by simp [named]), raiseIf_neg unreserved,
      raiseIf_neg (fresh first List.mem_cons_self)]
    refine inductionHypothesis distinct (fun name member => good name (List.mem_cons_of_mem _ member))
      fun name member again => ?_
    rcases List.mem_cons.mp again with rfl | earlier
    · exact outside member
    · exact fresh name (List.mem_cons_of_mem _ member) earlier

/-- The white space around a rendering of a door is that of its port and its last name. -/
theorem renders_strip {entry : String} (nonempty : door.projects ≠ [])
    (named : ∀ name ∈ door.projects, projectName name = true) (renders : Renders door entry) :
    Renders door (Text.strip entry) := by
  obtain ⟨port, names, padded, portPadded, permuted, namesPadded, rfl⟩ := renders
  obtain ⟨trimmed, behind, trims, spacesBehind, wholeNames, last, lastMember, ends⟩ :=
    Text.join_padded '|' namesPadded fun empty => nonempty (by simpa [empty] using permuted)
  obtain ⟨ahead, after, spacesAhead, spacesAfter, wholePort⟩ := portPadded
  refine ⟨String.ofList ((toString door.port).toList ++ after), names, trimmed,
    ⟨[], after, by simp, spacesAfter, by simp⟩, permuted, trims, ?_⟩
  have whole : port ++ ":" ++ Text.join '|' padded = String.ofList (ahead ++
      ((toString door.port).toList ++ after ++ ':' :: (Text.join '|' trimmed).toList) ++ behind) := by
    apply String.toList_inj.mp
    simp [wholePort, wholeNames]
  rw [whole, Text.strip_between spacesAhead spacesBehind]
  · apply String.toList_inj.mp
    simp
  · intro character begins
    have digits : (toString door.port).toList ≠ [] := toString_ne_nil door.port
    rw [List.append_assoc, List.head?_append_of_ne_nil _ digits] at begins
    exact Text.isSpace_of_mem_numeral (List.mem_of_mem_head? begins)
  · intro character endsWith
    have lastNamed := named last (permuted.mem_iff.mp lastMember)
    have some_character : last.toList ≠ [] := by
      simp only [projectName, Text.fullMatch, Bool.and_eq_true, Bool.not_eq_true',
        List.isEmpty_eq_false_iff] at lastNamed
      exact lastNamed.1
    have suffix : last.toList <:+
        (toString door.port).toList ++ after ++ ':' :: (Text.join '|' trimmed).toList :=
      ends.trans ((List.suffix_cons _ _).trans (List.suffix_append _ _))
    obtain ⟨front, split⟩ := suffix
    rw [← split, List.getLast?_append_of_ne_nil _ some_character] at endsWith
    exact isSpace_of_mem_projectName lastNamed (List.mem_of_mem_getLast? endsWith)

/-- A character that is no white space and stands in no port, name or mark of a rendering does not
stand in it. -/
theorem not_mem_of_renders {entry : String} {character : Char}
    (named : ∀ name ∈ door.projects, projectName name = true) (renders : Renders door entry)
    (solid : Text.isSpace character = false) (notLower : Text.lowerWord character = false)
    (colon : character ≠ ':') (bar : character ≠ '|') : character ∉ entry.toList := by
  obtain ⟨port, names, padded, portPadded, permuted, namesPadded, rfl⟩ := renders
  have notPort : character ∉ port.toList := by
    refine Text.not_mem_of_padded solid (fun member => ?_) portPadded
    have digit := Text.isDigit_of_mem_numeral member
    simp [Text.lowerWord, digit] at notLower
  have notNames : ∀ text ∈ padded, character ∉ text.toList := by
    intro text member
    obtain ⟨name, inside, here⟩ := Pairings.exists_of_mem_right namesPadded member
    exact Text.not_mem_of_padded solid
      (Text.not_mem_of_fullMatch (named name (permuted.mem_iff.mp inside)) notLower) here
  intro member
  simp only [String.toList_append, List.mem_append] at member
  rcases member with (inPort | inColon) | inNames
  · exact notPort inPort
  · exact colon (by simpa using inColon)
  · rcases Text.mem_join inNames with same | ⟨text, inside, here⟩
    · exact bar same
    · exact notNames text inside here

/-- A rendering of a door that is apart from the doors before it is read. -/
theorem parseDoor_of_renders {entry : String}
    (inRange : 1 ≤ door.port ∧ door.port ≤ 65535 ∧ (door.port : Int) ≠ mainPort)
    (freshPort : door.port ∉ doors.map SandboxDoor.port) (nonempty : door.projects ≠ [])
    (distinct : door.projects.Nodup)
    (good : ∀ name ∈ door.projects, projectName name = true ∧ name ∉ reservedProjects ∧
      name ∉ doors.flatMap SandboxDoor.projects) (renders : Renders door entry) :
    ∃ result, parseDoor runtime mainPort doors entry = .ok result ∧ door.Same result := by
  obtain ⟨port, names, padded, portPadded, permuted, namesPadded, rfl⟩ := renders
  have named (name : String) (member : name ∈ names) : projectName name = true :=
    (good name (permuted.mem_iff.mp member)).1
  have unpadded : padded.map Text.strip = names :=
    Pairings.map_eq_left namesPadded fun name member text here =>
      Text.strip_of_padded (fun _ inside => isSpace_of_mem_projectName (named name member) inside) here
  have some_name : names ≠ [] := fun empty => nonempty (by simpa [empty] using permuted)
  have some_padded : padded ≠ [] := by
    rintro rfl
    exact some_name unpadded.symm
  have portRead : Text.strip port = toString door.port :=
    Text.strip_of_padded (fun _ inside => Text.isSpace_of_mem_numeral inside) portPadded
  have noColon : ':' ∉ port.toList :=
    Text.not_mem_of_padded (by decide)
      (fun inside => absurd (Text.isDigit_of_mem_numeral inside) (by decide)) portPadded
  have noBar : ∀ text ∈ padded, '|' ∉ text.toList := by
    intro text member
    obtain ⟨name, inside, here⟩ := Pairings.exists_of_mem_right namesPadded member
    exact Text.not_mem_of_padded (by decide)
      (Text.not_mem_of_fullMatch (named name inside) (by decide)) here
  have parts : Text.partition ':' (port ++ ":" ++ Text.join '|' padded) =
      (port, true, Text.join '|' padded) :=
    Text.partition_append noColon _
  have written : port ++ ":" ++ Text.join '|' padded ≠ "" := by
    intro empty
    have nothing := congrArg String.toList empty
    simp at nothing
  have noEmpty : ¬(names = [] ∨ "" ∈ names) := by
    rintro (empty | member)
    · exact some_name empty
    · exact absurd (named "" member) (by decide)
  refine ⟨⟨door.port, names⟩, ?_, rfl, permuted.symm⟩
  have read : parsePort runtime mainPort (doors.map SandboxDoor.port) (toString door.port) =
      .ok door.port :=
    parsePort_of_toString inRange freshPort
  have checked : checkProjects runtime (doors.flatMap SandboxDoor.projects) names = .ok () := by
    refine checkProjects_of_fresh (permuted.nodup_iff.mpr distinct) (fun name member => ?_)
      fun name member => (good name (permuted.mem_iff.mp member)).2.2
    refine ⟨named name member, ?_⟩
    rw [Text.toLower_of_fullMatch (named name member)]
    exact (good name (permuted.mem_iff.mp member)).2.1
  have chars := Text.split_join '|' padded some_padded noBar
  rw [parseDoor, parts]
  simp only [raiseIf_neg (show ¬(port ++ ":" ++ Text.join '|' padded = "" ∨ true = false) by
    simp [written]), portRead, chars, unpadded, read, raiseIf_neg noEmpty, checked]
  rfl

/-- Renderings of doors are read, one after another. -/
theorem parseEntries_of_renders {rest : List SandboxDoor} {entries : List String}
    (renders : List.Forall₂ Renders rest entries) (servable : Servable mainPort rest)
    (freshPorts : ∀ door ∈ rest, door.port ∉ doors.map SandboxDoor.port)
    (freshNames : ∀ door ∈ rest, ∀ name ∈ door.projects,
      name ∉ doors.flatMap SandboxDoor.projects) :
    ∃ results, parseEntries runtime mainPort doors entries = .ok (doors ++ results) ∧
      List.Forall₂ SandboxDoor.Same rest results := by
  induction renders generalizing doors with
  | nil => exact ⟨[], by rw [List.append_nil]; rfl, .nil⟩
  | @cons door entry rest entries here _ inductionHypothesis =>
    have member : door ∈ door :: rest := List.mem_cons_self
    have later {other : SandboxDoor} (inside : other ∈ rest) : other ∈ door :: rest :=
      List.mem_cons_of_mem _ inside
    obtain ⟨result, read, same⟩ : ∃ result,
        parseDoor runtime mainPort doors (Text.strip entry) = .ok result ∧ door.Same result :=
      parseDoor_of_renders (servable.inRange door member) (freshPorts door member)
        (servable.nonempty door member) (servable.distinct door member)
        (fun name inside => ⟨servable.named door member name inside,
          servable.unreserved door member name inside, freshNames door member name inside⟩)
        (renders_strip (servable.nonempty door member) (servable.named door member) here)
    obtain ⟨otherPort, ports⟩ := List.pairwise_cons.mp servable.ports
    obtain ⟨otherNames, projects⟩ := List.pairwise_cons.mp servable.projects
    have restServable : Servable mainPort rest :=
      ⟨ports, fun _ inside => servable.inRange _ (later inside),
        fun _ inside => servable.nonempty _ (later inside),
        fun _ inside => servable.distinct _ (later inside), projects,
        fun _ inside => servable.named _ (later inside),
        fun _ inside => servable.unreserved _ (later inside)⟩
    have stillPorts : ∀ other ∈ rest, other.port ∉ (doors ++ [result]).map SandboxDoor.port := by
      intro other inside again
      rw [List.map_append, List.mem_append] at again
      rcases again with earlier | last
      · exact freshPorts other (later inside) earlier
      · exact otherPort other inside (same.1.trans (List.mem_singleton.mp last).symm)
    have stillNames : ∀ other ∈ rest, ∀ name ∈ other.projects,
        name ∉ (doors ++ [result]).flatMap SandboxDoor.projects := by
      intro other inside name listed again
      rw [List.flatMap_append, List.mem_append] at again
      rcases again with earlier | last
      · exact freshNames other (later inside) name listed earlier
      · exact otherNames other inside (same.2.mem_iff.mpr (by simpa using last)) listed
    obtain ⟨results, parsed, sames⟩ := inductionHypothesis restServable stillPorts stillNames
    refine ⟨result :: results, ?_, .cons same sames⟩
    rw [parseEntries, read]
    exact parsed.trans (by rw [List.append_assoc]; rfl)

/-- The doors of a rendering are read, whatever the order of their projects. -/
theorem parseSandboxDoors_of_rendering {text : String} (servable : Servable mainPort doors)
    (rendering : Rendering doors text) :
    ∃ results, parseSandboxDoors runtime text mainPort = .ok results ∧
      List.Forall₂ SandboxDoor.Same doors results := by
  obtain ⟨entries, renders, rfl⟩ := rendering
  cases renders with
  | nil => exact ⟨[], by rfl, .nil⟩
  | @cons door entry rest others here more =>
    have noComma : ∀ part ∈ entry :: others, ',' ∉ part.toList := by
      intro part member
      obtain ⟨other, inside, written⟩ := Pairings.exists_of_mem_right (.cons here more) member
      exact not_mem_of_renders (servable.named other inside) written (by decide) (by decide)
        (by decide) (by decide)
    have colon : ':' ∈ (Text.join ',' (entry :: others)).toList := by
      obtain ⟨port, _, padded, _, _, _, rfl⟩ := here
      cases others with
      | nil => simp [Text.join_singleton]
      | cons next following => simp [Text.toList_join_cons_cons]
    obtain ⟨results, parsed, sames⟩ : ∃ results, parseEntries runtime mainPort [] (entry :: others) =
        .ok ([] ++ results) ∧ List.Forall₂ SandboxDoor.Same (door :: rest) results :=
      parseEntries_of_renders (.cons here more) servable (by simp) (by simp)
    refine ⟨results, ?_, sames⟩
    rw [parseSandboxDoors, Text.blank_eq_false colon (by decide), if_neg (by decide),
      Text.split_join ',' _ (by simp) noComma]
    exact parsed

/-- The setting of the narrow doors is read safely and without loss: a setting is refused with a
`ValueError` or gives doors that may be opened, and every list of doors that may be opened is read
back from each of its renderings. -/
theorem parseSandboxDoors_safe_and_lossless (runtime : Runtime) (mainPort : Int) :
    (∀ value,
      (∃ text, parseSandboxDoors runtime value mainPort = .error (.valueError text)) ∨
        ∃ doors, parseSandboxDoors runtime value mainPort = .ok doors ∧ Servable mainPort doors) ∧
      ∀ doors text, Servable mainPort doors → Rendering doors text →
        ∃ results, parseSandboxDoors runtime text mainPort = .ok results ∧
          List.Forall₂ SandboxDoor.Same doors results := by
  constructor
  · intro value
    cases parsed : parseSandboxDoors runtime value mainPort with
    | error raised =>
      obtain ⟨reason, rfl⟩ := refuses_parseSandboxDoors value raised parsed
      exact Or.inl ⟨_, rfl⟩
    | ok doors => exact Or.inr ⟨doors, rfl, servable_parseSandboxDoors parsed⟩
  · exact fun doors text servable rendering => parseSandboxDoors_of_rendering servable rendering

end

theorem parseSandboxDoors_safe_and_lossless_two :
    ∃ results, parseSandboxDoors (.ofTables [] [] []) " 8006: proj_b | proj_a ,8007:proj_c" 8000 =
      .ok results ∧ List.Forall₂ SandboxDoor.Same
        [⟨8006, ["proj_a", "proj_b"]⟩, ⟨8007, ["proj_c"]⟩] results := by
  refine (parseSandboxDoors_safe_and_lossless (.ofTables [] [] []) 8000).2 _ _ ?_
    ⟨[" 8006: proj_b | proj_a ", "8007:proj_c"], .cons ?_ (.cons ?_ .nil), by decide +kernel⟩
  · exact ⟨by decide, by decide, by decide, by decide, by simp [List.Disjoint], by decide,
      by decide⟩
  · refine ⟨" 8006", ["proj_b", "proj_a"], [" proj_b ", " proj_a "],
      ⟨[' '], [], by simp [Text.isSpace], by simp, by decide⟩, by decide, ?_, by decide +kernel⟩
    exact .cons ⟨[' '], [' '], by simp [Text.isSpace], by simp [Text.isSpace], by decide⟩
      (.cons ⟨[' '], [' '], by simp [Text.isSpace], by simp [Text.isSpace], by decide⟩ .nil)
  · exact ⟨"8007", ["proj_c"], ["proj_c"], Text.padded_self _, by decide,
      .cons (Text.padded_self _) .nil, by decide +kernel⟩

end FleetMemory
