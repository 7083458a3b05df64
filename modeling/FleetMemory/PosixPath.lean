/-
This file is a small library of path strings: the slashes of a path, the spelling `pathlib`
gives it, and the directories a path lies under. A path in its own spelling has no empty
segment, so a directory whose spelling ends in a slash never stands before one of its
slashes; and two directories a path lies under lie under each other.
-/

import FleetMemory.Text
import Mathlib.Data.List.DropRight
import Mathlib.Data.List.Infix

namespace PosixPath

/-! ### Spellings -/

/-- `text.replace("\\", "/")`. -/
def forwardSlashes (text : String) : String :=
  String.ofList (text.toList.map fun character => if character = '\\' then '/' else character)

/-- `text.rstrip("/")`. -/
def rstripSlashes (text : String) : String :=
  String.ofList (text.toList.rdropWhile (· == '/'))

/-- `text.startswith(opening)`. -/
def startsWith (opening text : String) : Bool :=
  opening.toList.isPrefixOf text.toList

/-- The root of a path and the rest of it, as `posixpath.splitroot` finds them. -/
def splitRoot (text : String) : String × String :=
  match text.toList with
  | '/' :: '/' :: '/' :: rest => ("/", String.ofList ('/' :: '/' :: rest))
  | '/' :: '/' :: rest => ("//", String.ofList rest)
  | '/' :: rest => ("/", String.ofList rest)
  | _ => ("", text)

/-- The segments of a path that `pathlib` keeps. -/
def segments (text : String) : List String :=
  (Text.split '/' text).filter fun segment => segment != "" && segment != "."

/-- `Path(text).parts`. -/
def parts (text : String) : List String :=
  let root := (splitRoot text).1
  if root = "" then segments (splitRoot text).2 else root :: segments (splitRoot text).2

/-- The spelling of a root and segments. -/
def spelledParts (root : String) (kept : List String) : String :=
  if root = "" ∧ kept = [] then "." else root ++ Text.join '/' kept

/-- `str(Path(text))`. -/
def spelled (text : String) : String :=
  spelledParts (splitRoot text).1 (segments (splitRoot text).2)

/-- `str(Path(directory) / name)` of a relative name. -/
def spelledIn (directory name : String) : String :=
  spelled (if directory = "" ∨ directory.toList.getLast? = some '/' then directory ++ name
    else directory ++ "/" ++ name)

/-- `str(Path(text).expanduser())`, `none` when it raises. `home` is `posixpath.expanduser` of a
segment that begins with a tilde, which leaves one it knows no home directory for as it is. -/
def expanduser (home : String → String) (text : String) : Option String :=
  match segments (splitRoot text).2 with
  | [] => some (spelled text)
  | first :: rest =>
    if (splitRoot text).1 = "" ∧ startsWith "~" first = true then
      let directory := home first
      if startsWith "~" directory then none
      else some (spelledParts (splitRoot directory).1 (segments (splitRoot directory).2 ++ rest))
    else some (spelled text)

/-- A path of segments: it has no empty one. -/
def Segmented (path : String) : Prop :=
  "" ∉ Text.split '/' path

/-- A path is a directory or lies under it. -/
def Within (directory path : String) : Prop :=
  path = directory ∨ startsWith (directory ++ "/") path = true

instance (directory path : String) : Decidable (Within directory path) :=
  inferInstanceAs (Decidable (_ ∨ _))

theorem startsWith_iff {opening text : String} :
    startsWith opening text = true ↔ opening.toList <+: text.toList := by
  rw [startsWith, List.isPrefixOf_iff_prefix]

theorem forwardSlashes_of_not_mem {text : String} (forward : '\\' ∉ text.toList) :
    forwardSlashes text = text := by
  have same : ∀ character ∈ text.toList,
      (if character = '\\' then '/' else character) = id character := by
    intro character member
    rw [if_neg]
    · rfl
    · rintro rfl
      exact forward member
  rw [forwardSlashes, List.map_congr_left same, List.map_id, String.ofList_toList]

theorem rstripSlashes_of_getLast {text : String} (last : text.toList.getLast? ≠ some '/') :
    rstripSlashes text = text := by
  have kept : text.toList.rdropWhile (· == '/') = text.toList := by
    rw [List.rdropWhile_eq_self_iff]
    intro nonempty slash
    refine last ?_
    rw [List.getLast?_eq_some_getLast nonempty, Option.some_inj]
    simpa using slash
  rw [rstripSlashes, kept, String.ofList_toList]

theorem startsWith_slash_iff {directory path : String} :
    startsWith (directory ++ "/") path = true ↔
      ∃ rest, path.toList = directory.toList ++ '/' :: rest := by
  rw [startsWith_iff, String.toList_append]
  constructor
  · rintro ⟨rest, whole⟩
    exact ⟨rest, by rw [← whole, List.append_assoc]; rfl⟩
  · rintro ⟨rest, whole⟩
    exact ⟨rest, by rw [whole, List.append_assoc]; rfl⟩

/-! ### Paths of segments -/

theorem Segmented.split_at {path before after : String} (segmented : Segmented path)
    (whole : path.toList = before.toList ++ '/' :: after.toList) :
    Segmented before ∧ Segmented after := by
  have parts : Text.split '/' path = Text.split '/' before ++ Text.split '/' after := by
    rw [Text.split, whole, List.splitOn_append_cons_self, List.map_append]
    rfl
  rw [Segmented, parts, List.mem_append, not_or] at segmented
  exact segmented

theorem not_segmented_empty : ¬Segmented "" := by
  intro segmented
  exact segmented (by simp [Text.split])

theorem Segmented.getLast_ne {path : String} (segmented : Segmented path) :
    path.toList.getLast? ≠ some '/' := by
  intro last
  obtain ⟨before, whole⟩ := List.getLast?_eq_some_iff.mp last
  have parts := @Segmented.split_at path (String.ofList before) "" segmented
    (by rw [whole, String.toList_ofList]; rfl)
  exact not_segmented_empty parts.2

/-- The directories of a path of segments are paths of segments. -/
theorem Segmented.of_within {directory path : String} (segmented : Segmented path)
    (within : Within directory path) : Segmented directory := by
  rcases within with rfl | opens
  · exact segmented
  · obtain ⟨rest, whole⟩ := startsWith_slash_iff.mp opens
    exact (@Segmented.split_at path directory (String.ofList rest) segmented
      (by rw [whole, String.toList_ofList])).1

/-- A path of segments lies under a directory as it is written exactly when it lies under the
directory without its trailing slashes and the directory has none. -/
theorem Segmented.within_iff {directory path : String} (segmented : Segmented path) :
    Within directory path ↔
      Within (rstripSlashes directory) path ∧ rstripSlashes directory = directory := by
  constructor
  · intro within
    have bare := rstripSlashes_of_getLast (segmented.of_within within).getLast_ne
    exact ⟨by rwa [bare], bare⟩
  · rintro ⟨within, bare⟩
    rwa [bare] at within

theorem segments_ne {text segment : String} (member : segment ∈ segments text) :
    segment ≠ "" ∧ segment ∈ Text.split '/' text := by
  obtain ⟨inside, kept⟩ := List.mem_filter.mp member
  simp only [Bool.and_eq_true, bne_iff_ne] at kept
  exact ⟨kept.1, inside⟩

theorem splitRoot_of_relative {text : String} (relative : text.toList.head? ≠ some '/') :
    splitRoot text = ("", text) := by
  unfold splitRoot
  split
  · rename_i opening
    rw [opening] at relative
    exact absurd rfl relative
  · rename_i opening
    rw [opening] at relative
    exact absurd rfl relative
  · rename_i opening
    rw [opening] at relative
    exact absurd rfl relative
  · rfl

/-- The spelling of a relative path has no empty segment. -/
theorem segmented_spelled {text : String} (relative : text.toList.head? ≠ some '/') :
    Segmented (spelled text) := by
  rw [spelled, spelledParts, splitRoot_of_relative relative]
  split
  · simp [Segmented, Text.split, List.splitOn_eq_singleton]
  · rename_i some_kept
    have nonempty : segments text ≠ [] := by simpa using some_kept
    show Segmented ("" ++ Text.join '/' (segments text))
    rw [String.empty_append, Segmented, Text.split_join '/' _ nonempty fun segment member =>
      Text.not_mem_of_mem_split (segments_ne member).2]
    exact fun member => (segments_ne member).1 rfl

/-- The spelling of a path has no character of its own but slashes and dots. -/
theorem mem_spelled {text : String} {character : Char} (relative : text.toList.head? ≠ some '/')
    (member : character ∈ (spelled text).toList) :
    character ∈ text.toList ∨ character = '/' ∨ character = '.' := by
  rw [spelled, spelledParts, splitRoot_of_relative relative] at member
  split at member
  · exact Or.inr (Or.inr (by simpa using member))
  · rw [String.empty_append] at member
    rcases Text.mem_join member with rfl | ⟨segment, inside, here⟩
    · exact Or.inr (Or.inl rfl)
    · exact Or.inl (Text.mem_of_mem_split (segments_ne inside).2 here)

/-! ### Directories of one path -/

theorem length_lt_of_startsWith {directory path : String}
    (opens : startsWith (directory ++ "/") path = true) : directory.length < path.length := by
  obtain ⟨rest, whole⟩ := startsWith_slash_iff.mp opens
  have lengths := congrArg List.length whole
  rw [List.length_append, List.length_cons] at lengths
  rw [← String.length_toList, ← String.length_toList]
  omega

/-- Of two directories a path lies under, the shorter one is the longer one or holds it. -/
theorem within_of_length_le {first second path : String} (underFirst : Within first path)
    (underSecond : Within second path) (shorter : first.length ≤ second.length) :
    Within first second := by
  rcases underFirst with rfl | opensFirst
  · rcases underSecond with rfl | opensSecond
    · exact Or.inl rfl
    · exact absurd (length_lt_of_startsWith opensSecond) (Nat.not_lt.mpr shorter)
  · rcases underSecond with rfl | opensSecond
    · exact Or.inr opensFirst
    · obtain ⟨rest, whole⟩ := startsWith_slash_iff.mp opensSecond
      obtain ⟨other, same⟩ := startsWith_slash_iff.mp opensFirst
      rcases shorter.lt_or_eq with strictly | equal
      · right
        rw [startsWith_iff] at opensFirst ⊢
        refine List.prefix_of_prefix_length_le opensFirst ⟨'/' :: rest, whole.symm⟩ ?_
        rw [String.length_toList, String.length_toList, String.length_append]
        exact strictly
      · left
        rw [whole, ← String.length_toList, ← String.length_toList] at *
        exact (String.toList_inj.mp (List.append_inj same equal.symm).1)

end PosixPath
