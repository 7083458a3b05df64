/-
This file proves when the cards of a harvest get files of their own. A card is written to
the slug of its story, which replaces every character outside the identifier charset and
keeps 120 of them, so two stories whose slugs agree are written to one file, and the later
card takes the place of the earlier. Each story has a file with its card exactly when the
stories have slugs of their own.
-/

import FleetMemory.HarvestPartition
import Mathlib.Data.Set.Card

namespace FleetMemory

/-! ### What is asked of the files -/

/-- The texts that stand in an empty directory once the cards are written. -/
def cardTexts (runtime : Runtime) (cards : List StoryCard) (name : String) : Option String :=
  writeStoryCards runtime cards (fun _ => none) name

/-- The stories the episodes tell. -/
def storiesOf (runtime : Runtime) (episodes : List HarvestedEpisode) : Set String :=
  {story | ∃ episode ∈ episodes, episode.Tells runtime story}

/-- There is exactly one file for each story, and it holds the story's card. -/
def OneFilePerStory (runtime : Runtime) (episodes : List HarvestedEpisode)
    (cards : List StoryCard) : Prop :=
  ∃ fileOf : String → String,
    Set.BijOn fileOf (storiesOf runtime episodes) {name | (cardTexts runtime cards name).isSome} ∧
      ∀ card ∈ cards, cardTexts runtime cards (fileOf card.storyKey) =
        some (card.renderMarkdown runtime)

section

variable {runtime : Runtime} {publicProjects : List String} {episodes : List HarvestedEpisode}
  {result : HarvestResult}

/-- The file of a story's card. -/
def storyFile (story : String) : String :=
  slug story ++ ".md"

theorem storyFile_inj {one two : String} : storyFile one = storyFile two ↔ slug one = slug two :=
  String.append_left_inj ".md"

theorem finite_storiesOf : (storiesOf runtime episodes).Finite := by
  refine (List.finite_toSet (episodes.filterMap (HarvestedEpisode.story? runtime))).subset ?_
  rintro story ⟨episode, member, tells⟩
  exact List.mem_filterMap.mpr ⟨episode, member, HarvestedEpisode.story?_eq_some.mpr tells⟩

/-- The files written are those of the stories. -/
theorem files_eq_image
    (returned : harvest runtime publicProjects episodes = .ok result) :
    {name | (cardTexts runtime result.storyCards name).isSome} =
      storyFile '' storiesOf runtime episodes := by
  have harvested := harvested returned
  ext name
  rw [Set.mem_ofPred_eq, cardTexts]
  constructor
  · intro present
    obtain ⟨text, found⟩ := Option.isSome_iff_exists.mp present
    rcases writeStoryCards_eq_some found with ⟨card, member, named, -⟩ | ⟨impossible, _⟩
    · obtain ⟨slugged, told⟩ := harvested.told card member
      refine ⟨card.storyKey, told, ?_⟩
      rw [← named, StoryCard.fileName, slugged]
      rfl
    · cases impossible
  · rintro ⟨story, ⟨episode, member, tells⟩, rfl⟩
    obtain ⟨card, carded, told⟩ := harvested.carded episode member
    obtain rfl := told.unique tells
    rw [show storyFile card.storyKey = card.fileName by
      rw [StoryCard.fileName, (harvested.told card carded).1]; rfl]
    exact isSome_writeStoryCards carded

/-- Stories with slugs of their own have files of their own. -/
theorem oneFilePerStory_of_injOn
    (returned : harvest runtime publicProjects episodes = .ok result)
    (apart : Set.InjOn slug (storiesOf runtime episodes)) :
    OneFilePerStory runtime episodes result.storyCards := by
  have harvested := harvested returned
  refine ⟨storyFile, ⟨?_, ?_, ?_⟩, fun card carded => ?_⟩
  · rw [files_eq_image returned]
    exact Set.mapsTo_image _ _
  · exact fun one first two second same => apart first second (storyFile_inj.mp same)
  · rw [files_eq_image returned]
    exact Set.surjOn_image _ _
  · obtain ⟨slugged, told⟩ := harvested.told card carded
    have named : storyFile card.storyKey = card.fileName := by
      rw [StoryCard.fileName, slugged]
      rfl
    rw [cardTexts, named]
    refine writeStoryCards_of_mem carded fun other otherCarded same => ?_
    obtain ⟨otherSlugged, otherTold⟩ := harvested.told other otherCarded
    refine harvested.unique other otherCarded card carded (apart otherTold told ?_)
    rw [← slugged, ← otherSlugged]
    exact (String.append_left_inj ".md").mp same

/-- Files of their own need slugs of their own: a slug that two stories share makes one file too
few. -/
theorem injOn_of_oneFilePerStory
    (returned : harvest runtime publicProjects episodes = .ok result)
    (oneFile : OneFilePerStory runtime episodes result.storyCards) :
    Set.InjOn slug (storiesOf runtime episodes) := by
  obtain ⟨fileOf, bijective, _⟩ := oneFile
  have count : (storyFile '' storiesOf runtime episodes).encard =
      (storiesOf runtime episodes).encard := by
    rw [← files_eq_image returned, ← bijective.image_eq, bijective.injOn.encard_image]
  have apart := finite_storiesOf.injOn_of_encard_image_eq count
  exact fun one first two second same => apart first second (storyFile_inj.mpr same)

end

/-- Each story of a harvest has a file with its card exactly when the stories have slugs of their
own. -/
theorem oneFilePerStory_iff {runtime : Runtime} {publicProjects : List String}
    {episodes : List HarvestedEpisode} {result : HarvestResult}
    (returned : harvest runtime publicProjects episodes = .ok result) :
    OneFilePerStory runtime episodes result.storyCards ↔
      Set.InjOn slug (storiesOf runtime episodes) :=
  ⟨injOn_of_oneFilePerStory returned, oneFilePerStory_of_injOn returned⟩

/-! ### Two tasks with one slug -/

section Sample

/-- The retro of a build of a task. -/
def taskEpisode (task : String) : HarvestedEpisode where
  project := "fleet"
  payloadType := "build_outcome"
  naturalKey := "build_outcome:fleet:b1"
  identifier := "b1"
  payload := .dict [("status", .str "success"), ("task_id", .str task)]
  sourceRef := none
  occurredAt := none
  name := none
  source := none

def cardRuntime : Runtime := .ofTables [] [] []

theorem tells_taskEpisode_one : (taskEpisode "TASK-1").Tells cardRuntime "TASK-1" := rfl

theorem tells_taskEpisode_two : (taskEpisode "TASK_1").Tells cardRuntime "TASK_1" := rfl

theorem harvest_taskEpisodes : ∃ result,
    harvest cardRuntime [] [taskEpisode "TASK-1", taskEpisode "TASK_1"] = .ok result :=
  ⟨_, rfl⟩

/-- One task has its file. -/
theorem oneFilePerStory_iff_one_task :
    ∃ result, harvest cardRuntime [] [taskEpisode "TASK-1"] = .ok result ∧
      (OneFilePerStory cardRuntime [taskEpisode "TASK-1"] result.storyCards ↔
        Set.InjOn slug (storiesOf cardRuntime [taskEpisode "TASK-1"])) :=
  ⟨_, rfl, oneFilePerStory_iff rfl⟩

/-- The cards of two tasks that differ in a hyphen are written to one file. -/
theorem two_tasks_one_file :
    ∃ result, harvest cardRuntime [] [taskEpisode "TASK-1", taskEpisode "TASK_1"] = .ok result ∧
      ¬OneFilePerStory cardRuntime [taskEpisode "TASK-1", taskEpisode "TASK_1"]
        result.storyCards := by
  obtain ⟨result, returned⟩ := harvest_taskEpisodes
  refine ⟨result, returned, fun oneFile => ?_⟩
  have apart := injOn_of_oneFilePerStory returned oneFile
  have same : slug "TASK-1" = slug "TASK_1" := by decide +kernel
  have equal : "TASK-1" = "TASK_1" := apart ⟨_, by simp, tells_taskEpisode_one⟩
    ⟨_, by simp, tells_taskEpisode_two⟩ same
  exact absurd equal (by decide)

end Sample

end FleetMemory
