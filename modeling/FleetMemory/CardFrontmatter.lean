/-
This file proves what the front matter of a rendered card says. The story key and the
project of a card are written into it as they are, so their lines after the first become
lines of the block. The block says what the card says exactly when none of these lines
reads as a confidentiality, as a published flag or as the end of the block, or when those
before the first that ends the block say it already.
-/

import FleetMemory.StoryCardFiles

namespace FleetMemory

/-! ### Reading a block -/

/-- The lines between the first line of dashes and the next. -/
def frontmatterLines (text : String) : List String :=
  ((Text.split '\n' text).dropWhile (· != "---")).tail.takeWhile (· != "---")

/-- The characters in front of a comment, which opens with a number sign behind a space. -/
def beforeComment : List Char → List Char
  | ' ' :: '#' :: _ => []
  | character :: rest => character :: beforeComment rest
  | [] => []

/-- The value of a line that pairs the name with one. -/
def pairValue? (name line : String) : Option String :=
  if (name ++ ": ").toList.isPrefixOf line.toList then
    some (Text.strip (String.ofList (beforeComment (line.toList.drop (name ++ ": ").length))))
  else none

/-- The values a block pairs with a name. -/
def valuesOf (name : String) (block : List String) : List String :=
  block.filterMap (pairValue? name)

/-- The block states the confidentiality once, that nothing is published once, and the number of
the episodes. -/
structure States (flag : String) (count : Nat) (block : List String) : Prop where
  confidentiality : valuesOf "confidentiality" block = [flag]
  published : valuesOf "published" block = ["false"]
  episodeCount : toString count ∈ valuesOf "episode_count" block

/-- The lines of a story key and a project that do not stand behind the name of their field. -/
def strayLines (storyKey project : String) : List String :=
  (Text.split '\n' storyKey).tail ++ (Text.split '\n' project).tail

theorem states_iff {flag : String} {count : Nat} {block : List String} :
    States flag count block ↔ valuesOf "confidentiality" block = [flag] ∧
      valuesOf "published" block = ["false"] ∧ toString count ∈ valuesOf "episode_count" block :=
  ⟨fun states => ⟨states.confidentiality, states.published, states.episodeCount⟩,
    fun ⟨confidentiality, published, episodeCount⟩ => ⟨confidentiality, published, episodeCount⟩⟩

/-- The stray lines leave the block as it is, or end it where it states what the card says. -/
structure Honest (flag : String) (count : Nat) (stray : List String) : Prop where
  ends : "---" ∈ stray → States flag count (stray.takeWhile (· != "---"))
  goesOn : "---" ∉ stray → valuesOf "confidentiality" stray = [] ∧ valuesOf "published" stray = []

/-! ### The lines of a card -/

section

variable {runtime : Runtime} {card : StoryCard}

/-- The line of the human gate. -/
def humanGateLine : String :=
  "published: false  # human gate (DF-008): nothing publishes unattended"

/-- The lines of a card that follow the project. -/
def fixedLines (flag : String) (count : Nat) : List String :=
  ["confidentiality: " ++ flag, humanGateLine, "source: " ++ flywheelSource, "episode_count: " ++ toString count]

theorem intercalate_eq_join (parts : List String) :
    String.intercalate "\n" parts = Text.join '\n' parts := by
  apply String.toList_injective
  rw [Text.join, String.toList_ofList]
  exact String.toList_intercalate

/-- The lines of a card open with its front matter. -/
theorem split_renderMarkdown (runtime : Runtime) (card : StoryCard) :
    ∃ rest, Text.split '\n' (card.renderMarkdown runtime) =
      "---" :: ("story_key: " ++ (Text.split '\n' card.storyKey).headD "") ::
        (Text.split '\n' card.storyKey).tail ++
        ("project: " ++ (Text.split '\n' card.project).headD "") ::
        (Text.split '\n' card.project).tail ++
        fixedLines card.confidentiality.flag card.episodes.length ++ "---" :: rest := by
  have free (text : String) (fixed : '\n' ∉ text.toList) : Text.split '\n' text = [text] := by
    rw [Text.split, List.splitOn_eq_singleton fixed, List.map_singleton, String.ofList_toList]
  have flagFree : '\n' ∉ ("confidentiality: " ++ card.confidentiality.flag).toList := by
    cases card.confidentiality <;> decide
  have countFree : '\n' ∉ ("episode_count: " ++ toString card.episodes.length).toList := by
    rw [String.toList_append, List.mem_append]
    rintro (named | digits)
    · exact absurd named (by decide)
    · exact absurd (Text.isDigit_of_mem_numeral digits) (by decide)
  have gate : Text.split '\n' "published: false  # human gate (DF-008): nothing publishes unattended" =
      [humanGateLine] := free humanGateLine (by decide)
  rw [StoryCard.renderMarkdown, intercalate_eq_join, Text.split_join_flatMap '\n' (by simp)]
  simp only [List.cons_append, List.flatMap_cons, List.nil_append]
  rw [free "---" (by decide), free _ flagFree, gate,
    free ("source: " ++ flywheelSource) (by decide), List.length_mergeSort, free _ countFree,
    Text.split_append_of_free (by decide), Text.split_append_of_free (by decide)]
  simp only [fixedLines, List.cons_append, List.append_assoc, List.nil_append]
  exact ⟨_, rfl⟩

/-! ### The values of a block -/

/-- A line whose field is another has no value for the name. -/
theorem pairValue?_eq_none {name field text : String}
    (apart : ∀ rest, (name ++ ": ").toList.isPrefixOf (field.toList ++ rest) = false) :
    pairValue? name (field ++ text) = none := by
  rw [pairValue?, @String.toList_append field text, apart, if_neg (by decide)]

/-- A line of the field has what follows for its value, if that holds no blank and no comment. -/
theorem pairValue?_append {name text : String}
    (solid : ∀ character ∈ text.toList, Text.isSpace character = false) :
    pairValue? name (name ++ ": " ++ text) = some text := by
  have whole : beforeComment text.toList = text.toList := by
    generalize text.toList = characters at solid
    induction characters with
    | nil => rfl
    | cons character rest inductionHypothesis =>
      have later := inductionHypothesis fun other member => solid other (List.mem_cons_of_mem _ member)
      unfold beforeComment
      split
      · rename_i same
        obtain ⟨rfl, _⟩ := List.cons.inj same
        exact absurd (solid ' ' List.mem_cons_self) (by decide)
      · rename_i same
        obtain ⟨rfl, rfl⟩ := List.cons.inj same
        rw [later]
      · rename_i impossible
        cases impossible
  have opens : (name ++ ": ").toList.isPrefixOf (name ++ ": " ++ text).toList = true := by
    rw [@String.toList_append (name ++ ": ") text, List.isPrefixOf_iff_prefix]
    exact List.prefix_append _ _
  rw [pairValue?, if_pos opens, @String.toList_append (name ++ ": ") text,
    ← String.length_toList, List.drop_left, whole, String.ofList_toList,
    Text.strip_of_padded solid (Text.padded_self text)]

theorem valuesOf_append (name : String) (first second : List String) :
    valuesOf name (first ++ second) = valuesOf name first ++ valuesOf name second :=
  List.filterMap_append

/-- A line that neither ends the block nor has a value makes no difference. -/
theorem valuesOf_takeWhile_inert {name line : String} (goesOn : line ≠ "---")
    (inert : pairValue? name line = none) (before after : List String) :
    valuesOf name ((before ++ line :: after).takeWhile (· != "---")) =
      valuesOf name ((before ++ after).takeWhile (· != "---")) := by
  induction before with
  | nil =>
    rw [List.nil_append, List.nil_append, List.takeWhile_cons_of_pos (by simpa using goesOn),
      valuesOf, List.filterMap_cons_none inert]
    rfl
  | cons first rest inductionHypothesis =>
    rw [List.cons_append, List.cons_append, List.takeWhile_cons, List.takeWhile_cons]
    split
    · unfold valuesOf at inductionHypothesis ⊢
      rw [List.filterMap_cons, List.filterMap_cons, inductionHypothesis]
    · rfl

/-- A line that opens with a field is no line of dashes. -/
theorem ne_dashes_of_field {field text : String}
    (opens : ∃ character, field.toList.head? = some character ∧ character ≠ '-') :
    field ++ text ≠ "---" := by
  intro same
  obtain ⟨character, head, different⟩ := opens
  have first := congrArg (fun line : String => line.toList.head?) same
  rw [String.toList_append, List.head?_append, head] at first
  exact different (Option.some.inj first)

/-- A name that is neither that of the story key nor that of the project. -/
structure OtherField (name : String) : Prop where
  storyKey : ∀ rest, (name ++ ": ").toList.isPrefixOf ("story_key: ".toList ++ rest) = false
  project : ∀ rest, (name ++ ": ").toList.isPrefixOf ("project: ".toList ++ rest) = false

/-- The front matter of a card has the values of its stray lines and its fixed lines, up to the
first line that ends the block. -/
theorem valuesOf_frontmatterLines {name : String} (other : OtherField name) (runtime : Runtime)
    (card : StoryCard) :
    ∃ rest, valuesOf name (frontmatterLines (card.renderMarkdown runtime)) =
      valuesOf name ((strayLines card.storyKey card.project ++
        (fixedLines card.confidentiality.flag card.episodes.length ++ "---" :: rest)).takeWhile
          (· != "---")) := by
  obtain ⟨rest, lines⟩ := split_renderMarkdown runtime card
  refine ⟨rest, ?_⟩
  rw [frontmatterLines, lines, strayLines]
  simp only [List.cons_append, List.append_assoc]
  rw [List.dropWhile_cons_of_neg (by decide), List.tail_cons, ← List.nil_append (_ :: _),
    valuesOf_takeWhile_inert (ne_dashes_of_field ⟨_, rfl, by decide⟩) (pairValue?_eq_none other.storyKey),
    List.nil_append, valuesOf_takeWhile_inert (ne_dashes_of_field ⟨_, rfl, by decide⟩) (pairValue?_eq_none other.project)]

/-- The block ends at the first stray line of dashes, or behind the fixed lines. -/
theorem takeWhile_card {stray fixed rest : List String} (goesOn : ∀ line ∈ fixed, line ≠ "---") :
    (stray ++ (fixed ++ "---" :: rest)).takeWhile (· != "---") =
      if "---" ∈ stray then stray.takeWhile (· != "---") else stray ++ fixed := by
  split
  · rename_i ends
    obtain ⟨before, after, rfl⟩ := List.append_of_mem ends
    have stops (more : List String) :
        (before ++ "---" :: more).takeWhile (· != "---") = before.takeWhile (· != "---") := by
      rw [List.takeWhile_append, List.takeWhile_cons_of_neg (by decide), List.append_nil]
      split
      · rename_i whole
        exact (List.IsPrefix.eq_of_length (List.takeWhile_prefix _) whole).symm
      · rfl
    rw [List.append_assoc, List.cons_append, stops, stops]
  · rename_i free
    rw [← List.append_assoc, List.takeWhile_append_of_pos, List.takeWhile_cons_of_neg (by decide),
      List.append_nil]
    intro line member
    rcases List.mem_append.mp member with inside | inside
    · exact bne_iff_ne.mpr fun same => free (same ▸ inside)
    · exact bne_iff_ne.mpr (goesOn line inside)

theorem otherField_confidentiality : OtherField "confidentiality" :=
  ⟨fun _ => rfl, fun _ => rfl⟩

theorem otherField_published : OtherField "published" :=
  ⟨fun _ => rfl, fun _ => rfl⟩

theorem otherField_episodeCount : OtherField "episode_count" :=
  ⟨fun _ => rfl, fun _ => rfl⟩

/-- The fixed lines of a card state what the card says. -/
theorem states_fixedLines (confidentiality : Confidentiality) (count : Nat) :
    States confidentiality.flag count (fixedLines confidentiality.flag count) := by
  have counted : pairValue? "episode_count" ("episode_count: " ++ toString count) =
      some (toString count) :=
    @pairValue?_append "episode_count" (toString count) fun character member =>
      Text.isSpace_of_mem_numeral member
  have another {name : String} (apart : ∀ rest,
      (name ++ ": ").toList.isPrefixOf ("episode_count: ".toList ++ rest) = false) :
      pairValue? name ("episode_count: " ++ toString count) = none :=
    pairValue?_eq_none apart
  have single (flag : String) : fixedLines flag count =
      ["confidentiality: " ++ flag, humanGateLine, "source: " ++ flywheelSource] ++
        ["episode_count: " ++ toString count] := rfl
  refine ⟨?_, ?_, ?_⟩
  · rw [single, valuesOf, List.filterMap_append, List.filterMap_cons_none (another fun _ => rfl)]
    cases confidentiality <;> decide
  · rw [single, valuesOf, List.filterMap_append, List.filterMap_cons_none (another fun _ => rfl)]
    cases confidentiality <;> decide
  · rw [valuesOf]
    exact List.mem_filterMap.mpr ⟨_, by simp [fixedLines], counted⟩

/-- The values of a card's front matter: those of the stray lines, if they end the block, and
otherwise those of the stray and the fixed lines. -/
theorem valuesOf_card {name : String} (other : OtherField name) (runtime : Runtime)
    (card : StoryCard) :
    valuesOf name (frontmatterLines (card.renderMarkdown runtime)) =
      valuesOf name (if "---" ∈ strayLines card.storyKey card.project then
        (strayLines card.storyKey card.project).takeWhile (· != "---")
      else strayLines card.storyKey card.project ++
        fixedLines card.confidentiality.flag card.episodes.length) := by
  obtain ⟨rest, block⟩ := valuesOf_frontmatterLines other runtime card
  rw [block, takeWhile_card]
  intro line member
  simp only [fixedLines, List.mem_cons, List.not_mem_nil, or_false] at member
  rcases member with rfl | rfl | rfl | rfl
  · cases card.confidentiality <;> decide
  · decide
  · decide
  · exact ne_dashes_of_field ⟨_, rfl, by decide⟩

/-- The front matter of a card states what the card says exactly when its stray lines are honest. -/
theorem states_renderMarkdown_iff (runtime : Runtime) (card : StoryCard) :
    States card.confidentiality.flag card.episodes.length
        (frontmatterLines (card.renderMarkdown runtime)) ↔
      Honest card.confidentiality.flag card.episodes.length
        (strayLines card.storyKey card.project) := by
  have confidentiality := valuesOf_card otherField_confidentiality runtime card
  have published := valuesOf_card otherField_published runtime card
  have episodeCount := valuesOf_card otherField_episodeCount runtime card
  obtain ⟨flagged, gated, counted⟩ := states_fixedLines card.confidentiality card.episodes.length
  by_cases ends : "---" ∈ strayLines card.storyKey card.project
  · rw [if_pos ends] at confidentiality published episodeCount
    rw [states_iff, confidentiality, published, episodeCount, ← states_iff]
    exact ⟨fun states => ⟨fun _ => states, fun goesOn => absurd ends goesOn⟩,
      fun honest => honest.ends ends⟩
  · rw [if_neg ends, valuesOf_append] at confidentiality published episodeCount
    rw [flagged] at confidentiality
    rw [gated] at published
    rw [states_iff, confidentiality, published, episodeCount, List.append_left_eq_self,
      List.append_left_eq_self]
    constructor
    · rintro ⟨noFlag, noGate, _⟩
      exact ⟨fun impossible => absurd impossible ends, fun _ => ⟨noFlag, noGate⟩⟩
    · rintro honest
      obtain ⟨noFlag, noGate⟩ := honest.goesOn ends
      exact ⟨noFlag, noGate, List.mem_append_right _ counted⟩

end

/-- The text of a card's file has a line in its front matter that says public. -/
def SaysPublic (text : String) : Prop :=
  "public" ∈ valuesOf "confidentiality" (frontmatterLines text)

/-- A stray line within the block says public. -/
def ForgesPublic (stray : List String) : Prop :=
  "public" ∈ valuesOf "confidentiality" (stray.takeWhile (· != "---"))

/-- A card's file says public when a stray line does, or when the card is public and no stray line
ends the block before it says so. -/
theorem saysPublic_renderMarkdown_iff (runtime : Runtime) (card : StoryCard) :
    SaysPublic (card.renderMarkdown runtime) ↔
      ForgesPublic (strayLines card.storyKey card.project) ∨
        "---" ∉ strayLines card.storyKey card.project ∧
          card.confidentiality = .nonConfidential := by
  have flagged := (states_fixedLines card.confidentiality card.episodes.length).confidentiality
  have open_ : "public" ∈ [card.confidentiality.flag] ↔ card.confidentiality = .nonConfidential := by
    cases card.confidentiality <;> decide
  rw [SaysPublic, valuesOf_card otherField_confidentiality, ForgesPublic]
  split
  · rename_i ends
    exact (or_iff_left fun goesOn => goesOn.1 ends).symm
  · rename_i goesOn
    have whole : (strayLines card.storyKey card.project).takeWhile (· != "---") =
        strayLines card.storyKey card.project := by
      refine List.takeWhile_eq_self_iff.mpr fun line member => bne_iff_ne.mpr ?_
      rintro rfl
      exact goesOn member
    rw [whole, valuesOf_append, flagged, List.mem_append, open_, and_iff_right goesOn]

example : ForgesPublic (strayLines "T\nconfidentiality: public\n---" "client") := by
  unfold ForgesPublic
  decide

/-! ### The cards of a harvest -/

section

variable {runtime : Runtime} {publicProjects : List String} {episodes : List HarvestedEpisode}

/-- The episodes of a story. -/
def episodesOf (runtime : Runtime) (episodes : List HarvestedEpisode) (story : String) :
    List HarvestedEpisode :=
  episodes.filter fun episode => episode.story? runtime = some story

/-- The confidentiality of a story with these episodes. -/
def confidentialityOfAll (publicProjects : List String) (episodes : List HarvestedEpisode) :
    Confidentiality :=
  if ∀ episode ∈ episodes, episode.project ∈ publicProjects then .nonConfidential
  else .confidential

/-- The cards of a harvest are made of the stories, their episodes and the projects of these. -/
theorem card_of_harvest {result : HarvestResult}
    (ran : harvest runtime publicProjects episodes = .ok result) {card : StoryCard}
    (member : card ∈ result.storyCards) :
    card.episodes = episodesOf runtime episodes card.storyKey ∧
      card.confidentiality = confidentialityOfAll publicProjects
        (episodesOf runtime episodes card.storyKey) ∧
      ∃ first others, episodesOf runtime episodes card.storyKey = first :: others ∧
        card.project = first.project := by
  have partitions := partitions_of_harvest ran
  have own : card.episodes = episodesOf runtime episodes card.storyKey :=
    partitions.own card member
  refine ⟨own, ?_, own ▸ project_of_harvest ran member⟩
  have classified := partitions.nonConfidential card member
  rw [own] at classified
  rw [confidentialityOfAll]
  split
  · rename_i allPublic
    exact classified.mpr allPublic
  · rename_i notAll
    cases flag : card.confidentiality with
    | confidential => rfl
    | nonConfidential => exact absurd (classified.mp flag) notAll

/-- A story with an episode has a card. -/
theorem exists_card_of_story {result : HarvestResult}
    (ran : harvest runtime publicProjects episodes = .ok result) {story : String}
    {first : HarvestedEpisode} {others : List HarvestedEpisode}
    (own : episodesOf runtime episodes story = first :: others) :
    ∃ card ∈ result.storyCards, card.storyKey = story := by
  have inside : first ∈ episodesOf runtime episodes story := own ▸ List.mem_cons_self
  obtain ⟨member, told⟩ := List.mem_filter.mp inside
  obtain ⟨card, carded, tells⟩ := (harvested ran).carded first member
  exact ⟨card, carded, tells.unique
    (HarvestedEpisode.story?_eq_some.mp (of_decide_eq_true told))⟩

/-- Cards whose front matter states what they say have honest stray lines. -/
theorem honest_of_states {result : HarvestResult}
    (ran : harvest runtime publicProjects episodes = .ok result)
    (states : ∀ card ∈ result.storyCards, States card.confidentiality.flag card.episodes.length
      (frontmatterLines (card.renderMarkdown runtime))) {story : String}
    {first : HarvestedEpisode} {others : List HarvestedEpisode}
    (own : episodesOf runtime episodes story = first :: others) :
    Honest (confidentialityOfAll publicProjects (first :: others)).flag (first :: others).length
      (strayLines story first.project) := by
  obtain ⟨card, member, rfl⟩ := exists_card_of_story ran own
  obtain ⟨episodes, flag, _, _, same, project⟩ := card_of_harvest ran member
  rw [own] at same episodes flag
  obtain ⟨rfl, rfl⟩ := List.cons.inj same
  rw [← project, ← flag, ← episodes]
  exact (states_renderMarkdown_iff runtime card).mp (states card member)

end

/-- The front matter of every card of a harvest states what the card says exactly when the stray
lines of each story's key and first project are honest. -/
theorem cards_unforged_iff {runtime : Runtime} {publicProjects : List String}
    {episodes : List HarvestedEpisode} {result : HarvestResult}
    (ran : harvest runtime publicProjects episodes = .ok result) :
    (∀ card ∈ result.storyCards, States card.confidentiality.flag card.episodes.length
        (frontmatterLines (card.renderMarkdown runtime))) ↔
      ∀ story first others, episodesOf runtime episodes story = first :: others →
        Honest (confidentialityOfAll publicProjects (first :: others)).flag
          (first :: others).length (strayLines story first.project) := by
  constructor
  · intro states story first others own
    exact honest_of_states ran states own
  · intro honest card member
    obtain ⟨episodes, flag, first, others, own, project⟩ := card_of_harvest ran member
    have here := honest card.storyKey first others own
    rw [own] at episodes flag
    rw [← project, ← flag, ← episodes] at here
    exact (states_renderMarkdown_iff runtime card).mpr here

section Sample

theorem honest_of_no_stray (flag : String) (count : Nat) : Honest flag count [] :=
  ⟨fun impossible => absurd impossible List.not_mem_nil, fun _ => ⟨rfl, rfl⟩⟩

theorem episodesOf_taskEpisode {task story : String} {first : HarvestedEpisode}
    {others : List HarvestedEpisode} (tells : (taskEpisode task).Tells cardRuntime task)
    (own : episodesOf cardRuntime [taskEpisode task] story = first :: others) :
    story = task ∧ first = taskEpisode task ∧ others = [] := by
  have inside : first ∈ episodesOf cardRuntime [taskEpisode task] story := own ▸ List.mem_cons_self
  obtain ⟨member, told⟩ := List.mem_filter.mp inside
  obtain rfl := List.mem_singleton.mp member
  have told := HarvestedEpisode.story?_eq_some.mp (of_decide_eq_true told)
  have few : (episodesOf cardRuntime [taskEpisode task] story).length ≤ 1 :=
    List.length_filter_le _ _
  rw [own, List.length_cons] at few
  exact ⟨told.unique tells, rfl, List.eq_nil_of_length_eq_zero (by omega)⟩

theorem harvest_taskEpisode_one :
    ∃ result, harvest cardRuntime [] [taskEpisode "TASK-1"] = .ok result :=
  ⟨_, rfl⟩

/-- The card of a task with a plain name is unforged. -/
theorem cards_unforged_iff_one_task :
    ∃ result, harvest cardRuntime [] [taskEpisode "TASK-1"] = .ok result ∧
      ∀ card ∈ result.storyCards, States card.confidentiality.flag card.episodes.length
        (frontmatterLines (card.renderMarkdown cardRuntime)) := by
  obtain ⟨result, ran⟩ := harvest_taskEpisode_one
  refine ⟨result, ran, (cards_unforged_iff ran).mpr fun story first others own => ?_⟩
  obtain ⟨rfl, rfl, rfl⟩ := episodesOf_taskEpisode tells_taskEpisode_one own
  exact honest_of_no_stray _ _

/-- A task whose name has a second line. -/
def forgedTask : String := "TASK-1\npublished: true"

theorem tells_forgedTask : (taskEpisode forgedTask).Tells cardRuntime forgedTask := rfl

theorem harvest_forgedTask :
    ∃ result, harvest cardRuntime [] [taskEpisode forgedTask] = .ok result :=
  ⟨_, rfl⟩

theorem episodesOf_forgedTask :
    episodesOf cardRuntime [taskEpisode forgedTask] forgedTask = [taskEpisode forgedTask] := by
  refine List.filter_eq_self.mpr fun episode member => ?_
  rw [List.mem_singleton.mp member, HarvestedEpisode.story?_eq_some.mpr tells_forgedTask]
  exact decide_eq_true rfl

theorem not_honest_forgedTask (flag : String) (count : Nat) :
    ¬Honest flag count (strayLines forgedTask "fleet") := by
  have stray : strayLines forgedTask "fleet" = ["published: true"] := by decide
  rw [stray]
  exact fun honest => absurd (honest.goesOn (by decide)).2 (by decide)

/-- The card of a task whose name has a second line says that it is published. -/
theorem forged_published_line :
    ∃ result, harvest cardRuntime [] [taskEpisode forgedTask] = .ok result ∧
      ¬∀ card ∈ result.storyCards, States card.confidentiality.flag card.episodes.length
        (frontmatterLines (card.renderMarkdown cardRuntime)) := by
  obtain ⟨result, ran⟩ := harvest_forgedTask
  refine ⟨result, ran, fun states => ?_⟩
  have honest := honest_of_states ran states episodesOf_forgedTask
  exact not_honest_forgedTask _ _ honest

end Sample

end FleetMemory
