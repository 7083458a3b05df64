/-
This file proves that a harvest partitions the episodes into stories and classifies each
side by its own episodes. A card holds the episodes of its story in the order they came,
there is one card for each story in the order the stories first come up, and a card is
public exactly when all its episodes belong to public projects. The dataset rows are made
episode by episode, and a row says public only when its own episode belongs to a public
project.
-/

import FleetMemory.Chronicler

namespace FleetMemory

/-! ### What is asked of a harvest -/

/-- The story of an episode, if it has one. -/
def HarvestedEpisode.story? (runtime : Runtime) (episode : HarvestedEpisode) : Option String :=
  (episode.storyKey runtime).toOption

/-- The field of a dict. -/
def PyValue.field? (name : String) (value : PyValue) : Option PyValue :=
  value.entries?.bind fun entries => PyDict.get entries name

/-- The confidentiality a dataset row carries. -/
def rowConfidentiality (row : PyValue) : Option PyValue :=
  ((row.field? "metadata").bind (PyValue.field? "flywheel")).bind (PyValue.field? "confidentiality")

/-- The episode has a dict for its payload, and a planning outcome a list of dicts for its
assumptions. -/
def HarvestedEpisode.WellTyped (episode : HarvestedEpisode) : Prop :=
  ∃ payload, episode.payload = .dict payload ∧ (episode.payloadType = "planning_outcome" →
    ∃ assumptions, (PyDict.get payload "assumptions").getD (.list []) = .list assumptions ∧
      ∀ assumption ∈ assumptions, ∃ fields, assumption = .dict fields ∧
        ((PyDict.get fields "disposition").getD .none).unhashable = false)

/-- What a harvest makes of its episodes. -/
structure Partitions (runtime : Runtime) (publicProjects : List String)
    (episodes : List HarvestedEpisode) (result : HarvestResult) : Prop where
  /-- One card for each story, in the order the stories first come up. -/
  stories : result.storyCards.map StoryCard.storyKey =
    Distinct.distinctBy id (episodes.filterMap (HarvestedEpisode.story? runtime))
  /-- A card holds the episodes of its story, in their order. -/
  own : ∀ card ∈ result.storyCards,
    card.episodes = episodes.filter fun episode => episode.story? runtime = some card.storyKey
  /-- Every episode is on one card. -/
  carded : ∀ episode ∈ episodes, ∃! card, card ∈ result.storyCards ∧ episode ∈ card.episodes
  /-- A card is public when the projects of all its episodes are. -/
  nonConfidential : ∀ card ∈ result.storyCards, (card.confidentiality = .nonConfidential ↔
    ∀ episode ∈ card.episodes, episode.project ∈ publicProjects)
  /-- The rows of one episode follow those of the other, each classified by its own episode. -/
  rows : ∃ made, made.flatten = result.datasetRows ∧
    List.Forall₂ (fun episode (rows : List PyValue) =>
      datasetRowsOf runtime publicProjects episode = .ok rows ∧
        ∀ row ∈ rows, rowConfidentiality row = some (.str Confidentiality.nonConfidential.flag) →
          episode.project ∈ publicProjects) episodes made

section

variable {runtime : Runtime} {publicProjects : List String} {episode : HarvestedEpisode}

theorem HarvestedEpisode.story?_eq_some {story : String} :
    episode.story? runtime = some story ↔ episode.Tells runtime story := by
  unfold HarvestedEpisode.story? HarvestedEpisode.Tells
  cases episode.storyKey runtime <;> simp [Except.toOption]

/-! ### The rows of one episode -/

/-- A row carries the confidentiality of its episode's project. -/
theorem rowConfidentiality_datasetRow (user assistant : PyValue) (dimension : String)
    (extra : PyDict) :
    rowConfidentiality (datasetRow publicProjects episode user assistant dimension extra) =
      some (.str (confidentialityOf publicProjects episode.project).flag) := rfl

theorem flag_injective : Function.Injective Confidentiality.flag := by
  intro first second same
  cases first <;> cases second <;> first | rfl | exact absurd same (by decide)

/-- The row of an assumption is classified by its episode. -/
theorem rowConfidentiality_refinementRow {assumption row : PyValue}
    (made : refinementRow runtime publicProjects episode assumption = .ok (some row)) :
    rowConfidentiality row =
      some (.str (confidentialityOf publicProjects episode.project).flag) := by
  obtain ⟨fields, _, made⟩ := except_bind_eq_ok.mp made
  obtain ⟨_, _, made⟩ := except_bind_eq_ok.mp made
  split at made
  · cases made
  · dsimp only at made
    split at made
    · cases made
    · obtain rfl := Option.some.inj (Except.ok.inj made)
      exact rowConfidentiality_datasetRow _ _ _ _

/-- Every row of an episode is classified by it. -/
theorem rowConfidentiality_of_mem {rows : List PyValue}
    (made : datasetRowsOf runtime publicProjects episode = .ok rows) {row : PyValue}
    (member : row ∈ rows) :
    rowConfidentiality row =
      some (.str (confidentialityOf publicProjects episode.project).flag) := by
  unfold datasetRowsOf at made
  split at made
  · obtain ⟨payload, _, made⟩ := except_bind_eq_ok.mp made
    dsimp only at made
    split at made
    · obtain rfl := Except.ok.inj made
      cases member
    · obtain rfl := Except.ok.inj made
      rw [List.mem_singleton.mp member]
      exact rowConfidentiality_datasetRow _ _ _ _
  · obtain ⟨payload, _, made⟩ := except_bind_eq_ok.mp made
    obtain ⟨assumptions, _, made⟩ := except_bind_eq_ok.mp made
    obtain ⟨found, all, made⟩ := except_bind_eq_ok.mp made
    obtain rfl := Except.ok.inj made
    obtain ⟨assumption, _, here⟩ := (except_mem_mapM all).mp (List.reduceOption_mem_iff.mp member)
    exact rowConfidentiality_refinementRow here
  · obtain rfl := Except.ok.inj made
    cases member

/-- A row says public only when its episode's project is public. -/
theorem public_of_rowConfidentiality {rows : List PyValue}
    (made : datasetRowsOf runtime publicProjects episode = .ok rows) {row : PyValue}
    (member : row ∈ rows)
    (marked : rowConfidentiality row = some (.str Confidentiality.nonConfidential.flag)) :
    episode.project ∈ publicProjects := by
  rw [rowConfidentiality_of_mem made member] at marked
  exact confidentialityOf_eq_nonConfidential.mp
    (flag_injective (PyValue.str.inj (Option.some.inj marked)))

end

section

variable {runtime : Runtime} {publicProjects : List String} {episode : HarvestedEpisode}

theorem exists_refinementRow {fields : PyDict}
    (hashable : ((PyDict.get fields "disposition").getD .none).unhashable = false) :
    ∃ row, refinementRow runtime publicProjects episode (.dict fields) = .ok row := by
  have attributes : (PyValue.dict fields).attributes = .ok fields := rfl
  rw [refinementRow, attributes, except_ok_bind]
  dsimp only
  rw [(@raiseIf_eq_ok _ _ _ ()).mpr (by simp [hashable]), except_ok_bind]
  split
  · exact ⟨_, rfl⟩
  · split <;> exact ⟨_, rfl⟩

/-- A harvest takes an episode of the right types. -/
theorem HarvestedEpisode.WellTyped.harvests (wellTyped : episode.WellTyped) :
    episode.Harvests runtime publicProjects := by
  obtain ⟨payload, dict, planning⟩ := wellTyped
  have attributes : episode.payload.attributes = .ok payload := by rw [dict]; rfl
  constructor
  · unfold datasetRowsOf
    split
    · rw [extractBuildOutcome, attributes, except_ok_bind]
      dsimp only
      split <;> exact ⟨_, rfl⟩
    · rename_i ofType
      obtain ⟨assumptions, listed, each⟩ := planning ofType
      have iterated : iterate (.list assumptions) = .ok assumptions := rfl
      rw [extractPlanningOutcome, attributes, except_ok_bind, listed, iterated, except_ok_bind]
      cases made : assumptions.mapM (refinementRow runtime publicProjects episode) with
      | ok rows => exact ⟨_, rfl⟩
      | error error =>
        obtain ⟨assumption, member, _, raised⟩ := except_mapM_raises_iff.mp ⟨error, made⟩
        obtain ⟨fields, rfl, hashable⟩ := each assumption member
        obtain ⟨row, taken⟩ := @exists_refinementRow runtime publicProjects episode _ hashable
        rw [raised] at taken
        cases taken
    · exact ⟨[], rfl⟩
  · unfold HarvestedEpisode.Tells
    rw [HarvestedEpisode.storyKey, attributes, except_ok_bind]
    split <;> exact ⟨_, rfl⟩

end

/-! ### The loop over the episodes -/

section

variable {runtime : Runtime} {publicProjects : List String} {episodes : List HarvestedEpisode}

/-- The rows come episode by episode. -/
theorem datasetRows_of_foldlM {first last : Gathered}
    (gathered : episodes.foldlM (Gathered.take runtime publicProjects) first = .ok last) :
    ∃ made, last.datasetRows = first.datasetRows ++ List.flatten made ∧
      List.Forall₂ (fun episode rows => datasetRowsOf runtime publicProjects episode = .ok rows)
        episodes made := by
  induction episodes generalizing first with
  | nil =>
    obtain rfl := Except.ok.inj gathered
    exact ⟨[], by simp, .nil⟩
  | cons episode rest inductionHypothesis =>
    rw [List.foldlM_cons] at gathered
    obtain ⟨next, taken, later⟩ := except_bind_eq_ok.mp gathered
    obtain ⟨rows, here, keyed⟩ := except_bind_eq_ok.mp taken
    obtain ⟨story, _, built⟩ := except_bind_eq_ok.mp keyed
    obtain rfl := Except.ok.inj built
    obtain ⟨made, whole, each⟩ := inductionHypothesis later
    refine ⟨rows :: made, ?_, .cons here each⟩
    rw [whole, List.flatten_cons, List.append_assoc]

theorem StoryCard.foldl_add_episodes (card : StoryCard) (rows : List (String × HarvestedEpisode)) :
    (rows.foldl (StoryCard.add publicProjects) card).episodes =
      card.episodes ++ rows.map Prod.snd := by
  induction rows generalizing card with
  | nil => exact (List.append_nil _).symm
  | cons row rest inductionHypothesis =>
    rw [List.foldl_cons, inductionHypothesis, List.map_cons]
    exact List.append_assoc _ _ _

theorem StoryCard.foldl_add_project (card : StoryCard) (rows : List (String × HarvestedEpisode)) :
    (rows.foldl (StoryCard.add publicProjects) card).project = card.project := by
  induction rows generalizing card with
  | nil => rfl
  | cons row rest inductionHypothesis => exact inductionHypothesis (card.add publicProjects row)

/-- The card of a story holds the episodes of the story's rows. -/
theorem StoryCard.episodes_of_groupOf {rows : List (String × HarvestedEpisode)} {card : StoryCard}
    (group : Grouping.groupOf (StoryCard.start publicProjects) (StoryCard.add publicProjects) rows =
      some card) : card.episodes = rows.map Prod.snd := by
  cases rows with
  | nil => cases group
  | cons first rest =>
    obtain rfl := Option.some.inj group
    exact StoryCard.foldl_add_episodes _ _

variable {rows : List (String × HarvestedEpisode)}

/-- The rows of a story are those of the episodes that tell it. -/
theorem rowsOf_story (tells : ∀ row ∈ rows, row.2.Tells runtime row.1) (story : String) :
    (Grouping.rowsOf Prod.fst rows story).map Prod.snd =
      (rows.map Prod.snd).filter fun episode => episode.story? runtime = some story := by
  rw [List.filter_map, Grouping.rowsOf]
  congr 1
  refine List.filter_congr fun row member => ?_
  rw [Function.comp_apply, HarvestedEpisode.story?_eq_some.mpr (tells row member),
    decide_eq_decide, Option.some.injEq]

/-- The rows carry the stories of the episodes. -/
theorem stories_of_rows (tells : ∀ row ∈ rows, row.2.Tells runtime row.1) :
    (rows.map Prod.snd).filterMap (HarvestedEpisode.story? runtime) = rows.map Prod.fst := by
  rw [List.filterMap_map, ← List.filterMap_eq_map]
  refine List.filterMap_congr fun row member => ?_
  exact HarvestedEpisode.story?_eq_some.mpr (tells row member)

/-- A harvest that returns partitions the episodes, and classifies cards and rows by them. -/
theorem partitions_of_harvest {result : HarvestResult}
    (ran : harvest runtime publicProjects episodes = .ok result) :
    Partitions runtime publicProjects episodes result := by
  obtain ⟨gathered, loop, built⟩ := except_bind_eq_ok.mp ran
  obtain rfl := Except.ok.inj built
  obtain ⟨made, whole, each⟩ := datasetRows_of_foldlM loop
  obtain ⟨rows, rfl, tells, cards, ofCard⟩ := cards_of_harvest ran
  have own : ∀ card ∈ gathered.cards.map Prod.snd, card.episodes =
      (rows.map Prod.snd).filter fun episode => episode.story? runtime = some card.storyKey := by
    intro card member
    rw [StoryCard.episodes_of_groupOf (ofCard card member), rowsOf_story tells]
  have stories : (gathered.cards.map Prod.snd).map StoryCard.storyKey =
      Distinct.distinctBy id ((rows.map Prod.snd).filterMap (HarvestedEpisode.story? runtime)) := by
    rw [stories_of_rows tells, ← Grouping.keys_grouped Prod.fst (StoryCard.start publicProjects)
      (StoryCard.add publicProjects)]
    refine (congrArg (List.map StoryCard.storyKey) cards).trans ?_
    rw [List.map_map]
    refine List.map_congr_left fun entry present => ?_
    exact (StoryCard.made_of_groupOf ((Grouping.mem_grouped _ _ _).mp present)).storyKey
  have harvested := harvested ran
  refine ⟨stories, own, ?_, ?_, made, whole.symm, each.imp ?_⟩
  · intro episode member
    obtain ⟨card, carded, told⟩ := harvested.carded episode member
    have inside : episode ∈ card.episodes := by
      rw [own card carded]
      exact List.mem_filter.mpr ⟨member, decide_eq_true (HarvestedEpisode.story?_eq_some.mpr told)⟩
    refine ⟨card, ⟨carded, inside⟩, ?_⟩
    rintro other ⟨otherCarded, otherInside⟩
    rw [own other otherCarded] at otherInside
    have otherTold := HarvestedEpisode.story?_eq_some.mp
      (of_decide_eq_true (List.mem_filter.mp otherInside).2)
    exact harvested.unique other otherCarded card carded (otherTold.unique told)
  · intro card member
    rw [harvested.nonConfidential card member, own card member]
    simp only [List.mem_filter, decide_eq_true_eq, HarvestedEpisode.story?_eq_some, and_imp]
  · intro episode rows taken
    exact ⟨taken, fun row member => public_of_rowConfidentiality taken member⟩

/-- A card names the project of the first of its episodes. -/
theorem project_of_harvest {result : HarvestResult}
    (ran : harvest runtime publicProjects episodes = .ok result) {card : StoryCard}
    (member : card ∈ result.storyCards) :
    ∃ first others, card.episodes = first :: others ∧ card.project = first.project := by
  obtain ⟨rows, rfl, _, _, ofCard⟩ := cards_of_harvest ran
  have group := ofCard card member
  have episodes := StoryCard.episodes_of_groupOf group
  cases own : Grouping.rowsOf Prod.fst rows card.storyKey with
  | nil =>
    rw [own] at group
    cases group
  | cons first rest =>
    rw [own] at group episodes
    obtain rfl := Option.some.inj group
    exact ⟨first.2, rest.map Prod.snd, episodes, StoryCard.foldl_add_project _ _⟩

end

/-- A harvest partitions the episodes it takes, and classifies cards and rows by them. It raises
only at an episode that is not of the right types. -/
theorem harvest_partitions (runtime : Runtime) (publicProjects : List String)
    (episodes : List HarvestedEpisode) :
    match harvest runtime publicProjects episodes with
    | .ok result => Partitions runtime publicProjects episodes result
    | .error _ => ∃ episode ∈ episodes, ¬episode.WellTyped := by
  cases ran : harvest runtime publicProjects episodes with
  | error error =>
    obtain ⟨episode, member, stops⟩ := harvest_raises_iff.mp ⟨error, ran⟩
    exact ⟨episode, member, fun wellTyped => stops wellTyped.harvests⟩
  | ok result => exact partitions_of_harvest ran

end FleetMemory
