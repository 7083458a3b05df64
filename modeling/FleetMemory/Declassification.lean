/-
This file proves what a sequence of harvest runs does to the confidentiality of the story
cards. The card of a story is written from the episodes of one run, over the card of an
earlier run. So a run whose bound leaves out the confidential episodes of a story, but not
all its episodes, makes the card of that story public; and a line of the story's key or of
a project may say public whatever the card says. The files stay true to every episode read
so far exactly when no run does either, and when no run that stops at an episode has read a
confidential episode of a story whose file says public.
-/

import FleetMemory.CardFrontmatter
import FleetMemory.PrefixEngine
import FleetMemory.Transitions

namespace FleetMemory

/-! ### Sequences of runs -/

/-- The rows, the files, and the episodes the runs so far have read. -/
structure ChroniclerState where
  rows : DatedStore
  outputs : Outputs
  read : List HarvestedEpisode

inductive ChroniclerEvent where
  | arrive (rows : DatedStore)
  | run (runId : String) (since : Option String)

/-- The rows only gain rows. -/
def DatedStore.GrowsTo (rows later : DatedStore) : Prop :=
  ∀ place value, rows.store.lookup place = some value →
    later.store.lookup place = some value ∧ later.createdAt place = rows.createdAt place

namespace Chronicler

variable (chronicler : Chronicler)

/-- The stories of the store have slugs of their own. -/
def DistinctSlugs (rows : DatedStore) : Prop :=
  ∀ first second one two, chronicler.InBound rows none first → chronicler.InBound rows none second →
    first.Tells chronicler.runtime one → second.Tells chronicler.runtime two → slug one = slug two →
    one = two

/-- The state an event leads to. A run that raises has written nothing. -/
def next (state : ChroniclerState) : ChroniclerEvent → ChroniclerState
  | .arrive rows => { state with rows }
  | .run runId since => { state with
      outputs := match chronicler.runChronicler state.rows state.outputs runId since with
        | .ok (_, outputs) => outputs
        | .error _ => state.outputs
      read := match chronicler.readEpisodes state.rows since with
        | .ok episodes => state.read ++ episodes
        | .error _ => state.read }

/-- Between runs rows arrive. A run scans the store whole, and finds stories with slugs of their
own. -/
def Happens (state : ChroniclerState) (event : ChroniclerEvent) (next : ChroniclerState) : Prop :=
  next = chronicler.next state event ∧
    match event with
    | .arrive rows => state.rows.GrowsTo rows
    | .run _ _ => chronicler.ScansWhole state.rows ∧ chronicler.DistinctSlugs state.rows

/-- No story whose file says public has an episode in the store that was read and belongs to a
project that is not public. -/
def NeverDeclassified (state : ChroniclerState) : Prop :=
  ∀ story text, state.outputs.storyCards (storyFile story) = some text → SaysPublic text →
    ∀ episode ∈ state.read, chronicler.InBound state.rows none episode →
      episode.Tells chronicler.runtime story → episode.project ∈ chronicler.publicProjects

/-- Of each story of which a confidential episode is among those read, now or before, the run reads
a confidential one, or the block of its card ends before it says public; and no stray line of the
card says public. -/
def Recalls (state : ChroniclerState) (since : Option String) : Prop :=
  ∀ episodes, chronicler.readEpisodes state.rows since = .ok episodes → ∀ story first others,
    episodesOf chronicler.runtime episodes story = first :: others →
    (∃ secret ∈ state.read ++ episodes, secret.Tells chronicler.runtime story ∧
      secret.project ∉ chronicler.publicProjects) →
    ¬ForgesPublic (strayLines story first.project) ∧
      ("---" ∈ strayLines story first.project ∨
        ∃ again ∈ first :: others, again.project ∉ chronicler.publicProjects)

/-- No story of which the bound takes in a confidential episode has a file that says public. -/
def FindsNoPublicCard (state : ChroniclerState) (since : Option String) : Prop :=
  ∀ episode, chronicler.InBound state.rows since episode →
    episode.project ∉ chronicler.publicProjects →
    ∀ story text, episode.Tells chronicler.runtime story →
      state.outputs.storyCards (storyFile story) = some text → ¬SaysPublic text

/-- The condition on an event. A run that reads to the end recalls the confidential episodes when
it harvests, and finds no public card when it stops at an episode. -/
def KeepsConfidential (state : ChroniclerState) : ChroniclerEvent → Prop
  | .arrive _ => True
  | .run _ since => chronicler.Readable state.rows →
      ((∀ episode, chronicler.InBound state.rows since episode →
          episode.Harvests chronicler.runtime chronicler.publicProjects) →
        chronicler.Recalls state since) ∧
      ((∃ episode, chronicler.InBound state.rows since episode ∧
          ¬episode.Harvests chronicler.runtime chronicler.publicProjects) →
        chronicler.FindsNoPublicCard state since)

/-- What holds in every state: the episodes read are in the store. -/
def ReadStored (state : ChroniclerState) : Prop :=
  ∀ episode ∈ state.read, chronicler.InBound state.rows none episode

variable {chronicler} {state : ChroniclerState} {rows : DatedStore} {since : Option String}

/-! ### What an event does -/

theorem before_none (episode : HarvestedEpisode) (createdAt : Option String) :
    before none episode createdAt = false := rfl

theorem InBound.stored {episode : HarvestedEpisode}
    (within : chronicler.InBound rows since episode) : chronicler.InBound rows none episode := by
  obtain ⟨namespaceParts, place, value, scans, rehydrated, _⟩ := within
  exact ⟨namespaceParts, place, value, scans, rehydrated, before_none episode _⟩

/-- A row that is scanned stays scanned. -/
theorem Scans.grows {later : DatedStore} (grows : rows.GrowsTo later) {namespaceParts : List String}
    {place : Place} {value : StoredValue} (scans : chronicler.Scans rows namespaceParts place value) :
    chronicler.Scans later namespaceParts place value := by
  obtain ⟨other, held, stored, lists, cut⟩ :=
    (chronicler.namespaceListing.mem_namespaces _ _).mp scans.listed
  exact ⟨(grows place value scans.stored).1,
    (chronicler.namespaceListing.mem_namespaces _ _).mpr
      ⟨other, held, (grows other held stored).1, lists, cut⟩, scans.threeParts, scans.selected⟩

/-- An episode of the store stays in the store, within the bounds it was within. -/
theorem InBound.grows {later : DatedStore} (grows : rows.GrowsTo later) {episode : HarvestedEpisode}
    (within : chronicler.InBound rows since episode) : chronicler.InBound later since episode := by
  obtain ⟨namespaceParts, place, value, scans, rehydrated, notBefore⟩ := within
  refine ⟨namespaceParts, place, value, scans.grows grows, rehydrated, ?_⟩
  rw [(grows place value scans.stored).2]
  exact notBefore

section

variable {runId : String}

/-- A run that cannot read changes nothing. -/
theorem next_of_unreadable {error : PyError}
    (raised : chronicler.readEpisodes state.rows since = .error error) :
    chronicler.next state (.run runId since) = state := by
  simp only [next, raised, runChronicler_of_unreadable raised]

/-- A run that stops at an episode has read, and written nothing. -/
theorem next_of_stopped {episodes : List HarvestedEpisode} {error : PyError}
    (read : chronicler.readEpisodes state.rows since = .ok episodes)
    (raised : harvest chronicler.runtime chronicler.publicProjects episodes = .error error) :
    chronicler.next state (.run runId since) = { state with read := state.read ++ episodes } := by
  simp only [next, read, runChronicler_of_stopped read raised]

/-- A run that returns has written its cards over the earlier ones. -/
theorem next_of_returned {episodes : List HarvestedEpisode} {result : HarvestResult}
    (read : chronicler.readEpisodes state.rows since = .ok episodes)
    (returned : harvest chronicler.runtime chronicler.publicProjects episodes = .ok result) :
    chronicler.next state (.run runId since) = {
      rows := state.rows
      outputs := {
        datasets := writeDatasetRows result.datasetRows runId state.outputs.datasets
        storyCards :=
          writeStoryCards chronicler.runtime result.storyCards state.outputs.storyCards }
      read := state.read ++ episodes } := by
  obtain ⟨summary, run⟩ := @runChronicler_of_returned chronicler state.rows since state.outputs runId
    episodes result read returned
  simp only [next, read, run]

end

/-- How a run ends: it cannot read, or it stops at an episode, or it writes its cards. -/
inductive Ends (chronicler : Chronicler) (state : ChroniclerState) (since : Option String) :
    ChroniclerState → Prop
  | unreadable (never : ¬chronicler.Readable state.rows) : Ends chronicler state since state
  | stopped {episodes : List HarvestedEpisode} (readable : chronicler.Readable state.rows)
      (reads : ∀ episode, episode ∈ episodes ↔ chronicler.InBound state.rows since episode)
      (stops : ∃ episode ∈ episodes,
        ¬episode.Harvests chronicler.runtime chronicler.publicProjects) :
      Ends chronicler state since { state with read := state.read ++ episodes }
  | returned {episodes : List HarvestedEpisode} {result : HarvestResult}
      {datasets : String → Option (List PyValue)} (readable : chronicler.Readable state.rows)
      (read : chronicler.readEpisodes state.rows since = .ok episodes)
      (reads : ∀ episode, episode ∈ episodes ↔ chronicler.InBound state.rows since episode)
      (ran : harvest chronicler.runtime chronicler.publicProjects episodes = .ok result) :
      Ends chronicler state since {
        rows := state.rows
        outputs := {
          datasets
          storyCards :=
            writeStoryCards chronicler.runtime result.storyCards state.outputs.storyCards }
        read := state.read ++ episodes }

theorem ends (whole : chronicler.ScansWhole state.rows) (runId : String) (since : Option String) :
    chronicler.Ends state since (chronicler.next state (.run runId since)) := by
  cases read : chronicler.readEpisodes state.rows since with
  | error error =>
    rw [next_of_unreadable read]
    exact .unreadable ((readEpisodes_raises_iff whole).mp ⟨error, read⟩)
  | ok episodes =>
    have readable : chronicler.Readable state.rows := by
      by_contra never
      obtain ⟨error, raised⟩ := (@readEpisodes_raises_iff _ _ since whole).mpr never
      rw [read] at raised
      cases raised
    have reads := fun episode => @mem_readEpisodes _ _ _ whole _ read episode
    cases harvest : harvest chronicler.runtime chronicler.publicProjects episodes with
    | error error =>
      rw [next_of_stopped read harvest]
      exact .stopped readable reads (harvest_raises_iff.mp ⟨error, harvest⟩)
    | ok result =>
      rw [next_of_returned read harvest]
      exact .returned readable read reads harvest

/-- Every event keeps the episodes read in the store. -/
theorem readStored_next {event : ChroniclerEvent} {following : ChroniclerState}
    (stored : chronicler.ReadStored state) (happens : chronicler.Happens state event following) :
    chronicler.ReadStored following := by
  obtain ⟨rfl, assumed⟩ := happens
  cases event with
  | arrive rows => exact fun episode member => (stored episode member).grows assumed
  | run runId since =>
    have append : ∀ {episodes : List HarvestedEpisode},
        (∀ episode, episode ∈ episodes ↔ chronicler.InBound state.rows since episode) →
        ∀ episode ∈ state.read ++ episodes, chronicler.InBound state.rows none episode :=
      fun reads => List.forall_mem_append.mpr
        ⟨stored, fun episode member => ((reads episode).mp member).stored⟩
    have ended := ends assumed.1 runId since
    generalize chronicler.next state (.run runId since) = following at ended ⊢
    cases ended with
    | unreadable never => exact stored
    | stopped readable reads stops => exact append reads
    | returned readable read reads ran => exact append reads

/-! ### When an event keeps the cards true -/

/-- A run that stops keeps the cards true exactly when it finds no public card of a story it read a
confidential episode of. -/
theorem neverDeclassified_stopped_iff {episodes : List HarvestedEpisode}
    (reads : ∀ episode, episode ∈ episodes ↔ chronicler.InBound state.rows since episode)
    (held : chronicler.NeverDeclassified state) :
    chronicler.NeverDeclassified { state with read := state.read ++ episodes } ↔
      chronicler.FindsNoPublicCard state since := by
  constructor
  · intro kept episode within secret story text tells found shown
    exact secret (kept story text found shown episode
      (List.mem_append_right _ ((reads episode).mpr within)) within.stored tells)
  · intro finds story text found shown episode member stored tells
    rcases List.mem_append.mp member with earlier | now
    · exact held story text found shown episode earlier stored tells
    · by_contra secret
      exact finds episode ((reads episode).mp now) secret story text tells found shown

section

variable {episodes : List HarvestedEpisode} {result : HarvestResult}
  {datasets : String → Option (List PyValue)}
  (ran : harvest chronicler.runtime chronicler.publicProjects episodes = .ok result)
  (reads : ∀ episode, episode ∈ episodes ↔ chronicler.InBound state.rows since episode)
  (distinct : chronicler.DistinctSlugs state.rows)

include ran

/-- The card of a story stands in the story's file name. -/
theorem fileName_of_mem {card : StoryCard} (member : card ∈ result.storyCards) :
    card.fileName = storyFile card.storyKey := by
  rw [StoryCard.fileName, ((harvested ran).told card member).1]
  rfl

/-- The file of a story with a card says public when a stray line does, or when every episode of the
story that was read is public and no stray line ends the block before. -/
theorem saysPublic_iff_of_card {story : String} {first : HarvestedEpisode}
    {others : List HarvestedEpisode} {card : StoryCard} (member : card ∈ result.storyCards)
    (keyed : card.storyKey = story)
    (own : episodesOf chronicler.runtime episodes story = first :: others) :
    SaysPublic (card.renderMarkdown chronicler.runtime) ↔
      ForgesPublic (strayLines story first.project) ∨
        "---" ∉ strayLines story first.project ∧
          ∀ again ∈ first :: others, again.project ∈ chronicler.publicProjects := by
  obtain ⟨-, flag, head, tail, same, project⟩ := card_of_harvest ran member
  rw [keyed, own] at same flag
  obtain ⟨rfl, rfl⟩ := List.cons.inj same
  have open_ : card.confidentiality = .nonConfidential ↔
      ∀ again ∈ first :: others, again.project ∈ chronicler.publicProjects := by
    rw [flag, confidentialityOfAll]
    split
    · rename_i all
      exact iff_of_true rfl all
    · rename_i notAll
      exact iff_of_false (by decide) notAll
  rw [saysPublic_renderMarkdown_iff, keyed, project, open_]

include reads distinct

/-- In a store whose stories have slugs of their own, a card whose file is a story's is of the
story. -/
theorem storyKey_of_file {card : StoryCard} (member : card ∈ result.storyCards) {story : String}
    {episode : HarvestedEpisode} (stored : chronicler.InBound state.rows none episode)
    (tells : episode.Tells chronicler.runtime story) (same : card.fileName = storyFile story) :
    card.storyKey = story := by
  obtain ⟨_, told, toldRead, toldTells⟩ := (harvested ran).told card member
  rw [fileName_of_mem ran member] at same
  exact distinct told episode _ _ ((reads told).mp toldRead).stored stored toldTells tells
    (storyFile_inj.mp same)

/-- There each card a run writes stands in its story's file. -/
theorem written_of_mem {card : StoryCard} (member : card ∈ result.storyCards) :
    writeStoryCards chronicler.runtime result.storyCards state.outputs.storyCards
      (storyFile card.storyKey) = some (card.renderMarkdown chronicler.runtime) := by
  rw [← fileName_of_mem ran member]
  refine writeStoryCards_of_mem member fun other inside same => ?_
  obtain ⟨_, told, toldRead, toldTells⟩ := (harvested ran).told card member
  refine (harvested ran).unique other inside card member ?_
  refine storyKey_of_file ran reads distinct inside ((reads told).mp toldRead).stored toldTells ?_
  rw [same, fileName_of_mem ran member]

/-- A run that writes its cards keeps the files true exactly when it recalls. -/
theorem neverDeclassified_returned_iff
    (read : chronicler.readEpisodes state.rows since = .ok episodes)
    (stored : chronicler.ReadStored state) (held : chronicler.NeverDeclassified state) :
    chronicler.NeverDeclassified {
        rows := state.rows
        outputs := {
          datasets
          storyCards :=
            writeStoryCards chronicler.runtime result.storyCards state.outputs.storyCards }
        read := state.read ++ episodes } ↔ chronicler.Recalls state since := by
  have readStored : ∀ episode ∈ state.read ++ episodes,
      chronicler.InBound state.rows none episode := List.forall_mem_append.mpr
    ⟨stored, fun episode member => ((reads episode).mp member).stored⟩
  constructor
  · rintro kept _ again story first others own ⟨secret, member, tells, confidential⟩
    obtain rfl := Except.ok.inj (read.symm.trans again)
    obtain ⟨card, carded, rfl⟩ := exists_card_of_story ran own
    have silent : ¬SaysPublic (card.renderMarkdown chronicler.runtime) := fun shown =>
      confidential (kept card.storyKey _ (written_of_mem ran reads distinct carded) shown secret
        member (readStored secret member) tells)
    rw [saysPublic_iff_of_card ran carded rfl own, not_or] at silent
    refine ⟨silent.1, or_iff_not_imp_left.mpr fun goesOn => ?_⟩
    by_contra open_
    exact silent.2 ⟨goesOn, by simpa using open_⟩
  · intro recalls story text found shown episode member within tells
    by_contra confidential
    rcases writeStoryCards_eq_some found with ⟨card, carded, named, rfl⟩ | ⟨before, others⟩
    · -- the run wrote the file, from a story that it recalls
      have keyed := storyKey_of_file ran reads distinct carded within tells named
      obtain ⟨-, -, first, others, own, -⟩ := card_of_harvest ran carded
      rw [keyed] at own
      obtain ⟨unforged, closed⟩ := recalls episodes read story first others own
        ⟨episode, member, tells, confidential⟩
      rcases (saysPublic_iff_of_card ran carded keyed own).mp shown with forged | ⟨goesOn, all⟩
      · exact unforged forged
      · rcases closed with ends | ⟨again, inside, secret⟩
        · exact goesOn ends
        · exact secret (all again inside)
    · -- the file is an earlier one, and the run read no episode of its story
      rcases List.mem_append.mp member with earlier | now
      · exact confidential (held story text before shown episode earlier within tells)
      · obtain ⟨card, carded, told⟩ := (harvested ran).carded episode now
        obtain rfl := told.unique tells
        exact others card carded (fileName_of_mem ran carded)

end

/-- An event keeps the files true exactly when it meets the condition. -/
theorem neverDeclassified_next_iff {event : ChroniclerEvent} {following : ChroniclerState}
    (stored : chronicler.ReadStored state) (held : chronicler.NeverDeclassified state)
    (happens : chronicler.Happens state event following) :
    chronicler.NeverDeclassified following ↔ chronicler.KeepsConfidential state event := by
  obtain ⟨rfl, assumed⟩ := happens
  cases event with
  | arrive rows =>
    refine iff_of_true (fun story text found shown episode member _ tells => ?_) trivial
    exact held story text found shown episode member (stored episode member) tells
  | run runId since =>
    have ended := ends assumed.1 runId since
    generalize chronicler.next state (.run runId since) = following at ended ⊢
    cases ended with
    | unreadable never => exact iff_of_true held fun readable => absurd readable never
    | stopped readable reads stops =>
      obtain ⟨episode, member, notHarvested⟩ := stops
      have stopped : ∃ episode, chronicler.InBound state.rows since episode ∧
          ¬episode.Harvests chronicler.runtime chronicler.publicProjects :=
        ⟨episode, (reads episode).mp member, notHarvested⟩
      rw [neverDeclassified_stopped_iff reads held]
      constructor
      · intro finds _
        exact ⟨fun all => absurd (all episode ((reads episode).mp member)) notHarvested,
          fun _ => finds⟩
      · exact fun keeps => (keeps readable).2 stopped
    | returned readable read reads ran =>
      rw [neverDeclassified_returned_iff ran reads assumed.2 read stored held]
      have all : ∀ episode, chronicler.InBound state.rows since episode →
          episode.Harvests chronicler.runtime chronicler.publicProjects := by
        intro episode within
        by_contra stops
        obtain ⟨error, raised⟩ := harvest_raises_iff.mpr ⟨episode, (reads episode).mpr within, stops⟩
        rw [ran] at raised
        cases raised
      constructor
      · intro recalls _
        refine ⟨fun _ => recalls, ?_⟩
        rintro ⟨episode, within, stops⟩
        exact absurd (all episode within) stops
      · exact fun keeps => (keeps readable).1 all

/-! ### Stories of single lines -/

/-- Whenever the bound takes in an episode of a story of which a confidential one was read, it
takes in a confidential one. -/
def RecallsEpisodes (chronicler : Chronicler) (state : ChroniclerState) (since : Option String) :
    Prop :=
  ∀ episode story, chronicler.InBound state.rows since episode →
    episode.Tells chronicler.runtime story →
    (∃ earlier ∈ state.read, earlier.Tells chronicler.runtime story ∧
      earlier.project ∉ chronicler.publicProjects) →
    ∃ again, chronicler.InBound state.rows since again ∧ again.Tells chronicler.runtime story ∧
      again.project ∉ chronicler.publicProjects

/-- The keys and the projects of the episodes in the bound have no line feed. -/
def SingleLines (chronicler : Chronicler) (rows : DatedStore) (since : Option String) : Prop :=
  ∀ episode story, chronicler.InBound rows since episode → episode.Tells chronicler.runtime story →
    strayLines story episode.project = []

theorem mem_episodesOf {runtime : Runtime} {episodes : List HarvestedEpisode} {story : String}
    {episode : HarvestedEpisode} :
    episode ∈ episodesOf runtime episodes story ↔
      episode ∈ episodes ∧ episode.Tells runtime story := by
  rw [episodesOf, List.mem_filter, decide_eq_true_iff, HarvestedEpisode.story?_eq_some]

/-- Where keys and projects are single lines, a run recalls exactly when its bound takes in a
confidential episode of each story that it takes in an episode of, and has read one before. -/
theorem recalls_iff_of_singleLines (whole : chronicler.ScansWhole state.rows)
    (readable : chronicler.Readable state.rows)
    (single : chronicler.SingleLines state.rows since) :
    chronicler.Recalls state since ↔ chronicler.RecallsEpisodes state since := by
  constructor
  · intro recalls episode story within tells ⟨earlier, member, earlierTells, secret⟩
    cases read : chronicler.readEpisodes state.rows since with
    | error error => exact absurd readable ((readEpisodes_raises_iff whole).mp ⟨error, read⟩)
    | ok episodes =>
      have reads := fun episode => @mem_readEpisodes _ _ _ whole _ read episode
      have inside : episode ∈ episodesOf chronicler.runtime episodes story :=
        mem_episodesOf.mpr ⟨(reads episode).mpr within, tells⟩
      obtain ⟨first, others, own⟩ := List.exists_cons_of_ne_nil (List.ne_nil_of_mem inside)
      have known : ∀ again ∈ first :: others, chronicler.InBound state.rows since again ∧
          again.Tells chronicler.runtime story := by
        intro again member
        rw [← own, mem_episodesOf, reads] at member
        exact member
      obtain ⟨firstWithin, firstTells⟩ := known first List.mem_cons_self
      obtain ⟨-, closed⟩ := recalls episodes read story first others own
        ⟨earlier, List.mem_append_left _ member, earlierTells, secret⟩
      rw [single first story firstWithin firstTells] at closed
      obtain ⟨again, member, confidential⟩ := closed.resolve_left List.not_mem_nil
      exact ⟨again, (known again member).1, (known again member).2, confidential⟩
  · intro recalls episodes read story first others own ⟨secret, member, tells, confidential⟩
    have reads := fun episode => @mem_readEpisodes _ _ _ whole _ read episode
    have known : ∀ again, again ∈ first :: others ↔
        chronicler.InBound state.rows since again ∧ again.Tells chronicler.runtime story := by
      intro again
      rw [← own, mem_episodesOf, reads]
    obtain ⟨firstWithin, firstTells⟩ := (known first).mp List.mem_cons_self
    rw [single first story firstWithin firstTells]
    refine ⟨List.not_mem_nil, Or.inr ?_⟩
    rcases List.mem_append.mp member with earlier | now
    · obtain ⟨again, within, againTells, againSecret⟩ := recalls first story firstWithin firstTells
        ⟨secret, earlier, tells, confidential⟩
      exact ⟨again, (known again).mpr ⟨within, againTells⟩, againSecret⟩
    · exact ⟨secret, (known secret).mpr ⟨(reads secret).mp now, tells⟩, confidential⟩

/-! ### Whole histories -/

theorem functional_happens : Transitions.Functional chronicler.Happens :=
  fun _ _ _ _ first second => first.1.trans second.1.symm

/-- A run without a bound takes in every episode read before it. -/
theorem recallsEpisodes_of_unbounded (stored : chronicler.ReadStored state) :
    chronicler.RecallsEpisodes state none :=
  fun _ _ _ _ ⟨earlier, read, tells, secret⟩ => ⟨earlier, stored earlier read, tells, secret⟩

/-- Before any run, nothing is read and no card is filed. -/
theorem readStored_of_fresh (unread : state.read = []) : chronicler.ReadStored state := by
  simp [ReadStored, unread]

theorem neverDeclassified_of_fresh (noCards : ∀ name, state.outputs.storyCards name = none) :
    chronicler.NeverDeclassified state := by
  intro story text found
  rw [noCards] at found
  cases found

/-- A first run over keys and projects of single lines meets the condition. -/
theorem keepsConfidential_of_fresh (unread : state.read = [])
    (noCards : ∀ name, state.outputs.storyCards name = none)
    (whole : chronicler.ScansWhole state.rows) (single : chronicler.SingleLines state.rows since)
    (runId : String) : chronicler.KeepsConfidential state (.run runId since) := by
  refine fun readable => ⟨fun _ => ?_, ?_⟩
  · refine (recalls_iff_of_singleLines whole readable single).mpr ?_
    rintro episode story - - ⟨earlier, read, -⟩
    rw [unread] at read
    cases read
  · intro _ episode _ _ story text _ found
    rw [noCards] at found
    cases found

/-- The episodes read after a run over rows that can be read: the earlier ones, and those within its
bound. -/
theorem mem_read_next (whole : chronicler.ScansWhole state.rows)
    (readable : chronicler.Readable state.rows) (runId : String) {episode : HarvestedEpisode} :
    episode ∈ (chronicler.next state (.run runId since)).read ↔
      episode ∈ state.read ∨ chronicler.InBound state.rows since episode := by
  have ended := ends whole runId since
  generalize chronicler.next state (.run runId since) = following at ended ⊢
  cases ended with
  | unreadable never => exact absurd readable never
  | stopped _ reads _ => rw [List.mem_append, reads]
  | returned _ _ reads _ => rw [List.mem_append, reads]

end Chronicler

open PrefixEngine in
/-- The listing of the installed store. -/
def prefixListing : NamespaceListing where
  lists := extendsPrefix ["fleet_memory"]
  namespaces store := ((store.keys.filter fun place =>
      extendsPrefix ["fleet_memory"] place.namespaceParts = true).image fun place =>
    place.namespaceParts.take 3).sort (· ≤ ·)
  mem_namespaces store namespaceParts := by
    simp only [Finset.mem_sort, Finset.mem_image, Finset.mem_filter, mem_keys_iff]
    constructor
    · rintro ⟨place, ⟨⟨value, stored⟩, lists⟩, cut⟩
      exact ⟨place, value, stored, lists, cut⟩
    · rintro ⟨place, value, stored, lists, cut⟩
      exact ⟨place, ⟨⟨value, stored⟩, lists⟩, cut⟩
  lists_own namespaceParts own := by
    obtain ⟨rest, rfl⟩ := List.head?_eq_some_iff.mp own
    obtain ⟨later, text⟩ : ∃ later, (dotted ("fleet_memory" :: rest)).toList =
        "fleet_memory".toList ++ later := by
      cases rest with
      | nil => exact ⟨[], by simp [dotted, Text.join, List.intercalate]⟩
      | cons next others =>
        rw [dotted, Text.join, String.toList_ofList, List.map_cons, List.map_cons,
          List.intercalate_cons_cons]
        exact ⟨_, List.append_assoc _ _ _⟩
    rw [extendsPrefix, Like.like, text]
    exact Like.accepts_self_append "fleet_memory".toList (List.all_eq_true.mp rfl) later

/-- The payload of an episode on a correlation spine. -/
def spinePayload : PyDict :=
  [("status", .str "success"), ("correlation_id", .str "cid-1")]

/-- A record of a build outcome on the spine. -/
def spineRecord (project occurredAt : String) : StoredValue where
  content := Json.dumps (.dict spinePayload)
  payloadType := some "build_outcome"
  naturalKey := some ("build_outcome:" ++ project ++ ":task_1")
  project := some project
  identifier := some "task_1"
  episodeMeta := some {
    episodeType := "build_outcome"
    name := none
    source := some "forge.build"
    occurredAt := some occurredAt
    publishedAt := none
    ingestHints := none
    payloadType := some "build_outcome"
    sourceRef := none }

/-- The episode the record is read as. -/
def spineEpisode (project occurredAt : String) : HarvestedEpisode where
  project
  payloadType := "build_outcome"
  naturalKey := "build_outcome:" ++ project ++ ":task_1"
  identifier := "task_1"
  payload := .dict spinePayload
  sourceRef := none
  occurredAt := some occurredAt
  name := none
  source := some "forge.build"

/-- A Chronicler for which one project is public. -/
def fleetChronicler : Chronicler where
  runtime := Runtime.ofTables [] [] [(Json.dumps (.dict spinePayload), .dict spinePayload)]
  engine := prefixEngine fun _ _ _ => none
  namespaceListing := prefixListing
  settings := {
    scanLimit := 1000
    publicProjects := "fleet"
    datasetIntakeDir := "intake"
    storyCardQueueDir := "queue" }

/-- The record of the confidential project, written first. -/
def clientPlace : Place :=
  ⟨["fleet_memory", "client", "build_outcome"], "1"⟩

/-- The record of the public project, written a day later. -/
def fleetPlace : Place :=
  ⟨["fleet_memory", "fleet", "build_outcome"], "2"⟩

def clientRows : DatedStore where
  store := (∅ : Store).insert clientPlace (spineRecord "client" "2026-07-01T10:00:00Z")
  createdAt _ := none

def bothRows : DatedStore where
  store := clientRows.store.insert fleetPlace (spineRecord "fleet" "2026-07-02T10:00:00Z")
  createdAt _ := none

theorem rehydrate_spineRecord (namespaceParts : List String) {project : String}
    (named : given (some project) = some project) (occurredAt : String) :
    rehydrate fleetChronicler.runtime namespaceParts (spineRecord project occurredAt) =
      .ok (some (spineEpisode project occurredAt)) := by
  have content : parsedContent fleetChronicler.runtime (Json.dumps (.dict spinePayload)) =
      .ok (.dict spinePayload) := by
    have body : (Json.dumps (.dict spinePayload)).isEmpty = false := by decide
    simp [parsedContent, body, fleetChronicler, Runtime.ofTables]
  have type : given (spineRecord project occurredAt).payloadType = some "build_outcome" := by
    show given (some "build_outcome") = _
    decide
  rw [rehydrate, type]
  show (parsedContent _ (Json.dumps (.dict spinePayload)) >>= _) = _
  rw [content, except_ok_bind]
  show Except.ok (some (HarvestedEpisode.mk ((given (some project)).getD _) _ _ _ _ _ _ _ _)) = _
  rw [named]
  rfl

theorem tells_spineEpisode (project occurredAt : String) :
    (spineEpisode project occurredAt).Tells fleetChronicler.runtime "cid-1" := by
  rfl

theorem harvests_spineEpisode (project occurredAt : String) :
    (spineEpisode project occurredAt).Harvests fleetChronicler.runtime
      fleetChronicler.publicProjects :=
  ⟨⟨[], rfl⟩, "cid-1", tells_spineEpisode project occurredAt⟩

theorem clientRows_growsTo : clientRows.GrowsTo bothRows := by
  intro place value stored
  refine ⟨?_, rfl⟩
  have different : place ≠ fleetPlace := by
    rintro rfl
    rw [clientRows, lookup_insert_other (by decide), Finmap.lookup_empty] at stored
    cases stored
  rw [bothRows, lookup_insert_other different]
  exact stored

theorem stored_bothRows {place : Place} {value : StoredValue}
    (stored : bothRows.store.lookup place = some value) :
    (place = clientPlace ∧ value = spineRecord "client" "2026-07-01T10:00:00Z") ∨
      (place = fleetPlace ∧ value = spineRecord "fleet" "2026-07-02T10:00:00Z") := by
  rw [bothRows, lookup_insert] at stored
  split at stored
  · exact .inr ⟨‹_›, (Option.some.inj stored).symm⟩
  · rw [clientRows, lookup_insert] at stored
    split at stored
    · exact .inl ⟨‹_›, (Option.some.inj stored).symm⟩
    · rw [Finmap.lookup_empty] at stored
      cases stored

/-- The episodes the two rows are read as. -/
theorem inBound_bothRows {since : Option String} {episode : HarvestedEpisode}
    (within : fleetChronicler.InBound bothRows since episode) :
    before since episode none = false ∧
      (episode = spineEpisode "client" "2026-07-01T10:00:00Z" ∨
        episode = spineEpisode "fleet" "2026-07-02T10:00:00Z") := by
  obtain ⟨namespaceParts, place, value, scans, rehydrated, notBefore⟩ := within
  refine ⟨notBefore, ?_⟩
  rcases stored_bothRows scans.stored with ⟨_, rfl⟩ | ⟨_, rfl⟩
  · rw [rehydrate_spineRecord namespaceParts (by decide)] at rehydrated
    exact .inl (Option.some.inj (Except.ok.inj rehydrated)).symm
  · rw [rehydrate_spineRecord namespaceParts (by decide)] at rehydrated
    exact .inr (Option.some.inj (Except.ok.inj rehydrated)).symm

/-- A scan of a thousand rows reads a store of so few whole. -/
theorem scansWhole_of_few {rows : DatedStore} (few : rows.store.keys.card ≤ 1000) :
    fleetChronicler.ScansWhole rows := by
  refine ⟨?_, fun namespaceParts _ => (length_ranking_le _ _ _).trans few⟩
  refine le_trans ?_ few
  show (Finset.sort _ _).length ≤ _
  rw [Finset.length_sort]
  exact Finset.card_image_le.trans (Finset.card_filter_le _ _)

/-- What holds of the rows as long as they are among the two. -/
theorem happens_run {state : ChroniclerState} (grows : state.rows.GrowsTo bothRows) (runId : String)
    (since : Option String) :
    fleetChronicler.Happens state (.run runId since)
      (fleetChronicler.next state (.run runId since)) := by
  have few : state.rows.store.keys.card ≤ 2 := by
    have among : state.rows.store.keys ⊆ {clientPlace, fleetPlace} := by
      intro place member
      obtain ⟨value, stored⟩ := mem_keys_iff.mp member
      rw [Finset.mem_insert, Finset.mem_singleton]
      exact (stored_bothRows (grows place value stored).1).imp And.left And.left
    exact (Finset.card_le_card among).trans Finset.card_le_two
  refine ⟨rfl, scansWhole_of_few (few.trans (by decide)), ?_⟩
  intro first second one two firstStored secondStored firstTells secondTells _
  have same : ∀ {episode story}, fleetChronicler.InBound state.rows none episode →
      episode.Tells fleetChronicler.runtime story → story = "cid-1" := by
    intro episode story stored tells
    rcases (inBound_bothRows (stored.grows grows)).2 with rfl | rfl
    · exact tells.unique (tells_spineEpisode _ _)
    · exact tells.unique (tells_spineEpisode _ _)
  rw [same firstStored firstTells, same secondStored secondTells]

theorem growsTo_refl (rows : DatedStore) : rows.GrowsTo rows :=
  fun _ _ stored => ⟨stored, rfl⟩

theorem readable_of_growsTo {rows : DatedStore} (grows : rows.GrowsTo bothRows) :
    fleetChronicler.Readable rows := by
  intro namespaceParts place value scans
  rcases stored_bothRows (grows place value scans.stored).1 with ⟨_, rfl⟩ | ⟨_, rfl⟩
  · exact ⟨_, rehydrate_spineRecord namespaceParts (by decide) _⟩
  · exact ⟨_, rehydrate_spineRecord namespaceParts (by decide) _⟩

/-- The key of the story and the projects of its episodes are single lines. -/
theorem singleLines_of_growsTo {rows : DatedStore} {since : Option String}
    (grows : rows.GrowsTo bothRows) : fleetChronicler.SingleLines rows since := by
  intro episode story within tells
  rcases (inBound_bothRows (within.grows grows)).2 with rfl | rfl
  · obtain rfl := tells.unique (tells_spineEpisode _ _)
    show strayLines "cid-1" "client" = []
    decide
  · obtain rfl := tells.unique (tells_spineEpisode _ _)
    show strayLines "cid-1" "fleet" = []
    decide

theorem inBound_of_stored {rows : DatedStore} {since : Option String} {place : Place}
    {project occurredAt : String}
    (stored : rows.store.lookup place = some (spineRecord project occurredAt))
    (named : given (some project) = some project)
    (own : place.namespaceParts = ["fleet_memory", project, "build_outcome"])
    (valid : validPart project = true)
    (notBefore : before since (spineEpisode project occurredAt) (rows.createdAt place) = false) :
    fleetChronicler.InBound rows since (spineEpisode project occurredAt) := by
  refine ⟨place.namespaceParts, place, _, ⟨stored, ?_, ?_, ?_⟩,
    rehydrate_spineRecord _ named occurredAt, notBefore⟩
  · refine (prefixListing.mem_namespaces _ _).mpr ⟨place, _, stored, ?_, ?_⟩
    · exact prefixListing.lists_own _ (by rw [own]; rfl)
    · rw [own]
      rfl
  · rw [own]
    rfl
  · refine fleetChronicler.engine.selects_own place _ fun part member => ?_
    rw [own] at member
    simp only [List.mem_cons, List.not_mem_nil, or_false] at member
    rcases member with rfl | rfl | rfl
    · decide
    · exact valid
    · decide

/-- The first run reads the confidential episode, the second one is bounded after it. -/
def declassifyingEvents : List ChroniclerEvent :=
  [.run "1" none, .arrive bothRows, .run "2" (some "2026-07-02T00:00:00Z")]

def unharvested : ChroniclerState where
  rows := clientRows
  outputs := { datasets := fun _ => none, storyCards := fun _ => none }
  read := []

def harvestedOnce : ChroniclerState :=
  fleetChronicler.next unharvested (.run "1" none)

def grown : ChroniclerState :=
  { harvestedOnce with rows := bothRows }

def harvestedTwice : ChroniclerState :=
  fleetChronicler.next grown (.run "2" (some "2026-07-02T00:00:00Z"))

theorem happens_arrive : fleetChronicler.Happens harvestedOnce (.arrive bothRows) grown :=
  ⟨rfl, clientRows_growsTo⟩

theorem declassifyingHistory :
    Transitions.Run fleetChronicler.Happens unharvested declassifyingEvents harvestedTwice :=
  .snoc (.snoc (.single (happens_run clientRows_growsTo "1" none)) happens_arrive)
    (happens_run (growsTo_refl bothRows) "2" _)

end FleetMemory
