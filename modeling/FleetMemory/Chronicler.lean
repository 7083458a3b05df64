/-
This file models the Chronicler: the reading of the stored episodes, the harvest that
makes dataset rows and one story card for each story, and the files a run writes. A card
is confidential as soon as one of its episodes belongs to a project that is not public, and
a run writes the card of a story from the episodes that run has read.
-/

import FleetMemory.Grouping
import FleetMemory.Payloads
import FleetMemory.PosixPath
import FleetMemory.Store
import Mathlib.Data.List.ReduceOption

namespace FleetMemory

/-! ### Episodes -/

/-- `text` when it is not empty. -/
def given (text : Option String) : Option String :=
  text.filter fun characters => !characters.isEmpty

/-- `entries.get(name)` when it is truthy. -/
def PyDict.getTruthy (entries : PyDict) (name : String) : Option PyValue :=
  (entries.get name).filter PyValue.truthy

/-- The entries `value.get` looks in. -/
def PyValue.attributes : PyValue → Except PyError PyDict
  | .dict entries => .ok entries
  | other => .error (.attributeError
      ("'" ++ other.typeName ++ "' object has no attribute 'get'"))

/-- One materialized episode record read from the store. -/
structure HarvestedEpisode where
  project : String
  payloadType : String
  naturalKey : String
  identifier : String
  payload : PyValue
  sourceRef : Option String
  occurredAt : Option String
  name : Option String
  source : Option String

/-- `_STORY_KEY_FIELDS`. -/
def storyKeyFields : List String := ["correlation_id", "feat_id", "spec_id", "task_id"]

/-- The story an episode belongs to. -/
def HarvestedEpisode.storyKey (runtime : Runtime) (episode : HarvestedEpisode) :
    Except PyError String := do
  let payload ← episode.payload.attributes
  match storyKeyFields.findSome? payload.getTruthy with
  | some value => return runtime.format value
  | none => return if episode.naturalKey.isEmpty then episode.identifier else episode.naturalKey

/-! ### Confidentiality -/

inductive Confidentiality where
  | confidential
  | nonConfidential
deriving DecidableEq, Repr

/-- The flag a card carries. -/
def Confidentiality.flag : Confidentiality → String
  | confidential => "confidential"
  | nonConfidential => "public"

/-- The confidentiality of a project's material. -/
def confidentialityOf (publicProjects : List String) (project : String) : Confidentiality :=
  if project ∈ publicProjects then .nonConfidential else .confidential

/-- `_parse_public_projects`. -/
def parsePublicProjects (raw : String) : List String :=
  ((Text.split ',' raw).map Text.strip).filter fun part => !part.isEmpty

/-! ### Dataset rows -/

/-- `FLYWHEEL_SOURCE`. -/
def flywheelSource : String := "flywheel"

/-- `_SYSTEM_PROMPT`. -/
def systemPrompt : String :=
  "You are a factory agent learning from the fleet's own delivery history. " ++
    "Given the context of a real work event, produce the lesson or refinement it teaches."

/-- A text, or `None`. -/
def textOrNone : Option String → PyValue
  | some text => .str text
  | none => .none

section

variable (runtime : Runtime) (publicProjects : List String) (episode : HarvestedEpisode)

/-- The provenance every dataset row carries. -/
def flywheelMetadata (extra : PyDict) : PyDict :=
  [("source", .str flywheelSource), ("layer", .str "behaviour"), ("turns", .int 2),
    ("flywheel", .dict [("episode_type", .str episode.payloadType),
      ("natural_key", .str episode.naturalKey), ("project", .str episode.project),
      ("source_ref", textOrNone episode.sourceRef), ("occurred_at", textOrNone episode.occurredAt),
      ("confidentiality", .str (confidentialityOf publicProjects episode.project).flag)])] ++ extra

/-- One dataset row. -/
def datasetRow (user assistant : PyValue) (dimension : String) (extra : PyDict) : PyValue :=
  let message (role : String) (content : PyValue) : PyValue :=
    .dict [("role", .str role), ("content", content)]
  .dict [("messages", .list [message "system" (.str systemPrompt), message "user" user,
      message "assistant" assistant]),
    ("metadata", .dict
      (flywheelMetadata publicProjects episode (("dimension", .str dimension) :: extra)))]

/-- A build outcome with lessons or an approach makes one row. -/
def extractBuildOutcome : Except PyError (List PyValue) := do
  let payload ← episode.payload.attributes
  let lessons := payload.getTruthy "lessons"
  let approach := payload.getTruthy "approach"
  if lessons.isNone && approach.isNone then return []
  let task := (payload.getTruthy "task_id").getD (.str episode.identifier)
  let status := (payload.get "status").getD (.str "unknown")
  let duration := match payload.get "duration_seconds" with
    | none => ""
    | some .none => ""
    | some seconds => " in " ++ runtime.format seconds ++ "s"
  let user := "A build for '" ++ runtime.format task ++ "' finished with status '" ++
    runtime.format status ++ "'" ++ duration ++
    ". What are the lessons and the approach worth carrying forward?"
  let parts := (lessons.map fun value => "Lessons: " ++ runtime.format value).toList ++
    (approach.map fun value => "Approach: " ++ runtime.format value).toList
  return [datasetRow publicProjects episode (.str user) (.str (String.intercalate "\n\n" parts))
    "build-retro" []]

/-- The dispositions of an assumption that was not accepted as it stood. -/
def refinedDisposition : PyValue → Bool
  | .str disposition => ["modified", "rejected", "deferred"].contains disposition
  | _ => false

/-- The row an assumption makes, if any. -/
def refinementRow (assumption : PyValue) : Except PyError (Option PyValue) := do
  let fields ← assumption.attributes
  let disposition := (fields.get "disposition").getD .none
  raiseIf disposition.unhashable (.typeError ("unhashable type: '" ++ disposition.typeName ++ "'"))
  if !refinedDisposition disposition then return none
  let delta := fields.getTruthy "edit_delta"
  let text := (fields.getTruthy "text").getD
    ((fields.get "assumption_id").getD (.str "an assumption"))
  if delta.isNone && !text.truthy then return none
  let user := "Refine this planning assumption: " ++ runtime.format text
  let assistant := delta.getD (.str
    ("Disposition: " ++ runtime.format disposition ++ " (see trace for the full edit)."))
  return some (datasetRow publicProjects episode (.str user) assistant "assumption-refinement"
    [("disposition", disposition)])

/-- Each assumption that was not accepted makes one row. -/
def extractPlanningOutcome : Except PyError (List PyValue) := do
  let payload ← episode.payload.attributes
  let assumptions ← iterate ((payload.get "assumptions").getD (.list []))
  let rows ← assumptions.mapM (refinementRow runtime publicProjects episode)
  return rows.reduceOption

/-- The rows the extractor of the episode's type makes. A type without one makes none. -/
def datasetRowsOf : Except PyError (List PyValue) :=
  match episode.payloadType with
  | "build_outcome" => extractBuildOutcome runtime publicProjects episode
  | "planning_outcome" => extractPlanningOutcome runtime publicProjects episode
  | _ => .ok []

end

/-! ### Story cards -/

/-- Replace every character outside the identifier charset with an underscore. -/
def norm (sourceId : String) : String :=
  String.ofList (sourceId.toList.map fun character =>
    if Text.word character then character else '_')

/-- A filesystem-safe slug for a story key. -/
def slug (value : String) : String :=
  let kept := String.ofList ((norm value).toList.take 120)
  if kept.isEmpty then "unkeyed" else kept

structure StoryCard where
  storyKey : String
  slug : String
  project : String
  confidentiality : Confidentiality
  episodes : List HarvestedEpisode

/-- A one-line summary of an episode. An episode of a card has a dict for its payload. -/
def episodeSummary (runtime : Runtime) (episode : HarvestedEpisode) : String :=
  let payload : PyDict := episode.payload.entries?.getD []
  let told := ["survival_state", "terminal_state", "decision", "verdict", "status"].findSome?
    fun keyField => (payload.getTruthy keyField).map fun value =>
      String.ofList (keyField.toList.map fun character => if character = '_' then ' ' else character)
        ++ ": " ++ runtime.format value
  told.getD (if episode.identifier.isEmpty then episode.naturalKey else episode.identifier)

namespace StoryCard

/-- The order of a timeline. -/
def inOrder (first second : HarvestedEpisode) : Bool :=
  let when (episode : HarvestedEpisode) := episode.occurredAt.getD ""
  decide (when first < when second) ||
    (when first == when second && !decide (second.naturalKey < first.naturalKey))

/-- The file name of a card. -/
def fileName (card : StoryCard) : String :=
  card.slug ++ ".md"

/-- The text of a card's file. -/
def renderMarkdown (runtime : Runtime) (card : StoryCard) : String :=
  let ordered := card.episodes.mergeSort inOrder
  String.intercalate "\n" (["---", "story_key: " ++ card.storyKey, "project: " ++ card.project,
    "confidentiality: " ++ card.confidentiality.flag,
    "published: false  # human gate (DF-008): nothing publishes unattended",
    "source: " ++ flywheelSource, "episode_count: " ++ toString ordered.length, "---", "",
    "# Story: " ++ card.storyKey, "",
    "_Draft story card — pending human review (DF-008 human gate). " ++
      "Confidentiality: **" ++ card.confidentiality.flag ++ "**._", "", "## Timeline", ""] ++
    (ordered.map fun episode => "- " ++ (given episode.occurredAt).getD "(undated)" ++ " · **" ++
      episode.payloadType ++ "** — " ++ episodeSummary runtime episode) ++ [""])

variable (publicProjects : List String)

/-- The card a story starts with, from its key and first episode. -/
def start (row : String × HarvestedEpisode) : StoryCard where
  storyKey := row.1
  slug := FleetMemory.slug row.1
  project := row.2.project
  confidentiality := confidentialityOf publicProjects row.2.project
  episodes := []

/-- Take an episode onto a card. A story spanning any confidential project stays confidential. -/
def add (card : StoryCard) (row : String × HarvestedEpisode) : StoryCard :=
  { card with
    episodes := card.episodes ++ [row.2]
    confidentiality :=
      if confidentialityOf publicProjects row.2.project = .confidential then .confidential
      else card.confidentiality }

end StoryCard

/-! ### The harvest -/

/-- What the loop over the episodes has gathered: the rows, and the cards under their keys. -/
structure Gathered where
  datasetRows : List PyValue
  cards : List (String × StoryCard)

structure HarvestResult where
  datasetRows : List PyValue
  storyCards : List StoryCard

section

variable (runtime : Runtime) (publicProjects : List String)

/-- One pass of the loop over the episodes. -/
def Gathered.take (gathered : Gathered) (episode : HarvestedEpisode) : Except PyError Gathered := do
  let rows ← datasetRowsOf runtime publicProjects episode
  let storyKey ← episode.storyKey runtime
  return {
    datasetRows := gathered.datasetRows ++ rows
    cards := Grouping.take Prod.fst (StoryCard.start publicProjects) (StoryCard.add publicProjects)
      gathered.cards (storyKey, episode) }

/-- Harvest episodes into dataset rows and story cards. -/
def harvest (episodes : List HarvestedEpisode) : Except PyError HarvestResult := do
  let gathered ← episodes.foldlM (Gathered.take runtime publicProjects) ⟨[], []⟩
  return { datasetRows := gathered.datasetRows, storyCards := gathered.cards.map Prod.snd }

end

/-! ### The store source -/

/-- The rows of the store, with the time each was created at. -/
structure DatedStore where
  store : Store
  createdAt : Place → Option String

/-- `alist_namespaces(prefix=("fleet_memory",), max_depth=3)`: the namespaces of the rows the
prefix lists, cut to three parts. -/
structure NamespaceListing where
  /-- Whether the prefix lists the rows of a namespace. -/
  lists : List String → Bool
  namespaces : Store → List (List String)
  mem_namespaces : ∀ store namespaceParts, namespaceParts ∈ namespaces store ↔
    ∃ place value, store.lookup place = some value ∧ lists place.namespaceParts = true ∧
      place.namespaceParts.take 3 = namespaceParts
  lists_own : ∀ namespaceParts, namespaceParts.head? = some "fleet_memory" →
    lists namespaceParts = true

/-- The payload in the content of a record. -/
def parsedContent (runtime : Runtime) (content : String) : Except PyError PyValue :=
  if content.isEmpty then .ok (.dict [])
  else
    match runtime.loads content with
    | .ok payload => .ok payload
    | .error (.decode _) => .ok (.dict [])
    | .error (.value text) => .error (.valueError text)

/-- Rebuild an episode from a stored value, or skip it. -/
def rehydrate (runtime : Runtime) (namespaceParts : List String) (value : StoredValue) :
    Except PyError (Option HarvestedEpisode) :=
  match given value.payloadType with
  | none => .ok none
  | some payloadType => do
    let payload ← parsedContent runtime value.content
    return some {
      project := (given value.project).getD (namespaceParts.getD 1 "")
      payloadType
      naturalKey := value.naturalKey.getD ""
      identifier := value.identifier.getD ""
      payload
      sourceRef := (given (value.episodeMeta.bind EpisodeMeta.sourceRef)).or value.sourceRef
      occurredAt := value.episodeMeta.bind EpisodeMeta.occurredAt
      name := value.episodeMeta.bind EpisodeMeta.name
      source := value.episodeMeta.bind EpisodeMeta.source }

/-- The bound leaves an episode out: it occurred, or its row was created, before the bound. An
episode with neither time is always taken. -/
def before (since : Option String) (episode : HarvestedEpisode) (createdAt : Option String) : Bool :=
  match given since, (given episode.occurredAt).or (given createdAt) with
  | some since, some bound => decide (bound < since)
  | _, _ => false

structure ChroniclerSettings where
  scanLimit : Nat
  publicProjects : String
  datasetIntakeDir : String
  storyCardQueueDir : String

/-- The Chronicler's settings, and what it calls. -/
structure Chronicler where
  runtime : Runtime
  engine : SearchEngine
  namespaceListing : NamespaceListing
  settings : ChroniclerSettings

/-- The files the runs have written: the rows of the datasets, and the texts of the story cards. -/
structure Outputs where
  datasets : String → Option (List PyValue)
  storyCards : String → Option String

structure ChroniclerRunResult where
  runId : String
  episodeCount : Nat
  datasetRowCount : Nat
  storyCardCount : Nat
  datasetPath : Option String
  storyCardPaths : List String

namespace Chronicler

variable (chronicler : Chronicler)

def publicProjects : List String :=
  parsePublicProjects chronicler.settings.publicProjects

section

variable (rows : DatedStore) (since : Option String)

/-- The episode a row of a namespace is read as, unless it is skipped. -/
def readItem (namespaceParts : List String) (item : Item) :
    Except PyError (Option HarvestedEpisode) := do
  let episode ← rehydrate chronicler.runtime namespaceParts item.value
  return episode.filter fun found => !before since found (rows.createdAt item.place)

/-- The rows of a namespace a run scans. -/
def scan (namespaceParts : List String) : List Item :=
  (storeWorld chronicler.engine).search rows.store
    { scope := listing namespaceParts, limit := chronicler.settings.scanLimit, offset := 0 }

def readNamespace (namespaceParts : List String) : Except PyError (List HarvestedEpisode) := do
  let episodes ← (chronicler.scan rows namespaceParts).mapM
    (chronicler.readItem rows since namespaceParts)
  return episodes.reduceOption

/-- The namespaces a run scans. -/
def scannedNamespaces : List (List String) :=
  ((chronicler.namespaceListing.namespaces rows.store).take chronicler.settings.scanLimit).filter
    fun namespaceParts => namespaceParts.length = 3

/-- Read the typed episode records of the store. -/
def readEpisodes : Except PyError (List HarvestedEpisode) := do
  let episodes ← (chronicler.scannedNamespaces rows).mapM (chronicler.readNamespace rows since)
  return episodes.flatten

end

/-! ### The sink and the run -/

end Chronicler

/-- Write the dataset rows of a run into the intake directory, if there are any. -/
def writeDatasetRows (rows : List PyValue) (runId : String)
    (datasets : String → Option (List PyValue)) : String → Option (List PyValue) :=
  if rows.isEmpty then datasets
  else Function.update datasets ("flywheel-" ++ runId ++ ".jsonl") (some rows)

/-- Write the text of each card to its file. -/
def writeStoryCards (runtime : Runtime) (cards : List StoryCard)
    (written : String → Option String) : String → Option String :=
  cards.foldl
    (fun files card => Function.update files card.fileName (some (card.renderMarkdown runtime)))
    written

/-- Run one harvest pass over the store. -/
def Chronicler.runChronicler (chronicler : Chronicler) (rows : DatedStore) (outputs : Outputs)
    (runId : String) (since : Option String) : Except PyError (ChroniclerRunResult × Outputs) := do
  let episodes ← chronicler.readEpisodes rows since
  let result ← harvest chronicler.runtime chronicler.publicProjects episodes
  let written : Outputs := {
    datasets := writeDatasetRows result.datasetRows runId outputs.datasets
    storyCards := writeStoryCards chronicler.runtime result.storyCards outputs.storyCards }
  return ({
    runId
    episodeCount := episodes.length
    datasetRowCount := result.datasetRows.length
    storyCardCount := result.storyCards.length
    datasetPath := if result.datasetRows.isEmpty then none else
      some (PosixPath.spelledIn chronicler.settings.datasetIntakeDir ("flywheel-" ++ runId ++ ".jsonl"))
    storyCardPaths := result.storyCards.map fun card =>
      PosixPath.spelledIn chronicler.settings.storyCardQueueDir card.fileName }, written)

/-! ### What a harvest makes -/

/-- The episode belongs to a story. -/
def HarvestedEpisode.Tells (runtime : Runtime) (episode : HarvestedEpisode) (story : String) : Prop :=
  episode.storyKey runtime = .ok story

theorem HarvestedEpisode.Tells.unique {runtime : Runtime} {episode : HarvestedEpisode}
    {first second : String} (one : episode.Tells runtime first) (two : episode.Tells runtime second) :
    first = second :=
  Except.ok.inj (one.symm.trans two)

/-- The harvest takes the episode without raising. -/
def HarvestedEpisode.Harvests (runtime : Runtime) (publicProjects : List String)
    (episode : HarvestedEpisode) : Prop :=
  (∃ rows, datasetRowsOf runtime publicProjects episode = .ok rows) ∧
    ∃ story, episode.Tells runtime story

theorem confidentialityOf_eq_confidential {publicProjects : List String} {project : String} :
    confidentialityOf publicProjects project = .confidential ↔ project ∉ publicProjects := by
  unfold confidentialityOf
  split <;> simp [*]

theorem confidentialityOf_eq_nonConfidential {publicProjects : List String} {project : String} :
    confidentialityOf publicProjects project = .nonConfidential ↔ project ∈ publicProjects := by
  unfold confidentialityOf
  split <;> simp [*]

namespace StoryCard

section

variable {publicProjects : List String}

theorem start_storyKey (row : String × HarvestedEpisode) :
    (start publicProjects row).storyKey = row.1 := rfl

theorem start_slug (row : String × HarvestedEpisode) :
    (start publicProjects row).slug = FleetMemory.slug row.1 := by
  simp only [start]

variable (card : StoryCard)

theorem foldl_add_storyKey (rows : List (String × HarvestedEpisode)) :
    (rows.foldl (add publicProjects) card).storyKey = card.storyKey := by
  induction rows generalizing card with
  | nil => rfl
  | cons row rest inductionHypothesis => exact inductionHypothesis (card.add publicProjects row)

theorem foldl_add_slug (rows : List (String × HarvestedEpisode)) :
    (rows.foldl (add publicProjects) card).slug = card.slug := by
  induction rows generalizing card with
  | nil => rfl
  | cons row rest inductionHypothesis => exact inductionHypothesis (card.add publicProjects row)

theorem add_nonConfidential {row : String × HarvestedEpisode} :
    (card.add publicProjects row).confidentiality = .nonConfidential ↔
      card.confidentiality = .nonConfidential ∧ row.2.project ∈ publicProjects := by
  simp only [add, confidentialityOf_eq_confidential]
  split <;> simp_all

/-- A card stays public while every episode it takes belongs to a public project. -/
theorem foldl_add_nonConfidential (rows : List (String × HarvestedEpisode)) :
    (rows.foldl (add publicProjects) card).confidentiality = .nonConfidential ↔
      card.confidentiality = .nonConfidential ∧ ∀ row ∈ rows, row.2.project ∈ publicProjects := by
  induction rows generalizing card with
  | nil => simp
  | cons row rest inductionHypothesis =>
    rw [List.foldl_cons, inductionHypothesis, add_nonConfidential, List.forall_mem_cons, and_assoc]

end

/-- What the card of a story says of the episodes it was made from. -/
structure Made (publicProjects : List String) (rows : List (String × HarvestedEpisode))
    (story : String) (card : StoryCard) : Prop where
  storyKey : card.storyKey = story
  slug : card.slug = FleetMemory.slug story
  told : ∃ row ∈ rows, row.1 = story
  nonConfidential : card.confidentiality = .nonConfidential ↔
    ∀ row ∈ rows, row.1 = story → row.2.project ∈ publicProjects

theorem made_of_groupOf {publicProjects : List String} {rows : List (String × HarvestedEpisode)}
    {story : String} {card : StoryCard}
    (group : Grouping.groupOf (start publicProjects) (add publicProjects)
      (Grouping.rowsOf Prod.fst rows story) = some card) :
    Made publicProjects rows story card := by
  have members : ∀ row, row ∈ Grouping.rowsOf Prod.fst rows story ↔ row ∈ rows ∧ row.1 = story :=
    fun row => by simp [Grouping.rowsOf]
  cases own : Grouping.rowsOf Prod.fst rows story with
  | nil =>
    rw [own] at group
    cases group
  | cons first rest =>
    rw [own] at group members
    obtain rfl := Option.some.inj group
    obtain ⟨present, rfl⟩ := (members first).mp List.mem_cons_self
    refine ⟨by rw [foldl_add_storyKey, start_storyKey], by rw [foldl_add_slug, start_slug],
      ⟨first, present, rfl⟩, ?_⟩
    rw [foldl_add_nonConfidential]
    constructor
    · rintro ⟨_, others⟩ row member same
      exact others row ((members row).mpr ⟨member, same⟩)
    · intro all
      have own : ∀ row ∈ first :: rest, row.2.project ∈ publicProjects := fun row member =>
        all row ((members row).mp member).1 ((members row).mp member).2
      exact ⟨confidentialityOf_eq_nonConfidential.mpr (own first List.mem_cons_self), own⟩

end StoryCard

section

variable {runtime : Runtime} {publicProjects : List String} {episodes : List HarvestedEpisode}

/-- The loop over the episodes takes each into the card of its story. -/
theorem gathered_of_foldlM {first last : Gathered}
    (gathered : episodes.foldlM (Gathered.take runtime publicProjects) first = .ok last) :
    ∃ rows : List (String × HarvestedEpisode), rows.map Prod.snd = episodes ∧
      (∀ row ∈ rows, row.2.Tells runtime row.1) ∧
      last.cards = rows.foldl (Grouping.take Prod.fst (StoryCard.start publicProjects)
        (StoryCard.add publicProjects)) first.cards := by
  induction episodes generalizing first with
  | nil =>
    obtain rfl := Except.ok.inj gathered
    exact ⟨[], rfl, by simp, rfl⟩
  | cons episode rest inductionHypothesis =>
    rw [List.foldlM_cons] at gathered
    obtain ⟨next, taken, later⟩ := except_bind_eq_ok.mp gathered
    obtain ⟨_, _, keyed⟩ := except_bind_eq_ok.mp taken
    obtain ⟨story, tells, built⟩ := except_bind_eq_ok.mp keyed
    obtain rfl := Except.ok.inj built
    obtain ⟨rows, own, told, cards⟩ := inductionHypothesis later
    exact ⟨(story, episode) :: rows, by rw [List.map_cons, own],
      List.forall_mem_cons.mpr ⟨tells, told⟩, cards⟩

/-- The loop over the episodes raises exactly when one of them does not harvest. -/
theorem foldlM_raises_iff {first : Gathered} :
    (∃ error, episodes.foldlM (Gathered.take runtime publicProjects) first = .error error) ↔
      ∃ episode ∈ episodes, ¬episode.Harvests runtime publicProjects := by
  induction episodes generalizing first with
  | nil => simp [pure, Except.pure]
  | cons episode rest inductionHypothesis =>
    rw [List.foldlM_cons, List.exists_mem_cons_iff, HarvestedEpisode.Harvests, Gathered.take]
    cases rows : datasetRowsOf runtime publicProjects episode with
    | error error => simp [bind, Except.bind]
    | ok made =>
      unfold HarvestedEpisode.Tells
      cases key : episode.storyKey runtime with
      | error error => simp [bind, Except.bind]
      | ok story =>
        simp only [Except.ok.injEq, exists_eq', and_self, not_true_eq_false, false_or]
        exact inductionHypothesis

/-- The harvest raises exactly when an episode does not harvest. -/
theorem harvest_raises_iff :
    (∃ error, harvest runtime publicProjects episodes = .error error) ↔
      ∃ episode ∈ episodes, ¬episode.Harvests runtime publicProjects := by
  rw [← @foldlM_raises_iff runtime publicProjects episodes ⟨[], []⟩, harvest]
  cases episodes.foldlM (Gathered.take runtime publicProjects) ⟨[], []⟩ <;>
    simp [bind, Except.bind, pure, Except.pure]

/-- What the cards of a harvest say of the episodes it took. -/
structure Harvested (runtime : Runtime) (publicProjects : List String)
    (episodes : List HarvestedEpisode) (cards : List StoryCard) : Prop where
  /-- Every episode belongs to a story that has a card. -/
  carded : ∀ episode ∈ episodes, ∃ card ∈ cards, episode.Tells runtime card.storyKey
  /-- Every card is of a story with an episode, under the slug of that story. -/
  told : ∀ card ∈ cards, card.slug = slug card.storyKey ∧
    ∃ episode ∈ episodes, episode.Tells runtime card.storyKey
  /-- A card is public exactly when every episode of its story belongs to a public project. -/
  nonConfidential : ∀ card ∈ cards, (card.confidentiality = .nonConfidential ↔
    ∀ episode ∈ episodes, episode.Tells runtime card.storyKey → episode.project ∈ publicProjects)
  /-- A story has one card. -/
  unique : ∀ first ∈ cards, ∀ second ∈ cards, first.storyKey = second.storyKey → first = second

/-- The episodes with their stories, and the cards these make. -/
theorem cards_of_harvest {result : HarvestResult}
    (returned : harvest runtime publicProjects episodes = .ok result) :
    ∃ rows : List (String × HarvestedEpisode), rows.map Prod.snd = episodes ∧
      (∀ row ∈ rows, row.2.Tells runtime row.1) ∧
      result.storyCards = (Grouping.grouped Prod.fst (StoryCard.start publicProjects)
        (StoryCard.add publicProjects) rows).map Prod.snd ∧
      ∀ card ∈ result.storyCards,
        Grouping.groupOf (StoryCard.start publicProjects) (StoryCard.add publicProjects)
          (Grouping.rowsOf Prod.fst rows card.storyKey) = some card := by
  obtain ⟨gathered, loop, built⟩ := except_bind_eq_ok.mp returned
  obtain rfl := Except.ok.inj built
  obtain ⟨rows, own, tells, cards⟩ := gathered_of_foldlM loop
  have grouped : gathered.cards = Grouping.grouped Prod.fst (StoryCard.start publicProjects)
      (StoryCard.add publicProjects) rows := cards
  refine ⟨rows, own, tells, congrArg (List.map Prod.snd) grouped, fun card member => ?_⟩
  obtain ⟨⟨story, _⟩, present, rfl⟩ := List.mem_map.mp member
  rw [grouped] at present
  have group := (Grouping.mem_grouped _ _ _).mp present
  rwa [(StoryCard.made_of_groupOf group).storyKey]

theorem harvested {result : HarvestResult}
    (returned : harvest runtime publicProjects episodes = .ok result) :
    Harvested runtime publicProjects episodes result.storyCards := by
  obtain ⟨rows, rfl, tells, cards, ofCard⟩ := cards_of_harvest returned
  have made : ∀ card ∈ result.storyCards,
      StoryCard.Made publicProjects rows card.storyKey card :=
    fun card member => StoryCard.made_of_groupOf (ofCard card member)
  refine ⟨?_, ?_, ?_, ?_⟩
  · intro episode member
    obtain ⟨row, present, rfl⟩ := List.mem_map.mp member
    obtain ⟨card, carded⟩ := Grouping.exists_mem_grouped Prod.fst (StoryCard.start publicProjects)
      (StoryCard.add publicProjects) present
    refine ⟨card, cards ▸ List.mem_map.mpr ⟨_, carded, rfl⟩, ?_⟩
    rw [(StoryCard.made_of_groupOf ((Grouping.mem_grouped _ _ _).mp carded)).storyKey]
    exact tells row present
  · intro card member
    obtain ⟨row, present, same⟩ := (made card member).told
    exact ⟨(made card member).slug, row.2, List.mem_map_of_mem present, same ▸ tells row present⟩
  · intro card member
    rw [(made card member).nonConfidential]
    constructor
    · intro all episode inside told
      obtain ⟨row, present, rfl⟩ := List.mem_map.mp inside
      exact all row present ((tells row present).unique told)
    · intro all row present same
      exact all row.2 (List.mem_map_of_mem present) (same ▸ tells row present)
  · intro first one second two same
    have group := ofCard second two
    rw [← same, ofCard first one] at group
    exact Option.some.inj group

end

/-! ### The files a run writes -/

section

variable {runtime : Runtime} {cards : List StoryCard} {written : String → Option String}

theorem writeStoryCards_concat (card : StoryCard) :
    writeStoryCards runtime (cards ++ [card]) written =
      Function.update (writeStoryCards runtime cards written) card.fileName
        (some (card.renderMarkdown runtime)) := by
  rw [writeStoryCards, List.foldl_append]
  rfl

/-- What stands in a file is the text of a card written to it, or what stood there when none was. -/
theorem writeStoryCards_eq_some {name text : String}
    (found : writeStoryCards runtime cards written name = some text) :
    (∃ card ∈ cards, card.fileName = name ∧ card.renderMarkdown runtime = text) ∨
      (written name = some text ∧ ∀ other ∈ cards, other.fileName ≠ name) := by
  induction cards using List.reverseRecOn with
  | nil => exact .inr ⟨found, by simp⟩
  | append_singleton rest last inductionHypothesis =>
    rw [writeStoryCards_concat, Function.update_apply] at found
    split at found
    · rename_i same
      exact .inl ⟨last, List.mem_append_right rest (List.mem_singleton_self last), same.symm,
        Option.some.inj found⟩
    · rename_i different
      rcases inductionHypothesis found with ⟨card, member, holds⟩ | ⟨earlier, others⟩
      · exact .inl ⟨card, List.mem_append_left _ member, holds⟩
      · refine .inr ⟨earlier, List.forall_mem_append.mpr ⟨others, ?_⟩⟩
        exact List.forall_mem_singleton.mpr fun same => different same.symm

/-- A file a card is written to has a text. -/
theorem isSome_writeStoryCards {card : StoryCard} (member : card ∈ cards) :
    (writeStoryCards runtime cards written card.fileName).isSome := by
  induction cards using List.reverseRecOn with
  | nil => cases member
  | append_singleton rest last inductionHypothesis =>
    rw [writeStoryCards_concat, Function.update_apply]
    split
    · rfl
    · rename_i different
      rcases List.mem_append.mp member with inside | final
      · exact inductionHypothesis inside
      · exact absurd (List.mem_singleton.mp final ▸ rfl) different

/-- The text of a card stands in its file when no other card has that file. -/
theorem writeStoryCards_of_mem {card : StoryCard} (member : card ∈ cards)
    (alone : ∀ other ∈ cards, other.fileName = card.fileName → other = card) :
    writeStoryCards runtime cards written card.fileName = some (card.renderMarkdown runtime) := by
  induction cards using List.reverseRecOn with
  | nil => cases member
  | append_singleton rest last inductionHypothesis =>
    obtain ⟨earlier, atLast⟩ := List.forall_mem_append.mp alone
    rw [writeStoryCards_concat, Function.update_apply]
    split
    · rename_i same
      rw [atLast last (List.mem_singleton_self last) same.symm]
    · rename_i different
      rcases List.mem_append.mp member with inside | final
      · exact inductionHypothesis inside earlier
      · exact absurd (List.mem_singleton.mp final ▸ rfl) different

end

/-! ### The episodes a run reads -/

namespace Chronicler

variable (chronicler : Chronicler) (rows : DatedStore)

/-- A stored row is among those a run scans in a namespace. -/
structure Scans (namespaceParts : List String) (place : Place) (value : StoredValue) : Prop where
  stored : rows.store.lookup place = some value
  listed : namespaceParts ∈ chronicler.namespaceListing.namespaces rows.store
  threeParts : namespaceParts.length = 3
  selected : chronicler.engine.selects (listing namespaceParts) place value = true

/-- No scan reaches its limit. -/
structure ScansWhole : Prop where
  namespaces : (chronicler.namespaceListing.namespaces rows.store).length ≤
    chronicler.settings.scanLimit
  rows : ∀ namespaceParts ∈ chronicler.namespaceListing.namespaces rows.store,
    (chronicler.engine.ranking (listing namespaceParts) rows.store).length ≤
      chronicler.settings.scanLimit

/-- Every row a run scans can be rehydrated. -/
def Readable : Prop :=
  ∀ namespaceParts place value, chronicler.Scans rows namespaceParts place value →
    ∃ found, rehydrate chronicler.runtime namespaceParts value = .ok found

/-- An episode of the store is within a bound. -/
def InBound (since : Option String) (episode : HarvestedEpisode) : Prop :=
  ∃ namespaceParts place value, chronicler.Scans rows namespaceParts place value ∧
    rehydrate chronicler.runtime namespaceParts value = .ok (some episode) ∧
    before since episode (rows.createdAt place) = false

variable {chronicler rows} {since : Option String}

section

variable (whole : chronicler.ScansWhole rows)

include whole

theorem mem_scannedNamespaces {namespaceParts : List String} :
    namespaceParts ∈ chronicler.scannedNamespaces rows ↔
      namespaceParts ∈ chronicler.namespaceListing.namespaces rows.store ∧
        namespaceParts.length = 3 := by
  rw [scannedNamespaces, List.take_of_length_le whole.namespaces, List.mem_filter,
    decide_eq_true_iff]

theorem mem_scan_iff {namespaceParts : List String} {place : Place} {value : StoredValue} :
    (namespaceParts ∈ chronicler.scannedNamespaces rows ∧
        ∃ item ∈ chronicler.scan rows namespaceParts, item.place = place ∧ item.value = value) ↔
      chronicler.Scans rows namespaceParts place value := by
  rw [mem_scannedNamespaces whole]
  constructor
  · rintro ⟨⟨listed, threeParts⟩, item, member, rfl, rfl⟩
    rw [scan, storeWorld_search, window_listing, List.drop_zero] at member
    have ranked := (chronicler.engine.mem_ranking _ _ item).mp (List.mem_of_mem_take member)
    exact ⟨ranked.1, listed, threeParts, ranked.2.1⟩
  · intro scans
    obtain ⟨item, member, here, own⟩ := exists_mem_ranking scans.stored scans.selected
    refine ⟨⟨scans.listed, scans.threeParts⟩, item, ?_, here, own⟩
    rw [scan, storeWorld_search, window_listing, List.drop_zero,
      List.take_of_length_le (whole.rows namespaceParts scans.listed)]
    exact member

omit whole in
theorem readItem_eq_some {namespaceParts : List String} {item : Item} {episode : HarvestedEpisode} :
    chronicler.readItem rows since namespaceParts item = .ok (some episode) ↔
      rehydrate chronicler.runtime namespaceParts item.value = .ok (some episode) ∧
        before since episode (rows.createdAt item.place) = false := by
  rw [readItem]
  cases rehydrate chronicler.runtime namespaceParts item.value with
  | error error => simp [bind, Except.bind]
  | ok found =>
    change Except.ok (found.filter _) = Except.ok (some episode) ↔ _
    rw [Except.ok.injEq, Except.ok.injEq, Option.filter_eq_some_iff, Bool.not_eq_true']

omit whole in
theorem readItem_raises_iff {namespaceParts : List String} {item : Item} :
    (∃ error, chronicler.readItem rows since namespaceParts item = .error error) ↔
      ∃ error, rehydrate chronicler.runtime namespaceParts item.value = .error error := by
  rw [readItem]
  cases rehydrate chronicler.runtime namespaceParts item.value <;>
    simp [bind, Except.bind, pure, Except.pure]

omit whole in
theorem mem_readNamespace {namespaceParts : List String} {episodes : List HarvestedEpisode}
    (returned : chronicler.readNamespace rows since namespaceParts = .ok episodes)
    {episode : HarvestedEpisode} :
    episode ∈ episodes ↔ ∃ item ∈ chronicler.scan rows namespaceParts,
      chronicler.readItem rows since namespaceParts item = .ok (some episode) := by
  obtain ⟨read, loop, built⟩ := except_bind_eq_ok.mp returned
  obtain rfl := Except.ok.inj built
  rw [List.reduceOption_mem_iff, except_mem_mapM loop]

omit whole in
theorem readNamespace_raises_iff {namespaceParts : List String} :
    (∃ error, chronicler.readNamespace rows since namespaceParts = .error error) ↔
      ∃ item ∈ chronicler.scan rows namespaceParts,
        ∃ error, rehydrate chronicler.runtime namespaceParts item.value = .error error := by
  have passes : (∃ error, chronicler.readNamespace rows since namespaceParts = .error error) ↔
      ∃ item ∈ chronicler.scan rows namespaceParts,
        ∃ error, chronicler.readItem rows since namespaceParts item = .error error := by
    rw [← except_mapM_raises_iff, readNamespace]
    cases (chronicler.scan rows namespaceParts).mapM
      (chronicler.readItem rows since namespaceParts) <;>
      simp [bind, Except.bind, pure, Except.pure]
  simp only [passes, readItem_raises_iff]

/-- A run reads the episodes within its bound. -/
theorem mem_readEpisodes {episodes : List HarvestedEpisode}
    (returned : chronicler.readEpisodes rows since = .ok episodes) {episode : HarvestedEpisode} :
    episode ∈ episodes ↔ chronicler.InBound rows since episode := by
  obtain ⟨read, loop, built⟩ := except_bind_eq_ok.mp returned
  obtain rfl := Except.ok.inj built
  rw [List.mem_flatten]
  constructor
  · rintro ⟨found, member, inside⟩
    obtain ⟨namespaceParts, scanned, here⟩ := (except_mem_mapM loop).mp member
    obtain ⟨item, itemScanned, taken⟩ := (mem_readNamespace here).mp inside
    obtain ⟨rehydrated, notBefore⟩ := readItem_eq_some.mp taken
    exact ⟨namespaceParts, item.place, item.value,
      (mem_scan_iff whole).mp ⟨scanned, item, itemScanned, rfl, rfl⟩, rehydrated, notBefore⟩
  · rintro ⟨namespaceParts, place, value, scans, rehydrated, notBefore⟩
    obtain ⟨scanned, item, itemScanned, rfl, rfl⟩ := (mem_scan_iff whole).mpr scans
    obtain ⟨found, member, here⟩ := except_of_mapM loop scanned
    exact ⟨found, member, (mem_readNamespace here).mpr
      ⟨item, itemScanned, readItem_eq_some.mpr ⟨rehydrated, notBefore⟩⟩⟩

/-- The reading raises exactly when a row cannot be rehydrated. -/
theorem readEpisodes_raises_iff :
    (∃ error, chronicler.readEpisodes rows since = .error error) ↔ ¬chronicler.Readable rows := by
  have loop : (∃ error, chronicler.readEpisodes rows since = .error error) ↔
      ∃ namespaceParts ∈ chronicler.scannedNamespaces rows,
        ∃ error, chronicler.readNamespace rows since namespaceParts = .error error := by
    rw [← except_mapM_raises_iff, readEpisodes]
    cases (chronicler.scannedNamespaces rows).mapM (chronicler.readNamespace rows since) <;>
      simp [bind, Except.bind, pure, Except.pure]
  rw [loop]
  constructor
  · rintro ⟨namespaceParts, scanned, raises⟩ readable
    obtain ⟨item, itemScanned, error, raised⟩ := readNamespace_raises_iff.mp raises
    obtain ⟨found, rehydrated⟩ := readable namespaceParts item.place item.value
      ((mem_scan_iff whole).mp ⟨scanned, item, itemScanned, rfl, rfl⟩)
    rw [raised] at rehydrated
    cases rehydrated
  · intro unreadable
    simp only [Readable, not_forall] at unreadable
    obtain ⟨namespaceParts, place, value, scans, never⟩ := unreadable
    obtain ⟨scanned, item, itemScanned, rfl, rfl⟩ := (mem_scan_iff whole).mpr scans
    refine ⟨namespaceParts, scanned, readNamespace_raises_iff.mpr ⟨item, itemScanned, ?_⟩⟩
    cases rehydrated : rehydrate chronicler.runtime namespaceParts item.value with
    | error error => exact ⟨error, rfl⟩
    | ok found => exact absurd ⟨found, rehydrated⟩ never

end

/-! ### How a run ends -/

section

variable {outputs : Outputs} {runId : String} {episodes : List HarvestedEpisode}

theorem runChronicler_of_unreadable {error : PyError}
    (raised : chronicler.readEpisodes rows since = .error error) :
    chronicler.runChronicler rows outputs runId since = .error error := by
  rw [runChronicler, raised, except_error_bind]

theorem runChronicler_of_stopped {error : PyError}
    (read : chronicler.readEpisodes rows since = .ok episodes)
    (raised : harvest chronicler.runtime chronicler.publicProjects episodes = .error error) :
    chronicler.runChronicler rows outputs runId since = .error error := by
  rw [runChronicler, read, except_ok_bind, raised, except_error_bind]

/-- A run that returns has written the cards of its harvest over the earlier ones. -/
theorem runChronicler_of_returned {result : HarvestResult}
    (read : chronicler.readEpisodes rows since = .ok episodes)
    (returned : harvest chronicler.runtime chronicler.publicProjects episodes = .ok result) :
    ∃ summary, chronicler.runChronicler rows outputs runId since = .ok (summary, {
      datasets := writeDatasetRows result.datasetRows runId outputs.datasets
      storyCards := writeStoryCards chronicler.runtime result.storyCards outputs.storyCards }) :=
  ⟨_, except_bind_eq_ok.mpr ⟨episodes, read, except_bind_eq_ok.mpr ⟨result, returned, rfl⟩⟩⟩

end

end Chronicler

end FleetMemory
