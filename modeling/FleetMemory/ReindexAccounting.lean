/-
This file proves what a reindex run reports. Each document has one fate: it is published,
skipped with a reason, or unparseable with a reason, and the report lists exactly these. A
run returns its report exactly when no document raises in its classification or its title,
where the source catches nothing but a `YAMLError`.
-/

import FleetMemory.Reindex
import Mathlib.Data.List.Perm.Basic

namespace FleetMemory

open StoreProgram DeterministicWriter PosixPath

/-! ### Collisions -/

section

variable {runtime : Runtime}

theorem deepest_perm (before : List Candidate) (winner : Candidate) (after rest : List Candidate) :
    ((deepest before winner after rest).1 :: (deepest before winner after rest).2).Perm
      (before ++ winner :: after ++ rest) := by
  induction rest generalizing before winner after with
  | nil =>
    rw [deepest, List.append_nil]
    exact List.perm_middle.symm
  | cons candidate rest inductionHypothesis =>
    rw [deepest]
    split
    · have moved := inductionHypothesis (before ++ winner :: after) candidate []
      simpa using moved
    · have moved := inductionHypothesis before winner (after ++ [candidate])
      simpa using moved

/-- Candidates skipped for one reason. -/
theorem skipped_for (candidates : List Candidate) (reason : String) :
    ∃ losers : List (Candidate × String),
      (candidates.map fun candidate => candidate.skippedFor reason) =
          losers.map (fun loser => loser.1.skippedFor loser.2) ∧
        losers.map Prod.fst = candidates :=
  ⟨candidates.map fun candidate => (candidate, reason), by simp [Function.comp_def],
    by simp [Function.comp_def]⟩

/-- The candidates of a group are the winners and the skipped. -/
theorem resolveGroup_perm (group : List Candidate) :
    ∃ losers : List (Candidate × String),
      (resolveGroup runtime group).skipped = losers.map (fun loser => loser.1.skippedFor loser.2) ∧
        ((resolveGroup runtime group).winners ++ losers.map Prod.fst).Perm group := by
  unfold resolveGroup
  split
  · exact ⟨[], rfl, .refl _⟩
  · exact ⟨[], rfl, .refl _⟩
  · rename_i first rest _
    split
    · obtain ⟨losers, skipped, same⟩ := skipped_for (first :: rest) _
      exact ⟨losers, skipped, by rw [same]; exact .refl _⟩
    · obtain ⟨losers, skipped, same⟩ := skipped_for (deepest [] first [] rest).2 _
      exact ⟨losers, skipped, by rw [same]; exact deepest_perm [] first [] rest⟩

theorem addToGroup_perm (groups : List (String × List Candidate)) (candidate : Candidate) :
    ((addToGroup groups candidate).flatMap Prod.snd).Perm
      (groups.flatMap Prod.snd ++ [candidate]) := by
  induction groups with
  | nil => exact .refl _
  | cons entry rest inductionHypothesis =>
    obtain ⟨identifier, group⟩ := entry
    rw [addToGroup]
    split
    · simp only [List.flatMap_cons, List.append_assoc]
      exact (List.perm_append_comm).append_left group
    · simp only [List.flatMap_cons, List.append_assoc]
      exact inductionHypothesis.append_left group

theorem byIdentifier_perm (candidates : List Candidate) :
    ((byIdentifier candidates).flatMap Prod.snd).Perm candidates := by
  have run : ∀ groups, ((candidates.foldl addToGroup groups).flatMap Prod.snd).Perm
      (groups.flatMap Prod.snd ++ candidates) := by
    induction candidates with
    | nil =>
      intro groups
      rw [List.append_nil]
      exact .refl _
    | cons candidate rest inductionHypothesis =>
      intro groups
      rw [List.append_cons]
      exact (inductionHypothesis _).trans ((addToGroup_perm groups candidate).append_right rest)
  exact run []

/-- The candidates are the winners and the skipped. -/
theorem resolveCollisions_perm (candidates : List Candidate) :
    ∃ losers : List (Candidate × String),
      (resolveCollisions runtime candidates).skipped =
          losers.map (fun loser => loser.1.skippedFor loser.2) ∧
        ((resolveCollisions runtime candidates).winners ++ losers.map Prod.fst).Perm
          candidates := by
  have run : ∀ groups : List (String × List Candidate), ∃ losers : List (Candidate × String),
      ((groups.map fun entry => resolveGroup runtime entry.2).flatMap Resolved.skipped) =
          losers.map (fun loser => loser.1.skippedFor loser.2) ∧
        (((groups.map fun entry => resolveGroup runtime entry.2).flatMap Resolved.winners) ++
          losers.map Prod.fst).Perm (groups.flatMap Prod.snd) := by
    intro groups
    induction groups with
    | nil => exact ⟨[], rfl, .refl _⟩
    | cons entry rest inductionHypothesis =>
      obtain ⟨others, skipped, perm⟩ := inductionHypothesis
      obtain ⟨losers, reasons, split⟩ := @resolveGroup_perm runtime entry.2
      refine ⟨losers ++ others, ?_, ?_⟩
      · rw [List.map_cons, List.flatMap_cons, reasons, skipped, List.map_append]
      · rw [List.map_cons, List.flatMap_cons, List.flatMap_cons, List.map_append]
        refine List.Perm.trans ?_ (split.append perm)
        simp only [List.append_assoc]
        refine List.Perm.append_left _ ?_
        rw [← List.append_assoc, ← List.append_assoc]
        exact List.perm_append_comm.append_right _
  obtain ⟨losers, skipped, perm⟩ := run (byIdentifier candidates)
  exact ⟨losers, skipped, perm.trans (byIdentifier_perm candidates)⟩

end

/-! ### Documents that raise -/

section

variable {runtime : Runtime} {yaml : YamlLibrary} {manifest : CorpusManifest}
  {doc : CorpusDocument}

/-- A document of a reindex root raises outside the parser: its front matter has a value no
constructor makes, or a status or a title that cannot be printed. -/
def Aborts (runtime : Runtime) (yaml : YamlLibrary) (manifest : CorpusManifest)
    (doc : CorpusDocument) : Prop :=
  (∃ kind, manifest.resolveKind doc.relativePath = some (kind, "reindex")) ∧
    ((∃ text, yaml.extractFrontmatter doc.text = .error (.valueError text)) ∨
      ∃ frontmatter, yaml.extractFrontmatter doc.text = .ok (.dict frontmatter) ∧
        agentDefinition frontmatter = false ∧ hasId frontmatter = true ∧
          ((∃ error, yaml.statusOf frontmatter = .error error) ∨
            (∃ payload, parseCompletedTask runtime yaml doc frontmatter = .ok (.parsed payload)) ∧
              ∃ error, titleOf yaml frontmatter = .error error))

/-- A document that is parsed has a terminal status. -/
theorem status_of_parsed {frontmatter : YamlDict} {payload : Payload}
    (parsed : parseCompletedTask runtime yaml doc frontmatter = .ok (.parsed payload)) :
    ∃ status, yaml.statusOf frontmatter = .ok status ∧ status.toLower ∈ terminalStatuses := by
  unfold parseCompletedTask at parsed
  split at parsed
  · cases parsed
  · split at parsed
    · cases parsed
    · obtain ⟨status, read, parsed⟩ := except_bind_eq_ok.mp parsed
      refine ⟨status, read, ?_⟩
      by_contra other
      rw [if_pos other] at parsed
      cases parsed

/-- What a document's classification raises, the run raises. -/
theorem examine_of_skipped {classification : Classification} {reason : String}
    (classified : classifyDocument yaml manifest doc = .ok classification)
    (skipped : classification.skipReason = some reason) :
    examine runtime yaml manifest doc = .ok (.skipped ⟨doc.relativePath, reason⟩) := by
  rw [examine, classified, except_ok_bind]
  dsimp only
  rw [skipped]
  rfl

/-- A publishable document is a candidate, or its title raises, or it is unparseable. -/
theorem examine_of_publishable {kind : Option String} {frontmatter : YamlDict}
    (classified : classifyDocument yaml manifest doc =
      .ok { kind, frontmatter := some frontmatter, skipReason := none }) :
    examine runtime yaml manifest doc =
      match parseCompletedTask runtime yaml doc frontmatter with
      | .error error =>
        .ok (.unparseable ⟨doc.relativePath, "Parser error: " ++ error.text runtime⟩)
      | .ok (.unparseable reason) => .ok (.unparseable ⟨doc.relativePath, reason⟩)
      | .ok (.parsed payload) => (titleOf yaml frontmatter).map fun title =>
          .candidate ⟨doc.relativePath, title, payload, orDefault kind "build_outcome"⟩ := by
  unfold examine
  rw [classified]
  show (match parseCompletedTask runtime yaml doc frontmatter with
    | .error _ => _ | .ok (.unparseable _) => _ | .ok (.parsed _) => _) = _
  split
  · rfl
  · rfl
  · show (titleOf yaml frontmatter >>= _) = _
    cases titleOf yaml frontmatter <;> rfl

/-- The classification of a document whose front matter has an id is decided by its status. -/
theorem classifyDocument_of_id {kind : String} {frontmatter : YamlDict}
    (resolved : manifest.resolveKind doc.relativePath = some (kind, "reindex"))
    (extracted : yaml.extractFrontmatter doc.text = .ok (.dict frontmatter))
    (outcome : agentDefinition frontmatter = false) (id : hasId frontmatter = true) :
    classifyDocument yaml manifest doc = (yaml.statusOf frontmatter).map fun status =>
      if status.toLower ∉ terminalStatuses then
        { frontmatter, skipReason := some ("non-terminal status: " ++ shownStatus status) }
      else { kind, frontmatter } := by
  unfold classifyDocument
  rw [resolved]
  dsimp only
  rw [if_neg (by simp), extracted]
  dsimp only
  rw [outcome, id]
  show (yaml.statusOf frontmatter >>= _) = _
  cases yaml.statusOf frontmatter with
  | error error => rfl
  | ok status =>
    by_cases terminal : status.toLower ∉ terminalStatuses
    · show (if _ then _ else _) = Except.ok (if _ then _ else _)
      rw [if_pos terminal, if_pos terminal]
      rfl
    · show (if _ then _ else _) = Except.ok (if _ then _ else _)
      rw [if_neg terminal, if_neg terminal]
      rfl

/-- A classification that is no skip comes from front matter with an id, or raises. -/
theorem classifyDocument_cases :
    (∃ reason, ∃ classification : Classification,
        classifyDocument yaml manifest doc = .ok classification ∧
          classification.skipReason = some reason) ∨
      ∃ kind, manifest.resolveKind doc.relativePath = some (kind, "reindex") ∧
        ((∃ text, yaml.extractFrontmatter doc.text = .error (.valueError text) ∧
            classifyDocument yaml manifest doc = .error (.valueError text)) ∨
          ∃ frontmatter, yaml.extractFrontmatter doc.text = .ok (.dict frontmatter) ∧
            agentDefinition frontmatter = false ∧ hasId frontmatter = true) := by
  unfold classifyDocument
  split
  · exact Or.inl ⟨_, _, rfl, rfl⟩
  · rename_i kind owner resolved
    split
    · exact Or.inl ⟨_, _, rfl, rfl⟩
    · rename_i owned
      rw [not_not] at owned
      subst owned
      split
      · exact Or.inl ⟨_, _, rfl, rfl⟩
      · rename_i text raised
        exact Or.inr ⟨kind, resolved, Or.inl ⟨text, raised, rfl⟩⟩
      · exact Or.inl ⟨_, _, rfl, rfl⟩
      · rename_i frontmatter extracted
        split
        · exact Or.inl ⟨_, _, rfl, rfl⟩
        · rename_i outcome
          split
          · exact Or.inl ⟨_, _, rfl, rfl⟩
          · rename_i id
            exact Or.inr ⟨kind, resolved, Or.inr ⟨frontmatter, extracted, by simpa using outcome,
              by simpa using id⟩⟩
      · exact Or.inl ⟨_, _, rfl, rfl⟩

theorem aborts_of_id {kind : String} {frontmatter : YamlDict}
    (resolved : manifest.resolveKind doc.relativePath = some (kind, "reindex"))
    (extracted : yaml.extractFrontmatter doc.text = .ok (.dict frontmatter))
    (outcome : agentDefinition frontmatter = false) (id : hasId frontmatter = true) :
    Aborts runtime yaml manifest doc ↔
      (∃ error, yaml.statusOf frontmatter = .error error) ∨
        (∃ payload, parseCompletedTask runtime yaml doc frontmatter = .ok (.parsed payload)) ∧
          ∃ error, titleOf yaml frontmatter = .error error := by
  constructor
  · rintro ⟨_, ⟨text, raised⟩ | ⟨other, same, _, _, raises⟩⟩
    · rw [extracted] at raised
      cases raised
    · rw [extracted] at same
      obtain rfl := YamlValue.dict.inj (Except.ok.inj same)
      exact raises
  · exact fun raises => ⟨⟨kind, resolved⟩, Or.inr ⟨frontmatter, extracted, outcome, id, raises⟩⟩

/-- The loop raises at a document exactly when the document aborts. -/
theorem examine_raises_iff :
    (∃ error, examine runtime yaml manifest doc = .error error) ↔
      Aborts runtime yaml manifest doc := by
  rcases @classifyDocument_cases yaml manifest doc with
    ⟨reason, classification, classified, skipped⟩ | ⟨kind, resolved, raised | publishable⟩
  · refine ⟨fun ⟨error, raises⟩ => ?_, ?_⟩
    · rw [examine_of_skipped classified skipped] at raises
      cases raises
    · rintro ⟨⟨kind, resolved⟩, ⟨text, raised⟩ | ⟨frontmatter, extracted, outcome, id, raises⟩⟩
      · unfold classifyDocument at classified
        rw [resolved] at classified
        dsimp only at classified
        rw [if_neg (by simp), raised] at classified
        cases classified
      · rw [classifyDocument_of_id resolved extracted outcome id] at classified
        obtain ⟨status, read, rfl⟩ := except_map_eq_ok.mp classified
        rcases raises with ⟨error, failed⟩ | ⟨⟨payload, parsed⟩, _⟩
        · rw [read] at failed
          cases failed
        · obtain ⟨same, readAgain, terminal⟩ := status_of_parsed parsed
          rw [read] at readAgain
          obtain rfl := Except.ok.inj readAgain
          rw [if_neg (not_not.mpr terminal)] at skipped
          cases skipped
  · obtain ⟨text, extracted, classified⟩ := raised
    refine ⟨fun _ => ⟨⟨kind, resolved⟩, Or.inl ⟨text, extracted⟩⟩, fun _ => ⟨.valueError text, ?_⟩⟩
    unfold examine
    rw [classified]
    rfl
  · obtain ⟨frontmatter, extracted, outcome, id⟩ := publishable
    have classified := classifyDocument_of_id resolved extracted outcome id
    rw [aborts_of_id resolved extracted outcome id]
    cases read : yaml.statusOf frontmatter with
    | error error =>
      rw [read] at classified
      refine ⟨fun _ => Or.inl ⟨error, rfl⟩, fun _ => ⟨error, ?_⟩⟩
      unfold examine
      rw [classified]
      rfl
    | ok status =>
      rw [read] at classified
      by_cases terminal : status.toLower ∈ terminalStatuses
      · rw [Except.map, if_neg (not_not.mpr terminal)] at classified
        rw [examine_of_publishable classified]
        cases parseCompletedTask runtime yaml doc frontmatter with
        | error error => simp
        | ok result =>
          cases result with
          | unparseable reason => simp
          | parsed payload => cases titleOf yaml frontmatter <;> simp [Except.map]
      · rw [Except.map, if_pos terminal] at classified
        refine ⟨fun ⟨error, raises⟩ => ?_, ?_⟩
        · rw [examine_of_skipped classified rfl] at raises
          cases raises
        · rintro (⟨error, failed⟩ | ⟨⟨payload, parsed⟩, _⟩)
          · cases failed
          · obtain ⟨same, readAgain, ends⟩ := status_of_parsed parsed
            rw [read] at readAgain
            obtain rfl := Except.ok.inj readAgain
            exact absurd ends terminal

end

/-! ### Fates -/

/-- What became of a document. -/
inductive DocumentFate where
  | published (naturalKey : String)
  | skipped (reason : String)
  | unparseable (reason : String)

section

variable (fated : CorpusDocument × DocumentFate)

/-- The key a document was published under. -/
def publishedKey : Option String :=
  match fated.2 with
  | .published naturalKey => some naturalKey
  | _ => none

/-- The entry of a skipped document. -/
def skippedEntry : Option ReportEntry :=
  match fated.2 with
  | .skipped reason => some ⟨fated.1.relativePath, reason⟩
  | _ => none

/-- The entry of an unparseable document. -/
def unparseableEntry : Option ReportEntry :=
  match fated.2 with
  | .unparseable reason => some ⟨fated.1.relativePath, reason⟩
  | _ => none

end

/-- A report accounts for the documents: each has one fate, and the report's lists are those of the
fates, a document being published under the key of the payload it parses to. -/
def Accounts (runtime : Runtime) (yaml : YamlLibrary) (manifest : CorpusManifest)
    (docs : List CorpusDocument) (report : RunReport) : Prop :=
  ∃ fates : List (CorpusDocument × DocumentFate), (fates.map Prod.fst).Perm docs ∧
    report.publishedNaturalKeys = fates.filterMap publishedKey ∧
    report.skipped = fates.filterMap skippedEntry ∧
    report.unparseable = fates.filterMap unparseableEntry ∧
    ∀ doc naturalKey, (doc, .published naturalKey) ∈ fates →
      ∃ candidate, examine runtime yaml manifest doc = .ok (.candidate candidate) ∧
        candidate.payload.naturalKey = naturalKey

theorem length_eq_of_fates (fates : List (CorpusDocument × DocumentFate)) :
    fates.length = (fates.filterMap publishedKey).length +
      (fates.filterMap skippedEntry).length + (fates.filterMap unparseableEntry).length := by
  induction fates with
  | nil => rfl
  | cons fated rest inductionHypothesis =>
    obtain ⟨doc, fate⟩ := fated
    cases fate with
    | published naturalKey =>
      simp only [List.filterMap_cons, publishedKey, skippedEntry, unparseableEntry,
        List.length_cons]
      omega
    | skipped reason =>
      simp only [List.filterMap_cons, publishedKey, skippedEntry, unparseableEntry,
        List.length_cons]
      omega
    | unparseable reason =>
      simp only [List.filterMap_cons, publishedKey, skippedEntry, unparseableEntry,
        List.length_cons]
      omega

/-! ### The loops -/

section

variable {runtime : Runtime} {yaml : YamlLibrary} {manifest : CorpusManifest}
  {engine : SearchEngine} {docs : List CorpusDocument}

/-- The loop over the documents raises exactly when one of them aborts. -/
theorem examineAll_raises_iff :
    (∃ error, docs.mapM (examine runtime yaml manifest) = .error error) ↔
      ∃ doc ∈ docs, Aborts runtime yaml manifest doc :=
  except_mapM_raises_iff.trans (exists_congr fun _ => and_congr_right fun _ => examine_raises_iff)

/-- A publisher that returns, on every store of a format it keeps. -/
def Answers (engine : SearchEngine) (format : Store → Prop) (publish : PublisherFn) : Prop :=
  ∀ payload store, format store → ∃ skipReason after,
    (publish payload).run (storeWorld engine) store = (.returned skipReason, after) ∧ format after

/-- On a store in the writer's format the lessons of a build outcome are read. -/
theorem preserved_of_format {store : Store} {payload : Payload}
    (format : WriterFormat runtime store) (type : payload.payloadType = "build_outcome") :
    ∃ outgoing, preserved runtime payload store = .ok outgoing := by
  unfold preserved
  split
  · split
    · exact ⟨payload, rfl⟩
    · rename_i existing stored
      obtain ⟨outcome, _, content, reads⟩ := format _ existing payload.project stored
        (by rw [recordNamespace, type])
      rw [content, storedLessons_of_dump reads]
      exact ⟨_, rfl⟩
  · exact ⟨payload, rfl⟩

/-- One pass of the loop reads the outgoing payload, publishes it, and records what became of it. -/
theorem run_publishWinner_of {publisher : Option PublisherFn} {preserving : Bool}
    {done : Published} {candidate : Candidate} {store after : Store} {payload : Payload}
    {skipReason : Option String}
    (reads : (outgoingPayload runtime preserving candidate.payload).run (storeWorld engine) store =
      (.returned payload, store))
    (publishes : (publishOrCount publisher payload).run (storeWorld engine) store =
      (.returned skipReason, after)) :
    (publishWinner runtime publisher preserving done candidate).run (storeWorld engine) store =
      (.returned (done.record candidate payload.naturalKey skipReason), after) := by
  rw [publishWinner, Program.run_bind, reads]
  dsimp only
  rw [Program.run_bind, publishes]
  rfl

/-- A winner is published under its key, or skipped for the publisher's reason. -/
theorem run_publishWinner {publisher : Option PublisherFn} {preserving : Bool} {done : Published}
    {candidate : Candidate} {store : Store}
    (answers : ∀ publish, publisher = some publish → Answers engine (WriterFormat runtime) publish)
    (format : WriterFormat runtime store)
    (type : candidate.payload.payloadType = "build_outcome") :
    ∃ (skipReason : Option String) (next : Published) (after : Store),
      (publishWinner runtime publisher preserving done candidate).run (storeWorld engine) store =
        (.returned next, after) ∧ WriterFormat runtime after ∧
      next.skipped = done.skipped ++ (skipReason.map candidate.skippedFor).toList ∧
      next.publishedNaturalKeys = done.publishedNaturalKeys ++
        (if skipReason.isNone then [candidate.payload.naturalKey] else []) := by
  have outgoing : ∃ outgoing, outgoing.naturalKey = candidate.payload.naturalKey ∧
      (outgoingPayload runtime preserving candidate.payload).run (storeWorld engine) store =
        (.returned outgoing, store) := by
    cases preserving with
    | false => exact ⟨candidate.payload, rfl, rfl⟩
    | true =>
      obtain ⟨outgoing, kept⟩ := preserved_of_format format type
      refine ⟨outgoing, naturalKey_of_preserved kept, ?_⟩
      rw [outgoingPayload, if_pos rfl, run_preserveExistingLessons, kept]
      rfl
  obtain ⟨outgoing, sameKey, reads⟩ := outgoing
  have decided : ∃ skipReason after,
      (publishOrCount publisher outgoing).run (storeWorld engine) store =
        (.returned skipReason, after) ∧ WriterFormat runtime after := by
    cases publisher with
    | none => exact ⟨none, store, rfl, format⟩
    | some publish => exact answers publish rfl outgoing store format
  obtain ⟨skipReason, after, publishes, formatAfter⟩ := decided
  refine ⟨skipReason, done.record candidate outgoing.naturalKey skipReason, after,
    run_publishWinner_of reads publishes, formatAfter, ?_, ?_⟩
  · cases skipReason <;> simp [Published.record]
  · cases skipReason <;> simp [Published.record, sameKey]

/-- The loop over the winners decides each of them. -/
theorem run_publishWinners {publisher : Option PublisherFn} {preserving : Bool} {done : Published}
    {winners : List Candidate} {store : Store}
    (answers : ∀ publish, publisher = some publish → Answers engine (WriterFormat runtime) publish)
    (format : WriterFormat runtime store)
    (types : ∀ candidate ∈ winners, candidate.payload.payloadType = "build_outcome") :
    ∃ (decided : List (Candidate × Option String)) (last : Published) (after : Store),
      (publishWinners runtime publisher preserving done winners).run (storeWorld engine) store =
        (.returned last, after) ∧ decided.map Prod.fst = winners ∧
      last.skipped = done.skipped ++ decided.filterMap (fun one => one.2.map one.1.skippedFor) ∧
      last.publishedNaturalKeys = done.publishedNaturalKeys ++ decided.filterMap (fun one =>
        if one.2.isNone then some one.1.payload.naturalKey else none) := by
  induction winners generalizing done store with
  | nil => exact ⟨[], done, store, rfl, rfl, by simp, by simp⟩
  | cons candidate rest inductionHypothesis =>
    obtain ⟨skipReason, next, middle, first, formatMiddle, skipped, keys⟩ :=
      @run_publishWinner runtime engine publisher preserving done candidate store answers format
        (types candidate List.mem_cons_self)
    obtain ⟨decided, last, after, later, winners, skippedAll, keysAll⟩ :=
      @inductionHypothesis next middle formatMiddle
        fun other member => types other (List.mem_cons_of_mem _ member)
    refine ⟨(candidate, skipReason) :: decided, last, after, ?_, ?_, ?_, ?_⟩
    · rw [publishWinners, Program.run_bind, first]
      exact later
    · rw [List.map_cons, winners]
    · rw [skippedAll, skipped, List.filterMap_cons]
      cases skipReason <;> simp
    · rw [keysAll, keys, List.filterMap_cons]
      cases skipReason <;> simp

/-! ### One fate for each document -/

/-- What the loop over the documents makes of one is about that document. -/
theorem examine_about {doc : CorpusDocument} {found : Examined}
    (examined : examine runtime yaml manifest doc = .ok found) :
    match found with
    | .skipped entry => entry.path = doc.relativePath
    | .unparseable entry => entry.path = doc.relativePath
    | .candidate candidate =>
      candidate.relativePath = doc.relativePath ∧ TaskOutcome candidate.payload := by
  unfold examine at examined
  obtain ⟨classification, _, examined⟩ := except_bind_eq_ok.mp examined
  split at examined
  · obtain rfl := Except.ok.inj examined
    rfl
  · dsimp only at examined
    split at examined
    · obtain rfl := Except.ok.inj examined
      rfl
    · obtain rfl := Except.ok.inj examined
      rfl
    · rename_i parsed
      obtain ⟨title, _, examined⟩ := except_bind_eq_ok.mp examined
      obtain rfl := Except.ok.inj examined
      exact ⟨rfl, taskOutcome_of_parsed parsed⟩

/-- A document with the candidate it is examined to. -/
def IsCandidateOf (runtime : Runtime) (yaml : YamlLibrary) (manifest : CorpusManifest)
    (pair : CorpusDocument × Candidate) : Prop :=
  examine runtime yaml manifest pair.1 = .ok (.candidate pair.2) ∧
    pair.2.relativePath = pair.1.relativePath ∧ TaskOutcome pair.2.payload

/-- The documents are those that are skipped or unparseable and those of the candidates. -/
theorem settled_and_candidates {examined : List Examined}
    (all : List.Forall₂ (fun doc found => examine runtime yaml manifest doc = .ok found)
      docs examined) :
    ∃ (settled : List (CorpusDocument × DocumentFate)) (pairs : List (CorpusDocument × Candidate)),
      (settled.map Prod.fst ++ pairs.map Prod.fst).Perm docs ∧
      examined.filterMap Examined.candidate? = pairs.map Prod.snd ∧
      settled.filterMap publishedKey = [] ∧
      settled.filterMap skippedEntry = examined.filterMap Examined.skipped? ∧
      settled.filterMap unparseableEntry = examined.filterMap Examined.unparseable? ∧
      ∀ pair ∈ pairs, IsCandidateOf runtime yaml manifest pair := by
  induction all with
  | nil => exact ⟨[], [], .refl _, rfl, rfl, rfl, rfl, by simp⟩
  | @cons doc found rest others here _ inductionHypothesis =>
    obtain ⟨settled, pairs, perm, candidates, published, skipped, unparseable, about⟩ :=
      inductionHypothesis
    have owned := examine_about here
    cases found with
    | skipped entry =>
      obtain ⟨path, reason⟩ := entry
      obtain rfl : path = doc.relativePath := owned
      exact ⟨(doc, .skipped reason) :: settled, pairs, perm.cons doc, candidates, published,
        congrArg (_ :: ·) skipped, unparseable, about⟩
    | unparseable entry =>
      obtain ⟨path, reason⟩ := entry
      obtain rfl : path = doc.relativePath := owned
      exact ⟨(doc, .unparseable reason) :: settled, pairs, perm.cons doc, candidates, published,
        skipped, congrArg (_ :: ·) unparseable, about⟩
    | candidate candidate =>
      refine ⟨settled, (doc, candidate) :: pairs, ?_, congrArg (_ :: ·) candidates, published,
        skipped, unparseable, ?_⟩
      · rw [List.map_cons]
        exact List.perm_middle.trans (perm.cons doc)
      · intro pair member
        rcases List.mem_cons.mp member with rfl | later
        · exact ⟨here, owned⟩
        · exact about pair later

/-- Candidates that were decided give their documents a fate. -/
theorem fates_of_decided {pairs : List (CorpusDocument × Candidate)}
    {decided : List (Candidate × Option String)}
    (same : pairs.map Prod.snd = decided.map Prod.fst)
    (about : ∀ pair ∈ pairs, IsCandidateOf runtime yaml manifest pair) :
    ∃ fates : List (CorpusDocument × DocumentFate), fates.map Prod.fst = pairs.map Prod.fst ∧
      fates.filterMap publishedKey = decided.filterMap (fun one =>
        if one.2.isNone then some one.1.payload.naturalKey else none) ∧
      fates.filterMap skippedEntry =
        decided.filterMap (fun one => one.2.map one.1.skippedFor) ∧
      fates.filterMap unparseableEntry = [] ∧
      ∀ doc naturalKey, (doc, .published naturalKey) ∈ fates →
        ∃ candidate, examine runtime yaml manifest doc = .ok (.candidate candidate) ∧
          candidate.payload.naturalKey = naturalKey := by
  induction pairs generalizing decided with
  | nil =>
    obtain rfl : decided = [] := List.map_eq_nil_iff.mp same.symm
    exact ⟨[], rfl, rfl, rfl, rfl, by simp⟩
  | cons pair rest inductionHypothesis =>
    obtain ⟨doc, candidate⟩ := pair
    cases decided with
    | nil => cases same
    | cons one others =>
      obtain ⟨other, skipReason⟩ := one
      obtain ⟨rfl, tails⟩ := List.cons_eq_cons.mp same
      obtain ⟨fates, docs, published, skipped, unparseable, keys⟩ := inductionHypothesis tails
        fun pair member => about pair (List.mem_cons_of_mem _ member)
      obtain ⟨examined, path, _⟩ := about _ List.mem_cons_self
      cases skipReason with
      | some reason =>
        refine ⟨(doc, .skipped reason) :: fates, congrArg (_ :: ·) docs, published, ?_,
          unparseable, ?_⟩
        · rw [List.filterMap_cons, List.filterMap_cons, ← skipped]
          show _ = ReportEntry.mk candidate.relativePath reason :: _
          rw [path]
          rfl
        · intro doc naturalKey member
          rcases List.mem_cons.mp member with here | later
          · cases here
          · exact keys doc naturalKey later
      | none =>
        refine ⟨(doc, .published candidate.payload.naturalKey) :: fates, congrArg (_ :: ·) docs,
          congrArg (_ :: ·) published, skipped, unparseable, ?_⟩
        intro doc naturalKey member
        rcases List.mem_cons.mp member with here | later
        · cases here
          exact ⟨candidate, examined, rfl⟩
        · exact keys doc naturalKey later

end

theorem exists_perm_of_perm_map {Source Target : Type} {transform : Source → Target}
    {sources : List Source} {targets : List Target}
    (perm : targets.Perm (sources.map transform)) :
    ∃ moved : List Source, targets = moved.map transform ∧ moved.Perm sources := by
  have related : Relation.Comp (fun one other => one = List.map transform other)
      (fun one other => one.Perm other) targets sources := by
    rw [List.eq_map_comp_perm]
    exact perm
  exact related

/-- Every winner is one of the candidates. -/
theorem mem_of_mem_winners {runtime : Runtime} {candidates : List Candidate} {winner : Candidate}
    (member : winner ∈ (resolveCollisions runtime candidates).winners) : winner ∈ candidates := by
  obtain ⟨losers, _, perm⟩ := @resolveCollisions_perm runtime candidates
  exact perm.subset (List.mem_append_left _ member)

/-- The documents of a run have fates, and the run's lists are those of the fates. -/
theorem fates_of_run {runtime : Runtime} {yaml : YamlLibrary} {manifest : CorpusManifest}
    {docs : List CorpusDocument} {examined : List Examined}
    {decided : List (Candidate × Option String)}
    (all : List.Forall₂ (fun doc found => examine runtime yaml manifest doc = .ok found)
      docs examined)
    (winners : decided.map Prod.fst =
      (resolveCollisions runtime (examined.filterMap Examined.candidate?)).winners) :
    ∃ fates : List (CorpusDocument × DocumentFate), (fates.map Prod.fst).Perm docs ∧
      decided.filterMap (fun one =>
        if one.2.isNone then some one.1.payload.naturalKey else none) =
          fates.filterMap publishedKey ∧
      examined.filterMap Examined.skipped? ++
          (resolveCollisions runtime (examined.filterMap Examined.candidate?)).skipped ++
            decided.filterMap (fun one => one.2.map one.1.skippedFor) =
        fates.filterMap skippedEntry ∧
      examined.filterMap Examined.unparseable? = fates.filterMap unparseableEntry ∧
      ∀ doc naturalKey, (doc, .published naturalKey) ∈ fates →
        ∃ candidate, examine runtime yaml manifest doc = .ok (.candidate candidate) ∧
          candidate.payload.naturalKey = naturalKey := by
  obtain ⟨settled, pairs, perm, candidates, published, skipped, unparseable, about⟩ :=
    settled_and_candidates all
  obtain ⟨losers, reasons, resolved⟩ := @resolveCollisions_perm runtime
    (examined.filterMap Examined.candidate?)
  rw [candidates] at resolved winners
  -- The documents of the winners and of the losers, in the order these are reported.
  obtain ⟨moved, same, reordered⟩ := exists_perm_of_perm_map resolved
  obtain ⟨winning, losing, rfl, won, lost⟩ := List.map_eq_append_iff.mp same.symm
  have aboutMoved : ∀ pair ∈ winning ++ losing, IsCandidateOf runtime yaml manifest pair :=
    fun pair member => about pair (reordered.subset member)
  obtain ⟨lostFates, lostDocs, lostPublished, lostSkipped, lostUnparseable, lostKeys⟩ :=
    @fates_of_decided runtime yaml manifest losing
      (losers.map fun loser => (loser.1, some loser.2)) (by rw [lost, List.map_map]; rfl)
      fun pair member => aboutMoved pair (List.mem_append_right _ member)
  obtain ⟨wonFates, wonDocs, wonPublished, wonSkipped, wonUnparseable, wonKeys⟩ :=
    @fates_of_decided runtime yaml manifest winning decided (won.trans winners.symm)
      fun pair member => aboutMoved pair (List.mem_append_left _ member)
  refine ⟨settled ++ lostFates ++ wonFates, ?_, ?_, ?_, ?_, ?_⟩
  · refine List.Perm.trans ?_ perm
    rw [List.map_append, List.map_append, lostDocs, wonDocs, List.append_assoc]
    refine List.Perm.append_left _ ?_
    rw [← List.map_append]
    exact (List.perm_append_comm.trans reordered).map _
  · rw [List.filterMap_append, List.filterMap_append, published, lostPublished, wonPublished]
    simp [List.filterMap_map]
  · rw [reasons, List.filterMap_append, List.filterMap_append, skipped, lostSkipped, wonSkipped]
    simp [List.filterMap_map]
  · rw [List.filterMap_append, List.filterMap_append, unparseable, lostUnparseable,
      wonUnparseable, List.append_nil, List.append_nil]
  · intro doc naturalKey member
    rcases List.mem_append.mp member with earlier | won
    · rcases List.mem_append.mp earlier with early | lost
      · have key : naturalKey ∈ settled.filterMap publishedKey :=
          List.mem_filterMap.mpr ⟨_, early, rfl⟩
        rw [published] at key
        cases key
      · exact lostKeys doc naturalKey lost
    · exact wonKeys doc naturalKey won

/-- Every winner is a build outcome of a completed task. -/
theorem taskOutcome_of_winner {runtime : Runtime} {yaml : YamlLibrary} {manifest : CorpusManifest}
    {docs : List CorpusDocument} {examined : List Examined} {winner : Candidate}
    (all : List.Forall₂ (fun doc found => examine runtime yaml manifest doc = .ok found)
      docs examined)
    (member : winner ∈
      (resolveCollisions runtime (examined.filterMap Examined.candidate?)).winners) :
    TaskOutcome winner.payload := by
  obtain ⟨_, pairs, _, candidates, _, _, _, about⟩ := settled_and_candidates all
  have candidate := mem_of_mem_winners member
  rw [candidates] at candidate
  obtain ⟨pair, inside, rfl⟩ := List.mem_map.mp candidate
  exact (about pair inside).2.2

/-- A run returns a report in which every walked document has one fate, and the counts add up,
exactly when no document aborts. -/
theorem reindexCorpus_accounts_iff (runtime : Runtime) (yaml : YamlLibrary)
    (manifest : CorpusManifest) (engine : SearchEngine) (publisher : Option PublisherFn)
    (preserving : Bool) (docs : List CorpusDocument) (store : Store)
    (answers : ∀ publish, publisher = some publish → Answers engine (WriterFormat runtime) publish)
    (format : WriterFormat runtime store) :
    (∃ report after,
      (reindexCorpus runtime yaml manifest publisher preserving docs).run (storeWorld engine)
          store = (.returned report, after) ∧
        Accounts runtime yaml manifest docs report ∧ report.walkedCount = docs.length ∧
        report.publishedCount = report.publishedNaturalKeys.length ∧
        report.skippedCount = report.skipped.length ∧
        report.unparseableCount = report.unparseable.length ∧
        report.walkedCount =
          report.publishedCount + report.skippedCount + report.unparseableCount) ↔
      ∀ doc ∈ docs, ¬Aborts runtime yaml manifest doc := by
  constructor
  · rintro ⟨report, after, returned, _⟩ doc member aborts
    obtain ⟨error, raises⟩ := (@examineAll_raises_iff runtime yaml manifest docs).mpr
      ⟨doc, member, aborts⟩
    rw [reindexCorpus, raises] at returned
    cases returned
  · intro quiet
    obtain ⟨examined, all⟩ :
        ∃ examined, docs.mapM (examine runtime yaml manifest) = .ok examined := by
      cases loop : docs.mapM (examine runtime yaml manifest) with
      | ok examined => exact ⟨examined, rfl⟩
      | error error =>
        obtain ⟨doc, member, aborts⟩ := examineAll_raises_iff.mp ⟨error, loop⟩
        exact absurd aborts (quiet doc member)
    obtain ⟨decided, last, after, runs, winners, skipped, keys⟩ :=
      @run_publishWinners runtime engine publisher preserving
        ⟨examined.filterMap Examined.skipped? ++ (resolveCollisions runtime
          (examined.filterMap Examined.candidate?)).skipped, [], []⟩ _ store answers format
        fun winner member =>
          (taskOutcome_of_winner (except_mapM_eq_ok.mp all) member).instanceOf.payloadType
    obtain ⟨fates, perm, published, entries, unparseable, parsed⟩ :=
      fates_of_run (except_mapM_eq_ok.mp all) winners
    rw [List.nil_append, published] at keys
    rw [entries] at skipped
    have walked : docs.length = last.publishedNaturalKeys.length + last.skipped.length +
        (examined.filterMap Examined.unparseable?).length := by
      rw [← perm.length_eq, List.length_map, length_eq_of_fates, keys, skipped, unparseable]
    refine ⟨⟨docs.length, last.publishedNaturalKeys.length, last.skipped.length,
      (examined.filterMap Examined.unparseable?).length, last.perKindCounts,
      last.publishedNaturalKeys, last.skipped, examined.filterMap Examined.unparseable?⟩, after, ?_,
      ⟨fates, perm, keys, skipped, unparseable, parsed⟩, rfl, rfl, rfl, rfl, walked⟩
    rw [reindexCorpus, all, lift_ok_bind]
    dsimp only
    rw [Program.run_bind, runs]
    rfl

section Sample

/-- A task file with an impossible date. -/
def datedTask : CorpusDocument where
  path := "docs/T.md"
  text := "---\nid: T\nstatus: completed\ndue: 2025-13-45\n---\n# T\n"

/-- The YAML library on the front matter of the task file. -/
def datedYaml : YamlLibrary where
  safeLoad text :=
    if text = "id: T\nstatus: completed\ndue: 2025-13-45" then
      .error (.valueError "month must be in 1..12")
    else .ok .none
  format _ := .ok ""

/-- A publisher that skips nothing. -/
def acceptingPublisher : PublisherFn := fun _ => return none

/-- A store with the record of the build outcome with lessons. -/
def lessonsStore : Store :=
  (∅ : Store).insert (lessonsService.writer.recordPlace lessonsOutcome)
    (storedValue lessonsOutcome (contentHash lessonsRuntime lessonsOutcome) 1 none)

theorem writerFormat_lessonsStore : WriterFormat lessonsRuntime lessonsStore := by
  intro place value project stored _
  rw [lessonsStore, lookup_insert] at stored
  split at stored
  · obtain rfl := Option.some.inj stored
    exact ⟨lessonsOutcome, instanceOf_lessonsOutcome, rfl, readsBack_lessonsOutcome⟩
  · cases stored

theorem examine_datedTask :
    examine lessonsRuntime datedYaml CorpusManifest.slashManifest datedTask =
      .error (.valueError "month must be in 1..12") := by
  have resolved : CorpusManifest.slashManifest.resolveKind datedTask.relativePath =
      some ("build_outcome", "reindex") := by decide +kernel
  have block : Markdown.frontmatterBlock datedTask.text =
      some "id: T\nstatus: completed\ndue: 2025-13-45" := by decide +kernel
  rw [examine, classifyDocument, resolved]
  dsimp only
  rw [if_neg (by simp), YamlLibrary.extractFrontmatter, block]
  rfl

/-- The run over the task file with the impossible date returns no report. -/
theorem reindexCorpus_aborts_at_datedTask :
    loadManifest CorpusManifest.slashRuntime "m.json" CorpusManifest.slashText =
        .ok CorpusManifest.slashManifest ∧
      ¬∃ report after, (reindexCorpus lessonsRuntime datedYaml CorpusManifest.slashManifest
        (some acceptingPublisher) true [datedTask]).run
          (storeWorld (prefixEngine fun _ _ _ => none)) lessonsStore =
            (.returned report, after) := by
  refine ⟨CorpusManifest.loadManifest_slashText, ?_⟩
  rintro ⟨report, after, returned⟩
  rw [reindexCorpus, List.mapM_cons, examine_datedTask] at returned
  cases returned

/-- What the run over the task file returns is decided by whether the file aborts. -/
theorem reindexCorpus_accounts_iff_datedTask :
    (∃ report after,
      (reindexCorpus lessonsRuntime datedYaml CorpusManifest.slashManifest
          (some acceptingPublisher) true [datedTask]).run
          (storeWorld (prefixEngine fun _ _ _ => none)) lessonsStore = (.returned report, after) ∧
        Accounts lessonsRuntime datedYaml CorpusManifest.slashManifest [datedTask] report ∧
        report.walkedCount = [datedTask].length ∧
        report.publishedCount = report.publishedNaturalKeys.length ∧
        report.skippedCount = report.skipped.length ∧
        report.unparseableCount = report.unparseable.length ∧
        report.walkedCount =
          report.publishedCount + report.skippedCount + report.unparseableCount) ↔
      ∀ doc ∈ [datedTask],
        ¬Aborts lessonsRuntime datedYaml CorpusManifest.slashManifest doc := by
  refine reindexCorpus_accounts_iff lessonsRuntime datedYaml CorpusManifest.slashManifest
    (prefixEngine fun _ _ _ => none) (some acceptingPublisher) true [datedTask] lessonsStore ?_
    writerFormat_lessonsStore
  intro publish same payload store format
  obtain rfl := Option.some.inj same
  exact ⟨none, store, rfl, format⟩

end Sample

end FleetMemory
