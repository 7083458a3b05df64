/-
This file models the backfill of a publish run: the staged payload files are taken in the
order of their paths, and each that an operator has marked as reviewed is published. It
proves that only reviewed files reach the stream, in that order up to the first that fails,
and that what the others hold makes no difference.
-/

import FleetMemory.Chronicler
import FleetMemory.FixtureFiles
import FleetMemory.StoryCardFiles
import FleetMemory.StreamUpdates

namespace FleetMemory

/-! ### The staging directory -/

/-- What lies at a path: a file with its bytes, or a directory. -/
inductive StagedEntry where
  | file (bytes : List UInt8)
  | directory
deriving DecidableEq, Repr

/-- The files and the directories under the staging directory. What lies in one of them has it
listed. -/
structure StagingTree where
  content : Finmap fun _ : List String => StagedEntry
  valid : ∀ path ∈ content, ValidPath path
  parents : ∀ path ∈ content,
    path.dropLast = [] ∨ content.lookup path.dropLast = some .directory

/-- The last name of a path. -/
def lastName (path : List String) : String :=
  path.getLast?.getD ""

namespace StagingTree

variable (tree : StagingTree)

/-- `path.exists()`. -/
def Exists (path : List String) : Prop :=
  path ∈ tree.content.keys

instance decidableExists (path : List String) : Decidable (tree.Exists path) :=
  inferInstanceAs (Decidable (_ ∈ _))

/-- `payload_path.parent / f"{payload_path.name}.reviewed"`. -/
def markerPath (path : List String) : List String :=
  path.dropLast ++ [lastName path ++ ".reviewed"]

/-- `has_review_marker`. -/
def hasReviewMarker (path : List String) : Bool :=
  decide (tree.Exists (markerPath path))

/-- `sorted(backfill_dir.rglob("*.json"))`: files and directories. -/
def payloadFiles : List (List String) :=
  (tree.content.keys.filter fun path => ".json".toList <:+ (lastName path).toList).sort (· ≤ ·)

end StagingTree

/-! ### One payload file -/

/-- What a publish run calls of the standard library: `str(payload_file)`, and the text of a
`UnicodeDecodeError`. -/
structure BackfillRun where
  runtime : Runtime
  shown : List String → String
  undecodable : List UInt8 → String

namespace BackfillRun

variable (run : BackfillRun)

/-- `payload_path.read_text()`. -/
def readText (tree : StagingTree) (path : List String) : Except PyError String :=
  match tree.content.lookup path with
  | some (.file bytes) =>
    match Fixture.readText bytes with
    | none => .error (.valueError (run.undecodable bytes))
    | some text => .ok text
  | some .directory => .error (.other ("[Errno 21] Is a directory: " ++
      run.runtime.reprValue (.str (run.shown path))))
  | none => .error (.other ("[Errno 2] No such file or directory: " ++
      run.runtime.reprValue (.str (run.shown path))))

/-- `json.loads(payload_path.read_text())`. -/
def readPayload (tree : StagingTree) (path : List String) : Except PyError PyValue := do
  let text ← run.readText tree path
  match run.runtime.loads text with
  | .ok value => .ok value
  | .error (.decode text) => .error (.valueError text)
  | .error (.value text) => .error (.valueError text)

/-- The payload type and the content that states it: where the content has none, the file's name
may tell. -/
def typedContent (path : List String) (entries : PyDict) : Except PyError (PyValue × PyDict) :=
  match entries.getTruthy "payload_type" with
  | some payloadType => .ok (payloadType, entries)
  | none =>
    -- `copyStem` serves, since `.json` is as long as `.copy`
    if "ADR_".toList <+: (copyStem (lastName path)).toList then
      .ok (.str "adr", entries.set "payload_type" (.str "adr"))
    else .error (.valueError ("Cannot infer payload_type for " ++ run.shown path ++
      ": no payload_type field and filename pattern not recognized"))

/-- The payload of a reviewed file. -/
def payloadOf (tree : StagingTree) (path : List String) : Except PyError Payload := do
  let content ← run.readPayload tree path
  let entries ← content.attributes
  let typed ← run.typedContent path entries
  let modelClass ← getModelForType typed.1
  modelClass.init run.runtime typed.2

/-- The message `publish_episode` sends through the active publisher: a payload that is skipped is a
failure here. -/
def episodeMessage (payload : Payload) : Except PyError StreamMessage :=
  (publishedMessage run.runtime payload).mapError fun skipReason =>
    .runtimeError ("Refusing to publish " ++ payload.naturalKey ++ ": " ++ skipReason)

/-- The message of a file that is published. -/
def messageOf (tree : StagingTree) (path : List String) : Except PyError StreamMessage := do
  let payload ← run.payloadOf tree path
  run.episodeMessage payload

end BackfillRun

/-! ### The run -/

/-- A publish that raises, whether or not the stream has taken the message. -/
structure PublishFault where
  error : PyError
  taken : Bool

/-- The stream and the count of a run, and how its next publishes fail. -/
structure BackfillState where
  messages : List StreamMessage
  count : Nat
  faults : List (Option PublishFault)

namespace BackfillState

variable (state : BackfillState)

/-- A file is done. -/
def counted : BackfillState :=
  { state with count := state.count + 1 }

/-- The publisher is called. -/
def published (message : StreamMessage) : Option PyError × BackfillState :=
  match state.faults.headD none with
  | none => (none, { state with
      messages := state.messages ++ [message], faults := state.faults.tail })
  | some fault => (some fault.error, { state with
      messages := if fault.taken then state.messages ++ [message] else state.messages
      faults := state.faults.tail })

end BackfillState

section

variable (run : BackfillRun)

/-- `process_backfill_payload`. -/
def processBackfillPayload (tree : StagingTree) (path : List String) (state : BackfillState) :
    Option PyError × BackfillState :=
  if tree.hasReviewMarker path = false then (none, state)
  else
    match run.messageOf tree path with
    | .error error => (some error, state)
    | .ok message => state.published message

/-- The files of a run, one after the other until one raises. -/
def processFiles (tree : StagingTree) : List (List String) → BackfillState →
    Option PyError × BackfillState
  | [], state => (none, state)
  | path :: rest, state =>
    match processBackfillPayload run tree path state with
    | (some error, after) => (some error, after)
    | (none, after) => processFiles tree rest after.counted

/-- The backfill of `run_publish`, where the directory may be missing. -/
def runBackfill (directory : Option StagingTree) (state : BackfillState) :
    Option PyError × BackfillState :=
  match directory with
  | none => (none, state)
  | some tree => processFiles run tree tree.payloadFiles state

end

/-- The payload files that an operator has reviewed, in the order of their paths. -/
def StagingTree.reviewedFiles (tree : StagingTree) : List (List String) :=
  tree.payloadFiles.filter tree.hasReviewMarker

/-- What a backfill comes to apart from its count. -/
def BackfillState.outcome (ended : Option PyError × BackfillState) :
    Option PyError × List StreamMessage × List (Option PublishFault) :=
  (ended.1, ended.2.messages, ended.2.faults)

/-! ### Files without a marker -/

section

variable {run : BackfillRun} {tree : StagingTree} {path : List String} {state : BackfillState}

theorem mem_payloadFiles : path ∈ tree.payloadFiles ↔
    path ∈ tree.content.keys ∧ ".json".toList <:+ (lastName path).toList := by
  rw [StagingTree.payloadFiles, Finset.mem_sort, Finset.mem_filter]

/-- The count is read by nothing but the report. -/
theorem outcome_processFiles_counted (files : List (List String)) (first second : BackfillState)
    (messages : first.messages = second.messages) (faults : first.faults = second.faults) :
    BackfillState.outcome (processFiles run tree files first) =
      BackfillState.outcome (processFiles run tree files second) := by
  induction files generalizing first second with
  | nil => rw [processFiles, processFiles, BackfillState.outcome, BackfillState.outcome, messages,
      faults]
  | cons path rest inductionHypothesis =>
    rw [processFiles, processFiles, processBackfillPayload, processBackfillPayload]
    by_cases marked : tree.hasReviewMarker path = false
    · rw [if_pos marked, if_pos marked]
      exact inductionHypothesis _ _ messages faults
    · rw [if_neg marked, if_neg marked]
      cases run.messageOf tree path with
      | error error =>
        dsimp only
        rw [BackfillState.outcome, BackfillState.outcome, messages, faults]
      | ok message =>
        dsimp only
        rw [BackfillState.published, BackfillState.published, faults]
        cases second.faults.headD none with
        | none =>
          dsimp only
          refine inductionHypothesis _ _ ?_ rfl
          rw [BackfillState.counted, BackfillState.counted, messages]
        | some fault =>
          dsimp only
          rw [BackfillState.outcome, BackfillState.outcome, messages]

/-- A run is the run over the reviewed files, but for its count. -/
theorem outcome_processFiles_filter (files : List (List String)) (state : BackfillState) :
    BackfillState.outcome (processFiles run tree files state) = BackfillState.outcome
      (processFiles run tree (files.filter tree.hasReviewMarker) state) := by
  induction files generalizing state with
  | nil => rfl
  | cons path rest inductionHypothesis =>
    cases marked : tree.hasReviewMarker path with
    | false =>
      rw [List.filter_cons_of_neg (by rw [marked]; exact Bool.false_ne_true), processFiles,
        processBackfillPayload, if_pos marked]
      dsimp only
      rw [inductionHypothesis]
      exact outcome_processFiles_counted _ _ _ rfl rfl
    | true =>
      rw [List.filter_cons_of_pos marked, processFiles, processFiles]
      rcases processBackfillPayload run tree path state with ⟨_ | error, after⟩
      · exact inductionHypothesis _
      · rfl

/-- What the reviewed files send: the messages of a beginning of them, and of all of them if nothing
is raised. -/
theorem processFiles_reviewed {files : List (List String)}
    (reviewed : ∀ path ∈ files, tree.hasReviewMarker path = true) (state : BackfillState) :
    ∃ sent added, sent <+: files ∧
      List.Forall₂ (fun path message => run.messageOf tree path = .ok message) sent added ∧
      (processFiles run tree files state).2.messages = state.messages ++ added ∧
      ((processFiles run tree files state).1 = none → sent = files) := by
  induction files generalizing state with
  | nil => exact ⟨[], [], List.nil_prefix, .nil, (List.append_nil _).symm, fun _ => rfl⟩
  | cons path rest inductionHypothesis =>
    rw [processFiles, processBackfillPayload,
      if_neg (by rw [reviewed path List.mem_cons_self]; decide)]
    cases made : run.messageOf tree path with
    | error error =>
      refine ⟨[], [], List.nil_prefix, .nil, (List.append_nil _).symm, ?_⟩
      rintro ⟨⟩
    | ok message =>
      dsimp only
      rw [BackfillState.published]
      cases state.faults.headD none with
      | none =>
        dsimp only
        obtain ⟨sent, added, beginning, messages, grown, complete⟩ := inductionHypothesis
          (fun other member => reviewed other (List.mem_cons_of_mem _ member))
          (BackfillState.counted { state with
            messages := state.messages ++ [message], faults := state.faults.tail })
        refine ⟨path :: sent, message :: added, List.cons_prefix_cons.mpr ⟨rfl, beginning⟩,
          .cons made messages, ?_, fun ended => congrArg _ (complete ended)⟩
        rw [grown]
        exact List.append_assoc _ _ _
      | some fault =>
        cases taken : fault.taken with
        | true =>
          refine ⟨[path], [message], List.cons_prefix_cons.mpr ⟨rfl, List.nil_prefix⟩,
            .cons made .nil, ?_, ?_⟩
          · simp [taken]
          · rintro ⟨⟩
        | false =>
          refine ⟨[], [], List.nil_prefix, .nil, ?_, ?_⟩
          · simp [taken]
          · rintro ⟨⟩

/-- A run that raises nothing has counted every payload file, reviewed or not. -/
theorem count_processFiles (files : List (List String)) (state : BackfillState)
    (ended : (processFiles run tree files state).1 = none) :
    (processFiles run tree files state).2.count = state.count + files.length := by
  induction files generalizing state with
  | nil => rfl
  | cons path rest inductionHypothesis =>
    rw [processFiles] at ended ⊢
    have kept : (processBackfillPayload run tree path state).2.count = state.count := by
      rw [processBackfillPayload]
      split
      · rfl
      · split
        · rfl
        · rw [BackfillState.published]
          split <;> rfl
    revert kept ended
    rcases processBackfillPayload run tree path state with ⟨_ | error, after⟩
    · intro ended kept
      dsimp only at ended kept ⊢
      rw [inductionHypothesis _ ended, BackfillState.counted, kept, List.length_cons]
      exact Nat.add_right_comm _ _ _
    · rintro ⟨⟩

end

/-! ### Two directories with the same reviewed files -/

/-- A path that a marker can have. -/
def IsMarker (path : List String) : Prop :=
  ".reviewed".toList <:+ (lastName path).toList

instance (path : List String) : Decidable (IsMarker path) :=
  inferInstanceAs (Decidable (_ <:+ _))

section

variable {run : BackfillRun} {first second : StagingTree} {state : BackfillState}

theorem isMarker_markerPath (path : List String) : IsMarker (StagingTree.markerPath path) := by
  rw [IsMarker, StagingTree.markerPath, lastName, List.getLast?_concat, Option.getD_some,
    String.toList_append]
  exact List.suffix_append _ _

/-- What is no marker opens no gate and closes none. -/
theorem hasReviewMarker_congr
    (markers : ∀ path, IsMarker path → (path ∈ first.content ↔ path ∈ second.content))
    (path : List String) : first.hasReviewMarker path = second.hasReviewMarker path := by
  rw [StagingTree.hasReviewMarker, StagingTree.hasReviewMarker]
  refine decide_eq_decide.mpr ?_
  rw [StagingTree.Exists, StagingTree.Exists, Finmap.mem_keys, Finmap.mem_keys]
  exact markers _ (isMarker_markerPath path)

theorem mem_reviewedFiles {tree : StagingTree} {path : List String} : path ∈ tree.reviewedFiles ↔
    path ∈ tree.content ∧ ".json".toList <:+ (lastName path).toList ∧
      tree.hasReviewMarker path = true := by
  rw [StagingTree.reviewedFiles, List.mem_filter, mem_payloadFiles, Finmap.mem_keys, and_assoc]

/-- The reviewed files are the same, in the same order, where the gates and what is behind them
are. -/
theorem reviewedFiles_congr
    (gates : ∀ path, first.hasReviewMarker path = second.hasReviewMarker path)
    (same : ∀ path, ".json".toList <:+ (lastName path).toList →
      first.hasReviewMarker path = true →
        first.content.lookup path = second.content.lookup path) :
    first.reviewedFiles = second.reviewedFiles := by
  have nodup (tree : StagingTree) : tree.reviewedFiles.Nodup :=
    (Finset.sort_nodup _ _).filter _
  have sorted (tree : StagingTree) : tree.reviewedFiles.Pairwise (· ≤ ·) :=
    (Finset.pairwise_sort _ _).filter _
  refine List.Perm.eq_of_pairwise' (sorted first) (sorted second)
    ((List.perm_ext_iff_of_nodup (nodup first) (nodup second)).mpr fun path => ?_)
  rw [mem_reviewedFiles, mem_reviewedFiles, ← gates path]
  refine and_congr_left fun both => ?_
  rw [← Finmap.lookup_isSome, ← Finmap.lookup_isSome, same path both.1 both.2]

theorem processFiles_congr {files : List (List String)}
    (gates : ∀ path, first.hasReviewMarker path = second.hasReviewMarker path)
    (same : ∀ path ∈ files, first.content.lookup path = second.content.lookup path) :
    processFiles run first files state = processFiles run second files state := by
  induction files generalizing state with
  | nil => rfl
  | cons path rest inductionHypothesis =>
    have made : run.messageOf first path = run.messageOf second path := by
      rw [BackfillRun.messageOf, BackfillRun.messageOf, BackfillRun.payloadOf,
        BackfillRun.payloadOf, BackfillRun.readPayload, BackfillRun.readPayload,
        BackfillRun.readText, BackfillRun.readText, same path List.mem_cons_self]
    rw [processFiles, processFiles, processBackfillPayload, processBackfillPayload, gates, made]
    rcases (if second.hasReviewMarker path = false then (none, state) else _) with
      ⟨_ | error, after⟩
    · exact inductionHypothesis fun other member => same other (List.mem_cons_of_mem _ member)
    · rfl

end

section Sample

/-- A list that names each path once, and with it the directory it lies in. -/
def LegalEntries (entries : List (List String × StagedEntry)) : Prop :=
  (entries.map Prod.fst).Nodup ∧ ∀ entry ∈ entries, ValidPath entry.1 ∧
    (entry.1.dropLast = [] ∨ (entry.1.dropLast, StagedEntry.directory) ∈ entries)

instance (entries : List (List String × StagedEntry)) : Decidable (LegalEntries entries) :=
  inferInstanceAs (Decidable (_ ∧ _))

/-- The entries of a list, as a map. -/
def stagedContent (entries : List (List String × StagedEntry)) (legal : LegalEntries entries) :
    Finmap fun _ : List String => StagedEntry :=
  AList.toFinmap ⟨entries.map fun entry => ⟨entry.1, entry.2⟩, by
    rw [List.NodupKeys, List.keys, List.map_map]
    exact legal.1⟩

variable {entries : List (List String × StagedEntry)} {legal : LegalEntries entries}

theorem lookup_stagedContent {path : List String} {entry : StagedEntry} :
    (stagedContent entries legal).lookup path = some entry ↔ (path, entry) ∈ entries := by
  rw [stagedContent, Finmap.lookup_toFinmap, AList.lookup]
  refine (List.mem_dlookup_iff (AList.nodupKeys _)).trans ?_
  constructor
  · intro member
    obtain ⟨listed, inside, same⟩ := List.mem_map.mp member
    cases same
    exact inside
  · intro member
    exact List.mem_map.mpr ⟨_, member, rfl⟩

/-- The staging directory that holds the entries of a list. -/
def stagingOf (entries : List (List String × StagedEntry)) (legal : LegalEntries entries) :
    StagingTree where
  content := stagedContent entries legal
  valid path member := by
    obtain ⟨entry, found⟩ := Option.isSome_iff_exists.mp (Finmap.lookup_isSome.mpr member)
    exact (legal.2 _ (lookup_stagedContent.mp found)).1
  parents path member := by
    obtain ⟨entry, found⟩ := Option.isSome_iff_exists.mp (Finmap.lookup_isSome.mpr member)
    exact (legal.2 _ (lookup_stagedContent.mp found)).2.imp_right lookup_stagedContent.mpr

theorem mem_stagingOf {path : List String} :
    path ∈ (stagingOf entries legal).content ↔ path ∈ entries.map Prod.fst := by
  rw [← Finmap.lookup_isSome, Option.isSome_iff_exists, stagingOf]
  simp only [lookup_stagedContent, List.mem_map, Prod.exists, exists_and_right, exists_eq_right]

/-- Two decisions, of which an operator has reviewed the second, and a directory named like one. -/
def stagedEntries : List (List String × StagedEntry) :=
  [(["adr"], .directory), (["adr", "ADR_001.json"], .file [0x7B]),
    (["adr", "ADR_002.json"], .file [0x7B]), (["adr", "ADR_002.json.reviewed"], .file []),
    (["batch.json"], .directory), (["batch.json", "notes.txt"], .file [0x5B])]

/-- The reviewed decision, its marker, and another text of the one that is not reviewed. -/
def otherEntries : List (List String × StagedEntry) :=
  [(["adr"], .directory), (["adr", "ADR_001.json"], .file [0x5B]),
    (["adr", "ADR_002.json"], .file [0x7B]), (["adr", "ADR_002.json.reviewed"], .file [])]

/-- The only marker of either is that of the second decision. -/
theorem marker_of_staged {path : List String} (marks : IsMarker path) :
    (path ∈ stagedEntries.map Prod.fst ↔ path = ["adr", "ADR_002.json.reviewed"]) ∧
      (path ∈ otherEntries.map Prod.fst ↔ path = ["adr", "ADR_002.json.reviewed"]) := by
  have first : ∀ listed ∈ stagedEntries.map Prod.fst, IsMarker listed →
      listed = ["adr", "ADR_002.json.reviewed"] := by
    decide
  have second : ∀ listed ∈ otherEntries.map Prod.fst, IsMarker listed →
      listed = ["adr", "ADR_002.json.reviewed"] := by
    decide
  refine ⟨⟨fun member => first path member marks, ?_⟩, fun member => second path member marks, ?_⟩
  · rintro rfl
    decide
  · rintro rfl
    decide

end Sample

end FleetMemory
