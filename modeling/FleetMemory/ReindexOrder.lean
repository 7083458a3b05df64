/-
This file proves that a reindex run does not depend on the order its documents were walked in.
Candidates are resolved in the groups of their identifiers, and what becomes of a group is a
function of its members: whether their titles differ, their sorted paths, and the one with the
deepest path, which is the only one of its path. The winners have natural keys of their own, so
none reads the lessons another one's publication stored.
-/

import FleetMemory.Grouping
import FleetMemory.ReindexRuns
import Mathlib.Data.List.Sort
import Mathlib.Data.Prod.Lex

namespace FleetMemory

open StoreProgram PosixPath

/-! ### Groups in any order -/

/-- What the source orders the candidates of one group by. -/
def Candidate.rank (candidate : Candidate) : Nat ×ₗ String :=
  toLex ((parts candidate.relativePath).length, candidate.relativePath)

theorem deeper_iff (first second : Candidate) :
    deeper first second = true ↔ first.rank < second.rank := by
  rw [Candidate.rank, Candidate.rank, Prod.Lex.toLex_lt_toLex]
  simp [deeper]

theorem Candidate.rank_eq {first second : Candidate} (same : first.rank = second.rank) :
    first.relativePath = second.relativePath :=
  congrArg (fun rank => (ofLex rank).2) same

/-- The winner is at least as deep as the candidates it was compared with. -/
theorem rank_le_deepest {before after rest : List Candidate} {winner : Candidate}
    (best : ∀ candidate ∈ before ++ after, candidate.rank ≤ winner.rank) :
    ∀ candidate ∈ before ++ winner :: after ++ rest,
      candidate.rank ≤ (deepest before winner after rest).1.rank := by
  induction rest generalizing before winner after with
  | nil =>
    intro candidate member
    rw [deepest]
    rw [List.append_nil] at member
    rcases List.mem_append.mp member with earlier | later
    · exact best candidate (List.mem_append_left _ earlier)
    · rcases List.mem_cons.mp later with rfl | after
      · exact le_rfl
      · exact best candidate (List.mem_append_right _ after)
  | cons next rest inductionHypothesis =>
    rw [deepest]
    split
    · rename_i overtaken
      have below : winner.rank < next.rank := (deeper_iff winner next).mp overtaken
      have better : ∀ candidate ∈ (before ++ winner :: after) ++ [],
          candidate.rank ≤ next.rank := by
        intro candidate member
        rw [List.append_nil] at member
        rcases List.mem_append.mp member with earlier | later
        · exact (best candidate (List.mem_append_left _ earlier)).trans below.le
        · rcases List.mem_cons.mp later with rfl | after
          · exact below.le
          · exact (best candidate (List.mem_append_right _ after)).trans below.le
      have whole := inductionHypothesis better
      simpa using whole
    · rename_i kept
      have above : next.rank ≤ winner.rank :=
        not_lt.mp fun below => kept ((deeper_iff winner next).mpr below)
      have still : ∀ candidate ∈ before ++ (after ++ [next]),
          candidate.rank ≤ winner.rank := by
        intro candidate member
        rw [← List.append_assoc] at member
        rcases List.mem_append.mp member with earlier | single
        · exact best candidate earlier
        · rw [List.mem_singleton.mp single]
          exact above
      have whole := inductionHypothesis still
      simpa using whole

section

variable {runtime : Runtime} {group other : List Candidate}

theorem resolveGroup_of_titles (differ : ∃ one ∈ group, ∃ two ∈ group, one.title ≠ two.title) :
    resolveGroup runtime group = ⟨[], group.map fun candidate => candidate.skippedFor
      ("id collision across distinct tasks: " ++ runtime.reprList
        ((group.map Candidate.relativePath).mergeSort fun one other => decide (one ≤ other)))⟩ := by
  obtain ⟨one, oneIn, two, twoIn, apart⟩ := differ
  unfold resolveGroup
  split
  · cases oneIn
  · rename_i only
    rw [List.mem_singleton.mp oneIn, List.mem_singleton.mp twoIn] at apart
    exact absurd rfl apart
  · rename_i first rest _
    rw [if_pos]
    rw [List.any_eq_true]
    by_contra alike
    have same : ∀ candidate ∈ first :: rest, candidate.title = first.title := by
      intro candidate member
      rcases List.mem_cons.mp member with rfl | later
      · rfl
      · by_contra other
        exact alike ⟨candidate, later, by simpa using other⟩
    exact apart ((same one oneIn).trans (same two twoIn).symm)

theorem resolveGroup_of_one_title (several : 2 ≤ group.length)
    (alike : ∀ one ∈ group, ∀ two ∈ group, one.title = two.title) :
    ∃ winner losers, (winner :: losers).Perm group ∧
      (∀ candidate ∈ group, candidate.rank ≤ winner.rank) ∧
      resolveGroup runtime group = ⟨[winner], losers.map fun candidate => candidate.skippedFor
        ("id collision (same task): shadowed by deeper path " ++ winner.relativePath)⟩ := by
  unfold resolveGroup
  split
  · cases several
  · exact absurd several (by simp)
  · rename_i first rest _
    rw [if_neg]
    · refine ⟨(deepest [] first [] rest).1, (deepest [] first [] rest).2,
        deepest_perm [] first [] rest, ?_, rfl⟩
      exact @rank_le_deepest [] [] rest first (by simp)
    · simp only [List.any_eq_true, bne_iff_ne, not_exists, not_and, not_not]
      exact fun candidate member =>
        alike candidate (List.mem_cons_of_mem _ member) first List.mem_cons_self

/-- What becomes of a group does not depend on the order of its candidates. -/
theorem resolveGroup_perm_of_perm (perm : group.Perm other)
    (distinct : (group.map Candidate.relativePath).Nodup) :
    (resolveGroup runtime group).winners.Perm (resolveGroup runtime other).winners ∧
      (resolveGroup runtime group).skipped.Perm (resolveGroup runtime other).skipped := by
  by_cases differ : ∃ one ∈ group, ∃ two ∈ group, one.title ≠ two.title
  · obtain ⟨one, oneIn, two, twoIn, apart⟩ := differ
    have sorted : (group.map Candidate.relativePath).mergeSort (fun one other => decide (one ≤ other)) =
        (other.map Candidate.relativePath).mergeSort fun one other => decide (one ≤ other) := by
      refine List.Perm.eq_of_pairwise' (List.pairwise_mergeSort' (· ≤ ·) _)
        (List.pairwise_mergeSort' (· ≤ ·) _) ?_
      exact ((List.mergeSort_perm _ _).trans (perm.map _)).trans (List.mergeSort_perm _ _).symm
    rw [resolveGroup_of_titles ⟨one, oneIn, two, twoIn, apart⟩,
      resolveGroup_of_titles ⟨one, perm.subset oneIn, two, perm.subset twoIn, apart⟩, sorted]
    exact ⟨.refl _, perm.map _⟩
  · have alike : ∀ one ∈ group, ∀ two ∈ group, one.title = two.title := by
      simpa only [not_exists, not_and, not_not] using differ
    by_cases several : 2 ≤ group.length
    · obtain ⟨winner, losers, members, top, resolved⟩ :=
        @resolveGroup_of_one_title runtime group several alike
      obtain ⟨winner', losers', members', top', resolved'⟩ :=
        @resolveGroup_of_one_title runtime other (perm.length_eq ▸ several) fun one oneIn two twoIn =>
          alike one (perm.mem_iff.mpr oneIn) two (perm.mem_iff.mpr twoIn)
      have inGroup : winner ∈ group := members.subset List.mem_cons_self
      have inGroup' : winner' ∈ group := perm.mem_iff.mpr (members'.subset List.mem_cons_self)
      -- only one candidate of the group has the deepest path
      obtain rfl : winner = winner' := List.inj_on_of_nodup_map distinct inGroup inGroup'
        (Candidate.rank_eq (le_antisymm (top' winner (perm.mem_iff.mp inGroup)) (top winner' inGroup')))
      have rest : losers.Perm losers' := (List.perm_cons winner).mp
        ((members.trans perm).trans members'.symm)
      rw [resolved, resolved']
      exact ⟨.refl _, rest.map _⟩
    · have same : group = other := by
        match group, several, perm with
        | [], _, perm => exact perm.nil_eq
        | [only], _, perm => exact perm.singleton_eq
        | first :: second :: rest, several, _ => exact absurd (by simp) several
      rw [same]
      exact ⟨.refl _, .refl _⟩

theorem byIdentifier_eq (candidates : List Candidate) :
    byIdentifier candidates = Grouping.listed Candidate.identifier candidates := by
  have step : ∀ (groups : List (String × List Candidate)) (candidate : Candidate),
      addToGroup groups candidate = Grouping.take Candidate.identifier (fun _ => [])
        (fun group row => group ++ [row]) groups candidate := by
    intro groups candidate
    induction groups with
    | nil => rfl
    | cons entry rest inductionHypothesis =>
      obtain ⟨identifier, group⟩ := entry
      simp only [Grouping.take] at inductionHypothesis
      simp only [addToGroup, inductionHypothesis, Grouping.take, Grouping.update]
      by_cases same : identifier = candidate.identifier
      · rw [if_pos same, if_pos same, same]
      · rw [if_neg same, if_neg same]
  exact congrArg (fun take => candidates.foldl take []) (funext fun groups => funext (step groups))

/-- What becomes of the candidates does not depend on their order. -/
theorem resolveCollisions_perm_of_perm {candidates others : List Candidate}
    (perm : candidates.Perm others)
    (distinct : (candidates.map Candidate.relativePath).Nodup) :
    (resolveCollisions runtime candidates).winners.Perm (resolveCollisions runtime others).winners ∧
      (resolveCollisions runtime candidates).skipped.Perm
        (resolveCollisions runtime others).skipped := by
  have alike : ∀ wanted, _ := fun wanted => @resolveGroup_perm_of_perm runtime
    (Grouping.rowsOf Candidate.identifier candidates wanted) _ (perm.filter _)
    (distinct.sublist (List.filter_sublist.map _))
  unfold resolveCollisions
  simp only [byIdentifier_eq, List.flatMap_map]
  constructor
  · exact @Grouping.flatMap_listed_perm _ _ _ Candidate.identifier candidates others _
      (fun group => (resolveGroup runtime group).winners) perm fun wanted => (alike wanted).1
  · exact @Grouping.flatMap_listed_perm _ _ _ Candidate.identifier candidates others _
      (fun group => (resolveGroup runtime group).skipped) perm fun wanted => (alike wanted).2

end

/-! ### What a run sends -/

/-- Run a program, and keep what it raises. -/
def attempt {Result : Type} (program : StoreM Result) : StoreM (Except PyError Result) :=
  Program.tryCatch (program >>= fun result => return .ok result) fun error => return .error error

section

variable (runtime : Runtime) (publisher : PublisherFn) (preserving : Bool)

/-- The loop over the winners, with the payloads the publisher was called with, and with what ended
the loop early. -/
def publishWinnersSending (sent : List Payload) (done : Published) :
    List Candidate → StoreM (Except PyError Published × List Payload)
  | [] => return (.ok done, sent)
  | candidate :: rest => do
    match ← attempt (outgoingPayload runtime preserving candidate.payload) with
    | .error error => return (.error error, sent)
    | .ok payload =>
      match ← attempt (publishOrCount (some publisher) payload) with
      | .error error => return (.error error, sent ++ [payload])
      | .ok skipReason =>
        publishWinnersSending (sent ++ [payload])
          (done.record candidate payload.naturalKey skipReason) rest

/-- A run over documents with a publisher, with the payloads the publisher was called with. -/
def reindexSending (yaml : YamlLibrary) (manifest : CorpusManifest) (docs : List CorpusDocument) :
    StoreM (Except PyError RunReport × List Payload) :=
  match docs.mapM (examine runtime yaml manifest) with
  | .error error => return (.error error, [])
  | .ok examined => do
    let unparseable := examined.filterMap Examined.unparseable?
    let resolved := resolveCollisions runtime (examined.filterMap Examined.candidate?)
    let (ended, sent) ← publishWinnersSending runtime publisher preserving []
      ⟨examined.filterMap Examined.skipped? ++ resolved.skipped, [], []⟩ resolved.winners
    return (ended.map fun done => {
      walkedCount := docs.length
      publishedCount := done.publishedNaturalKeys.length
      skippedCount := done.skipped.length
      unparseableCount := unparseable.length
      perKindCounts := done.perKindCounts
      publishedNaturalKeys := done.publishedNaturalKeys
      skipped := done.skipped
      unparseable }, sent)

variable {runtime publisher preserving}

/-- An attempt whose exception is raised again is the program. -/
theorem attempt_bind {Result Other : Type} (program : StoreM Result)
    {next : Except PyError Result → StoreM Other}
    (raises : ∀ error, next (.error error) = throw error) :
    attempt program >>= next = program >>= fun result => next (.ok result) := by
  induction program with
  | done outcome =>
    cases outcome with
    | returned result => rfl
    | raised error => exact raises error
    | hung => rfl
  | aget place continuation inductionHypothesis =>
    exact congrArg (Program.aget place) (funext inductionHypothesis)
  | asearch query continuation inductionHypothesis =>
    exact congrArg (Program.asearch query) (funext inductionHypothesis)
  | aput place value continuation inductionHypothesis =>
    exact congrArg (Program.aput place value) (funext inductionHypothesis)

theorem publishWinnersSending_erased (sent : List Payload) (done : Published)
    (winners : List Candidate) :
    (publishWinnersSending runtime publisher preserving sent done winners >>= fun ended =>
      lift ended.1) = publishWinners runtime (some publisher) preserving done winners := by
  induction winners generalizing sent done with
  | nil => rfl
  | cons winner rest inductionHypothesis =>
    rw [publishWinnersSending, publishWinners, publishWinner, Program.bind_bind, Program.bind_bind,
      attempt_bind _ fun error => rfl]
    refine congrArg _ (funext fun payload => ?_)
    rw [Program.bind_bind, Program.bind_bind, attempt_bind _ fun error => rfl]
    exact congrArg _ (funext fun skipReason => inductionHypothesis _ _)

/-- Without what it sent, the run is the one of the source. -/
theorem reindexSending_erased (yaml : YamlLibrary) (manifest : CorpusManifest)
    (docs : List CorpusDocument) :
    (reindexSending runtime publisher preserving yaml manifest docs >>= fun ended =>
      lift ended.1) = reindexCorpus runtime yaml manifest (some publisher) preserving docs := by
  unfold reindexSending reindexCorpus
  cases docs.mapM (examine runtime yaml manifest) with
  | error error => rfl
  | ok examined =>
    rw [lift_ok_bind]
    dsimp only
    rw [← publishWinnersSending_erased [], Program.bind_bind, Program.bind_bind]
    refine congrArg _ (funext fun ended => ?_)
    obtain ⟨ended, sent⟩ := ended
    cases ended <;> rfl

end

/-! ### Publishing to one that accepts -/

/-- The publisher accepts every payload, and leaves the lessons that are stored for payloads with
other natural keys as they are. -/
def AcceptsAll (runtime : Runtime) (engine : SearchEngine) (publisher : PublisherFn) : Prop :=
  ∀ payload store, ∃ after, (publisher payload).run (storeWorld engine) store =
      (.returned none, after) ∧
    ∀ other : Payload, other.naturalKey ≠ payload.naturalKey →
      preserved runtime other after = preserved runtime other store

/-- What a winner goes out with. -/
def sentFor (runtime : Runtime) (preserving : Bool) (store : Store) (winner : Candidate) :
    Except PyError Payload :=
  if preserving then preserved runtime winner.payload store else .ok winner.payload

section

variable {runtime : Runtime} {engine : SearchEngine} {publisher : PublisherFn}
  {preserving : Bool}

theorem run_attempt {Result : Type} (program : StoreM Result) (store : Store) :
    (attempt program).run (storeWorld engine) store =
      match program.run (storeWorld engine) store with
      | (.returned result, after) => (.returned (.ok result), after)
      | (.raised error, after) => (.returned (.error error), after)
      | (.hung, after) => (.hung, after) := by
  rw [attempt, Program.run_tryCatch, Program.run_bind]
  generalize program.run (storeWorld engine) store = ran
  obtain ⟨outcome, after⟩ := ran
  cases outcome <;> rfl

theorem run_outgoingPayload (winner : Candidate) (store : Store) :
    (outgoingPayload runtime preserving winner.payload).run (storeWorld engine) store =
      (.ofExcept (sentFor runtime preserving store winner), store) := by
  cases preserving with
  | false => rfl
  | true => exact run_preserveExistingLessons

theorem naturalKey_of_sentFor {store : Store} {winner : Candidate} {payload : Payload}
    (sends : sentFor runtime preserving store winner = .ok payload) :
    payload.naturalKey = winner.payload.naturalKey := by
  cases preserving with
  | false =>
    obtain rfl := Except.ok.inj sends
    rfl
  | true => exact naturalKey_of_preserved sends

/-- The loop sends what each winner goes out with, up to the first one whose lessons cannot be
read. -/
theorem run_publishWinnersSending (accepts : AcceptsAll runtime engine publisher)
    {winners : List Candidate}
    (distinct : (winners.map fun winner => winner.payload.naturalKey).Nodup) (store : Store)
    (sent : List Payload) (done : Published) :
    (∃ payloads last after, winners.mapM (sentFor runtime preserving store) = .ok payloads ∧
      (publishWinnersSending runtime publisher preserving sent done winners).run
        (storeWorld engine) store = (.returned (.ok last, sent ++ payloads), after) ∧
      last.skipped = done.skipped) ∨
    ∃ error payloads after, (∃ raised, winners.mapM (sentFor runtime preserving store) =
        .error raised) ∧
      (publishWinnersSending runtime publisher preserving sent done winners).run
        (storeWorld engine) store = (.returned (.error error, sent ++ payloads), after) ∧
      (payloads.map fun payload => payload.naturalKey).Sublist
        (winners.map fun winner => winner.payload.naturalKey) := by
  induction winners generalizing store sent done with
  | nil =>
    refine Or.inl ⟨[], done, store, List.mapM_nil, ?_, rfl⟩
    rw [List.append_nil]
    rfl
  | cons winner rest inductionHypothesis =>
    obtain ⟨fresh, apart⟩ := List.nodup_cons.mp distinct
    rw [List.mapM_cons, publishWinnersSending, Program.run_bind, run_attempt, run_outgoingPayload]
    cases sends : sentFor runtime preserving store winner with
    | error error =>
      refine Or.inr ⟨error, [], store, ⟨error, rfl⟩, ?_, List.nil_sublist _⟩
      rw [List.append_nil]
      rfl
    | ok payload =>
      have sameKey := naturalKey_of_sentFor sends
      obtain ⟨after, accepted, undisturbed⟩ := accepts payload store
      have kept : ∀ other ∈ rest, sentFor runtime preserving after other =
          sentFor runtime preserving store other := by
        intro other member
        cases preserving with
        | false => rfl
        | true =>
          refine undisturbed other.payload fun same => fresh ?_
          exact List.mem_map.mpr ⟨other, member, same.trans sameKey⟩
      have later := inductionHypothesis apart after (sent ++ [payload])
        (done.record winner payload.naturalKey none)
      simp only [except_mapM_congr kept, List.append_assoc, List.singleton_append] at later
      simp only [Outcome.ofExcept, Program.run_bind, run_attempt, publishOrCount, accepted]
      rcases later with ⟨payloads, last, final, all, ends, skipped⟩ |
        ⟨error, payloads, final, ⟨raised, all⟩, ends, keys⟩
      · refine Or.inl ⟨payload :: payloads, last, final, ?_, ends, skipped⟩
        rw [all]
        rfl
      · refine Or.inr ⟨error, payload :: payloads, final, ⟨raised, ?_⟩, ends, ?_⟩
        · rw [all]
          rfl
        · rw [List.map_cons, List.map_cons, sameKey]
          exact keys.cons_cons _

end

/-! ### Runs in any order -/

/-- Two runs end alike: both are broken off, or both report the same skipped and unparseable
documents, in some order. -/
def EndAlike : Except PyError RunReport → Except PyError RunReport → Prop
  | .ok report, .ok other =>
    report.skipped.Perm other.skipped ∧ report.unparseable.Perm other.unparseable
  | .error _, .error _ => True
  | _, _ => False

section

variable {runtime : Runtime} {yaml : YamlLibrary} {manifest : CorpusManifest}
  {engine : SearchEngine} {publisher : PublisherFn} {preserving : Bool} {store : Store}

/-- The candidates have the paths of their documents. -/
theorem paths_of_candidates {docs : List CorpusDocument} {examined : List Examined}
    (all : docs.mapM (examine runtime yaml manifest) = .ok examined) :
    ((examined.filterMap Examined.candidate?).map Candidate.relativePath).Sublist
      (docs.map CorpusDocument.relativePath) := by
  induction except_mapM_eq_ok.mp all with
  | nil => exact .slnil
  | @cons doc found rest others here later inductionHypothesis =>
    have tail := inductionHypothesis (except_mapM_eq_ok.mpr later)
    have about := examine_about here
    cases found with
    | skipped entry => exact tail.cons _
    | unparseable entry => exact tail.cons _
    | candidate candidate =>
      obtain ⟨path, -⟩ := about
      rw [List.map_cons, ← path]
      exact tail.cons_cons candidate.relativePath

/-- What is sent has the keys of the winners. -/
theorem naturalKeys_of_sent {winners : List Candidate} {payloads : List Payload}
    (all : winners.mapM (sentFor runtime preserving store) = .ok payloads) :
    (payloads.map fun payload => payload.naturalKey) =
      winners.map fun winner => winner.payload.naturalKey :=
  (Pairings.map_eq_map (except_mapM_eq_ok.mp all) fun _ _ _ sends =>
    (naturalKey_of_sentFor sends).symm).symm

/-- A run is broken off before it sends anything, or sends what each winner goes out with, up to
the first one whose lessons cannot be read. -/
theorem run_reindexSending (accepts : AcceptsAll runtime engine publisher)
    (docs : List CorpusDocument) :
    (∃ error, docs.mapM (examine runtime yaml manifest) = .error error ∧
      (reindexSending runtime publisher preserving yaml manifest docs).run (storeWorld engine) store =
        (.returned (.error error, []), store)) ∨
    ∃ examined, docs.mapM (examine runtime yaml manifest) = .ok examined ∧
      ((∃ payloads report after, (resolveCollisions runtime
          (examined.filterMap Examined.candidate?)).winners.mapM (sentFor runtime preserving store) =
            .ok payloads ∧
        (reindexSending runtime publisher preserving yaml manifest docs).run (storeWorld engine)
          store = (.returned (.ok report, payloads), after) ∧
        report.skipped = examined.filterMap Examined.skipped? ++
          (resolveCollisions runtime (examined.filterMap Examined.candidate?)).skipped ∧
        report.unparseable = examined.filterMap Examined.unparseable?) ∨
      ∃ error payloads after, (∃ raised, (resolveCollisions runtime
          (examined.filterMap Examined.candidate?)).winners.mapM (sentFor runtime preserving store) =
            .error raised) ∧
        (reindexSending runtime publisher preserving yaml manifest docs).run (storeWorld engine)
          store = (.returned (.error error, payloads), after) ∧
        (payloads.map fun payload => payload.naturalKey).Nodup) := by
  unfold reindexSending
  cases all : docs.mapM (examine runtime yaml manifest) with
  | error error => exact Or.inl ⟨error, rfl, rfl⟩
  | ok examined =>
    refine Or.inr ⟨examined, rfl, ?_⟩
    dsimp only
    simp only [Program.run_bind]
    rcases run_publishWinnersSending accepts (nodup_naturalKeys _ _) store []
        ⟨examined.filterMap Examined.skipped? ++ (resolveCollisions runtime
          (examined.filterMap Examined.candidate?)).skipped, [], []⟩ with
      ⟨payloads, last, after, sends, ends, skipped⟩ | ⟨error, payloads, after, raises, ends, keys⟩
    · rw [ends]
      exact Or.inl ⟨payloads, _, after, sends, rfl, skipped, rfl⟩
    · rw [ends]
      exact Or.inr ⟨error, payloads, after, raises, rfl, keys.nodup (nodup_naturalKeys _ _)⟩

end

/-- On a store in the writer's format the lessons of every winner are read. -/
theorem sentFor_of_format {docs : List CorpusDocument} {examined : List Examined}
    {runtime : Runtime} {yaml : YamlLibrary} {manifest : CorpusManifest} {store : Store}
    {error : PyError} {preserving : Bool}
    (all : docs.mapM (examine runtime yaml manifest) = .ok examined)
    (format : WriterFormat runtime store) :
    (resolveCollisions runtime (examined.filterMap Examined.candidate?)).winners.mapM
      (sentFor runtime preserving store) ≠ .error error := by
  intro raises
  obtain ⟨winner, member, raised, fails⟩ := except_mapM_raises_iff.mp ⟨error, raises⟩
  have outcome := taskOutcome_of_winner (except_mapM_eq_ok.mp all) member
  cases preserving with
  | false => cases fails
  | true =>
    obtain ⟨outgoing, kept⟩ := preserved_of_format format outcome.instanceOf.payloadType
    cases kept.symm.trans fails

/-- A run over documents in another order ends alike. What it sends has keys of its own, and is the
same unless the run is broken off while it publishes, by a stored record the writer did not leave. -/
theorem reindex_any_order (runtime : Runtime) (yaml : YamlLibrary) (manifest : CorpusManifest)
    (engine : SearchEngine) (publisher : PublisherFn) (preserving : Bool) (store : Store)
    (docs others : List CorpusDocument) (accepts : AcceptsAll runtime engine publisher)
    (perm : docs.Perm others) (distinct : (docs.map CorpusDocument.relativePath).Nodup) :
    ∃ ended sent after otherEnded otherSent otherAfter,
      (reindexSending runtime publisher preserving yaml manifest docs).run (storeWorld engine)
          store = (.returned (ended, sent), after) ∧
        (reindexSending runtime publisher preserving yaml manifest others).run (storeWorld engine)
          store = (.returned (otherEnded, otherSent), otherAfter) ∧
        EndAlike ended otherEnded ∧ (sent.map fun payload => payload.naturalKey).Nodup ∧
        ((∃ report, ended = .ok report) ∨ WriterFormat runtime store → sent.Perm otherSent) := by
  rcases @run_reindexSending runtime yaml manifest engine publisher preserving store accepts docs with
    ⟨error, aborts, ran⟩ | ⟨examined, all, rest⟩
  · -- one of the documents raises, before anything is sent
    obtain ⟨doc, member, raises⟩ := except_mapM_raises_iff.mp ⟨error, aborts⟩
    obtain ⟨otherError, otherAborts⟩ :=
      except_mapM_raises_iff.mpr ⟨doc, perm.mem_iff.mp member, raises⟩
    have otherRan : (reindexSending runtime publisher preserving yaml manifest others).run
        (storeWorld engine) store = (.returned (.error otherError, []), store) := by
      rw [reindexSending, otherAborts]
      rfl
    exact ⟨_, _, _, _, _, _, ran, otherRan, trivial, List.nodup_nil, fun _ => .refl _⟩
  · obtain ⟨moved, otherAll, movedPerm⟩ := except_mapM_perm perm all
    have candidates := movedPerm.filterMap Examined.candidate?
    obtain ⟨winners, skipped⟩ := @resolveCollisions_perm_of_perm runtime _ _ candidates
      (distinct.sublist (paths_of_candidates all))
    rcases @run_reindexSending runtime yaml manifest engine publisher preserving store accepts others
      with ⟨_, impossible, -⟩ | ⟨again, sameAll, otherRest⟩
    · rw [otherAll] at impossible
      cases impossible
    obtain rfl : moved = again := Except.ok.inj (otherAll.symm.trans sameAll)
    rcases rest with ⟨payloads, report, after, sends, ran, skips, unparseable⟩ |
      ⟨error, payloads, after, ⟨raised, raises⟩, ran, keys⟩
    · obtain ⟨otherPayloads, otherSends, sentPerm⟩ := except_mapM_perm winners sends
      rcases otherRest with ⟨same, otherReport, otherAfter, sameSends, otherRan, otherSkips,
        otherUnparseable⟩ | ⟨_, _, _, ⟨_, impossible⟩, -⟩
      · obtain rfl : otherPayloads = same := Except.ok.inj (otherSends.symm.trans sameSends)
        refine ⟨_, _, _, _, _, _, ran, otherRan, ⟨?_, ?_⟩, ?_, fun _ => sentPerm⟩
        · rw [skips, otherSkips]
          exact (movedPerm.filterMap _).append skipped
        · rw [unparseable, otherUnparseable]
          exact movedPerm.filterMap _
        · rw [naturalKeys_of_sent sends]
          exact nodup_naturalKeys _ _
      · rw [otherSends] at impossible
        cases impossible
    · -- the lessons stored for a winner cannot be read, in whatever order the winners come
      rcases otherRest with ⟨_, _, _, otherSends, -⟩ |
        ⟨otherError, otherPayloads, otherAfter, -, otherRan, -⟩
      · obtain ⟨_, impossible, -⟩ := except_mapM_perm winners.symm otherSends
        rw [raises] at impossible
        cases impossible
      · refine ⟨_, _, _, _, _, _, ran, otherRan, trivial, keys, ?_⟩
        rintro (⟨report, impossible⟩ | format)
        · cases impossible
        · exact absurd raises (sentFor_of_format all format)

section Sample

theorem acceptsAll_acceptingPublisher (runtime : Runtime) (engine : SearchEngine) :
    AcceptsAll runtime engine acceptingPublisher :=
  fun _ store => ⟨store, rfl, fun _ _ => rfl⟩

/-- A copy of the plain task in a deeper folder. -/
def archivedTask : CorpusDocument where
  path := "docs/2026/T.md"
  text := plainTask.text

/-- The task and its copy are reindexed alike, whichever is walked first. -/
theorem reindex_any_order_archivedTask :
    ∃ ended sent after otherEnded otherSent otherAfter,
      (reindexSending plainRuntime acceptingPublisher true plainYaml CorpusManifest.slashManifest
          [plainTask, archivedTask]).run (storeWorld (prefixEngine fun _ _ _ => none)) ∅ =
            (.returned (ended, sent), after) ∧
        (reindexSending plainRuntime acceptingPublisher true plainYaml CorpusManifest.slashManifest
          [archivedTask, plainTask]).run (storeWorld (prefixEngine fun _ _ _ => none)) ∅ =
            (.returned (otherEnded, otherSent), otherAfter) ∧
        EndAlike ended otherEnded ∧ (sent.map fun payload => payload.naturalKey).Nodup ∧
        ((∃ report, ended = .ok report) ∨ WriterFormat plainRuntime ∅ → sent.Perm otherSent) :=
  reindex_any_order plainRuntime plainYaml CorpusManifest.slashManifest
    (prefixEngine fun _ _ _ => none) acceptingPublisher true ∅ [plainTask, archivedTask]
    [archivedTask, plainTask] (acceptsAll_acceptingPublisher _ _) (.swap _ _ _) (by decide +kernel)

end Sample

end FleetMemory
