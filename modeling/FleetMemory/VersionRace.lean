/-
This file proves what versions count when writes of one key take turns. A write stores one
more than the version it read, so a version is raised by one where no other write has put the
record in between, and may fall where one has.
-/

import FleetMemory.ConcurrentWrites
import FleetMemory.VersionLaw

namespace FleetMemory

open StoreProgram Transitions DeterministicWriter

/-! ### Writes of one record -/

/-- The version stored at a place: zero without a record. -/
def versionAt (place : Place) (store : Store) : Int :=
  match store.lookup place with
  | some value => value.version.getD 1
  | none => 0

/-- Writes that take turns, and the store they share. -/
abbrev Writes (Index : Type) : Type :=
  Configuration Index Place StoredValue SearchQuery Item PyError Unit Store

/-- Which write makes which call. -/
abbrev CallBy (Index : Type) : Type :=
  Index × Call Place StoredValue SearchQuery

section

variable {Index : Type} [DecidableEq Index] (writer : DeterministicWriter) (engine : SearchEngine)
  (place : Place) (payload : Index → Payload) (episodeMeta : Index → Option EpisodeMeta)

/-- Every write before its first call. -/
def startingWrites (store : Store) : Writes Index where
  programs index := writer.write (payload index) (episodeMeta index)
  state := store

/-- The write read the record earlier in the run, and the version is one more than it saw. -/
def ReadBefore (start : Writes Index) (past : List (CallBy Index)) (index : Index)
    (version : Int) : Prop :=
  ∃ earlier between seen, past = earlier ++ (index, .aget place) :: between ∧
    Run (Turn (storeWorld engine)) start earlier seen ∧ version = versionAt place seen.state + 1

/-- The record a write is about to put carries one more than the version it read. -/
def CarriesNext (start : Writes Index) (past : List (CallBy Index)) (index : Index)
    (value : StoredValue) : Prop :=
  ∃ version, value.version = some version ∧ ReadBefore engine place start past index version

/-- What a write in a phase has read, and that it marks other records only. -/
def Versioned (start : Writes Index) (past : List (CallBy Index)) (index : Index) :
    WritePhase → Prop
  | .starting => True
  | .looking _ _ value => CarriesNext engine place start past index value
  | .putting value => CarriesNext engine place start past index value
  | .marking remaining => ∀ key ∈ remaining, keyPlace writer.runtime key ≠ some place
  | .remarking marked _ remaining => marked ≠ place ∧
      ∀ key ∈ remaining, keyPlace writer.runtime key ≠ some place

/-- A write is refused, or it is in a phase that carries what it read. -/
def AllVersioned (start : Writes Index) (past : List (CallBy Index)) (writes : Writes Index) :
    Prop :=
  ∀ index, (∃ error, writes.programs index = lift (.error error)) ∨
    ∃ phase, writes.programs index =
        restOfWrite writer (payload index) (episodeMeta index) phase ∧
      Versioned writer engine place start past index phase

/-- Between a write's read of the record and its put of it no write has put the record. -/
def Undisturbed (labels : List (CallBy Index)) : Prop :=
  ∀ earlier between after index value,
    labels = earlier ++ (index, .aget place) :: (between ++ (index, .aput place value) :: after) →
      ∀ other found, (other, .aput place found) ∉ between

end

section

variable {Index : Type} [DecidableEq Index] {writer : DeterministicWriter}
  {engine : SearchEngine} {place : Place} {payload : Index → Payload}
  {episodeMeta : Index → Option EpisodeMeta} {start before after : Writes Index}
  {past : List (CallBy Index)} {index : Index} {label : CallBy Index}

theorem nextVersion_eq (payload : Payload) (store : Store) :
    writer.nextVersion payload store = versionAt (writer.recordPlace payload) store + 1 := by
  unfold nextVersion versionAt
  split <;> simp_all

theorem turn_functional :
    Functional (Turn (storeWorld engine) : Writes Index → CallBy Index → Writes Index → Prop) := by
  rintro ⟨programs, store⟩ _ _ _ (⟨_, one⟩) (⟨_, other⟩)
  rw [one] at other
  cases other
  rfl

theorem ReadBefore.concat {version : Int} (read : ReadBefore engine place start past index version)
    (label : CallBy Index) :
    ReadBefore engine place start (past ++ [label]) index version := by
  obtain ⟨earlier, between, seen, rfl, run, same⟩ := read
  exact ⟨earlier, between ++ [label], seen, by simp, run, same⟩

theorem Versioned.concat {phase : WritePhase}
    (versioned : Versioned writer engine place start past index phase) (label : CallBy Index) :
    Versioned writer engine place start (past ++ [label]) index phase := by
  cases phase with
  | starting => trivial
  | looking pages offset value =>
    obtain ⟨version, same, read⟩ := versioned
    exact ⟨version, same, read.concat label⟩
  | putting value =>
    obtain ⟨version, same, read⟩ := versioned
    exact ⟨version, same, read.concat label⟩
  | marking remaining => exact versioned
  | remarking marked existing remaining => exact versioned

/-- A call of a write: it puts the record one version above the one it read, or leaves the
record's version. -/
theorem versionAt_of_advance {payload : Payload} {ownMeta : Option EpisodeMeta} {store next : Store}
    {phase later : WritePhase} {call : Call Place StoredValue SearchQuery}
    (own : writer.recordPlace payload = place)
    (versioned : Versioned writer engine place start past index phase)
    (advance : Advance writer engine payload ownMeta store phase call later next) :
    (∃ value version, call = .aput place value ∧
        ReadBefore engine place start past index version ∧ versionAt place next = version) ∨
      (∀ value, call ≠ .aput place value) ∧ versionAt place next = versionAt place store := by
  cases advance with
  | @put value =>
    left
    obtain ⟨version, same, read⟩ := versioned
    refine ⟨value, version, by rw [own], read, ?_⟩
    rw [own, versionAt, lookup_insert_self]
    simp only [same, Option.getD_some]
  | @mark marked existing remaining =>
    right
    refine ⟨fun value same => ?_, ?_⟩
    · cases same
      exact versioned.1 rfl
    · rw [versionAt, versionAt, lookup_insert_other versioned.1.symm]
  | create puts => exact Or.inr ⟨fun value => nofun, rfl⟩
  | keep kept => exact Or.inr ⟨fun value => nofun, rfl⟩
  | found first => exact Or.inr ⟨fun value => nofun, rfl⟩
  | lastPage absent short => exact Or.inr ⟨fun value => nofun, rfl⟩
  | nextPage absent => exact Or.inr ⟨fun value => nofun, rfl⟩
  | missing named absent => exact Or.inr ⟨fun value => nofun, rfl⟩
  | stored named present => exact Or.inr ⟨fun value => nofun, rfl⟩

/-- The phase a call leads to carries what the write read. -/
theorem versioned_of_advance {payload : Payload} {ownMeta : Option EpisodeMeta} {next : Store}
    {phase later : WritePhase} {call : Call Place StoredValue SearchQuery}
    (own : writer.recordPlace payload = place) (apart : ¬Lists writer payload place)
    (run : Run (Turn (storeWorld engine)) start past before)
    (versioned : Versioned writer engine place start past index phase)
    (advance : Advance writer engine payload ownMeta before.state phase call later next) :
    Versioned writer engine place start (past ++ [(index, call)]) index later := by
  have others : ∀ key ∈ payload.supersedes, keyPlace writer.runtime key ≠ some place :=
    fun key member named => apart ⟨key, member, named⟩
  cases advance with
  | create puts =>
    exact ⟨_, rfl, past, [], before, by rw [own], run, by rw [nextVersion_eq, own]⟩
  | keep kept => exact others
  | found first =>
    obtain ⟨version, same, read⟩ := versioned.concat (index, _)
    exact ⟨version, by rw [markFound_version, same], read⟩
  | lastPage absent short => exact versioned.concat (index, _)
  | nextPage absent => exact versioned.concat (index, _)
  | put => exact others
  | missing named absent => exact fun key member => versioned key (List.mem_cons_of_mem _ member)
  | stored named present =>
    refine ⟨fun same => versioned _ List.mem_cons_self (same ▸ named), fun key member => ?_⟩
    exact versioned key (List.mem_cons_of_mem _ member)
  | mark => exact versioned.2

/-- A call to the record puts it one version above the one its write read; any other call leaves
the record's version. -/
def Counts (engine : SearchEngine) (place : Place) (start : Writes Index)
    (past : List (CallBy Index)) (before : Writes Index) (label : CallBy Index)
    (after : Writes Index) : Prop :=
  (∃ value version, label.2 = .aput place value ∧
      ReadBefore engine place start past label.1 version ∧
        versionAt place after.state = version) ∨
    (∀ value, label.2 ≠ .aput place value) ∧
      versionAt place after.state = versionAt place before.state

/-- A turn counts, and leaves every write with what it read. -/
theorem allVersioned_turn (own : ∀ index, writer.recordPlace (payload index) = place)
    (apart : ∀ index, ¬Lists writer (payload index) place)
    (run : Run (Turn (storeWorld engine)) start past before)
    (all : AllVersioned writer engine place payload episodeMeta start past before)
    (turn : Turn (storeWorld engine) before label after) :
    AllVersioned writer engine place payload episodeMeta start (past ++ [label]) after ∧
      Counts engine place start past before label after := by
  obtain ⟨mover, steps⟩ := turn
  rename_i programs store next program call
  rcases all mover with ⟨error, refused⟩ | ⟨phase, doing, versioned⟩
  · rw [show programs mover = _ from refused] at steps
    cases steps
  · rw [show programs mover = _ from doing] at steps
    obtain ⟨later, rest, advance⟩ := advance_of_step steps
    refine ⟨fun index => ?_, versionAt_of_advance (own mover) versioned advance⟩
    by_cases same : index = mover
    · subst same
      exact Or.inr ⟨later, (Function.update_self index program programs).trans rest,
        versioned_of_advance (own index) (apart index) run versioned advance⟩
    · rcases all index with ⟨error, refused⟩ | ⟨phase, doing, kept⟩
      · exact Or.inl ⟨error, (Function.update_of_ne same program programs).trans refused⟩
      · exact Or.inr ⟨phase, (Function.update_of_ne same program programs).trans doing,
          kept.concat _⟩

/-- Throughout a run every write carries what it read. -/
theorem allVersioned_of_run (own : ∀ index, writer.recordPlace (payload index) = place)
    (apart : ∀ index, ¬Lists writer (payload index) place) {store : Store}
    (run : Run (Turn (storeWorld engine)) (startingWrites writer payload episodeMeta store) past
      before) :
    AllVersioned writer engine place payload episodeMeta
      (startingWrites writer payload episodeMeta store) past before := by
  refine (run.invariant_of_labels (fun past writes =>
    Run (Turn (storeWorld engine)) (startingWrites writer payload episodeMeta store) past writes ∧
      AllVersioned writer engine place payload episodeMeta
        (startingWrites writer payload episodeMeta store) past writes) ⟨.nil, ?_⟩ ?_).2
  · intro index
    by_cases accepts : Accepts (payload index)
    · exact Or.inr ⟨.starting, write_of_accepts accepts, trivial⟩
    · exact Or.inl (write_of_not_accepts writer (episodeMeta index) accepts)
  · rintro past writes label next ⟨run, all⟩ turn
    exact ⟨.snoc run turn, (allVersioned_turn own apart run all turn).1⟩

/-- Every turn of a run counts. -/
theorem counts_of_run (own : ∀ index, writer.recordPlace (payload index) = place)
    (apart : ∀ index, ¬Lists writer (payload index) place) {store : Store}
    (run : Run (Turn (storeWorld engine)) (startingWrites writer payload episodeMeta store) past
      before) (turn : Turn (storeWorld engine) before label after) :
    Counts engine place (startingWrites writer payload episodeMeta store) past before label after :=
  (allVersioned_turn own apart run (allVersioned_of_run own apart run) turn).2

/-- While no write puts the record its version stays. -/
theorem versionAt_of_no_put (own : ∀ index, writer.recordPlace (payload index) = place)
    (apart : ∀ index, ¬Lists writer (payload index) place) {store : Store}
    {between : List (CallBy Index)} {seen : Writes Index}
    (first : Run (Turn (storeWorld engine)) (startingWrites writer payload episodeMeta store) past
      seen)
    (run : Run (Turn (storeWorld engine)) (startingWrites writer payload episodeMeta store)
      (past ++ between) before)
    (untouched : ∀ other value, (other, .aput place value) ∉ between) :
    versionAt place before.state = versionAt place seen.state := by
  induction between using List.reverseRecOn generalizing before with
  | nil =>
    rw [List.append_nil] at run
    rw [run.unique turn_functional first]
  | append_singleton rest label inductionHypothesis =>
    rw [← List.append_assoc] at run
    obtain ⟨middle, earlier, turn⟩ := run.of_concat
    have same := inductionHypothesis earlier fun other value member =>
      untouched other value (List.mem_append_left _ member)
    rcases counts_of_run own apart earlier turn with ⟨value, version, call, _⟩ | ⟨_, kept⟩
    · refine absurd (List.mem_append_right rest (List.mem_singleton.mpr ?_))
        (untouched label.1 value)
      rw [← call]
    · rw [kept, same]

/-- A put of the record raises the version by one over the one its write read; where no write has
put the record in between, that is the version it replaces. -/
theorem versionAt_of_put (own : ∀ index, writer.recordPlace (payload index) = place)
    (apart : ∀ index, ¬Lists writer (payload index) place) {store : Store} {value : StoredValue}
    (run : Run (Turn (storeWorld engine)) (startingWrites writer payload episodeMeta store) past
      before) (turn : Turn (storeWorld engine) before (index, .aput place value) after) :
    ∃ earlier between seen, past = earlier ++ (index, .aget place) :: between ∧
      Run (Turn (storeWorld engine)) (startingWrites writer payload episodeMeta store) earlier
        seen ∧
      versionAt place after.state = versionAt place seen.state + 1 ∧
      ((∀ other found, (other, .aput place found) ∉ between) →
        versionAt place after.state = versionAt place before.state + 1) := by
  rcases counts_of_run own apart run turn with ⟨_, version, _, read, stored⟩ | ⟨other, _⟩
  · obtain ⟨earlier, between, seen, rfl, first, rfl⟩ := read
    refine ⟨earlier, between, seen, rfl, first, stored, fun untouched => ?_⟩
    have still := versionAt_of_no_put own apart first run fun other found member => by
      rcases List.mem_cons.mp member with itself | later
      · cases itself
      · exact untouched other found later
    rw [stored, still]
  · exact absurd rfl (other value)

/-- In a run whose puts are undisturbed the version never falls. -/
theorem versionAt_le_of_undisturbed (own : ∀ index, writer.recordPlace (payload index) = place)
    (apart : ∀ index, ¬Lists writer (payload index) place) {store : Store}
    {more : List (CallBy Index)} (undisturbed : Undisturbed place (past ++ more))
    (first : Run (Turn (storeWorld engine)) (startingWrites writer payload episodeMeta store) past
      before)
    (run : Run (Turn (storeWorld engine)) (startingWrites writer payload episodeMeta store)
      (past ++ more) after) :
    versionAt place before.state ≤ versionAt place after.state := by
  induction more using List.reverseRecOn generalizing after with
  | nil =>
    rw [List.append_nil] at run
    rw [run.unique turn_functional first]
  | append_singleton rest label inductionHypothesis =>
    rw [← List.append_assoc] at run undisturbed
    obtain ⟨middle, earlier, turn⟩ := run.of_concat
    have sofar : Undisturbed place (past ++ rest) := by
      intro one between later index value split
      exact undisturbed one between (later ++ [label]) index value (by rw [split]; simp)
    have rises := inductionHypothesis sofar earlier
    obtain ⟨index, call⟩ := label
    rcases counts_of_run own apart earlier turn with ⟨value, _, put, _⟩ | ⟨_, kept⟩
    · obtain rfl : call = .aput place value := put
      obtain ⟨one, between, _, split, _, _, raised⟩ := versionAt_of_put own apart earlier turn
      rw [raised (undisturbed one between [] index value (by rw [split]; simp))]
      exact rises.trans (Int.le_add_one le_rfl)
    · rw [kept]
      exact rises

end

/-- Writes of one key take turns, from any stored version, and no store call fails. A put of the
record stores one more than the version its own write read, which raises the stored version by
exactly one when no write has put the record between that read and the put; in a run in which
that holds of every put, the stored version never falls. -/
theorem version_of_interleaved_writes {Index : Type} [DecidableEq Index]
    (writer : DeterministicWriter) (engine : SearchEngine) (key : String) (place : Place)
    (payload : Index → Payload) (episodeMeta : Index → Option EpisodeMeta) (store : Store)
    (named : keyPlace writer.runtime key = some place)
    (ofKey : ∀ index, (payload index).naturalKey = key)
    (identity : ∀ index, ∀ listed ∈ (payload index).supersedes,
      recordIdentity writer.runtime listed = recordIdentity writer.runtime key → listed = key) :
    (∀ past index value before after,
      Run (Turn (storeWorld engine)) (startingWrites writer payload episodeMeta store) past before →
      Turn (storeWorld engine) before (index, .aput place value) after →
      ∃ earlier between seen, past = earlier ++ (index, .aget place) :: between ∧
        Run (Turn (storeWorld engine)) (startingWrites writer payload episodeMeta store) earlier
          seen ∧
        versionAt place after.state = versionAt place seen.state + 1 ∧
        ((∀ other found, (other, .aput place found) ∉ between) →
          versionAt place after.state = versionAt place before.state + 1)) ∧
    ∀ past more before after,
      Run (Turn (storeWorld engine)) (startingWrites writer payload episodeMeta store) past before →
      Run (Turn (storeWorld engine)) (startingWrites writer payload episodeMeta store)
        (past ++ more) after →
      Undisturbed place (past ++ more) →
        versionAt place before.state ≤ versionAt place after.state := by
  have own : ∀ index, writer.recordPlace (payload index) = place := by
    intro index
    refine Option.some.inj ?_
    rw [← keyPlace_naturalKey, ofKey, named]
  have apart : ∀ index, ¬Lists writer (payload index) place := by
    rintro index ⟨listed, member, here⟩
    have same := identity index listed member
      (by rw [← key_of_keyPlace here, ← key_of_keyPlace named])
    exact (payload index).valid.notItself (by rw [ofKey, ← same]; exact member)
  exact ⟨fun past index value before after run turn => versionAt_of_put own apart run turn,
    fun past more before after first run undisturbed =>
      versionAt_le_of_undisturbed own apart undisturbed first run⟩

/-! ### Sample writes -/

section Sample

/-- The record a write puts stays as it is put, unless the payload lists it. -/
theorem lookup_written_of_puts {writer : DeterministicWriter} {engine : SearchEngine}
    {payload : Payload} {episodeMeta : Option EpisodeMeta} {store : Store}
    (puts : writer.Puts payload store)
    (apart : ¬Lists writer payload (writer.recordPlace payload)) :
    (writer.written engine payload episodeMeta store).lookup (writer.recordPlace payload) =
      some (writer.putValue engine payload episodeMeta store) := by
  rw [written, lookup_markAll, lookup_upserted, if_pos ⟨puts, rfl⟩, Option.map_some]
  exact congrArg some (if_neg apart)

/-- A write that puts its record raises the version by one. -/
theorem versionAt_written {writer : DeterministicWriter} {engine : SearchEngine}
    {payload : Payload} {episodeMeta : Option EpisodeMeta} {store : Store}
    (puts : writer.Puts payload store)
    (apart : ¬Lists writer payload (writer.recordPlace payload)) :
    versionAt (writer.recordPlace payload) (writer.written engine payload episodeMeta store) =
      versionAt (writer.recordPlace payload) store + 1 := by
  have version : (writer.putValue engine payload episodeMeta store).version =
      some (writer.nextVersion payload store) := by
    rw [putValue, markFound_version]
    rfl
  rw [← nextVersion_eq, versionAt, lookup_written_of_puts puts apart]
  simp only [version, Option.getD_some]

/-- The sample writes: one that is overtaken, and two that overtake it. -/
inductive Reviser where
  | overtaken
  | first
  | second
deriving DecidableEq

/-- A third content of the sample ADR. -/
def staleOfA : Payload where
  toPayloadFields := adrFields "a" "P" "f" []
  valid := ⟨by decide, by decide, by decide, by decide, by decide, by decide⟩

def revisions : Reviser → Payload
  | .overtaken => staleOfA
  | .first => predecessorOfA
  | .second => revisionOfA

/-- The record the overtaken write builds on the empty store. -/
def staleRecord : StoredValue :=
  storedValue staleOfA (contentHash revisionRuntime staleOfA) 1 none

/-- The overtaken write in a phase, the others before their first call. -/
def overtakenIn (phase : WritePhase) : Reviser → StoreM Unit
  | .overtaken => restOfWrite revisionWriter staleOfA none phase
  | .first => revisionWriter.write predecessorOfA none
  | .second => revisionWriter.write revisionOfA none

theorem turn_overtakenIn {phase next : WritePhase} {call : Call Place StoredValue SearchQuery}
    (steps : (restOfWrite revisionWriter staleOfA none phase).step? (storeWorld sampleEngine) ∅ =
      some (call, restOfWrite revisionWriter staleOfA none next, ∅)) :
    Turn (storeWorld sampleEngine) ⟨overtakenIn phase, ∅⟩ (.overtaken, call)
      ⟨overtakenIn next, ∅⟩ := by
  have moved : Function.update (overtakenIn phase) .overtaken
      (restOfWrite revisionWriter staleOfA none next) = overtakenIn next := by
    funext reviser
    cases reviser <;> rfl
  rw [← moved]
  exact .call Reviser.overtaken steps

theorem step?_looking_stale :
    (restOfWrite revisionWriter staleOfA none (.looking 1 0 staleRecord)).step?
        (storeWorld sampleEngine) ∅ =
      some (.asearch ⟨listing (recordNamespace staleOfA), forwardPage, 0⟩,
        restOfWrite revisionWriter staleOfA none (.putting staleRecord), ∅) := by
  have empty : forwardPageOf sampleEngine staleOfA ∅ 0 = [] := by
    rw [forwardPageOf, ranking_eq_nil fun place value stored => by cases stored]
    rfl
  rw [step?_looking, empty]
  rfl

/-- The overtaken write reads that there is no record and none that declares it. -/
theorem run_looking_stale : Run (Turn (storeWorld sampleEngine))
    (startingWrites revisionWriter revisions (fun _ => none) ∅)
    [(.overtaken, .aget (revisionWriter.recordPlace staleOfA)),
      (.overtaken, .asearch ⟨listing (recordNamespace staleOfA), forwardPage, 0⟩)]
    ⟨overtakenIn (.putting staleRecord), ∅⟩ := by
  have opening : startingWrites revisionWriter revisions (fun _ => none) ∅ =
      ⟨overtakenIn .starting, ∅⟩ := by
    refine congrArg (fun programs => (⟨programs, ∅⟩ : Writes Reviser)) (funext fun reviser => ?_)
    cases reviser with
    | overtaken => exact write_of_accepts ⟨by decide, by decide⟩
    | first => rfl
    | second => rfl
  have reading : Turn (storeWorld sampleEngine) ⟨overtakenIn .starting, ∅⟩
      (.overtaken, .aget (revisionWriter.recordPlace staleOfA))
      ⟨overtakenIn (.looking 1 0 staleRecord), ∅⟩ := turn_overtakenIn rfl
  rw [opening]
  exact (Run.single reading).append (Run.single (turn_overtakenIn step?_looking_stale))

/-- A write that no other overtakes puts version one where there was no record. -/
theorem version_of_interleaved_writes_alone :
    ∃ labels before after,
      Run (Turn (storeWorld sampleEngine))
        (startingWrites revisionWriter revisions (fun _ => none) ∅) labels before ∧
      Turn (storeWorld sampleEngine) before
        (Reviser.overtaken, .aput (revisionWriter.recordPlace staleOfA) staleRecord) after ∧
      versionAt (revisionWriter.recordPlace staleOfA) after.state =
        versionAt (revisionWriter.recordPlace staleOfA) before.state + 1 := by
  have put : Turn (storeWorld sampleEngine) ⟨overtakenIn (.putting staleRecord), ∅⟩
      (Reviser.overtaken, .aput (revisionWriter.recordPlace staleOfA) staleRecord) _ :=
    .call Reviser.overtaken rfl
  obtain ⟨counts, _⟩ := version_of_interleaved_writes revisionWriter sampleEngine "adr:a:P"
    (revisionWriter.recordPlace staleOfA) revisions (fun _ => none) ∅ (by decide)
    (fun reviser => by cases reviser <;> decide)
    (fun reviser listed member => by cases reviser <;> cases member)
  obtain ⟨earlier, between, _, split, _, _, raised⟩ := counts _ _ _ _ _ run_looking_stale put
  refine ⟨_, _, _, run_looking_stale, put, raised fun other found member => ?_⟩
  have inPast : (other, Call.aput (revisionWriter.recordPlace staleOfA) found) ∈
      earlier ++ (Reviser.overtaken, .aget (revisionWriter.recordPlace staleOfA)) :: between :=
    List.mem_append_right _ (List.mem_cons_of_mem _ member)
  rw [← split] at inPast
  simp at inPast

/-- A write reads that there is no record, two others create and revise it, and then it puts
version one over their version two. -/
theorem version_falls_of_overtaken :
    ∃ labels before after,
      Run (Turn (storeWorld sampleEngine))
        (startingWrites revisionWriter revisions (fun _ => none) ∅) labels before ∧
      Turn (storeWorld sampleEngine) before
        (Reviser.overtaken, .aput (revisionWriter.recordPlace staleOfA) staleRecord) after ∧
      versionAt (revisionWriter.recordPlace staleOfA) before.state = 2 ∧
      versionAt (revisionWriter.recordPlace staleOfA) after.state = 1 ∧
      ∃ replaced, before.state.lookup (revisionWriter.recordPlace staleOfA) = some replaced ∧
        replaced.content ≠ staleRecord.content := by
  have firstWritten := @run_write_of_accepts revisionWriter sampleEngine predecessorOfA none ∅
    ⟨by decide, by decide⟩ ((length_ranking_le _ _ _).trans_lt (by decide))
  have secondWritten := @run_write_of_accepts revisionWriter sampleEngine revisionOfA none
    (revisionWriter.written sampleEngine predecessorOfA none ∅) ⟨by decide, by decide⟩
    ((length_ranking_le _ _ _).trans_lt (card_keys_written.trans_lt (by decide)))
  obtain ⟨earlier, firstRun, _⟩ := exists_run_of_run Reviser.first
    (overtakenIn (.putting staleRecord)) rfl firstWritten
  obtain ⟨later, secondRun, _⟩ := exists_run_of_run Reviser.second
    (Function.update (overtakenIn (.putting staleRecord)) Reviser.first (.done (.returned ())))
    rfl secondWritten
  have run := (run_looking_stale.append firstRun).append secondRun
  have samePlace : revisionWriter.recordPlace revisionOfA =
      revisionWriter.recordPlace predecessorOfA := by decide
  have stalePlace : revisionWriter.recordPlace staleOfA =
      revisionWriter.recordPlace predecessorOfA := by decide
  have putsSecond : revisionWriter.Puts revisionOfA
      (revisionWriter.written sampleEngine predecessorOfA none ∅) := by
    obtain ⟨value, stored, hash⟩ := @lookup_written_self revisionWriter sampleEngine predecessorOfA
      none ∅
    rw [Puts, samePlace, stored, Option.bind_some, hash]
    show some (contentHash revisionRuntime predecessorOfA) ≠
      some (contentHash revisionRuntime revisionOfA)
    rw [contentHash_predecessorOfA, contentHash_revisionOfA]
    decide
  have versionOne := @versionAt_written revisionWriter sampleEngine predecessorOfA none ∅
    (puts_empty _ _) (by decide)
  have versionTwo := @versionAt_written revisionWriter sampleEngine revisionOfA none _ putsSecond
    (by decide)
  have stored := @lookup_written_of_puts revisionWriter sampleEngine revisionOfA none _ putsSecond
    (by decide)
  have put (store : Store) : versionAt (revisionWriter.recordPlace staleOfA)
      (store.insert (revisionWriter.recordPlace staleOfA) staleRecord) = 1 := by
    rw [versionAt, lookup_insert_self]
    rfl
  have contents : Json.dumps (.dict revisionOfA.modelDump) ≠ staleRecord.content := by
    decide +kernel
  refine ⟨_, _, _, run, .call Reviser.overtaken rfl, ?_, put _, revisionWriter.putValue sampleEngine
    revisionOfA none (revisionWriter.written sampleEngine predecessorOfA none ∅), ?_, ?_⟩
  · rw [stalePlace, ← samePlace, versionTwo, samePlace, versionOne]
    rfl
  · rw [stalePlace, ← samePlace]
    exact stored
  · rw [putValue, markFound_content]
    exact contents

end Sample

end FleetMemory
