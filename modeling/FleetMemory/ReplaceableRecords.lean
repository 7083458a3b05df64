/-
This file says what the other doors of the memory service can change for one door. They can
replace records under their own projects, each by a record that declares nothing and carries
its own project. A listing matches its prefix by `LIKE`, and so holds rows of projects whose
names match it: a replaced row drops out of the door's searches, and out of the declarers its
writes look for, and whatever else they look through stays.
-/

import FleetMemory.DoorTools
import FleetMemory.DroppedRows
import FleetMemory.Interference
import FleetMemory.SupersessionInvariant

namespace FleetMemory

open StoreProgram DeterministicWriter Interference

/-! ### Rankings -/

/-- The engine selects rows as the installed store does, and ranks them by a fixed order. -/
structure RanksRows (engine : SearchEngine) : Prop where
  selects : ∀ scope place value,
    engine.selects scope place value = PrefixEngine.selects scope place value
  ordered : ∃ before : Scope → Item → Item → Prop,
    (∀ scope first second, before scope first second → ¬before scope second first) ∧
      ∀ scope store, (engine.ranking scope store).Pairwise (before scope)

/-- Two rankings of one scope hold the chosen rows in the same order, when they hold the same. -/
theorem filter_ranking_eq {engine : SearchEngine} (ranks : RanksRows engine) {scope : Scope}
    {first second : Store} (keep : Item → Bool)
    (same : ∀ item, keep item = true →
      (item ∈ engine.ranking scope first ↔ item ∈ engine.ranking scope second)) :
    (engine.ranking scope first).filter keep = (engine.ranking scope second).filter keep := by
  obtain ⟨before, asymmetric, pairwise⟩ := ranks.ordered
  have nodup (store : Store) : ((engine.ranking scope store).filter keep).Nodup :=
    (engine.ranking_nodup scope store).of_map.filter keep
  have perm : ((engine.ranking scope first).filter keep).Perm
      ((engine.ranking scope second).filter keep) := by
    refine (List.perm_ext_iff_of_nodup (nodup first) (nodup second)).mpr fun item => ?_
    rw [List.mem_filter, List.mem_filter]
    exact and_congr_left fun kept => same item kept
  exact perm.eq_of_pairwise (fun one two _ _ here there => absurd there (asymmetric _ _ _ here))
    ((pairwise scope first).filter keep) ((pairwise scope second).filter keep)

/-- A ranking whose chosen rows are all in another one is the other with rows dropped. -/
theorem exists_filter_ranking {engine : SearchEngine} (ranks : RanksRows engine) {scope : Scope}
    {first second : Store} {choose : Item → Bool}
    (within : ∀ item, choose item = true → item ∈ engine.ranking scope first →
      item ∈ engine.ranking scope second) :
    ∃ keep : Item → Bool, (engine.ranking scope first).filter choose =
        ((engine.ranking scope second).filter choose).filter keep ∧
      ∀ item, keep item = false → item ∉ engine.ranking scope first := by
  classical
  refine ⟨fun item => decide (item ∈ engine.ranking scope first), ?_, fun item => ?_⟩
  · have same := @filter_ranking_eq engine ranks scope first second
      (fun item => decide (item ∈ engine.ranking scope first) && choose item) fun item chosen => ?_
    · rw [List.filter_filter, ← same]
      refine List.filter_congr fun item member => ?_
      simp [member]
    · simp only [Bool.and_eq_true, decide_eq_true_eq] at chosen
      exact iff_of_true chosen.1 (within item chosen.2 chosen.1)
  · exact of_decide_eq_false

/-- The engine of a fixed order of places ranks rows by it. -/
theorem pairwise_ranking_prefixEngine (score : Scope → Place → StoredValue → Option ℚ)
    (scope : Scope) (store : Store) :
    ((prefixEngine score).ranking scope store).Pairwise fun first second =>
      first.place < second.place := by
  have ordered : (store.keys.sort (· ≤ ·)).Pairwise (· < ·) := by
    have sorted := Finset.pairwise_sort store.keys (· ≤ ·)
    exact (sorted.and (Finset.sort_nodup store.keys (· ≤ ·))).imp fun both =>
      lt_of_le_of_ne both.1 both.2
  refine List.Pairwise.filterMap _ (fun first second earlier one oneRow two twoRow => ?_) ordered
  rw [(PrefixEngine.row_eq_some.mp oneRow).1, (PrefixEngine.row_eq_some.mp twoRow).1]
  exact earlier

theorem ranksRows_prefixEngine (score : Scope → Place → StoredValue → Option ℚ) :
    RanksRows (prefixEngine score) where
  selects _ _ _ := rfl
  ordered := ⟨fun _ first second => first.place < second.place, fun _ _ _ => lt_asymm,
    pairwise_ranking_prefixEngine score⟩

/-! ### What the other doors can change -/

section

variable (writer : DeterministicWriter) (engine : SearchEngine) (doors : List SandboxDoor)
  (door : SandboxDoor)

/-- Another door can write a new record at the place. -/
def Replaceable (store : Store) (place : Place) : Prop :=
  ∃ other ∈ doors, other ≠ door ∧ ∃ request payload, other.payload? writer request = some payload ∧
    Accepts payload ∧ writer.Puts payload store ∧ place = writer.recordPlace payload

/-- The record declares nothing and carries a project the door does not serve. -/
structure Foreign (value : StoredValue) : Prop where
  declares : ∀ naturalKey, value.declares naturalKey = false
  project : ∃ project, value.project = some project ∧ project ∉ door.projects

/-- The rows a write's forward lookup lists that declare its key. -/
def declarersOf (payload : Payload) (store : Store) : List Item :=
  (engine.ranking (listing (recordNamespace payload)) store).filter (declaring payload.naturalKey)

/-- Where the request creates or replaces a record, the successor it is marked for is settled: it
stays, whichever of the records the other doors can replace are replaced. -/
def WriteSettled (request : DoorRequest) (store : Store) : Prop :=
  ∀ payload, door.payload? writer request = some payload → Accepts payload →
    writer.Puts payload store →
      MarkSettled (Replaceable writer doors door store) (declarersOf engine payload store)

/-- Where the request searches, what its partitions come to is settled. -/
def SearchSettled (request : DoorRequest) (store : Store) : Prop :=
  ∀ validated, door.searchRequest? request = some validated →
    ∀ payloadType ∈ partitions validated,
      ScanSettled writer.runtime validated payloadType (Replaceable writer doors door store)
        (engine.ranking (partitionScope validated payloadType) store)

/-- The pages a forward lookup may read hold every record. -/
def FitsPages (store : Store) : Prop :=
  store.keys.card < forwardPage * writer.pages

end

section

variable {writer : DeterministicWriter} {engine : SearchEngine} {doors : List SandboxDoor}
  {door other : SandboxDoor} {request : DoorRequest} {payload : Payload}
  {store first second : Store} {place : Place}

/-- Whether a place can be written depends on what stands there. -/
theorem Replaceable.congr (same : first.lookup place = second.lookup place)
    (replaceable : Replaceable writer doors door first place) :
    Replaceable writer doors door second place := by
  obtain ⟨other, member, different, request, payload, writes, accepts, puts, rfl⟩ := replaceable
  exact ⟨other, member, different, request, payload, writes, accepts, by rwa [Puts, ← same], rfl⟩

/-- A door writes build outcomes that supersede nothing, on its own projects. -/
theorem payload?_eq_some (writes : door.payload? writer request = some payload) :
    payload.supersedes = [] ∧ payload.project ∈ door.projects := by
  cases request with
  | write payloadDict =>
    obtain ⟨_, replacesNothing, _, serves⟩ := checkedPayload_eq_ok (toOption_eq_some.mp writes)
    exact ⟨replacesNothing, serves _ rfl⟩
  | search arguments => cases writes
  | searchItems arguments requireSubstantive => cases writes

/-- A door runs searches for its own projects. -/
theorem project_of_searchRequest? {validated : SearchRequest}
    (runs : door.searchRequest? request = some validated) : validated.project ∈ door.projects := by
  have inside {arguments : SearchArguments} {requireSubstantive : Bool}
      (runs : SandboxDoor.searchRequest?.request? door arguments requireSubstantive =
        some validated) : validated.project ∈ door.projects := by
    unfold SandboxDoor.searchRequest?.request? at runs
    split at runs
    · rename_i served
      rw [(SearchRequest.validate_eq_ok (toOption_eq_some.mp runs)).1]
      exact served
    · cases runs
  cases request with
  | search arguments => exact inside runs
  | searchItems arguments requireSubstantive => exact inside runs
  | write payloadDict => cases runs

/-- No place of the door's own projects is one the others can write. -/
theorem Replaceable.project_not_mem (apart : DoorsApart doors) (member : door ∈ doors)
    (replaceable : Replaceable writer doors door store place) {project : String}
    (stands : place.namespaceParts[1]? = some project) : project ∉ door.projects := by
  obtain ⟨other, otherMember, different, request, payload, writes, _, _, rfl⟩ := replaceable
  obtain rfl : payload.project = project := Option.some.inj stands
  intro serves
  exact different (apart.eq_of_project otherMember member (payload?_eq_some writes).2 serves)

/-- The place of a record the door writes is not one the others can write. -/
theorem not_replaceable_recordPlace (apart : DoorsApart doors) (member : door ∈ doors)
    (writes : door.payload? writer request = some payload) :
    ¬Replaceable writer doors door store (writer.recordPlace payload) :=
  fun replaceable => replaceable.project_not_mem apart member rfl (payload?_eq_some writes).2

@[simp] theorem markFound_project (value : StoredValue) (found : Option String) :
    (markFound value found).project = value.project :=
  markFound_keeps (·.project) (fun _ _ => rfl) value found

/-- A record another door writes is foreign. -/
theorem foreign_putValue (apart : DoorsApart doors) (member : door ∈ doors)
    (otherMember : other ∈ doors) (different : other ≠ door)
    (writes : other.payload? writer request = some payload) (store : Store) :
    Foreign door (writer.putValue engine payload none store) := by
  obtain ⟨replacesNothing, serves⟩ := payload?_eq_some writes
  refine ⟨fun naturalKey => ?_, payload.project, ?_, fun ours => ?_⟩
  · rw [putValue_declares, replacesNothing]
    rfl
  · rw [putValue, markFound_project]
    rfl
  · exact different (apart.eq_of_project otherMember member serves ours)

/-- A partition of a search of the door selects no foreign record. -/
theorem Foreign.not_selected (ranks : RanksRows engine) {value : StoredValue}
    (isForeign : Foreign door value) {validated : SearchRequest}
    (serves : validated.project ∈ door.projects) (payloadType : Option String) (place : Place) :
    engine.selects (partitionScope validated payloadType) place value = false := by
  obtain ⟨project, carried, theirs⟩ := isForeign.project
  have mismatch : (value.metadata "project" == some validated.project) = false := by
    show (value.project == some validated.project) = false
    rw [carried]
    simpa using fun same : project = validated.project => theirs (same ▸ serves)
  rw [ranks.selects, PrefixEngine.selects, PrefixEngine.matchesFilter, partitionScope,
    List.all_cons, mismatch, Bool.false_and, Bool.and_false]

/-- A row at a place the others can write is no match of a search of the door. -/
theorem passes_of_replaceable (apart : DoorsApart doors) (member : door ∈ doors)
    {validated : SearchRequest} (serves : validated.project ∈ door.projects)
    (payloadType : Option String) {item : Item}
    (replaceable : Replaceable writer doors door store item.place) :
    passes writer.runtime validated payloadType item = false := by
  have elsewhere : matchesProject item validated.project = false := by
    rw [matchesProject, beq_eq_false_iff_ne]
    exact fun stands => replaceable.project_not_mem apart member stands serves
  simp only [passes, elsewhere, Bool.false_and]

/-! ### One request -/

/-- The record a write puts is marked for the successor its first declarer names. -/
theorem putValue_eq_elim :
    writer.putValue engine payload none store =
      (firstMark (declarersOf engine payload store)).elim
        (storedValue payload (contentHash writer.runtime payload) (writer.nextVersion payload store)
          none)
        (storedValue payload (contentHash writer.runtime payload) (writer.nextVersion payload store)
          none).markedBy :=
  markFound_firstDeclaring _ _ _

/-- A search through a door leaves the store alone. -/
theorem serve_read_state (reads : ∀ payloadDict, request ≠ .write payloadDict) (store : Store) :
    (serve writer engine door request store).2 = store :=
  Program.run_preserves (· = store) (fun _ _ _ ⟨_, _, impossible⟩ => impossible.elim) _
    (uses_answer reads) store rfl

theorem length_listing_lt (fits : FitsPages writer store) (scope : Scope) :
    (engine.ranking scope store).length < forwardPage * writer.pages :=
  (length_ranking_le _ _ _).trans_lt fits

/-- An accepted write of a door answers its natural key and leaves the upserted store. -/
theorem serve_of_accepts (fits : FitsPages writer store)
    (writes : door.payload? writer request = some payload) (accepts : Accepts payload) :
    serve writer engine door request store =
      (.returned (.written { isError := false, value := some payload.naturalKey }),
        writer.upserted engine payload none store) := by
  cases request with
  | write payloadDict =>
    rw [serve_write_of_accepts (toOption_eq_some.mp writes) accepts (length_listing_lt fits _),
      written, (payload?_eq_some writes).1]
    rfl
  | search arguments => cases writes
  | searchItems arguments requireSubstantive => cases writes

/-- A request of a door leaves the store, or puts the record of its payload. -/
theorem serve_state_cases (fits : FitsPages writer store) :
    (serve writer engine door request store).2 = store ∨
      ∃ payload, door.payload? writer request = some payload ∧ Accepts payload ∧
        writer.Puts payload store ∧
          (serve writer engine door request store).2 = store.insert (writer.recordPlace payload)
            (writer.putValue engine payload none store) := by
  by_cases reads : ∀ payloadDict, request ≠ .write payloadDict
  · exact Or.inl (serve_read_state reads store)
  · simp only [ne_eq, not_forall, not_not] at reads
    obtain ⟨payloadDict, rfl⟩ := reads
    cases checked : checkedPayload writer.runtime payloadDict true (some door.projects) with
    | error error => exact Or.inl (by rw [serve_write_refused checked])
    | ok payload =>
      by_cases accepts : Accepts payload
      · have writes : door.payload? writer (.write payloadDict) = some payload :=
          toOption_eq_some.mpr checked
        rw [serve_of_accepts fits writes accepts, upserted]
        by_cases puts : writer.Puts payload store
        · exact Or.inr ⟨payload, writes, accepts, puts, if_pos puts⟩
        · exact Or.inl (if_neg puts)
      · obtain ⟨error, refused⟩ := serve_write_of_not_accepts checked accepts
        exact Or.inl (by rw [refused])

/-- A request adds at most one record. -/
theorem card_keys_serve (fits : FitsPages writer store) :
    (serve writer engine door request store).2.keys.card ≤ store.keys.card + 1 := by
  rcases @serve_state_cases writer engine door request store fits with
    unchanged | ⟨payload, _, _, _, put⟩
  · rw [unchanged]
    exact Nat.le_succ _
  · rw [put]
    exact card_keys_insert_le _ _ _

end

end FleetMemory
