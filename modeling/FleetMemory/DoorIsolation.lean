/-
This file proves when the doors of the memory service do not disturb each other. In the
run of a door's requests alone, what each of them looks through is settled when no record the
others can replace decides it. A run with requests of the other doors then shadows that run:
the door is answered alike, and what stands under its projects is the same. Where a write is
not settled, the other doors can change what it stores.
-/

import FleetMemory.ReplaceableRecords

namespace FleetMemory

open StoreProgram DeterministicWriter Interference

/-! ### A run beside the run of the door alone -/

section

variable (writer : DeterministicWriter) (engine : SearchEngine) (doors : List SandboxDoor)
  (door : SandboxDoor)

/-- Every request of the door meets the condition, in the run of these requests alone. -/
def AlongAlone (settled : DoorRequest → Store → Prop) (requests : List DoorRequest)
    (store : Store) : Prop :=
  Along (fun request state => (serve writer engine door request state).2) settled requests store

/-- No store of the run outgrows the pages of a forward lookup. -/
def FitsPagesThroughout (entries : List (SandboxDoor × DoorRequest)) (store : Store) : Prop :=
  Along (leaves (serve writer engine)) (fun _ => FitsPages writer) entries store

/-- A store beside that of the door alone: what differs is a record the other doors can replace,
and stands replaced by a foreign one. The requests to come are settled. -/
structure Beside (remaining : List (SandboxDoor × DoorRequest)) (store alone : Store) : Prop where
  served : ∀ entry ∈ remaining, entry.1 ∈ doors
  fits : FitsPagesThroughout writer engine remaining store
  same : ∀ place, store.lookup place = alone.lookup place ∨
    Replaceable writer doors door alone place ∧
      ∃ value, store.lookup place = some value ∧ Foreign door value
  searches : AlongAlone writer engine door (SearchSettled writer engine doors door)
    (requestsOf door remaining) alone
  writes : AlongAlone writer engine door (WriteSettled writer engine doors door)
    (requestsOf door remaining) alone

/-- Any two runs of the doors with these requests of one of them, over the store: the door is
answered alike, and what stands under its projects afterwards is the same. -/
def DoorIsolated (requests : List DoorRequest) (start : Store) : Prop :=
  ∀ first second : List (SandboxDoor × DoorRequest),
    (∀ entry ∈ first, entry.1 ∈ doors) → (∀ entry ∈ second, entry.1 ∈ doors) →
    requestsOf door first = requests → requestsOf door second = requests →
    FitsPagesThroughout writer engine first start → FitsPagesThroughout writer engine second start →
    let firstRun := run (serve writer engine) first start
    let secondRun := run (serve writer engine) second start
    entriesOf door firstRun.1 = entriesOf door secondRun.1 ∧
      ∀ place project, place.namespaceParts[1]? = some project → project ∈ door.projects →
        firstRun.2.lookup place = secondRun.2.lookup place

end

section

variable {writer : DeterministicWriter} {engine : SearchEngine} {doors : List SandboxDoor}
  {door other : SandboxDoor} {request : DoorRequest} {payload : Payload}
  {rest : List (SandboxDoor × DoorRequest)} {store alone start : Store}

/-- A place the other doors cannot write holds the same on both sides. -/
theorem Beside.lookup_eq (beside : Beside writer engine doors door rest store alone) {place : Place}
    (own : ¬Replaceable writer doors door alone place) : store.lookup place = alone.lookup place :=
  (beside.same place).resolve_right fun replaced => own replaced.1

/-- A row that is no foreign record is a row of the door alone. -/
theorem Beside.mem_ranking (beside : Beside writer engine doors door rest store alone)
    {scope : Scope} {item : Item} (ours : ¬Foreign door item.value)
    (listed : item ∈ engine.ranking scope store) : item ∈ engine.ranking scope alone := by
  rw [engine.mem_ranking] at listed ⊢
  rcases beside.same item.place with same | ⟨_, value, replaced, isForeign⟩
  · rwa [← same]
  · obtain rfl := Option.some.inj (listed.1.symm.trans replaced)
    exact absurd isForeign ours

/-- A row of the door alone that is missing is one the other doors can replace. -/
theorem Beside.replaceable (beside : Beside writer engine doors door rest store alone)
    {scope : Scope} {item : Item} (listed : item ∈ engine.ranking scope alone)
    (missing : item ∉ engine.ranking scope store) :
    Replaceable writer doors door alone item.place := by
  rcases beside.same item.place with same | ⟨replaceable, _⟩
  · rw [engine.mem_ranking, ← same, ← engine.mem_ranking] at listed
    exact absurd listed missing
  · exact replaceable

/-- What a write of the door is marked for is the same on both sides. -/
theorem Beside.firstMark_eq (ranks : RanksRows engine)
    (beside : Beside writer engine doors door rest store alone)
    (settled : MarkSettled (Replaceable writer doors door alone)
      (declarersOf engine payload alone)) :
    firstMark (declarersOf engine payload store) =
      firstMark (declarersOf engine payload alone) := by
  have within (item : Item) (declares : declaring payload.naturalKey item = true)
      (listed : item ∈ engine.ranking (listing (recordNamespace payload)) store) :
      item ∈ engine.ranking (listing (recordNamespace payload)) alone := by
    refine beside.mem_ranking (fun isForeign => ?_) listed
    rw [declaring, isForeign.declares] at declares
    cases declares
  obtain ⟨keep, kept, gone⟩ := exists_filter_ranking ranks within
  rw [declarersOf, kept]
  refine settled.firstMark_filter fun row member dropped => ?_
  exact beside.replaceable (List.mem_of_mem_filter member) (gone row dropped)

/-- What a partition of a search of the door comes to is the same on both sides. -/
theorem Beside.partitionAnswer_eq (ranks : RanksRows engine) (apart : DoorsApart doors)
    (member : door ∈ doors) (beside : Beside writer engine doors door rest store alone)
    (settled : SearchSettled writer engine doors door request alone) {validated : SearchRequest}
    (runs : door.searchRequest? request = some validated) {payloadType : Option String}
    (partition : payloadType ∈ partitions validated) :
    partitionAnswer writer.runtime validated payloadType
        (engine.ranking (partitionScope validated payloadType) store) =
      partitionAnswer writer.runtime validated payloadType
        (engine.ranking (partitionScope validated payloadType) alone) := by
  have serves := project_of_searchRequest? runs
  have within (item : Item)
      (listed : item ∈ engine.ranking (partitionScope validated payloadType) store) :
      item ∈ engine.ranking (partitionScope validated payloadType) alone := by
    refine beside.mem_ranking (fun isForeign => ?_) listed
    have selected := ((engine.mem_ranking _ _ _).mp listed).2.1
    rw [isForeign.not_selected ranks serves] at selected
    cases selected
  obtain ⟨keep, kept, gone⟩ := @exists_filter_ranking engine ranks _ _ _ (fun _ => true)
    fun item _ => within item
  rw [List.filter_true, List.filter_true] at kept
  rw [kept]
  exact (settled validated runs payloadType partition).partitionAnswer_filter
    (fun row _ replaceable => passes_of_replaceable apart member serves payloadType replaceable)
    fun row listed dropped => beside.replaceable listed (gone row dropped)

/-- The store of the door alone has no record at a place the other side has none. -/
theorem Beside.fits_alone (beside : Beside writer engine doors door rest store alone)
    (fits : FitsPages writer store) : FitsPages writer alone := by
  refine (Finset.card_le_card fun place member => ?_).trans_lt fits
  obtain ⟨value, stored⟩ := mem_keys_iff.mp member
  rcases beside.same place with same | ⟨_, replaced, found, _⟩
  · exact mem_keys_iff.mpr ⟨value, same.trans stored⟩
  · exact mem_keys_iff.mpr ⟨replaced, found⟩

/-! ### One request -/

/-- A request of another door leaves a store beside that of the door alone. -/
theorem beside_other (apart : DoorsApart doors) (member : door ∈ doors) (different : other ≠ door)
    (beside : Beside writer engine doors door ((other, request) :: rest) store alone) :
    Beside writer engine doors door rest (serve writer engine other request store).2 alone := by
  obtain ⟨served, ⟨fits, fitsLater⟩, same, searches, writes⟩ := beside
  rw [requestsOf_cons_other different] at searches writes
  have otherMember := served _ List.mem_cons_self
  refine ⟨fun entry later => served entry (List.mem_cons_of_mem _ later), fitsLater,
    fun place => ?_, searches, writes⟩
  rcases @serve_state_cases writer engine other request store fits with
    unchanged | ⟨payload, theirs, accepts, puts, put⟩
  · rw [unchanged]
    exact same place
  · rw [put, lookup_insert]
    split
    · rename_i here
      subst here
      refine Or.inr ⟨?_, _, rfl, foreign_putValue apart member otherMember different theirs store⟩
      -- The place was replaced before, or is now, over the record of the door alone.
      rcases same (writer.recordPlace payload) with unchanged | ⟨replaceable, _⟩
      · exact ⟨other, otherMember, different, request, payload, theirs, accepts,
          by rwa [Puts, ← unchanged], rfl⟩
      · exact replaceable
    · exact same place

/-- An accepted write of the door leaves stores beside each other. -/
theorem lookup_upserted_beside (ranks : RanksRows engine) (apart : DoorsApart doors)
    (member : door ∈ doors)
    (beside : Beside writer engine doors door ((door, request) :: rest) store alone)
    (ours : door.payload? writer request = some payload) (accepts : Accepts payload)
    (place : Place) :
    (writer.upserted engine payload none store).lookup place =
        (writer.upserted engine payload none alone).lookup place ∨
      Replaceable writer doors door (writer.upserted engine payload none alone) place ∧
        ∃ value, (writer.upserted engine payload none store).lookup place = some value ∧
          Foreign door value := by
  have own := @not_replaceable_recordPlace writer doors door request payload alone apart member ours
  have stored := beside.lookup_eq own
  have puts : writer.Puts payload store ↔ writer.Puts payload alone := by rw [Puts, Puts, stored]
  have settled := beside.writes
  rw [requestsOf_cons_own] at settled
  rw [lookup_upserted, lookup_upserted]
  by_cases here : writer.Puts payload alone ∧ place = writer.recordPlace payload
  · left
    rw [if_pos ⟨puts.mpr here.1, here.2⟩, if_pos here, putValue_eq_elim, putValue_eq_elim,
      beside.firstMark_eq ranks (settled.1 payload ours accepts here.1), nextVersion, nextVersion,
      stored]
  · rw [if_neg fun both => here ⟨puts.mp both.1, both.2⟩, if_neg here]
    refine (beside.same place).imp_right fun replaced => ⟨replaced.1.congr ?_, replaced.2⟩
    rw [lookup_upserted, if_neg here]

/-- A request of the door is answered alike over stores beside each other, and leaves them so. -/
theorem beside_own (ranks : RanksRows engine) (apart : DoorsApart doors) (member : door ∈ doors)
    (beside : Beside writer engine doors door ((door, request) :: rest) store alone) :
    (serve writer engine door request store).1 = (serve writer engine door request alone).1 ∧
      Beside writer engine doors door rest (serve writer engine door request store).2
        (serve writer engine door request alone).2 := by
  have fits := beside.fits.1
  have searches := beside.searches
  have writes := beside.writes
  rw [requestsOf_cons_own] at searches writes
  suffices kept : (serve writer engine door request store).1 =
        (serve writer engine door request alone).1 ∧
      ∀ place, (serve writer engine door request store).2.lookup place =
          (serve writer engine door request alone).2.lookup place ∨
        Replaceable writer doors door (serve writer engine door request alone).2 place ∧
          ∃ value, (serve writer engine door request store).2.lookup place = some value ∧
            Foreign door value by
    exact ⟨kept.1, fun entry later => beside.served entry (List.mem_cons_of_mem _ later),
      beside.fits.2, kept.2, searches.2, writes.2⟩
  by_cases reads : ∀ payloadDict, request ≠ .write payloadDict
  · rw [serve_read_state reads, serve_read_state reads]
    refine ⟨serve_read_eq reads fun validated runs payloadType partition => ?_, beside.same⟩
    exact beside.partitionAnswer_eq ranks apart member searches.1 runs partition
  · simp only [ne_eq, not_forall, not_not] at reads
    obtain ⟨payloadDict, rfl⟩ := reads
    cases checked : checkedPayload writer.runtime payloadDict true (some door.projects) with
    | error error =>
      rw [serve_write_refused checked, serve_write_refused checked]
      exact ⟨rfl, beside.same⟩
    | ok payload =>
      have ours : door.payload? writer (.write payloadDict) = some payload :=
        toOption_eq_some.mpr checked
      by_cases accepts : Accepts payload
      · rw [serve_of_accepts fits ours accepts,
          serve_of_accepts (beside.fits_alone fits) ours accepts]
        exact ⟨rfl, lookup_upserted_beside ranks apart member beside ours accepts⟩
      · obtain ⟨error, refused⟩ := serve_write_of_not_accepts checked accepts
        rw [refused, refused]
        exact ⟨rfl, beside.same⟩

/-- A door is shielded from the others. -/
theorem shields_beside (ranks : RanksRows engine) (apart : DoorsApart doors)
    (member : door ∈ doors) :
    Shields (serve writer engine) door (Beside writer engine doors door) where
  other _ _ _ _ _ different beside := beside_other apart member different beside
  own _ _ _ _ beside := beside_own ranks apart member beside

/-- A door whose requests are settled is isolated. -/
theorem doorIsolated_of_settled (ranks : RanksRows engine) (apart : DoorsApart doors)
    (member : door ∈ doors) {requests : List DoorRequest}
    (searches : AlongAlone writer engine door (SearchSettled writer engine doors door) requests
      start)
    (writes : AlongAlone writer engine door (WriteSettled writer engine doors door) requests
      start) :
    DoorIsolated writer engine doors door requests start := by
  intro first second firstServed secondServed firstOwn secondOwn firstFits secondFits
  have beside {entries : List (SandboxDoor × DoorRequest)}
      (served : ∀ entry ∈ entries, entry.1 ∈ doors) (own : requestsOf door entries = requests)
      (fits : FitsPagesThroughout writer engine entries start) :
      Beside writer engine doors door entries start start :=
    ⟨served, fits, fun _ => Or.inl rfl, by rwa [own], by rwa [own]⟩
  obtain ⟨answers, alone, firstEnd, secondEnd⟩ := run_same (shields_beside ranks apart member)
    (firstOwn.trans secondOwn.symm) (beside firstServed firstOwn firstFits)
    (beside secondServed secondOwn secondFits)
  refine ⟨answers, fun place project stands serves => ?_⟩
  have own : ¬Replaceable writer doors door alone place := fun replaceable =>
    replaceable.project_not_mem apart member stands serves
  rw [firstEnd.lookup_eq own, secondEnd.lookup_eq own]

/-! ### What the other doors can do -/

/-- The records at the places are replaced by foreign ones, and nothing else is changed. -/
structure Replaced (door : SandboxDoor) (places : List Place) (store after : Store) : Prop where
  keys : after.keys = store.keys
  others : ∀ place, place ∉ places → after.lookup place = store.lookup place
  replaced : ∀ place ∈ places, ∃ value, after.lookup place = some value ∧ Foreign door value

theorem keys_insert_of_mem {place : Place} {value : StoredValue} (stored : place ∈ store.keys) :
    (store.insert place value).keys = store.keys := by
  ext other
  rw [mem_keys_iff, mem_keys_iff, lookup_insert]
  split
  · rename_i here
    subst here
    exact iff_of_true ⟨value, rfl⟩ (mem_keys_iff.mp stored)
  · rfl

/-- The other doors can replace all the records they can write new ones for. -/
theorem exists_replacements (engine : SearchEngine) (apart : DoorsApart doors)
    (member : door ∈ doors) {places : List Place} (nodup : places.Nodup)
    (fits : FitsPages writer store) (stored : ∀ place ∈ places, place ∈ store.keys)
    (replaceable : ∀ place ∈ places, Replaceable writer doors door store place) :
    ∃ entries : List (SandboxDoor × DoorRequest),
      (∀ entry ∈ entries, entry.1 ∈ doors ∧ entry.1 ≠ door) ∧
        FitsPagesThroughout writer engine entries store ∧
          Replaced door places store (run (serve writer engine) entries store).2 := by
  induction places generalizing store with
  | nil => exact ⟨[], by simp, trivial, rfl, fun _ _ => rfl, by simp⟩
  | cons place rest inductionHypothesis =>
    obtain ⟨fresh, nodupRest⟩ := List.nodup_cons.mp nodup
    obtain ⟨other, otherMember, different, request, payload, theirs, accepts, puts, here⟩ :=
      replaceable place List.mem_cons_self
    have put : (serve writer engine other request store).2 =
        store.insert place (writer.putValue engine payload none store) := by
      rw [serve_of_accepts fits theirs accepts, upserted, if_pos puts, here]
    have keys := @keys_insert_of_mem store place (writer.putValue engine payload none store)
      (stored place List.mem_cons_self)
    have elsewhere {later : Place} (inRest : later ∈ rest) : later ≠ place := by
      rintro rfl
      exact fresh inRest
    obtain ⟨entries, others, fitsLater, replaced⟩ := @inductionHypothesis
      (store.insert place (writer.putValue engine payload none store)) nodupRest
      (by rwa [FitsPages, keys])
      (fun later inRest => by
        rw [keys]
        exact stored later (List.mem_cons_of_mem _ inRest))
      (fun later inRest => (replaceable later (List.mem_cons_of_mem _ inRest)).congr
        (lookup_insert_other (elsewhere inRest)).symm)
    refine ⟨(other, request) :: entries, ?_, ⟨fits, ?_⟩, ?_⟩
    · rintro entry (_ | ⟨_, later⟩)
      · exact ⟨otherMember, different⟩
      · exact others entry later
    · rwa [leaves, put]
    · show Replaced door (place :: rest) store
        (run (serve writer engine) entries (serve writer engine other request store).2).2
      rw [put]
      refine ⟨replaced.keys.trans keys, fun later missing => ?_, fun later listed => ?_⟩
      · rw [List.mem_cons, not_or] at missing
        rw [replaced.others later missing.2, lookup_insert_other missing.1]
      · rcases List.mem_cons.mp listed with rfl | inRest
        · exact ⟨_, (replaced.others later fresh).trans lookup_insert_self,
            foreign_putValue apart member otherMember different theirs store⟩
        · exact replaced.replaced later inRest

theorem nodup_declarersOf :
    ((declarersOf engine payload store).map Item.place).Nodup :=
  (engine.ranking_nodup _ store).sublist (List.filter_sublist.map Item.place)

/-- The other doors can replace leading declarers that they can write new records for. -/
theorem exists_droppings (apart : DoorsApart doors) (member : door ∈ doors)
    (fits : FitsPages writer store) {dropped rest : List Item}
    (split : declarersOf engine payload store = dropped ++ rest)
    (gone : ∀ row ∈ dropped, Replaceable writer doors door store row.place) :
    ∃ entries : List (SandboxDoor × DoorRequest),
      (∀ entry ∈ entries, entry.1 ∈ doors ∧ entry.1 ≠ door) ∧
        FitsPagesThroughout writer engine entries store ∧
          Replaced door (dropped.map Item.place) store
            (run (serve writer engine) entries store).2 := by
  have nodup := @nodup_declarersOf engine payload store
  rw [split, List.map_append] at nodup
  refine exists_replacements engine apart member nodup.of_append_left fits (fun place inside => ?_)
    fun place inside => ?_
  · obtain ⟨row, inDropped, rfl⟩ := List.mem_map.mp inside
    have declarer : row ∈ declarersOf engine payload store := by
      rw [split]
      exact List.mem_append_left _ inDropped
    exact mem_keys_iff.mpr
      ⟨_, ((engine.mem_ranking _ _ _).mp (List.mem_of_mem_filter declarer)).1⟩
  · obtain ⟨row, inDropped, rfl⟩ := List.mem_map.mp inside
    exact gone row inDropped

/-- When leading declarers are replaced, the others are the declarers that are left. -/
theorem declarersOf_replaced (ranks : RanksRows engine) {after : Store} {dropped rest : List Item}
    (split : declarersOf engine payload store = dropped ++ rest)
    (replaced : Replaced door (dropped.map Item.place) store after) :
    declarersOf engine payload after = rest := by
  have nodup := @nodup_declarersOf engine payload store
  rw [split, List.map_append, List.nodup_append] at nodup
  have filtered := @filter_ranking_eq engine ranks (listing (recordNamespace payload)) after store
    (fun item => decide (item.place ∉ dropped.map Item.place) && declaring payload.naturalKey item)
    fun item kept => by
      have outside := of_decide_eq_true (Bool.and_eq_true_iff.mp kept).1
      rw [engine.mem_ranking, engine.mem_ranking, replaced.others item.place outside]
  rw [← List.filter_filter, ← List.filter_filter] at filtered
  have here : (declarersOf engine payload after).filter
      (fun item => decide (item.place ∉ dropped.map Item.place)) =
        declarersOf engine payload after := by
    refine List.filter_eq_self.mpr fun item listed => decide_eq_true fun inside => ?_
    obtain ⟨ranked, declares⟩ := List.mem_filter.mp listed
    obtain ⟨value, found, isForeign⟩ := replaced.replaced item.place inside
    obtain rfl := Option.some.inj (((engine.mem_ranking _ _ _).mp ranked).1.symm.trans found)
    rw [declaring, isForeign.declares] at declares
    cases declares
  have there : (declarersOf engine payload store).filter
      (fun item => decide (item.place ∉ dropped.map Item.place)) = rest := by
    rw [split, List.filter_append, List.filter_eq_nil_iff.mpr, List.nil_append,
      List.filter_eq_self.mpr]
    · exact fun item listed => decide_eq_true fun inside =>
        nodup.2.2 _ inside _ (List.mem_map_of_mem listed) rfl
    · intro item listed missing
      exact of_decide_eq_true missing (List.mem_map_of_mem listed)
  exact here.symm.trans (filtered.trans there)

/-- A write that is isolated is settled. -/
theorem writeSettled_of_isolated (ranks : RanksRows engine) (apart : DoorsApart doors)
    (member : door ∈ doors) (fits : FitsPages writer store)
    (isolated : DoorIsolated writer engine doors door [request] store) :
    WriteSettled writer engine doors door request store := by
  intro payload ours accepts puts dropped rest split gone
  obtain ⟨entries, others, fitsEntries, replaced⟩ := exists_droppings apart member fits split gone
  have left := declarersOf_replaced ranks split replaced
  have kept : (run (serve writer engine) entries store).2.lookup (writer.recordPlace payload) =
      store.lookup (writer.recordPlace payload) := by
    refine replaced.others _ fun inside => ?_
    obtain ⟨row, inDropped, here⟩ := List.mem_map.mp inside
    exact not_replaceable_recordPlace apart member ours (here ▸ gone row inDropped)
  have fitsAfter : FitsPages writer (run (serve writer engine) entries store).2 := by
    rwa [FitsPages, replaced.keys]
  -- The write alone, and after the other doors have replaced the leading declarers.
  obtain ⟨_, records⟩ := isolated [(door, request)] (entries ++ [(door, request)])
    (by simpa using member)
    (fun entry inside => by
      rcases List.mem_append.mp inside with earlier | last
      · exact (others entry earlier).1
      · obtain rfl := List.mem_singleton.mp last
        exact member)
    (by simp [requestsOf_cons_own])
    (by
      rw [requestsOf_others fun entry inside => (others entry inside).2]
      simp [requestsOf_cons_own])
    ⟨fits, trivial⟩
    (by
      rw [FitsPagesThroughout, along_append, ← run_state]
      exact ⟨fitsEntries, fitsAfter, trivial⟩)
  have same := records (writer.recordPlace payload) payload.project rfl (payload?_eq_some ours).2
  rw [run_append] at same
  generalize (run (serve writer engine) entries store).2 = after at left kept fitsAfter same
  have putsAfter : writer.Puts payload after := by rwa [Puts, kept]
  change (serve writer engine door request store).2.lookup _ =
    (serve writer engine door request after).2.lookup _ at same
  rw [serve_of_accepts fits ours accepts, serve_of_accepts fitsAfter ours accepts,
    lookup_upserted, lookup_upserted, if_pos ⟨puts, rfl⟩, if_pos ⟨putsAfter, rfl⟩,
    putValue_eq_elim, putValue_eq_elim, nextVersion, nextVersion, kept, left] at same
  exact (elim_markedBy_inj rfl (Option.some.inj same)).symm

/-- What is isolated with a request first is so from the store the request leaves. -/
theorem DoorIsolated.tail {requests : List DoorRequest} (member : door ∈ doors)
    (fits : FitsPages writer store)
    (isolated : DoorIsolated writer engine doors door (request :: requests) store) :
    DoorIsolated writer engine doors door requests (serve writer engine door request store).2 := by
  intro first second firstServed secondServed firstOwn secondOwn firstFits secondFits
  have served {entries : List (SandboxDoor × DoorRequest)}
      (rest : ∀ entry ∈ entries, entry.1 ∈ doors) :
      ∀ entry ∈ (door, request) :: entries, entry.1 ∈ doors := by
    rintro entry (_ | ⟨_, later⟩)
    · exact member
    · exact rest entry later
  obtain ⟨answers, records⟩ := isolated ((door, request) :: first) ((door, request) :: second)
    (served firstServed) (served secondServed) (by rw [requestsOf_cons_own, firstOwn])
    (by rw [requestsOf_cons_own, secondOwn]) ⟨fits, firstFits⟩ ⟨fits, secondFits⟩
  refine ⟨?_, records⟩
  simp only [run, entriesOf, decide_true, List.filter_cons_of_pos] at answers
  exact (List.cons.inj answers).2

/-- A door that is isolated however many of its requests are served makes settled writes. -/
theorem writesSettled_of_isolated (ranks : RanksRows engine) (apart : DoorsApart doors)
    (member : door ∈ doors) {requests : List DoorRequest}
    (room : store.keys.card + requests.length < forwardPage * writer.pages)
    (isolated : ∀ served, served <+: requests →
      DoorIsolated writer engine doors door served store) :
    AlongAlone writer engine door (WriteSettled writer engine doors door) requests store := by
  induction requests generalizing store with
  | nil => trivial
  | cons request rest inductionHypothesis =>
    rw [List.length_cons] at room
    have fits : FitsPages writer store := (Nat.le_add_right _ _).trans_lt room
    have roomLater : (serve writer engine door request store).2.keys.card + rest.length <
        forwardPage * writer.pages := by
      have grown := @card_keys_serve writer engine door request store fits
      omega
    refine ⟨writeSettled_of_isolated ranks apart member fits
      (isolated [request] (by simp)), inductionHypothesis roomLater fun served within => ?_⟩
    exact (isolated (request :: served)
      (List.cons_prefix_cons.mpr ⟨rfl, within⟩)).tail member fits

end

/-! ### Two runs -/

/-- Where the searches of a door are settled, any two runs of a setting's doors with the same first
requests of this door answer them alike, and leave the same under its projects, exactly when the
writes among its requests are settled too, in the run of these requests alone. -/
theorem door_undisturbed (writer : DeterministicWriter) (engine : SearchEngine)
    (setting : String) (mainPort : Int) (doors : List SandboxDoor) (door : SandboxDoor)
    (requests : List DoorRequest) (start : Store) (ranks : RanksRows engine)
    (parsed : parseSandboxDoors writer.runtime setting mainPort = .ok doors)
    (member : door ∈ doors)
    (room : start.keys.card + requests.length < forwardPage * writer.pages)
    (searches : AlongAlone writer engine door (SearchSettled writer engine doors door) requests
      start) :
    (∀ served, served <+: requests → DoorIsolated writer engine doors door served start) ↔
      AlongAlone writer engine door (WriteSettled writer engine doors door) requests start := by
  have apart := doorsApart_parseSandboxDoors parsed
  constructor
  · exact writesSettled_of_isolated ranks apart member room
  · intro writes served within
    exact doorIsolated_of_settled ranks apart member (searches.of_prefix within)
      (writes.of_prefix within)

/-! ### Two doors whose projects match each other's listings -/

section Sample

/-- The functions on the keys and contents of the sample build outcomes. -/
def doorRuntime : Runtime :=
  .ofTables
    [("build_outcome:a_b:T1", "ed9e555b-e872-5413-b877-1d430ddf53c1"),
      ("build_outcome:a_b:R", "b541a45c-c5a3-5352-9b1e-beebde4d9263"),
      ("build_outcome:axb:S", "850548a2-6fae-5c4d-8494-898a54111c10")]
    [(dump "T1" "a_b" "", "26086aa16a7a06f4c5fdc1a18608afcdeca948a64cfe8fe8b7e4d3e9a7dd6d3f"),
      (dump "R" "a_b" "\"build_outcome:a_b:T1\"",
        "afeff574bfafba934a9498849b229bc3d57f8cbe4d759c6cd2c344e78669da2c"),
      (dump "S" "axb" "", "793b4ba6c7259fffdce72ac8de7f5cc4a0368903b804ca2516887dd81521d478"),
      (dump "S" "axb" "\"build_outcome:a_b:T1\"",
        "c4e2a5b2617740a27e67da228911ff83f1d79dc5625ccecd6cd2c2baeb373e2e")] []
where
  dump (identifier project supersedes : String) : String :=
    "\x7b\"approach\":null,\"domain_tags\":[],\"duration_seconds\":1,\"identifier\":\"" ++
      identifier ++ "\",\"lessons\":null,\"natural_key\":\"build_outcome:" ++ project ++ ":" ++
      identifier ++ "\",\"project\":\"" ++ project ++ "\",\"source_ref\":\"s\"," ++
      "\"status\":\"ok\",\"supersedes\":[" ++ supersedes ++ "],\"task_id\":null\x7d"

def doorWriter : DeterministicWriter where
  runtime := doorRuntime
  pages := 1

def outcomeDict (project identifier : String) : PyDict :=
  [("payload_type", .str "build_outcome"), ("project", .str project),
    ("identifier", .str identifier), ("source_ref", .str "s"), ("status", .str "ok"),
    ("duration_seconds", .int 1)]

/-- A request to write a build outcome that supersedes nothing. -/
def outcomeRequest (project identifier : String) : DoorRequest :=
  .write (outcomeDict project identifier)

/-- The two doors. -/
def doorOfA : SandboxDoor := ⟨8006, ["a_b"]⟩

def doorOfX : SandboxDoor := ⟨8007, ["axb"]⟩

theorem parse_sampleDoors :
    parseSandboxDoors doorRuntime "8006:a_b,8007:axb" 8000 = .ok [doorOfA, doorOfX] :=
  toOption_eq_some.mp (by decide +kernel)

/-- The fields of a build outcome that declares door `a_b`'s superseded. -/
def declaringFields (project identifier : String) : PayloadFields where
  payloadType := "build_outcome"
  project := project
  identifier := identifier
  domainTags := []
  sourceRef := "s"
  version := 1
  supersedes := ["build_outcome:a_b:T1"]
  own := [("status", .str "ok"), ("duration_seconds", .int 1), ("task_id", .none),
    ("lessons", .none), ("approach", .none)]

/-- Such a build outcome of the other door's project, as the main server writes it. -/
def declaringOutcome : Payload where
  toPayloadFields := declaringFields "axb" "S"
  valid := ⟨by decide, by decide, by decide, by decide, by decide, by decide⟩

/-- Such a build outcome of the door's own project. -/
def ownDeclaringOutcome : Payload where
  toPayloadFields := declaringFields "a_b" "R"
  valid := ⟨by decide, by decide, by decide, by decide, by decide, by decide⟩

/-- The payload a sample request writes, by its digest. -/
theorem payload?_sample (door : SandboxDoor) (project identifier digest : String)
    (built : ((door.payload? doorWriter (outcomeRequest project identifier)).map fun payload =>
        (recordNamespace payload, payload.naturalKey, contentHash doorRuntime payload)) =
          some (["fleet_memory", project, "build_outcome"],
            "build_outcome:" ++ project ++ ":" ++ identifier, digest))
    (valid : validPart project = true) :
    ∃ payload, door.payload? doorWriter (outcomeRequest project identifier) = some payload ∧
      Accepts payload ∧ recordNamespace payload = ["fleet_memory", project, "build_outcome"] ∧
      payload.naturalKey = "build_outcome:" ++ project ++ ":" ++ identifier ∧
      contentHash doorRuntime payload = digest := by
  obtain ⟨payload, writes, same⟩ := Option.map_eq_some_iff.mp built
  simp only [Prod.mk.injEq] at same
  obtain ⟨inNamespace, key, hash⟩ := same
  refine ⟨payload, writes, ⟨?_, ?_⟩, inNamespace, key, hash⟩
  · rw [(checkedPayload_eq_ok (toOption_eq_some.mp writes)).1]
    decide
  · rw [inNamespace]
    simpa [valid] using (show validPart "fleet_memory" = true ∧ validPart "build_outcome" = true
      by decide)

/-- Door `a_b` writes its build outcome. -/
theorem exists_outcome : ∃ payload,
    doorOfA.payload? doorWriter (outcomeRequest "a_b" "T1") = some payload ∧ Accepts payload ∧
      recordNamespace payload = ["fleet_memory", "a_b", "build_outcome"] ∧
      payload.naturalKey = "build_outcome:a_b:T1" := by
  obtain ⟨payload, writes, accepts, inNamespace, key, _⟩ := payload?_sample doorOfA "a_b" "T1"
    "26086aa16a7a06f4c5fdc1a18608afcdeca948a64cfe8fe8b7e4d3e9a7dd6d3f" (by decide +kernel)
    (by decide)
  exact ⟨payload, writes, accepts, inNamespace, by rw [key]; decide⟩

/-- Door `axb` writes a new record over the one that declares. -/
theorem exists_update : ∃ payload,
    doorOfX.payload? doorWriter (outcomeRequest "axb" "S") = some payload ∧ Accepts payload ∧
      doorWriter.recordPlace payload = doorWriter.recordPlace declaringOutcome ∧
      contentHash doorRuntime declaringOutcome ≠ contentHash doorRuntime payload := by
  obtain ⟨payload, writes, accepts, inNamespace, key, hash⟩ := payload?_sample doorOfX "axb" "S"
    "793b4ba6c7259fffdce72ac8de7f5cc4a0368903b804ca2516887dd81521d478" (by decide +kernel)
    (by decide)
  refine ⟨payload, writes, accepts, ?_, ?_⟩
  · rw [recordPlace, inNamespace, key]
    decide
  · rw [hash]
    decide +kernel

/-- The listing of `a_b` holds the records of `axb`. -/
theorem selects_declaring (value : StoredValue) :
    sampleEngine.selects (listing ["fleet_memory", "a_b", "build_outcome"])
      (doorWriter.recordPlace declaringOutcome) value = true := by
  have bleeds : PrefixEngine.extendsPrefix ["fleet_memory", "a_b", "build_outcome"]
      ["fleet_memory", "axb", "build_outcome"] = true := by decide +kernel
  exact Bool.and_eq_true_iff.mpr ⟨bleeds, rfl⟩

/-- The other door can replace the record that declares. -/
theorem replaceable_declaring {store : Store} {value : StoredValue}
    (stored : store.lookup (doorWriter.recordPlace declaringOutcome) = some value)
    (same : value.contentHash = some (contentHash doorRuntime declaringOutcome)) :
    Replaceable doorWriter [doorOfA, doorOfX] doorOfA store
      (doorWriter.recordPlace declaringOutcome) := by
  obtain ⟨payload, writes, accepts, here, differs⟩ := exists_update
  refine ⟨doorOfX, by decide, by decide, _, payload, writes, accepts, ?_, here.symm⟩
  rw [Puts, here, stored, Option.bind_some, same]
  exact fun equal => differs (Option.some.inj equal)

/-- The store in which both projects hold a record that declares. -/
def declaringStore : Store :=
  doorWriter.written sampleEngine declaringOutcome none
    (doorWriter.written sampleEngine ownDeclaringOutcome none ∅)

theorem apart_declaring :
    doorWriter.recordPlace declaringOutcome ≠ doorWriter.recordPlace ownDeclaringOutcome := by
  decide +kernel

/-- The record of the other door's project declares. -/
theorem lookup_declaring : ∃ value,
    declaringStore.lookup (doorWriter.recordPlace declaringOutcome) = some value ∧
      value.declares "build_outcome:a_b:T1" = true ∧
      value.contentHash = some (contentHash doorRuntime declaringOutcome) := by
  obtain ⟨value, stored, declares⟩ := @declares_of_puts doorWriter sampleEngine declaringOutcome
    none _ (puts_of_written_empty apart_declaring)
  obtain ⟨again, found, same⟩ := @lookup_written_self doorWriter sampleEngine declaringOutcome none
    (doorWriter.written sampleEngine ownDeclaringOutcome none ∅)
  obtain rfl := Option.some.inj (stored.symm.trans found)
  exact ⟨value, stored, by rw [declares]; decide, same⟩

/-- So does the record of the door's own project. -/
theorem lookup_ownDeclaring : ∃ value,
    declaringStore.lookup (doorWriter.recordPlace ownDeclaringOutcome) = some value ∧
      value.declares "build_outcome:a_b:T1" = true := by
  obtain ⟨value, stored, declares⟩ := @declares_of_puts doorWriter sampleEngine ownDeclaringOutcome
    none ∅ (puts_empty _ _)
  obtain ⟨kept, found, same⟩ := @declares_written doorWriter sampleEngine declaringOutcome none _ _
    _ apart_declaring.symm stored
  exact ⟨kept, found, by rw [same, declares]; decide⟩

/-- No other record is stored. -/
theorem place_of_declaringStore {place : Place} {value : StoredValue}
    (stored : declaringStore.lookup place = some value) :
    place = doorWriter.recordPlace ownDeclaringOutcome ∨
      place = doorWriter.recordPlace declaringOutcome := by
  obtain ⟨source, found, _⟩ := lookup_markAll_cases stored
  rcases lookup_upserted_cases found with ⟨_, here, _⟩ | kept
  · exact Or.inr here
  · exact Or.inl (place_of_written_empty kept)

theorem card_declaringStore : declaringStore.keys.card ≤ 2 :=
  card_keys_written.trans (Nat.succ_le_succ card_keys_written)

/-- The listing holds the record of the door's own project first. -/
theorem head_declarersOf {payload : Payload}
    (inNamespace : recordNamespace payload = ["fleet_memory", "a_b", "build_outcome"])
    (key : payload.naturalKey = "build_outcome:a_b:T1") :
    ∃ first rest, declarersOf sampleEngine payload declaringStore = first :: rest ∧
      first.place = doorWriter.recordPlace ownDeclaringOutcome := by
  obtain ⟨value, stored, declares⟩ := lookup_ownDeclaring
  obtain ⟨own, ranked, here, same⟩ := exists_mem_ranking stored
    (sampleEngine.selects_own (doorWriter.recordPlace ownDeclaringOutcome) value (by decide))
  have listed : own ∈ declarersOf sampleEngine payload declaringStore := by
    refine List.mem_filter.mpr ⟨by rw [inNamespace]; exact ranked, ?_⟩
    rw [declaring, key, same, declares]
  have ordered := (pairwise_ranking_prefixEngine (fun _ _ _ => none)
    (listing (recordNamespace payload)) declaringStore).filter (declaring payload.naturalKey)
  change (declarersOf sampleEngine payload declaringStore).Pairwise _ at ordered
  have within (item : Item) (inside : item ∈ declarersOf sampleEngine payload declaringStore) :=
    place_of_declaringStore ((sampleEngine.mem_ranking _ _ _).mp (List.mem_of_mem_filter inside)).1
  cases declarers : declarersOf sampleEngine payload declaringStore with
  | nil =>
    rw [declarers] at listed
    cases listed
  | cons first rest =>
    rw [declarers] at listed ordered within
    refine ⟨first, rest, rfl, (within first List.mem_cons_self).resolve_right fun other => ?_⟩
    have later : own ∈ rest := by
      refine (List.mem_cons.mp listed).resolve_left ?_
      rintro rfl
      exact apart_declaring (other.symm.trans here)
    have earlier := (List.pairwise_cons.mp ordered).1 own later
    rw [other, here] at earlier
    exact absurd earlier (by decide +kernel)

/-- Door `a_b` writes and searches beside a record the other door can replace, which its listing
holds behind a record of its own. -/
theorem door_undisturbed_ownDeclarer :
    (∃ place value, declaringStore.lookup place = some value ∧
      sampleEngine.selects (listing ["fleet_memory", "a_b", "build_outcome"]) place value = true ∧
      value.declares "build_outcome:a_b:T1" = true ∧
      Replaceable doorWriter [doorOfA, doorOfX] doorOfA declaringStore place) ∧
    ∀ served, served <+: [outcomeRequest "a_b" "T1",
        .searchItems { project := "a_b", query := some "outcome" } false] →
      DoorIsolated doorWriter sampleEngine [doorOfA, doorOfX] doorOfA served declaringStore := by
  obtain ⟨value, stored, declares, same⟩ := lookup_declaring
  have fits : FitsPages doorWriter declaringStore := card_declaringStore.trans_lt (by decide)
  refine ⟨⟨_, value, stored, selects_declaring value, declares, replaceable_declaring stored same⟩,
    (door_undisturbed doorWriter sampleEngine "8006:a_b,8007:axb" 8000 [doorOfA, doorOfX] doorOfA
      _ declaringStore (ranksRows_prefixEngine _) parse_sampleDoors (by decide)
      ((Nat.add_le_add_right card_declaringStore _).trans_lt (by decide)) ?_).mpr ?_⟩
  · refine ⟨fun validated runs => (by cases runs), fun validated _ payloadType _ => Or.inl ?_,
      trivial⟩
    have grown := @card_keys_serve doorWriter sampleEngine doorOfA (outcomeRequest "a_b" "T1")
      declaringStore fits
    have small := grown.trans (Nat.succ_le_succ card_declaringStore)
    exact ((length_ranking_le _ _ _).trans small).trans (by decide)
  · refine ⟨fun payload writes _ _ => ?_, fun payload writes => (by cases writes), trivial⟩
    obtain ⟨outcome, ours, _, inNamespace, key⟩ := exists_outcome
    obtain rfl := Option.some.inj (ours.symm.trans writes)
    obtain ⟨first, rest, declarers, own⟩ := head_declarersOf inNamespace key
    rw [declarers]
    refine markSettled_of_head fun replaceable => ?_
    rw [own] at replaceable
    exact replaceable.project_not_mem (doorsApart_parseSandboxDoors parse_sampleDoors) (by decide)
      rfl (by decide)

/-- A fresh record of the door stands as it was put. -/
theorem lookup_serve_fresh {payload : Payload} {request : DoorRequest} {store : Store}
    (fits : FitsPages doorWriter store)
    (writes : doorOfA.payload? doorWriter request = some payload) (accepts : Accepts payload)
    (fresh : store.lookup (doorWriter.recordPlace payload) = none) :
    (serve doorWriter sampleEngine doorOfA request store).2.lookup
        (doorWriter.recordPlace payload) =
      some (doorWriter.putValue sampleEngine payload none store) := by
  rw [serve_of_accepts fits writes accepts, lookup_upserted, if_pos ⟨by simp [Puts, fresh], rfl⟩]

/-- The listing of `a_b` holds the record of `axb`, which declares the key. -/
theorem putValue_marked_of_declaring {payload : Payload}
    (inNamespace : recordNamespace payload = ["fleet_memory", "a_b", "build_outcome"])
    (key : payload.naturalKey = "build_outcome:a_b:T1") :
    (doorWriter.putValue sampleEngine payload none
      (doorWriter.written sampleEngine declaringOutcome none ∅)).marked = true := by
  obtain ⟨record, stored, declares⟩ := @declares_of_puts doorWriter sampleEngine declaringOutcome
    none ∅ (puts_empty _ _)
  refine putValue_marked (declarersNamed_written declarersNamed_empty)
    ⟨_, record, stored, by rw [inNamespace]; exact selects_declaring record, ?_⟩
  rw [declares, key]
  decide

/-- The record that declared is replaced by one that does not, and no other is stored. -/
theorem silent_of_update {update : Payload} (replacesNothing : update.supersedes = [])
    (here : doorWriter.recordPlace update = doorWriter.recordPlace declaringOutcome)
    (differs : contentHash doorRuntime declaringOutcome ≠ contentHash doorRuntime update)
    {place : Place} {value : StoredValue}
    (stored : (doorWriter.upserted sampleEngine update none
      (doorWriter.written sampleEngine declaringOutcome none ∅)).lookup place = some value) :
    place = doorWriter.recordPlace declaringOutcome ∧
      ∀ naturalKey, value.declares naturalKey = false := by
  rw [lookup_upserted] at stored
  split at stored
  · rename_i put
    refine ⟨put.2.trans here, fun naturalKey => ?_⟩
    rw [← Option.some.inj stored, putValue_declares, replacesNothing]
    rfl
  · rename_i kept
    refine absurd ⟨?_, (place_of_written_empty stored).trans here.symm⟩ kept
    obtain ⟨value, found, same⟩ := @lookup_written_self doorWriter sampleEngine declaringOutcome
      none ∅
    rw [Puts, here, found, Option.bind_some, same]
    exact fun equal => differs (Option.some.inj equal)

/-- The other door replaces the declaring record before door `a_b` writes: what door `a_b` stores is
marked in the run without that request and not in the run with it. -/
theorem door_disturbed :
    let first := [(doorOfA, outcomeRequest "a_b" "T1")]
    let second := [(doorOfX, outcomeRequest "axb" "S"), (doorOfA, outcomeRequest "a_b" "T1")]
    let start := doorWriter.written sampleEngine declaringOutcome none ∅
    RanksRows sampleEngine ∧
      parseSandboxDoors doorRuntime "8006:a_b,8007:axb" 8000 = .ok [doorOfA, doorOfX] ∧
      entriesOf doorOfA first = entriesOf doorOfA second ∧
      ∃ place, place.namespaceParts[1]? = some "a_b" ∧ "a_b" ∈ doorOfA.projects ∧
        (run (serve doorWriter sampleEngine) first start).2.lookup place ≠
          (run (serve doorWriter sampleEngine) second start).2.lookup place := by
  intro first second start
  obtain ⟨outcome, ours, accepts, inNamespace, key⟩ := exists_outcome
  obtain ⟨update, theirs, acceptsUpdate, here, differs⟩ := exists_update
  have stands : (doorWriter.recordPlace outcome).namespaceParts[1]? = some "a_b" := by
    rw [recordPlace, inNamespace]
    rfl
  have apart : doorWriter.recordPlace outcome ≠ doorWriter.recordPlace declaringOutcome := by
    intro same
    rw [same] at stands
    exact absurd stands (by decide)
  have fits : FitsPages doorWriter start :=
    (show start.keys.card ≤ 1 from card_keys_written).trans_lt (by decide)
  have fresh : start.lookup (doorWriter.recordPlace outcome) = none :=
    Option.eq_none_iff_forall_ne_some.mpr fun value stored => apart (place_of_written_empty stored)
  -- In the second run the record that declares is replaced before the write looks for it.
  obtain ⟨middle, between⟩ : ∃ middle,
      middle = doorWriter.upserted sampleEngine update none start := ⟨_, rfl⟩
  have silent {place : Place} {value : StoredValue} (stored : middle.lookup place = some value) :
      place = doorWriter.recordPlace declaringOutcome ∧
        ∀ naturalKey, value.declares naturalKey = false :=
    silent_of_update (payload?_eq_some theirs).1 here differs (between ▸ stored)
  have fitsMiddle : FitsPages doorWriter middle := by
    rw [between]
    exact (card_keys_upserted.trans (Nat.succ_le_succ card_keys_written)).trans_lt (by decide)
  have freshMiddle : middle.lookup (doorWriter.recordPlace outcome) = none :=
    Option.eq_none_iff_forall_ne_some.mpr fun value stored => apart (silent stored).1
  have unmarked : (doorWriter.putValue sampleEngine outcome none middle).marked = false := by
    rw [putValue, successorOf_eq_none fun place value stored _ => (silent stored).2 _]
    rfl
  refine ⟨ranksRows_prefixEngine _, parse_sampleDoors, rfl, doorWriter.recordPlace outcome, stands,
    by decide, fun same => ?_⟩
  change (serve doorWriter sampleEngine doorOfA (outcomeRequest "a_b" "T1") start).2.lookup _ =
    (serve doorWriter sampleEngine doorOfA (outcomeRequest "a_b" "T1")
      (serve doorWriter sampleEngine doorOfX (outcomeRequest "axb" "S") start).2).2.lookup _ at same
  rw [serve_of_accepts fits theirs acceptsUpdate, ← between,
    lookup_serve_fresh fits ours accepts fresh,
    lookup_serve_fresh fitsMiddle ours accepts freshMiddle] at same
  have marked := putValue_marked_of_declaring inNamespace key
  rw [show doorWriter.putValue sampleEngine outcome none
      (doorWriter.written sampleEngine declaringOutcome none ∅) = _ from Option.some.inj same,
    unmarked] at marked
  cases marked

end Sample

end FleetMemory
