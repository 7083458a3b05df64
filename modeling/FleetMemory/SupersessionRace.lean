/-
This file proves what two writes that take turns leave, one of a record and one of its
successor. The predecessor ends marked in every order of their calls but one: its lookup
begins before the successor's record is put, its own record is put after the successor has
looked for it, and the successor does not mark it afterwards.
-/

import FleetMemory.ConcurrentWrites
import FleetMemory.SupersessionInvariant

namespace FleetMemory

open StoreProgram Transitions DeterministicWriter

/-! ### Listings -/

/-- A listing keeps the order of its rows as records are added and replaced. -/
def FixedOrder (engine : SearchEngine) : Prop :=
  ∀ namespaceParts (first second : Store), first.keys ⊆ second.keys →
    ((engine.ranking (listing namespaceParts) first).map Item.place).Sublist
      ((engine.ranking (listing namespaceParts) second).map Item.place)

/-- In a longer list without duplicates an element stands no earlier. -/
theorem mem_take_of_sublist {α : Type} {shorter longer : List α} (sublist : shorter.Sublist longer)
    (nodup : longer.Nodup) {element : α} (member : element ∈ shorter) {count : Nat}
    (early : element ∈ longer.take count) : element ∈ shorter.take count := by
  induction sublist generalizing count with
  | slnil => cases member
  | @cons shorter longer head rest inductionHypothesis =>
    cases count with
    | zero => simp at early
    | succ count =>
      rw [List.take_succ_cons, List.mem_cons] at early
      have later : element ∈ longer.take count :=
        early.resolve_left fun same => (List.nodup_cons.mp nodup).1 (same ▸ rest.subset member)
      exact List.take_subset_take_left _ (Nat.le_succ count)
        (inductionHypothesis (List.nodup_cons.mp nodup).2 member later)
  | @cons_cons shorter longer head rest inductionHypothesis =>
    cases count with
    | zero => simp at early
    | succ count =>
      rw [List.take_succ_cons, List.mem_cons] at early ⊢
      rcases early with same | later
      · exact Or.inl same
      · rcases List.mem_cons.mp member with same | inside
        · exact Or.inl same
        · exact Or.inr (inductionHypothesis (List.nodup_cons.mp nodup).2 inside later)

theorem fixedOrder_prefixEngine (score : Scope → Place → StoredValue → Option ℚ) :
    FixedOrder (prefixEngine score) := by
  intro namespaceParts first second subset
  have sorted (places : Finset Place) : (places.sort (· ≤ ·)).Pairwise (· ≤ ·) :=
    Finset.pairwise_sort places _
  rw [places_of_prefixEngine, places_of_prefixEngine]
  refine (List.sublist_of_subperm_of_pairwise ?_ (sorted _) (sorted _)).filter _
  refine List.subperm_of_subset (Finset.sort_nodup _ _) fun place member => ?_
  exact (Finset.mem_sort _).mpr (subset ((Finset.mem_sort _).mp member))

/-! ### The order of the calls -/

/-- The two writes. -/
inductive Role where
  | predecessor
  | successor
deriving DecidableEq

/-- A write and a call it made. -/
abbrev WriteEvent := Role × Call Place StoredValue SearchQuery

section

variable (writer : DeterministicWriter) (predecessor successor : Payload)

/-- The predecessor's write has searched, then the successor has put its record, and then it has
read the predecessor's. -/
def PassedBy (past : List WriteEvent) : Prop :=
  ∃ query value, List.Sublist
    [(.predecessor, .asearch query), (.successor, .aput (writer.recordPlace successor) value),
      (.successor, .aget (writer.recordPlace predecessor))] past

/-- The successor has passed by before the predecessor's record is put, and puts no marked
predecessor after it. -/
def Raced (past : List WriteEvent) : Prop :=
  ∃ before value after,
    past = before ++ (.predecessor, .aput (writer.recordPlace predecessor) value) :: after ∧
      PassedBy writer predecessor successor before ∧
        ∀ marked, (.successor, .aput (writer.recordPlace predecessor) marked) ∉ after

/-- A record of the predecessor's namespace, other than its own, declares it superseded. -/
def DeclaredBeside (store : Store) : Prop :=
  ∃ place value, place ≠ writer.recordPlace predecessor ∧
    place.namespaceParts = recordNamespace predecessor ∧ store.lookup place = some value ∧
      value.declares predecessor.naturalKey = true

/-! ### Invariants of the two writes -/

/-- A declarer of the predecessor stands beyond the first rows of the listing. -/
def Ahead (engine : SearchEngine) (offset : Nat) (store : Store) : Prop :=
  ∃ place value, place ≠ writer.recordPlace predecessor ∧
    place.namespaceParts = recordNamespace predecessor ∧ store.lookup place = some value ∧
      value.declares predecessor.naturalKey = true ∧
        place ∉ ((engine.ranking (listing (recordNamespace predecessor)) store).map
          Item.place).take offset

/-- The record a phase of the successor's write is about to put is the successor's. -/
def CarriesOwn (value : StoredValue) : Prop :=
  value.naturalKey = some successor.naturalKey ∧
    value.declares predecessor.naturalKey = true

/-- The predecessor's record is marked, if it is stored. -/
def MarkedIfStored (store : Store) : Prop :=
  ∀ value, store.lookup (writer.recordPlace predecessor) = some value → value.marked = true

/-- What holds in a phase of the successor's write while the predecessor's record is not put. -/
def Ready (store : Store) : WritePhase → Prop
  -- A record with the successor's content declares what the successor does.
  | .starting => ∀ existing, store.lookup (writer.recordPlace successor) = some existing →
      existing.contentHash = some (contentHash writer.runtime successor) →
        existing.declares predecessor.naturalKey = true
  | .looking _ _ value => CarriesOwn predecessor successor value
  | .putting value => CarriesOwn predecessor successor value
  | .marking remaining => DeclaredBeside writer predecessor store ∧
      (predecessor.naturalKey ∈ remaining ∨ MarkedIfStored writer predecessor store)
  | .remarking place existing remaining => DeclaredBeside writer predecessor store ∧
      store.lookup place = some existing ∧ (predecessor.naturalKey ∈ remaining ∨
        place = writer.recordPlace predecessor ∨ MarkedIfStored writer predecessor store)

/-- What holds until the predecessor's record is put, for the successor's phase. -/
structure Unput (start store : Store) (phase : WritePhase) : Prop where
  named : DeclarersNamed store
  kept : DeclaredBeside writer predecessor start → DeclaredBeside writer predecessor store
  ready : Ready writer predecessor successor store phase

/-- The predecessor's lookup began when nothing declared the predecessor. -/
def Late (start : Store) (past : List WriteEvent) (store : Store) (phase : WritePhase) : Prop :=
  ¬DeclaredBeside writer predecessor start ∧
    ((phase.BeforePut ∧ (∃ query, (.predecessor, .asearch query) ∈ past) ∧
        ∀ existing, store.lookup (writer.recordPlace successor) = some existing →
          existing.declares predecessor.naturalKey = false) ∨
      (phase.WillRead predecessor.naturalKey ∧ ∃ query value, List.Sublist
        [(.predecessor, .asearch query), (.successor, .aput (writer.recordPlace successor) value)]
          past) ∨
      PassedBy writer predecessor successor past)

/-- What holds once the predecessor's record is put or found. -/
def Settling (start : Store) (past : List WriteEvent) (store : Store) (phase : WritePhase) : Prop :=
  ∃ value, store.lookup (writer.recordPlace predecessor) = some value ∧
    (value.marked = true ∨ phase.WillRead predecessor.naturalKey ∨
      phase.WillMark (writer.recordPlace predecessor) ∨
        ¬DeclaredBeside writer predecessor start ∧ Raced writer predecessor successor past)

/-- What the two writes keep, for the phases they are in. -/
def Joint (engine : SearchEngine) (start : Store) (past : List WriteEvent) (store : Store)
    (phase other : WritePhase) : Prop :=
  match phase with
  | .starting => Unput writer predecessor successor start store other
  | .looking _ offset _ => Unput writer predecessor successor start store other ∧
      (offset = 0 ∨ Ahead writer predecessor engine offset store ∨
        Late writer predecessor successor start past store other)
  | .putting value => Unput writer predecessor successor start store other ∧
      (value.marked = true ∨ Late writer predecessor successor start past store other)
  | .marking _ => Settling writer predecessor successor start past store other
  | .remarking _ _ _ => Settling writer predecessor successor start past store other

end

/-! ### The successor's calls -/

section

variable {writer : DeterministicWriter} {engine : SearchEngine}
  {predecessor successor : Payload} {successorMeta : Option EpisodeMeta}
  {start store after : Store} {past : List WriteEvent} {phase next : WritePhase}
  {call : Call Place StoredValue SearchQuery}

/-- A declarer stays one while its own record is replaced only by declarers. -/
theorem declaredBeside_insert {place : Place} {value : StoredValue}
    (declared : DeclaredBeside writer predecessor store)
    (kept : ∀ existing, store.lookup place = some existing →
      existing.declares predecessor.naturalKey = true →
        value.declares predecessor.naturalKey = true) :
    DeclaredBeside writer predecessor (store.insert place value) := by
  obtain ⟨beside, record, apart, here, stored, declares⟩ := declared
  by_cases same : beside = place
  · subst same
    exact ⟨beside, value, apart, here, lookup_insert_self, kept record stored declares⟩
  · exact ⟨beside, record, apart, here, by rw [lookup_insert_other same, stored], declares⟩

theorem declarersNamed_insert {place : Place} {value : StoredValue} (named : DeclarersNamed store)
    (own : ∀ key, value.declares key = true → ∃ name, value.naturalKey = some name ∧ name ≠ "") :
    DeclarersNamed (store.insert place value) := by
  intro other record key stored declares
  rw [lookup_insert] at stored
  split at stored
  · cases stored
    exact own key declares
  · exact named other record key stored declares

/-- A call of the successor leaves the store, puts its own record or marks a stored one. -/
theorem store_of_advance
    (advance : Advance writer engine successor successorMeta store phase call next after) :
    after = store ∨
      (∃ value, phase = .putting value ∧ call = .aput (writer.recordPlace successor) value ∧
        after = store.insert (writer.recordPlace successor) value) ∨
      ∃ place existing remaining, phase = .remarking place existing remaining ∧
        call = .aput place (existing.markedBy successor.naturalKey) ∧
          after = store.insert place (existing.markedBy successor.naturalKey) := by
  cases advance with
  | create => exact Or.inl rfl
  | keep => exact Or.inl rfl
  | found => exact Or.inl rfl
  | lastPage => exact Or.inl rfl
  | nextPage => exact Or.inl rfl
  | put => exact Or.inr (Or.inl ⟨_, rfl, rfl, rfl⟩)
  | missing => exact Or.inl rfl
  | stored => exact Or.inl rfl
  | mark => exact Or.inr (Or.inr ⟨_, _, _, rfl, rfl, rfl⟩)

theorem declared_of_ready (ready : Ready writer predecessor successor store phase)
    (past : ¬phase.BeforePut) : DeclaredBeside writer predecessor store := by
  cases phase with
  | starting => exact absurd trivial past
  | looking pages offset value => exact absurd trivial past
  | putting value => exact absurd trivial past
  | marking remaining => exact ready.1
  | remarking place existing remaining => exact ready.1

/-- The successor is to read the predecessor, is about to mark it, or has left it marked. -/
theorem settled_of_ready (ready : Ready writer predecessor successor store phase) :
    phase.WillRead predecessor.naturalKey ∨ phase.WillMark (writer.recordPlace predecessor) ∨
      MarkedIfStored writer predecessor store := by
  cases phase with
  | starting => exact Or.inl trivial
  | looking pages offset value => exact Or.inl trivial
  | putting value => exact Or.inl trivial
  | marking remaining => exact ready.2.imp_right Or.inr
  | remarking place existing remaining => exact ready.2.2

/-- While the predecessor's record is not put, a store call of the successor keeps the declarers. -/
theorem declaredBeside_advance (ready : Ready writer predecessor successor store phase)
    (advance : Advance writer engine successor successorMeta store phase call next after)
    (declared : DeclaredBeside writer predecessor store) :
    DeclaredBeside writer predecessor after := by
  rcases store_of_advance advance with rfl | ⟨value, rfl, _, rfl⟩ | ⟨place, existing, _, rfl, _, rfl⟩
  · exact declared
  · exact declaredBeside_insert declared fun _ _ _ => ready.2
  · refine declaredBeside_insert declared fun other stored declares => ?_
    cases ready.2.1.symm.trans stored
    exact declares

theorem declarersNamed_advance (named : DeclarersNamed store)
    (ready : Ready writer predecessor successor store phase)
    (advance : Advance writer engine successor successorMeta store phase call next after) :
    DeclarersNamed after := by
  rcases store_of_advance advance with rfl | ⟨value, rfl, _, rfl⟩ | ⟨place, existing, _, rfl, _, rfl⟩
  · exact named
  · exact declarersNamed_insert named fun key _ =>
      ⟨successor.naturalKey, ready.1, naturalKey_ne_empty successor⟩
  · exact declarersNamed_insert named fun key declares =>
      named place existing key ready.2.1 declares

/-- A key that is next among the predecessors to mark, and whose record is at this place, is at the
predecessor's place when it is the predecessor's. -/
theorem place_of_named {place : Place}
    (named : keyPlace writer.runtime predecessor.naturalKey = some place) :
    place = writer.recordPlace predecessor :=
  (Option.some.inj (named.symm.trans (keyPlace_naturalKey predecessor)))

theorem ready_advance (declares : predecessor.naturalKey ∈ successor.supersedes)
    (sameNamespace : recordNamespace successor = recordNamespace predecessor)
    (apart : writer.recordPlace successor ≠ writer.recordPlace predecessor)
    (ready : Ready writer predecessor successor store phase)
    (advance : Advance writer engine successor successorMeta store phase call next after) :
    Ready writer predecessor successor after next := by
  have kept := declaredBeside_advance ready advance
  cases advance with
  | create puts =>
    exact ⟨rfl, by rw [storedValue_declares]; exact List.contains_iff_mem.mpr declares⟩
  | keep same =>
    obtain ⟨existing, stored, same⟩ := Option.bind_eq_some_iff.mp (not_not.mp same)
    exact ⟨⟨_, existing, apart, sameNamespace, stored, ready existing stored same⟩, Or.inl declares⟩
  | found first => exact ⟨by rw [markFound_naturalKey, ready.1], by rw [markFound_declares, ready.2]⟩
  | lastPage absent short => exact ready
  | nextPage absent => exact ready
  | put =>
    exact ⟨⟨_, _, apart, sameNamespace, lookup_insert_self, ready.2⟩, Or.inl declares⟩
  | missing named absent =>
    refine ⟨ready.1, ?_⟩
    rcases ready.2 with member | marked
    · rcases List.mem_cons.mp member with rfl | later
      · refine Or.inr fun value stored => ?_
        rw [← place_of_named named, absent] at stored
        cases stored
      · exact Or.inl later
    · exact Or.inr marked
  | stored named present =>
    refine ⟨ready.1, present, ?_⟩
    rcases ready.2 with member | marked
    · rcases List.mem_cons.mp member with rfl | later
      · exact Or.inr (Or.inl (place_of_named named))
      · exact Or.inl later
    · exact Or.inr (Or.inr marked)
  | @mark place existing remaining =>
    refine ⟨kept ready.1, ?_⟩
    rcases ready.2.2 with later | here | marked
    · exact Or.inl later
    · refine Or.inr fun value stored => ?_
      rw [here, lookup_insert_self] at stored
      cases stored
      rfl
    · refine Or.inr fun value stored => ?_
      rw [lookup_insert] at stored
      split at stored
      · cases stored
        rfl
      · exact marked value stored

/-! ### Rows a lookup has not reached -/

/-- A record of the predecessor's namespace is in its listing. -/
theorem exists_ranked (valid : ∀ part ∈ recordNamespace predecessor, validPart part = true)
    {place : Place} {value : StoredValue} (here : place.namespaceParts = recordNamespace predecessor)
    (stored : store.lookup place = some value) :
    ∃ item ∈ engine.ranking (listing (recordNamespace predecessor)) store,
      item.place = place ∧ item.value = value := by
  refine exists_mem_ranking stored ?_
  rw [← here] at valid ⊢
  exact engine.selects_own place value valid

theorem ahead_zero (declared : DeclaredBeside writer predecessor store) :
    Ahead writer predecessor engine 0 store := by
  obtain ⟨place, value, apart, here, stored, declares⟩ := declared
  exact ⟨place, value, apart, here, stored, declares, by simp⟩

/-- A put that keeps the declarers brings none of them forward. -/
theorem ahead_insert (order : FixedOrder engine)
    (valid : ∀ part ∈ recordNamespace predecessor, validPart part = true) {offset : Nat}
    {place : Place} {value : StoredValue} (ahead : Ahead writer predecessor engine offset store)
    (kept : ∀ existing, store.lookup place = some existing →
      existing.declares predecessor.naturalKey = true →
        value.declares predecessor.naturalKey = true) :
    Ahead writer predecessor engine offset (store.insert place value) := by
  obtain ⟨beside, record, apart, here, stored, declares, beyond⟩ := ahead
  have keys : store.keys ⊆ (store.insert place value).keys := by
    intro other member
    obtain ⟨found, lookup⟩ := mem_keys_iff.mp member
    rw [mem_keys_iff, lookup_insert]
    split
    · exact ⟨value, rfl⟩
    · exact ⟨found, lookup⟩
  have later : beside ∉ ((engine.ranking (listing (recordNamespace predecessor))
      (store.insert place value)).map Item.place).take offset := by
    intro early
    obtain ⟨item, ranked, rfl, _⟩ := exists_ranked valid here stored
    exact beyond (mem_take_of_sublist (order _ _ _ keys) (engine.ranking_nodup _ _)
      (List.mem_map_of_mem ranked) early)
  by_cases same : beside = place
  · subst same
    exact ⟨beside, value, apart, here, lookup_insert_self, kept record stored declares, later⟩
  · exact ⟨beside, record, apart, here, by rw [lookup_insert_other same, stored], declares, later⟩

theorem ahead_advance (order : FixedOrder engine)
    (valid : ∀ part ∈ recordNamespace predecessor, validPart part = true) {offset : Nat}
    (ready : Ready writer predecessor successor store phase)
    (advance : Advance writer engine successor successorMeta store phase call next after)
    (ahead : Ahead writer predecessor engine offset store) :
    Ahead writer predecessor engine offset after := by
  rcases store_of_advance advance with rfl | ⟨value, rfl, _, rfl⟩ | ⟨place, existing, _, rfl, _, rfl⟩
  · exact ahead
  · exact ahead_insert order valid ahead fun _ _ _ => ready.2
  · refine ahead_insert order valid ahead fun other stored declares => ?_
    cases ready.2.1.symm.trans stored
    exact declares

/-- A page without a declarer is full, and the declarer stands beyond it. -/
theorem ahead_page (valid : ∀ part ∈ recordNamespace predecessor, validPart part = true)
    {offset : Nat} (ahead : Ahead writer predecessor engine offset store)
    (absent : (forwardPageOf engine predecessor store offset).find?
      (declaring predecessor.naturalKey) = none) :
    ¬(forwardPageOf engine predecessor store offset).length < forwardPage ∧
      Ahead writer predecessor engine (offset + forwardPage) store := by
  obtain ⟨place, value, apart, here, stored, declares, beyond⟩ := ahead
  have unread (item : Item)
      (ranked : item ∈ engine.ranking (listing (recordNamespace predecessor)) store)
      (own : item.place = place) : item ∉ forwardPageOf engine predecessor store offset := by
    intro member
    have same : item.value = value := by
      have found := ((engine.mem_ranking _ _ _).mp ranked).1
      rw [own, stored] at found
      exact (Option.some.inj found).symm
    have silent := List.find?_eq_none.mp absent item member
    rw [declaring, same, declares] at silent
    exact silent rfl
  obtain ⟨item, ranked, own, _⟩ := @exists_ranked engine predecessor _ valid _ _ here stored
  have dropped : item ∈ (engine.ranking (listing (recordNamespace predecessor)) store).drop
      offset := by
    have split := ranked
    rw [← List.take_append_drop offset (engine.ranking _ store), List.mem_append] at split
    refine split.resolve_left fun early => beyond ?_
    rw [← List.map_take, ← own]
    exact List.mem_map_of_mem early
  constructor
  · intro short
    refine unread item ranked own ?_
    rw [forwardPageOf, List.length_take, min_lt_iff, or_iff_right (lt_irrefl _)] at short
    rwa [forwardPageOf, List.take_of_length_le short.le]
  · refine ⟨place, value, apart, here, stored, declares, ?_⟩
    rw [← List.map_take]
    intro early
    obtain ⟨other, taken, otherOwn⟩ := List.mem_map.mp early
    rw [List.take_add, List.mem_append] at taken
    rcases taken with before | inPage
    · refine beyond ?_
      rw [← List.map_take, ← otherOwn]
      exact List.mem_map_of_mem before
    · refine unread other (List.mem_of_mem_drop (List.mem_of_mem_take inPage)) otherOwn inPage

/-! ### The order of the calls, as it grows -/

theorem passedBy_snoc (event : WriteEvent) (passed : PassedBy writer predecessor successor past) :
    PassedBy writer predecessor successor (past ++ [event]) := by
  obtain ⟨query, value, order⟩ := passed
  exact ⟨query, value, order.trans (List.sublist_append_left _ _)⟩

theorem raced_snoc {event : WriteEvent} (raced : Raced writer predecessor successor past)
    (other : ∀ marked, event ≠ (.successor, .aput (writer.recordPlace predecessor) marked)) :
    Raced writer predecessor successor (past ++ [event]) := by
  obtain ⟨before, value, following, rfl, passed, unmarked⟩ := raced
  refine ⟨before, value, following ++ [event], by simp, passed, fun marked member => ?_⟩
  rcases List.mem_append.mp member with earlier | last
  · exact unmarked marked earlier
  · exact other marked (List.mem_singleton.mp last).symm

theorem late_snoc (event : WriteEvent)
    (late : Late writer predecessor successor start past store phase) :
    Late writer predecessor successor start (past ++ [event]) store phase := by
  refine ⟨late.1, ?_⟩
  rcases late.2 with ⟨before, ⟨query, searched⟩, silent⟩ | ⟨reads, query, value, order⟩ | passed
  · exact Or.inl ⟨before, ⟨query, List.mem_append_left _ searched⟩, silent⟩
  · exact Or.inr (Or.inl ⟨reads, query, value, order.trans (List.sublist_append_left _ _)⟩)
  · exact Or.inr (Or.inr (passedBy_snoc event passed))

theorem late_advance (declares : predecessor.naturalKey ∈ successor.supersedes)
    (ready : Ready writer predecessor successor store phase)
    (advance : Advance writer engine successor successorMeta store phase call next after)
    (late : Late writer predecessor successor start past store phase) :
    Late writer predecessor successor start (past ++ [(.successor, call)]) after next := by
  refine ⟨late.1, ?_⟩
  rcases late.2 with ⟨before, ⟨query, searched⟩, silent⟩ | ⟨reads, query, value, order⟩ | passed
  · have member (event : WriteEvent) : (Role.predecessor, Call.asearch query) ∈ past ++ [event] :=
      List.mem_append_left _ searched
    cases advance with
    | create => exact Or.inl ⟨trivial, ⟨query, member _⟩, silent⟩
    | keep same =>
      obtain ⟨existing, stored, same⟩ := Option.bind_eq_some_iff.mp (not_not.mp same)
      have claims := ready existing stored same
      rw [silent existing stored] at claims
      cases claims
    | found => exact Or.inl ⟨trivial, ⟨query, member _⟩, silent⟩
    | lastPage => exact Or.inl ⟨trivial, ⟨query, member _⟩, silent⟩
    | nextPage => exact Or.inl ⟨trivial, ⟨query, member _⟩, silent⟩
    | @put value =>
      refine Or.inr (Or.inl ⟨declares, query, value, ?_⟩)
      exact (List.singleton_sublist.mpr searched).append (List.Sublist.refl [_])
    | missing => cases before
    | stored => cases before
    | mark => cases before
  · have longer (event : WriteEvent) := order.trans (List.sublist_append_left past [event])
    cases advance with
    | create => exact Or.inr (Or.inl ⟨trivial, query, value, longer _⟩)
    | keep => exact Or.inr (Or.inl ⟨declares, query, value, longer _⟩)
    | found => exact Or.inr (Or.inl ⟨trivial, query, value, longer _⟩)
    | lastPage => exact Or.inr (Or.inl ⟨trivial, query, value, longer _⟩)
    | nextPage => exact Or.inr (Or.inl ⟨trivial, query, value, longer _⟩)
    | put => exact Or.inr (Or.inl ⟨declares, query, value, longer _⟩)
    | missing named absent =>
      rcases List.mem_cons.mp reads with rfl | later
      · rw [place_of_named named]
        exact Or.inr (Or.inr ⟨query, value, order.append (List.Sublist.refl [_])⟩)
      · exact Or.inr (Or.inl ⟨later, query, value, longer _⟩)
    | stored named present =>
      rcases List.mem_cons.mp reads with rfl | later
      · rw [place_of_named named]
        exact Or.inr (Or.inr ⟨query, value, order.append (List.Sublist.refl [_])⟩)
      · exact Or.inr (Or.inl ⟨later, query, value, longer _⟩)
    | mark => exact Or.inr (Or.inl ⟨reads, query, value, longer _⟩)
  · exact Or.inr (Or.inr (passedBy_snoc _ passed))

/-- A lookup that begins when nothing declares the predecessor is late. -/
theorem late_of_search (sameNamespace : recordNamespace successor = recordNamespace predecessor)
    (apart : writer.recordPlace successor ≠ writer.recordPlace predecessor)
    (unput : Unput writer predecessor successor start store phase)
    (silent : ¬DeclaredBeside writer predecessor store) (query : SearchQuery) :
    Late writer predecessor successor start (past ++ [(.predecessor, .asearch query)]) store
      phase := by
  refine ⟨mt unput.kept silent, Or.inl ⟨?_, ⟨query, by simp⟩, ?_⟩⟩
  · by_contra passed
    exact silent (declared_of_ready unput.ready passed)
  · intro existing stored
    by_contra declares
    exact silent ⟨_, existing, apart, sameNamespace, stored, by simpa using declares⟩

/-- Once the predecessor's record is put or found, each call of the successor brings its mark
closer. -/
theorem settling_advance (declares : predecessor.naturalKey ∈ successor.supersedes)
    (apart : writer.recordPlace successor ≠ writer.recordPlace predecessor)
    (advance : Advance writer engine successor successorMeta store phase call next after)
    (settling : Settling writer predecessor successor start past store phase) :
    Settling writer predecessor successor start (past ++ [(.successor, call)]) after next := by
  obtain ⟨value, found, options⟩ := settling
  cases advance with
  | create => exact ⟨value, found, Or.inr (Or.inl trivial)⟩
  | keep => exact ⟨value, found, Or.inr (Or.inl declares)⟩
  | found => exact ⟨value, found, Or.inr (Or.inl trivial)⟩
  | lastPage => exact ⟨value, found, Or.inr (Or.inl trivial)⟩
  | nextPage => exact ⟨value, found, Or.inr (Or.inl trivial)⟩
  | put =>
    exact ⟨value, by rw [lookup_insert_other apart.symm, found], Or.inr (Or.inl declares)⟩
  | missing named absent =>
    refine ⟨value, found, options.imp_right fun options => ?_⟩
    rcases options with reads | marks | ⟨unsure, raced⟩
    · rcases List.mem_cons.mp reads with rfl | later
      · rw [place_of_named named, found] at absent
        cases absent
      · exact Or.inl later
    · cases marks
    · exact Or.inr (Or.inr ⟨unsure, raced_snoc raced (by simp)⟩)
  | stored named present =>
    refine ⟨value, found, options.imp_right fun options => ?_⟩
    rcases options with reads | marks | ⟨unsure, raced⟩
    · rcases List.mem_cons.mp reads with rfl | later
      · exact Or.inr (Or.inl (place_of_named named))
      · exact Or.inl later
    · cases marks
    · exact Or.inr (Or.inr ⟨unsure, raced_snoc raced (by simp)⟩)
  | @mark place existing remaining =>
    by_cases here : writer.recordPlace predecessor = place
    · exact ⟨existing.markedBy successor.naturalKey, by rw [here, lookup_insert_self], Or.inl rfl⟩
    · refine ⟨value, by rw [lookup_insert_other here, found], options.imp_right fun options => ?_⟩
      rcases options with reads | marks | ⟨unsure, raced⟩
      · exact Or.inl reads
      · exact absurd marks.symm here
      · refine Or.inr (Or.inr ⟨unsure, raced_snoc raced fun marked same => ?_⟩)
        cases same
        exact here rfl

/-! ### The two writes together -/

variable {predecessorMeta : Option EpisodeMeta} {other : WritePhase}

theorem willRead_of_beforePut (before : phase.BeforePut) (key : String) : phase.WillRead key := by
  cases phase with
  | starting => trivial
  | looking pages offset value => trivial
  | putting value => trivial
  | marking remaining => cases before
  | remarking place existing remaining => cases before

theorem joint_successor (order : FixedOrder engine)
    (valid : ∀ part ∈ recordNamespace predecessor, validPart part = true)
    (declares : predecessor.naturalKey ∈ successor.supersedes)
    (sameNamespace : recordNamespace successor = recordNamespace predecessor)
    (apart : writer.recordPlace successor ≠ writer.recordPlace predecessor)
    (advance : Advance writer engine successor successorMeta store other call next after)
    (joint : Joint writer predecessor successor engine start past store phase other) :
    Joint writer predecessor successor engine start (past ++ [(.successor, call)]) after phase
      next := by
  have step (unput : Unput writer predecessor successor start store other) :
      Unput writer predecessor successor start after next :=
    ⟨declarersNamed_advance unput.named unput.ready advance,
      fun declared => declaredBeside_advance unput.ready advance (unput.kept declared),
      ready_advance declares sameNamespace apart unput.ready advance⟩
  cases phase with
  | starting => exact step joint
  | looking pages offset value =>
    refine ⟨step joint.1, joint.2.imp_right fun options => ?_⟩
    exact options.imp (ahead_advance order valid joint.1.ready advance)
      (late_advance declares joint.1.ready advance)
  | putting value =>
    exact ⟨step joint.1, joint.2.imp_right (late_advance declares joint.1.ready advance)⟩
  | marking remaining => exact settling_advance declares apart advance joint
  | remarking place existing remaining => exact settling_advance declares apart advance joint

/-- Before a search of the predecessor, a declarer stands ahead or the lookup is late. -/
theorem ahead_or_late (sameNamespace : recordNamespace successor = recordNamespace predecessor)
    (apart : writer.recordPlace successor ≠ writer.recordPlace predecessor) {offset : Nat}
    (unput : Unput writer predecessor successor start store phase) (query : SearchQuery)
    (options : offset = 0 ∨ Ahead writer predecessor engine offset store ∨
      Late writer predecessor successor start past store phase) :
    Ahead writer predecessor engine offset store ∨
      Late writer predecessor successor start (past ++ [(.predecessor, .asearch query)]) store
        phase := by
  rcases options with rfl | ahead | late
  · by_cases declared : DeclaredBeside writer predecessor store
    · exact Or.inl (ahead_zero declared)
    · exact Or.inr (late_of_search sameNamespace apart unput declared query)
  · exact Or.inl ahead
  · exact Or.inr (late_snoc _ late)

theorem joint_predecessor (valid : ∀ part ∈ recordNamespace predecessor, validPart part = true)
    (sameNamespace : recordNamespace successor = recordNamespace predecessor)
    (apart : writer.recordPlace successor ≠ writer.recordPlace predecessor)
    (advance : Advance writer engine predecessor predecessorMeta store phase call next after)
    (joint : Joint writer predecessor successor engine start past store phase other) :
    Joint writer predecessor successor engine start (past ++ [(.predecessor, call)]) after next
      other := by
  have still (settling : Settling writer predecessor successor start past store other)
      (event : Call Place StoredValue SearchQuery) :
      Settling writer predecessor successor start (past ++ [(.predecessor, event)]) store other := by
    obtain ⟨value, found, options⟩ := settling
    refine ⟨value, found, ?_⟩
    rcases options with marked | reads | marks | ⟨unsure, raced⟩
    · exact Or.inl marked
    · exact Or.inr (Or.inl reads)
    · exact Or.inr (Or.inr (Or.inl marks))
    · exact Or.inr (Or.inr (Or.inr ⟨unsure, raced_snoc raced (by simp)⟩))
  cases advance with
  | create puts => exact ⟨joint, Or.inl rfl⟩
  | keep same =>
    obtain ⟨existing, stored, _⟩ := Option.bind_eq_some_iff.mp (not_not.mp same)
    refine ⟨existing, stored, ?_⟩
    rcases settled_of_ready joint.ready with reads | marks | marked
    · exact Or.inr (Or.inl reads)
    · exact Or.inr (Or.inr (Or.inl marks))
    · exact Or.inl (marked existing stored)
  | @found _ _ _ _ item first =>
    refine ⟨joint.1, Or.inl ?_⟩
    have ranked := List.mem_of_mem_drop (List.mem_of_mem_take (List.mem_of_find?_eq_some first))
    obtain ⟨name, key, nonempty⟩ := joint.1.named item.place item.value _
      ((engine.mem_ranking _ _ _).mp ranked).1 (declares_of_find? first)
    rw [key, markFound, if_neg nonempty]
    rfl
  | @lastPage _ _ _ query absent short =>
    refine ⟨joint.1, Or.inr ?_⟩
    rcases ahead_or_late sameNamespace apart joint.1 query joint.2 with ahead | late
    · exact absurd short (ahead_page valid ahead absent).1
    · exact late
  | @nextPage _ _ _ query absent =>
    refine ⟨joint.1, Or.inr ?_⟩
    rcases ahead_or_late sameNamespace apart joint.1 query joint.2 with ahead | late
    · exact Or.inl (ahead_page valid ahead absent).2
    · exact Or.inr late
  | @put value =>
    refine ⟨value, lookup_insert_self, ?_⟩
    rcases joint.2 with marked | ⟨unsure, ⟨before, _⟩ | ⟨reads, _⟩ | passed⟩
    · exact Or.inl marked
    · exact Or.inr (Or.inl (willRead_of_beforePut before _))
    · exact Or.inr (Or.inl reads)
    · exact Or.inr (Or.inr (Or.inr ⟨unsure, past, value, [], rfl, passed, by simp⟩))
  | missing named absent => exact still joint _
  | stored named present => exact still joint _
  | @mark place existing remaining =>
    obtain ⟨value, found, options⟩ := still joint (.aput place (existing.markedBy _))
    by_cases here : writer.recordPlace predecessor = place
    · exact ⟨existing.markedBy predecessor.naturalKey, by rw [here, lookup_insert_self], Or.inl rfl⟩
    · exact ⟨value, by rw [lookup_insert_other here, found], options⟩

end

/-! ### Every order of the calls -/

/-- The two writes, before their first calls. -/
def writesTogether (writer : DeterministicWriter) (predecessor successor : Payload)
    (predecessorMeta successorMeta : Option EpisodeMeta) : Role → StoreM Unit
  | .predecessor => writer.write predecessor predecessorMeta
  | .successor => writer.write successor successorMeta

/-- A write that has returned has nothing left to mark. -/
theorem restOfWrite_eq_returned {writer : DeterministicWriter} {payload : Payload}
    {episodeMeta : Option EpisodeMeta} {phase : WritePhase}
    (ended : restOfWrite writer payload episodeMeta phase = .done (.returned ())) :
    phase = .marking [] := by
  cases phase with
  | starting => cases ended
  | looking pages offset value => cases pages <;> cases ended
  | putting value => cases ended
  | marking remaining =>
    cases remaining with
    | nil => rfl
    | cons key remaining =>
      rw [restOfWrite, applySupersessions] at ended
      split at ended <;> cases ended
  | remarking place existing remaining => cases ended

/-- A write that has returned was accepted. -/
theorem accepts_of_returned {writer : DeterministicWriter} {engine : SearchEngine}
    {start final : Configuration Role Place StoredValue SearchQuery Item PyError Unit Store}
    {events : List WriteEvent} {role : Role} {payload : Payload} {episodeMeta : Option EpisodeMeta}
    (run : Run (Turn (storeWorld engine)) start events final)
    (own : start.programs role = writer.write payload episodeMeta)
    (returned : final.programs role = .done (.returned ())) : Accepts payload := by
  by_contra refused
  obtain ⟨error, raises⟩ := write_of_not_accepts writer episodeMeta refused
  have ended := programs_eq_of_done run (own.trans raises)
  rw [returned] at ended
  cases ended

/-- Both writes are in a phase, and the phases fit the store and the calls made so far. -/
def Together (writer : DeterministicWriter) (engine : SearchEngine)
    (predecessor successor : Payload) (predecessorMeta successorMeta : Option EpisodeMeta)
    (start : Store) (past : List WriteEvent)
    (configuration : Configuration Role Place StoredValue SearchQuery Item PyError Unit Store) :
    Prop :=
  ∃ phase other,
    configuration.programs .predecessor = restOfWrite writer predecessor predecessorMeta phase ∧
      configuration.programs .successor = restOfWrite writer successor successorMeta other ∧
        Joint writer predecessor successor engine start past configuration.state phase other

theorem together_turn {writer : DeterministicWriter} {engine : SearchEngine}
    {predecessor successor : Payload} {predecessorMeta successorMeta : Option EpisodeMeta}
    {start : Store} {past : List WriteEvent} {event : WriteEvent}
    {before after : Configuration Role Place StoredValue SearchQuery Item PyError Unit Store}
    (order : FixedOrder engine)
    (valid : ∀ part ∈ recordNamespace predecessor, validPart part = true)
    (declares : predecessor.naturalKey ∈ successor.supersedes)
    (sameNamespace : recordNamespace successor = recordNamespace predecessor)
    (apart : writer.recordPlace successor ≠ writer.recordPlace predecessor)
    (together : Together writer engine predecessor successor predecessorMeta successorMeta start
      past before)
    (turn : Turn (storeWorld engine) before event after) :
    Together writer engine predecessor successor predecessorMeta successorMeta start
      (past ++ [event]) after := by
  obtain ⟨phase, other, first, second, joint⟩ := together
  cases turn with
  | @call programs state after program call role steps =>
    have different : Role.predecessor ≠ Role.successor := by decide
    cases role with
    | predecessor =>
      rw [show programs .predecessor = _ from first] at steps
      obtain ⟨next, rest, advance⟩ := advance_of_step steps
      refine ⟨next, other, ?_, ?_, joint_predecessor valid sameNamespace apart advance joint⟩
      · exact (Function.update_self Role.predecessor program programs).trans rest
      · exact (Function.update_of_ne different.symm program programs).trans second
    | successor =>
      rw [show programs .successor = _ from second] at steps
      obtain ⟨next, rest, advance⟩ := advance_of_step steps
      refine ⟨phase, next, ?_, ?_,
        joint_successor order valid declares sameNamespace apart advance joint⟩
      · exact (Function.update_of_ne different program programs).trans first
      · exact (Function.update_self Role.successor program programs).trans rest

/-- Two writes that take turns in any order leave the predecessor marked, unless nothing declared
it at the start and the successor has passed by in the middle of its write. -/
theorem marked_after_writes (writer : DeterministicWriter) (engine : SearchEngine)
    (order : FixedOrder engine) (predecessor successor : Payload)
    (predecessorMeta successorMeta : Option EpisodeMeta)
    (sameProject : successor.project = predecessor.project)
    (sameType : successor.payloadType = predecessor.payloadType)
    (declares : predecessor.naturalKey ∈ successor.supersedes)
    (apart : writer.recordPlace successor ≠ writer.recordPlace predecessor)
    (start final : Store) (named : DeclarersNamed start)
    (faithful : ∀ existing, start.lookup (writer.recordPlace successor) = some existing →
      existing.contentHash = some (contentHash writer.runtime successor) →
        existing.declares predecessor.naturalKey = true)
    (programs : Role → StoreM Unit) (events : List WriteEvent)
    (run : Run (Turn (storeWorld engine))
      ⟨writesTogether writer predecessor successor predecessorMeta successorMeta, start⟩ events
      ⟨programs, final⟩)
    (returned : ∀ role, programs role = .done (.returned ()))
    (orderly : DeclaredBeside writer predecessor start ∨
      ¬Raced writer predecessor successor events) :
    ∃ value, final.lookup (writer.recordPlace predecessor) = some value ∧ value.marked = true := by
  have sameNamespace : recordNamespace successor = recordNamespace predecessor := by
    rw [recordNamespace, recordNamespace, sameProject, sameType]
  have predecessorAccepts := accepts_of_returned run rfl (returned .predecessor)
  have successorAccepts := accepts_of_returned run rfl (returned .successor)
  have unput : Unput writer predecessor successor start start .starting :=
    ⟨named, id, faithful⟩
  have initially : Together writer engine predecessor successor predecessorMeta successorMeta start
      [] ⟨writesTogether writer predecessor successor predecessorMeta successorMeta, start⟩ :=
    ⟨.starting, .starting, write_of_accepts predecessorAccepts, write_of_accepts successorAccepts,
      unput⟩
  have together : Together writer engine predecessor successor predecessorMeta successorMeta start
      events ⟨programs, final⟩ := by
    refine run.invariant_of_labels _ initially ?_
    intro past before event after together turn
    exact together_turn order predecessorAccepts.2 declares sameNamespace apart together turn
  obtain ⟨phase, other, first, second, settling⟩ := together
  rw [restOfWrite_eq_returned (first.symm.trans (returned .predecessor)),
    restOfWrite_eq_returned (second.symm.trans (returned .successor))] at settling
  obtain ⟨value, found, marked | reads | marks | ⟨unsure, raced⟩⟩ := settling
  · exact ⟨value, found, marked⟩
  · cases reads
  · cases marks
  · exact absurd orderly (not_or.mpr ⟨unsure, not_not.mpr raced⟩)

section Sample

/-- A call of one write after every call of the other. -/
theorem not_raced_of_successor_first {writer : DeterministicWriter} {predecessor successor : Payload}
    {earlier later : List WriteEvent} (first : ∀ event ∈ earlier, event.1 = .successor)
    (second : ∀ event ∈ later, event.1 = .predecessor) :
    ¬Raced writer predecessor successor (earlier ++ later) := by
  rintro ⟨before, value, after, split, ⟨query, put, passed⟩, _⟩
  have sublist : List.Sublist _ (earlier ++ later) :=
    split ▸ passed.trans (List.sublist_append_left before _)
  obtain ⟨left, right, parts, inEarlier, inLater⟩ := List.sublist_append_iff.mp sublist
  cases left with
  | nil =>
    rw [List.nil_append] at parts
    have wrong := second _ (inLater.subset (parts ▸ List.mem_cons_of_mem _ List.mem_cons_self))
    cases wrong
  | cons head rest =>
    rw [List.cons_append] at parts
    have wrong := first _ (inEarlier.subset List.mem_cons_self)
    rw [← (List.cons.inj parts).1] at wrong
    cases wrong

/-- The successor is written before the predecessor. -/
theorem marked_after_writes_successor_first :
    ∃ events programs final, Run (Turn (storeWorld sampleEngine))
        ⟨writesTogether sampleWriter predecessorOfA successorInA none none, ∅⟩ events
        ⟨programs, final⟩ ∧
      (∀ role, programs role = .done (.returned ())) ∧
      ∃ value, final.lookup (sampleWriter.recordPlace predecessorOfA) = some value ∧
        value.marked = true := by
  have first := @run_write_of_accepts sampleWriter sampleEngine successorInA none ∅
    ⟨by decide, by decide⟩ ((length_ranking_le _ _ _).trans_lt (by decide))
  obtain ⟨earlier, successorRun, onlySuccessor⟩ := exists_run_of_run Role.successor
    (writesTogether sampleWriter predecessorOfA successorInA none none) rfl first
  have second := @run_write_of_accepts sampleWriter sampleEngine predecessorOfA none
    (sampleWriter.written sampleEngine successorInA none ∅) ⟨by decide, by decide⟩
    ((length_ranking_le _ _ _).trans_lt (card_keys_written.trans_lt (by decide)))
  obtain ⟨later, predecessorRun, onlyPredecessor⟩ := exists_run_of_run Role.predecessor
    (Function.update (writesTogether sampleWriter predecessorOfA successorInA none none)
      Role.successor (.done (.returned ()))) rfl second
  have run := successorRun.append predecessorRun
  have returned (role : Role) : Function.update (Function.update
      (writesTogether sampleWriter predecessorOfA successorInA none none) Role.successor
        (.done (.returned ()))) Role.predecessor (.done (.returned ())) role =
      .done (.returned ()) := by
    cases role <;> rfl
  refine ⟨_, _, _, run, returned, ?_⟩
  refine marked_after_writes sampleWriter sampleEngine (fixedOrder_prefixEngine _) predecessorOfA
    successorInA none none rfl rfl (by decide) (by decide) ∅ _ declarersNamed_empty ?_ _ _ run
    returned (Or.inr (not_raced_of_successor_first onlySuccessor onlyPredecessor))
  intro existing stored
  cases stored

/-- The record the predecessor's write builds. -/
def predecessorRecord : StoredValue :=
  storedValue predecessorOfA (contentHash sampleRuntime predecessorOfA) 1 none

theorem step?_starting_predecessor :
    (restOfWrite sampleWriter predecessorOfA none .starting).step? (storeWorld sampleEngine) ∅ =
      some (.aget (sampleWriter.recordPlace predecessorOfA),
        restOfWrite sampleWriter predecessorOfA none (.looking 1 0 predecessorRecord), ∅) :=
  rfl

theorem step?_looking_predecessor :
    (restOfWrite sampleWriter predecessorOfA none (.looking 1 0 predecessorRecord)).step?
        (storeWorld sampleEngine) ∅ =
      some (.asearch ⟨listing (recordNamespace predecessorOfA), forwardPage, 0⟩,
        restOfWrite sampleWriter predecessorOfA none (.putting predecessorRecord), ∅) := by
  have empty : forwardPageOf sampleEngine predecessorOfA ∅ 0 = [] := by
    rw [forwardPageOf, ranking_eq_nil fun place value stored => by cases stored]
    rfl
  rw [step?_looking, empty]
  rfl

/-- The predecessor's write in a phase, the successor's before its first call. -/
def sampleWrites (phase : WritePhase) : Role → StoreM Unit
  | .predecessor => restOfWrite sampleWriter predecessorOfA none phase
  | .successor => sampleWriter.write successorInA none

theorem turn_sampleWrites {phase next : WritePhase} {call : Call Place StoredValue SearchQuery}
    (steps : (restOfWrite sampleWriter predecessorOfA none phase).step? (storeWorld sampleEngine) ∅ =
      some (call, restOfWrite sampleWriter predecessorOfA none next, ∅)) :
    Turn (storeWorld sampleEngine) ⟨sampleWrites phase, ∅⟩ (.predecessor, call)
      ⟨sampleWrites next, ∅⟩ := by
  have moved : Function.update (sampleWrites phase) .predecessor
      (restOfWrite sampleWriter predecessorOfA none next) = sampleWrites next := by
    funext role
    cases role <;> rfl
  rw [← moved]
  exact .call Role.predecessor steps

/-- The successor is written between the lookup and the put of the predecessor. -/
theorem unmarked_of_passed_by :
    ∃ events programs final, Run (Turn (storeWorld sampleEngine))
        ⟨writesTogether sampleWriter predecessorOfA successorInA none none, ∅⟩ events
        ⟨programs, final⟩ ∧
      (∀ role, programs role = .done (.returned ())) ∧
      SupersessionInvariant sampleRuntime ∅ ∧
      ∃ value, final.lookup (sampleWriter.recordPlace predecessorOfA) = some value ∧
        value.marked = false := by
  have opening : writesTogether sampleWriter predecessorOfA successorInA none none =
      sampleWrites .starting := by
    funext role
    cases role with
    | predecessor => exact write_of_accepts ⟨by decide, by decide⟩
    | successor => rfl
  have lookup := (Run.single (turn_sampleWrites step?_starting_predecessor)).append
    (Run.single (turn_sampleWrites step?_looking_predecessor))
  have written := @run_write_of_accepts sampleWriter sampleEngine successorInA none ∅
    ⟨by decide, by decide⟩ ((length_ranking_le _ _ _).trans_lt (by decide))
  obtain ⟨between, passing, _⟩ := exists_run_of_run Role.successor
    (sampleWrites (.putting predecessorRecord)) rfl written
  have put : (restOfWrite sampleWriter predecessorOfA none (.putting predecessorRecord)).run
      (storeWorld sampleEngine) (sampleWriter.written sampleEngine successorInA none ∅) =
        (.returned (), (sampleWriter.written sampleEngine successorInA none ∅).insert
          (sampleWriter.recordPlace predecessorOfA) predecessorRecord) := rfl
  obtain ⟨closing, ending, _⟩ := exists_run_of_run Role.predecessor
    (Function.update (sampleWrites (.putting predecessorRecord)) Role.successor
      (.done (.returned ()))) rfl put
  have run := (lookup.append passing).append ending
  rw [← opening] at run
  refine ⟨_, _, _, run, fun role => by cases role <;> rfl, ?_, predecessorRecord,
    lookup_insert_self, rfl⟩
  rintro key ⟨place, value, stored, _⟩
  cases stored

end Sample
end FleetMemory
