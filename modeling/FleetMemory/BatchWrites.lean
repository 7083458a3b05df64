/-
This file models the batch write and proves that its order does not matter. A batch of one
project and type, written from the empty store, goes through both ways of marking: a record
written after its successor is marked by the lookup of its own write, one written before
it by the successor's. What has been written is kept settled: each record carries the
key of the payload written so far that declares it, whichever of the two came first.
-/

import FleetMemory.SupersessionInvariant

namespace FleetMemory

open StoreProgram

namespace DeterministicWriter

/-! ### The batch -/

/-- `seen_keys[natural_key] = payload`: a key keeps its place and takes the last payload. -/
def see (seenKeys : List (String × Payload)) (payload : Payload) : List (String × Payload) :=
  if seenKeys.any fun entry => entry.1 == payload.naturalKey then
    seenKeys.map fun entry =>
      if entry.1 = payload.naturalKey then (entry.1, payload) else entry
  else seenKeys ++ [(payload.naturalKey, payload)]

/-- The payloads of a batch, the last for each natural key. -/
def collapsed (payloads : List Payload) : List Payload :=
  (payloads.foldl see []).map Prod.snd

variable (writer : DeterministicWriter)

/-- Write each payload. -/
def writeEach : List Payload → StoreM Unit
  | [] => return ()
  | payload :: rest => do
    writer.write payload none
    writeEach rest

/-- `write_batch`. -/
def writeBatch (payloads : List Payload) : StoreM Unit :=
  if payloads.isEmpty then return () else writer.writeEach (collapsed payloads)

theorem foldl_see_of_nodup {payloads : List Payload} {seenKeys : List (String × Payload)}
    (distinct : (payloads.map fun payload => payload.naturalKey).Nodup)
    (fresh : ∀ payload ∈ payloads, ∀ entry ∈ seenKeys, entry.1 ≠ payload.naturalKey) :
    payloads.foldl see seenKeys =
      seenKeys ++ payloads.map fun payload => (payload.naturalKey, payload) := by
  induction payloads generalizing seenKeys with
  | nil => simp
  | cons payload rest inductionHypothesis =>
    obtain ⟨firstFresh, restFresh⟩ := List.forall_mem_cons.mp fresh
    rw [List.map_cons, List.nodup_cons] at distinct
    have unseen : ¬seenKeys.any (fun entry => entry.1 == payload.naturalKey) = true := by
      intro seen
      obtain ⟨entry, member, same⟩ := List.any_eq_true.mp seen
      exact firstFresh entry member (eq_of_beq same)
    rw [List.foldl_cons, see, if_neg unseen, inductionHypothesis distinct.2, List.append_assoc]
    · rfl
    · intro other later entry member
      rcases List.mem_append.mp member with seen | single
      · exact restFresh other later entry seen
      · rw [List.mem_singleton.mp single]
        exact fun same => distinct.1 (List.mem_map.mpr ⟨other, later, same.symm⟩)

/-- Distinct keys do not collapse. -/
theorem collapsed_of_nodup {payloads : List Payload}
    (distinct : (payloads.map fun payload => payload.naturalKey).Nodup) :
    collapsed payloads = payloads := by
  rw [collapsed, foldl_see_of_nodup distinct (by simp), List.nil_append, List.map_map]
  exact List.map_id _

variable {writer}

theorem writeBatch_of_nodup {payloads : List Payload}
    (distinct : (payloads.map fun payload => payload.naturalKey).Nodup) :
    writer.writeBatch payloads = writer.writeEach payloads := by
  rw [writeBatch, collapsed_of_nodup distinct]
  cases payloads <;> rfl

/-! ### What is written is settled -/

/-- The payloads are written to one namespace and have distinct keys, each of which at most one of
them declares, and no key they name shares the identity of another's. -/
structure Batch (writer : DeterministicWriter) (payloads : List Payload) : Prop where
  together : ∀ first ∈ payloads, ∀ second ∈ payloads,
    recordNamespace first = recordNamespace second
  distinct : (payloads.map fun payload => payload.naturalKey).Nodup
  once : ∀ first ∈ payloads, ∀ second ∈ payloads, ∀ declared ∈ payloads,
    declared.naturalKey ∈ first.supersedes → declared.naturalKey ∈ second.supersedes →
      first.naturalKey = second.naturalKey
  apart : ∀ payload ∈ payloads, ∀ other ∈ payloads, ∀ key ∈ other.naturalKey :: other.supersedes,
    recordIdentity writer.runtime key = recordIdentity writer.runtime payload.naturalKey →
      key = payload.naturalKey

theorem Batch.sublist {part payloads : List Payload} (batch : Batch writer payloads)
    (within : part.Sublist payloads) : Batch writer part where
  together first inFirst second inSecond :=
    batch.together first (within.subset inFirst) second (within.subset inSecond)
  distinct := batch.distinct.sublist (within.map _)
  once first inFirst second inSecond declared inDeclared :=
    batch.once first (within.subset inFirst) second (within.subset inSecond) declared
      (within.subset inDeclared)
  apart payload member other among :=
    batch.apart payload (within.subset member) other (within.subset among)

theorem Batch.perm {payloads reordered : List Payload} (batch : Batch writer payloads)
    (perm : reordered.Perm payloads) : Batch writer reordered where
  together first inFirst second inSecond :=
    batch.together first (perm.subset inFirst) second (perm.subset inSecond)
  distinct := (perm.map _).nodup_iff.mpr batch.distinct
  once first inFirst second inSecond declared inDeclared :=
    batch.once first (perm.subset inFirst) second (perm.subset inSecond) declared
      (perm.subset inDeclared)
  apart payload member other among :=
    batch.apart payload (perm.subset member) other (perm.subset among)

/-- The mark of a key is the key of the payload that declares it. -/
def Linked (payloads : List Payload) (key : String) (successor : Option String) : Prop :=
  ∀ name, successor = some name ↔
    ∃ declaring ∈ payloads, declaring.naturalKey = name ∧ key ∈ declaring.supersedes

theorem Linked.unique {payloads : List Payload} {key : String} {first second : Option String}
    (one : Linked payloads key first) (other : Linked payloads key second) : first = second :=
  Option.ext fun name => (one name).trans (other name).symm

/-- The record a batch leaves of a payload, with its mark. -/
def settledValue (writer : DeterministicWriter) (payload : Payload) (successor : Option String) :
    StoredValue :=
  { storedValue payload (contentHash writer.runtime payload) 1 none with
    supersededBy := successor }

/-- The store holds the record of each payload at version one, linked to the one that declares it,
and no other record. -/
structure Settled (writer : DeterministicWriter) (payloads : List Payload) (store : Store) :
    Prop where
  holds : ∀ payload ∈ payloads, ∃ successor, Linked payloads payload.naturalKey successor ∧
    store.lookup (writer.recordPlace payload) = some (writer.settledValue payload successor)
  only : ∀ place value, store.lookup place = some value →
    ∃ payload ∈ payloads, place = writer.recordPlace payload

theorem settled_empty : Settled writer [] ∅ where
  holds payload member := by cases member
  only place value stored := by cases stored

/-- Payloads settle in one store only, in whatever order they are listed. -/
theorem Settled.unique {payloads reordered : List Payload} {first second : Store}
    (one : Settled writer payloads first) (other : Settled writer reordered second)
    (perm : reordered.Perm payloads) : second = first := by
  have linked {key : String} {successor : Option String} :
      Linked reordered key successor ↔ Linked payloads key successor := by
    refine forall_congr' fun name => ?_
    simp only [perm.mem_iff]
  have covered : ∀ payload ∈ payloads,
      second.lookup (writer.recordPlace payload) = first.lookup (writer.recordPlace payload) := by
    intro payload member
    obtain ⟨successor, ofFirst, inFirst⟩ := one.holds payload member
    obtain ⟨otherSuccessor, ofSecond, inSecond⟩ := other.holds payload (perm.mem_iff.mpr member)
    rw [inFirst, inSecond, (linked.mp ofSecond).unique ofFirst]
  refine Finmap.ext_lookup fun place => ?_
  cases inFirst : first.lookup place with
  | some value =>
    obtain ⟨payload, member, rfl⟩ := one.only place value inFirst
    rw [covered payload member, inFirst]
  | none =>
    cases inSecond : second.lookup place with
    | none => rfl
    | some value =>
      obtain ⟨payload, member, rfl⟩ := other.only place value inSecond
      rw [covered payload (perm.mem_iff.mp member), inFirst] at inSecond
      cases inSecond

section

variable {engine : SearchEngine} {store : Store} {earlier : List Payload} {payload : Payload}

theorem eq_of_recordPlace (batch : Batch writer (earlier ++ [payload])) {other : Payload}
    (member : other ∈ earlier)
    (same : writer.recordPlace payload = writer.recordPlace other) : False := by
  have identity : recordIdentity writer.runtime other.naturalKey =
      recordIdentity writer.runtime payload.naturalKey := (congrArg Place.key same).symm
  have key : other.naturalKey = payload.naturalKey :=
    batch.apart payload (by simp) other (by simp [member]) _ List.mem_cons_self identity
  have distinct := batch.distinct
  rw [List.map_append, List.nodup_append] at distinct
  exact distinct.2.2 _ (List.mem_map_of_mem member) _ (by simp) key

/-- The place of the next payload is free. -/
theorem lookup_next (batch : Batch writer (earlier ++ [payload]))
    (settled : Settled writer earlier store) :
    store.lookup (writer.recordPlace payload) = none := by
  cases stored : store.lookup (writer.recordPlace payload) with
  | none => rfl
  | some value =>
    obtain ⟨other, member, same⟩ := settled.only _ _ stored
    exact (eq_of_recordPlace batch member same).elim

theorem settledValue_declares (successor : Option String) (key : String) :
    (writer.settledValue payload successor).declares key = payload.supersedes.contains key :=
  storedValue_declares (contentHash writer.runtime payload) 1 none key

/-- The lookup of the next payload finds the payload earlier before that declares it. -/
theorem linked_successorOf (batch : Batch writer (earlier ++ [payload]))
    (accepts : Accepts payload) (settled : Settled writer earlier store) :
    Linked earlier payload.naturalKey
      (successorOf engine store payload.naturalKey (recordNamespace payload)) := by
  intro name
  constructor
  · intro found
    obtain ⟨place, value, stored, _, declares, named⟩ := successorOf_eq_some found
    obtain ⟨declaring, member, rfl⟩ := settled.only _ _ stored
    obtain ⟨successor, _, here⟩ := settled.holds declaring member
    obtain rfl := Option.some.inj (stored.symm.trans here)
    rw [settledValue_declares] at declares
    exact ⟨declaring, member, Option.some.inj named, by simpa using declares⟩
  · rintro ⟨declaring, member, rfl, declares⟩
    obtain ⟨successor, _, stored⟩ := settled.holds declaring member
    have together : recordNamespace declaring = recordNamespace payload :=
      batch.together declaring (by simp [member]) payload (by simp)
    have valid : ∀ part ∈ recordNamespace declaring, validPart part = true := by
      rw [together]
      exact accepts.2
    have selected : engine.selects (listing (recordNamespace payload))
        (writer.recordPlace declaring) (writer.settledValue declaring successor) = true := by
      rw [← together]
      exact engine.selects_own (writer.recordPlace declaring) _ valid
    obtain ⟨place, record, kept, finds, found⟩ := exists_successorOf stored selected
      (by rw [settledValue_declares]; simpa using declares)
    obtain ⟨other, among, rfl⟩ := settled.only _ _ kept
    obtain ⟨_, _, here⟩ := settled.holds other among
    obtain rfl := Option.some.inj (kept.symm.trans here)
    rw [settledValue_declares] at finds
    rw [found]
    exact congrArg some (batch.once other (by simp [among]) declaring (by simp [member]) payload
      (by simp) (by simpa using finds) declares)

/-- A key the payload lists names the place of a payload of the batch only if it is its key. -/
theorem marks_iff (batch : Batch writer (earlier ++ [payload])) {other : Payload}
    (member : other ∈ earlier ++ [payload]) :
    (∃ key ∈ payload.supersedes, keyPlace writer.runtime key = some (writer.recordPlace other)) ↔
      other.naturalKey ∈ payload.supersedes := by
  constructor
  · rintro ⟨key, listed, named⟩
    have identity := (key_of_keyPlace named).symm
    rwa [← batch.apart other member payload (by simp) key (List.mem_cons_of_mem _ listed) identity]
  · exact fun listed => ⟨_, listed, keyPlace_naturalKey other⟩

theorem linked_append {key : String} {successor : Option String}
    (absent : key ∉ payload.supersedes) (linked : Linked earlier key successor) :
    Linked (earlier ++ [payload]) key successor := by
  intro name
  rw [linked name]
  simp [or_and_right, exists_or, absent]

/-- The record a write puts, at version one, is the settled one. -/
theorem markFound_storedValue {successor : Option String}
    (linked : Linked earlier payload.naturalKey successor) :
    markFound (storedValue payload (contentHash writer.runtime payload) 1 none) successor =
      writer.settledValue payload successor := by
  cases successor with
  | none => rfl
  | some name =>
    obtain ⟨declaring, _, rfl, _⟩ := (linked name).mp rfl
    rw [markFound, if_neg (naturalKey_ne_empty declaring)]
    rfl

/-- Writing the next payload settles it with those before. -/
theorem settled_written (batch : Batch writer (earlier ++ [payload])) (accepts : Accepts payload)
    (settled : Settled writer earlier store) :
    Settled writer (earlier ++ [payload]) (writer.written engine payload none store) := by
  have free := lookup_next batch settled
  have puts : writer.Puts payload store := by simp [Puts, free]
  have version : writer.nextVersion payload store = 1 := by rw [nextVersion, free]
  have links := @linked_successorOf _ engine _ _ _ batch accepts settled
  constructor
  · intro other member
    rw [written, lookup_markAll, lookup_upserted]
    rcases List.mem_append.mp member with before | single
    · obtain ⟨successor, linked, stored⟩ := settled.holds other before
      have different : ¬(writer.Puts payload store ∧
          writer.recordPlace other = writer.recordPlace payload) :=
        fun both => eq_of_recordPlace batch before both.2.symm
      rw [if_neg different, stored, Option.map_some]
      by_cases declares : other.naturalKey ∈ payload.supersedes
      · -- the payload comes after the one it supersedes, and its own write marks it
        rw [if_pos ((marks_iff batch member).mpr declares)]
        refine ⟨some payload.naturalKey, fun name => ⟨?_, ?_⟩, rfl⟩
        · rintro ⟨⟩
          exact ⟨payload, by simp, rfl, declares⟩
        · rintro ⟨declaring, among, rfl, lists⟩
          exact congrArg some
            (batch.once payload (by simp) declaring among other member declares lists)
      · rw [if_neg (mt (marks_iff batch member).mp declares)]
        exact ⟨successor, linked_append declares linked, rfl⟩
    · obtain rfl := List.mem_singleton.mp single
      -- a payload that supersedes this one was found by the lookup, or is still to come
      rw [if_pos ⟨puts, rfl⟩, Option.map_some,
        if_neg (mt (marks_iff batch member).mp other.valid.notItself), putValue, version,
        markFound_storedValue links]
      exact ⟨_, linked_append other.valid.notItself links, rfl⟩
  · intro place value stored
    rw [written, lookup_markAll] at stored
    obtain ⟨source, found, _⟩ := Option.map_eq_some_iff.mp stored
    rw [lookup_upserted] at found
    split at found
    · rename_i here
      exact ⟨payload, by simp, here.2⟩
    · obtain ⟨other, among, here⟩ := settled.only place source found
      exact ⟨other, by simp [among], here⟩

theorem card_keys_le_of_settled (settled : Settled writer earlier store) :
    store.keys.card ≤ earlier.length := by
  rw [← List.length_map (f := writer.recordPlace)]
  refine le_trans (Finset.card_le_card fun place member => ?_) (List.toFinset_card_le _)
  obtain ⟨value, stored⟩ := mem_keys_iff.mp member
  obtain ⟨payload, among, rfl⟩ := settled.only place value stored
  exact List.mem_toFinset.mpr (List.mem_map_of_mem among)

/-- Writing the rest of a batch settles it with what was written before. -/
theorem run_writeEach {rest : List Payload} (batch : Batch writer (earlier ++ rest))
    (accepts : ∀ payload ∈ rest, Accepts payload)
    (room : (earlier ++ rest).length ≤ forwardPage * writer.pages)
    (settled : Settled writer earlier store) :
    ∃ after, (writer.writeEach rest).run (storeWorld engine) store = (.returned (), after) ∧
      Settled writer (earlier ++ rest) after := by
  induction rest generalizing earlier store with
  | nil => exact ⟨store, rfl, by rwa [List.append_nil]⟩
  | cons payload rest inductionHypothesis =>
    obtain ⟨first, others⟩ := List.forall_mem_cons.mp accepts
    rw [List.append_cons] at batch room
    have next := @settled_written _ engine _ _ _ (batch.sublist (List.sublist_append_left _ _)) first
      settled
    have few : (engine.ranking (listing (recordNamespace payload)) store).length <
        forwardPage * writer.pages := by
      have listed := length_ranking_le engine (listing (recordNamespace payload)) store
      have kept := card_keys_le_of_settled settled
      simp only [List.length_append, List.length_cons, List.length_nil] at room
      omega
    obtain ⟨after, ran, done⟩ := inductionHypothesis batch others room next
    refine ⟨after, ?_, by rwa [List.append_cons]⟩
    rw [writeEach, Program.run_bind, run_write_of_accepts first few]
    exact ran

end

/-! ### The order of a batch -/

section

variable {engine : SearchEngine} {payloads reordered : List Payload} {project payloadType : String}

/-- Payloads of one namespace and type are refused alike. -/
theorem write_refused_alike {first second : Payload} {episodeMeta : Option EpisodeMeta}
    (sameType : second.payloadType = first.payloadType)
    (sameNamespace : recordNamespace second = recordNamespace first) (refused : ¬Accepts first) :
    ∃ error, writer.write first episodeMeta = lift (.error error) ∧
      writer.write second episodeMeta = lift (.error error) := by
  unfold write
  rw [sameType, sameNamespace]
  cases known : raiseIf (registered first.payloadType = false) _ with
  | error error => exact ⟨error, lift_error_bind _ _, lift_error_bind _ _⟩
  | ok done =>
    cases valid : validateNamespace (recordNamespace first) with
    | error error => exact ⟨error, rfl, rfl⟩
    | ok done =>
      refine absurd ⟨?_, validateNamespace_eq_ok.mp valid⟩ refused
      simpa using raiseIf_eq_ok.mp known

theorem recordNamespace_of_one {payload : Payload}
    (one : payload.project = project ∧ payload.payloadType = payloadType) :
    recordNamespace payload = ["fleet_memory", project, payloadType] := by
  rw [recordNamespace, one.1, one.2]

/-- A batch of one project and type that is refused is refused in any order. -/
theorem run_writeBatch_of_refused
    (one : ∀ payload ∈ payloads, payload.project = project ∧ payload.payloadType = payloadType)
    (distinct : (payloads.map fun payload => payload.naturalKey).Nodup)
    {refusedOne : Payload} (member : refusedOne ∈ payloads) (refused : ¬Accepts refusedOne) :
    ∃ error, writer.write refusedOne none = lift (.error error) ∧
      (writer.writeBatch payloads).run (storeWorld engine) ∅ = (.raised error, ∅) := by
  rw [writeBatch_of_nodup distinct]
  cases payloads with
  | nil => cases member
  | cons first rest =>
    obtain ⟨ofFirst, _⟩ := List.forall_mem_cons.mp one
    have ofRefused := one refusedOne member
    obtain ⟨error, raised, raisedFirst⟩ := @write_refused_alike writer refusedOne first none
      (ofFirst.2.trans ofRefused.2.symm)
      ((recordNamespace_of_one ofFirst).trans (recordNamespace_of_one ofRefused).symm) refused
    exact ⟨error, raised, by rw [writeEach, raisedFirst, lift_error_bind, run_lift_error]⟩

/-- Written from the empty store in another order, a batch of one project and type ends the same
way and leaves the same store. If its project is accepted, it leaves one record for each payload,
at version one, marked by the payload that declares its key and by no other. -/
theorem writeBatch_perm (writer : DeterministicWriter) (engine : SearchEngine)
    (one : ∀ payload ∈ payloads, payload.project = project ∧ payload.payloadType = payloadType)
    (distinct : (payloads.map fun payload => payload.naturalKey).Nodup)
    (once : ∀ declared ∈ payloads, ∀ first ∈ payloads, ∀ second ∈ payloads,
      declared.naturalKey ∈ first.supersedes → declared.naturalKey ∈ second.supersedes →
        first = second)
    (apart : ∀ payload ∈ payloads, ∀ other ∈ payloads,
      ∀ key ∈ other.naturalKey :: other.supersedes,
        writer.runtime.uuid5 key = writer.runtime.uuid5 payload.naturalKey →
          key = payload.naturalKey)
    (room : payloads.length ≤ forwardPage * writer.pages) (perm : reordered.Perm payloads) :
    (writer.writeBatch reordered).run (storeWorld engine) ∅ =
      (writer.writeBatch payloads).run (storeWorld engine) ∅ ∧
    ((∀ payload ∈ payloads, Accepts payload) →
      ∃ store, (writer.writeBatch payloads).run (storeWorld engine) ∅ = (.returned (), store) ∧
        (∀ place, place ∈ store.keys ↔
          ∃! payload, payload ∈ payloads ∧ place = writer.recordPlace payload) ∧
        ∀ payload ∈ payloads, ∃ value, store.lookup (writer.recordPlace payload) = some value ∧
          value.content = Json.dumps (.dict payload.modelDump) ∧ value.version = some 1 ∧
          value.supersedes = (if payload.supersedes = [] then none else some payload.supersedes) ∧
          ∀ successor, value.supersededBy = some successor ↔
            ∃ declaring ∈ payloads, declaring.naturalKey = successor ∧
              payload.naturalKey ∈ declaring.supersedes) := by
  have batch : Batch writer payloads :=
    { together := fun first inFirst second inSecond =>
        (recordNamespace_of_one (one first inFirst)).trans
          (recordNamespace_of_one (one second inSecond)).symm
      distinct
      once := fun first inFirst second inSecond declared inDeclared ofFirst ofSecond =>
        congrArg (fun payload : Payload => payload.naturalKey)
          (once declared inDeclared first inFirst second inSecond ofFirst ofSecond)
      apart }
  have otherBatch := batch.perm perm
  by_cases accepts : ∀ payload ∈ payloads, Accepts payload
  · obtain ⟨store, ran, settled⟩ := @run_writeEach writer engine ∅ [] payloads batch accepts room
      settled_empty
    obtain ⟨other, otherRan, otherSettled⟩ := @run_writeEach writer engine ∅ [] reordered
      otherBatch (fun payload member => accepts payload (perm.mem_iff.mp member))
      (perm.length_eq.trans_le room) settled_empty
    rw [List.nil_append] at settled otherSettled
    rw [writeBatch_of_nodup distinct, writeBatch_of_nodup otherBatch.distinct, ran, otherRan,
      settled.unique otherSettled perm]
    refine ⟨rfl, fun _ => ⟨store, rfl, fun place => ?_, fun payload member => ?_⟩⟩
    · rw [mem_keys_iff]
      constructor
      · rintro ⟨value, stored⟩
        obtain ⟨payload, member, here⟩ := settled.only place value stored
        refine ⟨payload, ⟨member, here⟩, ?_⟩
        rintro other ⟨among, there⟩
        have key := apart payload member other among _ List.mem_cons_self
          (congrArg Place.key (there.symm.trans here))
        exact List.inj_on_of_nodup_map distinct among member key
      · rintro ⟨payload, ⟨member, rfl⟩, _⟩
        obtain ⟨successor, _, stored⟩ := settled.holds payload member
        exact ⟨_, stored⟩
    · obtain ⟨successor, linked, stored⟩ := settled.holds payload member
      exact ⟨_, stored, rfl, rfl, rfl, linked⟩
  · obtain ⟨refusedOne, member, refused⟩ : ∃ payload ∈ payloads, ¬Accepts payload := by
      simpa using accepts
    obtain ⟨error, raised, ran⟩ := @run_writeBatch_of_refused writer engine payloads project
      payloadType one distinct refusedOne member refused
    obtain ⟨otherError, otherRaised, otherRan⟩ := @run_writeBatch_of_refused writer engine
      reordered project payloadType (fun payload among => one payload (perm.mem_iff.mp among))
      otherBatch.distinct refusedOne (perm.mem_iff.mpr member) refused
    refine ⟨?_, fun all => absurd all accepts⟩
    rw [ran, otherRan, lift_error_inj.mp (otherRaised.symm.trans raised)]

/-- A successor and its predecessor, in both orders. -/
theorem writeBatch_perm_pair :
    (sampleWriter.writeBatch [predecessorOfA, successorInA]).run (storeWorld sampleEngine) ∅ =
      (sampleWriter.writeBatch [successorInA, predecessorOfA]).run (storeWorld sampleEngine) ∅ ∧
    ∃ store value,
      (sampleWriter.writeBatch [successorInA, predecessorOfA]).run (storeWorld sampleEngine) ∅ =
        (.returned (), store) ∧
      store.lookup (sampleWriter.recordPlace predecessorOfA) = some value ∧
      value.supersededBy = some "adr:a:S" := by
  have declares {payload : Payload} (member : payload ∈ [successorInA, predecessorOfA])
      {key : String} (listed : key ∈ payload.supersedes) : payload = successorInA := by
    rcases List.mem_cons.mp member with rfl | single
    · rfl
    · rw [List.mem_singleton.mp single] at listed
      cases listed
  have pair := @writeBatch_perm [successorInA, predecessorOfA] [predecessorOfA, successorInA] "a"
    "adr" sampleWriter sampleEngine (List.forall_mem_cons.mpr
      ⟨⟨rfl, rfl⟩, List.forall_mem_cons.mpr ⟨⟨rfl, rfl⟩, by simp⟩⟩) (by decide)
    (fun _ _ first inFirst second inSecond ofFirst ofSecond =>
      (declares inFirst ofFirst).trans (declares inSecond ofSecond).symm)
    (by decide) (by decide) (List.Perm.swap _ _ [])
  refine ⟨pair.1, ?_⟩
  obtain ⟨store, ran, _, settled⟩ := pair.2 (by
    intro payload member
    rcases List.mem_cons.mp member with rfl | single
    · exact ⟨by decide, by decide⟩
    · rw [List.mem_singleton.mp single]
      exact ⟨by decide, by decide⟩)
  obtain ⟨value, stored, _, _, _, linked⟩ := settled predecessorOfA (by simp)
  exact ⟨store, value, ran, stored, (linked _).mpr ⟨successorInA, by simp, rfl, by decide⟩⟩

end

end DeterministicWriter

end FleetMemory
