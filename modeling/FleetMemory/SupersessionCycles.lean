/-
This file proves when supersession links stay free of cycles. A write turns the links of the
stored records it lists towards its own record; that closes a cycle exactly when the chain
the written record is on leads back to it, or to a record it lists.
-/

import FleetMemory.Pointers
import FleetMemory.WriteFrames

namespace FleetMemory

open StoreProgram Transitions DeterministicWriter Pointers Distinct

/-! ### The links of a store -/

/-- Where the record stands that the record of a place is marked as superseded by. -/
def successorPlace (runtime : Runtime) (store : Store) (place : Place) : Option Place :=
  ((store.lookup place).bind fun value => value.supersededBy).bind (keyPlace runtime)

/-- A place whose link a call turns to its own record: the payload lists it, and a record stands
there when the call marks it. -/
def turnedBy (writer : DeterministicWriter) (call : WriteCall) (store : Store) : Set Place :=
  {place | Lists writer call.payload place ∧
    (place = writer.recordPlace call.payload ∨ (store.lookup place).isSome = true)}

/-- Where the link of a call's own record leads: to the successor it is put marked for, or where
it led, when the record is kept. -/
def ownSuccessor (writer : DeterministicWriter) (call : WriteCall) (store : Store) :
    Option Place :=
  if writer.Puts call.payload store then (call.found store).bind (keyPlace writer.runtime)
  else successorPlace writer.runtime store (writer.recordPlace call.payload)

section

variable {writer : DeterministicWriter} {store : Store} {call : WriteCall} {place : Place}

/-- A record that is not put is stored. -/
theorem isSome_of_not_puts (kept : ¬writer.Puts call.payload store) :
    (store.lookup (writer.recordPlace call.payload)).isSome = true := by
  obtain ⟨existing, stored, _⟩ := Option.bind_eq_some_iff.mp (not_not.mp kept)
  rw [stored]
  rfl

/-- A call marks a record that is stored, or is its own. -/
theorem exists_upserted
    (present : place = writer.recordPlace call.payload ∨ (store.lookup place).isSome = true) :
    ∃ value, (if writer.Puts call.payload store ∧ place = writer.recordPlace call.payload then
      some (call.putValue writer store) else store.lookup place) = some value := by
  split
  · exact ⟨_, rfl⟩
  · rename_i notPut
    refine Option.isSome_iff_exists.mp ?_
    rcases present with own | stored
    · rw [own]
      exact isSome_of_not_puts fun puts => notPut ⟨puts, own⟩
    · exact stored

/-- A record a payload lists is marked, if it is there. -/
theorem successorPlace_of_lists (lists : Lists writer call.payload place)
    (present : place = writer.recordPlace call.payload ∨ (store.lookup place).isSome = true) :
    successorPlace writer.runtime (call.leaves writer store) place =
      some (writer.recordPlace call.payload) := by
  obtain ⟨value, found⟩ := exists_upserted present
  rw [successorPlace, lookup_leaves, found, Option.map_some, if_pos lists]
  exact keyPlace_naturalKey call.payload

/-- The link of a record a payload neither owns nor lists stays. -/
theorem successorPlace_of_not_lists (other : place ≠ writer.recordPlace call.payload)
    (untouched : place ∉ turnedBy writer call store) :
    successorPlace writer.runtime (call.leaves writer store) place =
      successorPlace writer.runtime store place := by
  rw [successorPlace, successorPlace, lookup_leaves, if_neg fun both => other both.2]
  cases stored : store.lookup place with
  | none => rfl
  | some value =>
    have unlisted : ¬Lists writer call.payload place := fun lists =>
      untouched ⟨lists, Or.inr (by rw [stored]; rfl)⟩
    rw [Option.map_some, if_neg unlisted]

/-- A call turns the links of the stored records it lists to its own record. -/
theorem turned_leaves : Turned (successorPlace writer.runtime store)
    (successorPlace writer.runtime (call.leaves writer store))
    (writer.recordPlace call.payload) (turnedBy writer call store) where
  turned _ member := successorPlace_of_lists member.1 member.2
  kept _ other untouched := successorPlace_of_not_lists other untouched

/-- The mark a record is put with names the place of the successor found. -/
theorem keyPlace_putValue : ((call.putValue writer store).supersededBy).bind
    (keyPlace writer.runtime) = (call.found store).bind (keyPlace writer.runtime) := by
  unfold WriteCall.putValue markFound
  cases call.found store with
  | none => rfl
  | some successor =>
    dsimp only
    split
    · rename_i empty
      subst empty
      rfl
    · rfl

/-- The link of a call's own record, when the payload does not list it. -/
theorem successorPlace_own (unlisted : ¬Lists writer call.payload (writer.recordPlace call.payload)) :
    successorPlace writer.runtime (call.leaves writer store) (writer.recordPlace call.payload) =
      ownSuccessor writer call store := by
  rw [successorPlace, lookup_leaves, ownSuccessor]
  by_cases puts : writer.Puts call.payload store
  · rw [if_pos ⟨puts, rfl⟩, if_pos puts, Option.map_some, if_neg unlisted, Option.bind_some,
      keyPlace_putValue]
  · rw [if_neg fun both => puts both.1, if_neg puts, successorPlace]
    simp only [if_neg unlisted]
    rw [Option.map_id']

end

/-! ### What a call does to cycles -/

/-- The payload lists no key of its own record's place, and the chain of links from the record its
own will be marked for leads neither to its own record nor to a stored record it lists. -/
def ClosesNoCycle (writer : DeterministicWriter) (store : Store) (call : WriteCall) : Prop :=
  ¬Lists writer call.payload (writer.recordPlace call.payload) ∧
    ∀ successor, ownSuccessor writer call store = some successor →
      ∀ last, Relation.ReflTransGen (Points (successorPlace writer.runtime store)) successor last →
        last ≠ writer.recordPlace call.payload ∧
          ¬(Lists writer call.payload last ∧ (store.lookup last).isSome = true)

/-- The links of a store have no cycle. -/
def LinksAcyclic (runtime : Runtime) (store : Store) : Prop :=
  Acyclic (successorPlace runtime store)

section

variable {writer : DeterministicWriter} {store after : Store} {call : WriteCall} {place : Place}
  {value : StoredValue}

/-- A call keeps the links free of cycles exactly when it closes none. -/
theorem linksAcyclic_leaves_iff (acyclic : LinksAcyclic writer.runtime store) :
    LinksAcyclic writer.runtime (call.leaves writer store) ↔ ClosesNoCycle writer store call := by
  have own : writer.recordPlace call.payload ∉ turnedBy writer call store ↔
      ¬Lists writer call.payload (writer.recordPlace call.payload) :=
    not_congr ⟨fun member => member.1, fun lists => ⟨lists, Or.inl rfl⟩⟩
  have other : ∀ last, (last ≠ writer.recordPlace call.payload ∧
      last ∉ turnedBy writer call store) ↔ last ≠ writer.recordPlace call.payload ∧
        ¬(Lists writer call.payload last ∧ (store.lookup last).isSome = true) := by
    intro last
    refine and_congr_right fun apart => not_congr (and_congr_right fun _ => ?_)
    exact ⟨fun present => present.resolve_left apart, Or.inr⟩
  rw [LinksAcyclic, turned_leaves.acyclic_iff acyclic, own, ClosesNoCycle]
  refine and_congr_right fun unlisted => ?_
  simp only [successorPlace_own unlisted, other]

/-! ### Chains end in a current record -/

/-- The engine, ranking the record of a place before the others. -/
def SearchEngine.preferring (engine : SearchEngine) (place : Place) : SearchEngine where
  selects := engine.selects
  score := engine.score
  ranking scope store := (engine.ranking scope store).filter (fun item => item.place = place) ++
    (engine.ranking scope store).filter (fun item => ¬item.place = place)
  ranking_nodup scope store := by
    refine (List.Perm.nodup_iff (List.Perm.map _ ?_)).mpr (engine.ranking_nodup scope store)
    simpa using List.filter_append_perm (fun item : Item => decide (item.place = place))
      (engine.ranking scope store)
  mem_ranking scope store item := by
    rw [← engine.mem_ranking scope store item, List.mem_append, List.mem_filter, List.mem_filter]
    by_cases here : item.place = place <;> simp [here]
  selects_own := engine.selects_own

/-- A plain search of the record's project that looks through the record returns it, where it is
ranked first. -/
def StillReturned (runtime : Runtime) (store : Store) (place : Place) (value : StoredValue) :
    Prop :=
  ∀ (engine : SearchEngine) (request : SearchRequest), request.Plain →
    place.namespaceParts[1]? = some request.project →
    engine.selects (partitionScope request none) place value = true →
      ∃ items, (search runtime request).run (storeWorld (engine.preferring place)) store =
          (.returned items, store) ∧ ∃ item ∈ items, item.place = place ∧ item.value = value

/-- A stored record without a mark is still returned. -/
theorem stillReturned_of_current {runtime : Runtime} (stored : store.lookup place = some value)
    (current : value.supersededBy = none) : StillReturned runtime store place value := by
  intro engine request plain project selected
  obtain ⟨item, ranked, rfl, rfl⟩ := exists_mem_ranking stored selected
  have here : item ∈ (engine.ranking (partitionScope request none) store).filter
      (fun other => other.place = item.place) := by simp [ranked]
  have alone : ∀ other ∈ (engine.ranking (partitionScope request none) store).filter
      (fun other => other.place = item.place), other = item := by
    intro other member
    obtain ⟨inRanking, same⟩ := List.mem_filter.mp member
    exact List.inj_on_of_nodup_map (engine.ranking_nodup _ _) inRanking ranked (by simpa using same)
  obtain ⟨first, rest, split⟩ := List.exists_cons_of_ne_nil (List.ne_nil_of_mem here)
  obtain rfl := alone first (by rw [split]; exact List.mem_cons_self)
  have leads : (engine.preferring first.place).ranking (partitionScope request none) store =
      first :: (rest ++ (engine.ranking (partitionScope request none) store).filter
        (fun other => ¬other.place = first.place)) :=
    congrArg (fun rows => rows ++ (engine.ranking (partitionScope request none) store).filter
      fun other => ¬other.place = first.place) split
  have unmarked : first.value.marked = false := by rw [StoredValue.marked, current]; rfl
  obtain ⟨items, ran, member⟩ := run_search_of_first runtime plain leads
    (by simpa [matchesProject] using project) unmarked
  exact ⟨items, ran, first, member, rfl, rfl⟩

/-- Records and marks go back to calls whose own records are stored. -/
def Grounded (writer : DeterministicWriter) (store : Store) : Prop :=
  ∃ calls, Sourced writer calls store ∧
    ∀ call ∈ calls, (store.lookup (writer.recordPlace call.payload)).isSome = true

theorem grounded_empty : Grounded writer ∅ := by
  refine ⟨[], fun place value stored => ?_, by simp⟩
  cases stored

theorem grounded_callStep (grounded : Grounded writer store)
    (step : CallStep writer store call after) : Grounded writer after := by
  obtain ⟨_, rfl⟩ := leaves_of_callStep step
  obtain ⟨calls, sourced, present⟩ := grounded
  refine ⟨calls ++ [call], sourced_leaves sourced, fun earlier member => ?_⟩
  have there : writer.recordPlace earlier.payload = writer.recordPlace call.payload ∨
      (store.lookup (writer.recordPlace earlier.payload)).isSome = true := by
    rcases List.mem_append.mp member with before | itself
    · exact Or.inr (present earlier before)
    · exact Or.inl (by rw [List.mem_singleton.mp itself])
  obtain ⟨value, found⟩ := exists_upserted there
  rw [lookup_leaves, found]
  rfl

/-- A marked record's link leads to a stored record. -/
theorem successorPlace_of_marked (grounded : Grounded writer store)
    (stored : store.lookup place = some value) {successor : String}
    (marked : value.supersededBy = some successor) :
    ∃ next, successorPlace writer.runtime store place = some next ∧
      (store.lookup next).isSome = true := by
  obtain ⟨calls, sourced, present⟩ := grounded
  obtain ⟨call, member, rfl, _⟩ := (sourced place value stored).2 successor marked
  refine ⟨writer.recordPlace call.payload, ?_, present call member⟩
  rw [successorPlace, stored, Option.bind_some, marked]
  exact keyPlace_naturalKey call.payload

end

/-- The links of stored records have no cycle, and every set of stored records that the links do
not lead out of has a member without a mark, which a default search still returns. -/
structure ChainsEnd (runtime : Runtime) (store : Store) : Prop where
  acyclic : LinksAcyclic runtime store
  current : ∀ places : Set Place, places.Nonempty →
    (∀ place ∈ places, (store.lookup place).isSome = true) →
    (∀ place ∈ places, ∀ next, successorPlace runtime store place = some next →
      (store.lookup next).isSome = true → next ∈ places) →
    ∃ place ∈ places, ∃ value, store.lookup place = some value ∧ value.supersededBy = none ∧
      StillReturned runtime store place value

/-- Where every mark leads to a stored record, chains end as soon as there are no cycles. -/
theorem chainsEnd_of_acyclic {writer : DeterministicWriter} {store : Store}
    (grounded : Grounded writer store) (acyclic : LinksAcyclic writer.runtime store) :
    ChainsEnd writer.runtime store := by
  refine ⟨acyclic, fun places nonempty stored closed => ?_⟩
  have finite : places.Finite := by
    refine (Finset.finite_toSet store.keys).subset fun place member => ?_
    exact mem_keys_iff.mpr (Option.isSome_iff_exists.mp (stored place member))
  obtain ⟨place, member, ends⟩ := exists_last acyclic finite nonempty
  obtain ⟨value, found⟩ := Option.isSome_iff_exists.mp (stored place member)
  have current : value.supersededBy = none := by
    cases marked : value.supersededBy with
    | none => rfl
    | some successor =>
      obtain ⟨next, leads, there⟩ := successorPlace_of_marked grounded found marked
      exact absurd (closed place member next leads there) (ends next leads)
  exact ⟨place, member, value, found, current, stillReturned_of_current found current⟩

theorem callStep_functional (writer : DeterministicWriter) : Functional (CallStep writer) := by
  intro store call first second one other
  exact (Prod.mk.inj (Eq.trans (Eq.symm one) other)).2

/-- In a run of writes that return, the links are free of cycles in every state, and every chain
ends in a record a default search still returns, exactly when no write of the run closes a
cycle. -/
theorem chainsEnd_iff (writer : DeterministicWriter) (calls : List WriteCall) (final : Store)
    (run : Run (CallStep writer) ∅ calls final) :
    (∀ past reached, past <+: calls → Run (CallStep writer) ∅ past reached →
        ChainsEnd writer.runtime reached) ↔
      Run (Guarded (CallStep writer) (ClosesNoCycle writer)) ∅ calls final := by
  refine run.always_iff (callStep_functional writer) (Grounded writer)
    (ChainsEnd writer.runtime) grounded_empty ?_ (fun _ _ _ => grounded_callStep) ?_
  · refine chainsEnd_of_acyclic grounded_empty fun place cycle => ?_
    obtain ⟨_, points, _⟩ := Relation.TransGen.head'_iff.mp cycle
    cases points
  · intro state call next grounded ends step
    have after := grounded_callStep grounded step
    obtain ⟨_, rfl⟩ := leaves_of_callStep step
    rw [← linksAcyclic_leaves_iff ends.acyclic]
    exact ⟨fun chains => chains.acyclic, chainsEnd_of_acyclic after⟩

/-! ### Sample runs -/

section Sample

/-- The record of a first sample call, and nothing else. -/
theorem lookup_sample_first (payload : Payload)
    (own : ¬Lists sampleWriter payload (sampleWriter.recordPlace payload)) (place : Place) :
    ((sampleCall payload).leaves sampleWriter ∅).lookup place =
      if place = sampleWriter.recordPlace payload then
        some ((sampleCall payload).putValue sampleWriter ∅)
      else none := by
  rw [lookup_leaves]
  by_cases here : place = sampleWriter.recordPlace payload
  · rw [if_pos ⟨puts_empty _ _, here⟩, if_pos here, Option.map_some, if_neg (here ▸ own)]
  · rw [if_neg fun both => here both.2, if_neg here]
    rfl

/-- A record put on the empty store declares what its payload does. -/
theorem putValue_sampleCall (payload : Payload) :
    ((sampleCall payload).putValue sampleWriter ∅).naturalKey = some payload.naturalKey ∧
      ∀ key, ((sampleCall payload).putValue sampleWriter ∅).declares key =
        payload.supersedes.contains key := by
  constructor
  · rw [WriteCall.putValue, markFound_naturalKey]
    rfl
  · intro key
    rw [WriteCall.putValue, markFound_declares, storedValue_declares]
    rfl

/-- The two sample calls return. -/
theorem run_sampleCalls {payload : Payload} (accepts : Accepts payload) :
    Run (CallStep sampleWriter) ∅ [sampleCall payload, sampleCall successorInA]
      ((sampleCall successorInA).leaves sampleWriter
        ((sampleCall payload).leaves sampleWriter ∅)) :=
  (Run.single (callStep_sampleCall accepts (by decide))).append
    (Run.single (callStep_sampleCall ⟨by decide, by decide⟩
      ((@card_keys_leaves sampleWriter ∅ (sampleCall payload)).trans_lt (by decide))))

/-- A lookup none of whose pages fails finds the first declarer. -/
theorem found_sampleCall (payload : Payload) (store : Store) :
    (sampleCall payload).found store =
      successorOf sampleEngine store payload.naturalKey (recordNamespace payload) := by
  have read : PagesRead payload.naturalKey
      (sampleEngine.ranking (listing (recordNamespace payload)) store) [] := fun _ _ => rfl
  exact if_pos read

/-- A call that finds no declarer puts its record without a link. -/
theorem closesNoCycle_of_undeclared {store : Store} {payload : Payload}
    (own : ¬Lists sampleWriter payload (sampleWriter.recordPlace payload))
    (puts : sampleWriter.Puts payload store)
    (undeclared : ∀ place value, store.lookup place = some value →
      value.declares payload.naturalKey = false) :
    ClosesNoCycle sampleWriter store (sampleCall payload) := by
  have missing : (sampleCall payload).found store = none := by
    rw [found_sampleCall]
    exact successorOf_eq_none fun place value stored _ => undeclared place value stored
  have unlinked : ownSuccessor sampleWriter (sampleCall payload) store = none :=
    Eq.trans (if_pos puts) (by rw [missing]; rfl)
  refine ⟨own, fun successor leads => ?_⟩
  rw [unlinked] at leads
  cases leads

/-- A predecessor is written, then its successor: no write closes a cycle. -/
theorem chainsEnd_iff_predecessor_first :
    ∃ final, Run (CallStep sampleWriter) ∅ [sampleCall predecessorOfA, sampleCall successorInA]
        final ∧
      ∀ past reached, past <+: [sampleCall predecessorOfA, sampleCall successorInA] →
        Run (CallStep sampleWriter) ∅ past reached → ChainsEnd sampleRuntime reached := by
  have run := @run_sampleCalls predecessorOfA ⟨by decide, by decide⟩
  have stored := lookup_sample_first predecessorOfA (by decide)
  have first : Guarded (CallStep sampleWriter) (ClosesNoCycle sampleWriter) ∅
      (sampleCall predecessorOfA) _ :=
    ⟨callStep_sampleCall ⟨by decide, by decide⟩ (by decide),
      closesNoCycle_of_undeclared (by decide) (puts_empty _ _) fun _ _ impossible => by
        cases impossible⟩
  have second : Guarded (CallStep sampleWriter) (ClosesNoCycle sampleWriter)
      ((sampleCall predecessorOfA).leaves sampleWriter ∅) (sampleCall successorInA)
      ((sampleCall successorInA).leaves sampleWriter
        ((sampleCall predecessorOfA).leaves sampleWriter ∅)) := by
    refine ⟨callStep_sampleCall ⟨by decide, by decide⟩
      ((@card_keys_leaves sampleWriter ∅ (sampleCall predecessorOfA)).trans_lt (by decide)),
      closesNoCycle_of_undeclared (by decide) ?_ fun place value found => ?_⟩
    · rw [Puts, stored, if_neg (by decide)]
      simp
    · rw [stored] at found
      split at found
      · obtain rfl := Option.some.inj found
        exact (putValue_sampleCall predecessorOfA).2 _
      · cases found
  exact ⟨_, run, (chainsEnd_iff sampleWriter _ _ run).mpr
    ((Run.single first).append (Run.single second))⟩

/-- An ADR of project `a` that supersedes its successor. -/
def mutualOfA : Payload where
  toPayloadFields := adrFields "a" "P" "d" ["adr:a:S"]
  valid := ⟨by decide, by decide, by decide, by decide, by decide, by decide⟩

/-- Two ADRs that declare each other superseded are written: each is marked for the other. -/
theorem cycle_of_mutual_declarations :
    ∃ store, Run (CallStep sampleWriter) ∅ [sampleCall mutualOfA, sampleCall successorInA] store ∧
      successorPlace sampleRuntime store (sampleWriter.recordPlace mutualOfA) =
        some (sampleWriter.recordPlace successorInA) ∧
      successorPlace sampleRuntime store (sampleWriter.recordPlace successorInA) =
        some (sampleWriter.recordPlace mutualOfA) ∧
      ¬ChainsEnd sampleRuntime store := by
  have stored := lookup_sample_first mutualOfA (by decide)
  have kept := stored (sampleWriter.recordPlace mutualOfA)
  rw [if_pos rfl] at kept
  have first : successorPlace sampleRuntime ((sampleCall successorInA).leaves sampleWriter
      ((sampleCall mutualOfA).leaves sampleWriter ∅)) (sampleWriter.recordPlace mutualOfA) =
        some (sampleWriter.recordPlace successorInA) :=
    @successorPlace_of_lists sampleWriter _ (sampleCall successorInA) _ (by decide)
      (Or.inr (by rw [kept]; rfl))
  have declares : ((sampleCall mutualOfA).putValue sampleWriter ∅).declares
      successorInA.naturalKey = true := by
    rw [(putValue_sampleCall mutualOfA).2]
    decide
  obtain ⟨other, record, present, _, found⟩ := exists_successorOf kept
    (sampleEngine.selects_own (sampleWriter.recordPlace mutualOfA) _ (by decide)) declares
  have named : record.naturalKey = some "adr:a:P" := by
    rw [stored] at present
    split at present
    · obtain rfl := Option.some.inj present
      exact (putValue_sampleCall mutualOfA).1
    · cases present
  have puts : sampleWriter.Puts successorInA ((sampleCall mutualOfA).leaves sampleWriter ∅) := by
    rw [Puts, stored, if_neg (by decide)]
    simp
  have second : successorPlace sampleRuntime ((sampleCall successorInA).leaves sampleWriter
      ((sampleCall mutualOfA).leaves sampleWriter ∅)) (sampleWriter.recordPlace successorInA) =
        some (sampleWriter.recordPlace mutualOfA) := by
    have same : (sampleCall successorInA).found ((sampleCall mutualOfA).leaves sampleWriter ∅) =
        some "adr:a:P" := (found_sampleCall _ _).trans (Eq.trans found named)
    have linked : ownSuccessor sampleWriter (sampleCall successorInA)
        ((sampleCall mutualOfA).leaves sampleWriter ∅) =
          some (sampleWriter.recordPlace mutualOfA) :=
      Eq.trans (if_pos puts) (by rw [same]; decide)
    exact (@successorPlace_own sampleWriter _ (sampleCall successorInA) (by decide)).trans linked
  exact ⟨_, run_sampleCalls ⟨by decide, by decide⟩, first, second, fun chains =>
    chains.acyclic _ (.head first (.single second))⟩

end Sample

end FleetMemory
