/-
This file proves the frame of a write and where marks come from. A write changes its own
record and the marks of the records it lists, and nothing else; so in every run each stored
mark goes back to a payload of the run that declared it.
-/

import FleetMemory.FaultyWrites
import FleetMemory.SupersessionInvariant

namespace FleetMemory

open StoreProgram Transitions DeterministicWriter

variable {writer : DeterministicWriter} {before after store : Store} {call : WriteCall}
  {calls : List WriteCall} {place : Place} {value : StoredValue}

/-! ### The frame of a call -/

/-- A record that a call changes is its own, or a stored one it lists, which it marks. -/
theorem lookup_of_callStep (step : CallStep writer before call after) (place : Place)
    (changed : after.lookup place ≠ before.lookup place) :
    place = writer.recordPlace call.payload ∨ Lists writer call.payload place ∧
      ∃ value, before.lookup place = some value ∧
        after.lookup place = some (value.markedBy call.payload.naturalKey) := by
  obtain ⟨_, rfl⟩ := leaves_of_callStep step
  by_cases own : place = writer.recordPlace call.payload
  · exact Or.inl own
  · right
    rw [lookup_leaves, if_neg fun both => own both.2] at changed ⊢
    cases stored : before.lookup place with
    | none =>
      rw [stored] at changed
      exact absurd rfl changed
    | some value =>
      rw [stored, Option.map_some] at changed
      by_cases lists : Lists writer call.payload place
      · rw [Option.map_some, if_pos lists]
        exact ⟨lists, value, rfl, rfl⟩
      · rw [if_neg lists] at changed
        exact absurd rfl changed

/-! ### Where records and marks come from -/

/-- The record was put for a payload of the calls: it carries that payload's key and
declarations. -/
def PutFor (writer : DeterministicWriter) (calls : List WriteCall) (place : Place)
    (value : StoredValue) : Prop :=
  ∃ call ∈ calls, place = writer.recordPlace call.payload ∧
    value.naturalKey = some call.payload.naturalKey ∧
    ∀ key, value.declares key = call.payload.supersedes.contains key

/-- A mark on the record is the key of a payload of the calls that lists it. -/
def MarkedFor (writer : DeterministicWriter) (calls : List WriteCall) (place : Place)
    (value : StoredValue) : Prop :=
  ∀ successor, value.supersededBy = some successor →
    ∃ call ∈ calls, call.payload.naturalKey = successor ∧ Lists writer call.payload place

/-- Every stored record and every mark goes back to a payload of the calls. -/
def Sourced (writer : DeterministicWriter) (calls : List WriteCall) (store : Store) : Prop :=
  ∀ place value, store.lookup place = some value →
    PutFor writer calls place value ∧ MarkedFor writer calls place value

theorem PutFor.concat (put : PutFor writer calls place value) (call : WriteCall) :
    PutFor writer (calls ++ [call]) place value := by
  obtain ⟨earlier, member, rest⟩ := put
  exact ⟨earlier, List.mem_append_left _ member, rest⟩

theorem MarkedFor.concat (marked : MarkedFor writer calls place value) (call : WriteCall) :
    MarkedFor writer (calls ++ [call]) place value := by
  intro successor mark
  obtain ⟨earlier, member, rest⟩ := marked successor mark
  exact ⟨earlier, List.mem_append_left _ member, rest⟩

/-- A payload's record stands at a place that every payload declaring its key lists. -/
theorem lists_recordPlace {payload successor : Payload}
    (declares : payload.naturalKey ∈ successor.supersedes) :
    Lists writer successor (writer.recordPlace payload) :=
  ⟨payload.naturalKey, declares, keyPlace_naturalKey payload⟩

/-- The record a call puts goes back to the call, and its mark to the record that was found. -/
theorem sourced_putValue (sourced : Sourced writer calls store) :
    PutFor writer (calls ++ [call]) (writer.recordPlace call.payload)
        (call.putValue writer store) ∧
      MarkedFor writer (calls ++ [call]) (writer.recordPlace call.payload)
        (call.putValue writer store) := by
  constructor
  · refine ⟨call, List.mem_append_right _ List.mem_cons_self, rfl, ?_, fun key => ?_⟩
    · rw [WriteCall.putValue, markFound_naturalKey]
      rfl
    · rw [WriteCall.putValue, markFound_declares, storedValue_declares]
  · intro successor mark
    have found : call.found store = some successor := by
      unfold WriteCall.putValue markFound at mark
      cases lookup : call.found store with
      | none =>
        rw [lookup] at mark
        cases mark
      | some name =>
        rw [lookup] at mark
        dsimp only at mark
        split at mark
        · cases mark
        · exact mark
    obtain ⟨other, record, stored, declares, key⟩ := declarer_of_found found
    obtain ⟨⟨earlier, member, _, name, same⟩, _⟩ := sourced other record stored
    rw [key] at name
    rw [same] at declares
    exact ⟨earlier, List.mem_append_left _ member, (Option.some.inj name).symm,
      lists_recordPlace (List.contains_iff_mem.mp declares)⟩

/-- A call keeps every record and every mark sourced. -/
theorem sourced_leaves (sourced : Sourced writer calls store) :
    Sourced writer (calls ++ [call]) (call.leaves writer store) := by
  intro place value stored
  rw [lookup_leaves] at stored
  obtain ⟨source, found, rfl⟩ := Option.map_eq_some_iff.mp stored
  have kept : PutFor writer (calls ++ [call]) place source ∧
      MarkedFor writer (calls ++ [call]) place source := by
    split at found
    · rename_i put
      obtain rfl := Option.some.inj found
      rw [put.2]
      exact sourced_putValue sourced
    · obtain ⟨put, marked⟩ := sourced place source found
      exact ⟨put.concat call, marked.concat call⟩
  split
  · rename_i lists
    refine ⟨kept.1, fun successor mark => ?_⟩
    exact ⟨call, List.mem_append_right _ List.mem_cons_self, Option.some.inj mark, lists⟩
  · exact kept

theorem sourced_of_run (run : Run (CallStep writer) ∅ calls store) : Sourced writer calls store := by
  refine run.invariant_of_labels (Sourced writer) ?_ ?_
  · intro place value stored
    cases stored
  · intro past state call next sourced step
    obtain ⟨_, rfl⟩ := leaves_of_callStep step
    exact sourced_leaves sourced

/-- A payload declares a key: by name, or by another key of the same identity. -/
def DeclaresKey (runtime : Runtime) (payload : Payload) (naturalKey : String) : Prop :=
  naturalKey ∈ payload.supersedes ∨ ∃ key ∈ payload.supersedes, key ≠ naturalKey ∧
    recordIdentity runtime key = recordIdentity runtime naturalKey

/-- A call that returns changes at most its own record and the marks of the stored records it
lists; so in every run from an empty store each mark is the key of a payload of the run that
declared the key of the marked record. -/
theorem frame_and_provenance (writer : DeterministicWriter) :
    (∀ before call after, CallStep writer before call after →
      ∀ place, after.lookup place ≠ before.lookup place →
        place = writer.recordPlace call.payload ∨
          ∃ key ∈ call.payload.supersedes, keyPlace writer.runtime key = some place ∧
            ∃ value, before.lookup place = some value ∧
              after.lookup place = some (value.markedBy call.payload.naturalKey)) ∧
    ∀ calls store, Run (CallStep writer) ∅ calls store →
      ∀ place value successor, store.lookup place = some value →
        value.supersededBy = some successor →
          ∃ recordKey, value.naturalKey = some recordKey ∧
            keyPlace writer.runtime recordKey = some place ∧
            ∃ call ∈ calls, call.payload.naturalKey = successor ∧
              DeclaresKey writer.runtime call.payload recordKey := by
  refine ⟨fun before call after step place changed => ?_, ?_⟩
  · rcases lookup_of_callStep step place changed with own | ⟨⟨key, member, named⟩, marked⟩
    · exact Or.inl own
    · exact Or.inr ⟨key, member, named, marked⟩
  · intro calls store run place value successor stored mark
    obtain ⟨⟨putter, _, rfl, recordKey, _⟩, marked⟩ := sourced_of_run run place value stored
    obtain ⟨call, member, name, key, listed, named⟩ := marked successor mark
    refine ⟨_, recordKey, keyPlace_naturalKey _, call, member, name, ?_⟩
    by_cases same : key = putter.payload.naturalKey
    · exact Or.inl (same ▸ listed)
    · exact Or.inr ⟨key, listed, same, (key_of_keyPlace named).symm⟩

/-! ### A sample run -/

section Sample

/-- A call whose store calls all succeed, with the sample engine. -/
def sampleCall (payload : Payload) : WriteCall where
  payload := payload
  episodeMeta := none
  engine := sampleEngine
  faults := []

/-- An accepted call returns as long as the pages it may read hold every record. -/
theorem callStep_sampleCall {payload : Payload} (accepts : Accepts payload)
    (room : store.keys.card < forwardPage * writer.pages) :
    CallStep writer store (sampleCall payload) ((sampleCall payload).leaves writer store) := by
  have step : CallStep writer store (sampleCall payload) _ :=
    callStep_of_run (@writeStep_of_accepts writer sampleEngine store ⟨payload, none⟩ accepts room)
  obtain ⟨_, same⟩ := leaves_of_callStep step
  rwa [same] at step

/-- A call adds at most one record. -/
theorem card_keys_leaves :
    (call.leaves writer store).keys.card ≤ store.keys.card + 1 := by
  rw [WriteCall.leaves, keys_markAll]
  exact card_keys_insertIf_le _ _ _ _

/-- The predecessor is written, then its successor. -/
theorem frame_and_provenance_predecessor_first :
    ∃ store value, Run (CallStep sampleWriter) ∅
        [sampleCall predecessorOfA, sampleCall successorInA] store ∧
      store.lookup (sampleWriter.recordPlace predecessorOfA) = some value ∧
      value.supersededBy = some "adr:a:S" ∧ ∃ recordKey, value.naturalKey = some recordKey ∧
        keyPlace sampleRuntime recordKey = some (sampleWriter.recordPlace predecessorOfA) ∧
        ∃ call ∈ [sampleCall predecessorOfA, sampleCall successorInA],
          call.payload.naturalKey = "adr:a:S" ∧
            DeclaresKey sampleRuntime call.payload recordKey := by
  have first := @callStep_sampleCall sampleWriter ∅ predecessorOfA ⟨by decide, by decide⟩
    (by decide)
  have second := @callStep_sampleCall sampleWriter _ successorInA ⟨by decide, by decide⟩
    ((@card_keys_leaves sampleWriter ∅ (sampleCall predecessorOfA)).trans_lt (by decide))
  have run := (Run.single first).append (Run.single second)
  have kept : ((sampleCall predecessorOfA).leaves sampleWriter ∅).lookup
      (sampleWriter.recordPlace predecessorOfA) =
        some ((sampleCall predecessorOfA).putValue sampleWriter ∅) := by
    rw [lookup_leaves, if_pos ⟨puts_empty _ _, rfl⟩, Option.map_some, if_neg (by decide)]
  have stored := @lookup_leaves sampleWriter ((sampleCall predecessorOfA).leaves sampleWriter ∅)
    (sampleCall successorInA) (sampleWriter.recordPlace predecessorOfA)
  rw [if_neg (by decide), kept, Option.map_some, if_pos (by decide)] at stored
  exact ⟨_, _, run, stored, rfl,
    (frame_and_provenance sampleWriter).2 _ _ run _ _ _ stored rfl⟩

end Sample

end FleetMemory
