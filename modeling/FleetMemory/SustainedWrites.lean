/-
This file says which invariants of a store a write sustains, whichever of its store calls fail:
those that survive putting the payload's record and marking any stored record.
-/

import FleetMemory.Writer

namespace FleetMemory

open StoreProgram DeterministicWriter

/-- Putting the payload's record and marking a stored record keep the invariant. -/
structure KeptByWrite (writer : DeterministicWriter) (payload : Payload)
    (invariant : Store → Prop) : Prop where
  put : ∀ store version episodeMeta found, invariant store → invariant
    (store.insert (writer.recordPlace payload)
      (markFound (storedValue payload (contentHash writer.runtime payload) version episodeMeta)
        found))
  mark : ∀ store place value, invariant store → store.lookup place = some value →
    invariant (store.insert place (value.markedBy payload.naturalKey))

section

variable {writer : DeterministicWriter} {engine : SearchEngine} {payload : Payload}
  {invariant : Store → Prop} {store : Store} {episodeMeta : Option EpisodeMeta}

theorem sustains_forwardPages (naturalKey : String) (namespaceParts : List String)
    (pages offset : Nat) :
    (forwardPages naturalKey namespaceParts pages offset).Sustains (storeWorld engine) invariant
      store := by
  induction pages generalizing offset with
  | zero => trivial
  | succ pages inductionHypothesis =>
    refine Program.sustains_search_bind ?_
    split
    · trivial
    · split
      · trivial
      · exact inductionHypothesis (offset + forwardPage)

theorem sustains_applySupersessions (kept : KeptByWrite writer payload invariant)
    (predecessors : List String) (holds : invariant store) :
    (applySupersessions writer.runtime payload.naturalKey predecessors).Sustains (storeWorld engine)
      invariant store := by
  induction predecessors generalizing store with
  | nil => trivial
  | cons key rest inductionHypothesis =>
    rw [applySupersessions]
    cases named : keyPlace writer.runtime key with
    | none => trivial
    | some place =>
      refine Program.sustains_get_bind ?_
      rw [storeWorld_get]
      cases stored : store.lookup place with
      | none => exact inductionHypothesis holds
      | some existing =>
        have marked := kept.mark store place existing holds stored
        exact Program.sustains_put_bind marked (inductionHypothesis marked)

theorem sustains_applyDeclared (kept : KeptByWrite writer payload invariant)
    (holds : invariant store) :
    (writer.applyDeclared payload).Sustains (storeWorld engine) invariant store := by
  unfold applyDeclared
  split
  · trivial
  · exact sustains_applySupersessions kept _ holds

theorem sustains_writeRecord (kept : KeptByWrite writer payload invariant) (version : Int)
    (episodeMeta : Option EpisodeMeta) (holds : invariant store) :
    (writer.writeRecord payload (contentHash writer.runtime payload) version episodeMeta).Sustains
      (storeWorld engine) invariant store := by
  rw [writeRecord, checkAndApplyForwardSupersession, applyForwardSupersessions, Program.bind_bind]
  refine Program.sustains_bind (Program.sustains_tryCatch (sustains_forwardPages _ _ _ _) holds
    fun _ _ _ => trivial) holds fun found after unchanged => ?_
  exact ⟨kept.put after version episodeMeta found unchanged, trivial, fun _ => trivial⟩

/-- Whichever calls fail, a write sustains the invariant. -/
theorem sustains_upsert (kept : KeptByWrite writer payload invariant)
    (episodeMeta : Option EpisodeMeta) (holds : invariant store) :
    (writer.upsert payload episodeMeta).Sustains (storeWorld engine) invariant store := by
  have puts (version : Int) : (writer.writeRecord payload (contentHash writer.runtime payload)
      version episodeMeta >>= fun _ => writer.applyDeclared payload).Sustains (storeWorld engine)
        invariant store :=
    Program.sustains_bind (sustains_writeRecord kept version episodeMeta holds) holds
      fun _ _ after => sustains_applyDeclared kept after
  refine Program.sustains_get_bind ?_
  split
  · exact puts 1
  · split
    · exact sustains_applyDeclared kept holds
    · exact puts _

theorem sustains_write (kept : KeptByWrite writer payload invariant)
    (episodeMeta : Option EpisodeMeta) (holds : invariant store) :
    (writer.write payload episodeMeta).Sustains (storeWorld engine) invariant store := by
  by_cases accepts : Accepts payload
  · rw [write_of_accepts accepts]
    exact sustains_upsert kept episodeMeta holds
  · obtain ⟨error, raises⟩ := write_of_not_accepts writer episodeMeta accepts
    rw [raises]
    trivial

end

end FleetMemory
