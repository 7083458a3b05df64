/-
This file models the declared supersession links: marking the stored predecessors of a
successor, and the lookup a write makes for a successor that was stored before it. It
proves what each leaves in the store: marking changes the `superseded_by` field of the
stored predecessors and nothing else, and the lookup finds the first record of a listing
that declares the key, however many pages the listing has.
-/

import FleetMemory.Store

namespace FleetMemory

open StoreProgram

variable (runtime : Runtime)

/-! ### The operations -/

/-- `record_identity`. -/
def recordIdentity (naturalKey : String) : String :=
  runtime.uuid5 naturalKey

/-- The namespace and store key a natural key of three segments names. -/
def keyPlace (naturalKey : String) : Option Place :=
  match Text.split ':' naturalKey with
  | [payloadType, project, _] =>
    some ⟨["fleet_memory", project, payloadType], recordIdentity runtime naturalKey⟩
  | _ => none

/-- `apply_supersessions`. -/
def applySupersessions (successorNaturalKey : String) : List String → StoreM Unit
  | [] => pure ()
  | predecessorKey :: rest =>
    match keyPlace runtime predecessorKey with
    | none => lift (.error (.valueError ("Invalid natural key format '" ++ predecessorKey ++
        "': expected type:project:identifier")))
    | some place => do
      match ← Program.get place with
      | none => applySupersessions successorNaturalKey rest
      | some existing =>
        Program.put place (existing.markedBy successorNaturalKey)
        applySupersessions successorNaturalKey rest

/-- The row declares a forward supersession of the key. -/
def declaring (naturalKey : String) (item : Item) : Bool :=
  item.value.declares naturalKey

/-- `_FORWARD_PAGE`. -/
def forwardPage : Nat := 100

/-- The page loop of `_apply_forward_supersessions`, given up after `pages` pages. -/
def forwardPages (naturalKey : String) (namespaceParts : List String) :
    Nat → Nat → StoreM (Option String)
  | 0, _ => Program.ofOutcome .hung
  | pages + 1, offset => do
    let results ← Program.search
      { scope := listing namespaceParts, limit := forwardPage, offset }
    match results.find? (declaring naturalKey) with
    | some item => return item.value.naturalKey
    | none =>
      if results.length < forwardPage then return none
      else forwardPages naturalKey namespaceParts pages (offset + forwardPage)

/-- A page is read, and the next one when no record of the page declares the key. -/
theorem forwardPages_succ (naturalKey : String) (namespaceParts : List String)
    (pages offset : Nat) :
    forwardPages naturalKey namespaceParts (pages + 1) offset =
      Program.search { scope := listing namespaceParts, limit := forwardPage, offset } >>=
        fun results => (results.find? (declaring naturalKey)).elim
          (if results.length < forwardPage then pure none
            else forwardPages naturalKey namespaceParts pages (offset + forwardPage))
          fun item => pure item.value.naturalKey := by
  rw [forwardPages]
  refine congrArg _ (funext fun results => ?_)
  cases results.find? (declaring naturalKey) with
  | none => rfl
  | some item => rfl

/-- `_apply_forward_supersessions`: what the search raises is swallowed. -/
def applyForwardSupersessions (pages : Nat) (naturalKey : String) (namespaceParts : List String) :
    StoreM (Option String) :=
  Program.tryCatch (forwardPages naturalKey namespaceParts pages 0) fun _ => return none

/-- A record as it is marked for the successor found, if one was found and its key is not
empty. -/
def markFound (value : StoredValue) : Option String → StoredValue
  | some successor => if successor = "" then value else value.markedBy successor
  | none => value

/-- `check_and_apply_forward_supersession`. -/
def checkAndApplyForwardSupersession (pages : Nat) (naturalKey : String)
    (namespaceParts : List String) (currentValue : StoredValue) : StoreM StoredValue := do
  let supersededBy ← applyForwardSupersessions pages naturalKey namespaceParts
  return markFound currentValue supersededBy

/-! ### Marking -/

/-- The record a key names is marked as superseded, if it is stored. -/
def mark (successor : String) (store : Store) (predecessor : String) : Store :=
  match keyPlace runtime predecessor with
  | none => store
  | some place =>
    match store.lookup place with
    | none => store
    | some existing => store.insert place (existing.markedBy successor)

/-- Mark every predecessor. -/
def markAll (successor : String) (predecessors : List String) (store : Store) : Store :=
  predecessors.foldl (mark runtime successor) store

theorem keyPlace_isSome {naturalKey : String} (shaped : (Text.split ':' naturalKey).length = 3) :
    ∃ place, keyPlace runtime naturalKey = some place := by
  unfold keyPlace
  match parts : Text.split ':' naturalKey with
  | [payloadType, project, identifier] => exact ⟨_, rfl⟩
  | [] | [_] | [_, _] | _ :: _ :: _ :: _ :: _ => simp [parts] at shaped

variable {runtime}

/-- A key's record is kept under the identity of the key. -/
theorem key_of_keyPlace {naturalKey : String} {place : Place}
    (named : keyPlace runtime naturalKey = some place) :
    place.key = recordIdentity runtime naturalKey := by
  unfold keyPlace at named
  split at named
  · rw [← Option.some.inj named]
  · cases named

/-- The record of a typed key is kept in the namespace of its project and type. -/
theorem keyPlace_typed {payloadType project identifier : String}
    (type : ':' ∉ payloadType.toList) (noColon : ':' ∉ project.toList)
    (plain : ':' ∉ identifier.toList) :
    keyPlace runtime (payloadType ++ ":" ++ project ++ ":" ++ identifier) =
      some ⟨["fleet_memory", project, payloadType],
        recordIdentity runtime (payloadType ++ ":" ++ project ++ ":" ++ identifier)⟩ := by
  have parts : Text.split ':' (payloadType ++ ":" ++ project ++ ":" ++ identifier) =
      [payloadType, project, identifier] := Text.split_three type noColon plain
  rw [keyPlace, parts]

theorem markAll_cons (successor predecessor : String) (rest : List String) (store : Store) :
    markAll runtime successor (predecessor :: rest) store =
      markAll runtime successor rest (mark runtime successor store predecessor) := rfl

theorem lookup_mark (successor predecessor : String) (store : Store) (place : Place) :
    (mark runtime successor store predecessor).lookup place =
      (store.lookup place).map fun value =>
        if keyPlace runtime predecessor = some place then
          value.markedBy successor
        else value := by
  unfold mark
  cases named : keyPlace runtime predecessor with
  | none => simp
  | some marked =>
    dsimp only
    by_cases same : marked = place
    · subst same
      cases stored : store.lookup marked with
      | none => simp [stored]
      | some existing => simp
    · cases stored : store.lookup marked with
      | none => simp [same]
      | some existing => simp [same, lookup_insert_other fun equal : place = marked => same equal.symm]

/-- Marking changes the `superseded_by` field of the stored predecessors and nothing else. -/
theorem lookup_markAll (successor : String) (predecessors : List String) (store : Store)
    (place : Place) :
    (markAll runtime successor predecessors store).lookup place =
      (store.lookup place).map fun value =>
        if ∃ predecessor ∈ predecessors, keyPlace runtime predecessor = some place then
          value.markedBy successor
        else value := by
  induction predecessors generalizing store with
  | nil => simp [markAll]
  | cons predecessor rest inductionHypothesis =>
    rw [markAll_cons, inductionHypothesis, lookup_mark, Option.map_map]
    congr 1
    funext value
    by_cases here : keyPlace runtime predecessor = some place
    · simp [here]
    · simp [here]

/-- Marking keeps the places records stand at. -/
theorem keys_markAll (successor : String) (predecessors : List String) (store : Store) :
    (markAll runtime successor predecessors store).keys = store.keys := by
  ext place
  rw [mem_keys_iff, mem_keys_iff, lookup_markAll]
  simp [Option.map_eq_some_iff]

/-- A record after marking is a record before it with the same declarations, marked if it was
marked or is one of the predecessors. -/
theorem lookup_markAll_cases {successor : String} {predecessors : List String} {store : Store}
    {place : Place} {value : StoredValue}
    (stored : (markAll runtime successor predecessors store).lookup place = some value) :
    ∃ source, store.lookup place = some source ∧ value.naturalKey = source.naturalKey ∧
      (∀ key, value.declares key = source.declares key) ∧
      (source.marked = true → value.marked = true) ∧
      ∀ key ∈ predecessors, keyPlace runtime key = some place → value.marked = true := by
  rw [lookup_markAll] at stored
  obtain ⟨source, found, rfl⟩ := Option.map_eq_some_iff.mp stored
  refine ⟨source, found, ?_⟩
  split
  · exact ⟨rfl, fun _ => rfl, fun _ => rfl, fun _ _ _ => rfl⟩
  · rename_i absent
    exact ⟨rfl, fun _ => rfl, id, fun key member named => absurd ⟨key, member, named⟩ absent⟩

theorem run_applySupersessions {engine : SearchEngine} (successor : String)
    (predecessors : List String)
    (shaped : ∀ predecessor ∈ predecessors, (Text.split ':' predecessor).length = 3)
    (store : Store) :
    (applySupersessions runtime successor predecessors).run (storeWorld engine) store =
      (.returned (), markAll runtime successor predecessors store) := by
  induction predecessors generalizing store with
  | nil => rfl
  | cons predecessor rest inductionHypothesis =>
    obtain ⟨place, named⟩ := keyPlace_isSome runtime (shaped predecessor List.mem_cons_self)
    have following := inductionHypothesis fun other member => shaped other (List.mem_cons_of_mem _ member)
    simp only [applySupersessions, named, markAll_cons, mark, Program.run_bind, Program.run_get,
      storeWorld_get]
    cases stored : store.lookup place with
    | none => exact following store
    | some existing =>
      simp only [Program.run_bind, Program.run_put, storeWorld_put]
      exact following _

/-! ### The lookup of a successor -/

/-- The natural key of the first row that declares the key. -/
def firstDeclaring (naturalKey : String) (rows : List Item) : Option String :=
  (rows.find? (declaring naturalKey)).bind fun item => item.value.naturalKey

/-- The natural key of the first record of the namespace's listing that declares the key. -/
def successorOf (engine : SearchEngine) (store : Store) (naturalKey : String)
    (namespaceParts : List String) : Option String :=
  firstDeclaring naturalKey (engine.ranking (listing namespaceParts) store)

section

variable {engine : SearchEngine} {store : Store} {naturalKey : String}
  {namespaceParts : List String} {rows : List Item}

/-- One page of the lookup. -/
theorem run_forwardPages_succ (ranked : engine.ranking (listing namespaceParts) store = rows)
    (pages offset : Nat) :
    (forwardPages naturalKey namespaceParts (pages + 1) offset).run (storeWorld engine) store =
      match ((rows.drop offset).take forwardPage).find? (declaring naturalKey) with
      | some item => (.returned item.value.naturalKey, store)
      | none =>
        if ((rows.drop offset).take forwardPage).length < forwardPage then (.returned none, store)
        else (forwardPages naturalKey namespaceParts pages (offset + forwardPage)).run
          (storeWorld engine) store := by
  subst ranked
  rw [forwardPages, Program.run_bind, Program.run_search, storeWorld_search, window_listing]
  generalize ((engine.ranking (listing namespaceParts) store).drop offset).take forwardPage = page
  dsimp only
  split
  · rfl
  · by_cases short : page.length < forwardPage
    · rw [if_pos short, if_pos short, Program.run_pure]
    · rw [if_neg short, if_neg short]

variable (naturalKey) in
/-- The pages from an offset on are read until one declares the key or is short; a lookup that is
not given up returns the first declaration from the offset on. -/
theorem run_forwardPages (ranked : engine.ranking (listing namespaceParts) store = rows)
    (pages offset : Nat) :
    let run := (forwardPages naturalKey namespaceParts pages offset).run (storeWorld engine) store
    run = (.returned (firstDeclaring naturalKey (rows.drop offset)), store) ∨
      run = (.hung, store) ∧
        ¬(offset ≤ rows.length ∧ rows.length < offset + forwardPage * pages) := by
  intro run
  induction pages generalizing offset with
  | zero => exact Or.inr ⟨rfl, by omega⟩
  | succ pages inductionHypothesis =>
    have parts : firstDeclaring naturalKey (rows.drop offset) =
        (((rows.drop offset).take forwardPage).find? (declaring naturalKey) |>.or
          ((rows.drop (offset + forwardPage)).find? (declaring naturalKey))).bind
            fun item => item.value.naturalKey := by
      rw [firstDeclaring, ← List.find?_append, ← List.drop_drop, List.take_append_drop]
    rw [show run = _ from run_forwardPages_succ ranked pages offset, parts]
    cases here : ((rows.drop offset).take forwardPage).find? (declaring naturalKey) with
    | some item => exact Or.inl rfl
    | none =>
      dsimp only
      rw [List.length_take, List.length_drop]
      split
      · rename_i short
        rw [List.drop_eq_nil_of_le (show rows.length ≤ offset + forwardPage by omega)]
        exact Or.inl rfl
      · rename_i full
        rcases inductionHypothesis (offset + forwardPage) with found | ⟨hung, bound⟩
        · exact Or.inl found
        · refine Or.inr ⟨hung, fun enough => bound ⟨by omega, ?_⟩⟩
          have reach := enough.2
          rw [Nat.mul_succ] at reach
          omega

variable (engine store naturalKey namespaceParts) in
/-- A lookup that returns has found the first declaration of the listing. -/
theorem run_applyForwardSupersessions (pages : Nat) :
    let run := (applyForwardSupersessions pages naturalKey namespaceParts).run
      (storeWorld engine) store
    run = (.returned (successorOf engine store naturalKey namespaceParts), store) ∨
      run = (.hung, store) ∧
        ¬(engine.ranking (listing namespaceParts) store).length < forwardPage * pages := by
  intro run
  have handled : run = _ := Program.run_tryCatch _ _ _
  rcases run_forwardPages naturalKey rfl pages 0 with found | ⟨hung, bound⟩
  · left
    rw [handled, found]
    rfl
  · right
    refine ⟨by rw [handled, hung], fun enough => bound ⟨Nat.zero_le _, ?_⟩⟩
    rwa [Nat.zero_add]

theorem declares_of_find? {item : Item} (first : rows.find? (declaring naturalKey) = some item) :
    item.value.declares naturalKey = true := by
  have holds := List.find?_some first
  exact holds

/-- What the lookup finds is the natural key of a stored record that declares the key. -/
theorem successorOf_eq_some {successor : String}
    (found : successorOf engine store naturalKey namespaceParts = some successor) :
    ∃ place value, store.lookup place = some value ∧
      engine.selects (listing namespaceParts) place value = true ∧
      value.declares naturalKey = true ∧ value.naturalKey = some successor := by
  obtain ⟨item, first, key⟩ := Option.bind_eq_some_iff.mp found
  obtain ⟨stored, selected, _⟩ := (engine.mem_ranking _ _ _).mp (List.mem_of_find?_eq_some first)
  exact ⟨item.place, item.value, stored, selected, declares_of_find? first, key⟩

/-- When no stored record of the listing declares the key, the lookup finds none. -/
theorem successorOf_eq_none
    (none_declares : ∀ place value, store.lookup place = some value →
      engine.selects (listing namespaceParts) place value = true →
      value.declares naturalKey = false) :
    successorOf engine store naturalKey namespaceParts = none := by
  refine Option.bind_eq_none_iff.mpr fun item first => ?_
  obtain ⟨stored, selected, _⟩ := (engine.mem_ranking _ _ _).mp (List.mem_of_find?_eq_some first)
  have declares := declares_of_find? first
  rw [none_declares item.place item.value stored selected] at declares
  cases declares

/-- A listing that selects no stored record is empty. -/
theorem ranking_eq_nil {scope : Scope}
    (none_selected : ∀ place value, store.lookup place = some value →
      engine.selects scope place value = false) : engine.ranking scope store = [] := by
  refine List.eq_nil_iff_forall_not_mem.mpr fun item ranked => ?_
  obtain ⟨stored, selected, _⟩ := (engine.mem_ranking _ _ _).mp ranked
  rw [none_selected item.place item.value stored] at selected
  cases selected

/-- When a stored record of the listing declares the key, the lookup finds one that does. -/
theorem exists_successorOf {place : Place} {value : StoredValue}
    (stored : store.lookup place = some value)
    (selected : engine.selects (listing namespaceParts) place value = true)
    (declares : value.declares naturalKey = true) :
    ∃ other record, store.lookup other = some record ∧ record.declares naturalKey = true ∧
      successorOf engine store naturalKey namespaceParts = record.naturalKey := by
  obtain ⟨item, ranked, rfl, rfl⟩ := exists_mem_ranking stored selected
  cases first : (engine.ranking (listing namespaceParts) store).find? (declaring naturalKey) with
  | none => exact absurd declares (by simpa [declaring] using List.find?_eq_none.mp first item ranked)
  | some found =>
    obtain ⟨kept, _, _⟩ := (engine.mem_ranking _ _ _).mp (List.mem_of_find?_eq_some first)
    exact ⟨found.place, found.value, kept, declares_of_find? first, by
      rw [successorOf, firstDeclaring, first, Option.bind_some]⟩

end

end FleetMemory
