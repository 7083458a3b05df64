/-
This file models the store: the places records are kept at, the record layout the writers
share, and the search engine behind `asearch`. The engine is installed with the service
and is not part of it, so it is a parameter that carries what is promised of it: a search
ranks the stored rows its scope selects, and a listing of a namespace selects its rows.
-/

import FleetMemory.Errors
import FleetMemory.Program
import Mathlib.Data.Finmap
import Mathlib.Data.Rat.Defs

namespace FleetMemory

open StoreProgram

/-! ### Records -/

/-- Where a record is kept: a namespace tuple and a key in it. -/
structure Place where
  namespaceParts : List String
  key : String
deriving DecidableEq, Repr

/-- The envelope metadata persisted with a record. Times are their `isoformat()`. -/
structure EpisodeMeta where
  episodeType : String
  name : Option String
  source : Option String
  occurredAt : Option String
  publishedAt : Option String
  ingestHints : Option PyDict
  payloadType : Option String
  sourceRef : Option String

/-- The value of a record, one field for each key the writers store. A key that is absent is
`none`. -/
structure StoredValue where
  content : String
  contentHash : Option String := none
  version : Option Int := none
  payloadType : Option String := none
  naturalKey : Option String := none
  project : Option String := none
  identifier : Option String := none
  supersedes : Option (List String) := none
  supersededBy : Option String := none
  episodeType : Option String := none
  episodeMeta : Option EpisodeMeta := none
  episodeId : Option String := none
  chunkIndex : Option Nat := none
  sourceRef : Option String := none

namespace StoredValue

/-- The record lists a key among those it supersedes. -/
def declares (value : StoredValue) (naturalKey : String) : Bool :=
  match value.supersedes with
  | some keys => keys.contains naturalKey
  | none => false

/-- The record carries a `superseded_by` field. -/
def marked (value : StoredValue) : Bool :=
  value.supersededBy.isSome

/-- The record with its `superseded_by` field set. -/
def markedBy (value : StoredValue) (successor : String) : StoredValue :=
  { value with supersededBy := some successor }

/-- The text a metadata filter compares for a key. -/
def metadata (value : StoredValue) : String → Option String
  | "project" => value.project
  | "payload_type" => value.payloadType
  | _ => none

section

variable (value : StoredValue) (successor : String)

@[simp] theorem markedBy_marked : (value.markedBy successor).marked = true := rfl

@[simp] theorem markedBy_declares (naturalKey : String) :
    (value.markedBy successor).declares naturalKey = value.declares naturalKey := rfl

@[simp] theorem markedBy_naturalKey :
    (value.markedBy successor).naturalKey = value.naturalKey := rfl

@[simp] theorem markedBy_contentHash :
    (value.markedBy successor).contentHash = value.contentHash := rfl

@[simp] theorem markedBy_supersededBy :
    (value.markedBy successor).supersededBy = some successor := rfl

@[simp] theorem markedBy_markedBy (other : String) :
    (value.markedBy successor).markedBy other = value.markedBy other := rfl

end

end StoredValue

/-- The records, each at its place. -/
abbrev Store := Finmap fun _ : Place => StoredValue

/-! ### Searches -/

/-- What a search looks through: a namespace prefix, a query to rank by, and a metadata filter. -/
structure Scope where
  namespacePrefix : List String
  query : Option String := none
  filter : List (String × String) := []
deriving DecidableEq, Repr

/-- `asearch(namespace_prefix, query=…, filter=…, limit=…, offset=…)`. -/
structure SearchQuery where
  scope : Scope
  limit : Nat
  offset : Nat
deriving DecidableEq, Repr

/-- The scope of a search that lists a namespace. -/
def listing (namespaceParts : List String) : Scope where
  namespacePrefix := namespaceParts

/-- A row a search returns. -/
structure Item where
  place : Place
  value : StoredValue
  score : Option ℚ

/-- `validate_namespace`'s condition on one identifier. -/
def validPart (part : String) : Bool :=
  Text.fullMatch Text.lowerWord part

/-- The search engine of a store. -/
structure SearchEngine where
  /-- Whether a scope selects a row. -/
  selects : Scope → Place → StoredValue → Bool
  /-- The score of a row under a scope. -/
  score : Scope → Place → StoredValue → Option ℚ
  /-- The rows a scope selects, best first. -/
  ranking : Scope → Store → List Item
  ranking_nodup : ∀ scope store, ((ranking scope store).map Item.place).Nodup
  mem_ranking : ∀ scope store item, item ∈ ranking scope store ↔
    store.lookup item.place = some item.value ∧ selects scope item.place item.value = true ∧
      item.score = score scope item.place item.value
  selects_own : ∀ place value, (∀ part ∈ place.namespaceParts, validPart part = true) →
    selects (listing place.namespaceParts) place value = true

/-- The part of a ranking a search returns. A search with a query takes its candidates from its
limit alone, `2 * limit + 1` of them, and skips the offset inside that window. -/
def window (query : SearchQuery) (rows : List Item) : List Item :=
  match query.scope.query with
  | none => (rows.drop query.offset).take query.limit
  | some _ => ((rows.take (2 * query.limit + 1)).drop query.offset).take query.limit

theorem window_listing (namespaceParts : List String) (limit offset : Nat) (rows : List Item) :
    window { scope := listing namespaceParts, limit, offset } rows =
      (rows.drop offset).take limit := rfl

/-- A store with its search engine. -/
def storeWorld (engine : SearchEngine) : World Place StoredValue SearchQuery Item Store where
  get store place := store.lookup place
  search store query := window query (engine.ranking query.scope store)
  put store place value := store.insert place value

/-- A program of the service. -/
abbrev StoreM := Program Place StoredValue SearchQuery Item PyError

/-- A computation without store calls. -/
def lift {Result : Type} (computed : Except PyError Result) : StoreM Result :=
  Program.ofOutcome (.ofExcept computed)

@[simp] theorem lift_ok_bind {Result Other : Type} (result : Result) (next : Result → StoreM Other) :
    lift (.ok result) >>= next = next result := rfl

@[simp] theorem lift_error_bind {Result Other : Type} (error : PyError)
    (next : Result → StoreM Other) :
    lift (.error error) >>= next = lift (.error error) := rfl

theorem lift_error_inj {Result : Type} {first second : PyError} :
    (lift (.error first) : StoreM Result) = lift (.error second) ↔ first = second :=
  ⟨fun same => by injection same with same; injection same, fun same => by rw [same]⟩

section

variable {engine : SearchEngine} {store : Store}

@[simp] theorem storeWorld_get (place : Place) :
    (storeWorld engine).get store place = store.lookup place := rfl

@[simp] theorem storeWorld_put (place : Place) (value : StoredValue) :
    (storeWorld engine).put store place value = store.insert place value := rfl

@[simp] theorem storeWorld_search (query : SearchQuery) :
    (storeWorld engine).search store query = window query (engine.ranking query.scope store) := rfl

@[simp] theorem run_lift_ok {Result : Type} (result : Result) :
    (lift (.ok result)).run (storeWorld engine) store = (.returned result, store) := rfl

@[simp] theorem run_lift_error {Result : Type} (error : PyError) :
    (lift (.error error) : StoreM Result).run (storeWorld engine) store =
      (.raised error, store) := rfl

/-- A scope ranks a stored row it selects. -/
theorem exists_mem_ranking {scope : Scope} {place : Place} {value : StoredValue}
    (stored : store.lookup place = some value) (selected : engine.selects scope place value = true) :
    ∃ item ∈ engine.ranking scope store, item.place = place ∧ item.value = value :=
  ⟨⟨place, value, engine.score scope place value⟩,
    (engine.mem_ranking scope store _).mpr ⟨stored, selected, rfl⟩, rfl, rfl⟩

theorem mem_keys_iff {place : Place} :
    place ∈ store.keys ↔ ∃ value, store.lookup place = some value := by
  rw [Finmap.mem_keys, ← Finmap.lookup_isSome, Option.isSome_iff_exists]

/-- A ranking is no longer than the store has records. -/
theorem length_ranking_le (engine : SearchEngine) (scope : Scope) (store : Store) :
    (engine.ranking scope store).length ≤ store.keys.card := by
  rw [← List.length_map (f := Item.place),
    ← List.toFinset_card_of_nodup (engine.ranking_nodup scope store)]
  refine Finset.card_le_card fun place member => ?_
  obtain ⟨item, ranked, rfl⟩ := List.mem_map.mp (List.mem_toFinset.mp member)
  exact mem_keys_iff.mpr ⟨item.value, ((engine.mem_ranking scope store item).mp ranked).1⟩

end

/-! ### Lookups after a put -/

section

variable {store : Store} {place other : Place} {value : StoredValue}

theorem lookup_insert_self : (store.insert place value).lookup place = some value :=
  Finmap.lookup_insert store

theorem lookup_insert_other (different : other ≠ place) :
    (store.insert place value).lookup other = store.lookup other :=
  Finmap.lookup_insert_of_ne store different

/-- What stands at a place after a put. -/
theorem lookup_insert (store : Store) (place other : Place) (value : StoredValue) :
    (store.insert place value).lookup other =
      if other = place then some value else store.lookup other := by
  by_cases same : other = place
  · rw [if_pos same, same, lookup_insert_self]
  · rw [if_neg same, lookup_insert_other same]

/-- A put adds at most one record. -/
theorem card_keys_insert_le (store : Store) (place : Place) (value : StoredValue) :
    (store.insert place value).keys.card ≤ store.keys.card + 1 := by
  refine le_trans (Finset.card_le_card ?_) (Finset.card_insert_le place store.keys)
  intro other member
  obtain ⟨found, stored⟩ := mem_keys_iff.mp member
  rw [lookup_insert] at stored
  split at stored
  · rename_i same
    exact Finset.mem_insert.mpr (Or.inl same)
  · exact Finset.mem_insert_of_mem (mem_keys_iff.mpr ⟨found, stored⟩)

/-- What stands at a place after a put that was made under a condition. -/
theorem lookup_insertIf (condition : Prop) [Decidable condition] (store : Store)
    (place other : Place) (value : StoredValue) :
    (if condition then store.insert place value else store).lookup other =
      if condition ∧ other = place then some value else store.lookup other := by
  by_cases puts : condition
  · rw [if_pos puts, lookup_insert]
    simp [puts]
  · rw [if_neg puts, if_neg fun both => puts both.1]

theorem card_keys_insertIf_le (condition : Prop) [Decidable condition] (store : Store)
    (place : Place) (value : StoredValue) :
    (if condition then store.insert place value else store).keys.card ≤ store.keys.card + 1 := by
  split
  · exact card_keys_insert_le store place value
  · exact Nat.le_succ _

/-- Putting back what stands at a place changes nothing. -/
theorem insert_of_lookup (stored : store.lookup place = some value) :
    store.insert place value = store := by
  apply Finmap.ext_lookup
  intro other
  rw [lookup_insert]
  split
  · rename_i same
    rw [same, stored]
  · rfl

end

end FleetMemory
