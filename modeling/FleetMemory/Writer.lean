/-
This file models the deterministic writer: one write reads the record of the payload's
key, creates it, leaves it, or replaces it by the next version, and then marks what the
payload supersedes. A write that returns leaves exactly the store `written` says.
-/

import FleetMemory.Payloads
import FleetMemory.Supersession

namespace FleetMemory

open StoreProgram

/-! ### The operations -/

/-- `validate_namespace`. -/
def validateNamespace (namespaceParts : List String) : Except PyError Unit :=
  raiseIf (namespaceParts.filter (fun part => !validPart part) ≠ [])
    (.namespaceValidation namespaceParts (namespaceParts.filter fun part => !validPart part))

/-- `content_hash`. -/
def contentHash (runtime : Runtime) (payload : Payload) : String :=
  runtime.sha256 (Json.dumps (.dict (payload.modelDump.filter fun entry => entry.1 != "version")))

/-- The writer: the functions it calls, and the pages a forward lookup may read before it is
given up. -/
structure DeterministicWriter where
  runtime : Runtime
  pages : Nat

namespace DeterministicWriter

variable (writer : DeterministicWriter)

/-- The namespace of a payload's record. -/
def recordNamespace (payload : Payload) : List String :=
  ["fleet_memory", payload.project, payload.payloadType]

/-- The place of a payload's record. -/
def recordPlace (payload : Payload) : Place :=
  ⟨recordNamespace payload, recordIdentity writer.runtime payload.naturalKey⟩

/-- The value `_write_record` builds, before it looks for a successor. -/
def storedValue (payload : Payload) (contentHashValue : String) (version : Int)
    (episodeMeta : Option EpisodeMeta) : StoredValue where
  content := Json.dumps (.dict payload.modelDump)
  contentHash := some contentHashValue
  version := some version
  payloadType := some payload.payloadType
  naturalKey := some payload.naturalKey
  project := some payload.project
  identifier := some payload.identifier
  supersedes := if payload.supersedes = [] then none else some payload.supersedes
  episodeType := episodeMeta.map (·.episodeType)
  episodeMeta := episodeMeta

/-- `_write_record`. -/
def writeRecord (payload : Payload) (contentHashValue : String) (version : Int)
    (episodeMeta : Option EpisodeMeta) : StoreM Unit := do
  let value ← checkAndApplyForwardSupersession writer.pages payload.naturalKey
    (recordNamespace payload) (storedValue payload contentHashValue version episodeMeta)
  Program.put (writer.recordPlace payload) value

/-- `if payload.supersedes: await apply_supersessions(…)`. -/
def applyDeclared (payload : Payload) : StoreM Unit :=
  if payload.supersedes = [] then return ()
  else applySupersessions writer.runtime payload.naturalKey payload.supersedes

/-- `write` from its first store call on. -/
def upsert (payload : Payload) (episodeMeta : Option EpisodeMeta) : StoreM Unit := do
  let newHash := contentHash writer.runtime payload
  match ← Program.get (writer.recordPlace payload) with
  | none =>
    writer.writeRecord payload newHash 1 episodeMeta
    writer.applyDeclared payload
  | some existing =>
    if existing.contentHash = some newHash then writer.applyDeclared payload
    else
      writer.writeRecord payload newHash (existing.version.getD 1 + 1) episodeMeta
      writer.applyDeclared payload

/-- `write`. -/
def write (payload : Payload) (episodeMeta : Option EpisodeMeta) : StoreM Unit := do
  lift (raiseIf (registered payload.payloadType = false)
    (.valueError ("Payload type '" ++ payload.payloadType ++ "' is not a recognized payload " ++
      "type. Only registered BasePayload subclasses can be written.")))
  lift (validateNamespace (recordNamespace payload))
  writer.upsert payload episodeMeta

/-! ### What a write leaves -/

/-- The payload passes the checks made before any store call. -/
def Accepts (payload : Payload) : Prop :=
  registered payload.payloadType = true ∧ ∀ part ∈ recordNamespace payload, validPart part = true

/-- The write creates or replaces the payload's record: no record of the same content stands at
its place. -/
def Puts (payload : Payload) (store : Store) : Prop :=
  ((store.lookup (writer.recordPlace payload)).bind fun existing => existing.contentHash) ≠
    some (contentHash writer.runtime payload)

instance (payload : Payload) (store : Store) : Decidable (writer.Puts payload store) :=
  inferInstanceAs (Decidable (_ ≠ _))

/-- The version a write gives the record. -/
def nextVersion (payload : Payload) (store : Store) : Int :=
  match store.lookup (writer.recordPlace payload) with
  | some existing => existing.version.getD 1 + 1
  | none => 1

/-- The record a write puts. -/
def putValue (engine : SearchEngine) (payload : Payload) (episodeMeta : Option EpisodeMeta)
    (store : Store) : StoredValue :=
  markFound (storedValue payload (contentHash writer.runtime payload)
      (writer.nextVersion payload store) episodeMeta)
    (successorOf engine store payload.naturalKey (recordNamespace payload))

/-- The store with the payload's record created, left or replaced. -/
def upserted (engine : SearchEngine) (payload : Payload) (episodeMeta : Option EpisodeMeta)
    (store : Store) : Store :=
  if writer.Puts payload store then
    store.insert (writer.recordPlace payload) (writer.putValue engine payload episodeMeta store)
  else store

/-- The store a write leaves. -/
def written (engine : SearchEngine) (payload : Payload) (episodeMeta : Option EpisodeMeta)
    (store : Store) : Store :=
  markAll writer.runtime payload.naturalKey payload.supersedes
    (writer.upserted engine payload episodeMeta store)

variable {writer} {engine : SearchEngine} {payload : Payload} {episodeMeta : Option EpisodeMeta}

theorem validateNamespace_eq_ok {namespaceParts : List String} :
    validateNamespace namespaceParts = .ok () ↔ ∀ part ∈ namespaceParts, validPart part = true := by
  rw [validateNamespace, raiseIf_eq_ok, not_not, List.filter_eq_nil_iff]
  simp

/-- A namespace with an invalid identifier is refused. -/
theorem validateNamespace_eq_error {namespaceParts : List String} {part : String}
    (member : part ∈ namespaceParts) (invalid : validPart part = false) :
    ∃ invalidParts, validateNamespace namespaceParts =
      .error (.namespaceValidation namespaceParts invalidParts) := by
  have refused : namespaceParts.filter (fun part => !validPart part) ≠ [] := by
    intro none_refused
    have valid := List.filter_eq_nil_iff.mp none_refused part member
    simp [invalid] at valid
  exact ⟨_, by rw [validateNamespace, raiseIf, if_pos refused]⟩

/-- The record of a payload stands where its natural key says. -/
theorem keyPlace_naturalKey (payload : Payload) :
    keyPlace writer.runtime payload.naturalKey = some (writer.recordPlace payload) :=
  keyPlace_typed payload.valid.payloadType
    (Text.not_mem_of_fullMatch payload.valid.project (by decide))
    (Text.not_mem_of_fullMatch payload.valid.identifier (by decide))

theorem run_applyDeclared (payload : Payload) (store : Store) :
    (writer.applyDeclared payload).run (storeWorld engine) store =
      (.returned (), markAll writer.runtime payload.naturalKey payload.supersedes store) := by
  unfold applyDeclared
  split
  · rename_i none_declared
    rw [none_declared]
    rfl
  · exact run_applySupersessions _ _ payload.valid.shaped store

variable (engine) in
/-- Writing the record puts it, marked for the successor the listing holds, unless the lookup of
that successor is given up. -/
theorem run_writeRecord (payload : Payload) (hash : String) (version : Int)
    (episodeMeta : Option EpisodeMeta) (store : Store) :
    let run := (writer.writeRecord payload hash version episodeMeta).run (storeWorld engine) store
    run = (.returned (), store.insert (writer.recordPlace payload)
        (markFound (storedValue payload hash version episodeMeta)
          (successorOf engine store payload.naturalKey (recordNamespace payload)))) ∨
      run = (.hung, store) ∧ ¬(engine.ranking (listing (recordNamespace payload)) store).length <
        forwardPage * writer.pages := by
  intro run
  have split : run = _ := Program.run_bind _ _ store
  rw [checkAndApplyForwardSupersession, Program.run_bind] at split
  rcases run_applyForwardSupersessions engine store payload.naturalKey
    (recordNamespace payload) writer.pages with found | ⟨hung, bound⟩
  · left
    rw [split, found]
    rfl
  · right
    rw [split, hung]
    exact ⟨rfl, bound⟩

variable (engine) in
/-- The record is put at its next version, and then what the payload supersedes is marked. -/
theorem run_put_and_mark (payload : Payload) (episodeMeta : Option EpisodeMeta) (store : Store)
    (puts : writer.Puts payload store) :
    let run := (writer.writeRecord payload (contentHash writer.runtime payload)
      (writer.nextVersion payload store) episodeMeta >>= fun _ =>
        writer.applyDeclared payload).run (storeWorld engine) store
    run = (.returned (), writer.written engine payload episodeMeta store) ∨
      run = (.hung, store) ∧ ¬(engine.ranking (listing (recordNamespace payload)) store).length <
        forwardPage * writer.pages := by
  intro run
  have split : run = _ := Program.run_bind _ _ store
  rcases run_writeRecord engine payload (contentHash writer.runtime payload)
    (writer.nextVersion payload store) episodeMeta store with done | ⟨hung, bound⟩
  · left
    rw [split, done]
    dsimp only
    rw [run_applyDeclared, written, upserted, if_pos puts, putValue]
  · right
    rw [split, hung]
    exact ⟨rfl, bound⟩

variable (writer engine) in
/-- An upsert returns and leaves the written store, unless its lookup of a successor is given
up. -/
theorem run_upsert (payload : Payload) (episodeMeta : Option EpisodeMeta) (store : Store) :
    let run := (writer.upsert payload episodeMeta).run (storeWorld engine) store
    run = (.returned (), writer.written engine payload episodeMeta store) ∨
      run = (.hung, store) ∧ writer.Puts payload store ∧
        ¬(engine.ranking (listing (recordNamespace payload)) store).length <
          forwardPage * writer.pages := by
  intro run
  have step : run = _ := Program.run_bind _ _ store
  rw [Program.run_get, storeWorld_get] at step
  cases stored : store.lookup (writer.recordPlace payload) with
  | none =>
    have puts : writer.Puts payload store := by simp [Puts, stored]
    have version : writer.nextVersion payload store = 1 := by rw [nextVersion, stored]
    have done := run_put_and_mark engine payload episodeMeta store puts
    rw [version] at done
    rw [step, stored]
    exact done.imp_right fun hung => ⟨hung.1, puts, hung.2⟩
  | some existing =>
    by_cases same : existing.contentHash = some (contentHash writer.runtime payload)
    · left
      have kept : ¬writer.Puts payload store := by simp [Puts, stored, same]
      rw [step, stored]
      simp only [if_pos same]
      rw [run_applyDeclared, written, upserted, if_neg kept]
    · have puts : writer.Puts payload store := by simp [Puts, stored, same]
      have version : writer.nextVersion payload store = existing.version.getD 1 + 1 := by
        rw [nextVersion, stored]
      have done := run_put_and_mark engine payload episodeMeta store puts
      rw [version] at done
      rw [step, stored]
      simp only [if_neg same]
      exact done.imp_right fun hung => ⟨hung.1, puts, hung.2⟩

/-! ### The checks before it -/

/-- An accepted write is its upsert. -/
theorem write_of_accepts (accepts : Accepts payload) :
    writer.write payload episodeMeta = writer.upsert payload episodeMeta := by
  have known : ∀ error, raiseIf (registered payload.payloadType = false) error = .ok () :=
    fun _ => raiseIf_eq_ok.mpr (by rw [accepts.1]; simp)
  rw [write, known, lift_ok_bind, validateNamespace_eq_ok.mpr accepts.2, lift_ok_bind]

/-- A registered payload whose namespace is invalid is refused for it. -/
theorem write_of_invalid_namespace (known : registered payload.payloadType = true) {part : String}
    (member : part ∈ recordNamespace payload) (invalid : validPart part = false) :
    ∃ invalidParts, writer.write payload episodeMeta =
      lift (.error (.namespaceValidation (recordNamespace payload) invalidParts)) := by
  obtain ⟨invalidParts, refused⟩ := validateNamespace_eq_error member invalid
  have passes : ∀ error, raiseIf (registered payload.payloadType = false) error = .ok () :=
    fun _ => raiseIf_eq_ok.mpr (by rw [known]; simp)
  exact ⟨invalidParts, by rw [write, passes, lift_ok_bind, refused, lift_error_bind]⟩

variable (writer episodeMeta) in
/-- A write that is not accepted raises before any store call. -/
theorem write_of_not_accepts (refused : ¬Accepts payload) :
    ∃ error, writer.write payload episodeMeta = lift (.error error) := by
  unfold write
  cases known : raiseIf (registered payload.payloadType = false) _ with
  | error error => exact ⟨error, by rw [lift_error_bind]⟩
  | ok done =>
    rw [lift_ok_bind]
    cases valid : validateNamespace (recordNamespace payload) with
    | error error => exact ⟨error, by rw [lift_error_bind]⟩
    | ok done =>
      refine absurd ⟨?_, validateNamespace_eq_ok.mp valid⟩ refused
      simpa using raiseIf_eq_ok.mp known

/-- An accepted write returns when its lookup of a successor can read the whole listing. -/
theorem run_write_of_accepts {store : Store} (accepts : Accepts payload)
    (room : (engine.ranking (listing (recordNamespace payload)) store).length <
      forwardPage * writer.pages) :
    (writer.write payload episodeMeta).run (storeWorld engine) store =
      (.returned (), writer.written engine payload episodeMeta store) := by
  rw [write_of_accepts accepts]
  exact (run_upsert writer engine payload episodeMeta store).resolve_right
    fun hung => hung.2.2 room

variable (writer engine payload episodeMeta) in
/-- However a write ends, it leaves the written store or changes nothing. -/
theorem run_write_state (store : Store) :
    ((writer.write payload episodeMeta).run (storeWorld engine) store).2 =
        writer.written engine payload episodeMeta store ∨
      ((writer.write payload episodeMeta).run (storeWorld engine) store).2 = store := by
  by_cases accepts : Accepts payload
  · rw [write_of_accepts accepts]
    rcases run_upsert writer engine payload episodeMeta store with done | ⟨hung, _⟩
    · exact Or.inl (by rw [done])
    · exact Or.inr (by rw [hung])
  · obtain ⟨error, raises⟩ := write_of_not_accepts writer episodeMeta accepts
    exact Or.inr (by rw [raises, run_lift_error])

/-- A write that returns was accepted and leaves the written store. -/
theorem run_write_returned {store after : Store}
    (returned : (writer.write payload episodeMeta).run (storeWorld engine) store =
      (.returned (), after)) :
    Accepts payload ∧ after = writer.written engine payload episodeMeta store := by
  by_cases accepts : Accepts payload
  · refine ⟨accepts, ?_⟩
    rw [write_of_accepts accepts] at returned
    rcases run_upsert writer engine payload episodeMeta store with
      done | ⟨hung, _⟩
    · rw [done] at returned
      exact (Prod.mk.inj returned).2.symm
    · rw [hung] at returned
      cases (Prod.mk.inj returned).1
  · obtain ⟨error, raises⟩ := write_of_not_accepts writer episodeMeta accepts
    rw [raises, run_lift_error] at returned
    cases (Prod.mk.inj returned).1

/-! ### The records a write leaves -/

section

variable {store : Store}

theorem lookup_upserted (place : Place) :
    (writer.upserted engine payload episodeMeta store).lookup place =
      if writer.Puts payload store ∧ place = writer.recordPlace payload then
        some (writer.putValue engine payload episodeMeta store)
      else store.lookup place :=
  lookup_insertIf _ _ _ _ _

theorem card_keys_upserted :
    (writer.upserted engine payload episodeMeta store).keys.card ≤ store.keys.card + 1 :=
  card_keys_insertIf_le _ _ _ _

/-- A write adds at most one record. -/
theorem card_keys_written :
    (writer.written engine payload episodeMeta store).keys.card ≤ store.keys.card + 1 := by
  rw [written, keys_markAll]
  exact card_keys_upserted

/-- Marking a value for the successor that was found keeps whatever marking keeps. -/
theorem markFound_keeps {Field : Type} (read : StoredValue → Field)
    (kept : ∀ (value : StoredValue) (successor : String),
      read (value.markedBy successor) = read value)
    (value : StoredValue) (found : Option String) : read (markFound value found) = read value := by
  unfold markFound
  split
  · split
    · rfl
    · exact kept value _
  · rfl

@[simp] theorem markFound_naturalKey (value : StoredValue) (found : Option String) :
    (markFound value found).naturalKey = value.naturalKey :=
  markFound_keeps (·.naturalKey) (fun _ _ => rfl) value found

@[simp] theorem markFound_declares (value : StoredValue) (found : Option String) (key : String) :
    (markFound value found).declares key = value.declares key :=
  markFound_keeps (·.declares key) (fun _ _ => rfl) value found

theorem putValue_naturalKey :
    (writer.putValue engine payload episodeMeta store).naturalKey = some payload.naturalKey := by
  rw [putValue, markFound_naturalKey]
  rfl

/-- The record a write builds declares what the payload does. -/
theorem storedValue_declares (hash : String) (version : Int) (episodeMeta : Option EpisodeMeta)
    (key : String) :
    (storedValue payload hash version episodeMeta).declares key =
      payload.supersedes.contains key := by
  rw [StoredValue.declares, storedValue]
  dsimp only
  split
  · rename_i keys found
    split at found
    · cases found
    · rw [Option.some.inj found]
  · rename_i missing
    split at missing
    · rename_i empty
      rw [empty]
      rfl
    · cases missing

theorem putValue_declares (key : String) :
    (writer.putValue engine payload episodeMeta store).declares key =
      payload.supersedes.contains key := by
  rw [putValue, markFound_declares, storedValue_declares]

@[simp] theorem markFound_contentHash (value : StoredValue) (found : Option String) :
    (markFound value found).contentHash = value.contentHash :=
  markFound_keeps (·.contentHash) (fun _ _ => rfl) value found

@[simp] theorem markFound_version (value : StoredValue) (found : Option String) :
    (markFound value found).version = value.version :=
  markFound_keeps (·.version) (fun _ _ => rfl) value found

@[simp] theorem markFound_content (value : StoredValue) (found : Option String) :
    (markFound value found).content = value.content :=
  markFound_keeps (·.content) (fun _ _ => rfl) value found

theorem contentHash_putValue :
    (writer.putValue engine payload episodeMeta store).contentHash =
      some (contentHash writer.runtime payload) := by
  rw [putValue, markFound_contentHash]
  rfl

/-- The record a write puts has the content of the payload. -/
theorem content_putValue :
    (writer.putValue engine payload episodeMeta store).content =
      Json.dumps (.dict payload.modelDump) := by
  rw [putValue, markFound_content]
  rfl

/-- After a write the payload's record has its content. -/
theorem lookup_written_self :
    ∃ value, (writer.written engine payload episodeMeta store).lookup (writer.recordPlace payload) =
        some value ∧ value.contentHash = some (contentHash writer.runtime payload) := by
  rw [written, lookup_markAll, lookup_upserted]
  by_cases puts : writer.Puts payload store
  · rw [if_pos ⟨puts, rfl⟩, Option.map_some]
    refine ⟨_, rfl, ?_⟩
    rw [← @contentHash_putValue writer engine payload episodeMeta store]
    split <;> rfl
  · rw [if_neg fun both => puts both.1]
    obtain ⟨existing, stored, same⟩ := Option.bind_eq_some_iff.mp (not_not.mp puts)
    rw [stored, Option.map_some]
    refine ⟨_, rfl, ?_⟩
    rw [← same]
    split <;> rfl

theorem naturalKey_ne_empty (payload : Payload) : payload.naturalKey ≠ "" := by
  intro empty
  have same := congrArg String.toList empty
  simp [PayloadFields.naturalKey] at same

end

end DeterministicWriter

end FleetMemory
