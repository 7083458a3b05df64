/-
This file proves what a repeated delivery of a structured episode does. It changes nothing
exactly when the record of its key still holds its content and its declared predecessors
are still marked by it: after another episode has updated the key, the repeated delivery
writes the old content back as a new version.
-/

import FleetMemory.ProjectFrame

namespace FleetMemory

open StoreProgram DeterministicWriter RelayService

/-! ### What a repeated delivery meets -/

/-- Every stored record the keys name is marked by the successor. -/
def MarkedAll (runtime : Runtime) (successor : String) (predecessors : List String)
    (store : Store) : Prop :=
  ∀ key ∈ predecessors, ∀ place record, keyPlace runtime key = some place →
    store.lookup place = some record → record.supersededBy = some successor

/-- The store holds what the episode's payload leaves: its record has its content, and its stored
predecessors are marked by it. -/
def Settled (service : RelayService) (episode : MemoryEpisodeV1) (store : Store) : Prop :=
  ∀ payload, service.payloadOf episode = .ok payload →
    ¬service.writer.Puts payload store ∧
      MarkedAll service.runtime payload.naturalKey payload.supersedes store

/-- An ingest of the episode leaves the store as it is, whichever calls fail. -/
def ChangesNothing (service : RelayService) (engine : SearchEngine) (episode : MemoryEpisodeV1)
    (store : Store) : Prop :=
  ∀ faults, ((service.ingest episode).runFaulty (storeWorld engine) faults store).2 = store

section

variable {service : RelayService} {engine : SearchEngine} {episode : MemoryEpisodeV1}
  {store : Store} {runtime : Runtime} {successor : String} {predecessors : List String}

theorem markedBy_of_supersededBy {value : StoredValue}
    (marked : value.supersededBy = some successor) : value.markedBy successor = value := by
  cases value
  cases marked
  rfl

/-- Marking leaves a store alone exactly when the stored predecessors are marked. -/
theorem markAll_eq_self_iff : markAll runtime successor predecessors store = store ↔
    MarkedAll runtime successor predecessors store := by
  constructor
  · intro same key member place record named stored
    have marked : (store.lookup place).map _ = store.lookup place :=
      (lookup_markAll successor predecessors store place).symm.trans (by rw [same])
    rw [stored, Option.map_some, if_pos ⟨key, member, named⟩] at marked
    rw [← Option.some.inj marked]
    rfl
  · intro marked
    apply Finmap.ext_lookup
    intro place
    rw [lookup_markAll]
    cases stored : store.lookup place with
    | none => rfl
    | some record =>
      rw [Option.map_some]
      split
      · rename_i named
        obtain ⟨key, member, here⟩ := named
        rw [markedBy_of_supersededBy (marked key member place record here stored)]
      · rfl

theorem keeps_applySupersessions
    (marked : MarkedAll runtime successor predecessors store) :
    (applySupersessions runtime successor predecessors).Keeps (storeWorld engine) store := by
  induction predecessors with
  | nil => trivial
  | cons key rest inductionHypothesis =>
    have following := inductionHypothesis fun other member =>
      marked other (List.mem_cons_of_mem _ member)
    rw [applySupersessions]
    cases named : keyPlace runtime key with
    | none => trivial
    | some place =>
      refine Program.keeps_get_bind ?_
      rw [storeWorld_get]
      cases stored : store.lookup place with
      | none => exact following
      | some existing =>
        refine Program.keeps_put_bind ?_ following
        rw [markedBy_of_supersededBy (marked key List.mem_cons_self place existing named stored)]
        exact insert_of_lookup stored

/-- A write of what is stored already leaves the store alone. -/
theorem keeps_upsert {writer : DeterministicWriter} {payload : Payload}
    {episodeMeta : Option EpisodeMeta} (kept : ¬writer.Puts payload store)
    (marked : MarkedAll writer.runtime payload.naturalKey payload.supersedes store) :
    (writer.upsert payload episodeMeta).Keeps (storeWorld engine) store := by
  refine Program.keeps_get_bind ?_
  rw [storeWorld_get]
  have same := not_not.mp kept
  cases stored : store.lookup (writer.recordPlace payload) with
  | none => simp [stored] at same
  | some existing =>
    rw [stored, Option.bind_some] at same
    simp only [if_pos same]
    unfold applyDeclared
    split
    · trivial
    · exact keeps_applySupersessions marked

/-- A repeated delivery of a settled episode changes nothing. -/
theorem changesNothing_of_settled (json : episode.contentFormat = "json")
    (settled : Settled service episode store) :
    ChangesNothing service engine episode store := by
  intro faults
  have keeps : (service.route episode).Keeps (storeWorld engine) store := by
    rw [route_of_json json, ingestJson]
    cases built : service.payloadOf episode with
    | error error => trivial
    | ok payload =>
      rw [lift_ok_bind]
      by_cases accepts : Accepts payload
      · rw [write_of_accepts accepts]
        exact keeps_upsert (settled payload built).1 (settled payload built).2
      · obtain ⟨error, refused⟩ := write_of_not_accepts service.writer
          (some (episodeMetaOf episode)) accepts
        rw [refused]
        trivial
  exact Program.runFaulty_of_keeps (Program.keeps_tryCatch_translate keeps) faults

/-- A structured episode whose ingest returned yields a payload that is accepted. -/
theorem payload_of_returned {faults : List (Option PyError)} (json : episode.contentFormat = "json")
    (returned : ((service.ingest episode).runFaulty (storeWorld engine) faults store).1 =
      .returned ()) :
    ∃ payload, service.payloadOf episode = .ok payload ∧ Accepts payload := by
  rw [runFaulty_ingest, route_of_json json, ingestJson, Outcome.mapFault_eq_returned] at returned
  cases built : service.payloadOf episode with
  | error error =>
    rw [built] at returned
    cases returned
  | ok payload =>
    rw [built, lift_ok_bind] at returned
    refine ⟨payload, rfl, ?_⟩
    by_contra refused
    obtain ⟨error, raises⟩ := write_of_not_accepts service.writer (some (episodeMetaOf episode))
      refused
    rw [raises] at returned
    cases returned

/-- A repeated delivery that changes nothing finds the episode settled. -/
theorem settled_of_changesNothing {payload : Payload} (json : episode.contentFormat = "json")
    (built : service.payloadOf episode = .ok payload) (accepts : Accepts payload)
    (room : store.keys.card < forwardPage * service.writer.pages)
    (unchanged : ChangesNothing service engine episode store) :
    Settled service episode store := by
  have same := unchanged []
  rw [Program.runFaulty_nil, run_ingest_of_accepts json built accepts room] at same
  dsimp only at same
  have kept : ¬service.writer.Puts payload store := by
    intro puts
    have changed : Changed store (service.writer.written engine payload
        (some (episodeMetaOf episode)) store) (service.writer.recordPlace payload) :=
      changed_written_iff.mpr ⟨puts, rfl⟩
    rw [same] at changed
    exact not_changed_self store _ changed
  intro other builtOther
  rw [built] at builtOther
  obtain rfl := Except.ok.inj builtOther
  rw [written, upserted, if_neg kept] at same
  exact ⟨kept, markAll_eq_self_iff.mp same⟩

end

/-- A write leaves its own payload settled. -/
theorem settled_written {service : RelayService} {engine : SearchEngine}
    {episode : MemoryEpisodeV1} {store : Store} {payload : Payload}
    {episodeMeta : Option EpisodeMeta} (built : service.payloadOf episode = .ok payload) :
    Settled service episode (service.writer.written engine payload episodeMeta store) := by
  intro other builtOther
  rw [built] at builtOther
  obtain rfl := Except.ok.inj builtOther
  obtain ⟨value, stored, hash⟩ := @lookup_written_self service.writer engine payload episodeMeta
    store
  refine ⟨fun puts => puts (by rw [stored, Option.bind_some, hash]), ?_⟩
  intro key member place record named found
  rw [written, lookup_markAll] at found
  obtain ⟨source, _, rfl⟩ := Option.map_eq_some_iff.mp found
  rw [if_pos ⟨key, member, named⟩]
  rfl

/-- A write of other content unsettles a payload of the same key. -/
theorem puts_written {writer : DeterministicWriter} {engine : SearchEngine} {store : Store}
    {payload update : Payload} {episodeMeta : Option EpisodeMeta}
    (samePlace : writer.recordPlace payload = writer.recordPlace update)
    (otherContent : contentHash writer.runtime update ≠ contentHash writer.runtime payload) :
    writer.Puts payload (writer.written engine update episodeMeta store) := by
  obtain ⟨value, stored, hash⟩ := @lookup_written_self writer engine update episodeMeta store
  intro same
  rw [samePlace, stored, Option.bind_some, hash] at same
  exact otherContent (Option.some.inj same)

/-! ### Sequences of deliveries -/

/-- A delivery of an episode: the calls to the store that fail, and whether an ingest of the same
episode returned before. -/
structure Delivery where
  episode : MemoryEpisodeV1
  faults : List (Option PyError)
  repeated : Bool

/-- How the ingest of a delivery ends, and the store it leaves. -/
def Delivery.ingest (service : RelayService) (engine : SearchEngine) (delivery : Delivery)
    (store : Store) : Outcome PyError Unit × Store :=
  (service.ingest delivery.episode).runFaulty (storeWorld engine) delivery.faults store

/-- A delivery of an accepted payload whose store calls succeed returns and leaves the written
store. -/
theorem Delivery.ingest_of_accepts {service : RelayService} {engine : SearchEngine}
    {delivery : Delivery} {store : Store} {payload : Payload} (faultless : delivery.faults = [])
    (json : delivery.episode.contentFormat = "json")
    (built : service.payloadOf delivery.episode = .ok payload) (accepts : Accepts payload)
    (room : store.keys.card < forwardPage * service.writer.pages) :
    delivery.ingest service engine store = (.returned (),
      service.writer.written engine payload (some (episodeMetaOf delivery.episode)) store) := by
  rw [Delivery.ingest, faultless, Program.runFaulty_nil, run_ingest_of_accepts json built accepts room]

/-- A delivery that puts its record changes the store. -/
theorem Delivery.ingest_ne_of_puts {service : RelayService} {engine : SearchEngine}
    {delivery : Delivery} {store : Store} {payload : Payload} (faultless : delivery.faults = [])
    (json : delivery.episode.contentFormat = "json")
    (built : service.payloadOf delivery.episode = .ok payload) (accepts : Accepts payload)
    (room : store.keys.card < forwardPage * service.writer.pages)
    (puts : service.writer.Puts payload store) : (delivery.ingest service engine store).2 ≠ store := by
  intro same
  rw [Delivery.ingest_of_accepts faultless json built accepts room] at same
  dsimp only at same
  have changed : Changed store (service.writer.written engine payload
      (some (episodeMetaOf delivery.episode)) store) (service.writer.recordPlace payload) :=
    changed_written_iff.mpr ⟨puts, rfl⟩
  rw [same] at changed
  exact not_changed_self store _ changed

/-- The store a sequence of deliveries leaves. -/
def afterDeliveries (service : RelayService) (engine : SearchEngine) (deliveries : List Delivery)
    (store : Store) : Store :=
  deliveries.foldl (fun state delivery => (delivery.ingest service engine state).2) store

/-- What holds of every repeated delivery and the deliveries before it. -/
def AtRepeats (deliveries : List Delivery) (property : List Delivery → Delivery → Prop) : Prop :=
  ∀ earlier delivery later, deliveries = earlier ++ delivery :: later → delivery.repeated = true →
    property earlier delivery

/-- A delivery of the same episode is among the earlier ones, and its ingest returned. -/
def ReturnedBefore (service : RelayService) (engine : SearchEngine) (initial : Store)
    (earlier : List Delivery) (delivery : Delivery) : Prop :=
  ∃ before first between, earlier = before ++ first :: between ∧
    first.episode = delivery.episode ∧
    (first.ingest service engine (afterDeliveries service engine before initial)).1 = .returned ()

section

variable {service : RelayService} {engine : SearchEngine} {deliveries : List Delivery}
  {initial : Store}

theorem afterDeliveries_concat (earlier : List Delivery) (delivery : Delivery) :
    afterDeliveries service engine (earlier ++ [delivery]) initial =
      (delivery.ingest service engine (afterDeliveries service engine earlier initial)).2 := by
  simp [afterDeliveries]

theorem atRepeats_concat {property : List Delivery → Delivery → Prop} {earlier : List Delivery}
    {last : Delivery} : AtRepeats (earlier ++ [last]) property ↔
      AtRepeats earlier property ∧ (last.repeated = true → property earlier last) := by
  constructor
  · intro holds
    refine ⟨?_, holds earlier last [] rfl⟩
    rintro before delivery after rfl repeated
    exact holds before delivery (after ++ [last]) (by simp) repeated
  · rintro ⟨holds, atLast⟩ before delivery after split repeated
    rcases List.eq_nil_or_concat after with rfl | ⟨rest, final, rfl⟩
    · obtain ⟨rfl, same⟩ := List.append_inj' split rfl
      obtain rfl := List.singleton_inj.mp same
      exact atLast repeated
    · rw [List.concat_eq_append, ← List.cons_append, ← List.append_assoc] at split
      exact holds before delivery rest (List.append_inj' split rfl).1 repeated

theorem atRepeats_singleton {property : List Delivery → Delivery → Prop} {delivery : Delivery}
    (first : delivery.repeated = false) : AtRepeats [delivery] property := by
  rw [show [delivery] = [] ++ [delivery] from rfl, atRepeats_concat, first]
  refine ⟨?_, by simp⟩
  intro earlier other later split
  simp at split

variable (service engine initial) in
/-- The episode of every repeated delivery has the property in the store it meets. -/
def Meets (property : MemoryEpisodeV1 → Store → Prop) (earlier : List Delivery)
    (delivery : Delivery) : Prop :=
  property delivery.episode (afterDeliveries service engine earlier initial)

/-- Repeated deliveries that change nothing can be left out. -/
theorem afterDeliveries_firsts
    (unchanged : AtRepeats deliveries
      (Meets service engine initial (ChangesNothing service engine))) :
    afterDeliveries service engine deliveries initial =
      afterDeliveries service engine (deliveries.filter fun delivery => !delivery.repeated)
        initial := by
  induction deliveries using List.reverseRecOn with
  | nil => rfl
  | append_singleton earlier last inductionHypothesis =>
    obtain ⟨before, atLast⟩ := atRepeats_concat.mp unchanged
    have firsts := inductionHypothesis before
    rw [List.filter_append, List.filter_singleton]
    cases repeated : last.repeated with
    | true =>
      rw [afterDeliveries_concat, Delivery.ingest, atLast repeated last.faults, firsts]
      simp
    | false =>
      simp only [Bool.not_false, cond_true]
      rw [afterDeliveries_concat, afterDeliveries_concat, firsts]

end

/-- In a sequence of deliveries of structured episodes, the repeated ones change nothing exactly
when each meets a store its episode is settled in; the store is then the one the first deliveries
alone leave. -/
theorem repeats_change_nothing_iff (service : RelayService) (engine : SearchEngine)
    (deliveries : List Delivery) (initial : Store)
    (json : ∀ delivery ∈ deliveries, delivery.episode.contentFormat = "json")
    (returned : AtRepeats deliveries (ReturnedBefore service engine initial))
    (room : AtRepeats deliveries (Meets service engine initial fun _ store =>
      store.keys.card < forwardPage * service.writer.pages)) :
    (AtRepeats deliveries (Meets service engine initial (ChangesNothing service engine)) ∧
        afterDeliveries service engine deliveries initial =
          afterDeliveries service engine (deliveries.filter fun delivery => !delivery.repeated)
            initial) ↔
      AtRepeats deliveries (Meets service engine initial (Settled service)) := by
  constructor
  · rintro ⟨unchanged, _⟩ earlier delivery later split repeated
    have isJson := json delivery (by rw [split]; simp)
    obtain ⟨before, first, between, _, sameEpisode, done⟩ :=
      returned earlier delivery later split repeated
    obtain ⟨payload, built, accepts⟩ := payload_of_returned (by rwa [sameEpisode]) done
    rw [sameEpisode] at built
    exact settled_of_changesNothing isJson built accepts (room earlier delivery later split repeated)
      (unchanged earlier delivery later split repeated)
  · intro settled
    have unchanged : AtRepeats deliveries
        (Meets service engine initial (ChangesNothing service engine)) := by
      intro earlier delivery later split repeated
      exact changesNothing_of_settled (json delivery (by rw [split]; simp))
        (settled earlier delivery later split repeated)
    exact ⟨unchanged, afterDeliveries_firsts unchanged⟩

/-! ### An update between two deliveries -/

section Sample

/-- The parse, the canonical dump and the digest of two bodies of one key. -/
def updateRuntime : Runtime :=
  .ofTables
    [("adr:a:D", "0481893c-9fee-56d5-81ba-e98f22f80986")]
    [(dumpOf "d", "fa02e5b599293826d1df5cf6b90fe28aeb692e8b4bda91cf2e1d557b591da02b"),
      (dumpOf "e", "6f8ca3b3b34554c088bead3e13b62e262e7dc222cf318f62721474166a734f09")]
    [(bodyOf "d", parsedBody "d"), (bodyOf "e", parsedBody "e")]
where
  bodyOf (decision : String) : String :=
    "\x7b\"project\": \"a\", \"identifier\": \"D\", \"source_ref\": \"s\", \"decision\": \"" ++
      decision ++ "\", \"status\": \"accepted\"\x7d"
  parsedBody (decision : String) : PyValue :=
    .dict [("project", .str "a"), ("identifier", .str "D"), ("source_ref", .str "s"),
      ("decision", .str decision), ("status", .str "accepted")]
  dumpOf (decision : String) : String :=
    "\x7b\"alternatives\":null,\"consequences\":null,\"context\":null,\"decision\":\"" ++
      decision ++ "\",\"domain_tags\":[],\"identifier\":\"D\",\"natural_key\":\"adr:a:D\"," ++
      "\"project\":\"a\",\"source_ref\":\"s\",\"status\":\"accepted\",\"supersedes\":[]," ++
      "\"title\":null\x7d"

def updateService : RelayService where
  writer := ⟨updateRuntime, 1⟩
  settings := ⟨1000, ⟨"0.15"⟩⟩

/-- An episode with the given decision, under an id of its own. -/
def decisionEpisode (decision : String) : MemoryEpisodeV1 where
  episodeId := decision
  projectId := "a"
  episodeType := "adr"
  contentFormat := "json"
  body := updateRuntime.bodyOf decision
  payloadType := some "adr"

/-- The payload of a sample episode, by its digest. -/
theorem payloadOf_decisionEpisode {decision digest : String}
    (built : ((updateService.payloadOf (decisionEpisode decision)).toOption.map fun payload =>
      (recordNamespace payload, payload.naturalKey, contentHash updateRuntime payload)) =
        some (["fleet_memory", "a", "adr"], "adr:a:D", digest)) :
    ∃ payload, updateService.payloadOf (decisionEpisode decision) = .ok payload ∧
      Accepts payload ∧ updateService.writer.recordPlace payload =
        ⟨["fleet_memory", "a", "adr"], "0481893c-9fee-56d5-81ba-e98f22f80986"⟩ ∧
      contentHash updateRuntime payload = digest := by
  cases parsed : updateService.payloadOf (decisionEpisode decision) with
  | error error => simp [parsed, Except.toOption] at built
  | ok payload =>
    simp only [parsed, Except.toOption, Option.map_some, Option.some.injEq, Prod.mk.injEq] at built
    obtain ⟨inNamespace, key, hash⟩ := built
    refine ⟨payload, rfl, ⟨(payloadOf_eq_ok parsed).1, ?_⟩, ?_, hash⟩
    · rw [inNamespace]
      decide
    · rw [recordPlace, inNamespace, key]
      decide

/-- A delivery of a sample episode. -/
def decisionDelivery (decision : String) (repeated : Bool) : Delivery where
  episode := decisionEpisode decision
  faults := []
  repeated := repeated

/-- A structured episode is delivered twice in a row. -/
theorem repeats_change_nothing_immediate :
    AtRepeats [decisionDelivery "d" false, decisionDelivery "d" true]
      (Meets updateService plainEngine ∅ (ChangesNothing updateService plainEngine)) := by
  obtain ⟨payload, built, accepts, _, _⟩ := @payloadOf_decisionEpisode "d"
    "fa02e5b599293826d1df5cf6b90fe28aeb692e8b4bda91cf2e1d557b591da02b" (by decide +kernel)
  have first : (decisionDelivery "d" false).ingest updateService plainEngine ∅ = _ :=
    Delivery.ingest_of_accepts rfl rfl built accepts (by decide)
  have after : afterDeliveries updateService plainEngine [decisionDelivery "d" false] ∅ = _ :=
    congrArg Prod.snd first
  have pair : ∀ property : List Delivery → Delivery → Prop,
      property [decisionDelivery "d" false] (decisionDelivery "d" true) →
        AtRepeats [decisionDelivery "d" false, decisionDelivery "d" true] property := by
    intro property holds
    exact atRepeats_concat.mpr ⟨atRepeats_singleton rfl, fun _ => holds⟩
  refine ((repeats_change_nothing_iff updateService plainEngine
    [decisionDelivery "d" false, decisionDelivery "d" true] ∅ ?_ (pair _ ?_) (pair _ ?_)).mpr
      (pair _ ?_)).1
  · intro delivery member
    simp only [List.mem_cons, List.not_mem_nil, or_false] at member
    rcases member with rfl | rfl <;> rfl
  · exact ⟨[], _, [], rfl, rfl, congrArg Prod.fst first⟩
  · rw [Meets, after]
    exact card_keys_written.trans_lt (by decide)
  · rw [Meets, after]
    exact settled_written built

/-- Between the two deliveries another episode updates the key: the second delivery writes the old
content back. -/
theorem repeat_reverts_update :
    AtRepeats [decisionDelivery "d" false, decisionDelivery "e" false, decisionDelivery "d" true]
        (ReturnedBefore updateService plainEngine ∅) ∧
      afterDeliveries updateService plainEngine
          [decisionDelivery "d" false, decisionDelivery "e" false, decisionDelivery "d" true] ∅ ≠
        afterDeliveries updateService plainEngine
          [decisionDelivery "d" false, decisionDelivery "e" false] ∅ := by
  obtain ⟨payload, built, accepts, place, digest⟩ := @payloadOf_decisionEpisode "d"
    "fa02e5b599293826d1df5cf6b90fe28aeb692e8b4bda91cf2e1d557b591da02b" (by decide +kernel)
  obtain ⟨update, builtUpdate, acceptsUpdate, samePlace, otherDigest⟩ :=
    @payloadOf_decisionEpisode "e"
      "6f8ca3b3b34554c088bead3e13b62e262e7dc222cf318f62721474166a734f09" (by decide +kernel)
  have first : (decisionDelivery "d" false).ingest updateService plainEngine ∅ = _ :=
    Delivery.ingest_of_accepts rfl rfl built accepts (by decide)
  have once : (afterDeliveries updateService plainEngine [decisionDelivery "d" false]
      ∅).keys.card ≤ 1 := by
    rw [show afterDeliveries updateService plainEngine [decisionDelivery "d" false] ∅ = _ from
      congrArg Prod.snd first]
    exact card_keys_written
  have twice : afterDeliveries updateService plainEngine
      [decisionDelivery "d" false, decisionDelivery "e" false] ∅ =
        updateService.writer.written plainEngine update
          (some (episodeMetaOf (decisionEpisode "e")))
          (afterDeliveries updateService plainEngine [decisionDelivery "d" false] ∅) :=
    congrArg Prod.snd (Delivery.ingest_of_accepts rfl rfl builtUpdate acceptsUpdate
      (once.trans_lt (by decide)))
  constructor
  · have initial := @atRepeats_singleton (ReturnedBefore updateService plainEngine ∅)
      (decisionDelivery "d" false) rfl
    have before := atRepeats_concat.mpr ⟨initial, fun repeated => by
      cases (show (decisionDelivery "e" false).repeated = true from repeated)⟩
    have returned : ReturnedBefore updateService plainEngine ∅
        ([decisionDelivery "d" false] ++ [decisionDelivery "e" false]) (decisionDelivery "d" true) :=
      ⟨[], _, _, rfl, rfl, congrArg Prod.fst first⟩
    exact atRepeats_concat.mpr ⟨before, fun _ => returned⟩
  · refine @Delivery.ingest_ne_of_puts updateService plainEngine (decisionDelivery "d" true)
      (afterDeliveries updateService plainEngine
        [decisionDelivery "d" false, decisionDelivery "e" false] ∅) payload rfl rfl built accepts
      ?_ ?_
    · rw [twice]
      exact (card_keys_written.trans (Nat.succ_le_succ once)).trans_lt (by decide)
    · rw [twice]
      refine puts_written (place.trans samePlace.symm) ?_
      show contentHash updateRuntime update ≠ contentHash updateRuntime payload
      rw [otherDigest, digest]
      decide

end Sample

end FleetMemory
