/-
This file proves what the versions of a record count. Through every history of writes that
return and of marks put between them, a record's version is one more than the number of its
successive writes that differ, and its content is that of its last write.
-/

import FleetMemory.WriteFrames

namespace FleetMemory

open StoreProgram Transitions DeterministicWriter

/-! ### Changes in a list -/

open Classical in
/-- The number of neighbours in a list that differ. -/
noncomputable def changes {Entry : Type} : List Entry → Nat
  | first :: second :: rest => (if first = second then 0 else 1) + changes (second :: rest)
  | _ => 0

section

variable {Entry Content : Type} {of : Entry → Content} {last next : Entry}

/-- An entry after one of the same content is no change. -/
theorem changes_concat_same (earlier : List Entry) (same : of last = of next) :
    changes ((earlier ++ [last] ++ [next]).map of) = changes ((earlier ++ [last]).map of) := by
  induction earlier with
  | nil => simp [changes, same]
  | cons entry rest inductionHypothesis =>
    cases rest with
    | nil => simp [changes, same]
    | cons other more => simpa [changes] using inductionHypothesis

/-- An entry after one of another content is one change more. -/
theorem changes_concat_other (earlier : List Entry) (differs : of last ≠ of next) :
    changes ((earlier ++ [last] ++ [next]).map of) = changes ((earlier ++ [last]).map of) + 1 := by
  induction earlier with
  | nil => simp [changes, differs]
  | cons entry rest inductionHypothesis =>
    cases rest with
    | nil => simp [changes, differs]
    | cons other more =>
      simp only [List.cons_append, List.map_cons, changes] at inductionHypothesis ⊢
      omega

end

/-! ### Histories of a record -/

/-- `payload.model_dump()` without its version: what the content hash is computed from. -/
def semanticContent (payload : Payload) : PyDict :=
  payload.modelDump.filter fun entry => entry.1 != "version"

/-- What happens to a store: a write that returns, or a mark put on a stored record. -/
inductive StoreEvent where
  | write (call : WriteCall)
  | mark (place : Place) (successor : String)

/-- An event, and the stores before and after it. -/
def EventStep (writer : DeterministicWriter) (before : Store) : StoreEvent → Store → Prop
  | .write call, after => CallStep writer before call after
  | .mark place successor, after => ∃ value, before.lookup place = some value ∧
      after = before.insert place (value.markedBy successor)

/-- The payloads written to the place, in order. -/
def writesAt (writer : DeterministicWriter) (place : Place) : List StoreEvent → List Payload :=
  List.filterMap fun
    | .write call =>
      if writer.recordPlace call.payload = place then some call.payload else none
    | .mark _ _ => none

/-- The payloads written to the record a key names, in order. -/
def writesOf (writer : DeterministicWriter) (key : String) : List StoreEvent → List Payload :=
  List.filterMap fun
    | .write call =>
      if keyPlace writer.runtime call.payload.naturalKey = keyPlace writer.runtime key then
        some call.payload
      else none
    | .mark _ _ => none

/-- The content hash tells the payloads apart. -/
def HashesApart (runtime : Runtime) (payloads : List Payload) : Prop :=
  ∀ first ∈ payloads, ∀ second ∈ payloads,
    contentHash runtime first = contentHash runtime second →
      semanticContent first = semanticContent second

/-- The record is what the payloads written to it, in order, make of it. -/
structure Recounts (writer : DeterministicWriter) (payloads : List Payload) (last : Payload)
    (value : StoredValue) : Prop where
  version : value.version = some (1 + changes (payloads.map semanticContent) : Int)
  hash : value.contentHash = some (contentHash writer.runtime last)
  content : ∃ source ∈ payloads, semanticContent source = semanticContent last ∧
    value.content = Json.dumps (.dict source.modelDump)

/-- The place has the record its payloads make, and none before the first. -/
def Tracks (writer : DeterministicWriter) (place : Place) (payloads : List Payload)
    (store : Store) : Prop :=
  (payloads = [] → store.lookup place = none) ∧
    ∀ earlier last, payloads = earlier ++ [last] →
      ∃ value, store.lookup place = some value ∧ Recounts writer payloads last value

section

variable {writer : DeterministicWriter} {place : Place} {payloads : List Payload}
  {last : Payload} {value : StoredValue} {before after : Store}

theorem writesAt_concat (events : List StoreEvent) (event : StoreEvent) :
    writesAt writer place (events ++ [event]) =
      writesAt writer place events ++ writesAt writer place [event] :=
  List.filterMap_append

theorem writesOf_eq {key : String} (named : keyPlace writer.runtime key = some place)
    (events : List StoreEvent) : writesOf writer key events = writesAt writer place events := by
  refine List.filterMap_congr fun event _ => ?_
  cases event with
  | write call => simp only [named, keyPlace_naturalKey, Option.some.injEq]
  | mark marked successor => rfl

theorem contentHash_congr {runtime : Runtime} {first second : Payload}
    (same : semanticContent first = semanticContent second) :
    contentHash runtime first = contentHash runtime second :=
  congrArg (fun content => runtime.sha256 (Json.dumps (.dict content))) same

theorem HashesApart.of_append {runtime : Runtime} {more : List Payload}
    (apart : HashesApart runtime (payloads ++ more)) : HashesApart runtime payloads :=
  fun first inFirst second inSecond =>
    apart first (List.mem_append_left _ inFirst) second (List.mem_append_left _ inSecond)

/-- A mark changes nothing the history accounts for. -/
theorem Recounts.markedBy (recounts : Recounts writer payloads last value) (successor : String) :
    Recounts writer payloads last (value.markedBy successor) :=
  ⟨recounts.version, recounts.hash, recounts.content⟩

/-- A store in which the record is the same or marked tracks the same payloads. -/
theorem Tracks.of_marked (tracks : Tracks writer place payloads before)
    (none_kept : before.lookup place = none → after.lookup place = none)
    (kept : ∀ value, before.lookup place = some value → after.lookup place = some value ∨
      ∃ successor, after.lookup place = some (value.markedBy successor)) :
    Tracks writer place payloads after := by
  refine ⟨fun empty => none_kept (tracks.1 empty), fun earlier last whole => ?_⟩
  obtain ⟨value, stored, recounts⟩ := tracks.2 earlier last whole
  rcases kept value stored with same | ⟨successor, marked⟩
  · exact ⟨value, same, recounts⟩
  · exact ⟨_, marked, recounts.markedBy successor⟩

/-- A record as a call marks it. -/
theorem Recounts.mapped {call : WriteCall} (recounts : Recounts writer payloads last value) :
    Recounts writer payloads last
      (if Lists writer call.payload place then value.markedBy call.payload.naturalKey
      else value) := by
  split
  · exact recounts.markedBy _
  · exact recounts

/-- What a call puts is one more payload of the record. -/
theorem recounts_putValue {call : WriteCall}
    (version : writer.nextVersion call.payload before =
      (1 + changes ((payloads ++ [call.payload]).map semanticContent) : Int)) :
    Recounts writer (payloads ++ [call.payload]) call.payload (call.putValue writer before) where
  version := by
    rw [WriteCall.putValue, markFound_version, ← version]
    rfl
  hash := by
    rw [WriteCall.putValue, markFound_contentHash]
    rfl
  content := by
    refine ⟨call.payload, List.mem_append_right _ List.mem_cons_self, rfl, ?_⟩
    rw [WriteCall.putValue, markFound_content]
    rfl

/-- A call to the record adds its payload. -/
theorem tracks_leaves_own {call : WriteCall} (own : writer.recordPlace call.payload = place)
    (apart : HashesApart writer.runtime (payloads ++ [call.payload]))
    (tracks : Tracks writer place payloads before) :
    Tracks writer place (payloads ++ [call.payload]) (call.leaves writer before) := by
  refine ⟨fun empty => absurd empty (by simp), fun earlier last whole => ?_⟩
  obtain ⟨rfl, single⟩ := List.append_inj' whole rfl
  obtain rfl := List.singleton_inj.mp single
  rw [lookup_leaves]
  rcases List.eq_nil_or_concat' payloads with rfl | ⟨older, last, rfl⟩
  · have absent := tracks.1 rfl
    have puts : writer.Puts call.payload before := by
      rw [Puts, own, absent]
      simp
    have version : writer.nextVersion call.payload before = 1 := by rw [nextVersion, own, absent]
    rw [if_pos ⟨puts, own.symm⟩, Option.map_some]
    have recounts : Recounts writer ([] ++ [call.payload]) call.payload (call.putValue writer before) :=
      recounts_putValue (by rw [version]; simp [changes])
    exact ⟨_, rfl, recounts.mapped⟩
  · obtain ⟨value, stored, recounts⟩ := tracks.2 older last rfl
    by_cases same : semanticContent last = semanticContent call.payload
    · have kept : ¬writer.Puts call.payload before := by
        rw [Puts, own, stored, Option.bind_some, recounts.hash, contentHash_congr same, not_not]
      rw [if_neg fun both => kept both.1, stored, Option.map_some]
      refine ⟨_, rfl, Recounts.mapped ⟨?_, ?_, ?_⟩⟩
      · rw [recounts.version, changes_concat_same older same]
      · rw [recounts.hash, contentHash_congr same]
      · obtain ⟨source, member, ofLast, content⟩ := recounts.content
        exact ⟨source, List.mem_append_left _ member, ofLast.trans same, content⟩
    · have puts : writer.Puts call.payload before := by
        rw [Puts, own, stored, Option.bind_some, recounts.hash]
        intro equal
        exact same (apart last (by simp) call.payload (by simp) (Option.some.inj equal))
      have version : writer.nextVersion call.payload before =
          (1 + changes (((older ++ [last]) ++ [call.payload]).map semanticContent) : Int) := by
        rw [nextVersion, own, stored, changes_concat_other older same]
        simp only [recounts.version, Option.getD_some]
        omega
      rw [if_pos ⟨puts, own.symm⟩, Option.map_some]
      exact ⟨_, rfl, (recounts_putValue version).mapped⟩

/-- A call to another record leaves this one, or marks it. -/
theorem tracks_leaves_other {call : WriteCall} (other : writer.recordPlace call.payload ≠ place)
    (tracks : Tracks writer place payloads before) :
    Tracks writer place payloads (call.leaves writer before) := by
  have elsewhere : ¬(writer.Puts call.payload before ∧ place = writer.recordPlace call.payload) :=
    fun both => other both.2.symm
  refine tracks.of_marked (fun absent => ?_) fun value stored => ?_
  · rw [lookup_leaves, if_neg elsewhere, absent, Option.map_none]
  · rw [lookup_leaves, if_neg elsewhere, stored, Option.map_some]
    split
    · exact Or.inr ⟨_, rfl⟩
    · exact Or.inl rfl

theorem tracks_mark {marked : Place} {successor : String}
    (stored : before.lookup marked = some value) (tracks : Tracks writer place payloads before) :
    Tracks writer place payloads (before.insert marked (value.markedBy successor)) := by
  by_cases same : place = marked
  · subst same
    refine tracks.of_marked (fun absent => ?_) fun kept found => ?_
    · rw [stored] at absent
      cases absent
    · rw [stored] at found
      obtain rfl := Option.some.inj found
      exact Or.inr ⟨successor, lookup_insert_self⟩
  · have kept := @lookup_insert_other before marked place (value.markedBy successor) same
    exact tracks.of_marked (fun absent => kept.trans absent) fun _ found =>
      Or.inl (kept.trans found)

/-- An event adds what it writes to the record's payloads. -/
theorem tracks_eventStep {event : StoreEvent} (step : EventStep writer before event after)
    (apart : HashesApart writer.runtime (payloads ++ writesAt writer place [event]))
    (tracks : Tracks writer place payloads before) :
    Tracks writer place (payloads ++ writesAt writer place [event]) after := by
  cases event with
  | mark marked successor =>
    obtain ⟨value, stored, rfl⟩ := step
    rw [show writesAt writer place [.mark marked successor] = [] from rfl, List.append_nil]
    exact tracks_mark stored tracks
  | write call =>
    obtain ⟨_, rfl⟩ := leaves_of_callStep step
    by_cases own : writer.recordPlace call.payload = place
    · have single : writesAt writer place [.write call] = [call.payload] := by
        simp [writesAt, own]
      rw [single] at apart ⊢
      exact tracks_leaves_own own apart tracks
    · have nothing : writesAt writer place [.write call] = [] := by simp [writesAt, own]
      rw [nothing, List.append_nil]
      exact tracks_leaves_other own tracks

theorem tracks_of_run {start final : Store} {events : List StoreEvent}
    (run : Run (EventStep writer) start events final) (absent : start.lookup place = none)
    (apart : HashesApart writer.runtime (writesAt writer place events)) :
    Tracks writer place (writesAt writer place events) final := by
  refine run.invariant_of_labels (fun past state =>
    HashesApart writer.runtime (writesAt writer place past) →
      Tracks writer place (writesAt writer place past) state) ?_ ?_ apart
  · intro _
    exact ⟨fun _ => absent, fun earlier last whole => absurd whole (by simp [writesAt])⟩
  · intro past state event next tracks step apart
    rw [writesAt_concat] at apart ⊢
    exact tracks_eventStep step apart (tracks apart.of_append)

/-- A call that writes its record's content again leaves the record, or marks it under a key of
the same identity. -/
theorem lookup_of_unchanged {call : WriteCall} (own : writer.recordPlace call.payload = place)
    (step : CallStep writer before call after) (stored : before.lookup place = some value)
    (recounts : Recounts writer payloads last value)
    (same : semanticContent last = semanticContent call.payload) :
    after.lookup place = before.lookup place ∨ ∃ key ∈ call.payload.supersedes,
      key ≠ call.payload.naturalKey ∧ recordIdentity writer.runtime key =
        recordIdentity writer.runtime call.payload.naturalKey := by
  obtain ⟨_, rfl⟩ := leaves_of_callStep step
  have kept : ¬writer.Puts call.payload before := by
    rw [Puts, own, stored, Option.bind_some, recounts.hash, contentHash_congr same, not_not]
  by_cases lists : Lists writer call.payload place
  · right
    obtain ⟨key, member, named⟩ := lists
    refine ⟨key, member, fun itself => ?_, ?_⟩
    · exact call.payload.valid.notItself (itself ▸ member)
    · rw [← key_of_keyPlace named, ← own]
      rfl
  · left
    rw [lookup_leaves, if_neg fun both => kept both.1, stored, Option.map_some, if_neg lists]

end

/-- The record a key names, through any history of writes that return and marks on any records,
under a content hash that does not collide: its version is one more than the number of its
successive writes that differ, its content is that of its last write up to the version, and a
write of the same content leaves it as it was. -/
theorem version_law (writer : DeterministicWriter) (key : String) (place : Place)
    (start final : Store) (events : List StoreEvent)
    (named : keyPlace writer.runtime key = some place) (absent : start.lookup place = none)
    (apart : HashesApart writer.runtime (writesOf writer key events))
    (run : Run (EventStep writer) start events final) :
    (∀ earlier last, writesOf writer key events = earlier ++ [last] →
      ∃ value, final.lookup place = some value ∧
        value.version =
          some (1 + changes ((writesOf writer key events).map semanticContent) : Int) ∧
        ∃ source ∈ writesOf writer key events, semanticContent source = semanticContent last ∧
          value.content = Json.dumps (.dict source.modelDump)) ∧
    ∀ past call rest before after earlier last, events = past ++ .write call :: rest →
      Run (EventStep writer) start past before → CallStep writer before call after →
      keyPlace writer.runtime call.payload.naturalKey = some place →
      writesOf writer key past = earlier ++ [last] →
      semanticContent last = semanticContent call.payload →
        after.lookup place = before.lookup place ∨ ∃ key ∈ call.payload.supersedes,
          key ≠ call.payload.naturalKey ∧ recordIdentity writer.runtime key =
            recordIdentity writer.runtime call.payload.naturalKey := by
  simp only [writesOf_eq named] at apart ⊢
  constructor
  · intro earlier last whole
    obtain ⟨value, stored, recounts⟩ := (tracks_of_run run absent apart).2 earlier last whole
    exact ⟨value, stored, recounts.version, recounts.content⟩
  · rintro past call rest before after earlier last rfl reached step own whole same
    have within : HashesApart writer.runtime (writesAt writer place past) := by
      rw [show writesAt writer place (past ++ .write call :: rest) = _ from
        List.filterMap_append] at apart
      exact apart.of_append
    obtain ⟨value, stored, recounts⟩ := (tracks_of_run reached absent within).2 earlier last whole
    rw [keyPlace_naturalKey] at own
    exact lookup_of_unchanged (Option.some.inj own) step stored recounts same

/-! ### A sample history -/

section Sample

/-- The identity of a record, and the digests of two contents of it. -/
def revisionRuntime : Runtime :=
  .ofTables [("adr:a:P", "d1684d9a-8c7f-5174-a807-b69950409495")]
    [(dumpOf "d", "e4b3a04f3a6ff73ee90d57771a8611234c7ce75c37d0cf674427813a1b1feca3"),
      (dumpOf "e", "f1cef5cf2140225bdfb647e4a6fe2fca1675094f1e23d5f273f63633bac611b4")] []
where
  dumpOf (decision : String) : String :=
    "\x7b\"alternatives\":null,\"consequences\":null,\"context\":null,\"decision\":\"" ++
      decision ++ "\",\"domain_tags\":[],\"identifier\":\"P\",\"natural_key\":\"adr:a:P\"," ++
      "\"project\":\"a\",\"source_ref\":\"s\",\"status\":\"accepted\",\"supersedes\":[]," ++
      "\"title\":null\x7d"

def revisionWriter : DeterministicWriter where
  runtime := revisionRuntime
  pages := 1

/-- A revision of the sample ADR. -/
def revisionOfA : Payload where
  toPayloadFields := adrFields "a" "P" "e" []
  valid := ⟨by decide, by decide, by decide, by decide, by decide, by decide⟩

theorem contentHash_predecessorOfA : contentHash revisionRuntime predecessorOfA =
    "e4b3a04f3a6ff73ee90d57771a8611234c7ce75c37d0cf674427813a1b1feca3" := by decide +kernel

theorem contentHash_revisionOfA : contentHash revisionRuntime revisionOfA =
    "f1cef5cf2140225bdfb647e4a6fe2fca1675094f1e23d5f273f63633bac611b4" := by decide +kernel

theorem revisionOfA_differs : semanticContent predecessorOfA ≠ semanticContent revisionOfA := by
  intro same
  have digests := @contentHash_congr revisionRuntime _ _ same
  rw [contentHash_predecessorOfA, contentHash_revisionOfA] at digests
  exact absurd digests (by decide)

/-- The history of the sample ADR: it is written, revised and marked, and its revision is written
again. -/
def sampleHistory : List StoreEvent :=
  [.write (sampleCall predecessorOfA), .write (sampleCall revisionOfA),
    .mark (revisionWriter.recordPlace predecessorOfA) "adr:a:S",
    .write (sampleCall revisionOfA)]

theorem writesOf_sampleHistory : writesOf revisionWriter "adr:a:P" sampleHistory =
    [predecessorOfA, revisionOfA, revisionOfA] := by
  have first : keyPlace revisionRuntime predecessorOfA.naturalKey =
    keyPlace revisionRuntime "adr:a:P" := by decide
  have second : keyPlace revisionRuntime revisionOfA.naturalKey =
    keyPlace revisionRuntime "adr:a:P" := by decide
  simp [writesOf, sampleHistory, sampleCall, revisionWriter, first, second]

/-- Records of two contents are told apart by their digests. -/
theorem hashesApart_sampleHistory :
    HashesApart revisionRuntime (writesOf revisionWriter "adr:a:P" sampleHistory) := by
  have digests : ("e4b3a04f3a6ff73ee90d57771a8611234c7ce75c37d0cf674427813a1b1feca3" : String) ≠
      "f1cef5cf2140225bdfb647e4a6fe2fca1675094f1e23d5f273f63633bac611b4" := by decide
  intro first inFirst second inSecond
  simp only [writesOf_sampleHistory, List.mem_cons, List.not_mem_nil, or_false] at inFirst inSecond
  rcases inFirst with rfl | rfl | rfl <;> rcases inSecond with rfl | rfl | rfl <;>
    simp [contentHash_predecessorOfA, contentHash_revisionOfA, digests, digests.symm]

/-- After the sample history the record is at version two. -/
theorem version_law_revision :
    ∃ final value, Run (EventStep revisionWriter) ∅ sampleHistory final ∧
      final.lookup (revisionWriter.recordPlace predecessorOfA) = some value ∧
      value.version = some 2 := by
  have named : keyPlace revisionRuntime "adr:a:P" =
      some (revisionWriter.recordPlace predecessorOfA) := by decide
  have first : EventStep revisionWriter ∅ (.write (sampleCall predecessorOfA)) _ :=
    callStep_sampleCall ⟨by decide, by decide⟩ (by decide)
  have once := @card_keys_leaves revisionWriter ∅ (sampleCall predecessorOfA)
  have second : EventStep revisionWriter _ (.write (sampleCall revisionOfA)) _ :=
    callStep_sampleCall ⟨by decide, by decide⟩ (once.trans_lt (by decide))
  have twice := @card_keys_leaves revisionWriter
    ((sampleCall predecessorOfA).leaves revisionWriter ∅) (sampleCall revisionOfA)
  have revised := (Run.single first).append (Run.single second)
  have apart := hashesApart_sampleHistory
  rw [writesOf_eq named, show sampleHistory = [.write (sampleCall predecessorOfA)] ++
    [.write (sampleCall revisionOfA)] ++ sampleHistory.drop 2 from rfl,
    show writesAt revisionWriter _ (_ ++ sampleHistory.drop 2) = _ from
      List.filterMap_append] at apart
  have samePlace : revisionWriter.recordPlace revisionOfA =
      revisionWriter.recordPlace predecessorOfA := by decide
  obtain ⟨value, stored, _⟩ := (tracks_of_run revised rfl apart.of_append).2 [predecessorOfA]
    revisionOfA (by simp [writesAt, sampleCall, samePlace])
  have third : EventStep revisionWriter _
      (.mark (revisionWriter.recordPlace predecessorOfA) "adr:a:S") _ := ⟨value, stored, rfl⟩
  have marked := (card_keys_insert_le ((sampleCall revisionOfA).leaves revisionWriter
    ((sampleCall predecessorOfA).leaves revisionWriter ∅))
    (revisionWriter.recordPlace predecessorOfA) (value.markedBy "adr:a:S")).trans
      (Nat.succ_le_succ (twice.trans (Nat.succ_le_succ once)))
  have fourth : EventStep revisionWriter _ (.write (sampleCall revisionOfA)) _ :=
    callStep_sampleCall ⟨by decide, by decide⟩ (marked.trans_lt (by decide))
  have run := (revised.append (Run.single third)).append (Run.single fourth)
  obtain ⟨law, _⟩ := version_law revisionWriter "adr:a:P" _ ∅ _ sampleHistory named rfl
    hashesApart_sampleHistory run
  obtain ⟨final, kept, version, _⟩ := law [predecessorOfA, revisionOfA] revisionOfA
    writesOf_sampleHistory
  refine ⟨_, final, run, kept, ?_⟩
  rw [version, writesOf_sampleHistory]
  simp [changes, revisionOfA_differs]

end Sample

end FleetMemory
