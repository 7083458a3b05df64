/-
This file models the relay's progress marker: the texts of its times, the file the relay rewrites
at every message, and the reader of the fence. It proves that the file tells the whole history of
the relay's processes, however often they were restarted.
-/

import FleetMemory.Calendar
import FleetMemory.Errors
import FleetMemory.Fence
import FleetMemory.JsonText

namespace FleetMemory.Fence

open Calendar

/-! ### Times and their texts -/

/-- A time `datetime.now(UTC)` can give: one of the years 1 to 9999. -/
structure ClockTime where
  moment : Int
  begun : days (1 - epochOrdinal) ≤ moment
  ended : moment < days (3652060 - epochOrdinal)

/-- `moment.date()`. -/
def dateOf (moment : Int) : CivilDate :=
  ofOrdinal (moment / days 1 + epochOrdinal).toNat

/-- The seconds since midnight. -/
def secondOfDay (moment : Int) : Nat :=
  (moment % days 1 / 1000000).toNat

/-- The moment without its fraction of a second. -/
def toSecond (moment : Int) : Int :=
  moment - moment % 1000000

/-- `moment.strftime("%Y-%m-%dT%H:%M:%SZ")`. -/
def strftime (moment : Int) : String :=
  let date := dateOf moment
  let seconds := secondOfDay moment
  String.ofList (padded 4 date.year ++ '-' :: (padded 2 date.month ++ '-' :: (padded 2 date.day ++
    'T' :: (padded 2 (seconds / 3600) ++ ':' :: (padded 2 (seconds / 60 % 60) ++
      ':' :: (padded 2 (seconds % 60) ++ ['Z']))))))

/-- The text goes on with the character. -/
def expect (character : Char) (text : List Char) : Option (List Char) :=
  if text.head? = some character then some text.tail else none

/-- The moment of a text of the form `YYYY-MM-DDTHH:MM:SS+00:00`. -/
def utcMoment (text : List Char) : Option Int := do
  let (year, rest) ← readPadded 4 text
  let rest ← expect '-' rest
  let (month, rest) ← readPadded 2 rest
  let rest ← expect '-' rest
  let (day, rest) ← readPadded 2 rest
  let rest ← expect 'T' rest
  let (hour, rest) ← readPadded 2 rest
  let rest ← expect ':' rest
  let (minute, rest) ← readPadded 2 rest
  let rest ← expect ':' rest
  let (second, rest) ← readPadded 2 rest
  let date : CivilDate := ⟨year, month, day⟩
  if rest = ['+', '0', '0', ':', '0', '0'] ∧ date.Valid ∧ hour < 24 ∧ minute < 60 ∧ second < 60 then
    some (days (date.ordinal - epochOrdinal) +
      ((hour * 3600 + minute * 60 + second : Nat) : Int) * 1000000)
  else none

/-- What the reader of a marker calls of the standard library beyond the forms the relay writes. -/
structure MarkerLibrary where
  /-- `datetime.fromisoformat(text)`, naive times taken as UTC, for texts of other forms. -/
  otherForms : String → Except PyError Int
  /-- `float(text)` of a JSON number. -/
  floatOf : String → PyFloat
  /-- `int(value)` of a float. -/
  intOfFloat : PyFloat → Except PyError Int
  /-- `int(value)` of a string. -/
  intOfStr : String → Except PyError Int

section

variable (library : MarkerLibrary)

/-- `datetime.fromisoformat(text)` as a moment. -/
def fromIsoformat (text : String) : Except PyError Int :=
  match utcMoment text.toList with
  | some moment => .ok moment
  | none => library.otherForms text

/-- `value.replace("Z", "+00:00")`. -/
def withOffset (text : String) : String :=
  String.ofList (text.toList.flatMap fun character =>
    if character = 'Z' then ['+', '0', '0', ':', '0', '0'] else [character])

/-- `_parse_iso`. -/
def parseIso (value : PyValue) : Except PyError (Option Int) :=
  match value with
  | .str text =>
    if text = "" then .ok none
    else match fromIsoformat library (withOffset text) with
      | .ok moment => .ok (some moment)
      | .error (.valueError _) => .ok none
      | .error error => .error error
  | _ => .ok none

/-- `int(value)`. -/
def intOf : PyValue → Except PyError Int
  | .int value => .ok value
  | .bool value => .ok (if value then 1 else 0)
  | .float value => library.intOfFloat value
  | .str value => library.intOfStr value
  | value => .error (.typeError ("int() argument must be a string, a bytes-like object or a real " ++
      "number, not '" ++ value.typeName ++ "'"))

/-- `_int_or_zero`. -/
def intOrZero (value : PyValue) : Except PyError Int :=
  match intOf library value with
  | .ok number => .ok number
  | .error (.typeError _) => .ok 0
  | .error (.valueError _) => .ok 0
  | .error error => .error error

end

/-! ### The marker file -/

/-- The marker file: missing, unreadable for an `OSError` of a class, or its text. -/
inductive MarkerFile where
  | missing
  | unreadable (className : String)
  | holds (raw : String)

/-- `data.get(name)`. -/
def getOrNone (data : PyDict) (name : String) : PyValue :=
  (PyDict.get data name).getD .none

/-- `read_marker`, for a path and its label. -/
def readMarker (library : MarkerLibrary) (file : MarkerFile) (label : String) :
    Except PyError MarkerRead :=
  match file with
  | .missing => .ok ⟨none, some ("the relay has not written one yet; either it has not been " ++
      "rebuilt with the fence, or its state directory is not mounted"), label⟩
  | .unreadable className =>
    .ok ⟨none, some ("the progress marker cannot be read (" ++ className ++ ")"), label⟩
  | .holds raw =>
    match Json.loads library.floatOf raw with
    | none =>
      .ok ⟨none, some "the progress marker is not readable JSON (truncated or corrupt)", label⟩
    | some (.dict data) => do
      match ← parseIso library (getOrNone data "started_at") with
      | none => return ⟨none, some ("the progress marker carries no start time, so the relay's " ++
          "state is unknown"), label⟩
      | some startedAt => do
        let lastMessageAt ← parseIso library (getOrNone data "last_message_at")
        let lastIngestAt ← parseIso library (getOrNone data "last_ingest_at")
        let messagesSinceStart ← intOrZero library (getOrNone data "messages_since_start")
        let ingestsSinceStart ← intOrZero library (getOrNone data "ingests_since_start")
        let lastDisposition := match getOrNone data "last_disposition" with
          | .str disposition => some disposition
          | _ => none
        return ⟨some ⟨some startedAt, lastMessageAt, lastIngestAt, messagesSinceStart,
          ingestsSinceStart, lastDisposition⟩, none, label⟩
    | some _ => .ok ⟨none, some "the progress marker is not in the expected shape", label⟩

/-- `RelayMarker`: what one process holds. -/
structure RelayMarker where
  startedAt : Option String := none
  lastMessageAt : Option String := none
  lastIngestAt : Option String := none
  lastDisposition : Option String := none
  messages : Nat := 0
  ingests : Nat := 0

namespace RelayMarker

/-- `_payload`. -/
def payload (marker : RelayMarker) : PyDict :=
  [("schema", .int 1),
    ("started_at", optional .str marker.startedAt),
    ("last_message_at", optional .str marker.lastMessageAt),
    ("last_ingest_at", optional .str marker.lastIngestAt),
    ("messages_since_start", .int marker.messages),
    ("ingests_since_start", .int marker.ingests),
    ("last_disposition", optional .str marker.lastDisposition)]

/-- `_write`, which replaces the file. -/
def write (marker : RelayMarker) : MarkerFile :=
  .holds (Json.dumpsWith ", " ": " (.dict marker.payload) ++ "\n")

/-- `record_start` of a new process, up to its write. -/
def recordStart (library : MarkerLibrary) (file : MarkerFile) (now : ClockTime) :
    Except PyError RelayMarker := do
  let prior ← readMarker library file ""
  match prior.state with
  | none => return { startedAt := some (strftime now.moment) }
  | some state => return {
      startedAt := some (strftime now.moment)
      lastMessageAt := state.lastMessageAt.map strftime
      lastIngestAt := state.lastIngestAt.map strftime
      lastDisposition := state.lastDisposition }

/-- `record_ingest`, up to its write. -/
def recordIngest (marker : RelayMarker) (now : ClockTime) : RelayMarker :=
  let stamp := strftime now.moment
  { marker with
    ingests := marker.ingests + 1
    messages := marker.messages + 1
    lastIngestAt := some stamp
    lastMessageAt := some stamp
    lastDisposition := some "ack" }

/-- `record_message`, up to its write. -/
def recordMessage (marker : RelayMarker) (now : ClockTime) (disposition : String) : RelayMarker :=
  { marker with
    messages := marker.messages + 1
    lastMessageAt := some (strftime now.moment)
    lastDisposition := some disposition }

end RelayMarker

/-! ### Lifetimes of the relay -/

/-- A message the relay records, and when. -/
inductive MarkerCall where
  | ingest (now : ClockTime)
  | message (now : ClockTime) (disposition : String)

namespace MarkerCall

def now : MarkerCall → ClockTime
  | ingest now => now
  | message now _ => now

def disposition : MarkerCall → String
  | ingest _ => "ack"
  | message _ disposition => disposition

def isIngest : MarkerCall → Bool
  | ingest _ => true
  | message _ _ => false

/-- The marker after the call. -/
def record (marker : RelayMarker) : MarkerCall → RelayMarker
  | ingest now => marker.recordIngest now
  | message now disposition => marker.recordMessage now disposition

end MarkerCall

/-- One process: when it started, and the messages it recorded so far. -/
structure Lifetime where
  startedAt : ClockTime
  calls : List MarkerCall

/-- The marker of a process that found a file, and the file its last call left. -/
def live (library : MarkerLibrary) (file : MarkerFile) (lifetime : Lifetime) :
    Except PyError (RelayMarker × MarkerFile) := do
  let started ← RelayMarker.recordStart library file lifetime.startedAt
  return lifetime.calls.foldl
    (fun found call => (call.record found.1, (call.record found.1).write)) (started, started.write)

/-- The file the processes left, one after another. -/
def fileAfter (library : MarkerLibrary) : List Lifetime → MarkerFile → Except PyError MarkerFile
  | [], file => .ok file
  | lifetime :: rest, file => do
    let (_, file) ← live library file lifetime
    fileAfter library rest file

/-- The state that tells the history of the processes, the last of which is running. -/
def trueState (earlier : List Lifetime) (current : Lifetime) : MarkerState :=
  let history := (earlier ++ [current]).flatMap Lifetime.calls
  { startedAt := some (toSecond current.startedAt.moment)
    lastMessageAt := history.getLast?.map fun call => toSecond call.now.moment
    lastIngestAt := (history.filter MarkerCall.isIngest).getLast?.map fun call =>
      toSecond call.now.moment
    messagesSinceStart := current.calls.length
    ingestsSinceStart := (current.calls.filter MarkerCall.isIngest).length
    lastDisposition := history.getLast?.map MarkerCall.disposition }

/-! ### The texts of times are read back -/

section

variable {library : MarkerLibrary}

@[simp] theorem expect_cons (character : Char) (rest : List Char) :
    expect character (character :: rest) = some rest :=
  if_pos rfl

theorem secondOfDay_lt (moment : Int) : secondOfDay moment < 86400 := by
  unfold secondOfDay days
  omega

/-- A clock time's day is in the calendar. -/
theorem date_of_clockTime (time : ClockTime) :
    (dateOf time.moment).Valid ∧ (dateOf time.moment).year ≤ 9999 ∧
      ((dateOf time.moment).ordinal : Int) = time.moment / days 1 + epochOrdinal := by
  have begun := time.begun
  have ended := time.ended
  unfold days epochOrdinal at begun ended
  have positive : 1 ≤ (time.moment / days 1 + epochOrdinal).toNat ∧
      (time.moment / days 1 + epochOrdinal).toNat ≤ 3652059 := by
    unfold days epochOrdinal
    omega
  obtain ⟨valid, counts⟩ := ofOrdinal_spec positive.1
  refine ⟨valid, year_ofOrdinal positive.2, ?_⟩
  rw [dateOf, counts]
  omega

/-- The characters of a number are no `Z`. -/
theorem flatMap_padded (width number : Nat) :
    (padded width number).flatMap (fun character =>
      if character = 'Z' then ['+', '0', '0', ':', '0', '0'] else [character]) =
        padded width number := by
  have kept : ∀ character ∈ padded width number, (if character = 'Z' then
      ['+', '0', '0', ':', '0', '0'] else [character]) = [character] := by
    intro character member
    refine if_neg ?_
    rintro rfl
    exact absurd (isDigit_of_mem_padded member) (by decide)
  rw [List.flatMap_congr kept, List.flatMap_singleton']

/-- The text of a clock time is read as the time, to the second. -/
theorem utcMoment_strftime (time : ClockTime) :
    utcMoment (withOffset (strftime time.moment)).toList = some (toSecond time.moment) := by
  obtain ⟨valid, century, counts⟩ := date_of_clockTime time
  have seconds := secondOfDay_lt time.moment
  have month : (dateOf time.moment).month < 10 ^ 2 := by
    have := valid.2.2.1
    omega
  have day : (dateOf time.moment).day < 10 ^ 2 := by
    have := valid.2.2.2.2.trans (daysInMonth_le _ _)
    omega
  simp only [strftime, withOffset, String.toList_ofList, List.flatMap_append, List.flatMap_cons,
    List.flatMap_nil, flatMap_padded, Char.reduceEq, if_false, if_true, List.singleton_append,
    List.append_nil]
  have year : (dateOf time.moment).year < 10 ^ 4 := by omega
  have hour : secondOfDay time.moment / 3600 < 10 ^ 2 := by omega
  have minute : secondOfDay time.moment / 60 % 60 < 10 ^ 2 := by omega
  have second : secondOfDay time.moment % 60 < 10 ^ 2 := by omega
  simp only [utcMoment, readPadded_padded year, readPadded_padded month, readPadded_padded day,
    readPadded_padded hour, readPadded_padded minute, readPadded_padded second, expect_cons,
    Option.bind_eq_bind, Option.bind_some]
  rw [if_pos ⟨trivial, valid, by omega, by omega, by omega⟩, counts]
  unfold days toSecond secondOfDay days
  congr 1
  omega

theorem strftime_ne_empty (moment : Int) : strftime moment ≠ "" := by
  intro empty
  simpa [strftime] using congrArg String.toList empty

theorem parseIso_strftime (time : ClockTime) :
    parseIso library (.str (strftime time.moment)) = .ok (some (toSecond time.moment)) := by
  rw [parseIso, if_neg (strftime_ne_empty _), fromIsoformat, utcMoment_strftime]

/-- The text of a time does not tell its fraction of a second. -/
theorem strftime_toSecond (moment : Int) : strftime (toSecond moment) = strftime moment := by
  have sameDay : toSecond moment / days 1 = moment / days 1 := by
    unfold toSecond days
    omega
  have sameSecond : secondOfDay (toSecond moment) = secondOfDay moment := by
    unfold secondOfDay toSecond days
    omega
  rw [strftime, strftime, dateOf, sameDay, sameSecond, dateOf]

/-! ### The file tells what the marker holds -/

/-- What a written file says under each name of the marker. -/
theorem loads_write (library : MarkerLibrary) (marker : RelayMarker) :
    ∃ data, Json.loads library.floatOf
        (Json.dumpsWith ", " ": " (.dict marker.payload) ++ "\n") = some (.dict data) ∧
      ∀ name, getOrNone data name = getOrNone marker.payload name := by
  have text (value : Option String) : Json.Plain library.floatOf (optional .str value) := by
    cases value with
    | none => exact .none
    | some text => exact .str text
  have distinct : (marker.payload.map Prod.fst).Nodup := by
    simp only [RelayMarker.payload, List.map_cons, List.map_nil]
    decide
  have plain : Json.Plain library.floatOf (.dict marker.payload) := by
    refine .dict _ distinct fun entry member => ?_
    simp only [RelayMarker.payload, List.mem_cons, List.not_mem_nil, or_false] at member
    rcases member with rfl | rfl | rfl | rfl | rfl | rfl | rfl
    · exact .int 1
    · exact text _
    · exact text _
    · exact text _
    · exact .int _
    · exact .int _
    · exact text _
  have read := @Json.loads_dumpsWith library.floatOf ", " ": " Json.separates_default.1
    Json.separates_default.2 _ plain "\n" (by simp [Json.isBlank])
  rw [Json.canonical] at read
  refine ⟨_, read, fun name => ?_⟩
  rw [getOrNone, getOrNone, Json.get_canonicalEntries distinct]
  cases found : PyDict.get marker.payload name with
  | none => rfl
  | some value =>
    -- the values are flat, so their order is no matter
    have member := PyDict.mem_of_get found
    have flat (value : Option String) : Json.canonical (optional .str value) = optional .str value := by
      cases value <;> rw [optional, Json.canonical]
    simp only [RelayMarker.payload, List.mem_cons, List.not_mem_nil, or_false, Prod.mk.injEq] at member
    rcases member with ⟨-, rfl⟩ | ⟨-, rfl⟩ | ⟨-, rfl⟩ | ⟨-, rfl⟩ | ⟨-, rfl⟩ | ⟨-, rfl⟩ | ⟨-, rfl⟩
    · rfl
    · rw [Option.map_some, flat]
    · rw [Option.map_some, flat]
    · rw [Option.map_some, flat]
    · rw [Option.map_some, Json.canonical]
    · rw [Option.map_some, Json.canonical]
    · rw [Option.map_some, flat]

theorem parseIso_optional (time : Option ClockTime) :
    parseIso library (optional .str (time.map fun time => strftime time.moment)) =
      .ok (time.map fun time => toSecond time.moment) := by
  cases time with
  | none => rfl
  | some time => exact parseIso_strftime time

/-- The marker remembers the last calls of a history, and when its process started. -/
structure Remembers (marker : RelayMarker) (startedAt : ClockTime) (history : List MarkerCall) :
    Prop where
  started : marker.startedAt = some (strftime startedAt.moment)
  messaged : marker.lastMessageAt = (history.getLast?.map MarkerCall.now).map fun time =>
    strftime time.moment
  ingested : marker.lastIngestAt =
    ((history.filter MarkerCall.isIngest).getLast?.map MarkerCall.now).map fun time =>
      strftime time.moment
  disposed : marker.lastDisposition = history.getLast?.map MarkerCall.disposition

/-- The file of a marker is read as what the marker remembers. -/
theorem readMarker_write {marker : RelayMarker} {startedAt : ClockTime} {history : List MarkerCall}
    (remembers : Remembers marker startedAt history) (label : String) :
    readMarker library marker.write label = .ok ⟨some
      { startedAt := some (toSecond startedAt.moment)
        lastMessageAt := history.getLast?.map fun call => toSecond call.now.moment
        lastIngestAt := (history.filter MarkerCall.isIngest).getLast?.map fun call =>
          toSecond call.now.moment
        messagesSinceStart := marker.messages
        ingestsSinceStart := marker.ingests
        lastDisposition := history.getLast?.map MarkerCall.disposition }, none, label⟩ := by
  obtain ⟨data, read, same⟩ := loads_write library marker
  have startedAtOf : getOrNone marker.payload "started_at" = .str (strftime startedAt.moment) := by
    simp [getOrNone, RelayMarker.payload, PyDict.get_cons, remembers.started, optional]
  have messageOf : getOrNone marker.payload "last_message_at" = optional .str
      ((history.getLast?.map MarkerCall.now).map fun time => strftime time.moment) := by
    simp [getOrNone, RelayMarker.payload, PyDict.get_cons, remembers.messaged]
  have ingestOf : getOrNone marker.payload "last_ingest_at" = optional .str
      (((history.filter MarkerCall.isIngest).getLast?.map MarkerCall.now).map fun time =>
        strftime time.moment) := by
    simp [getOrNone, RelayMarker.payload, PyDict.get_cons, remembers.ingested]
  have messagesOf : getOrNone marker.payload "messages_since_start" = .int marker.messages := by
    simp [getOrNone, RelayMarker.payload, PyDict.get_cons]
  have ingestsOf : getOrNone marker.payload "ingests_since_start" = .int marker.ingests := by
    simp [getOrNone, RelayMarker.payload, PyDict.get_cons]
  have dispositionOf : getOrNone marker.payload "last_disposition" =
      optional .str (history.getLast?.map MarkerCall.disposition) := by
    simp [getOrNone, RelayMarker.payload, PyDict.get_cons, remembers.disposed]
  unfold readMarker RelayMarker.write
  dsimp only
  rw [read]
  dsimp only
  rw [same, same, same, same, same, same, startedAtOf, messageOf, ingestOf, messagesOf, ingestsOf,
    dispositionOf, parseIso_strftime, parseIso_optional, parseIso_optional]
  cases history.getLast? <;> cases (history.filter MarkerCall.isIngest).getLast? <;> rfl

/-! ### Calls and lifetimes -/

/-- A call joins the history the marker remembers. -/
theorem remembers_record {marker : RelayMarker} {startedAt : ClockTime} {history : List MarkerCall}
    (remembers : Remembers marker startedAt history) (call : MarkerCall) :
    Remembers (call.record marker) startedAt (history ++ [call]) := by
  cases call with
  | ingest now =>
    have last : ((history ++ [MarkerCall.ingest now]).filter MarkerCall.isIngest).getLast? =
        some (MarkerCall.ingest now) := by
      rw [List.filter_append]
      exact List.getLast?_concat
    refine ⟨remembers.started, ?_, ?_, ?_⟩
    · rw [List.getLast?_concat]
      rfl
    · rw [last]
      rfl
    · rw [List.getLast?_concat]
      rfl
  | message now disposition =>
    have kept : (history ++ [MarkerCall.message now disposition]).filter MarkerCall.isIngest =
        history.filter MarkerCall.isIngest := by
      rw [List.filter_append]
      exact List.append_nil _
    refine ⟨remembers.started, ?_, ?_, ?_⟩
    · rw [List.getLast?_concat]
      rfl
    · rw [kept]
      exact remembers.ingested
    · rw [List.getLast?_concat]
      rfl

/-- The calls of a process join the history its marker remembers, and are counted. -/
theorem remembers_calls {startedAt : ClockTime} {history : List MarkerCall} {marker : RelayMarker}
    (remembers : Remembers marker startedAt history) (calls : List MarkerCall) :
    ∃ final : RelayMarker, calls.foldl (fun found call =>
        (call.record found.1, (call.record found.1).write)) (marker, marker.write) =
          (final, final.write) ∧
      Remembers final startedAt (history ++ calls) ∧
      final.messages = marker.messages + calls.length ∧
      final.ingests = marker.ingests + (calls.filter MarkerCall.isIngest).length := by
  induction calls generalizing marker history with
  | nil => exact ⟨marker, rfl, by rwa [List.append_nil], rfl, rfl⟩
  | cons call rest inductionHypothesis =>
    obtain ⟨final, same, after, messages, ingests⟩ :=
      inductionHypothesis (remembers_record remembers call)
    refine ⟨final, same, ?_, ?_, ?_⟩
    · rwa [List.append_assoc] at after
    · rw [messages]
      have counted : (call.record marker).messages = marker.messages + 1 := by
        cases call <;> rfl
      rw [counted, List.length_cons]
      omega
    · rw [ingests]
      have counted : (call.record marker).ingests + (rest.filter MarkerCall.isIngest).length =
          marker.ingests + ((call :: rest).filter MarkerCall.isIngest).length := by
        cases call with
        | ingest now =>
          change marker.ingests + 1 + _ = marker.ingests + (_ + 1)
          omega
        | message now disposition => rfl
      exact counted

/-- The file tells a history: there is none yet, or a marker wrote it that remembers the history. -/
def Tells (file : MarkerFile) (history : List MarkerCall) : Prop :=
  (file = .missing ∧ history = []) ∨
    ∃ marker startedAt, file = RelayMarker.write marker ∧ Remembers marker startedAt history

/-- A process takes the history over from the file it finds. -/
theorem remembers_recordStart {file : MarkerFile} {history : List MarkerCall}
    (tells : Tells file history) (now : ClockTime) :
    ∃ marker, RelayMarker.recordStart library file now = .ok marker ∧
      Remembers marker now history ∧ marker.messages = 0 ∧ marker.ingests = 0 := by
  rcases tells with ⟨rfl, rfl⟩ | ⟨prior, startedAt, rfl, remembers⟩
  · exact ⟨_, rfl, ⟨rfl, rfl, rfl, rfl⟩, rfl, rfl⟩
  · rw [RelayMarker.recordStart, readMarker_write remembers]
    refine ⟨_, rfl, ⟨rfl, ?_, ?_, rfl⟩, rfl, rfl⟩
    · dsimp only
      rw [Option.map_map, Option.map_map]
      exact Option.map_congr fun call _ => strftime_toSecond _
    · dsimp only
      rw [Option.map_map, Option.map_map]
      exact Option.map_congr fun call _ => strftime_toSecond _

/-- A process leaves a file that tells its calls as well. -/
theorem live_spec {file : MarkerFile} {history : List MarkerCall} (tells : Tells file history)
    (lifetime : Lifetime) :
    ∃ marker : RelayMarker, live library file lifetime = .ok (marker, marker.write) ∧
      Remembers marker lifetime.startedAt (history ++ lifetime.calls) ∧
      marker.messages = lifetime.calls.length ∧
      marker.ingests = (lifetime.calls.filter MarkerCall.isIngest).length := by
  obtain ⟨started, returned, remembers, no_messages, no_ingests⟩ :=
    @remembers_recordStart library _ _ tells lifetime.startedAt
  obtain ⟨marker, same, after, messages, ingests⟩ := remembers_calls remembers lifetime.calls
  refine ⟨marker, ?_, after, ?_, ?_⟩
  · rw [live, returned]
    exact congrArg Except.ok same
  · rw [messages, no_messages, Nat.zero_add]
  · rw [ingests, no_ingests, Nat.zero_add]

/-- The processes leave a file that tells all their calls. -/
theorem tells_fileAfter (lifetimes : List Lifetime) {file : MarkerFile} {history : List MarkerCall}
    (tells : Tells file history) :
    ∃ left, fileAfter library lifetimes file = .ok left ∧
      Tells left (history ++ lifetimes.flatMap Lifetime.calls) := by
  induction lifetimes generalizing file history with
  | nil => exact ⟨file, rfl, by rwa [List.flatMap_nil, List.append_nil]⟩
  | cons lifetime rest inductionHypothesis =>
    obtain ⟨marker, lived, remembers, -⟩ := @live_spec library _ _ tells lifetime
    obtain ⟨left, same, told⟩ := inductionHypothesis (Or.inr ⟨marker, _, rfl, remembers⟩)
    refine ⟨left, ?_, ?_⟩
    · rw [fileAfter, lived]
      exact same
    · rwa [List.flatMap_cons, ← List.append_assoc]

/-- After any processes, and any calls of one more, the marker file is read as the true state. -/
theorem readMarker_tells_history (library : MarkerLibrary) (label : String)
    (earlier : List Lifetime) (current : Lifetime) :
    ∃ found marker file, fileAfter library earlier .missing = .ok found ∧
      live library found current = .ok (marker, file) ∧
      readMarker library file label = .ok ⟨some (trueState earlier current), none, label⟩ ∧
      (trueState earlier current).ingestsSinceStart ≤
        (trueState earlier current).messagesSinceStart := by
  obtain ⟨found, left, tells⟩ :=
    @tells_fileAfter library earlier .missing [] (Or.inl ⟨rfl, rfl⟩)
  obtain ⟨marker, lived, remembers, messages, ingests⟩ := @live_spec library _ _ tells current
  refine ⟨found, marker, marker.write, left, lived, ?_, ?_⟩
  · rw [readMarker_write remembers, messages, ingests, trueState, List.flatMap_append,
      List.flatMap_singleton, List.nil_append]
  · exact Int.ofNat_le.mpr (List.length_filter_le _ _)

end

end FleetMemory.Fence
