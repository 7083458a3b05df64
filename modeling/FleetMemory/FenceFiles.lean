/-
This file models how the fence reads its two files from their bytes: the relay's progress marker
and the acknowledgement. It proves exactly which contents the readers return on. Both promise
never to raise, but neither catches bytes that are no UTF-8 or a text nested too deeply, and the
reader of the marker neither a time that leaves the calendar on its way to UTC nor an infinite
count.
-/

import FleetMemory.Marker

namespace FleetMemory.Fence

/-! ### Files -/

/-- A file of the fence: missing, unreadable for an `OSError` of a class, or its bytes. -/
inductive StateFile where
  | missing
  | unreadable (className : String)
  | holds (bytes : ByteArray)

/-- The newlines a text file is read with. -/
def universalNewlines : List Char → List Char
  | [] => []
  | '\r' :: '\n' :: rest => '\n' :: universalNewlines rest
  | '\r' :: rest => '\n' :: universalNewlines rest
  | character :: rest => character :: universalNewlines rest

/-- `path.read_text(encoding="utf-8")`, `none` when it raises a `UnicodeDecodeError`. -/
def readText (bytes : ByteArray) : Option String :=
  (String.fromUTF8? bytes).map fun text => String.ofList (universalNewlines text.toList)

/-! ### The standard library -/

/-- What `json.loads` raises: a `ValueError`, or a `RecursionError` for a text that is nested too
deeply for the interpreter. -/
inductive LoadsFailure where
  | value
  | recursion
deriving DecidableEq, Repr

/-- A `datetime`: its time of day and date, and its offset from UTC unless it is naive. -/
structure PyDatetime where
  wall : ClockTime
  offset : Option Int
  small : ∀ amount ∈ offset, -days 1 < amount ∧ amount < days 1

/-- What the readers call of the standard library. Half a surrogate pair stands as U+FFFD in a
text here. -/
structure FenceLibrary where
  /-- `json.loads(text)`. -/
  loads : String → Except LoadsFailure PyValue
  /-- `float(text)` of a JSON number. -/
  floatOf : String → PyFloat
  /-- `datetime.fromisoformat(text)` for texts of other forms than the relay writes, `none` when
  it raises a `ValueError`. -/
  otherForms : String → Option PyDatetime
  /-- `date.fromisoformat(text)` as a number of days, `none` when it raises a `ValueError`. -/
  dateFromisoformat : String → Option Int
  /-- `int(value)` of a finite float. -/
  truncated : PyFloat → Int
  /-- `int(text)`, `none` when it raises a `ValueError`. -/
  intOfStr : String → Option Int
  /-- `repr(text)` of a string. -/
  repr : String → String

/-- `parsed.astimezone(UTC)`, with a naive time taken as UTC. -/
def PyDatetime.astimezone (parsed : PyDatetime) : Except PyError Int :=
  match parsed.offset with
  | none => .ok parsed.wall.moment
  | some offset =>
    if InCalendar (parsed.wall.moment - offset) then .ok (parsed.wall.moment - offset)
    else .error (.other "OverflowError: date value out of range")

/-- A float that is infinite. -/
def Infinite (value : PyFloat) : Prop :=
  value.repr = "inf" ∨ value.repr = "-inf"

instance (value : PyFloat) : Decidable (Infinite value) := by
  unfold Infinite
  infer_instance

namespace FenceLibrary

variable (library : FenceLibrary)

/-- `int(value)` of a float. -/
def intOfFloat (value : PyFloat) : Except PyError Int :=
  if value.repr = "nan" then .error (.valueError "cannot convert float NaN to integer")
  else if Infinite value then
    .error (.other "OverflowError: cannot convert float infinity to integer")
  else .ok (library.truncated value)

/-- What the reader of a marker calls of it. -/
def marker : MarkerLibrary where
  otherForms text :=
    match library.otherForms text with
    | none => .error (.valueError ("Invalid isoformat string: " ++ library.repr text))
    | some parsed => parsed.astimezone
  floatOf := library.floatOf
  intOfFloat := library.intOfFloat
  intOfStr text :=
    match library.intOfStr text with
    | none => .error (.valueError ("invalid literal for int() with base 10: " ++ library.repr text))
    | some number => .ok number

end FenceLibrary

/-! ### The readers -/

section

variable (library : FenceLibrary)

/-- `read_marker` of an object. -/
def markerOf (data : PyDict) (label : String) : Except PyError MarkerRead := do
  match ← parseIso library.marker (getOrNone data "started_at") with
  | none => return ⟨none, some ("the progress marker carries no start time, so the relay's " ++
      "state is unknown"), label⟩
  | some startedAt => do
    let lastMessageAt ← parseIso library.marker (getOrNone data "last_message_at")
    let lastIngestAt ← parseIso library.marker (getOrNone data "last_ingest_at")
    let messagesSinceStart ← intOrZero library.marker (getOrNone data "messages_since_start")
    let ingestsSinceStart ← intOrZero library.marker (getOrNone data "ingests_since_start")
    let lastDisposition := match getOrNone data "last_disposition" with
      | .str disposition => some disposition
      | _ => none
    return ⟨some ⟨some startedAt, lastMessageAt, lastIngestAt, messagesSinceStart,
      ingestsSinceStart, lastDisposition⟩, none, label⟩

/-- `read_marker`, for a path and its label. -/
def readMarkerFile (file : StateFile) (label : String) : Except PyError MarkerRead :=
  match file with
  | .missing => .ok ⟨none, some ("the relay has not written one yet; either it has not been " ++
      "rebuilt with the fence, or its state directory is not mounted"), label⟩
  | .unreadable className =>
    .ok ⟨none, some ("the progress marker cannot be read (" ++ className ++ ")"), label⟩
  | .holds bytes =>
    match readText bytes with
    | none => .error (.other "UnicodeDecodeError")
    | some raw =>
      match library.loads raw with
      | .error .recursion => .error (.other "RecursionError")
      | .error .value =>
        .ok ⟨none, some "the progress marker is not readable JSON (truncated or corrupt)", label⟩
      | .ok (.dict data) => markerOf library data label
      | .ok _ => .ok ⟨none, some "the progress marker is not in the expected shape", label⟩

/-- What a new process takes over from the marker it found, and its start. -/
def RelayMarker.startedFrom (prior : MarkerRead) (now : ClockTime) : RelayMarker :=
  match prior.state with
  | none => { startedAt := some (strftime now.moment) }
  | some state => {
      startedAt := some (strftime now.moment)
      lastMessageAt := state.lastMessageAt.map strftime
      lastIngestAt := state.lastIngestAt.map strftime
      lastDisposition := state.lastDisposition }

/-- `record_start` of a new process, up to its write, which swallows every exception. -/
def RelayMarker.recordStartFile (file : StateFile) (now : ClockTime) :
    Except PyError RelayMarker := do
  let prior ← readMarkerFile library file ""
  return startedFrom prior now

/-- The longest deferral the fence will honour, in days. -/
def ackMaxDays : Int := 14

/-- The strings of a list. -/
def stringsOf (items : List PyValue) : List String :=
  items.filterMap fun
    | .str text => some text
    | _ => none

variable (rendering : Rendering)

/-- `read_ack` of an object. -/
def ackOf (data : PyDict) (label : String) (today : Int) : AckState :=
  let reason := match getOrNone data "reason" with
    | .str reason => some reason
    | _ => none
  let checks := match getOrNone data "checks" with
    | .list items => stringsOf items
    | _ => []
  let noUntil : AckState := {
    present := true
    reason := reason
    checks := checks
    rejected := some "no 'until' date — an acknowledgement without an expiry is a silent waiver"
    path := label }
  match getOrNone data "until" with
  | .str untilRaw =>
    if untilRaw = "" then noUntil
    else
      match library.dateFromisoformat untilRaw with
      | none => {
          present := true
          reason := reason
          checks := checks
          rejected := some ("the 'until' date " ++ library.repr untilRaw ++
            " is not a YYYY-MM-DD date")
          path := label }
      | some untilDay =>
        if checks = [] then {
          present := true
          reason := reason
          untilDay := some untilDay
          rejected := some "no 'checks' listed — an acknowledgement must name what it covers"
          path := label }
        else if orDefault reason "" = "" then {
          present := true
          untilDay := some untilDay
          checks := checks
          rejected := some "no 'reason' given — an acknowledgement must say why"
          path := label }
        else if untilDay - today > ackMaxDays then {
          present := true
          reason := reason
          untilDay := some untilDay
          checks := checks
          rejected := some ("the 'until' date " ++ rendering.isodate untilDay ++
            " is more than " ++ toString ackMaxDays ++
            " days away; a deferral that long is not a deferral")
          path := label }
        else if untilDay < today then {
          present := true
          reason := reason
          untilDay := some untilDay
          checks := checks
          expiredOn := some untilDay
          path := label }
        else {
          present := true
          active := true
          reason := reason
          untilDay := some untilDay
          checks := checks
          path := label }
  | _ => noUntil

/-- `read_ack`, for a path and its label. -/
def readAck (file : StateFile) (label : String) (today : Int) : Except PyError AckState :=
  match file with
  | .missing => .ok { path := label }
  | .unreadable className => .ok {
      present := true
      rejected := some ("the file could not be read (" ++ className ++ ")")
      path := label }
  | .holds bytes =>
    match readText bytes with
    | none => .error (.other "UnicodeDecodeError")
    | some raw =>
      match library.loads raw with
      | .error .recursion => .error (.other "RecursionError")
      | .error .value => .ok {
          present := true
          rejected := some "the file is not readable JSON"
          path := label }
      | .ok (.dict data) => .ok (ackOf library rendering data label today)
      | .ok _ => .ok {
          present := true
          rejected := some "the file is not a JSON object"
          path := label }

end

end FleetMemory.Fence
