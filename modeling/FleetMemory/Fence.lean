/-
This file models the liveness fence: the facts a run is given, the store check, the relay
check, the acknowledgement and the report. An instant is a number of microseconds since
the epoch in UTC, a duration a number of microseconds and a date a number of days. The
arithmetic on them raises where it leaves what a `datetime` or a `timedelta` can be, and a
message raises where it shows an integer of too many digits.
-/

import FleetMemory.Errors
import Mathlib.Data.List.MinMax

namespace FleetMemory.Fence

/-! ### Facts -/

/-- How Python renders an instant, a date, a duration in hours rounded to two places, and a
sentence with a capital letter. -/
structure Rendering where
  isoformat : Int → String
  isodate : Int → String
  ageHours : Int → PyFloat
  capitalize : String → String

/-- The numbers in force for one run. -/
structure Thresholds where
  storeMaxAgeHours : Int := 168
  buildWindowHours : Int := 72
  minBuildsInWindow : Int := 3
  relayRestartGraceMinutes : Int := 75
  watchProjects : List String := []
deriving DecidableEq, Repr

/-- The newest row and the row count of one watched project. -/
structure ProjectFacts where
  project : String
  newestUpdatedAt : Option Int
  newestCreatedAt : Option Int
  rowCount : Int
deriving DecidableEq, Repr

/-- What the store says about its own freshness. -/
structure StoreFacts where
  target : String
  reachable : Bool
  newestUpdatedAt : Option Int := none
  newestCreatedAt : Option Int := none
  rowCount : Int := 0
  perProject : List ProjectFacts := []
  problem : Option String := none
deriving DecidableEq, Repr

/-- One finished build, as told by its directory name. -/
structure BuildReceipt where
  name : String
  feature : String
  finishedAt : Int
  skewed : Bool := false
deriving DecidableEq, Repr

/-- What the fence learned from the receipts directory. -/
structure BuildScan where
  receipts : List BuildReceipt := []
  malformed : List String := []
  skewed : List String := []
  problem : Option String := none
  path : String := ""
deriving DecidableEq, Repr

def BuildScan.blind (scan : BuildScan) : Bool :=
  scan.problem.isSome

/-- Receipts whose finish time is at or after the moment. -/
def BuildScan.finishedSince (scan : BuildScan) (moment : Int) : List BuildReceipt :=
  scan.receipts.filter fun receipt => moment ≤ receipt.finishedAt

/-- What the relay last told about itself. -/
structure MarkerState where
  startedAt : Option Int
  lastMessageAt : Option Int
  lastIngestAt : Option Int
  messagesSinceStart : Int
  ingestsSinceStart : Int
  lastDisposition : Option String
deriving DecidableEq, Repr

/-- A state read from the marker, or the reason there is none. -/
structure MarkerRead where
  state : Option MarkerState
  problem : Option String
  path : String
deriving DecidableEq, Repr

/-- The acknowledgement file's verdict about itself. -/
structure AckState where
  present : Bool := false
  active : Bool := false
  reason : Option String := none
  untilDay : Option Int := none
  checks : List String := []
  rejected : Option String := none
  expiredOn : Option Int := none
  path : String := ""
deriving DecidableEq, Repr

/-- Everything gathered in a run. `none` means that the check was not asked for. -/
structure FenceFacts where
  store : Option StoreFacts := none
  builds : Option BuildScan := none
  marker : Option MarkerRead := none
  ack : AckState := {}
deriving DecidableEq, Repr

/-! ### Verdicts -/

inductive Status where
  | ok
  | alarm
  | held
deriving DecidableEq, Repr

/-- The reason of a check that cannot see one of its inputs. -/
def blindReason : String :=
  "BLIND"

structure CheckResult where
  name : String
  status : Status
  reason : String := ""
  message : String := ""
  detail : PyDict := []

structure FenceReport where
  status : Status
  checks : List CheckResult
  thresholds : PyDict
  checkedAt : String
  ack : PyDict
  notes : List String

/-- An optional value in a dict, `None` when it is missing. -/
def optional {α : Type} (render : α → PyValue) : Option α → PyValue
  | none => .none
  | some value => render value

/-- An optional text inside an f-string. -/
def shown (text : Option String) : String :=
  text.getD "None"

def Thresholds.asDict (thresholds : Thresholds) : PyDict :=
  [("store_max_age_hours", .int thresholds.storeMaxAgeHours),
    ("build_window_hours", .int thresholds.buildWindowHours),
    ("min_builds_in_window", .int thresholds.minBuildsInWindow),
    ("relay_restart_grace_minutes", .int thresholds.relayRestartGraceMinutes),
    ("watch_projects", .list (thresholds.watchProjects.map .str))]

namespace AckState

/-- The acknowledgement is live and names the check. -/
def holds (ack : AckState) (checkName : String) : Bool :=
  if !ack.active then false else checkName ∈ ack.checks

/-- The line printed when the acknowledgement is not simply working. -/
def note (rendering : Rendering) (ack : AckState) : Option String :=
  if orDefault ack.rejected "" ≠ "" then some s!"ack rejected: {shown ack.rejected}"
  else ack.expiredOn.map fun day => s!"ack expired on {rendering.isodate day}"

def asDict (rendering : Rendering) (ack : AckState) : PyDict :=
  [("present", .bool ack.present),
    ("active", .bool ack.active),
    ("reason", optional .str ack.reason),
    ("until", optional (fun day => .str (rendering.isodate day)) ack.untilDay),
    ("checks", .list (ack.checks.map .str)),
    ("rejected", optional .str ack.rejected),
    ("expired_on", optional (fun day => .str (rendering.isodate day)) ack.expiredOn),
    ("max_days", .int 14)]

end AckState

/-! ### Instants and durations -/

/-- The number of the day the epoch begins with. -/
def epochOrdinal : Int := 719163

/-- `timedelta(days=count)`. -/
def days (count : Int) : Int :=
  count * 86400000000

/-- `timedelta(hours=count)`, where there is one. -/
def hours (count : Int) : Int :=
  count * 3600000000

/-- `timedelta(minutes=count)`, where there is one. -/
def minutes (count : Int) : Int :=
  count * 60000000

/-- The durations a `timedelta` can have. -/
def IsDuration (duration : Int) : Prop :=
  -999999999 ≤ duration / days 1 ∧ duration / days 1 ≤ 999999999

instance (duration : Int) : Decidable (IsDuration duration) :=
  inferInstanceAs (Decidable (_ ∧ _))

/-- The `timedelta` of a duration. The number of its days has to be a C integer first. -/
def timedelta (duration : Int) : Except PyError Int :=
  let count := duration / days 1
  if IsDuration duration then .ok duration
  else if -2147483648 ≤ count ∧ count ≤ 2147483647 then
    .error (.other s!"OverflowError: days={count}; must have magnitude <= 999999999")
  else .error (.other "OverflowError: Python int too large to convert to C int")

/-- The moments a `datetime` in UTC can have. -/
def InCalendar (moment : Int) : Prop :=
  days (1 - epochOrdinal) ≤ moment ∧ moment < days (3652060 - epochOrdinal)

instance (moment : Int) : Decidable (InCalendar moment) := by
  unfold InCalendar
  infer_instance

/-- The `datetime` that a sum or a difference comes to. -/
def datetimeAt (moment : Int) : Except PyError Int :=
  if InCalendar moment then .ok moment
  else .error (.other "OverflowError: date value out of range")

theorem timedelta_of_isDuration {duration : Int} (inside : IsDuration duration) :
    timedelta duration = .ok duration :=
  if_pos inside

theorem datetimeAt_of_inCalendar {moment : Int} (inside : InCalendar moment) :
    datetimeAt moment = .ok moment :=
  if_pos inside

theorem timedelta_eq_ok {duration found : Int} :
    timedelta duration = .ok found ↔ IsDuration duration ∧ found = duration := by
  by_cases inside : IsDuration duration
  · rw [timedelta_of_isDuration inside, Except.ok.injEq, eq_comm]
    exact (and_iff_right inside).symm
  · refine iff_of_false (fun returned => ?_) fun both => inside both.1
    unfold timedelta at returned
    dsimp only at returned
    rw [if_neg inside] at returned
    split at returned <;> cases returned

theorem datetimeAt_eq_ok {moment found : Int} :
    datetimeAt moment = .ok found ↔ InCalendar moment ∧ found = moment := by
  by_cases inside : InCalendar moment
  · rw [datetimeAt_of_inCalendar inside, Except.ok.injEq, eq_comm]
    exact (and_iff_right inside).symm
  · refine iff_of_false (fun returned => ?_) fun both => inside both.1
    rw [datetimeAt, if_neg inside] at returned
    cases returned

/-! ### Ages and limits -/

/-- A short age in plain language. -/
def humaniseAge (delta : Int) : String :=
  let seconds := max (delta.tdiv 1000000) 0
  if seconds < 90 then "less than 2 minutes"
  else
    let minutes := seconds / 60
    if minutes < 90 then s!"{minutes} minutes"
    else
      let hours := minutes / 60
      if hours < 48 then s!"{hours} hours" else s!"{hours / 24} days"

/-- The number of days or hours a limit is told in. -/
def limitNumber (hours : Int) : Int :=
  if hours % 24 = 0 ∧ 24 ≤ hours then hours / 24 else hours

def limitPhrase (hours : Int) : Except PyError String :=
  let number := limitNumber hours
  let unit := if hours % 24 = 0 ∧ 24 ≤ hours then "day" else "hour"
  (intText number).map fun text => if number = 1 then s!"{text} {unit}" else s!"{text} {unit}s"

/-! ### The store check -/

section

variable (rendering : Rendering)

/-- The result for an age: `late` above the limit, and else `recent`, which shows the row count. -/
def ageCheck (thresholds : Thresholds) (age rowCount : Int) (late : CheckResult)
    (recent : String → CheckResult) : Except PyError CheckResult := do
  let oldest ← timedelta (hours thresholds.storeMaxAgeHours)
  if oldest < age then return late
  else (intText rowCount).map recent

/-- The result for one watched project. -/
def projectCheck (limit : String) (project : ProjectFacts) (thresholds : Thresholds) (now : Int) :
    Except PyError CheckResult :=
  let name := s!"store_age:{project.project}"
  if project.rowCount = 0 then .ok {
    name := name
    status := .alarm
    reason := "STORE_EMPTY"
    message := s!"memory for {project.project}: nothing is stored under this project at all."
    detail := [("project", .str project.project), ("row_count", .int 0)] }
  else
    match project.newestUpdatedAt with
    | none => .ok {
      name := name
      status := .alarm
      reason := blindReason
      message := s!"memory for {project.project}: rows are present but none carry " ++
        "a write time, so their freshness cannot be judged."
      detail := [("project", .str project.project), ("row_count", .int project.rowCount)] }
    | some newest =>
      let age := now - newest
      let detail : PyDict :=
        [("project", .str project.project),
          ("row_count", .int project.rowCount),
          ("newest_updated_at", .str (rendering.isoformat newest)),
          ("age_hours", .float (rendering.ageHours age))]
      ageCheck thresholds age project.rowCount {
        name := name
        status := .alarm
        reason := "STORE_STALE"
        message := s!"memory for {project.project}: the newest thing learned is " ++
          s!"{humaniseAge age} old (limit {limit})."
        detail := detail } fun rowCount => {
        name := name
        status := .ok
        message := s!"memory for {project.project}: newest row " ++
          s!"{humaniseAge age} old, {rowCount} rows."
        detail := detail }

/-- The result for the newest row of a store that is reachable and has rows. -/
def newestCheck (limit : String) (facts : StoreFacts) (thresholds : Thresholds) (now : Int) :
    Except PyError CheckResult :=
  match facts.newestUpdatedAt with
  | none => (intText facts.rowCount).map fun rowCount => {
      name := "store_age"
      status := .alarm
      reason := blindReason
      message := s!"memory store: {rowCount} rows are present but none carry a " ++
        "write time, so the fence cannot tell how fresh memory is."
      detail := [("target", .str facts.target), ("row_count", .int facts.rowCount)] }
  | some newest =>
    let age := now - newest
    let common : PyDict :=
      [("target", .str facts.target),
        ("row_count", .int facts.rowCount),
        ("newest_updated_at", .str (rendering.isoformat newest)),
        ("newest_created_at",
          optional (fun created => .str (rendering.isoformat created)) facts.newestCreatedAt),
        ("age_hours", .float (rendering.ageHours age))]
    ageCheck thresholds age facts.rowCount {
      name := "store_age"
      status := .alarm
      reason := "STORE_STALE"
      message := "memory store: the newest thing memory learned is " ++
        s!"{humaniseAge age} old (limit {limit})."
      detail := common } fun rowCount => {
      name := "store_age"
      status := .ok
      message := s!"memory store: newest row {humaniseAge age} old, " ++
        s!"{rowCount} rows in total."
      detail := common }

def storeCheck (facts : StoreFacts) (thresholds : Thresholds) (now : Int) :
    Except PyError (List CheckResult) :=
  if !facts.reachable then .ok [{
    name := "store_age"
    status := .alarm
    reason := "STORE_UNREACHABLE"
    message := s!"memory store: {shown facts.problem}. Nothing can be written or read " ++
      "while this is true, so memory is effectively dark."
    detail := [("target", .str facts.target)] }]
  else do
    let limit ← limitPhrase thresholds.storeMaxAgeHours
    if facts.rowCount = 0 then
      -- An empty store returns before the loop over its projects.
      return [{
        name := "store_age"
        status := .alarm
        reason := "STORE_EMPTY"
        message := "memory store: there is nothing in it at all (0 rows at " ++
          s!"{facts.target}). Either this is the wrong database or the store has been emptied."
        detail := [("target", .str facts.target), ("row_count", .int 0)] }]
    else do
      let newest ← newestCheck rendering limit facts thresholds now
      let projects ← facts.perProject.mapM fun project =>
        projectCheck rendering limit project thresholds now
      return newest :: projects

/-! ### The relay check -/

def relayActivityPhrase (state : MarkerState) (now : Int) : String :=
  let base :=
    match state.lastIngestAt with
    | none => "the relay has recorded no writes since it started"
    | some ingest => s!"last write {humaniseAge (now - ingest)} ago"
  match state.lastMessageAt with
  | none => base
  | some message =>
    if state.lastIngestAt.all fun ingest => ingest < message then
      let outcome := orDefault state.lastDisposition "unknown"
      base ++ s!", but it did receive a message {humaniseAge (now - message)} ago " ++
        s!"(outcome: {outcome})"
    else base

/-- The watched projects' newest rows, each with its time. -/
def projectRows (store : Option StoreFacts) (thresholds : Thresholds) :
    List (ProjectFacts × Int) :=
  match store with
  | none => []
  | some facts =>
    if facts.reachable then
      facts.perProject.filterMap fun project =>
        if project.project ∈ thresholds.watchProjects then
          project.newestUpdatedAt.map fun newest => (project, newest)
        else none
    else []

/-- The first of the rows with the latest time. -/
def newestProject (store : Option StoreFacts) (thresholds : Thresholds) :
    Option (ProjectFacts × Int) :=
  @List.argmax _ Int Int.instLinearOrder.toPreorder inferInstance Prod.snd
    (projectRows store thresholds)

/-- The start of the window in which builds are counted. -/
def windowStart (thresholds : Thresholds) (now : Int) : Except PyError Int := do
  let window ← timedelta (hours thresholds.buildWindowHours)
  datetimeAt (now - window)

/-- The end of the silence expected after a restart. -/
def graceEnd (thresholds : Thresholds) (started : Int) : Except PyError Int := do
  let grace ← timedelta (minutes thresholds.relayRestartGraceMinutes)
  datetimeAt (started + grace)

def windowPhrase (hours : Int) : String :=
  if hours % 24 = 0 then s!"{hours / 24} days" else s!"{hours} hours"

def relayDetail (builds : BuildScan) (state : MarkerState) (thresholds : Thresholds)
    (windowStart : Int) : PyDict :=
  let instant : Option Int → PyValue := optional fun moment => .str (rendering.isoformat moment)
  [("builds_in_window", .int (builds.finishedSince windowStart).length),
    ("min_builds_in_window", .int thresholds.minBuildsInWindow),
    ("window_start", .str (rendering.isoformat windowStart)),
    ("relay_started_at", instant state.startedAt),
    ("last_ingest_at", instant state.lastIngestAt),
    ("last_message_at", instant state.lastMessageAt),
    ("ingests_since_start", .int state.ingestsSinceStart),
    ("messages_since_start", .int state.messagesSinceStart),
    ("last_disposition", optional .str state.lastDisposition),
    ("malformed_receipt_names", .int builds.malformed.length),
    ("skewed_receipt_names", .list (builds.skewed.map .str))]

/-- The detail with the time of the watched projects' newest row. -/
def withNewest (detail : PyDict) (newest : Option (ProjectFacts × Int)) : PyDict :=
  match newest with
  | none => detail
  | some (_, moment) =>
    detail.set "build_projects_newest_updated_at" (.str (rendering.isoformat moment))

/-- The relay check once the marker and the receipts are in sight. -/
def activityCheck (builds : BuildScan) (state : MarkerState) (thresholds : Thresholds) (now : Int)
    (store : Option StoreFacts) : Except PyError CheckResult := do
  let windowStart ← windowStart thresholds now
  let finished := (builds.finishedSince windowStart).length
  let window := windowPhrase thresholds.buildWindowHours
  let detail := relayDetail rendering builds state thresholds windowStart
  let phrase := relayActivityPhrase state now
  if (finished : Int) < thresholds.minBuildsInWindow then
    (intText thresholds.minBuildsInWindow).map fun needed => {
      name := "relay_idle"
      status := .ok
      message := s!"relay: {finished} builds finished in the last {window}, fewer than the " ++
        s!"{needed} this check needs before silence means anything. " ++
        s!"{rendering.capitalize phrase}."
      detail := detail }
  else if state.lastIngestAt.any fun ingest => windowStart ≤ ingest then
    (intText state.ingestsSinceStart).map fun ingests => {
      name := "relay_idle"
      status := .ok
      message := s!"relay: {finished} builds finished in the last {window} and memory " ++
        s!"recorded work too ({phrase}, {ingests} writes since the relay started)."
      detail := detail }
  else
    let newest := newestProject store thresholds
    let detail := withNewest rendering detail newest
    match newest.filter fun row => windowStart ≤ row.2 with
    | some (project, moment) => return {
      name := "relay_idle"
      status := .ok
      message := s!"relay: {finished} builds finished in the last {window} and memory " ++
        s!"recorded their work: the newest row for {project.project} was written " ++
        s!"{humaniseAge (now - moment)} ago. Records written through the memory door do not " ++
        s!"pass through the relay, which itself shows {phrase}."
      detail := detail }
    | none =>
      let idle : CheckResult := {
        name := "relay_idle"
        status := .alarm
        reason := "RELAY_IDLE"
        message := s!"relay idle: {finished} builds finished in the last {window} " ++
          "and memory recorded nothing. Either the relay is not consuming, or the " ++
          "close ritual that writes build outcomes did not run (that write is not " ++
          "yet automatic)."
        detail := detail }
      match state.startedAt with
      | none => return idle
      | some started => do
        let ending ← graceEnd thresholds started
        if now < ending then return {
          name := "relay_idle"
          status := .ok
          reason := "RELAY_RESTART_GRACE"
          message := "relay: it restarted " ++
            s!"{humaniseAge (now - started)} ago and has not caught up yet. " ++
            s!"Silence is expected for up to {thresholds.relayRestartGraceMinutes} minutes " ++
            "after a restart, so this is not being treated as an alarm."
          detail := detail.set "grace_until" (.str (rendering.isoformat ending)) }
        else return idle

/-- The relay check without the marker's state. -/
def markerBlind (marker : Option MarkerRead) : CheckResult :=
  let problem :=
    match marker with
    | none => "the progress marker was not read"
    | some marker => shown marker.problem
  { name := "relay_idle"
    status := .alarm
    reason := blindReason
    message := s!"relay: the fence cannot see the relay's progress marker — {problem}. " ++
      "Until it can, it cannot tell a working relay from a dead one."
    detail := [("marker_path", .str ((marker.map MarkerRead.path).getD ""))] }

/-- The relay check without the build receipts. -/
def buildsBlind (builds : Option BuildScan) : CheckResult :=
  let problem :=
    match builds with
    | none => "the build receipts were not read"
    | some builds => shown builds.problem
  { name := "relay_idle"
    status := .alarm
    reason := blindReason
    message := s!"relay: {problem}."
    detail := [("builds_dir", .str ((builds.map BuildScan.path).getD ""))] }

def relayCheck (builds : Option BuildScan) (marker : Option MarkerRead) (thresholds : Thresholds)
    (now : Int) (store : Option StoreFacts) : Except PyError CheckResult :=
  match marker.bind MarkerRead.state with
  | none => .ok (markerBlind marker)
  | some state =>
    match builds.filter fun scan => !scan.blind with
    | none => .ok (buildsBlind builds)
    | some scan => activityCheck rendering scan state thresholds now store

/-! ### The verdict -/

/-- A tripped check is held when a live acknowledgement names it. -/
def applyAck (check : CheckResult) (ack : AckState) : CheckResult :=
  if check.status ≠ .alarm ∨ ack.holds check.name = false then check
  else
    let ending := (ack.untilDay.map rendering.isodate).getD "an unstated date"
    { name := check.name
      status := .held
      reason := check.reason
      message := s!"{check.message} Acknowledged until {ending}: {shown ack.reason}."
      detail := (check.detail.set "acknowledged_until" (.str ending)).set "acknowledged_reason"
        (optional .str ack.reason) }

/-- The checks of the store, unless the run is about the relay only. -/
def storeChecks (facts : FenceFacts) (thresholds : Thresholds) (now : Int) (relayOnly : Bool) :
    Except PyError (List CheckResult) :=
  if relayOnly then .ok []
  else
    match facts.store with
    | none => .ok [{
      name := "store_age"
      status := .alarm
      reason := blindReason
      message := "memory store: the fence was not able to look at the store at " ++
        "all, so it cannot say whether memory is fresh." }]
    | some store => storeCheck rendering store thresholds now

/-- The check of the relay, unless the run is about the store only. -/
def relayChecks (facts : FenceFacts) (thresholds : Thresholds) (now : Int) (storeOnly : Bool) :
    Except PyError (List CheckResult) :=
  if storeOnly then .ok []
  else (relayCheck rendering facts.builds facts.marker thresholds now facts.store).map ([·])

/-- The checks in scope, before the acknowledgement. -/
def checksOf (facts : FenceFacts) (thresholds : Thresholds) (now : Int)
    (storeOnly relayOnly : Bool) : Except PyError (List CheckResult) := do
  let store ← storeChecks rendering facts thresholds now relayOnly
  let relay ← relayChecks rendering facts thresholds now storeOnly
  return store ++ relay

def notesOf (facts : FenceFacts) : List String :=
  (facts.ack.note rendering).toList ++
    match facts.builds with
    | none => []
    | some builds =>
      if builds.skewed.isEmpty then []
      else ["some build receipt names disagree with the folder's own modification " ++
        s!"time by more than an hour ({builds.skewed.length} of them); the name " ++
        "was trusted, as forge authors it"]

/-- The report on the checks in scope. -/
def reportOn (facts : FenceFacts) (thresholds : Thresholds) (now : Int)
    (inScope : List CheckResult) : FenceReport :=
  let checks := inScope.map fun check => applyAck rendering check facts.ack
  { status := if checks.any fun check => check.status = .alarm then .alarm else .ok
    checks := checks
    thresholds := thresholds.asDict
    checkedAt := rendering.isoformat now
    ack := facts.ack.asDict rendering
    notes := notesOf rendering facts }

/-- Turn facts into a verdict. -/
def evaluate (facts : FenceFacts) (thresholds : Thresholds) (now : Int)
    (storeOnly relayOnly : Bool) : Except PyError FenceReport := do
  let checks ← checksOf rendering facts thresholds now storeOnly relayOnly
  return reportOn rendering facts thresholds now checks

theorem evaluate_eq_ok {facts : FenceFacts} {thresholds : Thresholds} {now : Int}
    {storeOnly relayOnly : Bool} {report : FenceReport} :
    evaluate rendering facts thresholds now storeOnly relayOnly = .ok report ↔
      ∃ checks, checksOf rendering facts thresholds now storeOnly relayOnly = .ok checks ∧
        report = reportOn rendering facts thresholds now checks := by
  rw [evaluate, except_bind_eq_ok]
  exact exists_congr fun checks => and_congr_right fun _ =>
    ⟨fun same => (Except.ok.inj same).symm, fun same => congrArg Except.ok same.symm⟩

end

end FleetMemory.Fence
