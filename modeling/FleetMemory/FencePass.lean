/-
This file models one pass of the fence, from the arguments and the environment to the exit code, the
output and the record it leaves. It proves when a pass ends with which exit code, in terms of the
rows of the store, the names of the build receipts and the two files the fence reads: it is quiet
only on evidence, whatever fails while it looks and while it writes its record.
-/

import FleetMemory.FenceScan
import FleetMemory.FenceWaning
import FleetMemory.JsonSpelling
import FleetMemory.PosixPath

namespace FleetMemory.Fence

/-! ### Reports -/

/-- `status.value`. -/
def Status.value : Status → String
  | ok => "ok"
  | alarm => "alarm"
  | held => "held"

/-- `f"{status.value.upper():<6}"`. -/
def Status.label : Status → String
  | ok => "OK    "
  | alarm => "ALARM "
  | held => "HELD  "

/-- `CheckResult.as_dict`. -/
def CheckResult.asDict (check : CheckResult) : PyDict :=
  [("name", .str check.name), ("status", .str check.status.value), ("reason", .str check.reason),
    ("message", .str check.message), ("detail", .dict check.detail)]

namespace FenceReport

variable (report : FenceReport)

/-- `FenceReport.alarms`. -/
def alarms : List CheckResult :=
  report.checks.filter fun check => check.status = .alarm

/-- The line of the verdict. -/
def verdict : String :=
  if report.status = .alarm then
    let count := report.alarms.length
    let verb := if count = 1 then "is" else "are"
    s!"VERDICT ALARM — {count} of {report.checks.length} checks {verb} " ++
      "unhappy. Memory may be dark; see the lines above."
  else
    let held := report.checks.countP fun check => check.status = .held
    let suffix := if held = 0 then "" else s!" ({held} acknowledged)"
    s!"VERDICT OK — memory is alive{suffix}."

/-- `FenceReport.lines`. -/
def lines : List String :=
  report.notes.map ("NOTE   " ++ ·) ++
    report.checks.map (fun check => check.status.label ++ " " ++ check.message) ++ [report.verdict]

/-- `FenceReport.as_dict`. -/
def asDict : PyDict :=
  [("status", .str report.status.value), ("checked_at", .str report.checkedAt),
    ("checks", .list (report.checks.map fun check => .dict check.asDict)),
    ("thresholds", .dict report.thresholds), ("ack", .dict report.ack),
    ("notes", .list (report.notes.map .str))]

end FenceReport

/-! ### The configuration -/

/-- The settings a pass uses. -/
structure FenceSettings where
  pgDsn : String
  fenceStoreMaxAgeHours : Int
  fenceBuildWindowHours : Int
  fenceMinBuildsInWindow : Int
  fenceRelayRestartGraceMinutes : Int
  fenceWatchProjects : String
  fenceBuildsDir : String
  fenceRelayMarkerPath : String
  fenceStateDir : String

/-- The arguments of the command. -/
structure FenceArguments where
  json : Bool := false
  storeOnly : Bool := false
  relayOnly : Bool := false
  storeMaxAgeHours : Option Int := none
  buildWindowHours : Option Int := none
  minBuilds : Option Int := none
  buildsDir : Option String := none
  marker : Option String := none
  stateDir : Option String := none
  watchProjects : Option String := none

/-- The environment: `FLEET_MEMORY_PG_DSN`, and whether `FLEET_MEMORY_EMBED_URL` is in it. -/
structure Environment where
  dsn : Option String
  namesEmbedUrl : Bool

/-- The DSN of a pass. -/
def dsnOf (arguments : FenceArguments) (environment : Environment) : Except String String :=
  if arguments.relayOnly then
    .ok (orDefault environment.dsn "postgresql://unused-by-relay-only-fence")
  else if orDefault environment.dsn "" = "" then
    .error ("FLEET_MEMORY_PG_DSN is not set, so the fence cannot look at the memory store. The " ++
      "unit supplies it through its sops exec-env wrap; there is no --dsn flag by policy. Use " ++
      "--relay-only to skip the store check.")
  else .ok (orDefault environment.dsn "")

/-- `_resolve_settings`, where `settings` is the constructor of the settings and raises errors of
classes. -/
def resolveSettings (settings : PyDict → Except String FenceSettings) (arguments : FenceArguments)
    (environment : Environment) : Except String FenceSettings := do
  let given {α : Type} (name : String) (render : α → PyValue) (value : Option α) : PyDict :=
    value.toList.map fun value => (name, render value)
  let dsn ← dsnOf arguments environment
  let overrides : PyDict := [("pg_dsn", .str dsn)] ++
    (if environment.namesEmbedUrl then [] else [("embed_url", .str "http://unused-by-fence")]) ++
    given "fence_builds_dir" .str arguments.buildsDir ++
    given "fence_relay_marker_path" .str arguments.marker ++
    given "fence_state_dir" .str arguments.stateDir ++
    given "fence_watch_projects" .str arguments.watchProjects ++
    given "fence_store_max_age_hours" .int arguments.storeMaxAgeHours ++
    given "fence_build_window_hours" .int arguments.buildWindowHours ++
    given "fence_min_builds_in_window" .int arguments.minBuilds
  (settings overrides).mapError ("the fence's configuration is not usable: " ++ ·)

/-- `_watch_projects`. -/
def FenceSettings.projects (settings : FenceSettings) : List String :=
  ((Text.split ',' settings.fenceWatchProjects).map Text.strip).filter (· ≠ "")

/-- The thresholds of a pass. -/
def FenceSettings.thresholds (settings : FenceSettings) : Thresholds where
  storeMaxAgeHours := settings.fenceStoreMaxAgeHours
  buildWindowHours := settings.fenceBuildWindowHours
  minBuildsInWindow := settings.fenceMinBuildsInWindow
  relayRestartGraceMinutes := settings.fenceRelayRestartGraceMinutes
  watchProjects := settings.projects

/-! ### The record -/

/-- The state directory: the status file, the alarm log, and what is left of temporary files. -/
structure StateDirectory where
  status : Option String
  log : Option String
  temporaries : List String
deriving DecidableEq, Repr

/-- The exception of a write: an `OSError` of a class, or another error. -/
inductive WriteError where
  | os (className : String)
  | other (error : PyError)

/-- What fails while the status file is replaced: the directory is not made, or the temporary file
is not there yet, or some characters are in it, and then it is removed or not. -/
inductive ReplaceFault where
  | mkdir (error : WriteError)
  | before (error : WriteError)
  | within (error : WriteError) (written : Nat) (removed : Bool)

/-- What fails while the alarm log is appended to: it is not open yet, or some characters are in it.
A line with half a surrogate pair is such a failure: none of the lines can be encoded. -/
inductive AppendFault where
  | before (error : WriteError)
  | within (error : WriteError) (written : Nat)

/-- An exception of `print`, with so many lines printed before. A line with half a surrogate pair
raises one, and so does a reader that went away. -/
structure PrintFault where
  printed : Nat
  error : PyError

/-- What fails once a pass has its report. -/
structure PassFaults where
  print : Option PrintFault
  status : Option ReplaceFault
  log : Option AppendFault

/-- What a pass calls: the readers' libraries, the constructor of the settings, `posixpath.expanduser`
of a first segment, the parser of connection strings, and an exception's class and text. -/
structure FenceSystem where
  library : FenceLibrary
  scan : ScanLibrary
  rendering : Rendering
  settings : PyDict → Except String FenceSettings
  home : String → String
  parseConninfo : String → List (String × String)
  describe : PyError → DriverError

/-- `Path(path).expanduser()`, as text. -/
def FenceSystem.expand (system : FenceSystem) (path : String) : Except PyError String :=
  match PosixPath.expanduser system.home path with
  | none => .error (.runtimeError "Could not determine home directory.")
  | some expanded => .ok expanded

/-- `json.dumps(report.as_dict(), sort_keys=True, indent=2) + "\n"`. -/
def statusText (report : FenceReport) : String :=
  (Json.Format.mk (some 2) true true).dumps (.dict report.asDict) ++ "\n"

/-- The first characters of a text. -/
def written (count : Nat) (text : String) : String :=
  String.ofList (text.toList.take count)

/-- `write_status`: what it raises, and the directory after it. -/
def writeStatus (system : FenceSystem) (stateDir : String) (report : FenceReport)
    (fault : Option ReplaceFault) (directory : StateDirectory) :
    Option WriteError × StateDirectory :=
  match system.expand stateDir, fault, Json.dumped (.dict report.asDict) (statusText report) with
  | .error error, _, _ => (some (.other error), directory)
  | .ok _, some (.mkdir error), _ => (some error, directory)
  | .ok _, _, .error error => (some (.other error), directory)
  | .ok _, none, .ok text => (none, { directory with status := some text })
  | .ok _, some (.before error), .ok _ => (some error, directory)
  | .ok _, some (.within error count removed), .ok text =>
    (some error, if removed then directory else
      { directory with temporaries := directory.temporaries ++ [written count text] })

/-- What an alarm appends to the log: its lines, each with the time of the pass. -/
def lapse (rendering : Rendering) (report : FenceReport) (now : Int) : String :=
  String.join (report.lines.map fun line => rendering.isoformat now ++ "  " ++ line ++ "\n")

/-- `append_alarm_log`: what it raises, and the directory after it. -/
def appendAlarmLog (system : FenceSystem) (stateDir : String) (report : FenceReport) (now : Int)
    (fault : Option AppendFault) (directory : StateDirectory) :
    Option WriteError × StateDirectory :=
  if report.status ≠ .alarm then (none, directory)
  else
    let before := directory.log.getD ""
    match system.expand stateDir, fault with
    | .error error, _ => (some (.other error), directory)
    | .ok _, none => (none, { directory with log := some (before ++ lapse system.rendering report now) })
    | .ok _, some (.before error) => (some error, directory)
    | .ok _, some (.within error count) => (some error, { directory with
        log := some (before ++ written count (lapse system.rendering report now)) })

/-- The two writes, the second only if the first does not raise. -/
def keepRecord (system : FenceSystem) (stateDir : String) (report : FenceReport) (now : Int)
    (faults : PassFaults) (directory : StateDirectory) : Option WriteError × StateDirectory :=
  match writeStatus system stateDir report faults.status directory with
  | (some error, after) => (some error, after)
  | (none, after) => appendAlarmLog system stateDir report now faults.log after

/-! ### A pass -/

/-- What a pass finds: the environment, the store and the way to it, and the directories and files by
their paths. -/
structure FenceWorld where
  environment : Environment
  connect : Except DriverError Unit
  faults : List (Option DriverError)
  rows : List AgedRow
  directory : String → ReceiptsDirectory
  file : String → StateFile

section

variable (system : FenceSystem) (arguments : FenceArguments) (world : FenceWorld) (now : Int)

/-- The way to the store of a pass. -/
def accessOf (settings : FenceSettings) : StoreAccess where
  dsn := settings.pgDsn
  parseConninfo := system.parseConninfo
  connect := world.connect
  faults := world.faults

/-- The receipts directory. -/
def receiptsOf (settings : FenceSettings) : Except PyError ReceiptsDirectory :=
  (system.expand settings.fenceBuildsDir).map world.directory

/-- `scan_builds` of the settings' directory. -/
def buildsRead (settings : FenceSettings) : Except PyError BuildScan := do
  let path ← system.expand settings.fenceBuildsDir
  scanBuilds system.scan (world.directory path) path

/-- `read_marker` of the settings' path. -/
def markerRead (settings : FenceSettings) : Except PyError MarkerRead := do
  let path ← system.expand settings.fenceRelayMarkerPath
  readMarkerFile system.library (world.file path) path

/-- `read_ack` in a state directory, on the day of the pass. -/
def ackIn (stateDir : String) : Except PyError AckState := do
  let path ← system.expand (PosixPath.spelledIn stateDir "liveness-fence.ack")
  readAck system.library system.rendering (world.file path) path (now / days 1)

/-- `read_ack` in the state directory of the settings. -/
def ackRead (settings : FenceSettings) : Except PyError AckState := do
  let stateDir ← system.expand settings.fenceStateDir
  ackIn system world now stateDir

/-- The receipts and the marker, unless the pass is about the store only. -/
def relayFacts (settings : FenceSettings) : Except PyError (Option BuildScan × Option MarkerRead) :=
  if arguments.storeOnly then .ok (none, none)
  else do
    let builds ← buildsRead system world settings
    let marker ← markerRead system world settings
    return (some builds, some marker)

/-- What the pass gathers. -/
def gather (settings : FenceSettings) (stateDir : String) : Except PyError FenceFacts := do
  let store := if arguments.relayOnly then none
    else some (readStoreFacts (accessOf system world settings) settings.projects world.rows).1
  let relay ← relayFacts system arguments world settings
  let ack ← ackIn system world now stateDir
  return { store, builds := relay.1, marker := relay.2, ack }

/-- The report on the facts. -/
def reportOf (settings : FenceSettings) (facts : FenceFacts) : Except PyError FenceReport :=
  evaluate system.rendering facts settings.thresholds now arguments.storeOnly arguments.relayOnly

/-- The lines to print: `json.dumps` may raise, `report.lines()` does not. -/
def linesOf (report : FenceReport) : Except PyError (List String) :=
  if arguments.json then
    (Json.dumped (.dict report.asDict)
      ((Json.Format.mk none true true).dumps (.dict report.asDict))).map ([·])
  else .ok report.lines

/-- What a pass comes to before it prints: the state directory, the report, and its lines. -/
structure Verdict where
  stateDir : String
  report : FenceReport
  lines : List String

/-- `main` up to its first `print`. -/
def verdictOf (settings : FenceSettings) : Except PyError Verdict := do
  let stateDir ← system.expand settings.fenceStateDir
  let facts ← gather system arguments world now settings stateDir
  let report ← reportOf system arguments now settings facts
  let lines ← linesOf arguments report
  return ⟨stateDir, report, lines⟩

/-- The exit code of a pass, what it prints and what it warns of, and the state directory after
it. Its warnings go to a stream that takes them. -/
structure PassResult where
  exitCode : Nat
  printed : List String
  warned : List String
  directory : StateDirectory

/-- The last resort of `main`. -/
def lastResort (settings : FenceSettings) (error : PyError) (printed : List String)
    (directory : StateDirectory) : PassResult :=
  let described := system.describe error
  ⟨20, printed, ["ERROR: the fence hit an unexpected problem (" ++ described.className ++ "): " ++
    scrubSecrets system.parseConninfo described.text settings.pgDsn], directory⟩

/-- The `print` that raises before the last line is out, if there is one. -/
def PassFaults.unprinted (faults : PassFaults) (lines : List String) : Option PrintFault :=
  faults.print.filter fun fault => fault.printed < lines.length

/-- `main` once the settings are there. -/
def passOf (settings : FenceSettings) (faults : PassFaults) (directory : StateDirectory) :
    PassResult :=
  match verdictOf system arguments world now settings with
  | .error error => lastResort system settings error [] directory
  | .ok ⟨stateDir, report, lines⟩ =>
    match faults.unprinted lines with
    | some fault => lastResort system settings fault.error (lines.take fault.printed) directory
    | none =>
      let code := if report.status = .alarm then 1 else 0
      match keepRecord system stateDir report now faults directory with
      | (none, after) => ⟨code, lines, [], after⟩
      | (some (.os className), after) => ⟨code, lines,
          ["WARNING: the fence could not write its own record to " ++ stateDir ++ " (" ++ className ++
            "); the verdict above still stands."], after⟩
      | (some (.other error), after) => lastResort system settings error lines after

/-- `main`. -/
def fenceMain (faults : PassFaults) (directory : StateDirectory) : PassResult :=
  match resolveSettings system.settings arguments world.environment with
  | .error text => ⟨2, [], ["ERROR: " ++ text], directory⟩
  | .ok settings => passOf system arguments world now settings faults directory

end

/-! ### Evidence in the store and the directory -/

/-- One of the rows that are selected was written at or after the moment. -/
def WrittenSince (rows : List AgedRow) (selected : String → Prop) (moment : Int) : Prop :=
  ∃ row ∈ rows, selected row.storePrefix ∧ ∃ time, row.updatedAt = some time ∧ moment ≤ time

/-- The namespaces of a watched project. -/
def OfProject (project : String) : String → Prop :=
  AtOrBelow ("fleet_memory." ++ project)

section

variable {rows : List AgedRow} {project : String} {thresholds : Thresholds} {now moment : Int}

theorem newestOf_since_iff (selects : String → Bool) :
    (∃ newest, newestOf AgedRow.updatedAt (rows.filter fun row => selects row.storePrefix) =
        some newest ∧ moment ≤ newest) ↔
      WrittenSince rows (fun storePrefix => selects storePrefix = true) moment := by
  rw [newestOf, WrittenSince]
  constructor
  · rintro ⟨newest, isMax, since⟩
    obtain ⟨row, member, time⟩ := List.mem_filterMap.mp (List.max?_mem isMax)
    obtain ⟨inside, selected⟩ := List.mem_filter.mp member
    exact ⟨row, inside, selected, newest, time, since⟩
  · rintro ⟨row, member, selected, time, updated, since⟩
    have inside : time ∈ (rows.filter fun row => selects row.storePrefix).filterMap
        AgedRow.updatedAt :=
      List.mem_filterMap.mpr ⟨row, List.mem_filter.mpr ⟨member, selected⟩, updated⟩
    obtain ⟨newest, isMax⟩ := Option.isSome_iff_exists.mp (List.isSome_max?_of_mem inside)
    exact ⟨newest, isMax, since.trans ((List.max?_eq_some_iff.mp isMax).2 time inside)⟩

/-- The newest write of a project is at or after a moment when one of its rows is. -/
theorem projectFactsOf_since_iff :
    (∃ newest, (projectFactsOf rows project).newestUpdatedAt = some newest ∧ moment ≤ newest) ↔
      WrittenSince rows (OfProject project) moment := by
  refine (newestOf_since_iff fun storePrefix =>
    (matchClause (projectPatterns project) storePrefix).selects).trans ?_
  unfold WrittenSince OfProject projectPatterns
  simp only [selects_matchClause]
  rfl

theorem fresh_iff (newest : Option Int) : Fresh thresholds now newest ↔
    ∃ time, newest = some time ∧ now - hours thresholds.storeMaxAgeHours ≤ time := by
  refine exists_congr fun time => and_congr_right fun _ => ?_
  omega

/-- A project that has a fresh row has rows. -/
theorem projectAlive_iff : ProjectAlive thresholds now (projectFactsOf rows project) ↔
    WrittenSince rows (OfProject project) (now - hours thresholds.storeMaxAgeHours) := by
  rw [ProjectAlive, fresh_iff, projectFactsOf_since_iff]
  refine ⟨And.right, fun written => ⟨fun none_left => ?_, written⟩⟩
  obtain ⟨newest, isMax, -⟩ := projectFactsOf_since_iff.mpr written
  have empty : (rows.filter fun row =>
      (matchClause (projectPatterns project) row.storePrefix).selects) = [] := by
    have count : (((rows.filter fun row =>
      (matchClause (projectPatterns project) row.storePrefix).selects).length : Nat) : Int) = 0 :=
        none_left
    exact List.eq_nil_of_length_eq_zero (by exact_mod_cast count)
  have nothing : (projectFactsOf rows project).newestUpdatedAt = none := by
    show newestOf _ (rows.filter fun row =>
      (matchClause (projectPatterns project) row.storePrefix).selects) = none
    rw [empty]
    rfl
  rw [nothing] at isMax
  cases isMax

end

/-! ### What a pass asks for -/

section

variable (system : FenceSystem) (arguments : FenceArguments) (world : FenceWorld) (now : Int)
  (settings : FenceSettings) (ack : AckState)

/-- The store answers. -/
def StoreAnswers : Prop :=
  (accessOf system world settings).Answers settings.projects

/-- The home directory of a path is known, and this holds of the path. -/
def At (path : String) (holds : String → Prop) : Prop :=
  ∃ expanded, PosixPath.expanduser system.home path = some expanded ∧ holds expanded

/-- Every reader of the pass returns. -/
def Legible : Prop :=
  (At system settings.fenceStateDir fun stateDir =>
    At system (PosixPath.spelledIn stateDir "liveness-fence.ack") fun path =>
      AckReadable system.library (world.file path)) ∧
    (arguments.storeOnly = false →
      (At system settings.fenceRelayMarkerPath fun path =>
        MarkerReadable system.library (world.file path)) ∧
      At system settings.fenceBuildsDir fun path =>
        ∀ entries, world.directory path = .holds entries →
          ∀ entry ∈ entries, Scannable system.scan entry)

/-- The store is alive, or its check is acknowledged, and so is each watched project where the store
answers and has rows. -/
def StorePasses : Prop :=
  let since := now - hours settings.fenceStoreMaxAgeHours
  ((StoreAnswers system world settings ∧ WrittenSince world.rows (fun _ => True) since) ∨
      Named ack "store_age") ∧
    (StoreAnswers system world settings → world.rows ≠ [] → ∀ project ∈ settings.projects,
      WrittenSince world.rows (OfProject project) since ∨ Named ack s!"store_age:{project}")

/-- What excuses the relay: few builds finished since the window began, or it ingested something
since, or a row of a watched project was written since, or it has just been restarted. -/
def RelayExcused (marker : MarkerState) (entries : List DirectoryEntry) : Prop :=
  let since := now - hours settings.fenceBuildWindowHours
  ((entries.countP fun entry => (finishedAt? system.scan entry).any fun time => since ≤ time : Nat)
      : Int) < settings.fenceMinBuildsInWindow ∨
    (∃ ingest, marker.lastIngestAt = some ingest ∧ since ≤ ingest) ∨
    (arguments.relayOnly = false ∧ StoreAnswers system world settings ∧
      ∃ project ∈ settings.projects, WrittenSince world.rows (OfProject project) since) ∨
    ∃ started, marker.startedAt = some started ∧
      now < started + minutes settings.fenceRelayRestartGraceMinutes

/-- The marker and the receipts are in sight and excuse the relay, or its check is acknowledged. -/
def RelayPasses : Prop :=
  (∃ marker state entries, markerRead system world settings = .ok marker ∧
      marker.state = some state ∧ receiptsOf system world settings = .ok (.holds entries) ∧
      RelayExcused system arguments world now settings state entries) ∨
    Named ack "relay_idle"

/-- The checks in scope pass. -/
def Quiet : Prop :=
  (arguments.relayOnly = false → StorePasses system world now settings ack) ∧
    (arguments.storeOnly = false → RelayPasses system arguments world now settings ack)

end

section

variable {system : FenceSystem} {arguments : FenceArguments} {world : FenceWorld} {now : Int}
  {settings : FenceSettings} {facts : FenceFacts}

/-- What was gathered: the facts of the store, the scan and the marker of the relay, and the
acknowledgement. -/
structure Gathered (system : FenceSystem) (arguments : FenceArguments) (world : FenceWorld)
    (now : Int) (settings : FenceSettings) (facts : FenceFacts) : Prop where
  store : facts.store = if arguments.relayOnly then none
    else some (readStoreFacts (accessOf system world settings) settings.projects world.rows).1
  relay : arguments.storeOnly = false → ∃ builds marker, facts.builds = some builds ∧
    facts.marker = some marker ∧ markerRead system world settings = .ok marker ∧
    buildsRead system world settings = .ok builds
  ack : ackRead system world now settings = .ok facts.ack

theorem gather_eq_ok {stateDir : String} (home : system.expand settings.fenceStateDir = .ok stateDir)
    (returned : gather system arguments world now settings stateDir = .ok facts) :
    Gathered system arguments world now settings facts := by
  rw [gather] at returned
  obtain ⟨⟨builds, marker⟩, looked, rest⟩ := except_bind_eq_ok.mp returned
  obtain ⟨ack, acknowledged, last⟩ := except_bind_eq_ok.mp rest
  obtain rfl := Except.ok.inj last
  refine ⟨rfl, fun inScope => ?_, except_bind_eq_ok.mpr ⟨stateDir, home, acknowledged⟩⟩
  rw [relayFacts, inScope, if_neg Bool.false_ne_true] at looked
  obtain ⟨scan, scanned, rest⟩ := except_bind_eq_ok.mp looked
  obtain ⟨read, marked, last⟩ := except_bind_eq_ok.mp rest
  obtain ⟨rfl, rfl⟩ := Prod.mk.inj (Except.ok.inj last)
  exact ⟨scan, read, rfl, rfl, marked, scanned⟩

theorem expand_eq_ok {path expanded : String} : system.expand path = .ok expanded ↔
    PosixPath.expanduser system.home path = some expanded := by
  rw [FenceSystem.expand]
  cases PosixPath.expanduser system.home path <;> simp

/-- What is read at a path is read exactly when its home directory is known. -/
theorem returns_expand_bind {α : Type} {path : String} {read : String → Except PyError α} :
    Returns (system.expand path >>= read) ↔ At system path fun expanded => Returns (read expanded) := by
  simp only [returns_bind, expand_eq_ok, At]

theorem At.congr {path : String} {holds others : String → Prop}
    (same : ∀ expanded, holds expanded ↔ others expanded) :
    At system path holds ↔ At system path others :=
  exists_congr fun expanded => and_congr_right fun _ => same expanded

theorem returns_ackIn_iff (stateDir : String) : Returns (ackIn system world now stateDir) ↔
    At system (PosixPath.spelledIn stateDir "liveness-fence.ack") fun path =>
      AckReadable system.library (world.file path) :=
  returns_expand_bind.trans (At.congr fun _ => readAck_returns_iff _ _ _ _)

/-- What is gathered is gathered exactly when every reader returns. -/
theorem returns_gather_iff (stateDir : String) :
    Returns (gather system arguments world now settings stateDir) ↔
      (arguments.storeOnly = false →
        (At system settings.fenceRelayMarkerPath fun path =>
          MarkerReadable system.library (world.file path)) ∧
        At system settings.fenceBuildsDir fun path =>
          ∀ entries, world.directory path = .holds entries →
            ∀ entry ∈ entries, Scannable system.scan entry) ∧
      Returns (ackIn system world now stateDir) := by
  have marked : Returns (markerRead system world settings) ↔
      At system settings.fenceRelayMarkerPath fun path =>
        MarkerReadable system.library (world.file path) :=
    returns_expand_bind.trans (At.congr fun path => readMarkerFile_returns_iff _ _)
  have scanned : Returns (buildsRead system world settings) ↔
      At system settings.fenceBuildsDir fun path => ∀ entries,
        world.directory path = .holds entries → ∀ entry ∈ entries, Scannable system.scan entry :=
    returns_expand_bind.trans (At.congr fun path => scanBuilds_returns_iff _ _)
  rw [gather, ← marked, ← scanned]
  refine (returns_bind_and fun found => returns_bind.trans ?_).trans (and_congr_left fun _ => ?_)
  · exact ⟨fun ⟨ack, returned, _⟩ => ⟨ack, returned⟩, fun ⟨ack, returned⟩ =>
      ⟨ack, returned, returns_ok _⟩⟩
  · rw [relayFacts]
    cases arguments.storeOnly with
    | true => exact iff_of_true (returns_ok _) fun impossible => by cases impossible
    | false =>
      rw [if_neg Bool.false_ne_true]
      refine (@returns_bind_and _ _ _ _ (Returns (markerRead system world settings))
        fun found => returns_bind.trans ?_).trans ?_
      · exact ⟨fun ⟨marker, returned, _⟩ => ⟨marker, returned⟩, fun ⟨marker, returned⟩ =>
          ⟨marker, returned, returns_ok _⟩⟩
      · exact ⟨fun both _ => both.symm, fun both => (both rfl).symm⟩

/-- A pass is legible exactly when the home of its state directory is known and what it gathers is
gathered. -/
theorem legible_iff : Legible system arguments world settings ↔
    At system settings.fenceStateDir fun stateDir =>
      Returns (gather system arguments world now settings stateDir) := by
  simp only [Legible, At, returns_gather_iff, returns_ackIn_iff]
  constructor
  · rintro ⟨⟨stateDir, home, acknowledged⟩, relay⟩
    exact ⟨stateDir, home, relay, acknowledged⟩
  · rintro ⟨stateDir, home, relay, acknowledged⟩
    exact ⟨⟨stateDir, home, acknowledged⟩, relay⟩

/-- The rows the facts speak of. -/
theorem hasRows_iff (gathered : Gathered system arguments world now settings facts)
    (inScope : arguments.relayOnly = false) (store : StoreFacts) : HasRows facts store ↔
      StoreAnswers system world settings ∧ world.rows ≠ [] ∧
        store = (readStoreFacts (accessOf system world settings) settings.projects world.rows).1 := by
  rw [HasRows, gathered.store, inScope, if_neg Bool.false_ne_true, Option.some.injEq, StoreAnswers]
  rcases @readStoreFacts_cases (accessOf system world settings) settings.projects world.rows with
    ⟨answers, exact_⟩ | ⟨silent, unreachable⟩
  · constructor
    · rintro ⟨rfl, -, some⟩
      refine ⟨answers, fun empty => some ?_, rfl⟩
      rw [exact_, empty]
      rfl
    · rintro ⟨-, nonempty, rfl⟩
      refine ⟨rfl, by rw [exact_], ?_⟩
      rw [exact_]
      intro zero
      have count : ((world.rows.length : Nat) : Int) = 0 := zero
      exact nonempty (List.eq_nil_of_length_eq_zero (by exact_mod_cast count))
  · constructor
    · rintro ⟨rfl, reachable, -⟩
      rw [unreachable] at reachable
      cases reachable
    · exact fun found => absurd found.1 silent

/-- The store is alive, by the facts, when it answers and has a fresh row. -/
theorem storeAlive_iff (gathered : Gathered system arguments world now settings facts)
    (inScope : arguments.relayOnly = false) :
    StoreAlive facts settings.thresholds now ↔ StoreAnswers system world settings ∧
      WrittenSince world.rows (fun _ => True) (now - hours settings.fenceStoreMaxAgeHours) := by
  have every : world.rows.filter (fun _ => true) = world.rows :=
    List.filter_eq_self.mpr fun _ _ => rfl
  have newest : (∃ time, newestOf AgedRow.updatedAt world.rows = some time ∧
        now - hours settings.fenceStoreMaxAgeHours ≤ time) ↔
      WrittenSince world.rows (fun _ => True) (now - hours settings.fenceStoreMaxAgeHours) := by
    have since := @newestOf_since_iff world.rows (now - hours settings.fenceStoreMaxAgeHours)
      fun _ => true
    rw [every] at since
    simpa only [WrittenSince] using since
  have exact_ (answers : StoreAnswers system world settings) :
      (readStoreFacts (accessOf system world settings) settings.projects
        world.rows).1.newestUpdatedAt = newestOf AgedRow.updatedAt world.rows := by
    rcases @readStoreFacts_cases (accessOf system world settings) settings.projects world.rows with
      ⟨-, same⟩ | ⟨silent, -⟩
    · rw [same]
    · exact absurd answers silent
  rw [StoreAlive, ← newest]
  constructor
  · rintro ⟨store, rows, fresh⟩
    obtain ⟨answers, -, rfl⟩ := (hasRows_iff gathered inScope store).mp rows
    rw [fresh_iff, exact_ answers] at fresh
    exact ⟨answers, fresh⟩
  · rintro ⟨answers, fresh⟩
    have nonempty : world.rows ≠ [] := by
      obtain ⟨row, member, -⟩ := newest.mp fresh
      exact List.ne_nil_of_mem member
    refine ⟨_, (hasRows_iff gathered inScope _).mpr ⟨answers, nonempty, rfl⟩, ?_⟩
    rw [fresh_iff, exact_ answers]
    exact fresh

theorem perProject_of_answers (answers : StoreAnswers system world settings) :
    (readStoreFacts (accessOf system world settings) settings.projects world.rows).1.perProject =
      settings.projects.map (projectFactsOf world.rows) := by
  rcases @readStoreFacts_cases (accessOf system world settings) settings.projects world.rows with
    ⟨-, same⟩ | ⟨silent, -⟩
  · rw [same]
  · exact absurd answers silent

/-- The checks of the store, by the facts and by the rows. -/
theorem storePasses_iff (gathered : Gathered system arguments world now settings facts)
    (inScope : arguments.relayOnly = false) :
    ((StoreAlive facts settings.thresholds now ∨ Named facts.ack "store_age") ∧
      ∀ store, HasRows facts store → ∀ project ∈ store.perProject,
        ProjectAlive settings.thresholds now project ∨
          Named facts.ack s!"store_age:{project.project}") ↔
      StorePasses system world now settings facts.ack := by
  rw [storeAlive_iff gathered inScope, StorePasses]
  refine and_congr_right fun _ => ⟨fun each answers nonempty project watched => ?_,
    fun each store rows project member => ?_⟩
  · have passes := each _ ((hasRows_iff gathered inScope _).mpr ⟨answers, nonempty, rfl⟩)
      (projectFactsOf world.rows project) (by
        rw [perProject_of_answers answers]
        exact List.mem_map.mpr ⟨project, watched, rfl⟩)
    rwa [projectAlive_iff] at passes
  · obtain ⟨answers, nonempty, rfl⟩ := (hasRows_iff gathered inScope store).mp rows
    rw [perProject_of_answers answers] at member
    obtain ⟨watched, inside, rfl⟩ := List.mem_map.mp member
    rw [projectAlive_iff]
    exact each answers nonempty watched inside

/-- A row of a watched project was written since a moment, by the facts and by the rows. -/
theorem watchedSince_iff (gathered : Gathered system arguments world now settings facts)
    (moment : Int) : WatchedSince facts.store settings.thresholds moment ↔
      arguments.relayOnly = false ∧ StoreAnswers system world settings ∧
        ∃ project ∈ settings.projects, WrittenSince world.rows (OfProject project) moment := by
  rw [WatchedSince, gathered.store]
  cases arguments.relayOnly with
  | true =>
    refine iff_of_false ?_ fun both => Bool.noConfusion both.1
    rintro ⟨store, impossible, -⟩
    cases impossible
  | false =>
    rw [if_neg Bool.false_ne_true]
    simp only [Option.some.injEq, exists_eq_left', true_and]
    rcases @readStoreFacts_cases (accessOf system world settings) settings.projects world.rows with
      ⟨answers, same⟩ | ⟨silent, unreachable⟩
    · have all : StoreAnswers system world settings := answers
      rw [same]
      simp only [all, true_and, List.mem_map, exists_exists_and_eq_and]
      refine exists_congr fun project => and_congr_right fun inside => ?_
      rw [projectFactsOf_since_iff]
      exact and_iff_right inside
    · rw [unreachable]
      exact iff_of_false (fun both => Bool.noConfusion both.1) fun both => silent both.1

/-- The check of the relay, by the facts and by the files. -/
theorem relayPasses_iff (gathered : Gathered system arguments world now settings facts)
    (inScope : arguments.storeOnly = false) :
    (RelayAlive facts settings.thresholds now ∨ Named facts.ack "relay_idle") ↔
      RelayPasses system arguments world now settings facts.ack := by
  obtain ⟨builds, marker, isBuilds, isMarker, read, looked⟩ := gathered.relay inScope
  obtain ⟨path, home, scanned⟩ := except_bind_eq_ok.mp looked
  have received : receiptsOf system world settings = .ok (world.directory path) := by
    rw [receiptsOf, home]
    rfl
  refine or_congr ?_ Iff.rfl
  rw [RelayAlive]
  simp only [isMarker, isBuilds, Option.some.injEq, exists_and_left, exists_eq_left', read,
    Except.ok.injEq, received]
  refine exists_congr fun state => and_congr_right fun _ => ?_
  rcases scanBuilds_eq_ok scanned with ⟨problem, blind⟩ | ⟨clear, entries, holds, counted⟩
  · refine iff_of_false (fun found => ?_) ?_
    · rw [found.1] at problem
      cases problem
    · rintro ⟨entries, holds, -⟩
      exact blind entries holds
  · simp only [clear, holds, true_and, ReceiptsDirectory.holds.injEq, exists_eq_left']
    rw [Active, RelayExcused, watchedSince_iff gathered]
    exact or_congr (iff_of_eq (congrArg
      (fun count : Nat => (count : Int) < settings.fenceMinBuildsInWindow) (counted _))) Iff.rfl

/-- A pass that came to a report raises no alarm exactly when its checks pass. -/
theorem report_ne_alarm_iff (gathered : Gathered system arguments world now settings facts)
    {report : FenceReport} (reported : reportOf system arguments now settings facts = .ok report) :
    report.status ≠ .alarm ↔ Quiet system arguments world now settings facts.ack := by
  rw [evaluate_ne_alarm_iff reported, Quiet]
  refine (passes_iff_scopes facts settings.thresholds now _ _).trans ?_
  exact and_congr (forall_congr' fun inScope => storePasses_iff gathered inScope)
    (forall_congr' fun inScope => relayPasses_iff gathered inScope)

end

/-! ### What a pass raises -/

/-- The error is an `OSError`. -/
def WriteError.IsOs : WriteError → Prop
  | os _ => True
  | other _ => False

/-- No line's `print` raises: the line of `--json` shows no integer of too many digits. -/
def Prints (arguments : FenceArguments) (faults : PassFaults) (report : FenceReport) : Prop :=
  (arguments.json = true → Json.shortIntegers (.dict report.asDict) = true) ∧
    ∀ fault ∈ faults.print, (if arguments.json then 1 else report.lines.length) ≤ fault.printed

/-- The status file is written, or an `OSError` prevents it. -/
def StatusKept (fault : Option ReplaceFault) (report : FenceReport) : Prop :=
  match fault with
  | some (.mkdir error) => error.IsOs
  | some (.before error) | some (.within error _ _) =>
    Json.shortIntegers (.dict report.asDict) = true ∧ error.IsOs
  | none => Json.shortIntegers (.dict report.asDict) = true

/-- The record is kept, or an `OSError` prevents it. The log is opened only by an alarm, once the
status file is written. -/
def Records (system : FenceSystem) (stateDir : String) (faults : PassFaults)
    (report : FenceReport) : Prop :=
  (At system stateDir fun _ => StatusKept faults.status report) ∧
    (faults.status.isNone = true → report.status = .alarm →
      ∀ error, (faults.log = some (.before error) ∨ ∃ count, faults.log = some (.within error count)) →
        error.IsOs)

/-- A pass completes: its readers return, its checks can be computed, and neither `print` nor the
writing of its record raises, but for an `OSError` of the latter. -/
structure Completes (system : FenceSystem) (arguments : FenceArguments) (world : FenceWorld)
    (now : Int) (settings : FenceSettings) (faults : PassFaults) : Prop where
  legible : Legible system arguments world settings
  computes : ∀ stateDir facts, PosixPath.expanduser system.home settings.fenceStateDir = some stateDir →
    gather system arguments world now settings stateDir = .ok facts →
      Computes facts settings.thresholds now arguments.storeOnly arguments.relayOnly
  prints : ∀ stateDir facts report,
    PosixPath.expanduser system.home settings.fenceStateDir = some stateDir →
    gather system arguments world now settings stateDir = .ok facts →
    reportOf system arguments now settings facts = .ok report → Prints arguments faults report
  records : ∀ stateDir facts report,
    PosixPath.expanduser system.home settings.fenceStateDir = some stateDir →
    gather system arguments world now settings stateDir = .ok facts →
    reportOf system arguments now settings facts = .ok report →
      Records system stateDir faults report

section

variable {system : FenceSystem} {arguments : FenceArguments} {world : FenceWorld} {now : Int}
  {settings : FenceSettings} {faults : PassFaults} {directory : StateDirectory}
  {report : FenceReport} {stateDir : String}

theorem dumped_eq_ok {value : PyValue} {text found : String} :
    Json.dumped value text = .ok found ↔ Json.shortIntegers value = true ∧ found = text := by
  rw [Json.dumped]
  cases Json.shortIntegers value <;> simp [eq_comm]

theorem returns_linesOf_iff : Returns (linesOf arguments report) ↔
    (arguments.json = true → Json.shortIntegers (.dict report.asDict) = true) := by
  rw [linesOf]
  cases arguments.json with
  | false => exact iff_of_true (returns_ok _) fun impossible => by cases impossible
  | true =>
    rw [if_pos rfl, returns_map]
    refine ⟨fun ⟨text, dumped⟩ _ => (dumped_eq_ok.mp dumped).1, fun short => ?_⟩
    exact ⟨_, dumped_eq_ok.mpr ⟨short rfl, rfl⟩⟩

theorem length_of_linesOf {lines : List String} (made : linesOf arguments report = .ok lines) :
    lines.length = if arguments.json then 1 else report.lines.length := by
  rw [linesOf] at made
  cases json : arguments.json with
  | false =>
    rw [json, if_neg Bool.false_ne_true] at made
    rw [if_neg Bool.false_ne_true, Except.ok.inj made]
  | true =>
    rw [json, if_pos rfl] at made
    obtain ⟨text, -, rfl⟩ := except_map_eq_ok.mp made
    rfl

/-- The lines are made and every `print` returns exactly when nothing is in the way. -/
theorem prints_iff : Prints arguments faults report ↔
    ∃ lines, linesOf arguments report = .ok lines ∧ faults.unprinted lines = none := by
  have silent (lines : List String) (made : linesOf arguments report = .ok lines) :
      faults.unprinted lines = none ↔
        ∀ fault ∈ faults.print, (if arguments.json then 1 else report.lines.length) ≤ fault.printed := by
    rw [PassFaults.unprinted, Option.filter_eq_none_iff, length_of_linesOf made]
    simp only [decide_eq_true_eq, not_lt, Option.mem_def]
  rw [Prints, ← returns_linesOf_iff]
  constructor
  · rintro ⟨⟨lines, made⟩, printed⟩
    exact ⟨lines, made, (silent lines made).mpr printed⟩
  · rintro ⟨lines, made, printed⟩
    exact ⟨⟨lines, made⟩, (silent lines made).mp printed⟩

theorem expand_cases (path : String) :
    (∃ expanded, system.expand path = .ok expanded ∧
      PosixPath.expanduser system.home path = some expanded) ∨
    ∃ error, system.expand path = .error error ∧
      PosixPath.expanduser system.home path = none := by
  rw [FenceSystem.expand]
  cases PosixPath.expanduser system.home path with
  | none => exact Or.inr ⟨_, rfl, rfl⟩
  | some expanded => exact Or.inl ⟨expanded, rfl, rfl⟩

/-- What a write raised is nothing or an `OSError`, which `main` expects. -/
def Expected (raised : Option WriteError) : Prop :=
  ∀ error ∈ raised, error.IsOs

theorem expected_none : Expected none := by
  rintro error ⟨⟩

theorem expected_some_iff {error : WriteError} : Expected (some error) ↔ error.IsOs :=
  ⟨fun all => all error rfl, by rintro os _ ⟨⟩; exact os⟩

theorem expected_writeStatus_iff (fault : Option ReplaceFault) :
    Expected (writeStatus system stateDir report fault directory).1 ↔
      At system stateDir fun _ => StatusKept fault report := by
  unfold writeStatus
  rcases @expand_cases system stateDir with ⟨expanded, home, found⟩ | ⟨error, raised, missing⟩
  · have here : (At system stateDir fun _ => StatusKept fault report) ↔ StatusKept fault report :=
      ⟨fun ⟨_, _, kept⟩ => kept, fun kept => ⟨expanded, found, kept⟩⟩
    rw [home, here, Json.dumped]
    unfold StatusKept
    cases Json.shortIntegers (.dict report.asDict) <;> rcases fault with _ | _ | _ | _ <;>
      simp [expected_none, expected_some_iff, WriteError.IsOs]
  · rw [raised]
    refine iff_of_false (fun expected => expected_some_iff.mp expected) ?_
    rintro ⟨expanded, found, -⟩
    rw [missing] at found
    cases found

/-- The status file is written exactly when nothing is in the way, and it is then the report's. -/
theorem writeStatus_eq_none_iff (fault : Option ReplaceFault) :
    (writeStatus system stateDir report fault directory).1 = none ↔
      (At system stateDir fun _ => Json.shortIntegers (.dict report.asDict) = true) ∧
        fault.isNone = true := by
  unfold writeStatus
  rcases @expand_cases system stateDir with ⟨expanded, home, found⟩ | ⟨error, raised, missing⟩
  · have here : (At system stateDir fun _ => Json.shortIntegers (.dict report.asDict) = true) ↔
        Json.shortIntegers (.dict report.asDict) = true :=
      ⟨fun ⟨_, _, kept⟩ => kept, fun kept => ⟨expanded, found, kept⟩⟩
    rw [home, here, Json.dumped]
    cases Json.shortIntegers (.dict report.asDict) <;> rcases fault with _ | _ | _ | _ <;> simp
  · rw [raised]
    refine iff_of_false (by simp) ?_
    rintro ⟨⟨expanded, found, -⟩, -⟩
    rw [missing] at found
    cases found

theorem expected_appendAlarmLog_iff (home : At system stateDir fun _ => True)
    (fault : Option AppendFault) :
    Expected (appendAlarmLog system stateDir report now fault directory).1 ↔
      (report.status = .alarm → ∀ error,
        (fault = some (.before error) ∨ ∃ count, fault = some (.within error count)) →
          error.IsOs) := by
  obtain ⟨expanded, found, -⟩ := home
  unfold appendAlarmLog
  rw [expand_eq_ok.mpr found]
  by_cases alarm : report.status = .alarm
  · rcases fault with _ | _ | _ <;> simp [alarm, expected_none, expected_some_iff]
  · simp [alarm, expected_none]

/-- The record raises nothing but an `OSError` exactly when it is kept but for one. -/
theorem expected_keepRecord_iff :
    Expected (keepRecord system stateDir report now faults directory).1 ↔
      Records system stateDir faults report := by
  have status := @expected_writeStatus_iff system directory report stateDir faults.status
  have quiet := @writeStatus_eq_none_iff system directory report stateDir faults.status
  rw [Records, ← status]
  rw [keepRecord]
  rcases outcome : writeStatus system stateDir report faults.status directory with ⟨raised, after⟩
  rw [outcome] at quiet
  cases raised with
  | some error =>
    refine (and_iff_left_of_imp fun expected none_failed alarm => ?_).symm
    refine absurd (quiet.mpr ⟨?_, none_failed⟩) (by simp)
    have kept := status.mp (outcome ▸ expected)
    rw [Option.isNone_iff_eq_none.mp none_failed] at kept
    exact kept
  | none =>
    obtain ⟨short, none_failed⟩ := quiet.mp rfl
    dsimp only
    rw [expected_appendAlarmLog_iff (short.imp fun _ both => ⟨both.1, trivial⟩)]
    exact ⟨fun expected => ⟨expected_none, fun _ => expected⟩, fun both => both.2 none_failed⟩

theorem completes_iff_of_report {facts : FenceFacts}
    (home : system.expand settings.fenceStateDir = .ok stateDir)
    (gathers : gather system arguments world now settings stateDir = .ok facts)
    (reported : reportOf system arguments now settings facts = .ok report) :
    Completes system arguments world now settings faults ↔
      Prints arguments faults report ∧ Records system stateDir faults report := by
  have expanded := expand_eq_ok.mp home
  constructor
  · exact fun completes => ⟨completes.prints stateDir facts report expanded gathers reported,
      completes.records stateDir facts report expanded gathers reported⟩
  · rintro ⟨prints, records⟩
    refine ⟨legible_iff.mpr ⟨stateDir, expanded, facts, gathers⟩, ?_, ?_, ?_⟩
    · intro other found same gathersAgain
      obtain rfl := Option.some.inj (expanded.symm.trans same)
      obtain rfl := Except.ok.inj (gathers.symm.trans gathersAgain)
      exact (returns_evaluate_iff _ _).mp ⟨report, reported⟩
    · intro other found again same gathersAgain reportedAgain
      obtain rfl := Option.some.inj (expanded.symm.trans same)
      obtain rfl := Except.ok.inj (gathers.symm.trans gathersAgain)
      obtain rfl := Except.ok.inj (reported.symm.trans reportedAgain)
      exact prints
    · intro other found again same gathersAgain reportedAgain
      obtain rfl := Option.some.inj (expanded.symm.trans same)
      obtain rfl := Except.ok.inj (gathers.symm.trans gathersAgain)
      obtain rfl := Except.ok.inj (reported.symm.trans reportedAgain)
      exact records

theorem verdictOf_of_report {facts : FenceFacts} {lines : List String}
    (home : system.expand settings.fenceStateDir = .ok stateDir)
    (gathers : gather system arguments world now settings stateDir = .ok facts)
    (reported : reportOf system arguments now settings facts = .ok report)
    (made : linesOf arguments report = .ok lines) :
    verdictOf system arguments world now settings = .ok ⟨stateDir, report, lines⟩ := by
  rw [verdictOf, home, except_ok_bind, gathers, except_ok_bind, reported, except_ok_bind, made]
  rfl

/-- A pass that raises before its record leaves the directory as it was. -/
theorem passOf_of_unprinted (unprinted : ∀ verdict,
      verdictOf system arguments world now settings = .ok verdict →
        faults.unprinted verdict.lines ≠ none) :
    (passOf system arguments world now settings faults directory).exitCode = 20 ∧
      (passOf system arguments world now settings faults directory).directory = directory := by
  rw [passOf]
  cases outcome : verdictOf system arguments world now settings with
  | error error => exact ⟨rfl, rfl⟩
  | ok verdict =>
    obtain ⟨fault, failed⟩ := Option.ne_none_iff_exists'.mp (unprinted verdict outcome)
    dsimp only
    rw [failed]
    exact ⟨rfl, rfl⟩

/-- A pass that printed its report keeps it. It raises if the record does so unexpectedly, and else
has the report's exit code and warns exactly if the record raised. -/
theorem passOf_of_printed {lines : List String}
    (verdict : verdictOf system arguments world now settings = .ok ⟨stateDir, report, lines⟩)
    (printed : faults.unprinted lines = none) :
    (passOf system arguments world now settings faults directory).directory =
        (keepRecord system stateDir report now faults directory).2 ∧
      ((Expected (keepRecord system stateDir report now faults directory).1 ∧
          (passOf system arguments world now settings faults directory).exitCode =
            (if report.status = .alarm then 1 else 0) ∧
          ((passOf system arguments world now settings faults directory).warned = [] ↔
            (keepRecord system stateDir report now faults directory).1 = none)) ∨
        ¬Expected (keepRecord system stateDir report now faults directory).1 ∧
          (passOf system arguments world now settings faults directory).exitCode = 20) := by
  rw [passOf, verdict]
  dsimp only
  rw [printed]
  dsimp only
  rcases keepRecord system stateDir report now faults directory with ⟨_ | _ | error, after⟩
  · exact ⟨rfl, Or.inl ⟨expected_none, rfl, by simp⟩⟩
  · exact ⟨rfl, Or.inl ⟨expected_some_iff.mpr trivial, rfl, by simp⟩⟩
  · exact ⟨rfl, Or.inr ⟨fun expected => expected_some_iff.mp expected, rfl⟩⟩

/-- A pass with settings completes and has its report's exit code, or raises. -/
theorem passOf_cases (system : FenceSystem) (arguments : FenceArguments) (world : FenceWorld)
    (now : Int) (settings : FenceSettings) (faults : PassFaults) (directory : StateDirectory) :
    (¬Completes system arguments world now settings faults ∧
      (passOf system arguments world now settings faults directory).exitCode = 20) ∨
    (Completes system arguments world now settings faults ∧ ∃ facts report,
      Gathered system arguments world now settings facts ∧
      reportOf system arguments now settings facts = .ok report ∧
      (passOf system arguments world now settings faults directory).exitCode =
        if report.status = .alarm then 1 else 0) := by
  have raises (incomplete : ¬Completes system arguments world now settings faults)
      (unmade : ∀ verdict, verdictOf system arguments world now settings ≠ .ok verdict) :
      ¬Completes system arguments world now settings faults ∧
        (passOf system arguments world now settings faults directory).exitCode = 20 :=
    ⟨incomplete, (passOf_of_unprinted fun verdict made => absurd made (unmade verdict)).1⟩
  rcases @expand_cases system settings.fenceStateDir with
    ⟨stateDir, home, expanded⟩ | ⟨error, raised, missing⟩
  · cases gathers : gather system arguments world now settings stateDir with
    | error error =>
      refine Or.inl (raises (fun completes => ?_) fun verdict made => ?_)
      · obtain ⟨other, same, facts, gathered⟩ := legible_iff.mp completes.legible
        obtain rfl := Option.some.inj (expanded.symm.trans same)
        cases gathers.symm.trans gathered
      · rw [verdictOf, home, except_ok_bind, gathers] at made
        cases made
    | ok facts =>
      cases reported : reportOf system arguments now settings facts with
      | error error =>
        refine Or.inl (raises (fun completes => ?_) fun verdict made => ?_)
        · obtain ⟨report, returned⟩ := (@returns_evaluate_iff system.rendering _ _ _ _ _).mpr
            (completes.computes stateDir facts expanded gathers)
          cases reported.symm.trans returned
        · rw [verdictOf, home, except_ok_bind, gathers, except_ok_bind, reported] at made
          cases made
      | ok report =>
        rw [completes_iff_of_report home gathers reported, prints_iff,
          ← @expected_keepRecord_iff system now faults directory]
        by_cases printed : ∃ lines, linesOf arguments report = .ok lines ∧
            faults.unprinted lines = none
        · obtain ⟨lines, made, silent⟩ := printed
          have verdict := verdictOf_of_report home gathers reported made
          rcases (@passOf_of_printed _ _ _ _ _ _ directory _ _ _ verdict silent).2 with
            ⟨expected, code, -⟩ | ⟨unexpected, code⟩
          · exact Or.inr ⟨⟨⟨lines, made, silent⟩, expected⟩, facts, report,
              gather_eq_ok home gathers, reported, code⟩
          · exact Or.inl ⟨fun both => unexpected both.2, code⟩
        · refine Or.inl ⟨fun both => printed both.1, (passOf_of_unprinted ?_).1⟩
          intro verdict made silent
          rw [verdictOf, home, except_ok_bind, gathers, except_ok_bind, reported,
            except_ok_bind] at made
          obtain ⟨lines, lined, last⟩ := except_bind_eq_ok.mp made
          obtain rfl := Except.ok.inj last
          exact printed ⟨lines, lined, silent⟩
  · refine Or.inl (raises (fun completes => ?_) fun verdict made => ?_)
    · obtain ⟨stateDir, expanded, -⟩ := completes.legible.1
      rw [missing] at expanded
      cases expanded
    · rw [verdictOf, raised] at made
      cases made

end

end FleetMemory.Fence
