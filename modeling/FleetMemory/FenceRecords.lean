/-
This file proves what the record of the fence holds after passes of which any may fail. The status
file is always one that a pass wrote as a whole, and reads back as that pass's report; the alarm log
only grows, by the lines of the passes that alarmed and of no others; and a pass that alarmed
without having its lines in the log says so.
-/

import FleetMemory.FencePass

namespace FleetMemory.Fence

/-! ### Passes -/

/-- One pass: its arguments, what it finds, its time and what fails once it has its report. -/
structure FencePass where
  arguments : FenceArguments
  world : FenceWorld
  now : Int
  faults : PassFaults

section

variable (system : FenceSystem)

/-- A pass over a state directory. -/
def FencePass.run (pass : FencePass) (directory : StateDirectory) : PassResult :=
  fenceMain system pass.arguments pass.world pass.now pass.faults directory

/-- The state directory after some passes. -/
def afterPasses (passes : List FencePass) (directory : StateDirectory) : StateDirectory :=
  passes.foldl (fun before pass => (pass.run system before).directory) directory

/-- What a pass comes to whose report is made and printed. -/
def FencePass.verdict? (pass : FencePass) : Option Verdict :=
  match resolveSettings system.settings pass.arguments pass.world.environment with
  | .error _ => none
  | .ok settings =>
    (verdictOf system pass.arguments pass.world pass.now settings).toOption.filter fun verdict =>
      (pass.faults.unprinted verdict.lines).isNone

/-- The report of a pass that makes one and prints it. -/
def FencePass.report? (pass : FencePass) : Option FenceReport :=
  (pass.verdict? system).map Verdict.report

/-- The status file is written: the directory's home is known, no integer has too many digits, and
nothing fails. -/
def statusKept (pass : FencePass) (verdict : Verdict) : Bool :=
  (PosixPath.expanduser system.home verdict.stateDir).isSome &&
    (Json.shortIntegers (.dict verdict.report.asDict) && pass.faults.status.isNone)

/-- The status file that a pass writes. -/
def statusWritten (pass : FencePass) : Option String :=
  ((pass.verdict? system).filter (statusKept system pass)).map fun verdict =>
    statusText verdict.report

/-- What is in the log of the lines that were to be appended. -/
def appended (lines : String) : Option AppendFault → String
  | none => lines
  | some (.before _) => ""
  | some (.within _ count) => written count lines

/-- What a pass appends to the alarm log. -/
def logged (pass : FencePass) : String :=
  match (pass.verdict? system).filter (statusKept system pass) with
  | none => ""
  | some verdict =>
    if verdict.report.status ≠ .alarm then ""
    else appended (lapse system.rendering verdict.report pass.now) pass.faults.log

/-- A text is what a pass leaves in the alarm log: nothing unless its report is an alarm, the
beginning of its lines, and all of them if it ends as an alarm that warns of nothing. -/
structure Logs (pass : FencePass) (text : String) : Prop where
  quiet : (∀ report, pass.report? system = some report → report.status ≠ .alarm) → text = ""
  begins : ∀ report, pass.report? system = some report →
    text.toList <+: (lapse system.rendering report pass.now).toList
  whole : ∀ directory, (pass.run system directory).exitCode = 1 →
    (pass.run system directory).warned = [] → ∃ report, pass.report? system = some report ∧
      report.status = .alarm ∧ text = lapse system.rendering report pass.now

end

/-! ### One pass -/

section

variable {system : FenceSystem} {pass : FencePass} {directory : StateDirectory} {verdict : Verdict}

/-- A pass that prints no report ends with an exit code of its own and leaves its record as it
was. -/
theorem run_of_none (none_made : pass.verdict? system = none) :
    (pass.run system directory).directory = directory ∧
      (pass.run system directory).exitCode ≠ 1 := by
  rw [FencePass.verdict?] at none_made
  rw [FencePass.run, fenceMain]
  cases resolved : resolveSettings system.settings pass.arguments pass.world.environment with
  | error text => exact ⟨rfl, show 2 ≠ 1 by decide⟩
  | ok settings =>
    rw [resolved] at none_made
    have unprinted := @passOf_of_unprinted system pass.arguments pass.world pass.now settings
      pass.faults directory (by
        intro verdict made silent
        dsimp only at none_made
        rw [made] at none_made
        simp [Except.toOption, Option.filter, silent] at none_made)
    exact ⟨unprinted.2, by rw [unprinted.1]; decide⟩

/-- A verdict that was printed was computed, with the settings there are. -/
theorem computed_of_verdict (made : pass.verdict? system = some verdict) : ∃ settings,
    resolveSettings system.settings pass.arguments pass.world.environment = .ok settings ∧
      verdictOf system pass.arguments pass.world pass.now settings = .ok verdict ∧
        pass.faults.unprinted verdict.lines = none := by
  rw [FencePass.verdict?] at made
  split at made
  · cases made
  · rename_i settings resolved
    obtain ⟨come, silent⟩ := Option.filter_eq_some_iff.mp made
    refine ⟨settings, resolved, ?_, Option.isNone_iff_eq_none.mp silent⟩
    cases outcome : verdictOf system pass.arguments pass.world pass.now settings with
    | error error =>
      rw [outcome] at come
      cases come
    | ok other =>
      rw [outcome] at come
      exact congrArg Except.ok (Option.some.inj come)

/-- A pass that prints its report keeps it. It ends as an alarm or with a warning only as the report
and the record say. -/
theorem run_of_verdict (made : pass.verdict? system = some verdict) :
    (pass.run system directory).directory =
        (keepRecord system verdict.stateDir verdict.report pass.now pass.faults directory).2 ∧
      ((pass.run system directory).exitCode = 1 → verdict.report.status = .alarm ∧
        ((pass.run system directory).warned = [] →
          (keepRecord system verdict.stateDir verdict.report pass.now pass.faults directory).1 =
            none)) := by
  obtain ⟨settings, resolved, computed, silent⟩ := computed_of_verdict made
  rw [FencePass.run, fenceMain, resolved]
  obtain ⟨kept, ending⟩ := @passOf_of_printed _ _ _ _ _ _ directory _ _ _ computed silent
  refine ⟨kept, fun code => ?_⟩
  rcases ending with ⟨-, exit_, warns⟩ | ⟨-, exit_⟩
  · refine ⟨?_, warns.mp⟩
    by_contra calm
    rw [if_neg calm] at exit_
    exact absurd (exit_.symm.trans code) (by decide)
  · exact absurd (exit_.symm.trans code) (by decide)

/-- The report of a verdict was evaluated. -/
theorem evaluated_of_verdict (made : pass.verdict? system = some verdict) :
    ∃ settings facts, reportOf system pass.arguments pass.now settings facts = .ok verdict.report := by
  obtain ⟨settings, -, computed, -⟩ := computed_of_verdict made
  obtain ⟨stateDir, -, rest⟩ := except_bind_eq_ok.mp computed
  obtain ⟨facts, -, rest⟩ := except_bind_eq_ok.mp rest
  obtain ⟨report, reported, rest⟩ := except_bind_eq_ok.mp rest
  obtain ⟨lines, -, last⟩ := except_bind_eq_ok.mp rest
  obtain rfl := Except.ok.inj last
  exact ⟨settings, facts, reported⟩

/-- What the first write leaves: the status file, written exactly if it could be, and the log. -/
theorem writeStatus_eq (report : FenceReport) (stateDir : String) (fault : Option ReplaceFault) :
    (writeStatus system stateDir report fault directory).2.log = directory.log ∧
      ((writeStatus system stateDir report fault directory).1 = none ∧
          (writeStatus system stateDir report fault directory).2.status = some (statusText report) ∨
        (writeStatus system stateDir report fault directory).1 ≠ none ∧
          (writeStatus system stateDir report fault directory).2.status = directory.status) := by
  unfold writeStatus
  split
  · exact ⟨rfl, Or.inr ⟨by simp, rfl⟩⟩
  · exact ⟨rfl, Or.inr ⟨by simp, rfl⟩⟩
  · exact ⟨rfl, Or.inr ⟨by simp, rfl⟩⟩
  · rename_i _ text _ dumped
    exact ⟨rfl, Or.inl ⟨rfl, by rw [(dumped_eq_ok.mp dumped).2]⟩⟩
  · exact ⟨rfl, Or.inr ⟨by simp, rfl⟩⟩
  · dsimp only
    split <;> exact ⟨rfl, Or.inr ⟨by simp, rfl⟩⟩

theorem statusKept_iff : statusKept system pass verdict = true ↔
    (writeStatus system verdict.stateDir verdict.report pass.faults.status directory).1 = none := by
  rw [writeStatus_eq_none_iff, statusKept, Bool.and_eq_true, Bool.and_eq_true,
    Option.isSome_iff_exists, ← and_assoc]
  exact and_congr_left fun _ => ⟨fun ⟨⟨path, found⟩, short⟩ => ⟨path, found, short⟩,
    fun ⟨path, found, short⟩ => ⟨⟨path, found⟩, short⟩⟩

/-- What keeping a report leaves of the status file and the log. -/
theorem keepRecord_eq (verdict : Verdict) (pass : FencePass) (directory : StateDirectory) :
    (keepRecord system verdict.stateDir verdict.report pass.now pass.faults directory).2.status =
        (if statusKept system pass verdict then some (statusText verdict.report)
          else none).or directory.status ∧
      (keepRecord system verdict.stateDir verdict.report pass.now pass.faults directory).2.log.getD
          "" = directory.log.getD "" ++
        (if statusKept system pass verdict then
          if verdict.report.status ≠ .alarm then ""
          else appended (lapse system.rendering verdict.report pass.now) pass.faults.log
        else "") := by
  have kept := @statusKept_iff system pass directory verdict
  obtain ⟨log, status⟩ := @writeStatus_eq system directory verdict.report verdict.stateDir
    pass.faults.status
  have home (wrote : statusKept system pass verdict = true) :
      ∃ expanded, system.expand verdict.stateDir = .ok expanded := by
    rw [statusKept, Bool.and_eq_true, Option.isSome_iff_exists] at wrote
    obtain ⟨⟨expanded, found⟩, -⟩ := wrote
    exact ⟨expanded, expand_eq_ok.mpr found⟩
  rw [keepRecord]
  rcases outcome : writeStatus system verdict.stateDir verdict.report pass.faults.status directory
    with ⟨raised, after⟩
  rw [outcome] at kept log status
  cases raised with
  | some error =>
    have failed : statusKept system pass verdict = false := by
      rw [← Bool.not_eq_true, kept]
      simp
    rw [failed]
    have same : after.log = directory.log := log
    exact ⟨(status.resolve_left (by simp)).2, by simp [same]⟩
  | none =>
    have wrote := kept.mpr rfl
    have same : after.log = directory.log := log
    obtain ⟨expanded, home⟩ := home wrote
    obtain ⟨-, text⟩ := status.resolve_right (by simp)
    rw [wrote, if_pos rfl, if_pos rfl]
    dsimp only at text ⊢
    rw [appendAlarmLog]
    by_cases alarm : verdict.report.status = .alarm
    · rw [if_neg (not_not.mpr alarm), if_neg (not_not.mpr alarm), home]
      rcases pass.faults.log with _ | _ | _ <;> simp [text, same, appended]
    · rw [if_pos alarm, if_pos alarm]
      simp [text, same]

/-- A record that raised nothing is whole. -/
theorem keepRecord_eq_none
    (nothing : (keepRecord system verdict.stateDir verdict.report pass.now pass.faults
      directory).1 = none) (alarm : verdict.report.status = .alarm) :
    statusKept system pass verdict = true ∧ pass.faults.log = none := by
  have kept := @statusKept_iff system pass directory verdict
  rw [keepRecord] at nothing
  rcases outcome : writeStatus system verdict.stateDir verdict.report pass.faults.status directory
    with ⟨_ | error, after⟩
  · rw [outcome] at kept nothing
    refine ⟨kept.mpr rfl, ?_⟩
    dsimp only at nothing
    rw [appendAlarmLog, if_neg (not_not.mpr alarm)] at nothing
    cases log : pass.faults.log with
    | none => rfl
    | some fault =>
      rw [log] at nothing
      generalize system.expand verdict.stateDir = home at nothing
      cases home <;> cases fault <;> simp at nothing
  · rw [outcome] at nothing
    cases nothing

theorem status_run : (pass.run system directory).directory.status =
    (statusWritten system pass).or directory.status := by
  rw [statusWritten]
  cases made : pass.verdict? system with
  | none =>
    rw [(run_of_none made).1]
    rfl
  | some verdict =>
    rw [(run_of_verdict made).1, (keepRecord_eq verdict pass directory).1, Option.filter]
    cases statusKept system pass verdict <;> rfl

theorem log_run : (pass.run system directory).directory.log.getD "" =
    directory.log.getD "" ++ logged system pass := by
  rw [logged]
  cases made : pass.verdict? system with
  | none =>
    rw [(run_of_none made).1]
    exact (String.append_empty).symm
  | some verdict =>
    rw [(run_of_verdict made).1, (keepRecord_eq verdict pass directory).2, Option.filter]
    cases statusKept system pass verdict <;> rfl

theorem logs_logged (system : FenceSystem) (pass : FencePass) :
    Logs system pass (logged system pass) where
  quiet calm := by
    rw [logged]
    cases kept : (pass.verdict? system).filter (statusKept system pass) with
    | none => rfl
    | some verdict =>
      obtain ⟨made, -⟩ := Option.filter_eq_some_iff.mp kept
      exact if_pos (calm verdict.report (by rw [FencePass.report?, made]; rfl))
  begins report made := by
    obtain ⟨verdict, come, rfl⟩ := Option.map_eq_some_iff.mp made
    rw [logged, come, Option.filter]
    cases statusKept system pass verdict with
    | false => exact List.nil_prefix
    | true =>
      rw [if_pos rfl]
      dsimp only
      split
      · exact List.nil_prefix
      · rcases pass.faults.log with _ | _ | ⟨error, count⟩
        · exact List.prefix_rfl
        · exact List.nil_prefix
        · rw [appended, written, String.toList_ofList]
          exact List.take_prefix _ _
  whole directory code silent := by
    cases made : pass.verdict? system with
    | none => exact absurd code (run_of_none made).2
    | some verdict =>
      obtain ⟨alarm, kept⟩ := (run_of_verdict made).2 code
      obtain ⟨wrote, unfailed⟩ := keepRecord_eq_none (kept silent) alarm
      refine ⟨verdict.report, by rw [FencePass.report?, made]; rfl, alarm, ?_⟩
      rw [logged, made, Option.filter, wrote, if_pos rfl]
      dsimp only
      rw [if_neg (not_not.mpr alarm), unfailed]
      rfl

end

/-! ### All passes -/

section

variable {system : FenceSystem} {directory : StateDirectory}

theorem status_afterPasses (passes : List FencePass) : (afterPasses system passes directory).status =
    (passes.filterMap (statusWritten system)).getLast?.or directory.status := by
  induction passes generalizing directory with
  | nil => rfl
  | cons pass rest inductionHypothesis =>
    rw [afterPasses, List.foldl_cons, ← afterPasses, inductionHypothesis, status_run,
      List.filterMap_cons]
    cases statusWritten system pass with
    | none => rfl
    | some text =>
      rw [List.getLast?_cons]
      cases (rest.filterMap (statusWritten system)).getLast? <;> rfl

theorem log_afterPasses (passes : List FencePass) :
    (afterPasses system passes directory).log.getD "" =
      directory.log.getD "" ++ String.join (passes.map (logged system)) := by
  induction passes generalizing directory with
  | nil => simp [afterPasses]
  | cons pass rest inductionHypothesis =>
    rw [afterPasses, List.foldl_cons, ← afterPasses, inductionHypothesis, log_run, List.map_cons,
      String.append_assoc]
    simp

end

/-! ### The report as JSON -/

section

variable {floatOf : String → PyFloat}

theorem map_fst_set (entries : PyDict) (name : String) (value : PyValue) :
    (entries.set name value).map Prod.fst =
      if name ∈ entries.map Prod.fst then entries.map Prod.fst
      else entries.map Prod.fst ++ [name] := by
  induction entries with
  | nil => rfl
  | cons entry rest inductionHypothesis =>
    rw [PyDict.set]
    by_cases same : entry.1 = name
    · rw [if_pos same, List.map_cons, List.map_cons, same, if_pos List.mem_cons_self]
    · rw [if_neg same, List.map_cons, inductionHypothesis, List.map_cons]
      have others : name ∈ entry.1 :: rest.map Prod.fst ↔ name ∈ rest.map Prod.fst := by
        rw [List.mem_cons]
        exact or_iff_right fun here => same here.symm
      simp only [others]
      split <;> rfl

theorem mem_set {entries : PyDict} {name : String} {value : PyValue} {entry : String × PyValue}
    (member : entry ∈ entries.set name value) : entry = (name, value) ∨ entry ∈ entries := by
  induction entries with
  | nil => exact Or.inl (List.mem_singleton.mp member)
  | cons first rest inductionHypothesis =>
    rw [PyDict.set] at member
    split at member
    · exact (List.mem_cons.mp member).imp_right (List.mem_cons_of_mem _)
    · rcases List.mem_cons.mp member with rfl | later
      · exact Or.inr List.mem_cons_self
      · exact (inductionHypothesis later).imp_right (List.mem_cons_of_mem _)

/-- A dict stays plain when a plain value is set in it. -/
theorem plain_set {entries : PyDict} {name : String} {value : PyValue}
    (plain : Json.Plain floatOf (.dict entries)) (plainValue : Json.Plain floatOf value) :
    Json.Plain floatOf (.dict (entries.set name value)) := by
  cases plain with
  | dict entries distinct each =>
    refine .dict _ ?_ fun entry member => ?_
    · rw [map_fst_set]
      split
      · exact distinct
      · rename_i fresh
        exact List.nodup_append.mpr ⟨distinct, List.pairwise_singleton _ name,
          fun one inside other last same => fresh (List.mem_singleton.mp last ▸ same ▸ inside)⟩
    · rcases mem_set member with rfl | old
      · exact plainValue
      · exact each entry old

theorem plain_optional {α : Type} {render : α → PyValue}
    (plain : ∀ value, Json.Plain floatOf (render value)) (value : Option α) :
    Json.Plain floatOf (optional render value) := by
  cases value with
  | none => exact .none
  | some value => exact plain value

/-- The detail of a check is plain. -/
def PlainDetail (floatOf : String → PyFloat) (check : CheckResult) : Prop :=
  Json.Plain floatOf (.dict check.detail)

variable {rendering : Rendering} (readable : ∀ age, Json.IsFloat floatOf (rendering.ageHours age))
  {thresholds : Thresholds} {now : Int} {limit : String} {check : CheckResult}

theorem plain_ageCheck {late : CheckResult} {recent : String → CheckResult} {age rowCount : Int}
    (old : PlainDetail floatOf late) (fresh : ∀ text, PlainDetail floatOf (recent text))
    (returned : ageCheck thresholds age rowCount late recent = .ok check) :
    PlainDetail floatOf check := by
  obtain ⟨oldest, -, rest⟩ := except_bind_eq_ok.mp returned
  split at rest
  · obtain rfl := Except.ok.inj rest
    exact old
  · obtain ⟨text, -, rfl⟩ := except_map_eq_ok.mp rest
    exact fresh text

include readable in
theorem plain_projectCheck {project : ProjectFacts}
    (returned : projectCheck rendering limit project thresholds now = .ok check) :
    PlainDetail floatOf check := by
  unfold projectCheck at returned
  dsimp only at returned
  split at returned
  · obtain rfl := Except.ok.inj returned
    refine .dict _ (by simp) ?_
    simp only [List.forall_mem_cons, List.not_mem_nil, false_implies, implies_true, and_true]
    exact ⟨.str _, .int _⟩
  · split at returned
    · obtain rfl := Except.ok.inj returned
      refine .dict _ (by simp) ?_
      simp only [List.forall_mem_cons, List.not_mem_nil, false_implies, implies_true, and_true]
      exact ⟨.str _, .int _⟩
    · refine plain_ageCheck ?_ (fun text => ?_) returned <;>
      · refine .dict _ (by simp) ?_
        simp only [List.forall_mem_cons, List.not_mem_nil, false_implies, implies_true, and_true]
        exact ⟨.str _, .int _, .str _, .float _ (readable _)⟩

include readable in
theorem plain_newestCheck {facts : StoreFacts}
    (returned : newestCheck rendering limit facts thresholds now = .ok check) :
    PlainDetail floatOf check := by
  unfold newestCheck at returned
  split at returned
  · obtain ⟨text, -, rfl⟩ := except_map_eq_ok.mp returned
    refine .dict _ (by simp) ?_
    simp only [List.forall_mem_cons, List.not_mem_nil, false_implies, implies_true, and_true]
    exact ⟨.str _, .int _⟩
  · dsimp only at returned
    refine plain_ageCheck ?_ (fun text => ?_) returned <;>
    · refine .dict _ (by simp) ?_
      simp only [List.forall_mem_cons, List.not_mem_nil, false_implies, implies_true, and_true]
      exact ⟨.str _, .int _, .str _, plain_optional (fun _ => .str _) _, .float _ (readable _)⟩

include readable in
theorem plain_storeCheck {facts : StoreFacts} {checks : List CheckResult}
    (returned : storeCheck rendering facts thresholds now = .ok checks) :
    ∀ check ∈ checks, PlainDetail floatOf check := by
  unfold storeCheck at returned
  split at returned
  · obtain rfl := Except.ok.inj returned
    refine List.forall_mem_singleton.mpr (.dict _ (by simp) ?_)
    simp only [List.forall_mem_cons, List.not_mem_nil, false_implies, implies_true, and_true]
    exact .str _
  · obtain ⟨limit, -, rest⟩ := except_bind_eq_ok.mp returned
    split at rest
    · obtain rfl := Except.ok.inj rest
      refine List.forall_mem_singleton.mpr (.dict _ (by simp) ?_)
      simp only [List.forall_mem_cons, List.not_mem_nil, false_implies, implies_true, and_true]
      exact ⟨.str _, .int _⟩
    · obtain ⟨newest, first, rest⟩ := except_bind_eq_ok.mp rest
      obtain ⟨projects, others, last⟩ := except_bind_eq_ok.mp rest
      obtain rfl := Except.ok.inj last
      refine List.forall_mem_cons.mpr ⟨plain_newestCheck readable first, fun check member => ?_⟩
      obtain ⟨project, -, here⟩ := (except_mem_mapM others).mp member
      exact plain_projectCheck readable here

theorem plain_relayDetail (thresholds : Thresholds) (builds : BuildScan) (state : MarkerState)
    (windowStart : Int) :
    Json.Plain floatOf (.dict (relayDetail rendering builds state thresholds windowStart)) := by
  unfold relayDetail
  refine .dict _ (by simp) ?_
  simp only [List.forall_mem_cons, List.not_mem_nil, false_implies, implies_true, and_true]
  exact ⟨.int _, .int _, .str _, plain_optional (fun _ => .str _) _,
    plain_optional (fun _ => .str _) _, plain_optional (fun _ => .str _) _, .int _, .int _,
    plain_optional .str _, .int _, Json.plain_strs _ _⟩

theorem plain_activityCheck {builds : BuildScan} {state : MarkerState} {store : Option StoreFacts}
    (returned : activityCheck rendering builds state thresholds now store = .ok check) :
    PlainDetail floatOf check := by
  obtain ⟨start, -, rest⟩ := except_bind_eq_ok.mp returned
  have plain := @plain_relayDetail floatOf rendering thresholds builds state start
  dsimp only at rest
  split at rest
  · obtain ⟨text, -, rfl⟩ := except_map_eq_ok.mp rest
    exact plain
  split at rest
  · obtain ⟨text, -, rfl⟩ := except_map_eq_ok.mp rest
    exact plain
  have dated : Json.Plain floatOf (.dict (withNewest rendering
      (relayDetail rendering builds state thresholds start) (newestProject store thresholds))) := by
    unfold withNewest
    split
    · exact plain
    · exact plain_set plain (.str _)
  split at rest
  · obtain rfl := Except.ok.inj rest
    exact dated
  · split at rest
    · obtain rfl := Except.ok.inj rest
      exact dated
    · obtain ⟨ending, -, last⟩ := except_bind_eq_ok.mp rest
      split at last
      · obtain rfl := Except.ok.inj last
        exact plain_set dated (.str _)
      · obtain rfl := Except.ok.inj last
        exact dated

theorem plain_relayCheck {builds : Option BuildScan} {marker : Option MarkerRead}
    {store : Option StoreFacts}
    (returned : relayCheck rendering builds marker thresholds now store = .ok check) :
    PlainDetail floatOf check := by
  have single (name text : String) : Json.Plain floatOf (.dict [(name, .str text)]) := by
    refine .dict _ (by simp) fun entry member => ?_
    obtain rfl := List.mem_singleton.mp member
    exact .str _
  unfold relayCheck at returned
  split at returned
  · obtain rfl := Except.ok.inj returned
    exact single _ _
  · split at returned
    · obtain rfl := Except.ok.inj returned
      exact single _ _
    · exact plain_activityCheck returned

theorem plain_applyAck {check : CheckResult} (plain : PlainDetail floatOf check) (ack : AckState) :
    PlainDetail floatOf (applyAck rendering check ack) := by
  unfold applyAck
  split
  · exact plain
  · exact plain_set (plain_set plain (.str _)) (plain_optional .str _)

theorem plain_ack (ack : AckState) : Json.Plain floatOf (.dict (ack.asDict rendering)) := by
  unfold AckState.asDict
  refine .dict _ (by simp) ?_
  simp only [List.forall_mem_cons, List.not_mem_nil, false_implies, implies_true, and_true]
  exact ⟨.bool _, .bool _, plain_optional .str _, plain_optional (fun _ => .str _) _,
    Json.plain_strs _ _, plain_optional .str _, plain_optional (fun _ => .str _) _, .int _⟩

include readable in
/-- Every report is a dict that `json` renders and reads back. -/
theorem plain_evaluate {facts : FenceFacts} {storeOnly relayOnly : Bool} {report : FenceReport}
    (returned : evaluate rendering facts thresholds now storeOnly relayOnly = .ok report) :
    Json.Plain floatOf (.dict report.asDict) := by
  obtain ⟨inScope, looked, rfl⟩ := (evaluate_eq_ok rendering).mp returned
  have checks : ∀ check ∈ inScope, PlainDetail floatOf check := by
    obtain ⟨store, first, rest⟩ := except_bind_eq_ok.mp looked
    obtain ⟨relay, second, last⟩ := except_bind_eq_ok.mp rest
    obtain rfl := Except.ok.inj last
    intro check member
    rcases List.mem_append.mp member with inStore | inRelay
    · unfold storeChecks at first
      split at first
      · obtain rfl := Except.ok.inj first
        cases inStore
      · split at first
        · obtain rfl := Except.ok.inj first
          obtain rfl := List.mem_singleton.mp inStore
          exact .dict [] (by simp) fun _ impossible => by cases impossible
        · exact plain_storeCheck readable first check inStore
    · unfold relayChecks at second
      split at second
      · obtain rfl := Except.ok.inj second
        cases inRelay
      · obtain ⟨found, here, rfl⟩ := except_map_eq_ok.mp second
        obtain rfl := List.mem_singleton.mp inRelay
        exact plain_relayCheck here
  have limits : Json.Plain floatOf (.dict thresholds.asDict) := by
    unfold Thresholds.asDict
    refine .dict _ (by simp) ?_
    simp only [List.forall_mem_cons, List.not_mem_nil, false_implies, implies_true, and_true]
    exact ⟨.int _, .int _, .int _, .int _, Json.plain_strs _ _⟩
  unfold reportOn FenceReport.asDict
  refine .dict _ (by simp) ?_
  simp only [List.forall_mem_cons, List.not_mem_nil, false_implies, implies_true, and_true]
  refine ⟨.str _, .str _, .list _ fun item member => ?_, limits, plain_ack _, Json.plain_strs _ _⟩
  obtain ⟨check, inside, rfl⟩ := List.mem_map.mp member
  obtain ⟨before, known, rfl⟩ := List.mem_map.mp inside
  unfold CheckResult.asDict
  refine .dict _ (by simp) ?_
  simp only [List.forall_mem_cons, List.not_mem_nil, false_implies, implies_true, and_true]
  exact ⟨.str _, .str _, .str _, .str _, plain_applyAck (checks before known) _⟩

end

/-- What the record of the fence holds after any passes, whatever raises in them and whichever of
their writes fail. The alarm log is what it was and, pass after pass, the beginning of the lines of
each pass that makes and prints an alarm, all of them if it ends as one and warns of nothing, and
nothing of any other pass. The status file is the one that the last pass to write it has written, as
a whole; and `json.loads` reads it back as that pass's report, with its keys in order. -/
theorem fence_records (system : FenceSystem) (floatOf : String → PyFloat)
    (readable : ∀ age, Json.IsFloat floatOf (system.rendering.ageHours age))
    (passes : List FencePass) (directory : StateDirectory) :
    (∃ added, List.Forall₂ (Logs system) passes added ∧
      (afterPasses system passes directory).log.getD "" =
        directory.log.getD "" ++ String.join added) ∧
    (afterPasses system passes directory).status =
      (passes.filterMap (statusWritten system)).getLast?.or directory.status ∧
    ∀ pass ∈ passes, ∀ text, statusWritten system pass = some text →
      ∃ report, pass.report? system = some report ∧
        Json.loads floatOf text = some (Json.canonical (.dict report.asDict)) := by
  refine ⟨⟨passes.map (logged system), ?_, log_afterPasses passes⟩, status_afterPasses passes,
    fun pass _ text writes => ?_⟩
  · rw [List.forall₂_map_right_iff]
    exact List.forall₂_same.mpr fun pass _ => logs_logged system pass
  · obtain ⟨verdict, kept, rfl⟩ := Option.map_eq_some_iff.mp writes
    obtain ⟨made, -⟩ := Option.filter_eq_some_iff.mp kept
    refine ⟨verdict.report, by rw [FencePass.report?, made]; rfl, ?_⟩
    obtain ⟨settings, facts, reported⟩ := evaluated_of_verdict made
    exact (Json.Format.mk (some 2) true true).loads_dumps (plain_evaluate readable reported)
      (List.forall_mem_singleton.mpr rfl)

/-- A system at the epoch. -/
def epochSystem : FenceSystem where
  library := sampleLibrary
  scan := ⟨fun _ => none, .ok⟩
  rendering := {
    isoformat _ := "1970-01-01T00:00:00+00:00"
    isodate _ := "1970-01-01"
    ageHours _ := ⟨"0.0"⟩
    capitalize := id }
  settings _ := .ok {
    pgDsn := "postgresql://localhost/memory"
    fenceStoreMaxAgeHours := 168
    fenceBuildWindowHours := 72
    fenceMinBuildsInWindow := 3
    fenceRelayRestartGraceMinutes := 75
    fenceWatchProjects := "guardkit"
    fenceBuildsDir := "/forge/receipts"
    fenceRelayMarkerPath := "/state/relay-progress.json"
    fenceStateDir := "/state" }
  home := id
  parseConninfo _ := [("host", "localhost"), ("dbname", "memory")]
  describe _ := ⟨"UnicodeDecodeError", "invalid start byte"⟩

/-- A pass that finds nothing, and whose store refuses the connection. -/
def refusedPass : FencePass where
  arguments := { storeOnly := true }
  world := {
    environment := ⟨some "postgresql://localhost/memory", true⟩
    connect := .error ⟨"OperationalError", "connection refused"⟩
    faults := []
    rows := []
    directory _ := .missing
    file _ := .missing }
  now := 0
  faults := ⟨none, none, none⟩

/-- The same pass, where the status file cannot be replaced. -/
def unwrittenPass : FencePass :=
  { refusedPass with faults := ⟨none, some (.before (.os "PermissionError")), none⟩ }

/-- Its float is read as itself. -/
theorem isFloat_epochSystem (age : Int) :
    Json.IsFloat PyFloat.mk (epochSystem.rendering.ageHours age) := by
  have number : "0.0".toList = ['0'] ++ '.' :: ['0'] := by decide
  exact Json.isFloat_of_point number
    ⟨by simp, List.forall_mem_singleton.mpr (by decide), by simp⟩ (by simp)
    (List.forall_mem_singleton.mpr (by decide))

/-- After both passes the status file is that of the first, and reads back as its alarm. -/
theorem fence_records_refused : ∃ report,
    refusedPass.report? epochSystem = some report ∧ report.status = .alarm ∧
      (afterPasses epochSystem [refusedPass, unwrittenPass] ⟨none, none, []⟩).status =
        some (statusText report) ∧
      Json.loads PyFloat.mk (statusText report) =
        some (Json.canonical (.dict report.asDict)) := by
  obtain ⟨-, status, reads⟩ := fence_records epochSystem PyFloat.mk isFloat_epochSystem
    [refusedPass, unwrittenPass] ⟨none, none, []⟩
  obtain ⟨verdict, made⟩ : ∃ verdict, refusedPass.verdict? epochSystem = some verdict := ⟨_, rfl⟩
  have reports : refusedPass.report? epochSystem = some verdict.report := by
    rw [FencePass.report?, made]
    rfl
  have kept : (refusedPass.verdict? epochSystem).map (statusKept epochSystem refusedPass) =
      some true := by
    decide +kernel
  have writes : statusWritten epochSystem refusedPass = some (statusText verdict.report) := by
    rw [made] at kept
    rw [statusWritten, made, Option.filter, Option.some.inj kept]
    rfl
  have fails : statusWritten epochSystem unwrittenPass = none := by decide +kernel
  refine ⟨verdict.report, reports, ?_, ?_, ?_⟩
  · have alarm : (refusedPass.report? epochSystem).map FenceReport.status = some .alarm := by
      decide +kernel
    rw [reports] at alarm
    exact Option.some.inj alarm
  · rw [status]
    simp [writes, fails]
  · obtain ⟨other, same, loaded⟩ := reads refusedPass List.mem_cons_self _ writes
    obtain rfl : verdict.report = other := Option.some.inj (reports.symm.trans same)
    exact loaded

end FleetMemory.Fence
