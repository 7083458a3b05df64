/-
This file proves that the fence is OK only on evidence. Each check in scope has a criterion
on the facts, stated without the code that decides it, and a run that comes to a report is OK
exactly when every criterion is met or its check is named by a live acknowledgement. A run comes
to a report exactly when its arithmetic stays in the calendar and its messages show no integer
of too many digits; otherwise it raises.
-/

import FleetMemory.Fence
import FleetMemory.Pairings

namespace FleetMemory.Fence

/-! ### Evidence -/

/-- The newest write is no older than the limit. -/
def Fresh (thresholds : Thresholds) (now : Int) (newest : Option Int) : Prop :=
  ∃ moment, newest = some moment ∧ now - moment ≤ hours thresholds.storeMaxAgeHours

/-- The store was read, is reachable and has rows. -/
def HasRows (facts : FenceFacts) (store : StoreFacts) : Prop :=
  facts.store = some store ∧ store.reachable = true ∧ store.rowCount ≠ 0

/-- What the check of the whole store asks for. -/
def StoreAlive (facts : FenceFacts) (thresholds : Thresholds) (now : Int) : Prop :=
  ∃ store, HasRows facts store ∧ Fresh thresholds now store.newestUpdatedAt

/-- What the check of one watched project asks for. -/
def ProjectAlive (thresholds : Thresholds) (now : Int) (project : ProjectFacts) : Prop :=
  project.rowCount ≠ 0 ∧ Fresh thresholds now project.newestUpdatedAt

/-- A row of a watched project of a reachable store is at or after the moment. -/
def WatchedSince (store : Option StoreFacts) (thresholds : Thresholds) (moment : Int) : Prop :=
  ∃ facts, store = some facts ∧ facts.reachable = true ∧ ∃ project ∈ facts.perProject,
    project.project ∈ thresholds.watchProjects ∧
      ∃ newest, project.newestUpdatedAt = some newest ∧ moment ≤ newest

/-- Fewer receipts than the check needs finished at or after the moment. -/
def FewBuilds (scan : BuildScan) (thresholds : Thresholds) (moment : Int) : Prop :=
  (scan.receipts.countP (fun receipt => moment ≤ receipt.finishedAt) : Int) <
    thresholds.minBuildsInWindow

/-- The relay ingested something at or after the moment. -/
def IngestedSince (state : MarkerState) (moment : Int) : Prop :=
  ∃ ingest, state.lastIngestAt = some ingest ∧ moment ≤ ingest

/-- The relay is excused: few builds finished, something was recorded or it has just restarted. -/
def Active (scan : BuildScan) (state : MarkerState) (thresholds : Thresholds) (now : Int)
    (store : Option StoreFacts) : Prop :=
  let windowStart := now - hours thresholds.buildWindowHours
  FewBuilds scan thresholds windowStart ∨ IngestedSince state windowStart ∨
    WatchedSince store thresholds windowStart ∨
    ∃ started, state.startedAt = some started ∧
      now < started + minutes thresholds.relayRestartGraceMinutes

/-- What the relay check asks for. -/
def RelayAlive (facts : FenceFacts) (thresholds : Thresholds) (now : Int) : Prop :=
  ∃ marker state scan, facts.marker = some marker ∧ marker.state = some state ∧
    facts.builds = some scan ∧ scan.problem = none ∧ Active scan state thresholds now facts.store

/-- A check's name and the evidence it asks for. -/
structure Criterion where
  name : String
  met : Prop

/-- The criteria of the watched projects, when the store is reachable and has rows. -/
def projectCriteria (store : Option StoreFacts) (thresholds : Thresholds) (now : Int) :
    List Criterion :=
  match store with
  | none => []
  | some facts =>
    if facts.reachable = true ∧ facts.rowCount ≠ 0 then
      facts.perProject.map fun project =>
        ⟨s!"store_age:{project.project}", ProjectAlive thresholds now project⟩
    else []

/-- The criteria in scope, in the order of the checks. -/
def criteria (facts : FenceFacts) (thresholds : Thresholds) (now : Int)
    (storeOnly relayOnly : Bool) : List Criterion :=
  (if relayOnly then []
    else ⟨"store_age", StoreAlive facts thresholds now⟩ ::
      projectCriteria facts.store thresholds now) ++
    if storeOnly then [] else [⟨"relay_idle", RelayAlive facts thresholds now⟩]

/-- The acknowledgement is active and its checks contain exactly this name. -/
def Named (ack : AckState) (name : String) : Prop :=
  ack.active = true ∧ name ∈ ack.checks

/-! ### What can be computed -/

/-- The age can be compared with the limit and, where it is within, the row count shown. -/
def AgeComputes (thresholds : Thresholds) (age rowCount : Int) : Prop :=
  IsDuration (hours thresholds.storeMaxAgeHours) ∧
    (age ≤ hours thresholds.storeMaxAgeHours → FewDigits rowCount)

def NewestComputes (store : StoreFacts) (thresholds : Thresholds) (now : Int) : Prop :=
  match store.newestUpdatedAt with
  | none => FewDigits store.rowCount
  | some newest => AgeComputes thresholds (now - newest) store.rowCount

def ProjectComputes (thresholds : Thresholds) (now : Int) (project : ProjectFacts) : Prop :=
  project.rowCount ≠ 0 → ∀ newest, project.newestUpdatedAt = some newest →
    AgeComputes thresholds (now - newest) project.rowCount

/-- The limit of a store in reach can be told, and the ages of its rows judged. -/
def StoreComputes (store : StoreFacts) (thresholds : Thresholds) (now : Int) : Prop :=
  store.reachable = true → FewDigits (limitNumber thresholds.storeMaxAgeHours) ∧
    (store.rowCount ≠ 0 → NewestComputes store thresholds now ∧
      ∀ project ∈ store.perProject, ProjectComputes thresholds now project)

/-- The window begins in the calendar, and what is compared with it or shown can be computed: the
number of builds asked for, the number of ingests, or the end of the silence after a restart. -/
def ActivityComputes (scan : BuildScan) (state : MarkerState) (thresholds : Thresholds) (now : Int)
    (store : Option StoreFacts) : Prop :=
  let windowStart := now - hours thresholds.buildWindowHours
  (IsDuration (hours thresholds.buildWindowHours) ∧ InCalendar windowStart) ∧
    (FewBuilds scan thresholds windowStart → FewDigits thresholds.minBuildsInWindow) ∧
    (¬FewBuilds scan thresholds windowStart → IngestedSince state windowStart →
      FewDigits state.ingestsSinceStart) ∧
    (¬FewBuilds scan thresholds windowStart → ¬IngestedSince state windowStart →
      ¬WatchedSince store thresholds windowStart → ∀ started, state.startedAt = some started →
        IsDuration (minutes thresholds.relayRestartGraceMinutes) ∧
          InCalendar (started + minutes thresholds.relayRestartGraceMinutes))

/-- The checks in scope can be computed. -/
def Computes (facts : FenceFacts) (thresholds : Thresholds) (now : Int)
    (storeOnly relayOnly : Bool) : Prop :=
  (relayOnly = false → ∀ store, facts.store = some store → StoreComputes store thresholds now) ∧
    (storeOnly = false → ∀ marker state scan, facts.marker = some marker →
      marker.state = some state → facts.builds = some scan → scan.problem = none →
        ActivityComputes scan state thresholds now facts.store)

/-! ### Checks and criteria -/

/-- A check before the acknowledgement is OK when its criterion is met and an alarm otherwise. -/
structure Decides (check : CheckResult) (criterion : Criterion) : Prop where
  name : check.name = criterion.name
  ok : criterion.met → check.status = .ok
  alarm : ¬criterion.met → check.status = .alarm

/-- A reported check is OK when its criterion is met, held when a live acknowledgement names it
and an alarm otherwise. -/
structure Reports (ack : AckState) (check : CheckResult) (criterion : Criterion) : Prop where
  name : check.name = criterion.name
  ok : check.status = .ok ↔ criterion.met
  held : check.status = .held ↔ ¬criterion.met ∧ Named ack criterion.name

section

variable {rendering : Rendering} {facts : FenceFacts} {thresholds : Thresholds} {now : Int}
  {check : CheckResult} {criterion : Criterion}

/-! ### The store check -/

/-- A check that is an alarm whatever the store says decides a criterion that is not met. -/
theorem decides_alarm (unmet : ¬criterion.met) (name : check.name = criterion.name)
    (alarm : check.status = .alarm) : Decides check criterion :=
  ⟨name, fun met => absurd met unmet, fun _ => alarm⟩

/-- A check that compares an age with its limit decides whether the age is within it. -/
theorem decides_ageCheck {late : CheckResult} {recent : String → CheckResult} {age rowCount : Int}
    (met : criterion.met ↔ age ≤ hours thresholds.storeMaxAgeHours)
    (lateName : late.name = criterion.name) (alarm : late.status = .alarm)
    (recentName : ∀ text, (recent text).name = criterion.name)
    (ok : ∀ text, (recent text).status = .ok)
    (returned : ageCheck thresholds age rowCount late recent = .ok check) :
    Decides check criterion := by
  obtain ⟨oldest, limit, rest⟩ := except_bind_eq_ok.mp returned
  obtain ⟨-, rfl⟩ := timedelta_eq_ok.mp limit
  split at rest
  · rename_i old
    obtain rfl := Except.ok.inj rest
    exact decides_alarm (fun fresh => absurd (met.mp fresh) (not_le.mpr old)) lateName alarm
  · rename_i notOld
    obtain ⟨text, -, rfl⟩ := except_map_eq_ok.mp rest
    exact ⟨recentName text, fun _ => ok text, fun unmet => absurd (met.mpr (not_lt.mp notOld)) unmet⟩

theorem returns_ageCheck_iff (late : CheckResult) (recent : String → CheckResult)
    (age rowCount : Int) : Returns (ageCheck thresholds age rowCount late recent) ↔
      AgeComputes thresholds age rowCount := by
  rw [ageCheck, AgeComputes, returns_bind]
  simp only [timedelta_eq_ok, and_assoc, exists_and_left, exists_eq_left]
  refine and_congr_right fun _ => ?_
  split
  · rename_i old
    exact iff_of_true (returns_ok late) fun within => absurd within (not_le.mpr old)
  · rename_i notOld
    rw [returns_map, returns_intText_iff]
    exact ⟨fun few _ => few, fun few => few (not_lt.mp notOld)⟩

variable {limit : String}

theorem decides_projectCheck {project : ProjectFacts}
    (returned : projectCheck rendering limit project thresholds now = .ok check) :
    Decides check ⟨s!"store_age:{project.project}", ProjectAlive thresholds now project⟩ := by
  unfold projectCheck at returned
  by_cases empty : project.rowCount = 0
  · rw [if_pos empty] at returned
    obtain rfl := Except.ok.inj returned
    exact decides_alarm (fun alive => alive.1 empty) rfl rfl
  · rw [if_neg empty] at returned
    cases newest : project.newestUpdatedAt with
    | none =>
      rw [newest] at returned
      obtain rfl := Except.ok.inj returned
      exact ⟨rfl, by simp [ProjectAlive, Fresh, newest], fun _ => rfl⟩
    | some moment =>
      rw [newest] at returned
      have alive : ProjectAlive thresholds now project ↔
          now - moment ≤ hours thresholds.storeMaxAgeHours := by
        simp [ProjectAlive, Fresh, newest, empty]
      exact decides_ageCheck alive rfl rfl (fun _ => rfl) (fun _ => rfl) returned

theorem returns_projectCheck_iff (project : ProjectFacts) :
    Returns (projectCheck rendering limit project thresholds now) ↔
      ProjectComputes thresholds now project := by
  unfold projectCheck ProjectComputes
  by_cases empty : project.rowCount = 0
  · rw [if_pos empty]
    exact iff_of_true (returns_ok _) fun some => absurd empty some
  · rw [if_neg empty]
    cases project.newestUpdatedAt with
    | none => exact iff_of_true (returns_ok _) fun _ _ impossible => by cases impossible
    | some moment =>
      refine (returns_ageCheck_iff _ _ _ _).trans ⟨?_, fun computes => computes empty moment rfl⟩
      rintro computes - _ ⟨⟩
      exact computes

theorem decides_newestCheck {store : StoreFacts} (rows : HasRows facts store)
    (returned : newestCheck rendering limit store thresholds now = .ok check) :
    Decides check ⟨"store_age", StoreAlive facts thresholds now⟩ := by
  have here : StoreAlive facts thresholds now ↔ Fresh thresholds now store.newestUpdatedAt := by
    constructor
    · rintro ⟨other, otherRows, fresh⟩
      cases rows.1.symm.trans otherRows.1
      exact fresh
    · intro fresh
      exact ⟨store, rows, fresh⟩
  unfold newestCheck at returned
  cases newest : store.newestUpdatedAt with
  | none =>
    rw [newest] at returned
    obtain ⟨text, -, rfl⟩ := except_map_eq_ok.mp returned
    exact ⟨rfl, by simp [here, Fresh, newest], fun _ => rfl⟩
  | some moment =>
    rw [newest] at returned
    have alive : StoreAlive facts thresholds now ↔
        now - moment ≤ hours thresholds.storeMaxAgeHours := by
      simp [here, Fresh, newest]
    exact decides_ageCheck alive rfl rfl (fun _ => rfl) (fun _ => rfl) returned

theorem returns_newestCheck_iff (store : StoreFacts) :
    Returns (newestCheck rendering limit store thresholds now) ↔
      NewestComputes store thresholds now := by
  unfold newestCheck NewestComputes
  cases store.newestUpdatedAt with
  | none => exact returns_map.trans (returns_intText_iff _)
  | some moment => exact returns_ageCheck_iff _ _ _ _

theorem decides_storeCheck {store : StoreFacts} {checks : List CheckResult}
    (read : facts.store = some store)
    (returned : storeCheck rendering store thresholds now = .ok checks) :
    List.Forall₂ Decides checks
      (⟨"store_age", StoreAlive facts thresholds now⟩ ::
        projectCriteria facts.store thresholds now) := by
  have dark (missing : ¬HasRows facts store) : ¬StoreAlive facts thresholds now := by
    rintro ⟨other, rows, _⟩
    cases read.symm.trans rows.1
    exact missing rows
  unfold storeCheck at returned
  rw [read, projectCriteria]
  by_cases reachable : store.reachable = true
  · rw [reachable, Bool.not_true, if_neg Bool.false_ne_true] at returned
    obtain ⟨limit, -, rest⟩ := except_bind_eq_ok.mp returned
    by_cases empty : store.rowCount = 0
    · rw [if_pos empty] at rest
      obtain rfl := Except.ok.inj rest
      rw [if_neg fun both => both.2 empty]
      exact .cons (decides_alarm (dark fun rows => rows.2.2 empty) rfl rfl) .nil
    · rw [if_neg empty] at rest
      obtain ⟨newest, first, rest⟩ := except_bind_eq_ok.mp rest
      obtain ⟨projects, others, last⟩ := except_bind_eq_ok.mp rest
      obtain rfl := Except.ok.inj last
      rw [if_pos ⟨reachable, empty⟩]
      refine .cons (decides_newestCheck ⟨read, reachable, empty⟩ first) ?_
      rw [List.forall₂_map_right_iff]
      exact ((except_mapM_eq_ok.mp others).imp fun _ _ here => decides_projectCheck here).flip
  · rw [Bool.not_eq_true] at reachable
    rw [reachable, Bool.not_false, if_pos rfl] at returned
    obtain rfl := Except.ok.inj returned
    rw [if_neg fun both => by simp [reachable] at both]
    have unreachable (rows : HasRows facts store) : False := by
      have here := rows.2.1
      rw [reachable] at here
      cases here
    exact .cons (decides_alarm (dark unreachable) rfl rfl) .nil

theorem returns_limitPhrase_iff (count : Int) :
    Returns (limitPhrase count) ↔ FewDigits (limitNumber count) := by
  unfold limitPhrase
  rw [returns_map, returns_intText_iff]

theorem returns_storeCheck_iff (store : StoreFacts) :
    Returns (storeCheck rendering store thresholds now) ↔ StoreComputes store thresholds now := by
  unfold storeCheck StoreComputes
  cases store.reachable with
  | false => exact iff_of_true (returns_ok _) fun impossible => by cases impossible
  | true =>
    rw [Bool.not_true, if_neg Bool.false_ne_true]
    refine (@returns_bind_and _ _ _ _ (store.rowCount ≠ 0 → NewestComputes store thresholds now ∧
      ∀ project ∈ store.perProject, ProjectComputes thresholds now project) fun limit => ?_).trans ?_
    · by_cases empty : store.rowCount = 0
      · rw [if_pos empty]
        exact iff_of_true (returns_ok _) fun some => absurd empty some
      · rw [if_neg empty]
        refine (@returns_bind_and _ _ _ _ (∀ project ∈ store.perProject,
          ProjectComputes thresholds now project) fun newest => returns_bind.trans ?_).trans ?_
        · have each : Returns (store.perProject.mapM fun project =>
                projectCheck rendering limit project thresholds now) ↔
              ∀ project ∈ store.perProject, ProjectComputes thresholds now project :=
            returns_mapM_iff.trans (forall₂_congr fun project _ => returns_projectCheck_iff project)
          rw [← each]
          exact ⟨fun ⟨projects, found, _⟩ => ⟨projects, found⟩,
            fun ⟨projects, found⟩ => ⟨projects, found, returns_ok _⟩⟩
        · rw [returns_newestCheck_iff]
          exact ⟨fun both _ => both, fun both => both empty⟩
    · rw [returns_limitPhrase_iff]
      exact ⟨fun both _ => both, fun both => both rfl⟩

/-! ### The relay check -/

theorem length_finishedSince (scan : BuildScan) (moment : Int) :
    (scan.finishedSince moment).length =
      scan.receipts.countP fun receipt => moment ≤ receipt.finishedAt :=
  List.countP_eq_length_filter.symm

theorem mem_projectRows {store : Option StoreFacts} {row : ProjectFacts × Int} :
    row ∈ projectRows store thresholds ↔
      ∃ facts, store = some facts ∧ facts.reachable = true ∧ row.1 ∈ facts.perProject ∧
        row.1.project ∈ thresholds.watchProjects ∧ row.1.newestUpdatedAt = some row.2 := by
  obtain ⟨project, moment⟩ := row
  cases store with
  | none => simp [projectRows]
  | some facts =>
    unfold projectRows
    by_cases reachable : facts.reachable = true
    · simp only [reachable, if_true, List.mem_filterMap, Option.some.injEq, exists_eq_left',
        true_and]
      constructor
      · rintro ⟨found, member, kept⟩
        by_cases watched : found.project ∈ thresholds.watchProjects
        · rw [if_pos watched] at kept
          obtain ⟨newest, time, same⟩ := Option.map_eq_some_iff.mp kept
          cases same
          exact ⟨member, watched, time⟩
        · rw [if_neg watched] at kept
          cases kept
      · rintro ⟨member, watched, time⟩
        exact ⟨project, member, by rw [if_pos watched, time]; rfl⟩
    · simp [reachable]

/-- The latest of the watched rows is recent exactly when one of them is. -/
theorem newestProject_since_iff (store : Option StoreFacts) (moment : Int) :
    ((newestProject store thresholds).filter fun row => moment ≤ row.2).isSome ↔
      WatchedSince store thresholds moment := by
  constructor
  · intro found
    obtain ⟨row, kept⟩ := Option.isSome_iff_exists.mp found
    obtain ⟨newest, recent⟩ := Option.filter_eq_some_iff.mp kept
    obtain ⟨facts, read, reachable, member, watched, time⟩ :=
      mem_projectRows.mp (List.argmax_mem newest)
    exact ⟨facts, read, reachable, row.1, member, watched, row.2, time, by simpa using recent⟩
  · rintro ⟨facts, read, reachable, project, member, watched, time, stored, recent⟩
    have inside : (project, time) ∈ projectRows store thresholds :=
      mem_projectRows.mpr ⟨facts, read, reachable, member, watched, stored⟩
    cases newest : newestProject store thresholds with
    | none =>
      rw [List.argmax_eq_none.mp newest] at inside
      cases inside
    | some row =>
      have latest : time ≤ row.2 := List.le_of_mem_argmax inside newest
      simpa [Option.filter] using recent.trans latest

theorem fewBuilds_iff (scan : BuildScan) (moment : Int) :
    ((scan.finishedSince moment).length : Int) < thresholds.minBuildsInWindow ↔
      FewBuilds scan thresholds moment := by
  rw [length_finishedSince, FewBuilds]

theorem ingestedSince_iff (state : MarkerState) (moment : Int) :
    (state.lastIngestAt.any fun ingest => moment ≤ ingest) = true ↔ IngestedSince state moment := by
  simp only [Option.any_eq_true, decide_eq_true_eq, IngestedSince]

theorem windowStart_eq_ok {start : Int} : windowStart thresholds now = .ok start ↔
    (IsDuration (hours thresholds.buildWindowHours) ∧
      InCalendar (now - hours thresholds.buildWindowHours)) ∧
      start = now - hours thresholds.buildWindowHours := by
  rw [windowStart, except_bind_eq_ok]
  simp only [timedelta_eq_ok, datetimeAt_eq_ok, and_assoc, exists_and_left, exists_eq_left]

theorem graceEnd_eq_ok {started ending : Int} : graceEnd thresholds started = .ok ending ↔
    (IsDuration (minutes thresholds.relayRestartGraceMinutes) ∧
      InCalendar (started + minutes thresholds.relayRestartGraceMinutes)) ∧
      ending = started + minutes thresholds.relayRestartGraceMinutes := by
  rw [graceEnd, except_bind_eq_ok]
  simp only [timedelta_eq_ok, datetimeAt_eq_ok, and_assoc, exists_and_left, exists_eq_left]

theorem decides_activityCheck {scan : BuildScan} {state : MarkerState} {store : Option StoreFacts}
    (returned : activityCheck rendering scan state thresholds now store = .ok check) :
    Decides check ⟨"relay_idle", Active scan state thresholds now store⟩ := by
  obtain ⟨start, begins, rest⟩ := except_bind_eq_ok.mp returned
  obtain ⟨-, rfl⟩ := windowStart_eq_ok.mp begins
  dsimp only at rest
  generalize since : now - hours thresholds.buildWindowHours = moment at rest
  have active : Active scan state thresholds now store ↔ FewBuilds scan thresholds moment ∨
      IngestedSince state moment ∨ WatchedSince store thresholds moment ∨
        ∃ started, state.startedAt = some started ∧
          now < started + minutes thresholds.relayRestartGraceMinutes := by
    rw [Active, since]
  have excused (met : Active scan state thresholds now store) {result : CheckResult}
      (name : result.name = "relay_idle") (ok : result.status = .ok) :
      Decides result ⟨"relay_idle", Active scan state thresholds now store⟩ :=
    ⟨name, fun _ => ok, fun unmet => absurd met unmet⟩
  split at rest
  · rename_i few
    obtain ⟨text, -, rfl⟩ := except_map_eq_ok.mp rest
    exact excused (active.mpr (Or.inl ((fewBuilds_iff scan moment).mp few))) rfl rfl
  rename_i enough
  have notFew : ¬FewBuilds scan thresholds moment := mt (fewBuilds_iff scan moment).mpr enough
  split at rest
  · rename_i ingested
    obtain ⟨text, -, rfl⟩ := except_map_eq_ok.mp rest
    exact excused (active.mpr (Or.inr (Or.inl ((ingestedSince_iff state moment).mp ingested)))) rfl rfl
  rename_i silent
  have notIngested : ¬IngestedSince state moment := mt (ingestedSince_iff state moment).mpr silent
  have watched := @newestProject_since_iff thresholds store moment
  cases latest : (newestProject store thresholds).filter fun row => moment ≤ row.2 with
  | some row =>
    rw [latest] at rest watched
    obtain rfl := Except.ok.inj rest
    exact excused (active.mpr (Or.inr (Or.inr (Or.inl (watched.mp rfl))))) rfl rfl
  | none =>
    rw [latest] at rest watched
    have notWatched : ¬WatchedSince store thresholds moment := mt watched.mpr Bool.false_ne_true
    have restarts : Active scan state thresholds now store ↔ ∃ started,
        state.startedAt = some started ∧
          now < started + minutes thresholds.relayRestartGraceMinutes := by
      rw [active, or_iff_right notFew, or_iff_right notIngested, or_iff_right notWatched]
    cases start : state.startedAt with
    | none =>
      rw [start] at rest restarts
      obtain rfl := Except.ok.inj rest
      refine decides_alarm (fun met => ?_) rfl rfl
      obtain ⟨started, impossible, -⟩ := restarts.mp met
      cases impossible
    | some started =>
      rw [start] at rest restarts
      obtain ⟨ending, ends, last⟩ := except_bind_eq_ok.mp rest
      obtain ⟨-, rfl⟩ := graceEnd_eq_ok.mp ends
      split at last
      · rename_i grace
        obtain rfl := Except.ok.inj last
        exact excused (restarts.mpr ⟨started, rfl, grace⟩) rfl rfl
      · rename_i late
        obtain rfl := Except.ok.inj last
        refine decides_alarm (fun met => late ?_) rfl rfl
        obtain ⟨_, ⟨⟩, grace⟩ := restarts.mp met
        exact grace

theorem returns_activityCheck_iff (scan : BuildScan) (state : MarkerState)
    (store : Option StoreFacts) :
    Returns (activityCheck rendering scan state thresholds now store) ↔
      ActivityComputes scan state thresholds now store := by
  unfold activityCheck ActivityComputes
  rw [returns_bind]
  simp only [windowStart_eq_ok, and_assoc, exists_and_left, exists_eq_left]
  refine and_congr_right fun _ => and_congr_right fun _ => ?_
  generalize now - hours thresholds.buildWindowHours = moment
  by_cases few : FewBuilds scan thresholds moment
  · rw [if_pos ((fewBuilds_iff scan moment).mpr few), returns_map, returns_intText_iff]
    exact ⟨fun digits => ⟨fun _ => digits, fun notFew => absurd few notFew,
      fun notFew => absurd few notFew⟩, fun computes => computes.1 few⟩
  by_cases ingested : IngestedSince state moment
  · rw [if_neg (mt (fewBuilds_iff scan moment).mp few),
      if_pos ((ingestedSince_iff state moment).mpr ingested), returns_map, returns_intText_iff]
    exact ⟨fun digits => ⟨fun is => absurd is few, fun _ _ => digits,
      fun _ notIngested => absurd ingested notIngested⟩, fun computes => computes.2.1 few ingested⟩
  rw [if_neg (mt (fewBuilds_iff scan moment).mp few),
    if_neg (mt (ingestedSince_iff state moment).mp ingested)]
  have watched := @newestProject_since_iff thresholds store moment
  cases latest : (newestProject store thresholds).filter fun row => moment ≤ row.2 with
  | some row =>
    rw [latest] at watched
    exact iff_of_true (returns_ok _) ⟨fun is => absurd is few, fun _ is => absurd is ingested,
      fun _ _ notWatched => absurd (watched.mp rfl) notWatched⟩
  | none =>
    rw [latest] at watched
    have notWatched : ¬WatchedSince store thresholds moment := mt watched.mpr Bool.false_ne_true
    refine Iff.trans ?_ ⟨fun ends => ⟨fun is => absurd is few, fun _ is => absurd is ingested,
      fun _ _ _ => ends⟩, fun computes => computes.2.2 few ingested notWatched⟩
    cases state.startedAt with
    | none => exact iff_of_true (returns_ok _) fun _ impossible => by cases impossible
    | some started =>
      simp only [Option.some.injEq, forall_eq']
      rw [returns_bind]
      constructor
      · rintro ⟨ending, ends, -⟩
        exact (graceEnd_eq_ok.mp ends).1
      · intro inside
        refine ⟨_, graceEnd_eq_ok.mpr ⟨inside, rfl⟩, ?_⟩
        split <;> exact returns_ok _

/-- The relay check is blind, or comes to look at what the marker and the receipts say. -/
theorem relayCheck_cases (facts : FenceFacts) :
    ((¬∃ marker state scan, facts.marker = some marker ∧ marker.state = some state ∧
        facts.builds = some scan ∧ scan.problem = none) ∧
      ∃ blind : CheckResult, blind.name = "relay_idle" ∧ blind.status = .alarm ∧
        relayCheck rendering facts.builds facts.marker thresholds now facts.store = .ok blind) ∨
    ∃ marker state scan, facts.marker = some marker ∧ marker.state = some state ∧
      facts.builds = some scan ∧ scan.problem = none ∧
      relayCheck rendering facts.builds facts.marker thresholds now facts.store =
        activityCheck rendering scan state thresholds now facts.store := by
  unfold relayCheck
  cases read : facts.marker.bind MarkerRead.state with
  | none =>
    refine Or.inl ⟨?_, _, rfl, rfl, rfl⟩
    rintro ⟨marker, state, scan, present, known, -⟩
    simp [present, known] at read
  | some state =>
    obtain ⟨marker, present, known⟩ := Option.bind_eq_some_iff.mp read
    cases listed : facts.builds.filter fun scan => !scan.blind with
    | none =>
      refine Or.inl ⟨?_, _, rfl, rfl, rfl⟩
      rintro ⟨_, _, scan, -, -, builds, sighted⟩
      simp [builds, BuildScan.blind, sighted] at listed
    | some scan =>
      obtain ⟨builds, sighted⟩ := Option.filter_eq_some_iff.mp listed
      exact Or.inr ⟨marker, state, scan, present, known, builds,
        by simpa [BuildScan.blind] using sighted, rfl⟩

/-- What is in sight is the only marker, state and scan there are. -/
theorem relayAlive_iff {marker : MarkerRead} {state : MarkerState} {scan : BuildScan}
    (present : facts.marker = some marker) (known : marker.state = some state)
    (builds : facts.builds = some scan) (sighted : scan.problem = none) :
    RelayAlive facts thresholds now ↔ Active scan state thresholds now facts.store := by
  constructor
  · rintro ⟨_, _, _, otherMarker, otherState, otherBuilds, _, active⟩
    cases present.symm.trans otherMarker
    cases known.symm.trans otherState
    cases builds.symm.trans otherBuilds
    exact active
  · intro active
    exact ⟨marker, state, scan, present, known, builds, sighted, active⟩

theorem decides_relayCheck
    (returned : relayCheck rendering facts.builds facts.marker thresholds now facts.store =
      .ok check) :
    Decides check ⟨"relay_idle", RelayAlive facts thresholds now⟩ := by
  rcases @relayCheck_cases rendering thresholds now facts with
    ⟨unseen, blind, name, alarm, same⟩ |
    ⟨marker, state, scan, present, known, builds, sighted, same⟩
  · obtain rfl := Except.ok.inj (same.symm.trans returned)
    refine decides_alarm ?_ name alarm
    rintro ⟨marker, state, scan, present, known, builds, sighted, -⟩
    exact unseen ⟨marker, state, scan, present, known, builds, sighted⟩
  · have decides := decides_activityCheck (same.symm.trans returned)
    have alive := @relayAlive_iff _ thresholds now _ _ _ present known builds sighted
    exact ⟨decides.name, fun met => decides.ok (alive.mp met),
      fun unmet => decides.alarm fun active => unmet (alive.mpr active)⟩

theorem returns_relayCheck_iff (facts : FenceFacts) :
    Returns (relayCheck rendering facts.builds facts.marker thresholds now facts.store) ↔
      ∀ marker state scan, facts.marker = some marker → marker.state = some state →
        facts.builds = some scan → scan.problem = none →
          ActivityComputes scan state thresholds now facts.store := by
  rcases @relayCheck_cases rendering thresholds now facts with
    ⟨unseen, blind, -, -, same⟩ | ⟨marker, state, scan, present, known, builds, sighted, same⟩
  · rw [same]
    exact iff_of_true (returns_ok blind) fun marker state scan present known builds sighted =>
      absurd ⟨marker, state, scan, present, known, builds, sighted⟩ unseen
  · rw [same, returns_activityCheck_iff]
    constructor
    · intro computes _ _ _ otherMarker otherState otherBuilds _
      cases present.symm.trans otherMarker
      cases known.symm.trans otherState
      cases builds.symm.trans otherBuilds
      exact computes
    · exact fun each => each marker state scan present known builds sighted

/-! ### The verdict -/

/-- The checks in scope decide the criteria in scope, one by one. -/
theorem decides_checksOf {storeOnly relayOnly : Bool} {checks : List CheckResult}
    (returned : checksOf rendering facts thresholds now storeOnly relayOnly = .ok checks) :
    List.Forall₂ Decides checks (criteria facts thresholds now storeOnly relayOnly) := by
  obtain ⟨store, first, rest⟩ := except_bind_eq_ok.mp returned
  obtain ⟨relay, second, last⟩ := except_bind_eq_ok.mp rest
  obtain rfl := Except.ok.inj last
  refine List.rel_append ?_ ?_
  · cases relayOnly with
    | true =>
      obtain rfl := Except.ok.inj first
      exact .nil
    | false =>
      rw [storeChecks, if_neg Bool.false_ne_true] at first
      rw [if_neg Bool.false_ne_true]
      cases read : facts.store with
      | none =>
        rw [read] at first
        obtain rfl := Except.ok.inj first
        refine .cons (decides_alarm ?_ rfl rfl) .nil
        rintro ⟨store, rows, _⟩
        cases read.symm.trans rows.1
      | some store =>
        rw [read] at first
        rw [← read]
        exact decides_storeCheck read first
  · cases storeOnly with
    | true =>
      obtain rfl := Except.ok.inj second
      exact .nil
    | false =>
      rw [relayChecks, if_neg Bool.false_ne_true] at second
      obtain ⟨check, looked, rfl⟩ := except_map_eq_ok.mp second
      exact .cons (decides_relayCheck looked) .nil

/-- The checks in scope are made exactly when they can be computed. -/
theorem returns_checksOf_iff (storeOnly relayOnly : Bool) :
    Returns (checksOf rendering facts thresholds now storeOnly relayOnly) ↔
      Computes facts thresholds now storeOnly relayOnly := by
  have store : Returns (storeChecks rendering facts thresholds now relayOnly) ↔
      (relayOnly = false → ∀ store, facts.store = some store →
        StoreComputes store thresholds now) := by
    cases relayOnly with
    | true => exact iff_of_true (returns_ok _) fun impossible => by cases impossible
    | false =>
      rw [storeChecks, if_neg Bool.false_ne_true]
      cases facts.store with
      | none => exact iff_of_true (returns_ok _) fun _ _ impossible => by cases impossible
      | some store =>
        refine (returns_storeCheck_iff store).trans ⟨?_, fun each => each rfl store rfl⟩
        rintro computes - _ ⟨⟩
        exact computes
  have relay : Returns (relayChecks rendering facts thresholds now storeOnly) ↔
      (storeOnly = false → ∀ marker state scan, facts.marker = some marker →
        marker.state = some state → facts.builds = some scan → scan.problem = none →
          ActivityComputes scan state thresholds now facts.store) := by
    cases storeOnly with
    | true => exact iff_of_true (returns_ok _) fun impossible => by cases impossible
    | false =>
      rw [relayChecks, if_neg Bool.false_ne_true, returns_map, returns_relayCheck_iff]
      exact ⟨fun computes _ => computes, fun computes => computes rfl⟩
  rw [Computes, ← store, ← relay, checksOf]
  exact returns_bind_and fun found => returns_bind_ok (found ++ ·)

/-- A run comes to a report exactly when its checks can be computed. -/
theorem returns_evaluate_iff (storeOnly relayOnly : Bool) :
    Returns (evaluate rendering facts thresholds now storeOnly relayOnly) ↔
      Computes facts thresholds now storeOnly relayOnly := by
  rw [← @returns_checksOf_iff rendering, evaluate]
  exact returns_bind_ok _

theorem holds_iff (ack : AckState) (name : String) : ack.holds name = true ↔ Named ack name := by
  cases active : ack.active <;> simp [AckState.holds, Named, active]

theorem reports_applyAck {ack : AckState} (decides : Decides check criterion) :
    Reports ack (applyAck rendering check ack) criterion := by
  have named := holds_iff ack check.name
  rw [decides.name] at named
  unfold applyAck
  by_cases met : criterion.met
  · have ok := decides.ok met
    rw [if_pos (Or.inl (by simp [ok]))]
    exact ⟨decides.name, by simp [ok, met], by simp [ok, met]⟩
  · have alarm := decides.alarm met
    by_cases held : ack.holds criterion.name = true
    · rw [if_neg (by simp [alarm, decides.name, held])]
      exact ⟨decides.name, by simp [met], by simp [met, named.mp held]⟩
    · rw [if_pos (Or.inr (by simpa [decides.name] using held))]
      exact ⟨decides.name, by simp [alarm, met], by simp [alarm, mt named.mpr held]⟩

/-- A reported check is an alarm exactly when neither its evidence nor an acknowledgement is
there. -/
theorem Reports.alarm_iff {ack : AckState} (reports : Reports ack check criterion) :
    check.status ≠ .alarm ↔ criterion.met ∨ Named ack criterion.name := by
  have ok := reports.ok
  have held := reports.held
  cases status : check.status <;> simp only [status] at ok held ⊢ <;> simp at ok held ⊢ <;> tauto

section

variable {storeOnly relayOnly : Bool} {report : FenceReport}
  (returned : evaluate rendering facts thresholds now storeOnly relayOnly = .ok report)

include returned

/-- Each reported check reports its criterion. -/
theorem reports_evaluate : List.Forall₂ (Reports facts.ack) report.checks
    (criteria facts thresholds now storeOnly relayOnly) := by
  obtain ⟨checks, looked, rfl⟩ := (evaluate_eq_ok rendering).mp returned
  rw [reportOn, List.forall₂_map_left_iff]
  exact (decides_checksOf looked).imp fun _ _ => reports_applyAck

/-- A run raises no alarm exactly when each criterion is met or named by a live acknowledgement. -/
theorem evaluate_ne_alarm_iff :
    report.status ≠ .alarm ↔ ∀ criterion ∈ criteria facts thresholds now storeOnly relayOnly,
      criterion.met ∨ Named facts.ack criterion.name := by
  have quiet : report.status ≠ .alarm ↔ ∀ check ∈ report.checks, check.status ≠ .alarm := by
    obtain ⟨checks, -, rfl⟩ := (evaluate_eq_ok rendering).mp returned
    simp [reportOn]
  rw [quiet]
  exact Pairings.forall_mem_iff (fun _ _ reported => reported.alarm_iff) (reports_evaluate returned)

theorem status_evaluate : report.status = .ok ↔ report.status ≠ .alarm := by
  obtain ⟨checks, -, rfl⟩ := (evaluate_eq_ok rendering).mp returned
  rw [reportOn]
  dsimp only
  split <;> simp

end

/-- The fence is OK only on evidence, wherever it comes to a verdict. A run makes a report in which
each check in scope reports its criterion, and which is OK exactly when each criterion is met or its
check is named by a live acknowledgement, exactly if its checks can be computed: the limit and the
window are durations a `timedelta` can have, the window begins and the silence after a restart ends
in the calendar, and no integer that is shown has too many digits. -/
theorem evaluate_ok_iff (rendering : Rendering) (facts : FenceFacts) (thresholds : Thresholds)
    (now : Int) (storeOnly relayOnly : Bool) :
    (∃ report, evaluate rendering facts thresholds now storeOnly relayOnly = .ok report ∧
      List.Forall₂ (Reports facts.ack) report.checks
        (criteria facts thresholds now storeOnly relayOnly) ∧
      (report.status = .ok ↔ ∀ criterion ∈ criteria facts thresholds now storeOnly relayOnly,
        criterion.met ∨ Named facts.ack criterion.name)) ↔
      Computes facts thresholds now storeOnly relayOnly := by
  rw [← @returns_evaluate_iff rendering]
  constructor
  · rintro ⟨report, returned, -⟩
    exact ⟨report, returned⟩
  · rintro ⟨report, returned⟩
    refine ⟨report, returned, reports_evaluate returned, ?_⟩
    rw [status_evaluate returned, evaluate_ne_alarm_iff returned]

end

/-! ### A window that begins before the calendar -/

def bareRendering : Rendering where
  isoformat _ := ""
  isodate _ := ""
  ageHours _ := ⟨"0.0"⟩
  capitalize := id

/-- A day of the year 2026, in which the store was written and the relay ingested. -/
def liveDay : Int := days 20000

/-- The store and the relay are alive. -/
def liveFacts : FenceFacts where
  store := some { target := "db", reachable := true, newestUpdatedAt := some liveDay, rowCount := 20 }
  builds := some {}
  marker := some ⟨some ⟨some liveDay, some liveDay, some liveDay, 1, 1, none⟩, none, "marker"⟩

/-- A window of twenty million hours, which is more than the years since the year 1. -/
def wideWindow : Thresholds :=
  { buildWindowHours := 20000000 }

/-- Every criterion is met, and the run raises where it subtracts the window. -/
theorem not_returns_wideWindow :
    (∀ criterion ∈ criteria liveFacts wideWindow liveDay false false, criterion.met) ∧
      ¬∃ report, evaluate bareRendering liveFacts wideWindow liveDay false false = .ok report := by
  constructor
  · have store : StoreAlive liveFacts wideWindow liveDay :=
      ⟨_, ⟨rfl, rfl, by decide⟩, liveDay, rfl, by decide⟩
    have relay : RelayAlive liveFacts wideWindow liveDay :=
      ⟨_, _, _, rfl, rfl, rfl, rfl, Or.inr (Or.inl ⟨liveDay, rfl, by decide⟩)⟩
    intro criterion member
    simp only [criteria, projectCriteria, liveFacts, Bool.false_eq_true, if_false, List.map_nil,
      ne_eq, ite_self, List.cons_append, List.nil_append, List.mem_cons, List.not_mem_nil,
      or_false] at member
    rcases member with rfl | rfl
    · exact store
    · exact relay
  · refine mt (returns_evaluate_iff false false).mp fun computes => ?_
    have window := (computes.2 rfl _ _ _ rfl rfl rfl rfl).1.2
    exact absurd window (by decide)

end FleetMemory.Fence
