/-
This file compares two runs of the fence under one acknowledgement, the second on facts
that show no more life than the first. An alarm of the first run is kept, with two
exceptions. A store that cannot be measured is one check where a store that was measured is
one check more for each project. So when a live acknowledgement names the check of the
whole store, an alarm that only a project's check raised goes away with the store. And facts
with less life take the relay check further, to dates that may leave the calendar: then the
second run raises and comes to no verdict.
-/

import FleetMemory.FenceVerdict
import Mathlib.Data.List.Perm.Subperm

namespace FleetMemory.Fence

/-! ### Facts that show no more life -/

/-- The instant is the other one, an earlier one or missing. -/
def NoLater (worse better : Option Int) : Prop :=
  ∀ moment, worse = some moment → ∃ other, better = some other ∧ moment ≤ other

structure ProjectFacts.Wanes (worse better : ProjectFacts) : Prop where
  project : worse.project = better.project
  rowCount : worse.rowCount = better.rowCount ∨ worse.rowCount = 0
  newest : NoLater worse.newestUpdatedAt better.newestUpdatedAt

/-- Of two stores that were read: the same projects are measured, and each shows no more life. -/
structure StoreFacts.Wanes (worse better : StoreFacts) : Prop where
  rowCount : worse.rowCount = better.rowCount ∨ worse.rowCount = 0
  newest : NoLater worse.newestUpdatedAt better.newestUpdatedAt
  measured : ∀ project ∈ better.perProject, ∃ other ∈ worse.perProject, other.Wanes project
  noOther : ∀ other ∈ worse.perProject, ∃ project ∈ better.perProject, other.Wanes project

structure MarkerState.Wanes (worse better : MarkerState) : Prop where
  startedAt : NoLater worse.startedAt better.startedAt
  lastIngestAt : NoLater worse.lastIngestAt better.lastIngestAt

/-- Each input the worse run can see, the better run saw with no less life, and the builds the
better run saw finished are among those the worse run sees. -/
structure FenceFacts.Wanes (worse better : FenceFacts) : Prop where
  store : ∀ facts, worse.store = some facts → facts.reachable = true →
    ∃ other, better.store = some other ∧ other.reachable = true ∧ facts.Wanes other
  marker : ∀ state, worse.marker.bind MarkerRead.state = some state →
    ∃ other, better.marker.bind MarkerRead.state = some other ∧ state.Wanes other
  builds : ∀ scan, worse.builds = some scan → scan.problem = none →
    ∃ other, better.builds = some other ∧ other.problem = none ∧
      other.receipts.Subperm scan.receipts
  ack : worse.ack = better.ack

/-- The alarm of a project goes away with the store: the worse run measures no project, the check of
the whole store is acknowledged, and the relay check raises no alarm. -/
def Silenced (worse better : FenceFacts) (thresholds : Thresholds) (now : Int)
    (storeOnly relayOnly : Bool) : Prop :=
  relayOnly = false ∧ Named better.ack "store_age" ∧ (¬∃ store, HasRows worse store) ∧
    (∃ store, HasRows better store ∧ ∃ project ∈ store.perProject,
      ¬ProjectAlive thresholds now project ∧
        ¬Named better.ack s!"store_age:{project.project}") ∧
    (storeOnly = true ∨ RelayAlive worse thresholds now ∨ Named better.ack "relay_idle")

section

variable {worse better : FenceFacts} {thresholds : Thresholds} {now : Int}

/-! ### Each criterion -/

theorem Fresh.of_noLater {first second : Option Int} (noLater : NoLater first second)
    (fresh : Fresh thresholds now first) : Fresh thresholds now second := by
  obtain ⟨moment, newest, recent⟩ := fresh
  obtain ⟨other, stored, later⟩ := noLater moment newest
  exact ⟨other, stored, by omega⟩

theorem ProjectAlive.of_wanes {first second : ProjectFacts} (wanes : first.Wanes second)
    (alive : ProjectAlive thresholds now first) : ProjectAlive thresholds now second := by
  refine ⟨?_, alive.2.of_noLater wanes.newest⟩
  rcases wanes.rowCount with same | empty
  · rw [← same]
    exact alive.1
  · exact absurd empty alive.1

/-- Rows the worse run measured were there for the better run. -/
theorem hasRows_of_wanes (wanes : worse.Wanes better) {store : StoreFacts}
    (rows : HasRows worse store) : ∃ other, HasRows better other ∧ store.Wanes other := by
  obtain ⟨read, reachable, some⟩ := rows
  obtain ⟨other, otherRead, otherReachable, less⟩ := wanes.store store read reachable
  refine ⟨other, ⟨otherRead, otherReachable, ?_⟩, less⟩
  rcases less.rowCount with same | empty
  · rw [← same]
    exact some
  · exact absurd empty some

theorem HasRows.unique {facts : FenceFacts} {first second : StoreFacts}
    (one : HasRows facts first) (two : HasRows facts second) : first = second :=
  Option.some.inj (one.1.symm.trans two.1)

theorem StoreAlive.of_wanes (wanes : worse.Wanes better) (alive : StoreAlive worse thresholds now) :
    StoreAlive better thresholds now := by
  obtain ⟨store, rows, fresh⟩ := alive
  obtain ⟨other, otherRows, less⟩ := hasRows_of_wanes wanes rows
  exact ⟨other, otherRows, fresh.of_noLater less.newest⟩

theorem WatchedSince.of_wanes (wanes : worse.Wanes better) {moment : Int}
    (since : WatchedSince worse.store thresholds moment) :
    WatchedSince better.store thresholds moment := by
  obtain ⟨facts, read, reachable, project, member, watched, newest, stored, recent⟩ := since
  obtain ⟨other, otherRead, otherReachable, less⟩ := wanes.store facts read reachable
  obtain ⟨found, inside, shrunk⟩ := less.noOther project member
  obtain ⟨later, kept, after⟩ := shrunk.newest newest stored
  exact ⟨other, otherRead, otherReachable, found, inside, shrunk.project ▸ watched, later, kept,
    recent.trans after⟩

theorem RelayAlive.of_wanes (wanes : worse.Wanes better) (alive : RelayAlive worse thresholds now) :
    RelayAlive better thresholds now := by
  obtain ⟨marker, state, scan, present, known, builds, sighted, active⟩ := alive
  obtain ⟨otherState, otherKnown, less⟩ := wanes.marker state
    (Option.bind_eq_some_iff.mpr ⟨marker, present, known⟩)
  obtain ⟨otherMarker, otherPresent, stated⟩ := Option.bind_eq_some_iff.mp otherKnown
  obtain ⟨otherScan, otherBuilds, otherSighted, receipts⟩ := wanes.builds scan builds sighted
  refine ⟨otherMarker, otherState, otherScan, otherPresent, stated, otherBuilds, otherSighted, ?_⟩
  rcases active with few | ⟨ingest, last, recent⟩ | watched | ⟨started, start, grace⟩
  · have fewer := List.Subperm.countP_le
      (fun receipt => decide (now - hours thresholds.buildWindowHours ≤ receipt.finishedAt)) receipts
    exact .inl (lt_of_le_of_lt (by exact_mod_cast fewer) few)
  · obtain ⟨other, kept, after⟩ := less.lastIngestAt ingest last
    exact .inr (.inl ⟨other, kept, recent.trans after⟩)
  · exact .inr (.inr (.inl (watched.of_wanes wanes)))
  · obtain ⟨other, kept, after⟩ := less.startedAt started start
    exact .inr (.inr (.inr ⟨other, kept, by omega⟩))

/-! ### The two runs -/

/-- Each criterion in scope is met or named by a live acknowledgement. -/
def Passes (facts : FenceFacts) (thresholds : Thresholds) (now : Int)
    (storeOnly relayOnly : Bool) : Prop :=
  ∀ criterion ∈ criteria facts thresholds now storeOnly relayOnly,
    criterion.met ∨ Named facts.ack criterion.name

/-- The criteria pass exactly when those of the store and the relay do, as far as they are in
scope. -/
theorem passes_iff_scopes (facts : FenceFacts) (thresholds : Thresholds) (now : Int)
    (storeOnly relayOnly : Bool) : Passes facts thresholds now storeOnly relayOnly ↔
      (relayOnly = false → (StoreAlive facts thresholds now ∨ Named facts.ack "store_age") ∧
        ∀ store, HasRows facts store → ∀ project ∈ store.perProject,
          ProjectAlive thresholds now project ∨
            Named facts.ack s!"store_age:{project.project}") ∧
      (storeOnly = false → RelayAlive facts thresholds now ∨ Named facts.ack "relay_idle") := by
  have projects : (∀ criterion ∈ projectCriteria facts.store thresholds now,
        criterion.met ∨ Named facts.ack criterion.name) ↔
      ∀ store, HasRows facts store → ∀ project ∈ store.perProject,
        ProjectAlive thresholds now project ∨
          Named facts.ack s!"store_age:{project.project}" := by
    unfold projectCriteria HasRows
    cases facts.store with
    | none => simp
    | some store =>
      by_cases rows : store.reachable = true ∧ store.rowCount ≠ 0
      · simp [rows]
      · simp only [if_neg rows]
        refine iff_of_true (by simp) fun other found => absurd found.2 ?_
        obtain rfl := Option.some.inj found.1
        exact rows
  rw [Passes, criteria, List.forall_mem_append]
  refine and_congr ?_ ?_
  · cases relayOnly with
    | true => simp
    | false => simp [projects]
  · cases storeOnly <;> simp

/-- What the first facts pass, those that show no more life pass too, unless the second silence the
alarm of a project. -/
theorem passes_iff_not_silenced (wanes : worse.Wanes better) (storeOnly relayOnly : Bool) :
    (Passes worse thresholds now storeOnly relayOnly →
        Passes better thresholds now storeOnly relayOnly) ↔
      ¬Silenced worse better thresholds now storeOnly relayOnly := by
  have better_iff := passes_iff_scopes better thresholds now storeOnly relayOnly
  have worse_iff := passes_iff_scopes worse thresholds now storeOnly relayOnly
  rw [wanes.ack] at worse_iff
  rw [better_iff, worse_iff]
  constructor
  · rintro kept ⟨inScope, named, noRows, ⟨store, rows, project, member, dead, unnamed⟩, relay⟩
    have quiet := kept ⟨fun _ => ⟨.inr named, fun store rows => absurd ⟨store, rows⟩ noRows⟩,
      fun relayInScope => relay.resolve_left fun only => by simp [only] at relayInScope⟩
    rcases (quiet.1 inScope).2 store rows project member with alive | held
    · exact dead alive
    · exact unnamed held
  · rintro notSilenced ⟨store, relay⟩
    refine ⟨fun inScope => ⟨?_, ?_⟩, fun relayInScope => ?_⟩
    · exact (store inScope).1.imp_left (StoreAlive.of_wanes wanes)
    · intro measured rows project member
      by_cases still : ∃ remaining, HasRows worse remaining
      · obtain ⟨remaining, worseRows⟩ := still
        obtain ⟨other, otherRows, less⟩ := hasRows_of_wanes wanes worseRows
        obtain rfl := rows.unique otherRows
        obtain ⟨shrunk, inside, wane⟩ := less.measured project member
        have judged := (store inScope).2 remaining worseRows shrunk inside
        rw [wane.project] at judged
        exact judged.imp_left (ProjectAlive.of_wanes wane)
      · by_contra neither
        obtain ⟨dead, unnamed⟩ := not_or.mp neither
        have named := (store inScope).1.resolve_left fun ⟨remaining, rows, _⟩ => still ⟨remaining, rows⟩
        refine notSilenced ⟨inScope, named, still, ⟨measured, rows, project, member, dead, unnamed⟩, ?_⟩
        cases storeOnly with
        | true => exact .inl rfl
        | false => exact .inr (relay rfl)
    · exact (relay relayInScope).imp_left (RelayAlive.of_wanes wanes)

/-- The run comes to a report, and the report is an alarm. -/
def Alarms (rendering : Rendering) (facts : FenceFacts) (thresholds : Thresholds) (now : Int)
    (storeOnly relayOnly : Bool) : Prop :=
  ∃ report, evaluate rendering facts thresholds now storeOnly relayOnly = .ok report ∧
    report.status = .alarm

/-- A run alarms exactly when its checks can be computed and do not all pass. -/
theorem alarms_iff (rendering : Rendering) (facts : FenceFacts) (thresholds : Thresholds)
    (now : Int) (storeOnly relayOnly : Bool) :
    Alarms rendering facts thresholds now storeOnly relayOnly ↔
      Computes facts thresholds now storeOnly relayOnly ∧
        ¬Passes facts thresholds now storeOnly relayOnly := by
  rw [← @returns_evaluate_iff rendering]
  constructor
  · rintro ⟨report, returned, alarm⟩
    exact ⟨⟨report, returned⟩, fun passes => (evaluate_ne_alarm_iff returned).mpr passes alarm⟩
  · rintro ⟨⟨report, returned⟩, fails⟩
    exact ⟨report, returned, not_not.mp (mt (evaluate_ne_alarm_iff returned).mp fails)⟩

/-- An alarm of the first facts is lost on the second: they silence the alarm of a project, or the
arithmetic that gave the alarm raises on them. -/
def Lost (worse better : FenceFacts) (thresholds : Thresholds) (now : Int)
    (storeOnly relayOnly : Bool) : Prop :=
  Computes better thresholds now storeOnly relayOnly ∧
    (Silenced worse better thresholds now storeOnly relayOnly ∨
      ¬Passes better thresholds now storeOnly relayOnly ∧
        ¬Computes worse thresholds now storeOnly relayOnly)

/-- Of two runs under one acknowledgement, on facts of which the second show no more life, an alarm
of the first is kept by the second, unless it is the alarm of a project that goes away with the
store, or the second run raises where it comes to dates the first did not come to. -/
theorem alarm_kept_iff (rendering : Rendering) (thresholds : Thresholds) (now : Int)
    (storeOnly relayOnly : Bool) {worse better : FenceFacts} (wanes : worse.Wanes better) :
    (Alarms rendering better thresholds now storeOnly relayOnly →
        Alarms rendering worse thresholds now storeOnly relayOnly) ↔
      ¬Lost worse better thresholds now storeOnly relayOnly := by
  rw [alarms_iff, alarms_iff, Lost, ← not_not (a := Silenced worse better thresholds now _ _),
    ← passes_iff_not_silenced wanes]
  tauto

end

/-! ### A stale project that goes away with the store -/

/-- The store as a whole is fresh, and one watched project has learned nothing for 400 hours. -/
def staleProject : FenceFacts where
  store := some {
    target := "db"
    reachable := true
    newestUpdatedAt := some 0
    rowCount := 20
    perProject := [⟨"guardkit", some (-hours 400), none, 10⟩] }
  ack := { present := true, active := true, reason := some "store migration", checks := ["store_age"] }

/-- The same run, but the store cannot be reached. -/
def darkStore : FenceFacts :=
  { staleProject with
    store := some { target := "db", reachable := false, problem := some "timeout" } }

theorem wanes_darkStore : darkStore.Wanes staleProject where
  store := by
    intro facts read reachable
    obtain rfl := Option.some.inj read
    cases reachable
  marker := by
    intro state read
    cases read
  builds := by
    intro scan read
    cases read
  ack := rfl

theorem alarm_kept_iff_darkStore :
    (Alarms bareRendering staleProject {} 0 true false →
        Alarms bareRendering darkStore {} 0 true false) ↔
      ¬Lost darkStore staleProject {} 0 true false :=
  alarm_kept_iff bareRendering {} 0 true false wanes_darkStore

/-- A run alarms when its status says so. -/
theorem alarms_of_status {rendering : Rendering} {facts : FenceFacts} {thresholds : Thresholds}
    {now : Int} {storeOnly relayOnly : Bool} {status : Status}
    (reported : (evaluate rendering facts thresholds now storeOnly relayOnly).toOption.map
      FenceReport.status = some status) :
    Alarms rendering facts thresholds now storeOnly relayOnly ↔ status = .alarm := by
  obtain ⟨report, made, rfl⟩ := Option.map_eq_some_iff.mp reported
  cases outcome : evaluate rendering facts thresholds now storeOnly relayOnly with
  | error error =>
    rw [outcome] at made
    cases made
  | ok found =>
    rw [outcome] at made
    obtain rfl : found = report := Option.some.inj made
    constructor
    · rintro ⟨other, same, alarm⟩
      obtain rfl : found = other := Except.ok.inj (outcome.symm.trans same)
      exact alarm
    · exact fun alarm => ⟨found, outcome, alarm⟩

/-- Losing the store silences the alarm of the stale project. -/
theorem not_alarm_kept_darkStore :
    darkStore.Wanes staleProject ∧
      ¬∀ rendering, Alarms rendering staleProject {} 0 true false →
        Alarms rendering darkStore {} 0 true false := by
  refine ⟨wanes_darkStore, fun kept => ?_⟩
  have alarm : Alarms bareRendering staleProject {} 0 true false :=
    (@alarms_of_status _ _ _ _ _ _ .alarm (by decide +kernel)).mpr rfl
  have quiet : ¬Alarms bareRendering darkStore {} 0 true false := fun alarms => by
    have ok : Status.ok = .alarm := (alarms_of_status (by decide +kernel)).mp alarms
    cases ok
  exact quiet (kept bareRendering alarm)

end FleetMemory.Fence
