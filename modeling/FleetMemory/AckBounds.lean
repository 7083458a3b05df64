/-
This file proves that an acknowledgement is no mute button. One file is live on the fifteen days
up to its date and on no other, and only if it says why, until when and what it covers. While it
is live, all it does is to turn the alarms it names into held checks.
-/

import FleetMemory.FenceFiles
import FleetMemory.FenceVerdict
import Mathlib

namespace FleetMemory.Fence

/-! ### The days an acknowledgement is live -/

/-- The object gives a reason, a date and checks. -/
structure Acknowledges (library : FenceLibrary) (data : PyDict) (untilDay : Int)
    (checks : List String) : Prop where
  reason : ∃ text, getOrNone data "reason" = .str text ∧ text ≠ ""
  dated : ∃ text, getOrNone data "until" = .str text ∧ text ≠ "" ∧
    library.dateFromisoformat text = some untilDay
  named : ∃ items, getOrNone data "checks" = .list items ∧ stringsOf items = checks
  covers : checks ≠ []

/-- The bytes are an object that gives a reason, a date and checks. -/
def AckFile (library : FenceLibrary) (bytes : ByteArray) (untilDay : Int)
    (checks : List String) : Prop :=
  ∃ raw data, readText bytes = some raw ∧ library.loads raw = .ok (.dict data) ∧
    Acknowledges library data untilDay checks

/-- The days on which a file is read as a live acknowledgement. -/
def activeDays (library : FenceLibrary) (rendering : Rendering) (bytes : ByteArray)
    (label : String) : Set Int :=
  {today | ∃ ack, readAck library rendering (.holds bytes) label today = .ok ack ∧
    ack.active = true}

section

variable {library : FenceLibrary} {data : PyDict} {bytes : ByteArray} {untilDay : Int}
  {checks : List String}

/-- Such an object is live exactly from fourteen days before its date up to that day, and covers
the checks it gives. -/
theorem ackOf_spec (rendering : Rendering) (label : String) (today : Int)
    (acknowledges : Acknowledges library data untilDay checks) :
    ((ackOf library rendering data label today).active = true ↔
      untilDay - 14 ≤ today ∧ today ≤ untilDay) ∧
    (ackOf library rendering data label today).checks = checks := by
  obtain ⟨reason, at_reason, given⟩ := acknowledges.reason
  obtain ⟨text, at_text, written, date⟩ := acknowledges.dated
  obtain ⟨items, at_items, rfl⟩ := acknowledges.named
  have stated : orDefault (some reason) "" ≠ "" := by simpa [orDefault] using given
  simp only [ackOf, at_reason, at_text, at_items, if_neg written, date,
    if_neg acknowledges.covers, if_neg stated, ackMaxDays]
  split_ifs with long expired
  · refine ⟨iff_of_false (by simp) ?_, rfl⟩
    omega
  · refine ⟨iff_of_false (by simp) ?_, rfl⟩
    omega
  · refine ⟨iff_of_true (by simp) ?_, rfl⟩
    omega

/-- Only such an object is ever live. -/
theorem acknowledges_of_active {rendering : Rendering} {label : String} {today : Int}
    (active : (ackOf library rendering data label today).active = true) :
    ∃ untilDay checks, Acknowledges library data untilDay checks := by
  have dated : ∃ text untilDay, getOrNone data "until" = .str text ∧ text ≠ "" ∧
      library.dateFromisoformat text = some untilDay := by
    cases at_text : getOrNone data "until" with
    | str text =>
      by_cases empty : text = ""
      · simp [ackOf, at_text, empty] at active
      · cases date : library.dateFromisoformat text with
        | none => simp [ackOf, at_text, empty, date] at active
        | some untilDay => exact ⟨text, untilDay, rfl, empty, date⟩
    | _ => simp [ackOf, at_text] at active
  obtain ⟨text, untilDay, at_text, written, date⟩ := dated
  simp only [ackOf, at_text, if_neg written, date] at active
  have covers : ∃ items, getOrNone data "checks" = .list items ∧ stringsOf items ≠ [] := by
    cases at_items : getOrNone data "checks" with
    | list items =>
      refine ⟨items, rfl, fun none_listed => ?_⟩
      simp [at_items, none_listed] at active
    | _ => simp [at_items] at active
  obtain ⟨items, at_items, covers⟩ := covers
  simp only [at_items, if_neg covers] at active
  have given : ∃ reason, getOrNone data "reason" = .str reason ∧ reason ≠ "" := by
    cases at_reason : getOrNone data "reason" with
    | str reason =>
      refine ⟨reason, rfl, fun empty => ?_⟩
      simp [at_reason, empty, orDefault] at active
    | _ => simp [at_reason, orDefault] at active
  exact ⟨untilDay, _, given, ⟨text, at_text, written, date⟩, ⟨items, at_items, rfl⟩, covers⟩

/-- What is read as live is an object. -/
theorem mem_activeDays {rendering : Rendering} {label : String} {today : Int} :
    today ∈ activeDays library rendering bytes label ↔
      ∃ raw data, readText bytes = some raw ∧ library.loads raw = .ok (.dict data) ∧
        (ackOf library rendering data label today).active = true := by
  constructor
  · rintro ⟨ack, read, active⟩
    rw [readAck] at read
    cases text : readText bytes with
    | none =>
      rw [text] at read
      cases read
    | some raw =>
      rw [text] at read
      dsimp only at read
      split at read
      · cases read
      · cases read
        cases active
      · rename_i data loaded
        cases read
        exact ⟨raw, data, rfl, loaded, active⟩
      · cases read
        cases active
  · rintro ⟨raw, data, text, loaded, active⟩
    refine ⟨_, ?_, active⟩
    rw [readAck, text]
    dsimp only
    rw [loaded]

/-- A file that acknowledges is read as what its object says. -/
theorem readAck_of_ackFile (rendering : Rendering) (label : String) (today : Int)
    (file : AckFile library bytes untilDay checks) :
    ∃ ack, readAck library rendering (.holds bytes) label today = .ok ack ∧
      ack.checks = checks := by
  obtain ⟨raw, data, text, loaded, acknowledges⟩ := file
  refine ⟨ackOf library rendering data label today, ?_,
    (ackOf_spec rendering label today acknowledges).2⟩
  rw [readAck, text]
  dsimp only
  rw [loaded]

/-- A file that acknowledges is live on the fifteen days up to its date. -/
theorem activeDays_of_ackFile (rendering : Rendering) (label : String)
    (file : AckFile library bytes untilDay checks) :
    activeDays library rendering bytes label = Set.Icc (untilDay - 14) untilDay := by
  obtain ⟨raw, data, text, loaded, acknowledges⟩ := file
  ext today
  rw [mem_activeDays, Set.mem_Icc, ← (ackOf_spec rendering label today acknowledges).1]
  constructor
  · rintro ⟨other, found, same, reads, active⟩
    obtain rfl : raw = other := Option.some.inj (text.symm.trans same)
    rw [loaded] at reads
    obtain rfl := PyValue.dict.inj (Except.ok.inj reads)
    exact active
  · exact fun active => ⟨raw, data, text, loaded, active⟩

/-- No other file is ever live. -/
theorem activeDays_eq_empty (rendering : Rendering) (label : String)
    (none_given : ¬∃ untilDay checks, AckFile library bytes untilDay checks) :
    activeDays library rendering bytes label = ∅ := by
  refine Set.subset_empty_iff.mp fun today member => none_given ?_
  obtain ⟨raw, data, text, loaded, active⟩ := mem_activeDays.mp member
  obtain ⟨untilDay, checks, acknowledges⟩ := acknowledges_of_active active
  exact ⟨untilDay, checks, raw, data, text, loaded, acknowledges⟩

end

/-! ### What a live acknowledgement does -/

/-- What an acknowledgement leaves of a check: an alarm it names is held, for the same reason,
and any other check is as it was. -/
structure HeldBy (ack : AckState) (before after : CheckResult) : Prop where
  held : before.status = .alarm → Named ack before.name →
    after.status = .held ∧ after.name = before.name ∧ after.reason = before.reason
  same : ¬(before.status = .alarm ∧ Named ack before.name) → after = before

section

variable (rendering : Rendering)

theorem heldBy_applyAck (ack : AckState) (check : CheckResult) :
    HeldBy ack check (applyAck rendering check ack) := by
  unfold applyAck
  split_ifs with untouched
  · refine ⟨fun alarm named => ?_, fun _ => rfl⟩
    have held := (holds_iff ack check.name).mpr named
    simp [alarm, held] at untouched
  · rw [not_or, not_not, Bool.not_eq_false, holds_iff] at untouched
    exact ⟨fun _ _ => ⟨rfl, rfl, rfl⟩, fun other => absurd untouched other⟩

/-- An acknowledgement that is not live changes no check. -/
theorem applyAck_of_inactive {ack : AckState} (inactive : ack.active = false)
    (check : CheckResult) : applyAck rendering check ack = check := by
  refine if_pos (Or.inr ?_)
  rw [AckState.holds, inactive]
  rfl

/-- A report alarms when one of its checks does. -/
theorem reportOn_alarm_iff (facts : FenceFacts) (thresholds : Thresholds) (now : Int)
    (inScope : List CheckResult) :
    (reportOn rendering facts thresholds now inScope).status = .alarm ↔
      ∃ check ∈ (reportOn rendering facts thresholds now inScope).checks, check.status = .alarm := by
  simp [reportOn]

/-- Without an acknowledgement the checks are those in scope. -/
theorem checks_reportOn_without (facts : FenceFacts) (thresholds : Thresholds) (now : Int)
    (inScope : List CheckResult) :
    (reportOn rendering { facts with ack := {} } thresholds now inScope).checks = inScope := by
  have kept : (fun check => applyAck rendering check {}) = id :=
    funext fun check => applyAck_of_inactive rendering rfl check
  exact (congrArg (fun step => inScope.map step) kept).trans (List.map_id _)

variable {rendering} {facts : FenceFacts} {thresholds : Thresholds} {now : Int}

/-- A run and the one without its acknowledgement report on the same checks, or both raise. -/
theorem evaluate_without (facts : FenceFacts) (thresholds : Thresholds) (now : Int)
    (storeOnly relayOnly : Bool) :
    (∃ error,
      evaluate rendering { facts with ack := {} } thresholds now storeOnly relayOnly = .error error ∧
        evaluate rendering facts thresholds now storeOnly relayOnly = .error error) ∨
    ∃ inScope,
      evaluate rendering { facts with ack := {} } thresholds now storeOnly relayOnly =
          .ok (reportOn rendering { facts with ack := {} } thresholds now inScope) ∧
        evaluate rendering facts thresholds now storeOnly relayOnly =
          .ok (reportOn rendering facts thresholds now inScope) := by
  have same : checksOf rendering { facts with ack := {} } thresholds now storeOnly relayOnly =
      checksOf rendering facts thresholds now storeOnly relayOnly := rfl
  unfold evaluate
  rw [same]
  cases checksOf rendering facts thresholds now storeOnly relayOnly with
  | error error => exact Or.inl ⟨error, rfl, rfl⟩
  | ok inScope => exact Or.inr ⟨inScope, rfl, rfl⟩

/-- The checks of a report, next to those of the one without its acknowledgement. -/
theorem heldBy_reportOn (inScope : List CheckResult) : List.Forall₂ (HeldBy facts.ack)
    (reportOn rendering { facts with ack := {} } thresholds now inScope).checks
    (reportOn rendering facts thresholds now inScope).checks := by
  rw [checks_reportOn_without, reportOn, List.forall₂_map_right_iff]
  exact List.forall₂_same.mpr fun check _ => heldBy_applyAck rendering facts.ack check

/-- The status changes only when the acknowledgement names every alarm. -/
theorem named_of_status_ne {inScope : List CheckResult}
    (differs : (reportOn rendering facts thresholds now inScope).status ≠
      (reportOn rendering { facts with ack := {} } thresholds now inScope).status) :
    ∀ check ∈ (reportOn rendering { facts with ack := {} } thresholds now inScope).checks,
      check.status = .alarm → Named facts.ack check.name := by
  intro check member alarm
  by_contra unnamed
  refine differs ?_
  obtain ⟨after, reported, heldBy⟩ :=
    Pairings.exists_of_mem_right (heldBy_reportOn inScope).flip member
  have same : after = check := heldBy.same fun held => unnamed held.2
  rw [same] at reported
  exact ((reportOn_alarm_iff rendering facts thresholds now inScope).mpr
    ⟨check, reported, alarm⟩).trans ((reportOn_alarm_iff rendering _ thresholds now inScope).mpr
      ⟨check, member, alarm⟩).symm

end

/-- An acknowledgement is no mute button. A file is live on the fifteen days up to the date it
gives, for the checks it gives, and on none without a reason, a date and checks; and a run with an
acknowledgement raises as the run without it does, or has the checks of the run without, but for the
alarms it names, which are held. -/
theorem acknowledgement_is_bounded (library : FenceLibrary) (rendering : Rendering)
    (bytes : ByteArray) (label : String) :
    (∀ untilDay checks, AckFile library bytes untilDay checks →
      activeDays library rendering bytes label = Set.Icc (untilDay - 14) untilDay ∧
        ∀ today, ∃ ack, readAck library rendering (.holds bytes) label today = .ok ack ∧
          ack.checks = checks) ∧
    ((¬∃ untilDay checks, AckFile library bytes untilDay checks) →
      activeDays library rendering bytes label = ∅) ∧
    ∀ (facts : FenceFacts) (thresholds : Thresholds) (now : Int) (storeOnly relayOnly : Bool),
      let plain := evaluate rendering { facts with ack := {} } thresholds now storeOnly relayOnly
      let acked := evaluate rendering facts thresholds now storeOnly relayOnly
      (∃ error, plain = .error error ∧ acked = .error error) ∨
      ∃ before after, plain = .ok before ∧ acked = .ok after ∧
        List.Forall₂ (HeldBy facts.ack) before.checks after.checks ∧
        (after.status ≠ before.status →
          ∀ check ∈ before.checks, check.status = .alarm → Named facts.ack check.name) := by
  refine ⟨fun _ _ file => ⟨activeDays_of_ackFile rendering label file,
      fun today => readAck_of_ackFile rendering label today file⟩,
    activeDays_eq_empty rendering label, fun facts thresholds now storeOnly relayOnly => ?_⟩
  rcases evaluate_without facts thresholds now storeOnly relayOnly with raised | ⟨inScope, plain, acked⟩
  · exact Or.inl raised
  · exact Or.inr ⟨_, _, plain, acked, heldBy_reportOn inScope, named_of_status_ne⟩

end FleetMemory.Fence
