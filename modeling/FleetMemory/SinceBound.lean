/-
This file says when the bound of an incremental harvest is a bound on instants. The bound and the
times of the records are compared as texts, and texts of datetimes stand in the order of their wall
clocks. So a record is missed, or read once more, when its wall clock and that of the bound lie on
other sides than their instants do, which takes offsets that differ by more than the wall clocks.
-/

import FleetMemory.Declassification
import FleetMemory.IsoTexts

namespace FleetMemory

open Calendar

/-! ### Times of records -/

/-- The time an episode is bound by: when it occurred, or else when its row was created. -/
def boundTime (episode : HarvestedEpisode) (createdAt : Option String) : Option String :=
  (given episode.occurredAt).or (given createdAt)

theorem before_of_filled {since : String} (filled : since ≠ "") (episode : HarvestedEpisode)
    (createdAt : Option String) :
    before (some since) episode createdAt = false ↔
      ∀ text, boundTime episode createdAt = some text → ¬text < since := by
  have bound : given (some since) = some since := by
    simp [given, filled]
  rw [before, bound, ← boundTime]
  cases boundTime episode createdAt with
  | none => simp
  | some text => simp

/-- The time is none, or denotes an instant that is not before the given one. -/
def NotBefore (instant : Int) (time : Option String) : Prop :=
  ∀ datetime : AwareDatetime, time = some datetime.isoformat → instant ≤ datetime.instant

theorem notBefore_isoformat {instant : Int} {datetime : AwareDatetime} :
    NotBefore instant (some datetime.isoformat) ↔ instant ≤ datetime.instant := by
  constructor
  · exact fun notBefore => notBefore datetime rfl
  · intro late other same
    rw [← AwareDatetime.isoformat_injective (Option.some.inj same)]
    exact late

namespace Chronicler

variable (chronicler : Chronicler) (rows : DatedStore)

/-- The row at a place is one a run scans, and is read as an episode. -/
def ReadAs (place : Place) (episode : HarvestedEpisode) : Prop :=
  ∃ namespaceParts value, chronicler.Scans rows namespaceParts place value ∧
    rehydrate chronicler.runtime namespaceParts value = .ok (some episode)

/-- The times of the typed records are those of aware datetimes. -/
def Stamped : Prop :=
  ∀ place episode, chronicler.ReadAs rows place episode →
    ∀ text, boundTime episode (rows.createdAt place) = some text →
      ∃ datetime : AwareDatetime, datetime.isoformat = text

/-- A run reads just the episodes without a time and those of an instant not before the bound's. -/
def ReadsByInstant (since : String) (instant : Int) : Prop :=
  ∃ episodes, chronicler.readEpisodes rows (some since) = .ok episodes ∧
    ∀ episode, episode ∈ episodes ↔ ∃ place, chronicler.ReadAs rows place episode ∧
      NotBefore instant (boundTime episode (rows.createdAt place))

/-- No record's time lies before the bound as a text and not as an instant, or the other way round,
unless another record that is read as the same episode makes up for it. -/
structure Placed (since : String) (instant : Int) : Prop where
  dropped : ∀ place episode (time : AwareDatetime), chronicler.ReadAs rows place episode →
    boundTime episode (rows.createdAt place) = some time.isoformat →
    time.isoformat < since ∧ instant ≤ time.instant →
      ∃ other, chronicler.ReadAs rows other episode ∧
        ∀ text, boundTime episode (rows.createdAt other) = some text → ¬text < since
  taken : ∀ place episode (time : AwareDatetime), chronicler.ReadAs rows place episode →
    boundTime episode (rows.createdAt place) = some time.isoformat →
    ¬time.isoformat < since ∧ time.instant < instant →
      ∃ other, chronicler.ReadAs rows other episode ∧
        NotBefore instant (boundTime episode (rows.createdAt other))

variable {chronicler rows} {since : String} {instant : Int}

theorem inBound_iff (filled : since ≠ "") {episode : HarvestedEpisode} :
    chronicler.InBound rows (some since) episode ↔
      ∃ place, chronicler.ReadAs rows place episode ∧
        ∀ text, boundTime episode (rows.createdAt place) = some text → ¬text < since := by
  constructor
  · rintro ⟨namespaceParts, place, value, scans, rehydrated, notBefore⟩
    exact ⟨place, ⟨namespaceParts, value, scans, rehydrated⟩,
      (before_of_filled filled _ _).mp notBefore⟩
  · rintro ⟨place, ⟨namespaceParts, value, scans, rehydrated⟩, notBefore⟩
    exact ⟨namespaceParts, place, value, scans, rehydrated,
      (before_of_filled filled _ _).mpr notBefore⟩

/-- A run reads by instants exactly when every record can be read and is placed as its instant. -/
theorem readsByInstant_iff (whole : chronicler.ScansWhole rows) (stamped : chronicler.Stamped rows)
    (filled : since ≠ "") :
    chronicler.ReadsByInstant rows since instant ↔
      chronicler.Readable rows ∧ chronicler.Placed rows since instant := by
  constructor
  · rintro ⟨episodes, read, exactly⟩
    have reads : ∀ {episode}, episode ∈ episodes ↔ _ := fun {episode} =>
      (mem_readEpisodes whole read).trans (@inBound_iff _ rows _ filled episode)
    refine ⟨?_, ?_, ?_⟩
    · by_contra unreadable
      obtain ⟨error, raised⟩ := (readEpisodes_raises_iff whole).mpr unreadable
      rw [read] at raised
      cases raised
    · intro place episode time here timed misplaced
      refine reads.mp ((exactly episode).mpr ⟨place, here, ?_⟩)
      rw [timed]
      exact notBefore_isoformat.mpr misplaced.2
    · intro place episode time here timed misplaced
      refine (exactly episode).mp (reads.mpr ⟨place, here, fun text same => ?_⟩)
      rw [timed] at same
      rw [← Option.some.inj same]
      exact misplaced.1
  · rintro ⟨readable, placed⟩
    cases read : chronicler.readEpisodes rows (some since) with
    | error error =>
      exact absurd readable ((readEpisodes_raises_iff whole).mp ⟨error, read⟩)
    | ok episodes =>
      refine ⟨episodes, read, fun episode => ?_⟩
      rw [mem_readEpisodes whole read, inBound_iff filled]
      constructor
      · rintro ⟨place, here, notBefore⟩
        by_cases late : NotBefore instant (boundTime episode (rows.createdAt place))
        · exact ⟨place, here, late⟩
        · simp only [NotBefore, not_forall, not_le] at late
          obtain ⟨time, timed, early⟩ := late
          exact placed.taken place episode time here timed ⟨notBefore _ timed, early⟩
      · rintro ⟨place, here, late⟩
        by_cases notBefore : ∀ text, boundTime episode (rows.createdAt place) = some text →
            ¬text < since
        · exact ⟨place, here, notBefore⟩
        · simp only [not_forall, not_not] at notBefore
          obtain ⟨text, timed, early⟩ := notBefore
          obtain ⟨time, rfl⟩ := stamped place episode here text timed
          exact placed.dropped place episode time here timed ⟨early, late time timed⟩

/-- The bound is one on instants where the records' times have its own offset. -/
theorem placed_of_one_offset {bound : AwareDatetime}
    (one : ∀ place episode (time : AwareDatetime), chronicler.ReadAs rows place episode →
      boundTime episode (rows.createdAt place) = some time.isoformat → time.offset = bound.offset) :
    chronicler.Placed rows bound.isoformat bound.instant where
  dropped place episode time here timed misplaced := by
    have same := one place episode time here timed
    have impossible := (AwareDatetime.before_not_instant_iff _ _).mp misplaced
    omega
  taken place episode time here timed misplaced := by
    have same := one place episode time here timed
    have impossible := (AwareDatetime.instant_not_before_iff _ _).mp misplaced
    omega

end Chronicler

/-- The since bound is one on instants exactly when every record can be read and none is misplaced,
as a text, against the instant of its time. Between texts of datetimes that is when the wall clocks
differ by no more than the offsets, or are the same with different offsets ahead of UTC. -/
theorem sinceBound_iff (chronicler : Chronicler) (rows : DatedStore)
    (whole : chronicler.ScansWhole rows) (stamped : chronicler.Stamped rows) :
    (∀ since instant, since ≠ "" →
      (chronicler.ReadsByInstant rows since instant ↔
        chronicler.Readable rows ∧ chronicler.Placed rows since instant)) ∧
    ∀ time bound : AwareDatetime,
      (time.isoformat < bound.isoformat ∧ bound.instant ≤ time.instant ↔
        (time.wall < bound.wall ∧ (bound.wall : Int) - time.wall ≤ bound.offset - time.offset) ∨
          (time.wall = bound.wall ∧ 0 ≤ time.offset ∧ time.offset < bound.offset)) ∧
      (¬time.isoformat < bound.isoformat ∧ time.instant < bound.instant ↔
        (bound.wall < time.wall ∧ (time.wall : Int) - bound.wall < time.offset - bound.offset) ∨
          (time.wall = bound.wall ∧ 0 ≤ bound.offset ∧ bound.offset < time.offset)) :=
  ⟨fun _ _ filled => Chronicler.readsByInstant_iff whole stamped filled, fun time bound =>
    ⟨AwareDatetime.before_not_instant_iff time bound, AwareDatetime.instant_not_before_iff time bound⟩⟩

/-! ### A morning in two time zones -/

/-- Nine o'clock in UTC. -/
def nineUtc : AwareDatetime where
  wall := 63927910800000000
  offset := 0
  inCalendar := by decide
  withinDay := by decide

/-- Ten o'clock two hours ahead of UTC, which is an hour earlier. -/
def tenAhead : AwareDatetime where
  wall := 63927914400000000
  offset := 7200000000
  inCalendar := by decide
  withinDay := by decide

theorem isoformat_nineUtc : nineUtc.isoformat = "2026-10-18T09:00:00+00:00" := by
  decide +kernel

theorem isoformat_tenAhead : tenAhead.isoformat = "2026-10-18T10:00:00+02:00" := by
  decide +kernel

/-- One record, dated nine o'clock in UTC. -/
def nineRows : DatedStore where
  store := (∅ : Store).insert fleetPlace (spineRecord "fleet" nineUtc.isoformat)
  createdAt _ := none

theorem stored_nineRows {place : Place} {value : StoredValue}
    (stored : nineRows.store.lookup place = some value) :
    place = fleetPlace ∧ value = spineRecord "fleet" nineUtc.isoformat := by
  rw [nineRows, lookup_insert] at stored
  split at stored
  · exact ⟨‹_›, (Option.some.inj stored).symm⟩
  · rw [Finmap.lookup_empty] at stored
    cases stored

theorem scansWhole_nineRows : fleetChronicler.ScansWhole nineRows := by
  refine scansWhole_of_few ?_
  have among : nineRows.store.keys ⊆ {fleetPlace} := by
    intro place member
    obtain ⟨value, stored⟩ := mem_keys_iff.mp member
    exact Finset.mem_singleton.mpr (stored_nineRows stored).1
  exact (Finset.card_le_card among).trans (by decide)

/-- The record is read as one episode. -/
theorem readAs_nineRows {place : Place} {episode : HarvestedEpisode} :
    fleetChronicler.ReadAs nineRows place episode ↔
      place = fleetPlace ∧ episode = spineEpisode "fleet" nineUtc.isoformat := by
  constructor
  · rintro ⟨namespaceParts, value, scans, rehydrated⟩
    obtain ⟨rfl, rfl⟩ := stored_nineRows scans.stored
    rw [rehydrate_spineRecord namespaceParts (by decide)] at rehydrated
    exact ⟨rfl, (Option.some.inj (Except.ok.inj rehydrated)).symm⟩
  · rintro ⟨rfl, rfl⟩
    obtain ⟨namespaceParts, place, value, scans, rehydrated, _⟩ :=
      @inBound_of_stored nineRows none fleetPlace "fleet" nineUtc.isoformat
        lookup_insert_self (by decide) rfl (by decide) rfl
    exact ⟨namespaceParts, value, (stored_nineRows scans.stored).1 ▸ scans, rehydrated⟩

theorem boundTime_nineRows (place : Place) :
    boundTime (spineEpisode "fleet" nineUtc.isoformat) (nineRows.createdAt place) =
      some nineUtc.isoformat := by
  rw [isoformat_nineUtc]
  rfl

theorem stamped_nineRows : fleetChronicler.Stamped nineRows := by
  intro place episode here text timed
  obtain ⟨rfl, rfl⟩ := readAs_nineRows.mp here
  rw [boundTime_nineRows] at timed
  exact ⟨nineUtc, Option.some.inj timed⟩

theorem sinceBound_iff_nineRows :
    fleetChronicler.ReadsByInstant nineRows "2026-10-18T10:00:00+02:00" tenAhead.instant ↔
      fleetChronicler.Readable nineRows ∧
        fleetChronicler.Placed nineRows "2026-10-18T10:00:00+02:00" tenAhead.instant :=
  (sinceBound_iff fleetChronicler nineRows scansWhole_nineRows stamped_nineRows).1 _ _ (by decide)

/-- The record is an hour past the bound and is missed. -/
theorem not_readsByInstant_nineRows :
    tenAhead.instant < nineUtc.instant ∧
      ¬fleetChronicler.ReadsByInstant nineRows "2026-10-18T10:00:00+02:00" tenAhead.instant := by
  refine ⟨by decide, fun reads => ?_⟩
  rw [← isoformat_tenAhead] at reads
  have filled : tenAhead.isoformat ≠ "" := by
    rw [isoformat_tenAhead]
    decide
  have placed := ((Chronicler.readsByInstant_iff scansWhole_nineRows stamped_nineRows filled).mp
    reads).2
  have misplaced := (AwareDatetime.before_not_instant_iff nineUtc tenAhead).mpr
    (Or.inl ⟨by decide, by decide⟩)
  obtain ⟨other, _, notBefore⟩ := placed.dropped fleetPlace _ nineUtc (readAs_nineRows.mpr ⟨rfl, rfl⟩)
    (boundTime_nineRows _) misplaced
  exact notBefore _ (boundTime_nineRows _) misplaced.1

end FleetMemory
