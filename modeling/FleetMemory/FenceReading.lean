/-
This file proves exactly which contents the readers of the fence's files return on, and that the
reader of the marker's bytes agrees with the one of its text wherever that one is told the same.
-/

import FleetMemory.FenceFiles
import FleetMemory.Pairings

namespace FleetMemory.Fence

/-! ### What can be read -/

/-- The value is the text of a time. -/
def Dated (library : FenceLibrary) (value : PyValue) : Prop :=
  ∃ text, value = .str text ∧ text ≠ "" ∧ ((utcMoment (withOffset text).toList).isSome ∨
    (library.otherForms (withOffset text)).isSome)

/-- The value is no time that leaves the calendar on its way to UTC. -/
def Converts (library : FenceLibrary) (value : PyValue) : Prop :=
  ∀ text parsed, value = .str text → text ≠ "" → utcMoment (withOffset text).toList = none →
    library.otherForms (withOffset text) = some parsed →
      ∀ offset ∈ parsed.offset, InCalendar (parsed.wall.moment - offset)

/-- The value is no infinite number. -/
def Countable (value : PyValue) : Prop :=
  ∀ number, value = .float number → ¬Infinite number

/-- The fields the reader of a marker comes to are times that convert and finite counts. Without
a start it comes to no other field. -/
def SoundMarker (library : FenceLibrary) (data : PyDict) : Prop :=
  Converts library (getOrNone data "started_at") ∧
    (Dated library (getOrNone data "started_at") →
      Converts library (getOrNone data "last_message_at") ∧
        Converts library (getOrNone data "last_ingest_at") ∧
        Countable (getOrNone data "messages_since_start") ∧
        Countable (getOrNone data "ingests_since_start"))

/-- The bytes are UTF-8, and nested no deeper than the interpreter reads. -/
def Decodes (library : FenceLibrary) (bytes : ByteArray) : Prop :=
  ∃ raw, readText bytes = some raw ∧ library.loads raw ≠ .error .recursion

/-- The contents of a marker the reader returns on. -/
def MarkerReadable (library : FenceLibrary) (file : StateFile) : Prop :=
  ∀ bytes, file = .holds bytes → Decodes library bytes ∧
    ∀ raw data, readText bytes = some raw → library.loads raw = .ok (.dict data) →
      SoundMarker library data

/-- The contents of an acknowledgement the reader returns on. -/
def AckReadable (library : FenceLibrary) (file : StateFile) : Prop :=
  ∀ bytes, file = .holds bytes → Decodes library bytes

/-! ### Fields -/

section

variable {library : FenceLibrary}

/-- A time comes to a moment in UTC, or leaves the calendar on the way. -/
theorem astimezone_cases (parsed : PyDatetime) :
    ((∀ offset ∈ parsed.offset, InCalendar (parsed.wall.moment - offset)) ∧
      ∃ moment, parsed.astimezone = .ok moment) ∨
    ((¬∀ offset ∈ parsed.offset, InCalendar (parsed.wall.moment - offset)) ∧
      ∃ text, parsed.astimezone = .error (.other text)) := by
  unfold PyDatetime.astimezone
  cases parsed.offset with
  | none => exact Or.inl ⟨by simp, _, rfl⟩
  | some offset =>
    dsimp only
    split_ifs with inside
    · exact Or.inl ⟨by simpa using inside, _, rfl⟩
    · exact Or.inr ⟨fun all => inside (all offset rfl), _, rfl⟩

/-- A value that is no time is read as none, and one that is a time as a moment, if it converts. -/
theorem parseIso_cases (value : PyValue) :
    (¬Dated library value ∧ Converts library value ∧ parseIso library.marker value = .ok none) ∨
    (Dated library value ∧ Converts library value ∧
      ∃ moment, parseIso library.marker value = .ok (some moment)) ∨
    (¬Converts library value ∧ ¬Returns (parseIso library.marker value)) := by
  by_cases text_ : ∃ text, value = .str text ∧ text ≠ ""
  · obtain ⟨text, rfl, nonempty⟩ := text_
    rw [parseIso, if_neg nonempty, fromIsoformat]
    cases written : utcMoment (withOffset text).toList with
    | some moment =>
      refine Or.inr (Or.inl ⟨⟨text, rfl, nonempty, Or.inl (by rw [written]; rfl)⟩, ?_, moment, rfl⟩)
      rintro other parsed same - other_form
      obtain rfl := PyValue.str.inj same
      rw [written] at other_form
      cases other_form
    | none =>
      dsimp only [FenceLibrary.marker]
      cases form : library.otherForms (withOffset text) with
      | none =>
        refine Or.inl ⟨?_, ?_, rfl⟩
        · rintro ⟨other, same, -, dated⟩
          obtain rfl := PyValue.str.inj same
          simp [written, form] at dated
        · rintro other parsed same - - parses
          obtain rfl := PyValue.str.inj same
          rw [form] at parses
          cases parses
      | some parsed =>
        have dated : Dated library (.str text) :=
          ⟨text, rfl, nonempty, Or.inr (by rw [form]; rfl)⟩
        rcases astimezone_cases parsed with ⟨inside, moment, moved⟩ | ⟨outside, reason, moved⟩
        · refine Or.inr (Or.inl ⟨dated, ?_, moment, by dsimp only; rw [moved]⟩)
          rintro other found same - - parses
          obtain rfl := PyValue.str.inj same
          obtain rfl : parsed = found := Option.some.inj (form.symm.trans parses)
          exact inside
        · refine Or.inr (Or.inr ⟨fun converts => ?_, ?_⟩)
          · exact outside (converts text parsed rfl nonempty written form)
          · dsimp only
            rw [moved]
            exact not_returns_error _
  · have other (text : String) (same : value = .str text) : text = "" := by
      by_contra nonempty
      exact text_ ⟨text, same, nonempty⟩
    refine Or.inl ⟨?_, ?_, ?_⟩
    · rintro ⟨text, same, nonempty, -⟩
      exact nonempty (other text same)
    · intro text _ same nonempty
      exact absurd (other text same) nonempty
    · cases value with
      | str text => rw [parseIso, if_pos (other text rfl)]
      | _ => rfl

theorem parseIso_returns_iff (value : PyValue) :
    Returns (parseIso library.marker value) ↔ Converts library value := by
  rcases parseIso_cases value with ⟨-, converts, read⟩ | ⟨-, converts, moment, read⟩ | ⟨not, raises⟩
  · exact ⟨fun _ => converts, fun _ => ⟨_, read⟩⟩
  · exact ⟨fun _ => converts, fun _ => ⟨_, read⟩⟩
  · exact ⟨fun returns => absurd returns raises, fun converts => absurd converts not⟩

/-- Only an infinite number is no count and no value that is taken as zero. -/
theorem intOrZero_returns_iff (value : PyValue) :
    Returns (intOrZero library.marker value) ↔ Countable value := by
  cases value with
  | float number =>
    have countable : Countable (.float number) ↔ ¬Infinite number :=
      ⟨fun counts => counts number rfl, by rintro finite _ ⟨⟩; exact finite⟩
    rw [countable]
    simp only [intOrZero, intOf, FenceLibrary.marker, FenceLibrary.intOfFloat]
    split_ifs with nan infinite
    · refine ⟨fun _ => ?_, fun _ => returns_ok _⟩
      rintro (positive | negative)
      · exact absurd (nan.symm.trans positive) (by decide)
      · exact absurd (nan.symm.trans negative) (by decide)
    · exact ⟨fun returns => absurd returns (not_returns_error _), fun finite => absurd infinite finite⟩
    · exact ⟨fun _ => infinite, fun _ => returns_ok _⟩
  | str text =>
    refine ⟨fun _ number impossible => (by cases impossible), fun _ => ?_⟩
    simp only [intOrZero, intOf, FenceLibrary.marker]
    cases library.intOfStr text with
    | none => exact returns_ok _
    | some number => exact returns_ok _
  | _ => exact ⟨fun _ number impossible => (by cases impossible), fun _ => returns_ok _⟩

/-! ### Files -/

/-- The reader of an object returns exactly on sound ones. -/
theorem markerOf_returns_iff (data : PyDict) (label : String) :
    Returns (markerOf library data label) ↔ SoundMarker library data := by
  unfold markerOf SoundMarker
  rcases @parseIso_cases library (getOrNone data "started_at") with
    ⟨undated, converts, read⟩ | ⟨dated, converts, moment, read⟩ | ⟨not, raises⟩
  · rw [read]
    exact ⟨fun _ => ⟨converts, fun dated => absurd dated undated⟩, fun _ => returns_ok _⟩
  · rw [read, except_ok_bind]
    dsimp only
    -- what each field is read as does not decide whether the next one is read
    refine (returns_bind_and fun _ => returns_bind_and fun _ => returns_bind_and fun _ =>
      returns_bind_and fun _ => iff_true_intro (returns_ok _)).trans ?_
    rw [parseIso_returns_iff, parseIso_returns_iff, intOrZero_returns_iff, intOrZero_returns_iff,
      and_true]
    exact ⟨fun sound => ⟨converts, fun _ => sound⟩, fun sound => sound.2 dated⟩
  · refine ⟨fun returns => ?_, fun sound => absurd sound.1 not⟩
    obtain ⟨found, read, -⟩ := returns_bind.mp returns
    exact absurd ⟨found, read⟩ raises

theorem not_decodes {bytes : ByteArray} (text : readText bytes = none) :
    ¬Decodes library bytes := by
  rintro ⟨raw, impossible, -⟩
  cases text.symm.trans impossible

theorem decodes_iff {bytes : ByteArray} {raw : String} (text : readText bytes = some raw) :
    Decodes library bytes ↔ library.loads raw ≠ .error .recursion := by
  constructor
  · rintro ⟨other, same, shallow⟩
    obtain rfl : raw = other := Option.some.inj (text.symm.trans same)
    exact shallow
  · exact fun shallow => ⟨raw, text, shallow⟩

theorem markerReadable_iff {bytes : ByteArray} {raw : String} (text : readText bytes = some raw) :
    MarkerReadable library (.holds bytes) ↔ library.loads raw ≠ .error .recursion ∧
      ∀ data, library.loads raw = .ok (.dict data) → SoundMarker library data := by
  constructor
  · intro readable
    obtain ⟨decodes, sound⟩ := readable bytes rfl
    exact ⟨(decodes_iff text).mp decodes, fun data => sound raw data text⟩
  · rintro ⟨shallow, sound⟩ _ ⟨⟩
    refine ⟨(decodes_iff text).mpr shallow, fun other data same => ?_⟩
    obtain rfl : raw = other := Option.some.inj (text.symm.trans same)
    exact sound data

theorem readMarkerFile_returns_iff (file : StateFile) (label : String) :
    Returns (readMarkerFile library file label) ↔ MarkerReadable library file := by
  cases file with
  | missing => exact ⟨fun _ bytes impossible => (by cases impossible), fun _ => returns_ok _⟩
  | unreadable className =>
    exact ⟨fun _ bytes impossible => (by cases impossible), fun _ => returns_ok _⟩
  | holds bytes =>
    rw [readMarkerFile]
    cases text : readText bytes with
    | none =>
      exact ⟨fun returns => absurd returns (not_returns_error _),
        fun readable => absurd (readable bytes rfl).1 (not_decodes text)⟩
    | some raw =>
      rw [markerReadable_iff text]
      dsimp only
      split
      · rename_i deep
        exact ⟨fun returns => absurd returns (not_returns_error _),
          fun readable => absurd deep readable.1⟩
      · rename_i corrupt
        refine ⟨fun _ => ⟨?_, ?_⟩, fun _ => returns_ok _⟩ <;> simp [corrupt]
      · rename_i data read
        rw [markerOf_returns_iff, read]
        refine ⟨fun sound => ⟨by simp, ?_⟩, fun readable => readable.2 data rfl⟩
        rintro _ ⟨⟩
        exact sound
      · rename_i value other read
        refine ⟨fun _ => ⟨by simp [read], fun data same => ?_⟩, fun _ => returns_ok _⟩
        exact absurd (Except.ok.inj (read.symm.trans same)) (other data)

/-- The relay's start returns whenever its read of the marker does. -/
theorem recordStartFile_returns_iff (file : StateFile) (now : ClockTime) :
    Returns (RelayMarker.recordStartFile library file now) ↔ MarkerReadable library file := by
  rw [RelayMarker.recordStartFile, ← @readMarkerFile_returns_iff library file ""]
  exact (returns_bind_and fun _ => iff_true_intro (returns_ok _)).trans (iff_of_eq (and_true _))

theorem readAck_returns_iff (rendering : Rendering) (file : StateFile) (label : String)
    (today : Int) :
    Returns (readAck library rendering file label today) ↔ AckReadable library file := by
  cases file with
  | missing => exact ⟨fun _ bytes impossible => (by cases impossible), fun _ => returns_ok _⟩
  | unreadable className =>
    exact ⟨fun _ bytes impossible => (by cases impossible), fun _ => returns_ok _⟩
  | holds bytes =>
    have readable : AckReadable library (.holds bytes) ↔ Decodes library bytes :=
      ⟨fun all => all bytes rfl, by rintro here _ ⟨⟩; exact here⟩
    rw [readAck, readable]
    cases text : readText bytes with
    | none =>
      exact ⟨fun returns => absurd returns (not_returns_error _),
        fun decodes => absurd decodes (not_decodes text)⟩
    | some raw =>
      rw [decodes_iff text]
      dsimp only
      split
      · rename_i deep
        exact ⟨fun returns => absurd returns (not_returns_error _),
          fun shallow => absurd deep shallow⟩
      · rename_i corrupt
        exact ⟨fun _ => by simp [corrupt], fun _ => returns_ok _⟩
      · rename_i data read
        exact ⟨fun _ => by simp [read], fun _ => returns_ok _⟩
      · rename_i value other read
        exact ⟨fun _ => by simp [read], fun _ => returns_ok _⟩

/-- The readers of the fence's files, and the relay's start, return exactly on contents that are
UTF-8 and not nested too deeply; and in a marker no time leaves the calendar and no count is
infinite. -/
theorem readers_return_iff (library : FenceLibrary) (rendering : Rendering)
    (markerFile ackFile : StateFile) (markerLabel ackLabel : String) (now : ClockTime)
    (today : Int) :
    (Returns (readMarkerFile library markerFile markerLabel) ↔ MarkerReadable library markerFile) ∧
      (Returns (RelayMarker.recordStartFile library markerFile now) ↔
        MarkerReadable library markerFile) ∧
      (Returns (readAck library rendering ackFile ackLabel today) ↔ AckReadable library ackFile) :=
  ⟨readMarkerFile_returns_iff markerFile markerLabel, recordStartFile_returns_iff markerFile now,
    readAck_returns_iff rendering ackFile ackLabel today⟩

/-- A library whose `json.loads` is the reader of texts, with no limit on how deep they nest. -/
def sampleLibrary : FenceLibrary where
  loads text :=
    match Json.loads PyFloat.mk text with
    | none => .error .value
    | some value => .ok value
  floatOf := PyFloat.mk
  otherForms _ := none
  dateFromisoformat _ := none
  truncated _ := 0
  intOfStr _ := none
  repr text := "'" ++ text ++ "'"

/-- The epoch. -/
def sampleTime : ClockTime where
  moment := 0
  begun := by decide
  ended := by decide

/-- A byte no UTF-8 text begins with. -/
def strayByte : StateFile :=
  .holds ⟨#[0xFF]⟩

/-- The two readers and the start of the relay all raise on it. -/
theorem stray_byte_raises :
    ¬Returns (readMarkerFile sampleLibrary strayByte "") ∧
      ¬Returns (RelayMarker.recordStartFile sampleLibrary strayByte sampleTime) ∧
      ¬Returns (readAck sampleLibrary ⟨toString, toString, fun _ => ⟨""⟩, id⟩ strayByte "" 0) :=
  ⟨not_returns_error _, not_returns_error _, not_returns_error _⟩

end

/-! ### Texts and bytes -/

/-- From bytes, the marker is read as from the text they decode to, wherever `json.loads` reads
that text as the reader of the text does. -/
theorem readMarkerFile_eq {library : FenceLibrary} {bytes : ByteArray} {raw : String}
    (text : readText bytes = some raw)
    (read : library.loads raw =
      match Json.loads library.floatOf raw with
      | none => .error .value
      | some value => .ok value) (label : String) :
    readMarkerFile library (.holds bytes) label =
      readMarker library.marker (.holds raw) label := by
  have floats : library.marker.floatOf = library.floatOf := rfl
  rw [readMarkerFile, readMarker, text, floats]
  dsimp only
  rw [read]
  cases Json.loads library.floatOf raw with
  | none => rfl
  | some value =>
    cases value with
    | dict data => rfl
    | _ => rfl

end FleetMemory.Fence
