/-
This file models how the fence looks at the receipts of finished builds and at the store. A receipt
is told by the name of its directory alone, and the store by the newest times of the rows that
three-valued SQL selects. It proves which names are receipts and when they finished, which
directories the scan returns on, and that the store's facts are exact or say why there are none.
-/

import FleetMemory.FenceReading
import FleetMemory.ScratchDiscard

namespace FleetMemory.Fence

open Calendar

/-! ### Names of receipts -/

/-- What the scan calls of the standard library. -/
structure ScanLibrary where
  /-- The digit a character beyond ASCII is, for `\d` and `int`. -/
  otherDigit : Char → Option Nat
  /-- `naive.astimezone().astimezone(UTC)`. The machine's zone may take a time out of the calendar. -/
  localToUtc : Int → Except PyError Int

section

variable (library : ScanLibrary)

/-- The digit a character is. -/
def digitOf (character : Char) : Option Nat :=
  if character.toNat < 128 then
    if character.isDigit then some (character.toNat - '0'.toNat) else none
  else library.otherDigit character

/-- `BUILD_DIR_PATTERN.match`: the feature and the stamp. The pattern's end is also before a newline
that ends the name. -/
def receiptParts (name : String) : Option (String × List Char) :=
  let line := if name.toList.getLast? = some '\n' then name.toList.dropLast else name.toList
  if "build-".toList.isPrefixOf line then
    let rest := line.drop "build-".toList.length
    let front := rest.take (rest.length - 14)
    let stamp := rest.drop (rest.length - 14)
    if front.getLast? = some '-' ∧ front.dropLast ≠ [] ∧ '\n' ∉ front.dropLast ∧
        stamp.length = 14 ∧ stamp.all fun character => (digitOf library character).isSome then
      some (String.ofList front.dropLast, stamp)
    else none
  else none

/-- Two characters of a stamp: what the first may be, and the second unless it may be any digit. -/
structure PairForm where
  tens : List Char
  ones : Option (List Char)

/-- `%m`, where it takes two characters. -/
def monthForms : List PairForm :=
  [⟨['1'], some ['0', '1', '2']⟩, ⟨['0'], some ['1', '2', '3', '4', '5', '6', '7', '8', '9']⟩]

/-- `%d`, where it takes two characters. -/
def dayForms : List PairForm :=
  [⟨['3'], some ['0', '1']⟩, ⟨['1', '2'], none⟩,
    ⟨['0'], some ['1', '2', '3', '4', '5', '6', '7', '8', '9']⟩]

/-- `%H`, where it takes two characters. -/
def hourForms : List PairForm :=
  [⟨['2'], some ['0', '1', '2', '3']⟩, ⟨['0', '1'], none⟩]

/-- `%M`, where it takes two characters. -/
def minuteForms : List PairForm :=
  [⟨['0', '1', '2', '3', '4', '5'], none⟩]

/-- `%S`, where it takes two characters. -/
def secondForms : List PairForm :=
  [⟨['6'], some ['0', '1']⟩, ⟨['0', '1', '2', '3', '4', '5'], none⟩]

/-- The number of a text's digits. -/
def numberOf (digits : List Char) : Option Nat :=
  digits.foldlM (fun number character => (digitOf library character).map (10 * number + ·)) 0

/-- The number of two characters of a form, and the rest of the text. -/
def readPair (forms : List PairForm) (text : List Char) : Option (Nat × List Char) :=
  match text with
  | tens :: ones :: rest =>
    if forms.any fun form => form.tens.contains tens && form.ones.all (·.contains ones) then
      (numberOf library [tens, ones]).map (·, rest)
    else none
  | _ => none

/-- `datetime.strptime(stamp, "%Y%m%d%H%M%S")` of fourteen digits, as a moment of the machine's zone.
A field that takes one character leaves some of the others over, which is an error. -/
def strptime (stamp : List Char) : Option Int := do
  let year ← numberOf library (stamp.take 4)
  let (month, rest) ← readPair library monthForms (stamp.drop 4)
  let (day, rest) ← readPair library dayForms rest
  let (hour, rest) ← readPair library hourForms rest
  let (minute, rest) ← readPair library minuteForms rest
  let (second, _) ← readPair library secondForms rest
  let date : CivilDate := ⟨year, month, day⟩
  if date.Valid ∧ second < 60 then
    some (days (date.ordinal - epochOrdinal) +
      ((hour * 3600 + minute * 60 + second : Nat) : Int) * 1000000)
  else none

/-- `_parse_stamp`. -/
def parseStamp (stamp : List Char) : Except PyError (Option Int) :=
  match strptime library stamp with
  | none => .ok none
  | some naive => (library.localToUtc naive).map some

/-! ### The scan -/

/-- `datetime.fromtimestamp(entry.stat().st_mtime, tz=UTC)`: an `OSError`, another error, or a
moment. -/
inductive ModifiedTime where
  | unreadable
  | outOfRange (error : PyError)
  | moment (modified : Int)

/-- An entry of the receipts directory; `is_dir()` is `none` when it raises an `OSError`. -/
structure DirectoryEntry where
  name : String
  isDir : Option Bool
  modified : ModifiedTime

/-- The receipts directory: missing, unreadable for an `OSError` of a class, or its entries. -/
inductive ReceiptsDirectory where
  | missing
  | unreadable (className : String)
  | holds (entries : List DirectoryEntry)

/-- `_is_skewed`. -/
def isSkewed (finishedAt modified : Int) : Bool :=
  if hours 1 < finishedAt - modified then true else decide (days 7 < modified - finishedAt)

/-- Whether an entry's name and its modification time disagree. -/
def skewOf (finishedAt : Int) : ModifiedTime → Except PyError Bool
  | .unreadable => .ok false
  | .outOfRange error => .error error
  | .moment modified => .ok (isSkewed finishedAt modified)

/-- What the loop over the entries makes of one. -/
inductive Scanned where
  | ignored
  | malformed (name : String)
  | receipt (receipt : BuildReceipt)

/-- One pass of the loop over the entries. -/
def scanEntry (entry : DirectoryEntry) : Except PyError Scanned :=
  match entry.isDir with
  | none => .ok (.malformed entry.name)
  | some false => .ok .ignored
  | some true =>
    match receiptParts library entry.name with
    | none => .ok (.malformed entry.name)
    | some (feature, stamp) => do
      match ← parseStamp library stamp with
      | none => return .malformed entry.name
      | some finishedAt =>
        let skewed ← skewOf finishedAt entry.modified
        return .receipt ⟨entry.name, feature, finishedAt, skewed⟩

def Scanned.malformed? : Scanned → Option String
  | malformed name => some name
  | _ => none

def Scanned.receipt? : Scanned → Option BuildReceipt
  | receipt found => some found
  | _ => none

/-- `scan_builds`, for a directory and its label. -/
def scanBuilds (directory : ReceiptsDirectory) (label : String) : Except PyError BuildScan :=
  match directory with
  | .missing => .ok {
      problem := some ("the build receipts directory does not exist, so the fence cannot tell " ++
        "whether builds have been running")
      path := label }
  | .unreadable className => .ok {
      problem := some ("the build receipts directory cannot be read (" ++ className ++
        "), so the fence cannot count builds")
      path := label }
  | .holds entries => do
    let sorted := entries.mergeSort fun one other => decide (one.name ≤ other.name)
    let scanned ← sorted.mapM (scanEntry library)
    let receipts := scanned.filterMap Scanned.receipt?
    return {
      receipts := receipts.mergeSort fun one other => decide (one.finishedAt ≤ other.finishedAt)
      malformed := scanned.filterMap Scanned.malformed?
      skewed := (receipts.filter BuildReceipt.skewed).map BuildReceipt.name
      path := label }

end

/-! ### What the scan reads -/

section

variable {library : ScanLibrary}

theorem ne_newline_of_digit {character : Char} (digit : (digitOf library character).isSome = true) :
    character ≠ '\n' := by
  rintro rfl
  exact absurd digit (by simp [digitOf])

/-- A name is that of a receipt when its stamp stands behind `build-`, a feature and a hyphen. -/
theorem receiptParts_eq_some {name feature : String} {stamp : List Char} :
    receiptParts library name = some (feature, stamp) ↔
      (name = "build-" ++ feature ++ "-" ++ String.ofList stamp ∨
        name = "build-" ++ feature ++ "-" ++ String.ofList stamp ++ "\n") ∧
      feature ≠ "" ∧ '\n' ∉ feature.toList ∧ stamp.length = 14 ∧
      ∀ character ∈ stamp, (digitOf library character).isSome = true := by
  have whole : ("build-" ++ feature ++ "-" ++ String.ofList stamp).toList =
      "build-".toList ++ (feature.toList ++ '-' :: stamp) := by simp
  constructor
  · intro found
    rw [receiptParts] at found
    obtain ⟨line, line_eq⟩ : ∃ line, line =
        (if name.toList.getLast? = some '\n' then name.toList.dropLast else name.toList) := ⟨_, rfl⟩
    rw [← line_eq] at found
    dsimp only at found
    split at found
    · rename_i begins
      split at found
      · rename_i shape
        obtain ⟨hyphen, nonempty, oneLine, long, digits⟩ := shape
        obtain ⟨same, stamp_eq⟩ := Prod.mk.inj (Option.some.inj found)
        obtain ⟨rest, rfl⟩ := List.isPrefixOf_iff_prefix.mp begins
        rw [List.drop_left] at hyphen nonempty oneLine long digits same stamp_eq
        have front := List.dropLast_append_getLast? '-' hyphen
        have spelled : feature.toList ++ '-' :: stamp = rest := by
          rw [← same, ← stamp_eq, String.toList_ofList, ← List.singleton_append,
            ← List.append_assoc, front, List.take_append_drop]
        refine ⟨?_, ?_, ?_, stamp_eq ▸ long, stamp_eq ▸ List.all_eq_true.mp digits⟩
        · split at line_eq
          · rename_i newline
            refine Or.inr (String.toList_inj.mp ?_)
            rw [String.toList_append, whole, spelled, line_eq]
            exact (List.dropLast_append_getLast? '\n' newline).symm
          · refine Or.inl (String.toList_inj.mp ?_)
            rw [whole, spelled, line_eq]
        · rw [← same]
          exact fun empty => nonempty (by simpa using congrArg String.toList empty)
        · rwa [← same, String.toList_ofList]
      · cases found
    · cases found
  · rintro ⟨named, nonempty, oneLine, long, digits⟩
    have last : ("build-".toList ++ (feature.toList ++ '-' :: stamp)).getLast? ≠ some '\n' := by
      rcases List.eq_nil_or_concat' stamp with rfl | ⟨more, digit, rfl⟩
      · cases long
      · have ends : ("build-".toList ++ (feature.toList ++ '-' :: (more ++ [digit]))).getLast? =
            some digit := by
          rw [← List.cons_append, ← List.append_assoc, ← List.append_assoc, List.getLast?_concat]
        rw [ends]
        exact fun same => ne_newline_of_digit (digits digit (by simp)) (Option.some.inj same)
    have line : (if name.toList.getLast? = some '\n' then name.toList.dropLast else name.toList) =
        "build-".toList ++ (feature.toList ++ '-' :: stamp) := by
      rcases named with rfl | rfl
      · rw [whole, if_neg last]
      · have newline : (("build-" ++ feature ++ "-" ++ String.ofList stamp) ++ "\n").toList =
            "build-".toList ++ (feature.toList ++ '-' :: stamp) ++ ['\n'] := by
          rw [String.toList_append, whole]
          rfl
        rw [newline, List.getLast?_concat, if_pos rfl, List.dropLast_concat]
    have front : (feature.toList ++ '-' :: stamp).length - 14 = (feature.toList ++ ['-']).length := by
      simp only [List.length_append, List.length_cons, List.length_nil, long]
      omega
    have parted : feature.toList ++ '-' :: stamp = (feature.toList ++ ['-']) ++ stamp := by simp
    have letters : feature.toList ≠ [] := fun empty => nonempty (String.toList_inj.mp empty)
    rw [receiptParts, line]
    dsimp only
    rw [if_pos (List.isPrefixOf_iff_prefix.mpr (List.prefix_append _ _)), List.drop_left, front,
      parted, List.take_left, List.drop_left, List.getLast?_concat, List.dropLast_concat,
      if_pos ⟨rfl, letters, oneLine, long, List.all_eq_true.mpr digits⟩, String.ofList_toList]

/-- The time at which an entry's build finished, if the entry is a receipt. -/
def finishedAt? (library : ScanLibrary) (entry : DirectoryEntry) : Option Int :=
  if entry.isDir = some true then
    match receiptParts library entry.name with
    | none => none
    | some (_, stamp) => (parseStamp library stamp).toOption.join
  else none

/-- An entry the scan returns on: where it is a receipt by its name, the machine's zone keeps its
time in the calendar, and its modification time is in it too. -/
def Scannable (library : ScanLibrary) (entry : DirectoryEntry) : Prop :=
  entry.isDir = some true → ∀ feature stamp, receiptParts library entry.name = some (feature, stamp) →
    ∀ naive, strptime library stamp = some naive →
      (∃ finishedAt, library.localToUtc naive = .ok finishedAt) ∧
        ∀ error, entry.modified ≠ .outOfRange error

theorem skewOf_returns_iff (finishedAt : Int) (modified : ModifiedTime) :
    Returns (skewOf finishedAt modified) ↔ ∀ error, modified ≠ .outOfRange error := by
  cases modified with
  | outOfRange error =>
    exact iff_of_false (not_returns_error error) fun inside => inside error rfl
  | unreadable => exact iff_of_true (returns_ok _) fun _ impossible => by cases impossible
  | moment modified => exact iff_of_true (returns_ok _) fun _ impossible => by cases impossible

/-- The scan returns on an entry exactly when it is scannable. -/
theorem scanEntry_returns_iff (entry : DirectoryEntry) :
    Returns (scanEntry library entry) ↔ Scannable library entry := by
  rw [scanEntry, Scannable]
  cases directory : entry.isDir with
  | none => exact iff_of_true (returns_ok _) fun impossible => by cases impossible
  | some isDir =>
    cases isDir with
    | false => exact iff_of_true (returns_ok _) fun impossible => by cases impossible
    | true =>
      cases parts : receiptParts library entry.name with
      | none => exact iff_of_true (returns_ok _) fun _ _ _ impossible => by cases impossible
      | some found =>
        obtain ⟨feature, stamp⟩ := found
        simp only [Option.some.injEq, Prod.mk.injEq, forall_const, and_imp]
        rw [returns_bind, parseStamp]
        cases naive : strptime library stamp with
        | none =>
          refine iff_of_true ⟨none, rfl, returns_ok _⟩ ?_
          rintro _ _ _ rfl other impossible
          rw [naive] at impossible
          cases impossible
        | some moment =>
          dsimp only
          constructor
          · rintro ⟨finished, converted, returns⟩ _ _ _ rfl other same
            obtain rfl := Option.some.inj (naive.symm.trans same)
            obtain ⟨finishedAt, local_, rfl⟩ := except_map_eq_ok.mp converted
            refine ⟨⟨finishedAt, local_⟩, (skewOf_returns_iff finishedAt _).mp ?_⟩
            obtain ⟨skewed, skew, -⟩ := returns_bind.mp returns
            exact ⟨skewed, skew⟩
          · intro scannable
            obtain ⟨⟨finishedAt, local_⟩, inside⟩ := scannable feature stamp rfl rfl moment naive
            refine ⟨some finishedAt, by rw [local_]; rfl, returns_bind.mpr ?_⟩
            obtain ⟨skewed, skew⟩ := (skewOf_returns_iff finishedAt entry.modified).mpr inside
            exact ⟨skewed, skew, returns_ok _⟩

/-- What the scan makes of an entry is a receipt exactly when the entry is one, with its time. -/
theorem finishedAt_of_scanEntry {entry : DirectoryEntry} {scanned : Scanned}
    (returned : scanEntry library entry = .ok scanned) :
    scanned.receipt?.map BuildReceipt.finishedAt = finishedAt? library entry := by
  rw [scanEntry] at returned
  rw [finishedAt?]
  cases directory : entry.isDir with
  | none =>
    rw [directory] at returned
    obtain rfl := Except.ok.inj returned
    rfl
  | some isDir =>
    rw [directory] at returned
    cases isDir with
    | false =>
      obtain rfl := Except.ok.inj returned
      rfl
    | true =>
      rw [if_pos rfl]
      dsimp only at returned
      cases parts : receiptParts library entry.name with
      | none =>
        rw [parts] at returned
        obtain rfl := Except.ok.inj returned
        rfl
      | some found =>
        obtain ⟨feature, stamp⟩ := found
        rw [parts] at returned
        obtain ⟨finished, converted, rest⟩ := except_bind_eq_ok.mp returned
        dsimp only
        rw [converted]
        cases finished with
        | none =>
          obtain rfl := Except.ok.inj rest
          rfl
        | some finishedAt =>
          obtain ⟨skewed, -, last⟩ := except_bind_eq_ok.mp rest
          obtain rfl := Except.ok.inj last
          rfl

/-- The builds that finished since a moment are counted exactly. -/
theorem countP_receipts {entries : List DirectoryEntry} {scanned : List Scanned}
    (returned : entries.mapM (scanEntry library) = .ok scanned) (moment : Int) :
    (scanned.filterMap Scanned.receipt?).countP (fun receipt => moment ≤ receipt.finishedAt) =
      entries.countP fun entry => (finishedAt? library entry).any fun time => moment ≤ time := by
  induction except_mapM_eq_ok.mp returned with
  | nil => rfl
  | @cons entry found rest others here later inductionHypothesis =>
    have time := finishedAt_of_scanEntry here
    rw [List.countP_cons, ← inductionHypothesis (except_mapM_eq_ok.mpr later), ← time,
      List.filterMap_cons]
    cases found.receipt? with
    | none => simp
    | some receipt => simp [List.countP_cons]

/-- The scan returns on a directory exactly when it returns on each of its entries. -/
theorem scanBuilds_returns_iff (directory : ReceiptsDirectory) (label : String) :
    Returns (scanBuilds library directory label) ↔
      ∀ entries, directory = .holds entries → ∀ entry ∈ entries, Scannable library entry := by
  cases directory with
  | missing => exact iff_of_true (returns_ok _) fun _ impossible => by cases impossible
  | unreadable className => exact iff_of_true (returns_ok _) fun _ impossible => by cases impossible
  | holds entries =>
    simp only [ReceiptsDirectory.holds.injEq, forall_eq']
    have raises : Returns (scanBuilds library (.holds entries) label) ↔
        ¬∃ error, (entries.mergeSort fun one other => decide (one.name ≤ other.name)).mapM
          (scanEntry library) = .error error := by
      rw [scanBuilds, returns_bind]
      cases ((entries.mergeSort fun one other => decide (one.name ≤ other.name)).mapM
          (scanEntry library)) with
      | error error =>
        refine iff_of_false ?_ fun none_raised => none_raised ⟨error, rfl⟩
        rintro ⟨found, impossible, -⟩
        cases impossible
      | ok scanned =>
        refine iff_of_true ⟨scanned, rfl, returns_ok _⟩ ?_
        rintro ⟨error, impossible⟩
        cases impossible
    rw [raises, except_mapM_raises_iff]
    simp only [List.mem_mergeSort, not_exists, not_and]
    refine forall₂_congr fun entry _ => ?_
    rw [← scanEntry_returns_iff]
    cases scanEntry library entry with
    | error error => exact iff_of_false (fun all => all error rfl) (not_returns_error error)
    | ok scanned => exact iff_of_true (fun _ impossible => by cases impossible) (returns_ok scanned)

/-- A scan that sees the directory has its entries' builds. -/
theorem scanBuilds_eq_ok {directory : ReceiptsDirectory} {label : String} {scan : BuildScan}
    (returned : scanBuilds library directory label = .ok scan) :
    scan.problem.isSome = true ∧ (∀ entries, directory ≠ .holds entries) ∨
    scan.problem = none ∧ ∃ entries, directory = .holds entries ∧ ∀ moment : Int,
      scan.receipts.countP (fun receipt => moment ≤ receipt.finishedAt) =
        entries.countP fun entry => (finishedAt? library entry).any fun time => moment ≤ time := by
  cases directory with
  | missing =>
    obtain rfl := Except.ok.inj returned
    exact Or.inl ⟨rfl, fun _ impossible => by cases impossible⟩
  | unreadable className =>
    obtain rfl := Except.ok.inj returned
    exact Or.inl ⟨rfl, fun _ impossible => by cases impossible⟩
  | holds entries =>
    obtain ⟨scanned, each, last⟩ := except_bind_eq_ok.mp returned
    obtain rfl := Except.ok.inj last
    refine Or.inr ⟨rfl, entries, rfl, fun moment => ?_⟩
    dsimp only
    rw [(List.mergeSort_perm _ _).countP_eq, countP_receipts each,
      (List.mergeSort_perm _ _).countP_eq]

end

/-! ### The store's facts -/

/-- A row of `store` with the columns the fence asks for. -/
structure AgedRow where
  storePrefix : String
  updatedAt : Option Int
  createdAt : Option Int

/-- An exception of the driver: `type(exc).__name__` and `str(exc)`. -/
structure DriverError where
  className : String
  text : String

/-- `max(updated_at), max(created_at), count(*)`. -/
structure AgeRow where
  newestUpdatedAt : Option Int
  newestCreatedAt : Option Int
  rowCount : Nat

/-- `max` of a column, which is NULL when no row has a value. -/
def newestOf (column : AgedRow → Option Int) (rows : List AgedRow) : Option Int :=
  (rows.filterMap column).max?

/-- The aggregates of the rows of a query. -/
def ageRow (rows : List AgedRow) : AgeRow where
  newestUpdatedAt := newestOf AgedRow.updatedAt rows
  newestCreatedAt := newestOf AgedRow.createdAt rows
  rowCount := rows.length

/-- What the fence runs on its connection. -/
abbrev AgeDriver := Sql.Driver (List AgedRow) DriverError

/-- `conn.cursor()`, or a statement of the session. -/
def sessionCall : AgeDriver Unit :=
  Sql.call fun rows => .ok ((), rows)

/-- `READ_ONLY_SESSION_SQL`, statement after statement. -/
def setSession : AgeDriver Unit := do
  sessionCall
  sessionCall
  sessionCall

/-- `cur.execute` of an aggregate over the rows that are selected, and `cur.fetchone()`. -/
def ageQuery (selects : String → Bool) : AgeDriver AgeRow := do
  let selected ← Sql.call fun rows =>
    .ok (ageRow (rows.filter fun row => selects row.storePrefix), rows)
  Sql.call fun rows => .ok (selected, rows)

/-- The facts of one watched project. -/
def projectQuery (project : String) : AgeDriver ProjectFacts := do
  let row ← ageQuery fun storePrefix => (matchClause (projectPatterns project) storePrefix).selects
  return ⟨project, row.newestUpdatedAt, row.newestCreatedAt, row.rowCount⟩

/-- The facts of the watched projects, one after the other. -/
def projectQueries : List String → AgeDriver (List ProjectFacts)
  | [] => return []
  | project :: rest => do
    let facts ← projectQuery project
    let others ← projectQueries rest
    return facts :: others

/-- The calls on the connection. -/
def ageCalls (projects : List String) : AgeDriver (AgeRow × List ProjectFacts) := do
  sessionCall
  setSession
  let row ← ageQuery fun _ => true
  let perProject ← projectQueries projects
  return (row, perProject)

/-- The way to a store: its name, what connecting to it gives, and the fates of the calls on the
connection. -/
structure StoreAccess where
  dsn : String
  parseConninfo : String → List (String × String)
  connect : Except DriverError Unit
  faults : List (Option DriverError)

namespace StoreAccess

variable (access : StoreAccess)

/-- `sanitize_target`. -/
def target : String :=
  sanitizeTarget access.parseConninfo access.dsn

/-- `detail or type(exc).__name__`. -/
def detail (error : DriverError) : String :=
  let detail := Text.strip (scrubSecrets access.parseConninfo error.text access.dsn)
  if detail = "" then error.className else detail

end StoreAccess

/-- `read_store_facts`, with the rows that stand in the store after it. -/
def readStoreFacts (access : StoreAccess) (projects : List String) (rows : List AgedRow) :
    StoreFacts × List AgedRow :=
  match access.connect with
  | .error error => ({
      target := access.target
      reachable := false
      problem := some ("cannot reach the memory store at " ++ access.target ++ " (" ++
        access.detail error ++ ")") }, rows)
  | .ok _ =>
    match Sql.runIn (ageCalls projects) ⟨rows, rows, access.faults⟩ with
    | (.ok (row, perProject), session) => ({
        target := access.target
        reachable := true
        newestUpdatedAt := row.newestUpdatedAt
        newestCreatedAt := row.newestCreatedAt
        rowCount := row.rowCount
        perProject := perProject }, session.committed)
    | (.error error, session) => ({
        target := access.target
        reachable := false
        problem := some ("the memory store at " ++ access.target ++ " could not be queried (" ++
          access.detail error ++ ")") }, session.committed)

/-! ### What the facts are -/

/-- The facts of a project in some rows. -/
def projectFactsOf (rows : List AgedRow) (project : String) : ProjectFacts :=
  let row := ageRow (rows.filter fun row =>
    (matchClause (projectPatterns project) row.storePrefix).selects)
  ⟨project, row.newestUpdatedAt, row.newestCreatedAt, row.rowCount⟩

/-- The store answers: the connection is made, and none of the calls on it fails. -/
def StoreAccess.Answers (access : StoreAccess) (projects : List String) : Prop :=
  access.connect = .ok () ∧ ∀ fault ∈ access.faults.take (6 + 2 * projects.length), fault = none

section

variable {access : StoreAccess} {projects : List String} {rows : List AgedRow}

theorem makes_sessionCall : Sql.Makes 1 sessionCall :=
  Sql.makes_call fun _ => rfl

theorem makes_ageQuery (selects : String → Bool) : Sql.Makes 2 (ageQuery selects) :=
  (Sql.makes_call fun _ => rfl).bind fun _ => Sql.makes_call fun _ => rfl

theorem makes_projectQueries (projects : List String) :
    Sql.Makes (2 * projects.length) (projectQueries projects) := by
  induction projects with
  | nil => exact Sql.makes_pure []
  | cons project rest inductionHypothesis =>
    have first : Sql.Makes 2 (projectQuery project) :=
      (makes_ageQuery _).bind fun _ => Sql.makes_pure _
    have others := fun facts : ProjectFacts =>
      inductionHypothesis.bind fun others => Sql.makes_pure (facts :: others)
    have count : 2 * (project :: rest).length = 2 + (2 * rest.length + 0) := by
      rw [List.length_cons]
      omega
    rw [count]
    exact first.bind others

theorem makes_ageCalls (projects : List String) :
    Sql.Makes (6 + 2 * projects.length) (ageCalls projects) := by
  have session : Sql.Makes 3 setSession :=
    makes_sessionCall.bind fun _ => makes_sessionCall.bind fun _ => makes_sessionCall
  have count : 6 + 2 * projects.length = 1 + (3 + (2 + (2 * projects.length + 0))) := by omega
  rw [count]
  exact makes_sessionCall.bind fun _ => session.bind fun _ => (makes_ageQuery _).bind fun _ =>
    (makes_projectQueries projects).bind fun _ => Sql.makes_pure _

theorem runIn_ageQuery (selects : String → Bool) : Sql.runIn (ageQuery selects) ⟨rows, rows, []⟩ =
    (.ok (ageRow (rows.filter fun row => selects row.storePrefix)), ⟨rows, rows, []⟩) := rfl

theorem runIn_projectQueries (projects : List String) :
    Sql.runIn (projectQueries projects) ⟨rows, rows, []⟩ =
      (.ok (projects.map (projectFactsOf rows)), ⟨rows, rows, []⟩) := by
  induction projects with
  | nil => rfl
  | cons project rest inductionHypothesis =>
    rw [projectQueries, Sql.runIn_bind, projectQuery, Sql.runIn_bind, runIn_ageQuery]
    dsimp only
    rw [Sql.runIn_pure]
    dsimp only
    rw [Sql.runIn_bind, inductionHypothesis]
    rfl

/-- The calls of a connection on which none fails. -/
theorem runIn_ageCalls (projects : List String) : Sql.runIn (ageCalls projects) ⟨rows, rows, []⟩ =
    (.ok (ageRow rows, projects.map (projectFactsOf rows)), ⟨rows, rows, []⟩) := by
  have every : rows.filter (fun _ => true) = rows := List.filter_eq_self.mpr fun _ _ => rfl
  unfold ageCalls setSession sessionCall
  rw [Sql.runIn_call_bind rfl, Sql.runIn_bind, Sql.runIn_call_bind rfl, Sql.runIn_call_bind rfl]
  have last : Sql.runIn (Sql.call fun rows => .ok ((), rows) : AgeDriver Unit) ⟨rows, rows, []⟩ =
    (.ok (), ⟨rows, rows, []⟩) := rfl
  rw [last]
  dsimp only
  rw [Sql.runIn_bind, runIn_ageQuery]
  dsimp only
  rw [Sql.runIn_bind, runIn_projectQueries, every]
  rfl

theorem onlyRaises_ageCalls (projects : List String) : Sql.OnlyRaises (ageCalls projects) := by
  have call : Sql.OnlyRaises sessionCall := Sql.onlyRaises_call _
  have query (selects : String → Bool) : Sql.OnlyRaises (ageQuery selects) :=
    (Sql.onlyRaises_call _).bind fun _ => Sql.onlyRaises_call _
  have queries : Sql.OnlyRaises (projectQueries projects) := by
    induction projects with
    | nil => exact Sql.onlyRaises_pure []
    | cons project rest inductionHypothesis =>
      exact ((query _).bind fun _ => Sql.onlyRaises_pure _).bind fun _ =>
        inductionHypothesis.bind fun _ => Sql.onlyRaises_pure _
  exact call.bind fun _ => (call.bind fun _ => call.bind fun _ => call).bind fun _ =>
    (query _).bind fun _ => queries.bind fun _ => Sql.onlyRaises_pure _

theorem keepsCommitted_ageCalls (projects : List String) :
    Sql.KeepsCommitted (ageCalls projects) := by
  have call : Sql.KeepsCommitted sessionCall := Sql.keepsCommitted_call _
  have query (selects : String → Bool) : Sql.KeepsCommitted (ageQuery selects) :=
    (Sql.keepsCommitted_call _).bind fun _ => Sql.keepsCommitted_call _
  have queries : Sql.KeepsCommitted (projectQueries projects) := by
    induction projects with
    | nil => exact Sql.keepsCommitted_pure []
    | cons project rest inductionHypothesis =>
      exact ((query _).bind fun _ => Sql.keepsCommitted_pure _).bind fun _ =>
        inductionHypothesis.bind fun _ => Sql.keepsCommitted_pure _
  exact call.bind fun _ => (call.bind fun _ => call.bind fun _ => call).bind fun _ =>
    (query _).bind fun _ => queries.bind fun _ => Sql.keepsCommitted_pure _

/-- The fence leaves the store as it is. -/
theorem rows_readStoreFacts : (readStoreFacts access projects rows).2 = rows := by
  rw [readStoreFacts]
  split
  · rfl
  · have kept := keepsCommitted_ageCalls projects ⟨rows, rows, access.faults⟩
    split <;> rename_i ended <;> rw [ended] at kept <;> exact kept

/-- The facts of a store that answers are those of its rows; otherwise the store is not reachable. -/
theorem readStoreFacts_cases :
    (access.Answers projects ∧ (readStoreFacts access projects rows).1 = {
        target := access.target
        reachable := true
        newestUpdatedAt := newestOf AgedRow.updatedAt rows
        newestCreatedAt := newestOf AgedRow.createdAt rows
        rowCount := rows.length
        perProject := projects.map (projectFactsOf rows) }) ∨
    (¬access.Answers projects ∧ (readStoreFacts access projects rows).1.reachable = false) := by
  have answers := (makes_ageCalls projects ⟨rows, rows, access.faults⟩).1
  rw [readStoreFacts, StoreAccess.Answers]
  cases access.connect with
  | error error =>
    refine Or.inr ⟨fun both => ?_, rfl⟩
    cases both.1
  | ok connected =>
    dsimp only
    split
    · rename_i row perProject session ended
      have faultless := onlyRaises_ageCalls projects _ _ _ ended
      dsimp only at faultless
      rw [runIn_ageCalls] at faultless
      obtain ⟨rfl, rfl⟩ := Prod.mk.inj (Except.ok.inj (Prod.mk.inj faultless).1)
      rw [ended] at answers
      exact Or.inl ⟨⟨rfl, answers.mp rfl⟩, rfl⟩
    · rename_i error session ended
      rw [ended] at answers
      exact Or.inr ⟨fun both => absurd (answers.mpr both.2) Bool.false_ne_true, rfl⟩

end

end FleetMemory.Fence
