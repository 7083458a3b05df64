/-
This file models the temporal cut of a fixture's store and proves it exact, atomic and
idempotent. The counts, the two deletes and the join evaluate one condition on the date in
a row's own value, which is NULL when there is none; the file relates each to what the cut
is for: no row remains that is not dated before the cut.
-/

import FleetMemory.Errors
import FleetMemory.Sql
import Mathlib.Data.Int.Order.Basic
import Mathlib.Order.Lattice

namespace FleetMemory

/-! ### The cut instant -/

/-- `datetime.date`. -/
structure PyDate where
  year : Nat
  month : Nat
  day : Nat
deriving DecidableEq, Repr

/-- A `datetime`: its `isoformat()`, and the instant it names unless it is naive. -/
structure PyDatetime (Instant : Type) where
  isoformat : String
  instant : Option Instant

/-- `datetime(year, month, day, tzinfo=UTC)`, `date.fromisoformat` and `datetime.fromisoformat`; a
text these refuse yields none. -/
structure DatetimeLibrary (Instant : Type) where
  midnight : PyDate → Instant
  dateFromIsoformat : String → Option PyDate
  datetimeFromIsoformat : String → Option (PyDatetime Instant)

/-- What may be given as a cut. -/
inductive Cut (Instant : Type) where
  | datetime (value : PyDatetime Instant)
  | date (value : PyDate)
  | text (value : String)
  | other (typeName : String)

/-- `FixtureError` and its `InvalidCutDateError`. -/
inductive FixtureError where
  | invalidCutDate (detail : String)
  | failed (message : String)
deriving DecidableEq, Repr

/-- `str(error)`. -/
def FixtureError.text : FixtureError → String
  | invalidCutDate detail => "Invalid cut date" ++ (if detail.isEmpty then "" else ": " ++ detail)
  | failed message => message

section

variable {Instant : Type} (runtime : Runtime) (datetimes : DatetimeLibrary Instant)

/-- `normalize_cut` of a `datetime`. -/
def normalizeDatetime (cut : PyDatetime Instant) : Except FixtureError Instant :=
  match cut.instant with
  | none => .error (.invalidCutDate ("naive datetime " ++ runtime.repr cut.isoformat ++
      "; the cut instant must be timezone-aware"))
  | some instant => .ok instant

/-- `normalize_cut`. -/
def normalizeCut : Cut Instant → Except FixtureError Instant
  | .datetime cut => normalizeDatetime runtime cut
  | .date cut => .ok (datetimes.midnight cut)
  | .text cut =>
    let text := Text.strip cut
    if text.isEmpty then .error (.invalidCutDate "empty cut value")
    else
      match datetimes.dateFromIsoformat text with
      | some parsed => .ok (datetimes.midnight parsed)
      | none =>
        match datetimes.datetimeFromIsoformat text with
        | some parsed => normalizeDatetime runtime parsed
        | none => .error (.invalidCutDate ("unparsable cut value " ++ runtime.repr text))
  | .other typeName =>
    .error (.invalidCutDate ("unsupported cut type " ++ runtime.repr typeName))

end

/-! ### Credential hygiene -/

/-- `text.replace(old, new)` on the characters of a text, past the ones to skip. -/
def replaceFrom (old new : List Char) : Nat → List Char → List Char
  | _, [] => []
  | skipped + 1, _ :: rest => replaceFrom old new skipped rest
  | 0, character :: rest =>
    if old.isPrefixOf (character :: rest) then new ++ replaceFrom old new (old.length - 1) rest
    else character :: replaceFrom old new 0 rest

/-- `text.replace(old, new)`. -/
def pyReplace (text old new : String) : String :=
  if old.isEmpty then
    new ++ String.ofList (text.toList.flatMap fun character => character :: new.toList)
  else String.ofList (replaceFrom old.toList new.toList 0 text.toList)

section

variable (parseConninfo : String → List (String × String))

/-- `info.get(name) or default`. -/
def conninfoOr (dsn name default : String) : String :=
  match (parseConninfo dsn).lookup name with
  | some value => if value.isEmpty then default else value
  | none => default

/-- `sanitize_target`. -/
def sanitizeTarget (dsn : String) : String :=
  conninfoOr parseConninfo dsn "host" "localhost" ++ ":" ++
    conninfoOr parseConninfo dsn "port" "5432" ++ "/" ++ conninfoOr parseConninfo dsn "dbname" ""

/-- `scrub_secrets`. -/
def scrubSecrets (text dsn : String) : String :=
  if text.isEmpty then ""
  else
    let scrubbed := pyReplace text dsn "<dsn>"
    let password := conninfoOr parseConninfo dsn "password" ""
    if password.isEmpty then scrubbed else pyReplace scrubbed password "***"

end

/-! ### The tables -/

/-- A row of `store`: its primary key, its JSONB value, and its other columns. -/
structure StoreRow (Columns : Type) where
  storePrefix : String
  key : String
  value : PyValue
  columns : Columns

/-- A row of `store_vectors`: the entry it is about, and its other columns. -/
structure VectorRow (Columns : Type) where
  storePrefix : String
  key : String
  columns : Columns
deriving DecidableEq

/-- The two tables. -/
structure StoreTables (StoreColumns VectorColumns : Type) where
  store : List (StoreRow StoreColumns)
  vectors : List (VectorRow VectorColumns)

/-- The database: `text::timestamptz` under the session's time zone, the text of a JSON value that
is neither null nor a string, and whether deleting an entry deletes its vectors. -/
structure Postgres (Instant : Type) where
  timestamptz : String → Except String Instant
  jsonText : PyValue → String
  cascades : Bool

section

variable {Instant : Type} [LinearOrder Instant] (postgres : Postgres Instant)
  {StoreColumns VectorColumns : Type}

/-- The value at the end of a JSONB path whose steps are no list indices. -/
def jsonPath : List String → PyValue → Option PyValue
  | [], value => some value
  | name :: rest, .dict entries =>
    match PyDict.get entries name with
    | some value => jsonPath rest value
    | none => none
  | _ :: _, _ => none

/-- `value #>> '{episode_meta,occurred_at}'`. -/
def occurredAtExpr (value : PyValue) : Option String :=
  match jsonPath ["episode_meta", "occurred_at"] value with
  | some .none => none
  | some (.str text) => some text
  | some other => some (postgres.jsonText other)
  | none => none

/-- `(…)::timestamptz >= %(cut)s`. -/
def afterCutPredicate (cutAt : Instant) (value : PyValue) : Except String Sql.Truth := do
  let occurredAt ← (occurredAtExpr postgres value).mapM postgres.timestamptz
  return Sql.Truth.compare (fun left right => decide (right ≤ left)) occurredAt (some cutAt)

/-- `(…) IS NULL`. -/
def nullPredicate (value : PyValue) : Sql.Truth :=
  Sql.Truth.isNull (occurredAtExpr postgres value)

/-- The two predicates, joined by `OR`. -/
def excludedPredicate (cutAt : Instant) (value : PyValue) : Except String Sql.Truth :=
  (afterCutPredicate postgres cutAt value).map fun truth =>
    truth.or (nullPredicate postgres value)

/-- `v.prefix = s.prefix AND v.key = s.key`. -/
def joins (vector : VectorRow VectorColumns) (row : StoreRow StoreColumns) : Bool :=
  vector.storePrefix == row.storePrefix && vector.key == row.key

/-! ### The statements -/

/-- The statements of the cut. -/
inductive CutStatement where
  | session
  | countAfterCut
  | countNull
  | countTotal
  | deleteVectors
  | deleteStore

/-- What a statement does to the tables, with the count it selects, if it does. -/
def CutStatement.effect (cutAt : Instant) (tables : StoreTables StoreColumns VectorColumns) :
    CutStatement → Except String (Option Nat × StoreTables StoreColumns VectorColumns)
  | session => .ok (none, tables)
  | countAfterCut => do
    let counted ← Sql.count (fun row => afterCutPredicate postgres cutAt row.value) tables.store
    return (some counted, tables)
  | countNull => do
    let counted ← Sql.count (fun row => .ok (nullPredicate postgres row.value)) tables.store
    return (some counted, tables)
  | countTotal => .ok (some tables.store.length, tables)
  | deleteVectors => do
    let vectors ← Sql.deleteUsing joins
      (fun row => excludedPredicate postgres cutAt row.value) tables.vectors tables.store
    return (none, { tables with vectors })
  | deleteStore => do
    let store ← Sql.delete (fun row => excludedPredicate postgres cutAt row.value) tables.store
    let vectors ←
      if postgres.cascades then
        Sql.deleteUsing joins (fun row => excludedPredicate postgres cutAt row.value)
          tables.vectors tables.store
      else pure tables.vectors
    return (none, { store, vectors })

/-- `CutResult`. -/
structure CutResult where
  excludedAfterCut : Int
  excludedNull : Int
  remaining : Int
deriving DecidableEq, Repr

abbrev CutDriver (StoreColumns VectorColumns : Type) :=
  Sql.Driver (StoreTables StoreColumns VectorColumns) String

/-- `conn.cursor()`. -/
def openCursor : CutDriver StoreColumns VectorColumns Unit :=
  Sql.call fun tables => .ok ((), tables)

/-- `cur.execute`. -/
def execute (cutAt : Instant) (statement : CutStatement) :
    CutDriver StoreColumns VectorColumns (Option Nat) :=
  Sql.call fun tables => statement.effect postgres cutAt tables

/-- `int(cur.fetchone()[0])`. -/
def fetchone (selected : Option Nat) : CutDriver StoreColumns VectorColumns Int :=
  Sql.call fun tables =>
    match selected with
    | some counted => .ok (counted, tables)
    | none => .error "the last operation didn't produce records"

/-- The two counts of the rows to exclude. -/
def countExcluded (cutAt : Instant) : CutDriver StoreColumns VectorColumns (Int × Int) := do
  openCursor
  let _ ← execute postgres cutAt .session
  let excludedAfterCut ← fetchone (← execute postgres cutAt .countAfterCut)
  let excludedNull ← fetchone (← execute postgres cutAt .countNull)
  return (excludedAfterCut, excludedNull)

/-- The preview. -/
def previewCut (cutAt : Instant) : CutDriver StoreColumns VectorColumns CutResult := do
  let (excludedAfterCut, excludedNull) ← countExcluded postgres cutAt
  let total ← fetchone (← execute postgres cutAt .countTotal)
  Sql.rollback
  return { excludedAfterCut, excludedNull, remaining := total - excludedAfterCut - excludedNull }

/-- The deletes, up to their commit. -/
def deleteExcluded (cutAt : Instant) : CutDriver StoreColumns VectorColumns CutResult := do
  let (excludedAfterCut, excludedNull) ← countExcluded postgres cutAt
  let _ ← execute postgres cutAt .deleteVectors
  let _ ← execute postgres cutAt .deleteStore
  let remaining ← fetchone (← execute postgres cutAt .countTotal)
  return { excludedAfterCut, excludedNull, remaining }

/-- The calls on the connection. -/
def cutCalls (cutAt : Instant) (dryRun : Bool) :
    CutDriver StoreColumns VectorColumns CutResult :=
  if dryRun then previewCut postgres cutAt
  else do
    let result ← deleteExcluded postgres cutAt
    Sql.commit
    return result

/-- Where and how to connect: the DSN and what psycopg parses of it, how the connection ends, and
the fates of its calls. -/
structure CutTarget where
  dsn : String
  parseConninfo : String → List (String × String)
  connect : Except String Unit
  faults : List (Option String)

/-- `apply_temporal_cut`, with the tables others see after it. -/
def applyTemporalCut (runtime : Runtime) (datetimes : DatetimeLibrary Instant) (target : CutTarget)
    (cut : Cut Instant) (dryRun : Bool) (tables : StoreTables StoreColumns VectorColumns) :
    Except FixtureError CutResult × StoreTables StoreColumns VectorColumns :=
  match normalizeCut runtime datetimes cut with
  | .error error => (.error error, tables)
  | .ok cutAt =>
    let label := sanitizeTarget target.parseConninfo target.dsn
    match target.connect with
    | .error text => (.error (.failed ("Cannot connect to " ++ label ++ ": " ++
        scrubSecrets target.parseConninfo text target.dsn)), tables)
    | .ok _ =>
      match Sql.runIn (cutCalls postgres cutAt dryRun) ⟨tables, tables, target.faults⟩ with
      | (.ok result, session) => (.ok result, session.committed)
      | (.error text, session) => (.error (.failed ("Temporal cut on " ++ label ++ " failed: " ++
          scrubSecrets target.parseConninfo text target.dsn)), session.committed)

/-! ### What the cut is for -/

/-- Every date of an entry casts to a timestamp. -/
def Castable (rows : List (StoreRow StoreColumns)) : Prop :=
  ∀ row ∈ rows, ∀ text, occurredAtExpr postgres row.value = some text →
    ∃ instant, postgres.timestamptz text = .ok instant

/-- The instant an entry is dated to, if it is. -/
def dateOf (row : StoreRow StoreColumns) : Option Instant :=
  match occurredAtExpr postgres row.value with
  | some text => (postgres.timestamptz text).toOption
  | none => none

/-- The entry is dated before the cut. -/
def datedBefore (cutAt : Instant) (row : StoreRow StoreColumns) : Bool :=
  (dateOf postgres row).any fun instant => decide (instant < cutAt)

/-- The entry is dated, at the cut or after it. -/
def datedFrom (cutAt : Instant) (row : StoreRow StoreColumns) : Bool :=
  (dateOf postgres row).any fun instant => decide (cutAt ≤ instant)

/-- The entry is not dated. -/
def undated (row : StoreRow StoreColumns) : Bool :=
  (occurredAtExpr postgres row.value).isNone

/-- The tables a cut leaves: the entries dated before it, and the vectors of no removed entry. -/
def cutTables (cutAt : Instant) (tables : StoreTables StoreColumns VectorColumns) :
    StoreTables StoreColumns VectorColumns where
  store := tables.store.filter (datedBefore postgres cutAt)
  vectors := tables.vectors.filter fun vector =>
    !(tables.store.filter fun row => !datedBefore postgres cutAt row).any (joins vector)

/-- The counts of a cut. -/
def cutCounts (cutAt : Instant) (rows : List (StoreRow StoreColumns)) : CutResult where
  excludedAfterCut := (rows.countP (datedFrom postgres cutAt) : Nat)
  excludedNull := (rows.countP (undated postgres) : Nat)
  remaining := (rows.filter (datedBefore postgres cutAt)).length

end

section

variable {Instant : Type} [LinearOrder Instant] {postgres : Postgres Instant}
  {StoreColumns VectorColumns : Type} {cutAt : Instant}
  {tables : StoreTables StoreColumns VectorColumns} {row : StoreRow StoreColumns}
  {rows : List (StoreRow StoreColumns)}

theorem datedBefore_iff : datedBefore postgres cutAt row = true ↔
    ∃ text instant, occurredAtExpr postgres row.value = some text ∧
      postgres.timestamptz text = .ok instant ∧ instant < cutAt := by
  rw [datedBefore, dateOf]
  cases found : occurredAtExpr postgres row.value with
  | none => simp
  | some text =>
    cases cast : postgres.timestamptz text with
    | error error => simp [cast, Except.toOption]
    | ok instant => simp [cast, Except.toOption]

omit [LinearOrder Instant] in
theorem Castable.sublist {fewer : List (StoreRow StoreColumns)} (castable : Castable postgres rows)
    (sublist : fewer ⊆ rows) : Castable postgres fewer :=
  fun row member => castable row (sublist member)

/-- An entry is dated from the cut on, undated, or dated before it. -/
theorem Castable.sorts (castable : Castable postgres rows) (member : row ∈ rows) :
    (datedFrom postgres cutAt row || undated postgres row) = !datedBefore postgres cutAt row := by
  rw [datedFrom, undated, datedBefore, dateOf]
  cases found : occurredAtExpr postgres row.value with
  | none => rfl
  | some text =>
    obtain ⟨instant, cast⟩ := castable row member text found
    simp [cast, Except.toOption, ← not_lt]

theorem not_undated_of_datedFrom (dated : datedFrom postgres cutAt row = true) :
    undated postgres row = false := by
  rw [datedFrom, dateOf] at dated
  rw [undated]
  cases found : occurredAtExpr postgres row.value with
  | none => simp [found] at dated
  | some text => rfl

/-- What the comparison with the cut is of an entry. -/
def afterCutTruth (postgres : Postgres Instant) (cutAt : Instant) (row : StoreRow StoreColumns) :
    Sql.Truth :=
  Sql.Truth.compare (fun left right => decide (right ≤ left)) (dateOf postgres row) (some cutAt)

theorem afterCutPredicate_eq_ok (castable : Castable postgres rows) (member : row ∈ rows) :
    afterCutPredicate postgres cutAt row.value = .ok (afterCutTruth postgres cutAt row) := by
  rw [afterCutPredicate, afterCutTruth, dateOf]
  cases found : occurredAtExpr postgres row.value with
  | none => rfl
  | some text =>
    obtain ⟨instant, cast⟩ := castable row member text found
    rw [Option.mapM_some, cast]
    dsimp only
    rw [cast]
    rfl

theorem excludedPredicate_eq_ok (castable : Castable postgres rows) (member : row ∈ rows) :
    excludedPredicate postgres cutAt row.value =
      .ok ((afterCutTruth postgres cutAt row).or (nullPredicate postgres row.value)) := by
  rw [excludedPredicate, afterCutPredicate_eq_ok castable member]
  rfl

@[simp] theorem selects_afterCutTruth :
    (afterCutTruth postgres cutAt row).selects = datedFrom postgres cutAt row := by
  rw [afterCutTruth, datedFrom]
  cases dateOf postgres row with
  | none => rfl
  | some instant => simp [Sql.Truth.compare, Sql.Truth.selects]

omit [LinearOrder Instant] in
@[simp] theorem selects_nullPredicate :
    (nullPredicate postgres row.value).selects = undated postgres row := by
  rw [nullPredicate, Sql.Truth.selects_isNull, undated]

/-- The condition of the deletes selects the entries that are not dated before the cut. -/
theorem selects_excluded (castable : Castable postgres rows) (member : row ∈ rows) :
    ((afterCutTruth postgres cutAt row).or (nullPredicate postgres row.value)).selects =
      !datedBefore postgres cutAt row := by
  rw [Sql.Truth.selects_or, selects_afterCutTruth, selects_nullPredicate, castable.sorts member]

/-- The excluded entries and the others make up the entries. -/
theorem counts_add_up (castable : Castable postgres rows) :
    (cutCounts postgres cutAt rows).excludedAfterCut + (cutCounts postgres cutAt rows).excludedNull +
      (cutCounts postgres cutAt rows).remaining = rows.length := by
  dsimp only [cutCounts]
  induction rows with
  | nil => rfl
  | cons row rest inductionHypothesis =>
    have rests := inductionHypothesis (castable.sublist (List.subset_cons_self row rest))
    have sorted := @Castable.sorts _ _ postgres _ cutAt row _ castable List.mem_cons_self
    rw [List.countP_cons, List.countP_cons, List.filter_cons, List.length_cons]
    cases before : datedBefore postgres cutAt row with
    | true =>
      simp only [before, Bool.not_true, Bool.or_eq_false_iff] at sorted
      simp only [sorted, if_true, Bool.false_eq_true, if_false, List.length_cons]
      omega
    | false =>
      cases dated : datedFrom postgres cutAt row with
      | true =>
        have undated := not_undated_of_datedFrom dated
        simp only [undated, if_true, Bool.false_eq_true, if_false]
        omega
      | false =>
        simp only [before, dated, Bool.not_false, Bool.false_or] at sorted
        simp only [sorted, if_true, Bool.false_eq_true, if_false]
        omega

/-! ### What the statements do -/

theorem effect_countAfterCut (castable : Castable postgres tables.store) :
    CutStatement.effect postgres cutAt tables .countAfterCut =
      .ok (some (tables.store.countP (datedFrom postgres cutAt)), tables) := by
  rw [CutStatement.effect, Sql.count_eq_ok fun row member =>
    afterCutPredicate_eq_ok castable member]
  simp only [selects_afterCutTruth]
  rfl

theorem effect_countNull :
    CutStatement.effect postgres cutAt tables .countNull =
      .ok (some (tables.store.countP (undated postgres)), tables) := by
  rw [CutStatement.effect, Sql.count_eq_ok fun _ _ => rfl]
  simp only [selects_nullPredicate]
  rfl

theorem filter_excluded (castable : Castable postgres rows) :
    (rows.filter fun row => ((afterCutTruth postgres cutAt row).or
        (nullPredicate postgres row.value)).selects) =
      rows.filter fun row => !datedBefore postgres cutAt row :=
  List.filter_congr fun _ member => selects_excluded castable member

theorem effect_deleteVectors (castable : Castable postgres tables.store) :
    CutStatement.effect postgres cutAt tables .deleteVectors =
      .ok (none, { tables with vectors := (cutTables postgres cutAt tables).vectors }) := by
  rw [CutStatement.effect, Sql.deleteUsing_eq_ok fun row member =>
    excludedPredicate_eq_ok castable member, filter_excluded castable]
  rfl

/-- Once their vectors are gone, deleting the entries deletes nothing else, whether the deletion
cascades or not. -/
theorem effect_deleteStore (castable : Castable postgres tables.store) :
    CutStatement.effect postgres cutAt
        { tables with vectors := (cutTables postgres cutAt tables).vectors } .deleteStore =
      .ok (none, cutTables postgres cutAt tables) := by
  have kept : (tables.store.filter fun row => !((afterCutTruth postgres cutAt row).or
        (nullPredicate postgres row.value)).selects) =
      tables.store.filter (datedBefore postgres cutAt) :=
    List.filter_congr fun row member => by rw [selects_excluded castable member, Bool.not_not]
  rw [CutStatement.effect, Sql.delete_eq_ok fun row member =>
    excludedPredicate_eq_ok castable member, Sql.deleteUsing_eq_ok fun row member =>
    excludedPredicate_eq_ok castable member, filter_excluded castable, kept]
  have twice : ((cutTables postgres cutAt tables).vectors.filter fun vector =>
        !(tables.store.filter fun row => !datedBefore postgres cutAt row).any (joins vector)) =
      (cutTables postgres cutAt tables).vectors := by
    rw [cutTables, List.filter_filter]
    simp only [Bool.and_self]
  dsimp only [bind, Except.bind]
  rw [twice]
  split <;> rfl

/-! ### What the calls do -/

section

variable (castable : Castable postgres tables.store)
  (committed : StoreTables StoreColumns VectorColumns)

include castable

theorem runIn_countExcluded :
    Sql.runIn (countExcluded postgres cutAt) ⟨committed, tables, []⟩ =
      (.ok ((cutCounts postgres cutAt tables.store).excludedAfterCut,
        (cutCounts postgres cutAt tables.store).excludedNull), ⟨committed, tables, []⟩) := by
  unfold countExcluded openCursor execute fetchone
  rw [Sql.runIn_call_bind rfl, Sql.runIn_call_bind rfl,
    Sql.runIn_call_bind (effect_countAfterCut castable), Sql.runIn_call_bind rfl,
    Sql.runIn_call_bind effect_countNull, Sql.runIn_call_bind rfl]
  rfl

theorem runIn_deleteExcluded :
    Sql.runIn (deleteExcluded postgres cutAt) ⟨committed, tables, []⟩ =
      (.ok (cutCounts postgres cutAt tables.store),
        ⟨committed, cutTables postgres cutAt tables, []⟩) := by
  rw [deleteExcluded, Sql.runIn_bind, runIn_countExcluded castable]
  unfold execute fetchone
  dsimp only
  rw [Sql.runIn_call_bind (effect_deleteVectors castable),
    Sql.runIn_call_bind (effect_deleteStore castable), Sql.runIn_call_bind rfl,
    Sql.runIn_call_bind rfl]
  rfl

theorem runIn_previewCut :
    Sql.runIn (previewCut postgres cutAt) ⟨tables, tables, []⟩ =
      (.ok (cutCounts postgres cutAt tables.store), ⟨tables, tables, []⟩) := by
  rw [previewCut, Sql.runIn_bind, runIn_countExcluded castable]
  unfold execute fetchone
  dsimp only
  rw [Sql.runIn_call_bind rfl, Sql.runIn_call_bind rfl, Sql.runIn_bind, Sql.runIn_rollback]
  have total := @counts_add_up _ _ postgres _ cutAt tables.store castable
  have rest : (tables.store.length : Int) -
        (cutCounts postgres cutAt tables.store).excludedAfterCut -
        (cutCounts postgres cutAt tables.store).excludedNull =
      (cutCounts postgres cutAt tables.store).remaining := by omega
  dsimp only [List.headD_nil]
  rw [rest]
  rfl

end

/-- After a cut nothing is left to exclude. -/
theorem filter_cut_eq_nil :
    ((cutTables postgres cutAt tables).store.filter fun row => !datedBefore postgres cutAt row) =
      [] := by
  rw [List.filter_eq_nil_iff]
  intro row member
  simp [(List.mem_filter.mp member).2]

/-- A second cut leaves the tables of the first. -/
theorem cutTables_cutTables :
    cutTables postgres cutAt (cutTables postgres cutAt tables) = cutTables postgres cutAt tables := by
  rw [cutTables, filter_cut_eq_nil]
  simp [cutTables]

/-- A second cut excludes nothing. -/
theorem cutCounts_cutTables (castable : Castable postgres tables.store) :
    cutCounts postgres cutAt (cutTables postgres cutAt tables).store =
      ⟨0, 0, (cutCounts postgres cutAt tables.store).remaining⟩ := by
  have inside : (cutTables postgres cutAt tables).store ⊆ tables.store := List.filter_subset_self _
  have none_excluded : ∀ row ∈ (cutTables postgres cutAt tables).store,
      ¬datedFrom postgres cutAt row = true ∧ ¬undated postgres row = true := by
    intro row member
    have sorted := @Castable.sorts _ _ postgres _ cutAt row _ castable (inside member)
    rw [(List.mem_filter.mp member).2] at sorted
    simpa using sorted
  rw [cutCounts, List.countP_eq_zero.mpr fun row member => (none_excluded row member).1,
    List.countP_eq_zero.mpr fun row member => (none_excluded row member).2]
  simp [cutTables, cutCounts]

/-! ### Failures -/

theorem keepsCommitted_countExcluded : Sql.KeepsCommitted
    (countExcluded postgres cutAt : CutDriver StoreColumns VectorColumns _) :=
  (Sql.keepsCommitted_call _).bind fun _ => (Sql.keepsCommitted_call _).bind fun _ =>
    (Sql.keepsCommitted_call _).bind fun _ => (Sql.keepsCommitted_call _).bind fun _ =>
      (Sql.keepsCommitted_call _).bind fun _ => (Sql.keepsCommitted_call _).bind fun _ =>
        Sql.keepsCommitted_pure _

theorem keepsCommitted_previewCut : Sql.KeepsCommitted
    (previewCut postgres cutAt : CutDriver StoreColumns VectorColumns _) :=
  keepsCommitted_countExcluded.bind fun _ => (Sql.keepsCommitted_call _).bind fun _ =>
    (Sql.keepsCommitted_call _).bind fun _ => Sql.keepsCommitted_rollback.bind fun _ =>
      Sql.keepsCommitted_pure _

theorem keepsCommitted_deleteExcluded : Sql.KeepsCommitted
    (deleteExcluded postgres cutAt : CutDriver StoreColumns VectorColumns _) :=
  keepsCommitted_countExcluded.bind fun _ => (Sql.keepsCommitted_call _).bind fun _ =>
    (Sql.keepsCommitted_call _).bind fun _ => (Sql.keepsCommitted_call _).bind fun _ =>
      (Sql.keepsCommitted_call _).bind fun _ => Sql.keepsCommitted_pure _

theorem onlyRaises_countExcluded : Sql.OnlyRaises
    (countExcluded postgres cutAt : CutDriver StoreColumns VectorColumns _) :=
  (Sql.onlyRaises_call _).bind fun _ => (Sql.onlyRaises_call _).bind fun _ =>
    (Sql.onlyRaises_call _).bind fun _ => (Sql.onlyRaises_call _).bind fun _ =>
      (Sql.onlyRaises_call _).bind fun _ => (Sql.onlyRaises_call _).bind fun _ =>
        Sql.onlyRaises_pure _

/-- The calls raise, or end as if none of them failed. -/
theorem onlyRaises_cutCalls (dryRun : Bool) : Sql.OnlyRaises
    (cutCalls postgres cutAt dryRun : CutDriver StoreColumns VectorColumns _) := by
  cases dryRun with
  | true =>
    exact onlyRaises_countExcluded.bind fun _ => (Sql.onlyRaises_call _).bind fun _ =>
      (Sql.onlyRaises_call _).bind fun _ => Sql.onlyRaises_rollback.bind fun _ =>
        Sql.onlyRaises_pure _
  | false =>
    have deletes : Sql.OnlyRaises
        (deleteExcluded postgres cutAt : CutDriver StoreColumns VectorColumns _) :=
      onlyRaises_countExcluded.bind fun _ => (Sql.onlyRaises_call _).bind fun _ =>
        (Sql.onlyRaises_call _).bind fun _ => (Sql.onlyRaises_call _).bind fun _ =>
          (Sql.onlyRaises_call _).bind fun _ => Sql.onlyRaises_pure _
    exact deletes.bind fun _ => Sql.onlyRaises_commit.bind fun _ => Sql.onlyRaises_pure _

/-- Calls that raise leave the tables as they were. -/
theorem committed_of_cutCalls {dryRun : Bool} {error : String}
    {session after : Sql.Session (StoreTables StoreColumns VectorColumns) String}
    (raised : Sql.runIn (cutCalls postgres cutAt dryRun) session = (.error error, after)) :
    after.committed = session.committed := by
  cases dryRun with
  | true =>
    have kept := @keepsCommitted_previewCut _ _ postgres StoreColumns VectorColumns cutAt session
    rw [show Sql.runIn (previewCut postgres cutAt) session = _ from raised] at kept
    exact kept
  | false => exact Sql.committed_of_raised keepsCommitted_deleteExcluded raised

/-! ### The whole cut -/

section

variable {runtime : Runtime} {datetimes : DatetimeLibrary Instant} {target : CutTarget}
  {cut : Cut Instant}

/-- A cut whose calls succeed returns its counts and leaves its tables. -/
theorem applyTemporalCut_of_castable (accepted : normalizeCut runtime datetimes cut = .ok cutAt)
    (castable : Castable postgres tables.store) (connects : target.connect = .ok ())
    (faultless : target.faults = []) :
    applyTemporalCut postgres runtime datetimes target cut false tables =
        (.ok (cutCounts postgres cutAt tables.store), cutTables postgres cutAt tables) ∧
      applyTemporalCut postgres runtime datetimes target cut true tables =
        (.ok (cutCounts postgres cutAt tables.store), tables) := by
  unfold applyTemporalCut
  rw [accepted, connects, faultless]
  dsimp only
  constructor
  · rw [cutCalls, if_neg (by simp), Sql.runIn_bind, runIn_deleteExcluded castable]
    dsimp only
    rw [Sql.runIn_bind, Sql.runIn_commit]
    rfl
  · rw [cutCalls, if_pos rfl, runIn_previewCut castable]

theorem applyTemporalCut_raised {dryRun : Bool} {error : FixtureError}
    {after : StoreTables StoreColumns VectorColumns}
    (raised : applyTemporalCut postgres runtime datetimes target cut dryRun tables =
      (.error error, after)) : after = tables := by
  unfold applyTemporalCut at raised
  split at raised
  · exact (Prod.mk.inj raised).2.symm
  · dsimp only at raised
    split at raised
    · exact (Prod.mk.inj raised).2.symm
    · split at raised
      · cases (Prod.mk.inj raised).1
      · rename_i failed
        rw [← (Prod.mk.inj raised).2]
        exact committed_of_cutCalls failed

theorem applyTemporalCut_returned {dryRun : Bool} {result : CutResult}
    {after : StoreTables StoreColumns VectorColumns}
    (returned : applyTemporalCut postgres runtime datetimes target cut dryRun tables =
      (.ok result, after)) :
    applyTemporalCut postgres runtime datetimes { target with faults := [] } cut dryRun tables =
      (.ok result, after) := by
  unfold applyTemporalCut at returned ⊢
  split at returned
  · cases (Prod.mk.inj returned).1
  · dsimp only at returned ⊢
    split at returned
    · cases (Prod.mk.inj returned).1
    · split at returned
      · rename_i ended
        rw [onlyRaises_cutCalls dryRun _ _ _ ended]
        exact returned
      · cases (Prod.mk.inj returned).1

end

end

/-- The temporal cut is exact, atomic and idempotent: of the entries it leaves those dated before
the cut and of the vectors those of no removed entry, its counts add up, its preview counts the
same and changes nothing, a second cut changes nothing, and a cut that is refused or fails leaves the
tables as they were. -/
theorem temporalCut_exact {Instant : Type} [LinearOrder Instant] (postgres : Postgres Instant)
    (runtime : Runtime) (datetimes : DatetimeLibrary Instant) (cut : Cut Instant)
    {StoreColumns VectorColumns : Type} (tables : StoreTables StoreColumns VectorColumns) :
    let apply := fun (target : CutTarget) (dryRun : Bool)
        (tables : StoreTables StoreColumns VectorColumns) =>
      applyTemporalCut postgres runtime datetimes target cut dryRun tables
    (∀ cutAt, normalizeCut runtime datetimes cut = .ok cutAt → Castable postgres tables.store →
      ∃ (result : CutResult) (after : StoreTables StoreColumns VectorColumns),
        (∀ row ∈ after.store, ∃ text instant, occurredAtExpr postgres row.value = some text ∧
          postgres.timestamptz text = .ok instant ∧ instant < cutAt) ∧
        after.store = tables.store.filter (datedBefore postgres cutAt) ∧
        after.vectors = (tables.vectors.filter fun vector =>
          !(tables.store.filter fun row => !datedBefore postgres cutAt row).any (joins vector)) ∧
        result.excludedAfterCut + result.excludedNull + result.remaining = tables.store.length ∧
        ∀ target : CutTarget, target.connect = .ok () → target.faults = [] →
          apply target false tables = (.ok result, after) ∧
          apply target true tables = (.ok result, tables) ∧
          apply target false after = (.ok ⟨0, 0, result.remaining⟩, after)) ∧
    ∀ target dryRun,
      (∀ error, normalizeCut runtime datetimes cut = .error error →
        apply target dryRun tables = (.error error, tables)) ∧
      (∀ error after, apply target dryRun tables = (.error error, after) → after = tables) ∧
      ∀ result after, apply target dryRun tables = (.ok result, after) →
        apply { target with faults := [] } dryRun tables = (.ok result, after) := by
  intro apply
  constructor
  · intro cutAt accepted castable
    refine ⟨cutCounts postgres cutAt tables.store, cutTables postgres cutAt tables,
      fun row member => datedBefore_iff.mp (List.mem_filter.mp member).2, rfl, rfl,
      counts_add_up castable, fun target connects faultless => ?_⟩
    have first := @applyTemporalCut_of_castable _ _ postgres _ _ cutAt tables runtime datetimes
      target cut accepted castable connects faultless
    have again := @applyTemporalCut_of_castable _ _ postgres _ _ cutAt
      (cutTables postgres cutAt tables) runtime datetimes target cut accepted
      (castable.sublist (List.filter_subset_self _)) connects faultless
    rw [cutTables_cutTables, cutCounts_cutTables castable] at again
    exact ⟨first.1, first.2, again.1⟩
  · intro target dryRun
    refine ⟨fun error refused => ?_, fun error after => applyTemporalCut_raised,
      fun result after => applyTemporalCut_returned⟩
    dsimp only [apply, applyTemporalCut]
    rw [refused]

section Sample

/-- A database that casts two texts, to microseconds since 1970. -/
def datedPostgres : Postgres Int where
  timestamptz text :=
    if text = "2026-05-01T12:00:00+00:00" then .ok 1777636800000000
    else if text = "2026-06-25T00:00:00+00:00" then .ok 1782345600000000
    else .error ("invalid input syntax for type timestamp with time zone: \"" ++ text ++ "\"")
  jsonText := Json.dumps
  cascades := true

/-- The dates the cut names. -/
def datedDatetimes : DatetimeLibrary Int where
  midnight _ := 1782345600000000
  dateFromIsoformat text := if text = "2026-06-25" then some ⟨2026, 6, 25⟩ else none
  datetimeFromIsoformat _ := none

/-- An entry with the given date in its value. -/
def datedRow (key : String) (occurredAt : PyValue) : StoreRow Unit where
  storePrefix := "fleet_memory.a.adr"
  key
  value := .dict [("content", .str "c"), ("episode_meta", .dict [("occurred_at", occurredAt)])]
  columns := ()

/-- An entry before the cut, one on it, and one without a date, each with a vector. -/
def datedTables : StoreTables Unit Unit where
  store := [datedRow "before" (.str "2026-05-01T12:00:00+00:00"),
    datedRow "on" (.str "2026-06-25T00:00:00+00:00"), datedRow "undated" .none]
  vectors := ["before", "on", "undated"].map fun key => ⟨"fleet_memory.a.adr", key, ()⟩

theorem castable_datedTables : Castable datedPostgres datedTables.store := by
  intro row member text found
  simp only [datedTables, List.mem_cons, List.not_mem_nil, or_false] at member
  rcases member with rfl | rfl | rfl
  · obtain rfl := Option.some.inj found
    exact ⟨1777636800000000, rfl⟩
  · obtain rfl := Option.some.inj found
    exact ⟨1782345600000000, rfl⟩
  · cases found

/-- A cut on the day of the second entry. -/
theorem temporalCut_exact_datedTables :
    let apply := fun (target : CutTarget) (dryRun : Bool) (tables : StoreTables Unit Unit) =>
      applyTemporalCut datedPostgres (.ofTables [] [] []) datedDatetimes target
        (.text "2026-06-25") dryRun tables
    ∃ (result : CutResult) (after : StoreTables Unit Unit),
      (∀ row ∈ after.store, ∃ text instant,
        occurredAtExpr datedPostgres row.value = some text ∧
          datedPostgres.timestamptz text = .ok instant ∧ instant < 1782345600000000) ∧
      after.store = datedTables.store.filter (datedBefore datedPostgres 1782345600000000) ∧
      after.vectors = (datedTables.vectors.filter fun vector =>
        !(datedTables.store.filter fun row => !datedBefore datedPostgres 1782345600000000 row).any
          (joins vector)) ∧
      result.excludedAfterCut + result.excludedNull + result.remaining =
        datedTables.store.length ∧
      ∀ target : CutTarget, target.connect = .ok () → target.faults = [] →
        apply target false datedTables = (.ok result, after) ∧
        apply target true datedTables = (.ok result, datedTables) ∧
        apply target false after = (.ok ⟨0, 0, result.remaining⟩, after) :=
  (temporalCut_exact datedPostgres (.ofTables [] [] []) datedDatetimes (.text "2026-06-25")
    datedTables).1 1782345600000000 (by decide +kernel) castable_datedTables

end Sample

end FleetMemory
