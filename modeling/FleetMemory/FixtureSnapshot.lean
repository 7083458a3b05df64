/-
This file models the snapshot of a store into a fixture's directory: the schema's text without its
volatile lines, each table's rows in the order of their primary key, and the manifest, written one
call after the other. It proves what a snapshot that returns has written, and that neither a call
that fails nor a stop of the process leaves a directory that looks like a finished fixture.
-/

import FleetMemory.CopyText
import FleetMemory.FixtureFiles
import FleetMemory.Markdown
import FleetMemory.Program
import FleetMemory.TemporalCut

namespace FleetMemory

/-- Write a file of a tree. A path that no file can have there leaves the tree as it was. -/
def FileTree.write (tree : FileTree) (path : List String) (bytes : List UInt8) : FileTree :=
  if legal : ValidPath path ∧ ∀ other ∈ tree.content.keys, other <+: path ∨ path <+: other →
      other = path then
    { content := tree.content.insert path bytes
      valid := fun other member => by
        rcases Finmap.mem_insert.mp member with rfl | known
        · exact legal.1
        · exact tree.valid other known
      apart := fun first firstHere second secondHere under => by
        rcases Finmap.mem_insert.mp firstHere with rfl | firstKnown
        · rcases Finmap.mem_insert.mp secondHere with rfl | secondKnown
          · rfl
          · exact (legal.2 second (Finmap.mem_keys.mpr secondKnown) (Or.inr under)).symm
        · rcases Finmap.mem_insert.mp secondHere with rfl | secondKnown
          · exact legal.2 first (Finmap.mem_keys.mpr firstKnown) (Or.inl under)
          · exact tree.apart first firstKnown second secondKnown under }
  else tree

/-- A directory without files. -/
def FileTree.empty : FileTree where
  content := ∅
  valid := fun _ member => absurd member Finmap.notMem_empty
  apart := fun _ member => absurd member Finmap.notMem_empty

namespace Fixture

open StoreProgram
open CopyText (Field Row)

/-! ### Databases -/

/-- A foreign key: its columns, and the columns of another table that have their values. -/
structure Reference where
  columns : List String
  table : String
  referenced : List String

/-- A table of the schema. -/
structure TableDef where
  name : String
  columns : List String
  primaryKey : List String
  references : List Reference

/-- The fields of a row under some columns of its table. -/
def TableDef.fieldsOf (table : TableDef) (columns : List String) (row : Row) : List Field :=
  columns.map fun column => ((table.columns.zip row).lookup column).join

/-- A line of what `pg_dump --schema-only` prints: one of the schema's own, or one that differs from
dump to dump. -/
inductive ScriptLine where
  | own (text : String)
  | restrict
  | unrestrict
  | serverVersion
  | dumpVersion

/-- The random token of a dump, and the two versions. -/
structure DumpSession where
  token : String
  serverVersion : String
  dumpVersion : String

def ScriptLine.render (session : DumpSession) : ScriptLine → String
  | own text => text
  | restrict => "\\restrict " ++ session.token
  | unrestrict => "\\unrestrict " ++ session.token
  | serverVersion => "-- Dumped from database version " ++ session.serverVersion
  | dumpVersion => "-- Dumped by pg_dump version " ++ session.dumpVersion

/-- A database: its schema, and the rows of its tables in their physical order. -/
structure Database (Schema : Type) where
  schema : Schema
  rows : String → List Row

/-- What PostgreSQL and `pg_dump` do: the base tables of a schema, the lines of its dump, what a
script does to a database, what the columns of a table take for the fields of a row, the order of
keys, whether a row of the store has no date, and the texts of refusals. -/
structure Server (Schema : Type) where
  tables : Schema → List TableDef
  script : Schema → List ScriptLine
  run : Database Schema → String → Except String (Database Schema)
  input : TableDef → Row → Except String Row
  keyLe : List Field → List Field → Bool
  undated : Row → Bool
  refusal : String → String

/-! ### The text of the schema -/

/-- `_PSQL_META_PREFIXES`. -/
def psqlMetaPrefixes : List String :=
  ["\\restrict ", "\\unrestrict "]

/-- `_VOLATILE_PREFIXES`. -/
def volatilePrefixes : List (String × String) :=
  [("-- Dumped from database version", "server_version"),
    ("-- Dumped by pg_dump version", "pg_dump_version")]

/-- The version that a line records, under its key. -/
def versionOf (line : String) : Option (String × String) :=
  if psqlMetaPrefixes.any (PosixPath.startsWith · line) then none
  else (volatilePrefixes.find? fun entry => PosixPath.startsWith entry.1 line).map fun entry =>
    (entry.2, Text.strip (String.ofList (line.toList.drop entry.1.toList.length)))

/-- A line that stays in `schema.sql`. -/
def keptLine (line : String) : Bool :=
  !psqlMetaPrefixes.any (PosixPath.startsWith · line) &&
    !volatilePrefixes.any fun entry => PosixPath.startsWith entry.1 line

/-- `"\n".join(kept)`, which ends in a line feed unless it is empty. -/
def schemaText (kept : List String) : String :=
  let text := Text.join '\n' kept
  if text ≠ "" ∧ text.toList.getLast? ≠ some '\n' then text ++ "\n" else text

/-- `strip_volatile_comments`: the stable text, and the versions in the order they were found. -/
def stripVolatileComments (schemaSql : String) : String × List (String × String) :=
  let lines := Markdown.splitLines schemaSql
  (schemaText (lines.filter keptLine), lines.filterMap versionOf)

/-- `versions.get(key, "")`, which has the version that was found last. -/
def versionUnder (versions : List (String × String)) (key : String) : String :=
  ((versions.filter fun entry => entry.1 = key).getLast?.map Prod.snd).getD ""

/-- `_format_versions`. -/
def formatVersions (versions : List (String × String)) : String :=
  let pgDumpVersion := versionUnder versions "pg_dump_version"
  let serverVersion := versionUnder versions "server_version"
  if pgDumpVersion ≠ "" ∧ serverVersion ≠ "" then
    pgDumpVersion ++ " (server " ++ serverVersion ++ ")"
  else if pgDumpVersion ≠ "" then pgDumpVersion
  else serverVersion

/-! ### The statements -/

/-- `EXPECTED_TABLES`. -/
def expectedTables : List String :=
  ["store", "store_vectors", "store_migrations", "vector_migrations"]

/-- `READ_ONLY_SESSION_SQL`. -/
def readOnlySessionSql : List String :=
  ["SET default_transaction_read_only = on", "SET TIME ZONE 'UTC'"]

/-- What the snapshot asks the session, and the question for the files it has written. -/
inductive SnapshotQuery where
  | set (statement : String)
  | discoverTables
  | primaryKey (table : String)
  | copyOut (table : String) (primaryKey : List String)
  | countRows (table : String)
  | countNullOccurredAt
  | files

/-- What these answer. -/
inductive SnapshotItem where
  | name (text : String)
  | line (row : Row)
  | number (count : Nat)
  | hashed (bytes : List UInt8)

/-- `build_copy_out_sql`. -/
def buildCopyOutSql (table : String) (primaryKey : List String) :
    Except FixtureFault SnapshotQuery :=
  if primaryKey = [] then
    .error (.fixture (.fixture ("Table '" ++ table ++
      "' has no primary key; cannot produce a deterministic dump")))
  else .ok (.copyOut table primaryKey)

section

variable {Schema : Type} (server : Server Schema) (database : Database Schema)

/-- A table of the database. -/
def tableDef? (table : String) : Option TableDef :=
  (server.tables database.schema).find? fun known => known.name = table

/-- The rows of a table in the order of some of its columns. -/
def orderedRows (table : String) (columns : List String) : List Row :=
  match tableDef? server database table with
  | none => []
  | some known => (database.rows table).mergeSort fun first second =>
      server.keyLe (known.fieldsOf columns first) (known.fieldsOf columns second)

/-- How the source's session answers, and the directory that is written. Nobody else writes to the
source meanwhile. -/
def snapshotWorld :
    World (List String) (List UInt8) SnapshotQuery SnapshotItem FileTree where
  get tree path := tree.content.lookup path
  put := FileTree.write
  search tree
    | .set _ => []
    | .discoverTables => (server.tables database.schema).map fun known => .name known.name
    | .primaryKey table => (tableDef? server database table).elim [] fun known =>
        known.primaryKey.map .name
    | .copyOut table columns => (orderedRows server database table columns).map .line
    | .countRows table => [.number (database.rows table).length]
    | .countNullOccurredAt => [.number ((database.rows "store").countP server.undated)]
    | .files => [.hashed tree.feed]

end

/-! ### The snapshot -/

abbrev SnapshotProgram :=
  Program (List String) (List UInt8) SnapshotQuery SnapshotItem FixtureFault

/-- `[row[0] for row in cur.fetchall()]`. -/
def namesOf (items : List SnapshotItem) : List String :=
  items.filterMap fun
    | .name text => some text
    | _ => none

/-- The rows of a copy, a chunk each. -/
def chunksOf (items : List SnapshotItem) : List (List UInt8) :=
  items.filterMap fun
    | .line row => some (Utf8.bytes (CopyText.writeRow row))
    | _ => none

/-- `int(cur.fetchone()[0])`. -/
def numberOf : List SnapshotItem → Nat
  | .number count :: _ => count
  | _ => 0

/-- The bytes that are hashed. -/
def hashedOf : List SnapshotItem → List UInt8
  | .hashed bytes :: _ => bytes
  | _ => []

/-- `data_dir / f"{table}.copy"`. -/
def dataPath (table : String) : List String :=
  ["data", table ++ ".copy"]

def schemaPath : List String := ["schema.sql"]

def manifestPath : List String := [FileTree.manifestName]

/-- Write a file chunk by chunk behind what it holds. -/
def writeChunks (path : List String) (held : List UInt8) : List (List UInt8) → SnapshotProgram Unit
  | [] => pure ()
  | chunk :: rest => do
    Program.put path (held ++ chunk)
    writeChunks path (held ++ chunk) rest

/-- The export of one table. Its file is there, and empty, before the copy starts. -/
def exportTable (table : String) : SnapshotProgram Int := do
  let primaryKey ← Program.search (.primaryKey table)
  let copySql ← Program.ofOutcome (.ofExcept (buildCopyOutSql table (namesOf primaryKey)))
  Program.put (dataPath table) []
  let copied ← Program.search copySql
  writeChunks (dataPath table) [] (chunksOf copied)
  let counted ← Program.search (.countRows table)
  return numberOf counted

def exportTables : List String → SnapshotProgram (List (String × Int))
  | [] => pure []
  | table :: rest => do
    let count ← exportTable table
    let counts ← exportTables rest
    return (table, count) :: counts

/-- `_export_data`. -/
def exportData (target : String) : SnapshotProgram (List (String × Int) × Int) := do
  let _ ← Program.search (.set (readOnlySessionSql.getD 0 ""))
  let _ ← Program.search (.set (readOnlySessionSql.getD 1 ""))
  let discovered ← Program.search .discoverTables
  let tables := (namesOf discovered).mergeSort (· ≤ ·)
  let unexpected := (tables.dedup.filter (· ∉ expectedTables)).mergeSort (· ≤ ·)
  if unexpected ≠ [] then
    throw (.fixture (.fixture ("Unexpected tables in source database " ++ target ++ ": " ++
      ", ".intercalate unexpected ++
      "; refusing to snapshot (nothing may be silently dropped)")))
  if "store" ∉ tables then
    throw (.fixture (.fixture ("Source database " ++ target ++
      " has no 'store' table; not a fleet-memory store")))
  let rowCounts ← exportTables tables
  let nullCount ← Program.search .countNullOccurredAt
  return (rowCounts, numberOf nullCount)

/-- What `subprocess.run` returns. -/
structure CompletedProcess where
  returncode : Int
  stdout : String
  stderr : String

/-- A call of `create_snapshot`: its arguments, the time, and how what it calls goes: `pg_dump`, the
making of the directory, the connection, each further call, the pieces in which a text reaches its
file, and what `shutil.rmtree` leaves. -/
structure SnapshotRun where
  sourceDsn : String
  parseConninfo : String → List (String × String)
  fixtureId : String
  fixturesRoot : String
  resolve : String → String
  now : String
  pgDump : Except FixtureFault CompletedProcess
  mkdir : Except FixtureFault Unit
  connect : Except String Unit
  faults : List (Option FixtureFault)
  pieces : List UInt8 → List (List UInt8)
  whole : ∀ bytes, (pieces bytes).flatten = bytes
  remains : FileTree → Option FileTree

namespace SnapshotRun

variable (run : SnapshotRun)

/-- `sanitize_target(source_dsn)`. -/
def target : String :=
  sanitizeTarget run.parseConninfo run.sourceDsn

def scrubbed (text : String) : String :=
  scrubSecrets run.parseConninfo text run.sourceDsn

/-- What an exception of the export is turned into. -/
def exportFault : FixtureFault → FixtureFault
  | .fixture error => .fixture error
  | .valueError text =>
    .fixture (.fixture ("Snapshot of " ++ run.target ++ " failed: " ++ run.scrubbed text))
  | .other _ text =>
    .fixture (.fixture ("Snapshot of " ++ run.target ++ " failed: " ++ run.scrubbed text))

/-- `_dump_schema`. -/
def dumpSchema : Except FixtureFault (String × List (String × String)) :=
  match run.pgDump with
  | .error error => .error error
  | .ok completed =>
    if completed.returncode ≠ 0 then
      .error (.fixture (.fixture ("pg_dump failed for " ++ run.target ++ " (exit " ++
        toString completed.returncode ++ "): " ++ Text.strip (run.scrubbed completed.stderr))))
    else .ok (stripVolatileComments completed.stdout)

variable (sha256 : List UInt8 → String)

/-- The manifest of what was exported. -/
def manifest (versions : List (String × String)) (rowCounts : List (String × Int))
    (nullCount : Int) (feed : List UInt8) : FixtureManifest where
  fixtureId := run.fixtureId
  createdAt := pyReplace run.now "+00:00" "Z"
  sourceTarget := run.target
  contentHash := sha256 feed
  tableRowCounts := rowCounts
  nullOccurredAtCount := nullCount
  pgDumpVersion := formatVersions versions

/-- Write a text file. It is there, and empty, before its first piece is. -/
def writeFile (path : List String) (bytes : List UInt8) : SnapshotProgram Unit := do
  Program.put path []
  writeChunks path [] (run.pieces bytes)

/-- What `create_snapshot` does in the directory before it writes the manifest. -/
def exportSnapshot (schemaSql : String) (versions : List (String × String)) :
    SnapshotProgram FixtureManifest := do
  run.writeFile schemaPath (Utf8.bytes schemaSql.toList)
  Program.ofOutcome (.ofExcept (run.connect.mapError fun text =>
    .fixture (.fixture ("Cannot connect to " ++ run.target ++ ": " ++ run.scrubbed text))))
  let (rowCounts, nullCount) ← tryCatch (exportData run.target) fun fault =>
    Program.done (.raised (run.exportFault fault))
  let feed ← Program.search .files
  return run.manifest sha256 versions rowCounts nullCount (hashedOf feed)

/-- What `create_snapshot` does once the directory is made. -/
def writeSnapshot (schemaSql : String) (versions : List (String × String)) :
    SnapshotProgram FixtureManifest := do
  let written ← run.exportSnapshot sha256 schemaSql versions
  run.writeFile manifestPath written.fileBytes
  return written

/-- What `create_snapshot` does before it writes: its checks, the dump of the schema, and the making
of the directory. -/
def prepare (directory : Option FileTree) :
    Except FixtureFault (String × List (String × String)) := do
  let fdir ← fixtureDir run.resolve run.fixturesRoot run.fixtureId
  if directory.isSome then
    throw (.fixture (.fixture ("Fixture '" ++ run.fixtureId ++ "' already exists at " ++ fdir ++
      "; fixtures are immutable — use a new fixture id")))
  let dumped ← run.dumpSchema
  run.mkdir
  return dumped

variable {Schema : Type} (server : Server Schema) (database : Database Schema)

/-- `create_snapshot` of a database, with what lies at the fixture's path before and after. -/
def createSnapshot (directory : Option FileTree) :
    Outcome FixtureFault FixtureManifest × Option FileTree :=
  match run.prepare directory with
  | .error error => (.raised error, directory)
  | .ok (schemaSql, versions) =>
    match (run.writeSnapshot sha256 schemaSql versions).runFaulty (snapshotWorld server database)
        run.faults .empty with
    | (.returned written, tree) => (.returned written, some tree)
    | (.raised fault, tree) => (.raised fault, run.remains tree)
    | (.hung, tree) => (.hung, some tree)

/-- What lies at the fixture's path when the process is stopped after a number of the calls that
`create_snapshot` makes once the directory is made. -/
def stopSnapshot (calls : Nat) (directory : Option FileTree) : Option FileTree :=
  match run.prepare directory with
  | .error _ => directory
  | .ok (schemaSql, versions) =>
    some ((run.writeSnapshot sha256 schemaSql versions).stopAfter (snapshotWorld server database)
      calls run.faults .empty)

end SnapshotRun

/-! ### What is written -/

/-- The files of a fixture. -/
def fixturePaths : List (List String) :=
  schemaPath :: manifestPath :: expectedTables.map dataPath

/-- A tree with files of a fixture alone. -/
def Within (tree : FileTree) : Prop :=
  ∀ path ∈ tree.content, path ∈ fixturePaths

theorem validPath_of_fixture : ∀ path ∈ fixturePaths, ValidPath path := by
  decide

theorem fixturePaths_apart : ∀ first ∈ fixturePaths, ∀ second ∈ fixturePaths,
    first <+: second ∨ second <+: first → first = second := by
  decide

section

variable {tree : FileTree} {path : List String}

theorem within_empty : Within .empty :=
  fun _ member => absurd member Finmap.notMem_empty

/-- A file of a fixture can be written. -/
theorem content_write (within : Within tree) (known : path ∈ fixturePaths) (bytes : List UInt8) :
    (tree.write path bytes).content = tree.content.insert path bytes := by
  have legal : ValidPath path ∧ ∀ other ∈ tree.content.keys, other <+: path ∨ path <+: other →
      other = path :=
    ⟨validPath_of_fixture path known, fun other member =>
      fixturePaths_apart other (within other (Finmap.mem_keys.mp member)) path known⟩
  rw [FileTree.write, dif_pos legal]

theorem lookup_write (within : Within tree) (known : path ∈ fixturePaths) (bytes : List UInt8)
    (other : List String) : (tree.write path bytes).content.lookup other =
      if other = path then some bytes else tree.content.lookup other := by
  rw [content_write within known]
  split
  · rename_i same
    rw [same, Finmap.lookup_insert]
  · rename_i different
    rw [Finmap.lookup_insert_of_ne _ different]

theorem within_write (within : Within tree) (known : path ∈ fixturePaths) (bytes : List UInt8) :
    Within (tree.write path bytes) := by
  intro other member
  rw [content_write within known] at member
  rcases Finmap.mem_insert.mp member with rfl | inside
  · exact known
  · exact within other inside

theorem dataPath_mem {table : String} (expected : table ∈ expectedTables) :
    dataPath table ∈ fixturePaths :=
  List.mem_cons_of_mem _ (List.mem_cons_of_mem _ (List.mem_map_of_mem expected))

theorem schemaPath_mem : schemaPath ∈ fixturePaths := by
  decide

theorem manifestPath_mem : manifestPath ∈ fixturePaths := by
  decide

end

section

variable {Schema : Type} {server : Server Schema} {database : Database Schema} {tree : FileTree}

/-- Chunks are written behind what a file holds. -/
theorem run_writeChunks {path : List String} (known : path ∈ fixturePaths) (within : Within tree)
    {held : List UInt8} (holds : tree.content.lookup path = some held) (chunks : List (List UInt8)) :
    ∃ after, (writeChunks path held chunks).run (snapshotWorld server database) tree =
        (.returned (), after) ∧ Within after ∧
      ∀ other, after.content.lookup other =
        if other = path then some (held ++ chunks.flatten) else tree.content.lookup other := by
  induction chunks generalizing held tree with
  | nil =>
    refine ⟨tree, rfl, within, fun other => ?_⟩
    rw [List.flatten_nil, List.append_nil]
    split
    · rename_i same
      rw [same, holds]
    · rfl
  | cons chunk rest inductionHypothesis =>
    have put := lookup_write within known (held ++ chunk)
    obtain ⟨after, ran, afterWithin, lookups⟩ :=
      inductionHypothesis (within_write within known (held ++ chunk)) (by rw [put, if_pos rfl])
    refine ⟨after, ?_, afterWithin, fun other => ?_⟩
    · rw [writeChunks, Program.run_bind, Program.run_put]
      exact ran
    · rw [lookups, List.flatten_cons, List.append_assoc]
      split
      · rfl
      · rename_i different
        rw [put, if_neg different]

variable (server database) in
/-- The columns of a table's primary key. -/
def primaryKeyOf (table : String) : List String :=
  (tableDef? server database table).elim [] TableDef.primaryKey

variable (server database) in
/-- The rows of a table in the order of its primary key. -/
def exportedRows (table : String) : List Row :=
  orderedRows server database table (primaryKeyOf server database table)

variable (server database) in
/-- What a table's file holds. -/
def dataBytes (table : String) : List UInt8 :=
  Utf8.bytes (CopyText.write (exportedRows server database table))

variable (server database) in
/-- The names of the tables, sorted. -/
def tableNames : List String :=
  ((server.tables database.schema).map TableDef.name).mergeSort (· ≤ ·)

variable (server database) in
/-- The data file at a path. -/
def dataFile (tables : List String) (path : List String) : Option (List UInt8) :=
  (tables.find? fun table => path = dataPath table).map (dataBytes server database)

theorem namesOf_map (names : List String) : namesOf (names.map .name) = names := by
  induction names with
  | nil => rfl
  | cons name rest inductionHypothesis => exact congrArg (name :: ·) inductionHypothesis

theorem flatten_chunksOf (rows : List Row) :
    (chunksOf (rows.map .line)).flatten = Utf8.bytes (CopyText.write rows) := by
  induction rows with
  | nil => rfl
  | cons row rest inductionHypothesis =>
    have shape : CopyText.write (row :: rest) = CopyText.writeRow row ++ CopyText.write rest :=
      List.flatMap_cons
    rw [shape, Utf8.bytes, List.flatMap_append, ← Utf8.bytes, ← Utf8.bytes, ← inductionHypothesis]
    rfl

theorem search_primaryKey (tree : FileTree) (table : String) :
    namesOf ((snapshotWorld server database).search tree (.primaryKey table)) =
      primaryKeyOf server database table := by
  show namesOf ((tableDef? server database table).elim [] fun known => known.primaryKey.map .name) = _
  unfold primaryKeyOf
  cases tableDef? server database table with
  | none => rfl
  | some known => exact namesOf_map known.primaryKey

/-- A table is exported when it has a primary key, and refused when it has none. -/
theorem run_exportTable {table : String} (expected : table ∈ expectedTables)
    (within : Within tree) :
    (primaryKeyOf server database table = [] ∧ ∃ fault,
      (exportTable table).run (snapshotWorld server database) tree = (.raised fault, tree)) ∨
    (primaryKeyOf server database table ≠ [] ∧ ∃ after,
      (exportTable table).run (snapshotWorld server database) tree =
        (.returned ((database.rows table).length : Int), after) ∧ Within after ∧
      ∀ other, after.content.lookup other = if other = dataPath table then
        some (dataBytes server database table) else tree.content.lookup other) := by
  have known := dataPath_mem expected
  rw [exportTable, Program.run_bind, Program.run_search]
  dsimp only
  rw [search_primaryKey, buildCopyOutSql]
  by_cases keyless : primaryKeyOf server database table = []
  · rw [if_pos keyless]
    exact Or.inl ⟨keyless, _, rfl⟩
  · rw [if_neg keyless]
    have started := lookup_write within known []
    obtain ⟨after, ran, afterWithin, lookups⟩ := @run_writeChunks _ server database _ _ known
      (within_write within known []) [] (by rw [started, if_pos rfl])
      (chunksOf ((exportedRows server database table).map .line))
    refine Or.inr ⟨keyless, after, ?_, afterWithin, fun other => ?_⟩
    · show (do
        Program.put (dataPath table) []
        let copied ← Program.search (.copyOut table (primaryKeyOf server database table))
        writeChunks (dataPath table) [] (chunksOf copied)
        let counted ← Program.search (.countRows table)
        return (numberOf counted : Int) : SnapshotProgram Int).run _ tree = _
      rw [Program.run_bind, Program.run_put]
      dsimp only
      rw [Program.run_bind, Program.run_search]
      dsimp only
      have copied (state : FileTree) : (snapshotWorld server database).search state
          (.copyOut table (primaryKeyOf server database table)) =
            (exportedRows server database table).map .line := rfl
      have emptied : (snapshotWorld server database).put tree (dataPath table) [] =
          tree.write (dataPath table) [] := rfl
      rw [Program.run_bind, copied, emptied, ran]
      rfl
    · rw [lookups, flatten_chunksOf, List.nil_append]
      split
      · rfl
      · rename_i different
        rw [started, if_neg different]

theorem dataPath_injective {first second : String} (same : dataPath first = dataPath second) :
    first = second := by
  have texts := (List.cons.inj (List.cons.inj same).2).1
  have characters := congrArg String.toList texts
  rw [String.toList_append, String.toList_append] at characters
  exact String.toList_inj.mp (List.append_cancel_right characters)

/-- The tables are exported in turn, or one of them has no primary key. -/
theorem run_exportTables {tables : List String} (expected : ∀ table ∈ tables, table ∈ expectedTables)
    (within : Within tree) :
    ((∃ table ∈ tables, primaryKeyOf server database table = []) ∧ ∃ fault after,
      (exportTables tables).run (snapshotWorld server database) tree = (.raised fault, after)) ∨
    ((∀ table ∈ tables, primaryKeyOf server database table ≠ []) ∧ ∃ after,
      (exportTables tables).run (snapshotWorld server database) tree =
        (.returned (tables.map fun table => (table, ((database.rows table).length : Int))), after) ∧
      Within after ∧ ∀ other, after.content.lookup other =
        (dataFile server database tables other).or (tree.content.lookup other)) := by
  induction tables generalizing tree with
  | nil => exact Or.inr ⟨by simp, tree, rfl, within, fun _ => rfl⟩
  | cons table rest inductionHypothesis =>
    rw [exportTables, Program.run_bind]
    rcases @run_exportTable _ server database tree table (expected table List.mem_cons_self) within
      with ⟨keyless, fault, ran⟩ | ⟨keyed, middle, ran, middleWithin, lookups⟩
    · rw [ran]
      exact Or.inl ⟨⟨table, List.mem_cons_self, keyless⟩, fault, tree, rfl⟩
    · rw [ran]
      dsimp only
      rw [Program.run_bind]
      rcases @inductionHypothesis middle
        (fun other member => expected other (List.mem_cons_of_mem _ member)) middleWithin
        with ⟨⟨other, member, keyless⟩, fault, after, raised⟩ |
          ⟨others, after, returned, afterWithin, later⟩
      · rw [raised]
        exact Or.inl ⟨⟨other, List.mem_cons_of_mem _ member, keyless⟩, fault, after, rfl⟩
      · rw [returned]
        refine Or.inr ⟨List.forall_mem_cons.mpr ⟨keyed, others⟩, after, rfl, afterWithin,
          fun other => ?_⟩
        rw [later, lookups, dataFile, dataFile, List.find?_cons]
        by_cases here : other = dataPath table
        · rw [if_pos here]
          simp only [here, decide_true]
          cases found : rest.find? fun known => dataPath table = dataPath known with
          | none => rfl
          | some known =>
            have same := List.find?_some found
            rw [dataPath_injective (of_decide_eq_true same)]
            rfl
        · rw [if_neg here]
          simp only [here, decide_false]

variable (server database) in
/-- A database that can be snapshot: its tables are expected ones, the store is among them, and each
has a primary key. -/
structure Exportable : Prop where
  expected : ∀ table ∈ tableNames server database, table ∈ expectedTables
  store : "store" ∈ tableNames server database
  keyed : ∀ table ∈ tableNames server database, primaryKeyOf server database table ≠ []

variable (server database) in
/-- The counts of the rows of the tables. -/
def rowCounts : List (String × Int) :=
  (tableNames server database).map fun table => (table, ((database.rows table).length : Int))

variable (server database) in
/-- How many rows of the store have no date. -/
def nullCount : Int :=
  ((database.rows "store").countP server.undated : Nat)

theorem sort_unexpected_eq_nil {names known : List String} :
    (names.dedup.filter (· ∉ known)).mergeSort (· ≤ ·) = [] ↔ ∀ name ∈ names, name ∈ known := by
  rw [← List.length_eq_zero_iff, List.length_mergeSort, List.length_eq_zero_iff,
    List.filter_eq_nil_iff]
  simp

/-- The export goes through when the database can be snapshot, and raises when it cannot. -/
theorem run_exportData (target : String) (within : Within tree) :
    (¬Exportable server database ∧ ∃ fault after,
      (exportData target).run (snapshotWorld server database) tree = (.raised fault, after)) ∨
    (Exportable server database ∧ ∃ after,
      (exportData target).run (snapshotWorld server database) tree =
        (.returned (rowCounts server database, nullCount server database), after) ∧
      Within after ∧ ∀ other, after.content.lookup other =
        (dataFile server database (tableNames server database) other).or
          (tree.content.lookup other)) := by
  have discovered : (namesOf ((snapshotWorld server database).search tree .discoverTables)).mergeSort
      (· ≤ ·) = tableNames server database := by
    have names : (snapshotWorld server database).search tree .discoverTables =
        ((server.tables database.schema).map TableDef.name).map .name := by
      rw [List.map_map]
      rfl
    rw [names, namesOf_map]
    rfl
  rw [exportData, Program.run_bind, Program.run_search]
  dsimp only
  rw [Program.run_bind, Program.run_search]
  dsimp only
  rw [Program.run_bind, Program.run_search]
  dsimp only
  rw [discovered]
  by_cases expected : ∀ table ∈ tableNames server database, table ∈ expectedTables
  · rw [if_neg (not_not.mpr (sort_unexpected_eq_nil.mpr expected))]
    by_cases store : "store" ∈ tableNames server database
    · rw [if_neg (not_not.mpr store)]
      show (_ ∧ ∃ fault after, (do
        let rowCounts ← exportTables (tableNames server database)
        let nullCount ← Program.search .countNullOccurredAt
        return (rowCounts, (numberOf nullCount : Int)) : SnapshotProgram _).run _ tree = _) ∨
        (_ ∧ ∃ after, (do
        let rowCounts ← exportTables (tableNames server database)
        let nullCount ← Program.search .countNullOccurredAt
        return (rowCounts, (numberOf nullCount : Int)) : SnapshotProgram _).run _ tree = _ ∧ _)
      rw [Program.run_bind]
      rcases @run_exportTables _ server database tree _ expected within
        with ⟨⟨table, member, keyless⟩, fault, after, ran⟩ | ⟨keyed, after, ran, afterWithin, lookups⟩
      · rw [ran]
        exact Or.inl ⟨fun exportable => exportable.keyed table member keyless, fault, after, rfl⟩
      · rw [ran]
        exact Or.inr ⟨⟨expected, store, keyed⟩, after, rfl, afterWithin, lookups⟩
    · rw [if_pos store]
      exact Or.inl ⟨fun exportable => store exportable.store, _, tree, rfl⟩
  · have some_left := mt sort_unexpected_eq_nil.mp expected
    rw [if_pos some_left]
    exact Or.inl ⟨fun exportable => expected exportable.expected, _, tree, rfl⟩

/-- The files that count are hashed, whatever the manifest is. -/
theorem feed_eq_of_samePayload {first second : FileTree}
    (same : FileTree.SamePayload first second) : first.feed = second.feed := by
  rw [FileTree.feed_eq_stream, FileTree.feed_eq_stream, FileTree.entries_eq_of_samePayload same]

namespace SnapshotRun

variable {run : SnapshotRun} {sha256 : List UInt8 → String} {schemaSql : String}
  {versions : List (String × String)}

/-- A file of a fixture is written whole. -/
theorem run_writeFile {path : List String} (known : path ∈ fixturePaths) (within : Within tree)
    (bytes : List UInt8) :
    ∃ after, (run.writeFile path bytes).run (snapshotWorld server database) tree =
        (.returned (), after) ∧ Within after ∧ ∀ other, after.content.lookup other =
          if other = path then some bytes else tree.content.lookup other := by
  have started := lookup_write within known []
  obtain ⟨after, ran, afterWithin, lookups⟩ := @run_writeChunks _ server database _ _ known
    (within_write within known []) [] (by rw [started, if_pos rfl]) (run.pieces bytes)
  refine ⟨after, ?_, afterWithin, fun other => ?_⟩
  · rw [writeFile, Program.run_bind, Program.run_put]
    exact ran
  · rw [lookups, run.whole, List.nil_append]
    split
    · rfl
    · rename_i different
      rw [started, if_neg different]

variable (server database schemaSql) in
/-- The files of a fixture but for its manifest. -/
def payloadFile (path : List String) : Option (List UInt8) :=
  (dataFile server database (tableNames server database) path).or
    (if path = schemaPath then some (Utf8.bytes schemaSql.toList) else none)

/-- The export goes through when the connection is made and the database can be snapshot, and raises
otherwise. -/
theorem run_exportSnapshot :
    (¬(run.connect = .ok () ∧ Exportable server database) ∧ ∃ fault after,
      (run.exportSnapshot sha256 schemaSql versions).run (snapshotWorld server database) .empty =
        (.raised fault, after)) ∨
    ((run.connect = .ok () ∧ Exportable server database) ∧ ∃ after,
      (run.exportSnapshot sha256 schemaSql versions).run (snapshotWorld server database) .empty =
        (.returned (run.manifest sha256 versions (rowCounts server database)
          (nullCount server database) after.feed), after) ∧ Within after ∧
      ∀ path, after.content.lookup path = payloadFile server database schemaSql path) := by
  obtain ⟨first, wrote, firstWithin, firstLookups⟩ := @run_writeFile _ server database .empty run _
    schemaPath_mem within_empty (Utf8.bytes schemaSql.toList)
  rw [exportSnapshot, Program.run_bind, wrote]
  dsimp only
  rw [Program.run_bind, Program.run_ofOutcome]
  cases connects : run.connect with
  | error text => exact Or.inl ⟨by simp, _, first, rfl⟩
  | ok done =>
    dsimp only [Except.mapError, Outcome.ofExcept]
    rw [Program.run_bind]
    have handled : (tryCatch (exportData run.target) fun fault =>
        Program.done (.raised (run.exportFault fault))).run (snapshotWorld server database) first =
          _ :=
      Program.run_tryCatch_translate run.exportFault (exportData run.target) first
    rcases @run_exportData _ server database first run.target firstWithin
      with ⟨refused, fault, after, ran⟩ | ⟨exportable, after, ran, afterWithin, lookups⟩
    · rw [handled, ran]
      exact Or.inl ⟨fun both => refused both.2, _, after, rfl⟩
    · rw [handled, ran]
      refine Or.inr ⟨⟨rfl, exportable⟩, after, rfl, afterWithin, fun path => ?_⟩
      rw [lookups, firstLookups, payloadFile]
      split
      · rfl
      · exact congrArg _ (Finmap.lookup_empty path)

variable (server database schemaSql) in
/-- A finished fixture: the schema's text, a file for each table, and the manifest. -/
structure Finished (written : FixtureManifest) (tree : FileTree) : Prop where
  within : Within tree
  lookups : ∀ path, tree.content.lookup path =
    if path = manifestPath then some written.fileBytes
    else payloadFile server database schemaSql path

/-- Writing the manifest finishes a fixture. -/
theorem run_writeManifest {written : FixtureManifest} (within : Within tree)
    (lookups : ∀ path, tree.content.lookup path = payloadFile server database schemaSql path) :
    ∃ after, (run.writeFile manifestPath written.fileBytes).run (snapshotWorld server database) tree =
        (.returned (), after) ∧ Finished server database schemaSql written after ∧
      after.feed = tree.feed := by
  obtain ⟨after, wrote, afterWithin, afterLookups⟩ := @run_writeFile _ server database tree run _
    manifestPath_mem within written.fileBytes
  refine ⟨after, wrote, ⟨afterWithin, fun path => ?_⟩, feed_eq_of_samePayload fun path payload => ?_⟩
  · rw [afterLookups, lookups]
  · rw [afterLookups]
    exact if_neg payload

/-- The calls of a snapshot go through when the connection is made and the database can be snapshot,
and raise otherwise. -/
theorem run_writeSnapshot :
    (¬(run.connect = .ok () ∧ Exportable server database) ∧ ∃ fault after,
      (run.writeSnapshot sha256 schemaSql versions).run (snapshotWorld server database) .empty =
        (.raised fault, after)) ∨
    ((run.connect = .ok () ∧ Exportable server database) ∧ ∃ tree,
      (run.writeSnapshot sha256 schemaSql versions).run (snapshotWorld server database) .empty =
        (.returned (run.manifest sha256 versions (rowCounts server database)
          (nullCount server database) tree.feed), tree) ∧
      Finished server database schemaSql (run.manifest sha256 versions (rowCounts server database)
        (nullCount server database) tree.feed) tree) := by
  rw [writeSnapshot, Program.run_bind]
  rcases @run_exportSnapshot _ server database run sha256 schemaSql versions
    with ⟨refused, fault, after, ran⟩ | ⟨allowed, after, ran, within, lookups⟩
  · rw [ran]
    exact Or.inl ⟨refused, fault, after, rfl⟩
  · rw [ran]
    dsimp only
    obtain ⟨tree, wrote, finished, same⟩ := @run_writeManifest _ server database after run schemaSql
      (run.manifest sha256 versions (rowCounts server database) (nullCount server database)
        after.feed) within lookups
    rw [Program.run_bind, wrote]
    refine Or.inr ⟨allowed, tree, ?_, ?_⟩
    · rw [same]
      rfl
    · rw [same]
      exact finished

/-! ### Calls that fail, and stops -/

theorem propagates_writeChunks (path : List String) (held : List UInt8)
    (chunks : List (List UInt8)) : (writeChunks path held chunks).Propagates := by
  induction chunks generalizing held with
  | nil => trivial
  | cons chunk rest inductionHypothesis =>
    exact Program.propagates_bind (Program.propagates_put _ _) fun _ => inductionHypothesis _

theorem propagates_writeFile (path : List String) (bytes : List UInt8) :
    (run.writeFile path bytes).Propagates :=
  Program.propagates_bind (Program.propagates_put _ _) fun _ => propagates_writeChunks _ _ _

theorem propagates_exportTables (tables : List String) : (exportTables tables).Propagates := by
  induction tables with
  | nil => trivial
  | cons table rest inductionHypothesis =>
    refine Program.propagates_bind ?_ fun _ => Program.propagates_bind inductionHypothesis
      fun _ => trivial
    exact Program.propagates_bind (Program.propagates_search _) fun _ =>
      Program.propagates_bind trivial fun _ => Program.propagates_bind (Program.propagates_put _ _)
        fun _ => Program.propagates_bind (Program.propagates_search _) fun _ =>
          Program.propagates_bind (propagates_writeChunks _ _ _) fun _ =>
            Program.propagates_bind (Program.propagates_search _) fun _ => trivial

theorem propagates_exportData (target : String) : (exportData target).Propagates := by
  refine Program.propagates_bind (Program.propagates_search _) fun _ =>
    Program.propagates_bind (Program.propagates_search _) fun _ =>
      Program.propagates_bind (Program.propagates_search _) fun _ => ?_
  dsimp only
  split
  · trivial
  · show Program.Propagates (ite _ _ _)
    split
    · trivial
    · exact Program.propagates_bind (propagates_exportTables _) fun _ =>
        Program.propagates_bind (Program.propagates_search _) fun _ => trivial

theorem propagates_exportSnapshot :
    (run.exportSnapshot sha256 schemaSql versions).Propagates :=
  Program.propagates_bind (propagates_writeFile _ _) fun _ =>
    Program.propagates_bind trivial fun _ =>
      Program.propagates_bind
        (Program.propagates_tryCatch_translate (propagates_exportData _)) fun _ =>
          Program.propagates_bind (Program.propagates_search _) fun _ => trivial

theorem propagates_writeSnapshot : (run.writeSnapshot sha256 schemaSql versions).Propagates :=
  Program.propagates_bind propagates_exportSnapshot fun _ =>
    Program.propagates_bind (propagates_writeFile _ _) fun _ => trivial

/-- A tree with files of a fixture and no manifest. -/
structure Bare (tree : FileTree) : Prop where
  within : Within tree
  unmarked : tree.content.lookup manifestPath = none

theorem bare_write {path : List String} (known : path ∈ fixturePaths) (apart : path ≠ manifestPath)
    (bare : Bare tree) (bytes : List UInt8) : Bare (tree.write path bytes) where
  within := within_write bare.within known bytes
  unmarked := by rw [lookup_write bare.within known, if_neg apart.symm, bare.unmarked]

theorem dataPath_ne_manifestPath (table : String) : dataPath table ≠ manifestPath := by
  intro same
  cases (List.cons.inj same).2

/-- A file that is written chunk by chunk holds the beginning of its bytes at any time. -/
theorem sustains_writeChunks {invariant : FileTree → Prop} {path : List String} {held : List UInt8}
    {chunks : List (List UInt8)}
    (keeps : ∀ tree part, invariant tree → part <+: held ++ chunks.flatten →
      invariant (tree.write path part)) (holds : invariant tree) :
    (writeChunks path held chunks).Sustains (snapshotWorld server database) invariant tree := by
  induction chunks generalizing held tree with
  | nil => trivial
  | cons chunk rest inductionHypothesis =>
    have whole : held ++ (chunk :: rest).flatten = held ++ chunk ++ rest.flatten := by
      rw [List.flatten_cons, List.append_assoc]
    rw [whole] at keeps
    have first := keeps tree (held ++ chunk) holds (List.prefix_append _ _)
    exact Program.sustains_put_bind first (inductionHypothesis keeps first)

theorem sustains_writeFile {invariant : FileTree → Prop} {path : List String} {bytes : List UInt8}
    (keeps : ∀ tree part, invariant tree → part <+: bytes → invariant (tree.write path part))
    (holds : invariant tree) :
    (run.writeFile path bytes).Sustains (snapshotWorld server database) invariant tree := by
  have first := keeps tree [] holds List.nil_prefix
  refine Program.sustains_put_bind first (sustains_writeChunks ?_ first)
  rw [run.whole, List.nil_append]
  exact keeps

theorem sustains_exportTables {tables : List String}
    (expected : ∀ table ∈ tables, table ∈ expectedTables) (bare : Bare tree) :
    (exportTables tables).Sustains (snapshotWorld server database) Bare tree := by
  induction tables generalizing tree with
  | nil => trivial
  | cons table rest inductionHypothesis =>
    have known := dataPath_mem (expected table List.mem_cons_self)
    have keeps (tree : FileTree) (bytes : List UInt8) (bare : Bare tree) :
        Bare (tree.write (dataPath table) bytes) :=
      bare_write known (dataPath_ne_manifestPath table) bare bytes
    refine Program.sustains_bind ?_ bare fun _ after bare => Program.sustains_bind
      (inductionHypothesis (fun other member => expected other (List.mem_cons_of_mem _ member)) bare)
      bare fun _ _ _ => trivial
    refine Program.sustains_search_bind (Program.sustains_bind trivial bare fun _ after bare => ?_)
    have emptied := keeps after [] bare
    exact Program.sustains_put_bind emptied (Program.sustains_search_bind (Program.sustains_bind
      (sustains_writeChunks (fun tree part bare _ => keeps tree part bare) emptied) emptied
      fun _ _ _ => Program.sustains_search_bind trivial))

theorem sustains_exportData (target : String) (bare : Bare tree) :
    (exportData target).Sustains (snapshotWorld server database) Bare tree := by
  refine Program.sustains_search_bind (Program.sustains_search_bind
    (Program.sustains_search_bind ?_))
  dsimp only
  split
  · trivial
  · rename_i none_left
    have expected := sort_unexpected_eq_nil.mp (not_not.mp none_left)
    show Program.Sustains _ _ (ite _ _ _) _
    split
    · trivial
    · exact Program.sustains_bind (sustains_exportTables expected bare) bare fun _ _ _ =>
        Program.sustains_search_bind trivial

theorem sustains_exportSnapshot (bare : Bare tree) :
    (run.exportSnapshot sha256 schemaSql versions).Sustains (snapshotWorld server database) Bare
      tree := by
  have keeps (tree : FileTree) (part : List UInt8) (bare : Bare tree)
      (_ : part <+: Utf8.bytes schemaSql.toList) : Bare (tree.write schemaPath part) :=
    bare_write schemaPath_mem (by decide) bare part
  refine Program.sustains_bind (sustains_writeFile keeps bare) bare fun _ _ bare =>
    Program.sustains_bind trivial bare fun _ _ bare => Program.sustains_bind
      (Program.sustains_tryCatch (sustains_exportData _ bare) bare fun _ _ _ => trivial) bare
      fun _ _ _ => Program.sustains_search_bind trivial

variable (server database schemaSql) in
/-- All that is hashed is written, and the beginning of the manifest. -/
structure Begun (written : FixtureManifest) (tree : FileTree) : Prop where
  exportable : Exportable server database
  within : Within tree
  payload : ∀ path, path ≠ manifestPath →
    tree.content.lookup path = payloadFile server database schemaSql path
  begins : (tree.content.lookup manifestPath).getD [] <+: written.fileBytes

variable (server database run sha256 schemaSql versions) in
/-- What a snapshot has written where it goes on no further: no manifest, or all that is hashed and
the beginning of the manifest. -/
def Halted (tree : FileTree) : Prop :=
  Bare tree ∨ Begun server database schemaSql
    (run.manifest sha256 versions (rowCounts server database) (nullCount server database) tree.feed)
    tree

theorem payloadFile_manifestPath : payloadFile server database schemaSql manifestPath = none := by
  have apart : dataFile server database (tableNames server database) manifestPath = none := by
    rw [dataFile, List.find?_eq_none.mpr, Option.map_none]
    exact fun table _ same => dataPath_ne_manifestPath table (of_decide_eq_true same).symm
  rw [payloadFile, apart, if_neg (by decide)]
  rfl

theorem sustains_writeManifest {written : FixtureManifest}
    (begun : Begun server database schemaSql written tree) :
    (run.writeFile manifestPath written.fileBytes).Sustains (snapshotWorld server database)
      (Begun server database schemaSql written) tree := by
  refine sustains_writeFile (fun tree part begun begins => ?_) begun
  have put := lookup_write begun.within manifestPath_mem part
  refine ⟨begun.exportable, within_write begun.within manifestPath_mem part,
    fun path payload => ?_, ?_⟩
  · rw [put, if_neg payload, begun.payload path payload]
  · rw [put, if_pos rfl]
    exact begins

/-- The writing of a manifest that goes on no further has halted. -/
theorem stopAfter_writeManifest {after : FileTree} (exportable : Exportable server database)
    (within : Within after)
    (lookups : ∀ path, after.content.lookup path = payloadFile server database schemaSql path)
    (calls : Nat) (faults : List (Option FixtureFault)) :
    Halted server database run sha256 schemaSql versions
      ((run.writeFile manifestPath (run.manifest sha256 versions (rowCounts server database)
        (nullCount server database) after.feed).fileBytes).stopAfter (snapshotWorld server database)
          calls faults after) := by
  have starts : Begun server database schemaSql (run.manifest sha256 versions
      (rowCounts server database) (nullCount server database) after.feed) after :=
    ⟨exportable, within, fun path _ => lookups path, by
      rw [lookups, payloadFile_manifestPath]
      exact List.nil_prefix⟩
  have begun := Program.stopAfter_of_sustains (@sustains_writeManifest _ server database after run _ _
    starts) starts calls faults
  generalize Program.stopAfter _ _ _ _ _ = tree at begun ⊢
  have feed : tree.feed = after.feed := feed_eq_of_samePayload fun path apart =>
    (begun.payload path apart).trans (lookups path).symm
  refine Or.inr ?_
  rw [feed]
  exact begun

/-- Wherever a snapshot is stopped, and whichever calls failed, it has halted. -/
theorem stopAfter_writeSnapshot (calls : Nat) (faults : List (Option FixtureFault)) :
    Halted server database run sha256 schemaSql versions
      ((run.writeSnapshot sha256 schemaSql versions).stopAfter (snapshotWorld server database) calls
        faults .empty) := by
  have empty : Bare .empty := ⟨within_empty, Finmap.lookup_empty _⟩
  have exported := @sustains_exportSnapshot _ server database .empty run sha256 schemaSql versions
    empty
  rw [writeSnapshot]
  rcases Program.stopAfter_bind_cases (run.exportSnapshot sha256 schemaSql versions)
    (fun written => do
      run.writeFile manifestPath written.fileBytes
      return written) calls faults FileTree.empty
    with same | ⟨written, middle, left, later, ran, same⟩
  · rw [same]
    exact Or.inl (Program.stopAfter_of_sustains exported empty calls faults)
  · have ran := Program.run_of_propagates propagates_exportSnapshot ran
    rcases @run_exportSnapshot _ server database run sha256 schemaSql versions
      with ⟨-, fault, after, raised⟩ | ⟨⟨-, exportable⟩, after, returned, within, lookups⟩
    · rw [raised] at ran
      cases (Prod.mk.inj ran).1
    · rw [returned] at ran
      obtain ⟨ended, rfl⟩ := Prod.mk.inj ran
      obtain rfl := Outcome.returned.inj ended
      rw [same]
      rcases Program.stopAfter_bind_cases (run.writeFile manifestPath _)
        (fun _ => pure _) left later after with last | ⟨_, tree, _, _, wrote, last⟩
      · rw [last]
        exact stopAfter_writeManifest exportable within lookups left later
      · obtain ⟨all, same⟩ := Program.exists_stopAfter_eq (run.writeFile manifestPath _) later after
        rw [wrote] at same
        rw [last]
        have halted := @stopAfter_writeManifest _ server database run sha256 schemaSql versions after
          exportable within lookups all later
        rw [same] at halted
        exact halted

/-! ### The calls of a snapshot as a whole -/

theorem prepare_eq_ok {directory : Option FileTree} {dumped : String × List (String × String)}
    (prepared : run.prepare directory = .ok dumped) : directory = none ∧
      run.dumpSchema = .ok dumped ∧
      ∃ fdir, fixtureDir run.resolve run.fixturesRoot run.fixtureId = .ok fdir := by
  rw [prepare] at prepared
  cases located : fixtureDir run.resolve run.fixturesRoot run.fixtureId with
  | error error =>
    rw [located] at prepared
    cases prepared
  | ok fdir =>
    rw [located] at prepared
    dsimp only [bind, Except.bind] at prepared
    cases directory with
    | some tree => cases prepared
    | none =>
      refine ⟨rfl, ?_, fdir, rfl⟩
      dsimp only [Option.isSome_none] at prepared
      rw [if_neg (by simp)] at prepared
      dsimp only [pure, Except.pure] at prepared
      cases dump : run.dumpSchema with
      | error error =>
        rw [dump] at prepared
        cases prepared
      | ok found =>
        rw [dump] at prepared
        dsimp only at prepared
        cases made : run.mkdir with
        | error error =>
          rw [made] at prepared
          cases prepared
        | ok _ =>
          rw [made] at prepared
          exact prepared

/-- A snapshot that returns has written a finished fixture where nothing was. -/
theorem createSnapshot_returned {directory after : Option FileTree} {written : FixtureManifest}
    (returned : run.createSnapshot sha256 server database directory = (.returned written, after)) :
    directory = none ∧ Exportable server database ∧
      (∃ fdir, fixtureDir run.resolve run.fixturesRoot run.fixtureId = .ok fdir) ∧
      ∃ schemaSql versions tree, run.dumpSchema = .ok (schemaSql, versions) ∧ after = some tree ∧
        written = run.manifest sha256 versions (rowCounts server database)
          (nullCount server database) tree.feed ∧
        Finished server database schemaSql written tree := by
  rw [createSnapshot] at returned
  cases prepared : run.prepare directory with
  | error error =>
    rw [prepared] at returned
    cases (Prod.mk.inj returned).1
  | ok dumped =>
    obtain ⟨schemaSql, versions⟩ := dumped
    obtain ⟨rfl, dump, located⟩ := prepare_eq_ok prepared
    rw [prepared] at returned
    dsimp only at returned
    rcases ran : (run.writeSnapshot sha256 schemaSql versions).runFaulty
      (snapshotWorld server database) run.faults .empty with ⟨outcome, tree⟩
    rw [ran] at returned
    cases outcome with
    | raised fault => cases (Prod.mk.inj returned).1
    | hung => cases (Prod.mk.inj returned).1
    | returned value =>
      obtain ⟨ended, rfl⟩ := Prod.mk.inj returned
      obtain rfl := Outcome.returned.inj ended
      have ran := Program.run_of_propagates propagates_writeSnapshot ran
      rcases @run_writeSnapshot _ server database run sha256 schemaSql versions
        with ⟨-, fault, other, raised⟩ | ⟨⟨-, exportable⟩, other, finishes, finished⟩
      · rw [raised] at ran
        cases (Prod.mk.inj ran).1
      · rw [finishes] at ran
        obtain ⟨ended, rfl⟩ := Prod.mk.inj ran
        obtain rfl := Outcome.returned.inj ended
        exact ⟨rfl, exportable, located, schemaSql, versions, other, dump, rfl, rfl, finished⟩

/-- A snapshot whose calls succeed returns where it can. -/
theorem createSnapshot_of_exportable {dumped : String × List (String × String)}
    (prepared : run.prepare none = .ok dumped) (connects : run.connect = .ok ())
    (faultless : run.faults = []) (exportable : Exportable server database) :
    ∃ written tree, run.createSnapshot sha256 server database none =
      (.returned written, some tree) := by
  rw [createSnapshot, prepared, faultless]
  obtain ⟨schemaSql, versions⟩ := dumped
  dsimp only
  rw [Program.runFaulty_nil]
  rcases @run_writeSnapshot _ server database run sha256 schemaSql versions
    with ⟨refused, -⟩ | ⟨-, tree, ran, -⟩
  · exact absurd ⟨connects, exportable⟩ refused
  · rw [ran]
    exact ⟨_, tree, rfl⟩

/-- However a snapshot ends, it leaves what was there, or a halted one, or what is left of it. -/
theorem createSnapshot_leaves (directory : Option FileTree) :
    (run.createSnapshot sha256 server database directory).2 = directory ∨
      ∃ schemaSql versions tree, directory = none ∧ run.dumpSchema = .ok (schemaSql, versions) ∧
        (∃ fdir, fixtureDir run.resolve run.fixturesRoot run.fixtureId = .ok fdir) ∧
        Halted server database run sha256 schemaSql versions tree ∧
        ((run.createSnapshot sha256 server database directory).2 = some tree ∨
          (run.createSnapshot sha256 server database directory).2 = run.remains tree) := by
  rw [createSnapshot]
  cases prepared : run.prepare directory with
  | error error => exact Or.inl rfl
  | ok dumped =>
    obtain ⟨schemaSql, versions⟩ := dumped
    obtain ⟨absent, dump, located⟩ := prepare_eq_ok prepared
    dsimp only
    obtain ⟨calls, same⟩ := @Program.exists_stopAfter_eq _ _ _ _ _ _ _
      (snapshotWorld server database) (run.writeSnapshot sha256 schemaSql versions) run.faults
      FileTree.empty
    have halted := @stopAfter_writeSnapshot _ server database run sha256 schemaSql versions calls
      run.faults
    rw [same] at halted
    refine Or.inr ⟨schemaSql, versions, _, absent, dump, located, halted, ?_⟩
    rcases (run.writeSnapshot sha256 schemaSql versions).runFaulty (snapshotWorld server database)
      run.faults .empty with ⟨outcome, tree⟩
    cases outcome with
    | returned written => exact Or.inl rfl
    | raised fault => exact Or.inr rfl
    | hung => exact Or.inl rfl

/-- A snapshot that is stopped leaves what was there, or a halted one. -/
theorem stopSnapshot_cases (calls : Nat) (directory : Option FileTree) :
    run.stopSnapshot sha256 server database calls directory = directory ∨
      ∃ schemaSql versions tree, directory = none ∧ run.dumpSchema = .ok (schemaSql, versions) ∧
        (∃ fdir, fixtureDir run.resolve run.fixturesRoot run.fixtureId = .ok fdir) ∧
        Halted server database run sha256 schemaSql versions tree ∧
        run.stopSnapshot sha256 server database calls directory = some tree := by
  rw [stopSnapshot]
  cases prepared : run.prepare directory with
  | error error => exact Or.inl rfl
  | ok dumped =>
    obtain ⟨schemaSql, versions⟩ := dumped
    obtain ⟨absent, dump, located⟩ := prepare_eq_ok prepared
    exact Or.inr ⟨schemaSql, versions, _, absent, dump, located,
      stopAfter_writeSnapshot calls run.faults, rfl⟩

/-- A fixture that is there stays as it is. -/
theorem createSnapshot_some (tree : FileTree) :
    ∃ fault, run.createSnapshot sha256 server database (some tree) = (.raised fault, some tree) := by
  rw [createSnapshot]
  cases prepared : run.prepare (some tree) with
  | error error => exact ⟨error, rfl⟩
  | ok dumped => cases (prepare_eq_ok prepared).1

theorem stopSnapshot_some (calls : Nat) (tree : FileTree) :
    run.stopSnapshot sha256 server database calls (some tree) = some tree := by
  rw [stopSnapshot]
  cases prepared : run.prepare (some tree) with
  | error error => rfl
  | ok dumped => cases (prepare_eq_ok prepared).1

end SnapshotRun

end

end Fixture

end FleetMemory
