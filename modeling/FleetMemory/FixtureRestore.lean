/-
This file models the restore of a fixture into a database: the check of the fixture's files, the
refusal of a database that has any of their tables, and one transaction that runs the schema and
copies the rows table by table. It proves that a restore changes nothing that others see unless it
returns, and that one that returns has checked every file and loaded them all.
-/

import FleetMemory.FixtureSnapshot

namespace FleetMemory.Fixture

open CopyText (Field Row)

/-! ### Constraints -/

section

variable {Schema : Type} (server : Server Schema)

/-- The fields of some columns of a table's rows. -/
def fieldsIn (database : Database Schema) (table : String) (columns : List String) :
    List (List Field) :=
  (tableDef? server database table).elim [] fun known =>
    (database.rows table).map (known.fieldsOf columns)

/-- A row refers to a row that is there, or one of its columns has no value. -/
def Refers (database : Database Schema) (known : TableDef) (reference : Reference) (row : Row) :
    Prop :=
  none ∈ known.fieldsOf reference.columns row ∨
    known.fieldsOf reference.columns row ∈
      fieldsIn server database reference.table reference.referenced

/-- The rows of a table have its columns, are apart by their keys, and refer to rows that are
there. -/
def Meets (database : Database Schema) (known : TableDef) : Prop :=
  (∀ row ∈ database.rows known.name, row.length = known.columns.length) ∧
    (known.primaryKey = [] ∨
      (∀ row ∈ database.rows known.name, none ∉ known.fieldsOf known.primaryKey row) ∧
        ((database.rows known.name).map (known.fieldsOf known.primaryKey)).Nodup) ∧
    ∀ row ∈ database.rows known.name, ∀ reference ∈ known.references,
      Refers server database known reference row

instance decidableMeets (database : Database Schema) (known : TableDef) :
    Decidable (Meets server database known) := by
  unfold Meets Refers
  infer_instance

end

/-! ### Calls on the target -/

/-- An exception of the database driver. -/
def driverFault (text : String) : FixtureFault :=
  .other "psycopg.Error" text

/-- The rows of a file that is copied in. -/
def readRows (data : List UInt8) : Option (List Row) :=
  if Utf8.bytes (Utf8.decode data) = data then CopyText.read (Utf8.decode data) else none

/-- Rows that are added to a table. -/
def Database.append {Schema : Type} (database : Database Schema) (table : String)
    (rows : List Row) : Database Schema :=
  { database with rows := Function.update database.rows table (database.rows table ++ rows) }

section

variable {Schema : Type} (server : Server Schema)

/-- `COPY … FROM STDIN`. -/
def copyIn (table : String) (data : List UInt8) (database : Database Schema) :
    Except FixtureFault (Database Schema) :=
  match tableDef? server database table with
  | none => .error (driverFault (server.refusal table))
  | some known =>
    match readRows data with
    | none => .error (driverFault (server.refusal table))
    | some rows =>
      match rows.mapM (server.input known) with
      | .error text => .error (driverFault text)
      | .ok taken =>
        if Meets server (database.append table taken) known then .ok (database.append table taken)
        else .error (driverFault (server.refusal table))

/-- `(fdir / "data" / f"{table}.copy").read_bytes()`. -/
def readData (tree : FileTree) (table : String) : Except FixtureFault (List UInt8) :=
  match tree.content.lookup (dataPath table) with
  | some data => .ok data
  | none => .error (.other "IsADirectoryError" (table ++ ".copy"))

/-- A table's file is read and copied in. -/
def loadTable (tree : FileTree) (database : Database Schema) (table : String) :
    Except FixtureFault (Database Schema) := do
  let data ← readData tree table
  copyIn server table data database

/-- `cur.execute(schema_sql)`. -/
def runSchema (schemaSql : String) (database : Database Schema) :
    Except FixtureFault (Database Schema) :=
  (server.run database schemaSql).mapError driverFault

/-- What a restore loads: the schema, then the tables in turn. -/
def load (tree : FileTree) (schemaSql : String) (tables : List String)
    (database : Database Schema) : Except FixtureFault (Database Schema) := do
  let prepared ← runSchema server schemaSql database
  tables.foldlM (loadTable server tree) prepared

/-- The tables of the fixture that the target has. -/
def existing (tables : List String) (database : Database Schema) : List String :=
  (((server.tables database.schema).map TableDef.name).filter (· ∈ tables)).mergeSort (· ≤ ·)

abbrev RestoreDriver (Schema : Type) := Sql.Driver (Database Schema) FixtureFault

/-- A call that changes the database. -/
def change (effect : Database Schema → Except FixtureFault (Database Schema)) :
    RestoreDriver Schema Unit :=
  Sql.call fun database => (effect database).map fun after => ((), after)

def copyAll (tree : FileTree) : List String → RestoreDriver Schema Unit
  | [] => pure ()
  | table :: rest => do
    change fun database => loadTable server tree database table
    copyAll tree rest

/-- The calls of the transaction, up to its commit. -/
def loadFixture (tree : FileTree) (schemaSql : String) (tables : List String) :
    RestoreDriver Schema Unit := do
  change (runSchema server schemaSql)
  copyAll server tree tables

end

/-! ### The restore -/

/-- A call of `restore_fixture`: its arguments, what it calls, and how the connection and each
further call go. -/
structure RestoreRun where
  fixtureId : String
  targetDsn : String
  parseConninfo : String → List (String × String)
  fixturesRoot : String
  resolve : String → String
  runtime : Runtime
  floatOf : String → PyFloat
  connect : Except String Unit
  faults : List (Option FixtureFault)

namespace RestoreRun

variable (run : RestoreRun)

/-- `sanitize_target(target_dsn)`. -/
def target : String :=
  sanitizeTarget run.parseConninfo run.targetDsn

def scrubbed (text : String) : String :=
  scrubSecrets run.parseConninfo text run.targetDsn

/-- What an exception of the transaction is turned into. -/
def restoreFault : FixtureFault → FixtureFault
  | .fixture error => .fixture error
  | .valueError text => .fixture (.fixture ("Restore of fixture '" ++ run.fixtureId ++ "' into " ++
      run.target ++ " failed: " ++ run.scrubbed text))
  | .other _ text => .fixture (.fixture ("Restore of fixture '" ++ run.fixtureId ++ "' into " ++
      run.target ++ " failed: " ++ run.scrubbed text))

/-- `(fdir / "schema.sql").read_text(encoding="utf-8")`. -/
def readSchema (tree : FileTree) : Except FixtureFault String :=
  match tree.content.lookup schemaPath with
  | none => .error (.other "FileNotFoundError" "schema.sql")
  | some bytes =>
    match readText bytes with
    | none => .error (.other "UnicodeDecodeError" "")
    | some text => .ok text

variable (sha256 : List UInt8 → String)

/-- What `restore_fixture` does before it connects: the tables in their order, the manifest and the
schema's text. -/
def verify (directory : Option FileTree) :
    Except FixtureFault (List String × FixtureManifest × String) := do
  let fdir ← fixtureDir run.resolve run.fixturesRoot run.fixtureId
  let stated ← readManifest run.runtime run.floatOf fdir directory
  let tables ← (verifiedTables sha256 fdir run.fixtureId (.ok ⟨stated.contentHash⟩)
    directory).mapError .fixture
  let manifest ← readManifest run.runtime run.floatOf fdir directory
  let schemaSql ← readSchema (directory.getD .empty)
  return (tables, manifest, schemaSql)

variable {Schema : Type} (server : Server Schema)

/-- The calls on the connection. -/
def restoreCalls (tree : FileTree) (tables : List String) (schemaSql : String) :
    RestoreDriver Schema Unit := do
  let found ← Sql.call fun database => .ok (existing server tables database, database)
  if found ≠ [] then
    throw (.fixture (.fixture ("Target database " ++ run.target ++
      " already contains fixture tables: " ++ ", ".intercalate found ++
      "; per-run stores must be fresh")))
  Sql.translate run.restoreFault do
    let loaded ← loadFixture server tree schemaSql tables
    Sql.commit
    return loaded

/-- `restore_fixture` of what lies at the fixture's path, with the database others see after it. -/
def restoreFixture (directory : Option FileTree) (database : Database Schema) :
    Except FixtureFault FixtureManifest × Database Schema :=
  match run.verify sha256 directory with
  | .error fault => (.error fault, database)
  | .ok (tables, manifest, schemaSql) =>
    match run.connect with
    | .error text => (.error (.fixture (.fixture ("Cannot connect to " ++ run.target ++ ": " ++
        run.scrubbed text))), database)
    | .ok _ =>
      match Sql.runIn (run.restoreCalls server (directory.getD .empty) tables schemaSql)
          ⟨database, database, run.faults⟩ with
      | (.ok _, session) => (.ok manifest, session.committed)
      | (.error fault, session) => (.error fault, session.committed)

end RestoreRun

/-! ### All or nothing -/

section

variable {Schema : Type} {server : Server Schema} {tree : FileTree} {schemaSql : String}
  {tables : List String}

theorem keepsCommitted_change (effect : Database Schema → Except FixtureFault (Database Schema)) :
    Sql.KeepsCommitted (change effect) :=
  Sql.keepsCommitted_call _

theorem onlyRaises_change (effect : Database Schema → Except FixtureFault (Database Schema)) :
    Sql.OnlyRaises (change effect) :=
  Sql.onlyRaises_call _

theorem keepsCommitted_loadFixture :
    Sql.KeepsCommitted (loadFixture server tree schemaSql tables) := by
  refine (keepsCommitted_change _).bind fun _ => ?_
  induction tables with
  | nil => exact Sql.keepsCommitted_pure ()
  | cons table rest inductionHypothesis =>
    exact (keepsCommitted_change _).bind fun _ => inductionHypothesis

theorem onlyRaises_loadFixture : Sql.OnlyRaises (loadFixture server tree schemaSql tables) := by
  refine (onlyRaises_change _).bind fun _ => ?_
  induction tables with
  | nil => exact Sql.onlyRaises_pure ()
  | cons table rest inductionHypothesis =>
    exact (onlyRaises_change _).bind fun _ => inductionHypothesis

/-- A change that no call failed for has its effect, or raises. -/
theorem runIn_change {effect : Database Schema → Except FixtureFault (Database Schema)}
    {committed working : Database Schema} :
    Sql.runIn (change effect) ⟨committed, working, []⟩ =
      match effect working with
      | .ok after => (.ok (), ⟨committed, after, []⟩)
      | .error fault => (.error fault, ⟨committed, working, []⟩) := by
  rw [change, Sql.runIn_call]
  dsimp only [List.headD_nil, List.tail_nil]
  cases effect working <;> rfl

theorem runIn_copyAll {committed working : Database Schema} :
    (∀ after, tables.foldlM (loadTable server tree) working = .ok after →
      Sql.runIn (copyAll server tree tables) ⟨committed, working, []⟩ =
        (.ok (), ⟨committed, after, []⟩)) ∧
    ∀ fault, tables.foldlM (loadTable server tree) working = .error fault →
      (Sql.runIn (copyAll server tree tables) ⟨committed, working, []⟩).1 = .error fault := by
  induction tables generalizing working with
  | nil =>
    refine ⟨fun after loaded => ?_, fun fault failed => ?_⟩
    · obtain rfl := Except.ok.inj loaded
      rfl
    · cases failed
  | cons table rest inductionHypothesis =>
    rw [List.foldlM_cons, copyAll, Sql.runIn_bind, runIn_change]
    cases loadTable server tree working table with
    | error fault =>
      refine ⟨fun after loaded => ?_, fun other failed => ?_⟩
      · cases loaded
      · obtain rfl := Except.error.inj failed
        rfl
    | ok next => exact inductionHypothesis

/-- The transaction loads the fixture into what it sees, or raises. -/
theorem runIn_loadFixture {committed working : Database Schema} :
    (∀ after, load server tree schemaSql tables working = .ok after →
      Sql.runIn (loadFixture server tree schemaSql tables) ⟨committed, working, []⟩ =
        (.ok (), ⟨committed, after, []⟩)) ∧
    ∀ fault, load server tree schemaSql tables working = .error fault →
      (Sql.runIn (loadFixture server tree schemaSql tables) ⟨committed, working, []⟩).1 =
        .error fault := by
  rw [load, loadFixture, Sql.runIn_bind, runIn_change]
  cases runSchema server schemaSql working with
  | error fault =>
    refine ⟨fun after loaded => ?_, fun other failed => ?_⟩
    · cases loaded
    · obtain rfl := Except.error.inj failed
      rfl
  | ok prepared => exact runIn_copyAll

namespace RestoreRun

variable {run : RestoreRun} {sha256 : List UInt8 → String} {directory : Option FileTree}
  {database after : Database Schema} {manifest : FixtureManifest}

theorem restoreCalls_kept {session final : Sql.Session (Database Schema) FixtureFault}
    {fault : FixtureFault}
    (raised : Sql.runIn (run.restoreCalls server tree tables schemaSql) session =
      (.error fault, final)) : final.committed = session.committed := by
  have asked := Sql.keepsCommitted_call (fun database : Database Schema =>
    (.ok (existing server tables database, database) : Except FixtureFault _)) session
  rw [restoreCalls, Sql.runIn_bind] at raised
  rcases answered : Sql.runIn (Sql.call fun database : Database Schema =>
    (.ok (existing server tables database, database) : Except FixtureFault _)) session
    with ⟨outcome, middle⟩
  rw [answered] at raised asked
  cases outcome with
  | error error =>
    obtain ⟨-, rfl⟩ := Prod.mk.inj raised
    exact asked
  | ok found =>
    dsimp only at raised asked
    by_cases fresh : found = []
    · rw [if_neg (not_not.mpr fresh)] at raised
      change Sql.runIn (Sql.translate run.restoreFault _) middle = _ at raised
      rw [Sql.runIn_translate] at raised
      rcases ran : Sql.runIn (do
        let loaded ← loadFixture server tree schemaSql tables
        Sql.commit
        return loaded) middle with ⟨ended, last⟩
      rw [ran] at raised
      obtain ⟨failed, rfl⟩ := Prod.mk.inj raised
      cases ended with
      | ok value => cases failed
      | error error => rw [Sql.committed_of_raised keepsCommitted_loadFixture ran, asked]
    · rw [if_pos fresh, Sql.runIn_bind, Sql.runIn_throw] at raised
      obtain ⟨-, rfl⟩ := Prod.mk.inj raised
      exact asked

theorem onlyRaises_restoreCalls : Sql.OnlyRaises (run.restoreCalls server tree tables schemaSql) := by
  refine (Sql.onlyRaises_call _).bind fun found => ?_
  have transaction : Sql.OnlyRaises (do
      let loaded ← loadFixture server tree schemaSql tables
      Sql.commit
      return loaded) :=
    onlyRaises_loadFixture.bind fun loaded =>
      Sql.onlyRaises_commit.bind fun _ => Sql.onlyRaises_pure loaded
  by_cases fresh : found = []
  · rw [if_neg (not_not.mpr fresh)]
    exact transaction.translate _
  · rw [if_pos fresh]
    exact (Sql.onlyRaises_throw _).bind fun _ => transaction.translate _

/-- The calls go through when the target has none of the tables and the fixture loads. -/
theorem runIn_restoreCalls :
    (∀ after, existing server tables database = [] →
      load server tree schemaSql tables database = .ok after →
        Sql.runIn (run.restoreCalls server tree tables schemaSql) ⟨database, database, []⟩ =
          (.ok (), ⟨after, after, []⟩)) ∧
    ∀ value final, Sql.runIn (run.restoreCalls server tree tables schemaSql)
        ⟨database, database, []⟩ = (.ok value, final) →
      existing server tables database = [] ∧
        load server tree schemaSql tables database = .ok final.committed := by
  have found : Sql.runIn (run.restoreCalls server tree tables schemaSql) ⟨database, database, []⟩ =
      if existing server tables database = [] then
        ((Sql.runIn (do
          let loaded ← loadFixture server tree schemaSql tables
          Sql.commit
          return loaded) ⟨database, database, []⟩).1.mapError run.restoreFault,
        (Sql.runIn (do
          let loaded ← loadFixture server tree schemaSql tables
          Sql.commit
          return loaded) ⟨database, database, []⟩).2)
      else (.error (.fixture (.fixture ("Target database " ++ run.target ++
        " already contains fixture tables: " ++ ", ".intercalate (existing server tables database) ++
        "; per-run stores must be fresh"))), ⟨database, database, []⟩) := by
    rw [restoreCalls, Sql.runIn_call_bind rfl]
    by_cases fresh : existing server tables database = []
    · rw [if_neg (not_not.mpr fresh), if_pos fresh]
      rfl
    · rw [if_pos fresh, if_neg fresh]
      rfl
  rw [found]
  cases loads : load server tree schemaSql tables database with
  | ok loaded =>
    have ran := (@runIn_loadFixture _ server tree schemaSql tables database database).1 loaded loads
    refine ⟨fun after fresh same => ?_, fun value final returned => ?_⟩
    · obtain rfl := Except.ok.inj same
      rw [if_pos fresh, Sql.runIn_bind, ran]
      rfl
    · by_cases fresh : existing server tables database = []
      · rw [if_pos fresh, Sql.runIn_bind, ran] at returned
        obtain ⟨-, rfl⟩ := Prod.mk.inj returned
        exact ⟨fresh, rfl⟩
      · rw [if_neg fresh] at returned
        cases (Prod.mk.inj returned).1
  | error fault =>
    have ran := (@runIn_loadFixture _ server tree schemaSql tables database database).2 fault loads
    refine ⟨fun after fresh same => (by cases same), fun value final returned => ?_⟩
    by_cases fresh : existing server tables database = []
    · rw [if_pos fresh, Sql.runIn_bind] at returned
      rcases ended : Sql.runIn (loadFixture server tree schemaSql tables) ⟨database, database, []⟩
        with ⟨outcome, last⟩
      rw [ended] at ran returned
      dsimp only at ran
      rw [ran] at returned
      cases (Prod.mk.inj returned).1
    · rw [if_neg fresh] at returned
      cases (Prod.mk.inj returned).1

theorem sort_sdiff_eq_nil {first second : List String} :
    (first.toFinset \ second.toFinset).sort (· ≤ ·) = [] ↔ ∀ name ∈ first, name ∈ second := by
  constructor
  · intro none_left name member
    by_contra absent
    have inside : name ∈ (first.toFinset \ second.toFinset).sort (· ≤ ·) := by
      rw [Finset.mem_sort, Finset.mem_sdiff, List.mem_toFinset, List.mem_toFinset]
      exact ⟨member, absent⟩
    rw [none_left] at inside
    cases inside
  · intro subset
    refine List.eq_nil_iff_forall_not_mem.mpr fun name inside => ?_
    rw [Finset.mem_sort, Finset.mem_sdiff, List.mem_toFinset, List.mem_toFinset] at inside
    exact inside.2 (subset name inside.1)

/-- The tables of a fixture are found when its files have the hash that is stated, and each data file
is that of a known table. -/
theorem verifiedTables_eq_ok {fdir fixtureId stated : String} :
    verifiedTables sha256 fdir fixtureId (.ok ⟨stated⟩) (some tree) = .ok tables ↔
      sha256 tree.feed = stated ∧ copyTables tree ≠ [] ∧
        (∀ table ∈ copyTables tree, table ∈ restoreOrder) ∧
        tables = restoreOrder.filter (· ∈ copyTables tree) := by
  rw [verifiedTables, computeContentHash]
  by_cases same : sha256 tree.feed = stated
  · by_cases empty : copyTables tree = []
    · simp [bind, Except.bind, same, empty, throw, throwThe, MonadExceptOf.throw]
    · by_cases unknown : ∀ table ∈ copyTables tree, table ∈ restoreOrder
      · have none_left := sort_sdiff_eq_nil.mpr unknown
        simp [bind, Except.bind, same, empty, none_left, pure, Except.pure, eq_comm]
        exact fun _ => unknown
      · have some_left := mt sort_sdiff_eq_nil.mp unknown
        simp [bind, Except.bind, same, empty, unknown, some_left, throw, throwThe,
          MonadExceptOf.throw]
  · simp [bind, Except.bind, same, throw, throwThe, MonadExceptOf.throw]

/-- What a restore has checked: the manifest is read, it states the hash of the files, and there is
data, all of it of known tables. -/
theorem verify_eq_ok : run.verify sha256 directory = .ok (tables, manifest, schemaSql) ↔
    ∃ fdir tree, directory = some tree ∧
      fixtureDir run.resolve run.fixturesRoot run.fixtureId = .ok fdir ∧
      readManifest run.runtime run.floatOf fdir (some tree) = .ok manifest ∧
      sha256 tree.feed = manifest.contentHash ∧ readSchema tree = .ok schemaSql ∧
      copyTables tree ≠ [] ∧ (∀ table ∈ copyTables tree, table ∈ restoreOrder) ∧
      tables = restoreOrder.filter (· ∈ copyTables tree) := by
  constructor
  · intro verified
    rw [verify] at verified
    cases located : fixtureDir run.resolve run.fixturesRoot run.fixtureId with
    | error fault =>
      rw [located] at verified
      cases verified
    | ok fdir =>
      rw [located] at verified
      dsimp only [bind, Except.bind] at verified
      cases directory with
      | none => cases verified
      | some tree =>
        cases read : readManifest run.runtime run.floatOf fdir (some tree) with
        | error fault =>
          rw [read] at verified
          cases verified
        | ok stated =>
          rw [read] at verified
          dsimp only at verified
          cases checked : verifiedTables sha256 fdir run.fixtureId (.ok ⟨stated.contentHash⟩)
            (some tree) with
          | error error =>
            rw [checked] at verified
            cases verified
          | ok found =>
            rw [checked] at verified
            dsimp only [Except.mapError, Option.getD_some] at verified
            cases schema : readSchema tree with
            | error fault =>
              rw [schema] at verified
              cases verified
            | ok text =>
              rw [schema] at verified
              obtain ⟨rfl, rest⟩ := Prod.mk.inj (Except.ok.inj verified)
              obtain ⟨rfl, rfl⟩ := Prod.mk.inj rest
              obtain ⟨hashed, filled, known, order⟩ := verifiedTables_eq_ok.mp checked
              exact ⟨fdir, tree, rfl, rfl, read, hashed, schema, filled, known, order⟩
  · rintro ⟨fdir, tree, rfl, located, read, hashed, schema, filled, known, order⟩
    have checked := @verifiedTables_eq_ok tree tables sha256 fdir run.fixtureId manifest.contentHash
    rw [verify, located]
    dsimp only [bind, Except.bind]
    rw [read]
    dsimp only
    rw [checked.mpr ⟨hashed, filled, known, order⟩]
    dsimp only [Except.mapError, Option.getD_some]
    rw [schema]
    rfl

variable (server run sha256 directory database) in
/-- What a restore is for: the fixture's manifest is read and states the hash of its files, these
hold data of known tables alone, the target has none of them, and the schema and all of the rows are
loaded. -/
def Restores (manifest : FixtureManifest) (after : Database Schema) : Prop :=
  ∃ fdir tree schemaSql, directory = some tree ∧
    fixtureDir run.resolve run.fixturesRoot run.fixtureId = .ok fdir ∧
    readManifest run.runtime run.floatOf fdir (some tree) = .ok manifest ∧
    sha256 tree.feed = manifest.contentHash ∧ readSchema tree = .ok schemaSql ∧
    copyTables tree ≠ [] ∧ (∀ table ∈ copyTables tree, table ∈ restoreOrder) ∧
    existing server (restoreOrder.filter (· ∈ copyTables tree)) database = [] ∧
    load server tree schemaSql (restoreOrder.filter (· ∈ copyTables tree)) database = .ok after

/-- A restore that raises leaves what others see as it was. -/
theorem restoreFixture_raised {fault : FixtureFault}
    (raised : run.restoreFixture sha256 server directory database = (.error fault, after)) :
    after = database := by
  rw [restoreFixture] at raised
  cases verified : run.verify sha256 directory with
  | error error =>
    rw [verified] at raised
    exact (Prod.mk.inj raised).2.symm
  | ok found =>
    obtain ⟨tables, manifest, schemaSql⟩ := found
    rw [verified] at raised
    dsimp only at raised
    cases connects : run.connect with
    | error text =>
      rw [connects] at raised
      exact (Prod.mk.inj raised).2.symm
    | ok _ =>
      rw [connects] at raised
      dsimp only at raised
      rcases ran : Sql.runIn (run.restoreCalls server (directory.getD .empty) tables schemaSql)
        ⟨database, database, run.faults⟩ with ⟨outcome, final⟩
      rw [ran] at raised
      cases outcome with
      | ok value => cases (Prod.mk.inj raised).1
      | error error =>
        rw [← (Prod.mk.inj raised).2]
        exact restoreCalls_kept ran

/-- A restore that returns has restored. -/
theorem restoreFixture_returned
    (returned : run.restoreFixture sha256 server directory database = (.ok manifest, after)) :
    Restores server run sha256 directory database manifest after := by
  rw [restoreFixture] at returned
  cases verified : run.verify sha256 directory with
  | error error =>
    rw [verified] at returned
    cases (Prod.mk.inj returned).1
  | ok found =>
    obtain ⟨tables, stated, schemaSql⟩ := found
    rw [verified] at returned
    dsimp only at returned
    cases connects : run.connect with
    | error text =>
      rw [connects] at returned
      cases (Prod.mk.inj returned).1
    | ok _ =>
      rw [connects] at returned
      dsimp only at returned
      rcases ran : Sql.runIn (run.restoreCalls server (directory.getD .empty) tables schemaSql)
        ⟨database, database, run.faults⟩ with ⟨outcome, final⟩
      rw [ran] at returned
      cases outcome with
      | error error => cases (Prod.mk.inj returned).1
      | ok value =>
        obtain ⟨same, rfl⟩ := Prod.mk.inj returned
        obtain rfl := Except.ok.inj same
        have faultless := onlyRaises_restoreCalls _ _ _ ran
        obtain ⟨fresh, loaded⟩ := runIn_restoreCalls.2 _ _ faultless
        obtain ⟨fdir, tree, rfl, located, read, hashed, schema, filled, known, rfl⟩ :=
          verify_eq_ok.mp verified
        exact ⟨fdir, tree, schemaSql, rfl, located, read, hashed, schema, filled, known, fresh,
          loaded⟩

/-- A restore whose calls succeed returns where it can. -/
theorem restoreFixture_of_restores (connects : run.connect = .ok ()) (faultless : run.faults = [])
    (restores : Restores server run sha256 directory database manifest after) :
    run.restoreFixture sha256 server directory database = (.ok manifest, after) := by
  obtain ⟨fdir, tree, schemaSql, rfl, located, read, hashed, schema, filled, known, fresh, loaded⟩ :=
    restores
  have verified := (@verify_eq_ok schemaSql _ run sha256 (some tree) manifest).mpr
    ⟨fdir, tree, rfl, located, read, hashed, schema, filled, known, rfl⟩
  rw [restoreFixture, verified]
  dsimp only
  rw [connects, faultless]
  dsimp only [Option.getD_some]
  rw [runIn_restoreCalls.1 after fresh loaded]

end RestoreRun

end

/-- A restore is all or nothing: one that raises changes nothing that others see, one that returns
has checked the files and loaded them all, and one whose calls succeed returns where it can. A commit
that raises is one that the server did not apply: that its reply is lost is not among its fates. -/
theorem restoreFixture_atomic {Schema : Type} (server : Server Schema) (sha256 : List UInt8 → String)
    (run : RestoreRun) (directory : Option FileTree) (database : Database Schema) :
    (∀ fault after, run.restoreFixture sha256 server directory database = (.error fault, after) →
      after = database) ∧
    (∀ manifest after, run.restoreFixture sha256 server directory database = (.ok manifest, after) →
      RestoreRun.Restores server run sha256 directory database manifest after) ∧
    ∀ manifest after, run.connect = .ok () → run.faults = [] →
      RestoreRun.Restores server run sha256 directory database manifest after →
      run.restoreFixture sha256 server directory database = (.ok manifest, after) :=
  ⟨fun _ _ => RestoreRun.restoreFixture_raised, fun _ _ => RestoreRun.restoreFixture_returned,
    fun _ _ => RestoreRun.restoreFixture_of_restores⟩

end FleetMemory.Fixture
