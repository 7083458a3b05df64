/-
This file proves that a snapshot can be restored and taken again: what is restored into a fresh
database are the rows that were snapshot, and every later snapshot of those rows, in whatever order
they lie, by whatever dump session and under whatever id, writes the same payload.
-/

import FleetMemory.FixtureRestore

namespace Markdown

/-- A line that does not end before its text does. -/
def OneLine (text : String) : Prop :=
  ∀ character ∈ text.toList, lineBreak character = false

instance (text : String) : Decidable (OneLine text) :=
  List.decidableBAll _ text.toList

theorem go_append {line : List Char} (one : ∀ character ∈ line, lineBreak character = false)
    (before rest : List Char) : splitLines.go before (line ++ '\n' :: rest) =
      (before.reverse ++ line) :: splitLines.go [] rest := by
  induction line generalizing before with
  | nil =>
    rw [List.nil_append, List.append_nil, splitLines.go]
    · rfl
    · simp
  | cons character others inductionHypothesis =>
    have here := one character List.mem_cons_self
    rw [List.cons_append, splitLines.go]
    · rw [here, if_neg (by simp), inductionHypothesis fun other member =>
        one other (List.mem_cons_of_mem _ member)]
      simp
    · rintro more rfl
      exact absurd here (by decide)

/-- The lines of a text are those it was made of. -/
theorem splitLines_flatMap {texts : List String} (one : ∀ text ∈ texts, OneLine text) :
    splitLines (String.ofList (texts.flatMap fun text => text.toList ++ ['\n'])) = texts := by
  have lines : splitLines.go [] (texts.flatMap fun text => text.toList ++ ['\n']) =
      texts.map String.toList := by
    induction texts with
    | nil => rfl
    | cons text rest inductionHypothesis =>
      rw [List.flatMap_cons, List.append_assoc, List.singleton_append,
        go_append (one text List.mem_cons_self), inductionHypothesis fun other member =>
          one other (List.mem_cons_of_mem _ member)]
      rfl
  rw [splitLines, String.toList_ofList, lines, List.map_map]
  exact List.map_id'' (fun text => String.ofList_toList) texts

end Markdown

namespace FleetMemory.Fixture

open CopyText (Field Row)

/-! ### The dump of a schema -/

/-- The text of a line that is the schema's own. -/
def ScriptLine.own? : ScriptLine → Option String
  | own text => some text
  | _ => none

/-- The schema's own lines of a dump. -/
def ownLines (lines : List ScriptLine) : List String :=
  lines.filterMap ScriptLine.own?

/-- What `pg_dump` prints in a session. -/
def dumpText (session : DumpSession) (lines : List ScriptLine) : String :=
  String.ofList ((lines.map (ScriptLine.render session)).flatMap fun text => text.toList ++ ['\n'])

/-- A session whose token and versions stand in their lines. -/
structure DumpSession.Plain (session : DumpSession) : Prop where
  token : Markdown.OneLine session.token
  serverVersion : Markdown.OneLine session.serverVersion
  dumpVersion : Markdown.OneLine session.dumpVersion

/-- A line that, if it is the schema's own, is one line that none of the volatile prefixes opens. -/
def Stable (line : ScriptLine) : Prop :=
  ∀ text ∈ line.own?, Markdown.OneLine text ∧ keptLine text = true

section

variable {session : DumpSession} {lines : List ScriptLine}

theorem oneLine_append {opening text : String} (first : Markdown.OneLine opening)
    (second : Markdown.OneLine text) : Markdown.OneLine (opening ++ text) := by
  intro character member
  rw [String.toList_append, List.mem_append] at member
  exact member.elim (first character) (second character)

theorem oneLine_render (plain : session.Plain) {line : ScriptLine} (stable : Stable line) :
    Markdown.OneLine (line.render session) := by
  cases line with
  | own text => exact (stable text rfl).1
  | restrict => exact @oneLine_append "\\restrict " _ (by decide) plain.token
  | unrestrict => exact @oneLine_append "\\unrestrict " _ (by decide) plain.token
  | serverVersion =>
    exact @oneLine_append "-- Dumped from database version " _ (by decide) plain.serverVersion
  | dumpVersion =>
    exact @oneLine_append "-- Dumped by pg_dump version " _ (by decide) plain.dumpVersion

theorem startsWith_append (opening text : String) :
    PosixPath.startsWith opening (opening ++ text) = true := by
  rw [PosixPath.startsWith_iff, String.toList_append]
  exact List.prefix_append _ _

theorem keptLine_of_meta {opening text : String} (known : opening ∈ psqlMetaPrefixes)
    (opens : PosixPath.startsWith opening text = true) : keptLine text = false := by
  have found : psqlMetaPrefixes.any (PosixPath.startsWith · text) = true :=
    List.any_eq_true.mpr ⟨opening, known, opens⟩
  rw [keptLine, found]
  rfl

theorem keptLine_of_volatile {entry : String × String} {text : String}
    (known : entry ∈ volatilePrefixes) (opens : PosixPath.startsWith entry.1 text = true) :
    keptLine text = false := by
  have found : (volatilePrefixes.any fun entry => PosixPath.startsWith entry.1 text) = true :=
    List.any_eq_true.mpr ⟨entry, known, opens⟩
  rw [keptLine, found]
  exact Bool.and_false _

/-- A line that differs from dump to dump is dropped. -/
theorem keptLine_render {line : ScriptLine} (volatile : line.own? = none) :
    keptLine (line.render session) = false := by
  cases line with
  | own text => cases volatile
  | restrict => exact keptLine_of_meta List.mem_cons_self (startsWith_append _ _)
  | unrestrict =>
    exact keptLine_of_meta (List.mem_cons_of_mem _ List.mem_cons_self) (startsWith_append _ _)
  | serverVersion =>
    refine keptLine_of_volatile List.mem_cons_self ?_
    have opens := startsWith_append "-- Dumped from database version" (" " ++ session.serverVersion)
    rwa [← String.append_assoc] at opens
  | dumpVersion =>
    refine keptLine_of_volatile (List.mem_cons_of_mem _ List.mem_cons_self) ?_
    have opens := startsWith_append "-- Dumped by pg_dump version" (" " ++ session.dumpVersion)
    rwa [← String.append_assoc] at opens

theorem filter_render (stable : ∀ line ∈ lines, Stable line) :
    (lines.map (ScriptLine.render session)).filter keptLine = ownLines lines := by
  induction lines with
  | nil => rfl
  | cons line rest inductionHypothesis =>
    have later := inductionHypothesis fun other member => stable other (List.mem_cons_of_mem _ member)
    rw [List.map_cons, List.filter_cons, later, ownLines, ownLines, List.filterMap_cons]
    cases owned : line.own? with
    | none => rw [keptLine_render owned, if_neg (by simp)]
    | some text =>
      have same : line.render session = text := by
        cases line with
        | own other => exact Option.some.inj owned
        | restrict => cases owned
        | unrestrict => cases owned
        | serverVersion => cases owned
        | dumpVersion => cases owned
      rw [same, (stable line List.mem_cons_self text owned).2, if_pos rfl]

/-- What is left of a dump are the schema's own lines, whichever session printed it. -/
theorem stripVolatileComments_dumpText (plain : session.Plain)
    (stable : ∀ line ∈ lines, Stable line) :
    (stripVolatileComments (dumpText session lines)).1 = schemaText (ownLines lines) := by
  have split : Markdown.splitLines (dumpText session lines) =
      lines.map (ScriptLine.render session) := by
    refine Markdown.splitLines_flatMap fun text member => ?_
    obtain ⟨line, inside, rfl⟩ := List.mem_map.mp member
    exact oneLine_render plain (stable line inside)
  rw [stripVolatileComments, split]
  exact congrArg schemaText (filter_render stable)

end

/-! ### What PostgreSQL promises -/

section

variable {Schema : Type} (server : Server Schema)

/-- What PostgreSQL and `pg_dump` are documented to do: keys are in a linear order, and a dump
without the lines that differ from dump to dump makes its schema in a database that has no table. -/
structure Documented : Prop where
  total : ∀ first second, (server.keyLe first second || server.keyLe second first) = true
  trans : ∀ first second third, server.keyLe first second = true →
    server.keyLe second third = true → server.keyLe first third = true
  antisymm : ∀ first second, server.keyLe first second = true → server.keyLe second first = true →
    first = second
  stable : ∀ schema, ∀ line ∈ server.script schema, Stable line
  remakes : ∀ schema blank, server.tables blank = [] →
    server.run ⟨blank, fun _ => []⟩ (schemaText (ownLines (server.script schema))) =
      .ok ⟨schema, fun _ => []⟩

/-- A database as PostgreSQL holds it: its tables are apart by their names, their rows meet their
constraints, and the columns take the fields of a row as they were printed. -/
structure Held (database : Database Schema) : Prop where
  named : ((server.tables database.schema).map TableDef.name).Nodup
  columns : ∀ known ∈ server.tables database.schema, known.columns ≠ []
  meets : ∀ known ∈ server.tables database.schema, Meets server database known
  taken : ∀ known ∈ server.tables database.schema, ∀ row ∈ database.rows known.name,
    server.input known row = .ok row
  absent : ∀ table, table ∉ (server.tables database.schema).map TableDef.name →
    database.rows table = []

/-- A foreign key refers to its own table, or to one that is restored before it. -/
def Layered (schema : Schema) : Prop :=
  ∀ known ∈ server.tables schema, ∀ reference ∈ known.references,
    reference.table = known.name ∨
      restoreOrder.idxOf reference.table < restoreOrder.idxOf known.name

end

/-! ### The rows of a snapshot -/

section

variable {Schema : Type} {server : Server Schema} {database : Database Schema} {table : String}
  {known : TableDef}

theorem mem_tableNames : table ∈ tableNames server database ↔
    table ∈ (server.tables database.schema).map TableDef.name := by
  rw [tableNames, List.mem_mergeSort]

theorem tableDef?_some (found : tableDef? server database table = some known) :
    known ∈ server.tables database.schema ∧ known.name = table := by
  rw [tableDef?] at found
  have chosen := List.find?_some found
  exact ⟨List.mem_of_find?_eq_some found, of_decide_eq_true chosen⟩

theorem exists_tableDef? (named : table ∈ tableNames server database) :
    ∃ known, tableDef? server database table = some known := by
  obtain ⟨known, member, rfl⟩ := List.mem_map.mp (mem_tableNames.mp named)
  cases found : tableDef? server database known.name with
  | some other => exact ⟨other, rfl⟩
  | none => exact absurd (decide_eq_true rfl) (List.find?_eq_none.mp found known member)

theorem tableDef?_of_not_mem (absent : table ∉ tableNames server database) :
    tableDef? server database table = none := by
  cases found : tableDef? server database table with
  | none => rfl
  | some known =>
    obtain ⟨member, rfl⟩ := tableDef?_some found
    exact absurd (mem_tableNames.mpr (List.mem_map_of_mem member)) absent

theorem exportedRows_eq (found : tableDef? server database table = some known) :
    exportedRows server database table = (database.rows table).mergeSort fun first second =>
      server.keyLe (known.fieldsOf known.primaryKey first)
        (known.fieldsOf known.primaryKey second) := by
  rw [exportedRows, orderedRows, primaryKeyOf, found]
  rfl

theorem exportedRows_of_not_mem (absent : table ∉ tableNames server database) :
    exportedRows server database table = [] := by
  rw [exportedRows, orderedRows, tableDef?_of_not_mem absent]

/-- Every row is exported, once. -/
theorem exportedRows_perm (held : Held server database) (table : String) :
    (exportedRows server database table).Perm (database.rows table) := by
  by_cases named : table ∈ tableNames server database
  · obtain ⟨known, found⟩ := exists_tableDef? named
    rw [exportedRows_eq found]
    exact List.mergeSort_perm _ _
  · rw [exportedRows_of_not_mem named, held.absent table fun member =>
      named (mem_tableNames.mpr member)]

/-- The order in which rows lie does not reach a snapshot. -/
theorem exportedRows_congr (documented : Documented server) (held : Held server database)
    (exportable : Exportable server database) {other : Database Schema}
    (same : other.schema = database.schema) (lie : (other.rows table).Perm (database.rows table)) :
    exportedRows server other table = exportedRows server database table := by
  have tables : tableDef? server other table = tableDef? server database table := by
    rw [tableDef?, tableDef?, same]
  by_cases named : table ∈ tableNames server database
  · obtain ⟨known, found⟩ := exists_tableDef? named
    obtain ⟨member, rfl⟩ := tableDef?_some found
    have keyed : known.primaryKey ≠ [] := by
      have keyed := exportable.keyed known.name named
      rw [primaryKeyOf, found] at keyed
      exact keyed
    have distinct : ((database.rows known.name).map (known.fieldsOf known.primaryKey)).Nodup :=
      ((held.meets known member).2.1.resolve_left keyed).2
    rw [exportedRows_eq (tables.trans found), exportedRows_eq found]
    have sorted (rows : List Row) := List.pairwise_mergeSort
      (fun first second third => documented.trans (known.fieldsOf known.primaryKey first)
        (known.fieldsOf known.primaryKey second) (known.fieldsOf known.primaryKey third))
      (fun first second => documented.total (known.fieldsOf known.primaryKey first)
        (known.fieldsOf known.primaryKey second)) rows
    refine List.Perm.eq_of_pairwise (fun first second firstIn secondIn before after => ?_)
      (sorted _) (sorted _)
      (((List.mergeSort_perm _ _).trans lie).trans (List.mergeSort_perm _ _).symm)
    exact List.inj_on_of_nodup_map distinct (lie.mem_iff.mp ((List.mergeSort_perm _ _).mem_iff.mp
      firstIn)) ((List.mergeSort_perm _ _).mem_iff.mp secondIn)
      (documented.antisymm _ _ before after)
  · rw [exportedRows_of_not_mem named, exportedRows, orderedRows, tables,
      tableDef?_of_not_mem named]

end

/-! ### Loading a snapshot -/

section

variable {Schema : Type} {server : Server Schema} {database : Database Schema} {table : String}
  {known : TableDef} {tree : FileTree} {done : List String}

variable (server database) in
/-- The database in the middle of a restore: the tables that are copied in have their rows, in the
order of the snapshot. -/
def loadedTables (done : List String) : Database Schema where
  schema := database.schema
  rows table := if table ∈ done then exportedRows server database table else []

/-- A table that is copied in meets its constraints when those it refers to are. -/
theorem meets_loadedTables (held : Held server database)
    (member : known ∈ server.tables database.schema) (here : known.name ∈ done)
    (before : ∀ reference ∈ known.references, reference.table ∈ tableNames server database →
      reference.table ∈ done) : Meets server (loadedTables server database done) known := by
  have lie {table : String} (inside : table ∈ done) :
      ((loadedTables server database done).rows table).Perm (database.rows table) := by
    show (ite _ _ _ : List Row).Perm _
    rw [if_pos inside]
    exact exportedRows_perm held table
  obtain ⟨arity, keyed, refers⟩ := held.meets known member
  refine ⟨fun row inside => arity row ((lie here).mem_iff.mp inside), keyed.imp_right ?_,
    fun row inside reference refersTo => ?_⟩
  · rintro ⟨filled, distinct⟩
    exact ⟨fun row inside => filled row ((lie here).mem_iff.mp inside),
      ((lie here).map _).nodup_iff.mpr distinct⟩
  · refine (refers row ((lie here).mem_iff.mp inside) reference refersTo).imp_right fun found => ?_
    by_cases named : reference.table ∈ tableNames server database
    · rw [fieldsIn] at found ⊢
      obtain ⟨other, defined⟩ := exists_tableDef? named
      have same : tableDef? server (loadedTables server database done) reference.table = some other :=
        defined
      rw [defined] at found
      rw [same]
      exact ((lie (before reference refersTo named)).map _).mem_iff.mpr found
    · rw [fieldsIn, tableDef?_of_not_mem named] at found
      cases found

theorem mapM_of_taken {input : Row → Except String Row} {rows : List Row}
    (taken : ∀ row ∈ rows, input row = .ok row) : rows.mapM input = .ok rows := by
  induction rows with
  | nil => rfl
  | cons row rest inductionHypothesis =>
    rw [List.mapM_cons, taken row List.mem_cons_self, inductionHypothesis fun other member =>
      taken other (List.mem_cons_of_mem _ member)]
    rfl

/-- What a data file holds is read back. -/
theorem readRows_dataBytes (held : Held server database) (table : String) :
    readRows (dataBytes server database table) = some (exportedRows server database table) := by
  have nonempty : ∀ row ∈ exportedRows server database table, row ≠ [] := by
    intro row member empty
    have inside := (exportedRows_perm held table).mem_iff.mp member
    by_cases named : table ∈ tableNames server database
    · obtain ⟨known, found⟩ := exists_tableDef? named
      obtain ⟨defined, rfl⟩ := tableDef?_some found
      have arity := (held.meets known defined).1 row inside
      rw [empty, List.length_nil] at arity
      exact held.columns known defined (List.eq_nil_of_length_eq_zero arity.symm)
    · rw [exportedRows_of_not_mem named] at member
      cases member
  rw [readRows, dataBytes, Utf8.decode_bytes, if_pos rfl, CopyText.read_write nonempty]

/-- A table is copied in after those it refers to. -/
theorem loadTable_loadedTables (held : Held server database)
    (named : table ∈ tableNames server database) (fresh : table ∉ done)
    (before : ∀ known, tableDef? server database table = some known →
      ∀ reference ∈ known.references, reference.table ∈ tableNames server database →
        reference.table ∈ done ++ [table])
    (file : tree.content.lookup (dataPath table) = some (dataBytes server database table)) :
    loadTable server tree (loadedTables server database done) table =
      .ok (loadedTables server database (done ++ [table])) := by
  obtain ⟨known, found⟩ := exists_tableDef? named
  obtain ⟨member, rfl⟩ := tableDef?_some found
  have same : tableDef? server (loadedTables server database done) known.name = some known := found
  have taken := mapM_of_taken fun row inside =>
    held.taken known member row ((exportedRows_perm held known.name).mem_iff.mp inside)
  have added : (loadedTables server database done).append known.name
      (exportedRows server database known.name) =
        loadedTables server database (done ++ [known.name]) := by
    rw [Database.append, loadedTables, loadedTables]
    congr 1
    funext other
    by_cases here : other = known.name
    · rw [here, Function.update_self]
      dsimp only
      rw [if_neg fresh, if_pos (by simp), List.nil_append]
    · rw [Function.update_of_ne here]
      simp [here]
  have meets := meets_loadedTables held member
    (List.mem_append_right done (List.mem_singleton_self _)) (before known found)
  rw [loadTable, readData, file]
  dsimp only [bind, Except.bind]
  rw [copyIn, same]
  dsimp only
  rw [readRows_dataBytes held]
  dsimp only
  rw [taken]
  dsimp only
  rw [added, if_pos meets]

/-- The tables are copied in one after the other. -/
theorem foldlM_loadedTables (held : Held server database) (layered : Layered server database.schema)
    {rest : List String} (all : ∀ table, table ∈ done ++ rest ↔ table ∈ tableNames server database)
    (sorted : (done ++ rest).Pairwise fun first second =>
      restoreOrder.idxOf first < restoreOrder.idxOf second)
    (files : ∀ table ∈ rest,
      tree.content.lookup (dataPath table) = some (dataBytes server database table)) :
    rest.foldlM (loadTable server tree) (loadedTables server database done) =
      .ok (loadedTables server database (done ++ rest)) := by
  induction rest generalizing done with
  | nil => rw [List.append_nil, List.foldlM_nil]; rfl
  | cons table others inductionHypothesis =>
    have later := List.pairwise_append.mp sorted
    have following := List.pairwise_cons.mp later.2.1
    have fresh : table ∉ done := fun member =>
      (later.2.2 table member table List.mem_cons_self).false
    have copied := @loadTable_loadedTables _ server database table tree done held
      ((all table).mp (List.mem_append_right _ List.mem_cons_self)) fresh
      (fun known found reference refersTo named => by
        obtain ⟨member, rfl⟩ := tableDef?_some found
        rcases layered known member reference refersTo with own | earlier
        · rw [own]
          exact List.mem_append_right _ (List.mem_singleton_self _)
        · rcases List.mem_append.mp ((all _).mpr named) with inside | inside
          · exact List.mem_append_left _ inside
          · rcases List.mem_cons.mp inside with here | behind
            · rw [here] at earlier
              exact absurd earlier (lt_irrefl _)
            · exact absurd (following.1 _ behind) (lt_asymm earlier))
      (files table List.mem_cons_self)
    have shape : done ++ table :: others = done ++ [table] ++ others := by
      rw [List.append_assoc, List.singleton_append]
    rw [shape] at all sorted
    rw [List.foldlM_cons, copied, shape]
    exact inductionHypothesis all sorted fun other member =>
      files other (List.mem_cons_of_mem _ member)

end

/-! ### The files of a finished fixture -/

section

variable {Schema : Type} {server : Server Schema} {database : Database Schema} {table : String}
  {tree : FileTree} {schemaSql : String} {written : FixtureManifest}

theorem dataFile_dataPath {tables : List String} (member : table ∈ tables) :
    dataFile server database tables (dataPath table) = some (dataBytes server database table) := by
  rw [dataFile]
  cases found : tables.find? fun known => dataPath table = dataPath known with
  | none => exact absurd (decide_eq_true rfl) (List.find?_eq_none.mp found table member)
  | some known =>
    have chosen := List.find?_some found
    rw [dataPath_injective (of_decide_eq_true chosen)]
    rfl

theorem exists_of_dataFile {tables : List String} {path : List String} {bytes : List UInt8}
    (found : dataFile server database tables path = some bytes) :
    ∃ table ∈ tables, path = dataPath table := by
  rw [dataFile] at found
  cases chosen : tables.find? fun known => path = dataPath known with
  | none =>
    rw [chosen] at found
    cases found
  | some table =>
    have same := List.find?_some chosen
    exact ⟨table, List.mem_of_find?_eq_some chosen, of_decide_eq_true same⟩

namespace SnapshotRun

theorem Finished.lookup_data (finished : Finished server database schemaSql written tree)
    (named : table ∈ tableNames server database) :
    tree.content.lookup (dataPath table) = some (dataBytes server database table) := by
  rw [finished.lookups, if_neg (dataPath_ne_manifestPath table), payloadFile,
    dataFile_dataPath named]
  rfl

theorem Finished.lookup_schema (finished : Finished server database schemaSql written tree) :
    tree.content.lookup schemaPath = some (Utf8.bytes schemaSql.toList) := by
  have apart : dataFile server database (tableNames server database) schemaPath = none := by
    cases found : dataFile server database (tableNames server database) schemaPath with
    | none => rfl
    | some bytes =>
      obtain ⟨table, -, same⟩ := exists_of_dataFile found
      cases (List.cons.inj same).2
  rw [finished.lookups, if_neg (by decide), payloadFile, apart, if_pos rfl]
  rfl

theorem Finished.lookup_manifest (finished : Finished server database schemaSql written tree) :
    tree.content.lookup [FileTree.manifestName] = some written.fileBytes := by
  have held := finished.lookups manifestPath
  rw [if_pos rfl] at held
  exact held

theorem Finished.mem_iff (finished : Finished server database schemaSql written tree)
    {path : List String} : path ∈ tree.content ↔
      path = manifestPath ∨ path = schemaPath ∨
        ∃ table ∈ tableNames server database, path = dataPath table := by
  rw [← Finmap.lookup_isSome]
  constructor
  · intro inside
    by_cases manifest : path = manifestPath
    · exact Or.inl manifest
    · rw [finished.lookups, if_neg manifest, payloadFile] at inside
      cases found : dataFile server database (tableNames server database) path with
      | some bytes => exact Or.inr (Or.inr (exists_of_dataFile found))
      | none =>
        by_cases schema : path = schemaPath
        · exact Or.inr (Or.inl schema)
        · rw [found, if_neg schema] at inside
          cases inside
  · rintro (rfl | rfl | ⟨table, named, rfl⟩)
    · have held := finished.lookup_manifest
      rw [show manifestPath = [FileTree.manifestName] from rfl, held]
      rfl
    · rw [finished.lookup_schema]
      rfl
    · rw [finished.lookup_data named]
      rfl

theorem copyStem_copy (nonempty : table ≠ "") : copyStem (table ++ ".copy") = table := by
  have part : (table ++ ".copy").toList.take ((table ++ ".copy").toList.length - 5) =
      table.toList := by
    have whole : (table ++ ".copy").toList = table.toList ++ ".copy".toList := String.toList_append
    have five : ".copy".toList.length = 5 := by decide
    rw [whole, List.length_append, five, Nat.add_sub_cancel]
    exact List.take_left
  have filled : table.toList ≠ [] := fun empty => nonempty (String.toList_eq_nil_iff.mp empty)
  rw [copyStem, part, if_neg filled, String.ofList_toList]

/-- The data files of a finished fixture are those of its tables. -/
theorem Finished.mem_copyTables (finished : Finished server database schemaSql written tree)
    (exportable : Exportable server database) :
    table ∈ copyTables tree ↔ table ∈ tableNames server database := by
  have nonempty : ∀ name ∈ expectedTables, name ≠ "" := by decide
  have names {name : String} : name ∈ dataNames tree ↔
      ∃ table ∈ tableNames server database, name = table ++ ".copy" := by
    rw [dataNames, Finset.mem_biUnion]
    constructor
    · rintro ⟨path, inside, member⟩
      rcases finished.mem_iff.mp (Finmap.mem_keys.mp inside) with rfl | rfl | ⟨table, named, rfl⟩
      · cases member
      · cases member
      · exact ⟨table, named, Finset.mem_singleton.mp member⟩
    · rintro ⟨table, named, rfl⟩
      exact ⟨dataPath table, Finmap.mem_keys.mpr (finished.mem_iff.mpr
        (Or.inr (Or.inr ⟨table, named, rfl⟩))), Finset.mem_singleton_self _⟩
  rw [copyTables, Multiset.mem_sort, Multiset.mem_map]
  constructor
  · rintro ⟨name, member, rfl⟩
    obtain ⟨table, named, rfl⟩ := names.mp (Finset.mem_filter.mp (Finset.mem_val.mp member)).1
    rwa [copyStem_copy (nonempty table (exportable.expected table named))]
  · intro named
    refine ⟨table ++ ".copy", Finset.mem_val.mpr (Finset.mem_filter.mpr
      ⟨names.mpr ⟨table, named, rfl⟩, ?_⟩),
      copyStem_copy (nonempty table (exportable.expected table named))⟩
    rw [String.toList_append]
    exact List.suffix_append _ _

end SnapshotRun

end

/-! ### Restoring a finished fixture -/

section

variable {Schema : Type} {server : Server Schema} {database : Database Schema} {tree : FileTree}
  {schemaSql : String} {written : FixtureManifest}

theorem oneLine_ownLines {lines : List ScriptLine} (stable : ∀ line ∈ lines, Stable line) :
    ∀ text ∈ ownLines lines, Markdown.OneLine text := by
  intro text member
  obtain ⟨line, inside, owned⟩ := List.mem_filterMap.mp member
  exact (stable line inside text owned).1

/-- No carriage return stands in the text of a schema. -/
theorem carriage_schemaText {texts : List String} (one : ∀ text ∈ texts, Markdown.OneLine text) :
    '\r' ∉ (schemaText texts).toList := by
  have free : '\r' ∉ (Text.join '\n' texts).toList := by
    intro member
    rcases Text.mem_join member with newline | ⟨text, inside, held⟩
    · exact absurd newline (by decide)
    · exact absurd (one text inside '\r' held) (by decide)
  rw [schemaText]
  split
  · rw [String.toList_append, List.mem_append]
    exact fun member => member.elim free (by decide)
  · exact free

theorem readSchema_finished (finished : SnapshotRun.Finished server database schemaSql written tree)
    (free : '\r' ∉ schemaSql.toList) : RestoreRun.readSchema tree = .ok schemaSql := by
  rw [RestoreRun.readSchema, finished.lookup_schema]
  dsimp only
  rw [readText_bytes free]

/-- The tables are counted in the order of their names. -/
theorem ordered_rowCounts (named : ((server.tables database.schema).map TableDef.name).Nodup) :
    Json.Ordered (rowCounts server database) := by
  have distinct : (tableNames server database).Nodup :=
    (List.mergeSort_perm _ _).nodup_iff.mpr named
  have sorted : (tableNames server database).Pairwise fun first second =>
      decide (first ≤ second) = true :=
    List.pairwise_mergeSort (fun _ _ _ before after => by
        rw [decide_eq_true_iff] at before after ⊢
        exact le_trans before after)
      (fun first second => by
        rw [Bool.or_eq_true, decide_eq_true_iff, decide_eq_true_iff]
        exact le_total first second) _
  rw [Json.Ordered, rowCounts, List.pairwise_map]
  refine (sorted.and distinct).imp fun both => ?_
  exact lt_of_le_of_ne (of_decide_eq_true both.1) both.2

/-- The tables of a fixture in the order of their restore. -/
theorem idxOf_restoreOrder : restoreOrder.Pairwise fun first second =>
    restoreOrder.idxOf first < restoreOrder.idxOf second := by
  decide

theorem loadedTables_all {done : List String}
    (all : ∀ table, table ∈ done ↔ table ∈ tableNames server database) :
    loadedTables server database done = ⟨database.schema, exportedRows server database⟩ := by
  rw [loadedTables]
  congr 1
  funext table
  by_cases inside : table ∈ done
  · rw [if_pos inside]
  · rw [if_neg inside, exportedRows_of_not_mem fun named => inside ((all table).mpr named)]

/-- A restore has one manifest to return, and one database to leave. -/
theorem restores_unique {sha256 : List UInt8 → String} {restore : RestoreRun}
    {directory : Option FileTree} {target first second : Database Schema}
    {manifest stated : FixtureManifest}
    (restores : RestoreRun.Restores server restore sha256 directory target manifest first)
    (restoresToo : RestoreRun.Restores server restore sha256 directory target stated second) :
    manifest = stated ∧ first = second := by
  obtain ⟨fdir, tree, text, rfl, located, read, -, schema, -, -, -, loaded⟩ := restores
  obtain ⟨fdirToo, treeToo, textToo, same, locatedToo, readToo, -, schemaToo, -, -, -, loadedToo⟩ :=
    restoresToo
  obtain rfl := Option.some.inj same
  obtain rfl := Except.ok.inj (located.symm.trans locatedToo)
  obtain rfl := Except.ok.inj (schema.symm.trans schemaToo)
  exact ⟨Except.ok.inj (read.symm.trans readToo), Except.ok.inj (loaded.symm.trans loadedToo)⟩

/-- A finished fixture is restored into a database that has no table. -/
theorem restores_finished (documented : Documented server) (held : Held server database)
    (layered : Layered server database.schema) (exportable : Exportable server database)
    (finished : SnapshotRun.Finished server database
      (schemaText (ownLines (server.script database.schema))) written tree)
    (valid : written.Valid) {sha256 : List UInt8 → String}
    (hashed : sha256 tree.feed = written.contentHash) {restore : RestoreRun} {fdir : String}
    (located : fixtureDir restore.resolve restore.fixturesRoot restore.fixtureId = .ok fdir)
    (takes : TakesIntegers restore.runtime) {blank : Schema} (bare : server.tables blank = []) :
    RestoreRun.Restores server restore sha256 (some tree) ⟨blank, fun _ => []⟩ written
      ⟨database.schema, exportedRows server database⟩ := by
  have named {table : String} := @SnapshotRun.Finished.mem_copyTables _ server database table tree
    _ written finished exportable
  have subset : ∀ table ∈ expectedTables, table ∈ restoreOrder := by decide
  have known : ∀ table ∈ copyTables tree, table ∈ restoreOrder := fun table member =>
    subset table (exportable.expected table (named.mp member))
  have filled : copyTables tree ≠ [] := by
    intro empty
    have store := named.mpr exportable.store
    rw [empty] at store
    cases store
  have all (table : String) : table ∈ [] ++ restoreOrder.filter (· ∈ copyTables tree) ↔
      table ∈ tableNames server database := by
    rw [List.nil_append, List.mem_filter, decide_eq_true_iff]
    exact ⟨fun member => named.mp member.2, fun member =>
      ⟨known table (named.mpr member), named.mpr member⟩⟩
  have copied := foldlM_loadedTables held layered all
    (idxOf_restoreOrder.sublist List.filter_sublist) fun table member =>
      finished.lookup_data ((all table).mp member)
  rw [List.nil_append] at copied all
  refine ⟨fdir, tree, _, rfl, located,
    readManifest_fileBytes takes restore.floatOf valid fdir finished.lookup_manifest, hashed,
    readSchema_finished finished (carriage_schemaText (oneLine_ownLines (documented.stable _))),
    filled, known, ?_, ?_⟩
  · rw [existing, bare, List.map_nil, List.filter_nil, List.mergeSort_nil]
  · rw [load, runSchema, documented.remakes database.schema blank bare]
    rw [← loadedTables_all all, ← copied]
    have starts : (⟨database.schema, fun _ => []⟩ : Database Schema) =
        loadedTables server database [] := by
      rw [loadedTables]
      congr 1
    rw [starts]
    rfl

end

/-! ### Snapshots of the same rows -/

section

variable {Schema : Type} {server : Server Schema} {database other : Database Schema}

variable (server) in
/-- The `pg_dump` of a snapshot prints a schema. -/
def Dumps (run : SnapshotRun) (schema : Schema) : Prop :=
  ∃ session stderr, session.Plain ∧
    run.pgDump = .ok ⟨0, dumpText session (server.script schema), stderr⟩

theorem dumpSchema_of_dumps (documented : Documented server) {run : SnapshotRun} {schema : Schema}
    (dumps : Dumps server run schema) {schemaSql : String} {versions : List (String × String)}
    (dumped : run.dumpSchema = .ok (schemaSql, versions)) :
    schemaSql = schemaText (ownLines (server.script schema)) := by
  obtain ⟨session, stderr, plain, printed⟩ := dumps
  rw [SnapshotRun.dumpSchema, printed] at dumped
  dsimp only at dumped
  rw [if_neg (by simp)] at dumped
  have stripped := stripVolatileComments_dumpText plain (documented.stable schema)
  rw [Except.ok.inj dumped] at stripped
  exact stripped

/-- Two databases with the same rows, in whatever order they lie. -/
structure SameRows (first second : Database Schema) : Prop where
  schema : first.schema = second.schema
  rows : ∀ table, (first.rows table).Perm (second.rows table)

theorem tableNames_congr (same : SameRows other database) :
    tableNames server other = tableNames server database := by
  rw [tableNames, tableNames, same.schema]

theorem payloadFile_congr (documented : Documented server) (held : Held server database)
    (exportable : Exportable server database) (same : SameRows other database) (schemaSql : String)
    (path : List String) : SnapshotRun.payloadFile server other schemaSql path =
      SnapshotRun.payloadFile server database schemaSql path := by
  have bytes (table : String) : dataBytes server other table = dataBytes server database table := by
    rw [dataBytes, dataBytes,
      exportedRows_congr documented held exportable same.schema (same.rows table)]
  rw [SnapshotRun.payloadFile, SnapshotRun.payloadFile, dataFile, dataFile, tableNames_congr same,
    funext bytes]

theorem rowCounts_congr (same : SameRows other database) :
    rowCounts server other = rowCounts server database := by
  rw [rowCounts, rowCounts, tableNames_congr same]
  exact List.map_congr_left fun table _ => by rw [(same.rows table).length_eq]

theorem nullCount_congr (same : SameRows other database) :
    nullCount server other = nullCount server database := by
  rw [nullCount, nullCount, (same.rows "store").countP_eq]

/-- Two finished fixtures of the same rows have the same payload. -/
theorem samePayload_finished (documented : Documented server) (held : Held server database)
    (exportable : Exportable server database) (same : SameRows other database) {schemaSql : String}
    {written rewritten : FixtureManifest} {tree again : FileTree}
    (finished : SnapshotRun.Finished server database schemaSql written tree)
    (finishedAgain : SnapshotRun.Finished server other schemaSql rewritten again) :
    FileTree.SamePayload again tree := by
  intro path payload
  have apart : path ≠ manifestPath := payload
  rw [finished.lookups, finishedAgain.lookups, if_neg apart, if_neg apart,
    payloadFile_congr documented held exportable same]

/-- The manifest of a snapshot is one that the code can build. -/
theorem valid_manifest (named : ((server.tables database.schema).map TableDef.name).Nodup)
    {run : SnapshotRun} {fdir : String}
    (located : fixtureDir run.resolve run.fixturesRoot run.fixtureId = .ok fdir)
    (sha256 : List UInt8 → String) (versions : List (String × String)) (nulls : Int)
    (feed : List UInt8) :
    (run.manifest sha256 versions (rowCounts server database) nulls feed).Valid where
  fixtureId := by
    show Text.fullMatch fixtureIdCharacter run.fixtureId = true
    by_contra invalid
    rw [fixtureDir, if_pos invalid] at located
    cases located
  counts := ordered_rowCounts named

end

/-- A snapshot that returned is restored into a database that has no table, with its manifest and its
rows, by every restore whose calls succeed, and no other way by one that returns; and every snapshot
of these rows that returns, in whatever order they lie, has the same payload, hash and counts. -/
theorem snapshot_roundTrip {Schema : Type} (server : Server Schema) (sha256 : List UInt8 → String)
    (source : Database Schema) (run : SnapshotRun) (directory after : Option FileTree)
    (written : FixtureManifest) (documented : Documented server) (held : Held server source)
    (layered : Layered server source.schema) (dumps : Dumps server run source.schema)
    (returned : run.createSnapshot sha256 server source directory = (.returned written, after)) :
    (∀ (restore : RestoreRun) (fdir : String) (blank : Schema), server.tables blank = [] →
      TakesIntegers restore.runtime →
      fixtureDir restore.resolve restore.fixturesRoot restore.fixtureId = .ok fdir →
      ∃ restored, SameRows restored source ∧
        (restore.connect = .ok () → restore.faults = [] →
          restore.restoreFixture sha256 server after ⟨blank, fun _ => []⟩ =
            (.ok written, restored)) ∧
        ∀ manifest final, restore.restoreFixture sha256 server after ⟨blank, fun _ => []⟩ =
          (.ok manifest, final) → manifest = written ∧ final = restored) ∧
    ∀ (other : Database Schema) (again : SnapshotRun) (elsewhere last : Option FileTree)
      (rewritten : FixtureManifest), SameRows other source → Dumps server again other.schema →
      again.createSnapshot sha256 server other elsewhere = (.returned rewritten, last) →
      ∃ tree treeAgain, after = some tree ∧ last = some treeAgain ∧
        FileTree.SamePayload treeAgain tree ∧ rewritten.contentHash = written.contentHash ∧
        rewritten.tableRowCounts = written.tableRowCounts ∧
        rewritten.nullOccurredAtCount = written.nullOccurredAtCount := by
  obtain ⟨-, exportable, ⟨_, placed⟩, schemaSql, versions, tree, dumped, rfl, rfl, finished⟩ :=
    SnapshotRun.createSnapshot_returned returned
  obtain rfl := dumpSchema_of_dumps documented dumps dumped
  constructor
  · intro restore fdir blank bare takes located
    have restores := restores_finished documented held layered exportable finished
      (valid_manifest held.named placed sha256 versions _ tree.feed) rfl located takes bare
    refine ⟨⟨source.schema, exportedRows server source⟩, ⟨rfl, exportedRows_perm held⟩,
      fun connects faultless => RestoreRun.restoreFixture_of_restores connects faultless restores,
      fun manifest final ended => ?_⟩
    exact restores_unique (RestoreRun.restoreFixture_returned ended) restores
  · intro other again elsewhere last rewritten same dumpsAgain returnedAgain
    obtain ⟨-, -, -, schemaAgain, versionsAgain, treeAgain, dumpedAgain, rfl, rfl, finishedAgain⟩ :=
      SnapshotRun.createSnapshot_returned returnedAgain
    obtain rfl := dumpSchema_of_dumps documented dumpsAgain dumpedAgain
    rw [same.schema] at finishedAgain
    have payload := samePayload_finished documented held exportable same finished finishedAgain
    refine ⟨tree, treeAgain, rfl, rfl, payload, ?_, rowCounts_congr same, nullCount_congr same⟩
    exact congrArg sha256 (feed_eq_of_samePayload payload)

section Sample

/-- The tables of a small store. -/
def storeTables : Bool → List TableDef
  | true => [⟨"store_vectors", ["prefix", "key", "embedding"], ["prefix", "key"],
      [⟨["prefix", "key"], "store", ["prefix", "key"]⟩]⟩,
    ⟨"store", ["prefix", "key", "value"], ["prefix", "key"], []⟩]
  | false => []

/-- The dump of its schema. -/
def storeScript : Bool → List ScriptLine
  | true => [.restrict, .serverVersion, .own "CREATE TABLE store", .unrestrict]
  | false => []

/-- Keys in the order of their texts. -/
def keyAtMost (first second : List (WithBot (List Char))) : Bool :=
  decide (first ≤ second)

/-- A server that knows the schema of the small store. -/
def storeServer : Server Bool where
  tables := storeTables
  script := storeScript
  run database text :=
    if text = "" then .ok database
    else if text = "CREATE TABLE store\n" then .ok ⟨true, database.rows⟩
    else .error "syntax error"
  input _ row := .ok row
  keyLe := keyAtMost
  undated row := row.getLast?.join.isNone
  refusal table := "cannot copy into " ++ table

/-- A store with two entries, of which one has a vector. -/
def storeSource : Database Bool where
  schema := true
  rows table :=
    if table = "store" then
      [[some ['p'], some ['b'], none], [some ['p'], some ['a', '\t'], some ['1']]]
    else if table = "store_vectors" then [[some ['p'], some ['b'], some ['0']]]
    else []

/-- A snapshot of it, all of whose calls succeed. -/
def storeRun : SnapshotRun where
  sourceDsn := "postgresql://localhost/store"
  parseConninfo _ := []
  fixtureId := "v1"
  fixturesRoot := "/fixtures"
  resolve := id
  now := "2026-06-25T00:00:00+00:00"
  pgDump := .ok ⟨0, dumpText ⟨"t0", "16.10", "16.10"⟩ (storeScript true), ""⟩
  mkdir := .ok ()
  connect := .ok ()
  faults := []
  pieces bytes := [bytes]
  whole _ := List.append_nil _
  remains _ := none

/-- A restore of it, all of whose calls succeed. -/
def storeRestore : RestoreRun where
  fixtureId := "v1"
  targetDsn := "postgresql://localhost/run"
  parseConninfo _ := []
  fixturesRoot := "/fixtures"
  resolve := id
  runtime := .ofTables [] [] []
  floatOf := PyFloat.mk
  connect := .ok ()
  faults := []

theorem keyAtMost_total (first second : List (WithBot (List Char))) :
    (keyAtMost first second || keyAtMost second first) = true := by
  unfold keyAtMost
  rw [Bool.or_eq_true, decide_eq_true_iff, decide_eq_true_iff]
  exact le_total first second

theorem keyAtMost_trans (first second third : List (WithBot (List Char)))
    (before : keyAtMost first second = true) (after : keyAtMost second third = true) :
    keyAtMost first third = true := by
  unfold keyAtMost at before after ⊢
  rw [decide_eq_true_iff] at before after ⊢
  exact le_trans before after

theorem keyAtMost_antisymm (first second : List (WithBot (List Char)))
    (before : keyAtMost first second = true) (after : keyAtMost second first = true) :
    first = second := by
  unfold keyAtMost at before after
  rw [decide_eq_true_iff] at before after
  exact le_antisymm before after

theorem documented_storeServer : Documented storeServer where
  total := keyAtMost_total
  trans := keyAtMost_trans
  antisymm := keyAtMost_antisymm
  stable := by
    have stable : ∀ schema : Bool, ∀ line ∈ storeScript schema, ∀ text ∈ line.own?,
        Markdown.OneLine text ∧ keptLine text = true := by
      decide
    exact stable
  remakes schema blank bare := by
    cases blank with
    | true => cases bare
    | false =>
      cases schema with
      | true => rfl
      | false => rfl

theorem held_storeSource : Held storeServer storeSource where
  named := by decide
  columns := by decide
  meets := by decide
  taken _ _ _ _ := rfl
  absent table outside := by
    have names : (storeTables true).map TableDef.name = ["store_vectors", "store"] := rfl
    have apart : table ∉ ["store_vectors", "store"] := names ▸ outside
    rw [List.mem_cons, List.mem_singleton, not_or] at apart
    exact (if_neg apart.2).trans (if_neg apart.1)

theorem layered_store : Layered storeServer true := by
  unfold Layered
  decide

theorem dumps_storeRun : Dumps storeServer storeRun true :=
  ⟨⟨"t0", "16.10", "16.10"⟩, "", ⟨by decide, by decide, by decide⟩, rfl⟩

theorem exportable_storeSource : Exportable storeServer storeSource where
  expected table named := by
    have names : ∀ table ∈ (storeTables true).map TableDef.name, table ∈ expectedTables := by decide
    exact names table (mem_tableNames.mp named)
  store := mem_tableNames.mpr (by decide)
  keyed table named := by
    have keys : ∀ table ∈ (storeTables true).map TableDef.name,
        primaryKeyOf storeServer storeSource table ≠ [] := by
      decide
    exact keys table (mem_tableNames.mp named)

/-- The number of bytes, for a hash. -/
def lengthHash (bytes : List UInt8) : String :=
  toString bytes.length

theorem snapshot_roundTrip_store : ∃ written after,
    storeRun.createSnapshot lengthHash storeServer storeSource none = (.returned written, after) ∧
      ∃ restored, SameRows restored storeSource ∧
        storeRestore.restoreFixture lengthHash storeServer after ⟨false, fun _ => []⟩ =
          (.ok written, restored) := by
  obtain ⟨written, tree, returned⟩ := @SnapshotRun.createSnapshot_of_exportable _ storeServer
    storeSource storeRun lengthHash _ rfl rfl rfl exportable_storeSource
  obtain ⟨restored, same, restores, -⟩ := (snapshot_roundTrip storeServer lengthHash storeSource
    storeRun none (some tree) written documented_storeServer held_storeSource layered_store
    dumps_storeRun returned).1 storeRestore "/fixtures/v1" false rfl (fun _ => rfl) (by decide)
  exact ⟨written, some tree, returned, restored, same, restores rfl rfl⟩

end Sample

end FleetMemory.Fixture
