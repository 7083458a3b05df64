/-
This file proves what becomes of a fixture over whole runs: a snapshot that is stopped anywhere, or
whose calls fail, leaves nothing that a restore takes, unless it had written its last byte, and no
part of a fixture that its removal leaves is taken either; a fixture that is there is never changed;
and whatever is restored are the rows that one snapshot saw.
-/

import FleetMemory.FixtureRoundTrip
import FleetMemory.JsonPrefixes

namespace FleetMemory.Fixture

/-! ### A manifest that is cut off -/

namespace FixtureManifest

variable {manifest : FixtureManifest}

/-- The text of a manifest stands between braces. -/
theorem toList_dumps (manifest : FixtureManifest) : ∃ body,
    (format.dumps (.dict manifest.modelDump)).toList = '\x7b' :: (body ++ ['\x7d']) := by
  rw [Json.Format.dumps, String.toList_ofList]
  exact ⟨_, rfl⟩

/-- A manifest's text that is cut off is not read. -/
theorem loads_dumps_cut (valid : manifest.Valid) (floatOf : String → PyFloat)
    {before behind : List Char} (some_left : behind ≠ [])
    (whole : (format.dumps (.dict manifest.modelDump)).toList = before ++ behind) :
    Json.loads floatOf (String.ofList before) = none := by
  obtain ⟨body, braces⟩ := toList_dumps manifest
  cases before with
  | nil => rfl
  | cons first rest =>
    rw [braces] at whole
    obtain ⟨rfl, ends⟩ := List.cons.inj whole
    have text : format.dumps (.dict manifest.modelDump) =
        String.ofList ('\x7b' :: rest) ++ String.ofList behind := by
      apply String.toList_inj.mp
      rw [String.toList_append, String.toList_ofList, String.toList_ofList, braces, whole]
    have read := @Json.Format.loads_dumps format floatOf _ (valid.plain floatOf) "" (by simp)
    rw [String.append_empty, text] at read
    refine Json.loads_cut ?_ read ?_
    · rw [String.toList_ofList]
      exact ⟨'\x7b', rfl, Or.inr (Or.inr rfl)⟩
    · rw [String.toList_ofList]
      have last : (body ++ ['\x7d']).getLast? = (rest ++ behind).getLast? := congrArg _ ends
      rw [List.getLast?_append_of_ne_nil _ (by simp), List.getLast?_append_of_ne_nil _ some_left]
        at last
      exact ⟨'\x7d', last.symm, rfl⟩

end FixtureManifest

/-- A manifest that is cut off is not read. -/
theorem readManifest_cut {manifest : FixtureManifest} (valid : manifest.Valid) {part : List UInt8}
    (begins : part <+: manifest.fileBytes) (short : part ≠ manifest.fileBytes) {tree : FileTree}
    (held : tree.content.lookup [FileTree.manifestName] = some part) (runtime : Runtime)
    (floatOf : String → PyFloat) (path : String) :
    ∃ fault, readManifest runtime floatOf path (some tree) = .error fault := by
  rw [readManifest, Option.bind_some, held]
  dsimp only
  by_cases decodes : Utf8.bytes (Utf8.decode part) = part
  · have cut : Utf8.bytes (Utf8.decode part) <+:
        Utf8.bytes (FixtureManifest.format.dumps (.dict manifest.modelDump)).toList := by
      rw [decodes]
      exact begins
    obtain ⟨behind, whole⟩ := Json.exists_append_of_prefix cut
    have some_left : behind ≠ [] := by
      rintro rfl
      rw [List.append_nil] at whole
      exact short (by rw [FixtureManifest.fileBytes, whole, decodes])
    have free : '\r' ∉ (String.ofList (Utf8.decode part)).toList := by
      rw [String.toList_ofList]
      intro member
      exact valid.carriage_dumps floatOf (whole ▸ List.mem_append_left _ member)
    have text := readText_bytes free
    rw [String.toList_ofList, decodes] at text
    rw [text]
    dsimp only
    rw [FixtureManifest.loads_dumps_cut valid floatOf some_left whole]
    exact ⟨_, rfl⟩
  · rw [readText, if_neg decodes]
    exact ⟨_, rfl⟩

/-- The hash that a manifest states is read back from its file by every reader. -/
theorem contentHash_readManifest {manifest : FixtureManifest} (valid : manifest.Valid)
    {tree : FileTree}
    (written : tree.content.lookup [FileTree.manifestName] = some manifest.fileBytes)
    {runtime : Runtime} {floatOf : String → PyFloat} {path : String} {stated : FixtureManifest}
    (read : readManifest runtime floatOf path (some tree) = .ok stated) :
    stated.contentHash = manifest.contentHash := by
  have loaded := @Json.Format.loads_dumps FixtureManifest.format floatOf _ (valid.plain floatOf) ""
    (by simp)
  have sorted : FixtureManifest.format.readBack (.dict manifest.modelDump) =
      Json.canonical (.dict manifest.modelDump) := rfl
  rw [String.append_empty, sorted, Json.canonical] at loaded
  rw [readManifest, Option.bind_some, written] at read
  dsimp only at read
  rw [FixtureManifest.fileBytes, readText_bytes (valid.carriage_dumps floatOf)] at read
  dsimp only at read
  rw [loaded] at read
  dsimp only at read
  split at read
  · rename_i checked
    obtain rfl := Except.ok.inj read
    obtain ⟨parts, all, rfl⟩ := except_map_eq_ok.mp checked
    simp only [Checked.both_eq_ok] at all
    obtain ⟨value, found, isText⟩ := field_required all.2.2.2.1
    have same : PyDict.get manifest.modelDump "content_hash" =
        some (.str manifest.contentHash) := rfl
    rw [valid.get_canonical, same] at found
    obtain rfl := Option.some.inj found
    exact (Except.ok.inj isText).symm
  · cases read

/-! ### What is refused -/

/-- No restore takes what lies at a fixture's path: each raises, and leaves its target as it was. -/
def Refused (sha256 : List UInt8 → String) (directory : Option FileTree) : Prop :=
  ∀ (Schema : Type) (server : Server Schema) (restore : RestoreRun) (target : Database Schema),
    ∃ fault, restore.restoreFixture sha256 server directory target = (.error fault, target)

section

variable {sha256 : List UInt8 → String}

theorem refused_of_unread {directory : Option FileTree} (unread : ∀ runtime floatOf path,
    ∃ fault, readManifest runtime floatOf path directory = .error fault) :
    Refused sha256 directory := by
  intro Schema server restore target
  rw [RestoreRun.restoreFixture, RestoreRun.verify]
  cases fixtureDir restore.resolve restore.fixturesRoot restore.fixtureId with
  | error fault => exact ⟨fault, rfl⟩
  | ok fdir =>
    obtain ⟨fault, read⟩ := unread restore.runtime restore.floatOf fdir
    dsimp only [bind, Except.bind]
    rw [read]
    exact ⟨fault, rfl⟩

theorem refused_none : Refused sha256 none :=
  refused_of_unread fun _ _ path => ⟨.fixture (.unknownFixture (pathName path)), rfl⟩

theorem refused_of_unmarked {tree : FileTree}
    (unmarked : tree.content.lookup [FileTree.manifestName] = none) : Refused sha256 (some tree) := by
  refine refused_of_unread fun runtime floatOf path => ?_
  rw [readManifest, Option.bind_some, unmarked]
  exact ⟨_, rfl⟩

/-- Files that do not have the hash their manifest states are refused. -/
theorem refused_of_mismatch {tree : FileTree} {manifest : FixtureManifest} (valid : manifest.Valid)
    (written : tree.content.lookup [FileTree.manifestName] = some manifest.fileBytes)
    (differs : sha256 tree.feed ≠ manifest.contentHash) : Refused sha256 (some tree) := by
  intro Schema server restore target
  rw [RestoreRun.restoreFixture, RestoreRun.verify]
  cases fixtureDir restore.resolve restore.fixturesRoot restore.fixtureId with
  | error fault => exact ⟨fault, rfl⟩
  | ok fdir =>
    dsimp only [bind, Except.bind]
    cases read : readManifest restore.runtime restore.floatOf fdir (some tree) with
    | error fault => exact ⟨fault, rfl⟩
    | ok stated =>
      have apart : sha256 tree.feed ≠ stated.contentHash := by
        rwa [contentHash_readManifest valid written read]
      have mismatch : verifiedTables sha256 fdir restore.fixtureId (.ok ⟨stated.contentHash⟩)
          (some tree) = .error (.hashMismatch restore.fixtureId stated.contentHash
            (sha256 tree.feed)) := by
        rw [verifiedTables, computeContentHash]
        dsimp only [bind, Except.bind]
        rw [if_pos apart]
        rfl
      dsimp only
      rw [mismatch]
      exact ⟨_, rfl⟩

end

/-! ### What is left of a snapshot -/

/-- The hash tells a tree from its parts, unless the same bytes are hashed of both. -/
def Separates (sha256 : List UInt8 → String) : Prop :=
  ∀ part whole : FileTree, part.Part whole → sha256 part.feed = sha256 whole.feed →
    part.feed = whole.feed

section

variable {Schema : Type} {server : Server Schema} {database : Database Schema} {run : SnapshotRun}
  {sha256 : List UInt8 → String} {schemaSql : String} {versions : List (String × String)}
  {tree left : FileTree}

theorem plain_of_within (within : Within tree) : tree.Plain := by
  have named : ∀ path ∈ fixturePaths, path.getLast? = some FileTree.manifestName →
      path = [FileTree.manifestName] := by
    decide
  exact fun path member => named path (within path member)

/-- A part of a finished fixture is refused, or is all of it. -/
theorem refused_or_finished_of_part
    (named : ((server.tables database.schema).map TableDef.name).Nodup) {fdir : String}
    (located : fixtureDir run.resolve run.fixturesRoot run.fixtureId = .ok fdir)
    (separates : Separates sha256)
    (finished : SnapshotRun.Finished server database schemaSql (run.manifest sha256 versions
      (rowCounts server database) (nullCount server database) tree.feed) tree)
    (part : left.Part tree) :
    Refused sha256 (some left) ∨ SnapshotRun.Finished server database schemaSql
      (run.manifest sha256 versions (rowCounts server database) (nullCount server database)
        left.feed) left := by
  have valid := valid_manifest named located sha256 versions (nullCount server database) tree.feed
  cases marked : left.content.lookup [FileTree.manifestName] with
  | none => exact Or.inl (refused_of_unmarked marked)
  | some bytes =>
    have whole : tree.content.lookup manifestPath = some _ :=
      (finished.lookups manifestPath).trans (if_pos rfl)
    have here : left.content.lookup manifestPath = tree.content.lookup manifestPath :=
      marked.trans (part _ _ marked).symm
    by_cases differs : sha256 left.feed = sha256 tree.feed
    · have feed := separates left tree part differs
      have plain := plain_of_within finished.within
      have payload : FileTree.SamePayload left tree :=
        ((part.plain plain).samePayload_iff plain).mpr
          (part.entries_eq (congrArg List.length feed).ge)
      have lookups : ∀ path, left.content.lookup path = tree.content.lookup path := by
        intro path
        by_cases manifest : path = manifestPath
        · rw [manifest, here]
        · exact payload path manifest
      refine Or.inr ⟨fun path member => finished.within path ?_, fun path => ?_⟩
      · rw [← Finmap.lookup_isSome, lookups] at member
        exact Finmap.lookup_isSome.mp member
      · rw [lookups, feed]
        exact finished.lookups path
    · exact Or.inl (refused_of_mismatch valid (here.trans whole) differs)

/-- What is left where a snapshot goes on no further is refused, or is the whole fixture. -/
theorem refused_or_finished (named : ((server.tables database.schema).map TableDef.name).Nodup)
    {fdir : String} (located : fixtureDir run.resolve run.fixturesRoot run.fixtureId = .ok fdir)
    (separates : Separates sha256)
    (halted : SnapshotRun.Halted server database run sha256 schemaSql versions tree)
    (part : left.Part tree) :
    Refused sha256 (some left) ∨ Exportable server database ∧
      SnapshotRun.Finished server database schemaSql (run.manifest sha256 versions
        (rowCounts server database) (nullCount server database) left.feed) left := by
  cases marked : left.content.lookup [FileTree.manifestName] with
  | none => exact Or.inl (refused_of_unmarked marked)
  | some held =>
    have there : tree.content.lookup manifestPath = some held := part _ _ marked
    rcases halted with bare | begun
    · rw [bare.unmarked] at there
      cases there
    · have valid := valid_manifest named located sha256 versions (nullCount server database) tree.feed
      have begins := begun.begins
      rw [there, Option.getD_some] at begins
      by_cases short : held = (run.manifest sha256 versions (rowCounts server database)
        (nullCount server database) tree.feed).fileBytes
      · refine (refused_or_finished_of_part named located separates
          ⟨begun.within, fun path => ?_⟩ part).imp_right fun finished =>
            ⟨begun.exportable, finished⟩
        split
        · rename_i here
          rw [here, there, short]
        · rename_i apart
          exact begun.payload path apart
      · exact Or.inl (refused_of_unread fun runtime floatOf path =>
          readManifest_cut valid begins short marked runtime floatOf path)

end

/-! ### The history of a fixture -/

/-- An attempt to make a fixture: a snapshot of a database, which goes on to its end or is stopped
after a number of calls. -/
structure Attempt (Schema : Type) where
  run : SnapshotRun
  database : Database Schema
  stopped : Option Nat

section

variable {Schema : Type} (server : Server Schema) (sha256 : List UInt8 → String)

/-- What lies at the fixture's path after an attempt. -/
def Attempt.leaves (attempt : Attempt Schema) (directory : Option FileTree) : Option FileTree :=
  match attempt.stopped with
  | none => (attempt.run.createSnapshot sha256 server attempt.database directory).2
  | some calls => attempt.run.stopSnapshot sha256 server attempt.database calls directory

/-- What lies there after some attempts. -/
def afterAttempts (attempts : List (Attempt Schema)) (directory : Option FileTree) :
    Option FileTree :=
  attempts.foldl (fun left attempt => attempt.leaves server sha256 left) directory

/-- An attempt on a database that PostgreSQL holds. A `pg_dump` that exits with zero has printed the
schema, and a removal that fails leaves some of the files, each as it was. -/
structure Attempt.Sound (attempt : Attempt Schema) : Prop where
  held : Held server attempt.database
  layered : Layered server attempt.database.schema
  dumps : ∀ completed, attempt.run.pgDump = .ok completed → completed.returncode = 0 →
    Dumps server attempt.run attempt.database.schema
  removes : ∀ tree left, attempt.run.remains tree = some left → left.Part tree

/-- The attempt has made the fixture that lies there. -/
def Attempt.Made (attempt : Attempt Schema) (tree : FileTree) : Prop :=
  (∃ fdir, fixtureDir attempt.run.resolve attempt.run.fixturesRoot attempt.run.fixtureId =
    .ok fdir) ∧ ∃ schemaSql versions, attempt.run.dumpSchema = .ok (schemaSql, versions) ∧
    Exportable server attempt.database ∧
    SnapshotRun.Finished server attempt.database schemaSql (attempt.run.manifest sha256 versions
      (rowCounts server attempt.database) (nullCount server attempt.database) tree.feed) tree

end

section

variable {Schema : Type} {server : Server Schema} {sha256 : List UInt8 → String}

/-- A fixture that is there is never changed. -/
theorem Attempt.leaves_some (attempt : Attempt Schema) (tree : FileTree) :
    attempt.leaves server sha256 (some tree) = some tree := by
  rw [leaves]
  cases attempt.stopped with
  | none =>
    obtain ⟨fault, refused⟩ := @SnapshotRun.createSnapshot_some _ server attempt.database attempt.run
      sha256 tree
    dsimp only
    rw [refused]
  | some calls => exact SnapshotRun.stopSnapshot_some calls tree

theorem afterAttempts_some (attempts : List (Attempt Schema)) (tree : FileTree) :
    afterAttempts server sha256 attempts (some tree) = some tree := by
  induction attempts with
  | nil => rfl
  | cons attempt rest inductionHypothesis =>
    rw [afterAttempts, List.foldl_cons, Attempt.leaves_some]
    exact inductionHypothesis

/-- What an attempt leaves where nothing was is refused, or is a fixture that it has made. -/
theorem Attempt.leaves_none {attempt : Attempt Schema} (separates : Separates sha256)
    (sound : attempt.Sound server) {tree : FileTree}
    (left : attempt.leaves server sha256 none = some tree) :
    Refused sha256 (some tree) ∨ attempt.Made server sha256 tree := by
  have remains : ∀ {schemaSql versions halted fdir},
      attempt.run.dumpSchema = .ok (schemaSql, versions) →
      fixtureDir attempt.run.resolve attempt.run.fixturesRoot attempt.run.fixtureId = .ok fdir →
      SnapshotRun.Halted server attempt.database attempt.run sha256 schemaSql versions halted →
      tree.Part halted → Refused sha256 (some tree) ∨ attempt.Made server sha256 tree := by
    intro schemaSql versions halted fdir dump located halts part
    exact (refused_or_finished sound.held.named located separates halts part).imp_right
      fun finished => ⟨⟨fdir, located⟩, schemaSql, versions, dump, finished⟩
  rw [leaves] at left
  cases stopped : attempt.stopped with
  | none =>
    rw [stopped] at left
    dsimp only at left
    rcases @SnapshotRun.createSnapshot_leaves _ server attempt.database attempt.run sha256 none
      with same | ⟨schemaSql, versions, halfway, -, dump, ⟨fdir, located⟩, halted, here | gone⟩
    · rw [left] at same
      cases same
    · rw [left] at here
      obtain rfl := Option.some.inj here
      exact remains dump located halted (.refl _)
    · rw [left] at gone
      exact remains dump located halted (sound.removes halfway tree gone.symm)
  | some calls =>
    rw [stopped] at left
    dsimp only at left
    rcases @SnapshotRun.stopSnapshot_cases _ server attempt.database attempt.run sha256 calls none
      with same | ⟨schemaSql, versions, halfway, -, dump, ⟨fdir, located⟩, halted, here⟩
    · rw [left] at same
      cases same
    · rw [left] at here
      obtain rfl := Option.some.inj here
      exact remains dump located halted (.refl _)

/-- After any attempts what lies there is refused, or is a fixture that one of them has made. -/
theorem refused_or_made {attempts : List (Attempt Schema)} (separates : Separates sha256)
    (sound : ∀ attempt ∈ attempts, attempt.Sound server) :
    Refused sha256 (afterAttempts server sha256 attempts none) ∨ ∃ attempt ∈ attempts, ∃ tree,
      afterAttempts server sha256 attempts none = some tree ∧ attempt.Made server sha256 tree := by
  induction attempts with
  | nil => exact Or.inl refused_none
  | cons attempt rest inductionHypothesis =>
    rw [afterAttempts, List.foldl_cons]
    cases left : attempt.leaves server sha256 none with
    | none =>
      refine (inductionHypothesis fun other member =>
        sound other (List.mem_cons_of_mem _ member)).imp_right ?_
      rintro ⟨other, member, made⟩
      exact ⟨other, List.mem_cons_of_mem _ member, made⟩
    | some tree =>
      have kept : List.foldl (fun left attempt => Attempt.leaves server sha256 attempt left)
          (some tree) rest = some tree := afterAttempts_some rest tree
      rw [kept]
      exact (Attempt.leaves_none separates (sound attempt List.mem_cons_self) left).imp_right fun made =>
        ⟨attempt, List.mem_cons_self, tree, rfl, made⟩

end

/-- A schema is dumped by a `pg_dump` that exits with zero. -/
theorem exited_of_dumpSchema {run : SnapshotRun} {dumped : String × List (String × String)}
    (dump : run.dumpSchema = .ok dumped) :
    ∃ completed, run.pgDump = .ok completed ∧ completed.returncode = 0 := by
  rw [SnapshotRun.dumpSchema] at dump
  split at dump
  · cases dump
  · rename_i completed ran
    split at dump
    · cases dump
    · rename_i zero
      exact ⟨completed, ran, not_not.mp zero⟩

/-- After any attempts to make a fixture, each of which goes on to its end or is stopped anywhere,
whichever calls fail, the dump and the removal of what is half done among them, no restore takes what
lies at its path, or it is a whole fixture that one of them made: a restore into a database that has no table gets the manifest and the rows of the database
that attempt saw, and no other attempt changes it. -/
theorem fixture_history {Schema : Type} (server : Server Schema) (sha256 : List UInt8 → String)
    (documented : Documented server) (separates : Separates sha256)
    (attempts : List (Attempt Schema)) (sound : ∀ attempt ∈ attempts, attempt.Sound server) :
    Refused sha256 (afterAttempts server sha256 attempts none) ∨ ∃ attempt ∈ attempts, ∃ tree manifest,
      (∀ later, afterAttempts server sha256 (attempts ++ later) none = some tree) ∧
      manifest.contentHash = sha256 tree.feed ∧
      manifest.tableRowCounts = rowCounts server attempt.database ∧
      manifest.nullOccurredAtCount = nullCount server attempt.database ∧
      ∀ (restore : RestoreRun) (blank : Schema), server.tables blank = [] →
        TakesIntegers restore.runtime →
        (∀ fault final, restore.restoreFixture sha256 server (some tree) ⟨blank, fun _ => []⟩ =
          (.error fault, final) → final = ⟨blank, fun _ => []⟩) ∧
        (∀ returned final, restore.restoreFixture sha256 server (some tree) ⟨blank, fun _ => []⟩ =
          (.ok returned, final) → returned = manifest ∧ SameRows final attempt.database) ∧
        (restore.connect = .ok () → restore.faults = [] →
          (∃ fdir, fixtureDir restore.resolve restore.fixturesRoot restore.fixtureId = .ok fdir) →
          ∃ final, restore.restoreFixture sha256 server (some tree) ⟨blank, fun _ => []⟩ =
            (.ok manifest, final)) := by
  refine (refused_or_made separates sound).imp_right ?_
  rintro ⟨attempt, member, tree, left, ⟨placed, located⟩, schemaSql, versions, dumped, exportable,
    finished⟩
  obtain ⟨held, layered, dumps, -⟩ := sound attempt member
  obtain ⟨completed, exited, zero⟩ := exited_of_dumpSchema dumped
  obtain rfl := dumpSchema_of_dumps documented (dumps completed exited zero) dumped
  have restores (restore : RestoreRun) {fdir : String} (blank : Schema)
      (bare : server.tables blank = []) (takes : TakesIntegers restore.runtime)
      (here : fixtureDir restore.resolve restore.fixturesRoot restore.fixtureId = .ok fdir) :=
    restores_finished documented held layered exportable finished
      (valid_manifest held.named located sha256 versions _ tree.feed) rfl here takes bare
  refine ⟨attempt, member, tree, attempt.run.manifest sha256 versions
    (rowCounts server attempt.database) (nullCount server attempt.database) tree.feed,
    fun later => ?_, rfl, rfl, rfl, fun restore blank bare takes =>
      ⟨fun _ _ => RestoreRun.restoreFixture_raised, fun returned final ended => ?_,
        fun connects faultless there => ?_⟩⟩
  · have kept := @afterAttempts_some _ server sha256 later tree
    rw [afterAttempts] at left kept
    rw [afterAttempts, List.foldl_append, left, kept]
  · have restored := RestoreRun.restoreFixture_returned ended
    obtain ⟨fdir, _, _, _, here, _⟩ := restored
    obtain ⟨same, rfl⟩ := restores_unique (RestoreRun.restoreFixture_returned ended)
      (restores restore blank bare takes here)
    exact ⟨same, rfl, exportedRows_perm held⟩
  · obtain ⟨fdir, here⟩ := there
    exact ⟨_, RestoreRun.restoreFixture_of_restores connects faultless
      (restores restore blank bare takes here)⟩

/-- The number of bytes tells a tree from its parts. -/
theorem separates_lengthHash : Separates lengthHash := by
  intro part whole within same
  have lengths : part.feed.length = whole.feed.length := Text.numeral_injective same
  rw [FileTree.feed_eq_stream, FileTree.feed_eq_stream, within.entries_eq lengths.ge]

/-- A snapshot of the small store whose `pg_dump` fails. -/
def refusedAttempt : Attempt Bool :=
  ⟨{ storeRun with pgDump := .ok ⟨1, "", "connection refused"⟩ }, storeSource, none⟩

/-- A snapshot of it that goes on to its end. -/
def storeAttempt : Attempt Bool :=
  ⟨storeRun, storeSource, none⟩

/-- What the two leave is taken by a restore. -/
theorem not_refused_storeAttempt : ¬Refused lengthHash
    (afterAttempts storeServer lengthHash [refusedAttempt, storeAttempt] none) := by
  obtain ⟨written, tree, returned⟩ := @SnapshotRun.createSnapshot_of_exportable _ storeServer
    storeSource storeRun lengthHash _ rfl rfl rfl exportable_storeSource
  obtain ⟨-, -, ⟨_, placed⟩, schemaSql, versions, _, dumped, here, rfl, finished⟩ :=
    SnapshotRun.createSnapshot_returned returned
  obtain rfl := Option.some.inj here
  obtain rfl := dumpSchema_of_dumps documented_storeServer dumps_storeRun dumped
  have restores := @restores_finished _ storeServer storeSource tree _ documented_storeServer
    held_storeSource layered_store exportable_storeSource finished
    (valid_manifest held_storeSource.named placed lengthHash versions _ tree.feed) lengthHash rfl
    storeRestore "/fixtures/v1" (by decide) (fun _ => rfl) false rfl
  have left : afterAttempts storeServer lengthHash [refusedAttempt, storeAttempt] none =
      some tree := congrArg Prod.snd returned
  intro refused
  obtain ⟨fault, raised⟩ := refused Bool storeServer storeRestore ⟨false, fun _ => []⟩
  rw [left, RestoreRun.restoreFixture_of_restores rfl rfl restores] at raised
  cases (Prod.mk.inj raised).1

/-- The second attempt makes the fixture that the first did not, and it is restored. -/
theorem fixture_history_store : ∃ tree manifest,
    (∀ later, afterAttempts storeServer lengthHash ([refusedAttempt, storeAttempt] ++ later) none =
      some tree) ∧ manifest.tableRowCounts = rowCounts storeServer storeSource ∧
      ∃ final, storeRestore.restoreFixture lengthHash storeServer (some tree)
        ⟨false, fun _ => []⟩ = (.ok manifest, final) ∧ SameRows final storeSource := by
  have sound : ∀ attempt ∈ [refusedAttempt, storeAttempt], attempt.Sound storeServer := by
    intro attempt member
    rcases List.mem_cons.mp member with rfl | last
    · refine ⟨held_storeSource, layered_store, fun completed ended zero => ?_, fun _ _ left => ?_⟩
      · obtain rfl := Except.ok.inj ended
        cases zero
      · cases left
    · rw [List.mem_singleton.mp last]
      exact ⟨held_storeSource, layered_store, fun _ _ _ => dumps_storeRun, fun _ _ left => nomatch left⟩
  obtain ⟨attempt, member, tree, manifest, kept, -, counts, -, restores⟩ :=
    (fixture_history storeServer lengthHash documented_storeServer separates_lengthHash
      [refusedAttempt, storeAttempt] sound).resolve_left not_refused_storeAttempt
  have source : attempt.database = storeSource := by
    rcases List.mem_cons.mp member with rfl | last
    · rfl
    · rw [List.mem_singleton.mp last]
      rfl
  rw [source] at counts restores
  obtain ⟨-, returned, returns⟩ := restores storeRestore false rfl fun _ => rfl
  obtain ⟨final, restored⟩ := returns rfl rfl ⟨"/fixtures/v1", by decide⟩
  exact ⟨tree, manifest, kept, counts, final, restored, (returned _ _ restored).2⟩

end FleetMemory.Fixture
