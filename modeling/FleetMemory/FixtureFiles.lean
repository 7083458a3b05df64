/-
This file models where a fixture lies and its manifest: the model, the text it is written as and how
it is read back. A manifest that the code can build is read back from its file as it was written.
-/

import FleetMemory.EdgeStorage
import FleetMemory.FenceFiles
import FleetMemory.FixtureHash
import FleetMemory.JsonSpelling
import FleetMemory.PosixPath

namespace FleetMemory.Fixture

/-! ### Where a fixture lies -/

/-- The characters of a fixture id: those of `^[a-z0-9_.-]+$`. -/
def fixtureIdCharacter (character : Char) : Bool :=
  character.isLower || character.isDigit || character = '_' || character = '.' || character = '-'

/-- What the fixture code raises: its own errors, or another exception, by its class. -/
inductive FixtureFault where
  | fixture (error : RestoreError)
  | valueError (text : String)
  | other (className text : String)
deriving DecidableEq, Repr

/-- `fixture_dir`. `resolve` is `Path.resolve`. -/
def fixtureDir (resolve : String → String) (fixturesRoot fixtureId : String) :
    Except FixtureFault String :=
  if ¬Text.fullMatch fixtureIdCharacter fixtureId then
    .error (.valueError ("Invalid fixture_id '" ++ fixtureId ++ "'"))
  else
    let candidate := resolve (PosixPath.spelledIn fixturesRoot fixtureId)
    if ¬PosixPath.startsWith (resolve fixturesRoot) candidate then
      .error (.valueError "fixture_id results in path traversal")
    else .ok candidate

/-- `path.name`. -/
def pathName (path : String) : String :=
  (PosixPath.segments path).getLast?.getD ""

/-! ### The manifest -/

/-- `FixtureManifest`. The counts stand in the order of their tables. -/
structure FixtureManifest where
  fixtureId : String
  createdAt : String
  sourceTarget : String
  contentHash : String
  tableRowCounts : List (String × Int)
  nullOccurredAtCount : Int
  pgDumpVersion : String
deriving DecidableEq

namespace FixtureManifest

/-- `manifest.model_dump()`. -/
def modelDump (manifest : FixtureManifest) : PyDict :=
  [("fixture_id", .str manifest.fixtureId), ("created_at", .str manifest.createdAt),
    ("source_target", .str manifest.sourceTarget), ("content_hash", .str manifest.contentHash),
    ("table_row_counts", dictOf .int manifest.tableRowCounts),
    ("null_occurred_at_count", .int manifest.nullOccurredAtCount),
    ("pg_dump_version", .str manifest.pgDumpVersion)]

/-- The arguments of `json.dump` in `write_manifest`. -/
def format : Json.Format where
  indent := some 2
  ensureAscii := false
  sortKeys := true

/-- What `write_manifest` writes into `manifest.json`. -/
def fileBytes (manifest : FixtureManifest) : List UInt8 :=
  Utf8.bytes (format.dumps (.dict manifest.modelDump)).toList

end FixtureManifest

/-- The `fixture_id` field and its validator. -/
def fixtureIdValue (value : PyValue) : Checked String := do
  let text ← strValue "fixture_id" value
  if Text.fullMatch fixtureIdCharacter text then .ok text
  else .error [⟨"fixture_id", "Value error, fixture_id '" ++ text ++
    "' does not match required pattern ^[a-z0-9_.-]+$"⟩]

/-- `FixtureManifest(**data)`. -/
def FixtureManifest.check (runtime : Runtime) (data : PyDict) : Checked FixtureManifest :=
  let text (name : String) := field name none (strValue name) data
  let number (name : String) := field name (some 0) (intValue runtime name) data
  (Checked.both (field "fixture_id" none fixtureIdValue data)
    (Checked.both (text "created_at")
      (Checked.both (text "source_target")
        (Checked.both (text "content_hash")
          (Checked.both (field "table_row_counts" (some [])
            (mapValue "table_row_counts" (intValue runtime)) data)
            (Checked.both (number "null_occurred_at_count")
              (field "pg_dump_version" (some "") (strValue "pg_dump_version") data))))))).map
    fun parts => ⟨parts.1, parts.2.1, parts.2.2.1, parts.2.2.2.1, parts.2.2.2.2.1,
      parts.2.2.2.2.2.1, parts.2.2.2.2.2.2⟩

/-- The text of a file that is read as UTF-8, `none` when it is none. -/
def readText (bytes : List UInt8) : Option String :=
  let text := Utf8.decode bytes
  if Utf8.bytes text = bytes then some (String.ofList (Fence.universalNewlines text)) else none

/-- `read_manifest` of the directory at a path. -/
def readManifest (runtime : Runtime) (floatOf : String → PyFloat) (path : String)
    (directory : Option FileTree) : Except FixtureFault FixtureManifest :=
  match directory.bind fun tree => tree.content.lookup [FileTree.manifestName] with
  | none => .error (.fixture (.unknownFixture (pathName path)))
  | some bytes =>
    match readText bytes with
    | none => .error (.other "UnicodeDecodeError" "")
    | some text =>
      match Json.loads floatOf text with
      | none => .error (.other "JSONDecodeError" "")
      | some (.dict data) =>
        match FixtureManifest.check runtime data with
        | .ok manifest => .ok manifest
        | .error errors =>
          .error (.fixture (.fixture (runtime.validationText "FixtureManifest" errors)))
      | some _ => .error (.other "TypeError" "argument after ** must be a mapping")

/-! ### What is written is read back -/

theorem readText_bytes {text : String} (plain : '\r' ∉ text.toList) :
    readText (Utf8.bytes text.toList) = some text := by
  have same : ∀ characters : List Char, '\r' ∉ characters →
      Fence.universalNewlines characters = characters := by
    intro characters free
    fun_induction Fence.universalNewlines characters with
    | case1 => rfl
    | case2 => simp at free
    | case3 => simp at free
    | case4 character rest _ _ inductionHypothesis =>
      rw [inductionHypothesis fun member => free (List.mem_cons_of_mem _ member)]
  rw [readText, Utf8.decode_bytes, if_pos rfl, same _ plain, String.ofList_toList]

/-- A manifest the code can build: its id passes the validator, and it counts each table once. -/
structure FixtureManifest.Valid (manifest : FixtureManifest) : Prop where
  fixtureId : Text.fullMatch fixtureIdCharacter manifest.fixtureId = true
  counts : Json.Ordered manifest.tableRowCounts

namespace FixtureManifest

variable {manifest : FixtureManifest}

theorem distinct_modelDump (manifest : FixtureManifest) :
    (manifest.modelDump.map Prod.fst).Nodup := by
  have names : manifest.modelDump.map Prod.fst = ["fixture_id", "created_at", "source_target",
      "content_hash", "table_row_counts", "null_occurred_at_count", "pg_dump_version"] := rfl
  rw [names]
  decide

theorem Valid.plain (valid : manifest.Valid) (floatOf : String → PyFloat) :
    Json.Plain floatOf (.dict manifest.modelDump) := by
  refine .dict _ (distinct_modelDump manifest) fun entry member => ?_
  have counts : Json.Plain floatOf (dictOf .int manifest.tableRowCounts) :=
    plain_dictOf valid.counts fun entry _ => .int entry.2
  simp only [modelDump, List.mem_cons, List.not_mem_nil, or_false] at member
  rcases member with rfl | rfl | rfl | rfl | rfl | rfl | rfl
  · exact .str _
  · exact .str _
  · exact .str _
  · exact .str _
  · exact counts
  · exact .int _
  · exact .str _

/-- The values of a manifest read the same whatever the order of keys. -/
theorem Valid.get_canonical (valid : manifest.Valid) (name : String) :
    PyDict.get (Json.sortByKey (Json.canonicalEntries manifest.modelDump)) name =
      PyDict.get manifest.modelDump name := by
  rw [Json.get_canonicalEntries (distinct_modelDump manifest)]
  cases found : PyDict.get manifest.modelDump name with
  | none => rfl
  | some value =>
    have member := PyDict.mem_of_get found
    have counts := @canonical_dictOf _ .int manifest.tableRowCounts (fun _ => rfl) valid.counts
    refine congrArg some ?_
    simp only [modelDump, List.mem_cons, Prod.mk.injEq, List.not_mem_nil, or_false] at member
    rcases member with ⟨-, rfl⟩ | ⟨-, rfl⟩ | ⟨-, rfl⟩ | ⟨-, rfl⟩ | ⟨-, rfl⟩ | ⟨-, rfl⟩ | ⟨-, rfl⟩
    · rfl
    · rfl
    · rfl
    · rfl
    · exact counts
    · rfl
    · rfl

/-- The fields of a manifest pass their checks. -/
theorem Valid.check_eq {runtime : Runtime} (takes : TakesIntegers runtime) (valid : manifest.Valid)
    {data : PyDict} (same : ∀ name, PyDict.get data name = PyDict.get manifest.modelDump name) :
    check runtime data = .ok manifest := by
  have counts : mapValue "table_row_counts" (intValue runtime)
      (dictOf .int manifest.tableRowCounts) = .ok manifest.tableRowCounts :=
    mapValue_dictOf (fun place number => by rw [intValue, takes]) valid.counts
  have id : fixtureIdValue (.str manifest.fixtureId) = .ok manifest.fixtureId := by
    show (if Text.fullMatch fixtureIdCharacter manifest.fixtureId = true then _ else _) = _
    rw [if_pos valid.fixtureId]
  have found : PyDict.get data "fixture_id" = some (.str manifest.fixtureId) ∧
      PyDict.get data "created_at" = some (.str manifest.createdAt) ∧
      PyDict.get data "source_target" = some (.str manifest.sourceTarget) ∧
      PyDict.get data "content_hash" = some (.str manifest.contentHash) ∧
      PyDict.get data "table_row_counts" = some (dictOf .int manifest.tableRowCounts) ∧
      PyDict.get data "null_occurred_at_count" = some (.int manifest.nullOccurredAtCount) ∧
      PyDict.get data "pg_dump_version" = some (.str manifest.pgDumpVersion) := by
    refine ⟨?_, ?_, ?_, ?_, ?_, ?_, ?_⟩ <;>
      exact (same _).trans
        (PyDict.get_of_mem (distinct_modelDump manifest) (by simp [modelDump]))
  simp only [check, field, found, id, counts, strValue, intValue, takes _, Checked.both]
  rfl

/-- No carriage return stands in the text of a manifest. -/
theorem Valid.carriage_dumps (valid : manifest.Valid) (floatOf : String → PyFloat) :
    '\r' ∉ (format.dumps (.dict manifest.modelDump)).toList := by
  intro member
  rw [Json.Format.dumps, String.toList_ofList] at member
  have printable := format.printable_render (valid.plain floatOf) 0 '\r' member
  exact absurd printable (by unfold Json.Format.Printable; decide)

end FixtureManifest

/-- `read_manifest` gives back what `write_manifest` wrote. -/
theorem readManifest_fileBytes {runtime : Runtime} (takes : TakesIntegers runtime)
    (floatOf : String → PyFloat) {manifest : FixtureManifest} (valid : manifest.Valid)
    (path : String) {tree : FileTree}
    (written : tree.content.lookup [FileTree.manifestName] = some manifest.fileBytes) :
    readManifest runtime floatOf path (some tree) = .ok manifest := by
  have plain := valid.plain floatOf
  have loaded := @Json.Format.loads_dumps FixtureManifest.format floatOf _ plain "" (by simp)
  have sorted : FixtureManifest.format.readBack (.dict manifest.modelDump) =
      Json.canonical (.dict manifest.modelDump) := rfl
  rw [String.append_empty, sorted, Json.canonical] at loaded
  rw [readManifest, Option.bind_some, written]
  dsimp only
  rw [FixtureManifest.fileBytes, readText_bytes (valid.carriage_dumps floatOf)]
  dsimp only
  rw [loaded]
  dsimp only
  rw [valid.check_eq takes valid.get_canonical]

end FleetMemory.Fixture
