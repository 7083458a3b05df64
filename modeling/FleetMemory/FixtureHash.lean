/-
This file models the content hash of a fixture and the check of it that a restore makes. Paths and
contents are hashed one behind the other with only a NUL after each path, and every file named
`manifest.json` is skipped at any depth: it is proved which trees the hashed bytes pin.
-/

import FleetMemory.Framing
import FleetMemory.Utf8
import Mathlib.Algebra.Order.BigOperators.Group.Finset
import Mathlib.Data.Finmap
import Mathlib.Data.Finset.Sort
import Mathlib.Data.List.Lex
import Mathlib.Data.String.Basic
import Mathlib.Order.Lattice.Nat

namespace FleetMemory

/-! ### File trees -/

-- what the order of paths is, for the sorts below
instance isTrans_paths : IsTrans (List String) fun first second => first ≤ second :=
  inferInstance

instance antisymm_paths : Std.Antisymm fun first second : List String => first ≤ second :=
  inferInstance

instance total_paths : Std.Total fun first second : List String => first ≤ second :=
  inferInstance

/-- A name that a file or a directory can have. -/
def ValidName (name : String) : Prop :=
  name ≠ "" ∧ name ≠ "." ∧ name ≠ ".." ∧ '/' ∉ name.toList ∧ '\x00' ∉ name.toList

instance (name : String) : Decidable (ValidName name) :=
  inferInstanceAs (Decidable (_ ∧ _))

/-- A relative path that a file can have, name by name. -/
def ValidPath (path : List String) : Prop :=
  path ≠ [] ∧ ∀ name ∈ path, ValidName name

instance (path : List String) : Decidable (ValidPath path) :=
  inferInstanceAs (Decidable (_ ∧ _))

/-- The files under a directory: what each relative path holds. No file lies under another. -/
structure FileTree where
  content : Finmap fun _ : List String => List UInt8
  valid : ∀ path ∈ content, ValidPath path
  apart : ∀ first ∈ content, ∀ second ∈ content, first <+: second → first = second

namespace FileTree

/-- `file_path.read_bytes()`. -/
def readBytes (tree : FileTree) (path : List String) : List UInt8 :=
  (tree.content.lookup path).getD []

/-- The name that `compute_content_hash` skips. -/
def manifestName : String := "manifest.json"

/-- The files of `fixture_dir.rglob("*")` that are hashed, in the order of their paths. -/
def hashedPaths (tree : FileTree) : List (List String) :=
  (tree.content.keys.filter fun path => path.getLast? ≠ some manifestName).sort (· ≤ ·)

/-- `rel_path.encode("utf-8")`. -/
def encodePath (path : List String) : List UInt8 :=
  Utf8.bytes (Text.join '/' path).toList

/-- The bytes that `compute_content_hash` hashes. -/
def feed (tree : FileTree) : List UInt8 :=
  tree.hashedPaths.flatMap fun path => encodePath path ++ 0 :: tree.readBytes path

end FileTree

/-! ### The hash check of a restore -/

/-- What `compute_content_hash` and `_verified_tables` raise. -/
inductive RestoreError where
  | fileNotFound (fixtureDir : String)
  | unknownFixture (fixtureId : String)
  | hashMismatch (fixtureId expected actual : String)
  | fixture (message : String)
deriving DecidableEq, Repr

/-- `str(error)`. -/
def RestoreError.text : RestoreError → String
  | fileNotFound fixtureDir => "Fixture directory not found: " ++ fixtureDir
  | unknownFixture fixtureId => "Unknown fixture '" ++ fixtureId ++ "'"
  | hashMismatch fixtureId expected actual =>
    "Fixture '" ++ fixtureId ++ "' hash mismatch: expected " ++ expected ++ ", got " ++ actual
  | fixture message => message

/-- What a restore reads of a `FixtureManifest`. -/
structure FixtureManifest where
  contentHash : String

/-- `RESTORE_ORDER`. -/
def restoreOrder : List String :=
  ["store_migrations", "vector_migrations", "store", "store_vectors"]

/-- `path.stem` of a path that `*.copy` matches. -/
def copyStem (name : String) : String :=
  let stem := name.toList.take (name.toList.length - 5)
  if stem = [] then name else String.ofList stem

/-- The names in the fixture's `data` directory. -/
def dataNames (tree : FileTree) : Finset String :=
  tree.content.keys.biUnion fun
    | "data" :: name :: _ => {name}
    | _ => ∅

/-- The stems of the fixture's `data/*.copy`. -/
def copyTables (tree : FileTree) : List String :=
  (((dataNames tree).filter fun name => ".copy".toList <:+ name.toList).val.map copyStem).sort
    (· ≤ ·)

section

variable (sha256 : List UInt8 → String)

/-- `compute_content_hash` of what is at a path: a directory with its files, or none. -/
def computeContentHash (fixtureDir : String) : Option FileTree → Except RestoreError String
  | none => .error (.fileNotFound fixtureDir)
  | some tree => .ok (sha256 tree.feed)

/-- `_verified_tables`, given what `read_manifest` does. -/
def verifiedTables (fixtureDir fixtureId : String)
    (readManifest : Except RestoreError FixtureManifest) (directory : Option FileTree) :
    Except RestoreError (List String) := do
  let manifest ← readManifest
  let actualHash ← computeContentHash sha256 fixtureDir directory
  if actualHash ≠ manifest.contentHash then
    throw (.hashMismatch fixtureId manifest.contentHash actualHash)
  let tables := (directory.map copyTables).getD []
  if tables = [] then
    throw (.fixture ("Fixture '" ++ fixtureId ++ "' contains no data files"))
  let unknown := (tables.toFinset \ restoreOrder.toFinset).sort (· ≤ ·)
  if unknown ≠ [] then
    throw (.fixture ("Fixture '" ++ fixtureId ++ "' contains data for unknown tables: " ++
      ", ".intercalate unknown))
  return restoreOrder.filter (· ∈ tables)

/-- The hash check passes: nothing is raised for the hash that the manifest states. -/
def PassesHashCheck (fixtureDir fixtureId stated : String) (tree : FileTree) : Prop :=
  ∀ expected actual, verifiedTables sha256 fixtureDir fixtureId (.ok ⟨stated⟩) (some tree) ≠
    .error (.hashMismatch fixtureId expected actual)

theorem passesHashCheck_iff {fixtureDir fixtureId stated : String} {tree : FileTree} :
    PassesHashCheck sha256 fixtureDir fixtureId stated tree ↔ sha256 tree.feed = stated := by
  unfold PassesHashCheck verifiedTables computeContentHash
  by_cases same : sha256 tree.feed = stated
  · refine iff_of_true (fun expected actual => ?_) same
    simp only [bind, Except.bind, same, ne_eq, not_true_eq_false, if_false]
    split
    · simp [throw, throwThe, MonadExceptOf.throw]
    · split
      · simp [throw, throwThe, MonadExceptOf.throw]
      · simp [pure, Except.pure]
  · refine iff_of_false (fun passes => ?_) same
    refine passes stated (sha256 tree.feed) ?_
    simp [bind, Except.bind, same, throw, throwThe, MonadExceptOf.throw]

end

/-! ### Legal lists of hashed paths -/

/-- A path whose file is hashed. -/
def HashedPath (path : List String) : Prop :=
  ValidPath path ∧ path.getLast? ≠ some FileTree.manifestName

/-- Neither path lies under the other. -/
def Unnested (first second : List String) : Prop :=
  ¬first <+: second ∧ ¬second <+: first

instance : Std.Symm Unnested :=
  ⟨fun _ _ unnested => unnested.symm⟩

/-- The second path is hashed later, and neither lies under the other. -/
def Follows (first second : List String) : Prop :=
  first < second ∧ Unnested first second

/-- The hashed paths of some tree, in their order. -/
def LegalPaths (paths : List (List String)) : Prop :=
  (∀ path ∈ paths, HashedPath path) ∧ paths.Pairwise Follows

instance (paths : List (List String)) : Decidable (LegalPaths paths) :=
  inferInstanceAs (Decidable
    ((∀ path ∈ paths, ValidPath path ∧ path.getLast? ≠ some FileTree.manifestName) ∧
      paths.Pairwise fun first second =>
        first < second ∧ ¬first <+: second ∧ ¬second <+: first))

theorem legalPaths_singleton {path : List String} : LegalPaths [path] ↔ HashedPath path := by
  simp [LegalPaths]

theorem FileTree.toList_join_free {path : List String} (hashed : HashedPath path) :
    '\x00' ∉ (Text.join '/' path).toList := by
  intro member
  rcases Text.mem_join member with slash | ⟨name, inside, held⟩
  · exact absurd slash (by decide)
  · exact (hashed.1.2 name inside).2.2.2.2 held

/-- Paths are framed as the stream library asks for. -/
theorem legalPaths_keys : Framing.Keys FileTree.encodePath 0 LegalPaths where
  sublist := fun part legal =>
    ⟨fun path member => legal.1 path (part.subset member), legal.2.sublist part⟩
  free := fun legal zero =>
    FileTree.toList_join_free (legalPaths_singleton.mp legal) (Utf8.nul_mem_of_zero_mem_bytes zero)
  injective := by
    intro first second firstLegal secondLegal same
    have spelled : Text.join '/' first = Text.join '/' second :=
      String.toList_inj.mp (Utf8.bytes_injective same)
    have firstPath := (legalPaths_singleton.mp firstLegal).1
    have secondPath := (legalPaths_singleton.mp secondLegal).1
    rw [← Text.split_join '/' first firstPath.1 fun name member => (firstPath.2 name member).2.2.2.1,
      ← Text.split_join '/' second secondPath.1 fun name member =>
        (secondPath.2 name member).2.2.2.1, spelled]

namespace FileTree

/-! ### A tree as the list of what is hashed of it -/

/-- The hashed files with their contents, in the order of their paths. -/
def entries (tree : FileTree) : List (List String × List UInt8) :=
  tree.hashedPaths.map fun path => (path, tree.readBytes path)

theorem map_fst_entries (tree : FileTree) : tree.entries.map Prod.fst = tree.hashedPaths := by
  rw [entries, List.map_map]
  exact List.map_id _

theorem feed_eq_stream (tree : FileTree) :
    tree.feed = Framing.stream encodePath 0 tree.entries := by
  rw [feed, Framing.stream, entries, List.flatMap_map]
  rfl

theorem mem_hashedPaths {tree : FileTree} {path : List String} :
    path ∈ tree.hashedPaths ↔ path ∈ tree.content ∧ path.getLast? ≠ some manifestName := by
  rw [hashedPaths, Finset.mem_sort, Finset.mem_filter, Finmap.mem_keys]

theorem mem_entries {tree : FileTree} {path : List String} {bytes : List UInt8} :
    (path, bytes) ∈ tree.entries ↔
      tree.content.lookup path = some bytes ∧ path.getLast? ≠ some manifestName := by
  rw [entries, List.mem_map]
  constructor
  · rintro ⟨_, member, same⟩
    obtain ⟨rfl, rfl⟩ := Prod.mk.inj same
    obtain ⟨inside, name⟩ := mem_hashedPaths.mp member
    obtain ⟨bytes, found⟩ := Option.isSome_iff_exists.mp (Finmap.lookup_isSome.mpr inside)
    exact ⟨by rw [readBytes, found, Option.getD_some], name⟩
  · rintro ⟨found, name⟩
    refine ⟨path, mem_hashedPaths.mpr ⟨?_, name⟩, by rw [readBytes, found, Option.getD_some]⟩
    exact Finmap.lookup_isSome.mp (by rw [found, Option.isSome_some])

theorem legal_hashedPaths (tree : FileTree) : LegalPaths tree.hashedPaths := by
  refine ⟨fun path member => ?_, ?_⟩
  · obtain ⟨inside, name⟩ := mem_hashedPaths.mp member
    exact ⟨tree.valid path inside, name⟩
  · refine (Finset.sortedLT_sort _).pairwise.imp_of_mem fun {first second} here there before => ?_
    have firstInside := (mem_hashedPaths.mp here).1
    have secondInside := (mem_hashedPaths.mp there).1
    refine ⟨before, fun under => ?_, fun under => ?_⟩
    · exact absurd (tree.apart _ firstInside _ secondInside under) before.ne
    · exact absurd (tree.apart _ secondInside _ firstInside under) before.ne'

/-- No file below the top level is named like the manifest. -/
def Plain (tree : FileTree) : Prop :=
  ∀ path ∈ tree.content, path.getLast? = some manifestName → path = [manifestName]

/-- The same files with the same bytes, the top-level manifest left out. -/
def SamePayload (first second : FileTree) : Prop :=
  ∀ path, path ≠ [manifestName] → first.content.lookup path = second.content.lookup path

theorem entries_eq_of_samePayload {first second : FileTree} (same : SamePayload first second) :
    first.entries = second.entries := by
  have apart {path : List String} (name : path.getLast? ≠ some manifestName) :
      path ≠ [manifestName] := by
    rintro rfl
    exact name rfl
  have paths : first.hashedPaths = second.hashedPaths := by
    rw [hashedPaths, hashedPaths]
    congr 1
    ext path
    rw [Finset.mem_filter, Finset.mem_filter, Finmap.mem_keys, Finmap.mem_keys]
    refine and_congr_left fun name => ?_
    rw [← Finmap.lookup_isSome, ← Finmap.lookup_isSome, same path (apart name)]
  rw [entries, entries, paths]
  refine List.map_congr_left fun path member => ?_
  rw [readBytes, readBytes, same path (apart (mem_hashedPaths.mp member).2)]

/-- Of a plain tree all payload files are hashed. -/
theorem Plain.mem_entries_iff {tree : FileTree} (plain : tree.Plain) {path : List String}
    (payload : path ≠ [manifestName]) {bytes : List UInt8} :
    (path, bytes) ∈ tree.entries ↔ tree.content.lookup path = some bytes := by
  rw [mem_entries]
  refine and_iff_left_of_imp fun found name => payload ?_
  exact plain path (Finmap.lookup_isSome.mp (by rw [found, Option.isSome_some])) name

theorem Plain.samePayload_iff {first second : FileTree} (firstPlain : first.Plain)
    (secondPlain : second.Plain) :
    SamePayload first second ↔ first.entries = second.entries := by
  refine ⟨entries_eq_of_samePayload, fun same path payload => ?_⟩
  refine Option.ext fun bytes => ?_
  rw [← firstPlain.mem_entries_iff payload, ← secondPlain.mem_entries_iff payload, same]

/-! ### Parts of a tree -/

/-- The files of the first tree are files of the second, with their bytes. -/
def Part (part whole : FileTree) : Prop :=
  ∀ path bytes, part.content.lookup path = some bytes → whole.content.lookup path = some bytes

theorem Part.refl (tree : FileTree) : tree.Part tree :=
  fun _ _ found => found

/-- Each file that is hashed adds its path, the NUL and its bytes. -/
theorem length_feed (tree : FileTree) : tree.feed.length =
    ∑ path ∈ tree.hashedPaths.toFinset,
      ((encodePath path).length + 1 + (tree.readBytes path).length) := by
  have apart : tree.hashedPaths.Nodup := Finset.sort_nodup _ _
  rw [List.sum_toFinset _ apart, feed, List.length_flatMap]
  refine congrArg List.sum (List.map_congr_left fun path _ => ?_)
  rw [List.length_append, List.length_cons]
  omega

theorem Part.plain {part whole : FileTree} (within : part.Part whole) (plain : whole.Plain) :
    part.Plain := by
  intro path member
  obtain ⟨bytes, found⟩ := Option.isSome_iff_exists.mp (Finmap.lookup_isSome.mpr member)
  exact plain path (Finmap.lookup_isSome.mp (Option.isSome_of_eq_some (within path bytes found)))

theorem Part.lookup_hashed {part whole : FileTree} (within : part.Part whole) {path : List String}
    (member : path ∈ part.hashedPaths) : ∃ bytes, part.content.lookup path = some bytes ∧
      whole.content.lookup path = some bytes := by
  obtain ⟨bytes, found⟩ := Option.isSome_iff_exists.mp
    (Finmap.lookup_isSome.mpr (mem_hashedPaths.mp member).1)
  exact ⟨bytes, found, within path bytes found⟩

theorem Part.subset_hashedPaths {part whole : FileTree} (within : part.Part whole) :
    part.hashedPaths ⊆ whole.hashedPaths := by
  intro path member
  obtain ⟨_, _, found⟩ := within.lookup_hashed member
  exact mem_hashedPaths.mpr
    ⟨Finmap.lookup_isSome.mp (Option.isSome_of_eq_some found), (mem_hashedPaths.mp member).2⟩

/-- The bytes that are hashed of a part. -/
theorem Part.length_feed {part whole : FileTree} (within : part.Part whole) : part.feed.length =
    ∑ path ∈ part.hashedPaths.toFinset,
      ((encodePath path).length + 1 + (whole.readBytes path).length) := by
  rw [FileTree.length_feed]
  refine Finset.sum_congr rfl fun path member => ?_
  obtain ⟨_, here, there⟩ := within.lookup_hashed (List.mem_toFinset.mp member)
  rw [readBytes, readBytes, here, there]

/-- A part of which as many bytes are hashed as of the whole has all its hashed files. -/
theorem Part.entries_eq {part whole : FileTree} (within : part.Part whole)
    (long : whole.feed.length ≤ part.feed.length) : part.entries = whole.entries := by
  have all : whole.hashedPaths ⊆ part.hashedPaths := by
    intro path hashed
    by_contra gone
    have less := Finset.sum_lt_sum_of_subset
      (f := fun path => (encodePath path).length + 1 + (whole.readBytes path).length)
      (fun other member => List.mem_toFinset.mpr
        (within.subset_hashedPaths (List.mem_toFinset.mp member)))
      (List.mem_toFinset.mpr hashed) (mt List.mem_toFinset.mp gone) (by omega)
      fun _ _ _ => by omega
    rw [← within.length_feed, ← FileTree.length_feed] at less
    omega
  have paths : part.hashedPaths = whole.hashedPaths := by
    have same (path : List String) : path ∈ part.hashedPaths ↔ path ∈ whole.hashedPaths :=
      ⟨fun member => within.subset_hashedPaths member, fun member => all member⟩
    simp only [hashedPaths, Finset.mem_sort] at same ⊢
    rw [Finset.ext same]
  rw [entries, entries, paths]
  refine List.map_congr_left fun path member => ?_
  obtain ⟨_, here, there⟩ := within.lookup_hashed (all member)
  rw [readBytes, readBytes, here, there]

/-! ### The tree of a list -/

/-- The files of a list, as a map. -/
def contentOf (entries : List (List String × List UInt8))
    (legal : LegalPaths (entries.map Prod.fst)) : Finmap fun _ : List String => List UInt8 :=
  AList.toFinmap ⟨entries.map fun entry => ⟨entry.1, entry.2⟩, by
    rw [List.NodupKeys, List.keys, List.map_map]
    exact legal.2.imp fun follows => follows.1.ne⟩

variable {entries : List (List String × List UInt8)}
  {legal : LegalPaths (entries.map Prod.fst)}

theorem lookup_contentOf {path : List String} {bytes : List UInt8} :
    (contentOf entries legal).lookup path = some bytes ↔ (path, bytes) ∈ entries := by
  rw [contentOf, Finmap.lookup_toFinmap, AList.lookup]
  refine (List.mem_dlookup_iff (AList.nodupKeys _)).trans ?_
  constructor
  · intro member
    obtain ⟨entry, inside, same⟩ := List.mem_map.mp member
    cases same
    exact inside
  · intro member
    exact List.mem_map.mpr ⟨_, member, rfl⟩

theorem mem_contentOf {path : List String} :
    path ∈ contentOf entries legal ↔ path ∈ entries.map Prod.fst := by
  rw [← Finmap.lookup_isSome, Option.isSome_iff_exists]
  simp only [lookup_contentOf, List.mem_map, Prod.exists, exists_and_right, exists_eq_right]

/-- The tree that holds the files of a list. -/
def ofEntries (entries : List (List String × List UInt8))
    (legal : LegalPaths (entries.map Prod.fst)) : FileTree where
  content := contentOf entries legal
  valid := fun path member => (legal.1 path (mem_contentOf.mp member)).1
  apart := by
    intro first firstIn second secondIn under
    by_contra different
    have unnested : (entries.map Prod.fst).Pairwise Unnested :=
      legal.2.imp fun follows => follows.2
    exact (unnested.forall (mem_contentOf.mp firstIn) (mem_contentOf.mp secondIn) different).1
      under

theorem mem_ofEntries {path : List String} :
    path ∈ (ofEntries entries legal).content ↔ path ∈ entries.map Prod.fst :=
  @mem_contentOf entries legal path

theorem plain_ofEntries : (ofEntries entries legal).Plain := by
  intro path member name
  exact absurd name (legal.1 path (mem_ofEntries.mp member)).2

theorem entries_ofEntries : (ofEntries entries legal).entries = entries := by
  have paths : (ofEntries entries legal).hashedPaths = entries.map Prod.fst := by
    have nodup : (entries.map Prod.fst).Nodup := legal.2.imp fun follows => follows.1.ne
    rw [← (List.toFinset_sort (· ≤ ·) nodup).mpr (legal.2.imp fun follows => follows.1.le),
      hashedPaths]
    congr 1
    ext path
    rw [Finset.mem_filter, Finmap.mem_keys, List.mem_toFinset]
    refine (and_congr_left fun _ => mem_ofEntries).trans (and_iff_left_of_imp fun member => ?_)
    exact (legal.1 path member).2
  rw [FileTree.entries, paths, List.map_map]
  refine (List.map_congr_left fun entry member => ?_).trans (List.map_id entries)
  have found : (ofEntries entries legal).content.lookup entry.1 = some entry.2 :=
    (@lookup_contentOf entries legal _ _).mpr member
  rw [Function.comp_apply, readBytes, found, Option.getD_some, id_eq]

/-! ### A manifest in a directory of its own -/

/-- A name longer than every name at the top level. -/
def freshName (tree : FileTree) : String :=
  String.ofList (List.replicate
    (tree.content.keys.sup (fun path => (path.head?.getD "").toList.length) + 1) 'a')

theorem validName_freshName (tree : FileTree) : ValidName tree.freshName := by
  have held {character : Char} (member : character ∈ tree.freshName.toList) : character = 'a' := by
    rw [freshName, String.toList_ofList] at member
    exact List.eq_of_mem_replicate member
  have some_a : 'a' ∈ tree.freshName.toList := by
    rw [freshName, String.toList_ofList]
    exact List.mem_replicate.mpr ⟨Nat.succ_ne_zero _, rfl⟩
  refine ⟨?_, ?_, ?_, fun slash => absurd (held slash) (by decide),
    fun nul => absurd (held nul) (by decide)⟩
  · exact fun same => absurd (same ▸ some_a) (by decide)
  · exact fun same => absurd (same ▸ some_a) (by decide)
  · exact fun same => absurd (same ▸ some_a) (by decide)

theorem head_ne_freshName {tree : FileTree} {path : List String} (member : path ∈ tree.content) :
    path.head? ≠ some tree.freshName := by
  intro same
  have bound := Finset.le_sup (f := fun path : List String => (path.head?.getD "").toList.length)
    (Finmap.mem_keys.mpr member)
  rw [same, Option.getD_some, freshName, String.toList_ofList, List.length_replicate] at bound
  omega

/-- The path of a manifest in a new directory. -/
def nestedManifest (tree : FileTree) : List String :=
  [tree.freshName, manifestName]

theorem head_eq_of_under {first second : List String} (nonempty : first ≠ [])
    (under : first <+: second) : first.head? = second.head? := by
  obtain ⟨rest, rfl⟩ := under
  obtain ⟨name, names, rfl⟩ := List.exists_cons_of_ne_nil nonempty
  rfl

/-- The tree with one more file: an empty manifest in a new directory. -/
def withNestedManifest (tree : FileTree) : FileTree where
  content := tree.content.insert tree.nestedManifest []
  valid := by
    intro path member
    rcases Finmap.mem_insert.mp member with rfl | inside
    · refine ⟨List.cons_ne_nil _ _, fun name held => ?_⟩
      rcases List.mem_pair.mp held with rfl | rfl
      · exact tree.validName_freshName
      · decide
    · exact tree.valid path inside
  apart := by
    intro first firstIn second secondIn under
    rcases Finmap.mem_insert.mp firstIn with rfl | firstInside <;>
      rcases Finmap.mem_insert.mp secondIn with rfl | secondInside
    · rfl
    · exact absurd (head_eq_of_under (List.cons_ne_nil _ _) under).symm
        (head_ne_freshName secondInside)
    · exact absurd (head_eq_of_under (tree.valid _ firstInside).1 under)
        (head_ne_freshName firstInside)
    · exact tree.apart _ firstInside _ secondInside under

theorem feed_withNestedManifest (tree : FileTree) : tree.withNestedManifest.feed = tree.feed := by
  have paths : tree.withNestedManifest.hashedPaths = tree.hashedPaths := by
    rw [hashedPaths, hashedPaths]
    congr 1
    ext path
    rw [Finset.mem_filter, Finset.mem_filter, Finmap.mem_keys, Finmap.mem_keys]
    refine and_congr_left fun name => Finmap.mem_insert.trans (or_iff_right ?_)
    rintro rfl
    exact name rfl
  rw [feed, feed, paths]
  refine List.flatMap_congr fun path member => ?_
  have other : path ≠ tree.nestedManifest := by
    rintro rfl
    exact (mem_hashedPaths.mp member).2 rfl
  rw [readBytes, readBytes, withNestedManifest, Finmap.lookup_insert_of_ne _ other]

theorem not_samePayload_withNestedManifest (tree : FileTree) :
    ¬SamePayload tree tree.withNestedManifest := by
  intro same
  have here := same tree.nestedManifest (by simp [nestedManifest])
  rw [withNestedManifest, Finmap.lookup_insert] at here
  have inside : tree.nestedManifest ∈ tree.content :=
    Finmap.lookup_isSome.mp (by rw [here, Option.isSome_some])
  exact head_ne_freshName inside rfl

/-! ### What the hash pins -/

/-- No tree of a class is hashed alike but has another payload. -/
def Pinned (among : Set FileTree) (tree : FileTree) : Prop :=
  ∀ other ∈ among, other.feed = tree.feed → SamePayload tree other

/-- A restore that passes the hash check has the payload files of the tree whose hash its manifest
states. -/
def RestoresPayload (sha256 : List UInt8 → String) (among : Set FileTree) (tree : FileTree) :
    Prop :=
  ∀ other ∈ among, ∀ fixtureDir fixtureId,
    PassesHashCheck sha256 fixtureDir fixtureId (sha256 tree.feed) other → SamePayload tree other

/-- At most one file, and its content nowhere reads like another file's path and NUL. -/
def Unambiguous (tree : FileTree) : Prop :=
  tree.entries.length ≤ 1 ∧
    ∀ entry ∈ tree.entries, ¬Framing.Splits encodePath 0 LegalPaths entry

theorem pinned_plain_iff {tree : FileTree} (plain : tree.Plain) :
    tree.Pinned {other | other.Plain} ↔ tree.Unambiguous := by
  have legal : LegalPaths (tree.entries.map Prod.fst) :=
    tree.map_fst_entries.symm ▸ tree.legal_hashedPaths
  refine Iff.trans ?_ (legalPaths_keys.determined_iff legal)
  constructor
  · intro pinned others othersLegal same
    have payload : SamePayload tree (ofEntries others othersLegal) := by
      refine pinned _ plain_ofEntries ?_
      rw [feed_eq_stream, feed_eq_stream, entries_ofEntries, same]
    rw [entries_eq_of_samePayload payload, entries_ofEntries]
  · intro determined other otherPlain same
    rw [feed_eq_stream, feed_eq_stream] at same
    refine (plain.samePayload_iff otherPlain).mpr (determined _ ?_ same).symm
    exact other.map_fst_entries.symm ▸ other.legal_hashedPaths

/-- Whatever the hash, a restore that never mistakes a payload tells the hashed bytes apart. -/
theorem RestoresPayload.pinned {sha256 : List UInt8 → String} {among : Set FileTree}
    {tree : FileTree} (restores : tree.RestoresPayload sha256 among) : tree.Pinned among :=
  fun other member same =>
    restores other member "" "" ((passesHashCheck_iff sha256).mpr (congrArg sha256 same))

theorem restoresPayload_iff {sha256 : List UInt8 → String} (collisionFree : Function.Injective sha256)
    {among : Set FileTree} {tree : FileTree} :
    tree.RestoresPayload sha256 among ↔ tree.Pinned among := by
  refine ⟨RestoresPayload.pinned, fun pinned other member fixtureDir fixtureId passes => ?_⟩
  exact pinned other member (collisionFree ((passesHashCheck_iff sha256).mp passes))

/-- A manifest in a directory of its own is never noticed. -/
theorem not_pinned (tree : FileTree) : ¬tree.Pinned Set.univ :=
  fun pinned => tree.not_samePayload_withNestedManifest
    (pinned _ (Set.mem_univ _) tree.feed_withNestedManifest)

/-- The hashed files with the sizes of their contents. -/
def sizes (tree : FileTree) : List (List String × Nat) :=
  tree.entries.map fun entry => (entry.1, entry.2.length)

/-- A change that leaves every path and every size as it was is always noticed. -/
theorem pinned_sizes {tree : FileTree} (plain : tree.Plain) :
    tree.Pinned {other | other.Plain ∧ other.sizes = tree.sizes} := by
  rintro other ⟨otherPlain, sameSizes⟩ same
  rw [feed_eq_stream, feed_eq_stream] at same
  refine (plain.samePayload_iff otherPlain).mpr (Framing.eq_of_sizes ?_ ?_ same).symm
  · simpa [sizes, Function.comp_def] using congrArg (List.map Prod.fst) sameSizes
  · simpa [sizes, Function.comp_def] using congrArg (List.map Prod.snd) sameSizes

end FileTree

/-- The hash pins no tree, since a `manifest.json` in any directory is skipped. Of the trees with
none but the top-level one it pins those with at most one payload file whose content does not split
into a shorter content and a further path with its content, and every tree among those with the
same paths and sizes; a restore that passes the check of a collision-free hash has the payload that
was snapshotted in the same cases. -/
theorem contentHash_pins_iff (tree : FileTree) :
    (¬tree.Pinned Set.univ ∧
      ∀ sha256 : List UInt8 → String, ¬tree.RestoresPayload sha256 Set.univ) ∧
    (tree.Plain → (tree.Pinned {other | other.Plain} ↔ tree.Unambiguous) ∧
      tree.Pinned {other | other.Plain ∧ other.sizes = tree.sizes} ∧
      ∀ sha256 : List UInt8 → String, Function.Injective sha256 →
        (tree.RestoresPayload sha256 {other | other.Plain} ↔ tree.Unambiguous)) := by
  refine ⟨⟨tree.not_pinned, fun sha256 restores => tree.not_pinned ?_⟩, fun plain =>
    ⟨FileTree.pinned_plain_iff plain, FileTree.pinned_sizes plain, fun sha256 collisionFree =>
      (FileTree.restoresPayload_iff collisionFree).trans (FileTree.pinned_plain_iff plain)⟩⟩
  exact restores.pinned

/-! ### A snapshot and another fixture with its hash -/

/-- A dump of one row, and a schema of one byte. -/
def snapshotTree : FileTree :=
  FileTree.ofEntries [(["data", "store.copy"], [0x31, 0x0A]), (["schema.sql"], [0x3B])] (by decide)

/-- One data file that holds the schema's path and content behind its row. -/
def mergedTree : FileTree :=
  FileTree.ofEntries [(["data", "store.copy"],
    [0x31, 0x0A] ++ FileTree.encodePath ["schema.sql"] ++ [0, 0x3B])] (by decide)

/-- Two fixtures without any nested manifest, the bytes hashed the same, the schema gone. -/
theorem not_pinned_snapshot :
    snapshotTree.Plain ∧ mergedTree.Plain ∧ mergedTree.feed = snapshotTree.feed ∧
      ¬FileTree.SamePayload snapshotTree mergedTree := by
  refine ⟨FileTree.plain_ofEntries, FileTree.plain_ofEntries, ?_, fun same => ?_⟩
  · rw [FileTree.feed_eq_stream, FileTree.feed_eq_stream, snapshotTree, mergedTree,
      FileTree.entries_ofEntries, FileTree.entries_ofEntries]
    decide
  · have schema := FileTree.entries_eq_of_samePayload same
    rw [snapshotTree, mergedTree, FileTree.entries_ofEntries, FileTree.entries_ofEntries] at schema
    exact absurd (congrArg List.length schema) (by decide)

end FleetMemory
