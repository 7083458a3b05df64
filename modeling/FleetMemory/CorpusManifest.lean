/-
This file models the corpus manifest: its loading, the checks that keep a file from being
published by two pipelines, and the resolution of a path to the entry that owns it. The
checks compare directories without their trailing slashes, the resolution compares them
as they are written. So a directory written with a trailing slash is never resolved, and
the two agree on a path exactly when a directory that decides it is written without one.
-/

import FleetMemory.Payloads
import FleetMemory.PosixPath
import Mathlib.Data.List.Nodup

namespace FleetMemory

open PosixPath

/-! ### The manifest -/

/-- `KNOWN_OWNERS`, sorted. -/
def knownOwners : List String := ["harvest", "reindex"]

structure ManifestEntry where
  kind : String
  episodeType : String
  directories : List String
  owner : String
  contentFormat : String

structure CorpusManifest where
  schemaVersion : Int
  project : String
  entries : List ManifestEntry

/-- The longest match found so far: its kind and owner, and its length. -/
structure LongestMatch where
  found : Option (String × String)
  length : Nat

/-- Take a directory of an entry when it matches the path and is longer than the match so far. -/
def LongestMatch.consider (pathStr : String) (entry : ManifestEntry) (longest : LongestMatch)
    (directory : String) : LongestMatch :=
  let dirNormalized := forwardSlashes directory
  if Within dirNormalized pathStr then
    if dirNormalized.length > longest.length then
      ⟨some (entry.kind, entry.owner), dirNormalized.length⟩
    else longest
  else longest

namespace CorpusManifest

/-- The directories of the entries an owner has. -/
def directoriesOf (manifest : CorpusManifest) (owner : String) : List String :=
  manifest.entries.flatMap fun entry => if entry.owner = owner then entry.directories else []

def reindexRoots (manifest : CorpusManifest) : List String :=
  manifest.directoriesOf "reindex"

/-- Resolve a path to the kind and owner of its longest matching directory. -/
def resolveKind (manifest : CorpusManifest) (repoRelativePath : String) :
    Option (String × String) :=
  let pathStr := forwardSlashes (spelled repoRelativePath)
  (manifest.entries.foldl (fun (longest : LongestMatch) (entry : ManifestEntry) =>
    entry.directories.foldl (LongestMatch.consider pathStr entry) longest) ⟨none, 0⟩).found

end CorpusManifest

/-! ### Its checks -/

/-- Why a manifest is not loaded: a `ManifestValidationError`, or a `ValueError` of `json.loads`
that is no `JSONDecodeError`. -/
inductive ManifestFailure where
  | manifestValidation (message : String)
  | valueError (text : String)

/-- A directory as the checks compare it. -/
def normalizedDirectory (directory : String) : String :=
  rstripSlashes (forwardSlashes directory)

/-- The directories the checks have seen. -/
structure Coverage where
  harvestDirs : List String
  reindexDirs : List String
  seenDirs : List String

/-- Add a directory of an entry, unless it was seen. -/
def Coverage.add (entry : ManifestEntry) (coverage : Coverage) (directory : String) :
    Except ManifestFailure Coverage :=
  let normalized := normalizedDirectory directory
  if normalized ∈ coverage.seenDirs then
    .error (.manifestValidation
      ("Directory '" ++ normalized ++ "' is covered twice across manifest entries"))
  else if entry.owner = "harvest" then
    .ok { coverage with
      harvestDirs := coverage.harvestDirs ++ [normalized]
      seenDirs := coverage.seenDirs ++ [normalized] }
  else
    .ok { coverage with
      reindexDirs := coverage.reindexDirs ++ [normalized]
      seenDirs := coverage.seenDirs ++ [normalized] }

/-- Add the directories of an entry, whose owner must be known. -/
def Coverage.addEntry (coverage : Coverage) (entry : ManifestEntry) :
    Except ManifestFailure Coverage :=
  if entry.owner ∉ knownOwners then
    .error (.manifestValidation ("Unknown owner '" ++ entry.owner ++ "' on manifest entry '" ++
      entry.kind ++ "': known owners are ['harvest', 'reindex']"))
  else entry.directories.foldlM (Coverage.add entry) coverage

/-- The first reindex root that lies in a harvest directory, with that directory. -/
def Coverage.nested? (coverage : Coverage) : Option (String × String) :=
  (coverage.reindexDirs.flatMap fun reindexDir =>
    coverage.harvestDirs.map fun harvestDir => (reindexDir, harvestDir)).find?
      fun pair => startsWith (pair.2 ++ "/") pair.1

/-- `_validate_manifest`. -/
def validateManifest (manifest : CorpusManifest) : Except ManifestFailure Unit := do
  let coverage ← manifest.entries.foldlM Coverage.addEntry ⟨[], [], []⟩
  match coverage.nested? with
  | some (reindexDir, harvestDir) => .error (.manifestValidation
      ("Reindex root '" ++ reindexDir ++ "' is nested inside harvest directory '" ++ harvestDir ++
        "': the same file would be publishable by both pipelines"))
  | none => .ok ()

/-- The items of a list field, each named by its place. -/
def checkItems {α : Type} (check : String → PyValue → Checked α) (name : String) (place : Nat) :
    List PyValue → Checked (List α)
  | [] => .ok []
  | item :: rest =>
    (Checked.both (check (name ++ "." ++ toString place) item)
      (checkItems check name (place + 1) rest)).map fun parts => parts.1 :: parts.2

/-- A `list` field. -/
def listValue {α : Type} (check : String → PyValue → Checked α) (name : String) :
    PyValue → Checked (List α)
  | .list items => checkItems check name 0 items
  | _ => .error [⟨name, "Input should be a valid list"⟩]

/-- A `ManifestEntry` field. -/
def entryValue (name : String) : PyValue → Checked ManifestEntry
  | .dict data =>
    let named (part : String) : String := name ++ "." ++ part
    (Checked.both (required "kind" (strValue (named "kind")) data)
      (Checked.both (required "episode_type" (strValue (named "episode_type")) data)
        (Checked.both
          (required "directories" (listValue strValue (named "directories")) data)
          (Checked.both (required "owner" (strValue (named "owner")) data)
            (required "content_format" (strValue (named "content_format")) data))))).map
      fun parts => ⟨parts.1, parts.2.1, parts.2.2.1, parts.2.2.2.1, parts.2.2.2.2⟩
  | _ => .error [⟨name, "Input should be a valid dictionary or instance of ManifestEntry"⟩]
where
  required {α : Type} (part : String) (check : PyValue → Checked α) (data : PyDict) : Checked α :=
    match data.get part with
    | some value => check value
    | none => .error [⟨name ++ "." ++ part, "Field required"⟩]

/-- `CorpusManifest(**raw)`. -/
def manifestValue (runtime : Runtime) (raw : PyDict) : Checked CorpusManifest :=
  (Checked.both (field "schema_version" none (intValue runtime "schema_version") raw)
    (Checked.both (field "project" none (strValue "project") raw)
      (field "entries" none (listValue entryValue "entries") raw))).map
    fun parts => ⟨parts.1, parts.2.1, parts.2.2⟩

/-- `load_manifest`, of the text the file at the path holds. -/
def loadManifest (runtime : Runtime) (manifestPath rawText : String) :
    Except ManifestFailure CorpusManifest :=
  let refused (rest : String) : Except ManifestFailure CorpusManifest :=
    .error (.manifestValidation ("Manifest " ++ manifestPath ++ rest))
  match runtime.loads rawText with
  | .error (.decode text) => refused (" is not valid JSON: " ++ text)
  | .error (.value text) => .error (.valueError text)
  | .ok (.dict raw) =>
    if (PyDict.get raw "schema_version").isNone then
      refused " is missing required field: schema_version"
    else
      match manifestValue runtime raw with
      | .error errors =>
        refused (" failed validation: " ++ runtime.validationText "CorpusManifest" errors)
      | .ok manifest => do
        validateManifest manifest
        return manifest
  | .ok _ => refused " must be a JSON object"

/-! ### What a checked manifest satisfies -/

namespace CorpusManifest

/-- The directories of a manifest with their entries, in its order. -/
def claims (manifest : CorpusManifest) : List (ManifestEntry × String) :=
  manifest.entries.flatMap fun entry => entry.directories.map fun directory => (entry, directory)

variable {manifest : CorpusManifest}

theorem mem_directoriesOf {owner directory : String} :
    directory ∈ manifest.directoriesOf owner ↔
      ∃ entry, (entry, directory) ∈ manifest.claims ∧ entry.owner = owner := by
  rw [directoriesOf, List.mem_flatMap]
  constructor
  · rintro ⟨entry, member, inside⟩
    split at inside
    · rename_i owned
      exact ⟨entry, List.mem_flatMap.mpr ⟨entry, member, List.mem_map.mpr ⟨_, inside, rfl⟩⟩, owned⟩
    · cases inside
  · rintro ⟨entry, member, owned⟩
    obtain ⟨other, inside, mapped⟩ := List.mem_flatMap.mp member
    obtain ⟨_, listed, same⟩ := List.mem_map.mp mapped
    obtain ⟨rfl, rfl⟩ := Prod.mk.inj same
    exact ⟨other, inside, by rwa [if_pos owned]⟩

end CorpusManifest

/-- What the checks have gathered of the directories they went through. -/
structure Coverage.Of (claims : List (ManifestEntry × String)) (coverage : Coverage) : Prop where
  seen : coverage.seenDirs = claims.map fun claim => normalizedDirectory claim.2
  distinct : coverage.seenDirs.Nodup
  known : ∀ claim ∈ claims, claim.1.owner ∈ knownOwners
  harvest : ∀ claim ∈ claims, claim.1.owner = "harvest" →
    normalizedDirectory claim.2 ∈ coverage.harvestDirs
  reindex : ∀ claim ∈ claims, claim.1.owner = "reindex" →
    normalizedDirectory claim.2 ∈ coverage.reindexDirs

theorem Coverage.add_eq_ok {coverage next : Coverage} {entry : ManifestEntry} {directory : String}
    (added : coverage.add entry directory = .ok next) :
    normalizedDirectory directory ∉ coverage.seenDirs ∧
      next.seenDirs = coverage.seenDirs ++ [normalizedDirectory directory] ∧
      next.harvestDirs = coverage.harvestDirs ++
        (if entry.owner = "harvest" then [normalizedDirectory directory] else []) ∧
      next.reindexDirs = coverage.reindexDirs ++
        (if entry.owner = "harvest" then [] else [normalizedDirectory directory]) := by
  unfold Coverage.add at added
  dsimp only at added
  split at added
  · cases added
  · rename_i fresh
    split at added
    · rename_i owned
      obtain rfl := Except.ok.inj added
      rw [if_pos owned, if_pos owned, List.append_nil]
      exact ⟨fresh, rfl, rfl, rfl⟩
    · rename_i owned
      obtain rfl := Except.ok.inj added
      rw [if_neg owned, if_neg owned, List.append_nil]
      exact ⟨fresh, rfl, rfl, rfl⟩

section

variable {claims : List (ManifestEntry × String)} {coverage next : Coverage}
  {entry : ManifestEntry}

theorem Coverage.Of.add {directory : String} (gathered : coverage.Of claims)
    (known : entry.owner ∈ knownOwners) (added : coverage.add entry directory = .ok next) :
    next.Of (claims ++ [(entry, directory)]) := by
  obtain ⟨fresh, seen, harvest, reindex⟩ := Coverage.add_eq_ok added
  refine ⟨?_, ?_, ?_, ?_, ?_⟩
  · rw [seen, gathered.seen, List.map_append]
    rfl
  · rw [seen]
    exact List.nodup_append.mpr ⟨gathered.distinct, by simp, fun one member other
      single same => fresh (by rw [← List.mem_singleton.mp single, ← same]; exact member)⟩
  · intro claim member
    rcases List.mem_append.mp member with before | here
    · exact gathered.known claim before
    · rw [List.mem_singleton.mp here]
      exact known
  · intro claim member owned
    rw [harvest, List.mem_append]
    rcases List.mem_append.mp member with before | here
    · exact Or.inl (gathered.harvest claim before owned)
    · rw [List.mem_singleton.mp here] at owned ⊢
      rw [if_pos owned]
      exact Or.inr (List.mem_singleton_self _)
  · intro claim member owned
    rw [reindex, List.mem_append]
    rcases List.mem_append.mp member with before | here
    · exact Or.inl (gathered.reindex claim before owned)
    · rw [List.mem_singleton.mp here] at owned ⊢
      rw [if_neg (by rw [owned]; decide)]
      exact Or.inr (List.mem_singleton_self _)

theorem Coverage.Of.addAll {directories : List String} (gathered : coverage.Of claims)
    (known : entry.owner ∈ knownOwners)
    (added : directories.foldlM (Coverage.add entry) coverage = .ok next) :
    next.Of (claims ++ directories.map fun directory => (entry, directory)) := by
  induction directories generalizing claims coverage with
  | nil =>
    obtain rfl := Except.ok.inj added
    rwa [List.map_nil, List.append_nil]
  | cons directory rest inductionHypothesis =>
    obtain ⟨between, first, later⟩ := except_bind_eq_ok.mp added
    rw [List.map_cons, List.append_cons]
    exact inductionHypothesis (gathered.add known first) later

theorem Coverage.Of.addEntries {entries : List ManifestEntry} (gathered : coverage.Of claims)
    (added : entries.foldlM Coverage.addEntry coverage = .ok next) :
    next.Of (claims ++ entries.flatMap fun entry =>
      entry.directories.map fun directory => (entry, directory)) := by
  induction entries generalizing claims coverage with
  | nil =>
    obtain rfl := Except.ok.inj added
    rwa [List.flatMap_nil, List.append_nil]
  | cons entry rest inductionHypothesis =>
    obtain ⟨between, first, later⟩ := except_bind_eq_ok.mp added
    unfold Coverage.addEntry at first
    split at first
    · cases first
    · rename_i known
      rw [List.flatMap_cons, ← List.append_assoc]
      exact inductionHypothesis (gathered.addAll (not_not.mp known) first) later

end

namespace CorpusManifest

/-- What the checks promise: known owners, no directory twice, and no reindex root in a harvest
directory. -/
structure WellCovered (manifest : CorpusManifest) : Prop where
  known : ∀ claim ∈ manifest.claims, claim.1.owner ∈ knownOwners
  distinct : (manifest.claims.map fun claim => normalizedDirectory claim.2).Nodup
  apart : ∀ root ∈ manifest.reindexRoots, ∀ harvested ∈ manifest.directoriesOf "harvest",
    startsWith (normalizedDirectory harvested ++ "/") (normalizedDirectory root) = false

variable {manifest : CorpusManifest}

theorem wellCovered_of_validateManifest (checked : validateManifest manifest = .ok ()) :
    manifest.WellCovered := by
  obtain ⟨coverage, gathers, checked⟩ := except_bind_eq_ok.mp checked
  have nothing : Coverage.Of [] ⟨[], [], []⟩ :=
    ⟨rfl, List.nodup_nil, by simp, by simp, by simp⟩
  have gathered : coverage.Of manifest.claims := by
    simpa [claims] using nothing.addEntries gathers
  refine ⟨gathered.known, by rw [← gathered.seen]; exact gathered.distinct, ?_⟩
  intro root rooted harvested owned
  obtain ⟨entry, claimed, reindexed⟩ := mem_directoriesOf.mp rooted
  obtain ⟨other, listed, harvests⟩ := mem_directoriesOf.mp owned
  have reindexDir := gathered.reindex _ claimed reindexed
  have harvestDir := gathered.harvest _ listed harvests
  have none_nested : coverage.nested? = none := by
    cases nested : coverage.nested? with
    | none => rfl
    | some pair =>
      rw [nested] at checked
      cases checked
  have outside := List.find?_eq_none.mp none_nested (normalizedDirectory root,
    normalizedDirectory harvested) (List.mem_flatMap.mpr ⟨_, reindexDir, List.mem_map.mpr
      ⟨_, harvestDir, rfl⟩⟩)
  simpa using outside

theorem wellCovered_of_loadManifest {runtime : Runtime} {manifestPath rawText : String}
    (loaded : loadManifest runtime manifestPath rawText = .ok manifest) :
    manifest.WellCovered := by
  unfold loadManifest at loaded
  dsimp only at loaded
  split at loaded
  · cases loaded
  · cases loaded
  · split at loaded
    · cases loaded
    · split at loaded
      · cases loaded
      · obtain ⟨_, checked, same⟩ := except_bind_eq_ok.mp loaded
        obtain rfl := Except.ok.inj same
        exact wellCovered_of_validateManifest checked
  · cases loaded

/-! ### The longest match -/

/-- A claim matches a path as it is written. -/
def Matched (claim : ManifestEntry × String) (path : String) : Prop :=
  Within (forwardSlashes claim.2) path

end CorpusManifest

/-- The match found among the claims gone through: a longest one of those that match. -/
structure LongestMatch.Of (path : String) (claims : List (ManifestEntry × String))
    (longest : LongestMatch) : Prop where
  bound : ∀ claim ∈ claims, CorpusManifest.Matched claim path →
    (forwardSlashes claim.2).length ≤ longest.length
  nothing : longest.found = none → longest.length = 0
  found : ∀ kind owner, longest.found = some (kind, owner) →
    ∃ claim ∈ claims, CorpusManifest.Matched claim path ∧ claim.1.kind = kind ∧
      claim.1.owner = owner ∧ (forwardSlashes claim.2).length = longest.length

section

variable {path : String} {claims : List (ManifestEntry × String)} {longest : LongestMatch}
  {entry : ManifestEntry}

theorem LongestMatch.Of.keep {directory : String} (chosen : longest.Of path claims)
    (shorter : CorpusManifest.Matched (entry, directory) path →
      (forwardSlashes directory).length ≤ longest.length) :
    longest.Of path (claims ++ [(entry, directory)]) := by
  refine ⟨?_, chosen.nothing, ?_⟩
  · intro claim member matched
    rcases List.mem_append.mp member with before | here
    · exact chosen.bound claim before matched
    · obtain rfl := List.mem_singleton.mp here
      exact shorter matched
  · intro kind owner same
    obtain ⟨claim, member, rest⟩ := chosen.found kind owner same
    exact ⟨claim, List.mem_append_left _ member, rest⟩

theorem LongestMatch.Of.consider {directory : String} (chosen : longest.Of path claims) :
    (longest.consider path entry directory).Of path (claims ++ [(entry, directory)]) := by
  unfold LongestMatch.consider
  dsimp only
  split
  · rename_i matched
    split
    · rename_i longer
      refine ⟨?_, fun nothing => (by cases nothing), ?_⟩
      · intro claim member within
        rcases List.mem_append.mp member with before | here
        · exact (chosen.bound claim before within).trans longer.le
        · rw [List.mem_singleton.mp here]
      · rintro kind owner same
        obtain ⟨rfl, rfl⟩ := Prod.mk.inj (Option.some.inj same)
        exact ⟨(entry, directory), by simp, matched, rfl, rfl, rfl⟩
    · rename_i shorter
      exact chosen.keep fun _ => not_lt.mp shorter
  · rename_i unmatched
    exact chosen.keep fun matched => absurd matched unmatched

theorem LongestMatch.Of.considerAll {directories : List String} (chosen : longest.Of path claims) :
    (directories.foldl (LongestMatch.consider path entry) longest).Of path
      (claims ++ directories.map fun directory => (entry, directory)) := by
  induction directories generalizing claims longest with
  | nil => rwa [List.map_nil, List.append_nil]
  | cons directory rest inductionHypothesis =>
    rw [List.map_cons, List.append_cons]
    exact inductionHypothesis chosen.consider

theorem LongestMatch.Of.considerEntries {entries : List ManifestEntry}
    (chosen : longest.Of path claims) :
    (entries.foldl (fun (longest : LongestMatch) (entry : ManifestEntry) =>
      entry.directories.foldl (LongestMatch.consider path entry) longest) longest).Of path
        (claims ++ entries.flatMap fun entry =>
          entry.directories.map fun directory => (entry, directory)) := by
  induction entries generalizing claims longest with
  | nil => rwa [List.flatMap_nil, List.append_nil]
  | cons entry rest inductionHypothesis =>
    rw [List.flatMap_cons, ← List.append_assoc]
    exact inductionHypothesis chosen.considerAll

end

namespace CorpusManifest

variable {manifest : CorpusManifest} {file : String}

/-- The path `resolve_kind` compares. -/
def comparedPath (file : String) : String :=
  forwardSlashes (spelled file)

/-- A directory contains a file, for the checks of the manifest. -/
def Contains (directory file : String) : Prop :=
  Within (normalizedDirectory directory) (comparedPath file)

instance (directory file : String) : Decidable (Contains directory file) :=
  inferInstanceAs (Decidable (Within _ _))

/-- A directory is written without a slash at its end. -/
def Bare (directory : String) : Prop :=
  normalizedDirectory directory = forwardSlashes directory

instance (directory : String) : Decidable (Bare directory) :=
  inferInstanceAs (Decidable (_ = _))

theorem segmented_comparedPath (relative : file.toList.head? ≠ some '/')
    (forward : '\\' ∉ file.toList) : Segmented (comparedPath file) := by
  have unchanged : forwardSlashes (spelled file) = spelled file := by
    refine forwardSlashes_of_not_mem fun member => ?_
    rcases mem_spelled relative member with inside | slash | dot
    · exact forward inside
    · cases slash
    · cases dot
  rw [comparedPath, unchanged]
  exact segmented_spelled relative

/-- A claim matches a path exactly when its directory contains the file and is written bare. -/
theorem matched_iff {claim : ManifestEntry × String} (segmented : Segmented (comparedPath file)) :
    Matched claim (comparedPath file) ↔ Contains claim.2 file ∧ Bare claim.2 :=
  segmented.within_iff

theorem resolveKind_of (manifest : CorpusManifest) (file : String) :
    ∃ longest : LongestMatch, longest.Of (comparedPath file) manifest.claims ∧
      manifest.resolveKind file = longest.found := by
  have nothing : LongestMatch.Of (comparedPath file) [] ⟨none, 0⟩ :=
    ⟨by simp, fun _ => rfl, by simp⟩
  exact ⟨_, @LongestMatch.Of.considerEntries _ _ _ manifest.entries nothing, rfl⟩

/-- A path resolves to nothing exactly when no claim matches it. -/
theorem resolveKind_eq_none (segmented : Segmented (comparedPath file)) :
    manifest.resolveKind file = none ↔
      ∀ claim ∈ manifest.claims, ¬Matched claim (comparedPath file) := by
  obtain ⟨longest, chosen, resolved⟩ := manifest.resolveKind_of file
  rw [resolved]
  constructor
  · intro nothing claim member matched
    have short := chosen.bound claim member matched
    rw [chosen.nothing nothing, Nat.le_zero, String.length_eq_zero_iff] at short
    refine not_segmented_empty ?_
    rw [← short]
    exact segmented.of_within matched
  · intro unmatched
    cases found : longest.found with
    | none => rfl
    | some pair =>
      obtain ⟨claim, member, matched, _⟩ := chosen.found pair.1 pair.2 found
      exact absurd matched (unmatched claim member)

/-- A path resolves to a claim no matching one is longer than. -/
theorem resolveKind_eq_some {kind owner : String}
    (resolved : manifest.resolveKind file = some (kind, owner)) :
    ∃ claim ∈ manifest.claims, Matched claim (comparedPath file) ∧ claim.1.owner = owner ∧
      ∀ other ∈ manifest.claims, Matched other (comparedPath file) →
        (forwardSlashes other.2).length ≤ (forwardSlashes claim.2).length := by
  obtain ⟨longest, chosen, same⟩ := manifest.resolveKind_of file
  rw [same] at resolved
  obtain ⟨claim, member, matched, _, owned, length⟩ := chosen.found kind owner resolved
  refine ⟨claim, member, matched, owned, fun other listed within => ?_⟩
  rw [length]
  exact chosen.bound other listed within

/-- A harvest directory that contains a file is longer than every reindex root that does. -/
theorem WellCovered.length_lt (covered : manifest.WellCovered) {root harvested : String}
    (rooted : root ∈ manifest.reindexRoots) (owned : harvested ∈ manifest.directoriesOf "harvest")
    (underRoot : Contains root file) (underHarvested : Contains harvested file) :
    (normalizedDirectory root).length < (normalizedDirectory harvested).length := by
  by_contra shorter
  rcases within_of_length_le underHarvested underRoot (not_lt.mp shorter) with same | nested
  · obtain ⟨entry, claimed, reindexed⟩ := mem_directoriesOf.mp rooted
    obtain ⟨other, listed, harvests⟩ := mem_directoriesOf.mp owned
    have equal := List.inj_on_of_nodup_map covered.distinct claimed listed same
    rw [Prod.mk.injEq] at equal
    rw [equal.1, harvests] at reindexed
    exact absurd reindexed (by decide)
  · rw [covered.apart root rooted harvested owned] at nested
    cases nested

/-- A file under a reindex root is resolved, and a file resolved to the reindex lies under no
harvest directory, exactly when a directory that decides the file is written without a slash at
its end: a harvest directory that contains it where there is one, otherwise a reindex root. -/
theorem exclusive_and_total_iff (runtime : Runtime) (manifestPath rawText file : String)
    (manifest : CorpusManifest)
    (loaded : loadManifest runtime manifestPath rawText = .ok manifest)
    (relative : file.toList.head? ≠ some '/') (forward : '\\' ∉ file.toList) :
    (((∃ root ∈ manifest.reindexRoots, Contains root file) → manifest.resolveKind file ≠ none) ∧
      ∀ kind, manifest.resolveKind file = some (kind, "reindex") →
        ∀ harvested ∈ manifest.directoriesOf "harvest", ¬Contains harvested file) ↔
      ((∃ root ∈ manifest.reindexRoots, Contains root file) →
        if ∃ harvested ∈ manifest.directoriesOf "harvest", Contains harvested file then
          ∃ harvested ∈ manifest.directoriesOf "harvest", Contains harvested file ∧ Bare harvested
        else ∃ root ∈ manifest.reindexRoots, Contains root file ∧ Bare root) := by
  have covered := wellCovered_of_loadManifest loaded
  have segmented := segmented_comparedPath relative forward
  constructor
  · rintro ⟨resolves, exclusive⟩ under
    obtain ⟨⟨kind, owner⟩, resolved⟩ := Option.ne_none_iff_exists'.mp (resolves under)
    obtain ⟨claim, member, matched, owned, _⟩ := resolveKind_eq_some resolved
    have written := (matched_iff segmented).mp matched
    have known := covered.known claim member
    rw [owned, knownOwners, List.mem_cons, List.mem_singleton] at known
    split
    · rename_i harvests
      rcases known with harvest | reindex
      · exact ⟨claim.2, mem_directoriesOf.mpr ⟨claim.1, member, owned.trans harvest⟩, written⟩
      · rw [reindex] at resolved
        obtain ⟨harvested, listed, contains⟩ := harvests
        exact absurd contains (exclusive kind resolved harvested listed)
    · rename_i harvests
      rcases known with harvest | reindex
      · exact absurd ⟨claim.2, mem_directoriesOf.mpr ⟨claim.1, member, owned.trans harvest⟩,
          written.1⟩ harvests
      · exact ⟨claim.2, mem_directoriesOf.mpr ⟨claim.1, member, owned.trans reindex⟩, written⟩
  · intro decided
    have matches_of {owner directory : String} (listed : directory ∈ manifest.directoriesOf owner)
        (written : Contains directory file ∧ Bare directory) :
        ∃ claim ∈ manifest.claims, claim.2 = directory ∧ Matched claim (comparedPath file) := by
      obtain ⟨entry, claimed, _⟩ := mem_directoriesOf.mp listed
      exact ⟨(entry, directory), claimed, rfl, (matched_iff segmented).mpr written⟩
    refine ⟨fun under unresolved => ?_, fun kind resolved harvested owned contains => ?_⟩
    · have unmatched := (resolveKind_eq_none segmented).mp unresolved
      have decides := decided under
      split at decides
      · obtain ⟨directory, listed, written⟩ := decides
        obtain ⟨claim, member, _, matched⟩ := matches_of listed written
        exact unmatched claim member matched
      · obtain ⟨directory, listed, written⟩ := decides
        obtain ⟨claim, member, _, matched⟩ := matches_of listed written
        exact unmatched claim member matched
    · obtain ⟨claim, member, matched, reindexed, bound⟩ := resolveKind_eq_some resolved
      obtain ⟨underRoot, bareRoot⟩ := (matched_iff segmented).mp matched
      have rooted : claim.2 ∈ manifest.reindexRoots :=
        mem_directoriesOf.mpr ⟨claim.1, member, reindexed⟩
      have decides := decided ⟨claim.2, rooted, underRoot⟩
      rw [if_pos ⟨harvested, owned, contains⟩] at decides
      obtain ⟨directory, listed, written⟩ := decides
      obtain ⟨other, inside, rfl, within⟩ := matches_of listed written
      -- The bare harvest directory matches as well, and is the longer match.
      have longer := covered.length_lt rooted listed underRoot written.1
      rw [bareRoot, written.2] at longer
      exact absurd (bound other inside within) (not_le.mpr longer)

section Sample

/-- A manifest whose directories are written with slashes at their ends, but for one. -/
def slashManifest : CorpusManifest where
  schemaVersion := 1
  project := "g"
  entries := [⟨"build_outcome", "build_outcome", ["tasks/completed/", "docs"], "reindex", "m"⟩,
    ⟨"adr", "adr", ["docs\\adr\\"], "harvest", "m"⟩]

/-- The JSON text of the manifest. -/
def slashText : String :=
  "\x7b\"schema_version\":1,\"project\":\"g\",\"entries\":[" ++
    "\x7b\"kind\":\"build_outcome\",\"episode_type\":\"build_outcome\"," ++
    "\"directories\":[\"tasks/completed/\",\"docs\"]," ++
    "\"owner\":\"reindex\",\"content_format\":\"m\"\x7d," ++
    "\x7b\"kind\":\"adr\",\"episode_type\":\"adr\",\"directories\":[\"docs\\\\adr\\\\\"]," ++
    "\"owner\":\"harvest\",\"content_format\":\"m\"\x7d]\x7d"

/-- The functions on that text. -/
def slashRuntime : Runtime :=
  .ofTables [] [] [(slashText, .dict parsed)]
where
  parsed : PyDict :=
    [("schema_version", .int 1), ("project", .str "g"), ("entries", .list [
      .dict [("kind", .str "build_outcome"), ("episode_type", .str "build_outcome"),
        ("directories", .list [.str "tasks/completed/", .str "docs"]), ("owner", .str "reindex"),
        ("content_format", .str "m")],
      .dict [("kind", .str "adr"), ("episode_type", .str "adr"),
        ("directories", .list [.str "docs\\adr\\"]), ("owner", .str "harvest"),
        ("content_format", .str "m")]])]

theorem loadManifest_slashText :
    loadManifest slashRuntime "m.json" slashText = .ok slashManifest := by
  have loads : slashRuntime.loads slashText = .ok (.dict slashRuntime.parsed) := by
    simp only [slashRuntime, Runtime.ofTables, List.lookup_cons_self]
  rw [loadManifest, loads]
  rfl

/-- A loaded manifest drops a file of a reindex root, and resolves a file of a harvest directory to
the reindex. -/
theorem slashText_drops_and_doubles :
    (∃ manifest, loadManifest slashRuntime "m.json" slashText = .ok manifest ∧
      (∃ root ∈ manifest.reindexRoots, Contains root "tasks/completed/T.md") ∧
      manifest.resolveKind "tasks/completed/T.md" = none) ∧
      ∃ manifest, loadManifest slashRuntime "m.json" slashText = .ok manifest ∧
        manifest.resolveKind "docs/adr/A.md" = some ("build_outcome", "reindex") ∧
        ∃ harvested ∈ manifest.directoriesOf "harvest", Contains harvested "docs/adr/A.md" := by
  refine ⟨⟨slashManifest, loadManifest_slashText, ?_, ?_⟩,
    ⟨slashManifest, loadManifest_slashText, ?_, ?_⟩⟩
  · decide +kernel
  · decide +kernel
  · decide +kernel
  · decide +kernel

/-- The plain directory of the manifest decides a file of its own, so the two agree on it. -/
theorem exclusive_and_total_iff_plain :
    (((∃ root ∈ slashManifest.reindexRoots, Contains root "docs/T.md") →
        slashManifest.resolveKind "docs/T.md" ≠ none) ∧
      ∀ kind, slashManifest.resolveKind "docs/T.md" = some (kind, "reindex") →
        ∀ harvested ∈ slashManifest.directoriesOf "harvest", ¬Contains harvested "docs/T.md") ↔
      ((∃ root ∈ slashManifest.reindexRoots, Contains root "docs/T.md") →
        if ∃ harvested ∈ slashManifest.directoriesOf "harvest", Contains harvested "docs/T.md" then
          ∃ harvested ∈ slashManifest.directoriesOf "harvest",
            Contains harvested "docs/T.md" ∧ Bare harvested
        else ∃ root ∈ slashManifest.reindexRoots, Contains root "docs/T.md" ∧ Bare root) :=
  exclusive_and_total_iff slashRuntime "m.json" slashText "docs/T.md" slashManifest
    loadManifest_slashText (by decide) (by decide)

end Sample

end CorpusManifest

end FleetMemory
