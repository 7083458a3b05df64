/-
This file models the patterns that select the rows of one project by their dotted prefixes, and
the discard of a rollout's scratch project. Whatever a name holds, its pattern matches the prefixes
at or below the name and no others, so a discard removes the rows and the vectors of its project,
counts the rows, and leaves every other project as it was.
-/

import FleetMemory.Like
import FleetMemory.TemporalCut

namespace FleetMemory

/-! ### Patterns -/

/-- `NAMESPACE_ROOT`. -/
def namespaceRoot : String := "fleet_memory"

/-- The exact prefix, and the escaped `LIKE` operand of the prefixes below it. -/
def prefixPatterns (exact : String) : String × String :=
  let escaped := pyReplace (pyReplace (pyReplace exact "\\" "\\\\") "_" "\\_") "%" "\\%"
  (exact, escaped ++ ".%")

/-- `project_patterns`. -/
def projectPatterns (project : String) : String × String :=
  prefixPatterns (namespaceRoot ++ "." ++ project)

/-- `_MATCH_CLAUSE` of a prefix, which is never NULL. -/
def matchClause (patterns : String × String) (storePrefix : String) : Sql.Truth :=
  Sql.Truth.or (some (storePrefix == patterns.1)) (some (Like.like storePrefix patterns.2))

/-- `SCRATCH_PREFIX`. -/
def scratchPrefix : String := "scratch_"

/-- `ScratchNamespaceError`, or another `FixtureError`. -/
inductive ScratchError where
  | scratchNamespace (detail : String)
  | fixture (error : FixtureError)
deriving DecidableEq, Repr

/-- `str(error)`. -/
def ScratchError.text : ScratchError → String
  | scratchNamespace detail => "Invalid scratch namespace: " ++ detail
  | fixture error => error.text

section

variable (runtime : Runtime)

/-- `scratch_project`. -/
def scratchProject : PyValue → Except ScratchError String
  | .str rolloutId =>
    if rolloutId.isEmpty then .error (.scratchNamespace "rollout_id is empty")
    else
      let project := scratchPrefix ++ rolloutId
      if Text.fullMatch Text.lowerWord project then .ok project
      else .error (.scratchNamespace ("rollout_id " ++ runtime.repr rolloutId ++
        " does not produce a valid project segment (^[a-z0-9_]+$); refusing to sanitise it silently"))
  | other => .error (.scratchNamespace ("rollout_id must be a string, got " ++ other.typeName))

/-- `discard_patterns`. -/
def discardPatterns (rolloutId : PyValue) : Except ScratchError (String × String) := do
  let project ← scratchProject runtime rolloutId
  return prefixPatterns (namespaceRoot ++ "." ++ project)

end

/-! ### The discard -/

section

variable {StoreColumns VectorColumns : Type}

/-- The statements of the discard. -/
inductive DiscardStatement where
  | deleteVectors
  | deleteStore

/-- What a statement does to the tables, with the number of rows it deletes. -/
def DiscardStatement.effect (cascades : Bool) (patterns : String × String)
    (tables : StoreTables StoreColumns VectorColumns) :
    DiscardStatement → Except String (Nat × StoreTables StoreColumns VectorColumns)
  | deleteVectors => do
    let rowcount ← Sql.count (fun row => .ok (matchClause patterns row.storePrefix)) tables.vectors
    let vectors ← Sql.delete (fun row => .ok (matchClause patterns row.storePrefix)) tables.vectors
    return (rowcount, { tables with vectors })
  | deleteStore => do
    let rowcount ← Sql.count (fun row => .ok (matchClause patterns row.storePrefix)) tables.store
    let store ← Sql.delete (fun row => .ok (matchClause patterns row.storePrefix)) tables.store
    let vectors ←
      if cascades then
        Sql.deleteUsing joins (fun row => .ok (matchClause patterns row.storePrefix))
          tables.vectors tables.store
      else pure tables.vectors
    return (rowcount, { store, vectors })

/-- `cur.execute`, and `cur.rowcount` after it. -/
def executeDiscard (cascades : Bool) (patterns : String × String) (statement : DiscardStatement) :
    CutDriver StoreColumns VectorColumns Nat :=
  Sql.call fun tables => statement.effect cascades patterns tables

/-- The deletes, up to their commit. -/
def deleteScratch (cascades : Bool) (patterns : String × String) :
    CutDriver StoreColumns VectorColumns Nat := do
  openCursor
  let _ ← executeDiscard cascades patterns .deleteVectors
  executeDiscard cascades patterns .deleteStore

/-- The calls on the connection. -/
def discardCalls (cascades : Bool) (patterns : String × String) :
    CutDriver StoreColumns VectorColumns Nat := do
  let deleted ← deleteScratch cascades patterns
  Sql.commit
  return deleted

/-- `discard_scratch`, with the tables others see after it. -/
def discardScratch (cascades : Bool) (runtime : Runtime) (target : CutTarget) (rolloutId : PyValue)
    (tables : StoreTables StoreColumns VectorColumns) :
    Except ScratchError Nat × StoreTables StoreColumns VectorColumns :=
  match discardPatterns runtime rolloutId with
  | .error error => (.error error, tables)
  | .ok patterns =>
    let label := sanitizeTarget target.parseConninfo target.dsn
    match target.connect with
    | .error text => (.error (.fixture (.failed ("Cannot connect to " ++ label ++ ": " ++
        scrubSecrets target.parseConninfo text target.dsn))), tables)
    | .ok _ =>
      match Sql.runIn (discardCalls cascades patterns) ⟨tables, tables, target.faults⟩ with
      | (.ok deleted, session) => (.ok deleted, session.committed)
      | (.error text, session) => (.error (.fixture (.failed ("Scratch discard on " ++ label ++
          " failed: " ++ scrubSecrets target.parseConninfo text target.dsn))), session.committed)

end

/-! ### What a pattern selects -/

/-- The prefix is the name, or begins with the name and a dot. -/
def AtOrBelow (name storePrefix : String) : Prop :=
  storePrefix = name ∨ ∃ rest, storePrefix = name ++ "." ++ rest

/-- The prefix is that of a namespace of the project. -/
def inProject (project storePrefix : String) : Bool :=
  decide ((Text.split '.' storePrefix).take 2 = [namespaceRoot, project])

/-- Replacing one character rewrites each character of a text by itself. -/
theorem toList_pyReplace_one {old : String} {character : Char} (one : old.toList = [character])
    (text new : String) : (pyReplace text old new).toList =
      text.toList.flatMap fun other => if other = character then new.toList else [other] := by
  have filled : old.isEmpty = false := by
    by_contra empty
    rw [Bool.not_eq_false, String.isEmpty_iff] at empty
    rw [empty] at one
    cases one
  rw [pyReplace, filled, if_neg Bool.false_ne_true, String.toList_ofList, one]
  induction text.toList with
  | nil => rfl
  | cons first rest inductionHypothesis =>
    rw [replaceFrom, List.flatMap_cons, ← inductionHypothesis]
    by_cases same : first = character
    · simp [same]
    · simp [same, Ne.symm same]

/-- The three replacements escape a text. -/
theorem toList_prefixPatterns (exact : String) :
    (prefixPatterns exact).2.toList = Like.escaped (exact.toList ++ ['.']) ++ ['%'] := by
  rw [prefixPatterns, String.toList_append, @toList_pyReplace_one "%" '%' rfl,
    @toList_pyReplace_one "_" '_' rfl, @toList_pyReplace_one "\\" '\\' rfl, Like.escaped,
    List.flatMap_append, List.flatMap_assoc, List.flatMap_assoc, List.append_assoc]
  congr 1
  refine List.flatMap_congr fun character _ => ?_
  by_cases backslash : character = '\\'
  · subst backslash
    rfl
  · by_cases underscore : character = '_'
    · subst underscore
      rfl
    · by_cases percent : character = '%'
      · subst percent
        rfl
      · simp [Like.special, backslash, underscore, percent]

theorem prefix_dot_iff {name storePrefix : String} :
    name.toList ++ ['.'] <+: storePrefix.toList ↔ ∃ rest, storePrefix = name ++ "." ++ rest := by
  constructor
  · rintro ⟨rest, same⟩
    exact ⟨String.ofList rest, String.toList_inj.mp (by simpa using same.symm)⟩
  · rintro ⟨rest, rfl⟩
    exact ⟨rest.toList, by simp⟩

/-- The clause of a name's patterns selects the prefixes at or below the name. -/
theorem selects_matchClause (name storePrefix : String) :
    (matchClause (prefixPatterns name) storePrefix).selects = true ↔ AtOrBelow name storePrefix := by
  rw [matchClause, Sql.Truth.selects_or, AtOrBelow, ← prefix_dot_iff, ← Like.accepts_escaped_many,
    ← toList_prefixPatterns, ← Like.like, Bool.or_eq_true]
  have value : ∀ truth : Bool, Sql.Truth.selects (some truth) = truth := by decide
  rw [value, value, beq_iff_eq]
  rfl

/-- What stands at or below a project's name has the project second. -/
theorem inProject_iff {project storePrefix : String} (free : '.' ∉ project.toList) :
    inProject project storePrefix = true ↔
      AtOrBelow (namespaceRoot ++ "." ++ project) storePrefix := by
  have two : Text.join '.' [namespaceRoot, project] = namespaceRoot ++ "." ++ project := by
    apply String.toList_inj.mp
    simp [Text.toList_join_cons_cons, Text.join_singleton]
  have freeRoot : '.' ∉ namespaceRoot.toList := by decide
  rw [inProject, decide_eq_true_iff, AtOrBelow]
  constructor
  · intro begins
    obtain ⟨rest, parts⟩ : ∃ rest, Text.split '.' storePrefix = [namespaceRoot, project] ++ rest :=
      ⟨(Text.split '.' storePrefix).drop 2, by rw [← begins, List.take_append_drop]⟩
    have whole := Text.join_split '.' storePrefix
    rw [parts] at whole
    by_cases last : rest = []
    · rw [last, List.append_nil, two] at whole
      exact Or.inl whole.symm
    · refine Or.inr ⟨Text.join '.' rest, String.toList_inj.mp ?_⟩
      rw [← whole, Text.toList_join_append '.' (by simp) last, two]
      simp
  · have parts (part : String) (noDot : '.' ∉ part.toList) : Text.split '.' part = [part] := by
      have alone := Text.split_join '.' [part] (by simp) (by simpa using noDot)
      rwa [Text.join_singleton] at alone
    rintro (rfl | ⟨rest, rfl⟩)
    · rw [← two, Text.split_join_flatMap '.' (by simp)]
      simp [parts _ freeRoot, parts _ free]
    · have three : Text.join '.' [namespaceRoot, project, rest] =
          namespaceRoot ++ "." ++ project ++ "." ++ rest := Text.join_three _ _ _ _
      rw [← three, Text.split_join_flatMap '.' (by simp)]
      simp [parts _ freeRoot, parts _ free]

/-! ### What the discard leaves -/

section

variable {StoreColumns VectorColumns : Type}

/-- The tables without the rows and the vectors of a project. -/
def withoutProject (project : String) (tables : StoreTables StoreColumns VectorColumns) :
    StoreTables StoreColumns VectorColumns where
  store := tables.store.filter fun row => !inProject project row.storePrefix
  vectors := tables.vectors.filter fun row => !inProject project row.storePrefix

/-- How many rows of the store are a project's. -/
def projectRows (project : String) (tables : StoreTables StoreColumns VectorColumns) : Nat :=
  tables.store.countP fun row => inProject project row.storePrefix

/-- The discard of a project is exact: it leaves the tables without the project and returns how many
rows of the store it had, or it fails and leaves them as they were. Where no call fails it
returns, and after it another one deletes nothing. -/
structure DiscardsExactly (cascades : Bool) (runtime : Runtime) (rolloutId : PyValue)
    (project : String) (tables : StoreTables StoreColumns VectorColumns) : Prop where
  returned : ∀ target deleted after,
    discardScratch cascades runtime target rolloutId tables = (.ok deleted, after) →
      deleted = projectRows project tables ∧ after = withoutProject project tables
  raised : ∀ target error after,
    discardScratch cascades runtime target rolloutId tables = (.error error, after) →
      after = tables
  returns : ∀ target : CutTarget, target.connect = .ok () → target.faults = [] →
    discardScratch cascades runtime target rolloutId tables =
      (.ok (projectRows project tables), withoutProject project tables)
  again : ∀ target deleted after,
    discardScratch cascades runtime target rolloutId (withoutProject project tables) =
      (.ok deleted, after) → deleted = 0 ∧ after = withoutProject project tables

variable {cascades : Bool} {runtime : Runtime} {target : CutTarget} {rolloutId : PyValue}
  {project : String} {tables : StoreTables StoreColumns VectorColumns}

/-- An accepted rollout names a project without a dot. -/
theorem scratchProject_free (named : scratchProject runtime rolloutId = .ok project) :
    '.' ∉ project.toList := by
  cases rolloutId with
  | str text =>
    rw [scratchProject] at named
    split at named
    · cases named
    · dsimp only at named
      split at named
      · rename_i valid
        rw [← Except.ok.inj named]
        exact Text.not_mem_of_fullMatch valid (by decide)
      · cases named
  | _ => cases named

theorem discardPatterns_of_named (named : scratchProject runtime rolloutId = .ok project) :
    discardPatterns runtime rolloutId =
      .ok (prefixPatterns (namespaceRoot ++ "." ++ project)) := by
  rw [discardPatterns, named]
  rfl

/-- The clause of the discard selects what is in the project. -/
theorem selects_discard (free : '.' ∉ project.toList) (storePrefix : String) :
    (matchClause (prefixPatterns (namespaceRoot ++ "." ++ project)) storePrefix).selects =
      inProject project storePrefix :=
  Bool.eq_iff_iff.mpr ((selects_matchClause _ _).trans (inProject_iff free).symm)

theorem effect_discardVectors (free : '.' ∉ project.toList) :
    DiscardStatement.effect cascades (prefixPatterns (namespaceRoot ++ "." ++ project)) tables
        .deleteVectors =
      .ok (tables.vectors.countP fun row => inProject project row.storePrefix,
        { tables with vectors := (withoutProject project tables).vectors }) := by
  rw [DiscardStatement.effect, Sql.count_eq_ok fun _ _ => rfl, Sql.delete_eq_ok fun _ _ => rfl]
  simp only [selects_discard free]
  rfl

/-- Once their vectors are gone, deleting the rows deletes nothing else, whether the deletion
cascades or not. -/
theorem effect_discardStore (free : '.' ∉ project.toList) :
    DiscardStatement.effect cascades (prefixPatterns (namespaceRoot ++ "." ++ project))
        { tables with vectors := (withoutProject project tables).vectors } .deleteStore =
      .ok (projectRows project tables, withoutProject project tables) := by
  have kept : ((withoutProject project tables).vectors.filter fun vector =>
      !(tables.store.filter fun row => inProject project row.storePrefix).any (joins vector)) =
        (withoutProject project tables).vectors := by
    refine List.filter_eq_self.mpr fun vector member => ?_
    have outside := (List.mem_filter.mp member).2
    rw [Bool.not_eq_true', List.any_eq_false]
    intro row inside joined
    simp only [joins, Bool.and_eq_true, beq_iff_eq] at joined
    rw [joined.1, (List.mem_filter.mp inside).2] at outside
    cases outside
  rw [DiscardStatement.effect, Sql.count_eq_ok fun _ _ => rfl, Sql.delete_eq_ok fun _ _ => rfl,
    Sql.deleteUsing_eq_ok fun _ _ => rfl]
  simp only [selects_discard free]
  dsimp only [bind, Except.bind]
  rw [kept]
  split <;> rfl

/-- The calls of a discard that do not fail. -/
theorem runIn_discardCalls (free : '.' ∉ project.toList) :
    Sql.runIn (discardCalls cascades (prefixPatterns (namespaceRoot ++ "." ++ project)))
        ⟨tables, tables, []⟩ =
      (.ok (projectRows project tables),
        ⟨withoutProject project tables, withoutProject project tables, []⟩) := by
  have deletes : Sql.runIn (deleteScratch cascades
      (prefixPatterns (namespaceRoot ++ "." ++ project))) ⟨tables, tables, []⟩ =
        (.ok (projectRows project tables), ⟨tables, withoutProject project tables, []⟩) := by
    unfold deleteScratch openCursor executeDiscard
    rw [Sql.runIn_call_bind rfl, Sql.runIn_call_bind (effect_discardVectors free), Sql.runIn_call]
    dsimp only [List.headD_nil]
    rw [effect_discardStore free]
    rfl
  rw [discardCalls, Sql.runIn_bind, deletes]
  dsimp only
  rw [Sql.runIn_bind, Sql.runIn_commit]
  rfl

theorem keepsCommitted_deleteScratch (patterns : String × String) : Sql.KeepsCommitted
    (deleteScratch cascades patterns : CutDriver StoreColumns VectorColumns _) :=
  (Sql.keepsCommitted_call _).bind fun _ => (Sql.keepsCommitted_call _).bind fun _ =>
    Sql.keepsCommitted_call _

/-- The calls raise, or end as if none of them failed. -/
theorem onlyRaises_discardCalls (patterns : String × String) : Sql.OnlyRaises
    (discardCalls cascades patterns : CutDriver StoreColumns VectorColumns _) := by
  have deletes : Sql.OnlyRaises
      (deleteScratch cascades patterns : CutDriver StoreColumns VectorColumns _) :=
    (Sql.onlyRaises_call _).bind fun _ => (Sql.onlyRaises_call _).bind fun _ =>
      Sql.onlyRaises_call _
  exact deletes.bind fun _ => Sql.onlyRaises_commit.bind fun _ => Sql.onlyRaises_pure _

theorem discardScratch_returned (named : scratchProject runtime rolloutId = .ok project)
    {deleted : Nat} {after : StoreTables StoreColumns VectorColumns}
    (returned : discardScratch cascades runtime target rolloutId tables = (.ok deleted, after)) :
    deleted = projectRows project tables ∧ after = withoutProject project tables := by
  unfold discardScratch at returned
  rw [discardPatterns_of_named named] at returned
  dsimp only at returned
  split at returned
  · cases (Prod.mk.inj returned).1
  · split at returned
    · rename_i result session ended
      have faultless := onlyRaises_discardCalls _ _ _ _ ended
      dsimp only at faultless
      rw [runIn_discardCalls (scratchProject_free named)] at faultless
      obtain ⟨results, sessions⟩ := Prod.mk.inj faultless
      obtain ⟨same, rfl⟩ := Prod.mk.inj returned
      rw [← Except.ok.inj same, ← Except.ok.inj results]
      exact ⟨rfl, (congrArg Sql.Session.committed sessions).symm⟩
    · cases (Prod.mk.inj returned).1

theorem discardScratch_raised {error : ScratchError}
    {after : StoreTables StoreColumns VectorColumns}
    (raised : discardScratch cascades runtime target rolloutId tables = (.error error, after)) :
    after = tables := by
  unfold discardScratch at raised
  split at raised
  · exact (Prod.mk.inj raised).2.symm
  · dsimp only at raised
    split at raised
    · exact (Prod.mk.inj raised).2.symm
    · split at raised
      · cases (Prod.mk.inj raised).1
      · rename_i failed
        rw [← (Prod.mk.inj raised).2]
        exact Sql.committed_of_raised (keepsCommitted_deleteScratch _) failed

/-- The discard of an accepted rollout is exact. -/
theorem discardsExactly (named : scratchProject runtime rolloutId = .ok project) :
    DiscardsExactly cascades runtime rolloutId project tables where
  returned _ _ _ := discardScratch_returned named
  raised _ _ _ := discardScratch_raised
  returns target connects faultless := by
    unfold discardScratch
    rw [discardPatterns_of_named named, connects, faultless]
    dsimp only
    rw [runIn_discardCalls (scratchProject_free named)]
  again _ deleted after returned := by
    obtain ⟨rfl, rfl⟩ := discardScratch_returned named returned
    constructor
    · refine List.countP_eq_zero.mpr fun row member => ?_
      have outside := (List.mem_filter.mp member).2
      simpa using outside
    · simp [withoutProject, List.filter_filter]

end

/-- Patterns select exactly one project: those of a name select the prefixes at or below it, those
of an accepted rollout the prefixes of its scratch project, and the discard of the rollout removes
just that project. -/
theorem patterns_select_project (runtime : Runtime) :
    (∀ project storePrefix, (matchClause (projectPatterns project) storePrefix).selects = true ↔
      AtOrBelow ("fleet_memory." ++ project) storePrefix) ∧
    ∀ rolloutId patterns, discardPatterns runtime rolloutId = .ok patterns →
      ∃ project, scratchProject runtime rolloutId = .ok project ∧
        (∀ storePrefix, ((matchClause patterns storePrefix).selects = true ↔
            AtOrBelow ("fleet_memory." ++ project) storePrefix) ∧
          ((matchClause patterns storePrefix).selects = true ↔
            inProject project storePrefix = true)) ∧
        ∀ (cascades : Bool) (StoreColumns VectorColumns : Type)
          (tables : StoreTables StoreColumns VectorColumns),
          DiscardsExactly cascades runtime rolloutId project tables := by
  constructor
  · intro project storePrefix
    exact selects_matchClause _ storePrefix
  · intro rolloutId patterns accepted
    obtain ⟨project, named, same⟩ := except_bind_eq_ok.mp accepted
    obtain rfl := Except.ok.inj same
    refine ⟨project, named, fun storePrefix => ⟨selects_matchClause _ storePrefix, ?_⟩,
      fun _ _ _ _ => discardsExactly named⟩
    rw [selects_discard (scratchProject_free named)]

/-- A row of the store with a prefix. -/
def scratchRow (storePrefix : String) : StoreRow Unit where
  storePrefix
  key := "k"
  value := .dict []
  columns := ()

/-- A scratch project, its sibling, and a project of the corpus, each with a vector. -/
def siblingTables : StoreTables Unit Unit where
  store := [scratchRow "fleet_memory.scratch_run1.adr", scratchRow "fleet_memory.scratch_run12.adr",
    scratchRow "fleet_memory.guardkit.adr"]
  vectors := [⟨"fleet_memory.scratch_run1.adr", "k", ()⟩,
    ⟨"fleet_memory.scratch_run12.adr", "k", ()⟩, ⟨"fleet_memory.guardkit.adr", "k", ()⟩]

/-- A connection whose calls all succeed. -/
def localTarget : CutTarget where
  dsn := "postgresql://localhost/fixture"
  parseConninfo _ := [("host", "localhost"), ("dbname", "fixture")]
  connect := .ok ()
  faults := []

/-- The discard of `run1` deletes one row, with its vector, and leaves `run12`. -/
theorem patterns_select_project_run1 :
    discardScratch true (.ofTables [] [] []) localTarget (.str "run1") siblingTables =
      (.ok 1, ⟨siblingTables.store.tail, siblingTables.vectors.tail⟩) := by
  obtain ⟨project, named, _, discards⟩ :=
    (patterns_select_project (.ofTables [] [] [])).2 (.str "run1") _ rfl
  obtain rfl : "scratch_run1" = project := Except.ok.inj named
  rw [(discards true Unit Unit siblingTables).returns localTarget rfl rfl]
  rfl

end FleetMemory
