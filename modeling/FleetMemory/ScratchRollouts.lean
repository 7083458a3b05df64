/-
This file models rollouts on a store: their writes into scratch namespaces, the discards of these,
and the listing of the scratch projects that are left. Whatever the order of the steps of several
rollouts and whichever discards fail, the corpus stays as it was, each scratch project is as if its
rollout ran alone, and once each has been discarded nothing is left and nothing is listed.
-/

import FleetMemory.PosixPath
import FleetMemory.ScratchDiscard
import Mathlib.Data.Finset.Sort
import Mathlib.Data.String.Basic

namespace FleetMemory

/-! ### Scratch projects -/

section

variable (runtime : Runtime)

/-- `scratch_namespace`. -/
def scratchNamespace (rolloutId payloadType : PyValue) : Except ScratchError (List String) := do
  let project ← scratchProject runtime rolloutId
  match payloadType with
  | .str text =>
    if Text.fullMatch Text.lowerWord text then return [namespaceRoot, project, text]
    else throw (invalidSegment payloadType)
  | _ => throw (invalidSegment payloadType)
where
  invalidSegment (payloadType : PyValue) : ScratchError :=
    .scratchNamespace ("payload_type " ++ runtime.reprValue payloadType ++
      " is not a valid namespace segment (^[a-z0-9_]+$)")

end

/-- The scratch project that a prefix names. -/
def scratchProjectOf (storePrefix : String) : Option String :=
  match Text.split '.' storePrefix with
  | root :: project :: _ =>
    if root = namespaceRoot ∧ PosixPath.startsWith scratchPrefix project then some project else none
  | _ => none

section

variable {StoreColumns VectorColumns : Type}

/-- `SELECT DISTINCT prefix`. -/
def listPrefixes : CutDriver StoreColumns VectorColumns (List String) :=
  Sql.call fun tables => .ok ((tables.store.map StoreRow.storePrefix).dedup, tables)

/-- The calls of the listing. -/
def listCalls : CutDriver StoreColumns VectorColumns (List String) := do
  openCursor
  let selected ← listPrefixes
  let rows ← Sql.call fun tables => .ok (selected, tables)
  Sql.rollback
  return rows

/-- `list_scratch_projects`. -/
def listScratchProjects (target : CutTarget) (tables : StoreTables StoreColumns VectorColumns) :
    Except FixtureError (List String) :=
  let label := sanitizeTarget target.parseConninfo target.dsn
  match target.connect with
  | .error text => .error (.failed ("Cannot connect to " ++ label ++ ": " ++
      scrubSecrets target.parseConninfo text target.dsn))
  | .ok _ =>
    match (Sql.runIn listCalls ⟨tables, tables, target.faults⟩).1 with
    | .error text => .error (.failed ("Scratch listing on " ++ label ++ " failed: " ++
        scrubSecrets target.parseConninfo text target.dsn))
    | .ok rows => .ok ((rows.filterMap scratchProjectOf).dedup.mergeSort (· ≤ ·))

/-! ### The steps of rollouts -/

/-- A write of a rollout's store client. What the columns and the vectors of the entry are after it
may depend on those that the entry had. -/
structure ScratchWrite (StoreColumns VectorColumns : Type) where
  rolloutId : PyValue
  payloadType : PyValue
  key : String
  value : PyValue
  columns : Option StoreColumns → StoreColumns
  vectors : List VectorColumns → List VectorColumns

/-- What rollouts do: write into their scratch namespaces, and discard them. -/
inductive RolloutStep (StoreColumns VectorColumns : Type) where
  | write (entry : ScratchWrite StoreColumns VectorColumns)
  | discard (target : CutTarget) (rolloutId : PyValue)

/-- An entry takes the place of the one with its prefix and key. -/
def StoreTables.upsert (storePrefix : String) (entry : ScratchWrite StoreColumns VectorColumns)
    (tables : StoreTables StoreColumns VectorColumns) : StoreTables StoreColumns VectorColumns :=
  let replaced := tables.store.find? fun old =>
    old.storePrefix == storePrefix && old.key == entry.key
  let indexed := tables.vectors.filter fun old =>
    old.storePrefix == storePrefix && old.key == entry.key
  { store := (tables.store.filter fun old =>
        !(old.storePrefix == storePrefix && old.key == entry.key)) ++
      [⟨storePrefix, entry.key, entry.value, entry.columns (replaced.map StoreRow.columns)⟩]
    vectors := (tables.vectors.filter fun old =>
        !(old.storePrefix == storePrefix && old.key == entry.key)) ++
      (entry.vectors (indexed.map VectorRow.columns)).map fun columns =>
        ⟨storePrefix, entry.key, columns⟩ }

variable (cascades : Bool) (runtime : Runtime)

/-- The tables after a step. A write into a namespace that is none raises. -/
def RolloutStep.apply (tables : StoreTables StoreColumns VectorColumns) :
    RolloutStep StoreColumns VectorColumns → StoreTables StoreColumns VectorColumns
  | write entry =>
    match scratchNamespace runtime entry.rolloutId entry.payloadType with
    | .error _ => tables
    | .ok parts => tables.upsert (Text.join '.' parts) entry
  | discard target rolloutId => (discardScratch cascades runtime target rolloutId tables).2

/-- The tables after some steps. -/
def afterSteps (steps : List (RolloutStep StoreColumns VectorColumns))
    (tables : StoreTables StoreColumns VectorColumns) : StoreTables StoreColumns VectorColumns :=
  steps.foldl (RolloutStep.apply cascades runtime) tables

/-- The scratch project of a step. -/
def RolloutStep.project? : RolloutStep StoreColumns VectorColumns → Option String
  | write entry => (scratchProject runtime entry.rolloutId).toOption
  | discard _ rolloutId => (scratchProject runtime rolloutId).toOption

end

/-! ### Parts of the tables -/

section

variable {StoreColumns VectorColumns : Type}

/-- The rows and the vectors whose prefixes are kept. -/
def StoreTables.restrict (keeps : String → Bool) (tables : StoreTables StoreColumns VectorColumns) :
    StoreTables StoreColumns VectorColumns where
  store := tables.store.filter fun row => keeps row.storePrefix
  vectors := tables.vectors.filter fun row => keeps row.storePrefix

variable {keeps others : String → Bool} {tables : StoreTables StoreColumns VectorColumns}
  {storePrefix : String} {entry : ScratchWrite StoreColumns VectorColumns}

theorem restrict_restrict : (tables.restrict others).restrict keeps =
    tables.restrict fun storePrefix => keeps storePrefix && others storePrefix := by
  simp only [StoreTables.restrict, List.filter_filter]

theorem restrict_comm :
    (tables.restrict others).restrict keeps = (tables.restrict keeps).restrict others := by
  rw [restrict_restrict, restrict_restrict]
  exact congrArg tables.restrict (funext fun storePrefix => Bool.and_comm _ _)

theorem withoutProject_eq_restrict (project : String) :
    withoutProject project tables =
      tables.restrict fun storePrefix => !inProject project storePrefix := rfl

/-- An entry that is not kept changes nothing of what is. -/
theorem restrict_upsert_of_apart (apart : keeps storePrefix = false) :
    (tables.upsert storePrefix entry).restrict keeps = tables.restrict keeps := by
  have added (vectors : List VectorColumns) : (vectors.map fun columns =>
      (⟨storePrefix, entry.key, columns⟩ : VectorRow _)).filter
        (fun old => keeps old.storePrefix) = [] := by
    refine List.filter_eq_nil_iff.mpr fun old member => ?_
    obtain ⟨columns, -, rfl⟩ := List.mem_map.mp member
    rw [apart]
    exact Bool.false_ne_true
  have others (oldPrefix oldKey : String) :
      (keeps oldPrefix && !(oldPrefix == storePrefix && oldKey == entry.key)) =
        keeps oldPrefix := by
    by_cases same : oldPrefix = storePrefix
    · rw [same, apart, Bool.false_and]
    · rw [beq_eq_false_iff_ne.mpr same, Bool.false_and, Bool.not_false, Bool.and_true]
  rw [StoreTables.restrict, StoreTables.upsert, StoreTables.restrict]
  dsimp only
  rw [List.filter_append, List.filter_append, added, List.filter_cons, apart,
    if_neg Bool.false_ne_true, List.filter_nil, List.append_nil, List.append_nil,
    List.filter_filter, List.filter_filter]
  simp only [others]

/-- An entry that is kept takes its place in what is kept. -/
theorem restrict_upsert_of_kept (kept : keeps storePrefix = true) :
    (tables.upsert storePrefix entry).restrict keeps =
      (tables.restrict keeps).upsert storePrefix entry := by
  have added (vectors : List VectorColumns) : (vectors.map fun columns =>
      (⟨storePrefix, entry.key, columns⟩ : VectorRow _)).filter (fun old => keeps old.storePrefix) =
        vectors.map fun columns => ⟨storePrefix, entry.key, columns⟩ := by
    refine List.filter_eq_self.mpr fun old member => ?_
    obtain ⟨columns, -, rfl⟩ := List.mem_map.mp member
    exact kept
  have within (oldPrefix oldKey : String) :
      (keeps oldPrefix && (oldPrefix == storePrefix && oldKey == entry.key)) =
        (oldPrefix == storePrefix && oldKey == entry.key) := by
    by_cases same : oldPrefix = storePrefix
    · rw [same, kept, Bool.true_and]
    · rw [beq_eq_false_iff_ne.mpr same, Bool.false_and, Bool.and_false]
  rw [StoreTables.restrict, StoreTables.upsert, StoreTables.upsert, StoreTables.restrict]
  dsimp only
  rw [List.filter_append, List.filter_append, added, List.filter_cons, kept, if_pos rfl,
    List.filter_nil, List.filter_filter, List.filter_filter, List.filter_filter, List.filter_filter,
    List.filter_filter, List.find?_filter]
  simp only [Bool.and_comm _ (keeps _), Bool.decide_and, Bool.decide_coe, within]

end

/-! ### What a step touches -/

theorem inProject_unique {first second storePrefix : String}
    (firstIn : inProject first storePrefix = true) (secondIn : inProject second storePrefix = true) :
    first = second := by
  rw [inProject, decide_eq_true_iff] at firstIn secondIn
  rw [firstIn] at secondIn
  exact (List.cons.inj (List.cons.inj secondIn).2).1

theorem scratchProjectOf_eq_some {storePrefix project : String} :
    scratchProjectOf storePrefix = some project ↔
      inProject project storePrefix = true ∧
        PosixPath.startsWith scratchPrefix project = true := by
  rw [scratchProjectOf, inProject, decide_eq_true_iff]
  split
  · rename_i root other rest parts
    rw [parts, List.take_succ_cons, List.take_succ_cons, List.take_zero]
    split
    · rename_i scratch
      rw [Option.some.injEq, scratch.1]
      refine ⟨fun same => same ▸ ⟨rfl, scratch.2⟩, fun both => ?_⟩
      exact (List.cons.inj (List.cons.inj both.1).2).1
    · rename_i apart
      refine iff_of_false (by simp) fun both => apart ?_
      obtain ⟨rfl, rest⟩ := List.cons.inj both.1
      obtain ⟨rfl, -⟩ := List.cons.inj rest
      exact ⟨rfl, both.2⟩
  · rename_i short
    refine iff_of_false (by simp) fun both => ?_
    rcases parts : Text.split '.' storePrefix with _ | ⟨root, _ | ⟨other, rest⟩⟩
    · rw [parts] at both
      cases both.1
    · rw [parts] at both
      cases both.1
    · exact short root other rest parts

section

variable {StoreColumns VectorColumns : Type} {cascades : Bool} {runtime : Runtime}
  {project : String} {tables : StoreTables StoreColumns VectorColumns}

/-- A named project is a scratch project. -/
theorem startsWith_scratchProject {rolloutId : PyValue}
    (named : scratchProject runtime rolloutId = .ok project) :
    PosixPath.startsWith scratchPrefix project = true := by
  cases rolloutId with
  | str text =>
    rw [scratchProject] at named
    split at named
    · cases named
    · dsimp only at named
      split at named
      · rw [← Except.ok.inj named, PosixPath.startsWith_iff, String.toList_append]
        exact List.prefix_append _ _
      · cases named
  | _ => cases named

/-- A scratch namespace is in the rollout's project. -/
theorem scratchNamespace_eq_ok {rolloutId payloadType : PyValue} {parts : List String}
    (accepted : scratchNamespace runtime rolloutId payloadType = .ok parts) :
    ∃ project, scratchProject runtime rolloutId = .ok project ∧
      inProject project (Text.join '.' parts) = true := by
  rw [scratchNamespace] at accepted
  obtain ⟨project, named, rest⟩ := except_bind_eq_ok.mp accepted
  refine ⟨project, named, ?_⟩
  cases payloadType with
  | str text =>
    dsimp only at rest
    split at rest
    · rename_i valid
      obtain rfl := Except.ok.inj rest
      have free : ∀ part ∈ [namespaceRoot, project, text], '.' ∉ part.toList := by
        intro part member
        simp only [List.mem_cons, List.not_mem_nil, or_false] at member
        rcases member with rfl | rfl | rfl
        · decide
        · exact scratchProject_free named
        · exact Text.not_mem_of_fullMatch valid (by decide)
      rw [inProject, Text.split_join '.' _ (by simp) free]
      simp
    · cases rest
  | _ => cases rest

theorem sameFate_discardCalls (patterns : String × String) : Sql.SameFate
    (discardCalls cascades patterns : CutDriver StoreColumns VectorColumns Nat)
    (discardCalls cascades patterns) := by
  have effects (statement : DiscardStatement) (tables : StoreTables StoreColumns VectorColumns) :
      (statement.effect cascades patterns tables).toBool = true := by
    cases statement with
    | deleteVectors =>
      rw [DiscardStatement.effect, Sql.count_eq_ok fun _ _ => rfl, Sql.delete_eq_ok fun _ _ => rfl]
      rfl
    | deleteStore =>
      rw [DiscardStatement.effect, Sql.count_eq_ok fun _ _ => rfl, Sql.delete_eq_ok fun _ _ => rfl,
        Sql.deleteUsing_eq_ok fun _ _ => rfl]
      cases cascades <;> rfl
  have deletes : Sql.SameFate
      (deleteScratch cascades patterns : CutDriver StoreColumns VectorColumns Nat)
      (deleteScratch cascades patterns) :=
    (Sql.sameFate_call (fun _ => rfl) fun _ => rfl).bind fun _ _ =>
      (Sql.sameFate_call (effects _) (effects _)).bind fun _ _ =>
        Sql.sameFate_call (effects _) (effects _)
  exact deletes.bind fun _ _ => Sql.sameFate_commit.bind fun _ _ => Sql.sameFate_pure _ _

/-- Whether a discard's calls succeed does not depend on what the tables hold. -/
theorem discardScratch_uniform {rolloutId : PyValue}
    (named : scratchProject runtime rolloutId = .ok project) (target : CutTarget) :
    (∀ tables : StoreTables StoreColumns VectorColumns,
      (discardScratch cascades runtime target rolloutId tables).2 = withoutProject project tables) ∨
    ∀ tables : StoreTables StoreColumns VectorColumns,
      (discardScratch cascades runtime target rolloutId tables).2 = tables := by
  by_cases returns : ∃ (tables : StoreTables StoreColumns VectorColumns) (deleted : Nat),
      (discardScratch cascades runtime target rolloutId tables).1 = .ok deleted
  · obtain ⟨sample, deleted, returned⟩ := returns
    refine Or.inl fun tables => ?_
    have fate := (@sameFate_discardCalls StoreColumns VectorColumns cascades
      (prefixPatterns (namespaceRoot ++ "." ++ project)) ⟨sample, sample, target.faults⟩
      ⟨tables, tables, target.faults⟩ rfl).1
    cases ended : discardScratch cascades runtime target rolloutId tables with
    | mk outcome after =>
      cases outcome with
      | ok deleted => exact (discardScratch_returned named ended).2
      | error error =>
        rw [discardScratch, discardPatterns_of_named named] at ended returned
        dsimp only at ended returned
        cases connects : target.connect with
        | error text =>
          rw [connects] at returned
          cases returned
        | ok _ =>
          rw [connects] at ended returned
          dsimp only at ended returned
          rcases ran : Sql.runIn (discardCalls cascades
            (prefixPatterns (namespaceRoot ++ "." ++ project))) ⟨sample, sample, target.faults⟩
            with ⟨firstEnd, firstAfter⟩
          rcases ranToo : Sql.runIn (discardCalls cascades
            (prefixPatterns (namespaceRoot ++ "." ++ project))) ⟨tables, tables, target.faults⟩
            with ⟨secondEnd, secondAfter⟩
          rw [ran, ranToo] at fate
          rw [ran] at returned
          rw [ranToo] at ended
          cases firstEnd with
          | error fault => cases returned
          | ok value =>
            cases secondEnd with
            | error fault => cases fate
            | ok other => cases (Prod.mk.inj ended).1
  · refine Or.inr fun tables => ?_
    cases ended : discardScratch cascades runtime target rolloutId tables with
    | mk outcome after =>
      cases outcome with
      | ok deleted => exact absurd ⟨tables, deleted, by rw [ended]⟩ returns
      | error error => exact discardScratch_raised ended

/-! ### Steps and parts -/

/-- A discard removes its project, from any tables, or does nothing to any. -/
theorem apply_discard_cases (target : CutTarget) (rolloutId : PyValue) :
    (∃ project, scratchProject runtime rolloutId = .ok project ∧
      ∀ tables : StoreTables StoreColumns VectorColumns,
        RolloutStep.apply cascades runtime tables (.discard target rolloutId) =
          withoutProject project tables) ∨
    ∀ tables : StoreTables StoreColumns VectorColumns,
      RolloutStep.apply cascades runtime tables (.discard target rolloutId) = tables := by
  cases named : scratchProject runtime rolloutId with
  | error error =>
    refine Or.inr fun tables => ?_
    rw [RolloutStep.apply, discardScratch, discardPatterns, named]
    rfl
  | ok project =>
    rcases @discardScratch_uniform StoreColumns VectorColumns cascades runtime project rolloutId
      named target with removes | stays
    · exact Or.inl ⟨project, rfl, removes⟩
    · exact Or.inr stays

/-- A step removes its project, writes into it, or does nothing. -/
theorem apply_cases (step : RolloutStep StoreColumns VectorColumns) :
    (∃ project, step.project? runtime = some project ∧
      PosixPath.startsWith scratchPrefix project = true ∧
      ((∀ tables, RolloutStep.apply cascades runtime tables step = withoutProject project tables) ∨
        ∃ storePrefix entry, inProject project storePrefix = true ∧
          ∀ tables, RolloutStep.apply cascades runtime tables step =
            tables.upsert storePrefix entry)) ∨
    ∀ tables, RolloutStep.apply cascades runtime tables step = tables := by
  cases step with
  | write entry =>
    cases accepted : scratchNamespace runtime entry.rolloutId entry.payloadType with
    | error error =>
      refine Or.inr fun tables => ?_
      rw [RolloutStep.apply, accepted]
    | ok parts =>
      obtain ⟨project, named, inside⟩ := scratchNamespace_eq_ok accepted
      refine Or.inl ⟨project, ?_, startsWith_scratchProject named, Or.inr
        ⟨Text.join '.' parts, entry, inside, fun tables => ?_⟩⟩
      · rw [RolloutStep.project?, named]
        rfl
      · rw [RolloutStep.apply, accepted]
  | discard target rolloutId =>
    rcases @apply_discard_cases _ _ cascades runtime target rolloutId with
      ⟨project, named, removes⟩ | stays
    · refine Or.inl ⟨project, ?_, startsWith_scratchProject named, Or.inl removes⟩
      rw [RolloutStep.project?, named]
      rfl
    · exact Or.inr stays

/-- What a project does not hold of a step's, the step leaves. -/
theorem restrict_apply_of_apart {keeps : String → Bool}
    {step : RolloutStep StoreColumns VectorColumns}
    (apart : ∀ project, step.project? runtime = some project →
      PosixPath.startsWith scratchPrefix project = true →
      ∀ storePrefix, inProject project storePrefix = true → keeps storePrefix = false) :
    (RolloutStep.apply cascades runtime tables step).restrict keeps = tables.restrict keeps := by
  rcases @apply_cases _ _ cascades runtime step with ⟨project, isIt, scratch, acts⟩ | stays
  · have outside := apart project isIt scratch
    rcases acts with removes | ⟨written, entry, inside, writes⟩
    · rw [removes, withoutProject_eq_restrict, restrict_restrict]
      refine congrArg tables.restrict (funext fun storePrefix => ?_)
      cases held : inProject project storePrefix with
      | true => rw [outside storePrefix held, Bool.false_and]
      | false => rw [Bool.not_false, Bool.and_true]
    · rw [writes, restrict_upsert_of_apart (outside written inside)]
  · rw [stays]

/-- What holds the step's project is after the step as if there were nothing else. -/
theorem restrict_apply_of_within {keeps : String → Bool}
    {step : RolloutStep StoreColumns VectorColumns}
    (within : ∀ project, step.project? runtime = some project →
      ∀ storePrefix, inProject project storePrefix = true → keeps storePrefix = true) :
    (RolloutStep.apply cascades runtime tables step).restrict keeps =
      RolloutStep.apply cascades runtime (tables.restrict keeps) step := by
  rcases @apply_cases _ _ cascades runtime step with ⟨project, isIt, -, acts⟩ | stays
  · rcases acts with removes | ⟨written, entry, inside, writes⟩
    · rw [removes, removes, withoutProject_eq_restrict, withoutProject_eq_restrict, restrict_comm]
    · rw [writes, writes, restrict_upsert_of_kept (within project isIt written inside)]
  · rw [stays, stays]

/-- Steps leave what is in no scratch project. -/
theorem restrict_corpus (steps : List (RolloutStep StoreColumns VectorColumns)) :
    (afterSteps cascades runtime steps tables).restrict
        (fun storePrefix => (scratchProjectOf storePrefix).isNone) =
      tables.restrict fun storePrefix => (scratchProjectOf storePrefix).isNone := by
  induction steps generalizing tables with
  | nil => rfl
  | cons step rest inductionHypothesis =>
    rw [afterSteps, List.foldl_cons, ← afterSteps, inductionHypothesis]
    refine restrict_apply_of_apart fun project _ scratch storePrefix inside => ?_
    rw [scratchProjectOf_eq_some.mpr ⟨inside, scratch⟩]
    rfl

/-- Each project is as if only its own steps had been made. -/
theorem restrict_project (steps : List (RolloutStep StoreColumns VectorColumns)) :
    (afterSteps cascades runtime steps tables).restrict (inProject project) =
      afterSteps cascades runtime
        (steps.filter fun step => step.project? runtime == some project)
        (tables.restrict (inProject project)) := by
  induction steps generalizing tables with
  | nil => rfl
  | cons step rest inductionHypothesis =>
    rw [afterSteps, List.foldl_cons, ← afterSteps, inductionHypothesis, List.filter_cons]
    by_cases own : step.project? runtime = some project
    · rw [if_pos (beq_iff_eq.mpr own), afterSteps, afterSteps, List.foldl_cons,
        restrict_apply_of_within]
      intro other isIt storePrefix inside
      rwa [Option.some.inj (own.symm.trans isIt)]
    · rw [if_neg (mt beq_iff_eq.mp own), restrict_apply_of_apart]
      intro other isIt _ storePrefix inside
      by_contra held
      rw [Bool.not_eq_false] at held
      rw [inProject_unique held inside] at own
      exact own isIt

/-! ### Residue -/

/-- There is nothing of the project. -/
def Without (project : String) (tables : StoreTables StoreColumns VectorColumns) : Prop :=
  tables.restrict (inProject project) = ⟨[], []⟩

theorem without_withoutProject : Without project (withoutProject project tables) := by
  rw [Without, withoutProject_eq_restrict, restrict_restrict]
  simp [StoreTables.restrict]

theorem project?_write {entry : ScratchWrite StoreColumns VectorColumns} :
    (RolloutStep.write entry).project? runtime = some project ↔
      scratchProject runtime entry.rolloutId = .ok project := by
  rw [RolloutStep.project?]
  cases scratchProject runtime entry.rolloutId <;> simp [Except.toOption]

/-- Only a write into a project puts something there. -/
theorem Without.apply {step : RolloutStep StoreColumns VectorColumns}
    (nothing : Without project tables)
    (unwritten : ∀ entry, step = .write entry →
      scratchProject runtime entry.rolloutId ≠ .ok project) :
    Without project (RolloutStep.apply cascades runtime tables step) := by
  cases step with
  | write entry =>
    rw [Without, restrict_apply_of_apart, nothing]
    intro other isIt _ storePrefix inside
    by_contra held
    rw [Bool.not_eq_false] at held
    rw [inProject_unique inside held] at isIt
    exact unwritten entry rfl (project?_write.mp isIt)
  | discard target rolloutId =>
    rcases @apply_discard_cases _ _ cascades runtime target rolloutId with ⟨other, -, removes⟩ | stays
    · rw [removes, Without, withoutProject_eq_restrict, restrict_comm, nothing]
      rfl
    · rwa [stays]

theorem Without.afterSteps (steps : List (RolloutStep StoreColumns VectorColumns))
    (nothing : Without project tables)
    (unwritten : ∀ entry, .write entry ∈ steps →
      scratchProject runtime entry.rolloutId ≠ .ok project) :
    Without project (afterSteps cascades runtime steps tables) := by
  induction steps generalizing tables with
  | nil => exact nothing
  | cons step rest inductionHypothesis =>
    rw [FleetMemory.afterSteps, List.foldl_cons, ← FleetMemory.afterSteps]
    refine inductionHypothesis (nothing.apply fun entry isIt => ?_) fun entry later => ?_
    · exact unwritten entry (isIt ▸ List.mem_cons_self)
    · exact unwritten entry (List.mem_cons_of_mem _ later)

/-- The project is discarded, by calls that do not fail, and not written into after that. -/
def DiscardedLast (runtime : Runtime) (steps : List (RolloutStep StoreColumns VectorColumns))
    (project : String) : Prop :=
  ∃ earlier target rolloutId later, steps = earlier ++ .discard target rolloutId :: later ∧
    scratchProject runtime rolloutId = .ok project ∧ target.connect = .ok () ∧
    target.faults = [] ∧ ∀ entry, .write entry ∈ later →
      scratchProject runtime entry.rolloutId ≠ .ok project

theorem DiscardedLast.without {steps : List (RolloutStep StoreColumns VectorColumns)}
    (discarded : DiscardedLast runtime steps project) :
    Without project (afterSteps cascades runtime steps tables) := by
  obtain ⟨earlier, target, rolloutId, later, rfl, named, connects, faultless, unwritten⟩ := discarded
  rw [afterSteps, List.foldl_append, List.foldl_cons, ← afterSteps]
  refine Without.afterSteps later ?_ unwritten
  rw [RolloutStep.apply, (discardsExactly named).returns target connects faultless]
  exact without_withoutProject

/-! ### The listing -/

theorem onlyRaises_listCalls : Sql.OnlyRaises
    (listCalls : CutDriver StoreColumns VectorColumns (List String)) :=
  (Sql.onlyRaises_call _).bind fun _ => (Sql.onlyRaises_call _).bind fun _ =>
    (Sql.onlyRaises_call _).bind fun _ => Sql.onlyRaises_rollback.bind fun _ => Sql.onlyRaises_pure _

theorem pairwise_sort_dedup (names : List String) :
    (names.dedup.mergeSort (· ≤ ·)).Pairwise (· < ·) := by
  have sorted : (names.dedup.mergeSort (· ≤ ·)).Pairwise (· ≤ ·) := by
    have ordered := @List.pairwise_mergeSort _ (fun first second : String => decide (first ≤ second))
      (fun first second third => by simpa using le_trans) (fun first second => by
        simpa using le_total first second) names.dedup
    simpa using ordered
  have distinct : (names.dedup.mergeSort (· ≤ ·)).Nodup :=
    (List.mergeSort_perm _ _).nodup_iff.mpr (List.nodup_dedup names)
  exact (sorted.and distinct).imp fun both => lt_of_le_of_ne both.1 both.2

/-- A listing that returns names, in order and once each, the scratch projects that have rows. -/
theorem listScratchProjects_returned {target : CutTarget} {names : List String}
    (returned : listScratchProjects target tables = .ok names) :
    names.Pairwise (· < ·) ∧ ∀ name, name ∈ names ↔
      ∃ row ∈ tables.store, scratchProjectOf row.storePrefix = some name := by
  rw [listScratchProjects] at returned
  split at returned
  · cases returned
  · split at returned
    · cases returned
    · rename_i rows ended
      obtain rfl := Except.ok.inj returned
      have faultless := onlyRaises_listCalls _ _ _ (Prod.ext ended rfl)
      obtain rfl := Except.ok.inj (congrArg Prod.fst faultless)
      refine ⟨pairwise_sort_dedup _, fun name => ?_⟩
      rw [List.mem_mergeSort, List.mem_dedup, List.mem_filterMap]
      simp only [List.mem_dedup, List.mem_map, exists_exists_and_eq_and]

/-- No row and no vector is in a scratch project. -/
def Clean (tables : StoreTables StoreColumns VectorColumns) : Prop :=
  (∀ row ∈ tables.store, scratchProjectOf row.storePrefix = none) ∧
    ∀ row ∈ tables.vectors, scratchProjectOf row.storePrefix = none

theorem restrict_clean (clean : Clean tables) :
    tables.restrict (fun storePrefix => (scratchProjectOf storePrefix).isNone) = tables := by
  rw [StoreTables.restrict, List.filter_eq_self.mpr fun row member => ?_,
    List.filter_eq_self.mpr fun row member => ?_]
  · rw [clean.2 row member]
    rfl
  · rw [clean.1 row member]
    rfl

theorem Clean.without (clean : Clean tables)
    (scratch : PosixPath.startsWith scratchPrefix project = true) : Without project tables := by
  have outside {storePrefix : String} (none : scratchProjectOf storePrefix = none) :
      ¬ inProject project storePrefix = true := by
    intro inside
    rw [scratchProjectOf_eq_some.mpr ⟨inside, scratch⟩] at none
    cases none
  rw [Without, StoreTables.restrict,
    List.filter_eq_nil_iff.mpr fun row member => outside (clean.1 row member),
    List.filter_eq_nil_iff.mpr fun row member => outside (clean.2 row member)]

/-- Where there is nothing of any scratch project, the tables are clean. -/
theorem clean_of_without (nothing : ∀ project,
    PosixPath.startsWith scratchPrefix project = true → Without project tables) :
    Clean tables := by
  have empty {project storePrefix : String} (isIt : scratchProjectOf storePrefix = some project) :
      inProject project storePrefix = true ∧ Without project tables :=
    ⟨(scratchProjectOf_eq_some.mp isIt).1, nothing project (scratchProjectOf_eq_some.mp isIt).2⟩
  constructor
  · intro row member
    by_contra some
    obtain ⟨project, isIt⟩ := Option.ne_none_iff_exists'.mp some
    exact List.filter_eq_nil_iff.mp (congrArg StoreTables.store (empty isIt).2) row member
      (empty isIt).1
  · intro row member
    by_contra some
    obtain ⟨project, isIt⟩ := Option.ne_none_iff_exists'.mp some
    exact List.filter_eq_nil_iff.mp (congrArg StoreTables.vectors (empty isIt).2) row member
      (empty isIt).1

/-- Once each project that is written into has been discarded, the tables are as at the start. -/
theorem afterSteps_settled {steps : List (RolloutStep StoreColumns VectorColumns)}
    (clean : Clean tables)
    (discarded : ∀ entry project, .write entry ∈ steps →
      scratchProject runtime entry.rolloutId = .ok project →
        DiscardedLast runtime steps project) :
    afterSteps cascades runtime steps tables = tables := by
  have settled : Clean (afterSteps cascades runtime steps tables) := by
    refine clean_of_without fun project scratch => ?_
    by_cases written : ∃ entry, .write entry ∈ steps ∧
        scratchProject runtime entry.rolloutId = .ok project
    · obtain ⟨entry, member, named⟩ := written
      exact (discarded entry project member named).without
    · exact (clean.without scratch).afterSteps steps fun entry member named =>
        written ⟨entry, member, named⟩
  rw [← restrict_clean settled, restrict_corpus, restrict_clean clean]

end

/-- Rollouts leave no residue. Whatever the order of their writes and discards, and whichever calls
of the discards fail: what is in no scratch project stays as it was, each project is as if only the
steps of its own rollout had been made, and a listing that returns names, in order and once each,
the scratch projects that have rows. Where there is nothing of scratch projects at the start, and
each one that is written into has been discarded since by calls that did not fail, the tables are
as they were at the start, and a listing that returns is empty. -/
theorem rollouts_leave_no_residue (cascades : Bool) (runtime : Runtime)
    {StoreColumns VectorColumns : Type} (steps : List (RolloutStep StoreColumns VectorColumns))
    (tables : StoreTables StoreColumns VectorColumns) :
    (afterSteps cascades runtime steps tables).restrict
        (fun storePrefix => (scratchProjectOf storePrefix).isNone) =
      tables.restrict (fun storePrefix => (scratchProjectOf storePrefix).isNone) ∧
    (∀ project, (afterSteps cascades runtime steps tables).restrict (inProject project) =
      afterSteps cascades runtime
        (steps.filter fun step => step.project? runtime == some project)
        (tables.restrict (inProject project))) ∧
    (∀ target names,
      listScratchProjects target (afterSteps cascades runtime steps tables) = .ok names →
        names.Pairwise (· < ·) ∧ ∀ name, name ∈ names ↔
          ∃ row ∈ (afterSteps cascades runtime steps tables).store,
            scratchProjectOf row.storePrefix = some name) ∧
    (Clean tables →
      (∀ entry project, .write entry ∈ steps →
        scratchProject runtime entry.rolloutId = .ok project →
          DiscardedLast runtime steps project) →
        afterSteps cascades runtime steps tables = tables ∧
        ∀ target names,
          listScratchProjects target (afterSteps cascades runtime steps tables) = .ok names →
            names = []) := by
  refine ⟨restrict_corpus steps, fun project => restrict_project steps,
    fun target names => listScratchProjects_returned, fun clean discarded => ?_⟩
  have same := @afterSteps_settled _ _ cascades _ _ _ clean discarded
  refine ⟨same, fun target names returned => ?_⟩
  rw [same] at returned
  refine List.eq_nil_iff_forall_not_mem.mpr fun name member => ?_
  obtain ⟨row, held, isIt⟩ := ((listScratchProjects_returned returned).2 name).mp member
  rw [clean.1 row held] at isIt
  cases isIt

/-- A project of the corpus. -/
def corpusTables : StoreTables Unit Unit where
  store := [scratchRow "fleet_memory.guardkit.adr"]
  vectors := [⟨"fleet_memory.guardkit.adr", "k", ()⟩]

/-- A write of a rollout. -/
def sampleWrite (rolloutId : String) : RolloutStep Unit Unit :=
  .write ⟨.str rolloutId, .str "adr", "k", .dict [], fun _ => (), fun _ => [()]⟩

/-- Two rollouts, one step of each after the other. The first discard of `run12` cannot connect. -/
def sampleSteps : List (RolloutStep Unit Unit) :=
  [sampleWrite "run1", sampleWrite "run12",
    .discard { localTarget with connect := .error "refused" } (.str "run12"),
    .discard localTarget (.str "run1"), .discard localTarget (.str "run12")]

/-- The rollouts leave the corpus, and nothing else. -/
theorem rollouts_leave_no_residue_sample :
    afterSteps true (.ofTables [] [] []) (sampleSteps.take 3) corpusTables ≠ corpusTables ∧
    afterSteps true (.ofTables [] [] []) sampleSteps corpusTables = corpusTables := by
  refine ⟨fun same => ?_,
    ((rollouts_leave_no_residue true (.ofTables [] [] []) sampleSteps corpusTables).2.2.2
      ⟨by decide, by decide⟩ ?_).1⟩
  · have rows := congrArg (fun tables => tables.store.length) same
    revert rows
    decide
  · intro entry project member named
    simp only [sampleSteps, sampleWrite, List.mem_cons, RolloutStep.write.injEq, reduceCtorEq,
      List.not_mem_nil, or_false] at member
    rcases member with rfl | rfl
    · exact ⟨sampleSteps.take 3, localTarget, .str "run1", sampleSteps.drop 4, rfl, named, rfl,
        rfl, fun entry later => by simp [sampleSteps, sampleWrite] at later⟩
    · exact ⟨sampleSteps.take 4, localTarget, .str "run12", [], rfl, named, rfl, rfl,
        fun entry later => by cases later⟩

end FleetMemory
