/-
This file models the exceptions the code raises and catches, with the data each carries
and its text, and the functions outside the repository the code calls. An exception of
the store is any of them.
-/

import FleetMemory.Python
import Mathlib.Algebra.Group.Nat.Defs
import Mathlib.Data.List.Forall2
import Mathlib.Data.List.Perm.Basic

namespace FleetMemory

/-! ### Computations that may raise -/

theorem except_ok_bind {Fault Result Other : Type} (result : Result)
    (next : Result → Except Fault Other) : Except.ok result >>= next = next result := rfl

theorem except_error_bind {Fault Result Other : Type} (error : Fault)
    (next : Result → Except Fault Other) : Except.error error >>= next = .error error := rfl

theorem except_map_eq_ok {Fault Result Other : Type} {computed : Except Fault Result}
    {transform : Result → Other} {value : Other} :
    computed.map transform = .ok value ↔ ∃ source, computed = .ok source ∧ transform source = value := by
  cases computed <;> simp [Except.map]

theorem except_bind_eq_ok {Fault Result Other : Type} {computed : Except Fault Result}
    {next : Result → Except Fault Other} {value : Other} :
    computed >>= next = .ok value ↔ ∃ source, computed = .ok source ∧ next source = .ok value := by
  cases computed <;> simp [bind, Except.bind]

theorem except_bind_eq_error {Fault Result Other : Type} {computed : Except Fault Result}
    {next : Result → Except Fault Other} {error : Fault} :
    computed >>= next = .error error ↔
      computed = .error error ∨ ∃ source, computed = .ok source ∧ next source = .error error := by
  cases computed <;> simp [bind, Except.bind]

/-- A loop returns when every pass returns, with what the passes returned, in order. -/
theorem except_mapM_eq_ok {Fault Source Result : Type} {compute : Source → Except Fault Result}
    {sources : List Source} {results : List Result} :
    sources.mapM compute = .ok results ↔
      List.Forall₂ (fun source result => compute source = .ok result) sources results := by
  induction sources generalizing results with
  | nil =>
    rw [List.mapM_nil, List.forall₂_nil_left_iff]
    exact ⟨fun same => (Except.ok.inj same).symm, fun same => congrArg Except.ok same.symm⟩
  | cons source rest inductionHypothesis =>
    rw [List.mapM_cons, except_bind_eq_ok]
    constructor
    · rintro ⟨head, here, returned⟩
      obtain ⟨tail, later, built⟩ := except_bind_eq_ok.mp returned
      obtain rfl := Except.ok.inj built
      exact .cons here (inductionHypothesis.mp later)
    · rintro (_ | ⟨here, later⟩)
      exact ⟨_, here, except_bind_eq_ok.mpr ⟨_, inductionHypothesis.mpr later, rfl⟩⟩

/-- What a loop returned is what its passes returned. -/
theorem except_mem_mapM {Fault Source Result : Type} {compute : Source → Except Fault Result}
    {sources : List Source} {results : List Result} (returned : sources.mapM compute = .ok results)
    {result : Result} :
    result ∈ results ↔ ∃ source ∈ sources, compute source = .ok result := by
  induction except_mapM_eq_ok.mp returned with
  | nil => simp
  | cons here later inductionHypothesis =>
    rw [List.mem_cons, inductionHypothesis (except_mapM_eq_ok.mpr later), List.exists_mem_cons_iff,
      here, Except.ok.injEq, eq_comm]

/-- A loop raises exactly when a pass does. -/
theorem except_mapM_raises_iff {Fault Source Result : Type}
    {compute : Source → Except Fault Result} {sources : List Source} :
    (∃ error, sources.mapM compute = .error error) ↔
      ∃ source ∈ sources, ∃ error, compute source = .error error := by
  induction sources with
  | nil => simp [pure, Except.pure]
  | cons source rest inductionHypothesis =>
    rw [List.mapM_cons, List.exists_mem_cons_iff, ← inductionHypothesis]
    cases compute source with
    | error error => simp [bind, Except.bind]
    | ok head => cases rest.mapM compute <;> simp [bind, Except.bind, pure, Except.pure]

theorem except_mapError_eq_ok {Fault Other Result : Type} {computed : Except Fault Result}
    {transform : Fault → Other} {value : Result} :
    computed.mapError transform = .ok value ↔ computed = .ok value := by
  cases computed <;> simp [Except.mapError]

/-- Every pass of a loop that returned has its result among what the loop returned. -/
theorem except_of_mapM {Fault Source Result : Type} {compute : Source → Except Fault Result}
    {sources : List Source} {results : List Result} (returned : sources.mapM compute = .ok results)
    {source : Source} (member : source ∈ sources) :
    ∃ result ∈ results, compute source = .ok result := by
  cases pass : compute source with
  | error error =>
    obtain ⟨_, raised⟩ := except_mapM_raises_iff.mpr ⟨source, member, error, pass⟩
    rw [returned] at raised
    cases raised
  | ok result => exact ⟨result, (except_mem_mapM returned).mpr ⟨source, member, pass⟩, rfl⟩

/-- Passes that come to the same make loops that come to the same. -/
theorem except_mapM_congr {Fault Source Result : Type} {compute other : Source → Except Fault Result}
    {sources : List Source} (same : ∀ source ∈ sources, compute source = other source) :
    sources.mapM compute = sources.mapM other := by
  induction sources with
  | nil => rw [List.mapM_nil, List.mapM_nil]
  | cons source rest inductionHypothesis =>
    rw [List.mapM_cons, List.mapM_cons, same source List.mem_cons_self,
      inductionHypothesis fun later member => same later (List.mem_cons_of_mem _ member)]

/-- A loop over its sources in another order has its results in another order. -/
theorem except_mapM_perm {Fault Source Result : Type} {compute : Source → Except Fault Result}
    {sources others : List Source} {results : List Result} (perm : sources.Perm others)
    (returned : sources.mapM compute = .ok results) :
    ∃ moved, others.mapM compute = .ok moved ∧ results.Perm moved := by
  obtain ⟨moved, all, same⟩ := List.perm_comp_forall₂ perm.symm (except_mapM_eq_ok.mp returned)
  exact ⟨moved, except_mapM_eq_ok.mpr all, same.symm⟩

/-! ### Exceptions -/

/-- One entry of a pydantic `ValidationError`: the field and what is wrong with it. -/
structure FieldError where
  loc : String
  msg : String
deriving DecidableEq, Repr

/-- The exceptions, by class. `other` is a class the code never names. -/
inductive PyError where
  | poisonEpisode (reason : String) (detail : Option String)
  | transientIngest (message : String)
  | unknownPayloadType (payloadType : PyValue)
  | namespaceValidation (namespaceParts : List String) (invalidParts : List String)
  | identifierValidation (fieldName : String) (value : PyValue)
  | supersessionValidation (message : String) (invalidRef : Option String)
  | validation (title : String) (errors : List FieldError)
  | embedDimension (actual expected : Int)
  | embedRequest (text : String) (statusCode : Option Int) (errorType : Option String)
  | embedService (text : String)
  | embedTimeout (text : String)
  | connectionError (text : String)
  | timeoutError (text : String)
  | valueError (text : String)
  | typeError (text : String)
  | attributeError (text : String)
  | runtimeError (text : String)
  | other (text : String)
deriving Repr, Inhabited

/-- The code returns, with no exception. -/
def Returns {α : Type} (outcome : Except PyError α) : Prop :=
  ∃ result, outcome = .ok result

theorem returns_ok {α : Type} (result : α) : Returns (.ok result : Except PyError α) :=
  ⟨result, rfl⟩

theorem not_returns_error {α : Type} (error : PyError) :
    ¬Returns (.error error : Except PyError α) := by
  rintro ⟨result, impossible⟩
  cases impossible

theorem returns_bind {α β : Type} {outcome : Except PyError α} {next : α → Except PyError β} :
    Returns (outcome >>= next) ↔ ∃ found, outcome = .ok found ∧ Returns (next found) := by
  cases outcome with
  | error error =>
    refine ⟨fun returns => absurd returns (not_returns_error error), ?_⟩
    rintro ⟨found, impossible, -⟩
    cases impossible
  | ok found =>
    refine ⟨fun returns => ⟨found, rfl, returns⟩, ?_⟩
    rintro ⟨other, same, returns⟩
    obtain rfl : found = other := Except.ok.inj same
    exact returns

/-- Whether the rest returns does not depend on what was found. -/
theorem returns_bind_and {α β : Type} {outcome : Except PyError α} {next : α → Except PyError β}
    {rest : Prop} (same : ∀ found, Returns (next found) ↔ rest) :
    Returns (outcome >>= next) ↔ Returns outcome ∧ rest := by
  rw [returns_bind]
  constructor
  · rintro ⟨found, done, returns⟩
    exact ⟨⟨found, done⟩, (same found).mp returns⟩
  · rintro ⟨⟨found, done⟩, holds⟩
    exact ⟨found, done, (same found).mpr holds⟩

/-- A computation that only goes on from another one ends where the other one does. -/
theorem returns_bind_ok {α β : Type} {outcome : Except PyError α} (last : α → β) :
    Returns (outcome >>= fun found => .ok (last found)) ↔ Returns outcome :=
  (returns_bind_and fun _ => iff_true_intro (returns_ok _)).trans (and_iff_left trivial)

/-- What is made of the result does not decide whether there is one. -/
theorem returns_map {α β : Type} {outcome : Except PyError α} {make : α → β} :
    Returns (outcome.map make) ↔ Returns outcome := by
  cases outcome with
  | error error => exact iff_of_false (not_returns_error error) (not_returns_error error)
  | ok result => exact iff_of_true (returns_ok _) (returns_ok result)

/-- A loop returns exactly when every pass does. -/
theorem returns_mapM_iff {Source Result : Type} {compute : Source → Except PyError Result}
    {sources : List Source} :
    Returns (sources.mapM compute) ↔ ∀ source ∈ sources, Returns (compute source) := by
  constructor
  · rintro ⟨results, returned⟩ source member
    obtain ⟨result, -, here⟩ := except_of_mapM returned member
    exact ⟨result, here⟩
  · intro each
    cases run : sources.mapM compute with
    | ok results => exact returns_ok results
    | error error =>
      obtain ⟨source, member, raised, here⟩ := except_mapM_raises_iff.mp ⟨error, run⟩
      obtain ⟨result, returned⟩ := each source member
      cases here.symm.trans returned

/-! ### Integers as text -/

/-- The integers Python converts to text: those of at most 4300 digits. -/
def FewDigits (value : Int) : Prop :=
  value.natAbs < 10 ^ 4300

instance (value : Int) : Decidable (FewDigits value) :=
  inferInstanceAs (Decidable (_ < _))

/-- An integer of a few digits, by a bound that is cheaper to compare with. -/
theorem fewDigits_of_lt {value : Int} {digits : Nat} (short : digits ≤ 4300)
    (small : value.natAbs < 10 ^ digits) : FewDigits value := by
  unfold FewDigits
  exact lt_of_lt_of_le small (Nat.pow_le_pow_right (by decide) short)

-- The power is not to be computed where a proposition is compared with another.
attribute [irreducible] FewDigits

/-- What `str` and `json.dumps` raise on a longer integer. -/
def tooManyDigits : PyError :=
  .valueError ("Exceeds the limit (4300 digits) for integer string conversion; use " ++
    "sys.set_int_max_str_digits() to increase the limit")

/-- `str(value)` of an integer. -/
def intText (value : Int) : Except PyError String :=
  if FewDigits value then .ok (toString value) else .error tooManyDigits

theorem intText_of_fewDigits {value : Int} (few : FewDigits value) :
    intText value = .ok (toString value) :=
  if_pos few

theorem returns_intText_iff (value : Int) : Returns (intText value) ↔ FewDigits value := by
  by_cases few : FewDigits value
  · rw [intText_of_fewDigits few]
    exact iff_of_true (returns_ok _) few
  · rw [intText, if_neg few]
    exact iff_of_false (not_returns_error _) few

namespace Json

mutual

/-- No integer in the value has too many digits. -/
def shortIntegers : PyValue → Bool
  | .int value => decide (FewDigits value)
  | .list items => shortItems items
  | .dict entries => shortEntries entries
  | .none | .bool _ | .float _ | .str _ => true

def shortItems : List PyValue → Bool
  | [] => true
  | item :: rest => shortIntegers item && shortItems rest

def shortEntries : List (String × PyValue) → Bool
  | [] => true
  | (_, value) :: rest => shortIntegers value && shortEntries rest

end

/-- What `json.dumps` comes to, where the text of the value is this one. -/
def dumped (value : PyValue) (text : String) : Except PyError String :=
  if shortIntegers value then .ok text else .error tooManyDigits

end Json

/-- What `json.loads` raises: a `JSONDecodeError`, or another `ValueError` (an integer too long
to convert). The interpreter's recursion limit is not modelled. -/
inductive JsonFailure where
  | decode (text : String)
  | value (text : String)
deriving DecidableEq, Repr

/-! ### The functions outside the repository -/

/-- The functions of the standard library and of installed packages the code calls. A result
about the code holds whatever they are, unless it names what it needs of one. -/
structure Runtime where
  /-- `str(uuid.uuid5(FLEET_MEMORY_NAMESPACE, name))`. -/
  uuid5 : String → String
  /-- `hashlib.sha256(text.encode("utf-8")).digest().hex()`. -/
  sha256 : String → String
  /-- `json.loads(text)`. -/
  loads : String → Except JsonFailure PyValue
  /-- `repr(text)` of a string. -/
  repr : String → String
  /-- `f"{value}"`. -/
  format : PyValue → String
  /-- `re.sub(pattern, replacement, text)`. -/
  sub : String → String → String → String
  /-- The integer pydantic makes of a value, or the message of its refusal. -/
  laxInt : PyValue → Except String Int
  /-- `str(error)` of a pydantic `ValidationError`. -/
  validationText : String → List FieldError → String
  /-- `tiktoken.get_encoding("cl100k_base").encode(text)`. -/
  encode : String → Except PyError (List Nat)
  /-- `tiktoken.get_encoding("cl100k_base").decode(tokens)`. -/
  decode : List Nat → String
  /-- `int(number * ratio)`. -/
  truncatedProduct : Int → PyFloat → Except PyError Int

namespace Runtime

variable (runtime : Runtime)

/-- `repr(value)`. That of a value which is no string is also its text in an f-string. -/
def reprValue : PyValue → String
  | .str text => runtime.repr text
  | value => runtime.format value

/-- `f"{parts}"` of a list of strings. -/
def reprList (parts : List String) : String :=
  "[" ++ String.intercalate ", " (parts.map runtime.repr) ++ "]"

/-- `f"{parts}"` of a tuple of two or more strings. -/
def reprTuple (parts : List String) : String :=
  "(" ++ String.intercalate ", " (parts.map runtime.repr) ++ ")"

/-- The functions on the texts of given tables: `uuid5`, `sha256` and `loads` answer from them, and
a text of one printable character is one token, its place among the printable characters. -/
def ofTables (uuids digests : List (String × String)) (parsed : List (String × PyValue)) :
    Runtime where
  uuid5 name := (uuids.lookup name).getD name
  sha256 text := (digests.lookup text).getD text
  loads text :=
    match parsed.lookup text with
    | some value => .ok value
    | none => .error (.decode "Expecting value: line 1 column 1 (char 0)")
  repr text := "'" ++ text ++ "'"
  format
    | .str text => text
    | value => Json.dumps value
  sub _ _ text := text
  laxInt
    | .int number => .ok number
    | _ => .error "Input should be a valid integer"
  validationText title _ := "validation errors for " ++ title
  encode text := .ok (text.toList.map fun character => character.toNat - 33)
  decode tokens := String.ofList (tokens.map fun token => Char.ofNat (token + 33))
  truncatedProduct _ _ := .ok 0

end Runtime

/-- `if condition: raise error`. -/
def raiseIf (condition : Prop) [Decidable condition] (error : PyError) : Except PyError Unit :=
  if condition then .error error else .ok ()

theorem raiseIf_neg {condition : Prop} [Decidable condition] {error : PyError}
    (holds : ¬condition) : raiseIf condition error = .ok () :=
  if_neg holds

theorem raiseIf_eq_ok {condition : Prop} [Decidable condition] {error : PyError} {done : Unit} :
    raiseIf condition error = .ok done ↔ ¬condition := by
  unfold raiseIf
  split <;> simp [*]

namespace PyError

/-- `str(error)`. -/
def text (runtime : Runtime) : PyError → String
  | poisonEpisode reason none => "Poison episode: " ++ reason
  | poisonEpisode reason (some detail) => "Poison episode: " ++ reason ++ " - " ++ detail
  | transientIngest message => "Transient ingest error: " ++ message
  | unknownPayloadType payloadType => "Unknown payload type '" ++ runtime.format payloadType ++
      "': not found in dispatch registry. Lookup is case-sensitive."
  | namespaceValidation namespaceParts invalidParts =>
      "Invalid namespace identifiers " ++ runtime.reprList invalidParts ++
      ": must use underscores only (match ^[a-z0-9_]+$), got namespace " ++
      runtime.reprTuple namespaceParts
  | identifierValidation fieldName value =>
      if value.truthy then
        "Invalid " ++ fieldName ++ " identifier '" ++ runtime.format value ++
          "': identifiers must use underscores only (match ^[a-zA-Z0-9_]+$)"
      else fieldName ++ " identifier is required and cannot be empty"
  | supersessionValidation message _ => message
  | validation title errors => runtime.validationText title errors
  | embedDimension actual expected => "Embedding dimension mismatch: got " ++ toString actual ++
      " dimensions, expected " ++ toString expected
  | embedRequest text _ _ => text
  | embedService text => text
  | embedTimeout text => text
  | connectionError text => text
  | timeoutError text => text
  | valueError text => text
  | typeError text => text
  | attributeError text => text
  | runtimeError text => text
  | other text => text

/-- `isinstance(error, TimeoutError)`. -/
def isTimeoutError : PyError → Bool
  | timeoutError _ => true
  | embedTimeout _ => true
  | _ => false

/-- `isinstance(error, EmbedServiceError)`. -/
def isEmbedServiceError : PyError → Bool
  | embedService _ => true
  | embedRequest .. => true
  | _ => false

/-- `isinstance(error, ValueError)`. -/
def isValueError : PyError → Bool
  | valueError _ => true
  | unknownPayloadType _ => true
  | namespaceValidation .. => true
  | identifierValidation .. => true
  | supersessionValidation .. => true
  | validation .. => true
  | embedDimension .. => true
  | _ => false

end PyError

end FleetMemory
