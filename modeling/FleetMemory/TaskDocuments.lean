/-
This file models how a walked document becomes a payload or is refused: it is classified
by its path and its front matter, and a publishable one is parsed into a build outcome. The
YAML library is a parameter. A document is refused with a reason, except where the library
raises what the classification does not catch.
-/

import FleetMemory.CorpusManifest
import FleetMemory.Markdown

namespace FleetMemory

open PosixPath Markdown

/-! ### YAML -/

/-- A value `yaml.safe_load` returns. `other` is a date, a set or bytes, with its truth value. -/
inductive YamlValue where
  | none
  | bool (value : Bool)
  | int (value : Int)
  | float (value : PyFloat)
  | str (value : String)
  | list (items : List YamlValue)
  | dict (entries : List (YamlValue × YamlValue))
  | other (truth : Bool) (text : String)

namespace YamlValue

/-- `bool(value)`. -/
def truthy : YamlValue → Bool
  | none => false
  | bool value => value
  | int value => value != 0
  | float value => value.repr != "0.0" && value.repr != "-0.0"
  | str value => !value.isEmpty
  | list items => !items.isEmpty
  | dict entries => !entries.isEmpty
  | other truth _ => truth

/-- The value is the given string. -/
def isText (text : String) : YamlValue → Bool
  | str value => value == text
  | _ => false

end YamlValue

/-- A mapping of YAML. -/
abbrev YamlDict := List (YamlValue × YamlValue)

namespace YamlDict

/-- `mapping.get(name)`. -/
def get (entries : YamlDict) (name : String) : Option YamlValue :=
  (entries.find? fun entry => entry.1.isText name).map (·.2)

end YamlDict

/-- What `yaml.safe_load` raises: a `YAMLError`, or a `ValueError` of a constructor (an impossible
date). -/
inductive YamlFailure where
  | yamlError (text : String)
  | valueError (text : String)

/-- The YAML library, and `str` of its values. -/
structure YamlLibrary where
  /-- `yaml.safe_load(text)`. -/
  safeLoad : String → Except YamlFailure YamlValue
  /-- `str(value)` of a value that is no string, which raises on an integer too long to print. -/
  format : YamlValue → Except PyError String

namespace YamlLibrary

variable (yaml : YamlLibrary)

/-- `str(value)`. -/
def str : YamlValue → Except PyError String
  | .str text => .ok text
  | value => yaml.format value

/-- `extract_frontmatter`, with `None` for a text without front matter. -/
def extractFrontmatter (text : String) : Except YamlFailure YamlValue :=
  match frontmatterBlock text with
  | none => .ok .none
  | some yamlContent => yaml.safeLoad yamlContent

/-- `str(frontmatter.get("status", "")).strip()`. -/
def statusOf (frontmatter : YamlDict) : Except PyError String :=
  match frontmatter.get "status" with
  | none => .ok ""
  | some status => (yaml.str status).map Text.strip

end YamlLibrary

/-! ### Classification -/

/-- A walked document: its resolved path below the corpus root, and its text. -/
structure CorpusDocument where
  path : String
  text : String

/-- `_repo_relative_path`, and `_relative_path`, of a path inside the corpus root. -/
def CorpusDocument.relativePath (doc : CorpusDocument) : String :=
  forwardSlashes doc.path

def terminalStatuses : List String := ["completed", "review_complete", "closed", "superseded"]

def agentDefinitionKeys : List String := ["name", "model", "tools"]

/-- Every key of an agent definition is a key of the front matter. -/
def agentDefinition (frontmatter : YamlDict) : Bool :=
  agentDefinitionKeys.all fun key => (frontmatter.get key).isSome

/-- `frontmatter.get("id")` is truthy. -/
def hasId (frontmatter : YamlDict) : Bool :=
  ((frontmatter.get "id").map YamlValue.truthy).getD false

structure Classification where
  kind : Option String := none
  frontmatter : Option YamlDict := none
  skipReason : Option String := none

/-- The reason a status that is not terminal is reported with. -/
def shownStatus (status : String) : String :=
  if status.isEmpty then "(missing)" else status

section

variable (runtime : Runtime) (yaml : YamlLibrary)

/-- `classify_document`. -/
def classifyDocument (manifest : CorpusManifest) (doc : CorpusDocument) :
    Except PyError Classification :=
  match manifest.resolveKind doc.relativePath with
  | none => .ok { skipReason := some "path outside manifest roots" }
  | some (kind, owner) =>
    if owner ≠ "reindex" then .ok { skipReason := some ("harvest-owned kind: " ++ kind) }
    else
      match yaml.extractFrontmatter doc.text with
      | .error (.yamlError _) => .ok { skipReason := some "bad YAML" }
      | .error (.valueError text) => .error (.valueError text)
      | .ok .none => .ok { skipReason := some "no front-matter" }
      | .ok (.dict frontmatter) =>
        if agentDefinition frontmatter then
          .ok { frontmatter,
                skipReason := some "agent-definition shape (name/model/tools keys)" }
        else if !hasId frontmatter then
          .ok { frontmatter, skipReason := some "front-matter without id" }
        else do
          let status ← yaml.statusOf frontmatter
          if status.toLower ∉ terminalStatuses then
            return { frontmatter,
                     skipReason := some ("non-terminal status: " ++ shownStatus status) }
          else return { kind, frontmatter }
      | .ok _ => .ok { skipReason := some "front-matter without id" }

/-! ### Parsing -/

/-- The characters of `re.sub(r"[^A-Za-z0-9_]+", "_", value)`. -/
def replaceRuns (inRun : Bool) : List Char → List Char
  | [] => []
  | character :: rest =>
    if Text.word character then character :: replaceRuns false rest
    else if inRun then replaceRuns true rest
    else '_' :: replaceRuns true rest

/-- `sanitize_identifier`. -/
def sanitizeIdentifier (value : String) : String :=
  let cleaned := String.ofList
    (((replaceRuns false value.toList).dropWhile (· == '_')).rdropWhile (· == '_'))
  if cleaned.isEmpty then "unknown" else cleaned

/-- `_normalize_tags`. -/
def normalizeTags : Option YamlValue → Except PyError (List String)
  | some (.list items) => items.mapM yaml.str
  | some (.str text) => .ok (if Text.blank text then [] else [Text.strip text])
  | _ => .ok []

/-- What `parse_completed_task` returns: a payload, or the reason of an `UnparseableDocument`. -/
inductive ParseResult where
  | parsed (payload : Payload)
  | unparseable (reason : String)

/-- The keyword arguments of the build outcome of a completed task. -/
def outcomeArguments (identifier sourceRef : String) (lessons : Option String)
    (domainTags : List String) : PyDict :=
  [("project", .str "guardkit"), ("identifier", .str identifier), ("status", .str "success"),
    ("duration_seconds", .int 0), ("task_id", .str identifier),
    ("lessons", match lessons with | some text => .str text | none => .none),
    ("domain_tags", .list (domainTags.map .str)), ("source_ref", .str sourceRef)]

/-- `parse_completed_task` of a document with the front matter found for it. -/
def parseCompletedTask (doc : CorpusDocument) (frontmatter : YamlDict) :
    Except PyError ParseResult :=
  match frontmatter.get "id" with
  | none => .ok (.unparseable "Missing required field: id")
  | some rawId =>
    if !rawId.truthy then .ok (.unparseable "Missing required field: id")
    else do
      let rawStatus ← yaml.statusOf frontmatter
      if rawStatus.toLower ∉ terminalStatuses then
        return .unparseable ("Non-terminal status: " ++ shownStatus rawStatus)
      else do
        let identifier := sanitizeIdentifier (← yaml.str rawId)
        let tags ← normalizeTags yaml (frontmatter.get "tags")
        let domainTags := tags ++ ["task", "fm-status:" ++ rawStatus]
        match BuildOutcomePayload.init runtime (outcomeArguments identifier doc.relativePath
            (extractLessons doc.text) domainTags) with
        | .ok payload => return .parsed payload
        | .error (.identifierValidation fieldName value) =>
          return .unparseable ("Identifier validation failed: " ++
            (PyError.identifierValidation fieldName value).text runtime)
        | .error error => .error error

end

end FleetMemory
