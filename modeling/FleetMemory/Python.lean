/-
This file models the Python values the code handles: what `json.loads` yields, what a
payload dict holds, and what `json.dumps` renders. A float is carried as its `repr`,
since no arithmetic is done on one here.
-/

import FleetMemory.Text

namespace FleetMemory

/-- A Python float, as its `repr`. -/
structure PyFloat where
  repr : String
deriving DecidableEq, Repr

/-- A Python value of the kinds JSON has. -/
inductive PyValue where
  | none
  | bool (value : Bool)
  | int (value : Int)
  | float (value : PyFloat)
  | str (value : String)
  | list (items : List PyValue)
  | dict (entries : List (String × PyValue))
deriving Repr, Inhabited

namespace PyValue

/-- `type(value).__name__`. -/
def typeName : PyValue → String
  | none => "NoneType"
  | bool _ => "bool"
  | int _ => "int"
  | float _ => "float"
  | str _ => "str"
  | list _ => "list"
  | dict _ => "dict"

/-- `bool(value)`. -/
def truthy : PyValue → Bool
  | none => false
  | bool value => value
  | int value => value != 0
  | float value => value.repr != "0.0" && value.repr != "-0.0"
  | str value => !value.isEmpty
  | list items => !items.isEmpty
  | dict entries => !entries.isEmpty

/-- `hash(value)` raises on these. -/
def unhashable : PyValue → Bool
  | list _ => true
  | dict _ => true
  | _ => false

/-- The keyword arguments a call unpacks from a value, `none` when it is not a mapping. -/
def entries? : PyValue → Option (List (String × PyValue))
  | dict entries => some entries
  | _ => Option.none

end PyValue

/-- A dict with string keys. A key occurs once, as in Python. -/
abbrev PyDict := List (String × PyValue)

namespace PyDict

/-- `entries.get(name)`. -/
def get (entries : PyDict) (name : String) : Option PyValue :=
  entries.lookup name

/-- `entries[name] = value`. -/
def set (entries : PyDict) (name : String) (value : PyValue) : PyDict :=
  match entries with
  | [] => [(name, value)]
  | entry :: rest => if entry.1 = name then (name, value) :: rest else entry :: set rest name value

theorem get_cons (entry : String × PyValue) (rest : PyDict) (name : String) :
    get (entry :: rest) name = if name = entry.1 then some entry.2 else get rest name := by
  unfold get
  rw [List.lookup_cons]
  split
  · rename_i same
    rw [if_pos (beq_iff_eq.mp same)]
  · rename_i different
    rw [if_neg (by simpa using different)]

theorem get_set_self (entries : PyDict) (name : String) (value : PyValue) :
    (entries.set name value).get name = some value := by
  induction entries with
  | nil => simp [set, get_cons]
  | cons entry rest inductionHypothesis =>
    by_cases same : entry.1 = name
    · simp [set, same, get_cons]
    · rw [set, if_neg same, get_cons, if_neg (fun equal => same equal.symm), inductionHypothesis]

theorem get_set_other (entries : PyDict) {name other : String} (value : PyValue)
    (different : other ≠ name) : (entries.set name value).get other = entries.get other := by
  induction entries with
  | nil => simp [set, get_cons, different]
  | cons entry rest inductionHypothesis =>
    by_cases same : entry.1 = name
    · rw [set, if_pos same, get_cons, get_cons, if_neg different, if_neg (same ▸ different)]
    · rw [set, if_neg same, get_cons, get_cons, inductionHypothesis]

/-- An entry of a dict whose names are distinct is found under its name. -/
theorem get_of_mem {entries : PyDict} (distinct : (entries.map Prod.fst).Nodup) {name : String}
    {value : PyValue} (member : (name, value) ∈ entries) : get entries name = some value := by
  induction entries with
  | nil => cases member
  | cons entry rest inductionHypothesis =>
    obtain ⟨fresh, others⟩ := List.nodup_cons.mp distinct
    rw [get_cons]
    rcases List.mem_cons.mp member with rfl | later
    · exact if_pos rfl
    · rw [if_neg, inductionHypothesis others later]
      rintro rfl
      exact fresh (List.mem_map.mpr ⟨_, later, rfl⟩)

/-- What is found under a name is an entry. -/
theorem mem_of_get {entries : PyDict} {name : String} {value : PyValue}
    (found : get entries name = some value) : (name, value) ∈ entries := by
  obtain ⟨before, after, rfl, -⟩ := List.lookup_eq_some_iff.mp found
  simp

theorem get_of_not_mem {entries : PyDict} {name : String} (absent : name ∉ entries.map Prod.fst) :
    get entries name = none := by
  refine List.lookup_eq_none_iff.mpr fun entry member => ?_
  have different : name ≠ entry.1 := fun same => absent (List.mem_map.mpr ⟨entry, member, same.symm⟩)
  simpa using different

end PyDict

/-- `text or default`. -/
def orDefault (text : Option String) (default : String) : String :=
  match text with
  | none => default
  | some text => if text = "" then default else text

/-! ### `json.dumps(value, sort_keys=True, separators=(",", ":"))` -/

namespace Json

/-- A hexadecimal digit. -/
def hexDigit (digit : Nat) : Char :=
  "0123456789abcdef".toList.getD digit '0'

/-- The escape of one UTF-16 code unit. -/
def escapeUnit (unit : Nat) : List Char :=
  ['\\', 'u', hexDigit (unit / 4096 % 16), hexDigit (unit / 256 % 16), hexDigit (unit / 16 % 16),
    hexDigit (unit % 16)]

/-- One character of an ASCII-only JSON string. -/
def escapeChar (character : Char) : List Char :=
  let code := character.toNat
  if character = '"' then ['\\', '"']
  else if character = '\\' then ['\\', '\\']
  else if character = '\n' then ['\\', 'n']
  else if character = '\r' then ['\\', 'r']
  else if character = '\t' then ['\\', 't']
  else if code = 0x0C then ['\\', 'f']
  else if code = 0x08 then ['\\', 'b']
  else if 0x20 ≤ code && code ≤ 0x7E then [character]
  else if code < 0x10000 then escapeUnit code
  else escapeUnit (0xD800 + (code - 0x10000) / 0x400) ++
    escapeUnit (0xDC00 + (code - 0x10000) % 0x400)

def quote (text : String) : String :=
  String.ofList ('"' :: text.toList.flatMap escapeChar ++ ['"'])

def number (value : PyFloat) : String :=
  if value.repr = "nan" then "NaN"
  else if value.repr = "inf" then "Infinity"
  else if value.repr = "-inf" then "-Infinity"
  else value.repr

/-- Insert a rendered entry before the first one with a greater key. -/
def insertEntry (entry : String × String) : List (String × String) → List (String × String)
  | [] => [entry]
  | other :: rest => if entry.1 < other.1 then entry :: other :: rest
    else other :: insertEntry entry rest

/-- The rendered entries in the order of their keys. -/
def sortEntries (entries : List (String × String)) : List (String × String) :=
  entries.foldr insertEntry []

mutual

def dumps : PyValue → String
  | .none => "null"
  | .bool true => "true"
  | .bool false => "false"
  | .int value => toString value
  | .float value => number value
  | .str value => quote value
  | .list items => "[" ++ String.intercalate "," (dumpsItems items) ++ "]"
  | .dict entries => "\x7b" ++ String.intercalate ","
      ((sortEntries (dumpsEntries entries)).map fun entry => quote entry.1 ++ ":" ++ entry.2) ++ "\x7d"

def dumpsItems : List PyValue → List String
  | [] => []
  | item :: rest => dumps item :: dumpsItems rest

def dumpsEntries : List (String × PyValue) → List (String × String)
  | [] => []
  | (name, value) :: rest => (name, dumps value) :: dumpsEntries rest

end

end Json

end FleetMemory
