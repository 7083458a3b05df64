/-
This file models `json.dumps` with separators of its own, and proves that `json.loads` gives back
what was rendered, with the entries of every dict in the order of their keys.
-/

import FleetMemory.Errors
import FleetMemory.JsonReader
import Mathlib.Data.List.Perm.Basic
import Mathlib.Data.String.Basic

namespace FleetMemory

namespace Json

/-! ### `json.dumps` with separators of its own -/

mutual

/-- `json.dumps(value, sort_keys=True, separators=(itemSeparator, keySeparator))`. -/
def dumpsWith (itemSeparator keySeparator : String) : PyValue → String
  | .none => "null"
  | .bool true => "true"
  | .bool false => "false"
  | .int value => toString value
  | .float value => number value
  | .str value => quote value
  | .list items =>
    "[" ++ String.intercalate itemSeparator (dumpsItemsWith itemSeparator keySeparator items) ++ "]"
  | .dict entries => "\x7b" ++ String.intercalate itemSeparator
      ((sortEntries (dumpsEntriesWith itemSeparator keySeparator entries)).map fun entry =>
        quote entry.1 ++ keySeparator ++ entry.2) ++ "\x7d"

def dumpsItemsWith (itemSeparator keySeparator : String) : List PyValue → List String
  | [] => []
  | item :: rest =>
    dumpsWith itemSeparator keySeparator item :: dumpsItemsWith itemSeparator keySeparator rest

def dumpsEntriesWith (itemSeparator keySeparator : String) :
    List (String × PyValue) → List (String × String)
  | [] => []
  | (name, value) :: rest =>
    (name, dumpsWith itemSeparator keySeparator value) ::
      dumpsEntriesWith itemSeparator keySeparator rest

end

mutual

/-- The canonical separators are the ones the writers use. -/
theorem dumpsWith_canonical : (value : PyValue) → dumpsWith "," ":" value = dumps value
  | .none | .bool true | .bool false | .int _ | .float _ | .str _ => by rw [dumpsWith, dumps]
  | .list items => by rw [dumpsWith, dumps, dumpsItemsWith_canonical items]
  | .dict entries => by rw [dumpsWith, dumps, dumpsEntriesWith_canonical entries]

theorem dumpsItemsWith_canonical :
    (items : List PyValue) → dumpsItemsWith "," ":" items = dumpsItems items
  | [] => by rw [dumpsItemsWith, dumpsItems]
  | item :: rest => by
    rw [dumpsItemsWith, dumpsItems, dumpsWith_canonical item, dumpsItemsWith_canonical rest]

theorem dumpsEntriesWith_canonical :
    (entries : List (String × PyValue)) → dumpsEntriesWith "," ":" entries = dumpsEntries entries
  | [] => by rw [dumpsEntriesWith, dumpsEntries]
  | (name, value) :: rest => by
    rw [dumpsEntriesWith, dumpsEntries, dumpsWith_canonical value, dumpsEntriesWith_canonical rest]

end

theorem dumpsItemsWith_eq (itemSeparator keySeparator : String) (items : List PyValue) :
    dumpsItemsWith itemSeparator keySeparator items =
      items.map (dumpsWith itemSeparator keySeparator) := by
  induction items with
  | nil => rw [dumpsItemsWith, List.map_nil]
  | cons item rest inductionHypothesis => rw [dumpsItemsWith, inductionHypothesis, List.map_cons]

theorem dumpsEntriesWith_eq (itemSeparator keySeparator : String) (entries : PyDict) :
    dumpsEntriesWith itemSeparator keySeparator entries =
      entries.map fun entry => (entry.1, dumpsWith itemSeparator keySeparator entry.2) := by
  induction entries with
  | nil => rw [dumpsEntriesWith, List.map_nil]
  | cons entry rest inductionHypothesis =>
    obtain ⟨name, value⟩ := entry
    rw [dumpsEntriesWith, inductionHypothesis, List.map_cons]

/-! ### Entries in the order of their keys -/

/-- Insert an entry before the first one with a greater key. -/
def insertByKey {α : Type} (entry : String × α) : List (String × α) → List (String × α)
  | [] => [entry]
  | other :: rest => if entry.1 < other.1 then entry :: other :: rest
    else other :: insertByKey entry rest

/-- The entries in the order of their keys. -/
def sortByKey {α : Type} (entries : List (String × α)) : List (String × α) :=
  entries.foldr insertByKey []

section

variable {α : Type}

theorem insertEntry_map (render : α → String) (entry : String × α) (entries : List (String × α)) :
    insertEntry (entry.1, render entry.2) (entries.map fun other => (other.1, render other.2)) =
      (insertByKey entry entries).map fun other => (other.1, render other.2) := by
  induction entries with
  | nil => rfl
  | cons other rest inductionHypothesis =>
    rw [List.map_cons, insertEntry, insertByKey]
    split
    · rfl
    · rw [inductionHypothesis, List.map_cons]

theorem sortEntries_map (render : α → String) (entries : List (String × α)) :
    sortEntries (entries.map fun entry => (entry.1, render entry.2)) =
      (sortByKey entries).map fun entry => (entry.1, render entry.2) := by
  induction entries with
  | nil => rfl
  | cons entry rest inductionHypothesis =>
    rw [sortEntries, List.map_cons, List.foldr_cons, sortByKey, List.foldr_cons, ← insertEntry_map]
    exact congrArg (insertEntry (entry.1, render entry.2)) inductionHypothesis

theorem insertByKey_perm (entry : String × α) (entries : List (String × α)) :
    (insertByKey entry entries).Perm (entry :: entries) := by
  induction entries with
  | nil => exact List.Perm.refl _
  | cons other rest inductionHypothesis =>
    rw [insertByKey]
    split
    · exact List.Perm.refl _
    · exact (inductionHypothesis.cons other).trans (List.Perm.swap _ _ _)

theorem sortByKey_perm (entries : List (String × α)) : (sortByKey entries).Perm entries := by
  induction entries with
  | nil => exact List.Perm.refl _
  | cons entry rest inductionHypothesis =>
    exact (insertByKey_perm entry _).trans (inductionHypothesis.cons entry)

/-- The entries stand in the order of their keys, each key once. -/
def Ordered (entries : List (String × α)) : Prop :=
  entries.Pairwise fun first second => first.1 < second.1

theorem sortByKey_of_ordered {entries : List (String × α)} (ordered : Ordered entries) :
    sortByKey entries = entries := by
  induction entries with
  | nil => rfl
  | cons entry rest inductionHypothesis =>
    obtain ⟨before, following⟩ := List.pairwise_cons.mp ordered
    show insertByKey entry (sortByKey rest) = entry :: rest
    rw [inductionHypothesis following]
    cases rest with
    | nil => rfl
    | cons other others => rw [insertByKey, if_pos (before other List.mem_cons_self)]

theorem ordered_insertByKey {entry : String × α} {entries : List (String × α)}
    (ordered : Ordered entries) (fresh : entry.1 ∉ entries.map Prod.fst) :
    Ordered (insertByKey entry entries) := by
  induction entries with
  | nil => exact List.pairwise_singleton _ _
  | cons other rest inductionHypothesis =>
    obtain ⟨before, following⟩ := List.pairwise_cons.mp ordered
    rw [List.map_cons, List.mem_cons, not_or] at fresh
    rw [insertByKey]
    split
    · rename_i first
      refine List.pairwise_cons.mpr ⟨fun later member => ?_, ordered⟩
      rcases List.mem_cons.mp member with rfl | inside
      · exact first
      · exact lt_trans first (before later inside)
    · rename_i notFirst
      have after : other.1 < entry.1 := lt_of_le_of_ne (not_lt.mp notFirst) (Ne.symm fresh.1)
      refine List.pairwise_cons.mpr ⟨fun later member => ?_, inductionHypothesis following fresh.2⟩
      rcases List.mem_cons.mp ((insertByKey_perm entry rest).mem_iff.mp member) with rfl | inside
      · exact after
      · exact before later inside

theorem ordered_sortByKey {entries : List (String × α)}
    (distinct : (entries.map Prod.fst).Nodup) : Ordered (sortByKey entries) := by
  induction entries with
  | nil => exact List.Pairwise.nil
  | cons entry rest inductionHypothesis =>
    obtain ⟨fresh, others⟩ := List.nodup_cons.mp distinct
    refine ordered_insertByKey (inductionHypothesis others) fun member => fresh ?_
    exact ((sortByKey_perm rest).map Prod.fst).mem_iff.mp member

end

mutual

/-- The value with the entries of its dicts in the order of their keys. -/
def canonical : PyValue → PyValue
  | .list items => .list (canonicalItems items)
  | .dict entries => .dict (sortByKey (canonicalEntries entries))
  | .none => .none
  | .bool value => .bool value
  | .int value => .int value
  | .float value => .float value
  | .str value => .str value

def canonicalItems : List PyValue → List PyValue
  | [] => []
  | item :: rest => canonical item :: canonicalItems rest

def canonicalEntries : List (String × PyValue) → List (String × PyValue)
  | [] => []
  | (name, value) :: rest => (name, canonical value) :: canonicalEntries rest

end

theorem canonicalItems_eq (items : List PyValue) : canonicalItems items = items.map canonical := by
  induction items with
  | nil => rw [canonicalItems, List.map_nil]
  | cons item rest inductionHypothesis => rw [canonicalItems, inductionHypothesis, List.map_cons]

theorem canonicalEntries_eq (entries : PyDict) :
    canonicalEntries entries = entries.map fun entry => (entry.1, canonical entry.2) := by
  induction entries with
  | nil => rw [canonicalEntries, List.map_nil]
  | cons entry rest inductionHypothesis =>
    obtain ⟨name, value⟩ := entry
    rw [canonicalEntries, inductionHypothesis, List.map_cons]

/-- Sorting by key does not look at the values. -/
theorem sortByKey_map {α β : Type} (render : α → β) (entries : List (String × α)) :
    sortByKey (entries.map fun entry => (entry.1, render entry.2)) =
      (sortByKey entries).map fun entry => (entry.1, render entry.2) := by
  have inserted (entry : String × α) (others : List (String × α)) :
      insertByKey (entry.1, render entry.2) (others.map fun other => (other.1, render other.2)) =
        (insertByKey entry others).map fun other => (other.1, render other.2) := by
    induction others with
    | nil => rfl
    | cons other rest inductionHypothesis =>
      rw [List.map_cons, insertByKey, insertByKey]
      split
      · rfl
      · rw [inductionHypothesis, List.map_cons]
  induction entries with
  | nil => rfl
  | cons entry rest inductionHypothesis =>
    rw [sortByKey, List.map_cons, List.foldr_cons, sortByKey, List.foldr_cons, ← inserted]
    exact congrArg (insertByKey (entry.1, render entry.2)) inductionHypothesis

/-- The canonical dict has the canonical values under the same names. -/
theorem get_canonicalEntries {entries : PyDict} (distinct : (entries.map Prod.fst).Nodup)
    (name : String) : PyDict.get (sortByKey (canonicalEntries entries)) name =
      (PyDict.get entries name).map canonical := by
  have sorted := sortByKey_perm entries
  have names : ((sortByKey entries).map fun entry => (entry.1, canonical entry.2)).map Prod.fst =
      (sortByKey entries).map Prod.fst := by
    rw [List.map_map]
    rfl
  rw [canonicalEntries_eq, sortByKey_map]
  by_cases member : name ∈ entries.map Prod.fst
  · obtain ⟨⟨key, value⟩, listed, same⟩ := List.mem_map.mp member
    have here : (key, canonical value) ∈
        (sortByKey entries).map fun entry => (entry.1, canonical entry.2) :=
      List.mem_map.mpr ⟨(key, value), sorted.mem_iff.mpr listed, rfl⟩
    rw [← same, PyDict.get_of_mem distinct listed, Option.map_some, PyDict.get_of_mem _ here]
    rw [names]
    exact (sorted.map Prod.fst).nodup_iff.mpr distinct
  · rw [PyDict.get_of_not_mem member, PyDict.get_of_not_mem]
    · rfl
    · rw [names]
      exact fun listed => member ((sorted.map Prod.fst).mem_iff.mp listed)

/-! ### What is rendered is read back -/

/-- A float whose `repr` is read as itself. -/
def IsFloat (floatOf : String → PyFloat) (value : PyFloat) : Prop :=
  (value.repr = "nan" ∨ value.repr = "inf" ∨ value.repr = "-inf") ∨
    floatOf value.repr = value ∧ ∃ sign digits fraction exponent,
      value.repr.toList = sign ++ digits ++ fraction ++ exponent ∧ (sign = [] ∨ sign = ['-']) ∧
        Whole digits ∧ IsFraction fraction ∧ IsExponent exponent ∧ ¬(fraction = [] ∧ exponent = [])

/-- A float whose `repr` is digits, a point and digits is read as itself. -/
theorem isFloat_of_point {value : PyFloat} {digits fraction : List Char}
    (spelled : value.repr.toList = digits ++ '.' :: fraction) (whole : Whole digits)
    (nonempty : fraction ≠ []) (all : ∀ character ∈ fraction, character.isDigit = true) :
    IsFloat PyFloat.mk value :=
  Or.inr ⟨rfl, [], digits, '.' :: fraction, [], by simp [spelled], Or.inl rfl, whole,
    Or.inr ⟨fraction, nonempty, all, rfl⟩, Or.inl rfl, by simp⟩

/-- A value whose dicts have each key once and whose floats are read as themselves. -/
inductive Plain (floatOf : String → PyFloat) : PyValue → Prop where
  | none : Plain floatOf .none
  | bool (value : Bool) : Plain floatOf (.bool value)
  | int (value : Int) : Plain floatOf (.int value)
  | float (value : PyFloat) (readable : IsFloat floatOf value) : Plain floatOf (.float value)
  | str (value : String) : Plain floatOf (.str value)
  | list (items : List PyValue) (each : ∀ item ∈ items, Plain floatOf item) :
      Plain floatOf (.list items)
  | dict (entries : PyDict) (distinct : (entries.map Prod.fst).Nodup)
      (each : ∀ entry ∈ entries, Plain floatOf entry.2) : Plain floatOf (.dict entries)

/-- A separator is its mark, with blanks after it. -/
def Separates (mark : Char) (separator : String) : Prop :=
  ∃ blanks, separator.toList = mark :: blanks ∧ ∀ character ∈ blanks, isBlank character = true

/-- The numeral of an integer is its sign and its digits. -/
theorem toList_toString_int (value : Int) : ∃ sign digits,
    (toString value).toList = sign ++ digits ∧ (sign = [] ∨ sign = ['-']) ∧ Whole digits ∧
      wholeValue sign digits = value := by
  have whole (number : Nat) : Whole (Nat.toDigits 10 number) := by
    refine ⟨Nat.toDigits_ne_nil, fun character member =>
      Nat.isDigit_of_mem_toDigits (by decide) (by decide) member, ?_⟩
    induction number using Nat.strongRecOn with
    | ind number inductionHypothesis =>
      by_cases small : number < 10
      · rw [Nat.toDigits_of_lt_base small]
        have each : ∀ digit < 10, [Nat.digitChar digit] = ['0'] ∨
            [Nat.digitChar digit].head? ≠ some '0' := by
          decide
        exact each number small
      · rw [Nat.toDigits_of_base_le (by decide) (not_lt.mp small)]
        have fewer : number / 10 < number := by omega
        have nonzero : number / 10 ≠ 0 := by omega
        right
        rcases inductionHypothesis _ fewer with zero | leading
        · have digits := @Nat.ofDigitChars_ten_toDigits (number / 10)
          rw [zero] at digits
          exact absurd digits.symm nonzero
        · obtain ⟨first, others, same⟩ :=
            List.exists_cons_of_ne_nil (Nat.toDigits_ne_nil (n := number / 10) (b := 10))
          rw [same] at leading ⊢
          exact leading
  rw [Int.toString_eq_repr, Int.repr_eq_if]
  split
  · rename_i nonnegative
    refine ⟨[], Nat.toDigits 10 value.toNat, ?_, Or.inl rfl, whole _, ?_⟩
    · rw [Nat.toList_repr, List.nil_append]
    · rw [wholeValue, if_pos rfl, Nat.ofDigitChars_ten_toDigits]
      omega
  · rename_i negative
    refine ⟨['-'], Nat.toDigits 10 (-value).toNat, ?_, Or.inr rfl, whole _, ?_⟩
    · rw [String.toList_append, Nat.toList_repr]
      rfl
    · rw [wholeValue, if_neg (by decide), Nat.ofDigitChars_ten_toDigits]
      omega

section

variable {floatOf : String → PyFloat} {itemSeparator keySeparator : String}

/-- The text of a value is read as the value, whatever follows. -/
def Reads (floatOf : String → PyFloat) (itemSeparator keySeparator : String) (value : PyValue) :
    Prop :=
  ∀ fuel rest, Ends rest → (dumpsWith itemSeparator keySeparator value).toList.length ≤ fuel →
    readValue floatOf fuel ((dumpsWith itemSeparator keySeparator value).toList ++ rest) =
      some (canonical value, rest)

theorem ends_cons {mark : Char} (apart : mark ∈ [',', ']', '\x7d']) (rest : List Char) :
    Ends (mark :: rest) := by
  intro character head
  obtain rfl : mark = character := Option.some.inj head
  simp only [List.mem_cons, List.not_mem_nil, or_false] at apart
  rcases apart with rfl | rfl | rfl <;> decide

/-- The text of a value begins with no blank and closes no list. -/
theorem head_dumpsWith {value : PyValue} (plain : Plain floatOf value) :
    ∃ first others, (dumpsWith itemSeparator keySeparator value).toList = first :: others ∧
      isBlank first = false ∧ first ≠ ']' := by
  have numeral {sign digits : List Char} (more : List Char) (signed : sign = [] ∨ sign = ['-'])
      (whole : Whole digits) : ∃ first others, sign ++ digits ++ more = first :: others ∧
        isBlank first = false ∧ first ≠ ']' := by
    obtain ⟨first, others, same, begins⟩ := head_number signed whole
    refine ⟨first, others ++ more, by rw [same, List.cons_append], ?_, ?_⟩
    · by_contra blank
      simp only [isBlank, Bool.or_eq_true, decide_eq_true_eq, Bool.not_eq_false] at blank
      rcases blank with ((rfl | rfl) | rfl) | rfl <;> exact absurd begins (by decide)
    · rintro rfl
      exact absurd begins (by decide)
  cases plain with
  | none => exact ⟨'n', ['u', 'l', 'l'], by rw [dumpsWith]; rfl, by decide, by decide⟩
  | bool value =>
    cases value with
    | true => exact ⟨'t', ['r', 'u', 'e'], by rw [dumpsWith]; rfl, by decide, by decide⟩
    | false => exact ⟨'f', ['a', 'l', 's', 'e'], by rw [dumpsWith]; rfl, by decide, by decide⟩
  | int value =>
    obtain ⟨sign, digits, same, signed, whole, -⟩ := toList_toString_int value
    rw [dumpsWith, same, ← List.append_nil (sign ++ digits)]
    exact numeral [] signed whole
  | float value readable =>
    rw [dumpsWith, number]
    rcases readable with special | ⟨-, sign, digits, fraction, exponent, same, signed, whole, -⟩
    · rcases special with same | same | same <;> rw [same]
      · exact ⟨'N', ['a', 'N'], by simp, by decide, by decide⟩
      · exact ⟨'I', ['n', 'f', 'i', 'n', 'i', 't', 'y'], by simp, by decide, by decide⟩
      · exact ⟨'-', ['I', 'n', 'f', 'i', 'n', 'i', 't', 'y'], by simp, by decide, by decide⟩
    · have plainly := numeral (fraction ++ exponent) signed whole
      rw [← List.append_assoc, ← same] at plainly
      split_ifs
      · exact ⟨'N', ['a', 'N'], by simp, by decide, by decide⟩
      · exact ⟨'I', ['n', 'f', 'i', 'n', 'i', 't', 'y'], by simp, by decide, by decide⟩
      · exact ⟨'-', ['I', 'n', 'f', 'i', 'n', 'i', 't', 'y'], by simp, by decide, by decide⟩
      · exact plainly
  | str value =>
    rw [dumpsWith, quote]
    exact ⟨'"', _, by rw [String.toList_ofList]; rfl, by decide, by decide⟩
  | list items =>
    rw [dumpsWith]
    exact ⟨'[', _, by rw [String.append_assoc, String.toList_append]; rfl, by decide, by decide⟩
  | dict entries =>
    rw [dumpsWith]
    exact ⟨'\x7b', _, by rw [String.append_assoc, String.toList_append]; rfl, by decide, by decide⟩

/-- Joined texts begin with the first of them. -/
theorem exists_toList_intercalate (separator first : String) (others : List String) :
    ∃ more, (String.intercalate separator (first :: others)).toList = first.toList ++ more := by
  cases others with
  | nil => exact ⟨[], by rw [String.intercalate_singleton, List.append_nil]⟩
  | cons next rest =>
    rw [String.intercalate_cons_cons, String.append_assoc, String.toList_append]
    exact ⟨_, rfl⟩

/-- Two texts and more are joined by the separator, which is a comma and blanks. -/
theorem toList_intercalate_cons_cons {blanks : List Char}
    (shape : itemSeparator.toList = ',' :: blanks) (first next : String) (others : List String) :
    (String.intercalate itemSeparator (first :: next :: others)).toList =
      first.toList ++ (',' :: blanks ++ (String.intercalate itemSeparator (next :: others)).toList) := by
  rw [String.intercalate_cons_cons]
  simp [shape]

/-- Where the steps are enough for a list of texts, they are enough for the first and, one step on,
for the others. -/
theorem room_of_intercalate {blanks : List Char} (shape : itemSeparator.toList = ',' :: blanks)
    {first next : String} {others : List String} {fuel : Nat}
    (enough : (String.intercalate itemSeparator (first :: next :: others)).toList.length < fuel + 1) :
    first.toList.length ≤ fuel ∧
      (String.intercalate itemSeparator (next :: others)).toList.length < fuel := by
  rw [toList_intercalate_cons_cons shape] at enough
  simp only [List.length_append, List.length_cons] at enough
  omega

/-- The items of a list are read up to its closing bracket. -/
theorem readItems_dumpsWith (separates : Separates ',' itemSeparator) {items : List PyValue}
    (plain : ∀ item ∈ items, Plain floatOf item)
    (each : ∀ item ∈ items, Reads floatOf itemSeparator keySeparator item) (nonempty : items ≠ [])
    (rest : List Char) {fuel : Nat}
    (enough : (String.intercalate itemSeparator
      (items.map (dumpsWith itemSeparator keySeparator))).toList.length < fuel) :
    readItems floatOf fuel ((String.intercalate itemSeparator
        (items.map (dumpsWith itemSeparator keySeparator))).toList ++ ']' :: rest) =
      some (items.map canonical, rest) := by
  obtain ⟨blanks, shape, blank⟩ := separates
  induction items generalizing fuel with
  | nil => exact absurd rfl nonempty
  | cons item others inductionHypothesis =>
    obtain ⟨fuel, rfl⟩ := Nat.exists_eq_succ_of_ne_zero (Nat.ne_of_gt (Nat.zero_lt_of_lt enough))
    cases others with
    | nil =>
      rw [List.map_singleton, String.intercalate_singleton] at enough ⊢
      rw [readItems, each item List.mem_cons_self fuel _ (ends_cons (by decide) rest)
        (Nat.lt_succ_iff.mp enough)]
      simp only [Option.bind_eq_bind, Option.bind_some]
      rw [skipBlank_of_head (by simp [isBlank]), List.head?_cons, if_pos rfl]
      rfl
    | cons next more =>
      obtain ⟨first, following, text, notBlank, -⟩ := head_dumpsWith
        (plain next (List.mem_cons_of_mem _ List.mem_cons_self))
      obtain ⟨tail, tail_eq⟩ : ∃ tail, tail = (String.intercalate itemSeparator
        ((next :: more).map (dumpsWith itemSeparator keySeparator))).toList := ⟨_, rfl⟩
      have whole : (String.intercalate itemSeparator
          ((item :: next :: more).map (dumpsWith itemSeparator keySeparator))).toList =
            (dumpsWith itemSeparator keySeparator item).toList ++ (',' :: blanks ++ tail) := by
        rw [tail_eq]
        exact toList_intercalate_cons_cons shape _ _ _
      have begins : ∀ character ∈ (tail ++ ']' :: rest).head?, isBlank character = false := by
        intro character head
        obtain ⟨others, same⟩ := exists_toList_intercalate itemSeparator
          (dumpsWith itemSeparator keySeparator next) (more.map (dumpsWith itemSeparator keySeparator))
        rw [tail_eq, List.map_cons, same, text] at head
        obtain rfl : first = character := Option.some.inj head
        exact notBlank
      have room := room_of_intercalate shape enough
      have later := inductionHypothesis (fun other member => plain other (List.mem_cons_of_mem _ member))
        (fun other member => each other (List.mem_cons_of_mem _ member)) (by simp)
        room.2
      rw [← tail_eq] at later
      rw [whole, readItems, List.append_assoc, List.cons_append, List.cons_append,
        each item List.mem_cons_self fuel _ (ends_cons (by decide) _) room.1]
      simp only [Option.bind_eq_bind, Option.bind_some]
      rw [skipBlank_of_head (by simp [isBlank]), List.head?_cons, if_neg (by simp), if_pos rfl,
        List.tail_cons, List.append_assoc, skipBlank_append blank begins, later]
      rfl

/-- An entry of a dict, as it is rendered. -/
def entryText (itemSeparator keySeparator : String) (entry : String × PyValue) : String :=
  quote entry.1 ++ keySeparator ++ dumpsWith itemSeparator keySeparator entry.2

theorem dumpsWith_dict (entries : PyDict) :
    dumpsWith itemSeparator keySeparator (.dict entries) = "\x7b" ++ String.intercalate itemSeparator
      ((sortByKey entries).map (entryText itemSeparator keySeparator)) ++ "\x7d" := by
  rw [dumpsWith, dumpsEntriesWith_eq, sortEntries_map, List.map_map]
  rfl

theorem toList_entryText (entry : String × PyValue) :
    (entryText itemSeparator keySeparator entry).toList = '"' :: (entry.1.toList.flatMap escapeChar ++
      '"' :: (keySeparator.toList ++ (dumpsWith itemSeparator keySeparator entry.2).toList)) := by
  rw [entryText, quote, String.toList_append, String.toList_append, String.toList_ofList]
  simp

/-- A key that is not there yet comes last. -/
theorem set_of_fresh {found : PyDict} {name : String} (fresh : name ∉ found.map Prod.fst)
    (value : PyValue) : PyDict.set found name value = found ++ [(name, value)] := by
  induction found with
  | nil => rfl
  | cons entry rest inductionHypothesis =>
    rw [List.map_cons, List.mem_cons, not_or] at fresh
    rw [PyDict.set, if_neg (Ne.symm fresh.1), inductionHypothesis fresh.2, List.cons_append]

/-- One entry is read, up to the mark that follows it. -/
theorem readEntries_entryText (names : Separates ':' keySeparator) {entry : String × PyValue}
    (plain : Plain floatOf entry.2) (reads : Reads floatOf itemSeparator keySeparator entry.2)
    (found : PyDict) {mark : Char} (apart : mark ∈ [',', ']', '\x7d']) (more : List Char)
    {fuel : Nat} (room : (entryText itemSeparator keySeparator entry).toList.length ≤ fuel) :
    readEntries floatOf (fuel + 1) found
        ((entryText itemSeparator keySeparator entry).toList ++ mark :: more) =
      if mark = '\x7d' then some (PyDict.set found entry.1 (canonical entry.2), more)
      else if mark = ',' then
        readEntries floatOf fuel (PyDict.set found entry.1 (canonical entry.2)) (skipBlank more)
      else none := by
  obtain ⟨keyBlanks, keyShape, keyBlank⟩ := names
  obtain ⟨first, following, text, notBlank, -⟩ :=
    @head_dumpsWith floatOf itemSeparator keySeparator _ plain
  rw [toList_entryText, keyShape] at room
  simp only [List.length_cons, List.length_append] at room
  have begins : ∀ character ∈ ((dumpsWith itemSeparator keySeparator entry.2).toList ++
      mark :: more).head?, isBlank character = false := by
    intro character head
    rw [text] at head
    obtain rfl : first = character := Option.some.inj head
    exact notBlank
  have markSolid : isBlank mark = false := by
    simp only [List.mem_cons, List.not_mem_nil, or_false] at apart
    rcases apart with rfl | rfl | rfl <;> decide
  rw [toList_entryText, keyShape, List.cons_append, readEntries, List.head?_cons, if_pos rfl,
    List.tail_cons, List.append_assoc, List.cons_append, readString_quote _ _ (by omega)]
  simp only [Option.bind_eq_bind, Option.bind_some]
  rw [List.append_assoc, List.cons_append, skipBlank_of_head (by simp [isBlank]), List.head?_cons,
    if_pos rfl, List.tail_cons, skipBlank_append keyBlank begins,
    reads fuel _ (ends_cons apart more) (by omega)]
  simp only [Option.bind_some, String.ofList_toList]
  rw [skipBlank_of_head (by simp [markSolid]), List.head?_cons]
  simp only [Option.some.injEq, List.tail_cons]
  rfl

/-- The entries of a dict are read up to its closing brace. -/
theorem readEntries_dumpsWith (separates : Separates ',' itemSeparator)
    (names : Separates ':' keySeparator) {entries : PyDict}
    (plain : ∀ entry ∈ entries, Plain floatOf entry.2)
    (each : ∀ entry ∈ entries, Reads floatOf itemSeparator keySeparator entry.2)
    (nonempty : entries ≠ []) (found : PyDict)
    (distinct : (found.map Prod.fst ++ entries.map Prod.fst).Nodup) (rest : List Char) {fuel : Nat}
    (enough : (String.intercalate itemSeparator
      (entries.map (entryText itemSeparator keySeparator))).toList.length < fuel) :
    readEntries floatOf fuel found ((String.intercalate itemSeparator
        (entries.map (entryText itemSeparator keySeparator))).toList ++ '\x7d' :: rest) =
      some (found ++ entries.map fun entry => (entry.1, canonical entry.2), rest) := by
  obtain ⟨blanks, shape, blank⟩ := separates
  induction entries generalizing found fuel with
  | nil => exact absurd rfl nonempty
  | cons entry others inductionHypothesis =>
    obtain ⟨fuel, rfl⟩ := Nat.exists_eq_succ_of_ne_zero (Nat.ne_of_gt (Nat.zero_lt_of_lt enough))
    have fresh : entry.1 ∉ found.map Prod.fst := by
      intro seen
      exact (List.nodup_append.mp distinct).2.2 _ seen _ List.mem_cons_self rfl
    have readHere := @readEntries_entryText _ _ _ names entry (plain entry List.mem_cons_self)
      (each entry List.mem_cons_self) found
    rw [set_of_fresh fresh] at readHere
    cases others with
    | nil =>
      rw [List.map_singleton, String.intercalate_singleton] at enough ⊢
      rw [readHere (by decide) rest (Nat.lt_succ_iff.mp enough), if_pos rfl]
      rfl
    | cons next more =>
      obtain ⟨tail, tail_eq⟩ : ∃ tail, tail = (String.intercalate itemSeparator
        ((next :: more).map (entryText itemSeparator keySeparator))).toList := ⟨_, rfl⟩
      have whole : (String.intercalate itemSeparator
          ((entry :: next :: more).map (entryText itemSeparator keySeparator))).toList =
            (entryText itemSeparator keySeparator entry).toList ++ (',' :: blanks ++ tail) := by
        rw [tail_eq]
        exact toList_intercalate_cons_cons shape _ _ _
      have begins : ∀ character ∈ (tail ++ '\x7d' :: rest).head?, isBlank character = false := by
        intro character head
        obtain ⟨others, same⟩ := exists_toList_intercalate itemSeparator
          (entryText itemSeparator keySeparator next)
          (more.map (entryText itemSeparator keySeparator))
        rw [tail_eq, List.map_cons, same, toList_entryText] at head
        obtain rfl : '"' = character := Option.some.inj head
        decide
      have room := room_of_intercalate shape enough
      have later := inductionHypothesis (fun other member => plain other (List.mem_cons_of_mem _ member))
        (fun other member => each other (List.mem_cons_of_mem _ member)) (by simp)
        (found ++ [(entry.1, canonical entry.2)]) (by simpa using distinct) room.2
      rw [← tail_eq] at later
      rw [whole, List.append_assoc, List.cons_append, List.cons_append,
        readHere (by decide) _ room.1, if_neg (by decide), if_pos rfl, List.append_assoc,
        skipBlank_append blank begins, later]
      simp

variable (floatOf) in
/-- A value has a character, so there is a step to take. -/
theorem exists_fuel {value : PyValue} (plain : Plain floatOf value) {fuel : Nat}
    (enough : (dumpsWith itemSeparator keySeparator value).toList.length ≤ fuel) :
    ∃ less, fuel = less + 1 := by
  obtain ⟨first, others, text, -⟩ := @head_dumpsWith floatOf itemSeparator keySeparator _ plain
  rw [text, List.length_cons] at enough
  exact ⟨fuel - 1, by omega⟩

theorem reads_list (separates : Separates ',' itemSeparator) {items : List PyValue}
    (plain : ∀ item ∈ items, Plain floatOf item)
    (each : ∀ item ∈ items, Reads floatOf itemSeparator keySeparator item) :
    Reads floatOf itemSeparator keySeparator (.list items) := by
  intro fuel rest _ enough
  obtain ⟨fuel, rfl⟩ := exists_fuel floatOf (.list items plain) enough
  rw [dumpsWith, dumpsItemsWith_eq, String.append_assoc, String.toList_append,
    String.toList_append] at enough ⊢
  have room : (String.intercalate itemSeparator
      (items.map (dumpsWith itemSeparator keySeparator))).toList.length < fuel := by
    have brackets : "[".toList.length = 1 ∧ "]".toList.length = 1 := ⟨rfl, rfl⟩
    simp only [List.length_append] at enough
    omega
  rw [canonical, canonicalItems_eq, List.append_assoc, List.append_assoc]
  change readValue floatOf (fuel + 1) ('[' :: ((String.intercalate itemSeparator
    (items.map (dumpsWith itemSeparator keySeparator))).toList ++ ']' :: rest)) = _
  rw [readValue, if_neg (by decide), if_pos rfl]
  cases items with
  | nil => rfl
  | cons item others =>
    obtain ⟨first, following, text, notBlank, opens⟩ :=
      @head_dumpsWith floatOf itemSeparator keySeparator _ (plain item List.mem_cons_self)
    obtain ⟨more, starts⟩ := exists_toList_intercalate itemSeparator
      (dumpsWith itemSeparator keySeparator item) (others.map (dumpsWith itemSeparator keySeparator))
    rw [text, ← List.map_cons] at starts
    have solid : skipBlank ((String.intercalate itemSeparator ((item :: others).map
        (dumpsWith itemSeparator keySeparator))).toList ++ ']' :: rest) =
          (String.intercalate itemSeparator ((item :: others).map
            (dumpsWith itemSeparator keySeparator))).toList ++ ']' :: rest := by
      refine skipBlank_of_head fun character head => ?_
      rw [starts] at head
      obtain rfl : first = character := Option.some.inj head
      exact notBlank
    have open_ : ((String.intercalate itemSeparator ((item :: others).map
        (dumpsWith itemSeparator keySeparator))).toList ++ ']' :: rest).head? ≠ some ']' := by
      rw [starts]
      exact fun closes => opens (Option.some.inj closes)
    rw [solid, if_neg open_, readItems_dumpsWith separates plain each (by simp) rest room]
    rfl

theorem reads_dict (separates : Separates ',' itemSeparator) (names : Separates ':' keySeparator)
    {entries : PyDict} (distinct : (entries.map Prod.fst).Nodup)
    (plain : ∀ entry ∈ entries, Plain floatOf entry.2)
    (each : ∀ entry ∈ entries, Reads floatOf itemSeparator keySeparator entry.2) :
    Reads floatOf itemSeparator keySeparator (.dict entries) := by
  intro fuel rest _ enough
  obtain ⟨fuel, rfl⟩ := exists_fuel floatOf (.dict entries distinct plain) enough
  have sorted := sortByKey_perm entries
  rw [dumpsWith_dict, String.append_assoc, String.toList_append, String.toList_append] at enough ⊢
  have room : (String.intercalate itemSeparator
      ((sortByKey entries).map (entryText itemSeparator keySeparator))).toList.length < fuel := by
    have braces : "\x7b".toList.length = 1 ∧ "\x7d".toList.length = 1 := ⟨rfl, rfl⟩
    simp only [List.length_append] at enough
    omega
  rw [canonical, canonicalEntries_eq, sortByKey_map, List.append_assoc, List.append_assoc]
  have plain : ∀ entry ∈ sortByKey entries, Plain floatOf entry.2 :=
    fun entry member => plain entry (sorted.mem_iff.mp member)
  have each : ∀ entry ∈ sortByKey entries, Reads floatOf itemSeparator keySeparator entry.2 :=
    fun entry member => each entry (sorted.mem_iff.mp member)
  have distinct : ((sortByKey entries).map Prod.fst).Nodup :=
    (sorted.map Prod.fst).nodup_iff.mpr distinct
  generalize sortByKey entries = entries at *
  change readValue floatOf (fuel + 1) ('\x7b' :: ((String.intercalate itemSeparator
    (entries.map (entryText itemSeparator keySeparator))).toList ++ '\x7d' :: rest)) = _
  rw [readValue, if_neg (by decide), if_neg (by decide), if_pos rfl]
  cases entries with
  | nil => rfl
  | cons entry others =>
    obtain ⟨more, starts⟩ := exists_toList_intercalate itemSeparator
      (entryText itemSeparator keySeparator entry) (others.map (entryText itemSeparator keySeparator))
    rw [toList_entryText, ← List.map_cons] at starts
    have solid : skipBlank ((String.intercalate itemSeparator ((entry :: others).map
        (entryText itemSeparator keySeparator))).toList ++ '\x7d' :: rest) =
          (String.intercalate itemSeparator ((entry :: others).map
            (entryText itemSeparator keySeparator))).toList ++ '\x7d' :: rest := by
      refine skipBlank_of_head fun character head => ?_
      rw [starts] at head
      obtain rfl : '"' = character := Option.some.inj head
      decide
    have open_ : ((String.intercalate itemSeparator ((entry :: others).map
        (entryText itemSeparator keySeparator))).toList ++ '\x7d' :: rest).head? ≠
          some '\x7d' := by
      rw [starts]
      exact fun closes => absurd (Option.some.inj closes) (by decide)
    rw [solid, if_neg open_, readEntries_dumpsWith separates names plain each (by simp) []
      (by simpa using distinct) rest room]
    rfl

/-- Whatever follows, the text of a value is read as the value. -/
theorem reads_of_plain (separates : Separates ',' itemSeparator) (names : Separates ':' keySeparator)
    {value : PyValue} (plain : Plain floatOf value) :
    Reads floatOf itemSeparator keySeparator value := by
  induction plain with
  | none =>
    intro fuel rest _ enough
    obtain ⟨fuel, rfl⟩ := exists_fuel floatOf .none enough
    rw [dumpsWith, canonical]
    rfl
  | bool value =>
    intro fuel rest _ enough
    obtain ⟨fuel, rfl⟩ := exists_fuel floatOf (.bool value) enough
    cases value with
    | true =>
      rw [dumpsWith, canonical]
      rfl
    | false =>
      rw [dumpsWith, canonical]
      rfl
  | int value =>
    intro fuel rest ended enough
    obtain ⟨fuel, rfl⟩ := exists_fuel floatOf (.int value) enough
    obtain ⟨sign, digits, same, signed, whole, same_value⟩ := toList_toString_int value
    have read := @readNumber_append floatOf sign digits [] [] rest signed whole (Or.inl rfl)
      (Or.inl rfl) ended
    rw [if_pos ⟨rfl, rfl⟩, List.append_nil, List.append_nil, same_value] at read
    rw [dumpsWith, canonical, same, readValue_of_number floatOf signed whole, read]
  | float value readable =>
    intro fuel rest ended enough
    obtain ⟨fuel, rfl⟩ := exists_fuel floatOf (.float value readable) enough
    rw [dumpsWith, canonical]
    by_cases special : value.repr = "nan" ∨ value.repr = "inf" ∨ value.repr = "-inf"
    · obtain ⟨text⟩ := value
      dsimp only at special
      rcases special with rfl | rfl | rfl <;> rfl
    · obtain ⟨token, sign, digits, fraction, exponent, same, signed, whole, fractional, exponential,
        real⟩ := readable.resolve_left special
      simp only [not_or] at special
      have read := readNumber_append floatOf signed whole fractional exponential ended
      rw [if_neg real, ← same, String.ofList_toList, token] at read
      rw [number, if_neg special.1, if_neg special.2.1, if_neg special.2.2]
      rw [same, List.append_assoc, List.append_assoc] at read ⊢
      rw [readValue_of_number floatOf signed whole, read]
  | str value =>
    intro fuel rest _ enough
    obtain ⟨fuel, rfl⟩ := exists_fuel floatOf (.str value) enough
    rw [dumpsWith, quote, String.toList_ofList] at enough ⊢
    simp only [List.length_append, List.length_cons] at enough
    rw [canonical, List.append_assoc, List.cons_append, readValue, if_pos rfl,
      List.singleton_append, readString_quote _ _ (by omega)]
    simp
  | list items plain inductionHypothesis => exact reads_list separates plain inductionHypothesis
  | dict entries distinct plain inductionHypothesis =>
    exact reads_dict separates names distinct plain inductionHypothesis

/-- `json.loads` gives back what `json.dumps` rendered, with blanks after it or not. -/
theorem loads_dumpsWith (separates : Separates ',' itemSeparator)
    (names : Separates ':' keySeparator) {value : PyValue} (plain : Plain floatOf value)
    {blanks : String} (blank : ∀ character ∈ blanks.toList, isBlank character = true) :
    loads floatOf (dumpsWith itemSeparator keySeparator value ++ blanks) = some (canonical value) := by
  obtain ⟨first, others, text, notBlank, -⟩ :=
    @head_dumpsWith floatOf itemSeparator keySeparator _ plain
  have ended : Ends blanks.toList := by
    intro character head
    have isBlank := blank character (List.mem_of_mem_head? head)
    simp only [Json.isBlank, Bool.or_eq_true, decide_eq_true_eq] at isBlank
    rcases isBlank with ((rfl | rfl) | rfl) | rfl <;> decide
  have solid : skipBlank ((dumpsWith itemSeparator keySeparator value).toList ++ blanks.toList) =
      (dumpsWith itemSeparator keySeparator value).toList ++ blanks.toList := by
    refine skipBlank_of_head fun character head => ?_
    rw [text] at head
    obtain rfl : first = character := Option.some.inj head
    exact notBlank
  have rest : skipBlank blanks.toList = [] := by
    rw [← List.append_nil blanks.toList]
    exact skipBlank_append blank (by simp)
  rw [loads, String.toList_append, solid, reads_of_plain separates names plain _ _ ended
    (by rw [List.length_append]; omega)]
  simp only [Option.bind_eq_bind, Option.bind_some]
  rw [if_pos rest]

theorem separates_canonical : Separates ',' "," ∧ Separates ':' ":" :=
  ⟨⟨[], rfl, by simp⟩, ⟨[], rfl, by simp⟩⟩

theorem separates_default : Separates ',' ", " ∧ Separates ':' ": " :=
  ⟨⟨[' '], rfl, by simp [isBlank]⟩, ⟨[' '], rfl, by simp [isBlank]⟩⟩

/-- `json.loads` gives back a canonical text. -/
theorem loads_dumps {value : PyValue} (plain : Plain floatOf value) :
    loads floatOf (dumps value) = some (canonical value) := by
  have read := @loads_dumpsWith floatOf "," ":" separates_canonical.1 separates_canonical.2 value plain
    "" (by simp)
  rwa [dumpsWith_canonical, String.append_empty] at read

end

/-! ### Lists of texts -/

theorem plain_strs (floatOf : String → PyFloat) (texts : List String) :
    Plain floatOf (.list (texts.map .str)) := by
  refine .list _ fun item member => ?_
  obtain ⟨text, -, rfl⟩ := List.mem_map.mp member
  exact .str text

theorem canonical_strs (texts : List String) :
    canonical (.list (texts.map .str)) = .list (texts.map .str) := by
  rw [canonical, canonicalItems_eq, List.map_map]
  rfl

/-! ### Integers that are too long to convert -/

theorem shortEntries_iff (entries : PyDict) :
    shortEntries entries = true ↔ ∀ entry ∈ entries, shortIntegers entry.2 = true := by
  induction entries with
  | nil => simp [shortEntries]
  | cons entry rest inductionHypothesis => simp [shortEntries, inductionHypothesis]

theorem shortItems_iff (items : List PyValue) :
    shortItems items = true ↔ ∀ item ∈ items, shortIntegers item = true := by
  induction items with
  | nil => simp [shortItems]
  | cons item rest inductionHypothesis => simp [shortItems, inductionHypothesis]

/-- The order of the entries does not matter. -/
theorem shortEntries_sortByKey (entries : PyDict) :
    shortEntries (sortByKey entries) = shortEntries entries := by
  rw [Bool.eq_iff_iff, shortEntries_iff, shortEntries_iff]
  exact forall_congr' fun entry => imp_congr_left (sortByKey_perm entries).mem_iff

mutual

theorem shortIntegers_canonical : (value : PyValue) →
    shortIntegers (canonical value) = shortIntegers value
  | .none | .bool _ | .int _ | .float _ | .str _ => rfl
  | .list items => by
    rw [canonical, shortIntegers, shortIntegers, shortItems_canonical items]
  | .dict entries => by
    rw [canonical, shortIntegers, shortIntegers, shortEntries_sortByKey,
      shortEntries_canonical entries]

theorem shortItems_canonical : (items : List PyValue) →
    shortItems (canonicalItems items) = shortItems items
  | [] => rfl
  | item :: rest => by
    rw [canonicalItems, shortItems, shortItems, shortIntegers_canonical item,
      shortItems_canonical rest]

theorem shortEntries_canonical : (entries : List (String × PyValue)) →
    shortEntries (canonicalEntries entries) = shortEntries entries
  | [] => rfl
  | (name, value) :: rest => by
    rw [canonicalEntries, shortEntries, shortEntries, shortIntegers_canonical value,
      shortEntries_canonical rest]

end

/-- `json.loads`, and what it raises: a `JSONDecodeError` on a text that is no JSON, another
`ValueError` on one with an integer too long to convert. The texts leave out the place and the
number of digits, and an integer that a later value of its name replaces is not looked at. -/
def load (floatOf : String → PyFloat) (text : String) : Except JsonFailure PyValue :=
  match loads floatOf text with
  | none => .error (.decode "Expecting value")
  | some value =>
    if shortIntegers value then .ok value
    else .error (.value "Exceeds the limit (4300 digits) for integer string conversion")

/-- A canonical text is read back where it could be rendered. -/
theorem load_dumps {floatOf : String → PyFloat} {value : PyValue} (plain : Plain floatOf value)
    (short : shortIntegers value = true) :
    load floatOf (dumps value) = .ok (canonical value) := by
  rw [load, loads_dumps plain]
  exact if_pos ((shortIntegers_canonical value).trans short)

end Json

end FleetMemory
