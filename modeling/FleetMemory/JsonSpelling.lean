/-
This file states when a text spells a JSON value: blanks stand between the tokens, a character of a
string stands for itself or is escaped in any way, and a list or a dict is spelled item by item. It
proves that `json.loads` reads every spelling of a value as the value, and that `json.dumps` spells
it whatever its indentation, its escapes and the order of its keys are.
-/

import FleetMemory.JsonText
import FleetMemory.Text

namespace FleetMemory

namespace Json

/-! ### Spellings -/

/-- Some letters spell a character of a string: whatever follows them, the character is read. -/
def SpellsChar (letters : List Char) (character : Char) : Prop :=
  ∃ first others, letters = first :: others ∧ first ≠ '"' ∧
    ∀ rest, readChar first (others ++ rest) = some (character, rest)

/-- The letters between two quotes spell the characters of a string. -/
inductive SpellsString : List Char → List Char → Prop
  | nil : SpellsString [] []
  | cons {letters others characters : List Char} {character : Char}
      (first : SpellsChar letters character) (rest : SpellsString others characters) :
      SpellsString (letters ++ others) (character :: characters)

/-- A token or a text of several, with the blanks around it, and what it spells. -/
structure Padded (Spelled : Type) where
  before : List Char
  text : List Char
  after : List Char
  spelled : Spelled

namespace Padded

variable {Spelled : Type}

def characters (padded : Padded Spelled) : List Char :=
  padded.before ++ padded.text ++ padded.after

/-- What is around the text is blank. -/
def Blank (padded : Padded Spelled) : Prop :=
  (∀ character ∈ padded.before, isBlank character = true) ∧
    ∀ character ∈ padded.after, isBlank character = true

/-- A text with nothing around it. -/
def bare (text : List Char) (spelled : Spelled) : Padded Spelled :=
  ⟨[], text, [], spelled⟩

end Padded

/-- An entry of a dict: the letters of its key, and its value. -/
structure PaddedEntry where
  key : Padded String
  value : Padded PyValue

namespace PaddedEntry

def characters (entry : PaddedEntry) : List Char :=
  entry.key.before ++ '"' :: (entry.key.text ++ '"' ::
    (entry.key.after ++ ':' :: entry.value.characters))

def spelled (entry : PaddedEntry) : String × PyValue :=
  (entry.key.spelled, entry.value.spelled)

end PaddedEntry

/-- A text spells a value. -/
inductive Spells (floatOf : String → PyFloat) : List Char → PyValue → Prop
  | word {text : List Char} {value : PyValue} (known : (text, value) ∈ literals) :
      Spells floatOf text value
  | int {sign digits : List Char} (signed : sign = [] ∨ sign = ['-']) (whole : Whole digits) :
      Spells floatOf (sign ++ digits) (.int (wholeValue sign digits))
  | float {sign digits fraction exponent : List Char} (signed : sign = [] ∨ sign = ['-'])
      (whole : Whole digits) (fractional : IsFraction fraction) (exponential : IsExponent exponent)
      (real : ¬(fraction = [] ∧ exponent = [])) :
      Spells floatOf (sign ++ digits ++ fraction ++ exponent)
        (.float (floatOf (String.ofList (sign ++ digits ++ fraction ++ exponent))))
  | str {letters characters : List Char} (spells : SpellsString letters characters) :
      Spells floatOf ('"' :: (letters ++ ['"'])) (.str (String.ofList characters))
  | emptyList {blanks : List Char} (blank : ∀ character ∈ blanks, isBlank character = true) :
      Spells floatOf ('[' :: (blanks ++ [']'])) (.list [])
  | list {items : List (Padded PyValue)} (nonempty : items ≠ [])
      (blank : ∀ item ∈ items, item.Blank)
      (each : ∀ item ∈ items, Spells floatOf item.text item.spelled) :
      Spells floatOf ('[' :: (List.intercalate [','] (items.map Padded.characters) ++ [']']))
        (.list (items.map Padded.spelled))
  | emptyDict {blanks : List Char} (blank : ∀ character ∈ blanks, isBlank character = true) :
      Spells floatOf ('\x7b' :: (blanks ++ ['\x7d'])) (.dict [])
  | dict {entries : List PaddedEntry} (nonempty : entries ≠ [])
      (keysBlank : ∀ entry ∈ entries, entry.key.Blank)
      (valuesBlank : ∀ entry ∈ entries, entry.value.Blank)
      (keys : ∀ entry ∈ entries, SpellsString entry.key.text entry.key.spelled.toList)
      (distinct : (entries.map fun entry => entry.key.spelled).Nodup)
      (values : ∀ entry ∈ entries, Spells floatOf entry.value.text entry.value.spelled) :
      Spells floatOf
        ('\x7b' :: (List.intercalate [','] (entries.map PaddedEntry.characters) ++ ['\x7d']))
        (.dict (entries.map PaddedEntry.spelled))

/-! ### What is spelled is read -/

section

variable {floatOf : String → PyFloat} {text : List Char} {value : PyValue}

theorem readString_of_spells {letters characters : List Char}
    (spells : SpellsString letters characters) (rest : List Char) {fuel : Nat}
    (enough : letters.length < fuel) :
    readString fuel (letters ++ '"' :: rest) = some (characters, rest) := by
  induction spells generalizing fuel with
  | nil =>
    obtain ⟨fuel, rfl⟩ := Nat.exists_eq_succ_of_ne_zero (Nat.ne_of_gt enough)
    rfl
  | @cons letters others characters character here _ inductionHypothesis =>
    obtain ⟨fuel, rfl⟩ := Nat.exists_eq_succ_of_ne_zero (Nat.ne_of_gt (Nat.zero_lt_of_lt enough))
    obtain ⟨first, following, rfl, open_, read⟩ := here
    rw [List.length_append, List.length_cons] at enough
    rw [List.append_assoc, List.cons_append, readString, if_neg open_, read]
    simp only [Option.bind_eq_bind, Option.bind_some]
    rw [inductionHypothesis (by omega)]
    rfl

/-- A spelling begins with no blank and closes nothing. -/
theorem Spells.head (spells : Spells floatOf text value) :
    ∃ first others, text = first :: others ∧ isBlank first = false ∧ first ≠ ']' ∧
      first ≠ '\x7d' := by
  have numeral {sign digits : List Char} (more : List Char) (signed : sign = [] ∨ sign = ['-'])
      (whole : Whole digits) : ∃ first others, sign ++ digits ++ more = first :: others ∧
        isBlank first = false ∧ first ≠ ']' ∧ first ≠ '\x7d' := by
    obtain ⟨first, others, same, begins⟩ := head_number signed whole
    refine ⟨first, others ++ more, by rw [same, List.cons_append], ?_, ?_, ?_⟩
    · by_contra blank
      simp only [isBlank, Bool.or_eq_true, decide_eq_true_eq, Bool.not_eq_false] at blank
      rcases blank with ((rfl | rfl) | rfl) | rfl <;> exact absurd begins (by decide)
    · rintro rfl
      exact absurd begins (by decide)
    · rintro rfl
      exact absurd begins (by decide)
  cases spells with
  | word known =>
    simp only [literals, List.mem_cons, Prod.mk.injEq, List.not_mem_nil, or_false] at known
    rcases known with ⟨rfl, -⟩ | ⟨rfl, -⟩ | ⟨rfl, -⟩ | ⟨rfl, -⟩ | ⟨rfl, -⟩ | ⟨rfl, -⟩ <;>
      exact ⟨_, _, rfl, by decide, by decide, by decide⟩
  | @int sign digits signed whole =>
    obtain ⟨first, others, same, apart⟩ := numeral [] signed whole
    exact ⟨first, others, by rw [← same, List.append_nil], apart⟩
  | @float sign digits fraction exponent signed whole =>
    obtain ⟨first, others, same, apart⟩ := numeral (fraction ++ exponent) signed whole
    exact ⟨first, others, by rw [← same, ← List.append_assoc], apart⟩
  | str => exact ⟨_, _, rfl, by decide, by decide, by decide⟩
  | emptyList => exact ⟨_, _, rfl, by decide, by decide, by decide⟩
  | list => exact ⟨_, _, rfl, by decide, by decide, by decide⟩
  | emptyDict => exact ⟨_, _, rfl, by decide, by decide, by decide⟩
  | dict => exact ⟨_, _, rfl, by decide, by decide, by decide⟩

/-- A mark ends a number, and so do blanks before it. -/
theorem ends_blanks {blanks : List Char} (blank : ∀ character ∈ blanks, isBlank character = true)
    {rest : List Char} (ended : Ends rest) : Ends (blanks ++ rest) := by
  cases blanks with
  | nil => exact ended
  | cons first others =>
    intro character head
    obtain rfl : first = character := Option.some.inj head
    have here := blank first List.mem_cons_self
    simp only [isBlank, Bool.or_eq_true, decide_eq_true_eq] at here
    rcases here with ((rfl | rfl) | rfl) | rfl <;> decide

theorem head_mark {mark : Char} (apart : isBlank mark = false) (rest : List Char) :
    ∀ character ∈ (mark :: rest).head?, isBlank character = false := by
  intro character head
  obtain rfl : mark = character := Option.some.inj head
  exact apart

theorem isBlank_mark {mark : Char} (apart : mark ∈ [',', ']', '\x7d']) : isBlank mark = false := by
  simp only [List.mem_cons, List.not_mem_nil, or_false] at apart
  rcases apart with rfl | rfl | rfl <;> decide

/-- A text is read as a value, whatever follows. -/
def ReadsAs (floatOf : String → PyFloat) (text : List Char) (value : PyValue) : Prop :=
  ∀ fuel rest, Ends rest → text.length ≤ fuel →
    readValue floatOf fuel (text ++ rest) = some (value, rest)

theorem Spells.exists_fuel (spells : Spells floatOf text value) {fuel : Nat}
    (enough : text.length ≤ fuel) : ∃ less, fuel = less + 1 := by
  obtain ⟨first, others, rfl, -⟩ := spells.head
  rw [List.length_cons] at enough
  exact ⟨fuel - 1, by omega⟩

/-- Blanks before a spelling are skipped. -/
theorem Spells.skipBlank_padded {item : Padded PyValue} (blank : item.Blank)
    (spells : Spells floatOf item.text item.spelled) (rest : List Char) :
    skipBlank (item.characters ++ rest) = item.text ++ (item.after ++ rest) := by
  obtain ⟨first, others, same, solid, -⟩ := spells.head
  have begins : ∀ character ∈ (item.text ++ (item.after ++ rest)).head?,
      isBlank character = false := by
    rw [same]
    exact head_mark solid _
  rw [Padded.characters, List.append_assoc, List.append_assoc]
  exact skipBlank_append blank.1 begins

/-- One item is read, up to the mark that follows it. -/
theorem readItems_padded {item : Padded PyValue} (blank : item.Blank)
    (spells : Spells floatOf item.text item.spelled) (reads : ReadsAs floatOf item.text item.spelled)
    {mark : Char} (apart : mark ∈ [',', ']', '\x7d']) (more : List Char) {fuel : Nat}
    (room : item.characters.length ≤ fuel) :
    readItems floatOf (fuel + 1) (skipBlank (item.characters ++ mark :: more)) =
      if mark = ']' then some ([item.spelled], more)
      else if mark = ',' then
        (readItems floatOf fuel (skipBlank more)).map (Prod.map (item.spelled :: ·) id)
      else none := by
  have fits : item.text.length ≤ fuel := by
    rw [Padded.characters, List.length_append, List.length_append] at room
    omega
  have after : skipBlank (item.after ++ mark :: more) = mark :: more :=
    skipBlank_append blank.2 (head_mark (isBlank_mark apart) more)
  rw [spells.skipBlank_padded blank, readItems,
    reads fuel _ (ends_blanks blank.2 (ends_cons apart more)) fits]
  simp only [Option.bind_eq_bind, Option.bind_some]
  rw [after, List.head?_cons, List.tail_cons]
  simp only [Option.some.injEq]
  split_ifs
  · rfl
  · cases readItems floatOf fuel (skipBlank more) <;> rfl
  · rfl

/-- Where the steps are enough for texts joined by commas, they are enough for the first and, one
step on, for the others. -/
theorem room_of_joined {first next : List Char} {others : List (List Char)} {fuel : Nat}
    (enough : (List.intercalate [','] (first :: next :: others)).length < fuel + 1) :
    first.length ≤ fuel ∧ (List.intercalate [','] (next :: others)).length < fuel := by
  rw [List.intercalate_cons_cons] at enough
  simp only [List.length_append, List.length_cons, List.length_nil] at enough
  omega

/-- The items of a list are read up to its closing bracket. -/
theorem readItems_of_spells {items : List (Padded PyValue)} (nonempty : items ≠ [])
    (blank : ∀ item ∈ items, item.Blank)
    (spells : ∀ item ∈ items, Spells floatOf item.text item.spelled)
    (reads : ∀ item ∈ items, ReadsAs floatOf item.text item.spelled) (rest : List Char) {fuel : Nat}
    (enough : (List.intercalate [','] (items.map Padded.characters)).length < fuel) :
    readItems floatOf fuel (skipBlank
        (List.intercalate [','] (items.map Padded.characters) ++ ']' :: rest)) =
      some (items.map Padded.spelled, rest) := by
  induction items generalizing fuel with
  | nil => exact absurd rfl nonempty
  | cons item others inductionHypothesis =>
    obtain ⟨fuel, rfl⟩ := Nat.exists_eq_succ_of_ne_zero (Nat.ne_of_gt (Nat.zero_lt_of_lt enough))
    have here {mark : Char} := @readItems_padded floatOf item (blank item List.mem_cons_self)
      (spells item List.mem_cons_self) (reads item List.mem_cons_self) mark
    cases others with
    | nil =>
      rw [List.map_singleton, List.intercalate_singleton] at enough ⊢
      rw [here (by decide) rest (Nat.lt_succ_iff.mp enough), if_pos rfl]
      rfl
    | cons next more =>
      have room := room_of_joined enough
      have later := inductionHypothesis (by simp)
        (fun other member => blank other (List.mem_cons_of_mem _ member))
        (fun other member => spells other (List.mem_cons_of_mem _ member))
        (fun other member => reads other (List.mem_cons_of_mem _ member)) room.2
      rw [List.map_cons, List.map_cons, List.intercalate_cons_cons, ← List.map_cons,
        List.append_assoc, List.append_assoc, List.singleton_append, here (by decide) _ room.1,
        if_neg (by decide), if_pos rfl, later]
      rfl

/-- One entry is read, up to the mark that follows it. -/
theorem readEntries_padded {entry : PaddedEntry} (keyBlank : entry.key.Blank)
    (valueBlank : entry.value.Blank) (key : SpellsString entry.key.text entry.key.spelled.toList)
    (spells : Spells floatOf entry.value.text entry.value.spelled)
    (reads : ReadsAs floatOf entry.value.text entry.value.spelled) (found : PyDict) {mark : Char}
    (apart : mark ∈ [',', ']', '\x7d']) (more : List Char) {fuel : Nat}
    (room : entry.characters.length ≤ fuel) :
    readEntries floatOf (fuel + 1) found (skipBlank (entry.characters ++ mark :: more)) =
      if mark = '\x7d' then
        some (PyDict.set found entry.key.spelled entry.value.spelled, more)
      else if mark = ',' then
        readEntries floatOf fuel (PyDict.set found entry.key.spelled entry.value.spelled)
          (skipBlank more)
      else none := by
  simp only [PaddedEntry.characters, Padded.characters, List.length_append, List.length_cons] at room
  have start : skipBlank (entry.characters ++ mark :: more) = '"' :: (entry.key.text ++ '"' ::
      (entry.key.after ++ ':' :: (entry.value.characters ++ mark :: more))) := by
    have split : entry.characters ++ mark :: more = entry.key.before ++ '"' :: (entry.key.text ++
        '"' :: (entry.key.after ++ ':' :: (entry.value.characters ++ mark :: more))) := by
      simp [PaddedEntry.characters]
    rw [split]
    exact skipBlank_append keyBlank.1 (head_mark (by decide) _)
  have colon : skipBlank (entry.key.after ++ ':' :: (entry.value.characters ++ mark :: more)) =
      ':' :: (entry.value.characters ++ mark :: more) :=
    skipBlank_append keyBlank.2 (head_mark (by decide) _)
  have after : skipBlank (entry.value.after ++ mark :: more) = mark :: more :=
    skipBlank_append valueBlank.2 (head_mark (isBlank_mark apart) more)
  rw [start, readEntries, List.head?_cons, if_pos rfl, List.tail_cons,
    readString_of_spells key _ (by omega)]
  simp only [Option.bind_eq_bind, Option.bind_some]
  rw [colon, List.head?_cons, if_pos rfl, List.tail_cons, spells.skipBlank_padded valueBlank,
    reads fuel _ (ends_blanks valueBlank.2 (ends_cons apart more)) (by omega)]
  simp only [Option.bind_some]
  rw [after, List.head?_cons, List.tail_cons, String.ofList_toList]
  simp only [Option.some.injEq]
  rfl

/-- The entries of a dict are read up to its closing brace. -/
theorem readEntries_of_spells {entries : List PaddedEntry} (nonempty : entries ≠ [])
    (keysBlank : ∀ entry ∈ entries, entry.key.Blank)
    (valuesBlank : ∀ entry ∈ entries, entry.value.Blank)
    (keys : ∀ entry ∈ entries, SpellsString entry.key.text entry.key.spelled.toList)
    (spells : ∀ entry ∈ entries, Spells floatOf entry.value.text entry.value.spelled)
    (reads : ∀ entry ∈ entries, ReadsAs floatOf entry.value.text entry.value.spelled)
    {found : PyDict}
    (distinct : (found.map Prod.fst ++ entries.map fun entry => entry.key.spelled).Nodup)
    (rest : List Char) {fuel : Nat}
    (enough : (List.intercalate [','] (entries.map PaddedEntry.characters)).length < fuel) :
    readEntries floatOf fuel found (skipBlank
        (List.intercalate [','] (entries.map PaddedEntry.characters) ++ '\x7d' :: rest)) =
      some (found ++ entries.map PaddedEntry.spelled, rest) := by
  induction entries generalizing fuel found with
  | nil => exact absurd rfl nonempty
  | cons entry others inductionHypothesis =>
    obtain ⟨fuel, rfl⟩ := Nat.exists_eq_succ_of_ne_zero (Nat.ne_of_gt (Nat.zero_lt_of_lt enough))
    have here {mark : Char} := @readEntries_padded floatOf entry
      (keysBlank entry List.mem_cons_self) (valuesBlank entry List.mem_cons_self)
      (keys entry List.mem_cons_self) (spells entry List.mem_cons_self)
      (reads entry List.mem_cons_self) found mark
    have fresh : entry.key.spelled ∉ found.map Prod.fst := fun member =>
      (List.nodup_append.mp distinct).2.2 _ member _ List.mem_cons_self rfl
    rw [set_of_fresh fresh] at here
    cases others with
    | nil =>
      rw [List.map_singleton, List.intercalate_singleton] at enough ⊢
      rw [here (by decide) rest (Nat.lt_succ_iff.mp enough), if_pos rfl]
      rfl
    | cons next more =>
      have room := room_of_joined enough
      have apart : ((found ++ [(entry.key.spelled, entry.value.spelled)]).map Prod.fst ++
          (next :: more).map fun entry => entry.key.spelled).Nodup := by
        rw [List.map_append, List.append_assoc]
        exact distinct
      have later := inductionHypothesis (by simp)
        (fun other member => keysBlank other (List.mem_cons_of_mem _ member))
        (fun other member => valuesBlank other (List.mem_cons_of_mem _ member))
        (fun other member => keys other (List.mem_cons_of_mem _ member))
        (fun other member => spells other (List.mem_cons_of_mem _ member))
        (fun other member => reads other (List.mem_cons_of_mem _ member)) apart room.2
      rw [List.map_cons, List.map_cons, List.intercalate_cons_cons, ← List.map_cons,
        List.append_assoc, List.append_assoc, List.singleton_append, here (by decide) _ room.1,
        if_neg (by decide), if_pos rfl, later, List.append_assoc]
      rfl

/-- A word is read as its value. -/
theorem readValue_word (known : (text, value) ∈ literals) (fuel : Nat) (rest : List Char) :
    readValue floatOf (fuel + 1) (text ++ rest) = some (value, rest) := by
  simp only [literals, List.mem_cons, Prod.mk.injEq, List.not_mem_nil, or_false] at known
  rcases known with ⟨rfl, rfl⟩ | ⟨rfl, rfl⟩ | ⟨rfl, rfl⟩ | ⟨rfl, rfl⟩ | ⟨rfl, rfl⟩ | ⟨rfl, rfl⟩ <;>
    rfl

/-- The blanks before the first item are skipped, and no bracket follows them. -/
theorem skipBlank_joined_head {items : List (Padded PyValue)} (nonempty : items ≠ [])
    (blank : ∀ item ∈ items, item.Blank)
    (spells : ∀ item ∈ items, Spells floatOf item.text item.spelled) (rest : List Char) :
    (skipBlank (List.intercalate [','] (items.map Padded.characters) ++ rest)).head? ≠
      some ']' := by
  obtain ⟨item, others, rfl⟩ := List.exists_cons_of_ne_nil nonempty
  obtain ⟨first, following, same, -, open_, -⟩ := (spells item List.mem_cons_self).head
  have shape : ∃ more, List.intercalate [','] ((item :: others).map Padded.characters) ++ rest =
      item.characters ++ more := by
    cases others with
    | nil => exact ⟨rest, by rw [List.map_singleton, List.intercalate_singleton]⟩
    | cons next more =>
      exact ⟨_, by rw [List.map_cons, List.map_cons, List.intercalate_cons_cons, List.append_assoc,
        List.append_assoc]⟩
  obtain ⟨more, split⟩ := shape
  rw [split, (spells item List.mem_cons_self).skipBlank_padded (blank item List.mem_cons_self), same]
  exact fun closes => open_ (Option.some.inj closes)

/-- The blanks before the first entry are skipped, and no brace follows them. -/
theorem skipBlank_entries_head {entries : List PaddedEntry} (nonempty : entries ≠ [])
    (blank : ∀ entry ∈ entries, entry.key.Blank) (rest : List Char) :
    (skipBlank (List.intercalate [','] (entries.map PaddedEntry.characters) ++ rest)).head? ≠
      some '\x7d' := by
  obtain ⟨entry, others, rfl⟩ := List.exists_cons_of_ne_nil nonempty
  have shape : ∃ more, List.intercalate [','] ((entry :: others).map PaddedEntry.characters) ++
      rest = entry.key.before ++ '"' :: more := by
    cases others with
    | nil =>
      exact ⟨_, by rw [List.map_singleton, List.intercalate_singleton, PaddedEntry.characters,
        List.append_assoc, List.cons_append]⟩
    | cons next more =>
      exact ⟨_, by rw [List.map_cons, List.map_cons, List.intercalate_cons_cons, List.append_assoc,
        List.append_assoc, PaddedEntry.characters, List.append_assoc, List.cons_append]⟩
  obtain ⟨more, split⟩ := shape
  rw [split, skipBlank_append (blank entry List.mem_cons_self).1 (head_mark (by decide) _)]
  exact fun closes => absurd (Option.some.inj closes) (by decide)

/-- Every spelling of a value is read as the value. -/
theorem readsAs_of_spells (spells : Spells floatOf text value) : ReadsAs floatOf text value := by
  induction spells with
  | word known =>
    intro fuel rest _ enough
    obtain ⟨fuel, rfl⟩ := (@Spells.word floatOf _ _ known).exists_fuel enough
    exact readValue_word known fuel rest
  | @int sign digits signed whole =>
    intro fuel rest ended enough
    obtain ⟨fuel, rfl⟩ := (@Spells.int floatOf _ _ signed whole).exists_fuel enough
    have read := @readNumber_append floatOf sign digits [] [] rest signed whole (Or.inl rfl)
      (Or.inl rfl) ended
    rw [if_pos ⟨rfl, rfl⟩, List.append_nil, List.append_nil] at read
    rw [readValue_of_number floatOf signed whole, read]
  | @float sign digits fraction exponent signed whole fractional exponential real =>
    intro fuel rest ended enough
    obtain ⟨fuel, rfl⟩ :=
      (@Spells.float floatOf _ _ _ _ signed whole fractional exponential real).exists_fuel enough
    have read := readNumber_append floatOf signed whole fractional exponential ended
    rw [if_neg real] at read
    have regroup : sign ++ digits ++ fraction ++ exponent ++ rest =
        sign ++ digits ++ (fraction ++ exponent ++ rest) := by
      simp only [List.append_assoc]
    rw [regroup] at read ⊢
    rw [readValue_of_number floatOf signed whole, read]
  | @str letters characters spells =>
    intro fuel rest _ enough
    simp only [List.length_cons, List.length_append, List.length_nil] at enough
    obtain ⟨fuel, rfl⟩ := Nat.exists_eq_succ_of_ne_zero (Nat.ne_of_gt (by omega : 0 < fuel))
    rw [List.cons_append, List.append_assoc, List.singleton_append, readValue, if_pos rfl,
      readString_of_spells spells rest (by omega)]
    rfl
  | @emptyList blanks blank =>
    intro fuel rest _ enough
    obtain ⟨fuel, rfl⟩ := (@Spells.emptyList floatOf _ blank).exists_fuel enough
    rw [List.cons_append, List.append_assoc, List.singleton_append, readValue, if_neg (by decide),
      if_pos rfl, skipBlank_append blank (head_mark (by decide) rest), List.head?_cons, if_pos rfl]
    rfl
  | @list items nonempty blank each inductionHypothesis =>
    intro fuel rest _ enough
    obtain ⟨fuel, rfl⟩ := (Spells.list nonempty blank each).exists_fuel enough
    simp only [List.length_cons, List.length_append, List.length_nil] at enough
    rw [List.cons_append, List.append_assoc, List.singleton_append, readValue, if_neg (by decide),
      if_pos rfl, if_neg (skipBlank_joined_head nonempty blank each _),
      readItems_of_spells nonempty blank each inductionHypothesis rest (by omega)]
    rfl
  | @emptyDict blanks blank =>
    intro fuel rest _ enough
    obtain ⟨fuel, rfl⟩ := (@Spells.emptyDict floatOf _ blank).exists_fuel enough
    rw [List.cons_append, List.append_assoc, List.singleton_append, readValue, if_neg (by decide),
      if_neg (by decide), if_pos rfl, skipBlank_append blank (head_mark (by decide) rest),
      List.head?_cons, if_pos rfl]
    rfl
  | @dict entries nonempty keysBlank valuesBlank keys distinct values inductionHypothesis =>
    intro fuel rest _ enough
    obtain ⟨fuel, rfl⟩ :=
      (Spells.dict nonempty keysBlank valuesBlank keys distinct values).exists_fuel enough
    simp only [List.length_cons, List.length_append, List.length_nil] at enough
    rw [List.cons_append, List.append_assoc, List.singleton_append, readValue, if_neg (by decide),
      if_neg (by decide), if_pos rfl, if_neg (skipBlank_entries_head nonempty keysBlank _),
      @readEntries_of_spells floatOf entries nonempty keysBlank valuesBlank keys values
        inductionHypothesis [] distinct rest fuel (by omega)]
    rfl

/-- `json.loads` reads every spelling of a value as the value, with blanks around it. -/
theorem loads_of_spells (spells : Spells floatOf text value) {before after : List Char}
    (beforeBlank : ∀ character ∈ before, isBlank character = true)
    (afterBlank : ∀ character ∈ after, isBlank character = true) :
    loads floatOf (String.ofList (before ++ text ++ after)) = some value := by
  have blank : (⟨before, text, after, value⟩ : Padded PyValue).Blank := ⟨beforeBlank, afterBlank⟩
  have start := @Spells.skipBlank_padded floatOf ⟨before, text, after, value⟩ blank spells []
  rw [Padded.characters, List.append_nil, List.append_nil] at start
  have rest : skipBlank after = [] := by
    rw [← List.append_nil after]
    exact skipBlank_append afterBlank (by simp)
  have ended : Ends after := by
    have none_left : Ends [] := fun character head => by cases head
    rw [← List.append_nil after]
    exact ends_blanks afterBlank none_left
  rw [loads, String.toList_ofList, start, readsAs_of_spells spells _ _ ended
    (by simp only [List.length_append]; omega)]
  simp only [Option.bind_eq_bind, Option.bind_some]
  rw [if_pos rest]

end

/-! ### `json.dumps` in its formats -/

/-- One character of a JSON string that is not kept ASCII-only. -/
def escapePlain (character : Char) : List Char :=
  let code := character.toNat
  if character = '"' then ['\\', '"']
  else if character = '\\' then ['\\', '\\']
  else if character = '\n' then ['\\', 'n']
  else if character = '\r' then ['\\', 'r']
  else if character = '\t' then ['\\', 't']
  else if code = 0x0C then ['\\', 'f']
  else if code = 0x08 then ['\\', 'b']
  else if 0x20 ≤ code then [character]
  else escapeUnit code

/-- The arguments of `json.dumps`: `indent`, `ensure_ascii` and `sort_keys`. -/
structure Format where
  indent : Option Nat
  ensureAscii : Bool
  sortKeys : Bool

namespace Format

variable (format : Format)

/-- The letters of a string between its quotes. -/
def letters (text : String) : List Char :=
  text.toList.flatMap (if format.ensureAscii then escapeChar else escapePlain)

/-- What stands before an item of a container at a level. -/
def lead (level : Nat) : List Char :=
  match format.indent with
  | none => []
  | some width => '\n' :: List.replicate (width * level) ' '

/-- What stands between two items, after the comma. -/
def gap (level : Nat) : List Char :=
  match format.indent with
  | none => [' ']
  | some _ => format.lead level

/-- The entries of a dict in the order in which they are rendered. -/
def arrange {α : Type} (entries : List (String × α)) : List (String × α) :=
  if format.sortKeys then sortByKey entries else entries

/-- The items of a container with what stands before them. -/
def laid (level : Nat) : List (List Char) → List Char
  | [] => []
  | first :: others =>
    format.lead level ++ List.intercalate (',' :: format.gap level) (first :: others)

mutual

/-- `json.dumps(value, …)` at a level. -/
def render : Nat → PyValue → List Char
  | _, .none => ['n', 'u', 'l', 'l']
  | _, .bool true => ['t', 'r', 'u', 'e']
  | _, .bool false => ['f', 'a', 'l', 's', 'e']
  | _, .int value => (toString value).toList
  | _, .float value => (number value).toList
  | _, .str value => '"' :: (format.letters value ++ ['"'])
  | _, .list [] => ['[', ']']
  | level, .list (item :: rest) => '[' :: (format.laid (level + 1)
      (renderItems (level + 1) (item :: rest)) ++ format.lead level ++ [']'])
  | _, .dict [] => ['\x7b', '\x7d']
  | level, .dict (entry :: rest) => '\x7b' :: (format.laid (level + 1)
      ((format.arrange (renderEntries (level + 1) (entry :: rest))).map fun rendered =>
        '"' :: (format.letters rendered.1 ++ '"' :: ':' :: ' ' :: rendered.2)) ++
      format.lead level ++ ['\x7d'])

def renderItems : Nat → List PyValue → List (List Char)
  | _, [] => []
  | level, item :: rest => render level item :: renderItems level rest

def renderEntries : Nat → List (String × PyValue) → List (String × List Char)
  | _, [] => []
  | level, (name, value) :: rest => (name, render level value) :: renderEntries level rest

end

/-- `json.dumps(value, …)`. -/
def dumps (value : PyValue) : String :=
  String.ofList (format.render 0 value)

/-- The value as it is read back: with its keys sorted, or as it was. -/
def readBack (value : PyValue) : PyValue :=
  if format.sortKeys then canonical value else value

theorem renderItems_eq (level : Nat) (items : List PyValue) :
    format.renderItems level items = items.map (format.render level) := by
  induction items with
  | nil => rw [renderItems, List.map_nil]
  | cons item rest inductionHypothesis => rw [renderItems, inductionHypothesis, List.map_cons]

theorem renderEntries_eq (level : Nat) (entries : PyDict) :
    format.renderEntries level entries =
      entries.map fun entry => (entry.1, format.render level entry.2) := by
  induction entries with
  | nil => rw [renderEntries, List.map_nil]
  | cons entry rest inductionHypothesis =>
    obtain ⟨name, value⟩ := entry
    rw [renderEntries, inductionHypothesis, List.map_cons]

theorem arrange_map {α β : Type} (render : α → β) (entries : List (String × α)) :
    format.arrange (entries.map fun entry => (entry.1, render entry.2)) =
      (format.arrange entries).map fun entry => (entry.1, render entry.2) := by
  unfold arrange
  split
  · exact sortByKey_map render entries
  · rfl

theorem arrange_perm {α : Type} (entries : List (String × α)) :
    (format.arrange entries).Perm entries := by
  unfold arrange
  split
  · exact sortByKey_perm entries
  · exact List.Perm.refl _

theorem readBack_list (items : List PyValue) :
    format.readBack (.list items) = .list (items.map format.readBack) := by
  unfold readBack
  split
  · rw [canonical, canonicalItems_eq]
  · rw [List.map_id']

theorem readBack_dict (entries : PyDict) : format.readBack (.dict entries) =
    .dict (format.arrange (entries.map fun entry => (entry.1, format.readBack entry.2))) := by
  unfold readBack arrange
  split
  · rw [canonical, canonicalEntries_eq]
  · rw [List.map_id']

end Format

/-! ### What is rendered is a spelling -/

theorem spellsChar_escapeChar (character : Char) : SpellsChar (escapeChar character) character := by
  obtain ⟨first, others, split, open_, -⟩ := readChar_escapeChar character []
  rw [List.append_nil] at split
  refine ⟨first, others, split, open_, fun rest => ?_⟩
  obtain ⟨other, more, same, -, read⟩ := readChar_escapeChar character rest
  rw [split, List.cons_append] at same
  obtain ⟨rfl, rfl⟩ := List.cons.inj same
  exact read

/-- Beyond the printable ASCII characters the two ways to escape differ. -/
theorem escapePlain_eq (character : Char) :
    escapePlain character = escapeChar character ∨
      escapePlain character = [character] ∧ character ≠ '"' ∧ character ≠ '\\' ∧
        0x20 ≤ character.toNat := by
  unfold escapePlain escapeChar
  dsimp only
  split_ifs with quote backslash newline carriage tab form back plain printable plane printable plane
  all_goals first
    | exact Or.inl rfl
    | exact Or.inr ⟨rfl, quote, backslash, plain⟩
    | skip
  · simp only [Bool.and_eq_true, decide_eq_true_eq] at printable
    exact absurd printable.1 plain
  · omega

theorem spellsChar_escapePlain (character : Char) :
    SpellsChar (escapePlain character) character := by
  rcases escapePlain_eq character with same | ⟨same, quote, backslash, plain⟩
  · rw [same]
    exact spellsChar_escapeChar character
  · rw [same]
    refine ⟨character, [], rfl, quote, fun rest => ?_⟩
    unfold readChar
    rw [if_neg backslash, if_neg (not_lt.mpr plain)]
    rfl

/-- A string escaped character by character is spelled by its letters. -/
theorem spellsString_flatMap {escape : Char → List Char}
    (spells : ∀ character, SpellsChar (escape character) character) (characters : List Char) :
    SpellsString (characters.flatMap escape) characters := by
  induction characters with
  | nil => exact .nil
  | cons character rest inductionHypothesis =>
    rw [List.flatMap_cons]
    exact .cons (spells character) inductionHypothesis

namespace Format

variable (format : Format) {floatOf : String → PyFloat}

theorem spellsString_letters (text : String) : SpellsString (format.letters text) text.toList := by
  unfold letters
  split
  · exact spellsString_flatMap spellsChar_escapeChar _
  · exact spellsString_flatMap spellsChar_escapePlain _

theorem blank_lead (level : Nat) : ∀ character ∈ format.lead level, isBlank character = true := by
  unfold lead
  intro character member
  split at member
  · cases member
  · rcases List.mem_cons.mp member with rfl | inside
    · decide
    · rw [(List.mem_replicate.mp inside).2]
      decide

theorem blank_gap (level : Nat) : ∀ character ∈ format.gap level, isBlank character = true := by
  unfold gap
  split
  · simp [isBlank]
  · exact format.blank_lead level

end Format

section

variable {Piece Laid : Type}

/-- Pieces laid out one behind the other: the first has something before it, each other one the gap,
and the last something after it. -/
def spread (build : List Char → List Char → Piece → Laid) (gap close : List Char) :
    List Char → List Piece → List Laid
  | _, [] => []
  | before, [piece] => [build before close piece]
  | before, piece :: next :: rest =>
    build before [] piece :: spread build gap close gap (next :: rest)

variable {build : List Char → List Char → Piece → Laid} {gap close before : List Char}
  {pieces : List Piece}

theorem spread_ne_nil (nonempty : pieces ≠ []) : spread build gap close before pieces ≠ [] := by
  obtain ⟨piece, rest, rfl⟩ := List.exists_cons_of_ne_nil nonempty
  cases rest <;> simp [spread]

theorem mem_spread {laid : Laid} (member : laid ∈ spread build gap close before pieces) :
    ∃ piece ∈ pieces, ∃ front ∈ [before, gap], ∃ back ∈ [[], close],
      laid = build front back piece := by
  induction pieces generalizing before with
  | nil => cases member
  | cons piece rest inductionHypothesis =>
    cases rest with
    | nil =>
      obtain rfl := List.mem_singleton.mp member
      exact ⟨piece, List.mem_cons_self, before, by simp, close, by simp, rfl⟩
    | cons next others =>
      rw [spread] at member
      rcases List.mem_cons.mp member with rfl | inside
      · exact ⟨piece, List.mem_cons_self, before, by simp, [], by simp, rfl⟩
      · obtain ⟨found, here, front, frontHere, back, backHere, same⟩ := inductionHypothesis inside
        refine ⟨found, List.mem_cons_of_mem _ here, front, ?_, back, backHere, same⟩
        simp only [List.mem_cons, List.not_mem_nil, or_false, or_self] at frontHere
        simp [frontHere]

theorem map_spread {Image : Type} {image : Laid → Image} {ofPiece : Piece → Image}
    (each : ∀ front back piece, image (build front back piece) = ofPiece piece) :
    (spread build gap close before pieces).map image = pieces.map ofPiece := by
  induction pieces generalizing before with
  | nil => rfl
  | cons piece rest inductionHypothesis =>
    cases rest with
    | nil => rw [spread, List.map_singleton, List.map_singleton, each]
    | cons next others =>
      rw [spread, List.map_cons, inductionHypothesis, each]
      rfl

/-- The pieces joined by commas are their texts with what stands between them. -/
theorem joined_spread {characters : Laid → List Char} {text : Piece → List Char}
    (each : ∀ front back piece, characters (build front back piece) = front ++ text piece ++ back)
    (nonempty : pieces ≠ []) :
    List.intercalate [','] ((spread build gap close before pieces).map characters) =
      before ++ List.intercalate (',' :: gap) (pieces.map text) ++ close := by
  induction pieces generalizing before with
  | nil => exact absurd rfl nonempty
  | cons piece rest inductionHypothesis =>
    cases rest with
    | nil =>
      rw [spread, List.map_singleton, List.map_singleton, List.intercalate_singleton,
        List.intercalate_singleton, each]
    | cons next others =>
      have later := @inductionHypothesis gap (by simp)
      obtain ⟨first, more, shape⟩ := List.exists_cons_of_ne_nil
        (@spread_ne_nil _ _ build gap close gap (next :: others) (by simp))
      rw [spread, List.map_cons, List.map_cons, shape, List.map_cons, List.intercalate_cons_cons,
        ← List.map_cons, ← shape, later, List.map_cons, List.intercalate_cons_cons, each]
      simp

end

namespace Format

variable (format : Format) {floatOf : String → PyFloat}

theorem blank_front {level : Nat} {front : List Char}
    (here : front ∈ [format.lead level, format.gap level]) :
    ∀ character ∈ front, isBlank character = true := by
  simp only [List.mem_cons, List.not_mem_nil, or_false] at here
  rcases here with rfl | rfl
  · exact format.blank_lead level
  · exact format.blank_gap level

theorem blank_back {level : Nat} {back : List Char} (here : back ∈ [[], format.lead level]) :
    ∀ character ∈ back, isBlank character = true := by
  simp only [List.mem_cons, List.not_mem_nil, or_false] at here
  rcases here with rfl | rfl
  · simp
  · exact format.blank_lead level

theorem spells_list (level : Nat) {items : List PyValue} (nonempty : items ≠ [])
    (each : ∀ item ∈ items, Spells floatOf (format.render (level + 1) item) (format.readBack item)) :
    Spells floatOf (format.render level (.list items)) (format.readBack (.list items)) := by
  obtain ⟨laid, laid_eq⟩ : ∃ laid, laid = spread
      (fun before after item =>
        (⟨before, format.render (level + 1) item, after, format.readBack item⟩ : Padded PyValue))
      (format.gap (level + 1)) (format.lead level) (format.lead (level + 1)) items := ⟨_, rfl⟩
  have texts : List.intercalate [','] (laid.map Padded.characters) =
      format.laid (level + 1) (items.map (format.render (level + 1))) ++ format.lead level := by
    obtain ⟨item, rest, rfl⟩ := List.exists_cons_of_ne_nil nonempty
    rw [laid_eq, @joined_spread _ _ _ _ _ _ _ _ (format.render (level + 1)) (fun _ _ _ => rfl)
      nonempty]
    rfl
  have values : laid.map Padded.spelled = items.map format.readBack := by
    rw [laid_eq]
    exact map_spread fun _ _ _ => rfl
  have shape : format.render level (.list items) =
      '[' :: (List.intercalate [','] (laid.map Padded.characters) ++ [']']) := by
    rw [texts]
    obtain ⟨item, rest, rfl⟩ := List.exists_cons_of_ne_nil nonempty
    rw [render, renderItems_eq]
  rw [shape, readBack_list, ← values]
  refine .list ?_ (fun padded member => ?_) fun padded member => ?_
  · rw [laid_eq]
    exact spread_ne_nil nonempty
  · rw [laid_eq] at member
    obtain ⟨item, -, front, frontHere, back, backHere, rfl⟩ := mem_spread member
    exact ⟨format.blank_front frontHere, format.blank_back backHere⟩
  · rw [laid_eq] at member
    obtain ⟨item, here, front, -, back, -, rfl⟩ := mem_spread member
    exact each item here

theorem spells_dict (level : Nat) {entries : PyDict} (nonempty : entries ≠ [])
    (distinct : (entries.map Prod.fst).Nodup)
    (each : ∀ entry ∈ entries,
      Spells floatOf (format.render (level + 1) entry.2) (format.readBack entry.2)) :
    Spells floatOf (format.render level (.dict entries)) (format.readBack (.dict entries)) := by
  have perm := format.arrange_perm entries
  obtain ⟨laid, laid_eq⟩ : ∃ laid, laid = spread
      (fun before after (entry : String × PyValue) =>
        (⟨⟨before, format.letters entry.1, [], entry.1⟩,
          ⟨[' '], format.render (level + 1) entry.2, after, format.readBack entry.2⟩⟩ : PaddedEntry))
      (format.gap (level + 1)) (format.lead level) (format.lead (level + 1))
      (format.arrange entries) := ⟨_, rfl⟩
  have arranged : format.arrange entries ≠ [] := by
    intro none_left
    rw [none_left] at perm
    exact nonempty perm.nil_eq.symm
  have texts : List.intercalate [','] (laid.map PaddedEntry.characters) =
      format.laid (level + 1) ((format.arrange entries).map fun entry =>
        '"' :: (format.letters entry.1 ++ '"' :: ':' :: ' ' :: format.render (level + 1) entry.2)) ++
      format.lead level := by
    obtain ⟨entry, rest, shape⟩ := List.exists_cons_of_ne_nil arranged
    rw [laid_eq, @joined_spread _ _ _ _ _ _ _ _ (fun entry : String × PyValue =>
      '"' :: (format.letters entry.1 ++ '"' :: ':' :: ' ' :: format.render (level + 1) entry.2))
      (fun _ _ _ => by simp [PaddedEntry.characters, Padded.characters]) arranged, shape]
    rfl
  have values : laid.map PaddedEntry.spelled =
      (format.arrange entries).map fun entry => (entry.1, format.readBack entry.2) := by
    rw [laid_eq]
    exact map_spread fun _ _ _ => rfl
  have shape : format.render level (.dict entries) =
      '\x7b' :: (List.intercalate [','] (laid.map PaddedEntry.characters) ++ ['\x7d']) := by
    rw [texts]
    obtain ⟨entry, rest, same⟩ := List.exists_cons_of_ne_nil nonempty
    rw [same, render, renderEntries_eq, arrange_map, List.map_map]
    rfl
  rw [shape, readBack_dict, arrange_map, ← values]
  refine .dict ?_ (fun padded member => ?_) (fun padded member => ?_) (fun padded member => ?_) ?_
    fun padded member => ?_
  · rw [laid_eq]
    exact spread_ne_nil arranged
  · rw [laid_eq] at member
    obtain ⟨entry, -, front, frontHere, back, -, rfl⟩ := mem_spread member
    exact ⟨format.blank_front frontHere, by simp⟩
  · rw [laid_eq] at member
    obtain ⟨entry, -, front, -, back, backHere, rfl⟩ := mem_spread member
    exact ⟨by simp [isBlank], format.blank_back backHere⟩
  · rw [laid_eq] at member
    obtain ⟨entry, -, front, -, back, -, rfl⟩ := mem_spread member
    exact format.spellsString_letters entry.1
  · have names : laid.map (fun entry => entry.key.spelled) =
        (format.arrange entries).map Prod.fst := by
      rw [laid_eq]
      exact map_spread fun _ _ _ => rfl
    rw [names]
    exact (perm.map Prod.fst).nodup_iff.mpr distinct
  · rw [laid_eq] at member
    obtain ⟨entry, here, front, -, back, -, rfl⟩ := mem_spread member
    exact each entry (perm.mem_iff.mp here)

/-- What is rendered spells the value, at every level. -/
theorem spells_render {value : PyValue} (plain : Plain floatOf value) (level : Nat) :
    Spells floatOf (format.render level value) (format.readBack value) := by
  have atomic {value : PyValue} (same : canonical value = value) : format.readBack value = value := by
    unfold readBack
    split
    · exact same
    · rfl
  induction plain generalizing level with
  | none =>
    rw [atomic (by rw [canonical]), render]
    exact .word (by simp [literals])
  | bool value =>
    rw [atomic (by rw [canonical])]
    cases value with
    | true =>
      rw [render]
      exact .word (by simp [literals])
    | false =>
      rw [render]
      exact .word (by simp [literals])
  | int value =>
    obtain ⟨sign, digits, same, signed, whole, same_value⟩ := toList_toString_int value
    rw [atomic (by rw [canonical]), render, same, ← same_value]
    exact .int signed whole
  | float value readable =>
    rw [atomic (by rw [canonical]), render]
    by_cases special : value.repr = "nan" ∨ value.repr = "inf" ∨ value.repr = "-inf"
    · obtain ⟨text⟩ := value
      dsimp only at special
      rcases special with rfl | rfl | rfl
      · exact .word (by simp [literals, number])
      · exact .word (by simp [literals, number])
      · exact .word (by simp [literals, number])
    · obtain ⟨token, sign, digits, fraction, exponent, same, signed, whole, fractional, exponential,
        real⟩ := readable.resolve_left special
      simp only [not_or] at special
      have spells := @Spells.float floatOf _ _ _ _ signed whole fractional exponential real
      rw [← same, String.ofList_toList, token] at spells
      rw [number, if_neg special.1, if_neg special.2.1, if_neg special.2.2]
      exact spells
  | str value =>
    rw [atomic (by rw [canonical]), render]
    have spells := @Spells.str floatOf _ _ (format.spellsString_letters value)
    rwa [String.ofList_toList] at spells
  | list items plain inductionHypothesis =>
    cases items with
    | nil =>
      rw [atomic (by rw [canonical, canonicalItems]), render]
      exact @Spells.emptyList floatOf [] (by simp)
    | cons item rest =>
      exact format.spells_list level (by simp)
        fun item member => inductionHypothesis item member (level + 1)
  | dict entries distinct plain inductionHypothesis =>
    cases entries with
    | nil =>
      rw [atomic (by rw [canonical, canonicalEntries]; rfl), render]
      exact @Spells.emptyDict floatOf [] (by simp)
    | cons entry rest =>
      exact format.spells_dict level (by simp) distinct
        fun entry member => inductionHypothesis entry member (level + 1)

/-- A character that is no control character, or a line feed. -/
def Printable (character : Char) : Prop :=
  0x20 ≤ character.toNat ∨ character = '\n'

theorem printable_escapeUnit (unit : Nat) : ∀ character ∈ escapeUnit unit, Printable character := by
  have digit (number : Nat) : Printable (hexDigit (number % 16)) := by
    have each : ∀ digit < 16, 0x20 ≤ (hexDigit digit).toNat := by decide
    exact Or.inl (each _ (Nat.mod_lt _ (by decide)))
  intro character member
  simp only [escapeUnit, List.mem_cons, List.not_mem_nil, or_false] at member
  rcases member with rfl | rfl | rfl | rfl | rfl | rfl
  · exact Or.inl (by decide)
  · exact Or.inl (by decide)
  all_goals exact digit _

theorem printable_escapeChar (escaped : Char) :
    ∀ character ∈ escapeChar escaped, Printable character := by
  have pair {letter : Char} (printable : Printable letter) :
      ∀ character ∈ ['\\', letter], Printable character := by
    intro character member
    simp only [List.mem_cons, List.not_mem_nil, or_false] at member
    rcases member with rfl | rfl
    · exact Or.inl (by decide)
    · exact printable
  unfold escapeChar
  dsimp only
  split_ifs with quote backslash newline carriage tab form back printable plane
  iterate 7 exact pair (Or.inl (by decide))
  · intro character member
    obtain rfl := List.mem_singleton.mp member
    simp only [Bool.and_eq_true, decide_eq_true_eq] at printable
    exact Or.inl printable.1
  · exact printable_escapeUnit _
  · intro character member
    rcases List.mem_append.mp member with high | low
    · exact printable_escapeUnit _ character high
    · exact printable_escapeUnit _ character low

theorem printable_letters (text : String) :
    ∀ character ∈ format.letters text, Printable character := by
  intro character member
  unfold letters at member
  obtain ⟨escaped, -, here⟩ := List.mem_flatMap.mp member
  split at here
  · exact printable_escapeChar escaped character here
  · rcases escapePlain_eq escaped with same | ⟨same, -, -, plain⟩
    · exact printable_escapeChar escaped character (same ▸ here)
    · rw [same] at here
      obtain rfl := List.mem_singleton.mp here
      exact Or.inl plain

theorem printable_intercalate {separator : List Char} {parts : List (List Char)}
    (between : ∀ character ∈ separator, Printable character)
    (each : ∀ part ∈ parts, ∀ character ∈ part, Printable character) :
    ∀ character ∈ List.intercalate separator parts, Printable character := by
  induction parts with
  | nil => simp [List.intercalate]
  | cons part rest inductionHypothesis =>
    have others := inductionHypothesis fun other member => each other (List.mem_cons_of_mem _ member)
    cases rest with
    | nil =>
      rw [List.intercalate_singleton]
      exact each part List.mem_cons_self
    | cons next more =>
      rw [List.intercalate_cons_cons]
      intro character member
      rcases List.mem_append.mp member with front | behind
      · rcases List.mem_append.mp front with here | gap
        · exact each part List.mem_cons_self character here
        · exact between character gap
      · exact others character behind

theorem printable_lead (level : Nat) : ∀ character ∈ format.lead level, Printable character := by
  unfold lead
  intro character member
  split at member
  · cases member
  · rcases List.mem_cons.mp member with rfl | inside
    · exact Or.inr rfl
    · rw [(List.mem_replicate.mp inside).2]
      exact Or.inl (by decide)

theorem printable_laid (level : Nat) {parts : List (List Char)}
    (each : ∀ part ∈ parts, ∀ character ∈ part, Printable character) :
    ∀ character ∈ format.laid level parts, Printable character := by
  cases parts with
  | nil => simp [laid]
  | cons first others =>
    intro character member
    rcases List.mem_append.mp member with lead | inside
    · exact format.printable_lead level character lead
    · refine printable_intercalate (fun character between => ?_) each character inside
      rcases List.mem_cons.mp between with rfl | gap
      · exact Or.inl (by decide)
      · unfold Format.gap at gap
        split at gap
        · obtain rfl := List.mem_singleton.mp gap
          exact Or.inl (by decide)
        · exact format.printable_lead level character gap

/-- The characters of a number are printable. -/
theorem printable_number {sign digits fraction exponent : List Char}
    (signed : sign = [] ∨ sign = ['-']) (whole : Whole digits) (fractional : IsFraction fraction)
    (exponential : IsExponent exponent) :
    ∀ character ∈ sign ++ digits ++ fraction ++ exponent, Printable character := by
  have ofDigits {digits : List Char} (all : ∀ character ∈ digits, character.isDigit = true)
      (character : Char) (member : character ∈ digits) : Printable character :=
    Or.inl (le_trans (by decide) (Text.code_of_isDigit (all character member)).1)
  intro character member
  rcases List.mem_append.mp member with front | here
  · rcases List.mem_append.mp front with front | here
    · rcases List.mem_append.mp front with here | here
      · rcases signed with rfl | rfl
        · cases here
        · obtain rfl := List.mem_singleton.mp here
          exact Or.inl (by decide)
      · exact ofDigits whole.all character here
    · rcases fractional with rfl | ⟨more, -, all, rfl⟩
      · cases here
      · rcases List.mem_cons.mp here with rfl | inside
        · exact Or.inl (by decide)
        · exact ofDigits all character inside
  · rcases exponential with rfl | ⟨mark, more, marks, -, all, rfl⟩
    · cases here
    · rcases List.mem_cons.mp here with rfl | inside
      · exact Or.inl (by decide)
      · rcases List.mem_cons.mp inside with rfl | inside
        · rcases marks with rfl | rfl
          · exact Or.inl (by decide)
          · exact Or.inl (by decide)
        · exact ofDigits all character inside

theorem printable_cons {marked : Char} (printable : 0x20 ≤ marked.toNat) {rest : List Char}
    (others : ∀ character ∈ rest, Printable character) :
    ∀ character ∈ marked :: rest, Printable character := by
  intro character member
  rcases List.mem_cons.mp member with rfl | inside
  · exact Or.inl printable
  · exact others character inside

/-- What stands before the closing mark of a list or a dict is printable with it. -/
theorem printable_closed (level : Nat) {body : List Char}
    (inside : ∀ character ∈ body, Printable character) {marked : Char}
    (printable : 0x20 ≤ marked.toNat) :
    ∀ character ∈ body ++ format.lead level ++ [marked], Printable character := by
  intro character member
  rcases List.mem_append.mp member with front | here
  · rcases List.mem_append.mp front with here | here
    · exact inside character here
    · exact format.printable_lead level character here
  · obtain rfl := List.mem_singleton.mp here
    exact Or.inl printable

theorem printable_word {text : List Char}
    (all : text.all (fun character => decide (0x20 ≤ character.toNat)) = true) :
    ∀ character ∈ text, Printable character := fun character member =>
  Or.inl (of_decide_eq_true (List.all_eq_true.mp all character member))

/-- A rendered float is a word, or a number. -/
theorem printable_float {value : PyFloat} (readable : IsFloat floatOf value) (level : Nat) :
    ∀ character ∈ format.render level (.float value), Printable character := by
  rw [render]
  by_cases special : value.repr = "nan" ∨ value.repr = "inf" ∨ value.repr = "-inf"
  · obtain ⟨text⟩ := value
    dsimp only at special
    rcases special with rfl | rfl | rfl
    · exact printable_word (by decide)
    · exact printable_word (by decide)
    · exact printable_word (by decide)
  · obtain ⟨-, sign, digits, fraction, exponent, same, signed, whole, fractional, exponential, -⟩ :=
      readable.resolve_left special
    simp only [not_or] at special
    rw [number, if_neg special.1, if_neg special.2.1, if_neg special.2.2, same]
    exact printable_number signed whole fractional exponential

/-- A list of printable items is rendered printable. -/
theorem printable_list {items : List PyValue} (level : Nat)
    (printable : ∀ item ∈ items, ∀ character ∈ format.render (level + 1) item,
      Printable character) :
    ∀ character ∈ format.render level (.list items), Printable character := by
  cases items with
  | nil =>
    rw [render]
    exact printable_word (by decide)
  | cons item rest =>
    rw [render, renderItems_eq]
    refine printable_cons (by decide)
      (format.printable_closed level (format.printable_laid _ fun part member => ?_) (by decide))
    obtain ⟨item, here, rfl⟩ := List.mem_map.mp member
    exact printable item here

/-- A dict of printable values is rendered printable. -/
theorem printable_dict {entries : PyDict} (level : Nat)
    (printable : ∀ entry ∈ entries, ∀ character ∈ format.render (level + 1) entry.2,
      Printable character) :
    ∀ character ∈ format.render level (.dict entries), Printable character := by
  cases entries with
  | nil =>
    rw [render]
    exact printable_word (by decide)
  | cons entry rest =>
    rw [render, renderEntries_eq, arrange_map, List.map_map]
    refine printable_cons (by decide)
      (format.printable_closed level (format.printable_laid _ fun part member => ?_) (by decide))
    obtain ⟨entry, here, rfl⟩ := List.mem_map.mp member
    have known := (format.arrange_perm _).mem_iff.mp here
    refine printable_cons (by decide) fun character inside => ?_
    rcases List.mem_append.mp inside with key | behind
    · exact format.printable_letters entry.1 character key
    · exact printable_cons (by decide) (printable_cons (by decide) (printable_cons (by decide)
        (printable entry known))) character behind

/-- No character that is rendered is a control character but the line feeds of the indentation. -/
theorem printable_render {value : PyValue} (plain : Plain floatOf value) (level : Nat) :
    ∀ character ∈ format.render level value, Printable character := by
  induction plain generalizing level with
  | none =>
    rw [render]
    exact printable_word (by decide)
  | bool value =>
    cases value with
    | true =>
      rw [render]
      exact printable_word (by decide)
    | false =>
      rw [render]
      exact printable_word (by decide)
  | int value =>
    obtain ⟨sign, digits, same, signed, whole, -⟩ := toList_toString_int value
    have printable := @printable_number sign digits [] [] signed whole (Or.inl rfl) (Or.inl rfl)
    rw [List.append_nil, List.append_nil] at printable
    rw [render, same]
    exact printable
  | float value readable => exact format.printable_float readable level
  | str value =>
    rw [render]
    refine printable_cons (by decide) fun character member => ?_
    rcases List.mem_append.mp member with here | here
    · exact format.printable_letters value character here
    · obtain rfl := List.mem_singleton.mp here
      exact Or.inl (by decide)
  | list items plain inductionHypothesis =>
    exact format.printable_list level fun item member => inductionHypothesis item member (level + 1)
  | dict entries distinct plain inductionHypothesis =>
    exact format.printable_dict level fun entry member =>
      inductionHypothesis entry member (level + 1)

/-- `json.loads` gives back what `json.dumps` wrote in any of its formats, with blanks after it. -/
theorem loads_dumps {value : PyValue} (plain : Plain floatOf value) {blanks : String}
    (blank : ∀ character ∈ blanks.toList, isBlank character = true) :
    loads floatOf (format.dumps value ++ blanks) = some (format.readBack value) := by
  have read := @loads_of_spells floatOf _ _ (format.spells_render plain 0) [] blanks.toList
    (by simp) blank
  rwa [List.nil_append, String.ofList_append, String.ofList_toList] at read

end Format

end Json

end FleetMemory
