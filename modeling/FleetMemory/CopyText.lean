/-
This file is a small library on the text format of `COPY`: a row is a line, its fields stand
between tabs, an absent field is a backslash with an N, and a backslash stands before each character
that would end a field or a line. What is written is read back row by row, whatever the fields hold.
-/

import Mathlib.Data.List.Basic

namespace CopyText

/-- A field: its text, or none when it is NULL. -/
abbrev Field := Option (List Char)

abbrev Row := List Field

/-! ### The writer -/

/-- A character of a field. -/
def escape (character : Char) : List Char :=
  if character = '\\' then ['\\', '\\']
  else if character = '\n' then ['\\', 'n']
  else if character = '\r' then ['\\', 'r']
  else if character = '\t' then ['\\', 't']
  else if character = Char.ofNat 0x08 then ['\\', 'b']
  else if character = Char.ofNat 0x0B then ['\\', 'v']
  else if character = Char.ofNat 0x0C then ['\\', 'f']
  else [character]

def writeField : Field → List Char
  | none => ['\\', 'N']
  | some text => text.flatMap escape

/-- The fields of a row, each behind a tab but the first, and the end of the line. -/
def writeRow : Row → List Char
  | [] => ['\n']
  | [field] => writeField field ++ ['\n']
  | field :: next :: rest => writeField field ++ '\t' :: writeRow (next :: rest)

/-- The text of some rows. -/
def write (rows : List Row) : List Char :=
  rows.flatMap writeRow

/-! ### The reader -/

/-- The character that a letter behind a backslash stands for. A character given by its number is
refused here, and so is the mark that ends the data. -/
def unescaped (letter : Char) : Option Char :=
  if letter = 'n' then some '\n'
  else if letter = 'r' then some '\r'
  else if letter = 't' then some '\t'
  else if letter = 'b' then some (Char.ofNat 0x08)
  else if letter = 'v' then some (Char.ofNat 0x0B)
  else if letter = 'f' then some (Char.ofNat 0x0C)
  else if letter.isDigit || letter = 'x' || letter = '.' then none
  else some letter

/-- The text of a field up to the mark that ends it, with the mark and what follows. Behind a
backslash a letter stands for a character. -/
def readText : Bool → List Char → Option (List Char × Char × List Char)
  | _, [] => none
  | true, letter :: rest =>
    (unescaped letter).bind fun stands => (readText false rest).map (Prod.map (stands :: ·) id)
  | false, character :: rest =>
    if character = '\t' ∨ character = '\n' then some ([], character, rest)
    else if character = '\r' then none
    else if character = '\\' then readText true rest
    else (readText false rest).map (Prod.map (character :: ·) id)

/-- A field, which is NULL when its text is the mark for that and nothing else. -/
def readField (characters : List Char) : Option (Field × Char × List Char) :=
  match characters with
  | '\\' :: 'N' :: mark :: rest =>
    if mark = '\t' ∨ mark = '\n' then some (none, mark, rest)
    else (readText false characters).map (Prod.map some id)
  | characters => (readText false characters).map (Prod.map some id)

/-- The fields of a row up to the end of its line, at most the given number of steps. -/
def readRow : Nat → List Char → Option (Row × List Char)
  | 0, _ => none
  | fuel + 1, characters =>
    match readField characters with
    | none => none
    | some (field, mark, rest) =>
      if mark = '\n' then some ([field], rest)
      else (readRow fuel rest).map (Prod.map (field :: ·) id)

/-- The rows of a text, at most the given number of steps. -/
def readRows : Nat → List Char → Option (List Row)
  | 0, _ => none
  | fuel + 1, characters =>
    if characters = [] then some []
    else
      match readRow fuel characters with
      | none => none
      | some (row, rest) => (readRows fuel rest).map (row :: ·)

/-- The rows of a text. Every step takes a character. -/
def read (characters : List Char) : Option (List Row) :=
  readRows (characters.length + 1) characters

/-! ### What is written is read back -/

/-- A character is written as itself, or as a backslash with a letter that stands for it. -/
theorem escape_cases (character : Char) :
    (escape character = [character] ∧ character ≠ '\\' ∧ character ≠ '\n' ∧ character ≠ '\r' ∧
        character ≠ '\t') ∨
      ∃ letter, escape character = ['\\', letter] ∧ unescaped letter = some character ∧
        letter ≠ 'N' := by
  unfold escape
  split_ifs with backslash newline carriage tab back vertical form
  · exact Or.inr ⟨_, rfl, by rw [backslash]; decide, by decide⟩
  · exact Or.inr ⟨_, rfl, by rw [newline]; decide, by decide⟩
  · exact Or.inr ⟨_, rfl, by rw [carriage]; decide, by decide⟩
  · exact Or.inr ⟨_, rfl, by rw [tab]; decide, by decide⟩
  · exact Or.inr ⟨_, rfl, by rw [back]; decide, by decide⟩
  · exact Or.inr ⟨_, rfl, by rw [vertical]; decide, by decide⟩
  · exact Or.inr ⟨_, rfl, by rw [form]; decide, by decide⟩
  · exact Or.inl ⟨rfl, backslash, newline, carriage, tab⟩

/-- The text of a field is read up to its mark. -/
theorem readText_flatMap (text : List Char) {mark : Char} (ends : mark = '\t' ∨ mark = '\n')
    (rest : List Char) :
    readText false (text.flatMap escape ++ mark :: rest) = some (text, mark, rest) := by
  induction text with
  | nil => exact if_pos ends
  | cons character others inductionHypothesis =>
    rw [List.flatMap_cons, List.append_assoc]
    rcases escape_cases character with ⟨same, backslash, newline, carriage, tab⟩ |
      ⟨letter, same, stands, -⟩
    · rw [same, List.singleton_append, readText, if_neg (by simp [tab, newline]), if_neg carriage,
        if_neg backslash, inductionHypothesis]
      rfl
    · rw [same, List.cons_append, List.singleton_append, readText, if_neg (by decide),
        if_neg (by decide), if_pos rfl, readText, stands, Option.bind_some, inductionHypothesis]
      rfl

/-- No field that has a text is written like NULL. -/
theorem readField_write (field : Field) {mark : Char} (ends : mark = '\t' ∨ mark = '\n')
    (rest : List Char) : readField (writeField field ++ mark :: rest) = some (field, mark, rest) := by
  cases field with
  | none => simp [writeField, readField, ends]
  | some text =>
    have plain := readText_flatMap text ends rest
    rw [writeField]
    cases text with
    | nil => rcases ends with rfl | rfl <;> rfl
    | cons character others =>
      rw [List.flatMap_cons, List.append_assoc] at plain ⊢
      rcases escape_cases character with ⟨same, backslash, -⟩ | ⟨letter, same, -, other⟩
      · rw [same, List.singleton_append] at plain ⊢
        unfold readField
        split
        · rename_i shape
          exact absurd (List.cons.inj shape).1 backslash
        · rw [plain]
          rfl
      · rw [same, List.cons_append, List.singleton_append] at plain ⊢
        unfold readField
        split
        · rename_i shape
          exact absurd (List.cons.inj (List.cons.inj shape).2).1 other
        · rw [plain]
          rfl

theorem writeRow_ne_nil (row : Row) : writeRow row ≠ [] := by
  rcases row with _ | ⟨field, _ | ⟨next, rest⟩⟩ <;> simp [writeRow]

/-- A row that has a field is read up to the end of its line. -/
theorem readRow_write {row : Row} (nonempty : row ≠ []) (rest : List Char) {fuel : Nat}
    (enough : (writeRow row).length ≤ fuel) :
    readRow fuel (writeRow row ++ rest) = some (row, rest) := by
  induction row generalizing fuel with
  | nil => exact absurd rfl nonempty
  | cons field others inductionHypothesis =>
    have positive : 0 < fuel :=
      Nat.lt_of_lt_of_le (List.length_pos_iff.mpr (writeRow_ne_nil _)) enough
    obtain ⟨fuel, rfl⟩ := Nat.exists_eq_succ_of_ne_zero (Nat.ne_of_gt positive)
    cases others with
    | nil =>
      rw [writeRow, List.append_assoc, List.singleton_append, readRow,
        readField_write field (Or.inr rfl)]
      rfl
    | cons next more =>
      rw [writeRow, List.length_append, List.length_cons] at enough
      rw [writeRow, List.append_assoc, List.cons_append, readRow,
        readField_write field (Or.inl rfl)]
      dsimp only
      rw [if_neg (by decide), inductionHypothesis (by simp) (by omega)]
      rfl

/-- What is written is read back, where every row has a field. -/
theorem read_write {rows : List Row} (nonempty : ∀ row ∈ rows, row ≠ []) :
    read (write rows) = some rows := by
  have steps (fuel : Nat) (enough : (write rows).length < fuel) :
      readRows fuel (write rows) = some rows := by
    induction rows generalizing fuel with
    | nil =>
      obtain ⟨fuel, rfl⟩ := Nat.exists_eq_succ_of_ne_zero (Nat.ne_of_gt enough)
      rfl
    | cons row others inductionHypothesis =>
      obtain ⟨fuel, rfl⟩ := Nat.exists_eq_succ_of_ne_zero (Nat.ne_of_gt (Nat.zero_lt_of_lt enough))
      have filled := List.length_pos_iff.mpr (writeRow_ne_nil row)
      have shape : write (row :: others) = writeRow row ++ write others := List.flatMap_cons
      rw [shape, List.length_append] at enough
      have some_left : writeRow row ++ write others ≠ [] := by
        simp [writeRow_ne_nil row]
      rw [shape, readRows, if_neg some_left,
        readRow_write (nonempty row List.mem_cons_self) _ (by omega)]
      dsimp only
      rw [inductionHypothesis (fun other member => nonempty other (List.mem_cons_of_mem _ member))
        fuel (by omega)]
      rfl
  exact steps _ (Nat.lt_succ_self _)

end CopyText
