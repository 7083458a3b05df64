/-
This file models how the text of a task file is read: its lines, the front matter that
opens it, the headings that open its sections, and the section of lessons. Each follows a
regular expression of the source.
-/

import FleetMemory.Text

namespace Markdown

open Text

/-! ### Lines -/

/-- The characters `str.splitlines` ends a line at. -/
def lineBreak (character : Char) : Bool :=
  let code := character.toNat
  (0x0A ≤ code && code ≤ 0x0D) || (0x1C ≤ code && code ≤ 0x1E) || code == 0x85 ||
    code == 0x2028 || code == 0x2029

/-- `text.splitlines()`. -/
def splitLines (text : String) : List String :=
  (go [] text.toList).map String.ofList
where
  /-- The lines of the rest of the text, whose first line has been read up to here. -/
  go (line : List Char) : List Char → List (List Char)
    | [] => if line.isEmpty then [] else [line.reverse]
    | '\r' :: '\n' :: rest => line.reverse :: go [] rest
    | character :: rest =>
      if lineBreak character then line.reverse :: go [] rest else go (character :: line) rest

/-! ### Front matter -/

/-- `---\s*\n` matches here. -/
def fence (characters : List Char) : Bool :=
  "---".toList.isPrefixOf characters && ((characters.drop 3).takeWhile isSpace).contains '\n'

/-- What stands before the first line feed that a fence follows. -/
def beforeFence : List Char → Option (List Char)
  | [] => none
  | character :: rest =>
    if character == '\n' && fence rest then some []
    else (beforeFence rest).map fun body => character :: body

/-- The group of `^---\s*\n(.*?)\n---\s*\n` in a text. The white space behind the opening dashes is
taken as far as it goes, and given back when no closing fence follows. -/
def frontmatterBlock (text : String) : Option String :=
  let characters := text.toList
  if "---".toList.isPrefixOf characters then
    let rest := characters.drop 3
    let space := rest.takeWhile isSpace
    let starts := (List.range space.length).reverse.filter fun place => space[place]? == some '\n'
    (starts.findSome? fun place => beforeFence (rest.drop (place + 1))).map String.ofList
  else none

/-! ### Headings -/

/-- A character as `re.IGNORECASE` compares it with a lower-case ASCII letter. -/
def ignoreCase (character : Char) : Char :=
  if character = 'ſ' then 's'
  else if character = '\u212a' then 'k'
  else if character = 'İ' ∨ character = 'ı' then 'i'
  else character.toLower

/-- The characters hold a word, in any case. -/
def holdsWord (word : String) (characters : List Char) : Bool :=
  (characters.map ignoreCase).tails.any fun rest => word.toList.isPrefixOf rest

/-- The number signs that open a line, and the characters behind them. -/
def opening (line : String) : Nat × List Char :=
  ((line.toList.takeWhile (· == '#')).length, line.toList.dropWhile (· == '#'))

/-- The level of a line that `_LESSONS_HEADING` matches. -/
def lessonsLevel? (line : String) : Option Nat :=
  match opening line with
  | (level, character :: rest) =>
    if (level = 2 ∨ level = 3) ∧ isSpace character ∧
        (holdsWord "lessons" rest ∨ holdsWord "key learnings" rest) then some level
    else none
  | (_, []) => none

/-- The level of a line that `_HEADING` matches. -/
def headingLevel? (line : String) : Option Nat :=
  match opening line with
  | (level, character :: rest) =>
    if 1 ≤ level ∧ level ≤ 6 ∧ isSpace character ∧ rest.dropWhile isSpace ≠ [] then some level
    else none
  | (_, []) => none

/-- The level of the first lessons heading of some lines, and the lines behind it. -/
def findLessons : List String → Option (Nat × List String)
  | [] => none
  | line :: rest =>
    match lessonsLevel? line with
    | some level => some (level, rest)
    | none => findLessons rest

/-- `extract_lessons`. -/
def extractLessons (text : String) : Option String :=
  match findLessons (splitLines text) with
  | none => none
  | some (lessonsLevel, lines) =>
    let bodyLines := lines.takeWhile fun line =>
      match headingLevel? line with
      | some level => !(level ≤ lessonsLevel : Bool)
      | none => true
    let body := strip (join '\n' bodyLines)
    if body.isEmpty then none else some body

/-- A section of lessons is not empty. -/
theorem extractLessons_ne_empty {text lessons : String}
    (extracted : extractLessons text = some lessons) : lessons.isEmpty = false := by
  unfold extractLessons at extracted
  split at extracted
  · cases extracted
  · dsimp only at extracted
    split at extracted
    · cases extracted
    · rename_i nonempty
      rw [← Option.some.inj extracted]
      simpa using nonempty

end Markdown
