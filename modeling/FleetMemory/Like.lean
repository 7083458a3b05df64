/-
This file is a small library on SQL's `LIKE`: `%` matches any text, `_` any one character,
a backslash makes the next character literal, and every other character matches itself. A text
that is escaped, with `%` behind it, is the pattern of the texts that begin with it.
-/

import Mathlib.Data.List.Infix

namespace Like

/-- What one place of a pattern matches. -/
inductive Token where
  | many
  | one
  | literal (character : Char)
deriving DecidableEq, Repr

/-- What a character matches when no backslash stands before it. -/
def unescaped (character : Char) : Token :=
  if character = '%' then .many else if character = '_' then .one else .literal character

/-- The tokens of a pattern. -/
def tokens : List Char → List Token
  | [] => []
  | [character] => if character = '\\' then [] else [unescaped character]
  | character :: next :: rest =>
    if character = '\\' then .literal next :: tokens rest
    else unescaped character :: tokens (next :: rest)

/-- The whole text matches the tokens. -/
def accepts : List Token → List Char → Bool
  | [], text => text.isEmpty
  | .many :: rest, text => text.tails.any (accepts rest)
  | .one :: rest, text =>
    match text with
    | [] => false
    | _ :: following => accepts rest following
  | .literal character :: rest, text =>
    match text with
    | [] => false
    | head :: following => head == character && accepts rest following

/-- `text LIKE pattern`. -/
def like (text pattern : String) : Bool :=
  accepts (tokens pattern.toList) text.toList

/-- A character that stands for itself or for any one character. -/
def plain (character : Char) : Bool :=
  character != '%' && character != '\\'

theorem tokens_cons_plain {character : Char} (simple : plain character = true) (rest : List Char) :
    tokens (character :: rest) =
      (if character = '_' then .one else .literal character) :: tokens rest := by
  have notMany : character ≠ '%' := by
    rintro rfl
    exact absurd simple (by decide)
  have notEscape : character ≠ '\\' := by
    rintro rfl
    exact absurd simple (by decide)
  cases rest with
  | nil => simp [tokens, unescaped, notEscape, notMany]
  | cons next rest => rw [tokens, if_neg notEscape, unescaped, if_neg notMany]

theorem accepts_many_nil (text : List Char) : accepts [.many] text = true := by
  rw [accepts, List.any_eq_true]
  exact ⟨[], (List.mem_tails _ _).mpr List.nil_suffix, rfl⟩

/-- A text extends a plain pattern followed by `%` when it starts with the pattern's text. -/
theorem accepts_self_append (characters : List Char)
    (simple : ∀ character ∈ characters, plain character = true) (rest : List Char) :
    accepts (tokens (characters ++ ['%'])) (characters ++ rest) = true := by
  induction characters with
  | nil => exact accepts_many_nil rest
  | cons character following inductionHypothesis =>
    rw [List.cons_append, tokens_cons_plain (simple character List.mem_cons_self), List.cons_append]
    have later := inductionHypothesis fun other member => simple other (List.mem_cons_of_mem _ member)
    split
    · exact later
    · simp only [accepts, beq_self_eq_true, Bool.true_and]
      exact later

/-! ### Escaped texts -/

/-- The character has a meaning of its own in a pattern. -/
def special (character : Char) : Bool :=
  character == '\\' || character == '_' || character == '%'

/-- The text with a backslash before each character that has a meaning of its own. -/
def escaped (text : List Char) : List Char :=
  text.flatMap fun character => if special character then ['\\', character] else [character]

/-- An unescaped character without a meaning of its own is read as itself. -/
theorem tokens_cons_ordinary {character : Char} (ordinary : special character = false)
    (rest : List Char) : tokens (character :: rest) = .literal character :: tokens rest := by
  simp only [special, Bool.or_eq_false_iff, beq_eq_false_iff_ne] at ordinary
  obtain ⟨⟨notEscape, notOne⟩, notMany⟩ := ordinary
  rw [tokens_cons_plain (by simp [plain, notEscape, notMany]), if_neg notOne]

/-- The tokens of an escaped text are its characters. -/
theorem tokens_escaped_append (text rest : List Char) :
    tokens (escaped text ++ rest) = text.map .literal ++ tokens rest := by
  induction text with
  | nil => rfl
  | cons character following inductionHypothesis =>
    rw [escaped, List.flatMap_cons, List.append_assoc, ← escaped, List.map_cons, List.cons_append,
      ← inductionHypothesis]
    cases meaning : special character with
    | true => rw [if_pos rfl, List.cons_append, List.cons_append, List.nil_append, tokens, if_pos rfl]
    | false => exact tokens_cons_ordinary meaning _

/-- Literal tokens match their characters, and the others what stands behind these. -/
theorem accepts_literals_append (characters : List Char) (more : List Token) (text : List Char) :
    accepts (characters.map .literal ++ more) text = true ↔
      ∃ following, text = characters ++ following ∧ accepts more following = true := by
  induction characters generalizing text with
  | nil => simp
  | cons character rest inductionHypothesis =>
    cases text with
    | nil => simp [accepts]
    | cons head following =>
      rw [List.map_cons, List.cons_append, accepts, Bool.and_eq_true, beq_iff_eq,
        inductionHypothesis]
      simp only [List.cons_append, List.cons.injEq, and_assoc, exists_and_left]

/-- The pattern of an escaped text and `%` matches the texts that begin with the text. -/
theorem accepts_escaped_many (characters text : List Char) :
    accepts (tokens (escaped characters ++ ['%'])) text = true ↔ characters <+: text := by
  rw [tokens_escaped_append, accepts_literals_append]
  constructor
  · rintro ⟨following, rfl, -⟩
    exact List.prefix_append _ _
  · rintro ⟨following, rfl⟩
    exact ⟨following, rfl, accepts_many_nil following⟩

end Like
