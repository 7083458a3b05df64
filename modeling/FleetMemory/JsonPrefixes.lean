/-
This file proves that a JSON text that is cut off is not read: what the reader takes from a text it
takes from every longer one, so a list or a dict that is read from a prefix ends where the whole
does. A file whose writing was interrupted is refused for that reason.
-/

import FleetMemory.JsonSpelling
import FleetMemory.Utf8

namespace FleetMemory

namespace Json

/-! ### Longer texts -/

/-- A number that stops here is not longer in a longer text. -/
structure Delimited (rest : List Char) : Prop where
  nonempty : rest ≠ []
  ends : Ends rest

/-- A value ends where its text says so: it closes itself, or what follows delimits it. -/
def Closes (text rest : List Char) : Prop :=
  (∃ first ∈ text.head?, first = '"' ∨ first = '[' ∨ first = '\x7b') ∨ Delimited rest

section

variable {text rest : List Char} (more : List Char)

theorem skipBlank_append_more (solid : skipBlank text ≠ []) :
    skipBlank (text ++ more) = skipBlank text ++ more := by
  rw [skipBlank, List.dropWhile_append, if_neg]
  · rfl
  · simpa [skipBlank] using solid

theorem head?_append_more (nonempty : text ≠ []) : (text ++ more).head? = text.head? := by
  obtain ⟨first, others, rfl⟩ := List.exists_cons_of_ne_nil nonempty
  rfl

/-- Digits that stop before the end of a text stop there in a longer one. -/
theorem takeWhile_append_more (stops : text.dropWhile Char.isDigit ≠ []) :
    (text ++ more).takeWhile Char.isDigit = text.takeWhile Char.isDigit ∧
      (text ++ more).dropWhile Char.isDigit = text.dropWhile Char.isDigit ++ more := by
  rw [List.takeWhile_append, List.dropWhile_append, if_neg, if_neg]
  · exact ⟨rfl, rfl⟩
  · simpa using stops
  · intro all
    refine stops (List.dropWhile_eq_nil_iff.mpr ?_)
    have same := (List.takeWhile_prefix Char.isDigit).eq_of_length all
    intro character member
    rw [← same] at member
    exact List.mem_takeWhile_imp member

end

/-! ### Strings -/

section

variable {text rest : List Char} (more : List Char)

theorem readUnit_append {unit : Nat} (read : readUnit text = some (unit, rest)) :
    readUnit (text ++ more) = some (unit, rest ++ more) := by
  rcases text with _ | ⟨first, _ | ⟨second, _ | ⟨third, _ | ⟨fourth, others⟩⟩⟩⟩
  · cases read
  · cases read
  · cases read
  · cases read
  · simp only [readUnit, Option.bind_eq_bind, Option.bind_eq_some_iff] at read
    obtain ⟨one, isOne, two, isTwo, three, isThree, four, isFour, same⟩ := read
    obtain ⟨rfl, rfl⟩ := Prod.mk.inj (Option.some.inj same)
    simp only [List.cons_append, readUnit, isOne, isTwo, isThree, isFour, Option.bind_eq_bind,
      Option.bind_some]
    rfl

theorem readLow_append {low : Nat} (read : readLow text = some (low, rest)) :
    readLow (text ++ more) = some (low, rest ++ more) := by
  rcases text with _ | ⟨backslash, _ | ⟨letter, others⟩⟩
  · cases read
  · cases read
  · rw [readLow] at read
    rw [List.cons_append, List.cons_append, readLow]
    split at read
    · rename_i marked
      rw [if_pos marked]
      simp only [Option.bind_eq_bind, Option.bind_eq_some_iff, Prod.exists] at read
      obtain ⟨unit, following, isUnit, kept⟩ := read
      rw [readUnit_append more isUnit]
      simp only [Option.bind_eq_bind, Option.bind_some]
      split at kept
      · rename_i half
        obtain ⟨rfl, rfl⟩ := Prod.mk.inj (Option.some.inj kept)
        rw [if_pos half]
      · cases kept
    · cases read

theorem readChar_append {first character : Char}
    (read : readChar first text = some (character, rest)) :
    readChar first (text ++ more) = some (character, rest ++ more) := by
  unfold readChar at read ⊢
  split at read
  · rename_i escape
    rw [if_pos escape]
    cases text with
    | nil => cases read
    | cons letter others =>
      dsimp only [List.cons_append] at read ⊢
      split at read
      · rename_i unit
        rw [if_pos unit]
        simp only [Option.bind_eq_bind, Option.bind_eq_some_iff, Prod.exists] at read
        obtain ⟨unit, following, isUnit, kept⟩ := read
        rw [readUnit_append more isUnit]
        simp only [Option.bind_eq_bind, Option.bind_some]
        split at kept
        · rename_i high
          rw [if_pos high]
          simp only [Option.bind_eq_some_iff, Prod.exists] at kept
          obtain ⟨low, others, isLow, same⟩ := kept
          obtain ⟨rfl, rfl⟩ := Prod.mk.inj (Option.some.inj same)
          rw [readLow_append more isLow]
          rfl
        · rename_i notHigh
          rw [if_neg notHigh]
          split at kept
          · cases kept
          · rename_i notLow
            obtain ⟨rfl, rfl⟩ := Prod.mk.inj (Option.some.inj kept)
            rw [if_neg notLow]
            rfl
      · rename_i plain
        rw [if_neg plain]
        obtain ⟨stands, isStands, same⟩ := Option.map_eq_some_iff.mp read
        obtain ⟨rfl, rfl⟩ := Prod.mk.inj same
        rw [isStands]
        rfl
  · rename_i plain
    rw [if_neg plain]
    split at read
    · cases read
    · rename_i printable
      obtain ⟨rfl, rfl⟩ := Prod.mk.inj (Option.some.inj read)
      rw [if_neg printable]

/-- A string is read from a longer text as it is, and with more steps. -/
theorem readString_append {fuel steps : Nat} (enough : fuel ≤ steps) {characters : List Char}
    (read : readString fuel text = some (characters, rest)) :
    readString steps (text ++ more) = some (characters, rest ++ more) := by
  induction fuel generalizing steps text characters with
  | zero => cases read
  | succ fuel inductionHypothesis =>
    obtain ⟨steps, rfl⟩ := Nat.exists_eq_succ_of_ne_zero (Nat.ne_of_gt (Nat.zero_lt_of_lt enough))
    cases text with
    | nil => cases read
    | cons first others =>
      rw [readString] at read
      rw [List.cons_append, readString]
      split at read
      · rename_i quote
        obtain ⟨rfl, rfl⟩ := Prod.mk.inj (Option.some.inj read)
        rw [if_pos quote]
      · rename_i open_
        rw [if_neg open_]
        simp only [Option.bind_eq_bind, Option.bind_eq_some_iff, Prod.exists] at read
        obtain ⟨character, following, isChar, tail, behind, isTail, same⟩ := read
        obtain ⟨rfl, rfl⟩ := Prod.mk.inj (Option.some.inj same)
        rw [readChar_append more isChar]
        simp only [Option.bind_eq_bind, Option.bind_some]
        rw [inductionHypothesis (Nat.le_of_succ_le_succ enough) isTail]
        rfl

end

/-! ### Numbers -/

section

variable {text rest : List Char} (more : List Char)

theorem readWhole_append_more {digits : List Char} (nonempty : rest ≠ [])
    (read : readWhole text = some (digits, rest)) :
    readWhole (text ++ more) = some (digits, rest ++ more) := by
  unfold readWhole at read ⊢
  split at read
  · rename_i zero
    obtain ⟨rfl, rfl⟩ := Prod.mk.inj (Option.some.inj read)
    cases text with
    | nil => cases zero
    | cons first others => exact if_pos zero
  · rename_i notZero
    split at read
    · cases read
    · rename_i some_digit
      obtain ⟨rfl, rfl⟩ := Prod.mk.inj (Option.some.inj read)
      obtain ⟨taken, dropped⟩ := takeWhile_append_more more nonempty
      have filled : text ≠ [] := by
        rintro rfl
        exact some_digit rfl
      rw [head?_append_more more filled, if_neg notZero, taken, dropped, if_neg some_digit]

theorem readFraction_append_more {fraction : List Char} (nonempty : rest ≠ [])
    (point : rest.head? ≠ some '.') (read : readFraction text = (fraction, rest)) :
    readFraction (text ++ more) = (fraction, rest ++ more) := by
  cases text with
  | nil =>
    obtain ⟨-, rfl⟩ := Prod.mk.inj read
    exact absurd rfl nonempty
  | cons first others =>
    rw [readFraction] at read
    rw [List.cons_append, readFraction]
    split at read
    · rename_i fractional
      obtain ⟨rfl, rfl⟩ := Prod.mk.inj read
      obtain ⟨taken, dropped⟩ := takeWhile_append_more more nonempty
      rw [taken, dropped, if_pos fractional]
    · obtain ⟨rfl, rfl⟩ := Prod.mk.inj read
      rw [if_neg fun fractional => point (congrArg some fractional.1)]
      rfl

theorem readExponent_append_more {exponent : List Char} (delimited : Delimited rest)
    (read : readExponent text = (exponent, rest)) :
    readExponent (text ++ more) = (exponent, rest ++ more) := by
  cases text with
  | nil =>
    obtain ⟨-, rfl⟩ := Prod.mk.inj read
    exact absurd rfl delimited.nonempty
  | cons letter others =>
    rw [readExponent] at read
    rw [List.cons_append, readExponent]
    dsimp only at read ⊢
    split at read
    · rename_i exponential
      obtain ⟨rfl, rfl⟩ := Prod.mk.inj read
      have signs : readSign (others ++ more) =
          ((readSign others).1, (readSign others).2 ++ more) := by
        cases others with
        | nil => exact absurd rfl exponential.2
        | cons sign digits =>
          rw [List.cons_append, readSign, readSign]
          split <;> rfl
      obtain ⟨taken, dropped⟩ := takeWhile_append_more more delimited.nonempty
      rw [signs]
      dsimp only
      rw [taken, dropped, if_pos exponential]
    · obtain ⟨rfl, rfl⟩ := Prod.mk.inj read
      obtain ⟨-, -, small, large⟩ := delimited.ends letter rfl
      rw [if_neg fun exponential => exponential.1.elim small large]
      rfl

/-- The fraction and the exponent leave a point only where there is no number. -/
theorem head?_of_readExponent {exponent : List Char} (delimited : Delimited rest)
    (read : readExponent text = (exponent, rest)) : text ≠ [] ∧ text.head? ≠ some '.' := by
  cases text with
  | nil =>
    obtain ⟨-, rfl⟩ := Prod.mk.inj read
    exact absurd rfl delimited.nonempty
  | cons letter others =>
    refine ⟨by simp, fun point => ?_⟩
    obtain rfl : letter = '.' := Option.some.inj point
    rw [readExponent] at read
    dsimp only at read
    rw [if_neg (by simp)] at read
    obtain ⟨-, rfl⟩ := Prod.mk.inj read
    exact (delimited.ends '.' rfl).2.1 rfl

/-- A number that is delimited is read from a longer text as it is. -/
theorem readNumber_append_more {floatOf : String → PyFloat} {value : PyValue}
    (delimited : Delimited rest) (read : readNumber floatOf text = some (value, rest)) :
    readNumber floatOf (text ++ more) = some (value, rest ++ more) := by
  rw [readNumber] at read ⊢
  obtain ⟨⟨sign, unsigned⟩, minus⟩ : ∃ parts, readMinus text = parts := ⟨_, rfl⟩
  rw [minus] at read
  simp only [Option.bind_eq_bind, Option.bind_eq_some_iff, Prod.exists] at read
  obtain ⟨digits, afterWhole, whole, valued⟩ := read
  obtain ⟨⟨fraction, afterFraction⟩, fractional⟩ : ∃ parts, readFraction afterWhole = parts :=
    ⟨_, rfl⟩
  obtain ⟨⟨exponent, afterExponent⟩, exponential⟩ : ∃ parts, readExponent afterFraction = parts :=
    ⟨_, rfl⟩
  rw [fractional] at valued
  dsimp only at valued
  rw [exponential] at valued
  dsimp only at valued
  have last : afterExponent = rest := by
    split at valued
    · exact (Prod.mk.inj (Option.some.inj valued)).2
    · exact (Prod.mk.inj (Option.some.inj valued)).2
  subst last
  obtain ⟨filled, point⟩ := head?_of_readExponent delimited exponential
  have wholeFilled : afterWhole ≠ [] := by
    rintro rfl
    exact filled (Prod.mk.inj fractional).2.symm
  have textFilled : text ≠ [] := by
    rintro rfl
    obtain ⟨rfl, rfl⟩ := Prod.mk.inj minus
    cases whole
  have minusMore : readMinus (text ++ more) = (sign, unsigned ++ more) := by
    unfold readMinus at minus ⊢
    rw [head?_append_more more textFilled]
    split at minus
    · rename_i negative
      obtain ⟨rfl, rfl⟩ := Prod.mk.inj minus
      rw [if_pos negative, List.tail_append_of_ne_nil textFilled]
    · rename_i positive
      obtain ⟨rfl, rfl⟩ := Prod.mk.inj minus
      rw [if_neg positive]
  rw [minusMore]
  simp only [Option.bind_eq_bind]
  rw [readWhole_append_more more wholeFilled whole, Option.bind_some]
  dsimp only
  rw [readFraction_append_more more filled point fractional]
  dsimp only
  rw [readExponent_append_more more delimited exponential]
  dsimp only
  split at valued
  · rename_i isWhole
    rw [if_pos isWhole, (Prod.mk.inj (Option.some.inj valued)).1]
    rfl
  · rename_i isReal
    rw [if_neg isReal, (Prod.mk.inj (Option.some.inj valued)).1]
    rfl

end

/-! ### Values -/

/-- What is read in a number of steps is read from every longer text and with more steps. -/
structure Extends (floatOf : String → PyFloat) (fuel : Nat) : Prop where
  value : ∀ {steps : Nat} {text rest : List Char} {value : PyValue} (more : List Char),
    fuel ≤ steps → Closes text rest → readValue floatOf fuel text = some (value, rest) →
      readValue floatOf steps (text ++ more) = some (value, rest ++ more)
  items : ∀ {steps : Nat} {text rest : List Char} {items : List PyValue} (more : List Char),
    fuel ≤ steps → readItems floatOf fuel text = some (items, rest) →
      readItems floatOf steps (text ++ more) = some (items, rest ++ more)
  entries : ∀ {steps : Nat} {text rest : List Char} {found entries : PyDict} (more : List Char),
    fuel ≤ steps → readEntries floatOf fuel found text = some (entries, rest) →
      readEntries floatOf steps found (text ++ more) = some (entries, rest ++ more)

section

variable {floatOf : String → PyFloat} {fuel steps : Nat} {text rest : List Char} (more : List Char)

/-- A mark behind blanks delimits what is before them. -/
theorem delimited_of_mark {mark : Char} (apart : mark ∈ [',', ']', '\x7d'])
    (marked : (skipBlank rest).head? = some mark) : Delimited rest := by
  refine ⟨?_, fun character head => ?_⟩
  · rintro rfl
    cases marked
  · cases rest with
    | nil => cases head
    | cons first others =>
      obtain rfl : first = character := Option.some.inj head
      by_cases blank : isBlank first = true
      · simp only [isBlank, Bool.or_eq_true, decide_eq_true_eq] at blank
        rcases blank with ((rfl | rfl) | rfl) | rfl <;> decide
      · rw [skipBlank, List.dropWhile_cons_of_neg blank] at marked
        obtain rfl : first = mark := Option.some.inj marked
        exact ends_cons apart [] first rfl

/-- A mark that follows is still there in a longer text, and the same stands behind it. -/
theorem mark_append {mark : Char} (marked : (skipBlank rest).head? = some mark) :
    (skipBlank (rest ++ more)).head? = some mark ∧
      (skipBlank (rest ++ more)).tail = (skipBlank rest).tail ++ more := by
  have solid : skipBlank rest ≠ [] := by
    intro none_left
    rw [none_left] at marked
    cases marked
  rw [skipBlank_append_more more solid, head?_append_more more solid,
    List.tail_append_of_ne_nil solid]
  exact ⟨marked, rfl⟩

theorem readLiteral_append {value : PyValue} (read : readLiteral text = some (value, rest)) :
    ∃ word, (word, value) ∈ literals ∧ text = word ++ rest := by
  obtain ⟨⟨word, known⟩, member, here⟩ := List.exists_of_findSome?_eq_some read
  dsimp only at here
  split at here
  · rename_i isPrefix
    obtain ⟨rfl, rfl⟩ := Prod.mk.inj (Option.some.inj here)
    obtain ⟨others, rfl⟩ := List.isPrefixOf_iff_prefix.mp isPrefix
    exact ⟨word, member, by rw [List.drop_left]⟩
  · cases here

/-- A number begins with its sign or a digit. -/
theorem head_of_readNumber {value : PyValue} (read : readNumber floatOf text = some (value, rest)) :
    ∃ sign digits others, text = sign ++ digits ++ others ∧ (sign = [] ∨ sign = ['-']) ∧
      Whole digits := by
  rw [readNumber] at read
  obtain ⟨⟨sign, unsigned⟩, minus⟩ : ∃ parts, readMinus text = parts := ⟨_, rfl⟩
  rw [minus] at read
  simp only [Option.bind_eq_bind, Option.bind_eq_some_iff, Prod.exists] at read
  obtain ⟨digits, afterWhole, whole, -⟩ := read
  have signed : text = sign ++ unsigned ∧ (sign = [] ∨ sign = ['-']) := by
    unfold readMinus at minus
    split at minus
    · rename_i negative
      obtain ⟨rfl, rfl⟩ := Prod.mk.inj minus
      obtain ⟨others, rfl⟩ := List.head?_eq_some_iff.mp negative
      exact ⟨rfl, Or.inr rfl⟩
    · obtain ⟨rfl, rfl⟩ := Prod.mk.inj minus
      exact ⟨rfl, Or.inl rfl⟩
  obtain ⟨rfl, signs⟩ := signed
  have shape : Whole digits ∧ unsigned = digits ++ afterWhole := by
    unfold readWhole at whole
    split at whole
    · rename_i zero
      obtain ⟨rfl, rfl⟩ := Prod.mk.inj (Option.some.inj whole)
      obtain ⟨others, rfl⟩ := List.head?_eq_some_iff.mp zero
      exact ⟨⟨by simp, by simp, Or.inl rfl⟩, rfl⟩
    · rename_i notZero
      split at whole
      · cases whole
      · rename_i some_digit
        obtain ⟨rfl, rfl⟩ := Prod.mk.inj (Option.some.inj whole)
        refine ⟨⟨some_digit, fun character member => List.mem_takeWhile_imp member, Or.inr ?_⟩,
          List.takeWhile_append_dropWhile.symm⟩
        cases unsigned with
        | nil => exact absurd rfl some_digit
        | cons first others =>
          intro zero
          rw [List.takeWhile_cons] at zero
          split at zero
          · exact notZero zero
          · cases zero
  exact ⟨sign, digits, afterWhole, by rw [shape.2, List.append_assoc], signs, shape.1⟩

/-- A string's letters that are read are read from a longer text too. -/
theorem readValue_append_string {value : PyValue} {others : List Char} (enough : fuel ≤ steps)
    (read : readValue floatOf (fuel + 1) ('"' :: others) = some (value, rest)) :
    readValue floatOf (steps + 1) ('"' :: others ++ more) = some (value, rest ++ more) := by
  rw [readValue, if_pos rfl] at read
  rw [List.cons_append, readValue, if_pos rfl]
  simp only [Option.bind_eq_bind, Option.bind_eq_some_iff, Prod.exists] at read
  obtain ⟨characters, following, isString, same⟩ := read
  obtain ⟨rfl, rfl⟩ := Prod.mk.inj (Option.some.inj same)
  rw [readString_append more enough isString]
  rfl

/-- Items are not read from an empty text. -/
theorem ne_nil_of_readItems {items : List PyValue}
    (read : readItems floatOf fuel text = some (items, rest)) : text ≠ [] := by
  rintro rfl
  cases fuel with
  | zero => cases read
  | succ fuel =>
    rw [readItems] at read
    cases fuel <;> cases read

/-- Entries are not read from an empty text. -/
theorem ne_nil_of_readEntries {found entries : PyDict}
    (read : readEntries floatOf fuel found text = some (entries, rest)) : text ≠ [] := by
  rintro rfl
  cases fuel with
  | zero => cases read
  | succ fuel =>
    rw [readEntries] at read
    cases read

/-- A list that is read is read from a longer text too. -/
theorem readValue_append_list (extends_ : Extends floatOf fuel) {value : PyValue}
    {others : List Char} (enough : fuel ≤ steps)
    (read : readValue floatOf (fuel + 1) ('[' :: others) = some (value, rest)) :
    readValue floatOf (steps + 1) ('[' :: others ++ more) = some (value, rest ++ more) := by
  rw [readValue, if_neg (by decide), if_pos rfl] at read
  rw [List.cons_append, readValue, if_neg (by decide), if_pos rfl]
  split at read
  · rename_i closed
    obtain ⟨rfl, rfl⟩ := Prod.mk.inj (Option.some.inj read)
    obtain ⟨marked, tail⟩ := mark_append more closed
    rw [if_pos marked, tail]
  · rename_i open_
    simp only [Option.bind_eq_bind, Option.bind_eq_some_iff, Prod.exists] at read
    obtain ⟨items, following, isItems, same⟩ := read
    obtain ⟨rfl, rfl⟩ := Prod.mk.inj (Option.some.inj same)
    have solid := ne_nil_of_readItems isItems
    rw [skipBlank_append_more more solid, head?_append_more more solid, if_neg open_,
      extends_.items more enough isItems]
    rfl

/-- A dict that is read is read from a longer text too. -/
theorem readValue_append_dict (extends_ : Extends floatOf fuel) {value : PyValue}
    {others : List Char} (enough : fuel ≤ steps)
    (read : readValue floatOf (fuel + 1) ('\x7b' :: others) = some (value, rest)) :
    readValue floatOf (steps + 1) ('\x7b' :: others ++ more) = some (value, rest ++ more) := by
  rw [readValue, if_neg (by decide), if_neg (by decide), if_pos rfl] at read
  rw [List.cons_append, readValue, if_neg (by decide), if_neg (by decide), if_pos rfl]
  split at read
  · rename_i closed
    obtain ⟨rfl, rfl⟩ := Prod.mk.inj (Option.some.inj read)
    obtain ⟨marked, tail⟩ := mark_append more closed
    rw [if_pos marked, tail]
  · rename_i open_
    simp only [Option.bind_eq_bind, Option.bind_eq_some_iff, Prod.exists] at read
    obtain ⟨entries, following, isEntries, same⟩ := read
    obtain ⟨rfl, rfl⟩ := Prod.mk.inj (Option.some.inj same)
    have solid := ne_nil_of_readEntries isEntries
    rw [skipBlank_append_more more solid, head?_append_more more solid, if_neg open_,
      extends_.entries more enough isEntries]
    rfl

/-- A literal or a number that is read up to where it is delimited is read from a longer text
too. -/
theorem readValue_append_plain {value : PyValue} {first : Char} {others : List Char}
    (notQuote : first ≠ '"') (notBracket : first ≠ '[') (notBrace : first ≠ '\x7b')
    (delimited : Delimited rest)
    (read : readValue floatOf (fuel + 1) (first :: others) = some (value, rest)) :
    readValue floatOf (steps + 1) (first :: others ++ more) = some (value, rest ++ more) := by
  rw [readValue, if_neg notQuote, if_neg notBracket, if_neg notBrace] at read
  cases literal : readLiteral (first :: others) with
  | some found =>
    rw [literal] at read
    obtain rfl : found = (value, rest) := Option.some.inj read
    obtain ⟨word, known, same⟩ := readLiteral_append literal
    rw [same, List.append_assoc]
    exact readValue_word known steps (rest ++ more)
  | none =>
    rw [literal, Option.none_or] at read
    obtain ⟨sign, digits, behind, same, signed, isWhole⟩ := head_of_readNumber read
    have number := readNumber_append_more more delimited read
    rw [same, List.append_assoc (sign ++ digits)] at number ⊢
    rw [readValue_of_number floatOf signed isWhole]
    exact number

theorem readValue_append (extends_ : Extends floatOf fuel) {value : PyValue}
    (enough : fuel + 1 ≤ steps) (closes : Closes text rest)
    (read : readValue floatOf (fuel + 1) text = some (value, rest)) :
    readValue floatOf steps (text ++ more) = some (value, rest ++ more) := by
  obtain ⟨steps, rfl⟩ := Nat.exists_eq_succ_of_ne_zero (Nat.ne_of_gt (Nat.zero_lt_of_lt enough))
  have enough := Nat.le_of_succ_le_succ enough
  cases text with
  | nil => cases read
  | cons first others =>
    by_cases quote : first = '"'
    · subst quote
      exact readValue_append_string more enough read
    by_cases bracket : first = '['
    · subst bracket
      exact readValue_append_list more extends_ enough read
    by_cases brace : first = '\x7b'
    · subst brace
      exact readValue_append_dict more extends_ enough read
    refine readValue_append_plain more quote bracket brace (closes.resolve_left ?_) read
    rintro ⟨found, head, kinds⟩
    obtain rfl : first = found := Option.some.inj head
    exact kinds.elim quote fun others => others.elim bracket brace

theorem readItems_append (extends_ : Extends floatOf fuel) {items : List PyValue}
    (enough : fuel + 1 ≤ steps) (read : readItems floatOf (fuel + 1) text = some (items, rest)) :
    readItems floatOf steps (text ++ more) = some (items, rest ++ more) := by
  obtain ⟨steps, rfl⟩ := Nat.exists_eq_succ_of_ne_zero (Nat.ne_of_gt (Nat.zero_lt_of_lt enough))
  have enough := Nat.le_of_succ_le_succ enough
  rw [readItems] at read ⊢
  simp only [Option.bind_eq_bind, Option.bind_eq_some_iff, Prod.exists] at read
  obtain ⟨item, following, isItem, kept⟩ := read
  split at kept
  · rename_i closed
    obtain ⟨rfl, rfl⟩ := Prod.mk.inj (Option.some.inj kept)
    obtain ⟨marked, tail⟩ := mark_append more closed
    rw [extends_.value more enough (Or.inr (delimited_of_mark (by decide) closed)) isItem]
    simp only [Option.bind_eq_bind, Option.bind_some]
    rw [if_pos marked, tail]
    rfl
  · rename_i open_
    split at kept
    · rename_i comma
      simp only [Option.bind_eq_some_iff, Prod.exists] at kept
      obtain ⟨others, behind, isOthers, same⟩ := kept
      obtain ⟨rfl, rfl⟩ := Prod.mk.inj (Option.some.inj same)
      obtain ⟨marked, tail⟩ := mark_append more comma
      have solid := ne_nil_of_readItems isOthers
      rw [extends_.value more enough (Or.inr (delimited_of_mark (by decide) comma)) isItem]
      simp only [Option.bind_eq_bind, Option.bind_some]
      rw [if_neg (by rw [marked]; decide), if_pos marked, tail, skipBlank_append_more more solid,
        extends_.items more enough isOthers]
      rfl
    · cases kept

theorem readEntries_append (extends_ : Extends floatOf fuel) {found entries : PyDict}
    (enough : fuel + 1 ≤ steps)
    (read : readEntries floatOf (fuel + 1) found text = some (entries, rest)) :
    readEntries floatOf steps found (text ++ more) = some (entries, rest ++ more) := by
  obtain ⟨steps, rfl⟩ := Nat.exists_eq_succ_of_ne_zero (Nat.ne_of_gt (Nat.zero_lt_of_lt enough))
  have enough := Nat.le_of_succ_le_succ enough
  rw [readEntries] at read ⊢
  split at read
  · rename_i quote
    have filled : text ≠ [] := by
      rintro rfl
      cases quote
    rw [head?_append_more more filled, if_pos quote, List.tail_append_of_ne_nil filled]
    simp only [Option.bind_eq_bind, Option.bind_eq_some_iff, Prod.exists] at read
    obtain ⟨characters, following, isKey, kept⟩ := read
    rw [readString_append more enough isKey]
    simp only [Option.bind_eq_bind, Option.bind_some]
    split at kept
    · rename_i colon
      obtain ⟨marked, tail⟩ := mark_append more colon
      rw [if_pos marked, tail]
      simp only [Option.bind_eq_some_iff, Prod.exists] at kept
      obtain ⟨value, behind, isValue, kept⟩ := kept
      have solid : skipBlank (skipBlank following).tail ≠ [] := by
        intro none_left
        rw [none_left] at isValue
        cases fuel <;> cases isValue
      rw [skipBlank_append_more more solid]
      split at kept
      · rename_i closed
        obtain ⟨rfl, rfl⟩ := Prod.mk.inj (Option.some.inj kept)
        obtain ⟨ended, after⟩ := mark_append more closed
        rw [extends_.value more enough (Or.inr (delimited_of_mark (by decide) closed)) isValue]
        simp only [Option.bind_some]
        rw [if_pos ended, after]
        rfl
      · rename_i open_
        split at kept
        · rename_i comma
          obtain ⟨next, after⟩ := mark_append more comma
          have others := ne_nil_of_readEntries kept
          rw [extends_.value more enough (Or.inr (delimited_of_mark (by decide) comma)) isValue]
          simp only [Option.bind_some]
          rw [if_neg (by rw [next]; decide), if_pos next, after, skipBlank_append_more more others,
            extends_.entries more enough kept]
        · cases kept
    · cases kept
  · cases read

theorem extends_all (floatOf : String → PyFloat) (fuel : Nat) : Extends floatOf fuel := by
  induction fuel with
  | zero =>
    constructor
    · intro steps text rest value more enough closes read
      cases read
    · intro steps text rest items more enough read
      cases read
    · intro steps text rest found entries more enough read
      cases read
  | succ fuel inductionHypothesis =>
    constructor
    · exact fun more enough closes read =>
        readValue_append more inductionHypothesis enough closes read
    · exact fun more enough read => readItems_append more inductionHypothesis enough read
    · exact fun more enough read => readEntries_append more inductionHypothesis enough read

/-- A value that closes itself and is read from the front of a text that is read as well is the
value of the whole text, and only blanks follow it. -/
theorem loads_before {before behind : String} {value other : PyValue}
    (opens : ∃ first ∈ (skipBlank before.toList).head?,
      first = '"' ∨ first = '[' ∨ first = '\x7b')
    (whole : loads floatOf (before ++ behind) = some value)
    (part : loads floatOf before = some other) :
    other = value ∧ ∀ character ∈ behind.toList, isBlank character = true := by
  have solid : skipBlank before.toList ≠ [] := by
    rintro none_left
    obtain ⟨first, head, -⟩ := opens
    rw [none_left] at head
    cases head
  rw [loads] at whole part
  simp only [Option.bind_eq_bind, Option.bind_eq_some_iff, Prod.exists] at whole part
  obtain ⟨read, rest, isRead, ended⟩ := part
  obtain ⟨readWhole, restWhole, isWhole, endedWhole⟩ := whole
  split at ended
  · rename_i blank
    obtain rfl := Option.some.inj ended
    split at endedWhole
    · rename_i blankWhole
      obtain rfl := Option.some.inj endedWhole
      have enough : before.toList.length + 1 ≤ (before ++ behind).toList.length + 1 := by
        rw [String.toList_append, List.length_append]
        omega
      have longer := (extends_all floatOf _).value behind.toList enough (Or.inl opens) isRead
      rw [String.toList_append, skipBlank_append_more _ solid, ← String.toList_append, longer]
        at isWhole
      obtain ⟨rfl, rfl⟩ := Prod.mk.inj (Option.some.inj isWhole)
      refine ⟨rfl, fun character member => ?_⟩
      exact List.dropWhile_eq_nil_iff.mp blankWhole character (List.mem_append_right _ member)
    · cases endedWhole
  · cases ended

/-- A list or a dict that ends with its bracket or its brace is not read when it is cut off. -/
theorem loads_cut {before behind : String} {value : PyValue}
    (opens : ∃ first ∈ (skipBlank before.toList).head?,
      first = '"' ∨ first = '[' ∨ first = '\x7b')
    (whole : loads floatOf (before ++ behind) = some value)
    (closes : ∃ last ∈ behind.toList.getLast?, isBlank last = false) :
    loads floatOf before = none := by
  cases part : loads floatOf before with
  | none => rfl
  | some other =>
    obtain ⟨last, member, solid⟩ := closes
    have blank := (loads_before opens whole part).2 last (List.mem_of_getLast? member)
    rw [solid] at blank
    cases blank

end

/-! ### Bytes -/

/-- What is cut off of a text's bytes and still decodes is cut off of the text. -/
theorem exists_append_of_prefix {text part : List Char} (cut : Utf8.bytes part <+: Utf8.bytes text) :
    ∃ behind, text = part ++ behind := by
  obtain ⟨rest, same⟩ := cut
  refine ⟨Utf8.decode rest, ?_⟩
  rw [← Utf8.decode_bytes_append, same, Utf8.decode_bytes]

end Json

end FleetMemory
