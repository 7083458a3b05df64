/-
This file models `json.loads` as a reader that takes one token after another from a list of
characters, and proves that it reads escaped characters, quoted strings and numerals back. An
escape of half a surrogate pair, which a Lean string cannot hold, is not read.
-/

import FleetMemory.Python
import Mathlib.Data.List.TakeWhile

namespace FleetMemory

namespace Json

/-! ### Strings -/

/-- The value of a hexadecimal digit. -/
def hexValue (character : Char) : Option Nat :=
  let code := character.toNat
  if 0x30 ≤ code && code ≤ 0x39 then some (code - 0x30)
  else if 0x41 ≤ code && code ≤ 0x46 then some (code - 0x37)
  else if 0x61 ≤ code && code ≤ 0x66 then some (code - 0x57)
  else none

/-- Four hexadecimal digits. -/
def readUnit : List Char → Option (Nat × List Char)
  | first :: second :: third :: fourth :: rest => do
    let first ← hexValue first
    let second ← hexValue second
    let third ← hexValue third
    let fourth ← hexValue fourth
    return (((first * 16 + second) * 16 + third) * 16 + fourth, rest)
  | _ => none

/-- The character a one-letter escape stands for. -/
def escaped (letter : Char) : Option Char :=
  if letter = '"' then some '"'
  else if letter = '\\' then some '\\'
  else if letter = '/' then some '/'
  else if letter = 'b' then some (Char.ofNat 0x08)
  else if letter = 'f' then some (Char.ofNat 0x0C)
  else if letter = 'n' then some '\n'
  else if letter = 'r' then some '\r'
  else if letter = 't' then some '\t'
  else none

/-- The second half of a surrogate pair, escaped as well. -/
def readLow : List Char → Option (Nat × List Char)
  | backslash :: letter :: rest =>
    if backslash = '\\' ∧ letter = 'u' then do
      let (low, rest) ← readUnit rest
      if 0xDC00 ≤ low ∧ low ≤ 0xDFFF then some (low, rest) else none
    else none
  | _ => none

/-- One character of a string, whose first character is taken already. -/
def readChar (first : Char) (rest : List Char) : Option (Char × List Char) :=
  if first = '\\' then
    match rest with
    | [] => none
    | letter :: rest =>
      if letter = 'u' then do
        let (unit, rest) ← readUnit rest
        if 0xD800 ≤ unit ∧ unit ≤ 0xDBFF then do
          let (low, rest) ← readLow rest
          return (Char.ofNat (0x10000 + (unit - 0xD800) * 0x400 + (low - 0xDC00)), rest)
        else if 0xDC00 ≤ unit ∧ unit ≤ 0xDFFF then none
        else return (Char.ofNat unit, rest)
      else (escaped letter).map fun character => (character, rest)
  else if first.toNat < 0x20 then none
  else some (first, rest)

/-- The characters of a string up to its closing quote, at most the given number of steps. -/
def readString : Nat → List Char → Option (List Char × List Char)
  | 0, _ => none
  | _ + 1, [] => none
  | fuel + 1, first :: rest =>
    if first = '"' then some ([], rest)
    else do
      let (character, rest) ← readChar first rest
      let (others, rest) ← readString fuel rest
      return (character :: others, rest)

theorem hexValue_hexDigit : ∀ digit < 16, hexValue (hexDigit digit) = some digit := by
  decide

/-- The escape of a code unit is read as the unit. -/
theorem readUnit_escapeUnit {unit : Nat} (small : unit < 0x10000) (rest : List Char) :
    readUnit (hexDigit (unit / 4096 % 16) :: hexDigit (unit / 256 % 16) ::
      hexDigit (unit / 16 % 16) :: hexDigit (unit % 16) :: rest) = some (unit, rest) := by
  have digit (number : Nat) : hexValue (hexDigit (number % 16)) = some (number % 16) :=
    hexValue_hexDigit _ (Nat.mod_lt _ (by decide))
  have whole : ((unit / 4096 % 16 * 16 + unit / 256 % 16) * 16 + unit / 16 % 16) * 16 + unit % 16 =
      unit := by
    omega
  simp only [readUnit, digit, Option.bind_eq_bind, Option.bind_some, whole]
  rfl

/-- Half a surrogate pair is no character. -/
theorem not_surrogate (character : Char) :
    character.toNat < 0xD800 ∨ 0xDFFF < character.toNat ∧ character.toNat < 0x110000 :=
  character.valid

/-- Every character is read from its escape. -/
theorem readChar_escapeChar (character : Char) (rest : List Char) :
    ∃ first others, escapeChar character ++ rest = first :: others ∧ first ≠ '"' ∧
      readChar first others = some (character, rest) := by
  have units {unit : Nat} (small : unit < 0x10000) (more : List Char) :
      escapeUnit unit ++ more = '\\' :: 'u' :: hexDigit (unit / 4096 % 16) ::
        hexDigit (unit / 256 % 16) :: hexDigit (unit / 16 % 16) :: hexDigit (unit % 16) :: more :=
    rfl
  unfold escapeChar
  dsimp only
  split_ifs with quote backslash newline carriage tab form back printable plane
  · exact ⟨'\\', '"' :: rest, rfl, by decide, by rw [quote]; rfl⟩
  · exact ⟨'\\', '\\' :: rest, rfl, by decide, by rw [backslash]; rfl⟩
  · exact ⟨'\\', 'n' :: rest, rfl, by decide, by rw [newline]; rfl⟩
  · exact ⟨'\\', 'r' :: rest, rfl, by decide, by rw [carriage]; rfl⟩
  · exact ⟨'\\', 't' :: rest, rfl, by decide, by rw [tab]; rfl⟩
  · refine ⟨'\\', 'f' :: rest, rfl, by decide, ?_⟩
    rw [← Char.ofNat_toNat character, form]
    rfl
  · refine ⟨'\\', 'b' :: rest, rfl, by decide, ?_⟩
    rw [← Char.ofNat_toNat character, back]
    rfl
  · simp only [Bool.and_eq_true, decide_eq_true_eq] at printable
    refine ⟨character, rest, rfl, quote, ?_⟩
    unfold readChar
    rw [if_neg backslash, if_neg (not_lt.mpr printable.1)]
  · refine ⟨_, _, units plane rest, by decide, ?_⟩
    have bounds := not_surrogate character
    rw [readChar, if_pos rfl]
    dsimp only
    rw [if_pos rfl, readUnit_escapeUnit plane]
    simp only [Option.bind_eq_bind, Option.bind_some]
    rw [if_neg (by omega), if_neg (by omega), Char.ofNat_toNat]
    rfl
  · have bounds := not_surrogate character
    obtain ⟨high, high_eq⟩ : ∃ high, high = 0xD800 + (character.toNat - 0x10000) / 0x400 := ⟨_, rfl⟩
    obtain ⟨low, low_eq⟩ : ∃ low, low = 0xDC00 + (character.toNat - 0x10000) % 0x400 := ⟨_, rfl⟩
    have sized : (0xD800 ≤ high ∧ high ≤ 0xDBFF) ∧ 0xDC00 ≤ low ∧ low ≤ 0xDFFF := by omega
    have whole : 0x10000 + (high - 0xD800) * 0x400 + (low - 0xDC00) = character.toNat := by omega
    rw [← high_eq, ← low_eq, List.append_assoc, units (by omega), units (by omega)]
    refine ⟨_, _, rfl, by decide, ?_⟩
    rw [readChar, if_pos rfl]
    dsimp only
    rw [if_pos rfl, readUnit_escapeUnit (by omega)]
    simp only [Option.bind_eq_bind, Option.bind_some]
    rw [if_pos sized.1, readLow, if_pos ⟨rfl, rfl⟩, readUnit_escapeUnit (by omega)]
    simp only [Option.bind_eq_bind, Option.bind_some]
    rw [if_pos sized.2]
    simp only [Option.bind_some, whole, Char.ofNat_toNat]
    rfl

/-- A quoted string is read back. -/
theorem readString_quote (characters : List Char) (rest : List Char) {fuel : Nat}
    (enough : (characters.flatMap escapeChar).length < fuel) :
    readString fuel (characters.flatMap escapeChar ++ '"' :: rest) = some (characters, rest) := by
  induction characters generalizing fuel with
  | nil =>
    obtain ⟨fuel, rfl⟩ := Nat.exists_eq_succ_of_ne_zero (Nat.ne_of_gt enough)
    rfl
  | cons character others inductionHypothesis =>
    obtain ⟨fuel, rfl⟩ := Nat.exists_eq_succ_of_ne_zero (Nat.ne_of_gt (Nat.zero_lt_of_lt enough))
    rw [List.flatMap_cons, List.length_append] at enough
    obtain ⟨first, following, split, open_, read⟩ :=
      readChar_escapeChar character (others.flatMap escapeChar ++ '"' :: rest)
    have nonempty : 0 < (escapeChar character).length := by
      refine List.length_pos_iff.mpr fun none => ?_
      obtain ⟨_, _, impossible, -⟩ := readChar_escapeChar character []
      rw [none] at impossible
      cases impossible
    rw [List.flatMap_cons, List.append_assoc, split, readString, if_neg open_, read]
    simp only [Option.bind_eq_bind, Option.bind_some]
    rw [inductionHypothesis (by omega)]
    rfl

/-! ### Numbers -/

/-- The text goes on with no digit, and with nothing that makes a longer number. -/
def Ends (rest : List Char) : Prop :=
  ∀ character ∈ rest.head?, character.isDigit = false ∧ character ≠ '.' ∧ character ≠ 'e' ∧
    character ≠ 'E'

/-- An integer without its sign: a zero, or digits that do not begin with one. -/
def readWhole (text : List Char) : Option (List Char × List Char) :=
  if text.head? = some '0' then some (['0'], text.tail)
  else if text.takeWhile Char.isDigit = [] then none
  else some (text.takeWhile Char.isDigit, text.dropWhile Char.isDigit)

/-- A point and digits, when they are there. -/
def readFraction : List Char → List Char × List Char
  | [] => ([], [])
  | point :: rest =>
    if point = '.' ∧ rest.takeWhile Char.isDigit ≠ [] then
      (point :: rest.takeWhile Char.isDigit, rest.dropWhile Char.isDigit)
    else ([], point :: rest)

/-- The sign of an exponent, when it is there. -/
def readSign : List Char → List Char × List Char
  | [] => ([], [])
  | sign :: rest => if sign = '+' ∨ sign = '-' then ([sign], rest) else ([], sign :: rest)

/-- An exponent, when it is there. -/
def readExponent : List Char → List Char × List Char
  | [] => ([], [])
  | letter :: rest =>
    let (sign, digits) := readSign rest
    if (letter = 'e' ∨ letter = 'E') ∧ digits.takeWhile Char.isDigit ≠ [] then
      (letter :: sign ++ digits.takeWhile Char.isDigit, digits.dropWhile Char.isDigit)
    else ([], letter :: rest)

/-- The sign of a number, when it is there. -/
def readMinus (text : List Char) : List Char × List Char :=
  if text.head? = some '-' then (['-'], text.tail) else ([], text)

/-- `int(text)` of an integer token. -/
def wholeValue (sign digits : List Char) : Int :=
  if sign = [] then (Nat.ofDigitChars 10 digits 0 : Int) else -(Nat.ofDigitChars 10 digits 0 : Int)

/-- A number. `floatOf` is `float(text)`. -/
def readNumber (floatOf : String → PyFloat) (text : List Char) : Option (PyValue × List Char) := do
  let (sign, rest) := readMinus text
  let (digits, rest) ← readWhole rest
  let (fraction, rest) := readFraction rest
  let (exponent, rest) := readExponent rest
  if fraction = [] ∧ exponent = [] then return (.int (wholeValue sign digits), rest)
  else return (.float (floatOf (String.ofList (sign ++ digits ++ fraction ++ exponent))), rest)

/-- Digits of an integer that has no needless zero. -/
structure Whole (digits : List Char) : Prop where
  nonempty : digits ≠ []
  all : ∀ character ∈ digits, character.isDigit = true
  leading : digits = ['0'] ∨ digits.head? ≠ some '0'

/-- Nothing, or a point and digits. -/
def IsFraction (text : List Char) : Prop :=
  text = [] ∨ ∃ digits, digits ≠ [] ∧ (∀ character ∈ digits, character.isDigit = true) ∧
    text = '.' :: digits

/-- Nothing, or the exponent of a float's `repr`. -/
def IsExponent (text : List Char) : Prop :=
  text = [] ∨ ∃ sign digits, (sign = '+' ∨ sign = '-') ∧ digits ≠ [] ∧
    (∀ character ∈ digits, character.isDigit = true) ∧ text = 'e' :: sign :: digits

/-- Digits are taken up to the first character that is none. -/
theorem takeWhile_digits {digits rest : List Char}
    (all : ∀ character ∈ digits, character.isDigit = true)
    (ended : ∀ character ∈ rest.head?, character.isDigit = false) :
    (digits ++ rest).takeWhile Char.isDigit = digits ∧
      (digits ++ rest).dropWhile Char.isDigit = rest := by
  rw [List.takeWhile_append_of_pos all, List.dropWhile_append_of_pos all]
  cases rest with
  | nil => simp
  | cons first others =>
    have none_first : ¬first.isDigit = true := by simp [ended first rfl]
    rw [List.takeWhile_cons_of_neg none_first, List.dropWhile_cons_of_neg none_first]
    simp

theorem readWhole_append {digits rest : List Char} (whole : Whole digits)
    (ended : ∀ character ∈ rest.head?, character.isDigit = false) :
    readWhole (digits ++ rest) = some (digits, rest) := by
  unfold readWhole
  rcases whole.leading with rfl | leading
  · rfl
  · obtain ⟨first, others, rfl⟩ := List.exists_cons_of_ne_nil whole.nonempty
    obtain ⟨taken, dropped⟩ := takeWhile_digits whole.all ended
    have other : ((first :: others) ++ rest).head? ≠ some '0' := leading
    rw [if_neg other, taken, dropped, if_neg whole.nonempty]

theorem readFraction_append {text rest : List Char} (fraction : IsFraction text)
    (ended : ∀ character ∈ rest.head?, character.isDigit = false ∧ (text = [] → character ≠ '.')) :
    readFraction (text ++ rest) = (text, rest) := by
  rcases fraction with rfl | ⟨digits, nonempty, all, rfl⟩
  · cases rest with
    | nil => rfl
    | cons first others =>
      rw [List.nil_append, readFraction, if_neg fun here => (ended first rfl).2 rfl here.1]
  · obtain ⟨taken, dropped⟩ := takeWhile_digits all fun character head => (ended character head).1
    rw [List.cons_append, readFraction, taken, dropped, if_pos ⟨rfl, nonempty⟩]

theorem readExponent_append {text rest : List Char} (exponent : IsExponent text)
    (ended : Ends rest) : readExponent (text ++ rest) = (text, rest) := by
  rcases exponent with rfl | ⟨sign, digits, signed, nonempty, all, rfl⟩
  · cases rest with
    | nil => rfl
    | cons first others =>
      obtain ⟨-, -, small, large⟩ := ended first rfl
      rw [List.nil_append, readExponent]
      exact if_neg fun here => here.1.elim small large
  · obtain ⟨taken, dropped⟩ := takeWhile_digits all fun character head => (ended character head).1
    rw [List.cons_append, List.cons_append, readExponent, readSign, if_pos signed]
    dsimp only
    rw [taken, dropped, if_pos ⟨Or.inl rfl, nonempty⟩]
    rfl

/-- A number is read up to the end of its text. -/
theorem readNumber_append (floatOf : String → PyFloat) {sign digits fraction exponent rest : List Char}
    (signed : sign = [] ∨ sign = ['-']) (whole : Whole digits) (fractional : IsFraction fraction)
    (exponential : IsExponent exponent) (ended : Ends rest) :
    readNumber floatOf (sign ++ digits ++ fraction ++ exponent ++ rest) =
      if fraction = [] ∧ exponent = [] then some (.int (wholeValue sign digits), rest)
      else some (.float (floatOf (String.ofList (sign ++ digits ++ fraction ++ exponent))), rest) := by
  -- what follows a part does not make it longer
  have afterExponent : ∀ character ∈ (exponent ++ rest).head?,
      character.isDigit = false ∧ character ≠ '.' := by
    intro character head
    rcases exponential with rfl | ⟨mark, more, -, -, -, rfl⟩
    · exact ⟨(ended character head).1, (ended character head).2.1⟩
    · obtain rfl : 'e' = character := Option.some.inj head
      exact ⟨by decide, by decide⟩
  have afterWhole : ∀ character ∈ (fraction ++ (exponent ++ rest)).head?,
      character.isDigit = false := by
    intro character head
    rcases fractional with rfl | ⟨more, -, -, rfl⟩
    · exact (afterExponent character head).1
    · obtain rfl : '.' = character := Option.some.inj head
      decide
  have minus : readMinus (sign ++ (digits ++ (fraction ++ (exponent ++ rest)))) =
      (sign, digits ++ (fraction ++ (exponent ++ rest))) := by
    rcases signed with rfl | rfl
    · obtain ⟨first, others, rfl⟩ := List.exists_cons_of_ne_nil whole.nonempty
      have digit := whole.all first List.mem_cons_self
      have other : first ≠ '-' := by
        rintro rfl
        exact absurd digit (by decide)
      exact if_neg fun here => other (Option.some.inj here)
    · rfl
  rw [List.append_assoc, List.append_assoc, List.append_assoc, readNumber, minus]
  dsimp only
  rw [readWhole_append whole afterWhole]
  simp only [Option.bind_eq_bind, Option.bind_some]
  rw [readFraction_append fractional fun character head =>
    ⟨(afterExponent character head).1, fun _ => (afterExponent character head).2⟩]
  dsimp only
  rw [readExponent_append exponential ended]
  dsimp only
  split_ifs <;> simp

/-! ### Values -/

/-- The characters JSON allows between tokens. -/
def isBlank (character : Char) : Bool :=
  character = ' ' || character = '\t' || character = '\n' || character = '\r'

def skipBlank (text : List Char) : List Char :=
  text.dropWhile isBlank

/-- The words of the values that are neither numbers nor strings nor containers. -/
def literals : List (List Char × PyValue) :=
  [(['n', 'u', 'l', 'l'], .none), (['t', 'r', 'u', 'e'], .bool true),
    (['f', 'a', 'l', 's', 'e'], .bool false), (['N', 'a', 'N'], .float ⟨"nan"⟩),
    (['I', 'n', 'f', 'i', 'n', 'i', 't', 'y'], .float ⟨"inf"⟩),
    (['-', 'I', 'n', 'f', 'i', 'n', 'i', 't', 'y'], .float ⟨"-inf"⟩)]

def readLiteral (text : List Char) : Option (PyValue × List Char) :=
  literals.findSome? fun (word, value) =>
    if word.isPrefixOf text then some (value, text.drop word.length) else none

mutual

/-- One value, at most the given number of steps. -/
def readValue (floatOf : String → PyFloat) : Nat → List Char → Option (PyValue × List Char)
  | 0, _ => none
  | _ + 1, [] => none
  | fuel + 1, first :: rest =>
    if first = '"' then do
      let (characters, rest) ← readString fuel rest
      return (.str (String.ofList characters), rest)
    else if first = '[' then
      if (skipBlank rest).head? = some ']' then some (.list [], (skipBlank rest).tail)
      else do
        let (items, rest) ← readItems floatOf fuel (skipBlank rest)
        return (.list items, rest)
    else if first = '\x7b' then
      if (skipBlank rest).head? = some '\x7d' then some (.dict [], (skipBlank rest).tail)
      else do
        let (entries, rest) ← readEntries floatOf fuel [] (skipBlank rest)
        return (.dict entries, rest)
    else (readLiteral (first :: rest)).or (readNumber floatOf (first :: rest))

/-- The items of a list, up to its closing bracket. -/
def readItems (floatOf : String → PyFloat) : Nat → List Char → Option (List PyValue × List Char)
  | 0, _ => none
  | fuel + 1, text => do
    let (item, rest) ← readValue floatOf fuel text
    if (skipBlank rest).head? = some ']' then return ([item], (skipBlank rest).tail)
    else if (skipBlank rest).head? = some ',' then do
      let (items, rest) ← readItems floatOf fuel (skipBlank (skipBlank rest).tail)
      return (item :: items, rest)
    else none

/-- The entries of a dict, up to its closing brace. The last entry of a key counts. -/
def readEntries (floatOf : String → PyFloat) : Nat → PyDict → List Char → Option (PyDict × List Char)
  | 0, _, _ => none
  | fuel + 1, found, text =>
    if text.head? = some '"' then do
      let (characters, rest) ← readString fuel text.tail
      if (skipBlank rest).head? = some ':' then do
        let (value, rest) ← readValue floatOf fuel (skipBlank (skipBlank rest).tail)
        let found := PyDict.set found (String.ofList characters) value
        if (skipBlank rest).head? = some '\x7d' then return (found, (skipBlank rest).tail)
        else if (skipBlank rest).head? = some ',' then
          readEntries floatOf fuel found (skipBlank (skipBlank rest).tail)
        else none
      else none
    else none

end

/-- `json.loads(text)`, `none` when it raises. Every step takes a character. -/
def loads (floatOf : String → PyFloat) (text : String) : Option PyValue := do
  let (value, rest) ← readValue floatOf (text.toList.length + 1) (skipBlank text.toList)
  if skipBlank rest = [] then some value else none

/-! ### Blanks and numbers at the front -/

theorem skipBlank_append {blanks rest : List Char}
    (blank : ∀ character ∈ blanks, isBlank character = true)
    (ended : ∀ character ∈ rest.head?, isBlank character = false) :
    skipBlank (blanks ++ rest) = rest := by
  rw [skipBlank, List.dropWhile_append_of_pos blank]
  cases rest with
  | nil => rfl
  | cons first others => exact List.dropWhile_cons_of_neg (by simp [ended first rfl])

theorem skipBlank_of_head {text : List Char}
    (ended : ∀ character ∈ text.head?, isBlank character = false) : skipBlank text = text :=
  @skipBlank_append [] text (by simp) ended

/-- A number begins with its sign or a digit. -/
theorem head_number {sign digits : List Char} (signed : sign = [] ∨ sign = ['-'])
    (whole : Whole digits) :
    ∃ first others, sign ++ digits = first :: others ∧ (first = '-' ∨ first.isDigit = true) := by
  rcases signed with rfl | rfl
  · obtain ⟨first, others, rfl⟩ := List.exists_cons_of_ne_nil whole.nonempty
    exact ⟨first, others, rfl, Or.inr (whole.all first List.mem_cons_self)⟩
  · exact ⟨'-', digits, rfl, Or.inl rfl⟩

/-- A number is no literal. -/
theorem readLiteral_of_number {sign digits rest : List Char} (signed : sign = [] ∨ sign = ['-'])
    (whole : Whole digits) : readLiteral (sign ++ digits ++ rest) = none := by
  obtain ⟨first, others, rfl⟩ := List.exists_cons_of_ne_nil whole.nonempty
  have digit := whole.all first List.mem_cons_self
  have other : ∀ letter ∈ ['n', 't', 'f', 'N', 'I', '-'], letter ≠ first := by
    rintro letter member rfl
    simp only [List.mem_cons, List.not_mem_nil, or_false] at member
    rcases member with rfl | rfl | rfl | rfl | rfl | rfl <;> exact absurd digit (by decide)
  simp only [List.mem_cons, List.not_mem_nil, or_false, forall_eq_or_imp, forall_eq] at other
  rcases signed with rfl | rfl <;> simp [readLiteral, literals, other]

/-- A value that begins as a number is one. -/
theorem readValue_of_number (floatOf : String → PyFloat) {sign digits : List Char}
    (signed : sign = [] ∨ sign = ['-']) (whole : Whole digits) (fuel : Nat) (rest : List Char) :
    readValue floatOf (fuel + 1) (sign ++ digits ++ rest) =
      readNumber floatOf (sign ++ digits ++ rest) := by
  obtain ⟨first, others, same, begins⟩ := head_number signed whole
  have none_literal := @readLiteral_of_number sign digits rest signed whole
  have other : first ≠ '"' ∧ first ≠ '[' ∧ first ≠ '\x7b' := by
    refine ⟨?_, ?_, ?_⟩ <;> rintro rfl <;> exact absurd begins (by decide)
  rw [same, List.cons_append] at none_literal ⊢
  rw [readValue, if_neg other.1, if_neg other.2.1, if_neg other.2.2, none_literal, Option.none_or]

end Json

end FleetMemory
