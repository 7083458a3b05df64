/-
This file is a small library of the string operations the code is written in:
splitting at a separator character, stripping white space, and the whole-string
match of a character class. Splitting and joining are inverse to each other on
parts free of the separator, which is what a key built from such parts relies on.
-/

import Mathlib.Data.List.Basic
import Mathlib.Data.List.Forall2
import Mathlib.Data.List.TakeWhile
import Mathlib.Tactic.Tauto

namespace Text

/-! ### Splitting and joining -/

/-- `text.split(separator)` for a separator of one character. -/
def split (separator : Char) (text : String) : List String :=
  (text.toList.splitOn separator).map String.ofList

/-- `separator.join(parts)` for a separator of one character. -/
def join (separator : Char) (parts : List String) : String :=
  String.ofList ([separator].intercalate (parts.map String.toList))

theorem toList_join_cons_cons (separator : Char) (part next : String) (others : List String) :
    (join separator (part :: next :: others)).toList =
      part.toList ++ separator :: (join separator (next :: others)).toList := by
  simp [join, List.intercalate_cons_cons]

theorem join_singleton (separator : Char) (part : String) : join separator [part] = part := by
  simp [join, List.intercalate]

theorem toList_join_append (separator : Char) {first second : List String} (nonempty : first ≠ [])
    (following : second ≠ []) :
    (join separator (first ++ second)).toList =
      (join separator first).toList ++ separator :: (join separator second).toList := by
  induction first with
  | nil => exact absurd rfl nonempty
  | cons part rest inductionHypothesis =>
    cases rest with
    | nil =>
      obtain ⟨next, others, rfl⟩ := List.exists_cons_of_ne_nil following
      rw [List.singleton_append, toList_join_cons_cons, join_singleton]
    | cons other rest =>
      rw [List.cons_append, List.cons_append, toList_join_cons_cons, toList_join_cons_cons,
        ← List.cons_append, inductionHypothesis (List.cons_ne_nil _ _), List.append_assoc,
        List.cons_append]

theorem split_ne_nil (separator : Char) (text : String) : split separator text ≠ [] := by
  simp [split]

theorem join_split (separator : Char) (text : String) :
    join separator (split separator text) = text := by
  simp [join, split, Function.comp_def, List.intercalate_splitOn]

theorem split_join (separator : Char) (parts : List String) (nonempty : parts ≠ [])
    (free : ∀ part ∈ parts, separator ∉ part.toList) :
    split separator (join separator parts) = parts := by
  have lists : ([separator].intercalate (parts.map String.toList)).splitOn separator =
      parts.map String.toList := by
    refine List.splitOn_intercalate separator ?_ (by simpa using nonempty)
    intro characters member
    obtain ⟨part, inside, rfl⟩ := List.mem_map.mp member
    exact free part inside
  rw [split, join, String.toList_ofList, lists, List.map_map]
  simp [Function.comp_def]

/-- Joined parts are split each by itself. -/
theorem split_join_flatMap (separator : Char) {parts : List String} (nonempty : parts ≠ []) :
    split separator (join separator parts) = parts.flatMap (split separator) := by
  induction parts with
  | nil => exact absurd rfl nonempty
  | cons part rest inductionHypothesis =>
    cases rest with
    | nil => rw [join_singleton, List.flatMap_singleton]
    | cons next others =>
      have later := inductionHypothesis (List.cons_ne_nil _ _)
      rw [List.flatMap_cons, ← later, split, toList_join_cons_cons, List.splitOn_append_cons_self,
        List.map_append]
      rfl

/-- What stands before the first separator stays with the first part. -/
theorem split_append_of_free {separator : Char} {before : String}
    (free : separator ∉ before.toList) (text : String) :
    split separator (before ++ text) =
      (before ++ (split separator text).headD "") :: (split separator text).tail := by
  have lists : (before.toList ++ text.toList).splitOn separator =
      (text.toList.splitOn separator).modifyHead (before.toList ++ ·) := by
    generalize before.toList = characters at free
    induction characters with
    | nil =>
      rw [List.nil_append]
      cases text.toList.splitOn separator <;> rfl
    | cons character rest inductionHypothesis =>
      have different : (character == separator) = false :=
        beq_eq_false_iff_ne.mpr fun same => free (same ▸ List.mem_cons_self)
      rw [List.cons_append, List.splitOn_cons_eq_if_modifyHead, different,
        inductionHypothesis fun member => free (List.mem_cons_of_mem _ member)]
      cases text.toList.splitOn separator <;> rfl
  rw [split, String.toList_append, lists, split]
  cases parts : text.toList.splitOn separator with
  | nil => exact absurd parts (List.splitOn_ne_nil _ _)
  | cons first rest => simp

/-- A character of joined parts is the separator or stands in a part. -/
theorem mem_join {separator character : Char} {parts : List String}
    (member : character ∈ (join separator parts).toList) :
    character = separator ∨ ∃ part ∈ parts, character ∈ part.toList := by
  rw [join, String.toList_ofList] at member
  induction parts with
  | nil => simp [List.intercalate] at member
  | cons part rest inductionHypothesis =>
    cases rest with
    | nil =>
      right
      exact ⟨part, List.mem_cons_self, by simpa [List.intercalate] using member⟩
    | cons next others =>
      rw [List.map_cons, List.map_cons, List.intercalate_cons_cons, List.mem_append,
        List.mem_append, List.mem_singleton] at member
      rcases member with (here | rfl) | later
      · exact Or.inr ⟨part, List.mem_cons_self, here⟩
      · exact Or.inl rfl
      · rcases inductionHypothesis later with same | ⟨other, inside, here⟩
        · exact Or.inl same
        · exact Or.inr ⟨other, List.mem_cons_of_mem _ inside, here⟩

theorem join_three (separator : Char) (first second third : String) :
    join separator [first, second, third] =
      first ++ String.singleton separator ++ second ++ String.singleton separator ++ third := by
  apply String.toList_inj.mp
  simp [join, List.intercalate]

/-- A text has the three given parts exactly when it is their join, for parts free of the
separator. -/
theorem split_eq_three {separator : Char} {first second third : String}
    (freeFirst : separator ∉ first.toList) (freeSecond : separator ∉ second.toList)
    (freeThird : separator ∉ third.toList) (text : String) :
    split separator text = [first, second, third] ↔
      text = join separator [first, second, third] := by
  constructor
  · intro parts
    rw [← parts, join_split]
  · rintro rfl
    refine split_join separator _ (by simp) ?_
    intro part member
    simp only [List.mem_cons, List.not_mem_nil, or_false] at member
    rcases member with rfl | rfl | rfl
    · exact freeFirst
    · exact freeSecond
    · exact freeThird

theorem split_three {separator : Char} {first second third : String}
    (freeFirst : separator ∉ first.toList) (freeSecond : separator ∉ second.toList)
    (freeThird : separator ∉ third.toList) :
    split separator
      (first ++ String.singleton separator ++ second ++ String.singleton separator ++ third) =
        [first, second, third] :=
  (split_eq_three freeFirst freeSecond freeThird _).mpr (join_three separator _ _ _).symm

theorem not_mem_of_mem_splitOn {separator : Char} (characters : List Char) :
    ∀ part ∈ characters.splitOn separator, separator ∉ part := by
  induction characters with
  | nil => simp
  | cons head rest inductionHypothesis =>
    intro part member
    rw [List.splitOn_cons_eq_if_modifyHead] at member
    by_cases same : head = separator
    · simp only [same, beq_self_eq_true, if_true, List.mem_cons] at member
      rcases member with rfl | later
      · simp
      · exact inductionHypothesis part later
    · rw [if_neg (by simpa using same)] at member
      cases parts : rest.splitOn separator with
      | nil => simp at parts
      | cons opening others =>
        rw [parts] at member inductionHypothesis
        simp only [List.modifyHead_cons, List.mem_cons] at member
        rcases member with rfl | later
        · simp only [List.mem_cons, not_or]
          exact ⟨fun equal => same equal.symm, inductionHypothesis opening List.mem_cons_self⟩
        · exact inductionHypothesis part (List.mem_cons_of_mem _ later)

/-- No part of a split holds the separator. -/
theorem not_mem_of_mem_split {separator : Char} {text part : String}
    (member : part ∈ split separator text) : separator ∉ part.toList := by
  obtain ⟨characters, inside, rfl⟩ := List.mem_map.mp member
  rw [String.toList_ofList]
  exact not_mem_of_mem_splitOn text.toList characters inside

theorem mem_of_mem_splitOn {separator character : Char} {characters : List Char} :
    ∀ part ∈ characters.splitOn separator, character ∈ part → character ∈ characters := by
  induction characters with
  | nil => simp
  | cons head rest inductionHypothesis =>
    intro part member inside
    rw [List.splitOn_cons_eq_if_modifyHead] at member
    split at member
    · rcases List.mem_cons.mp member with rfl | later
      · cases inside
      · exact List.mem_cons_of_mem _ (inductionHypothesis part later inside)
    · cases parts : rest.splitOn separator with
      | nil => simp at parts
      | cons opening others =>
        rw [parts] at member inductionHypothesis
        rcases List.mem_cons.mp member with rfl | later
        · rcases List.mem_cons.mp inside with rfl | further
          · exact List.mem_cons_self
          · exact List.mem_cons_of_mem _ (inductionHypothesis opening List.mem_cons_self further)
        · exact List.mem_cons_of_mem _
            (inductionHypothesis part (List.mem_cons_of_mem _ later) inside)

/-- A character of a part of a split is one of the text. -/
theorem mem_of_mem_split {separator character : Char} {text part : String}
    (member : part ∈ split separator text) (inside : character ∈ part.toList) :
    character ∈ text.toList := by
  obtain ⟨characters, mem, rfl⟩ := List.mem_map.mp member
  rw [String.toList_ofList] at inside
  exact mem_of_mem_splitOn characters mem inside

/-- `text.partition(separator)` for a separator of one character: what stands before its first
occurrence, whether it occurs, and what stands behind it. -/
def partition (separator : Char) (text : String) : String × Bool × String :=
  let characters := text.toList
  let rest := characters.dropWhile fun character => character != separator
  (String.ofList (characters.takeWhile fun character => character != separator), !rest.isEmpty,
    String.ofList rest.tail)

/-- A text is partitioned at the first separator. -/
theorem partition_append {separator : Char} {before : String} (free : separator ∉ before.toList)
    (after : String) :
    partition separator (before ++ String.singleton separator ++ after) = (before, true, after) := by
  have keeps : ∀ character ∈ before.toList, (character != separator) = true := by
    intro character member
    simp only [bne_iff_ne]
    rintro rfl
    exact free member
  have whole : (before ++ String.singleton separator ++ after).toList =
      before.toList ++ separator :: after.toList := by
    simp
  simp only [partition, whole, List.takeWhile_append_of_pos keeps,
    List.dropWhile_append_of_pos keeps]
  simp

/-! ### Numerals -/

/-- Numbers with the same numeral are the same number. -/
theorem numeral_injective {first second : Nat} (same : toString first = toString second) :
    first = second := by
  have digits : Nat.toDigits 10 first = Nat.toDigits 10 second := by
    rw [← Nat.toList_repr, ← Nat.toList_repr]
    exact congrArg String.toList same
  rw [← Nat.ofDigitChars_ten_toDigits (n := first), digits, Nat.ofDigitChars_ten_toDigits]

/-- A numeral has only digits. -/
theorem isDigit_of_mem_numeral {number : Nat} {character : Char}
    (member : character ∈ (toString number).toList) : character.isDigit = true := by
  have digits : character ∈ Nat.toDigits 10 number := by
    rw [← Nat.toList_repr]
    exact member
  exact Nat.isDigit_of_mem_toDigits (by decide) (by decide) digits

/-- A text ends in one way only in a separator and a numeral. -/
theorem append_numeral_injective {separator : Char} (apart : separator.isDigit = false)
    {first second : String} {one two : Nat}
    (same : first ++ String.singleton separator ++ toString one =
      second ++ String.singleton separator ++ toString two) : first = second ∧ one = two := by
  have free (number : Nat) : separator ∉ (toString number).toList := fun member => by
    rw [isDigit_of_mem_numeral member] at apart
    cases apart
  have lists : first.toList ++ separator :: (toString one).toList =
      second.toList ++ separator :: (toString two).toList := by
    simpa using congrArg String.toList same
  rcases List.append_eq_append_iff.mp lists with ⟨between, longer, rest⟩ | ⟨between, longer, rest⟩
  · cases between with
    | nil =>
      rw [List.append_nil] at longer
      exact ⟨(String.toList_inj.mp longer).symm,
        numeral_injective (String.toList_inj.mp (List.cons.inj rest).2)⟩
    | cons head between => exact absurd (by rw [(List.cons.inj rest).2]; simp) (free one)
  · cases between with
    | nil =>
      rw [List.append_nil] at longer
      exact ⟨String.toList_inj.mp longer,
        (numeral_injective (String.toList_inj.mp (List.cons.inj rest).2)).symm⟩
    | cons head between => exact absurd (by rw [(List.cons.inj rest).2]; simp) (free two)

/-! ### White space -/

/-- The characters `str.isspace` accepts. -/
def isSpace (character : Char) : Bool :=
  let code := character.toNat
  (0x09 ≤ code && code ≤ 0x0D) || (0x1C ≤ code && code ≤ 0x20) || code == 0x85 || code == 0xA0 ||
    code == 0x1680 || (0x2000 ≤ code && code ≤ 0x200A) || code == 0x2028 || code == 0x2029 ||
    code == 0x202F || code == 0x205F || code == 0x3000

/-- `text.strip()`. -/
def strip (text : String) : String :=
  String.ofList (((text.toList.dropWhile isSpace).reverse.dropWhile isSpace).reverse)

/-- `not text.strip()`. -/
def blank (text : String) : Bool :=
  strip text == ""

/-- A text with white space around it, or none. -/
def Padded (core text : String) : Prop :=
  ∃ before after : List Char, (∀ character ∈ before, isSpace character = true) ∧
    (∀ character ∈ after, isSpace character = true) ∧
    text.toList = before ++ core.toList ++ after

theorem padded_self (core : String) : Padded core core :=
  ⟨[], [], by simp, by simp, by simp⟩

/-- White space is no other character. -/
theorem not_mem_of_padded {core text : String} {character : Char}
    (solid : isSpace character = false) (outside : character ∉ core.toList)
    (padded : Padded core text) : character ∉ text.toList := by
  obtain ⟨before, after, spacesBefore, spacesAfter, whole⟩ := padded
  rw [whole]
  intro member
  rcases List.mem_append.mp member with earlier | last
  · rcases List.mem_append.mp earlier with first | inside
    · rw [spacesBefore character first] at solid
      cases solid
    · exact outside inside
  · rw [spacesAfter character last] at solid
    cases solid

/-- The white space behind joined parts is that behind the last of them. -/
theorem join_padded (separator : Char) {cores padded : List String}
    (each : List.Forall₂ Padded cores padded) (nonempty : cores ≠ []) :
    ∃ trimmed after, List.Forall₂ Padded cores trimmed ∧
      (∀ character ∈ after, isSpace character = true) ∧
      (join separator padded).toList = (join separator trimmed).toList ++ after ∧
      ∃ core ∈ cores, core.toList <:+ (join separator trimmed).toList := by
  induction each with
  | nil => exact absurd rfl nonempty
  | @cons core text cores padded here rest inductionHypothesis =>
    cases rest with
    | nil =>
      obtain ⟨before, after, spacesBefore, spacesAfter, whole⟩ := here
      refine ⟨[String.ofList (before ++ core.toList)], after,
        .cons ⟨before, [], spacesBefore, by simp, by simp⟩ .nil, spacesAfter, ?_,
        core, List.mem_cons_self, ?_⟩
      · simp [join_singleton, whole]
      · simp [join_singleton]
    | @cons nextCore nextText _ others next more =>
      obtain ⟨trimmed, after, trims, spacesAfter, whole, last, member, ends⟩ :=
        inductionHypothesis (by simp)
      obtain ⟨opening, following, -, -, rfl⟩ := List.forall₂_cons_left_iff.mp trims
      refine ⟨text :: opening :: following, after, .cons here trims, spacesAfter, ?_,
        last, List.mem_cons_of_mem _ member, ?_⟩
      · rw [toList_join_cons_cons, toList_join_cons_cons, whole]
        simp
      · rw [toList_join_cons_cons]
        exact ends.trans ((List.suffix_cons _ _).trans (List.suffix_append _ _))

/-- Stripping takes off the white space around characters that neither begin nor end with it. -/
theorem strip_between {before core after : List Char}
    (spacesBefore : ∀ character ∈ before, isSpace character = true)
    (spacesAfter : ∀ character ∈ after, isSpace character = true)
    (first : ∀ character ∈ core.head?, isSpace character = false)
    (last : ∀ character ∈ core.getLast?, isSpace character = false) :
    strip (String.ofList (before ++ core ++ after)) = String.ofList core := by
  have keeps {characters : List Char}
      (begins : ∀ character ∈ characters.head?, isSpace character = false) :
      characters.dropWhile isSpace = characters := by
    cases characters with
    | nil => rfl
    | cons character rest => exact List.dropWhile_cons_of_neg (by simp [begins character rfl])
  have dropped : (before ++ core ++ after).dropWhile isSpace = (core ++ after).dropWhile isSpace := by
    rw [List.append_assoc, List.dropWhile_append_of_pos spacesBefore]
  rw [strip, String.toList_ofList, dropped]
  cases core with
  | nil =>
    have nothing : after.dropWhile isSpace = [] := 
      List.dropWhile_eq_nil_iff.mpr spacesAfter
    simp [nothing]
  | cons character rest =>
    have kept : (character :: rest ++ after).dropWhile isSpace = character :: rest ++ after :=
      keeps first
    rw [kept, List.reverse_append, List.dropWhile_append_of_pos (by simpa using spacesAfter),
      keeps (by rwa [List.head?_reverse]), List.reverse_reverse]

/-- Stripping takes the padding off a text without white space. -/
theorem strip_of_padded {core text : String}
    (solid : ∀ character ∈ core.toList, isSpace character = false) (padded : Padded core text) :
    strip text = core := by
  obtain ⟨before, after, spacesBefore, spacesAfter, whole⟩ := padded
  have stripped : strip (String.ofList (before ++ core.toList ++ after)) =
      String.ofList core.toList :=
    strip_between spacesBefore spacesAfter
      (fun character begins => solid character (List.mem_of_mem_head? begins))
      (fun character ends => solid character (List.mem_of_mem_getLast? ends))
  rwa [← whole, String.ofList_toList, String.ofList_toList] at stripped

/-- A text that holds a character other than white space is not blank. -/
theorem blank_eq_false {text : String} {character : Char} (member : character ∈ text.toList)
    (solid : isSpace character = false) : blank text = false := by
  have kept {characters : List Char} (inside : character ∈ characters) :
      character ∈ characters.dropWhile isSpace := by
    rw [← List.takeWhile_append_dropWhile (p := isSpace) (l := characters)] at inside
    rcases List.mem_append.mp inside with taken | rest
    · rw [List.mem_takeWhile_imp taken] at solid
      cases solid
    · exact rest
  have stays : character ∈ (strip text).toList := by
    rw [strip, String.toList_ofList, List.mem_reverse]
    exact kept (List.mem_reverse.mpr (kept member))
  rw [blank, beq_eq_false_iff_ne]
  intro empty
  simp [empty] at stays

/-- A blank text holds white space only. -/
theorem isSpace_of_blank {text : String} (blanks : blank text = true) :
    ∀ character ∈ text.toList, isSpace character = true := by
  intro character member
  cases solid : isSpace character with
  | true => rfl
  | false =>
    rw [blank_eq_false member solid] at blanks
    cases blanks

/-- A part of a joined text lies on one side of a character it does not hold. -/
theorem infix_append_of_barrier {part first second : List Char}
    (barrier : ∀ character ∈ first.getLast?, character ∉ part)
    (inside : part <:+: first ++ second) : part <:+: first ∨ part <:+: second := by
  rcases List.infix_append_iff_ne_nil.mp inside with left | right | crossing
  · exact Or.inl left
  · exact Or.inr right
  · obtain ⟨ending, opening, nonempty, -, rfl, ⟨before, rfl⟩, -⟩ := crossing
    have last : ending.getLast nonempty ∈ (before ++ ending).getLast? := by
      rw [List.getLast?_append_of_ne_nil _ nonempty, List.getLast?_eq_some_getLast nonempty]
      rfl
    exact absurd (List.mem_append_left _ (List.getLast_mem nonempty)) (barrier _ last)

/-! ### Character classes -/

/-- `re.fullmatch` of one or more characters of a class. -/
def fullMatch (inClass : Char → Bool) (text : String) : Bool :=
  !text.toList.isEmpty && text.toList.all inClass

/-- The text without a line feed at its end, which `$` also matches before. -/
def chomp (text : String) : String :=
  if text.toList.getLast? = some '\n' then String.ofList text.toList.dropLast else text

/-- `[a-z0-9_]`. -/
def lowerWord (character : Char) : Bool :=
  character.isLower || character.isDigit || character == '_'

/-- `[a-zA-Z0-9_]`. -/
def word (character : Char) : Bool :=
  character.isLower || character.isUpper || character.isDigit || character == '_'

/-- The codes of digits. -/
theorem code_of_isDigit {character : Char} (digit : character.isDigit = true) :
    48 ≤ character.toNat ∧ character.toNat ≤ 57 := by
  simp only [Char.isDigit, Bool.and_eq_true, decide_eq_true_eq, UInt32.le_iff_toNat_le,
    ge_iff_le] at digit
  exact digit

/-- The codes of digits, lower-case letters and `_`. -/
theorem code_of_lowerWord {character : Char} (lower : lowerWord character = true) :
    (48 ≤ character.toNat ∧ character.toNat ≤ 57) ∨
      (97 ≤ character.toNat ∧ character.toNat ≤ 122) ∨ character.toNat = 95 := by
  simp only [lowerWord, Bool.or_eq_true, beq_iff_eq] at lower
  rcases lower with (lower | digit) | rfl
  · obtain ⟨above, below⟩ := Bool.and_eq_true_iff.mp lower
    exact Or.inr (Or.inl ⟨UInt32.le_iff_toNat_le.mp (of_decide_eq_true above),
      UInt32.le_iff_toNat_le.mp (of_decide_eq_true below)⟩)
  · exact Or.inl (code_of_isDigit digit)
  · exact Or.inr (Or.inr rfl)

theorem word_of_lowerWord {character : Char} (lower : lowerWord character = true) :
    word character = true := by
  simp only [lowerWord, word, Bool.or_eq_true] at lower ⊢
  tauto

theorem fullMatch_word_of_lowerWord {text : String} (lower : fullMatch lowerWord text = true) :
    fullMatch word text = true := by
  simp only [fullMatch, Bool.and_eq_true, List.all_eq_true] at lower ⊢
  exact ⟨lower.1, fun character member => word_of_lowerWord (lower.2 character member)⟩

/-- The codes of letters, digits and the underscore. -/
theorem code_of_word {character : Char} (inWord : word character = true) :
    0x30 ≤ character.toNat ∧ character.toNat ≤ 0x7A := by
  simp only [word, Bool.or_eq_true, beq_iff_eq] at inWord
  rcases inWord with ((lower | upper) | digit) | rfl
  · have code := @code_of_lowerWord character (by rw [lowerWord, lower]; rfl)
    omega
  · have bounds := of_decide_eq_true upper
    have above : 65 ≤ character.toNat := UInt32.le_iff_toNat_le.mp bounds.1
    have below : character.toNat ≤ 90 := UInt32.le_iff_toNat_le.mp bounds.2
    omega
  · have code := code_of_isDigit digit
    omega
  · decide

theorem isSpace_eq_false_of_code {character : Char} (above : 0x30 ≤ character.toNat)
    (below : character.toNat ≤ 0x7A) : isSpace character = false := by
  simp only [isSpace, Bool.or_eq_false_iff, Bool.and_eq_false_iff, decide_eq_false_iff_not,
    beq_eq_false_iff_ne, not_le]
  omega

/-- A numeral holds no white space. -/
theorem isSpace_of_mem_numeral {number : Nat} {character : Char}
    (member : character ∈ (toString number).toList) : isSpace character = false := by
  have code := code_of_isDigit (isDigit_of_mem_numeral member)
  exact isSpace_eq_false_of_code code.1 (code.2.trans (by decide))

theorem toLower_of_lowerWord {character : Char} (lower : lowerWord character = true) :
    character.toLower = character := by
  refine dif_neg ?_
  rintro ⟨above, below⟩
  have above : 65 ≤ character.toNat := above
  have below : character.toNat ≤ 90 := below
  have code := code_of_lowerWord lower
  omega

theorem toList_toLower (text : String) : text.toLower.toList = text.toList.map Char.toLower :=
  String.toList_map

/-- Small letters stay as they are. -/
theorem toLower_of_fullMatch {text : String} (lower : fullMatch lowerWord text = true) :
    text.toLower = text := by
  simp only [fullMatch, Bool.and_eq_true, List.all_eq_true] at lower
  apply String.toList_inj.mp
  rw [toList_toLower]
  exact (List.map_congr_left fun character member =>
    toLower_of_lowerWord (lower.2 character member)).trans (List.map_id _)

theorem lowerWord_toLower {character : Char} (inWord : word character = true) :
    lowerWord character.toLower = true := by
  have small : character.toNat < 128 := by
    have code := code_of_word inWord
    omega
  have checked : ∀ code < 128, word (Char.ofNat code) = true →
      lowerWord (Char.ofNat code).toLower = true := by decide
  rw [← Char.ofNat_toNat character] at inWord ⊢
  exact checked _ small inWord

/-- A text of word characters holds no separator that is not one. -/
theorem not_mem_of_fullMatch {inClass : Char → Bool} {text : String} {separator : Char}
    (holds : fullMatch inClass text = true) (outside : inClass separator = false) :
    separator ∉ text.toList := by
  intro member
  simp only [fullMatch, Bool.and_eq_true, List.all_eq_true] at holds
  rw [holds.2 separator member] at outside
  cases outside

end Text
